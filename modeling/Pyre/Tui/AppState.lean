import Mathlib.Data.List.Basic
import Pyre.Layout

/-!
The state of the terminal client: its sessions, their tabs with a layout tree each,
the indices of what is shown, and the panes it is attached to. An operation is `none`
where the code would index out of bounds.
-/

set_option autoImplicit false

namespace Pyre.Tui

/-- The nil UUID, until the window of a tab is known. -/
def nilWindow : WindowId := ⟨0⟩

structure Tab where
  root : LayoutNode
  focusPane : PaneId
  zoomed : Option PaneId
  windowId : WindowId
  deriving Repr

structure SessionView where
  id : SessionId
  tabs : List Tab
  activeTab : Nat
  deriving Repr

/-- A slot is kept as its pane, `none` once it is dropped. -/
structure AppState where
  sessions : List SessionView
  activeSession : Nat
  slots : List (Option PaneId)
  sessionLost : Bool
  deriving Repr

def Tab.single (pane : PaneId) (window : WindowId) : Tab := ⟨.leaf pane,pane,none,window⟩

def SessionView.newSinglePane (id : SessionId) (pane : PaneId) : SessionView :=
  ⟨id,[.single pane nilWindow],0⟩

def paneToSlotIdx (slots : List (Option PaneId)) (pane : PaneId) : Option Nat :=
  slots.findIdx? fun slot => slot = some pane

/-- The pane with the focus stays in it if the new tree has it. -/
def keepFocus (oldFocus : PaneId) (layout : LayoutNode) : PaneId :=
  if oldFocus ∈ layout.allLeaves then oldFocus else layout.allLeaves.head?.getD oldFocus

namespace AppState

def activeView (s : AppState) : Option SessionView := s.sessions[s.activeSession]?

def tabAt (s : AppState) (si ti : Nat) : Option Tab :=
  s.sessions[si]?.bind fun sv => sv.tabs[ti]?

def modifyTab (s : AppState) (si ti : Nat) (f : Tab → Tab) : AppState :=
  { s with sessions := s.sessions.modify si fun sv => { sv with tabs := sv.tabs.modify ti f } }

def pushSlot (s : AppState) (pane : PaneId) : AppState :=
  { s with slots := s.slots ++ [some pane] }

def pushTab (s : AppState) (si : Nat) (tab : Tab) : AppState :=
  { s with sessions := s.sessions.modify si fun sv => { sv with tabs := sv.tabs ++ [tab] } }

/-- Where a stream to the pane can be opened, it gets a slot. -/
def attach (s : AppState) (attached : PaneId → Bool) (pane : PaneId) : AppState :=
  if attached pane then s.pushSlot pane else s

/-! Panes and tabs the user opens. `none` for a reply is a request that failed. -/

def splitActive (s : AppState) (orient : Orient) (reply : Option PaneId)
    (attached : PaneId → Bool) : Option AppState :=
  s.activeView.bind fun sv => sv.tabs[sv.activeTab]?.bind fun tab =>
    let focused := tab.focusPane
    let unzoomed := s.modifyTab s.activeSession sv.activeTab fun tab => { tab with zoomed := none }
    match reply with
    | none => some unzoomed
    | some pane =>
      if attached pane then
        some ((unzoomed.pushSlot pane).modifyTab s.activeSession sv.activeTab fun tab =>
          { tab with root := tab.root.splitFocused focused pane orient, focusPane := pane })
      else some unzoomed

def openNewTab (s : AppState) (window : Option WindowId) (pane : Option PaneId)
    (attached : PaneId → Bool) : Option AppState :=
  s.activeView.bind fun sv =>
    match window, pane with
    | some window, some pane =>
      if attached pane then
        let tabs := sv.tabs ++ [.single pane window]
        some { s.pushSlot pane with
          sessions := s.sessions.set s.activeSession { sv with tabs, activeTab := tabs.length-1 } }
      else some s
    | _, _ => some s

def openNewSession (s : AppState) (reply : Option (SessionId × PaneId × WindowId))
    (attached : PaneId → Bool) : AppState :=
  match reply with
  | none => s
  | some (session,pane,window) =>
    if attached pane then
      let sessions := s.sessions ++ [⟨session,[.single pane window],0⟩]
      { s.pushSlot pane with sessions, activeSession := sessions.length-1 }
    else s

/-! A pane that closes. -/

/-- The first tab that shows the pane. -/
def locatePane (s : AppState) (pane : PaneId) : Option (Nat × Nat) :=
  s.sessions.zipIdx.findSome? fun (sv,si) =>
    (sv.tabs.findIdx? fun tab => pane ∈ tab.root.allLeaves).map fun ti => (si,ti)

/-- A tab without a pane goes, and its session with the last of its tabs. -/
def removeTab (s : AppState) (si ti : Nat) : Option AppState :=
  s.sessions[si]?.bind fun sv =>
    let tabs := sv.tabs.eraseIdx ti
    if tabs = [] then
      let sessions := s.sessions.eraseIdx si
      if sessions = [] then some { s with sessions }
      else some { s with sessions, activeSession := min s.activeSession (sessions.length-1) }
    else
      let active := min ti (tabs.length-1)
      tabs[active]?.map fun tab =>
        let tab := { tab with focusPane := tab.root.allLeaves.head?.getD tab.focusPane }
        let sv := { sv with tabs := tabs.set active tab, activeTab := active }
        { s with sessions := s.sessions.set si sv }

/-- Whether the daemon is told besides makes no difference here. -/
def closePaneInner (s : AppState) (slot : Nat) : Option AppState :=
  match s.slots[slot]?.join with
  | none => some s
  | some pane =>
    match s.locatePane pane with
    | none => some s
    | some (si,ti) => (s.tabAt si ti).bind fun tab =>
      let (root,newFocus) := tab.root.close pane
      let s := { s.modifyTab si ti fun tab => { tab with root } with
        slots := s.slots.set slot none }
      -- the last leaf stays in its tree
      let remaining :=
        if newFocus = none ∧ root.allLeaves = [pane] then [] else root.allLeaves
      if remaining = [] then s.removeTab si ti
      else
        let focus := (newFocus.filter (· ∈ remaining)).or remaining.head?
        some (s.modifyTab si ti fun tab =>
          { tab with focusPane := focus.getD tab.focusPane, zoomed := none })

end AppState

end Pyre.Tui
