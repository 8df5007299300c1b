import Pyre.Base.Run
import Pyre.Tui.AppState

/-!
What the event loop of the client does: it closes panes whose stream has ended, takes
over sessions, panes and layouts the daemon tells of, drops what the daemon no longer
has, and runs the commands of the user. A reply of the daemon may be anything.
-/

set_option autoImplicit false

namespace Pyre.Tui
open Base

structure PaneInfo where
  id : PaneId
  window : WindowId
  deriving DecidableEq, Repr

/-- A session in the daemon's list, with the answers to the requests made about it:
its panes when it is adopted, its panes when they are synced, and its layout. -/
structure SessionReply where
  id : SessionId
  paneCount : UInt32
  adoptPanes : Option (List PaneInfo)
  panes : Option (List PaneInfo)
  layout : Option LayoutNode
  deriving Repr

inductive LayoutQuery where
  | window (w : WindowId)
  | session (id : SessionId)
  deriving DecidableEq, Repr

/-- The session's layout is asked for where the window is not known. -/
def Tab.query (tab : Tab) (session : SessionId) : LayoutQuery :=
  if tab.windowId ≠ nilWindow then .window tab.windowId else .session session

/-- All panes of the tab have lost their slot. -/
def Tab.allDead (slots : List (Option PaneId)) (tab : Tab) : Bool :=
  tab.root.allLeaves.all fun p => (paneToSlotIdx slots p).isNone

def restoreActiveSession (sessions : List SessionView) (activeSession : Nat)
    (prevActiveId : Option SessionId) : Nat :=
  match prevActiveId with
  | some id =>
    match sessions.findIdx? fun sv => sv.id = id with
    | some i => i
    | none => if sessions = [] then activeSession else sessions.length-1
  | none =>
    if sessions.length ≤ activeSession ∧ sessions ≠ [] then sessions.length-1 else activeSession

namespace AppState

/-! The list of the sessions. -/

def adopt (attached : PaneId → Bool) (known : List SessionId) (s : AppState)
    (info : SessionReply) : AppState :=
  if info.paneCount = 0 ∨ info.id ∈ known then s
  else
    match info.adoptPanes with
    | some (pane :: _) =>
      if attached pane.id then
        { s.pushSlot pane.id with
          sessions := s.sessions ++ [.newSinglePane info.id pane.id] }
      else s
    | _ => s

/-- A pane that has a slot already is not attached again. -/
def attachNew (attached : PaneId → Bool) (s : AppState) (pane : PaneId) : AppState :=
  if (paneToSlotIdx s.slots pane).isSome then s else s.attach attached pane

/-- The session's layout goes to the tab that is active, and where there is none each
new pane gets a tab of its own. -/
def takeNewPanes (s : AppState) (attached : PaneId → Bool) (si : Nat) (newPanes : List PaneInfo)
    (layout : Option LayoutNode) : Option AppState :=
  let s := newPanes.foldl (fun s p => s.attachNew attached p.id) s
  match layout with
  | some layout => s.sessions[si]?.bind fun sv => sv.tabs[sv.activeTab]?.map fun _ =>
    s.modifyTab si sv.activeTab fun tab =>
      { tab with root := layout, focusPane := keepFocus tab.focusPane layout }
  | none =>
    some (newPanes.foldl (fun s p =>
      if (paneToSlotIdx s.slots p.id).isSome then s.pushTab si (.single p.id p.window) else s) s)

/-- The slots of the session's panes that the daemon does not list. -/
def dropSlots (s : AppState) (sv : SessionView) (listed : List PaneId) : AppState :=
  let gone := (sv.tabs.flatMap fun tab => tab.root.allLeaves).filter (· ∉ listed)
  let idxs := gone.filterMap (paneToSlotIdx s.slots)
  { s with slots := idxs.foldl (fun slots i => slots.set i none) s.slots }

def paneSync (attached : PaneId → Bool) (s : AppState) (info : SessionReply) : Option AppState :=
  match s.sessions.findIdx? fun sv => sv.id = info.id with
  | none => some s
  | some si => s.sessions[si]?.bind fun sv =>
    match info.panes with
    | none => some s
    | some panes =>
      let shown := sv.tabs.flatMap fun tab => tab.root.allLeaves
      let newPanes := panes.filter fun p => p.id ∉ shown
      let taken :=
        if newPanes = [] then some s else s.takeNewPanes attached si newPanes info.layout
      taken.bind fun s => s.sessions[si]?.map fun sv => s.dropSlots sv (panes.map PaneInfo.id)

def prune (prevActiveId : Option SessionId) (ids : List SessionId) (s : AppState) : AppState :=
  let sessions := s.sessions.filter fun sv => sv.id ∈ ids
  { s with sessions, activeSession := restoreActiveSession sessions s.activeSession prevActiveId }

def syncSessions (attached : PaneId → Bool) (s : AppState) (infos : List SessionReply) :
    Option AppState :=
  let prevActiveId := s.activeView.map SessionView.id
  let known := s.sessions.map SessionView.id
  (infos.foldlM (paneSync attached) (infos.foldl (adopt attached known) s)).map
    (prune prevActiveId (infos.map SessionReply.id))

/-! The layout of the active tab. -/

def layoutResync (fetch : LayoutQuery → Option LayoutNode) (attached : PaneId → Bool)
    (recentlySplit : Bool) (s : AppState) : Option AppState :=
  s.activeView.bind fun sv => sv.tabs[sv.activeTab]?.map fun tab =>
    match fetch (tab.query sv.id) with
    | none => s
    | some layout =>
      let newIds := layout.allLeaves.filter fun p => (paneToSlotIdx s.slots p).isNone
      let t := newIds.foldl (attach · attached) s
      if tab.root.allLeaves ≠ layout.allLeaves ∧ !recentlySplit then
        t.modifyTab s.activeSession sv.activeTab fun tab =>
          { tab with root := layout, focusPane := keepFocus tab.focusPane layout }
      else t

/-! What is shown when the active tab is dead, and the pane a command asks to focus. -/

/-- The session other than the active one whose active tab has a pane with a slot. -/
def liveSession (s : AppState) : Option (Option Nat) :=
  (List.range s.sessions.length).findM? fun i =>
    if i = s.activeSession then some false
    else s.sessions[i]?.bind fun sv => sv.tabs[sv.activeTab]?.map fun tab =>
      !tab.allDead s.slots

def detectLost (s : AppState) : Option AppState :=
  s.activeView.bind fun sv => sv.tabs[sv.activeTab]?.bind fun tab =>
    if tab.allDead s.slots then
      if s.sessionLost then some s
      else
        match sv.tabs.zipIdx.find? fun (other,i) =>
          i ≠ sv.activeTab ∧ !other.allDead s.slots with
        | some (_,next) => some { s with
            sessions := s.sessions.set s.activeSession { sv with activeTab := next }
            sessionLost := false }
        | none => s.liveSession.map fun
          | some next => { s with activeSession := next, sessionLost := false }
          | none => { s with sessionLost := true }
    else some { s with sessionLost := false }

/-- A request to focus a pane, which has to be in the active tab. -/
def focusSlot (s : AppState) (slot : Nat) : Option AppState :=
  match s.slots[slot]?.join with
  | none => some s
  | some pane => s.activeView.bind fun sv => sv.tabs[sv.activeTab]?.map fun tab =>
    if pane ∈ tab.root.allLeaves then
      s.modifyTab s.activeSession sv.activeTab fun tab => { tab with focusPane := pane }
    else s

end AppState

inductive TuiEvent where
  | splitActive (orient : Orient) (reply : Option PaneId) (attached : PaneId → Bool)
  | openNewTab (window : Option WindowId) (pane : Option PaneId) (attached : PaneId → Bool)
  | openNewSession (reply : Option (SessionId × PaneId × WindowId)) (attached : PaneId → Bool)
  | closeSlots (slots : List Nat)
  | syncSessions (infos : List SessionReply) (attached : PaneId → Bool)
  | layoutResync (fetch : LayoutQuery → Option LayoutNode) (attached : PaneId → Bool)
      (recentlySplit : Bool)
  | detectLost
  | focusSlot (slot : Nat)

def AppState.handle (s : AppState) : TuiEvent → Option AppState
  | .splitActive orient reply attached => s.splitActive orient reply attached
  | .openNewTab window pane attached => s.openNewTab window pane attached
  | .openNewSession reply attached => some (s.openNewSession reply attached)
  | .closeSlots slots => slots.foldlM closePaneInner s
  | .syncSessions infos attached => s.syncSessions attached infos
  | .layoutResync fetch attached recentlySplit => s.layoutResync fetch attached recentlySplit
  | .detectLost => s.detectLost
  | .focusSlot slot => s.focusSlot slot

/-- The loop panics at an index that is out of bounds. -/
inductive EventLoop where
  | running (s : AppState)
  | panicked

/-- Without a session the loop is left. -/
def step : EventLoop → TuiEvent → Option EventLoop
  | .running s, e =>
    if s.sessions = [] then none
    else some ((s.handle e).elim .panicked .running)
  | .panicked, _ => none

end Pyre.Tui
