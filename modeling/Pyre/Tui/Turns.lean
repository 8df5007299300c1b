import Pyre.Tui.Screen

/-!
The turns of the client's loop: what the daemon tells of is taken over, the frame is drawn, and
one key, paste or mouse event is handled. The lost overlay is drawn alone, and the chips of the
strips then stay those of the frame before.
-/

set_option autoImplicit false

namespace Pyre.Tui
open Base Search

/-- What the wheel is over. -/
inductive Wheel where
  | strip
  | pager
  | pane (slot : Nat)
  | nothing
  deriving DecidableEq, Repr

/-- What a click is on, in the order it is looked for. -/
inductive Hit where
  | menuItem (item : Nat)
  | searchRow (row : Nat)
  | sessionStrip
  | sessionPlus
  | sessionChip (chip : Nat)
  | tabStrip
  | tabPlus
  | tabClose (chip : Nat)
  | tabChip (chip : Nat)
  | sidebarRow (row : Nat)
  | ribbonChip (slot chip : Nat) (double : Bool)
  | pane (slot : Nat)
  | nothing
  deriving DecidableEq, Repr

/-- `onMenu` tells whether a click is inside the rectangle of the context menu. `dragTab` drags
the tab `source` past the middle of another chip. -/
inductive MouseOp where
  | scrollUp (wheel : Wheel)
  | scrollDown (wheel : Wheel) (visible : Nat)
  | rightDown (slot : Option Nat)
  | middleDown (onMenu : Bool)
  | leftDown (onMenu : Bool) (hit : Hit)
  | dragTab (source chip : Nat)
  deriving DecidableEq, Repr

inductive Input where
  | key (code : KeyCode) (mods : KeyModifiers) (height : Nat) (a : Answers)
  | paste (text : Text)
  | mouse (op : MouseOp) (a : Answers)

/-- What the loop takes over; `blocks` is the published map, `histories` in a turn the slots
that are drawn with the lines of their scrollback. -/
inductive News where
  | app (e : TuiEvent)
  | blocks (map : PaneId → Option (List BlockId))
  | searchTick (elapsed : Bool)
  | searchDrain
  | searchReply (call : Nat) (hits : List BlockHit)
  | sidebar (panes : List PaneId)

inductive ClientOp where
  | news (n : News)
  | turn (histories : List (Nat × Nat)) (input : Option Input)

def tabReorder (tabs : List Tab) (source target : Nat) : List Tab :=
  if source = target ∨ tabs.length ≤ source ∨ tabs.length ≤ target then tabs
  else match tabs[source]? with
    | none => tabs
    | some tab => (tabs.eraseIdx source).insertIdx target tab

namespace AppState

def showTab (s : AppState) (ti : Nat) : Option AppState :=
  s.activeView.map fun sv =>
    { s with sessions := s.sessions.set s.activeSession { sv with activeTab := ti } }

def closeTab (s : AppState) (ti : Nat) : Option AppState :=
  s.activeView.bind fun sv => sv.tabs[ti]?.bind fun tab =>
    match paneToSlotIdx s.slots tab.focusPane with
    | none => some s
    | some slot => s.closePaneInner slot

def dragTab (s : AppState) (source target : Nat) : Option AppState :=
  s.activeView.map fun sv =>
    let sv := { sv with tabs := tabReorder sv.tabs source target, activeTab := target }
    { s with sessions := s.sessions.set s.activeSession sv }

end AppState

def SlotView.drain (blocks : Option (List BlockId)) (v : SlotView) : SlotView :=
  match blocks with
  | none => { v with recentBlocks := [], ribbonCursor := none }
  | some blocks =>
    { v with
      recentBlocks := blocks
      ribbonCursor := v.ribbonCursor.bind fun cursor =>
        if blocks = [] then none else some (min cursor (blocks.length - 1)) }

namespace Screen

def news (s : Screen) : News → Option Screen
  | .app e => s.ofApp (s.app.handle e)
  | .blocks map => some { s with views := fun i =>
      match s.app.slots[i]?.join with
      | none => s.views i
      | some pane => (s.views i).drain (map pane) }
  | .searchTick elapsed => some { s with search := s.search.tickDebounce elapsed }
  | .searchDrain => some { s with search := s.search.drain }
  | .searchReply call hits => some ((s.searchStep (.reply call hits)).getD s)
  | .sidebar panes => some { s with
      sidebarData := panes, sidebarCursor := min s.sidebarCursor (panes.length - 1) }

/-- The offset is clamped to the history the pane has now. -/
def drawPane (s : Screen) (drawn : Nat × Nat) : Screen :=
  s.modifyView drawn.1 fun v =>
    { v with scrollbackCapacity := drawn.2, scrollOffset := min v.scrollOffset drawn.2 }

def draw (s : Screen) (histories : List (Nat × Nat)) : Option Screen :=
  if s.app.sessionLost then some s
  else s.app.activeView.bind fun sv => sv.tabs[sv.activeTab]?.map fun _ =>
    { histories.foldl drawPane s with
      sessionChips := s.app.sessions.length, tabChips := sv.tabs.length }

/-! ### The mouse -/

def scroll (s : Screen) (wheel : Wheel) (pager : Pager → Pager) (offset : SlotView → Nat) :
    Option Screen :=
  match wheel with
  | .strip | .nothing => some s
  | .pager => some { s with pager := s.pager.map pager }
  | .pane slot => (s.ofApp (s.app.focusSlot slot)).map fun s =>
    s.modifyView slot fun v => { v with scrollOffset := offset v }

/-- The menu opens for the pane that is clicked. -/
def openMenu (s : Screen) (slot : Option Nat) : Option Screen :=
  let s := { s with contextMenu := none }
  match slot.filter fun slot => s.app.slots[slot]?.join.isSome with
  | none => some s
  | some slot => (s.ofApp (s.app.focusSlot slot)).map fun s =>
    { s with contextMenu := some ⟨0,slot⟩ }

/-- The row may be one of a list that was drawn before. -/
def searchJump (s : Screen) (row : Nat) : Screen :=
  match (hitsOf s.search.results)[row]? with
  | none => { s with search := { s.search with cursor := row }.close }
  | some hit => ((s.jump hit).searchStep (.click row)).getD s

/-- A double click on a chip of the ribbon. -/
def openMarked (s : Screen) (a : Answers) : Option Screen :=
  s.focused.map fun
    | none => s
    | some (slot,_) =>
      match (s.views slot).ribbonCursor.bind fun c => (s.views slot).recentBlocks[c]? with
      | none => s
      | some block => match a.stdout with
        | .ok raw => { s with pager := some (.new block raw) }
        | .error (.daemon e) => s.say ("get_block_stdout: ".toList ++ e)
        | .error (.transport e) => s.say ("rpc transport: ".toList ++ e)

/-- A row of the sidebar takes the focus there, and to its pane if that is in the tab. -/
def clickListed (s : Screen) (row : Nat) : Option Screen :=
  match s.sidebarData[row]? with
  | none => some s
  | some pane => s.app.activeTab.bind fun tab =>
    let s := { s with sidebarCursor := row, sidebarFocused := true }
    if pane ∈ tab.root.allLeaves then
      s.ofApp (s.app.modifyActive fun tab => { tab with focusPane := pane })
    else some s

def dismissMenu (s : Screen) (onMenu : Bool) : Screen :=
  if onMenu then s else { s with contextMenu := none }

def click (s : Screen) (a : Answers) : Hit → Option (Screen × KeyAction)
  | .menuItem item =>
    match s.contextMenu with
    | none => some (s,.go)
    | some m => menuItems[min item (menuItems.length - 1)]?.bind fun item =>
      { s with contextMenu := none }.runItem a m.targetSlot item
  | .searchRow row => some (if s.search.opened then s.searchJump row else s,.go)
  | .sessionStrip | .tabStrip => some ({ s with contextMenu := none },.go)
  | .sessionPlus => some ({ s with contextMenu := none }.openPrompt .newSession [],.go)
  | .tabPlus => some ({ s with contextMenu := none }.openPrompt .newTab [],.go)
  | .sessionChip chip =>
    if chip < s.sessionChips then
      some ({ s with contextMenu := none, app := { s.app with activeSession := chip } },.go)
    else some (s,.go)
  | .tabChip chip =>
    if chip < s.tabChips then
      ({ s with contextMenu := none }.ofApp (s.app.showTab chip)).map (·,.go)
    else some (s,.go)
  | .tabClose chip =>
    if chip < s.tabChips then (s.app.closeTab chip).map fun app =>
      ({ s with contextMenu := none, app },if app.sessions = [] then .quit else .go)
    else some (s,.go)
  | .sidebarRow row => (if s.sidebarOpen then s.clickListed row else some s).map (·,.go)
  | .ribbonChip slot chip double =>
    ((s.ofApp (s.app.focusSlot slot)).bind fun s =>
      let s := s.modifyView slot fun v => { v with ribbonCursor := some chip }
      if double then s.openMarked a else some s).map (·,.go)
  | .pane slot => (s.ofApp (s.app.focusSlot slot)).map (·,.go)
  | .nothing => some (s,.go)

def handleMouse (s : Screen) (a : Answers) : MouseOp → Option (Screen × KeyAction)
  | .scrollUp wheel =>
    (s.scroll wheel (·.scrollUp 3) fun v => min (v.scrollOffset + 3) v.scrollbackCapacity).map
      (·,.go)
  | .scrollDown wheel visible =>
    (s.scroll wheel (·.scrollDown 3 (max visible 1)) fun v => v.scrollOffset - 3).map (·,.go)
  | .rightDown slot => (s.openMenu slot).map (·,.go)
  | .middleDown onMenu => some (s.dismissMenu onMenu,.go)
  | .leftDown onMenu hit => (s.dismissMenu onMenu).click a hit
  | .dragTab source chip =>
    if chip < s.tabChips ∧ chip ≠ source then (s.ofApp (s.app.dragTab source chip)).map (·,.go)
    else some (s,.go)

def bracketed (text : Text) : Bytes := escaped "[200~" ++ encode text ++ escaped "[201~"

/-- A paste goes to the pane in focus whatever is shown over it. -/
def paste (s : Screen) (text : Text) : Option Screen :=
  s.focused.map fun
    | none => s
    | some (slot,pane) => s.send slot pane (bracketed text)

def handleInput (s : Screen) : Input → Option (Screen × KeyAction)
  | .key code mods height a => s.handleKey a height code mods
  | .paste text => (s.paste text).map (·,.go)
  | .mouse op a => s.handleMouse a op

/-- The screen an event finds. -/
def drawn (s : Screen) (histories : List (Nat × Nat)) : Option Screen :=
  (s.ofApp s.app.detectLost).bind fun s => s.draw histories

def turn (s : Screen) (histories : List (Nat × Nat)) (input : Option Input) :
    Option (Screen × KeyAction) :=
  (s.drawn histories).bind fun s => input.elim (some (s,.go)) s.handleInput

end Screen

inductive Client where
  | running (s : Screen)
  | left (s : Screen) (action : KeyAction)
  | panicked

namespace Client

def afterTurn : Option (Screen × KeyAction) → Client
  | none => panicked
  | some (s,.go) => running s
  | some (s,action) => left s action

/-- Without a session the loop is left. -/
def step : Client → ClientOp → Option Client
  | running s, .news n =>
    if s.app.sessions = [] then none else some ((s.news n).elim panicked running)
  | running s, .turn histories input =>
    if s.app.sessions = [] then none else some (afterTurn (s.turn histories input))
  | _, _ => none

end Client

/-! ### A client to start from -/

/-- Every session and pane that is asked for is there at once, and nothing else is. -/
def Answers.opened : Answers where
  attached _ := true
  split := none
  window := none
  pane := none
  session := some (⟨2⟩,⟨2⟩,⟨2⟩)
  renamed := .error (.daemon [])
  stdout := .error (.daemon [])
  inspected := .error (.daemon [])
  copied := .error []
  saved := .ok ()
  selected := none
  name := []

def Screen.ember : Screen :=
  initialAppState ⟨1⟩ ⟨1⟩ [] ⟨"ember","Ember Black"⟩ true

end Pyre.Tui
