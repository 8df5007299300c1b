import Pyre.Search.SearchState
import Pyre.Tui.Resync

/-!
What the terminal client shows over its sessions, and what a key does: the overlays one after
the other, the keys after the prefix, and the pane in focus.
-/

set_option autoImplicit false

namespace Pyre.Tui
open Base Search

inductive KeyCode where
  | char (c : Char)
  | enter
  | backspace
  | tab
  | esc
  | up
  | down
  | right
  | left
  | backTab
  | home
  | endKey
  | insert
  | delete
  | pageUp
  | pageDown
  | f (n : Nat)
  | null
  | other
  deriving DecidableEq, Repr

structure KeyModifiers where
  control : Bool
  others : Bool
  deriving DecidableEq, Repr

def KeyModifiers.none : KeyModifiers := ⟨false,false⟩

/-- Control and nothing else. -/
def KeyModifiers.justControl : KeyModifiers := ⟨true,false⟩

/-- The bytes after an escape. -/
def escaped (s : String) : Bytes := 0x1b :: encode s.toList

def keyToBytes (code : KeyCode) (mods : KeyModifiers) : Option Bytes :=
  match code with
  | .char c =>
    if mods.control then some [UInt8.ofNat c.toLower.toNat &&& 0x1f] else some (encode [c])
  | .enter => some [0x0d]
  | .backspace => some [0x7f]
  | .tab => some [0x09]
  | .esc => some [0x1b]
  | .up => some (escaped "[A")
  | .down => some (escaped "[B")
  | .right => some (escaped "[C")
  | .left => some (escaped "[D")
  | .backTab => some (escaped "[Z")
  | .home => some (escaped "[H")
  | .endKey => some (escaped "[F")
  | .insert => some (escaped "[2~")
  | .delete => some (escaped "[3~")
  | .f 1 => some (escaped "OP")
  | .f 2 => some (escaped "OQ")
  | .f 3 => some (escaped "OR")
  | .f 4 => some (escaped "OS")
  | .f 5 => some (escaped "[15~")
  | .f 6 => some (escaped "[17~")
  | .f 7 => some (escaped "[18~")
  | .f 8 => some (escaped "[19~")
  | .f 9 => some (escaped "[20~")
  | .f 10 => some (escaped "[21~")
  | .f 11 => some (escaped "[23~")
  | .f 12 => some (escaped "[24~")
  | _ => none

/-! ### What is shown -/

/-- What a slot has besides its pane. -/
structure SlotView where
  recentBlocks : List BlockId
  ribbonCursor : Option Nat
  scrollOffset : Nat
  scrollbackCapacity : Nat
  deriving DecidableEq, Repr

/-- A slot as `attach_pane` makes it. -/
def SlotView.attached : SlotView := ⟨[],none,0,0⟩

inductive PromptKind where
  | newSession
  | newTab
  | renameSession (id : SessionId)
  | renameWindow (id : WindowId)
  deriving DecidableEq, Repr

structure NamePrompt where
  kind : PromptKind
  input : Text
  deriving DecidableEq, Repr

inductive MenuItem where
  | copy
  | killPane
  | splitH
  | splitV
  | zoomToggle
  | inspectPid
  deriving DecidableEq, Repr

def menuItems : List MenuItem := [.copy,.killPane,.splitH,.splitV,.zoomToggle,.inspectPid]

structure ContextMenu where
  cursor : Nat
  targetSlot : Nat
  deriving DecidableEq, Repr

structure Theme where
  name : String
  displayName : String
  deriving DecidableEq, Repr

namespace Registry

def builtin : List Theme :=
  [⟨"ember","Ember Black"⟩,⟨"catppuccin-mocha","Catppuccin Mocha"⟩,
    ⟨"catppuccin-latte","Catppuccin Latte"⟩,⟨"tokyo-night","Tokyo Night"⟩,
    ⟨"tokyo-night-light","Tokyo Night Light"⟩,⟨"gruvbox-dark","Gruvbox Dark"⟩,
    ⟨"gruvbox-light","Gruvbox Light"⟩,⟨"one-dark","One Dark"⟩,⟨"one-light","One Light"⟩,
    ⟨"solarized-dark","Solarized Dark"⟩,⟨"solarized-light","Solarized Light"⟩,
    ⟨"kanagawa","Kanagawa"⟩,⟨"rose-pine","Rosé Pine"⟩,⟨"rose-pine-dawn","Rosé Pine Dawn"⟩,
    ⟨"vesper","Vesper"⟩,⟨"nord","Nord"⟩,⟨"dracula","Dracula"⟩,⟨"terminal","Terminal Default"⟩]

def defaultTheme : String := "ember"

def get (name : String) : Option Theme := builtin.find? fun t => t.name = name

def names : List String := builtin.map Theme.name

/-- The theme the client starts with, by the name in its configuration. -/
def startTheme (name : Option String) : Option Theme :=
  (get (name.getD defaultTheme)).or (get defaultTheme)

end Registry

structure ThemePicker where
  cursor : Nat
  names : List String
  original : Theme
  deriving DecidableEq, Repr

/-- The pager over the output of a block. -/
structure Pager where
  block : BlockId
  lines : Nat
  scroll : Nat
  deriving DecidableEq, Repr

namespace Pager

def new (block : BlockId) (raw : Bytes) : Pager := ⟨block,raw.count 0x0a + 1,0⟩

def scrollUp (p : Pager) (n : Nat) : Pager := { p with scroll := p.scroll - n }

def scrollDown (p : Pager) (n visibleRows : Nat) : Pager :=
  { p with scroll := min (p.scroll + n) (p.lines - visibleRows) }

end Pager

inductive RpcError where
  | daemon (e : Text)
  | transport (e : Text)
  deriving DecidableEq, Repr

/-- What is answered to the requests a key or a click makes. `name` is the name a prompt starts
with, `selected` the text of the selection where its pane is there. -/
structure Answers where
  attached : PaneId → Bool
  split : Option PaneId
  window : Option WindowId
  pane : Option PaneId
  session : Option (SessionId × PaneId × WindowId)
  renamed : Except RpcError Unit
  stdout : Except RpcError Bytes
  inspected : Except RpcError Unit
  copied : Except Text Unit
  saved : Except Text Unit
  selected : Option Text
  name : Text

/-- `views` has the slots by their number. `chosen` is the theme that was chosen last, `sent`
what was handed to the panes, and `submitted` what the prompts were closed with. `sessionChips`
and `tabChips` count the chips that were drawn last. -/
structure Screen where
  app : AppState
  views : Nat → SlotView
  helpOpen : Bool
  prompt : Option NamePrompt
  contextMenu : Option ContextMenu
  themePicker : Option ThemePicker
  pager : Option Pager
  prefixActive : Bool
  search : SearchState
  sidebarOpen : Bool
  sidebarFocused : Bool
  sidebarCursor : Nat
  sidebarData : List PaneId
  pidInspect : Bool
  toastsEnabled : Bool
  theme : Theme
  chosen : Theme
  statusMsg : Option Text
  sessionChips : Nat
  tabChips : Nat
  sent : List (PaneId × Bytes)
  submitted : List (PromptKind × Option Text)

/-- One session with a pane, before the others are attached. -/
def initialAppState (session : SessionId) (pane : PaneId) (recentBlocks : List BlockId)
    (theme : Theme) (toastsEnabled : Bool) : Screen where
  app := ⟨[.newSinglePane session pane],0,[some pane],false⟩
  views := Function.update (fun _ => .attached) 0 { SlotView.attached with recentBlocks }
  helpOpen := false
  prompt := none
  contextMenu := none
  themePicker := none
  pager := none
  prefixActive := false
  search := .start
  sidebarOpen := false
  sidebarFocused := false
  sidebarCursor := 0
  sidebarData := []
  pidInspect := false
  toastsEnabled := toastsEnabled
  theme := theme
  chosen := theme
  statusMsg := none
  sessionChips := 0
  tabChips := 0
  sent := []
  submitted := []

inductive KeyAction where
  | go
  | quit
  | detach
  deriving DecidableEq, Repr

namespace AppState

def modifyActive (s : AppState) (f : Tab → Tab) : Option AppState :=
  s.activeView.bind fun sv => sv.tabs[sv.activeTab]?.map fun _ =>
    s.modifyTab s.activeSession sv.activeTab f

def toggleZoom (s : AppState) : Option AppState :=
  s.modifyActive fun tab =>
    { tab with zoomed := if tab.zoomed.isSome then none else some tab.focusPane }

/-- The next tab is the one `turn` makes of the active one and their number. -/
def turnTab (s : AppState) (turn : Nat → Nat → Nat) : Option AppState :=
  s.activeView.bind fun sv =>
    if sv.tabs.length = 0 then none
    else
      let sv := { sv with activeTab := turn sv.activeTab sv.tabs.length % sv.tabs.length }
      some { s with sessions := s.sessions.set s.activeSession sv }

/-- `focus_next`: to the next of the panes that have a slot. -/
def focusNext (s : AppState) (forward : Bool) : Option AppState :=
  s.modifyActive fun tab =>
    let live := tab.root.allLeaves.filter fun p => (paneToSlotIdx s.slots p).isSome
    let current := (live.idxOf? tab.focusPane).getD 0
    let next :=
      if forward then (current + 1) % live.length
      else (current + live.length - 1) % live.length
    { tab with focusPane := live[next]?.getD tab.focusPane }

def closeFocused (s : AppState) : Option AppState :=
  s.activeTab.bind fun tab =>
    match paneToSlotIdx s.slots tab.focusPane with
    | none => some s
    | some slot => s.closePaneInner slot

/-- The places of the pane, one for each of its leaves. -/
def placesOf (s : AppState) (pane : PaneId) : List (Nat × Nat) :=
  s.sessions.zipIdx.flatMap fun (sv,si) => sv.tabs.zipIdx.flatMap fun (tab,ti) =>
    (tab.root.allLeaves.filter (· = pane)).map fun _ => (si,ti)

/-- Where a jump to the pane leads: the search goes on through all sessions, and stops at the
first place in the active one. -/
def jumpTarget (s : AppState) (pane : PaneId) : Option (Nat × Nat × Nat) :=
  (paneToSlotIdx s.slots pane).bind fun slot =>
    (((s.placesOf pane).find? fun (si,_) => si = s.activeSession).or
      (s.placesOf pane).getLast?).map fun (si,ti) => (si,ti,slot)

def jumpTo (s : AppState) (si ti : Nat) (pane : PaneId) : AppState :=
  { s with
    activeSession := si
    sessions := s.sessions.modify si fun sv =>
      { sv with activeTab := ti, tabs := sv.tabs.modify ti fun tab =>
        { tab with focusPane := pane } } }

end AppState

namespace Screen

def say (s : Screen) (text : Text) : Screen := { s with statusMsg := some text }

/-- A slot that is dropped or not there yet stays as it is. -/
def modifyView (s : Screen) (slot : Nat) (f : SlotView → SlotView) : Screen :=
  if s.app.slots[slot]?.join.isSome then
    { s with views := Function.update s.views slot (f (s.views slot)) }
  else s

def ofApp (s : Screen) (app : Option AppState) : Option Screen :=
  app.map fun app => { s with app }

/-- The slot of the pane in focus. -/
def focused (s : Screen) : Option (Option (Nat × PaneId)) :=
  s.app.activeTab.map fun tab =>
    (paneToSlotIdx s.app.slots tab.focusPane).map fun slot => (slot,tab.focusPane)

/-! ### The overlays -/

def helpKey (s : Screen) (code : KeyCode) : Screen :=
  if code = .esc ∨ code = .char 'q' ∨ code = .char '?' then { s with helpOpen := false } else s

def lostKey (code : KeyCode) (mods : KeyModifiers) : KeyAction :=
  if code = .char 'q' ∨ code = .esc ∨ code = .char 'c' ∧ mods = .justControl then .quit else .go

def rename (s : Screen) (done : Option Screen) (renamed : Except RpcError Unit) :
    Option Screen :=
  match renamed with
  | .ok () => done
  | .error (.daemon e) => some (s.say ("rename failed: ".toList ++ e))
  | .error (.transport e) => some (s.say ("rename rpc: ".toList ++ e))

def submit (s : Screen) (a : Answers) (p : NamePrompt) : Option Screen :=
  let input := if p.input = [] then none else some p.input
  let s := { s with prompt := none, submitted := s.submitted ++ [(p.kind,input)] }
  match p.kind with
  | .newSession => some { s with app := s.app.openNewSession a.session a.attached }
  | .newTab => s.ofApp (s.app.openNewTab a.window a.pane a.attached)
  | .renameSession _ => if input = none then some s else s.rename (some s) a.renamed
  | .renameWindow _ =>
    -- the window is looked for in the active session
    if input = none then some s else s.rename (s.app.activeView.map fun _ => s) a.renamed

def promptKey (s : Screen) (a : Answers) (p : NamePrompt) : KeyCode → Option Screen
  | .esc => some { s with prompt := none }
  | .backspace => some { s with prompt := some { p with input := p.input.dropLast } }
  | .enter => s.submit a p
  | .char c => some { s with prompt := some { p with input := p.input ++ [c] } }
  | _ => some s

def runItem (s : Screen) (a : Answers) (target : Nat) : MenuItem → Option (Screen × KeyAction)
  | .copy =>
    match a.selected with
    | none => some (s,.go)
    | some text => some (if text = [] then s else s.say "copied".toList,.go)
  | .killPane => (s.app.closePaneInner target).map fun app =>
    ({ s with app },if app.sessions = [] then .quit else .go)
  | .splitH => (s.ofApp (s.app.splitActive .horizontal a.split a.attached)).map (·,.go)
  | .splitV => (s.ofApp (s.app.splitActive .vertical a.split a.attached)).map (·,.go)
  | .zoomToggle => (s.ofApp s.app.toggleZoom).map (·,.go)
  | .inspectPid => s.app.slots[target]?.map fun
    | none => (s,.go)
    | some _ => match a.inspected with
      | .ok () => ({ s with pidInspect := true },.go)
      | .error (.daemon e) => (s.say ("inspect_pid: ".toList ++ e),.go)
      | .error (.transport e) => (s.say ("rpc transport: ".toList ++ e),.go)

def menuKey (s : Screen) (a : Answers) (m : ContextMenu) : KeyCode → Option (Screen × KeyAction)
  | .esc | .char 'q' => some ({ s with contextMenu := none },.go)
  | .up | .char 'k' => some ({ s with contextMenu := some { m with cursor := m.cursor - 1 } },.go)
  | .down | .char 'j' =>
    some ({ s with
      contextMenu := some { m with cursor := min (m.cursor + 1) (menuItems.length - 1) } },.go)
  | .enter => menuItems[m.cursor]?.bind fun item =>
    { s with contextMenu := none }.runItem a m.targetSlot item
  | _ => some (s,.go)

/-- The theme under the cursor is shown at once. -/
def preview (s : Screen) (p : ThemePicker) (cursor : Nat) : Option Screen :=
  p.names[cursor]?.map fun name =>
    { s with
      themePicker := some { p with cursor }
      theme := (Registry.get name).getD s.theme }

def pickerKey (s : Screen) (a : Answers) (p : ThemePicker) : KeyCode → Option Screen
  | .esc | .char 'q' => some { s with themePicker := none, theme := p.original }
  | .up | .char 'k' => s.preview p (p.cursor - 1)
  | .down | .char 'j' => s.preview p (min (p.cursor + 1) (p.names.length - 1))
  | .enter => p.names[p.cursor]?.map fun name =>
    let s := { s with themePicker := none }
    match Registry.get name with
    | none => s
    | some t =>
      { s with theme := t, chosen := t }.say (match a.saved with
        | .ok () => "theme: ".toList ++ t.displayName.toList
        | .error e => "theme saved (warn: ".toList ++ e ++ ")".toList)
  | _ => some s

def pagerKey (s : Screen) (p : Pager) (height : Nat) (code : KeyCode) : Screen :=
  let visibleRows := height - 2
  match code with
  | .esc | .char 'q' => { s with pager := none }
  | .up | .char 'k' => { s with pager := some (p.scrollUp 1) }
  | .down | .char 'j' => { s with pager := some (p.scrollDown 1 visibleRows) }
  | .pageUp => { s with pager := some (p.scrollUp (max visibleRows 1)) }
  | .pageDown => { s with pager := some (p.scrollDown (max visibleRows 1) visibleRows) }
  | _ => s

/-- To a result, with its block marked in the ribbon of its pane. -/
def jump (s : Screen) (hit : BlockHit) : Screen :=
  match s.app.jumpTarget hit.pane with
  | none => s.say "search: result pane not loaded".toList
  | some (si,ti,slot) =>
    let s := { s with app := s.app.jumpTo si ti hit.pane }
    match (s.views slot).recentBlocks.idxOf? hit.block with
    | none => s
    | some c => s.modifyView slot fun v => { v with ribbonCursor := some c }

def searchStep (s : Screen) (op : SearchStateStep) : Option Screen :=
  (SearchState.step (fun _ _ => true) s.search op).map fun search => { s with search }

def searchKey (s : Screen) (code : KeyCode) (mods : KeyModifiers) : Option Screen :=
  match code with
  | .esc => s.searchStep .escape
  | .enter =>
    if hitsOf s.search.results = [] then s.searchStep .enter
    else (hitsOf s.search.results)[s.search.cursor]?.bind fun hit =>
      (s.jump hit).searchStep .enter
  | .up => s.searchStep .up
  | .down => s.searchStep .down
  | .backspace => s.searchStep .backspace
  | .char c =>
    if c = 'p' ∧ mods = .justControl then s.searchStep .up
    else if c = 'n' ∧ mods = .justControl then s.searchStep .down
    else s.searchStep (.char c)
  | _ => some s

/-! ### The keys after the prefix -/

def openPrompt (s : Screen) (kind : PromptKind) (input : Text) : Screen :=
  { s with prompt := some ⟨kind,input⟩ }

/-- The ribbon of the pane in focus. -/
def setRibbon (s : Screen) (cursor : SlotView → Option Nat) : Option Screen :=
  s.focused.map fun
    | none => s
    | some (slot,_) => s.modifyView slot fun v => { v with ribbonCursor := cursor v }

def copyLast (s : Screen) (a : Answers) : Option Screen :=
  s.focused.map fun
    | none => s
    | some (slot,_) => match (s.views slot).recentBlocks.getLast? with
      | none => s.say "no blocks".toList
      | some _ => match a.stdout with
        | .ok _ => match a.copied with
          | .ok () => s.say "copied to clipboard".toList
          | .error e => s.say ("clipboard error: ".toList ++ e)
        | .error (.daemon e) => s.say ("get_block_stdout rpc: ".toList ++ e)
        | .error (.transport e) => s.say ("rpc transport: ".toList ++ e)

def toggleSidebar (s : Screen) : Screen :=
  { s with sidebarOpen := !s.sidebarOpen, sidebarFocused := !s.sidebarOpen }

def openPicker (s : Screen) : Screen :=
  let cursor := (Registry.names.idxOf? s.theme.name).getD 0
  { s with themePicker := some ⟨cursor,Registry.names,s.theme⟩ }

def toggleToasts (s : Screen) : Screen :=
  { s with toastsEnabled := !s.toastsEnabled }.say
    (if s.toastsEnabled then "notifications off".toList else "notifications on".toList)

def openSearch (s : Screen) : Screen := { s with search := s.search.openSearch, statusMsg := none }

def prefixKey (s : Screen) (a : Answers) : KeyCode → Option (Screen × KeyAction)
  | .char 'q' => some (s,.quit)
  | .char 'd' => some (s,.detach)
  | .char '?' => some ({ s with helpOpen := !s.helpOpen },.go)
  | .char 'c' => (s.ofApp (s.app.openNewTab a.window a.pane a.attached)).map (·,.go)
  | .char 'n' => (s.ofApp (s.app.turnTab fun active _ => active + 1)).map (·,.go)
  | .char 'p' => (s.ofApp (s.app.turnTab fun active n => active + n - 1)).map (·,.go)
  | .char '"' => (s.ofApp (s.app.splitActive .horizontal a.split a.attached)).map (·,.go)
  | .char '%' => (s.ofApp (s.app.splitActive .vertical a.split a.attached)).map (·,.go)
  | .right | .down => (s.ofApp (s.app.focusNext true)).map (·,.go)
  | .left | .up => (s.ofApp (s.app.focusNext false)).map (·,.go)
  | .char '[' => (s.setRibbon fun v => some (v.recentBlocks.length - 1)).map (·,.go)
  | .char ']' => (s.setRibbon fun _ => none).map (·,.go)
  | .char '/' => some (s.openSearch,.go)
  | .char 'z' => (s.ofApp s.app.toggleZoom).map (·,.go)
  | .char 'y' => (s.copyLast a).map (·,.go)
  | .char 'x' => s.app.closeFocused.map fun app =>
    ({ s with app },if app.sessions = [] then .quit else .go)
  | .char 's' => some (s.toggleSidebar,.go)
  | .char 'S' => some (s.openPrompt .newSession [],.go)
  | .char 'T' => some (s.openPicker,.go)
  | .char ',' => s.app.activeView.map fun sv => (s.openPrompt (.renameSession sv.id) a.name,.go)
  | .char '.' => s.app.activeTab.map fun tab =>
    (s.openPrompt (.renameWindow tab.windowId) a.name,.go)
  | .char 'N' => some (s.toggleToasts,.go)
  | _ => some (s,.go)

/-! ### The sidebar and the pane in focus -/

def focusListed (s : Screen) : Option Screen :=
  match s.sidebarData[s.sidebarCursor]? with
  | none => some s
  | some pane => s.app.activeTab.bind fun tab =>
    if pane ∈ tab.root.allLeaves then
      { s with sidebarFocused := false }.ofApp
        (s.app.modifyActive fun tab => { tab with focusPane := pane })
    else some (s.say "open this pane first in a tab to focus".toList)

/-- `none` for a key the sidebar leaves to the pane. -/
def sidebarKey (s : Screen) : KeyCode → Option (Option Screen)
  | .up => some (some { s with sidebarCursor := s.sidebarCursor - 1 })
  | .down =>
    some (some { s with
      sidebarCursor := min (s.sidebarCursor + 1) (s.sidebarData.length - 1) })
  | .enter => some s.focusListed
  | .esc => some (some { s with sidebarFocused := false })
  | _ => none

def openPager (s : Screen) (a : Answers) (block : BlockId) : Screen :=
  match a.stdout with
  | .ok raw => { s with pager := some (.new block raw) }
  | .error (.daemon e) => s.say ("pager: rpc error: ".toList ++ e)
  | .error (.transport e) => s.say ("pager: transport error: ".toList ++ e)

def ribbonKey (s : Screen) (a : Answers) (slot cursor : Nat) (code : KeyCode) : Screen :=
  let blocks := (s.views slot).recentBlocks
  let moveTo (c : Option Nat) := s.modifyView slot fun v => { v with ribbonCursor := c }
  match code with
  | .left | .char 'h' => moveTo (some (cursor - 1))
  | .right | .char 'l' => moveTo (some (min (cursor + 1) (blocks.length - 1)))
  | .esc => moveTo none
  | .enter => match blocks[cursor]? with
    | none => s
    | some block => s.openPager a block
  | _ => s

def send (s : Screen) (slot : Nat) (pane : PaneId) (bytes : Bytes) : Screen :=
  { s.modifyView slot fun v => { v with scrollOffset := 0 } with
    sent := s.sent ++ [(pane,bytes)] }

/-- What becomes of a key that nothing else takes. -/
def paneKey (s : Screen) (a : Answers) (height : Nat) (code : KeyCode) (mods : KeyModifiers) :
    Option Screen :=
  s.focused.map fun
    | none => s
    | some (slot,pane) =>
      let halfPage := max (height / 2) 1
      match (s.views slot).ribbonCursor with
      | some cursor => s.ribbonKey a slot cursor code
      | none =>
        if mods = .none ∧ code = .pageUp then
          s.modifyView slot fun v =>
            { v with scrollOffset := min (v.scrollOffset + halfPage) v.scrollbackCapacity }
        else if mods = .none ∧ code = .pageDown then
          s.modifyView slot fun v => { v with scrollOffset := v.scrollOffset - halfPage }
        else match keyToBytes code mods with
          | none => s
          | some bytes => s.send slot pane bytes

/-- The keys that none of the overlays takes. -/
def plainKey (s : Screen) (a : Answers) (height : Nat) (code : KeyCode) (mods : KeyModifiers) :
    Option Screen :=
  if s.sidebarOpen ∧ s.sidebarFocused then
    (s.sidebarKey code).getD (s.paneKey a height code mods)
  else s.paneKey a height code mods

def isPrefix (code : KeyCode) (mods : KeyModifiers) : Bool :=
  mods.control && (code = .char ' ' || code = .null)

/-- `height` is that of the body. -/
def handleKey (s : Screen) (a : Answers) (height : Nat) (code : KeyCode) (mods : KeyModifiers) :
    Option (Screen × KeyAction) :=
  if s.helpOpen then some (s.helpKey code,.go)
  else if s.app.sessionLost then some (s,lostKey code mods)
  else match s.prompt, s.contextMenu, s.themePicker, s.pager with
  | some p, _, _, _ => (s.promptKey a p code).map (·,.go)
  | none, some m, _, _ => s.menuKey a m code
  | none, none, some p, _ => (s.pickerKey a p code).map (·,.go)
  | none, none, none, some p => some (s.pagerKey p height code,.go)
  | none, none, none, none =>
    if !s.prefixActive && isPrefix code mods then some ({ s with prefixActive := true },.go)
    else if s.prefixActive then { s with prefixActive := false }.prefixKey a code
    else if s.search.opened then (s.searchKey code mods).map (·,.go)
    else (s.plainKey a height code mods).map (·,.go)

end Screen

end Pyre.Tui
