import Pyre.Base.Joined
import Pyre.Base.Table
import Pyre.Search.BlockSearch

/-!
What the chrome of the GUI reads of the store, with ids as the texts they are there, and what is
derived from it. The chrome is drawn again where a fingerprint of what it shows has changed.
-/

set_option autoImplicit false

namespace Pyre.Gui.Chrome
open Base

inductive PaneState where
  | idle
  | running
  | waiting
  | interactive
  | crashed
  | done
  deriving DecidableEq, Repr

structure SessionInfo where
  id : Text
  name : Text
  paneCount : Nat
  deriving DecidableEq, Repr

structure PaneStateInfo where
  pane : Text
  session : Text
  state : PaneState
  title : Option Text
  agent : Option Text
  name : Option Text
  deriving DecidableEq, Repr

structure WindowInfo where
  id : Text
  name : Text
  position : Nat
  deriving DecidableEq, Repr

/-- What the process line shows of the reply to `inspect_pid`. -/
structure PidReadout where
  pane : Text
  pid : Nat
  comm : Text
  childCount : Nat
  deriving DecidableEq, Repr

/-- The values of `paneStates` stand in the order in which its keys were inserted. -/
structure AppState where
  connected : Bool
  socket : Text
  sessions : List SessionInfo
  activeSession : Option Text
  focusedPane : Option Text
  paneStates : List PaneStateInfo
  windows : Table Text (List WindowInfo)
  activeWindow : Table Text Text
  pidReadout : Option PidReadout
  activeTheme : Text
  agentsOpen : Bool

/-- The store before anything is loaded. -/
def AppState.initial : AppState where
  connected := false
  socket := []
  sessions := []
  activeSession := none
  focusedPane := none
  paneStates := []
  windows := ∅
  activeWindow := ∅
  pidReadout := none
  activeTheme := "ember".toList
  agentsOpen := false

/-- A text in a condition: the empty one is false. -/
def truthy (t : Option Text) : Option Text := t.filter fun t => decide (t ≠ [])

def fieldSep : Char := '\x01'

def rowSep : Char := '\x02'

/-- The separators of the fingerprints are not in the text. -/
def Plain (t : Text) : Prop := fieldSep ∉ t ∧ rowSep ∉ t

instance : DecidablePred Plain := fun _ => inferInstanceAs (Decidable (_ ∧ _))

theorem plain_decimal (n : Nat) : Plain (decimal n) :=
  ⟨notMem_decimal (by decide),notMem_decimal (by decide)⟩

def PaneState.label : PaneState → Text
  | .idle => "idle".toList
  | .running => "running".toList
  | .waiting => "waiting".toList
  | .interactive => "interactive".toList
  | .crashed => "crashed".toList
  | .done => "done".toList

theorem PaneState.label_injective : Function.Injective PaneState.label := by
  intro a b h
  cases a <;> cases b <;> first | rfl | exact absurd h (by decide)

namespace AppState

variable (s : AppState)

/-- What the store has of the active session; nothing where none is active. -/
def activeSessionInfo : Option SessionInfo :=
  (truthy s.activeSession).bind fun id => s.sessions.find? fun info => info.id = id

def totalPaneCount : Nat := s.paneStates.length

def paneStateOf (pane : Text) : Option PaneStateInfo :=
  s.paneStates.find? fun info => info.pane = pane

/-- The name the user gave the pane, or else the fallback. -/
def paneDisplayName (pane fallback : Text) : Text :=
  let name := Search.scriptTrim (((s.paneStateOf pane).bind PaneStateInfo.name).getD [])
  if name = [] then fallback else name

def windowTabs (session : Option Text) : List WindowInfo :=
  (truthy session).elim [] fun id => (s.windows.lookup id).getD []

def activeWindowOf (session : Option Text) : Option Text :=
  (truthy session).bind fun id =>
    match s.windows.lookup id with
    | none | some [] => none
    | some (w :: ws) =>
      match truthy (s.activeWindow.lookup id) with
      | some explicit => if (w :: ws).any (·.id = explicit) then some explicit else some w.id
      | none => some w.id

end AppState

/-- The name of a window, or else its place counted from one. -/
def windowLabel (w : WindowInfo) : Text :=
  let name := Search.scriptTrim w.name
  if name = [] then decimal (w.position+1) else name

end Pyre.Gui.Chrome
