import Pyre.Base.Line
import Pyre.Base.Text

/-!
The way of the keys typed into a pane of the GUI to the input channel of its PTY. Each string
is a command of the bridge that nobody awaits, and at each end of a socket a task of its own.
-/

set_option autoImplicit false

namespace Pyre.Gui
open Base

def isHigh (u : UInt16) : Bool := 0xD800 ≤ u && u ≤ 0xDBFF

def isLow (u : UInt16) : Bool := 0xDC00 ≤ u && u ≤ 0xDFFF

def unitScalar (u : UInt16) : Char := if isHigh u || isLow u then '\uFFFD' else .ofNat u.toNat

/-- The scalar values of a JavaScript string: a surrogate alone is U+FFFD. -/
def scalars : List UInt16 → List Char
  | [] => []
  | [u] => [unitScalar u]
  | u :: v :: units =>
    if isHigh u && isLow v then
      .ofNat (0x10000 + (u.toNat - 0xD800) * 0x400 + (v.toNat - 0xDC00)) :: scalars units
    else unitScalar u :: scalars (v :: units)

/-- `TextEncoder.encode` -/
def textEncode (d : List UInt16) : List UInt8 := encode (scalars d)

inductive Mode where
  | single
  | hybrid
  deriving DecidableEq, Repr

/-- Where a string waits: as a command that has not sent its request, on a control connection
(a client that is replaced leaves one behind), as the task that serves a request. -/
inductive KeyHop where
  | command
  | connection
  | daemonTask
  | supervisorTask
  | workerConnection
  | workerTask
  deriving DecidableEq, Repr

/-- From the channel back to the terminal. -/
def Mode.hops : Mode → List KeyHop
  | .single => [.daemonTask,.connection,.command]
  | .hybrid => [.workerTask,.workerConnection,.supervisorTask,.connection,.command]

/-- `onData` starts a command. `pass` and `arrive` take any string that waits before the hop
they lead to; `fails` is a command, a request or a task that ends without having sent. -/
inductive KeyStep where
  | onData (d : List UInt16)
  | pass (hop place : Nat)
  | arrive (place : Nat)
  | fails (hop place : Nat)
  deriving DecidableEq, Repr

def KeyStep.toLine : KeyStep → LineStep (List UInt8)
  | .onData d => .send (textEncode d)
  | .pass hop place => .pass hop place
  | .arrive place => .arrive place
  | .fails hop place => .lose hop place

/-- What is typed into one pane; `arrived` is what its input channel has received. -/
abbrev Keystrokes := Line (List UInt8)

namespace Keystrokes

def start (mode : Mode) : Keystrokes := .empty mode.hops.length

def step (s : Keystrokes) (e : KeyStep) : Option Keystrokes := Line.step s e.toLine

def typed (s : Keystrokes) : List UInt8 := s.sent.flatMap Item.content

def received (s : Keystrokes) : List UInt8 := s.arrived.flatMap Item.content

/-- The channel has received what was typed first, and all of it once nothing is on its way. -/
def InTypedOrder (s : Keystrokes) : Prop :=
  s.received <+: s.typed ∧ (s.rooms.flatten = [] → s.received = s.typed)

/-- No command fails, and each string gets into the channel before those typed after it. -/
def OldestFirst (s : Keystrokes) (e : KeyStep) : Prop := Line.OldestFirst s e.toLine

theorem inTypedOrder_of_delivers {s : Keystrokes} (h : Line.Delivers s) : s.InTypedOrder := by
  constructor
  · obtain ⟨rest,hrest,-⟩ := h.rest
    rw [typed,hrest,List.flatMap_append]
    exact List.prefix_append _ _
  · intro hnil
    rw [received,typed,h.arrived_of_settled hnil]

end Keystrokes

/-- The task of the second key sends its request before that of the first. -/
def overtakenKey : List KeyStep :=
  [.onData [0x61],.onData [0x62],.pass 1 1,.pass 1 0,.pass 0 0,.pass 0 0,.arrive 0,.arrive 0]

end Pyre.Gui
