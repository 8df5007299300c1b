import Pyre.Base.Text
import Pyre.Base.Transducer
import Pyre.Proto

/-!
The OSC 133 block machine of the daemon, driven by the callbacks a terminal
parser makes, and the block parser that couples it to one.

The terminal parser is a parameter. What is used of it is that it reads the
stream byte by byte, so that its callbacks do not depend on how the stream is cut.
-/

set_option autoImplicit false

namespace Pyre.Blocks
open Base

inductive Callback where
  | print (c : Char)
  | execute (byte : UInt8)
  | oscDispatch (params : List Bytes) (bellTerminated : Bool)
  deriving DecidableEq, Repr

abbrev Vte (σ : Type) := Transducer σ UInt8 Callback

inductive PlainState where
  | ground
  | escape
  | osc (params : List Bytes) (current : Bytes)
  deriving DecidableEq, Repr

/-- The terminal parser on ASCII text and OSC sequences, for runs on fixed bytes. -/
def plainVte : Vte PlainState where
  start := .ground
  next
    | .ground, b =>
      if b = 0x1B then (.escape,[])
      else if b < 0x20 then (.ground,[.execute b])
      else (.ground,[.print (Char.ofNat b.toNat)])
    | .escape, b => if b = 0x5D then (.osc [] [],[]) else (.ground,[])
    | .osc params current, b =>
      if b = 0x07 then (.ground,[.oscDispatch (params ++ [current]) true])
      else if b = 0x1B then (.escape,[.oscDispatch (params ++ [current]) false])
      else if b = 0x3B then (.osc (params ++ [current]) [],[])
      else if b < 0x20 then (.osc params current,[])
      else (.osc params (current ++ [b]),[])

/-- The OSC 133 sequence with the given parameters, ended by BEL. -/
def osc133Bytes (params : String) : Bytes :=
  [0x1B,0x5D] ++ encode ("133;" ++ params).toList ++ [0x07]

def outputFlushBytes : Nat := 4096

/-- `drawn` counts the block ids drawn so far: the n-th call of `Uuid::new_v4`
yields `draw n`, for a `draw` that every function below takes. -/
structure BlockMachine where
  session : SessionId
  currentBlock : Option BlockId
  cmdBuf : Bytes
  capturingCmd : Bool
  outBuf : Bytes
  pending : List BlockEvent
  drawn : Nat
  deriving DecidableEq, Repr

namespace BlockMachine

def new (session : SessionId) : BlockMachine := ⟨session,none,[],false,[],[],0⟩

def flushOutput (m : BlockMachine) : BlockMachine :=
  match m.currentBlock with
  | some block =>
    if m.outBuf = [] then m
    else { m with outBuf := [], pending := m.pending ++ [.outputChunk block m.outBuf] }
  | none => m

def pushByte (m : BlockMachine) (b : UInt8) : BlockMachine :=
  if m.currentBlock.isSome then
    let m : BlockMachine := { m with outBuf := m.outBuf ++ [b] }
    if outputFlushBytes ≤ m.outBuf.length ∨ b = 0x0A then m.flushOutput else m
  else if m.capturingCmd ∧ b ≠ 0 then { m with cmdBuf := m.cmdBuf ++ [b] }
  else m

def osc133 : Bytes := [0x31,0x33,0x33]

/-- The exit code in the third parameter of a D mark, if it is there and parses. -/
def exitCode (params : List Bytes) : Option Int :=
  (params[2]?.bind fromUtf8).bind fun s => parseI32 (trim s)

def oscDispatch (draw : Nat → BlockId) (m : BlockMachine) (params : List Bytes) : BlockMachine :=
  if params.head? ≠ some osc133 then m
  else
    let sub := params.getD 1 []
    if sub.head? = some 0x41 then
      let m := m.flushOutput
      { m with
        cmdBuf := []
        capturingCmd := true
        currentBlock := none
        pending := m.pending ++ [.promptStart m.session] }
    else if sub.head? = some 0x42 then m
    else if sub.head? = some 0x43 then
      let command := trimEnd (fromUtf8Lossy m.cmdBuf)
      let block := draw m.drawn
      { m with
        cmdBuf := []
        capturingCmd := false
        currentBlock := some block
        pending := m.pending ++ [.commandStart m.session block command none]
        drawn := m.drawn+1 }
    else if sub.head? = some 0x44 then
      let m := m.flushOutput
      match m.currentBlock with
      | some block =>
        { m with
          currentBlock := none
          pending := m.pending ++ [.blockEnd block (exitCode params)] }
      | none => m
    else m

def react (draw : Nat → BlockId) (m : BlockMachine) : Callback → BlockMachine
  | .print c => (String.utf8EncodeChar c).foldl pushByte m
  | .execute byte => m.pushByte byte
  | .oscDispatch params _ => m.oscDispatch draw params

end BlockMachine

structure BlockParser (σ : Type) where
  parser : σ
  machine : BlockMachine

namespace BlockParser

variable {σ : Type} (vte : Vte σ) (draw : Nat → BlockId)

def new (session : SessionId) : BlockParser σ := ⟨vte.start,.new session⟩

/-- The parser after the bytes, and the events it hands out for them. -/
def feed (p : BlockParser σ) (bytes : Bytes) : BlockParser σ × List BlockEvent :=
  let (parser,callbacks) := vte.run p.parser bytes
  let machine := (callbacks.foldl (BlockMachine.react draw) p.machine).flushOutput
  (⟨parser,{ machine with pending := [] }⟩, machine.pending)

def feedAll (p : BlockParser σ) : List Bytes → BlockParser σ × List BlockEvent
  | [] => (p,[])
  | bytes :: rest =>
    let (p,events) := p.feed vte draw bytes
    let (q,more) := feedAll p rest
    (q, events ++ more)

end BlockParser

end Pyre.Blocks
