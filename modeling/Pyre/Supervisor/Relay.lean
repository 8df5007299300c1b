import Pyre.Base.Run
import Pyre.Base.Table
import Pyre.Blocks.Machine
import Pyre.Supervisor.PaneIndex

/-!
The way of a pane's output to its block parser in hybrid mode: the PTY reader of a
worker spawns a task for each chunk, the task calls `block_event` of the supervisor,
which serves each request in a task of its own, and these fill the queue of the
batcher. The slots stay open here, so `process_raw_event` always finds a PaneId.
-/

set_option autoImplicit false

namespace Pyre.Supervisor
open Base Blocks

/-- What a worker sends of a chunk. -/
structure RawEvent where
  session : SessionKey
  slot : UInt32
  bytes : Bytes
  deriving DecidableEq, Repr

def RawEvent.key (raw : RawEvent) : SlotKey := (raw.session,raw.slot)

/-- A chunk on its way. `number` counts the chunks read so far; no message has it. -/
structure Chunk where
  number : Nat
  raw : RawEvent
  deriving DecidableEq, Repr

/-- The size of the buffer of the PTY reader. -/
def readBufBytes : Nat := 4096

/-- The capacity of the channel to the batcher. -/
def eventQueueCap : Nat := 4096

/-- `sending` are the tasks of the workers, `serving` those of the supervisor; `batch`
is what the batcher has taken from `pending` and still works off. `read`, `handled`
and `parsed` are logs. -/
structure Relay (σ : Type) where
  read : List Chunk
  sending : List Chunk
  wire : List Chunk
  serving : List Chunk
  queue : List Chunk
  pending : List Chunk
  batch : List Chunk
  handled : List Chunk
  paneParsers : Table SlotKey (BlockParser σ)
  parsed : List (SlotKey × BlockEvent)

inductive RelayAction where
  | read (raw : RawEvent)
  | send (c : Chunk)
  | fail (c : Chunk)
  | accept (c : Chunk)
  | enqueue (c : Chunk)
  | recv
  | flush
  | process
  deriving DecidableEq, Repr

namespace Relay

variable {σ : Type} (vte : Vte σ) (draw : SlotKey → Nat → BlockId)
  (parse : SessionKey → Option SessionId)

def start : Relay σ := ⟨[],[],[],[],[],[],[],[],∅,[]⟩

/-- `process_raw_event` up to the events it goes on to store. A key that is no UUID
has its chunks skipped. -/
def processRawEvent (s : Relay σ) (raw : RawEvent) : Relay σ :=
  match parse raw.session with
  | none => s
  | some session =>
    let p := (s.paneParsers.lookup raw.key).getD (.new vte session)
    let (p,events) := if raw.bytes = [] then (p,[]) else p.feed vte (draw raw.key) raw.bytes
    { s with
      paneParsers := s.paneParsers.insert raw.key p
      parsed := s.parsed ++ events.map (raw.key,·) }

/-- The tasks of a pool go on in any order; a worker has one connection, which keeps
its requests in order; a call that fails is ignored by the worker. -/
def step (s : Relay σ) : RelayAction → Option (Relay σ)
  | .read raw =>
    if raw.bytes ≠ [] ∧ raw.bytes.length ≤ readBufBytes then
      let c : Chunk := ⟨s.read.length,raw⟩
      some { s with read := s.read ++ [c], sending := s.sending ++ [c] }
    else none
  | .send c =>
    if c ∈ s.sending then some { s with sending := s.sending.erase c, wire := s.wire ++ [c] }
    else none
  | .fail c => if c ∈ s.sending then some { s with sending := s.sending.erase c } else none
  | .accept c =>
    if s.wire.find? (fun d => d.raw.session = c.raw.session) = some c then
      some { s with wire := s.wire.erase c, serving := s.serving ++ [c] }
    else none
  | .enqueue c =>
    if c ∈ s.serving ∧ s.queue.length < eventQueueCap then
      some { s with serving := s.serving.erase c, queue := s.queue ++ [c] }
    else none
  | .recv =>
    match s.batch,s.queue with
    | [],c :: queue => some { s with queue := queue, pending := s.pending ++ [c] }
    | _,_ => none
  | .flush =>
    match s.batch with
    | [] => some { s with batch := s.pending, pending := [] }
    | _ => none
  | .process =>
    match s.batch with
    | c :: batch =>
      some { s.processRawEvent vte draw parse c.raw with
        batch := batch, handled := s.handled ++ [c] }
    | [] => none

end Relay

end Pyre.Supervisor
