import Pyre.Blocks.Recorder
import Pyre.Supervisor.PaneIndex
import Pyre.Supervisor.Relay

/-!
The pane parsers of the supervisor's batcher beside the pane index and the workers.
A parser is filed under its slot and is never dropped; the slot's entry in the index
and the worker behind it come and go.
-/

set_option autoImplicit false

namespace Pyre.Supervisor
open Base Blocks

/-- A raw event and the worker process it is from, counted for its session. -/
structure Arrival where
  raw : RawEvent
  incarnation : Nat
  deriving DecidableEq, Repr

/-- A `CommandStart` as the parser of the slot produced it: `panes` are the PaneIds the
index mapped to the slot then, `incarnation` is the worker whose bytes were parsed. -/
structure Started where
  key : SlotKey
  block : BlockId
  panes : List PaneId
  incarnation : Nat
  deriving DecidableEq, Repr

/-- Output that the parser of the slot counts to a block. -/
structure Output where
  key : SlotKey
  block : BlockId
  data : Bytes
  incarnation : Nat
  deriving DecidableEq, Repr

/-- Where the batcher is with one raw event, or with the blocks of a closed pane. -/
inductive BatcherStage where
  | idle
  | resolving (a : Arrival)
  | carrying (key : SlotKey)
  deriving DecidableEq, Repr

/-- `panes` are the PaneIds drawn so far. An entry of `paneParsers` has its PaneId; one
without is like none, as its parser is still new. `stale` are the slots with an entry
whose mapping was removed since; `fed`, `started` and `output` are logs. -/
structure Supervision (σ : Type) where
  index : PaneIndex
  panes : List PaneId
  workers : Table SessionKey Nat
  store : Store
  paneParsers : Table SlotKey (Recorder σ)
  stage : BatcherStage
  stale : Finset SlotKey
  fed : List Arrival
  started : List Started
  output : List Output

/-- `index` stands for the other tasks: panes opened, listed and closed, and `remove` of
the registry after a crash, a missed heartbeat or a kill. -/
inductive SupervisionAction where
  | spawnWorker (session : SessionKey)
  | index (op : IndexOp)
  | take (a : Arrival)
  | resolve (pane : PaneId)
  | feed
  | op (o : Op)
  | done
  | finalize (key : SlotKey)
  deriving DecidableEq, Repr

namespace Supervision

variable {σ : Type} (z : Zstd) (vte : Vte σ) (draw : SlotKey → Nat → BlockId)
  (parse : SessionKey → Option SessionId)

def start : Supervision σ := ⟨.empty,[],∅,.empty,∅,.idle,∅,[],[],[]⟩

def spawned (s : Supervision σ) (session : SessionKey) : Nat := (s.workers.lookup session).getD 0

def startedBy (key : SlotKey) (panes : List PaneId) (incarnation : Nat)
    (events : List BlockEvent) : List Started :=
  (startedBlocks events).map fun block => ⟨key,block,panes,incarnation⟩

def outputBy (key : SlotKey) (incarnation : Nat) (events : List BlockEvent) : List Output :=
  events.filterMap fun
    | .outputChunk block data => some ⟨key,block,data,incarnation⟩
    | _ => none

/-- The parser reads the bytes; the events become the jobs of the slot's recorder. -/
def feedRaw (s : Supervision σ) (a : Arrival) (r : Recorder σ) : Supervision σ :=
  let key := a.raw.key
  let r' := if a.raw.bytes = [] then r else r.chunk vte (draw key) a.raw.bytes
  let events := if a.raw.bytes = [] then [] else (r.parser.feed vte (draw key) a.raw.bytes).2
  { s with
    paneParsers := s.paneParsers.insert key r'
    stage := .carrying key
    fed := s.fed ++ [a]
    started := s.started ++ startedBy key (s.index.panesOf key) a.incarnation events
    output := s.output ++ outputBy key a.incarnation events }

/-- The entry of a slot that has none yet: a new parser under the PaneId of the slot.
Events of a closed slot, or under a key that is no UUID, are dropped. -/
def resolveSlot (s : Supervision σ) (a : Arrival) (pane : PaneId) : Supervision σ :=
  match parse a.raw.session with
  | none => { s with stage := .idle }
  | some session =>
    let (index,found) := s.index.getOrAllocPaneBySlot a.raw.session a.raw.slot pane
    match found with
    | some p =>
      { s with
        index := index
        panes := pane :: s.panes
        paneParsers := s.paneParsers.insert a.raw.key (.start vte p session) }
    | none => { s with index := index, panes := pane :: s.panes, stage := .idle }

/-- One step of the batcher or of a task beside it. The UUIDs drawn are new ones. -/
def step (s : Supervision σ) : SupervisionAction → Option (Supervision σ)
  | .spawnWorker session =>
    some { s with workers := s.workers.insert session (s.spawned session + 1) }
  | .index op =>
    if ∀ p ∈ op.drawn, p ∉ s.panes then
      (s.index.step op).map fun index =>
        { s with
          index := index
          panes := op.drawn.toList ++ s.panes
          stale := s.stale ∪ s.paneParsers.keys.toFinset.filter fun key => op.removes key }
    else none
  | .take a =>
    if s.stage = .idle ∧ 1 ≤ a.incarnation ∧ a.incarnation ≤ s.spawned a.raw.session then
      some { s with stage := .resolving a }
    else none
  | .resolve pane =>
    match s.stage with
    | .resolving a =>
      if s.paneParsers.lookup a.raw.key = none ∧ pane ∉ s.panes then
        some (s.resolveSlot vte parse a pane)
      else none
    | _ => none
  | .feed =>
    match s.stage with
    | .resolving a => (s.paneParsers.lookup a.raw.key).map fun r => s.feedRaw vte draw a r
    | _ => none
  | .op o =>
    match s.stage with
    | .carrying key =>
      (s.paneParsers.lookup key).bind fun r =>
        if r.nextOp = some o then
          let (store,r) := r.perform z s.store o
          some { s with store := store, paneParsers := s.paneParsers.insert key r }
        else none
    | _ => none
  | .done =>
    match s.stage with
    | .carrying key =>
      if (s.paneParsers.lookup key).bind Recorder.nextOp = none then some { s with stage := .idle }
      else none
    | _ => none
  | .finalize key =>
    if s.stage = .idle then
      (s.paneParsers.lookup key).map fun r =>
        { s with
          paneParsers := s.paneParsers.insert key (r.paneEnd .hybrid)
          stage := .carrying key }
    else none

end Supervision

end Pyre.Supervisor
