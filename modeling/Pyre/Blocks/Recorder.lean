import Pyre.Base.Run
import Pyre.Blocks.Naming
import Pyre.Blocks.Store

/-!
The task that records the blocks of one pane: it feeds the chunks to the block
parser and carries each event into the store, one await after the other. There are
two copies of it, the parser task of `spawn_pty` and the supervisor's batcher.
-/

set_option autoImplicit false

namespace Pyre.Blocks
open Base

/-- The parser task of a daemon of its own, or the batcher of the supervisor. -/
inductive Mode where
  | single
  | hybrid
  deriving DecidableEq, Repr

/-- What the task has still to do: handle an event, or finish a block at the end
of the pane. -/
inductive Job where
  | event (e : BlockEvent)
  | drain (block : BlockId)
  deriving DecidableEq, Repr

/-- Where the task is within a job. -/
inductive Stage where
  | idle
  | opening (block : BlockId) (command : Text)
  | finalizing (block : BlockId) (exit : Option Int) (stdoutLen : Nat)
  deriving DecidableEq, Repr

/-- The accesses to the store, one for each await of a job. -/
inductive Op where
  | skip
  | create (block : BlockId) (command : Text) (cwd : Option Text)
  | openBlob (block : BlockId) (command : Text)
  | write (block : BlockId) (data : Bytes)
  | close (block : BlockId) (exit : Option Int)
  | finalize (block : BlockId) (exit : Option Int) (stdoutLen : Nat)
  deriving DecidableEq, Repr

structure Recorder (σ : Type) where
  parser : BlockParser σ
  pane : PaneId
  session : SessionId
  writers : Table BlockId BlobWriter
  blockMeta : Table BlockId Text
  queue : List Job
  stage : Stage
  accepting : Bool

def Job.op : Job → Op
  | .event (.promptStart _) => .skip
  | .event (.commandStart _ block command cwd) => .create block command cwd
  | .event (.outputChunk block data) => .write block data
  | .event (.blockEnd block exit) => .close block exit
  | .drain block => .close block none

namespace Recorder

variable {σ : Type}

def start (vte : Vte σ) (pane : PaneId) (session : SessionId) : Recorder σ :=
  ⟨.new vte session,pane,session,∅,∅,[],.idle,true⟩

def nextOp (r : Recorder σ) : Option Op :=
  match r.stage with
  | .opening block command => some (.openBlob block command)
  | .finalizing block exit stdoutLen => some (.finalize block exit stdoutLen)
  | .idle => r.queue.head?.map Job.op

def perform (z : Zstd) (st : Store) (r : Recorder σ) : Op → Store × Recorder σ
  | .skip => (st,{ r with queue := r.queue.tail })
  | .create block command cwd =>
    match st.createBlock block ⟨r.pane,r.session,command,cwd,false,none,0⟩ with
    | some st => (st,{ r with queue := r.queue.tail, stage := .opening block command })
    | none => (st,{ r with queue := r.queue.tail })
  | .openBlob block command =>
    let (st,w) := st.openWriter z block
    (st,{ r with
      writers := r.writers.insert block w
      blockMeta := r.blockMeta.insert block command
      stage := .idle })
  | .write block data =>
    match r.writers.lookup block with
    | some w =>
      let (st,w) := st.write z block w data
      (st,{ r with queue := r.queue.tail, writers := r.writers.insert block w })
    | none => (st,{ r with queue := r.queue.tail })
  | .close block exit =>
    match r.writers.lookup block with
    | some w =>
      let (st,stdoutLen) := st.close z block w
      (st,{ r with
        queue := r.queue.tail
        writers := r.writers.erase block
        stage := .finalizing block exit stdoutLen })
    | none => (st,{ r with queue := r.queue.tail, stage := .finalizing block exit 0 })
  | .finalize block exit stdoutLen =>
    (st.finalizeBlock block exit stdoutLen,
      { r with blockMeta := r.blockMeta.erase block, stage := .idle })

/-- The task waits for its next chunk. -/
def waiting (r : Recorder σ) : Bool := r.queue.isEmpty && r.stage = .idle && r.accepting

def chunk (vte : Vte σ) (draw : Nat → BlockId) (r : Recorder σ) (bytes : Bytes) : Recorder σ :=
  let (parser,events) := r.parser.feed vte draw bytes
  { r with parser := parser, queue := events.map .event }

/-- The end of the pane: `spawn_pty` drains its writers and is over,
`finalize_one_pane_state` drains the block metadata and keeps the parser. -/
def paneEnd (mode : Mode) (r : Recorder σ) : Recorder σ :=
  match mode with
  | .single => { r with queue := r.writers.keys.map .drain, accepting := false }
  | .hybrid => { r with queue := r.blockMeta.keys.map .drain }

theorem nextOp_cases {r : Recorder σ} {o : Op} (h : r.nextOp = some o) :
    (∃ block command, r.stage = .opening block command ∧ o = .openBlob block command) ∨
    (∃ block exit len, r.stage = .finalizing block exit len ∧ o = .finalize block exit len) ∨
    (r.stage = .idle ∧ ∃ job rest, r.queue = job :: rest ∧ o = job.op) := by
  unfold Recorder.nextOp at h
  cases hs : r.stage with
  | opening block command => simp_all
  | finalizing block exit len => simp_all
  | idle =>
    cases hq : r.queue with
    | nil => simp [hs,hq] at h
    | cons job rest => simp_all

/-- A create comes from a `CommandStart` in the queue. -/
theorem mem_queue_of_create {r : Recorder σ} {b : BlockId} {command : Text} {cwd : Option Text}
    (h : r.nextOp = some (.create b command cwd)) :
    ∃ session, .event (.commandStart session b command cwd) ∈ r.queue := by
  rcases nextOp_cases h with ⟨_,_,-,ho⟩ | ⟨_,_,_,-,ho⟩ | ⟨-,job,rest,hq,ho⟩
  · cases ho
  · cases ho
  · cases job with
    | drain c => cases ho
    | event e =>
      cases e with
      | commandStart session c command' cwd' =>
        obtain ⟨rfl,rfl,rfl⟩ : b = c ∧ command = command' ∧ cwd = cwd' := by
          simpa [Job.op] using ho
        exact ⟨session,by simp [hq]⟩
      | _ => cases ho

section Perform

variable {z : Zstd} {st : Store} {r : Recorder σ} {b : BlockId} {row : Block} {o : Op}

theorem perform_pane : (r.perform z st o).2.pane = r.pane := by
  cases o <;> simp only [perform] <;> split <;> rfl

theorem mem_queue_of_perform {j : Job} (h : j ∈ (r.perform z st o).2.queue) : j ∈ r.queue := by
  cases o with
  | skip => exact List.mem_of_mem_tail h
  | openBlob c command => exact h
  | finalize c exit stdoutLen => exact h
  | _ =>
    simp only [perform] at h
    split at h <;> exact List.mem_of_mem_tail h

/-- The rows an operation leaves are those of before and the one it creates. -/
theorem row_of_perform (h : (r.perform z st o).1.rows.lookup b = some row) :
    (∃ row', st.rows.lookup b = some row' ∧ row'.pane = row.pane) ∨
      ∃ command cwd, o = .create b command cwd ∧ row.pane = r.pane := by
  cases o with
  | skip => exact Or.inl ⟨row,h,rfl⟩
  | openBlob c command => exact Or.inl ⟨row,h,rfl⟩
  | write c data =>
    simp only [perform] at h
    split at h <;> exact Or.inl ⟨row,h,rfl⟩
  | close c exit =>
    simp only [perform] at h
    split at h <;> exact Or.inl ⟨row,h,rfl⟩
  | create c command cwd =>
    by_cases hc : (st.rows.lookup c).isSome
    · simp only [perform,Store.createBlock,hc,if_true] at h
      exact Or.inl ⟨row,h,rfl⟩
    · simp only [perform,Store.createBlock,hc,Bool.false_eq_true,if_false] at h
      rcases Table.lookup_insert_eq_some.mp h with ⟨rfl,rfl⟩ | ⟨-,h⟩
      · exact Or.inr ⟨command,cwd,rfl,rfl⟩
      · exact Or.inl ⟨row,h,rfl⟩
  | finalize c exit stdoutLen =>
    left
    by_cases hbc : b = c
    · subst hbc
      cases hrow : st.rows.lookup b with
      | none => simp [perform,Store.finalizeBlock,hrow] at h
      | some row' =>
        rw [perform,lookup_finalizeBlock_self hrow,Option.some.injEq] at h
        exact ⟨row',rfl,by rw [← h]⟩
    · rw [perform,(lookup_finalizeBlock_ne st hbc exit stdoutLen).1] at h
      exact ⟨row,h,rfl⟩

end Perform

end Recorder

/-- The store and the task, which a killed daemon leaves without. -/
structure Recording (σ : Type) where
  store : Store
  task : Option (Recorder σ)

inductive Action where
  | chunk (bytes : Bytes)
  | op (o : Op)
  | paneEnd
  | crash
  | reopen
  deriving DecidableEq, Repr

namespace Recording

variable {σ : Type} (z : Zstd) (vte : Vte σ) (draw : Nat → BlockId) (mode : Mode)

def start (pane : PaneId) (session : SessionId) : Recording σ :=
  ⟨.empty,some (.start vte pane session)⟩

def step (s : Recording σ) : Action → Option (Recording σ)
  | .chunk bytes =>
    s.task.bind fun r =>
      if r.waiting then some { s with task := some (r.chunk vte draw bytes) } else none
  | .op o =>
    s.task.bind fun r =>
      if r.nextOp = some o then
        let (st,r) := r.perform z s.store o
        some ⟨st,some r⟩
      else none
  | .paneEnd =>
    s.task.bind fun r =>
      if r.waiting then some { s with task := some (r.paneEnd mode) } else none
  | .crash => s.task.map fun _ => { s with task := none }
  | .reopen => if s.task.isNone then some { s with store := s.store.reconcile } else none

end Recording

end Pyre.Blocks
