import Pyre.Blocks.Recorder

/-!
What can be read back of a block at each point of its life. The blob of an open
writer is a truncated frame, so it reads as an error; what is stored is exact
once the writer is closed, unless something of the block comes later.
-/

set_option autoImplicit false

namespace Pyre.Blocks
open Base

inductive Life where
  | unborn
  | created
  | writing
  | closed
  | finalised
  | spoiled
  | left
  deriving DecidableEq, Repr

/-- What the steps of a run have done to one block. -/
structure Past where
  life : Life
  output : Bytes
  finalized : Bool
  deriving DecidableEq, Repr

def Past.start : Past := ⟨.unborn,[],false⟩

/-- A point of the life at which what is stored is exact. -/
def Life.Settled : Life → Prop
  | .unborn | .created | .closed | .finalised => True
  | .writing | .spoiled | .left => False

namespace Life

/-- Output handled after the block was finalised is lost. -/
def written (data : Bytes) : Life → Life
  | .finalised => if data = [] then .finalised else .spoiled
  | l => l

def closing : Life → Life
  | .writing => .closed
  | l => l

/-- A second finalisation finds no writer and stores the length 0. -/
def finalizing (output : Bytes) : Life → Life
  | .closed => .finalised
  | .finalised => if output = [] then .finalised else .spoiled
  | l => l

/-- The stamp after a crash keeps the length 0 of the row. -/
def reopened (output : Bytes) : Life → Life
  | .created => .finalised
  | .writing => .left
  | .closed => if output = [] then .finalised else .spoiled
  | l => l

end Life

def Past.step (b : BlockId) (p : Past) : Action → Past
  | .op (.create block _ _) => if block = b then { p with life := .created } else p
  | .op (.openBlob block _) => if block = b then { p with life := .writing } else p
  | .op (.write block data) =>
    if block = b then { p with life := p.life.written data, output := p.output ++ data } else p
  | .op (.close block _) => if block = b then { p with life := p.life.closing } else p
  | .op (.finalize block _ _) =>
    if block = b then { p with life := p.life.finalizing p.output, finalized := true } else p
  | .reopen => { p with life := p.life.reopened p.output }
  | _ => p

def past (b : BlockId) (actions : List Action) : Past := actions.foldl (Past.step b) .start

/-- Reading the block gives a prefix of its output, all of it once it has been
finalised by the task, and the row of an ended block has the length of what is read. -/
def StoredExactly (z : Zstd) (st : Store) (b : BlockId) (output : Bytes) (finalized : Bool) : Prop :=
  ∃ data, st.readBlockStdout z b = some data ∧ data <+: output ∧
    (finalized = true → data = output) ∧
    ∀ row, st.rows.lookup b = some row → row.ended = true → row.stdoutLen = data.length

/-- What is on disk of a block, by its past. -/
def OnDisk (z : Zstd) (st : Store) (b : BlockId) (p : Past) : Prop :=
  match p.life with
  | .unborn => st.rows.lookup b = none ∧ st.blobs.lookup b = none ∧ p.output = []
  | .created =>
    ∃ row, st.rows.lookup b = some row ∧ row.ended = false ∧ row.stdoutLen = 0 ∧
      st.blobs.lookup b = none ∧ p.output = []
  | .writing =>
    ∃ row ws, st.rows.lookup b = some row ∧ row.ended = false ∧ row.stdoutLen = 0 ∧
      st.blobs.lookup b = some (z.spill ws) ∧ ws.flatten = p.output
  | .closed =>
    ∃ row, st.rows.lookup b = some row ∧ row.ended = false ∧ row.stdoutLen = 0 ∧
      st.readBlockStdout z b = some p.output
  | .finalised =>
    ∃ row, st.rows.lookup b = some row ∧ row.ended = true ∧ row.stdoutLen = p.output.length ∧
      st.readBlockStdout z b = some p.output
  | .spoiled =>
    ∃ row data, st.rows.lookup b = some row ∧ row.ended = true ∧
      st.readBlockStdout z b = some data ∧
      ((data ≠ [] ∧ row.stdoutLen = 0) ∨ (p.finalized = true ∧ data.length < p.output.length))
  | .left => ∃ ws, st.blobs.lookup b = some (z.spill ws)

theorem read_of_blob {z : Zstd} {st : Store} {b : BlockId} {file : Bytes}
    (h : st.blobs.lookup b = some file) : st.readBlockStdout z b = z.decode file := by
  simp [Store.readBlockStdout,h]

theorem read_of_no_blob {z : Zstd} {st : Store} {b : BlockId} (h : st.blobs.lookup b = none) :
    st.readBlockStdout z b = some [] := by
  simp [Store.readBlockStdout,h]

theorem storedExactly_iff {z : Zstd} (hz : z.Lawful) {st : Store} {b : BlockId} {p : Past}
    (h : OnDisk z st b p) (hfin : p.finalized = true → p.life = .finalised ∨ p.life = .spoiled) :
    StoredExactly z st b p.output p.finalized ↔ p.life.Settled := by
  unfold OnDisk at h
  unfold StoredExactly
  cases hl : p.life with
  | unborn =>
    have hread := read_of_no_blob (z := z) (hl ▸ h).2.1
    simp [hl] at h hfin
    simp [hread,Life.Settled,hfin,h]
  | created =>
    simp only [hl] at h hfin
    obtain ⟨row,hrow,hend,-,hblob,hout⟩ := h
    simp [read_of_no_blob hblob,Life.Settled,hout,hrow,hend]
  | writing =>
    simp only [hl] at h
    obtain ⟨row,ws,-,-,-,hblob,-⟩ := h
    simp [read_of_blob hblob,hz.decode_spill ws,Life.Settled]
  | closed =>
    simp only [hl] at h
    obtain ⟨row,hrow,hend,-,hread⟩ := h
    simp [hread,Life.Settled,hrow,hend]
  | finalised =>
    simp only [hl] at h
    obtain ⟨row,hrow,hend,hlen,hread⟩ := h
    simp [hread,Life.Settled,hrow,hlen]
  | spoiled =>
    simp only [hl] at h
    obtain ⟨row,data,hrow,hend,hread,hbad⟩ := h
    simp only [Life.Settled,iff_false]
    rintro ⟨data',hread',-,hwhole,hlen⟩
    obtain rfl : data = data' := by simpa [hread] using hread'
    rcases hbad with ⟨hne,hzero⟩ | ⟨hf,hlt⟩
    · have hpos := List.length_pos_iff.mpr hne
      have hl := hlen row hrow hend
      omega
    · rw [hwhole hf] at hlt
      omega
  | left =>
    simp only [hl] at h
    obtain ⟨ws,hblob⟩ := h
    simp [read_of_blob hblob,hz.decode_spill ws,Life.Settled]

theorem OnDisk.congr {z : Zstd} {st st' : Store} {b : BlockId} {p : Past} (h : OnDisk z st b p)
    (hrows : st'.rows.lookup b = st.rows.lookup b)
    (hblobs : st'.blobs.lookup b = st.blobs.lookup b) : OnDisk z st' b p := by
  have hread : st'.readBlockStdout z b = st.readBlockStdout z b := by
    simp [Store.readBlockStdout,hblobs]
  unfold OnDisk at h ⊢
  simpa only [hrows,hblobs,hread] using h

def Stage.block : Stage → Option BlockId
  | .idle => none
  | .opening block _ => some block
  | .finalizing block _ _ => some block

/-- What the task holds of a block, by its past. -/
def InMemory (w : Option BlobWriter) (stage : Stage) (b : BlockId) (p : Past) : Prop :=
  match p.life with
  | .unborn => w = none ∧ stage.block ≠ some b
  | .created => w = none ∧ ∃ command, stage = .opening b command
  | .writing =>
    (∃ bw, w = some bw ∧ bw.writes.flatten = p.output ∧ bw.len = p.output.length) ∧
      stage.block ≠ some b
  | .closed => w = none ∧ ∃ exit, stage = .finalizing b exit p.output.length
  | .finalised | .spoiled =>
    w = none ∧ p.finalized = true ∧ (stage.block ≠ some b ∨ ∃ exit, stage = .finalizing b exit 0)
  | .left => False

/-- A step on another block leaves what is held of this one. -/
theorem InMemory.congr {w : Option BlobWriter} {stage stage' : Stage} {b : BlockId} {p : Past}
    (h : InMemory w stage b p) (hs : stage.block ≠ some b) (hs' : stage'.block ≠ some b) :
    InMemory w stage' b p := by
  unfold InMemory at h ⊢
  cases hl : p.life with
  | created =>
    simp only [hl] at h
    obtain ⟨-,command,rfl⟩ := h
    exact absurd rfl hs
  | closed =>
    simp only [hl] at h
    obtain ⟨-,exit,rfl⟩ := h
    exact absurd rfl hs
  | _ => simp_all

def jobStep (draw : Nat → BlockId) (n : Nat) : Job → Option Nat
  | .event e => nameStep draw n e
  | .drain block => if Drawn draw n block then some n else none

variable {σ : Type} {z : Zstd} {vte : Vte σ} {draw : Nat → BlockId} {mode : Mode}

/-- The jobs still to do continue the naming of blocks after `n` of them have been
created, and the tables hold created blocks only. -/
structure Recorder.Orderly (draw : Nat → BlockId) (n : Nat) (r : Recorder σ) : Prop where
  queue : exec (jobStep draw) n r.queue = some r.parser.machine.drawn
  ready : r.parser.Ready draw
  writers : ∀ c, (r.writers.lookup c).isSome → Drawn draw n c
  blockMeta : ∀ c, (r.blockMeta.lookup c).isSome → Drawn draw n c
  stage : ∀ c, r.stage.block = some c → Drawn draw n c

/-- What is known of the task at one block. -/
def Recorder.Keeps (draw : Nat → BlockId) (b : BlockId) (p : Past) (r : Recorder σ) : Prop :=
  ∃ n, r.Orderly draw n ∧ (p.life ≠ .unborn ↔ Drawn draw n b) ∧
    InMemory (r.writers.lookup b) r.stage b p

/-- What is known of a run at one block. -/
structure Recording.Keeps (z : Zstd) (draw : Nat → BlockId) (b : BlockId) (p : Past)
    (s : Recording σ) : Prop where
  disk : OnDisk z s.store b p
  finalized : p.finalized = true → p.life = .finalised ∨ p.life = .spoiled
  task : ∀ r, s.task = some r → r.Keeps draw b p

theorem Job.op_cases (job : Job) :
    job.op = .skip ∨ (∃ block command cwd, job.op = .create block command cwd) ∨
      (∃ block data, job.op = .write block data) ∨ ∃ block exit, job.op = .close block exit := by
  cases job with
  | drain block => simp [Job.op]
  | event e => cases e <;> simp [Job.op]

/-- Serving the head of the queue keeps the rest of it orderly. -/
theorem Recorder.Orderly.pop {r : Recorder σ} {n : Nat} {job : Job} {rest : List Job}
    (h : r.Orderly draw n) (hq : r.queue = job :: rest) :
    ∃ k, jobStep draw n job = some k ∧
      exec (jobStep draw) k rest = some r.parser.machine.drawn := by
  have hqueue := h.queue
  rw [hq,exec_cons,Option.bind_eq_some_iff] at hqueue
  exact hqueue

theorem jobStep_close {n k : Nat} {job : Job} {block : BlockId} {exit : Option Int}
    (h : jobStep draw n job = some k) (ho : job.op = .close block exit) :
    k = n ∧ Drawn draw n block := by
  cases job with
  | drain c =>
    obtain ⟨rfl,-⟩ : c = block ∧ none = exit := by simpa [Job.op] using ho
    by_cases hd : Drawn draw n c <;> simp_all [jobStep]
  | event e =>
    cases e with
    | blockEnd c exit' =>
      obtain ⟨rfl,-⟩ : c = block ∧ exit' = exit := by simpa [Job.op] using ho
      by_cases hd : Drawn draw n c <;> simp_all [jobStep,nameStep]
    | _ => simp [Job.op] at ho

theorem jobStep_write {n k : Nat} {job : Job} {block : BlockId} {data : Bytes}
    (h : jobStep draw n job = some k) (ho : job.op = .write block data) :
    k = n ∧ Drawn draw n block := by
  cases job with
  | drain c => simp [Job.op] at ho
  | event e =>
    cases e with
    | outputChunk c data' =>
      obtain ⟨rfl,-⟩ : c = block ∧ data' = data := by simpa [Job.op] using ho
      by_cases hd : Drawn draw n c <;> simp_all [jobStep,nameStep]
    | _ => simp [Job.op] at ho

theorem jobStep_create {n k : Nat} {job : Job} {block : BlockId} {command : Text}
    {cwd : Option Text} (h : jobStep draw n job = some k)
    (ho : job.op = .create block command cwd) : k = n+1 ∧ block = draw n := by
  cases job with
  | drain c => simp [Job.op] at ho
  | event e =>
    cases e with
    | commandStart session c command' cwd' =>
      obtain ⟨rfl,-,-⟩ : c = block ∧ command' = command ∧ cwd' = cwd := by
        simpa [Job.op] using ho
      by_cases hd : c = draw n <;> simp_all [jobStep,nameStep]
    | _ => simp [Job.op] at ho

theorem jobStep_skip {n k : Nat} {job : Job} (h : jobStep draw n job = some k)
    (ho : job.op = .skip) : k = n := by
  cases job with
  | drain c => simp [Job.op] at ho
  | event e =>
    cases e with
    | promptStart session => simpa [jobStep,nameStep,eq_comm] using h
    | _ => simp [Job.op] at ho

def Op.block : Op → Option BlockId
  | .skip => none
  | .create block _ _ | .openBlob block _ | .write block _ | .close block _ | .finalize block _ _ =>
    some block

/-! One operation of the task at a time: what it leaves on disk and in memory. -/

section Operations

variable {st : Store} {r : Recorder σ} {b c : BlockId} {p : Past}

/-- An operation leaves the blocks it is not about alone on disk. -/
theorem perform_disk_ne (hd : OnDisk z st b p) {o : Op} (ho : o.block ≠ some b) :
    OnDisk z (r.perform z st o).1 b p := by
  cases o with
  | skip => exact hd
  | create c command cwd =>
    have hne : b ≠ c := fun h => ho (by simp [Op.block,h])
    by_cases hrow : (st.rows.lookup c).isSome
    · simpa [Recorder.perform,Store.createBlock,hrow] using hd
    · simp only [Recorder.perform,Store.createBlock,hrow]
      exact hd.congr (AList.lookup_insert_ne hne) rfl
  | openBlob c command =>
    have hne : b ≠ c := fun h => ho (by simp [Op.block,h])
    exact hd.congr rfl (lookup_setBlob_ne hne _)
  | write c data =>
    have hne : b ≠ c := fun h => ho (by simp [Op.block,h])
    simp only [Recorder.perform]
    cases r.writers.lookup c with
    | none => exact hd
    | some w => exact hd.congr rfl (lookup_setBlob_ne hne _)
  | close c exit =>
    have hne : b ≠ c := fun h => ho (by simp [Op.block,h])
    simp only [Recorder.perform]
    cases r.writers.lookup c with
    | none => exact hd
    | some w => exact hd.congr rfl (lookup_setBlob_ne hne _)
  | finalize c exit len =>
    have hne : b ≠ c := fun h => ho (by simp [Op.block,h])
    have hf := lookup_finalizeBlock_ne st hne exit len
    exact hd.congr hf.1 (by rw [Recorder.perform,hf.2])

theorem perform_writers_ne {o : Op} (ho : o.block ≠ some b) :
    (r.perform z st o).2.writers.lookup b = r.writers.lookup b := by
  cases o with
  | skip => rfl
  | create c command cwd =>
    by_cases hrow : (st.rows.lookup c).isSome <;>
      simp [Recorder.perform,Store.createBlock,hrow]
  | openBlob c command =>
    have hne : b ≠ c := fun h => ho (by simp [Op.block,h])
    exact AList.lookup_insert_ne hne
  | write c data =>
    have hne : b ≠ c := fun h => ho (by simp [Op.block,h])
    simp only [Recorder.perform]
    cases r.writers.lookup c with
    | none => rfl
    | some w => exact AList.lookup_insert_ne hne
  | close c exit =>
    have hne : b ≠ c := fun h => ho (by simp [Op.block,h])
    simp only [Recorder.perform]
    cases r.writers.lookup c with
    | none => rfl
    | some w => exact AList.lookup_erase_ne hne
  | finalize c exit len => rfl

/-- Before and after an operation the task is at most at the block it is about. -/
theorem perform_stage (z : Zstd) (st : Store) {o : Op} (hop : r.nextOp = some o) (c : BlockId) :
    (r.stage.block = some c → o.block = some c) ∧
      ((r.perform z st o).2.stage.block = some c → o.block = some c) := by
  rcases Recorder.nextOp_cases hop with ⟨d,command,hs,rfl⟩ | ⟨d,exit,len,hs,rfl⟩ |
    ⟨hs,job,rest,hq,rfl⟩
  · simp [hs,Stage.block,Op.block,Recorder.perform]
  · simp [hs,Stage.block,Op.block,Recorder.perform]
  · refine ⟨by simp [hs,Stage.block],?_⟩
    cases hj : job.op with
    | skip => simp [Recorder.perform,hs,Stage.block]
    | create d command cwd =>
      by_cases hrow : (st.rows.lookup d).isSome <;>
        simp [Recorder.perform,Store.createBlock,hrow,hs,Stage.block,Op.block]
    | openBlob d command => simp [Recorder.perform,Stage.block]
    | write d data =>
      cases hw : r.writers.lookup d <;> simp [Recorder.perform,hw,hs,Stage.block]
    | close d exit =>
      cases hw : r.writers.lookup d <;> simp [Recorder.perform,hw,Stage.block,Op.block]
    | finalize d exit len => simp [Recorder.perform,Stage.block]

theorem drawn_succ {n : Nat} : Drawn draw (n+1) c ↔ Drawn draw n c ∨ draw n = c := by
  constructor
  · rintro ⟨i,hi,rfl⟩
    by_cases hn : i = n
    · exact Or.inr (by rw [hn])
    · exact Or.inl ⟨i,by omega,rfl⟩
  · rintro (h | h)
    · exact h.mono (by omega)
    · exact ⟨n,by omega,h⟩

/-- An operation keeps the queue orderly, and draws a block only when it creates one. -/
theorem perform_orderly (z : Zstd) (st : Store) {n : Nat} (h : r.Orderly draw n) {o : Op}
    (hop : r.nextOp = some o) :
    ∃ k, (r.perform z st o).2.Orderly draw k ∧
      ∀ c, Drawn draw k c ↔ Drawn draw n c ∨ ∃ command cwd, o = .create c command cwd := by
  rcases Recorder.nextOp_cases hop with ⟨d,command,hs,rfl⟩ | ⟨d,exit,len,hs,rfl⟩ |
    ⟨hs,job,rest,hq,rfl⟩
  · have hd : Drawn draw n d := h.stage d (by rw [hs]; rfl)
    refine ⟨n,⟨h.queue,h.ready,?_,?_,by simp [Recorder.perform,Stage.block]⟩,by simp⟩
    · intro c hc
      by_cases hcd : c = d
      · rw [hcd]; exact hd
      · exact h.writers c (by rwa [Recorder.perform,AList.lookup_insert_ne hcd] at hc)
    · intro c hc
      by_cases hcd : c = d
      · rw [hcd]; exact hd
      · exact h.blockMeta c (by rwa [Recorder.perform,AList.lookup_insert_ne hcd] at hc)
  · refine ⟨n,⟨h.queue,h.ready,h.writers,?_,by simp [Recorder.perform,Stage.block]⟩,by simp⟩
    intro c hc
    by_cases hcd : c = d
    · rw [hcd]
      exact h.stage d (by rw [hs]; rfl)
    · exact h.blockMeta c (by rwa [Recorder.perform,AList.lookup_erase_ne hcd] at hc)
  · obtain ⟨k,hk,hrest⟩ := h.pop hq
    have htail : r.queue.tail = rest := by rw [hq]; rfl
    rcases job.op_cases with hj | ⟨d,command,cwd,hj⟩ | ⟨d,data,hj⟩ | ⟨d,exit,hj⟩ <;> rw [hj]
    · obtain rfl := jobStep_skip hk hj
      exact ⟨k,⟨by rwa [Recorder.perform,htail],h.ready,h.writers,h.blockMeta,h.stage⟩,by simp⟩
    · obtain ⟨rfl,rfl⟩ := jobStep_create hk hj
      have hnext : ∀ c, Drawn draw (n+1) c ↔ Drawn draw n c ∨
          ∃ command' cwd', Op.create (draw n) command cwd = .create c command' cwd' := by
        intro c
        rw [drawn_succ]
        simp
      refine ⟨n+1,?_,hnext⟩
      have hw := fun c hc => (h.writers c hc).mono (Nat.le_succ n)
      have hm := fun c hc => (h.blockMeta c hc).mono (Nat.le_succ n)
      by_cases hrow : (st.rows.lookup (draw n)).isSome
      · simp only [Recorder.perform,Store.createBlock,hrow,if_true]
        exact ⟨by rwa [htail],h.ready,hw,hm,by simp [hs,Stage.block]⟩
      · simp only [Recorder.perform,Store.createBlock,hrow]
        refine ⟨by simpa [htail] using hrest,h.ready,hw,hm,?_⟩
        intro c hc
        obtain rfl : draw n = c := by simpa [Stage.block] using hc
        exact ⟨n,by omega,rfl⟩
    · obtain ⟨rfl,hd⟩ := jobStep_write hk hj
      refine ⟨k,?_,by simp⟩
      cases hw : r.writers.lookup d with
      | none =>
        simp only [Recorder.perform,hw]
        exact ⟨by rwa [htail],h.ready,h.writers,h.blockMeta,h.stage⟩
      | some w =>
        simp only [Recorder.perform,hw]
        refine ⟨by rwa [htail],h.ready,?_,h.blockMeta,h.stage⟩
        intro c hc
        by_cases hcd : c = d
        · rw [hcd]; exact hd
        · exact h.writers c (by rwa [AList.lookup_insert_ne hcd] at hc)
    · obtain ⟨rfl,hd⟩ := jobStep_close hk hj
      refine ⟨k,?_,by simp⟩
      have hstage : ∀ (len : Nat) (c : BlockId),
          (Stage.finalizing d exit len).block = some c → Drawn draw k c := by
        intro len c hc
        obtain rfl : d = c := by simpa [Stage.block] using hc
        exact hd
      cases hw : r.writers.lookup d with
      | none =>
        simp only [Recorder.perform,hw]
        exact ⟨by rwa [htail],h.ready,h.writers,h.blockMeta,hstage 0⟩
      | some w =>
        simp only [Recorder.perform,hw]
        refine ⟨by rwa [htail],h.ready,?_,h.blockMeta,hstage _⟩
        intro c hc
        by_cases hcd : c = d
        · rw [hcd]; exact hd
        · exact h.writers c (by rwa [AList.lookup_erase_ne hcd] at hc)

theorem InMemory.opening {w : Option BlobWriter} {command : Text}
    (h : InMemory w (.opening b command) b p) : p.life = .created ∧ w = none := by
  unfold InMemory at h
  cases hl : p.life <;> simp_all [Stage.block]

theorem InMemory.finalizing {w : Option BlobWriter} {exit : Option Int} {len : Nat}
    (h : InMemory w (.finalizing b exit len) b p) :
    w = none ∧ ((p.life = .closed ∧ len = p.output.length) ∨
      ((p.life = .finalised ∨ p.life = .spoiled) ∧ p.finalized = true ∧ len = 0)) := by
  unfold InMemory at h
  cases hl : p.life <;> simp_all [Stage.block]

theorem InMemory.idle {w : Option BlobWriter} (h : InMemory w .idle b p) :
    (p.life = .unborn ∧ w = none) ∨
      (p.life = .writing ∧
        ∃ bw, w = some bw ∧ bw.writes.flatten = p.output ∧ bw.len = p.output.length) ∨
      ((p.life = .finalised ∨ p.life = .spoiled) ∧ w = none ∧ p.finalized = true) := by
  unfold InMemory at h
  cases hl : p.life <;> simp_all [Stage.block]

/-- What a step on the block itself has to give. -/
structure Advanced (z : Zstd) (b : BlockId) (p : Past) (st : Store) (r : Recorder σ) : Prop where
  disk : OnDisk z st b p
  finalized : p.finalized = true → p.life = .finalised ∨ p.life = .spoiled
  born : p.life ≠ .unborn
  memory : InMemory (r.writers.lookup b) r.stage b p

theorem create_self {command : Text} {cwd : Option Text} (hd : OnDisk z st b p)
    (hf : p.finalized = true → p.life = .finalised ∨ p.life = .spoiled)
    (hm : InMemory (r.writers.lookup b) r.stage b p) (hl : p.life = .unborn) :
    Advanced z b (p.step b (.op (.create b command cwd)))
      (r.perform z st (.create b command cwd)).1 (r.perform z st (.create b command cwd)).2 := by
  simp only [OnDisk,hl] at hd
  obtain ⟨hrow,hblob,hout⟩ := hd
  have hw : r.writers.lookup b = none := by
    simp only [InMemory,hl] at hm
    exact hm.1
  have hnew : (st.rows.lookup b).isSome = false := by rw [hrow]; rfl
  have hpast : p.step b (.op (.create b command cwd)) = { p with life := .created } := by
    simp [Past.step]
  rw [hpast]
  simp only [Recorder.perform,Store.createBlock,hnew]
  refine ⟨?_,?_,by simp,?_⟩
  · exact ⟨_,AList.lookup_insert _,rfl,rfl,hblob,hout⟩
  · intro h
    rcases hf h with h | h <;> rw [hl] at h <;> cases h
  · exact ⟨hw,command,rfl⟩

theorem openBlob_self {command : Text} (hd : OnDisk z st b p)
    (hf : p.finalized = true → p.life = .finalised ∨ p.life = .spoiled) (hl : p.life = .created) :
    Advanced z b (p.step b (.op (.openBlob b command)))
      (r.perform z st (.openBlob b command)).1 (r.perform z st (.openBlob b command)).2 := by
  simp only [OnDisk,hl] at hd
  obtain ⟨row,hrow,hend,hlen,hblob,hout⟩ := hd
  have hpast : p.step b (.op (.openBlob b command)) = { p with life := .writing } := by
    simp [Past.step]
  rw [hpast]
  refine ⟨?_,?_,by simp,?_⟩
  · exact ⟨row,[],hrow,hend,hlen,lookup_setBlob_self _,hout.symm⟩
  · intro h
    rcases hf h with h | h <;> rw [hl] at h <;> cases h
  · exact ⟨⟨⟨[],0⟩,AList.lookup_insert _,hout.symm,by rw [hout]; rfl⟩,
      by simp [Recorder.perform,Stage.block]⟩

theorem write_self {data : Bytes} (hd : OnDisk z st b p)
    (hf : p.finalized = true → p.life = .finalised ∨ p.life = .spoiled)
    (hm : InMemory (r.writers.lookup b) r.stage b p) (hs : r.stage = .idle)
    (hl : p.life ≠ .unborn) :
    Advanced z b (p.step b (.op (.write b data)))
      (r.perform z st (.write b data)).1 (r.perform z st (.write b data)).2 := by
  rw [hs] at hm
  have hpast : p.step b (.op (.write b data)) =
      { p with life := p.life.written data, output := p.output ++ data } := by
    simp [Past.step]
  rw [hpast]
  rcases hm.idle with ⟨hu,-⟩ | ⟨hl,bw,hw,hflat,hlen⟩ | ⟨hl,hw,hfin⟩
  · exact absurd hu hl
  · simp only [OnDisk,hl] at hd
    obtain ⟨row,ws,hrow,hend,hlen',hblob,hws⟩ := hd
    simp only [Recorder.perform,hw,Store.write]
    refine ⟨?_,?_,by simp [hl,Life.written],?_⟩
    · simp only [OnDisk,hl,Life.written]
      exact ⟨row,bw.writes ++ [data],hrow,hend,hlen',lookup_setBlob_self _,by simp [hflat]⟩
    · intro h
      rcases hf h with h | h <;> rw [hl] at h <;> cases h
    · simp only [InMemory,hl,Life.written]
      refine ⟨⟨_,AList.lookup_insert _,?_,?_⟩,by simp [hs,Stage.block]⟩
      · simp [hflat]
      · simp [hlen]
  · have hperform : r.perform z st (.write b data) = (st,{ r with queue := r.queue.tail }) := by
      simp only [Recorder.perform,hw]
    have hend : (p.life.written data = .finalised ∧ data = [] ∧ p.life = .finalised) ∨
        p.life.written data = .spoiled := by
      rcases hl with hl | hl
      · by_cases hdata : data = [] <;> simp [hl,Life.written,hdata]
      · simp [hl,Life.written]
    rw [hperform]
    refine ⟨?_,?_,?_,?_⟩
    · rcases hl with hl | hl
      · simp only [OnDisk,hl] at hd
        obtain ⟨row,hrow,hended,hlen,hread⟩ := hd
        by_cases hdata : data = []
        · simp only [OnDisk,hl,Life.written,hdata,if_true,List.append_nil]
          exact ⟨row,hrow,hended,hlen,hread⟩
        · simp only [OnDisk,hl,Life.written,hdata,if_false]
          have hpos := List.length_pos_iff.mpr hdata
          exact ⟨row,p.output,hrow,hended,hread,Or.inr ⟨hfin,by simp; omega⟩⟩
      · simp only [OnDisk,hl] at hd
        obtain ⟨row,stored,hrow,hended,hread,hbad⟩ := hd
        simp only [OnDisk,hl,Life.written]
        refine ⟨row,stored,hrow,hended,hread,?_⟩
        rcases hbad with hbad | ⟨-,hlt⟩
        · exact Or.inl hbad
        · exact Or.inr ⟨hfin,by simp; omega⟩
    · intro _
      rcases hend with ⟨h,-⟩ | h <;> simp [h]
    · rcases hend with ⟨h,-⟩ | h <;> simp [h]
    · rcases hend with ⟨h,-⟩ | h <;> simp [InMemory,h,hw,hfin,hs,Stage.block]

theorem close_self {exit : Option Int} (hd : OnDisk z st b p)
    (hz : z.Lawful) (hf : p.finalized = true → p.life = .finalised ∨ p.life = .spoiled)
    (hm : InMemory (r.writers.lookup b) r.stage b p) (hs : r.stage = .idle)
    (hl : p.life ≠ .unborn) :
    Advanced z b (p.step b (.op (.close b exit)))
      (r.perform z st (.close b exit)).1 (r.perform z st (.close b exit)).2 := by
  rw [hs] at hm
  have hpast : p.step b (.op (.close b exit)) = { p with life := p.life.closing } := by
    simp [Past.step]
  rw [hpast]
  rcases hm.idle with ⟨hu,-⟩ | ⟨hl,bw,hw,hflat,hlen⟩ | ⟨hl,hw,hfin⟩
  · exact absurd hu hl
  · simp only [OnDisk,hl] at hd
    obtain ⟨row,ws,hrow,hend,hlen',hblob,hws⟩ := hd
    simp only [Recorder.perform,hw,Store.close]
    refine ⟨?_,?_,by simp [hl,Life.closing],?_⟩
    · simp only [OnDisk,hl,Life.closing]
      refine ⟨row,hrow,hend,hlen',?_⟩
      rw [read_of_blob (lookup_setBlob_self _),hz.decode_frame,hflat]
    · intro h
      rcases hf h with h | h <;> rw [hl] at h <;> cases h
    · simp only [InMemory,hl,Life.closing]
      exact ⟨AList.lookup_erase _ _,exit,by rw [hlen]⟩
  · have hsame : p.life.closing = p.life := by rcases hl with h | h <;> simp [h,Life.closing]
    simp only [Recorder.perform,hw,hsame]
    refine ⟨hd,hf,by rcases hl with h | h <;> simp [h],?_⟩
    rcases hl with h | h <;> simp [InMemory,h,hw,hfin]

theorem finalize_self {exit : Option Int} {len : Nat} (hd : OnDisk z st b p)
    (hm : InMemory (r.writers.lookup b) r.stage b p) (hs : r.stage = .finalizing b exit len) :
    Advanced z b (p.step b (.op (.finalize b exit len)))
      (r.perform z st (.finalize b exit len)).1 (r.perform z st (.finalize b exit len)).2 := by
  rw [hs] at hm
  have hpast : p.step b (.op (.finalize b exit len)) =
      { p with life := p.life.finalizing p.output, finalized := true } := by
    simp [Past.step]
  rw [hpast]
  obtain ⟨hw,hlife⟩ := hm.finalizing
  have hread : ∀ data, st.readBlockStdout z b = some data →
      (st.finalizeBlock b exit len).readBlockStdout z b = some data := by
    intro data h
    unfold Store.finalizeBlock
    cases st.rows.lookup b <;> exact h
  have hend : p.life.finalizing p.output = .finalised ∨ p.life.finalizing p.output = .spoiled := by
    rcases hlife with ⟨h,-⟩ | ⟨h | h,-⟩
    · simp [h,Life.finalizing]
    · by_cases ho : p.output = [] <;> simp [h,Life.finalizing,ho]
    · simp [h,Life.finalizing]
  refine ⟨?_,fun _ => hend,by rcases hend with h | h <;> simp [h],?_⟩
  · simp only [Recorder.perform]
    rcases hlife with ⟨hl,rfl⟩ | ⟨hl | hl,-,rfl⟩
    · simp only [OnDisk,hl] at hd
      obtain ⟨row,hrow,-,-,hdata⟩ := hd
      simp only [OnDisk,hl,Life.finalizing]
      exact ⟨_,lookup_finalizeBlock_self hrow exit _,rfl,rfl,hread _ hdata⟩
    · simp only [OnDisk,hl] at hd
      obtain ⟨row,hrow,-,-,hdata⟩ := hd
      by_cases ho : p.output = []
      · simp only [OnDisk,hl,Life.finalizing,ho,if_true]
        exact ⟨_,lookup_finalizeBlock_self hrow exit _,rfl,rfl,hread _ (ho ▸ hdata)⟩
      · simp only [OnDisk,hl,Life.finalizing,ho,if_false]
        exact ⟨_,_,lookup_finalizeBlock_self hrow exit _,rfl,hread _ hdata,Or.inl ⟨ho,rfl⟩⟩
    · simp only [OnDisk,hl] at hd
      obtain ⟨row,stored,hrow,-,hdata,hbad⟩ := hd
      simp only [OnDisk,hl,Life.finalizing]
      refine ⟨_,stored,lookup_finalizeBlock_self hrow exit _,rfl,hread _ hdata,?_⟩
      rcases hbad with ⟨hne,-⟩ | ⟨-,hlt⟩
      · exact Or.inl ⟨hne,rfl⟩
      · exact Or.inr ⟨trivial,hlt⟩
  · rcases hend with h | h <;> simp [InMemory,h,hw,Recorder.perform,Stage.block]

/-- One operation of the task keeps what is known at a block. -/
theorem perform_keeps (hz : z.Lawful) (hdraw : Function.Injective draw) {s : Recording σ}
    (h : s.Keeps z draw b p) (hr : s.task = some r) {o : Op} (hop : r.nextOp = some o) :
    Recording.Keeps z draw b (p.step b (.op o))
      ⟨(r.perform z s.store o).1,some (r.perform z s.store o).2⟩ := by
  obtain ⟨n,hn,hborn,hm⟩ := h.task r hr
  obtain ⟨k,hk,hdrawn⟩ := perform_orderly z s.store hn hop
  by_cases ho : o.block = some b
  · have hadv : Advanced z b (p.step b (.op o)) (r.perform z s.store o).1
        (r.perform z s.store o).2 ∧ Drawn draw k b := by
      rw [hdrawn]
      rcases Recorder.nextOp_cases hop with ⟨d,command,hs,rfl⟩ | ⟨d,exit,len,hs,rfl⟩ |
        ⟨hs,job,rest,hq,rfl⟩
      · obtain rfl : d = b := by simpa [Op.block] using ho
        have hd := hn.stage d (by rw [hs]; rfl)
        rw [hs] at hm
        exact ⟨openBlob_self h.disk h.finalized hm.opening.1,Or.inl hd⟩
      · obtain rfl : d = b := by simpa [Op.block] using ho
        exact ⟨finalize_self h.disk hm hs,Or.inl (hn.stage d (by rw [hs]; rfl))⟩
      · obtain ⟨j,hj,-⟩ := hn.pop hq
        rcases job.op_cases with ho' | ⟨d,command,cwd,ho'⟩ | ⟨d,data,ho'⟩ | ⟨d,exit,ho'⟩
        · simp [ho',Op.block] at ho
        · obtain rfl : d = b := by simpa [ho',Op.block] using ho
          have hfresh : ¬ Drawn draw n d := by
            rw [(jobStep_create hj ho').2]
            exact not_drawn_next hdraw n
          rw [ho']
          exact ⟨create_self h.disk h.finalized hm (by_contra fun hl => hfresh (hborn.mp hl)),
            Or.inr ⟨command,cwd,rfl⟩⟩
        · obtain rfl : d = b := by simpa [ho',Op.block] using ho
          have hd := (jobStep_write hj ho').2
          rw [ho']
          exact ⟨write_self h.disk h.finalized hm hs (hborn.mpr hd),Or.inl hd⟩
        · obtain rfl : d = b := by simpa [ho',Op.block] using ho
          have hd := (jobStep_close hj ho').2
          rw [ho']
          exact ⟨close_self h.disk hz h.finalized hm hs (hborn.mpr hd),Or.inl hd⟩
    obtain ⟨hadv,hin⟩ := hadv
    refine ⟨hadv.disk,hadv.finalized,?_⟩
    rintro r' ⟨rfl⟩
    exact ⟨k,hk,by simp [hadv.born,hin],hadv.memory⟩
  · have hpast : p.step b (.op o) = p := by
      cases o <;> simp_all [Op.block,Past.step]
    have hstage := perform_stage z s.store hop b
    rw [hpast]
    refine ⟨perform_disk_ne h.disk ho,h.finalized,?_⟩
    rintro r' ⟨rfl⟩
    refine ⟨k,hk,?_,?_⟩
    · rw [hborn,hdrawn]
      have hne : ¬ ∃ command cwd, o = .create b command cwd := by
        rintro ⟨command,cwd,rfl⟩
        exact ho rfl
      simp [hne]
    · rw [perform_writers_ne ho]
      exact hm.congr (fun hb => ho (hstage.1 hb)) (fun hb => ho (hstage.2 hb))

end Operations

theorem OnDisk.reconcile {st : Store} {b : BlockId} {p : Past} (h : OnDisk z st b p) :
    OnDisk z st.reconcile b { p with life := p.life.reopened p.output } := by
  have hrow : st.reconcile.rows.lookup b = (st.rows.lookup b).map fun row =>
      if row.ended then row else { row with ended := true, exitCode := none } :=
    Table.lookup_mapValues _ _ _
  have hread : st.reconcile.readBlockStdout z b = st.readBlockStdout z b := rfl
  cases hl : p.life with
  | unborn =>
    simp only [OnDisk,hl] at h
    simp only [OnDisk,Life.reopened,hrow,h.1]
    exact ⟨rfl,h.2⟩
  | created =>
    simp only [OnDisk,hl] at h
    obtain ⟨row,hr,hend,hlen,hblob,hout⟩ := h
    simp only [OnDisk,Life.reopened,hrow,hr,hread,read_of_no_blob hblob,hout]
    exact ⟨_,rfl,by simp [hend],by simp [hend,hlen],trivial⟩
  | writing =>
    simp only [OnDisk,hl] at h
    obtain ⟨row,ws,-,-,-,hblob,-⟩ := h
    exact ⟨ws,hblob⟩
  | closed =>
    simp only [OnDisk,hl] at h
    obtain ⟨row,hr,hend,hlen,hdata⟩ := h
    by_cases ho : p.output = []
    · simp only [OnDisk,Life.reopened,ho,if_true,hrow,hr,hread]
      exact ⟨_,rfl,by simp [hend],by simp [hend,hlen],ho ▸ hdata⟩
    · simp only [OnDisk,Life.reopened,ho,if_false,hrow,hr,hread]
      exact ⟨_,_,rfl,by simp [hend],hdata,Or.inl ⟨ho,by simp [hend,hlen]⟩⟩
  | finalised =>
    simp only [OnDisk,hl] at h
    obtain ⟨row,hr,hend,hlen,hdata⟩ := h
    simp only [OnDisk,Life.reopened,hrow,hr,hread]
    exact ⟨_,rfl,by simp [hend],by simp [hend,hlen],hdata⟩
  | spoiled =>
    simp only [OnDisk,hl] at h
    obtain ⟨row,data,hr,hend,hdata,hbad⟩ := h
    simp only [OnDisk,Life.reopened,hrow,hr,hread]
    exact ⟨_,data,rfl,by simp [hend],hdata,by simpa [hend] using hbad⟩
  | left =>
    simp only [OnDisk,hl] at h
    exact h

theorem Recorder.Orderly.waiting {r : Recorder σ} {n : Nat} (h : r.Orderly draw n)
    (hw : r.waiting = true) : r.stage = .idle ∧ n = r.parser.machine.drawn := by
  have hw' : (r.queue = [] ∧ r.stage = .idle) ∧ r.accepting = true := by
    simpa [Recorder.waiting] using hw
  have hq := h.queue
  rw [hw'.1.1,exec_nil,Option.some.injEq] at hq
  exact ⟨hw'.1.2,hq⟩

theorem chunk_keeps {r : Recorder σ} {b : BlockId} {p : Past} (h : r.Keeps draw b p)
    (hw : r.waiting = true) (bytes : Bytes) : (r.chunk vte draw bytes).Keeps draw b p := by
  obtain ⟨n,hn,hborn,hm⟩ := h
  obtain ⟨hs,rfl⟩ := hn.waiting hw
  obtain ⟨hready,hnamed⟩ := hn.ready.feed vte draw bytes
  refine ⟨_,⟨?_,hready,hn.writers,hn.blockMeta,hn.stage⟩,hborn,hm⟩
  rw [Recorder.chunk,exec_map]
  exact hnamed

theorem paneEnd_keeps {r : Recorder σ} {b : BlockId} {p : Past} (h : r.Keeps draw b p)
    (hw : r.waiting = true) : (r.paneEnd mode).Keeps draw b p := by
  obtain ⟨n,hn,hborn,hm⟩ := h
  obtain ⟨hs,rfl⟩ := hn.waiting hw
  have hdrains : ∀ cs : List BlockId, (∀ c ∈ cs, Drawn draw r.parser.machine.drawn c) →
      exec (jobStep draw) r.parser.machine.drawn (cs.map .drain) =
        some r.parser.machine.drawn := by
    intro cs hcs
    induction cs with
    | nil => rfl
    | cons c cs ih =>
      have hc := hcs c (by simp)
      have hrest := ih fun d hd => hcs d (by simp [hd])
      simpa [jobStep,hc] using hrest
  cases mode with
  | single =>
    refine ⟨_,⟨?_,hn.ready,hn.writers,hn.blockMeta,hn.stage⟩,hborn,hm⟩
    exact hdrains _ fun c hc => hn.writers c (AList.lookup_isSome.mpr hc)
  | hybrid =>
    refine ⟨_,⟨?_,hn.ready,hn.writers,hn.blockMeta,hn.stage⟩,hborn,hm⟩
    exact hdrains _ fun c hc => hn.blockMeta c (AList.lookup_isSome.mpr hc)

theorem step_keeps (hz : z.Lawful) (hdraw : Function.Injective draw) {s t : Recording σ}
    {b : BlockId} {p : Past} (h : s.Keeps z draw b p) {a : Action}
    (hstep : Recording.step z vte draw mode s a = some t) : t.Keeps z draw b (p.step b a) := by
  cases a with
  | chunk bytes =>
    simp only [Recording.step,Option.bind_eq_some_iff] at hstep
    obtain ⟨r,hr,hstep⟩ := hstep
    by_cases hw : r.waiting = true
    · simp only [hw,if_true,Option.some.injEq] at hstep
      subst hstep
      refine ⟨h.disk,h.finalized,?_⟩
      rintro r' ⟨rfl⟩
      exact chunk_keeps (h.task r hr) hw bytes
    · simp [hw] at hstep
  | op o =>
    simp only [Recording.step,Option.bind_eq_some_iff] at hstep
    obtain ⟨r,hr,hstep⟩ := hstep
    by_cases hop : r.nextOp = some o
    · simp only [hop,if_true,Option.some.injEq] at hstep
      subst hstep
      exact perform_keeps hz hdraw h hr hop
    · simp [hop] at hstep
  | paneEnd =>
    simp only [Recording.step,Option.bind_eq_some_iff] at hstep
    obtain ⟨r,hr,hstep⟩ := hstep
    by_cases hw : r.waiting = true
    · simp only [hw,if_true,Option.some.injEq] at hstep
      subst hstep
      refine ⟨h.disk,h.finalized,?_⟩
      rintro r' ⟨rfl⟩
      exact paneEnd_keeps (h.task r hr) hw
    · simp [hw] at hstep
  | crash =>
    simp only [Recording.step,Option.map_eq_some_iff] at hstep
    obtain ⟨r,-,rfl⟩ := hstep
    exact ⟨h.disk,h.finalized,by simp⟩
  | reopen =>
    by_cases hnone : s.task.isNone
    · simp only [Recording.step,hnone,if_true,Option.some.injEq] at hstep
      subst hstep
      refine ⟨h.disk.reconcile,?_,?_⟩
      · intro hf
        rcases h.finalized hf with hl | hl <;> simp [Past.step,hl,Life.reopened]
      · intro r hr
        simp [show s.task = none by simpa using hnone] at hr
    · simp [Recording.step,hnone] at hstep

theorem run_keeps (hz : z.Lawful) (hdraw : Function.Injective draw) {s t : Recording σ}
    {b : BlockId} {p : Past} (h : s.Keeps z draw b p) (actions : List Action)
    (hrun : exec (Recording.step z vte draw mode) s actions = some t) :
    t.Keeps z draw b (actions.foldl (Past.step b) p) := by
  induction actions generalizing s p with
  | nil =>
    rw [exec_nil,Option.some.injEq] at hrun
    exact hrun ▸ h
  | cons a actions ih =>
    rw [exec_cons,Option.bind_eq_some_iff] at hrun
    obtain ⟨u,hu,hrun⟩ := hrun
    exact ih (step_keeps hz hdraw h hu) hrun

theorem start_keeps (z : Zstd) (vte : Vte σ) (draw : Nat → BlockId) (pane : PaneId)
    (session : SessionId) (b : BlockId) :
    (Recording.start vte pane session).Keeps z draw b .start := by
  refine ⟨⟨rfl,rfl,rfl⟩,by simp [Past.start],?_⟩
  rintro r ⟨rfl⟩
  refine ⟨0,⟨rfl,BlockParser.ready_new vte draw session,?_,?_,?_⟩,?_,⟨rfl,?_⟩⟩
  · simp [Recorder.start]
  · simp [Recorder.start]
  · simp [Recorder.start,Stage.block]
  · simp [Past.start,Drawn]
  · simp [Recorder.start,Stage.block]

/-- In every state of every run, what is stored of a block is exact if and only if its
blob has not been opened, or its writer has been closed and nothing came after. -/
theorem stored_exactly_iff (hz : z.Lawful) (hdraw : Function.Injective draw) (mode : Mode)
    (vte : Vte σ) (pane : PaneId) (session : SessionId) (actions : List Action)
    {s : Recording σ}
    (hrun : exec (Recording.step z vte draw mode) (.start vte pane session) actions = some s)
    (b : BlockId) :
    StoredExactly z s.store b (past b actions).output (past b actions).finalized ↔
      (past b actions).life.Settled := by
  have h := run_keeps hz hdraw (start_keeps z vte draw pane session b) actions hrun
  exact storedExactly_iff hz h.disk h.finalized

/-- One command with one line of output, recorded to its end. -/
def oneBlock : List Action :=
  [.chunk (osc133Bytes "C" ++ [0x61,0x0A] ++ osc133Bytes "D;0"),.op (.create ⟨0⟩ [] none),
    .op (.openBlob ⟨0⟩ []),.op (.write ⟨0⟩ [0x61,0x0A]),.op (.close ⟨0⟩ (some 0)),
    .op (.finalize ⟨0⟩ (some 0) 2)]

theorem stored_exactly_one_block :
    ∃ s, exec (Recording.step plainZstd plainVte BlockId.mk .single)
        (.start plainVte ⟨0⟩ ⟨0⟩) oneBlock = some s ∧
      StoredExactly plainZstd s.store ⟨0⟩ [0x61,0x0A] true := by
  have hsome : (exec (Recording.step plainZstd plainVte BlockId.mk .single)
      (.start plainVte ⟨0⟩ ⟨0⟩) oneBlock).isSome := by decide
  obtain ⟨s,hs⟩ := Option.isSome_iff_exists.mp hsome
  exact ⟨s,hs,(stored_exactly_iff plainZstd_lawful (fun _ _ h => BlockId.mk.inj h) .single plainVte
    ⟨0⟩ ⟨0⟩ oneBlock hs ⟨0⟩).mpr trivial⟩

/-- While the command runs its output cannot be read. -/
theorem running_block_unreadable :
    ∃ s, exec (Recording.step plainZstd plainVte BlockId.mk .single)
        (.start plainVte ⟨0⟩ ⟨0⟩) (oneBlock.take 4) = some s ∧
      ¬ StoredExactly plainZstd s.store ⟨0⟩ [0x61,0x0A] false := by
  have hread : (exec (Recording.step plainZstd plainVte BlockId.mk .single)
      (.start plainVte ⟨0⟩ ⟨0⟩) (oneBlock.take 4)).map
        (fun s => s.store.readBlockStdout plainZstd ⟨0⟩) = some none := by decide
  obtain ⟨s,hs,hnone⟩ := Option.map_eq_some_iff.mp hread
  refine ⟨s,hs,?_⟩
  rintro ⟨data,hdata,-⟩
  rw [hnone] at hdata
  cases hdata

end Pyre.Blocks
