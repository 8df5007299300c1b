import Pyre.Base.Text
import Pyre.Migration.Migrate

/-!
The search index is filled from the store at start-up if it has no document. Documents
are durable once they are committed, which happens every so many and at the end; the
process may die before any of the writes.
-/

set_option autoImplicit false

namespace Pyre.Migration
open Base

/-- A row of `blocks`, as far as the index takes it over. -/
structure BlockRow where
  id : BlockId
  pane : PaneId
  session : SessionId
  command : Text
  startedAt : Int
  exitCode : Option Int
  deriving DecidableEq, Repr

/-- The rows, and the output of a block where its blob can be read. -/
structure BlockStore where
  rows : List BlockRow
  blob : BlockId → Option Bytes
  ids_nodup : (rows.map BlockRow.id).Nodup

def u32Max : Nat := 4294967295

def backfillBatchSize : Nat := 500

def BlockRow.document (b : BlockRow) (stdout : Text) : Document :=
  ⟨b.id,b.pane,b.session,b.startedAt,b.command,stdout,b.exitCode.getD noExitCode⟩

namespace BlockStore

variable (st : BlockStore)

/-- The newest come first. -/
def listBlocks (limit : Nat) : List BlockRow :=
  (st.rows.insertionSort fun a b => b.startedAt ≤ a.startedAt).take limit

/-- A blob that cannot be read makes a document without output. -/
def document (b : BlockRow) : Document := b.document (fromUtf8Lossy ((st.blob b.id).getD []))

/-- What a call leaves in the index that is not interrupted and in which no write fails. -/
def backfillIndexIfEmpty (docs : List Document) : List Document :=
  if 0 < docs.length then docs
  else if st.rows.length = 0 then docs
  else docs ++ (st.listBlocks u32Max).map st.document

end BlockStore

/-- Where the process is: the index is open; the loop is at block `i`; the documents up to
it are to be committed; the call has returned. -/
inductive Stage where
  | opened
  | adding (rest : List BlockRow) (i : Nat)
  | committing (rest : List BlockRow) (i : Nat)
  | returned
  deriving DecidableEq, Repr

/-- At the end of the loop what is left is committed too. -/
def Stage.Commits : Stage → Prop
  | .adding rest _ => rest = []
  | .committing _ _ => True
  | _ => False

structure Backfill where
  committed : List Document
  pending : List Document
  stage : Stage
  deriving Repr

/-- The call, which may fail to read the counts or the blocks, an addition or a commit,
and the end of the process, after which the index is opened again. -/
inductive BackfillStep where
  | call (ok : Bool)
  | add (ok : Bool)
  | commit (ok : Bool)
  | crash
  deriving DecidableEq, Repr

namespace Backfill

def fresh : Backfill := ⟨[],[],.opened⟩

def finished (s : Backfill) : Backfill := { s with stage := .returned }

/-- What a commit that fails leaves in the writer goes with the next one. -/
def commit (s : Backfill) (ok : Bool) (stage : Stage) : Backfill :=
  if ok then ⟨s.committed ++ s.pending,[],stage⟩ else { s with stage }

def step (st : BlockStore) (s : Backfill) : BackfillStep → Option Backfill
  | .call ok =>
    match s.stage with
    | .opened => some <|
      if !ok ∨ 0 < s.committed.length ∨ st.rows.length = 0 then s.finished
      else { s with stage := .adding (st.listBlocks u32Max) 0 }
    | _ => none
  | .add ok =>
    match s.stage with
    | .adding (b :: rest) i => some <|
      -- a block that cannot be added is passed over, and so is the commit after it
      if !ok then { s with stage := .adding rest (i+1) }
      else
        { s with
          pending := s.pending ++ [st.document b]
          stage := if (i+1)%backfillBatchSize = 0 then .committing rest (i+1)
            else .adding rest (i+1) }
    | _ => none
  | .commit ok =>
    match s.stage with
    | .adding [] _ => some (s.commit ok .returned)
    | .committing rest i => some (s.commit ok (.adding rest i))
    | _ => none
  | .crash => some { s with pending := [], stage := .opened }

end Backfill

/-! The blocks that are listed. -/

namespace BlockStore

variable {st : BlockStore}

theorem nodup_listBlocks (limit : Nat) : ((st.listBlocks limit).map BlockRow.id).Nodup := by
  have hperm := (List.perm_insertionSort (fun a b : BlockRow => b.startedAt ≤ a.startedAt)
    st.rows).map BlockRow.id
  exact (hperm.nodup_iff.mpr st.ids_nodup).sublist ((List.take_sublist limit _).map _)

theorem mem_listBlocks (h : st.rows.length ≤ u32Max) (b : BlockRow) :
    b ∈ st.listBlocks u32Max ↔ b ∈ st.rows := by
  rw [listBlocks,List.take_of_length_le (by rwa [List.length_insertionSort]),
    List.mem_insertionSort]

theorem length_listBlocks (limit : Nat) :
    (st.listBlocks limit).length = min limit st.rows.length := by
  rw [listBlocks,List.length_take,List.length_insertionSort]

theorem block_documents (bs : List BlockRow) :
    (bs.map st.document).map Document.block = bs.map BlockRow.id := by
  simp [document,BlockRow.document]

end BlockStore

/-! Survival. -/

namespace BlockStore

variable {st : BlockStore} {docs : List Document}

/-- There is one document for each block. -/
def Complete (st : BlockStore) (docs : List Document) : Prop :=
  ∀ b ∈ st.rows, docs.countP (fun d => d.block = b.id) = 1

def Covers (st : BlockStore) (docs : List Document) : Prop :=
  ∀ b ∈ st.rows, ∃ d ∈ docs, d.block = b.id

theorem complete_iff (h : (docs.map Document.block).Nodup) : st.Complete docs ↔ st.Covers docs := by
  refine forall₂_congr fun b _ => ?_
  have hcount : docs.countP (fun d => d.block = b.id) = (docs.map Document.block).count b.id := by
    rw [List.count,List.countP_map]
    rfl
  have hmem : (∃ d ∈ docs, d.block = b.id) ↔ b.id ∈ docs.map Document.block := by simp
  rw [hcount,hmem]
  constructor
  · intro hone
    exact List.count_pos_iff.mp (by omega)
  · exact List.count_eq_one_of_mem h

theorem covers_listBlocks_iff :
    st.Covers ((st.listBlocks u32Max).map st.document) ↔ st.rows.length ≤ u32Max := by
  constructor
  · intro h
    have hsub : st.rows.map BlockRow.id ⊆ (st.listBlocks u32Max).map BlockRow.id := by
      intro id hid
      obtain ⟨b,hb,rfl⟩ := List.mem_map.mp hid
      obtain ⟨d,hd,hblock⟩ := h b hb
      rw [← @block_documents st,← hblock]
      exact List.mem_map_of_mem hd
    have hlen := (st.ids_nodup.subperm hsub).length_le
    rw [List.length_map,List.length_map,length_listBlocks] at hlen
    omega
  · intro h b hb
    exact ⟨st.document b,List.mem_map_of_mem ((mem_listBlocks h b).mpr hb),rfl⟩

/-- A call fills an empty index, and takes any other for a full one. -/
theorem complete_backfill_iff (h : (docs.map Document.block).Nodup) :
    st.Complete (st.backfillIndexIfEmpty docs) ↔
      if docs = [] then st.rows.length ≤ u32Max else st.Covers docs := by
  unfold backfillIndexIfEmpty
  by_cases hdocs : docs = []
  · subst hdocs
    rw [if_neg (by simp),if_pos rfl]
    split
    · rename_i hnone
      rw [List.length_eq_zero_iff] at hnone
      simp [Complete,hnone]
    · rw [List.nil_append,complete_iff (by rw [block_documents]; exact nodup_listBlocks u32Max)]
      exact covers_listBlocks_iff
  · rw [if_pos (List.length_pos_iff.mpr hdocs),if_neg hdocs,complete_iff h]

end BlockStore

namespace Backfill

variable {st : BlockStore} {s t : Backfill} {a : BackfillStep}

/-- A later call that is not interrupted leaves one document for each block. -/
def Survives (st : BlockStore) (s : Backfill) : Prop :=
  st.Complete (st.backfillIndexIfEmpty s.committed)

/-- A commit that goes through is of nothing, or by then each block has a document. -/
def CommitsAll (st : BlockStore) (s : Backfill) (a : BackfillStep) : Prop :=
  a = .commit true → s.stage.Commits → s.committed ++ s.pending = [] ∨
    st.Covers (s.committed ++ s.pending)

/-- No block has two documents, and none of those to come has one. -/
def NoneTwice (s : Backfill) : Prop :=
  match s.stage with
  | .opened => (s.committed.map Document.block).Nodup ∧ s.pending = []
  | .adding rest _ | .committing rest _ =>
    ((s.committed ++ s.pending).map Document.block ++ rest.map BlockRow.id).Nodup
  | .returned => (s.committed.map Document.block).Nodup

theorem NoneTwice.nodup (h : s.NoneTwice) : (s.committed.map Document.block).Nodup := by
  unfold NoneTwice at h
  split at h
  · exact h.1
  · rw [List.map_append,List.append_assoc] at h
    exact h.of_append_left
  · rw [List.map_append,List.append_assoc] at h
    exact h.of_append_left
  · exact h

theorem NoneTwice.step (h : s.NoneTwice) (ht : step st s a = some t) : t.NoneTwice := by
  cases a with
  | call ok =>
    cases hs : s.stage <;> simp only [Backfill.step,hs,reduceCtorEq,Option.some.injEq] at ht
    rw [NoneTwice,hs] at h
    subst ht
    split
    · exact h.1
    · rename_i hcall
      have hempty : s.committed = [] := by
        rw [not_or,not_or,Nat.not_lt,Nat.le_zero,List.length_eq_zero_iff] at hcall
        exact hcall.2.1
      simpa [NoneTwice,hempty,h.2] using BlockStore.nodup_listBlocks u32Max
  | add ok =>
    cases hs : s.stage with
    | adding rest i =>
      cases rest with
      | nil => simp [Backfill.step,hs] at ht
      | cons b rest =>
        simp only [Backfill.step,hs,Option.some.injEq] at ht
        rw [NoneTwice,hs] at h
        simp only at h
        subst ht
        split
        · exact h.sublist (by simp)
        · have hmoved : ((s.committed ++ (s.pending ++ [st.document b])).map Document.block ++
              rest.map BlockRow.id).Nodup := by
            simpa [BlockStore.document,BlockRow.document] using h
          split
          · exact hmoved
          · exact hmoved
    | _ => simp [Backfill.step,hs] at ht
  | commit ok =>
    cases hs : s.stage with
    | adding rest i =>
      cases rest with
      | cons b rest => simp [Backfill.step,hs] at ht
      | nil =>
        simp only [Backfill.step,hs,Option.some.injEq] at ht
        rw [NoneTwice,hs] at h
        subst ht
        cases ok with
        | false => exact h.of_append_left.sublist (by simp [commit])
        | true => exact h.of_append_left
    | committing rest i =>
      simp only [Backfill.step,hs,Option.some.injEq] at ht
      rw [NoneTwice,hs] at h
      subst ht
      cases ok with
      | false => exact h
      | true => simpa [NoneTwice,commit] using h
    | _ => simp [Backfill.step,hs] at ht
  | crash =>
    obtain rfl := Option.some.inj ht
    exact ⟨h.nodup,rfl⟩

theorem survives_iff (h : s.NoneTwice) (hle : st.rows.length ≤ u32Max) :
    s.Survives st ↔ s.committed = [] ∨ st.Covers s.committed := by
  rw [Survives,BlockStore.complete_backfill_iff h.nodup]
  split
  · rename_i hnil
    exact iff_of_true hle (Or.inl hnil)
  · rename_i hsome
    rw [or_iff_right hsome]

/-- What has been committed grows with a commit that goes through, and no other step
changes it. -/
theorem committed_step (ht : step st s a = some t) :
    t.committed = s.committed ∧ a ≠ .commit true ∨
      a = .commit true ∧ s.stage.Commits ∧ t.committed = s.committed ++ s.pending := by
  cases a with
  | call ok =>
    cases hs : s.stage <;> simp only [Backfill.step,hs,reduceCtorEq,Option.some.injEq] at ht
    subst ht
    refine Or.inl ⟨?_,by simp⟩
    split <;> rfl
  | add ok =>
    cases hs : s.stage with
    | adding rest i =>
      cases rest with
      | nil => simp [Backfill.step,hs] at ht
      | cons b rest =>
        simp only [Backfill.step,hs,Option.some.injEq] at ht
        subst ht
        refine Or.inl ⟨?_,by simp⟩
        split <;> rfl
    | _ => simp [Backfill.step,hs] at ht
  | commit ok =>
    have hcommit : s.stage.Commits ∧ ∃ stage, t = s.commit ok stage := by
      cases hs : s.stage with
      | adding rest i =>
        cases rest with
        | nil => exact ⟨rfl,.returned,by simpa [Backfill.step,hs] using ht.symm⟩
        | cons b rest => simp [Backfill.step,hs] at ht
      | committing rest i => exact ⟨trivial,.adding rest i,by simpa [Backfill.step,hs] using ht.symm⟩
      | _ => simp [Backfill.step,hs] at ht
    obtain ⟨hstage,stage,rfl⟩ := hcommit
    cases ok with
    | true => exact Or.inr ⟨rfl,hstage,rfl⟩
    | false => exact Or.inl ⟨rfl,by simp⟩
  | crash =>
    obtain rfl := Option.some.inj ht
    exact Or.inl ⟨rfl,by simp⟩

theorem commit_enabled (st : BlockStore) (h : s.stage.Commits) :
    ∃ t, step st s (.commit true) = some t := by
  cases hs : s.stage with
  | adding rest i =>
    rw [hs] at h
    obtain rfl : rest = [] := h
    simp [Backfill.step,hs]
  | committing rest i => simp [Backfill.step,hs]
  | _ => simp [hs,Stage.Commits] at h

theorem commitsAll_iff (h : s.NoneTwice) (hle : st.rows.length ≤ u32Max) (hs : s.Survives st) :
    CommitsAll st s a ↔ ∀ t, step st s a = some t → t.Survives st := by
  constructor
  · intro hall t ht
    rw [survives_iff (h.step ht) hle]
    obtain ⟨hsame,-⟩ | ⟨ha,hstage,hmore⟩ := committed_step ht
    · rw [hsame]
      exact (survives_iff h hle).mp hs
    · rw [hmore]
      exact hall ha hstage
  · intro hsurvives ha hstage
    subst ha
    obtain ⟨t,ht⟩ := commit_enabled st hstage
    obtain ⟨-,hno⟩ | ⟨-,-,hmore⟩ := committed_step ht
    · exact absurd rfl hno
    · rw [← hmore]
      exact (survives_iff (h.step ht) hle).mp (hsurvives t ht)

/-! The call as a run. -/

/-- The rest of a call in which every write goes through. -/
def loop : List BlockRow → Nat → List BackfillStep
  | [], _ => [.commit true]
  | _ :: rest, i =>
    .add true :: if (i+1)%backfillBatchSize = 0 then .commit true :: loop rest (i+1)
      else loop rest (i+1)

theorem exec_loop (docs pending : List Document) (rest : List BlockRow) (i : Nat) :
    exec (step st) ⟨docs,pending,.adding rest i⟩ (loop rest i) =
      some ⟨docs ++ pending ++ rest.map st.document,[],.returned⟩ := by
  induction rest generalizing docs pending i with
  | nil => simp [loop,step,commit]
  | cons b rest ih =>
    unfold loop
    split
    · rename_i hbatch
      simp [step,commit,hbatch,ih]
    · rename_i hbatch
      simp [step,hbatch,ih]

/-- The pure call is what the run of the call leaves. -/
theorem exec_call (st : BlockStore) (docs : List Document) :
    exec (step st) ⟨docs,[],.opened⟩ (.call true ::
      if 0 < docs.length ∨ st.rows.length = 0 then [] else loop (st.listBlocks u32Max) 0) =
        some ⟨st.backfillIndexIfEmpty docs,[],.returned⟩ := by
  unfold BlockStore.backfillIndexIfEmpty
  by_cases hdocs : 0 < docs.length
  · simp [step,hdocs,finished]
  · by_cases hrows : st.rows.length = 0
    · simp [step,hrows,finished]
    · simp [step,hdocs,hrows,exec_loop]

/-! Stores of one batch, and of more. -/

/-- With at most one batch, and no addition that fails, each commit has everything. -/
def AtOnce (st : BlockStore) (s : Backfill) : Prop :=
  (s.committed = [] ∨ st.Covers s.committed) ∧
    match s.stage with
    | .opened => s.pending = []
    | .adding rest i => i+rest.length = st.rows.length ∧
      (s.committed ++ s.pending).map Document.block ++ rest.map BlockRow.id =
        (st.listBlocks u32Max).map BlockRow.id
    | .committing rest i => rest = [] ∧ i = st.rows.length ∧
      (s.committed ++ s.pending).map Document.block = (st.listBlocks u32Max).map BlockRow.id
    | .returned => True

theorem covers_of_blocks {docs : List Document} (hle : st.rows.length ≤ u32Max)
    (h : docs.map Document.block = (st.listBlocks u32Max).map BlockRow.id) : st.Covers docs := by
  intro b hb
  have hmem : b.id ∈ docs.map Document.block := by
    rw [h]
    exact List.mem_map_of_mem ((BlockStore.mem_listBlocks hle b).mpr hb)
  exact List.mem_map.mp hmem

theorem AtOnce.step (hle : st.rows.length ≤ backfillBatchSize) (h : s.AtOnce st)
    (ha : a ≠ .add false) (ht : step st s a = some t) : t.AtOnce st := by
  have hmax : st.rows.length ≤ u32Max := hle.trans (by decide)
  obtain ⟨hcommitted,hstage⟩ := h
  cases a with
  | call ok =>
    cases hs : s.stage <;> simp only [Backfill.step,hs,reduceCtorEq,Option.some.injEq] at ht
    simp only [hs] at hstage
    subst ht
    split
    · exact ⟨hcommitted,trivial⟩
    · rename_i hcall
      have hempty : s.committed = [] := by
        rw [not_or,not_or,Nat.not_lt,Nat.le_zero,List.length_eq_zero_iff] at hcall
        exact hcall.2.1
      refine ⟨hcommitted,?_,by simp [hempty,hstage]⟩
      rw [st.length_listBlocks,min_eq_right hmax,Nat.zero_add]
  | add ok =>
    cases ok with
    | false => exact absurd rfl ha
    | true =>
      cases hs : s.stage with
      | adding rest i =>
        cases rest with
        | nil => simp [Backfill.step,hs] at ht
        | cons b rest =>
          simp only [Backfill.step,hs,Option.some.injEq,Bool.not_true,Bool.false_eq_true,
            if_false] at ht
          simp only [hs,List.length_cons] at hstage
          obtain ⟨hlen,hblocks⟩ := hstage
          subst ht
          have hmoved : (s.committed ++ (s.pending ++ [st.document b])).map Document.block ++
              rest.map BlockRow.id = (st.listBlocks u32Max).map BlockRow.id := by
            simpa [BlockStore.document,BlockRow.document] using hblocks
          refine ⟨hcommitted,?_⟩
          by_cases hbatch : (i+1)%backfillBatchSize = 0
          · have hsize : backfillBatchSize ≤ i+1 := Nat.le_of_dvd (by omega)
              (Nat.dvd_of_mod_eq_zero hbatch)
            have hnone : rest = [] := List.length_eq_zero_iff.mp (by omega)
            simp only [hbatch,if_true]
            exact ⟨hnone,by rw [hnone] at hlen; exact hlen,by simpa [hnone] using hmoved⟩
          · simp only [hbatch,if_false]
            exact ⟨by omega,hmoved⟩
      | _ => simp [Backfill.step,hs] at ht
  | commit ok =>
    have hafter : ∀ stage, (s.committed ++ s.pending).map Document.block =
        (st.listBlocks u32Max).map BlockRow.id →
          (s.commit ok stage).committed = [] ∨ st.Covers (s.commit ok stage).committed := by
      intro stage hblocks
      cases ok with
      | false => exact hcommitted
      | true => exact Or.inr (covers_of_blocks hmax hblocks)
    cases hs : s.stage with
    | adding rest i =>
      cases rest with
      | cons b rest => simp [Backfill.step,hs] at ht
      | nil =>
        simp only [Backfill.step,hs,Option.some.injEq] at ht
        simp only [hs,List.map_nil,List.append_nil] at hstage
        subst ht
        refine ⟨hafter _ hstage.2,?_⟩
        cases ok <;> trivial
    | committing rest i =>
      simp only [Backfill.step,hs,Option.some.injEq] at ht
      simp only [hs] at hstage
      obtain ⟨rfl,hi,hblocks⟩ := hstage
      subst ht
      refine ⟨hafter _ hblocks,?_⟩
      cases ok with
      | false => exact ⟨hi,by simpa [commit] using hblocks⟩
      | true => exact ⟨hi,by simpa [commit] using hblocks⟩
    | _ => simp [Backfill.step,hs] at ht
  | crash =>
    obtain rfl := Option.some.inj ht
    exact ⟨hcommitted,rfl⟩

/-- A store of one batch at most survives every crash, if no addition fails. -/
theorem one_batch_survives (hle : st.rows.length ≤ backfillBatchSize) {as : List BackfillStep}
    (h : .add false ∉ as) : Always (step st) (Survives st) fresh as := by
  have hmax : st.rows.length ≤ u32Max := hle.trans (by decide)
  have hadds : Along (step st) (fun _ a => a ≠ .add false) fresh as :=
    along_iff.mpr fun pre a hpre _ _ ha => h (hpre.mem (by simp [ha]))
  have hall := hadds.invariant (I := fun s => s.NoneTwice ∧ s.AtOnce st)
    (fun s a t hs ha ht => ⟨hs.1.step ht,hs.2.step hle ha ht⟩)
    ⟨⟨List.nodup_nil,rfl⟩,Or.inl rfl,rfl⟩
  exact hall.mono fun t ht => (survives_iff ht.1 hmax).mpr ht.2.1

/-- Within a batch nothing is committed. -/
theorem exec_adds (docs pending : List Document) (bs rest : List BlockRow) {i : Nat}
    (h : i+bs.length < backfillBatchSize) :
    exec (step st) ⟨docs,pending,.adding (bs ++ rest) i⟩ (List.replicate bs.length (.add true)) =
      some ⟨docs,pending ++ bs.map st.document,.adding rest (i+bs.length)⟩ := by
  induction bs generalizing pending i with
  | nil => simp
  | cons b bs ih =>
    rw [List.length_cons] at h
    have hbatch : ¬(i+1)%backfillBatchSize = 0 := by
      rw [Nat.mod_eq_of_lt (by omega)]
      omega
    have hrest := ih (pending ++ [st.document b]) (i := i+1) (by omega)
    have hlen : i+1+bs.length = i+(bs.length+1) := by omega
    simp only [List.cons_append,List.length_cons,List.replicate_succ,exec_cons,step,hbatch,
      Bool.not_true,Bool.false_eq_true,if_false,Option.bind_some,hrest,hlen,List.map_cons,
      List.append_assoc,List.nil_append]

/-- A run into a store of more than one batch that dies after the first commit. -/
theorem exec_batch {bs rest : List BlockRow} {b : BlockRow}
    (h : st.listBlocks u32Max = bs ++ b :: rest) (hbs : bs.length+1 = backfillBatchSize) :
    exec (step st) fresh (.call true :: List.replicate bs.length (.add true) ++
      [.add true,.commit true]) =
        some ⟨(bs ++ [b]).map st.document,[],.adding rest (bs.length+1)⟩ := by
  have hsome : ¬st.rows.length = 0 := by
    have hlen := st.length_listBlocks u32Max
    rw [h,List.length_append,List.length_cons] at hlen
    omega
  have hcall : step st fresh (.call true) =
      some ⟨[],[],.adding (bs ++ b :: rest) 0⟩ := by
    simp [step,fresh,hsome,h]
  rw [List.cons_append,exec_cons,hcall,Option.bind_some,exec_append,
    exec_adds [] [] bs (b :: rest) (by omega),Option.bind_some]
  simp [step,commit,hbs]

/-- In a store of more than one batch the process can die where the rest is lost. -/
theorem batch_lost (st : BlockStore) (h : backfillBatchSize < st.rows.length) :
    ∃ as, ¬Always (step st) (Survives st) fresh as := by
  have hlong : backfillBatchSize < (st.listBlocks u32Max).length := by
    have hmax : backfillBatchSize < u32Max := by decide
    rw [st.length_listBlocks]
    omega
  have hlast : backfillBatchSize-1 < (st.listBlocks u32Max).length := by omega
  set b := (st.listBlocks u32Max)[backfillBatchSize-1] with hb
  obtain ⟨bs,rest,hsplit,hlen⟩ : ∃ bs rest, st.listBlocks u32Max = bs ++ b :: rest ∧
      bs.length+1 = backfillBatchSize := by
    refine ⟨(st.listBlocks u32Max).take (backfillBatchSize-1),
      (st.listBlocks u32Max).drop (backfillBatchSize-1+1),?_,?_⟩
    · rw [hb,← List.drop_eq_getElem_cons hlast,List.take_append_drop]
    · rw [List.length_take,min_eq_left hlast.le]
      rfl
  have hparts : st.listBlocks u32Max = (bs ++ [b]) ++ rest := by rw [hsplit,List.append_assoc]; rfl
  have hids := st.nodup_listBlocks u32Max
  rw [hparts,List.map_append] at hids
  obtain ⟨r,hr⟩ : ∃ r, r ∈ rest := by
    refine List.exists_mem_of_length_pos ?_
    rw [hsplit,List.length_append,List.length_cons] at hlong
    omega
  have hrow : r ∈ st.rows := by
    have hmem : r ∈ st.listBlocks u32Max := by rw [hparts]; exact List.mem_append_right _ hr
    exact (List.mem_insertionSort _).mp (List.mem_of_mem_take hmem)
  by_contra hnone
  have hcomplete := (not_exists_not.mp hnone _).last (exec_batch hsplit hlen)
  rw [Survives,BlockStore.complete_backfill_iff
    (by rw [BlockStore.block_documents]; exact hids.of_append_left),if_neg (by simp)] at hcomplete
  obtain ⟨d,hd,hblock⟩ := hcomplete r hrow
  obtain ⟨c,hc,rfl⟩ := List.mem_map.mp hd
  have hsame : c.id ∈ rest.map BlockRow.id := List.mem_map.mpr ⟨r,hr,hblock.symm⟩
  exact (List.nodup_append.mp hids).2.2 c.id (List.mem_map_of_mem hc) c.id hsame rfl

/-- Whenever the process dies, a later call leaves one document for each block, just if
the store is not beyond the limit of the listing and no commit leaves out a block. -/
theorem backfill_survives_iff (st : BlockStore) (as : List BackfillStep) :
    Always (step st) (Survives st) fresh as ↔
      st.rows.length ≤ u32Max ∧ Along (step st) (CommitsAll st) fresh as := by
  have hfresh : NoneTwice fresh := ⟨List.nodup_nil,rfl⟩
  by_cases hle : st.rows.length ≤ u32Max
  · have hstart : Survives st fresh := (survives_iff hfresh hle).mpr (Or.inl rfl)
    have hrun : Along (step st) (CommitsAll st) fresh as ↔ Always (step st) (Survives st) fresh as :=
      along_iff_always (I := NoneTwice) (fun s a t h ht => h.step ht)
        (fun s a h hs => commitsAll_iff h hle hs) hfresh hstart
    rw [and_iff_right hle,hrun]
  · refine iff_of_false (fun h => hle ?_) fun h => hle h.1
    exact (BlockStore.complete_backfill_iff hfresh.nodup).mp (h [] (List.nil_prefix) fresh rfl)

end Backfill

/-- Blocks numbered from zero. -/
def numberedBlocks (n : Nat) : BlockStore where
  rows := (List.range n).map fun i => ⟨⟨i⟩,⟨0⟩,⟨0⟩,[],0,none⟩
  blob _ := none
  ids_nodup := by
    rw [List.map_map]
    exact List.nodup_range.map fun i j h => BlockId.mk.inj h

/-- With one block more than a batch. -/
theorem backfill_stops_short : ¬∀ (st : BlockStore) (as : List BackfillStep),
    Always (Backfill.step st) (Backfill.Survives st) Backfill.fresh as := by
  intro h
  obtain ⟨as,has⟩ := Backfill.batch_lost (numberedBlocks 501) (by
    rw [numberedBlocks,List.length_map,List.length_range]; decide)
  exact has (h _ as)

end Pyre.Migration
