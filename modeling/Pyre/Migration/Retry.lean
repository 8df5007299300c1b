import Pyre.Migration.Sentinel

/-!
Running the migration again: what it leaves when it returns, after attempts that failed or
died on the way, and what one attempt without interruption leaves.
-/

set_option autoImplicit false

namespace Pyre.Migration
open Base

namespace Disk

variable (d : Disk) (db : LegacyDb)

/-- The index has one document for each block of the old database. -/
def Reindexed : Prop := (d.index.getD []).map Document.block = db.blocks.map LegacyBlock.id

/-- The migration is complete: there is a shard for each session and no other, each has the open
panes of its session and no other, and the index has been rebuilt. -/
structure Complete : Prop where
  sentinel : d.sentinel = true
  sessions : ∀ sid, d.HasShard sid ↔ db.Mentions sid
  panes : ∀ sid slot v, (d.shard sid).lookup slot = some v ↔
    (slot,v) ∈ db.fetchPanesForSession sid
  index : d.Reindexed db

/-- The same sentinel, shards and indexed blocks. -/
structure SameAs (e : Disk) : Prop where
  sentinel : d.sentinel = e.sentinel
  sessions : ∀ sid, d.HasShard sid ↔ e.HasShard sid
  panes : ∀ sid slot, (d.shard sid).lookup slot = (e.shard sid).lookup slot
  index : (d.index.getD []).map Document.block = (e.index.getD []).map Document.block

variable {d db} {e : Disk}

/-- A complete migration leaves one state only. -/
theorem Complete.sameAs (h : d.Complete db) (h' : e.Complete db) : d.SameAs e where
  sentinel := h.sentinel.trans h'.sentinel.symm
  sessions := fun sid => (h.sessions sid).trans (h'.sessions sid).symm
  panes := fun sid slot => Option.ext fun v => (h.panes sid slot v).trans (h'.panes sid slot v).symm
  index := h.index.trans h'.index.symm

end Disk

namespace Phase

/-- What `migrate_to_hybrid` has returned, if it has and without an error. -/
def report : Phase → Option MigrationReport
  | .done report => some report
  | _ => none

theorem eq_done {p : Phase} {r : MigrationReport} (h : p.report = some r) : p = .done r := by
  cases p with
  | done r' => rw [Option.some.inj h]
  | _ => cases h

/-- The process is about to open the shard of the session, or has it open. -/
def Opens (sid : SessionId) : Phase → Prop
  | .createSessionDir t _ => t = sid
  | .openShard t _ => t = sid
  | .createTable t _ => t = sid
  | .fetchPanes t _ => t = sid
  | .insertPanes t _ _ => t = sid
  | _ => False

/-- A look that fails here makes the process pass over an index that is there. -/
def passesIndex : Phase → Bool
  | .findLegacy => true
  | .findIndex _ => true
  | _ => false

/-- What the process knows is of this database, and what it has indexed. -/
def Keeps (d : Disk) (db : LegacyDb) : Phase → Prop
  | .collectBlockSessions sids => ∀ sid ∈ sids, db.Mentions sid
  | .collectBlocks ids => ∀ sid ∈ ids, db.Mentions sid
  | .nextSession c => ∀ sid ∈ c.todo, db.Mentions sid
  | .createSessionDir sid c => ∀ t ∈ sid :: c.todo, db.Mentions t
  | .openShard sid c => ∀ t ∈ sid :: c.todo, db.Mentions t
  | .createTable _ c => ∀ t ∈ c.todo, db.Mentions t
  | .fetchPanes _ c => ∀ t ∈ c.todo, db.Mentions t
  | .insertPanes _ _ c => ∀ t ∈ c.todo, db.Mentions t
  | .openIndex _ => d.index.getD [] = []
  | .addBlocks rest _ =>
    (d.index.getD []).map Document.block ++ rest.map LegacyBlock.id = db.blocks.map LegacyBlock.id
  | .createSentinel _ => d.Reindexed db
  | .fillSentinel _ => d.Reindexed db ∧ d.sentinel = true
  | .done _ => d.Reindexed db ∧ d.sentinel = true
  | _ => True

end Phase

namespace Progress

/-- The step passes nothing over, and not the index that is there either. -/
def Resumable (s : Progress) (a : MigrationStep) : Prop :=
  s.Lossless a ∧ (a = .op false → s.phase.passesIndex = true → s.disk.index.getD [] = [])

instance (s : Progress) : DecidablePred s.Resumable :=
  fun _ => inferInstanceAs (Decidable (_ ∧ (_ → _)))

/-- `migrate_to_hybrid` has returned `Ok`. -/
def ReturnedOk (s : Progress) : Prop := ∃ report, s.phase = .done report

/-- Nothing fails, and the process does not die. -/
def Uninterrupted (as : List MigrationStep) : Prop :=
  ∀ a ∈ as, a = .op true ∨ ∃ blob, a = .addBlock blob true

variable {s t : Progress} {db : LegacyDb}

/-- Nothing is in the shards that is not in the database, and the index is as the phase needs. -/
structure Exact (s : Progress) (db : LegacyDb) : Prop where
  sessions : ∀ sid, s.disk.HasShard sid → db.Mentions sid
  rows : ∀ sid slot v, (s.disk.shard sid).lookup slot = some v →
    (slot,v) ∈ db.fetchPanesForSession sid
  keeps : s.phase.Keeps s.disk db
  index : s.disk.sentinel = true → s.disk.Reindexed db

theorem exact_start (index : Option (List Document)) : (start (some db) index).Exact db where
  sessions := fun _ h => by cases h
  rows := fun _ _ _ h => by cases h
  keeps := trivial
  index := fun h => by cases h

theorem Exact.pass (h : s.Exact db) {p : Phase} (hp : p.Keeps s.disk db) :
    Exact { s with phase := p } db :=
  ⟨h.sessions,h.rows,hp,h.index⟩

theorem Exact.orFail (h : s.Exact db) {ok : Bool} {p : Phase} (hp : p.Keeps s.disk db) :
    (s.orFail ok p).Exact db := by
  cases ok with
  | true => exact h.pass hp
  | false => exact h.pass trivial

theorem Exact.writeOrFail (h : s.Exact db) {ok : Bool} {d : Disk} {p : Phase}
    (hnext : Exact ⟨d,p⟩ db) : (s.writeOrFail ok d p).Exact db := by
  cases ok with
  | true => exact hnext
  | false => exact h.pass trivial

/-- Only the index changes, with the work under way. -/
theorem Exact.reindex (h : s.Exact db) (hs : s.Tracked db) (hwork : ¬s.phase.Settled)
    {index : Option (List Document)} {p : Phase}
    (hp : p.Keeps { s.disk with index := index } db) :
    Exact ⟨{ s.disk with index := index },p⟩ db where
  sessions := h.sessions
  rows := h.rows
  keeps := hp
  index := fun hsentinel => absurd (hs.sentinel hsentinel).2 hwork

theorem Exact.openShard {sid : SessionId} {c : Collected} {d : Disk}
    (h : Exact ⟨d,.openShard sid c⟩ db) : Exact ⟨d.openShard sid,.createTable sid c⟩ db where
  sessions := fun t ht => by
    rcases Disk.hasShard_openShard.mp ht with rfl | ht
    · exact h.keeps t List.mem_cons_self
    · exact h.sessions t ht
  rows := fun t slot v hv => by
    rw [Disk.shard_openShard] at hv
    exact h.rows t slot v hv
  keeps := fun t ht => h.keeps t (List.mem_cons_of_mem _ ht)
  index := h.index

theorem Exact.insertPane {sid : SessionId} {row : ShardRow} {rest : List ShardRow}
    {c : Collected} {d : Disk} (h : Exact ⟨d,.insertPanes sid (row :: rest) c⟩ db)
    (hs : Tracked ⟨d,.insertPanes sid (row :: rest) c⟩ db) :
    Exact ⟨d.insertPane sid row,.insertPanes sid rest c⟩ db where
  sessions := fun t ht => by
    rcases Disk.hasShard_insertPane.mp ht with rfl | ht
    · exact h.sessions t hs.owes.2.2.1
    · exact h.sessions t ht
  rows := fun t slot v hv => by
    by_cases hsid : t = sid
    · subst hsid
      rw [Disk.shard_insertPane_self] at hv
      rcases Table.lookup_insert_eq_some.mp hv with ⟨rfl,rfl⟩ | ⟨-,hv⟩
      · exact hs.owes.2.2.2 List.mem_cons_self
      · exact h.rows t slot v hv
    · rw [Disk.shard_insertPane_ne hsid] at hv
      exact h.rows t slot v hv
  keeps := h.keeps
  index := h.index

theorem exact_perform {ok : Bool} (h : s.Exact db) (hs : s.Tracked db)
    (hres : s.Resumable (.op ok)) (ht : s.perform ok = some t) : t.Exact db := by
  have hdb : s.disk.db = db := hs.db_eq
  obtain ⟨hless,hindex⟩ := hres
  obtain ⟨d,p⟩ := s
  cases p with
  | down => cases ht
  | createDir =>
    obtain rfl := Option.some.inj ht
    exact h.orFail trivial
  | findSentinel =>
    obtain rfl := Option.some.inj ht
    simp only
    split
    · next hseen => exact h.pass ⟨h.index hseen.2,hseen.2⟩
    · exact h.pass trivial
  | findLegacy =>
    obtain rfl := Option.some.inj ht
    have hlegacy : d.legacy = some db := hs.legacy
    cases ok with
    | true =>
      simp only [hlegacy,Option.isSome_some,and_self,if_true]
      exact h.pass trivial
    | false =>
      have hempty : d.index.getD [] = [] := hindex rfl rfl
      have hblocks : d.db.blocks = [] := hless.2.2
      rw [show d.db = db from hdb] at hblocks
      refine h.pass ?_
      simp [Phase.Keeps,Disk.Reindexed,hempty,hblocks]
  | backup =>
    obtain rfl := Option.some.inj ht
    exact h.orFail trivial
  | openLegacy =>
    obtain rfl := Option.some.inj ht
    exact h.orFail trivial
  | collectPaneSessions =>
    obtain rfl := Option.some.inj ht
    refine h.pass fun sid hsid => ?_
    cases ok with
    | true => exact Or.inl (hdb ▸ hsid)
    | false => exact absurd hsid List.not_mem_nil
  | collectBlockSessions paneSids =>
    obtain rfl := Option.some.inj ht
    refine h.pass fun sid hsid => ?_
    rcases List.mem_append.mp (mem_sortedIds.mp hsid) with hpane | hblock
    · exact h.keeps sid hpane
    · cases ok with
      | true => exact Or.inr (hdb ▸ hblock)
      | false => exact absurd hblock List.not_mem_nil
  | collectBlocks ids =>
    obtain rfl := Option.some.inj ht
    exact h.pass h.keeps
  | nextSession c =>
    obtain ⟨todo,blocks,migrated⟩ := c
    cases todo with
    | nil =>
      obtain rfl := Option.some.inj ht
      exact h.pass trivial
    | cons sid rest =>
      obtain rfl := Option.some.inj ht
      simp only
      split
      · exact h.pass fun t ht => h.keeps t (List.mem_cons_of_mem sid ht)
      · exact h.pass h.keeps
  | createSessionDir sid c =>
    obtain rfl := Option.some.inj ht
    exact h.orFail h.keeps
  | openShard sid c =>
    obtain rfl := Option.some.inj ht
    exact h.writeOrFail h.openShard
  | createTable sid c =>
    obtain rfl := Option.some.inj ht
    exact h.orFail h.keeps
  | fetchPanes sid c =>
    obtain rfl := Option.some.inj ht
    exact h.pass h.keeps
  | insertPanes sid rows c =>
    cases rows with
    | nil =>
      obtain rfl := Option.some.inj ht
      exact h.pass h.keeps
    | cons row rest =>
      obtain rfl := Option.some.inj ht
      exact h.writeOrFail (h.insertPane hs)
  | findIndex c =>
    obtain rfl := Option.some.inj ht
    simp only
    split
    · exact h.pass trivial
    · next hunseen =>
      refine h.pass ?_
      cases ok with
      | true =>
        have hnone : d.index = none := by simpa using hunseen
        simp [Phase.Keeps,hnone]
      | false => exact hindex rfl rfl
  | removeIndex c =>
    obtain rfl := Option.some.inj ht
    exact h.writeOrFail (h.reindex hs id rfl)
  | openIndex c =>
    obtain rfl := Option.some.inj ht
    have hempty : d.index.getD [] = [] := h.keeps
    obtain ⟨-,hblocks⟩ := hs.owes
    refine h.writeOrFail (h.reindex hs id ?_)
    simp [Phase.Keeps,hempty,hblocks]
  | addBlocks rest c =>
    cases rest with
    | nil =>
      obtain rfl := Option.some.inj ht
      refine h.pass ?_
      have hall := h.keeps
      simpa [Phase.Keeps,Disk.Reindexed] using hall
    | cons b rest => cases ht
  | createSentinel report =>
    obtain rfl := Option.some.inj ht
    exact h.writeOrFail ⟨h.sessions,h.rows,⟨h.keeps,rfl⟩,fun _ => h.keeps⟩
  | fillSentinel report =>
    obtain rfl := Option.some.inj ht
    exact h.orFail h.keeps
  | done report => cases ht
  | failed => cases ht

theorem exact_step {a : MigrationStep} (h : s.Exact db) (hs : s.Tracked db)
    (hres : s.Resumable a) (ht : s.step a = some t) : t.Exact db := by
  cases a with
  | boot =>
    obtain rfl := Option.some.inj ht
    exact h.pass trivial
  | op ok => exact exact_perform h hs hres ht
  | addBlock blob ok =>
    obtain rfl : ok = true := hres.1
    obtain ⟨d,p⟩ := s
    simp only [step] at ht
    split at ht
    · next b rest c =>
      obtain rfl := Option.some.inj ht
      obtain ⟨docs,hdocs⟩ : ∃ docs, d.index = some docs :=
        Option.isSome_iff_exists.mp hs.owes.2.1
      have hall := h.keeps
      refine h.reindex hs id ?_
      simp only [Phase.Keeps,hdocs,Option.map_some,Option.getD_some] at hall ⊢
      simpa [LegacyBlock.document] using hall
    · cases ht

/-- The two invariants together. -/
theorem Tracked.complete (hs : s.Tracked db) (h : s.Exact db) (hok : s.ReturnedOk) :
    s.disk.Complete db := by
  obtain ⟨report,hphase⟩ := hok
  have hcarried : s.disk.Carried db := by
    have howes := hs.owes
    rw [hphase] at howes
    exact howes
  have hkeeps := h.keeps
  rw [hphase] at hkeeps
  refine ⟨hkeeps.2,fun sid => ⟨h.sessions sid,hcarried.sessions sid⟩,fun sid slot v => ?_,hkeeps.1⟩
  exact ⟨h.rows sid slot v,fun hrow => hcarried.panes sid (slot,v) hrow⟩

theorem always_complete (index : Option (List Document)) {as : List MigrationStep}
    (h : Along step Resumable (start (some db) index) as) :
    Always step (fun t => t.ReturnedOk → t.disk.Complete db) (start (some db) index) as :=
  (h.invariant (I := fun t => t.Tracked db ∧ t.Exact db)
    (fun _ _ _ hs hc ht => ⟨tracked_step hs.1 hc.1 ht,exact_step hs.2 hs.1 hc ht⟩)
    ⟨tracked_start index,exact_start index⟩).mono fun _ ht => ht.1.complete ht.2

theorem along_of_uninterrupted {as : List MigrationStep} (h : Uninterrupted as) (s : Progress) :
    Along step Resumable s as := by
  induction as generalizing s with
  | nil => trivial
  | cons a as ih =>
    refine ⟨?_,fun t _ => ih (fun b hb => h b (List.mem_cons_of_mem a hb)) t⟩
    rcases h a List.mem_cons_self with rfl | ⟨blob,rfl⟩
    · exact ⟨trivial,fun hf => by cases hf⟩
    · exact ⟨rfl,fun hf => by cases hf⟩

/-! What a stop over a half written shard comes to: the shard is there, and so it is skipped. -/

/-- The file of a shard is not overlooked. -/
def SeesShard (s : Progress) (a : MigrationStep) : Prop :=
  a = .op false → ∀ c, s.phase ≠ .nextSession c

/-- The shard lacks a pane, and the process is not about to write to it. -/
structure Abandoned (s : Progress) (db : LegacyDb) (sid : SessionId) : Prop where
  shard : s.disk.HasShard sid
  missing : ¬s.disk.Holds db sid
  elsewhere : ¬s.phase.Opens sid

theorem Abandoned.pass {sid : SessionId} (h : s.Abandoned db sid) {p : Phase}
    (hp : ¬p.Opens sid) : Abandoned { s with phase := p } db sid :=
  ⟨h.shard,h.missing,hp⟩

theorem Abandoned.writeOrFail {sid : SessionId} (h : s.Abandoned db sid) {ok : Bool} {d : Disk}
    {p : Phase} (hnext : Abandoned ⟨d,p⟩ db sid) : (s.writeOrFail ok d p).Abandoned db sid := by
  cases ok with
  | true => exact hnext
  | false => exact h.pass id

theorem Abandoned.orFail {sid : SessionId} (h : s.Abandoned db sid) {ok : Bool} {p : Phase}
    (hp : ¬p.Opens sid) : (s.orFail ok p).Abandoned db sid := by
  cases ok with
  | true => exact h.pass hp
  | false => exact h.pass id

theorem abandoned_perform {sid : SessionId} {ok : Bool} (h : s.Abandoned db sid)
    (hsees : s.SeesShard (.op ok)) (ht : s.perform ok = some t) : t.Abandoned db sid := by
  obtain ⟨d,p⟩ := s
  cases p with
  | down => cases ht
  | createDir =>
    obtain rfl := Option.some.inj ht
    exact h.orFail id
  | findSentinel =>
    obtain rfl := Option.some.inj ht
    simp only
    split <;> exact h.pass id
  | findLegacy =>
    obtain rfl := Option.some.inj ht
    simp only
    split <;> exact h.pass id
  | backup =>
    obtain rfl := Option.some.inj ht
    exact h.orFail id
  | openLegacy =>
    obtain rfl := Option.some.inj ht
    exact h.orFail id
  | collectPaneSessions =>
    obtain rfl := Option.some.inj ht
    exact h.pass id
  | collectBlockSessions paneSids =>
    obtain rfl := Option.some.inj ht
    exact h.pass id
  | collectBlocks ids =>
    obtain rfl := Option.some.inj ht
    exact h.pass id
  | nextSession c =>
    obtain ⟨todo,blocks,migrated⟩ := c
    cases todo with
    | nil =>
      obtain rfl := Option.some.inj ht
      exact h.pass id
    | cons u rest =>
      obtain rfl := Option.some.inj ht
      simp only
      split
      · exact h.pass id
      · next hunseen =>
        refine h.pass fun hsame => hunseen ?_
        obtain rfl : u = sid := hsame
        cases ok with
        | true => exact ⟨rfl,h.shard⟩
        | false => exact absurd rfl (hsees rfl _)
  | createSessionDir u c =>
    obtain rfl := Option.some.inj ht
    exact h.orFail h.elsewhere
  | openShard u c =>
    obtain rfl := Option.some.inj ht
    refine h.writeOrFail ⟨Disk.hasShard_openShard.mpr (Or.inr h.shard),fun hall => ?_,h.elsewhere⟩
    exact h.missing fun row hrow => Disk.shard_openShard ▸ hall row hrow
  | createTable u c =>
    obtain rfl := Option.some.inj ht
    exact h.orFail h.elsewhere
  | fetchPanes u c =>
    obtain rfl := Option.some.inj ht
    exact h.pass h.elsewhere
  | insertPanes u rows c =>
    cases rows with
    | nil =>
      obtain rfl := Option.some.inj ht
      exact h.pass id
    | cons row rest =>
      obtain rfl := Option.some.inj ht
      have hne : sid ≠ u := fun hsame => h.elsewhere hsame.symm
      refine h.writeOrFail ⟨Disk.hasShard_insertPane.mpr (Or.inr h.shard),fun hall => ?_,
        h.elsewhere⟩
      exact h.missing fun r hr => Disk.shard_insertPane_ne hne ▸ hall r hr
  | findIndex c =>
    obtain rfl := Option.some.inj ht
    simp only
    split <;> exact h.pass id
  | removeIndex c =>
    obtain rfl := Option.some.inj ht
    exact h.writeOrFail ⟨h.shard,h.missing,id⟩
  | openIndex c =>
    obtain rfl := Option.some.inj ht
    exact h.writeOrFail ⟨h.shard,h.missing,id⟩
  | addBlocks rest c =>
    cases rest with
    | nil =>
      obtain rfl := Option.some.inj ht
      exact h.pass id
    | cons b rest => cases ht
  | createSentinel report =>
    obtain rfl := Option.some.inj ht
    exact h.writeOrFail ⟨h.shard,h.missing,id⟩
  | fillSentinel report =>
    obtain rfl := Option.some.inj ht
    exact h.orFail id
  | done report => cases ht
  | failed => cases ht

theorem abandoned_step {sid : SessionId} {a : MigrationStep} (h : s.Abandoned db sid)
    (hsees : s.SeesShard a) (ht : s.step a = some t) : t.Abandoned db sid := by
  cases a with
  | boot =>
    obtain rfl := Option.some.inj ht
    exact h.pass id
  | op ok => exact abandoned_perform h hsees ht
  | addBlock blob ok =>
    obtain ⟨d,p⟩ := s
    simp only [step] at ht
    split at ht
    · obtain rfl := Option.some.inj ht
      cases ok <;> exact ⟨h.shard,h.missing,id⟩
    · cases ht

/-- Once the process has died over a half written shard, no attempt completes the migration
that sees the file of the shard. -/
theorem half_written_never_complete (hs : s.Tracked db) (hhalf : s.HalfWritten)
    {as : List MigrationStep} (h : Along step SeesShard { s with phase := .createDir } as) :
    Always step (fun t => ¬t.disk.Complete db) { s with phase := .createDir } as := by
  obtain ⟨sid,hfilling,hmissing⟩ := hhalf
  rw [hs.db_eq] at hmissing
  have hstart : Abandoned { s with phase := .createDir } db sid :=
    ⟨hs.hasShard_of_filling hfilling,hmissing,id⟩
  refine (h.invariant (I := fun t => t.Abandoned db sid)
    (fun _ _ _ hi hc ht => abandoned_step hi hc ht) hstart).mono fun t ht hcomplete => ?_
  exact ht.missing fun row hrow => (hcomplete.panes sid row.1 row.2).mpr hrow

theorem uninterrupted_replicate (n : Nat) : Uninterrupted (List.replicate n (.op true)) :=
  fun _ ha => Or.inl (List.eq_of_mem_replicate ha)

/-- A migration that was stopped at points that leave no shard half written, and that passes
nothing over, is complete whenever it returns, with what an attempt without interruption leaves. -/
theorem retry_same_as_uninterrupted (db : LegacyDb) (index : Option (List Document))
    (as : List MigrationStep) (h : Along step Resumable (start (some db) index) as) :
    Always step (fun t => t.ReturnedOk → t.disk.Complete db ∧
      ∀ bs u, Uninterrupted bs → exec step (start (some db) index) (.boot :: bs) = some u →
        u.ReturnedOk → t.disk.SameAs u.disk) (start (some db) index) as := by
  refine (always_complete index h).mono fun t ht hok => ⟨ht hok,fun bs u hbs hu huok => ?_⟩
  have hboot : Along step Resumable (start (some db) index) (.boot :: bs) := by
    refine ⟨⟨fun hhalf => ?_,fun hf => by cases hf⟩,fun v _ => along_of_uninterrupted hbs v⟩
    obtain ⟨sid,hfilling,-⟩ := hhalf
    cases hfilling
  exact (ht hok).sameAs ((always_complete index hboot).last hu huok)

/-- The backup of the first attempt fails. -/
theorem retry_same_as_uninterrupted_backup :
    Always step (fun t => t.ReturnedOk → t.disk.Complete onePane ∧
      ∀ bs u, Uninterrupted bs → exec step (start (some onePane) none) (.boot :: bs) = some u →
        u.ReturnedOk → t.disk.SameAs u.disk) (start (some onePane) none)
      ([.boot,.op true,.op true,.op true,.op false,.boot] ++ List.replicate 21 (.op true)) :=
  retry_same_as_uninterrupted onePane none _ (by decide)

/-- The process dies when the file of a shard has just been made; the next attempt sees the file
and leaves the shard without its pane. -/
theorem shard_left_empty :
    ¬∀ (db : LegacyDb) (index : Option (List Document)) (as bs : List MigrationStep)
      (t : Progress), Uninterrupted as → Uninterrupted bs →
        exec step (start (some db) index) (.boot :: as ++ .boot :: bs) = some t →
          t.ReturnedOk → t.disk.Complete db := by
  intro h
  have hrun : (exec step (start (some onePane) none)
      (.boot :: List.replicate 11 (.op true) ++ .boot :: List.replicate 15 (.op true))).any fun t =>
      decide (t.phase.report = some (.migrated 1 0) ∧ (t.disk.shard ⟨5⟩).lookup 1 = none) := by
    decide
  obtain ⟨t,ht,hrun⟩ := (Option.any_eq_true _ _).mp hrun
  obtain ⟨hreport,hno⟩ := of_decide_eq_true hrun
  have hok : t.ReturnedOk := ⟨_,Phase.eq_done hreport⟩
  have hcomplete := h _ _ _ _ t (uninterrupted_replicate 11) (uninterrupted_replicate 15) ht hok
  have hpane := (hcomplete.panes ⟨5⟩ 1 ("/bin/bash".toList,[])).mpr (by decide)
  rw [hno] at hpane
  cases hpane

end Progress

end Pyre.Migration
