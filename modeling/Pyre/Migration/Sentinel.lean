import Pyre.Migration.Migrate

/-!
What the sentinel stands for: every session, every open pane and every block of the old
database is in a shard or in the index, if nothing was passed over on the way.
-/

set_option autoImplicit false

namespace Pyre.Migration
open Base

namespace LegacyDb

/-- The sessions of the database, by a pane or by a block. -/
def Mentions (db : LegacyDb) (sid : SessionId) : Prop :=
  sid ∈ db.paneSessions ∨ sid ∈ db.blockSessions

end LegacyDb

namespace Disk

variable (d : Disk) (db : LegacyDb)

def Indexed (b : LegacyBlock) : Prop := ∃ doc ∈ d.index.getD [], doc.block = b.id

/-- The shard holds all open panes of the session. -/
def Holds (sid : SessionId) : Prop :=
  ∀ row ∈ db.fetchPanesForSession sid, (d.shard sid).lookup row.1 = some row.2

instance (sid : SessionId) : Decidable (d.Holds db sid) :=
  inferInstanceAs (Decidable (∀ _ ∈ _, _))

/-- All of the old database has been carried over. -/
structure Carried : Prop where
  sessions : ∀ sid, db.Mentions sid → d.HasShard sid
  panes : ∀ sid, d.Holds db sid
  blocks : ∀ b ∈ db.blocks, d.Indexed b

/-- The sessions without a shard are still to be looked at. -/
def Awaits (todo : List SessionId) : Prop :=
  ∀ sid, db.Mentions sid → sid ∈ todo ∨ d.HasShard sid

end Disk

namespace Phase

/-- The session whose shard the process has open. -/
def filling : Phase → Option SessionId
  | .createTable sid _ => some sid
  | .fetchPanes sid _ => some sid
  | .insertPanes sid _ _ => some sid
  | _ => none

/-- A read that fails here tells of nothing that is not known otherwise. -/
def Harmless (d : Disk) : Phase → Prop
  | .findSentinel => d.sentinel = false
  | .findLegacy => d.db.panes = [] ∧ d.db.blocks = []
  | .collectPaneSessions => ∀ sid ∈ d.db.paneSessions, sid ∈ d.db.blockSessions ∨ d.HasShard sid
  | .collectBlockSessions paneSids => ∀ sid ∈ d.db.blockSessions, sid ∈ paneSids ∨ d.HasShard sid
  | .collectBlocks _ => d.db.blocks = []
  | _ => True

instance (d : Disk) (p : Phase) : Decidable (p.Harmless d) := by
  cases p <;> dsimp only [Harmless] <;> infer_instance

end Phase

namespace Progress

/-- The process has a shard open in which a pane is missing. -/
def HalfWritten (s : Progress) : Prop :=
  ∃ sid, s.phase.filling = some sid ∧ ¬s.disk.Holds s.disk.db sid

instance (s : Progress) : Decidable s.HalfWritten :=
  decidable_of_iff (s.phase.filling.any fun sid => decide ¬s.disk.Holds s.disk.db sid) (by
    simp only [HalfWritten,Option.any_eq_true,decide_eq_true_eq])

/-- The step passes nothing of the old database over: the process neither dies nor fails over
a shard in which a pane is missing, the panes of such a shard are read, the file of the
sentinel and that of a database that holds anything are seen to be there, no query fails that
would have told of a session or a block not known otherwise, and every block is added. -/
def Lossless (s : Progress) : MigrationStep → Prop
  | .boot => ¬s.HalfWritten
  | .op true => True
  | .op false => ¬s.HalfWritten ∧ s.phase.Harmless s.disk
  | .addBlock _ ok => ok = true

instance (s : Progress) : DecidablePred s.Lossless
  | .boot => inferInstanceAs (Decidable (¬_))
  | .op true => isTrue trivial
  | .op false => inferInstanceAs (Decidable (_ ∧ _))
  | .addBlock _ ok => inferInstanceAs (Decidable (ok = true))

end Progress

namespace Disk

variable {d : Disk} {db : LegacyDb} {sid t : SessionId} {row : ShardRow}

theorem shard_openShard : (d.openShard sid).shard t = d.shard t := by
  unfold shard openShard
  by_cases h : t = sid
  · rw [h,AList.lookup_insert]
    rfl
  · rw [AList.lookup_insert_ne h]

theorem hasShard_openShard : (d.openShard sid).HasShard t ↔ t = sid ∨ d.HasShard t := by
  unfold HasShard openShard
  by_cases h : t = sid
  · subst h
    simp
  · simp [h,AList.lookup_insert_ne h]

theorem hasShard_insertPane : (d.insertPane sid row).HasShard t ↔ t = sid ∨ d.HasShard t := by
  unfold HasShard insertPane
  by_cases h : t = sid
  · subst h
    simp
  · simp [h,AList.lookup_insert_ne h]

theorem shard_insertPane_self :
    (d.insertPane sid row).shard sid = (d.shard sid).insert row.1 row.2 := by
  rw [shard,insertPane,AList.lookup_insert]
  rfl

theorem shard_insertPane_ne (h : t ≠ sid) : (d.insertPane sid row).shard t = d.shard t := by
  rw [shard,insertPane,AList.lookup_insert_ne h]
  rfl

theorem Awaits.mono {todo : List SessionId} {e : Disk} (h : d.Awaits db todo)
    (hshards : ∀ t, d.HasShard t → e.HasShard t) : e.Awaits db todo :=
  fun t ht => (h t ht).imp_right (hshards t)

end Disk

/-- A slot is the row id of one pane. -/
theorem LegacyDb.eq_of_slot (db : LegacyDb) {sid : SessionId} {r r' : ShardRow}
    (h : r ∈ db.fetchPanesForSession sid) (h' : r' ∈ db.fetchPanesForSession sid)
    (hslot : r.1 = r'.1) : r = r' := by
  obtain ⟨p,hp,rfl⟩ := List.mem_map.mp h
  obtain ⟨p',hp',rfl⟩ := List.mem_map.mp h'
  have heq : p = p' := List.inj_on_of_nodup_map db.rowids_nodup (List.mem_filter.mp hp).1
    (List.mem_filter.mp hp').1 hslot
  rw [heq]

namespace Phase

/-- The pane is one that the process is still to copy to the shard it has open. -/
def Fills (sid : SessionId) (row : ShardRow) : Phase → Prop
  | .createTable t _ => t = sid
  | .fetchPanes t _ => t = sid
  | .insertPanes t rows _ => t = sid ∧ row ∈ rows
  | _ => False

/-- What the process knows is enough for the rest of its work. -/
def Owes (d : Disk) (db : LegacyDb) : Phase → Prop
  | .collectBlockSessions paneSids =>
    ∀ sid ∈ db.paneSessions, sid ∈ paneSids ∨ sid ∈ db.blockSessions ∨ d.HasShard sid
  | .collectBlocks ids => d.Awaits db ids
  | .nextSession c => d.Awaits db c.todo ∧ c.blocks = db.blocks
  | .createSessionDir sid c => d.Awaits db (sid :: c.todo) ∧ c.blocks = db.blocks
  | .openShard sid c => d.Awaits db (sid :: c.todo) ∧ c.blocks = db.blocks
  | .createTable sid c => d.Awaits db c.todo ∧ c.blocks = db.blocks ∧ d.HasShard sid
  | .fetchPanes sid c => d.Awaits db c.todo ∧ c.blocks = db.blocks ∧ d.HasShard sid
  | .insertPanes sid rows c =>
    d.Awaits db c.todo ∧ c.blocks = db.blocks ∧ d.HasShard sid ∧
      rows ⊆ db.fetchPanesForSession sid
  | .findIndex c => d.Awaits db [] ∧ c.blocks = db.blocks
  | .removeIndex c => d.Awaits db [] ∧ c.blocks = db.blocks
  | .openIndex c => d.Awaits db [] ∧ c.blocks = db.blocks
  | .addBlocks rest _ =>
    d.Awaits db [] ∧ d.index.isSome ∧ ∀ b ∈ db.blocks, b ∈ rest ∨ d.Indexed b
  | .createSentinel _ => d.Carried db
  | .fillSentinel _ => d.Carried db
  | .done _ => d.Carried db
  | _ => True

/-- No work is under way that the sentinel would have spared. -/
def Settled : Phase → Prop
  | .down => True
  | .createDir => True
  | .findSentinel => True
  | .fillSentinel _ => True
  | .done _ => True
  | .failed => True
  | _ => False

theorem filling_of_fills {p : Phase} {sid : SessionId} {row : ShardRow} (h : p.Fills sid row) :
    p.filling = some sid := by
  cases p with
  | createTable t c => exact congrArg some h
  | fetchPanes t c => exact congrArg some h
  | insertPanes t rows c => exact congrArg some h.1
  | _ => exact h.elim

end Phase

namespace Progress

variable {s t : Progress} {db : LegacyDb}

/-- The invariant of runs that pass nothing over. -/
structure Tracked (s : Progress) (db : LegacyDb) : Prop where
  legacy : s.disk.legacy = some db
  shards : ∀ sid, s.disk.HasShard sid → ∀ row ∈ db.fetchPanesForSession sid,
    (s.disk.shard sid).lookup row.1 = some row.2 ∨ s.phase.Fills sid row
  owes : s.phase.Owes s.disk db
  sentinel : s.disk.sentinel = true → s.disk.Carried db ∧ s.phase.Settled

theorem Tracked.db_eq (h : s.Tracked db) : s.disk.db = db := by
  rw [Disk.db,h.legacy]
  rfl

theorem tracked_start (index : Option (List Document)) : (start (some db) index).Tracked db where
  legacy := rfl
  shards := fun _ h => by cases h
  owes := trivial
  sentinel := fun h => by cases h

/-- Where no shard is half written, those there are hold all panes. -/
theorem Tracked.holds (h : s.Tracked db) (hwhole : ¬s.HalfWritten) {sid : SessionId}
    (hsid : s.disk.HasShard sid) : s.disk.Holds db sid := by
  intro row hrow
  rcases h.shards sid hsid row hrow with hin | hfills
  · exact hin
  · by_contra hout
    exact hwhole ⟨sid,Phase.filling_of_fills hfills,fun hall => hout (hall row (h.db_eq ▸ hrow))⟩

theorem Tracked.holds_of_idle (h : s.Tracked db) (hidle : s.phase.filling = none)
    {sid : SessionId} (hsid : s.disk.HasShard sid) : s.disk.Holds db sid :=
  h.holds (by simp [HalfWritten,hidle]) hsid

theorem Tracked.hasShard_of_filling (h : s.Tracked db) {sid : SessionId}
    (hfilling : s.phase.filling = some sid) : s.disk.HasShard sid := by
  obtain ⟨d,p⟩ := s
  cases p with
  | createTable t c => exact Option.some.inj hfilling ▸ h.owes.2.2
  | fetchPanes t c => exact Option.some.inj hfilling ▸ h.owes.2.2
  | insertPanes t rows c => exact Option.some.inj hfilling ▸ h.owes.2.2.1
  | _ => cases hfilling

/-- On to another phase, with the files as they are. -/
theorem Tracked.moveTo (h : s.Tracked db) {p : Phase}
    (hfills : ∀ sid, s.disk.HasShard sid → ∀ row ∈ db.fetchPanesForSession sid,
      s.phase.Fills sid row → (s.disk.shard sid).lookup row.1 = some row.2 ∨ p.Fills sid row)
    (howes : p.Owes s.disk db) (hsettled : s.disk.sentinel = true → p.Settled) :
    Tracked { s with phase := p } db where
  legacy := h.legacy
  shards := fun sid hsid row hrow =>
    (h.shards sid hsid row hrow).elim Or.inl (hfills sid hsid row hrow)
  owes := howes
  sentinel := fun hs => ⟨(h.sentinel hs).1,hsettled hs⟩

/-- As `moveTo`, where no shard is open. -/
theorem Tracked.pass (h : s.Tracked db) {p : Phase} (hidle : s.phase.filling = none)
    (howes : p.Owes s.disk db) (hsettled : s.disk.sentinel = true → p.Settled) :
    Tracked { s with phase := p } db :=
  h.moveTo (fun sid _ row _ hfills => by
    rw [Phase.filling_of_fills hfills] at hidle
    cases hidle) howes hsettled

/-- The process dies or fails, with every shard whole. -/
theorem Tracked.stop (h : s.Tracked db) (hwhole : ¬s.HalfWritten) {p : Phase}
    (howes : p.Owes s.disk db) (hsettled : p.Settled) : Tracked { s with phase := p } db :=
  h.moveTo (fun _ hsid row hrow _ => Or.inl (h.holds hwhole hsid row hrow)) howes
    fun _ => hsettled

theorem Lossless.whole {ok : Bool} (h : s.Lossless (.op ok)) (hok : ok = false) :
    ¬s.HalfWritten := by
  subst hok
  exact h.1

theorem Tracked.orFail (h : s.Tracked db) {ok : Bool} (hless : s.Lossless (.op ok)) {p : Phase}
    (hnext : Tracked { s with phase := p } db) : (s.orFail ok p).Tracked db := by
  cases ok with
  | true => exact hnext
  | false => exact h.stop (hless.whole rfl) trivial trivial

theorem Tracked.writeOrFail (h : s.Tracked db) {ok : Bool} (hless : s.Lossless (.op ok))
    {d : Disk} {p : Phase} (hnext : Tracked ⟨d,p⟩ db) : (s.writeOrFail ok d p).Tracked db := by
  cases ok with
  | true => exact hnext
  | false => exact h.stop (hless.whole rfl) trivial trivial

/-- The shards do not change where only the index does. With the work under way there is no
sentinel yet. -/
theorem Tracked.reindex (h : s.Tracked db) {index : Option (List Document)} {p : Phase}
    (hidle : s.phase.filling = none) (hwork : ¬s.phase.Settled)
    (howes : p.Owes { s.disk with index := index } db) :
    Tracked ⟨{ s.disk with index := index },p⟩ db where
  legacy := h.legacy
  shards := fun _ hsid row hrow => Or.inl (h.holds_of_idle hidle hsid row hrow)
  owes := howes
  sentinel := fun hs => absurd (h.sentinel hs).2 hwork

theorem Tracked.openShard {sid : SessionId} {c : Collected} {d : Disk}
    (h : Tracked ⟨d,.openShard sid c⟩ db) : Tracked ⟨d.openShard sid,.createTable sid c⟩ db where
  legacy := h.legacy
  shards := fun t ht row hrow => by
    by_cases hsid : t = sid
    · exact Or.inr hsid.symm
    · rw [Disk.shard_openShard]
      exact Or.inl (h.holds_of_idle rfl ((Disk.hasShard_openShard.mp ht).resolve_left hsid) row hrow)
  owes := by
    refine ⟨fun t ht => ?_,h.owes.2,Disk.hasShard_openShard.mpr (Or.inl rfl)⟩
    rw [Disk.hasShard_openShard]
    rcases h.owes.1 t ht with hmem | hshard
    · rcases List.mem_cons.mp hmem with rfl | hmem
      · exact Or.inr (Or.inl rfl)
      · exact Or.inl hmem
    · exact Or.inr (Or.inr hshard)
  sentinel := fun hs => absurd (h.sentinel hs).2 id

theorem Tracked.insertPane {sid : SessionId} {row : ShardRow} {rest : List ShardRow}
    {c : Collected} {d : Disk} (h : Tracked ⟨d,.insertPanes sid (row :: rest) c⟩ db) :
    Tracked ⟨d.insertPane sid row,.insertPanes sid rest c⟩ db where
  legacy := h.legacy
  shards := fun t ht r hr => by
    obtain ⟨-,-,hshard,hrows⟩ := h.owes
    by_cases hsid : t = sid
    · subst hsid
      rw [Disk.shard_insertPane_self]
      by_cases hslot : r.1 = row.1
      · obtain rfl := db.eq_of_slot hr (hrows List.mem_cons_self) hslot
        exact Or.inl (AList.lookup_insert _)
      · rw [AList.lookup_insert_ne hslot]
        refine (h.shards t hshard r hr).imp_right fun hfills => ⟨rfl,?_⟩
        have hne : r ≠ row := fun heq => hslot (congrArg Prod.fst heq)
        exact (List.mem_cons.mp hfills.2).resolve_left hne
    · rw [Disk.shard_insertPane_ne hsid]
      have hold := (Disk.hasShard_insertPane.mp ht).resolve_left hsid
      exact (h.shards t hold r hr).imp_right fun hfills => absurd hfills.1.symm hsid
  owes := by
    obtain ⟨hawaits,hblocks,hshard,hrows⟩ := h.owes
    exact ⟨hawaits.mono fun t ht => Disk.hasShard_insertPane.mpr (Or.inr ht),hblocks,
      Disk.hasShard_insertPane.mpr (Or.inl rfl),(List.cons_subset.mp hrows).2⟩
  sentinel := fun hs => absurd (h.sentinel hs).2 id

/-- With no session left to be looked at and no shard open, the shards are all there. -/
theorem Tracked.carried (h : s.Tracked db) (hidle : s.phase.filling = none)
    (hawaits : s.disk.Awaits db []) (hblocks : ∀ b ∈ db.blocks, s.disk.Indexed b) :
    s.disk.Carried db where
  sessions := fun sid hsid => (hawaits sid hsid).resolve_left List.not_mem_nil
  panes := fun sid row hrow => by
    have hmention : db.Mentions sid := by
      obtain ⟨pane,hpane,-⟩ := List.mem_map.mp hrow
      obtain ⟨hmem,hsid⟩ := List.mem_filter.mp hpane
      have hsid := (of_decide_eq_true hsid).1
      exact Or.inl (List.mem_dedup.mpr (List.mem_map.mpr ⟨pane,hmem,hsid⟩))
    exact h.holds_of_idle hidle ((hawaits sid hmention).resolve_left List.not_mem_nil) row hrow
  blocks := hblocks

/-! The steps after which the process goes one way or another, or with less than it asked for. -/

theorem Tracked.findSentinel {d : Disk} {ok : Bool} (h : Tracked ⟨d,.findSentinel⟩ db)
    (hless : Lossless ⟨d,.findSentinel⟩ (.op ok)) :
    Tracked ⟨d,if ok ∧ d.sentinel then .done .alreadyDone else .findLegacy⟩ db := by
  by_cases hseen : ok = true ∧ d.sentinel = true
  · rw [if_pos hseen]
    exact h.pass rfl (h.sentinel hseen.2).1 fun _ => trivial
  · rw [if_neg hseen]
    have hno : d.sentinel = false := by
      cases ok with
      | true => simpa using hseen
      | false => exact hless.2
    exact h.pass rfl trivial fun hs => by
      rw [show d.sentinel = true from hs] at hno
      cases hno

theorem carried_of_empty {d : Disk} (hpanes : db.panes = []) (hblocks : db.blocks = []) :
    d.Carried db where
  sessions := fun sid hsid => by
    simp [LegacyDb.Mentions,LegacyDb.paneSessions,LegacyDb.blockSessions,hpanes,hblocks] at hsid
  panes := fun sid row hrow => by simp [LegacyDb.fetchPanesForSession,hpanes] at hrow
  blocks := fun b hb => by simp [hblocks] at hb

theorem Tracked.findLegacy {d : Disk} {ok : Bool} (h : Tracked ⟨d,.findLegacy⟩ db)
    (hless : Lossless ⟨d,.findLegacy⟩ (.op ok)) :
    Tracked ⟨d,if ok ∧ d.legacy.isSome then .backup else .createSentinel .noLegacy⟩ db := by
  have hlegacy : d.legacy = some db := h.legacy
  have hwork : d.sentinel = true → False := fun hs => (h.sentinel hs).2
  cases ok with
  | true =>
    simp only [hlegacy,Option.isSome_some,and_self,if_true]
    exact h.pass rfl trivial fun hs => (hwork hs).elim
  | false =>
    have hempty : d.db.panes = [] ∧ d.db.blocks = [] := hless.2
    rw [show d.db = db from h.db_eq] at hempty
    exact h.pass rfl (carried_of_empty hempty.1 hempty.2) fun hs => (hwork hs).elim

theorem Tracked.collectBlockSessions {d : Disk} {ok : Bool} {paneSids : List SessionId}
    (h : Tracked ⟨d,.collectBlockSessions paneSids⟩ db)
    (hless : Lossless ⟨d,.collectBlockSessions paneSids⟩ (.op ok)) :
    Tracked ⟨d,.collectBlocks (sortedIds (paneSids ++ if ok then d.db.blockSessions else []))⟩
      db := by
  have hdb : d.db = db := h.db_eq
  refine h.pass rfl (fun sid hsid => ?_) fun hs => (h.sentinel hs).2
  rw [mem_sortedIds,List.mem_append]
  have hblock : sid ∈ db.blockSessions →
      (sid ∈ paneSids ∨ sid ∈ if ok then d.db.blockSessions else []) ∨ d.HasShard sid := by
    intro hblock
    cases ok with
    | true => exact Or.inl (Or.inr (hdb ▸ hblock))
    | false => exact (hless.2 sid (hdb ▸ hblock)).imp_left Or.inl
  rcases hsid with hpane | hsid
  · rcases h.owes sid hpane with hin | hsid | hshard
    · exact Or.inl (Or.inl hin)
    · exact hblock hsid
    · exact Or.inr hshard
  · exact hblock hsid

theorem Tracked.nextSession {d : Disk} {ok : Bool} {sid : SessionId} {rest : List SessionId}
    {blocks : List LegacyBlock} {migrated : Nat}
    (h : Tracked ⟨d,.nextSession ⟨sid :: rest,blocks,migrated⟩⟩ db) :
    Tracked ⟨d,if ok ∧ d.HasShard sid then .nextSession ⟨rest,blocks,migrated+1⟩
      else .createSessionDir sid ⟨rest,blocks,migrated⟩⟩ db := by
  obtain ⟨hawaits,hblocks⟩ := h.owes
  split
  · next hseen =>
    refine h.pass rfl ⟨fun u hu => ?_,hblocks⟩ fun hs => (h.sentinel hs).2
    rcases hawaits u hu with hmem | hshard
    · rcases List.mem_cons.mp hmem with rfl | hmem
      · exact Or.inr hseen.2
      · exact Or.inl hmem
    · exact Or.inr hshard
  · exact h.pass rfl ⟨hawaits,hblocks⟩ fun hs => (h.sentinel hs).2

theorem Tracked.fetchPanes {d : Disk} {ok : Bool} {sid : SessionId} {c : Collected}
    (h : Tracked ⟨d,.fetchPanes sid c⟩ db) (hless : Lossless ⟨d,.fetchPanes sid c⟩ (.op ok)) :
    Tracked ⟨d,.insertPanes sid (if ok then d.db.fetchPanesForSession sid else []) c⟩ db := by
  have hdb : d.db = db := h.db_eq
  obtain ⟨hawaits,hblocks,hshard⟩ := h.owes
  refine h.moveTo (fun u hu row hrow hfills => ?_) ⟨hawaits,hblocks,hshard,?_⟩
    fun hs => (h.sentinel hs).2
  · cases ok with
    | true =>
      obtain rfl : sid = u := hfills
      exact Or.inr ⟨rfl,hdb ▸ hrow⟩
    | false => exact Or.inl (h.holds (hless.whole rfl) hu row hrow)
  · cases ok with
    | true => exact fun row hrow => hdb ▸ hrow
    | false => exact List.nil_subset _

theorem tracked_perform {ok : Bool} (h : s.Tracked db) (hless : s.Lossless (.op ok))
    (ht : s.perform ok = some t) : t.Tracked db := by
  have hdb : s.disk.db = db := h.db_eq
  obtain ⟨d,p⟩ := s
  cases p with
  | down => cases ht
  | createDir =>
    obtain rfl := Option.some.inj ht
    exact h.orFail hless (h.pass rfl trivial fun _ => trivial)
  | findSentinel =>
    obtain rfl := Option.some.inj ht
    exact h.findSentinel hless
  | findLegacy =>
    obtain rfl := Option.some.inj ht
    exact h.findLegacy hless
  | backup =>
    obtain rfl := Option.some.inj ht
    exact h.orFail hless (h.pass rfl trivial fun hs => (h.sentinel hs).2)
  | openLegacy =>
    obtain rfl := Option.some.inj ht
    exact h.orFail hless (h.pass rfl trivial fun hs => (h.sentinel hs).2)
  | collectPaneSessions =>
    obtain rfl := Option.some.inj ht
    refine h.pass rfl (fun sid hsid => ?_) fun hs => (h.sentinel hs).2
    cases ok with
    | true => exact Or.inl (hdb ▸ hsid)
    | false => exact Or.inr (hdb ▸ hless.2 sid (hdb ▸ hsid))
  | collectBlockSessions paneSids =>
    obtain rfl := Option.some.inj ht
    exact h.collectBlockSessions hless
  | collectBlocks ids =>
    obtain rfl := Option.some.inj ht
    refine h.pass rfl ⟨h.owes,?_⟩ fun hs => (h.sentinel hs).2
    cases ok with
    | true => exact congrArg LegacyDb.blocks hdb
    | false =>
      have hnone : d.db.blocks = [] := hless.2
      exact (hdb ▸ hnone).symm
  | nextSession c =>
    obtain ⟨todo,blocks,migrated⟩ := c
    cases todo with
    | nil =>
      obtain rfl := Option.some.inj ht
      exact h.pass rfl h.owes fun hs => (h.sentinel hs).2
    | cons sid rest =>
      obtain rfl := Option.some.inj ht
      exact h.nextSession
  | createSessionDir sid c =>
    obtain rfl := Option.some.inj ht
    exact h.orFail hless (h.pass rfl h.owes fun hs => (h.sentinel hs).2)
  | openShard sid c =>
    obtain rfl := Option.some.inj ht
    exact h.writeOrFail hless h.openShard
  | createTable sid c =>
    obtain rfl := Option.some.inj ht
    exact h.orFail hless (h.moveTo (fun _ _ _ _ => Or.inr) h.owes fun hs => (h.sentinel hs).2)
  | fetchPanes sid c =>
    obtain rfl := Option.some.inj ht
    exact h.fetchPanes hless
  | insertPanes sid rows c =>
    cases rows with
    | nil =>
      obtain rfl := Option.some.inj ht
      obtain ⟨hawaits,hblocks,-⟩ := h.owes
      exact h.moveTo (fun u hu row hrow hfills => absurd hfills.2 List.not_mem_nil)
        ⟨hawaits,hblocks⟩ fun hs => (h.sentinel hs).2
    | cons row rest =>
      obtain rfl := Option.some.inj ht
      exact h.writeOrFail hless h.insertPane
  | findIndex c =>
    obtain rfl := Option.some.inj ht
    simp only
    split <;> exact h.pass rfl h.owes fun hs => (h.sentinel hs).2
  | removeIndex c =>
    obtain rfl := Option.some.inj ht
    exact h.writeOrFail hless (h.reindex rfl id h.owes)
  | openIndex c =>
    obtain rfl := Option.some.inj ht
    obtain ⟨hawaits,hblocks⟩ := h.owes
    refine h.writeOrFail hless (h.reindex rfl id ⟨hawaits,rfl,fun b hb => Or.inl ?_⟩)
    rw [hblocks]
    exact hb
  | addBlocks rest c =>
    cases rest with
    | nil =>
      obtain rfl := Option.some.inj ht
      obtain ⟨hawaits,-,hblocks⟩ := h.owes
      have hcarried := h.carried rfl hawaits fun b hb =>
        (hblocks b hb).resolve_left List.not_mem_nil
      exact h.pass rfl hcarried fun hs => (h.sentinel hs).2
    | cons b rest => cases ht
  | createSentinel report =>
    obtain rfl := Option.some.inj ht
    have hold : d.Carried db := h.owes
    have hcarried : Disk.Carried { d with sentinel := true } db := { hold with }
    exact h.writeOrFail hless ⟨h.legacy,h.shards,hcarried,fun _ => ⟨hcarried,trivial⟩⟩
  | fillSentinel report =>
    obtain rfl := Option.some.inj ht
    exact h.orFail hless (h.pass rfl h.owes fun _ => trivial)
  | done report => cases ht
  | failed => cases ht

theorem tracked_step {a : MigrationStep} (h : s.Tracked db) (hless : s.Lossless a)
    (ht : s.step a = some t) : t.Tracked db := by
  cases a with
  | boot =>
    obtain rfl := Option.some.inj ht
    exact h.stop hless trivial trivial
  | op ok => exact tracked_perform h hless ht
  | addBlock blob ok =>
    obtain rfl : ok = true := hless
    obtain ⟨d,p⟩ := s
    simp only [step] at ht
    split at ht
    · next b rest c =>
      obtain rfl := Option.some.inj ht
      obtain ⟨hawaits,hindex,hblocks⟩ := h.owes
      obtain ⟨docs,hdocs⟩ : ∃ docs, d.index = some docs := Option.isSome_iff_exists.mp hindex
      refine h.reindex rfl id ⟨hawaits,by simp [hdocs],fun b' hb' => ?_⟩
      rcases hblocks b' hb' with hrest | ⟨doc,hdoc,hid⟩
      · rcases List.mem_cons.mp hrest with rfl | hrest
        · exact Or.inr ⟨b'.document blob,by simp [hdocs],rfl⟩
        · exact Or.inl hrest
      · have hold : doc ∈ docs := by simpa [hdocs] using hdoc
        exact Or.inr ⟨doc,by simp [hdocs,hold],hid⟩
    · cases ht

/-- In a run that passes nothing over, the old database has been carried over wherever the
sentinel is there. -/
theorem sentinel_carried (db : LegacyDb) (index : Option (List Document))
    (as : List MigrationStep) (h : Along step Lossless (start (some db) index) as) :
    Always step (fun t => t.disk.sentinel = true → t.disk.Carried db)
      (start (some db) index) as :=
  (h.invariant (I := fun t => t.Tracked db) (fun _ _ _ hs hc ht => tracked_step hs hc ht)
    (tracked_start index)).mono fun _ ht hs => (ht.sentinel hs).1

/-- A database of one session with one open pane and no block. -/
def onePane : LegacyDb where
  panes := [⟨1,⟨10⟩,⟨5⟩,"/bin/bash".toList,none,none⟩]
  blocks := []
  rowids_nodup := by decide

theorem sentinel_carried_onePane :
    Always step (fun t => t.disk.sentinel = true → t.disk.Carried onePane)
      (start (some onePane) none)
      ([.boot,.op true,.op true,.op true,.op false,.boot] ++ List.replicate 21 (.op true)) :=
  sentinel_carried onePane none _ (by decide)

/-- The query for the sessions of the panes fails; the migration goes on without them and writes
the sentinel. -/
theorem sentinel_without_session :
    ¬∀ (db : LegacyDb) (index : Option (List Document)) (as : List MigrationStep) (t : Progress),
      exec step (start (some db) index) as = some t → t.disk.sentinel = true →
        t.disk.Carried db := by
  intro h
  have hrun : (exec step (start (some onePane) none)
      [.boot,.op true,.op true,.op true,.op true,.op true,.op false,.op true,.op true,
        .op true,.op true,.op true,.op true,.op true,.op true]).any fun t =>
      decide (t.disk.sentinel = true ∧ ¬t.disk.HasShard ⟨5⟩) := by decide
  obtain ⟨t,ht,hrun⟩ := (Option.any_eq_true _ _).mp hrun
  obtain ⟨hs,hno⟩ := of_decide_eq_true hrun
  exact hno ((h _ _ _ t ht hs).sessions ⟨5⟩ (Or.inl (by decide)))

end Progress

end Pyre.Migration
