import Pyre.Base.Text
import Pyre.Migration.Retry
import Pyre.Session.Opening

/-!
Switching a daemon of its own to the hybrid mode: the database its store has written, at the
place its environment names, and the migration, which looks for it at the place it takes from
the same environment.

Where the home directory and the data directory of the user are is told by a library, which
is a parameter. So is which file a path names.
-/

set_option autoImplicit false

namespace Pyre.Migration
open Base Session

abbrev Path := Bytes

namespace Path

/-- `join` with a relative path -/
def join (p : Path) (name : String) : Path :=
  if p = [] then encode name.toList
  else if p.getLast? = some 0x2F then p ++ encode name.toList
  else p ++ 0x2F :: encode name.toList

end Path

/-- The value of each variable that is set. -/
abbrev Env := String → Option Bytes

/-- `std::env::var`: a value that is not Unicode counts as none. -/
def Env.var (env : Env) (name : String) : Option Path :=
  (env name).filter fun raw => (fromUtf8 raw).isSome

structure Dirs where
  homeDir : Env → Option Path
  dataDir : Env → Option Path

namespace Dirs

variable (dirs : Dirs) (env : Env)

def tmp : Path := encode "/tmp".toList

def stateHome : Path :=
  match env.var "XDG_STATE_HOME" with
  | some p => p
  | none => (((dirs.homeDir env).getD tmp).join ".local").join "state"

def pyreStateDir : Path := (dirs.stateHome env).join "pyre"

def legacyDbPath : Path := (dirs.pyreStateDir env).join "state.db"

/-- The directory `Store::open` takes. -/
def storeDir : Path :=
  match env.var "PYRE_DATA_DIR" with
  | some p => p
  | none => ((dirs.dataDir env).getD tmp).join "pyre"

def storeDbPath : Path := (dirs.storeDir env).join "state.db"

/-- The directories on Linux, for a user without an entry in the password file. -/
def xdg : Dirs where
  homeDir env := (env "HOME").filter fun p => p ≠ []
  dataDir env :=
    ((env "XDG_DATA_HOME").filter fun p => p.head? = some 0x2F).or
      (((env "HOME").filter fun p => p ≠ []).map fun p => (Path.join p ".local").join "share")

end Dirs

namespace LegacyDb

/-- The row id SQLite gives the next row. -/
def nextRowid (db : LegacyDb) : Nat := (db.panes.map PaneRow.rowid).foldr max 0 + 1

theorem rowid_lt_nextRowid {db : LegacyDb} {row : PaneRow} (h : row ∈ db.panes) :
    row.rowid < db.nextRowid := by
  have hle : ∀ (ns : List Nat) n, n ∈ ns → n ≤ ns.foldr max 0 := by
    intro ns
    induction ns with
    | nil => simp
    | cons m ns ih =>
      intro n hn
      rcases List.mem_cons.mp hn with rfl | hn
      · exact Nat.le_max_left _ _
      · exact (ih n hn).trans (Nat.le_max_right _ _)
  exact Nat.lt_succ_of_le (hle _ _ (List.mem_map.mpr ⟨row,h,rfl⟩))

/-- An id that has a row keeps it, with the new directory. -/
def upsertPane (db : LegacyDb) (id : PaneId) (session : SessionId) (argv : Text)
    (cwd : Option Text) : LegacyDb :=
  if ∃ row ∈ db.panes, row.id = id then
    { db with
      panes := db.panes.map fun row => if row.id = id then { row with cwd := cwd } else row
      rowids_nodup := by
        have hsame : (db.panes.map fun row =>
            if row.id = id then { row with cwd := cwd } else row).map PaneRow.rowid =
            db.panes.map PaneRow.rowid := by
          rw [List.map_map]
          refine List.map_congr_left fun row _ => ?_
          simp only [Function.comp_apply]
          split <;> rfl
        rw [hsame]
        exact db.rowids_nodup }
  else
    { db with
      panes := db.panes ++ [⟨db.nextRowid,id,session,argv,cwd,none⟩]
      rowids_nodup := by
        rw [List.map_append,List.nodup_append]
        refine ⟨db.rowids_nodup,List.nodup_singleton _,fun n hn m hm => ?_⟩
        obtain ⟨row,hrow,rfl⟩ := List.mem_map.mp hn
        obtain rfl : m = db.nextRowid := by simpa using hm
        exact (rowid_lt_nextRowid hrow).ne }

def createBlock (db : LegacyDb) (b : LegacyBlock) : LegacyDb :=
  { db with blocks := db.blocks ++ [b] }

end LegacyDb

/-- A daemon of its own and the database of its store. -/
structure SingleDaemon where
  registry : Registry
  store : LegacyDb

/-- An operation of the registry, with the shell and the directory of the pane it opens; a
block that is recorded; and the end of the daemon and the start of the next. -/
inductive DaemonStep where
  | act (a : Action) (shell : Text) (cwd : Option Text)
  | createBlock (b : LegacyBlock)
  | restart

namespace SingleDaemon

def fresh : SingleDaemon := ⟨.empty,.empty⟩

/-- No operation that ends a pane writes to the store's rows of panes. -/
def step (s : SingleDaemon) : DaemonStep → Option SingleDaemon
  | .act a shell cwd =>
    (s.registry.step a).map fun registry =>
      match s.registry.opened a with
      | some (pane,sid) => ⟨registry,s.store.upsertPane pane sid shell cwd⟩
      | none => { s with registry := registry }
  | .createBlock b => some { s with store := s.store.createBlock b }
  | .restart => some { s with registry := { s.registry with sessions := ∅ } }

/-- The pane of the row is open. -/
def Open (s : SingleDaemon) (row : PaneRow) : Prop := ∃ w, s.registry.Has row.session row.id w

/-- The shards hold the open panes, each in that of its session, and no others, and every
session with open panes has a shard. -/
structure KeptIn (s : SingleDaemon) (d : Disk) : Prop where
  panes : ∀ sid slot v, (d.shard sid).lookup slot = some v ↔
    ∃ row ∈ s.store.panes, (row.session = sid ∧ row.rowid = slot ∧ (row.argv,row.cwd.getD []) = v) ∧
      s.Open row
  sessions : ∀ sid p w, s.registry.Has sid p w → d.HasShard sid

variable {Place : Type} [DecidableEq Place] (dirs : Dirs) (locate : Path → Place) (env : Env)

/-- The store and the migration mean the same file. -/
def SameFile : Prop := locate (dirs.storeDbPath env) = locate (dirs.legacyDbPath env)

instance : Decidable (SameFile dirs locate env) := inferInstanceAs (Decidable (_ = _))

/-- What the migration finds where it looks for the database. -/
def legacyAt (s : SingleDaemon) : Option LegacyDb :=
  if SameFile dirs locate env then some s.store else none

/-- The file is the same and every pane there was is open, or it is not and none is open. -/
def Switchable (s : SingleDaemon) : Prop :=
  if SameFile dirs locate env then ∀ row ∈ s.store.panes, s.Open row
  else ∀ sid p w, ¬s.registry.Has sid p w

/-! What the store has of the panes. -/

structure Recorded (s : SingleDaemon) : Prop where
  rows : ∀ sid p w, s.registry.Has sid p w →
    ∃ row ∈ s.store.panes, row.id = p ∧ row.session = sid
  drawn : ∀ row ∈ s.store.panes, row.id ∈ s.registry.drawnPanes
  current : ∀ row ∈ s.store.panes, row.closedAt = none

variable {s t : SingleDaemon}

theorem recorded_fresh : fresh.Recorded where
  rows := fun sid p w h => by
    obtain ⟨se,h,-⟩ := h
    cases h
  drawn := fun _ h => by cases h
  current := fun _ h => by cases h

theorem recorded_step {a : DaemonStep} (h : s.Recorded) (ht : s.step a = some t) :
    t.Recorded := by
  cases a with
  | act a shell cwd =>
    obtain ⟨r,hr,rfl⟩ := Option.map_eq_some_iff.mp ht
    have hdraws := Registry.draws_step hr
    split
    · next pane sid hopened =>
      obtain ⟨hnew,hdrawn⟩ := (Registry.drawn_step hr).2 pane sid hopened
      have hfree : ¬∃ row ∈ s.store.panes, row.id = pane := by
        rintro ⟨row,hrow,rfl⟩
        exact hnew (h.drawn row hrow)
      have hpanes : (s.store.upsertPane pane sid shell cwd).panes =
          s.store.panes ++ [⟨s.store.nextRowid,pane,sid,shell,cwd,none⟩] := by
        rw [LegacyDb.upsertPane,if_neg hfree]
      refine ⟨fun sid' p w hp => ?_,fun row hrow => ?_,fun row hrow => ?_⟩
      · rw [hpanes]
        rcases Registry.has_step hr hp with hold | hthis
        · obtain ⟨row,hrow,hid⟩ := h.rows sid' p w hold
          exact ⟨row,List.mem_append_left _ hrow,hid⟩
        · rw [hopened] at hthis
          cases hthis
          exact ⟨_,List.mem_append_right _ List.mem_cons_self,rfl,rfl⟩
      · rw [hpanes] at hrow
        rcases List.mem_append.mp hrow with hrow | hrow
        · exact hdraws.drawn (h.drawn row hrow)
        · rw [List.mem_singleton.mp hrow]
          exact hdrawn
      · rw [hpanes] at hrow
        rcases List.mem_append.mp hrow with hrow | hrow
        · exact h.current row hrow
        · rw [List.mem_singleton.mp hrow]
    · next hopened =>
      refine ⟨fun sid p w hp => ?_,fun row hrow => hdraws.drawn (h.drawn row hrow),h.current⟩
      refine h.rows sid p w ((Registry.has_step hr hp).resolve_right ?_)
      simp [hopened]
  | createBlock b =>
    obtain rfl := Option.some.inj ht
    exact ⟨h.rows,h.drawn,h.current⟩
  | restart =>
    obtain rfl := Option.some.inj ht
    refine ⟨fun sid p w hp => ?_,h.drawn,h.current⟩
    obtain ⟨se,hse,-⟩ := hp
    cases hse

theorem Recorded.mem_fetch (h : s.Recorded) {sid : SessionId} {slot : Nat} {v : Text × Text} :
    (slot,v) ∈ s.store.fetchPanesForSession sid ↔
      ∃ row ∈ s.store.panes, row.session = sid ∧ row.rowid = slot ∧
        (row.argv,row.cwd.getD []) = v := by
  rw [LegacyDb.fetchPanesForSession,List.mem_map]
  constructor
  · rintro ⟨row,hrow,heq⟩
    obtain ⟨hmem,hsid⟩ := List.mem_filter.mp hrow
    obtain ⟨rfl,rfl⟩ := Prod.mk.inj heq
    exact ⟨row,hmem,(of_decide_eq_true hsid).1,rfl,rfl⟩
  · rintro ⟨row,hrow,hsid,rfl,rfl⟩
    refine ⟨row,List.mem_filter.mpr ⟨hrow,?_⟩,rfl⟩
    exact decide_eq_true ⟨hsid,h.current row hrow⟩

/-- The shards hold the row of every pane there was, so they hold what they should just if all
of them are open. -/
theorem Recorded.keptIn_iff (h : s.Recorded) {d : Disk} (hd : d.Complete s.store) :
    s.KeptIn d ↔ ∀ row ∈ s.store.panes, s.Open row := by
  constructor
  · intro hkept row hrow
    have hfetch := h.mem_fetch.mpr ⟨row,hrow,rfl,rfl,rfl⟩
    obtain ⟨row',hrow',⟨-,hslot,-⟩,hopen⟩ :=
      (hkept.panes _ _ _).mp ((hd.panes _ _ _).mpr hfetch)
    have hsame := List.inj_on_of_nodup_map s.store.rowids_nodup hrow' hrow hslot
    exact hsame ▸ hopen
  · intro hall
    refine ⟨fun sid slot v => ?_,fun sid p w hp => ?_⟩
    · rw [hd.panes,h.mem_fetch]
      constructor
      · rintro ⟨row,hrow,hv⟩
        exact ⟨row,hrow,hv,hall row hrow⟩
      · rintro ⟨row,hrow,hv,-⟩
        exact ⟨row,hrow,hv⟩
    · obtain ⟨row,hrow,rfl,rfl⟩ := h.rows sid p w hp
      exact (hd.sessions _).mpr
        (Or.inl (List.mem_dedup.mpr (List.mem_map.mpr ⟨row,hrow,rfl⟩)))

/-- Without shards only what is empty is kept. -/
theorem keptIn_none_iff {d : Disk} (hd : ∀ sid, ¬d.HasShard sid) :
    s.KeptIn d ↔ ∀ sid p w, ¬s.registry.Has sid p w := by
  constructor
  · intro hkept sid p w hp
    exact hd sid (hkept.sessions sid p w hp)
  · intro hnone
    refine ⟨fun sid slot v => ?_,fun sid p w hp => absurd hp (hnone sid p w)⟩
    have hempty : d.shard sid = ∅ := by
      rw [Disk.shard,Option.not_isSome_iff_eq_none.mp (hd sid)]
      rfl
    rw [hempty]
    refine iff_of_false (by simp) ?_
    rintro ⟨row,-,-,w,hp⟩
    exact hnone _ _ _ hp

end SingleDaemon

namespace Phase

/-- The way of an attempt that finds no old database. -/
def FindsNone : Phase → Prop
  | .findLegacy => True
  | .createSentinel _ => True
  | p => p.Settled

end Phase

namespace Progress

variable {s t : Progress}

/-- Without an old database no shard is made. -/
structure Idle (s : Progress) : Prop where
  legacy : s.disk.legacy = none
  shards : s.disk.shards = ∅
  phase : s.phase.FindsNone

theorem idle_step {a : MigrationStep} (h : s.Idle) (ht : s.step a = some t) : t.Idle := by
  obtain ⟨d,p⟩ := s
  obtain ⟨hlegacy,hshards,hphase⟩ := h
  cases a with
  | boot =>
    obtain rfl := Option.some.inj ht
    exact ⟨hlegacy,hshards,trivial⟩
  | op ok =>
    cases p with
    | createDir =>
      obtain rfl := Option.some.inj ht
      cases ok <;> exact ⟨hlegacy,hshards,trivial⟩
    | findSentinel =>
      obtain rfl := Option.some.inj ht
      refine ⟨hlegacy,hshards,?_⟩
      simp only
      split <;> trivial
    | findLegacy =>
      obtain rfl := Option.some.inj ht
      refine ⟨hlegacy,hshards,?_⟩
      have hnone : d.legacy = none := hlegacy
      simp [hnone,Phase.FindsNone]
    | createSentinel report =>
      obtain rfl := Option.some.inj ht
      cases ok <;> exact ⟨hlegacy,hshards,trivial⟩
    | fillSentinel report =>
      obtain rfl := Option.some.inj ht
      cases ok <;> exact ⟨hlegacy,hshards,trivial⟩
    | down => cases ht
    | done report => cases ht
    | failed => cases ht
    | _ => exact hphase.elim
  | addBlock blob ok =>
    cases p with
    | addBlocks rest c => exact hphase.elim
    | _ => cases ht

theorem always_no_shards (index : Option (List Document)) (as : List MigrationStep) :
    Always step (fun t => ∀ sid, ¬t.disk.HasShard sid) (start none index) as := by
  have hidle : (start none index).Idle := ⟨rfl,rfl,trivial⟩
  refine (Always.of_invariant (fun _ _ _ h ht => idle_step h ht) hidle as).mono fun t ht sid hs => ?_
  rw [Disk.HasShard,ht.shards] at hs
  cases hs

end Progress

namespace SingleDaemon

variable {Place : Type} [DecidableEq Place]

/-- After any history of the daemon, a migration that is not stopped halfway through a shard and
passes nothing over keeps the sessions just if the daemon was switchable. -/
theorem sessions_kept_iff (dirs : Dirs) (locate : Path → Place) (env : Env)
    (history : List DaemonStep) :
    Always step (fun s => ∀ index attempts,
      Along Progress.step Progress.Resumable (.start (legacyAt dirs locate env s) index) attempts →
        Always Progress.step (fun m => m.ReturnedOk →
          (s.KeptIn m.disk ↔ s.Switchable dirs locate env))
          (.start (legacyAt dirs locate env s) index) attempts) fresh history := by
  refine (Always.of_invariant (fun _ _ _ h ht => recorded_step h ht) recorded_fresh history).mono
    fun s hs index attempts hsound => ?_
  unfold legacyAt Switchable at *
  by_cases hsame : SameFile dirs locate env
  · simp only [if_pos hsame] at hsound ⊢
    exact (Progress.always_complete index hsound).mono fun m hm hok => hs.keptIn_iff (hm hok)
  · simp only [if_neg hsame] at hsound ⊢
    exact (Progress.always_no_shards index attempts).mono fun m hm _ => keptIn_none_iff hm

/-- Of all the variables only `HOME` is set. -/
def homeOnly : Env := fun name => if name = "HOME" then some (encode "/home/u".toList) else none

/-- The store is under `.local/share` and the migration looks under `.local/state`: it finds no
database, and the open pane is in no shard. -/
theorem session_left_behind :
    ¬∀ (dirs : Dirs) (locate : Path → Path) (env : Env) (history : List DaemonStep)
      (s : SingleDaemon) (index : Option (List Document)) (attempt : List MigrationStep)
      (m : Progress), exec step fresh history = some s → Progress.Uninterrupted attempt →
        exec Progress.step (.start (legacyAt dirs locate env s) index) (.boot :: attempt) = some m →
          m.ReturnedOk → s.KeptIn m.disk := by
  intro h
  have hopen : (exec step fresh
      [.act (.newSession ⟨5⟩ ⟨6⟩) [] none,.act (.openPane ⟨5⟩ ⟨6⟩ ⟨10⟩) "bash".toList none]).any
      fun s => (s.registry.getPane ⟨10⟩).isSome := by decide
  obtain ⟨s,hs,hpane⟩ := (Option.any_eq_true _ _).mp hopen
  obtain ⟨⟨sid,se,w⟩,hget⟩ := Option.isSome_iff_exists.mp hpane
  have hrun : (exec Progress.step (.start none none) (.boot :: List.replicate 5 (.op true))).any
      fun m => decide (m.phase.report = some .noLegacy) := by decide
  obtain ⟨m,hm,hreport⟩ := (Option.any_eq_true _ _).mp hrun
  have hnone : legacyAt Dirs.xdg id homeOnly s = none := if_neg (by decide)
  have hkept := h Dirs.xdg id homeOnly _ s none _ m hs (Progress.uninterrupted_replicate 5)
    (hnone.symm ▸ hm) ⟨_,Phase.eq_done (of_decide_eq_true hreport)⟩
  have hno := (Progress.always_no_shards none _).last hm
  exact (keptIn_none_iff hno).mp hkept sid ⟨10⟩ w ⟨se,Registry.getPane_eq_some hget⟩

end SingleDaemon

end Pyre.Migration
