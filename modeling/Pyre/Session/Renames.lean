import Pyre.Base.Run
import Pyre.Base.Text

/-!
The name of a session, in memory and in its row. Opening a pane reads the name before it starts
the shell and writes it back with the row after that; a rename writes memory first, then the row.
-/

set_option autoImplicit false

namespace Pyre.Session
open Base

/-- A call in flight, by what it has still to do. -/
inductive NameCall where
  /-- `open_pane` has read the name; the shell is to be started. -/
  | spawning (sessionName : List Char)
  /-- `spawn_pty` has its shell; the row is to be written. -/
  | storing (sessionName : List Char)
  /-- `rename_session` has written memory; the row is to be written. -/
  | renaming (name : List Char)
  deriving DecidableEq

/-- The name that a call's write of the row carries, once that is what it does next. -/
def NameCall.carried : NameCall → Option (List Char)
  | .spawning _ => none
  | .storing sessionName => some sessionName
  | .renaming name => some name

/-- What one session's name is kept in, and the calls that have not returned. -/
structure NameTables where
  name : List Char
  row : Option (List Char)
  calls : List NameCall

inductive NameStep where
  /-- `open_pane` reads `session.name`. -/
  | openPane
  /-- The shell of a call starts, or fails to, which ends the call. -/
  | spawnShell (call : Nat) (ok : Bool)
  /-- `rename_session` writes `session.name`. -/
  | renameSession (name : List Char)
  /-- `Store::upsert_session` for a call, which has no effect where the store fails. -/
  | upsertSession (call : Nat) (ok : Bool)

namespace NameTables

/-- After `new_session`, whose row is written. -/
def created (resolvedName : List Char) : NameTables := ⟨resolvedName,some resolvedName,[]⟩

def step (s : NameTables) : NameStep → Option NameTables
  | .openPane => some { s with calls := s.calls ++ [.spawning s.name] }
  | .spawnShell i ok =>
    match s.calls[i]? with
    | some (.spawning sessionName) =>
      some { s with calls := if ok then s.calls.set i (.storing sessionName)
                             else s.calls.eraseIdx i }
    | _ => none
  | .renameSession name => some { s with name := name, calls := s.calls ++ [.renaming name] }
  | .upsertSession i ok =>
    (s.calls[i]?.bind NameCall.carried).map fun name =>
      { s with row := if ok then some name else s.row, calls := s.calls.eraseIdx i }

/-- All calls have returned. -/
def Quiet (s : NameTables) : Prop := s.calls = []

/-- The row has the name that is in memory. -/
def Persisted (s : NameTables) : Prop := s.row = some s.name

/-- The row has the name, or a rename that carries it has still to write the row. -/
def Owed (s : NameTables) : Prop := s.Persisted ∨ .renaming s.name ∈ s.calls

/-- A write of the row leaves the name there, or another rename that carries the name is still
to write. Every other step will do. -/
def Current (s : NameTables) : NameStep → Prop
  | .upsertSession i ok =>
    ∀ name, s.calls[i]?.bind NameCall.carried = some name →
      (if ok then name = s.name else s.Persisted) ∨ .renaming s.name ∈ s.calls.eraseIdx i
  | _ => True

/-- The name that the last rename of a run gave. -/
def lastRename (name : List Char) : List NameStep → List Char
  | [] => name
  | .renameSession name' :: as => lastRename name' as
  | _ :: as => lastRename name as

variable {s t : NameTables} {a : NameStep} {as : List NameStep} {i : Nat} {ok : Bool}
  {name : List Char}

theorem spawnShell_cases (h : s.step (.spawnShell i ok) = some t) :
    ∃ sessionName, s.calls[i]? = some (.spawning sessionName) ∧
      t = { s with calls := if ok then s.calls.set i (.storing sessionName)
                            else s.calls.eraseIdx i } := by
  simp only [step] at h
  split at h
  case h_1 sessionName hi => exact ⟨sessionName,hi,(Option.some.inj h).symm⟩
  case h_2 => cases h

/-- A shell's start or failure leaves the renames in flight as they are. -/
theorem renaming_mem_spawnShell (h : s.step (.spawnShell i ok) = some t) :
    NameCall.renaming name ∈ t.calls ↔ NameCall.renaming name ∈ s.calls := by
  obtain ⟨sessionName,hi,rfl⟩ := spawnShell_cases h
  obtain ⟨hlt,hget⟩ := List.getElem?_eq_some_iff.mp hi
  have hcalls : s.calls = s.calls.take i ++ .spawning sessionName :: s.calls.drop (i+1) := by
    rw [← hget,← List.drop_eq_getElem_cons hlt,List.take_append_drop]
  have hmem : NameCall.renaming name ∈ s.calls ↔
      NameCall.renaming name ∈ s.calls.take i ∨ NameCall.renaming name ∈ s.calls.drop (i+1) := by
    conv_lhs => rw [hcalls]
    simp
  cases ok with
  | true => simp [hmem,List.set_eq_take_append_cons_drop,hlt]
  | false => simp [hmem,List.eraseIdx_eq_take_drop_succ]

/-- The step lemma: which steps leave the name with the row or owed to it. -/
theorem current_iff (s : NameTables) (a : NameStep) (h : s.Owed) :
    s.Current a ↔ ∀ t, s.step a = some t → t.Owed := by
  cases a with
  | openPane =>
    refine iff_of_true trivial fun t ht => ?_
    obtain rfl := Option.some.inj ht
    exact h.imp_right fun hmem => List.mem_append_left _ hmem
  | spawnShell i ok =>
    refine iff_of_true trivial fun t ht => ?_
    have hcalls : NameCall.renaming s.name ∈ t.calls ↔ NameCall.renaming s.name ∈ s.calls :=
      renaming_mem_spawnShell ht
    obtain ⟨sessionName,hi,rfl⟩ := spawnShell_cases ht
    exact h.imp_right hcalls.mpr
  | renameSession name =>
    refine iff_of_true trivial fun t ht => ?_
    obtain rfl := Option.some.inj ht
    exact Or.inr (by simp)
  | upsertSession i ok =>
    simp only [Current,step]
    cases s.calls[i]?.bind NameCall.carried with
    | none => simp
    | some name =>
      cases ok <;> simp [Owed,Persisted]

theorem name_step (h : s.step a = some t) : t.name = lastRename s.name [a] := by
  cases a with
  | openPane =>
    obtain rfl := Option.some.inj h
    rfl
  | spawnShell i ok =>
    obtain ⟨sessionName,hi,rfl⟩ := spawnShell_cases h
    rfl
  | renameSession name =>
    obtain rfl := Option.some.inj h
    rfl
  | upsertSession i ok =>
    obtain ⟨name,hi,rfl⟩ := Option.map_eq_some_iff.mp h
    rfl

theorem name_exec (h : exec step s as = some t) : t.name = lastRename s.name as := by
  induction as generalizing s with
  | nil =>
    obtain rfl := Option.some.inj h
    rfl
  | cons a as ih =>
    rw [exec_cons,Option.bind_eq_some_iff] at h
    obtain ⟨u,hu,ht⟩ := h
    rw [ih ht,name_step hu]
    cases a <;> rfl

theorem Owed.persisted (h : s.Owed) (hq : s.Quiet) : s.Persisted := by
  refine h.resolve_right ?_
  rw [show s.calls = [] from hq]
  exact List.not_mem_nil

/-- The name in memory is with the row or owed to it all along a run if and only if each write of
the row is current, and then, once all calls have returned, the row has the name that the last
rename gave. -/
theorem rename_kept_iff (resolvedName : List Char) (as : List NameStep) :
    (Along step Current (created resolvedName) as ↔
        Always step Owed (created resolvedName) as) ∧
      (Along step Current (created resolvedName) as →
        ∀ pre, pre <+: as → ∀ t, exec step (created resolvedName) pre = some t → t.Quiet →
          t.row = some t.name ∧ t.name = lastRename resolvedName pre) := by
  have hcreated : (created resolvedName).Owed := Or.inl rfl
  have hiff : Along step Current (created resolvedName) as ↔
      Always step Owed (created resolvedName) as :=
    along_iff_always (I := fun _ => True) (fun _ _ _ _ _ => trivial)
      (fun s a _ h => current_iff s a h) trivial hcreated
  refine ⟨hiff,fun halong pre hpre t ht hq => ⟨?_,name_exec ht⟩⟩
  exact (hiff.mp halong pre hpre t ht).persisted hq

/-- Two panes opened around a rename: the second wrote the old name back. -/
theorem rename_undone : ¬∀ resolvedName as t,
    exec step (created resolvedName) as = some t → t.Quiet →
      t.row = some t.name ∧ t.name = lastRename resolvedName as := by
  intro hall
  have hlost := hall ['a'] [.openPane,.spawnShell 0 true,.renameSession ['b'],
    .upsertSession 1 true,.upsertSession 0 true] ⟨['b'],some ['a'],[]⟩ rfl rfl
  exact absurd hlost.1 (by decide)

end NameTables

end Pyre.Session
