import Mathlib.Data.List.AList
import Mathlib.Data.Set.Finite.Lattice
import Mathlib.Data.Fintype.EquivFin

/-!
Finite tables with one value per key, on Mathlib's association lists, which carry
the uniqueness of their keys. Added here are `retain`, as hash maps have it, and
a supply of unused keys.
-/

set_option autoImplicit false

namespace Pyre.Base

abbrev Table (κ ν : Type) := AList fun _ : κ => ν

namespace Table

variable {κ ν : Type}

/-- Keep the entries that satisfy the test, as `HashMap::retain` does. -/
def retain (p : κ → ν → Bool) (t : Table κ ν) : Table κ ν :=
  ⟨t.entries.filter fun e => p e.1 e.2, t.nodupKeys.sublist List.filter_sublist⟩

/-- Replace every value, as an `UPDATE` without a key does. -/
def mapValues (f : ν → ν) (t : Table κ ν) : Table κ ν :=
  ⟨t.entries.map fun e => ⟨e.1,f e.2⟩, by
    have hkeys : (t.entries.map fun e => (⟨e.1,f e.2⟩ : Sigma fun _ : κ => ν)).keys =
        t.entries.keys := by simp [List.keys]
    rw [List.NodupKeys,hkeys]
    exact t.nodupKeys⟩

def values (t : Table κ ν) : List ν := t.entries.map Sigma.snd

variable [DecidableEq κ]

theorem lookup_eq_some {t : Table κ ν} {k : κ} {v : ν} :
    t.lookup k = some v ↔ (⟨k,v⟩ : Sigma fun _ : κ => ν) ∈ t.entries := AList.mem_lookup_iff

theorem lookup_retain_eq_some {p : κ → ν → Bool} {t : Table κ ν} {k : κ} {v : ν} :
    (t.retain p).lookup k = some v ↔ t.lookup k = some v ∧ p k v = true := by
  simp only [lookup_eq_some,retain,List.mem_filter]

theorem retain_eq_self {p : κ → ν → Bool} {t : Table κ ν}
    (h : ∀ k v, t.lookup k = some v → p k v = true) : t.retain p = t :=
  AList.ext (List.filter_eq_self.mpr fun e he => h e.1 e.2 (lookup_eq_some.mpr he))

/-- To write the value that is there changes no lookup. -/
theorem lookup_insert_same {t : Table κ ν} {k : κ} {v : ν} (h : t.lookup k = some v) (k' : κ) :
    (t.insert k v).lookup k' = t.lookup k' := by
  by_cases hk : k' = k
  · rw [hk,AList.lookup_insert,h]
  · exact AList.lookup_insert_ne hk

theorem lookup_insert_eq_some {t : Table κ ν} {k k' : κ} {v v' : ν} :
    (t.insert k' v').lookup k = some v ↔
      (k = k' ∧ v = v') ∨ (k ≠ k' ∧ t.lookup k = some v) := by
  by_cases h : k = k'
  · subst h; simp [AList.lookup_insert,eq_comm]
  · simp [AList.lookup_insert_ne h,h]

theorem lookup_erase_eq_some {t : Table κ ν} {k k' : κ} {v : ν} :
    (t.erase k').lookup k = some v ↔ k ≠ k' ∧ t.lookup k = some v := by
  by_cases h : k = k'
  · subst h; simp
  · simp [AList.lookup_erase_ne h,h]

theorem lookup_of_notMem {t : Table κ ν} {k : κ} {v : ν} (h : k ∉ t) : t.lookup k ≠ some v :=
  fun hv => h (AList.lookup_isSome.mp (Option.isSome_of_eq_some hv))

theorem lookup_mapValues (f : ν → ν) (t : Table κ ν) (k : κ) :
    (t.mapValues f).lookup k = (t.lookup k).map f := by
  have hlist : ∀ l : List (Sigma fun _ : κ => ν),
      List.dlookup k (l.map fun e => (⟨e.1,f e.2⟩ : Sigma fun _ : κ => ν)) =
        (List.dlookup k l).map f := by
    intro l
    induction l with
    | nil => rfl
    | cons e l ih =>
      obtain ⟨k',v⟩ := e
      by_cases h : k = k'
      · subst h; simp
      · rw [List.map_cons,List.dlookup_cons_ne _ _ h,List.dlookup_cons_ne _ _ h,ih]
  exact hlist t.entries

/-- A finite list leaves infinitely many elements of an infinite type. -/
theorem exists_notMem {α : Type*} [Infinite α] (avoid : List α) (n : Nat) :
    ∃ ks : List α, ks.length = n ∧ ks.Nodup ∧ ∀ k ∈ ks, k ∉ avoid := by
  obtain ⟨f,hf,hn⟩ := avoid.finite_toSet.infinite_compl.exists_subset_card_eq n
  refine ⟨f.toList, by simpa using hn, f.nodup_toList, fun k hk => ?_⟩
  exact hf (by simpa using hk)

theorem exists_unused [Infinite κ] (t : Table κ ν) (n : Nat) :
    ∃ ks : List κ, ks.length = n ∧ ks.Nodup ∧ ∀ k ∈ ks, t.lookup k = none := by
  obtain ⟨ks,hlen,hnodup,hnew⟩ := exists_notMem t.keys n
  refine ⟨ks,hlen,hnodup,fun k hk => ?_⟩
  rw [AList.lookup_eq_none,AList.mem_keys]
  exact hnew k hk

end Table

end Pyre.Base
