import Pyre.Base.Table

/-!
Things of which there is one at a time for each key, told apart by the number they are made with:
which of them are still there after others have been made, replaced and ended.
-/

set_option autoImplicit false

namespace Pyre.Base

structure Instances (K : Type) [DecidableEq K] where
  made : Nat
  table : Table K Nat
  below : ∀ k n, table.lookup k = some n → n < made

namespace Instances

variable {K : Type} [DecidableEq K] {m m' m'' : Instances K} {k : K} {n : Nat}

def empty : Instances K := ⟨0,∅,fun _ _ h => by cases h⟩

def start (m : Instances K) (k : K) : Instances K where
  made := m.made+1
  table := m.table.insert k m.made
  below := by
    intro k' n hn
    rcases Table.lookup_insert_eq_some.mp hn with ⟨-,rfl⟩ | ⟨-,hn⟩
    · exact Nat.lt_succ_self _
    · exact Nat.lt_succ_of_lt (m.below k' n hn)

def stop (m : Instances K) (k : K) : Instances K where
  made := m.made
  table := m.table.erase k
  below := fun k' n hn => m.below k' n (Table.lookup_erase_eq_some.mp hn).2

/-- What there is for the key stays. -/
def ensure (m : Instances K) (k : K) : Instances K := if k ∈ m.table then m else m.start k

/-- What there is for the key ends, and another begins if it can. -/
def renew (m : Instances K) (k : K) (begins : Bool) : Instances K :=
  if begins then m.start k else m.stop k

def ensureAll (m : Instances K) (ks : List K) : Instances K := ks.foldl ensure m

def renewAll (m : Instances K) (es : List (K × Bool)) : Instances K :=
  es.foldl (fun m e => m.renew e.1 e.2) m

/-- All that there is in `m` is there in `m'`. -/
def Keeps (m m' : Instances K) : Prop :=
  ∀ k n, m.table.lookup k = some n → m'.table.lookup k = some n

/-- What there is in `m'` is of `m`, or was made since. -/
structure Follows (m m' : Instances K) : Prop where
  made_le : m.made ≤ m'.made
  old_or_new : ∀ k n, m'.table.lookup k = some n → m.table.lookup k = some n ∨ m.made ≤ n

theorem Keeps.refl (m : Instances K) : m.Keeps m := fun _ _ h => h

theorem Keeps.trans (h : m.Keeps m') (h' : m'.Keeps m'') : m.Keeps m'' :=
  fun k n hn => h' k n (h k n hn)

theorem Follows.refl (m : Instances K) : m.Follows m := ⟨le_rfl,fun _ _ h => .inl h⟩

theorem Follows.trans (h : m.Follows m') (h' : m'.Follows m'') : m.Follows m'' := by
  refine ⟨h.made_le.trans h'.made_le,fun k n hn => ?_⟩
  rcases h'.old_or_new k n hn with hold | hnew
  · exact h.old_or_new k n hold
  · exact .inr (h.made_le.trans hnew)

theorem follows_start (m : Instances K) (k : K) : m.Follows (m.start k) := by
  refine ⟨Nat.le_succ _,fun k' n hn => ?_⟩
  rcases Table.lookup_insert_eq_some.mp hn with ⟨-,rfl⟩ | ⟨-,hn⟩
  · exact .inr le_rfl
  · exact .inl hn

theorem follows_stop (m : Instances K) (k : K) : m.Follows (m.stop k) :=
  ⟨le_rfl,fun _ _ hn => .inl (Table.lookup_erase_eq_some.mp hn).2⟩

theorem follows_renew (m : Instances K) (k : K) (begins : Bool) : m.Follows (m.renew k begins) := by
  unfold renew
  split
  · exact follows_start m k
  · exact follows_stop m k

theorem follows_ensure (m : Instances K) (k : K) : m.Follows (m.ensure k) := by
  unfold ensure
  split
  · exact .refl m
  · exact follows_start m k

theorem keeps_ensure (m : Instances K) (k : K) : m.Keeps (m.ensure k) := by
  unfold ensure
  split
  · exact .refl m
  · rename_i hk
    intro k' n hn
    refine (AList.lookup_insert_ne ?_).trans hn
    rintro rfl
    exact Table.lookup_of_notMem hk hn

theorem follows_ensureAll (m : Instances K) (ks : List K) : m.Follows (m.ensureAll ks) := by
  induction ks generalizing m with
  | nil => exact .refl m
  | cons k ks ih => exact (follows_ensure m k).trans (ih _)

theorem keeps_ensureAll (m : Instances K) (ks : List K) : m.Keeps (m.ensureAll ks) := by
  induction ks generalizing m with
  | nil => exact .refl m
  | cons k ks ih => exact (keeps_ensure m k).trans (ih _)

theorem follows_renewAll (m : Instances K) (es : List (K × Bool)) : m.Follows (m.renewAll es) := by
  induction es generalizing m with
  | nil => exact .refl m
  | cons e es ih => exact (follows_renew m e.1 e.2).trans (ih _)

/-- What there is of a key after it was renewed is new. -/
theorem fresh_renew {begins : Bool} (h : (m.renew k begins).table.lookup k = some n) :
    m.made ≤ n := by
  unfold renew at h
  split at h
  · rcases Table.lookup_insert_eq_some.mp h with ⟨-,rfl⟩ | ⟨hne,-⟩
    · exact le_rfl
    · exact absurd rfl hne
  · exact absurd rfl (Table.lookup_erase_eq_some.mp h).1

theorem lookup_renew_ne {begins : Bool} {k' : K} (h : k' ≠ k) :
    (m.renew k begins).table.lookup k' = m.table.lookup k' := by
  unfold renew
  split
  · exact AList.lookup_insert_ne h
  · exact AList.lookup_erase_ne h

theorem lookup_renewAll_of_notMem {es : List (K × Bool)} (h : k ∉ es.map (·.1)) :
    (m.renewAll es).table.lookup k = m.table.lookup k := by
  induction es generalizing m with
  | nil => rfl
  | cons e es ih =>
    rw [List.map_cons,List.mem_cons,not_or] at h
    exact (ih h.2).trans (lookup_renew_ne h.1)

theorem fresh_renewAll {es : List (K × Bool)} (hk : k ∈ es.map (·.1))
    (h : (m.renewAll es).table.lookup k = some n) : m.made ≤ n := by
  induction es generalizing m with
  | nil => cases hk
  | cons e es ih =>
    have hle := (follows_renew m e.1 e.2).made_le
    by_cases hlater : k ∈ es.map (·.1)
    · exact hle.trans (ih hlater h)
    · obtain rfl : k = e.1 := (List.mem_cons.mp hk).resolve_right hlater
      exact fresh_renew ((lookup_renewAll_of_notMem hlater).symm.trans h)

/-- All is still there just where there was nothing of the keys that were renewed, whatever is
made later. -/
theorem keeps_renewAll_iff {es : List (K × Bool)} (hkeeps : (m.renewAll es).Keeps m')
    (hfollows : (m.renewAll es).Follows m') :
    m.Keeps m' ↔ ∀ k ∈ es.map (·.1), k ∉ m.table := by
  constructor
  · intro h k hk hmem
    obtain ⟨n,hn⟩ := Option.isSome_iff_exists.mp (AList.lookup_isSome.mpr hmem)
    have hbelow := m.below k n hn
    rcases hfollows.old_or_new k n (h k n hn) with hold | hnew
    · exact absurd (fresh_renewAll hk hold) (Nat.not_le.mpr hbelow)
    · exact absurd ((follows_renewAll m es).made_le.trans hnew) (Nat.not_le.mpr hbelow)
  · intro h k n hn
    refine hkeeps k n ((lookup_renewAll_of_notMem fun hk => ?_).trans hn)
    exact Table.lookup_of_notMem (h k hk) hn

theorem renewAll_append (m : Instances K) (es fs : List (K × Bool)) :
    m.renewAll (es ++ fs) = (m.renewAll es).renewAll fs := List.foldl_append

/-- What is ended for good. -/
theorem mem_renewAll_false_iff {ks : List K} :
    k ∈ (m.renewAll (ks.map fun k => (k,false))).table ↔ k ∉ ks ∧ k ∈ m.table := by
  induction ks generalizing m with
  | nil => simp [renewAll]
  | cons k' ks ih =>
    have hstop : k ∈ (m.renew k' false).table ↔ k ≠ k' ∧ k ∈ m.table := by
      simp [renew,stop]
    change k ∈ ((m.renew k' false).renewAll (ks.map fun k => (k,false))).table ↔ _
    rw [ih,hstop,List.mem_cons,not_or]
    tauto

end Instances
end Pyre.Base
