import Mathlib.Data.List.Infix

/-!
Choosing an element of a list by a test: the only one that passes, or the first. The first is the
only one just where no two pass.
-/

set_option autoImplicit false

namespace Pyre.Base

variable {α β : Type*} {p : α → Bool} {l : List α} {x : α}

/-- The element passes the test, and no other of the list does. -/
def Sole (p : α → Bool) (l : List α) (x : α) : Prop := x ∈ l ∧ p x ∧ ∀ y ∈ l, p y → y = x

/-- No two elements of the list pass the test. -/
def AtMostOne (p : α → Bool) (l : List α) : Prop := ∀ x ∈ l, p x → ∀ y ∈ l, p y → y = x

/-- The element passes the test, and none that is listed before it does. -/
def Foremost (p : α → Bool) (l : List α) (x : α) : Prop :=
  p x ∧ ∃ front back, l = front ++ x :: back ∧ ∀ y ∈ front, ¬p y

theorem Sole.unique {y : α} (hx : Sole p l x) (hy : Sole p l y) : x = y :=
  hy.2.2 x hx.1 hx.2.1

theorem filter_eq_singleton_iff (h : l.Nodup) : l.filter p = [x] ↔ Sole p l x := by
  rw [← List.perm_singleton,List.perm_ext_iff_of_nodup (h.filter p) (by simp)]
  simp only [List.mem_filter,List.mem_singleton]
  constructor
  · intro heq
    have hx := (heq x).mpr rfl
    exact ⟨hx.1,hx.2,fun y hy hp => (heq y).mp ⟨hy,hp⟩⟩
  · intro hx y
    constructor
    · intro hy
      exact hx.2.2 y hy.1 hy.2
    · intro hy
      exact hy ▸ ⟨hx.1,hx.2.1⟩

theorem find?_eq_some_iff_foremost : l.find? p = some x ↔ Foremost p l x := by
  rw [List.find?_eq_some_iff_append]
  simp [Foremost]

/-- The first that passes is the only one, whichever it is, if and only if no two pass. -/
theorem find?_sole_iff : (∀ x, l.find? p = some x → Sole p l x) ↔ AtMostOne p l := by
  constructor
  · intro h x hx hpx y hy hpy
    have hsome : (l.find? p).isSome := List.find?_isSome.mpr ⟨x,hx,hpx⟩
    obtain ⟨z,hz⟩ := Option.isSome_iff_exists.mp hsome
    have hsole := h z hz
    exact (hsole.2.2 y hy hpy).trans (hsole.2.2 x hx hpx).symm
  · intro h x hx
    have hmem := List.mem_of_find?_eq_some hx
    have hpass := List.find?_some hx
    exact ⟨hmem,hpass,fun y hy hp => h x hmem hpass y hy hp⟩

theorem AtMostOne.of_mem_iff {l' : List α} (h : ∀ x, x ∈ l ↔ x ∈ l') :
    AtMostOne p l ↔ AtMostOne p l' := by
  simp only [AtMostOne,h]

theorem Sole.of_mem_iff {l' : List α} (h : ∀ x, x ∈ l ↔ x ∈ l') : Sole p l x ↔ Sole p l' x := by
  simp only [Sole,h]

/-- Texts of enough letters share their first letters just where those are the same. -/
theorem take_isPrefixOf_iff [BEq α] [LawfulBEq α] {s t : List α} {k : Nat}
    (hs : k ≤ s.length) : (s.take k).isPrefixOf t ↔ s.take k = t.take k := by
  rw [List.isPrefixOf_iff_prefix,List.prefix_iff_eq_take,List.length_take,Nat.min_eq_left hs]

end Pyre.Base
