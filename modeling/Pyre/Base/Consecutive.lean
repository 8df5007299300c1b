import Mathlib.Data.List.Range
import Mathlib.Data.List.Basic

/-!
Lists whose elements are numbered one after the other. The number of an element
tells its place, so a bound on the numbers cuts the list at one point. The last
lemmas are about the stretches of any list.
-/

set_option autoImplicit false

namespace Pyre.Base

variable {α : Type*} (key : α → Nat)

/-- The elements are numbered n, n+1, and so on. -/
def Consecutive : Nat → List α → Prop
  | _, [] => True
  | n, a :: l => key a = n ∧ Consecutive (n+1) l

namespace Consecutive

variable {key} {n : Nat} {l m : List α} {a : α}

theorem append_iff : Consecutive key n (l ++ m) ↔
    Consecutive key n l ∧ Consecutive key (n + l.length) m := by
  induction l generalizing n with
  | nil => simp [Consecutive]
  | cons a l ih =>
    have hlen : n + 1 + l.length = n + (a :: l).length := by rw [List.length_cons]; omega
    simp only [List.cons_append,Consecutive,ih,and_assoc,hlen]

theorem snoc (h : Consecutive key n l) (ha : key a = n + l.length) :
    Consecutive key n (l ++ [a]) := append_iff.mpr ⟨h,ha,trivial⟩

theorem take (h : Consecutive key n l) (k : Nat) : Consecutive key n (l.take k) := by
  rw [← List.take_append_drop k l,append_iff] at h
  exact h.1

theorem drop (h : Consecutive key n l) (k : Nat) (hk : k ≤ l.length) :
    Consecutive key (n+k) (l.drop k) := by
  have hlen : (l.take k).length = k := by rw [List.length_take]; omega
  have hsplit : Consecutive key n (l.take k ++ l.drop k) := by rwa [List.take_append_drop]
  have hdrop := (append_iff.mp hsplit).2
  rwa [hlen] at hdrop

theorem lower (h : Consecutive key n l) : ∀ b ∈ l, n ≤ key b := by
  induction l generalizing n with
  | nil => simp
  | cons a l ih =>
    intro b hb
    rcases List.mem_cons.mp hb with rfl | hb
    · exact h.1.ge
    · have hrest := ih h.2 b hb
      omega

theorem key_getElem? (h : Consecutive key n l) {i : Nat} (ha : l[i]? = some a) :
    key a = n + i := by
  induction l generalizing n i with
  | nil => simp at ha
  | cons b l ih =>
    cases i with
    | zero =>
      obtain rfl : b = a := by simpa using ha
      exact h.1
    | succ i =>
      have hrest := ih h.2 (by simpa using ha)
      omega

/-- The element with the smallest number is the first. -/
theorem eq_head (h : Consecutive key n (a :: l)) {b : α} (hb : b ∈ a :: l)
    (hle : key b ≤ key a) : b = a := by
  rcases List.mem_cons.mp hb with rfl | hb
  · rfl
  · have hlow := h.2.lower b hb
    have ha := h.1
    omega

/-- The element whose turn it is, taken off the front. -/
theorem cons_erase [DecidableEq α] (h : Consecutive key n l) (ha : a ∈ l)
    (hle : ∀ b ∈ l, key a ≤ key b) : a :: l.erase a = l := by
  cases l with
  | nil => simp at ha
  | cons b l =>
    obtain rfl : a = b := h.eq_head ha (hle b List.mem_cons_self)
    rw [List.erase_cons_head]

/-- The elements numbered above a bound are those from one place on. -/
theorem filter_lt (h : Consecutive key n l) (c : Nat) :
    l.filter (fun b => c < key b) = l.drop (c + 1 - n) := by
  induction l generalizing n with
  | nil => simp
  | cons a l ih =>
    have ha := h.1
    have hrest := ih h.2
    by_cases hc : c < key a
    · have hz : c + 1 - n = 0 := by omega
      have hz' : c + 1 - (n+1) = 0 := by omega
      rw [hz'] at hrest
      simp [hc,hz,hrest]
    · have hs : c + 1 - n = (c + 1 - (n+1)) + 1 := by omega
      simp [hc,hs,hrest]

theorem pairwise (h : Consecutive key n l) : (l.map key).Pairwise (· < ·) := by
  induction l generalizing n with
  | nil => simp
  | cons a l ih =>
    have hlow := h.2.lower
    have ha := h.1
    simp only [List.map_cons,List.pairwise_cons,List.mem_map]
    refine ⟨?_,ih h.2⟩
    rintro _ ⟨b,hb,rfl⟩
    have hb' := hlow b hb
    omega

end Consecutive

/-- Two stretches of a list that meet make one. -/
theorem take_drop_append_take_drop {l : List α} {i j k : Nat} (hij : i ≤ j) (hjk : j ≤ k) :
    (l.take j).drop i ++ (l.take k).drop j = (l.take k).drop i := by
  have hsplit : l.take k = l.take j ++ (l.take k).drop j := by
    have htake : (l.take k).take j = l.take j := by rw [List.take_take,Nat.min_eq_left hjk]
    rw [← htake,List.take_append_drop]
  by_cases hlen : j ≤ l.length
  · have hi : i ≤ (l.take j).length := by rw [List.length_take]; omega
    conv => rhs; rw [hsplit,List.drop_append_of_le_length hi]
  · have hj : (l.take k).drop j = [] := by
      rw [List.drop_eq_nil_iff,List.length_take]
      omega
    rw [hj,List.append_nil,List.take_of_length_le (by omega),List.take_of_length_le (by omega)]

/-- A part of a list that is in the order of the list and before all of the rest is
its front. -/
theorem prefix_of_perm {r : α → α → Prop} (hr : ∀ a b, r a b → ¬r b a) {l front rest : List α}
    (hperm : l.Perm (front ++ rest)) (hl : l.Pairwise r) (hfront : front.Pairwise r)
    (hrest : ∀ a ∈ front, ∀ b ∈ rest, r a b) : front <+: l := by
  induction front generalizing l with
  | nil => exact List.nil_prefix
  | cons a front ih =>
    cases l with
    | nil => exact absurd hperm.length_eq (by simp)
    | cons b l =>
      have hab : a = b := by
        by_contra hne
        have hb : b ∈ front ++ rest := by
          have hmem := hperm.mem_iff.mp (List.mem_cons_self (a := b) (l := l))
          exact (List.mem_cons.mp hmem).resolve_left (Ne.symm hne)
        have ha : a ∈ l := by
          have hmem := hperm.mem_iff.mpr (List.mem_cons_self (a := a) (l := front ++ rest))
          exact (List.mem_cons.mp hmem).resolve_left hne
        have hba : r b a := (List.pairwise_cons.mp hl).1 a ha
        rcases List.mem_append.mp hb with hb | hb
        · exact hr a b ((List.pairwise_cons.mp hfront).1 b hb) hba
        · exact hr a b (hrest a List.mem_cons_self b hb) hba
      subst hab
      have hfront' := (List.pairwise_cons.mp hfront).2
      have hrest' : ∀ c ∈ front, ∀ b ∈ rest, r c b :=
        fun c hc => hrest c (List.mem_cons_of_mem _ hc)
      exact List.cons_prefix_cons.mpr
        ⟨rfl,ih hperm.cons_inv (List.pairwise_cons.mp hl).2 hfront' hrest'⟩

end Pyre.Base
