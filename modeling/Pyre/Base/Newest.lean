import Mathlib.Data.List.Sort
import Mathlib.Data.List.Count
import Mathlib.Data.List.Nodup

/-!
The first so many rows of a sorted list, and what is left of them where only the rows of one
kind are kept: as many of that kind as there could be, or fewer.
-/

set_option autoImplicit false

namespace Pyre.Base

variable {α : Type*}

/-- The first `k` of the rows, or all where there are fewer: none that is left out comes
before one that is chosen. -/
structure Leading (before : α → α → Prop) (rows : List α) (k : Nat) (chosen : List α) : Prop where
  subset : chosen ⊆ rows
  nodup : chosen.Nodup
  length : chosen.length = min k rows.length
  first : ∀ a ∈ chosen, ∀ b ∈ rows, b ∉ chosen → before a b

variable {before : α → α → Prop} {rows l : List α} {k : Nat} {p : α → Bool}

/-- What the first `k` have of a kind is all that there could be, just where each row of the
kind that fewer than `k` of the kind precede is preceded by fewer than `k` rows. -/
theorem length_filter_take_iff (l : List α) (k : Nat) (p : α → Bool) :
    ((l.take k).filter p).length = min k (l.filter p).length ↔
      ∀ front a back, l = front ++ a :: back → p a → (front.filter p).length < k →
        front.length < k := by
  constructor
  · intro hall front a back heq ha hfew
    by_contra hmany
    have hprefix : l.take k <+: front := by
      rw [heq,List.take_append_of_le_length (Nat.not_lt.mp hmany)]
      exact List.take_prefix k front
    have hle := ( hprefix.sublist.filter p).length_le
    have hlt : (front.filter p).length < (l.filter p).length := by
      rw [heq]
      simp [ha]
    omega
  · intro hnear
    have hle := ((List.take_sublist k l).filter p).length_le
    have hcap := (List.length_filter_le p (l.take k)).trans (List.length_take_le k l)
    by_contra hfewer
    have hsplit := congrArg (fun m : List α => (m.filter p).length) (List.take_append_drop k l)
    simp only [List.filter_append,List.length_append] at hsplit
    -- the first row of the kind among those cut off
    cases hrest : (l.drop k).filter p with
    | nil =>
      rw [hrest,List.length_nil] at hsplit
      omega
    | cons a more =>
      obtain ⟨skipped,back,hdrop,hskipped,ha,-⟩ := List.filter_eq_cons_iff.mp hrest
      have hlong : k < l.length := by
        have hlen := congrArg List.length hdrop
        simp only [List.length_drop,List.length_append,List.length_cons] at hlen
        omega
      have heq : l = (l.take k ++ skipped) ++ a :: back := by
        rw [List.append_assoc,← hdrop,List.take_append_drop]
      have hnone : skipped.filter p = [] := by simpa using hskipped
      have hnearer := hnear _ _ _ heq ha (by
        rw [List.filter_append,hnone,List.append_nil]
        omega)
      rw [List.length_append,List.length_take] at hnearer
      omega

/-- The rows of a kind among the first `k` of all are the first `k` of the kind, just where
there are enough of them. -/
theorem leading_filter_take_iff (hperm : l.Perm rows) (hsorted : l.Pairwise before)
    (hnodup : l.Nodup) :
    Leading before (rows.filter p) k ((l.take k).filter p) ↔
      ((l.take k).filter p).length = min k (l.filter p).length := by
  have hkind : (l.filter p).Perm (rows.filter p) := hperm.filter p
  have hsub : ((l.take k).filter p).Sublist (l.filter p) := (List.take_sublist k l).filter p
  constructor
  · intro h
    rw [h.length,hkind.length_eq]
  · intro hlen
    refine ⟨fun a ha => hkind.mem_iff.mp (hsub.subset ha),(hnodup.filter p).sublist hsub,?_,?_⟩
    · rw [hlen,hkind.length_eq]
    · intro a ha b hb hout
      obtain ⟨hb,hpb⟩ := List.mem_filter.mp (hkind.mem_iff.mpr hb)
      have hcut : b ∈ l.drop k := by
        rw [← List.take_append_drop k l] at hb
        rcases List.mem_append.mp hb with hb | hb
        · exact absurd (List.mem_filter.mpr ⟨hb,hpb⟩) hout
        · exact hb
      rw [← List.take_append_drop k l] at hsorted
      exact (List.pairwise_append.mp hsorted).2.2 a (List.mem_filter.mp ha).1 b hcut

end Pyre.Base
