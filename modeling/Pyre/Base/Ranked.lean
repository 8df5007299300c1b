import Mathlib.Data.List.Sort
import Mathlib.Data.List.Nodup
import Mathlib.Data.List.Pairwise
import Mathlib.Data.List.Perm.Basic

/-!
Rows with a label and a rank each, and when the order of their ranks is that of a
given list of labels.
-/

set_option autoImplicit false

namespace Pyre.Base

variable {α ι ρ : Type*} [LE ρ]

/-- No two of the rows rank the same, and by rank they come in the order of the labels. -/
def Ranked (rank : α → ρ) (label : α → ι) (rows : List α) (labels : List ι) : Prop :=
  ∃ l : List α, l.Perm rows ∧ l.Pairwise (fun a b => ¬rank b ≤ rank a) ∧ l.map label = labels

variable {rank : α → ρ} {label : α → ι} {rows : List α} {labels : List ι} {a : α}

namespace Ranked

theorem mem_labels (h : Ranked rank label rows labels) {i : ι} :
    i ∈ labels ↔ ∃ a ∈ rows, label a = i := by
  obtain ⟨l,hperm,-,rfl⟩ := h
  simp only [List.mem_map,hperm.mem_iff]

theorem perm_labels (h : Ranked rank label rows labels) : (rows.map label).Perm labels := by
  obtain ⟨l,hperm,-,rfl⟩ := h
  exact (hperm.map label).symm

theorem filter (h : Ranked rank label rows labels) (p : ι → Bool) :
    Ranked rank label (rows.filter fun a => p (label a)) (labels.filter p) := by
  obtain ⟨l,hperm,hsorted,rfl⟩ := h
  exact ⟨l.filter (fun a => p (label a)),hperm.filter _,hsorted.filter _,List.filter_map.symm⟩

/-- A new row keeps the order with its label last just if it ranks above all others. -/
theorem snoc_iff (h : Ranked rank label rows labels) (hnew : label a ∉ labels) :
    Ranked rank label (rows ++ [a]) (labels ++ [label a]) ↔ ∀ b ∈ rows, ¬rank a ≤ rank b := by
  constructor
  · rintro ⟨l,hperm,hsorted,hlabels⟩ b hb
    obtain ⟨front,back,rfl,-,hback⟩ := List.map_eq_append_iff.mp hlabels
    obtain ⟨c,rfl,hc⟩ := List.map_eq_singleton_iff.mp hback
    have hrow : ∀ b ∈ rows, label b ≠ label a :=
      fun b hb heq => hnew (h.mem_labels.mpr ⟨b,hb,heq⟩)
    have hca : c = a := by
      have hmem : c ∈ rows ++ [a] := hperm.mem_iff.mp (by simp)
      rcases List.mem_append.mp hmem with hmem | hmem
      · exact absurd hc (hrow c hmem)
      · exact List.mem_singleton.mp hmem
    subst hca
    have hfront : b ∈ front :=
      ((List.perm_append_right_iff [c]).mp hperm).mem_iff.mpr hb
    exact (List.pairwise_append.mp hsorted).2.2 b hfront c (List.mem_singleton_self c)
  · intro habove
    obtain ⟨l,hperm,hsorted,rfl⟩ := h
    refine ⟨l ++ [a],hperm.append_right [a],List.pairwise_append.mpr ⟨hsorted,by simp,?_⟩,by simp⟩
    intro b hb c hc
    obtain rfl := List.mem_singleton.mp hc
    exact habove b (hperm.mem_iff.mp hb)

theorem pairwise (h : Ranked rank label rows labels) (hrows : (rows.map label).Nodup) :
    labels.Pairwise fun i j => ∀ a ∈ rows, label a = i → ∀ b ∈ rows, label b = j →
      ¬rank b ≤ rank a := by
  obtain ⟨l,hperm,hsorted,rfl⟩ := h
  rw [List.pairwise_map]
  refine hsorted.imp_of_mem fun {a b} ha hb hab a' ha' haa' b' hb' hbb' => ?_
  obtain rfl := List.inj_on_of_nodup_map hrows ha' (hperm.mem_iff.mp ha) haa'
  obtain rfl := List.inj_on_of_nodup_map hrows hb' (hperm.mem_iff.mp hb) hbb'
  exact hab

/-- The rows of the labels, one for each, that rank as the labels stand. -/
theorem of_pairwise (hrows : (rows.map label).Nodup) (hlabels : labels.Nodup)
    (hmem : ∀ i, i ∈ labels ↔ ∃ a ∈ rows, label a = i)
    (hsorted : labels.Pairwise fun i j => ∀ a ∈ rows, label a = i → ∀ b ∈ rows, label b = j →
      ¬rank b ≤ rank a) : Ranked rank label rows labels := by
  have hperm : labels.Perm (rows.map label) :=
    (List.perm_ext_iff_of_nodup hlabels hrows).mpr fun i => by rw [hmem,List.mem_map]
  obtain ⟨l,rfl,hl⟩ : ∃ l : List α, l.map label = labels ∧ l.Perm rows := by
    have hrel : List.Forall₂ (fun i a => i = label a) (rows.map label) rows := by
      rw [List.forall₂_map_left_iff,List.forall₂_same]
      exact fun _ _ => rfl
    obtain ⟨l,hl,hperm⟩ := List.perm_comp_forall₂ hperm hrel
    rw [← List.forall₂_map_right_iff,List.forall₂_eq_eq_eq] at hl
    exact ⟨l,hl.symm,hperm⟩
  refine ⟨l,hl,?_,rfl⟩
  rw [List.pairwise_map] at hsorted
  refine hsorted.imp_of_mem fun {a b} ha hb hab => ?_
  exact hab a (hl.mem_iff.mp ha) rfl b (hl.mem_iff.mp hb) rfl

end Ranked

/-- Sorted by rank the rows have these labels, and no two ranks are the same. -/
theorem ranked_iff [DecidableLE ρ] (hantisymm : ∀ x y : ρ, x ≤ y → y ≤ x → x = y)
    [Std.Total fun a b : α => rank a ≤ rank b] [IsTrans α fun a b => rank a ≤ rank b] :
    Ranked rank label rows labels ↔ (rows.map rank).Nodup ∧
      (rows.insertionSort fun a b => rank a ≤ rank b).map label = labels := by
  have hsort := List.pairwise_insertionSort (fun a b => rank a ≤ rank b) rows
  have hperm := List.perm_insertionSort (fun a b => rank a ≤ rank b) rows
  constructor
  · rintro ⟨l,hl,hsorted,rfl⟩
    have hle : l.Pairwise fun a b => rank a ≤ rank b := hsorted.imp fun {a b} h =>
      (Std.Total.total (r := fun a b : α => rank a ≤ rank b) a b).resolve_right h
    have hnodup : (l.map rank).Nodup := by
      refine List.pairwise_map.mpr ((hsorted.and hle).imp fun {a b} h heq => h.1 ?_)
      rw [← heq]
      exact heq ▸ h.2
    refine ⟨(hl.map rank).nodup_iff.mp hnodup,?_⟩
    congr 1
    refine (hperm.trans hl.symm).eq_of_pairwise (fun a b ha hb hab hba => ?_) hsort hle
    exact List.inj_on_of_nodup_map hnodup ((hperm.trans hl.symm).mem_iff.mp ha) hb
      (hantisymm _ _ hab hba)
  · rintro ⟨hnodup,rfl⟩
    refine ⟨_,hperm,?_,rfl⟩
    have hne := List.pairwise_map.mp ((hperm.map rank).nodup_iff.mpr hnodup)
    exact (hsort.and hne).imp fun h hle => h.2 (hantisymm _ _ h.1 hle)

end Pyre.Base
