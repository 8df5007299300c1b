import Mathlib.Algebra.Order.BigOperators.Group.List
import Mathlib.Algebra.Order.Group.Nat
import Pyre.Layout.Tiling

/-!
What `close` leaves of a tree whose splits have any number of children: its leaves, its splits
and their weights. A split collapses when one child is left, and no other weight is changed.
-/

set_option autoImplicit false

namespace Pyre
namespace LayoutNode

/-- Every split of the tree has such children. -/
def EachSplit (P : List (LayoutNode × UInt16) → Prop) (tree : LayoutNode) : Prop :=
  ∀ orient children, Subtree (.split orient children) tree → P children

def totalWeight (children : List (LayoutNode × UInt16)) : Nat :=
  (children.map fun c => c.2.toNat).sum

def isLeaf (pane : PaneId) : LayoutNode → Bool
  | .leaf p => p = pane
  | .split _ _ => false

/-- No split is without choice. -/
def Branching : LayoutNode → Prop := EachSplit fun children => 2 ≤ children.length

/-- The documented invariant: the weights of siblings sum to 100. -/
def Balanced : LayoutNode → Prop := EachSplit fun children => totalWeight children = 100

/-- Splits of any arity as the module allows them. -/
structure Weighted (children : List (LayoutNode × UInt16)) : Prop where
  two : 2 ≤ children.length
  bounds : ∀ c ∈ children, 5 ≤ c.2.toNat ∧ c.2.toNat ≤ 95
  total : totalWeight children = 100

/-- A split that has the pane among its children has just one child besides. -/
def Pairs (pane : PaneId) : LayoutNode → Prop := EachSplit fun children =>
  (∃ c ∈ children, c.1 = .leaf pane) → (children.filter fun c => !c.1.isLeaf pane).length = 1

variable {P Q : List (LayoutNode × UInt16) → Prop} {tree tree' : LayoutNode} {pane : PaneId}
  {orient : Orient} {children : List (LayoutNode × UInt16)}

/-- A property of all children of a split is one of the split. -/
@[elab_as_elim]
theorem induction {motive : LayoutNode → Prop} (leaf : ∀ pane, motive (.leaf pane))
    (split : ∀ orient children, (∀ c ∈ children, motive c.1) → motive (.split orient children))
    (tree : LayoutNode) : motive tree := by
  cases tree with
  | leaf pane => exact leaf pane
  | split orient children =>
    exact split orient children fun c hc => induction leaf split c.1
termination_by sizeOf tree
decreasing_by
  simp_wf
  have hlt := List.sizeOf_lt_of_mem hc
  have hchild : sizeOf c.1 < sizeOf c := by
    cases c
    simp only [Prod.mk.sizeOf_spec]
    omega
  omega

theorem EachSplit.mono (h : tree.EachSplit P) (hPQ : ∀ cs, P cs → Q cs) : tree.EachSplit Q :=
  fun orient children hsub => hPQ children (h orient children hsub)

theorem eachSplit_leaf : (leaf pane).EachSplit P := by
  intro orient children h
  cases h

theorem eachSplit_split : (split orient children).EachSplit P ↔
    P children ∧ ∀ c ∈ children, c.1.EachSplit P := by
  constructor
  · intro h
    exact ⟨h orient children .refl,fun c hc o cs hsub => h o cs (.child hc hsub)⟩
  · rintro ⟨hhere,hbelow⟩ o cs hsub
    cases hsub with
    | refl => exact hhere
    | child hmem hsub => exact hbelow _ hmem o cs hsub

theorem isLeaf_iff : tree.isLeaf pane = true ↔ tree = .leaf pane := by
  cases tree <;> simp [isLeaf]

theorem removeLeaf_isLeaf : tree.removeLeaf pane = none ↔ tree.isLeaf pane = true := by
  rw [removeLeaf_eq_none,isLeaf_iff]

/-! The children that `retain_mut` keeps. -/

theorem mem_retainLeaves_iff {c : LayoutNode × UInt16} : c ∈ retainLeaves pane children ↔
    ∃ b ∈ children, b.1.removeLeaf pane = some c.1 ∧ b.2 = c.2 := by
  induction children with
  | nil => simp [retainLeaves]
  | cons b rest ih =>
    obtain ⟨child,weight⟩ := b
    simp only [retainLeaves,List.exists_mem_cons_iff]
    cases hb : child.removeLeaf pane with
    | none => simp [ih]
    | some child' =>
      rw [List.mem_cons,ih]
      refine or_congr_left ?_
      rw [Option.some.injEq,Prod.ext_iff]
      exact and_congr eq_comm eq_comm

theorem length_retainLeaves (pane : PaneId) (children : List (LayoutNode × UInt16)) :
    (retainLeaves pane children).length = (children.filter fun c => !c.1.isLeaf pane).length := by
  induction children with
  | nil => rfl
  | cons b rest ih =>
    obtain ⟨child,weight⟩ := b
    simp only [retainLeaves,List.filter_cons]
    cases hb : child.removeLeaf pane with
    | none => simp [removeLeaf_isLeaf.mp hb,ih]
    | some child' =>
      have hleaf : child.isLeaf pane = false := by
        rw [← Bool.not_eq_true,← removeLeaf_isLeaf,hb]
        exact Option.some_ne_none child'
      simp [hleaf,ih]

theorem totalWeight_retainLeaves (pane : PaneId) (children : List (LayoutNode × UInt16)) :
    totalWeight (retainLeaves pane children) +
    totalWeight (children.filter fun c => c.1.isLeaf pane) = totalWeight children := by
  induction children with
  | nil => rfl
  | cons b rest ih =>
    obtain ⟨child,weight⟩ := b
    simp only [retainLeaves,List.filter_cons]
    cases hb : child.removeLeaf pane with
    | none =>
      simp only [removeLeaf_isLeaf.mp hb,if_true,totalWeight,List.map_cons,List.sum_cons] at ih ⊢
      omega
    | some child' =>
      have hleaf : child.isLeaf pane = false := by
        rw [← Bool.not_eq_true,← removeLeaf_isLeaf,hb]
        exact Option.some_ne_none child'
      simp only [hleaf,Bool.false_eq_true,if_false,totalWeight,List.map_cons,List.sum_cons] at ih ⊢
      omega

/-- A split with one child left is that child, and else a split still. -/
theorem removeLeaf_split (orient : Orient) (pane : PaneId)
    (children : List (LayoutNode × UInt16)) :
    ∃ tree', (split orient children).removeLeaf pane = some tree' ∧
    ((∃ c, retainLeaves pane children = [c] ∧ tree' = c.1) ∨
      (retainLeaves pane children).length ≠ 1 ∧
        tree' = .split orient (retainLeaves pane children)) := by
  rw [removeLeaf]
  split
  · rename_i only weight heq
    exact ⟨only,rfl,Or.inl ⟨_,heq,rfl⟩⟩
  · rename_i hne
    refine ⟨_,rfl,Or.inr ⟨fun hone => ?_,rfl⟩⟩
    obtain ⟨c,hc⟩ := List.length_eq_one_iff.mp hone
    exact hne c.1 c.2 hc

/-! Which trees keep their shape. -/

/-- The pane is at most once among the children. -/
theorem length_filter_isLeaf (pane : PaneId) (h : (leavesOf children).Nodup) :
    (children.filter fun c => c.1.isLeaf pane).length ≤ 1 := by
  induction children with
  | nil => exact Nat.zero_le 1
  | cons c rest ih =>
    rw [leavesOf,List.nodup_append] at h
    obtain ⟨-,hrest,hdisj⟩ := h
    rw [List.filter_cons]
    split
    · rename_i hc
      have hnone : rest.filter (fun c => c.1.isLeaf pane) = [] := by
        rw [List.filter_eq_nil_iff]
        intro b hb hleaf
        refine hdisj pane ?_ pane (mem_leavesOf.mpr ⟨b,hb,?_⟩) rfl
        · rw [isLeaf_iff.mp hc]
          exact List.mem_singleton_self pane
        · rw [isLeaf_iff.mp hleaf]
          exact List.mem_singleton_self pane
      rw [hnone]
      exact Nat.le_refl 1
    · exact ih hrest

theorem nodup_of_mem (h : (leavesOf children).Nodup) {c : LayoutNode × UInt16}
    (hc : c ∈ children) : c.1.allLeaves.Nodup := by
  induction children with
  | nil => cases hc
  | cons b rest ih =>
    rw [leavesOf,List.nodup_append] at h
    rcases List.mem_cons.mp hc with rfl | hc
    · exact h.1
    · exact ih h.2.1 hc

theorem length_filter_not (children : List (LayoutNode × UInt16))
    (p : LayoutNode × UInt16 → Bool) :
    (children.filter fun c => !p c).length + (children.filter p).length = children.length := by
  rw [Nat.add_comm]
  simpa [List.countP_eq_length_filter] using
    (List.length_eq_countP_add_countP p (l := children)).symm

theorem branching_removeLeaf (h : tree.Branching) (hnodup : tree.allLeaves.Nodup)
    (hs : tree.removeLeaf pane = some tree') : tree'.Branching := by
  induction tree using induction generalizing tree' with
  | leaf p =>
    rw [removeLeaf,Option.ite_none_left_eq_some,Option.some.injEq] at hs
    exact hs.2 ▸ eachSplit_leaf
  | split orient children ih =>
    obtain ⟨htwo,hbelow⟩ := eachSplit_split.mp h
    have hkept : ∀ c ∈ retainLeaves pane children, c.1.Branching := by
      intro c hc
      obtain ⟨b,hb,hbc,-⟩ := mem_retainLeaves_iff.mp hc
      exact ih b hb (hbelow b hb) (nodup_of_mem hnodup hb) hbc
    obtain ⟨tree₁,hs₁,hcases⟩ := removeLeaf_split orient pane children
    obtain rfl := Option.some.inj (hs₁.symm.trans hs)
    rcases hcases with ⟨c,hc,rfl⟩ | ⟨hne,rfl⟩
    · exact hkept c (by simp [hc])
    · refine eachSplit_split.mpr ⟨?_,hkept⟩
      have hgone := length_filter_isLeaf pane hnodup
      have hcount := length_filter_not children fun c => c.1.isLeaf pane
      rw [length_retainLeaves] at hne ⊢
      omega

/-- Weights that are left add up again only where a split has collapsed. -/
theorem balanced_removeLeaf (h : tree.EachSplit Weighted)
    (hs : tree.removeLeaf pane = some tree') : tree'.Balanced ↔ tree.Pairs pane := by
  induction tree using induction generalizing tree' with
  | leaf p =>
    rw [removeLeaf,Option.ite_none_left_eq_some,Option.some.injEq] at hs
    exact iff_of_true (hs.2 ▸ eachSplit_leaf) eachSplit_leaf
  | split orient children ih =>
    obtain ⟨hhere,hbelow⟩ := eachSplit_split.mp h
    have hkept : (∀ c ∈ retainLeaves pane children, c.1.Balanced) ↔
        ∀ c ∈ children, c.1.Pairs pane := by
      constructor
      · intro hall b hb
        cases hbc : b.1.removeLeaf pane with
        | none =>
          rw [removeLeaf_eq_none.mp hbc]
          exact eachSplit_leaf
        | some child =>
          exact (ih b hb (hbelow b hb) hbc).mp
            (hall (child,b.2) (mem_retainLeaves_iff.mpr ⟨b,hb,hbc,rfl⟩))
      · intro hall c hc
        obtain ⟨b,hb,hbc,-⟩ := mem_retainLeaves_iff.mp hc
        exact (ih b hb (hbelow b hb) hbc).mpr (hall b hb)
    have hlen := length_retainLeaves pane children
    obtain ⟨tree₁,hs₁,hcases⟩ := removeLeaf_split orient pane children
    obtain rfl := Option.some.inj (hs₁.symm.trans hs)
    rcases hcases with ⟨c,hc,rfl⟩ | ⟨hne,rfl⟩
    · rw [hc,List.length_singleton] at hlen
      rw [Pairs,eachSplit_split,← Pairs,← hkept,hc,List.forall_mem_singleton]
      exact (and_iff_right fun _ => hlen.symm).symm
    · rw [Balanced,eachSplit_split,← Balanced,hkept,Pairs,eachSplit_split,← Pairs,← hlen]
      refine and_congr_left fun _ => ?_
      have htotal := totalWeight_retainLeaves pane children
      rw [hhere.total] at htotal
      constructor
      · rintro hfull ⟨c,hc,hleaf⟩
        have hmem : c ∈ children.filter fun c => c.1.isLeaf pane :=
          List.mem_filter.mpr ⟨hc,isLeaf_iff.mpr hleaf⟩
        have hpos : c.2.toNat ≤ totalWeight (children.filter fun c => c.1.isLeaf pane) :=
          List.le_sum_of_mem (List.mem_map_of_mem hmem)
        have hweight := (hhere.bounds c hc).1
        omega
      · intro hpairs
        have hnone : children.filter (fun c => c.1.isLeaf pane) = [] := by
          rw [List.filter_eq_nil_iff]
          intro c hc hleaf
          exact hne (hpairs ⟨c,hc,isLeaf_iff.mp hleaf⟩)
        rw [hnone] at htotal
        exact htotal

/-! The tree that `close` leaves and the pane it gives the focus to. -/

theorem close_of_notMem (h : pane ∉ tree.allLeaves) : tree.close pane = (tree,none) := by
  have hnone : tree.allLeaves.findIdx? (· = pane) = none := by
    simp only [List.findIdx?_eq_none_iff,decide_eq_false_iff_not]
    rintro q hq rfl
    exact h hq
  rw [close,hnone]

/-- The leaf goes, and the position before it has the focus. -/
theorem close_of_split {before after : List PaneId}
    (h : tree.allLeaves = before ++ pane :: after) (hbefore : pane ∉ before)
    (htwo : 2 ≤ tree.allLeaves.length) : ∃ tree', tree.removeLeaf pane = some tree' ∧
      tree.close pane = (tree',tree'.allLeaves[before.length-1]?) := by
  have hpos : tree.allLeaves.findIdx? (· = pane) = some before.length := by
    have hnone : before.findIdx? (· = pane) = none := by
      simp only [List.findIdx?_eq_none_iff,decide_eq_false_iff_not]
      rintro q hq rfl
      exact hbefore hq
    simp [h,List.findIdx?_append,hnone,List.findIdx?_cons]
  cases hs : tree.removeLeaf pane with
  | none =>
    rw [removeLeaf_eq_none.mp hs] at htwo
    simp [allLeaves] at htwo
  | some tree' =>
    refine ⟨tree',rfl,?_⟩
    rw [close,hpos]
    simp only [hs,Option.getD_some]
    exact if_neg (by omega)

/-- The leaf goes and the others stay as they are; the one before it has the focus, or else the
first. -/
theorem close_exact (hbranch : tree.Branching) (hnodup : tree.allLeaves.Nodup)
    (htwo : 2 ≤ tree.allLeaves.length) (pane : PaneId) :
    (∀ before after, tree.allLeaves = before ++ pane :: after →
      (tree.close pane).1.allLeaves = before ++ after ∧ (tree.close pane).1.Branching ∧
        (tree.close pane).2 = before.getLast?.or after.head?) ∧
      (pane ∉ tree.allLeaves → tree.close pane = (tree,none)) := by
  refine ⟨fun before after h => ?_,close_of_notMem⟩
  have hparts := hnodup
  rw [h,List.nodup_append,List.nodup_cons] at hparts
  obtain ⟨-,⟨hafter,-⟩,hdisj⟩ := hparts
  have hbefore : pane ∉ before := fun hmem => hdisj pane hmem pane List.mem_cons_self rfl
  obtain ⟨tree',hs,hclose⟩ := close_of_split h hbefore htwo
  have hleaves : tree'.allLeaves = before ++ after := by
    have hremoved : ((tree.removeLeaf pane).map allLeaves).getD [] =
        tree.allLeaves.filter (· ≠ pane) := leaves_removeLeaf
    have hkeep : ∀ l : List PaneId, pane ∉ l → l.filter (· ≠ pane) = l := by
      intro l hl
      refine List.filter_eq_self.mpr fun q hq => decide_eq_true ?_
      rintro rfl
      exact hl hq
    rw [hs,h,List.filter_append,hkeep before hbefore,List.filter_cons_of_neg (by simp),
      hkeep after hafter] at hremoved
    exact hremoved
  rw [hclose]
  refine ⟨hleaves,?_,?_⟩
  · exact branching_removeLeaf hbranch hnodup hs
  · simp only [hleaves]
    rcases List.eq_nil_or_concat before with rfl | ⟨front,q,rfl⟩
    · simp [List.head?_eq_getElem?]
    · simp

/-- A split of three, one of them a split of two. -/
def threeWay : LayoutNode :=
  .split .horizontal [(.leaf ⟨1⟩,34),(.split .vertical [(.leaf ⟨2⟩,50),(.leaf ⟨3⟩,50)],33),
    (.leaf ⟨4⟩,33)]

theorem threeWay_splits (hthree : P [(.leaf ⟨1⟩,34),
    (.split .vertical [(.leaf ⟨2⟩,50),(.leaf ⟨3⟩,50)],33),(.leaf ⟨4⟩,33)])
    (htwo : P [(.leaf ⟨2⟩,50),(.leaf ⟨3⟩,50)]) : threeWay.EachSplit P := by
  simp [threeWay,eachSplit_split,eachSplit_leaf,hthree,htwo]

theorem close_exact_threeWay :
    (∀ before after, threeWay.allLeaves = before ++ ⟨3⟩ :: after →
      (threeWay.close ⟨3⟩).1.allLeaves = before ++ after ∧ (threeWay.close ⟨3⟩).1.Branching ∧
        (threeWay.close ⟨3⟩).2 = before.getLast?.or after.head?) ∧
      (⟨3⟩ ∉ threeWay.allLeaves → threeWay.close ⟨3⟩ = (threeWay,none)) :=
  close_exact (threeWay_splits (by decide) (by decide)) (by decide) (by decide) ⟨3⟩

/-! The weights. -/

/-- Of siblings that are left the weights stay as they were, so that they add up to 100 where a
split collapses, and where it does not the closed pane was not in it. -/
theorem close_balanced_iff (h : tree.EachSplit Weighted) (hp : pane ∈ tree.allLeaves)
    (htwo : 2 ≤ tree.allLeaves.length) : (tree.close pane).1.Balanced ↔ tree.Pairs pane := by
  obtain ⟨before,after,hsplit,hbefore⟩ := List.eq_append_cons_of_mem hp
  obtain ⟨tree',hs,hclose⟩ := close_of_split hsplit hbefore htwo
  rw [hclose]
  exact balanced_removeLeaf h hs

theorem threeWay_weighted : threeWay.EachSplit Weighted :=
  threeWay_splits ⟨by decide,by decide,by decide⟩ ⟨by decide,by decide,by decide⟩

theorem close_balanced_threeWay : (threeWay.close ⟨3⟩).1.Balanced ↔ threeWay.Pairs ⟨3⟩ :=
  close_balanced_iff threeWay_weighted (by decide) (by decide)

/-- What is left of the three weights is 66. -/
theorem close_not_balanced : ¬∀ (tree : LayoutNode) (pane : PaneId), tree.EachSplit Weighted →
    pane ∈ tree.allLeaves → 2 ≤ tree.allLeaves.length → (tree.close pane).1.Balanced := by
  intro h
  have hleft := h threeWay ⟨1⟩ threeWay_weighted (by decide) (by decide)
  have hroot := (eachSplit_split.mp hleft).1
  exact absurd hroot (by decide)

end LayoutNode

end Pyre
