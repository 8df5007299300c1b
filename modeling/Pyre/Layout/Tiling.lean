import Mathlib.Data.Finset.Card
import Pyre.Base.Run
import Pyre.Layout

/-!
The trees that come about from a leaf: every split has two children whose weights
make up a hundred, no pane is a leaf twice, and a step adds or takes out one leaf.
-/

set_option autoImplicit false

namespace Pyre
open Base

/-- The weights of the two children of a split. -/
structure Shares (a b : UInt16) : Prop where
  sum : a.toNat+b.toNat = 100
  left : 5 ≤ a.toNat ∧ a.toNat ≤ 95
  right : 5 ≤ b.toNat ∧ b.toNat ≤ 95

theorem Shares.symm {a b : UInt16} (h : Shares a b) : Shares b a :=
  ⟨by have hsum := h.sum; omega,h.right,h.left⟩

namespace LayoutNode

/-! Weights. -/

theorem toNat_clampWeight (w : Int) : ((clampWeight w).toNat : Int) = max 5 (min 95 w) := by
  have hlt : (max 5 (min 95 w)).toNat < UInt16.size := by
    have hsize : UInt16.size = 65536 := rfl
    omega
  rw [clampWeight,UInt16.toNat_ofNat_of_lt' hlt]
  omega

section reweighing

variable {a b : UInt16}

/-- A sibling that is alone takes the whole change. -/
theorem rebalance_alone (c : UInt16) (delta : Int) (hb : 0 < b.toNat) :
    rebalanceSiblings [c,b] 0 delta b.toNat = [c,clampWeight (b.toNat-delta)] ∧
    rebalanceSiblings [b,c] 1 delta b.toNat = [clampWeight (b.toNat-delta),c] := by
  have hshare : ((b.toNat : Int)*delta).tdiv (max b.toNat 1) = delta := by
    rw [max_eq_left (by omega),Int.mul_tdiv_cancel_left _ (by omega)]
  have hadjust : (b.toNat : Int)+-delta = b.toNat-delta := by omega
  have hrest : ((clampWeight (b.toNat-delta)).toNat : Int)+
      (-delta-(((clampWeight (b.toNat-delta)).toNat : Int)-b.toNat)) = b.toNat-delta := by omega
  constructor <;> simp [rebalanceSiblings,List.range_succ,List.mapIdx_cons,hshare,hadjust,hrest]

/-- The target gets what is asked for, and the one sibling the rest of the hundred. -/
theorem reweigh_two (h : Shares a b) (weight : UInt16) :
    ∃ b', Shares (clampWeight weight.toNat) b' ∧
      reweigh [a,b] 0 weight = [clampWeight weight.toNat,b'] ∧
      reweigh [b,a] 1 weight = [b',clampWeight weight.toNat] := by
  obtain ⟨hsum,ha,hb⟩ := h
  have hclamp := toNat_clampWeight (weight.toNat : Int)
  set c := clampWeight (weight.toNat : Int) with hc
  by_cases hsame : c = a
  · subst hsame
    exact ⟨b,⟨hsum,ha,hb⟩,by simp [reweigh,← hc],by simp [reweigh,← hc]⟩
  set d := clampWeight (b.toNat-((c.toNat : Int)-a.toNat)) with hd
  have hrest : (d.toNat : Int) = 100-c.toNat := by
    have hclamped := toNat_clampWeight (b.toNat-((c.toNat : Int)-a.toNat))
    rw [← hd] at hclamped
    omega
  have hshares : Shares c d := ⟨by omega,by omega,by omega⟩
  obtain ⟨hleft,hright⟩ := rebalance_alone (b := b) c (c.toNat-a.toNat) (by omega)
  rw [← hd] at hleft hright
  have htotal : c+d = 100 := by
    rw [← UInt16.toNat_inj,UInt16.toNat_add]
    have hhundred : (100 : UInt16).toNat = 100 := rfl
    omega
  have hpos : 0 < b.toNat := by omega
  refine ⟨d,hshares,?_,?_⟩
  · simp only [reweigh,← hc]
    simp [hsame,hpos,hleft,htotal]
  · simp only [reweigh,← hc]
    simp [hsame,hpos,hright,UInt16.add_comm d c,htotal]

section pair

variable {left right : LayoutNode} {pane : PaneId}

/-- The child that has the pane below it gets what is asked for. -/
theorem setWeight_left (orient : Orient) (right : LayoutNode) (h : Shares a b)
    (hpane : pane ∈ left.allLeaves) (weight : UInt16) :
    ∃ b', Shares (clampWeight weight.toNat) b' ∧
      (split orient [(left,a),(right,b)]).setWeight pane weight =
        .split orient [(left,clampWeight weight.toNat),(right,b')] := by
  obtain ⟨b',hshares,hreweigh,-⟩ := reweigh_two h weight
  refine ⟨b',hshares,?_⟩
  simp [setWeight,setWeightInner,List.findIdx?_cons,hpane,hreweigh]

theorem setWeight_right (orient : Orient) (h : Shares a b) (hleft : pane ∉ left.allLeaves)
    (hpane : pane ∈ right.allLeaves) (weight : UInt16) :
    ∃ a', Shares a' (clampWeight weight.toNat) ∧
      (split orient [(left,a),(right,b)]).setWeight pane weight =
        .split orient [(left,a'),(right,clampWeight weight.toNat)] := by
  obtain ⟨a',hshares,-,hreweigh⟩ := reweigh_two h.symm weight
  refine ⟨a',hshares.symm,?_⟩
  simp [setWeight,setWeightInner,List.findIdx?_cons,hleft,hpane,hreweigh]

end pair

end reweighing

/-! Trees. -/

inductive Tiled : LayoutNode → Prop where
  | leaf (pane : PaneId) : Tiled (.leaf pane)
  | split {a b : LayoutNode} {wa wb : UInt16} (orient : Orient) (ha : Tiled a) (hb : Tiled b)
      (hw : Shares wa wb) : Tiled (.split orient [(a,wa),(b,wb)])

/-- What the definition says of a tree it says of each of its splits. -/
theorem Tiled.shares {tree : LayoutNode} (h : tree.Tiled) {orient : Orient}
    {children : List (LayoutNode × UInt16)} (hs : Subtree (.split orient children) tree) :
    ∃ a b wa wb, children = [(a,wa),(b,wb)] ∧ Shares wa wb := by
  induction h with
  | leaf pane => cases hs
  | split o _ _ hw iha ihb =>
    cases hs with
    | refl => exact ⟨_,_,_,_,rfl,hw⟩
    | child hmem hs =>
      rw [List.mem_cons,List.mem_singleton] at hmem
      rcases hmem with heq | heq
      · obtain ⟨rfl,rfl⟩ := Prod.mk.inj heq
        exact iha hs
      · obtain ⟨rfl,rfl⟩ := Prod.mk.inj heq
        exact ihb hs

section steps

variable {tree tree' : LayoutNode} {pane focused fresh : PaneId} {orient : Orient}

theorem Tiled.splitFocusedInner (h : tree.Tiled)
    (hs : tree.splitFocusedInner focused fresh orient = some tree') : tree'.Tiled := by
  induction h generalizing tree' with
  | leaf pane =>
    rw [LayoutNode.splitFocusedInner,Option.ite_none_right_eq_some,Option.some.injEq] at hs
    obtain ⟨-,rfl⟩ := hs
    exact .split orient (.leaf pane) (.leaf fresh) ⟨rfl,by decide,by decide⟩
  | @split a b wa wb o ha hb hw iha ihb =>
    cases ha' : a.splitFocusedInner focused fresh orient with
    | some a' =>
      simp only [LayoutNode.splitFocusedInner,splitFirst,ha',Option.map_some,
        Option.some.injEq] at hs
      exact hs ▸ .split o (iha ha') hb hw
    | none =>
      cases hb' : b.splitFocusedInner focused fresh orient with
      | some b' =>
        simp only [LayoutNode.splitFocusedInner,splitFirst,ha',hb',Option.map_some,
          Option.some.injEq] at hs
        exact hs ▸ .split o ha (ihb hb') hw
      | none => simp [LayoutNode.splitFocusedInner,splitFirst,ha',hb'] at hs

theorem Tiled.splitFocused (h : tree.Tiled) :
    (tree.splitFocused focused fresh orient).Tiled := by
  unfold LayoutNode.splitFocused
  cases hs : tree.splitFocusedInner focused fresh orient with
  | none => exact h
  | some tree' => exact h.splitFocusedInner hs

/-- Only the leaf itself goes as a whole. -/
theorem removeLeaf_eq_none : tree.removeLeaf pane = none ↔ tree = .leaf pane := by
  cases tree with
  | leaf p => simp [removeLeaf]
  | split o children =>
    rw [removeLeaf]
    split <;> simp

theorem Tiled.removeLeaf (h : tree.Tiled) (hnodup : tree.allLeaves.Nodup)
    (hs : tree.removeLeaf pane = some tree') : tree'.Tiled := by
  induction h generalizing tree' with
  | leaf p =>
    rw [LayoutNode.removeLeaf,Option.ite_none_left_eq_some,Option.some.injEq] at hs
    obtain ⟨-,rfl⟩ := hs
    exact .leaf p
  | @split a b wa wb o ha hb hw iha ihb =>
    simp only [allLeaves,leavesOf,List.append_nil,List.nodup_append] at hnodup
    obtain ⟨hna,hnb,hdisj⟩ := hnodup
    cases ha' : a.removeLeaf pane with
    | some a' =>
      cases hb' : b.removeLeaf pane with
      | some b' =>
        simp only [LayoutNode.removeLeaf,retainLeaves,ha',hb',Option.some.injEq] at hs
        exact hs ▸ .split o (iha hna ha') (ihb hnb hb') hw
      | none =>
        simp only [LayoutNode.removeLeaf,retainLeaves,ha',hb',Option.some.injEq] at hs
        exact hs ▸ iha hna ha'
    | none =>
      cases hb' : b.removeLeaf pane with
      | some b' =>
        simp only [LayoutNode.removeLeaf,retainLeaves,ha',hb',Option.some.injEq] at hs
        exact hs ▸ ihb hnb hb'
      | none =>
        -- both children would be the leaf
        obtain rfl := removeLeaf_eq_none.mp ha'
        obtain rfl := removeLeaf_eq_none.mp hb'
        exact absurd rfl (hdisj pane (by simp [allLeaves]) pane (by simp [allLeaves]))

theorem Tiled.close (h : tree.Tiled) (hnodup : tree.allLeaves.Nodup) (pane : PaneId) :
    (tree.close pane).1.Tiled := by
  unfold LayoutNode.close
  split
  · exact h
  · split
    · exact h
    · cases hs : tree.removeLeaf pane with
      | none => exact h
      | some tree' => exact h.removeLeaf hnodup hs

theorem Tiled.setWeightInner_of_notMem (h : tree.Tiled) (weight : UInt16)
    (hn : pane ∉ tree.allLeaves) : tree.setWeightInner pane weight = none := by
  induction h with
  | leaf p => rfl
  | split o ha hb hw iha ihb =>
    simp only [allLeaves,leavesOf,List.append_nil,List.mem_append,not_or] at hn
    simp [setWeightInner,setWeightFirst,List.findIdx?_cons,hn.1,hn.2,iha hn.1,ihb hn.2]

/-- The split at the root is the one that is found, and only its weights are set. -/
theorem Tiled.setWeight_cases (h : tree.Tiled) (pane : PaneId) (weight : UInt16) :
    tree.setWeight pane weight = tree ∨ ∃ o a b wa wb wa' wb', a.Tiled ∧ b.Tiled ∧
      tree = .split o [(a,wa),(b,wb)] ∧ Shares wa' wb' ∧
      tree.setWeight pane weight = .split o [(a,wa'),(b,wb')] := by
  by_cases hmem : pane ∈ tree.allLeaves
  swap
  · rw [setWeight,h.setWeightInner_of_notMem weight hmem]
    exact Or.inl rfl
  cases h with
  | leaf p => exact Or.inl rfl
  | @split a b wa wb o ha hb hw =>
    refine Or.inr ⟨o,a,b,wa,wb,?_⟩
    simp only [allLeaves,leavesOf,List.append_nil,List.mem_append] at hmem
    by_cases hleft : pane ∈ a.allLeaves
    · obtain ⟨wb',hw',heq⟩ := setWeight_left o b hw hleft weight
      exact ⟨_,wb',ha,hb,rfl,hw',heq⟩
    · have hright : pane ∈ b.allLeaves := hmem.resolve_left hleft
      obtain ⟨wa',hw',heq⟩ := setWeight_right o hw hleft hright weight
      exact ⟨wa',_,ha,hb,rfl,hw',heq⟩

theorem Tiled.setWeight (h : tree.Tiled) (pane : PaneId) (weight : UInt16) :
    (tree.setWeight pane weight).Tiled ∧
      (tree.setWeight pane weight).allLeaves = tree.allLeaves := by
  rcases h.setWeight_cases pane weight with hsame | ⟨o,a,b,wa,wb,wa',wb',ha,hb,rfl,hw,heq⟩
  · exact ⟨hsame.symm ▸ h,by rw [hsame]⟩
  · rw [heq]
    exact ⟨.split o ha hb hw,rfl⟩

end steps

/-! Runs. -/

inductive TreeStep where
  | splitFocused (focused fresh : PaneId) (orient : Orient)
  | setWeight (pane : PaneId) (weight : UInt16)
  | close (pane : PaneId)
  deriving DecidableEq, Repr

/-- The pane that is added is a new one. -/
def step (tree : LayoutNode) : TreeStep → Option LayoutNode
  | .splitFocused focused fresh orient =>
    if fresh ∉ tree.allLeaves then some (tree.splitFocused focused fresh orient) else none
  | .setWeight pane weight => some (tree.setWeight pane weight)
  | .close pane => some (tree.close pane).1

def leaves (tree : LayoutNode) : Finset PaneId := tree.allLeaves.toFinset

/-- What a step makes of the leaves, and where it leaves the tree as it is. -/
def Changes (tree tree' : LayoutNode) : TreeStep → Prop
  | .splitFocused focused fresh _ =>
    if focused ∈ tree.leaves then tree'.leaves = insert fresh tree.leaves else tree' = tree
  | .setWeight _ _ => tree'.leaves = tree.leaves
  | .close pane =>
    if tree.leaves = {pane} ∨ pane ∉ tree.leaves then tree' = tree
    else tree'.leaves = tree.leaves.erase pane

structure Sound (tree : LayoutNode) : Prop where
  tiled : tree.Tiled
  nodup : tree.allLeaves.Nodup

section changes

variable {tree : LayoutNode} {pane : PaneId}

theorem mem_leaves : pane ∈ tree.leaves ↔ pane ∈ tree.allLeaves := List.mem_toFinset

theorem eq_of_leaves_singleton (h : tree.leaves = {pane}) (hnodup : tree.allLeaves.Nodup) :
    tree.allLeaves = [pane] := by
  refine List.perm_singleton.mp ((List.perm_ext_iff_of_nodup hnodup (by simp)).mpr fun q => ?_)
  rw [← mem_leaves,h,Finset.mem_singleton,List.mem_singleton]

theorem changes_close (hnodup : tree.allLeaves.Nodup) (pane : PaneId) :
    tree.Changes (tree.close pane).1 (.close pane) := by
  rw [Changes]
  split
  · rename_i hcond
    rcases hcond with honly | hn
    · have hall := eq_of_leaves_singleton honly hnodup
      simp [close,hall]
    · rw [mem_leaves] at hn
      have hnone : tree.allLeaves.findIdx? (· = pane) = none := by
        simp only [List.findIdx?_eq_none_iff,decide_eq_false_iff_not]
        rintro q hq rfl
        exact hn hq
      rw [close,hnone]
  · rename_i hcond
    rw [not_or,not_not] at hcond
    obtain ⟨hmany,hmem⟩ := hcond
    have hlen : tree.allLeaves.length ≠ 1 := by
      intro hone
      obtain ⟨q,hq⟩ := List.length_eq_one_iff.mp hone
      rw [mem_leaves,hq,List.mem_singleton] at hmem
      exact hmany (by rw [leaves,hq,hmem]; rfl)
    ext q
    rw [mem_leaves,leaves_close,if_neg hlen,Finset.mem_erase,mem_leaves]
    simp [and_comm]

theorem changes_setWeight (h : tree.Tiled) (pane : PaneId) (weight : UInt16) :
    tree.Changes (tree.setWeight pane weight) (.setWeight pane weight) := by
  rw [Changes,leaves,(h.setWeight pane weight).2,leaves]

theorem changes_splitFocused (focused fresh : PaneId) (orient : Orient) :
    tree.Changes (tree.splitFocused focused fresh orient) (.splitFocused focused fresh orient) := by
  rw [Changes]
  split
  · rename_i hmem
    ext q
    rw [mem_leaves,(leaves_splitFocused (mem_leaves.mp hmem)).mem_iff,List.mem_cons,
      Finset.mem_insert,mem_leaves]
  · rename_i hmem
    exact splitFocused_of_notMem (mt mem_leaves.mpr hmem)

end changes

theorem sound_step {s t : LayoutNode} {a : TreeStep} (h : s.Sound) (ht : step s a = some t) :
    t.Sound ∧ s.Changes t a := by
  cases a with
  | splitFocused focused fresh orient =>
    rw [step,Option.ite_none_right_eq_some,Option.some.injEq] at ht
    obtain ⟨hfresh,rfl⟩ := ht
    refine ⟨⟨h.tiled.splitFocused,?_⟩,changes_splitFocused focused fresh orient⟩
    by_cases hmem : focused ∈ s.allLeaves
    · exact (leaves_splitFocused hmem).nodup_iff.mpr (List.nodup_cons.mpr ⟨hfresh,h.nodup⟩)
    · rw [splitFocused_of_notMem hmem]
      exact h.nodup
  | setWeight pane weight =>
    obtain rfl := Option.some.inj ht
    obtain ⟨htiled,hleaves⟩ := h.tiled.setWeight pane weight
    exact ⟨⟨htiled,hleaves.symm ▸ h.nodup⟩,changes_setWeight h.tiled pane weight⟩
  | close pane =>
    obtain rfl := Option.some.inj ht
    refine ⟨⟨h.tiled.close h.nodup pane,?_⟩,changes_close h.nodup pane⟩
    rw [leaves_close]
    split
    · exact h.nodup
    · exact h.nodup.filter _

/-- Every run from a leaf: each tree on the way has splits of two children with weights of
at least five that make a hundred, no leaf twice, and each step adds or takes out its leaf. -/
theorem tiling_sound (pane : PaneId) (as : List TreeStep) :
    Always step Sound (.leaf pane) as ∧
      Along step (fun s a => ∀ t, step s a = some t → s.Changes t a) (.leaf pane) as := by
  have hleaf : (LayoutNode.leaf pane).Sound := ⟨.leaf pane,by simp [allLeaves]⟩
  refine ⟨Always.of_invariant (fun s a t hs ht => (sound_step hs ht).1) hleaf as,?_⟩
  refine along_iff.mpr fun pre a _ s hs t ht => ?_
  have hsound := (Always.of_invariant (fun s a t hs ht => (sound_step hs ht).1) hleaf pre).last hs
  exact (sound_step hsound ht).2

end LayoutNode

end Pyre
