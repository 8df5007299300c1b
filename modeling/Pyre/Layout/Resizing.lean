import Pyre.Layout.Closing

/-!
Which weight `set_weight` sets. It takes the first split that has the pane below one of its
children, and that is the tree's own, so a pane deeper down keeps the weight it has.
-/

set_option autoImplicit false

namespace Pyre
open Base

namespace LayoutNode

/-- The pane is a child of a split of the tree, and that is its weight there. -/
def HasWeight (tree : LayoutNode) (pane : PaneId) (weight : UInt16) : Prop :=
  ∃ orient children, Subtree (.split orient children) tree ∧ (.leaf pane,weight) ∈ children

/-- The pane is a child of the tree's own split. -/
def AtRoot (tree : LayoutNode) (pane : PaneId) : Prop :=
  ∃ orient children weight, tree = .split orient children ∧ (.leaf pane,weight) ∈ children

/-- Both panes are below one child of the tree's own split. -/
def SameBranch (tree : LayoutNode) (p q : PaneId) : Prop :=
  ∃ orient children c, tree = .split orient children ∧ c ∈ children ∧
    p ∈ c.1.allLeaves ∧ q ∈ c.1.allLeaves

/-- When both are resized, each has the weight that was asked for it. -/
def Independent (tree : LayoutNode) (p q : PaneId) (wp wq : UInt16) : Prop :=
  let resized := (tree.setWeight p wp).setWeight q wq
  resized.HasWeight p (clampWeight wp.toNat) ∧ resized.HasWeight q (clampWeight wq.toNat)

variable {tree a b : LayoutNode} {pane p q : PaneId} {wa wb weight v w : UInt16} {orient : Orient}
  {children : List (LayoutNode × UInt16)}

/-! The weight of a pane. -/

@[simp] theorem hasWeight_leaf : ¬(leaf p).HasWeight pane weight := by
  rintro ⟨o,children,hsub,-⟩
  cases hsub

theorem hasWeight_split : (split orient children).HasWeight pane weight ↔
    (.leaf pane,weight) ∈ children ∨ ∃ c ∈ children, c.1.HasWeight pane weight := by
  constructor
  · rintro ⟨o,cs,hsub,hmem⟩
    cases hsub with
    | refl => exact Or.inl hmem
    | child hc hsub => exact Or.inr ⟨_,hc,o,cs,hsub,hmem⟩
  · rintro (hmem | ⟨c,hc,o,cs,hsub,hmem⟩)
    · exact ⟨orient,children,.refl,hmem⟩
    · exact ⟨o,cs,.child hc hsub,hmem⟩

theorem hasWeight_pair : (split orient [(a,wa),(b,wb)]).HasWeight pane weight ↔
    (a = .leaf pane ∧ weight = wa) ∨ (b = .leaf pane ∧ weight = wb) ∨
      a.HasWeight pane weight ∨ b.HasWeight pane weight := by
  simp [hasWeight_split,eq_comm,or_assoc]

theorem atRoot_pair : (split orient [(a,wa),(b,wb)]).AtRoot pane ↔
    a = .leaf pane ∨ b = .leaf pane := by
  constructor
  · rintro ⟨o,children,weight,heq,hmem⟩
    obtain ⟨rfl,rfl⟩ := LayoutNode.split.inj heq
    simp at hmem
    tauto
  · rintro (rfl | rfl)
    · exact ⟨_,_,wa,rfl,by simp⟩
    · exact ⟨_,_,wb,rfl,by simp⟩

theorem HasWeight.mem (h : tree.HasWeight pane weight) : pane ∈ tree.allLeaves := by
  obtain ⟨o,children,hsub,hmem⟩ := h
  have hleaf : pane ∈ (leaf pane).allLeaves := by simp [allLeaves]
  exact hsub.leaves (mem_leavesOf.mpr ⟨_,hmem,hleaf⟩)

theorem ne_leaf_of_notMem (h : pane ∉ tree.allLeaves) : tree ≠ .leaf pane := by
  rintro rfl
  simp [allLeaves] at h

/-- On the side where it is not a leaf the pane has no weight. -/
theorem hasWeight_left (h : pane ∉ b.allLeaves) :
    (split orient [(a,wa),(b,wb)]).HasWeight pane weight ↔
      (a = .leaf pane ∧ weight = wa) ∨ a.HasWeight pane weight := by
  have hb : ¬b.HasWeight pane weight := fun hb => h hb.mem
  simp [hasWeight_pair,ne_leaf_of_notMem h,hb]

theorem hasWeight_right (h : pane ∉ a.allLeaves) :
    (split orient [(a,wa),(b,wb)]).HasWeight pane weight ↔
      (b = .leaf pane ∧ weight = wb) ∨ b.HasWeight pane weight := by
  have ha : ¬a.HasWeight pane weight := fun ha => h ha.mem
  simp [hasWeight_pair,ne_leaf_of_notMem h,ha]

/-- A child of the split that is a leaf has no weight further down. -/
theorem side_unique (hunique : a.HasWeight pane v → a.HasWeight pane w → v = w)
    (hv : (a = .leaf pane ∧ v = wa) ∨ a.HasWeight pane v)
    (hw : (a = .leaf pane ∧ w = wa) ∨ a.HasWeight pane w) : v = w := by
  rcases hv with ⟨rfl,rfl⟩ | hv
  · simpa [eq_comm] using hw
  · rcases hw with ⟨rfl,-⟩ | hw
    · exact absurd hv hasWeight_leaf
    · exact hunique hv hw

/-- A pane that is a leaf once has one weight at most. -/
theorem Tiled.hasWeight_unique (h : tree.Tiled) (hnodup : tree.allLeaves.Nodup)
    (hv : tree.HasWeight pane v) (hw : tree.HasWeight pane w) : v = w := by
  induction h with
  | leaf p => exact absurd hv hasWeight_leaf
  | @split a b wa wb o _ _ _ iha ihb =>
    simp only [LayoutNode.allLeaves,leavesOf,List.append_nil,List.nodup_append] at hnodup
    obtain ⟨hna,hnb,hdisj⟩ := hnodup
    by_cases hmem : pane ∈ b.allLeaves
    · have hn : pane ∉ a.allLeaves := fun ha => hdisj pane ha pane hmem rfl
      rw [hasWeight_right hn] at hv hw
      exact side_unique (ihb hnb) hv hw
    · rw [hasWeight_left hmem] at hv hw
      exact side_unique (iha hna) hv hw

/-! What is set. -/

/-- A child of the tree's own split gets the weight that is asked for. -/
theorem Tiled.setWeight_atRoot (h : tree.Tiled) (hnodup : tree.allLeaves.Nodup)
    (hroot : tree.AtRoot pane) (weight : UInt16) :
    (tree.setWeight pane weight).HasWeight pane (clampWeight weight.toNat) := by
  cases h with
  | leaf p =>
    obtain ⟨_,_,_,heq,-⟩ := hroot
    cases heq
  | @split a b wa wb o ha hb hw =>
    simp only [LayoutNode.allLeaves,leavesOf,List.append_nil,List.nodup_append] at hnodup
    obtain ⟨-,-,hdisj⟩ := hnodup
    have hleaf : pane ∈ (LayoutNode.leaf pane).allLeaves := by simp [LayoutNode.allLeaves]
    rcases atRoot_pair.mp hroot with rfl | rfl
    · obtain ⟨wb',-,hset⟩ := setWeight_left o b hw hleaf weight
      rw [hset,hasWeight_pair]
      exact Or.inl ⟨rfl,rfl⟩
    · have hleft : pane ∉ a.allLeaves := fun hmem => hdisj pane hmem pane hleaf rfl
      obtain ⟨wa',-,hset⟩ := setWeight_right o hw hleft hleaf weight
      rw [hset,hasWeight_pair]
      exact Or.inr (Or.inl ⟨rfl,rfl⟩)

/-- No weight but those of the tree's own split is set. -/
theorem Tiled.setWeight_deep (h : tree.Tiled) (p : PaneId) (w : UInt16)
    (hdeep : ¬tree.AtRoot pane) :
    (∀ v, (tree.setWeight p w).HasWeight pane v ↔ tree.HasWeight pane v) ∧
      ¬(tree.setWeight p w).AtRoot pane := by
  rcases h.setWeight_cases p w with hsame | ⟨o,a,b,wa,wb,wa',wb',-,-,rfl,-,heq⟩
  · rw [hsame]
    exact ⟨fun _ => Iff.rfl,hdeep⟩
  · rw [heq]
    rw [atRoot_pair] at hdeep ⊢
    refine ⟨fun v => ?_,hdeep⟩
    rw [not_or] at hdeep
    simp [hasWeight_pair,hdeep.1,hdeep.2]

/-- Two panes below one child of the tree's own split are not children of it. -/
theorem Tiled.not_atRoot (h : tree.Tiled) (hnodup : tree.allLeaves.Nodup)
    (hbranch : tree.SameBranch p q) (hne : p ≠ q) : ¬tree.AtRoot p := by
  obtain ⟨o,children,c,rfl,hc,hp,hq⟩ := hbranch
  cases h with
  | @split a b wa wb _ _ _ _ =>
    simp only [LayoutNode.allLeaves,leavesOf,List.append_nil,List.nodup_append] at hnodup
    obtain ⟨-,-,hdisj⟩ := hnodup
    have hself : p ∈ (LayoutNode.leaf p).allLeaves := by simp [LayoutNode.allLeaves]
    have hother : q ∉ (LayoutNode.leaf p).allLeaves := by simp [LayoutNode.allLeaves,hne.symm]
    rw [atRoot_pair]
    rintro (rfl | rfl)
    all_goals
      simp only [List.mem_cons,List.not_mem_nil,or_false] at hc
      rcases hc with rfl | rfl
    · exact hother hq
    · exact hdisj p hself p hp rfl
    · exact hdisj p hp p hself rfl
    · exact hother hq

theorem SameBranch.symm (h : tree.SameBranch p q) : tree.SameBranch q p := by
  obtain ⟨o,children,c,heq,hc,hp,hq⟩ := h
  exact ⟨o,children,c,heq,hc,hq,hp⟩

section runs

variable {first : PaneId} {steps : List TreeStep}

/-- Of the trees that come about from a leaf: a pane that has a weight gets the one asked for just
where it is a child of the tree's own split, unless it has that weight; and two panes below one
child of that split get theirs just where they have them. -/
theorem setWeight_own (h : exec step (.leaf first) steps = some tree) :
    (∀ pane v w, tree.HasWeight pane v →
      ((tree.setWeight pane w).HasWeight pane (clampWeight w.toNat) ↔
        tree.AtRoot pane ∨ v = clampWeight w.toNat)) ∧
    ∀ p q vp vq wp wq, tree.SameBranch p q → p ≠ q → tree.HasWeight p vp → tree.HasWeight q vq →
      (tree.Independent p q wp wq ↔ vp = clampWeight wp.toNat ∧ vq = clampWeight wq.toNat) := by
  have hsound := (tiling_sound first steps).1.last h
  obtain ⟨htiled,hnodup⟩ := hsound
  constructor
  · intro pane v w hv
    by_cases hroot : tree.AtRoot pane
    · simp [hroot,htiled.setWeight_atRoot hnodup hroot w]
    · rw [(htiled.setWeight_deep pane w hroot).1,or_iff_right hroot]
      exact ⟨htiled.hasWeight_unique hnodup hv,fun heq => heq ▸ hv⟩
  · intro p q vp vq wp wq hbranch hne hvp hvq
    have hp := htiled.not_atRoot hnodup hbranch hne
    have hq := htiled.not_atRoot hnodup hbranch.symm hne.symm
    have hafter := (htiled.setWeight p wp).1
    have hkept : ∀ r weight, ¬tree.AtRoot r →
        (((tree.setWeight p wp).setWeight q wq).HasWeight r weight ↔ tree.HasWeight r weight) := by
      intro r weight hr
      have hdeep : ¬(tree.setWeight p wp).AtRoot r := (htiled.setWeight_deep p wp hr).2
      rw [(hafter.setWeight_deep q wq hdeep).1,(htiled.setWeight_deep p wp hr).1]
    simp only [Independent,hkept p _ hp,hkept q _ hq]
    constructor
    · rintro ⟨hp',hq'⟩
      exact ⟨htiled.hasWeight_unique hnodup hvp hp',htiled.hasWeight_unique hnodup hvq hq'⟩
    · rintro ⟨rfl,rfl⟩
      exact ⟨hvp,hvq⟩

end runs

/-- The panes 2, 3 and 4 are to the right of 1, and 3 and 4 are below 2. -/
def nested : LayoutNode :=
  .split .vertical [(.leaf ⟨1⟩,50),(.split .horizontal [(.leaf ⟨2⟩,50),
    (.split .vertical [(.leaf ⟨3⟩,50),(.leaf ⟨4⟩,50)],50)],50)]

def nestedSteps : List TreeStep :=
  [.splitFocused ⟨1⟩ ⟨2⟩ .vertical,.splitFocused ⟨2⟩ ⟨3⟩ .horizontal,
    .splitFocused ⟨3⟩ ⟨4⟩ .vertical]

theorem exec_nested : exec step (.leaf ⟨1⟩) nestedSteps = some nested := by rfl

theorem hasWeight_nested : nested.HasWeight ⟨2⟩ 50 ∧ nested.HasWeight ⟨3⟩ 50 := by
  simp [nested,hasWeight_pair]

theorem setWeight_own_nested :
    ((nested.setWeight ⟨2⟩ 80).HasWeight ⟨2⟩ (clampWeight 80) ↔
      nested.AtRoot ⟨2⟩ ∨ 50 = clampWeight 80) ∧
    (nested.Independent ⟨2⟩ ⟨3⟩ 80 20 ↔ 50 = clampWeight 80 ∧ 50 = clampWeight 20) := by
  obtain ⟨hown,hboth⟩ := setWeight_own exec_nested
  have hbranch : nested.SameBranch ⟨2⟩ ⟨3⟩ :=
    ⟨_,_,_,rfl,List.mem_cons_of_mem _ List.mem_cons_self,by decide,by decide⟩
  exact ⟨hown ⟨2⟩ 50 80 hasWeight_nested.1,
    hboth ⟨2⟩ ⟨3⟩ 50 50 80 20 hbranch (by decide) hasWeight_nested.1 hasWeight_nested.2⟩

/-- The branch to the right gets the weight, and the pane in it keeps its own. -/
theorem nested_deep :
    ¬∀ first steps tree pane v w, exec step (.leaf first) steps = some tree →
      tree.HasWeight pane v → (tree.setWeight pane w).HasWeight pane (clampWeight w.toNat) := by
  intro hall
  have hset := hall ⟨1⟩ nestedSteps nested ⟨2⟩ 50 80 exec_nested hasWeight_nested.1
  have hresult : nested.setWeight ⟨2⟩ 80 =
      .split .vertical [(.leaf ⟨1⟩,20),(.split .horizontal [(.leaf ⟨2⟩,50),
        (.split .vertical [(.leaf ⟨3⟩,50),(.leaf ⟨4⟩,50)],50)],80)] := by rfl
  rw [hresult] at hset
  simp [hasWeight_pair] at hset
  revert hset
  decide

end LayoutNode

end Pyre
