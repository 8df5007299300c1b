import Pyre.Layout.Unmoved

/-!
The weights of two panes that are children of one split, as the viewer sets them while their
boundary is dragged. The first split that has both is found, at any depth, and no other changes.
-/

set_option autoImplicit false

namespace Pyre.Gpu
open LayoutNode

/-- The child that is the leaf; the loop ends with the last there is. -/
def leafIdx (pane : PaneId) : List (LayoutNode × UInt16) → Option Nat
  | [] => none
  | (child,_) :: rest =>
    match leafIdx pane rest with
    | some i => some (i+1)
    | none => if child.isLeaf pane then some 0 else none

def setPair (children : List (LayoutNode × UInt16)) (li ri : Nat) (newLeft newRight : UInt16) :
    List (LayoutNode × UInt16) :=
  (children.modify li fun c => (c.1,newLeft)).modify ri fun c => (c.1,newRight)

section apply

variable (left right : PaneId) (newLeft newRight : UInt16)

mutual

/-- `none` where the code returns `false`: nothing was modified. -/
def applyWeightsForPair : LayoutNode → Option LayoutNode
  | .leaf _ => none
  | .split orient children =>
    match leafIdx left children,leafIdx right children with
    | some li,some ri => some (.split orient (setPair children li ri newLeft newRight))
    | _,_ => (applyFirst children).map (.split orient)

def applyFirst : List (LayoutNode × UInt16) → Option (List (LayoutNode × UInt16))
  | [] => none
  | (child,weight) :: rest =>
    match applyWeightsForPair child with
    | some child' => some ((child',weight) :: rest)
    | none => (applyFirst rest).map ((child,weight) :: ·)

end

end apply

/-- One subtree is replaced by another. -/
inductive Replaced (s s' : LayoutNode) : LayoutNode → LayoutNode → Prop where
  | here : Replaced s s' s s'
  | inside {orient : Orient} {before after : List (LayoutNode × UInt16)} {c c' : LayoutNode}
      {weight : UInt16} (h : Replaced s s' c c') :
      Replaced s s' (.split orient (before ++ (c,weight) :: after))
        (.split orient (before ++ (c',weight) :: after))

/-- The leaf is a child of the split. -/
def HasLeaf (pane : PaneId) (children : List (LayoutNode × UInt16)) : Prop :=
  ∃ weight, (.leaf pane,weight) ∈ children

/-- Both leaves are children of one split. -/
def Siblings (p q : PaneId) (tree : LayoutNode) : Prop :=
  ∃ orient children, Subtree (.split orient children) tree ∧ HasLeaf p children ∧ HasLeaf q children

variable {tree tree' s s' t t' : LayoutNode} {p q pane : PaneId} {a b c d : UInt16}
  {orient : Orient} {children children' cs cs' : List (LayoutNode × UInt16)} {i li ri : Nat}

/-! The index of a leaf. -/

theorem leafIdx_eq_none : leafIdx pane children = none ↔ ¬HasLeaf pane children := by
  induction children with
  | nil => simp [leafIdx,HasLeaf]
  | cons c rest ih =>
    obtain ⟨child,weight⟩ := c
    have hhas : HasLeaf pane ((child,weight) :: rest) ↔
        child.isLeaf pane = true ∨ HasLeaf pane rest := by
      rw [isLeaf_iff]
      simp [HasLeaf,exists_or,eq_comm]
    rw [hhas,leafIdx]
    cases hidx : leafIdx pane rest with
    | some i =>
      have hrest : HasLeaf pane rest := by
        by_contra hn
        rw [ih.mpr hn] at hidx
        cases hidx
      simp [hrest]
    | none => simp [ih.mp hidx]

theorem leafIdx_get (h : leafIdx pane children = some i) :
    ∃ weight, children[i]? = some (.leaf pane,weight) := by
  induction children generalizing i with
  | nil => cases h
  | cons c rest ih =>
    obtain ⟨child,weight⟩ := c
    rw [leafIdx] at h
    cases hidx : leafIdx pane rest with
    | some j =>
      rw [hidx] at h
      obtain rfl := Option.some.inj h
      exact ih hidx
    | none =>
      simp only [hidx,Option.ite_none_right_eq_some,Option.some.injEq,isLeaf_iff] at h
      obtain ⟨rfl,rfl⟩ := h
      exact ⟨weight,rfl⟩

theorem idx_ne (hne : p ≠ q) (hli : leafIdx p cs = some li) (hri : leafIdx q cs = some ri) :
    li ≠ ri := by
  rintro rfl
  obtain ⟨w,hw⟩ := leafIdx_get hli
  obtain ⟨w',hw'⟩ := leafIdx_get hri
  exact hne (LayoutNode.leaf.inj (Prod.mk.inj (Option.some.inj (hw.symm.trans hw'))).1)

/-- It depends on which of the children are the leaf. -/
theorem leafIdx_congr (h : children.map (fun c => c.1.isLeaf pane) =
    children'.map fun c => c.1.isLeaf pane) : leafIdx pane children = leafIdx pane children' := by
  induction children generalizing children' with
  | nil =>
    rw [List.map_nil,eq_comm,List.map_eq_nil_iff] at h
    rw [h]
  | cons c rest ih =>
    cases children' with
    | nil => cases h
    | cons c' rest' =>
      simp only [List.map_cons,List.cons.injEq] at h
      simp only [leafIdx,ih h.2,h.1]

@[simp] theorem map_fst_setPair (children : List (LayoutNode × UInt16)) (li ri : Nat)
    (newLeft newRight : UInt16) :
    (setPair children li ri newLeft newRight).map Prod.fst = children.map Prod.fst := by
  apply List.ext_getElem?
  intro i
  simp only [setPair,List.getElem?_map,List.getElem?_modify]
  split <;> split <;> cases children[i]? <;> rfl

theorem leafIdx_setPair (children : List (LayoutNode × UInt16)) (li ri : Nat)
    (newLeft newRight : UInt16) :
    leafIdx pane (setPair children li ri newLeft newRight) = leafIdx pane children := by
  apply leafIdx_congr
  have hfst := map_fst_setPair children li ri newLeft newRight
  have hleaves : ∀ l : List (LayoutNode × UInt16),
      l.map (fun c => c.1.isLeaf pane) = (l.map Prod.fst).map (isLeaf pane) := by
    intro l
    rw [List.map_map]
    rfl
  rw [hleaves,hleaves,hfst]

/-- The second setting of a pair is the one that stays. -/
theorem setPair_setPair (hne : li ≠ ri) :
    setPair (setPair children li ri a b) li ri c d = setPair children li ri c d := by
  apply List.ext_getElem?
  intro i
  simp only [setPair,List.getElem?_modify]
  by_cases hl : li = i
  · subst hl
    simp only [hne.symm,if_true,if_false]
    cases children[li]? <;> rfl
  · by_cases hr : ri = i
    · subst hr
      simp only [hne,if_true,if_false]
      cases children[ri]? <;> rfl
    · simp only [hl,hr,if_false]
      cases children[i]? <;> rfl

/-! Where the pair is found. -/

theorem siblings_split : Siblings p q (.split orient children) ↔
    (HasLeaf p children ∧ HasLeaf q children) ∨ ∃ c ∈ children, Siblings p q c.1 := by
  constructor
  · rintro ⟨o,cs,hsub,hboth⟩
    cases hsub with
    | refl => exact Or.inl hboth
    | child hmem hsub => exact Or.inr ⟨_,hmem,o,cs,hsub,hboth⟩
  · rintro (hboth | ⟨c,hc,o,cs,hsub,hboth⟩)
    · exact ⟨orient,children,.refl,hboth⟩
    · exact ⟨o,cs,.child hc hsub,hboth⟩

mutual

theorem applyWeightsForPair_eq_none : ∀ {tree : LayoutNode},
    applyWeightsForPair p q a b tree = none ↔ ¬Siblings p q tree
  | .leaf pane => by
    simp only [applyWeightsForPair,true_iff]
    rintro ⟨o,cs,hsub,-⟩
    cases hsub
  | .split orient children => by
    have hfirst : applyFirst p q a b children = none ↔ ∀ c ∈ children, ¬Siblings p q c.1 :=
      applyFirst_eq_none
    rw [applyWeightsForPair,siblings_split]
    split
    · rename_i li ri hli hri
      have hp : HasLeaf p children := by
        by_contra hn
        rw [leafIdx_eq_none.mpr hn] at hli
        cases hli
      have hq : HasLeaf q children := by
        by_contra hn
        rw [leafIdx_eq_none.mpr hn] at hri
        cases hri
      simp [hp,hq]
    · rename_i hnot
      have hboth : ¬(HasLeaf p children ∧ HasLeaf q children) := by
        rintro ⟨hp,hq⟩
        obtain ⟨li,hli⟩ := Option.ne_none_iff_exists'.mp fun hn => leafIdx_eq_none.mp hn hp
        obtain ⟨ri,hri⟩ := Option.ne_none_iff_exists'.mp fun hn => leafIdx_eq_none.mp hn hq
        exact hnot li ri hli hri
      simp [hboth,hfirst]

theorem applyFirst_eq_none : ∀ {children : List (LayoutNode × UInt16)},
    applyFirst p q a b children = none ↔ ∀ c ∈ children, ¬Siblings p q c.1
  | [] => by simp [applyFirst]
  | (child,weight) :: rest => by
    have hchild : applyWeightsForPair p q a b child = none ↔ ¬Siblings p q child :=
      applyWeightsForPair_eq_none
    have hrest : applyFirst p q a b rest = none ↔ ∀ c ∈ rest, ¬Siblings p q c.1 :=
      applyFirst_eq_none
    rw [List.forall_mem_cons,← hchild,← hrest,applyFirst]
    split
    · rename_i hs
      simp [hs]
    · rename_i hs
      simp [hs]

end

/-- Before the child where the pair is found no other has it. -/
theorem applyFirst_eq_some (h : applyFirst p q a b children = some children') :
    ∃ before t t' weight after, children = before ++ (t,weight) :: after ∧
      children' = before ++ (t',weight) :: after ∧ applyWeightsForPair p q a b t = some t' ∧
      ∀ c ∈ before, ¬Siblings p q c.1 := by
  induction children generalizing children' with
  | nil => cases h
  | cons c rest ih =>
    obtain ⟨child,weight⟩ := c
    rw [applyFirst] at h
    cases hchild : applyWeightsForPair p q a b child with
    | some child' =>
      rw [hchild] at h
      obtain rfl := Option.some.inj h
      exact ⟨[],child,child',weight,rest,rfl,rfl,hchild,by simp⟩
    | none =>
      rw [hchild] at h
      obtain ⟨rest',hrest,rfl⟩ := Option.map_eq_some_iff.mp h
      obtain ⟨before,t,t',w,after,rfl,rfl,ht,hbefore⟩ := ih hrest
      refine ⟨(child,weight) :: before,t,t',w,after,rfl,rfl,ht,?_⟩
      exact List.forall_mem_cons.mpr ⟨applyWeightsForPair_eq_none.mp hchild,hbefore⟩

theorem applyFirst_append {before after : List (LayoutNode × UInt16)} {weight : UInt16}
    (hbefore : ∀ c ∈ before, ¬Siblings p q c.1) (h : applyWeightsForPair p q a b t = some t') :
    applyFirst p q a b (before ++ (t,weight) :: after) =
      some (before ++ (t',weight) :: after) := by
  induction before with
  | nil => simp [applyFirst,h]
  | cons c before ih =>
    obtain ⟨child,w⟩ := c
    obtain ⟨hc,hbefore⟩ := List.forall_mem_cons.mp hbefore
    have hnone : applyWeightsForPair p q a b child = none := applyWeightsForPair_eq_none.mpr hc
    simp [applyFirst,hnone,ih hbefore]

theorem applyWeightsForPair_replaced (h : applyWeightsForPair p q a b tree = some tree') :
    ∃ o cs li ri, leafIdx p cs = some li ∧ leafIdx q cs = some ri ∧
      Replaced (.split o cs) (.split o (setPair cs li ri a b)) tree tree' := by
  induction tree using LayoutNode.induction generalizing tree' with
  | leaf pane => cases h
  | split orient children ih =>
    rw [applyWeightsForPair] at h
    split at h
    · rename_i li ri hli hri
      obtain rfl := Option.some.inj h
      exact ⟨orient,children,li,ri,hli,hri,.here⟩
    · obtain ⟨children',hfirst,rfl⟩ := Option.map_eq_some_iff.mp h
      obtain ⟨before,t,t',weight,after,rfl,rfl,ht,-⟩ := applyFirst_eq_some hfirst
      obtain ⟨o,cs,li,ri,hli,hri,hreplaced⟩ := ih (t,weight) (by simp) ht
      exact ⟨o,cs,li,ri,hli,hri,.inside hreplaced⟩

/-- It is never a leaf that is changed. -/
theorem isLeaf_applied (h : applyWeightsForPair p q a b tree = some tree') (pane : PaneId) :
    tree.isLeaf pane = false ∧ tree'.isLeaf pane = false := by
  cases tree with
  | leaf r => cases h
  | split orient children =>
    rw [applyWeightsForPair] at h
    split at h
    · obtain rfl := Option.some.inj h
      exact ⟨rfl,rfl⟩
    · obtain ⟨children',-,rfl⟩ := Option.map_eq_some_iff.mp h
      exact ⟨rfl,rfl⟩

/-- A second application finds the same pair, and makes of it what it makes of the tree. -/
theorem apply_applied (hne : p ≠ q) (h : applyWeightsForPair p q a b tree = some tree') :
    applyWeightsForPair p q c d tree' = applyWeightsForPair p q c d tree := by
  induction tree using LayoutNode.induction generalizing tree' with
  | leaf pane => cases h
  | split orient children ih =>
    rw [applyWeightsForPair] at h
    split at h
    · rename_i li ri hli hri
      obtain rfl := Option.some.inj h
      simp only [applyWeightsForPair,leafIdx_setPair,hli,hri,setPair_setPair (idx_ne hne hli hri)]
    · rename_i hnot
      obtain ⟨children',hfirst,rfl⟩ := Option.map_eq_some_iff.mp h
      obtain ⟨before,t,t',weight,after,rfl,rfl,ht,hbefore⟩ := applyFirst_eq_some hfirst
      have hidx : ∀ r, leafIdx r (before ++ (t',weight) :: after) =
          leafIdx r (before ++ (t,weight) :: after) := by
        intro r
        obtain ⟨hold,hnew⟩ := isLeaf_applied ht r
        apply leafIdx_congr
        simp [hold,hnew]
      have hsome : applyWeightsForPair p q c d t ≠ none := by
        rw [ne_eq,applyWeightsForPair_eq_none,
          ← applyWeightsForPair_eq_none (p := p) (q := q) (a := a) (b := b),ht]
        simp
      obtain ⟨u,hu⟩ := Option.ne_none_iff_exists'.mp hsome
      have hu' : applyWeightsForPair p q c d t' = some u := by
        rw [ih (t,weight) (by simp) ht,hu]
      simp only [applyWeightsForPair,hidx,applyFirst_append hbefore hu,
        applyFirst_append hbefore hu']

/-! What is replaced. -/

theorem Replaced.subtree (h : Replaced s s' t t') : Subtree s t ∧ Subtree s' t' := by
  induction h with
  | here => exact ⟨.refl,.refl⟩
  | inside h ih =>
    exact ⟨.child (List.mem_append_right _ List.mem_cons_self) ih.1,
      .child (List.mem_append_right _ List.mem_cons_self) ih.2⟩

theorem Replaced.eq_iff (h : Replaced s s' t t') : t' = t ↔ s' = s := by
  induction h with
  | here => rfl
  | inside h ih => simp [ih]

/-- Above what is replaced the weights are kept. -/
theorem Replaced.weighted (h : Replaced s s' t t') (ht : t.EachSplit Weighted)
    (hs : s'.EachSplit Weighted) : t'.EachSplit Weighted := by
  induction h with
  | here => exact hs
  | @inside o before after u u' weight h ih =>
    obtain ⟨hhere,hbelow⟩ := eachSplit_split.mp ht
    refine eachSplit_split.mpr ⟨?_,fun e he => ?_⟩
    · rw [weighted_iff] at hhere ⊢
      simpa using hhere
    · rcases List.mem_append.mp he with he | he
      · exact hbelow e (List.mem_append_left _ he)
      · rcases List.mem_cons.mp he with rfl | he
        · exact ih (hbelow _ (List.mem_append_right _ List.mem_cons_self))
        · exact hbelow e (by simp [he])

theorem eachSplit_subtree {P : List (LayoutNode × UInt16) → Prop} (h : t.EachSplit P)
    (hs : Subtree s t) : s.EachSplit P := by
  induction hs with
  | refl => exact h
  | child hmem _ ih => exact ih ((eachSplit_split.mp h).2 _ hmem)

/-- Below the tree's own split nothing changes that split's weights. -/
theorem Replaced.inner (h : Replaced s s' t t') (hne : t ≠ s) :
    ∃ o cs cs', t = .split o cs ∧ t' = .split o cs' ∧
      cs'.map Prod.snd = cs.map Prod.snd := by
  cases h with
  | here => exact absurd rfl hne
  | @inside o before after u u' weight h =>
    exact ⟨o,before ++ (u,weight) :: after,before ++ (u',weight) :: after,rfl,rfl,by simp⟩

/-- A leaf is a child of one split. -/
theorem parent_unique {o o' : Orient} (hnodup : tree.allLeaves.Nodup)
    (hs : Subtree (.split o cs) tree) (hs' : Subtree (.split o' cs') tree)
    (hp : HasLeaf p cs) (hp' : HasLeaf p cs') :
    LayoutNode.split o cs = .split o' cs' := by
  have hmem : ∀ {cs}, HasLeaf p cs → p ∈ leavesOf cs := by
    rintro cs ⟨w,hw⟩
    exact mem_leavesOf.mpr ⟨_,hw,by simp [allLeaves]⟩
  induction tree using LayoutNode.induction with
  | leaf pane => cases hs
  | split orient children ih =>
    rw [allLeaves] at hnodup
    -- of two children that have the leaf each is the other
    have honly : ∀ {d e : LayoutNode × UInt16}, d ∈ children → e ∈ children →
        p ∈ d.1.allLeaves → p ∈ e.1.allLeaves → d = e := by
      intro d e hd he hpd hpe
      obtain ⟨front,back,hsplit⟩ := List.append_of_mem hd
      obtain ⟨front',back',hsplit'⟩ := List.append_of_mem he
      rw [hsplit] at hnodup
      exact (child_unique hnodup hpd hpe (hsplit.symm.trans hsplit')).2.1
    have hleaf : p ∈ (LayoutNode.leaf p).allLeaves := by simp [allLeaves]
    cases hs with
    | refl =>
      cases hs' with
      | refl => rfl
      | child hd hsub =>
        obtain ⟨w,hw⟩ := hp
        cases honly hd hw (hsub.leaves (hmem hp')) hleaf
        cases hsub
    | child hd hsub =>
      cases hs' with
      | refl =>
        obtain ⟨w,hw⟩ := hp'
        cases honly hd hw (hsub.leaves (hmem hp)) hleaf
        cases hsub
      | child hd' hsub' =>
        cases honly hd hd' (hsub.leaves (hmem hp)) (hsub'.leaves (hmem hp'))
        exact ih _ hd (nodup_of_mem hnodup hd) hsub hsub'

/-! The split of the pair. -/

theorem split_at_two {α : Type*} {l : List α} {i j : Nat} {x y : α} (hi : l[i]? = some x)
    (hj : l[j]? = some y) (hlt : i < j) : ∃ front mid back, l = front ++ x :: (mid ++ y :: back) := by
  obtain ⟨hi',rfl⟩ := List.getElem?_eq_some_iff.mp hi
  obtain ⟨hj',rfl⟩ := List.getElem?_eq_some_iff.mp hj
  have hmem : l[j] ∈ l.drop (i+1) := by
    rw [List.mem_drop_iff_getElem]
    refine ⟨j-(i+1),by omega,?_⟩
    congr 1
    omega
  obtain ⟨mid,back,hrest⟩ := List.append_of_mem hmem
  refine ⟨l.take i,mid,back,?_⟩
  rw [← hrest]
  simp

/-- Two weights that make up a hundred leave nothing for a third. -/
theorem two_of_total {weights : List UInt16} (h : Normal weights) {x y : UInt16} {i j : Nat}
    (hi : weights[i]? = some x) (hj : weights[j]? = some y) (hne : i ≠ j)
    (hsum : x.toNat+y.toNat = 100) : weights.length = 2 := by
  have hnone : ∀ l : List UInt16, (∀ w ∈ l, w ∈ weights) → weightTotal l = 0 → l = [] := by
    intro l hl hzero
    cases l with
    | nil => rfl
    | cons w l =>
      have hfive := h.bounds w (hl w List.mem_cons_self)
      have hrest := weightTotal_nonneg l
      rw [weightTotal_cons] at hzero
      omega
  obtain ⟨front,mid,back,v,w,hsplit,hvw⟩ : ∃ front mid back v w,
      weights = front ++ v :: (mid ++ w :: back) ∧ v.toNat+w.toNat = 100 := by
    rcases Nat.lt_or_gt_of_ne hne with hlt | hlt
    · obtain ⟨front,mid,back,hsplit⟩ := split_at_two hi hj hlt
      exact ⟨front,mid,back,x,y,hsplit,hsum⟩
    · obtain ⟨front,mid,back,hsplit⟩ := split_at_two hj hi hlt
      exact ⟨front,mid,back,y,x,hsplit,by omega⟩
  have htotal := h.total
  rw [hsplit,weightTotal_append,weightTotal_cons,weightTotal_append,weightTotal_cons] at htotal
  have hfront := weightTotal_nonneg front
  have hmid := weightTotal_nonneg mid
  have hback := weightTotal_nonneg back
  have hfront' := hnone front (fun u hu => by simp [hsplit,hu]) (by omega)
  have hmid' := hnone mid (fun u hu => by simp [hsplit,hu]) (by omega)
  have hback' := hnone back (fun u hu => by simp [hsplit,hu]) (by omega)
  simp [hsplit,hfront',hmid',hback']

/-- A split of two that has both leaves has them in one order or the other. -/
theorem setPair_two (hne : p ≠ q) (hli : leafIdx p cs = some li) (hri : leafIdx q cs = some ri)
    (htwo : cs.length = 2) : ∃ wp wq,
      (cs = [(.leaf p,wp),(.leaf q,wq)] ∧ setPair cs li ri a b = [(.leaf p,a),(.leaf q,b)]) ∨
      (cs = [(.leaf q,wq),(.leaf p,wp)] ∧ setPair cs li ri a b = [(.leaf q,b),(.leaf p,a)]) := by
  obtain ⟨x,y,rfl⟩ := List.length_eq_two.mp htwo
  have hidx := idx_ne hne hli hri
  obtain ⟨wp,hp⟩ := leafIdx_get hli
  obtain ⟨wq,hq⟩ := leafIdx_get hri
  match li, ri with
  | 0, 0 => exact absurd rfl hidx
  | 0, 1 =>
    obtain rfl := Option.some.inj hp
    obtain rfl := Option.some.inj hq
    exact ⟨wp,wq,Or.inl ⟨rfl,rfl⟩⟩
  | 1, 0 =>
    obtain rfl := Option.some.inj hp
    obtain rfl := Option.some.inj hq
    exact ⟨wp,wq,Or.inr ⟨rfl,rfl⟩⟩
  | 1, 1 => exact absurd rfl hidx
  | k+2, _ => simp at hp
  | _, k+2 => simp at hq

/-- With the pair at a hundred the split is as the module allows it just where it has no other
child. -/
theorem weighted_setPair_iff (hne : p ≠ q) (h : (LayoutNode.split orient cs).EachSplit Weighted)
    (hli : leafIdx p cs = some li) (hri : leafIdx q cs = some ri) (hab : Shares a b) :
    (LayoutNode.split orient (setPair cs li ri a b)).EachSplit Weighted ↔ cs.length = 2 := by
  have hidx := idx_ne hne hli hri
  obtain ⟨wp,hp⟩ := leafIdx_get hli
  obtain ⟨wq,hq⟩ := leafIdx_get hri
  constructor
  · intro hset
    have hnormal := weighted_iff.mp (eachSplit_split.mp hset).1
    have hleft : ((setPair cs li ri a b).map Prod.snd)[li]? = some a := by
      simp [setPair,hidx.symm,hp]
    have hright : ((setPair cs li ri a b).map Prod.snd)[ri]? = some b := by
      simp [setPair,hidx,hq]
    have htwo := two_of_total hnormal hleft hright hidx hab.sum
    simpa [setPair] using htwo
  · intro htwo
    obtain ⟨-,hbelow⟩ := eachSplit_split.mp h
    obtain ⟨hsum,ha,hb⟩ := hab
    obtain ⟨wp,wq,⟨-,hset⟩ | ⟨-,hset⟩⟩ := setPair_two (a := a) (b := b) hne hli hri htwo
    all_goals
      rw [hset]
      refine eachSplit_split.mpr ⟨⟨by simp,by simp [ha,hb],?_⟩,by simp [eachSplit_leaf]⟩
      simp [totalWeight]
      omega

/-- The two are all that their split has. -/
def Coupled (tree : LayoutNode) (p q : PaneId) : Prop :=
  ∃ orient children, Subtree (.split orient children) tree ∧ children.length = 2 ∧
    HasLeaf p children ∧ HasLeaf q children

/-- The two are all that their split has, with these weights. -/
def Holds (tree : LayoutNode) (p q : PaneId) (wp wq : UInt16) : Prop :=
  ∃ orient children, Subtree (.split orient children) tree ∧ children.length = 2 ∧
    (.leaf p,wp) ∈ children ∧ (.leaf q,wq) ∈ children

theorem Holds.coupled (h : Holds tree p q a b) : Coupled tree p q := by
  obtain ⟨o,cs,hs,hlen,hp,hq⟩ := h
  exact ⟨o,cs,hs,hlen,⟨a,hp⟩,⟨b,hq⟩⟩

theorem Coupled.siblings (h : Coupled tree p q) : Siblings p q tree := by
  obtain ⟨o,cs,hs,-,hp,hq⟩ := h
  exact ⟨o,cs,hs,hp,hq⟩

theorem hasLeaf_of_idx (h : leafIdx p cs = some i) : HasLeaf p cs := by
  obtain ⟨w,hw⟩ := leafIdx_get h
  exact ⟨w,List.mem_of_getElem? hw⟩

/-- What was found is the split that has the pair. -/
theorem coupled_iff (hnodup : tree.allLeaves.Nodup) (hs : Subtree (.split orient cs) tree)
    (hp : HasLeaf p cs) (hq : HasLeaf q cs) : Coupled tree p q ↔ cs.length = 2 := by
  constructor
  · rintro ⟨o,cs',hs',htwo,hp',-⟩
    obtain ⟨-,rfl⟩ := LayoutNode.split.inj (parent_unique hnodup hs hs' hp hp')
    exact htwo
  · intro htwo
    exact ⟨orient,cs,hs,htwo,hp,hq⟩

theorem weighted_applied_iff (hne : p ≠ q) (h : tree.EachSplit Weighted)
    (hnodup : tree.allLeaves.Nodup) (hab : Shares a b)
    (happly : applyWeightsForPair p q a b tree = some tree') :
    tree'.EachSplit Weighted ↔ Coupled tree p q := by
  obtain ⟨o,cs,li,ri,hli,hri,hreplaced⟩ := applyWeightsForPair_replaced happly
  obtain ⟨hold,hnew⟩ := hreplaced.subtree
  have hset := weighted_setPair_iff hne (eachSplit_subtree h hold) hli hri hab
  rw [coupled_iff hnodup hold (hasLeaf_of_idx hli) (hasLeaf_of_idx hri),← hset]
  exact ⟨fun ht => eachSplit_subtree ht hnew,hreplaced.weighted h⟩

/-- The pair is left as it is just where it has these weights. -/
theorem applied_eq_iff (hne : p ≠ q) (hnodup : tree.allLeaves.Nodup) (hcoupled : Coupled tree p q)
    (happly : applyWeightsForPair p q a b tree = some tree') :
    tree' = tree ↔ Holds tree p q a b := by
  obtain ⟨o,cs,li,ri,hli,hri,hreplaced⟩ := applyWeightsForPair_replaced happly
  obtain ⟨hold,-⟩ := hreplaced.subtree
  have hp := hasLeaf_of_idx hli
  have htwo := (coupled_iff hnodup hold hp (hasLeaf_of_idx hri)).mp hcoupled
  have hholds : Holds tree p q a b ↔ (.leaf p,a) ∈ cs ∧ (.leaf q,b) ∈ cs := by
    constructor
    · rintro ⟨o',cs',hs',-,ha,hb⟩
      obtain ⟨-,rfl⟩ := LayoutNode.split.inj (parent_unique hnodup hold hs' hp ⟨a,ha⟩)
      exact ⟨ha,hb⟩
    · rintro ⟨ha,hb⟩
      exact ⟨o,cs,hold,htwo,ha,hb⟩
  rw [hreplaced.eq_iff,hholds]
  obtain ⟨wp,wq,⟨rfl,hset⟩ | ⟨rfl,hset⟩⟩ := setPair_two (a := a) (b := b) hne hli hri htwo
  · rw [hset]
    simp [hne,hne.symm]
  · rw [hset]
    simp [hne,hne.symm,and_comm]

theorem shares_of_weighted (h : Weighted [(s,a),(t,b)]) : Shares a b := by
  obtain ⟨-,hbounds,htotal⟩ := h
  rw [List.forall_mem_cons,List.forall_mem_cons] at hbounds
  exact ⟨by simpa [totalWeight] using htotal,hbounds.1,hbounds.2.1⟩

/-- In a tree of the two alone the daemon sets what is shown. -/
theorem applied_root (hne : p ≠ q) (h : (LayoutNode.split orient cs).EachSplit Weighted)
    (htwo : cs.length = 2) (hp : HasLeaf p cs) (hq : HasLeaf q cs) (hab : Shares a b) :
    applyWeightsForPair p q a b (.split orient cs) = some ((split orient cs).setWeight p a) := by
  obtain ⟨li,hli⟩ := Option.ne_none_iff_exists'.mp fun hn => leafIdx_eq_none.mp hn hp
  obtain ⟨ri,hri⟩ := Option.ne_none_iff_exists'.mp fun hn => leafIdx_eq_none.mp hn hq
  have hclamped : clampWeight a.toNat = a := by
    have hclamp := toNat_clampWeight (a.toNat : Int)
    have hbounds := hab.left
    rw [← UInt16.toNat_inj]
    omega
  have hweights := (eachSplit_split.mp h).1
  have hrest : ∀ {c : UInt16}, Shares a c → c = b := by
    intro c hac
    have hsum := hab.sum
    have hsum' := hac.sum
    rw [← UInt16.toNat_inj]
    omega
  have hleaf : p ∈ (LayoutNode.leaf p).allLeaves := by simp [allLeaves]
  simp only [applyWeightsForPair,hli,hri]
  obtain ⟨wp,wq,⟨rfl,hset⟩ | ⟨rfl,hset⟩⟩ := setPair_two (a := a) (b := b) hne hli hri htwo
  · obtain ⟨c,hac,hserved⟩ := setWeight_left orient (.leaf q) (shares_of_weighted hweights) hleaf a
    rw [hclamped] at hac hserved
    rw [hset,hserved,hrest hac]
  · have hnot : p ∉ (LayoutNode.leaf q).allLeaves := by simp [allLeaves,hne]
    obtain ⟨c,hac,hserved⟩ := setWeight_right orient (shares_of_weighted hweights) hnot hleaf a
    rw [hclamped] at hac hserved
    rw [hset,hserved,hrest hac.symm]

/-- Anywhere else both leave the tree as it is, if they make the same of it. -/
theorem applied_inner (hinner : ∀ o cs, tree = .split o cs → ¬HasLeaf p cs)
    (hp : p ∈ tree.allLeaves) (happly : applyWeightsForPair p q a b tree = some tree') :
    tree.setWeight p a = tree' ↔ tree' = tree ∧ tree.setWeight p a = tree := by
  constructor
  · intro hsame
    obtain ⟨o,cs,li,ri,hli,hri,hreplaced⟩ := applyWeightsForPair_replaced happly
    have hroot : tree ≠ .split o cs := fun heq => hinner o cs heq (hasLeaf_of_idx hli)
    obtain ⟨o',ds,ds',rfl,rfl,hsnd⟩ := hreplaced.inner hroot
    obtain ⟨front,child,w,back,-,-,-,hset⟩ := setWeight_target hp o' a
    rw [hset] at hsame
    have hfst := congrArg (List.map Prod.fst) (LayoutNode.split.inj hsame).2
    rw [List.map_fst_zip (by simp [length_reweigh])] at hfst
    have hchildren : ds' = ds := by
      rw [← List.zip_unzip ds',← List.zip_unzip ds]
      simp only [List.unzip_fst,List.unzip_snd,hfst,hsnd]
    rw [hchildren] at hsame ⊢
    exact ⟨rfl,hset.trans hsame⟩
  · rintro ⟨rfl,hkept⟩
    exact hkept

end Pyre.Gpu
