import Pyre.Layout.Weights

/-!
When `set_weight` leaves a tree as it is: its own split has the weight already, or the siblings
have nothing to give for a greater one.
-/

set_option autoImplicit false

namespace Pyre
namespace LayoutNode

/-- The last sibling is at the least weight, and each of the others is too, or its part of the
amount is less than one. -/
def Exhausted (siblings : List UInt16) (amount : Nat) : Prop :=
  siblings.getLast? = some 5 ∧ ∀ w ∈ siblings.dropLast, w = 5 ∨ part siblings amount w = 0

/-- Of the tree's own split, the child that the pane is below has the weight, or less and its
siblings have nothing to give. -/
def Unmoved (tree : LayoutNode) (pane : PaneId) (weight : UInt16) : Prop :=
  ∃ orient before child w after, tree = .split orient (before ++ (child,w) :: after) ∧
    pane ∈ child.allLeaves ∧ (weight = w ∨ w.toNat < weight.toNat ∧
      Exhausted ((before ++ after).map Prod.snd) (weight.toNat-w.toNat))

variable {before after siblings : List UInt16} {c weight : UInt16} {adjust : UInt16 → UInt16}

theorem eq_five_iff {w : UInt16} : w = 5 ↔ w.toNat = 5 := by
  rw [← UInt16.toNat_inj]
  rfl

/-- The siblings stay as they are just where there is nothing to be taken of them. -/
theorem settle_eq_iff (hsome : siblings ≠ [])
    (hbounds : ∀ w ∈ siblings, 5 ≤ w.toNat ∧ w.toNat ≤ 95) {amount : Nat} (hpos : 0 < amount)
    (hadjust : ∀ w, adjust w = clampWeight
      ((w.toNat : Int)+((w.toNat : Int)*(-amount)).tdiv (max (weightTotal siblings) 1))) :
    settle adjust (-amount) siblings = siblings ↔ Exhausted siblings amount := by
  obtain ⟨l,x,hconcat⟩ := (List.eq_nil_or_concat' siblings).resolve_left hsome
  have hx : x ∈ siblings := by simp [hconcat]
  have hxfive := hbounds x hx
  have htotal : 0 < weightTotal siblings := by
    have hle := le_weightTotal hx
    omega
  have hkept : ∀ w ∈ siblings, adjust w = w ↔ w = 5 ∨ part siblings amount w = 0 := by
    intro w hw
    have hclamp := toNat_clampWeight ((w.toNat : Int)+-part siblings amount w)
    have hfive := hbounds w hw
    rw [hadjust,Int.mul_neg,Int.neg_tdiv,tdiv_part htotal,← UInt16.toNat_inj,eq_five_iff]
    omega
  have hall : l.map adjust = l ↔ ∀ w ∈ l, w = 5 ∨ part siblings amount w = 0 := by
    have hself : l.map adjust = l ↔ ∀ w ∈ l, adjust w = w := by
      simpa using List.map_inj_left (f := adjust) (g := id) (l := l)
    rw [hself]
    refine forall₂_congr fun w hw => hkept w ?_
    simp [hconcat,hw]
  have hexhausted : Exhausted siblings amount ↔
      x = 5 ∧ ∀ w ∈ l, w = 5 ∨ part siblings amount w = 0 := by
    rw [Exhausted]
    simp [hconcat]
  have hsettle : settle adjust (-amount) (l ++ [x]) = _ := settle_concat l x (-amount)
  rw [← hconcat] at hsettle
  rw [hexhausted,← hall,hsettle]
  have hlast := toNat_clampWeight (((adjust x).toNat : Int)+
    (-amount-(weightTotal (siblings.map adjust)-weightTotal siblings)))
  have hsplit : weightTotal (siblings.map adjust) =
      weightTotal (l.map adjust)+(adjust x).toNat := by simp [hconcat]
  have hsplit' : weightTotal siblings = weightTotal l+x.toNat := by simp [hconcat]
  constructor
  · intro h
    obtain ⟨hl,hlast'⟩ := List.append_inj' (h.trans hconcat) rfl
    rw [List.singleton_inj,← UInt16.toNat_inj] at hlast'
    refine ⟨?_,hl⟩
    rw [hl] at hsplit
    rw [eq_five_iff]
    omega
  · rintro ⟨rfl,hl⟩
    have hvalue : (5 : UInt16).toNat = 5 := rfl
    have hfive : clampWeight (((adjust 5).toNat : Int)+
        (-amount-(weightTotal (siblings.map adjust)-weightTotal siblings))) = 5 := by
      rw [hl] at hsplit
      rw [← UInt16.toNat_inj]
      omega
    rw [hl,hfive,hconcat]

/-- The weights of a split stay as they are. -/
theorem reweigh_eq_iff (h : Normal (before ++ c :: after)) (hlow : 5 ≤ weight.toNat)
    (hhigh : weight.toNat ≤ 95) :
    reweigh (before ++ c :: after) before.length weight = before ++ c :: after ↔
      weight = c ∨ c.toNat < weight.toNat ∧
        Exhausted (before ++ after) (weight.toNat-c.toNat) := by
  have hclamped : clampWeight weight.toNat = weight := by
    have hclamp := toNat_clampWeight (weight.toNat : Int)
    rw [← UInt16.toNat_inj]
    omega
  by_cases hsame : weight = c
  · rw [reweigh_same (hclamped.trans hsame)]
    simp [hsame]
  rw [or_iff_right hsame]
  obtain ⟨before',after',filled,hbefore,hafter,hsettle,hfilled,heq,-⟩ :=
    reweigh_split h (by rwa [hclamped] : clampWeight weight.toNat ≠ c)
  rw [hclamped] at hsettle
  obtain ⟨hsiblings,hsome,hsum⟩ := siblings_bounds h
  have hunchanged : reweigh (before ++ c :: after) before.length weight = before ++ c :: after ↔
      before' ++ after' = before ++ after := by
    rw [heq]
    constructor
    · intro hall
      obtain ⟨rfl,hrest⟩ := List.append_inj hall hbefore
      obtain ⟨-,rfl⟩ := List.cons.inj hrest
      rfl
    · intro hall
      obtain ⟨rfl,rfl⟩ := List.append_inj hall hbefore
      have hc : filled = c := by
        rw [← UInt16.toNat_inj]
        omega
      rw [hc]
  have hne : weight.toNat ≠ c.toNat := by
    rwa [ne_eq,UInt16.toNat_inj]
  rw [hunchanged,hsettle]
  rcases Nat.lt_or_gt_of_ne hne with hlt | hlt
  · -- the siblings grow by what the target loses
    obtain ⟨amount,hamount⟩ := Int.eq_ofNat_of_zero_le (a := -((weight.toNat : Int)-c.toNat))
      (by omega)
    have hfit : weightTotal (before ++ after)+(amount : Int) ≤ 95 := by omega
    have hgrow := (settle_grow hsome hsiblings hfit fun w => rfl).2
    rw [hamount]
    constructor
    · intro hall
      rw [hall] at hgrow
      omega
    · rintro ⟨hgt,-⟩
      omega
  · rw [and_iff_right hlt]
    obtain ⟨amount,hamount⟩ : ∃ amount : Nat, amount = weight.toNat-c.toNat := ⟨_,rfl⟩
    have hneg : -((weight.toNat : Int)-c.toNat) = -(amount : Int) := by omega
    rw [hneg,← hamount]
    exact settle_eq_iff hsome hsiblings (by omega) fun w => rfl

variable {tree : LayoutNode} {pane : PaneId} {orient : Orient}
  {children : List (LayoutNode × UInt16)}

/-- The children of the tree's own split stay, and one of them is the target. -/
theorem setWeight_target (hp : pane ∈ leavesOf children) (orient : Orient) (weight : UInt16) :
    ∃ front child w back, children = front ++ (child,w) :: back ∧ pane ∈ child.allLeaves ∧
      (∀ d ∈ front, pane ∉ d.1.allLeaves) ∧
      (split orient children).setWeight pane weight =
        .split orient ((children.map Prod.fst).zip
          (reweigh (children.map Prod.snd) front.length weight)) := by
  obtain ⟨idx,hidx⟩ := exists_findIdx hp
  obtain ⟨hlt,hat,hbefore⟩ := List.findIdx?_eq_some_iff_getElem.mp hidx
  have hlen : (children.take idx).length = idx := by
    simp
    omega
  refine ⟨children.take idx,children[idx].1,children[idx].2,children.drop (idx+1),?_,
    by simpa using hat,fun d hd => ?_,?_⟩
  · simp
  · obtain ⟨j,hj,rfl⟩ := List.mem_take_iff_getElem.mp hd
    simpa using hbefore j (by omega)
  · rw [hlen]
    simp [setWeight,setWeightInner,hidx]

/-- A pane is below one child of a split. -/
theorem child_unique {front back front' back' : List (LayoutNode × UInt16)}
    {c c' : LayoutNode × UInt16} (hnodup : (leavesOf (front ++ c :: back)).Nodup)
    (hc : pane ∈ c.1.allLeaves) (hc' : pane ∈ c'.1.allLeaves)
    (heq : front ++ c :: back = front' ++ c' :: back') : front = front' ∧ c = c' ∧ back = back' := by
  induction front generalizing front' with
  | nil =>
    rw [List.nil_append] at heq hnodup
    cases front' with
    | nil =>
      obtain ⟨rfl,rfl⟩ := List.cons.inj heq
      exact ⟨rfl,rfl,rfl⟩
    | cons d front' =>
      obtain ⟨rfl,rfl⟩ := List.cons.inj heq
      rw [leavesOf,List.nodup_append] at hnodup
      exact absurd rfl (hnodup.2.2 pane hc pane (mem_leavesOf.mpr ⟨c',by simp,hc'⟩))
  | cons d front ih =>
    rw [List.cons_append] at heq hnodup
    rw [leavesOf,List.nodup_append] at hnodup
    cases front' with
    | nil =>
      obtain ⟨rfl,rfl⟩ := List.cons.inj heq
      exact absurd rfl (hnodup.2.2 pane hc' pane (mem_leavesOf.mpr ⟨c,by simp,hc⟩))
    | cons d' front' =>
      rw [List.cons_append,List.cons.injEq] at heq
      obtain ⟨rfl,heq⟩ := heq
      obtain ⟨rfl,rfl,rfl⟩ := ih hnodup.2.1 heq
      exact ⟨rfl,rfl,rfl⟩

/-- A tree whose splits are as the module allows them. -/
theorem setWeight_eq_iff (h : tree.EachSplit Weighted) (hnodup : tree.allLeaves.Nodup)
    (hp : pane ∈ tree.allLeaves) (hsplit : tree ≠ .leaf pane) (hlow : 5 ≤ weight.toNat)
    (hhigh : weight.toNat ≤ 95) : tree.setWeight pane weight = tree ↔ tree.Unmoved pane weight := by
  cases tree with
  | leaf q =>
    rw [allLeaves,List.mem_singleton] at hp
    exact absurd (congrArg LayoutNode.leaf hp.symm) hsplit
  | split orient children =>
    obtain ⟨front,child,w,back,rfl,hchild,-,hset⟩ := setWeight_target hp orient weight
    have hnormal := weighted_iff.mp (eachSplit_split.mp h).1
    have hnormal' : Normal (front.map Prod.snd ++ w :: back.map Prod.snd) := by
      simpa using hnormal
    have hiff := reweigh_eq_iff hnormal' hlow hhigh
    have hsame : (split orient (front ++ (child,w) :: back)).setWeight pane weight =
        .split orient (front ++ (child,w) :: back) ↔
        reweigh ((front ++ (child,w) :: back).map Prod.snd) front.length weight =
          (front ++ (child,w) :: back).map Prod.snd := by
      rw [hset]
      constructor
      · intro heq
        have hsnd := congrArg (List.map Prod.snd) (LayoutNode.split.inj heq).2
        rwa [List.map_snd_zip (by simp [length_reweigh])] at hsnd
      · intro heq
        rw [heq,← List.unzip_fst,← List.unzip_snd,List.zip_unzip]
    rw [hsame]
    simp only [List.map_append,List.map_cons]
    rw [List.length_map] at hiff
    rw [hiff,← List.map_append]
    constructor
    · intro hstay
      exact ⟨orient,front,child,w,back,rfl,hchild,hstay⟩
    · rintro ⟨o,front',child',w',back',heq,hchild',hstay⟩
      obtain ⟨-,heq⟩ := LayoutNode.split.inj heq
      obtain ⟨hfront,hc,hback⟩ := child_unique hnodup hchild hchild' heq
      obtain ⟨rfl,rfl⟩ := Prod.mk.inj hc
      rwa [hfront,hback]

end LayoutNode

end Pyre
