import Pyre.Base.Portions
import Pyre.Layout.Closing

/-!
What `set_weight` makes of the weights of a split with any number of children. The siblings take
the change in proportion, the last of them what rounding leaves over, and the target what they
could not take; they are never more than a hundred less the target's least.
-/

set_option autoImplicit false

namespace Pyre
open Base

namespace LayoutNode

def weightTotal (weights : List UInt16) : Int := (weights.map fun w => (w.toNat : Int)).sum

/-- The siblings after each is adjusted and the last has taken the rest of the change. -/
def settle (adjust : UInt16 → UInt16) (change : Int) (siblings : List UInt16) : List UInt16 :=
  (siblings.map adjust).modify (siblings.length-1) fun w => clampWeight
    ((w.toNat : Int)+(change-(weightTotal (siblings.map adjust)-weightTotal siblings)))

/-- The weights of a split as the module allows them. -/
structure Normal (weights : List UInt16) : Prop where
  two : 2 ≤ weights.length
  bounds : ∀ w ∈ weights, 5 ≤ w.toNat ∧ w.toNat ≤ 95
  total : weightTotal weights = 100

variable {weights before after siblings : List UInt16} {c : UInt16} {adjust : UInt16 → UInt16}

/-! Sums of weights. -/

@[simp] theorem weightTotal_nil : weightTotal [] = 0 := rfl

@[simp] theorem weightTotal_cons (w : UInt16) (weights : List UInt16) :
    weightTotal (w :: weights) = w.toNat+weightTotal weights := rfl

@[simp] theorem weightTotal_append (before after : List UInt16) :
    weightTotal (before ++ after) = weightTotal before+weightTotal after := by
  simp [weightTotal]

theorem weightTotal_nonneg (weights : List UInt16) : 0 ≤ weightTotal weights := by
  induction weights with
  | nil => simp
  | cons w weights ih =>
    rw [weightTotal_cons]
    omega

theorem le_weightTotal {w : UInt16} (h : w ∈ weights) : (w.toNat : Int) ≤ weightTotal weights := by
  induction weights with
  | nil => cases h
  | cons v weights ih =>
    have hrest := weightTotal_nonneg weights
    rw [weightTotal_cons]
    rcases List.mem_cons.mp h with rfl | h
    · omega
    · have hle := ih h
      omega

theorem toNat_sum (h : weightTotal weights < 2^16) :
    (weights.sum.toNat : Int) = weightTotal weights := by
  induction weights with
  | nil => rfl
  | cons w weights ih =>
    rw [weightTotal_cons] at h ⊢
    have hrest := ih (by omega)
    rw [List.sum_cons,UInt16.toNat_add]
    omega

/-! The loop over the siblings. -/

theorem map_getD_range (weights : List UInt16) (f : UInt16 → Int) :
    (List.range weights.length).map (fun i => f (weights[i]?.getD 0)) = weights.map f := by
  apply List.ext_getElem
  · simp
  · intro i hi hi'
    have hlt : i < weights.length := by simpa using hi
    simp [hlt]

theorem filter_range (a b : Nat) : (List.range (b+1+a)).filter (· ≠ b) =
    List.range b ++ (List.range a).map (b+1+·) := by
  rw [List.range_add,List.range_succ,List.filter_append,List.filter_append]
  have hlow : (List.range b).filter (· ≠ b) = List.range b := by
    apply List.filter_eq_self.mpr
    intro i hi
    have hlt := List.mem_range.mp hi
    simp
    omega
  have hhigh : ((List.range a).map (b+1+·)).filter (· ≠ b) = (List.range a).map (b+1+·) := by
    apply List.filter_eq_self.mpr
    intro i hi
    obtain ⟨j,-,rfl⟩ := List.mem_map.mp hi
    simp
    omega
  rw [hlow,hhigh]
  simp

theorem modify_length {α : Type*} (front : List α) (x : α) (back : List α) (f : α → α) :
    (front ++ x :: back).modify front.length f = front ++ f x :: back := by
  induction front with
  | nil => simp
  | cons y front ih => simp [ih]

theorem settle_concat (l : List UInt16) (x : UInt16) (change : Int) :
    settle adjust change (l ++ [x]) = l.map adjust ++ [clampWeight (((adjust x).toNat : Int)+
      (change-(weightTotal ((l ++ [x]).map adjust)-weightTotal (l ++ [x]))))] := by
  have hlast : (l ++ [x]).length-1 = (l.map adjust).length := by simp
  rw [settle,hlast]
  generalize change-(weightTotal ((l ++ [x]).map adjust)-weightTotal (l ++ [x])) = rest
  rw [List.map_append,List.map_singleton,modify_length]

theorem length_settle (change : Int) (siblings : List UInt16) :
    (settle adjust change siblings).length = siblings.length := by simp [settle]

/-- All but the one at `before.length` are adjusted. -/
theorem mapIdx_adjust (before after : List UInt16) (c : UInt16) :
    (before ++ c :: after).mapIdx (fun i w => if i = before.length then w else adjust w) =
      before.map adjust ++ c :: after.map adjust := by
  have hfront : before.mapIdx (fun i w => if i = before.length then w else adjust w) =
      before.map adjust := by
    apply List.ext_getElem
    · simp
    · intro i hi hi'
      have hlt : i < before.length := by simpa using hi
      simp [hlt.ne]
  have hback : after.mapIdx (fun i w => if i+1+before.length = before.length then w else adjust w) =
      after.map adjust := by
    apply List.ext_getElem
    · simp
    · intro i hi hi'
      simp
  rw [List.mapIdx_append,List.mapIdx_cons,hfront,hback]
  simp

/-- What the siblings have been given together. -/
theorem sum_given (before after : List UInt16) (c : UInt16) :
    (((List.range (before ++ c :: after).length).filter (· ≠ before.length)).map fun i =>
      ((((before.map adjust ++ c :: after.map adjust)[i]?.getD 0).toNat : Int)-
        (((before ++ c :: after)[i]?.getD 0).toNat : Int))).sum =
      weightTotal ((before ++ after).map adjust)-weightTotal (before ++ after) := by
  have hlen : (before ++ c :: after).length = before.length+1+after.length := by
    simp
    omega
  have hdiff : ∀ l : List UInt16,
      (l.map fun w => ((adjust w).toNat : Int)-(w.toNat : Int)).sum =
        weightTotal (l.map adjust)-weightTotal l := by
    intro l
    induction l with
    | nil => rfl
    | cons w l ih =>
      simp only [List.map_cons,List.sum_cons,weightTotal_cons,ih]
      omega
  have hfront : (List.range before.length).map (fun i =>
      ((((before.map adjust ++ c :: after.map adjust)[i]?.getD 0).toNat : Int)-
        (((before ++ c :: after)[i]?.getD 0).toNat : Int))) =
      before.map fun w => ((adjust w).toNat : Int)-(w.toNat : Int) := by
    rw [← map_getD_range before]
    apply List.map_congr_left
    intro i hi
    have hlt := List.mem_range.mp hi
    simp [List.getElem?_append_left,hlt]
  have hback : (List.range after.length).map (fun j =>
      ((((before.map adjust ++ c :: after.map adjust)[before.length+1+j]?.getD 0).toNat : Int)-
        (((before ++ c :: after)[before.length+1+j]?.getD 0).toNat : Int))) =
      after.map fun w => ((adjust w).toNat : Int)-(w.toNat : Int) := by
    rw [← map_getD_range after]
    apply List.map_congr_left
    intro j hj
    have hlt := List.mem_range.mp hj
    have hidx : before.length+1+j = before.length+(j+1) := by omega
    rw [hidx,List.getElem?_append_right (by simp),List.getElem?_append_right (by omega)]
    simp [hlt]
  rw [hlen,filter_range,List.map_append,List.map_map,List.sum_append,hfront]
  have hback' := congrArg List.sum hback
  simp only [Function.comp_def]
  rw [hback',hdiff,hdiff,List.map_append,weightTotal_append,weightTotal_append]
  omega

theorem rebalance_split (c : UInt16) (delta total : Int) (hsome : before ++ after ≠ []) :
    ∃ before' after', rebalanceSiblings (before ++ c :: after) before.length delta total =
        before' ++ c :: after' ∧
      before'.length = before.length ∧ after'.length = after.length ∧
      before' ++ after' = settle (fun w => clampWeight
        ((w.toNat : Int)+((w.toNat : Int)*(-delta)).tdiv (max total 1))) (-delta)
          (before ++ after) := by
  have hlen : (before ++ c :: after).length = before.length+1+after.length := by
    simp
    omega
  simp only [rebalanceSiblings,mapIdx_adjust,sum_given]
  set adjust : UInt16 → UInt16 := fun w => clampWeight
    ((w.toNat : Int)+((w.toNat : Int)*(-delta)).tdiv (max total 1)) with hadjust
  generalize hrest : -delta-(weightTotal ((before ++ after).map adjust)-
    weightTotal (before ++ after)) = rest
  rw [hlen,filter_range]
  rcases List.eq_nil_or_concat' after with rfl | ⟨l,x,rfl⟩
  · obtain ⟨l,x,rfl⟩ := (List.eq_nil_or_concat' before).resolve_left (by simpa using hsome)
    have hlast : (List.range (l ++ [x]).length ++
        (List.range ([] : List UInt16).length).map ((l ++ [x]).length+1+·)).getLast? =
        some (l.map adjust).length := by simp [List.getLast?_range]
    have hmodify := modify_length (l.map adjust) (adjust x) [c]
      fun w => clampWeight ((w.toNat : Int)+rest)
    refine ⟨settle adjust (-delta) (l ++ [x]),[],?_,length_settle _ _,rfl,by simp⟩
    rw [List.append_nil] at hrest
    rw [hlast,settle_concat,hrest]
    simpa using hmodify
  · have hlast : (List.range before.length ++
        (List.range (l ++ [x]).length).map (before.length+1+·)).getLast? =
        some (before.map adjust ++ c :: l.map adjust).length := by
      simp [List.getLast?_range]
      omega
    have hmodify := modify_length (before.map adjust ++ c :: l.map adjust) (adjust x) []
      fun w => clampWeight ((w.toNat : Int)+rest)
    refine ⟨before.map adjust,l.map adjust ++ [clampWeight ((adjust x).toNat+rest)],?_,
      List.length_map _,by simp,?_⟩
    · rw [hlast]
      simpa using hmodify
    · rw [← List.append_assoc before,settle_concat,List.append_assoc before,hrest]
      simp

/-! What the siblings take of the change. -/

/-- A sibling's part of a change by so much. -/
def part (siblings : List UInt16) (amount : Nat) (w : UInt16) : Nat :=
  portion amount (siblings.map UInt16.toNat).sum w.toNat

theorem weightTotal_eq_sum (weights : List UInt16) :
    weightTotal weights = ((weights.map UInt16.toNat).sum : Nat) := by
  induction weights with
  | nil => rfl
  | cons w weights ih => simp [ih]

theorem tdiv_part (h : 0 < weightTotal siblings) (amount : Nat) (w : UInt16) :
    ((w.toNat : Int)*amount).tdiv (max (weightTotal siblings) 1) = part siblings amount w := by
  have hmax : max (weightTotal siblings) 1 = weightTotal siblings := by omega
  rw [hmax,weightTotal_eq_sum,part,portion,Nat.mul_comm amount]
  exact Int.ofNat_tdiv _ _

theorem sum_parts_le (siblings : List UInt16) (amount : Nat) :
    (siblings.map (part siblings amount)).sum ≤ amount := by
  have hsum := sum_portions_le (Nat.le_refl (siblings.map UInt16.toNat).sum) amount
  rwa [List.map_map] at hsum

theorem part_le {w : UInt16} (h : w ∈ siblings) (amount : Nat) :
    part siblings amount w ≤ amount := portion_le (List.le_sum_of_mem (List.mem_map_of_mem h)) _

theorem weightTotal_map_add {given : UInt16 → Nat} (weights : List UInt16)
    (h : ∀ w ∈ weights, (adjust w).toNat = w.toNat+given w) :
    weightTotal (weights.map adjust) = weightTotal weights+((weights.map given).sum : Nat) := by
  induction weights with
  | nil => rfl
  | cons w weights ih =>
    obtain ⟨hw,hrest⟩ := List.forall_mem_cons.mp h
    simp only [List.map_cons,weightTotal_cons,List.sum_cons,ih hrest,hw]
    omega

theorem weightTotal_map_sub {taken : UInt16 → Nat} (weights : List UInt16)
    (h : ∀ w ∈ weights, (adjust w).toNat ≤ w.toNat ∧ w.toNat ≤ (adjust w).toNat+taken w) :
    weightTotal (weights.map adjust) ≤ weightTotal weights ∧
    weightTotal weights ≤ weightTotal (weights.map adjust)+((weights.map taken).sum : Nat) := by
  induction weights with
  | nil => simp
  | cons w weights ih =>
    obtain ⟨hw,hrest⟩ := List.forall_mem_cons.mp h
    have hsums := ih hrest
    simp only [List.map_cons,weightTotal_cons,List.sum_cons]
    omega

theorem weightTotal_pos (hsome : siblings ≠ [])
    (hbounds : ∀ w ∈ siblings, 5 ≤ w.toNat ∧ w.toNat ≤ 95) : 0 < weightTotal siblings := by
  obtain ⟨x,hx⟩ := List.exists_mem_of_ne_nil siblings hsome
  have hle := le_weightTotal hx
  have hfive := hbounds x hx
  omega

/-- The siblings grow by the whole amount, and none is cut off. -/
theorem settle_grow (hsome : siblings ≠ [])
    (hbounds : ∀ w ∈ siblings, 5 ≤ w.toNat ∧ w.toNat ≤ 95) {amount : Nat}
    (hfit : weightTotal siblings+amount ≤ 95)
    (hadjust : ∀ w, adjust w = clampWeight
      ((w.toNat : Int)+((w.toNat : Int)*amount).tdiv (max (weightTotal siblings) 1))) :
    (∀ w ∈ settle adjust amount siblings, 5 ≤ w.toNat ∧ w.toNat ≤ 95) ∧
    weightTotal (settle adjust amount siblings) = weightTotal siblings+amount := by
  obtain ⟨l,x,hconcat⟩ := (List.eq_nil_or_concat' siblings).resolve_left hsome
  have hx : x ∈ siblings := by simp [hconcat]
  have hpos := weightTotal_pos hsome hbounds
  have hgrown : ∀ w ∈ siblings, (adjust w).toNat = w.toNat+part siblings amount w := by
    intro w hw
    have hclamp := toNat_clampWeight ((w.toNat : Int)+part siblings amount w)
    have hfive := hbounds w hw
    have hle := le_weightTotal hw
    have hpart := part_le hw amount
    rw [hadjust,tdiv_part hpos]
    omega
  have htotal := weightTotal_map_add siblings hgrown
  have hparts := sum_parts_le siblings amount
  rw [hconcat,settle_concat,← hconcat]
  have hlast := toNat_clampWeight (((adjust x).toNat : Int)+
    (amount-(weightTotal (siblings.map adjust)-weightTotal siblings)))
  have hsplit : weightTotal (siblings.map adjust) =
      weightTotal (l.map adjust)+(adjust x).toNat := by simp [hconcat]
  have hrest := weightTotal_nonneg (l.map adjust)
  have hxgrown := hgrown x hx
  have hxfive := hbounds x hx
  constructor
  · intro w hw
    rcases List.mem_append.mp hw with hw | hw
    · have hin : w ∈ siblings.map adjust := by
        rw [hconcat,List.map_append]
        exact List.mem_append_left _ hw
      have hle := le_weightTotal hin
      obtain ⟨v,hv,rfl⟩ := List.mem_map.mp hin
      have hgrow := hgrown v hv
      have hfive := hbounds v hv
      omega
    · obtain rfl := List.mem_singleton.mp hw
      omega
  · rw [weightTotal_append,weightTotal_cons,weightTotal_nil]
    omega

/-- The siblings shrink by no more than the amount, and none below its least. -/
theorem settle_shrink (hsome : siblings ≠ [])
    (hbounds : ∀ w ∈ siblings, 5 ≤ w.toNat ∧ w.toNat ≤ 95) (amount : Nat)
    (hadjust : ∀ w, adjust w = clampWeight
      ((w.toNat : Int)+((w.toNat : Int)*(-amount)).tdiv (max (weightTotal siblings) 1))) :
    (∀ w ∈ settle adjust (-amount) siblings, 5 ≤ w.toNat ∧ w.toNat ≤ 95) ∧
    weightTotal siblings ≤ weightTotal (settle adjust (-amount) siblings)+amount ∧
    weightTotal (settle adjust (-amount) siblings) ≤ weightTotal siblings := by
  obtain ⟨l,x,hconcat⟩ := (List.eq_nil_or_concat' siblings).resolve_left hsome
  have hx : x ∈ siblings := by simp [hconcat]
  have hpos := weightTotal_pos hsome hbounds
  have hshrunk : ∀ w ∈ siblings, 5 ≤ (adjust w).toNat ∧ (adjust w).toNat ≤ w.toNat ∧
      w.toNat ≤ (adjust w).toNat+part siblings amount w := by
    intro w hw
    have hclamp := toNat_clampWeight ((w.toNat : Int)+-part siblings amount w)
    have hfive := hbounds w hw
    rw [hadjust,Int.mul_neg,Int.neg_tdiv,tdiv_part hpos]
    omega
  obtain ⟨hle,hge⟩ := weightTotal_map_sub siblings fun w hw => (hshrunk w hw).2
  have hparts := sum_parts_le siblings amount
  rw [hconcat,settle_concat,← hconcat]
  have hlast := toNat_clampWeight (((adjust x).toNat : Int)+
    (-amount-(weightTotal (siblings.map adjust)-weightTotal siblings)))
  have hsplit : weightTotal (siblings.map adjust) =
      weightTotal (l.map adjust)+(adjust x).toNat := by simp [hconcat]
  have hxshrunk := hshrunk x hx
  have hxfive := hbounds x hx
  refine ⟨fun w hw => ?_,?_,?_⟩
  · rcases List.mem_append.mp hw with hw | hw
    · obtain ⟨v,hv,rfl⟩ := List.mem_map.mp hw
      have hin : v ∈ siblings := by simp [hconcat,hv]
      have hshrink := hshrunk v hin
      have hfive := hbounds v hin
      omega
    · obtain rfl := List.mem_singleton.mp hw
      omega
  · rw [weightTotal_append,weightTotal_cons,weightTotal_nil]
    omega
  · rw [weightTotal_append,weightTotal_cons,weightTotal_nil]
    omega

/-! The split as a whole. -/

theorem length_reweigh (weights : List UInt16) (idx : Nat) (weight : UInt16) :
    (reweigh weights idx weight).length = weights.length := by
  have hbalanced : ∀ delta total, (rebalanceSiblings (weights.set idx (clampWeight weight.toNat))
      idx delta total).length = weights.length := by
    intro delta total
    simp only [rebalanceSiblings]
    split <;> simp
  simp only [reweigh]
  split
  · rfl
  · split <;> split <;> simp [hbalanced]

/-- The siblings keep to their bounds, and leave the target a weight within its own. -/
theorem settle_leaves {target : UInt16} (hsome : siblings ≠ [])
    (hbounds : ∀ w ∈ siblings, 5 ≤ w.toNat ∧ w.toNat ≤ 95)
    (hsum : weightTotal siblings+c.toNat = 100) (hc : 5 ≤ c.toNat)
    (htarget : 5 ≤ target.toNat)
    (hadjust : ∀ w, adjust w = clampWeight ((w.toNat : Int)+
      ((w.toNat : Int)*(-((target.toNat : Int)-c.toNat))).tdiv (max (weightTotal siblings) 1))) :
    (∀ w ∈ settle adjust (-((target.toNat : Int)-c.toNat)) siblings, 5 ≤ w.toNat ∧ w.toNat ≤ 95) ∧
    100-(target.toNat : Int) ≤
      weightTotal (settle adjust (-((target.toNat : Int)-c.toNat)) siblings) ∧
    weightTotal (settle adjust (-((target.toNat : Int)-c.toNat)) siblings) ≤ 95 := by
  rcases le_total (target.toNat : Int) c.toNat with hle | hle
  · obtain ⟨amount,hamount⟩ := Int.eq_ofNat_of_zero_le (a := -((target.toNat : Int)-c.toNat))
      (by omega)
    rw [hamount] at hadjust ⊢
    have hfit : weightTotal siblings+amount ≤ 95 := by omega
    obtain ⟨hall,htaken⟩ := settle_grow hsome hbounds hfit hadjust
    exact ⟨hall,by omega,by omega⟩
  · obtain ⟨amount,hamount⟩ := Int.eq_ofNat_of_zero_le (a := (target.toNat : Int)-c.toNat)
      (by omega)
    rw [hamount] at hadjust ⊢
    obtain ⟨hall,hless,hmore⟩ := settle_shrink hsome hbounds amount hadjust
    exact ⟨hall,by omega,by omega⟩

/-- The last step gives the target what its siblings leave of the hundred. -/
theorem fill_hundred {target : UInt16} (htarget : target.toNat ≤ 95)
    (hleast : 100-(target.toNat : Int) ≤ weightTotal (before ++ after))
    (hmin : 5 ≤ weightTotal (before ++ after)) (hmost : weightTotal (before ++ after) ≤ 95) :
    ∃ filled : UInt16, (filled.toNat : Int) = 100-weightTotal (before ++ after) ∧
      (if (before ++ target :: after).sum = 100 then before ++ target :: after
        else (before ++ target :: after).modify before.length fun w =>
          clampWeight ((w.toNat : Int)+(100-((before ++ target :: after).sum.toNat : Int)))) =
        before ++ filled :: after := by
  have hsum : ((before ++ target :: after).sum.toNat : Int) =
      target.toNat+weightTotal (before ++ after) := by
    rw [weightTotal_append] at *
    rw [toNat_sum] <;> rw [weightTotal_append,weightTotal_cons] <;> omega
  by_cases hdone : (before ++ target :: after).sum = 100
  · have hexact : ((before ++ target :: after).sum.toNat : Int) = 100 := by
      rw [hdone]
      rfl
    exact ⟨target,by omega,if_pos hdone⟩
  · refine ⟨clampWeight ((target.toNat : Int)+
      (100-((before ++ target :: after).sum.toNat : Int))),?_,?_⟩
    · rw [toNat_clampWeight]
      omega
    · rw [if_neg hdone,modify_length]

theorem normal_filled {filled : UInt16} (hsome : before ++ after ≠ [])
    (hbounds : ∀ w ∈ before ++ after, 5 ≤ w.toNat ∧ w.toNat ≤ 95)
    (hmin : 5 ≤ weightTotal (before ++ after)) (hmost : weightTotal (before ++ after) ≤ 95)
    (hfilled : (filled.toNat : Int) = 100-weightTotal (before ++ after)) :
    Normal (before ++ filled :: after) := by
  have hpos := List.length_pos_of_ne_nil hsome
  refine ⟨?_,fun w hw => ?_,?_⟩
  · simp only [List.length_append,List.length_cons] at hpos ⊢
    omega
  · rcases List.mem_append.mp hw with hw | hw
    · exact hbounds w (List.mem_append_left _ hw)
    · rcases List.mem_cons.mp hw with rfl | hw
      · omega
      · exact hbounds w (List.mem_append_right _ hw)
  · rw [weightTotal_append] at hfilled
    rw [weightTotal_append,weightTotal_cons]
    omega

theorem siblings_bounds (h : Normal (before ++ c :: after)) :
    (∀ w ∈ before ++ after, 5 ≤ w.toNat ∧ w.toNat ≤ 95) ∧ before ++ after ≠ [] ∧
      weightTotal (before ++ after)+c.toNat = 100 := by
  obtain ⟨htwo,hbounds,htotal⟩ := h
  refine ⟨fun w hw => ?_,fun hnil => ?_,?_⟩
  · apply hbounds
    rcases List.mem_append.mp hw with hw | hw <;> simp [hw]
  · obtain ⟨rfl,rfl⟩ := List.append_eq_nil_iff.mp hnil
    simp at htwo
  · rw [weightTotal_append,weightTotal_cons] at htotal
    rw [weightTotal_append]
    omega

/-- What a change of the target's weight leaves of its siblings, and of the target itself. -/
theorem reweigh_split (h : Normal (before ++ c :: after)) {weight : UInt16}
    (hchange : clampWeight weight.toNat ≠ c) :
    ∃ before' after' filled, before'.length = before.length ∧ after'.length = after.length ∧
      before' ++ after' = settle (fun w => clampWeight ((w.toNat : Int)+((w.toNat : Int)*
        (-(((clampWeight weight.toNat).toNat : Int)-c.toNat))).tdiv
          (max (weightTotal (before ++ after)) 1)))
        (-(((clampWeight weight.toNat).toNat : Int)-c.toNat)) (before ++ after) ∧
      (filled.toNat : Int) = 100-weightTotal (before' ++ after') ∧
      reweigh (before ++ c :: after) before.length weight = before' ++ filled :: after' ∧
      Normal (before' ++ filled :: after') := by
  obtain ⟨hsiblings,hsome,hsum⟩ := siblings_bounds h
  have hc := h.bounds c (by simp)
  have hclamp := toNat_clampWeight (weight.toNat : Int)
  unfold reweigh
  set target := clampWeight (weight.toNat : Int)
  have hold : (before ++ c :: after)[before.length]?.getD 0 = c := by simp
  have hset : (before ++ c :: after).set before.length target = before ++ target :: after := by
    simp
  have herase : (before ++ target :: after).eraseIdx before.length = before ++ after := by
    simp [List.eraseIdx_append]
  simp only [hold,hset,herase]
  have hpos : 0 < ((before ++ after).map fun w => (w.toNat : Int)).sum := by
    rw [← weightTotal]
    omega
  rw [if_neg hchange,if_pos hpos,← weightTotal]
  obtain ⟨before',after',hbalanced,hbefore,hafter,hsettle⟩ :=
    rebalance_split target (target.toNat-c.toNat) (weightTotal (before ++ after)) hsome
  have hleast' : 5 ≤ target.toNat := by omega
  obtain ⟨hall,hleast,hmost⟩ := settle_leaves hsome hsiblings hsum hc.1 hleast' fun _ => rfl
  rw [← hsettle] at hall hleast hmost
  have hsome' : before' ++ after' ≠ [] := by
    rw [← List.length_pos_iff] at hsome ⊢
    rwa [List.length_append,hbefore,hafter,← List.length_append]
  have hmin : 5 ≤ weightTotal (before' ++ after') := by
    obtain ⟨w,hw⟩ := List.exists_mem_of_ne_nil _ hsome'
    have hle := le_weightTotal hw
    have hfive := hall w hw
    omega
  obtain ⟨filled,hfilled,heq⟩ := fill_hundred (by omega) hleast hmin hmost
  refine ⟨before',after',filled,hbefore,hafter,hsettle,hfilled,?_,
    normal_filled hsome' hall hmin hmost hfilled⟩
  rw [hbalanced,← hbefore,heq]

theorem reweigh_same {weight : UInt16} (h : clampWeight weight.toNat = c) :
    reweigh (before ++ c :: after) before.length weight = before ++ c :: after := by
  have hold : (before ++ c :: after)[before.length]?.getD 0 = c := by simp
  rw [reweigh,hold,if_pos h]

/-- The target gets what its siblings leave of the hundred. -/
theorem reweigh_normal (h : Normal (before ++ c :: after)) (weight : UInt16) :
    Normal (reweigh (before ++ c :: after) before.length weight) := by
  by_cases hsame : clampWeight weight.toNat = c
  · rw [reweigh_same hsame]
    exact h
  · obtain ⟨before',after',filled,-,-,-,-,heq,hnormal⟩ := reweigh_split h hsame
    rw [heq]
    exact hnormal

variable {children : List (LayoutNode × UInt16)} {pane : PaneId}

theorem weightTotal_children (children : List (LayoutNode × UInt16)) :
    weightTotal (children.map Prod.snd) = totalWeight children := by
  induction children with
  | nil => rfl
  | cons c rest ih =>
    rw [List.map_cons,weightTotal_cons,ih,totalWeight,totalWeight,List.map_cons,List.sum_cons]
    omega

theorem weighted_iff : Weighted children ↔ Normal (children.map Prod.snd) := by
  constructor
  · rintro ⟨htwo,hbounds,htotal⟩
    refine ⟨by simpa using htwo,fun w hw => ?_,by rw [weightTotal_children,htotal]; rfl⟩
    obtain ⟨c,hc,rfl⟩ := List.mem_map.mp hw
    exact hbounds c hc
  · rintro ⟨htwo,hbounds,htotal⟩
    rw [weightTotal_children] at htotal
    exact ⟨by simpa using htwo,fun c hc => hbounds _ (List.mem_map_of_mem hc),by omega⟩

theorem exists_findIdx (hp : pane ∈ leavesOf children) :
    ∃ idx, children.findIdx? (fun c => pane ∈ c.1.allLeaves) = some idx := by
  obtain ⟨c,hc,hpc⟩ := mem_leavesOf.mp hp
  cases hidx : children.findIdx? fun c => pane ∈ c.1.allLeaves with
  | none =>
    have hno := List.findIdx?_eq_none_iff.mp hidx c hc
    simp [hpc] at hno
  | some idx => exact ⟨idx,rfl⟩

/-- The split that it is called on keeps its children, and its weights stay as the module allows
them. -/
theorem setWeight_weighted (h : Weighted children) (hp : pane ∈ leavesOf children)
    (orient : Orient) (weight : UInt16) :
    ∃ weights, weights.length = children.length ∧
      Weighted ((children.map Prod.fst).zip weights) ∧
      (split orient children).setWeight pane weight =
        .split orient ((children.map Prod.fst).zip weights) := by
  obtain ⟨idx,hidx⟩ := exists_findIdx hp
  obtain ⟨hlt,-,-⟩ := List.findIdx?_eq_some_iff_getElem.mp hidx
  have hsplit : children.map Prod.snd = (children.map Prod.snd).take idx ++
      children[idx].2 :: (children.map Prod.snd).drop (idx+1) := by
    rw [← List.getElem_map Prod.snd (h := by simpa using hlt),List.cons_getElem_drop_succ,
      List.take_append_drop]
  have hidx' : ((children.map Prod.snd).take idx).length = idx := by
    simp
    omega
  have hnormal := weighted_iff.mp h
  rw [hsplit] at hnormal
  have hnew := reweigh_normal hnormal weight
  rw [← hsplit,hidx'] at hnew
  have hlength := length_reweigh (children.map Prod.snd) idx weight
  rw [List.length_map] at hlength
  refine ⟨reweigh (children.map Prod.snd) idx weight,hlength,weighted_iff.mpr ?_,?_⟩
  · rwa [List.map_snd_zip (by simp [hlength])]
  · simp [setWeight,setWeightInner,hidx]

/-- Three panes side by side. -/
def thirds : List (LayoutNode × UInt16) := [(.leaf ⟨1⟩,30),(.leaf ⟨2⟩,30),(.leaf ⟨3⟩,40)]

theorem setWeight_weighted_thirds :
    ∃ weights, weights.length = thirds.length ∧ Weighted ((thirds.map Prod.fst).zip weights) ∧
      (split .vertical thirds).setWeight ⟨2⟩ 90 =
        .split .vertical ((thirds.map Prod.fst).zip weights) :=
  setWeight_weighted ⟨by decide,by decide,by decide⟩ (by decide) .vertical 90

end LayoutNode

end Pyre
