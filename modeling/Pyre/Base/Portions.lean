import Mathlib.Algebra.Order.BigOperators.Group.List
import Mathlib.Algebra.Order.Ring.Nat
import Mathlib.Tactic.Ring

/-!
A quantity that is dealt out in proportion to weights. Each portion is rounded down, so that
the portions together fall short of the quantity by less than one for each of them.
-/

set_option autoImplicit false

namespace Pyre.Base

def portion (quantity total weight : Nat) : Nat := quantity*weight/total

variable {quantity total weight : Nat} {weights : List Nat}

@[simp] theorem portion_zero (quantity total : Nat) : portion quantity total 0 = 0 := by
  simp [portion]

theorem portion_mul_le (quantity total weight : Nat) :
    portion quantity total weight*total ≤ quantity*weight := Nat.div_mul_le_self _ _

theorem lt_portion_mul (h : 0 < total) (quantity weight : Nat) :
    quantity*weight < (portion quantity total weight+1)*total := by
  rw [Nat.add_mul,Nat.one_mul]
  exact Nat.lt_div_mul_add h

theorem portion_le (h : weight ≤ total) (quantity : Nat) :
    portion quantity total weight ≤ quantity := by
  apply Nat.div_le_of_le_mul
  rw [Nat.mul_comm total]
  exact Nat.mul_le_mul_left quantity h

theorem sum_portions_mul_le (quantity total : Nat) (weights : List Nat) :
    (weights.map (portion quantity total)).sum*total ≤ quantity*weights.sum := by
  induction weights with
  | nil => simp
  | cons w weights ih =>
    have hw := portion_mul_le quantity total w
    simp only [List.map_cons,List.sum_cons,Nat.add_mul,Nat.mul_add]
    omega

theorem sum_portions_le (h : weights.sum ≤ total) (quantity : Nat) :
    (weights.map (portion quantity total)).sum ≤ quantity := by
  rcases Nat.eq_zero_or_pos total with rfl | hpos
  · have hzero : ∀ w ∈ weights, w = 0 := List.sum_eq_zero_iff.mp (Nat.le_zero.mp h)
    have hnone : (weights.map (portion quantity 0)).sum = 0 := by
      simp only [List.sum_eq_zero_iff,List.mem_map]
      rintro x ⟨w,hw,rfl⟩
      rw [hzero w hw,portion_zero]
    omega
  · have hsum := sum_portions_mul_le quantity total weights
    have hle : quantity*weights.sum ≤ quantity*total := Nat.mul_le_mul_left quantity h
    exact Nat.le_of_mul_le_mul_right (hsum.trans hle) hpos

/-- Each portion is short of its weight's due by less than one. -/
theorem le_sum_portions_mul (h : 0 < total) (quantity : Nat) (weights : List Nat) :
    quantity*weights.sum+weights.length ≤
      ((weights.map (portion quantity total)).sum+weights.length)*total := by
  induction weights with
  | nil => simp
  | cons w weights ih =>
    have hw := lt_portion_mul h quantity w
    simp only [List.map_cons,List.sum_cons,List.length_cons,Nat.add_mul,Nat.mul_add,
      Nat.one_mul] at ih hw ⊢
    omega

theorem lt_sum_portions (h : 0 < weights.sum) (quantity : Nat) :
    quantity < (weights.map (portion quantity weights.sum)).sum+weights.length := by
  have hsome : 0 < weights.length := by
    cases weights with
    | nil => simp at h
    | cons w weights => simp
  have hsum := le_sum_portions_mul h quantity weights
  apply Nat.lt_of_mul_lt_mul_right (a := weights.sum)
  omega

end Pyre.Base
