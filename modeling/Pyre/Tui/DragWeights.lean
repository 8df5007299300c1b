import Pyre.Tui.Resync

/-!
What a drag of a boundary makes of the weights on its two sides. They share what they had; the
results are cut to 16 bits, and the sum with the distance of the drag is one of 32.
-/

set_option autoImplicit false

namespace Pyre.Tui

/-- The sum of the left weight and the delta is no number of 32 bits. -/
def Overflows (weights : List UInt16) (idx : Nat) (deltaPct : Int) : Prop :=
  ∃ a b, weights[idx]? = some a ∧ weights[idx+1]? = some b ∧ 2^31 ≤ (a.toNat : Int)+deltaPct

/-- Only the weights on the two sides of the boundary change, and together they are what they
were. -/
structure Conserves (weights out : List UInt16) (idx : Nat) : Prop where
  length : out.length = weights.length
  others : ∀ i, i ≠ idx → i ≠ idx+1 → out[i]? = weights[i]?
  beyond : weights[idx+1]? = none → out = weights
  pair : ∀ a b, weights[idx]? = some a → weights[idx+1]? = some b →
    ∃ a' b', out[idx]? = some a' ∧ out[idx+1]? = some b' ∧
      a'.toNat+b'.toNat = a.toNat+b.toNat ∧ 5 ≤ a'.toNat ∧ 5 ≤ b'.toNat

/-- Both weights fit 16 bits wherever they may come to, or the delta leaves them where they do. -/
def Fits (weights : List UInt16) (idx : Nat) (deltaPct : Int) : Prop :=
  ∀ a b, weights[idx]? = some a → weights[idx+1]? = some b →
    (a.toNat : Int)+deltaPct < 2^31 ∧
      (a.toNat+b.toNat ≤ 65540 ∨
        (b.toNat : Int)-65535 ≤ deltaPct ∧ deltaPct ≤ 65535-(a.toNat : Int))

variable {weights out : List UInt16} {idx : Nat} {a b : UInt16} {deltaPct : Int}

/-- What the left weight is set to, before the cut. -/
def newLeft (a b : UInt16) (deltaPct : Int) : Int :=
  max 5 (min ((a.toNat : Int)+b.toNat-5) ((a.toNat : Int)+deltaPct))

theorem applyResizeWeights_pair (ha : weights[idx]? = some a) (hb : weights[idx+1]? = some b)
    (hfive : 5 ≤ a.toNat) (hfive' : 5 ≤ b.toNat) :
    applyResizeWeights weights idx deltaPct 5 =
      some ((weights.set idx (.ofNat (newLeft a b deltaPct).toNat)).set (idx+1)
        (.ofNat ((a.toNat : Int)+b.toNat-newLeft a b deltaPct).toNat)) := by
  have hfits : ¬((a.toNat : Int)+b.toNat-5 < 5) := by omega
  simp only [applyResizeWeights,ha,hb]
  exact if_neg hfits

theorem applyResizeWeights_beyond (h : weights[idx]? = none ∨ weights[idx+1]? = none) :
    applyResizeWeights weights idx deltaPct 5 = some weights := by
  unfold applyResizeWeights
  split
  · rename_i ha hb
    rcases h with h | h
    · cases ha.symm.trans h
    · cases hb.symm.trans h
  · rfl

theorem conserves_beyond (h : weights[idx]? = none ∨ weights[idx+1]? = none) :
    Conserves weights weights idx where
  length := rfl
  others := fun _ _ _ => rfl
  beyond := fun _ => rfl
  pair := fun a b ha hb => by
    rcases h with h | h
    · cases ha.symm.trans h
    · cases hb.symm.trans h

/-- The two weights once they are set. -/
theorem conserves_set_iff (ha : weights[idx]? = some a) (hb : weights[idx+1]? = some b)
    (left right : UInt16) :
    Conserves weights ((weights.set idx left).set (idx+1) right) idx ↔
      left.toNat+right.toNat = a.toNat+b.toNat ∧ 5 ≤ left.toNat ∧ 5 ≤ right.toNat := by
  obtain ⟨hlt,-⟩ := List.getElem?_eq_some_iff.mp ha
  obtain ⟨hlt',-⟩ := List.getElem?_eq_some_iff.mp hb
  have hleft : ((weights.set idx left).set (idx+1) right)[idx]? = some left := by
    rw [List.getElem?_set_ne (by omega),List.getElem?_set_self hlt]
  have hright : ((weights.set idx left).set (idx+1) right)[idx+1]? = some right :=
    List.getElem?_set_self (by simpa using hlt')
  constructor
  · intro h
    obtain ⟨a',b',ha',hb',hpair⟩ := h.pair a b ha hb
    obtain rfl := Option.some.inj (hleft.symm.trans ha')
    obtain rfl := Option.some.inj (hright.symm.trans hb')
    exact hpair
  · intro h
    refine ⟨by simp,fun i hi hi' => ?_,fun hnone => ?_,fun x y hx hy => ?_⟩
    · rw [List.getElem?_set_ne (Ne.symm hi'),List.getElem?_set_ne (Ne.symm hi)]
    · cases hb.symm.trans hnone
    · obtain rfl := Option.some.inj (ha.symm.trans hx)
      obtain rfl := Option.some.inj (hb.symm.trans hy)
      exact ⟨left,right,hleft,hright,h⟩

/-- The cut to 16 bits loses nothing of either weight just where both are small enough. -/
theorem cut_conserves_iff (hfive : 5 ≤ a.toNat) (hfive' : 5 ≤ b.toNat) :
    ((UInt16.ofNat (newLeft a b deltaPct).toNat).toNat+
        (UInt16.ofNat ((a.toNat : Int)+b.toNat-newLeft a b deltaPct).toNat).toNat =
          a.toNat+b.toNat ∧
      5 ≤ (UInt16.ofNat (newLeft a b deltaPct).toNat).toNat ∧
      5 ≤ (UInt16.ofNat ((a.toNat : Int)+b.toNat-newLeft a b deltaPct).toNat).toNat) ↔
    a.toNat+b.toNat ≤ 65540 ∨
      (b.toNat : Int)-65535 ≤ deltaPct ∧ deltaPct ≤ 65535-(a.toNat : Int) := by
  have ha := a.toNat_lt
  have hb := b.toNat_lt
  have hleft : 5 ≤ newLeft a b deltaPct ∧ newLeft a b deltaPct ≤ (a.toNat : Int)+b.toNat-5 := by
    rw [newLeft]
    omega
  have hsmall : (newLeft a b deltaPct ≤ 65535 ∧
      (a.toNat : Int)+b.toNat-newLeft a b deltaPct ≤ 65535) ↔
      (a.toNat+b.toNat ≤ 65540 ∨
        (b.toNat : Int)-65535 ≤ deltaPct ∧ deltaPct ≤ 65535-(a.toNat : Int)) := by
    rw [newLeft]
    omega
  rw [← hsmall]
  generalize newLeft a b deltaPct = left at hleft ⊢
  simp only [UInt16.toNat_ofNat']
  omega

theorem conserves_iff (hmin : ∀ w ∈ weights, 5 ≤ w.toNat) (idx : Nat) (deltaPct : Int) :
    (¬Overflows weights idx deltaPct ∧
        ∃ out, applyResizeWeights weights idx deltaPct 5 = some out ∧ Conserves weights out idx) ↔
      Fits weights idx deltaPct := by
  cases ha : weights[idx]? with
  | none =>
    have hnot : ¬Overflows weights idx deltaPct := by simp [Overflows,ha]
    have hfits : Fits weights idx deltaPct := by simp [Fits,ha]
    exact iff_of_true ⟨hnot,_,applyResizeWeights_beyond (.inl ha),conserves_beyond (.inl ha)⟩ hfits
  | some a =>
    cases hb : weights[idx+1]? with
    | none =>
      have hnot : ¬Overflows weights idx deltaPct := by simp [Overflows,hb]
      have hfits : Fits weights idx deltaPct := by simp [Fits,hb]
      exact iff_of_true ⟨hnot,_,applyResizeWeights_beyond (.inr hb),conserves_beyond (.inr hb)⟩
        hfits
    | some b =>
      have hfive := hmin a (List.mem_of_getElem? ha)
      have hfive' := hmin b (List.mem_of_getElem? hb)
      have hnot : ¬Overflows weights idx deltaPct ↔
          (a.toNat : Int)+deltaPct < 2^31 := by simp [Overflows,ha,hb]
      have hfits : Fits weights idx deltaPct ↔ (a.toNat : Int)+deltaPct < 2^31 ∧
          (a.toNat+b.toNat ≤ 65540 ∨ (b.toNat : Int)-65535 ≤ deltaPct ∧
            deltaPct ≤ 65535-(a.toNat : Int)) := by simp [Fits,ha,hb]
      rw [hnot,hfits,applyResizeWeights_pair ha hb hfive hfive',← cut_conserves_iff hfive hfive',
        ← conserves_set_iff ha hb]
      simp

/-- A drag keeps the weights of a split in order just where nothing is cut off. -/
theorem resize_conserves_iff (hmin : ∀ w ∈ weights, 5 ≤ w.toNat) (idx : Nat) (deltaPct : Int32) :
    (¬Overflows weights idx deltaPct.toInt ∧
        ∃ out, applyResizeWeights weights idx deltaPct.toInt 5 = some out ∧
          Conserves weights out idx) ↔
      Fits weights idx deltaPct.toInt := conserves_iff hmin idx deltaPct.toInt

theorem resize_conserves_iff_halves :
    (¬Overflows [50,50] 0 (Int32.ofInt 20).toInt ∧
        ∃ out, applyResizeWeights [50,50] 0 (Int32.ofInt 20).toInt 5 = some out ∧
          Conserves [50,50] out 0) ↔
      Fits [50,50] 0 (Int32.ofInt 20).toInt :=
  resize_conserves_iff (by simp) 0 (.ofInt 20)

/-- The distance that the handler comes to is far from the ends of 32 bits. -/
theorem deltaPct_bounds (d : DragState) (col row : UInt16) :
    -6553500 ≤ d.deltaPct col row ∧ d.deltaPct col row ≤ 6553500 := by
  have hstart := d.startCoord.toNat_lt
  have hcur := (if d.isHsplit then row else col).toNat_lt
  have hsmaller := Int.natAbs_tdiv_le_natAbs
    (((if d.isHsplit then row else col).toNat-(d.startCoord.toNat : Int))*100)
    (max d.parentSize.toNat 1 : Nat)
  rw [← DragState.deltaPct] at hsmaller
  omega

/-- So it is the 16 bits alone that matter to the handler. -/
theorem drag_conserves_iff (d : DragState) (hmin : ∀ w ∈ d.startWeights, 5 ≤ w.toNat)
    (col row : UInt16) :
    (∃ out, applyResizeWeights d.startWeights d.childIdx (d.deltaPct col row) 5 = some out ∧
        Conserves d.startWeights out d.childIdx) ↔
      Fits d.startWeights d.childIdx (d.deltaPct col row) := by
  have hbounds := deltaPct_bounds d col row
  have hnot : ¬Overflows d.startWeights d.childIdx (d.deltaPct col row) := by
    rintro ⟨a,b,-,-,hlarge⟩
    have hlt := a.toNat_lt
    omega
  have hiff := conserves_iff hmin d.childIdx (d.deltaPct col row)
  rw [and_iff_right hnot] at hiff
  exact hiff

/-- Two weights at the top of their range: one percent to the right, and the left one is 0. -/
theorem weight_cut : ¬∀ (weights : List UInt16) (idx : Nat) (deltaPct : Int32),
    (∀ w ∈ weights, 5 ≤ w.toNat) →
      ∃ out, applyResizeWeights weights idx deltaPct.toInt 5 = some out ∧
        Conserves weights out idx := by
  intro hall
  obtain ⟨out,hout,hconserves⟩ := hall [65535,65535] 0 1 (by simp)
  obtain rfl : out = [0,65534] := by
    have hcut : applyResizeWeights [65535,65535] 0 (Int32.ofInt 1).toInt 5 = some [0,65534] := by
      decide
    exact Option.some.inj (hout.symm.trans hcut)
  obtain ⟨a',b',ha',-,-,hfive,-⟩ := hconserves.pair 65535 65535 rfl rfl
  obtain rfl := Option.some.inj ha'
  revert hfive
  decide

end Pyre.Tui
