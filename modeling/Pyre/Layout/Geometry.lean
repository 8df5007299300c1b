import Pyre.Base.Portions
import Pyre.Layout.Closing

/-!
The rectangles of the panes in a viewport. A split deals its rectangle out to its children along
one axis, in proportion to their weights; what rounding loses stays at the end of it.
-/

set_option autoImplicit false

namespace Pyre
open Base

structure Rect where
  x : UInt32
  y : UInt32
  w : UInt32
  h : UInt32
  deriving DecidableEq, Repr

namespace Rect

def containsPt (r : Rect) (px py : UInt32) : Bool :=
  r.x ≤ px && px < r.x+r.w && r.y ≤ py && py < r.y+r.h

/-- Children of a `vertical` split stand along the x-axis, of a `horizontal` one along the y-axis. -/
def start (r : Rect) : Orient → UInt32
  | .vertical => r.x
  | .horizontal => r.y

def extent (r : Rect) : Orient → UInt32
  | .vertical => r.w
  | .horizontal => r.h

/-- The part of the rectangle that a child of a split gets. -/
def slice (r : Rect) (orient : Orient) (start extent : UInt32) : Rect :=
  match orient with
  | .vertical => { r with x := start, w := extent }
  | .horizontal => { r with y := start, h := extent }

/-- Where the rectangle ends, on the unbounded axis. -/
def stop (r : Rect) (axis : Orient) : Nat := (r.start axis).toNat+(r.extent axis).toNat

/-- Neither end is beyond the numbers of the code. -/
def Fits (r : Rect) : Prop := ∀ axis, r.stop axis < 2^32

def Within (r vp : Rect) : Prop :=
  ∀ axis, (vp.start axis).toNat ≤ (r.start axis).toNat ∧ r.stop axis ≤ vp.stop axis

/-- One ends before the other starts, on one of the axes. -/
def Apart (r s : Rect) : Prop :=
  ∃ axis, r.stop axis ≤ (s.start axis).toNat ∨ s.stop axis ≤ (r.start axis).toNat

/-- Some cell is in both. -/
def Meets (r s : Rect) : Prop := ∃ px py, r.containsPt px py ∧ s.containsPt px py

end Rect

namespace LayoutNode

/-- The part of an extent that a child gets by its weight. -/
def share (extent : UInt32) (total weight : UInt16) : UInt32 :=
  (extent.toUInt64*weight.toUInt64/total.toUInt64).toUInt32

/-- At least 1, as it is divided by. -/
def weightSum (children : List (LayoutNode × UInt16)) : UInt16 :=
  max (children.map Prod.snd).sum 1

mutual

/-- `leaves` is this with the viewport of the caller. -/
def leavesInner : LayoutNode → Rect → List (PaneId × Rect)
  | .leaf pane, vp => [(pane,vp)]
  | .split orient children, vp =>
    leavesFrom orient vp (weightSum children) (vp.start orient) children

/-- The loop over the children of a split, at the point where the next one starts. -/
def leavesFrom (orient : Orient) (vp : Rect) (total : UInt16) :
    UInt32 → List (LayoutNode × UInt16) → List (PaneId × Rect)
  | _, [] => []
  | start, (child,weight) :: rest =>
    let extent := share (vp.extent orient) total weight
    child.leavesInner (vp.slice orient start extent) ++
      leavesFrom orient vp total (start+extent) rest

end

def rectFor (tree : LayoutNode) (viewport : Rect) (target : PaneId) : Option Rect :=
  ((tree.leavesInner viewport).find? fun e => e.1 = target).map Prod.snd

/-- The children that the loop still has to go through, each with its rectangle. -/
def placedFrom (orient : Orient) (vp : Rect) (total : UInt16) :
    UInt32 → List (LayoutNode × UInt16) → List (LayoutNode × Rect)
  | _, [] => []
  | start, (child,weight) :: rest =>
    let extent := share (vp.extent orient) total weight
    (child,vp.slice orient start extent) :: placedFrom orient vp total (start+extent) rest

def placed (orient : Orient) (vp : Rect) (children : List (LayoutNode × UInt16)) :
    List (LayoutNode × Rect) :=
  placedFrom orient vp (weightSum children) (vp.start orient) children

/-- In the tree that has the viewport the node has the rectangle. -/
inductive Placed (s : LayoutNode) (r : Rect) : LayoutNode → Rect → Prop where
  | refl : Placed s r s r
  | child {t : LayoutNode} {rt vp : Rect} {o : Orient} {children : List (LayoutNode × UInt16)}
      (hmem : (t,rt) ∈ placed o vp children) (h : Placed s r t rt) :
      Placed s r (.split o children) vp

/-- The weights of the split add up without overflow. -/
def Summable (children : List (LayoutNode × UInt16)) : Prop := totalWeight children < 2^16

instance (children : List (LayoutNode × UInt16)) : Decidable (Summable children) :=
  inferInstanceAs (Decidable (_ < _))

end LayoutNode

namespace Rect

variable {r s t vp : Rect} {axis : Orient} {a e : UInt32}

@[simp] theorem start_slice_self : (r.slice axis a e).start axis = a := by cases axis <;> rfl

@[simp] theorem extent_slice_self : (r.slice axis a e).extent axis = e := by cases axis <;> rfl

theorem start_slice_ne {other : Orient} (h : other ≠ axis) :
    (r.slice axis a e).start other = r.start other := by
  cases axis <;> cases other <;> simp_all [slice,start]

theorem extent_slice_ne {other : Orient} (h : other ≠ axis) :
    (r.slice axis a e).extent other = r.extent other := by
  cases axis <;> cases other <;> simp_all [slice,extent]

theorem within_slice (hstart : (vp.start axis).toNat ≤ a.toNat)
    (hstop : a.toNat+e.toNat ≤ vp.stop axis) : (vp.slice axis a e).Within vp := by
  intro other
  by_cases h : other = axis
  · subst h
    simp only [stop,start_slice_self,extent_slice_self] at hstop ⊢
    exact ⟨hstart,hstop⟩
  · simp [stop,start_slice_ne h,extent_slice_ne h]

theorem Within.trans (h : r.Within s) (h' : s.Within t) : r.Within t := by
  intro axis
  have hrs := h axis
  have hst := h' axis
  omega

theorem Within.fits (h : r.Within vp) (hvp : vp.Fits) : r.Fits := by
  intro axis
  have hr := h axis
  have hfit := hvp axis
  omega

theorem Apart.symm (h : r.Apart s) : s.Apart r := by
  obtain ⟨axis,h⟩ := h
  exact ⟨axis,h.symm⟩

theorem Apart.mono {r' s' : Rect} (h : r.Apart s) (hr : r'.Within r) (hs : s'.Within s) :
    r'.Apart s' := by
  obtain ⟨axis,h⟩ := h
  have hr' := hr axis
  have hs' := hs axis
  refine ⟨axis,?_⟩
  omega

theorem containsPt_iff (h : r.Fits) {px py : UInt32} : r.containsPt px py ↔
    (r.x.toNat ≤ px.toNat ∧ px.toNat < r.stop .vertical) ∧
      r.y.toNat ≤ py.toNat ∧ py.toNat < r.stop .horizontal := by
  have hx := h .vertical
  have hy := h .horizontal
  simp only [stop,start,extent] at hx hy
  simp only [containsPt,stop,start,extent,Bool.and_eq_true,decide_eq_true_eq,UInt32.le_iff_toNat_le,
    UInt32.lt_iff_toNat_lt,UInt32.toNat_add,Nat.mod_eq_of_lt hx,Nat.mod_eq_of_lt hy,and_assoc]

theorem Apart.not_meets (h : r.Apart s) (hr : r.Fits) (hs : s.Fits) : ¬r.Meets s := by
  rintro ⟨px,py,hin,hin'⟩
  rw [containsPt_iff hr] at hin
  rw [containsPt_iff hs] at hin'
  obtain ⟨axis,h⟩ := h
  cases axis <;> simp only [start] at h <;> omega

end Rect

namespace LayoutNode

variable {tree s t : LayoutNode} {r vp : Rect} {orient : Orient} {total weight : UInt16}
  {start : UInt32} {children : List (LayoutNode × UInt16)} {pane : PaneId}

/-! The numbers of the loop do not overflow. -/

theorem toNat_share (h : weight.toNat ≤ total.toNat) (extent : UInt32) :
    (share extent total weight).toNat = portion extent.toNat total.toNat weight.toNat := by
  have hextent := extent.toNat_lt
  have hweight := weight.toNat_lt
  have hprod : extent.toNat*weight.toNat < 2^64 := by
    have hlt := Nat.mul_lt_mul'' hextent hweight
    omega
  have hportion := portion_le h extent.toNat
  rw [portion] at hportion ⊢
  rw [share,UInt64.toNat_toUInt32,UInt64.toNat_div,UInt64.toNat_mul,UInt32.toNat_toUInt64,
    UInt16.toNat_toUInt64,UInt16.toNat_toUInt64,Nat.mod_eq_of_lt hprod]
  exact Nat.mod_eq_of_lt (by omega)

theorem toNat_sum_weights (h : Summable children) :
    (children.map Prod.snd).sum.toNat = totalWeight children := by
  induction children with
  | nil => rfl
  | cons c rest ih =>
    simp only [Summable,totalWeight,List.map_cons,List.sum_cons] at h ih ⊢
    have hrest := ih (by omega)
    rw [UInt16.toNat_add,hrest,Nat.mod_eq_of_lt h]

theorem toNat_weightSum (h : Summable children) :
    (weightSum children).toNat = max (totalWeight children) 1 := by
  have hsum := toNat_sum_weights h
  have hle : (children.map Prod.snd).sum ≤ 1 ↔ (children.map Prod.snd).sum.toNat ≤ 1 :=
    UInt16.le_iff_toNat_le
  have hone : (1 : UInt16).toNat = 1 := rfl
  have hmax : weightSum children =
      if (children.map Prod.snd).sum ≤ 1 then 1 else (children.map Prod.snd).sum := rfl
  rw [hsum] at hle
  rw [hmax]
  by_cases hsmall : (children.map Prod.snd).sum ≤ 1
  · rw [if_pos hsmall,hone,Nat.max_eq_right (hle.mp hsmall)]
  · have hlarge := mt hle.mpr hsmall
    rw [if_neg hsmall,hsum]
    omega

theorem le_weightSum (h : Summable children) {c : LayoutNode × UInt16} (hc : c ∈ children) :
    c.2.toNat ≤ (weightSum children).toNat := by
  have hle : c.2.toNat ≤ totalWeight children := List.le_sum_of_mem (List.mem_map_of_mem hc)
  rw [toNat_weightSum h]
  omega

/-! The rectangles of the children. -/

/-- The portions of the children in Nat. -/
def portions (extent total : Nat) (children : List (LayoutNode × UInt16)) : List Nat :=
  children.map fun c => portion extent total c.2.toNat

theorem sum_portions_children (h : Summable children) (extent : Nat) :
    (portions extent (weightSum children).toNat children).sum ≤ extent := by
  have hle : (children.map fun c => c.2.toNat).sum ≤ (weightSum children).toNat := by
    rw [toNat_weightSum h]
    exact Nat.le_max_left _ _
  have hsum := sum_portions_le hle extent
  rwa [List.map_map] at hsum

theorem lt_sum_portions_children (h : Summable children) (hpos : 0 < totalWeight children)
    (extent : Nat) :
    extent < (portions extent (weightSum children).toNat children).sum+children.length := by
  have hlt := lt_sum_portions hpos extent
  have htotal : (weightSum children).toNat = totalWeight children := by
    rw [toNat_weightSum h]
    omega
  rw [List.map_map,List.length_map,← totalWeight,← htotal] at hlt
  exact hlt

theorem leavesFrom_eq : leavesFrom orient vp total start children =
    (placedFrom orient vp total start children).flatMap fun c => c.1.leavesInner c.2 := by
  induction children generalizing start with
  | nil => rw [leavesFrom,placedFrom,List.flatMap_nil]
  | cons c rest ih => simp only [leavesFrom,placedFrom,List.flatMap_cons,ih]

theorem leavesInner_split : (split orient children).leavesInner vp =
    (placed orient vp children).flatMap fun c => c.1.leavesInner c.2 := by
  rw [leavesInner,leavesFrom_eq,placed]

theorem map_fst_placedFrom :
    (placedFrom orient vp total start children).map Prod.fst = children.map Prod.fst := by
  induction children generalizing start with
  | nil => rfl
  | cons c rest ih => simp [placedFrom,ih]

theorem map_fst_placed (orient : Orient) (vp : Rect) (children : List (LayoutNode × UInt16)) :
    (placed orient vp children).map Prod.fst = children.map Prod.fst := map_fst_placedFrom

theorem map_extent_placedFrom (hle : ∀ c ∈ children, c.2.toNat ≤ total.toNat) :
    (placedFrom orient vp total start children).map (fun c => (c.2.extent orient).toNat) =
      portions (vp.extent orient).toNat total.toNat children := by
  induction children generalizing start with
  | nil => rfl
  | cons c rest ih =>
    rw [List.forall_mem_cons] at hle
    simp [placedFrom,portions,toNat_share hle.1]
    exact ih hle.2

/-- From where the loop is, the children lie one after the other within the viewport. -/
theorem placedFrom_sound (hvp : vp.Fits) (hle : ∀ c ∈ children, c.2.toNat ≤ total.toNat)
    (hstart : (vp.start orient).toNat ≤ start.toNat)
    (hstop : start.toNat+(portions (vp.extent orient).toNat total.toNat children).sum ≤
      vp.stop orient) :
    (∀ c ∈ placedFrom orient vp total start children,
      c.2.Within vp ∧ start.toNat ≤ (c.2.start orient).toNat) ∧
    (placedFrom orient vp total start children).Pairwise fun c d =>
      c.2.stop orient ≤ (d.2.start orient).toNat := by
  induction children generalizing start with
  | nil => simp [placedFrom]
  | cons c rest ih =>
    obtain ⟨hc,hle⟩ := List.forall_mem_cons.mp hle
    have hshare := toNat_share hc (vp.extent orient)
    simp only [portions,List.map_cons,List.sum_cons] at hstop
    set extent := share (vp.extent orient) total c.2 with hextent
    have hfit := hvp orient
    have hnext : (start+extent).toNat = start.toNat+extent.toNat := by
      rw [UInt32.toNat_add]
      exact Nat.mod_eq_of_lt (by omega)
    have hnext' : (vp.start orient).toNat ≤ (start+extent).toNat := by omega
    obtain ⟨hrest,hpairs⟩ := ih hle hnext' (by
      simp only [portions]
      omega)
    simp only [placedFrom,← hextent,List.forall_mem_cons,List.pairwise_cons]
    refine ⟨⟨⟨Rect.within_slice hstart (by omega),by simp⟩,fun d hd => ?_⟩,fun d hd => ?_,hpairs⟩
    · have hd' := hrest d hd
      exact ⟨hd'.1,by omega⟩
    · have hd' := hrest d hd
      simp only [Rect.stop,Rect.start_slice_self,Rect.extent_slice_self]
      omega

theorem placed_sound (orient : Orient) (hvp : vp.Fits) (h : Summable children) :
    (∀ c ∈ placed orient vp children, c.2.Within vp) ∧
    (placed orient vp children).Pairwise fun c d => c.2.stop orient ≤ (d.2.start orient).toNat := by
  have hsum := sum_portions_children h (vp.extent orient).toNat
  obtain ⟨hall,hpairs⟩ := placedFrom_sound hvp (fun c hc => le_weightSum h hc)
    (Nat.le_refl (vp.start orient).toNat) (by
      rw [Rect.stop]
      omega)
  exact ⟨fun c hc => (hall c hc).1,hpairs⟩

/-- What rounding loses of a split's extent is less than a cell for each child. -/
theorem sum_extents_placed (h : Summable children) (hpos : 0 < totalWeight children) :
    ∃ lost < children.length,
      ((placed orient vp children).map fun c => (c.2.extent orient).toNat).sum+lost =
        (vp.extent orient).toNat := by
  have hsum := sum_portions_children h (vp.extent orient).toNat
  have hlt := lt_sum_portions_children h hpos (vp.extent orient).toNat
  rw [placed,map_extent_placedFrom fun c hc => le_weightSum h hc]
  refine ⟨(vp.extent orient).toNat-
    (portions (vp.extent orient).toNat (weightSum children).toNat children).sum,?_,?_⟩
  · omega
  · omega

/-! The rectangles of the leaves. -/

theorem exists_placed {t : LayoutNode} (hmem : t ∈ children.map Prod.fst) :
    ∃ rt, (t,rt) ∈ placed orient vp children := by
  rw [← map_fst_placed orient vp,List.mem_map] at hmem
  obtain ⟨⟨t,rt⟩,hc,rfl⟩ := hmem
  exact ⟨rt,hc⟩

theorem mem_of_placed {t : LayoutNode} {rt : Rect} (h : (t,rt) ∈ placed orient vp children) :
    ∃ weight, (t,weight) ∈ children := by
  have hmem := List.mem_map_of_mem (f := Prod.fst) h
  rw [map_fst_placed,List.mem_map] at hmem
  obtain ⟨⟨t,weight⟩,hc,rfl⟩ := hmem
  exact ⟨weight,hc⟩

theorem map_fst_leavesInner (tree : LayoutNode) (vp : Rect) :
    (tree.leavesInner vp).map Prod.fst = tree.allLeaves := by
  induction tree using LayoutNode.induction generalizing vp with
  | leaf pane => rw [leavesInner,allLeaves,List.map_singleton]
  | split orient children ih =>
    rw [leavesInner,allLeaves]
    generalize weightSum children = total
    generalize vp.start orient = start
    induction children generalizing start with
    | nil => rw [leavesFrom,leavesOf,List.map_nil]
    | cons c rest ihr =>
      obtain ⟨hc,hrest⟩ := List.forall_mem_cons.mp ih
      rw [leavesFrom,leavesOf,List.map_append,hc,ihr hrest]

/-- The rectangles of the leaves lie within the viewport and apart. -/
theorem leavesInner_sound (h : tree.EachSplit Summable) (hvp : vp.Fits) :
    (∀ e ∈ tree.leavesInner vp, e.2.Within vp) ∧
    (tree.leavesInner vp).Pairwise fun e f => e.2.Apart f.2 := by
  induction tree using LayoutNode.induction generalizing vp with
  | leaf pane => simp [leavesInner,Rect.Within]
  | split orient children ih =>
    obtain ⟨hsum,hbelow⟩ := eachSplit_split.mp h
    obtain ⟨hwithin,hpairs⟩ := placed_sound orient hvp hsum
    have hchild : ∀ c ∈ placed orient vp children,
        (∀ e ∈ c.1.leavesInner c.2, e.2.Within c.2) ∧
        (c.1.leavesInner c.2).Pairwise fun e f => e.2.Apart f.2 := by
      intro c hc
      obtain ⟨weight,hmem⟩ := mem_of_placed hc
      exact ih _ hmem (hbelow _ hmem) ((hwithin c hc).fits hvp)
    rw [leavesInner_split]
    constructor
    · intro e he
      obtain ⟨c,hc,he⟩ := List.mem_flatMap.mp he
      exact ((hchild c hc).1 e he).trans (hwithin c hc)
    · rw [List.pairwise_flatMap]
      refine ⟨fun c hc => (hchild c hc).2,hpairs.imp_of_mem fun hc hd hcd e he f hf => ?_⟩
      have hapart : Rect.Apart _ _ := ⟨orient,Or.inl hcd⟩
      exact hapart.mono ((hchild _ hc).1 e he) ((hchild _ hd).1 f hf)

theorem Placed.sound (h : Placed s r tree vp) (hfit : tree.EachSplit Summable) (hvp : vp.Fits) :
    s.EachSplit Summable ∧ r.Within vp := by
  induction h with
  | refl => exact ⟨hfit,fun _ => ⟨Nat.le_refl _,Nat.le_refl _⟩⟩
  | child hmem _ ih =>
    obtain ⟨hsum,hbelow⟩ := eachSplit_split.mp hfit
    obtain ⟨weight,hc⟩ := mem_of_placed hmem
    have hwithin := (placed_sound _ hvp hsum).1 _ hmem
    obtain ⟨hs,hr⟩ := ih (hbelow _ hc) (hwithin.fits hvp)
    exact ⟨hs,hr.trans hwithin⟩

/-- One rectangle for each leaf, in order, within the viewport and without a common cell; and the
children of a split have all of it, but for less than a cell each. -/
theorem leaves_tile (h : tree.EachSplit Summable) (hvp : vp.Fits) :
    (tree.leavesInner vp).map Prod.fst = tree.allLeaves ∧
    (∀ e ∈ tree.leavesInner vp, e.2.Within vp) ∧
    (tree.leavesInner vp).Pairwise (fun e f => ¬e.2.Meets f.2) ∧
    ∀ orient children r, Placed (.split orient children) r tree vp → 0 < totalWeight children →
      ∃ lost < children.length,
        ((placed orient r children).map fun c => (c.2.extent orient).toNat).sum+lost =
          (r.extent orient).toNat := by
  obtain ⟨hwithin,hpairs⟩ := leavesInner_sound h hvp
  refine ⟨map_fst_leavesInner tree vp,hwithin,?_,fun orient children r hr hpos => ?_⟩
  · exact hpairs.imp_of_mem fun he hf hapart =>
      hapart.not_meets ((hwithin _ he).fits hvp) ((hwithin _ hf).fits hvp)
  · obtain ⟨hs,-⟩ := hr.sound h hvp
    exact sum_extents_placed (eachSplit_split.mp hs).1 hpos

/-- The viewport of `focus_dir`. -/
def unitViewport : Rect := ⟨0,0,1000,1000⟩

theorem unitViewport_fits : unitViewport.Fits := by
  intro axis
  cases axis <;> decide

theorem leaves_tile_threeWay :
    (threeWay.leavesInner unitViewport).map Prod.fst = threeWay.allLeaves ∧
    (∀ e ∈ threeWay.leavesInner unitViewport, e.2.Within unitViewport) ∧
    (threeWay.leavesInner unitViewport).Pairwise (fun e f => ¬e.2.Meets f.2) ∧
    ∀ orient children r, Placed (.split orient children) r threeWay unitViewport →
      0 < totalWeight children → ∃ lost < children.length,
        ((placed orient r children).map fun c => (c.2.extent orient).toNat).sum+lost =
          (r.extent orient).toNat :=
  leaves_tile (threeWay_splits (by decide) (by decide)) unitViewport_fits

end LayoutNode

end Pyre
