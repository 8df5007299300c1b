import Mathlib.Algebra.Order.Floor.Ring
import Mathlib.Data.Rat.Floor
import Pyre.Gpu.PairWeights
import Pyre.Layout.Geometry

/-!
A boundary of two panes that is dragged in the viewer. It is found by the rectangles of the
leaves; while it is dragged the weights of the two are set in the split that has both, and the
daemon is told one of them when the button is let go.
-/

set_option autoImplicit false

namespace Pyre.Gpu
open LayoutNode

/-- A place in the window, in pixels. -/
structure Point where
  px : ℚ
  py : ℚ
  deriving DecidableEq

def Point.along (pt : Point) : Orient → ℚ
  | .vertical => pt.px
  | .horizontal => pt.py

/-- The axis across. -/
def across : Orient → Orient
  | .vertical => .horizontal
  | .horizontal => .vertical

/-- The axes of a drag are those of a split. -/
structure DragResize where
  axis : Orient
  startPx : ℚ
  viewportDim : UInt32
  leftPane : PaneId
  rightPane : PaneId
  startWeightLeft : UInt16
  startWeightRight : UInt16
  deriving DecidableEq

/-! Finding a boundary. -/

def borderHitPx : ℚ := 6

/-- The point is where the first rectangle ends on the axis, and both are the same across it. -/
def AtEdge (axis : Orient) (pt : Point) (lr rr : Rect) : Prop :=
  lr.start (across axis) = rr.start (across axis) ∧
  lr.extent (across axis) = rr.extent (across axis) ∧
  |pt.along axis-((lr.start axis+lr.extent axis).toNat : ℚ)| ≤ borderHitPx ∧
  ((lr.start (across axis)).toNat : ℚ) ≤ pt.along (across axis) ∧
  pt.along (across axis) < ((lr.start (across axis)+lr.extent (across axis)).toNat : ℚ)

instance (axis : Orient) (pt : Point) (lr rr : Rect) : Decidable (AtEdge axis pt lr rr) :=
  inferInstanceAs (Decidable (_ ∧ _))

/-- The drag, with the left part of what the two have together. -/
def dragOf (axis : Orient) (pt : Point) (vp : Rect) (l r : PaneId × Rect) : DragResize :=
  let total := l.2.extent axis+r.2.extent axis
  let wl := ((l.2.extent axis).toUInt64*100/total.toUInt64).toUInt16
  { axis := axis
    startPx := pt.along axis
    viewportDim := vp.extent axis
    leftPane := l.1
    rightPane := r.1
    startWeightLeft := wl
    startWeightRight := .ofNat (100-wl.toNat) }

/-- `none` where the code panics, as it divides by what the two have together. -/
def hitAt (axis : Orient) (pt : Point) (vp : Rect) (l r : PaneId × Rect) : Option DragResize :=
  if l.2.extent axis+r.2.extent axis = 0 then none else some (dragOf axis pt vp l r)

/-- The pairs that the two loops go through, in their order. -/
def pairsOf {α : Type} : List α → List (α × α)
  | [] => []
  | x :: rest => rest.map (fun y => (x,y)) ++ pairsOf rest

/-- `none` where the code panics. -/
def hitFrom (pt : Point) (vp : Rect) :
    List ((PaneId × Rect) × (PaneId × Rect)) → Option (Option DragResize)
  | [] => some none
  | (l,r) :: rest =>
    if AtEdge .vertical pt l.2 r.2 then (hitAt .vertical pt vp l r).map some
    else if AtEdge .horizontal pt l.2 r.2 then (hitAt .horizontal pt vp l r).map some
    else hitFrom pt vp rest

def viewportRect (w h : UInt32) : Rect := ⟨0,0,w,h⟩

def tryHitBoundary (tree : LayoutNode) (vp : Rect) (pt : Point) : Option (Option DragResize) :=
  hitFrom pt vp (pairsOf (tree.leavesInner vp))

/-! The drag. -/

/-- `as i32`: towards zero, and no further than the ends. -/
def toI32 (x : ℚ) : Int := max (-2^31) (min (2^31-1) (if 0 ≤ x then ⌊x⌋ else ⌈x⌉))

namespace DragResize

/-- A boundary is found only where the viewport has an extent on the axis. -/
def deltaPct (d : DragResize) (current : ℚ) : Int :=
  let deltaPx := current-d.startPx
  let totalPx : ℚ := d.viewportDim.toNat
  toI32 (deltaPx/totalPx*100)

/-- The sum is one of 32 bits. -/
def newLeft (d : DragResize) (current : ℚ) : UInt16 :=
  clampWeight (((d.startWeightLeft.toNat : Int)+d.deltaPct current).bmod (2^32))

def newRight (d : DragResize) (current : ℚ) : UInt16 := .ofNat (100-(d.newLeft current).toNat)

def applyDragWeights (d : DragResize) (tree : LayoutNode) (pt : Point) : LayoutNode :=
  let current := pt.along d.axis
  (applyWeightsForPair d.leftPane d.rightPane (d.newLeft current) (d.newRight current) tree).getD
    tree

/-- The tree that is shown after the moves of the pointer. -/
def preview (d : DragResize) (tree : LayoutNode) (moves : List Point) : LayoutNode :=
  moves.foldl d.applyDragWeights tree

/-- The weight that is sent when the button is let go; the pointer is where it was moved last. -/
def released (d : DragResize) (pt : Point) (moves : List Point) : UInt16 :=
  d.newLeft ((moves.getLastD pt).along d.axis)

/-- The tree of the daemon when that has been served. -/
def handleLeftUp (d : DragResize) (pt : Point) (moves : List Point) (tree : LayoutNode) :
    LayoutNode :=
  tree.setWeight d.leftPane (d.released pt moves)

end DragResize

/-! What it is to be right. -/

/-- One ends where the other begins, next to it, and the point is there. -/
structure Touch (axis : Orient) (pt : Point) (lr rr : Rect) : Prop where
  meets : lr.stop axis = (rr.start axis).toNat
  beside : (rr.start (across axis)).toNat < lr.stop (across axis) ∧
    (lr.start (across axis)).toNat < rr.stop (across axis)
  near : |pt.along axis-(lr.stop axis : ℚ)| ≤ borderHitPx

variable {tree : LayoutNode} {vp : Rect} {pt : Point} {moves : List Point}
  {axis : Orient} {l r : PaneId × Rect}

/-- The two leaves touch where the boundary was pressed, every tree that is shown on the way has
its weights in order, and the last of them is the daemon's. -/
structure Commits (tree : LayoutNode) (vp : Rect) (pt : Point) (moves : List Point)
    (d : DragResize) : Prop where
  touch : ∃ lr rr, (d.leftPane,lr) ∈ tree.leavesInner vp ∧
    (d.rightPane,rr) ∈ tree.leavesInner vp ∧ Touch d.axis pt lr rr
  weighted : ∀ shown, shown <+: moves → (d.preview tree shown).EachSplit Weighted
  served : d.handleLeftUp pt moves tree = d.preview tree moves

/-- A press does not panic, and a drag that it starts commits what it shows. -/
def Right (tree : LayoutNode) (vp : Rect) (pt : Point) (moves : List Point) : Prop :=
  ∃ found, tryHitBoundary tree vp pt = some found ∧
    ∀ d, found = some d → Commits tree vp pt moves d

/-! Where it is. -/

/-- No leaf ends where it is pressed, with another of the same extent. -/
def NoEdge (tree : LayoutNode) (vp : Rect) (pt : Point) : Prop :=
  ∀ e ∈ pairsOf (tree.leavesInner vp), ∀ axis, ¬AtEdge axis pt e.1.2 e.2.2

/-- The first pair of leaves that is at the point, and on which axis. -/
def FirstAt (tree : LayoutNode) (vp : Rect) (pt : Point) (axis : Orient)
    (l r : PaneId × Rect) : Prop :=
  ∃ before after, pairsOf (tree.leavesInner vp) = before ++ (l,r) :: after ∧
    (∀ e ∈ before, ∀ axis, ¬AtEdge axis pt e.1.2 e.2.2) ∧ AtEdge axis pt l.2 r.2 ∧
    (axis = .horizontal → ¬AtEdge .vertical pt l.2 r.2)

/-- The two are all that the tree has. -/
def OnlyPair (tree : LayoutNode) (p q : PaneId) : Prop :=
  ∃ orient children, tree = .split orient children ∧ children.length = 2 ∧
    HasLeaf p children ∧ HasLeaf q children

theorem OnlyPair.coupled {tree : LayoutNode} {p q : PaneId} (h : OnlyPair tree p q) :
    Coupled tree p q := by
  obtain ⟨orient,children,rfl,hlen,hp,hq⟩ := h
  exact ⟨orient,children,.refl,hlen,hp,hq⟩

/-- There is nothing to be found, or the two leaves have an extent and are all that the tree has,
with the pointer moved, or nothing is changed: they touch, and what is asked for is what both
their split and the tree's own have. -/
def Committed (tree : LayoutNode) (vp : Rect) (pt : Point) (moves : List Point) : Prop :=
  NoEdge tree vp pt ∨ ∃ axis l r, FirstAt tree vp pt axis l r ∧
    ¬(l.2.extent axis = 0 ∧ r.2.extent axis = 0) ∧
    ((moves ≠ [] ∧ OnlyPair tree l.1 r.1) ∨
      (l.2.stop axis = (r.2.start axis).toNat ∧
        tree.Unmoved l.1 ((dragOf axis pt vp l r).released pt moves) ∧
        (moves = [] ∨ ¬Siblings l.1 r.1 tree ∨
          Holds tree l.1 r.1 ((dragOf axis pt vp l r).released pt moves)
            (.ofNat (100-((dragOf axis pt vp l r).released pt moves).toNat)))))

/-! The loops. -/

theorem hitFrom_noEdge {ps : List ((PaneId × Rect) × (PaneId × Rect))}
    (h : ∀ e ∈ ps, ∀ axis, ¬AtEdge axis pt e.1.2 e.2.2) : hitFrom pt vp ps = some none := by
  induction ps with
  | nil => rfl
  | cons e ps ih =>
    obtain ⟨l,r⟩ := e
    obtain ⟨he,hps⟩ := List.forall_mem_cons.mp h
    rw [hitFrom,if_neg (he .vertical),if_neg (he .horizontal)]
    exact ih hps

theorem hitFrom_firstAt {before after : List ((PaneId × Rect) × (PaneId × Rect))}
    (hbefore : ∀ e ∈ before, ∀ axis, ¬AtEdge axis pt e.1.2 e.2.2)
    (hedge : AtEdge axis pt l.2 r.2)
    (hfirst : axis = .horizontal → ¬AtEdge .vertical pt l.2 r.2) :
    hitFrom pt vp (before ++ (l,r) :: after) = (hitAt axis pt vp l r).map some := by
  induction before with
  | nil =>
    rw [List.nil_append,hitFrom]
    cases axis with
    | vertical => rw [if_pos hedge]
    | horizontal => rw [if_neg (hfirst rfl),if_pos hedge]
  | cons e before ih =>
    obtain ⟨he,hbefore⟩ := List.forall_mem_cons.mp hbefore
    rw [List.cons_append,hitFrom,if_neg (he .vertical),if_neg (he .horizontal)]
    exact ih hbefore

theorem firstAt_cases (ps : List ((PaneId × Rect) × (PaneId × Rect))) (pt : Point) :
    (∀ e ∈ ps, ∀ axis, ¬AtEdge axis pt e.1.2 e.2.2) ∨
    ∃ axis l r before after, ps = before ++ (l,r) :: after ∧
      (∀ e ∈ before, ∀ axis, ¬AtEdge axis pt e.1.2 e.2.2) ∧ AtEdge axis pt l.2 r.2 ∧
      (axis = .horizontal → ¬AtEdge .vertical pt l.2 r.2) := by
  induction ps with
  | nil => exact Or.inl (by simp)
  | cons e ps ih =>
    obtain ⟨l,r⟩ := e
    by_cases hv : AtEdge .vertical pt l.2 r.2
    · exact Or.inr ⟨.vertical,l,r,[],ps,rfl,by simp,hv,by simp⟩
    by_cases hh : AtEdge .horizontal pt l.2 r.2
    · exact Or.inr ⟨.horizontal,l,r,[],ps,rfl,by simp,hh,fun _ => hv⟩
    have hnone : ∀ axis, ¬AtEdge axis pt l.2 r.2 := by
      intro axis
      cases axis with
      | vertical => exact hv
      | horizontal => exact hh
    rcases ih with hall | ⟨axis,l',r',before,after,rfl,hbefore,hedge,hfirst⟩
    · exact Or.inl (List.forall_mem_cons.mpr ⟨hnone,hall⟩)
    · exact Or.inr ⟨axis,l',r',(l,r) :: before,after,rfl,
        List.forall_mem_cons.mpr ⟨hnone,hbefore⟩,hedge,hfirst⟩

theorem pairwise_pairsOf {α : Type} {R : α → α → Prop} {xs : List α} (h : xs.Pairwise R)
    {e : α × α} (he : e ∈ pairsOf xs) : R e.1 e.2 ∧ e.1 ∈ xs ∧ e.2 ∈ xs := by
  induction xs with
  | nil => cases he
  | cons x rest ih =>
    obtain ⟨hx,hrest⟩ := List.pairwise_cons.mp h
    rw [pairsOf,List.mem_append,List.mem_map] at he
    rcases he with ⟨y,hy,rfl⟩ | he
    · exact ⟨hx y hy,List.mem_cons_self,List.mem_cons_of_mem _ hy⟩
    · obtain ⟨hR,hl,hr⟩ := ih hrest he
      exact ⟨hR,List.mem_cons_of_mem _ hl,List.mem_cons_of_mem _ hr⟩

/-! The first pair. -/

theorem summable (h : tree.EachSplit Weighted) : tree.EachSplit LayoutNode.Summable := by
  refine h.mono fun cs hcs => ?_
  rw [LayoutNode.Summable,hcs.total]
  decide

/-- Two leaves of the tree, one after the other. -/
theorem FirstAt.leaves (hfirst : FirstAt tree vp pt axis l r) (h : tree.EachSplit Weighted)
    (hnodup : tree.allLeaves.Nodup) (hvp : vp.Fits) :
    l ∈ tree.leavesInner vp ∧ r ∈ tree.leavesInner vp ∧ l.1 ≠ r.1 ∧ l.2.Apart r.2 := by
  obtain ⟨before,after,hpairs,-⟩ := hfirst
  have hmem : (l,r) ∈ pairsOf (tree.leavesInner vp) := by
    rw [hpairs]
    exact List.mem_append_right _ List.mem_cons_self
  obtain ⟨-,hapart⟩ := leavesInner_sound (summable h) hvp
  have hne : (tree.leavesInner vp).Pairwise fun e f => e.1 ≠ f.1 := by
    rw [← List.pairwise_map (f := Prod.fst) (R := (· ≠ ·)),map_fst_leavesInner]
    exact hnodup
  obtain ⟨hlr,hl,hr⟩ := pairwise_pairsOf hapart hmem
  exact ⟨hl,hr,(pairwise_pairsOf hne hmem).1,hlr⟩

section edge

variable {lr rr : Rect}

/-- Across the axis the two have an extent, and the same. -/
theorem AtEdge.beside (hedge : AtEdge axis pt lr rr) (hl : lr.Fits) :
    lr.stop (across axis) = rr.stop (across axis) ∧
      (lr.start (across axis)).toNat = (rr.start (across axis)).toNat ∧
      (lr.start (across axis)).toNat < lr.stop (across axis) := by
  obtain ⟨hstart,hextent,-,hlow,hhigh⟩ := hedge
  have hfit := hl (across axis)
  have hlt : ((lr.start (across axis)).toNat : ℚ) <
      ((lr.start (across axis)+lr.extent (across axis)).toNat : ℚ) := hlow.trans_lt hhigh
  rw [Nat.cast_lt,UInt32.toNat_add] at hlt
  rw [Rect.stop] at hfit
  rw [Nat.mod_eq_of_lt hfit] at hlt
  exact ⟨by rw [Rect.stop,Rect.stop,hstart,hextent],by rw [hstart],hlt⟩

/-- So they are apart on the axis, and what they have together does not overflow. -/
theorem AtEdge.sum_extents (hedge : AtEdge axis pt lr rr) (hapart : lr.Apart rr)
    (hl : lr.Fits) (hr : rr.Fits) :
    (lr.extent axis+rr.extent axis).toNat = (lr.extent axis).toNat+(rr.extent axis).toNat := by
  obtain ⟨hstop,hstart,hlt⟩ := hedge.beside hl
  have hl' := hl axis
  have hr' := hr axis
  obtain ⟨other,hother⟩ := hapart
  have hsame : other = axis := by
    by_contra hne
    have hacross : other = across axis := by
      cases other <;> cases axis <;> simp_all [across]
    subst hacross
    omega
  subst hsame
  rw [UInt32.toNat_add]
  apply Nat.mod_eq_of_lt
  rw [Rect.stop] at hl' hr' hother
  rw [Rect.stop] at hother
  omega

theorem AtEdge.touch (hedge : AtEdge axis pt lr rr) (hl : lr.Fits)
    (hmeets : lr.stop axis = (rr.start axis).toNat) : Touch axis pt lr rr := by
  obtain ⟨hstop,hstart,hlt⟩ := hedge.beside hl
  have hfit := hl axis
  refine ⟨hmeets,⟨by omega,by omega⟩,?_⟩
  have hend : (lr.start axis+lr.extent axis).toNat = lr.stop axis := by
    rw [UInt32.toNat_add]
    exact Nat.mod_eq_of_lt hfit
  rw [← hend]
  exact hedge.2.2.1

end edge

/-- It panics where neither has an extent. -/
theorem hitAt_cases (hfirst : FirstAt tree vp pt axis l r) (h : tree.EachSplit Weighted)
    (hnodup : tree.allLeaves.Nodup) (hvp : vp.Fits) :
    (l.2.extent axis = 0 ∧ r.2.extent axis = 0 ∧ tryHitBoundary tree vp pt = none) ∨
    (¬(l.2.extent axis = 0 ∧ r.2.extent axis = 0) ∧
      tryHitBoundary tree vp pt = some (some (dragOf axis pt vp l r))) := by
  obtain ⟨hl,hr,-,hapart⟩ := hfirst.leaves h hnodup hvp
  obtain ⟨hwithin,-⟩ := leavesInner_sound (summable h) hvp
  obtain ⟨before,after,hpairs,hbefore,hedge,hfirst⟩ := hfirst
  have hsum := hedge.sum_extents hapart ((hwithin l hl).fits hvp) ((hwithin r hr).fits hvp)
  have hhit : tryHitBoundary tree vp pt = (hitAt axis pt vp l r).map some := by
    rw [tryHitBoundary,hpairs]
    exact hitFrom_firstAt hbefore hedge hfirst
  have hzero : l.2.extent axis+r.2.extent axis = 0 ↔
      l.2.extent axis = 0 ∧ r.2.extent axis = 0 := by
    simp only [← UInt32.toNat_inj,hsum,UInt32.toNat_zero]
    omega
  rw [hhit,hitAt]
  by_cases hnone : l.2.extent axis+r.2.extent axis = 0
  · rw [if_pos hnone]
    exact Or.inl ⟨(hzero.mp hnone).1,(hzero.mp hnone).2,rfl⟩
  · rw [if_neg hnone]
    exact Or.inr ⟨mt hzero.mpr hnone,rfl⟩

/-! A tree of two panes. -/

theorem leavesInner_two (orient : Orient) (p q : PaneId) (wp wq : UInt16) (vp : Rect) :
    ∃ ep eq, (LayoutNode.split orient [(.leaf p,wp),(.leaf q,wq)]).leavesInner vp =
      [(p,vp.slice orient (vp.start orient) ep),(q,vp.slice orient (vp.start orient+ep) eq)] :=
  ⟨_,_,rfl⟩

/-- The first pair is the only one, and the second begins where the first ends. -/
theorem FirstAt.two {orient : Orient} {p q : PaneId} {wp wq : UInt16}
    (hfirst : FirstAt (.split orient [(.leaf p,wp),(.leaf q,wq)]) vp pt axis l r)
    (hfits : l.2.Fits) :
    l.1 = p ∧ r.1 = q ∧ l.2.stop axis = (r.2.start axis).toNat := by
  obtain ⟨before,after,hpairs,-,hedge,-⟩ := hfirst
  obtain ⟨ep,eq,hleaves⟩ := leavesInner_two orient p q wp wq vp
  rw [hleaves] at hpairs
  have honly : before = [] ∧ ((p,vp.slice orient (vp.start orient) ep),
      (q,vp.slice orient (vp.start orient+ep) eq)) = (l,r) := by
    cases before with
    | nil =>
      simp only [pairsOf,List.map_cons,List.map_nil,List.append_nil,List.nil_append,
        List.cons.injEq] at hpairs
      exact ⟨rfl,hpairs.1⟩
    | cons e before => simp [pairsOf] at hpairs
  obtain ⟨rfl,rfl⟩ := Prod.mk.inj honly.2
  refine ⟨rfl,rfl,?_⟩
  by_cases haxis : axis = orient
  · subst haxis
    have hfit := hfits axis
    simp only [Rect.stop,Rect.start_slice_self,Rect.extent_slice_self] at hfit ⊢
    rw [UInt32.toNat_add,Nat.mod_eq_of_lt hfit]
  · -- on the other axis the first would have no extent
    have hacross : across axis = orient := by
      cases axis <;> cases orient <;> simp_all [across]
    obtain ⟨-,hstart,hlt⟩ := hedge.beside hfits
    have hfit := hfits orient
    rw [hacross] at hstart hlt
    simp only [Rect.stop,Rect.start_slice_self,Rect.extent_slice_self] at hfit hstart hlt
    rw [UInt32.toNat_add,Nat.mod_eq_of_lt hfit] at hstart
    omega

/-! The trees on the way. -/

section drag

variable {d : DragResize}

theorem shares_new (d : DragResize) (current : ℚ) :
    Shares (d.newLeft current) (d.newRight current) := by
  have hclamp := toNat_clampWeight (((d.startWeightLeft.toNat : Int)+d.deltaPct current).bmod
    (2^32))
  rw [← DragResize.newLeft] at hclamp
  have hright : (d.newRight current).toNat = 100-(d.newLeft current).toNat := by
    rw [DragResize.newRight,UInt16.toNat_ofNat']
    omega
  exact ⟨by omega,by omega,by omega⟩

theorem preview_apart (hnone : ¬Siblings d.leftPane d.rightPane tree) (moves : List Point) :
    d.preview tree moves = tree := by
  have hsame : ∀ pt, d.applyDragWeights tree pt = tree := by
    intro pt
    rw [DragResize.applyDragWeights,applyWeightsForPair_eq_none.mpr hnone,Option.getD_none]
  induction moves with
  | nil => rfl
  | cons pt moves ih => rwa [DragResize.preview,List.foldl_cons,hsame]

theorem applyDragWeights_twice (hne : d.leftPane ≠ d.rightPane) (tree : LayoutNode)
    (pt next : Point) :
    d.applyDragWeights (d.applyDragWeights tree pt) next = d.applyDragWeights tree next := by
  rw [DragResize.applyDragWeights.eq_1 d tree pt]
  cases happly : applyWeightsForPair d.leftPane d.rightPane (d.newLeft (pt.along d.axis))
      (d.newRight (pt.along d.axis)) tree with
  | none => rfl
  | some tree' =>
    have hsome : applyWeightsForPair d.leftPane d.rightPane (d.newLeft (next.along d.axis))
        (d.newRight (next.along d.axis)) tree ≠ none := by
      intro hnone
      have hapart := applyWeightsForPair_eq_none.mp hnone
      cases happly.symm.trans (applyWeightsForPair_eq_none.mpr hapart)
    obtain ⟨tree'',hnext⟩ := Option.ne_none_iff_exists'.mp hsome
    rw [Option.getD_some]
    simp only [DragResize.applyDragWeights,apply_applied hne happly,hnext,Option.getD_some]

/-- The last move makes of the first tree what is shown. -/
theorem preview_append (hne : d.leftPane ≠ d.rightPane) (tree : LayoutNode) (moves : List Point)
    (pt : Point) : d.preview tree (moves ++ [pt]) = d.applyDragWeights tree pt := by
  induction moves generalizing tree with
  | nil => rfl
  | cons first moves ih =>
    have hcons : d.preview tree (first :: moves ++ [pt]) =
        d.preview (d.applyDragWeights tree first) (moves ++ [pt]) := rfl
    rw [hcons,ih,applyDragWeights_twice hne]

theorem exists_applied (hsiblings : Siblings d.leftPane d.rightPane tree) (pt : Point) :
    ∃ tree', applyWeightsForPair d.leftPane d.rightPane (d.newLeft (pt.along d.axis))
      (d.newRight (pt.along d.axis)) tree = some tree' ∧ d.applyDragWeights tree pt = tree' := by
  obtain ⟨tree',happly⟩ := Option.ne_none_iff_exists'.mp
    (mt applyWeightsForPair_eq_none.mp (not_not.mpr hsiblings) :
      applyWeightsForPair d.leftPane d.rightPane (d.newLeft (pt.along d.axis))
        (d.newRight (pt.along d.axis)) tree ≠ none)
  exact ⟨tree',happly,by rw [DragResize.applyDragWeights,happly,Option.getD_some]⟩

/-- Once the pointer moves, the weights stay in order just where the two are all that their split
has. -/
theorem previews_weighted_iff (hne : d.leftPane ≠ d.rightPane) (h : tree.EachSplit Weighted)
    (hnodup : tree.allLeaves.Nodup) (hsiblings : Siblings d.leftPane d.rightPane tree)
    (hmoved : moves ≠ []) :
    (∀ shown, shown <+: moves → (d.preview tree shown).EachSplit Weighted) ↔
      Coupled tree d.leftPane d.rightPane := by
  have happlied : ∀ pt, (d.applyDragWeights tree pt).EachSplit Weighted ↔
      Coupled tree d.leftPane d.rightPane := by
    intro pt
    obtain ⟨tree',happly,heq⟩ := exists_applied hsiblings pt
    rw [heq]
    exact weighted_applied_iff hne h hnodup (shares_new d _) happly
  constructor
  · intro hall
    obtain ⟨pt,rest,rfl⟩ := List.exists_cons_of_ne_nil hmoved
    exact (happlied pt).mp (hall [pt] ⟨rest,rfl⟩)
  · intro hcoupled shown _
    rcases List.eq_nil_or_concat' shown with rfl | ⟨before,pt,rfl⟩
    · exact h
    · rw [preview_append hne]
      exact (happlied pt).mpr hcoupled

end drag

/-! The drag that a press starts. -/

section first

variable (hfirst : FirstAt tree vp pt axis l r) (h : tree.EachSplit Weighted)
  (hnodup : tree.allLeaves.Nodup) (hvp : vp.Fits)

include hfirst h hnodup hvp

theorem touch_iff : (∃ lr rr, (l.1,lr) ∈ tree.leavesInner vp ∧ (r.1,rr) ∈ tree.leavesInner vp ∧
    Touch axis pt lr rr) ↔ l.2.stop axis = (r.2.start axis).toNat := by
  obtain ⟨hl,hr,-,-⟩ := hfirst.leaves h hnodup hvp
  have hfits := ((leavesInner_sound (summable h) hvp).1 l hl).fits hvp
  have hedge : AtEdge axis pt l.2 r.2 := by
    obtain ⟨_,_,-,-,hedge,-⟩ := hfirst
    exact hedge
  -- a pane has one rectangle
  have hunique : ∀ {e f : PaneId × Rect}, e ∈ tree.leavesInner vp → f ∈ tree.leavesInner vp →
      e.1 = f.1 → e = f := by
    intro e f he hf
    rw [← map_fst_leavesInner tree vp] at hnodup
    exact List.inj_on_of_nodup_map hnodup he hf
  constructor
  · rintro ⟨lr,rr,hlr,hrr,htouch⟩
    rw [← hunique hlr hl rfl,← hunique hrr hr rfl]
    exact htouch.meets
  · intro hmeets
    exact ⟨l.2,r.2,hl,hr,hedge.touch hfits hmeets⟩

theorem kept_iff (moves : List Point) :
    (dragOf axis pt vp l r).handleLeftUp pt moves tree = tree ↔
      tree.Unmoved l.1 ((dragOf axis pt vp l r).released pt moves) := by
  obtain ⟨hl,hr,hne,-⟩ := hfirst.leaves h hnodup hvp
  have hmem : ∀ e ∈ tree.leavesInner vp, e.1 ∈ tree.allLeaves := by
    intro e he
    rw [← map_fst_leavesInner tree vp]
    exact List.mem_map_of_mem he
  have hsplit : tree ≠ .leaf l.1 := by
    intro hleaf
    have hmem' := hmem r hr
    rw [hleaf,allLeaves,List.mem_singleton] at hmem'
    exact hne hmem'.symm
  have hbounds := (shares_new (dragOf axis pt vp l r)
    ((moves.getLastD pt).along (dragOf axis pt vp l r).axis)).left
  exact setWeight_eq_iff h hnodup (hmem l hl) hsplit hbounds.1 hbounds.2

/-- Once the pointer has moved, with the two all that their split has. -/
theorem served_iff (hmoved : moves ≠ []) (hcoupled : Coupled tree l.1 r.1) :
    (dragOf axis pt vp l r).handleLeftUp pt moves tree = (dragOf axis pt vp l r).preview tree moves ↔
      OnlyPair tree l.1 r.1 ∨
        (tree.Unmoved l.1 ((dragOf axis pt vp l r).released pt moves) ∧
          Holds tree l.1 r.1 ((dragOf axis pt vp l r).released pt moves)
            (.ofNat (100-((dragOf axis pt vp l r).released pt moves).toNat))) := by
  obtain ⟨hl,-,hne,-⟩ := hfirst.leaves h hnodup hvp
  have hkept := kept_iff hfirst h hnodup hvp moves
  set d := dragOf axis pt vp l r
  have hsiblings : Siblings d.leftPane d.rightPane tree := hcoupled.siblings
  obtain ⟨before,last,rfl⟩ := (List.eq_nil_or_concat' moves).resolve_left hmoved
  have hreleased : d.released pt (before ++ [last]) = d.newLeft (last.along d.axis) := by
    rw [DragResize.released,List.getLastD_concat]
  obtain ⟨tree',happly,hshown⟩ := exists_applied hsiblings last
  have hnew := shares_new d (last.along d.axis)
  have hright : d.newRight (last.along d.axis) =
      .ofNat (100-(d.newLeft (last.along d.axis)).toNat) := rfl
  rw [preview_append hne,hshown]
  by_cases honly : OnlyPair tree l.1 r.1
  · rw [iff_true_intro honly,true_or,iff_true]
    obtain ⟨o,cs,rfl,htwo,hp,hq⟩ := honly
    rw [DragResize.handleLeftUp,hreleased]
    exact Option.some.inj ((applied_root hne h htwo hp hq hnew).symm.trans happly)
  · rw [or_iff_right honly]
    have hmem : l.1 ∈ tree.allLeaves := by
      rw [← map_fst_leavesInner tree vp]
      exact List.mem_map_of_mem hl
    have hinner : ∀ o cs, tree = .split o cs → ¬HasLeaf l.1 cs := by
      rintro o cs rfl hp
      obtain ⟨o',cs',hs',htwo,hp',hq'⟩ := hcoupled
      obtain ⟨-,rfl⟩ := LayoutNode.split.inj (parent_unique hnodup .refl hs' hp hp')
      exact honly ⟨o,cs,rfl,htwo,hp,hq'⟩
    rw [← hkept,hreleased,← hright,← applied_eq_iff hne hnodup hcoupled happly]
    rw [DragResize.handleLeftUp,hreleased]
    exact (applied_inner hinner hmem happly).trans and_comm

/-- The two are all that the tree has, and the second begins where the first ends. -/
theorem OnlyPair.meets (honly : OnlyPair tree l.1 r.1) :
    l.2.stop axis = (r.2.start axis).toNat := by
  obtain ⟨hl,-,hne,-⟩ := hfirst.leaves h hnodup hvp
  have hfits := ((leavesInner_sound (summable h) hvp).1 l hl).fits hvp
  obtain ⟨o,cs,rfl,htwo,⟨wp,hp⟩,⟨wq,hq⟩⟩ := honly
  obtain ⟨x,y,rfl⟩ := List.length_eq_two.mp htwo
  simp only [List.mem_cons,List.not_mem_nil,or_false] at hp hq
  rcases hp with rfl | rfl <;> rcases hq with heq | heq
  · exact absurd (LayoutNode.leaf.inj (Prod.mk.inj heq).1).symm hne
  · subst heq
    exact (hfirst.two hfits).2.2
  · subst heq
    exact (hfirst.two hfits).2.2
  · exact absurd (LayoutNode.leaf.inj (Prod.mk.inj heq).1).symm hne

theorem commits_iff (moves : List Point) : Commits tree vp pt moves (dragOf axis pt vp l r) ↔
    ((moves ≠ [] ∧ OnlyPair tree l.1 r.1) ∨
      (l.2.stop axis = (r.2.start axis).toNat ∧
        tree.Unmoved l.1 ((dragOf axis pt vp l r).released pt moves) ∧
        (moves = [] ∨ ¬Siblings l.1 r.1 tree ∨
          Holds tree l.1 r.1 ((dragOf axis pt vp l r).released pt moves)
            (.ofNat (100-((dragOf axis pt vp l r).released pt moves).toNat))))) := by
  have htouch := touch_iff hfirst h hnodup hvp
  have hkept := kept_iff hfirst h hnodup hvp moves
  obtain ⟨-,-,hne,-⟩ := hfirst.leaves h hnodup hvp
  set d := dragOf axis pt vp l r with hd
  have hall : Commits tree vp pt moves d ↔ l.2.stop axis = (r.2.start axis).toNat ∧
      (∀ shown, shown <+: moves → (d.preview tree shown).EachSplit Weighted) ∧
      d.handleLeftUp pt moves tree = d.preview tree moves := by
    rw [← htouch]
    exact ⟨fun ⟨ht,hw,hs⟩ => ⟨ht,hw,hs⟩,fun ⟨ht,hw,hs⟩ => ⟨ht,hw,hs⟩⟩
  rw [hall]
  -- where no move changes the tree the daemon has to keep it
  have hstill : (∀ shown, d.preview tree shown = tree ∨ ¬shown <+: moves) →
      (((∀ shown, shown <+: moves → (d.preview tree shown).EachSplit Weighted) ∧
        d.handleLeftUp pt moves tree = d.preview tree moves) ↔
          tree.Unmoved l.1 (d.released pt moves)) := by
    intro hsame
    rw [(hsame moves).resolve_right (not_not.mpr List.prefix_rfl),hkept]
    refine and_iff_right fun shown hshown => ?_
    rw [(hsame shown).resolve_right (not_not.mpr hshown)]
    exact h
  by_cases hmoved : moves = []
  · subst hmoved
    rw [hstill fun shown => ?_]
    · simp
    · rcases eq_or_ne shown [] with rfl | hshown
      · exact Or.inl rfl
      · exact Or.inr fun hprefix => hshown (List.prefix_nil.mp hprefix)
  by_cases hsiblings : Siblings l.1 r.1 tree
  · have hweighted : (∀ shown, shown <+: moves → (d.preview tree shown).EachSplit Weighted) ↔
        Coupled tree l.1 r.1 := previews_weighted_iff (d := d) hne h hnodup hsiblings hmoved
    rw [hweighted]
    by_cases htwo : Coupled tree l.1 r.1
    · rw [and_iff_right htwo,served_iff hfirst h hnodup hvp hmoved htwo]
      by_cases honly : OnlyPair tree l.1 r.1
      · simp [honly,hmoved,honly.meets hfirst h hnodup hvp]
      · simp [honly,hmoved,hsiblings]
        exact fun _ => Iff.rfl
    · -- neither is in order, as their split has another child
      have hnot : ¬OnlyPair tree l.1 r.1 := fun honly => htwo honly.coupled
      have hnot' : ∀ {a b}, ¬Holds tree l.1 r.1 a b := fun hholds => htwo hholds.coupled
      simp [hnot,hnot',htwo,hmoved,hsiblings]
  · rw [hstill fun shown => Or.inl (preview_apart hsiblings shown)]
    have hnot : ¬OnlyPair tree l.1 r.1 := fun honly => hsiblings honly.coupled.siblings
    simp [hnot,hsiblings]

end first

theorem viewportRect_fits (w h : UInt32) : (viewportRect w h).Fits := by
  intro axis
  have hw := w.toNat_lt
  have hh := h.toNat_lt
  cases axis <;> simp [viewportRect,Rect.stop,Rect.start,Rect.extent] <;> omega

/-- Of any tree with its weights in order and no pane twice, any viewport, press and drag. -/
theorem drag_right_iff (h : tree.EachSplit Weighted) (hnodup : tree.allLeaves.Nodup)
    (width height : UInt32) (pt : Point) (moves : List Point) :
    Right tree (viewportRect width height) pt moves ↔
      Committed tree (viewportRect width height) pt moves := by
  have hvp := viewportRect_fits width height
  generalize viewportRect width height = vp at hvp ⊢
  constructor
  · rintro ⟨found,hfound,hcommits⟩
    rcases firstAt_cases (pairsOf (tree.leavesInner vp)) pt with hnone | ⟨axis,l,r,hfirst⟩
    · exact Or.inl hnone
    rcases hitAt_cases hfirst h hnodup hvp with ⟨-,-,hpanics⟩ | ⟨hextent,hhit⟩
    · cases hfound.symm.trans hpanics
    obtain rfl := Option.some.inj (hhit.symm.trans hfound)
    exact Or.inr ⟨axis,l,r,hfirst,hextent,
      (commits_iff hfirst h hnodup hvp moves).mp (hcommits _ rfl)⟩
  · rintro (hnone | ⟨axis,l,r,hfirst,hextent,hwhere⟩)
    · exact ⟨none,hitFrom_noEdge hnone,fun d hd => by cases hd⟩
    rcases hitAt_cases hfirst h hnodup hvp with ⟨hl,hr,-⟩ | ⟨-,hhit⟩
    · exact absurd ⟨hl,hr⟩ hextent
    refine ⟨_,hhit,fun d hd => ?_⟩
    obtain rfl := Option.some.inj hd
    exact (commits_iff hfirst h hnodup hvp moves).mpr hwhere

/-- Two panes side by side. -/
def halves : LayoutNode := .split .vertical [(.leaf ⟨1⟩,50),(.leaf ⟨2⟩,50)]

theorem halves_weighted : halves.EachSplit Weighted :=
  eachSplit_split.mpr ⟨⟨by decide,by decide,by decide⟩,by simp [eachSplit_leaf]⟩

theorem drag_right_iff_halves :
    Right halves (viewportRect 1000 1000) ⟨500,500⟩ [⟨600,500⟩] ↔
      Committed halves (viewportRect 1000 1000) ⟨500,500⟩ [⟨600,500⟩] :=
  drag_right_iff halves_weighted (by decide) 1000 1000 ⟨500,500⟩ [⟨600,500⟩]

/-- The panes 2 and 3 are one above the other, to the right of 1. -/
def column : LayoutNode :=
  .split .vertical [(.leaf ⟨1⟩,50),(.split .horizontal [(.leaf ⟨2⟩,50),(.leaf ⟨3⟩,50)],50)]

theorem column_weighted : column.EachSplit Weighted := by
  have hlower : (LayoutNode.split .horizontal [(.leaf ⟨2⟩,50),(.leaf ⟨3⟩,50)]).EachSplit Weighted :=
    eachSplit_split.mpr ⟨⟨by decide,by decide,by decide⟩,by simp [eachSplit_leaf]⟩
  exact eachSplit_split.mpr ⟨⟨by decide,by decide,by decide⟩,by simp [eachSplit_leaf,hlower]⟩

/-- The boundary of 2 and 3 is dragged down: they are shown with 60 and 40, and the daemon makes
the column of both 60 wide. -/
theorem preview_not_served : ¬∀ (tree : LayoutNode) (width height : UInt32) (pt : Point)
    (moves : List Point), tree.EachSplit Weighted → tree.allLeaves.Nodup →
      Right tree (viewportRect width height) pt moves := by
  intro hall
  obtain ⟨found,hfound,hcommits⟩ := hall column 1000 1000 ⟨750,500⟩ [⟨750,600⟩] column_weighted
    (by decide)
  have hhit : tryHitBoundary column (viewportRect 1000 1000) ⟨750,500⟩ =
      some (some (dragOf .horizontal ⟨750,500⟩ (viewportRect 1000 1000)
        (⟨2⟩,⟨500,0,500,500⟩) (⟨3⟩,⟨500,500,500,500⟩))) := by decide +kernel
  obtain rfl := Option.some.inj (hhit.symm.trans hfound)
  have hweights := congrArg (fun t => match t with
    | LayoutNode.split _ cs => cs.map Prod.snd
    | .leaf _ => []) (hcommits _ rfl).served
  revert hweights
  decide +kernel

end Pyre.Gpu
