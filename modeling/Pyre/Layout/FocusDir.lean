import Mathlib.Data.List.MinMax
import Pyre.Layout.Geometry

/-!
The pane that gets the focus when it moves in one of the four directions: of those that lie wholly
on that side, the one whose centre is nearest, with both axes added up.
-/

set_option autoImplicit false

namespace Pyre
open Base

inductive Dir where
  | left
  | right
  | up
  | down
  deriving DecidableEq, Repr

namespace Rect

/-- The candidates of `focus_dir`. -/
def beyond (cur r : Rect) : Dir → Bool
  | .left => r.x+r.w ≤ cur.x
  | .right => cur.x+cur.w ≤ r.x
  | .up => r.y+r.h ≤ cur.y
  | .down => cur.y+cur.h ≤ r.y

def centre (r : Rect) (axis : Orient) : UInt32 := r.start axis+r.extent axis/2

/-- How far the centres are from each other on an axis. -/
def offset (r s : Rect) (axis : Orient) : Nat :=
  ((s.centre axis).toNat-(r.centre axis).toNat : Int).natAbs

def distance (cur r : Rect) : Nat := cur.offset r .vertical+cur.offset r .horizontal

/-- The extents have a cell in common. -/
def Overlaps (r s : Rect) (axis : Orient) : Prop :=
  (r.start axis).toNat < s.stop axis ∧ (s.start axis).toNat < r.stop axis

end Rect

namespace Dir

def axis : Dir → Orient
  | .left | .right => .vertical
  | .up | .down => .horizontal

/-- The other rectangle lies wholly on this side. -/
def Ahead (dir : Dir) (r s : Rect) : Prop :=
  match dir with
  | .left | .up => s.stop dir.axis ≤ (r.start dir.axis).toNat
  | .right | .down => r.stop dir.axis ≤ (s.start dir.axis).toNat

end Dir

instance (dir : Dir) (r s : Rect) : Decidable (dir.Ahead r s) :=
  match dir with
  | .left | .up | .right | .down => inferInstanceAs (Decidable (_ ≤ _))

instance (r s : Rect) (axis : Orient) : Decidable (r.Overlaps s axis) :=
  inferInstanceAs (Decidable (_ ∧ _))

namespace Orient

def cross : Orient → Orient
  | .vertical => .horizontal
  | .horizontal => .vertical

/-- The direction of the later children of such a split, and of the earlier ones. -/
def later : Orient → Dir
  | .vertical => .right
  | .horizontal => .down

def earlier : Orient → Dir
  | .vertical => .left
  | .horizontal => .up

end Orient

namespace LayoutNode

def focusDir (tree : LayoutNode) (current : PaneId) (dir : Dir) : Option PaneId :=
  let leaves := tree.leavesInner unitViewport
  match leaves.find? fun e => e.1 = current with
  | none => none
  | some cur =>
    let candidates := leaves.filter fun e => e.1 ≠ current ∧ cur.2.beyond e.2 dir
    (candidates.argmin fun e => cur.2.distance e.2).map Prod.fst

/-- The focus goes to a pane that lies wholly on that side. -/
def Moves (tree : LayoutNode) (pane : PaneId) (dir : Dir) : Prop :=
  ∃ q rp rq, tree.focusDir pane dir = some q ∧ tree.rectFor unitViewport pane = some rp ∧
    tree.rectFor unitViewport q = some rq ∧ dir.Ahead rp rq

end LayoutNode

namespace Rect

variable {r s t : Rect} {dir : Dir}

theorem beyond_iff (hr : r.Fits) (hs : s.Fits) : r.beyond s dir = true ↔ dir.Ahead r s := by
  have hrx := hr .vertical
  have hry := hr .horizontal
  have hsx := hs .vertical
  have hsy := hs .horizontal
  simp only [stop,start,extent] at hrx hry hsx hsy
  cases dir <;> simp only [beyond,Dir.Ahead,Dir.axis,stop,start,extent,decide_eq_true_eq,
    UInt32.le_iff_toNat_le,UInt32.toNat_add,Nat.mod_eq_of_lt hrx,Nat.mod_eq_of_lt hry,
    Nat.mod_eq_of_lt hsx,Nat.mod_eq_of_lt hsy]

theorem toNat_centre (h : r.Fits) (axis : Orient) :
    (r.centre axis).toNat = (r.start axis).toNat+(r.extent axis).toNat/2 := by
  have hfit := h axis
  have htwo : (2 : UInt32).toNat = 2 := rfl
  rw [stop] at hfit
  rw [centre,UInt32.toNat_add,UInt32.toNat_div,htwo]
  exact Nat.mod_eq_of_lt (by omega)

theorem distance_eq (dir : Dir) : r.distance s = r.offset s dir.axis+r.offset s dir.axis.cross := by
  cases dir <;> simp only [distance,Dir.axis,Orient.cross] <;> omega

/-- Along the direction the centres come one after the other. -/
theorem offset_between (hr : r.Fits) (hs : s.Fits) (ht : t.Fits) (hrs : dir.Ahead r s)
    (hst : dir.Ahead s t) :
    r.offset t dir.axis = r.offset s dir.axis+s.offset t dir.axis := by
  simp only [offset,toNat_centre hr,toNat_centre hs,toNat_centre ht]
  cases dir <;> simp only [Dir.Ahead,Dir.axis,stop] at hrs hst ⊢ <;> omega

end Rect

namespace LayoutNode

variable {tree s : LayoutNode} {vp r rp : Rect} {orient : Orient} {pane q : PaneId} {dir : Dir}
  {before after : List (LayoutNode × UInt16)} {c : LayoutNode × UInt16}

/-! Nodes of the tree and their rectangles. -/

theorem Subtree.exists_placed (h : Subtree s tree) (vp : Rect) : ∃ r, Placed s r tree vp := by
  induction h generalizing vp with
  | refl => exact ⟨vp,.refl⟩
  | @child t weight o children hmem _ ih =>
    have hplaced : ∃ rt, (t,rt) ∈ placed o vp children :=
      LayoutNode.exists_placed (List.mem_map_of_mem (f := Prod.fst) hmem)
    obtain ⟨rt,hrt⟩ := hplaced
    obtain ⟨r,hr⟩ := ih rt
    exact ⟨r,.child hrt hr⟩

theorem Placed.leaves (h : Placed s r tree vp) : s.leavesInner r <:+: tree.leavesInner vp := by
  induction h with
  | refl => exact List.infix_refl _
  | @child t rt vp o children hmem _ ih =>
    rw [leavesInner_split]
    obtain ⟨front,back,heq⟩ := List.append_of_mem hmem
    rw [heq,List.flatMap_append,List.flatMap_cons]
    exact ih.trans (List.infix_append' _ _ _)

theorem rectFor_eq_some (h : tree.allLeaves.Nodup) :
    tree.rectFor vp pane = some r ↔ (pane,r) ∈ tree.leavesInner vp := by
  rw [← map_fst_leavesInner tree vp] at h
  unfold rectFor
  generalize tree.leavesInner vp = leaves at h ⊢
  induction leaves with
  | nil => simp
  | cons e leaves ih =>
    obtain ⟨q,rq⟩ := e
    obtain ⟨hq,hnodup⟩ := List.nodup_cons.mp h
    rw [List.find?_cons]
    by_cases heq : q = pane
    · subst heq
      have hnone : (q,r) ∉ leaves := fun hmem => hq (List.mem_map.mpr ⟨_,hmem,rfl⟩)
      simp [hnone,eq_comm]
    · simp [heq,Ne.symm heq,ih hnodup]

theorem leavesOf_append (before after : List (LayoutNode × UInt16)) :
    leavesOf (before ++ after) = leavesOf before ++ leavesOf after := by
  induction before with
  | nil => rfl
  | cons c before ih => simp [leavesOf,ih]

/-- Of the children of a split the later ones lie beyond. -/
theorem ahead_children (hfit : tree.EachSplit Summable) (hvp : vp.Fits)
    (hr : Placed (.split orient (before ++ c :: after)) r tree vp) (hp : pane ∈ c.1.allLeaves) :
    ∃ rp, (pane,rp) ∈ tree.leavesInner vp ∧
      (∀ q ∈ leavesOf after, ∃ rq, (q,rq) ∈ tree.leavesInner vp ∧ orient.later.Ahead rp rq) ∧
      ∀ q ∈ leavesOf before, ∃ rq, (q,rq) ∈ tree.leavesInner vp ∧ orient.earlier.Ahead rp rq := by
  obtain ⟨hs,hwithin⟩ := hr.sound hfit hvp
  obtain ⟨hsum,hbelow⟩ := eachSplit_split.mp hs
  have hfits := hwithin.fits hvp
  obtain ⟨hchildren,hpairs⟩ := placed_sound orient hfits hsum
  have hmap := map_fst_placed orient r (before ++ c :: after)
  rw [List.map_append,List.map_cons,List.map_eq_append_iff] at hmap
  obtain ⟨pb,pc,heq,hpb,hpc⟩ := hmap
  obtain ⟨⟨_,rc⟩,pa,rfl,rfl,hpa⟩ := List.map_eq_cons_iff.mp hpc
  rw [heq,List.pairwise_append,List.pairwise_cons] at hpairs
  obtain ⟨-,⟨hlater,-⟩,hearlier⟩ := hpairs
  -- a leaf of a child has a rectangle within the child's
  have hleaf : ∀ t rt q, (t,rt) ∈ placed orient r (before ++ c :: after) → q ∈ t.allLeaves →
      ∃ rq, (q,rq) ∈ tree.leavesInner vp ∧ rq.Within rt := by
    intro t rt q hmem hq
    rw [← map_fst_leavesInner t rt,List.mem_map] at hq
    obtain ⟨⟨q,rq⟩,hin,rfl⟩ := hq
    obtain ⟨weight,hc⟩ := mem_of_placed hmem
    have htile := leavesInner_sound (hbelow _ hc) ((hchildren _ hmem).fits hfits)
    refine ⟨rq,hr.leaves.subset ?_,htile.1 _ hin⟩
    rw [leavesInner_split]
    exact List.mem_flatMap.mpr ⟨_,hmem,hin⟩
  obtain ⟨rp,hrp,hrc⟩ := hleaf c.1 rc pane (by simp [heq]) hp
  have hin := hrc orient
  refine ⟨rp,hrp,fun q hq => ?_,fun q hq => ?_⟩
  · obtain ⟨d,hd,hqd⟩ := mem_leavesOf.mp hq
    obtain ⟨⟨t,rt⟩,hmem,rfl⟩ := List.mem_map.mp (hpa ▸ List.mem_map_of_mem (f := Prod.fst) hd)
    obtain ⟨rq,hrq,hrt⟩ := hleaf _ rt q (by simp [heq,hmem]) hqd
    have hpair := hlater _ hmem
    have hout := hrt orient
    refine ⟨rq,hrq,?_⟩
    cases orient <;> simp only [Orient.later,Dir.Ahead,Dir.axis] at * <;> omega
  · obtain ⟨d,hd,hqd⟩ := mem_leavesOf.mp hq
    obtain ⟨⟨t,rt⟩,hmem,rfl⟩ := List.mem_map.mp (hpb ▸ List.mem_map_of_mem (f := Prod.fst) hd)
    obtain ⟨rq,hrq,hrt⟩ := hleaf _ rt q (by simp [heq,hmem]) hqd
    have hpair := hearlier _ hmem _ List.mem_cons_self
    have hout := hrt orient
    refine ⟨rq,hrq,?_⟩
    cases orient <;> simp only [Orient.earlier,Dir.Ahead,Dir.axis] at * <;> omega

/-! The pane that is chosen. -/

theorem rectFor_fits (hfit : tree.EachSplit Summable)
    (h : tree.rectFor unitViewport pane = some r) : r.Fits := by
  obtain ⟨e,he,rfl⟩ := Option.map_eq_some_iff.mp h
  exact ((leavesInner_sound hfit unitViewport_fits).1 e (List.mem_of_find?_eq_some he)).fits
    unitViewport_fits

/-- What is chosen is the first of the nearest among the candidates. -/
theorem focusDir_eq (h : tree.rectFor unitViewport pane = some rp) (dir : Dir) :
    tree.focusDir pane dir =
      (((tree.leavesInner unitViewport).filter fun e => e.1 ≠ pane ∧ rp.beyond e.2 dir).argmin
        fun e => rp.distance e.2).map Prod.fst := by
  obtain ⟨cur,hcur,rfl⟩ := Option.map_eq_some_iff.mp h
  simp only [focusDir,hcur]

theorem focusDir_isSome (hfit : tree.EachSplit Summable) (hnodup : tree.allLeaves.Nodup)
    (hp : tree.rectFor unitViewport pane = some rp) (hq : tree.rectFor unitViewport q = some r)
    (hne : q ≠ pane) (hahead : dir.Ahead rp r) : ∃ q', tree.focusDir pane dir = some q' := by
  have hcand : (q,r) ∈ (tree.leavesInner unitViewport).filter fun e =>
      e.1 ≠ pane ∧ rp.beyond e.2 dir := by
    have hbeyond := (Rect.beyond_iff (rectFor_fits hfit hp) (rectFor_fits hfit hq)).mpr hahead
    simp [(rectFor_eq_some hnodup).mp hq,hne,hbeyond]
  rw [focusDir_eq hp]
  cases hmin : ((tree.leavesInner unitViewport).filter fun e =>
      e.1 ≠ pane ∧ rp.beyond e.2 dir).argmin fun e => rp.distance e.2 with
  | none =>
    rw [List.argmin_eq_none.mp hmin] at hcand
    cases hcand
  | some e => exact ⟨e.1,rfl⟩

/-- It lies on that side, and no other pane there is nearer. -/
theorem focusDir_spec (hfit : tree.EachSplit Summable) (hnodup : tree.allLeaves.Nodup)
    (h : tree.focusDir pane dir = some q) :
    ∃ rp rq, tree.rectFor unitViewport pane = some rp ∧ tree.rectFor unitViewport q = some rq ∧
      q ≠ pane ∧ dir.Ahead rp rq ∧
      ∀ s rs, tree.rectFor unitViewport s = some rs → s ≠ pane → dir.Ahead rp rs →
        rp.distance rq ≤ rp.distance rs := by
  cases hp : tree.rectFor unitViewport pane with
  | none =>
    rw [rectFor,Option.map_eq_none_iff] at hp
    simp only [focusDir,hp] at h
    cases h
  | some rp =>
    rw [focusDir_eq hp] at h
    obtain ⟨⟨q,rq⟩,hmin,rfl⟩ := Option.map_eq_some_iff.mp h
    have hmem := List.argmin_mem hmin
    simp only [List.mem_filter,decide_eq_true_eq] at hmem
    obtain ⟨hleaf,hne,hbeyond⟩ := hmem
    have hq := (rectFor_eq_some hnodup).mpr hleaf
    have hfits := rectFor_fits hfit hp
    refine ⟨rp,rq,rfl,hq,hne,(Rect.beyond_iff hfits (rectFor_fits hfit hq)).mp hbeyond,?_⟩
    intro s rs hs hsne hahead
    have hcand : (s,rs) ∈ (tree.leavesInner unitViewport).filter fun e =>
        e.1 ≠ pane ∧ rp.beyond e.2 dir := by
      have hs' := (Rect.beyond_iff hfits (rectFor_fits hfit hs)).mpr hahead
      simp [(rectFor_eq_some hnodup).mp hs,hsne,hs']
    have hle := List.le_of_mem_argmin hcand hmin
    exact hle

theorem moves_of_ahead (hfit : tree.EachSplit Summable) (hnodup : tree.allLeaves.Nodup)
    (hp : (pane,rp) ∈ tree.leavesInner unitViewport)
    (hq : (q,r) ∈ tree.leavesInner unitViewport) (hne : q ≠ pane) (hahead : dir.Ahead rp r) :
    tree.Moves pane dir := by
  have hrp := (rectFor_eq_some hnodup).mpr hp
  obtain ⟨q',hq'⟩ := focusDir_isSome hfit hnodup hrp ((rectFor_eq_some hnodup).mpr hq) hne hahead
  obtain ⟨rp',rq',hrp',hrq',-,hahead',-⟩ := focusDir_spec hfit hnodup hq'
  exact ⟨q',rp',rq',hq',hrp',hrq',hahead'⟩

/-- Where a later child of a split of the tree has a pane at all, the focus moves that way from
each child before it, and the other way likewise. -/
theorem focusDir_moves (hfit : tree.EachSplit Summable) (hnodup : tree.allLeaves.Nodup)
    (hsub : Subtree (.split orient (before ++ c :: after)) tree) (hp : pane ∈ c.1.allLeaves) :
    (leavesOf after ≠ [] → tree.Moves pane orient.later) ∧
    (leavesOf before ≠ [] → tree.Moves pane orient.earlier) := by
  obtain ⟨r,hr⟩ := hsub.exists_placed unitViewport
  obtain ⟨rp,hrp,hafter,hbefore⟩ := ahead_children hfit unitViewport_fits hr hp
  have hsplit : (leavesOf (before ++ c :: after)).Nodup := by
    have hinfix := hr.leaves.map Prod.fst
    rw [map_fst_leavesInner,map_fst_leavesInner,allLeaves] at hinfix
    exact hnodup.sublist hinfix.sublist
  rw [leavesOf_append,leavesOf,List.nodup_append,List.nodup_append] at hsplit
  obtain ⟨-,⟨-,-,hlater⟩,hearlier⟩ := hsplit
  constructor
  · intro hsome
    obtain ⟨q,hq⟩ := List.exists_mem_of_ne_nil _ hsome
    obtain ⟨rq,hrq,hahead⟩ := hafter q hq
    exact moves_of_ahead hfit hnodup hrp hrq (hlater pane hp q hq).symm hahead
  · intro hsome
    obtain ⟨q,hq⟩ := List.exists_mem_of_ne_nil _ hsome
    obtain ⟨rq,hrq,hahead⟩ := hbefore q hq
    have hne := hearlier q hq pane (List.mem_append_left _ hp)
    exact moves_of_ahead hfit hnodup hrp hrq hne hahead

theorem focusDir_moves_threeWay :
    (leavesOf [(.leaf ⟨3⟩,50)] ≠ [] → threeWay.Moves ⟨2⟩ Orient.vertical.later) ∧
    (leavesOf [] ≠ [] → threeWay.Moves ⟨2⟩ Orient.vertical.earlier) :=
  have hinner : Subtree (.split .vertical ([] ++ (.leaf ⟨2⟩,50) :: [(.leaf ⟨3⟩,50)])) threeWay :=
    .child (List.mem_cons_of_mem _ List.mem_cons_self) .refl
  focusDir_moves (threeWay_splits (by decide) (by decide)) (by decide) hinner
    (List.mem_singleton_self _)

/-- The second child has no pane. -/
def besideEmpty : LayoutNode := .split .vertical [(.leaf ⟨1⟩,50),(.split .horizontal [],50)]

theorem besideEmpty_stuck :
    ¬∀ tree orient before c after pane, tree.EachSplit Summable → tree.allLeaves.Nodup →
      Subtree (.split orient (before ++ c :: after)) tree → pane ∈ c.1.allLeaves → after ≠ [] →
        tree.Moves pane orient.later := by
  intro hall
  have hsum : besideEmpty.EachSplit Summable := by
    simp [besideEmpty,eachSplit_split,eachSplit_leaf,Summable,totalWeight]
  have hmoves := hall besideEmpty .vertical [] (.leaf ⟨1⟩,50) [(.split .horizontal [],50)] ⟨1⟩ hsum
    (by decide) .refl (List.mem_singleton_self _) (by decide)
  obtain ⟨q,rp,rq,hq,-⟩ := hmoves
  have hnone : besideEmpty.focusDir ⟨1⟩ .right = none := by decide
  rw [Orient.later,hnone] at hq
  cases hq

/-! A pane between the two. -/

/-- The third pane lies on that side, has cells beside the first and ends before the other. -/
def Between (tree : LayoutNode) (dir : Dir) (p s q : PaneId) : Prop :=
  ∃ rp rs rq, tree.rectFor unitViewport p = some rp ∧ tree.rectFor unitViewport s = some rs ∧
    tree.rectFor unitViewport q = some rq ∧ s ≠ p ∧ s ≠ q ∧ dir.Ahead rp rs ∧
    rp.Overlaps rs dir.axis.cross ∧ dir.Ahead rs rq

/-- To the side the third pane's centre is further off the first's than the other's is, by at least
what lies between these two along the direction. -/
def Aside (tree : LayoutNode) (dir : Dir) (p s q : PaneId) : Prop :=
  ∃ rp rs rq, tree.rectFor unitViewport p = some rp ∧ tree.rectFor unitViewport s = some rs ∧
    tree.rectFor unitViewport q = some rq ∧
    rs.offset rq dir.axis+rp.offset rq dir.axis.cross ≤ rp.offset rs dir.axis.cross

theorem aside_of_between (hfit : tree.EachSplit Summable) (hnodup : tree.allLeaves.Nodup)
    (hq : tree.focusDir pane dir = some q) {third : PaneId}
    (h : tree.Between dir pane third q) : tree.Aside dir pane third q := by
  obtain ⟨rp,rs,rq,hrp,hrs,hrq,hne,-,hahead,-,hbefore⟩ := h
  obtain ⟨rp',rq',hrp',hrq',-,-,hnearest⟩ := focusDir_spec hfit hnodup hq
  obtain rfl := Option.some.inj (hrp.symm.trans hrp')
  obtain rfl := Option.some.inj (hrq.symm.trans hrq')
  have hle := hnearest third rs hrs hne hahead
  have hsum := Rect.offset_between (rectFor_fits hfit hrp) (rectFor_fits hfit hrs)
    (rectFor_fits hfit hrq) hahead hbefore
  rw [Rect.distance_eq dir,Rect.distance_eq dir,hsum] at hle
  exact ⟨rp,rs,rq,hrp,hrs,hrq,by omega⟩

theorem Tiled.summable (h : tree.Tiled) : tree.EachSplit Summable := by
  intro orient children hsub
  obtain ⟨a,b,wa,wb,rfl,hw⟩ := h.shares hsub
  have hsum := hw.sum
  simp only [Summable,totalWeight,List.map_cons,List.map_nil,List.sum_cons,List.sum_nil]
  omega

/-- In a tree that comes about from a leaf, the focus passes over a pane only where that one's
centre is further off to the side. -/
theorem focusDir_between {first third : PaneId} {steps : List TreeStep}
    (hrun : exec step (.leaf first) steps = some tree) (hq : tree.focusDir pane dir = some q)
    (h : tree.Between dir pane third q) : tree.Aside dir pane third q := by
  have hsound := (tiling_sound first steps).1.last hrun
  exact aside_of_between hsound.tiled.summable hsound.nodup hq h

/-- A narrow pane of full height between two small ones. -/
def tallBetween : LayoutNode :=
  .split .vertical [
    (.split .horizontal [(.leaf ⟨1⟩,50),(.leaf ⟨4⟩,50)],95),
    (.split .vertical [(.leaf ⟨2⟩,50),
      (.split .horizontal [(.leaf ⟨3⟩,50),(.leaf ⟨5⟩,50)],50)],5)]

def tallBetweenSteps : List TreeStep :=
  [.splitFocused ⟨1⟩ ⟨2⟩ .vertical,.setWeight ⟨1⟩ 95,.splitFocused ⟨2⟩ ⟨3⟩ .vertical,
    .splitFocused ⟨1⟩ ⟨4⟩ .horizontal,.splitFocused ⟨3⟩ ⟨5⟩ .horizontal]

theorem exec_tallBetween : exec step (.leaf ⟨1⟩) tallBetweenSteps = some tallBetween := by rfl

theorem between_tallBetween : tallBetween.Between .right ⟨1⟩ ⟨2⟩ ⟨3⟩ :=
  ⟨⟨0,0,950,500⟩,⟨950,0,25,1000⟩,⟨975,0,25,500⟩,by decide,by decide,by decide,by decide,by decide,
    by decide,by decide,by decide⟩

theorem focusDir_between_tallBetween : tallBetween.Aside .right ⟨1⟩ ⟨2⟩ ⟨3⟩ :=
  focusDir_between exec_tallBetween (by decide) between_tallBetween

theorem tallBetween_jumped :
    ¬∀ first steps tree pane dir q third, exec step (.leaf first) steps = some tree →
      tree.focusDir pane dir = some q → ¬tree.Between dir pane third q := by
  intro hall
  exact hall _ _ _ _ _ ⟨3⟩ _ exec_tallBetween (by decide) between_tallBetween

end LayoutNode

end Pyre
