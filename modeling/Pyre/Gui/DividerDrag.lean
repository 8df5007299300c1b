import Mathlib.Algebra.Order.Floor.Ring
import Mathlib.Data.Rat.Floor
import Mathlib.Tactic.Linarith
import Pyre.Layout.Tiling

/-!
A divider that is dragged. It shows other weights for the two children beside it, and the drop
commits them by the first pane below each. What the daemon sets by a pane is a weight of the
tree's own split, whichever split the divider is in.
-/

set_option autoImplicit false

namespace Pyre.Gui.DividerDrag
open Base LayoutNode

/-! The tree as it is drawn. -/

mutual

/-- `none` below a split without children, where the code fails. -/
def firstLeaf : LayoutNode → Option PaneId
  | .leaf pane => some pane
  | .split _ children => firstLeafOf children

def firstLeafOf : List (LayoutNode × UInt16) → Option PaneId
  | [] => none
  | (child,_) :: _ => firstLeaf child

end

/-- The split that a path of child indices leads to. -/
def splitAt : LayoutNode → List Nat → Option (List (LayoutNode × UInt16))
  | .leaf _, _ => none
  | .split _ children, [] => some children
  | .split _ children, k :: path =>
    match children[k]? with
    | some (child,_) => splitAt child path
    | none => none

def weightsAt (tree : LayoutNode) (path : List Nat) : Option (List UInt16) :=
  (splitAt tree path).map fun children => children.map Prod.snd

/-- Of the split at the path, the boundary between this child and the next. -/
structure Handle where
  path : List Nat
  leftIdx : Nat
  deriving DecidableEq, Repr

/-- The children on the two sides. -/
def sides (tree : LayoutNode) (handle : Handle) : Option (LayoutNode × LayoutNode) :=
  match splitAt tree handle.path with
  | none => none
  | some children =>
    match children[handle.leftIdx]?,children[handle.leftIdx+1]? with
    | some (left,_),some (right,_) => some (left,right)
    | _,_ => none

/-! The drag. -/

/-- What is read when the divider is pressed: the sizes of the wraps beside it, the place of the
pointer, and the weights that the node has. -/
structure Press where
  leftSize : ℚ
  rightSize : ℚ
  startPos : ℚ
  leftW0 : ℚ
  rightW0 : ℚ

def minPx : ℚ := 60

namespace Press

def totalSize (p : Press) : ℚ := p.leftSize+p.rightSize

def weightSum (p : Press) : ℚ := p.leftW0+p.rightW0

/-- The weights that a move shows. Of two wraps without a size the ratio is no finite number, and
the bridge takes no other. -/
def onMove (p : Press) (pos : ℚ) : Option (ℚ × ℚ) :=
  if p.totalSize = 0 then none
  else
    let delta := pos-p.startPos
    let newLeft := max minPx (min (p.totalSize-minPx) (p.leftSize+delta))
    let ratio := newLeft/p.totalSize
    let lastLeftW := p.weightSum*ratio
    some (lastLeftW,p.weightSum-lastLeftW)

/-- The weights that are shown when the button is let go. -/
def shown (p : Press) (moves : List ℚ) : Option (ℚ × ℚ) :=
  moves.foldl (fun _ pos => p.onMove pos) (some (p.leftW0,p.rightW0))

end Press

/-- The weights that a node has: it is drawn with those of a layout, and every drop leaves it the
ones that were shown. -/
inductive NodeWeights : ℚ → ℚ → Prop where
  | drawn {a b : UInt16} (h : Shares a b) : NodeWeights a.toNat b.toNat
  | dropped {p : Press} {moves : List ℚ} {l r : ℚ} (h : NodeWeights p.leftW0 p.rightW0)
      (hshown : p.shown moves = some (l,r)) : NodeWeights l r

/-! The drop. -/

/-- `Math.round`: a half goes up. -/
def mathRound (w : ℚ) : Int := ⌊w+1/2⌋

/-- The command of the bridge, and the call that it makes. -/
def setWeightCommand (tree : LayoutNode) (pane : PaneId) (weight : Int) : LayoutNode :=
  let clamped := clampWeight weight
  tree.setWeight pane clamped

/-- The daemon's tree when both calls of the drop have been served, in the one order or the
other. -/
def onUp (tree : LayoutNode) (handle : Handle) (l r : ℚ) (leftFirst : Bool) :
    Option LayoutNode :=
  match sides tree handle with
  | none => none
  | some (left,right) =>
    match firstLeaf left,firstLeaf right with
    | some leftPane,some rightPane =>
      if leftFirst then
        some (setWeightCommand (setWeightCommand tree leftPane (mathRound l)) rightPane
          (mathRound r))
      else
        some (setWeightCommand (setWeightCommand tree rightPane (mathRound r)) leftPane
          (mathRound l))
    | _,_ => none

/-- The two weights beside the divider are those shown, rounded and clamped, their split has the
sum that it had, and every other split its weights. -/
structure Commits (tree tree' : LayoutNode) (handle : Handle) (l r : ℚ) : Prop where
  beside : ∃ ws ws', weightsAt tree handle.path = some ws ∧
    weightsAt tree' handle.path = some ws' ∧
    ws'[handle.leftIdx]? = some (clampWeight (mathRound l)) ∧
    ws'[handle.leftIdx+1]? = some (clampWeight (mathRound r)) ∧
    (ws'.map UInt16.toNat).sum = (ws.map UInt16.toNat).sum
  others : ∀ path, path ≠ handle.path → weightsAt tree' path = weightsAt tree path

variable {tree tree' a b : LayoutNode} {handle : Handle} {pane : PaneId} {orient : Orient}
  {wa wb c d : UInt16} {children : List (LayoutNode × UInt16)} {path : List Nat} {p : Press}
  {l r : ℚ}

/-! What is shown. -/

theorem shown_sum {moves : List ℚ} (h : p.shown moves = some (l,r)) : l+r = p.weightSum := by
  rcases List.eq_nil_or_concat' moves with rfl | ⟨before,pos,rfl⟩
  · obtain ⟨rfl,rfl⟩ := Prod.mk.inj (Option.some.inj h)
    rfl
  · rw [Press.shown,List.foldl_append] at h
    simp only [List.foldl_cons,List.foldl_nil,Press.onMove] at h
    split at h
    · cases h
    · obtain ⟨rfl,rfl⟩ := Prod.mk.inj (Option.some.inj h)
      ring

/-- No drag changes what the two weights of a node make up. -/
theorem NodeWeights.sum (h : NodeWeights l r) : l+r = 100 := by
  induction h with
  | drawn h =>
    have hsum := h.sum
    exact_mod_cast hsum
  | dropped _ hshown ih => rw [shown_sum hshown,Press.weightSum,ih]

/-- The two roundings agree but for a half, which both of them take. -/
theorem mathRound_cases (hsum : l+r = 100) :
    (Int.fract l < 1/2 ∧ mathRound l = ⌊l⌋ ∧ mathRound r = 100-⌊l⌋) ∨
    (Int.fract l = 1/2 ∧ mathRound l = ⌊l⌋+1 ∧ mathRound r = 100-⌊l⌋) ∨
    (1/2 < Int.fract l ∧ mathRound l = ⌊l⌋+1 ∧ mathRound r = 99-⌊l⌋) := by
  have hsplit := Int.floor_add_fract l
  have hnonneg := Int.fract_nonneg l
  have hlt := Int.fract_lt_one l
  rcases lt_trichotomy (Int.fract l) (1/2) with hfract | hfract | hfract
  · refine Or.inl ⟨hfract,?_,?_⟩
    · rw [mathRound,Int.floor_eq_iff]
      constructor <;> linarith
    · rw [mathRound,Int.floor_eq_iff]
      push_cast
      constructor <;> linarith
  · refine Or.inr (Or.inl ⟨hfract,?_,?_⟩)
    · rw [mathRound,Int.floor_eq_iff]
      push_cast
      constructor <;> linarith
    · rw [mathRound,Int.floor_eq_iff]
      push_cast
      constructor <;> linarith
  · refine Or.inr (Or.inr ⟨hfract,?_,?_⟩)
    · rw [mathRound,Int.floor_eq_iff]
      push_cast
      constructor <;> linarith
    · rw [mathRound,Int.floor_eq_iff]
      push_cast
      constructor <;> linarith

/-- A half between two weights that are not clamped, which makes a hundred and one of the two. -/
def Halfway (l : ℚ) : Prop := 5 < l ∧ l < 95 ∧ Int.fract l = 1/2

instance (l : ℚ) : Decidable (Halfway l) := inferInstanceAs (Decidable (_ ∧ _))

theorem halfway_iff (h : Int.fract l = 1/2) : Halfway l ↔ 5 ≤ ⌊l⌋ ∧ ⌊l⌋ ≤ 94 := by
  have hsplit := Int.floor_add_fract l
  rw [Halfway,and_iff_left h]
  constructor
  · rintro ⟨hlow,hhigh⟩
    have hlow' : (4 : ℚ) < ⌊l⌋ := by linarith
    have hhigh' : (⌊l⌋ : ℚ) < 95 := by linarith
    have hfour : 4 < ⌊l⌋ := by exact_mod_cast hlow'
    have hninety : ⌊l⌋ < 95 := by exact_mod_cast hhigh'
    omega
  · rintro ⟨hlow,hhigh⟩
    have hlow' : (5 : ℚ) ≤ ⌊l⌋ := by exact_mod_cast hlow
    have hhigh' : (⌊l⌋ : ℚ) ≤ 94 := by exact_mod_cast hhigh
    constructor <;> linarith

theorem shares_round_iff (hsum : l+r = 100) :
    Shares (clampWeight (mathRound l)) (clampWeight (mathRound r)) ↔ ¬Halfway l := by
  have hl := toNat_clampWeight (mathRound l)
  have hr := toNat_clampWeight (mathRound r)
  have hshares : Shares (clampWeight (mathRound l)) (clampWeight (mathRound r)) ↔
      max 5 (min 95 (mathRound l))+max 5 (min 95 (mathRound r)) = 100 := by
    constructor
    · intro h
      have htotal := h.sum
      omega
    · intro h
      exact ⟨by omega,by omega,by omega⟩
  rw [hshares]
  rcases mathRound_cases hsum with ⟨hfract,hl',hr'⟩ | ⟨hfract,hl',hr'⟩ | ⟨hfract,hl',hr'⟩
  · have hnot : ¬Halfway l := fun h => absurd h.2.2 hfract.ne
    simp only [hnot,not_false_eq_true,iff_true]
    omega
  · rw [halfway_iff hfract]
    omega
  · have hnot : ¬Halfway l := fun h => absurd h.2.2 hfract.ne'
    simp only [hnot,not_false_eq_true,iff_true]
    omega

/-- Both round to the middle. -/
theorem round_fifty_iff (hsum : l+r = 100) :
    (clampWeight (mathRound l) = 50 ∧ clampWeight (mathRound r) = 50) ↔
      99/2 < l ∧ l < 101/2 := by
  have hl := toNat_clampWeight (mathRound l)
  have hr := toNat_clampWeight (mathRound r)
  have hfifty : ∀ w : Int, clampWeight w = 50 ↔ w = 50 := by
    intro w
    have hw := toNat_clampWeight w
    have hvalue : (50 : UInt16).toNat = 50 := rfl
    rw [← UInt16.toNat_inj,hvalue]
    omega
  rw [hfifty,hfifty,mathRound,mathRound,Int.floor_eq_iff,Int.floor_eq_iff]
  push_cast
  constructor
  · rintro ⟨⟨-,hl⟩,-,hr⟩
    constructor <;> linarith
  · rintro ⟨hl,hr⟩
    refine ⟨⟨?_,?_⟩,?_,?_⟩ <;> linarith

/-! What is served. -/

theorem clampWeight_clamped (w : Int) :
    clampWeight (clampWeight w).toNat = clampWeight w := by
  have hw := toNat_clampWeight w
  have hw' := toNat_clampWeight ((clampWeight w).toNat : Int)
  rw [← UInt16.toNat_inj]
  omega

theorem setWeightCommand_left (orient : Orient) (b : LayoutNode) (h : Shares wa wb)
    (hpane : pane ∈ a.allLeaves) (weight : Int) :
    ∃ wb', Shares (clampWeight weight) wb' ∧
      setWeightCommand (.split orient [(a,wa),(b,wb)]) pane weight =
        .split orient [(a,clampWeight weight),(b,wb')] := by
  obtain ⟨wb',hshares,hset⟩ := setWeight_left orient b h hpane (clampWeight weight)
  rw [clampWeight_clamped] at hshares hset
  exact ⟨wb',hshares,hset⟩

theorem setWeightCommand_right (orient : Orient) (h : Shares wa wb) (hleft : pane ∉ a.allLeaves)
    (hpane : pane ∈ b.allLeaves) (weight : Int) :
    ∃ wa', Shares wa' (clampWeight weight) ∧
      setWeightCommand (.split orient [(a,wa),(b,wb)]) pane weight =
        .split orient [(a,wa'),(b,clampWeight weight)] := by
  obtain ⟨wa',hshares,hset⟩ := setWeight_right orient h hleft hpane (clampWeight weight)
  rw [clampWeight_clamped] at hshares hset
  exact ⟨wa',hshares,hset⟩

/-! Where the divider is. -/

theorem firstLeaf_tiled (h : tree.Tiled) : ∃ q, firstLeaf tree = some q ∧ q ∈ tree.allLeaves := by
  induction h with
  | leaf pane => exact ⟨pane,rfl,by simp [allLeaves]⟩
  | split o _ _ _ iha _ =>
    obtain ⟨q,hq,hmem⟩ := iha
    exact ⟨q,hq,by simp [allLeaves,leavesOf,hmem]⟩

theorem splitAt_tiled (h : tree.Tiled) (hs : splitAt tree path = some children) :
    ∃ a b wa wb, children = [(a,wa),(b,wb)] ∧ a.Tiled ∧ b.Tiled ∧ Shares wa wb ∧
      ∀ q, q ∈ a.allLeaves ∨ q ∈ b.allLeaves → q ∈ tree.allLeaves := by
  induction h generalizing path with
  | leaf pane => simp [splitAt] at hs
  | @split a b wa wb o ha hb hw iha ihb =>
    cases path with
    | nil =>
      obtain rfl := Option.some.inj hs
      exact ⟨a,b,wa,wb,rfl,ha,hb,hw,fun q hq => by simpa [allLeaves,leavesOf] using hq⟩
    | cons k path =>
      match k, hs with
      | 0, hs =>
        have hs' : splitAt a path = some children := hs
        obtain ⟨x,y,wx,wy,heq,hx,hy,hxy,hmem⟩ := iha hs'
        exact ⟨x,y,wx,wy,heq,hx,hy,hxy,fun q hq => by simp [allLeaves,leavesOf,hmem q hq]⟩
      | 1, hs =>
        have hs' : splitAt b path = some children := hs
        obtain ⟨x,y,wx,wy,heq,hx,hy,hxy,hmem⟩ := ihb hs'
        exact ⟨x,y,wx,wy,heq,hx,hy,hxy,fun q hq => by simp [allLeaves,leavesOf,hmem q hq]⟩
      | k+2, hs => simp [splitAt] at hs

/-- A split of two has one divider. -/
theorem sides_tiled {x y : LayoutNode} (h : tree.Tiled) (hs : sides tree handle = some (x,y)) :
    handle.leftIdx = 0 ∧ x.Tiled ∧ y.Tiled ∧ ∃ wx wy, Shares wx wy ∧
      splitAt tree handle.path = some [(x,wx),(y,wy)] := by
  rw [sides] at hs
  cases hchildren : splitAt tree handle.path with
  | none => simp [hchildren] at hs
  | some children =>
    obtain ⟨a,b,wa,wb,rfl,ha,hb,hw,-⟩ := splitAt_tiled h hchildren
    match hidx : handle.leftIdx with
    | 0 =>
      simp only [hchildren,hidx,List.getElem?_cons_zero,zero_add,List.getElem?_cons_succ,
        Option.some.injEq,Prod.mk.injEq] at hs
      obtain ⟨rfl,rfl⟩ := hs
      exact ⟨rfl,ha,hb,wa,wb,hw,rfl⟩
    | k+1 => simp [hchildren,hidx] at hs

theorem weightsAt_below (k : Nat) (path : List Nat) :
    weightsAt (.split orient [(a,wa),(b,wb)]) (k :: path) =
      weightsAt (.split orient [(a,c),(b,d)]) (k :: path) := by
  match k with
  | 0 => rfl
  | 1 => rfl
  | k+2 => rfl

/-- What it takes at the tree's own split: the weights that are set are those shown. -/
theorem commits_root_iff (hw : Shares wa wb) (hset : Shares c d) :
    Commits (.split orient [(a,wa),(b,wb)]) (.split orient [(a,c),(b,d)]) ⟨[],0⟩ l r ↔
      c = clampWeight (mathRound l) ∧ d = clampWeight (mathRound r) := by
  constructor
  · rintro ⟨⟨ws,ws',-,hws',hleft,hright,-⟩,-⟩
    obtain rfl := Option.some.inj hws'
    exact ⟨Option.some.inj hleft,Option.some.inj hright⟩
  · rintro ⟨rfl,rfl⟩
    refine ⟨⟨_,_,rfl,rfl,rfl,rfl,?_⟩,fun path hpath => ?_⟩
    · have hsum := hw.sum
      have hsum' := hset.sum
      simp only [List.map_cons,List.map_nil,List.sum_cons,List.sum_nil]
      omega
    · match path with
      | [] => exact absurd rfl hpath
      | k :: path => exact weightsAt_below k path

/-- What it takes further down: no weight has to be set at all. -/
theorem commits_below_iff {k : Nat} {x y : LayoutNode} {wx wy : UInt16}
    (hs : splitAt (.split orient [(a,wa),(b,wb)]) (k :: path) = some [(x,wx),(y,wy)]) :
    Commits (.split orient [(a,wa),(b,wb)]) (.split orient [(a,c),(b,d)]) ⟨k :: path,0⟩ l r ↔
      (wx = clampWeight (mathRound l) ∧ wy = clampWeight (mathRound r)) ∧ c = wa ∧ d = wb := by
  have hweights : weightsAt (.split orient [(a,wa),(b,wb)]) (k :: path) = some [wx,wy] := by
    simp [weightsAt,hs]
  have hset : weightsAt (.split orient [(a,c),(b,d)]) (k :: path) = some [wx,wy] := by
    rw [← hweights]
    exact weightsAt_below k path
  constructor
  · rintro ⟨⟨ws,ws',-,hws',hleft,hright,-⟩,hothers⟩
    obtain rfl := Option.some.inj (hset.symm.trans hws')
    have hroot := hothers [] (by simp)
    simp only [weightsAt,splitAt,Option.map_some,List.map_cons,List.map_nil,Option.some.injEq,
      List.cons.injEq,and_true] at hroot
    exact ⟨⟨Option.some.inj hleft,Option.some.inj hright⟩,hroot⟩
  · rintro ⟨⟨rfl,rfl⟩,rfl,rfl⟩
    exact ⟨⟨_,_,hweights,hset,rfl,rfl,rfl⟩,fun path _ => rfl⟩

/-! The drop. -/

/-- The drop commits what is shown, whichever of its calls is served first. -/
def Kept (tree : LayoutNode) (handle : Handle) (l r : ℚ) : Prop :=
  ∀ leftFirst, ∃ tree', onUp tree handle l r leftFirst = some tree' ∧
    Commits tree tree' handle l r

theorem onUp_eq {x y : LayoutNode} {q₁ q₂ : PaneId} (hsides : sides tree handle = some (x,y))
    (hx : firstLeaf x = some q₁) (hy : firstLeaf y = some q₂) :
    onUp tree handle l r true = some (setWeightCommand (setWeightCommand tree q₁ (mathRound l)) q₂
      (mathRound r)) ∧
    onUp tree handle l r false = some (setWeightCommand (setWeightCommand tree q₂ (mathRound r)) q₁
      (mathRound l)) := by
  simp [onUp,hsides,hx,hy]

/-- At the tree's own split the second call sets the same weights as the first, where both sides
make a hundred. -/
theorem kept_root_iff (ha : a.Tiled) (hb : b.Tiled) (hw : Shares wa wb)
    (hdisj : ∀ q ∈ a.allLeaves, q ∉ b.allLeaves) :
    Kept (.split orient [(a,wa),(b,wb)]) ⟨[],0⟩ l r ↔
      Shares (clampWeight (mathRound l)) (clampWeight (mathRound r)) := by
  obtain ⟨q₁,hq₁,hmem₁⟩ := firstLeaf_tiled ha
  obtain ⟨q₂,hq₂,hmem₂⟩ := firstLeaf_tiled hb
  have hnot : q₂ ∉ a.allLeaves := fun hq => hdisj q₂ hq hmem₂
  have hsides : sides (.split orient [(a,wa),(b,wb)]) ⟨[],0⟩ = some (a,b) := rfl
  obtain ⟨htrue,hfalse⟩ := onUp_eq (l := l) (r := r) hsides hq₁ hq₂
  obtain ⟨b₁,hshares₁,heq₁⟩ := setWeightCommand_left orient b hw hmem₁
    (mathRound l)
  obtain ⟨a₁,hset₁,hright⟩ := setWeightCommand_right orient hshares₁ hnot hmem₂
    (mathRound r)
  obtain ⟨a₂,hshares₂,heq₂⟩ := setWeightCommand_right orient hw hnot hmem₂
    (mathRound r)
  obtain ⟨b₂,hset₂,hleft⟩ := setWeightCommand_left orient b hshares₂ hmem₁
    (mathRound l)
  rw [heq₁,hright] at htrue
  rw [heq₂,hleft] at hfalse
  constructor
  · intro h
    obtain ⟨tree',htree,hcommits⟩ := h true
    obtain rfl := Option.some.inj (htrue.symm.trans htree)
    obtain ⟨rfl,-⟩ := (commits_root_iff hw hset₁).mp hcommits
    exact hset₁
  · intro h leftFirst
    have hsum := h.sum
    cases leftFirst with
    | true =>
      refine ⟨_,htrue,(commits_root_iff hw hset₁).mpr ⟨?_,rfl⟩⟩
      have hsum' := hset₁.sum
      rw [← UInt16.toNat_inj]
      omega
    | false =>
      refine ⟨_,hfalse,(commits_root_iff hw hset₂).mpr ⟨rfl,?_⟩⟩
      have hsum' := hset₂.sum
      rw [← UInt16.toNat_inj]
      omega

/-- A weight of the tree's own split that is set twice has the second value. -/
theorem setWeight_twice (orient : Orient) (hw : Shares wa wb) {q₁ q₂ : PaneId} {k : Nat}
    (hbranch : (k = 0 ∧ q₁ ∈ a.allLeaves ∧ q₂ ∈ a.allLeaves) ∨
      (k = 1 ∧ (q₁ ∉ a.allLeaves ∧ q₁ ∈ b.allLeaves) ∧ q₂ ∉ a.allLeaves ∧ q₂ ∈ b.allLeaves))
    (v w : Int) :
    ∃ c d, Shares c d ∧ [c,d][k]? = some (clampWeight w) ∧
      setWeightCommand (setWeightCommand (.split orient [(a,wa),(b,wb)]) q₁ v) q₂ w =
        .split orient [(a,c),(b,d)] := by
  rcases hbranch with ⟨rfl,hq₁,hq₂⟩ | ⟨rfl,⟨hn₁,hq₁⟩,hn₂,hq₂⟩
  · obtain ⟨b₁,hshares,heq⟩ := setWeightCommand_left orient b hw hq₁ v
    obtain ⟨b₂,hset,heq'⟩ := setWeightCommand_left orient b hshares hq₂ w
    exact ⟨_,b₂,hset,rfl,by rw [heq,heq']⟩
  · obtain ⟨a₁,hshares,heq⟩ := setWeightCommand_right orient hw hn₁ hq₁ v
    obtain ⟨a₂,hset,heq'⟩ := setWeightCommand_right orient hshares hn₂ hq₂ w
    exact ⟨a₂,_,hset,rfl,by rw [heq,heq']⟩

/-- The panes that the divider sets are below the child that the path goes through. -/
theorem panes_below (ha : a.Tiled) (hb : b.Tiled) {k : Nat} {x y : LayoutNode} {wx wy : UInt16}
    (hs : splitAt (.split orient [(a,wa),(b,wb)]) (k :: path) = some [(x,wx),(y,wy)]) :
    (k = 0 ∧ ∀ q, q ∈ x.allLeaves ∨ q ∈ y.allLeaves → q ∈ a.allLeaves) ∨
      (k = 1 ∧ ∀ q, q ∈ x.allLeaves ∨ q ∈ y.allLeaves → q ∈ b.allLeaves) := by
  match k, hs with
  | 0, hs =>
    have hs' : splitAt a path = some [(x,wx),(y,wy)] := hs
    obtain ⟨x',y',wx',wy',heq,-,-,-,hmem⟩ := splitAt_tiled ha hs'
    cases heq
    exact Or.inl ⟨rfl,hmem⟩
  | 1, hs =>
    have hs' : splitAt b path = some [(x,wx),(y,wy)] := hs
    obtain ⟨x',y',wx',wy',heq,-,-,-,hmem⟩ := splitAt_tiled hb hs'
    cases heq
    exact Or.inr ⟨rfl,hmem⟩
  | k+2, hs => simp [splitAt] at hs

/-- The other weight makes up the hundred. -/
theorem fifty_of_get {k : Nat} (h : Shares c d) (hk : [c,d][k]? = some 50) : c = 50 ∧ d = 50 := by
  have hsum := h.sum
  have hvalue : (50 : UInt16).toNat = 50 := rfl
  match k with
  | 0 =>
    obtain rfl : c = 50 := Option.some.inj hk
    refine ⟨rfl,?_⟩
    rw [← UInt16.toNat_inj]
    omega
  | 1 =>
    obtain rfl : d = 50 := Option.some.inj hk
    refine ⟨?_,rfl⟩
    rw [← UInt16.toNat_inj]
    omega
  | k+2 => simp at hk

/-- Further down both calls set the one weight of the tree's own split that the divider is
below, so what they ask for is what there is. -/
theorem kept_below_iff (ha : a.Tiled) (hb : b.Tiled) (hw : Shares wa wb)
    (hdisj : ∀ q ∈ a.allLeaves, q ∉ b.allLeaves) {k : Nat} {x y : LayoutNode} {wx wy : UInt16}
    (hx : x.Tiled) (hy : y.Tiled) (hxy : Shares wx wy)
    (hs : splitAt (.split orient [(a,wa),(b,wb)]) (k :: path) = some [(x,wx),(y,wy)]) :
    Kept (.split orient [(a,wa),(b,wb)]) ⟨k :: path,0⟩ l r ↔
      (wx = 50 ∧ wy = 50) ∧ (wa = 50 ∧ wb = 50) ∧
        clampWeight (mathRound l) = 50 ∧ clampWeight (mathRound r) = 50 := by
  obtain ⟨q₁,hq₁,hmem₁⟩ := firstLeaf_tiled hx
  obtain ⟨q₂,hq₂,hmem₂⟩ := firstLeaf_tiled hy
  have hsides : sides (.split orient [(a,wa),(b,wb)]) ⟨k :: path,0⟩ = some (x,y) := by
    simp [sides,hs]
  obtain ⟨htrue,hfalse⟩ := onUp_eq (l := l) (r := r) hsides hq₁ hq₂
  have hbranch : ∀ {p q}, p ∈ x.allLeaves ∨ p ∈ y.allLeaves → q ∈ x.allLeaves ∨ q ∈ y.allLeaves →
      (k = 0 ∧ p ∈ a.allLeaves ∧ q ∈ a.allLeaves) ∨
      (k = 1 ∧ (p ∉ a.allLeaves ∧ p ∈ b.allLeaves) ∧ q ∉ a.allLeaves ∧ q ∈ b.allLeaves) := by
    intro p q hp hq
    have hright : ∀ q ∈ b.allLeaves, q ∉ a.allLeaves := fun q hq hqa => hdisj q hqa hq
    rcases panes_below ha hb hs with ⟨hk,hmem⟩ | ⟨hk,hmem⟩
    · exact Or.inl ⟨hk,hmem p hp,hmem q hq⟩
    · exact Or.inr ⟨hk,⟨hright p (hmem p hp),hmem p hp⟩,hright q (hmem q hq),hmem q hq⟩
  obtain ⟨c,d,hset,hc,heq⟩ := setWeight_twice orient hw
    (hbranch (Or.inl hmem₁) (Or.inr hmem₂)) (mathRound l) (mathRound r)
  obtain ⟨c',d',hset',hc',heq'⟩ := setWeight_twice orient hw
    (hbranch (Or.inr hmem₂) (Or.inl hmem₁)) (mathRound r) (mathRound l)
  rw [heq] at htrue
  rw [heq'] at hfalse
  constructor
  · intro h
    obtain ⟨tree',htree,hcommits⟩ := h true
    obtain ⟨tree'',htree',hcommits'⟩ := h false
    obtain rfl := Option.some.inj (htrue.symm.trans htree)
    obtain rfl := Option.some.inj (hfalse.symm.trans htree')
    obtain ⟨⟨rfl,rfl⟩,rfl,rfl⟩ := (commits_below_iff hs).mp hcommits
    obtain ⟨-,rfl,rfl⟩ := (commits_below_iff hs).mp hcommits'
    have hsame : clampWeight (mathRound l) = clampWeight (mathRound r) :=
      Option.some.inj (hc'.symm.trans hc)
    -- two equal weights that make a hundred
    have hfifty : clampWeight (mathRound l) = 50 := by
      have hsum := hxy.sum
      have hvalue : (50 : UInt16).toNat = 50 := rfl
      rw [← hsame] at hsum
      rw [← UInt16.toNat_inj]
      omega
    rw [hfifty] at hc'
    exact ⟨⟨hfifty,hsame ▸ hfifty⟩,fifty_of_get hset' hc',hfifty,hsame ▸ hfifty⟩
  · rintro ⟨⟨rfl,rfl⟩,⟨rfl,rfl⟩,hl,hr⟩ leftFirst
    rw [hr] at hc
    rw [hl] at hc'
    cases leftFirst with
    | true =>
      exact ⟨_,htrue,(commits_below_iff hs).mpr ⟨⟨hl.symm,hr.symm⟩,fifty_of_get hset hc⟩⟩
    | false =>
      exact ⟨_,hfalse,(commits_below_iff hs).mpr ⟨⟨hl.symm,hr.symm⟩,fifty_of_get hset' hc'⟩⟩

/-- Where a drop commits what it shows: at the tree's own split, but not on a half between the
bounds, and further down where nothing is to be set, as all weights are the middle. -/
def Committed (tree : LayoutNode) (handle : Handle) (l : ℚ) : Prop :=
  (handle.path = [] ∧ ¬Halfway l) ∨
  (handle.path ≠ [] ∧ weightsAt tree handle.path = some [50,50] ∧
    weightsAt tree [] = some [50,50] ∧ 99/2 < l ∧ l < 101/2)

/-- Of the trees that come about from a leaf, with any divider and any drag of it. -/
theorem drop_commits_iff {first : PaneId} {steps : List TreeStep}
    (h : exec step (.leaf first) steps = some tree) {left right : LayoutNode}
    (hsides : sides tree handle = some (left,right))
    (hnode : NodeWeights p.leftW0 p.rightW0) {moves : List ℚ}
    (hshown : p.shown moves = some (l,r)) :
    Kept tree handle l r ↔ Committed tree handle l := by
  obtain ⟨htiled,hnodup⟩ := (tiling_sound first steps).1.last h
  have hsum := (hnode.dropped hshown).sum
  obtain ⟨hidx,hx,hy,wx,wy,hxy,hs⟩ := sides_tiled htiled hsides
  obtain ⟨path,idx⟩ := handle
  obtain rfl : idx = 0 := hidx
  cases htiled with
  | leaf pane => simp [splitAt] at hs
  | @split a b wa wb o ha hb hw =>
    simp only [allLeaves,leavesOf,List.append_nil,List.nodup_append] at hnodup
    have hdisj : ∀ q ∈ a.allLeaves, q ∉ b.allLeaves := fun q hq hq' => hnodup.2.2 q hq q hq' rfl
    cases path with
    | nil => rw [kept_root_iff ha hb hw hdisj,shares_round_iff hsum,Committed]; simp
    | cons k path =>
      have hweights : weightsAt (.split o [(a,wa),(b,wb)]) (k :: path) = some [wx,wy] := by
        simp [weightsAt,hs]
      have hroot : weightsAt (.split o [(a,wa),(b,wb)]) [] = some [wa,wb] := rfl
      rw [kept_below_iff ha hb hw hdisj hx hy hxy hs,round_fifty_iff hsum,Committed]
      simp [hweights,hroot]

/-- The panes 2 and 3 are one above the other, to the right of 1. -/
def stacked : LayoutNode :=
  .split .vertical [(.leaf ⟨1⟩,50),(.split .horizontal [(.leaf ⟨2⟩,50),(.leaf ⟨3⟩,50)],50)]

def stackedSteps : List TreeStep :=
  [.splitFocused ⟨1⟩ ⟨2⟩ .vertical,.splitFocused ⟨2⟩ ⟨3⟩ .horizontal]

/-- Two wraps of 400 pixels each. -/
def press : Press := ⟨400,400,400,50,50⟩

theorem press_node : NodeWeights press.leftW0 press.rightW0 :=
  .drawn (a := 50) (b := 50) ⟨rfl,by decide,by decide⟩

theorem exec_stacked : exec step (.leaf ⟨1⟩) stackedSteps = some stacked := rfl

theorem press_shown : press.shown [500,560] = some (70,30) := by
  norm_num [Press.shown,Press.onMove,press,Press.totalSize,Press.weightSum,minPx]

theorem drop_commits_iff_stacked :
    Kept stacked ⟨[],0⟩ 70 30 ↔ Committed stacked ⟨[],0⟩ 70 :=
  drop_commits_iff exec_stacked rfl press_node press_shown

/-- The boundary of 2 and 3 is dragged down, and it is the column of both that gets wider or
narrower. -/
theorem below_not_committed :
    ¬∀ (first : PaneId) (steps : List TreeStep) (tree left right : LayoutNode) (handle : Handle)
      (p : Press) (moves : List ℚ) (l r : ℚ), exec step (.leaf first) steps = some tree →
        sides tree handle = some (left,right) → NodeWeights p.leftW0 p.rightW0 →
        p.shown moves = some (l,r) → Kept tree handle l r := by
  intro hall
  have hkept := hall ⟨1⟩ stackedSteps stacked (.leaf ⟨2⟩) (.leaf ⟨3⟩) ⟨[1],0⟩ press [500,560] 70 30
    exec_stacked rfl press_node press_shown
  obtain ⟨tree',htree,⟨ws,ws',-,hws',hleft,-,-⟩,-⟩ := hkept true
  have hround : mathRound 70 = 70 ∧ mathRound 30 = 30 := by
    constructor
    all_goals
      rw [mathRound,Int.floor_eq_iff]
      norm_num
  have hserved : onUp stacked ⟨[1],0⟩ 70 30 true = some (.split .vertical [(.leaf ⟨1⟩,70),
      (.split .horizontal [(.leaf ⟨2⟩,50),(.leaf ⟨3⟩,50)],30)]) := by
    simp only [onUp,hround]
    rfl
  obtain rfl := Option.some.inj (hserved.symm.trans htree)
  obtain rfl : ws' = [50,50] := (Option.some.inj hws').symm
  rw [hround.1] at hleft
  revert hleft
  decide

end Pyre.Gui.DividerDrag
