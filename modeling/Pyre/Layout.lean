import Mathlib.Algebra.Order.Ring.Int
import Mathlib.Data.List.Basic
import Mathlib.Data.UInt
import Pyre.Proto

/-!
The tiling layout of a window: a tree of splits with panes for leaves. `splitFocused`
puts a pane beside one that is a leaf and does nothing otherwise; `close` takes a
leaf out, but not the last.
-/

set_option autoImplicit false

namespace Pyre

/-- `horizontal` children are stacked, `vertical` ones stand side by side. -/
inductive Orient where
  | vertical
  | horizontal
  deriving DecidableEq, Repr

/-- `HSplit` and `VSplit` are the splits of the two orientations. -/
inductive LayoutNode where
  | leaf (pane : PaneId)
  | split (orient : Orient) (children : List (LayoutNode × UInt16))
  deriving Repr

namespace LayoutNode

mutual

def allLeaves : LayoutNode → List PaneId
  | .leaf pane => [pane]
  | .split _ children => leavesOf children

def leavesOf : List (LayoutNode × UInt16) → List PaneId
  | [] => []
  | (child,_) :: rest => child.allLeaves ++ leavesOf rest

end

mutual

/-- `none` where the code returns `false`: nothing was modified. -/
def splitFocusedInner (focused fresh : PaneId) (orient : Orient) :
    LayoutNode → Option LayoutNode
  | .leaf pane =>
    if pane = focused then some (.split orient [(.leaf pane,50),(.leaf fresh,50)]) else none
  | .split o children => (splitFirst focused fresh orient children).map (.split o)

def splitFirst (focused fresh : PaneId) (orient : Orient) :
    List (LayoutNode × UInt16) → Option (List (LayoutNode × UInt16))
  | [] => none
  | (child,weight) :: rest =>
    match splitFocusedInner focused fresh orient child with
    | some child' => some ((child',weight) :: rest)
    | none => (splitFirst focused fresh orient rest).map ((child,weight) :: ·)

end

def splitFocused (tree : LayoutNode) (focused fresh : PaneId) (orient : Orient) : LayoutNode :=
  (tree.splitFocusedInner focused fresh orient).getD tree

mutual

/-- `none` where the code returns `true`: the caller takes the slot out. -/
def removeLeaf (pane : PaneId) : LayoutNode → Option LayoutNode
  | .leaf p => if p = pane then none else some (.leaf p)
  | .split orient children =>
    match retainLeaves pane children with
    | [(only,_)] => some only
    | kept => some (.split orient kept)

def retainLeaves (pane : PaneId) : List (LayoutNode × UInt16) → List (LayoutNode × UInt16)
  | [] => []
  | (child,weight) :: rest =>
    match removeLeaf pane child with
    | some child' => (child',weight) :: retainLeaves pane rest
    | none => retainLeaves pane rest

end

/-- The tree after the removal, and the pane that should receive the focus. -/
def close (tree : LayoutNode) (pane : PaneId) : LayoutNode × Option PaneId :=
  match tree.allLeaves.findIdx? (· = pane) with
  | none => (tree,none)
  | some pos =>
    if tree.allLeaves.length = 1 then (tree,none)
    else
      let tree' := (tree.removeLeaf pane).getD tree
      (tree',tree'.allLeaves[pos-1]?)

def clampWeight (w : Int) : UInt16 := .ofNat (max 5 (min 95 w)).toNat

/-- The siblings' weights after the target's has changed by `delta`, with what
rounding leaves over for the last of them. -/
def rebalanceSiblings (weights : List UInt16) (idx : Nat) (delta total : Int) : List UInt16 :=
  let adjust (w : UInt16) : UInt16 :=
    clampWeight ((w.toNat : Int) + ((w.toNat : Int) * (-delta)).tdiv (max total 1))
  let siblings := (List.range weights.length).filter (· ≠ idx)
  let adjusted := weights.mapIdx fun i w => if i = idx then w else adjust w
  let given : Int := (siblings.map fun i =>
    ((adjusted[i]?.getD 0).toNat : Int) - ((weights[i]?.getD 0).toNat : Int)).sum
  match siblings.getLast? with
  | none => adjusted
  | some last =>
    adjusted.modify last fun w => clampWeight ((w.toNat : Int) + (-delta - given))

/-- The children's weights after the one at `idx` is given a new weight. -/
def reweigh (weights : List UInt16) (idx : Nat) (weight : UInt16) : List UInt16 :=
  let clamped := clampWeight weight.toNat
  let old := weights[idx]?.getD 0
  if clamped = old then weights
  else
    let delta : Int := (clamped.toNat : Int) - (old.toNat : Int)
    let moved := weights.set idx clamped
    let total : Int := ((moved.eraseIdx idx).map fun w => (w.toNat : Int)).sum
    let balanced := if 0 < total then rebalanceSiblings moved idx delta total else moved
    let sum : UInt16 := balanced.sum
    if sum = 100 then balanced
    else balanced.modify idx fun w => clampWeight ((w.toNat : Int) + (100 - (sum.toNat : Int)))

mutual

def setWeightInner (pane : PaneId) (weight : UInt16) : LayoutNode → Option LayoutNode
  | .leaf _ => none
  | .split orient children =>
    match children.findIdx? (fun c => pane ∈ c.1.allLeaves) with
    | some idx =>
      let weights := reweigh (children.map Prod.snd) idx weight
      some (.split orient ((children.map Prod.fst).zip weights))
    | none => (setWeightFirst pane weight children).map (.split orient)

def setWeightFirst (pane : PaneId) (weight : UInt16) :
    List (LayoutNode × UInt16) → Option (List (LayoutNode × UInt16))
  | [] => none
  | (child,w) :: rest =>
    match setWeightInner pane weight child with
    | some child' => some ((child',w) :: rest)
    | none => (setWeightFirst pane weight rest).map ((child,w) :: ·)

end

def setWeight (tree : LayoutNode) (pane : PaneId) (weight : UInt16) : LayoutNode :=
  (tree.setWeightInner pane weight).getD tree

/-! Splitting. -/

section splitting

variable {focused fresh : PaneId} {orient : Orient}

mutual

theorem splitFocusedInner_eq_none : ∀ {tree : LayoutNode},
    tree.splitFocusedInner focused fresh orient = none ↔ focused ∉ tree.allLeaves
  | .leaf pane => by simp [splitFocusedInner,allLeaves,eq_comm]
  | .split o children => by
    simp only [splitFocusedInner,allLeaves,Option.map_eq_none_iff]
    exact splitFirst_eq_none

theorem splitFirst_eq_none : ∀ {children : List (LayoutNode × UInt16)},
    splitFirst focused fresh orient children = none ↔ focused ∉ leavesOf children
  | [] => by simp [splitFirst,leavesOf]
  | (child,weight) :: rest => by
    have hchild : child.splitFocusedInner focused fresh orient = none ↔
      focused ∉ child.allLeaves := splitFocusedInner_eq_none
    have hrest : splitFirst focused fresh orient rest = none ↔ focused ∉ leavesOf rest :=
      splitFirst_eq_none
    simp only [splitFirst,leavesOf,List.mem_append,not_or,← hchild,← hrest]
    split
    · rename_i hs
      simp [hs]
    · rename_i hs
      simp [hs]

end

mutual

theorem leaves_splitFocusedInner : ∀ {tree tree' : LayoutNode},
    tree.splitFocusedInner focused fresh orient = some tree' →
      tree'.allLeaves.Perm (fresh :: tree.allLeaves)
  | .leaf pane, tree', h => by
    rw [splitFocusedInner,Option.ite_none_right_eq_some,Option.some.injEq] at h
    obtain ⟨-,rfl⟩ := h
    exact List.Perm.swap _ _ _
  | .split o children, tree', h => by
    obtain ⟨children',hs,rfl⟩ := Option.map_eq_some_iff.mp h
    exact leaves_splitFirst hs

theorem leaves_splitFirst : ∀ {children children' : List (LayoutNode × UInt16)},
    splitFirst focused fresh orient children = some children' →
      (leavesOf children').Perm (fresh :: leavesOf children)
  | [], _, h => by cases h
  | (child,weight) :: rest, children', h => by
    simp only [splitFirst] at h
    split at h
    · rename_i child' hs
      obtain rfl := Option.some.inj h
      exact (leaves_splitFocusedInner hs).append_right (leavesOf rest)
    · obtain ⟨rest',hs,rfl⟩ := Option.map_eq_some_iff.mp h
      have hrest := (leaves_splitFirst hs).append_left child.allLeaves
      exact hrest.trans List.perm_middle

end

/-- The tree is unchanged where the focused pane is not one of its leaves. -/
theorem splitFocused_of_notMem {tree : LayoutNode} (h : focused ∉ tree.allLeaves) :
    tree.splitFocused focused fresh orient = tree := by
  rw [splitFocused,splitFocusedInner_eq_none.mpr h,Option.getD_none]

theorem leaves_splitFocused {tree : LayoutNode} (h : focused ∈ tree.allLeaves) :
    (tree.splitFocused focused fresh orient).allLeaves.Perm (fresh :: tree.allLeaves) := by
  cases hs : tree.splitFocusedInner focused fresh orient with
  | none => exact absurd h (splitFocusedInner_eq_none.mp hs)
  | some tree' =>
    rw [splitFocused,hs,Option.getD_some]
    exact leaves_splitFocusedInner hs

theorem mem_leaves_splitFocused {tree : LayoutNode} {q : PaneId}
    (hq : q ∈ (tree.splitFocused focused fresh orient).allLeaves) :
    q ∈ tree.allLeaves ∨ q = fresh := by
  by_cases h : focused ∈ tree.allLeaves
  · exact (List.mem_cons.mp ((leaves_splitFocused h).mem_iff.mp hq)).symm
  · rw [splitFocused_of_notMem h] at hq
    exact Or.inl hq

/-- A node of the tree. -/
inductive Subtree (s : LayoutNode) : LayoutNode → Prop where
  | refl : Subtree s s
  | child {t : LayoutNode} {weight : UInt16} {o : Orient}
      {children : List (LayoutNode × UInt16)} (hmem : (t,weight) ∈ children) (h : Subtree s t) :
      Subtree s (.split o children)

theorem mem_leavesOf {children : List (LayoutNode × UInt16)} {q : PaneId} :
    q ∈ leavesOf children ↔ ∃ c ∈ children, q ∈ c.1.allLeaves := by
  induction children with
  | nil => simp [leavesOf]
  | cons c rest ih => simp [leavesOf,ih]

theorem Subtree.leaves {s t : LayoutNode} (h : Subtree s t) {q : PaneId}
    (hq : q ∈ s.allLeaves) : q ∈ t.allLeaves := by
  induction h with
  | refl => exact hq
  | child hmem _ ih => exact mem_leavesOf.mpr ⟨_,hmem,ih⟩

/-- The two panes are the children of one split, in this order and halves. -/
def Halves (orient : Orient) (parent fresh : PaneId) (tree : LayoutNode) : Prop :=
  Subtree (.split orient [(.leaf parent,50),(.leaf fresh,50)]) tree

theorem Halves.parent_mem {parent : PaneId} {tree : LayoutNode}
    (h : Halves orient parent fresh tree) : parent ∈ tree.allLeaves :=
  h.leaves (by simp [allLeaves,leavesOf])

theorem Halves.fresh_mem {parent : PaneId} {tree : LayoutNode}
    (h : Halves orient parent fresh tree) : fresh ∈ tree.allLeaves :=
  h.leaves (by simp [allLeaves,leavesOf])

mutual

theorem halves_splitFocusedInner : ∀ {tree tree' : LayoutNode},
    tree.splitFocusedInner focused fresh orient = some tree' →
      Halves orient focused fresh tree'
  | .leaf pane, tree', h => by
    rw [splitFocusedInner,Option.ite_none_right_eq_some,Option.some.injEq] at h
    obtain ⟨rfl,rfl⟩ := h
    exact .refl
  | .split o children, tree', h => by
    obtain ⟨children',hs,rfl⟩ := Option.map_eq_some_iff.mp h
    obtain ⟨c,hmem,hc⟩ := halves_splitFirst hs
    exact .child hmem hc

theorem halves_splitFirst : ∀ {children children' : List (LayoutNode × UInt16)},
    splitFirst focused fresh orient children = some children' →
      ∃ c ∈ children', Halves orient focused fresh c.1
  | [], _, h => by cases h
  | (child,weight) :: rest, children', h => by
    simp only [splitFirst] at h
    split at h
    · rename_i child' hs
      obtain rfl := Option.some.inj h
      exact ⟨_,List.mem_cons_self,halves_splitFocusedInner hs⟩
    · obtain ⟨rest',hs,rfl⟩ := Option.map_eq_some_iff.mp h
      obtain ⟨c,hmem,hc⟩ := halves_splitFirst hs
      exact ⟨c,List.mem_cons_of_mem _ hmem,hc⟩

end

/-- A split takes place just where the focused pane is a leaf. -/
theorem halves_splitFocused {tree : LayoutNode} :
    Halves orient focused fresh (tree.splitFocused focused fresh orient) ↔
      focused ∈ tree.allLeaves := by
  constructor
  · intro h
    by_contra hn
    rw [splitFocused_of_notMem hn] at h
    exact hn (h.leaves (by simp [allLeaves,leavesOf]))
  · intro h
    cases hs : tree.splitFocusedInner focused fresh orient with
    | none => exact absurd h (splitFocusedInner_eq_none.mp hs)
    | some tree' =>
      rw [splitFocused,hs,Option.getD_some]
      exact halves_splitFocusedInner hs

end splitting

/-! Closing. -/

section closing

variable {pane : PaneId}

mutual

theorem leaves_removeLeaf : ∀ {tree : LayoutNode},
    ((tree.removeLeaf pane).map allLeaves).getD [] = tree.allLeaves.filter (· ≠ pane)
  | .leaf p => by
    by_cases h : p = pane <;> simp [removeLeaf,allLeaves,h]
  | .split orient children => by
    have hkept : leavesOf (retainLeaves pane children) = (leavesOf children).filter (· ≠ pane) :=
      leaves_retainLeaves
    simp only [removeLeaf,allLeaves,← hkept]
    split
    · rename_i only weight heq
      simp [heq,leavesOf]
    · simp [allLeaves]

theorem leaves_retainLeaves : ∀ {children : List (LayoutNode × UInt16)},
    leavesOf (retainLeaves pane children) = (leavesOf children).filter (· ≠ pane)
  | [] => by simp [retainLeaves,leavesOf]
  | (child,weight) :: rest => by
    have hchild : ((child.removeLeaf pane).map allLeaves).getD [] =
      child.allLeaves.filter (· ≠ pane) := leaves_removeLeaf
    have hrest : leavesOf (retainLeaves pane rest) = (leavesOf rest).filter (· ≠ pane) :=
      leaves_retainLeaves
    simp only [retainLeaves,leavesOf,List.filter_append,← hchild,← hrest]
    split
    · rename_i child' hs
      simp [hs,leavesOf]
    · rename_i hs
      simp [hs]

end

/-- The last leaf stays. -/
theorem leaves_close (tree : LayoutNode) (pane : PaneId) :
    (tree.close pane).1.allLeaves =
      if tree.allLeaves.length = 1 then tree.allLeaves
      else tree.allLeaves.filter (· ≠ pane) := by
  unfold close
  split
  · rename_i hnone
    have hall : ∀ q ∈ tree.allLeaves, q ≠ pane := by
      simpa [List.findIdx?_eq_none_iff] using hnone
    have hsame : tree.allLeaves.filter (· ≠ pane) = tree.allLeaves := by
      simpa [List.filter_eq_self] using hall
    rw [hsame,ite_self]
  · split
    · rfl
    · rename_i hlen
      rw [← leaves_removeLeaf]
      cases hs : tree.removeLeaf pane with
      | some tree' => simp
      | none =>
        cases tree with
        | leaf p => simp [allLeaves] at hlen
        | split orient children =>
          simp only [removeLeaf] at hs
          split at hs <;> cases hs

theorem mem_leaves_close {tree : LayoutNode} {q : PaneId}
    (hq : q ∈ (tree.close pane).1.allLeaves) : q ∈ tree.allLeaves := by
  rw [leaves_close] at hq
  split at hq
  · exact hq
  · exact List.mem_of_mem_filter hq

/-- With another leaf in the tree the closed one does go. -/
theorem leaves_close_of_ne {tree : LayoutNode} {q : PaneId} (hq : q ∈ tree.allLeaves)
    (hne : q ≠ pane) : (tree.close pane).1.allLeaves = tree.allLeaves.filter (· ≠ pane) := by
  rw [leaves_close]
  split
  · rename_i hlen
    obtain ⟨r,hr⟩ := List.length_eq_one_iff.mp hlen
    rw [hr,List.mem_singleton] at hq
    subst hq
    simp [hr,hne]
  · rfl

theorem leaves_foldl_close {panes : List PaneId} {tree : LayoutNode} {q : PaneId}
    (hq : q ∈ tree.allLeaves) (hkept : q ∉ panes) :
    (panes.foldl (fun t p => (t.close p).1) tree).allLeaves =
      tree.allLeaves.filter (· ∉ panes) := by
  induction panes generalizing tree with
  | nil => simp
  | cons p panes ih =>
    rw [List.mem_cons,not_or] at hkept
    have hclose := leaves_close_of_ne hq hkept.1
    have hq' : q ∈ (tree.close p).1.allLeaves := by
      rw [hclose]
      exact List.mem_filter.mpr ⟨hq,by simpa using hkept.1⟩
    rw [List.foldl_cons,ih hq' hkept.2,hclose,List.filter_filter]
    refine List.filter_congr fun r _ => ?_
    by_cases hr : r = p <;> simp [hr]

theorem mem_retainLeaves {children : List (LayoutNode × UInt16)} {child child' : LayoutNode}
    {weight : UInt16} (hmem : (child,weight) ∈ children)
    (h : child.removeLeaf pane = some child') : (child',weight) ∈ retainLeaves pane children := by
  induction children with
  | nil => cases hmem
  | cons c rest ih =>
    obtain ⟨t,wt⟩ := c
    simp only [retainLeaves]
    rcases List.mem_cons.mp hmem with heq | hrest
    · obtain ⟨rfl,rfl⟩ := Prod.mk.inj heq
      simp [h]
    · split
      · exact List.mem_cons_of_mem _ (ih hrest)
      · exact ih hrest

theorem subtree_removeLeaf {s tree : LayoutNode} (h : Subtree s tree)
    (hs : s.removeLeaf pane = some s) :
    ∃ tree', tree.removeLeaf pane = some tree' ∧ Subtree s tree' := by
  induction h with
  | refl => exact ⟨s,hs,.refl⟩
  | child hmem _ ih =>
    obtain ⟨t',ht',hsub⟩ := ih
    have hkept := mem_retainLeaves hmem ht'
    simp only [removeLeaf]
    split
    · rename_i only weight heq
      rw [heq,List.mem_singleton] at hkept
      obtain ⟨rfl,-⟩ := Prod.mk.inj hkept
      exact ⟨t',rfl,hsub⟩
    · exact ⟨_,rfl,.child hkept hsub⟩

/-- Two halves stay together when another pane is closed. -/
theorem halves_close {orient : Orient} {a b : PaneId} {tree : LayoutNode}
    (h : Halves orient a b tree) (ha : a ≠ pane) (hb : b ≠ pane) :
    Halves orient a b (tree.close pane).1 := by
  have hself : (LayoutNode.split orient [(.leaf a,50),(.leaf b,50)]).removeLeaf pane =
      some (.split orient [(.leaf a,50),(.leaf b,50)]) := by
    simp [removeLeaf,retainLeaves,ha,hb]
  obtain ⟨tree',ht,hsub⟩ := subtree_removeLeaf h hself
  unfold close
  split
  · exact h
  · split
    · exact h
    · rwa [ht,Option.getD_some]

theorem halves_foldl_close {orient : Orient} {a b : PaneId} {panes : List PaneId}
    {tree : LayoutNode} (h : Halves orient a b tree) (ha : a ∉ panes) (hb : b ∉ panes) :
    Halves orient a b (panes.foldl (fun t p => (t.close p).1) tree) := by
  induction panes generalizing tree with
  | nil => exact h
  | cons p panes ih =>
    rw [List.mem_cons,not_or] at ha hb
    exact ih (halves_close h ha.1 hb.1) ha.2 hb.2

theorem mem_leaves_foldl_close {panes : List PaneId} {tree : LayoutNode} {q : PaneId}
    (hq : q ∈ (panes.foldl (fun t p => (t.close p).1) tree).allLeaves) : q ∈ tree.allLeaves := by
  induction panes generalizing tree with
  | nil => exact hq
  | cons p panes ih => exact mem_leaves_close (ih hq)

/-- Of two leaves that are left neither has been closed. -/
theorem notMem_of_leaves_foldl_close {panes : List PaneId} {tree : LayoutNode} {q r : PaneId}
    (hq : q ∈ (panes.foldl (fun t p => (t.close p).1) tree).allLeaves)
    (hr : r ∈ (panes.foldl (fun t p => (t.close p).1) tree).allLeaves) (hne : q ≠ r) :
    q ∉ panes := by
  induction panes generalizing tree with
  | nil => exact List.not_mem_nil
  | cons p panes ih =>
    rw [List.mem_cons,not_or]
    refine ⟨?_,ih hq hr⟩
    rintro rfl
    have hleft : r ∈ (tree.close q).1.allLeaves := mem_leaves_foldl_close hr
    have hgone : q ∈ (tree.close q).1.allLeaves := mem_leaves_foldl_close hq
    rw [leaves_close_of_ne (mem_leaves_close hleft) hne.symm] at hgone
    simp at hgone

end closing

/-- There is a leaf, and no pane is a leaf twice. -/
structure Proper (tree : LayoutNode) : Prop where
  ne_nil : tree.allLeaves ≠ []
  nodup : tree.allLeaves.Nodup

namespace Proper

variable {tree : LayoutNode} {pane fresh : PaneId}

theorem leaf (pane : PaneId) : (LayoutNode.leaf pane).Proper :=
  ⟨by simp [allLeaves],by simp [allLeaves]⟩

theorem splitFocused (h : tree.Proper) (hfresh : fresh ∉ tree.allLeaves) (orient : Orient) :
    (tree.splitFocused pane fresh orient).Proper := by
  by_cases hmem : pane ∈ tree.allLeaves
  · have hperm : (tree.splitFocused pane fresh orient).allLeaves.Perm (fresh :: tree.allLeaves) :=
      leaves_splitFocused hmem
    refine ⟨?_,?_⟩
    · intro hnil
      rw [hnil] at hperm
      exact List.cons_ne_nil _ _ hperm.symm.eq_nil
    · exact hperm.nodup_iff.mpr (List.nodup_cons.mpr ⟨hfresh,h.nodup⟩)
  · rwa [splitFocused_of_notMem hmem]

theorem close (h : tree.Proper) (pane : PaneId) : (tree.close pane).1.Proper := by
  refine ⟨?_,?_⟩
  · rw [leaves_close]
    split
    · exact h.ne_nil
    · rename_i hlen
      intro hnil
      -- all leaves would be the one pane
      have hall : tree.allLeaves = List.replicate tree.allLeaves.length pane := by
        rw [List.eq_replicate_iff]
        exact ⟨rfl,by simpa using hnil⟩
      have hone : tree.allLeaves.length ≤ 1 := by
        have hnd := h.nodup
        rw [hall,List.nodup_replicate] at hnd
        exact hnd
      have hpos : 0 < tree.allLeaves.length := List.length_pos_iff.mpr h.ne_nil
      omega
  · rw [leaves_close]
    split
    · exact h.nodup
    · exact h.nodup.filter _

end Proper

end LayoutNode

end Pyre
