import Pyre.Tui.OneTab

/-!
The layout the client shows and the one the daemon has. A boundary between two panes is
dragged in the tree of the client alone, and a resync takes the daemon's tree where it
lists other panes than the tree it would replace.
-/

set_option autoImplicit false

namespace Pyre

namespace LayoutNode

/-- The children of the split at the path are changed. A path that ends at a leaf changes
nothing, and an index out of bounds is `none`. -/
def modifyChildrenAt (f : List (LayoutNode × UInt16) → List (LayoutNode × UInt16)) :
    List Nat → LayoutNode → Option LayoutNode
  | _, .leaf pane => some (.leaf pane)
  | [], .split orient children => some (.split orient (f children))
  | idx :: path, .split orient children => children[idx]?.bind fun child =>
    (modifyChildrenAt f path child.1).map fun child' =>
      .split orient (children.set idx (child',child.2))

def setWeights (weights : List UInt16) (children : List (LayoutNode × UInt16)) :
    List (LayoutNode × UInt16) :=
  children.mapIdx fun i child => (child.1,weights[i]?.getD child.2)

theorem leavesOf_eq_flatMap (children : List (LayoutNode × UInt16)) :
    leavesOf children = (children.map Prod.fst).flatMap allLeaves := by
  induction children with
  | nil => rfl
  | cons child rest ih => simp [leavesOf,ih]

theorem leavesOf_setWeights (weights : List UInt16) (children : List (LayoutNode × UInt16)) :
    leavesOf (setWeights weights children) = leavesOf children := by
  have hfst : (setWeights weights children).map Prod.fst = children.map Prod.fst := by
    refine List.ext_getElem (by simp [setWeights]) fun i hi hi' => ?_
    simp [setWeights]
  rw [leavesOf_eq_flatMap,leavesOf_eq_flatMap,hfst]

theorem leavesOf_set {children : List (LayoutNode × UInt16)} {idx : Nat}
    {child child' : LayoutNode × UInt16} (hchild : children[idx]? = some child)
    (hleaves : child'.1.allLeaves = child.1.allLeaves) :
    leavesOf (children.set idx child') = leavesOf children := by
  induction children generalizing idx with
  | nil => simp at hchild
  | cons first rest ih =>
    cases idx with
    | zero =>
      obtain rfl : first = child := by simpa using hchild
      simp [leavesOf,hleaves]
    | succ idx =>
      have hrest := ih (by simpa using hchild)
      simp [leavesOf,hrest]

/-- What keeps the leaves of a list of children keeps those of the tree. -/
theorem leaves_modifyChildrenAt {f : List (LayoutNode × UInt16) → List (LayoutNode × UInt16)}
    (hf : ∀ children, leavesOf (f children) = leavesOf children) {path : List Nat}
    {tree tree' : LayoutNode} (h : tree.modifyChildrenAt f path = some tree') :
    tree'.allLeaves = tree.allLeaves := by
  induction path generalizing tree tree' with
  | nil =>
    cases tree with
    | leaf pane =>
      obtain rfl := Option.some.inj h
      rfl
    | split orient children =>
      obtain rfl := Option.some.inj h
      exact hf children
  | cons idx path ih =>
    cases tree with
    | leaf pane =>
      obtain rfl := Option.some.inj h
      rfl
    | split orient children =>
      obtain ⟨child,hchild,h⟩ := Option.bind_eq_some_iff.mp h
      obtain ⟨child',hchild',rfl⟩ := Option.map_eq_some_iff.mp h
      exact leavesOf_set hchild (ih hchild')

end LayoutNode

namespace Tui

/-! Dragging a boundary. -/

structure DragState where
  isHsplit : Bool
  parentPath : List Nat
  childIdx : Nat
  parentSize : UInt16
  startCoord : UInt16
  startWeights : List UInt16
  deriving Repr

/-- How far the mouse has come, in percent of the parent. -/
def DragState.deltaPct (d : DragState) (col row : UInt16) : Int :=
  let cur := if d.isHsplit then row else col
  let delta : Int := (cur.toNat : Int) - (d.startCoord.toNat : Int)
  (delta * 100).tdiv (max d.parentSize.toNat 1 : Nat)

/-- The child and the next one share what they had before. The clamp panics where its
bounds cross. -/
def applyResizeWeights (weights : List UInt16) (idx : Nat) (deltaPct : Int) (minPct : UInt16) :
    Option (List UInt16) :=
  match weights[idx]?, weights[idx+1]? with
  | some a, some b =>
    let total : Int := (a.toNat : Int) + (b.toNat : Int)
    let low : Int := minPct.toNat
    if total - low < low then none
    else
      let left := max low (min (total - low) ((a.toNat : Int) + deltaPct))
      some ((weights.set idx (.ofNat left.toNat)).set (idx+1) (.ofNat (total - left).toNat))
  | _, _ => some weights

namespace AppState

def dragResize (s : AppState) (d : DragState) (col row : UInt16) : Option AppState :=
  s.activeView.bind fun sv => sv.tabs[sv.activeTab]?.bind fun tab =>
    (applyResizeWeights d.startWeights d.childIdx (d.deltaPct col row) 5).bind fun weights =>
      (tab.root.modifyChildrenAt (LayoutNode.setWeights weights) d.parentPath).map fun root =>
        s.modifyTab s.activeSession sv.activeTab fun tab => { tab with root }

/-! The tree that is shown. -/

def activeTab (s : AppState) : Option Tab :=
  s.activeView.bind fun sv => sv.tabs[sv.activeTab]?

def activeRoot (s : AppState) : Option LayoutNode := s.activeTab.map Tab.root

/-- What the client asks the daemon when it resyncs. -/
def activeQuery (s : AppState) : Option LayoutQuery :=
  s.activeView.bind fun sv => sv.tabs[sv.activeTab]?.map fun tab => tab.query sv.id

/-- The daemon's tree is taken where it lists other panes, and else is there already. -/
def Settles (s : AppState) (layout : LayoutNode) : Prop :=
  ∀ tab ∈ s.activeTab, tab.root.allLeaves = layout.allLeaves → tab.root = layout

variable {s t u : AppState} {sv : SessionView} {tab : Tab} {layout : LayoutNode}
  {fetch : LayoutQuery → Option LayoutNode} {attached : PaneId → Bool}

theorem activeTab_modifyTab (hsv : s.activeView = some sv)
    (hactive : sv.tabs[sv.activeTab]? = some tab) (hu : u.sessions = s.sessions)
    (hidx : u.activeSession = s.activeSession) (f : Tab → Tab) :
    (u.modifyTab s.activeSession sv.activeTab f).activeTab = some (f tab) := by
  have hview : u.sessions[s.activeSession]? = some sv := by rw [hu]; exact hsv
  simp [activeTab,activeView,modifyTab,hidx,hview,hactive]

theorem activeTab_congr (hu : u.sessions = s.sessions) (hidx : u.activeSession = s.activeSession) :
    u.activeTab = s.activeTab := by
  rw [activeTab,activeTab,activeView,activeView,hu,hidx]

/-- A drag moves no pane. -/
theorem leaves_dragResize {d : DragState} {col row : UInt16}
    (ht : s.dragResize d col row = some t) (hs : s.activeTab = some tab) :
    ∃ tab', t.activeTab = some tab' ∧ tab'.root.allLeaves = tab.root.allLeaves := by
  obtain ⟨sv,hsv,ht⟩ := Option.bind_eq_some_iff.mp ht
  obtain ⟨tab₀,htab,ht⟩ := Option.bind_eq_some_iff.mp ht
  obtain ⟨weights,-,ht⟩ := Option.bind_eq_some_iff.mp ht
  obtain ⟨root,hroot,rfl⟩ := Option.map_eq_some_iff.mp ht
  obtain rfl : tab₀ = tab := by
    rw [activeTab,hsv,Option.bind_some,htab] at hs
    exact Option.some.inj hs
  exact ⟨{ tab₀ with root },activeTab_modifyTab hsv htab rfl rfl _,
    LayoutNode.leaves_modifyChildrenAt (LayoutNode.leavesOf_setWeights weights) hroot⟩

theorem attachAll_keeps (attached : PaneId → Bool) (panes : List PaneId) (s : AppState) :
    (panes.foldl (attach · attached) s).sessions = s.sessions ∧
      (panes.foldl (attach · attached) s).activeSession = s.activeSession := by
  refine foldl_keeps (I := fun u : AppState =>
    u.sessions = s.sessions ∧ u.activeSession = s.activeSession) panes (fun u p hu => ?_) ⟨rfl,rfl⟩
  refine ⟨(sessions_attach attached u p).trans hu.1,Eq.trans ?_ hu.2⟩
  unfold attach
  split <;> rfl

/-- The tree after a resync the daemon answers. -/
theorem activeRoot_layoutResync {recentlySplit : Bool}
    (ht : s.layoutResync fetch attached recentlySplit = some t)
    (hfetch : s.activeQuery.bind fetch = some layout) :
    ∃ tab, s.activeTab = some tab ∧ t.activeRoot =
      some (if tab.root.allLeaves ≠ layout.allLeaves ∧ !recentlySplit then layout
        else tab.root) := by
  obtain ⟨sv,hsv,ht⟩ := Option.bind_eq_some_iff.mp ht
  obtain ⟨tab,htab,ht⟩ := Option.map_eq_some_iff.mp ht
  have hs : s.activeTab = some tab := by rw [activeTab,hsv,Option.bind_some,htab]
  have hquery : fetch (tab.query sv.id) = some layout := by
    rw [activeQuery,hsv,Option.bind_some,htab] at hfetch
    exact hfetch
  simp only [hquery] at ht
  obtain ⟨hsessions,hidx⟩ := attachAll_keeps attached
    (layout.allLeaves.filter fun p => (paneToSlotIdx s.slots p).isNone) s
  refine ⟨tab,hs,?_⟩
  split at ht
  · rename_i hdiff
    subst ht
    rw [if_pos hdiff,activeRoot,activeTab_modifyTab hsv htab hsessions hidx]
    rfl
  · rename_i hsame
    subst ht
    rw [if_neg hsame,activeRoot,activeTab_congr hsessions hidx,hs]
    rfl

/-- A tree whose weights were dragged stays as it is: it lists what the daemon's does. -/
theorem activeRoot_after_drag {d : DragState} {col row : UInt16} {recentlySplit : Bool}
    (hu : s.dragResize d col row = some u)
    (ht : u.layoutResync fetch attached recentlySplit = some t)
    (hfetch : u.activeQuery.bind fetch = some layout) (hs : s.activeRoot = some layout) :
    t.activeRoot = u.activeRoot := by
  obtain ⟨tab,htab,hroot⟩ := Option.map_eq_some_iff.mp hs
  obtain ⟨tab',htab',hleaves⟩ := leaves_dragResize hu htab
  obtain ⟨tab₀,htab₀,ht⟩ := activeRoot_layoutResync ht hfetch
  obtain rfl := Option.some.inj (htab₀.symm.trans htab')
  rw [hroot] at hleaves
  rw [ht,if_neg fun hdiff => hdiff.1 hleaves,activeRoot,htab₀]
  rfl

theorem activeRoot_layoutResync_iff (ht : s.layoutResync fetch attached false = some t)
    (hfetch : s.activeQuery.bind fetch = some layout) :
    t.activeRoot = some layout ↔ s.Settles layout := by
  obtain ⟨tab,htab,ht⟩ := activeRoot_layoutResync ht hfetch
  simp only [Settles,htab,ht,Option.mem_some_iff,forall_eq']
  by_cases hleaves : tab.root.allLeaves = layout.allLeaves
  · simp [hleaves]
  · simp [hleaves]

end AppState

section

variable {s s' t t' : AppState} {layout : LayoutNode}
  {fetch fetch' : LayoutQuery → Option LayoutNode}
  {attached attached' : PaneId → Bool}

/-- Out of the grace window a resync leaves a client with the daemon's tree just when the
tree it had lists other panes or is the daemon's. Two such clients show the same. -/
theorem layout_wins_iff (hs : s.layoutResync fetch attached false = some s')
    (hfetch : s.activeQuery.bind fetch = some layout)
    (ht : t.layoutResync fetch' attached' false = some t')
    (hfetch' : t.activeQuery.bind fetch' = some layout) :
    (s'.activeRoot = some layout ↔ s.Settles layout) ∧
      (s.Settles layout → t.Settles layout → s'.activeRoot = t'.activeRoot) := by
  have hsroot := AppState.activeRoot_layoutResync_iff hs hfetch
  have htroot := AppState.activeRoot_layoutResync_iff ht hfetch'
  exact ⟨hsroot,fun hs ht => (hsroot.mpr hs).trans (htroot.mpr ht).symm⟩

end

/-- A window with two panes side by side. -/
def sideBySide (left right : UInt16) : LayoutNode :=
  .split .vertical [(.leaf ⟨1⟩,left),(.leaf ⟨2⟩,right)]

def showing (root : LayoutNode) : AppState :=
  ⟨[⟨⟨1⟩,[⟨root,⟨1⟩,none,⟨1⟩⟩],0⟩],0,[some ⟨1⟩,some ⟨2⟩],false⟩

/-- From the middle of 100 columns to the right. -/
def dragRight : DragState := ⟨false,[],0,100,50,[50,50]⟩

example : (showing (sideBySide 50 50)).dragResize dragRight 70 0 =
    some (showing (sideBySide 70 30)) := rfl

theorem layout_wins_second_pane :
    ∃ s' t', (showing (.leaf ⟨1⟩)).layoutResync (fun _ => some (sideBySide 50 50))
        (fun _ => true) false = some s' ∧
      (showing (sideBySide 50 50)).layoutResync (fun _ => some (sideBySide 50 50))
        (fun _ => true) false = some t' ∧ s'.activeRoot = t'.activeRoot := by
  have hwins := @layout_wins_iff (showing (.leaf ⟨1⟩)) _ (showing (sideBySide 50 50)) _
    (sideBySide 50 50) (fun _ => some (sideBySide 50 50)) (fun _ => some (sideBySide 50 50))
    (fun _ => true) (fun _ => true) rfl rfl rfl rfl
  refine ⟨_,_,rfl,rfl,hwins.2 ?_ ?_⟩
  · intro tab htab hleaves
    obtain rfl := Option.some.inj htab
    exact absurd hleaves (by decide)
  · intro tab htab _
    obtain rfl := Option.some.inj htab
    rfl

/-- The daemon has the halves and keeps them, the client keeps what was dragged. -/
theorem dragged_weights_stay : ¬∀ (s t : AppState) (fetch : LayoutQuery → Option LayoutNode)
    (attached : PaneId → Bool) (layout : LayoutNode),
    s.layoutResync fetch attached false = some t → s.activeQuery.bind fetch = some layout →
      t.activeRoot = some layout := by
  intro h
  have hroot := h (showing (sideBySide 70 30)) (showing (sideBySide 70 30))
    (fun _ => some (sideBySide 50 50)) (fun _ => true) (sideBySide 50 50) rfl rfl
  simp [showing,sideBySide,AppState.activeRoot,AppState.activeTab,AppState.activeView] at hroot

end Tui

end Pyre
