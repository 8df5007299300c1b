import Mathlib.Data.Rat.Defs
import Pyre.Base.Run
import Pyre.Gui.Terminals

/-!
The center, which is drawn again only when a fingerprint of the windows and their trees changes.
What is drawn has the weights of a layout, and dividers that work on its nodes; the fingerprint
has neither.
-/

set_option autoImplicit false

namespace Pyre.Gui
open Base

/-- A layout as the store holds it. A split is an object with an identity, and has a weight for
each child, as the bridge sends it. -/
inductive LayoutObject where
  | leaf (pane : PaneId)
  | split (node : Nat) (dir : Orient) (children : List (LayoutObject × ℚ))

/-- A handle that drags the boundary of two children of the node. -/
structure Divider where
  node : Nat
  leftIdx : Nat
  rightIdx : Nat
  deriving DecidableEq, Repr

/-- What is drawn: each wrap has its flex. -/
inductive View where
  | card (pane : PaneId)
  | split (dir : Orient) (wraps : List (View × ℚ)) (dividers : List Divider)

/-- Of a node and not the beginning of a window. -/
def Mark.inNode : Mark → Bool
  | .window _ => false
  | _ => true

namespace LayoutObject

mutual

def fingerprintNode : LayoutObject → List Mark
  | .leaf p => [.pane p]
  | .split _ dir children => .opening dir :: (fingerprintChildren children ++ [.closing])

def fingerprintChildren : List (LayoutObject × ℚ) → List Mark
  | [] => []
  | (child,_) :: rest => fingerprintNode child ++ fingerprintChildren rest

end

/-- One before every child except the first. -/
def dividers (node : Nat) (children : List (LayoutObject × ℚ)) : List Divider :=
  (List.range (children.length-1)).map fun i => ⟨node,i,i+1⟩

mutual

def renderNode : LayoutObject → View
  | .leaf p => .card p
  | .split node dir children => .split dir (renderChildren children) (dividers node children)

def renderChildren : List (LayoutObject × ℚ) → List (View × ℚ)
  | [] => []
  | (child,weight) :: rest => (renderNode child,weight) :: renderChildren rest

end

mutual

/-- The two trees have the same shape and weights, and are made of the same nodes where there is
a divider. -/
def Alike : LayoutObject → LayoutObject → Prop
  | .leaf p, .leaf q => p = q
  | .split node dir children, .split node' dir' children' =>
    dir = dir' ∧ ChildrenAlike children children' ∧ (2 ≤ children.length → node = node')
  | _, _ => False

def ChildrenAlike : List (LayoutObject × ℚ) → List (LayoutObject × ℚ) → Prop
  | [], [] => True
  | (child,weight) :: rest, (child',weight') :: rest' =>
    Alike child child' ∧ weight = weight' ∧ ChildrenAlike rest rest'
  | _, _ => False

end

theorem length_eq_of_childrenAlike : ∀ {cs ds : List (LayoutObject × ℚ)}, ChildrenAlike cs ds →
    cs.length = ds.length
  | [], [], _ => rfl
  | _ :: _, _ :: _, h => congrArg (·+1) (length_eq_of_childrenAlike h.2.2)

theorem dividers_eq_iff {node node' : Nat} {cs ds : List (LayoutObject × ℚ)}
    (h : cs.length = ds.length) :
    dividers node cs = dividers node' ds ↔ (2 ≤ cs.length → node = node') := by
  unfold dividers
  rw [← h]
  constructor
  · intro heq htwo
    have hfirst := congrArg List.head? heq
    obtain ⟨n,hn⟩ : ∃ n, cs.length-1 = n+1 := ⟨cs.length-2,by omega⟩
    rw [hn,List.range_succ_eq_map] at hfirst
    simp only [List.map_cons,List.head?_cons,Option.some.injEq,Divider.mk.injEq] at hfirst
    exact hfirst.1
  · intro hnode
    by_cases htwo : 2 ≤ cs.length
    · rw [hnode htwo]
    · have hnone : cs.length-1 = 0 := by omega
      rw [hnone]
      rfl

mutual

/-- What is drawn shows all of this. -/
theorem renderNode_eq_iff : ∀ a b : LayoutObject, renderNode a = renderNode b ↔ Alike a b
  | .leaf p, .leaf q => by simp [renderNode,Alike]
  | .leaf p, .split node dir children => by simp [renderNode,Alike]
  | .split node dir children, .leaf q => by simp [renderNode,Alike]
  | .split node dir children, .split node' dir' children' => by
    rw [renderNode,renderNode,View.split.injEq,Alike,renderChildren_eq_iff]
    refine and_congr_right fun _ => and_congr_right fun h => ?_
    exact dividers_eq_iff (length_eq_of_childrenAlike h)

theorem renderChildren_eq_iff : ∀ cs ds : List (LayoutObject × ℚ),
    renderChildren cs = renderChildren ds ↔ ChildrenAlike cs ds
  | [], [] => by simp [renderChildren,ChildrenAlike]
  | [], (_,_) :: _ => by simp [renderChildren,ChildrenAlike]
  | (_,_) :: _, [] => by simp [renderChildren,ChildrenAlike]
  | (child,weight) :: rest, (child',weight') :: rest' => by
    rw [renderChildren,renderChildren,List.cons.injEq,Prod.mk.injEq,ChildrenAlike,
      renderNode_eq_iff child child',renderChildren_eq_iff rest rest',and_assoc]

end

mutual

theorem inNode_fingerprintNode : ∀ a : LayoutObject, (fingerprintNode a).all Mark.inNode
  | .leaf p => rfl
  | .split node dir children => by
    simp [fingerprintNode,inNode_fingerprintChildren children,Mark.inNode]

theorem inNode_fingerprintChildren : ∀ cs : List (LayoutObject × ℚ),
    (fingerprintChildren cs).all Mark.inNode
  | [] => rfl
  | (child,_) :: rest => by
    simp [fingerprintChildren,inNode_fingerprintNode child,inNode_fingerprintChildren rest]

end

end LayoutObject

/-- What `renderCenter` reads of the store: the windows are those of the active session. -/
structure CenterStore where
  connected : Bool
  windows : List WindowId
  activeWindow : Option WindowId
  layouts : WindowId → Option LayoutObject
  zoomedPane : Option PaneId

inductive Content where
  | loading
  | tree (view : View)

structure TabView where
  window : WindowId
  active : Bool
  content : Content

inductive Panel where
  | blank
  | daemonDown
  | noSession
  | views (views : List TabView)

namespace CenterStore

def layoutMarks (s : CenterStore) (w : WindowId) : List Mark :=
  (s.layouts w).elim [.noLayout] LayoutObject.fingerprintNode

def windowsFingerprint (s : CenterStore) : List Mark :=
  if s.connected = false then [.disconnected]
  else if s.windows = [] then [.noWindows]
  else (s.windows.flatMap fun w => .window w :: s.layoutMarks w)
    ++ [.active s.activeWindow,.zoom s.zoomedPane]

/-- The zoomed pane is drawn alone in the active window. -/
def content (s : CenterStore) (w : WindowId) : Content :=
  match s.layouts w with
  | none => .loading
  | some layout =>
    match s.zoomedPane with
    | some zoomed =>
      if s.activeWindow = some w then .tree (LayoutObject.renderNode (.leaf zoomed))
      else .tree (LayoutObject.renderNode layout)
    | none => .tree (LayoutObject.renderNode layout)

/-- What is drawn from the store. -/
def draw (s : CenterStore) : Panel :=
  if s.connected = false then .daemonDown
  else if s.windows = [] then .noSession
  else .views (s.windows.map fun w => ⟨w,s.activeWindow = some w,s.content w⟩)

/-- The layout of the window is drawn, and not a zoomed pane in its place. -/
def DrawsLayout (s : CenterStore) (w : WindowId) : Prop :=
  s.connected = true ∧ w ∈ s.windows ∧ (s.zoomedPane = none ∨ s.activeWindow ≠ some w)

/-- The layouts that are drawn are alike in both. -/
def LayoutsAlike (s t : CenterStore) : Prop :=
  ∀ w, t.DrawsLayout w → ∀ a ∈ s.layouts w, ∀ b ∈ t.layouts w, LayoutObject.Alike a b

/-- What two stores with one fingerprint have in common. -/
structure SameMarks (s t : CenterStore) : Prop where
  connected : s.connected = t.connected
  windows : s.connected = true → s.windows = t.windows
  rest : s.connected = true → s.windows ≠ [] → s.activeWindow = t.activeWindow ∧
    s.zoomedPane = t.zoomedPane ∧ ∀ w ∈ s.windows, s.layoutMarks w = t.layoutMarks w

variable {s t : CenterStore}

theorem inNode_layoutMarks (s : CenterStore) (w : WindowId) :
    (s.layoutMarks w).all Mark.inNode := by
  unfold layoutMarks
  cases s.layouts w with
  | none => rfl
  | some layout => exact LayoutObject.inNode_fingerprintNode layout

theorem windowsFingerprint_ne_nil (s : CenterStore) : s.windowsFingerprint ≠ [] := by
  unfold windowsFingerprint
  split_ifs <;> simp

/-- The windows and what stands after each can be read off. -/
theorem segments_eq {f g : WindowId → List Mark} (hf : ∀ w, (f w).all Mark.inNode)
    (hg : ∀ w, (g w).all Mark.inNode) {vs ws : List WindowId}
    (h : (vs.flatMap fun w => Mark.window w :: f w) = ws.flatMap fun w => Mark.window w :: g w) :
    vs = ws ∧ ∀ w ∈ vs, f w = g w := by
  have hfront : ∀ (f : WindowId → List Mark) (vs : List WindowId),
      (vs.flatMap fun w => Mark.window w :: f w).takeWhile Mark.inNode = [] := by
    intro f vs
    cases vs <;> rfl
  induction vs generalizing ws with
  | nil =>
    cases ws with
    | nil => exact ⟨rfl,fun w hw => by cases hw⟩
    | cons w ws => cases h
  | cons v vs ih =>
    cases ws with
    | nil => cases h
    | cons w ws =>
      simp only [List.flatMap_cons,List.cons_append,List.cons.injEq,Mark.window.injEq] at h
      obtain ⟨rfl,h⟩ := h
      have hseg : f v = g v := by
        have htake := congrArg (List.takeWhile Mark.inNode) h
        rwa [List.takeWhile_append_of_pos (List.all_eq_true.mp (hf v)),
          List.takeWhile_append_of_pos (List.all_eq_true.mp (hg v)),hfront,hfront,
          List.append_nil,List.append_nil] at htake
      rw [hseg] at h
      obtain ⟨rfl,hrest⟩ := ih (List.append_cancel_left h)
      refine ⟨rfl,fun w hw => ?_⟩
      rcases List.mem_cons.mp hw with rfl | hw
      · exact hseg
      · exact hrest w hw

theorem sameMarks (h : s.windowsFingerprint = t.windowsFingerprint) : SameMarks s t := by
  unfold windowsFingerprint at h
  have hlong : ∀ (u : CenterStore) (m : Mark), u.windows ≠ [] →
      (u.windows.flatMap fun w => Mark.window w :: u.layoutMarks w)
        ++ [Mark.active u.activeWindow,Mark.zoom u.zoomedPane] ≠ [m] := by
    intro u m _ hm
    have hlength := congrArg List.length hm
    simp only [List.length_append,List.length_cons,List.length_nil] at hlength
    omega
  by_cases hs : s.connected = false
  · rw [if_pos hs] at h
    by_cases ht : t.connected = false
    · exact ⟨hs.trans ht.symm,fun h => absurd (hs.symm.trans h) (by decide),
        fun h => absurd (hs.symm.trans h) (by decide)⟩
    · rw [if_neg ht] at h
      split_ifs at h with hnone
      · cases h
      · exact absurd h.symm (hlong t _ hnone)
  · rw [if_neg hs] at h
    by_cases ht : t.connected = false
    · rw [if_pos ht] at h
      split_ifs at h with hnone
      · cases h
      · exact absurd h (hlong s _ hnone)
    · rw [if_neg ht] at h
      have hconnected : s.connected = t.connected :=
        (Bool.eq_true_of_not_eq_false hs).trans (Bool.eq_true_of_not_eq_false ht).symm
      by_cases hsw : s.windows = []
      · rw [if_pos hsw] at h
        split_ifs at h with htw
        · exact ⟨hconnected,fun _ => hsw.trans htw.symm,fun _ hne => absurd hsw hne⟩
        · exact absurd h.symm (hlong t _ htw)
      · rw [if_neg hsw] at h
        split_ifs at h with htw
        · exact absurd h (hlong s _ hsw)
        · obtain ⟨hfront,hback⟩ := List.append_inj' h rfl
          obtain ⟨hwindows,hmarks⟩ :=
            segments_eq (inNode_layoutMarks s) (inNode_layoutMarks t) hfront
          simp only [List.cons.injEq,Mark.active.injEq,Mark.zoom.injEq,and_true] at hback
          exact ⟨hconnected,fun _ => hwindows,fun _ _ => ⟨hback.1,hback.2,hmarks⟩⟩

theorem fingerprintNode_ne_noLayout (a : LayoutObject) :
    LayoutObject.fingerprintNode a ≠ [.noLayout] := by
  cases a <;> simp [LayoutObject.fingerprintNode]

/-- One window drawn from the one and from the other. -/
theorem content_eq_iff {w : WindowId} (hw : t.connected = true ∧ w ∈ t.windows)
    (hactive : s.activeWindow = t.activeWindow) (hzoom : s.zoomedPane = t.zoomedPane)
    (hmarks : s.layoutMarks w = t.layoutMarks w) :
    s.content w = t.content w ↔
      (t.DrawsLayout w → ∀ a ∈ s.layouts w, ∀ b ∈ t.layouts w, LayoutObject.Alike a b) := by
  unfold layoutMarks at hmarks
  unfold content DrawsLayout
  rw [hactive,hzoom]
  cases hs : s.layouts w with
  | none =>
    cases ht : t.layouts w with
    | none => simp
    | some b =>
      rw [hs,ht] at hmarks
      exact absurd hmarks.symm (fingerprintNode_ne_noLayout b)
  | some a =>
    cases ht : t.layouts w with
    | none =>
      rw [hs,ht] at hmarks
      exact absurd hmarks (fingerprintNode_ne_noLayout a)
    | some b =>
      have hiff := LayoutObject.renderNode_eq_iff a b
      cases t.zoomedPane with
      | none => simp [hw,hiff]
      | some zoomed =>
        by_cases hshown : t.activeWindow = some w
        · simp [hshown]
        · simp [hw,hshown,hiff]

/-- With one fingerprint, the same is drawn just where the layouts that are drawn are alike. -/
theorem draw_eq_iff (h : SameMarks s t) : s.draw = t.draw ↔ s.LayoutsAlike t := by
  unfold draw
  rw [h.connected]
  by_cases ht : t.connected = false
  · refine iff_of_true (by simp [ht]) fun w hw => ?_
    exact absurd (ht.symm.trans hw.1) (by decide)
  · have htrue := Bool.eq_true_of_not_eq_false ht
    have hwindows := h.windows (h.connected.trans htrue)
    rw [if_neg ht,if_neg ht,hwindows]
    by_cases hnone : t.windows = []
    · refine iff_of_true (by simp [hnone]) fun w hw => ?_
      exact absurd hw.2.1 (by simp [hnone])
    · obtain ⟨hactive,hzoom,hmarks⟩ :=
        h.rest (h.connected.trans htrue) (hwindows ▸ hnone)
      rw [if_neg hnone,if_neg hnone,Panel.views.injEq,List.map_inj_left]
      constructor
      · intro heq w hw
        have hcontent := (TabView.mk.inj (heq w hw.2.1)).2.2
        exact (content_eq_iff ⟨hw.1,hw.2.1⟩ hactive hzoom
          (hmarks w (hwindows ▸ hw.2.1))).mp hcontent hw
      · intro halike w hw
        have hcontent := (content_eq_iff ⟨htrue,hw⟩ hactive hzoom
          (hmarks w (hwindows ▸ hw))).mpr fun hdraws => halike w hdraws
        rw [hactive,hcontent]

end CenterStore

/-- `lastFingerprint` is empty before the first render; `drawnFrom` is the store that was drawn
from last. -/
structure Center where
  store : CenterStore
  lastFingerprint : List Mark
  panel : Panel
  drawnFrom : Option CenterStore
  rendered : Bool

/-- Any change of the store, with the render it causes; none of the center while a name is
edited in it. -/
structure StoreUpdate where
  store : CenterStore
  editing : Bool

namespace Center

def start : Center := ⟨⟨false,[],none,fun _ => none,none⟩,[],.blank,none,false⟩

def renderCenter (s : Center) : Center :=
  if s.store.windowsFingerprint = s.lastFingerprint then { s with rendered := true }
  else { s with
    lastFingerprint := s.store.windowsFingerprint
    panel := s.store.draw
    drawnFrom := some s.store
    rendered := true }

def step (s : Center) (update : StoreUpdate) : Option Center :=
  let t := { s with store := update.store, rendered := false }
  some (if update.editing then t else t.renderCenter)

/-- After a render the center is what the store is drawn as: each tree with the structure, order
and weights of the stored layout, and with dividers on its nodes. -/
def Right (s : Center) : Prop := s.rendered → s.panel = s.store.draw

/-- An update that leaves the fingerprint as it was when the center was drawn leaves the weights
and nodes of the layouts that are drawn, too. -/
def InTime (s : Center) (update : StoreUpdate) : Prop :=
  update.editing = false → ∀ old ∈ s.drawnFrom,
    update.store.windowsFingerprint = old.windowsFingerprint → old.LayoutsAlike update.store

/-- The panel and the fingerprint are of the store that was drawn. -/
def Kept (s : Center) : Prop :=
  match s.drawnFrom with
  | none => s.lastFingerprint = []
  | some old => s.lastFingerprint = old.windowsFingerprint ∧ s.panel = old.draw

variable {s t : Center}

theorem kept_start : start.Kept := rfl

theorem right_start : start.Right := fun h => by cases h

theorem Kept.renderCenter (h : s.Kept) : s.renderCenter.Kept := by
  unfold Center.renderCenter
  split_ifs
  · exact h
  · exact ⟨rfl,rfl⟩

theorem kept_step (h : s.Kept) (update : StoreUpdate) (ht : s.step update = some t) : t.Kept := by
  cases ht
  have hstore : Kept { s with store := update.store, rendered := false } := h
  split
  · exact hstore
  · exact hstore.renderCenter

/-- The center is drawn anew, or is left as it was drawn from a store with one fingerprint. -/
theorem right_step_iff (h : s.Kept) (update : StoreUpdate) :
    s.InTime update ↔ ∀ t, s.step update = some t → t.Right := by
  simp only [step,Option.some.injEq,forall_eq']
  by_cases hediting : update.editing = true
  · rw [if_pos hediting]
    refine iff_of_true ?_ fun hrendered => by cases hrendered
    intro hnot
    exact absurd (hediting.symm.trans hnot) (by decide)
  · have hnot := Bool.eq_false_of_not_eq_true hediting
    rw [if_neg hediting]
    unfold InTime Right renderCenter
    simp only [hnot,true_imp_iff]
    unfold Kept at h
    cases hold : s.drawnFrom with
    | none =>
      rw [hold] at h
      rw [if_neg (by rw [h]; exact update.store.windowsFingerprint_ne_nil)]
      simp
    | some old =>
      rw [hold] at h
      simp only [h.1,Option.mem_some_iff,forall_eq']
      split_ifs with hsame
      · rw [← CenterStore.draw_eq_iff (CenterStore.sameMarks hsame.symm),h.2]
        simp [hsame]
      · simp [hsame]

/-- The center is what the store is drawn as after each render of a run just where no update
changes the weights or nodes of a drawn layout alone. -/
theorem center_right_iff (updates : List StoreUpdate) :
    Always step Right start updates ↔ Along step InTime start updates :=
  (along_iff_always (I := Kept) (fun _ update _ hs ht => kept_step hs update ht)
    (fun _ update hs _ => right_step_iff hs update) kept_start right_start).symm

/-- Two panes side by side in the only window, as a reload brings them. -/
def sideBySide (node : Nat) (left right : ℚ) : CenterStore where
  connected := true
  windows := [⟨1⟩]
  activeWindow := some ⟨1⟩
  layouts _ := some (.split node .vertical [(.leaf ⟨1⟩,left),(.leaf ⟨2⟩,right)])
  zoomedPane := none

/-- The panes have been resized by another client. -/
theorem new_weights_not_drawn :
    ¬ Always step Right start [⟨sideBySide 0 50 50,false⟩,⟨sideBySide 1 70 30,false⟩] := by
  intro h
  have hdraw : (sideBySide 0 50 50).draw = (sideBySide 1 70 30).draw := h.last rfl rfl
  have hmarks : (sideBySide 0 50 50).windowsFingerprint =
    (sideBySide 1 70 30).windowsFingerprint := rfl
  have hstores := (CenterStore.draw_eq_iff (CenterStore.sameMarks hmarks)).mp hdraw
  have halike := hstores ⟨1⟩ ⟨rfl,List.mem_singleton_self _,.inl rfl⟩ _ rfl _ rfl
  have hweights : (50 : ℚ) = 70 := halike.2.1.2.1
  revert hweights
  decide

end Center
end Pyre.Gui
