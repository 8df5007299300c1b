import Mathlib.Data.Finset.Lattice.Basic
import Pyre.Base.Run
import Pyre.Layout.Closing

/-!
The panes of the GPU viewer: a layout that mirrors the daemon's, the panes that have a stream
and a terminal, and the focus. The layout comes from the daemon's snapshots; streams, terminals
and focus are changed only by what the viewer itself does.
-/

set_option autoImplicit false

namespace Pyre.Gpu
open Base

/-- The reply of an `open_pane_split`; one that failed stays in the queue. -/
inductive PendingPane where
  | waiting
  | resolved (pane : PaneId)
  | failed
  deriving DecidableEq, Repr

def PendingPane.pane? : PendingPane → Option PaneId
  | .resolved pane => some pane
  | _ => none

/-- `exiting` is a close that has ended the event loop. -/
structure App where
  cachedLayout : LayoutNode
  focused : PaneId
  streams : Finset PaneId
  terms : Finset PaneId
  pendingPanes : List PendingPane
  layoutRx : List LayoutNode
  exiting : Bool

/-- `focus` is every way to move the focus: to the neighbour, to the next pane or to the one
under the mouse, all leaves of the layout. -/
inductive AppEvent where
  | spawnPane
  | reply (i : Nat) (pane : Option PaneId)
  | layoutPushed (node : LayoutNode)
  | focus (pane : PaneId)
  | closeFocused
  | aboutToWait

namespace App

/-- `main`: one pane is attached, whatever the layout has. -/
def start (layout : LayoutNode) (pane : PaneId) : App := ⟨layout,pane,{pane},{pane},[],[],false⟩

def insertPane (s : App) (pane : PaneId) : App :=
  { s with
    terms := insert pane s.terms
    streams := insert pane s.streams
    focused := pane }

/-- The panes of the replies that have come. -/
def opened (s : App) : List PaneId := s.pendingPanes.filterMap (·.pane?)

def drainPendingPanes (s : App) : App :=
  { s.opened.foldl insertPane s with
    pendingPanes := s.pendingPanes.filter fun item => item.pane? = none }

/-- Only the last snapshot is applied. -/
def drainLayoutUpdates (s : App) : App :=
  match s.layoutRx.getLast? with
  | some node => { s with cachedLayout := node, layoutRx := [] }
  | none => s

def closeFocused (s : App) : App :=
  let closed := s.cachedLayout.close s.focused
  let s' := { s with
    cachedLayout := closed.1
    streams := s.streams.erase s.focused
    terms := s.terms.erase s.focused }
  match closed.2 with
  | some pane => { s' with focused := pane }
  | none => { s' with exiting := true }

def reply (s : App) (i : Nat) (pane : Option PaneId) : Option App :=
  if s.pendingPanes[i]? = some .waiting then
    some { s with pendingPanes := s.pendingPanes.set i (pane.elim .failed .resolved) }
  else none

def step (s : App) (e : AppEvent) : Option App :=
  if s.exiting = true then none
  else match e with
    | .spawnPane => some { s with pendingPanes := s.pendingPanes ++ [.waiting] }
    | .reply i pane => s.reply i pane
    | .layoutPushed node => some { s with layoutRx := s.layoutRx ++ [node] }
    | .focus pane =>
      if pane ∈ s.cachedLayout.allLeaves then some { s with focused := pane } else none
    | .closeFocused => some s.closeFocused
    | .aboutToWait => some s.drainPendingPanes.drainLayoutUpdates

/-- Nothing is awaited, and nothing is left to drain. -/
def Drained (s : App) : Prop := (∀ item ∈ s.pendingPanes, item = .failed) ∧ s.layoutRx = []

/-- The panes drawn are those with a stream and a terminal, and the focus is on one. -/
def Live (s : App) : Prop :=
  (∀ p, p ∈ s.streams ↔ p ∈ s.cachedLayout.allLeaves) ∧
    (∀ p ∈ s.cachedLayout.allLeaves, p ∈ s.terms) ∧ s.focused ∈ s.cachedLayout.allLeaves

/-- Of a viewer that exits, the pane it has closed was the last of the layout. -/
def Sound (s : App) : Prop :=
  (s.exiting = true → ∀ p ∈ s.cachedLayout.allLeaves, p = s.focused) ∧
    (s.exiting = false → s.Drained → s.Live)

def latestLayout (s : App) : LayoutNode := s.layoutRx.getLast?.getD s.cachedLayout

/-- The latest snapshot has the panes this viewer has opened and not closed, and no other, and
the one it has focused among them. -/
def Agrees (s : App) : Prop :=
  (∀ p, p ∈ s.latestLayout.allLeaves ↔ p ∈ s.streams ∨ p ∈ s.opened) ∧
    s.opened.getLast?.getD s.focused ∈ s.latestLayout.allLeaves

/-- Whenever the last thing awaited has come the snapshot agrees, and a pane is closed only
while the layout has it. -/
def Mirrors (s : App) (e : AppEvent) : Prop :=
  s.exiting = false → match e with
    | .aboutToWait => (∀ item ∈ s.pendingPanes, item ≠ .waiting) → s.Agrees
    | .reply i none => s.pendingPanes[i]? = some .waiting →
      (∀ item ∈ s.pendingPanes.eraseIdx i, item = .failed) → s.layoutRx = [] → s.Agrees
    | .closeFocused => s.cachedLayout.allLeaves ≠ [] → s.focused ∈ s.cachedLayout.allLeaves
    | _ => True

variable {s t : App} {pane : PaneId}

/-! A close, and the two queues. -/

/-- A close that finds its pane has a pane left to focus, or none is left. -/
theorem close_cases {tree : LayoutNode} (h : pane ∈ tree.allLeaves) :
    ((tree.close pane).2 = none ∧ ∀ p ∈ (tree.close pane).1.allLeaves, p = pane) ∨
      ∃ next ∈ (tree.close pane).1.allLeaves, (tree.close pane).2 = some next ∧
        (tree.close pane).1.allLeaves = tree.allLeaves.filter (· ≠ pane) := by
  by_cases hone : tree.allLeaves.length = 1
  · obtain ⟨p,hp⟩ := List.length_eq_one_iff.mp hone
    have hpane : pane = p := by simpa [hp] using h
    have hleaves := tree.leaves_close pane
    rw [if_pos hone] at hleaves
    refine .inl ⟨?_,fun q hq => ?_⟩
    · simp [LayoutNode.close,hp,hpane]
    · rw [hleaves,hp,List.mem_singleton] at hq
      exact hq.trans hpane.symm
  · obtain ⟨before,after,hsplit,hbefore⟩ := List.eq_append_cons_of_mem h
    have htwo : 2 ≤ tree.allLeaves.length := by
      have hpos := List.length_pos_of_mem h
      omega
    obtain ⟨tree',-,hclose⟩ := LayoutNode.close_of_split hsplit hbefore htwo
    have hleaves := tree.leaves_close pane
    rw [if_neg hone,hclose] at hleaves
    have hkeep : before.filter (· ≠ pane) = before :=
      List.filter_eq_self.mpr fun q hq => decide_eq_true fun heq => hbefore (heq ▸ hq)
    have hrest : tree'.allLeaves = before ++ after.filter (· ≠ pane) := by
      rw [hleaves,hsplit,List.filter_append,hkeep,List.filter_cons_of_neg (by simp)]
    rw [hclose]
    cases hnext : tree'.allLeaves[before.length-1]? with
    | none =>
      have hshort := List.getElem?_eq_none_iff.mp hnext
      rw [hrest,List.length_append] at hshort
      refine .inl ⟨rfl,fun p hp => ?_⟩
      have hnil : tree'.allLeaves = [] := by
        rw [hrest,List.append_eq_nil_iff,← List.length_eq_zero_iff,← List.length_eq_zero_iff]
        omega
      simp [hnil] at hp
    | some next => exact .inr ⟨next,List.mem_of_getElem? hnext,rfl,hleaves⟩

theorem closeFocused_of_none (h : (s.cachedLayout.close s.focused).2 = none) :
    s.closeFocused = { s with
      cachedLayout := (s.cachedLayout.close s.focused).1
      streams := s.streams.erase s.focused
      terms := s.terms.erase s.focused
      exiting := true } := by
  simp [closeFocused,h]

theorem closeFocused_of_some (h : (s.cachedLayout.close s.focused).2 = some pane) :
    s.closeFocused = { s with
      cachedLayout := (s.cachedLayout.close s.focused).1
      focused := pane
      streams := s.streams.erase s.focused
      terms := s.terms.erase s.focused } := by
  simp [closeFocused,h]

theorem foldl_insertPane (panes : List PaneId) (s : App) : panes.foldl insertPane s =
    { s with
      terms := s.terms ∪ panes.toFinset
      streams := s.streams ∪ panes.toFinset
      focused := panes.getLast?.getD s.focused } := by
  induction panes generalizing s with
  | nil => simp
  | cons pane rest ih =>
    rw [List.foldl_cons,ih]
    simp only [insertPane,List.toFinset_cons,Finset.insert_union,Finset.union_insert,
      List.getLast?_cons,Option.getD_some]

theorem drainLayoutUpdates_eq (s : App) :
    s.drainLayoutUpdates = { s with cachedLayout := s.latestLayout, layoutRx := [] } := by
  unfold drainLayoutUpdates latestLayout
  cases hl : s.layoutRx.getLast? with
  | none => rw [← List.getLast?_eq_none_iff.mp hl]; rfl
  | some node => rfl

/-- Both queues in one step. -/
theorem drained_eq (s : App) : s.drainPendingPanes.drainLayoutUpdates =
    { s with
      cachedLayout := s.latestLayout
      focused := s.opened.getLast?.getD s.focused
      streams := s.streams ∪ s.opened.toFinset
      terms := s.terms ∪ s.opened.toFinset
      pendingPanes := s.pendingPanes.filter fun item => item.pane? = none
      layoutRx := [] } := by
  rw [drainLayoutUpdates_eq,drainPendingPanes,foldl_insertPane]
  rfl

/-! What one event does. -/

/-- A stream and a terminal are opened and dropped together. -/
def Paired (s : App) : Prop := s.terms = s.streams

theorem paired_step (h : s.Paired) {e : AppEvent} (ht : s.step e = some t) : t.Paired := by
  unfold step at ht
  rw [Option.ite_none_left_eq_some] at ht
  obtain ⟨-,ht⟩ := ht
  unfold Paired at h ⊢
  cases e with
  | spawnPane =>
    obtain rfl := Option.some.inj ht
    exact h
  | reply i pane =>
    simp only [reply,Option.ite_none_right_eq_some,Option.some.injEq] at ht
    obtain ⟨-,rfl⟩ := ht
    exact h
  | layoutPushed node =>
    obtain rfl := Option.some.inj ht
    exact h
  | focus pane =>
    simp only [Option.ite_none_right_eq_some,Option.some.injEq] at ht
    obtain ⟨-,rfl⟩ := ht
    exact h
  | closeFocused =>
    obtain rfl := Option.some.inj ht
    cases hnext : (s.cachedLayout.close s.focused).2 with
    | none => rw [closeFocused_of_none hnext,h]
    | some pane => rw [closeFocused_of_some hnext,h]
  | aboutToWait =>
    obtain rfl := Option.some.inj ht
    rw [drained_eq,h]

/-- While something is awaited or to be drained, nothing is asked of a viewer that goes on. -/
theorem sound_of_not_drained (h : s.exiting = false) (hd : ¬s.Drained) : s.Sound :=
  ⟨fun he => absurd (h.symm.trans he) (by simp),fun _ hnow => absurd hnow hd⟩

theorem sound_iff_of_running (h : s.exiting = false) : s.Sound ↔ (s.Drained → s.Live) := by
  rw [Sound,h]
  simp

theorem live_iff (h : s.Paired) : s.Live ↔
    (∀ p, p ∈ s.streams ↔ p ∈ s.cachedLayout.allLeaves) ∧ s.focused ∈ s.cachedLayout.allLeaves := by
  rw [Live,h]
  constructor
  · rintro ⟨hstreams,-,hfocus⟩
    exact ⟨hstreams,hfocus⟩
  · rintro ⟨hstreams,hfocus⟩
    exact ⟨hstreams,fun p hp => (hstreams p).mpr hp,hfocus⟩

theorem sound_closeFocused_iff (hr : s.exiting = false) (hs : s.Sound) :
    s.closeFocused.Sound ↔
      (s.cachedLayout.allLeaves ≠ [] → s.focused ∈ s.cachedLayout.allLeaves) := by
  by_cases hmem : s.focused ∈ s.cachedLayout.allLeaves
  · refine iff_of_true ?_ fun _ => hmem
    rcases close_cases hmem with ⟨hnone,hlast⟩ | ⟨next,hnext,hsome,hleaves⟩
    · rw [closeFocused_of_none hnone]
      exact ⟨fun _ => hlast,fun hno => absurd hno (by simp)⟩
    · rw [closeFocused_of_some hsome]
      refine (sound_iff_of_running ?_).mpr fun hd => ?_
      · exact hr
      obtain ⟨hstreams,hterms,hfocus⟩ := (sound_iff_of_running hr).mp hs hd
      refine ⟨fun p => ?_,fun p hp => ?_,hnext⟩
      · simp [hleaves,hstreams p,and_comm]
      · simp only [hleaves,List.mem_filter,decide_eq_true_eq] at hp
        exact Finset.mem_erase.mpr ⟨hp.2,hterms p hp.1⟩
  · have hclose := LayoutNode.close_of_notMem hmem
    rw [closeFocused_of_none (by rw [hclose]),hclose]
    simp only [hmem,imp_false,not_not]
    constructor
    · intro hsound
      refine List.eq_nil_iff_forall_not_mem.mpr fun p hp => ?_
      obtain rfl := hsound.1 rfl p hp
      exact hmem hp
    · intro hnil
      refine ⟨fun _ p hp => ?_,fun hno => absurd hno (by simp)⟩
      simp only [hnil,List.not_mem_nil] at hp

theorem sound_drained_iff (h : s.Paired) (hr : s.exiting = false) :
    s.drainPendingPanes.drainLayoutUpdates.Sound ↔
      ((∀ item ∈ s.pendingPanes, item ≠ .waiting) → s.Agrees) := by
  have hpaired : s.drainPendingPanes.drainLayoutUpdates.Paired := by
    rw [Paired,drained_eq,h]
  have hnone : s.drainPendingPanes.drainLayoutUpdates.Drained ↔
      ∀ item ∈ s.pendingPanes, item ≠ .waiting := by
    rw [drained_eq]
    simp only [Drained,List.mem_filter,decide_eq_true_eq,and_true]
    refine forall_congr' fun item => ?_
    cases item <;> simp [PendingPane.pane?]
  rw [sound_iff_of_running (by rw [drained_eq]; exact hr),hnone,live_iff hpaired,drained_eq]
  simp only [Finset.mem_union,List.mem_toFinset,Agrees,iff_comm]

/-- A reply that fails is the last thing awaited if it is the only one. -/
theorem sound_failed_iff (h : s.Paired) (hr : s.exiting = false) {i : Nat}
    (hi : s.pendingPanes[i]? = some .waiting) :
    Sound { s with pendingPanes := s.pendingPanes.set i .failed } ↔
      ((∀ item ∈ s.pendingPanes.eraseIdx i, item = .failed) → s.layoutRx = [] → s.Agrees) := by
  obtain ⟨hlen,hget⟩ := List.getElem?_eq_some_iff.mp hi
  have hset : s.pendingPanes.set i .failed =
      s.pendingPanes.take i ++ .failed :: s.pendingPanes.drop (i+1) := by
    rw [List.set_eq_take_append_cons_drop,if_pos hlen]
  have hold : s.pendingPanes =
      s.pendingPanes.take i ++ .waiting :: s.pendingPanes.drop (i+1) := by
    rw [← hget,List.getElem_cons_drop,List.take_append_drop]
  have hrest : s.pendingPanes.eraseIdx i =
      s.pendingPanes.take i ++ s.pendingPanes.drop (i+1) := List.eraseIdx_eq_take_drop_succ _ _
  have hdrained : Drained { s with pendingPanes := s.pendingPanes.set i .failed } ↔
      (∀ item ∈ s.pendingPanes.eraseIdx i, item = .failed) ∧ s.layoutRx = [] := by
    simp only [Drained,hset,hrest,List.forall_mem_append,List.forall_mem_cons,true_and]
  rw [sound_iff_of_running (by exact hr),hdrained,and_imp]
  refine forall_congr' fun hfailed => forall_congr' fun hnone => ?_
  have hopened : s.opened = [] := by
    rw [hrest,List.forall_mem_append] at hfailed
    rw [opened,hold,List.filterMap_append,List.filterMap_cons,List.append_eq_nil_iff]
    constructor
    · refine List.filterMap_eq_nil_iff.mpr fun item hitem => ?_
      rw [hfailed.1 item hitem]
      rfl
    · refine List.filterMap_eq_nil_iff.mpr fun item hitem => ?_
      rw [hfailed.2 item hitem]
      rfl
  have hlatest : s.latestLayout = s.cachedLayout := by simp [latestLayout,hnone]
  rw [live_iff (by exact h),Agrees,hopened,hlatest]
  simp [iff_comm]

theorem mirrors_iff (h : s.Paired) (hs : s.Sound) (e : AppEvent) :
    s.Mirrors e ↔ ∀ t, s.step e = some t → t.Sound := by
  by_cases hexit : s.exiting = true
  · simp [Mirrors,step,hexit]
  · have hr : s.exiting = false := by simpa using hexit
    simp only [Mirrors,step,if_neg hexit,forall_prop_of_true hr]
    cases e with
    | spawnPane =>
      refine iff_of_true trivial fun t ht => ?_
      obtain rfl := Option.some.inj ht
      exact sound_of_not_drained hr fun hd => absurd (hd.1 .waiting (by simp)) (by simp)
    | reply i pane =>
      simp only [reply,Option.ite_none_right_eq_some,Option.some.injEq,and_imp]
      cases pane with
      | some pane =>
        refine iff_of_true trivial fun t hi ht => ?_
        obtain rfl := ht
        refine sound_of_not_drained hr fun hd => ?_
        have hlen := (List.getElem?_eq_some_iff.mp hi).1
        exact absurd (hd.1 (.resolved pane) (List.mem_set hlen _)) (by simp)
      | none =>
        simp only [Option.elim_none,forall_comm (α := App),forall_eq']
        exact forall_congr' fun hi => (sound_failed_iff h hr hi).symm
    | layoutPushed node =>
      refine iff_of_true trivial fun t ht => ?_
      obtain rfl := Option.some.inj ht
      exact sound_of_not_drained hr fun hd => absurd hd.2 (by simp)
    | focus pane =>
      refine iff_of_true trivial fun t ht => ?_
      simp only [Option.ite_none_right_eq_some,Option.some.injEq] at ht
      obtain ⟨hmem,rfl⟩ := ht
      refine (sound_iff_of_running ?_).mpr fun hd => ?_
      · exact hr
      obtain ⟨hstreams,hterms,-⟩ := (sound_iff_of_running hr).mp hs hd
      exact ⟨hstreams,hterms,hmem⟩
    | closeFocused =>
      simp only [Option.some.injEq,forall_eq']
      exact (sound_closeFocused_iff hr hs).symm
    | aboutToWait =>
      simp only [Option.some.injEq,forall_eq']
      exact (sound_drained_iff h hr).symm

/-- The panes drawn are live in every state of a run exactly when the daemon has drawn one pane at
first, and its snapshots agree whenever the run comes to rest. -/
theorem panes_live_iff (layout : LayoutNode) (pane : PaneId) (events : List AppEvent) :
    ((∀ p, p ∈ layout.allLeaves ↔ p = pane) ∧ Along step Mirrors (start layout pane) events) ↔
      Always step Sound (start layout pane) events := by
  have hpaired : (start layout pane).Paired := rfl
  have hstart : (start layout pane).Sound ↔ ∀ p, p ∈ layout.allLeaves ↔ p = pane := by
    have hdrained : (start layout pane).Drained := ⟨fun _ h => absurd h (by simp [start]),rfl⟩
    rw [sound_iff_of_running rfl,forall_prop_of_true hdrained,live_iff hpaired]
    simp only [start,Finset.mem_singleton]
    constructor
    · exact fun h p => (h.1 p).symm
    · exact fun h => ⟨fun p => (h p).symm,(h pane).mpr rfl⟩
  have hexact : (start layout pane).Sound →
      (Along step Mirrors (start layout pane) events ↔
        Always step Sound (start layout pane) events) := by
    intro hs
    exact along_iff_always (I := Paired) (fun _ _ _ h ht => paired_step h ht)
      (fun _ e h hp => mirrors_iff h hp e) hpaired hs
  constructor
  · rintro ⟨hone,halong⟩
    exact (hexact (hstart.mpr hone)).mp halong
  · intro hall
    have hs : (start layout pane).Sound := hall [] List.nil_prefix _ rfl
    exact ⟨hstart.mp hs,(hexact hs).mpr hall⟩

/-- A session of two panes: the one that is not attached is drawn without a stream. -/
theorem second_pane_not_live :
    ¬Always step Sound (start (.split .vertical [(.leaf ⟨1⟩,50),(.leaf ⟨2⟩,50)]) ⟨1⟩) [] := by
  intro hall
  obtain ⟨-,hsound⟩ := hall [] List.nil_prefix _ rfl
  obtain ⟨hstreams,-⟩ := hsound rfl ⟨fun _ h => absurd h (by simp [start]),rfl⟩
  exact absurd ((hstreams ⟨2⟩).mpr (by decide)) (by decide)

end App
end Pyre.Gpu
