import Pyre.Session.Visible
import Pyre.Supervisor.VisibleRecovers
import Pyre.Supervisor.WindowLayouts

/-!
Which runs show every live pane in one window, of a daemon of its own and of a supervisor with
workers that come and go.
-/

set_option autoImplicit false

namespace Pyre.Supervisor
open Base

/-- The operations, and the reading of the windows of a session, which takes them into memory. -/
inductive ViewCall where
  | request (a : Operation)
  | listWindows (session : SessionKey)
  deriving DecidableEq, Repr

namespace SupervisorImpl

/-- No tree has the pane, in memory or in the store. -/
def InNoTree (s : SupervisorImpl) (pane : PaneId) : Prop :=
  (∀ info ∈ s.windowStore.values, ∀ tree ∈ info.layout, pane ∉ tree.allLeaves) ∧
    ∀ r ∈ s.windowRows, ∀ tree ∈ r.layout, pane ∉ tree.allLeaves

instance (s : SupervisorImpl) (pane : PaneId) : Decidable (s.InNoTree pane) :=
  inferInstanceAs (Decidable (_ ∧ _))

/-- The identifiers that have been drawn are in no tree, and the index has nothing of a session
that starts. -/
def Draws (s : SupervisorImpl) : Operation → Prop
  | .spawn session pane _ =>
    s.InNoTree pane ∧ ∀ k ∈ s.index.paneToSlot.values, k.1 ≠ session
  | .openPane _ _ pane _ | .openPaneSplit _ _ pane _ | .getWindowLayout _ _ pane
  | .callback _ _ pane => s.InNoTree pane
  | .listPanes _ listed _ => ∀ e ∈ listed, s.InNoTree e.2
  | .newWindow _ _ _ | .closePane _ | .shellExit _ _ _ | .closeWindow _ | .removeWorker _
  | .registerWorker _ _ | .restart => True

instance (s : SupervisorImpl) : (a : Operation) → Decidable (s.Draws a)
  | .spawn _ _ _ => inferInstanceAs (Decidable (_ ∧ _))
  | .openPane _ _ _ _ | .openPaneSplit _ _ _ _ | .getWindowLayout _ _ _ | .callback _ _ _ =>
    inferInstanceAs (Decidable (s.InNoTree _))
  | .listPanes _ listed _ => inferInstanceAs (Decidable (∀ e ∈ listed, s.InNoTree e.2))
  | .newWindow _ _ _ | .closePane _ | .shellExit _ _ _ | .closeWindow _ | .removeWorker _
  | .registerWorker _ _ | .restart => isTrue trivial

def view (s : SupervisorImpl) : ViewCall → Option SupervisorImpl
  | .request a => if s.Draws a then s.step a else none
  | .listWindows session => some (s.loadWindows session)

/-- A pane is opened where it gets into a tree, or else it is the only one, for the one window
without a tree to fall back on. -/
def Shows (s : SupervisorImpl) : ViewCall → Prop
  | .request (.newWindow session _ _) => s.Quiet session ∨ s.windowsOf session = []
  | .request (.openPane session asked _ fresh) => s.Receives session asked fresh
  | .request (.openPaneSplit parent _ _ fresh) => s.Splices parent fresh
  | .request (.listPanes session _ fresh) => s.Gathers session fresh
  | .request (.closeWindow w) => s.Empties w
  | .request (.getWindowLayout w first _) => s.treeOf w = none →
    ∀ session, s.sessionOf w = some session → s.Recovers session first
  | .request (.callback session slot _) => s.Recovers session slot
  | .request (.registerWorker session slots) => s.Respawns session slots
  | .request (.spawn _ _ _) | .request (.closePane _) | .request (.shellExit _ _ _)
  | .request (.removeWorker _) | .request .restart | .listWindows _ => True

variable {s t : SupervisorImpl} {p : PaneId}

theorem unplanted_of_inNoTree (h : s.InNoTree p) : s.Unplanted p := by
  intro v tree ht
  rcases Option.or_eq_some_iff.mp ht with hcached | ⟨-,hstored⟩
  · obtain ⟨info,hinfo,hlayout⟩ := Option.bind_eq_some_iff.mp hcached
    exact h.1 info (List.mem_map.mpr ⟨_,Table.lookup_eq_some.mp hinfo,rfl⟩) tree hlayout
  · obtain ⟨r,hr,hlayout⟩ := Option.bind_eq_some_iff.mp hstored
    exact h.2 r (List.mem_of_find?_eq_some hr) tree hlayout

theorem viewed_empty : empty.Viewed := by
  refine ⟨good_empty.toInv,fun session => Or.inl ?_⟩
  rintro p ⟨slot,hslot,-⟩
  cases hslot

theorem view_viewed (s : SupervisorImpl) (a : ViewCall) (t : SupervisorImpl) (h : s.Viewed)
    (hc : s.Shows a) (hstep : s.view a = some t) : t.Viewed := by
  cases a with
  | listWindows session =>
    obtain rfl := Option.some.inj hstep
    exact viewed_loadWindows h session
  | request a =>
    simp only [view,Option.ite_none_right_eq_some] at hstep
    obtain ⟨hdraws,hstep⟩ := hstep
    cases a with
    | spawn session pane w =>
      simp only [step,Option.ite_none_right_eq_some,Option.some.injEq] at hstep
      obtain ⟨⟨hsession,hpane,hw⟩,rfl⟩ := hstep
      refine viewed_spawn h hsession (fun q k hq => hdraws.2 k ?_) hpane
        (unplanted_of_inNoTree hdraws.1) hw
      exact List.mem_map.mpr ⟨_,Table.lookup_eq_some.mp hq,rfl⟩
    | newWindow session name w =>
      simp only [step,Option.ite_none_right_eq_some,Option.some.injEq] at hstep
      obtain ⟨hw,rfl⟩ := hstep
      exact viewed_newWindow h hw hc name
    | openPane session asked pane fresh =>
      simp only [step,Option.ite_none_right_eq_some,Option.some.injEq] at hstep
      obtain ⟨⟨-,hpane,hfresh⟩,rfl⟩ := hstep
      exact viewed_openPane h hpane (unplanted_of_inNoTree hdraws) hfresh hc
    | openPaneSplit parent orient pane fresh =>
      obtain ⟨k,hk,hstep⟩ := Option.bind_eq_some_iff.mp hstep
      simp only [Option.ite_none_right_eq_some,Option.some.injEq] at hstep
      obtain ⟨⟨-,hpane,hfresh⟩,rfl⟩ := hstep
      exact viewed_openPaneSplit h hpane (unplanted_of_inNoTree hdraws) hfresh orient (hc k hk)
    | closePane pane =>
      obtain ⟨k,-,hstep⟩ := Option.bind_eq_some_iff.mp hstep
      simp only [Option.ite_none_right_eq_some,Option.some.injEq] at hstep
      obtain ⟨-,rfl⟩ := hstep
      obtain ⟨gone,hl⟩ := loses_closePane s pane
      exact hl.viewed h
    | shellExit session slot fresh =>
      simp only [step,Option.ite_none_right_eq_some,Option.some.injEq] at hstep
      obtain ⟨hfresh,rfl⟩ := hstep
      obtain ⟨gone,hl⟩ : ∃ gone, s.Loses (s.workerClose session slot fresh) gone :=
        loses_workerClose fun _ => hfresh
      exact hl.viewed h
    | listPanes session listed fresh =>
      simp only [step,Option.ite_none_right_eq_some,Option.some.injEq] at hstep
      obtain ⟨⟨hworker,hperm,hnodup,hunused,hfresh⟩,rfl⟩ := hstep
      exact viewed_listPanes h (Option.isSome_iff_ne_none.mp hworker) hperm hnodup hunused
        (fun e he => unplanted_of_inNoTree (hdraws e he)) hfresh hc
    | closeWindow w =>
      obtain rfl := Option.some.inj hstep
      exact ⟨inv_closeWindow h.toInv w,fun session => seen_closeWindow h.toInv hc (h.seen session)⟩
    | getWindowLayout w first fresh =>
      simp only [step,Option.ite_none_right_eq_some,Option.some.injEq] at hstep
      obtain ⟨hfresh,rfl⟩ := hstep
      exact viewed_getWindowLayout h hfresh (unplanted_of_inNoTree hdraws) hc
    | callback session slot fresh =>
      simp only [step,Option.ite_none_right_eq_some,Option.some.injEq] at hstep
      obtain ⟨hfresh,rfl⟩ := hstep
      exact viewed_callback h hfresh (unplanted_of_inNoTree hdraws) hc
    | removeWorker session =>
      obtain rfl := Option.some.inj hstep
      obtain ⟨gone,hl⟩ := loses_removeWorker s session
      exact hl.viewed h
    | registerWorker session slots =>
      simp only [step,Option.ite_none_right_eq_some,Option.some.injEq] at hstep
      obtain ⟨-,rfl⟩ := hstep
      exact viewed_registerWorker h hc
    | restart =>
      obtain rfl := Option.some.inj hstep
      exact viewed_restart h

/-- A daemon of its own shows every pane as long as no pane is opened in a window with a tree
but by splitting it, and a supervisor does in every run whose calls show theirs. -/
theorem each_pane_shown (calls : List Session.LocalCall) {views : List ViewCall}
    (h : Along view Shows empty views) :
    (Along Session.LocalDaemon.step Session.LocalDaemon.Opens .empty calls ↔
      Always Session.LocalDaemon.step Session.LocalDaemon.EachShown .empty calls) ∧
    Always view EachShown empty views :=
  ⟨Session.LocalDaemon.eachShown_iff calls,
    (h.invariant (I := Viewed) view_viewed viewed_empty).mono fun _ ht => ht.eachShown⟩

def spawnView : ViewCall := .request (.spawn "s" ⟨1⟩ ⟨1⟩)

def splitView : ViewCall := .request (.openPaneSplit ⟨1⟩ .horizontal ⟨2⟩ ⟨2⟩)

/-- The pane that a session starts with may be split. -/
theorem splices_spawned (h : empty.view spawnView = some t) : t.Splices ⟨1⟩ ⟨2⟩ := by
  have hpanes : (empty.view spawnView).map (fun t => (t.index.lookup ⟨1⟩,
      t.paneWindowMap.lookup ⟨1⟩,t.index.counter "s",t.index.paneToSlot.values)) =
        some (some ("s",0),some ⟨1⟩,1,[("s",0)]) := by decide
  have htrees : (empty.view spawnView).map (fun t => (t.windowsOf "s",
      (t.cachedTree ⟨1⟩).map LayoutNode.allLeaves)) = some ([⟨1⟩],some [⟨1⟩]) := by decide
  rw [h,Option.map_some,Option.some.injEq] at hpanes htrees
  simp only [Prod.mk.injEq] at hpanes htrees
  obtain ⟨hat,hmap,hcounter,hvalues⟩ := hpanes
  obtain ⟨hwindows,hleaves⟩ := htrees
  obtain ⟨tree,htree,hleaves⟩ := Option.map_eq_some_iff.mp hleaves
  intro k hk
  obtain rfl := Option.some.inj (hat.symm.trans hk)
  have hparent : t.parentWindow "s" ⟨1⟩ ⟨2⟩ = (t,⟨1⟩) := by simp only [parentWindow,hmap]
  rw [hparent]
  refine ⟨by simp [hwindows],?_,fun v hv hne => ?_,fun hnone => ?_,Or.inr hmap,fun q hq => ?_⟩
  · rw [treeToSplit_of_cached htree,hleaves]
    exact List.mem_singleton.mpr rfl
  · rw [hwindows] at hv
    exact absurd (List.mem_singleton.mp hv) hne
  · rw [savedTree_of_cached htree] at hnone
    cases hnone
  · have hmem : ("s",t.index.counter "s") ∈ t.index.paneToSlot.values :=
      List.mem_map.mpr ⟨_,Table.lookup_eq_some.mp hq,rfl⟩
    rw [hvalues,hcounter] at hmem
    exact absurd hmem (by decide)

theorem each_pane_shown_split :
    (Along Session.LocalDaemon.step Session.LocalDaemon.Opens .empty [] ↔
      Always Session.LocalDaemon.step Session.LocalDaemon.EachShown .empty []) ∧
    Always view EachShown empty [spawnView,splitView] :=
  each_pane_shown [] ⟨trivial,fun _ ht => ⟨splices_spawned ht,fun _ _ => trivial⟩⟩

/-- Two panes, of which the second is opened and no tree is split. -/
def openTwice : List ViewCall := [spawnView,.request (.openPane "s" none ⟨2⟩ ⟨2⟩)]

theorem not_eachShown_openTwice : ¬Always view EachShown empty openTwice := by
  intro hall
  obtain ⟨t,ht⟩ := Option.isSome_iff_exists.mp
    (show (exec view empty openTwice).isSome from by decide)
  have hpanes : (exec view empty openTwice).map (fun t => (t.slots "s",t.index.lookup ⟨2⟩)) =
      some ([1,0],some ("s",1)) := by decide
  have htrees : (exec view empty openTwice).map (fun t => ((t.loadWindows "s").windowsOf "s",
      ((t.loadWindows "s").getWindowLayout ⟨1⟩ 1 ⟨3⟩).2.map LayoutNode.allLeaves)) =
        some ([⟨1⟩],some [⟨1⟩]) := by decide
  rw [ht,Option.map_some,Option.some.injEq,Prod.mk.injEq] at hpanes htrees
  obtain ⟨hslots,hat⟩ := hpanes
  obtain ⟨hwindows,hleaves⟩ := htrees
  have hfirst : (1 : UInt32) ∈ t.slots "s" := by
    rw [hslots]
    exact List.mem_cons_self
  obtain ⟨w,⟨hw,tree,htree,hleaf⟩,-⟩ := hall.last ht "s" ⟨2⟩ ⟨1,hfirst,hat⟩ 1 hfirst ⟨3⟩
  rw [hwindows] at hw
  obtain rfl := List.mem_singleton.mp hw
  rw [htree,Option.map_some,Option.some.injEq] at hleaves
  rw [hleaves] at hleaf
  exact absurd hleaf (by decide)

/-- In neither mode is the second pane shown. -/
theorem second_pane_hidden :
    (¬∀ calls, Always Session.LocalDaemon.step Session.LocalDaemon.EachShown .empty calls) ∧
      ¬∀ views, Always view EachShown empty views :=
  ⟨fun hall => Session.LocalDaemon.not_eachShown_openTwice (hall _),
    fun hall => not_eachShown_openTwice (hall _)⟩

end SupervisorImpl

end Pyre.Supervisor
