import Pyre.Supervisor.Listing

/-!
Which runs of the supervisor show every window with live panes of its own.
-/

set_option autoImplicit false

namespace Pyre.Supervisor
open Base

namespace SupervisorImpl

variable {s t : SupervisorImpl}

/-- The operation leaves every window that has a live pane a live leaf, or no tree
where all of the session's slots are its own. -/
def Keeps (s : SupervisorImpl) : Operation → Prop
  | .openPane session asked _ fresh =>
    (s.resolveWindow session asked fresh).1.Opens session (s.resolveWindow session asked fresh).2
  | .openPaneSplit parent _ _ fresh => ∀ k, s.index.lookup parent = some k →
    (s.parentWindow k.1 parent fresh).1.Splits k.1 parent (s.parentWindow k.1 parent fresh).2
  | .closePane pane => s.Ends fun q k => s.Closes pane k ∨ q = pane
  | .shellExit session slot _ => s.Ends fun _ k => k = (session,slot) ∧ slot ∈ s.slots session
  | .listPanes session _ fresh => s.Settled session ∨
    (s.getOrCreateDefaultWindow session fresh).1.Listable session
      (s.getOrCreateDefaultWindow session fresh).2
  | .closeWindow w => s.Apart w
  | .spawn _ _ _ | .newWindow _ _ _ | .getWindowLayout _ _ _ | .callback _ _ _
  | .removeWorker _ | .registerWorker _ _ | .restart => True

theorem good_empty : empty.Good := by
  have hnone : ∀ {v q k}, ¬empty.On v q k := by
    rintro v q k ⟨hq,-⟩
    cases hq
  refine ⟨⟨?_,fun v q k hq => absurd hq hnone,?_,fun v q k hq => absurd hq hnone,?_,?_⟩,
    fun v q k hq => absurd hq hnone⟩
  · intro q v hq
    cases hq
  · intro session v hv
    cases hv
  · intro r hr
    cases hr
  · intro r hr
    cases hr

theorem step_good (s : SupervisorImpl) (a : Operation) (t : SupervisorImpl) (h : s.Good)
    (hk : s.Keeps a) (hstep : s.step a = some t) : t.Good := by
  cases a with
  | spawn session pane w =>
    simp only [step,Option.ite_none_right_eq_some,Option.some.injEq] at hstep
    obtain ⟨⟨hsession,hpane,hw⟩,rfl⟩ := hstep
    exact good_spawn h hsession hpane hw
  | newWindow session name w =>
    simp only [step,Option.ite_none_right_eq_some,Option.some.injEq] at hstep
    obtain ⟨hw,rfl⟩ := hstep
    exact good_newWindow h hw session name
  | openPane session asked pane fresh =>
    simp only [step,Option.ite_none_right_eq_some,Option.some.injEq] at hstep
    obtain ⟨⟨-,hpane,hfresh⟩,rfl⟩ := hstep
    rw [openPane_eq]
    cases asked with
    | some w => exact good_openIn h hpane hk
    | none =>
      have hr := resolves_default h.toInv session hfresh
      exact good_openIn (h.resolves hr) (hr.unused hpane) hk
  | openPaneSplit parent orient pane fresh =>
    obtain ⟨k,hparent,hstep⟩ := Option.bind_eq_some_iff.mp hstep
    rw [Option.ite_none_right_eq_some,Option.some.injEq] at hstep
    obtain ⟨⟨-,hpane,hfresh⟩,rfl⟩ := hstep
    have hk := hk k hparent
    rw [openPaneSplit_eq]
    cases hw : s.paneWindowMap.lookup parent with
    | some w =>
      have hold : s.parentWindow k.1 parent fresh = (s,w) := by rw [parentWindow,hw]
      rw [hold] at hk ⊢
      exact good_splitIn h hpane (h.home w parent k ⟨hparent,hw⟩) hk orient
    | none =>
      have hdefault : s.parentWindow k.1 parent fresh =
          s.getOrCreateDefaultWindow k.1 fresh := by rw [parentWindow,hw]
      rw [hdefault] at hk ⊢
      have hr := resolves_default h.toInv k.1 hfresh
      exact good_splitIn (h.resolves hr) (hr.unused hpane) hr.own hk orient
  | closePane pane =>
    obtain ⟨k,-,hstep⟩ := Option.bind_eq_some_iff.mp hstep
    rw [Option.ite_none_right_eq_some,Option.some.injEq] at hstep
    obtain ⟨-,rfl⟩ := hstep
    exact h.removes (removes_closePane s pane) hk
  | shellExit session slot fresh =>
    simp only [step,Option.ite_none_right_eq_some,Option.some.injEq] at hstep
    obtain ⟨hfresh,rfl⟩ := hstep
    exact h.removes (removes_workerClose fun _ => hfresh) hk
  | listPanes session listed fresh =>
    simp only [step,Option.ite_none_right_eq_some,Option.some.injEq] at hstep
    obtain ⟨⟨hworker,hperm,hnodup,hunused,hfresh⟩,rfl⟩ := hstep
    exact good_listPanes h (Option.isSome_iff_ne_none.mp hworker) hperm hnodup hunused hfresh hk
  | closeWindow w =>
    obtain rfl := Option.some.inj hstep
    exact good_closeWindow h hk
  | getWindowLayout w first fresh =>
    simp only [step,Option.ite_none_right_eq_some,Option.some.injEq] at hstep
    obtain ⟨hfresh,rfl⟩ := hstep
    exact good_getWindowLayout h hfresh w first
  | callback session slot fresh =>
    simp only [step,Option.ite_none_right_eq_some,Option.some.injEq] at hstep
    obtain ⟨hfresh,rfl⟩ := hstep
    exact good_callback h hfresh session slot
  | removeWorker session =>
    obtain rfl := Option.some.inj hstep
    exact good_removeWorker h session
  | registerWorker session slots =>
    simp only [step,Option.ite_none_right_eq_some,Option.some.injEq] at hstep
    obtain ⟨⟨hnone,-⟩,rfl⟩ := hstep
    exact good_registerWorker h hnone slots
  | restart =>
    obtain rfl := Option.some.inj hstep
    exact good_restart h

/-- Along every run whose operations keep each window a live leaf, the layouts shown
have live panes of their windows for leaves. -/
theorem shown_panes_live (operations : List Operation)
    (h : Along step Keeps empty operations) : Always step LayoutsLive empty operations :=
  (h.invariant step_good good_empty).mono fun _ hs => hs.layoutsLive

/-- A session that starts, and a pane opened into a window not known before. -/
theorem shown_panes_live_opened :
    Always step LayoutsLive empty [.spawn "s" ⟨1⟩ ⟨1⟩,.openPane "s" (some ⟨2⟩) ⟨2⟩ ⟨3⟩] := by
  refine shown_panes_live _ ⟨trivial,fun s hs => ⟨?_,fun _ _ => trivial⟩⟩
  obtain rfl := Option.some.inj hs
  have hunknown : (empty.spawn "s" ⟨1⟩ ⟨1⟩).sessionOf ⟨2⟩ = none := rfl
  have htree : (empty.spawn "s" ⟨1⟩ ⟨1⟩).treeOf ⟨2⟩ = none := rfl
  have hold : (empty.spawn "s" ⟨1⟩ ⟨1⟩).treeOf ⟨1⟩ ≠ none := by
    intro h
    cases h
  have hrows : (empty.spawn "s" ⟨1⟩ ⟨1⟩).windowRows = [⟨⟨1⟩,"s","1",0,none⟩] := rfl
  refine ⟨fun session h => ?_,fun r hr hid => ?_,fun v q k _ hon _ => ?_,fun h => absurd htree h,
    fun h => absurd hunknown h⟩
  · cases hunknown.symm.trans h
  · obtain rfl := List.mem_singleton.mp (hrows ▸ hr)
    cases hid
  · have hv : (AList.insert ⟨1⟩ ⟨1⟩ ∅ : Table PaneId WindowId).lookup q = some v := hon.2
    rw [Table.lookup_insert_eq_some] at hv
    rcases hv with ⟨-,rfl⟩ | ⟨-,hv⟩
    · exact hold
    · cases hv

/-- A pane is opened into a new window, which is then shown with the session's first
pane, of another window. -/
theorem leaf_of_another_window : ¬∀ operations, Always step LayoutsLive empty operations := by
  intro h
  have hrun := h [.spawn "s" ⟨1⟩ ⟨1⟩,.newWindow "s" none ⟨2⟩,.openPane "s" (some ⟨2⟩) ⟨2⟩ ⟨3⟩]
  obtain ⟨k,-,hmap⟩ := (hrun.last rfl) ⟨2⟩ ⟨2⟩ ("s",1) ⟨rfl,rfl⟩ 0 ⟨3⟩ _ rfl ⟨1⟩
    (List.mem_singleton.mpr rfl)
  exact absurd hmap (by decide)

end SupervisorImpl

end Pyre.Supervisor
