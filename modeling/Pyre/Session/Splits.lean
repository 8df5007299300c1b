import Pyre.Session.Layouts

/-!
What `open_pane_split` leaves in the layout of a daemon of its own: the new pane is
opened first and the tree changed later, in a step of its own.
-/

set_option autoImplicit false

namespace Pyre.Session.Registry
open Base

/-- The part of `open_pane_split` that changes the tree of the window. -/
def placeSplit (s : Registry) (sid : SessionId) (w : WindowId) (parent pane : PaneId)
    (orient : Orient) : Registry :=
  match s.sessions.lookup sid with
  | none => s
  | some se => s.update sid (se.placeSplit w parent pane orient)

/-- In one step the call opens the pane and then changes the tree. -/
theorem step_openPaneSplit {s : Registry} {sid : SessionId} {se : SessionState} {w : WindowId}
    {win : WindowState} {parent pane : PaneId} (hget : s.getPane parent = some (sid,se,w))
    (hwin : se.findWindow w = some win) (hnew : pane ∉ s.drawnPanes) (orient : Orient) :
    s.step (.openPaneSplit parent orient pane) =
      some ((s.openPane sid se w pane).placeSplit sid w parent pane orient) := by
  have hid := SessionState.id_of_findWindow hwin
  have hlookup : (s.openPane sid se w pane).sessions.lookup sid = some (se.openPane w pane) :=
    AList.lookup_insert _
  simp only [step,hget,Option.bind_some,hwin,hid,if_pos hnew,placeSplit,hlookup]

theorem layouts_placeSplit {s : Registry} (hi : s.Inv) {sid : SessionId} {se : SessionState}
    {w : WindowId} {win : WindowState} {parent : PaneId} {tree : LayoutNode}
    (hse : s.sessions.lookup sid = some se) (hwin : se.findWindow w = some win)
    (htree : se.layoutOf w = some tree) (pane : PaneId) (orient : Orient) :
    (s.placeSplit sid w parent pane orient).windowLayouts w =
      [tree.splitFocused parent pane orient] := by
  have hplaced : s.placeSplit sid w parent pane orient =
      s.update sid (se.placeSplit w parent pane orient) := by rw [placeSplit,hse]
  have hlayout : (se.placeSplit w parent pane orient).layoutOf w =
      some (tree.splitFocused parent pane orient) := by
    rw [SessionState.layoutOf_placeSplit se htree,if_pos rfl]
  obtain ⟨win',hwin',hl⟩ := Option.bind_eq_some_iff.mp hlayout
  have hunique : ∀ sid' se' win₁, (s.update sid (se.placeSplit w parent pane orient)).sessions.lookup
      sid' = some se' → se'.findWindow w = some win₁ → sid' = sid := by
    intro sid' se' win₁ h hwin₁
    rcases lookup_update.mp h with ⟨rfl,-⟩ | ⟨-,hold⟩
    · rfl
    · exact hi.unique_window hse hwin hold hwin₁
  have hfind := findWindow_eq hunique (lookup_update.mpr (Or.inl ⟨rfl,rfl⟩)) hwin'
  simp only [hplaced,windowLayouts,hfind,hl]

/-- The tree that the window has then, whatever was done since the pane was opened. -/
theorem halves_placeSplit {s : Registry} {sid : SessionId} {se : SessionState} {w : WindowId}
    {win : WindowState} (hse : s.sessions.lookup sid = some se)
    (hwin : se.findWindow w = some win) (parent pane : PaneId) (orient : Orient) :
    (∃ se' tree, (s.placeSplit sid w parent pane orient).sessions.lookup sid = some se' ∧
        se'.layoutOf w = some tree ∧ tree.Halves orient parent pane) ↔
      parent ∈ (win.layout.getD (.leaf parent)).allLeaves := by
  have hlookup : (s.placeSplit sid w parent pane orient).sessions.lookup sid =
      some (se.placeSplit w parent pane orient) := by
    rw [placeSplit,hse]
    exact AList.lookup_insert _
  have hlayout : (se.placeSplit w parent pane orient).layoutOf w =
      some ((win.layout.getD (.leaf parent)).splitFocused parent pane orient) := by
    rw [SessionState.placeSplit,SessionState.layoutOf_modifyLayout_self,hwin]
    rfl
  rw [← LayoutNode.halves_splitFocused]
  constructor
  · rintro ⟨se',tree,hse',htree,hh⟩
    obtain rfl := Option.some.inj (hlookup.symm.trans hse')
    obtain rfl := Option.some.inj (hlayout.symm.trans htree)
    exact hh
  · intro hh
    exact ⟨_,_,hlookup,hlayout,hh⟩

theorem shows_openPaneSplit_iff {s t : Registry} (hi : s.Inv) {sid : SessionId}
    {se : SessionState} {w : WindowId} {parent pane : PaneId} {orient : Orient}
    (hget : s.getPane parent = some (sid,se,w))
    (hstep : s.step (.openPaneSplit parent orient pane) = some t) :
    (∃ tree ∈ t.windowLayouts w, tree.Halves orient parent pane) ↔ se.Leaf w parent := by
  obtain ⟨hse,hparent⟩ := getPane_eq_some hget
  obtain ⟨x,hx,hstep'⟩ := Option.bind_eq_some_iff.mp hstep
  obtain rfl := Option.some.inj (hget.symm.trans hx)
  obtain ⟨win,hwin,hstep'⟩ := Option.bind_eq_some_iff.mp hstep'
  have hnew := (Option.ite_none_right_eq_some.mp hstep').1
  obtain rfl := Option.some.inj ((step_openPaneSplit hget hwin hnew orient).symm.trans hstep)
  obtain ⟨tree,htree⟩ := Option.ne_none_iff_exists'.mp
    ((hi.ok sid se hse).has_layout w win parent hwin hparent)
  have hopened := inv_openPane hi hse hwin hnew
  have hlookup : (s.openPane sid se w pane).sessions.lookup sid = some (se.openPane w pane) :=
    AList.lookup_insert _
  have hwin' : (se.openPane w pane).findWindow w =
      some { win with layout := some (win.layout.getD (.leaf pane)) } := by
    have hopen : SessionState.findWindow { se with panes := se.panes.insert pane w } w =
        some win := hwin
    rw [SessionState.openPane,SessionState.findWindow_modifyLayout,hopen,Option.map_some,
      if_pos rfl]
  have hlayout : (se.openPane w pane).layoutOf w = some tree := by
    rw [SessionState.layoutOf_openPane hwin,if_pos rfl,htree]
    rfl
  rw [layouts_placeSplit hopened hlookup hwin' hlayout]
  simp [LayoutNode.halves_splitFocused,SessionState.Leaf,htree]

end Pyre.Session.Registry
