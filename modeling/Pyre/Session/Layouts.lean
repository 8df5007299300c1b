import Pyre.Session.Windows

/-!
The layout trees of a daemon of its own against its panes. Only `close_pane` prunes
a tree, and it keeps the last leaf; a shell that exits leaves its leaf behind, and a
later `open_pane` keeps the tree it finds.
-/

set_option autoImplicit false

namespace Pyre.Session
open Base

namespace Registry

/-- The pane is registered, in this session and window. -/
def Has (s : Registry) (sid : SessionId) (p : PaneId) (w : WindowId) : Prop :=
  ∃ se, s.sessions.lookup sid = some se ∧ se.panes.lookup p = some w

/-- If the window has a pane, the leaves `get_window_layout` gives are panes of it. -/
def LayoutsLive (s : Registry) : Prop :=
  ∀ w, (∃ sid p, s.Has sid p w) →
    ∀ tree ∈ s.windowLayouts w, ∀ q ∈ tree.allLeaves, ∃ sid, s.Has sid q w

def LayoutsDisjoint (s : Registry) : Prop :=
  ∀ sid se, s.sessions.lookup sid = some se → ∀ win₁ ∈ se.windows, ∀ win₂ ∈ se.windows,
    win₁.id ≠ win₂.id → ∀ tree₁ ∈ s.windowLayouts win₁.id, ∀ tree₂ ∈ s.windowLayouts win₂.id,
      ∀ q ∈ tree₁.allLeaves, q ∉ tree₂.allLeaves

/-- The steps that make no ghost: a pane is opened in a window without a tree or
with a pane, and one that ends is the last of its window, or `close_pane` finds
another leaf beside it, or it ends by itself and is no leaf. -/
def Prunes (s : Registry) : Action → Prop
  | .openPane sid w pane => ∀ se win, s.sessions.lookup sid = some se →
    se.target w = some win → pane ∉ s.drawnPanes →
      se.layoutOf win.id = none ∨ ∃ p, se.panes.lookup p = some win.id
  | .closePane pane => ∀ sid se w, s.getPane pane = some (sid,se,w) →
    (∀ tree, se.layoutOf w = some tree → tree.allLeaves ≠ [pane]) ∨
      ∀ p, se.panes.lookup p = some w → p = pane
  | .removePane pane => ∀ sid se w, s.getPane pane = some (sid,se,w) →
    ¬se.Leaf w pane ∨ ∀ p, se.panes.lookup p = some w → p = pane
  | _ => True

structure Inv (s : Registry) : Prop where
  ok : ∀ sid se, s.sessions.lookup sid = some se → se.Ok s.drawnPanes s.drawnWindows
  pane_home : ∀ sid sid' p w w', s.Has sid p w → s.Has sid' p w' → sid = sid'
  window_home : ∀ sid sid' se se' w, s.sessions.lookup sid = some se →
    s.sessions.lookup sid' = some se' → se.Uses w → se'.Uses w → sid = sid'

def Live (s : Registry) : Prop :=
  ∀ sid se, s.sessions.lookup sid = some se → ∀ w, se.LiveAt w

theorem getPane_eq_some {s : Registry} {p : PaneId} {sid : SessionId} {se : SessionState}
    {w : WindowId} (h : s.getPane p = some (sid,se,w)) :
    s.sessions.lookup sid = some se ∧ se.panes.lookup p = some w := by
  obtain ⟨e,he,hmap⟩ := List.exists_of_findSome?_eq_some h
  obtain ⟨w',hw,heq⟩ := Option.map_eq_some_iff.mp hmap
  cases heq
  exact ⟨Table.lookup_eq_some.mpr he,hw⟩

theorem isSome_getPane {s : Registry} {p : PaneId} {sid : SessionId} {w : WindowId}
    (h : s.Has sid p w) : (s.getPane p).isSome := by
  obtain ⟨se,hse,hp⟩ := h
  rw [Option.isSome_iff_ne_none]
  intro hget
  have hnone := List.findSome?_eq_none_iff.mp hget ⟨sid,se⟩ (Table.lookup_eq_some.mp hse)
  simp [hp] at hnone

theorem exists_of_findWindow {s : Registry} {w : WindowId} {win : WindowState}
    (h : s.findWindow w = some win) :
    ∃ sid se, s.sessions.lookup sid = some se ∧ se.findWindow w = some win := by
  obtain ⟨e,he,hwin⟩ := List.exists_of_findSome?_eq_some h
  exact ⟨e.1,e.2,Table.lookup_eq_some.mpr he,hwin⟩

/-- A window that only one session has is found there. -/
theorem findWindow_eq {s : Registry} {sid : SessionId} {se : SessionState} {w : WindowId}
    {win : WindowState} (hunique : ∀ sid' se' win', s.sessions.lookup sid' = some se' →
      se'.findWindow w = some win' → sid' = sid)
    (hse : s.sessions.lookup sid = some se) (hwin : se.findWindow w = some win) :
    s.findWindow w = some win := by
  cases hget : s.findWindow w with
  | none =>
    have hnone := List.findSome?_eq_none_iff.mp hget ⟨sid,se⟩ (Table.lookup_eq_some.mp hse)
    rw [hwin] at hnone
    cases hnone
  | some win' =>
    obtain ⟨sid',se',hse',hwin'⟩ := exists_of_findWindow hget
    obtain rfl := hunique sid' se' win' hse' hwin'
    obtain rfl := Option.some.inj (hse.symm.trans hse')
    exact hwin'.symm.trans hwin

theorem Inv.unique_window {s : Registry} (hi : s.Inv) {sid sid' : SessionId}
    {se se' : SessionState} {w : WindowId} {win win' : WindowState}
    (hse : s.sessions.lookup sid = some se) (hwin : se.findWindow w = some win)
    (hse' : s.sessions.lookup sid' = some se') (hwin' : se'.findWindow w = some win') :
    sid' = sid :=
  hi.window_home sid' sid se' se w hse' hse (Or.inl ⟨win',hwin'⟩) (Or.inl ⟨win,hwin⟩)

theorem windowLayouts_eq {s : Registry} (hi : s.Inv) {sid : SessionId} {se : SessionState}
    (hse : s.sessions.lookup sid = some se) {w : WindowId} {win : WindowState}
    (hwin : se.findWindow w = some win) : s.windowLayouts w = (se.layoutOf w).toList := by
  have hfind := findWindow_eq (fun _ _ _ h h' => hi.unique_window hse hwin h h') hse hwin
  have hlayout : se.layoutOf w = win.layout := by rw [SessionState.layoutOf,hwin]; rfl
  cases hl : win.layout with
  | some tree => simp [windowLayouts,hfind,hlayout,hl]
  | none =>
    -- a window without a tree has no pane
    have hempty : ∀ e ∈ s.sessions.entries, e.2.panesIn w = [] := by
      intro e he
      rw [List.eq_nil_iff_forall_not_mem]
      intro p hp
      have hse' := Table.lookup_eq_some.mpr he
      have hpane := SessionState.mem_panesIn.mp hp
      have hsid := hi.window_home sid e.1 se e.2 w hse hse' (Or.inl ⟨win,hwin⟩)
        (Or.inr ⟨p,hpane⟩)
      rw [← hsid] at hse'
      have hsame := Option.some.inj (hse.symm.trans hse')
      rw [← hsame] at hpane
      exact (hi.ok _ _ hse).has_layout w win p hwin hpane (hlayout.trans hl)
    simp only [windowLayouts,hfind,hl,hlayout,Option.toList_none,List.flatMap_eq_nil_iff,
      List.map_eq_nil_iff]
    exact hempty

theorem layoutsLive_iff {s : Registry} (hi : s.Inv) : s.LayoutsLive ↔ s.Live := by
  constructor
  · intro h sid se hse w p hp q ⟨tree,ht,hq⟩
    obtain ⟨win,hwin,-⟩ := Option.bind_eq_some_iff.mp ht
    have hmem : tree ∈ s.windowLayouts w := by rw [windowLayouts_eq hi hse hwin,ht]; simp
    obtain ⟨sid',se',hse',hq'⟩ := h w ⟨sid,p,se,hse,hp⟩ tree hmem q hq
    obtain rfl := hi.window_home sid sid' se se' w hse hse' (Or.inl ⟨win,hwin⟩) (Or.inr ⟨q,hq'⟩)
    obtain rfl := Option.some.inj (hse.symm.trans hse')
    exact hq'
  · rintro h w ⟨sid,p,se,hse,hp⟩ tree hmem q hq
    cases hfind : s.findWindow w with
    | none => simp [windowLayouts,hfind] at hmem
    | some win =>
      obtain ⟨sid',se',hse',hwin⟩ := exists_of_findWindow hfind
      obtain rfl := hi.window_home sid sid' se se' w hse hse' (Or.inr ⟨p,hp⟩)
        (Or.inl ⟨win,hwin⟩)
      obtain rfl := Option.some.inj (hse.symm.trans hse')
      rw [windowLayouts_eq hi hse hwin,Option.mem_toList] at hmem
      exact ⟨sid,se,hse,h sid se hse w p hp q ⟨tree,hmem,hq⟩⟩

theorem Inv.disjoint {s : Registry} (hi : s.Inv) : s.LayoutsDisjoint := by
  intro sid se hse win₁ hwin₁ win₂ hwin₂ hne tree₁ ht₁ tree₂ ht₂ q hq₁ hq₂
  have hfound : ∀ win ∈ se.windows, ∃ win', se.findWindow win.id = some win' := by
    intro win hwin
    rw [← Option.isSome_iff_exists,SessionState.findWindow,List.find?_isSome]
    exact ⟨win,hwin,by simp⟩
  obtain ⟨win₁',h₁⟩ := hfound win₁ hwin₁
  obtain ⟨win₂',h₂⟩ := hfound win₂ hwin₂
  rw [windowLayouts_eq hi hse h₁,Option.mem_toList] at ht₁
  rw [windowLayouts_eq hi hse h₂,Option.mem_toList] at ht₂
  exact hne ((hi.ok sid se hse).disjoint _ _ q ⟨tree₁,ht₁,hq₁⟩ ⟨tree₂,ht₂,hq₂⟩)

theorem lookup_update {s : Registry} {sid sid' : SessionId} {se se' : SessionState} :
    (s.update sid se).sessions.lookup sid' = some se' ↔
      (sid' = sid ∧ se' = se) ∨ (sid' ≠ sid ∧ s.sessions.lookup sid' = some se') :=
  Table.lookup_insert_eq_some

theorem lookup_dropSession {s : Registry} {sid sid' : SessionId} {se : SessionState} :
    (s.dropSession sid).sessions.lookup sid' = some se ↔
      sid' ≠ sid ∧ s.sessions.lookup sid' = some se := Table.lookup_erase_eq_some

/-! What every step preserves. -/

theorem inv_empty : empty.Inv := by
  refine ⟨?_,?_,?_⟩
  · intro sid se h
    cases h
  · rintro sid sid' p w w' ⟨se,h,-⟩
    cases h
  · intro sid sid' se se' w h
    cases h

theorem Inv.drop {s : Registry} (hi : s.Inv) (sid : SessionId) : (s.dropSession sid).Inv := by
  refine ⟨?_,?_,?_⟩
  · intro sid' se h
    exact hi.ok sid' se (lookup_dropSession.mp h).2
  · rintro sid₁ sid₂ p w w' ⟨se₁,h₁,hp₁⟩ ⟨se₂,h₂,hp₂⟩
    exact hi.pane_home sid₁ sid₂ p w w' ⟨se₁,(lookup_dropSession.mp h₁).2,hp₁⟩
      ⟨se₂,(lookup_dropSession.mp h₂).2,hp₂⟩
  · intro sid₁ sid₂ se₁ se₂ w h₁ h₂
    exact hi.window_home sid₁ sid₂ se₁ se₂ w (lookup_dropSession.mp h₁).2
      (lookup_dropSession.mp h₂).2

/-- A session is replaced by one with no other windows, and with no panes but
fresh ones and its own. -/
theorem Inv.update {s : Registry} (hi : s.Inv) {sid : SessionId} {se se' : SessionState}
    (hse : s.sessions.lookup sid = some se) {dp : List PaneId} (hdp : s.drawnPanes ⊆ dp)
    (hok : se'.Ok dp s.drawnWindows) (huses : ∀ w, se'.Uses w → se.Uses w)
    (hpanes : ∀ p w, se'.panes.lookup p = some w →
      p ∉ s.drawnPanes ∨ ∃ w', se.panes.lookup p = some w') :
    Inv { s.update sid se' with drawnPanes := dp } := by
  have hother : ∀ sid' p w w', sid' ≠ sid → s.Has sid' p w → se'.panes.lookup p ≠ some w' := by
    rintro sid' p w w' hne ⟨se₂,h₂,hp₂⟩ hp
    rcases hpanes p w' hp with hnew | ⟨w₀,hold⟩
    · exact hnew ((hi.ok sid' se₂ h₂).panes_drawn p w hp₂)
    · exact hne (hi.pane_home sid' sid p w w₀ ⟨se₂,h₂,hp₂⟩ ⟨se,hse,hold⟩)
  refine ⟨?_,?_,?_⟩
  · intro sid' se₁ h
    rcases lookup_update.mp h with ⟨-,rfl⟩ | ⟨-,h⟩
    · exact hok
    · exact (hi.ok sid' se₁ h).mono hdp (List.Subset.refl _)
  · rintro sid₁ sid₂ p w w' ⟨se₁,h₁,hp₁⟩ ⟨se₂,h₂,hp₂⟩
    rcases lookup_update.mp h₁ with ⟨rfl,rfl⟩ | ⟨hne₁,hold₁⟩
    · rcases lookup_update.mp h₂ with ⟨rfl,-⟩ | ⟨hne₂,hold₂⟩
      · rfl
      · exact absurd hp₁ (hother sid₂ p w' w hne₂ ⟨se₂,hold₂,hp₂⟩)
    · rcases lookup_update.mp h₂ with ⟨rfl,rfl⟩ | ⟨-,hold₂⟩
      · exact absurd hp₂ (hother sid₁ p w w' hne₁ ⟨se₁,hold₁,hp₁⟩)
      · exact hi.pane_home sid₁ sid₂ p w w' ⟨se₁,hold₁,hp₁⟩ ⟨se₂,hold₂,hp₂⟩
  · intro sid₁ sid₂ se₁ se₂ w h₁ h₂ hu₁ hu₂
    rcases lookup_update.mp h₁ with ⟨rfl,rfl⟩ | ⟨hne₁,hold₁⟩
    · rcases lookup_update.mp h₂ with ⟨rfl,-⟩ | ⟨-,hold₂⟩
      · rfl
      · exact hi.window_home _ sid₂ se se₂ w hse hold₂ (huses w hu₁) hu₂
    · rcases lookup_update.mp h₂ with ⟨rfl,rfl⟩ | ⟨-,hold₂⟩
      · exact hi.window_home sid₁ _ se₁ se w hold₁ hse hu₁ (huses w hu₂)
      · exact hi.window_home sid₁ sid₂ se₁ se₂ w hold₁ hold₂ hu₁ hu₂

theorem Inv.shrink {s : Registry} (hi : s.Inv) {sid : SessionId} {se se' : SessionState}
    (hse : s.sessions.lookup sid = some se) (hs : se.Shrinks se') : (s.update sid se').Inv :=
  hi.update hse (List.Subset.refl _) ((hi.ok sid se hse).shrink hs) (fun _ hu => hs.uses hu)
    fun p w hp => Or.inr ⟨w,hs.panes p w hp⟩

theorem Inv.settle {s : Registry} (hi : s.Inv) {sid : SessionId} {se se' : SessionState}
    (hse : s.sessions.lookup sid = some se) (hs : se.Shrinks se') : (s.settle sid se').Inv := by
  unfold Registry.settle
  split
  · exact hi.drop sid
  · exact hi.shrink hse hs

theorem inv_closePane {s : Registry} (hi : s.Inv) (pane : PaneId) : (s.closePane pane).Inv := by
  unfold closePane
  split
  · exact hi
  · rename_i sid se w hget
    have hse := (getPane_eq_some hget).1
    exact hi.settle hse (SessionState.shrinks_closePane (hi.ok sid se hse) pane w)

theorem inv_removePane {s : Registry} (hi : s.Inv) (pane : PaneId) : (s.removePane pane).Inv := by
  unfold removePane
  split
  · exact hi
  · rename_i sid se w hget
    have hse := (getPane_eq_some hget).1
    exact hi.settle hse (SessionState.shrinks_removePane (hi.ok sid se hse) pane)

theorem uses_openPane {se : SessionState} {w w' : WindowId} {win : WindowState} {pane : PaneId}
    (hwin : se.findWindow w = some win) (h : (se.openPane w pane).Uses w') : se.Uses w' := by
  rcases h with ⟨win',hwin'⟩ | ⟨p,hp⟩
  · rw [SessionState.openPane,SessionState.findWindow_modifyLayout] at hwin'
    obtain ⟨win₀,hwin₀,-⟩ := Option.map_eq_some_iff.mp hwin'
    exact Or.inl ⟨win₀,hwin₀⟩
  · rcases SessionState.lookup_openPane.mp hp with ⟨-,rfl⟩ | ⟨-,hp⟩
    · exact Or.inl ⟨win,hwin⟩
    · exact Or.inr ⟨p,hp⟩

theorem uses_placeSplit {se : SessionState} {w w' : WindowId} {parent pane : PaneId}
    {orient : Orient} (h : (se.placeSplit w parent pane orient).Uses w') : se.Uses w' := by
  rcases h with ⟨win',hwin'⟩ | hp
  · rw [SessionState.placeSplit,SessionState.findWindow_modifyLayout] at hwin'
    obtain ⟨win₀,hwin₀,-⟩ := Option.map_eq_some_iff.mp hwin'
    exact Or.inl ⟨win₀,hwin₀⟩
  · exact Or.inr hp

theorem inv_openPane {s : Registry} (hi : s.Inv) {sid : SessionId} {se : SessionState}
    (hse : s.sessions.lookup sid = some se) {w : WindowId} {win : WindowState}
    (hwin : se.findWindow w = some win) {pane : PaneId} (hpane : pane ∉ s.drawnPanes) :
    (s.openPane sid se w pane).Inv := by
  refine hi.update hse (List.subset_cons_self _ _)
    (SessionState.ok_openPane (hi.ok sid se hse) hwin hpane) (fun _ hu => uses_openPane hwin hu) ?_
  intro p w' hp
  rcases SessionState.lookup_openPane.mp hp with ⟨rfl,-⟩ | ⟨-,hp⟩
  · exact Or.inl hpane
  · exact Or.inr ⟨w',hp⟩

/-- The session after a split, filed in place of the one before it. -/
theorem update_openPane (s : Registry) (sid : SessionId) (se se' : SessionState) (w : WindowId)
    (pane : PaneId) : (s.openPane sid se w pane).update sid se' =
      { s.update sid se' with drawnPanes := pane :: s.drawnPanes } := by
  simp [openPane,update]

theorem inv_split {s : Registry} (hi : s.Inv) {sid : SessionId} {se : SessionState}
    (hse : s.sessions.lookup sid = some se) {w : WindowId} {win : WindowState}
    (hwin : se.findWindow w = some win) {parent pane : PaneId}
    (hparent : se.panes.lookup parent = some w) (hpane : pane ∉ s.drawnPanes) (orient : Orient) :
    ((s.openPane sid se w pane).update sid
      ((se.openPane w pane).placeSplit w parent pane orient)).Inv := by
  have hok := hi.ok sid se hse
  have hdrawn := hok.panes_drawn parent w hparent
  rw [update_openPane]
  refine hi.update hse (List.subset_cons_self _ _)
    (SessionState.ok_split hok hwin hdrawn hpane orient)
    (fun _ hu => uses_openPane hwin (uses_placeSplit hu)) ?_
  intro p w' hp
  rcases SessionState.lookup_openPane.mp hp with ⟨rfl,-⟩ | ⟨-,hp⟩
  · exact Or.inl hpane
  · exact Or.inr ⟨w',hp⟩

/-- A session of its own, or one more window: the window is fresh. -/
theorem Inv.window {s : Registry} (hi : s.Inv) {sid : SessionId} {se : SessionState}
    {w : WindowId} (hw : w ∉ s.drawnWindows) (hok : se.Ok s.drawnPanes (w :: s.drawnWindows))
    (huses : ∀ w', se.Uses w' → w' = w ∨
      ∃ se₀, s.sessions.lookup sid = some se₀ ∧ se₀.Uses w')
    (hpanes : ∀ p w', se.panes.lookup p = some w' → s.Has sid p w') :
    Inv { s.update sid se with drawnWindows := w :: s.drawnWindows } := by
  have hother : ∀ sid' se' w', sid' ≠ sid → s.sessions.lookup sid' = some se' → se'.Uses w' →
      ¬se.Uses w' := by
    intro sid' se' w' hne h' hu' hu
    rcases huses w' hu with rfl | ⟨se₀,h₀,hu₀⟩
    · exact hw ((hi.ok sid' se' h').windows_drawn _ hu')
    · exact hne (hi.window_home sid' sid se' se₀ w' h' h₀ hu' hu₀)
  refine ⟨?_,?_,?_⟩
  · intro sid' se₁ h
    rcases lookup_update.mp h with ⟨-,rfl⟩ | ⟨-,h⟩
    · exact hok
    · exact (hi.ok sid' se₁ h).mono (List.Subset.refl _) (List.subset_cons_self _ _)
  · rintro sid₁ sid₂ p w₁ w₂ ⟨se₁,h₁,hp₁⟩ ⟨se₂,h₂,hp₂⟩
    have hhas : ∀ sid' se' w', (s.update sid se).sessions.lookup sid' = some se' →
        se'.panes.lookup p = some w' → s.Has sid' p w' := by
      intro sid' se' w' h hp
      rcases lookup_update.mp h with ⟨rfl,rfl⟩ | ⟨-,h⟩
      · exact hpanes p w' hp
      · exact ⟨se',h,hp⟩
    exact hi.pane_home sid₁ sid₂ p w₁ w₂ (hhas sid₁ se₁ w₁ h₁ hp₁) (hhas sid₂ se₂ w₂ h₂ hp₂)
  · intro sid₁ sid₂ se₁ se₂ w' h₁ h₂ hu₁ hu₂
    rcases lookup_update.mp h₁ with ⟨rfl,rfl⟩ | ⟨hne₁,hold₁⟩
    · rcases lookup_update.mp h₂ with ⟨rfl,-⟩ | ⟨hne₂,hold₂⟩
      · rfl
      · exact absurd hu₁ (hother sid₂ se₂ w' hne₂ hold₂ hu₂)
    · rcases lookup_update.mp h₂ with ⟨rfl,rfl⟩ | ⟨-,hold₂⟩
      · exact absurd hu₂ (hother sid₁ se₁ w' hne₁ hold₁ hu₁)
      · exact hi.window_home sid₁ sid₂ se₁ se₂ w' hold₁ hold₂ hu₁ hu₂

theorem lookup_settle {s : Registry} {sid sid' : SessionId} {se se' : SessionState} :
    (s.settle sid se).sessions.lookup sid' = some se' ↔
      (sid' = sid ∧ se' = se ∧ se.panes.entries ≠ []) ∨
        (sid' ≠ sid ∧ s.sessions.lookup sid' = some se') := by
  unfold settle
  split
  · rename_i hempty
    simp [lookup_dropSession,hempty]
  · rename_i hkept
    simp [lookup_update,hkept]

/-- The registry while `close_window` closes the panes of a window one by one: only
that session has changed, and in it only the leaves of that window are in doubt. -/
structure Closing (s : Registry) (sid : SessionId) (w : WindowId) (s' : Registry) : Prop where
  inv : s'.Inv
  panes : ∀ sid' p w', s'.Has sid' p w' → s.Has sid' p w'
  others : ∀ sid' se, sid' ≠ sid → s'.sessions.lookup sid' = some se →
    s.sessions.lookup sid' = some se
  live : s.Live → ∀ se, s'.sessions.lookup sid = some se → ∀ w', w' ≠ w → se.LiveAt w'

theorem Closing.close {s s' : Registry} {sid : SessionId} {w : WindowId} (hi : s.Inv)
    (h : Closing s sid w s') {pane : PaneId} (hpane : s.Has sid pane w) :
    Closing s sid w (s'.closePane pane) := by
  unfold closePane
  split
  · exact h
  · rename_i sid' se w' hget
    obtain ⟨hse,hp⟩ := getPane_eq_some hget
    have hhas := h.panes sid' pane w' ⟨se,hse,hp⟩
    obtain rfl := hi.pane_home sid sid' pane w w' hpane hhas
    obtain rfl : w = w' := by
      obtain ⟨se₁,h₁,hp₁⟩ := hpane
      obtain ⟨se₂,h₂,hp₂⟩ := hhas
      obtain rfl := Option.some.inj (h₁.symm.trans h₂)
      exact Option.some.inj (hp₁.symm.trans hp₂)
    have hshrinks := SessionState.shrinks_closePane (h.inv.ok sid se hse) pane w
    refine ⟨h.inv.settle hse hshrinks,?_,?_,?_⟩
    · rintro sid' p w' ⟨se',h',hp'⟩
      rcases lookup_settle.mp h' with ⟨rfl,rfl,-⟩ | ⟨-,h'⟩
      · exact h.panes _ p w' ⟨se,hse,hshrinks.panes p w' hp'⟩
      · exact h.panes sid' p w' ⟨se',h',hp'⟩
    · intro sid' se' hne h'
      rcases lookup_settle.mp h' with ⟨rfl,-⟩ | ⟨-,h'⟩
      · exact absurd rfl hne
      · exact h.others sid' se' hne h'
    · intro hlive se' h' w' hne
      rcases lookup_settle.mp h' with ⟨-,rfl,-⟩ | ⟨hne',-⟩
      · refine (h.live hlive se hse w' hne).shrink hshrinks fun p hp' => ?_
        refine SessionState.lookup_closePane.mpr ⟨?_,hp'⟩
        rintro rfl
        exact hne (Option.some.inj (hp'.symm.trans hp))
      · exact absurd rfl hne'

theorem closing_foldl {s : Registry} {sid : SessionId} {w : WindowId} (hi : s.Inv)
    {panes : List PaneId} (hpanes : ∀ p ∈ panes, s.Has sid p w) :
    ∀ {s' : Registry}, Closing s sid w s' → Closing s sid w (panes.foldl closePane s') := by
  induction panes with
  | nil => exact id
  | cons p panes ih =>
    intro s' h
    rw [List.foldl_cons]
    exact ih (fun q hq => hpanes q (List.mem_cons_of_mem _ hq))
      (h.close hi (hpanes p List.mem_cons_self))

/-- The last part of `close_window`: the window leaves its session. -/
theorem closeWindow_cases {s : Registry} (hi : s.Inv) (w : WindowId) (unkilled : List PaneId) :
    s.closeWindow w unkilled = s ∨ ∃ sid s', Closing s sid w s' ∧
      ((s'.sessions.lookup sid = none ∧ s.closeWindow w unkilled = s') ∨
        s.closeWindow w unkilled = s'.dropSession sid ∨
        ∃ se, s'.sessions.lookup sid = some se ∧
          s.closeWindow w unkilled = s'.update sid (se.removeWindow w)) := by
  unfold closeWindow
  split
  · exact Or.inl rfl
  · rename_i sid se hfind
    right
    have hse : s.sessions.lookup sid = some se :=
      Table.lookup_eq_some.mpr (List.mem_of_find?_eq_some hfind)
    have hpanes : ∀ p ∈ (se.panesIn w).filter fun pane => pane ∉ unkilled, s.Has sid p w :=
      fun p hp => ⟨se,hse,SessionState.mem_panesIn.mp (List.mem_of_mem_filter hp)⟩
    have hself : Closing s sid w s :=
      ⟨hi,fun _ _ _ h => h,fun _ _ _ h => h,fun hl se h w' _ => hl sid se h w'⟩
    refine ⟨sid,_,closing_foldl hi hpanes hself,?_⟩
    simp only
    split
    · rename_i hnone
      exact Or.inl ⟨hnone,rfl⟩
    · rename_i se' hsome
      split
      · exact Or.inr (Or.inl rfl)
      · exact Or.inr (Or.inr ⟨se',hsome,rfl⟩)

theorem inv_closeWindow {s : Registry} (hi : s.Inv) (w : WindowId) (unkilled : List PaneId) :
    (s.closeWindow w unkilled).Inv := by
  rcases closeWindow_cases hi w unkilled with h | ⟨sid,s',hc,⟨-,h⟩ | h | ⟨se,hse,h⟩⟩ <;> rw [h]
  · exact hi
  · exact hc.inv
  · exact hc.inv.drop sid
  · exact hc.inv.shrink hse (SessionState.shrinks_removeWindow (hc.inv.ok sid se hse) w)

theorem live_closeWindow {s : Registry} (hi : s.Inv) (hlive : s.Live) (w : WindowId)
    (unkilled : List PaneId) : (s.closeWindow w unkilled).Live := by
  rcases closeWindow_cases hi w unkilled with h | ⟨sid,s',hc,⟨hnone,h⟩ | h | ⟨se,hse,h⟩⟩ <;> rw [h]
  · exact hlive
  · intro sid' se' h'
    have hne : sid' ≠ sid := by
      rintro rfl
      rw [hnone] at h'
      cases h'
    exact hlive sid' se' (hc.others sid' se' hne h')
  · intro sid' se' h'
    obtain ⟨hne,h'⟩ := lookup_dropSession.mp h'
    exact hlive sid' se' (hc.others sid' se' hne h')
  · intro sid' se' h' w'
    rcases lookup_update.mp h' with ⟨rfl,rfl⟩ | ⟨hne,h'⟩
    · by_cases hw : w' = w
      · subst hw
        rintro p - q ⟨tree,ht,-⟩
        obtain ⟨win,hwin,-⟩ := Option.bind_eq_some_iff.mp ht
        exact absurd rfl (SessionState.findWindow_removeWindow.mp hwin).1
      · have hshrinks := SessionState.shrinks_removeWindow (hc.inv.ok _ se hse) w
        exact (hc.live hlive se hse w' hw).shrink hshrinks fun _ hp => hp
    · exact hlive sid' se' (hc.others sid' se' hne h') w'

theorem step_inv (s : Registry) (a : Action) (s' : Registry) (hi : s.Inv)
    (h : s.step a = some s') : s'.Inv := by
  cases a with
  | newSession sid w =>
    simp only [step,Option.ite_none_right_eq_some,Option.some.injEq] at h
    obtain ⟨⟨hsid,hw⟩,rfl⟩ := h
    refine hi.window hw (SessionState.ok_new w List.mem_cons_self) ?_ (by simp)
    rintro w' (⟨win,hwin⟩ | ⟨p,hp⟩)
    · by_contra hne
      push Not at hne
      simp [SessionState.findWindow,Ne.symm hne.1] at hwin
    · simp at hp
  | newWindow sid w =>
    obtain ⟨se,hse,hw,rfl⟩ := of_newWindow h
    refine hi.window hw (SessionState.ok_addWindow (hi.ok sid se hse) hw) ?_
      fun p w' hp => ⟨se,hse,hp⟩
    rintro w' (⟨win,hwin⟩ | hp)
    · rw [SessionState.findWindow_addWindow,Option.or_eq_some_iff] at hwin
      rcases hwin with hwin | ⟨-,hwin⟩
      · exact Or.inr ⟨se,hse,Or.inl ⟨win,hwin⟩⟩
      · rw [Option.ite_none_right_eq_some] at hwin
        exact Or.inl hwin.1.symm
    · exact Or.inr ⟨se,hse,Or.inr hp⟩
  | openPane sid w pane =>
    obtain ⟨se,hse,win,htarget,hpane,rfl⟩ := of_openPane h
    obtain ⟨win',hwin⟩ := SessionState.findWindow_target htarget
    exact inv_openPane hi hse hwin hpane
  | openPaneSplit parent orient pane =>
    obtain ⟨sid,se,w,hget,win,hwin,hpane,rfl⟩ := of_openPaneSplit h
    obtain ⟨hse,hparent⟩ := getPane_eq_some hget
    have hid := SessionState.id_of_findWindow hwin
    rw [hid]
    exact inv_split hi hse hwin hparent hpane orient
  | closePane pane => exact Option.some.inj h ▸ inv_closePane hi pane
  | removePane pane => exact Option.some.inj h ▸ inv_removePane hi pane
  | closeWindow w unkilled => exact Option.some.inj h ▸ inv_closeWindow hi w unkilled
  | killSession sid => exact Option.some.inj h ▸ hi.drop sid

/-! Which steps keep the leaves alive. -/

theorem live_update {s : Registry} (hlive : s.Live) {sid : SessionId} {se : SessionState} :
    (s.update sid se).Live ↔ ∀ w, se.LiveAt w := by
  constructor
  · intro h
    exact h sid se (lookup_update.mpr (Or.inl ⟨rfl,rfl⟩))
  · intro h sid' se' h'
    rcases lookup_update.mp h' with ⟨-,rfl⟩ | ⟨-,hold⟩
    · exact h
    · exact hlive sid' se' hold

theorem live_settle {s : Registry} (hlive : s.Live) {sid : SessionId} {se : SessionState} :
    (s.settle sid se).Live ↔ ∀ w, se.LiveAt w := by
  unfold settle
  split
  · rename_i hempty
    constructor
    · intro _ w p hp
      rw [Table.lookup_eq_some,hempty] at hp
      cases hp
    · intro _ sid' se' h'
      exact hlive sid' se' (lookup_dropSession.mp h').2
  · exact live_update hlive

/-- In a session whose windows are all in order, only the one a pane is taken from
can get out of order. -/
theorem liveAt_of_window {se se' : SessionState} {w : WindowId} (hlive : ∀ w, se.LiveAt w)
    (hs : se.Shrinks se')
    (hkeep : ∀ p w', w' ≠ w → se.panes.lookup p = some w' → se'.panes.lookup p = some w') :
    (∀ w', se'.LiveAt w') ↔ se'.LiveAt w := by
  refine ⟨fun h => h w,fun h w' => ?_⟩
  by_cases hw : w' = w
  · exact hw ▸ h
  · exact (hlive w').shrink hs fun p hp => hkeep p w' hw hp

theorem prunes_closePane {s : Registry} (hi : s.Inv) (hlive : s.Live) (pane : PaneId) :
    s.Prunes (.closePane pane) ↔ (s.closePane pane).Live := by
  cases hget : s.getPane pane with
  | none => simp [Prunes,closePane,hget,hlive]
  | some found =>
    obtain ⟨sid,se,w⟩ := found
    obtain ⟨hse,hp⟩ := getPane_eq_some hget
    have hkeep : ∀ p w', w' ≠ w → se.panes.lookup p = some w' →
        (se.closePane pane w).panes.lookup p = some w' := by
      intro p w' hne hp'
      refine SessionState.lookup_closePane.mpr ⟨?_,hp'⟩
      rintro rfl
      exact hne (Option.some.inj (hp'.symm.trans hp))
    have hclose : s.closePane pane = s.settle sid (se.closePane pane w) := by
      simp [closePane,hget]
    rw [hclose,live_settle hlive,
      liveAt_of_window (hlive sid se hse) (SessionState.shrinks_closePane (hi.ok sid se hse) pane w)
        hkeep,SessionState.liveAt_closePane (hlive sid se hse w) hp]
    simp [Prunes,hget]

theorem prunes_removePane {s : Registry} (hi : s.Inv) (hlive : s.Live) (pane : PaneId) :
    s.Prunes (.removePane pane) ↔ (s.removePane pane).Live := by
  cases hget : s.getPane pane with
  | none => simp [Prunes,removePane,hget,hlive]
  | some found =>
    obtain ⟨sid,se,w⟩ := found
    obtain ⟨hse,hp⟩ := getPane_eq_some hget
    have hkeep : ∀ p w', w' ≠ w → se.panes.lookup p = some w' →
        (se.removePane pane).panes.lookup p = some w' := by
      intro p w' hne hp'
      refine SessionState.lookup_removePane.mpr ⟨?_,hp'⟩
      rintro rfl
      exact hne (Option.some.inj (hp'.symm.trans hp))
    have hremove : s.removePane pane = s.settle sid (se.removePane pane) := by
      simp [removePane,hget]
    rw [hremove,live_settle hlive,
      liveAt_of_window (hlive sid se hse) (SessionState.shrinks_removePane (hi.ok sid se hse) pane)
        hkeep,SessionState.liveAt_removePane (hlive sid se hse w) hp]
    simp [Prunes,hget]

/-- Of the other windows a pane that is opened changes nothing. -/
theorem liveAt_openPane_ne {se : SessionState} {w w' : WindowId} (pane : PaneId) (hne : w' ≠ w)
    (hlive : se.LiveAt w') {dp : List PaneId} {dw : List WindowId} (hok : se.Ok dp dw)
    (hpane : pane ∉ dp) : (se.openPane w pane).LiveAt w' := by
  intro p hp q hq
  have hleaf : se.Leaf w' q := by
    obtain ⟨tree,ht,hq⟩ := hq
    rw [SessionState.openPane,SessionState.layoutOf_modifyLayout_ne _ hne] at ht
    exact ⟨tree,ht,hq⟩
  rcases SessionState.lookup_openPane.mp hp with ⟨-,heq⟩ | ⟨-,hold⟩
  · exact absurd heq hne
  · refine SessionState.lookup_openPane.mpr (Or.inr ⟨?_,hlive p hold q hleaf⟩)
    rintro rfl
    exact hpane (hok.leaves_drawn w' q hleaf)

theorem live_openPane {s : Registry} (hi : s.Inv) (hlive : s.Live) {sid : SessionId}
    {se : SessionState} (hse : s.sessions.lookup sid = some se) {w : WindowId} {win : WindowState}
    (hwin : se.findWindow w = some win) {pane : PaneId} (hpane : pane ∉ s.drawnPanes) :
    (s.openPane sid se w pane).Live ↔
      se.layoutOf w = none ∨ ∃ p, se.panes.lookup p = some w := by
  have hok := hi.ok sid se hse
  rw [← SessionState.liveAt_openPane hok hwin hpane (hlive sid se hse w)]
  constructor
  · intro h
    exact h sid (se.openPane w pane) (lookup_update.mpr (Or.inl ⟨rfl,rfl⟩)) w
  · intro h
    refine (live_update hlive).mpr fun w' => ?_
    by_cases hw : w' = w
    · exact hw ▸ h
    · exact liveAt_openPane_ne pane hw (hlive sid se hse w') hok hpane

/-- The parent is a pane of the window, so its leaves were panes of it already. -/
theorem live_split {s : Registry} (hi : s.Inv) (hlive : s.Live) {sid : SessionId}
    {se : SessionState} (hse : s.sessions.lookup sid = some se) {w : WindowId} {win : WindowState}
    (hwin : se.findWindow w = some win) {parent pane : PaneId}
    (hparent : se.panes.lookup parent = some w) (hpane : pane ∉ s.drawnPanes) (orient : Orient) :
    ((s.openPane sid se w pane).update sid
      ((se.openPane w pane).placeSplit w parent pane orient)).Live := by
  have hopen := (live_openPane hi hlive hse hwin hpane).mpr (Or.inr ⟨parent,hparent⟩)
  have hl : (se.openPane w pane).layoutOf w = some ((se.layoutOf w).getD (.leaf pane)) := by
    rw [SessionState.layoutOf_openPane hwin,if_pos rfl]
  refine (live_update hopen).mpr fun w' => ?_
  have hlive' := hopen sid (se.openPane w pane) (lookup_update.mpr (Or.inl ⟨rfl,rfl⟩))
  by_cases hw : w' = w
  · subst hw
    have hself : (se.openPane w' pane).panes.lookup pane = some w' :=
      SessionState.lookup_openPane.mpr (Or.inl ⟨rfl,rfl⟩)
    exact SessionState.liveAt_placeSplit hl orient hself (hlive' w')
  · intro p hp q hq
    rcases SessionState.leaf_placeSplit hl hq with hq | ⟨heq,-⟩
    · exact hlive' w' p hp q hq
    · exact absurd heq hw

theorem live_addWindow {s : Registry} (hlive : s.Live) {sid : SessionId} {se : SessionState}
    (hse : s.sessions.lookup sid = some se) (w : WindowId) (dw : List WindowId) :
    Live { s.update sid (se.addWindow w) with drawnWindows := dw } := by
  have hadd : ∀ w', (se.addWindow w).LiveAt w' := by
    rintro w' p hp q ⟨tree,ht,hq⟩
    rw [SessionState.layoutOf_addWindow] at ht
    exact hlive sid se hse w' p hp q ⟨tree,ht,hq⟩
  exact (live_update hlive).mpr hadd

theorem prunes_iff {s : Registry} (hi : s.Inv) (hlive : s.Live) (a : Action) :
    s.Prunes a ↔ ∀ s', s.step a = some s' → s'.Live := by
  cases a with
  | newSession sid w =>
    simp only [Prunes,true_iff]
    intro s' h
    simp only [step,Option.ite_none_right_eq_some,Option.some.injEq] at h
    obtain ⟨-,rfl⟩ := h
    refine (live_update hlive).mpr fun w' p hp => ?_
    simp at hp
  | newWindow sid w =>
    simp only [Prunes,true_iff]
    intro s' h
    obtain ⟨se,hse,-,rfl⟩ := of_newWindow h
    exact live_addWindow hlive hse w _
  | openPane sid w pane =>
    constructor
    · intro hc s' h
      obtain ⟨se,hse,win,htarget,hpane,rfl⟩ := of_openPane h
      obtain ⟨win',hwin⟩ := SessionState.findWindow_target htarget
      exact (live_openPane hi hlive hse hwin hpane).mpr (hc se win hse htarget hpane)
    · intro h se win hse htarget hpane
      obtain ⟨win',hwin⟩ := SessionState.findWindow_target htarget
      refine (live_openPane hi hlive hse hwin hpane).mp (h _ ?_)
      simp [step,hse,htarget,hpane]
  | openPaneSplit parent orient pane =>
    simp only [Prunes,true_iff]
    intro s' h
    obtain ⟨sid,se,w,hget,win,hwin,hpane,rfl⟩ := of_openPaneSplit h
    obtain ⟨hse,hparent⟩ := getPane_eq_some hget
    rw [SessionState.id_of_findWindow hwin]
    exact live_split hi hlive hse hwin hparent hpane orient
  | closePane pane => simpa [step] using prunes_closePane hi hlive pane
  | removePane pane => simpa [step] using prunes_removePane hi hlive pane
  | closeWindow w unkilled => simpa [step,Prunes] using live_closeWindow hi hlive w unkilled
  | killSession sid =>
    simp only [Prunes,true_iff]
    intro s' h
    obtain rfl := Option.some.inj h
    exact fun sid' se h' => hlive sid' se (lookup_dropSession.mp h').2

/-- The layouts stay free of ghosts along just the runs whose steps make none;
those of two windows are disjoint along all. -/
theorem layouts_live_iff (actions : List Action) :
    Along step Prunes empty actions ↔
      Always step (fun s => s.LayoutsLive ∧ s.LayoutsDisjoint) empty actions := by
  have hlive : empty.Live := fun sid se h => by cases h
  rw [along_iff_always step_inv (fun s a hi hl => prunes_iff hi hl a) inv_empty hlive]
  have hinv := Always.of_invariant step_inv inv_empty actions
  constructor
  · intro h pre hpre t ht
    have hit := hinv pre hpre t ht
    exact ⟨(layoutsLive_iff hit).mpr (h pre hpre t ht),hit.disjoint⟩
  · intro h pre hpre t ht
    exact (layoutsLive_iff (hinv pre hpre t ht)).mp (h pre hpre t ht).1

/-- The shell of a pane that was split exits, and the window still shows the pane. -/
theorem ghost_of_exited_shell :
    ¬∀ actions, Always step (fun s => s.LayoutsLive ∧ s.LayoutsDisjoint) empty actions := by
  intro h
  have hrun := h [.newSession ⟨0⟩ ⟨0⟩,.openPane ⟨0⟩ ⟨0⟩ ⟨1⟩,
    .openPaneSplit ⟨1⟩ .vertical ⟨2⟩,.removePane ⟨1⟩]
  obtain ⟨sid,hshown⟩ := (hrun.last rfl).1 ⟨0⟩ ⟨⟨0⟩,⟨2⟩,_,rfl,rfl⟩ _ (List.mem_singleton.mpr rfl)
    ⟨1⟩ (by decide)
  exact absurd (isSome_getPane hshown) (by decide)

end Registry

end Pyre.Session
