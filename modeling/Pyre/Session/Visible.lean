import Pyre.Session.Layouts
import Pyre.Session.Opening

/-!
Which panes of a daemon of its own its windows show. `open_pane` puts a pane into the tree of
its window only where there is none yet; it is a client that splits the tree otherwise.
-/

set_option autoImplicit false

namespace Pyre.Session
open Base

/-- With the panes whose child has exited: they are registered until the daemon has noticed,
and cannot be killed. -/
structure LocalDaemon where
  registry : Registry
  exited : List PaneId

inductive LocalCall where
  | request (a : Action)
  | childExit (pane : PaneId)
  deriving DecidableEq, Repr

namespace LocalDaemon

def empty : LocalDaemon := ⟨.empty,[]⟩

/-- A pane that is not killed with its window has no child any more. -/
def Admits (d : LocalDaemon) : Action → Prop
  | .closeWindow _ unkilled => ∀ p ∈ unkilled, p ∈ d.exited
  | _ => True

instance (d : LocalDaemon) : (a : Action) → Decidable (d.Admits a)
  | .closeWindow _ unkilled => inferInstanceAs (Decidable (∀ p ∈ unkilled, p ∈ d.exited))
  | .newSession _ _ | .newWindow _ _ | .openPane _ _ _ | .openPaneSplit _ _ _ | .closePane _
  | .removePane _ | .killSession _ => isTrue trivial

def step (d : LocalDaemon) : LocalCall → Option LocalDaemon
  | .request a =>
    if d.Admits a then (d.registry.step a).map fun s => { d with registry := s } else none
  | .childExit pane =>
    if (d.registry.getPane pane).isSome then some { d with exited := pane :: d.exited } else none

/-- Each pane whose child runs is a leaf of what is shown of one window of its session, and of
no other. -/
def EachShown (d : LocalDaemon) : Prop :=
  ∀ sid se, d.registry.sessions.lookup sid = some se → ∀ p w, se.panes.lookup p = some w →
    p ∉ d.exited → ∃! v, (∃ win, se.findWindow v = some win) ∧
      ∃ tree ∈ d.registry.windowLayouts v, p ∈ tree.allLeaves

/-- The window that a pane is opened in has no tree. -/
def Opens (d : LocalDaemon) : LocalCall → Prop
  | .request (.openPane sid w pane) => ∀ se win, d.registry.sessions.lookup sid = some se →
    se.target w = some win → pane ∉ d.registry.drawnPanes → se.layoutOf win.id = none
  | _ => True

end LocalDaemon

namespace Registry

variable {s s' t : Registry} {sid : SessionId} {se se' : SessionState} {w : WindowId}
  {p pane : PaneId}

/-- The pane is a leaf of its own window. -/
def Leafed (s : Registry) (p : PaneId) : Prop :=
  ∀ sid se w, s.sessions.lookup sid = some se → se.panes.lookup p = some w → se.Leaf w p

/-- It is if that window is still there. -/
def Placed (s : Registry) (p : PaneId) : Prop :=
  ∀ sid se w win, s.sessions.lookup sid = some se → se.panes.lookup p = some w →
    se.findWindow w = some win → se.Leaf w p

/-- What is left of the panes and the windows was there before, and each pane that was a leaf
of its window is one. -/
structure Keeps (se se' : SessionState) : Prop where
  panes : ∀ p w, se'.panes.lookup p = some w → se.panes.lookup p = some w
  windows : ∀ w win, se'.findWindow w = some win → ∃ win', se.findWindow w = some win'
  leaves : ∀ p w, se'.panes.lookup p = some w → se.Leaf w p → se'.Leaf w p

theorem Keeps.refl (se : SessionState) : Keeps se se :=
  ⟨fun _ _ h => h,fun _ win h => ⟨win,h⟩,fun _ _ _ h => h⟩

def KeepsLeaves (s t : Registry) : Prop :=
  ∀ sid se', t.sessions.lookup sid = some se' →
    ∃ se, s.sessions.lookup sid = some se ∧ Keeps se se'

theorem KeepsLeaves.refl (s : Registry) : s.KeepsLeaves s := fun _ se h => ⟨se,h,.refl se⟩

theorem KeepsLeaves.trans (h : s.KeepsLeaves s') (h' : s'.KeepsLeaves t) : s.KeepsLeaves t := by
  intro sid se₂ h₂
  obtain ⟨se₁,h₁,hk'⟩ := h' sid se₂ h₂
  obtain ⟨se,h₀,hk⟩ := h sid se₁ h₁
  refine ⟨se,h₀,fun p w hp => hk.panes p w (hk'.panes p w hp),fun w win hw => ?_,
    fun p w hp hleaf => hk'.leaves p w hp (hk.leaves p w (hk'.panes p w hp) hleaf)⟩
  obtain ⟨win₁,hw₁⟩ := hk'.windows w win hw
  exact hk.windows w win₁ hw₁

theorem KeepsLeaves.leafed (h : s.KeepsLeaves t) (hp : s.Leafed p) : t.Leafed p := by
  intro sid se' w hse' hw
  obtain ⟨se,hse,hk⟩ := h sid se' hse'
  exact hk.leaves p w hw (hp sid se w hse (hk.panes p w hw))

theorem KeepsLeaves.placed (h : s.KeepsLeaves t) (hp : s.Placed p) : t.Placed p := by
  intro sid se' w win hse' hw hwin
  obtain ⟨se,hse,hk⟩ := h sid se' hse'
  obtain ⟨win',hwin'⟩ := hk.windows w win hwin
  exact hk.leaves p w hw (hp sid se w win' hse (hk.panes p w hw) hwin')

theorem keepsLeaves_dropSession (s : Registry) (sid : SessionId) :
    s.KeepsLeaves (s.dropSession sid) :=
  fun _ se h => ⟨se,(lookup_dropSession.mp h).2,.refl se⟩

theorem keepsLeaves_update (hse : s.sessions.lookup sid = some se) (h : Keeps se se') :
    s.KeepsLeaves (s.update sid se') := by
  intro sid' se₁ h₁
  rcases lookup_update.mp h₁ with ⟨rfl,rfl⟩ | ⟨-,hold⟩
  · exact ⟨se,hse,h⟩
  · exact ⟨se₁,hold,.refl se₁⟩

theorem keepsLeaves_settle (hse : s.sessions.lookup sid = some se) (h : Keeps se se') :
    s.KeepsLeaves (s.settle sid se') := by
  unfold settle
  split
  · exact keepsLeaves_dropSession s sid
  · exact keepsLeaves_update hse h

theorem keeps_closePane (se : SessionState) (pane : PaneId) (v : WindowId) :
    Keeps se (se.closePane pane v) := by
  refine ⟨fun p w hp => (SessionState.lookup_closePane.mp hp).2,fun w win hwin => ?_,
    fun p w hp hleaf => ?_⟩
  · rw [SessionState.closePane,SessionState.findWindow_modifyLayout] at hwin
    obtain ⟨win₀,hwin₀,-⟩ := Option.map_eq_some_iff.mp hwin
    exact ⟨win₀,hwin₀⟩
  · have hne := (SessionState.lookup_closePane.mp hp).1
    obtain ⟨tree,ht,hmem⟩ := hleaf
    by_cases hw : w = v
    · subst hw
      refine ⟨(tree.close pane).1,?_,?_⟩
      · rw [SessionState.layoutOf_closePane,if_pos rfl,ht,Option.map_some]
      · rw [LayoutNode.leaves_close]
        split
        · exact hmem
        · exact List.mem_filter.mpr ⟨hmem,decide_eq_true hne⟩
    · exact ⟨tree,by rwa [SessionState.layoutOf_closePane,if_neg hw],hmem⟩

theorem keepsLeaves_closePane (s : Registry) (pane : PaneId) :
    s.KeepsLeaves (s.closePane pane) := by
  unfold closePane
  split
  · exact .refl s
  · rename_i sid se w hget
    exact keepsLeaves_settle (getPane_eq_some hget).1 (keeps_closePane se pane w)

theorem keepsLeaves_removePane (s : Registry) (pane : PaneId) :
    s.KeepsLeaves (s.removePane pane) := by
  unfold removePane
  split
  · exact .refl s
  · rename_i sid se w hget
    exact keepsLeaves_settle (getPane_eq_some hget).1
      ⟨fun p v hp => (SessionState.lookup_removePane.mp hp).2,fun v win hwin => ⟨win,hwin⟩,
        fun _ _ _ hleaf => hleaf⟩

theorem keepsLeaves_foldl (panes : List PaneId) (s : Registry) :
    s.KeepsLeaves (panes.foldl closePane s) := by
  induction panes generalizing s with
  | nil => exact .refl s
  | cons p panes ih => exact (keepsLeaves_closePane s p).trans (ih _)

/-- A pane is registered in one session, so that once closed it is in none. -/
theorem closed_closePane (hi : s.Inv) (hse : (s.closePane p).sessions.lookup sid = some se) :
    se.panes.lookup p = none := by
  rw [Option.eq_none_iff_forall_ne_some]
  intro w hw
  obtain ⟨se₀,hse₀,hk⟩ := keepsLeaves_closePane s p sid se hse
  have hold := hk.panes p w hw
  obtain ⟨⟨sid',se',w'⟩,hget⟩ := Option.isSome_iff_exists.mp (isSome_getPane ⟨se₀,hse₀,hold⟩)
  obtain ⟨hse',hw'⟩ := getPane_eq_some hget
  obtain rfl := hi.pane_home sid sid' p w w' ⟨se₀,hse₀,hold⟩ ⟨se',hse',hw'⟩
  have hclose : s.closePane p = s.settle sid (se'.closePane p w') := by simp [closePane,hget]
  rw [hclose] at hse
  rcases lookup_settle.mp hse with ⟨-,rfl,-⟩ | ⟨hne,-⟩
  · exact (SessionState.lookup_closePane.mp hw).1 rfl
  · exact hne rfl

theorem closed_foldl {panes : List PaneId} (hi : s.Inv) (hp : p ∈ panes)
    (hse : (panes.foldl closePane s).sessions.lookup sid = some se) :
    se.panes.lookup p = none := by
  induction panes generalizing s with
  | nil => cases hp
  | cons q panes ih =>
    rw [List.foldl_cons] at hse
    rcases List.mem_cons.mp hp with rfl | hp
    · rw [Option.eq_none_iff_forall_ne_some]
      intro w hw
      obtain ⟨se₁,hse₁,hk⟩ := keepsLeaves_foldl panes (s.closePane p) sid se hse
      exact absurd ((closed_closePane hi hse₁).symm.trans (hk.panes p w hw)) (by simp)
    · exact ih (inv_closePane hi q) hp hse

/-- The window goes, and with it what is shown of it. -/
theorem leaf_removeWindow {v : WindowId} (hne : v ≠ w) (h : se.Leaf v p) :
    (se.removeWindow w).Leaf v p := by
  obtain ⟨tree,ht,hleaf⟩ := h
  obtain ⟨win,hwin,hl⟩ := Option.bind_eq_some_iff.mp ht
  have hfound : (se.removeWindow w).findWindow v = some win :=
    SessionState.findWindow_removeWindow.mpr ⟨hne,hwin⟩
  refine ⟨tree,?_,hleaf⟩
  rw [SessionState.layoutOf,hfound]
  exact hl

theorem placed_closeWindow (unkilled : List PaneId) (hp : s.Placed p) :
    (s.closeWindow w unkilled).Placed p := by
  unfold closeWindow
  split
  · exact hp
  · rename_i sid se hfind
    have hplaced := (keepsLeaves_foldl ((se.panesIn w).filter fun pane => pane ∉ unkilled) s).placed
      hp
    simp only
    split
    · exact hplaced
    · rename_i se' hse'
      split
      · exact (keepsLeaves_dropSession _ sid).placed hplaced
      · intro sid' se₁ v win h₁ hv hwin
        rcases lookup_update.mp h₁ with ⟨rfl,rfl⟩ | ⟨-,hold⟩
        · obtain ⟨hne,hwin'⟩ := SessionState.findWindow_removeWindow.mp hwin
          exact leaf_removeWindow hne (hplaced _ se' v win hse' hv hwin')
        · exact hplaced sid' se₁ v win hold hv hwin

/-- With the window all its panes go but those that cannot be killed. -/
theorem leafed_closeWindow (hi : s.Inv) {unkilled : List PaneId} (hp : s.Leafed p)
    (hkilled : p ∉ unkilled) : (s.closeWindow w unkilled).Leafed p := by
  unfold closeWindow
  split
  · exact hp
  · rename_i sid se hfind
    have hse : s.sessions.lookup sid = some se :=
      Table.lookup_eq_some.mpr (List.mem_of_find?_eq_some hfind)
    set killed := (se.panesIn w).filter fun pane => pane ∉ unkilled with hk
    have hkeeps := keepsLeaves_foldl killed s
    have hleafed := hkeeps.leafed hp
    simp only
    split
    · exact hleafed
    · rename_i se' hse'
      split
      · exact (keepsLeaves_dropSession _ sid).leafed hleafed
      · intro sid' se₁ v h₁ hv
        rcases lookup_update.mp h₁ with ⟨rfl,rfl⟩ | ⟨-,hold⟩
        · have hv' : se'.panes.lookup p = some v := hv
          refine leaf_removeWindow ?_ (hleafed _ se' v hse' hv')
          -- a pane of the window has been closed
          rintro rfl
          obtain ⟨se₀,hse₀,hpanes⟩ := hkeeps _ se' hse'
          obtain rfl := Option.some.inj (hse.symm.trans hse₀)
          have hmem : p ∈ killed := List.mem_filter.mpr
            ⟨SessionState.mem_panesIn.mpr (hpanes.panes p v hv'),decide_eq_true hkilled⟩
          rw [closed_foldl hi hmem hse'] at hv'
          cases hv'
        · exact hleafed sid' se₁ v hold hv

/-- The pane is the first of its window; of the other windows nothing changes. -/
theorem leaf_openPane_first {win : WindowState} (hwin : se.findWindow w = some win)
    (hnone : se.layoutOf w = none) {v : WindowId}
    (hp : (se.openPane w pane).panes.lookup p = some v)
    (hold : p ≠ pane → se.Leaf v p) : (se.openPane w pane).Leaf v p := by
  rcases SessionState.lookup_openPane.mp hp with ⟨rfl,rfl⟩ | ⟨hne,-⟩
  · refine ⟨.leaf p,?_,by simp [LayoutNode.allLeaves]⟩
    rw [SessionState.layoutOf_openPane hwin,if_pos rfl,hnone,Option.getD_none]
  · obtain ⟨tree,ht,hleaf⟩ := hold hne
    have hv : v ≠ w := by
      rintro rfl
      rw [hnone] at ht
      cases ht
    exact ⟨tree,by rwa [SessionState.layoutOf_openPane hwin,if_neg hv],hleaf⟩

theorem leaf_split {win : WindowState} (hwin : se.findWindow w = some win) {parent : PaneId}
    (hparent : se.Leaf w parent) (orient : Orient) {v : WindowId}
    (hp : ((se.openPane w pane).placeSplit w parent pane orient).panes.lookup p = some v)
    (hold : p ≠ pane → se.Leaf v p) :
    ((se.openPane w pane).placeSplit w parent pane orient).Leaf v p := by
  obtain ⟨tree,ht,hmem⟩ := hparent
  have hl : (se.openPane w pane).layoutOf w = some tree := by
    rw [SessionState.layoutOf_openPane hwin,if_pos rfl,ht,Option.getD_some]
  have hleaves : ∀ q, q ∈ (tree.splitFocused parent pane orient).allLeaves ↔
      q = pane ∨ q ∈ tree.allLeaves :=
    fun q => (LayoutNode.leaves_splitFocused hmem).mem_iff.trans List.mem_cons
  rcases SessionState.lookup_openPane.mp hp with ⟨rfl,rfl⟩ | ⟨hne,-⟩
  · refine ⟨_,?_,(hleaves p).mpr (Or.inl rfl)⟩
    rw [SessionState.layoutOf_placeSplit _ hl,if_pos rfl]
  · obtain ⟨tree',ht',hleaf⟩ := hold hne
    by_cases hv : v = w
    · subst hv
      obtain rfl := Option.some.inj (ht.symm.trans ht')
      refine ⟨_,?_,(hleaves p).mpr (Or.inr hleaf)⟩
      rw [SessionState.layoutOf_placeSplit _ hl,if_pos rfl]
    · refine ⟨tree',?_,hleaf⟩
      rw [SessionState.layoutOf_placeSplit _ hl,if_neg hv,SessionState.layoutOf_openPane hwin,
        if_neg hv]
      exact ht'

end Registry

namespace LocalDaemon

open Registry

variable {d e : LocalDaemon} {a : LocalCall}

/-- `exited`: none of them will be drawn again. -/
structure Inv (d : LocalDaemon) : Prop where
  registry : d.registry.Inv
  exited : d.exited ⊆ d.registry.drawnPanes

theorem inv_empty : empty.Inv := ⟨Registry.inv_empty,List.nil_subset _⟩

theorem step_inv (d : LocalDaemon) (a : LocalCall) (e : LocalDaemon) (h : d.Inv)
    (hstep : d.step a = some e) : e.Inv := by
  cases a with
  | request a =>
    simp only [step,Option.ite_none_right_eq_some,Option.map_eq_some_iff] at hstep
    obtain ⟨-,t,ht,rfl⟩ := hstep
    exact ⟨Registry.step_inv d.registry a t h.registry ht,
      fun p hp => (Registry.drawn_step ht).1 (h.exited hp)⟩
  | childExit pane =>
    simp only [step,Option.ite_none_right_eq_some,Option.some.injEq] at hstep
    obtain ⟨hsome,rfl⟩ := hstep
    obtain ⟨⟨sid,se,w⟩,hget⟩ := Option.isSome_iff_exists.mp hsome
    obtain ⟨hse,hw⟩ := getPane_eq_some hget
    exact ⟨h.registry,
      List.cons_subset.mpr ⟨(h.registry.ok sid se hse).panes_drawn pane w hw,h.exited⟩⟩

/-- Each pane is a leaf of its window: if its child runs, else if there is that window. -/
structure Leaved (d : LocalDaemon) : Prop where
  placed : ∀ p, d.registry.Placed p
  leafed : ∀ p, p ∉ d.exited → d.registry.Leafed p

theorem leaved_empty : empty.Leaved := by
  refine ⟨fun p sid se w win h => ?_,fun p _ sid se w h => ?_⟩ <;> cases h

theorem Leaved.keeps (h : d.Leaved) {t : Registry} (hk : d.registry.KeepsLeaves t) :
    Leaved { d with registry := t } :=
  ⟨fun p => hk.placed (h.placed p),fun p hp => hk.leafed (h.leafed p hp)⟩

/-- A session is changed where every pane it has is a leaf of its window if it was. -/
theorem Leaved.update (h : d.Leaved) {sid : SessionId} {se se' : SessionState}
    {pane : PaneId} {t : Registry} (hse : d.registry.sessions.lookup sid = some se)
    (ht : t.sessions = (d.registry.update sid se').sessions)
    (hpanes : ∀ p w, se'.panes.lookup p = some w → p ≠ pane → se.panes.lookup p = some w)
    (hwindows : ∀ w win, se'.findWindow w = some win → ∃ win', se.findWindow w = some win')
    (hleaf : ∀ p w, se'.panes.lookup p = some w → (p ≠ pane → se.Leaf w p) → se'.Leaf w p) :
    Leaved { d with registry := t } := by
  have hsessions : ∀ {sid' se₁}, t.sessions.lookup sid' = some se₁ →
      (d.registry.update sid se').sessions.lookup sid' = some se₁ := fun ht' => ht ▸ ht'
  constructor
  · intro p sid' se₁ w win h₁ hw hwin
    rcases lookup_update.mp (hsessions h₁) with ⟨rfl,rfl⟩ | ⟨-,hold⟩
    · refine hleaf p w hw fun hne => ?_
      obtain ⟨win',hwin'⟩ := hwindows w win hwin
      exact h.placed p _ se w win' hse (hpanes p w hw hne) hwin'
    · exact h.placed p sid' se₁ w win hold hw hwin
  · intro p hp sid' se₁ w h₁ hw
    rcases lookup_update.mp (hsessions h₁) with ⟨rfl,rfl⟩ | ⟨-,hold⟩
    · exact hleaf p w hw fun hne => h.leafed p hp _ se w hse (hpanes p w hw hne)
    · exact h.leafed p hp sid' se₁ w hold hw

theorem step_leaved (hi : d.Inv) (h : d.Leaved) (hopens : d.Opens a)
    (hstep : d.step a = some e) : e.Leaved := by
  cases a with
  | childExit pane =>
    simp only [step,Option.ite_none_right_eq_some,Option.some.injEq] at hstep
    obtain ⟨-,rfl⟩ := hstep
    exact ⟨h.placed,fun p hp => h.leafed p fun hmem => hp (List.mem_cons_of_mem _ hmem)⟩
  | request a =>
    simp only [step,Option.ite_none_right_eq_some,Option.map_eq_some_iff] at hstep
    obtain ⟨hadmits,t,ht,rfl⟩ := hstep
    cases a with
    | newSession sid w =>
      simp only [Registry.step,Option.ite_none_right_eq_some,Option.some.injEq] at ht
      obtain ⟨-,rfl⟩ := ht
      constructor
      · intro p sid' se v win hse hv
        rcases lookup_update.mp hse with ⟨rfl,rfl⟩ | ⟨-,hold⟩
        · cases hv
        · exact h.placed p sid' se v win hold hv
      · intro p hp sid' se v hse hv
        rcases lookup_update.mp hse with ⟨rfl,rfl⟩ | ⟨-,hold⟩
        · cases hv
        · exact h.leafed p hp sid' se v hold hv
    | newWindow sid w =>
      obtain ⟨se,hse,hw,rfl⟩ := of_newWindow ht
      have hleaf : ∀ {v p}, se.Leaf v p → (se.addWindow w).Leaf v p := by
        rintro v p ⟨tree,ht,hp⟩
        exact ⟨tree,by rwa [SessionState.layoutOf_addWindow],hp⟩
      constructor
      · intro p sid' se' v win hse' hv hwin
        rcases lookup_update.mp hse' with ⟨rfl,rfl⟩ | ⟨-,hold⟩
        · have hv' : se.panes.lookup p = some v := hv
          rw [SessionState.findWindow_addWindow,Option.or_eq_some_iff] at hwin
          rcases hwin with hwin | ⟨-,hwin⟩
          · exact hleaf (h.placed p _ se v win hse hv' hwin)
          · -- no pane is in the new window
            rw [Option.ite_none_right_eq_some] at hwin
            obtain ⟨rfl,-⟩ := hwin
            exact absurd ((hi.registry.ok _ se hse).windows_drawn w (Or.inr ⟨p,hv'⟩)) hw
        · exact h.placed p sid' se' v win hold hv hwin
      · intro p hp sid' se' v hse' hv
        rcases lookup_update.mp hse' with ⟨rfl,rfl⟩ | ⟨-,hold⟩
        · exact hleaf (h.leafed p hp _ se v hse hv)
        · exact h.leafed p hp sid' se' v hold hv
    | openPane sid w pane =>
      obtain ⟨se,hse,win,htarget,hpane,rfl⟩ := of_openPane ht
      obtain ⟨win',hwin⟩ := SessionState.findWindow_target htarget
      have hnone := hopens se win hse htarget hpane
      refine h.update hse rfl (fun p v hp hne => ?_) (fun v win₁ hwin₁ => ?_)
        fun p v hp hold => leaf_openPane_first hwin hnone hp hold
      · exact ((SessionState.lookup_openPane.mp hp).resolve_left fun heq => hne heq.1).2
      · rw [SessionState.openPane,SessionState.findWindow_modifyLayout] at hwin₁
        obtain ⟨win₀,hwin₀,-⟩ := Option.map_eq_some_iff.mp hwin₁
        exact ⟨win₀,hwin₀⟩
    | openPaneSplit parent orient pane =>
      obtain ⟨sid,se,w,hget,win,hwin,hpane,rfl⟩ := of_openPaneSplit ht
      obtain ⟨hse,hparent⟩ := getPane_eq_some hget
      rw [SessionState.id_of_findWindow hwin]
      have hleaf := h.placed parent sid se w win hse hparent hwin
      refine h.update hse (by rw [update_openPane]) (fun p v hp hne => ?_) (fun v win₁ hwin₁ => ?_)
        fun p v hp hold => leaf_split hwin hleaf orient hp hold
      · exact ((SessionState.lookup_openPane.mp hp).resolve_left fun heq => hne heq.1).2
      · rw [SessionState.placeSplit,SessionState.findWindow_modifyLayout] at hwin₁
        obtain ⟨win₀,hwin₀,-⟩ := Option.map_eq_some_iff.mp hwin₁
        rw [SessionState.openPane,SessionState.findWindow_modifyLayout] at hwin₀
        obtain ⟨win₂,hwin₂,-⟩ := Option.map_eq_some_iff.mp hwin₀
        exact ⟨win₂,hwin₂⟩
    | closePane pane =>
      obtain rfl := Option.some.inj ht
      exact h.keeps (keepsLeaves_closePane d.registry pane)
    | removePane pane =>
      obtain rfl := Option.some.inj ht
      exact h.keeps (keepsLeaves_removePane d.registry pane)
    | closeWindow w unkilled =>
      obtain rfl := Option.some.inj ht
      exact ⟨fun p => placed_closeWindow unkilled (h.placed p),fun p hp =>
        leafed_closeWindow hi.registry (h.leafed p hp) fun hmem => hp (hadmits p hmem)⟩
    | killSession sid =>
      obtain rfl := Option.some.inj ht
      exact h.keeps (keepsLeaves_dropSession d.registry sid)

/-- What is shown of a window is its tree, if it has one. -/
theorem shown_iff (hi : d.Inv) {sid : SessionId} {se : SessionState}
    (hse : d.registry.sessions.lookup sid = some se) {v : WindowId} {p : PaneId} :
    ((∃ win, se.findWindow v = some win) ∧
      ∃ tree ∈ d.registry.windowLayouts v, p ∈ tree.allLeaves) ↔ se.Leaf v p := by
  constructor
  · rintro ⟨⟨win,hwin⟩,tree,htree,hp⟩
    rw [windowLayouts_eq hi.registry hse hwin,Option.mem_toList] at htree
    exact ⟨tree,htree,hp⟩
  · rintro ⟨tree,htree,hp⟩
    obtain ⟨win,hwin,-⟩ := Option.bind_eq_some_iff.mp htree
    refine ⟨⟨win,hwin⟩,tree,?_,hp⟩
    rw [windowLayouts_eq hi.registry hse hwin,Option.mem_toList]
    exact htree

theorem Leaved.eachShown (h : d.Leaved) (hi : d.Inv) : d.EachShown := by
  intro sid se hse p w hw hp
  have hleaf := h.leafed p hp sid se w hse hw
  refine ⟨w,(shown_iff hi hse).mpr hleaf,fun v hv => ?_⟩
  exact (hi.registry.ok sid se hse).disjoint v w p ((shown_iff hi hse).mp hv) hleaf

/-- A new pane that a window shows is the first of it. -/
theorem opens_of_eachShown (hi : d.Inv)
    (h : ∀ e, d.step a = some e → e.EachShown) : d.Opens a := by
  cases a with
  | childExit pane => trivial
  | request a =>
    cases a with
    | openPane sid w pane =>
      intro se win hse htarget hpane
      obtain ⟨win',hwin⟩ := SessionState.findWindow_target htarget
      have hstep : d.step (.request (.openPane sid w pane)) =
          some { d with registry := d.registry.openPane sid se win.id pane } := by
        have hadmits : d.Admits (.openPane sid w pane) := trivial
        simp only [step,if_pos hadmits,Registry.step,hse,htarget,Option.bind_some,if_pos hpane,
          Option.map_some]
      have hself : (d.registry.openPane sid se win.id pane).sessions.lookup sid =
          some (se.openPane win.id pane) := AList.lookup_insert _
      have hnew := step_inv d _ _ hi hstep
      obtain ⟨v,hv,-⟩ := h _ hstep sid _ hself pane win.id
        (SessionState.lookup_openPane.mpr (Or.inl ⟨rfl,rfl⟩)) fun hmem => hpane (hi.exited hmem)
      rcases SessionState.leaf_openPane hwin ((shown_iff hnew hself).mp hv) with hold | ⟨-,-,hnone⟩
      · exact absurd ((hi.registry.ok sid se hse).leaves_drawn v pane hold) hpane
      · exact hnone
    | newSession sid w => trivial
    | newWindow sid w => trivial
    | openPaneSplit parent orient pane => trivial
    | closePane pane => trivial
    | removePane pane => trivial
    | closeWindow w unkilled => trivial
    | killSession sid => trivial

theorem eachShown_iff (calls : List LocalCall) :
    Along step Opens empty calls ↔ Always step EachShown empty calls := by
  constructor
  · intro h
    have hall := h.invariant (I := fun d => d.Inv ∧ d.Leaved)
      (fun d a e hd hc he => ⟨step_inv d a e hd.1 he,step_leaved hd.1 hd.2 hc he⟩)
      ⟨inv_empty,leaved_empty⟩
    exact hall.mono fun d hd => hd.2.eachShown hd.1
  · intro h
    refine along_iff.mpr fun pre a hpre d hd => ?_
    have hi : d.Inv := (Always.of_invariant step_inv inv_empty pre).last hd
    exact opens_of_eachShown hi fun e he => h _ hpre e ((exec_snoc hd a).trans he)

/-- A second pane is opened in the window that the first is the tree of. -/
def openTwice : List LocalCall :=
  [.request (.newSession ⟨1⟩ ⟨1⟩),.request (.openPane ⟨1⟩ ⟨1⟩ ⟨1⟩),.request (.openPane ⟨1⟩ ⟨1⟩ ⟨2⟩)]

theorem not_eachShown_openTwice : ¬Always step EachShown empty openTwice := by
  intro hall
  have halong := along_iff.mp ((eachShown_iff openTwice).mpr hall) (openTwice.take 2)
    (.request (.openPane ⟨1⟩ ⟨1⟩ ⟨2⟩)) (List.prefix_refl _)
  obtain ⟨d,hd⟩ := Option.isSome_iff_exists.mp
    (show (exec step empty (openTwice.take 2)).isSome from by decide)
  have hwindow : (exec step empty (openTwice.take 2)).map (fun d =>
      (d.registry.sessions.lookup ⟨1⟩).map fun se =>
        ((se.target ⟨1⟩).map WindowState.id,(se.layoutOf ⟨1⟩).isSome)) =
      some (some (some ⟨1⟩,true)) := by decide
  have hdrawn : (exec step empty (openTwice.take 2)).map (fun d => d.registry.drawnPanes) =
      some [⟨1⟩] := by decide
  rw [hd,Option.map_some,Option.some.injEq] at hwindow hdrawn
  obtain ⟨se,hse,hfacts⟩ := Option.map_eq_some_iff.mp hwindow
  obtain ⟨htarget,hlayout⟩ := Prod.mk.inj hfacts
  obtain ⟨win,hwin,hid⟩ := Option.map_eq_some_iff.mp htarget
  have hnone := halong d hd se win hse hwin (by simp [hdrawn])
  rw [hid] at hnone
  rw [hnone] at hlayout
  cases hlayout

end LocalDaemon

end Pyre.Session
