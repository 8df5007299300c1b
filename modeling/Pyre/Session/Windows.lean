import Pyre.Session.Registry

/-!
The windows of one session: what each operation does to the leaves of their trees,
and which of them keep every leaf of a window a pane of it.
-/

set_option autoImplicit false

namespace Pyre.Session
open Base

namespace SessionState

def Leaf (se : SessionState) (w : WindowId) (p : PaneId) : Prop :=
  ∃ tree, se.layoutOf w = some tree ∧ p ∈ tree.allLeaves

/-- The leaves of the window, if it has a pane, are panes of it. -/
def LiveAt (se : SessionState) (w : WindowId) : Prop :=
  ∀ p, se.panes.lookup p = some w → ∀ q, se.Leaf w q → se.panes.lookup q = some w

/-- The window or a pane of it is in the session. -/
def Uses (se : SessionState) (w : WindowId) : Prop :=
  (∃ win, se.findWindow w = some win) ∨ ∃ p, se.panes.lookup p = some w

/-- What holds of a session in any run; `dp` and `dw` are the identifiers drawn. -/
structure Ok (dp : List PaneId) (dw : List WindowId) (se : SessionState) : Prop where
  panes_drawn : ∀ p w, se.panes.lookup p = some w → p ∈ dp
  leaves_drawn : ∀ w p, se.Leaf w p → p ∈ dp
  windows_drawn : ∀ w, se.Uses w → w ∈ dw
  proper : ∀ w tree, se.layoutOf w = some tree → tree.Proper
  has_layout : ∀ w win p, se.findWindow w = some win → se.panes.lookup p = some w →
    se.layoutOf w ≠ none
  disjoint : ∀ w w' p, se.Leaf w p → se.Leaf w' p → w = w'

variable {dp dp' : List PaneId} {dw dw' : List WindowId} {se : SessionState} {w : WindowId}
  {pane : PaneId}

theorem Ok.mono (h : se.Ok dp dw) (hp : dp ⊆ dp') (hw : dw ⊆ dw') : se.Ok dp' dw' where
  panes_drawn p w hl := hp (h.panes_drawn p w hl)
  leaves_drawn w p hl := hp (h.leaves_drawn w p hl)
  windows_drawn w hu := hw (h.windows_drawn w hu)
  proper := h.proper
  has_layout := h.has_layout
  disjoint := h.disjoint

theorem ok_new (w : WindowId) (hw : w ∈ dw) : Ok dp dw ⟨∅,[⟨w,none⟩]⟩ := by
  have hlayout : ∀ w', layoutOf ⟨∅,[⟨w,none⟩]⟩ w' = none := by
    intro w'
    by_cases h : w = w' <;> simp [layoutOf,findWindow,h]
  refine ⟨by simp,?_,?_,?_,?_,?_⟩
  · rintro w' p ⟨tree,ht,-⟩
    simp [hlayout] at ht
  · rintro w' (⟨win,hwin⟩ | ⟨p,hp⟩)
    · obtain rfl : w = w' := by
        by_contra hne
        simp [findWindow,hne] at hwin
      exact hw
    · simp at hp
  · intro w' tree ht
    simp [hlayout] at ht
  · intro w' win p _ hp
    simp at hp
  · rintro w' w'' p ⟨tree,ht,-⟩
    simp [hlayout] at ht

theorem ok_addWindow (h : se.Ok dp dw) (hw : w ∉ dw) : (se.addWindow w).Ok dp (w :: dw) := by
  have hleaf : ∀ w' p, (se.addWindow w).Leaf w' p ↔ se.Leaf w' p := by simp [Leaf]
  refine ⟨h.panes_drawn,?_,?_,?_,?_,?_⟩
  · intro w' p hp
    exact h.leaves_drawn w' p ((hleaf w' p).mp hp)
  · rintro w' (⟨win,hwin⟩ | hp)
    · rw [findWindow_addWindow,Option.or_eq_some_iff] at hwin
      rcases hwin with hwin | ⟨-,hwin⟩
      · exact List.mem_cons_of_mem _ (h.windows_drawn w' (Or.inl ⟨win,hwin⟩))
      · rw [Option.ite_none_right_eq_some] at hwin
        exact hwin.1 ▸ List.mem_cons_self
    · exact List.mem_cons_of_mem _ (h.windows_drawn w' (Or.inr hp))
  · intro w' tree ht
    rw [layoutOf_addWindow] at ht
    exact h.proper w' tree ht
  · intro w' win p hwin hp
    rw [layoutOf_addWindow]
    rw [findWindow_addWindow,Option.or_eq_some_iff] at hwin
    rcases hwin with hwin | ⟨-,hwin⟩
    · exact h.has_layout w' win p hwin hp
    · -- a fresh window has no pane yet
      rw [Option.ite_none_right_eq_some] at hwin
      exact absurd (h.windows_drawn w' (Or.inr ⟨p,hp⟩)) (hwin.1 ▸ hw)
  · intro w' w'' p hp hp'
    exact h.disjoint w' w'' p ((hleaf w' p).mp hp) ((hleaf w'' p).mp hp')

/-- A change that only takes away: panes, leaves and windows. -/
structure Shrinks (se se' : SessionState) : Prop where
  panes : ∀ p w, se'.panes.lookup p = some w → se.panes.lookup p = some w
  leaves : ∀ w p, se'.Leaf w p → se.Leaf w p
  windows : ∀ w win, se'.findWindow w = some win → ∃ win', se.findWindow w = some win'
  proper : ∀ w tree, se'.layoutOf w = some tree → tree.Proper
  layouts : ∀ w win, se'.findWindow w = some win → se.layoutOf w ≠ none → se'.layoutOf w ≠ none

theorem Shrinks.uses {se' : SessionState} (h : se.Shrinks se') (hu : se'.Uses w) : se.Uses w := by
  rcases hu with ⟨win,hwin⟩ | ⟨p,hp⟩
  · exact Or.inl (h.windows w win hwin)
  · exact Or.inr ⟨p,h.panes p w hp⟩

theorem Ok.shrink {se' : SessionState} (h : se.Ok dp dw) (hs : se.Shrinks se') :
    se'.Ok dp dw where
  panes_drawn p w hp := h.panes_drawn p w (hs.panes p w hp)
  leaves_drawn w p hp := h.leaves_drawn w p (hs.leaves w p hp)
  windows_drawn w hu := h.windows_drawn w (hs.uses hu)
  proper := hs.proper
  has_layout w win p hwin hp := by
    obtain ⟨win',hwin'⟩ := hs.windows w win hwin
    exact hs.layouts w win hwin (h.has_layout w win' p hwin' (hs.panes p w hp))
  disjoint w w' p hp hp' := h.disjoint w w' p (hs.leaves w p hp) (hs.leaves w' p hp')

theorem shrinks_removePane (h : se.Ok dp dw) (pane : PaneId) :
    se.Shrinks (se.removePane pane) where
  panes _ _ hp := (lookup_removePane.mp hp).2
  leaves _ _ hp := hp
  windows _ win hwin := ⟨win,hwin⟩
  proper := h.proper
  layouts _ _ _ hl := hl

theorem layoutOf_closePane (se : SessionState) (pane : PaneId) (w w' : WindowId) :
    (se.closePane pane w).layoutOf w' =
      if w' = w then (se.layoutOf w).map fun tree => (tree.close pane).1 else se.layoutOf w' := by
  by_cases h : w' = w
  · subst h
    rw [if_pos rfl,closePane,layoutOf_modifyLayout_self,layoutOf,Option.map_bind]
    rfl
  · rw [if_neg h,closePane,layoutOf_modifyLayout_ne _ h]
    rfl

theorem shrinks_closePane (h : se.Ok dp dw) (pane : PaneId) (w : WindowId) :
    se.Shrinks (se.closePane pane w) := by
  refine ⟨fun p w' hp => (lookup_closePane.mp hp).2,?_,?_,?_,?_⟩
  · rintro w' p ⟨tree,ht,hp⟩
    rw [layoutOf_closePane] at ht
    split at ht
    · rename_i heq
      obtain ⟨tree₀,ht₀,rfl⟩ := Option.map_eq_some_iff.mp ht
      exact ⟨tree₀,heq ▸ ht₀,LayoutNode.mem_leaves_close hp⟩
    · exact ⟨tree,ht,hp⟩
  · intro w' win hwin
    rw [closePane,findWindow_modifyLayout] at hwin
    obtain ⟨win₀,hwin₀,-⟩ := Option.map_eq_some_iff.mp hwin
    exact ⟨win₀,hwin₀⟩
  · intro w' tree ht
    rw [layoutOf_closePane] at ht
    split at ht
    · obtain ⟨tree₀,ht₀,rfl⟩ := Option.map_eq_some_iff.mp ht
      exact (h.proper w tree₀ ht₀).close pane
    · exact h.proper w' tree ht
  · intro w' win _ hl
    rw [layoutOf_closePane]
    split
    · rename_i heq
      simpa using heq ▸ hl
    · exact hl

theorem shrinks_removeWindow (h : se.Ok dp dw) (w : WindowId) :
    se.Shrinks (se.removeWindow w) := by
  have hlayout : ∀ w' tree, (se.removeWindow w).layoutOf w' = some tree →
      se.layoutOf w' = some tree := by
    intro w' tree ht
    obtain ⟨win,hwin,hl⟩ := Option.bind_eq_some_iff.mp ht
    rw [layoutOf,(findWindow_removeWindow.mp hwin).2]
    exact hl
  refine ⟨fun _ _ hp => hp,?_,?_,?_,?_⟩
  · rintro w' p ⟨tree,ht,hp⟩
    exact ⟨tree,hlayout w' tree ht,hp⟩
  · intro w' win hwin
    exact ⟨win,(findWindow_removeWindow.mp hwin).2⟩
  · intro w' tree ht
    exact h.proper w' tree (hlayout w' tree ht)
  · intro w' win hwin hl
    have hfound := (findWindow_removeWindow.mp hwin).2
    rw [layoutOf,hfound] at hl
    rwa [layoutOf,hwin]

theorem layoutOf_openPane {win : WindowState} (hwin : se.findWindow w = some win)
    (pane : PaneId) (w' : WindowId) :
    (se.openPane w pane).layoutOf w' =
      if w' = w then some ((se.layoutOf w).getD (.leaf pane)) else se.layoutOf w' := by
  by_cases h : w' = w
  · subst h
    rw [if_pos rfl,openPane,layoutOf_modifyLayout_self,layoutOf,hwin]
    exact congrArg (Option.bind · _) hwin
  · rw [if_neg h,openPane,layoutOf_modifyLayout_ne _ h]
    rfl

theorem leaf_openPane {win : WindowState} (hwin : se.findWindow w = some win) {w' : WindowId}
    {p : PaneId} (h : (se.openPane w pane).Leaf w' p) :
    se.Leaf w' p ∨ w' = w ∧ p = pane ∧ se.layoutOf w = none := by
  obtain ⟨tree,ht,hp⟩ := h
  rw [layoutOf_openPane hwin] at ht
  split at ht
  · rename_i heq
    subst heq
    cases hl : se.layoutOf w' with
    | none =>
      rw [hl,Option.getD_none,Option.some.injEq] at ht
      subst ht
      exact Or.inr ⟨rfl,by simpa [LayoutNode.allLeaves] using hp,rfl⟩
    | some tree₀ =>
      rw [hl,Option.getD_some,Option.some.injEq] at ht
      exact Or.inl ⟨tree₀,hl,ht ▸ hp⟩
  · exact Or.inl ⟨tree,ht,hp⟩

theorem ok_openPane (h : se.Ok dp dw) {win : WindowState} (hwin : se.findWindow w = some win)
    (hpane : pane ∉ dp) : (se.openPane w pane).Ok (pane :: dp) dw := by
  refine ⟨?_,?_,?_,?_,?_,?_⟩
  · intro p w' hp
    rcases lookup_openPane.mp hp with ⟨rfl,-⟩ | ⟨-,hp⟩
    · exact List.mem_cons_self
    · exact List.mem_cons_of_mem _ (h.panes_drawn p w' hp)
  · intro w' p hp
    rcases leaf_openPane hwin hp with hp | ⟨-,rfl,-⟩
    · exact List.mem_cons_of_mem _ (h.leaves_drawn w' p hp)
    · exact List.mem_cons_self
  · rintro w' (⟨win',hwin'⟩ | ⟨p,hp⟩)
    · rw [openPane,findWindow_modifyLayout] at hwin'
      obtain ⟨win₀,hwin₀,-⟩ := Option.map_eq_some_iff.mp hwin'
      exact h.windows_drawn w' (Or.inl ⟨win₀,hwin₀⟩)
    · rcases lookup_openPane.mp hp with ⟨-,rfl⟩ | ⟨-,hp⟩
      · exact h.windows_drawn w' (Or.inl ⟨win,hwin⟩)
      · exact h.windows_drawn w' (Or.inr ⟨p,hp⟩)
  · intro w' tree ht
    rw [layoutOf_openPane hwin] at ht
    split at ht
    · obtain rfl := Option.some.inj ht
      cases hl : se.layoutOf w with
      | none => exact LayoutNode.Proper.leaf pane
      | some tree₀ => exact h.proper w tree₀ hl
    · exact h.proper w' tree ht
  · intro w' win' p hwin' hp
    rw [layoutOf_openPane hwin]
    split
    · simp
    · rename_i hne
      rw [openPane,findWindow_modifyLayout] at hwin'
      obtain ⟨win₀,hwin₀,-⟩ := Option.map_eq_some_iff.mp hwin'
      rcases lookup_openPane.mp hp with ⟨-,rfl⟩ | ⟨-,hp⟩
      · exact absurd rfl hne
      · exact h.has_layout w' win₀ p hwin₀ hp
  · intro w₁ w₂ p hp₁ hp₂
    rcases leaf_openPane hwin hp₁ with hold₁ | ⟨rfl,rfl,-⟩
    · rcases leaf_openPane hwin hp₂ with hold₂ | ⟨-,rfl,-⟩
      · exact h.disjoint w₁ w₂ p hold₁ hold₂
      · exact absurd (h.leaves_drawn w₁ p hold₁) hpane
    · rcases leaf_openPane hwin hp₂ with hold₂ | ⟨rfl,-,-⟩
      · exact absurd (h.leaves_drawn w₂ p hold₂) hpane
      · rfl

theorem layoutOf_placeSplit (se : SessionState) {w : WindowId} {tree : LayoutNode}
    (hl : se.layoutOf w = some tree) (parent pane : PaneId) (orient : Orient) (w' : WindowId) :
    (se.placeSplit w parent pane orient).layoutOf w' =
      if w' = w then some (tree.splitFocused parent pane orient) else se.layoutOf w' := by
  by_cases h : w' = w
  · subst h
    obtain ⟨win,hwin,htree⟩ := Option.bind_eq_some_iff.mp hl
    rw [if_pos rfl,placeSplit,layoutOf_modifyLayout_self,hwin,Option.bind_some,htree,
      Option.getD_some]
  · rw [if_neg h,placeSplit,layoutOf_modifyLayout_ne _ h]

theorem leaf_placeSplit {tree : LayoutNode} (hl : se.layoutOf w = some tree) {parent : PaneId}
    {orient : Orient} {w' : WindowId} {p : PaneId}
    (h : (se.placeSplit w parent pane orient).Leaf w' p) : se.Leaf w' p ∨ w' = w ∧ p = pane := by
  obtain ⟨tree',ht,hp⟩ := h
  rw [layoutOf_placeSplit se hl] at ht
  split at ht
  · rename_i heq
    subst heq
    obtain rfl := Option.some.inj ht
    rcases LayoutNode.mem_leaves_splitFocused hp with hp | rfl
    · exact Or.inl ⟨tree,hl,hp⟩
    · exact Or.inr ⟨rfl,rfl⟩
  · exact Or.inl ⟨tree',ht,hp⟩

/-- The new pane is at most the leaf of its own window that its opening made. -/
theorem ok_placeSplit (h : se.Ok dp dw) {tree : LayoutNode} (hl : se.layoutOf w = some tree)
    {parent : PaneId} (orient : Orient) (hpane : pane ∈ dp)
    (hnew : ∀ w', se.Leaf w' pane → w' = w ∧ tree.allLeaves = [pane]) (hne : parent ≠ pane) :
    (se.placeSplit w parent pane orient).Ok dp dw := by
  refine ⟨h.panes_drawn,?_,?_,?_,?_,?_⟩
  · intro w' p hp
    rcases leaf_placeSplit hl hp with hp | ⟨-,rfl⟩
    · exact h.leaves_drawn w' p hp
    · exact hpane
  · rintro w' (⟨win',hwin'⟩ | hp)
    · rw [placeSplit,findWindow_modifyLayout] at hwin'
      obtain ⟨win₀,hwin₀,-⟩ := Option.map_eq_some_iff.mp hwin'
      exact h.windows_drawn w' (Or.inl ⟨win₀,hwin₀⟩)
    · exact h.windows_drawn w' (Or.inr hp)
  · intro w' tree' ht
    rw [layoutOf_placeSplit se hl] at ht
    split at ht
    · obtain rfl := Option.some.inj ht
      by_cases hmem : pane ∈ tree.allLeaves
      · obtain ⟨-,hone⟩ := hnew w ⟨tree,hl,hmem⟩
        rw [LayoutNode.splitFocused_of_notMem (by rw [hone]; simpa using hne)]
        exact h.proper w tree hl
      · exact (h.proper w tree hl).splitFocused hmem orient
    · exact h.proper w' tree' ht
  · intro w' win' p hwin' hp
    rw [layoutOf_placeSplit se hl]
    split
    · simp
    · rw [placeSplit,findWindow_modifyLayout] at hwin'
      obtain ⟨win₀,hwin₀,-⟩ := Option.map_eq_some_iff.mp hwin'
      exact h.has_layout w' win₀ p hwin₀ hp
  · intro w₁ w₂ p hp₁ hp₂
    rcases leaf_placeSplit hl hp₁ with hold₁ | ⟨rfl,rfl⟩
    · rcases leaf_placeSplit hl hp₂ with hold₂ | ⟨rfl,rfl⟩
      · exact h.disjoint w₁ w₂ p hold₁ hold₂
      · exact (hnew w₁ hold₁).1
    · rcases leaf_placeSplit hl hp₂ with hold₂ | ⟨rfl,-⟩
      · exact (hnew w₂ hold₂).1.symm
      · rfl

/-- What `open_pane_split` does to the session, from the opening on. -/
theorem ok_split (h : se.Ok dp dw) {win : WindowState} (hwin : se.findWindow w = some win)
    {parent : PaneId} (hparent : parent ∈ dp) (hpane : pane ∉ dp) (orient : Orient) :
    ((se.openPane w pane).placeSplit w parent pane orient).Ok (pane :: dp) dw := by
  have hok := ok_openPane h hwin hpane
  have hl : (se.openPane w pane).layoutOf w = some ((se.layoutOf w).getD (.leaf pane)) := by
    rw [layoutOf_openPane hwin,if_pos rfl]
  refine ok_placeSplit hok hl orient List.mem_cons_self ?_ (fun heq => hpane (heq ▸ hparent))
  intro w' hleaf
  rcases leaf_openPane hwin hleaf with hold | ⟨rfl,-,hnone⟩
  · exact absurd (h.leaves_drawn w' pane hold) hpane
  · exact ⟨rfl,by rw [hnone]; rfl⟩

/-! Which operations keep the leaves of a window alive. -/

theorem LiveAt.shrink {se' : SessionState} (h : se.LiveAt w) (hs : se.Shrinks se')
    (hkeep : ∀ p, se.panes.lookup p = some w → se'.panes.lookup p = some w) : se'.LiveAt w := by
  intro p hp q hq
  exact hkeep q (h p (hs.panes p w hp) q (hs.leaves w q hq))

/-- Removed without the tree: only a pane that is no leaf, or the window's last. -/
theorem liveAt_removePane (h : se.LiveAt w) (hpane : se.panes.lookup pane = some w) :
    (se.removePane pane).LiveAt w ↔
      ¬se.Leaf w pane ∨ ∀ p, se.panes.lookup p = some w → p = pane := by
  constructor
  · intro hlive
    by_contra hc
    push Not at hc
    obtain ⟨hleaf,p,hp,hne⟩ := hc
    have hgone := hlive p (lookup_removePane.mpr ⟨hne,hp⟩) pane hleaf
    exact (lookup_removePane.mp hgone).1 rfl
  · rintro (hleaf | honly) p hp q hq
    · obtain ⟨-,hp⟩ := lookup_removePane.mp hp
      refine lookup_removePane.mpr ⟨?_,h p hp q hq⟩
      rintro rfl
      exact hleaf hq
    · obtain ⟨hne,hp⟩ := lookup_removePane.mp hp
      exact absurd (honly p hp) hne

/-- Closed with the tree: any pane but the only leaf, or the window's last pane. -/
theorem liveAt_closePane (h : se.LiveAt w) (hpane : se.panes.lookup pane = some w) :
    (se.closePane pane w).LiveAt w ↔
      (∀ tree, se.layoutOf w = some tree → tree.allLeaves ≠ [pane]) ∨
        ∀ p, se.panes.lookup p = some w → p = pane := by
  constructor
  · intro hlive
    by_contra hc
    push Not at hc
    obtain ⟨⟨tree,ht,hone⟩,p,hp,hne⟩ := hc
    have hleaf : (se.closePane pane w).Leaf w pane := by
      refine ⟨(tree.close pane).1,?_,?_⟩
      · rw [layoutOf_closePane,if_pos rfl,ht,Option.map_some]
      · rw [LayoutNode.leaves_close,hone]
        simp
    have hgone := hlive p (lookup_closePane.mpr ⟨hne,hp⟩) pane hleaf
    exact (lookup_closePane.mp hgone).1 rfl
  · rintro (htree | honly) p hp q ⟨tree',ht,hq⟩
    · obtain ⟨-,hp⟩ := lookup_closePane.mp hp
      rw [layoutOf_closePane,if_pos rfl] at ht
      obtain ⟨tree,ht₀,rfl⟩ := Option.map_eq_some_iff.mp ht
      refine lookup_closePane.mpr ⟨?_,h p hp q ⟨tree,ht₀,LayoutNode.mem_leaves_close hq⟩⟩
      rintro rfl
      -- a closed pane is left in the tree as its only leaf
      rw [LayoutNode.leaves_close] at hq
      split at hq
      · rename_i hlen
        obtain ⟨r,hr⟩ := List.length_eq_one_iff.mp hlen
        rw [hr,List.mem_singleton] at hq
        exact htree tree ht₀ (hq ▸ hr)
      · simp at hq
    · obtain ⟨hne,hp⟩ := lookup_closePane.mp hp
      exact absurd (honly p hp) hne

/-- Opened into a window whose tree is kept: only where it has a pane already. -/
theorem liveAt_openPane (hok : se.Ok dp dw) {win : WindowState}
    (hwin : se.findWindow w = some win) (hpane : pane ∉ dp) (h : se.LiveAt w) :
    (se.openPane w pane).LiveAt w ↔
      se.layoutOf w = none ∨ ∃ p, se.panes.lookup p = some w := by
  constructor
  · intro hlive
    by_contra hc
    push Not at hc
    obtain ⟨hl,hno⟩ := hc
    obtain ⟨tree,ht⟩ := Option.ne_none_iff_exists'.mp hl
    obtain ⟨q,hq⟩ := List.exists_mem_of_ne_nil _ (hok.proper w tree ht).ne_nil
    have hleaf : (se.openPane w pane).Leaf w q := by
      refine ⟨tree,?_,hq⟩
      rw [layoutOf_openPane hwin,if_pos rfl,ht,Option.getD_some]
    have hlook := hlive pane (lookup_openPane.mpr (Or.inl ⟨rfl,rfl⟩)) q hleaf
    rcases lookup_openPane.mp hlook with ⟨rfl,-⟩ | ⟨-,hlook⟩
    · exact hpane (hok.leaves_drawn w q ⟨tree,ht,hq⟩)
    · exact hno q hlook
  · intro hc p _ q hq
    by_cases hqp : q = pane
    · exact lookup_openPane.mpr (Or.inl ⟨hqp,rfl⟩)
    · refine lookup_openPane.mpr (Or.inr ⟨hqp,?_⟩)
      rcases leaf_openPane hwin hq with hold | ⟨-,rfl,-⟩
      · rcases hc with hnone | ⟨p₀,hp₀⟩
        · obtain ⟨tree,ht,-⟩ := hold
          rw [hnone] at ht
          cases ht
        · exact h p₀ hp₀ q hold
      · exact absurd rfl hqp

theorem liveAt_placeSplit {tree : LayoutNode} (hl : se.layoutOf w = some tree) {parent : PaneId}
    (orient : Orient) (hpane : se.panes.lookup pane = some w) (h : se.LiveAt w) :
    (se.placeSplit w parent pane orient).LiveAt w := by
  intro p hp q hq
  rcases leaf_placeSplit hl hq with hq | ⟨-,rfl⟩
  · exact h p hp q hq
  · exact hpane

end SessionState

end Pyre.Session
