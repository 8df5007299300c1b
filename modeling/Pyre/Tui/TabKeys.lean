import Pyre.Tui.Indices
import Pyre.Tui.Turns

/-!
What events, keys and clicks do to the sessions of the client: its slots keep their numbers, and
the indices of what is shown stay in range where those that are clicked are.
-/

set_option autoImplicit false

namespace Pyre.Tui
open Base Search

namespace AppState

variable {s t u : AppState}

/-! ### Slots are never taken back -/

/-- A slot that is dropped keeps its number. -/
def KeepsSlots (s t : AppState) : Prop := s.slots.length ≤ t.slots.length

theorem KeepsSlots.refl (s : AppState) : s.KeepsSlots s := Nat.le_refl _

theorem KeepsSlots.trans (h : s.KeepsSlots t) (h' : t.KeepsSlots u) : s.KeepsSlots u :=
  Nat.le_trans h h'

theorem KeepsSlots.of_eq (h : t.slots = s.slots) : s.KeepsSlots t := by
  rw [KeepsSlots,h]

theorem keepsSlots_pushSlot (s : AppState) (pane : PaneId) : s.KeepsSlots (s.pushSlot pane) := by
  simp [KeepsSlots,pushSlot]

theorem keepsSlots_attach (s : AppState) (attached : PaneId → Bool) (pane : PaneId) :
    s.KeepsSlots (s.attach attached pane) := by
  unfold attach
  split
  · exact keepsSlots_pushSlot s pane
  · exact .refl s

theorem keepsSlots_foldl {α : Type} {f : AppState → α → AppState}
    (hf : ∀ (s : AppState) a, s.KeepsSlots (f s a)) (l : List α) (s : AppState) :
    s.KeepsSlots (l.foldl f s) := by
  induction l generalizing s with
  | nil => exact .refl s
  | cons a l ih => exact (hf s a).trans (ih _)

theorem keepsSlots_foldlM {α : Type} {f : AppState → α → Option AppState}
    (hf : ∀ (s : AppState) a t, f s a = some t → s.KeepsSlots t) (l : List α) {s : AppState}
    (h : l.foldlM f s = some t) : s.KeepsSlots t := by
  induction l generalizing s with
  | nil =>
    obtain rfl := Option.some.inj h
    exact .refl s
  | cons a l ih =>
    rw [List.foldlM_cons] at h
    obtain ⟨u,hu,h⟩ := Option.bind_eq_some_iff.mp h
    exact (hf s a u hu).trans (ih h)

theorem keepsSlots_removeTab {si ti : Nat} (h : s.removeTab si ti = some t) : s.KeepsSlots t := by
  obtain ⟨sv,-,h⟩ := Option.bind_eq_some_iff.mp h
  refine .of_eq ?_
  simp only at h
  split at h
  · split at h <;> cases h <;> rfl
  · obtain ⟨tab,-,rfl⟩ := Option.map_eq_some_iff.mp h
    rfl

theorem keepsSlots_closePaneInner {slot : Nat} (h : s.closePaneInner slot = some t) :
    s.KeepsSlots t := by
  cases hslot : s.slots[slot]?.join with
  | none =>
    rw [closePaneInner,hslot] at h
    cases h
    exact .refl s
  | some pane =>
    cases hloc : s.locatePane pane with
    | none =>
      rw [closePaneInner,hslot] at h
      simp only [hloc] at h
      cases h
      exact .refl s
    | some place =>
      obtain ⟨si,ti⟩ := place
      obtain ⟨tab,htab,-⟩ := tabAt_of_locatePane hloc
      have hdrop : s.KeepsSlots (s.dropSlot slot) := by simp [KeepsSlots,dropSlot]
      by_cases hempty : tab.EmptiedBy pane
      · rw [closePaneInner_emptied hslot hloc htab hempty] at h
        exact hdrop.trans (keepsSlots_removeTab h)
      · obtain ⟨focus,-,heq⟩ := closePaneInner_shrunk hslot hloc htab hempty
        rw [heq] at h
        cases h
        exact hdrop

theorem keepsSlots_splitActive {orient : Orient} {reply : Option PaneId}
    {attached : PaneId → Bool} (h : s.splitActive orient reply attached = some t) :
    s.KeepsSlots t := by
  obtain ⟨sv,-,h⟩ := Option.bind_eq_some_iff.mp h
  obtain ⟨tab,-,h⟩ := Option.bind_eq_some_iff.mp h
  simp only at h
  split at h
  · cases h
    exact .of_eq rfl
  · split at h
    · cases h
      exact keepsSlots_pushSlot s _
    · cases h
      exact .of_eq rfl

theorem keepsSlots_openNewTab {window : Option WindowId} {pane : Option PaneId}
    {attached : PaneId → Bool} (h : s.openNewTab window pane attached = some t) :
    s.KeepsSlots t := by
  obtain ⟨sv,-,h⟩ := Option.bind_eq_some_iff.mp h
  split at h
  · split at h
    · cases h
      exact keepsSlots_pushSlot s _
    · cases h
      exact .refl s
  · cases h
    exact .refl s

theorem keepsSlots_openNewSession (s : AppState) (reply : Option (SessionId × PaneId × WindowId))
    (attached : PaneId → Bool) : s.KeepsSlots (s.openNewSession reply attached) := by
  unfold openNewSession
  split
  · exact .refl s
  · simp only
    split
    · exact keepsSlots_pushSlot s _
    · exact .refl s

theorem keepsSlots_adopt (attached : PaneId → Bool) (known : List SessionId) (s : AppState)
    (info : SessionReply) : s.KeepsSlots (s.adopt attached known info) := by
  unfold adopt
  split
  · exact .refl s
  · split
    · split
      · exact keepsSlots_pushSlot s _
      · exact .refl s
    · exact .refl s

theorem keepsSlots_attachNew (attached : PaneId → Bool) (s : AppState) (pane : PaneId) :
    s.KeepsSlots (s.attachNew attached pane) := by
  unfold attachNew
  split
  · exact .refl s
  · exact keepsSlots_attach s attached pane

theorem keepsSlots_takeNewPanes {attached : PaneId → Bool} {si : Nat} {newPanes : List PaneInfo}
    {layout : Option LayoutNode} (h : s.takeNewPanes attached si newPanes layout = some t) :
    s.KeepsSlots t := by
  have hattached : s.KeepsSlots (newPanes.foldl (fun s p => s.attachNew attached p.id) s) :=
    keepsSlots_foldl (fun s p => keepsSlots_attachNew attached s p.id) newPanes s
  unfold takeNewPanes at h
  simp only at h
  split at h
  · obtain ⟨sv,-,h⟩ := Option.bind_eq_some_iff.mp h
    obtain ⟨tab,-,rfl⟩ := Option.map_eq_some_iff.mp h
    exact hattached
  · obtain rfl := Option.some.inj h
    refine hattached.trans (keepsSlots_foldl (fun s p => ?_) newPanes _)
    split <;> exact .of_eq rfl

theorem keepsSlots_dropSlots (s : AppState) (sv : SessionView) (listed : List PaneId) :
    s.KeepsSlots (s.dropSlots sv listed) := by
  have hset (idxs : List Nat) (slots : List (Option PaneId)) :
      (idxs.foldl (fun slots i => slots.set i none) slots).length = slots.length := by
    induction idxs generalizing slots with
    | nil => rfl
    | cons i idxs ih => rw [List.foldl_cons,ih,List.length_set]
  simp [KeepsSlots,dropSlots,hset]

theorem keepsSlots_paneSync {attached : PaneId → Bool} (s : AppState) (info : SessionReply)
    (t : AppState) (h : s.paneSync attached info = some t) : s.KeepsSlots t := by
  unfold paneSync at h
  split at h
  · cases h
    exact .refl s
  · obtain ⟨sv,-,h⟩ := Option.bind_eq_some_iff.mp h
    split at h
    · cases h
      exact .refl s
    · obtain ⟨u,hu,h⟩ := Option.bind_eq_some_iff.mp h
      obtain ⟨sv',-,rfl⟩ := Option.map_eq_some_iff.mp h
      have hdrop := keepsSlots_dropSlots u
      split at hu
      · cases hu
        exact hdrop _ _
      · exact (keepsSlots_takeNewPanes hu).trans (hdrop _ _)

theorem keepsSlots_detectLost (h : s.detectLost = some t) : s.KeepsSlots t := by
  obtain ⟨sv,-,h⟩ := Option.bind_eq_some_iff.mp h
  obtain ⟨tab,-,h⟩ := Option.bind_eq_some_iff.mp h
  refine .of_eq ?_
  split at h
  · split at h
    · cases h
      rfl
    · split at h
      · cases h
        rfl
      · obtain ⟨found,-,heq⟩ := Option.map_eq_some_iff.mp h
        cases found <;> cases heq <;> rfl
  · cases h
    rfl

theorem keepsSlots_focusSlot {slot : Nat} (h : s.focusSlot slot = some t) : s.KeepsSlots t := by
  unfold focusSlot at h
  split at h
  · cases h
    exact .refl s
  · obtain ⟨sv,-,h⟩ := Option.bind_eq_some_iff.mp h
    obtain ⟨tab,-,rfl⟩ := Option.map_eq_some_iff.mp h
    split
    · exact .of_eq rfl
    · exact .refl s

theorem keepsSlots_handle {e : TuiEvent} (h : s.handle e = some t) : s.KeepsSlots t := by
  cases e with
  | splitActive orient reply attached => exact keepsSlots_splitActive h
  | openNewTab window pane attached => exact keepsSlots_openNewTab h
  | openNewSession reply attached =>
    obtain rfl := Option.some.inj h
    exact keepsSlots_openNewSession s reply attached
  | closeSlots slots =>
    exact keepsSlots_foldlM (fun _ _ _ h => keepsSlots_closePaneInner h) slots h
  | syncSessions infos attached =>
    obtain ⟨u,hu,rfl⟩ := Option.map_eq_some_iff.mp h
    have hadopted := keepsSlots_foldl
      (keepsSlots_adopt attached (s.sessions.map SessionView.id)) infos s
    have hsynced := keepsSlots_foldlM keepsSlots_paneSync infos hu
    exact (hadopted.trans hsynced).trans (.of_eq rfl)
  | layoutResync fetch attached recentlySplit =>
    obtain ⟨sv,-,h⟩ := Option.bind_eq_some_iff.mp h
    obtain ⟨tab,-,rfl⟩ := Option.map_eq_some_iff.mp h
    split
    · exact .refl s
    · rename_i layout hfetch
      have hattached := keepsSlots_foldl (keepsSlots_attach · attached)
        (layout.allLeaves.filter fun p => (paneToSlotIdx s.slots p).isNone) s
      split
      · exact hattached
      · exact hattached
  | detectLost => exact keepsSlots_detectLost h
  | focusSlot slot => exact keepsSlots_focusSlot h

/-! ### What keys and clicks do to the sessions -/

variable {bare : Prop}

theorem Valid.activeTab (h : s.Valid bare) : ∃ sv ∈ s.sessions, ∃ tab ∈ sv.tabs,
    s.activeView = some sv ∧ sv.tabs[sv.activeTab]? = some tab ∧ s.activeTab = some tab ∧
      tab.Focused bare := by
  obtain ⟨sv,hsv,hview,tab,htab,hti⟩ := h.activeView
  refine ⟨sv,hsv,tab,htab,hview,hti,?_,(h.views sv hsv).focused tab htab⟩
  rw [AppState.activeTab,hview,Option.bind_some,hti]

theorem Valid.modifyActive (h : s.Valid bare) {f : Tab → Tab}
    (hf : ∀ tab, s.activeTab = some tab → tab.Focused bare → (f tab).Focused bare) :
    ∃ t, s.modifyActive f = some t ∧ t.Valid bare ∧ s.KeepsSlots t := by
  obtain ⟨sv,-,tab,-,hview,hti,htab,hfocus⟩ := h.activeTab
  rw [AppState.modifyActive,hview,Option.bind_some,hti]
  refine ⟨_,rfl,h.modifyTab _ _ fun tab' htab' => ?_,.of_eq rfl⟩
  have hat : s.tabAt s.activeSession sv.activeTab = some tab := by
    rw [tabAt,show s.sessions[s.activeSession]? = some sv from hview,Option.bind_some,hti]
  obtain rfl := Option.some.inj (hat.symm.trans htab')
  exact hf tab htab hfocus

theorem Valid.toggleZoom (h : s.Valid bare) :
    ∃ t, s.toggleZoom = some t ∧ t.Valid bare ∧ s.KeepsSlots t :=
  h.modifyActive fun _ _ hfocus => hfocus

theorem Valid.focusIn (h : s.Valid bare) {pane : PaneId}
    (hpane : ∀ tab, s.activeTab = some tab → pane ∈ tab.root.allLeaves) :
    ∃ t, s.modifyActive (fun tab => { tab with focusPane := pane }) = some t ∧ t.Valid bare ∧
      s.KeepsSlots t :=
  h.modifyActive fun tab htab _ => .inl (hpane tab htab)

theorem Valid.focusNext (h : s.Valid bare) (forward : Bool) :
    ∃ t, s.focusNext forward = some t ∧ t.Valid bare ∧ s.KeepsSlots t := by
  refine h.modifyActive fun tab _ hfocus => ?_
  simp only
  generalize hnext : (if forward then _ else _ : Nat) = next
  cases hlive : (tab.root.allLeaves.filter fun p => (paneToSlotIdx s.slots p).isSome)[next]? with
  | none => exact hfocus
  | some p => exact .inl (List.mem_of_mem_filter (List.mem_of_getElem? hlive))

theorem Valid.turnTab (h : s.Valid bare) (turn : Nat → Nat → Nat) :
    ∃ t, s.turnTab turn = some t ∧ t.Valid bare ∧ s.KeepsSlots t := by
  obtain ⟨sv,hsv,hview,-⟩ := h.activeView
  have hview' := h.views sv hsv
  have hpos : 0 < sv.tabs.length := Nat.lt_of_le_of_lt (Nat.zero_le _) hview'.active
  have hturned : ({ sv with
      activeTab := turn sv.activeTab sv.tabs.length % sv.tabs.length } : SessionView).Valid bare :=
    ⟨Nat.mod_lt _ hpos,hview'.focused⟩
  rw [AppState.turnTab,hview,Option.bind_some,if_neg hpos.ne']
  exact ⟨_,rfl,h.setView hturned _,.of_eq rfl⟩

theorem Valid.closeSlot (h : s.Valid bare) (slot : Nat) :
    ∃ t, s.closePaneInner slot = some t ∧ (t.sessions = [] ∨ t.Valid bare) ∧ s.KeepsSlots t := by
  obtain ⟨t,ht,hvalid⟩ := h.closePaneInner slot
  exact ⟨t,ht,hvalid,keepsSlots_closePaneInner ht⟩

theorem Valid.closeFocused (h : s.Valid bare) :
    ∃ t, s.closeFocused = some t ∧ (t.sessions = [] ∨ t.Valid bare) ∧ s.KeepsSlots t := by
  obtain ⟨sv,-,tab,-,-,-,htab,-⟩ := h.activeTab
  rw [AppState.closeFocused,htab,Option.bind_some]
  split
  · exact ⟨s,rfl,.inr h,.refl s⟩
  · exact h.closeSlot _

theorem mem_placesOf {pane : PaneId} {si ti : Nat} (h : (si,ti) ∈ s.placesOf pane) :
    ∃ sv tab, s.sessions[si]? = some sv ∧ sv.tabs[ti]? = some tab ∧ pane ∈ tab.root.allLeaves := by
  obtain ⟨⟨sv,i⟩,hsv,h⟩ := List.mem_flatMap.mp h
  obtain ⟨⟨tab,j⟩,htab,h⟩ := List.mem_flatMap.mp h
  obtain ⟨p,hp,heq⟩ := List.mem_map.mp h
  obtain ⟨rfl,rfl⟩ := Prod.mk.inj heq
  obtain ⟨hmem,hp⟩ := List.mem_filter.mp hp
  obtain rfl : p = pane := by simpa using hp
  exact ⟨sv,tab,List.mem_zipIdx_iff_getElem?.mp hsv,List.mem_zipIdx_iff_getElem?.mp htab,hmem⟩

theorem jumpTarget_mem {pane : PaneId} {si ti slot : Nat}
    (h : s.jumpTarget pane = some (si,ti,slot)) : (si,ti) ∈ s.placesOf pane := by
  obtain ⟨slot',-,h⟩ := Option.bind_eq_some_iff.mp h
  obtain ⟨⟨i,j⟩,hfound,heq⟩ := Option.map_eq_some_iff.mp h
  cases heq
  rcases Option.or_eq_some_iff.mp hfound with hfound | ⟨-,hlast⟩
  · exact List.mem_of_find?_eq_some hfound
  · exact List.mem_of_getLast? hlast

theorem Valid.jumpTo (h : s.Valid bare) {pane : PaneId} {si ti : Nat}
    (hplace : (si,ti) ∈ s.placesOf pane) : (s.jumpTo si ti pane).Valid bare := by
  obtain ⟨sv,tab,hsv,hti,hmem⟩ := mem_placesOf hplace
  refine ⟨?_,forall_mem_modify si h.views fun sv' hsv' => ?_⟩
  · simpa [AppState.jumpTo] using (List.getElem?_eq_some_iff.mp hsv).1
  · obtain rfl := Option.some.inj (hsv.symm.trans hsv')
    refine ⟨by simpa using (List.getElem?_eq_some_iff.mp hti).1,?_⟩
    refine forall_mem_modify ti (h.views sv (List.mem_of_getElem? hsv)).focused fun tab' htab' => ?_
    obtain rfl := Option.some.inj (hti.symm.trans htab')
    exact .inl hmem

theorem Valid.set_ne_nil (h : s.Valid bare) (si : Nat) (sv : SessionView) :
    s.sessions.set si sv ≠ [] := by
  intro hnil
  have hactive := h.active
  rw [← List.length_set (i := si) (a := sv),hnil] at hactive
  cases hactive

/-- A tab is shown that is there: neither more nor less is asked of it. -/
theorem Valid.showTab (h : s.Valid bare) (ti : Nat) :
    ∃ sv t, s.activeView = some sv ∧ s.showTab ti = some t ∧ s.KeepsSlots t ∧
      t.sessions ≠ [] ∧ (t.Valid bare ↔ ti < sv.tabs.length) := by
  obtain ⟨sv,hsv,hview,-⟩ := h.activeView
  have hshown (hlt : ti < sv.tabs.length) :
      ({ sv with activeTab := ti } : SessionView).Valid bare := ⟨hlt,(h.views sv hsv).focused⟩
  rw [AppState.showTab,hview,Option.map_some]
  refine ⟨sv,_,rfl,rfl,.of_eq rfl,h.set_ne_nil _ _,fun hvalid => ?_,
    fun hlt => h.setView (hshown hlt) _⟩
  exact (hvalid.views _ (List.mem_set h.active _)).active

theorem mem_tabReorder {tabs : List Tab} {source target : Nat} {tab : Tab}
    (h : tab ∈ tabReorder tabs source target) : tab ∈ tabs := by
  unfold tabReorder at h
  split at h
  · exact h
  · split at h
    · exact h
    · rename_i tab' htab'
      rcases List.eq_or_mem_of_mem_insertIdx h with rfl | h
      · exact List.mem_of_getElem? htab'
      · exact List.mem_of_mem_eraseIdx h

theorem length_tabReorder (tabs : List Tab) (source target : Nat) :
    (tabReorder tabs source target).length = tabs.length := by
  unfold tabReorder
  split
  · rfl
  · rename_i hout
    split
    · rfl
    · have hlen := List.length_eraseIdx_of_lt (l := tabs) (i := source) (by omega)
      rw [List.length_insertIdx_of_le_length (by omega),hlen]
      omega

theorem Valid.dragTab (h : s.Valid bare) (source ti : Nat) :
    ∃ sv t, s.activeView = some sv ∧ s.dragTab source ti = some t ∧ s.KeepsSlots t ∧
      t.sessions ≠ [] ∧ (t.Valid bare ↔ ti < sv.tabs.length) := by
  obtain ⟨sv,hsv,hview,-⟩ := h.activeView
  have hdragged (hlt : ti < sv.tabs.length) : ({ sv with
      tabs := tabReorder sv.tabs source ti, activeTab := ti } : SessionView).Valid bare :=
    ⟨(length_tabReorder sv.tabs source ti).symm ▸ hlt,
      fun tab htab => (h.views sv hsv).focused tab (mem_tabReorder htab)⟩
  rw [AppState.dragTab,hview,Option.map_some]
  refine ⟨sv,_,rfl,rfl,.of_eq rfl,h.set_ne_nil _ _,fun hvalid => ?_,
    fun hlt => h.setView (hdragged hlt) _⟩
  have hactive := (hvalid.views _ (List.mem_set h.active _)).active
  rwa [length_tabReorder] at hactive

theorem Valid.closeTab (h : s.Valid bare) (ti : Nat) :
    ∃ sv, s.activeView = some sv ∧ if ti < sv.tabs.length then
      ∃ t, s.closeTab ti = some t ∧ (t.sessions = [] ∨ t.Valid bare) ∧ s.KeepsSlots t
      else s.closeTab ti = none := by
  obtain ⟨sv,-,hview,-⟩ := h.activeView
  refine ⟨sv,hview,?_⟩
  rw [AppState.closeTab,hview,Option.bind_some]
  split
  · rename_i hlt
    rw [List.getElem?_eq_getElem hlt,Option.bind_some]
    split
    · exact ⟨s,rfl,.inr h,.refl s⟩
    · exact h.closeSlot _
  · rename_i hout
    rw [List.getElem?_eq_none (Nat.le_of_not_lt hout),Option.bind_none]

end AppState

end Pyre.Tui
