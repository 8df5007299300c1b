import Pyre.Tui.Closing
import Pyre.Tui.EventLoop

/-!
No index of the client goes out of bounds. What is shown is kept as indices and as the
focus of each tab; every event keeps them in range and the focus on a pane that is
there, as long as each layout that the daemon sends has one.
-/

set_option autoImplicit false

namespace Pyre.Tui
open Base

/-! `bare` is whether there may be trees without a pane. -/

def Tab.Focused (bare : Prop) (tab : Tab) : Prop :=
  tab.focusPane ∈ tab.root.allLeaves ∨ bare ∧ tab.root.allLeaves = []

structure SessionView.Valid (bare : Prop) (sv : SessionView) : Prop where
  active : sv.activeTab < sv.tabs.length
  focused : ∀ tab ∈ sv.tabs, tab.Focused bare

structure AppState.Valid (bare : Prop) (s : AppState) : Prop where
  active : s.activeSession < s.sessions.length
  views : ∀ sv ∈ s.sessions, sv.Valid bare

/-- Each layout in the replies has a pane. -/
def TuiEvent.HasPanes : TuiEvent → Prop
  | .syncSessions infos _ => ∀ info ∈ infos, ∀ l, info.layout = some l → l.allLeaves ≠ []
  | .layoutResync fetch _ _ => ∀ q l, fetch q = some l → l.allLeaves ≠ []
  | _ => True

/-- Either the loop is about to be left or every index is in range. -/
def EventLoop.InRange (bare : Prop) : EventLoop → Prop
  | .running s => s.sessions = [] ∨ s.Valid bare
  | .panicked => False

section lists

variable {α : Type}

theorem forall_mem_modify {P : α → Prop} {f : α → α} {l : List α} (i : Nat)
    (h : ∀ x ∈ l, P x) (hf : ∀ x, l[i]? = some x → P (f x)) : ∀ x ∈ l.modify i f, P x := by
  induction l generalizing i with
  | nil => simp
  | cons a l ih =>
    rw [List.forall_mem_cons] at h
    cases i with
    | zero => simpa using ⟨hf a rfl,h.2⟩
    | succ i => simpa using ⟨h.1,ih i h.2 hf⟩

theorem forall_mem_set {P : α → Prop} {l : List α} (i : Nat) {a : α}
    (h : ∀ x ∈ l, P x) (ha : P a) : ∀ x ∈ l.set i a, P x := by
  intro x hx
  rcases List.mem_or_eq_of_mem_set hx with hx | rfl
  · exact h x hx
  · exact ha

/-- A fold whose steps all succeed and keep `I` does so as a whole. -/
theorem foldlM_total {β : Type} {I : β → Prop} {f : β → α → Option β} (l : List α)
    (hf : ∀ s a, a ∈ l → I s → ∃ t, f s a = some t ∧ I t) {s : β} (hs : I s) :
    ∃ t, l.foldlM f s = some t ∧ I t := by
  induction l generalizing s with
  | nil => exact ⟨s,rfl,hs⟩
  | cons a l ih =>
    obtain ⟨u,hu,hIu⟩ := hf s a List.mem_cons_self hs
    rw [List.foldlM_cons,hu]
    exact ih (fun s b hb => hf s b (List.mem_cons_of_mem a hb)) hIu

theorem foldl_keeps {β : Type} {I : β → Prop} {f : β → α → β} (l : List α)
    (hf : ∀ s a, I s → I (f s a)) {s : β} (hs : I s) : I (l.foldl f s) := by
  induction l generalizing s with
  | nil => exact hs
  | cons a l ih => exact ih (hf s a hs)

theorem findM?_total (l : List α) {p : α → Option Bool} (hp : ∀ a ∈ l, ∃ b, p a = some b) :
    ∃ found, l.findM? p = some found ∧ ∀ a, found = some a → a ∈ l := by
  induction l with
  | nil => exact ⟨none,rfl,fun a ha => by cases ha⟩
  | cons a l ih =>
    obtain ⟨b,hb⟩ := hp a List.mem_cons_self
    obtain ⟨found,hfound,hmem⟩ := ih fun c hc => hp c (List.mem_cons_of_mem a hc)
    cases b with
    | true => exact ⟨some a,by simp [List.findM?,hb],fun c hc => by simp_all⟩
    | false =>
      refine ⟨found,by simp [List.findM?,hb,hfound],fun c hc => ?_⟩
      exact List.mem_cons_of_mem a (hmem c hc)

end lists

/-! What every event builds from. -/

variable {bare : Prop}

theorem Tab.focused_single (pane : PaneId) (w : WindowId) : (Tab.single pane w).Focused bare :=
  Or.inl (by simp [Tab.single,LayoutNode.allLeaves])

theorem Tab.focused_keepFocus {layout : LayoutNode} (h : bare ∨ layout.allLeaves ≠ [])
    (tab : Tab) : ({ tab with root := layout, focusPane := keepFocus tab.focusPane layout } :
      Tab).Focused bare := by
  cases hl : layout.allLeaves with
  | nil => exact Or.inr ⟨h.resolve_right fun hne => hne hl,hl⟩
  | cons p rest =>
    refine Or.inl ?_
    simp only [keepFocus,hl]
    split
    · assumption
    · simp

/-- The focus moves to the first pane, if there is one. -/
theorem Tab.Focused.first {tab : Tab} (h : tab.Focused bare) :
    ({ tab with focusPane := tab.root.allLeaves.head?.getD tab.focusPane } : Tab).Focused bare := by
  cases hl : tab.root.allLeaves with
  | nil => exact Or.inr ⟨(h.resolve_left (by simp [hl])).1,hl⟩
  | cons p rest => exact Or.inl (by simp [hl])

namespace SessionView

variable {sv : SessionView}

theorem valid_single (id : SessionId) (pane : PaneId) (w : WindowId) :
    (⟨id,[.single pane w],0⟩ : SessionView).Valid bare where
  active := by simp
  focused tab htab := by
    obtain rfl := List.mem_singleton.mp htab
    exact Tab.focused_single pane w

theorem Valid.pushTab (h : sv.Valid bare) (pane : PaneId) (w : WindowId) {active : Nat}
    (ha : active ≤ sv.tabs.length) :
    ({ sv with tabs := sv.tabs ++ [.single pane w], activeTab := active } : SessionView).Valid bare where
  active := by simp; omega
  focused tab htab := by
    rcases List.mem_append.mp htab with htab | htab
    · exact h.focused tab htab
    · obtain rfl := List.mem_singleton.mp htab
      exact Tab.focused_single pane w

theorem Valid.modifyTab (h : sv.Valid bare) (ti : Nat) {f : Tab → Tab}
    (hf : ∀ tab, sv.tabs[ti]? = some tab → (f tab).Focused bare) :
    ({ sv with tabs := sv.tabs.modify ti f } : SessionView).Valid bare where
  active := by simpa using h.active
  focused := forall_mem_modify ti h.focused hf

end SessionView

namespace AppState

variable {s t : AppState} {si ti : Nat} {sv : SessionView} {tab : Tab} {pane : PaneId}

theorem Valid.activeView (h : s.Valid bare) : ∃ sv ∈ s.sessions, s.activeView = some sv ∧
    ∃ tab ∈ sv.tabs, sv.tabs[sv.activeTab]? = some tab := by
  have hlt := h.active
  have hsv : s.sessions[s.activeSession] ∈ s.sessions := List.getElem_mem hlt
  have hactive := (h.views _ hsv).active
  exact ⟨_,hsv,List.getElem?_eq_getElem hlt,_,List.getElem_mem hactive,
    List.getElem?_eq_getElem hactive⟩

/-- Only slots differ. -/
theorem Valid.sameSessions (h : s.Valid bare) (hs : t.sessions = s.sessions)
    (ha : t.activeSession = s.activeSession) : t.Valid bare :=
  ⟨by rw [hs,ha]; exact h.active,by rw [hs]; exact h.views⟩

theorem Valid.modifyTab (h : s.Valid bare) (si ti : Nat) {f : Tab → Tab}
    (hf : ∀ tab, s.tabAt si ti = some tab → (f tab).Focused bare) :
    (s.modifyTab si ti f).Valid bare where
  active := by simpa [AppState.modifyTab] using h.active
  views := forall_mem_modify si h.views fun sv hsv =>
    (h.views sv (List.mem_of_getElem? hsv)).modifyTab ti fun tab htab =>
      hf tab (by rw [tabAt,hsv,Option.bind_some,htab])

theorem Valid.setView (h : s.Valid bare) (hsv : sv.Valid bare) (si : Nat) :
    ({ s with sessions := s.sessions.set si sv } : AppState).Valid bare where
  active := by simpa using h.active
  views := forall_mem_set si h.views hsv

theorem Valid.removeTab (h : s.Valid bare) (hsv : s.sessions[si]? = some sv) (ti : Nat) :
    ∃ t, s.removeTab si ti = some t ∧ (t.sessions = [] ∨ t.Valid bare) := by
  have hview := h.views sv (List.mem_of_getElem? hsv)
  simp only [AppState.removeTab,hsv,Option.bind_some]
  split
  · have hlt : si < s.sessions.length := (List.getElem?_eq_some_iff.mp hsv).1
    have hlen := List.length_eraseIdx_of_lt hlt
    split
    · rename_i hnil
      exact ⟨_,rfl,Or.inl hnil⟩
    · rename_i hsome
      have hpos := List.length_pos_iff.mpr hsome
      refine ⟨_,rfl,Or.inr ⟨by simp only; omega,fun sv hsv => ?_⟩⟩
      exact h.views sv (List.mem_of_mem_eraseIdx hsv)
  · rename_i hsome
    have hpos := List.length_pos_iff.mpr hsome
    have hactive : min ti ((sv.tabs.eraseIdx ti).length-1) < (sv.tabs.eraseIdx ti).length := by
      omega
    have hmem := List.getElem_mem hactive
    have hfocus := hview.focused _ (List.mem_of_mem_eraseIdx hmem)
    rw [List.getElem?_eq_getElem hactive]
    refine ⟨_,rfl,Or.inr (h.setView ⟨by simpa using hactive,?_⟩ si)⟩
    exact forall_mem_set _ (fun tab htab => hview.focused tab (List.mem_of_mem_eraseIdx htab))
      hfocus.first

theorem Valid.closePaneInner (h : s.Valid bare) (slot : Nat) :
    ∃ t, s.closePaneInner slot = some t ∧ (t.sessions = [] ∨ t.Valid bare) := by
  cases hslot : s.slots[slot]?.join with
  | none => exact ⟨s,by rw [AppState.closePaneInner,hslot],Or.inr h⟩
  | some pane =>
    cases hloc : s.locatePane pane with
    | none => exact ⟨s,by rw [AppState.closePaneInner,hslot]; simp only [hloc],Or.inr h⟩
    | some place =>
      obtain ⟨si,ti⟩ := place
      obtain ⟨tab,htab,-⟩ := tabAt_of_locatePane hloc
      obtain ⟨sv,hsv,hti⟩ := Option.bind_eq_some_iff.mp htab
      have hslots : (s.dropSlot slot).Valid bare := h.sameSessions rfl rfl
      by_cases hempty : tab.EmptiedBy pane
      · rw [closePaneInner_emptied hslot hloc htab hempty]
        exact hslots.removeTab hsv ti
      · obtain ⟨focus,hfocus,heq⟩ := closePaneInner_shrunk hslot hloc htab hempty
        exact ⟨_,heq,Or.inr (hslots.modifyTab si ti fun _ _ => Or.inl hfocus)⟩

theorem Valid.closeSlots (h : s.Valid bare) (slots : List Nat) :
    ∃ t, slots.foldlM AppState.closePaneInner s = some t ∧ (t.sessions = [] ∨ t.Valid bare) := by
  refine foldlM_total (I := fun s : AppState => s.sessions = [] ∨ s.Valid bare) slots
    (fun s slot _ hs => ?_) (Or.inr h)
  rcases hs with hnil | hs
  · refine ⟨s,?_,Or.inl hnil⟩
    have hloc : ∀ pane, s.locatePane pane = none := fun pane => by simp [locatePane,hnil]
    unfold AppState.closePaneInner
    cases s.slots[slot]?.join <;> simp [hloc]
  · exact hs.closePaneInner slot

/-! What the user opens. -/

variable (attached : PaneId → Bool)

theorem Valid.pushSlot (h : s.Valid bare) (pane : PaneId) : (s.pushSlot pane).Valid bare :=
  h.sameSessions rfl rfl

theorem Valid.attach (h : s.Valid bare) (pane : PaneId) : (s.attach attached pane).Valid bare := by
  unfold AppState.attach
  split
  · exact h.pushSlot pane
  · exact h

theorem Valid.pushView (h : s.Valid bare) (id : SessionId) (pane : PaneId) (w : WindowId)
    {active : Nat} (ha : active ≤ s.sessions.length) :
    ({ s with sessions := s.sessions ++ [⟨id,[.single pane w],0⟩], activeSession := active } :
      AppState).Valid bare where
  active := by simp; omega
  views sv hsv := by
    rcases List.mem_append.mp hsv with hsv | hsv
    · exact h.views sv hsv
    · obtain rfl := List.mem_singleton.mp hsv
      exact SessionView.valid_single id pane w

theorem Valid.splitActive (h : s.Valid bare) (orient : Orient) (reply : Option PaneId) :
    ∃ t, s.splitActive orient reply attached = some t ∧ t.Valid bare := by
  obtain ⟨sv,hsv,hview,tab,htab,hti⟩ := h.activeView
  have hfocus := (h.views sv hsv).focused tab htab
  have hat : s.tabAt s.activeSession sv.activeTab = some tab := by
    rw [tabAt,show s.sessions[s.activeSession]? = some sv from hview,Option.bind_some,hti]
  have hunzoomed : (s.modifyTab s.activeSession sv.activeTab
      fun tab => { tab with zoomed := none }).Valid bare := by
    refine h.modifyTab _ _ fun tab' htab' => ?_
    obtain rfl := Option.some.inj (hat.symm.trans htab')
    exact hfocus
  simp only [AppState.splitActive,hview,Option.bind_some,hti]
  cases reply with
  | none => exact ⟨_,rfl,hunzoomed⟩
  | some pane =>
    simp only
    split
    · refine ⟨_,rfl,?_⟩
      change ((AppState.modifyTab (s.pushSlot pane) _ _ _).modifyTab _ _ _).Valid bare
      rw [modifyTab_modifyTab]
      refine (h.pushSlot pane).modifyTab _ _ fun tab' htab' => ?_
      obtain rfl := Option.some.inj (hat.symm.trans htab')
      rcases hfocus with hmem | ⟨hbare,hnil⟩
      · exact Or.inl ((LayoutNode.leaves_splitFocused hmem).mem_iff.mpr List.mem_cons_self)
      · refine Or.inr ⟨hbare,?_⟩
        rw [Function.comp_apply,LayoutNode.splitFocused_of_notMem (by simp [hnil])]
        exact hnil
    · exact ⟨_,rfl,hunzoomed⟩

theorem Valid.openNewTab (h : s.Valid bare) (window : Option WindowId) (pane : Option PaneId) :
    ∃ t, s.openNewTab window pane attached = some t ∧ t.Valid bare := by
  obtain ⟨sv,hsv,hview,-⟩ := h.activeView
  simp only [AppState.openNewTab,hview,Option.bind_some]
  split
  · split
    · refine ⟨_,rfl,?_⟩
      exact (h.pushSlot _).setView ((h.views sv hsv).pushTab _ _ (by simp)) _
    · exact ⟨s,rfl,h⟩
  · exact ⟨s,rfl,h⟩

theorem Valid.openNewSession (h : s.Valid bare) (reply : Option (SessionId × PaneId × WindowId)) :
    (s.openNewSession reply attached).Valid bare := by
  unfold AppState.openNewSession
  split
  · exact h
  · simp only
    split
    · exact (h.pushSlot _).pushView _ _ _ (by simp [AppState.pushSlot])
    · exact h

/-! What the daemon tells of. -/

theorem Valid.pushTab (h : s.Valid bare) (si : Nat) (pane : PaneId) (w : WindowId) :
    (AppState.pushTab s si (.single pane w)).Valid bare where
  active := by simpa [AppState.pushTab] using h.active
  views := forall_mem_modify si h.views fun sv hsv =>
    have hsv := h.views sv (List.mem_of_getElem? hsv)
    hsv.pushTab pane w hsv.active.le

theorem Valid.setLayout (h : s.Valid bare) (si ti : Nat) {layout : LayoutNode}
    (hl : bare ∨ layout.allLeaves ≠ []) : (s.modifyTab si ti fun tab =>
      { tab with root := layout, focusPane := keepFocus tab.focusPane layout }).Valid bare :=
  h.modifyTab si ti fun tab _ => tab.focused_keepFocus hl

theorem Valid.adopt (h : s.Valid bare) (known : List SessionId) (info : SessionReply) :
    (s.adopt attached known info).Valid bare := by
  unfold AppState.adopt
  split
  · exact h
  · split
    · split
      · exact (h.pushSlot _).pushView _ _ _ h.active.le
      · exact h
    · exact h

theorem Valid.attachNew (h : s.Valid bare) (pane : PaneId) : (s.attachNew attached pane).Valid bare := by
  unfold AppState.attachNew
  split
  · exact h
  · exact h.attach attached pane

@[simp] theorem sessions_attachNew (s : AppState) (pane : PaneId) :
    (s.attachNew attached pane).sessions = s.sessions := by
  unfold AppState.attachNew AppState.attach
  split
  · rfl
  · split <;> rfl

theorem Valid.takeNewPanes (h : s.Valid bare) (hsi : si < s.sessions.length)
    (newPanes : List PaneInfo) {layout : Option LayoutNode}
    (hl : ∀ l, layout = some l → bare ∨ l.allLeaves ≠ []) :
    ∃ t, s.takeNewPanes attached si newPanes layout = some t ∧ t.Valid bare ∧
      si < t.sessions.length := by
  set u := newPanes.foldl (fun s p => s.attachNew attached p.id) s with hu
  have huvalid : u.Valid bare ∧ si < u.sessions.length :=
    foldl_keeps (I := fun s : AppState => s.Valid bare ∧ si < s.sessions.length) newPanes
      (fun s p hs => ⟨hs.1.attachNew attached p.id,by simpa using hs.2⟩) ⟨h,hsi⟩
  obtain ⟨huvalid,hsi⟩ := huvalid
  unfold AppState.takeNewPanes
  cases layout with
  | none =>
    refine ⟨_,rfl,foldl_keeps (I := fun s : AppState => s.Valid bare ∧ si < s.sessions.length)
      newPanes (fun s p hs => ?_) ⟨huvalid,hsi⟩⟩
    split
    · exact ⟨hs.1.pushTab si p.id p.window,by simpa [AppState.pushTab] using hs.2⟩
    · exact hs
  | some layout =>
    have hactive := (huvalid.views _ (List.getElem_mem hsi)).active
    simp only [← hu,List.getElem?_eq_getElem hsi,Option.bind_some,
      List.getElem?_eq_getElem hactive,Option.map_some]
    exact ⟨_,rfl,huvalid.setLayout _ _ (hl layout rfl),by simpa [AppState.modifyTab] using hsi⟩

theorem Valid.paneSync (h : s.Valid bare) {info : SessionReply}
    (hl : ∀ l, info.layout = some l → bare ∨ l.allLeaves ≠ []) :
    ∃ t, s.paneSync attached info = some t ∧ t.Valid bare := by
  unfold AppState.paneSync
  split
  · exact ⟨s,rfl,h⟩
  · rename_i si hfind
    have hsi : si < s.sessions.length := (List.findIdx?_eq_some_iff_getElem.mp hfind).1
    rw [List.getElem?_eq_getElem hsi,Option.bind_some]
    split
    · exact ⟨s,rfl,h⟩
    · rename_i panes _
      simp only
      split
      · rw [Option.bind_some,List.getElem?_eq_getElem hsi]
        exact ⟨_,rfl,h.sameSessions rfl rfl⟩
      · obtain ⟨t,ht,hvalid,hlt⟩ := h.takeNewPanes attached hsi _ hl
        rw [ht,Option.bind_some,List.getElem?_eq_getElem hlt]
        exact ⟨_,rfl,hvalid.sameSessions rfl rfl⟩

theorem Valid.prune (h : s.Valid bare) (prev : Option SessionId) (ids : List SessionId) :
    (s.prune prev ids).sessions = [] ∨ (s.prune prev ids).Valid bare := by
  by_cases hnil : s.sessions.filter (fun sv => sv.id ∈ ids) = []
  · exact Or.inl hnil
  · refine Or.inr ⟨?_,fun sv hsv => h.views sv (List.mem_of_mem_filter hsv)⟩
    have hpos := List.length_pos_iff.mpr hnil
    simp only [AppState.prune,restoreActiveSession]
    split
    · split
      · rename_i i hi
        exact (List.findIdx?_eq_some_iff_getElem.mp hi).1
      · rw [if_neg hnil]
        omega
    · split
      · omega
      · rename_i hactive
        exact Nat.lt_of_not_le fun hle => hactive ⟨hle,hnil⟩

theorem Valid.syncSessions (h : s.Valid bare) {infos : List SessionReply}
    (hl : ∀ info ∈ infos, ∀ l, info.layout = some l → bare ∨ l.allLeaves ≠ []) :
    ∃ t, s.syncSessions attached infos = some t ∧ (t.sessions = [] ∨ t.Valid bare) := by
  have hadopted := foldl_keeps (I := Valid bare) infos
    (fun u info hu => hu.adopt attached (s.sessions.map SessionView.id) info) h
  obtain ⟨t,ht,hvalid⟩ := foldlM_total (I := Valid bare) infos
    (fun u info hinfo hu => hu.paneSync attached (hl info hinfo)) hadopted
  simp only [AppState.syncSessions,ht,Option.map_some]
  exact ⟨_,rfl,hvalid.prune _ _⟩

theorem Valid.layoutResync (h : s.Valid bare) {fetch : LayoutQuery → Option LayoutNode}
    (hl : ∀ q l, fetch q = some l → bare ∨ l.allLeaves ≠ []) (recentlySplit : Bool) :
    ∃ t, s.layoutResync fetch attached recentlySplit = some t ∧ t.Valid bare := by
  obtain ⟨sv,-,hview,tab,-,hti⟩ := h.activeView
  simp only [AppState.layoutResync,hview,Option.bind_some,hti,Option.map_some]
  refine ⟨_,rfl,?_⟩
  split
  · exact h
  · rename_i layout hfetch
    have hattached := foldl_keeps (I := Valid bare)
      (layout.allLeaves.filter fun p => (paneToSlotIdx s.slots p).isNone)
      (fun u p hu => hu.attach attached p) h
    split
    · exact hattached.setLayout _ _ (hl _ _ hfetch)
    · exact hattached

/-! What is shown instead. -/

theorem Valid.liveSession (h : s.Valid bare) :
    ∃ found, s.liveSession = some found ∧ ∀ i, found = some i → i < s.sessions.length := by
  obtain ⟨found,hfound,hmem⟩ := findM?_total (List.range s.sessions.length)
    (p := fun i => if i = s.activeSession then some false
      else s.sessions[i]?.bind fun sv => sv.tabs[sv.activeTab]?.map fun tab =>
        !tab.allDead s.slots) fun i hi => by
    have hlt := List.mem_range.mp hi
    have hactive := (h.views _ (List.getElem_mem hlt)).active
    split
    · exact ⟨false,rfl⟩
    · rw [List.getElem?_eq_getElem hlt,Option.bind_some,List.getElem?_eq_getElem hactive]
      exact ⟨_,rfl⟩
  exact ⟨found,hfound,fun i hi => List.mem_range.mp (hmem i hi)⟩

theorem Valid.detectLost (h : s.Valid bare) : ∃ t, s.detectLost = some t ∧ t.Valid bare := by
  obtain ⟨sv,hsv,hview,tab,-,hti⟩ := h.activeView
  simp only [AppState.detectLost,hview,Option.bind_some,hti]
  split
  · split
    · exact ⟨s,rfl,h⟩
    · split
      · rename_i other next hnext
        have hlt : next < sv.tabs.length := by
          have hmem := List.mem_zipIdx_iff_getElem?.mp (List.mem_of_find?_eq_some hnext)
          exact (List.getElem?_eq_some_iff.mp hmem).1
        have hview' : ({ sv with activeTab := next } : SessionView).Valid bare :=
          ⟨hlt,(h.views sv hsv).focused⟩
        exact ⟨_,rfl,(h.setView hview' s.activeSession).sameSessions rfl rfl⟩
      · obtain ⟨found,hfound,hlt⟩ := h.liveSession
        rw [hfound]
        cases found with
        | none => exact ⟨_,rfl,h.sameSessions rfl rfl⟩
        | some next => exact ⟨_,rfl,hlt next rfl,h.views⟩
  · exact ⟨_,rfl,h.sameSessions rfl rfl⟩

theorem Valid.focusSlot (h : s.Valid bare) (slot : Nat) :
    ∃ t, s.focusSlot slot = some t ∧ t.Valid bare := by
  obtain ⟨sv,-,hview,tab,-,hti⟩ := h.activeView
  unfold AppState.focusSlot
  split
  · exact ⟨s,rfl,h⟩
  · rename_i pane _
    simp only [hview,Option.bind_some,hti,Option.map_some]
    refine ⟨_,rfl,?_⟩
    split
    · rename_i hmem
      refine h.modifyTab _ _ fun tab' htab' => ?_
      have hat : s.tabAt s.activeSession sv.activeTab = some tab := by
        rw [tabAt,show s.sessions[s.activeSession]? = some sv from hview,Option.bind_some,hti]
      obtain rfl := Option.some.inj (hat.symm.trans htab')
      exact Or.inl hmem
    · exact h

theorem Valid.handle (h : s.Valid bare) {e : TuiEvent} (he : bare ∨ e.HasPanes) :
    ∃ t, s.handle e = some t ∧ (t.sessions = [] ∨ t.Valid bare) := by
  cases e with
  | splitActive orient reply attached =>
    obtain ⟨t,ht,hvalid⟩ := h.splitActive attached orient reply
    exact ⟨t,ht,Or.inr hvalid⟩
  | openNewTab window pane attached =>
    obtain ⟨t,ht,hvalid⟩ := h.openNewTab attached window pane
    exact ⟨t,ht,Or.inr hvalid⟩
  | openNewSession reply attached => exact ⟨_,rfl,Or.inr (h.openNewSession attached reply)⟩
  | closeSlots slots => exact h.closeSlots slots
  | syncSessions infos attached =>
    exact h.syncSessions attached fun info hinfo l hl => he.imp_right fun he => he info hinfo l hl
  | layoutResync fetch attached recentlySplit =>
    obtain ⟨t,ht,hvalid⟩ := h.layoutResync attached
      (fun q l hl => he.imp_right fun he => he q l hl) recentlySplit
    exact ⟨t,ht,Or.inr hvalid⟩
  | detectLost =>
    obtain ⟨t,ht,hvalid⟩ := h.detectLost
    exact ⟨t,ht,Or.inr hvalid⟩
  | focusSlot slot =>
    obtain ⟨t,ht,hvalid⟩ := h.focusSlot slot
    exact ⟨t,ht,Or.inr hvalid⟩

end AppState

theorem step_inRange {l l' : EventLoop} {e : TuiEvent} (h : l.InRange bare)
    (he : bare ∨ e.HasPanes) (hstep : step l e = some l') : l'.InRange bare := by
  cases l with
  | panicked => exact h.elim
  | running s =>
    rw [step,Option.ite_none_left_eq_some,Option.some.injEq] at hstep
    obtain ⟨hsome,rfl⟩ := hstep
    obtain ⟨t,ht,hvalid⟩ := (h.resolve_left hsome).handle he
    rw [ht]
    exact hvalid

theorem AppState.Valid.mono {s : AppState} (h : s.Valid False) : s.Valid bare where
  active := h.active
  views sv hsv := ⟨(h.views sv hsv).active,fun tab htab =>
    ((h.views sv hsv).focused tab htab).imp_right fun hnone => hnone.1.elim⟩

/-- Whatever the events and the replies, in every state of the loop no index is out of
range and each focus is on a pane of its tab, but for a tab without any, of which there
is none unless the daemon sends such a layout. -/
theorem indices_in_range {s : AppState} (h : s.Valid False) (es : List TuiEvent) :
    Always step (EventLoop.InRange (∃ e ∈ es, ¬e.HasPanes)) (.running s) es := by
  have halong : Along step (fun _ e => (∃ e ∈ es, ¬e.HasPanes) ∨ e.HasPanes) (.running s) es := by
    refine along_iff.mpr fun pre e hpre _ _ => ?_
    by_cases he : e.HasPanes
    · exact Or.inr he
    · exact Or.inl ⟨e,hpre.mem (by simp),he⟩
  exact halong.invariant (fun l e l' hl he hstep => step_inRange hl he hstep) (Or.inr h.mono)

/-- One session with a pane in its tab. -/
def onePane : AppState := ⟨[.newSinglePane ⟨1⟩ ⟨1⟩],0,[some ⟨1⟩],false⟩

theorem valid_onePane : onePane.Valid False where
  active := by decide
  views sv hsv := by
    obtain rfl := List.mem_singleton.mp hsv
    exact SessionView.valid_single ⟨1⟩ ⟨1⟩ nilWindow

theorem indices_in_range_split : Always step
    (EventLoop.InRange (∃ e ∈ [TuiEvent.splitActive .vertical (some ⟨2⟩) fun _ => true,
      .closeSlots [0,1]], ¬e.HasPanes)) (.running onePane)
    [.splitActive .vertical (some ⟨2⟩) fun _ => true,.closeSlots [0,1]] :=
  indices_in_range valid_onePane _

/-- A layout without a pane is put in place all the same, and the focus is on no leaf of it. -/
theorem focus_on_no_leaf : ¬∀ s : AppState, s.Valid False → ∀ es,
    Always step (EventLoop.InRange False) (.running s) es := by
  intro h
  have hrange := (h onePane valid_onePane [.layoutResync (fun _ => some (.split .horizontal []))
    (fun _ => true) false]).last rfl
  rcases hrange with hnil | hvalid
  · exact absurd hnil (by decide)
  · have hview := hvalid.views _ List.mem_cons_self
    rcases hview.focused _ List.mem_cons_self with hfocus | hbare
    · exact absurd hfocus (by decide)
    · exact hbare.1

end Pyre.Tui
