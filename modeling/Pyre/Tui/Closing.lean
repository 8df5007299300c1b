import Pyre.Tui.AppState

/-!
What closing a pane does to what the user looks at. A tab that loses its last pane
goes, and its session with its last tab; what stands behind in the vector moves up by
one, and the two indices of what is shown are set anew.
-/

set_option autoImplicit false

namespace Pyre.Tui

section lists

variable {α : Type}

theorem eraseIdx_modify (l : List α) (i : Nat) (f : α → α) :
    (l.modify i f).eraseIdx i = l.eraseIdx i := by
  induction l generalizing i with
  | nil => simp
  | cons a l ih => cases i <;> simp [ih]

theorem set_modify (l : List α) (i : Nat) (f : α → α) (a : α) :
    (l.modify i f).set i a = l.set i a := by
  induction l generalizing i with
  | nil => simp
  | cons b l ih => cases i <;> simp [ih]

theorem modify_congr {l : List α} {i : Nat} {a : α} {f g : α → α} (hi : l[i]? = some a)
    (h : f a = g a) : l.modify i f = l.modify i g := by
  refine List.ext_getElem? fun j => ?_
  by_cases hj : i = j
  · subst hj
    simp [hi,h]
  · simp [hj]

end lists

/-- The pane is all that the tab shows. -/
def Tab.EmptiedBy (tab : Tab) (pane : PaneId) : Prop := ∀ q ∈ tab.root.allLeaves, q = pane

instance (tab : Tab) (pane : PaneId) : Decidable (tab.EmptiedBy pane) :=
  inferInstanceAs (Decidable (∀ _ ∈ _, _))

namespace AppState

variable {s t : AppState} {si ti : Nat} {sv : SessionView} {tab : Tab} {pane : PaneId}

def dropSlot (s : AppState) (slot : Nat) : AppState := { s with slots := s.slots.set slot none }

theorem modifyTab_modifyTab (s : AppState) (si ti : Nat) (f g : Tab → Tab) :
    (s.modifyTab si ti f).modifyTab si ti g = s.modifyTab si ti (g ∘ f) := by
  simp [modifyTab,List.modify_modify_eq,Function.comp_def]

/-- What the tree of the tab has become makes no difference to its removal. -/
theorem removeTab_modifyTab (s : AppState) (si ti : Nat) (f : Tab → Tab) :
    (s.modifyTab si ti f).removeTab si ti = s.removeTab si ti := by
  simp only [removeTab,modifyTab,List.getElem?_modify_eq]
  cases hsv : s.sessions[si]? with
  | none => rfl
  | some sv => simp [eraseIdx_modify,set_modify]

/-- Only what is made of the tab that is there counts. -/
theorem modifyTab_congr {f g : Tab → Tab} (htab : s.tabAt si ti = some tab) (h : f tab = g tab) :
    s.modifyTab si ti f = s.modifyTab si ti g := by
  obtain ⟨sv,hsv,hti⟩ := Option.bind_eq_some_iff.mp htab
  rw [modifyTab,modifyTab]
  congr 1
  refine modify_congr hsv ?_
  rw [modify_congr hti h]

/-- A pane is found in a tab that shows it. -/
theorem tabAt_of_locatePane (h : s.locatePane pane = some (si,ti)) :
    ∃ tab, s.tabAt si ti = some tab ∧ pane ∈ tab.root.allLeaves := by
  unfold locatePane at h
  obtain ⟨⟨sv,i⟩,hmem,hloc⟩ := List.exists_of_findSome?_eq_some h
  obtain ⟨j,hj,heq⟩ := Option.map_eq_some_iff.mp hloc
  obtain ⟨rfl,rfl⟩ := Prod.mk.inj heq
  obtain ⟨hlt,hshows,-⟩ := List.findIdx?_eq_some_iff_getElem.mp hj
  have hsv : s.sessions[i]? = some sv := List.mem_zipIdx_iff_getElem?.mp hmem
  refine ⟨sv.tabs[j],?_,by simpa using hshows⟩
  rw [tabAt,hsv,Option.bind_some,List.getElem?_eq_getElem hlt]

/-- What remains of the tab: the code takes the one leaf that cannot go for none. -/
theorem remaining_eq {tree : LayoutNode} (h : pane ∈ tree.allLeaves) :
    (if (tree.close pane).2 = none ∧ (tree.close pane).1.allLeaves = [pane] then []
      else (tree.close pane).1.allLeaves) = tree.allLeaves.filter (· ≠ pane) := by
  by_cases hlen : tree.allLeaves.length = 1
  · obtain ⟨q,hq⟩ := List.length_eq_one_iff.mp hlen
    rw [hq,List.mem_singleton] at h
    subst h
    simp [LayoutNode.close,hq]
  · rw [LayoutNode.leaves_close,if_neg hlen]
    refine if_neg fun hone => ?_
    have hself : pane ∈ tree.allLeaves.filter (· ≠ pane) := hone.2 ▸ List.mem_singleton_self pane
    simp at hself

theorem mem_focus {l : List PaneId} (h : l ≠ []) (newFocus : Option PaneId) (old : PaneId) :
    ((newFocus.filter (· ∈ l)).or l.head?).getD old ∈ l := by
  obtain ⟨p,rest,rfl⟩ := List.exists_cons_of_ne_nil h
  cases hf : newFocus.filter (· ∈ p :: rest) with
  | none => simp
  | some q => simpa using (Option.filter_eq_some_iff.mp hf).2

section closing

variable {slot : Nat} (hslot : s.slots[slot]?.join = some pane)
  (hloc : s.locatePane pane = some (si,ti)) (htab : s.tabAt si ti = some tab)
include hslot hloc htab

theorem closePaneInner_emptied (h : tab.EmptiedBy pane) :
    s.closePaneInner slot = (s.dropSlot slot).removeTab si ti := by
  obtain ⟨tab',htab',hmem⟩ := tabAt_of_locatePane hloc
  obtain rfl := Option.some.inj (htab.symm.trans htab')
  have hnil : tab.root.allLeaves.filter (· ≠ pane) = [] := by
    rw [List.filter_eq_nil_iff]
    intro q hq
    simpa using h q hq
  rw [closePaneInner,hslot]
  simp only [hloc,htab,Option.bind_some,remaining_eq hmem,hnil,if_true]
  exact removeTab_modifyTab (s.dropSlot slot) si ti _

theorem closePaneInner_shrunk (h : ¬tab.EmptiedBy pane) :
    ∃ focus ∈ (tab.root.close pane).1.allLeaves, s.closePaneInner slot =
      some ((s.dropSlot slot).modifyTab si ti fun _ =>
        { tab with root := (tab.root.close pane).1, focusPane := focus, zoomed := none }) := by
  obtain ⟨tab',htab',hmem⟩ := tabAt_of_locatePane hloc
  obtain rfl := Option.some.inj (htab.symm.trans htab')
  have hremaining := remaining_eq hmem
  set rest := tab.root.allLeaves.filter (· ≠ pane) with hrest
  have hsome : rest ≠ [] := by
    rw [hrest,ne_eq,List.filter_eq_nil_iff]
    intro hall
    exact h fun q hq => by simpa using hall q hq
  have hclosed : (tab.root.close pane).1.allLeaves = rest := by
    split at hremaining
    · exact absurd hremaining.symm hsome
    · exact hremaining
  refine ⟨(((tab.root.close pane).2.filter (· ∈ rest)).or rest.head?).getD tab.focusPane,?_,?_⟩
  · rw [hclosed]
    exact mem_focus hsome _ _
  · rw [closePaneInner,hslot]
    simp only [hloc,htab,Option.bind_some,hremaining,if_neg hsome]
    refine congrArg some ?_
    exact (modifyTab_modifyTab (s.dropSlot slot) si ti _ _).trans (modifyTab_congr htab rfl)

end closing

/-! The user's place. -/

/-- The session and the tab the user looks at. -/
structure Looks (s : AppState) (sv : SessionView) (tab : Tab) : Prop where
  view : s.sessions[s.activeSession]? = some sv
  tab : sv.tabs[sv.activeTab]? = some tab

/-- The index of what stood at `i`, once the element at `gone` is taken out. -/
def movedTo (gone i : Nat) : Nat := if gone < i then i-1 else i

theorem getElem?_eraseIdx_movedTo {α : Type} (l : List α) {gone i : Nat} (h : i ≠ gone) :
    (l.eraseIdx gone)[movedTo gone i]? = l[i]? := by
  unfold movedTo
  split
  · rw [List.getElem?_eraseIdx_of_ge (by omega)]
    congr 1
    omega
  · exact List.getElem?_eraseIdx_of_lt (by omega)

def tabCount (s : AppState) (si : Nat) : Nat :=
  (s.sessions[si]?.map fun sv => sv.tabs.length).getD 0

/-- Where the tab at a place is found again after the pane has been closed. -/
def placeAfter (s t : AppState) (pane : PaneId) (place : Nat × Nat) : Nat × Nat :=
  match s.locatePane pane with
  | none => place
  | some (si,ti) =>
    if t.sessions.length < s.sessions.length then (movedTo si place.1,place.2)
    else if place.1 = si ∧ t.tabCount si < s.tabCount si then (si,movedTo ti place.2)
    else place

/-- The same session is shown, the same tab of it, and the focus is where it was. -/
def KeepsPlace (s t : AppState) (pane : PaneId) (sv : SessionView) (tab : Tab) : Prop :=
  ∃ sv' tab', t.Looks sv' tab' ∧ sv'.id = sv.id ∧
    (t.activeSession,sv'.activeTab) = s.placeAfter t pane (s.activeSession,sv.activeTab) ∧
    tab'.focusPane = tab.focusPane

/-- The pane is not the last of its tab, or what goes with it does not move the user. -/
def Undisturbed (s : AppState) (pane : PaneId) (sv : SessionView) (tab : Tab) : Prop :=
  match s.locatePane pane with
  | none => True
  | some (si,ti) => ∀ closed ∈ s.tabAt si ti, closed.EmptiedBy pane →
    if s.tabCount si = 1 then s.activeSession < si ∨ s.activeSession+1 = s.sessions.length
    else si ≠ s.activeSession ∨
      sv.activeTab = (if ti+1 < s.tabCount si then ti+1 else ti-1) ∧
        ∀ first ∈ tab.root.allLeaves.head?, first = tab.focusPane

section place

variable {slot : Nat}

theorem tabCount_modifyTab (s : AppState) (si ti : Nat) (f : Tab → Tab) :
    (s.modifyTab si ti f).tabCount si = s.tabCount si := by
  simp only [tabCount,modifyTab,List.getElem?_modify_eq]
  cases s.sessions[si]? <;> simp

/-- Where no tab goes, only the tab of the pane changes. -/
theorem keepsPlace_modifyTab (hlook : s.Looks sv tab) (hloc : s.locatePane pane = some (si,ti))
    (hne : (si,ti) ≠ (s.activeSession,sv.activeTab)) (f : Tab → Tab) :
    s.KeepsPlace ((s.dropSlot slot).modifyTab si ti f) pane sv tab := by
  set t := (s.dropSlot slot).modifyTab si ti f with ht
  have hcount : t.tabCount si = s.tabCount si := tabCount_modifyTab (s.dropSlot slot) si ti f
  have hlength : t.sessions.length = s.sessions.length := List.length_modify _ _ _
  have hplace : s.placeAfter t pane (s.activeSession,sv.activeTab) =
      (s.activeSession,sv.activeTab) := by
    simp [placeAfter,hloc,hcount,hlength]
  by_cases hsi : si = s.activeSession
  · have hti : ti ≠ sv.activeTab := fun h => hne (by rw [hsi,h])
    refine ⟨{ sv with tabs := sv.tabs.modify ti f },tab,⟨?_,?_⟩,rfl,hplace.symm,rfl⟩
    · simp [ht,modifyTab,dropSlot,hsi,hlook.view]
    · simpa [hti] using hlook.tab
  · refine ⟨sv,tab,⟨?_,hlook.tab⟩,rfl,hplace.symm,rfl⟩
    simpa [ht,modifyTab,dropSlot,hsi] using hlook.view

variable {view : SessionView}

theorem placeAfter_shorter (hloc : s.locatePane pane = some (si,ti))
    (h : t.sessions.length < s.sessions.length) (place : Nat × Nat) :
    s.placeAfter t pane place = (movedTo si place.1,place.2) := by
  rw [placeAfter,hloc]
  exact if_pos h

theorem placeAfter_tab (hloc : s.locatePane pane = some (si,ti))
    (hlen : ¬t.sessions.length < s.sessions.length) (hcount : t.tabCount si < s.tabCount si)
    (i : Nat) : s.placeAfter t pane (si,i) = (si,movedTo ti i) := by
  rw [placeAfter,hloc]
  exact (if_neg hlen).trans (if_pos ⟨rfl,hcount⟩)

/-- The session goes with its only tab. -/
theorem removeTab_only (hview : s.sessions[si]? = some view) (hone : view.tabs.length = 1)
    (hti : ti < view.tabs.length) (hother : s.sessions.eraseIdx si ≠ []) :
    s.removeTab si ti = some { s with
      sessions := s.sessions.eraseIdx si
      activeSession := min s.activeSession ((s.sessions.eraseIdx si).length-1) } := by
  have hnil : view.tabs.eraseIdx ti = [] := by
    rw [← List.length_eq_zero_iff,List.length_eraseIdx_of_lt hti]
    omega
  simp only [removeTab,hview,Option.bind_some,hnil,if_true,if_neg hother]

theorem removeTab_more (hview : s.sessions[si]? = some view) (hti : ti < view.tabs.length)
    (hmore : view.tabs.length ≠ 1) :
    ∃ next, (view.tabs.eraseIdx ti)[min ti (view.tabs.length-2)]? = some next ∧
      s.removeTab si ti = some { s with sessions := s.sessions.set si { view with
        tabs := (view.tabs.eraseIdx ti).set (min ti (view.tabs.length-2))
          { next with focusPane := next.root.allLeaves.head?.getD next.focusPane }
        activeTab := min ti (view.tabs.length-2) } } := by
  have hlen := List.length_eraseIdx_of_lt hti
  have hsome : view.tabs.eraseIdx ti ≠ [] := by
    rw [← List.length_pos_iff]
    omega
  have hlt : min ti (view.tabs.length-2) < (view.tabs.eraseIdx ti).length := by omega
  refine ⟨_,List.getElem?_eq_getElem hlt,?_⟩
  have hactive : view.tabs.length-1-1 = view.tabs.length-2 := by omega
  simp only [removeTab,hview,Option.bind_some,if_neg hsome,hlen,hactive,
    List.getElem?_eq_getElem hlt,Option.map_some]

theorem tabCount_eq (hview : s.sessions[si]? = some view) :
    s.tabCount si = view.tabs.length := by
  rw [tabCount,hview]
  rfl

/-- A session that goes moves the user unless it stood behind, or none stands behind. -/
theorem keepsPlace_only (hlook : s.Looks sv tab) (hloc : s.locatePane pane = some (si,ti))
    (hne : si ≠ s.activeSession) (hview : s.sessions[si]? = some view)
    (hone : view.tabs.length = 1) (hti : ti < view.tabs.length) :
    ∃ t, (s.dropSlot slot).removeTab si ti = some t ∧
      (s.KeepsPlace t pane sv tab ↔
        s.activeSession < si ∨ s.activeSession+1 = s.sessions.length) := by
  obtain ⟨hsi,-⟩ := List.getElem?_eq_some_iff.mp hview
  obtain ⟨ha,hsv⟩ := List.getElem?_eq_some_iff.mp hlook.view
  have hlen := List.length_eraseIdx_of_lt hsi
  have hother : s.sessions.eraseIdx si ≠ [] := by
    rw [← List.length_pos_iff]
    omega
  refine ⟨_,removeTab_only (s := s.dropSlot slot) hview hone hti hother,?_⟩
  have hshorter : (s.sessions.eraseIdx si).length < s.sessions.length := by omega
  have hindex : min s.activeSession ((s.sessions.eraseIdx si).length-1) =
      movedTo si s.activeSession ↔
        s.activeSession < si ∨ s.activeSession+1 = s.sessions.length := by
    unfold movedTo
    split <;> omega
  rw [← hindex]
  constructor
  · rintro ⟨sv',tab',-,-,hplace,-⟩
    rw [placeAfter_shorter hloc hshorter] at hplace
    exact (Prod.mk.inj hplace).1
  · intro hidx
    refine ⟨sv,tab,⟨?_,hlook.tab⟩,rfl,?_,rfl⟩
    · exact ((congrArg _ hidx).trans (getElem?_eraseIdx_movedTo _ hne.symm)).trans hlook.view
    · rw [placeAfter_shorter hloc hshorter]
      exact Prod.ext hidx rfl

/-- A tab that goes moves the user, unless in another session, or where the tab looked at
takes its index and has the focus on its first pane. -/
theorem keepsPlace_more (hlook : s.Looks sv tab) (hloc : s.locatePane pane = some (si,ti))
    (hne : (si,ti) ≠ (s.activeSession,sv.activeTab)) (hview : s.sessions[si]? = some view)
    (hmore : view.tabs.length ≠ 1) (hti : ti < view.tabs.length) :
    ∃ t, (s.dropSlot slot).removeTab si ti = some t ∧
      (s.KeepsPlace t pane sv tab ↔ si ≠ s.activeSession ∨
        sv.activeTab = (if ti+1 < view.tabs.length then ti+1 else ti-1) ∧
          ∀ first ∈ tab.root.allLeaves.head?, first = tab.focusPane) := by
  obtain ⟨next,hnext,heq⟩ := removeTab_more (s := s.dropSlot slot) hview hti hmore
  refine ⟨_,heq,?_⟩
  have hsilt := (List.getElem?_eq_some_iff.mp hview).1
  by_cases hsi : si = s.activeSession
  swap
  · refine iff_of_true ⟨sv,tab,⟨?_,hlook.tab⟩,rfl,?_,rfl⟩ (Or.inl hsi)
    · simpa [dropSlot,hsi] using hlook.view
    · simp [placeAfter,hloc,dropSlot,Ne.symm hsi]
  rw [or_iff_right (not_not.mpr hsi)]
  obtain rfl := Option.some.inj (hlook.view.symm.trans (hsi ▸ hview))
  have hti' : sv.activeTab ≠ ti := fun h => hne (by rw [hsi,h])
  have hat := (List.getElem?_eq_some_iff.mp hlook.tab).1
  have hindex : min ti (sv.tabs.length-2) = movedTo ti sv.activeTab ↔
      sv.activeTab = (if ti+1 < sv.tabs.length then ti+1 else ti-1) := by
    unfold movedTo
    split <;> split <;> omega
  rw [← hindex]
  have hlen := List.length_eraseIdx_of_lt hti
  set active := min ti (sv.tabs.length-2) with hactive
  have hlt : active < (sv.tabs.eraseIdx ti).length := by omega
  set focused : Tab := { next with focusPane := next.root.allLeaves.head?.getD next.focusPane }
  set sv' : SessionView := { sv with
    tabs := (sv.tabs.eraseIdx ti).set active focused, activeTab := active } with hsv'
  set t : AppState := { s.dropSlot slot with sessions := (s.dropSlot slot).sessions.set si sv' }
    with ht
  have hview' : t.sessions[si]? = some sv' := List.getElem?_set_self hsilt
  have hlook' : t.Looks sv' focused := ⟨hsi ▸ hview',List.getElem?_set_self hlt⟩
  have hcount : t.tabCount si < s.tabCount si := by
    rw [tabCount_eq hview,tabCount_eq hview']
    simp only [hsv',List.length_set]
    omega
  have hplace : s.placeAfter t pane (s.activeSession,sv.activeTab) =
      (si,movedTo ti sv.activeTab) := by
    rw [← hsi]
    exact placeAfter_tab hloc (by simp [ht,dropSlot]) hcount _
  have hnextTab : active = movedTo ti sv.activeTab → next = tab := by
    intro hidx
    rw [hidx,getElem?_eraseIdx_movedTo _ hti',hlook.tab] at hnext
    exact (Option.some.inj hnext).symm
  constructor
  · rintro ⟨sv₂,tab₂,⟨hv,htab₂⟩,-,hpl,hfocus⟩
    obtain rfl := Option.some.inj (hlook'.view.symm.trans hv)
    obtain rfl := Option.some.inj (hlook'.tab.symm.trans htab₂)
    have hidx : active = movedTo ti sv.activeTab := (Prod.mk.inj (hpl.trans hplace)).2
    refine ⟨hidx,fun first hfirst => ?_⟩
    obtain rfl := hnextTab hidx
    have hhead : focused.focusPane = first := congrArg (Option.getD · _) hfirst
    exact hhead.symm.trans hfocus
  · rintro ⟨hidx,hfirst⟩
    refine ⟨sv',focused,hlook',rfl,?_,?_⟩
    · rw [hplace]
      exact Prod.ext hsi.symm hidx
    · obtain rfl := hnextTab hidx
      cases hhead : next.root.allLeaves.head? with
      | none => exact congrArg (Option.getD · _) hhead
      | some first => exact (congrArg (Option.getD · _) hhead).trans (hfirst first hhead)

end place

/-- For a pane that the active tab does not show, closing it leaves the user in place just
where nothing goes with it, or what goes does not shift what is looked at. -/
theorem close_keeps_place_iff {slot : Nat} (hlook : s.Looks sv tab)
    (hslot : s.slots[slot]?.join = some pane) (hout : pane ∉ tab.root.allLeaves) :
    ∃ t, s.closePaneInner slot = some t ∧
      (s.KeepsPlace t pane sv tab ↔ s.Undisturbed pane sv tab) := by
  unfold Undisturbed
  cases hloc : s.locatePane pane with
  | none =>
    refine ⟨s,by rw [closePaneInner,hslot]; simp only [hloc],iff_of_true ?_ trivial⟩
    exact ⟨sv,tab,hlook,rfl,by rw [placeAfter,hloc],rfl⟩
  | some place =>
    obtain ⟨si,ti⟩ := place
    obtain ⟨closed,hclosed,hmem⟩ := tabAt_of_locatePane hloc
    obtain ⟨view,hview,hti⟩ := Option.bind_eq_some_iff.mp hclosed
    have htilt := (List.getElem?_eq_some_iff.mp hti).1
    have hne : (si,ti) ≠ (s.activeSession,sv.activeTab) := by
      intro heq
      obtain ⟨rfl,rfl⟩ := Prod.mk.inj heq
      obtain rfl := Option.some.inj (hlook.view.symm.trans hview)
      obtain rfl := Option.some.inj (hlook.tab.symm.trans hti)
      exact hout hmem
    simp only [hclosed,Option.mem_some_iff,forall_eq',tabCount_eq hview]
    by_cases hempty : closed.EmptiedBy pane
    swap
    · obtain ⟨focus,-,heq⟩ := closePaneInner_shrunk hslot hloc hclosed hempty
      exact ⟨_,heq,iff_of_true (keepsPlace_modifyTab hlook hloc hne _) fun h => absurd h hempty⟩
    rw [closePaneInner_emptied hslot hloc hclosed hempty]
    simp only [hempty,true_imp_iff]
    by_cases hone : view.tabs.length = 1
    · rw [if_pos hone]
      refine keepsPlace_only hlook hloc (fun hsi => hne ?_) hview hone htilt
      obtain rfl := Option.some.inj (hlook.view.symm.trans (hsi ▸ hview))
      have hat := (List.getElem?_eq_some_iff.mp hlook.tab).1
      exact Prod.ext hsi (by simp only; omega)
    · rw [if_neg hone]
      exact keepsPlace_more hlook hloc hne hview hone htilt

/-- Three sessions of one pane each. -/
def threeSessions (activeSession : Nat) : AppState where
  sessions := [.newSinglePane ⟨1⟩ ⟨1⟩,.newSinglePane ⟨2⟩ ⟨2⟩,.newSinglePane ⟨3⟩ ⟨3⟩]
  activeSession
  slots := [some ⟨1⟩,some ⟨2⟩,some ⟨3⟩]
  sessionLost := false

theorem close_keeps_place_third : ∃ t, (threeSessions 1).closePaneInner 2 = some t ∧
    (threeSessions 1).KeepsPlace t ⟨3⟩ (.newSinglePane ⟨2⟩ ⟨2⟩) (.single ⟨2⟩ nilWindow) := by
  have hlook : (threeSessions 1).Looks (.newSinglePane ⟨2⟩ ⟨2⟩) (.single ⟨2⟩ nilWindow) := ⟨rfl,rfl⟩
  have hslot : (threeSessions 1).slots[2]?.join = some ⟨3⟩ := rfl
  obtain ⟨t,ht,hkeeps⟩ := close_keeps_place_iff hlook hslot (by decide)
  refine ⟨t,ht,hkeeps.mpr ?_⟩
  intro closed _ _
  exact Or.inl (by decide)

/-- The first session ends while the second is looked at, and the third is shown. -/
theorem close_moves_user : ¬∀ (s : AppState) (slot : Nat) (pane : PaneId) (sv : SessionView)
    (tab : Tab), s.Looks sv tab → s.slots[slot]?.join = some pane → pane ∉ tab.root.allLeaves →
      ∃ t, s.closePaneInner slot = some t ∧ s.KeepsPlace t pane sv tab := by
  intro h
  obtain ⟨t,ht,sv',tab',hlook,hid,-⟩ := h (threeSessions 1) 0 ⟨1⟩ (.newSinglePane ⟨2⟩ ⟨2⟩)
    (.single ⟨2⟩ nilWindow) ⟨rfl,rfl⟩ rfl (by decide)
  obtain rfl := Option.some.inj ht
  obtain rfl := Option.some.inj hlook.view
  exact absurd hid (by decide)

end AppState

end Pyre.Tui
