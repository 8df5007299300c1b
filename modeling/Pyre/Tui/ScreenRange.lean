import Pyre.Tui.TabKeys

/-!
The cursors of the client's overlays stay on what they point at, in every turn. The one way out
of range is a click on a chip of a strip that was drawn before the lost overlay came up.
-/

set_option autoImplicit false

namespace Pyre.Tui
open Base Search

/-- The cursor is on a result, if there is one. -/
def OnResult (s : SearchState) : Prop :=
  s.opened → hitsOf s.results = [] ∨ s.cursor < (hitsOf s.results).length

namespace Screen

/-- While the picker is open the theme under its cursor is shown, else the chosen one. -/
structure Valid (s : Screen) : Prop where
  app : s.app.Valid True
  fresh : ∀ slot, s.app.slots.length ≤ slot → s.views slot = .attached
  scrolled : ∀ slot, (s.views slot).scrollOffset ≤ (s.views slot).scrollbackCapacity
  menu : ∀ m ∈ s.contextMenu, m.cursor < menuItems.length ∧ m.targetSlot < s.app.slots.length
  picker : ∀ p ∈ s.themePicker,
    p.names = Registry.names ∧ p.names[p.cursor]? = some s.theme.name ∧ p.original = s.chosen
  unpicked : s.themePicker = none → s.theme = s.chosen
  theme : s.theme ∈ Registry.builtin
  chosen : s.chosen ∈ Registry.builtin
  search : OnResult s.search
  sidebar : s.sidebarCursor ≤ s.sidebarData.length - 1

/-- The step succeeds with a valid screen. -/
def Stays (r : Option Screen) : Prop := ∃ t, r = some t ∧ t.Valid

/-- The step succeeds, with a valid screen as long as there is a session. -/
def Ends (r : Option (Screen × KeyAction)) : Prop :=
  ∃ t action, r = some (t,action) ∧ (t.app.sessions = [] ∨ t.Valid)

variable {s t : Screen}

theorem Valid.stays (h : s.Valid) : Stays (some s) := ⟨s,rfl,h⟩

theorem Valid.ends (h : s.Valid) (action : KeyAction) : Ends (some (s,action)) :=
  ⟨s,action,rfl,.inr h⟩

theorem Stays.ends {r : Option Screen} (h : Stays r) : Ends (r.map (·,.go)) := by
  obtain ⟨t,rfl,ht⟩ := h
  exact ht.ends .go

theorem Stays.bind {r : Option Screen} {f : Screen → Option Screen} (h : Stays r)
    (hf : ∀ t, t.Valid → Stays (f t)) : Stays (r.bind f) := by
  obtain ⟨t,rfl,ht⟩ := h
  exact hf t ht

theorem Stays.map {r : Option Screen} {f : Screen → Screen} (h : Stays r)
    (hf : ∀ t, t.Valid → (f t).Valid) : Stays (r.map f) := by
  obtain ⟨t,rfl,ht⟩ := h
  exact ⟨f t,rfl,hf t ht⟩

/-! ### Parts of the screen -/

theorem Valid.say (h : s.Valid) (text : Text) : (s.say text).Valid := { h with }

theorem Valid.setApp (h : s.Valid) {app : AppState} (happ : app.Valid True)
    (hkeeps : s.app.KeepsSlots app) : ({ s with app } : Screen).Valid :=
  { h with
    app := happ
    fresh := fun slot hslot => h.fresh slot (Nat.le_trans hkeeps hslot)
    menu := fun m hm => ⟨(h.menu m hm).1,(h.menu m hm).2.trans_le hkeeps⟩ }

theorem Valid.ofApp (h : s.Valid) {r : Option AppState}
    (hr : ∃ app, r = some app ∧ app.Valid True ∧ s.app.KeepsSlots app) : Stays (s.ofApp r) := by
  obtain ⟨app,rfl,happ,hkeeps⟩ := hr
  exact (h.setApp happ hkeeps).stays

theorem slot_lt {slot : Nat} (hthere : s.app.slots[slot]?.join.isSome) :
    slot < s.app.slots.length := by
  by_contra hout
  rw [List.getElem?_eq_none (Nat.le_of_not_lt hout)] at hthere
  cases hthere

theorem Valid.modifyView (h : s.Valid) (slot : Nat) {f : SlotView → SlotView}
    (hf : ∀ v, v.scrollOffset ≤ v.scrollbackCapacity →
      (f v).scrollOffset ≤ (f v).scrollbackCapacity) : (s.modifyView slot f).Valid := by
  unfold Screen.modifyView
  split
  · rename_i hthere
    have hlt := slot_lt hthere
    refine { h with fresh := fun slot' hslot' => ?_, scrolled := fun slot' => ?_ }
    · have hne : slot' ≠ slot := (hlt.trans_le hslot').ne'
      simpa [hne] using h.fresh slot' hslot'
    · by_cases heq : slot' = slot
      · subst heq
        simpa using hf _ (h.scrolled slot')
      · simpa [heq] using h.scrolled slot'
  · exact h

theorem Valid.setRibbonOf (h : s.Valid) (slot : Nat) (c : SlotView → Option Nat) :
    (s.modifyView slot fun v => { v with ribbonCursor := c v }).Valid :=
  h.modifyView slot fun _ hv => hv

theorem Valid.focused (h : s.Valid) : ∃ place, s.focused = some place := by
  obtain ⟨sv,-,tab,-,-,-,htab,-⟩ := h.app.activeTab
  exact ⟨_,by rw [Screen.focused,htab,Option.map_some]⟩

theorem Valid.onFocused (h : s.Valid) {f : Option (Nat × PaneId) → Screen}
    (hf : ∀ place, s.focused = some place → (f place).Valid) : Stays (s.focused.map f) := by
  obtain ⟨place,hplace⟩ := h.focused
  rw [hplace]
  exact (hf place hplace).stays

theorem Valid.setSearch (h : s.Valid) {search : SearchState} (hsearch : OnResult search) :
    ({ s with search } : Screen).Valid :=
  { h with search := hsearch }

theorem onResult_closed {s : SearchState} (h : s.opened = false) : OnResult s :=
  fun hopened => by rw [h] at hopened; cases hopened

theorem onResult_tickDebounce {s : SearchState} (h : OnResult s) (elapsed : Bool) :
    OnResult (s.tickDebounce elapsed) := by
  unfold SearchState.tickDebounce
  split
  · exact h
  · split
    · exact h
    · exact h

theorem onResult_drain {s : SearchState} (h : OnResult s) : OnResult s.drain := by
  unfold SearchState.drain
  split
  · exact h
  · rename_i hits _
    exact fun _ => hits.eq_nil_or_concat.imp_right fun ⟨_,_,hhits⟩ => by simp [hitsOf,hhits]

theorem onResult_step {found : Query → List BlockHit → Bool} {s t : SearchState}
    (h : OnResult s) {a : SearchStateStep} (ht : s.step found a = some t) : OnResult t := by
  cases a with
  | openSearch =>
    cases ht
    exact fun _ => .inl rfl
  | escape =>
    obtain ⟨-,⟨⟩⟩ := Option.ite_none_right_eq_some.mp ht
    exact onResult_closed rfl
  | enter =>
    obtain ⟨-,⟨⟩⟩ := Option.ite_none_right_eq_some.mp ht
    exact onResult_closed rfl
  | click index =>
    obtain ⟨-,⟨⟩⟩ := Option.ite_none_right_eq_some.mp ht
    exact onResult_closed rfl
  | up =>
    obtain ⟨-,⟨⟩⟩ := Option.ite_none_right_eq_some.mp ht
    exact fun hopened => (h hopened).imp_right fun hc => (Nat.sub_le _ _).trans_lt hc
  | down =>
    obtain ⟨-,⟨⟩⟩ := Option.ite_none_right_eq_some.mp ht
    refine fun hopened => (h hopened).imp_right fun hc => ?_
    simp only
    omega
  | char c =>
    obtain ⟨-,⟨⟩⟩ := Option.ite_none_right_eq_some.mp ht
    exact h
  | backspace =>
    obtain ⟨-,⟨⟩⟩ := Option.ite_none_right_eq_some.mp ht
    exact h
  | tick elapsed =>
    cases ht
    exact onResult_tickDebounce h elapsed
  | drain =>
    cases ht
    exact onResult_drain h
  | reply call hits =>
    obtain ⟨query,-,ht⟩ := Option.bind_eq_some_iff.mp ht
    obtain ⟨-,⟨⟩⟩ := Option.ite_none_right_eq_some.mp ht
    exact h

theorem Valid.searched (h : s.Valid) {op : SearchStateStep} {search : SearchState}
    (hsearch : s.search.step (fun _ _ => true) op = some search) : Stays (s.searchStep op) := by
  rw [Screen.searchStep,hsearch]
  exact (h.setSearch (onResult_step h.search hsearch)).stays

theorem Valid.trySearch (h : s.Valid) (ht : t.Valid) (op : SearchStateStep) :
    ((s.searchStep op).getD t).Valid := by
  cases hsearch : s.search.step (fun _ _ => true) op with
  | none =>
    rw [Screen.searchStep,hsearch]
    exact ht
  | some search =>
    obtain ⟨u,hu,hvalid⟩ := h.searched hsearch
    rwa [hu]

theorem valid_initialAppState (session : SessionId) (pane : PaneId) (recentBlocks : List BlockId)
    {theme : Theme} (htheme : theme ∈ Registry.builtin) (toastsEnabled : Bool) :
    (initialAppState session pane recentBlocks theme toastsEnabled).Valid where
  app := by
    refine ⟨by simp [initialAppState],fun sv hsv => ?_⟩
    obtain rfl := List.mem_singleton.mp hsv
    exact SessionView.valid_single session pane nilWindow
  fresh slot hslot := by
    have hne : slot ≠ 0 := Nat.pos_iff_ne_zero.mp hslot
    simp [initialAppState,hne]
  scrolled slot := by
    by_cases hslot : slot = 0 <;> simp [initialAppState,SlotView.attached,hslot]
  menu := nofun
  picker := nofun
  unpicked _ := rfl
  theme := htheme
  chosen := htheme
  search := onResult_closed rfl
  sidebar := Nat.le_refl _

/-! ### The overlays -/

theorem Valid.helpKey (h : s.Valid) (code : KeyCode) : (s.helpKey code).Valid := by
  unfold Screen.helpKey
  split
  · exact { h with }
  · exact h

theorem Valid.rename (h : s.Valid) {done : Option Screen} (hdone : Stays done)
    (renamed : Except RpcError Unit) : Stays (s.rename done renamed) := by
  unfold Screen.rename
  split
  · exact hdone
  · exact (h.say _).stays
  · exact (h.say _).stays

theorem Valid.splitActive (h : s.Valid) (orient : Orient) (a : Answers) :
    Stays (s.ofApp (s.app.splitActive orient a.split a.attached)) := by
  obtain ⟨app,happ,hvalid⟩ := h.app.splitActive a.attached orient a.split
  exact h.ofApp ⟨app,happ,hvalid,AppState.keepsSlots_splitActive happ⟩

theorem Valid.openNewTab (h : s.Valid) (a : Answers) :
    Stays (s.ofApp (s.app.openNewTab a.window a.pane a.attached)) := by
  obtain ⟨app,happ,hvalid⟩ := h.app.openNewTab a.attached a.window a.pane
  exact h.ofApp ⟨app,happ,hvalid,AppState.keepsSlots_openNewTab happ⟩

theorem Valid.submit (h : s.Valid) (a : Answers) (p : NamePrompt) : Stays (s.submit a p) := by
  have hclosed (submitted : List (PromptKind × Option Text)) :
      ({ s with prompt := none, submitted } : Screen).Valid := { h with }
  obtain ⟨kind,input⟩ := p
  cases kind with
  | newSession =>
    exact ((hclosed _).setApp (h.app.openNewSession a.attached a.session)
      (AppState.keepsSlots_openNewSession s.app a.session a.attached)).stays
  | newTab => exact (hclosed _).openNewTab a
  | renameSession id =>
    simp only [Screen.submit]
    split
    · exact (hclosed _).stays
    · exact (hclosed _).rename (hclosed _).stays a.renamed
  | renameWindow id =>
    obtain ⟨sv,-,hview,-⟩ := h.app.activeView
    simp only [Screen.submit,hview,Option.map_some]
    split
    · exact (hclosed _).stays
    · exact (hclosed _).rename (hclosed _).stays a.renamed

theorem Valid.promptKey (h : s.Valid) (a : Answers) (p : NamePrompt) (code : KeyCode) :
    Stays (s.promptKey a p code) := by
  have hprompt (prompt : Option NamePrompt) : ({ s with prompt } : Screen).Valid := { h with }
  unfold Screen.promptKey
  split
  · exact (hprompt _).stays
  · exact (hprompt _).stays
  · exact h.submit a p
  · exact (hprompt _).stays
  · exact h.stays

theorem Valid.closed (h : s.Valid) {r : Option AppState} (action : AppState → KeyAction)
    (hr : ∃ app, r = some app ∧ (app.sessions = [] ∨ app.Valid True) ∧ s.app.KeepsSlots app) :
    Ends (r.map fun app => ({ s with app },action app)) := by
  obtain ⟨app,rfl,hvalid,hkeeps⟩ := hr
  exact ⟨_,_,rfl,hvalid.imp_right fun hvalid => h.setApp hvalid hkeeps⟩

theorem Valid.runItem (h : s.Valid) (a : Answers) {target : Nat}
    (htarget : target < s.app.slots.length) (item : MenuItem) : Ends (s.runItem a target item) := by
  cases item with
  | copy =>
    simp only [Screen.runItem]
    split
    · exact h.ends .go
    · split
      · exact h.ends .go
      · exact (h.say _).ends .go
  | killPane => exact h.closed _ (h.app.closeSlot target)
  | splitH => exact (h.splitActive .horizontal a).ends
  | splitV => exact (h.splitActive .vertical a).ends
  | zoomToggle => exact (h.ofApp h.app.toggleZoom).ends
  | inspectPid =>
    simp only [Screen.runItem,List.getElem?_eq_getElem htarget,Option.map_some]
    split
    · exact h.ends .go
    · split
      · exact ⟨_,_,rfl,.inr { h with }⟩
      · exact (h.say _).ends .go
      · exact (h.say _).ends .go

theorem Valid.noMenu (h : s.Valid) : ({ s with contextMenu := none } : Screen).Valid :=
  { h with menu := nofun }

theorem Valid.setMenu (h : s.Valid) {cursor target : Nat} (hcursor : cursor < menuItems.length)
    (htarget : target < s.app.slots.length) :
    ({ s with contextMenu := some ⟨cursor,target⟩ } : Screen).Valid :=
  { h with menu := fun _ hm => by cases hm; exact ⟨hcursor,htarget⟩ }

theorem Valid.menuKey (h : s.Valid) (a : Answers) {m : ContextMenu} (hm : s.contextMenu = some m)
    (code : KeyCode) : Ends (s.menuKey a m code) := by
  obtain ⟨hcursor,htarget⟩ := h.menu m hm
  have hdown : min (m.cursor + 1) (menuItems.length - 1) < menuItems.length := by omega
  unfold Screen.menuKey
  split
  · exact h.noMenu.ends .go
  · exact h.noMenu.ends .go
  · exact (h.setMenu ((Nat.sub_le _ _).trans_lt hcursor) htarget).ends .go
  · exact (h.setMenu ((Nat.sub_le _ _).trans_lt hcursor) htarget).ends .go
  · exact (h.setMenu hdown htarget).ends .go
  · exact (h.setMenu hdown htarget).ends .go
  · rw [List.getElem?_eq_getElem hcursor,Option.bind_some]
    exact h.noMenu.runItem a htarget _
  · exact h.ends .go

/-! ### The theme picker -/

theorem get_of_mem {name : String} (h : name ∈ Registry.names) :
    ∃ t ∈ Registry.builtin, Registry.get name = some t ∧ t.name = name := by
  obtain ⟨t,ht,rfl⟩ := List.mem_map.mp h
  cases hfound : Registry.get t.name with
  | none => simpa using List.find?_eq_none.mp hfound t ht
  | some u =>
    have hname : u.name = t.name := by simpa using List.find?_some hfound
    exact ⟨u,List.mem_of_find?_eq_some hfound,rfl,hname⟩

/-- The default is there, whatever is configured. -/
theorem startTheme_mem (name : Option String) :
    ∃ t ∈ Registry.builtin, Registry.startTheme name = some t := by
  cases hfound : Registry.get (name.getD Registry.defaultTheme) with
  | none =>
    obtain ⟨t,ht,hget,-⟩ := get_of_mem (show Registry.defaultTheme ∈ Registry.names by decide)
    exact ⟨t,ht,by rw [Registry.startTheme,hfound,hget]; rfl⟩
  | some t =>
    exact ⟨t,List.mem_of_find?_eq_some hfound,by rw [Registry.startTheme,hfound]; rfl⟩

theorem Valid.preview (h : s.Valid) {p : ThemePicker} (hp : s.themePicker = some p)
    {cursor : Nat} (hcursor : cursor < p.names.length) : Stays (s.preview p cursor) := by
  obtain ⟨hnames,-,horiginal⟩ := h.picker p hp
  have hname : p.names[cursor]? = some p.names[cursor] := List.getElem?_eq_getElem hcursor
  have hmem : p.names[cursor] ∈ Registry.names := by
    rw [← hnames]
    exact List.mem_of_getElem? hname
  obtain ⟨t,ht,hget,htname⟩ := get_of_mem hmem
  rw [Screen.preview,hname,Option.map_some,hget,Option.getD_some]
  refine ⟨_,rfl,{ h with picker := ?_, unpicked := nofun, theme := ht }⟩
  rintro - ⟨⟩
  exact ⟨hnames,by rw [hname,htname],horiginal⟩

theorem Valid.unpick (h : s.Valid) {theme : Theme} (htheme : theme = s.chosen) :
    ({ s with themePicker := none, theme } : Screen).Valid :=
  { h with
    picker := nofun
    unpicked := fun _ => htheme
    theme := htheme ▸ h.chosen }

theorem Valid.choose (h : s.Valid) {theme : Theme} (htheme : theme ∈ Registry.builtin) :
    ({ s with themePicker := none, theme, chosen := theme } : Screen).Valid :=
  { h with
    picker := nofun
    unpicked := fun _ => rfl
    theme := htheme
    chosen := htheme }

theorem Valid.pickerKey (h : s.Valid) (a : Answers) {p : ThemePicker}
    (hp : s.themePicker = some p) (code : KeyCode) : Stays (s.pickerKey a p code) := by
  obtain ⟨hnames,hshown,horiginal⟩ := h.picker p hp
  have hcursor : p.cursor < p.names.length := (List.getElem?_eq_some_iff.mp hshown).1
  unfold Screen.pickerKey
  split
  · exact (h.unpick horiginal).stays
  · exact (h.unpick horiginal).stays
  · exact h.preview hp (by omega)
  · exact h.preview hp (by omega)
  · exact h.preview hp (by omega)
  · exact h.preview hp (by omega)
  · obtain ⟨t,ht,hget,-⟩ := get_of_mem (hnames ▸ List.mem_of_getElem? hshown)
    rw [hshown,Option.map_some,hget]
    exact ((h.choose ht).say _).stays
  · exact h.stays

theorem Valid.pagerKey (h : s.Valid) (p : Pager) (height : Nat) (code : KeyCode) :
    (s.pagerKey p height code).Valid := by
  have hpager (pager : Option Pager) : ({ s with pager } : Screen).Valid := { h with }
  unfold Screen.pagerKey
  split <;> exact hpager _

theorem Valid.openPicker (h : s.Valid) (hno : s.themePicker = none) : s.openPicker.Valid := by
  have hmem : s.theme.name ∈ Registry.names := List.mem_map_of_mem h.theme
  obtain ⟨i,hi⟩ := Option.isSome_iff_exists.mp (List.isSome_idxOf?.mpr hmem)
  obtain ⟨hlt,hname,-⟩ := List.idxOf?_eq_some_iff.mp hi
  refine { h with picker := ?_, unpicked := nofun }
  rintro - ⟨⟩
  refine ⟨rfl,?_,h.unpicked hno⟩
  rw [hi,Option.getD_some]
  exact List.getElem?_eq_some_iff.mpr ⟨hlt,hname⟩

/-! ### Search -/

theorem Valid.jump (h : s.Valid) (hit : BlockHit) : (s.jump hit).Valid := by
  unfold Screen.jump
  split
  · exact h.say _
  · rename_i si ti slot htarget
    have hjumped : ({ s with app := s.app.jumpTo si ti hit.pane } : Screen).Valid :=
      h.setApp (h.app.jumpTo (AppState.jumpTarget_mem htarget)) (.of_eq rfl)
    simp only
    split
    · exact hjumped
    · exact hjumped.setRibbonOf slot _

theorem search_modifyView (slot : Nat) (f : SlotView → SlotView) :
    (s.modifyView slot f).search = s.search := by
  unfold Screen.modifyView
  split <;> rfl

theorem search_jump (hit : BlockHit) : (s.jump hit).search = s.search := by
  unfold Screen.jump
  split
  · rfl
  · simp only
    split
    · rfl
    · rw [search_modifyView]

theorem Valid.searchKey (h : s.Valid) (hopened : s.search.opened) (code : KeyCode)
    (mods : KeyModifiers) : Stays (s.searchKey code mods) := by
  unfold Screen.searchKey
  split
  · exact h.searched (if_pos hopened)
  · split
    · exact h.searched (if_pos hopened)
    · rename_i hhits
      have hcursor := (h.search hopened).resolve_left hhits
      rw [List.getElem?_eq_getElem hcursor,Option.bind_some]
      refine (h.jump _).searched (if_pos ?_)
      rwa [search_jump]
  · exact h.searched (if_pos hopened)
  · exact h.searched (if_pos hopened)
  · exact h.searched (if_pos hopened)
  · split
    · exact h.searched (if_pos hopened)
    · split
      · exact h.searched (if_pos hopened)
      · exact h.searched (if_pos hopened)
  · exact h.stays

/-! ### Keys -/

theorem Valid.setRibbon (h : s.Valid) (cursor : SlotView → Option Nat) :
    Stays (s.setRibbon cursor) := by
  refine h.onFocused fun place _ => ?_
  split
  · exact h
  · exact h.setRibbonOf _ cursor

theorem Valid.copyLast (h : s.Valid) (a : Answers) : Stays (s.copyLast a) := by
  refine h.onFocused fun place _ => ?_
  split
  · exact h
  · split
    · exact h.say _
    · split
      · split <;> exact h.say _
      · exact h.say _
      · exact h.say _

theorem Valid.prefixKey (h : s.Valid) (hno : s.themePicker = none) (a : Answers)
    (code : KeyCode) : Ends (s.prefixKey a code) := by
  unfold Screen.prefixKey
  split
  · exact h.ends .quit
  · exact h.ends .detach
  · exact ⟨_,_,rfl,.inr { h with }⟩
  · exact (h.openNewTab a).ends
  · exact (h.ofApp (h.app.turnTab _)).ends
  · exact (h.ofApp (h.app.turnTab _)).ends
  · exact (h.splitActive .horizontal a).ends
  · exact (h.splitActive .vertical a).ends
  · exact (h.ofApp (h.app.focusNext true)).ends
  · exact (h.ofApp (h.app.focusNext true)).ends
  · exact (h.ofApp (h.app.focusNext false)).ends
  · exact (h.ofApp (h.app.focusNext false)).ends
  · exact (h.setRibbon _).ends
  · exact (h.setRibbon _).ends
  · exact ⟨_,_,rfl,.inr { h with search := fun _ => .inl rfl }⟩
  · exact (h.ofApp h.app.toggleZoom).ends
  · exact (h.copyLast a).ends
  · exact h.closed _ h.app.closeFocused
  · exact ⟨_,_,rfl,.inr { h with }⟩
  · exact ⟨_,_,rfl,.inr { h with }⟩
  · exact (h.openPicker hno).ends .go
  · obtain ⟨sv,-,hview,-⟩ := h.app.activeView
    rw [hview,Option.map_some]
    exact ⟨_,_,rfl,.inr { h with }⟩
  · obtain ⟨-,-,tab,-,-,-,htab,-⟩ := h.app.activeTab
    rw [htab,Option.map_some]
    exact ⟨_,_,rfl,.inr { h with }⟩
  · exact ⟨_,_,rfl,.inr { h with }⟩
  · exact h.ends .go

theorem Valid.focusIn (h : s.Valid) {tab : Tab} (htab : s.app.activeTab = some tab)
    {pane : PaneId} (hmem : pane ∈ tab.root.allLeaves) :
    Stays (s.ofApp (s.app.modifyActive fun tab => { tab with focusPane := pane })) := by
  refine h.ofApp (h.app.focusIn fun tab' htab' => ?_)
  obtain rfl := Option.some.inj (htab.symm.trans htab')
  exact hmem

theorem Valid.focusListed (h : s.Valid) : Stays s.focusListed := by
  unfold Screen.focusListed
  split
  · exact h.stays
  · obtain ⟨-,-,tab,-,-,-,htab,-⟩ := h.app.activeTab
    rw [htab,Option.bind_some]
    have hleft : ({ s with sidebarFocused := false } : Screen).Valid := { h with }
    split
    · rename_i hmem
      exact hleft.focusIn htab hmem
    · exact (h.say _).stays

theorem Valid.send (h : s.Valid) (slot : Nat) (pane : PaneId) (bytes : Bytes) :
    (s.send slot pane bytes).Valid :=
  { h.modifyView slot (f := fun v => { v with scrollOffset := 0 }) fun _ _ => Nat.zero_le _ with }

theorem Valid.ribbonKey (h : s.Valid) (a : Answers) (slot cursor : Nat) (code : KeyCode) :
    (s.ribbonKey a slot cursor code).Valid := by
  unfold Screen.ribbonKey
  split
  · exact h.setRibbonOf slot _
  · exact h.setRibbonOf slot _
  · exact h.setRibbonOf slot _
  · exact h.setRibbonOf slot _
  · exact h.setRibbonOf slot _
  · simp only
    split
    · exact h
    · unfold Screen.openPager
      split
      · exact { h with }
      · exact h.say _
      · exact h.say _
  · exact h

theorem Valid.paneKey (h : s.Valid) (a : Answers) (height : Nat) (code : KeyCode)
    (mods : KeyModifiers) : Stays (s.paneKey a height code mods) := by
  refine h.onFocused fun place _ => ?_
  split
  · exact h
  · simp only
    split
    · exact h.ribbonKey a _ _ code
    · split
      · exact h.modifyView _ fun _ _ => Nat.min_le_right _ _
      · split
        · exact h.modifyView _ fun _ hv => (Nat.sub_le _ _).trans hv
        · split
          · exact h
          · exact h.send _ _ _

theorem Valid.plainKey (h : s.Valid) (a : Answers) (height : Nat) (code : KeyCode)
    (mods : KeyModifiers) : Stays (s.plainKey a height code mods) := by
  unfold Screen.plainKey
  split
  · unfold Screen.sidebarKey
    split
    · exact ⟨_,rfl,{ h with sidebar := (Nat.sub_le _ _).trans h.sidebar }⟩
    · exact ⟨_,rfl,{ h with sidebar := Nat.min_le_right _ _ }⟩
    · exact h.focusListed
    · exact ⟨_,rfl,{ h with }⟩
    · exact h.paneKey a height code mods
  · exact h.paneKey a height code mods

theorem Valid.handleKey (h : s.Valid) (a : Answers) (height : Nat) (code : KeyCode)
    (mods : KeyModifiers) : Ends (s.handleKey a height code mods) := by
  unfold Screen.handleKey
  split
  · exact (h.helpKey code).ends .go
  · split
    · exact h.ends _
    · split
      · exact (h.promptKey a _ code).ends
      · rename_i hm
        exact h.menuKey a hm code
      · rename_i hp
        exact (h.pickerKey a hp code).ends
      · exact (h.pagerKey _ height code).ends .go
      · rename_i hno _
        split
        · exact ⟨_,_,rfl,.inr { h with }⟩
        · split
          · have hprefix : ({ s with prefixActive := false } : Screen).Valid := { h with }
            exact hprefix.prefixKey hno a code
          · split
            · rename_i hopened
              exact (h.searchKey hopened code mods).ends
            · exact (h.plainKey a height code mods).ends

/-! ### What is taken over, and the frame -/

theorem Valid.drain (h : s.Valid) (map : PaneId → Option (List BlockId)) :
    ({ s with views := fun i => match s.app.slots[i]?.join with
      | none => s.views i
      | some pane => (s.views i).drain (map pane) } : Screen).Valid := by
  refine { h with fresh := fun slot hslot => ?_, scrolled := fun slot => ?_ }
  · simp only [List.getElem?_eq_none hslot]
    exact h.fresh slot hslot
  · simp only
    split
    · exact h.scrolled slot
    · unfold SlotView.drain
      split <;> exact h.scrolled slot

/-- Only closing panes and a list of sessions may leave none. -/
theorem Valid.news (h : s.Valid) (n : News) :
    ∃ t, s.news n = some t ∧ (t.app.sessions = [] ∨ t.Valid) := by
  cases n with
  | app e =>
    obtain ⟨app,happ,hvalid⟩ := h.app.handle (e := e) (.inl trivial)
    refine ⟨{ s with app },by rw [Screen.news,happ]; rfl,hvalid.imp_right fun hvalid => ?_⟩
    exact h.setApp hvalid (AppState.keepsSlots_handle happ)
  | blocks map => exact ⟨_,rfl,.inr (h.drain map)⟩
  | searchTick elapsed => exact ⟨_,rfl,.inr (h.setSearch (onResult_tickDebounce h.search elapsed))⟩
  | searchDrain => exact ⟨_,rfl,.inr (h.setSearch (onResult_drain h.search))⟩
  | searchReply call hits => exact ⟨_,rfl,.inr (h.trySearch h _)⟩
  | sidebar panes => exact ⟨_,rfl,.inr { h with sidebar := Nat.min_le_right _ _ }⟩

theorem Valid.drawPanes (h : s.Valid) (histories : List (Nat × Nat)) :
    (histories.foldl drawPane s).Valid :=
  foldl_keeps histories (fun _ _ hs => hs.modifyView _ fun _ _ => Nat.min_le_right _ _) h

theorem Valid.draw (h : s.Valid) (histories : List (Nat × Nat)) : Stays (s.draw histories) := by
  obtain ⟨sv,-,tab,-,hview,hti,-⟩ := h.app.activeTab
  unfold Screen.draw
  split
  · exact h.stays
  · rw [hview,Option.bind_some,hti]
    exact ⟨_,rfl,{ h.drawPanes histories with }⟩

theorem Valid.drawn (h : s.Valid) (histories : List (Nat × Nat)) : Stays (s.drawn histories) := by
  obtain ⟨app,happ,hvalid⟩ := h.app.detectLost
  exact (h.ofApp ⟨app,happ,hvalid,AppState.keepsSlots_detectLost happ⟩).bind fun t ht =>
    ht.draw histories

theorem app_drawPanes (histories : List (Nat × Nat)) (s : Screen) :
    (histories.foldl drawPane s).app = s.app := by
  induction histories generalizing s with
  | nil => rfl
  | cons p histories ih =>
    rw [List.foldl_cons,ih,drawPane,modifyView]
    split <;> rfl

/-! ### The mouse -/

/-- The chip of a strip that is clicked, or that a tab is dragged over, is one of those there
are. -/
def ChipThere (s : Screen) : MouseOp → Prop
  | .leftDown _ (.sessionChip chip) => chip < s.sessionChips → chip < s.app.sessions.length
  | .leftDown _ (.tabChip chip) | .leftDown _ (.tabClose chip) =>
    chip < s.tabChips → ∀ sv ∈ s.app.activeView, chip < sv.tabs.length
  | .dragTab source chip =>
    chip < s.tabChips ∧ chip ≠ source → ∀ sv ∈ s.app.activeView, chip < sv.tabs.length
  | _ => True

/-- The chips of a frame that was drawn in full are those there are. -/
theorem chipThere_drawn {histories : List (Nat × Nat)} (ht : s.drawn histories = some t)
    (hlost : ¬ t.app.sessionLost) (op : MouseOp) : t.ChipThere op := by
  obtain ⟨u,-,ht⟩ := Option.bind_eq_some_iff.mp ht
  unfold draw at ht
  split at ht
  · cases ht
    contradiction
  · obtain ⟨sv,hview,ht⟩ := Option.bind_eq_some_iff.mp ht
    obtain ⟨tab,-,rfl⟩ := Option.map_eq_some_iff.mp ht
    have hthere (chip : Nat) (hchip : chip < sv.tabs.length) :
        ∀ sv' ∈ (histories.foldl drawPane u).app.activeView, chip < sv'.tabs.length := by
      rw [app_drawPanes,hview]
      exact fun _ hsv' => Option.some.inj hsv' ▸ hchip
    unfold ChipThere
    split
    · rw [app_drawPanes]
      exact id
    · exact hthere _
    · exact hthere _
    · exact fun hchip => hthere _ hchip.1
    · trivial

theorem Valid.focusSlot (h : s.Valid) (slot : Nat) : Stays (s.ofApp (s.app.focusSlot slot)) := by
  obtain ⟨app,happ,hvalid⟩ := h.app.focusSlot slot
  exact h.ofApp ⟨app,happ,hvalid,AppState.keepsSlots_focusSlot happ⟩

theorem Valid.scroll (h : s.Valid) (wheel : Wheel) (pager : Pager → Pager)
    {offset : SlotView → Nat} (hoffset : ∀ v : SlotView, v.scrollOffset ≤ v.scrollbackCapacity →
      offset v ≤ v.scrollbackCapacity) : Stays (s.scroll wheel pager offset) := by
  unfold Screen.scroll
  split
  · exact h.stays
  · exact h.stays
  · exact ⟨_,rfl,{ h with }⟩
  · exact (h.focusSlot _).map fun t ht => ht.modifyView _ hoffset

theorem Valid.openMenu (h : s.Valid) (slot : Option Nat) : Stays (s.openMenu slot) := by
  unfold Screen.openMenu
  simp only
  split
  · exact h.noMenu.stays
  · rename_i slot hslot
    have hthere := (Option.filter_eq_some_iff.mp hslot).2
    obtain ⟨app,happ,hvalid⟩ := h.app.focusSlot slot
    have hkeeps := AppState.keepsSlots_focusSlot happ
    rw [happ]
    refine ⟨_,rfl,(h.setApp hvalid hkeeps).setMenu (by decide) ?_⟩
    exact (slot_lt (by simpa using hthere)).trans_le hkeeps

theorem Valid.searchJump (h : s.Valid) (row : Nat) : (s.searchJump row).Valid := by
  unfold Screen.searchJump
  split
  · exact h.setSearch (onResult_closed rfl)
  · exact (h.jump _).trySearch h _

theorem Valid.openMarked (h : s.Valid) (a : Answers) : Stays (s.openMarked a) := by
  refine h.onFocused fun place _ => ?_
  split
  · exact h
  · split
    · exact h
    · split
      · exact { h with }
      · exact h.say _
      · exact h.say _

theorem Valid.clickListed (h : s.Valid) (row : Nat) : Stays (s.clickListed row) := by
  unfold Screen.clickListed
  split
  · exact h.stays
  · rename_i pane hrow
    obtain ⟨-,-,tab,-,-,-,htab,-⟩ := h.app.activeTab
    have hlt := (List.getElem?_eq_some_iff.mp hrow).1
    have hon : ({ s with sidebarCursor := row, sidebarFocused := true } : Screen).Valid :=
      { h with sidebar := Nat.le_sub_one_of_lt hlt }
    rw [htab,Option.bind_some]
    split
    · rename_i hmem
      exact hon.focusIn htab hmem
    · exact hon.stays

theorem Valid.dismissMenu (h : s.Valid) (onMenu : Bool) : (s.dismissMenu onMenu).Valid := by
  unfold Screen.dismissMenu
  split
  · exact h
  · exact h.noMenu

/-- The screen is kept valid just where the step is that of a chip which is there. -/
theorem Valid.ends_iff_of_app (h : s.Valid) {r : Option AppState} {lt : Prop}
    (hr : ∃ app, r = some app ∧ s.app.KeepsSlots app ∧ app.sessions ≠ [] ∧
      (app.Valid True ↔ lt)) : Ends ((s.ofApp r).map (·,.go)) ↔ lt := by
  obtain ⟨app,rfl,hkeeps,hsome,hlt⟩ := hr
  refine Iff.trans ⟨?_,?_⟩ hlt
  · rintro ⟨t,action,⟨⟩,hvalid⟩
    exact (hvalid.resolve_left hsome).app
  · exact fun hvalid => (h.setApp hvalid hkeeps).stays.ends

theorem Ends.iff_true {r : Option (Screen × KeyAction)} {P : Prop} (h : Ends r) (hP : P) :
    Ends r ↔ P := iff_of_true h hP

theorem Valid.selectSession_iff (h : s.Valid) (chip : Nat) :
    Ends (some ({ s with app := { s.app with activeSession := chip } },.go)) ↔
      chip < s.app.sessions.length := by
  constructor
  · rintro ⟨t,action,⟨⟩,hnone | hvalid⟩
    · obtain ⟨sv,hsv,-⟩ := h.app.activeView
      exact absurd hnone (List.ne_nil_of_mem hsv)
    · exact hvalid.app.active
  · intro hlt
    have hselected : ({ s.app with activeSession := chip } : AppState).Valid True :=
      ⟨hlt,h.app.views⟩
    exact (h.setApp hselected (.of_eq rfl)).ends .go

theorem Valid.showTab_iff (h : s.Valid) (chip : Nat) :
    Ends ((s.ofApp (s.app.showTab chip)).map (·,.go)) ↔
      ∀ sv ∈ s.app.activeView, chip < sv.tabs.length := by
  obtain ⟨sv,app,hview,happ,hkeeps,hsome,hvalid⟩ := h.app.showTab chip
  exact h.ends_iff_of_app ⟨app,happ,hkeeps,hsome,hvalid.trans (by simp [hview])⟩

theorem Valid.dragTab_iff (h : s.Valid) (source chip : Nat) :
    Ends ((s.ofApp (s.app.dragTab source chip)).map (·,.go)) ↔
      ∀ sv ∈ s.app.activeView, chip < sv.tabs.length := by
  obtain ⟨sv,app,hview,happ,hkeeps,hsome,hvalid⟩ := h.app.dragTab source chip
  exact h.ends_iff_of_app ⟨app,happ,hkeeps,hsome,hvalid.trans (by simp [hview])⟩

theorem Valid.closeTab_iff (h : s.Valid) (chip : Nat) :
    Ends ((s.app.closeTab chip).map fun app =>
      ({ s with contextMenu := none, app },if app.sessions = [] then .quit else .go)) ↔
      ∀ sv ∈ s.app.activeView, chip < sv.tabs.length := by
  obtain ⟨sv,hview,hclose⟩ := h.app.closeTab chip
  simp only [hview,Option.mem_some_iff,forall_eq']
  split at hclose
  · rename_i hlt
    exact iff_of_true (h.noMenu.closed _ hclose) hlt
  · rename_i hout
    rw [hclose]
    exact iff_of_false (fun ⟨_,_,hnone,_⟩ => by cases hnone) hout

theorem Valid.click_iff (h : s.Valid) (a : Answers) (onMenu : Bool) (hit : Hit) :
    Ends (s.click a hit) ↔ s.ChipThere (.leftDown onMenu hit) := by
  cases hit with
  | menuItem item =>
    refine Ends.iff_true ?_ trivial
    simp only [Screen.click]
    split
    · exact h.ends .go
    · rename_i m hm
      have hlt : min item (menuItems.length - 1) < menuItems.length :=
        (Nat.min_le_right _ _).trans_lt (by decide)
      rw [List.getElem?_eq_getElem hlt,Option.bind_some]
      exact h.noMenu.runItem a (h.menu m hm).2 _
  | searchRow row =>
    refine Ends.iff_true ?_ trivial
    simp only [Screen.click]
    split
    · exact (h.searchJump row).ends .go
    · exact h.ends .go
  | sessionStrip => exact Ends.iff_true (h.noMenu.ends .go) trivial
  | tabStrip => exact Ends.iff_true (h.noMenu.ends .go) trivial
  | sessionPlus => exact Ends.iff_true ⟨_,_,rfl,.inr { h.noMenu with }⟩ trivial
  | tabPlus => exact Ends.iff_true ⟨_,_,rfl,.inr { h.noMenu with }⟩ trivial
  | sessionChip chip =>
    simp only [Screen.click,ChipThere]
    split
    · rename_i hchip
      exact (h.noMenu.selectSession_iff chip).trans (by simp [hchip])
    · rename_i hout
      exact Ends.iff_true (h.ends .go) fun hchip => absurd hchip hout
  | tabChip chip =>
    simp only [Screen.click,ChipThere]
    split
    · rename_i hchip
      exact (h.noMenu.showTab_iff chip).trans (by simp [hchip])
    · rename_i hout
      exact Ends.iff_true (h.ends .go) fun hchip => absurd hchip hout
  | tabClose chip =>
    simp only [Screen.click,ChipThere]
    split
    · rename_i hchip
      exact (h.closeTab_iff chip).trans (by simp [hchip])
    · rename_i hout
      exact Ends.iff_true (h.ends .go) fun hchip => absurd hchip hout
  | sidebarRow row =>
    refine Ends.iff_true (Stays.ends ?_) trivial
    split
    · exact h.clickListed row
    · exact h.stays
  | ribbonChip slot chip double =>
    refine Ends.iff_true (((h.focusSlot slot).bind fun t ht => ?_).ends) trivial
    have hmarked := ht.setRibbonOf slot fun _ => some chip
    simp only
    split
    · exact hmarked.openMarked a
    · exact hmarked.stays
  | pane slot => exact Ends.iff_true (h.focusSlot slot).ends trivial
  | nothing => exact Ends.iff_true (h.ends .go) trivial

theorem chipThere_dismissMenu (onMenu : Bool) (op : MouseOp) :
    (s.dismissMenu onMenu).ChipThere op ↔ s.ChipThere op := by
  unfold dismissMenu
  split <;> rfl

theorem Valid.handleMouse_iff (h : s.Valid) (a : Answers) (op : MouseOp) :
    Ends (s.handleMouse a op) ↔ s.ChipThere op := by
  cases op with
  | scrollUp wheel =>
    exact Ends.iff_true (h.scroll wheel _ fun _ _ => Nat.min_le_right _ _).ends trivial
  | scrollDown wheel visible =>
    exact Ends.iff_true (h.scroll wheel _ fun _ hv => (Nat.sub_le _ _).trans hv).ends trivial
  | rightDown slot => exact Ends.iff_true (h.openMenu slot).ends trivial
  | middleDown onMenu => exact Ends.iff_true ((h.dismissMenu onMenu).ends .go) trivial
  | leftDown onMenu hit =>
    exact ((h.dismissMenu onMenu).click_iff a onMenu hit).trans (chipThere_dismissMenu onMenu _)
  | dragTab source chip =>
    simp only [Screen.handleMouse,ChipThere]
    split
    · rename_i hchip
      exact (h.dragTab_iff source chip).trans (by simp [hchip])
    · rename_i hout
      exact Ends.iff_true (h.ends .go) fun hchip => absurd hchip hout

theorem Valid.paste (h : s.Valid) (text : Text) : Stays (s.paste text) := by
  refine h.onFocused fun place _ => ?_
  split
  · exact h
  · exact h.send _ _ _

theorem drawn_of_nil (hnil : s.app.sessions = []) (histories : List (Nat × Nat)) :
    s.drawn histories = none := by
  have hview : s.app.activeView = none := by simp [AppState.activeView,hnil]
  simp [drawn,AppState.detectLost,hview,ofApp]

end Screen

namespace Client
open Screen

/-- Where the loop has not panicked, either it is about to be left or the screen is valid. -/
def Valid : Client → Prop
  | running s | left s _ => s.app.sessions = [] ∨ s.Valid
  | panicked => False

/-- Under the lost overlay a chip is clicked only if it is still there. -/
def Current : Client → ClientOp → Prop
  | running s, .turn histories (some (.mouse op _)) =>
    ∀ t ∈ s.drawn histories, t.app.sessionLost → t.ChipThere op
  | _, _ => True

theorem valid_afterTurn_iff (r : Option (Screen × KeyAction)) :
    (afterTurn r).Valid ↔ Ends r := by
  constructor
  · intro h
    match r, h with
    | some (t,.go), h => exact ⟨t,.go,rfl,h⟩
    | some (t,.quit), h => exact ⟨t,.quit,rfl,h⟩
    | some (t,.detach), h => exact ⟨t,.detach,rfl,h⟩
  · rintro ⟨t,action,rfl,h⟩
    cases action <;> exact h

theorem turn_iff {s : Screen} (h : s.Valid) (histories : List (Nat × Nat))
    (input : Option Input) :
    Ends (s.turn histories input) ↔ (running s).Current (.turn histories input) := by
  obtain ⟨t,ht,hvalid⟩ := h.drawn histories
  rw [turn,ht,Option.bind_some]
  cases input with
  | none => exact Ends.iff_true (hvalid.ends .go) trivial
  | some input =>
    cases input with
    | key code mods height a => exact Ends.iff_true (hvalid.handleKey a height code mods) trivial
    | paste text => exact Ends.iff_true (hvalid.paste text).ends trivial
    | mouse op a =>
      refine (hvalid.handleMouse_iff a op).trans ⟨fun hthere u hu _ => ?_,fun hcurrent => ?_⟩
      · obtain rfl := Option.some.inj (ht.symm.trans hu)
        exact hthere
      · by_cases hlost : t.app.sessionLost
        · exact hcurrent t ht hlost
        · exact chipThere_drawn ht hlost op

theorem current_of_nil {s : Screen} (hnil : s.app.sessions = []) (histories : List (Nat × Nat))
    (input : Option Input) : (running s).Current (.turn histories input) := by
  match input with
  | none | some (.key _ _ _ _) | some (.paste _) => trivial
  | some (.mouse op a) =>
    intro t ht
    rw [drawn_of_nil hnil] at ht
    cases ht

theorem step_valid_iff {c : Client} (hc : c.Valid) (op : ClientOp) :
    c.Current op ↔ ∀ d, c.step op = some d → d.Valid := by
  match c, op with
  | left _ _, _ =>
    refine iff_of_true trivial fun d hd => ?_
    cases hd
  | panicked, _ => exact hc.elim
  | running s, .news n =>
    refine iff_of_true trivial fun d hd => ?_
    rw [step,Option.ite_none_left_eq_some,Option.some.injEq] at hd
    obtain ⟨hsome,rfl⟩ := hd
    obtain ⟨t,ht,hvalid⟩ := (hc.resolve_left hsome).news n
    rw [ht]
    exact hvalid
  | running s, .turn histories input =>
    by_cases hnil : s.app.sessions = []
    · refine iff_of_true (current_of_nil hnil histories input) fun d hd => ?_
      rw [step,if_pos hnil] at hd
      cases hd
    · rw [step,if_neg hnil,← turn_iff (hc.resolve_left hnil),← valid_afterTurn_iff]
      simp

/-- A second session is opened, and both are drawn; then the daemon has only the first one left,
without its pane, and its overlay covers the strip with the two chips. -/
def lostSecond : List ClientOp :=
  [.turn [] (some (.key (.char ' ') .justControl 24 .opened)),
    .turn [] (some (.key (.char 'S') .none 24 .opened)),
    .turn [] (some (.key .enter .none 24 .opened)),
    .turn [] none,
    .news (.app (.syncSessions [⟨⟨1⟩,1,none,some [],none⟩] fun _ => true)),
    .turn [] (some (.mouse (.leftDown false (.sessionChip 1)) .opened))]

theorem valid_ember : ember.Valid := valid_initialAppState _ _ _ List.mem_cons_self _

/-- The chip that is gone is taken for a session, and the next turn indexes out of bounds. -/
theorem stale_chip_panics : exec step (running ember) (lostSecond ++ [.turn [] none]) =
    some panicked := by
  rfl

end Client

end Pyre.Tui
