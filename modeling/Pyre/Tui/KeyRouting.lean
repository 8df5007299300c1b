import Pyre.Tui.Turns

/-!
Where the keys go. What is typed reaches the pane in focus unless something of the client takes
it; over a whole run the panes are handed just that and the pastes, in order.
-/

set_option autoImplicit false

namespace Pyre.Tui
open Base Search

namespace Screen

/-- Something that takes all keys is shown over the panes. -/
def Covered (s : Screen) : Prop :=
  s.helpOpen ∨ s.app.sessionLost ∨ s.prompt ≠ none ∨ s.contextMenu ≠ none ∨
    s.themePicker ≠ none ∨ s.pager ≠ none ∨ s.search.opened

/-- The ribbon of the pane in focus has the cursor. -/
def OnRibbon (s : Screen) : Prop :=
  ∃ place ∈ s.focused.join, (s.views place.1).ribbonCursor.isSome

/-- The keys that move in the sidebar. -/
def SidebarTakes (s : Screen) (code : KeyCode) : Prop :=
  s.sidebarOpen ∧ s.sidebarFocused ∧ code ∈ [.up,.down,.enter,.esc]

/-- The keys that scroll the pane. -/
def Scrolls (code : KeyCode) (mods : KeyModifiers) : Prop :=
  mods = .none ∧ (code = .pageUp ∨ code = .pageDown)

/-- The key is for the client and not for a pane. -/
def Takes (s : Screen) (code : KeyCode) (mods : KeyModifiers) : Prop :=
  s.Covered ∨ s.prefixActive ∨ isPrefix code mods ∨ s.SidebarTakes code ∨ s.OnRibbon ∨
    Scrolls code mods

instance (s : Screen) : Decidable s.Covered := by unfold Covered; infer_instance

instance (s : Screen) : Decidable s.OnRibbon :=
  inferInstanceAs (Decidable (∃ place ∈ s.focused.join, _))

instance (s : Screen) (code : KeyCode) : Decidable (s.SidebarTakes code) := by
  unfold SidebarTakes; infer_instance

instance (code : KeyCode) (mods : KeyModifiers) : Decidable (Scrolls code mods) := by
  unfold Scrolls; infer_instance

instance (s : Screen) (code : KeyCode) (mods : KeyModifiers) : Decidable (s.Takes code mods) := by
  unfold Takes; infer_instance

/-- The pane in focus, if the client is attached to it. -/
def target (s : Screen) : Option PaneId := s.focused.join.map Prod.snd

/-- A key that is left to the pane. -/
def typed (s : Screen) (code : KeyCode) (mods : KeyModifiers) : List (PaneId × Bytes) :=
  s.target.toList.flatMap fun pane => (keyToBytes code mods).toList.map fun b => (pane,b)

/-- What an input hands to a pane. -/
def delivery (s : Screen) : Input → List (PaneId × Bytes)
  | .key code mods _ _ => if s.Takes code mods then [] else s.typed code mods
  | .paste text => s.target.toList.map fun pane => (pane,bracketed text)
  | .mouse _ _ => []

end Screen

namespace Client

def screen : Client → Option Screen
  | running s | left s _ => some s
  | panicked => none

def delivery : Client → ClientOp → List (PaneId × Bytes)
  | running s, .turn histories (some input) =>
    (s.drawn histories).toList.flatMap fun t => t.delivery input
  | _, _ => []

/-- What a run hands to the panes. -/
def delivered : Client → List ClientOp → List (PaneId × Bytes)
  | _, [] => []
  | c, op :: ops => c.delivery op ++ (c.step op).elim [] fun d => d.delivered ops

end Client

namespace Screen

variable {s t : Screen}

/-- Nothing is handed to a pane. -/
def Quiet (s : Screen) (r : Option Screen) : Prop := ∀ t ∈ r, t.sent = s.sent

def QuietKey (s : Screen) (r : Option (Screen × KeyAction)) : Prop := ∀ t ∈ r, t.1.sent = s.sent

theorem quiet_some (h : t.sent = s.sent) : s.Quiet (some t) := fun _ hu => Option.some.inj hu ▸ h

theorem quietKey_some (h : t.sent = s.sent) (action : KeyAction) : s.QuietKey (some (t,action)) :=
  fun _ hu => Option.some.inj hu ▸ h

theorem Quiet.key {r : Option Screen} (h : s.Quiet r) : s.QuietKey (r.map (·,.go)) := by
  intro u hu
  obtain ⟨t,ht,rfl⟩ := Option.map_eq_some_iff.mp hu
  exact h t ht

theorem Quiet.of_sent {u : Screen} {r : Option Screen} (h : u.Quiet r) (hu : u.sent = s.sent) :
    s.Quiet r := fun t ht => (h t ht).trans hu

theorem QuietKey.of_sent {u : Screen} {r : Option (Screen × KeyAction)} (h : u.QuietKey r)
    (hu : u.sent = s.sent) : s.QuietKey r := fun t ht => (h t ht).trans hu

theorem quiet_bind {α : Type} {r : Option α} {f : α → Option Screen} (hf : ∀ a, s.Quiet (f a)) :
    s.Quiet (r.bind f) := by
  intro u hu
  obtain ⟨a,-,hu⟩ := Option.bind_eq_some_iff.mp hu
  exact hf a u hu

theorem quiet_map {α : Type} {r : Option α} {f : α → Screen} (hf : ∀ a, (f a).sent = s.sent) :
    s.Quiet (r.map f) := by
  intro u hu
  obtain ⟨a,-,rfl⟩ := Option.map_eq_some_iff.mp hu
  exact hf a

theorem quietKey_map {α : Type} {r : Option α} {f : α → Screen × KeyAction}
    (hf : ∀ a, (f a).1.sent = s.sent) : s.QuietKey (r.map f) := by
  intro u hu
  obtain ⟨a,-,rfl⟩ := Option.map_eq_some_iff.mp hu
  exact hf a

theorem quietKey_bind {α : Type} {r : Option α} {f : α → Option (Screen × KeyAction)}
    (hf : ∀ a, s.QuietKey (f a)) : s.QuietKey (r.bind f) := by
  intro u hu
  obtain ⟨a,-,hu⟩ := Option.bind_eq_some_iff.mp hu
  exact hf a u hu

theorem quiet_ofApp (r : Option AppState) : s.Quiet (s.ofApp r) := quiet_map fun _ => rfl

@[simp] theorem sent_modifyView (s : Screen) (slot : Nat) (f : SlotView → SlotView) :
    (s.modifyView slot f).sent = s.sent := by
  unfold modifyView
  split <;> rfl

/-! ### Keys that are taken -/

theorem sent_helpKey (code : KeyCode) : (s.helpKey code).sent = s.sent := by
  unfold helpKey
  split <;> rfl

theorem quiet_rename {done : Option Screen} (h : s.Quiet done) (renamed : Except RpcError Unit) :
    s.Quiet (s.rename done renamed) := by
  unfold rename
  split
  · exact h
  · exact quiet_some rfl
  · exact quiet_some rfl

theorem quiet_submit (a : Answers) (p : NamePrompt) : s.Quiet (s.submit a p) := by
  unfold submit
  simp only
  split
  · exact quiet_some rfl
  · exact (quiet_ofApp _).of_sent rfl
  · split
    · exact quiet_some rfl
    · exact (quiet_rename (quiet_some rfl) _).of_sent rfl
  · split
    · exact quiet_some rfl
    · exact (quiet_rename (quiet_map fun _ => rfl) _).of_sent rfl

theorem quiet_promptKey (a : Answers) (p : NamePrompt) (code : KeyCode) :
    s.Quiet (s.promptKey a p code) := by
  unfold promptKey
  split
  · exact quiet_some rfl
  · exact quiet_some rfl
  · exact quiet_submit a p
  · exact quiet_some rfl
  · exact quiet_some rfl

theorem quietKey_runItem (a : Answers) (target : Nat) (item : MenuItem) :
    s.QuietKey (s.runItem a target item) := by
  cases item with
  | copy =>
    simp only [runItem]
    split
    · exact quietKey_some rfl _
    · refine quietKey_some ?_ _
      split <;> rfl
  | killPane => exact quietKey_map fun _ => rfl
  | splitH => exact (quiet_ofApp _).key
  | splitV => exact (quiet_ofApp _).key
  | zoomToggle => exact (quiet_ofApp _).key
  | inspectPid =>
    refine quietKey_map fun pane => ?_
    split
    · rfl
    · split <;> rfl

theorem quietKey_menuKey (a : Answers) (m : ContextMenu) (code : KeyCode) :
    s.QuietKey (s.menuKey a m code) := by
  unfold menuKey
  split
  · exact quietKey_some rfl _
  · exact quietKey_some rfl _
  · exact quietKey_some rfl _
  · exact quietKey_some rfl _
  · exact quietKey_some rfl _
  · exact quietKey_some rfl _
  · exact quietKey_bind fun item => (quietKey_runItem a _ item).of_sent rfl
  · exact quietKey_some rfl _

theorem quiet_pickerKey (a : Answers) (p : ThemePicker) (code : KeyCode) :
    s.Quiet (s.pickerKey a p code) := by
  unfold pickerKey
  split
  · exact quiet_some rfl
  · exact quiet_some rfl
  · exact quiet_map fun _ => rfl
  · exact quiet_map fun _ => rfl
  · exact quiet_map fun _ => rfl
  · exact quiet_map fun _ => rfl
  · refine quiet_map fun name => ?_
    simp only
    split <;> rfl
  · exact quiet_some rfl

theorem sent_pagerKey (p : Pager) (height : Nat) (code : KeyCode) :
    (s.pagerKey p height code).sent = s.sent := by
  unfold pagerKey
  split <;> rfl

theorem sent_jump (hit : BlockHit) : (s.jump hit).sent = s.sent := by
  unfold jump
  split
  · rfl
  · simp only
    split
    · rfl
    · rw [sent_modifyView]

theorem quiet_searchStep (op : SearchStateStep) : s.Quiet (s.searchStep op) :=
  quiet_map fun _ => rfl

theorem quiet_searchKey (code : KeyCode) (mods : KeyModifiers) :
    s.Quiet (s.searchKey code mods) := by
  unfold searchKey
  split
  · exact quiet_searchStep _
  · split
    · exact quiet_searchStep _
    · exact quiet_bind fun hit => (quiet_searchStep _).of_sent (sent_jump hit)
  · exact quiet_searchStep _
  · exact quiet_searchStep _
  · exact quiet_searchStep _
  · split
    · exact quiet_searchStep _
    · split <;> exact quiet_searchStep _
  · exact quiet_some rfl

theorem quiet_setRibbon (cursor : SlotView → Option Nat) : s.Quiet (s.setRibbon cursor) := by
  refine quiet_map fun place => ?_
  split
  · rfl
  · rw [sent_modifyView]

theorem quiet_copyLast (a : Answers) : s.Quiet (s.copyLast a) := by
  refine quiet_map fun place => ?_
  split
  · rfl
  · split
    · rfl
    · split
      · split <;> rfl
      · rfl
      · rfl

theorem quietKey_prefixKey (a : Answers) (code : KeyCode) : s.QuietKey (s.prefixKey a code) := by
  unfold prefixKey
  split
  all_goals first
    | exact quietKey_some rfl _
    | exact (quiet_ofApp _).key
    | exact quietKey_map fun _ => rfl
    | exact (quiet_setRibbon _).key
    | exact (quiet_copyLast a).key

theorem quiet_focusListed : s.Quiet s.focusListed := by
  unfold focusListed
  split
  · exact quiet_some rfl
  · refine quiet_bind fun tab => ?_
    split
    · exact (quiet_ofApp _).of_sent rfl
    · exact quiet_some rfl

theorem sent_ribbonKey (a : Answers) (slot cursor : Nat) (code : KeyCode) :
    (s.ribbonKey a slot cursor code).sent = s.sent := by
  unfold ribbonKey
  split
  · exact sent_modifyView s slot _
  · exact sent_modifyView s slot _
  · exact sent_modifyView s slot _
  · exact sent_modifyView s slot _
  · exact sent_modifyView s slot _
  · simp only
    split
    · rfl
    · unfold openPager
      split <;> rfl
  · rfl

/-! ### Keys for the pane -/

theorem sent_send (slot : Nat) (pane : PaneId) (bytes : Bytes) :
    (s.send slot pane bytes).sent = s.sent ++ [(pane,bytes)] := rfl

theorem sent_paneKey {a : Answers} {height : Nat} {code : KeyCode} {mods : KeyModifiers}
    (ht : s.paneKey a height code mods = some t) : t.sent = s.sent ++
      if s.OnRibbon ∨ Scrolls code mods then [] else s.typed code mods := by
  obtain ⟨place,hplace,rfl⟩ := Option.map_eq_some_iff.mp ht
  match place with
  | none => simp [typed,target,hplace]
  | some (slot,pane) =>
    have hribbon : s.OnRibbon ↔ (s.views slot).ribbonCursor.isSome := by simp [OnRibbon,hplace]
    have htyped : s.typed code mods = (keyToBytes code mods).toList.map fun b => (pane,b) := by
      simp [typed,target,hplace]
    simp only
    split
    · rename_i cursor hcursor
      rw [sent_ribbonKey,if_pos (.inl (hribbon.mpr (by rw [hcursor]; rfl))),List.append_nil]
    · rename_i hcursor
      have hoff : ¬ s.OnRibbon := by simp [hribbon,hcursor]
      split
      · rename_i hup
        rw [sent_modifyView,if_pos (.inr ⟨hup.1,.inl hup.2⟩),List.append_nil]
      · rename_i hup
        split
        · rename_i hdown
          rw [sent_modifyView,if_pos (.inr ⟨hdown.1,.inr hdown.2⟩),List.append_nil]
        · rename_i hdown
          have hscrolls : ¬ Scrolls code mods := by
            rintro ⟨hmods,hcode | hcode⟩
            · exact hup ⟨hmods,hcode⟩
            · exact hdown ⟨hmods,hcode⟩
          rw [if_neg (by simp [hoff,hscrolls]),htyped]
          split
          · rename_i hnone
            simp [hnone]
          · rename_i bytes hbytes
            rw [hbytes]
            exact sent_send slot pane bytes

/-- What the sidebar leaves goes to the pane. -/
theorem sent_plainKey {a : Answers} {height : Nat} {code : KeyCode} {mods : KeyModifiers}
    (ht : s.plainKey a height code mods = some t) : t.sent = s.sent ++
      if s.SidebarTakes code ∨ s.OnRibbon ∨ Scrolls code mods then [] else s.typed code mods := by
  unfold plainKey at ht
  split at ht
  · rename_i hfocused
    unfold sidebarKey at ht
    split at ht
    · cases ht
      simp [SidebarTakes,hfocused]
    · cases ht
      simp [SidebarTakes,hfocused]
    · rw [quiet_focusListed t ht]
      simp [SidebarTakes,hfocused]
    · cases ht
      simp [SidebarTakes,hfocused]
    · have hleft : ¬ s.SidebarTakes code := by simp_all [SidebarTakes]
      rw [sent_paneKey ht]
      simp [hleft]
  · have hleft : ¬ s.SidebarTakes code := by simp_all [SidebarTakes]
    rw [sent_paneKey ht]
    simp [hleft]

theorem sent_handleKey {a : Answers} {height : Nat} {code : KeyCode} {mods : KeyModifiers}
    {action : KeyAction} (ht : s.handleKey a height code mods = some (t,action)) :
    t.sent = s.sent ++ s.delivery (.key code mods height a) := by
  have htaken {r : Option (Screen × KeyAction)} (ht : r = some (t,action)) (hr : s.QuietKey r)
      (htakes : s.Takes code mods) : t.sent = s.sent ++ s.delivery (.key code mods height a) := by
    rw [delivery,if_pos htakes,List.append_nil]
    exact hr _ ht
  unfold handleKey at ht
  split at ht
  · rename_i hhelp
    exact htaken ht (quietKey_some (sent_helpKey code) .go) (.inl (.inl hhelp))
  · split at ht
    · rename_i hlost
      exact htaken ht (quietKey_some rfl _) (.inl (.inr (.inl hlost)))
    · split at ht
      · rename_i hp
        exact htaken ht (quiet_promptKey a _ code).key (by simp [Takes,Covered,hp])
      · rename_i hm
        exact htaken ht (quietKey_menuKey a _ code) (by simp [Takes,Covered,hm])
      · rename_i hp
        exact htaken ht (quiet_pickerKey a _ code).key (by simp [Takes,Covered,hp])
      · rename_i hp
        exact htaken ht (quietKey_some (sent_pagerKey _ height code) .go)
          (by simp [Takes,Covered,hp])
      · split at ht
        · rename_i hprefix
          exact htaken ht (quietKey_some rfl .go) (by simp_all [Takes])
        · split at ht
          · rename_i hactive
            exact htaken ht ((quietKey_prefixKey a code).of_sent rfl) (by simp [Takes,hactive])
          · split at ht
            · rename_i hopened
              exact htaken ht (quiet_searchKey code mods).key (by simp [Takes,Covered,hopened])
            · obtain ⟨u,hu,heq⟩ := Option.map_eq_some_iff.mp ht
              cases heq
              rw [sent_plainKey hu,delivery]
              congr 1
              simp_all [Takes,Covered]

/-! ### The mouse, and what is taken over -/

theorem quiet_scroll (wheel : Wheel) (pager : Pager → Pager) (offset : SlotView → Nat) :
    s.Quiet (s.scroll wheel pager offset) := by
  unfold scroll
  split
  · exact quiet_some rfl
  · exact quiet_some rfl
  · exact quiet_some rfl
  · intro t ht
    obtain ⟨u,hu,rfl⟩ := Option.map_eq_some_iff.mp ht
    rw [sent_modifyView]
    exact quiet_ofApp _ u hu

theorem quiet_openMenu (slot : Option Nat) : s.Quiet (s.openMenu slot) := by
  unfold openMenu
  simp only
  split
  · exact quiet_some rfl
  · intro t ht
    obtain ⟨u,hu,rfl⟩ := Option.map_eq_some_iff.mp ht
    have hfocused := quiet_ofApp _ u hu
    exact hfocused

theorem sent_searchJump (row : Nat) : (s.searchJump row).sent = s.sent := by
  unfold searchJump
  split
  · rfl
  · rename_i hit _
    cases hstep : (s.jump hit).searchStep (.click row) with
    | none => rfl
    | some t => exact (quiet_searchStep _ t hstep).trans (sent_jump hit)

theorem quiet_openMarked (a : Answers) : s.Quiet (s.openMarked a) := by
  refine quiet_map fun place => ?_
  split
  · rfl
  · split
    · rfl
    · split <;> rfl

theorem quiet_clickListed (row : Nat) : s.Quiet (s.clickListed row) := by
  unfold clickListed
  split
  · exact quiet_some rfl
  · refine quiet_bind fun tab => ?_
    simp only
    split
    · exact (quiet_ofApp _).of_sent rfl
    · exact quiet_some rfl

theorem quietKey_click (a : Answers) (hit : Hit) : s.QuietKey (s.click a hit) := by
  unfold click
  split
  · split
    · exact quietKey_some rfl _
    · exact quietKey_bind fun item => (quietKey_runItem a _ item).of_sent rfl
  · split
    · exact quietKey_some (sent_searchJump _) _
    · exact quietKey_some rfl _
  · exact quietKey_some rfl _
  · exact quietKey_some rfl _
  · exact quietKey_some rfl _
  · exact quietKey_some rfl _
  · split <;> exact quietKey_some rfl _
  · split
    · exact ((quiet_ofApp _).of_sent rfl).key
    · exact quietKey_some rfl _
  · split
    · exact quietKey_map fun _ => rfl
    · exact quietKey_some rfl _
  · refine Quiet.key ?_
    split
    · exact quiet_clickListed _
    · exact quiet_some rfl
  · refine Quiet.key fun t ht => ?_
    obtain ⟨u,hu,ht⟩ := Option.bind_eq_some_iff.mp ht
    have hfocused := quiet_ofApp _ u hu
    simp only at ht
    split at ht
    · exact (quiet_openMarked a t ht).trans ((sent_modifyView u _ _).trans hfocused)
    · cases ht
      exact (sent_modifyView u _ _).trans hfocused
  · exact (quiet_ofApp _).key
  · exact quietKey_some rfl _

theorem sent_dismissMenu (onMenu : Bool) : (s.dismissMenu onMenu).sent = s.sent := by
  unfold dismissMenu
  split <;> rfl

theorem quietKey_handleMouse (a : Answers) (op : MouseOp) : s.QuietKey (s.handleMouse a op) := by
  cases op with
  | scrollUp wheel => exact (quiet_scroll _ _ _).key
  | scrollDown wheel visible => exact (quiet_scroll _ _ _).key
  | rightDown slot => exact (quiet_openMenu slot).key
  | middleDown onMenu => exact quietKey_some (sent_dismissMenu onMenu) _
  | leftDown onMenu hit => exact (quietKey_click a hit).of_sent (sent_dismissMenu onMenu)
  | dragTab source chip =>
    simp only [handleMouse]
    split
    · exact (quiet_ofApp _).key
    · exact quietKey_some rfl _

theorem sent_paste {text : Text} (ht : s.paste text = some t) :
    t.sent = s.sent ++ s.target.toList.map fun pane => (pane,bracketed text) := by
  obtain ⟨place,hplace,rfl⟩ := Option.map_eq_some_iff.mp ht
  match place with
  | none => simp [target,hplace]
  | some (slot,pane) =>
    rw [sent_send,target,hplace]
    rfl

theorem sent_handleInput {input : Input} {action : KeyAction}
    (ht : s.handleInput input = some (t,action)) : t.sent = s.sent ++ s.delivery input := by
  cases input with
  | key code mods height a => exact sent_handleKey ht
  | paste text =>
    obtain ⟨u,hu,heq⟩ := Option.map_eq_some_iff.mp ht
    cases heq
    exact sent_paste hu
  | mouse op a => exact (quietKey_handleMouse a op _ ht).trans (List.append_nil _).symm

theorem quiet_news (n : News) : s.Quiet (s.news n) := by
  cases n with
  | app e => exact quiet_ofApp _
  | blocks map => exact quiet_some rfl
  | searchTick elapsed => exact quiet_some rfl
  | searchDrain => exact quiet_some rfl
  | searchReply call hits =>
    refine quiet_some ?_
    cases hstep : s.searchStep (.reply call hits) with
    | none => rfl
    | some t => exact quiet_searchStep _ t hstep
  | sidebar panes => exact quiet_some rfl

theorem sent_drawPanes (histories : List (Nat × Nat)) (s : Screen) :
    (histories.foldl drawPane s).sent = s.sent := by
  induction histories generalizing s with
  | nil => rfl
  | cons p histories ih => rw [List.foldl_cons,ih,drawPane,sent_modifyView]

theorem quiet_draw (histories : List (Nat × Nat)) : s.Quiet (s.draw histories) := by
  unfold draw
  split
  · exact quiet_some rfl
  · refine quiet_bind fun sv => quiet_map fun _ => ?_
    exact sent_drawPanes histories s

theorem quiet_drawn (histories : List (Nat × Nat)) : s.Quiet (s.drawn histories) := by
  intro t ht
  obtain ⟨u,hu,ht⟩ := Option.bind_eq_some_iff.mp ht
  exact (quiet_draw histories t ht).trans (quiet_ofApp _ u hu)

theorem sent_turn {histories : List (Nat × Nat)} {input : Option Input} {action : KeyAction}
    (ht : s.turn histories input = some (t,action)) :
    t.sent = s.sent ++ (Client.running s).delivery (.turn histories input) := by
  obtain ⟨u,hu,ht⟩ := Option.bind_eq_some_iff.mp ht
  have hdrawn := quiet_drawn histories u hu
  cases input with
  | none =>
    cases ht
    exact hdrawn.trans (List.append_nil _).symm
  | some input =>
    rw [sent_handleInput ht,hdrawn]
    simp [Client.delivery,hu]

end Screen

namespace Client

theorem screen_afterTurn {r : Option (Screen × KeyAction)} {t : Screen}
    (ht : t ∈ (afterTurn r).screen) : ∃ action, r = some (t,action) := by
  match r, ht with
  | some (u,.go), ht => exact ⟨.go,Option.some.inj ht ▸ rfl⟩
  | some (u,.quit), ht => exact ⟨.quit,Option.some.inj ht ▸ rfl⟩
  | some (u,.detach), ht => exact ⟨.detach,Option.some.inj ht ▸ rfl⟩

/-- Only a running client takes a step, and what it hands to the panes is what there is more. -/
theorem sent_step {c d : Client} {op : ClientOp} (hd : c.step op = some d) :
    ∃ s ∈ c.screen, ∀ t ∈ d.screen, t.sent = s.sent ++ c.delivery op := by
  cases c with
  | left _ _ => cases hd
  | panicked => cases hd
  | running s =>
    refine ⟨s,rfl,fun t ht => ?_⟩
    cases op with
    | news n =>
      rw [step,Option.ite_none_left_eq_some,Option.some.injEq] at hd
      obtain ⟨-,rfl⟩ := hd
      cases hn : s.news n with
      | none =>
        rw [hn] at ht
        cases ht
      | some u =>
        rw [hn] at ht
        obtain rfl := Option.some.inj ht
        exact (Screen.quiet_news n u hn).trans (List.append_nil _).symm
    | turn histories input =>
      rw [step,Option.ite_none_left_eq_some,Option.some.injEq] at hd
      obtain ⟨-,rfl⟩ := hd
      obtain ⟨action,ht⟩ := screen_afterTurn ht
      exact Screen.sent_turn ht

/-- A client that ends with a screen had one. -/
theorem screen_of_exec {c d : Client} {ops : List ClientOp} (hd : exec step c ops = some d)
    {t : Screen} (ht : t ∈ d.screen) : ∃ s, s ∈ c.screen := by
  cases ops with
  | nil =>
    obtain rfl := Option.some.inj hd
    exact ⟨t,ht⟩
  | cons op ops =>
    obtain ⟨e,he,-⟩ := Option.bind_eq_some_iff.mp hd
    obtain ⟨s,hs,-⟩ := sent_step he
    exact ⟨s,hs⟩

/-- What is typed behind the prefix is for the client, and so is the text of the prompt it opens;
the paste goes to the pane all the same. -/
def typing : List ClientOp :=
  [.turn [] (some (.key (.char 'l') .none 24 .opened)),
    .turn [] (some (.key (.char ' ') .justControl 24 .opened)),
    .turn [] (some (.key (.char 'S') .none 24 .opened)),
    .turn [] (some (.key (.char 'x') .none 24 .opened)),
    .turn [] (some (.paste [])),
    .turn [] (some (.key .esc .none 24 .opened)),
    .turn [] (some (.key .enter .none 24 .opened))]

example : (running Screen.ember).delivered typing =
    [(⟨1⟩,[0x6c]),(⟨1⟩,Screen.bracketed []),(⟨1⟩,[0x0d])] := by
  decide

end Client

end Pyre.Tui
