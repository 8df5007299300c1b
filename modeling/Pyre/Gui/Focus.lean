import Pyre.Base.Run
import Pyre.Gui.Housed
import Pyre.Gui.Terminals

/-!
Focus and zoom of the GUI. A pane that is focused or zoomed is to be one of those the active
session shows, whenever no function awaits anything; until then one that will set the focus, or
clear the zoom, may leave it behind.
-/

set_option autoImplicit false

namespace Pyre.Gui
open Base

namespace Store

/-- The leaves of the session's active window. -/
def panesOf (s : Store) (session : SessionId) : List PaneId :=
  leafPanes ((s.activeWindowOf session).bind s.layouts.lookup)

def shownPanes (s : Store) : List PaneId := s.activeSession.elim [] s.panesOf

def FocusShown (s : Store) : Prop := ∀ pane ∈ s.focusedPane, pane ∈ s.shownPanes

def ZoomShown (s : Store) : Prop := ∀ pane ∈ s.zoomedPane, pane ∈ s.shownPanes

/-- No pane has two cards, and each pane of the session has one that is not hidden by the zoom of
another. -/
structure DrawnOnce (s : Store) : Prop where
  nodup : (s.cards true).Nodup
  drawn : ∀ w ∈ s.shownWindows, ∀ tree ∈ s.layouts.lookup w, ∀ pane ∈ tree.allLeaves,
    (s.shownWindow = some w → ∀ zoomed ∈ s.zoomedPane, zoomed = pane) → pane ∈ s.cards true

structure Sound (s : Store) : Prop where
  focus : s.FocusShown
  zoom : s.ZoomShown
  drawn : s.DrawnOnce

end Store

/-! What a function that awaits will do in the end, whatever the replies are. -/

/-- The focus is set, or no longer on this pane. -/
def AfterReload.Refocuses (focus : Option PaneId) : AfterReload → Prop
  | .focusFirstLeaf _ | .gotoPane _ _ | .focusSplit _ | .switchWindow _ => True
  | .refocusClosed _ pane => pane.isSome ∧ focus = pane
  | .done | .adopt _ => False

/-- A pane that is closed is focused, in the active session. -/
def Refocuses (focus : Option PaneId) (active session : Option SessionId) (pane : Option PaneId) :
    Prop :=
  pane.isSome ∧ focus = pane ∧ session.isSome ∧ active = session

def Awaiting.Refocuses (focus : Option PaneId) (active : Option SessionId) : Awaiting → Prop
  | .listWindows _ next | .windowLayout _ _ _ next | .ensureStreams next => next.Refocuses focus
  | .listSessions (.newSession _) | .paneStates (.newPaneAction _ _)
  | .reloadFocusedBlocks _ => True
  | .closePane session _ | .closeWindow session _ | .listSessions (.closeAction session) =>
    session.isSome
  | .listSessions (.closeSessionAction wasActive) => wasActive
  | .listSessions (.closed session pane) => Gui.Refocuses focus active session pane
  | .paneStates (.closed session pane) => Gui.Refocuses focus active (some session) pane
  | _ => False

def LifecycleEvent.Refocuses (focus : Option PaneId) (active : Option SessionId) :
    LifecycleEvent → Prop
  | .closed session pane => Gui.Refocuses focus active session pane
  | _ => False

def Awaiting.Unzooms (zoom : Option PaneId) : Awaiting → Prop
  | .closePane _ pane => zoom = some pane
  | .listSessions (.closeSessionAction wasActive) => wasActive
  | _ => False

/-- The functions in progress; that of the event loop, which applies one event after the other,
is numbered 0. -/
structure Screen where
  store : Store
  calls : Table Nat Awaiting
  events : List LifecycleEvent

/-- `emit` is the daemon's, of any event. -/
inductive ScreenStep where
  | act (call : Nat) (action : GuiAction)
  | emit (event : LifecycleEvent)
  | applyEvent
  | resume (call : Nat) (reply : DaemonReply)

namespace Screen

def start : Screen := ⟨.start,∅,[]⟩

def eventLoop : Nat := 0

/-- The function goes on to await, or is done. -/
def proceed (s : Screen) (i : Nat) (next : Stretch) : Screen :=
  { s with
    store := next.1
    calls := match next.2 with
      | some phase => s.calls.insert i phase
      | none => s.calls.erase i }

def step (home : Homes) (s : Screen) : ScreenStep → Option Screen
  | .act i action =>
    if i ≠ eventLoop ∧ i ∉ s.calls then some (s.proceed i (s.store.act action)) else none
  | .emit event => some { s with events := s.events ++ [event] }
  | .applyEvent =>
    match s.events with
    | event :: events =>
      if eventLoop ∈ s.calls then none
      else some (proceed { s with events } eventLoop (s.store.applyLifecycleEvent event))
    | [] => none
  | .resume i reply => (s.calls.lookup i).bind fun phase =>
    if home.Fits phase reply then (s.store.resume phase reply).map (s.proceed i) else none

/-- No function is in progress and no event is to be applied. -/
def Quiescent (s : Screen) : Prop := s.events = [] ∧ ∀ i phase, s.calls.lookup i ≠ some phase

/-- Another function than `i`, or an event to come, sets the focus when it is on this pane. -/
def OtherRefocuses (s : Screen) (i : Nat) (focus : Option PaneId) (active : Option SessionId) :
    Prop :=
  (∃ j phase, j ≠ i ∧ s.calls.lookup j = some phase ∧ phase.Refocuses focus active) ∨
    ∃ event ∈ s.events, event.Refocuses focus active

def Refocusing (s : Screen) : Prop :=
  (∃ i phase, s.calls.lookup i = some phase ∧
    phase.Refocuses s.store.focusedPane s.store.activeSession) ∨
      ∃ event ∈ s.events, event.Refocuses s.store.focusedPane s.store.activeSession

def OtherUnzooms (s : Screen) (i : Nat) (zoom : Option PaneId) : Prop :=
  ∃ j phase, j ≠ i ∧ s.calls.lookup j = some phase ∧ phase.Unzooms zoom

def Unzooming (s : Screen) : Prop :=
  ∃ i phase, s.calls.lookup i = some phase ∧ phase.Unzooms s.store.zoomedPane

structure Settled (s : Screen) : Prop where
  focus : s.store.FocusShown ∨ s.Refocusing
  zoom : s.store.ZoomShown ∨ s.Unzooming

/-! The steps that keep the screen settled. -/

/-- The pane may be focused: it is shown, or something else will set the focus. -/
def MayFocus (s : Screen) (i : Nat) (pane : PaneId) : Prop :=
  pane ∈ s.store.shownPanes ∨ s.OtherRefocuses i (some pane) s.store.activeSession

/-- What is shown may change to these panes. -/
def MayShow (s : Screen) (panes : List PaneId) : Prop :=
  ((∀ pane ∈ s.store.focusedPane, pane ∈ panes) ∨ s.Refocusing) ∧
    ((∀ pane ∈ s.store.zoomedPane, pane ∈ panes) ∨ s.Unzooming)

/-- The session's first leaf may be focused: it is the active one, or something else will set the
focus. -/
def MayFocusFirst (s : Screen) (i : Nat) (session : SessionId) : Prop :=
  s.store.activeSession = some session ∨
    ∀ pane ∈ (s.store.panesOf session).head?, s.MayFocus i pane

/-- Nothing is zoomed when another window is shown. -/
def MaySwitchWindow (s : Screen) (window : WindowId) : Prop :=
  s.store.shownWindow = some window ∨ s.store.zoomedPane = none ∨ s.Unzooming

def ReloadsInTime (s : Screen) (i : Nat) : AfterReload → Prop
  | .focusFirstLeaf session => s.MayFocusFirst i session
  | .focusSplit pane => s.MayFocus i pane
  | .switchWindow window => s.MaySwitchWindow window ∧
    (s.store.activeSession = none → ∀ pane ∈ s.store.focusedPane, s.MayFocus i pane)
  | .refocusClosed session pane =>
    pane.isSome → s.store.focusedPane = pane → s.MayFocusFirst i session
  | .done | .gotoPane _ _ | .adopt _ => True

/-- A session is adopted only while nothing of another is zoomed. -/
def MayAdopt (s : Screen) (session : SessionId) : Prop :=
  s.store.activeSession = some session ∨ s.store.zoomedPane = none ∨ s.Unzooming

def SessionsInTime (s : Screen) : AfterSessions → Prop
  | .newSession session => s.MayAdopt session
  | .loadInitial => ∀ first ∈ s.store.sessions.head?, s.MayAdopt first.id
  | _ => True

/-- The window that is shown is listed, or what it shows is not focused or zoomed for long. -/
def WindowsInTime (s : Screen) (session : SessionId) (windows : List WindowId) : Prop :=
  s.store.activeSession = some session →
    (∀ w ∈ s.store.shownWindow, w ∈ windows ∧ s.store.activeWindow.lookup session = some w) ∨
      s.MayShow []

def RepliesInTime (s : Screen) (i : Nat) : Awaiting → DaemonReply → Prop
  | .closeWindow _ window, _ => s.store.shownWindow = some window → s.MayShow []
  | .closeSession session _ wasActive, .ok =>
    s.store.activeSession = some session → wasActive ∨ s.MayShow []
  | .listSessions next, .sessions sessions =>
    SessionsInTime { s with store := s.store.reloadSessions sessions } next
  | .listSessions next, .failed => s.SessionsInTime next
  | .reloadWindows session, .windows windows | .listWindows session _, .windows windows =>
    s.WindowsInTime session windows
  | .listWindows _ next, .failed | .ensureStreams next, .ok => s.ReloadsInTime i next
  | .windowLayout copy w [] _, .layout tree =>
    s.MayShow (leafPanes (s.store.shownWindow.bind (copy.insert w tree).lookup))
  | .windowLayout copy _ [] _, .failed =>
    s.MayShow (leafPanes (s.store.shownWindow.bind copy.lookup))
  | .reloadFocusedBlocks pane, _ => s.MayFocus i pane
  | _, _ => True

def InTime (s : Screen) : ScreenStep → Prop
  | .act i (.gotoPane session pane) => s.store.activeSession = some session → s.MayFocus i pane
  | .act i (.focusPane pane) => s.MayFocus i pane
  | .act i (.zoomPane pane) => ∀ target ∈ pane <|> s.store.focusedPane, s.MayFocus i target ∧
    (target ∈ s.store.shownPanes ∨ s.store.zoomedPane = some target ∨
      s.OtherUnzooms i (some target))
  | .act _ (.switchWindow window) => s.MaySwitchWindow window
  | .resume i reply => ∀ phase ∈ s.calls.lookup i, s.RepliesInTime i phase reply
  | _ => True

end Screen

/-! What each part of the store's functions leaves to be shown. -/

namespace Store

variable {home : WindowId → SessionId} {s t : Store} {session other : SessionId} {w : WindowId}

theorem activeWindowOf_mem (h : s.activeWindowOf session = some w) : w ∈ s.windowTabs session := by
  unfold activeWindowOf at h
  split at h
  · split at h
    · obtain rfl := Option.some.inj h
      assumption
    · exact List.mem_of_head? h
  · exact List.mem_of_head? h

theorem activeWindowOf_of_sameOn (h : SameOn home s t session) :
    t.activeWindowOf session = s.activeWindowOf session := by
  unfold activeWindowOf windowTabs
  rw [h.windows,h.activeWindow]

theorem panesOf_of_sameOn (howned : s.Owned home) (h : SameOn home s t session) :
    t.panesOf session = s.panesOf session := by
  unfold panesOf
  rw [activeWindowOf_of_sameOn h]
  cases hw : s.activeWindowOf session with
  | none => rfl
  | some w =>
    have hhome : home w = session := mem_windowTabs howned (activeWindowOf_mem hw)
    rw [Option.bind_some,Option.bind_some,h.layouts w hhome]

theorem shownPanes_of_active (h : s.activeSession = some session) :
    s.shownPanes = s.panesOf session := by
  rw [shownPanes,h]
  rfl

theorem shownPanes_of_none (h : s.activeSession = none) : s.shownPanes = [] := by
  rw [shownPanes,h]
  rfl

theorem shownPanes_eq (s : Store) :
    s.shownPanes = leafPanes (s.shownWindow.bind s.layouts.lookup) := by
  unfold shownPanes shownWindow
  cases s.activeSession <;> rfl

/-- The active session and what it has are as they were. -/
theorem shownPanes_of_sameOn (howned : s.Owned home) (hactive : t.activeSession = s.activeSession)
    (h : ∀ σ, s.activeSession = some σ → SameOn home s t σ) : t.shownPanes = s.shownPanes := by
  cases hs : s.activeSession with
  | none => rw [shownPanes_of_none hs,shownPanes_of_none (hactive.trans hs)]
  | some σ =>
    rw [shownPanes_of_active hs,shownPanes_of_active (hactive.trans hs)]
    exact panesOf_of_sameOn howned (h σ hs)

/-- Focus, zoom and active session are as they were, and so is what is shown. -/
structure SameShown (s t : Store) : Prop where
  active : t.activeSession = s.activeSession
  focused : t.focusedPane = s.focusedPane
  zoomed : t.zoomedPane = s.zoomedPane
  shown : t.shownPanes = s.shownPanes

/-- Nothing is focused or zoomed. -/
structure Cleared (s : Store) : Prop where
  focused : s.focusedPane = none
  zoomed : s.zoomedPane = none

theorem reloadSessions_cases (howned : s.Owned home) (sessions : List SessionInfo) :
    (s.reloadSessions sessions).Cleared ∨ SameShown s (s.reloadSessions sessions) := by
  by_cases hvanished : s.activeSession.any (· ∉ sessions.map (·.id)) = true
  · exact .inl ⟨if_pos hvanished,if_pos hvanished⟩
  · have hactive : (s.reloadSessions sessions).activeSession = s.activeSession := if_neg hvanished
    refine .inr ⟨hactive,if_neg hvanished,if_neg hvanished,?_⟩
    refine shownPanes_of_sameOn howned hactive fun σ hσ => ?_
    rw [hσ] at hvanished
    exact sameOn_reloadSessions howned (by simpa using hvanished)

/-- Windows of another session than the active one have been listed. -/
theorem sameShown_reloadWindows (howned : s.Owned home) {windows : List WindowId}
    (h : s.activeSession ≠ some session) : SameShown s (s.reloadWindows session windows) := by
  refine ⟨rfl,rfl,rfl,shownPanes_of_sameOn howned rfl fun σ hσ => sameOn_reloadWindows ?_⟩
  rintro rfl
  exact h hσ

/-- The window that is shown has been listed. -/
theorem shownPanes_reloadWindows (h : s.activeSession = some session) {windows : List WindowId}
    (hshown : s.shownWindow = some w) (hw : w ∈ windows)
    (hchosen : s.activeWindow.lookup session = some w) :
    (s.reloadWindows session windows).shownPanes = s.shownPanes := by
  have hkeeps : (s.reloadWindows session windows).activeWindow = s.activeWindow := by
    cases windows with
    | nil => cases hw
    | cons first rest => exact if_pos (by rw [hchosen]; exact decide_eq_true hw)
  have hactive : (s.reloadWindows session windows).activeWindowOf session = some w := by
    have htabs : (s.reloadWindows session windows).windowTabs session = windows := by
      rw [windowTabs,lookup_reloadWindows]
      rfl
    simp only [activeWindowOf,hkeeps,hchosen,htabs,if_pos hw]
  rw [shownPanes_eq,shownPanes_eq,hshown]
  have hshown' : (s.reloadWindows session windows).shownWindow = some w := by
    have hsame : (s.reloadWindows session windows).activeSession = some session := h
    rw [shownWindow,hsame]
    exact hactive
  rw [hshown']
  rfl

theorem sameShown_closeSessionAction (howned : s.Owned home) {windows : List WindowId}
    (hwindows : ∀ w ∈ windows, home w = session) (h : s.activeSession ≠ some session) :
    SameShown s (s.closeSessionAction session windows) := by
  refine ⟨rfl,rfl,rfl,shownPanes_of_sameOn howned rfl fun σ hσ => ?_⟩
  refine sameOn_closeSessionAction hwindows ?_
  rintro rfl
  exact h hσ

theorem activeWindowOf_closeWindowAction {active : Option SessionId}
    (h : s.activeWindowOf session ≠ some w) :
    (s.closeWindowAction active w).activeWindowOf session = s.activeWindowOf session := by
  have htabs : (s.closeWindowAction active w).windowTabs session = s.windowTabs session := rfl
  by_cases hlost : active = some session ∧ s.activeWindow.lookup session = some w
  · obtain ⟨rfl,hw⟩ := hlost
    have herased : (s.closeWindowAction (some session) w).activeWindow =
        s.activeWindow.erase session := if_pos hw
    have hnot : w ∉ s.windowTabs session := by
      intro hmem
      exact h (by rw [activeWindowOf,hw]; exact if_pos hmem)
    unfold activeWindowOf
    rw [htabs,herased,AList.lookup_erase,hw]
    exact (if_neg hnot).symm
  · have hkept : (s.closeWindowAction active w).activeWindow.lookup session =
        s.activeWindow.lookup session := by
      cases active with
      | none => rfl
      | some sid =>
        simp only [closeWindowAction]
        split
        · rename_i hsid
          refine AList.lookup_erase_ne fun heq => hlost ?_
          rw [heq]
          exact ⟨rfl,hsid⟩
        · rfl
    unfold activeWindowOf
    rw [htabs,hkept]

/-- A window that is not shown is closed. -/
theorem sameShown_closeWindowAction {active : Option SessionId} (h : s.shownWindow ≠ some w) :
    SameShown s (s.closeWindowAction active w) := by
  have hwindow : (s.closeWindowAction active w).shownWindow = s.shownWindow := by
    unfold shownWindow at h ⊢
    cases hs : s.activeSession with
    | none => exact congrArg (Option.bind · _) hs
    | some σ =>
      rw [hs] at h
      have hsame : (s.closeWindowAction active w).activeSession = some σ := hs
      rw [hsame]
      exact activeWindowOf_closeWindowAction h
  refine ⟨rfl,rfl,rfl,?_⟩
  rw [shownPanes_eq,shownPanes_eq,hwindow]
  cases hs : s.shownWindow with
  | none => rfl
  | some v =>
    have hne : v ≠ w := by
      rintro rfl
      exact h hs
    exact congrArg leafPanes (AList.lookup_erase_ne hne)

theorem removeSessionNow_cases (howned : s.Owned home) (session : SessionId) :
    (s.removeSessionNow session).Cleared ∨ SameShown s (s.removeSessionNow session) := by
  by_cases h : s.activeSession = some session
  · exact .inl ⟨if_pos h,if_pos h⟩
  · have hactive : (s.removeSessionNow session).activeSession = s.activeSession := if_neg h
    refine .inr ⟨hactive,if_neg h,if_neg h,?_⟩
    refine shownPanes_of_sameOn howned hactive fun σ hσ => sameOn_removeSessionNow howned ?_
    rintro rfl
    exact h hσ

theorem focusShown_focusFirstLeaf (h : s.activeSession = some session) :
    (s.focusFirstLeaf session).FocusShown := by
  intro pane hpane
  have hshown : (s.focusFirstLeaf session).shownPanes = s.panesOf session :=
    shownPanes_of_active h
  rw [hshown]
  exact List.mem_of_head? hpane

/-- The first leaf of the active window is focused. -/
theorem focusShown_switchWindow (s : Store) (window : WindowId)
    (h : s.activeSession = none → s.FocusShown) : (s.switchWindow window).FocusShown := by
  unfold switchWindow
  split
  · rename_i session hactive
    exact focusShown_focusFirstLeaf hactive
  · rename_i hnone
    exact h hnone

theorem shownPanes_switchWindow {window : WindowId} (h : s.shownWindow = some window) :
    (s.switchWindow window).shownPanes = s.shownPanes := by
  unfold switchWindow
  split
  · rename_i session hactive
    have hmem : window ∈ s.windowTabs session := by
      rw [shownWindow,hactive] at h
      exact activeWindowOf_mem h
    have hsame : activeWindowOf
        { s with activeWindow := s.activeWindow.insert session window } session = some window := by
      rw [activeWindowOf,AList.lookup_insert]
      exact if_pos hmem
    have hactive' : (focusFirstLeaf
        { s with activeWindow := s.activeWindow.insert session window } session).activeSession =
          some session := hactive
    rw [shownPanes_of_active hactive',shownPanes_eq,h]
    exact congrArg (fun v => leafPanes (v.bind s.layouts.lookup)) hsame
  · rfl

end Store

namespace Screen

variable {s t : Screen} {i : Nat} {next : Stretch} {phase : Awaiting} {pane : PaneId}
  {session : SessionId}

/-! A step of one function, and what is left to the others. -/

def FocusSettled (s : Screen) (i : Nat) (next : Stretch) : Prop :=
  next.1.FocusShown ∨
    (∃ phase ∈ next.2, phase.Refocuses next.1.focusedPane next.1.activeSession) ∨
      s.OtherRefocuses i next.1.focusedPane next.1.activeSession

def ZoomSettled (s : Screen) (i : Nat) (next : Stretch) : Prop :=
  next.1.ZoomShown ∨ (∃ phase ∈ next.2, phase.Unzooms next.1.zoomedPane) ∨
    s.OtherUnzooms i next.1.zoomedPane

structure SettledBy (s : Screen) (i : Nat) (next : Stretch) : Prop where
  focus : s.FocusSettled i next
  zoom : s.ZoomSettled i next

theorem lookup_proceed_self (hphase : phase ∈ next.2) :
    (s.proceed i next).calls.lookup i = some phase := by
  rw [Option.mem_def] at hphase
  simp only [proceed,hphase]
  exact AList.lookup_insert _

theorem lookup_proceed_ne {j : Nat} (hne : j ≠ i) :
    (s.proceed i next).calls.lookup j = s.calls.lookup j := by
  simp only [proceed]
  split
  · exact AList.lookup_insert_ne hne
  · exact AList.lookup_erase_ne hne

theorem settled_proceed (h : s.SettledBy i next) : (s.proceed i next).Settled := by
  refine ⟨?_,?_⟩
  · rcases h.focus with hshown | ⟨phase,hphase,hrefocuses⟩ | ⟨j,phase,hne,hphase,hrefocuses⟩ |
      hevent
    · exact .inl hshown
    · exact .inr (.inl ⟨i,phase,lookup_proceed_self hphase,hrefocuses⟩)
    · exact .inr (.inl ⟨j,phase,(lookup_proceed_ne hne).trans hphase,hrefocuses⟩)
    · exact .inr (.inr hevent)
  · rcases h.zoom with hshown | ⟨phase,hphase,hunzooms⟩ | ⟨j,phase,hne,hphase,hunzooms⟩
    · exact .inl hshown
    · exact .inr ⟨i,phase,lookup_proceed_self hphase,hunzooms⟩
    · exact .inr ⟨j,phase,(lookup_proceed_ne hne).trans hphase,hunzooms⟩

/-- What the function owed the focus it still does. -/
def PassesFocus (s : Screen) (i : Nat) (next : Option Awaiting) : Prop :=
  ∀ phase ∈ s.calls.lookup i, phase.Refocuses s.store.focusedPane s.store.activeSession →
    ∃ phase' ∈ next, phase'.Refocuses s.store.focusedPane s.store.activeSession

def PassesZoom (s : Screen) (i : Nat) (next : Option Awaiting) : Prop :=
  ∀ phase ∈ s.calls.lookup i, phase.Unzooms s.store.zoomedPane →
    ∃ phase' ∈ next, phase'.Unzooms s.store.zoomedPane

theorem passesFocus_of {after : Option Awaiting} (hphase : s.calls.lookup i = some phase)
    (h : phase.Refocuses s.store.focusedPane s.store.activeSession →
      ∃ phase' ∈ after, phase'.Refocuses s.store.focusedPane s.store.activeSession) :
    s.PassesFocus i after := by
  intro phase' hphase'
  obtain rfl := Option.some.inj (hphase.symm.trans hphase')
  exact h

theorem passesZoom_of {after : Option Awaiting} (hphase : s.calls.lookup i = some phase)
    (h : phase.Unzooms s.store.zoomedPane →
      ∃ phase' ∈ after, phase'.Unzooms s.store.zoomedPane) : s.PassesZoom i after := by
  intro phase' hphase'
  obtain rfl := Option.some.inj (hphase.symm.trans hphase')
  exact h

theorem focus_passed (hpasses : s.PassesFocus i next.2)
    (hfocused : next.1.focusedPane = s.store.focusedPane)
    (hactive : next.1.activeSession = s.store.activeSession)
    (h : next.1.FocusShown ∨ s.Refocusing) : s.FocusSettled i next := by
  rw [FocusSettled,hfocused,hactive]
  rcases h with hshown | ⟨j,phase,hphase,hrefocuses⟩ | hevent
  · exact .inl hshown
  · by_cases hne : j = i
    · subst hne
      exact .inr (.inl (hpasses phase hphase hrefocuses))
    · exact .inr (.inr (.inl ⟨j,phase,hne,hphase,hrefocuses⟩))
  · exact .inr (.inr (.inr hevent))

theorem zoom_passed (hpasses : s.PassesZoom i next.2)
    (hzoomed : next.1.zoomedPane = s.store.zoomedPane) (h : next.1.ZoomShown ∨ s.Unzooming) :
    s.ZoomSettled i next := by
  rw [ZoomSettled,hzoomed]
  rcases h with hshown | ⟨j,phase,hphase,hunzooms⟩
  · exact .inl hshown
  · by_cases hne : j = i
    · subst hne
      exact .inr (.inl (hpasses phase hphase hunzooms))
    · exact .inr (.inr ⟨j,phase,hne,hphase,hunzooms⟩)

theorem FocusShown.of_same {u v : Store} (h : u.FocusShown) (hsame : Store.SameShown u v) :
    v.FocusShown := by
  intro pane hpane
  rw [hsame.focused] at hpane
  rw [hsame.shown]
  exact h pane hpane

theorem ZoomShown.of_same {u v : Store} (h : u.ZoomShown) (hsame : Store.SameShown u v) :
    v.ZoomShown := by
  intro pane hpane
  rw [hsame.zoomed] at hpane
  rw [hsame.shown]
  exact h pane hpane

theorem SettledBy.same (h : s.Settled) (hfocus : s.PassesFocus i next.2)
    (hzoom : s.PassesZoom i next.2) (hsame : Store.SameShown s.store next.1) :
    s.SettledBy i next :=
  ⟨focus_passed hfocus hsame.focused hsame.active (h.focus.imp_left (FocusShown.of_same · hsame)),
    zoom_passed hzoom hsame.zoomed (h.zoom.imp_left (ZoomShown.of_same · hsame))⟩

theorem focusShown_of_cleared {u : Store} (h : u.Cleared) : u.FocusShown := by
  intro pane hpane
  rw [h.focused] at hpane
  cases hpane

theorem zoomShown_of_none {u : Store} (h : u.zoomedPane = none) : u.ZoomShown := by
  intro pane hpane
  rw [h] at hpane
  cases hpane

theorem SettledBy.cleared (h : next.1.Cleared) : s.SettledBy i next :=
  ⟨.inl (focusShown_of_cleared h),.inl (zoomShown_of_none h.zoomed)⟩

/-! The ends of the functions. -/

/-- The zoom and what is shown are as they were. -/
theorem zoom_same (h : s.Settled) (hpasses : s.PassesZoom i next.2)
    (hzoomed : next.1.zoomedPane = s.store.zoomedPane)
    (hshown : next.1.shownPanes = s.store.shownPanes) : s.ZoomSettled i next := by
  refine zoom_passed hpasses hzoomed (h.zoom.imp_left fun hz pane hpane => ?_)
  rw [hzoomed] at hpane
  rw [hshown]
  exact hz pane hpane

/-- A function that does not clear the zoom has left it as it was. -/
theorem zoom_kept (h : s.Settled) (hphase : s.calls.lookup i = some phase)
    (hnot : ¬phase.Unzooms s.store.zoomedPane) (hzoomed : next.1.zoomedPane = s.store.zoomedPane)
    (hshown : next.1.shownPanes = s.store.shownPanes) : s.ZoomSettled i next :=
  zoom_same h (passesZoom_of hphase fun hun => absurd hun hnot) hzoomed hshown

/-- The focus is set on a pane that may have it. -/
theorem focus_set (hfocused : next.1.focusedPane = some pane)
    (hactive : next.1.activeSession = s.store.activeSession)
    (hshown : next.1.shownPanes = s.store.shownPanes) (h : s.MayFocus i pane) :
    s.FocusSettled i next := by
  rcases h with hmem | hother
  · left
    intro pane' hpane'
    rw [hfocused] at hpane'
    obtain rfl := Option.some.inj hpane'
    rw [hshown]
    exact hmem
  · rw [FocusSettled,hfocused,hactive]
    exact .inr (.inr hother)

theorem focus_first {after : Option Awaiting} (h : s.MayFocusFirst i session) :
    s.FocusSettled i (s.store.focusFirstLeaf session,after) := by
  rcases h with hactive | hmay
  · exact .inl (Store.focusShown_focusFirstLeaf hactive)
  · cases hhead : (s.store.panesOf session).head? with
    | none =>
      left
      intro pane hpane
      have hnone : (s.store.focusFirstLeaf session).focusedPane = none := hhead
      rw [hnone] at hpane
      cases hpane
    | some pane => exact focus_set hhead rfl rfl (hmay pane hhead)

/-- The session that is adopted is the active one, or there was none or no zoom. -/
theorem zoom_adopt {after : Option Awaiting} (h : s.Settled)
    (hphase : s.calls.lookup i = some phase) (hnot : ¬phase.Unzooms s.store.zoomedPane)
    (hmay : s.store.activeSession = none ∨ s.MayAdopt session) :
    s.ZoomSettled i (s.store.adopt session,after) := by
  have hzoomed : (s.store.adopt session).zoomedPane = s.store.zoomedPane := rfl
  have hunzooming : s.Unzooming → s.ZoomSettled i (s.store.adopt session,after) :=
    fun hun => zoom_passed (passesZoom_of hphase fun h => absurd h hnot) hzoomed (.inr hun)
  have hnone : s.store.zoomedPane = none → s.ZoomSettled i (s.store.adopt session,after) :=
    fun hz => .inl (zoomShown_of_none (hzoomed.trans hz))
  rcases hmay with hactive | hactive | hz | hun
  · rcases h.zoom with hshown | hun
    · cases hz : s.store.zoomedPane with
      | none => exact hnone hz
      | some pane =>
        have hmem := hshown pane hz
        rw [Store.shownPanes_of_none hactive] at hmem
        cases hmem
    · exact hunzooming hun
  · have hsame : s.store.adopt session = s.store := by
      rw [Store.adopt,← hactive]
    exact zoom_kept h hphase hnot hzoomed (by rw [hsame])
  · exact hnone hz
  · exact hunzooming hun

theorem settled_adoptIfNone (h : s.Settled) (hphase : s.calls.lookup i = some phase)
    (hfocus : ¬phase.Refocuses s.store.focusedPane s.store.activeSession)
    (hnot : ¬phase.Unzooms s.store.zoomedPane) : s.SettledBy i (s.store.adoptIfNone session) := by
  unfold Store.adoptIfNone
  split
  · rename_i hactive
    exact ⟨.inr (.inl ⟨_,rfl,trivial⟩),zoom_adopt h hphase hnot (.inl hactive)⟩
  · exact SettledBy.same h (passesFocus_of hphase fun h => absurd h hfocus)
      (passesZoom_of hphase fun h => absurd h hnot) ⟨rfl,rfl,rfl,rfl⟩

/-- Another window is shown, and nothing of the one before stays zoomed. -/
theorem zoom_switchWindow {after : Option Awaiting} {window : WindowId} (h : s.Settled)
    (hpasses : s.PassesZoom i after) (hmay : s.MaySwitchWindow window) :
    s.ZoomSettled i (s.store.switchWindow window,after) := by
  have hzoomed : (s.store.switchWindow window).zoomedPane = s.store.zoomedPane :=
    s.store.zoomedPane_switchWindow window
  rcases hmay with hshown | hz | hun
  · refine zoom_passed hpasses hzoomed (h.zoom.imp_left fun hzoom pane hpane => ?_)
    have hsame : (s.store.switchWindow window).shownPanes = s.store.shownPanes :=
      Store.shownPanes_switchWindow hshown
    rw [hzoomed] at hpane
    rw [hsame]
    exact hzoom pane hpane
  · exact .inl (zoomShown_of_none (hzoomed.trans hz))
  · exact zoom_passed hpasses hzoomed (.inr hun)

theorem settled_afterReload {after : AfterReload} (h : s.Settled)
    (hphase : s.calls.lookup i = some phase)
    (hfocus : phase.Refocuses s.store.focusedPane s.store.activeSession →
      after.Refocuses s.store.focusedPane)
    (hnot : ¬phase.Unzooms s.store.zoomedPane) (hin : s.ReloadsInTime i after) :
    s.SettledBy i (s.store.afterReload after) := by
  have hpasses : s.PassesZoom i none := passesZoom_of hphase fun h => absurd h hnot
  cases after with
  | done =>
    exact SettledBy.same h (passesFocus_of hphase fun h => (hfocus h).elim) hpasses
      ⟨rfl,rfl,rfl,rfl⟩
  | focusFirstLeaf session => exact ⟨focus_first hin,zoom_kept h hphase hnot rfl rfl⟩
  | gotoPane session pane =>
    exact ⟨.inr (.inl ⟨_,rfl,trivial⟩),zoom_kept h hphase hnot rfl rfl⟩
  | focusSplit pane => exact ⟨focus_set rfl rfl rfl hin,zoom_kept h hphase hnot rfl rfl⟩
  | switchWindow window =>
    refine ⟨?_,zoom_switchWindow h hpasses hin.1⟩
    cases hactive : s.store.activeSession with
    | none =>
      have hsame : s.store.switchWindow window = s.store := by
        rw [Store.switchWindow,hactive]
      rw [Store.afterReload,hsame]
      cases hpane : s.store.focusedPane with
      | none =>
        left
        intro pane hpane'
        rw [hpane] at hpane'
        cases hpane'
      | some pane => exact focus_set hpane rfl rfl (hin.2 hactive pane hpane)
    | some session =>
      refine .inl (Store.focusShown_switchWindow _ _ fun hnone => ?_)
      rw [hactive] at hnone
      cases hnone
  | adopt session => exact settled_adoptIfNone h hphase (fun h => (hfocus h).elim) hnot
  | refocusClosed session pane =>
    rw [Store.afterReload]
    split
    · rename_i hpane
      exact ⟨focus_first (hin hpane.1 hpane.2),zoom_kept h hphase hnot rfl rfl⟩
    · rename_i hpane
      exact SettledBy.same h (passesFocus_of hphase fun h => absurd (hfocus h) hpane) hpasses
        ⟨rfl,rfl,rfl,rfl⟩

theorem settled_removeSession {home : WindowId → SessionId} (h : s.Settled)
    (howned : s.store.Owned home) (hphase : s.calls.lookup i = some phase)
    (hfocus : phase.Refocuses s.store.focusedPane s.store.activeSession →
      s.store.activeSession = some session)
    (hnot : ¬phase.Unzooms s.store.zoomedPane) :
    s.SettledBy i (s.store.removeSession session) := by
  by_cases hactive : s.store.activeSession = some session
  · exact SettledBy.cleared ⟨if_pos hactive,if_pos hactive⟩
  · rcases Store.removeSessionNow_cases howned session with hcleared | hsame
    · exact SettledBy.cleared hcleared
    · exact SettledBy.same h (passesFocus_of hphase fun h => absurd (hfocus h) hactive)
        (passesZoom_of hphase fun h => absurd h hnot) hsame

theorem settled_afterSessions {home : WindowId → SessionId} {after : AfterSessions}
    (h : s.Settled) (howned : s.store.Owned home)
    (hphase : s.calls.lookup i = some (.listSessions after)) (hin : s.SessionsInTime after) :
    s.SettledBy i (s.store.afterSessions after) := by
  have hsame : ∀ {phase' : Option Awaiting},
      (Awaiting.Refocuses s.store.focusedPane s.store.activeSession (.listSessions after) →
        ∃ p ∈ phase', p.Refocuses s.store.focusedPane s.store.activeSession) →
      ¬Awaiting.Unzooms s.store.zoomedPane (.listSessions after) →
        s.SettledBy i (s.store,phase') := fun hfocus hnot =>
    SettledBy.same h (passesFocus_of hphase hfocus)
      (passesZoom_of hphase fun h => absurd h hnot) ⟨rfl,rfl,rfl,rfl⟩
  cases after with
  | done => exact hsame (fun h => h.elim) fun h => h
  | newSession session =>
    exact ⟨.inr (.inl ⟨_,rfl,trivial⟩),zoom_adopt h hphase (fun h => h) (.inr hin)⟩
  | loadInitial =>
    rw [Store.afterSessions]
    split
    · rename_i first hfirst
      exact ⟨.inr (.inl ⟨_,rfl,trivial⟩),
        zoom_adopt h hphase (fun h => h) (.inr (hin first hfirst))⟩
    · exact hsame (fun h => h.elim) fun h => h
  | closeAction session =>
    cases session with
    | none => exact hsame (fun h => absurd h (by simp [Awaiting.Refocuses])) fun h => h
    | some session =>
      rw [Store.afterSessions]
      split
      · exact ⟨.inr (.inl ⟨_,rfl,trivial⟩),zoom_kept h hphase (fun h => h) rfl rfl⟩
      · exact SettledBy.cleared ⟨rfl,rfl⟩
  | closeSessionAction wasActive =>
    cases wasActive with
    | false => exact hsame (fun h => absurd h Bool.false_ne_true) Bool.false_ne_true
    | true => exact SettledBy.cleared ⟨rfl,rfl⟩
  | spawned session => exact hsame (fun h => h.elim) fun h => h
  | closed session pane =>
    cases session with
    | none =>
      exact hsame (fun h => absurd h (by simp [Awaiting.Refocuses,Gui.Refocuses])) fun h => h
    | some session =>
      have hremove : s.SettledBy i (s.store.removeSession session) :=
        settled_removeSession h howned hphase (fun h => h.2.2.2) fun h => h
      rw [Store.afterSessions]
      split
      · split
        · exact hremove
        · exact hsame (fun h => ⟨_,rfl,h⟩) fun h => h
      · exact hremove

theorem settled_afterStates {after : AfterStates} (h : s.Settled)
    (hphase : s.calls.lookup i = some (.paneStates after)) :
    s.SettledBy i (s.store.afterStates after) := by
  have hsame : ∀ {phase' : Option Awaiting},
      (Awaiting.Refocuses s.store.focusedPane s.store.activeSession (.paneStates after) →
        ∃ p ∈ phase', p.Refocuses s.store.focusedPane s.store.activeSession) →
        s.SettledBy i (s.store,phase') := fun hfocus =>
    SettledBy.same h (passesFocus_of hphase hfocus)
      (passesZoom_of hphase fun h => h.elim) ⟨rfl,rfl,rfl,rfl⟩
  cases after with
  | newPaneAction session window => exact hsame fun _ => ⟨_,rfl,trivial⟩
  | spawned session =>
    rw [Store.afterStates]
    split
    · split
      · exact hsame fun h => h.elim
      · exact settled_adoptIfNone h hphase (fun h => h) fun h => h
    · exact hsame fun h => h.elim
  | closed session pane =>
    rw [Store.afterStates]
    split
    · exact hsame fun h => ⟨_,rfl,h.1,h.2.1⟩
    · rename_i hactive
      exact hsame fun h => absurd h.2.2.2 hactive

/-- The list of sessions has come: one that has vanished is neither focused nor zoomed. -/
theorem settled_reloadSessions {home : WindowId → SessionId} (h : s.Settled)
    (howned : s.store.Owned home) (sessions : List SessionInfo) :
    Settled { s with store := s.store.reloadSessions sessions } := by
  rcases Store.reloadSessions_cases howned sessions with hcleared | hsame
  · exact ⟨.inl (focusShown_of_cleared hcleared),.inl (zoomShown_of_none hcleared.zoomed)⟩
  · refine ⟨?_,?_⟩
    · unfold Refocusing
      rw [hsame.focused,hsame.active]
      exact h.focus.imp_left (FocusShown.of_same · hsame)
    · unfold Unzooming
      rw [hsame.zoomed]
      exact h.zoom.imp_left (ZoomShown.of_same · hsame)

/-- What is focused and zoomed is among the panes that are shown after, or not for long. -/
theorem settled_mayShow {panes : List PaneId} (hfocus : s.PassesFocus i next.2)
    (hzoom : s.PassesZoom i next.2) (hfocused : next.1.focusedPane = s.store.focusedPane)
    (hzoomed : next.1.zoomedPane = s.store.zoomedPane)
    (hactive : next.1.activeSession = s.store.activeSession)
    (hshown : ∀ pane ∈ panes, pane ∈ next.1.shownPanes) (h : s.MayShow panes) :
    s.SettledBy i next := by
  refine ⟨focus_passed hfocus hfocused hactive (h.1.imp_left fun hf pane hpane => ?_),
    zoom_passed hzoom hzoomed (h.2.imp_left fun hz pane hpane => ?_)⟩
  · rw [hfocused] at hpane
    exact hshown pane (hf pane hpane)
  · rw [hzoomed] at hpane
    exact hshown pane (hz pane hpane)

theorem settled_reloadWindows {home : WindowId → SessionId} {windows : List WindowId}
    (h : s.Settled) (howned : s.store.Owned home) (hfocus : s.PassesFocus i next.2)
    (hzoom : s.PassesZoom i next.2) (hnext : next.1 = s.store.reloadWindows session windows)
    (hin : s.WindowsInTime session windows) : s.SettledBy i next := by
  by_cases hactive : s.store.activeSession = some session
  · rcases hin hactive with hkeeps | hmay
    · have hshown : (s.store.reloadWindows session windows).shownPanes = s.store.shownPanes ∨
          s.store.shownPanes = [] := by
        cases hw : s.store.shownWindow with
        | none =>
          right
          rw [Store.shownPanes_eq,hw]
          rfl
        | some w =>
          obtain ⟨hmem,hchosen⟩ := hkeeps w hw
          exact .inl (Store.shownPanes_reloadWindows hactive hw hmem hchosen)
      refine settled_mayShow hfocus hzoom (by rw [hnext]; rfl) (by rw [hnext]; rfl)
        (by rw [hnext]; rfl) (fun pane hpane => ?_) ⟨h.focus,h.zoom⟩
      rw [hnext]
      rcases hshown with hsame | hnil
      · rwa [hsame]
      · rw [hnil] at hpane
        cases hpane
    · exact settled_mayShow hfocus hzoom (by rw [hnext]; rfl) (by rw [hnext]; rfl)
        (by rw [hnext]; rfl) (fun pane hpane => by cases hpane) hmay
  · refine SettledBy.same h hfocus hzoom ?_
    rw [hnext]
    exact Store.sameShown_reloadWindows howned hactive

theorem settled_afterLayout {copy : Table WindowId LayoutNode} {todo : List WindowId}
    {after : AfterReload} {w : WindowId} {copied : Table WindowId LayoutNode} (h : s.Settled)
    (hphase : s.calls.lookup i = some (.windowLayout copied w todo after))
    (hin : todo = [] → s.MayShow (leafPanes (s.store.shownWindow.bind copy.lookup))) :
    s.SettledBy i (s.store.afterLayout copy todo after) := by
  have hpasses : ∀ phase' : Awaiting, (after.Refocuses s.store.focusedPane →
      phase'.Refocuses s.store.focusedPane s.store.activeSession) →
        s.PassesFocus i (some phase') ∧ s.PassesZoom i (some phase') := fun _ hfocus =>
    ⟨passesFocus_of hphase fun h => ⟨_,rfl,hfocus h⟩,passesZoom_of hphase fun h => h.elim⟩
  cases todo with
  | nil =>
    obtain ⟨hfocus,hzoom⟩ := hpasses (.ensureStreams after) fun h => h
    refine settled_mayShow hfocus hzoom rfl rfl rfl (fun pane hpane => ?_) (hin rfl)
    rw [Store.shownPanes_eq]
    exact hpane
  | cons w' todo =>
    obtain ⟨hfocus,hzoom⟩ := hpasses (.windowLayout copy w' todo after) fun h => h
    exact SettledBy.same h hfocus hzoom ⟨rfl,rfl,rfl,rfl⟩

theorem settled_resume {home : WindowId → SessionId} {reply : DaemonReply} (h : s.Settled)
    (howned : s.store.Owned home) (hphase : s.calls.lookup i = some phase)
    (hwindows : ∀ session windows wasActive, phase = .closeSession session windows wasActive →
      ∀ w ∈ windows, home w = session)
    (hs : s.store.resume phase reply = some next) (hin : s.RepliesInTime i phase reply) :
    s.SettledBy i next := by
  have hsame : ∀ {phase' : Option Awaiting},
      (phase.Refocuses s.store.focusedPane s.store.activeSession →
        ∃ p ∈ phase', p.Refocuses s.store.focusedPane s.store.activeSession) →
      ¬phase.Unzooms s.store.zoomedPane → s.SettledBy i (s.store,phase') := fun hfocus hnot =>
    SettledBy.same h (passesFocus_of hphase hfocus)
      (passesZoom_of hphase fun h => absurd h hnot) ⟨rfl,rfl,rfl,rfl⟩
  cases phase with
  | spawnSession | openSplit _ | newWindow _ | openPane _ _ =>
    cases reply <;> cases hs <;> exact hsame (fun h => h.elim) fun h => h
  | closePane session pane =>
    have hkept : s.SettledBy i (if s.store.zoomedPane = some pane then s.store.unzoom else s.store,
        some (.listSessions (.closeAction session))) := by
      have hpasses : s.PassesFocus i (some (.listSessions (.closeAction session))) :=
        passesFocus_of hphase fun h => ⟨_,rfl,h⟩
      split
      · exact ⟨focus_passed hpasses rfl rfl h.focus,.inl (zoomShown_of_none rfl)⟩
      · rename_i hne
        exact hsame (fun h => ⟨_,rfl,h⟩) hne
    cases reply <;> cases hs <;> exact hkept
  | closeWindow session window =>
    have hkept : s.SettledBy i (s.store.closeWindowAction session window,
        some (.listSessions (.closeAction session))) := by
      have hpasses : s.PassesFocus i (some (.listSessions (.closeAction session))) :=
        passesFocus_of hphase fun h => ⟨_,rfl,h⟩
      have hzoom : s.PassesZoom i (some (.listSessions (.closeAction session))) :=
        passesZoom_of hphase fun h => h.elim
      by_cases hshown : s.store.shownWindow = some window
      · exact settled_mayShow hpasses hzoom rfl rfl rfl (fun pane hpane => by cases hpane)
          (hin hshown)
      · exact SettledBy.same h hpasses hzoom (Store.sameShown_closeWindowAction hshown)
    cases reply <;> cases hs <;> exact hkept
  | closeSession session windows wasActive =>
    cases reply with
    | ok =>
      obtain rfl := Option.some.inj hs
      have hfocus : s.PassesFocus i (some (.listSessions (.closeSessionAction wasActive))) :=
        passesFocus_of hphase fun h => h.elim
      have hzoom : s.PassesZoom i (some (.listSessions (.closeSessionAction wasActive))) :=
        passesZoom_of hphase fun h => h.elim
      by_cases hactive : s.store.activeSession = some session
      · rcases hin hactive with hwas | hmay
        · exact ⟨.inr (.inl ⟨_,rfl,hwas⟩),.inr (.inl ⟨_,rfl,hwas⟩)⟩
        · exact settled_mayShow hfocus hzoom rfl rfl rfl (fun pane hpane => by cases hpane) hmay
      · exact SettledBy.same h hfocus hzoom (Store.sameShown_closeSessionAction howned
          (hwindows session windows wasActive rfl) hactive)
    | failed =>
      obtain rfl := Option.some.inj hs
      exact hsame (fun h => h.elim) fun h => h
    | _ => cases hs
  | listSessions after =>
    cases reply with
    | sessions sessions =>
      obtain rfl := Option.some.inj hs
      have hlisted := settled_afterSessions (settled_reloadSessions h howned sessions)
        (Store.owned_reloadSessions howned sessions) hphase hin
      exact ⟨hlisted.focus,hlisted.zoom⟩
    | failed =>
      obtain rfl := Option.some.inj hs
      exact settled_afterSessions h howned hphase hin
    | _ => cases hs
  | paneStates after =>
    cases reply <;> cases hs <;> exact settled_afterStates h hphase
  | reloadWindows session =>
    cases reply with
    | windows windows =>
      obtain rfl := Option.some.inj hs
      exact settled_reloadWindows h howned (passesFocus_of hphase fun h => h.elim)
        (passesZoom_of hphase fun h => h.elim) rfl hin
    | failed =>
      obtain rfl := Option.some.inj hs
      exact hsame (fun h => h.elim) fun h => h
    | _ => cases hs
  | listWindows session after =>
    cases reply with
    | windows windows =>
      obtain rfl := Option.some.inj hs
      cases windows with
      | nil =>
        exact settled_reloadWindows h howned (passesFocus_of hphase fun h => ⟨_,rfl,h⟩)
          (passesZoom_of hphase fun h => h.elim) rfl hin
      | cons w todo =>
        exact settled_reloadWindows h howned (passesFocus_of hphase fun h => ⟨_,rfl,h⟩)
          (passesZoom_of hphase fun h => h.elim) rfl hin
    | failed =>
      obtain rfl := Option.some.inj hs
      exact settled_afterReload h hphase (fun h => h) (fun h => h) hin
    | _ => cases hs
  | windowLayout copy w todo after =>
    cases reply with
    | layout tree =>
      obtain rfl := Option.some.inj hs
      refine settled_afterLayout h hphase fun htodo => ?_
      subst htodo
      exact hin
    | failed =>
      obtain rfl := Option.some.inj hs
      refine settled_afterLayout h hphase fun htodo => ?_
      subst htodo
      exact hin
    | _ => cases hs
  | ensureStreams after =>
    cases reply with
    | ok =>
      obtain rfl := Option.some.inj hs
      exact settled_afterReload h hphase (fun h => h) (fun h => h) hin
    | _ => cases hs
  | reloadFocusedBlocks pane =>
    cases reply with
    | ok =>
      obtain rfl := Option.some.inj hs
      exact ⟨focus_set rfl rfl rfl hin,zoom_kept h hphase (fun h => h) rfl rfl⟩
    | _ => cases hs

theorem settled_act {action : GuiAction} (h : s.Settled) (hi : i ∉ s.calls)
    (hin : s.InTime (.act i action)) : s.SettledBy i (s.store.act action) := by
  have hfocus : ∀ after, s.PassesFocus i after :=
    fun _ phase hphase => absurd hphase (Table.lookup_of_notMem hi)
  have hzoom : ∀ after, s.PassesZoom i after :=
    fun _ phase hphase => absurd hphase (Table.lookup_of_notMem hi)
  have hsame : ∀ after, s.SettledBy i (s.store,after) :=
    fun after => SettledBy.same h (hfocus after) (hzoom after) ⟨rfl,rfl,rfl,rfl⟩
  cases action with
  | newSession | newPaneAction | loadInitial | reloadSessions | closePaneAction _
  | closeWindowAction _ | closeSessionAction _ | reloadWindows _ | reloadSession _ => exact hsame _
  | switchSession session => exact ⟨.inr (.inl ⟨_,rfl,trivial⟩),.inl (zoomShown_of_none rfl)⟩
  | gotoPane session pane =>
    rw [Store.act]
    split
    · rename_i hactive
      exact ⟨focus_set rfl rfl rfl (hin hactive),zoom_same h (hzoom none) rfl rfl⟩
    · exact ⟨.inr (.inl ⟨_,rfl,trivial⟩),.inl (zoomShown_of_none rfl)⟩
  | doSplit pane =>
    rw [Store.act]
    split <;> exact hsame _
  | switchWindow window =>
    refine ⟨?_,zoom_switchWindow h (hzoom none) hin⟩
    cases hactive : s.store.activeSession with
    | none =>
      have hsame : s.store.switchWindow window = s.store := by
        rw [Store.switchWindow,hactive]
      rw [Store.act,hsame]
      exact focus_passed (hfocus none) rfl rfl h.focus
    | some session =>
      refine .inl (Store.focusShown_switchWindow _ _ fun hnone => ?_)
      rw [hactive] at hnone
      cases hnone
  | focusPane pane => exact ⟨focus_set rfl rfl rfl hin,zoom_same h (hzoom none) rfl rfl⟩
  | zoomPane pane =>
    rw [Store.act,Store.zoomPane]
    split
    · rename_i target htarget
      obtain ⟨hmay,hzoomed⟩ := hin target htarget
      refine ⟨focus_set rfl rfl rfl hmay,?_⟩
      by_cases hcur : s.store.zoomedPane = some target
      · exact .inl (zoomShown_of_none (if_pos hcur))
      · have hset : ({ s.store with
            zoomedPane := if s.store.zoomedPane = some target then none else some target
            focusedPane := some target } : Store).zoomedPane = some target := if_neg hcur
        rw [ZoomSettled,hset]
        rcases hzoomed with hmem | hcur' | hun
        · left
          intro pane hpane
          rw [hset] at hpane
          obtain rfl := Option.some.inj hpane
          exact hmem
        · exact absurd hcur' hcur
        · exact .inr (.inr hun)
    · exact hsame none
  | unzoom =>
    exact ⟨focus_passed (hfocus none) rfl rfl h.focus,.inl (zoomShown_of_none rfl)⟩

/-- The event that is applied hands on what it owes the focus. -/
theorem settled_applyEvent {event : LifecycleEvent} {events : List LifecycleEvent}
    (h : s.Settled) (hi : i ∉ s.calls) (hevents : s.events = event :: events) :
    SettledBy { s with events } i (s.store.applyLifecycleEvent event) := by
  have hstore : (s.store.applyLifecycleEvent event).1 = s.store :=
    s.store.applyLifecycleEvent_store event
  have hhands : event.Refocuses s.store.focusedPane s.store.activeSession →
      ∃ phase ∈ (s.store.applyLifecycleEvent event).2,
        phase.Refocuses s.store.focusedPane s.store.activeSession := by
    cases event with
    | closed session pane => exact fun h => ⟨_,rfl,h⟩
    | _ => exact fun h => h.elim
  have hne : ∀ {j phase}, s.calls.lookup j = some phase → j ≠ i := by
    rintro j phase hphase rfl
    exact Table.lookup_of_notMem hi hphase
  refine ⟨?_,?_⟩
  · rw [FocusSettled,hstore]
    rcases h.focus with hshown | ⟨j,phase,hphase,hrefocuses⟩ | ⟨e,he,hrefocuses⟩
    · exact .inl hshown
    · exact .inr (.inr (.inl ⟨j,phase,hne hphase,hphase,hrefocuses⟩))
    · rw [hevents] at he
      rcases List.mem_cons.mp he with rfl | he
      · exact .inr (.inl (hhands hrefocuses))
      · exact .inr (.inr (.inr ⟨e,he,hrefocuses⟩))
  · rw [ZoomSettled,hstore]
    rcases h.zoom with hshown | ⟨j,phase,hphase,hunzooms⟩
    · exact .inl hshown
    · exact .inr (.inr ⟨j,phase,hne hphase,hphase,hunzooms⟩)

end Screen

section drawn

variable {home : Homes} {s : Store}

/-! A pane that is zoomed in its own window is drawn once, as all others are. -/

/-- What is drawn of one window. -/
def cardsOf (s : Store) (w : WindowId) : List PaneId :=
  match s.layouts.lookup w, s.zoomedPane with
  | none, _ => []
  | some tree, some zoomed => if s.shownWindow = some w then [zoomed] else tree.allLeaves
  | some tree, none => tree.allLeaves

theorem cards_connected (s : Store) : s.cards true = s.shownWindows.flatMap (cardsOf s) :=
  if_neg (by simp)

/-- What is drawn of a window are panes of it. -/
theorem cardsOf_home (h : s.Housed home) (hzoom : s.ZoomShown) (w : WindowId) :
    (cardsOf s w).Nodup ∧ ∀ pane ∈ cardsOf s w, home.pane pane = w := by
  unfold cardsOf
  split
  · simp
  · rename_i tree zoomed htree hzoomed
    split
    · rename_i hshown
      have hmem : zoomed ∈ s.shownPanes := hzoom zoomed hzoomed
      rw [Store.shownPanes_eq,hshown,Option.bind_some,htree] at hmem
      refine ⟨List.nodup_singleton zoomed,fun pane hpane => ?_⟩
      rw [List.mem_singleton.mp hpane]
      exact (h.filed w tree htree).2 zoomed hmem
    · exact h.filed w tree htree
  · rename_i tree htree _
    exact h.filed w tree htree

theorem drawnOnce (h : s.Housed home) (hzoom : s.ZoomShown) : s.DrawnOnce := by
  have htabs : s.shownWindows.Nodup := by
    unfold Store.shownWindows Store.windowTabs
    cases s.activeSession with
    | none => exact List.nodup_nil
    | some session =>
      rw [Option.elim_some]
      cases hl : s.windows.lookup session with
      | none => exact List.nodup_nil
      | some windows => exact h.tabs session windows hl
  refine ⟨?_,fun w hw tree htree pane hpane hvisible => ?_⟩
  · rw [cards_connected,List.nodup_flatMap]
    refine ⟨fun w _ => (cardsOf_home h hzoom w).1,htabs.imp fun {v w} hne pane hv hw => hne ?_⟩
    rw [← (cardsOf_home h hzoom v).2 pane hv,(cardsOf_home h hzoom w).2 pane hw]
  · rw [cards_connected]
    refine List.mem_flatMap.mpr ⟨w,hw,?_⟩
    rw [cardsOf,htree]
    cases hzoomed : s.zoomedPane with
    | none => exact hpane
    | some zoomed =>
      by_cases hshown : s.shownWindow = some w
      · obtain rfl := hvisible hshown zoomed hzoomed
        simp [hshown]
      · simp [hshown,hpane]

end drawn

namespace Screen

variable {home : Homes} {s t : Screen} {i : Nat}

structure Inv (home : Homes) (s : Screen) : Prop where
  store : s.store.Housed home
  calls : ∀ i phase, s.calls.lookup i = some phase → phase.Housed home

theorem inv_proceed {next : Stretch} (h : s.Inv home) (hnext : next.Housed home) :
    (s.proceed i next).Inv home := by
  refine ⟨hnext.store,fun j phase hphase => ?_⟩
  simp only [proceed] at hphase
  split at hphase
  · rename_i phase' hphase'
    rcases Table.lookup_insert_eq_some.mp hphase with ⟨-,rfl⟩ | ⟨-,hphase⟩
    · exact hnext.phase phase hphase'
    · exact h.calls j phase hphase
  · exact h.calls j phase (Table.lookup_erase_eq_some.mp hphase).2

/-- A step keeps the screen settled, if it is in time. -/
theorem settled_step (hi : s.Inv home) (h : s.Settled) {e : ScreenStep} (hin : s.InTime e)
    (ht : s.step home e = some t) : t.Inv home ∧ t.Settled := by
  cases e with
  | act i action =>
    rw [step,Option.ite_none_right_eq_some,Option.some.injEq] at ht
    obtain ⟨hfree,rfl⟩ := ht
    exact ⟨inv_proceed hi (housed_act hi.store action),
      settled_proceed (settled_act h hfree.2 hin)⟩
  | emit event =>
    obtain rfl := Option.some.inj ht
    refine ⟨⟨hi.store,hi.calls⟩,?_,h.zoom⟩
    rcases h.focus with hshown | hcall | ⟨e,he,hrefocuses⟩
    · exact .inl hshown
    · exact .inr (.inl hcall)
    · exact .inr (.inr ⟨e,List.mem_append_left _ he,hrefocuses⟩)
  | applyEvent =>
    cases hevents : s.events with
    | nil => simp [step,hevents] at ht
    | cons event events =>
      simp only [step,hevents,Option.ite_none_left_eq_some,Option.some.injEq] at ht
      obtain ⟨hfree,rfl⟩ := ht
      have hinv : Inv home { s with events } := ⟨hi.store,hi.calls⟩
      exact ⟨inv_proceed hinv (housed_applyLifecycleEvent hi.store event),
        settled_proceed (settled_applyEvent h hfree hevents)⟩
  | resume i reply =>
    obtain ⟨phase,hphase,ht⟩ := Option.bind_eq_some_iff.mp ht
    rw [Option.ite_none_right_eq_some] at ht
    obtain ⟨hfits,ht⟩ := ht
    obtain ⟨next,hnext,rfl⟩ := Option.map_eq_some_iff.mp ht
    have hhoused : phase.Housed home := hi.calls i phase hphase
    refine ⟨inv_proceed hi (housed_resume hi.store hhoused hfits hnext),settled_proceed ?_⟩
    refine settled_resume h hi.store.owned hphase (fun σ windows was heq => ?_) hnext
      (hin phase hphase)
    subst heq
    exact hhoused

/-- Once nothing is in progress, nothing else will set the focus or clear the zoom. -/
theorem Settled.sound (hi : s.Inv home) (h : s.Settled) (hquiet : s.Quiescent) :
    s.store.Sound := by
  obtain ⟨hevents,hcalls⟩ := hquiet
  have hzoom : s.store.ZoomShown := by
    rcases h.zoom with hshown | ⟨j,phase,hphase,-⟩
    · exact hshown
    · exact absurd hphase (hcalls j phase)
  refine ⟨?_,hzoom,drawnOnce hi.store hzoom⟩
  rcases h.focus with hshown | ⟨j,phase,hphase,-⟩ | ⟨event,hevent,-⟩
  · exact hshown
  · exact absurd hphase (hcalls j phase)
  · rw [hevents] at hevent
    cases hevent

/-- While each focus, zoom and change of what is shown is in time, focus and zoom are on panes
that are shown whenever nothing is in progress. -/
theorem screen_sound (home : Homes) (steps : List ScreenStep)
    (hin : Along (step home) InTime start steps) :
    Always (step home) (fun s => s.Quiescent → s.store.Sound) start steps := by
  have hinv : start.Inv home := by
    refine ⟨⟨fun σ windows hl => ?_,fun σ windows hl => ?_,fun w tree hl => ?_⟩,
      fun i phase hphase => ?_⟩
    · cases hl
    · cases hl
    · cases hl
    · cases hphase
  have hsettled : start.Settled :=
    ⟨.inl fun pane hpane => (by cases hpane),.inl fun pane hpane => (by cases hpane)⟩
  have hall := hin.invariant (I := fun s => s.Inv home ∧ s.Settled)
    (fun s e t h hin ht => settled_step h.1 h.2 hin ht) ⟨hinv,hsettled⟩
  exact hall.mono fun s h => h.2.sound h.1

theorem inTime_resume {phase : Awaiting} {reply : DaemonReply}
    (hphase : s.calls.lookup i = some phase) (h : s.RepliesInTime i phase reply) :
    s.InTime (.resume i reply) := by
  intro phase' hphase'
  obtain rfl := Option.some.inj (hphase.symm.trans hphase')
  exact h

/-- A session is loaded, and its pane zoomed. -/
theorem screen_sound_loaded :
    Always (step ⟨fun _ => ⟨1⟩,fun pane => ⟨pane.uuid⟩⟩) (fun s => s.Quiescent → s.store.Sound)
      start [.act 1 .loadInitial,.resume 1 (.sessions [⟨⟨1⟩,1⟩]),.resume 1 (.windows [⟨1⟩]),
        .resume 1 (.layout (.leaf ⟨1⟩)),.resume 1 .ok,.act 2 (.zoomPane none)] := by
  refine screen_sound _ _ ⟨trivial,fun s₁ h₁ => ?_⟩
  obtain rfl := Option.some.inj h₁
  refine ⟨inTime_resume rfl fun first _ => .inr (.inl rfl),fun s₂ h₂ => ?_⟩
  obtain rfl := Option.some.inj h₂
  refine ⟨inTime_resume rfl fun _ => .inr ⟨.inl ?_,.inl ?_⟩,fun s₃ h₃ => ?_⟩
  · intro pane hpane
    cases hpane
  · intro pane hpane
    cases hpane
  obtain rfl := Option.some.inj h₃
  refine ⟨inTime_resume rfl ⟨.inl ?_,.inl ?_⟩,fun s₄ h₄ => ?_⟩
  · intro pane hpane
    cases hpane
  · intro pane hpane
    cases hpane
  obtain rfl := Option.some.inj h₄
  refine ⟨inTime_resume rfl (.inl rfl),fun s₅ h₅ => ?_⟩
  obtain rfl := Option.some.inj h₅
  refine ⟨fun target htarget => ?_,fun _ _ => trivial⟩
  obtain rfl := Option.some.inj htarget
  exact ⟨.inl (by decide),.inl (by decide)⟩

/-- A session of two windows of one pane each: the first pane is zoomed, and then the second
window switched to. -/
def switchedZoomed : List ScreenStep :=
  [.act 1 .loadInitial,.resume 1 (.sessions [⟨⟨1⟩,2⟩]),.resume 1 (.windows [⟨1⟩,⟨2⟩]),
    .resume 1 (.layout (.leaf ⟨1⟩)),.resume 1 (.layout (.leaf ⟨2⟩)),.resume 1 .ok,
    .act 2 (.zoomPane none),.act 3 (.switchWindow ⟨2⟩)]

theorem zoomed_pane_drawn_twice :
    ¬Always (step ⟨fun _ => ⟨1⟩,fun pane => ⟨pane.uuid⟩⟩) (fun s => s.Quiescent → s.store.Sound)
      start switchedZoomed := by
  intro hall
  have hsound : Store.Sound _ :=
    hall _ (List.prefix_refl _) _ rfl ⟨rfl,fun i phase hphase => by cases hphase⟩
  have hshown := hsound.zoom ⟨1⟩ rfl
  revert hshown
  decide

end Screen
end Pyre.Gui
