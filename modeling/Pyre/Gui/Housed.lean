import Pyre.Gui.Actions

/-!
Where the windows and panes of the store are at home: what the daemon replies of a session's windows
and a window's panes is of these, and stays so through all functions that copy it about.
-/

set_option autoImplicit false

namespace Pyre.Gui
open Base

/-- The session of each window and the window of each pane, which the daemon never changes. -/
structure Homes where
  window : WindowId → SessionId
  pane : PaneId → WindowId

/-- The trees are of the panes of their windows. -/
def Homes.Filed (home : Homes) (layouts : Table WindowId LayoutNode) : Prop :=
  ∀ w tree, layouts.lookup w = some tree →
    tree.allLeaves.Nodup ∧ ∀ pane ∈ tree.allLeaves, home.pane pane = w

/-- What the daemon replies about windows and trees is of the session and the window asked for. -/
def Homes.Fits (home : Homes) : Awaiting → DaemonReply → Prop
  | .listWindows session _, .windows windows | .reloadWindows session, .windows windows =>
    windows.Nodup ∧ ∀ w ∈ windows, home.window w = session
  | .windowLayout _ w _ _, .layout tree =>
    tree.allLeaves.Nodup ∧ ∀ pane ∈ tree.allLeaves, home.pane pane = w
  | _, _ => True

instance (home : Homes) : ∀ phase reply, Decidable (home.Fits phase reply)
  | phase, reply => by
    unfold Homes.Fits
    split <;> infer_instance

/-! What holds in every run: windows are of their sessions, and trees of their windows. -/

structure Store.Housed (home : Homes) (s : Store) : Prop where
  owned : s.Owned home.window
  tabs : ∀ session windows, s.windows.lookup session = some windows → windows.Nodup
  filed : home.Filed s.layouts

def Awaiting.Housed (home : Homes) : Awaiting → Prop
  | .closeSession session windows _ => ∀ w ∈ windows, home.window w = session
  | .windowLayout copy _ _ _ => home.Filed copy
  | _ => True

structure Stretch.Housed (home : Homes) (next : Stretch) : Prop where
  store : next.1.Housed home
  phase : ∀ phase ∈ next.2, phase.Housed home

section housed

variable {home : Homes} {s t : Store} {session : SessionId} {phase : Awaiting} {next : Stretch}
  {after : Option Awaiting}

theorem Store.Housed.sub (h : s.Housed home)
    (hwindows : ∀ session windows, t.windows.lookup session = some windows →
      s.windows.lookup session = some windows)
    (hlayouts : ∀ w tree, t.layouts.lookup w = some tree → s.layouts.lookup w = some tree) :
    t.Housed home where
  owned session windows hl := h.owned session windows (hwindows session windows hl)
  tabs session windows hl := h.tabs session windows (hwindows session windows hl)
  filed w tree hl := h.filed w tree (hlayouts w tree hl)

theorem Store.Housed.congr (h : s.Housed home) (hwindows : t.windows = s.windows)
    (hlayouts : t.layouts = s.layouts) : t.Housed home :=
  h.sub (fun _ _ hl => hwindows ▸ hl) fun _ _ hl => hlayouts ▸ hl

theorem lookup_of_dropLayouts {layouts : Table WindowId LayoutNode} {windows : List WindowId}
    {w : WindowId} {tree : LayoutNode}
    (h : (Store.dropLayouts layouts windows).lookup w = some tree) :
    layouts.lookup w = some tree :=
  (Table.lookup_retain_eq_some.mp h).1

theorem housed_reloadSessions (h : s.Housed home) (sessions : List SessionInfo) :
    (s.reloadSessions sessions).Housed home :=
  h.sub (fun _ _ hl => (Table.lookup_retain_eq_some.mp hl).1) fun _ _ hl =>
    lookup_of_dropLayouts hl

theorem housed_removeSessionNow (h : s.Housed home) (session : SessionId) :
    (s.removeSessionNow session).Housed home :=
  h.sub (fun _ _ hl => (Table.lookup_erase_eq_some.mp hl).2) fun _ _ hl =>
    lookup_of_dropLayouts hl

theorem housed_closeSessionAction (h : s.Housed home) (windows : List WindowId) :
    (s.closeSessionAction session windows).Housed home :=
  h.sub (fun _ _ hl => (Table.lookup_erase_eq_some.mp hl).2) fun _ _ hl =>
    lookup_of_dropLayouts hl

theorem housed_closeWindowAction (h : s.Housed home) (active : Option SessionId) (w : WindowId) :
    (s.closeWindowAction active w).Housed home :=
  h.sub (fun _ _ hl => hl) fun _ _ hl => (Table.lookup_erase_eq_some.mp hl).2

theorem housed_reloadWindows (h : s.Housed home) {windows : List WindowId}
    (hnodup : windows.Nodup) (howned : ∀ w ∈ windows, home.window w = session) :
    (s.reloadWindows session windows).Housed home := by
  refine ⟨Store.owned_reloadWindows h.owned howned,fun session' windows' hl => ?_,h.filed⟩
  rcases Table.lookup_insert_eq_some.mp hl with ⟨-,rfl⟩ | ⟨-,hl⟩
  · exact hnodup
  · exact h.tabs session' windows' hl

theorem housed_done (h : s.Housed home) : Stretch.Housed home (s,none) :=
  ⟨h,fun _ hphase => by cases hphase⟩

theorem housed_awaits (h : s.Housed home) (hphase : phase.Housed home) :
    Stretch.Housed home (s,some phase) := by
  refine ⟨h,fun phase' hphase' => ?_⟩
  obtain rfl := Option.some.inj hphase'
  exact hphase

theorem housed_successor (session : Option SessionId) :
    (Awaiting.successor session).Housed home := by
  cases session <;> trivial

theorem housed_switchWindow (h : s.Housed home) (window : WindowId) :
    (s.switchWindow window).Housed home := by
  unfold Store.switchWindow
  split
  · exact h.congr rfl rfl
  · exact h

theorem housed_adoptIfNone (h : s.Housed home) (session : SessionId) :
    (s.adoptIfNone session).Housed home := by
  unfold Store.adoptIfNone
  split
  · exact housed_awaits (h.congr rfl rfl) trivial
  · exact housed_done h

theorem housed_removeSession (h : s.Housed home) (session : SessionId) :
    (s.removeSession session).Housed home := by
  unfold Store.removeSession
  simp only
  split
  · exact housed_awaits (housed_removeSessionNow h session) (housed_successor _)
  · exact housed_done (housed_removeSessionNow h session)

theorem housed_afterReload (h : s.Housed home) (after : AfterReload) :
    (s.afterReload after).Housed home := by
  cases after with
  | done => exact housed_done h
  | focusFirstLeaf session => exact housed_done (h.congr rfl rfl)
  | gotoPane session pane => exact housed_awaits (h.congr rfl rfl) trivial
  | focusSplit pane => exact housed_done (h.congr rfl rfl)
  | switchWindow window => exact housed_done (housed_switchWindow h window)
  | adopt session => exact housed_adoptIfNone h session
  | refocusClosed session pane =>
    rw [Store.afterReload]
    split
    · exact housed_done (h.congr rfl rfl)
    · exact housed_done h

theorem housed_afterSessions (h : s.Housed home) (after : AfterSessions) :
    (s.afterSessions after).Housed home := by
  have hfirst : (s.activateFirst).Housed home := h.congr rfl rfl
  cases after with
  | done => exact housed_done h
  | newSession session => exact housed_awaits (h.congr rfl rfl) trivial
  | loadInitial =>
    rw [Store.afterSessions]
    split
    · exact housed_awaits (h.congr rfl rfl) trivial
    · exact housed_awaits h trivial
  | closeAction session =>
    cases session with
    | none => exact housed_done h
    | some session =>
      rw [Store.afterSessions]
      split
      · exact housed_awaits h trivial
      · exact housed_awaits hfirst (housed_successor _)
  | closeSessionAction wasActive =>
    cases wasActive with
    | false => exact housed_done h
    | true => exact housed_awaits hfirst (housed_successor _)
  | spawned session => exact housed_awaits h trivial
  | closed session pane =>
    cases session with
    | none => exact housed_done h
    | some session =>
      rw [Store.afterSessions]
      split
      · split
        · exact housed_removeSession h session
        · exact housed_awaits h trivial
      · exact housed_removeSession h session

theorem housed_afterStates (h : s.Housed home) (after : AfterStates) :
    (s.afterStates after).Housed home := by
  cases after with
  | newPaneAction session window => exact housed_awaits h trivial
  | spawned session =>
    rw [Store.afterStates]
    split
    · split
      · exact housed_awaits h trivial
      · exact housed_adoptIfNone h _
    · exact housed_done h
  | closed session pane =>
    rw [Store.afterStates]
    split
    · exact housed_awaits h trivial
    · exact housed_awaits h trivial

theorem housed_afterLayout (h : s.Housed home) {copy : Table WindowId LayoutNode}
    (hcopy : home.Filed copy) (todo : List WindowId) (after : AfterReload) :
    (s.afterLayout copy todo after).Housed home := by
  cases todo with
  | nil => exact housed_awaits ⟨h.owned,h.tabs,hcopy⟩ trivial
  | cons w todo => exact housed_awaits h hcopy

theorem housed_resume {reply : DaemonReply} (h : s.Housed home) (hphase : phase.Housed home)
    (hfits : home.Fits phase reply) (hs : s.resume phase reply = some next) :
    next.Housed home := by
  cases phase with
  | spawnSession | openSplit _ | newWindow _ | openPane _ _ =>
    cases reply <;> cases hs <;> first | exact housed_done h | exact housed_awaits h trivial
  | closePane session pane =>
    have hunzoom : (if s.zoomedPane = some pane then s.unzoom else s).Housed home := by
      split
      · exact h.congr rfl rfl
      · exact h
    cases reply <;> cases hs <;> exact housed_awaits hunzoom trivial
  | closeWindow session window =>
    cases reply <;> cases hs <;>
      exact housed_awaits (housed_closeWindowAction h session window) trivial
  | closeSession session windows wasActive =>
    cases reply with
    | ok =>
      obtain rfl := Option.some.inj hs
      exact housed_awaits (housed_closeSessionAction h windows) trivial
    | failed =>
      obtain rfl := Option.some.inj hs
      exact housed_done h
    | _ => cases hs
  | listSessions after =>
    cases reply with
    | sessions sessions =>
      obtain rfl := Option.some.inj hs
      exact housed_afterSessions (housed_reloadSessions h sessions) after
    | failed =>
      obtain rfl := Option.some.inj hs
      exact housed_afterSessions h after
    | _ => cases hs
  | paneStates after => cases reply <;> cases hs <;> exact housed_afterStates h after
  | reloadWindows session =>
    cases reply with
    | windows windows =>
      obtain rfl := Option.some.inj hs
      exact housed_done (housed_reloadWindows h hfits.1 hfits.2)
    | failed =>
      obtain rfl := Option.some.inj hs
      exact housed_done h
    | _ => cases hs
  | listWindows session after =>
    cases reply with
    | windows windows =>
      obtain rfl := Option.some.inj hs
      have hlisted := housed_reloadWindows h hfits.1 hfits.2
      cases windows with
      | nil => exact housed_awaits hlisted trivial
      | cons w todo => exact housed_awaits hlisted hlisted.filed
    | failed =>
      obtain rfl := Option.some.inj hs
      exact housed_afterReload h after
    | _ => cases hs
  | windowLayout copy w todo after =>
    cases reply with
    | layout tree =>
      obtain rfl := Option.some.inj hs
      refine housed_afterLayout h (fun w' tree' hl => ?_) todo after
      rcases Table.lookup_insert_eq_some.mp hl with ⟨rfl,rfl⟩ | ⟨-,hl⟩
      · exact hfits
      · exact hphase w' tree' hl
    | failed =>
      obtain rfl := Option.some.inj hs
      exact housed_afterLayout h hphase todo after
    | _ => cases hs
  | ensureStreams after =>
    cases reply with
    | ok =>
      obtain rfl := Option.some.inj hs
      exact housed_afterReload h after
    | _ => cases hs
  | reloadFocusedBlocks pane =>
    cases reply with
    | ok =>
      obtain rfl := Option.some.inj hs
      exact housed_done (h.congr rfl rfl)
    | _ => cases hs

theorem housed_act (h : s.Housed home) (action : GuiAction) : (s.act action).Housed home := by
  have hkeeps : ∀ {t : Store} {after : Option Awaiting}, t.windows = s.windows →
      t.layouts = s.layouts → (∀ phase ∈ after, phase.Housed home) →
        Stretch.Housed home (t,after) := fun hw hl hphase => ⟨h.congr hw hl,hphase⟩
  cases action with
  | newSession | switchSession _ | closeWindowAction _ | loadInitial | reloadSessions
  | reloadWindows _ | reloadSession _ => exact housed_awaits (h.congr rfl rfl) trivial
  | gotoPane session pane =>
    rw [Store.act]
    split
    · exact housed_done (h.congr rfl rfl)
    · exact housed_awaits (h.congr rfl rfl) trivial
  | doSplit pane =>
    rw [Store.act]
    split
    · exact housed_awaits h trivial
    · exact housed_done h
  | newPaneAction =>
    refine hkeeps rfl rfl fun phase hphase => ?_
    obtain ⟨session,-,rfl⟩ := Option.map_eq_some_iff.mp hphase
    trivial
  | closePaneAction pane =>
    refine hkeeps rfl rfl fun phase hphase => ?_
    obtain ⟨target,-,rfl⟩ := Option.map_eq_some_iff.mp hphase
    trivial
  | closeSessionAction session =>
    exact housed_awaits h fun w hw => Store.mem_windowTabs h.owned hw
  | switchWindow window => exact housed_done (housed_switchWindow h window)
  | focusPane pane => exact housed_done (h.congr rfl rfl)
  | zoomPane pane =>
    rw [Store.act,Store.zoomPane]
    split
    · exact housed_done (h.congr rfl rfl)
    · exact housed_done h
  | unzoom => exact housed_done (h.congr rfl rfl)

theorem housed_applyLifecycleEvent (h : s.Housed home) (event : LifecycleEvent) :
    (s.applyLifecycleEvent event).Housed home := by
  cases event with
  | spawned session => exact housed_awaits h trivial
  | closed session pane => exact housed_awaits h trivial
  | layoutChanged session =>
    rw [Store.applyLifecycleEvent]
    split
    · split
      · exact housed_awaits h trivial
      · exact housed_done h
    · exact housed_done h

end housed

end Pyre.Gui
