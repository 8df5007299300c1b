import Pyre.Gui.Store

/-!
The actions of the GUI and the daemon's lifecycle events, up to what they await. A stretch of code
between two awaits is a function of the store and of the reply it has had.
-/

set_option autoImplicit false

namespace Pyre.Gui
open Base

/-- What is left of a function when `reloadSession` has returned. -/
inductive AfterReload where
  | done
  | focusFirstLeaf (session : SessionId)
  | gotoPane (session : SessionId) (pane : PaneId)
  | focusSplit (pane : PaneId)
  | switchWindow (window : WindowId)
  | adopt (session : SessionId)
  | refocusClosed (session : SessionId) (pane : Option PaneId)
  deriving DecidableEq, Repr

/-- What is left of a function when `reloadSessions` has returned. `closeAction` is of the close
of a pane or a window. -/
inductive AfterSessions where
  | done
  | newSession (session : SessionId)
  | loadInitial
  | closeAction (session : Option SessionId)
  | closeSessionAction (wasActive : Bool)
  | spawned (session : Option SessionId)
  | closed (session : Option SessionId) (pane : Option PaneId)
  deriving DecidableEq, Repr

/-- What is left of a function when `reloadPaneStates` has returned. -/
inductive AfterStates where
  | newPaneAction (session : SessionId) (window : WindowId)
  | spawned (session : Option SessionId)
  | closed (session : SessionId) (pane : Option PaneId)
  deriving DecidableEq, Repr

/-- The request whose reply a function awaits, and what it has read of the store before.
`listWindows` and `windowLayout` are the awaits of `reloadSession`, which reads one tree after
the other into a copy. -/
inductive Awaiting where
  | spawnSession
  | openSplit (session : SessionId)
  | newWindow (session : SessionId)
  | openPane (session : SessionId) (window : WindowId)
  | closePane (session : Option SessionId) (pane : PaneId)
  | closeWindow (session : Option SessionId) (window : WindowId)
  | closeSession (session : SessionId) (windows : List WindowId) (wasActive : Bool)
  | listSessions (next : AfterSessions)
  | paneStates (next : AfterStates)
  | reloadWindows (session : SessionId)
  | listWindows (session : SessionId) (next : AfterReload)
  | windowLayout (copy : Table WindowId LayoutNode) (w : WindowId) (todo : List WindowId)
      (next : AfterReload)
  | ensureStreams (next : AfterReload)
  | reloadFocusedBlocks (pane : PaneId)

/-- `ok` is a reply without a value that is read. -/
inductive DaemonReply where
  | failed
  | ok
  | session (session : SessionId)
  | pane (pane : PaneId)
  | window (window : WindowId)
  | sessions (sessions : List SessionInfo)
  | windows (windows : List WindowId)
  | layout (tree : LayoutNode)

/-- `loadInitial` is what a reconnect does. The reloads are those of renames and of a pane's
output stream that has ended. -/
inductive GuiAction where
  | newSession
  | switchSession (session : SessionId)
  | gotoPane (session : SessionId) (pane : PaneId)
  | doSplit (pane : Option PaneId)
  | newPaneAction
  | closePaneAction (pane : Option PaneId)
  | closeWindowAction (window : WindowId)
  | closeSessionAction (session : SessionId)
  | switchWindow (window : WindowId)
  | focusPane (pane : PaneId)
  | zoomPane (pane : Option PaneId)
  | unzoom
  | loadInitial
  | reloadSessions
  | reloadWindows (session : SessionId)
  | reloadSession (session : SessionId)
  deriving DecidableEq, Repr

/-- The session of `closed` is the event's, or that of the pane as far as it is known. -/
inductive LifecycleEvent where
  | spawned (session : Option SessionId)
  | closed (session : Option SessionId) (pane : Option PaneId)
  | layoutChanged (session : Option SessionId)
  deriving DecidableEq, Repr

namespace Store

def listed (s : Store) (session : SessionId) : Bool := s.sessions.any (·.id = session)

def adopt (s : Store) (session : SessionId) : Store := { s with activeSession := some session }

def switchSession (s : Store) (session : SessionId) : Store :=
  { s with
    activeSession := some session
    zoomedPane := none }

def focusPane (s : Store) (pane : PaneId) : Store := { s with focusedPane := some pane }

def switchWindow (s : Store) (window : WindowId) : Store :=
  match s.activeSession with
  | some session =>
    focusFirstLeaf { s with activeWindow := s.activeWindow.insert session window } session
  | none => s

def zoomPane (s : Store) (pane : Option PaneId) : Store :=
  match pane <|> s.focusedPane with
  | some target => { s with
      zoomedPane := if s.zoomedPane = some target then none else some target
      focusedPane := some target }
  | none => s

def unzoom (s : Store) : Store := { s with zoomedPane := none }

/-- The first session that is listed becomes the active one. -/
def activateFirst (s : Store) : Store :=
  { s with
    activeSession := s.sessions.head?.map (·.id)
    focusedPane := none
    zoomedPane := none }

end Store

/-- The session is reloaded and its first leaf focused. -/
def Awaiting.show (session : SessionId) : Awaiting := .listWindows session (.focusFirstLeaf session)

/-- The session that has become active is loaded, or a fresh one spawned. -/
def Awaiting.successor (session : Option SessionId) : Awaiting :=
  session.elim .spawnSession .show

/-- The store after a stretch of code, and what the function awaits then, if it goes on. -/
abbrev Stretch := Store × Option Awaiting

namespace Store

def removeSession (s : Store) (session : SessionId) : Stretch :=
  let t := s.removeSessionNow session
  (t,if s.activeSession = some session then some (.successor t.activeSession) else none)

def adoptIfNone (s : Store) (session : SessionId) : Stretch :=
  if s.activeSession = none then (s.adopt session,some (.show session)) else (s,none)

def afterReload (s : Store) : AfterReload → Stretch
  | .done => (s,none)
  | .focusFirstLeaf session => (s.focusFirstLeaf session,none)
  | .gotoPane session pane => (s.focusFirstLeaf session,some (.reloadFocusedBlocks pane))
  | .focusSplit pane => (s.focusPane pane,none)
  | .switchWindow window => (s.switchWindow window,none)
  | .adopt session => s.adoptIfNone session
  | .refocusClosed session pane =>
    (if pane.isSome ∧ s.focusedPane = pane then s.focusFirstLeaf session else s,none)

def afterSessions (s : Store) : AfterSessions → Stretch
  | .done => (s,none)
  | .newSession session => (s.adopt session,some (.show session))
  | .loadInitial =>
    match s.sessions.head? with
    | some first => (s.adopt first.id,some (.show first.id))
    | none => (s,some .spawnSession)
  | .closeAction none => (s,none)
  | .closeAction (some session) =>
    if s.listed session then (s,some (.show session))
    else (s.activateFirst,some (.successor s.activateFirst.activeSession))
  | .closeSessionAction false => (s,none)
  | .closeSessionAction true =>
    (s.activateFirst,some (.successor s.activateFirst.activeSession))
  | .spawned session => (s,some (.paneStates (.spawned session)))
  | .closed none _ => (s,none)
  | .closed (some session) pane =>
    match s.sessions.find? (·.id = session) with
    | some info =>
      if info.paneCount = 0 then s.removeSession session
      else (s,some (.paneStates (.closed session pane)))
    | none => s.removeSession session

def afterStates (s : Store) : AfterStates → Stretch
  | .newPaneAction session window => (s,some (.listWindows session (.switchWindow window)))
  | .spawned session =>
    match session <|> s.activeSession with
    | some session =>
      if s.listed session then (s,some (.listWindows session (.adopt session)))
      else s.adoptIfNone session
    | none => (s,none)
  | .closed session pane =>
    if s.activeSession = some session then
      (s,some (.listWindows session (.refocusClosed session pane)))
    else (s,some (.reloadWindows session))

/-- `reloadWindows` has its reply within `reloadSession`. -/
def afterWindows (s : Store) (session : SessionId) (next : AfterReload) :
    List WindowId → Stretch
  | [] => (s.reloadWindows session [],some (.ensureStreams next))
  | w :: todo =>
    let t := s.reloadWindows session (w :: todo)
    (t,some (.windowLayout t.layouts w todo next))

/-- The tree of one window has come, or has not: what was copied stays. -/
def afterLayout (s : Store) (copy : Table WindowId LayoutNode) (todo : List WindowId)
    (next : AfterReload) : Stretch :=
  match todo with
  | [] => ({ s with layouts := copy },some (.ensureStreams next))
  | w :: todo => (s,some (.windowLayout copy w todo next))

/-- What runs when the reply has come. -/
def resume (s : Store) : Awaiting → DaemonReply → Option Stretch
  | .spawnSession, .session session => some (s,some (.listSessions (.newSession session)))
  | .spawnSession, .failed => some (s,none)
  | .openSplit session, .pane pane => some (s,some (.listWindows session (.focusSplit pane)))
  | .openSplit _, .failed => some (s,none)
  | .newWindow session, .window window => some (s,some (.openPane session window))
  | .newWindow _, .failed => some (s,none)
  | .openPane session window, .pane _ =>
    some (s,some (.paneStates (.newPaneAction session window)))
  | .openPane _ _, .failed => some (s,none)
  | .closePane session pane, .ok | .closePane session pane, .failed =>
    some (if s.zoomedPane = some pane then s.unzoom else s,
      some (.listSessions (.closeAction session)))
  | .closeWindow session window, .ok | .closeWindow session window, .failed =>
    some (s.closeWindowAction session window,some (.listSessions (.closeAction session)))
  | .closeSession session windows wasActive, .ok =>
    some (s.closeSessionAction session windows,
      some (.listSessions (.closeSessionAction wasActive)))
  | .closeSession _ _ _, .failed => some (s,none)
  | .listSessions next, .sessions sessions => some ((s.reloadSessions sessions).afterSessions next)
  | .listSessions next, .failed => some (s.afterSessions next)
  | .paneStates next, .ok | .paneStates next, .failed => some (s.afterStates next)
  | .reloadWindows session, .windows windows => some (s.reloadWindows session windows,none)
  | .reloadWindows _, .failed => some (s,none)
  | .listWindows session next, .windows windows => some (s.afterWindows session next windows)
  | .listWindows _ next, .failed => some (s.afterReload next)
  | .windowLayout copy w todo next, .layout tree =>
    some (s.afterLayout (copy.insert w tree) todo next)
  | .windowLayout copy _ todo next, .failed => some (s.afterLayout copy todo next)
  | .ensureStreams next, .ok => some (s.afterReload next)
  | .reloadFocusedBlocks pane, .ok => some (s.focusPane pane,none)
  | _, _ => none

/-- What runs when the action is taken. -/
def act (s : Store) : GuiAction → Stretch
  | .newSession => (s,some .spawnSession)
  | .switchSession session => (s.switchSession session,some (.show session))
  | .gotoPane session pane =>
    if s.activeSession = some session then (s.focusPane pane,none)
    else (s.switchSession session,some (.listWindows session (.gotoPane session pane)))
  | .doSplit pane =>
    match pane <|> s.focusedPane, s.activeSession with
    | some _, some session => (s,some (.openSplit session))
    | _, _ => (s,none)
  | .newPaneAction => (s,s.activeSession.map .newWindow)
  | .closePaneAction pane => (s,(pane <|> s.focusedPane).map (.closePane s.activeSession))
  | .closeWindowAction window => (s,some (.closeWindow s.activeSession window))
  | .closeSessionAction session =>
    (s,some (.closeSession session (s.windowTabs session) (s.activeSession = some session)))
  | .switchWindow window => (s.switchWindow window,none)
  | .focusPane pane => (s.focusPane pane,none)
  | .zoomPane pane => (s.zoomPane pane,none)
  | .unzoom => (s.unzoom,none)
  | .loadInitial => (s,some (.listSessions .loadInitial))
  | .reloadSessions => (s,some (.listSessions .done))
  | .reloadWindows session => (s,some (.reloadWindows session))
  | .reloadSession session => (s,some (.listWindows session .done))

def applyLifecycleEvent (s : Store) : LifecycleEvent → Stretch
  | .spawned session => (s,some (.listSessions (.spawned session)))
  | .closed session pane => (s,some (.listSessions (.closed session pane)))
  | .layoutChanged session =>
    match session <|> s.activeSession with
    | some session => (s,if s.listed session then some (.listWindows session .done) else none)
    | none => (s,none)

/-- An event changes the store only once its first reply has come. -/
theorem applyLifecycleEvent_store (s : Store) (event : LifecycleEvent) :
    (s.applyLifecycleEvent event).1 = s := by
  cases event with
  | layoutChanged session =>
    rw [applyLifecycleEvent]
    split <;> rfl
  | _ => rfl

theorem activeSession_switchWindow (s : Store) (window : WindowId) :
    (s.switchWindow window).activeSession = s.activeSession := by
  unfold switchWindow
  split <;> rfl

theorem zoomedPane_switchWindow (s : Store) (window : WindowId) :
    (s.switchWindow window).zoomedPane = s.zoomedPane := by
  unfold switchWindow
  split <;> rfl

end Store
end Pyre.Gui
