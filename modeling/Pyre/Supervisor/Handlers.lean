import Pyre.Base.Locks
import Pyre.Supervisor.Windows

/-!
The handlers of the supervisor as programs over its locks: what each takes and releases,
what it does to the tables meanwhile, and how it goes on with what it has found there or
with what a worker or the store answers. What a handler returns is left out.
-/

set_option autoImplicit false

namespace Pyre.Supervisor
open Base

/-- `registry` and `panes` are the two locks of the `WorkerRegistry`. -/
inductive Lock where
  | windowStore
  | sessionWindows
  | paneWindowMap
  | registry
  | panes
  deriving DecidableEq, Repr

/-- What a handler is told from outside: whether a call succeeds, what a worker lists, which
sessions are stale, and identifiers that are drawn. -/
structure Reply where
  ok : Bool
  slots : List UInt32
  sessions : List SessionKey
  session : SessionKey
  pane : PaneId
  window : WindowId

abbrev Code := Prog Lock SupervisorImpl Reply

namespace Code

variable {α : Type}

/-- The lock is held for one look at the tables. -/
def locked (l : Lock) (m : LockMode) (f : SupervisorImpl → SupervisorImpl × α)
    (next : α → Code) : Code :=
  .acquire l m (.act (fun s => (f s).1) fun s => .release l (next (f s).2))

def mutex (l : Lock) (f : SupervisorImpl → SupervisorImpl × α) (next : α → Code) : Code :=
  locked l .exclusive f next

def read (l : Lock) (f : SupervisorImpl → α) (next : α → Code) : Code :=
  locked l .shared (fun s => (s,f s)) next

def look (l : Lock) (f : SupervisorImpl → α) (next : α → Code) : Code :=
  mutex l (fun s => (s,f s)) next

def update (l : Lock) (f : SupervisorImpl → SupervisorImpl) (next : Code) : Code :=
  mutex l (fun s => (f s,())) fun _ => next

/-- A call to a worker, or whatever else may fail. -/
def attempt (next : Code) (failed : Code) : Code := .ask fun r => if r.ok then next else failed

/-- A query of the store; `none` where it fails. -/
def query (f : SupervisorImpl → α) (next : Option α → Code) : Code :=
  attempt (.act id fun s => next (some (f s))) (next none)

def store (f : SupervisorImpl → SupervisorImpl) (next failed : Code) : Code :=
  attempt (.act f fun _ => next) failed

/-- A write whose failure is only logged. -/
def storeOrWarn (f : SupervisorImpl → SupervisorImpl) (next : Code) : Code := store f next next

def forEach (xs : List α) (body : α → Code → Code) (next : Code) : Code := xs.foldr body next

end Code

open Code

/-! `WorkerRegistry`. -/

namespace WorkerRegistry

def insert (session : SessionKey) (slots : List UInt32) (next : Code) : Code :=
  update .registry (·.registerWorker session slots) next

/-- Two locks, one after the other; it tells whether there was an entry. -/
def remove (session : SessionKey) (next : Bool → Code) : Code :=
  update .panes (fun s => { s with index := s.index.removeSession session })
    (mutex .registry (fun s => ({ s with workers := s.workers.erase session },
      (s.workers.lookup session).isSome)) next)

/-- The time of a heartbeat is not in the tables. -/
def touchHeartbeat (next : Code) : Code := update .registry id next

def allocPane (session : SessionKey) (next : PaneId → Code) : Code :=
  .ask fun r => update .panes (fun s => (s.allocPane session r.pane).1) (next r.pane)

def getOrAllocPaneBySlot (session : SessionKey) (slot : UInt32) (next : Option PaneId → Code) :
    Code :=
  read .panes (fun s => (s.index.paneIdBySlot session slot,s.index.isDead session slot)) fun e =>
    match e.1 with
    | some pane => next (some pane)
    | none =>
      if e.2 then next none
      else .ask fun r =>
        update .panes (fun s => { s with index := s.index.register r.pane session slot })
          (next (some r.pane))

def lookupPane (pane : PaneId) (next : Option SlotKey → Code) : Code :=
  read .panes (fun s => s.index.lookup pane) next

def getStreamSock (session : SessionKey) (next : Bool → Code) : Code :=
  read .registry (fun s => (s.workers.lookup session).isSome) next

def getCtrlClient (session : SessionKey) (next : Bool → Code) : Code :=
  read .registry (fun s => (s.workers.lookup session).isSome) next

/-- Which registered sessions are stale is for the clock to tell. -/
def staleSessions (next : List SessionKey → Code) : Code :=
  .ask fun r => read .registry (fun s => r.sessions.filter (· ∈ s.workers)) next

def removePaneSlot (session : SessionKey) (slot : UInt32) (next : Nat → Code) : Code :=
  mutex .panes (fun s => let (index,remaining) := s.index.removePaneSlot session slot
    ({ s with index := index },remaining)) next

def paneCount (session : SessionKey) (next : Nat → Code) : Code :=
  read .panes (fun s => s.index.paneCount session) next

def livePaneIds (session : SessionKey) (next : List PaneId → Code) : Code :=
  read .panes (fun s => (s.index.paneToSlot.entries.filter fun e => e.2.1 = session).map Sigma.fst)
    next

/-- Whose process it was is told from outside, too. -/
def sessionForPid (next : Option SessionKey → Code) : Code :=
  .ask fun r => read .registry (fun s => r.sessions.find? (· ∈ s.workers)) next

def sessions (next : List SessionKey → Code) : Code := read .registry (fun s => s.workers.keys) next

end WorkerRegistry

open WorkerRegistry

/-! What several handlers use. -/

/-- The client of the pane's worker is called once. -/
def callWorker (pane : PaneId) (next : SlotKey → Code) : Code :=
  lookupPane pane fun key =>
    match key with
    | none => .done
    | some key => getCtrlClient key.1 fun found =>
      if found then attempt (next key) .done else .done

def windowSingleLeafFallback (session : SessionKey) : Code :=
  getCtrlClient session fun found =>
    if found then
      .ask fun r =>
        match if r.ok then r.slots.head? else none with
        | some slot => getOrAllocPaneBySlot session slot fun _ => .done
        | none => .done
    else .done

/-- The window and its place in the list are put into memory by two locks one after the other. -/
def warm (w : WindowId) (info : WindowMeta) (list : SupervisorImpl → SupervisorImpl)
    (next : Code) : Code :=
  update .windowStore (·.orInsertMeta w info) (update .sessionWindows list next)

def prependWindow (session : SessionKey) (w : WindowId) (s : SupervisorImpl) : SupervisorImpl :=
  if w ∈ s.windowsOf session then s
  else { s with sessionWindows := s.sessionWindows.insert session (w :: s.windowsOf session) }

def appendWindow (session : SessionKey) (w : WindowId) (s : SupervisorImpl) : SupervisorImpl :=
  if w ∈ s.windowsOf session then s else s.pushWindow session w

def createDefaultWindow (session : SessionKey) (next : Option WindowId → Code) : Code :=
  .ask fun r => store (·.upsertWindow r.window session "1" 0)
    (update .windowStore (·.setMeta r.window ⟨session,"1",0,none⟩)
      (update .sessionWindows (·.pushWindow session r.window) (next (some r.window))))
    (next none)

def getOrCreateDefaultWindow (session : SessionKey) (next : Option WindowId → Code) : Code :=
  look .sessionWindows (fun s => (s.windowsOf session).head?) fun first =>
    match first with
    | some w => next (some w)
    | none => query (fun s => (s.listWindows session).head?) fun rows =>
      match rows.join with
      | some row => warm row.id ⟨session,row.name,row.position,none⟩ (prependWindow session row.id)
          (next (some row.id))
      | none => createDefaultWindow session next

/-- The pane is closed in the tree of its window; the tree is what is stored then. -/
def closeInLayout (pane : PaneId) (w : WindowId) (s : SupervisorImpl) :
    SupervisorImpl × Option LayoutNode :=
  match (s.windowStore.lookup w).bind WindowMeta.layout with
  | none => (s,none)
  | some tree =>
    let tree := (tree.close pane).1
    (s.setLayout w tree,some tree)

def storeLayout (w : WindowId) (tree : Option LayoutNode) (next : Code) : Code :=
  match tree with
  | some tree => storeOrWarn (·.upsertWindowLayout w tree) next
  | none => next

/-! The handlers of clients, `impl PyreDaemon for SupervisorImpl`. -/

namespace Handler

def spawn : Code :=
  .ask fun r =>
    allocPane r.session fun pane =>
      attempt
        (attempt
          (getCtrlClient r.session fun found =>
            if found then
              attempt
                (storeOrWarn (·.upsertWindow r.window r.session "1" 0)
                  (storeOrWarn (·.assignPaneWindow pane r.window)
                    (update .windowStore
                      (·.setMeta r.window ⟨r.session,"1",0,some (.leaf pane)⟩)
                      (update .sessionWindows (·.pushWindow r.session r.window)
                        (update .paneWindowMap (fun s =>
                          { s with paneWindowMap := s.paneWindowMap.insert pane r.window })
                          .done)))))
                .done
            else .done)
          .done)
        .done

def attach (session : SessionKey) : Code :=
  getCtrlClient session fun found => if found then attempt .done .done else .done

def kill (session : SessionKey) : Code :=
  remove session fun found => if found then attempt .done .done else .done

/-- Each worker is asked for its panes, and the store for the name of the session. -/
def listSessions : Code :=
  sessions fun ids => forEach ids (fun _ next => attempt (attempt next next) (attempt next next))
    .done

def listPanes (session : SessionKey) : Code :=
  getCtrlClient session fun found =>
    if found then
      .ask fun r =>
        if r.ok then
          forEach r.slots (fun slot next =>
            getOrAllocPaneBySlot session slot fun pane =>
              match pane with
              | none => next
              | some pane => attempt
                (look .paneWindowMap (fun s => s.paneWindowMap.lookup pane) fun assigned =>
                  match assigned with
                  | some _ => next
                  | none => getOrCreateDefaultWindow session fun w =>
                    match w with
                    | some w => storeOrWarn (·.assignPaneWindow pane w)
                      (update .paneWindowMap (fun s =>
                        { s with paneWindowMap := s.paneWindowMap.insert pane w }) next)
                    | none => next)
                next)
            .done
        else .done
    else .done

/-- The window is listed, and `window_store` taken with `session_windows` in hand, where it
is not listed yet. -/
def listOpened (session : SessionKey) (pane : PaneId) (w : WindowId) : Code :=
  .acquire .sessionWindows .exclusive (.act (appendWindow session w) fun s =>
    if w ∈ s.windowsOf session then .release .sessionWindows .done
    else
      let position : UInt32 := .ofNat (s.windowsOf session).length
      .acquire .windowStore .exclusive (.act
        (·.orInsertMeta w ⟨session,toString (position+1),position,some (.leaf pane)⟩) fun _ =>
          .release .windowStore (.release .sessionWindows .done)))

def openPane (session : SessionKey) (asked : Option WindowId) : Code :=
  getCtrlClient session fun found =>
    if found then
      allocPane session fun pane =>
        attempt
          (let place := fun w : WindowId =>
            storeOrWarn (·.assignPaneWindow pane w)
              (update .paneWindowMap (fun s =>
                { s with paneWindowMap := s.paneWindowMap.insert pane w })
                (listOpened session pane w))
          match asked with
          | some w => place w
          | none => .ask fun r =>
            getOrCreateDefaultWindow session fun w => place (w.getD r.window))
          .done
    else .done

def closePane (pane : PaneId) : Code :=
  callWorker pane fun _ =>
    look .paneWindowMap (fun s => s.paneWindowMap.lookup pane) fun w =>
      match w with
      | none => update .paneWindowMap (·.unassign pane) .done
      | some w => mutex .windowStore (closeInLayout pane w) fun tree =>
        update .paneWindowMap (·.unassign pane) (storeLayout w tree .done)

/-- `capture_pane`, `set_pane_state`, `mark_pane_seen`, `send_keys` and `resize_pane`. -/
def forwardToPane (pane : PaneId) : Code := callWorker pane fun _ => .done

def closeSession (session : SessionKey) : Code :=
  look .sessionWindows (fun s => s.windowsOf session) fun windows =>
    remove session fun found =>
      let tearDown := forEach windows (fun w next =>
          query (fun s => s.listPanesForWindow w) fun panes =>
            update .paneWindowMap (fun s => (panes.getD []).foldl SupervisorImpl.unassign s)
              (update .windowStore (fun s => { s with windowStore := s.windowStore.erase w })
                (storeOrWarn (·.deleteWindow w) next)))
        (update .sessionWindows
          (fun s => { s with sessionWindows := s.sessionWindows.erase session }) .done)
      if found then attempt tearDown tearDown else tearDown

def listAllPanes (next : Code) : Code :=
  sessions fun ids => forEach ids (fun session next =>
      .ask fun r => forEach (if r.ok then r.slots else []) (fun slot next =>
          getOrAllocPaneBySlot session slot fun pane =>
            match pane with
            | none => next
            | some _ => attempt (attempt next next) next)
        next)
    next

/-- It lists the panes until one has the state or the time is up, after so many rounds. -/
def waitPaneState : Nat → Code
  | 0 => .done
  | rounds+1 => listAllPanes (attempt .done (waitPaneState rounds))

def inspectPid (pane : PaneId) : Code :=
  lookupPane pane fun key =>
    match key with
    | none => .done
    | some key => read .registry (fun s => s.workers.lookup key.1) fun _ => .done

def renamePane (pane : PaneId) : Code :=
  lookupPane pane fun key =>
    match key with
    | none => .done
    | some _ => attempt .done .done

/-- The workers are asked while the registry is held; the sessions without a pane go on. -/
def pollPanes : List SessionKey → (List SessionKey → Code) → Code
  | [], next => next []
  | id :: ids, next => .ask fun r =>
    pollPanes ids fun stale => next (if r.ok ∧ r.slots = [] then id :: stale else stale)

def gcStaleSessions : Code :=
  .acquire .registry .shared (.act id fun s => pollPanes s.workers.keys fun stale =>
    .release .registry (forEach stale (fun session next =>
      remove session fun found => if found then attempt next next else next) .done))

/-- What `list_windows` does with the windows of the session once it has them. -/
def describeWindows (windows : List WindowId) : Code :=
  forEach windows (fun w next =>
      look .windowStore (fun s => (s.windowStore.lookup w).isSome) fun known =>
        if known then
          attempt (look .paneWindowMap (fun s => s.paneWindowMap.values.count w) fun _ => next)
            (look .paneWindowMap (fun s => s.paneWindowMap.values.count w) fun _ => next)
        else next)
    .done

def warmRow (session : SessionKey) (s : SupervisorImpl) (row : WindowRow) : SupervisorImpl :=
  (appendWindow session row.id s).orInsertMeta row.id ⟨session,row.name,row.position,none⟩

/-- The windows of the store are put into memory with both locks in hand. -/
def warmWindows (session : SessionKey) (rows : List WindowRow) (next : Code) : Code :=
  .acquire .windowStore .exclusive (.acquire .sessionWindows .exclusive
    (.act (fun s => rows.foldl (warmRow session) s) fun _ =>
      .release .sessionWindows (.release .windowStore next)))

def listWindows (session : SessionKey) : Code :=
  look .sessionWindows (fun s => s.windowsOf session) fun windows =>
    if windows = [] then
      query (fun s => s.listWindows session) fun rows =>
        match rows with
        | none => .done
        | some rows => warmWindows session rows (describeWindows (rows.map WindowRow.id))
    else describeWindows windows

def newWindow (session : SessionKey) (name : Option String) : Code :=
  look .sessionWindows (fun s => (s.windowsOf session).length) fun len =>
    let position : UInt32 := .ofNat len
    let name := name.getD (toString (position+1))
    .ask fun r => store (·.upsertWindow r.window session name position)
      (update .windowStore (·.setMeta r.window ⟨session,name,position,none⟩)
        (update .sessionWindows (·.pushWindow session r.window) .done))
      .done

def renameWindow (w : WindowId) (name : String) : Code :=
  update .windowStore (fun s =>
      match s.windowStore.lookup w with
      | some info => s.setMeta w { info with name := name }
      | none => s)
    (store (·.renameRow w name) .done .done)

def closeWindow (w : WindowId) : Code :=
  query (fun s => s.listPanesForWindow w) fun panes =>
    match panes with
    | none => .done
    | some panes => forEach panes (fun pane next =>
        let drop := update .paneWindowMap (·.unassign pane) next
        lookupPane pane fun key =>
          match key with
          | none => drop
          | some key => getCtrlClient key.1 fun found => if found then attempt drop drop else drop)
      (look .windowStore (fun s => s.sessionOf w) fun session =>
        update .windowStore (fun s => { s with windowStore := s.windowStore.erase w })
          (let finish := store (·.deleteWindow w) .done .done
          match session with
          | none => finish
          | some session => update .sessionWindows (fun s =>
              match s.sessionWindows.lookup session with
              | none => s
              | some ws => { s with
                  sessionWindows := s.sessionWindows.insert session (ws.filter (· ≠ w)) })
            finish))

/-- The tree is at hand: the leaves that are no live panes of the window are taken out. -/
def reconcile (session : SessionKey) (w : WindowId) (tree : LayoutNode) : Code :=
  livePaneIds session fun live =>
    look .paneWindowMap (fun s => live.filter fun p => s.paneWindowMap.lookup p = some w)
      fun live =>
        let ghosts := tree.allLeaves.filter fun p => p ∉ live
        if live = [] ∨ ghosts = [] then .done
        else
          let tree := ghosts.foldl (fun t p => (t.close p).1) tree
          update .windowStore (·.setLayout w tree)
            (storeOrWarn (·.upsertWindowLayout w tree) .done)

def getWindowLayout (w : WindowId) : Code :=
  look .windowStore (fun s => s.sessionOf w) fun session =>
    match session with
    | none => .done
    | some session =>
      look .windowStore (fun s => (s.windowStore.lookup w).bind WindowMeta.layout) fun tree =>
        match tree with
        | some tree => reconcile session w tree
        | none => query (fun s => s.windowLayoutJson w) fun json =>
          match json.join with
          | some tree => update .windowStore (·.setLayout w tree) (reconcile session w tree)
          | none => windowSingleLeafFallback session

def openPaneSplit (parent : PaneId) (orient : Orient) : Code :=
  lookupPane parent fun key =>
    match key with
    | none => .done
    | some key => getCtrlClient key.1 fun found =>
      if found then
        allocPane key.1 fun pane =>
          attempt
            (look .paneWindowMap (fun s => s.paneWindowMap.lookup parent) fun assigned =>
              let place := fun w : WindowId =>
                mutex .windowStore (fun s =>
                    let s := s.orInsertMeta w ⟨key.1,"1",0,some (.leaf parent)⟩
                    let tree := (((s.windowStore.lookup w).bind WindowMeta.layout).getD
                      (.leaf parent)).splitFocused parent pane orient
                    (s.setLayout w tree,tree)) fun tree =>
                  storeOrWarn (·.upsertWindowLayout w tree)
                    (storeOrWarn (·.assignPaneWindow pane w)
                      (update .paneWindowMap (fun s =>
                        { s with paneWindowMap := s.paneWindowMap.insert pane w }) .done))
              match assigned with
              | some w => place w
              | none => .ask fun r =>
                getOrCreateDefaultWindow key.1 fun w => place (w.getD r.window))
            .done
      else .done

/-- `setWeight` is what `set_weight` makes of a tree. -/
def setPaneWeight (pane : PaneId) (setWeight : LayoutNode → LayoutNode) : Code :=
  look .paneWindowMap (fun s => s.paneWindowMap.lookup pane) fun w =>
    match w with
    | none => .done
    | some w => mutex .windowStore (fun s =>
        match (s.windowStore.lookup w).bind WindowMeta.layout with
        | none => (s,none)
        | some tree => (s.setLayout w (setWeight tree),some (setWeight tree))) fun tree =>
      match tree with
      | none => .done
      | some tree => store (·.upsertWindowLayout w tree) .done .done

def getSessionLayout (session : SessionKey) : Code :=
  look .sessionWindows (fun s => (s.windowsOf session).head?) fun first =>
    match first with
    | some w => getWindowLayout w
    | none => query (fun s => s.listWindows session) fun rows =>
      match rows with
      | none => .done
      | some [] => windowSingleLeafFallback session
      | some (row :: _) => warm row.id ⟨session,row.name,row.position,none⟩
          (appendWindow session row.id) (getWindowLayout row.id)

def gitStatus (session : SessionKey) : Code :=
  getCtrlClient session fun found => if found then attempt (attempt .done .done) .done else .done

/-! The handlers of workers, `impl SupervisorWorker for SupervisorWorkerImpl`. -/

def registerWorker (session : SessionKey) : Code :=
  .ask fun r => if r.ok then insert session r.slots .done else .done

def paneClosed (session : SessionKey) (slot : UInt32) : Code :=
  getOrAllocPaneBySlot session slot fun pane =>
    removePaneSlot session slot fun remaining =>
      let prune : Code :=
        match pane with
        | none => .done
        | some pane => mutex .paneWindowMap (fun s =>
            (s.unassign pane,s.paneWindowMap.lookup pane)) fun w =>
          match w with
          | none => .done
          | some w => mutex .windowStore (closeInLayout pane w) fun tree =>
            storeLayout w tree .done
      if remaining = 0 then remove session fun _ => prune else prune

def paneStateChanged (session : SessionKey) (slot : UInt32) : Code :=
  getOrAllocPaneBySlot session slot fun _ => .done

/-! The tasks beside them. -/

/-- One round of `heartbeat_monitor`. -/
def heartbeatMonitor : Code :=
  staleSessions fun stale => forEach stale (fun session next =>
    remove session fun _ => attempt next next) .done

/-- The SIGCHLD handler, for one process that has exited. -/
def sigchld : Code :=
  sessionForPid fun session =>
    match session with
    | none => .done
    | some session => paneCount session fun remaining =>
      remove session fun _ => if remaining = 0 then .done else attempt .done .done

def proxyStreamToWorker (pane : PaneId) : Code :=
  lookupPane pane fun key =>
    match key with
    | none => .done
    | some key => getStreamSock key.1 fun _ => .done

end Handler

/-- Every handler of the two services, and the tasks of the supervisor that take these locks.
`processRawEvent` and `reattach` stand for one look of theirs at the registry. -/
inductive HandlerCall where
  | spawn
  | attach (session : SessionKey)
  | detach
  | kill (session : SessionKey)
  | listBlocks
  | searchBlocks
  | listSessions
  | listPanes (session : SessionKey)
  | openPane (session : SessionKey) (asked : Option WindowId)
  | closePane (pane : PaneId)
  | replay
  | getBlockStdout
  | capturePane (pane : PaneId)
  | closeSession (session : SessionKey)
  | setPaneState (pane : PaneId)
  | listAllPanes
  | waitPaneState (rounds : Nat)
  | markPaneSeen (pane : PaneId)
  | lastBlockForPane
  | sendKeys (pane : PaneId)
  | inspectPid (pane : PaneId)
  | renameSession
  | renamePane (pane : PaneId)
  | resizePane (pane : PaneId)
  | requestFocus
  | takeFocusRequest
  | nextPaneEvent
  | gcStaleSessions
  | listWindows (session : SessionKey)
  | newWindow (session : SessionKey) (name : Option String)
  | renameWindow (w : WindowId) (name : String)
  | closeWindow (w : WindowId)
  | getWindowLayout (w : WindowId)
  | openPaneSplit (parent : PaneId) (orient : Orient)
  | setPaneWeight (pane : PaneId) (setWeight : LayoutNode → LayoutNode)
  | getSessionLayout (session : SessionKey)
  | gitStatus (session : SessionKey)
  | registerWorker (session : SessionKey)
  | blockEvent
  | paneClosed (session : SessionKey) (slot : UInt32)
  | paneStateChanged (session : SessionKey) (slot : UInt32)
  | heartbeat
  | heartbeatMonitor
  | sigchld
  | processRawEvent (session : SessionKey) (slot : UInt32)
  | reattach (session : SessionKey)
  | proxyStreamToWorker (pane : PaneId)

def HandlerCall.body : HandlerCall → Code
  | .spawn => Handler.spawn
  | .attach session => Handler.attach session
  | .kill session => Handler.kill session
  | .listSessions => Handler.listSessions
  | .listPanes session => Handler.listPanes session
  | .openPane session asked => Handler.openPane session asked
  | .closePane pane => Handler.closePane pane
  | .capturePane pane | .setPaneState pane | .markPaneSeen pane | .sendKeys pane
  | .resizePane pane => Handler.forwardToPane pane
  | .closeSession session => Handler.closeSession session
  | .listAllPanes => Handler.listAllPanes .done
  | .waitPaneState rounds => Handler.waitPaneState rounds
  | .inspectPid pane => Handler.inspectPid pane
  | .renamePane pane => Handler.renamePane pane
  | .gcStaleSessions => Handler.gcStaleSessions
  | .listWindows session => Handler.listWindows session
  | .newWindow session name => Handler.newWindow session name
  | .renameWindow w name => Handler.renameWindow w name
  | .closeWindow w => Handler.closeWindow w
  | .getWindowLayout w => Handler.getWindowLayout w
  | .openPaneSplit parent orient => Handler.openPaneSplit parent orient
  | .setPaneWeight pane setWeight => Handler.setPaneWeight pane setWeight
  | .getSessionLayout session => Handler.getSessionLayout session
  | .gitStatus session => Handler.gitStatus session
  | .registerWorker session => Handler.registerWorker session
  | .paneClosed session slot => Handler.paneClosed session slot
  | .paneStateChanged session slot => Handler.paneStateChanged session slot
  | .heartbeat => touchHeartbeat .done
  | .heartbeatMonitor => Handler.heartbeatMonitor
  | .sigchld => Handler.sigchld
  | .processRawEvent session slot => getOrAllocPaneBySlot session slot fun _ => .done
  | .reattach session => getCtrlClient session fun _ => .done
  | .proxyStreamToWorker pane => Handler.proxyStreamToWorker pane
  | .detach | .listBlocks | .searchBlocks | .replay | .getBlockStdout | .lastBlockForPane
  | .renameSession | .requestFocus | .takeFocusRequest | .nextPaneEvent | .blockEvent =>
    .ask fun _ => .done

end Pyre.Supervisor
