import Pyre.Base.Run
import Pyre.Supervisor.Windows

/-!
What the supervisor and its workers do to the windows, one whole operation at a
time: the requests of clients, the callbacks of workers, workers that go and come
back, and a restart of the supervisor, which forgets what it has in memory.
-/

set_option autoImplicit false

namespace Pyre.Supervisor
open Base

namespace SupervisorImpl

/-! An identifier that has just been drawn is in no table. -/

def UnusedPane (s : SupervisorImpl) (pane : PaneId) : Prop :=
  s.index.lookup pane = none ∧ s.paneWindowMap.lookup pane = none ∧
    s.paneRows.lookup pane = none

def UnusedWindow (s : SupervisorImpl) (w : WindowId) : Prop :=
  s.windowStore.lookup w = none ∧ ∀ r ∈ s.windowRows, r.id ≠ w

def UnusedSession (s : SupervisorImpl) (session : SessionKey) : Prop :=
  s.workers.lookup session = none ∧ ∀ info ∈ s.windowStore.values, info.session ≠ session

instance (s : SupervisorImpl) (pane : PaneId) : Decidable (s.UnusedPane pane) :=
  inferInstanceAs (Decidable (_ ∧ _ ∧ _))

instance (s : SupervisorImpl) (w : WindowId) : Decidable (s.UnusedWindow w) :=
  inferInstanceAs (Decidable (_ ∧ _))

instance (s : SupervisorImpl) (session : SessionKey) : Decidable (s.UnusedSession session) :=
  inferInstanceAs (Decidable (_ ∧ _))

/-! The operations, where nothing fails. -/

def spawn (s : SupervisorImpl) (session : SessionKey) (pane : PaneId) (w : WindowId) :
    SupervisorImpl :=
  let (s,slot) := s.allocPane session pane
  ((s.registerWorker session []).openSlot session slot).placeSpawned session pane w

def newWindow (s : SupervisorImpl) (session : SessionKey) (name : Option String)
    (w : WindowId) : SupervisorImpl :=
  let position : UInt32 := .ofNat (s.windowsOf session).length
  let name := name.getD (toString (position+1))
  ((s.upsertWindow w session name position).setMeta w ⟨session,name,position,none⟩).pushWindow
    session w

def openPane (s : SupervisorImpl) (session : SessionKey) (asked : Option WindowId)
    (pane : PaneId) (fresh : WindowId) : SupervisorImpl :=
  let (s,slot) := s.allocPane session pane
  let (s,w) := (s.openSlot session slot).resolveWindow session asked fresh
  s.placeOpened session pane w

def openPaneSplit (s : SupervisorImpl) (session : SessionKey) (parent : PaneId)
    (orient : Orient) (pane : PaneId) (fresh : WindowId) : SupervisorImpl :=
  let (s,slot) := s.allocPane session pane
  let (s,w) := (s.openSlot session slot).parentWindow session parent fresh
  s.placeSplit session parent pane orient w

/-- `WorkerState::close_pane` with the callback it makes, unless the slot is closed
already. -/
def workerClose (s : SupervisorImpl) (session : SessionKey) (slot : UInt32) (fresh : PaneId) :
    SupervisorImpl :=
  if slot ∈ s.slots session then (s.closeSlot session slot).paneClosed session slot fresh else s

/-- The worker is asked to close the pane if the index has it; its id is not drawn
anew then. -/
def closeOnWorker (s : SupervisorImpl) (pane : PaneId) : SupervisorImpl :=
  match s.index.lookup pane with
  | some (session,slot) => s.workerClose session slot pane
  | none => s

def closePane (s : SupervisorImpl) (pane : PaneId) : SupervisorImpl :=
  (s.closeOnWorker pane).prunePane pane

/-- The slots the worker has listed, each with the id an unknown one would get. -/
def listPanes (s : SupervisorImpl) (session : SessionKey) (listed : List (UInt32 × PaneId))
    (fresh : WindowId) : SupervisorImpl :=
  listed.foldl (fun s e => s.listPane session e.1 e.2 fresh) s

def closePanesOf (s : SupervisorImpl) (w : WindowId) : SupervisorImpl :=
  (s.listPanesForWindow w).foldl (fun s pane => (s.closeOnWorker pane).unassign pane) s

def closeWindow (s : SupervisorImpl) (w : WindowId) : SupervisorImpl :=
  ((s.closePanesOf w).dropWindow w).deleteWindow w

/-- Only the store outlives the process. -/
def restart (s : SupervisorImpl) : SupervisorImpl :=
  { empty with windowRows := s.windowRows, paneRows := s.paneRows }

end SupervisorImpl

/-- `callback` is any report of a worker about one of its slots: a state change, a
block event. -/
inductive Operation where
  | spawn (session : SessionKey) (pane : PaneId) (w : WindowId)
  | newWindow (session : SessionKey) (name : Option String) (w : WindowId)
  | openPane (session : SessionKey) (asked : Option WindowId) (pane : PaneId)
      (fresh : WindowId)
  | openPaneSplit (parent : PaneId) (orient : Orient) (pane : PaneId) (fresh : WindowId)
  | closePane (pane : PaneId)
  | shellExit (session : SessionKey) (slot : UInt32) (fresh : PaneId)
  | listPanes (session : SessionKey) (listed : List (UInt32 × PaneId)) (fresh : WindowId)
  | closeWindow (w : WindowId)
  | getWindowLayout (w : WindowId) (first : UInt32) (fresh : PaneId)
  | callback (session : SessionKey) (slot : UInt32) (fresh : PaneId)
  | removeWorker (session : SessionKey)
  | registerWorker (session : SessionKey) (slots : List UInt32)
  | restart
  deriving DecidableEq, Repr

namespace SupervisorImpl

def step (s : SupervisorImpl) : Operation → Option SupervisorImpl
  | .spawn session pane w =>
    if s.UnusedSession session ∧ s.UnusedPane pane ∧ s.UnusedWindow w then
      some (s.spawn session pane w)
    else none
  | .newWindow session name w =>
    if s.UnusedWindow w then some (s.newWindow session name w) else none
  | .openPane session asked pane fresh =>
    if (s.workers.lookup session).isSome ∧ s.UnusedPane pane ∧ s.UnusedWindow fresh then
      some (s.openPane session asked pane fresh)
    else none
  | .openPaneSplit parent orient pane fresh =>
    (s.index.lookup parent).bind fun k =>
      if (s.workers.lookup k.1).isSome ∧ s.UnusedPane pane ∧ s.UnusedWindow fresh then
        some (s.openPaneSplit k.1 parent orient pane fresh)
      else none
  | .closePane pane =>
    (s.index.lookup pane).bind fun k =>
      if (s.workers.lookup k.1).isSome then some (s.closePane pane) else none
  | .shellExit session slot fresh =>
    if s.UnusedPane fresh then some (s.workerClose session slot fresh) else none
  | .listPanes session listed fresh =>
    if (s.workers.lookup session).isSome ∧ (listed.map Prod.fst).Perm (s.slots session) ∧
        (listed.map Prod.snd).Nodup ∧ (∀ e ∈ listed, s.UnusedPane e.2) ∧
        s.UnusedWindow fresh then
      some (s.listPanes session listed fresh)
    else none
  | .closeWindow w => some (s.closeWindow w)
  | .getWindowLayout w first fresh =>
    if s.UnusedPane fresh then some (s.getWindowLayout w first fresh).1 else none
  | .callback session slot fresh =>
    if s.UnusedPane fresh then some (s.getOrAllocPaneBySlot session slot fresh).1 else none
  | .removeWorker session => some (s.removeSession session)
  | .registerWorker session slots =>
    if s.workers.lookup session = none ∧ slots.Nodup then some (s.registerWorker session slots)
    else none
  | .restart => some s.restart

end SupervisorImpl

end Pyre.Supervisor
