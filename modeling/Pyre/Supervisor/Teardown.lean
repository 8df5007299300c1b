import Pyre.Base.Holdings
import Pyre.Supervisor.WindowCache

/-!
What `close_window` and `close_session` of the supervisor leave behind: in its tables, in the
store and in the workers. A worker that is shut down closes its panes after a grace period,
when the index has nothing of its session any more.
-/

set_option autoImplicit false

namespace Pyre.Supervisor
open Base

/-- The supervisor with the panes in the workers' shards, each with the window it was opened in;
the PaneIds that clients have got in answers and events; and those that `Closed` has named. -/
structure Fleet where
  impl : SupervisorImpl
  shards : Table SlotKey WindowId
  announced : List PaneId
  closed : List PaneId

/-- What a worker that has been told to shut down reports of its slots, each time with the id
that an unknown slot would get; `callback` is a change of state or a block event. -/
inductive WorkerReport where
  | callback (slot : UInt32) (fresh : PaneId)
  | paneClosed (slot : UInt32) (fresh : PaneId)
  deriving DecidableEq, Repr

/-- `exit` is a pane that ends under a worker which is not registered, and that the supervisor
may hear of or not. `late` are block events of the slots that `close_window` closes, which are
taken in only after it. -/
inductive FleetCall where
  | request (a : Operation)
  | closeWindow (w : WindowId) (late : List (SlotKey × PaneId))
  | listWindows (session : SessionKey)
  | getSessionLayout (session : SessionKey) (first : UInt32) (fresh : PaneId)
  | exit (session : SessionKey) (slot : UInt32) (heard : Option PaneId)
  | closeSession (session : SessionKey) (reports : List WorkerReport)
  deriving DecidableEq, Repr

namespace WorkerReport

def slot : WorkerReport → UInt32
  | callback slot _ | paneClosed slot _ => slot

def fresh : WorkerReport → PaneId
  | callback _ fresh | paneClosed _ fresh => fresh

def closes? : WorkerReport → Option UInt32
  | callback _ _ => none
  | paneClosed slot _ => some slot

/-- The worker reports of slots that it has, and closes each once. -/
def All (slots : List UInt32) (reports : List WorkerReport) : Prop :=
  (∀ r ∈ reports, r.slot ∈ slots) ∧ (reports.filterMap closes?).Perm slots

instance (slots : List UInt32) (reports : List WorkerReport) : Decidable (All slots reports) :=
  inferInstanceAs (Decidable (_ ∧ _))

end WorkerReport

/-- The slots of a closed session that have been heard of again, and those that are dead to it. -/
structure Heard where
  known : List UInt32
  dead : List UInt32

namespace Heard

/-- What is dead is forgotten with the last slot that is known. -/
def hear (h : Heard) : WorkerReport → Heard
  | .callback slot _ => if slot ∈ h.dead then h else { h with known := h.known.insert slot }
  | .paneClosed slot _ =>
    let left := h.known.filter (· ≠ slot)
    if left = [] then ⟨[],[]⟩ else ⟨left,slot :: h.dead⟩

/-- No slot is closed that was not heard of, and none is left in the end. -/
def Heralded : Heard → List WorkerReport → Prop
  | h, [] => h.known = []
  | h, r :: reports => (∀ slot ∈ r.closes?, slot ∈ h.known ∨ slot ∈ h.dead) ∧
    Heralded (h.hear r) reports

end Heard

namespace SupervisorImpl

/-- One round of the loop of `close_session`. -/
def closeSessionWindow (s : SupervisorImpl) (w : WindowId) : SupervisorImpl :=
  let s := (s.listPanesForWindow w).foldl unassign s
  { s with windowStore := s.windowStore.erase w }.deleteWindow w

/-- `close_session` up to its answer. -/
def closeSession (s : SupervisorImpl) (session : SessionKey) : SupervisorImpl :=
  let s := (s.windowsOf session).foldl closeSessionWindow (s.removeSession session)
  { s with sessionWindows := s.sessionWindows.erase session }

def rowsAt (s : SupervisorImpl) (w : WindowId) : List WindowRow :=
  s.windowRows.filter fun r => r.id = w

/-- The window is one of the session's in memory, or else in the store. -/
def Owns (s : SupervisorImpl) (session : SessionKey) (w : WindowId) : Prop :=
  s.sessionOf w = some session ∨ s.sessionOf w = none ∧ s.Stored session w

end SupervisorImpl

namespace Fleet

def empty : Fleet := ⟨.empty,∅,[],[]⟩

def onImpl (d : Fleet) (f : SupervisorImpl → SupervisorImpl) : Fleet := { d with impl := f d.impl }

/-- All that is in the index has been made known, but by the callback of a closed slot. -/
def tell (d : Fleet) : Fleet :=
  { d with announced := d.impl.index.paneToSlot.keys ++ d.announced }

/-- The pane at the slot has ended, and its worker calls back. -/
def paneClosed (d : Fleet) (k : SlotKey) (fresh : PaneId) : Fleet where
  impl := (if k.2 ∈ d.impl.slots k.1 then d.impl.closeSlot k.1 k.2 else d.impl).paneClosed k.1 k.2
    fresh
  shards := d.shards.erase k
  announced := d.announced
  closed := (d.impl.index.getOrAllocPaneBySlot k.1 k.2 fresh).2.toList ++ d.closed

def workerClose (d : Fleet) (k : SlotKey) (fresh : PaneId) : Fleet :=
  if k.2 ∈ d.impl.slots k.1 then d.paneClosed k fresh else d

def closeOnWorker (d : Fleet) (pane : PaneId) : Fleet :=
  match d.impl.index.lookup pane with
  | some k => d.workerClose k pane
  | none => d

def closePane (d : Fleet) (pane : PaneId) : Fleet :=
  (d.closeOnWorker pane).onImpl fun s => s.prunePane pane

def closePanes (d : Fleet) (panes : List PaneId) : Fleet :=
  panes.foldl (fun d pane => (d.closeOnWorker pane).onImpl fun s => s.unassign pane) d

def closeWindow (d : Fleet) (w : WindowId) : Fleet :=
  (d.closePanes (d.impl.listPanesForWindow w)).onImpl fun s => (s.dropWindow w).deleteWindow w

/-- Each with the id that an unknown slot would get. -/
def blockEvents (d : Fleet) (events : List (SlotKey × PaneId)) : Fleet :=
  events.foldl (fun d e => d.onImpl fun s => (s.getOrAllocPaneBySlot e.1.1 e.1.2 e.2).1) d

/-- A change of state is an event, which tells the id, and so does a block that is stored. -/
def report (session : SessionKey) (d : Fleet) : WorkerReport → Fleet
  | .callback slot fresh =>
    let (s,found) := d.impl.getOrAllocPaneBySlot session slot fresh
    { d with impl := s, announced := found.toList ++ d.announced }
  | .paneClosed slot fresh => d.paneClosed (session,slot) fresh

/-- With what the worker does in its grace period and after it. -/
def closeSession (d : Fleet) (session : SessionKey) (reports : List WorkerReport) : Fleet :=
  reports.foldl (report session) (d.onImpl fun s => s.closeSession session)

def Fresh (d : Fleet) (pane : PaneId) : Prop :=
  d.impl.UnusedPane pane ∧ pane ∉ d.announced ∧ pane ∉ d.closed

instance (d : Fleet) (pane : PaneId) : Decidable (d.Fresh pane) :=
  inferInstanceAs (Decidable (_ ∧ _ ∧ _))

instance (s : SupervisorImpl) (p : PaneId) (k : SlotKey) : Decidable (s.Closes p k) :=
  inferInstanceAs (Decidable (_ ∧ _))

/-- The slots that `close_window` closes. -/
def Shut (d : Fleet) (w : WindowId) (k : SlotKey) : Prop :=
  ∃ p ∈ d.impl.listPanesForWindow w, d.impl.Closes p k

instance (d : Fleet) (w : WindowId) (k : SlotKey) : Decidable (d.Shut w k) :=
  inferInstanceAs (Decidable (∃ p ∈ d.impl.listPanesForWindow w, d.impl.Closes p k))

/-- A new session has no shard, and a worker that registers has opened what is in its own. -/
def Admits (d : Fleet) : Operation → Prop
  | .spawn session _ _ => ∀ k ∈ d.shards.keys, k.1 ≠ session
  | .registerWorker session slots => (∀ slot ∈ slots, (session,slot) ∈ d.shards.keys) ∧
    ∀ k ∈ d.shards.keys, k.1 = session → k.2 ∈ slots
  | _ => True

instance (d : Fleet) : (a : Operation) → Decidable (d.Admits a)
  | .spawn session _ _ => inferInstanceAs (Decidable (∀ k ∈ d.shards.keys, k.1 ≠ session))
  | .registerWorker _ _ => inferInstanceAs (Decidable (_ ∧ _))
  | .newWindow _ _ _ | .openPane _ _ _ _ | .openPaneSplit _ _ _ _ | .closePane _
  | .shellExit _ _ _ | .listPanes _ _ _ | .closeWindow _ | .getWindowLayout _ _ _
  | .callback _ _ _ | .removeWorker _ | .restart => isTrue trivial

/-- The panes that are opened, each in the window it is opened in. -/
def shardsAfter (d : Fleet) : Operation → Table SlotKey WindowId
  | .spawn session _ w => d.shards.insert (session,d.impl.index.counter session) w
  | .openPane session asked _ fresh =>
    d.shards.insert (session,d.impl.index.counter session)
      (d.impl.resolveWindow session asked fresh).2
  | .openPaneSplit parent _ _ fresh =>
    match d.impl.index.lookup parent with
    | some k => d.shards.insert (k.1,d.impl.index.counter k.1)
        (d.impl.parentWindow k.1 parent fresh).2
    | none => d.shards
  | _ => d.shards

/-- The requests that close panes do so slot by slot; `close_window` is a call of its own. -/
def serve (d : Fleet) : Operation → Option Fleet
  | .closePane pane =>
    (d.impl.index.lookup pane).bind fun k =>
      if (d.impl.workers.lookup k.1).isSome then some (d.closePane pane) else none
  | .shellExit session slot fresh =>
    if d.impl.UnusedPane fresh then some (d.workerClose (session,slot) fresh) else none
  | .closeWindow _ => none
  | a =>
    if d.Admits a then (d.impl.step a).map fun s => { d with impl := s, shards := d.shardsAfter a }
    else none

def step (d : Fleet) : FleetCall → Option Fleet
  | .request a => (d.serve a).map tell
  | .closeWindow w late =>
    if (∀ e ∈ late, d.Shut w e.1) ∧ (late.map Prod.snd).Nodup ∧ ∀ e ∈ late, d.Fresh e.2 then
      some ((d.closeWindow w).blockEvents late).tell
    else none
  | .listWindows session => some (d.onImpl fun s => s.loadWindows session)
  | .getSessionLayout session first fresh =>
    if d.impl.UnusedPane fresh then
      some (d.onImpl fun s => (s.getSessionLayout session first fresh).1).tell
    else none
  | .exit session slot heard =>
    if d.impl.workers.lookup session = none ∧ (session,slot) ∈ d.shards.keys ∧
        ∀ fresh ∈ heard, d.impl.UnusedPane fresh then
      match heard with
      | some fresh => some (d.paneClosed (session,slot) fresh).tell
      | none => some { d with shards := d.shards.erase (session,slot) }
    else none
  | .closeSession session reports =>
    if WorkerReport.All (d.impl.slots session) reports ∧ (reports.map WorkerReport.fresh).Nodup ∧
        ∀ r ∈ reports, d.Fresh r.fresh then
      some (d.closeSession session reports)
    else none

/-- What clients, the workers and the store have. -/
def holdings (d : Fleet) : Holdings SlotKey PaneId WindowId SessionKey WindowMeta WindowRow where
  running k := d.shards.lookup k ≠ none
  listed k := k.2 ∈ d.impl.slots k.1
  index p := d.impl.index.lookup p
  home p := d.impl.paneWindowMap.lookup p
  memory w := d.impl.windowStore.lookup w
  store w := d.impl.rowsAt w
  lists session w := w ∈ d.impl.windowsOf session
  announced p := p ∈ d.announced
  closed p := p ∈ d.closed

/-- The slot has a pane of the window, or it has none of any and was opened in this one. -/
def Belongs (d : Fleet) (k : SlotKey) (w : WindowId) : Prop :=
  (∃ p, d.impl.On w p k) ∨ (∀ v p, ¬d.impl.On v p k) ∧ d.shards.lookup k = some w

def windowPart (d : Fleet) (w : WindowId) : Part SlotKey PaneId WindowId where
  place k := d.Belongs k w
  pane p := d.impl.paneWindowMap.lookup p = some w ∨ d.impl.paneWindowMap.lookup p = none ∧
    ∃ k, d.impl.index.lookup p = some k ∧ d.Belongs k w
  window v := v = w

def sessionPart (d : Fleet) (session : SessionKey) : Part SlotKey PaneId WindowId where
  place k := k.1 = session
  pane p := (∃ k, d.impl.index.lookup p = some k ∧ k.1 = session) ∨
    d.impl.index.lookup p = none ∧
      ∃ w, d.impl.paneWindowMap.lookup p = some w ∧ d.impl.Owns session w
  window w := d.impl.Owns session w

/-- `own`: the slots that are closed are the window's. `homes`: no pane of another window is at
one. `sessions`: a session that loses its last pane has no slot but those. `known`: the window
is listed where it is known. `late`: of a session that has lost its last pane nothing comes late. -/
structure EndsAlone (d : Fleet) (w : WindowId) (late : List (SlotKey × PaneId)) : Prop where
  own : ∀ k, d.Belongs k w ↔ d.Shut w k
  homes : ∀ v p k, d.impl.On v p k → d.Shut w k → v = w
  sessions : ∀ k, d.Shut w k →
    (∀ p j, d.impl.index.lookup p = some j → j.1 = k.1 → d.Shut w j) →
      ∀ slot ∈ d.impl.slots k.1, d.Shut w (k.1,slot)
  known : ∀ session, w ∈ d.impl.windowsOf session → d.impl.sessionOf w = some session
  late : ∀ e ∈ late, ∃ p k, d.impl.index.lookup p = some k ∧ k.1 = e.1.1 ∧ ¬d.Shut w k

/-- `running`: the session's worker is registered, or has no pane. `owned`, `listed`, `apart`:
the windows listed for the session are its own, and in no other list. `homes`: they have the
panes of the session. `heralded`: what the worker reports gives no slot an id to keep, or one that
only `Closed` names. -/
structure EndsWhole (d : Fleet) (session : SessionKey) (reports : List WorkerReport) : Prop where
  running : ∀ slot, d.shards.lookup (session,slot) ≠ none → slot ∈ d.impl.slots session
  owned : ∀ w, d.impl.Owns session w → w ∈ d.impl.windowsOf session
  listed : ∀ w ∈ d.impl.windowsOf session, d.impl.windowStore.lookup w ≠ none ∨
    d.impl.rowsAt w ≠ [] → d.impl.Owns session w
  apart : ∀ w, d.impl.Owns session w → ∀ other, w ∈ d.impl.windowsOf other → other = session
  homes : ∀ v p k, d.impl.On v p k → (k.1 = session ↔ v ∈ d.impl.windowsOf session)
  heralded : Heard.Heralded ⟨[],[]⟩ reports

end Fleet

end Pyre.Supervisor
