import Pyre.Supervisor.Batcher
import Pyre.Supervisor.Windows

/-!
The workers of a session one after the other. A worker that misses its heartbeats is
replaced though it may go on, and what it calls the supervisor with names its session and
slot but not itself. Each lock section of a call is a step.
-/

set_option autoImplicit false

namespace Pyre.Supervisor
open Base Blocks

/-- What the registry has of a worker; a process is its number in the order of their starts. -/
structure WorkerHandle where
  worker : Nat
  lastHeartbeat : Nat
  deriving DecidableEq, Repr

/-- Where the heartbeat monitor or the SIGCHLD handler stands with a session. -/
inductive RespawnPhase where
  | counting
  | evicting (again : Bool)
  | unregistering (again : Bool)
  | spawning
  deriving DecidableEq, Repr

structure Respawn where
  session : SessionKey
  phase : RespawnPhase
  deriving DecidableEq, Repr

/-- Where a `pane_closed` or a `pane_state_changed` stands. -/
inductive CallPhase where
  | checkingClosed
  | registeringClosed
  | removing (pane : Option PaneId)
  | evicting (pane : Option PaneId)
  | unregistering (pane : Option PaneId)
  | unmapping (pane : Option PaneId)
  | pruning (pane : PaneId) (w : WindowId)
  | persisting (w : WindowId) (tree : LayoutNode)
  | signalling
  | checkingState
  | registeringState
  deriving Repr

structure WorkerCall where
  worker : Nat
  session : SessionKey
  slot : UInt32
  phase : CallPhase
  deriving Repr

/-- `handles` are the registered workers (`impl.workers` is not used here), `started` has the
session of each process. `archive` and `paneParsers` are the batcher's; `events` and `signals`
are what it has not got to yet, with the process each is from. -/
structure Serving (σ : Type) where
  impl : SupervisorImpl
  handles : Table SessionKey WorkerHandle
  started : List SessionKey
  exited : Finset Nat
  respawns : List Respawn
  calls : List WorkerCall
  events : List (Nat × RawEvent)
  signals : List (Nat × SlotKey)
  archive : Archive
  paneParsers : Table SlotKey (PaneParserState σ)
  nowMs : Nat

/-- What the handlers of clients write into the tables. -/
inductive TableWrite where
  | index (op : IndexOp)
  | assign (pane : PaneId) (w : WindowId)
  | unassign (pane : PaneId)
  | setMeta (w : WindowId) (info : WindowMeta)
  | upsertWindow (w : WindowId) (session : SessionKey) (name : String) (position : UInt32)
  | upsertWindowLayout (w : WindowId) (tree : LayoutNode)
  | pushWindow (session : SessionKey) (w : WindowId)
  | dropWindow (w : WindowId)
  | deleteWindow (w : WindowId)

/-- `missed` and `reap` are what the monitor and the signal handler find, `respawn` goes on
with it. `call`, `process` and `finalize` go on with what workers have called for. -/
inductive ServingStep where
  | spawn (session : SessionKey)
  | registerWorker (worker : Nat)
  | exit (worker : Nat)
  | missed (session : SessionKey)
  | reap (worker : Nat)
  | respawn (task : Nat)
  | respawnFails (task : Nat)
  | paneClosed (worker : Nat) (slot : UInt32)
  | paneStateChanged (worker : Nat) (slot : UInt32)
  | blockEvent (worker : Nat) (slot : UInt32) (bytes : Bytes)
  | heartbeat (worker : Nat)
  | call (i : Nat) (fresh : PaneId)
  | process (fresh : PaneId)
  | finalize (i : Nat)
  | write (op : TableWrite)
  | wait (ms : Nat)

def heartbeatTimeoutMs : Nat := 15*1000

def TableWrite.run (impl : SupervisorImpl) : TableWrite → Option SupervisorImpl
  | .index op => (impl.index.step op).map fun index => { impl with index := index }
  | .assign pane w => some (impl.assign pane w)
  | .unassign pane => some (impl.unassign pane)
  | .setMeta w info => some (impl.setMeta w info)
  | .upsertWindow w session name position => some (impl.upsertWindow w session name position)
  | .upsertWindowLayout w tree => some (impl.upsertWindowLayout w tree)
  | .pushWindow session w => some (impl.pushWindow session w)
  | .dropWindow w => some (impl.dropWindow w)
  | .deleteWindow w => some (impl.deleteWindow w)

namespace Serving

variable {σ : Type}

def start : Serving σ := ⟨.empty,∅,[],∅,[],[],[],[],.empty,∅,0⟩

def setIndex (s : Serving σ) (index : PaneIndex) : Serving σ :=
  { s with impl := { s.impl with index := index } }

def unregister (s : Serving σ) (session : SessionKey) : Serving σ :=
  { s with handles := s.handles.erase session }

/-- `session_for_pid`. -/
def sessionForPid (s : Serving σ) (worker : Nat) : Option SessionKey :=
  (s.handles.entries.find? fun e => e.2.worker = worker).map Sigma.fst

def touchHeartbeat (s : Serving σ) (session : SessionKey) : Serving σ :=
  match s.handles.lookup session with
  | some h =>
    { s with handles := s.handles.insert session { h with lastHeartbeat := s.nowMs } }
  | none => s

/-- One section of the monitor or the signal handler, and where it stands then. -/
def respawnSection (s : Serving σ) (task : Respawn) : Serving σ × Option RespawnPhase :=
  match task.phase with
  | .counting => (s,some (.evicting (s.impl.index.paneCount task.session ≠ 0)))
  | .evicting again =>
    (s.setIndex (s.impl.index.removeSession task.session),some (.unregistering again))
  | .unregistering again => (s.unregister task.session,if again then some .spawning else none)
  | .spawning => ({ s with started := s.started ++ [task.session] },none)

/-- The write section of `get_or_alloc_pane_by_slot`. -/
def registerSlot (s : Serving σ) (c : WorkerCall) (fresh : PaneId) : Serving σ :=
  s.setIndex (s.impl.index.register fresh c.session c.slot)

def unmapPane (s : Serving σ) : Option PaneId → Serving σ × Option CallPhase
  | none => (s,some .signalling)
  | some pane =>
    match s.impl.paneWindowMap.lookup pane with
    | none => (s,some .signalling)
    | some w => ({ s with impl := s.impl.unassign pane },some (.pruning pane w))

def prune (s : Serving σ) (pane : PaneId) (w : WindowId) : Serving σ × Option CallPhase :=
  match (s.impl.windowStore.lookup w).bind WindowMeta.layout with
  | none => (s,some .signalling)
  | some tree =>
    let tree := (tree.close pane).1
    ({ s with impl := s.impl.setLayout w tree },some (.persisting w tree))

/-- One section of a call, and where the call stands then. -/
def callSection (s : Serving σ) (c : WorkerCall) (fresh : PaneId) :
    Serving σ × Option CallPhase :=
  match c.phase with
  | .checkingClosed =>
    (s,some (if s.impl.index.Registers c.session c.slot then .registeringClosed
      else .removing (s.impl.index.paneIdBySlot c.session c.slot)))
  | .registeringClosed => (s.registerSlot c fresh,some (.removing (some fresh)))
  | .removing pane =>
    let (index,remaining) := s.impl.index.removePaneSlot c.session c.slot
    (s.setIndex index,some (if remaining = 0 then .evicting pane else .unmapping pane))
  | .evicting pane =>
    (s.setIndex (s.impl.index.removeSession c.session),some (.unregistering pane))
  | .unregistering pane => (s.unregister c.session,some (.unmapping pane))
  | .unmapping pane => s.unmapPane pane
  | .pruning pane w => s.prune pane w
  | .persisting w tree =>
    ({ s with impl := s.impl.upsertWindowLayout w tree },some .signalling)
  | .signalling => ({ s with signals := s.signals ++ [(c.worker,(c.session,c.slot))] },none)
  | .checkingState =>
    (s,if s.impl.index.Registers c.session c.slot then some .registeringState else none)
  | .registeringState => (s.registerSlot c fresh,none)

/-- A call comes in from a process, which may have exited since. -/
def begin (s : Serving σ) (worker : Nat) (slot : UInt32) (phase : CallPhase) :
    Option (Serving σ) :=
  s.started[worker]?.map fun session =>
    { s with calls := s.calls ++ [⟨worker,session,slot,phase⟩] }

def moveCall (s : Serving σ) (i : Nat) : Option CallPhase → Serving σ
  | some phase => { s with calls := s.calls.modify i fun c => { c with phase := phase } }
  | none => { s with calls := s.calls.eraseIdx i }

def moveRespawn (s : Serving σ) (task : Nat) : Option RespawnPhase → Serving σ
  | some phase => { s with respawns := s.respawns.modify task fun r => { r with phase := phase } }
  | none => { s with respawns := s.respawns.eraseIdx task }

/-- The batcher's view of the tables. -/
def batcher (s : Serving σ) : Batcher σ :=
  ⟨s.impl.index,s.archive,s.paneParsers,[],[],.waiting,[]⟩

def setBatcher (s : Serving σ) (b : Batcher σ) : Serving σ :=
  { s.setIndex b.index with archive := b.archive, paneParsers := b.paneParsers }

variable (w : World) (vte : Vte σ) (draw : SlotKey → Nat → BlockId)
  (parse : SessionKey → Option SessionId)

def step (s : Serving σ) : ServingStep → Option (Serving σ)
  | .spawn session =>
    if session ∉ s.started then some { s with started := s.started ++ [session] } else none
  | .registerWorker worker => s.started[worker]?.map fun session =>
    { s with handles := s.handles.insert session ⟨worker,s.nowMs⟩ }
  | .exit worker =>
    if worker < s.started.length then some { s with exited := insert worker s.exited } else none
  | .missed session =>
    if (s.handles.lookup session).any fun h => heartbeatTimeoutMs < s.nowMs-h.lastHeartbeat then
      some { s with respawns := s.respawns ++ [⟨session,.evicting true⟩] }
    else none
  | .reap worker =>
    if worker ∈ s.exited then
      (s.sessionForPid worker).map fun session =>
        { s with respawns := s.respawns ++ [⟨session,.counting⟩] }
    else none
  | .respawn task => s.respawns[task]?.map fun r =>
    let (s,phase) := s.respawnSection r
    s.moveRespawn task phase
  | .respawnFails task =>
    (s.respawns[task]?.filter fun r => r.phase = .spawning).map fun _ => s.moveRespawn task none
  | .paneClosed worker slot => s.begin worker slot .checkingClosed
  | .paneStateChanged worker slot => s.begin worker slot .checkingState
  | .blockEvent worker slot bytes => s.started[worker]?.map fun session =>
    { s with events := s.events ++ [(worker,⟨session,slot,bytes⟩)] }
  | .heartbeat worker => s.started[worker]?.map s.touchHeartbeat
  | .call i fresh =>
    if s.impl.index.lookup fresh = none then
      s.calls[i]?.map fun c =>
        let (s,phase) := s.callSection c fresh
        s.moveCall i phase
    else none
  | .process fresh =>
    if s.impl.index.lookup fresh = none then
      s.events.head?.map fun e =>
        { s with events := s.events.tail }.setBatcher
          (s.batcher.processRaw w vte draw parse e.2 fresh)
    else none
  | .finalize i => s.signals[i]?.map fun e =>
    { s with signals := s.signals.eraseIdx i }.setBatcher (s.batcher.finalizePane w e.2)
  | .write op => (op.run s.impl).map fun impl => { s with impl := impl }
  | .wait ms => some { s with nowMs := s.nowMs+ms }

/-- The process whose call the step goes on with. -/
def sender (s : Serving σ) : ServingStep → Option Nat
  | .paneClosed worker _ | .paneStateChanged worker _ | .blockEvent worker _ _
  | .heartbeat worker => some worker
  | .call i _ => s.calls[i]?.map WorkerCall.worker
  | .process _ => s.events.head?.map Prod.fst
  | .finalize i => s.signals[i]?.map Prod.fst
  | .spawn _ | .registerWorker _ | .exit _ | .missed _ | .reap _ | .respawn _ | .respawnFails _
  | .write _ | .wait _ => none

/-- The process is the registered worker of its session and has not exited. -/
def Serves (s : Serving σ) (session : SessionKey) (worker : Nat) : Prop :=
  (s.handles.lookup session).map WorkerHandle.worker = some worker ∧ worker ∉ s.exited

/-- Another process is registered in its place, or none is and one was started after it. -/
def SupersededIn (s : Serving σ) (session : SessionKey) (worker : Nat) : Prop :=
  match s.handles.lookup session with
  | some h => h.worker ≠ worker
  | none => session ∈ s.started.drop (worker+1)

def Superseded (s : Serving σ) (worker : Nat) : Prop :=
  ∃ session ∈ s.started[worker]?, s.SupersededIn session worker

/-- Every table has the same entries, the registry and what is known of blocks included. -/
structure Same (s t : Serving σ) : Prop where
  panes : ∀ p, t.impl.index.lookup p = s.impl.index.lookup p
  counters : ∀ session, t.impl.index.nextSlots.lookup session = s.impl.index.nextSlots.lookup session
  dead : t.impl.index.deadSlots = s.impl.index.deadSlots
  windows : ∀ w, t.impl.windowStore.lookup w = s.impl.windowStore.lookup w
  listed : ∀ session, t.impl.sessionWindows.lookup session = s.impl.sessionWindows.lookup session
  mapped : ∀ p, t.impl.paneWindowMap.lookup p = s.impl.paneWindowMap.lookup p
  rows : t.impl.windowRows = s.impl.windowRows
  stored : ∀ p, t.impl.paneRows.lookup p = s.impl.paneRows.lookup p
  handles : ∀ session, t.handles.lookup session = s.handles.lookup session
  archive : t.archive = s.archive
  parsers : ∀ key, ∀ session ∈ parse key.1,
    t.batcher.parserOf vte key session = s.batcher.parserOf vte key session

/-- The step is none that a superseded worker has called for, or it changes nothing. -/
def Unaffected (s : Serving σ) (a : ServingStep) : Prop :=
  ∀ worker ∈ s.sender a, s.Superseded worker →
    ∀ t, s.step w vte draw parse a = some t → s.Same vte parse t

/-- A session is served by one process, and by one that was started for it. -/
structure OneServer (s : Serving σ) : Prop where
  started : ∀ session worker, s.Serves session worker → s.started[worker]? = some session
  one : ∀ session m n, s.Serves session m → s.Serves session n → m = n

/-! What finds nothing to change. -/

/-- The index has nothing of the session. -/
def Absent (s : Serving σ) (session : SessionKey) : Prop :=
  s.impl.index.paneCount session = 0 ∧ s.impl.index.nextSlots.lookup session = none ∧
    ∀ k ∈ s.impl.index.deadSlots, k.1 ≠ session

/-- The slot is closed and no pane is mapped to it. -/
def Gone (s : Serving σ) (session : SessionKey) (slot : UInt32) : Prop :=
  s.impl.index.paneIdBySlot session slot = none ∧ s.impl.index.isDead session slot = true

def IdleCall (s : Serving σ) (c : WorkerCall) : Prop :=
  match c.phase with
  | .checkingClosed | .checkingState | .signalling => True
  | .registeringClosed | .registeringState => False
  | .removing _ => s.Gone c.session c.slot
  | .evicting _ => s.Absent c.session
  | .unregistering _ => s.handles.lookup c.session = none
  | .unmapping pane => ∀ p ∈ pane, s.impl.paneWindowMap.lookup p = none
  | .pruning pane w => ∀ info ∈ s.impl.windowStore.lookup w, ∀ tree ∈ info.layout,
    (tree.close pane).1 = tree
  | .persisting w tree => ∀ r ∈ s.impl.windowRows, r.id = w → r.layout = some tree

/-- An event that is dropped. -/
def Dropped (s : Serving σ) (raw : RawEvent) : Prop :=
  ∀ session ∈ parse raw.session,
    (s.batcher.parserOf vte raw.key session).paneId = none ∧ s.Gone raw.session raw.slot

/-- What a superseded worker has called for finds nothing to change: no slot to register,
no mapping, window or registered worker to take away, no block and no newer stamp. -/
def Harmless (s : Serving σ) (a : ServingStep) : Prop :=
  ∀ worker ∈ s.sender a, s.Superseded worker →
    match a with
    | .heartbeat _ => ∀ session ∈ s.started[worker]?, ∀ h ∈ s.handles.lookup session,
      h.lastHeartbeat = s.nowMs
    | .call i _ => ∀ c ∈ s.calls[i]?, s.IdleCall c
    | .process _ => ∀ e ∈ s.events.head?, s.Dropped vte parse e.2
    | .finalize i => ∀ e ∈ s.signals[i]?, ∀ p ∈ s.paneParsers.lookup e.2, p.blockMeta = ∅
    | _ => True

instance (s : Serving σ) (session : SessionKey) (worker : Nat) :
    Decidable (s.SupersededIn session worker) := by
  unfold SupersededIn
  cases s.handles.lookup session <;> infer_instance

instance (s : Serving σ) (worker : Nat) : Decidable (s.Superseded worker) :=
  inferInstanceAs (Decidable (∃ _ ∈ s.started[worker]?, _))

variable {w vte draw parse} {s t : Serving σ} {session : SessionKey} {slot : UInt32}

/-- The step has to do with none of the tables. -/
theorem Same.of_eq (himpl : t.impl = s.impl) (hhandles : t.handles = s.handles)
    (harchive : t.archive = s.archive) (hparsers : t.paneParsers = s.paneParsers) :
    s.Same vte parse t := by
  refine ⟨?_,?_,?_,?_,?_,?_,?_,?_,?_,harchive,?_⟩
  all_goals intros
  all_goals simp only [himpl,hhandles,batcher,Batcher.parserOf,hparsers]

/-- The index is written back as it is. -/
theorem Same.setIndex {index : PaneIndex} (h : index = s.impl.index) :
    s.Same vte parse (s.setIndex index) := by
  subst h
  exact .of_eq rfl rfl rfl rfl

theorem removePaneSlot_gone (h : s.Gone session slot) :
    (s.impl.index.removePaneSlot session slot).1 = s.impl.index := by
  have hnone := PaneIndex.paneIdBySlot_eq_none.mp h.1
  have hpanes : s.impl.index.paneToSlot.retain (fun _ k => ¬(k.1 = session ∧ k.2 = slot)) =
      s.impl.index.paneToSlot := by
    refine Table.retain_eq_self fun p k hk => decide_eq_true fun hkey => hnone p ?_
    rw [PaneIndex.lookup,hk,← hkey.1,← hkey.2]
  have hdead : insert (session,slot) s.impl.index.deadSlots = s.impl.index.deadSlots :=
    Finset.insert_eq_self.mpr (of_decide_eq_true h.2)
  simp only [PaneIndex.removePaneSlot,hpanes,hdead]

theorem removeSession_absent (h : s.Absent session) :
    s.impl.index.removeSession session = s.impl.index := by
  obtain ⟨hcount,hnext,hdead⟩ := h
  have hpanes : s.impl.index.paneToSlot.retain (fun _ k => k.1 ≠ session) =
      s.impl.index.paneToSlot := by
    refine Table.retain_eq_self fun p k hk => decide_eq_true fun hs => ?_
    have hmem : k ∈ s.impl.index.paneToSlot.values.filter fun k => k.1 = session :=
      List.mem_filter.mpr ⟨List.mem_map.mpr ⟨_,Table.lookup_eq_some.mp hk,rfl⟩,by simpa using hs⟩
    exact List.ne_nil_of_mem hmem (List.eq_nil_of_length_eq_zero hcount)
  have hcounter : s.impl.index.nextSlots.erase session = s.impl.index.nextSlots :=
    AList.ext (List.kerase_of_notMem_keys (AList.lookup_eq_none.mp hnext))
  have hslots : (s.impl.index.deadSlots.filter fun k => k.1 ≠ session) =
      s.impl.index.deadSlots := Finset.filter_true_of_mem hdead
  simp only [PaneIndex.removeSession,hpanes,hcounter,hslots]

/-- A section of a call that finds nothing to change. -/
theorem same_callSection {c : WorkerCall} (h : s.IdleCall c) (fresh : PaneId) :
    s.Same vte parse (s.callSection c fresh).1 := by
  obtain ⟨worker,session,slot,phase⟩ := c
  cases phase with
  | checkingClosed => exact .of_eq rfl rfl rfl rfl
  | registeringClosed => exact h.elim
  | removing pane => exact .setIndex (removePaneSlot_gone h)
  | evicting pane => exact .setIndex (removeSession_absent h)
  | unregistering pane =>
    have hall : ∀ k, (s.handles.erase session).lookup k = s.handles.lookup k := by
      intro k
      by_cases hk : k = session
      · rw [hk,AList.lookup_erase]
        exact h.symm
      · exact AList.lookup_erase_ne hk
    exact ⟨fun _ => rfl,fun _ => rfl,rfl,fun _ => rfl,fun _ => rfl,fun _ => rfl,rfl,fun _ => rfl,
      hall,rfl,fun _ _ _ => rfl⟩
  | unmapping pane =>
    cases pane with
    | none => exact .of_eq rfl rfl rfl rfl
    | some p =>
      have hnone : s.impl.paneWindowMap.lookup p = none := h p rfl
      simp only [callSection,unmapPane,hnone]
      exact .of_eq rfl rfl rfl rfl
  | pruning pane w =>
    cases hinfo : s.impl.windowStore.lookup w with
    | none =>
      simp only [callSection,prune,hinfo,Option.bind_none]
      exact .of_eq rfl rfl rfl rfl
    | some info =>
      cases htree : info.layout with
      | none =>
        simp only [callSection,prune,hinfo,Option.bind_some,htree]
        exact .of_eq rfl rfl rfl rfl
      | some tree =>
        have hclose : (tree.close pane).1 = tree := h info hinfo tree htree
        have hsame : ({ info with layout := some tree } : WindowMeta) = info := by rw [← htree]
        simp only [callSection,prune,hinfo,Option.bind_some,htree,hclose,SupervisorImpl.setLayout,
          hsame]
        exact ⟨fun _ => rfl,fun _ => rfl,rfl,Table.lookup_insert_same hinfo,fun _ => rfl,
          fun _ => rfl,rfl,fun _ => rfl,fun _ => rfl,rfl,fun _ _ _ => rfl⟩
  | persisting w tree =>
    have hrows : (s.impl.upsertWindowLayout w tree).windowRows = s.impl.windowRows := by
      refine (List.map_congr_left fun r hr => ?_).trans (List.map_id _)
      by_cases hw : r.id = w
      · rw [if_pos hw,← h r hr hw]
        rfl
      · rw [if_neg hw]
        rfl
    exact ⟨fun _ => rfl,fun _ => rfl,rfl,fun _ => rfl,fun _ => rfl,fun _ => rfl,hrows,fun _ => rfl,
      fun _ => rfl,rfl,fun _ _ _ => rfl⟩
  | signalling => exact .of_eq rfl rfl rfl rfl
  | checkingState => exact .of_eq rfl rfl rfl rfl
  | registeringState => exact h.elim

/-- An event that is dropped leaves at most a new parser. -/
theorem same_processRaw {raw : RawEvent} (h : s.Dropped vte parse raw) (fresh : PaneId) :
    s.Same vte parse (s.setBatcher (s.batcher.processRaw w vte draw parse raw fresh)) := by
  unfold Batcher.processRaw
  cases hparse : parse raw.session with
  | none => exact .of_eq rfl rfl rfl rfl
  | some session =>
    obtain ⟨hnew,hmapped,hdead⟩ := h session hparse
    have hdrop : s.impl.index.getOrAllocPaneBySlot raw.session raw.slot fresh =
        (s.impl.index,none) := by
      simp [PaneIndex.getOrAllocPaneBySlot,hmapped,hdead]
    simp only [hnew,show s.batcher.index = s.impl.index from rfl,hdrop]
    refine ⟨fun _ => rfl,fun _ => rfl,rfl,fun _ => rfl,fun _ => rfl,fun _ => rfl,rfl,fun _ => rfl,
      fun _ => rfl,rfl,fun key session' hsession => ?_⟩
    by_cases hkey : key = raw.key
    · subst hkey
      obtain rfl : session = session' := Option.some.inj (hparse.symm.trans hsession)
      simp [setBatcher,setIndex,batcher,Batcher.parserOf]
    · simp [setBatcher,setIndex,batcher,Batcher.parserOf,AList.lookup_insert_ne hkey]

theorem same_finalizePane {key : SlotKey}
    (h : ∀ p ∈ s.paneParsers.lookup key, p.blockMeta = ∅) :
    s.Same vte parse (s.setBatcher (s.batcher.finalizePane w key)) := by
  cases hp : s.paneParsers.lookup key with
  | none =>
    have hlog : s.batcher.finalizePane w key =
        { s.batcher with history := s.batcher.history ++ [(key,none)] } := by
      simp only [Batcher.finalizePane,show s.batcher.paneParsers = s.paneParsers from rfl,hp]
    rw [hlog]
    exact .of_eq rfl rfl rfl rfl
  | some p =>
    have hlog : s.batcher.finalizePane w key = s.batcher.put key s.archive p none := by
      simp only [Batcher.finalizePane,show s.batcher.paneParsers = s.paneParsers from rfl,hp,
        PaneParserState.finalizeOne,h p hp]
      rfl
    rw [hlog]
    refine ⟨fun _ => rfl,fun _ => rfl,rfl,fun _ => rfl,fun _ => rfl,fun _ => rfl,rfl,fun _ => rfl,
      fun _ => rfl,rfl,fun k session _ => ?_⟩
    exact congrArg (Option.getD · _) (Table.lookup_insert_same hp k)

theorem same_touchHeartbeat (h : ∀ e ∈ s.handles.lookup session, e.lastHeartbeat = s.nowMs) :
    s.Same vte parse (s.touchHeartbeat session) := by
  unfold touchHeartbeat
  cases he : s.handles.lookup session with
  | none => exact .of_eq rfl rfl rfl rfl
  | some e =>
    have hsame : ({ e with lastHeartbeat := s.nowMs } : WorkerHandle) = e := by rw [← h e he]
    simp only [hsame]
    exact ⟨fun _ => rfl,fun _ => rfl,rfl,fun _ => rfl,fun _ => rfl,fun _ => rfl,rfl,fun _ => rfl,
      Table.lookup_insert_same he,rfl,fun _ _ _ => rfl⟩

theorem Same.congr {u : Serving σ} (h : s.Same vte parse t) (himpl : u.impl = t.impl)
    (hhandles : u.handles = t.handles) (harchive : u.archive = t.archive)
    (hparsers : u.paneParsers = t.paneParsers) : s.Same vte parse u := by
  obtain ⟨impl,handles,started,exited,respawns,calls,events,signals,archive,parsers,now⟩ := u
  obtain rfl : impl = t.impl := himpl
  obtain rfl : handles = t.handles := hhandles
  obtain rfl : archive = t.archive := harchive
  obtain rfl : parsers = t.paneParsers := hparsers
  exact ⟨h.panes,h.counters,h.dead,h.windows,h.listed,h.mapped,h.rows,h.stored,h.handles,
    h.archive,h.parsers⟩

theorem same_moveCall (h : s.Same vte parse t) (i : Nat) (phase : Option CallPhase) :
    s.Same vte parse (t.moveCall i phase) := by
  cases phase <;> exact h.congr rfl rfl rfl rfl

theorem same_begin {worker : Nat} {phase : CallPhase} (h : s.begin worker slot phase = some t) :
    s.Same vte parse t := by
  obtain ⟨session,-,rfl⟩ := Option.map_eq_some_iff.mp h
  exact .of_eq rfl rfl rfl rfl

theorem unaffected_of_harmless {a : ServingStep} (h : s.Harmless vte parse a) :
    s.Unaffected w vte draw parse a := by
  intro worker hsender hold t ht
  have hidle := h worker hsender hold
  cases a with
  | spawn | registerWorker | exit | missed | reap | respawn | respawnFails | write | wait =>
    cases hsender
  | paneClosed n slot => exact same_begin ht
  | paneStateChanged n slot => exact same_begin ht
  | blockEvent n slot bytes =>
    obtain ⟨session,-,rfl⟩ := Option.map_eq_some_iff.mp ht
    exact .of_eq rfl rfl rfl rfl
  | heartbeat n =>
    obtain rfl : n = worker := Option.some.inj hsender
    obtain ⟨session,hsession,rfl⟩ := Option.map_eq_some_iff.mp ht
    exact same_touchHeartbeat (hidle session hsession)
  | call i fresh =>
    obtain ⟨hfresh,ht⟩ := (Option.ite_none_right_eq_some).mp ht
    obtain ⟨c,hc,rfl⟩ := Option.map_eq_some_iff.mp ht
    exact same_moveCall (same_callSection (hidle c hc) fresh) i _
  | process fresh =>
    obtain ⟨hfresh,ht⟩ := (Option.ite_none_right_eq_some).mp ht
    obtain ⟨e,he,rfl⟩ := Option.map_eq_some_iff.mp ht
    exact (same_processRaw (hidle e he) fresh).congr rfl rfl rfl rfl
  | finalize i =>
    obtain ⟨e,he,rfl⟩ := Option.map_eq_some_iff.mp ht
    exact (same_finalizePane (hidle e he)).congr rfl rfl rfl rfl

/-- A registered worker was started for its session. -/
def Owned (s : Serving σ) : Prop :=
  ∀ session h, s.handles.lookup session = some h → s.started[h.worker]? = some session

theorem Owned.oneServer (h : s.Owned) : s.OneServer where
  started session worker hserves := by
    obtain ⟨e,he,rfl⟩ := Option.map_eq_some_iff.mp hserves.1
    exact h session e he
  one session m n hm hn := Option.some.inj (hm.1.symm.trans hn.1)

/-- No worker is registered anew, at most its stamp is. -/
theorem Owned.keep (h : s.Owned) (hstarted : s.started <+: t.started)
    (hhandles : ∀ session e, t.handles.lookup session = some e →
      ∃ e', s.handles.lookup session = some e' ∧ e'.worker = e.worker) : t.Owned := by
  intro session e he
  obtain ⟨e',he',hworker⟩ := hhandles session e he
  obtain ⟨later,hlater⟩ := hstarted
  have hold := h session e' he'
  rw [hworker] at hold
  rw [← hlater,List.getElem?_append_left (List.getElem?_eq_some_iff.mp hold).1,hold]

theorem Owned.same (h : s.Owned) (hstarted : t.started = s.started)
    (hhandles : t.handles = s.handles) : t.Owned :=
  h.keep (hstarted ▸ List.prefix_refl _) fun _ e he => ⟨e,hhandles ▸ he,rfl⟩

theorem Owned.unregister (h : s.Owned) (session : SessionKey) : (s.unregister session).Owned :=
  h.keep (List.prefix_refl _) fun _ e he => ⟨e,(Table.lookup_erase_eq_some.mp he).2,rfl⟩

theorem Owned.touchHeartbeat (h : s.Owned) (session : SessionKey) :
    (s.touchHeartbeat session).Owned := by
  unfold Serving.touchHeartbeat
  split
  · rename_i old hold
    refine h.keep (List.prefix_refl _) fun session' e he => ?_
    rcases Table.lookup_insert_eq_some.mp he with ⟨rfl,rfl⟩ | ⟨-,he⟩
    · exact ⟨old,hold,rfl⟩
    · exact ⟨e,he,rfl⟩
  · exact h

theorem Owned.respawnSection (h : s.Owned) (task : Respawn) : (s.respawnSection task).1.Owned := by
  obtain ⟨session,phase⟩ := task
  cases phase with
  | counting => exact h
  | evicting again => exact h.same rfl rfl
  | unregistering again => exact h.unregister session
  | spawning => exact h.keep (List.prefix_append _ _) fun _ e he => ⟨e,he,rfl⟩

theorem Owned.callSection (h : s.Owned) (c : WorkerCall) (fresh : PaneId) :
    (s.callSection c fresh).1.Owned := by
  obtain ⟨worker,session,slot,phase⟩ := c
  cases phase with
  | unregistering pane => exact h.unregister session
  | unmapping pane =>
    cases pane with
    | none => exact h
    | some p =>
      simp only [Serving.callSection,unmapPane]
      cases s.impl.paneWindowMap.lookup p <;> exact h.same rfl rfl
  | pruning pane w =>
    simp only [Serving.callSection,prune]
    cases (s.impl.windowStore.lookup w).bind WindowMeta.layout <;> exact h.same rfl rfl
  | checkingClosed | registeringClosed | removing | evicting | persisting | signalling
  | checkingState | registeringState => exact h.same rfl rfl

theorem Owned.step {a : ServingStep} (h : s.Owned) (ht : s.step w vte draw parse a = some t) :
    t.Owned := by
  cases a with
  | spawn session =>
    obtain ⟨-,ht⟩ := (Option.ite_none_right_eq_some).mp ht
    obtain rfl := Option.some.inj ht
    exact h.keep (List.prefix_append _ _) fun _ e he => ⟨e,he,rfl⟩
  | registerWorker n =>
    obtain ⟨session,hsession,rfl⟩ := Option.map_eq_some_iff.mp ht
    intro session' e he
    rcases Table.lookup_insert_eq_some.mp he with ⟨rfl,rfl⟩ | ⟨-,he⟩
    · exact hsession
    · exact h session' e he
  | respawn task =>
    obtain ⟨r,hr,rfl⟩ := Option.map_eq_some_iff.mp ht
    cases hphase : (s.respawnSection r).2 <;>
      · simp only [hphase]
        exact (h.respawnSection r).same rfl rfl
  | call i fresh =>
    obtain ⟨hfresh,ht⟩ := (Option.ite_none_right_eq_some).mp ht
    obtain ⟨c,hc,rfl⟩ := Option.map_eq_some_iff.mp ht
    cases hphase : (s.callSection c fresh).2 <;>
      · simp only [hphase]
        exact (h.callSection c fresh).same rfl rfl
  | heartbeat n =>
    obtain ⟨session,-,rfl⟩ := Option.map_eq_some_iff.mp ht
    exact h.touchHeartbeat session
  | wait ms =>
    obtain rfl := Option.some.inj ht
    exact h.same rfl rfl
  | exit n | missed session =>
    obtain ⟨-,ht⟩ := (Option.ite_none_right_eq_some).mp ht
    obtain rfl := Option.some.inj ht
    exact h.same rfl rfl
  | reap n | process fresh =>
    obtain ⟨-,ht⟩ := (Option.ite_none_right_eq_some).mp ht
    obtain ⟨x,-,rfl⟩ := Option.map_eq_some_iff.mp ht
    exact h.same rfl rfl
  | respawnFails task | paneClosed n slot | paneStateChanged n slot | blockEvent n slot bytes
  | finalize i | write op =>
    obtain ⟨x,-,rfl⟩ := Option.map_eq_some_iff.mp ht
    exact h.same rfl rfl

theorem owned_start : (start (σ := σ)).Owned := by
  intro session h hh
  cases hh

end Serving

open Serving

/-- A worker misses its heartbeats and another is started in its place. -/
def replacedWorker : List ServingStep :=
  [.spawn "s",.registerWorker 0,.write (.index (.allocPane "s" ⟨1⟩)),.wait 15001,.missed "s",
    .respawn 0,.respawn 0,.respawn 0]

open Batcher (plainWorld plainDraw)

end Pyre.Supervisor
