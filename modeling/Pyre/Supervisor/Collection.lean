import Pyre.Session.Collection
import Pyre.Supervisor.PaneIndex

/-!
The two collections of the hybrid mode, `gc_stale_sessions` and the one at the start-up, beside
`spawn`, `open_pane` and the workers. A session is found without panes by one step and loses
its worker or its shard by a later one.
-/

set_option autoImplicit false

namespace Pyre.Supervisor
open Base

/-- `recovering` has the rows of the shard that are yet to be opened; `confirming` is a worker
whose handle is stored and whose `spawn` is not told yet. -/
inductive WorkerPhase where
  | starting
  | recovering (slots : List UInt32)
  | registering
  | confirming
  | serving
  deriving DecidableEq, Repr

/-- A worker process. `closing` has the slots taken from its map whose rows are left; `detached`
is one whose shard was deleted, which goes on with a file that nobody else finds. -/
structure Worker where
  session : SessionKey
  phase : WorkerPhase
  panes : List UInt32
  closing : List UInt32
  detached : Bool
  deriving DecidableEq, Repr

/-- Whose sender is in `pending_registrations`. -/
inductive Waiter where
  | spawn
  | reattach
  deriving DecidableEq, Repr

inductive SpawnPhase where
  | storing
  | preparing
  | launching
  | waiting
  | confirmed
  | opening (pid : Nat)
  | recording (pid : Nat)
  | finishing
  deriving DecidableEq, Repr

/-- `spawn` or `open_pane` on its way. -/
inductive OpenCall where
  | spawning (session : SessionKey) (phase : SpawnPhase)
  | opening (session : SessionKey) (pid : Nat) (slot : UInt32)
  | recording (session : SessionKey) (pid : Nat) (slot : UInt32)
  deriving DecidableEq, Repr

def OpenCall.session : OpenCall → SessionKey
  | .spawning session _ | .opening session _ _ | .recording session _ _ => session

/-- The session of a `spawn`. -/
def OpenCall.spawns : OpenCall → Option SessionKey
  | .spawning session _ => some session
  | _ => none

/-- A collection on its way. `gc_stale_sessions` goes through `probing`, `evicting` and
`shuttingDown`, the one at the start-up through the others. -/
inductive Sweep where
  | probing (todo : List (SessionKey × Nat)) (stale : List SessionKey)
  | evicting (stale : List SessionKey)
  | shuttingDown (pid : Nat) (stale : List SessionKey)
  | counting (todo live stale : List SessionKey)
  | checking (stale live : List SessionKey)
  | deleting (session : SessionKey) (stale live : List SessionKey)
  | reattaching (live : List SessionKey)
  | launching (session : SessionKey) (live : List SessionKey)
  | waiting (session : SessionKey) (live : List SessionKey)
  deriving DecidableEq, Repr

/-- `shards` has the rows of each shard directory there is, `workers` the processes that run.
`log` has what the collections have taken and which calls of `spawn` have returned Ok. -/
structure Hosting where
  persisted : List SessionKey
  shards : Table SessionKey (List UInt32)
  workers : Table Nat Worker
  registry : Table SessionKey Nat
  pending : Table SessionKey Waiter
  calls : List OpenCall
  sweeps : List Sweep
  log : List (CollectEvent SessionKey)

/-- What a collection has found without panes and not come to yet. -/
def Sweep.stale : Sweep → List SessionKey
  | .probing _ stale | .evicting stale | .shuttingDown _ stale | .counting _ _ stale
  | .checking stale _ => stale
  | .deleting session stale _ => session :: stale
  | .reattaching _ | .launching _ _ | .waiting _ _ => []

namespace Hosting

/-- `ok` tells if what the step tries succeeds: a read, a write, a call of another process.
`unregister` is what `pane_closed`, `kill`, the heartbeat monitor and the signal handler do to
the registry, and `respawn` what the last two do then. -/
inductive Move where
  | spawn (session : SessionKey)
  | openPane (session : SessionKey) (slot : UInt32)
  | resumeCall (call : OpenCall) (pid : Nat) (ok : Bool)
  | gcStaleSessions
  | startUp (ok : Bool)
  | resumeSweep (sweep : Sweep) (pid : Nat) (ok : Bool)
  | openShard (pid : Nat) (ok : Bool)
  | recoverPane (pid : Nat) (ok : Bool)
  | registerWorker (pid : Nat)
  | confirm (pid : Nat)
  | closePane (pid : Nat) (slot : UInt32)
  | deleteRow (pid : Nat) (slot : UInt32) (ok : Bool)
  | exit (pid : Nat)
  | unregister (session : SessionKey)
  | respawn (session : SessionKey) (pid : Nat)
  deriving DecidableEq, Repr

def listed (s : Hosting) : List SessionKey := s.sweeps.flatMap Sweep.stale

/-- A worker of the session has a pane. -/
def Live (s : Hosting) (session : SessionKey) : Prop :=
  ∃ e ∈ s.workers.entries, e.2.session = session ∧ e.2.panes ≠ []

instance (s : Hosting) (session : SessionKey) : Decidable (s.Live session) :=
  inferInstanceAs (Decidable (∃ e ∈ s.workers.entries, e.2.session = session ∧ e.2.panes ≠ []))

/-- A `spawn` of the session is on its way. -/
def InUse (s : Hosting) (session : SessionKey) : Prop :=
  ∃ call ∈ s.calls, call.spawns = some session

instance (s : Hosting) (session : SessionKey) : Decidable (s.InUse session) :=
  inferInstanceAs (Decidable (∃ call ∈ s.calls, call.spawns = some session))

/-- Identifiers that have just been drawn are nowhere. -/
def FreshSession (s : Hosting) (session : SessionKey) : Prop :=
  (session ∉ s.persisted ∧ s.shards.lookup session = none ∧ s.registry.lookup session = none ∧
    ∀ e ∈ s.workers.entries, e.2.session ≠ session) ∧
    session ∉ s.listed ∧ (∀ c ∈ s.calls, c.session ≠ session) ∧ ∀ b, .taken session b ∉ s.log

instance (s : Hosting) (session : SessionKey) : Decidable (s.FreshSession session) :=
  inferInstanceAs (Decidable ((_ ∧ _ ∧ _ ∧ _) ∧ _ ∧ _ ∧ _))

def setWorker (s : Hosting) (pid : Nat) (w : Worker) : Hosting :=
  { s with workers := s.workers.insert pid w }

/-- `spawn_worker`. -/
def spawnWorker (s : Hosting) (session : SessionKey) (pid : Nat) : Hosting :=
  s.setWorker pid ⟨session,.starting,[],[],false⟩

def rows (s : Hosting) (session : SessionKey) : List UInt32 :=
  (s.shards.lookup session).getD []

/-- `shard_pane_count`: a shard that is missing or cannot be read counts as empty. -/
def shardPaneCount (s : Hosting) (session : SessionKey) (ok : Bool) : Nat :=
  if ok then (s.rows session).length else 0

def writeRows (s : Hosting) (w : Worker) (f : List UInt32 → List UInt32) : Hosting :=
  if w.detached then s
  else { s with shards := s.shards.insert w.session (f (s.rows w.session)) }

/-- The worker's `open_pane` puts the pane into its map, and then writes its row. -/
def insertPane (s : Hosting) (pid : Nat) (w : Worker) (slot : UInt32) : Hosting :=
  s.setWorker pid { w with panes := slot :: w.panes.filter (· ≠ slot) }

def recordPane (s : Hosting) (w : Worker) (slot : UInt32) : Hosting :=
  s.writeRows w fun rows => slot :: rows.filter (· ≠ slot)

/-- The two halves of an `open_pane` that is asked of a worker; it fails if the worker has
exited. -/
def insertAt (s : Hosting) (pid : Nat) (slot : UInt32) (ok : Bool) : Option Hosting :=
  (s.workers.lookup pid).bind fun w => if ok then some (s.insertPane pid w slot) else none

def recordAt (s : Hosting) (pid : Nat) (slot : UInt32) (ok : Bool) : Option Hosting :=
  (s.workers.lookup pid).bind fun w => if ok then some (s.recordPane w slot) else none

/-- `remove_shard_dir`. -/
def removeShard (s : Hosting) (session : SessionKey) : Hosting :=
  { s with
    shards := s.shards.erase session
    workers := s.workers.mapValues fun w =>
      { w with detached := w.detached || w.session = session } }

def setPending (s : Hosting) (session : SessionKey) (who : Waiter) : Hosting :=
  { s with pending := s.pending.insert session who }

/-- The sender is dropped if it is still the one that was put there. -/
def dropPending (s : Hosting) (session : SessionKey) (who : Waiter) : Hosting :=
  if s.pending.lookup session = some who then { s with pending := s.pending.erase session } else s

/-- The next step of `spawn`. The first pane of a session has slot 0. To resume it while it is
`waiting` is its timeout. -/
def stepSpawn (s : Hosting) (session : SessionKey) (pid : Nat) (ok : Bool) :
    SpawnPhase → Hosting × Option SpawnPhase
  | .storing =>
    ({ s with persisted := if ok then session :: s.persisted else s.persisted },some .preparing)
  | .preparing => (s.setPending session .spawn,some .launching)
  | .launching =>
    if ok then (s.spawnWorker session pid,some .waiting)
    else ({ s with pending := s.pending.erase session },none)
  | .waiting => (s.dropPending session .spawn,none)
  | .confirmed => (s,(s.registry.lookup session).map .opening)
  | .opening p =>
    match s.insertAt p 0 ok with
    | none => (s,none)
    | some s => (s,some (.recording p))
  | .recording p =>
    match s.recordAt p 0 ok with
    | none => (s,none)
    | some s => (s,some .finishing)
  | .finishing => (s,none)

/-- The next step of a call. -/
def stepCall (s : Hosting) (pid : Nat) (ok : Bool) : OpenCall → Hosting × Option OpenCall
  | .spawning session phase =>
    let (s,next) := s.stepSpawn session pid ok phase
    (s,next.map (.spawning session))
  | .opening session p slot =>
    match s.insertAt p slot ok with
    | none => (s,none)
    | some s => (s,some (.recording session p slot))
  | .recording _ p slot => ((s.recordAt p slot ok).getD s,none)

/-- The session of a `spawn` that returns Ok. -/
def returns : OpenCall → Option SessionKey
  | .spawning session .finishing => some session
  | _ => none

/-- What the step of a collection finds without panes. -/
def finds (s : Hosting) (ok : Bool) : Sweep → Option SessionKey
  | .probing ((session,p) :: _) _ =>
    if ok ∧ (s.workers.lookup p).map Worker.panes = some [] then some session else none
  | .counting (session :: _) _ _ =>
    if s.shardPaneCount session ok = 0 then some session else none
  | _ => none

/-- What the step of a collection takes: a worker from the registry, or a shard. -/
def takes (s : Hosting) (ok : Bool) : Sweep → Option SessionKey
  | .evicting (session :: _) => (s.registry.lookup session).map fun _ => session
  | .deleting session _ _ => if ok then (s.shards.lookup session).map fun _ => session else none
  | _ => none

/-- What the step of a collection adds to the log. -/
def noted (s : Hosting) (ok : Bool) (sweep : Sweep) : List (CollectEvent SessionKey) :=
  ((s.takes ok sweep).map fun session => .taken session (s.Live session)).toList

/-- The next step of a collection. -/
def stepSweep (s : Hosting) (pid : Nat) (ok : Bool) (sweep : Sweep) : Hosting × Option Sweep :=
  match sweep with
  | .probing (_ :: todo) stale => (s,some (.probing todo (stale ++ (s.finds ok sweep).toList)))
  | .probing [] stale => (s,some (.evicting stale))
  | .evicting (session :: stale) =>
    match s.registry.lookup session with
    | none => (s,some (.evicting stale))
    | some p =>
      ({ s with registry := s.registry.erase session },some (.shuttingDown p stale))
  | .evicting [] => (s,none)
  | .shuttingDown _ stale => (s,some (.evicting stale))
  | .counting (session :: todo) live stale =>
    (s,some (if s.shardPaneCount session ok = 0 then .counting todo live (stale ++ [session])
      else .counting todo (live ++ [session]) stale))
  | .counting [] live stale => (s,some (.checking stale live))
  | .checking (session :: stale) live =>
    (s,some (if (s.registry.lookup session).isSome then .checking stale live
      else .deleting session stale live))
  | .checking [] live => (s,some (.reattaching live))
  | .deleting session stale live =>
    (if ok then s.removeShard session else s,some (.checking stale live))
  | .reattaching (session :: live) =>
    (s.setPending session .reattach,some (.launching session live))
  | .reattaching [] => (s,none)
  | .launching session live =>
    if ok then (s.spawnWorker session pid,some (.waiting session live))
    else ({ s with pending := s.pending.erase session },some (.reattaching live))
  | .waiting session live => (s.dropPending session .reattach,some (.reattaching live))

/-- The worker opens its shard and loads the rows; what it cannot load counts as none. -/
def openShard (s : Hosting) (pid : Nat) (ok : Bool) (w : Worker) : Option Hosting :=
  match w.phase with
  | .starting =>
    let rows := s.rows w.session
    let s := { s with shards := s.shards.insert w.session rows }
    some (s.setWorker pid
      { w with phase := .recovering (if ok then rows else []), detached := false })
  | _ => none

def recoverPane (s : Hosting) (pid : Nat) (ok : Bool) (w : Worker) : Option Hosting :=
  match w.phase with
  | .recovering (slot :: slots) =>
    let w := { w with phase := .recovering slots }
    some (if ok then (s.insertPane pid w slot).recordPane w slot else s.setWorker pid w)
  | .recovering [] => some (s.setWorker pid { w with phase := .registering })
  | _ => none

/-- `register_worker` stores the handle, and then tells the `spawn` that waits. -/
def registerWorker (s : Hosting) (pid : Nat) (w : Worker) : Option Hosting :=
  match w.phase with
  | .registering =>
    let s := { s with registry := s.registry.insert w.session pid }
    some (s.setWorker pid { w with phase := .confirming })
  | _ => none

def told (session : SessionKey) : OpenCall → OpenCall
  | .spawning id .waiting => .spawning id (if id = session then .confirmed else .waiting)
  | call => call

def confirm (s : Hosting) (pid : Nat) (w : Worker) : Option Hosting :=
  match w.phase with
  | .confirming =>
    let who := s.pending.lookup w.session
    let s := s.setWorker pid { w with phase := .serving }
    some { s with
      pending := s.pending.erase w.session
      calls := if who = some .spawn then s.calls.map (told w.session) else s.calls }
  | _ => none

/-- `close_pane` takes the pane from the map, and then deletes its row. -/
def closePane (s : Hosting) (pid : Nat) (slot : UInt32) (w : Worker) : Option Hosting :=
  if slot ∈ w.panes then
    some (s.setWorker pid
      { w with panes := w.panes.filter (· ≠ slot), closing := slot :: w.closing })
  else none

def deleteRow (s : Hosting) (pid : Nat) (slot : UInt32) (ok : Bool) (w : Worker) :
    Option Hosting :=
  if slot ∈ w.closing then
    let s := if ok then s.writeRows w fun rows => rows.filter (· ≠ slot) else s
    some (s.setWorker pid { w with closing := w.closing.erase slot })
  else none

def step (s : Hosting) : Move → Option Hosting
  | .spawn session =>
    if s.FreshSession session then some { s with calls := .spawning session .storing :: s.calls }
    else none
  | .openPane session slot =>
    match s.registry.lookup session with
    | none => some s
    | some p => some { s with calls := .opening session p slot :: s.calls }
  | .resumeCall call pid ok =>
    if call ∈ s.calls ∧ s.workers.lookup pid = none then
      let (t,next) := s.stepCall pid ok call
      some { t with
        calls := next.toList ++ s.calls.erase call
        log := ((returns call).map .returned).toList ++ s.log }
    else none
  | .gcStaleSessions =>
    let handles := s.registry.entries.map fun e => (e.1,e.2)
    some { s with sweeps := .probing handles [] :: s.sweeps }
  | .startUp ok =>
    some { s with sweeps := .counting (if ok then s.persisted else []) [] [] :: s.sweeps }
  | .resumeSweep sweep pid ok =>
    if sweep ∈ s.sweeps ∧ s.workers.lookup pid = none then
      let (t,next) := s.stepSweep pid ok sweep
      some { t with
        sweeps := next.toList ++ s.sweeps.erase sweep
        log := s.noted ok sweep ++ s.log }
    else none
  | .openShard pid ok => (s.workers.lookup pid).bind (s.openShard pid ok)
  | .recoverPane pid ok => (s.workers.lookup pid).bind (s.recoverPane pid ok)
  | .registerWorker pid => (s.workers.lookup pid).bind (s.registerWorker pid)
  | .confirm pid => (s.workers.lookup pid).bind (s.confirm pid)
  | .closePane pid slot => (s.workers.lookup pid).bind (s.closePane pid slot)
  | .deleteRow pid slot ok => (s.workers.lookup pid).bind (s.deleteRow pid slot ok)
  | .exit pid => some { s with workers := s.workers.erase pid }
  | .unregister session => some { s with registry := s.registry.erase session }
  | .respawn session pid =>
    if s.workers.lookup pid = none then some (s.spawnWorker session pid) else none

/-- The worker into whose map the step puts a pane. -/
def Move.inserts : Move → Option Nat
  | .resumeCall (.spawning _ (.opening p)) _ true | .resumeCall (.opening _ p _) _ true
  | .recoverPane p true => some p
  | _ => none

/-- What the step finds without panes, and what it takes. -/
def found (s : Hosting) : Move → Option SessionKey
  | .resumeSweep sweep _ ok => s.finds ok sweep
  | _ => none

def taken (s : Hosting) : Move → Option SessionKey
  | .resumeSweep sweep _ ok => s.takes ok sweep
  | _ => none

/-- No pane is opened in a session that a collection has found without panes and not come to
yet; none is found so of which a worker has a pane; and none is taken from under a `spawn`. -/
def Keeps (s : Hosting) (m : Move) : Prop :=
  (∀ p ∈ m.inserts, ∀ w ∈ s.workers.lookup p, w.session ∉ s.listed) ∧
    (∀ session ∈ s.found m, ¬s.Live session) ∧ ∀ session ∈ s.taken m, ¬s.InUse session

instance (s : Hosting) (m : Move) : Decidable (s.Keeps m) :=
  inferInstanceAs (Decidable (_ ∧ _ ∧ _))

/-- No `spawn` and no collection is on its way. -/
structure Idle (s : Hosting) : Prop where
  calls : ∀ call ∈ s.calls, call.spawns = none
  sweeps : s.sweeps = []
  log : s.log = []

def Inv (s : Hosting) : Prop := Clear s.Live s.InUse s.listed s.log

variable {s t : Hosting} {session : SessionKey} {pid : Nat} {w : Worker} {m : Move} {ok : Bool}
  {log : List (CollectEvent SessionKey)}

theorem live_iff : s.Live session ↔
    ∃ pid w, s.workers.lookup pid = some w ∧ w.session = session ∧ w.panes ≠ [] := by
  constructor
  · rintro ⟨⟨pid,w⟩,hmem,hlive⟩
    exact ⟨pid,w,Table.lookup_eq_some.mpr hmem,hlive⟩
  · rintro ⟨pid,w,hw,hlive⟩
    exact ⟨⟨pid,w⟩,Table.lookup_eq_some.mp hw,hlive⟩

/-- No session gets a worker with panes, but that of the worker `new`, and none a `spawn`. -/
structure Adds (s t : Hosting) (new : Option Nat) : Prop where
  live : ∀ session, t.Live session → s.Live session ∨
    ∃ p ∈ new, ∃ w, s.workers.lookup p = some w ∧ w.session = session
  inUse : ∀ session, t.InUse session → s.InUse session
  sweeps : t.sweeps = s.sweeps
  log : t.log = s.log

variable {new : Option Nat}

/-- What neither the workers nor the rows and tables beside them have a part in. -/
def rest (s : Hosting) : List OpenCall × List Sweep × List (CollectEvent SessionKey) :=
  (s.calls,s.sweeps,s.log)

theorem inUse_congr (h : t.calls = s.calls) : t.InUse session ↔ s.InUse session := by
  unfold InUse
  rw [h]

namespace Adds

theorem of_insert {w' : Worker} (ht : t.workers = s.workers.insert pid w')
    (hrest : t.rest = s.rest) (hlive : w'.panes ≠ [] → s.Live w'.session ∨
      ∃ p ∈ new, ∃ w, s.workers.lookup p = some w ∧ w.session = w'.session) : s.Adds t new := by
  simp only [rest,Prod.mk.injEq] at hrest
  refine ⟨fun session hsession => ?_,fun session => (inUse_congr hrest.1).mp,hrest.2.1,hrest.2.2⟩
  obtain ⟨p,w,hw,rfl,hpanes⟩ := live_iff.mp hsession
  rw [ht] at hw
  rcases Table.lookup_insert_eq_some.mp hw with ⟨-,rfl⟩ | ⟨-,hw⟩
  · exact hlive hpanes
  · exact Or.inl (live_iff.mpr ⟨p,w,hw,rfl,hpanes⟩)

theorem of_eq (ht : t.workers = s.workers) (hrest : t.rest = s.rest) : s.Adds t new := by
  simp only [rest,Prod.mk.injEq] at hrest
  refine ⟨?_,fun session => (inUse_congr hrest.1).mp,hrest.2.1,hrest.2.2⟩
  rintro session ⟨e,he,hlive⟩
  exact Or.inl ⟨e,ht ▸ he,hlive⟩

/-- A worker goes on with no pane that it has not had. -/
theorem of_worker {w' : Worker} (hw : s.workers.lookup pid = some w)
    (ht : t.workers = s.workers.insert pid w') (hrest : t.rest = s.rest)
    (hsession : w'.session = w.session) (hpanes : w'.panes ≠ [] → w.panes ≠ []) :
    s.Adds t new :=
  of_insert ht hrest fun hne => Or.inl (live_iff.mpr ⟨pid,w,hw,hsession.symm,hpanes hne⟩)

end Adds

theorem writeRows_eq (s : Hosting) (w : Worker) (f : List UInt32 → List UInt32) :
    ∃ shards, s.writeRows w f = { s with shards := shards } := by
  unfold writeRows
  split
  · exact ⟨s.shards,rfl⟩
  · exact ⟨_,rfl⟩

theorem Adds.record (h : s.Adds t new) (w : Worker) (slot : UInt32) :
    s.Adds (t.recordPane w slot) new := by
  obtain ⟨shards,heq⟩ := t.writeRows_eq w fun rows => slot :: rows.filter (· ≠ slot)
  rw [recordPane,heq]
  exact ⟨h.live,h.inUse,h.sweeps,h.log⟩

theorem dropPending_adds (s : Hosting) (session : SessionKey) (who : Waiter) :
    s.Adds (s.dropPending session who) new := by
  unfold dropPending
  split <;> exact .of_eq rfl rfl

theorem insertPane_adds (hw : s.workers.lookup pid = some w) (slot : UInt32) :
    s.Adds (s.insertPane pid w slot) (some pid) :=
  .of_insert rfl rfl fun _ => Or.inr ⟨pid,rfl,w,hw,rfl⟩

theorem spawnWorker_adds (s : Hosting) (session : SessionKey) (pid : Nat) :
    s.Adds (s.spawnWorker session pid) new :=
  .of_insert rfl rfl fun hne => absurd rfl hne

theorem removeShard_adds (s : Hosting) (session : SessionKey) :
    s.Adds (s.removeShard session) new := by
  refine ⟨fun session' hlive => ?_,fun _ h => h,rfl,rfl⟩
  obtain ⟨p,w,hw,rfl,hpanes⟩ := live_iff.mp hlive
  rw [removeShard,Table.lookup_mapValues] at hw
  obtain ⟨w',hw',rfl⟩ := Option.map_eq_some_iff.mp hw
  exact Or.inl (live_iff.mpr ⟨p,w',hw',rfl,hpanes⟩)

theorem insertAt_adds {slot : UInt32} (ht : s.insertAt pid slot ok = some t) :
    ok = true ∧ s.Adds t (some pid) := by
  obtain ⟨w,hw,ht⟩ := Option.bind_eq_some_iff.mp ht
  obtain ⟨hok,ht⟩ := Option.ite_none_right_eq_some.mp ht
  obtain rfl := Option.some.inj ht
  exact ⟨hok,insertPane_adds hw slot⟩

theorem recordAt_adds {slot : UInt32} (ht : s.recordAt pid slot ok = some t) : s.Adds t new := by
  obtain ⟨w,-,ht⟩ := Option.bind_eq_some_iff.mp ht
  obtain ⟨-,ht⟩ := Option.ite_none_right_eq_some.mp ht
  obtain rfl := Option.some.inj ht
  exact Adds.record (.of_eq rfl rfl) w slot

theorem stepCall_adds (s : Hosting) (pid : Nat) (ok : Bool) (call : OpenCall) :
    s.Adds (s.stepCall pid ok call).1 (Move.resumeCall call pid ok).inserts := by
  cases call with
  | spawning session phase =>
    cases phase with
    | launching =>
      cases ok with
      | true => exact spawnWorker_adds s session pid
      | false => exact .of_eq rfl rfl
    | waiting => exact dropPending_adds s session .spawn
    | opening p =>
      simp only [stepCall,stepSpawn]
      split
      · exact .of_eq rfl rfl
      · obtain ⟨rfl,hadds⟩ := insertAt_adds ‹_›
        exact hadds
    | recording p =>
      simp only [stepCall,stepSpawn]
      split
      · exact .of_eq rfl rfl
      · exact recordAt_adds ‹_›
    | storing => exact .of_eq rfl rfl
    | preparing => exact .of_eq rfl rfl
    | confirmed => exact .of_eq rfl rfl
    | finishing => exact .of_eq rfl rfl
  | opening session p slot =>
    simp only [stepCall]
    split
    · exact .of_eq rfl rfl
    · obtain ⟨rfl,hadds⟩ := insertAt_adds ‹_›
      exact hadds
  | recording session p slot =>
    simp only [stepCall]
    cases ht : s.recordAt p slot ok with
    | none => exact .of_eq rfl rfl
    | some t => exact recordAt_adds ht

/-- A `spawn` goes on under the session it has begun with. -/
theorem spawns_of_stepCall {call next : OpenCall} (h : next ∈ (s.stepCall pid ok call).2)
    (hnext : next.spawns = some session) : call.spawns = some session := by
  cases call with
  | spawning session' phase =>
    obtain ⟨_,-,rfl⟩ := Option.map_eq_some_iff.mp h
    exact hnext
  | opening session' p slot =>
    simp only [stepCall] at h
    split at h
    · cases h
    · obtain rfl := Option.some.inj h
      cases hnext
  | recording session' p slot => cases h

theorem stepSweep_adds (s : Hosting) (pid : Nat) (ok : Bool) (sweep : Sweep) :
    s.Adds (s.stepSweep pid ok sweep).1 none := by
  cases sweep with
  | probing todo stale => cases todo <;> exact .of_eq rfl rfl
  | evicting stale =>
    cases stale with
    | nil => exact .of_eq rfl rfl
    | cons session stale =>
      simp only [stepSweep]
      split <;> exact .of_eq rfl rfl
  | counting todo live stale =>
    cases todo with
    | nil => exact .of_eq rfl rfl
    | cons session todo => exact .of_eq rfl rfl
  | checking stale live => cases stale <;> exact .of_eq rfl rfl
  | deleting session stale live =>
    cases ok with
    | true => exact removeShard_adds s session
    | false => exact .of_eq rfl rfl
  | reattaching live => cases live <;> exact .of_eq rfl rfl
  | launching session live =>
    cases ok with
    | true => exact spawnWorker_adds s session pid
    | false => exact .of_eq rfl rfl
  | waiting session live => exact dropPending_adds s session .reattach
  | shuttingDown p stale => exact .of_eq rfl rfl

/-- What a step of a collection leaves on its list was there, or has just been found. -/
theorem stale_stepSweep {sweep next : Sweep} (h : next ∈ (s.stepSweep pid ok sweep).2)
    (hsession : session ∈ next.stale) : session ∈ sweep.stale ∨ session ∈ s.finds ok sweep := by
  cases sweep with
  | probing todo stale =>
    cases todo with
    | nil =>
      obtain rfl := Option.some.inj h
      exact Or.inl hsession
    | cons e todo =>
      obtain rfl := Option.some.inj h
      exact (List.mem_append.mp hsession).imp_right Option.mem_toList.mp
  | evicting stale =>
    cases stale with
    | nil => cases h
    | cons session' stale =>
      simp only [stepSweep] at h
      split at h <;> obtain rfl := Option.some.inj h <;>
        exact Or.inl (List.mem_cons_of_mem _ hsession)
  | shuttingDown p stale =>
    obtain rfl := Option.some.inj h
    exact Or.inl hsession
  | counting todo live stale =>
    cases todo with
    | nil =>
      obtain rfl := Option.some.inj h
      exact Or.inl hsession
    | cons session' todo =>
      obtain rfl := Option.some.inj h
      split at hsession
      · rename_i hcount
        refine (List.mem_append.mp hsession).imp_right fun hmem => ?_
        obtain rfl := List.mem_singleton.mp hmem
        exact if_pos hcount
      · exact Or.inl hsession
  | checking stale live =>
    cases stale with
    | nil =>
      obtain rfl := Option.some.inj h
      cases hsession
    | cons session' stale =>
      obtain rfl := Option.some.inj h
      split at hsession
      · exact Or.inl (List.mem_cons_of_mem _ hsession)
      · exact Or.inl hsession
  | deleting session' stale live =>
    obtain rfl := Option.some.inj h
    exact Or.inl (List.mem_cons_of_mem _ hsession)
  | reattaching live =>
    cases live with
    | nil => cases h
    | cons session' live =>
      obtain rfl := Option.some.inj h
      cases hsession
  | launching session' live =>
    cases ok <;> obtain rfl := Option.some.inj h <;> cases hsession
  | waiting session' live =>
    obtain rfl := Option.some.inj h
    cases hsession

theorem mem_stale_of_takes {sweep : Sweep} (h : session ∈ s.takes ok sweep) :
    session ∈ sweep.stale := by
  cases sweep with
  | evicting stale =>
    cases stale with
    | nil => cases h
    | cons session' stale =>
      obtain ⟨-,-,rfl⟩ := Option.map_eq_some_iff.mp h
      exact List.mem_cons_self
  | deleting session' stale live =>
    obtain ⟨-,h⟩ := Option.ite_none_right_eq_some.mp h
    obtain ⟨-,-,rfl⟩ := Option.map_eq_some_iff.mp h
    exact List.mem_cons_self
  | _ => cases h

theorem openShard_adds (hw : s.workers.lookup pid = some w) (ht : s.openShard pid ok w = some t) :
    s.Adds t none := by
  unfold openShard at ht
  split at ht
  · obtain rfl := Option.some.inj ht
    exact .of_worker hw rfl rfl rfl id
  · cases ht

theorem recoverPane_adds (hw : s.workers.lookup pid = some w)
    (ht : s.recoverPane pid ok w = some t) : s.Adds t (Move.recoverPane pid ok).inserts := by
  unfold recoverPane at ht
  split at ht
  · rename_i slot slots hphase
    obtain rfl := Option.some.inj ht
    cases ok with
    | true =>
      have hadds : s.Adds (s.insertPane pid { w with phase := .recovering slots } slot)
          (some pid) :=
        .of_insert rfl rfl fun _ => Or.inr ⟨pid,rfl,w,hw,rfl⟩
      exact hadds.record _ slot
    | false => exact .of_worker hw rfl rfl rfl id
  · obtain rfl := Option.some.inj ht
    exact .of_worker hw rfl rfl rfl id
  · cases ht

theorem registerWorker_adds (hw : s.workers.lookup pid = some w)
    (ht : s.registerWorker pid w = some t) : s.Adds t none := by
  unfold registerWorker at ht
  split at ht
  · obtain rfl := Option.some.inj ht
    exact .of_worker hw rfl rfl rfl id
  · cases ht

theorem spawns_told (id : SessionKey) (call : OpenCall) : (told id call).spawns = call.spawns := by
  unfold told
  split <;> rfl

theorem confirm_adds (hw : s.workers.lookup pid = some w) (ht : s.confirm pid w = some t) :
    s.Adds t none := by
  unfold confirm at ht
  split at ht
  · obtain rfl := Option.some.inj ht
    have hadds : s.Adds (s.setWorker pid { w with phase := .serving }) none :=
      .of_worker hw rfl rfl rfl id
    refine ⟨hadds.live,?_,rfl,rfl⟩
    rintro session ⟨call,hcall,heq⟩
    split at hcall
    · obtain ⟨call',hmem,rfl⟩ := List.mem_map.mp hcall
      exact ⟨call',hmem,(spawns_told w.session call').symm.trans heq⟩
    · exact ⟨call,hcall,heq⟩
  · cases ht

theorem closePane_adds {slot : UInt32} (hw : s.workers.lookup pid = some w)
    (ht : s.closePane pid slot w = some t) : s.Adds t none := by
  obtain ⟨hslot,ht⟩ := Option.ite_none_right_eq_some.mp ht
  obtain rfl := Option.some.inj ht
  exact .of_worker hw rfl rfl rfl fun _ => List.ne_nil_of_mem hslot

theorem deleteRow_adds {slot : UInt32} (hw : s.workers.lookup pid = some w)
    (ht : s.deleteRow pid slot ok w = some t) : s.Adds t none := by
  obtain ⟨-,ht⟩ := Option.ite_none_right_eq_some.mp ht
  obtain rfl := Option.some.inj ht
  cases ok with
  | true =>
    obtain ⟨shards,heq⟩ := s.writeRows_eq w fun rows => rows.filter (· ≠ slot)
    simp only [heq,if_true]
    exact .of_worker hw rfl rfl rfl id
  | false => exact .of_worker hw rfl rfl rfl id

theorem exit_adds (s : Hosting) (pid : Nat) :
    s.Adds { s with workers := s.workers.erase pid } none := by
  refine ⟨fun session hlive => ?_,fun _ h => h,rfl,rfl⟩
  obtain ⟨p,w,hw,heq,hpanes⟩ := live_iff.mp hlive
  exact Or.inl (live_iff.mpr ⟨p,w,(Table.lookup_erase_eq_some.mp hw).2,heq,hpanes⟩)

/-- No pane is put into a session that is listed, and no `spawn` begun. -/
theorem advance {listed : List SessionKey} {inUse : SessionKey → Prop}
    (h : Clear s.Live s.InUse listed log) (hadds : s.Adds t new)
    (hnew : ∀ p ∈ new, ∀ w ∈ s.workers.lookup p, w.session ∉ listed)
    (huse : ∀ session, inUse session → s.InUse session) : Clear t.Live inUse listed log := by
  refine h.mono (fun session hsession hlive => ?_) fun session hin => Or.inl (huse session hin)
  rcases hadds.live session hlive with hlive | ⟨p,hp,w,hw,rfl⟩
  · exact hlive
  · exact absurd hsession (hnew p hp w hw)

theorem Adds.listed (hadds : s.Adds t new) : t.listed = s.listed :=
  congrArg (List.flatMap Sweep.stale) hadds.sweeps

theorem Inv.adds (h : s.Inv) (hadds : s.Adds t new)
    (hnew : ∀ p ∈ new, ∀ w ∈ s.workers.lookup p, w.session ∉ s.listed) : t.Inv := by
  rw [Inv,hadds.listed,hadds.log]
  exact advance h hadds hnew hadds.inUse

theorem Inv.resumeCall {call : OpenCall} (h : s.Inv) (hcall : call ∈ s.calls)
    (hkeeps : s.Keeps (.resumeCall call pid ok)) :
    Inv { (s.stepCall pid ok call).1 with
      calls := (s.stepCall pid ok call).2.toList ++ s.calls.erase call
      log := ((returns call).map .returned).toList ++ s.log } := by
  have hadds := stepCall_adds s pid ok call
  have hlog : Clear s.Live s.InUse (s.stepCall pid ok call).1.listed
      (((returns call).map .returned).toList ++ s.log) := by
    rw [hadds.listed]
    cases hreturns : returns call with
    | none => exact h
    | some session =>
      refine h.complete ⟨call,hcall,?_⟩
      unfold returns at hreturns
      split at hreturns
      · exact hreturns
      · cases hreturns
  refine advance (t := (s.stepCall pid ok call).1) hlog hadds (hadds.listed ▸ hkeeps.1) ?_
  rintro session ⟨c,hmem,heq⟩
  rcases List.mem_append.mp hmem with hmem | hmem
  · exact ⟨call,hcall,spawns_of_stepCall (Option.mem_toList.mp hmem) heq⟩
  · exact ⟨c,List.mem_of_mem_erase hmem,heq⟩

theorem Inv.resumeSweep {sweep : Sweep} (h : s.Inv) (hsweep : sweep ∈ s.sweeps)
    (hkeeps : s.Keeps (.resumeSweep sweep pid ok)) :
    Inv { (s.stepSweep pid ok sweep).1 with
      sweeps := (s.stepSweep pid ok sweep).2.toList ++ s.sweeps.erase sweep
      log := s.noted ok sweep ++ s.log } := by
  have hown : ∀ session ∈ sweep.stale, session ∈ s.listed :=
    fun session hmem => List.mem_flatMap.mpr ⟨sweep,hsweep,hmem⟩
  have htaken : Clear s.Live s.InUse s.listed (s.noted ok sweep ++ s.log) := by
    unfold noted
    cases htakes : s.takes ok sweep with
    | none => exact h
    | some session =>
      exact h.take (hown session (mem_stale_of_takes htakes)) of_decide_eq_true
        (hkeeps.2.2 session htakes)
  have hadds := stepSweep_adds s pid ok sweep
  refine advance (t := (s.stepSweep pid ok sweep).1) (htaken.relist fun session hsession => ?_)
    hadds (fun p hp => by cases hp) hadds.inUse
  obtain ⟨g,hg,hsession⟩ := List.mem_flatMap.mp hsession
  rcases List.mem_append.mp hg with hg | hg
  · refine (stale_stepSweep (Option.mem_toList.mp hg) hsession).imp (hown session) ?_
    exact hkeeps.2.1 session
  · exact Or.inl (List.mem_flatMap.mpr ⟨g,List.mem_of_mem_erase hg,hsession⟩)

theorem inv_step (h : s.Inv) (hkeeps : s.Keeps m) (ht : s.step m = some t) : t.Inv := by
  cases m with
  | spawn session =>
    obtain ⟨hfresh,ht⟩ := Option.ite_none_right_eq_some.mp ht
    obtain rfl := Option.some.inj ht
    obtain ⟨-,-,-,hlog⟩ := hfresh
    refine h.mono (fun _ _ hlive => hlive) fun id huse => ?_
    obtain ⟨call,hmem,heq⟩ := huse
    rcases List.mem_cons.mp hmem with rfl | hmem
    · obtain rfl := Option.some.inj heq
      exact Or.inr hlog
    · exact Or.inl ⟨call,hmem,heq⟩
  | openPane session slot =>
    simp only [step] at ht
    split at ht <;> obtain rfl := Option.some.inj ht
    · exact h
    · refine h.mono (fun _ _ hlive => hlive) fun id huse => Or.inl ?_
      obtain ⟨call,hmem,heq⟩ := huse
      refine ⟨call,(List.mem_cons.mp hmem).resolve_left ?_,heq⟩
      rintro rfl
      cases heq
  | resumeCall call pid ok =>
    obtain ⟨⟨hcall,-⟩,ht⟩ := Option.ite_none_right_eq_some.mp ht
    obtain rfl := Option.some.inj ht
    exact h.resumeCall hcall hkeeps
  | gcStaleSessions =>
    obtain rfl := Option.some.inj ht
    exact h.relist fun session hsession => Or.inl hsession
  | startUp ok =>
    obtain rfl := Option.some.inj ht
    exact h.relist fun session hsession => Or.inl hsession
  | resumeSweep sweep pid ok =>
    obtain ⟨⟨hsweep,-⟩,ht⟩ := Option.ite_none_right_eq_some.mp ht
    obtain rfl := Option.some.inj ht
    exact h.resumeSweep hsweep hkeeps
  | openShard pid ok =>
    obtain ⟨w,hw,ht⟩ := Option.bind_eq_some_iff.mp ht
    exact h.adds (openShard_adds hw ht) fun p hp => by cases hp
  | recoverPane pid ok =>
    obtain ⟨w,hw,ht⟩ := Option.bind_eq_some_iff.mp ht
    exact h.adds (recoverPane_adds hw ht) hkeeps.1
  | registerWorker pid =>
    obtain ⟨w,hw,ht⟩ := Option.bind_eq_some_iff.mp ht
    exact h.adds (registerWorker_adds hw ht) fun p hp => by cases hp
  | confirm pid =>
    obtain ⟨w,hw,ht⟩ := Option.bind_eq_some_iff.mp ht
    exact h.adds (confirm_adds hw ht) fun p hp => by cases hp
  | closePane pid slot =>
    obtain ⟨w,hw,ht⟩ := Option.bind_eq_some_iff.mp ht
    exact h.adds (closePane_adds hw ht) fun p hp => by cases hp
  | deleteRow pid slot ok =>
    obtain ⟨w,hw,ht⟩ := Option.bind_eq_some_iff.mp ht
    exact h.adds (deleteRow_adds hw ht) fun p hp => by cases hp
  | exit pid =>
    obtain rfl := Option.some.inj ht
    exact h.adds (exit_adds s pid) fun p hp => by cases hp
  | unregister session =>
    obtain rfl := Option.some.inj ht
    have hadds : s.Adds { s with registry := s.registry.erase session } none := .of_eq rfl rfl
    exact h.adds hadds fun p hp => by cases hp
  | respawn session pid =>
    obtain ⟨-,ht⟩ := Option.ite_none_right_eq_some.mp ht
    obtain rfl := Option.some.inj ht
    have hadds : s.Adds _ none := spawnWorker_adds s session pid
    exact h.adds hadds fun p hp => by cases hp

theorem inv_of_idle (h : s.Idle) : s.Inv := by
  have hlisted : s.listed = [] := by rw [listed,h.sweeps,List.flatMap_nil]
  rw [Inv,hlisted,h.log]
  exact Clear.start

theorem spares_always (h : s.Idle) (moves : List Move) (hall : Along step Keeps s moves) :
    Always step (fun s => Spares s.log) s moves :=
  (hall.invariant (I := Inv) (fun _ _ _ h hkeeps ht => inv_step h hkeeps ht) (inv_of_idle h)).mono
    fun _ h => h.spares

/-- No session. -/
def noSession : Hosting := ⟨[],∅,∅,∅,∅,[],[],[]⟩

/-- `gc_stale_sessions` finds the session of a `spawn` between its worker's registration and
its first pane, and takes it while the pane is opened. -/
def spawnCollected (σ : SessionKey) : List Move :=
  [.spawn σ,.resumeCall (.spawning σ .storing) 7 true,.resumeCall (.spawning σ .preparing) 7 true,
    .resumeCall (.spawning σ .launching) 7 true,.openShard 7 true,.recoverPane 7 true,
    .registerWorker 7,.confirm 7,.gcStaleSessions,.resumeSweep (.probing [(σ,7)] []) 8 true,
    .resumeSweep (.probing [] [σ]) 8 true,.resumeCall (.spawning σ .confirmed) 8 true,
    .resumeSweep (.evicting [σ]) 8 true,.resumeCall (.spawning σ (.opening 7)) 8 true,
    .resumeCall (.spawning σ (.recording 7)) 8 true,.resumeCall (.spawning σ .finishing) 8 true]

/-- The start-up counts the session of a `spawn` before its worker opens the shard, looks for
the worker before it registers, and deletes the shard. -/
def shardCollected (σ : SessionKey) : List Move :=
  [.spawn σ,.resumeCall (.spawning σ .storing) 7 true,.startUp true,
    .resumeSweep (.counting [σ] [] []) 7 true,.resumeSweep (.counting [] [] [σ]) 7 true,
    .resumeCall (.spawning σ .preparing) 7 true,.resumeCall (.spawning σ .launching) 7 true,
    .openShard 7 true,.resumeSweep (.checking [σ] []) 8 true,.recoverPane 7 true,.registerWorker 7,
    .confirm 7,.resumeCall (.spawning σ .confirmed) 8 true,
    .resumeCall (.spawning σ (.opening 7)) 8 true,.resumeCall (.spawning σ (.recording 7)) 8 true,
    .resumeSweep (.deleting σ [] []) 8 true,.resumeCall (.spawning σ .finishing) 8 true]

/-- In both modes a collection spares every session in use, as long as no pane is opened in a
session on its list, it finds none without panes that has one, and it takes none from under a
`spawn`. -/
theorem sessions_in_use_spared (shells : Session.Shells)
    (single : List Session.Collecting.Move) {s : Hosting} (h : s.Idle) (moves : List Move) :
    (Along Session.Collecting.step Session.Collecting.Keeps (.start shells) single →
      Always Session.Collecting.step (fun s => Spares s.log) (.start shells) single) ∧
      (Along step Keeps s moves → Always step (fun s => Spares s.log) s moves) :=
  ⟨Session.Collecting.spares_always shells single,spares_always h moves⟩

/-- A session whose worker has no panes, and a shard that no worker has. -/
def oneStale : Hosting :=
  { noSession with
    persisted := ["s","z"]
    shards := (AList.singleton "s" []).insert "z" []
    workers := AList.singleton 7 ⟨"s",.serving,[],[],false⟩
    registry := AList.singleton "s" 7 }

/-- Both modes take what is stale while a pane is opened elsewhere. -/
theorem sessions_in_use_spared_stale :
    Always Session.Collecting.step (fun s => Spares s.log)
      (.start ⟨⟨AList.singleton ⟨1⟩ ⟨∅,[⟨⟨1⟩,none⟩]⟩,[⟨1⟩],[],[]⟩,[]⟩)
      [.gcStaleSessions,.resumeGc (.listing [⟨1⟩] []),.spawn ⟨2⟩ ⟨2⟩,
        .resumeSpawn (.made ⟨2⟩ ⟨2⟩) ⟨1⟩ true,.resumeSpawn (.opening (.found ⟨2⟩ ⟨2⟩)) ⟨1⟩ true,
        .resumeSpawn (.opening (.targeted ⟨2⟩ ⟨2⟩)) ⟨1⟩ true,.resumeGc (.listing [] [⟨1⟩]),
        .resumeSpawn (.opening (.spawned ⟨2⟩ ⟨2⟩ ⟨1⟩)) ⟨2⟩ true,.resumeGc (.evicting [⟨1⟩])] ∧
    Always step (fun s => Spares s.log) oneStale
      [.startUp true,.resumeSweep (.counting ["s","z"] [] []) 8 true,
        .resumeSweep (.counting ["z"] [] ["s"]) 8 true,
        .resumeSweep (.counting [] [] ["s","z"]) 8 true,
        .resumeSweep (.checking ["s","z"] []) 8 true,.resumeSweep (.checking ["z"] []) 8 true,
        .resumeSweep (.deleting "z" [] []) 8 true,.gcStaleSessions,
        .resumeSweep (.probing [("s",7)] []) 8 true,.resumeSweep (.probing [] ["s"]) 8 true,
        .resumeSweep (.evicting ["s"]) 8 true] := by
  have hidle : oneStale.Idle := ⟨by decide,rfl,rfl⟩
  exact ⟨(sessions_in_use_spared _ _ hidle []).1 (by decide),
    (sessions_in_use_spared Session.Collecting.noSession [] hidle _).2 (by decide)⟩

/-- Each of the collections may take the session of a `spawn` that returns Ok. -/
theorem collected_under_spawn :
    ¬Always Session.Collecting.step (fun s => Spares s.log) (.start Session.Collecting.noSession)
        Session.Collecting.spawnCollected ∧
      noSession.Idle ∧ ¬Always step (fun s => Spares s.log) noSession (spawnCollected "s") ∧
      ¬Always step (fun s => Spares s.log) noSession (shardCollected "s") := by
  refine ⟨not_always_spares ⟨1⟩ false ?_,⟨by decide,rfl,rfl⟩,not_always_spares "s" false ?_,
    not_always_spares "s" true ?_⟩
  all_goals decide

end Hosting

end Pyre.Supervisor
