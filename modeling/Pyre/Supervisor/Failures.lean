import Pyre.Supervisor.Ending

/-!
The requests that can fail on the way, in a worker or in the store, and what a failed
one leaves in the tables. The answers a request meets with are inputs here.
-/

set_option autoImplicit false

namespace Pyre.Supervisor
open Base

inductive PyreError where
  | noSuchSession (session : SessionId)
  | noSuchPane (pane : PaneId)
  | spawnFailed (reason : String)
  | io (reason : String)
  deriving DecidableEq, Repr

/-- What a worker or the store answers; an error comes as its text. -/
abbrev Answer := Except String Unit

/-- How the wait for a new worker's registration ends. -/
inductive Registration where
  | confirmed
  | closed
  | timedOut
  deriving DecidableEq, Repr

/-- What `spawn` meets with: the start of the worker, its registration, whether it is
gone again before it is looked up, and its answer to `open_pane`. -/
structure Spawning where
  started : Answer
  registration : Registration
  deregistered : Bool
  opened : Answer

structure SpawnResp where
  session : SessionId
  pane : PaneId
  window : WindowId
  deriving DecidableEq, Repr

/-- The requests, with the identifiers they draw and the answers they meet with. The
panes `unreached` are those whose worker cannot be asked to close them. -/
inductive Call where
  | spawn (sid : SessionId) (pane : PaneId) (w : WindowId) (met : Spawning)
  | openPane (sid : SessionId) (asked : Option WindowId) (pane : PaneId) (fresh : WindowId)
      (opened : Answer)
  | openPaneSplit (parent : PaneId) (orient : Orient) (pane : PaneId) (fresh : WindowId)
      (opened : Answer)
  | setPaneWeight (pane : PaneId) (weight : UInt16) (stored : Answer)
  | renameWindow (w : WindowId) (name : String) (stored : Answer)
  | closeWindow (w : WindowId) (listed : Answer) (unreached : List PaneId) (deleted : Answer)

namespace SupervisorImpl

section requests

/-! The text of a session's UUID, and the parser of such texts. -/

variable (key : SessionId → SessionKey) (parse : SessionKey → Option SessionId)

def spawnRpc (s : SupervisorImpl) (sid : SessionId) (pane : PaneId) (w : WindowId)
    (met : Spawning) : SupervisorImpl × Except PyreError SpawnResp :=
  let session := key sid
  let (s,slot) := s.allocPane session pane
  match met.started with
  | .error e => (s,.error (.spawnFailed e))
  | .ok () =>
    match met.registration with
    | .closed => (s,.error (.spawnFailed "worker registration channel closed"))
    | .timedOut =>
      (s,.error (.spawnFailed s!"worker for session {session} did not register within 5 s"))
    | .confirmed =>
      let s := s.registerWorker session []
      if met.deregistered then
        (s.removeSession session,
          .error (.spawnFailed "worker deregistered immediately after registration"))
      else
        match met.opened with
        | .error e => (s,.error (.spawnFailed e))
        | .ok () => ((s.openSlot session slot).placeSpawned session pane w,.ok ⟨sid,pane,w⟩)

def openPaneRpc (s : SupervisorImpl) (sid : SessionId) (asked : Option WindowId) (pane : PaneId)
    (fresh : WindowId) (opened : Answer) : SupervisorImpl × Except PyreError PaneId :=
  let session := key sid
  match s.workers.lookup session with
  | none => (s,.error (.noSuchSession sid))
  | some _ =>
    match opened with
    | .error e => ((s.allocPane session pane).1,.error (.io e))
    | .ok () => (s.openPane session asked pane fresh,.ok pane)

def openPaneSplitRpc (s : SupervisorImpl) (parent : PaneId) (orient : Orient) (pane : PaneId)
    (fresh : WindowId) (opened : Answer) : SupervisorImpl × Except PyreError PaneId :=
  match s.index.lookup parent with
  | none => (s,.error (.noSuchPane parent))
  | some (session,_) =>
    match parse session with
    | none => (s,.error (.noSuchPane parent))
    | some _ =>
      match s.workers.lookup session with
      | none => (s,.error (.noSuchPane parent))
      | some _ =>
        match opened with
        | .error e => ((s.allocPane session pane).1,.error (.spawnFailed e))
        | .ok () => (s.openPaneSplit session parent orient pane fresh,.ok pane)

def setPaneWeightRpc (s : SupervisorImpl) (pane : PaneId) (weight : UInt16) (stored : Answer) :
    SupervisorImpl × Except PyreError Unit :=
  match s.paneWindowMap.lookup pane with
  | none => (s,.error (.noSuchPane pane))
  | some w =>
    match (s.windowStore.lookup w).bind WindowMeta.layout with
    | none => (s,.error (.noSuchPane pane))
    | some tree =>
      let tree := tree.setWeight pane weight
      let s := s.setLayout w tree
      match stored with
      | .error e => (s,.error (.io e))
      | .ok () => (s.upsertWindowLayout w tree,.ok ())

def renameMeta (s : SupervisorImpl) (w : WindowId) (name : String) : SupervisorImpl :=
  match s.windowStore.lookup w with
  | some info => s.setMeta w { info with name := name }
  | none => s

/-- The name in memory changes first. -/
def renameWindowRpc (s : SupervisorImpl) (w : WindowId) (name : String) (stored : Answer) :
    SupervisorImpl × Except PyreError Unit :=
  let s := s.renameMeta w name
  match stored with
  | .error e => (s,.error (.io e))
  | .ok () => (s.renameRow w name,.ok ())

/-- That a worker is not reached is no error. -/
def closeReached (s : SupervisorImpl) (unreached : List PaneId) (pane : PaneId) : SupervisorImpl :=
  (if pane ∈ unreached then s else s.closeOnWorker pane).unassign pane

def closeWindowRpc (s : SupervisorImpl) (w : WindowId) (listed : Answer)
    (unreached : List PaneId) (deleted : Answer) : SupervisorImpl × Except PyreError Unit :=
  match listed with
  | .error e => (s,.error (.io e))
  | .ok () =>
    let s := ((s.listPanesForWindow w).foldl (fun s p => s.closeReached unreached p) s).dropWindow w
    match deleted with
    | .error e => (s,.error (.io e))
    | .ok () => (s.deleteWindow w,.ok ())

def call (s : SupervisorImpl) : Call → SupervisorImpl × Except PyreError Unit
  | .spawn sid pane w met => (s.spawnRpc key sid pane w met).map id (Except.map fun _ => ())
  | .openPane sid asked pane fresh opened =>
    (s.openPaneRpc key sid asked pane fresh opened).map id (Except.map fun _ => ())
  | .openPaneSplit parent orient pane fresh opened =>
    (s.openPaneSplitRpc parse parent orient pane fresh opened).map id (Except.map fun _ => ())
  | .setPaneWeight pane weight stored => s.setPaneWeightRpc pane weight stored
  | .renameWindow w name stored => s.renameWindowRpc w name stored
  | .closeWindow w listed unreached deleted => s.closeWindowRpc w listed unreached deleted

/-- The tables hold what they held. -/
structure Untouched (s t : SupervisorImpl) : Prop where
  paneToSlot : ∀ p, t.index.lookup p = s.index.lookup p
  windowStore : ∀ w, t.windowStore.lookup w = s.windowStore.lookup w
  sessionWindows : ∀ session, t.sessionWindows.lookup session = s.sessionWindows.lookup session
  paneWindowMap : ∀ p, t.paneWindowMap.lookup p = s.paneWindowMap.lookup p

/-- The identifiers drawn are new: no pane has them, and no pane is of the session. -/
def Drawn (s : SupervisorImpl) : Call → Prop
  | .spawn sid pane _ _ =>
    s.index.lookup pane = none ∧ ∀ p k, s.index.lookup p = some k → k.1 ≠ key sid
  | .openPane _ _ pane _ _ | .openPaneSplit _ _ pane _ _ => s.index.lookup pane = none
  | .setPaneWeight _ _ _ | .renameWindow _ _ _ | .closeWindow _ _ _ _ => True

/-- The worker of the pane is reached and closes it. -/
def Ended (s : SupervisorImpl) (unreached : List PaneId) (pane : PaneId) : Prop :=
  pane ∉ unreached ∧ ∃ k, s.Closes pane k

/-- Calls that, when they fail, fail before they have changed a table, or have nothing
to change there. -/
def FailsClean (s : SupervisorImpl) : Call → Prop
  | .spawn _ _ _ met =>
    met.started = .ok () ∧ met.registration = .confirmed ∧ met.deregistered = true
  | .openPane sid _ _ _ _ => s.workers.lookup (key sid) = none
  | .openPaneSplit parent _ _ _ _ => ∀ k, s.index.lookup parent = some k →
    parse k.1 = none ∨ s.workers.lookup k.1 = none
  | .setPaneWeight pane weight _ => ∀ w, s.paneWindowMap.lookup pane = some w → ∀ tree,
    (s.windowStore.lookup w).bind WindowMeta.layout = some tree → tree.setWeight pane weight = tree
  | .renameWindow w name _ => ∀ info, s.windowStore.lookup w = some info → info.name = name
  | .closeWindow w listed unreached _ => listed ≠ .ok () ∨ s.windowStore.lookup w = none ∧
    ∀ p ∈ s.listPanesForWindow w, s.paneWindowMap.lookup p = none ∧ ¬s.Ended unreached p

end requests

variable {s t u : SupervisorImpl} {session : SessionKey} {w : WindowId} {pane p : PaneId}
  {e : PyreError}

theorem Untouched.refl (s : SupervisorImpl) : s.Untouched s :=
  ⟨fun _ => rfl,fun _ => rfl,fun _ => rfl,fun _ => rfl⟩

theorem Untouched.trans (h : s.Untouched t) (h' : t.Untouched u) : s.Untouched u where
  paneToSlot p := (h'.paneToSlot p).trans (h.paneToSlot p)
  windowStore w := (h'.windowStore w).trans (h.windowStore w)
  sessionWindows session := (h'.sessionWindows session).trans (h.sessionWindows session)
  paneWindowMap p := (h'.paneWindowMap p).trans (h.paneWindowMap p)

/-- The panes of a session are as many as before, for the eviction with the last of
them and for the test whether a worker that exited is to be started again. -/
theorem Untouched.paneCount (h : s.Untouched t) (session : SessionKey) :
    t.index.paneCount session = s.index.paneCount session := by
  have hperm : t.index.paneToSlot.entries.Perm s.index.paneToSlot.entries := by
    refine List.lookup_ext t.index.paneToSlot.nodupKeys s.index.paneToSlot.nodupKeys fun p k => ?_
    exact Eq.to_iff (congrArg (k ∈ ·) (h.paneToSlot p))
  exact ((hperm.map Sigma.snd).filter _).length_eq

/-! Where nothing fails the requests are the operations of a run. -/

theorem spawnRpc_ok {key : SessionId → SessionKey} {sid : SessionId} {met : Spawning}
    {r : SpawnResp} (h : (s.spawnRpc key sid pane w met).2 = .ok r) :
    (s.spawnRpc key sid pane w met).1 = s.spawn (key sid) pane w ∧ r = ⟨sid,pane,w⟩ := by
  obtain ⟨started,registration,deregistered,opened⟩ := met
  cases started with
  | error e => cases h
  | ok =>
    cases registration with
    | closed => cases h
    | timedOut => cases h
    | confirmed =>
      cases deregistered with
      | true => cases h
      | false =>
        cases opened with
        | error e => cases h
        | ok => exact ⟨rfl,(Except.ok.inj h).symm⟩

theorem closeWindowRpc_ok (s : SupervisorImpl) (w : WindowId) :
    (s.closeWindowRpc w (.ok ()) [] (.ok ())).1 = s.closeWindow w := by
  have hreached : ∀ s : SupervisorImpl, ∀ p,
      s.closeReached [] p = (s.closeOnWorker p).unassign p := by
    intro s p
    rw [closeReached,if_neg List.not_mem_nil]
  simp only [closeWindowRpc,closeWindow,closePanesOf,hreached]

/-! What an allocation leaves when the worker then fails. -/

theorem lookup_allocPane_self (s : SupervisorImpl) (session : SessionKey) (pane : PaneId) :
    (s.allocPane session pane).1.index.lookup pane = some (session,s.index.counter session) :=
  PaneIndex.lookup_allocPane.mpr (Or.inl ⟨rfl,rfl⟩)

theorem not_untouched_of_new {k : SlotKey} (hnew : s.index.lookup pane = none)
    (ht : t.index.lookup pane = some k) : ¬s.Untouched t := by
  intro h
  rw [h.paneToSlot,hnew] at ht
  cases ht

theorem untouched_removeSession {slots : List UInt32} (hnew : s.index.lookup pane = none)
    (hsession : ∀ p k, s.index.lookup p = some k → k.1 ≠ session) :
    s.Untouched (((s.allocPane session pane).1.registerWorker session slots).removeSession
      session) := by
  refine ⟨fun p => Option.ext fun k => ?_,fun _ => rfl,fun _ => rfl,fun _ => rfl⟩
  have hremove : (((s.allocPane session pane).1.registerWorker session slots).removeSession
      session).index.lookup p = some k ↔
        (s.index.allocPane session pane).1.lookup p = some k ∧ k.1 ≠ session :=
    PaneIndex.lookup_removeSession
  rw [hremove,PaneIndex.lookup_allocPane]
  constructor
  · rintro ⟨⟨-,rfl⟩ | ⟨-,hk⟩,hne⟩
    · exact absurd rfl hne
    · exact hk
  · intro hk
    refine ⟨Or.inr ⟨?_,hk⟩,hsession p k hk⟩
    rintro rfl
    rw [hnew] at hk
    cases hk

theorem spawnRpc_untouched_iff {key : SessionId → SessionKey} {sid : SessionId} {met : Spawning}
    (hnew : s.index.lookup pane = none)
    (hsession : ∀ p k, s.index.lookup p = some k → k.1 ≠ key sid)
    (h : (s.spawnRpc key sid pane w met).2 = .error e) :
    s.Untouched (s.spawnRpc key sid pane w met).1 ↔
      met.started = .ok () ∧ met.registration = .confirmed ∧ met.deregistered = true := by
  obtain ⟨started,registration,deregistered,opened⟩ := met
  have hphantom := lookup_allocPane_self s (key sid) pane
  cases started with
  | error e => simpa [spawnRpc] using not_untouched_of_new hnew hphantom
  | ok =>
    cases registration with
    | closed => simpa [spawnRpc] using not_untouched_of_new hnew hphantom
    | timedOut => simpa [spawnRpc] using not_untouched_of_new hnew hphantom
    | confirmed =>
      cases deregistered with
      | true => simpa [spawnRpc] using untouched_removeSession hnew hsession
      | false =>
        cases opened with
        | error e =>
          simpa [spawnRpc] using not_untouched_of_new
            (t := (s.allocPane (key sid) pane).1.registerWorker (key sid) []) hnew hphantom
        | ok => cases h

theorem openPaneRpc_untouched_iff {key : SessionId → SessionKey} {sid : SessionId}
    {asked : Option WindowId} {fresh : WindowId} {opened : Answer}
    (hnew : s.index.lookup pane = none)
    (h : (s.openPaneRpc key sid asked pane fresh opened).2 = .error e) :
    s.Untouched (s.openPaneRpc key sid asked pane fresh opened).1 ↔
      s.workers.lookup (key sid) = none := by
  unfold openPaneRpc at h ⊢
  cases hw : s.workers.lookup (key sid) with
  | none => simpa [hw] using Untouched.refl s
  | some _ =>
    cases opened with
    | error e => simpa [hw] using not_untouched_of_new hnew (lookup_allocPane_self s (key sid) pane)
    | ok => simp [hw] at h

theorem openPaneSplitRpc_untouched_iff {parse : SessionKey → Option SessionId} {parent : PaneId}
    {orient : Orient} {fresh : WindowId} {opened : Answer} (hnew : s.index.lookup pane = none)
    (h : (s.openPaneSplitRpc parse parent orient pane fresh opened).2 = .error e) :
    s.Untouched (s.openPaneSplitRpc parse parent orient pane fresh opened).1 ↔
      ∀ k, s.index.lookup parent = some k → parse k.1 = none ∨ s.workers.lookup k.1 = none := by
  unfold openPaneSplitRpc at h ⊢
  cases hk : s.index.lookup parent with
  | none => simpa [hk] using Untouched.refl s
  | some k =>
    obtain ⟨session,slot⟩ := k
    cases hparse : parse session with
    | none => simpa [hk,hparse] using Untouched.refl s
    | some sid =>
      cases hw : s.workers.lookup session with
      | none => simpa [hk,hparse,hw] using Untouched.refl s
      | some _ =>
        cases opened with
        | error e =>
          simpa [hk,hparse,hw] using not_untouched_of_new hnew (lookup_allocPane_self s session pane)
        | ok => simp [hk,hparse,hw] at h

/-! What has changed in memory when the store then fails. -/

theorem untouched_setMeta_iff {info info' : WindowMeta}
    (hw : s.windowStore.lookup w = some info) :
    s.Untouched (s.setMeta w info') ↔ info' = info := by
  constructor
  · intro h
    have hlookup := h.windowStore w
    rw [lookup_setMeta_self,hw] at hlookup
    exact Option.some.inj hlookup
  · rintro rfl
    refine ⟨fun _ => rfl,fun v => ?_,fun _ => rfl,fun _ => rfl⟩
    by_cases hv : v = w
    · rw [hv,lookup_setMeta_self,hw]
    · exact lookup_setMeta_ne hv s info'

theorem setPaneWeightRpc_untouched_iff {weight : UInt16} {stored : Answer}
    (h : (s.setPaneWeightRpc pane weight stored).2 = .error e) :
    s.Untouched (s.setPaneWeightRpc pane weight stored).1 ↔
      ∀ w, s.paneWindowMap.lookup pane = some w → ∀ tree,
        (s.windowStore.lookup w).bind WindowMeta.layout = some tree →
          tree.setWeight pane weight = tree := by
  unfold setPaneWeightRpc at h ⊢
  cases hw : s.paneWindowMap.lookup pane with
  | none => simpa using Untouched.refl s
  | some w =>
    cases htree : (s.windowStore.lookup w).bind WindowMeta.layout with
    | none => simpa [htree] using Untouched.refl s
    | some tree =>
      obtain ⟨⟨session,name,position,layout⟩,hinfo,hlayout⟩ := Option.bind_eq_some_iff.mp htree
      obtain rfl : layout = some tree := hlayout
      cases stored with
      | ok => simp [hw,htree] at h
      | error e =>
        simp only [htree]
        have hset : s.setLayout w (tree.setWeight pane weight) =
            s.setMeta w ⟨session,name,position,some (tree.setWeight pane weight)⟩ := by
          rw [setLayout,hinfo]
        rw [hset,untouched_setMeta_iff hinfo]
        simp [htree]

theorem renameWindowRpc_untouched_iff {name : String} {stored : Answer}
    (h : (s.renameWindowRpc w name stored).2 = .error e) :
    s.Untouched (s.renameWindowRpc w name stored).1 ↔
      ∀ info, s.windowStore.lookup w = some info → info.name = name := by
  cases stored with
  | ok => simp [renameWindowRpc] at h
  | error e =>
    simp only [renameWindowRpc,renameMeta]
    cases hw : s.windowStore.lookup w with
    | none => simpa using Untouched.refl s
    | some info =>
      obtain ⟨session,name',position,layout⟩ := info
      rw [untouched_setMeta_iff hw]
      simp [eq_comm]

/-! The panes that `close_window` has closed when the store then fails. -/

theorem prunePane_frame (s : SupervisorImpl) (p : PaneId) :
    (s.prunePane p).index = s.index ∧ (s.prunePane p).workers = s.workers := by
  unfold prunePane
  split
  · exact ⟨rfl,rfl⟩
  · simp only
    split
    · exact ⟨rfl,rfl⟩
    · rename_i w _ _ tree _
      have hsame := samePanes_storeLayout (s.unassign p) w (tree.close p).1
      exact ⟨hsame.index,hsame.workers⟩

/-- A callback takes the slot out of the index, and the worker's session only with the
last slot of it. -/
theorem paneClosed_frame {slot : UInt32} {fresh q : PaneId} {k : SlotKey}
    (h : (s.paneClosed session slot fresh).index.lookup q = some k) :
    k ≠ (session,slot) ∧ (s.paneClosed session slot fresh).slots k.1 = s.slots k.1 := by
  set ix := ((s.index.getOrAllocPaneBySlot session slot fresh).1.removePaneSlot session slot).1
    with hix
  set evicted := if ix.paneCount session = 0 then
    SupervisorImpl.removeSession { s with index := ix } session else { s with index := ix }
    with hevicted
  have hframe : (s.paneClosed session slot fresh).index = evicted.index ∧
      (s.paneClosed session slot fresh).workers = evicted.workers := by
    rw [paneClosed_evict s session slot fresh hix,← hevicted]
    cases (s.index.getOrAllocPaneBySlot session slot fresh).2 with
    | none => exact ⟨rfl,rfl⟩
    | some pane => exact prunePane_frame evicted pane
  rw [slots,hframe.2,hevicted]
  rw [hframe.1,hevicted] at h
  split
  · rename_i hzero
    rw [if_pos hzero] at h
    obtain ⟨hk,hne⟩ := PaneIndex.lookup_removeSession.mp h
    refine ⟨(PaneIndex.lookup_removePaneSlot.mp hk).2,?_⟩
    exact congrArg (Option.getD · []) (AList.lookup_erase_ne hne)
  · rename_i hsome
    rw [if_neg hsome] at h
    exact ⟨(PaneIndex.lookup_removePaneSlot.mp h).2,rfl⟩

/-- Panes have ended: what is left was there before, at slots that are as they were. -/
structure Closing (s t : SupervisorImpl) : Prop where
  lookup : ∀ q k, t.index.lookup q = some k → s.index.lookup q = some k
  mapped : ∀ q v, t.paneWindowMap.lookup q = some v → s.paneWindowMap.lookup q = some v
  still : ∀ q k, t.index.lookup q = some k → k.2 ∈ s.slots k.1 → k.2 ∈ t.slots k.1

theorem Closing.refl (s : SupervisorImpl) : s.Closing s := ⟨fun _ _ h => h,fun _ _ h => h,
  fun _ _ _ h => h⟩

theorem Closing.trans (h : s.Closing t) (h' : t.Closing u) : s.Closing u where
  lookup q k hq := h.lookup q k (h'.lookup q k hq)
  mapped q v hq := h.mapped q v (h'.mapped q v hq)
  still q k hq hk := h'.still q k hq (h.still q k (h'.lookup q k hq) hk)

theorem Closing.unindexed (h : s.Closing t) (hs : s.index.lookup p = none) :
    t.index.lookup p = none := by
  refine Option.eq_none_iff_forall_ne_some.mpr fun k hk => ?_
  rw [h.lookup p k hk] at hs
  cases hs

theorem Closing.unmapped (h : s.Closing t) (hs : s.paneWindowMap.lookup p = none) :
    t.paneWindowMap.lookup p = none := by
  refine Option.eq_none_iff_forall_ne_some.mpr fun v hv => ?_
  rw [h.mapped p v hv] at hs
  cases hs

theorem closeOnWorker_of_not_closes (h : ∀ k, ¬s.Closes p k) : s.closeOnWorker p = s := by
  unfold closeOnWorker
  split
  · rename_i session slot hp
    have hclosed : slot ∉ s.slots session := fun hslot => h (session,slot) ⟨hp,hslot⟩
    rw [workerClose,if_neg hclosed]
  · rfl

/-- The pane that is closed leaves the index. -/
theorem closing_closeOnWorker (s : SupervisorImpl) (p : PaneId) :
    s.Closing (s.closeOnWorker p) ∧
      ∀ k, s.Closes p k → (s.closeOnWorker p).index.lookup p = none := by
  have hr := removes_closeOnWorker s p
  by_cases hc : ∃ k, s.Closes p k
  · obtain ⟨⟨session,slot⟩,hp,hslot⟩ := hc
    have hclose : s.closeOnWorker p = (s.closeSlot session slot).paneClosed session slot p := by
      rw [closeOnWorker,hp]
      simp only [workerClose]
      exact if_pos hslot
    refine ⟨⟨hr.lookup,hr.mapped,fun q k hq hk => ?_⟩,fun _ _ => ?_⟩
    · rw [hclose] at hq ⊢
      obtain ⟨hne,hslots⟩ := paneClosed_frame hq
      rw [hslots,closeSlot,← registerWorker,slots_registerWorker]
      split
      · rename_i hsession
        refine List.mem_filter.mpr ⟨hsession ▸ hk,?_⟩
        simpa using fun h => hne (Prod.ext hsession h)
      · exact hk
    · rw [Option.eq_none_iff_forall_ne_some]
      intro k hk
      have hold := hr.lookup p k hk
      rw [hclose] at hk
      exact (paneClosed_frame hk).1 (Option.some.inj (hold.symm.trans hp))
  · have hnone : ∀ k, ¬s.Closes p k := fun k hk => hc ⟨k,hk⟩
    rw [closeOnWorker_of_not_closes hnone]
    exact ⟨Closing.refl s,fun k hk => absurd hk (hnone k)⟩

theorem closing_closeReached (s : SupervisorImpl) (unreached : List PaneId) (p : PaneId) :
    s.Closing (s.closeReached unreached p) ∧
      (s.closeReached unreached p).paneWindowMap.lookup p = none ∧
      (s.Ended unreached p → (s.closeReached unreached p).index.lookup p = none) := by
  have hun : ∀ t : SupervisorImpl, t.Closing (t.unassign p) := fun t =>
    ⟨fun _ _ h => h,fun _ _ h => (Table.lookup_erase_eq_some.mp h).2,fun _ _ _ h => h⟩
  unfold closeReached
  split
  · rename_i hmem
    exact ⟨hun s,AList.lookup_erase _ _,fun h => absurd hmem h.1⟩
  · obtain ⟨hclosing,hgone⟩ := closing_closeOnWorker s p
    exact ⟨hclosing.trans (hun _),AList.lookup_erase _ _,fun ⟨_,k,hk⟩ => hgone k hk⟩

theorem closeReached_untouched {unreached : List PaneId} (hmap : s.paneWindowMap.lookup p = none)
    (hended : ¬s.Ended unreached p) :
    s.Untouched (s.closeReached unreached p) ∧
      (s.closeReached unreached p).workers = s.workers := by
  have hsame : (if p ∈ unreached then s else s.closeOnWorker p) = s := by
    split
    · rfl
    · rename_i hmem
      exact closeOnWorker_of_not_closes fun k hk => hended ⟨hmem,k,hk⟩
  rw [closeReached,hsame]
  refine ⟨⟨fun _ => rfl,fun _ => rfl,fun _ => rfl,fun q => ?_⟩,rfl⟩
  by_cases hq : q = p
  · rw [hq,hmap]
    exact AList.lookup_erase _ _
  · exact AList.lookup_erase_ne hq

theorem closing_closeAll (unreached panes : List PaneId) (s : SupervisorImpl) :
    s.Closing (panes.foldl (fun s p => s.closeReached unreached p) s) ∧
      ∀ p ∈ panes, (panes.foldl (fun s p => s.closeReached unreached p) s).paneWindowMap.lookup p =
          none ∧
        (s.Ended unreached p →
          (panes.foldl (fun s p => s.closeReached unreached p) s).index.lookup p = none) := by
  induction panes generalizing s with
  | nil => exact ⟨Closing.refl s,by simp⟩
  | cons p panes ih =>
    obtain ⟨hfirst,hmap,hindex⟩ := closing_closeReached s unreached p
    obtain ⟨hrest,hall⟩ := ih (s.closeReached unreached p)
    refine ⟨hfirst.trans hrest,fun q hq => ?_⟩
    rcases List.mem_cons.mp hq with rfl | hq
    · exact ⟨hrest.unmapped hmap,fun hended => hrest.unindexed (hindex hended)⟩
    · refine ⟨(hall q hq).1,fun ⟨hreached,k,hk,hslot⟩ => ?_⟩
      -- its slot is open still, unless the pane is gone with an earlier one
      cases hq' : (s.closeReached unreached p).index.lookup q with
      | none => exact hrest.unindexed hq'
      | some k' =>
        obtain rfl := Option.some.inj (hk.symm.trans (hfirst.lookup q k' hq'))
        exact (hall q hq).2 ⟨hreached,k,hq',hfirst.still q k hq' hslot⟩

theorem closeAll_untouched {unreached panes : List PaneId}
    (h : ∀ p ∈ panes, s.paneWindowMap.lookup p = none ∧ ¬s.Ended unreached p) :
    s.Untouched (panes.foldl (fun s p => s.closeReached unreached p) s) := by
  induction panes generalizing s with
  | nil => exact Untouched.refl s
  | cons p panes ih =>
    obtain ⟨hmap,hended⟩ := h p List.mem_cons_self
    obtain ⟨hfirst,hworkers⟩ := closeReached_untouched hmap hended
    refine hfirst.trans (ih fun q hq => ?_)
    obtain ⟨hmap',hended'⟩ := h q (List.mem_cons_of_mem p hq)
    refine ⟨(hfirst.paneWindowMap q).trans hmap',fun ⟨hreached,k,hk,hslot⟩ => ?_⟩
    rw [hfirst.paneToSlot] at hk
    rw [slots,hworkers] at hslot
    exact hended' ⟨hreached,k,hk,hslot⟩

theorem dropWindow_untouched (hw : s.windowStore.lookup w = none) :
    s.Untouched (s.dropWindow w) := by
  simp only [dropWindow,hw,Option.map_none]
  refine ⟨fun _ => rfl,fun v => ?_,fun _ => rfl,fun _ => rfl⟩
  by_cases hv : v = w
  · rw [hv,hw]
    exact AList.lookup_erase _ _
  · exact AList.lookup_erase_ne hv

theorem lookup_dropWindow_self (s : SupervisorImpl) (w : WindowId) :
    (s.dropWindow w).windowStore.lookup w = none := by
  unfold dropWindow
  simp only
  split
  · exact AList.lookup_erase _ _
  · split <;> exact AList.lookup_erase _ _

theorem closeWindowRpc_untouched_iff {unreached : List PaneId} {listed deleted : Answer}
    (h : (s.closeWindowRpc w listed unreached deleted).2 = .error e) :
    s.Untouched (s.closeWindowRpc w listed unreached deleted).1 ↔
      listed ≠ .ok () ∨ s.windowStore.lookup w = none ∧
        ∀ p ∈ s.listPanesForWindow w, s.paneWindowMap.lookup p = none ∧ ¬s.Ended unreached p := by
  cases listed with
  | error e => simpa [closeWindowRpc] using Untouched.refl s
  | ok =>
    cases deleted with
    | ok => simp [closeWindowRpc] at h
    | error e =>
      set t := (s.listPanesForWindow w).foldl (fun s p => s.closeReached unreached p) s with ht
      obtain ⟨hindex,hworkers,hmap,-⟩ := samePanes_dropWindow t w
      have hstate : (s.closeWindowRpc w (.ok ()) unreached (.error e)).1 = t.dropWindow w := rfl
      rw [hstate]
      simp only [ne_eq,not_true_eq_false,false_or]
      constructor
      · intro hu
        obtain ⟨-,hall⟩ := closing_closeAll unreached (s.listPanesForWindow w) s
        refine ⟨?_,fun p hp => ⟨?_,fun hended => ?_⟩⟩
        · rw [← hu.windowStore,lookup_dropWindow_self]
        · rw [← hu.paneWindowMap,hmap]
          exact (hall p hp).1
        · have hgone := (hall p hp).2 hended
          rw [← ht,← hindex,hu.paneToSlot] at hgone
          obtain ⟨-,k,hk,-⟩ := hended
          rw [hgone] at hk
          cases hk
      · rintro ⟨hw,hpanes⟩
        have hclosed : s.Untouched t := closeAll_untouched hpanes
        exact hclosed.trans (dropWindow_untouched ((hclosed.windowStore w).trans hw))

/-- A request that fails leaves the tables as they were just where it fails before it
has changed one, or has nothing to change; then each session has as many panes as before. -/
theorem failed_call_untouched_iff {key : SessionId → SessionKey}
    {parse : SessionKey → Option SessionId} (s : SupervisorImpl) (c : Call) (hdrawn : s.Drawn key c)
    (h : (s.call key parse c).2 = .error e) :
    (s.Untouched (s.call key parse c).1 ↔ s.FailsClean key parse c) ∧
      (s.FailsClean key parse c → ∀ session,
        (s.call key parse c).1.index.paneCount session = s.index.paneCount session) := by
  have herror : ∀ {α : Type} {r : Except PyreError α},
      Except.map (fun _ => ()) r = .error e → r = .error e := by
    intro α r hr
    cases r with
    | error e' => exact congrArg Except.error (Except.error.inj hr)
    | ok a => cases hr
  have hiff : s.Untouched (s.call key parse c).1 ↔ s.FailsClean key parse c := by
    cases c with
    | spawn sid pane w met => exact spawnRpc_untouched_iff hdrawn.1 hdrawn.2 (herror h)
    | openPane sid asked pane fresh opened => exact openPaneRpc_untouched_iff hdrawn (herror h)
    | openPaneSplit parent orient pane fresh opened =>
      exact openPaneSplitRpc_untouched_iff hdrawn (herror h)
    | setPaneWeight pane weight stored => exact setPaneWeightRpc_untouched_iff h
    | renameWindow w name stored => exact renameWindowRpc_untouched_iff h
    | closeWindow w listed unreached deleted => exact closeWindowRpc_untouched_iff h
  exact ⟨hiff,fun hc => (hiff.mpr hc).paneCount⟩

/-- Of a session without a worker nothing is opened. -/
theorem failed_open_untouched :
    (empty.spawn "s" ⟨1⟩ ⟨1⟩).Untouched ((empty.spawn "s" ⟨1⟩ ⟨1⟩).call
      (fun sid => if sid = ⟨1⟩ then "s" else "t") (fun key => if key = "s" then some ⟨1⟩ else none)
      (.openPane ⟨2⟩ none ⟨2⟩ ⟨2⟩ (.ok ()))).1 :=
  (failed_call_untouched_iff (empty.spawn "s" ⟨1⟩ ⟨1⟩) (.openPane ⟨2⟩ none ⟨2⟩ ⟨2⟩ (.ok ())) rfl
    (e := .noSuchSession ⟨2⟩) rfl).1.mpr rfl

/-- The worker cannot open the pane, whose PaneId stays in the index. -/
theorem phantom_of_failed_open :
    ¬∀ (key : SessionId → SessionKey) (parse : SessionKey → Option SessionId)
      (s : SupervisorImpl) (c : Call) (e : PyreError), s.Drawn key c →
      (s.call key parse c).2 = .error e → s.Untouched (s.call key parse c).1 ∧
        ∀ session, (s.call key parse c).1.index.paneCount session = s.index.paneCount session := by
  intro h
  have hcount := (h (fun _ => "s") (fun _ => none) (empty.spawn "s" ⟨1⟩ ⟨1⟩)
    (.openPane ⟨1⟩ none ⟨2⟩ ⟨2⟩ (.error "no pty")) (.io "no pty") rfl rfl).2 "s"
  exact absurd hcount (by decide)

end SupervisorImpl

end Pyre.Supervisor
