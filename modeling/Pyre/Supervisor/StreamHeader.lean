import Pyre.Supervisor.PaneIndex

/-!
What a stream header leads to: `proxy_stream_to_worker` from the header to the hub. The slot
comes from the pane index and the socket from the session the header names, and the hub that
connects the two is kept under the pane's id for the clients that follow.
-/

set_option autoImplicit false

namespace Pyre.Supervisor
open Base

structure StreamHeader where
  session : SessionKey
  pane : PaneId
  deriving DecidableEq, Repr

/-- A hub's connection: the worker process at its other end and the slot that was sent. -/
structure HubLink where
  worker : Nat
  slot : UInt32
  deriving DecidableEq, Repr

/-- How far a connection is. A stream socket's path is told by the session it has in it. -/
inductive StreamPhase where
  | reading
  | resolved (slot : UInt32)
  | routed (slot : UInt32) (path : SessionKey)
  | connecting (slot : UInt32) (path : SessionKey)
  | inserting (link : HubLink)
  | connected (link : HubLink)
  | gone
  deriving DecidableEq, Repr

structure StreamClient where
  header : StreamHeader
  phase : StreamPhase
  deriving DecidableEq, Repr

/-- `homes` has what the index maps or has mapped, `procs` the session of each worker
process there was; `streamSocks` is the socket in the handle of each session's worker. -/
structure Streams where
  index : PaneIndex
  homes : Table PaneId SlotKey
  procs : Table Nat SessionKey
  streamSocks : Table SessionKey SessionKey
  hubs : Table PaneId HubLink
  clients : Table Nat StreamClient

/-- `hubEnds` is the end of the worker's side of a hub, at any time. -/
inductive StreamOp where
  | index (op : IndexOp)
  | workerStarts (worker : Nat) (session : SessionKey)
  | registerWorker (worker : Nat)
  | removeWorker (session : SessionKey)
  | attach (client : Nat) (header : StreamHeader)
  | lookupPane (client : Nat)
  | getStreamSock (client : Nat)
  | getHub (client : Nat)
  | connect (client : Nat) (worker : Option Nat)
  | insert (client : Nat)
  | hubEnds (pane : PaneId)
  | leave (client : Nat)
  deriving DecidableEq, Repr

namespace Streams

def start : Streams := ⟨.empty,∅,∅,∅,∅,∅⟩

/-- The UUID an operation has drawn and where the index has it now. -/
def recordHome (homes : Table PaneId SlotKey) (op : IndexOp) (ix : PaneIndex) :
    Table PaneId SlotKey :=
  match op.drawn with
  | none => homes
  | some pane =>
    match ix.lookup pane with
    | none => homes
    | some key => homes.insert pane key

def setClient (s : Streams) (i : Nat) (c : StreamClient) (phase : StreamPhase) : Streams :=
  { s with clients := s.clients.insert i { c with phase } }

def stepClient (s : Streams) (i : Nat) (f : StreamClient → Option Streams) : Option Streams :=
  (s.clients.lookup i).bind f

/-- A UUID is drawn once. What listens at a path is a worker of the session it names. -/
def step (s : Streams) : StreamOp → Option Streams
  | .index op =>
    if ∀ pane ∈ op.drawn, s.homes.lookup pane = none then
      (s.index.step op).map fun ix => { s with index := ix, homes := recordHome s.homes op ix }
    else none
  | .workerStarts w session =>
    if s.procs.lookup w = none then some { s with procs := s.procs.insert w session } else none
  | .registerWorker w => (s.procs.lookup w).map fun session =>
    { s with streamSocks := s.streamSocks.insert session session }
  | .removeWorker session => some { s with streamSocks := s.streamSocks.erase session }
  | .attach i header =>
    if s.clients.lookup i = none then
      some { s with clients := s.clients.insert i ⟨header,.reading⟩ }
    else none
  | .lookupPane i => s.stepClient i fun c =>
    match c.phase with
    | .reading =>
      match s.index.lookup c.header.pane with
      | some (_,slot) => some (s.setClient i c (.resolved slot))
      | none => some (s.setClient i c .gone)
    | _ => none
  | .getStreamSock i => s.stepClient i fun c =>
    match c.phase with
    | .resolved slot =>
      match s.streamSocks.lookup c.header.session with
      | some path => some (s.setClient i c (.routed slot path))
      | none => some (s.setClient i c .gone)
    | _ => none
  | .getHub i => s.stepClient i fun c =>
    match c.phase with
    | .routed slot path =>
      match s.hubs.lookup c.header.pane with
      | some link => some (s.setClient i c (.connected link))
      | none => some (s.setClient i c (.connecting slot path))
    | _ => none
  | .connect i worker => s.stepClient i fun c =>
    match c.phase, worker with
    | .connecting slot path, some w =>
      if s.procs.lookup w = some path then some (s.setClient i c (.inserting ⟨w,slot⟩)) else none
    | .connecting _ _, none => some (s.setClient i c .gone)
    | _, _ => none
  | .insert i => s.stepClient i fun c =>
    match c.phase with
    | .inserting link => some { s.setClient i c (.connected link) with
        hubs := s.hubs.insert c.header.pane link }
    | _ => none
  | .hubEnds pane => some { s with hubs := s.hubs.erase pane }
  | .leave i => s.stepClient i fun c => some (s.setClient i c .gone)

/-- The worker is one of the session and the slot the one in it. -/
def Reaches (s : Streams) (link : HubLink) (key : SlotKey) : Prop :=
  s.procs.lookup link.worker = some key.1 ∧ link.slot = key.2

/-- Every client is connected to the pane it named, of the session it named, and every hub
to the pane it is registered for. -/
structure Named (s : Streams) : Prop where
  index : ∀ pane key, s.index.lookup pane = some key → s.homes.lookup pane = some key
  clients : ∀ i c link, s.clients.lookup i = some c → c.phase = .connected link →
    s.homes.lookup c.header.pane = some (c.header.session,link.slot) ∧
      s.Reaches link (c.header.session,link.slot)
  hubs : ∀ pane link, s.hubs.lookup pane = some link →
    ∃ key, s.homes.lookup pane = some key ∧ s.Reaches link key

/-- Where the session that the header names has a worker, it is the pane's session. -/
def OwnSession (s : Streams) : StreamOp → Prop
  | .getStreamSock i => ∀ c ∈ s.clients.lookup i, (s.streamSocks.lookup c.header.session).isSome →
    ∀ key ∈ s.homes.lookup c.header.pane, key.1 = c.header.session
  | _ => True

instance (s : Streams) : DecidablePred s.OwnSession
  | .getStreamSock _ => inferInstanceAs (Decidable (∀ _ ∈ _, _ → ∀ _ ∈ _, _))
  | .index _ | .workerStarts _ _ | .registerWorker _ | .removeWorker _ | .attach _ _
  | .lookupPane _ | .getHub _ | .connect _ _ | .insert _ | .hubEnds _ | .leave _ => isTrue trivial

/-! What is known of a client on its way. -/

def Sound (s : Streams) (c : StreamClient) : Prop :=
  match c.phase with
  | .reading | .gone => True
  | .resolved slot => ∃ session, s.homes.lookup c.header.pane = some (session,slot)
  | .routed slot path | .connecting slot path =>
    s.homes.lookup c.header.pane = some (c.header.session,slot) ∧ path = c.header.session
  | .inserting link | .connected link =>
    s.homes.lookup c.header.pane = some (c.header.session,link.slot) ∧
      s.Reaches link (c.header.session,link.slot)

structure Inv (s : Streams) : Prop where
  index : ∀ pane key, s.index.lookup pane = some key → s.homes.lookup pane = some key
  socks : ∀ session path, s.streamSocks.lookup session = some path → path = session
  clients : ∀ i c, s.clients.lookup i = some c → s.Sound c
  hubs : ∀ pane link, s.hubs.lookup pane = some link →
    ∃ key, s.homes.lookup pane = some key ∧ s.Reaches link key

theorem inv_start : start.Inv where
  index pane key h := by cases h
  socks session path h := by cases h
  clients i c h := by cases h
  hubs pane link h := by cases h

/-- No pane and no process changes its session. -/
structure Grows (s t : Streams) : Prop where
  homes : ∀ pane key, s.homes.lookup pane = some key → t.homes.lookup pane = some key
  procs : ∀ w session, s.procs.lookup w = some session → t.procs.lookup w = some session

variable {s t : Streams} {i : Nat} {c : StreamClient} {link : HubLink} {key : SlotKey}

theorem Grows.of_eq (hhomes : t.homes = s.homes) (hprocs : t.procs = s.procs) : s.Grows t where
  homes pane key h := by rwa [hhomes]
  procs w session h := by rwa [hprocs]

theorem Reaches.grows (h : s.Reaches link key) (hg : s.Grows t) : t.Reaches link key :=
  ⟨hg.procs _ _ h.1,h.2⟩

theorem Sound.grows (h : s.Sound c) (hg : s.Grows t) : t.Sound c := by
  obtain ⟨header,phase⟩ := c
  cases phase with
  | reading => trivial
  | resolved slot =>
    obtain ⟨session,hhome⟩ := h
    exact ⟨session,hg.homes _ _ hhome⟩
  | routed slot path => exact ⟨hg.homes _ _ h.1,h.2⟩
  | connecting slot path => exact ⟨hg.homes _ _ h.1,h.2⟩
  | inserting link => exact ⟨hg.homes _ _ h.1,h.2.grows hg⟩
  | connected link => exact ⟨hg.homes _ _ h.1,h.2.grows hg⟩
  | gone => trivial

/-- The steps of the index and of the workers leave the clients and the hubs alone. -/
theorem Inv.of_grows (h : s.Inv) (hg : s.Grows t)
    (hindex : ∀ pane key, t.index.lookup pane = some key → t.homes.lookup pane = some key)
    (hsocks : ∀ session path, t.streamSocks.lookup session = some path → path = session)
    (hclients : t.clients = s.clients) (hhubs : t.hubs = s.hubs) : t.Inv where
  index := hindex
  socks := hsocks
  clients j c hj := (h.clients j c (hclients ▸ hj)).grows hg
  hubs pane link hl := by
    obtain ⟨key,hhome,hreach⟩ := h.hubs pane link (hhubs ▸ hl)
    exact ⟨key,hg.homes _ _ hhome,hreach.grows hg⟩

/-- A step of one client. -/
theorem Inv.setClient (h : s.Inv) (c : StreamClient) (phase : StreamPhase)
    (hsound : s.Sound { c with phase }) : (s.setClient i c phase).Inv where
  index := h.index
  socks := h.socks
  clients j c' hj := by
    have hg : s.Grows (s.setClient i c phase) := .of_eq rfl rfl
    rcases Table.lookup_insert_eq_some.mp hj with ⟨-,rfl⟩ | ⟨-,hj⟩
    · exact hsound.grows hg
    · exact (h.clients j c' hj).grows hg
  hubs := h.hubs

/-- Of the index's operations only one that draws a UUID adds a home. -/
theorem Inv.indexStep {op : IndexOp} {ix : PaneIndex} (h : s.Inv)
    (hfresh : ∀ pane ∈ op.drawn, s.homes.lookup pane = none) (hix : s.index.step op = some ix) :
    ({ s with index := ix, homes := recordHome s.homes op ix } : Streams).Inv := by
  have hkeep : ∀ pane key, s.homes.lookup pane = some key →
      (recordHome s.homes op ix).lookup pane = some key := by
    intro pane key hhome
    unfold recordHome
    split
    · exact hhome
    · rename_i drawn hdrawn
      split
      · exact hhome
      · have hne : pane ≠ drawn := by
          rintro rfl
          rw [hfresh pane hdrawn] at hhome
          cases hhome
        rwa [AList.lookup_insert_ne hne]
  refine h.of_grows ⟨hkeep,fun _ _ hw => hw⟩ (fun pane key hp => ?_) h.socks rfl rfl
  rcases PaneIndex.lookup_of_step hix hp with hdrawn | hold
  · simp only [recordHome,hdrawn]
    rw [show ix.lookup pane = some key from hp]
    exact AList.lookup_insert _
  · exact hkeep pane key (h.index pane key hold)

theorem step_inv {op : StreamOp} (h : s.Inv) (hown : s.OwnSession op)
    (hstep : s.step op = some t) : t.Inv := by
  cases op with
  | index op =>
    simp only [step,Option.ite_none_right_eq_some,Option.map_eq_some_iff] at hstep
    obtain ⟨hfresh,ix,hix,rfl⟩ := hstep
    exact h.indexStep hfresh hix
  | workerStarts w session =>
    simp only [step,Option.ite_none_right_eq_some,Option.some.injEq] at hstep
    obtain ⟨hnew,rfl⟩ := hstep
    refine h.of_grows ⟨fun _ _ hp => hp,fun w' session' hw => ?_⟩ h.index h.socks rfl rfl
    have hne : w' ≠ w := by
      rintro rfl
      rw [hnew] at hw
      cases hw
    rwa [AList.lookup_insert_ne hne]
  | registerWorker w =>
    obtain ⟨session,-,rfl⟩ := Option.map_eq_some_iff.mp hstep
    refine h.of_grows (.of_eq rfl rfl) h.index (fun session' path hs => ?_) rfl rfl
    rcases Table.lookup_insert_eq_some.mp hs with ⟨rfl,rfl⟩ | ⟨-,hs⟩
    · rfl
    · exact h.socks session' path hs
  | removeWorker session =>
    obtain rfl := Option.some.inj hstep
    refine h.of_grows (.of_eq rfl rfl) h.index (fun session' path hs => ?_) rfl rfl
    exact h.socks session' path (Table.lookup_erase_eq_some.mp hs).2
  | attach i header =>
    simp only [step,Option.ite_none_right_eq_some,Option.some.injEq] at hstep
    obtain ⟨-,rfl⟩ := hstep
    exact h.setClient ⟨header,.reading⟩ .reading trivial
  | lookupPane i =>
    obtain ⟨c,hc,hstep⟩ := Option.bind_eq_some_iff.mp hstep
    split at hstep
    · split at hstep
      · rename_i session slot hlookup
        obtain rfl := Option.some.inj hstep
        exact h.setClient c (.resolved slot) ⟨session,h.index _ _ hlookup⟩
      · obtain rfl := Option.some.inj hstep
        exact h.setClient c .gone trivial
    · cases hstep
  | getStreamSock i =>
    obtain ⟨c,hc,hstep⟩ := Option.bind_eq_some_iff.mp hstep
    split at hstep
    · rename_i slot hphase
      split at hstep
      · rename_i path hpath
        obtain rfl := Option.some.inj hstep
        have hsound := h.clients i c hc
        simp only [Sound,hphase] at hsound
        obtain ⟨session,hhome⟩ := hsound
        have hsession : session = c.header.session :=
          hown c hc (by rw [hpath]; rfl) (session,slot) hhome
        exact h.setClient c (.routed slot path) ⟨hsession ▸ hhome,h.socks _ _ hpath⟩
      · obtain rfl := Option.some.inj hstep
        exact h.setClient c .gone trivial
    · cases hstep
  | getHub i =>
    obtain ⟨c,hc,hstep⟩ := Option.bind_eq_some_iff.mp hstep
    split at hstep
    · rename_i slot path hphase
      have hsound := h.clients i c hc
      simp only [Sound,hphase] at hsound
      split at hstep
      · rename_i link hlink
        obtain rfl := Option.some.inj hstep
        obtain ⟨key,hhome,hreach⟩ := h.hubs _ link hlink
        obtain rfl := Option.some.inj (hsound.1.symm.trans hhome)
        have hslot : link.slot = slot := hreach.2
        subst hslot
        exact h.setClient c (.connected link) ⟨hhome,hreach⟩
      · obtain rfl := Option.some.inj hstep
        exact h.setClient c (.connecting slot path) hsound
    · cases hstep
  | connect i worker =>
    obtain ⟨c,hc,hstep⟩ := Option.bind_eq_some_iff.mp hstep
    split at hstep
    · rename_i slot path w hphase _
      have hsound := h.clients i c hc
      simp only [Sound,hphase] at hsound
      simp only [Option.ite_none_right_eq_some,Option.some.injEq] at hstep
      obtain ⟨hproc,rfl⟩ := hstep
      obtain ⟨hhome,rfl⟩ := hsound
      exact h.setClient c (.inserting ⟨w,slot⟩) ⟨hhome,hproc,rfl⟩
    · obtain rfl := Option.some.inj hstep
      exact h.setClient c .gone trivial
    · cases hstep
  | insert i =>
    obtain ⟨c,hc,hstep⟩ := Option.bind_eq_some_iff.mp hstep
    split at hstep
    · rename_i link hphase
      have hsound := h.clients i c hc
      simp only [Sound,hphase] at hsound
      obtain rfl := Option.some.inj hstep
      have hset : (s.setClient i c (.connected link)).Inv := h.setClient c (.connected link) hsound
      refine ⟨hset.index,hset.socks,hset.clients,fun pane link' hl => ?_⟩
      rcases Table.lookup_insert_eq_some.mp hl with ⟨rfl,rfl⟩ | ⟨-,hl⟩
      · exact ⟨_,hsound.1,hsound.2⟩
      · exact h.hubs pane link' hl
    · cases hstep
  | hubEnds pane =>
    obtain rfl := Option.some.inj hstep
    refine ⟨h.index,h.socks,h.clients,fun pane' link hl => ?_⟩
    exact h.hubs pane' link (Table.lookup_erase_eq_some.mp hl).2
  | leave i =>
    obtain ⟨c,hc,hstep⟩ := Option.bind_eq_some_iff.mp hstep
    obtain rfl := Option.some.inj hstep
    exact h.setClient c .gone trivial

/-- A client that names another session which has a worker gets there: it joins the hub of
its pane or is the first to connect. -/
theorem crossed_header_connects {header : StreamHeader} {slot : UInt32} {session path : SessionKey}
    {w : Nat} (hc : s.clients.lookup i = some ⟨header,.resolved slot⟩)
    (hhome : s.homes.lookup header.pane = some (session,slot)) (hcross : session ≠ header.session)
    (hsock : s.streamSocks.lookup header.session = some path)
    (hproc : s.procs.lookup w = some path) :
    ∃ ops t, exec step s ops = some t ∧ ¬t.Named := by
  have hnot : ∀ t : Streams, t.homes = s.homes →
      (∃ link, t.clients.lookup i = some ⟨header,.connected link⟩) → ¬t.Named := by
    rintro t hhomes ⟨link,hlink⟩ hnamed
    have hown := (hnamed.clients i _ link hlink rfl).1
    rw [hhomes,hhome] at hown
    exact hcross (congrArg Prod.fst (Option.some.inj hown))
  cases hhub : s.hubs.lookup header.pane with
  | some link =>
    refine ⟨[.getStreamSock i,.getHub i],s.setClient i ⟨header,.resolved slot⟩ (.routed slot path)
      |>.setClient i ⟨header,.routed slot path⟩ (.connected link),?_,hnot _ rfl ⟨link,?_⟩⟩
    · simp [step,stepClient,setClient,hc,hsock,hhub]
    · exact AList.lookup_insert _
  | none =>
    refine ⟨[.getStreamSock i,.getHub i,.connect i (some w),.insert i],
      { (s.setClient i ⟨header,.resolved slot⟩ (.routed slot path)
        |>.setClient i ⟨header,.routed slot path⟩ (.connecting slot path)
        |>.setClient i ⟨header,.connecting slot path⟩ (.inserting ⟨w,slot⟩)
        |>.setClient i ⟨header,.inserting ⟨w,slot⟩⟩ (.connected ⟨w,slot⟩)) with
          hubs := s.hubs.insert header.pane ⟨w,slot⟩ },?_,hnot _ rfl ⟨⟨w,slot⟩,?_⟩⟩
    · simp [step,stepClient,setClient,hc,hsock,hhub,hproc]
    · exact AList.lookup_insert _

theorem Inv.named (h : s.Inv) : s.Named where
  index := h.index
  clients i c link hc hphase := by
    have hsound := h.clients i c hc
    simp only [Sound,hphase] at hsound
    exact hsound
  hubs := h.hubs

end Streams

/-- In a run whose clients each name the session of their pane, or one without a worker, no
client is connected to another pane than its own. -/
theorem streams_reach_own_pane {ops : List StreamOp}
    (h : Along Streams.step Streams.OwnSession .start ops) :
    Always Streams.step Streams.Named .start ops := by
  have hinv := h.invariant (fun s op t hs hown hstep => Streams.step_inv hs hown hstep)
    Streams.inv_start
  exact hinv.mono fun s hs => hs.named

/-- Two sessions with a pane each. The first client names the second session's pane in the
first session, the second one names it in its own. -/
def crossedHeader (session : SessionKey) : List StreamOp :=
  [.workerStarts 0 "a",.registerWorker 0,.workerStarts 1 "b",.registerWorker 1,
    .index (.allocPane "a" ⟨1⟩),.index (.allocPane "b" ⟨2⟩),.attach 0 ⟨session,⟨2⟩⟩,.lookupPane 0,
    .getStreamSock 0,.getHub 0,.connect 0 (some (if session = "a" then 0 else 1)),.insert 0,
    .attach 1 ⟨"b",⟨2⟩⟩,.lookupPane 1,.getStreamSock 1,.getHub 1]

theorem streams_reach_named_session :
    Always Streams.step Streams.Named .start (crossedHeader "b") :=
  streams_reach_own_pane (by decide)

/-- Both clients read and type into the pane of the first session. -/
theorem crossed_header_other_pane :
    ¬∀ ops, Always Streams.step Streams.Named .start ops := by
  intro h
  obtain ⟨t,ht⟩ := Option.isSome_iff_exists.mp
    (show (exec Streams.step .start (crossedHeader "a")).isSome by decide)
  have hnamed := (h (crossedHeader "a")).last ht
  have hlink : (exec Streams.step .start (crossedHeader "a")).bind (fun t => t.clients.lookup 1) =
      some ⟨⟨"b",⟨2⟩⟩,.connected ⟨0,0⟩⟩ := by decide
  have hproc : (exec Streams.step .start (crossedHeader "a")).bind (fun t => t.procs.lookup 0) =
      some "a" := by decide
  rw [ht,Option.bind_some] at hlink hproc
  have hown := (hnamed.clients 1 _ ⟨0,0⟩ hlink rfl).2.1
  rw [hproc] at hown
  exact absurd hown (by decide)

end Pyre.Supervisor
