import Pyre.Stream.Attach

/-!
Attaching to a pane of a worker. The worker serves each stream connection from
the pane's ring and broadcast channel; the supervisor opens one connection for a
pane, and its hub keeps a snapshot and a broadcast channel of its own, from which
it serves the clients. Both ends subscribe first and take the snapshot then.
-/

set_option autoImplicit false

namespace Pyre.Stream
open Base

/-- Both broadcast channels have this capacity. -/
def mirrorChannelCap : Nat := 256

def snapshotCap : Nat := 256*1024

/-- A subscriber of a feed: the worker's `handle_stream_conn`, and the part of
`proxy_stream_to_worker` that serves a client. -/
inductive Subscriber where
  | idle
  | subscribed (rx : Receiver Bytes)
  | snapped (snap : Bytes) (rx : Receiver Bytes)
  | forwarding (snap : Bytes) (rx : Receiver Bytes)
  | closed (snap : Bytes) (rx : Receiver Bytes)

inductive SubscriberAction where
  | subscribe
  | snapshot
  | send
  | recv
  | hangUp
  deriving DecidableEq, Repr

namespace Subscriber

def receiver : Subscriber → Option (Receiver Bytes)
  | .idle => none
  | .subscribed rx | .snapped _ rx | .forwarding _ rx | .closed _ rx => some rx

/-- The frames written so far, the snapshot's first. -/
def frames : Subscriber → List Bytes
  | .idle | .subscribed _ | .snapped _ _ => []
  | .forwarding snap rx | .closed snap rx => snap :: rx.got

/-- One step on a feed and its kept copy, with the frames the step writes. -/
def step (feed : Feed Bytes) (copy : Bytes) :
    Subscriber → SubscriberAction → Option (Subscriber × List Bytes)
  | .idle,.subscribe => some (.subscribed (.subscribe feed.sent),[])
  | .subscribed rx,.snapshot => some (.snapped copy rx,[])
  | .snapped snap rx,.send => some (.forwarding snap rx,[snap])
  | .forwarding snap rx,.recv =>
    (rx.recv mirrorChannelCap feed.sent).map fun rx' =>
      (.forwarding snap rx',rx'.got.drop rx.got.length)
  | .forwarding snap rx,.hangUp => some (.closed snap rx,[])
  | _,_ => none

def KeepsUp (feed : Feed Bytes) (sub : Subscriber) (a : SubscriberAction) : Prop :=
  a = .recv → ∀ rx ∈ sub.receiver, rx.lagged mirrorChannelCap feed.sent = false

/-- No byte has been recorded in the feed beyond the point of the subscription
when the copy is taken. -/
def CopiesInStep (feed : Feed Bytes) (sub : Subscriber) (a : SubscriberAction) : Prop :=
  a = .snapshot → ∀ rx ∈ sub.receiver, (feed.recorded.drop rx.next).flatten = []

instance (feed : Feed Bytes) (sub : Subscriber) : DecidablePred (KeepsUp feed sub) :=
  fun _ => inferInstanceAs (Decidable (_ → _))

instance (feed : Feed Bytes) (sub : Subscriber) : DecidablePred (CopiesInStep feed sub) :=
  fun _ => inferInstanceAs (Decidable (_ → _))

/-- What is received follows the copy without a seam. -/
def InStep (feed : Feed Bytes) : Subscriber → Prop
  | .idle => True
  | .subscribed rx => rx.Follows rx.next feed.sent
  | .snapped snap rx =>
    rx.Follows rx.next feed.sent ∧ snap <:+ (feed.sent.take rx.next).flatten
  | .forwarding snap rx | .closed snap rx =>
    ∃ start, rx.Follows start feed.sent ∧ snap <:+ (feed.sent.take start).flatten

variable {feed f g : Feed Bytes} {copy : Bytes} {sub sub' : Subscriber} {out : List Bytes}

/-- The same for any relation of the copy to what was sent up to the subscription. -/
def CopyFits (fits : Bytes → Bytes → Prop) (feed : Feed Bytes) : Subscriber → Prop
  | .idle => True
  | .subscribed rx => rx.Follows rx.next feed.sent
  | .snapped snap rx =>
    rx.Follows rx.next feed.sent ∧ fits snap (feed.sent.take rx.next).flatten
  | .forwarding snap rx | .closed snap rx =>
    ∃ start, rx.Follows start feed.sent ∧ fits snap (feed.sent.take start).flatten

theorem inStep_iff_copyFits : sub.InStep feed ↔ sub.CopyFits (· <:+ ·) feed := by
  cases sub <;> exact Iff.rfl

variable {fits : Bytes → Bytes → Prop}

theorem CopyFits.mono (h : sub.CopyFits fits f) (hle : f.Le g) : sub.CopyFits fits g := by
  cases sub with
  | idle => trivial
  | subscribed rx => exact Receiver.Follows.mono h hle.sent
  | snapped snap rx =>
    refine ⟨h.1.mono hle.sent,?_⟩
    rw [Feed.take_sent_mono hle h.1.next_le]
    exact h.2
  | forwarding snap rx | closed snap rx =>
    obtain ⟨start,hrx,hsnap⟩ := h
    refine ⟨start,hrx.mono hle.sent,?_⟩
    rwa [Feed.take_sent_mono hle (hrx.start_le.trans hrx.next_le)]

theorem InStep.mono (h : sub.InStep f) (hle : f.Le g) : sub.InStep g :=
  inStep_iff_copyFits.mpr ((inStep_iff_copyFits.mp h).mono hle)

theorem InStep.frames_in_feed (h : sub.InStep feed) :
    sub.frames.flatten <:+: feed.recorded.flatten := by
  cases sub with
  | idle | subscribed rx | snapped snap rx => exact List.nil_infix
  | forwarding snap rx | closed snap rx =>
    obtain ⟨start,hrx,hsnap⟩ := h
    exact (hrx.seam hsnap).trans feed.flatten_sent_in_recorded

theorem step_frames {a : SubscriberAction} (h : sub.step feed copy a = some (sub',out))
    (hin : sub.InStep feed) : sub'.frames = sub.frames ++ out := by
  unfold step at h
  split at h
  · cases h; rfl
  · cases h; rfl
  · cases h
    simp [frames,hin.1.got_nil]
  · obtain ⟨rx',hrecv,he⟩ := Option.map_eq_some_iff.mp h
    cases he
    obtain ⟨new,hnew⟩ := Receiver.got_prefix_recv hrecv
    simp [frames,← hnew]
  · cases h
    simp [frames]
  · cases h

theorem step_copyFits {a : SubscriberAction} (h : sub.step feed copy a = some (sub',out))
    (hin : sub.CopyFits fits feed) (hup : KeepsUp feed sub a) (hcopy : CopiesInStep feed sub a)
    (hfits : fits copy feed.recorded.flatten) : sub'.CopyFits fits feed := by
  unfold step at h
  split at h
  · cases h
    exact Receiver.follows_subscribe feed.sent
  · cases h
    rename_i rx
    -- what was recorded up to the subscription is all that was recorded
    have hall : (feed.recorded.take rx.next).flatten = feed.recorded.flatten := by
      have hrest : (feed.recorded.drop rx.next).flatten = [] := hcopy rfl rx rfl
      conv_rhs => rw [← List.take_append_drop rx.next feed.recorded,List.flatten_append,hrest,
        List.append_nil]
    refine ⟨hin,?_⟩
    rwa [← Feed.take_recorded hin.next_le,hall]
  · cases h
    exact ⟨_,hin⟩
  · rename_i snap rx
    obtain ⟨rx',hrecv,he⟩ := Option.map_eq_some_iff.mp h
    cases he
    obtain ⟨start,hrx,hsnap⟩ := hin
    exact ⟨start,hrx.recv (hup rfl rx rfl) hrecv,hsnap⟩
  · cases h
    exact hin
  · cases h

theorem step_inStep {a : SubscriberAction} (h : sub.step feed copy a = some (sub',out))
    (hin : sub.InStep feed) (hup : KeepsUp feed sub a) (hcopy : CopiesInStep feed sub a)
    (hsuffix : copy <:+ feed.recorded.flatten) : sub'.InStep feed :=
  inStep_iff_copyFits.mpr (step_copyFits h (inStep_iff_copyFits.mp hin) hup hcopy hsuffix)

end Subscriber

/-- The hub's task appends each frame of the worker to its snapshot, of which it
keeps the end. -/
def appendSnapshot (snap data : Bytes) : Bytes :=
  if snap.length + data.length ≤ snapshotCap then snap ++ data
  else (snap ++ data).drop ((snap ++ data).length - snapshotCap)

/-- The same for any capacity; there it is a constant. -/
def appendCapped (cap : Nat) (snap data : Bytes) : Bytes :=
  if snap.length+data.length ≤ cap then snap ++ data
  else (snap ++ data).drop ((snap ++ data).length-cap)

theorem appendCapped_snapshotCap : appendCapped snapshotCap = appendSnapshot := rfl

theorem appendCapped_eq (cap : Nat) (snap data : Bytes) :
    appendCapped cap snap data = (snap ++ data).rtake cap := by
  unfold appendCapped
  split
  · rw [rtake_of_length_le]
    rwa [List.length_append]
  · rfl

theorem appendSnapshot_eq (snap data : Bytes) :
    appendSnapshot snap data = (snap ++ data).rtake snapshotCap := by
  rw [← appendCapped_snapshotCap,appendCapped_eq]

/-- `PaneMirrorHub`, with the worker's end of its connection and the frames in
between. The feed has what was appended to the snapshot and what was broadcast. -/
structure Hub where
  conn : Subscriber
  inbox : List Bytes
  feed : Feed Bytes
  lastSnapshot : Bytes
  snapshot_eq : lastSnapshot = feed.recorded.flatten.rtake snapshotCap

namespace Hub

def new : Hub := ⟨.idle,[],.empty,[],by simp [Feed.empty]⟩

def serve (h : Hub) (o : Output) (a : SubscriberAction) : Option Hub :=
  (h.conn.step o.feed o.ring.snapshot a).map fun r =>
    { h with conn := r.1, inbox := h.inbox ++ r.2 }

/-- The hub's task is back at its read: the last frame has been broadcast. -/
def append (h : Hub) : Option Hub :=
  match h.inbox with
  | [] => none
  | data :: rest =>
    if h.feed.pending = none then
      some { h with
        inbox := rest
        feed := h.feed.record data
        lastSnapshot := appendSnapshot h.lastSnapshot data
        snapshot_eq := by
          rw [appendSnapshot_eq,h.snapshot_eq,rtake_rtake_append,Feed.recorded_record,
            List.flatten_append,List.flatten_singleton] }
    else none

def rebroadcast (h : Hub) : Option Hub :=
  match hf : h.feed.broadcast with
  | none => none
  | some f => some { h with
      feed := f
      snapshot_eq := by rw [Feed.recorded_broadcast hf,h.snapshot_eq] }

/-- The worker's stream has ended and been read to its end. -/
def ended (h : Hub) : Bool :=
  match h.conn with
  | .closed _ _ => h.inbox.isEmpty
  | _ => false

/-- The frames written by the worker are the recorded ones and those in between. -/
structure InStep (o : Output) (h : Hub) : Prop where
  conn : h.conn.InStep o.feed
  frames : h.conn.frames = h.feed.recorded ++ h.inbox

variable {o o' : Output} {h h' : Hub}

theorem InStep.mono (hin : h.InStep o) (hle : o.feed.Le o'.feed) : h.InStep o' :=
  ⟨hin.conn.mono hle,hin.frames⟩

theorem InStep.recorded_in_stream (hin : h.InStep o) :
    h.feed.recorded.flatten <:+: o.stream := by
  have hframes := hin.conn.frames_in_feed
  rw [hin.frames,List.flatten_append] at hframes
  exact (List.prefix_append _ _).isInfix.trans hframes

theorem serve_inStep {a : SubscriberAction} (hs : h.serve o a = some h') (hin : h.InStep o)
    (hup : Subscriber.KeepsUp o.feed h.conn a) (hcopy : Subscriber.CopiesInStep o.feed h.conn a) :
    h'.InStep o ∧ h'.feed = h.feed := by
  obtain ⟨⟨conn,out⟩,hstep,rfl⟩ := Option.map_eq_some_iff.mp hs
  refine ⟨⟨Subscriber.step_inStep hstep hin.conn hup hcopy o.snapshot_suffix,?_⟩,rfl⟩
  rw [Subscriber.step_frames hstep hin.conn,hin.frames,List.append_assoc]

theorem append_inStep (hs : h.append = some h') (hin : h.InStep o) :
    h'.InStep o ∧ h.feed.Le h'.feed := by
  unfold append at hs
  split at hs
  · cases hs
  · rename_i data rest hinbox
    rw [Option.ite_none_right_eq_some,Option.some.injEq] at hs
    obtain ⟨-,rfl⟩ := hs
    refine ⟨⟨hin.conn,?_⟩,h.feed.le_record data⟩
    rw [hin.frames,hinbox,Feed.recorded_record,List.append_assoc,List.singleton_append]

theorem rebroadcast_inStep (hs : h.rebroadcast = some h') (hin : h.InStep o) :
    h'.InStep o ∧ h.feed.Le h'.feed := by
  unfold rebroadcast at hs
  split at hs
  · cases hs
  · rename_i f hf
    obtain rfl := Option.some.inj hs
    refine ⟨⟨hin.conn,?_⟩,Feed.le_broadcast hf⟩
    rw [hin.frames,Feed.recorded_broadcast hf]

end Hub

/-- A client's stream connection to the supervisor. -/
inductive Client where
  | connecting
  | missed
  | attached (hub : Nat) (sub : Subscriber)

/-- The data of the frames the client gets, in order. -/
def Client.received : Client → Bytes
  | .connecting | .missed => []
  | .attached _ sub => sub.frames.flatten

/-- A pane of a worker and all that streams it. `registry` is the pane's entry in
the `PaneMirrorRegistry`, as the index of a hub. -/
structure Mirror where
  output : Output
  hubs : List Hub
  registry : Option Nat
  clients : List Client

namespace Mirror

inductive Action where
  | push (chunk : Bytes)
  | broadcast
  | serve (hub : Nat) (a : SubscriberAction)
  | append (hub : Nat)
  | rebroadcast (hub : Nat)
  | removeHub (hub : Nat)
  | connect
  | resolve (client : Nat)
  | openHub (client : Nat)
  | client (client : Nat) (a : SubscriberAction)
  deriving DecidableEq, Repr

def start : Mirror := ⟨.new (256*1024),[],none,[]⟩

def setHub (s : Mirror) (i : Nat) (h : Hub) : Mirror := { s with hubs := s.hubs.set i h }

def setClient (s : Mirror) (j : Nat) (c : Client) : Mirror :=
  { s with clients := s.clients.set j c }

def step (s : Mirror) : Action → Option Mirror
  | .push chunk => (s.output.push chunk).map fun o => { s with output := o }
  | .broadcast => s.output.broadcast.map fun o => { s with output := o }
  | .serve i a => s.hubs[i]?.bind fun h => (h.serve s.output a).map (s.setHub i)
  | .append i => s.hubs[i]?.bind fun h => h.append.map (s.setHub i)
  | .rebroadcast i => s.hubs[i]?.bind fun h => h.rebroadcast.map (s.setHub i)
  | .removeHub i =>
    s.hubs[i]?.bind fun h => if h.ended then some { s with registry := none } else none
  | .connect => some { s with clients := s.clients ++ [.connecting] }
  | .resolve j =>
    match s.clients[j]? with
    | some .connecting =>
      match s.registry with
      | some i => some (s.setClient j (.attached i .idle))
      | none => some (s.setClient j .missed)
    | _ => none
  | .openHub j =>
    match s.clients[j]? with
    | some .missed =>
      some { s with
        hubs := s.hubs ++ [.new]
        registry := some s.hubs.length
        clients := s.clients.set j (.attached s.hubs.length .idle) }
    | _ => none
  | .client j a =>
    match s.clients[j]? with
    | some (.attached i sub) => s.hubs[i]?.bind fun h =>
      (sub.step h.feed h.lastSnapshot a).map fun r => s.setClient j (.attached i r.1)
    | _ => none

/-- The subscriber that takes the step, with its feed: a connection on the pane's
output, or a client on its hub. -/
def mover (s : Mirror) : Action → Option (Feed Bytes × Subscriber × SubscriberAction)
  | .serve i a => s.hubs[i]?.map fun h => (s.output.feed,h.conn,a)
  | .client j a =>
    match s.clients[j]? with
    | some (.attached i sub) => s.hubs[i]?.map fun h => (h.feed,sub,a)
    | _ => none
  | _ => none

/-- No receiver lags. -/
def KeepsUp (s : Mirror) (a : Action) : Prop :=
  ∀ m ∈ s.mover a, Subscriber.KeepsUp m.1 m.2.1 m.2.2

/-- Whoever takes a snapshot, worker or client, takes it before a byte is recorded
beyond the point of its subscription. -/
def CopiesInStep (s : Mirror) (a : Action) : Prop :=
  ∀ m ∈ s.mover a, Subscriber.CopiesInStep m.1 m.2.1 m.2.2

instance (s : Mirror) : DecidablePred s.KeepsUp :=
  fun a => inferInstanceAs (Decidable (∀ m ∈ s.mover a, Subscriber.KeepsUp _ _ _))

instance (s : Mirror) : DecidablePred s.CopiesInStep :=
  fun a => inferInstanceAs (Decidable (∀ m ∈ s.mover a, Subscriber.CopiesInStep _ _ _))

/-- What each client receives is a contiguous piece of the PTY's output. -/
def Seamless (s : Mirror) : Prop := ∀ c ∈ s.clients, c.received <:+: s.output.stream

instance (s : Mirror) : Decidable s.Seamless := inferInstanceAs (Decidable (∀ c ∈ _, _))

structure Inv (s : Mirror) : Prop where
  hubs : ∀ h ∈ s.hubs, h.InStep s.output
  registry : ∀ i ∈ s.registry, i < s.hubs.length
  clients : ∀ i sub, .attached i sub ∈ s.clients → ∃ h, s.hubs[i]? = some h ∧ sub.InStep h.feed

theorem Inv.seamless {s : Mirror} (hi : s.Inv) : s.Seamless := by
  intro c hc
  cases c with
  | connecting | missed => exact List.nil_infix
  | attached i sub =>
    obtain ⟨h,hget,hsub⟩ := hi.clients i sub hc
    have hmem : h ∈ s.hubs := List.mem_of_getElem? hget
    exact hsub.frames_in_feed.trans (hi.hubs h hmem).recorded_in_stream

theorem Inv.setHub {s : Mirror} (hi : s.Inv) {i : Nat} {h h' : Hub} (hget : s.hubs[i]? = some h)
    (hin : h'.InStep s.output) (hle : h.feed.Le h'.feed) : (s.setHub i h').Inv := by
  obtain ⟨hlt,-⟩ := List.getElem?_eq_some_iff.mp hget
  refine ⟨?_,?_,?_⟩
  · intro g hg
    rcases List.mem_or_eq_of_mem_set hg with hg | rfl
    · exact hi.hubs g hg
    · exact hin
  · intro j hj
    simpa [Mirror.setHub] using hi.registry j hj
  · intro j sub hc
    obtain ⟨g,hg,hsub⟩ := hi.clients j sub hc
    by_cases hij : i = j
    · subst hij
      obtain rfl : h = g := Option.some.inj (hget.symm.trans hg)
      exact ⟨h',by simp [Mirror.setHub,hlt],hsub.mono hle⟩
    · exact ⟨g,by simpa [Mirror.setHub,List.getElem?_set_ne hij] using hg,hsub⟩

theorem Inv.setClient {s : Mirror} (hi : s.Inv) {j : Nat} {c : Client}
    (hc : ∀ i sub, c = .attached i sub → ∃ h, s.hubs[i]? = some h ∧ sub.InStep h.feed) :
    (s.setClient j c).Inv := by
  refine ⟨hi.hubs,hi.registry,?_⟩
  intro i sub hmem
  rcases List.mem_or_eq_of_mem_set hmem with hmem | heq
  · exact hi.clients i sub hmem
  · exact hc i sub heq.symm

theorem Inv.output {s : Mirror} (hi : s.Inv) {o : Output} (hle : s.output.feed.Le o.feed) :
    Inv { s with output := o } :=
  ⟨fun h hh => (hi.hubs h hh).mono hle,hi.registry,hi.clients⟩

theorem step_inv (s : Mirror) (a : Action) (s' : Mirror) (hi : s.Inv)
    (hc : s.KeepsUp a ∧ s.CopiesInStep a) (h : s.step a = some s') : s'.Inv := by
  obtain ⟨hup,hcopy⟩ := hc
  cases a with
  | push chunk =>
    obtain ⟨o,ho,rfl⟩ := Option.map_eq_some_iff.mp h
    exact hi.output (Output.le_push ho)
  | broadcast =>
    obtain ⟨o,ho,rfl⟩ := Option.map_eq_some_iff.mp h
    exact hi.output (Output.le_broadcast ho)
  | serve i a =>
    obtain ⟨hub,hget,h⟩ := Option.bind_eq_some_iff.mp h
    obtain ⟨hub',hserve,rfl⟩ := Option.map_eq_some_iff.mp h
    have hmover : s.mover (.serve i a) = some (s.output.feed,hub.conn,a) := by simp [mover,hget]
    obtain ⟨hin,hfeed⟩ := Hub.serve_inStep hserve (hi.hubs hub (List.mem_of_getElem? hget))
      (hup _ hmover) (hcopy _ hmover)
    exact hi.setHub hget hin (hfeed ▸ Feed.le_refl _)
  | append i =>
    obtain ⟨hub,hget,h⟩ := Option.bind_eq_some_iff.mp h
    obtain ⟨hub',happend,rfl⟩ := Option.map_eq_some_iff.mp h
    obtain ⟨hin,hle⟩ := Hub.append_inStep happend (hi.hubs hub (List.mem_of_getElem? hget))
    exact hi.setHub hget hin hle
  | rebroadcast i =>
    obtain ⟨hub,hget,h⟩ := Option.bind_eq_some_iff.mp h
    obtain ⟨hub',hsend,rfl⟩ := Option.map_eq_some_iff.mp h
    obtain ⟨hin,hle⟩ := Hub.rebroadcast_inStep hsend (hi.hubs hub (List.mem_of_getElem? hget))
    exact hi.setHub hget hin hle
  | removeHub i =>
    obtain ⟨hub,-,h⟩ := Option.bind_eq_some_iff.mp h
    rw [Option.ite_none_right_eq_some,Option.some.injEq] at h
    obtain ⟨-,rfl⟩ := h
    exact ⟨hi.hubs,by simp,hi.clients⟩
  | connect =>
    cases h
    refine ⟨hi.hubs,hi.registry,fun i sub hmem => ?_⟩
    exact hi.clients i sub (by simpa using hmem)
  | resolve j =>
    simp only [step] at h
    split at h
    · split at h <;> cases h
      · rename_i i hreg
        refine hi.setClient fun i' sub heq => ?_
        cases heq
        have hlt : i < s.hubs.length := hi.registry i hreg
        exact ⟨s.hubs[i],List.getElem?_eq_getElem hlt,trivial⟩
      · exact hi.setClient fun i sub heq => by cases heq
    · cases h
  | openHub j =>
    simp only [step] at h
    split at h <;> cases h
    refine ⟨?_,?_,?_⟩
    · intro hub hmem
      rcases List.mem_append.mp hmem with hmem | hmem
      · exact hi.hubs hub hmem
      · obtain rfl := List.mem_singleton.mp hmem
        exact ⟨trivial,rfl⟩
    · rintro i ⟨⟩
      simp
    · intro i sub hmem
      rcases List.mem_or_eq_of_mem_set hmem with hmem | heq
      · obtain ⟨hub,hget,hsub⟩ := hi.clients i sub hmem
        obtain ⟨hlt,-⟩ := List.getElem?_eq_some_iff.mp hget
        exact ⟨hub,by rwa [List.getElem?_append_left hlt],hsub⟩
      · cases heq
        exact ⟨.new,by simp,trivial⟩
  | client j a =>
    simp only [step] at h
    split at h
    · rename_i i sub hcl
      obtain ⟨hub,hget,h⟩ := Option.bind_eq_some_iff.mp h
      obtain ⟨⟨sub',out⟩,hstep,rfl⟩ := Option.map_eq_some_iff.mp h
      have hmover : s.mover (.client j a) = some (hub.feed,sub,a) := by simp [mover,hcl,hget]
      obtain ⟨hub₀,hget₀,hsub⟩ := hi.clients i sub (List.mem_of_getElem? hcl)
      obtain rfl : hub = hub₀ := Option.some.inj (hget.symm.trans hget₀)
      have hsuffix : hub.lastSnapshot <:+ hub.feed.recorded.flatten :=
        hub.snapshot_eq ▸ rtake_suffix _ _
      have hsub' := Subscriber.step_inStep hstep hsub (hup _ hmover) (hcopy _ hmover) hsuffix
      refine hi.setClient fun i' sub₁ heq => ?_
      cases heq
      exact ⟨hub,hget,hsub'⟩
    · cases h

theorem mirror_seamless (actions : List Action) (hup : Along step KeepsUp start actions)
    (hcopy : Along step CopiesInStep start actions) :
    Always step Seamless start actions := by
  have hstart : start.Inv := ⟨by simp [start],by simp [start],by simp [start]⟩
  have hall := (hup.and hcopy).invariant step_inv hstart
  exact hall.mono fun s hs => hs.seamless

theorem mirror_seamless_quiet :
    Always step Seamless start
      [.push [97],.broadcast,.connect,.resolve 0,.openHub 0,.serve 0 .subscribe,
        .serve 0 .snapshot,.serve 0 .send,.append 0,.rebroadcast 0,.client 0 .subscribe,
        .client 0 .snapshot,.client 0 .send,.push [98],.broadcast,.serve 0 .recv,.append 0,
        .rebroadcast 0,.client 0 .recv] :=
  mirror_seamless _ (by decide) (by decide)

/-- A chunk read between the worker's subscription and its snapshot comes twice. -/
theorem chunk_repeated_at_seam :
    ¬∀ actions, Along step KeepsUp start actions → Always step Seamless start actions := by
  intro h
  have hrun := h [.connect,.resolve 0,.openHub 0,.serve 0 .subscribe,.push [97],
    .serve 0 .snapshot,.serve 0 .send,.append 0,.rebroadcast 0,.client 0 .subscribe,
    .client 0 .snapshot,.client 0 .send,.broadcast,.serve 0 .recv,.append 0,
    .rebroadcast 0,.client 0 .recv] (by decide)
  exact absurd (hrun.last rfl) (by decide)

end Mirror

end Pyre.Stream
