import Pyre.Base.Run
import Pyre.Stream.RingBuf

/-!
Attaching to a pane of a daemon of its own: the PTY reader, which pushes a chunk
into the ring and then broadcasts it, and `handle_stream`, which takes the ring's
snapshot, sends it, subscribes and forwards.
-/

set_option autoImplicit false

namespace Pyre.Stream
open Base

/-- What the PTY reader writes: the ring and the broadcast channel of a pane. The
ring holds the end of all that was pushed. -/
structure Output where
  ring : RingBuf
  feed : Feed Bytes
  ring_eq : ring.snapshot = feed.recorded.flatten.rtake ring.cap

namespace Output

def new (cap : Nat) : Output := ⟨.new cap,.empty,by simp [Feed.empty]⟩

/-- The bytes read from the PTY so far. -/
def stream (o : Output) : Bytes := o.feed.recorded.flatten

/-- The reader reads at most this many bytes at a time. -/
def readBuf : Nat := 4096

/-- The reader is back at its read: the last chunk has been broadcast. -/
def push (o : Output) (chunk : Bytes) : Option Output :=
  if chunk ≠ [] ∧ chunk.length ≤ readBuf ∧ o.feed.pending = none then
    some ⟨o.ring.push chunk,o.feed.record chunk,RingBuf.snapshot_push_stream o.ring_eq chunk⟩
  else none

def broadcast (o : Output) : Option Output :=
  match h : o.feed.broadcast with
  | none => none
  | some f => some ⟨o.ring,f,by rw [Feed.recorded_broadcast h,o.ring_eq]⟩

theorem le_push {o o' : Output} {chunk : Bytes} (h : o.push chunk = some o') :
    o.feed.Le o'.feed := by
  rw [push,Option.ite_none_right_eq_some,Option.some.injEq] at h
  obtain ⟨-,rfl⟩ := h
  exact o.feed.le_record chunk

theorem le_broadcast {o o' : Output} (h : o.broadcast = some o') : o.feed.Le o'.feed := by
  unfold broadcast at h
  split at h
  · cases h
  · rename_i f hf
    obtain rfl := Option.some.inj h
    exact Feed.le_broadcast hf

theorem cap_push {o o' : Output} {chunk : Bytes} (h : o.push chunk = some o') :
    o'.ring.cap = o.ring.cap := by
  rw [push,Option.ite_none_right_eq_some,Option.some.injEq] at h
  obtain ⟨-,rfl⟩ := h
  exact RingBuf.cap_push _ _

theorem cap_broadcast {o o' : Output} (h : o.broadcast = some o') : o'.ring.cap = o.ring.cap := by
  unfold broadcast at h
  split at h
  · cases h
  · obtain rfl := Option.some.inj h
    rfl

theorem snapshot_suffix (o : Output) : o.ring.snapshot <:+ o.feed.recorded.flatten := by
  rw [o.ring_eq]
  exact rtake_suffix _ _

end Output

/-- `handle_stream`; `mark` counts the chunks pushed when the snapshot was taken. -/
inductive Handler where
  | opened
  | snapped (snap : Bytes) (mark : Nat)
  | replayed (snap : Bytes) (mark : Nat)
  | forwarding (snap : Bytes) (mark : Nat) (rx : Receiver Bytes)
  | closed (snap : Bytes) (mark : Nat) (rx : Receiver Bytes)

namespace Handler

def mark : Handler → Option Nat
  | .opened => none
  | .snapped _ mark | .replayed _ mark | .forwarding _ mark _ | .closed _ mark _ => some mark

def receiver : Handler → Option (Receiver Bytes)
  | .forwarding _ _ rx | .closed _ _ rx => some rx
  | _ => none

/-- The data of the live frames the client gets. -/
def live (h : Handler) : Bytes := (h.receiver.map fun rx => rx.got.flatten).getD []

/-- The data of all frames the client gets, in order. -/
def received : Handler → Bytes
  | .opened | .snapped _ _ => []
  | .replayed snap _ => snap
  | .forwarding snap _ rx | .closed snap _ rx => snap ++ rx.got.flatten

end Handler

structure Attach where
  output : Output
  handler : Handler

namespace Attach

inductive Action where
  | push (chunk : Bytes)
  | broadcast
  | snapshot
  | send
  | subscribe
  | recv
  | close
  deriving DecidableEq, Repr

def ringCap : Nat := 64*1024

def outChannelCap : Nat := 1024

def start : Attach := ⟨.new ringCap,.opened⟩

def step (s : Attach) : Action → Option Attach
  | .push chunk => (s.output.push chunk).map fun o => { s with output := o }
  | .broadcast => s.output.broadcast.map fun o => { s with output := o }
  | .snapshot =>
    match s.handler with
    | .opened =>
      let mark := s.output.feed.recorded.length
      some { s with handler := .snapped s.output.ring.snapshot mark }
    | _ => none
  | .send =>
    match s.handler with
    | .snapped snap mark => some { s with handler := .replayed snap mark }
    | _ => none
  | .subscribe =>
    match s.handler with
    | .replayed snap mark =>
      some { s with handler := .forwarding snap mark (.subscribe s.output.feed.sent) }
    | _ => none
  | .recv =>
    match s.handler with
    | .forwarding snap mark rx =>
      (rx.recv outChannelCap s.output.feed.sent).map fun rx =>
        { s with handler := .forwarding snap mark rx }
    | _ => none
  | .close =>
    match s.handler with
    | .forwarding snap mark rx => some { s with handler := .closed snap mark rx }
    | _ => none

/-- The subscriber does not lag. -/
def KeepsUp (s : Attach) (a : Action) : Prop :=
  a = .recv → ∀ rx ∈ s.handler.receiver, rx.lagged outChannelCap s.output.feed.sent = false

/-- At the subscription just the chunks that are in the snapshot have been broadcast. -/
def SubscribesAtMark (s : Attach) (a : Action) : Prop :=
  a = .subscribe → ∀ mark ∈ s.handler.mark, s.output.feed.sent.length = mark

instance (s : Attach) : DecidablePred s.KeepsUp := fun _ => inferInstanceAs (Decidable (_ → _))

instance (s : Attach) : DecidablePred s.SubscribesAtMark :=
  fun _ => inferInstanceAs (Decidable (_ → _))

/-- What the client receives is a contiguous piece of the PTY's output: the live
frames go on where the output stood when the snapshot was taken. -/
def Seamless (s : Attach) : Prop :=
  s.handler.received <:+: s.output.stream ∧
    ∀ mark ∈ s.handler.mark,
      (s.output.feed.recorded.take mark).flatten ++ s.handler.live <+: s.output.stream

instance (s : Attach) : Decidable s.Seamless := inferInstanceAs (Decidable (_ ∧ _))

end Attach

/-- The snapshot ends at the mark, and the subscription begins there. -/
def Handler.InStep (feed : Feed Bytes) : Handler → Prop
  | .opened => True
  | .snapped snap mark | .replayed snap mark =>
    mark ≤ feed.recorded.length ∧ snap <:+ (feed.recorded.take mark).flatten
  | .forwarding snap mark rx | .closed snap mark rx =>
    rx.Follows mark feed.sent ∧ snap <:+ (feed.sent.take mark).flatten

theorem Handler.InStep.mono {h : Handler} {f g : Feed Bytes} (hin : h.InStep f) (hle : f.Le g) :
    h.InStep g := by
  cases h with
  | opened => trivial
  | snapped snap mark | replayed snap mark =>
    obtain ⟨hmark,hsnap⟩ := hin
    refine ⟨hmark.trans hle.recorded.length_le,?_⟩
    rwa [Feed.take_recorded_mono hle hmark]
  | forwarding snap mark rx | closed snap mark rx =>
    obtain ⟨hrx,hsnap⟩ := hin
    refine ⟨hrx.mono hle.sent,?_⟩
    rwa [Feed.take_sent_mono hle (hrx.start_le.trans hrx.next_le)]

theorem Handler.InStep.received {h : Handler} {f : Feed Bytes} (hin : h.InStep f) :
    h.received <:+: f.recorded.flatten := by
  cases h with
  | opened => exact List.nil_infix
  | snapped snap mark => exact List.nil_infix
  | replayed snap mark =>
    have htake : (f.recorded.take mark).flatten <:+: f.recorded.flatten :=
      (List.take_prefix mark f.recorded).flatten.isInfix
    exact hin.2.isInfix.trans htake
  | forwarding snap mark rx | closed snap mark rx =>
    exact (hin.1.seam hin.2).trans f.flatten_sent_in_recorded

theorem Handler.InStep.live {h : Handler} {f : Feed Bytes} (hin : h.InStep f) {mark : Nat}
    (hm : mark ∈ h.mark) : (f.recorded.take mark).flatten ++ h.live <+: f.recorded.flatten := by
  cases h with
  | opened => cases hm
  | snapped snap m | replayed snap m =>
    obtain rfl : m = mark := Option.some.inj hm
    simpa [Handler.live,Handler.receiver] using (List.take_prefix m f.recorded).flatten
  | forwarding snap m rx | closed snap m rx =>
    obtain rfl : m = mark := Option.some.inj hm
    obtain ⟨hrx,-⟩ := hin
    have hlive : (f.recorded.take m).flatten ++ rx.got.flatten = (f.sent.take rx.next).flatten := by
      rw [Feed.take_recorded (hrx.start_le.trans hrx.next_le),hrx.take_next,List.flatten_append]
    have hsent : (f.sent.take rx.next).flatten <+: f.sent.flatten :=
      (List.take_prefix rx.next f.sent).flatten
    exact hlive ▸ hsent.trans f.sent_prefix.flatten

namespace Attach

theorem step_inStep (s : Attach) (a : Action) (s' : Attach) (hin : s.handler.InStep s.output.feed)
    (hc : s.KeepsUp a ∧ s.SubscribesAtMark a) (h : s.step a = some s') :
    s'.handler.InStep s'.output.feed := by
  obtain ⟨hup,hmark⟩ := hc
  cases a with
  | push chunk =>
    obtain ⟨o,ho,rfl⟩ := Option.map_eq_some_iff.mp h
    exact hin.mono (Output.le_push ho)
  | broadcast =>
    obtain ⟨o,ho,rfl⟩ := Option.map_eq_some_iff.mp h
    exact hin.mono (Output.le_broadcast ho)
  | snapshot =>
    simp only [step] at h
    split at h <;> cases h
    refine ⟨le_refl _,?_⟩
    rw [List.take_length]
    exact s.output.snapshot_suffix
  | send =>
    simp only [step] at h
    split at h <;> cases h
    rename_i hs
    rwa [hs] at hin
  | subscribe =>
    simp only [step] at h
    split at h <;> cases h
    rename_i snap mark hs
    rw [hs] at hin
    -- the condition makes the mark the position of the subscription
    have hpos : s.output.feed.sent.length = mark := hmark rfl mark (by rw [hs]; rfl)
    refine ⟨hpos ▸ Receiver.follows_subscribe _,?_⟩
    rw [← Feed.take_recorded hpos.ge]
    exact hin.2
  | recv =>
    simp only [step] at h
    split at h
    · rename_i snap mark rx hs
      obtain ⟨rx',hrecv,rfl⟩ := Option.map_eq_some_iff.mp h
      rw [hs] at hin
      have hlag : rx.lagged outChannelCap s.output.feed.sent = false :=
        hup rfl rx (by rw [hs]; rfl)
      exact ⟨hin.1.recv hlag hrecv,hin.2⟩
    · cases h
  | close =>
    simp only [step] at h
    split at h <;> cases h
    rename_i hs
    rwa [hs] at hin

/-- As long as it keeps up, a client that subscribes at the mark of its snapshot
misses no byte and gets none twice. -/
theorem attach_seamless (actions : List Action) (hup : Along step KeepsUp start actions)
    (hmark : Along step SubscribesAtMark start actions) :
    Always step Seamless start actions := by
  have hall := (hup.and hmark).invariant step_inStep trivial
  exact hall.mono fun s hs => ⟨hs.received,fun mark hm => hs.live hm⟩

theorem attach_seamless_quiet :
    Always step Seamless start
      [.push [97],.broadcast,.snapshot,.send,.subscribe,.push [98],.broadcast,.recv] :=
  attach_seamless _ (by decide) (by decide)

/-- A chunk read between the snapshot and the subscription is lost. -/
theorem chunk_lost_at_seam :
    ¬∀ actions, Along step KeepsUp start actions →
      Always step (fun s => s.handler.received <:+: s.output.stream) start actions := by
  intro h
  have hrun := h [.push [97],.broadcast,.snapshot,.send,.push [98],.broadcast,.subscribe,
    .push [99],.broadcast,.recv] (by decide)
  exact absurd (hrun.last rfl) (by decide)

end Attach

end Pyre.Stream
