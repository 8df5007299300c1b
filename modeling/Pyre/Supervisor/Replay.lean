import Pyre.Blocks.Listing
import Pyre.Stream.Scrollback
import Pyre.Supervisor.Failures

/-!
`replay` of a pane: in a daemon of its own from the pane's ring, in the supervisor from the hub that
is listed for the pane, if there is one.
-/

set_option autoImplicit false

namespace Pyre.Stream
open Base Migration
open Supervisor (PyreError)

namespace Subscriber

/-- What the copy and the frames after it make up is a beginning of the stream, of which the copy
has the last bytes up to where the subscription begins. -/
def Tails (cap : Nat) (feed : Feed Bytes) : Subscriber → Prop
  | .idle => True
  | .subscribed rx => rx.Follows rx.next feed.sent
  | .snapped snap rx =>
    rx.Follows rx.next feed.sent ∧ snap = (feed.sent.take rx.next).flatten.rtake cap
  | .forwarding snap rx | .closed snap rx =>
    ∃ start, rx.Follows start feed.sent ∧ snap = (feed.sent.take start).flatten.rtake cap

variable {cap : Nat} {feed f g : Feed Bytes} {copy : Bytes} {sub sub' : Subscriber}
  {out : List Bytes}

theorem Tails.inStep (h : sub.Tails cap feed) : sub.InStep feed := by
  cases sub with
  | idle => trivial
  | subscribed rx => exact h
  | snapped snap rx => exact ⟨h.1,h.2 ▸ rtake_suffix _ _⟩
  | forwarding snap rx | closed snap rx =>
    obtain ⟨start,hrx,hsnap⟩ := h
    exact ⟨start,hrx,hsnap ▸ rtake_suffix _ _⟩

theorem tails_iff_copyFits :
    sub.Tails cap feed ↔ sub.CopyFits (fun snap front => snap = front.rtake cap) feed := by
  cases sub <;> exact Iff.rfl

theorem Tails.mono (h : sub.Tails cap f) (hle : f.Le g) : sub.Tails cap g :=
  tails_iff_copyFits.mpr ((tails_iff_copyFits.mp h).mono hle)

theorem step_tails {a : SubscriberAction} (h : sub.step feed copy a = some (sub',out))
    (hin : sub.Tails cap feed) (hup : KeepsUp feed sub a) (hcopy : CopiesInStep feed sub a)
    (hcap : copy = feed.recorded.flatten.rtake cap) : sub'.Tails cap feed :=
  tails_iff_copyFits.mpr (step_copyFits h (tails_iff_copyFits.mp hin) hup hcopy hcap)

end Subscriber

namespace Hub

/-- The bytes of the pane's stream that the hub has not appended to its snapshot: all of them until
it has the worker's copy, then those in between and those that the worker has not forwarded. -/
def missing (o : Output) (h : Hub) : Bytes :=
  match h.feed.recorded, h.conn.receiver with
  | _ :: _, some rx => h.inbox.flatten ++ (o.feed.recorded.drop rx.next).flatten
  | _, _ => o.stream

/-- The connection keeps in step with the pane, and its frames are appended or in between. -/
structure Tracks (o : Output) (h : Hub) : Prop where
  conn : h.conn.Tails snapshotCap o.feed
  frames : h.conn.frames = h.feed.recorded ++ h.inbox

variable {o o' : Output} {h h' : Hub}

theorem Tracks.mono (ht : h.Tracks o) (hle : o.feed.Le o'.feed) : h.Tracks o' :=
  ⟨ht.conn.mono hle,ht.frames⟩

theorem Tracks.serve {a : SubscriberAction} (hs : h.serve o a = some h') (ht : h.Tracks o)
    (hcap : o.ring.cap = snapshotCap) (hup : Subscriber.KeepsUp o.feed h.conn a)
    (hcopy : Subscriber.CopiesInStep o.feed h.conn a) : h'.Tracks o := by
  obtain ⟨⟨conn,out⟩,hstep,rfl⟩ := Option.map_eq_some_iff.mp hs
  have hring := o.ring_eq
  rw [hcap] at hring
  refine ⟨Subscriber.step_tails hstep ht.conn hup hcopy hring,?_⟩
  rw [Subscriber.step_frames hstep ht.conn.inStep,ht.frames,List.append_assoc]

theorem Tracks.append (hs : h.append = some h') (ht : h.Tracks o) : h'.Tracks o := by
  unfold Hub.append at hs
  split at hs
  · cases hs
  · rename_i data rest hinbox
    rw [Option.ite_none_right_eq_some,Option.some.injEq] at hs
    obtain ⟨-,rfl⟩ := hs
    refine ⟨ht.conn,?_⟩
    rw [ht.frames,hinbox,Feed.recorded_record,List.append_assoc,List.singleton_append]

theorem Tracks.rebroadcast (hs : h.rebroadcast = some h') (ht : h.Tracks o) : h'.Tracks o := by
  unfold Hub.rebroadcast at hs
  split at hs
  · cases hs
  · rename_i f hf
    obtain rfl := Option.some.inj hs
    refine ⟨ht.conn,?_⟩
    rw [ht.frames,Feed.recorded_broadcast hf]

/-- The snapshot has the end of the stream up to what is missing. -/
theorem Tracks.lastSnapshot_eq (ht : h.Tracks o) :
    ∃ front, o.stream = front ++ h.missing o ∧ h.lastSnapshot = front.rtake snapshotCap := by
  rw [h.snapshot_eq,missing]
  have hframes := ht.frames
  cases hrec : h.feed.recorded with
  | nil => exact ⟨[],rfl,rfl⟩
  | cons copy appended =>
    rw [hrec,List.cons_append] at hframes
    have hconn := ht.conn
    cases hsub : h.conn with
    | idle | subscribed rx | snapped snap rx => simp [hsub,Subscriber.frames] at hframes
    | forwarding snap rx | closed snap rx =>
      rw [hsub] at hframes hconn
      obtain ⟨rfl,hgot⟩ := List.cons.inj hframes
      obtain ⟨start,hrx,hsnap⟩ := hconn
      refine ⟨(o.feed.sent.take start).flatten ++ appended.flatten,?_,?_⟩
      · have hnext : (o.feed.recorded.take rx.next).flatten =
            (o.feed.sent.take start).flatten ++ (appended.flatten ++ h.inbox.flatten) := by
          rw [Feed.take_recorded hrx.next_le,hrx.take_next,hgot,List.flatten_append,
            List.flatten_append]
        have hall := congrArg List.flatten (List.take_append_drop rx.next o.feed.recorded)
        rw [List.flatten_append,hnext] at hall
        simp only [Output.stream,Subscriber.receiver]
        rw [← hall]
        simp
      · rw [List.flatten_cons,hsnap,rtake_rtake_append]

end Hub

namespace Mirror

/-- What `last_snapshot_for` finds. -/
def lastSnapshot (m : Mirror) : Bytes :=
  match m.registry.bind fun i => m.hubs[i]? with
  | some h => h.lastSnapshot
  | none => []

def missing (m : Mirror) : Bytes :=
  match m.registry.bind fun i => m.hubs[i]? with
  | some h => h.missing m.output
  | none => m.output.stream

/-- The end of the stream is the same without what is missing, as it is where nothing is. -/
def UpToDate (m : Mirror) : Prop :=
  (m.output.stream.rdrop m.missing.length).rtake snapshotCap = m.output.stream.rtake snapshotCap

instance : DecidablePred UpToDate := fun _ => inferInstanceAs (Decidable (_ = _))

/-- A worker's handler takes its copy in step with its subscription and does not lag. -/
def ServedInStep (m : Mirror) : Action → Prop
  | .serve i a => ∀ h ∈ m.hubs[i]?,
    Subscriber.KeepsUp m.output.feed h.conn a ∧ Subscriber.CopiesInStep m.output.feed h.conn a
  | _ => True

instance (m : Mirror) : DecidablePred m.ServedInStep
  | .serve i _ => inferInstanceAs (Decidable (∀ h ∈ m.hubs[i]?, _ ∧ _))
  | .push _ | .broadcast | .append _ | .rebroadcast _ | .removeHub _ | .connect | .resolve _
  | .openHub _ | .client _ _ => isTrue trivial

structure Tracks (m : Mirror) : Prop where
  hubs : ∀ h ∈ m.hubs, h.Tracks m.output
  cap : m.output.ring.cap = snapshotCap

theorem tracks_start : start.Tracks := ⟨by simp [start],rfl⟩

theorem Tracks.output {m : Mirror} (ht : m.Tracks) {o : Output} (hle : m.output.feed.Le o.feed)
    (hcap : o.ring.cap = m.output.ring.cap) : Tracks { m with output := o } :=
  ⟨fun h hh => (ht.hubs h hh).mono hle,hcap.trans ht.cap⟩

theorem Tracks.setHub {m : Mirror} (ht : m.Tracks) {i : Nat} {h : Hub} (hh : h.Tracks m.output) :
    (m.setHub i h).Tracks := by
  refine ⟨fun g hg => ?_,ht.cap⟩
  rcases List.mem_or_eq_of_mem_set hg with hg | rfl
  · exact ht.hubs g hg
  · exact hh

theorem step_tracks {m m' : Mirror} {a : Action} (ht : m.Tracks) (hin : m.ServedInStep a)
    (h : m.step a = some m') : m'.Tracks := by
  cases a with
  | push chunk =>
    obtain ⟨o,ho,rfl⟩ := Option.map_eq_some_iff.mp h
    exact ht.output (Output.le_push ho) (Output.cap_push ho)
  | broadcast =>
    obtain ⟨o,ho,rfl⟩ := Option.map_eq_some_iff.mp h
    exact ht.output (Output.le_broadcast ho) (Output.cap_broadcast ho)
  | serve i a =>
    obtain ⟨hub,hget,h⟩ := Option.bind_eq_some_iff.mp h
    obtain ⟨hub',hserve,rfl⟩ := Option.map_eq_some_iff.mp h
    obtain ⟨hup,hcopy⟩ := hin hub hget
    have hhub := ht.hubs hub (List.mem_of_getElem? hget)
    exact ht.setHub (hhub.serve hserve ht.cap hup hcopy)
  | append i =>
    obtain ⟨hub,hget,h⟩ := Option.bind_eq_some_iff.mp h
    obtain ⟨hub',happend,rfl⟩ := Option.map_eq_some_iff.mp h
    exact ht.setHub ((ht.hubs hub (List.mem_of_getElem? hget)).append happend)
  | rebroadcast i =>
    obtain ⟨hub,hget,h⟩ := Option.bind_eq_some_iff.mp h
    obtain ⟨hub',hsend,rfl⟩ := Option.map_eq_some_iff.mp h
    exact ht.setHub ((ht.hubs hub (List.mem_of_getElem? hget)).rebroadcast hsend)
  | removeHub i =>
    obtain ⟨hub,-,h⟩ := Option.bind_eq_some_iff.mp h
    rw [Option.ite_none_right_eq_some,Option.some.injEq] at h
    obtain ⟨-,rfl⟩ := h
    exact ⟨ht.hubs,ht.cap⟩
  | connect =>
    cases h
    exact ⟨ht.hubs,ht.cap⟩
  | resolve j =>
    simp only [step] at h
    split at h
    · split at h <;> cases h <;> exact ⟨ht.hubs,ht.cap⟩
    · cases h
  | openHub j =>
    simp only [step] at h
    split at h <;> cases h
    refine ⟨fun hub hmem => ?_,ht.cap⟩
    rcases List.mem_append.mp hmem with hmem | hmem
    · exact ht.hubs hub hmem
    · obtain rfl := List.mem_singleton.mp hmem
      exact ⟨trivial,rfl⟩
  | client j a =>
    simp only [step] at h
    split at h
    · obtain ⟨hub,-,h⟩ := Option.bind_eq_some_iff.mp h
      obtain ⟨r,-,rfl⟩ := Option.map_eq_some_iff.mp h
      exact ⟨ht.hubs,ht.cap⟩
    · cases h

theorem Tracks.lastSnapshot_eq {m : Mirror} (ht : m.Tracks) :
    m.lastSnapshot = (m.output.stream.rdrop m.missing.length).rtake snapshotCap := by
  unfold lastSnapshot missing
  split
  · rename_i h hreg
    obtain ⟨i,-,hget⟩ := Option.bind_eq_some_iff.mp hreg
    obtain ⟨front,hstream,hsnap⟩ := (ht.hubs h (List.mem_of_getElem? hget)).lastSnapshot_eq
    conv_rhs => rw [hstream]
    rw [hsnap,List.rdrop_append_length]
  · simp [List.rdrop]

theorem upToDate_of_missing {m : Mirror} (h : m.missing = []) : m.UpToDate := by
  rw [UpToDate,h,List.length_nil,List.rdrop_zero]

end Mirror

structure ReplayBlocks where
  recent : List BlockRow
  snapshot : Bytes
  deriving DecidableEq

/-- What the store answers when it is asked for a pane's blocks. -/
abbrev StoredBlocks := Except String BlockStore

def noBlocks : BlockStore := ⟨[],fun _ => none,List.nodup_nil⟩

def StoredBlocks.recent (store : StoredBlocks) (pane : PaneId) (recentBlocks : Nat) :
    Except PyreError (List BlockRow) :=
  match store with
  | .error e => .error (.io e)
  | .ok st => .ok (st.listBlocksForPane pane recentBlocks)

/-- What `replay` is to answer about a pane that has produced the bytes, if it is live. -/
def rightReplay (cap : Nat) (produced : Option Bytes) (store : StoredBlocks) (pane : PaneId)
    (recentBlocks : Nat) : Except PyreError ReplayBlocks :=
  match produced with
  | none => .error (.noSuchPane pane)
  | some stream => (store.recent pane recentBlocks).map fun recent =>
    ⟨recent,stream.rtake (min cap stream.length)⟩

/-- A pane of a daemon of its own, with the handlers of the clients that stream it. -/
structure StreamedPane where
  output : Output
  handlers : List Handler

/-- The panes of a daemon of its own. -/
structure SinglePanes where
  panes : Table PaneId StreamedPane

namespace SinglePanes

/-- A handler takes its own steps of `Attach`; the reader's are `push` and `broadcast`. -/
inductive Action where
  | openPane (pane : PaneId)
  | closePane (pane : PaneId)
  | push (pane : PaneId) (chunk : Bytes)
  | broadcast (pane : PaneId)
  | attach (pane : PaneId)
  | handle (pane : PaneId) (client : Nat) (a : Attach.Action)
  deriving DecidableEq, Repr

def init : SinglePanes := ⟨∅⟩

def setPane (s : SinglePanes) (pane : PaneId) (p : StreamedPane) : SinglePanes :=
  ⟨s.panes.insert pane p⟩

def step (s : SinglePanes) : Action → Option SinglePanes
  | .openPane pane =>
    if pane ∈ s.panes then none else some (s.setPane pane ⟨.new Attach.ringCap,[]⟩)
  | .closePane pane => some ⟨s.panes.erase pane⟩
  | .push pane chunk => (s.panes.lookup pane).bind fun p =>
    (p.output.push chunk).map fun o => s.setPane pane { p with output := o }
  | .broadcast pane => (s.panes.lookup pane).bind fun p =>
    p.output.broadcast.map fun o => s.setPane pane { p with output := o }
  | .attach pane => (s.panes.lookup pane).map fun p =>
    s.setPane pane { p with handlers := p.handlers ++ [.opened] }
  | .handle pane j a => (s.panes.lookup pane).bind fun p => p.handlers[j]?.bind fun h =>
    (Attach.step ⟨p.output,h⟩ a).map fun t =>
      s.setPane pane { p with handlers := p.handlers.set j t.handler }

def replay (s : SinglePanes) (store : StoredBlocks) (pane : PaneId) (recentBlocks : Nat) :
    Except PyreError ReplayBlocks :=
  match s.panes.lookup pane with
  | none => .error (.noSuchPane pane)
  | some p =>
    let snapshot := p.output.ring.snapshot
    (store.recent pane recentBlocks).map fun recent => ⟨recent,snapshot⟩

def ReplaysRight (s : SinglePanes) (pane : PaneId) : Prop :=
  ∀ store recentBlocks, s.replay store pane recentBlocks =
    rightReplay Attach.ringCap ((s.panes.lookup pane).map fun p => p.output.stream) store pane
      recentBlocks

/-- Every ring has the capacity it was made with. -/
def Inv (s : SinglePanes) : Prop :=
  ∀ pane p, s.panes.lookup pane = some p → p.output.ring.cap = Attach.ringCap

theorem Inv.setPane {s : SinglePanes} (hi : s.Inv) {pane : PaneId} {p : StreamedPane}
    (hp : p.output.ring.cap = Attach.ringCap) : (s.setPane pane p).Inv := by
  intro pane' p' h
  rcases Table.lookup_insert_eq_some.mp h with ⟨-,rfl⟩ | ⟨-,h⟩
  · exact hp
  · exact hi pane' p' h

theorem step_inv (s : SinglePanes) (a : Action) (s' : SinglePanes) (hi : s.Inv)
    (h : s.step a = some s') : s'.Inv := by
  cases a with
  | openPane pane =>
    rw [step,Option.ite_none_left_eq_some,Option.some.injEq] at h
    obtain ⟨-,rfl⟩ := h
    exact hi.setPane rfl
  | closePane pane =>
    obtain rfl := Option.some.inj h
    exact fun pane' p h => hi pane' p (Table.lookup_erase_eq_some.mp h).2
  | push pane chunk =>
    obtain ⟨p,hp,h⟩ := Option.bind_eq_some_iff.mp h
    obtain ⟨o,ho,rfl⟩ := Option.map_eq_some_iff.mp h
    exact hi.setPane ((Output.cap_push ho).trans (hi pane p hp))
  | broadcast pane =>
    obtain ⟨p,hp,h⟩ := Option.bind_eq_some_iff.mp h
    obtain ⟨o,ho,rfl⟩ := Option.map_eq_some_iff.mp h
    exact hi.setPane ((Output.cap_broadcast ho).trans (hi pane p hp))
  | attach pane =>
    obtain ⟨p,hp,rfl⟩ := Option.map_eq_some_iff.mp h
    exact hi.setPane (hi pane p hp)
  | handle pane j a =>
    obtain ⟨p,hp,h⟩ := Option.bind_eq_some_iff.mp h
    obtain ⟨handler,-,h⟩ := Option.bind_eq_some_iff.mp h
    obtain ⟨t,-,rfl⟩ := Option.map_eq_some_iff.mp h
    exact hi.setPane (hi pane p hp)

theorem Inv.replaysRight {s : SinglePanes} (hi : s.Inv) (pane : PaneId) : s.ReplaysRight pane := by
  intro store recentBlocks
  unfold replay rightReplay
  cases hp : s.panes.lookup pane with
  | none => rfl
  | some p =>
    have hsnap := p.output.ring_eq
    rw [hi pane p hp] at hsnap
    simp only [Option.map_some,rtake_min,hsnap,Output.stream]

end SinglePanes

/-- The panes of all workers, each with all that streams it. -/
structure HybridPanes where
  mirrors : PaneId → Mirror
  drawn : List PaneId
  live : List PaneId

namespace HybridPanes

/-- After a pane has been closed its streams are still to end. -/
inductive Action where
  | openPane (pane : PaneId)
  | closePane (pane : PaneId)
  | mirror (pane : PaneId) (a : Mirror.Action)
  deriving DecidableEq, Repr

def init : HybridPanes := ⟨fun _ => .start,[],[]⟩

def step (s : HybridPanes) : Action → Option HybridPanes
  | .openPane pane =>
    if pane ∈ s.drawn then none
    else some { s with drawn := pane :: s.drawn, live := pane :: s.live }
  | .closePane pane => some { s with live := s.live.filter (· ≠ pane) }
  | .mirror pane a =>
    if pane ∈ s.drawn then
      ((s.mirrors pane).step a).map fun m =>
        { s with mirrors := Function.update s.mirrors pane m }
    else none

def replay (s : HybridPanes) (store : StoredBlocks) (pane : PaneId) (recentBlocks : Nat) :
    Except PyreError ReplayBlocks :=
  (store.recent pane recentBlocks).map fun recent => ⟨recent,(s.mirrors pane).lastSnapshot⟩

def ReplaysRight (s : HybridPanes) (pane : PaneId) : Prop :=
  ∀ store recentBlocks, s.replay store pane recentBlocks =
    rightReplay snapshotCap (if pane ∈ s.live then some (s.mirrors pane).output.stream else none)
      store pane recentBlocks

def ServedInStep (s : HybridPanes) : Action → Prop
  | .mirror pane a => (s.mirrors pane).ServedInStep a
  | _ => True

instance (s : HybridPanes) : DecidablePred s.ServedInStep
  | .mirror pane a => inferInstanceAs (Decidable ((s.mirrors pane).ServedInStep a))
  | .openPane _ | .closePane _ => isTrue trivial

def Tracks (s : HybridPanes) : Prop := ∀ pane, (s.mirrors pane).Tracks

theorem step_tracks (s : HybridPanes) (a : Action) (s' : HybridPanes) (ht : s.Tracks)
    (hin : s.ServedInStep a) (h : s.step a = some s') : s'.Tracks := by
  cases a with
  | openPane pane =>
    rw [step,Option.ite_none_left_eq_some,Option.some.injEq] at h
    obtain ⟨-,rfl⟩ := h
    exact ht
  | closePane pane =>
    obtain rfl := Option.some.inj h
    exact ht
  | mirror pane a =>
    rw [step,Option.ite_none_right_eq_some] at h
    obtain ⟨m,hm,rfl⟩ := Option.map_eq_some_iff.mp h.2
    intro pane'
    by_cases hp : pane' = pane
    · subst hp
      have hm' := Mirror.step_tracks (ht pane') hin hm
      simpa using hm'
    · simpa [Function.update_of_ne hp] using ht pane'

theorem Tracks.replaysRight_iff {s : HybridPanes} (ht : s.Tracks) (pane : PaneId) :
    s.ReplaysRight pane ↔ pane ∈ s.live ∧ (s.mirrors pane).UpToDate := by
  unfold ReplaysRight replay rightReplay
  rw [(ht pane).lastSnapshot_eq]
  by_cases hlive : pane ∈ s.live
  · simp only [hlive,if_true,rtake_min,true_and]
    constructor
    · intro h
      have hnone := h (.ok noBlocks) 0
      simpa only [StoredBlocks.recent,Except.map,Except.ok.injEq,ReplayBlocks.mk.injEq,true_and,
        Mirror.UpToDate] using hnone
    · intro h store recentBlocks
      rw [h]
  · simp only [hlive,if_false,false_and,iff_false]
    intro h
    have hnone := h (.ok noBlocks) 0
    simp [StoredBlocks.recent,Except.map] at hnone

end HybridPanes

/-- A daemon of its own always replays right; the supervisor does for the panes that are live and of
which the listed hub has the end. -/
theorem replay_right_iff (actions : List SinglePanes.Action) (hybrid : List HybridPanes.Action)
    (hin : Along HybridPanes.step HybridPanes.ServedInStep .init hybrid) :
    Always SinglePanes.step (fun s => ∀ pane, s.ReplaysRight pane) .init actions ∧
    Always HybridPanes.step
      (fun s => ∀ pane, s.ReplaysRight pane ↔ pane ∈ s.live ∧ (s.mirrors pane).UpToDate) .init
      hybrid := by
  constructor
  · have hinit : SinglePanes.init.Inv := fun pane p h => by cases h
    exact (Always.of_invariant SinglePanes.step_inv hinit actions).mono fun s hs => hs.replaysRight
  · have hinit : HybridPanes.init.Tracks := fun pane => Mirror.tracks_start
    exact (hin.invariant HybridPanes.step_tracks hinit).mono fun s hs => hs.replaysRight_iff

theorem replay_right_streamed :
    Always SinglePanes.step (fun s => ∀ pane, s.ReplaysRight pane) .init
      [.openPane ⟨1⟩,.push ⟨1⟩ [97]] ∧
    Always HybridPanes.step
      (fun s => ∀ pane, s.ReplaysRight pane ↔ pane ∈ s.live ∧ (s.mirrors pane).UpToDate) .init
      ([.openPane ⟨1⟩] ++ ([.push [97],.broadcast,.connect,.resolve 0,.openHub 0,
        .serve 0 .subscribe,.serve 0 .snapshot,.serve 0 .send,.append 0] :
          List Mirror.Action).map (.mirror ⟨1⟩)) :=
  replay_right_iff _ _ (by decide)

/-- A pane that no client has streamed is replayed as one that has produced nothing. -/
theorem unattached_replayed_empty :
    ¬∀ actions, Along HybridPanes.step HybridPanes.ServedInStep .init actions →
      Always HybridPanes.step (fun s => ∀ pane ∈ s.live, s.ReplaysRight pane) .init actions := by
  intro h
  have hrun := h [.openPane ⟨1⟩,.mirror ⟨1⟩ (.push [97])] (by decide)
  have hright := hrun.last rfl ⟨1⟩ (by decide) (.ok noBlocks) 0
  revert hright
  decide

end Pyre.Stream
