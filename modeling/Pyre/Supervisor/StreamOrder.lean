import Pyre.Base.Consecutive
import Pyre.Supervisor.Relay

/-!
The order in which the batcher gets the chunks of a pane. It is that of the PTY as
long as the tasks that serve the requests run in the order of the chunks they carry.
-/

set_option autoImplicit false

namespace Pyre.Supervisor
open Base Blocks

theorem feedAll_snoc {σ : Type} (vte : Vte σ) (draw : Nat → BlockId) (p : BlockParser σ)
    (chunks : List Bytes) (bytes : Bytes) :
    p.feedAll vte draw (chunks ++ [bytes]) =
      (((p.feedAll vte draw chunks).1.feed vte draw bytes).1,
        (p.feedAll vte draw chunks).2 ++
          ((p.feedAll vte draw chunks).1.feed vte draw bytes).2) := by
  induction chunks generalizing p with
  | nil => simp [BlockParser.feedAll]
  | cons c chunks ih => simp [BlockParser.feedAll,ih]

/-- Taking an element from one list to the end of the next keeps the elements. -/
theorem move_perm {α : Type} [DecidableEq α] {a : α} {l : List α} (h : a ∈ l) (m : List α) :
    (l.erase a ++ (m ++ [a])).Perm (l ++ m) := by
  have hfront : (l.erase a ++ (m ++ [a])).Perm (a :: (l.erase a ++ m)) := by
    rw [← List.append_assoc]
    exact List.perm_append_singleton _ _
  exact hfront.trans ((List.perm_cons_erase h).symm.append_right m)

def ofSlot (key : SlotKey) (cs : List Chunk) : List Chunk := cs.filter fun c => c.raw.key = key

namespace Relay

variable {σ : Type}

/-- The chunks whose place in the queue is still open. -/
def unqueued (s : Relay σ) : List Chunk := s.sending ++ s.wire ++ s.serving

/-- The chunks that have got their place, first to last. -/
def queued (s : Relay σ) : List Chunk := s.handled ++ s.batch ++ s.pending ++ s.queue

def parsedOf (s : Relay σ) (key : SlotKey) : List BlockEvent :=
  (s.parsed.filter fun e => e.1 = key).map Prod.snd

/-- No call fails, and a chunk enters the queue before the later ones of its pane. -/
def InOrder (s : Relay σ) : RelayAction → Prop
  | .enqueue c => ∀ d ∈ s.unqueued, d.raw.key = c.raw.key → c.number ≤ d.number
  | .fail _ => False
  | _ => True

instance (s : Relay σ) : DecidablePred (InOrder s) := fun a => by
  cases a <;> unfold InOrder <;> infer_instance

variable (vte : Vte σ) (draw : SlotKey → Nat → BlockId) (parse : SessionKey → Option SessionId)

/-- The parser of a slot and its events are those of the first chunks read from the
PTY, fed one after the other, and of all of them when none is on its way. -/
def Sequential (s : Relay σ) : Prop :=
  ∀ key session, parse key.1 = some session →
    ∃ chunks, chunks <+: ofSlot key s.read ∧
      ((s.paneParsers.lookup key).getD (.new vte session),s.parsedOf key) =
        (BlockParser.new vte session).feedAll vte (draw key) (chunks.map fun c => c.raw.bytes) ∧
      ((∀ c ∈ s.unqueued ++ s.queue ++ s.pending ++ s.batch, c.raw.key ≠ key) →
        chunks = ofSlot key s.read)

/-- The queue keeps the order of the chunks of each pane, and none is lost. -/
structure Ordered (s : Relay σ) : Prop where
  read : s.read.Pairwise fun c d => c.number < d.number
  fresh : ∀ c ∈ s.read, c.number < s.read.length
  nonempty : ∀ c ∈ s.read, c.raw.bytes ≠ []
  kept : s.read.Perm (s.queued ++ s.unqueued)
  queued : s.queued.Pairwise fun c d => c.raw.key = d.raw.key → c.number < d.number
  ahead : ∀ c ∈ s.queued, ∀ d ∈ s.unqueued, c.raw.key = d.raw.key → c.number < d.number

/-- The parsers have been fed what was handled. -/
def Fed (s : Relay σ) : Prop :=
  ∀ key session, parse key.1 = some session →
    ((s.paneParsers.lookup key).getD (.new vte session),s.parsedOf key) =
      (BlockParser.new vte session).feedAll vte (draw key)
        ((ofSlot key s.handled).map fun c => c.raw.bytes)

theorem processRawEvent_tasks (s : Relay σ) (raw : RawEvent) :
    (s.processRawEvent vte draw parse raw).read = s.read ∧
      (s.processRawEvent vte draw parse raw).sending = s.sending ∧
      (s.processRawEvent vte draw parse raw).wire = s.wire ∧
      (s.processRawEvent vte draw parse raw).serving = s.serving ∧
      (s.processRawEvent vte draw parse raw).queue = s.queue ∧
      (s.processRawEvent vte draw parse raw).pending = s.pending := by
  unfold processRawEvent
  cases parse raw.session with
  | none => simp
  | some session => simp

variable {vte : Vte σ} {draw : SlotKey → Nat → BlockId} {parse : SessionKey → Option SessionId}
  {s t : Relay σ}

namespace Ordered

/-- Nothing is read and nothing enters the queue. -/
theorem congr (h : Ordered s) (hr : t.read = s.read) (hq : t.queued = s.queued)
    (hu : t.unqueued.Perm s.unqueued) : Ordered t := by
  refine ⟨hr ▸ h.read,hr ▸ h.fresh,hr ▸ h.nonempty,?_,hq ▸ h.queued,?_⟩
  · rw [hr,hq]
    exact h.kept.trans (hu.symm.append_left _)
  · intro c hc d hd
    rw [hq] at hc
    exact h.ahead c hc d (hu.mem_iff.mp hd)

theorem read_mem (h : Ordered s) {c : Chunk} (hc : c ∈ s.queued ++ s.unqueued) : c ∈ s.read :=
  h.kept.mem_iff.mpr hc

theorem readChunk (h : Ordered s) {raw : RawEvent} (hne : raw.bytes ≠ [])
    (hr : t.read = s.read ++ [⟨s.read.length,raw⟩]) (hq : t.queued = s.queued)
    (hu : t.unqueued.Perm (s.unqueued ++ [⟨s.read.length,raw⟩])) : Ordered t := by
  refine ⟨?_,?_,?_,?_,hq ▸ h.queued,?_⟩
  · rw [hr,List.pairwise_append]
    refine ⟨h.read,List.pairwise_singleton _ _,?_⟩
    intro c hc d hd
    obtain rfl := List.mem_singleton.mp hd
    exact h.fresh c hc
  · intro c hc
    rw [hr] at hc ⊢
    rw [List.length_append,List.length_singleton]
    rcases List.mem_append.mp hc with hc | hc
    · have hlt := h.fresh c hc
      omega
    · obtain rfl := List.mem_singleton.mp hc
      exact Nat.lt_succ_self _
  · intro c hc
    rw [hr] at hc
    rcases List.mem_append.mp hc with hc | hc
    · exact h.nonempty c hc
    · obtain rfl := List.mem_singleton.mp hc
      exact hne
  · rw [hr,hq]
    have hkept := h.kept.append_right [⟨s.read.length,raw⟩]
    rw [List.append_assoc] at hkept
    exact hkept.trans (hu.symm.append_left _)
  · intro c hc d hd _
    rw [hq] at hc
    have hlt := h.fresh c (h.read_mem (List.mem_append_left _ hc))
    rcases List.mem_append.mp (hu.mem_iff.mp hd) with hd | hd
    · exact h.ahead c hc d hd ‹_›
    · obtain rfl := List.mem_singleton.mp hd
      exact hlt

/-- The numbers on their way are all different. -/
theorem numbers_nodup (h : Ordered s) : ((s.queued ++ s.unqueued).map Chunk.number).Nodup := by
  have hread : (s.read.map Chunk.number).Nodup := by
    rw [List.Nodup,List.pairwise_map]
    exact h.read.imp fun hlt => hlt.ne
  exact (h.kept.map Chunk.number).nodup_iff.mp hread

theorem enqueue (h : Ordered s) {c : Chunk} (hr : t.read = s.read)
    (hq : t.queued = s.queued ++ [c]) (hu : s.unqueued.Perm (c :: t.unqueued))
    (hfirst : ∀ d ∈ s.unqueued, d.raw.key = c.raw.key → c.number ≤ d.number) : Ordered t := by
  have hc : c ∈ s.unqueued := hu.mem_iff.mpr List.mem_cons_self
  refine ⟨hr ▸ h.read,hr ▸ h.fresh,hr ▸ h.nonempty,?_,?_,?_⟩
  · rw [hr,hq,List.append_assoc]
    exact h.kept.trans (hu.append_left _)
  · rw [hq,List.pairwise_append]
    refine ⟨h.queued,List.pairwise_singleton _ _,?_⟩
    intro b hb d hd
    obtain rfl := List.mem_singleton.mp hd
    exact h.ahead b hb d hc
  · intro b hb d hd hkey
    have hd' : d ∈ s.unqueued := hu.mem_iff.mpr (List.mem_cons_of_mem _ hd)
    rw [hq] at hb
    rcases List.mem_append.mp hb with hb | hb
    · exact h.ahead b hb d hd' hkey
    · obtain rfl := List.mem_singleton.mp hb
      have hle := hfirst d hd' hkey.symm
      have hnodup := h.numbers_nodup
      rw [List.map_append,List.nodup_append'] at hnodup
      have hrest := (hu.map Chunk.number).nodup_iff.mp hnodup.2.1
      have hne : b.number ≠ d.number := by
        rintro heq
        exact (List.nodup_cons.mp hrest).1 (heq ▸ List.mem_map_of_mem hd)
      omega

theorem step (h : Ordered s) {a : RelayAction} (hc : s.InOrder a)
    (hstep : s.step vte draw parse a = some t) : Ordered t := by
  cases a with
  | read raw =>
    simp only [Relay.step,Option.ite_none_right_eq_some,Option.some.injEq] at hstep
    obtain ⟨⟨hne,-⟩,rfl⟩ := hstep
    refine h.readChunk hne rfl rfl ?_
    have hlast : ([(⟨s.read.length,raw⟩ : Chunk)] ++ (s.wire ++ s.serving)).Perm
        (s.wire ++ s.serving ++ [⟨s.read.length,raw⟩]) := List.perm_append_comm
    simpa only [unqueued,List.append_assoc] using hlast.append_left s.sending
  | send c =>
    simp only [Relay.step,Option.ite_none_right_eq_some,Option.some.injEq] at hstep
    obtain ⟨hmem,rfl⟩ := hstep
    exact h.congr rfl rfl ((move_perm hmem _).append_right _)
  | fail c => exact hc.elim
  | accept c =>
    simp only [Relay.step,Option.ite_none_right_eq_some,Option.some.injEq] at hstep
    obtain ⟨hmem,rfl⟩ := hstep
    refine h.congr rfl rfl ?_
    have hmove := (move_perm (List.mem_of_find?_eq_some hmem) s.serving).append_left s.sending
    simpa only [unqueued,List.append_assoc] using hmove
  | enqueue c =>
    simp only [Relay.step,Option.ite_none_right_eq_some,Option.some.injEq] at hstep
    obtain ⟨⟨hmem,-⟩,rfl⟩ := hstep
    refine h.enqueue rfl (by simp [Relay.queued]) ?_ hc
    have hmove := (List.perm_cons_erase hmem).append_left (s.sending ++ s.wire)
    exact hmove.trans List.perm_middle
  | recv =>
    simp only [Relay.step] at hstep
    split at hstep
    · rename_i c queue hbatch hqueue
      simp only [Option.some.injEq] at hstep
      subst hstep
      exact h.congr rfl (by simp [Relay.queued,hbatch,hqueue]) (List.Perm.refl _)
    · cases hstep
  | flush =>
    simp only [Relay.step] at hstep
    split at hstep
    · rename_i hbatch
      simp only [Option.some.injEq] at hstep
      subst hstep
      exact h.congr rfl (by simp [Relay.queued,hbatch]) (List.Perm.refl _)
    · cases hstep
  | process =>
    simp only [Relay.step] at hstep
    split at hstep
    · rename_i c batch hbatch
      simp only [Option.some.injEq] at hstep
      subst hstep
      obtain ⟨hr,hs,hw,hv,hq,hp⟩ := processRawEvent_tasks vte draw parse s c.raw
      refine h.congr hr ?_ ?_
      · simp [Relay.queued,hq,hp,hbatch]
      · simp [unqueued,hs,hw,hv]
    · cases hstep

end Ordered

theorem ofSlot_append (key : SlotKey) (cs ds : List Chunk) :
    ofSlot key (cs ++ ds) = ofSlot key cs ++ ofSlot key ds := List.filter_append _ _

theorem ofSlot_eq_nil {key : SlotKey} {cs : List Chunk} (h : ∀ c ∈ cs, c.raw.key ≠ key) :
    ofSlot key cs = [] := by
  rw [ofSlot,List.filter_eq_nil_iff]
  simpa using h

/-- The part of a slot that has its place in the queue is the front of what was read. -/
theorem Ordered.queued_prefix (h : Ordered s) (key : SlotKey) :
    ofSlot key s.queued <+: ofSlot key s.read := by
  have hperm : (ofSlot key s.read).Perm (ofSlot key s.queued ++ ofSlot key s.unqueued) := by
    rw [← ofSlot_append]
    exact h.kept.filter _
  have hkey : ∀ {cs : List Chunk} {c : Chunk}, c ∈ ofSlot key cs → c ∈ cs ∧ c.raw.key = key := by
    intro cs c hc
    simpa [ofSlot] using hc
  refine prefix_of_perm (fun _ _ hlt => Nat.lt_asymm hlt) hperm (h.read.filter _) ?_ ?_
  · refine (h.queued.filter _).imp_of_mem ?_
    intro c d hc hd hlt
    exact hlt ((hkey hc).2.trans (hkey hd).2.symm)
  · intro c hc d hd
    exact h.ahead c (hkey hc).1 d (hkey hd).1 ((hkey hc).2.trans (hkey hd).2.symm)

theorem Fed.congr (h : Fed vte draw parse s) (hp : t.paneParsers = s.paneParsers)
    (he : t.parsed = s.parsed) (hh : t.handled = s.handled) : Fed vte draw parse t := by
  intro key session hs
  have hf := h key session hs
  simp only [parsedOf] at hf ⊢
  rw [hp,he,hh]
  exact hf

theorem events_tagged (key key' : SlotKey) (events : List BlockEvent) :
    (((events.map (key',·)).filter fun e => e.1 = key).map Prod.snd) =
      if key' = key then events else [] := by
  induction events with
  | nil => simp
  | cons e events ih => by_cases h : key' = key <;> simp_all

theorem Fed.process (h : Fed vte draw parse s) {c : Chunk} {batch : List Chunk}
    (hne : c.raw.bytes ≠ []) :
    Fed vte draw parse { s.processRawEvent vte draw parse c.raw with
      batch := batch, handled := s.handled ++ [c] } := by
  intro key session hs
  have hf := h key session hs
  by_cases hkey : c.raw.key = key
  · subst hkey
    have hsession : parse c.raw.session = some session := hs
    have hof : ofSlot c.raw.key [c] = [c] := by simp [ofSlot]
    have hfst := congrArg Prod.fst hf
    have hsnd := congrArg Prod.snd hf
    simp only at hfst hsnd
    rw [ofSlot_append,hof,List.map_append,List.map_singleton,feedAll_snoc,← hfst,← hsnd]
    simp [processRawEvent,hsession,hne,parsedOf,List.filter_append,events_tagged]
  · have hof : ofSlot key [c] = [] := by simp [ofSlot,hkey]
    rw [ofSlot_append,hof,List.append_nil,← hf]
    unfold processRawEvent
    cases parse c.raw.session with
    | none => rfl
    | some session' =>
      have hother : key ≠ c.raw.key := fun heq => hkey heq.symm
      simp [parsedOf,List.filter_append,AList.lookup_insert_ne hother,events_tagged,hkey]

theorem Fed.step (h : Fed vte draw parse s) (ho : Ordered s) {a : RelayAction}
    (hstep : s.step vte draw parse a = some t) : Fed vte draw parse t := by
  cases a with
  | process =>
    simp only [Relay.step] at hstep
    split at hstep
    · rename_i c batch hbatch
      simp only [Option.some.injEq] at hstep
      subst hstep
      have hmem : c ∈ s.queued ++ s.unqueued := by simp [Relay.queued,hbatch]
      exact h.process (ho.nonempty c (ho.read_mem hmem))
    · cases hstep
  | recv =>
    simp only [Relay.step] at hstep
    split at hstep
    · simp only [Option.some.injEq] at hstep
      exact hstep ▸ h.congr rfl rfl rfl
    · cases hstep
  | flush =>
    simp only [Relay.step] at hstep
    split at hstep
    · simp only [Option.some.injEq] at hstep
      exact hstep ▸ h.congr rfl rfl rfl
    · cases hstep
  | _ =>
    simp only [Relay.step,Option.ite_none_right_eq_some,Option.some.injEq] at hstep
    exact hstep.2 ▸ h.congr rfl rfl rfl

theorem sequential_of_ordered (ho : Ordered s) (hf : Fed vte draw parse s) :
    Sequential vte draw parse s := by
  intro key session hs
  have hprefix := ho.queued_prefix key
  have hsplit : ofSlot key s.queued =
      ofSlot key s.handled ++ ofSlot key (s.batch ++ s.pending ++ s.queue) := by
    simp only [Relay.queued,ofSlot_append,List.append_assoc]
  refine ⟨ofSlot key s.handled,?_,hf key session hs,?_⟩
  · rw [hsplit] at hprefix
    exact (List.prefix_append _ _).trans hprefix
  · intro hnone
    have hwait : ofSlot key (s.batch ++ s.pending ++ s.queue) = [] :=
      ofSlot_eq_nil fun c hc => hnone c (by simp only [List.mem_append] at hc ⊢; tauto)
    have hopen : ofSlot key s.unqueued = [] :=
      ofSlot_eq_nil fun c hc => hnone c (by simp only [List.mem_append] at hc ⊢; tauto)
    rw [hwait,List.append_nil] at hsplit
    rw [hsplit] at hprefix
    refine hprefix.eq_of_length ?_
    have hlen := (ho.kept.filter fun c => c.raw.key = key).length_eq
    rw [List.filter_append,List.length_append] at hlen
    rw [← hsplit]
    have hzero := congrArg List.length hopen
    simp only [ofSlot] at hlen hzero ⊢
    rw [hlen,hzero]
    rfl

theorem ordered_start : Ordered (start : Relay σ) := by
  constructor <;> simp [start,Relay.queued,unqueued]

theorem fed_start : Fed vte draw parse start := by
  intro key session hs
  simp [start,parsedOf,ofSlot,BlockParser.feedAll]

end Relay

end Pyre.Supervisor
