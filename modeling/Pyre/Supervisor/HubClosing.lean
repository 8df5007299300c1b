import Pyre.Supervisor.MirrorHub

/-!
How the clients of a hub come to know that its pane has ended: a receiver of the hub's output
channel reports `Closed` once it is drained and no sender is left. The frame of each client
holds the hub, and with it a sender, until its own output task has ended.
-/

set_option autoImplicit false

namespace Pyre.Supervisor
open Base

namespace MirrorHubs

/-- The task of the hub has returned. -/
def Over (s : MirrorHubs) (h : Nat) : Prop := ∃ x, s.hubs.lookup h = some x ∧ x.phase = .ended

/-- A drained receiver of a hub that is over reports `Closed`. -/
def ReportsClosed (s : MirrorHubs) : Prop :=
  ∀ i c, s.clients.lookup i = some c → ∀ h input, c.phase = .serving h (some 0) input →
    s.Over h → s.senders h = 0

/-- No client waits with a drained receiver where its hub is over. -/
def NoneWaits (s : MirrorHubs) : Prop :=
  ∀ i c, s.clients.lookup i = some c → ∀ h input, c.phase = .serving h (some 0) input → ¬s.Over h

/-- The task of a hub returns when no client of it waits with a drained receiver; and no
client drains its receiver, or subscribes, after that. -/
def Attended (s : MirrorHubs) : MirrorStep → Prop
  | .remove h => (∃ x, s.hubs.lookup h = some x ∧ x.phase = .removing) →
    ∀ i c, s.clients.lookup i = some c → ∀ input, c.phase ≠ .serving h (some 0) input
  | .recv i => ∀ c, s.clients.lookup i = some c → ∀ h input, c.phase = .serving h (some 1) input →
    ¬s.Over h
  | .subscribe i sent => sent = true → ∀ c, s.clients.lookup i = some c →
    ∀ h, c.phase = .holding h → ¬s.Over h
  | _ => True

variable {s t : MirrorHubs} {i h : Nat} {c : ClientFrame} {x y : PaneMirrorHub}

/-- The frame of a client that waits is one that holds the hub. -/
theorem senders_ne_zero (hc : s.clients.lookup i = some c) (hhub : c.phase.hub = some h) :
    s.senders h ≠ 0 := by
  have hmem : c ∈ s.clients.values := List.mem_map.mpr ⟨_,Table.lookup_eq_some.mp hc,rfl⟩
  have hheld : s.Held h := Or.inr ⟨c,hmem,hhub⟩
  rw [senders,if_pos hheld]
  omega

theorem reportsClosed_iff : s.ReportsClosed ↔ s.NoneWaits := by
  constructor
  · intro hs i c hc h input hphase hover
    exact senders_ne_zero hc (by rw [hphase]; rfl) (hs i c hc h input hphase hover)
  · intro hs i c hc h input hphase hover
    exact absurd hover (hs i c hc h input hphase)

theorem noneWaits_start : start.NoneWaits := by
  intro i c hc
  cases hc

/-- One frame has moved. -/
theorem noneWaits_setClient (hs : s.NoneWaits) {phase : FramePhase} :
    (s.setClient i c phase).NoneWaits ↔
      ∀ h input, phase = .serving h (some 0) input → ¬s.Over h := by
  constructor
  · intro hall h input hphase
    exact hall i { c with phase := phase } (AList.lookup_insert _) h input hphase
  · intro hnew j d hd h input hphase
    rcases Table.lookup_insert_eq_some.mp hd with ⟨rfl,rfl⟩ | ⟨-,hd⟩
    · exact hnew h input hphase
    · exact hs j d hd h input hphase

/-- A frame comes to no wait on a receiver. -/
theorem NoneWaits.setClient (hs : s.NoneWaits) {phase : FramePhase}
    (hnew : ∀ h input, phase ≠ .serving h (some 0) input) : (s.setClient i c phase).NoneWaits :=
  (noneWaits_setClient hs).mpr fun h input hphase => absurd hphase (hnew h input)

theorem over_setHub {k : Nat} (hy : y.phase = .ended → s.Over h) (hover : (s.setHub h y).Over k) :
    s.Over k := by
  obtain ⟨z,hz,hended⟩ := hover
  rcases Table.lookup_insert_eq_some.mp hz with ⟨rfl,rfl⟩ | ⟨-,hz⟩
  · exact hy hended
  · exact ⟨z,hz,hended⟩

theorem NoneWaits.setHub (hs : s.NoneWaits) (hy : y.phase = .ended → s.Over h) :
    (s.setHub h y).NoneWaits :=
  fun i c hc k input hphase hover => hs i c hc k input hphase (over_setHub hy hover)

theorem noneWaits_frame (hs : s.NoneWaits) :
    ({ s with clients := s.clients.mapValues (deliver h) } : MirrorHubs).NoneWaits := by
  intro i d hd k input hphase
  change (s.clients.mapValues (deliver h)).lookup i = some d at hd
  rw [Table.lookup_mapValues,Option.map_eq_some_iff] at hd
  obtain ⟨c,hc,rfl⟩ := hd
  unfold deliver at hphase
  split at hphase
  · split at hphase
    · simp [hubChannelCap] at hphase
    · exact hs i c hc k input hphase
  · exact hs i c hc k input hphase

/-- The hub's task returns: none waits then just if none was drained before. -/
theorem noneWaits_remove (hs : s.NoneWaits) (hx : s.hubs.lookup h = some x) :
    ({ s.setHub h { x with phase := .ended } with
      registry := s.registry.erase x.pane } : MirrorHubs).NoneWaits ↔
        ∀ i c, s.clients.lookup i = some c → ∀ input, c.phase ≠ .serving h (some 0) input := by
  constructor
  · intro hall i c hc input hphase
    exact hall i c hc h input hphase ⟨_,AList.lookup_insert _,rfl⟩
  · intro hnone i c hc k input hphase hover
    obtain ⟨z,hz,hended⟩ := hover
    rcases Table.lookup_insert_eq_some.mp hz with ⟨rfl,rfl⟩ | ⟨-,hz⟩
    · exact hnone i c hc input hphase
    · exact hs i c hc k input hphase ⟨z,hz,hended⟩

theorem NoneWaits.same (hs : s.NoneWaits) (hclients : t.clients = s.clients)
    (hhubs : t.hubs = s.hubs) : t.NoneWaits := by
  intro i c hc h input hphase hover
  rw [hclients] at hc
  rw [Over,hhubs] at hover
  exact hs i c hc h input hphase hover

theorem attended_iff (hs : s.NoneWaits) (a : MirrorStep) :
    s.Attended a ↔ ∀ t, s.step a = some t → t.NoneWaits := by
  cases a with
  | attach i pane =>
    refine iff_of_true trivial fun t ht => ?_
    obtain ⟨-,ht⟩ := Option.ite_none_right_eq_some.mp ht
    obtain rfl := Option.some.inj ht
    exact hs.setClient (c := ⟨pane,.getting⟩) (by simp)
  | get i =>
    refine iff_of_true trivial fun t ht => ?_
    obtain ⟨c,hc,ht⟩ := Option.bind_eq_some_iff.mp ht
    split at ht
    · split at ht <;>
        · obtain rfl := Option.some.inj ht
          exact hs.setClient (by simp)
    · cases ht
  | connect i h ok =>
    refine iff_of_true trivial fun t ht => ?_
    obtain ⟨c,hc,ht⟩ := Option.bind_eq_some_iff.mp ht
    obtain ⟨-,ht⟩ := Option.ite_none_right_eq_some.mp ht
    cases ok with
    | true =>
      obtain rfl := Option.some.inj ht
      exact (hs.setClient (by simp)).setHub (by simp)
    | false =>
      obtain rfl := Option.some.inj ht
      exact hs.setClient (by simp)
  | insert i =>
    refine iff_of_true trivial fun t ht => ?_
    obtain ⟨c,hc,ht⟩ := Option.bind_eq_some_iff.mp ht
    split at ht
    · rename_i h hphase
      obtain ⟨x,hx,ht⟩ := Option.bind_eq_some_iff.mp ht
      obtain rfl := Option.some.inj ht
      have hmoved : (s.setClient i c (.starting h)).NoneWaits := hs.setClient (by simp)
      exact (hmoved.setHub (h := h) (y := { x with phase := .listed }) (by simp)).same rfl rfl
    · cases ht
  | start i =>
    refine iff_of_true trivial fun t ht => ?_
    obtain ⟨c,hc,ht⟩ := Option.bind_eq_some_iff.mp ht
    split at ht
    · obtain ⟨x,hx,ht⟩ := Option.bind_eq_some_iff.mp ht
      obtain rfl := Option.some.inj ht
      exact (hs.setClient (by simp)).setHub (by simp)
    · cases ht
  | subscribe i sent =>
    cases hc : s.clients.lookup i with
    | none => simp [Attended,step,stepClient,hc]
    | some c =>
      cases hphase : c.phase with
      | holding h =>
        cases sent with
        | true => simp [Attended,step,stepClient,hc,hphase,noneWaits_setClient hs]
        | false => simp [Attended,step,stepClient,hc,hphase,noneWaits_setClient hs]
      | getting | connecting | inserting | starting | serving | gone =>
        simp [Attended,step,stepClient,hc,hphase]
  | frame h =>
    refine iff_of_true trivial fun t ht => ?_
    obtain ⟨x,hx,ht⟩ := Option.bind_eq_some_iff.mp ht
    obtain ⟨-,ht⟩ := Option.ite_none_right_eq_some.mp ht
    obtain rfl := Option.some.inj ht
    exact noneWaits_frame hs
  | close h =>
    refine iff_of_true trivial fun t ht => ?_
    obtain ⟨x,hx,ht⟩ := Option.bind_eq_some_iff.mp ht
    obtain ⟨-,ht⟩ := Option.ite_none_right_eq_some.mp ht
    obtain rfl := Option.some.inj ht
    exact hs.setHub (by simp)
  | remove h =>
    cases hx : s.hubs.lookup h with
    | none => simp [Attended,step,stepHub,hx]
    | some x =>
      by_cases hphase : x.phase = .removing
      · simp only [Attended,step,stepHub,hx,Option.bind_some,hphase,if_true,Option.some.injEq,
          forall_eq',noneWaits_remove hs hx]
        exact ⟨fun h => h ⟨x,rfl,hphase⟩,fun h _ => h⟩
      · simp [Attended,step,stepHub,hx,hphase]
  | drainerEnds h =>
    refine iff_of_true trivial fun t ht => ?_
    obtain ⟨x,hx,ht⟩ := Option.bind_eq_some_iff.mp ht
    obtain ⟨-,ht⟩ := Option.ite_none_right_eq_some.mp ht
    obtain rfl := Option.some.inj ht
    exact hs.setHub fun hended => ⟨x,hx,hended⟩
  | recv i =>
    cases hc : s.clients.lookup i with
    | none => simp [Attended,step,stepClient,hc]
    | some c =>
      simp only [Attended,step,stepClient,hc,Option.bind_some,Option.some.injEq,forall_eq']
      split
      · rename_i h n input hphase
        simp only [Option.some.injEq,forall_eq',noneWaits_setClient hs,hphase]
        simp
      · rename_i hphase
        simp only [reduceCtorEq,false_implies,implies_true,iff_true]
        exact fun h input heq => absurd heq (hphase h 0 input)
  | writeFails i =>
    refine iff_of_true trivial fun t ht => ?_
    obtain ⟨c,hc,ht⟩ := Option.bind_eq_some_iff.mp ht
    split at ht
    · obtain rfl := Option.some.inj ht
      exact hs.setClient (by simp)
    · cases ht
  | closed i =>
    refine iff_of_true trivial fun t ht => ?_
    obtain ⟨c,hc,ht⟩ := Option.bind_eq_some_iff.mp ht
    split at ht
    · obtain ⟨-,ht⟩ := Option.ite_none_right_eq_some.mp ht
      obtain rfl := Option.some.inj ht
      exact hs.setClient (by simp)
    · cases ht
  | hangUp i =>
    refine iff_of_true trivial fun t ht => ?_
    obtain ⟨c,hc,ht⟩ := Option.bind_eq_some_iff.mp ht
    split at ht
    · rename_i h output hphase
      obtain rfl := Option.some.inj ht
      refine (noneWaits_setClient hs).mpr fun k input heq => ?_
      obtain ⟨rfl,rfl,-⟩ := FramePhase.serving.inj heq
      exact hs i c hc h true hphase
    · cases ht
  | inputFails i =>
    refine iff_of_true trivial fun t ht => ?_
    obtain ⟨c,hc,ht⟩ := Option.bind_eq_some_iff.mp ht
    split at ht
    · rename_i h output hphase
      obtain ⟨x,-,ht⟩ := Option.bind_eq_some_iff.mp ht
      obtain ⟨-,ht⟩ := Option.ite_none_left_eq_some.mp ht
      obtain rfl := Option.some.inj ht
      refine (noneWaits_setClient hs).mpr fun k input heq => ?_
      obtain ⟨rfl,rfl,-⟩ := FramePhase.serving.inj heq
      exact hs i c hc h true hphase
    · cases ht
  | leave i =>
    refine iff_of_true trivial fun t ht => ?_
    obtain ⟨c,hc,ht⟩ := Option.bind_eq_some_iff.mp ht
    split at ht
    · obtain rfl := Option.some.inj ht
      exact hs.setClient (by simp)
    · cases ht

end MirrorHubs

open MirrorHubs

/-- Clients see the end of their pane in just those runs in which none of them is left by
then. -/
theorem clients_see_end_iff (steps : List MirrorStep) :
    Always MirrorHubs.step ReportsClosed .start steps ↔
      Along MirrorHubs.step Attended .start steps := by
  have hiff : Along MirrorHubs.step Attended .start steps ↔
      Always MirrorHubs.step NoneWaits .start steps :=
    along_iff_always (I := fun _ => True) (fun _ _ _ _ _ => trivial)
      (fun s a _ hs => attended_iff hs a) trivial noneWaits_start
  rw [hiff]
  exact ⟨fun h => h.mono fun t ht => reportsClosed_iff.mp ht,
    fun h => h.mono fun t ht => reportsClosed_iff.mpr ht⟩

/-- A client has received all output when its pane ends, and nothing is left that could wake
it: the one sender left is that of its own frame. -/
theorem client_left_waiting :
    ¬∀ steps, Always MirrorHubs.step ReportsClosed .start steps := by
  intro h
  have hrun : (exec MirrorHubs.step .start [.attach 0 ⟨1⟩,.get 0,.connect 0 0 true,.insert 0,
      .start 0,.subscribe 0 true,.frame 0,.recv 0,.close 0,.remove 0]).any fun t =>
      t.clients.lookup 0 = some ⟨⟨1⟩,.serving 0 (some 0) true⟩ ∧
        t.hubs.lookup 0 = some ⟨⟨1⟩,0,.ended,true⟩ ∧ t.senders 0 = 1 := by decide
  obtain ⟨t,ht,hrun⟩ := (Option.any_eq_true _ _).mp hrun
  obtain ⟨hclient,hhub,hsenders⟩ := of_decide_eq_true hrun
  have hzero := (h _).last ht 0 _ hclient 0 true rfl ⟨_,hhub,rfl⟩
  omega

end Pyre.Supervisor
