import Pyre.Events.Delivery

/-!
A client that outlives the daemon it polls. A new daemon numbers its events from 1
again, the client goes on with the cursor it has, and no message says which daemon
a number is from.
-/

set_option autoImplicit false

namespace Pyre.Events
open Base

/-- The client with the daemon that runs now. `carried` is the cursor the client had
when this daemon started, `polled` the last number given out before its first poll. -/
structure Connection where
  system : System
  carried : Nat
  polled : Option Nat
  deriving DecidableEq, Repr

inductive ConnectionAction where
  | daemon (a : Action)
  | restart
  deriving DecidableEq, Repr

namespace Connection

def start : Connection := ⟨.start 0,0,none⟩

/-- A restart ends the call that is open and loses the bus; the cursor stays. What is
logged as delivered is what this daemon delivered. -/
def step (s : Connection) : ConnectionAction → Option Connection
  | .daemon a =>
    (s.system.step a).map fun system =>
      { s with
        system := system
        polled := if a = .poll then s.polled.or (some s.system.bus.seq) else s.polled }
  | .restart =>
    some ⟨.start s.system.client.cursor,s.system.client.cursor,none⟩

/-- After a poll the client has every event that the poll found stored and that this
daemon emitted after the first poll. -/
def NoneWithheld (s : Connection) : Prop :=
  ∀ mark, s.polled = some mark → s.system.client.poll = .idle →
    ∀ e ∈ s.system.bus.published.take s.system.client.seen, mark < e.seq →
      e ∈ s.system.client.delivered

/-- A daemon that has been polled numbers its events above the cursor that was carried
over to it. -/
def AboveCarried (s : Connection) : ConnectionAction → Prop
  | .daemon (.take _ _ _ _) => s.polled.isSome → s.carried ≤ s.system.bus.seq
  | _ => True

def InOrder (s : Connection) : ConnectionAction → Prop
  | .daemon a => Events.InOrder s.system a
  | .restart => True

def WithinRing (s : Connection) : ConnectionAction → Prop
  | .daemon a => Events.WithinRing s.system a
  | .restart => True

instance (s : Connection) : DecidablePred (AboveCarried s) := fun a => by
  unfold AboveCarried
  split <;> infer_instance

instance (s : Connection) : DecidablePred (InOrder s) := fun a => by
  cases a <;> unfold InOrder <;> infer_instance

instance (s : Connection) : DecidablePred (WithinRing s) := fun a => by
  cases a <;> unfold WithinRing <;> infer_instance

end Connection

theorem System.issued_step {s t : System} {a : Action} (h : s.step a = some t) :
    t.bus.issued = s.bus.issued ∨
      ∃ pane kind state agent, a = .take pane kind state agent ∧
        t.bus.issued = s.bus.issued ++ [⟨s.bus.seq+1,pane,kind,state,agent⟩] := by
  cases a with
  | take pane kind state agent =>
    simp only [System.step,Option.some.injEq] at h
    exact Or.inr ⟨pane,kind,state,agent,rfl,by rw [← h]; rfl⟩
  | push e =>
    simp only [System.step,Option.ite_none_right_eq_some,Option.some.injEq] at h
    exact Or.inl (by rw [← h.2]; rfl)
  | broadcast e =>
    simp only [System.step,Option.ite_none_right_eq_some,Option.some.injEq] at h
    exact Or.inl (by rw [← h.2]; rfl)
  | _ =>
    left
    simp only [System.step] at h
    cases hp : s.client.poll <;> simp only [hp,reduceCtorEq] at h
    all_goals grind

namespace Connection

/-- The order of the events, and the numbers given out since the first poll. -/
structure Steady (s : Connection) : Prop where
  system : Events.Steady s.carried s.system
  above : ∀ mark, s.polled = some mark →
    ∀ e ∈ s.system.bus.issued, mark < e.seq → s.carried < e.seq

theorem Steady.step {s t : Connection} (h : Steady s) {a : ConnectionAction}
    (hc : s.InOrder a ∧ s.WithinRing a ∧ s.AboveCarried a) (hstep : s.step a = some t) :
    Steady t := by
  obtain ⟨horder,hring,habove⟩ := hc
  cases a with
  | restart =>
    simp only [Connection.step,Option.some.injEq] at hstep
    subst hstep
    exact ⟨Events.Steady.start _,by simp⟩
  | daemon a =>
    simp only [Connection.step,Option.map_eq_some_iff] at hstep
    obtain ⟨system,hsystem,rfl⟩ := hstep
    refine ⟨h.system.step ⟨horder,hring⟩ hsystem,?_⟩
    intro mark hmark e he hlt
    by_cases hpoll : a = .poll
    · -- The first poll sets the mark; nothing numbered so far is above it.
      rcases System.issued_step hsystem with hissued | ⟨pane,kind,state,agent,rfl,_⟩
      · rw [hissued] at he
        have hle := h.system.issued_le he
        cases hp : s.polled with
        | none =>
          simp only [hpoll,hp,if_true,Option.none_or,Option.some.injEq] at hmark
          omega
        | some m =>
          simp only [hpoll,hp,if_true,Option.some_or,Option.some.injEq] at hmark
          exact h.above m hp e he (by omega)
      · cases hpoll
    · simp only [hpoll,if_false] at hmark
      rcases System.issued_step hsystem with hissued | ⟨pane,kind,state,agent,rfl,hissued⟩
      · rw [hissued] at he
        exact h.above mark hmark e he hlt
      · rw [hissued,List.mem_append,List.mem_singleton] at he
        rcases he with he | rfl
        · exact h.above mark hmark e he hlt
        · have hcarried := habove (by rw [hmark]; rfl)
          exact Nat.lt_succ_of_le hcarried

theorem Steady.noneWithheld {s : Connection} (h : Steady s) : NoneWithheld s := by
  intro mark hmark hidle e he hlt
  have hissued : e ∈ s.system.bus.issued := by
    rw [← h.system.taken]
    exact List.mem_append_left _ (List.mem_of_mem_take he)
  exact h.system.complete hidle he (h.above mark hmark e hissued hlt)

end Connection

/-- A daemon delivers what it emits once polled in the runs where it has counted up to
the cursor that was carried over before it emits again. -/
theorem noneWithheld_of_aboveCarried (actions : List ConnectionAction)
    (h : Along Connection.step
      (fun s a => s.InOrder a ∧ s.WithinRing a ∧ s.AboveCarried a) .start actions) :
    Always Connection.step Connection.NoneWithheld .start actions := by
  have hstart : Connection.Steady .start := ⟨Events.Steady.start 0,by simp [Connection.start]⟩
  have hsteady := h.invariant (fun _ _ _ hs hc hstep => Connection.Steady.step hs hc hstep) hstart
  exact hsteady.mono fun _ hs => hs.noneWithheld

/-- The new daemon has emitted as often as the old one when it is first polled. -/
theorem noneWithheld_after_restart :
    Always Connection.step Connection.NoneWithheld .start
      ([.daemon (.take ⟨1⟩ .spawned none none),.daemon (.push ⟨1,⟨1⟩,.spawned,none,none⟩),
        .daemon .poll,.daemon .read,.restart,
        .daemon (.take ⟨2⟩ .spawned none none),.daemon (.push ⟨1,⟨2⟩,.spawned,none,none⟩),
        .daemon .poll,.daemon .read,.daemon .timeout,
        .daemon (.take ⟨2⟩ .closed none none),.daemon (.push ⟨2,⟨2⟩,.closed,none,none⟩),
        .daemon .poll,.daemon .read]) :=
  noneWithheld_of_aboveCarried _ (by decide)

/-- The client brings the cursor 1, so the first event of the new daemon is old to it. -/
theorem first_event_withheld :
    ¬∀ actions, Along Connection.step (fun s a => s.InOrder a ∧ s.WithinRing a) .start actions →
      Always Connection.step Connection.NoneWithheld .start actions := by
  intro h
  let old : PaneEvent := ⟨1,⟨1⟩,.spawned,none,none⟩
  let first : PaneEvent := ⟨1,⟨2⟩,.closed,none,none⟩
  have hrun := h [.daemon (.take ⟨1⟩ .spawned none none),.daemon (.push old),
    .daemon .poll,.daemon .read,.restart,.daemon .poll,.daemon .read,.daemon .timeout,
    .daemon (.take ⟨2⟩ .closed none none),.daemon (.push first),.daemon (.broadcast first),
    .daemon .poll,.daemon .read,.daemon .timeout] (by decide)
  have hlost := hrun.last rfl 0 rfl rfl first (by decide) (by decide)
  exact absurd hlost (by decide)

end Pyre.Events
