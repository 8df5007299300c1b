import Mathlib.Data.Finset.Erase
import Mathlib.Data.Finset.Insert
import Pyre.Base.Run

/-!
The control client that the commands of the GUI bridge share. A command connects where none
is cached and else takes the one that is, and only `reconnect` drops it; the flag the GUI
shows is what the last `daemon_status` or `reconnect` has reported.
-/

set_option autoImplicit false

namespace Pyre.Gui
open Base

/-- Connections are numbered; `alive` are those whose socket is open. `connected` is the flag
of the GUI. -/
structure Bridge where
  listening : Bool
  alive : Finset Nat
  next : Nat
  client : Option Nat
  spawnAttempted : Bool
  connected : Bool

/-- `command` is any of the commands that make one RPC. `spawned` is whether a `pyred` that
`ensure_client` starts comes to listen. -/
inductive BridgeStep where
  | daemonStarts
  | daemonExits
  | socketCloses (client : Nat)
  | daemonStatus (spawned : Bool)
  | reconnect (spawned : Bool)
  | command (spawned : Bool)
  | startPane (spawned : Bool)
  deriving DecidableEq, Repr

namespace Bridge

def start : Bridge := ⟨false,∅,0,none,false,false⟩

def connectControl (s : Bridge) : Bridge × Option Nat :=
  ({ s with alive := insert s.next s.alive, next := s.next+1, client := some s.next },some s.next)

/-- Once in its life the bridge starts a daemon where it finds none. -/
def ensureClient (s : Bridge) (spawned : Bool) : Bridge × Option Nat :=
  match s.client with
  | some c => (s,some c)
  | none =>
    if s.listening then s.connectControl
    else if s.spawnAttempted then (s,none)
    else if spawned then
      ({ s with spawnAttempted := true, listening := true } : Bridge).connectControl
    else ({ s with spawnAttempted := true },none)

/-- The report is `connected`, and the GUI's flag is set to it. -/
def report (s : Bridge) (spawned : Bool) : Bridge :=
  { (s.ensureClient spawned).1 with connected := (s.ensureClient spawned).2.isSome }

def step (s : Bridge) : BridgeStep → Option Bridge
  | .daemonStarts => some { s with listening := true }
  | .daemonExits => some { s with listening := false, alive := ∅ }
  | .socketCloses c => some { s with alive := s.alive.erase c }
  | .daemonStatus spawned => some (s.report spawned)
  | .reconnect spawned => some (({ s with client := none } : Bridge).report spawned)
  | .command spawned => some (s.ensureClient spawned).1
  | .startPane spawned => some (({ s with client := none } : Bridge).ensureClient spawned).1

/-- The RPC of a command would succeed now, on this client. -/
def SucceedsOn (s : Bridge) (spawned : Bool) (c : Nat) : Prop :=
  (s.ensureClient spawned).2 = some c ∧ c ∈ (s.ensureClient spawned).1.alive

/-- `daemon_status` reports a connection only if an RPC on the client it leaves succeeds. -/
def Truthful (s : Bridge) : Prop :=
  ∀ spawned, (s.ensureClient spawned).2.isSome → ∃ c ∈ (s.ensureClient spawned).1.client,
    c ∈ (s.ensureClient spawned).1.alive

/-- After a command that fails each command succeeds while a daemon listens, and does so on a
connection that was made since. -/
def Recovers (es : List BridgeStep) : Prop :=
  ∀ pre spawned bs, pre ++ .command spawned :: bs <+: es → ∀ s t u,
    exec step .start pre = some s → step s (.command spawned) = some t →
      (∀ c, ¬s.SucceedsOn spawned c) → exec step t bs = some u → u.listening →
        ∀ spawned', ∃ c, t.next ≤ c ∧ u.SucceedsOn spawned' c

/-- The socket of a client that is cached stays open. -/
def KeepsSocket (s : Bridge) : BridgeStep → Prop
  | .daemonExits => s.client = none
  | .socketCloses c => s.client ≠ some c
  | _ => True

/-! The cached client. -/

def Healthy (s : Bridge) : Prop := ∀ c ∈ s.client, c ∈ s.alive

variable {s t : Bridge} {spawned : Bool} {c n : Nat}

theorem healthy_start : start.Healthy := fun c hc => by cases hc

theorem healthy_connectControl (s : Bridge) : s.connectControl.1.Healthy := by
  intro c hc
  obtain rfl := Option.some.inj hc
  exact Finset.mem_insert_self _ _

theorem Healthy.ensureClient (h : s.Healthy) (spawned : Bool) :
    (s.ensureClient spawned).1.Healthy := by
  unfold Bridge.ensureClient
  split
  · exact h
  · rename_i hnone
    split
    · exact s.healthy_connectControl
    · split
      · exact h
      · split
        · exact healthy_connectControl _
        · intro c hc
          rw [show _ = none from hnone] at hc
          cases hc

/-- What `ensure_client` returns is what it leaves in the cache. -/
theorem client_ensureClient (s : Bridge) (spawned : Bool) :
    (s.ensureClient spawned).1.client = (s.ensureClient spawned).2 := by
  unfold Bridge.ensureClient
  split
  · assumption
  · rename_i hnone
    split
    · rfl
    · split
      · exact hnone
      · split
        · rfl
        · exact hnone

/-- A connection that dies while it is cached makes the report wrong. -/
theorem truthful_iff : s.Truthful ↔ s.Healthy := by
  constructor
  · intro h c hc
    have hkeep : s.ensureClient false = (s,some c) := by
      rw [Bridge.ensureClient,show s.client = some c from hc]
    obtain ⟨c',hc',halive⟩ := h false (by rw [hkeep]; rfl)
    rw [hkeep] at hc' halive
    obtain rfl := Option.some.inj (Option.mem_def.mp hc |>.symm.trans hc')
    exact halive
  · intro h spawned hsome
    obtain ⟨c,hc⟩ := Option.isSome_iff_exists.mp hsome
    have hclient := (s.client_ensureClient spawned).trans hc
    exact ⟨c,hclient,h.ensureClient spawned c hclient⟩

theorem healthy_step_iff {e : BridgeStep} (h : s.Healthy) :
    s.KeepsSocket e ↔ ∀ t, s.step e = some t → t.Healthy := by
  cases e with
  | daemonStarts => exact iff_of_true trivial fun t ht => Option.some.inj ht ▸ h
  | daemonExits =>
    simp only [KeepsSocket,step,Option.some.injEq,forall_eq',Healthy]
    cases s.client with
    | none => simp
    | some c => simp
  | socketCloses c =>
    simp only [KeepsSocket,step,Option.some.injEq,forall_eq',Healthy,Finset.mem_erase]
    constructor
    · intro hne c' hc'
      refine ⟨?_,h c' hc'⟩
      rintro rfl
      exact hne hc'
    · intro hall hc
      exact (hall c hc).1 rfl
  | daemonStatus spawned =>
    exact iff_of_true trivial fun t ht => Option.some.inj ht ▸ h.ensureClient spawned
  | reconnect spawned =>
    refine iff_of_true trivial fun t ht => Option.some.inj ht ▸ ?_
    exact Healthy.ensureClient (fun c hc => by cases hc) spawned
  | command spawned =>
    exact iff_of_true trivial fun t ht => Option.some.inj ht ▸ h.ensureClient spawned
  | startPane spawned =>
    refine iff_of_true trivial fun t ht => Option.some.inj ht ▸ ?_
    exact Healthy.ensureClient (fun c hc => by cases hc) spawned

theorem along_iff_truthful (es : List BridgeStep) :
    Along step KeepsSocket .start es ↔ Always step Truthful .start es := by
  have hiff : Along step KeepsSocket .start es ↔ Always step Healthy .start es :=
    along_iff_always (I := fun _ => True) (fun _ _ _ _ _ => trivial)
      (fun s e _ h => healthy_step_iff h) trivial healthy_start
  exact hiff.trans
    ⟨fun h => h.mono fun _ => truthful_iff.mpr,fun h => h.mono fun _ => truthful_iff.mp⟩

/-! After a failure. -/

/-- What is cached was connected since the number was the next one. -/
structure Since (n : Nat) (s : Bridge) : Prop where
  next : n ≤ s.next
  client : ∀ c ∈ s.client, n ≤ c

theorem Since.connectControl (h : n ≤ s.next) : s.connectControl.1.Since n where
  next := Nat.le_succ_of_le h
  client c hc := by
    obtain rfl := Option.some.inj hc
    exact h

theorem Since.ensureClient (h : s.Since n) (spawned : Bool) :
    (s.ensureClient spawned).1.Since n := by
  unfold Bridge.ensureClient
  split
  · exact h
  · split
    · exact .connectControl h.next
    · split
      · exact h
      · split
        · exact .connectControl h.next
        · exact ⟨h.next,h.client⟩

theorem Since.dropClient (h : s.Since n) : ({ s with client := none } : Bridge).Since n :=
  ⟨h.next,fun c hc => by cases hc⟩

theorem Since.step {e : BridgeStep} (h : s.Since n) (hstep : s.step e = some t) : t.Since n := by
  cases e with
  | daemonStarts => exact Option.some.inj hstep ▸ ⟨h.next,h.client⟩
  | daemonExits => exact Option.some.inj hstep ▸ ⟨h.next,h.client⟩
  | socketCloses c => exact Option.some.inj hstep ▸ ⟨h.next,h.client⟩
  | daemonStatus spawned =>
    have hensure := h.ensureClient spawned
    exact Option.some.inj hstep ▸ ⟨hensure.next,hensure.client⟩
  | reconnect spawned =>
    have hensure := h.dropClient.ensureClient spawned
    exact Option.some.inj hstep ▸ ⟨hensure.next,hensure.client⟩
  | command spawned => exact Option.some.inj hstep ▸ h.ensureClient spawned
  | startPane spawned => exact Option.some.inj hstep ▸ h.dropClient.ensureClient spawned

/-- With a client that is alive only the connecting can fail, and leaves none. -/
theorem since_of_failure (h : s.Healthy) (hfail : ∀ c, ¬s.SucceedsOn spawned c) :
    (s.ensureClient spawned).1.Since (s.ensureClient spawned).1.next := by
  refine ⟨Nat.le_refl _,fun c hc => ?_⟩
  have hret := (s.client_ensureClient spawned).symm.trans hc
  exact absurd ⟨hret,h.ensureClient spawned c hc⟩ (hfail c)

theorem succeeds_of_listening (h : s.Healthy) (hn : s.Since n) (hlisten : s.listening)
    (spawned : Bool) : ∃ c, n ≤ c ∧ s.SucceedsOn spawned c := by
  have hret : ∃ c, (s.ensureClient spawned).2 = some c := by
    unfold Bridge.ensureClient
    split
    · exact ⟨_,rfl⟩
    · rw [if_pos hlisten]
      exact ⟨_,rfl⟩
  obtain ⟨c,hc⟩ := hret
  have hclient := (s.client_ensureClient spawned).trans hc
  exact ⟨c,(hn.ensureClient spawned).client c hclient,hc,h.ensureClient spawned c hclient⟩

theorem recovers_of_along {es : List BridgeStep} (h : Along step KeepsSocket .start es) :
    Recovers es := by
  intro pre spawned bs hpre s t u hs ht hfail hu hlisten spawned'
  have hall := h.invariant (fun s e t hs hk => (healthy_step_iff hs).mp hk t) healthy_start
  have hhealthy : s.Healthy := hall pre ((List.prefix_append pre _).trans hpre) s hs
  obtain rfl := Option.some.inj ht
  have hsince := since_of_failure hhealthy hfail
  have hu' : exec step .start (pre ++ .command spawned :: bs) = some u := by
    rw [exec_append,hs,Option.bind_some,exec_cons,ht,Option.bind_some,hu]
  have hsinceu := (Always.of_invariant (fun _ _ _ h hstep => Since.step h hstep) hsince bs).last hu
  exact succeeds_of_listening (hall _ hpre u hu') hsinceu hlisten spawned'

/-! A client that is dead and cached. -/

/-- The cached client is dead, and the GUI's flag is set if `flag`. -/
structure Dead (flag : Bool) (c : Nat) (s : Bridge) : Prop where
  client : s.client = some c
  dead : c ∉ s.alive
  flag : flag → s.connected

theorem Dead.fails {flag : Bool} (h : s.Dead flag c) (spawned : Bool) (c' : Nat) :
    ¬s.SucceedsOn spawned c' := by
  rintro ⟨hret,halive⟩
  rw [Bridge.ensureClient,h.client] at hret halive
  obtain rfl := Option.some.inj hret
  exact h.dead halive

/-- Without `reconnect` and `start_pane` it stays in the cache, every RPC fails, and the flag
never goes down. -/
theorem Dead.step {flag : Bool} {e : BridgeStep} (h : s.Dead flag c)
    (he : ∀ spawned, e ≠ .reconnect spawned ∧ e ≠ .startPane spawned)
    (hstep : s.step e = some t) : t.Dead flag c := by
  have hkeep : ∀ spawned, s.ensureClient spawned = (s,some c) := by
    intro spawned
    rw [Bridge.ensureClient,h.client]
  cases e with
  | daemonStarts => exact Option.some.inj hstep ▸ ⟨h.client,h.dead,h.flag⟩
  | daemonExits => exact Option.some.inj hstep ▸ ⟨h.client,by simp,h.flag⟩
  | socketCloses c' =>
    exact Option.some.inj hstep ▸ ⟨h.client,fun hc => h.dead (Finset.mem_of_mem_erase hc),h.flag⟩
  | daemonStatus spawned =>
    obtain rfl := Option.some.inj hstep
    simp only [report,hkeep]
    exact ⟨h.client,h.dead,fun _ => rfl⟩
  | reconnect spawned => exact absurd rfl (he spawned).1
  | command spawned =>
    obtain rfl := Option.some.inj hstep
    rw [hkeep]
    exact h
  | startPane spawned => exact absurd rfl (he spawned).2

end Bridge

/-- The report of `daemon_status` is true all along a run, and the commands recover from every
failure in it, just when no client's socket closes while it is cached. -/
theorem no_dead_client_iff (es : List BridgeStep) :
    Along Bridge.step Bridge.KeepsSocket .start es ↔
      Always Bridge.step Bridge.Truthful .start es ∧ Bridge.Recovers es := by
  constructor
  · intro h
    exact ⟨(Bridge.along_iff_truthful es).mp h,Bridge.recovers_of_along h⟩
  · intro h
    exact (Bridge.along_iff_truthful es).mpr h.1

/-- The daemon is restarted while the GUI has a connection to it. -/
def daemonRestart : List BridgeStep :=
  [.daemonStarts,.daemonStatus false,.daemonExits,.daemonStarts]

/-- `daemon_status` goes on to report a connection, and of two commands in a row on the dead
client the second fails like the first. -/
theorem dead_client_stays : (¬∀ es, Always Bridge.step Bridge.Truthful .start es) ∧
    ¬∀ es, Bridge.Recovers es := by
  have hrestart : exec Bridge.step .start daemonRestart = some ⟨true,∅,1,some 0,false,true⟩ := rfl
  have hdead : (⟨true,∅,1,some 0,false,true⟩ : Bridge).Dead true 0 := ⟨rfl,by simp,fun _ => rfl⟩
  constructor
  · intro h
    obtain ⟨c,-,halive⟩ := (h daemonRestart).last hrestart false rfl
    exact absurd halive (Finset.notMem_empty c)
  · intro h
    obtain ⟨c,-,hsucceeds⟩ := h (daemonRestart ++ [.command false]) daemonRestart false []
      (List.prefix_refl _) _ _ _ hrestart rfl (hdead.fails false) rfl rfl false
    exact hdead.fails false c hsucceeds

end Pyre.Gui
