import Pyre.State.Tracker
import Pyre.Supervisor.Failures

/-!
`wait_pane_state`: a daemon of its own watches the pane's tracker, the supervisor polls the list of
all panes. A client's request fails ten seconds after it was made. Times are in nanoseconds.
-/

set_option autoImplicit false

namespace Pyre.Supervisor
open Base Events State

def fromMillis (n : Nat) : Nat := 1000000*n

/-- What a tracker publishes and when, and when the pane leaves the registry. The ticks of the
engine have different times. -/
structure PaneLife where
  first : PaneStateKind
  published : List (Nat × PaneStateKind)
  ended : Option Nat
  ordered : published.Pairwise fun p q => p.1 < q.1

namespace PaneLife

variable (life : PaneLife) {s : PaneStateKind} {t : Nat}

/-- The state last published. -/
def stateAt (t : Nat) : PaneStateKind :=
  ((life.published.filter fun p => p.1 ≤ t).getLast?.map Prod.snd).getD life.first

def LiveAt (t : Nat) : Prop := ∀ e ∈ life.ended, t < e

instance : DecidablePred life.LiveAt := fun _ => inferInstanceAs (Decidable (∀ e ∈ life.ended, _))

def InState (s : PaneStateKind) (t : Nat) : Prop := life.LiveAt t ∧ life.stateAt t = s

instance : Decidable (life.InState s t) := inferInstanceAs (Decidable (_ ∧ _))

variable {life}

theorem stateAt_published (h : (t,s) ∈ life.published) : life.stateAt t = s := by
  obtain ⟨before,after,hsplit⟩ := List.append_of_mem h
  have hordered := life.ordered
  rw [hsplit,List.pairwise_append,List.pairwise_cons] at hordered
  obtain ⟨-,⟨hafter,-⟩,-⟩ := hordered
  -- what comes after is published later
  have hlater : after.filter (fun p => decide (p.1 ≤ t)) = [] := by
    refine List.filter_eq_nil_iff.mpr fun p hp => ?_
    have hlt := hafter p hp
    simpa using hlt
  simp [stateAt,hsplit,List.filter_append,hlater]

end PaneLife

/-- The clients' timeouts: of the request itself, of the tool (where `as_u64` finds one), and of the
command. -/
inductive Timeout where
  | request (timeoutMs : UInt32)
  | tool (timeoutSecs : Option UInt64)
  | command (timeout : UInt32)
  deriving DecidableEq

def u32Size : Nat := 2^32

def saturatingMul (a b : Nat) : Nat := min (a*b) (u32Size-1)

namespace Timeout

/-- The milliseconds that the daemon is sent. -/
def sent : Timeout → Nat
  | .request timeoutMs => timeoutMs.toNat
  | .tool timeoutSecs =>
    let timeoutSecs := (timeoutSecs.getD 30).toNat % u32Size
    saturatingMul timeoutSecs 1000
  | .command timeout => saturatingMul timeout.toNat 1000

/-- The milliseconds that the client means. -/
def meant : Timeout → Nat
  | .request timeoutMs => timeoutMs.toNat
  | .tool timeoutSecs => (timeoutSecs.getD 30).toNat*1000
  | .command timeout => timeout.toNat*1000

/-- Neither the cut to 32 bits nor the saturation matters to a short timeout. -/
theorem sent_of_short {timeout : Timeout} (h : timeout.meant < 10000) :
    timeout.sent = timeout.meant := by
  cases timeout with
  | request timeoutMs => rfl
  | tool timeoutSecs =>
    simp only [meant] at h
    have hcut : (timeoutSecs.getD 30).toNat % u32Size = (timeoutSecs.getD 30).toNat :=
      Nat.mod_eq_of_lt (by simp only [u32Size]; omega)
    simp only [sent,meant,saturatingMul,hcut]
    simp only [u32Size]
    omega
  | command timeout =>
    simp only [meant] at h
    simp only [sent,meant,saturatingMul,u32Size]
    omega

end Timeout

/-- A request that is made for a pane, and the pane. -/
structure Wait where
  life : PaneLife
  pane : PaneId
  state : PaneStateKind
  timeout : Timeout
  called : Nat

structure WaitReply where
  answer : Except PyreError Bool
  replied : Nat

/-- What the client gets. -/
inductive Received where
  | reply (answer : Except PyreError Bool)
  | transport
  deriving DecidableEq

namespace Wait

variable (w : Wait)

def deadline : Nat := w.called+fromMillis (max w.timeout.sent 1)

/-- The end of the context that the clients make. -/
def expiry : Nat := w.called+fromSecs 10

def receive (r : WaitReply) : Received :=
  if r.replied < w.expiry then .reply r.answer else .transport

section single

/-! A handler runs as soon as it is woken. Where the sleep ends as the state changes, either may be
taken. -/

variable (sleepFirst : Bool)

def ComesFirst (t : Nat) : Prop := t < w.deadline ∨ t = w.deadline ∧ sleepFirst = false

instance : DecidablePred (w.ComesFirst sleepFirst) := fun _ => inferInstanceAs (Decidable (_ ∨ _))

/-- The loop over what is published from then on. -/
def watch : List (Nat × PaneStateKind) → Bool × Nat
  | [] => (false,w.deadline)
  | (t,s) :: rest =>
    if w.ComesFirst sleepFirst t then
      if s = w.state then (true,t) else watch rest
    else (false,w.deadline)

/-- The handler holds on to the pane, so that its channel stays open when the pane ends. -/
def single : WaitReply :=
  if w.life.LiveAt w.called then
    if w.life.stateAt w.called = w.state then ⟨.ok true,w.called⟩
    else
      let r := w.watch sleepFirst (w.life.published.filter fun p => w.called < p.1)
      ⟨.ok r.1,r.2⟩
  else ⟨.error (.noSuchPane w.pane),w.called⟩

end single

end Wait

/-- One listing of all panes: the time until the pane's worker reads the tracker, the time from then
until the list is there, and whether the worker answers. -/
structure PaneListing where
  reading : Nat
  rest : Nat
  answers : Bool

namespace Wait

variable (w : Wait)

section hybrid

variable (listings : Nat → PaneListing)

def pause : Nat := fromMillis 200

def askedAt : Nat → Nat
  | 0 => w.called
  | k+1 => askedAt k+(listings k).reading+(listings k).rest+pause

def readAt (k : Nat) : Nat := w.askedAt listings k+(listings k).reading

def listedAt (k : Nat) : Nat := w.readAt listings k+(listings k).rest

/-- The list has the pane, in the state. -/
def Finds (k : Nat) : Prop :=
  (listings k).answers = true ∧ w.life.InState w.state (w.readAt listings k)

instance : DecidablePred (w.Finds listings) := fun _ => inferInstanceAs (Decidable (_ ∧ _))

theorem askedAt_succ (k : Nat) :
    w.askedAt listings (k+1) = w.listedAt listings k+pause := rfl

theorem askedAt_lt (k : Nat) : w.askedAt listings k < w.askedAt listings (k+1) := by
  have hpause : 0 < pause := by decide
  rw [askedAt]
  omega

def poll (k : Nat) : Bool × Nat :=
  if h : w.askedAt listings k < w.deadline then
    if w.Finds listings k then (true,w.listedAt listings k) else poll (k+1)
  else (false,w.askedAt listings k)
termination_by w.deadline-w.askedAt listings k
decreasing_by
  have hlt := w.askedAt_lt listings k
  omega

/-- A pane that is not listed is waited for like any other. -/
def hybrid : WaitReply :=
  let r := w.poll listings 0
  ⟨.ok r.1,r.2⟩

end hybrid

/-- The pane is in the state at the call, or comes into it before the timeout and stays for a tick
of the engine. -/
def Reached : Prop :=
  w.life.InState w.state w.called ∨
    ∃ t, w.called < t ∧ t < w.called+fromMillis w.timeout.meant ∧
      (t,w.state) ∈ w.life.published ∧ ∀ u, t ≤ u → u < t+fromMillis 500 → w.life.InState w.state u

/-- The contract: true where the state is reached, false where it is not and the timeout is over,
and `NoSuchPane` where the pane is not live. -/
def Honours (r : WaitReply) : Prop :=
  if w.life.LiveAt w.called then
    w.receive r = .reply (.ok true) ∧
        (∃ t, w.called ≤ t ∧ t ≤ r.replied ∧ w.life.stateAt t = w.state) ∨
      w.receive r = .reply (.ok false) ∧
        w.called+fromMillis w.timeout.meant ≤ r.replied ∧ ¬w.Reached
  else w.receive r = .reply (.error (.noSuchPane w.pane))

/-- The state is there or is published early enough, or the timeout is one that a request can
have. -/
def WatchedInTime (sleepFirst : Bool) : Prop :=
  w.life.LiveAt w.called → w.life.stateAt w.called = w.state ∨
    (∃ t, (t,w.state) ∈ w.life.published ∧ w.called < t ∧ w.ComesFirst sleepFirst t ∧
      t < w.expiry) ∨
    w.timeout.meant < 10000

/-- A listing finds the pane in the state early enough; or the state is not reached, and within the
ten seconds the clock is looked at after the timeout. -/
def PolledInTime (listings : Nat → PaneListing) : Prop :=
  w.life.LiveAt w.called ∧
    ((∃ k, w.askedAt listings k < w.deadline ∧ w.Finds listings k ∧
        w.listedAt listings k < w.expiry) ∨
      ¬w.Reached ∧ w.timeout.meant < 10000 ∧
        ∃ k, w.deadline ≤ w.askedAt listings k ∧ w.askedAt listings k < w.expiry)

variable {w}

theorem receive_of_lt {r : WaitReply} (h : r.replied < w.expiry) : w.receive r = .reply r.answer :=
  if_pos h

theorem receive_eq_reply {r : WaitReply} {answer : Except PyreError Bool} :
    w.receive r = .reply answer ↔ r.replied < w.expiry ∧ r.answer = answer := by
  unfold receive
  split <;> simp [*]

theorem honours_of_live {r : WaitReply} {reached : Bool} (hlive : w.life.LiveAt w.called)
    (hanswer : r.answer = .ok reached) :
    w.Honours r ↔ r.replied < w.expiry ∧
      if reached then ∃ t, w.called ≤ t ∧ t ≤ r.replied ∧ w.life.stateAt t = w.state
      else w.called+fromMillis w.timeout.meant ≤ r.replied ∧ ¬w.Reached := by
  rw [Honours,if_pos hlive]
  simp only [receive_eq_reply,hanswer]
  cases reached <;> simp

theorem called_lt (w : Wait) : w.called < w.expiry := by
  simp only [expiry,fromSecs]
  omega

/-- A timeout is over before a request expires just where it is short. -/
theorem short_of_elapsed {t : Nat} (h : w.called+fromMillis w.timeout.meant ≤ t)
    (ht : t < w.expiry) : w.timeout.meant < 10000 := by
  simp only [expiry,fromSecs,fromMillis] at h ht
  omega

theorem deadline_of_short (h : w.timeout.meant < 10000) :
    w.called+fromMillis w.timeout.meant ≤ w.deadline ∧ w.deadline < w.expiry := by
  simp only [deadline,expiry,fromSecs,fromMillis,Timeout.sent_of_short h]
  omega

section single

variable {sleepFirst : Bool}

theorem ComesFirst.le {t : Nat} (h : w.ComesFirst sleepFirst t) : t ≤ w.deadline := by
  rcases h with h | ⟨h,-⟩
  · exact h.le
  · exact h.le

theorem ComesFirst.of_lt {t u : Nat} (h : w.ComesFirst sleepFirst t) (hlt : u < t) :
    w.ComesFirst sleepFirst u := .inl (hlt.trans_le h.le)

/-- The handler answers true at the first publication of the state before the sleep ends. -/
theorem watch_spec (w : Wait) (sleepFirst : Bool) {published : List (Nat × PaneStateKind)}
    (hordered : published.Pairwise fun p q => p.1 < q.1) :
    (∃ t, (t,w.state) ∈ published ∧ w.ComesFirst sleepFirst t ∧
        (∀ u, (u,w.state) ∈ published → t ≤ u) ∧ w.watch sleepFirst published = (true,t)) ∨
      (∀ t, (t,w.state) ∈ published → ¬w.ComesFirst sleepFirst t) ∧
        w.watch sleepFirst published = (false,w.deadline) := by
  induction published with
  | nil => exact .inr ⟨by simp,rfl⟩
  | cons p rest ih =>
    obtain ⟨t,s⟩ := p
    obtain ⟨hlater,hrest⟩ := List.pairwise_cons.mp hordered
    rw [watch]
    by_cases hfirst : w.ComesFirst sleepFirst t
    · rw [if_pos hfirst]
      by_cases hs : s = w.state
      · subst hs
        rw [if_pos rfl]
        refine .inl ⟨t,List.mem_cons_self,hfirst,fun u hu => ?_,rfl⟩
        rcases List.mem_cons.mp hu with heq | hu
        · exact (congrArg Prod.fst heq).ge
        · exact (hlater _ hu).le
      · rw [if_neg hs]
        have hmem : ∀ u, (u,w.state) ∈ (t,s) :: rest ↔ (u,w.state) ∈ rest := fun u => by
          simp [Ne.symm hs]
        simpa only [hmem] using ih hrest
    · rw [if_neg hfirst]
      refine .inr ⟨fun u hu hcomes => ?_,rfl⟩
      rcases List.mem_cons.mp hu with heq | hu
      · obtain rfl := congrArg Prod.fst heq
        exact hfirst hcomes
      · exact hfirst (hcomes.of_lt (hlater _ hu))

theorem single_honours_iff : w.Honours (w.single sleepFirst) ↔ w.WatchedInTime sleepFirst := by
  unfold single WatchedInTime
  by_cases hlive : w.life.LiveAt w.called
  swap
  · rw [if_neg hlive,Honours,if_neg hlive]
    exact iff_of_true (receive_of_lt w.called_lt) fun h => absurd h hlive
  rw [if_pos hlive]
  by_cases hstate : w.life.stateAt w.called = w.state
  · rw [if_pos hstate,honours_of_live hlive rfl]
    simp only [if_true,hstate,true_or,implies_true,iff_true]
    exact ⟨w.called_lt,w.called,le_rfl,le_rfl,hstate⟩
  rw [if_neg hstate,honours_of_live hlive rfl]
  have hmem : ∀ t, (t,w.state) ∈ w.life.published.filter (fun p => decide (w.called < p.1)) ↔
      (t,w.state) ∈ w.life.published ∧ w.called < t := fun t => by simp
  have hordered := w.life.ordered.sublist
    (List.filter_sublist (p := fun p => decide (w.called < p.1)))
  rcases w.watch_spec sleepFirst hordered with
    ⟨t,ht,hfirst,hleast,hwatch⟩ | ⟨hnone,hwatch⟩
  · obtain ⟨hpub,hafter⟩ := (hmem t).mp ht
    simp only [hwatch,if_true,hstate,false_or,hlive,true_implies]
    constructor
    · intro h
      exact .inl ⟨t,hpub,hafter,hfirst,h.1⟩
    · intro h
      refine ⟨?_,t,hafter.le,le_rfl,PaneLife.stateAt_published hpub⟩
      rcases h with ⟨u,hu,hcalled,-,hlt⟩ | hshort
      · exact (hleast u ((hmem u).mpr ⟨hu,hcalled⟩)).trans_lt hlt
      · exact hfirst.le.trans_lt (deadline_of_short hshort).2
  · simp only [hwatch,hstate,false_or,hlive,true_implies]
    constructor
    · intro h
      exact .inr (short_of_elapsed h.2.1 h.1)
    · intro h
      have hshort : w.timeout.meant < 10000 := by
        rcases h with ⟨t,ht,hcalled,hfirst,-⟩ | hshort
        · exact absurd hfirst (hnone t ((hmem t).mpr ⟨ht,hcalled⟩))
        · exact hshort
      obtain ⟨hover,hlt⟩ := deadline_of_short hshort
      refine ⟨hlt,hover,fun hreached => ?_⟩
      rcases hreached with hnow | ⟨t,hafter,hbefore,ht,-⟩
      · exact hstate hnow.2
      · exact hnone t ((hmem t).mpr ⟨ht,hafter⟩) (.inl (hbefore.trans_le hover))

end single

section hybrid

variable {listings : Nat → PaneListing}

theorem askedAt_strictMono : StrictMono (w.askedAt listings) :=
  strictMono_nat_of_lt_succ (w.askedAt_lt listings)

/-- The polling ends at the first listing that finds the pane in the state, or as the clock is
looked at after the deadline. -/
theorem poll_spec (w : Wait) (listings : Nat → PaneListing) (k : Nat) :
    ∃ n, k ≤ n ∧
      (∀ i, k ≤ i → i < n → w.askedAt listings i < w.deadline ∧ ¬w.Finds listings i) ∧
      ((w.askedAt listings n < w.deadline ∧ w.Finds listings n ∧
          w.poll listings k = (true,w.listedAt listings n)) ∨
        w.deadline ≤ w.askedAt listings n ∧
          w.poll listings k = (false,w.askedAt listings n)) := by
  induction k using poll.induct w listings with
  | case1 k hasked hfinds =>
    refine ⟨k,le_rfl,fun i hki hik => absurd hik (by omega),.inl ⟨hasked,hfinds,?_⟩⟩
    rw [poll,dif_pos hasked,if_pos hfinds]
  | case2 k hasked hfinds ih =>
    obtain ⟨n,hkn,hbefore,hend⟩ := ih
    refine ⟨n,by omega,fun i hki hin => ?_,?_⟩
    · rcases Nat.eq_or_lt_of_le hki with rfl | hki
      · exact ⟨hasked,hfinds⟩
      · exact hbefore i hki hin
    · rwa [poll,dif_pos hasked,if_neg hfinds]
  | case3 k hasked =>
    refine ⟨k,le_rfl,fun i hki hik => absurd hik (by omega),.inr ⟨Nat.le_of_not_lt hasked,?_⟩⟩
    rw [poll,dif_neg hasked]

theorem listedAt_mono : Monotone (w.listedAt listings) := by
  refine monotone_nat_of_le_succ fun k => ?_
  have hasked : w.listedAt listings k ≤ w.askedAt listings (k+1) := by
    rw [askedAt_succ]
    exact Nat.le_add_right _ _
  refine hasked.trans ?_
  rw [listedAt,readAt]
  omega

theorem hybrid_honours_iff : w.Honours (w.hybrid listings) ↔ w.PolledInTime listings := by
  unfold hybrid PolledInTime
  by_cases hlive : w.life.LiveAt w.called
  swap
  · rw [Honours,if_neg hlive,receive_eq_reply]
    exact iff_of_false (fun h => by simp at h) fun h => hlive h.1
  rw [honours_of_live hlive rfl]
  obtain ⟨n,-,hbefore,⟨hasked,hfinds,hpoll⟩ | ⟨hover,hpoll⟩⟩ := w.poll_spec listings 0
  · simp only [hpoll,if_true,hlive,true_and]
    constructor
    · intro h
      exact .inl ⟨n,hasked,hfinds,h.1⟩
    · intro h
      refine ⟨?_,w.readAt listings n,?_,?_,hfinds.2.2⟩
      · rcases h with ⟨k,-,hk,hlt⟩ | ⟨-,-,k,hdeadline,hlt⟩
        · have hnk : n ≤ k := by
            by_contra hkn
            exact (hbefore k k.zero_le (by omega)).2 hk
          exact (listedAt_mono hnk).trans_lt hlt
        · have hnk : n < k := askedAt_strictMono.lt_iff_lt.mp (hasked.trans_le hdeadline)
          have hnext : w.listedAt listings n ≤ w.askedAt listings (n+1) := Nat.le_add_right _ _
          have hle : w.askedAt listings (n+1) ≤ w.askedAt listings k :=
            askedAt_strictMono.monotone hnk
          omega
      · have hcalled : w.called ≤ w.askedAt listings n :=
          askedAt_strictMono.monotone n.zero_le
        exact hcalled.trans (Nat.le_add_right _ _)
      · exact Nat.le_add_right _ _
  · simp only [hpoll,hlive,true_and]
    constructor
    · intro h
      exact .inr ⟨h.2.2,short_of_elapsed h.2.1 h.1,n,hover,h.1⟩
    · intro h
      rcases h with ⟨k,hasked,hk,-⟩ | ⟨hreached,hshort,k,hdeadline,hlt⟩
      · have hkn : k < n := askedAt_strictMono.lt_iff_lt.mp (hasked.trans_le hover)
        exact absurd hk (hbefore k k.zero_le hkn).2
      · have hnk : n ≤ k := by
          by_contra hkn
          have hearly := (hbefore k k.zero_le (by omega)).1
          omega
        have hle : w.askedAt listings n ≤ w.askedAt listings k :=
          askedAt_strictMono.monotone hnk
        exact ⟨hle.trans_lt hlt,(deadline_of_short hshort).1.trans hover,hreached⟩

end hybrid

/-- Either daemon honours just the waits that end in time; the supervisor those for live panes
whose state a listing meets. -/
theorem wait_honoured_iff (w : Wait) (sleepFirst : Bool) (listings : Nat → PaneListing) :
    (w.Honours (w.single sleepFirst) ↔ w.WatchedInTime sleepFirst) ∧
      (w.Honours (w.hybrid listings) ↔ w.PolledInTime listings) :=
  ⟨single_honours_iff,hybrid_honours_iff⟩

/-- The tool's own timeout is longer than its request can wait. -/
theorem default_wait_expires :
    ¬∀ (w : Wait) (sleepFirst : Bool), w.Honours (w.single sleepFirst) := by
  intro h
  have hquiet := h ⟨⟨.running,[],none,.nil⟩,⟨1⟩,.idle,.tool none,0⟩ true
  rw [honours_of_live (by decide) (rfl : _ = Except.ok false)] at hquiet
  exact absurd hquiet.1 (by decide)

end Wait

end Pyre.Supervisor
