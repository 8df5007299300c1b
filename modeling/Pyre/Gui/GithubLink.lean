import Mathlib.Data.List.Basic
import Pyre.Base.Run

/-!
The GitHub link of the GUI: the device flow with its polls. Every function runs until it awaits
a call of the backend, and goes on when the reply comes; what the backend replies may be any.
-/

set_option autoImplicit false

namespace Pyre.Gui
open Base

structure GhAccount where
  login : String
  deriving DecidableEq, Repr

/-- `expiresIn` and `interval` are in seconds. -/
structure GhDeviceStart where
  userCode : String
  verificationUri : String
  expiresIn : Nat
  interval : Nat
  deriving DecidableEq, Repr

inductive GhPoll where
  | pending
  | authorized
  | denied
  | expired
  | slowDown
  deriving DecidableEq, Repr

/-- The errors of a poll by what their message includes. -/
inductive PollError where
  | tokenStoreFailed
  | noDeviceFlow
  | untagged
  deriving DecidableEq, Repr

inductive LinkStatus where
  | idle
  | linking
  | authorized
  | error
  deriving DecidableEq, Repr

structure GithubState where
  account : Option GhAccount
  linking : Option GhDeviceStart
  status : LinkStatus
  deriving DecidableEq, Repr

/-- What polls for an attempt: a timer that is set or a poll in flight, one after the other.
`demanded` is the interval that the server has demanded last. -/
structure PollChain where
  attempt : Nat
  demanded : Nat
  deriving DecidableEq, Repr

structure PollTimer where
  id : Nat
  chain : PollChain
  delay : Nat
  deriving DecidableEq, Repr

/-- The variables of the module, up to `consecutivePollErrors`, and the store's slice; the timers
of the window and the calls in flight, each with its attempt; the attempts so far by number. -/
structure GithubLink where
  pollTimer : Option Nat
  deadline : Option Nat
  currentIntervalSec : Nat
  starting : Bool
  consecutivePollErrors : Nat
  github : GithubState
  timers : List PollTimer
  starts : List Nat
  polls : List PollChain
  accounts : List Nat
  disconnects : Nat
  nextTimer : Nat
  attempts : Nat
  cancelled : List Nat
  finished : List Nat
  deriving DecidableEq, Repr

/-- A reply names the call by its place; `now` is what the clock says then. An account is `none`
where GitHub returned none. -/
inductive LinkStep where
  | startGitHubLink
  | startReply (i : Nat) (start : Option GhDeviceStart) (now : Nat)
  | timer (id : Nat) (now : Nat)
  | pollReply (i : Nat) (reply : Except PollError GhPoll)
  | accountReply (i : Nat) (account : Option (Option GhAccount))
  | cancelGitHubLink
  | disconnectGitHub
  | disconnectReply (done : Bool)
  deriving Repr

namespace GithubLink

def pollErrorLimit : Nat := 5

/-- The account is what was loaded when the GUI came up. -/
def init (account : Option GhAccount) : GithubLink where
  pollTimer := none
  deadline := none
  currentIntervalSec := 5
  starting := false
  consecutivePollErrors := 0
  github := ⟨account,none,if account.isSome then .authorized else .idle⟩
  timers := []
  starts := []
  polls := []
  accounts := []
  disconnects := 0
  nextTimer := 0
  attempts := 0
  cancelled := []
  finished := []

/-! The internals. -/

def stopPolling (s : GithubLink) : GithubLink :=
  match s.pollTimer with
  | some id => { s with timers := s.timers.filter (·.id ≠ id), pollTimer := none }
  | none => s

def scheduleNext (s : GithubLink) (chain : PollChain) (sec : Nat) : GithubLink :=
  { s with
    timers := ⟨s.nextTimer,chain,sec⟩ :: s.timers
    pollTimer := some s.nextTimer
    nextTimer := s.nextTimer+1 }

def startPolling (s : GithubLink) (chain : PollChain) (intervalSec : Nat) : GithubLink :=
  { s.stopPolling with
    consecutivePollErrors := 0
    currentIntervalSec := max 1 intervalSec }.scheduleNext chain (max 1 intervalSec)

def finishWithError (s : GithubLink) (attempt : Nat) : GithubLink :=
  { s.stopPolling with
    deadline := none
    github := { s.github with linking := none, status := .error }
    finished := attempt :: s.finished }

/-- `finishAuthorized` up to its call. -/
def finishAuthorized (s : GithubLink) (attempt : Nat) : GithubLink :=
  { s.stopPolling with deadline := none, accounts := s.accounts ++ [attempt] }

/-- `pollOnce` up to its call. -/
def pollOnce (s : GithubLink) (chain : PollChain) (now : Nat) : GithubLink :=
  if ∃ d ∈ s.deadline, d < now then s.finishWithError chain.attempt
  else { s with polls := s.polls ++ [chain] }

/-- `pollOnce` from the reply on. -/
def polled (s : GithubLink) (chain : PollChain) : Except PollError GhPoll → GithubLink
  | .error .tokenStoreFailed | .error .noDeviceFlow => s.finishWithError chain.attempt
  | .error .untagged =>
    let s := { s with consecutivePollErrors := s.consecutivePollErrors+1 }
    if pollErrorLimit ≤ s.consecutivePollErrors then s.finishWithError chain.attempt
    else s.scheduleNext chain s.currentIntervalSec
  | .ok status =>
    let s := { s with consecutivePollErrors := 0 }
    match status with
    | .pending => s.scheduleNext chain s.currentIntervalSec
    | .authorized => s.finishAuthorized chain.attempt
    | .denied | .expired => s.finishWithError chain.attempt
    | .slowDown =>
      let s := { s with currentIntervalSec := s.currentIntervalSec+5 }
      s.scheduleNext { chain with demanded := chain.demanded+5 } s.currentIntervalSec

/-! The steps. -/

/-- `startGitHubLink` up to its call. -/
def startGitHubLink (s : GithubLink) : GithubLink :=
  if s.starting ∨ s.github.linking.isSome then s
  else { s with starting := true, starts := s.starts ++ [s.attempts], attempts := s.attempts+1 }

def started (s : GithubLink) (attempt : Nat) (now : Nat) : Option GhDeviceStart → GithubLink
  | some start =>
    { ({ s with
        deadline := some (now+start.expiresIn*1000)
        github := { s.github with linking := some start, status := .linking } }.startPolling
        ⟨attempt,start.interval⟩ (max 1 start.interval)) with starting := false }
  | none =>
    { s with
      deadline := none
      github := { s.github with linking := none, status := .error }
      starting := false
      finished := attempt :: s.finished }

def accountLoaded (s : GithubLink) (attempt : Nat) : Option (Option GhAccount) → GithubLink
  | some account =>
    { s with
      github := ⟨account,none,if account.isSome then .authorized else .error⟩
      finished := attempt :: s.finished }
  | none =>
    { s with
      github := { s.github with linking := none, status := .error }
      finished := attempt :: s.finished }

/-- Every attempt that is not finished is cancelled. -/
def cancelGitHubLink (s : GithubLink) : GithubLink :=
  { s.stopPolling with
    deadline := none
    github := { s.github with linking := none, status := .idle }
    cancelled := (List.range s.attempts).filter (· ∉ s.finished) ++ s.cancelled }

def step (s : GithubLink) : LinkStep → Option GithubLink
  | .startGitHubLink => some s.startGitHubLink
  | .startReply i start now => s.starts[i]?.map fun attempt =>
    { s with starts := s.starts.eraseIdx i }.started attempt now start
  | .timer id now => (s.timers.find? fun t => t.id = id).map fun t =>
    { s with timers := s.timers.filter (·.id ≠ id) }.pollOnce t.chain now
  | .pollReply i reply => s.polls[i]?.map fun chain =>
    { s with polls := s.polls.eraseIdx i }.polled chain reply
  | .accountReply i account => s.accounts[i]?.map fun attempt =>
    { s with accounts := s.accounts.eraseIdx i }.accountLoaded attempt account
  | .cancelGitHubLink => some s.cancelGitHubLink
  | .disconnectGitHub => some { s with disconnects := s.disconnects+1 }
  | .disconnectReply done =>
    if s.disconnects = 0 then none
    else if done then
      some { s with
        disconnects := s.disconnects-1
        github := { s.github with account := none, status := .idle } }
    else some { s with disconnects := s.disconnects-1 }

/-! What an attempt must not do to another. -/

/-- The chains that are alive. -/
def chains (s : GithubLink) : List PollChain := s.timers.map PollTimer.chain ++ s.polls

/-- The attempt whose call the step replies to. -/
def replied (s : GithubLink) : LinkStep → Option Nat
  | .startReply i _ _ => s.starts[i]?
  | .pollReply i _ => s.polls[i]?.map PollChain.attempt
  | .accountReply i _ => s.accounts[i]?
  | .startGitHubLink | .timer _ _ | .cancelGitHubLink | .disconnectGitHub
  | .disconnectReply _ => none

/-- `ignored`: the reply to a call of a cancelled attempt changes nothing in the store, and no
timer of another attempt goes. -/
structure Apart (s : GithubLink) : Prop where
  one : s.chains.length ≤ 1
  underWay : ∀ c ∈ s.chains, c.attempt ∉ s.cancelled ∧ c.attempt ∉ s.finished
  ignored : ∀ a t, s.step a = some t → ∀ n, s.replied a = some n → n ∈ s.cancelled →
    t.github = s.github ∧ ∀ timer ∈ s.timers, timer.chain.attempt ≠ n → timer ∈ t.timers
  delayed : ∀ timer ∈ s.timers, timer.chain.demanded ≤ timer.delay

/-- An attempt is not cancelled while a call of one is in flight. -/
def Waits (s : GithubLink) : LinkStep → Prop
  | .cancelGitHubLink => s.starts = [] ∧ s.polls = [] ∧ s.accounts = []
  | _ => True

/-! Where an attempt is while no other interferes. -/

variable {s t : GithubLink} {n : Nat}

/-- The attempt is neither cancelled nor finished. -/
structure Open (s : GithubLink) (n : Nat) : Prop where
  begun : n < s.attempts
  cancelled : n ∉ s.cancelled
  finished : n ∉ s.finished

/-- Nothing is set or in flight but what is given. -/
structure Holds (s : GithubLink) (starts : List Nat) (timers : List PollTimer)
    (polls : List PollChain) (accounts : List Nat) : Prop where
  starts : s.starts = starts
  timers : s.timers = timers
  polls : s.polls = polls
  accounts : s.accounts = accounts

/-- At most one attempt is open, at one place of the flow. -/
inductive Phase (s : GithubLink) : Prop where
  | idle (h : s.Holds [] [] [] []) (hs : s.starting = false)
  | starting (n : Nat) (h : s.Holds [n] [] [] []) (ho : s.Open n) (hs : s.starting = true)
  | waiting (timer : PollTimer) (h : s.Holds [] [timer] [] []) (ho : s.Open timer.chain.attempt)
      (hs : s.starting = false) (hl : s.github.linking.isSome) (ht : s.pollTimer = some timer.id)
      (hd : timer.chain.demanded ≤ timer.delay)
      (hc : timer.chain.demanded ≤ s.currentIntervalSec)
  | polling (chain : PollChain) (h : s.Holds [] [] [chain] []) (ho : s.Open chain.attempt)
      (hs : s.starting = false) (hl : s.github.linking.isSome)
      (hc : chain.demanded ≤ s.currentIntervalSec)
  | loading (n : Nat) (h : s.Holds [] [] [] [n]) (ho : s.Open n) (hs : s.starting = false)
      (hl : s.github.linking.isSome)

structure Orderly (s : GithubLink) : Prop where
  cancelled : ∀ n ∈ s.cancelled, n < s.attempts
  finished : ∀ n ∈ s.finished, n < s.attempts
  phase : s.Phase

theorem orderly_init (account : Option GhAccount) : (init account).Orderly where
  cancelled _ h := absurd h List.not_mem_nil
  finished _ h := absurd h List.not_mem_nil
  phase := .idle ⟨rfl,rfl,rfl,rfl⟩ rfl

/-- A call in flight is one of an attempt that is not cancelled. -/
theorem Orderly.replied (h : s.Orderly) {a : LinkStep} (hr : s.replied a = some n) :
    n ∉ s.cancelled := by
  have hmem : n ∈ s.starts ∨ (∃ c ∈ s.polls, c.attempt = n) ∨ n ∈ s.accounts := by
    cases a with
    | startReply i start now => exact Or.inl (List.mem_of_getElem? hr)
    | pollReply i reply =>
      obtain ⟨c,hc,rfl⟩ := Option.map_eq_some_iff.mp hr
      exact Or.inr (Or.inl ⟨c,List.mem_of_getElem? hc,rfl⟩)
    | accountReply i account => exact Or.inr (Or.inr (List.mem_of_getElem? hr))
    | startGitHubLink | timer id now | cancelGitHubLink | disconnectGitHub
    | disconnectReply done => cases hr
  cases h.phase with
  | idle hh hs => simp [hh.starts,hh.polls,hh.accounts] at hmem
  | starting m hh ho hs =>
    simp [hh.starts,hh.polls,hh.accounts] at hmem
    exact hmem ▸ ho.cancelled
  | waiting timer hh ho hs hl ht hd hc => simp [hh.starts,hh.polls,hh.accounts] at hmem
  | polling chain hh ho hs hl hc =>
    simp [hh.starts,hh.polls,hh.accounts] at hmem
    exact hmem ▸ ho.cancelled
  | loading m hh ho hs hl =>
    simp [hh.starts,hh.polls,hh.accounts] at hmem
    exact hmem ▸ ho.cancelled

theorem Orderly.apart (h : s.Orderly) : s.Apart := by
  have hignored : ∀ a t, s.step a = some t → ∀ n, s.replied a = some n → n ∈ s.cancelled →
      t.github = s.github ∧ ∀ timer ∈ s.timers, timer.chain.attempt ≠ n → timer ∈ t.timers :=
    fun _ _ _ n hr hn => absurd hn (h.replied hr)
  cases h.phase with
  | idle hh hs | starting n hh ho hs | loading n hh ho hs hl =>
    exact ⟨by simp [chains,hh.timers,hh.polls],by simp [chains,hh.timers,hh.polls],hignored,
      by simp [hh.timers]⟩
  | waiting timer hh ho hs hl ht hd hc =>
    refine ⟨by simp [chains,hh.timers,hh.polls],?_,hignored,by simpa [hh.timers] using hd⟩
    simpa [chains,hh.timers,hh.polls] using ⟨ho.cancelled,ho.finished⟩
  | polling chain hh ho hs hl hc =>
    refine ⟨by simp [chains,hh.timers,hh.polls],?_,hignored,by simp [hh.timers]⟩
    simpa [chains,hh.timers,hh.polls] using ⟨ho.cancelled,ho.finished⟩

/-! The internals, with no timer set. -/

theorem stopPolling_eq (h : s.timers = []) : s.stopPolling = { s with pollTimer := none } := by
  unfold stopPolling
  split
  · rename_i id _
    have hsame : s.timers.filter (·.id ≠ id) = s.timers := by rw [h]; rfl
    rw [hsame]
  · rename_i hnone
    rw [← hnone]

/-- The attempt ends with nothing left of it. -/
theorem Orderly.ends (hc : ∀ m ∈ s.cancelled, m < s.attempts)
    (hf : ∀ m ∈ s.finished, m < s.attempts) (hh : s.Holds [] [] [] []) (hs : s.starting = false)
    (hn : n < s.attempts) : (s.finishWithError n).Orderly := by
  rw [finishWithError,stopPolling_eq hh.timers]
  exact ⟨hc,List.forall_mem_cons.mpr ⟨hn,hf⟩,.idle ⟨hh.starts,hh.timers,hh.polls,hh.accounts⟩ hs⟩

/-- The next poll waits for what the server has demanded. -/
theorem Orderly.schedules (hc : ∀ m ∈ s.cancelled, m < s.attempts)
    (hf : ∀ m ∈ s.finished, m < s.attempts) (hh : s.Holds [] [] [] []) (hs : s.starting = false)
    {chain : PollChain} (ho : s.Open chain.attempt) (hl : s.github.linking.isSome)
    (hd : chain.demanded ≤ s.currentIntervalSec) :
    (s.scheduleNext chain s.currentIntervalSec).Orderly where
  cancelled := hc
  finished := hf
  phase := .waiting ⟨s.nextTimer,chain,s.currentIntervalSec⟩
    ⟨hh.starts,by rw [scheduleNext,hh.timers],hh.polls,hh.accounts⟩
    ⟨ho.begun,ho.cancelled,ho.finished⟩ hs hl rfl hd hd

/-- The first poll of an attempt that has been started. -/
theorem Orderly.begins (hc : ∀ m ∈ s.cancelled, m < s.attempts)
    (hf : ∀ m ∈ s.finished, m < s.attempts) (hh : s.Holds [] [] [] []) {chain : PollChain}
    (ho : s.Open chain.attempt) (hl : s.github.linking.isSome) {sec : Nat}
    (hd : chain.demanded ≤ sec) :
    ({ s.startPolling chain sec with starting := false } : GithubLink).Orderly := by
  rw [startPolling,stopPolling_eq hh.timers]
  have hd' : chain.demanded ≤ max 1 sec := hd.trans (le_max_right 1 sec)
  refine ⟨hc,hf,.waiting ⟨s.nextTimer,chain,max 1 sec⟩ ⟨hh.starts,?_,hh.polls,hh.accounts⟩
    ⟨ho.begun,ho.cancelled,ho.finished⟩ rfl hl rfl hd' hd'⟩
  exact congrArg (List.cons _) hh.timers

theorem Orderly.loads (hc : ∀ m ∈ s.cancelled, m < s.attempts)
    (hf : ∀ m ∈ s.finished, m < s.attempts) (hh : s.Holds [] [] [] []) (hs : s.starting = false)
    (ho : s.Open n) (hl : s.github.linking.isSome) : (s.finishAuthorized n).Orderly := by
  rw [finishAuthorized,stopPolling_eq hh.timers]
  exact ⟨hc,hf,.loading n ⟨hh.starts,hh.timers,hh.polls,by rw [hh.accounts]; rfl⟩
    ⟨ho.begun,ho.cancelled,ho.finished⟩ hs hl⟩

theorem Orderly.start (h : s.Orderly) : s.startGitHubLink.Orderly := by
  unfold startGitHubLink
  split
  · exact h
  · rename_i hidle
    rw [not_or] at hidle
    have hh : s.Holds [] [] [] [] := by
      cases h.phase with
      | idle hh hs => exact hh
      | starting n hh ho hs => exact absurd hs hidle.1
      | waiting timer hh ho hs hl ht hd hc => exact absurd hl hidle.2
      | polling chain hh ho hs hl hc => exact absurd hl hidle.2
      | loading n hh ho hs hl => exact absurd hl hidle.2
    refine ⟨fun m hm => Nat.lt_succ_of_lt (h.cancelled m hm),
      fun m hm => Nat.lt_succ_of_lt (h.finished m hm),
      .starting s.attempts ⟨by rw [hh.starts]; rfl,hh.timers,hh.polls,hh.accounts⟩ ?_ rfl⟩
    exact ⟨Nat.lt_succ_self _,fun hm => Nat.lt_irrefl _ (h.cancelled _ hm),
      fun hm => Nat.lt_irrefl _ (h.finished _ hm)⟩

theorem Orderly.startReply (h : s.Orderly) {i : Nat} {start : Option GhDeviceStart} {now : Nat}
    (ht : s.step (.startReply i start now) = some t) : t.Orderly := by
  obtain ⟨n,hn,rfl⟩ := Option.map_eq_some_iff.mp ht
  have hmem := List.mem_of_getElem? hn
  cases h.phase with
  | idle hh hs | waiting timer hh ho hs hl hp hd hc | polling chain hh ho hs hl hc
  | loading m hh ho hs hl =>
    rw [hh.starts] at hmem
    cases hmem
  | starting m hh ho hs =>
    rw [hh.starts] at hn hmem
    obtain rfl := List.mem_singleton.mp hmem
    obtain rfl : i = 0 := by
      by_contra hi
      simp [hi] at hn
    have hnone : s.starts.eraseIdx 0 = [] := by rw [hh.starts]; rfl
    cases start with
    | none =>
      exact ⟨h.cancelled,List.forall_mem_cons.mpr ⟨ho.begun,h.finished⟩,
        .idle ⟨hnone,hh.timers,hh.polls,hh.accounts⟩ rfl⟩
    | some start =>
      let u : GithubLink :=
        { s with
          starts := s.starts.eraseIdx 0
          deadline := some (now+start.expiresIn*1000)
          github := { s.github with linking := some start, status := .linking } }
      exact Orderly.begins (s := u) h.cancelled h.finished ⟨hnone,hh.timers,hh.polls,hh.accounts⟩
        ⟨ho.begun,ho.cancelled,ho.finished⟩ rfl (le_max_right 1 start.interval)

theorem Orderly.timer (h : s.Orderly) {id now : Nat} (ht : s.step (.timer id now) = some t) :
    t.Orderly := by
  obtain ⟨timer,hfind,rfl⟩ := Option.map_eq_some_iff.mp ht
  have hmem := List.mem_of_find?_eq_some hfind
  cases h.phase with
  | idle hh hs | starting m hh ho hs | polling chain hh ho hs hl hc | loading m hh ho hs hl =>
    rw [hh.timers] at hmem
    cases hmem
  | waiting timer' hh ho hs hl hp hd hc =>
    rw [hh.timers] at hmem
    obtain rfl := List.mem_singleton.mp hmem
    have hid : timer.id = id := by simpa using List.find?_some hfind
    have hnone : s.timers.filter (·.id ≠ id) = [] := by simp [hh.timers,hid]
    let u : GithubLink := { s with timers := s.timers.filter (·.id ≠ id) }
    unfold pollOnce
    split
    · exact Orderly.ends (s := u) h.cancelled h.finished
        ⟨hh.starts,hnone,hh.polls,hh.accounts⟩ hs ho.begun
    · exact ⟨h.cancelled,h.finished,.polling timer.chain
        ⟨hh.starts,hnone,by rw [hh.polls]; rfl,hh.accounts⟩
        ⟨ho.begun,ho.cancelled,ho.finished⟩ hs hl hc⟩

theorem Orderly.polled {chain : PollChain} (hcan : ∀ m ∈ s.cancelled, m < s.attempts)
    (hfin : ∀ m ∈ s.finished, m < s.attempts) (hh : s.Holds [] [] [] []) (hs : s.starting = false)
    (ho : s.Open chain.attempt) (hl : s.github.linking.isSome)
    (hd : chain.demanded ≤ s.currentIntervalSec) (reply : Except PollError GhPoll) :
    (s.polled chain reply).Orderly := by
  cases reply with
  | error e =>
    cases e with
    | tokenStoreFailed | noDeviceFlow => exact Orderly.ends hcan hfin hh hs ho.begun
    | untagged =>
      let u : GithubLink := { s with consecutivePollErrors := s.consecutivePollErrors+1 }
      have hu : u.Holds [] [] [] [] := ⟨hh.starts,hh.timers,hh.polls,hh.accounts⟩
      simp only [GithubLink.polled]
      split
      · exact Orderly.ends (s := u) hcan hfin hu hs ho.begun
      · exact Orderly.schedules (s := u) hcan hfin hu hs ⟨ho.begun,ho.cancelled,ho.finished⟩ hl hd
  | ok status =>
    let u : GithubLink := { s with consecutivePollErrors := 0 }
    have hu : u.Holds [] [] [] [] := ⟨hh.starts,hh.timers,hh.polls,hh.accounts⟩
    have ho' : u.Open chain.attempt := ⟨ho.begun,ho.cancelled,ho.finished⟩
    cases status with
    | pending => exact Orderly.schedules (s := u) hcan hfin hu hs ho' hl hd
    | slowDown =>
      let u' : GithubLink := { u with currentIntervalSec := s.currentIntervalSec+5 }
      exact Orderly.schedules (s := u') hcan hfin ⟨hh.starts,hh.timers,hh.polls,hh.accounts⟩ hs
        ⟨ho.begun,ho.cancelled,ho.finished⟩ hl (Nat.add_le_add_right hd 5)
    | denied | expired => exact Orderly.ends (s := u) hcan hfin hu hs ho.begun
    | authorized => exact Orderly.loads (s := u) hcan hfin hu hs ho' hl

theorem Orderly.pollReply (h : s.Orderly) {i : Nat} {reply : Except PollError GhPoll}
    (ht : s.step (.pollReply i reply) = some t) : t.Orderly := by
  obtain ⟨chain,hchain,rfl⟩ := Option.map_eq_some_iff.mp ht
  have hmem := List.mem_of_getElem? hchain
  cases h.phase with
  | idle hh hs | starting m hh ho hs | waiting timer hh ho hs hl hp hd hc
  | loading m hh ho hs hl =>
    rw [hh.polls] at hmem
    cases hmem
  | polling chain' hh ho hs hl hc =>
    rw [hh.polls] at hchain hmem
    obtain rfl := List.mem_singleton.mp hmem
    obtain rfl : i = 0 := by
      by_contra hi
      simp [hi] at hchain
    have hnone : s.polls.eraseIdx 0 = [] := by rw [hh.polls]; rfl
    let u : GithubLink := { s with polls := s.polls.eraseIdx 0 }
    exact Orderly.polled (s := u) h.cancelled h.finished ⟨hh.starts,hh.timers,hnone,hh.accounts⟩ hs
      ⟨ho.begun,ho.cancelled,ho.finished⟩ hl hc reply

theorem Orderly.accountReply (h : s.Orderly) {i : Nat} {account : Option (Option GhAccount)}
    (ht : s.step (.accountReply i account) = some t) : t.Orderly := by
  obtain ⟨n,hn,rfl⟩ := Option.map_eq_some_iff.mp ht
  have hmem := List.mem_of_getElem? hn
  cases h.phase with
  | idle hh hs | starting m hh ho hs | waiting timer hh ho hs hl hp hd hc
  | polling chain hh ho hs hl hc =>
    rw [hh.accounts] at hmem
    cases hmem
  | loading m hh ho hs hl =>
    rw [hh.accounts] at hn hmem
    obtain rfl := List.mem_singleton.mp hmem
    obtain rfl : i = 0 := by
      by_contra hi
      simp [hi] at hn
    have hnone : s.accounts.eraseIdx 0 = [] := by rw [hh.accounts]; rfl
    have hfinished : ∀ m ∈ n :: s.finished, m < s.attempts :=
      List.forall_mem_cons.mpr ⟨ho.begun,h.finished⟩
    cases account with
    | none => exact ⟨h.cancelled,hfinished,.idle ⟨hh.starts,hh.timers,hh.polls,hnone⟩ hs⟩
    | some account => exact ⟨h.cancelled,hfinished,.idle ⟨hh.starts,hh.timers,hh.polls,hnone⟩ hs⟩

/-- With no call in flight the timer is all there is of an attempt. -/
theorem Orderly.cancel (h : s.Orderly) (hw : s.Waits .cancelGitHubLink) :
    s.cancelGitHubLink.Orderly := by
  obtain ⟨hstarts,hpolls,haccounts⟩ := hw
  have hstop : s.stopPolling.timers = [] ∧ s.starting = false := by
    cases h.phase with
    | idle hh hs => exact ⟨by rw [stopPolling_eq hh.timers]; exact hh.timers,hs⟩
    | starting n hh ho hs =>
      rw [hh.starts] at hstarts
      cases hstarts
    | waiting timer hh ho hs hl ht hd hc => exact ⟨by simp [stopPolling,ht,hh.timers],hs⟩
    | polling chain hh ho hs hl hc =>
      rw [hh.polls] at hpolls
      cases hpolls
    | loading n hh ho hs hl =>
      rw [hh.accounts] at haccounts
      cases haccounts
  have hrest : s.stopPolling.starts = s.starts ∧ s.stopPolling.polls = s.polls ∧
      s.stopPolling.accounts = s.accounts ∧ s.stopPolling.attempts = s.attempts ∧
      s.stopPolling.finished = s.finished ∧ s.stopPolling.starting = s.starting := by
    unfold stopPolling
    split <;> exact ⟨rfl,rfl,rfl,rfl,rfl,rfl⟩
  obtain ⟨hst,hpo,hac,hat,hfi,hsg⟩ := hrest
  refine ⟨fun n hn => ?_,fun n hn => ?_,.idle ⟨hst.trans hstarts,hstop.1,hpo.trans hpolls,
    hac.trans haccounts⟩ (hsg.trans hstop.2)⟩
  · rw [cancelGitHubLink,hat]
    rcases List.mem_append.mp hn with hn | hn
    · exact List.mem_range.mp (List.mem_of_mem_filter hn)
    · exact h.cancelled n hn
  · rw [cancelGitHubLink,hat]
    exact h.finished n (hfi ▸ hn)

/-- What is no part of an attempt. -/
theorem Orderly.outside (h : s.Orderly) (disconnects : Nat) (github : GithubState)
    (hl : github.linking = s.github.linking) :
    ({ s with disconnects := disconnects, github := github } : GithubLink).Orderly := by
  refine ⟨h.cancelled,h.finished,?_⟩
  cases h.phase with
  | idle hh hs => exact .idle ⟨hh.starts,hh.timers,hh.polls,hh.accounts⟩ hs
  | starting n hh ho hs =>
    exact .starting n ⟨hh.starts,hh.timers,hh.polls,hh.accounts⟩
      ⟨ho.begun,ho.cancelled,ho.finished⟩ hs
  | waiting timer hh ho hs hl' ht hd hc =>
    exact .waiting timer ⟨hh.starts,hh.timers,hh.polls,hh.accounts⟩
      ⟨ho.begun,ho.cancelled,ho.finished⟩ hs (hl ▸ hl') ht hd hc
  | polling chain hh ho hs hl' hc =>
    exact .polling chain ⟨hh.starts,hh.timers,hh.polls,hh.accounts⟩
      ⟨ho.begun,ho.cancelled,ho.finished⟩ hs (hl ▸ hl') hc
  | loading n hh ho hs hl' =>
    exact .loading n ⟨hh.starts,hh.timers,hh.polls,hh.accounts⟩
      ⟨ho.begun,ho.cancelled,ho.finished⟩ hs (hl ▸ hl')

theorem step_orderly (s : GithubLink) (a : LinkStep) (t : GithubLink) (h : s.Orderly)
    (hw : s.Waits a) (ht : s.step a = some t) : t.Orderly := by
  cases a with
  | startGitHubLink => exact Option.some.inj ht ▸ h.start
  | startReply i start now => exact h.startReply ht
  | timer id now => exact h.timer ht
  | pollReply i reply => exact h.pollReply ht
  | accountReply i account => exact h.accountReply ht
  | cancelGitHubLink => exact Option.some.inj ht ▸ h.cancel hw
  | disconnectGitHub => exact Option.some.inj ht ▸ h.outside (s.disconnects+1) s.github rfl
  | disconnectReply done =>
    simp only [step,Option.ite_none_left_eq_some] at ht
    obtain ⟨-,ht⟩ := ht
    split at ht
    · exact Option.some.inj ht ▸
        h.outside (s.disconnects-1) { s.github with account := none, status := .idle } rfl
    · exact Option.some.inj ht ▸ h.outside (s.disconnects-1) s.github rfl

/-- Where no attempt is cancelled while one of its calls is in flight, at most one polls, none
that is over does, and each waits as long as it is told to. -/
theorem link_attempts_apart (account : Option GhAccount) {steps : List LinkStep}
    (h : Along step Waits (init account) steps) : Always step Apart (init account) steps := by
  have hall := h.invariant (I := Orderly) step_orderly (orderly_init account)
  exact hall.mono fun _ ht => ht.apart

def deviceStart : GhDeviceStart := ⟨"WDJB-MJHT","https://github.com/login/device",900,5⟩

/-- The server asks for more time, and the attempt is cancelled before it polls again. -/
def slowedDown : List LinkStep :=
  [.startGitHubLink,.startReply 0 (some deviceStart) 0,.timer 0 5000,.pollReply 0 (.ok .slowDown),
    .cancelGitHubLink]

theorem link_attempts_apart_slowedDown : Always step Apart (init none) slowedDown := by
  refine link_attempts_apart none ⟨trivial,fun t₁ h₁ => ⟨trivial,fun t₂ h₂ => ⟨trivial,
    fun t₃ h₃ => ⟨trivial,fun t₄ h₄ => ⟨?_,fun _ _ => trivial⟩⟩⟩⟩⟩
  obtain rfl := Option.some.inj h₁
  obtain rfl := Option.some.inj h₂
  obtain rfl := Option.some.inj h₃
  obtain rfl := Option.some.inj h₄
  exact ⟨rfl,rfl,rfl⟩

/-- The attempt is cancelled while a poll is in flight, whose reply sets the next timer. -/
def cancelledLate : List LinkStep :=
  [.startGitHubLink,.startReply 0 (some deviceStart) 0,.timer 0 5000,.cancelGitHubLink,
    .pollReply 0 (.ok .pending)]

theorem cancelled_attempt_polls :
    ¬∀ (account : Option GhAccount) (steps : List LinkStep),
      Always step Apart (init account) steps := by
  intro h
  obtain ⟨t,ht⟩ : ∃ t, exec step (init none) cancelledLate = some t := ⟨_,rfl⟩
  have hunderWay := ((h none cancelledLate).last ht).underWay
  have hchain : ∃ c ∈ t.chains, c.attempt ∈ t.cancelled := by
    obtain rfl := Option.some.inj ht
    decide
  obtain ⟨c,hc,hcancelled⟩ := hchain
  exact (hunderWay c hc).1 hcancelled

end GithubLink

end Pyre.Gui
