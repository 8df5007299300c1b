import Pyre.Base.Text
import Pyre.Events.Bus

/-!
The tracker of a pane's state: what the daemon has seen of the pane's output, and the rules
that read a state off it.

An instant is a number of nanoseconds on the monotonic clock.
-/

set_option autoImplicit false

namespace Pyre.State
open Base Events

inductive Osc133Marker where
  | A
  | B
  | C
  | D (exitCode : Option Int)
  deriving DecidableEq, Repr

abbrev Instant := Nat

def fromSecs (n : Nat) : Nat := 1000000000*n

/-- The time since an instant; none has passed since one to come. -/
def elapsed (now since : Instant) : Nat := now - since

def agentIdleSecs : Nat := 15

def interactiveSet : List String :=
  ["vim","nvim","vi","less","more","top","htop","btop","man","nano","emacs","emacs-nox","helix",
    "hx","lazygit","fzf","ranger","nnn","mc"]

def shellSet : List String := ["bash","zsh","fish","sh","dash","ksh","tcsh","csh"]

def isShell (name : Text) : Bool := (shellSet.map String.toList).contains name

/-- The text after the last `/`. -/
def baseName (t : Text) : Text := (t.reverse.takeWhile (· ≠ '/')).reverse

/-- The lower case of a character, as far as it is ASCII: no other character than the Kelvin
sign and the dotted capital I has an ASCII letter in its lower case. -/
def lowerChar (c : Char) : Text :=
  if c.toNat = 0x212A then ['k']
  else if c.toNat = 0x130 then ['i',Char.ofNat 0x307]
  else [c.toLower]

def toLowercase (t : Text) : Text := t.flatMap lowerChar

def stripSuffix (t suffix : Text) : Option Text :=
  if suffix <:+ t then some (t.take (t.length - suffix.length)) else none

def classifyForeground (comm : Text) : AgentKind :=
  let base := toLowercase (trim comm)
  let base := (stripSuffix base ".exe".toList).getD base
  let oneOf (names : List String) : Bool := (names.map String.toList).contains base
  if oneOf ["claude","claude-code"] then .claudeCode
  else if oneOf ["codex"] then .codex
  else if oneOf ["pi"] then .pi
  else if oneOf ["opencode"] then .openCode
  else if oneOf ["cursor","cursor-agent","cursor-agent-cli"] then .cursorAgent
  else if oneOf ["droid","factory"] then .droid
  else if oneOf ["amp"] then .amp
  else if oneOf ["bash","zsh","fish","sh","dash","ksh","tcsh","csh","nu"] then .shell
  else if "claude".toList <:+: base then .claudeCode
  else if "codex".toList <:+: base then .codex
  else .unknown

structure PaneStateTracker where
  state : PaneStateKind
  reason : Text
  lastOutputAt : Instant
  lastMarker : Option Osc133Marker
  lastDAt : Option Instant
  foregroundCmd : Option Text
  agent : AgentKind
  seen : Bool
  rootPid : Nat
  overrideUntil : Option Instant
  overriddenState : Option PaneStateKind
  overriddenReason : Option Text
  deriving DecidableEq, Repr

namespace PaneStateTracker

def new (now : Instant) (rootPid : Nat) : PaneStateTracker :=
  ⟨.running,"init".toList,now,none,none,none,.unknown,true,rootPid,none,none,none⟩

def touchOutput (t : PaneStateTracker) (now : Instant) : PaneStateTracker :=
  { t with lastOutputAt := now }

def pushMarker (t : PaneStateTracker) (now : Instant) (marker : Osc133Marker) :
    PaneStateTracker :=
  match marker with
  | .D _ => { t with lastDAt := some now, lastMarker := some marker }
  | _ => { t with lastMarker := some marker }

def setOverride (t : PaneStateTracker) (now : Instant) (state : PaneStateKind) (reason : Text)
    (secs : Nat) : PaneStateTracker :=
  { t with
    overriddenState := some state
    overriddenReason := some reason
    overrideUntil := some (now + fromSecs secs) }

def markSeen (t : PaneStateTracker) : PaneStateTracker := { t with seen := true }

/-- The tracker in the state, and whether that is a change. -/
def apply (t : PaneStateTracker) (newState : PaneStateKind) (newReason : Text) :
    PaneStateTracker × Bool :=
  if t.state = newState then (t,false)
  else
    let t : PaneStateTracker := if newState = .done then { t with seen := false } else t
    ({ t with state := newState, reason := newReason },true)

def foregroundBase (t : PaneStateTracker) : Text := baseName (t.foregroundCmd.getD [])

/-- The exit code the last marker carries is one of a failure. -/
def ExitedNonZero (t : PaneStateTracker) : Prop :=
  ∃ code, t.lastMarker = some (.D (some code)) ∧ code ≠ 0

instance (t : PaneStateTracker) : Decidable t.ExitedNonZero :=
  match h : t.lastMarker with
  | some (.D (some code)) => decidable_of_iff (code ≠ 0) (by simp [ExitedNonZero,h])
  | some (.D none) => isFalse (by simp [ExitedNonZero,h])
  | some .A => isFalse (by simp [ExitedNonZero,h])
  | some .B => isFalse (by simp [ExitedNonZero,h])
  | some .C => isFalse (by simp [ExitedNonZero,h])
  | none => isFalse (by simp [ExitedNonZero,h])

/-- Rule 2. -/
def ShowsInteractive (t : PaneStateTracker) : Prop :=
  t.foregroundBase ∈ interactiveSet.map String.toList

/-- Rule 3: a shell is at its prompt, and has been quiet for 2 s. -/
def AtPrompt (t : PaneStateTracker) (now : Instant) : Prop :=
  (t.lastMarker = some .B ∨ t.lastMarker = some .A) ∧
    fromSecs 2 < elapsed now t.lastOutputAt ∧ isShell t.foregroundBase

/-- A coding agent was the last program in front. -/
def HasAgent (t : PaneStateTracker) : Prop := t.agent ≠ .unknown ∧ t.agent ≠ .shell

/-- Rule 3b: the agent has been silent. -/
def AgentSilent (t : PaneStateTracker) (now : Instant) : Prop :=
  t.HasAgent ∧ fromSecs agentIdleSecs < elapsed now t.lastOutputAt

/-- Rule 4: the last block ended a while ago, and no output came after. -/
def QuietAfterBlock (t : PaneStateTracker) (now : Instant) : Prop :=
  ∃ d, t.lastDAt = some d ∧ fromSecs 5 < elapsed now d ∧ t.lastOutputAt < d + fromSecs 1

instance (t : PaneStateTracker) : Decidable t.ShowsInteractive :=
  inferInstanceAs (Decidable (_ ∈ _))

instance (t : PaneStateTracker) (now : Instant) : Decidable (t.AtPrompt now) :=
  inferInstanceAs (Decidable (_ ∧ _))

instance (t : PaneStateTracker) : Decidable t.HasAgent := inferInstanceAs (Decidable (_ ∧ _))

instance (t : PaneStateTracker) (now : Instant) : Decidable (t.AgentSilent now) :=
  inferInstanceAs (Decidable (_ ∧ _))

instance (t : PaneStateTracker) (now : Instant) : Decidable (t.QuietAfterBlock now) :=
  decidable_of_iff (t.lastDAt.any fun d =>
      decide (fromSecs 5 < elapsed now d ∧ t.lastOutputAt < d + fromSecs 1)) (by
    simp only [QuietAfterBlock,Option.any_eq_true,decide_eq_true_eq])

/-- The state the rules give, in their order, and the reason. `alive` is whether the root
process is. -/
def heuristic (t : PaneStateTracker) (now : Instant) (alive : Bool) : PaneStateKind × Text :=
  if 0 < t.rootPid ∧ !alive then
    if t.ExitedNonZero then (.crashed,"process exited non-zero".toList)
    else (.done,"process exited".toList)
  else if t.ShowsInteractive then (.interactive,t.foregroundBase)
  else if t.AtPrompt now then (.waitingInput,"shell prompt, idle > 2s".toList)
  else if t.AgentSilent now then (.waitingInput,"agent idle >15s".toList)
  else if t.QuietAfterBlock now then (.idle,"quiet after block end".toList)
  else (.running,"active".toList)

def clearOverride (t : PaneStateTracker) : PaneStateTracker :=
  { t with overrideUntil := none, overriddenState := none, overriddenReason := none }

def evaluate (t : PaneStateTracker) (now : Instant) (alive : Bool) : PaneStateTracker × Bool :=
  match t.overrideUntil with
  | some overrideEnd =>
    if now < overrideEnd then
      t.apply (t.overriddenState.getD .running) (t.overriddenReason.getD "override".toList)
    else
      let t := t.clearOverride
      t.apply (t.heuristic now alive).1 (t.heuristic now alive).2
  | none => t.apply (t.heuristic now alive).1 (t.heuristic now alive).2

/-- An override is in force. -/
def Overridden (t : PaneStateTracker) (now : Instant) : Prop :=
  ∃ overrideEnd, t.overrideUntil = some overrideEnd ∧ now < overrideEnd

instance (t : PaneStateTracker) (now : Instant) : Decidable (t.Overridden now) :=
  decidable_of_iff (t.overrideUntil.any fun overrideEnd => decide (now < overrideEnd)) (by
    simp only [Overridden,Option.any_eq_true,decide_eq_true_eq])

/-- The state an evaluation comes to. -/
def verdict (t : PaneStateTracker) (now : Instant) (alive : Bool) : PaneStateKind :=
  if t.Overridden now then t.overriddenState.getD .running else (t.heuristic now alive).1

/-- The state and the reason of the rule that fires, an override first. -/
def chosen (t : PaneStateTracker) (now : Instant) (alive : Bool) : PaneStateKind × Text :=
  if t.Overridden now then
    (t.overriddenState.getD .running,t.overriddenReason.getD "override".toList)
  else t.heuristic now alive

variable {t : PaneStateTracker} {now : Instant}

@[simp] theorem apply_state (newState : PaneStateKind) (newReason : Text) :
    (t.apply newState newReason).1.state = newState := by
  unfold apply
  split
  · assumption
  · rfl

@[simp] theorem apply_changed (newState : PaneStateKind) (newReason : Text) :
    (t.apply newState newReason).2 = decide (t.state ≠ newState) := by
  unfold apply
  split <;> simp [*]

/-- What is fed in stays as it is. -/
theorem apply_eq (newState : PaneStateKind) (newReason : Text) :
    ∃ reason seen, (t.apply newState newReason).1 =
      { t with state := newState, reason := reason, seen := seen } := by
  unfold apply
  split
  · next h => exact ⟨t.reason,t.seen,by rw [← h]⟩
  · split
    · exact ⟨newReason,false,rfl⟩
    · exact ⟨newReason,t.seen,rfl⟩

/-- The rules do not look at the override. -/
@[simp] theorem heuristic_clearOverride (alive : Bool) :
    t.clearOverride.heuristic now alive = t.heuristic now alive := rfl

/-- The tracker without an override that has run out. -/
def resumed (t : PaneStateTracker) (now : Instant) : PaneStateTracker :=
  if t.overrideUntil.any fun overrideEnd => overrideEnd ≤ now then t.clearOverride else t

@[simp] theorem resumed_state : (t.resumed now).state = t.state := by
  unfold resumed
  split <;> rfl

theorem chosen_fst (alive : Bool) : (t.chosen now alive).1 = t.verdict now alive := by
  unfold chosen verdict
  split <;> rfl

/-- An evaluation drops an override that has run out, and then takes what is chosen. -/
theorem evaluate_eq (alive : Bool) :
    t.evaluate now alive =
      (t.resumed now).apply (t.chosen now alive).1 (t.chosen now alive).2 := by
  unfold resumed evaluate chosen
  cases h : t.overrideUntil with
  | none =>
    have hfree : ¬t.Overridden now := by simp [Overridden,h]
    simp [hfree]
  | some overrideEnd =>
    have hiff : t.Overridden now ↔ now < overrideEnd := by simp [Overridden,h]
    by_cases hin : now < overrideEnd
    · simp [hiff.mpr hin,hin,Nat.not_le.mpr hin]
    · simp [mt hiff.mp hin,hin,Nat.le_of_not_lt hin]

theorem evaluate_state (alive : Bool) :
    (t.evaluate now alive).1.state = t.verdict now alive := by
  rw [evaluate_eq,apply_state,chosen_fst]

theorem evaluate_changed (alive : Bool) :
    (t.evaluate now alive).2 = decide (t.state ≠ t.verdict now alive) := by
  rw [evaluate_eq,apply_changed,resumed_state,chosen_fst]

/-- Past the state, an evaluation changes no more than the override. -/
theorem evaluate_fields (alive : Bool) :
    ∃ state reason seen, (t.evaluate now alive).1 =
      { t.resumed now with state := state, reason := reason, seen := seen } := by
  obtain ⟨reason,seen,happly⟩ :=
    (t.resumed now).apply_eq (t.chosen now alive).1 (t.chosen now alive).2
  exact ⟨_,reason,seen,by rw [evaluate_eq,happly]⟩

end PaneStateTracker

end Pyre.State
