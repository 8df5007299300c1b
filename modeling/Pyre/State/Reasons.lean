import Pyre.State.Engines

/-!
The state and the reason that a tracker publishes. An evaluation writes both where the state
changes, and else neither, so that a reason outlives the rule it came from.
-/

set_option autoImplicit false

namespace Pyre.State
open Base Events

namespace PaneStateTracker

/-- An evaluation publishes what is chosen, tells of a change, and has the pane unseen just
where it is done now. -/
def Reports (t : PaneStateTracker) (now : Instant) (alive : Bool) : Prop :=
  let (t',changed) := t.evaluate now alive
  (t'.state,t'.reason) = t.chosen now alive ∧ (changed = true ↔ t'.state ≠ t.state) ∧
    (t'.seen = false ↔ t.seen = false ∨ t.state ≠ .done ∧ t'.state = .done)

end PaneStateTracker

/-- What happens to a tracker, each thing at the time it is given. -/
inductive TrackerStep where
  | touchOutput (now : Instant)
  | pushMarker (now : Instant) (marker : Osc133Marker)
  | setOverride (now : Instant) (state : PaneStateKind) (reason : Text) (secs : Nat)
  | foreground (cmd : Option Text)
  | agent (agent : AgentKind)
  | markSeen
  | evaluate (now : Instant) (alive : Bool)

namespace PaneStateTracker

def step (t : PaneStateTracker) : TrackerStep → Option PaneStateTracker
  | .touchOutput now => some (t.touchOutput now)
  | .pushMarker now marker => some (t.pushMarker now marker)
  | .setOverride now state reason secs => some (t.setOverride now state reason secs)
  | .foreground cmd => some { t with foregroundCmd := cmd }
  | .agent agent => some { t with agent := agent }
  | .markSeen => some t.markSeen
  | .evaluate now alive => some (t.evaluate now alive).1

/-- The tracker does its part in the step. -/
def Faithful (t : PaneStateTracker) : TrackerStep → Prop
  | .evaluate now alive => t.Reports now alive
  | _ => True

/-- What the rules choose is another state, or has the reason that is there. -/
def Fresh (t : PaneStateTracker) : TrackerStep → Prop
  | .evaluate now alive =>
    t.state ≠ (t.chosen now alive).1 ∨ t.reason = (t.chosen now alive).2
  | _ => True

variable {t : PaneStateTracker} {now : Instant}

@[simp] theorem resumed_reason : (t.resumed now).reason = t.reason := by
  unfold resumed
  split <;> rfl

@[simp] theorem resumed_seen : (t.resumed now).seen = t.seen := by
  unfold resumed
  split <;> rfl

/-- The reason is the only thing that can be wrong. -/
theorem reports_iff (alive : Bool) :
    t.Reports now alive ↔
      t.state ≠ (t.chosen now alive).1 ∨ t.reason = (t.chosen now alive).2 := by
  rw [Reports,evaluate_eq]
  obtain ⟨state,reason⟩ := t.chosen now alive
  have hstate : (t.resumed now).state = t.state := resumed_state
  by_cases hsame : t.state = state
  · have hkept : (t.resumed now).apply state reason = (t.resumed now,false) := by
      rw [apply,if_pos (hstate.trans hsame)]
    simp [hkept,hsame]
  · have hset : (t.resumed now).apply state reason =
        ({ (if state = .done then { t.resumed now with seen := false } else t.resumed now) with
          state := state, reason := reason },true) := by
      rw [apply,if_neg (hstate ▸ hsame)]
    rw [hset]
    by_cases hdone : state = .done
    · subst hdone
      simp [hsame,Ne.symm hsame]
    · simp [hdone,hsame,Ne.symm hsame]

/-- In every run from the start: each evaluation publishes the state and the reason that are
chosen just where none chooses the state that is there with another reason. -/
theorem reports_along (opened : Instant) (rootPid : Nat) (steps : List TrackerStep) :
    Along step Faithful (.new opened rootPid) steps ↔
      Along step Fresh (.new opened rootPid) steps := by
  refine along_congr (I := fun _ => True) (fun _ _ _ _ _ => trivial) (fun t a _ => ?_) trivial steps
  cases a with
  | evaluate now alive => exact reports_iff alive
  | _ => exact Iff.rfl

/-- An agent reports what it is at, and the reason from the start stays. -/
theorem report_lost :
    ¬∀ opened rootPid steps, Along step Faithful (.new opened rootPid) steps := by
  intro hall
  have hrun := hall 0 0 [.setOverride 0 .running "compiling".toList 60,.evaluate 1 true]
  have hreport := (hrun.2 _ rfl).1.1
  revert hreport
  decide

end PaneStateTracker

end Pyre.State
