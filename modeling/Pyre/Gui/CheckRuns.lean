import Mathlib.Data.List.Perm.Basic

/-!
The CI state of a pull request, folded from the check runs of its head commit. What serde_json
reads of a response is a parameter; of the runs only their status and their conclusion are looked
at.
-/

set_option autoImplicit false

namespace Pyre.Gui

/-- `serde_json::Value` -/
inductive Json where
  | null
  | bool (b : Bool)
  | number (text : String)
  | string (text : String)
  | array (items : List Json)
  | object (fields : List (String × Json))

namespace Json

/-- What is not there is null. -/
def index (key : String) : Json → Json
  | object fields => (fields.lookup key).getD null
  | _ => null

def asStr : Json → Option String
  | string text => some text
  | _ => none

def asArray : Json → Option (List Json)
  | array items => some items
  | _ => none

end Json

inductive CiState where
  | success
  | failure
  | pending
  | running
  | none
  deriving DecidableEq, Repr

/-- The flags of the fold. -/
structure RunFlags where
  hasFailure : Bool
  hasRunning : Bool
  hasPending : Bool
  hasSuccess : Bool
  deriving DecidableEq, Repr

def runStatus (run : Json) : String := ((run.index "status").asStr).getD ""

def runConclusion (run : Json) : String := ((run.index "conclusion").asStr).getD ""

namespace RunFlags

def start : RunFlags := ⟨false,false,false,false⟩

def see (f : RunFlags) (run : Json) : RunFlags :=
  match runStatus run with
  | "in_progress" => { f with hasRunning := true }
  | "queued" => { f with hasPending := true }
  | "completed" =>
    match runConclusion run with
    | "failure" | "timed_out" | "action_required" | "cancelled" => { f with hasFailure := true }
    | "success" | "neutral" | "skipped" | "stale" => { f with hasSuccess := true }
    | _ => f
  | _ => f

/-- The highest priority comes first. -/
def fold (f : RunFlags) : CiState :=
  if f.hasFailure then .failure
  else if f.hasRunning then .running
  else if f.hasPending then .pending
  else if f.hasSuccess then .success
  else .none

end RunFlags

def parseCheckRuns (fromStr : String → Option Json) (json : String) : CiState :=
  match fromStr json with
  | none => .none
  | some v =>
    match (v.index "check_runs").asArray with
    | none => .none
    | some [] => .none
    | some runs => (runs.foldl RunFlags.see .start).fold

/-! What a run says. -/

def namedFailures : List String := ["failure","timed_out","action_required","cancelled"]

def goodConclusions : List String := ["success","neutral","skipped","stale"]

def CompletedWith (conclusions : List String) (run : Json) : Prop :=
  runStatus run = "completed" ∧ runConclusion run ∈ conclusions

instance (conclusions : List String) : DecidablePred (CompletedWith conclusions) :=
  fun _ => inferInstanceAs (Decidable (_ ∧ _))

/-- The run has failed; the last conclusion is one of those that the fold does not know. -/
def Failed : Json → Prop := CompletedWith ("startup_failure" :: namedFailures)

def Unfinished (run : Json) : Prop := runStatus run = "in_progress" ∨ runStatus run = "queued"

instance : DecidablePred Unfinished := fun _ => inferInstanceAs (Decidable (_ ∨ _))

/-- The runs of a response that is read. -/
def ResponseOf (fromStr : String → Option Json) (json : String) (runs : List Json) : Prop :=
  ∃ v, fromStr json = some v ∧ (v.index "check_runs").asArray = some runs

/-- What the state that is shown is to say of the runs. -/
structure FoldSound (fromStr : String → Option Json) (json : String) (runs : List Json) :
    Prop where
  success : parseCheckRuns fromStr json = .success → ∀ run ∈ runs, CompletedWith goodConclusions run
  failure : (∃ run ∈ runs, Failed run) → parseCheckRuns fromStr json = .failure
  order : ∀ json' runs', ResponseOf fromStr json' runs' → runs'.Perm runs →
    parseCheckRuns fromStr json' = parseCheckRuns fromStr json

/-- A failure that the fold knows is there, or none that it does not know; and then something
unfinished, or nothing good, or nothing else. -/
def FoldKnows (runs : List Json) : Prop :=
  (∃ run ∈ runs, CompletedWith namedFailures run) ∨
    (∀ run ∈ runs, ¬CompletedWith ["startup_failure"] run) ∧
      ((∃ run ∈ runs, Unfinished run) ∨ (∀ run ∈ runs, ¬CompletedWith goodConclusions run) ∨
        ∀ run ∈ runs, CompletedWith goodConclusions run)

/-! What the fold has seen. -/

section fold

variable {fromStr : String → Option Json} {json : String} {f : RunFlags} {run : Json}
  {runs : List Json}

theorem see_eq (f : RunFlags) (run : Json) : f.see run = {
    hasFailure := f.hasFailure || decide (CompletedWith namedFailures run)
    hasRunning := f.hasRunning || decide (runStatus run = "in_progress")
    hasPending := f.hasPending || decide (runStatus run = "queued")
    hasSuccess := f.hasSuccess || decide (CompletedWith goodConclusions run) } := by
  unfold RunFlags.see
  split
  · rename_i hstatus
    simp [CompletedWith,hstatus]
  · rename_i hstatus
    simp [CompletedWith,hstatus]
  · rename_i hstatus
    split
    case h_9 =>
      simp only [imp_false] at *
      simp [CompletedWith,namedFailures,goodConclusions, *]
    all_goals simp [CompletedWith,namedFailures,goodConclusions, *]
  · simp only [imp_false] at *
    simp [CompletedWith, *]

theorem foldl_see (f : RunFlags) (runs : List Json) : runs.foldl RunFlags.see f = {
    hasFailure := f.hasFailure || runs.any fun run => CompletedWith namedFailures run
    hasRunning := f.hasRunning || runs.any fun run => runStatus run = "in_progress"
    hasPending := f.hasPending || runs.any fun run => runStatus run = "queued"
    hasSuccess := f.hasSuccess || runs.any fun run => CompletedWith goodConclusions run } := by
  induction runs generalizing f with
  | nil => simp
  | cons run runs ih => simp only [List.foldl_cons,ih,see_eq,List.any_cons,Bool.or_assoc]

/-- Only which kinds of runs there are matters. -/
theorem parseCheckRuns_eq (h : ResponseOf fromStr json runs) : parseCheckRuns fromStr json =
    if ∃ run ∈ runs, CompletedWith namedFailures run then .failure
    else if ∃ run ∈ runs, runStatus run = "in_progress" then .running
    else if ∃ run ∈ runs, runStatus run = "queued" then .pending
    else if ∃ run ∈ runs, CompletedWith goodConclusions run then .success
    else .none := by
  obtain ⟨v,hv,hruns⟩ := h
  have hparse : parseCheckRuns fromStr json = (runs.foldl RunFlags.see .start).fold := by
    simp only [parseCheckRuns,hv,hruns]
    cases runs with
    | nil => rfl
    | cons run runs => rfl
  rw [hparse,foldl_see]
  simp [RunFlags.fold,RunFlags.start]

theorem parseCheckRuns_perm {json' : String} {runs' : List Json}
    (h : ResponseOf fromStr json runs) (h' : ResponseOf fromStr json' runs')
    (hperm : runs'.Perm runs) : parseCheckRuns fromStr json' = parseCheckRuns fromStr json := by
  rw [parseCheckRuns_eq h,parseCheckRuns_eq h']
  simp only [hperm.mem_iff]

theorem parseCheckRuns_failure_iff (h : ResponseOf fromStr json runs) :
    parseCheckRuns fromStr json = .failure ↔ ∃ run ∈ runs, CompletedWith namedFailures run := by
  rw [parseCheckRuns_eq h]
  split_ifs <;> simp_all

theorem parseCheckRuns_success_iff (h : ResponseOf fromStr json runs) :
    parseCheckRuns fromStr json = .success ↔
      (¬∃ run ∈ runs, CompletedWith namedFailures run) ∧ (¬∃ run ∈ runs, Unfinished run) ∧
        ∃ run ∈ runs, CompletedWith goodConclusions run := by
  rw [parseCheckRuns_eq h]
  simp only [Unfinished,and_or_left,exists_or]
  split_ifs <;> simp_all

theorem failed_iff : Failed run ↔
    CompletedWith ["startup_failure"] run ∨ CompletedWith namedFailures run := by
  simp only [Failed,CompletedWith,List.mem_cons,List.not_mem_nil,or_false,and_or_left]

end fold

/-- A response is summed up right just where no kind of run that the fold does not know decides
it. -/
theorem foldSound_iff (fromStr : String → Option Json) (json : String) (runs : List Json)
    (h : ResponseOf fromStr json runs) : FoldSound fromStr json runs ↔ FoldKnows runs := by
  constructor
  · intro hsound
    by_cases hnamed : ∃ run ∈ runs, CompletedWith namedFailures run
    · exact .inl hnamed
    · have hnone : ∀ run ∈ runs, ¬CompletedWith ["startup_failure"] run := by
        intro run hrun hstartup
        have hfailure := hsound.failure ⟨run,hrun,failed_iff.mpr (.inl hstartup)⟩
        exact hnamed ((parseCheckRuns_failure_iff h).mp hfailure)
      refine .inr ⟨hnone,?_⟩
      by_cases hunfinished : ∃ run ∈ runs, Unfinished run
      · exact .inl hunfinished
      · by_cases hgood : ∃ run ∈ runs, CompletedWith goodConclusions run
        · exact .inr (.inr (hsound.success
            ((parseCheckRuns_success_iff h).mpr ⟨hnamed,hunfinished,hgood⟩)))
        · exact .inr (.inl fun run hrun hrun' => hgood ⟨run,hrun,hrun'⟩)
  · intro hknows
    refine ⟨fun hsuccess => ?_,fun hfailed => ?_,fun json' runs' h' hperm =>
      parseCheckRuns_perm h h' hperm⟩
    · obtain ⟨hnamed,hunfinished,run,hrun,hgood⟩ := (parseCheckRuns_success_iff h).mp hsuccess
      rcases hknows with hknown | ⟨-,hknown | hknown | hknown⟩
      · exact absurd hknown hnamed
      · exact absurd hknown hunfinished
      · exact absurd hgood (hknown run hrun)
      · exact hknown
    · refine (parseCheckRuns_failure_iff h).mpr ?_
      rcases hknows with hknown | ⟨hnone,-⟩
      · exact hknown
      · obtain ⟨run,hrun,hfailed⟩ := hfailed
        exact ⟨run,hrun,(failed_iff.mp hfailed).resolve_left (hnone run hrun)⟩

/-- A check run with its status, and its conclusion if it has one. -/
def checkRun (status : String) (conclusion : Option String) : Json :=
  .object [("status",.string status),("conclusion",conclusion.elim .null .string)]

def checkRunsResponse (runs : List Json) : Json := .object [("check_runs",.array runs)]

theorem foldSound_iff_finished :
    FoldSound (fun _ => some (checkRunsResponse [checkRun "completed" (some "success")])) ""
      [checkRun "completed" (some "success")] ↔
        FoldKnows [checkRun "completed" (some "success")] :=
  foldSound_iff _ _ _ ⟨_,rfl,rfl⟩

/-- One good run hides another that has not begun. -/
theorem waiting_run_hidden :
    ¬∀ fromStr json runs, ResponseOf fromStr json runs → FoldSound fromStr json runs := by
  intro hall
  let runs := [checkRun "completed" (some "success"),checkRun "waiting" none]
  have hsound := hall (fun _ => some (checkRunsResponse runs)) "" runs ⟨_,rfl,rfl⟩
  have hgood := hsound.success (by decide) (checkRun "waiting" none) (by simp [runs])
  revert hgood
  decide

end Pyre.Gui
