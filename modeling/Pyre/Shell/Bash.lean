import Mathlib.Data.List.Basic

/-!
The bash integration script: the DEBUG trap and the last entry of
PROMPT_COMMAND, run by a shell that takes one input after each prompt.

The shell fires the trap in front of every simple command it runs, those of
PROMPT_COMMAND included, and restores `$?` after it.
-/

set_option autoImplicit false

namespace Pyre.Shell

inductive Marker where
  | A
  | C
  | D (exit : Nat)
  deriving DecidableEq, Repr

structure SimpleCommand where
  exit : Nat
  subshell : Nat
  deriving DecidableEq, Repr

/-- What the user does at a prompt; `completions` are the commands that completion
runs while the line is edited. -/
inductive Input where
  | line (completions : List SimpleCommand) (first : SimpleCommand) (rest : List SimpleCommand)
  | empty (completions : List SimpleCommand)
  | interrupted (completions : List SimpleCommand)
  deriving DecidableEq, Repr

/-- An entry of PROMPT_COMMAND: the status it exits with, by the number of the
prompt and `$?` before it. -/
abbrev Hook := Nat → Nat → Nat

structure BashState where
  atPrompt : Nat
  cmdStarted : Nat
  compLine : String
  bashSubshell : Nat
  status : Nat
  prompts : Nat
  out : List Marker
  deriving DecidableEq, Repr

/-- The shell when it has read the script. -/
def initial : BashState := ⟨0,0,"",0,0,0,[]⟩

/-- `__pyre_preexec` -/
def preexec (sh : BashState) : BashState :=
  if sh.compLine ≠ "" then sh
  else if sh.bashSubshell ≠ 0 then sh
  else if sh.atPrompt ≠ 1 then sh
  else { sh with atPrompt := 0, out := sh.out ++ [.C], cmdStarted := 1 }

def runSimple (sh : BashState) (c : SimpleCommand) : BashState :=
  { preexec { sh with bashSubshell := c.subshell } with bashSubshell := 0, status := c.exit }

/-- The body of `__pyre_prompt_cmd`. The function does not inherit the trap. -/
def promptCmd (sh : BashState) : BashState :=
  let exit := sh.status
  let sh := if sh.cmdStarted = 1 then { sh with out := sh.out ++ [.D exit], cmdStarted := 0 } else sh
  { sh with out := sh.out ++ [.A], atPrompt := 1, status := 0 }

def runHook (sh : BashState) (hook : Hook) : BashState :=
  runSimple sh ⟨hook sh.prompts sh.status,0⟩

/-- PROMPT_COMMAND after installation: the hooks, then `__pyre_prompt_cmd`. -/
def prompt (hooks : List Hook) (sh : BashState) : BashState :=
  let sh := promptCmd (preexec (hooks.foldl runHook sh))
  { sh with prompts := sh.prompts + 1 }

def complete (sh : BashState) (completions : List SimpleCommand) : BashState :=
  { completions.foldl runSimple { sh with compLine := "line" } with
    compLine := ""
    status := sh.status }

/-- 128 and the number of SIGINT. -/
def interruptStatus : Nat := 130

def enter (sh : BashState) : Input → BashState
  | .line completions first rest => (first :: rest).foldl runSimple (complete sh completions)
  | .empty completions => complete sh completions
  | .interrupted completions => { complete sh completions with status := interruptStatus }

def cycle (hooks : List Hook) (sh : BashState) (input : Input) : BashState :=
  prompt hooks (enter sh input)

def session (hooks : List Hook) (inputs : List Input) : BashState :=
  inputs.foldl (cycle hooks) (prompt hooks initial)

/-- The status of the line, for an input that runs one. -/
def Input.lineStatus : Input → Option Nat
  | .line _ first rest => some ((first :: rest).getLast (by simp)).exit
  | _ => none

def Input.markers (input : Input) : List Marker :=
  match input.lineStatus with
  | some status => [.C,.D status,.A]
  | none => [.A]

/-- The markers that mark exactly the lines that ran. -/
def markers (inputs : List Input) : List Marker := .A :: inputs.flatMap Input.markers

/-- `$?` once the hooks of the k-th prompt have run. -/
def hookStatus (hooks : List Hook) (k status : Nat) : Nat :=
  hooks.foldl (fun st hook => hook k st) status

/-- Each input so far ran a line, and the hooks after it left `$?` as they found it. -/
def HooksKeep (hooks : List Hook) : Nat → List Input → Prop
  | _, [] => True
  | k, input :: inputs =>
    (∃ status, input.lineStatus = some status ∧ hookStatus hooks k status = status) ∧
      HooksKeep hooks (k+1) inputs

structure AtPrompt (k : Nat) (sh : BashState) : Prop where
  compLine : sh.compLine = ""
  bashSubshell : sh.bashSubshell = 0
  prompts : sh.prompts = k
  atPrompt : sh.atPrompt = 1
  cmdStarted : sh.cmdStarted = 0

/-- The state between one prompt and the next, with what had been written at the
first: a C mark is still to come, or is out. -/
structure Since (base : List Marker) (k : Nat) (sh : BashState) : Prop where
  compLine : sh.compLine = ""
  bashSubshell : sh.bashSubshell = 0
  prompts : sh.prompts = k
  mark : (sh.atPrompt = 1 ∧ sh.cmdStarted = 0 ∧ sh.out = base) ∨
    (sh.atPrompt = 0 ∧ sh.cmdStarted = 1 ∧ sh.out = base ++ [.C])

theorem preexec_of_not_atPrompt {sh : BashState} (h : sh.atPrompt ≠ 1) : preexec sh = sh := by
  simp [preexec,h]

theorem preexec_of_subshell {sh : BashState} (h : sh.bashSubshell ≠ 0) : preexec sh = sh := by
  simp [preexec,h]

theorem preexec_of_compLine {sh : BashState} (h : sh.compLine ≠ "") : preexec sh = sh := by
  simp [preexec,h]

theorem preexec_since {base : List Marker} {k : Nat} {sh : BashState} (h : Since base k sh) :
    Since base k (preexec sh) ∧ (preexec sh).out = base ++ [.C] ∧
      (preexec sh).status = sh.status := by
  obtain ⟨hc,hs,hp,⟨ha,hm,ho⟩ | ⟨ha,hm,ho⟩⟩ := h
  · have he : preexec sh = { sh with atPrompt := 0, out := base ++ [.C], cmdStarted := 1 } := by
      simp [preexec,hc,hs,ha,ho]
    rw [he]
    exact ⟨⟨hc,hs,hp,Or.inr ⟨rfl,rfl,rfl⟩⟩,rfl,rfl⟩
  · have he : preexec sh = sh := preexec_of_not_atPrompt (by omega)
    rw [he]
    exact ⟨⟨hc,hs,hp,Or.inr ⟨ha,hm,ho⟩⟩,ho,rfl⟩

theorem runSimple_since {base : List Marker} {k : Nat} {sh : BashState} (h : Since base k sh)
    (c : SimpleCommand) : Since base k (runSimple sh c) := by
  by_cases hc : c.subshell = 0
  · have he : { sh with bashSubshell := c.subshell } = sh := by rw [hc,← h.bashSubshell]
    have hp := (preexec_since h).1
    rw [runSimple,he]
    exact ⟨hp.compLine,rfl,hp.prompts,hp.mark⟩
  · rw [runSimple,preexec_of_subshell hc]
    exact ⟨h.compLine,rfl,h.prompts,h.mark⟩

theorem runAll_since {base : List Marker} {k : Nat} {sh : BashState} (h : Since base k sh)
    (cs : List SimpleCommand) : Since base k (cs.foldl runSimple sh) := by
  induction cs generalizing sh with
  | nil => exact h
  | cons c cs ih => exact ih (runSimple_since h c)

theorem runAll_status (sh : BashState) (c : SimpleCommand) (cs : List SimpleCommand) :
    ((c :: cs).foldl runSimple sh).status = ((c :: cs).getLast (by simp)).exit := by
  induction cs generalizing sh c with
  | nil => rfl
  | cons d cs ih => exact ih (runSimple sh c) d

/-- Completion runs no command that marks, and gives `$?` back. -/
theorem complete_eq (sh : BashState) (hs : sh.bashSubshell = 0) (hc : sh.compLine = "")
    (cs : List SimpleCommand) : complete sh cs = sh := by
  have hstep : ∀ (x : BashState) (c : SimpleCommand), x.compLine ≠ "" →
      runSimple x c = { x with bashSubshell := 0, status := c.exit } := by
    intro x c hx
    have hpre : preexec { x with bashSubshell := c.subshell } = { x with bashSubshell := c.subshell } :=
      preexec_of_compLine hx
    rw [runSimple,hpre]
  have hall : ∀ (x : BashState), x.compLine ≠ "" → x.bashSubshell = 0 →
      ∃ st, cs.foldl runSimple x = { x with status := st } := by
    induction cs with
    | nil => intro x _ _; exact ⟨x.status,rfl⟩
    | cons c cs ih =>
      intro x hx hb
      rw [List.foldl_cons,hstep x c hx]
      obtain ⟨st,hst⟩ := ih { x with bashSubshell := 0, status := c.exit } hx rfl
      exact ⟨st,by rw [hst,← hb]⟩
  obtain ⟨st,hst⟩ := hall { sh with compLine := "line" } (by simp) hs
  simp [complete,hst,← hc]

theorem runHooks {base : List Marker} {k : Nat} (hooks : List Hook) {sh : BashState}
    (h : Since base k sh) :
    Since base k (hooks.foldl runHook sh) ∧
      (hooks.foldl runHook sh).status = hookStatus hooks k sh.status := by
  induction hooks generalizing sh with
  | nil => exact ⟨h,rfl⟩
  | cons hook hooks ih =>
    have hrun : Since base k (runHook sh hook) := runSimple_since h _
    have hst : (runHook sh hook).status = hook k sh.status := by
      rw [← h.prompts]
      rfl
    have hih := ih hrun
    rw [hst] at hih
    exact hih

/-- Whatever happened since the last prompt, the next one has written C and D before A. -/
theorem prompt_since {base : List Marker} {k : Nat} (hooks : List Hook) {sh : BashState}
    (h : Since base k sh) :
    AtPrompt (k+1) (prompt hooks sh) ∧
      (prompt hooks sh).out = base ++ [.C,.D (hookStatus hooks k sh.status),.A] := by
  obtain ⟨hh,hst⟩ := runHooks hooks h
  obtain ⟨hp,ho,hs⟩ := preexec_since hh
  have hstarted : (preexec (hooks.foldl runHook sh)).cmdStarted = 1 := by
    rcases hp.mark with ⟨-,-,hb⟩ | ⟨-,hm,-⟩
    · rw [ho] at hb
      simp at hb
    · exact hm
  have hk := hp.prompts
  constructor
  · constructor <;> simp [prompt,promptCmd,hstarted,hk,hp.compLine,hp.bashSubshell]
  · simp [prompt,promptCmd,hstarted,ho,hs,hst]

theorem enter_since {base : List Marker} {k : Nat} {sh : BashState} (h : Since base k sh)
    (input : Input) : Since base k (enter sh input) := by
  have hc := complete_eq sh h.bashSubshell h.compLine
  cases input with
  | line cs first rest =>
    rw [enter,hc]
    exact runAll_since h _
  | empty cs => rw [enter,hc]; exact h
  | interrupted cs =>
    rw [enter,hc]
    exact ⟨h.compLine,h.bashSubshell,h.prompts,h.mark⟩

theorem AtPrompt.since {k : Nat} {sh : BashState} (h : AtPrompt k sh) : Since sh.out k sh :=
  ⟨h.compLine,h.bashSubshell,h.prompts,Or.inl ⟨h.atPrompt,h.cmdStarted,rfl⟩⟩

/-- One cycle writes C, D with `$?` as the hooks left it, and A, whatever the input. -/
theorem cycle_atPrompt {k : Nat} (hooks : List Hook) {sh : BashState} (h : AtPrompt k sh)
    (input : Input) :
    AtPrompt (k+1) (cycle hooks sh input) ∧
      (cycle hooks sh input).out =
        sh.out ++ [.C,.D (hookStatus hooks k (enter sh input).status),.A] :=
  prompt_since hooks (enter_since h.since input)

theorem enter_status {sh : BashState} {input : Input} {status : Nat}
    (h : input.lineStatus = some status) : (enter sh input).status = status := by
  cases input with
  | line cs first rest =>
    rw [Input.lineStatus,Option.some.injEq] at h
    rw [enter,runAll_status,h]
  | empty cs => simp [Input.lineStatus] at h
  | interrupted cs => simp [Input.lineStatus] at h

theorem cycles_out {k : Nat} (hooks : List Hook) {sh : BashState} (h : AtPrompt k sh)
    (inputs : List Input) : sh.out <+: (inputs.foldl (cycle hooks) sh).out := by
  induction inputs generalizing k sh with
  | nil => exact List.prefix_refl _
  | cons input inputs ih =>
    obtain ⟨hc,ho⟩ := cycle_atPrompt hooks h input
    have hrest := ih hc
    rw [ho] at hrest
    exact (List.prefix_append _ _).trans hrest

theorem cycles_out_iff {k : Nat} (hooks : List Hook) {sh : BashState} (h : AtPrompt k sh)
    (inputs : List Input) :
    (inputs.foldl (cycle hooks) sh).out = sh.out ++ inputs.flatMap Input.markers ↔
      HooksKeep hooks k inputs := by
  induction inputs generalizing k sh with
  | nil => simp [HooksKeep]
  | cons input inputs ih =>
    obtain ⟨hc,ho⟩ := cycle_atPrompt hooks h input
    obtain ⟨more,hmore⟩ := cycles_out hooks hc inputs
    have hih := ih hc
    rw [← hmore,ho] at hih
    rw [List.foldl_cons,← hmore,ho,HooksKeep,← hih]
    cases hl : input.lineStatus with
    | none => simp [Input.markers,hl]
    | some status =>
      have hst : (enter sh input).status = status := enter_status hl
      simp [Input.markers,hl,hst]

/-- Before the first prompt no command is marked. -/
theorem first_prompt (hooks : List Hook) :
    AtPrompt 1 (prompt hooks initial) ∧ (prompt hooks initial).out = [.A] := by
  have hhooks : ∀ st : Nat, ∃ st', hooks.foldl runHook { initial with status := st } =
      { initial with status := st' } := by
    induction hooks with
    | nil => exact fun st => ⟨st,rfl⟩
    | cons hook hooks ih => exact fun st => ih (hook 0 st)
  obtain ⟨st,hst⟩ := hhooks 0
  have hrun : hooks.foldl runHook initial = { initial with status := st } := hst
  constructor
  · constructor <;> rw [prompt,hrun] <;> rfl
  · rw [prompt,hrun]
    rfl

/-- The markers are those of the lines that ran exactly when every input ran a line
and the hooks after it left `$?` as they found it. -/
theorem session_markers_iff (hooks : List Hook) (inputs : List Input) :
    (session hooks inputs).out = markers inputs ↔ HooksKeep hooks 1 inputs := by
  obtain ⟨hp,ho⟩ := first_prompt hooks
  have h := cycles_out_iff hooks hp inputs
  rw [ho] at h
  exact h

/-- An empty line is reported as a command. -/
theorem empty_line_marked : (session [] [.empty []]).out ≠ markers [.empty []] := by
  decide

end Pyre.Shell
