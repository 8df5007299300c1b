import Mathlib.Data.List.Basic
import Pyre.Worker.Panes

/-!
What an open request starts: by the daemon of a single process, which builds the command
from the request itself, and by the supervisor with its worker, which hands on the slot, the
shell, the directory and the size, and keeps the shell and the directory for a respawn.
-/

set_option autoImplicit false

namespace Pyre.Requests

/-- What both modes read of the process's environment: `$SHELL`,
`$PYRE_NO_AUTO_INTEGRATION`, and the rcfile's path if it could be written. -/
structure DaemonEnv where
  shell : Option String
  noAutoIntegration : Option String
  rcfile : Option String
  deriving DecidableEq, Repr

structure OpenPaneReq where
  shell : Option String
  cwd : Option String
  cols : UInt16
  rows : UInt16
  env : List (String × String)
  name : Option String
  deriving DecidableEq, Repr

/-- Its `name` is the session's. -/
structure SpawnReq where
  cols : UInt16
  rows : UInt16
  shell : Option String
  cwd : Option String
  env : List (String × String)
  name : Option String
  deriving DecidableEq, Repr

/-- The child that a `CommandBuilder` starts, with the terminal it is given. -/
structure Child where
  program : String
  args : List String
  dir : String
  env : List (String × String)
  cols : UInt16
  rows : UInt16
  deriving DecidableEq, Repr

/-- The pane as it is listed once it is open. -/
structure Opened where
  child : Child
  name : Option String
  deriving DecidableEq, Repr

/-- The directory in which a `CommandBuilder` starts its program, by the `cwd` it was
given if any. -/
structure CommandBuilder where
  startDir : Option String → String

/-- A `cwd` that is no directory, as the empty path, is as good as none. -/
def CommandBuilder.Lawful (b : CommandBuilder) : Prop := b.startDir (some "") = b.startDir none

/-- `Path::file_name`: the last component, unless it is `..`. -/
def fileName (path : String) : Option (List Char) :=
  match ((path.toList.splitOn '/').filter fun c => c ≠ [] ∧ c ≠ ['.']).getLast? with
  | some ['.','.'] => none
  | last => last

variable (b : CommandBuilder) (env : DaemonEnv)

/-! ### One process -/

/-- The arguments that source the integration script, for a bash that did not opt out. -/
def integrationArgs (shell : String) : List String :=
  if fileName shell = some "bash".toList ∧ env.noAutoIntegration ≠ some "1" then
    match env.rcfile with
    | some rcfile => ["--rcfile",rcfile]
    | none => []
  else []

def spawnPty (req : SpawnReq) (paneName : Option String) : Opened :=
  let shell := (req.shell.or env.shell).getD "/bin/bash"
  ⟨⟨shell,integrationArgs env shell,b.startDir req.cwd,req.env,req.cols,req.rows⟩,paneName⟩

/-- `SessionRegistry::open_pane`. -/
def OpenPaneReq.single (req : OpenPaneReq) : Opened :=
  spawnPty b env ⟨req.cols,req.rows,req.shell,req.cwd,req.env,none⟩ req.name

/-- `DaemonImpl::spawn`, for the session's first pane. -/
def SpawnReq.single (req : SpawnReq) : Opened :=
  OpenPaneReq.single b env ⟨req.shell,req.cwd,req.cols,req.rows,req.env,none⟩

/-! ### The supervisor and its worker -/

/-- `WorkerState::open_pane`, of which the supervisor lists the pane without a name. -/
def workerPane (shell cwd : String) (cols rows : UInt16) : Opened :=
  let program := if shell = "" then env.shell.getD "/bin/bash" else shell
  ⟨⟨program,[],b.startDir (if cwd = "" then none else some cwd),[],cols,rows⟩,none⟩

def workerOpen (req : Worker.OpenPaneReq) : Opened :=
  workerPane b env req.handle.shell req.handle.cwd req.handle.cols req.handle.rows

/-- The worker opens a row of its shard again at 80×24. -/
def workerReopen (slot : UInt32) (row : Worker.PaneRow) : Opened :=
  workerOpen b env ⟨slot,row.shell,row.cwd,80,24⟩

def OpenPaneReq.forward (req : OpenPaneReq) (slot : UInt32) : Worker.OpenPaneReq :=
  ⟨slot,req.shell.getD "",req.cwd.getD "",req.cols,req.rows⟩

def SpawnReq.forward (req : SpawnReq) (slot : UInt32) : Worker.OpenPaneReq :=
  ⟨slot,req.shell.getD "",req.cwd.getD "",req.cols,req.rows⟩

/-! ### What the request set -/

/-- A request whose fields the pane may have been given, or not. -/
structure SetFields where
  shell : Option String
  cwd : Option String
  env : List (String × String)
  name : Option String
  deriving DecidableEq, Repr

def OpenPaneReq.set (req : OpenPaneReq) : SetFields := ⟨req.shell,req.cwd,req.env,req.name⟩

def SpawnReq.set (req : SpawnReq) : SetFields := ⟨req.shell,req.cwd,req.env,none⟩

/-- The pane `q` is as the pane `p` in every field that was set; the size always is. -/
structure SetFields.Keeps (fields : SetFields) (p q : Opened) : Prop where
  shell : fields.shell ≠ none →
    q.child.program = p.child.program ∧ q.child.args = p.child.args
  cwd : fields.cwd ≠ none → q.child.dir = p.child.dir
  env : fields.env ≠ [] → q.child.env = p.child.env
  size : q.child.cols = p.child.cols ∧ q.child.rows = p.child.rows
  name : fields.name ≠ none → q.name = p.name

/-- What the worker is told is the whole request: it asks for no empty shell (unless
`$SHELL` is that too), no environment, no name, no empty terminal, and no bash that would
get the integration script. -/
structure OpenPaneReq.Forwarded (req : OpenPaneReq) : Prop where
  shell : req.shell = some "" → env.shell = some ""
  bash : fileName ((req.shell.or env.shell).getD "/bin/bash") = some "bash".toList →
    env.noAutoIntegration = some "1" ∨ env.rcfile = none
  env : req.env = []
  cols : req.cols ≠ 0
  rows : req.rows ≠ 0
  name : req.name = none

/-- `spawn` of a session asks for a pane without a name. -/
def SpawnReq.openReq (req : SpawnReq) : OpenPaneReq :=
  ⟨req.shell,req.cwd,req.cols,req.rows,req.env,none⟩

variable {b}

theorem integrationArgs_eq_nil_iff (shell : String) :
    integrationArgs env shell = [] ↔
      (fileName shell = some "bash".toList →
        env.noAutoIntegration = some "1" ∨ env.rcfile = none) := by
  unfold integrationArgs
  split
  case isTrue h =>
    cases hr : env.rcfile with
    | none => simp
    | some rcfile => simpa [h.1] using h.2
  case isFalse h =>
    refine iff_of_true rfl fun hb => .inl ?_
    by_contra ho
    exact h ⟨hb,ho⟩

/-- The worker takes the default shell for an unset one and for an empty one. -/
theorem program_eq_iff (shell : Option String) :
    (shell.or env.shell).getD "/bin/bash" =
        (if shell.getD "" = "" then env.shell.getD "/bin/bash" else shell.getD "") ↔
      (shell = some "" → env.shell = some "") := by
  cases shell with
  | none => simp
  | some s =>
    by_cases hs : s = ""
    · subst hs
      cases h : env.shell with
      | none => simp
      | some d => simp [eq_comm]
    · simp [hs]

theorem startDir_forward (hb : b.Lawful) (cwd : Option String) :
    b.startDir (if cwd.getD "" = "" then none else some (cwd.getD "")) = b.startDir cwd := by
  cases cwd with
  | none => simp
  | some d =>
    by_cases hd : d = ""
    · subst hd
      simpa using hb.symm
    · simp [hd]

/-- A terminal without columns or rows gets another size. -/
theorem handle_size_iff (req : Worker.OpenPaneReq) :
    (req.cols = req.handle.cols ∧ req.rows = req.handle.rows) ↔ req.cols ≠ 0 ∧ req.rows ≠ 0 := by
  unfold Worker.OpenPaneReq.handle
  split
  case isTrue h =>
    refine iff_of_false (fun hs => ?_) (fun hs => absurd h (by simp [hs.1,hs.2]))
    simp [hs.1,hs.2] at h
  case isFalse h => simpa using h

theorem handle_shell (req : Worker.OpenPaneReq) :
    req.handle.shell = req.shell ∧ req.handle.cwd = req.cwd := by
  unfold Worker.OpenPaneReq.handle
  split <;> exact ⟨rfl,rfl⟩

/-- Both modes start the same child exactly if the whole request was forwarded. -/
theorem single_eq_workerOpen_iff (hb : b.Lawful) (req : OpenPaneReq) (slot : UInt32) :
    req.single b env = workerOpen b env (req.forward slot) ↔ req.Forwarded env := by
  obtain ⟨hshell,hcwd⟩ := handle_shell (req.forward slot)
  have hsize := handle_size_iff (req.forward slot)
  have hprogram := program_eq_iff env req.shell
  have hargs := integrationArgs_eq_nil_iff env ((req.shell.or env.shell).getD "/bin/bash")
  have hdir := startDir_forward hb req.cwd
  simp only [workerOpen,workerPane,OpenPaneReq.single,spawnPty,hshell,hcwd,Opened.mk.injEq,
    Child.mk.injEq]
  constructor
  · rintro ⟨⟨hp,ha,-,he,hc,hr⟩,hn⟩
    have hpos := hsize.mp ⟨hc,hr⟩
    exact ⟨hprogram.mp hp,hargs.mp ha,he,hpos.1,hpos.2,hn⟩
  · rintro ⟨hp,ha,he,hc,hr,hn⟩
    have hpos := hsize.mpr ⟨hc,hr⟩
    exact ⟨⟨hprogram.mpr hp,hargs.mpr ha,hdir.symm,he,hpos.1,hpos.2⟩,hn⟩

/-- A pane opened again is the pane opened at 80×24. -/
theorem keeps_reopen_iff (hb : b.Lawful) {req : OpenPaneReq} (hf : req.Forwarded env)
    (slot : UInt32) :
    req.set.Keeps (req.single b env) (workerReopen b env slot (req.forward slot).row) ↔
      req.cols = 80 ∧ req.rows = 24 := by
  constructor
  · intro h
    exact ⟨h.size.1.symm,h.size.2.symm⟩
  · rintro ⟨hc,hr⟩
    have heq : req.single b env = workerReopen b env slot (req.forward slot).row := by
      rw [(single_eq_workerOpen_iff env hb req slot).mpr hf]
      simp only [workerReopen,OpenPaneReq.forward,Worker.OpenPaneReq.row,hc,hr]
    rw [← heq]
    exact ⟨fun _ => ⟨rfl,rfl⟩,fun _ => rfl,fun _ => rfl,⟨rfl,rfl⟩,fun _ => rfl⟩

/-- Of an `open_pane`, and of the first pane of a `spawn`. -/
theorem open_alike_iff (hb : b.Lawful) (req : OpenPaneReq) (slot : UInt32) :
    (req.single b env = workerOpen b env (req.forward slot) ↔ req.Forwarded env) ∧
    (req.single b env = workerOpen b env (req.forward slot) ∧
        req.set.Keeps (req.single b env) (workerReopen b env slot (req.forward slot).row) ↔
      req.Forwarded env ∧ req.cols = 80 ∧ req.rows = 24) := by
  have hiff := single_eq_workerOpen_iff env hb req slot
  refine ⟨hiff,?_⟩
  rw [hiff]
  exact and_congr_right fun hf => keeps_reopen_iff env hb hf slot

/-- In both modes a `spawn` and an `open_pane` start one child, and the worker starts it
again, exactly if the request says no more than the worker is told, at 80×24. -/
theorem open_requests_alike_iff (b : CommandBuilder) (env : DaemonEnv) (hb : b.Lawful)
    (slot : UInt32) :
    (∀ req : OpenPaneReq,
      (req.single b env = workerOpen b env (req.forward slot) ↔ req.Forwarded env) ∧
      (req.single b env = workerOpen b env (req.forward slot) ∧
          req.set.Keeps (req.single b env) (workerReopen b env slot (req.forward slot).row) ↔
        req.Forwarded env ∧ req.cols = 80 ∧ req.rows = 24)) ∧
    (∀ req : SpawnReq,
      (req.single b env = workerOpen b env (req.forward slot) ↔ req.openReq.Forwarded env) ∧
      (req.single b env = workerOpen b env (req.forward slot) ∧
          req.set.Keeps (req.single b env) (workerReopen b env slot (req.forward slot).row) ↔
        req.openReq.Forwarded env ∧ req.cols = 80 ∧ req.rows = 24)) :=
  ⟨fun req => open_alike_iff env hb req slot,fun req => open_alike_iff env hb req.openReq slot⟩

/-- A builder that starts in the home directory where it is given none. -/
def homeBuilder : CommandBuilder where
  startDir cwd := match cwd with
    | none | some "" => "/home"
    | some dir => dir

theorem open_requests_alike_sh :
    homeBuilder.Lawful ∧
    OpenPaneReq.single homeBuilder ⟨none,some "1",none⟩ ⟨some "sh",some "/tmp",80,24,[],none⟩ =
      workerOpen homeBuilder ⟨none,some "1",none⟩ ⟨0,"sh","/tmp",80,24⟩ := by
  refine ⟨rfl,?_⟩
  refine (((open_requests_alike_iff homeBuilder ⟨none,some "1",none⟩ rfl 0).1
    ⟨some "sh",some "/tmp",80,24,[],none⟩).1).mpr ?_
  exact ⟨by simp,fun _ => .inl rfl,rfl,by decide,by decide,rfl⟩

/-- The worker's child lacks a variable that the request sets, and its pane the name. -/
theorem open_requests_differ :
    ¬∀ (b : CommandBuilder) (_ : b.Lawful) (env : DaemonEnv) (req : OpenPaneReq)
      (slot : UInt32), req.single b env = workerOpen b env (req.forward slot) := by
  intro h
  have heq := h homeBuilder rfl ⟨none,some "1",none⟩
    ⟨some "sh",some "/tmp",80,24,[("EDITOR","vi")],some "logs"⟩ 0
  exact absurd (congrArg Opened.name heq) (by simp [OpenPaneReq.single,spawnPty,workerOpen,
    workerPane])

end Pyre.Requests
