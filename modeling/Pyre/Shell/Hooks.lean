import Pyre.Base.Joined
import Pyre.Blocks.Chunking
import Pyre.Blocks.Command

/-!
The zsh and fish integration scripts, which are the same two hooks: one that runs before each
prompt and one that runs before a command line does. What the blocks of the pane say of a session
is put together here from the hooks, what is drawn between them and the block parser.
-/

set_option autoImplicit false

namespace Pyre.Shell.Hooks
open Base Blocks

/-- What is written but the marks the blocks are made of. -/
abbrev Quiet := {cb : Callback // cb.mark = none ∨ cb.mark = some .B}

def bytesOf (written : List Quiet) : Bytes := written.flatMap fun cb => cb.1.bytes

/-- What the user does at a prompt. `drawn` is all that is written up to the hook before the
command, the prompt with it; `output` all from there to the hook before the next prompt. -/
inductive Turn where
  | line (drawn output : List Quiet) (exit : Fin 256)
  | noLine (drawn : List Quiet) (status : Fin 256)

/-- `integration` is whether `PYRE_SHELL_INTEGRATION` is set to 1, which children inherit. -/
structure HookShell where
  integration : Bool
  hooked : Bool
  cmdStarted : Nat
  status : Fin 256
  out : List Callback

def HookShell.started (integration : Bool) : HookShell := ⟨integration,false,0,0,[]⟩

def markA : Callback := osc133Callback 'A'

def markC : Callback := osc133Callback 'C'

def markD (exit : Fin 256) : Callback :=
  .oscDispatch [BlockMachine.osc133,encode ['D'],encode (decimal exit)] true

namespace HookShell

def write (sh : HookShell) (cbs : List Callback) : HookShell := { sh with out := sh.out ++ cbs }

/-- The script, which does nothing where it has been read before. -/
def source (sh : HookShell) : HookShell :=
  if sh.integration then sh
  else { sh with integration := true, cmdStarted := 0, hooked := true }

/-- `__pyre_precmd`; the shell keeps the status for what comes after a hook. -/
def precmd (sh : HookShell) : HookShell :=
  let exit := sh.status
  let sh := if sh.cmdStarted = 1 then { sh.write [markD exit] with cmdStarted := 0 } else sh
  sh.write [markA]

/-- `__pyre_preexec` -/
def preexec (sh : HookShell) : HookShell := { sh.write [markC] with cmdStarted := 1 }

def prompt (sh : HookShell) : HookShell := if sh.hooked then sh.precmd else sh

/-- The hook before a command does not run for an empty or interrupted line. -/
def enter (sh : HookShell) : Turn → HookShell
  | .line drawn output exit =>
    let sh := sh.write (drawn.map Subtype.val)
    let sh := if sh.hooked then sh.preexec else sh
    { sh.write (output.map Subtype.val) with status := exit }
  | .noLine drawn status => { sh.write (drawn.map Subtype.val) with status := status }

def cycle (sh : HookShell) (turn : Turn) : HookShell := (sh.enter turn).prompt

/-- A session whose startup files read the script once or more often, and may write something. -/
def session (integration : Bool) (again : Nat) (banner : List Quiet) (turns : List Turn) :
    HookShell :=
  let sh := source^[again+1] (.started integration)
  turns.foldl cycle (sh.write (banner.map Subtype.val)).prompt

end HookShell

/-- The command of a block, taken from all that was drawn before it ran. -/
def commandText (drawn : List Quiet) : Text :=
  trimEnd (fromUtf8Lossy ((bytesOf drawn).filter fun b => decide (b ≠ 0)))

/-- The events a session is to give: a block for each line, with its output and its status. -/
def blocksOf (draw : Nat → BlockId) (session : SessionId) : Nat → List Turn → List BlockEvent
  | _, [] => []
  | n, .noLine _ _ :: turns => .promptStart session :: blocksOf draw session n turns
  | n, .line drawn output exit :: turns =>
    .commandStart session (draw n) (commandText drawn) none ::
      (bytes (.outputChunk (draw n) (bytesOf output)) ++
        .blockEnd (draw n) (some (exit : Int)) :: .promptStart session ::
          blocksOf draw session (n+1) turns)

variable {draw : Nat → BlockId} {session : SessionId} {m : BlockMachine} {log : List BlockEvent}
  {n : Nat}

theorem mark_D (exit : Fin 256) : (markD exit).mark = some .D := rfl

theorem exitCode_D (exit : Fin 256) : (markD exit).exitCode = some (exit : Int) := by
  revert exit
  decide +kernel

/-! What is seen of the machine along such a session. -/

theorem unbuffer_shown (cbs : List Callback) : (m.shown draw cbs).unbuffer = m.shown draw cbs := by
  induction cbs using List.reverseRecOn with
  | nil => exact BlockMachine.unbuffer_idem m
  | append_singleton cbs cb ih =>
    rw [BlockMachine.shown,List.foldl_concat]
    exact BlockMachine.unbuffer_idem _

theorem shown_append (cbs more : List Callback) :
    m.shown draw (cbs ++ more) = (m.shown draw cbs).shown draw more := by
  rw [BlockMachine.shown,List.foldl_append]
  exact congrArg (more.foldl _ ·) (unbuffer_shown cbs).symm

theorem react_quiet (cb : Quiet) :
    m.react draw cb.1 = cb.1.bytes.foldl BlockMachine.pushByte m := by
  rw [BlockMachine.react_eq]
  obtain h | h := cb.2 <;> simp only [h]

theorem shown_quiet (written : List Quiet) : m.shown draw (written.map Subtype.val) =
    ((bytesOf written).foldl BlockMachine.pushByte m).unbuffer := by
  induction written using List.reverseRecOn with
  | nil => rfl
  | append_singleton written cb ih =>
    have hlast : (m.shown draw (written.map Subtype.val)).shown draw [cb.1] =
        ((m.shown draw (written.map Subtype.val)).react draw cb.1).unbuffer := by
      rw [BlockMachine.shown,List.foldl_cons,List.foldl_nil,unbuffer_shown]
    rw [List.map_append,List.map_singleton,shown_append,hlast,react_quiet,ih]
    simp only [bytesOf,List.flatMap_append,List.foldl_append,List.flatMap_singleton]
    exact BlockMachine.unbuffer_pushBytes _ (BlockMachine.unbuffer_idem _)

/-- While no block is open, what is written makes the command, but for null bytes. -/
theorem pushBytes_capture (bs : Bytes) (hnone : m.currentBlock = none)
    (hcapture : m.capturingCmd = true) : bs.foldl BlockMachine.pushByte m =
      { m with cmdBuf := m.cmdBuf ++ bs.filter fun b => decide (b ≠ 0) } := by
  induction bs generalizing m with
  | nil => simp
  | cons b bs ih =>
    rw [List.foldl_cons,BlockMachine.pushByte_of_none hnone]
    refine (ih ?_ ?_).trans ?_
    · exact hnone
    · exact hcapture
    · by_cases hb : b = 0 <;> simp [hcapture,hb]

theorem pushBytes_silent (bs : Bytes) (hnone : m.currentBlock = none)
    (hcapture : m.capturingCmd = false) : bs.foldl BlockMachine.pushByte m = m := by
  induction bs with
  | nil => rfl
  | cons b bs ih =>
    have hpush : m.pushByte b = m := by simp [BlockMachine.pushByte,hnone,hcapture]
    rw [List.foldl_cons,hpush,ih]

/-- In an open block what is written is its output. -/
theorem pushBytes_output (bs : Bytes) {block : BlockId} (h : m.currentBlock = some block) :
    (bs.foldl BlockMachine.pushByte m).unbuffer =
      { m.unbuffer with pending := m.unbuffer.pending ++ bytes (.outputChunk block bs) } := by
  induction bs generalizing m with
  | nil =>
    have hnil : bytes (.outputChunk block []) = [] := rfl
    rw [hnil,List.append_nil]
    rfl
  | cons b bs ih =>
    have hpush : (m.pushByte b).unbuffer = (m.buffer b).unbuffer := by
      rw [BlockMachine.pushByte_of_some h]
      split
      · exact BlockMachine.unbuffer_flushOutput _
      · rfl
    rw [List.foldl_cons,ih ((BlockMachine.pushByte_currentBlock m b).trans h),hpush,
      BlockMachine.unbuffer_buffer h]
    simp [bytes]

/-- The machine at a prompt of the session. -/
def ready (session : SessionId) (n : Nat) (log : List BlockEvent) : BlockMachine :=
  ⟨session,none,[],true,[],log,n⟩

/-- What is written from one prompt to the next. -/
def Turn.written : Turn → List Callback
  | .line drawn output exit =>
    drawn.map Subtype.val ++ ([markC] ++ (output.map Subtype.val ++ ([markD exit] ++ [markA])))
  | .noLine drawn _ => drawn.map Subtype.val ++ [markA]

/-- The events of one turn, of which the first block would be the n-th. -/
def Turn.events (draw : Nat → BlockId) (session : SessionId) (n : Nat) : Turn → List BlockEvent
  | .noLine _ _ => [.promptStart session]
  | .line drawn output exit =>
    .commandStart session (draw n) (commandText drawn) none ::
      (bytes (.outputChunk (draw n) (bytesOf output)) ++
        [.blockEnd (draw n) (some (exit : Int)),.promptStart session])

def Turn.lines : Turn → Nat
  | .noLine _ _ => 0
  | .line _ _ _ => 1

theorem shown_singleton (hm : m.unbuffer = m) (cb : Callback) :
    m.shown draw [cb] = (m.react draw cb).unbuffer := by
  rw [BlockMachine.shown,List.foldl_cons,List.foldl_nil,hm]

theorem shown_A (hm : m.unbuffer = m) : m.shown draw [markA] =
    { m with cmdBuf := [], capturingCmd := true, currentBlock := none,
             pending := m.pending ++ [.promptStart m.session] } := by
  have hmark : markA.mark = some .A := Blocks.mark_A
  rw [shown_singleton hm,BlockMachine.react_eq]
  simp only [hmark,BlockMachine.unbuffer_atPrompt,hm]

theorem shown_C (hm : m.unbuffer = m) : m.shown draw [markC] = m.atCommand draw := by
  have hmark : markC.mark = some .C := Blocks.mark_C
  have hout : m.outBuf = [] := (congrArg BlockMachine.outBuf hm).symm
  rw [shown_singleton hm,BlockMachine.react_eq]
  simp only [hmark,BlockMachine.unbuffer_atCommand hout,hm]

theorem shown_D (hm : m.unbuffer = m) {block : BlockId} (h : m.currentBlock = some block)
    (exit : Fin 256) : m.shown draw [markD exit] =
      { m with currentBlock := none
               pending := m.pending ++ [.blockEnd block (some (exit : Int))] } := by
  rw [shown_singleton hm,BlockMachine.react_eq]
  simp only [mark_D,exitCode_D,BlockMachine.unbuffer_atEnd,hm,h]
  rfl

theorem shown_drawn (hm : m.unbuffer = m) (hnone : m.currentBlock = none)
    (hcapture : m.capturingCmd = true) (drawn : List Quiet) :
    m.shown draw (drawn.map Subtype.val) =
      { m with cmdBuf := m.cmdBuf ++ (bytesOf drawn).filter fun b => decide (b ≠ 0) } := by
  have hbuffered : m.buffered = [] := by simp [BlockMachine.buffered,hnone]
  have hlog : bytewise m.pending = m.pending := by
    have h := congrArg BlockMachine.pending hm
    rwa [BlockMachine.unbuffer,hbuffered,List.append_nil] at h
  have hout : m.outBuf = [] := (congrArg BlockMachine.outBuf hm).symm
  rw [shown_quiet,pushBytes_capture _ hnone hcapture]
  simp [BlockMachine.unbuffer,BlockMachine.buffered,hnone,hlog,hout]

theorem shown_output (hm : m.unbuffer = m) {block : BlockId} (h : m.currentBlock = some block)
    (output : List Quiet) : m.shown draw (output.map Subtype.val) =
      { m with pending := m.pending ++ bytes (.outputChunk block (bytesOf output)) } := by
  rw [shown_quiet,pushBytes_output _ h,hm]

theorem shown_turn (hm : (ready session n log).unbuffer = ready session n log) (turn : Turn) :
    (ready session n log).shown draw turn.written =
      ready session (n+turn.lines) (log ++ turn.events draw session n) := by
  have hkept : ∀ {k k' : BlockMachine} {cbs : List Callback}, k.shown draw cbs = k' →
      k'.unbuffer = k' := fun h => h ▸ unbuffer_shown _
  cases turn with
  | noLine drawn status =>
    have hdrawn := @shown_drawn draw _ hm rfl rfl drawn
    rw [Turn.written,shown_append,hdrawn,shown_A (hkept hdrawn)]
    rfl
  | line drawn output exit =>
    have hdrawn := @shown_drawn draw _ hm rfl rfl drawn
    have hC := @shown_C draw _ (hkept hdrawn)
    have houtput := @shown_output draw _ (hkept hC) _ rfl output
    have hD := @shown_D draw _ (hkept houtput) _ rfl exit
    have hA := @shown_A draw _ (hkept hD)
    rw [Turn.written,shown_append,hdrawn,shown_append,hC,shown_append,houtput,shown_append,hD,hA]
    simp [ready,Turn.events,Turn.lines,BlockMachine.atCommand,commandText]

theorem shown_turns (hm : (ready session n log).unbuffer = ready session n log)
    (turns : List Turn) :
    ((ready session n log).shown draw (turns.flatMap Turn.written)).pending =
      log ++ blocksOf draw session n turns := by
  induction turns generalizing n log with
  | nil =>
    rw [blocksOf,List.append_nil]
    exact congrArg BlockMachine.pending hm
  | cons turn turns ih =>
    have hturn := @shown_turn draw _ _ _ hm turn
    rw [List.flatMap_cons,shown_append,hturn,ih (hturn ▸ unbuffer_shown _)]
    cases turn <;> simp [Turn.events,Turn.lines,blocksOf]

/-! What the shell writes. -/

variable {sh : HookShell}

theorem sourced (again : Nat) : HookShell.source^[again+1] (.started false) =
    { HookShell.started false with integration := true, hooked := true } := by
  rw [Function.iterate_succ_apply]
  exact Function.iterate_fixed rfl again

theorem not_sourced (again : Nat) :
    HookShell.source^[again+1] (.started true) = .started true :=
  Function.iterate_fixed rfl (again+1)

theorem cycle_hooked (hhooked : sh.hooked = true) (hstarted : sh.cmdStarted = 0) (turn : Turn) :
    (sh.cycle turn).hooked = true ∧ (sh.cycle turn).cmdStarted = 0 ∧
      (sh.cycle turn).out = sh.out ++ turn.written := by
  cases turn <;> simp [HookShell.cycle,HookShell.enter,HookShell.prompt,HookShell.precmd,
    HookShell.preexec,HookShell.write,Turn.written,hhooked,hstarted]

theorem cycles_hooked (hhooked : sh.hooked = true) (hstarted : sh.cmdStarted = 0)
    (turns : List Turn) : (turns.foldl HookShell.cycle sh).out =
      sh.out ++ turns.flatMap Turn.written := by
  induction turns generalizing sh with
  | nil => exact (List.append_nil _).symm
  | cons turn turns ih =>
    obtain ⟨hh,hs,hout⟩ := cycle_hooked hhooked hstarted turn
    rw [List.foldl_cons,ih hh hs,hout,List.flatMap_cons,List.append_assoc]

theorem session_out (again : Nat) (banner : List Quiet) (turns : List Turn) :
    (HookShell.session false again banner turns).out =
      banner.map Subtype.val ++ ([markA] ++ turns.flatMap Turn.written) := by
  rw [HookShell.session,sourced,cycles_hooked rfl rfl,← List.append_assoc]
  rfl

def Turn.unmarked : Turn → List Quiet
  | .line drawn output _ => drawn ++ output
  | .noLine drawn _ => drawn

/-- A shell started in a pane's shell has the variable set, and so no hooks. -/
theorem nested_out (again : Nat) (banner : List Quiet) (turns : List Turn) :
    (HookShell.session true again banner turns).out =
      (banner ++ turns.flatMap Turn.unmarked).map Subtype.val := by
  have hcycles : ∀ sh : HookShell, sh.hooked = false → (turns.foldl HookShell.cycle sh).out =
      sh.out ++ (turns.flatMap Turn.unmarked).map Subtype.val := by
    induction turns with
    | nil => exact fun sh _ => (List.append_nil _).symm
    | cons turn turns ih =>
      intro sh hsh
      have hcycle : (sh.cycle turn).hooked = false ∧
          (sh.cycle turn).out = sh.out ++ turn.unmarked.map Subtype.val := by
        cases turn <;> simp [HookShell.cycle,HookShell.enter,HookShell.prompt,HookShell.write,
          Turn.unmarked,hsh]
      rw [List.foldl_cons,ih _ hcycle.1,hcycle.2]
      simp
  rw [HookShell.session,not_sourced,List.map_append]
  exact hcycles _ rfl

theorem lineStep_quiet (l : Line) (cb : Quiet) : lineStep l cb.1 = some (l.text cb.1.bytes) := by
  unfold lineStep
  obtain h | h := cb.2 <;> simp only [h]

theorem exec_quiet (l : Line) (written : List Quiet) :
    ∃ l', exec lineStep l (written.map Subtype.val) = some l' ∧ (l = .idle → l' = .idle) := by
  induction written generalizing l with
  | nil => exact ⟨l,rfl,id⟩
  | cons cb written ih =>
    obtain ⟨l',hl',hidle⟩ := ih (l.text cb.1.bytes)
    refine ⟨l',?_,fun hl => hidle (by rw [hl]; rfl)⟩
    rw [List.map_cons,exec_cons,lineStep_quiet,Option.bind_some,hl']

theorem exec_turn (turn : Turn) : exec lineStep .idle turn.written = some .idle := by
  cases turn with
  | noLine drawn status =>
    obtain ⟨l,hl,hidle⟩ := exec_quiet .idle drawn
    rw [Turn.written,exec_append,hl,hidle rfl]
    rfl
  | line drawn output exit =>
    obtain ⟨l,hl,hidle⟩ := exec_quiet .idle drawn
    obtain ⟨l',hl',-⟩ := exec_quiet .atStart output
    have hC : exec lineStep .idle [markC] = some .atStart := rfl
    have hend : exec lineStep l' ([markD exit] ++ [markA]) = some .idle := rfl
    rw [Turn.written,exec_append,hl,Option.bind_some,hidle rfl,exec_append,hC,Option.bind_some,
      exec_append,hl',Option.bind_some,hend]

theorem exec_turns (turns : List Turn) :
    exec lineStep .idle (turns.flatMap Turn.written) = some .idle := by
  induction turns with
  | nil => rfl
  | cons turn turns ih => rw [List.flatMap_cons,exec_append,exec_turn,Option.bind_some,ih]

/-- The first prompt makes the machine ready, whatever was written before it. -/
theorem shown_first (banner : List Quiet) :
    (BlockMachine.new session).shown draw (banner.map Subtype.val ++ [markA]) =
      ready session 0 [.promptStart session] := by
  have hbanner : (BlockMachine.new session).shown draw (banner.map Subtype.val) =
      BlockMachine.new session := by
    rw [shown_quiet,pushBytes_silent _ rfl rfl]
    rfl
  rw [shown_append,hbanner,shown_A rfl]
  rfl

def quiet (t : Text) : List Quiet := t.map fun c => ⟨drawnChar c,.inl (mark_drawnChar c)⟩

/-- A line with one line of output, then an interrupted one. -/
def falseThenInterrupt : List Turn :=
  [.line (quiet "% false\n".toList) (quiet "oops\n".toList) 1,.noLine (quiet "% ".toList) 130]

def falseThenInterruptBytes : List Bytes :=
  [encode "hi".toList ++ osc133Bytes "A" ++ encode "% fal".toList,
    encode "se\n".toList ++ osc133Bytes "C" ++ encode "oops\n".toList ++ osc133Bytes "D;1" ++
      osc133Bytes "A" ++ encode "% ".toList ++ osc133Bytes "A"]

end Pyre.Shell.Hooks
