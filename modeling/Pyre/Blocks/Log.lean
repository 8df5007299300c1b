import Mathlib.Data.List.ReduceOption
import Pyre.Blocks.Machine

/-!
The block machine seen as a log. Each callback is either a mark of the protocol
or bytes to take in; feeding a cut stream is running the machine over the
callbacks with a flush after each piece, and the events handed out are its log.
-/

set_option autoImplicit false

namespace Pyre.Blocks
open Base

inductive Mark where
  | A | B | C | D
  deriving DecidableEq, Repr

def Mark.ofByte : Option UInt8 → Option Mark
  | some b =>
    if b = 0x41 then some .A else if b = 0x42 then some .B
    else if b = 0x43 then some .C else if b = 0x44 then some .D else none
  | none => none

def Callback.mark : Callback → Option Mark
  | .oscDispatch params _ =>
    if params.head? ≠ some BlockMachine.osc133 then none
    else Mark.ofByte (params.getD 1 []).head?
  | _ => none

def Callback.exitCode : Callback → Option Int
  | .oscDispatch params _ => BlockMachine.exitCode params
  | _ => none

/-- The bytes a callback puts into the stream of text. -/
def Callback.bytes : Callback → Bytes
  | .print c => String.utf8EncodeChar c
  | .execute byte => [byte]
  | .oscDispatch _ _ => []

def startedBlocks (events : List BlockEvent) : List BlockId :=
  events.filterMap fun
    | .commandStart _ block _ _ => some block
    | _ => none

def marks (callbacks : List Callback) : List Mark := callbacks.filterMap Callback.mark

namespace BlockMachine

def atPrompt (m : BlockMachine) : BlockMachine :=
  { m.flushOutput with
    cmdBuf := []
    capturingCmd := true
    currentBlock := none
    pending := m.flushOutput.pending ++ [.promptStart m.flushOutput.session] }

def atCommand (draw : Nat → BlockId) (m : BlockMachine) : BlockMachine :=
  { m with
    cmdBuf := []
    capturingCmd := false
    currentBlock := some (draw m.drawn)
    pending := m.pending ++
      [.commandStart m.session (draw m.drawn) (trimEnd (fromUtf8Lossy m.cmdBuf)) none]
    drawn := m.drawn+1 }

def atEnd (exit : Option Int) (m : BlockMachine) : BlockMachine :=
  match m.currentBlock with
  | some block =>
    { m.flushOutput with
      currentBlock := none
      pending := m.flushOutput.pending ++ [.blockEnd block exit] }
  | none => m

theorem flushOutput_of_none {m : BlockMachine} (h : m.currentBlock = none) :
    m.flushOutput = m := by simp [flushOutput,h]

theorem flushOutput_of_some {m : BlockMachine} {b : BlockId} (h : m.currentBlock = some b) :
    m.flushOutput = { m with
      outBuf := []
      pending := m.pending ++ if m.outBuf = [] then [] else [.outputChunk b m.outBuf] } := by
  obtain ⟨s,c,cb,cc,ob,pe,dr⟩ := m
  obtain rfl : c = some b := h
  by_cases ho : ob = [] <;> simp [flushOutput,ho]

@[simp] theorem flushOutput_currentBlock (m : BlockMachine) :
    m.flushOutput.currentBlock = m.currentBlock := by
  cases h : m.currentBlock with
  | none => rw [flushOutput_of_none h,h]
  | some b => rw [flushOutput_of_some h]; exact h

def buffer (m : BlockMachine) (b : UInt8) : BlockMachine := { m with outBuf := m.outBuf ++ [b] }

theorem pushByte_of_some {m : BlockMachine} {block : BlockId} (h : m.currentBlock = some block)
    (b : UInt8) : m.pushByte b =
      if outputFlushBytes ≤ m.outBuf.length + 1 ∨ b = 0x0A then (m.buffer b).flushOutput
      else m.buffer b := by
  simp [pushByte,buffer,h]

theorem pushByte_of_none {m : BlockMachine} (h : m.currentBlock = none) (b : UInt8) :
    m.pushByte b =
      { m with cmdBuf := m.cmdBuf ++ if m.capturingCmd ∧ b ≠ 0 then [b] else [] } := by
  obtain ⟨s,c,cb,cc,ob,pe,dr⟩ := m
  obtain rfl : c = none := h
  by_cases hb : cc = true ∧ b ≠ 0
  · simp [pushByte,hb]
  · simp [pushByte,hb]

@[simp] theorem pushByte_currentBlock (m : BlockMachine) (b : UInt8) :
    (m.pushByte b).currentBlock = m.currentBlock := by
  cases h : m.currentBlock with
  | some block =>
    rw [pushByte_of_some h]
    split
    · simpa [buffer] using h
    · exact h
  | none => rw [pushByte_of_none h]; exact h

/-- What a callback does: one of the three acting marks, or text, which may be empty. -/
theorem react_eq (draw : Nat → BlockId) (m : BlockMachine) (cb : Callback) :
    m.react draw cb =
      match cb.mark with
      | some .A => m.atPrompt
      | some .C => m.atCommand draw
      | some .D => m.atEnd cb.exitCode
      | _ => cb.bytes.foldl pushByte m := by
  cases cb with
  | print c => rfl
  | execute b => rfl
  | oscDispatch params bell =>
    simp only [react,oscDispatch,Callback.mark,Callback.exitCode,Callback.bytes]
    by_cases h0 : params.head? = some osc133
    · cases hs : (params.getD 1 []).head? with
      | none => simp [h0,Mark.ofByte]
      | some b =>
        by_cases hA : b = 0x41
        · simp [h0,Mark.ofByte,hA,atPrompt]
        by_cases hB : b = 0x42
        · simp [h0,Mark.ofByte,hB]
        by_cases hC : b = 0x43
        · simp [h0,Mark.ofByte,hC,atCommand]
        by_cases hD : b = 0x44
        · cases hb : m.currentBlock with
          | none => simp [h0,Mark.ofByte,hD,atEnd,hb,flushOutput_of_none hb]
          | some b => simp [h0,Mark.ofByte,hD,atEnd,hb]
        · simp [h0,Mark.ofByte,hA,hB,hC,hD]
    · simp [h0]

theorem bytes_of_mark {cb : Callback} {k : Mark} (h : cb.mark = some k) : cb.bytes = [] := by
  cases cb with
  | print c => cases h
  | execute b => cases h
  | oscDispatch params bell => rfl

/-- One step of a cut run: a callback, or the flush at the end of a piece. -/
def advance (draw : Nat → BlockId) (m : BlockMachine) : Option Callback → BlockMachine
  | some cb => m.react draw cb
  | none => m.flushOutput

def withLog (log : List BlockEvent) (m : BlockMachine) : BlockMachine :=
  { m with pending := log ++ m.pending }

theorem flushOutput_withLog (log : List BlockEvent) (m : BlockMachine) :
    (m.withLog log).flushOutput = m.flushOutput.withLog log := by
  cases h : m.currentBlock with
  | none => rw [flushOutput_of_none h,flushOutput_of_none (by simpa [withLog] using h)]
  | some b =>
    rw [flushOutput_of_some h,flushOutput_of_some (b := b) (by simpa [withLog] using h)]
    by_cases ho : m.outBuf = [] <;> simp [withLog,List.append_assoc,ho]

theorem pushByte_withLog (log : List BlockEvent) (m : BlockMachine) (b : UInt8) :
    (m.withLog log).pushByte b = (m.pushByte b).withLog log := by
  cases hc : m.currentBlock with
  | some block =>
    rw [pushByte_of_some hc,pushByte_of_some (m := m.withLog log) hc]
    have hf := flushOutput_withLog log (m.buffer b)
    by_cases hb : outputFlushBytes ≤ m.outBuf.length + 1 ∨ b = 0x0A
    · simpa [withLog,buffer,hb] using hf
    · simp [withLog,buffer,hb]
  | none =>
    rw [pushByte_of_none hc,pushByte_of_none (m := m.withLog log) hc]
    rfl

theorem pushBytes_withLog (log : List BlockEvent) (bs : Bytes) (m : BlockMachine) :
    bs.foldl pushByte (m.withLog log) = (bs.foldl pushByte m).withLog log := by
  induction bs generalizing m with
  | nil => rfl
  | cons b bs ih => simp only [List.foldl_cons,pushByte_withLog,ih]

theorem atPrompt_withLog (log : List BlockEvent) (m : BlockMachine) :
    (m.withLog log).atPrompt = m.atPrompt.withLog log := by
  simp only [atPrompt,flushOutput_withLog]
  simp [withLog,List.append_assoc]

theorem atEnd_withLog (exit : Option Int) (log : List BlockEvent) (m : BlockMachine) :
    (m.withLog log).atEnd exit = (m.atEnd exit).withLog log := by
  simp only [atEnd,flushOutput_withLog]
  cases h : m.currentBlock <;> simp [withLog,h]

theorem react_withLog (draw : Nat → BlockId) (log : List BlockEvent) (m : BlockMachine)
    (cb : Callback) : (m.withLog log).react draw cb = (m.react draw cb).withLog log := by
  rw [react_eq,react_eq]
  split
  · exact atPrompt_withLog log m
  · simp [atCommand,withLog,List.append_assoc]
  · exact atEnd_withLog _ log m
  · exact pushBytes_withLog log _ m

theorem advance_withLog (draw : Nat → BlockId) (log : List BlockEvent) (m : BlockMachine)
    (op : Option Callback) : (m.withLog log).advance draw op = (m.advance draw op).withLog log := by
  cases op with
  | none => exact flushOutput_withLog log m
  | some cb => exact react_withLog draw log m cb

theorem advanceAll_withLog (draw : Nat → BlockId) (log : List BlockEvent)
    (ops : List (Option Callback)) (m : BlockMachine) :
    ops.foldl (advance draw) (m.withLog log) = (ops.foldl (advance draw) m).withLog log := by
  induction ops generalizing m with
  | nil => rfl
  | cons op ops ih => simp only [List.foldl_cons,advance_withLog,ih]

theorem pending_prefix (draw : Nat → BlockId) (ops : List (Option Callback)) (m : BlockMachine) :
    m.pending <+: (ops.foldl (advance draw) m).pending := by
  have hlog : m = withLog m.pending { m with pending := [] } := by simp [withLog]
  rw [hlog,advanceAll_withLog]
  simp [withLog]

end BlockMachine

/-- The steps of a run fed piece by piece: the callbacks of each piece, then its flush. -/
def steps (pieces : List (List Callback)) : List (Option Callback) :=
  pieces.flatMap fun cbs => cbs.map some ++ [none]

theorem reduceOption_steps (pieces : List (List Callback)) :
    (steps pieces).reduceOption = pieces.flatten := by
  induction pieces with
  | nil => rfl
  | cons cbs pieces ih =>
    have hs : steps (cbs :: pieces) = cbs.map some ++ none :: steps pieces := by simp [steps]
    rw [hs,List.reduceOption_append,List.reduceOption_cons_of_none,ih]
    simp [List.reduceOption]

namespace BlockParser
open BlockMachine

variable {σ : Type} (vte : Vte σ) (draw : Nat → BlockId)

/-- The log view: with nothing pending at first, the events of a cut run are what
the machine holds after the callbacks of the pieces with their flushes. -/
theorem feedAll_log (p : BlockParser σ) (hp : p.machine.pending = []) (chunks : List Bytes) :
    (p.feedAll vte draw chunks).2 =
      ((steps (vte.runPieces p.parser chunks)).foldl (advance draw) p.machine).pending := by
  induction chunks generalizing p with
  | nil => simpa [feedAll,steps,Transducer.runPieces] using hp
  | cons bytes chunks ih =>
    set cbs := (vte.run p.parser bytes).2 with hcbs
    set m := (cbs.foldl (react draw) p.machine).flushOutput with hm
    have hfeed : p.feed vte draw bytes =
        (⟨(vte.run p.parser bytes).1,{ m with pending := [] }⟩, m.pending) := rfl
    have hlog : m = BlockMachine.withLog m.pending { m with pending := [] } := by
      simp [withLog]
    have hsteps : steps (vte.runPieces p.parser (bytes :: chunks)) =
        (cbs.map some ++ [none]) ++
          steps (vte.runPieces (vte.run p.parser bytes).1 chunks) := by
      simp [steps,Transducer.runPieces,hcbs]
    have hfirst : (cbs.map some ++ [none]).foldl (advance draw) p.machine = m := by
      rw [List.foldl_append,List.foldl_map]
      rfl
    have hrest := ih ⟨(vte.run p.parser bytes).1,{ m with pending := [] }⟩ rfl
    rw [hsteps,List.foldl_append,hfirst,hlog,advanceAll_withLog]
    simp only [feedAll,hfeed,withLog,hrest]

theorem feedAll_steps (session : SessionId) (chunks : List Bytes) :
    ((new vte session).feedAll vte draw chunks).2 =
      ((steps (vte.runPieces vte.start chunks)).foldl (advance draw) (.new session)).pending :=
  feedAll_log vte draw (new vte session) rfl chunks

theorem callbacks_of_steps (chunks : List Bytes) :
    (steps (vte.runPieces vte.start chunks)).reduceOption = (vte.run vte.start chunks.flatten).2 := by
  rw [reduceOption_steps,Transducer.runPieces_flatten]

end BlockParser

end Pyre.Blocks
