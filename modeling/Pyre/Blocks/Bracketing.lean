import Mathlib.Data.List.Nodup
import Pyre.Blocks.Naming

/-!
Which streams of marks give well bracketed events. The machine closes a block
on D alone: A and C abandon the open block without an end.
-/

set_option autoImplicit false

namespace Pyre.Blocks
open Base

/-- The open block after an event, if the event is allowed at that point. -/
def bracketStep : Option BlockId → BlockEvent → Option (Option BlockId)
  | none, .promptStart _ => some none
  | none, .commandStart _ block _ _ => some (some block)
  | some b, .outputChunk block _ => if block = b then some (some b) else none
  | some b, .blockEnd block _ => if block = b then some none else none
  | _, _ => none

/-- Starts and ends alternate, outputs and ends name the open block, a last block
may stay open, and no block is started twice. -/
def WellBracketed (events : List BlockEvent) : Prop :=
  (exec bracketStep none events).isSome ∧ (startedBlocks events).Nodup

instance (events : List BlockEvent) : Decidable (WellBracketed events) :=
  inferInstanceAs (Decidable (_ ∧ _))

/-- Whether a block is open after a mark, if the mark leaves none behind. -/
def markStep : Bool → Mark → Option Bool
  | isOpen, .B => some isOpen
  | _, .D => some false
  | false, .A => some false
  | false, .C => some true
  | true, _ => none

/-- Of the marks that act, C is followed by D or by nothing. -/
def Closed (ms : List Mark) : Prop :=
  (ms.filter (· ≠ .B)).IsChain fun x y => x = .C → y = .D

instance (ms : List Mark) : Decidable (Closed ms) :=
  inferInstanceAs (Decidable (List.IsChain _ _))

theorem closed_cons {x : Mark} (hx : x ≠ .C) (ms : List Mark) : Closed (x :: ms) ↔ Closed ms := by
  cases x with
  | C => exact absurd rfl hx
  | _ => simp [Closed,List.isChain_cons]

theorem exec_markStep (ms : List Mark) :
    ((exec markStep false ms).isSome ↔ Closed ms) ∧
      ((exec markStep true ms).isSome ↔ Closed (.C :: ms)) := by
  induction ms with
  | nil => simp [Closed]
  | cons x ms ih =>
    obtain ⟨hf,ht⟩ := ih
    cases x with
    | A =>
      rw [closed_cons (by decide)]
      exact ⟨hf, by simp [markStep,Closed]⟩
    | B => exact ⟨by rw [closed_cons (by decide)]; exact hf, ht⟩
    | C => exact ⟨ht, by simp [markStep,Closed]⟩
    | D =>
      have hd : Closed (.C :: .D :: ms) ↔ Closed (.D :: ms) := by simp [Closed]
      rw [hd,closed_cons (by decide)]
      exact ⟨hf,hf⟩

namespace BlockMachine

variable {draw : Nat → BlockId} {m : BlockMachine}

/-- What is pending is well bracketed and leaves the current block open. -/
def Bracketed (m : BlockMachine) : Prop := exec bracketStep none m.pending = some m.currentBlock

theorem flushOutput_bracketed (h : m.Bracketed) : m.flushOutput.Bracketed := by
  unfold Bracketed at h ⊢
  cases hc : m.currentBlock with
  | none => rw [flushOutput_of_none hc,h]
  | some b =>
    rw [hc] at h
    rw [flushOutput_of_some hc]
    by_cases ho : m.outBuf = []
    · simp [ho,h,hc]
    · simp [ho,exec_append,h,hc,bracketStep]

theorem pushByte_bracketed (h : m.Bracketed) (b : UInt8) : (m.pushByte b).Bracketed := by
  cases hc : m.currentBlock with
  | some block =>
    have hb : (m.buffer b).Bracketed := h
    rw [pushByte_of_some hc]
    split
    · exact flushOutput_bracketed hb
    · exact hb
  | none => rw [pushByte_of_none hc]; exact h

theorem pushBytes_bracketed (bs : Bytes) (h : m.Bracketed) :
    (bs.foldl pushByte m).Bracketed ∧ (bs.foldl pushByte m).currentBlock = m.currentBlock := by
  induction bs generalizing m with
  | nil => exact ⟨h,rfl⟩
  | cons b bs ih =>
    have hb := ih (pushByte_bracketed h b)
    rw [pushByte_currentBlock] at hb
    exact hb

/-- One step: either the brackets stay right and `markStep` follows the open
block, or `markStep` refuses and the log is broken. -/
theorem advance_bracketed (draw : Nat → BlockId) (h : m.Bracketed) (op : Option Callback) :
    match exec markStep m.currentBlock.isSome (op.bind Callback.mark).toList with
    | none => exec bracketStep none (m.advance draw op).pending = none
    | some isOpen =>
      (m.advance draw op).Bracketed ∧ (m.advance draw op).currentBlock.isSome = isOpen := by
  cases op with
  | none => exact ⟨flushOutput_bracketed h, by rw [advance,flushOutput_currentBlock]⟩
  | some cb =>
    simp only [Option.bind_some,advance,react_eq]
    cases hk : cb.mark with
    | none =>
      have ht := pushBytes_bracketed cb.bytes h
      exact ⟨ht.1, by rw [ht.2]⟩
    | some k =>
      have hf := flushOutput_bracketed h
      unfold Bracketed at h hf
      rw [flushOutput_currentBlock] at hf
      cases k with
      | A =>
        cases hc : m.currentBlock with
        | none =>
          rw [hc] at hf
          simp [markStep,atPrompt,Bracketed,exec_append,hf,bracketStep]
        | some b =>
          rw [hc] at hf
          simp [markStep,atPrompt,exec_append,hf,bracketStep]
      | B =>
        have ht := bytes_of_mark hk
        simpa [markStep,ht,Bracketed] using h
      | C =>
        cases hc : m.currentBlock with
        | none =>
          rw [hc] at h
          simp [markStep,atCommand,Bracketed,exec_append,h,bracketStep]
        | some b =>
          rw [hc] at h
          simp [markStep,atCommand,exec_append,h,bracketStep]
      | D =>
        cases hc : m.currentBlock with
        | none =>
          rw [hc] at h
          simp [markStep,atEnd,hc,Bracketed,h]
        | some b =>
          rw [hc] at hf
          simp [markStep,atEnd,hc,Bracketed,exec_append,hf,bracketStep]

theorem broken_advanceAll (draw : Nat → BlockId) (ops : List (Option Callback))
    (h : exec bracketStep none m.pending = none) :
    exec bracketStep none (ops.foldl (advance draw) m).pending = none := by
  have hlog : m = withLog m.pending { m with pending := [] } := by simp [withLog]
  rw [hlog,advanceAll_withLog]
  simp [withLog,exec_append,h]

theorem exec_bracketStep_advanceAll (draw : Nat → BlockId) (ops : List (Option Callback))
    (h : m.Bracketed) :
    (exec bracketStep none (ops.foldl (advance draw) m).pending).isSome =
      (exec markStep m.currentBlock.isSome (marks ops.reduceOption)).isSome := by
  induction ops generalizing m with
  | nil => unfold Bracketed at h; simp [marks,h]
  | cons op ops ih =>
    have hstep := advance_bracketed draw h op
    have hmarks : marks (op :: ops).reduceOption =
        (op.bind Callback.mark).toList ++ marks ops.reduceOption := by
      cases op with
      | none => simp [marks]
      | some cb => cases hk : cb.mark <;> simp [marks,hk]
    rw [List.foldl_cons,hmarks,exec_append]
    cases he : exec markStep m.currentBlock.isSome (op.bind Callback.mark).toList with
    | none =>
      rw [he] at hstep
      rw [broken_advanceAll draw ops hstep]
      rfl
    | some isOpen =>
      rw [he] at hstep
      rw [ih hstep.1,hstep.2]
      rfl

end BlockMachine

variable {σ : Type} (vte : Vte σ) (draw : Nat → BlockId)

/-- The events are well bracketed exactly when every C mark is followed, as far
as there is a further mark that acts, by a D mark. -/
theorem feedAll_wellBracketed_iff (hdraw : Function.Injective draw) (session : SessionId)
    (chunks : List Bytes) :
    WellBracketed ((BlockParser.new vte session).feedAll vte draw chunks).2 ↔
      Closed (marks (vte.run vte.start chunks.flatten).2) := by
  set ops := steps (vte.runPieces vte.start chunks) with hops
  have hbr := BlockMachine.exec_bracketStep_advanceAll draw ops (m := .new session) (by rfl)
  have hnamed := (BlockMachine.named_new draw session).advanceAll ops
  have hnodup : (startedBlocks
      (ops.foldl (BlockMachine.advance draw) (.new session)).pending).Nodup := by
    rw [(startedBlocks_of_named hnamed.pending).2]
    exact List.Nodup.map hdraw List.nodup_range'
  rw [BlockParser.feedAll_steps,← BlockParser.callbacks_of_steps,WellBracketed,hbr,
    and_iff_left hnodup]
  exact (exec_markStep _).1

theorem wellBracketed_two_prompts :
    WellBracketed ((BlockParser.new plainVte ⟨0⟩).feedAll plainVte BlockId.mk
      [osc133Bytes "A",osc133Bytes "C",osc133Bytes "D;0",osc133Bytes "A"]).2 :=
  (feedAll_wellBracketed_iff plainVte BlockId.mk (fun _ _ h => BlockId.mk.inj h) ⟨0⟩ _).mpr
    (by decide)

/-- A second C starts another block and never ends the first. -/
theorem not_wellBracketed_two_starts :
    ¬ WellBracketed ((BlockParser.new plainVte ⟨0⟩).feedAll plainVte BlockId.mk
      [osc133Bytes "C" ++ osc133Bytes "C" ++ osc133Bytes "D;0"]).2 := by
  decide

end Pyre.Blocks
