import Mathlib.Data.List.Range
import Pyre.Base.Run
import Pyre.Blocks.Log

/-!
The block ids in the events of a parser: blocks are started in the order in which
their ids are drawn, and every other event names a block that was started before.
-/

set_option autoImplicit false

namespace Pyre.Blocks
open Base

/-- The blocks among the first `n` drawn. -/
def Drawn (draw : Nat → BlockId) (n : Nat) (b : BlockId) : Prop := ∃ i < n, draw i = b

instance (draw : Nat → BlockId) (n : Nat) : DecidablePred (Drawn draw n) :=
  fun _ => inferInstanceAs (Decidable (∃ _, _ ∧ _))

theorem Drawn.mono {draw : Nat → BlockId} {n k : Nat} {b : BlockId} (h : Drawn draw n b)
    (hk : n ≤ k) : Drawn draw k b := by
  obtain ⟨i,hi,hb⟩ := h
  exact ⟨i,by omega,hb⟩

theorem not_drawn_next {draw : Nat → BlockId} (hdraw : Function.Injective draw) (n : Nat) :
    ¬ Drawn draw n (draw n) := by
  rintro ⟨i,hi,hb⟩
  have hn := hdraw hb
  omega

def nameStep (draw : Nat → BlockId) (n : Nat) : BlockEvent → Option Nat
  | .promptStart _ => some n
  | .commandStart _ block _ _ => if block = draw n then some (n+1) else none
  | .outputChunk block _ => if Drawn draw n block then some n else none
  | .blockEnd block _ => if Drawn draw n block then some n else none

theorem startedBlocks_of_named {draw : Nat → BlockId} {events : List BlockEvent} {n k : Nat}
    (h : exec (nameStep draw) n events = some k) :
    n ≤ k ∧ startedBlocks events = (List.range' n (k-n)).map draw := by
  induction events generalizing n with
  | nil =>
    rw [exec_nil,Option.some.injEq] at h
    subst h
    simp [startedBlocks]
  | cons e events ih =>
    rw [exec_cons,Option.bind_eq_some_iff] at h
    obtain ⟨j,hj,h⟩ := h
    have hrest := ih h
    cases e with
    | promptStart session =>
      obtain rfl : n = j := by simpa [nameStep] using hj
      exact hrest
    | commandStart session block command cwd =>
      by_cases hb : block = draw n
      · obtain rfl : n+1 = j := by simpa [nameStep,hb] using hj
        have hlen : k - n = (k - (n+1)) + 1 := by omega
        refine ⟨by omega,?_⟩
        rw [hlen,List.range'_succ,List.map_cons,← hrest.2,← hb]
        rfl
      · simp [nameStep,hb] at hj
    | outputChunk block data =>
      by_cases hb : Drawn draw n block
      · obtain rfl : n = j := by simpa [nameStep,hb] using hj
        exact hrest
      · simp [nameStep,hb] at hj
    | blockEnd block exit =>
      by_cases hb : Drawn draw n block
      · obtain rfl : n = j := by simpa [nameStep,hb] using hj
        exact hrest
      · simp [nameStep,hb] at hj

namespace BlockMachine

variable {draw : Nat → BlockId} {n : Nat} {m : BlockMachine}

/-- What is pending continues the naming from the `n`-th draw to the last one. -/
structure Named (draw : Nat → BlockId) (n : Nat) (m : BlockMachine) : Prop where
  pending : exec (nameStep draw) n m.pending = some m.drawn
  current : ∀ b, m.currentBlock = some b → Drawn draw m.drawn b

theorem Named.flushOutput (h : m.Named draw n) : m.flushOutput.Named draw n := by
  cases hc : m.currentBlock with
  | none => rw [flushOutput_of_none hc]; exact h
  | some b =>
    have hb := h.current b hc
    rw [flushOutput_of_some hc]
    refine ⟨?_,h.current⟩
    by_cases ho : m.outBuf = []
    · simp [ho,h.pending]
    · simp [ho,exec_append,h.pending,nameStep,hb]

theorem Named.pushByte (h : m.Named draw n) (b : UInt8) : (m.pushByte b).Named draw n := by
  cases hc : m.currentBlock with
  | some block =>
    have hb : (m.buffer b).Named draw n := ⟨h.pending,h.current⟩
    rw [pushByte_of_some hc]
    split
    · exact hb.flushOutput
    · exact hb
  | none => rw [pushByte_of_none hc]; exact ⟨h.pending,h.current⟩

theorem Named.pushBytes (h : m.Named draw n) (bs : Bytes) :
    (bs.foldl BlockMachine.pushByte m).Named draw n := by
  induction bs generalizing m with
  | nil => exact h
  | cons b bs ih => exact ih (h.pushByte b)

theorem Named.advance (h : m.Named draw n) (op : Option Callback) :
    (m.advance draw op).Named draw n := by
  have hf := h.flushOutput
  cases op with
  | none => exact hf
  | some cb =>
    simp only [BlockMachine.advance,react_eq]
    split
    · exact ⟨by simp [atPrompt,exec_append,hf.pending,nameStep],by simp [atPrompt]⟩
    · refine ⟨by simp [atCommand,exec_append,h.pending,nameStep],?_⟩
      intro b hb
      obtain rfl : draw m.drawn = b := by simpa [atCommand] using hb
      exact ⟨m.drawn,Nat.lt_succ_self _,rfl⟩
    · cases hc : m.currentBlock with
      | none => simpa [atEnd,hc] using h
      | some b =>
        have hb := hf.current b (by rw [flushOutput_currentBlock,hc])
        exact ⟨by simp [atEnd,hc,exec_append,hf.pending,nameStep,hb],by simp [atEnd,hc]⟩
    · exact h.pushBytes _

theorem Named.advanceAll (h : m.Named draw n) (ops : List (Option Callback)) :
    (ops.foldl (BlockMachine.advance draw) m).Named draw n := by
  induction ops generalizing m with
  | nil => exact h
  | cons op ops ih => exact ih (h.advance op)

theorem named_new (draw : Nat → BlockId) (session : SessionId) : (new session).Named draw 0 :=
  ⟨rfl,by simp [new]⟩

end BlockMachine

namespace BlockParser
open BlockMachine

variable {σ : Type} (vte : Vte σ) (draw : Nat → BlockId)

/-- A parser between two calls: nothing is pending, and the open block has been drawn. -/
structure Ready (p : BlockParser σ) : Prop where
  pending : p.machine.pending = []
  current : ∀ b, p.machine.currentBlock = some b → Drawn draw p.machine.drawn b

theorem ready_new (session : SessionId) : Ready draw (new vte session) :=
  ⟨rfl,by simp [new,BlockMachine.new]⟩

theorem Ready.feed {p : BlockParser σ} (h : Ready draw p) (bytes : Bytes) :
    Ready draw (p.feed vte draw bytes).1 ∧
      exec (nameStep draw) p.machine.drawn (p.feed vte draw bytes).2 =
        some (p.feed vte draw bytes).1.machine.drawn := by
  have hstart : p.machine.Named draw p.machine.drawn :=
    ⟨by rw [h.pending]; rfl,h.current⟩
  have hnamed := hstart.advanceAll ((vte.run p.parser bytes).2.map some ++ [none])
  rw [List.foldl_append,List.foldl_map] at hnamed
  exact ⟨⟨rfl,hnamed.current⟩,hnamed.pending⟩

end BlockParser

end Pyre.Blocks
