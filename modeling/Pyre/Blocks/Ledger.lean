import Pyre.Blocks.Bracketing

/-!
The ledger of a parser's blocks: how many it has started, which of them is open, and
which have not had their end. It is kept by the marks alone, and what the parser hands
out can be checked against it event by event.
-/

set_option autoImplicit false

namespace Pyre.Blocks
open Base

/-- Blocks go by the number of their draw. -/
structure Ledger where
  current : Option Nat
  drawn : Nat
  unfinished : List Nat
  deriving DecidableEq, Repr

namespace Ledger

def start : Ledger := ⟨none,0,[]⟩

def strike (l : Ledger) (i : Nat) : Ledger :=
  { l with unfinished := l.unfinished.filter (· ≠ i) }

def leave (l : Ledger) : Ledger := { l with current := none }

/-- A block that is left without its end stays unfinished. -/
def mark (l : Ledger) : Mark → Ledger
  | .A => l.leave
  | .B => l
  | .C => ⟨some l.drawn,l.drawn+1,l.unfinished ++ [l.drawn]⟩
  | .D => l.current.elim l fun i => (l.strike i).leave

/-- The pane is closed: its blocks are finished for it. -/
def settle (l : Ledger) : Ledger := { l with unfinished := [] }

/-- The ledger after an event, if the event names the block that it should. -/
def event (draw : Nat → BlockId) (l : Ledger) : BlockEvent → Option Ledger
  | .promptStart _ => some (l.mark .A)
  | .commandStart _ block _ _ => if block = draw l.drawn then some (l.mark .C) else none
  | .outputChunk block _ => if l.current.map draw = some block then some l else none
  | .blockEnd block _ => if l.current.map draw = some block then some (l.mark .D) else none

/-- The blocks that the ledger names have been drawn. -/
structure Sound (l : Ledger) : Prop where
  current : ∀ i, l.current = some i → i < l.drawn
  unfinished : ∀ i ∈ l.unfinished, i < l.drawn

/-- No block is open but one that is unfinished. -/
def Open (l : Ledger) : Prop := ∀ i, l.current = some i → i ∈ l.unfinished

variable {l : Ledger} {draw : Nat → BlockId}

theorem sound_start : start.Sound := ⟨by simp [start],by simp [start]⟩

theorem mem_strike {i j : Nat} : j ∈ (l.strike i).unfinished ↔ j ∈ l.unfinished ∧ j ≠ i := by
  simp [strike]

theorem mark_end_none (h : l.current = none) : l.mark .D = l := by simp [mark,h]

theorem mark_end_some {i : Nat} (h : l.current = some i) : l.mark .D = (l.strike i).leave := by
  simp [mark,h]

/-- An event that the ledger allows is a mark of it, or output. -/
theorem event_cases {l' : Ledger} {e : BlockEvent} (he : l.event draw e = some l') :
    (∃ k, l' = l.mark k) ∨ l' = l := by
  cases e with
  | promptStart session => exact .inl ⟨.A,(Option.some.inj he).symm⟩
  | commandStart session block command cwd =>
    rw [event,Option.ite_none_right_eq_some,Option.some.injEq] at he
    exact .inl ⟨.C,he.2.symm⟩
  | outputChunk block data =>
    rw [event,Option.ite_none_right_eq_some,Option.some.injEq] at he
    exact .inr he.2.symm
  | blockEnd block exit =>
    rw [event,Option.ite_none_right_eq_some,Option.some.injEq] at he
    exact .inl ⟨.D,he.2.symm⟩

theorem Sound.mark (h : l.Sound) (k : Mark) : (l.mark k).Sound := by
  cases k with
  | A => exact ⟨by simp [Ledger.mark,leave],h.unfinished⟩
  | B => exact h
  | C =>
    refine ⟨fun i hi => ?_,fun i hi => ?_⟩
    · obtain rfl := Option.some.inj hi
      exact Nat.lt_succ_self _
    · rcases List.mem_append.mp hi with hi | hi
      · exact Nat.lt_succ_of_lt (h.unfinished i hi)
      · rw [List.mem_singleton.mp hi]
        exact Nat.lt_succ_self _
  | D =>
    cases hc : l.current with
    | none => exact (mark_end_none hc).symm ▸ h
    | some i =>
      rw [mark_end_some hc]
      exact ⟨by simp [leave],fun j hj => h.unfinished j (mem_strike.mp hj).1⟩

theorem Sound.marks (h : l.Sound) (ms : List Mark) : (ms.foldl Ledger.mark l).Sound := by
  induction ms generalizing l with
  | nil => exact h
  | cons k ms ih => exact ih (h.mark k)

theorem Sound.settle (h : l.Sound) : l.settle.Sound := ⟨h.current,by simp [Ledger.settle]⟩

theorem Sound.event {l' : Ledger} {e : BlockEvent} (h : l.Sound) (he : l.event draw e = some l') :
    l'.Sound := by
  rcases event_cases he with ⟨k,rfl⟩ | rfl
  · exact h.mark k
  · exact h

theorem Open.mark (h : l.Open) (k : Mark) : (l.mark k).Open := by
  cases k with
  | A => simp [Open,Ledger.mark,leave]
  | B => exact h
  | C => simp [Open,Ledger.mark]
  | D =>
    cases hc : l.current with
    | none => exact (mark_end_none hc).symm ▸ h
    | some i =>
      rw [mark_end_some hc]
      simp [Open,leave]

theorem Open.marks (h : l.Open) (ms : List Mark) : (ms.foldl Ledger.mark l).Open := by
  induction ms generalizing l with
  | nil => exact h
  | cons k ms ih => exact ih (h.mark k)

theorem Open.event {l' : Ledger} {e : BlockEvent} (h : l.Open) (he : l.event draw e = some l') :
    l'.Open := by
  rcases event_cases he with ⟨k,rfl⟩ | rfl
  · exact h.mark k
  · exact h

/-- All is finished in the end just if each C is followed by D, before another A or C. -/
theorem marks_unfinished_iff (ms : List Mark) (hopen : l.Open) (hsound : l.Sound) :
    (ms.foldl Ledger.mark l).unfinished = [] ↔
      (∀ i ∈ l.unfinished, l.current = some i) ∧
        exec markStep l.current.isSome ms = some false := by
  induction ms generalizing l with
  | nil =>
    cases hc : l.current with
    | none => simp [List.eq_nil_iff_forall_not_mem]
    | some i => simp [List.ne_nil_of_mem (hopen i hc)]
  | cons k ms ih =>
    rw [List.foldl_cons,ih (hopen.mark k) (hsound.mark k)]
    cases k with
    | A =>
      cases hc : l.current with
      | none => simp [mark,leave,markStep]
      | some i =>
        have hi := hopen i hc
        simp only [mark,leave,reduceCtorEq,imp_false,exec_cons,markStep,Option.isSome_some,
          Option.bind_none,and_false,iff_false,not_and]
        exact fun hall => absurd hi (hall i)
    | B => cases hc : l.current <;> simp [mark,hc,markStep]
    | C =>
      have hlast : (∀ i ∈ (l.mark .C).unfinished, (l.mark .C).current = some i) ↔
          l.unfinished = [] := by
        simp only [mark,List.mem_append,List.mem_singleton,Option.some.injEq]
        constructor
        · intro hall
          refine List.eq_nil_iff_forall_not_mem.mpr fun i hi => ?_
          have hlt := hsound.unfinished i hi
          have heq := hall i (Or.inl hi)
          omega
        · rintro hnil i (hi | rfl)
          · simp [hnil] at hi
          · rfl
      rw [hlast]
      cases hc : l.current with
      | none => simp [mark,markStep,List.eq_nil_iff_forall_not_mem]
      | some i => simp [markStep,List.ne_nil_of_mem (hopen i hc)]
    | D =>
      cases hc : l.current with
      | none => simp [mark_end_none hc,hc,markStep]
      | some i =>
        have hrest : (∀ j ∈ (l.strike i).leave.unfinished, (l.strike i).leave.current = some j) ↔
            ∀ j ∈ l.unfinished, i = j := by
          simp only [leave,reduceCtorEq,imp_false]
          refine forall_congr' fun j => ?_
          rw [mem_strike,not_and_not_right,eq_comm]
        rw [mark_end_some hc,hrest]
        simp [leave,markStep]

/-- What all the marks of a stream leave unfinished. -/
theorem start_unfinished_iff (ms : List Mark) :
    (ms.foldl Ledger.mark start).unfinished = [] ↔ exec markStep false ms = some false := by
  rw [marks_unfinished_iff ms (by simp [Open,start]) sound_start]
  simp [start]

/-- The same blocks, of which more have been finished. -/
structure Within (l l' : Ledger) : Prop where
  current : l.current = l'.current
  drawn : l.drawn = l'.drawn
  unfinished : ∀ i ∈ l.unfinished, i ∈ l'.unfinished

theorem Within.refl (l : Ledger) : l.Within l := ⟨rfl,rfl,fun _ hi => hi⟩

theorem Within.settle {l' : Ledger} (h : l.Within l') : l.settle.Within l' :=
  ⟨h.current,h.drawn,by simp [Ledger.settle]⟩

theorem Within.mark {l' : Ledger} (h : l.Within l') (k : Mark) :
    (l.mark k).Within (l'.mark k) := by
  cases k with
  | A => exact ⟨rfl,h.drawn,h.unfinished⟩
  | B => exact h
  | C =>
    have hlast : l.drawn = l'.drawn := h.drawn
    refine ⟨congrArg some hlast,congrArg (· + 1) hlast,fun i hi => ?_⟩
    rcases List.mem_append.mp hi with hi | hi
    · exact List.mem_append_left _ (h.unfinished i hi)
    · exact List.mem_append_right _ (hlast ▸ hi)
  | D =>
    cases hc : l.current with
    | none =>
      have hc' : l'.current = none := h.current.symm.trans hc
      rwa [mark_end_none hc,mark_end_none hc']
    | some i =>
      have hc' : l'.current = some i := h.current.symm.trans hc
      rw [mark_end_some hc,mark_end_some hc']
      refine ⟨rfl,h.drawn,fun j hj => ?_⟩
      obtain ⟨hmem,hne⟩ := mem_strike.mp hj
      exact mem_strike.mpr ⟨h.unfinished j hmem,hne⟩

theorem Within.marks {l' : Ledger} (h : l.Within l') (ms : List Mark) :
    (ms.foldl Ledger.mark l).Within (ms.foldl Ledger.mark l') := by
  induction ms generalizing l l' with
  | nil => exact h
  | cons k ms ih => exact ih (h.mark k)

end Ledger

/-- An event that starts or ends a block. -/
def bounds : BlockEvent → Bool
  | .commandStart _ _ _ _ | .blockEnd _ _ => true
  | .promptStart _ | .outputChunk _ _ => false

/-- Without one, no block is drawn and none is finished. -/
theorem Ledger.drawn_of_silent {draw : Nat → BlockId} {l l' : Ledger} {es : List BlockEvent}
    (h : exec (Ledger.event draw) l es = some l') (hes : ∀ e ∈ es, bounds e = false) :
    l'.drawn = l.drawn := by
  induction es generalizing l with
  | nil => exact congrArg Ledger.drawn (Option.some.inj h).symm
  | cons e es ih =>
    obtain ⟨l₁,he,h⟩ := Option.bind_eq_some_iff.mp h
    have hrest := ih h fun e he => hes e (List.mem_cons_of_mem _ he)
    have hsilent := hes e List.mem_cons_self
    cases e with
    | promptStart session =>
      obtain rfl := Option.some.inj he
      exact hrest
    | commandStart session block command cwd => cases hsilent
    | outputChunk block data =>
      rw [Ledger.event,Option.ite_none_right_eq_some,Option.some.injEq] at he
      rw [hrest,← he.2]
    | blockEnd block exit => cases hsilent

/-! The machine keeps its events in step with the ledger. -/

namespace BlockMachine

variable {draw : Nat → BlockId} {l₀ l : Ledger} {m : BlockMachine}

/-- What is pending takes the ledger from `l₀` to `l`, where the machine is. -/
structure Follows (draw : Nat → BlockId) (l₀ l : Ledger) (m : BlockMachine) : Prop where
  pending : exec (Ledger.event draw) l₀ m.pending = some l
  current : m.currentBlock = l.current.map draw
  drawn : m.drawn = l.drawn

theorem Follows.flushOutput (h : m.Follows draw l₀ l) : m.flushOutput.Follows draw l₀ l := by
  cases hc : m.currentBlock with
  | none => rw [flushOutput_of_none hc]; exact h
  | some b =>
    have hb : l.event draw (.outputChunk b m.outBuf) = some l := by
      rw [Ledger.event,if_pos (h.current ▸ hc)]
    rw [flushOutput_of_some hc]
    refine ⟨?_,h.current,h.drawn⟩
    by_cases ho : m.outBuf = []
    · simp [ho,h.pending]
    · simp [ho,exec_append,h.pending,hb]

theorem Follows.pushByte (h : m.Follows draw l₀ l) (b : UInt8) :
    (m.pushByte b).Follows draw l₀ l := by
  cases hc : m.currentBlock with
  | some block =>
    have hb : (m.buffer b).Follows draw l₀ l := ⟨h.pending,h.current,h.drawn⟩
    rw [pushByte_of_some hc]
    split
    · exact hb.flushOutput
    · exact hb
  | none => rw [pushByte_of_none hc]; exact ⟨h.pending,h.current,h.drawn⟩

theorem Follows.pushBytes (h : m.Follows draw l₀ l) (bs : Bytes) :
    (bs.foldl BlockMachine.pushByte m).Follows draw l₀ l := by
  induction bs generalizing m with
  | nil => exact h
  | cons b bs ih => exact ih (h.pushByte b)

theorem Follows.react (h : m.Follows draw l₀ l) (cb : Callback) :
    (m.react draw cb).Follows draw l₀ (cb.mark.toList.foldl Ledger.mark l) := by
  have hf := h.flushOutput
  rw [react_eq]
  cases hk : cb.mark with
  | none => exact h.pushBytes cb.bytes
  | some k =>
    cases k with
    | A =>
      refine ⟨?_,rfl,hf.drawn⟩
      simp [atPrompt,exec_append,hf.pending,Ledger.event]
    | B => exact h.pushBytes cb.bytes
    | C =>
      refine ⟨?_,?_,congrArg (· + 1) h.drawn⟩
      · simp [atCommand,exec_append,h.pending,Ledger.event,h.drawn]
      · simp [atCommand,Ledger.mark,h.drawn]
    | D =>
      cases hc : l.current with
      | none =>
        have hnone : m.currentBlock = none := by rw [h.current,hc]; rfl
        simpa [atEnd,hnone,Ledger.mark_end_none hc] using h
      | some i =>
        have hsome : m.currentBlock = some (draw i) := by rw [h.current,hc]; rfl
        have hend : l.event draw (.blockEnd (draw i) cb.exitCode) = some (l.mark .D) := by
          simp [Ledger.event,hc]
        refine ⟨?_,?_,?_⟩
        · simp [atEnd,hsome,exec_append,hf.pending,hend]
        · simp [atEnd,hsome,Ledger.mark_end_some hc,Ledger.leave]
        · simpa [atEnd,hsome,Ledger.mark_end_some hc,Ledger.leave,Ledger.strike] using hf.drawn

theorem Follows.reacts (h : m.Follows draw l₀ l) (cbs : List Callback) :
    (cbs.foldl (BlockMachine.react draw) m).Follows draw l₀ ((marks cbs).foldl Ledger.mark l) := by
  induction cbs generalizing m l with
  | nil => exact h
  | cons cb cbs ih =>
    have hmarks : marks (cb :: cbs) = cb.mark.toList ++ marks cbs := by
      cases hk : cb.mark <;> simp [marks,hk]
    rw [List.foldl_cons,hmarks,List.foldl_append]
    exact ih (h.react cb)

end BlockMachine

namespace BlockParser

variable {σ : Type} {vte : Vte σ} {draw : Nat → BlockId} {l : Ledger} {p : BlockParser σ}

/-- A parser between two calls, where its ledger is. -/
structure Follows (draw : Nat → BlockId) (l : Ledger) (p : BlockParser σ) : Prop where
  pending : p.machine.pending = []
  current : p.machine.currentBlock = l.current.map draw
  drawn : p.machine.drawn = l.drawn

theorem follows_new (session : SessionId) : Follows draw .start (new vte session) := ⟨rfl,rfl,rfl⟩

/-- The ledger after the parser has read the bytes, from the state of the terminal parser. -/
def ledgerAfter (vte : Vte σ) (s : σ) (l : Ledger) (bytes : Bytes) : Ledger :=
  (marks (vte.run s bytes).2).foldl Ledger.mark l

theorem ledgerAfter_append (vte : Vte σ) (s : σ) (l : Ledger) (bytes more : Bytes) :
    ledgerAfter vte s l (bytes ++ more) =
      ledgerAfter vte (vte.run s bytes).1 (ledgerAfter vte s l bytes) more := by
  simp [ledgerAfter,Transducer.run_append,marks]

/-- The ledger of a whole stream; it does not depend on how the stream is cut. -/
def ledgerOf (vte : Vte σ) (stream : Bytes) : Ledger := ledgerAfter vte vte.start .start stream

theorem Follows.feed (vte : Vte σ) (h : Follows draw l p) (bytes : Bytes) :
    exec (Ledger.event draw) l (p.feed vte draw bytes).2 =
        some (ledgerAfter vte p.parser l bytes) ∧
      Follows draw (ledgerAfter vte p.parser l bytes) (p.feed vte draw bytes).1 := by
  have hstart : p.machine.Follows draw l l := ⟨by rw [h.pending]; rfl,h.current,h.drawn⟩
  have hall := (hstart.reacts (vte.run p.parser bytes).2).flushOutput
  exact ⟨hall.pending,rfl,hall.current,hall.drawn⟩

end BlockParser

end Pyre.Blocks
