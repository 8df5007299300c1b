import Pyre.Base.Run
import Pyre.Blocks.Log

/-!
The block machine with its output buffer emptied into the log byte by byte. Seen
so, a flush does nothing, and a callback acts on what is seen of the machine: all
but a C mark that finds buffered output, which it hands to the wrong block.
-/

set_option autoImplicit false

namespace Pyre.Blocks
open Base

/-- An event with its output cut into single bytes. -/
def bytes : BlockEvent → List BlockEvent
  | .outputChunk block data => data.map fun b => .outputChunk block [b]
  | e => [e]

def bytewise (events : List BlockEvent) : List BlockEvent := events.flatMap bytes

@[simp] theorem bytewise_nil : bytewise [] = [] := rfl

@[simp] theorem bytewise_append (es fs : List BlockEvent) :
    bytewise (es ++ fs) = bytewise es ++ bytewise fs := by
  simp [bytewise]

theorem bytewise_idem (events : List BlockEvent) : bytewise (bytewise events) = bytewise events := by
  induction events with
  | nil => rfl
  | cons e events ih =>
    have he : bytewise (bytes e) = bytes e := by
      cases e with
      | outputChunk block data => induction data <;> simp_all [bytewise,bytes]
      | _ => rfl
    have hc : bytewise (e :: events) = bytes e ++ bytewise events := rfl
    rw [hc,bytewise_append,he,ih]

/-- Where the text of the open block stands. -/
inductive Line where
  | idle
  | atStart
  | midLine
  deriving DecidableEq, Repr

/-- The text of a callback, and the last byte of it. -/
def Line.text (l : Line) (bs : Bytes) : Line :=
  match l, bs.getLast? with
  | .idle, _ => .idle
  | l, none => l
  | _, some b => if b = 0x0A then .atStart else .midLine

/-- A C mark is refused in the middle of a line of output. -/
def lineStep (l : Line) (cb : Callback) : Option Line :=
  match cb.mark with
  | some .A => some .idle
  | some .C => if l = .midLine then none else some .atStart
  | some .D => some .idle
  | _ => some (l.text cb.bytes)

namespace BlockMachine

variable {draw : Nat → BlockId} {m : BlockMachine}

def buffered (m : BlockMachine) : List BlockEvent :=
  match m.currentBlock with
  | some block => bytes (.outputChunk block m.outBuf)
  | none => []

def unbuffer (m : BlockMachine) : BlockMachine :=
  { m with outBuf := [], pending := bytewise m.pending ++ m.buffered }

@[simp] theorem unbuffer_currentBlock (m : BlockMachine) :
    m.unbuffer.currentBlock = m.currentBlock := rfl

theorem unbuffer_idem (m : BlockMachine) : m.unbuffer.unbuffer = m.unbuffer := by
  have hb : bytewise m.buffered = m.buffered := by
    unfold buffered
    cases m.currentBlock with
    | none => rfl
    | some b => simpa [bytewise] using bytewise_idem [.outputChunk b m.outBuf]
  have hn : m.unbuffer.buffered = [] := by
    cases h : m.currentBlock <;> simp [buffered,h,unbuffer,bytes]
  rw [unbuffer,hn]
  simp [unbuffer,bytewise_idem,hb]

theorem unbuffer_flushOutput (m : BlockMachine) : m.flushOutput.unbuffer = m.unbuffer := by
  cases h : m.currentBlock with
  | none => rw [flushOutput_of_none h]
  | some b =>
    rw [flushOutput_of_some h]
    by_cases ho : m.outBuf = []
    · simp [unbuffer,buffered,h,ho,bytes]
    · simp [unbuffer,buffered,h,ho,bytes,bytewise]

theorem unbuffer_buffer {block : BlockId} (h : m.currentBlock = some block) (b : UInt8) :
    (m.buffer b).unbuffer =
      { m.unbuffer with pending := m.unbuffer.pending ++ [.outputChunk block [b]] } := by
  simp [unbuffer,buffer,buffered,h,bytes]

/-- A byte taken in is a byte of output of the open block, whether or not it
makes the machine flush. -/
theorem unbuffer_pushByte (m : BlockMachine) (b : UInt8) :
    (m.pushByte b).unbuffer = (m.unbuffer.pushByte b).unbuffer := by
  cases h : m.currentBlock with
  | some block =>
    have hpush : ∀ n : BlockMachine, n.currentBlock = some block →
        (n.pushByte b).unbuffer = (n.buffer b).unbuffer := by
      intro n hn
      rw [pushByte_of_some hn]
      split
      · exact unbuffer_flushOutput _
      · rfl
    rw [hpush m h,hpush m.unbuffer h,unbuffer_buffer h,unbuffer_buffer (m := m.unbuffer) h,
      unbuffer_idem]
  | none =>
    rw [pushByte_of_none h,pushByte_of_none (m := m.unbuffer) h]
    simp [unbuffer,buffered,h,bytewise_idem]

theorem unbuffer_pushBytes (bs : Bytes) {m n : BlockMachine} (h : m.unbuffer = n.unbuffer) :
    (bs.foldl pushByte m).unbuffer = (bs.foldl pushByte n).unbuffer := by
  induction bs generalizing m n with
  | nil => exact h
  | cons b bs ih =>
    apply ih
    rw [unbuffer_pushByte,h,← unbuffer_pushByte]

theorem unbuffer_atPrompt (m : BlockMachine) :
    m.atPrompt.unbuffer =
      { m.unbuffer with
        cmdBuf := []
        capturingCmd := true
        currentBlock := none
        pending := m.unbuffer.pending ++ [.promptStart m.session] } := by
  cases h : m.currentBlock with
  | none => simp [atPrompt,flushOutput_of_none h,unbuffer,buffered,h,bytewise,bytes]
  | some b =>
    by_cases ho : m.outBuf = []
    · simp [atPrompt,flushOutput_of_some h,unbuffer,buffered,h,ho,bytewise,bytes]
    · simp [atPrompt,flushOutput_of_some h,unbuffer,buffered,h,ho,bytewise,bytes]

theorem unbuffer_atCommand (ho : m.outBuf = []) :
    (m.atCommand draw).unbuffer = m.unbuffer.atCommand draw := by
  cases h : m.currentBlock with
  | none => simp [atCommand,unbuffer,buffered,h,ho,bytewise,bytes]
  | some b => simp [atCommand,unbuffer,buffered,h,ho,bytewise,bytes]

theorem unbuffer_atEnd (m : BlockMachine) (exit : Option Int) :
    (m.atEnd exit).unbuffer =
      { m.unbuffer with
        currentBlock := none
        pending := m.unbuffer.pending ++ (m.currentBlock.map (.blockEnd · exit)).toList } := by
  cases h : m.currentBlock with
  | none => simp [atEnd,h,unbuffer,buffered]
  | some b =>
    by_cases ho : m.outBuf = []
    · simp [atEnd,flushOutput_of_some h,unbuffer,buffered,h,ho,bytewise,bytes]
    · simp [atEnd,flushOutput_of_some h,unbuffer,buffered,h,ho,bytewise,bytes]

/-- A callback acts on what is seen of the machine, C on an empty buffer only. -/
theorem unbuffer_react (m : BlockMachine) (cb : Callback)
    (hC : cb.mark = some .C → m.outBuf = []) :
    (m.react draw cb).unbuffer = (m.unbuffer.react draw cb).unbuffer := by
  rw [react_eq,react_eq]
  cases hk : cb.mark with
  | none => exact unbuffer_pushBytes _ (unbuffer_idem m).symm
  | some k =>
    cases k with
    | A =>
      simp only [unbuffer_atPrompt,unbuffer_idem]
      rfl
    | B => exact unbuffer_pushBytes _ (unbuffer_idem m).symm
    | C => rw [unbuffer_atCommand (hC hk),unbuffer_atCommand rfl,unbuffer_idem]
    | D => rw [unbuffer_atEnd,unbuffer_atEnd,unbuffer_idem]; rfl

/-- The automaton follows the machine: the buffer is empty where a C mark is allowed. -/
def Tracks (l : Line) (m : BlockMachine) : Prop :=
  match l with
  | .idle => m.currentBlock = none ∧ m.outBuf = []
  | .atStart => m.currentBlock.isSome ∧ m.outBuf = []
  | .midLine => m.currentBlock.isSome

theorem Tracks.outBuf {l : Line} (h : Tracks l m) (hl : l ≠ .midLine) : m.outBuf = [] := by
  cases l with
  | midLine => exact absurd rfl hl
  | _ => exact h.2

theorem flushOutput_outBuf {b : BlockId} (h : m.currentBlock = some b) :
    m.flushOutput.outBuf = [] := by
  rw [flushOutput_of_some h]

theorem Tracks.flushOutput {l : Line} (h : Tracks l m) : Tracks l m.flushOutput := by
  cases hc : m.currentBlock with
  | none => rw [flushOutput_of_none hc]; exact h
  | some b =>
    have ho := flushOutput_outBuf hc
    cases l with
    | idle => exact absurd h.1 (by simp [hc])
    | atStart => exact ⟨by simp [hc],ho⟩
    | midLine => simp [Tracks,hc]

theorem Tracks.flushed {l : Line} (h : Tracks l m) : m.flushOutput.outBuf = [] := by
  cases hc : m.currentBlock with
  | some b => exact flushOutput_outBuf hc
  | none =>
    rw [flushOutput_of_none hc]
    cases l with
    | idle => exact h.2
    | atStart => exact h.2
    | midLine => simp [Tracks,hc] at h

theorem pushBytes_currentBlock (bs : Bytes) (m : BlockMachine) :
    (bs.foldl pushByte m).currentBlock = m.currentBlock := by
  induction bs generalizing m with
  | nil => rfl
  | cons b bs ih => rw [List.foldl_cons,ih,pushByte_currentBlock]

theorem pushBytes_outBuf_of_none (bs : Bytes) (h : m.currentBlock = none) :
    (bs.foldl pushByte m).outBuf = m.outBuf := by
  induction bs generalizing m with
  | nil => rfl
  | cons b bs ih =>
    have hb : (m.pushByte b).currentBlock = none := by rw [pushByte_currentBlock,h]
    rw [List.foldl_cons,ih hb,pushByte_of_none h]

/-- A line feed empties the buffer. -/
theorem pushBytes_newline (bs : Bytes) (h : m.currentBlock.isSome)
    (hb : bs.getLast? = some 0x0A) : (bs.foldl pushByte m).outBuf = [] := by
  obtain ⟨bs,rfl⟩ := List.getLast?_eq_some_iff.mp hb
  obtain ⟨b,hc⟩ := Option.isSome_iff_exists.mp h
  have hc' : (bs.foldl pushByte m).currentBlock = some b := by rw [pushBytes_currentBlock,hc]
  rw [List.foldl_append]
  simp only [List.foldl_cons,List.foldl_nil,pushByte_of_some hc',or_true,if_true]
  exact flushOutput_outBuf hc'

theorem Tracks.text {l : Line} (h : Tracks l m) (bs : Bytes) :
    Tracks (l.text bs) (bs.foldl pushByte m) := by
  have hcur := pushBytes_currentBlock bs m
  cases hl : bs.getLast? with
  | none =>
    obtain rfl := List.getLast?_eq_none_iff.mp hl
    cases l <;> exact h
  | some b =>
    cases l with
    | idle =>
      have ho := pushBytes_outBuf_of_none bs h.1
      exact ⟨hcur.trans h.1,ho.trans h.2⟩
    | atStart =>
      by_cases hb : b = 0x0A
      · subst hb
        simpa [Line.text,hl,Tracks,hcur,h.1] using pushBytes_newline bs h.1 hl
      · simpa [Line.text,hl,hb,Tracks,hcur] using h.1
    | midLine =>
      by_cases hb : b = 0x0A
      · subst hb
        simpa [Line.text,hl,Tracks,hcur,show m.currentBlock.isSome = true from h] using
          pushBytes_newline bs h hl
      · simpa [Line.text,hl,hb,Tracks,hcur] using h

theorem Tracks.react (draw : Nat → BlockId) {l l' : Line} {cb : Callback} (h : Tracks l m)
    (hl : lineStep l cb = some l') : Tracks l' (m.react draw cb) := by
  rw [react_eq]
  unfold lineStep at hl
  cases hk : cb.mark with
  | none =>
    simp only [hk,Option.some.injEq] at hl
    exact hl ▸ h.text cb.bytes
  | some k =>
    cases k with
    | A =>
      simp only [hk,Option.some.injEq] at hl
      subst hl
      exact ⟨rfl,h.flushed⟩
    | B =>
      simp only [hk,Option.some.injEq] at hl
      exact hl ▸ h.text cb.bytes
    | C =>
      by_cases hm : l = .midLine
      · simp [hk,hm] at hl
      · simp only [hk,hm,if_false,Option.some.injEq] at hl
        subst hl
        exact ⟨rfl,h.outBuf hm⟩
    | D =>
      simp only [hk,Option.some.injEq] at hl
      subst hl
      cases hc : m.currentBlock with
      | none =>
        have ho : m.outBuf = [] := by cases l <;> simp_all [Tracks]
        simp [atEnd,Tracks,hc,ho]
      | some b => simp [atEnd,hc,Tracks,flushOutput_outBuf hc]

/-- What is seen of the machine after the callbacks. -/
def shown (draw : Nat → BlockId) (m : BlockMachine) (cbs : List Callback) : BlockMachine :=
  cbs.foldl (fun n cb => (n.react draw cb).unbuffer) m.unbuffer

/-- What a run shows depends on its callbacks alone, not on where it is flushed. -/
theorem unbuffer_advanceAll {l l' : Line} (h : Tracks l m) (ops : List (Option Callback))
    (hl : exec lineStep l ops.reduceOption = some l') :
    (ops.foldl (advance draw) m).unbuffer = m.shown draw ops.reduceOption := by
  unfold shown
  induction ops generalizing l m with
  | nil => rfl
  | cons op ops ih =>
    cases op with
    | none =>
      rw [List.reduceOption_cons_of_none] at hl ⊢
      have hrest := ih h.flushOutput hl
      rw [unbuffer_flushOutput] at hrest
      exact hrest
    | some cb =>
      rw [List.reduceOption_cons_of_some] at hl ⊢
      rw [exec_cons,Option.bind_eq_some_iff] at hl
      obtain ⟨k,hk,hl⟩ := hl
      have hC : cb.mark = some .C → m.outBuf = [] := by
        intro hc
        apply h.outBuf
        intro hm
        simp [lineStep,hc,hm] at hk
      have hrest := ih (h.react draw hk) hl
      rw [unbuffer_react m cb hC] at hrest
      exact hrest

/-- The automaton follows a run to its end. -/
theorem Tracks.advanceAll {l l' : Line} (h : Tracks l m) (draw : Nat → BlockId)
    (ops : List (Option Callback))
    (hl : exec lineStep l ops.reduceOption = some l') :
    Tracks l' (ops.foldl (advance draw) m) := by
  induction ops generalizing l m with
  | nil =>
    rw [List.reduceOption_nil,exec_nil,Option.some.injEq] at hl
    exact hl ▸ h
  | cons op ops ih =>
    cases op with
    | none =>
      rw [List.reduceOption_cons_of_none] at hl
      exact ih h.flushOutput hl
    | some cb =>
      rw [List.reduceOption_cons_of_some,exec_cons,Option.bind_eq_some_iff] at hl
      obtain ⟨k,hk,hl⟩ := hl
      exact ih (h.react draw hk) hl

theorem unbuffer_pending_of_flushed (m : BlockMachine) :
    bytewise m.flushOutput.pending = m.unbuffer.pending := by
  rw [← unbuffer_flushOutput]
  have hb : m.flushOutput.buffered = [] := by
    cases h : m.currentBlock with
    | none => simp [buffered,h]
    | some b => simp [buffered,h,flushOutput_outBuf h,bytes]
  simp [unbuffer,hb]

end BlockMachine

end Pyre.Blocks
