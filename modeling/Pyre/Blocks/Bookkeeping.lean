import Pyre.Blocks.Ledger
import Pyre.Blocks.Recorder

/-!
The bookkeeping of blocks: what the parser task of `spawn_pty` and the supervisor's
batcher do for each event of a parser, up to the row of the block and its document in
the search index, and what they do for the blocks still running when a pane ends.
-/

set_option autoImplicit false

namespace Pyre.Blocks
open Base

/-- A row of `blocks` with its times. -/
structure BlockRow where
  pane : PaneId
  session : SessionId
  command : Text
  cwd : Option Text
  startedAt : Int
  endedAt : Option Int
  exitCode : Option Int
  stdoutLen : Nat
  deriving DecidableEq, Repr

/-- What `add_block` is given of a block. -/
structure Document where
  block : BlockId
  info : BlockRow
  stdout : Text
  deriving DecidableEq, Repr

/-- What the task finds when it turns to the world for the n-th time: the time, the
directory of the shell, and whether a blob can be opened, written to and closed. -/
structure World where
  now : Nat → Int
  procCwd : Nat → Option Text
  opens : Nat → Bool
  writes : Nat → Bool
  closes : Nat → Bool

/-- The rows of the store, the search index, and how often the world was turned to. -/
structure Archive where
  rows : Table BlockId BlockRow
  documents : List Document
  turns : Nat

namespace Archive

def empty : Archive := ⟨∅,[],0⟩

def turn (a : Archive) : Archive := { a with turns := a.turns+1 }

/-- The insertion fails on an id that has a row. -/
def createBlock (a : Archive) (b : BlockId) (row : BlockRow) : Option Archive :=
  if (a.rows.lookup b).isSome then none else some { a with rows := a.rows.insert b row }

def finalizeBlock (a : Archive) (b : BlockId) (endedAt : Int) (exit : Option Int)
    (stdoutLen : Nat) : Archive :=
  match a.rows.lookup b with
  | some row =>
    { a with
      rows := a.rows.insert b
        { row with endedAt := some endedAt, exitCode := exit, stdoutLen := stdoutLen } }
  | none => a

def addBlock (a : Archive) (doc : Document) : Archive :=
  { a with documents := a.documents ++ [doc] }

/-- How many documents the block has. -/
def indexed (a : Archive) (b : BlockId) : Nat := (a.documents.map Document.block).count b

end Archive

/-- A writer is the number of bytes written so far. In a daemon of its own these are
the variables of the parser task, and `paneId` is fixed. -/
structure PaneParserState (σ : Type) where
  parser : BlockParser σ
  writers : Table BlockId Nat
  stdoutBufs : Table BlockId Bytes
  blockMeta : Table BlockId BlockRow
  paneId : Option PaneId

/-- The part of the output that is indexed. -/
def indexCap : Nat := 256*1024

namespace PaneParserState

variable {σ : Type}

def new (vte : Vte σ) (session : SessionId) : PaneParserState σ := ⟨.new vte session,∅,∅,∅,none⟩

variable (w : World) (mode : Mode) (pane : PaneId) (session : SessionId)

def commandStart (a : Archive) (p : PaneParserState σ) (b : BlockId) (command : Text)
    (cwd : Option Text) : Archive × PaneParserState σ :=
  let cwd := match mode with
    | .single => (w.procCwd a.turns).or cwd
    | .hybrid => cwd
  let row : BlockRow := ⟨pane,session,command,cwd,w.now a.turns,none,none,0⟩
  match a.createBlock b row with
  | none => (a.turn,p)
  | some created => (created.turn,{ p with
      writers := if w.opens a.turns then p.writers.insert b 0 else p.writers
      stdoutBufs := p.stdoutBufs.insert b []
      blockMeta := p.blockMeta.insert b row })

/-- The batcher loses a writer with a write that fails, the parser task keeps it. -/
def outputChunk (a : Archive) (p : PaneParserState σ) (b : BlockId) (data : Bytes) :
    Archive × PaneParserState σ :=
  let stdoutBufs := match p.stdoutBufs.lookup b with
    | some buf => p.stdoutBufs.insert b (buf ++ data.take (indexCap - buf.length))
    | none => p.stdoutBufs
  let writers := match p.writers.lookup b with
    | some len =>
      if w.writes a.turns then p.writers.insert b (len + data.length)
      else match mode with
        | .single => p.writers
        | .hybrid => p.writers.erase b
    | none => p.writers
  (a.turn,{ p with writers := writers, stdoutBufs := stdoutBufs })

/-- The length that is stored, 0 where there is no writer or it cannot be closed. -/
def closeWriter (a : Archive) (p : PaneParserState σ) (b : BlockId) : Nat :=
  match p.writers.lookup b with
  | some len => if w.closes a.turns then len else 0
  | none => 0

def blockEnd (a : Archive) (p : PaneParserState σ) (b : BlockId) (exit : Option Int) :
    Archive × PaneParserState σ :=
  let stdout := ((p.stdoutBufs.lookup b).bind fromUtf8).getD []
  let finalized := a.finalizeBlock b (w.now a.turns) exit (p.closeWriter w a b)
  let archive := match p.blockMeta.lookup b with
    | some info => finalized.addBlock ⟨b,info,stdout⟩
    | none => finalized
  (archive.turn,{ p with
    writers := p.writers.erase b
    stdoutBufs := p.stdoutBufs.erase b
    blockMeta := p.blockMeta.erase b })

def handle (s : Archive × PaneParserState σ) : BlockEvent → Archive × PaneParserState σ
  | .promptStart _ => s
  | .commandStart _ b command cwd => s.2.commandStart w mode pane session s.1 b command cwd
  | .outputChunk b data => s.2.outputChunk w mode s.1 b data
  | .blockEnd b exit => s.2.blockEnd w s.1 b exit

/-- `finalize_one_pane_state` goes through the metadata, and ends the blocks as a
`BlockEnd` without an exit code would. -/
def finalizeOne (a : Archive) (p : PaneParserState σ) : Archive × PaneParserState σ :=
  p.blockMeta.keys.foldl (fun s b => s.2.blockEnd w s.1 b none) (a,p)

/-- The end of the parser task goes through the writers. -/
def drain (a : Archive) (p : PaneParserState σ) : Archive :=
  p.writers.keys.foldl
    (fun a b => (a.finalizeBlock b (w.now a.turns) none (p.closeWriter w a b)).turn) a

variable (vte : Vte σ) (draw : Nat → BlockId)

def feed (s : Archive × PaneParserState σ) (bytes : Bytes) : Archive × PaneParserState σ :=
  let (parser,events) := s.2.parser.feed vte draw bytes
  events.foldl (handle w mode pane session) (s.1,{ s.2 with parser := parser })

end PaneParserState

/-- The parser task of a daemon of its own, over the chunks of its pane's output. -/
def recordPane {σ : Type} (w : World) (vte : Vte σ) (draw : Nat → BlockId) (pane : PaneId)
    (session : SessionId) (chunks : List Bytes) : Archive :=
  let (a,p) := chunks.foldl (PaneParserState.feed w .single pane session vte draw)
    (.empty,{ PaneParserState.new vte session with paneId := some pane })
  p.drain w a

/-! What the events do to the rows and the documents, by the ledger. -/

/-- The rows, the documents and the metadata of the parser's blocks are as its ledger
has it: a block has its end in the row, and a document, once it is finished. -/
structure Books {σ : Type} (draw : Nat → BlockId) (l : Ledger) (a : Archive)
    (p : PaneParserState σ) : Prop where
  running : ∀ b, b ∈ p.blockMeta ↔ ∃ i ∈ l.unfinished, draw i = b
  writers : ∀ b, b ∈ p.writers → b ∈ p.blockMeta
  row : ∀ i < l.drawn, ∃ row, a.rows.lookup (draw i) = some row ∧
    (row.endedAt = none ↔ i ∈ l.unfinished)
  documents : ∀ i, a.indexed (draw i) = if i < l.drawn ∧ i ∉ l.unfinished then 1 else 0
  fresh : ∀ i, l.drawn ≤ i → a.rows.lookup (draw i) = none

/-- Nothing is known of the block in the one that is not known in the other. -/
structure Archive.Same (a a' : Archive) (b : BlockId) : Prop where
  row : a'.rows.lookup b = a.rows.lookup b
  indexed : a'.indexed b = a.indexed b

/-- Rows that have their end stay as they are. -/
def Archive.Keeps (a a' : Archive) : Prop :=
  ∀ b row, a.rows.lookup b = some row → row.endedAt.isSome → a'.rows.lookup b = some row

namespace Archive

variable {a a' a'' : Archive} {b c : BlockId}

theorem Same.refl (a : Archive) (b : BlockId) : a.Same a b := ⟨rfl,rfl⟩

theorem Same.trans (h : a.Same a' b) (h' : a'.Same a'' b) : a.Same a'' b :=
  ⟨h'.row.trans h.row,h'.indexed.trans h.indexed⟩

theorem Keeps.refl (a : Archive) : a.Keeps a := fun _ _ h _ => h

theorem Keeps.trans (h : a.Keeps a') (h' : a'.Keeps a'') : a.Keeps a'' :=
  fun b row hrow hend => h' b row (h b row hrow hend) hend

theorem lookup_finalizeBlock_self {row : BlockRow} (h : a.rows.lookup b = some row)
    (endedAt : Int) (exit : Option Int) (len : Nat) :
    (a.finalizeBlock b endedAt exit len).rows.lookup b =
      some { row with endedAt := some endedAt, exitCode := exit, stdoutLen := len } := by
  simp [finalizeBlock,h]

theorem lookup_finalizeBlock_ne (h : c ≠ b) (endedAt : Int) (exit : Option Int) (len : Nat) :
    (a.finalizeBlock b endedAt exit len).rows.lookup c = a.rows.lookup c := by
  unfold finalizeBlock
  split
  · exact AList.lookup_insert_ne h
  · rfl

theorem documents_finalizeBlock (endedAt : Int) (exit : Option Int) (len : Nat) :
    (a.finalizeBlock b endedAt exit len).documents = a.documents := by
  unfold finalizeBlock
  split <;> rfl

@[simp] theorem indexed_turn (a : Archive) (b : BlockId) : a.turn.indexed b = a.indexed b := rfl

theorem indexed_addBlock (doc : Document) :
    (a.addBlock doc).indexed b = a.indexed b + if doc.block = b then 1 else 0 := by
  simp [indexed,addBlock,List.count_append,List.count_singleton]

end Archive

section Keeping

variable {σ : Type} {w : World} {mode : Mode} {pane : PaneId} {session : SessionId}
  {draw : Nat → BlockId} {l l' : Ledger} {a a' : Archive} {p : PaneParserState σ}
  {e : BlockEvent} {i : Nat}

theorem books_new (vte : Vte σ) (draw : Nat → BlockId) (session : SessionId) {a : Archive}
    (ha : ∀ i, a.rows.lookup (draw i) = none ∧ a.indexed (draw i) = 0) :
    Books draw .start a (.new vte session) where
  running b := by simp [PaneParserState.new,Ledger.start,AList.mem_keys]
  writers b h := by simp [PaneParserState.new] at h
  row i hi := by simp [Ledger.start] at hi
  documents i := by simp [Ledger.start,(ha i).2]
  fresh i _ := (ha i).1

theorem Books.mem_draw (h : Books draw l a p) (hdraw : Function.Injective draw) :
    draw i ∈ p.blockMeta ↔ i ∈ l.unfinished := by
  rw [h.running]
  constructor
  · rintro ⟨j,hj,heq⟩
    exact hdraw heq ▸ hj
  · exact fun hi => ⟨i,hi,rfl⟩

theorem PaneParserState.rows_blockEnd (b : BlockId) (exit : Option Int) :
    (p.blockEnd w a b exit).1.rows =
      (a.finalizeBlock b (w.now a.turns) exit (p.closeWriter w a b)).rows := by
  unfold PaneParserState.blockEnd
  simp only
  split <;> rfl

theorem PaneParserState.indexed_blockEnd (b c : BlockId) (exit : Option Int) :
    (p.blockEnd w a b exit).1.indexed c =
      a.indexed c + if b ∈ p.blockMeta ∧ b = c then 1 else 0 := by
  have hsame : ∀ endedAt len, (a.finalizeBlock b endedAt exit len).indexed c = a.indexed c := by
    intro endedAt len
    rw [Archive.indexed,Archive.documents_finalizeBlock,Archive.indexed]
  unfold PaneParserState.blockEnd
  simp only
  split
  · rename_i info hinfo
    have hmem : b ∈ p.blockMeta := AList.lookup_isSome.mp (Option.isSome_of_mem hinfo)
    have hadd := Archive.indexed_addBlock (b := c)
      (a := a.finalizeBlock b (w.now a.turns) exit (p.closeWriter w a b))
      ⟨b,info,((p.stdoutBufs.lookup b).bind fromUtf8).getD []⟩
    rw [hsame] at hadd
    simpa [hmem] using hadd
  · rename_i hnone
    have hmem : b ∉ p.blockMeta := AList.lookup_eq_none.mp hnone
    simpa [hmem] using hsame _ _

/-- The end of a block finishes it, also where it was finished before. -/
theorem Books.blockEnd (h : Books draw l a p) (hdraw : Function.Injective draw)
    (hi : i < l.drawn) (exit : Option Int) :
    Books draw (l.strike i) (p.blockEnd w a (draw i) exit).1
      (p.blockEnd w a (draw i) exit).2 where
  running b := by
    simp only [PaneParserState.blockEnd,AList.mem_erase,h.running,Ledger.mem_strike]
    constructor
    · rintro ⟨hne,j,hj,rfl⟩
      exact ⟨j,⟨hj,fun heq => hne (congrArg draw heq)⟩,rfl⟩
    · rintro ⟨j,⟨hj,hne⟩,rfl⟩
      exact ⟨fun heq => hne (hdraw heq),j,hj,rfl⟩
  writers b hb := by
    simp only [PaneParserState.blockEnd,AList.mem_erase] at hb ⊢
    exact ⟨hb.1,h.writers b hb.2⟩
  row j hj := by
    obtain ⟨row,hrow,hend⟩ := h.row j hj
    rw [PaneParserState.rows_blockEnd]
    by_cases hij : j = i
    · subst hij
      exact ⟨_,Archive.lookup_finalizeBlock_self hrow _ exit _,by simp [Ledger.mem_strike]⟩
    · refine ⟨row,?_,?_⟩
      · rw [Archive.lookup_finalizeBlock_ne fun heq => hij (hdraw heq),hrow]
      · rw [hend,Ledger.mem_strike]
        simp [hij]
  documents j := by
    rw [PaneParserState.indexed_blockEnd,h.documents]
    have hlt : (l.strike i).drawn = l.drawn := rfl
    by_cases hij : j = i
    · subst hij
      by_cases hmem : j ∈ l.unfinished <;>
        simp [Ledger.mem_strike,hlt,hi,h.mem_draw hdraw,hmem]
    · have hne : draw i ≠ draw j := fun heq => hij (hdraw heq).symm
      simp [Ledger.mem_strike,hij,hlt,hne]
  fresh j hj := by
    rw [PaneParserState.rows_blockEnd]
    have hji : j ≠ i := fun heq => absurd (heq ▸ hj : l.drawn ≤ i) (not_le.mpr hi)
    rw [Archive.lookup_finalizeBlock_ne fun heq => hji (hdraw heq)]
    exact h.fresh j hj

theorem Books.commandStart (h : Books draw l a p) (hdraw : Function.Injective draw)
    (command : Text) (cwd : Option Text) :
    Books draw (l.mark .C) (p.commandStart w mode pane session a (draw l.drawn) command cwd).1
        (p.commandStart w mode pane session a (draw l.drawn) command cwd).2 ∧
      a.Keeps (p.commandStart w mode pane session a (draw l.drawn) command cwd).1 := by
  have hnew : a.rows.lookup (draw l.drawn) = none := h.fresh l.drawn le_rfl
  set row : BlockRow := ⟨pane,session,command,
    (match mode with
      | .single => (w.procCwd a.turns).or cwd
      | .hybrid => cwd),w.now a.turns,none,none,0⟩ with hrow
  have hrun : p.commandStart w mode pane session a (draw l.drawn) command cwd =
      ({ rows := a.rows.insert (draw l.drawn) row, documents := a.documents, turns := a.turns+1 },
        { p with
          writers := if w.opens a.turns then p.writers.insert (draw l.drawn) 0 else p.writers
          stdoutBufs := p.stdoutBufs.insert (draw l.drawn) []
          blockMeta := p.blockMeta.insert (draw l.drawn) row }) := by
    simp only [PaneParserState.commandStart,Archive.createBlock,hnew,Option.isSome_none,
      Bool.false_eq_true,if_false,Archive.turn,hrow]
  rw [hrun]
  have hlt : ∀ {i}, i < (l.mark .C).drawn ↔ i < l.drawn ∨ i = l.drawn := Nat.lt_succ_iff_lt_or_eq
  have hmem : ∀ {i}, i ∈ (l.mark .C).unfinished ↔ i ∈ l.unfinished ∨ i = l.drawn := by
    simp [Ledger.mark]
  have hne : ∀ {i}, i ≠ l.drawn → draw i ≠ draw l.drawn := fun hij heq => hij (hdraw heq)
  refine ⟨⟨fun b => ?_,fun b hb => ?_,fun i hi => ?_,fun i => ?_,fun i hi => ?_⟩,?_⟩
  · simp only [AList.mem_insert,h.running,hmem]
    constructor
    · rintro (rfl | ⟨i,hi,rfl⟩)
      · exact ⟨l.drawn,Or.inr rfl,rfl⟩
      · exact ⟨i,Or.inl hi,rfl⟩
    · rintro ⟨i,hi | rfl,rfl⟩
      · exact Or.inr ⟨i,hi,rfl⟩
      · exact Or.inl rfl
  · simp only [AList.mem_insert] at hb ⊢
    split at hb
    · exact ((AList.mem_insert _).mp hb).imp_right (h.writers b)
    · exact Or.inr (h.writers b hb)
  · rcases hlt.mp hi with hi | rfl
    · obtain ⟨row',hrow',hend⟩ := h.row i hi
      refine ⟨row',?_,?_⟩
      · exact (AList.lookup_insert_ne (hne hi.ne)).trans hrow'
      · rw [hend,hmem,or_iff_left hi.ne]
    · exact ⟨row,AList.lookup_insert _,by simp [hmem,hrow]⟩
  · have hold := h.documents i
    have hiff : (i < (l.mark .C).drawn ∧ i ∉ (l.mark .C).unfinished) ↔
        i < l.drawn ∧ i ∉ l.unfinished := by
      rw [hlt,hmem]
      constructor
      · rintro ⟨hi,hnot⟩
        rw [not_or] at hnot
        exact ⟨hi.resolve_right hnot.2,hnot.1⟩
      · rintro ⟨hi,hnot⟩
        exact ⟨Or.inl hi,not_or.mpr ⟨hnot,hi.ne⟩⟩
    simp only [hiff]
    exact hold
  · have hle : l.drawn < i := hi
    exact (AList.lookup_insert_ne (hne hle.ne')).trans (h.fresh i hle.le)
  · intro b row' hrow' _
    refine (AList.lookup_insert_ne ?_).trans hrow'
    rintro rfl
    rw [hnew] at hrow'
    cases hrow'

theorem Books.outputChunk (h : Books draw l a p) (b : BlockId) (data : Bytes) :
    Books draw l (p.outputChunk w mode a b data).1 (p.outputChunk w mode a b data).2 := by
  refine ⟨h.running,fun c hc => ?_,h.row,h.documents,h.fresh⟩
  refine h.writers c ?_
  simp only [PaneParserState.outputChunk] at hc
  split at hc
  · rename_i len hlen
    have hmem : b ∈ p.writers := AList.lookup_isSome.mp (Option.isSome_of_mem hlen)
    split at hc
    · rcases (AList.mem_insert _).mp hc with rfl | hc
      · exact hmem
      · exact hc
    · cases mode with
      | single => exact hc
      | hybrid => exact (AList.mem_erase.mp hc).2
  · exact hc

theorem Books.congr (h : Books draw l a p) (hdrawn : l'.drawn = l.drawn)
    (hunfinished : l'.unfinished = l.unfinished) : Books draw l' a p := by
  obtain ⟨c,n,u⟩ := l'
  obtain rfl : n = l.drawn := hdrawn
  obtain rfl : u = l.unfinished := hunfinished
  exact ⟨h.running,h.writers,h.row,h.documents,h.fresh⟩

/-- The block of an end has been drawn before. -/
theorem end_of_event {b : BlockId} {exit : Option Int}
    (he : l.event draw (.blockEnd b exit) = some l') :
    ∃ i, l.current = some i ∧ draw i = b ∧ l' = (l.strike i).leave := by
  rw [Ledger.event,Option.ite_none_right_eq_some,Option.some.injEq] at he
  obtain ⟨hcur,rfl⟩ := he
  obtain ⟨i,hi,rfl⟩ := Option.map_eq_some_iff.mp hcur
  exact ⟨i,hi,rfl,Ledger.mark_end_some hi⟩

theorem start_of_event {s : SessionId} {b : BlockId} {command : Text} {cwd : Option Text}
    (he : l.event draw (.commandStart s b command cwd) = some l') :
    draw l.drawn = b ∧ l' = l.mark .C := by
  rw [Ledger.event,Option.ite_none_right_eq_some,Option.some.injEq] at he
  exact ⟨he.1.symm,he.2.symm⟩

theorem Books.handle (h : Books draw l a p) (hdraw : Function.Injective draw) (hsound : l.Sound)
    (he : l.event draw e = some l') :
    Books draw l' (PaneParserState.handle w mode pane session (a,p) e).1
      (PaneParserState.handle w mode pane session (a,p) e).2 := by
  cases e with
  | promptStart s =>
    obtain rfl := Option.some.inj he
    exact h.congr rfl rfl
  | commandStart s b command cwd =>
    obtain ⟨rfl,rfl⟩ := start_of_event he
    exact (h.commandStart hdraw command cwd).1
  | outputChunk b data =>
    rw [Ledger.event,Option.ite_none_right_eq_some,Option.some.injEq] at he
    obtain ⟨-,rfl⟩ := he
    exact h.outputChunk b data
  | blockEnd b exit =>
    obtain ⟨i,hi,rfl,rfl⟩ := end_of_event he
    exact (h.blockEnd hdraw (hsound.current i hi) exit).congr rfl rfl

/-- A row loses its first end only to an end of a block that is not running. -/
theorem Books.keeps_blockEnd (h : Books draw l a p) (hi : i ∈ l.unfinished) (hsound : l.Sound)
    (exit : Option Int) : a.Keeps (p.blockEnd w a (draw i) exit).1 := by
  intro b row hrow hend
  rw [PaneParserState.rows_blockEnd,Archive.lookup_finalizeBlock_ne ?_,hrow]
  rintro rfl
  obtain ⟨row',hrow',hiff⟩ := h.row i (hsound.unfinished i hi)
  obtain rfl := Option.some.inj (hrow.symm.trans hrow')
  rw [hiff.mpr hi] at hend
  cases hend

theorem Books.keeps (h : Books draw l a p) (hdraw : Function.Injective draw) (hsound : l.Sound)
    (hopen : l.Open) (he : l.event draw e = some l') :
    a.Keeps (PaneParserState.handle w mode pane session (a,p) e).1 := by
  cases e with
  | promptStart s => exact Archive.Keeps.refl a
  | commandStart s b command cwd =>
    obtain ⟨rfl,-⟩ := start_of_event he
    exact (h.commandStart hdraw command cwd).2
  | outputChunk b data => exact Archive.Keeps.refl a
  | blockEnd b exit =>
    obtain ⟨i,hi,rfl,-⟩ := end_of_event he
    exact h.keeps_blockEnd (hopen i hi) hsound exit

theorem same_blockEnd {b c : BlockId} (hne : c ≠ b) (exit : Option Int) :
    a.Same (p.blockEnd w a b exit).1 c where
  row := by rw [PaneParserState.rows_blockEnd,Archive.lookup_finalizeBlock_ne hne]
  indexed := by simp [PaneParserState.indexed_blockEnd,hne.symm]

/-- An event leaves the blocks of other parsers alone. -/
theorem same_handle {c : BlockId} (hc : ∀ i, draw i ≠ c) (he : l.event draw e = some l') :
    a.Same (PaneParserState.handle w mode pane session (a,p) e).1 c := by
  cases e with
  | promptStart s => exact Archive.Same.refl a c
  | commandStart s b command cwd =>
    obtain ⟨rfl,-⟩ := start_of_event he
    simp only [PaneParserState.handle,PaneParserState.commandStart,Archive.createBlock]
    split
    · exact ⟨rfl,rfl⟩
    · rename_i created hcreated
      rw [Option.ite_none_left_eq_some,Option.some.injEq] at hcreated
      obtain ⟨-,rfl⟩ := hcreated
      exact ⟨AList.lookup_insert_ne (hc l.drawn).symm,rfl⟩
  | outputChunk b data => exact ⟨rfl,rfl⟩
  | blockEnd b exit =>
    obtain ⟨i,-,rfl,-⟩ := end_of_event he
    exact same_blockEnd (hc i).symm exit

/-- The books of one parser are not touched by what concerns others. -/
theorem Books.same (h : Books draw l a p) (hsame : ∀ i, a.Same a' (draw i)) :
    Books draw l a' p where
  running := h.running
  writers := h.writers
  row i hi := by
    rw [(hsame i).row]
    exact h.row i hi
  documents i := by
    rw [(hsame i).indexed]
    exact h.documents i
  fresh i hi := by
    rw [(hsame i).row]
    exact h.fresh i hi

/-- From one ledger to a later one: the books are kept, and other parsers' blocks are left
alone. -/
structure Advances (draw : Nat → BlockId) (l' : Ledger) (s s' : Archive × PaneParserState σ) :
    Prop where
  sound : l'.Sound
  books : Books draw l' s'.1 s'.2
  others : ∀ c, (∀ i, draw i ≠ c) → s.1.Same s'.1 c

theorem Books.advances_refl (h : Books draw l a p) (hsound : l.Sound) :
    Advances draw l (a,p) (a,p) := ⟨hsound,h,fun c _ => Archive.Same.refl a c⟩

theorem Advances.after {s s' s'' : Archive × PaneParserState σ} (h' : Advances draw l' s' s'')
    (h : ∀ c, (∀ i, draw i ≠ c) → s.1.Same s'.1 c) : Advances draw l' s s'' :=
  ⟨h'.sound,h'.books,fun c hc => (h c hc).trans (h'.others c hc)⟩

theorem Books.handleAll (h : Books draw l a p) (hdraw : Function.Injective draw)
    (hsound : l.Sound) {es : List BlockEvent} (he : exec (Ledger.event draw) l es = some l') :
    Advances draw l' (a,p) (es.foldl (PaneParserState.handle w mode pane session) (a,p)) ∧
      (l.Open → a.Keeps (es.foldl (PaneParserState.handle w mode pane session) (a,p)).1) := by
  induction es generalizing l a p with
  | nil =>
    obtain rfl := Option.some.inj he
    exact ⟨h.advances_refl hsound,fun _ => Archive.Keeps.refl a⟩
  | cons e es ih =>
    obtain ⟨l₁,he₁,he⟩ := Option.bind_eq_some_iff.mp he
    have hbooks : Books draw l₁ (PaneParserState.handle w mode pane session (a,p) e).1
        (PaneParserState.handle w mode pane session (a,p) e).2 := h.handle hdraw hsound he₁
    obtain ⟨hrest,hkeeps⟩ := ih hbooks (hsound.event he₁) he
    refine ⟨hrest.after fun _ hc => same_handle hc he₁,fun hopen => ?_⟩
    exact (h.keeps hdraw hsound hopen he₁).trans (hkeeps (hopen.event he₁))

theorem parser_handleAll (es : List BlockEvent) (s : Archive × PaneParserState σ) :
    (es.foldl (PaneParserState.handle w mode pane session) s).2.parser = s.2.parser ∧
      (es.foldl (PaneParserState.handle w mode pane session) s).2.paneId = s.2.paneId := by
  induction es generalizing s with
  | nil => exact ⟨rfl,rfl⟩
  | cons e es ih =>
    have hfirst : (PaneParserState.handle w mode pane session s e).2.parser = s.2.parser ∧
        (PaneParserState.handle w mode pane session s e).2.paneId = s.2.paneId := by
      cases e with
      | promptStart s => exact ⟨rfl,rfl⟩
      | commandStart s' b command cwd =>
        simp only [PaneParserState.handle,PaneParserState.commandStart]
        split <;> exact ⟨rfl,rfl⟩
      | outputChunk b data => exact ⟨rfl,rfl⟩
      | blockEnd b exit => exact ⟨rfl,rfl⟩
    rw [List.foldl_cons]
    exact ⟨(ih _).1.trans hfirst.1,(ih _).2.trans hfirst.2⟩

/-- Events that neither start nor end a block leave the rows as they are. -/
theorem rows_handleAll {es : List BlockEvent} (hes : ∀ e ∈ es, bounds e = false)
    (s : Archive × PaneParserState σ) :
    (es.foldl (PaneParserState.handle w mode pane session) s).1.rows = s.1.rows := by
  induction es generalizing s with
  | nil => rfl
  | cons e es ih =>
    have hrest := ih (fun e he => hes e (List.mem_cons_of_mem _ he))
      (PaneParserState.handle w mode pane session s e)
    refine hrest.trans ?_
    have hsilent := hes e List.mem_cons_self
    cases e with
    | promptStart s => rfl
    | commandStart s b command cwd => cases hsilent
    | outputChunk b data => rfl
    | blockEnd b exit => cases hsilent

theorem rows_feed {vte : Vte σ} {s : Archive × PaneParserState σ} {bytes : Bytes}
    (hes : ∀ e ∈ (s.2.parser.feed vte draw bytes).2, bounds e = false) :
    (PaneParserState.feed w mode pane session vte draw s bytes).1.rows = s.1.rows :=
  rows_handleAll hes (s.1,{ s.2 with parser := (s.2.parser.feed vte draw bytes).1 })

/-- Of several blocks, each is unfinished when it is its turn to end. -/
theorem Books.endAll (h : Books draw l a p) (hdraw : Function.Injective draw)
    (hsound : l.Sound) {bs : List BlockId} (hnodup : bs.Nodup)
    (hbs : ∀ b ∈ bs, ∃ i ∈ l.unfinished, draw i = b) :
    Advances draw { l with unfinished := l.unfinished.filter fun i => draw i ∉ bs } (a,p)
        (bs.foldl (fun s b => s.2.blockEnd w s.1 b none) (a,p)) ∧
      a.Keeps (bs.foldl (fun s b => s.2.blockEnd w s.1 b none) (a,p)).1 := by
  induction bs generalizing l a p with
  | nil => simpa using ⟨h.advances_refl hsound,Archive.Keeps.refl a⟩
  | cons b bs ih =>
    obtain ⟨i,hi,rfl⟩ := hbs b List.mem_cons_self
    obtain ⟨hnot,hnodup⟩ := List.nodup_cons.mp hnodup
    have hbooks := h.blockEnd (w := w) hdraw (hsound.unfinished i hi) none
    have hstruck : (l.strike i).Sound :=
      ⟨hsound.current,fun j hj => hsound.unfinished j (Ledger.mem_strike.mp hj).1⟩
    obtain ⟨hrest,hkeeps⟩ := ih hbooks hstruck hnodup fun b hb => by
      obtain ⟨j,hj,rfl⟩ := hbs b (List.mem_cons_of_mem _ hb)
      exact ⟨j,Ledger.mem_strike.mpr ⟨hj,fun heq => hnot (heq ▸ hb)⟩,rfl⟩
    have hlist : (l.strike i).unfinished.filter (fun j => draw j ∉ bs) =
        l.unfinished.filter fun j => draw j ∉ draw i :: bs := by
      rw [Ledger.strike,List.filter_filter]
      refine List.filter_congr fun j _ => ?_
      simp [hdraw.eq_iff,Bool.and_comm]
    refine ⟨?_,(h.keeps_blockEnd hi hsound none).trans hkeeps⟩
    have hall := hrest.after (s := (a,p)) fun _ hc => same_blockEnd (hc i).symm none
    rw [hlist] at hall
    exact hall

/-- When its pane is closed, all that the parser has running is finished. -/
theorem Books.finalizeOne (h : Books draw l a p) (hdraw : Function.Injective draw)
    (hsound : l.Sound) :
    Advances draw l.settle (a,p) (p.finalizeOne w a) ∧ a.Keeps (p.finalizeOne w a).1 := by
  have hkeys : ∀ b, b ∈ p.blockMeta.keys ↔ ∃ i ∈ l.unfinished, draw i = b :=
    fun b => AList.mem_keys.symm.trans (h.running b)
  have hall := h.endAll (w := w) hdraw hsound p.blockMeta.keys_nodup fun b hb => (hkeys b).mp hb
  have hnone : l.unfinished.filter (fun i => draw i ∉ p.blockMeta.keys) = [] := by
    rw [List.filter_eq_nil_iff]
    intro i hi
    simpa using (hkeys (draw i)).mpr ⟨i,hi,rfl⟩
  rw [hnone] at hall
  exact hall

/-- The state of a parser between two chunks, where its ledger is. -/
structure Held (draw : Nat → BlockId) (l : Ledger) (s : Archive × PaneParserState σ) : Prop where
  parser : s.2.parser.Follows draw l
  sound : l.Sound
  books : Books draw l s.1 s.2

theorem held_new (vte : Vte σ) (draw : Nat → BlockId) (session : SessionId) {a : Archive}
    (ha : ∀ i, a.rows.lookup (draw i) = none ∧ a.indexed (draw i) = 0) :
    Held draw .start (a,.new vte session) :=
  ⟨BlockParser.follows_new session,Ledger.sound_start,books_new vte draw session ha⟩

theorem Held.withPane (h : Held draw l (a,p)) (found : Option PaneId) :
    Held draw l (a,{ p with paneId := found }) :=
  ⟨h.parser,h.sound,
    ⟨h.books.running,h.books.writers,h.books.row,h.books.documents,h.books.fresh⟩⟩

variable {vte : Vte σ} {s : Archive × PaneParserState σ}

theorem Held.finalizeOne (h : Held draw l (a,p)) (hdraw : Function.Injective draw) :
    Held draw l.settle (p.finalizeOne w a) ∧ (p.finalizeOne w a).2.parser = p.parser ∧
      (∀ c, (∀ i, draw i ≠ c) → a.Same (p.finalizeOne w a).1 c) ∧
      a.Keeps (p.finalizeOne w a).1 := by
  have hparser : ∀ (bs : List BlockId) (s : Archive × PaneParserState σ),
      (bs.foldl (fun s b => s.2.blockEnd w s.1 b none) s).2.parser = s.2.parser := by
    intro bs
    induction bs with
    | nil => exact fun s => rfl
    | cons b bs ih => exact fun s => (ih _).trans rfl
  have hsame := hparser p.blockMeta.keys (a,p)
  obtain ⟨hadv,hkeeps⟩ := h.books.finalizeOne (w := w) hdraw h.sound
  have hfollows : BlockParser.Follows draw l.settle p.parser :=
    ⟨h.parser.pending,h.parser.current,h.parser.drawn⟩
  exact ⟨⟨hsame.symm ▸ hfollows,hadv.sound,hadv.books⟩,hsame,hadv.others,hkeeps⟩

theorem Held.feed (h : Held draw l s) (hdraw : Function.Injective draw) (bytes : Bytes) :
    Held draw (BlockParser.ledgerAfter vte s.2.parser.parser l bytes)
        (PaneParserState.feed w mode pane session vte draw s bytes) ∧
      (PaneParserState.feed w mode pane session vte draw s bytes).2.parser.parser =
        (vte.run s.2.parser.parser bytes).1 ∧
      (∀ c, (∀ i, draw i ≠ c) →
        s.1.Same (PaneParserState.feed w mode pane session vte draw s bytes).1 c) ∧
      (l.Open → s.1.Keeps (PaneParserState.feed w mode pane session vte draw s bytes).1) := by
  obtain ⟨hevents,hfollows⟩ := h.parser.feed vte bytes
  set fed : Archive × PaneParserState σ :=
    (s.1,{ s.2 with parser := (s.2.parser.feed vte draw bytes).1 }) with hfed
  have hbooks : Books draw l fed.1 fed.2 :=
    ⟨h.books.running,h.books.writers,h.books.row,h.books.documents,h.books.fresh⟩
  have hrun : PaneParserState.feed w mode pane session vte draw s bytes =
      (s.2.parser.feed vte draw bytes).2.foldl (PaneParserState.handle w mode pane session) fed :=
    rfl
  obtain ⟨hadv,hkeeps⟩ : Advances draw _ fed _ ∧ (l.Open → fed.1.Keeps _) :=
    hrun ▸ hbooks.handleAll hdraw h.sound hevents
  have hparser : (PaneParserState.feed w mode pane session vte draw s bytes).2.parser =
      (s.2.parser.feed vte draw bytes).1 := (parser_handleAll _ fed).1
  exact ⟨⟨hparser ▸ hfollows,hadv.sound,hadv.books⟩,congrArg BlockParser.parser hparser,
    hadv.others,hkeeps⟩

theorem Held.feedAll (h : Held draw l s) (hdraw : Function.Injective draw) (chunks : List Bytes) :
    Held draw (BlockParser.ledgerAfter vte s.2.parser.parser l chunks.flatten)
        (chunks.foldl (PaneParserState.feed w mode pane session vte draw) s) ∧
      ∀ c, (∀ i, draw i ≠ c) →
        s.1.Same (chunks.foldl (PaneParserState.feed w mode pane session vte draw) s).1 c := by
  induction chunks generalizing l s with
  | nil => exact ⟨h,fun c _ => Archive.Same.refl s.1 c⟩
  | cons bytes chunks ih =>
    obtain ⟨hheld,hstate,hothers,-⟩ :
        Held draw _ (PaneParserState.feed w mode pane session vte draw s bytes) ∧ _ ∧ _ ∧ _ :=
      h.feed hdraw bytes
    obtain ⟨hrest,hothers'⟩ := ih hheld
    rw [hstate,← BlockParser.ledgerAfter_append] at hrest
    exact ⟨hrest,fun c hc => (hothers c hc).trans (hothers' c hc)⟩

theorem isSome_finalizeBlock (a : Archive) (b c : BlockId) (endedAt : Int) (exit : Option Int)
    (len : Nat) : ((a.finalizeBlock b endedAt exit len).rows.lookup c).isSome =
      (a.rows.lookup c).isSome := by
  by_cases hc : c = b
  · subst hc
    cases hrow : a.rows.lookup c with
    | none => simp [Archive.finalizeBlock,hrow]
    | some row => rw [Archive.lookup_finalizeBlock_self hrow]; rfl
  · rw [Archive.lookup_finalizeBlock_ne hc]

/-- The drain ends the blocks that have a writer, and indexes nothing. -/
theorem drain_spec (w : World) (a : Archive) (p : PaneParserState σ) (c : BlockId) :
    (p.drain w a).indexed c = a.indexed c ∧
      ((p.drain w a).rows.lookup c).isSome = (a.rows.lookup c).isSome ∧
      (c ∉ p.writers → (p.drain w a).rows.lookup c = a.rows.lookup c) := by
  rw [AList.mem_keys,PaneParserState.drain]
  induction p.writers.keys generalizing a with
  | nil => exact ⟨rfl,rfl,fun _ => rfl⟩
  | cons b bs ih =>
    obtain ⟨hindexed,hsome,hrow⟩ :=
      ih (a.finalizeBlock b (w.now a.turns) none (p.closeWriter w a b)).turn
    refine ⟨hindexed.trans ?_,hsome.trans (isSome_finalizeBlock a b c _ none _),fun hc => ?_⟩
    · rw [Archive.indexed_turn,Archive.indexed,Archive.documents_finalizeBlock,Archive.indexed]
    · rw [List.mem_cons,not_or] at hc
      exact (hrow hc.2).trans (Archive.lookup_finalizeBlock_ne hc.1 _ none _)

/-- The end of a block is in the store. -/
def Archive.Ended (a : Archive) (b : BlockId) : Prop :=
  ∃ row, a.rows.lookup b = some row ∧ row.endedAt.isSome

/-- A parser's blocks in the archive: the rows that there are, those that have their end and
one document, and those that have none. -/
structure Archive.Records (a : Archive) (draw : Nat → BlockId) (l : Ledger) : Prop where
  row : ∀ i, (a.rows.lookup (draw i)).isSome ↔ i < l.drawn
  finished : ∀ i < l.drawn, i ∉ l.unfinished → a.Ended (draw i) ∧ a.indexed (draw i) = 1
  running : ∀ i, l.drawn ≤ i ∨ i ∈ l.unfinished → a.indexed (draw i) = 0

theorem Books.records (h : Books draw l a p) : a.Records draw l where
  row i := by
    constructor
    · intro hsome
      by_contra hle
      rw [h.fresh i (not_lt.mp hle)] at hsome
      cases hsome
    · intro hi
      obtain ⟨row,hrow,-⟩ := h.row i hi
      exact Option.isSome_of_mem hrow
  finished i hi hnot := by
    obtain ⟨row,hrow,hend⟩ := h.row i hi
    refine ⟨⟨row,hrow,?_⟩,by rw [h.documents,if_pos ⟨hi,hnot⟩]⟩
    exact Option.isSome_iff_ne_none.mpr fun hnone => hnot (hend.mp hnone)
  running i hi := by
    rw [h.documents,if_neg]
    rintro ⟨hlt,hnot⟩
    exact hi.elim (not_le.mpr hlt) hnot

theorem Archive.Records.finished_iff (h : a.Records draw l) (hsound : l.Sound) :
    (∀ i, (a.rows.lookup (draw i)).isSome → a.Ended (draw i) ∧ a.indexed (draw i) = 1) ↔
      l.unfinished = [] := by
  constructor
  · intro hall
    refine List.eq_nil_iff_forall_not_mem.mpr fun i hi => ?_
    have hone := (hall i ((h.row i).mpr (hsound.unfinished i hi))).2
    rw [h.running i (Or.inr hi)] at hone
    cases hone
  · intro hnil i hsome
    exact h.finished i ((h.row i).mp hsome) (by simp [hnil])

/-- Two archives in which all is finished have the same blocks just if they have as many. -/
theorem Archive.Records.same_iff {draw' : Nat → BlockId} (h : a.Records draw l)
    (h' : a'.Records draw' l') (hnil : l.unfinished = []) (hnil' : l'.unfinished = []) :
    (∀ i, (a.Ended (draw i) ↔ a'.Ended (draw' i)) ∧ a.indexed (draw i) = a'.indexed (draw' i)) ↔
      l.drawn = l'.drawn := by
  have hone : ∀ {a : Archive} {draw : Nat → BlockId} {l : Ledger}, a.Records draw l →
      l.unfinished = [] → ∀ i, (a.Ended (draw i) ↔ i < l.drawn) ∧
        a.indexed (draw i) = if i < l.drawn then 1 else 0 := by
    intro a draw l h hnil i
    by_cases hi : i < l.drawn
    · obtain ⟨hended,hindexed⟩ := h.finished i hi (by simp [hnil])
      simp [hi,hended,hindexed]
    · refine ⟨iff_of_false ?_ hi,by rw [h.running i (Or.inl (not_lt.mp hi)),if_neg hi]⟩
      rintro ⟨row,hrow,-⟩
      exact hi ((h.row i).mp (Option.isSome_of_mem hrow))
  constructor
  · intro hall
    have hlt : ∀ i, i < l.drawn ↔ i < l'.drawn := fun i =>
      (hone h hnil i).1.symm.trans ((hall i).1.trans (hone h' hnil' i).1)
    have h₁ := hlt l.drawn
    have h₂ := hlt l'.drawn
    omega
  · intro heq i
    rw [(hone h hnil i).1,(hone h' hnil' i).1,(hone h hnil i).2,(hone h' hnil' i).2,heq]
    exact ⟨Iff.rfl,rfl⟩

/-- What the parser task leaves of a stream, however it was cut. -/
theorem recordPane_records (w : World) (vte : Vte σ) (hdraw : Function.Injective draw)
    (pane : PaneId) (session : SessionId) (chunks : List Bytes) :
    (recordPane w vte draw pane session chunks).Records draw
        (BlockParser.ledgerOf vte chunks.flatten) ∧
      ∀ b, ((recordPane w vte draw pane session chunks).rows.lookup b).isSome →
        ∃ i, draw i = b := by
  set s : Archive × PaneParserState σ :=
    (.empty,{ PaneParserState.new vte session with paneId := some pane }) with hs
  have hstart : Held draw .start s := by
    exact (held_new vte draw session (a := .empty) fun i => ⟨rfl,rfl⟩).withPane (some pane)
  set t := chunks.foldl (PaneParserState.feed w .single pane session vte draw) s with ht
  obtain ⟨hheld,hothers⟩ :
      Held draw (BlockParser.ledgerOf vte chunks.flatten) t ∧ ∀ c, _ → s.1.Same t.1 c :=
    hstart.feedAll hdraw chunks
  have hrun : recordPane w vte draw pane session chunks = t.2.drain w t.1 := rfl
  have hspec := drain_spec w t.1 t.2
  have hrec := hheld.books.records
  rw [hrun]
  refine ⟨⟨fun i => ?_,fun i hi hnot => ?_,fun i hi => ?_⟩,fun b hb => ?_⟩
  · rw [(hspec (draw i)).2.1,hrec.row]
  · obtain ⟨⟨row,hrow,hend⟩,hone⟩ := hrec.finished i hi hnot
    have hclosed : draw i ∉ t.2.writers := fun hmem =>
      hnot ((hheld.books.mem_draw hdraw).mp (hheld.books.writers _ hmem))
    exact ⟨⟨row,((hspec (draw i)).2.2 hclosed).trans hrow,hend⟩,(hspec (draw i)).1.trans hone⟩
  · rw [(hspec (draw i)).1,hrec.running i hi]
  · by_contra hnone
    have hc : ∀ i, draw i ≠ b := fun i heq => hnone ⟨i,heq⟩
    rw [(hspec b).2.1,(hothers b hc).row] at hb
    cases hb

end Keeping

end Pyre.Blocks
