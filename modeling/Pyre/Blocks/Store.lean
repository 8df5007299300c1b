import Pyre.Base.Table
import Pyre.Proto

/-!
The part of the store that keeps blocks: a row for each block, and a compressed
blob for its output. A blob is written through an encoder that keeps back part
of the frame until it is closed.
-/

set_option autoImplicit false

namespace Pyre.Blocks
open Base

/-- The compressor: the frame of a list of writes once the encoder is finished,
what of it has reached the file while the encoder is open, and the decoder. -/
structure Zstd where
  frame : List Bytes → Bytes
  spill : List Bytes → Bytes
  decode : Bytes → Option Bytes

structure Zstd.Lawful (z : Zstd) : Prop where
  decode_frame : ∀ ws, z.decode (z.frame ws) = some ws.flatten
  spill_lt_frame : ∀ ws, ∃ rest, rest ≠ [] ∧ z.spill ws ++ rest = z.frame ws
  decode_truncated : ∀ ws front rest, rest ≠ [] → front ++ rest = z.frame ws →
    z.decode front = none

theorem Zstd.Lawful.decode_spill {z : Zstd} (hz : z.Lawful) (ws : List Bytes) :
    z.decode (z.spill ws) = none := by
  obtain ⟨rest,hne,hrest⟩ := hz.spill_lt_frame ws
  exact hz.decode_truncated ws _ rest hne hrest

/-- A row of `blocks`; `ended` says that `ended_at` is set. -/
structure Block where
  pane : PaneId
  session : SessionId
  command : Text
  cwd : Option Text
  ended : Bool
  exitCode : Option Int
  stdoutLen : Nat
  deriving DecidableEq, Repr

structure Store where
  rows : Table BlockId Block
  blobs : Table BlockId Bytes
  deriving DecidableEq

structure BlobWriter where
  writes : List Bytes
  len : Nat
  deriving DecidableEq, Repr

namespace Store

def empty : Store := ⟨∅,∅⟩

/-- The insertion fails on an id that has a row. -/
def createBlock (st : Store) (b : BlockId) (block : Block) : Option Store :=
  if (st.rows.lookup b).isSome then none else some { st with rows := st.rows.insert b block }

def finalizeBlock (st : Store) (b : BlockId) (exit : Option Int) (stdoutLen : Nat) : Store :=
  match st.rows.lookup b with
  | some row =>
    { st with
      rows := st.rows.insert b
        { row with ended := true, exitCode := exit, stdoutLen := stdoutLen } }
  | none => st

/-- The stamp `Store::open` puts on the rows a killed daemon left running. -/
def reconcile (st : Store) : Store :=
  { st with
    rows := st.rows.mapValues fun row =>
      if row.ended then row else { row with ended := true, exitCode := none } }

def setBlob (st : Store) (b : BlockId) (file : Bytes) : Store :=
  { st with blobs := st.blobs.insert b file }

variable (z : Zstd)

def readBlockStdout (st : Store) (b : BlockId) : Option Bytes :=
  match st.blobs.lookup b with
  | none => some []
  | some file => z.decode file

def openWriter (st : Store) (b : BlockId) : Store × BlobWriter := (st.setBlob b (z.spill []),⟨[],0⟩)

def write (st : Store) (b : BlockId) (w : BlobWriter) (data : Bytes) : Store × BlobWriter :=
  (st.setBlob b (z.spill (w.writes ++ [data])),⟨w.writes ++ [data],w.len + data.length⟩)

def close (st : Store) (b : BlockId) (w : BlobWriter) : Store × Nat :=
  (st.setBlob b (z.frame w.writes),w.len)

end Store

section Lookups

variable {st : Store} {b c : BlockId}

theorem lookup_setBlob_ne (h : b ≠ c) (file : Bytes) :
    (st.setBlob c file).blobs.lookup b = st.blobs.lookup b := AList.lookup_insert_ne h

theorem lookup_setBlob_self (file : Bytes) : (st.setBlob b file).blobs.lookup b = some file :=
  AList.lookup_insert _

theorem lookup_finalizeBlock_ne (st : Store) (h : b ≠ c) (exit : Option Int) (len : Nat) :
    (st.finalizeBlock c exit len).rows.lookup b = st.rows.lookup b ∧
      (st.finalizeBlock c exit len).blobs = st.blobs := by
  unfold Store.finalizeBlock
  cases st.rows.lookup c with
  | none => exact ⟨rfl,rfl⟩
  | some row => exact ⟨AList.lookup_insert_ne h,rfl⟩

theorem lookup_finalizeBlock_self {row : Block} (h : st.rows.lookup b = some row)
    (exit : Option Int) (len : Nat) :
    (st.finalizeBlock b exit len).rows.lookup b =
      some { row with ended := true, exitCode := exit, stdoutLen := len } := by
  simp [Store.finalizeBlock,h]

end Lookups

/-- A stand-in for the compressor that keeps everything back until it is closed. -/
def plainZstd : Zstd where
  frame ws := ws.flatten.flatMap (fun b => [1,b]) ++ [0]
  spill _ := []
  decode := go
where
  go : Bytes → Option Bytes
    | 0 :: [] => some []
    | 1 :: b :: file => (go file).map (b :: ·)
    | _ => none

theorem plainZstd_lawful : plainZstd.Lawful := by
  have hdecode : ∀ data : Bytes,
      plainZstd.go (data.flatMap (fun b => [1,b]) ++ [0]) = some data := by
    intro data
    induction data with
    | nil => rfl
    | cons b data ih => simp [plainZstd.go,ih]
  have htruncated : ∀ data front rest : Bytes, rest ≠ [] →
      front ++ rest = data.flatMap (fun b => [1,b]) ++ [0] → plainZstd.go front = none := by
    intro data
    induction data with
    | nil =>
      intro front rest hne h
      cases front with
      | nil => rfl
      | cons a front =>
        have hrest : rest = [] := by
          simp at h
          exact h.2.2
        exact absurd hrest hne
    | cons b data ih =>
      intro front rest hne h
      match front with
      | [] => rfl
      | [a] =>
        obtain rfl : a = 1 := by simp at h; exact h.1
        rfl
      | a :: c :: front =>
        have h' : a = 1 ∧ c = b ∧ front ++ rest = data.flatMap (fun b => [1,b]) ++ [0] := by
          simpa using h
        obtain ⟨rfl,rfl,h'⟩ := h'
        simp [plainZstd.go,ih front rest hne h']
  refine ⟨fun ws => hdecode ws.flatten,fun ws => ⟨_,by simp [plainZstd],List.nil_append _⟩,?_⟩
  intro ws front rest hne h
  exact htruncated ws.flatten front rest hne h

end Pyre.Blocks
