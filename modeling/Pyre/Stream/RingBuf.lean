import Mathlib.Data.List.Rotate
import Pyre.Base.Replay
import Pyre.Proto

/-!
The circular buffer in which a pane keeps the end of its output for clients that
attach later. What it holds is the last `cap` bytes of all that was pushed.
-/

set_option autoImplicit false

namespace Pyre.Stream
open Base

/-- The oldest byte stands at `head`; that is 0 until the buffer is full. -/
structure RingBuf where
  buf : Bytes
  head : Nat
  len : Nat
  cap : Nat
  size : buf.length = cap
  len_le : len ≤ cap
  head_lt : 0 < cap → head < cap
  full : head ≠ 0 → len = cap

namespace RingBuf

def new (cap : Nat) : RingBuf where
  buf := List.replicate cap 0
  head := 0
  len := 0
  cap := cap
  size := List.length_replicate
  len_le := Nat.zero_le cap
  head_lt := id
  full := fun h => absurd rfl h

/-- The body of the loop in `push`. -/
def pushByte (r : RingBuf) (b : UInt8) : RingBuf :=
  let writePos := (r.head+r.len) % r.cap
  if h : r.len < r.cap then
    { r with
      buf := r.buf.set writePos b
      len := r.len+1
      size := by rw [List.length_set,r.size]
      len_le := h
      full := fun hne => absurd (r.full hne) h.ne }
  else
    { r with
      buf := r.buf.set writePos b
      head := (r.head+1) % r.cap
      size := by rw [List.length_set,r.size]
      head_lt := fun hcap => Nat.mod_lt _ hcap
      full := fun _ => le_antisymm r.len_le (not_lt.mp h) }

def push (r : RingBuf) (bytes : Bytes) : RingBuf :=
  if r.cap = 0 ∨ bytes = [] then r
  else
    let bytes := if r.cap ≤ bytes.length then bytes.drop (bytes.length - r.cap) else bytes
    bytes.foldl pushByte r

def snapshot (r : RingBuf) : Bytes :=
  if r.len = 0 then []
  else if r.head+r.len ≤ r.cap then (r.buf.drop r.head).take r.len
  else r.buf.drop r.head ++ r.buf.take (r.len - (r.cap - r.head))

@[simp] theorem cap_new (cap : Nat) : (new cap).cap = cap := rfl

@[simp] theorem snapshot_new (cap : Nat) : (new cap).snapshot = [] := by simp [snapshot,new]

@[simp] theorem buf_pushByte (r : RingBuf) (b : UInt8) :
    (r.pushByte b).buf = r.buf.set ((r.head+r.len) % r.cap) b := by
  by_cases h : r.len < r.cap <;> simp [pushByte,h]

theorem head_pushByte (r : RingBuf) (b : UInt8) :
    (r.pushByte b).head = if r.len < r.cap then r.head else (r.head+1) % r.cap := by
  by_cases h : r.len < r.cap <;> simp [pushByte,h]

theorem len_pushByte (r : RingBuf) (b : UInt8) :
    (r.pushByte b).len = if r.len < r.cap then r.len+1 else r.len := by
  by_cases h : r.len < r.cap <;> simp [pushByte,h]

@[simp] theorem cap_pushByte (r : RingBuf) (b : UInt8) : (r.pushByte b).cap = r.cap := by
  by_cases h : r.len < r.cap <;> simp [pushByte,h]

theorem cap_foldl_pushByte (bytes : Bytes) (r : RingBuf) :
    (bytes.foldl pushByte r).cap = r.cap := by
  induction bytes generalizing r with
  | nil => rfl
  | cons b bytes ih => rw [List.foldl_cons,ih,cap_pushByte]

@[simp] theorem cap_push (r : RingBuf) (bytes : Bytes) : (r.push bytes).cap = r.cap := by
  unfold push
  split
  · rfl
  · exact cap_foldl_pushByte _ r

/-- Read from `head` on and around. -/
theorem snapshot_eq (r : RingBuf) :
    r.snapshot = (r.buf.drop r.head ++ r.buf.take r.head).take r.len := by
  have hsize := r.size
  unfold snapshot
  split
  · rename_i h0
    rw [h0,List.take_zero]
  split
  · rename_i hfit
    rw [List.take_append_of_le_length]
    rw [List.length_drop]
    omega
  · rename_i hwrap
    -- only a full buffer wraps around
    have hlen := r.len_le
    have hfull : r.len = r.cap := r.full (by omega)
    have hhead : r.head < r.cap := r.head_lt (by omega)
    have hrest : r.len - (r.cap - r.head) = r.head := by omega
    have hall : (r.buf.drop r.head ++ r.buf.take r.head).length ≤ r.len := by
      rw [List.length_append,List.length_drop,List.length_take]
      omega
    rw [hrest,List.take_of_length_le hall]

theorem length_snapshot_le (r : RingBuf) : r.snapshot.length ≤ r.cap := by
  rw [snapshot_eq,List.length_take]
  exact (min_le_left _ _).trans r.len_le

theorem snapshot_pushByte {r : RingBuf} (hcap : 0 < r.cap) (b : UInt8) :
    (r.pushByte b).snapshot = (r.snapshot ++ [b]).rtake r.cap := by
  have hsize := r.size
  have hhead := r.head_lt hcap
  simp only [snapshot_eq,buf_pushByte,head_pushByte,len_pushByte]
  by_cases h : r.len < r.cap
  · have h0 : r.head = 0 := by
      by_contra hne
      exact absurd (r.full hne) h.ne
    have hfit : (r.buf.take r.len ++ [b]).length ≤ r.cap := by
      rw [List.length_append,List.length_take,List.length_singleton]
      omega
    simp only [h,if_true,h0,Nat.zero_add,Nat.mod_eq_of_lt h,List.drop_zero,List.take_zero,
      List.append_nil,rtake_of_length_le hfit]
    rw [List.take_add_one,List.take_set_of_le (le_refl _)]
    simp [hsize,h]
  · have hlen : r.len = r.cap := le_antisymm r.len_le (not_lt.mp h)
    have hpos : (r.head+r.cap) % r.cap = r.head := by
      rw [Nat.add_mod_right,Nat.mod_eq_of_lt hhead]
    -- the oldest byte is overwritten and the head moves on
    have hhd : r.head < r.buf.length := hsize ▸ hhead
    have haround : ∀ buf : Bytes, buf.length = r.cap →
        buf.drop ((r.head+1) % r.cap) ++ buf.take ((r.head+1) % r.cap) =
          buf.drop (r.head+1) ++ buf.take (r.head+1) := by
      intro buf hbuf
      have hle : r.head+1 ≤ buf.length := by omega
      rw [← hbuf,← List.rotate_eq_drop_append_take_mod,List.rotate_eq_drop_append_take hle]
    have hset : (r.buf.set r.head b).take (r.head+1) = r.buf.take r.head ++ [b] := by
      rw [List.take_add_one,List.take_set_of_le (le_refl _)]
      simp [hhd]
    have hdrop : (r.buf.set r.head b).drop (r.head+1) = r.buf.drop (r.head+1) :=
      List.drop_set_of_lt (Nat.lt_succ_self _)
    rw [if_neg h,if_neg h,hlen,hpos,haround _ (by rw [List.length_set,hsize]),hset,hdrop,
      List.drop_eq_getElem_cons hhd]
    have hone : (r.buf.drop (r.head+1) ++ r.buf.take r.head).length + 1 = r.cap := by
      rw [List.length_append,List.length_drop,List.length_take]
      omega
    generalize r.buf[r.head] = oldest
    rw [← List.append_assoc,List.cons_append]
    generalize r.buf.drop (r.head+1) ++ r.buf.take r.head = rest at hone ⊢
    rw [← hone,List.take_of_length_le (by simp),List.take_of_length_le (by simp)]
    simp [List.rtake]

theorem snapshot_foldl_pushByte {r : RingBuf} (hcap : 0 < r.cap) (bytes : Bytes) :
    (bytes.foldl pushByte r).snapshot = (r.snapshot ++ bytes).rtake r.cap := by
  induction bytes generalizing r with
  | nil => rw [List.append_nil,rtake_of_length_le r.length_snapshot_le,List.foldl_nil]
  | cons b bytes ih =>
    have hcap' : 0 < (r.pushByte b).cap := by rwa [cap_pushByte]
    rw [List.foldl_cons,ih hcap',snapshot_pushByte hcap,cap_pushByte,rtake_rtake_append,
      List.append_assoc,List.singleton_append]

/-- The buffer keeps the last `cap` bytes of what it held and what is pushed. -/
theorem snapshot_push (r : RingBuf) (bytes : Bytes) :
    (r.push bytes).snapshot = (r.snapshot ++ bytes).rtake r.cap := by
  unfold push
  split
  · rename_i hkeep
    rcases hkeep with hcap | rfl
    · have hempty : r.snapshot = [] := by
        have hle := r.length_snapshot_le
        rw [hcap] at hle
        exact List.length_eq_zero_iff.mp (Nat.le_zero.mp hle)
      rw [hempty,hcap,List.rtake_zero]
    · rw [List.append_nil,rtake_of_length_le r.length_snapshot_le]
  · rename_i hkeep
    have hcap : 0 < r.cap := Nat.pos_of_ne_zero fun h => hkeep (Or.inl h)
    rw [snapshot_foldl_pushByte hcap]
    split
    · -- the bytes cut off in advance would all have been evicted
      rename_i hlong
      simp only [List.rtake,List.length_append,List.length_drop,List.drop_append,List.drop_drop]
      congr 1
      · rw [List.drop_eq_nil_of_le (by omega),List.drop_eq_nil_of_le (by omega)]
      · congr 1
        omega
    · rfl

/-- Pushed chunk by chunk, from an empty buffer. -/
theorem snapshot_push_stream {r : RingBuf} {chunks : List Bytes}
    (h : r.snapshot = chunks.flatten.rtake r.cap) (chunk : Bytes) :
    (r.push chunk).snapshot = (chunks ++ [chunk]).flatten.rtake (r.push chunk).cap := by
  rw [snapshot_push,h,cap_push,rtake_rtake_append,List.flatten_append,List.flatten_singleton]

end RingBuf

end Pyre.Stream
