import Pyre.Stream.Mirror

/-!
The two copies that are kept of the end of a pane's output: the worker's ring and the snapshot of
the supervisor's hub. With one capacity they hold the same bytes, however the stream is cut up.
-/

set_option autoImplicit false

namespace Pyre.Stream
open Base

theorem length_rtake (cap : Nat) (bytes : Bytes) : (bytes.rtake cap).length = min cap bytes.length := by
  rw [List.rtake,List.length_drop]
  omega

theorem rtake_min (cap : Nat) (bytes : Bytes) :
    bytes.rtake (min cap bytes.length) = bytes.rtake cap := by
  rw [List.rtake,List.rtake]
  congr 1
  omega

namespace RingBuf

/-- `len` counts the bytes that the snapshot has. -/
theorem length_snapshot (r : RingBuf) : r.snapshot.length = r.len := by
  have hsize := r.size
  have hlen := r.len_le
  rw [snapshot_eq,List.length_take,List.length_append,List.length_drop,List.length_take]
  rcases Nat.eq_zero_or_pos r.cap with hzero | hpos
  · omega
  · have hhead := r.head_lt hpos
    omega

theorem snapshot_foldl_push (chunks : List Bytes) (r : RingBuf) :
    (chunks.foldl push r).snapshot = (r.snapshot ++ chunks.flatten).rtake r.cap := by
  induction chunks generalizing r with
  | nil => simp [rtake_of_length_le r.length_snapshot_le]
  | cons chunk chunks ih =>
    rw [List.foldl_cons,ih,snapshot_push,cap_push,rtake_rtake_append,List.flatten_cons,
      List.append_assoc]

end RingBuf

theorem foldl_appendCapped (cap : Nat) (frames : List Bytes) {snap : Bytes}
    (h : snap.length ≤ cap) :
    frames.foldl (appendCapped cap) snap = (snap ++ frames.flatten).rtake cap := by
  induction frames generalizing snap with
  | nil => simp [rtake_of_length_le h]
  | cons data frames ih =>
    have hcapped := appendCapped_eq cap snap data
    have hlength : (appendCapped cap snap data).length ≤ cap := by
      rw [hcapped,length_rtake]
      omega
    rw [List.foldl_cons,ih hlength,hcapped,rtake_rtake_append,List.flatten_cons,List.append_assoc]

/-- For any capacity and any chunks: the ring has the last bytes of them all, as many as fit, and
so has the snapshot, from any frames that carry the stream. -/
theorem scrollback_tail (cap : Nat) (chunks : List Bytes) :
    ((chunks.foldl RingBuf.push (.new cap)).snapshot =
      chunks.flatten.rtake (min cap chunks.flatten.length)) ∧
    (chunks.foldl RingBuf.push (.new cap)).snapshot.length = min cap chunks.flatten.length ∧
    (chunks.foldl RingBuf.push (.new cap)).len = min cap chunks.flatten.length ∧
    ∀ frames : List Bytes, frames.flatten = chunks.flatten →
      frames.foldl (appendCapped cap) [] = (chunks.foldl RingBuf.push (.new cap)).snapshot := by
  have hring : (chunks.foldl RingBuf.push (.new cap)).snapshot = chunks.flatten.rtake cap := by
    rw [RingBuf.snapshot_foldl_push,RingBuf.snapshot_new,RingBuf.cap_new,List.nil_append]
  have hlength := length_rtake cap chunks.flatten
  refine ⟨by rw [hring,rtake_min],by rw [hring,hlength],?_,fun frames heq => ?_⟩
  · rw [← RingBuf.length_snapshot,hring,hlength]
  · rw [foldl_appendCapped cap frames (by simp),hring,heq,List.nil_append]

end Pyre.Stream
