import Pyre.Base.Loop

/-!
A chunk of input on its way to a pane's terminal: the worker's own loop over `write`, the
standard library's, which the daemon without workers calls, and the writer thread around them.
-/

set_option autoImplicit false

namespace Pyre.Worker
open Base

/-- `std::io::ErrorKind`, as far as a write tells its values apart. -/
inductive ErrorKind where
  | interrupted
  | writeZero
  | other (code : Nat)
  deriving DecidableEq, Repr

/-- What the writer answers while one buffer is written: to each call of `write` in turn, how
much it takes or an error, and to `flush`. -/
structure Answers where
  results : Nat → Except ErrorKind Nat
  flush : Except ErrorKind Unit

/-- A call takes no more than the slice it is given. -/
def Answers.write (a : Answers) (call : Nat) (slice : List UInt8) : Except ErrorKind Nat :=
  match a.results call with
  | .ok n => .ok (min n slice.length)
  | .error e => .error e

/-- The loop's `written` and, on the writer's side, the calls made and the bytes taken. -/
structure Writing where
  written : Nat
  calls : Nat
  accepted : List UInt8

def Writing.start : Writing := ⟨0,0,[]⟩

def Writing.accept (s : Writing) (slice : List UInt8) (n : Nat) : Writing :=
  ⟨s.written + n,s.calls + 1,s.accepted ++ slice.take n⟩

structure Returned where
  result : Except ErrorKind Unit
  accepted : List UInt8

/-- One turn of the `while` of `write_all_bytes`, or the `flush` after it. -/
def writeTurn (a : Answers) (buf : List UInt8) (s : Writing) : Returned ⊕ Writing :=
  if s.written < buf.length then
    match a.write s.calls (buf.drop s.written) with
    | .ok n => .inr (s.accept (buf.drop s.written) n)
    | .error e => .inl ⟨.error e,s.accepted⟩
  else .inl ⟨a.flush,s.accepted⟩

def writeAllBytes (a : Answers) (buf : List UInt8) (turns : Nat) : Option Returned :=
  loop (writeTurn a buf) turns .start

/-- One turn of `std::io::Write::write_all`. -/
def writeAllTurn (a : Answers) (buf : List UInt8) (s : Writing) : Returned ⊕ Writing :=
  if s.written < buf.length then
    match a.write s.calls (buf.drop s.written) with
    | .ok 0 => .inl ⟨.error .writeZero,s.accepted⟩
    | .ok (n + 1) => .inr (s.accept (buf.drop s.written) (n + 1))
    | .error .interrupted => .inr { s with calls := s.calls + 1 }
    | .error e => .inl ⟨.error e,s.accepted⟩
  else .inl ⟨.ok (),s.accepted⟩

def writeAll (a : Answers) (buf : List UInt8) (turns : Nat) : Option Returned :=
  loop (writeAllTurn a buf) turns .start

/-! The state before each call is known from the answers alone: what has been taken is the
front of the buffer. -/

def count : Except ErrorKind Nat → Nat
  | .ok n => n
  | .error _ => 0

/-- The counts among the first `k` answers, added up. -/
def Answers.taken (a : Answers) : Nat → Nat
  | 0 => 0
  | k + 1 => a.taken k + count (a.results k)

def Answers.course (a : Answers) (buf : List UInt8) (k : Nat) : Writing :=
  ⟨min (a.taken k) buf.length,k,buf.take (a.taken k)⟩

variable {a : Answers} {buf : List UInt8} {k n : Nat} {e : ErrorKind} {out : Returned}

theorem course_zero (a : Answers) (buf : List UInt8) : a.course buf 0 = .start := by
  simp [Answers.course,Answers.taken,Writing.start]

theorem monotone_taken (a : Answers) : Monotone a.taken :=
  monotone_nat_of_le_succ fun k => Nat.le_add_right (a.taken k) (count (a.results k))

theorem taken_idle (h : ∀ i, k ≤ i → count (a.results i) = 0) {i : Nat} (hki : k ≤ i) :
    a.taken i = a.taken k := by
  induction i, hki using Nat.le_induction with
  | base => rfl
  | succ i hki ih => rw [Answers.taken,h i hki,Nat.add_zero,ih]

theorem course_written (h : a.taken k < buf.length) : (a.course buf k).written = a.taken k :=
  Nat.min_eq_left h.le

theorem course_accept (h : a.taken k < buf.length) (hn : a.results k = .ok n) :
    (a.course buf k).accept (buf.drop (a.taken k)) (min n (buf.drop (a.taken k)).length) =
      a.course buf (k + 1) := by
  have htaken : a.taken (k + 1) = a.taken k + n := by simp [Answers.taken,hn,count]
  have htake : (buf.drop (a.taken k)).take (min n (buf.drop (a.taken k)).length) =
      (buf.drop (a.taken k)).take n := by
    rw [← List.take_take,List.take_length]
  rw [Writing.accept,htake,course_written h,List.length_drop]
  simp only [Answers.course,htaken,List.take_add]
  congr 1
  omega

theorem write_count (hn : a.results k = .ok n) (slice : List UInt8) :
    a.write k slice = .ok (min n slice.length) := by
  simp [Answers.write,hn]

theorem write_error (he : a.results k = .error e) (slice : List UInt8) :
    a.write k slice = .error e := by
  simp [Answers.write,he]

theorem writeTurn_done (h : buf.length ≤ a.taken k) :
    writeTurn a buf (a.course buf k) = .inl ⟨a.flush,buf⟩ := by
  simp [writeTurn,Answers.course,h]

theorem writeTurn_failed (h : a.taken k < buf.length) (he : a.results k = .error e) :
    writeTurn a buf (a.course buf k) = .inl ⟨.error e,buf.take (a.taken k)⟩ := by
  simp only [writeTurn,course_written h,h,if_true]
  simp only [Answers.course,write_error he]

theorem writeTurn_count (h : a.taken k < buf.length) (hn : a.results k = .ok n) :
    writeTurn a buf (a.course buf k) = .inr (a.course buf (k + 1)) := by
  rw [← course_accept h hn]
  simp only [writeTurn,course_written h,h,if_true]
  simp only [Answers.course,write_count hn]

theorem writeAllTurn_done (h : buf.length ≤ a.taken k) :
    writeAllTurn a buf (a.course buf k) = .inl ⟨.ok (),buf⟩ := by
  simp [writeAllTurn,Answers.course,h]

theorem writeAllTurn_zero (h : a.taken k < buf.length) (hn : a.results k = .ok 0) :
    writeAllTurn a buf (a.course buf k) = .inl ⟨.error .writeZero,buf.take (a.taken k)⟩ := by
  simp only [writeAllTurn,course_written h,h,if_true]
  simp only [Answers.course,write_count hn,Nat.zero_min]

theorem writeAllTurn_count (h : a.taken k < buf.length) (hn : a.results k = .ok (n + 1)) :
    writeAllTurn a buf (a.course buf k) = .inr (a.course buf (k + 1)) := by
  rw [← course_accept h hn]
  obtain ⟨m,hm⟩ : ∃ m, min (n + 1) (buf.drop (a.taken k)).length = m + 1 := by
    rw [List.length_drop]
    exact ⟨min n (buf.length - a.taken k - 1),by omega⟩
  simp only [writeAllTurn,course_written h,h,if_true]
  simp only [Answers.course,write_count hn,hm]

theorem writeAllTurn_interrupted (h : a.taken k < buf.length)
    (he : a.results k = .error .interrupted) :
    writeAllTurn a buf (a.course buf k) = .inr (a.course buf (k + 1)) := by
  simp only [writeAllTurn,course_written h,h,if_true]
  simp only [Answers.course,write_error he,Answers.taken,he,count,Nat.add_zero,
    Nat.min_eq_left h.le]

theorem writeAllTurn_failed (h : a.taken k < buf.length) (he : a.results k = .error e)
    (hne : e ≠ .interrupted) :
    writeAllTurn a buf (a.course buf k) = .inl ⟨.error e,buf.take (a.taken k)⟩ := by
  simp only [writeAllTurn,course_written h,h,if_true]
  simp only [Answers.course,write_error he]

/-! What a call that returns has left behind: the front of the buffer, in order, and all of it
where it succeeded. -/

structure Returned.Front (out : Returned) (buf : List UInt8) : Prop where
  front : out.accepted <+: buf
  whole : out.result = .ok () → out.accepted = buf

theorem front_failed (e : ErrorKind) (buf : List UInt8) (n : Nat) :
    Returned.Front ⟨.error e,buf.take n⟩ buf :=
  ⟨List.take_prefix n buf,by simp⟩

theorem front_done (result : Except ErrorKind Unit) (buf : List UInt8) :
    Returned.Front ⟨result,buf⟩ buf :=
  ⟨List.prefix_refl buf,fun _ => rfl⟩

/-! A loop that calls again after the answers in `again`, and only while bytes are left. -/

/-- The first `k` calls are made and the loop goes on after each. -/
def Answers.Through (a : Answers) (again : Except ErrorKind Nat → Prop) (len k : Nat) : Prop :=
  ∀ i < k, a.taken i < len ∧ again (a.results i)

structure CallsAgain (again : Except ErrorKind Nat → Prop) (a : Answers) (buf : List UInt8)
    (turn : Writing → Returned ⊕ Writing) : Prop where
  next : ∀ k, a.taken k < buf.length ∧ again (a.results k) →
    turn (a.course buf k) = .inr (a.course buf (k + 1))
  stop : ∀ k, ¬ (a.taken k < buf.length ∧ again (a.results k)) →
    ∃ out, turn (a.course buf k) = .inl out ∧ out.Front buf

variable {again : Except ErrorKind Nat → Prop} {turn : Writing → Returned ⊕ Writing}

theorem CallsAgain.goes (h : CallsAgain again a buf turn) (k : Nat) :
    (∃ t, turn (a.course buf k) = .inr t) ↔ a.taken k < buf.length ∧ again (a.results k) := by
  constructor
  · rintro ⟨t,ht⟩
    by_contra hnot
    obtain ⟨out,hout,-⟩ := h.stop k hnot
    simp [ht] at hout
  · exact fun hgo => ⟨_,h.next k hgo⟩

theorem CallsAgain.course (h : CallsAgain again a buf turn) : Course turn (a.course buf) := by
  intro k t ht
  rw [h.next k ((h.goes k).mp ⟨t,ht⟩),Sum.inr.injEq] at ht
  exact ht.symm

theorem CallsAgain.through_iff (h : CallsAgain again a buf turn) (k : Nat) :
    (∀ i < k, ∃ t, turn (a.course buf i) = .inr t) ↔ a.Through again buf.length k :=
  forall₂_congr fun i _ => h.goes i

theorem CallsAgain.returns_iff (h : CallsAgain again a buf turn) :
    Returns turn .start out ↔
      ∃ k, a.Through again buf.length k ∧ turn (a.course buf k) = .inl out := by
  rw [← course_zero a buf,h.course.returns_iff]
  exact exists_congr fun k => and_congr_left' (h.through_iff k)

theorem CallsAgain.front (h : CallsAgain again a buf turn) (hout : Returns turn .start out) :
    out.Front buf := by
  obtain ⟨k,-,hk⟩ := h.returns_iff.mp hout
  by_cases hgo : a.taken k < buf.length ∧ again (a.results k)
  · simp [h.next k hgo] at hk
  · obtain ⟨out',hout',hfront⟩ := h.stop k hgo
    rw [hout',Sum.inl.injEq] at hk
    exact hk ▸ hfront

/-- Where it calls again after every answer, it returns with no byte left. -/
theorem CallsAgain.nothing_left (h : CallsAgain again a buf turn) (hout : Returns turn .start out)
    (hall : ∀ k, again (a.results k)) :
    ∃ k, buf.length ≤ a.taken k ∧ turn (a.course buf k) = .inl out := by
  obtain ⟨k,-,hk⟩ := h.returns_iff.mp hout
  refine ⟨k,Nat.le_of_not_lt fun hlt => ?_,hk⟩
  simp [h.next k ⟨hlt,hall k⟩] at hk

/-- It ends unless the writer is called with bytes left and from then on takes none of them,
whatever it answers. -/
theorem CallsAgain.ends_iff (h : CallsAgain again a buf turn) :
    Ends turn .start ↔ ∀ k, a.Through again buf.length k → a.taken k < buf.length →
      ∃ i, k ≤ i ∧ ¬ (again (a.results i) ∧ count (a.results i) = 0) := by
  rw [← course_zero a buf,h.course.ends_iff]
  constructor
  · rintro ⟨i,out,hi⟩ k hthrough hleft
    by_contra hidle
    push Not at hidle
    obtain ⟨t,ht⟩ : ∃ t, turn (a.course buf i) = .inr t := by
      rw [h.goes]
      rcases Nat.lt_or_ge i k with hik | hki
      · exact hthrough i hik
      · rw [taken_idle (fun i hi => (hidle i hi).2) hki]
        exact ⟨hleft,(hidle i hki).1⟩
    simp [hi] at ht
  · intro hsome
    by_contra hnever
    push Not at hnever
    -- then every call is made, and the bytes taken, which never reach the end, stop growing
    have hall : ∀ k, a.taken k < buf.length ∧ again (a.results k) := by
      intro k
      rw [← h.goes]
      cases ht : turn (a.course buf k) with
      | inl out => exact absurd ht (hnever k out)
      | inr t => exact ⟨t,rfl⟩
    obtain ⟨k,hk⟩ := eventually_constant (monotone_taken a) fun k => (hall k).1.le
    obtain ⟨i,hki,hi⟩ := hsome k (fun i _ => hall i) (hall k).1
    refine hi ⟨(hall i).2,?_⟩
    have hnext := hk (i + 1) (Nat.le_succ_of_le hki)
    rw [Answers.taken,hk i hki] at hnext
    omega

/-- The worker's loop calls again after any count, nothing included. -/
def Counted (r : Except ErrorKind Nat) : Prop := ∃ n, r = .ok n

/-- The standard library's calls again after a count of some bytes and after a signal. -/
def Retried (r : Except ErrorKind Nat) : Prop := (∃ n, r = .ok (n + 1)) ∨ r = .error .interrupted

theorem counted_none_iff {r : Except ErrorKind Nat} : Counted r ∧ count r = 0 ↔ r = .ok 0 := by
  cases r <;> simp [Counted,count]

theorem retried_none_iff {r : Except ErrorKind Nat} :
    Retried r ∧ count r = 0 ↔ r = .error .interrupted := by
  cases r with
  | error e => simp [Retried,count]
  | ok n => cases n <;> simp [Retried,count]

theorem writeTurn_callsAgain (a : Answers) (buf : List UInt8) :
    CallsAgain Counted a buf (writeTurn a buf) := by
  refine ⟨?_,fun k hnot => ?_⟩
  · rintro k ⟨h,n,hn⟩
    exact writeTurn_count h hn
  · rcases Nat.lt_or_ge (a.taken k) buf.length with h | h
    · cases hr : a.results k with
      | error e => exact ⟨_,writeTurn_failed h hr,front_failed e buf (a.taken k)⟩
      | ok n => exact absurd ⟨h,n,hr⟩ hnot
    · exact ⟨_,writeTurn_done h,front_done a.flush buf⟩

theorem writeAllTurn_callsAgain (a : Answers) (buf : List UInt8) :
    CallsAgain Retried a buf (writeAllTurn a buf) := by
  refine ⟨?_,fun k hnot => ?_⟩
  · rintro k ⟨h,⟨n,hn⟩ | he⟩
    · exact writeAllTurn_count h hn
    · exact writeAllTurn_interrupted h he
  · rcases Nat.lt_or_ge (a.taken k) buf.length with h | h
    · rcases hr : a.results k with e | (_ | n)
      · by_cases he : e = .interrupted
        · exact absurd ⟨h,.inr (he ▸ hr)⟩ hnot
        · exact ⟨_,writeAllTurn_failed h hr he,front_failed e buf (a.taken k)⟩
      · exact ⟨_,writeAllTurn_zero h hr,front_failed .writeZero buf (a.taken k)⟩
      · exact absurd ⟨h,.inl ⟨n,hr⟩⟩ hnot
    · exact ⟨_,writeAllTurn_done h,front_done (.ok ()) buf⟩

theorem writeAllBytes_front {turns : Nat} (h : writeAllBytes a buf turns = some out) :
    out.Front buf :=
  (writeTurn_callsAgain a buf).front ⟨turns,h⟩

theorem writeAll_front {turns : Nat} (h : writeAll a buf turns = some out) : out.Front buf :=
  (writeAllTurn_callsAgain a buf).front ⟨turns,h⟩

/-- A call that writes a whole buffer: it comes to an end, with nothing lost or sent twice where
it succeeds, and a signal is no reason to stop. -/
structure WritesAll (call : Answers → List UInt8 → Nat → Option Returned) (a : Answers)
    (buf : List UInt8) : Prop where
  ends : ∃ turns out, call a buf turns = some out
  whole : ∀ turns out, call a buf turns = some out → out.result = .ok () → out.accepted = buf
  persists : ∀ turns out, call a buf turns = some out → out.result ≠ .error .interrupted

/-- While bytes of the buffer are left, no call is interrupted and none is the first of calls
that take nothing for ever; and where all are taken, the flush is not interrupted. -/
structure Answers.Steady (a : Answers) (len : Nat) : Prop where
  unbroken : ∀ k, a.Through Counted len k → a.taken k < len → a.results k ≠ .error .interrupted
  unstalled : ∀ k, a.Through Counted len k → a.taken k < len → ∃ i, k ≤ i ∧ a.results i ≠ .ok 0
  flushed : ∀ k, a.Through Counted len k → len ≤ a.taken k → a.flush ≠ .error .interrupted

theorem writeAllBytes_ends_iff (a : Answers) (buf : List UInt8) :
    (∃ turns out, writeAllBytes a buf turns = some out) ↔
      ∀ k, a.Through Counted buf.length k → a.taken k < buf.length →
        ∃ i, k ≤ i ∧ a.results i ≠ .ok 0 := by
  have h := (writeTurn_callsAgain a buf).ends_iff
  simp only [counted_none_iff] at h
  exact exists_comm.trans h

theorem writeAllBytes_persists_iff (a : Answers) (buf : List UInt8) :
    (∀ turns out, writeAllBytes a buf turns = some out → out.result ≠ .error .interrupted) ↔
      ∀ k, a.Through Counted buf.length k →
        (a.taken k < buf.length → a.results k ≠ .error .interrupted) ∧
        (buf.length ≤ a.taken k → a.flush ≠ .error .interrupted) := by
  have hreturns : ∀ out, Returns (writeTurn a buf) .start out ↔
      ∃ k, a.Through Counted buf.length k ∧ writeTurn a buf (a.course buf k) = .inl out :=
    fun out => (writeTurn_callsAgain a buf).returns_iff
  constructor
  · intro hnot k hthrough
    refine ⟨fun hlt he => ?_,fun hle he => ?_⟩
    · obtain ⟨turns,hturns⟩ := (hreturns _).mpr ⟨k,hthrough,writeTurn_failed hlt he⟩
      exact hnot turns _ hturns rfl
    · obtain ⟨turns,hturns⟩ := (hreturns _).mpr ⟨k,hthrough,writeTurn_done hle⟩
      exact hnot turns _ hturns he
  · intro hsteady turns out hturns he
    obtain ⟨k,hthrough,hk⟩ := (hreturns _).mp ⟨turns,hturns⟩
    obtain ⟨hcall,hflush⟩ := hsteady k hthrough
    rcases Nat.lt_or_ge (a.taken k) buf.length with hlt | hle
    · cases hr : a.results k with
      | error e =>
        rw [writeTurn_failed hlt hr,Sum.inl.injEq] at hk
        subst hk
        obtain rfl : e = .interrupted := by simpa using he
        exact hcall hlt hr
      | ok n => simp [writeTurn_count hlt hr] at hk
    · rw [writeTurn_done hle,Sum.inl.injEq] at hk
      subst hk
      exact hflush hle he

theorem writes_all_iff (a : Answers) (buf : List UInt8) :
    WritesAll writeAllBytes a buf ↔ a.Steady buf.length := by
  have hends := writeAllBytes_ends_iff a buf
  have hpersists := writeAllBytes_persists_iff a buf
  constructor
  · intro h
    have hk := hpersists.mp h.persists
    exact ⟨fun k hthrough => (hk k hthrough).1,hends.mp h.ends,fun k hthrough => (hk k hthrough).2⟩
  · intro h
    -- success is whole whatever the writer answers
    exact {
      ends := hends.mpr h.unstalled
      whole := fun _ _ hcall => (writeAllBytes_front hcall).whole
      persists := hpersists.mpr fun k hthrough => ⟨h.unbroken k hthrough,h.flushed k hthrough⟩ }

/-- The answer is a signal to the first call, and then a byte each time. -/
def interruptedOnce : Answers :=
  ⟨fun call => if call = 0 then .error .interrupted else .ok 1,.ok ()⟩

/-- The writer has no room and never will. -/
def neverRoom : Answers := ⟨fun _ => .ok 0,.ok ()⟩

/-- One key: a signal during its write ends the call with nothing written, and a writer without
room keeps it from ending at all. -/
theorem key_not_written :
    (writeAllBytes interruptedOnce [0x03] 1).map Returned.result = some (.error .interrupted) ∧
      ¬ WritesAll writeAllBytes interruptedOnce [0x03] ∧
      ¬ WritesAll writeAllBytes neverRoom [0x03] := by
  refine ⟨rfl,fun h => h.persists 1 _ rfl rfl,fun h => ?_⟩
  have hfirst : neverRoom.Through Counted 1 0 := by simp [Answers.Through]
  obtain ⟨i,-,hi⟩ := (writeAllBytes_ends_iff neverRoom [0x03]).mp h.ends 0 hfirst (by decide)
  exact hi rfl

theorem writeAllTurn_persists {s : Writing} (h : writeAllTurn a buf s = .inl out) :
    out.result ≠ .error .interrupted := by
  unfold writeAllTurn at h
  split at h
  · rcases hw : a.write s.calls (buf.drop s.written) with (_ | _ | code) | (_ | n) <;>
      simp only [hw,Sum.inl.injEq,reduceCtorEq] at h <;> subst h <;> simp
  · rw [Sum.inl.injEq] at h
    subst h
    simp

/-- The standard library's call does so unless it is interrupted for ever. -/
theorem writeAll_writes_all_iff (a : Answers) (buf : List UInt8) :
    WritesAll writeAll a buf ↔
      ∀ k, a.Through Retried buf.length k → a.taken k < buf.length →
        ∃ i, k ≤ i ∧ a.results i ≠ .error .interrupted := by
  have hends := (writeAllTurn_callsAgain a buf).ends_iff
  simp only [retried_none_iff] at hends
  constructor
  · exact fun h => hends.mp (exists_comm.mp h.ends)
  · refine fun h => ⟨exists_comm.mp (hends.mpr h),fun _ _ hcall => (writeAll_front hcall).whole,?_⟩
    intro turns out hcall
    obtain ⟨k,-,hk⟩ := (writeAllTurn_callsAgain a buf).returns_iff.mp ⟨turns,hcall⟩
    exact writeAllTurn_persists hk

theorem writeTurn_eq_writeAllTurn (hsome : ∀ k, a.results k ≠ .ok 0)
    (hwhole : ∀ k, a.results k ≠ .error .interrupted) (hflush : a.flush = .ok ()) (s : Writing) :
    writeTurn a buf s = writeAllTurn a buf s := by
  unfold writeTurn writeAllTurn
  split
  next hlt =>
    cases hr : a.results s.calls with
    | error e =>
      have hne : e ≠ .interrupted := fun he => hwhole s.calls (he ▸ hr)
      simp only [write_error hr]
    | ok n =>
      have hpos : n ≠ 0 := fun hn => hsome s.calls (hn ▸ hr)
      obtain ⟨m,hm⟩ : ∃ m, min n (buf.drop s.written).length = m + 1 := by
        rw [List.length_drop]
        exact ⟨min n (buf.length - s.written) - 1,by omega⟩
      simp only [write_count hr,hm]
  next => rw [hflush]

/-- Where the writer answers neither way and can be flushed, the two are one. -/
theorem writeAllBytes_eq_writeAll (hsome : ∀ k, a.results k ≠ .ok 0)
    (hwhole : ∀ k, a.results k ≠ .error .interrupted) (hflush : a.flush = .ok ())
    (buf : List UInt8) (turns : Nat) : writeAllBytes a buf turns = writeAll a buf turns := by
  rw [writeAllBytes,writeAll,funext (writeTurn_eq_writeAllTurn hsome hwhole hflush)]

/-! The writer thread: the chunks in the order of the channel, each with the answers to the calls
that write it, up to the first that fails. -/

def ptyWriter (call : Answers → List UInt8 → Nat → Option Returned) (turns : Nat) :
    List (Answers × List UInt8) → Option (List UInt8)
  | [] => some []
  | (a, chunk) :: rest =>
    (call a chunk turns).bind fun out =>
      match out.result with
      | .ok _ => (ptyWriter call turns rest).map (out.accepted ++ ·)
      | .error _ => some out.accepted

/-- The worker's, from `open_pane`. -/
def workerWriter : Nat → List (Answers × List UInt8) → Option (List UInt8) :=
  ptyWriter writeAllBytes

/-- The one of the daemon without workers, which passes over the result of its flush. -/
def paneWriter : Nat → List (Answers × List UInt8) → Option (List UInt8) := ptyWriter writeAll

section
variable {call : Answers → List UInt8 → Nat → Option Returned} {turns : Nat}
  (hfront : ∀ a buf out, call a buf turns = some out → out.Front buf)
include hfront

/-- What reaches the terminal is the front of what was typed: nothing twice, nothing out of its
place and no gap before anything. -/
theorem ptyWriter_prefix {chunks : List (Answers × List UInt8)} {got : List UInt8}
    (h : ptyWriter call turns chunks = some got) : got <+: (chunks.map Prod.snd).flatten := by
  induction chunks generalizing got with
  | nil =>
    rw [ptyWriter,Option.some.injEq] at h
    exact h ▸ List.prefix_refl _
  | cons c rest ih =>
    obtain ⟨a,chunk⟩ := c
    rw [ptyWriter,Option.bind_eq_some_iff] at h
    obtain ⟨out,hout,h⟩ := h
    have hchunk := hfront a chunk out hout
    rw [List.map_cons,List.flatten_cons]
    cases hr : out.result with
    | error e =>
      simp only [hr,Option.some.injEq] at h
      exact h ▸ hchunk.front.trans (List.prefix_append _ _)
    | ok u =>
      simp only [hr,Option.map_eq_some_iff] at h
      obtain ⟨more,hmore,rfl⟩ := h
      rw [hchunk.whole hr]
      exact (List.prefix_append_right_inj chunk).mpr (ih hmore)

/-- Chunks that are all written reach the terminal whole, and then it is as if the thread began
with what is typed next. -/
theorem ptyWriter_append {front rest : List (Answers × List UInt8)}
    (hall : ∀ c ∈ front, ∃ out, call c.1 c.2 turns = some out ∧ out.result = .ok ()) :
    ptyWriter call turns (front ++ rest) =
      (ptyWriter call turns rest).map ((front.map Prod.snd).flatten ++ ·) := by
  induction front with
  | nil => simp
  | cons c front ih =>
    obtain ⟨a,chunk⟩ := c
    obtain ⟨⟨out,hout,hok⟩,hfrontAll⟩ := List.forall_mem_cons.mp hall
    have hwhole := (hfront a chunk out hout).whole hok
    simp only [List.cons_append,ptyWriter,hout,Option.bind_some,hok,ih hfrontAll,hwhole,
      List.map_cons,List.flatten_cons,Option.map_map,Function.comp_def,List.append_assoc]

end

/-- Chunks whose calls all succeed reach the terminal whole. -/
theorem ptyWriter_whole {call : Answers → List UInt8 → Nat → Option Returned}
    (hfront : ∀ a buf turns out, call a buf turns = some out → out.Front buf)
    (hmono : ∀ a buf out m n, m ≤ n → call a buf m = some out → call a buf n = some out)
    {chunks : List (Answers × List UInt8)}
    (hall : ∀ c ∈ chunks, ∃ turns out, call c.1 c.2 turns = some out ∧ out.result = .ok ()) :
    ∃ turns, ptyWriter call turns chunks = some (chunks.map Prod.snd).flatten := by
  have hbound : ∃ turns, ∀ c ∈ chunks, ∃ out, call c.1 c.2 turns = some out ∧
      out.result = .ok () := by
    clear hfront
    induction chunks with
    | nil => exact ⟨0,by simp⟩
    | cons c chunks ih =>
      obtain ⟨⟨m,out,hout,hok⟩,hrest⟩ := List.forall_mem_cons.mp hall
      obtain ⟨n,hn⟩ := ih hrest
      refine ⟨max m n,List.forall_mem_cons.mpr ⟨⟨out,?_,hok⟩,fun d hd => ?_⟩⟩
      · exact hmono _ _ _ _ _ (Nat.le_max_left m n) hout
      · obtain ⟨out,hout,hok⟩ := hn d hd
        exact ⟨out,hmono _ _ _ _ _ (Nat.le_max_right m n) hout,hok⟩
  obtain ⟨turns,hturns⟩ := hbound
  have happend : ptyWriter call turns (chunks ++ []) =
      (ptyWriter call turns []).map ((chunks.map Prod.snd).flatten ++ ·) :=
    ptyWriter_append (fun a buf out => hfront a buf turns out) hturns
  rw [List.append_nil] at happend
  exact ⟨turns,by simp [happend,ptyWriter]⟩

/-- A chunk whose call fails is the last: what is typed after it is never written. -/
theorem ptyWriter_failed {call : Answers → List UInt8 → Nat → Option Returned} {turns : Nat}
    {chunk : List UInt8} (hout : call a chunk turns = some out) (he : out.result = .error e)
    (rest : List (Answers × List UInt8)) :
    ptyWriter call turns ((a, chunk) :: rest) = some out.accepted := by
  simp only [ptyWriter,hout,Option.bind_some,he]

theorem workerWriter_prefix {turns : Nat} {chunks : List (Answers × List UInt8)}
    {got : List UInt8} (h : workerWriter turns chunks = some got) :
    got <+: (chunks.map Prod.snd).flatten :=
  ptyWriter_prefix (fun _ _ _ => writeAllBytes_front) h

theorem paneWriter_prefix {turns : Nat} {chunks : List (Answers × List UInt8)}
    {got : List UInt8} (h : paneWriter turns chunks = some got) :
    got <+: (chunks.map Prod.snd).flatten :=
  ptyWriter_prefix (fun _ _ _ => writeAll_front) h

/-- All that is typed reaches the worker's terminal where the writer answers no error and is not
out of room for ever. -/
theorem workerWriter_whole {chunks : List (Answers × List UInt8)}
    (hcounts : ∀ c ∈ chunks, ∀ k, Counted (c.1.results k))
    (hsome : ∀ c ∈ chunks, ∀ k, ∃ i, k ≤ i ∧ c.1.results i ≠ .ok 0)
    (hflush : ∀ c ∈ chunks, c.1.flush = .ok ()) :
    ∃ turns, workerWriter turns chunks = some (chunks.map Prod.snd).flatten := by
  have hmono : ∀ a buf out m n, m ≤ n → writeAllBytes a buf m = some out →
      writeAllBytes a buf n = some out := fun _ _ _ _ _ => loop_mono
  refine ptyWriter_whole (fun _ _ _ _ => writeAllBytes_front) hmono fun c hc => ?_
  obtain ⟨turns,out,hout⟩ := (writeAllBytes_ends_iff c.1 c.2).mpr fun k _ _ => hsome c hc k
  refine ⟨turns,out,hout,?_⟩
  obtain ⟨k,hle,hk⟩ := (writeTurn_callsAgain c.1 c.2).nothing_left ⟨turns,hout⟩ (hcounts c hc)
  rw [writeTurn_done hle,Sum.inl.injEq] at hk
  exact hk ▸ hflush c hc

/-- The other daemon's terminal gets it all also where signals come between. -/
theorem paneWriter_whole {chunks : List (Answers × List UInt8)}
    (hretried : ∀ c ∈ chunks, ∀ k, Retried (c.1.results k))
    (hsome : ∀ c ∈ chunks, ∀ k, ∃ i, k ≤ i ∧ c.1.results i ≠ .error .interrupted) :
    ∃ turns, paneWriter turns chunks = some (chunks.map Prod.snd).flatten := by
  have hmono : ∀ a buf out m n, m ≤ n → writeAll a buf m = some out →
      writeAll a buf n = some out := fun _ _ _ _ _ => loop_mono
  refine ptyWriter_whole (fun _ _ _ _ => writeAll_front) hmono fun c hc => ?_
  obtain ⟨turns,out,hout⟩ :=
    ((writeAll_writes_all_iff c.1 c.2).mpr fun k _ _ => hsome c hc k).ends
  refine ⟨turns,out,hout,?_⟩
  obtain ⟨k,hle,hk⟩ :=
    (writeAllTurn_callsAgain c.1 c.2).nothing_left ⟨turns,hout⟩ (hretried c hc)
  rw [writeAllTurn_done hle,Sum.inl.injEq] at hk
  exact hk ▸ rfl

/-- In the worker, where a signal comes to the first write of a chunk, that chunk and all that
is typed after it is lost. -/
theorem workerWriter_interrupted {turns : Nat} {front : List (Answers × List UInt8)}
    {chunk : List UInt8}
    (hfront : ∀ c ∈ front, ∃ out, writeAllBytes c.1 c.2 (turns + 1) = some out ∧
      out.result = .ok ())
    (hchunk : chunk ≠ []) (ha : a.results 0 = .error .interrupted)
    (rest : List (Answers × List UInt8)) :
    workerWriter (turns + 1) (front ++ (a, chunk) :: rest) =
      some (front.map Prod.snd).flatten := by
  have hlt : a.taken 0 < chunk.length := List.length_pos_iff.mpr hchunk
  have hout : writeAllBytes a chunk (turns + 1) = some ⟨.error .interrupted,[]⟩ := by
    rw [writeAllBytes,← course_zero a chunk]
    exact loop_done (writeTurn_failed hlt ha) turns
  rw [workerWriter,ptyWriter_append (fun _ _ _ => writeAllBytes_front) hfront,
    ptyWriter_failed hout rfl]
  simp

/-- However the terminal takes them, the chunks reach it in order, each byte once and with no gap:
in the worker all of them where each write is of some bytes in the end, in the other daemon also
where signals interrupt it. -/
theorem typed_reaches_terminal (chunks : List (Answers × List UInt8)) :
    (∀ turns got, workerWriter turns chunks = some got ∨ paneWriter turns chunks = some got →
      got <+: (chunks.map Prod.snd).flatten) ∧
    ((∀ c ∈ chunks, (∀ k, Counted (c.1.results k)) ∧ (∀ k, ∃ i, k ≤ i ∧ c.1.results i ≠ .ok 0) ∧
        c.1.flush = .ok ()) →
      ∃ turns, workerWriter turns chunks = some (chunks.map Prod.snd).flatten) ∧
    ((∀ c ∈ chunks, (∀ k, Retried (c.1.results k)) ∧
        ∀ k, ∃ i, k ≤ i ∧ c.1.results i ≠ .error .interrupted) →
      ∃ turns, paneWriter turns chunks = some (chunks.map Prod.snd).flatten) := by
  refine ⟨fun turns got hgot => ?_,fun hall => ?_,fun hall => ?_⟩
  · exact hgot.elim workerWriter_prefix paneWriter_prefix
  · exact workerWriter_whole (fun c hc => (hall c hc).1) (fun c hc => (hall c hc).2.1)
      fun c hc => (hall c hc).2.2
  · exact paneWriter_whole (fun c hc => (hall c hc).1) fun c hc => (hall c hc).2

end Pyre.Worker
