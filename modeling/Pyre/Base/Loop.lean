import Mathlib.Data.PFun
import Mathlib.Order.OrderIsoNat

/-!
A loop whose turn either returns or goes on from a new state. It is run with a bound on its
turns, and what it returns is what any large enough bound gives.
-/

set_option autoImplicit false

namespace Pyre.Base

variable {σ ρ : Type*}

/-- `none` where the bound is met before the loop returns. -/
def loop (turn : σ → ρ ⊕ σ) : Nat → σ → Option ρ
  | 0, _ => none
  | n + 1, s =>
    match turn s with
    | .inl r => some r
    | .inr t => loop turn n t

def Returns (turn : σ → ρ ⊕ σ) (s : σ) (r : ρ) : Prop := ∃ n, loop turn n s = some r

def Ends (turn : σ → ρ ⊕ σ) (s : σ) : Prop := ∃ r, Returns turn s r

variable {turn : σ → ρ ⊕ σ} {s t : σ} {r r' : ρ}

theorem loop_done (h : turn s = .inl r) (n : Nat) : loop turn (n + 1) s = some r := by
  simp only [loop,h]

theorem loop_next (h : turn s = .inr t) (n : Nat) : loop turn (n + 1) s = loop turn n t := by
  simp only [loop,h]

theorem loop_mono {m n : Nat} (hmn : m ≤ n) (h : loop turn m s = some r) :
    loop turn n s = some r := by
  induction m generalizing n s with
  | zero => simp [loop] at h
  | succ m ih =>
    obtain ⟨n,rfl⟩ := Nat.exists_eq_add_of_le' hmn
    cases ht : turn s with
    | inl r₀ =>
      rw [loop_done ht] at h
      rw [← Nat.add_assoc,loop_done ht,h]
    | inr t =>
      rw [loop_next ht] at h
      rw [← Nat.add_assoc,loop_next ht]
      exact ih (Nat.le_add_left m n) h

theorem mem_turn_iff {x : ρ ⊕ σ} : x ∈ (turn : σ →. ρ ⊕ σ) s ↔ turn s = x := by
  rw [PFun.coe_val,Part.mem_some_iff,eq_comm]

/-- The bounded loop computes the iteration of its turn up to the first return. -/
theorem returns_iff_mem_fix :
    Returns turn s r ↔ r ∈ PFun.fix (turn : σ →. ρ ⊕ σ) s := by
  constructor
  · rintro ⟨n,hn⟩
    induction n generalizing s with
    | zero => simp [loop] at hn
    | succ n ih =>
      cases h : turn s with
      | inl r₀ =>
        rw [loop_done h,Option.some.injEq] at hn
        exact PFun.fix_stop (mem_turn_iff.mpr (hn ▸ h))
      | inr t =>
        rw [loop_next h] at hn
        exact PFun.mem_fix_iff.mpr (.inr ⟨t,mem_turn_iff.mpr h,ih hn⟩)
  · intro h
    refine PFun.fixInduction' h (fun s hs => ?_) fun s t _ hs ih => ?_
    · exact ⟨1,loop_done (mem_turn_iff.mp hs) 0⟩
    · obtain ⟨n,hn⟩ := ih
      exact ⟨n + 1,by rw [loop_next (mem_turn_iff.mp hs),hn]⟩

theorem Returns.unique (h : Returns turn s r) (h' : Returns turn s r') : r = r' :=
  Part.mem_unique (returns_iff_mem_fix.mp h) (returns_iff_mem_fix.mp h')

theorem returns_next (h : turn s = .inr t) : Returns turn s r ↔ Returns turn t r := by
  rw [returns_iff_mem_fix,returns_iff_mem_fix,PFun.fix_fwd_eq (mem_turn_iff.mpr h)]

/-- The loop rule: what every turn that goes on keeps holds at the turn that returns. -/
theorem Returns.invariant {I : σ → Prop} (hstep : ∀ s t, I s → turn s = .inr t → I t)
    (h : Returns turn s r) (h0 : I s) : ∃ t, I t ∧ turn t = .inl r := by
  rw [returns_iff_mem_fix] at h
  revert h0
  refine PFun.fixInduction' h (fun s hs h0 => ?_) fun s t _ hs ih h0 => ?_
  · exact ⟨s,h0,mem_turn_iff.mp hs⟩
  · exact ih (hstep s t h0 (mem_turn_iff.mp hs))

/-! A loop whose states are known in advance: it passes through them in order until a turn
returns. -/

/-- Where the loop goes on from a state of the course, it goes on to the next one. -/
def Course (turn : σ → ρ ⊕ σ) (course : Nat → σ) : Prop :=
  ∀ k t, turn (course k) = .inr t → t = course (k + 1)

variable {course : Nat → σ}

theorem Course.returns_of (hc : Course turn course) {k : Nat}
    (hgo : ∀ i < k, ∃ t, turn (course i) = .inr t) :
    Returns turn (course 0) r ↔ Returns turn (course k) r := by
  induction k with
  | zero => exact Iff.rfl
  | succ k ih =>
    obtain ⟨t,ht⟩ := hgo k (Nat.lt_succ_self k)
    obtain rfl := hc k t ht
    rw [ih fun i hi => hgo i (Nat.lt_succ_of_lt hi),returns_next ht]

/-- It returns what the first turn of the course to return does. -/
theorem Course.returns_iff (hc : Course turn course) :
    Returns turn (course 0) r ↔
      ∃ k, (∀ i < k, ∃ t, turn (course i) = .inr t) ∧ turn (course k) = .inl r := by
  constructor
  · intro h
    have hstep : ∀ s t, (∃ k, (∀ i < k, ∃ t, turn (course i) = .inr t) ∧ s = course k) →
        turn s = .inr t → ∃ k, (∀ i < k, ∃ t, turn (course i) = .inr t) ∧ t = course k := by
      rintro s t ⟨k,hgo,rfl⟩ ht
      refine ⟨k + 1,fun i hi => ?_,hc k t ht⟩
      rcases Nat.lt_succ_iff_lt_or_eq.mp hi with hi | rfl
      · exact hgo i hi
      · exact ⟨t,ht⟩
    obtain ⟨s,⟨k,hgo,rfl⟩,hs⟩ := h.invariant hstep ⟨0,by simp,rfl⟩
    exact ⟨k,hgo,hs⟩
  · rintro ⟨k,hgo,hk⟩
    exact (hc.returns_of hgo).mpr ⟨1,loop_done hk 0⟩

/-- It ends just where some turn of the course returns. -/
theorem Course.ends_iff (hc : Course turn course) :
    Ends turn (course 0) ↔ ∃ k r, turn (course k) = .inl r := by
  classical
  constructor
  · rintro ⟨r,hr⟩
    obtain ⟨k,-,hk⟩ := hc.returns_iff.mp hr
    exact ⟨k,r,hk⟩
  · intro h
    obtain ⟨r,hr⟩ := Nat.find_spec h
    refine ⟨r,hc.returns_iff.mpr ⟨Nat.find h,fun i hi => ?_,hr⟩⟩
    cases ht : turn (course i) with
    | inl r' => exact absurd ⟨r',ht⟩ (Nat.find_min h hi)
    | inr t => exact ⟨t,rfl⟩

/-- A total that never falls and never passes a bound no longer changes from some point on. -/
theorem eventually_constant {total : Nat → Nat} {bound : Nat} (hmono : Monotone total)
    (hle : ∀ k, total k ≤ bound) : ∃ k, ∀ i, k ≤ i → total i = total k := by
  have hanti : Antitone fun k => bound - total k := fun i k hik =>
    Nat.sub_le_sub_left (hmono hik) bound
  obtain ⟨k,hk⟩ := WellFoundedLT.antitone_chain_condition hanti
  refine ⟨k,fun i hi => ?_⟩
  have hleft := hk i hi
  have hi := hle i
  have hk := hle k
  omega

end Pyre.Base
