import Mathlib.Data.List.Nodup

/-!
One-shot timers with a clock. A timer is known by the number it was given when it was set, it
may be cleared until it fires, and it fires at its time or later.
-/

set_option autoImplicit false

namespace Pyre.Base

structure Timer (γ : Type) where
  id : Nat
  due : Nat
  call : γ
  deriving DecidableEq, Repr

structure Timers (γ : Type) where
  now : Nat
  next : Nat
  pending : List (Timer γ)
  deriving Repr

namespace Timers

variable {γ : Type} {c : Timers γ} {t : Timer γ} {id delay : Nat} {call : γ}

def start : Timers γ := ⟨0,0,[]⟩

/-- The handle of the timer is `c.next`. -/
def set (c : Timers γ) (delay : Nat) (call : γ) : Timers γ :=
  { c with next := c.next + 1, pending := c.pending ++ [⟨c.next,c.now + delay,call⟩] }

def clear (c : Timers γ) (id : Nat) : Timers γ :=
  { c with pending := c.pending.filter (·.id ≠ id) }

def tick (c : Timers γ) (ms : Nat) : Timers γ := { c with now := c.now + ms }

def dueAt (c : Timers γ) (id : Nat) : Option (Timer γ) :=
  c.pending.find? fun t => t.id = id ∧ t.due ≤ c.now

@[simp] theorem now_set : (c.set delay call).now = c.now := rfl
@[simp] theorem now_clear : (c.clear id).now = c.now := rfl
@[simp] theorem next_set : (c.set delay call).next = c.next + 1 := rfl
@[simp] theorem next_clear : (c.clear id).next = c.next := rfl

@[simp] theorem mem_set :
    t ∈ (c.set delay call).pending ↔ t ∈ c.pending ∨ t = ⟨c.next,c.now + delay,call⟩ := by
  simp [set]

@[simp] theorem mem_clear : t ∈ (c.clear id).pending ↔ t ∈ c.pending ∧ t.id ≠ id := by
  simp [clear]

theorem dueAt_eq_some (h : c.dueAt id = some t) :
    t ∈ c.pending ∧ t.id = id ∧ t.due ≤ c.now := by
  have hfound := List.find?_some h
  simp only [decide_eq_true_eq] at hfound
  exact ⟨List.mem_of_find?_eq_some h,hfound⟩

/-- No two pending timers have one number, and the next is not taken. -/
structure Valid (c : Timers γ) : Prop where
  fresh : ∀ t ∈ c.pending, t.id < c.next
  unique : ∀ t ∈ c.pending, ∀ u ∈ c.pending, t.id = u.id → t = u

theorem Valid.start : (start : Timers γ).Valid :=
  ⟨by simp [Timers.start],by simp [Timers.start]⟩

theorem Valid.set (h : c.Valid) (delay : Nat) (call : γ) : (c.set delay call).Valid := by
  constructor
  · intro t ht
    rw [mem_set] at ht
    obtain ht | rfl := ht
    · exact Nat.lt_succ_of_lt (h.fresh t ht)
    · exact Nat.lt_succ_self _
  · intro t ht u hu heq
    rw [mem_set] at ht hu
    obtain ht | rfl := ht <;> obtain hu | rfl := hu
    · exact h.unique t ht u hu heq
    · exact absurd heq (Nat.ne_of_lt (h.fresh t ht))
    · exact absurd heq.symm (Nat.ne_of_lt (h.fresh u hu))
    · rfl

theorem Valid.clear (h : c.Valid) (id : Nat) : (c.clear id).Valid :=
  ⟨fun t ht => h.fresh t (mem_clear.mp ht).1,
    fun t ht u hu => h.unique t (mem_clear.mp ht).1 u (mem_clear.mp hu).1⟩

theorem Valid.tick (h : c.Valid) (ms : Nat) : (c.tick ms).Valid := ⟨h.fresh,h.unique⟩

/-- A timer that is about to go does not mind what is set meanwhile. -/
theorem clear_set (h : id < c.next) :
    (c.set delay call).clear id = (c.clear id).set delay call := by
  have hne : c.next ≠ id := Nat.ne_of_gt h
  simp [set,clear,hne]

end Timers

end Pyre.Base
