import Mathlib.Data.Finset.Filter
import Mathlib.Data.Finset.Insert
import Pyre.Base.Run
import Pyre.Base.Table
import Pyre.Proto

/-!
The supervisor's pane index: which slot of which session a PaneId names, the next
slot to hand out in each session, and the slots closed for good.

Slots enter it by two routes. `allocPane` hands them out from the session's
counter; `getOrAllocPaneBySlot` registers a slot that a worker or its shard has
chosen. Only the first of them moves the counter.
-/

set_option autoImplicit false

namespace Pyre.Supervisor
open Base

/-- A pane's place: the session it is filed under and its slot there. -/
abbrev SlotKey := SessionKey × UInt32

structure PaneIndex where
  paneToSlot : Table PaneId SlotKey
  nextSlots : Table SessionKey UInt32
  deadSlots : Finset SlotKey

namespace PaneIndex

def empty : PaneIndex := ⟨∅,∅,∅⟩

def register (ix : PaneIndex) (pane : PaneId) (session : SessionKey) (slot : UInt32) :
    PaneIndex :=
  { ix with paneToSlot := ix.paneToSlot.insert pane (session,slot) }

def lookup (ix : PaneIndex) (pane : PaneId) : Option SlotKey := ix.paneToSlot.lookup pane

def paneIdBySlot (ix : PaneIndex) (session : SessionKey) (slot : UInt32) : Option PaneId :=
  (ix.paneToSlot.entries.find? fun e => e.2 = (session,slot)).map Sigma.fst

def isDead (ix : PaneIndex) (session : SessionKey) (slot : UInt32) : Bool :=
  decide ((session,slot) ∈ ix.deadSlots)

/-- The counter the next `allocPane` of the session reads. -/
def counter (ix : PaneIndex) (session : SessionKey) : UInt32 :=
  (ix.nextSlots.lookup session).getD 0

/-- The counter is a `u32`: it wraps in a release build. -/
def nextSlot (ix : PaneIndex) (session : SessionKey) : PaneIndex × UInt32 :=
  let slot := ix.counter session
  ({ ix with nextSlots := ix.nextSlots.insert session (slot+1) }, slot)

def removeSession (ix : PaneIndex) (session : SessionKey) : PaneIndex where
  paneToSlot := ix.paneToSlot.retain fun _ k => k.1 ≠ session
  nextSlots := ix.nextSlots.erase session
  deadSlots := ix.deadSlots.filter fun k => k.1 ≠ session

/-- The number of panes registered for the session. -/
def paneCount (ix : PaneIndex) (session : SessionKey) : Nat :=
  (ix.paneToSlot.values.filter fun k => k.1 = session).length

def removePaneSlot (ix : PaneIndex) (session : SessionKey) (slot : UInt32) :
    PaneIndex × Nat :=
  let ix' : PaneIndex := { ix with
    paneToSlot := ix.paneToSlot.retain fun _ k => ¬(k.1 = session ∧ k.2 = slot)
    deadSlots := insert (session,slot) ix.deadSlots }
  (ix', ix'.paneCount session)

/-- `WorkerRegistry::alloc_pane`; `pane` is the UUID it draws. -/
def allocPane (ix : PaneIndex) (session : SessionKey) (pane : PaneId) : PaneIndex × UInt32 :=
  let (ix',slot) := ix.nextSlot session
  (ix'.register pane session slot, slot)

/-- `WorkerRegistry::get_or_alloc_pane_by_slot`, its two lock sections run as one. -/
def getOrAllocPaneBySlot (ix : PaneIndex) (session : SessionKey) (slot : UInt32)
    (pane : PaneId) : PaneIndex × Option PaneId :=
  match ix.paneIdBySlot session slot with
  | some known => (ix, some known)
  | none =>
    if ix.isDead session slot then (ix, none)
    else (ix.register pane session slot, some pane)

/-- All PaneIds mapped to the slot; `pane_id_by_slot` yields one of them. -/
def panesOf (ix : PaneIndex) (key : SlotKey) : List PaneId :=
  (ix.paneToSlot.entries.filter fun e => e.2 = key).map Sigma.fst

end PaneIndex

/-- The operations on the index, with the UUID each would draw. -/
inductive IndexOp where
  | allocPane (session : SessionKey) (pane : PaneId)
  | getOrAllocPaneBySlot (session : SessionKey) (slot : UInt32) (pane : PaneId)
  | removePaneSlot (session : SessionKey) (slot : UInt32)
  | removeSession (session : SessionKey)
  deriving DecidableEq, Repr

def IndexOp.drawn : IndexOp → Option PaneId
  | .allocPane _ pane | .getOrAllocPaneBySlot _ _ pane => some pane
  | .removePaneSlot _ _ | .removeSession _ => none

/-- The slots whose mapping the operation takes out of the index. -/
def IndexOp.removes : IndexOp → SlotKey → Bool
  | .removePaneSlot s i, key => key = (s,i)
  | .removeSession s, key => key.1 = s
  | _, _ => false

def PaneIndex.step (ix : PaneIndex) : IndexOp → Option PaneIndex
  | .allocPane s p => some (ix.allocPane s p).1
  | .getOrAllocPaneBySlot s i p => some (ix.getOrAllocPaneBySlot s i p).1
  | .removePaneSlot s i => some (ix.removePaneSlot s i).1
  | .removeSession s => some (ix.removeSession s)

namespace PaneIndex

/-! The effect of each operation on a lookup and on the counters. -/

@[simp] theorem lookup_empty (p : PaneId) : empty.lookup p = none := rfl

theorem lookup_register {ix : PaneIndex} {p q : PaneId} {s : SessionKey} {i : UInt32}
    {k : SlotKey} :
    (ix.register p s i).lookup q = some k ↔
      (q = p ∧ k = (s,i)) ∨ (q ≠ p ∧ ix.lookup q = some k) :=
  Table.lookup_insert_eq_some

@[simp] theorem counter_register (ix : PaneIndex) (p : PaneId) (s t : SessionKey) (i : UInt32) :
    (ix.register p s i).counter t = ix.counter t := rfl

theorem lookup_allocPane {ix : PaneIndex} {p q : PaneId} {s : SessionKey} {k : SlotKey} :
    (ix.allocPane s p).1.lookup q = some k ↔
      (q = p ∧ k = (s,ix.counter s)) ∨ (q ≠ p ∧ ix.lookup q = some k) := lookup_register

theorem counter_allocPane_self (ix : PaneIndex) (s : SessionKey) (p : PaneId) :
    (ix.allocPane s p).1.counter s = ix.counter s + 1 := by
  simp [allocPane,nextSlot,counter,register,AList.lookup_insert]

theorem counter_allocPane_ne (ix : PaneIndex) {s t : SessionKey} (h : t ≠ s) (p : PaneId) :
    (ix.allocPane s p).1.counter t = ix.counter t := by
  simp [allocPane,nextSlot,counter,register,AList.lookup_insert_ne h]

theorem lookup_removeSession {ix : PaneIndex} {p : PaneId} {s : SessionKey} {k : SlotKey} :
    (ix.removeSession s).lookup p = some k ↔ ix.lookup p = some k ∧ k.1 ≠ s := by
  simp [removeSession,lookup,Table.lookup_retain_eq_some]

theorem counter_removeSession_ne (ix : PaneIndex) {s t : SessionKey} (h : t ≠ s) :
    (ix.removeSession s).counter t = ix.counter t := by
  simp [removeSession,counter,AList.lookup_erase_ne h]

theorem lookup_removePaneSlot {ix : PaneIndex} {p : PaneId} {s : SessionKey} {i : UInt32}
    {k : SlotKey} :
    (ix.removePaneSlot s i).1.lookup p = some k ↔ ix.lookup p = some k ∧ k ≠ (s,i) := by
  obtain ⟨t,j⟩ := k
  simp [removePaneSlot,lookup,Table.lookup_retain_eq_some,imp_iff_not_or]

@[simp] theorem counter_removePaneSlot (ix : PaneIndex) (s t : SessionKey) (i : UInt32) :
    (ix.removePaneSlot s i).1.counter t = ix.counter t := rfl

theorem paneIdBySlot_eq_none {ix : PaneIndex} {s : SessionKey} {i : UInt32} :
    ix.paneIdBySlot s i = none ↔ ∀ p, ix.lookup p ≠ some (s,i) := by
  simp only [paneIdBySlot,Option.map_eq_none_iff,List.find?_eq_none,decide_eq_true_eq,lookup,
    ne_eq,Table.lookup_eq_some]
  constructor
  · intro h p hp
    exact h _ hp rfl
  · rintro h ⟨p,k⟩ he rfl
    exact h p he

theorem lookup_of_paneIdBySlot {ix : PaneIndex} {s : SessionKey} {i : UInt32} {p : PaneId}
    (h : ix.paneIdBySlot s i = some p) : ix.lookup p = some (s,i) := by
  simp only [paneIdBySlot,Option.map_eq_some_iff] at h
  obtain ⟨⟨q,k⟩,he,rfl⟩ := h
  have hk := List.find?_some he
  rw [decide_eq_true_eq] at hk
  exact Table.lookup_eq_some.mpr (hk ▸ List.mem_of_find?_eq_some he)

/-- The branch of `getOrAllocPaneBySlot` that registers the slot. -/
def Registers (ix : PaneIndex) (s : SessionKey) (i : UInt32) : Prop :=
  ix.paneIdBySlot s i = none ∧ ix.isDead s i = false

instance (ix : PaneIndex) (s : SessionKey) (i : UInt32) : Decidable (ix.Registers s i) :=
  inferInstanceAs (Decidable (_ ∧ _))

theorem getOrAlloc_registers {ix : PaneIndex} {s : SessionKey} {i : UInt32}
    (h : ix.Registers s i) (p : PaneId) :
    ix.getOrAllocPaneBySlot s i p = (ix.register p s i, some p) := by
  simp [getOrAllocPaneBySlot,h.1,h.2]

theorem getOrAlloc_keeps {ix : PaneIndex} {s : SessionKey} {i : UInt32}
    (h : ¬ix.Registers s i) (p : PaneId) : (ix.getOrAllocPaneBySlot s i p).1 = ix := by
  unfold getOrAllocPaneBySlot
  split
  · rfl
  · rename_i hn
    split
    · rfl
    · rename_i hd
      exact absurd ⟨hn,by simpa using hd⟩ h

theorem lookup_getOrAlloc {ix : PaneIndex} {s : SessionKey} {i : UInt32} {p q : PaneId}
    {key : SlotKey} (hne : p ≠ q) (h : ix.lookup p = some key) :
    (ix.getOrAllocPaneBySlot s i q).1.lookup p = some key := by
  by_cases hr : ix.Registers s i
  · rw [getOrAlloc_registers hr]
    exact lookup_register.mpr (Or.inr ⟨hne,h⟩)
  · rwa [getOrAlloc_keeps hr]

theorem lookup_of_getOrAlloc {ix : PaneIndex} {s : SessionKey} {i : UInt32} {p q : PaneId}
    {key : SlotKey} (h : (ix.getOrAllocPaneBySlot s i q).1.lookup p = some key) :
    q = p ∨ ix.lookup p = some key := by
  by_cases hr : ix.Registers s i
  · rw [getOrAlloc_registers hr] at h
    rcases lookup_register.mp h with ⟨rfl,-⟩ | ⟨-,h⟩
    · exact Or.inl rfl
    · exact Or.inr h
  · rw [getOrAlloc_keeps hr] at h
    exact Or.inr h

/-- The PaneId handed out is one the index maps to the slot. -/
theorem lookup_getOrAlloc_some {ix : PaneIndex} {s : SessionKey} {i : UInt32} {p q : PaneId}
    (h : (ix.getOrAllocPaneBySlot s i q).2 = some p) :
    (ix.getOrAllocPaneBySlot s i q).1.lookup p = some (s,i) := by
  by_cases hr : ix.Registers s i
  · rw [getOrAlloc_registers hr] at h ⊢
    obtain rfl : q = p := Option.some.inj h
    exact lookup_register.mpr (Or.inl ⟨rfl,rfl⟩)
  · rw [getOrAlloc_keeps hr]
    unfold getOrAllocPaneBySlot at h
    split at h
    · rename_i known hknown
      obtain rfl : known = p := Option.some.inj h
      exact lookup_of_paneIdBySlot hknown
    · split at h
      · cases h
      · rename_i hn hd
        exact absurd ⟨hn,by simpa using hd⟩ hr

theorem mem_panesOf {ix : PaneIndex} {key : SlotKey} {p : PaneId} :
    p ∈ ix.panesOf key ↔ ix.lookup p = some key := by
  simp only [panesOf,List.mem_map,List.mem_filter,decide_eq_true_eq,lookup,Table.lookup_eq_some]
  constructor
  · rintro ⟨⟨q,k⟩,⟨he,rfl⟩,rfl⟩
    exact he
  · intro h
    exact ⟨⟨p,key⟩,⟨h,rfl⟩,rfl⟩

/-- An operation keeps a mapping it does not remove, as the UUID it draws is new. -/
theorem lookup_step {ix ix' : PaneIndex} {op : IndexOp} {p : PaneId} {key : SlotKey}
    (h : ix.lookup p = some key) (hstep : ix.step op = some ix') (hkeep : op.removes key = false)
    (hnew : op.drawn ≠ some p) : ix'.lookup p = some key := by
  have hne : ∀ q, op.drawn = some q → p ≠ q := fun q hq heq => hnew (heq ▸ hq)
  cases op with
  | allocPane s q =>
    simp only [step,Option.some.injEq] at hstep
    exact hstep ▸ lookup_allocPane.mpr (Or.inr ⟨hne q rfl,h⟩)
  | getOrAllocPaneBySlot s i q =>
    simp only [step,Option.some.injEq] at hstep
    exact hstep ▸ lookup_getOrAlloc (hne q rfl) h
  | removePaneSlot s i =>
    simp only [step,Option.some.injEq] at hstep
    exact hstep ▸ lookup_removePaneSlot.mpr ⟨h,by simpa [IndexOp.removes] using hkeep⟩
  | removeSession s =>
    simp only [step,Option.some.injEq] at hstep
    exact hstep ▸ lookup_removeSession.mpr ⟨h,by simpa [IndexOp.removes] using hkeep⟩

/-- What an operation maps was mapped before or has just been drawn. -/
theorem lookup_of_step {ix ix' : PaneIndex} {op : IndexOp} {p : PaneId} {key : SlotKey}
    (hstep : ix.step op = some ix') (h : ix'.lookup p = some key) :
    op.drawn = some p ∨ ix.lookup p = some key := by
  cases op with
  | allocPane s q =>
    simp only [step,Option.some.injEq] at hstep
    subst hstep
    rcases lookup_allocPane.mp h with ⟨rfl,-⟩ | ⟨-,h⟩
    · exact Or.inl rfl
    · exact Or.inr h
  | getOrAllocPaneBySlot s i q =>
    simp only [step,Option.some.injEq] at hstep
    subst hstep
    exact (lookup_of_getOrAlloc h).imp (congrArg some) id
  | removePaneSlot s i =>
    simp only [step,Option.some.injEq] at hstep
    exact Or.inr (lookup_removePaneSlot.mp (hstep ▸ h)).1
  | removeSession s =>
    simp only [step,Option.some.injEq] at hstep
    exact Or.inr (lookup_removeSession.mp (hstep ▸ h)).1

end PaneIndex

end Pyre.Supervisor
