import Pyre.Supervisor.PaneIndex

/-!
When the pane index keeps slots apart. A slot registered by callback at or above
its session's counter is handed out again by a later `allocPane`, and the worker
then opens a second pane over a live one.
-/

set_option autoImplicit false

namespace Pyre.Supervisor
open Base

namespace PaneIndex

def SlotsUnique (ix : PaneIndex) : Prop :=
  ∀ p q k, ix.lookup p = some k → ix.lookup q = some k → p = q

/-- The slot the next `allocPane` of any session hands out is mapped to no pane. -/
def NextSlotFree (ix : PaneIndex) : Prop :=
  ∀ s p, ix.lookup p ≠ some (s,ix.counter s)

structure Sound (ix : PaneIndex) : Prop where
  unique : ix.SlotsUnique
  free : ix.NextSlotFree

def SlotsBelow (ix : PaneIndex) : Prop :=
  ∀ p s i, ix.lookup p = some (s,i) → i < ix.counter s

/-- Sound, and still so after any number of further `allocPane` calls of one
session that draw unused UUIDs and do not wrap its counter. -/
def StaysSound (ix : PaneIndex) : Prop :=
  ∀ (s : SessionKey) (ids : List PaneId), (ix.counter s).toNat + ids.length < 2^32 →
    ids.Nodup → (∀ q ∈ ids, ix.lookup q = none) →
    Always step Sound ix (ids.map (IndexOp.allocPane s))

theorem sound_of_below {ix : PaneIndex} (hu : ix.SlotsUnique) (hb : ix.SlotsBelow) :
    ix.Sound :=
  ⟨hu, fun s p hp => UInt32.lt_irrefl _ (hb p s _ hp)⟩

end PaneIndex

open PaneIndex

/-- The operation leaves any slot it registers below the session's counter: a
slot registered by callback already is, and the counter does not wrap. -/
def IndexOp.Covered (ix : PaneIndex) : IndexOp → Prop
  | .allocPane s _ => (ix.counter s).toNat + 1 < 2^32
  | .getOrAllocPaneBySlot s i _ => ix.Registers s i → i < ix.counter s
  | .removePaneSlot _ _ => True
  | .removeSession _ => True

instance (ix : PaneIndex) (op : IndexOp) : Decidable (op.Covered ix) := by
  cases op <;> unfold IndexOp.Covered <;> infer_instance

namespace PaneIndex

theorem lt_succ_of_covered {c : UInt32} (h : c.toNat + 1 < 2^32) :
    (c+1).toNat = c.toNat + 1 := by
  rw [UInt32.toNat_add]
  exact Nat.mod_eq_of_lt h

theorem below_allocPane {ix : PaneIndex} {s : SessionKey} (p : PaneId) (hb : ix.SlotsBelow)
    (hc : (ix.counter s).toNat + 1 < 2^32) : (ix.allocPane s p).1.SlotsBelow := by
  have hs := lt_succ_of_covered hc
  intro q t i hq
  rcases lookup_allocPane.mp hq with ⟨-,he⟩ | ⟨-,hq⟩
  · obtain ⟨rfl,rfl⟩ := Prod.mk.inj he
    rw [counter_allocPane_self,UInt32.lt_iff_toNat_lt,hs]
    omega
  · have hi := hb q t i hq
    by_cases ht : t = s
    · subst ht
      rw [UInt32.lt_iff_toNat_lt] at hi
      rw [counter_allocPane_self,UInt32.lt_iff_toNat_lt,hs]
      omega
    · rwa [counter_allocPane_ne ix ht]

theorem unique_register {ix : PaneIndex} {s : SessionKey} {i : UInt32} (p : PaneId)
    (hu : ix.SlotsUnique) (hf : ∀ q, ix.lookup q ≠ some (s,i)) :
    (ix.register p s i).SlotsUnique := by
  intro a b k ha hb
  rcases lookup_register.mp ha with ⟨rfl,rfl⟩ | ⟨-,ha'⟩ <;>
    rcases lookup_register.mp hb with ⟨rfl,he⟩ | ⟨-,hb'⟩
  · rfl
  · exact absurd hb' (hf b)
  · exact absurd (he ▸ ha') (hf a)
  · exact hu a b k ha' hb'

theorem unique_allocPane {ix : PaneIndex} {s : SessionKey} (p : PaneId) (hu : ix.SlotsUnique)
    (hb : ix.SlotsBelow) : (ix.allocPane s p).1.SlotsUnique :=
  unique_register p hu fun q hq => UInt32.lt_irrefl _ (hb q s _ hq)

/-- The step lemma: a covered operation keeps slots unique and below the counters. -/
theorem below_step {ix ix' : PaneIndex} {op : IndexOp}
    (h : ix.SlotsUnique ∧ ix.SlotsBelow) (hc : op.Covered ix) (hs : ix.step op = some ix') :
    ix'.SlotsUnique ∧ ix'.SlotsBelow := by
  obtain ⟨hu,hb⟩ := h
  cases op with
  | allocPane s p =>
    obtain rfl := Option.some.inj hs
    exact ⟨unique_allocPane p hu hb, below_allocPane p hb hc⟩
  | getOrAllocPaneBySlot s i p =>
    obtain rfl := Option.some.inj hs
    by_cases hr : ix.Registers s i
    · rw [getOrAlloc_registers hr]
      refine ⟨unique_register p hu (paneIdBySlot_eq_none.mp hr.1), fun q t j hq => ?_⟩
      rcases lookup_register.mp hq with ⟨-,he⟩ | ⟨-,hq⟩
      · obtain ⟨rfl,rfl⟩ := Prod.mk.inj he
        exact hc hr
      · exact hb q t j hq
    · rw [getOrAlloc_keeps hr]
      exact ⟨hu,hb⟩
  | removePaneSlot s i =>
    obtain rfl := Option.some.inj hs
    exact ⟨fun a b k ha hk => hu a b k (lookup_removePaneSlot.mp ha).1
        (lookup_removePaneSlot.mp hk).1,
      fun q t j hq => hb q t j (lookup_removePaneSlot.mp hq).1⟩
  | removeSession s =>
    obtain rfl := Option.some.inj hs
    refine ⟨fun a b k ha hk => hu a b k (lookup_removeSession.mp ha).1
        (lookup_removeSession.mp hk).1, fun q t j hq => ?_⟩
    obtain ⟨hq,ht⟩ := lookup_removeSession.mp hq
    rw [counter_removeSession_ne ix ht]
    exact hb q t j hq

theorem below_empty : empty.SlotsUnique ∧ empty.SlotsBelow :=
  ⟨fun p _ _ h => by simp at h, fun p _ _ h => by simp at h⟩

/-- Opening panes one after another moves the counter by their number and leaves
the other panes where they are. -/
theorem exec_allocPanes (s : SessionKey) (ids : List PaneId) (ix : PaneIndex)
    (h : (ix.counter s).toNat + ids.length < 2^32) :
    ∃ ix', exec step ix (ids.map (IndexOp.allocPane s)) = some ix' ∧
      (ix'.counter s).toNat = (ix.counter s).toNat + ids.length ∧
      ∀ q ∉ ids, ix'.lookup q = ix.lookup q := by
  induction ids generalizing ix with
  | nil => exact ⟨ix,rfl,rfl,fun _ _ => rfl⟩
  | cons p ids ih =>
    rw [List.length_cons] at h
    have hc := lt_succ_of_covered (c := ix.counter s) (by omega)
    rw [← counter_allocPane_self ix s p] at hc
    obtain ⟨ix',he,hn,hl⟩ := ih (ix.allocPane s p).1 (by omega)
    refine ⟨ix', by simpa [step] using he, by rw [hn,hc,List.length_cons]; omega, ?_⟩
    intro q hq
    rw [List.mem_cons,not_or] at hq
    rw [hl q hq.2]
    exact AList.lookup_insert_ne hq.1

theorem allocPanes_covered (s : SessionKey) (ids : List PaneId) (ix : PaneIndex)
    (h : (ix.counter s).toNat + ids.length < 2^32) :
    Along step (fun ix op => op.Covered ix) ix (ids.map (IndexOp.allocPane s)) := by
  induction ids generalizing ix with
  | nil => trivial
  | cons p ids ih =>
    rw [List.length_cons] at h
    have hc := lt_succ_of_covered (c := ix.counter s) (by omega)
    refine ⟨by simp only [IndexOp.Covered]; omega, fun t ht => ?_⟩
    obtain rfl := Option.some.inj ht
    exact ih _ (by rw [counter_allocPane_self,hc]; omega)

theorem staysSound_of_below {ix : PaneIndex} (h : ix.SlotsUnique ∧ ix.SlotsBelow) :
    ix.StaysSound := by
  intro s ids hn _ _
  have hr := (allocPanes_covered s ids ix hn).invariant (fun _ _ _ => below_step) h
  exact hr.mono fun t ht => sound_of_below ht.1 ht.2

/-- A slot mapped at or above the counter is reached by it. -/
theorem not_staysSound {ix : PaneIndex} {p : PaneId} {s : SessionKey} {i : UInt32}
    (hp : ix.lookup p = some (s,i)) (hi : ix.counter s ≤ i) : ¬ix.StaysSound := by
  intro h
  rw [UInt32.le_iff_toNat_le] at hi
  have hlt := i.toNat_lt
  obtain ⟨ids,hlen,hnd,hids⟩ :=
    Table.exists_unused ix.paneToSlot (i.toNat - (ix.counter s).toNat)
  have hn : (ix.counter s).toNat + ids.length < 2^32 := by omega
  obtain ⟨ix',he,hc,hl⟩ := exec_allocPanes s ids ix hn
  have hmem : p ∉ ids := fun hm => by
    have hnone : ix.lookup p = none := hids p hm
    rw [hnone] at hp
    cases hp
  have hcount : ix'.counter s = i := UInt32.toNat_inj.mp (by omega)
  apply ((h s ids hn hnd hids).last he).free s p
  rw [hl p hmem,hp,hcount]

/-- A step that is not covered leaves a slot mapped at or above the counter. -/
theorem uncovered_step {ix : PaneIndex} {op : IndexOp} (h : ¬op.Covered ix) :
    ∃ ix' p s i, ix.step op = some ix' ∧ ix'.lookup p = some (s,i) ∧ ix'.counter s ≤ i := by
  cases op with
  | allocPane s p =>
    refine ⟨_,p,s,ix.counter s,rfl,lookup_allocPane.mpr (Or.inl ⟨rfl,rfl⟩),?_⟩
    have hlt := (ix.counter s).toNat_lt
    simp only [IndexOp.Covered] at h
    have hz : (ix.counter s + 1).toNat = 0 := by
      rw [UInt32.toNat_add,show (ix.counter s).toNat = 2^32-1 by omega]
      rfl
    rw [counter_allocPane_self,UInt32.le_iff_toNat_le,hz]
    exact Nat.zero_le _
  | getOrAllocPaneBySlot s i p =>
    simp only [IndexOp.Covered,Classical.not_imp,UInt32.not_lt] at h
    refine ⟨_,p,s,i,rfl,?_,?_⟩
    · rw [getOrAlloc_registers h.1]
      exact lookup_register.mpr (Or.inl ⟨rfl,rfl⟩)
    · rw [getOrAlloc_registers h.1]
      exact h.2
  | removePaneSlot s i => exact absurd trivial h
  | removeSession s => exact absurd trivial h

end PaneIndex

/-- Slots stay apart exactly in the runs that register by callback only slots the
session's counter has already passed, and never wrap that counter. -/
theorem slots_apart_iff (ops : List IndexOp) :
    Always PaneIndex.step StaysSound .empty ops ↔
      Along PaneIndex.step (fun ix op => op.Covered ix) .empty ops := by
  constructor
  · intro h
    refine along_iff.mpr fun pre op hpre ix hix => ?_
    by_contra hc
    obtain ⟨ix',p,s,i,hstep,hp,hi⟩ := uncovered_step hc
    have hrun := (exec_snoc hix op).trans hstep
    exact not_staysSound hp hi (h _ hpre ix' hrun)
  · intro h
    exact (h.invariant (fun _ _ _ => below_step) below_empty).mono fun _ => staysSound_of_below

/-- A worker comes back after a restart and its slot 0 is registered by callback;
the next pane opened in the session gets slot 0 too. -/
theorem recovered_slot_handed_out_again :
    ¬∀ ops, Always PaneIndex.step Sound .empty ops := by
  intro h
  have hs := (h [.getOrAllocPaneBySlot "s" 0 ⟨1⟩, .allocPane "s" ⟨2⟩]).last rfl
  have hpq := hs.unique ⟨1⟩ ⟨2⟩ ("s",0) (by decide) (by decide)
  exact absurd hpq (by decide)

end Pyre.Supervisor
