import Pyre.Supervisor.SlotAllocation

/-!
The pane index under concurrent callers. `get_or_alloc_pane_by_slot` looks a slot up
under a read lock and registers it under a write lock, and the sections of other
callers may run in between; `pane_closed` is two such calls and a third that may follow.
-/

set_option autoImplicit false

namespace Pyre.Supervisor
open Base

/-- What a caller has left to do. `closing` are the callers that run `pane_closed`. -/
inductive SectionCall where
  | register (closing : Bool) (key : SlotKey)
  | removeSlot (key : SlotKey)
  | evict (session : SessionKey)
  deriving DecidableEq, Repr

/-- `closed` is a log of the slots that `pane_closed` has removed, but for those that
`alloc_pane` has handed out since. -/
structure SharedIndex where
  index : PaneIndex
  calls : List SectionCall
  closed : Finset SlotKey

/-- One lock section. `call` is the place of the caller among those that wait, `fresh` the
UUID that is drawn. -/
inductive LockSection where
  | check (closing : Bool) (key : SlotKey)
  | register (call : Nat) (fresh : PaneId)
  | removeSlot (call : Nat)
  | evict (call : Nat)
  | allocPane (session : SessionKey) (fresh : PaneId)
  | removeSession (session : SessionKey)
  deriving DecidableEq, Repr

namespace SharedIndex

def start : SharedIndex := ⟨.empty,[],∅⟩

/-- The PaneId is resolved: `pane_closed` goes on, the other callers are done. -/
def next (closing : Bool) (key : SlotKey) : List SectionCall :=
  if closing then [.removeSlot key] else []

/-- The read section. -/
def check (s : SharedIndex) (closing : Bool) (key : SlotKey) : SharedIndex :=
  if s.index.Registers key.1 key.2 then
    { s with calls := s.calls ++ [.register closing key] }
  else { s with calls := s.calls ++ next closing key }

/-- The write section does not look again. -/
def register (s : SharedIndex) (call : Nat) (closing : Bool) (key : SlotKey) (fresh : PaneId) :
    SharedIndex :=
  { s with
    index := s.index.register fresh key.1 key.2
    calls := s.calls.eraseIdx call ++ next closing key }

def removeSlot (s : SharedIndex) (call : Nat) (key : SlotKey) : SharedIndex :=
  let (index,remaining) := s.index.removePaneSlot key.1 key.2
  { index := index
    calls := s.calls.eraseIdx call ++ if remaining = 0 then [.evict key.1] else []
    closed := insert key s.closed }

def allocPane (s : SharedIndex) (session : SessionKey) (fresh : PaneId) : SharedIndex :=
  let (index,slot) := s.index.allocPane session fresh
  { s with index := index, closed := s.closed.erase (session,slot) }

def step (s : SharedIndex) : LockSection → Option SharedIndex
  | .check closing key => some (s.check closing key)
  | .register call fresh =>
    match s.calls[call]? with
    | some (.register closing key) =>
      if s.index.lookup fresh = none then some (s.register call closing key fresh) else none
    | _ => none
  | .removeSlot call =>
    match s.calls[call]? with
    | some (.removeSlot key) => some (s.removeSlot call key)
    | _ => none
  | .evict call =>
    match s.calls[call]? with
    | some (.evict session) =>
      some { s with index := s.index.removeSession session, calls := s.calls.eraseIdx call }
    | _ => none
  | .allocPane session fresh =>
    if s.index.lookup fresh = none then some (s.allocPane session fresh) else none
  | .removeSession session => some { s with index := s.index.removeSession session }

/-- No slot has two PaneIds, and a closed one has none. -/
structure Distinct (s : SharedIndex) : Prop where
  unique : s.index.SlotsUnique
  dead : ∀ key ∈ s.closed, ∀ p, s.index.lookup p ≠ some key

/-- The slot is mapped to no pane and was not closed since it was handed out. -/
def Vacant (s : SharedIndex) (key : SlotKey) : Prop :=
  s.index.panesOf key = [] ∧ key ∉ s.closed

instance (s : SharedIndex) (key : SlotKey) : Decidable (s.Vacant key) :=
  inferInstanceAs (Decidable (_ ∧ _))

/-- A write section finds its slot vacant still, and `alloc_pane` one that is not mapped. -/
def Current (s : SharedIndex) : LockSection → Prop
  | .register call fresh => ∀ c ∈ s.calls[call]?, s.index.lookup fresh = none →
    match c with
    | .register _ key => s.Vacant key
    | .removeSlot _ | .evict _ => True
  | .allocPane session fresh => s.index.lookup fresh = none →
    s.index.panesOf (session,s.index.counter session) = []
  | .check _ _ | .removeSlot _ | .evict _ | .removeSession _ => True

variable {s t : SharedIndex} {key : SlotKey} {fresh : PaneId} {session : SessionKey}

theorem panesOf_eq_nil {ix : PaneIndex} : ix.panesOf key = [] ↔ ∀ p, ix.lookup p ≠ some key := by
  rw [List.eq_nil_iff_forall_not_mem]
  exact forall_congr' fun p => not_congr PaneIndex.mem_panesOf

theorem distinct_start : start.Distinct :=
  ⟨PaneIndex.below_empty.1,by simp [start]⟩

/-- Panes that are taken out of the index leave the rest apart. -/
theorem Distinct.shrink (h : s.Distinct) {ix : PaneIndex} {calls : List SectionCall}
    {closed : Finset SlotKey} (hle : ∀ p k, ix.lookup p = some k → s.index.lookup p = some k)
    (hclosed : ∀ k ∈ closed, k ∈ s.closed ∨ ∀ p, ix.lookup p ≠ some k) :
    Distinct ⟨ix,calls,closed⟩ where
  unique p q k hp hq := h.unique p q k (hle p k hp) (hle q k hq)
  dead k hk p hp := by
    rcases hclosed k hk with hold | hnone
    · exact h.dead k hold p (hle p k hp)
    · exact hnone p hp

/-- A PaneId that is added keeps the slots apart just if its slot was free. -/
theorem distinct_register_iff (h : s.Distinct) (hfresh : s.index.lookup fresh = none)
    {ix : PaneIndex} (hix : ∀ p k, ix.lookup p = some k ↔
      (p = fresh ∧ k = key) ∨ (p ≠ fresh ∧ s.index.lookup p = some k))
    {calls : List SectionCall} {closed : Finset SlotKey} (hclosed : closed ⊆ s.closed) :
    Distinct ⟨ix,calls,closed⟩ ↔ s.index.panesOf key = [] ∧ key ∉ closed := by
  have hself : ix.lookup fresh = some key := (hix fresh key).mpr (Or.inl ⟨rfl,rfl⟩)
  constructor
  · intro hnew
    refine ⟨panesOf_eq_nil.mpr fun p hp => ?_,fun hk => hnew.dead key hk fresh hself⟩
    have hne : p ≠ fresh := by
      rintro rfl
      rw [hfresh] at hp
      cases hp
    exact hne (hnew.unique p fresh key ((hix p key).mpr (Or.inr ⟨hne,hp⟩)) hself)
  · rintro ⟨hnone,hkey⟩
    have hfree := panesOf_eq_nil.mp hnone
    refine ⟨fun p q k hp hq => ?_,fun k hk p hp => ?_⟩
    · rcases (hix p k).mp hp with ⟨rfl,rfl⟩ | ⟨-,hp⟩ <;>
        rcases (hix q k).mp hq with ⟨rfl,hk⟩ | ⟨-,hq⟩
      · rfl
      · exact absurd hq (hfree q)
      · exact absurd (hk ▸ hp) (hfree p)
      · exact h.unique p q k hp hq
    · rcases (hix p k).mp hp with ⟨-,rfl⟩ | ⟨-,hp⟩
      · exact hkey hk
      · exact h.dead k (hclosed hk) p hp

/-- The step lemma: of each section, whether it keeps the slots apart. -/
theorem current_iff (s : SharedIndex) (a : LockSection) (h : s.Distinct) :
    s.Current a ↔ ∀ t, s.step a = some t → t.Distinct := by
  cases a with
  | check closing k =>
    refine iff_of_true trivial fun t ht => ?_
    obtain rfl := Option.some.inj ht
    unfold check
    split <;> exact ⟨h.unique,h.dead⟩
  | register call fresh =>
    cases hc : s.calls[call]? with
    | none => simp [Current,step,hc]
    | some c =>
      cases c with
      | removeSlot k => simp [Current,step,hc]
      | evict session => simp [Current,step,hc]
      | register closing k =>
        by_cases hfresh : s.index.lookup fresh = none
        · simp only [Current,step,hc,Option.mem_def,Option.some.injEq,forall_eq',hfresh,if_true,
            forall_const]
          exact (distinct_register_iff h hfresh (fun _ _ => PaneIndex.lookup_register)
            (Finset.Subset.refl _)).symm
        · simp [Current,step,hc,hfresh]
  | removeSlot call =>
    refine iff_of_true trivial fun t ht => ?_
    simp only [step] at ht
    split at ht
    · rename_i k hk
      obtain rfl := Option.some.inj ht
      refine h.shrink (fun p q hq => (PaneIndex.lookup_removePaneSlot.mp hq).1) fun k' hk' => ?_
      rcases Finset.mem_insert.mp hk' with rfl | hold
      · exact Or.inr fun p hp => (PaneIndex.lookup_removePaneSlot.mp hp).2 rfl
      · exact Or.inl hold
    · cases ht
  | evict call =>
    refine iff_of_true trivial fun t ht => ?_
    simp only [step] at ht
    split at ht
    · obtain rfl := Option.some.inj ht
      exact h.shrink (fun p q hq => (PaneIndex.lookup_removeSession.mp hq).1) fun _ => Or.inl
    · cases ht
  | allocPane session fresh =>
    by_cases hfresh : s.index.lookup fresh = none
    · simp only [Current,step,hfresh,if_true,forall_const,Option.some.injEq,forall_eq']
      have hiff : (s.allocPane session fresh).Distinct ↔
          s.index.panesOf (session,s.index.counter session) = [] ∧
            (session,s.index.counter session) ∉
              s.closed.erase (session,s.index.counter session) :=
        distinct_register_iff h hfresh (fun _ _ => PaneIndex.lookup_allocPane)
          (Finset.erase_subset _ _)
      rw [hiff,and_iff_left (Finset.notMem_erase _ _)]
    · simp [Current,step,hfresh]
  | removeSession session =>
    refine iff_of_true trivial fun t ht => ?_
    obtain rfl := Option.some.inj ht
    exact h.shrink (fun p q hq => (PaneIndex.lookup_removeSession.mp hq).1) fun _ => Or.inl

/-- A caller that is not interrupted does what the call as one section does. -/
theorem exec_uninterrupted (s : SharedIndex) (closing : Bool) (key : SlotKey) (fresh : PaneId)
    (hfresh : s.index.lookup fresh = none) :
    ∃ t, exec step s (.check closing key :: if s.index.Registers key.1 key.2 then
        [.register s.calls.length fresh] else []) = some t ∧
      t.index = (s.index.getOrAllocPaneBySlot key.1 key.2 fresh).1 ∧
      t.calls = s.calls ++ next closing key := by
  by_cases hr : s.index.Registers key.1 key.2
  · rw [if_pos hr,PaneIndex.getOrAlloc_registers hr]
    refine ⟨(s.check closing key).register s.calls.length closing key fresh,?_,?_,?_⟩
    · simp [step,check,hr,hfresh]
    · simp [check,hr,register]
    · simp [check,hr,register,List.eraseIdx_append_of_length_le]
  · rw [if_neg hr,PaneIndex.getOrAlloc_keeps hr]
    refine ⟨s.check closing key,rfl,?_,?_⟩ <;> simp [check,hr]

end SharedIndex

open SharedIndex

/-- Slots keep one PaneId and stay closed exactly in the runs in which each write section
finds its slot still vacant, and `alloc_pane` one that is mapped to no pane. -/
theorem slots_distinct_iff (sections : List LockSection) :
    Always SharedIndex.step Distinct .start sections ↔
      Along SharedIndex.step Current .start sections :=
  (along_iff_always (fun _ _ _ _ _ => trivial) (fun s a _ h => current_iff s a h) trivial
    distinct_start).symm

/-- Two callers look up the same slot before either registers it; and one looks it up, the
pane is closed, and then it is registered. -/
theorem slot_bound_twice :
    (¬∀ sections, Always SharedIndex.step (fun s => s.index.SlotsUnique) .start sections) ∧
      ¬∀ sections, Always SharedIndex.step (fun s => ∀ key ∈ s.closed, ∀ p,
        s.index.lookup p ≠ some key) .start sections := by
  refine ⟨fun h => ?_,fun h => ?_⟩
  · have hrun := (h [.check false ("s",0),.check false ("s",0),.register 0 ⟨1⟩,
      .register 0 ⟨2⟩]).last rfl
    exact absurd (hrun ⟨1⟩ ⟨2⟩ ("s",0) (by decide) (by decide)) (by decide)
  · have hrun := (h [.allocPane "s" ⟨1⟩,.allocPane "s" ⟨2⟩,.check true ("s",0),.removeSlot 0,
      .check true ("s",1),.removeSlot 0,.evict 0,.check false ("s",0),.register 0 ⟨3⟩]).last rfl
    exact absurd (by decide) (hrun ("s",0) (by decide) ⟨3⟩)

end Pyre.Supervisor
