import Pyre.Supervisor.PaneIndex

/-!
Panes opened while the last pane of a session is closed. Whether a pane remains is
looked up in the supervisor's index and in the worker's map, and the session is removed
and the worker told to shut down in steps of their own.
-/

set_option autoImplicit false

namespace Pyre.Supervisor
open Base

inductive OpenPhase where
  | asked
  | inserted
  | returned
  deriving DecidableEq, Repr

/-- An `open_pane` that has its slot. `closed` tells that a `close_pane` has found it since. -/
structure Opened where
  pane : PaneId
  slot : UInt32
  phase : OpenPhase
  closed : Bool
  deriving DecidableEq, Repr

/-- Where a `close_pane` of the worker stands that has taken the slot out of its map; from
`checking` to `unregistering` it waits for `pane_closed`. -/
inductive ClosePhase where
  | deleting
  | checking
  | registering
  | removing
  | evicting
  | unregistering
  | notified
  | telling
  deriving DecidableEq, Repr

structure Closing where
  slot : UInt32
  phase : ClosePhase
  deriving DecidableEq, Repr

/-- One session, its worker and the calls under way. `registered` tells whether the worker
has its entry in the registry, `panes` is the worker's map, and `told` its shutdown flag.
`clients` counts the calls that have the worker's client and no slot. -/
structure LastClose where
  index : PaneIndex
  registered : Bool
  panes : List UInt32
  told : Bool
  clients : Nat
  opens : List Opened
  closes : List Closing

/-- `call` is the place of the call among the opens or the closes. -/
inductive LastCloseStep where
  | getClient
  | alloc (fresh : PaneId)
  | insert (call : Nat)
  | fail (call : Nat)
  | ret (call : Nat)
  | remove (slot : UInt32)
  | delete (call : Nat) (ok : Bool)
  | lost (call : Nat)
  | check (call : Nat)
  | register (call : Nat) (fresh : PaneId)
  | removeSlot (call : Nat)
  | evict (call : Nat)
  | unregister (call : Nat)
  | look (call : Nat)
  | tell (call : Nat)
  deriving DecidableEq, Repr

namespace LastClose

/-- A session whose worker has registered. -/
def start : LastClose := ⟨.empty,true,[],false,0,[],[]⟩

variable (session : SessionKey)

def closeAt (s : LastClose) (call : Nat) (phase : ClosePhase) : Option Closing :=
  s.closes[call]?.filter fun c => c.phase = phase

def moveClose (s : LastClose) (call : Nat) (phase : ClosePhase) : LastClose :=
  { s with closes := s.closes.modify call fun c => { c with phase := phase } }

def dropClose (s : LastClose) (call : Nat) : LastClose :=
  { s with closes := s.closes.eraseIdx call }

def moveOpen (s : LastClose) (call : Nat) (phase : OpenPhase) : LastClose :=
  { s with opens := s.opens.modify call fun o => { o with phase := phase } }

/-- `open_pane` takes its slot. -/
def alloc (s : LastClose) (fresh : PaneId) : LastClose :=
  let (index,slot) := s.index.allocPane session fresh
  { s with
    index := index
    clients := s.clients-1
    opens := s.opens ++ [⟨fresh,slot,.asked,false⟩] }

/-- `close_pane` of the worker has found the slot in the map. -/
def remove (s : LastClose) (slot : UInt32) : LastClose :=
  { s with
    panes := s.panes.erase slot
    opens := s.opens.map fun o => if o.slot = slot then { o with closed := true } else o
    closes := s.closes ++ [⟨slot,.deleting⟩] }

def step (s : LastClose) : LastCloseStep → Option LastClose
  | .getClient => if s.registered then some { s with clients := s.clients+1 } else none
  | .alloc fresh =>
    if 0 < s.clients ∧ s.index.lookup fresh = none then some (s.alloc session fresh) else none
  | .insert call =>
    (s.opens[call]?.filter fun o => o.phase = .asked).map fun o =>
      { s.moveOpen call .inserted with panes := o.slot :: s.panes.erase o.slot }
  | .fail call =>
    (s.opens[call]?.filter fun o => o.phase ≠ .returned).map fun _ =>
      { s with opens := s.opens.eraseIdx call }
  | .ret call =>
    (s.opens[call]?.filter fun o => o.phase = .inserted).map fun _ => s.moveOpen call .returned
  | .remove slot => if slot ∈ s.panes then some (s.remove slot) else none
  | .delete call ok => (s.closeAt call .deleting).map fun _ =>
    if ok then s.moveClose call .checking else s.dropClose call
  | .lost call => (s.closeAt call .checking).map fun _ => s.moveClose call .notified
  | .check call => (s.closeAt call .checking).map fun c =>
    s.moveClose call (if s.index.Registers session c.slot then .registering else .removing)
  | .register call fresh =>
    if s.index.lookup fresh = none then
      (s.closeAt call .registering).map fun c =>
        { s.moveClose call .removing with index := s.index.register fresh session c.slot }
    else none
  | .removeSlot call => (s.closeAt call .removing).map fun c =>
    let (index,remaining) := s.index.removePaneSlot session c.slot
    { s.moveClose call (if remaining = 0 then .evicting else .notified) with index := index }
  | .evict call => (s.closeAt call .evicting).map fun _ =>
    { s.moveClose call .unregistering with index := s.index.removeSession session }
  | .unregister call => (s.closeAt call .unregistering).map fun _ =>
    { s.moveClose call .notified with registered := false }
  | .look call => (s.closeAt call .notified).map fun _ =>
    if s.panes = [] then s.moveClose call .telling else s.dropClose call
  | .tell call => (s.closeAt call .telling).map fun _ => { s.dropClose call with told := true }

/-- The pane is known to the supervisor, and its worker goes on. -/
structure Served (s : LastClose) (o : Opened) : Prop where
  mapped : s.index.lookup o.pane = some (session,o.slot)
  registered : s.registered = true
  running : s.told = false

/-- What the clients were told of is served until it is closed. -/
def Kept (s : LastClose) : Prop :=
  ∀ o ∈ s.opens, o.phase = .returned → o.closed = false → s.Served session o

/-- No pane has been opened, or has a slot, that is not closed. -/
def Deserted (s : LastClose) : Prop := ∀ o ∈ s.opens, o.closed = true

/-- A slot is taken while the session is registered and its worker goes on. The session is
removed, and the worker told to shut down, when no pane has been opened meanwhile; and a slot
is removed that was not handed out again. -/
def Orderly (s : LastClose) : LastCloseStep → Prop
  | .alloc _ => s.registered = true ∧ s.told = false
  | .removeSlot call => ∀ c ∈ s.closes[call]?, ∀ o ∈ s.opens, o.slot = c.slot → o.closed = true
  | .evict _ | .unregister _ | .tell _ => s.Deserted
  | .getClient | .insert _ | .fail _ | .ret _ | .remove _ | .delete _ _ | .lost _ | .check _
  | .register _ _ | .look _ => True

instance (s : LastClose) : Decidable s.Deserted := inferInstanceAs (Decidable (∀ _ ∈ _, _))

instance (s : LastClose) : DecidablePred s.Orderly
  | .alloc _ => inferInstanceAs (Decidable (_ ∧ _))
  | .removeSlot _ => inferInstanceAs (Decidable (∀ _ ∈ _, _))
  | .evict _ | .unregister _ | .tell _ => inferInstanceAs (Decidable (Deserted _))
  | .getClient | .insert _ | .fail _ | .ret _ | .remove _ | .delete _ _ | .lost _ | .check _
  | .register _ _ | .look _ => isTrue trivial

/-- All that is not closed is served, before the call returns too. -/
def Inv (s : LastClose) : Prop := ∀ o ∈ s.opens, o.closed = false → s.Served session o

variable {session} {s t : LastClose} {o : Opened} {c : Closing} {call : Nat}

theorem kept_of_inv (h : s.Inv session) : s.Kept session := fun o ho _ hc => h o ho hc

theorem inv_start : start.Inv session := by simp [Inv,start]

/-- Only the calls move. -/
theorem Inv.moves (h : s.Inv session) (hix : t.index = s.index)
    (hr : t.registered = s.registered) (ht : t.told = s.told)
    (ho : ∀ o ∈ t.opens, o.closed = false →
      ∃ o' ∈ s.opens, o'.pane = o.pane ∧ o'.slot = o.slot ∧ o'.closed = false) :
    t.Inv session := by
  intro o hmem hc
  obtain ⟨o',hmem',hpane,hslot,hc'⟩ := ho o hmem hc
  obtain ⟨hm,hreg,hrun⟩ := h o' hmem' hc'
  exact ⟨by rw [hix,← hpane,← hslot,hm],hr.trans hreg,ht.trans hrun⟩

theorem Inv.same (h : s.Inv session) (hix : t.index = s.index)
    (hr : t.registered = s.registered) (ht : t.told = s.told) (ho : t.opens = s.opens) :
    t.Inv session :=
  h.moves hix hr ht fun o hmem hc => ⟨o,ho ▸ hmem,rfl,rfl,hc⟩

/-- A call moves on in its phases. -/
theorem Inv.moveOpen (h : s.Inv session) (call : Nat) (phase : OpenPhase) :
    (s.moveOpen call phase).Inv session := by
  refine h.moves rfl rfl rfl fun o hmem hc => ?_
  obtain ⟨i,hi,rfl⟩ := List.mem_iff_getElem.mp hmem
  simp only [LastClose.moveOpen,List.length_modify] at hi
  refine ⟨s.opens[i],List.getElem_mem hi,?_⟩
  simp only [LastClose.moveOpen,List.getElem_modify] at hc ⊢
  split at hc <;> simp_all

theorem Inv.deserted (h : s.Deserted) (ho : t.opens = s.opens) : t.Inv session := by
  intro o hmem hc
  rw [ho] at hmem
  rw [h o hmem] at hc
  cases hc

theorem closeAt_mem {phase : ClosePhase} (h : s.closeAt call phase = some c) :
    c ∈ s.closes[call]? := (Option.filter_eq_some_iff.mp h).1

/-- A slot that is taken is served while the session is. -/
theorem Inv.alloc (h : s.Inv session) {fresh : PaneId} (hfresh : s.index.lookup fresh = none)
    (hr : s.registered = true) (ht : s.told = false) : (s.alloc session fresh).Inv session := by
  intro o hmem hc
  rcases List.mem_append.mp hmem with hold | hnew
  · obtain ⟨hm,-,-⟩ := h o hold hc
    have hne : o.pane ≠ fresh := by
      intro heq
      rw [heq,hfresh] at hm
      cases hm
    exact ⟨PaneIndex.lookup_allocPane.mpr (Or.inr ⟨hne,hm⟩),hr,ht⟩
  · obtain rfl := List.mem_singleton.mp hnew
    exact ⟨PaneIndex.lookup_allocPane.mpr (Or.inl ⟨rfl,rfl⟩),hr,ht⟩

theorem Inv.remove (h : s.Inv session) (slot : UInt32) : (s.remove slot).Inv session := by
  refine h.moves rfl rfl rfl fun o hmem hc => ?_
  obtain ⟨o',hmem',rfl⟩ := List.mem_map.mp hmem
  split at hc
  · cases hc
  · rename_i hne
    rw [if_neg hne]
    exact ⟨o',hmem',rfl,rfl,hc⟩

theorem Inv.removeSlot (h : s.Inv session) (hs : s.Orderly (.removeSlot call))
    (hc : c ∈ s.closes[call]?) (phase : ClosePhase) :
    Inv session { s.moveClose call phase with
      index := (s.index.removePaneSlot session c.slot).1 } := by
  intro o hmem hopen
  obtain ⟨hm,hr,ht⟩ := h o hmem hopen
  refine ⟨PaneIndex.lookup_removePaneSlot.mpr ⟨hm,fun heq => ?_⟩,hr,ht⟩
  have hclosed := hs c hc o hmem (Prod.mk.inj heq).2
  rw [hopen] at hclosed
  cases hclosed

theorem Inv.register (h : s.Inv session) {fresh : PaneId} (hfresh : s.index.lookup fresh = none)
    (slot : UInt32) : Inv session { s.moveClose call .removing with
      index := s.index.register fresh session slot } := by
  intro o hmem hopen
  obtain ⟨hm,hr,ht⟩ := h o hmem hopen
  have hne : o.pane ≠ fresh := by
    intro heq
    rw [heq,hfresh] at hm
    cases hm
  exact ⟨PaneIndex.lookup_register.mpr (Or.inr ⟨hne,hm⟩),hr,ht⟩

theorem step_inv (s : LastClose) (a : LastCloseStep) (t : LastClose) (h : s.Inv session)
    (hs : s.Orderly a) (hstep : s.step session a = some t) : t.Inv session := by
  cases a with
  | getClient =>
    rw [step,Option.ite_none_right_eq_some,Option.some.injEq] at hstep
    obtain ⟨-,rfl⟩ := hstep
    exact h.same rfl rfl rfl rfl
  | alloc fresh =>
    rw [step,Option.ite_none_right_eq_some,Option.some.injEq] at hstep
    obtain ⟨⟨-,hfresh⟩,rfl⟩ := hstep
    exact h.alloc hfresh hs.1 hs.2
  | insert call =>
    obtain ⟨o,-,rfl⟩ := Option.map_eq_some_iff.mp hstep
    exact (h.moveOpen call .inserted).same rfl rfl rfl rfl
  | fail call =>
    obtain ⟨o,-,rfl⟩ := Option.map_eq_some_iff.mp hstep
    exact h.moves rfl rfl rfl fun o hmem hc => ⟨o,List.mem_of_mem_eraseIdx hmem,rfl,rfl,hc⟩
  | ret call =>
    obtain ⟨o,-,rfl⟩ := Option.map_eq_some_iff.mp hstep
    exact h.moveOpen call .returned
  | remove slot =>
    rw [step,Option.ite_none_right_eq_some,Option.some.injEq] at hstep
    obtain ⟨-,rfl⟩ := hstep
    exact h.remove slot
  | delete call ok =>
    obtain ⟨c,-,rfl⟩ := Option.map_eq_some_iff.mp hstep
    split <;> exact h.same rfl rfl rfl rfl
  | lost call =>
    obtain ⟨c,-,rfl⟩ := Option.map_eq_some_iff.mp hstep
    exact h.same rfl rfl rfl rfl
  | check call =>
    obtain ⟨c,-,rfl⟩ := Option.map_eq_some_iff.mp hstep
    exact h.same rfl rfl rfl rfl
  | register call fresh =>
    rw [step,Option.ite_none_right_eq_some] at hstep
    obtain ⟨hfresh,hstep⟩ := hstep
    obtain ⟨c,-,rfl⟩ := Option.map_eq_some_iff.mp hstep
    exact h.register hfresh c.slot
  | removeSlot call =>
    obtain ⟨c,hc,rfl⟩ := Option.map_eq_some_iff.mp hstep
    exact h.removeSlot hs (closeAt_mem hc) _
  | evict call =>
    obtain ⟨c,-,rfl⟩ := Option.map_eq_some_iff.mp hstep
    exact Inv.deserted hs rfl
  | unregister call =>
    obtain ⟨c,-,rfl⟩ := Option.map_eq_some_iff.mp hstep
    exact Inv.deserted hs rfl
  | look call =>
    obtain ⟨c,-,rfl⟩ := Option.map_eq_some_iff.mp hstep
    split <;> exact h.same rfl rfl rfl rfl
  | tell call =>
    obtain ⟨c,-,rfl⟩ := Option.map_eq_some_iff.mp hstep
    exact Inv.deserted hs rfl

end LastClose

open LastClose

/-- What `open_pane` has returned is served until it is closed, in every run whose steps are
orderly. -/
theorem opened_panes_kept (session : SessionKey) {steps : List LastCloseStep}
    (h : Along (LastClose.step session) Orderly .start steps) :
    Always (LastClose.step session) (Kept session) .start steps :=
  (h.invariant step_inv inv_start).mono fun _ => kept_of_inv

/-- A pane is opened and closed, and another opened before it. -/
theorem opened_panes_kept_second :
    Always (LastClose.step "s") (Kept "s") .start
      [.getClient,.alloc ⟨1⟩,.insert 0,.ret 0,.getClient,.alloc ⟨2⟩,.insert 1,.ret 1,.remove 0,
        .delete 0 true,.check 0,.removeSlot 0,.look 0] :=
  opened_panes_kept "s" (by decide)

/-- While the only pane is closed another one is opened: it is taken out of the index, its
session out of the registry, and its worker told to shut down. -/
theorem opened_pane_lost :
    ¬∀ steps, Always (LastClose.step "s") (Kept "s") .start steps := by
  intro h
  have hrun := (h [.getClient,.alloc ⟨1⟩,.insert 0,.ret 0,.getClient,.remove 0,.delete 0 true,
    .check 0,.removeSlot 0,.alloc ⟨2⟩,.evict 0,.unregister 0,.look 0,.insert 1,.ret 1,
    .tell 0]).last rfl
  have hserved := hrun ⟨⟨2⟩,1,.returned,false⟩ (by decide) rfl rfl
  exact absurd hserved.mapped (by decide)

end Pyre.Supervisor
