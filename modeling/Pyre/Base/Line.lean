import Mathlib.Data.List.Perm.Basic
import Pyre.Base.Consecutive
import Pyre.Base.Run

/-!
Items that go through a line of rooms. In each room they wait until they are taken, in any
order, and what the last room lets go arrives. What arrives is in the order of sending just
when each item arrives before those sent after it.
-/

set_option autoImplicit false

namespace Pyre.Base

variable {α : Type*}

/-- The element at a place and the list without it. -/
def takeAt (l : List α) (i : Nat) : Option (α × List α) := l[i]?.map fun a => (a,l.eraseIdx i)

theorem perm_takeAt {l l' : List α} {i : Nat} {a : α} (h : takeAt l i = some (a,l')) :
    l.Perm (a :: l') := by
  obtain ⟨b,hb,heq⟩ := Option.map_eq_some_iff.mp h
  obtain ⟨rfl,rfl⟩ := Prod.mk.inj heq
  obtain ⟨hi,rfl⟩ := List.getElem?_eq_some_iff.mp hb
  exact (List.getElem_cons_eraseIdx_perm hi).symm

/-! The rooms, the one that is left last in front. -/

namespace Rooms

/-- Into the room that is entered first. -/
def enter (a : α) : List (List α) → List (List α)
  | [] => []
  | [room] => [room ++ [a]]
  | room :: rooms => room :: enter a rooms

/-- From the room behind into the one with the number. -/
def pass (i : Nat) : Nat → List (List α) → Option (List (List α))
  | 0, room :: behind :: rooms => (takeAt behind i).map fun taken =>
    (room ++ [taken.1]) :: taken.2 :: rooms
  | k+1, room :: rooms => (pass i k rooms).map (room :: ·)
  | _, _ => none

def takeFrom (i : Nat) : Nat → List (List α) → Option (α × List (List α))
  | 0, room :: rooms => (takeAt room i).map fun taken => (taken.1,taken.2 :: rooms)
  | k+1, room :: rooms => (takeFrom i k rooms).map fun taken => (taken.1,room :: taken.2)
  | _, [] => none

variable {rooms rooms' : List (List α)} {a : α} {i k : Nat}

theorem perm_enter (a : α) (h : rooms ≠ []) :
    (enter a rooms).flatten.Perm (a :: rooms.flatten) := by
  induction rooms with
  | nil => exact absurd rfl h
  | cons room rooms ih =>
    cases rooms with
    | nil => simp [enter,List.perm_append_singleton]
    | cons behind rooms =>
      have hrest := (ih (by simp)).append_left room
      simpa only [enter,List.flatten_cons] using hrest.trans List.perm_middle

theorem perm_pass (h : pass i k rooms = some rooms') : rooms'.flatten.Perm rooms.flatten := by
  induction k generalizing rooms rooms' with
  | zero =>
    match rooms with
    | [] => cases h
    | [_] => cases h
    | room :: behind :: rooms =>
      obtain ⟨⟨a,behind'⟩,htake,rfl⟩ := Option.map_eq_some_iff.mp h
      have hmove : ([a] ++ behind').Perm behind := (perm_takeAt htake).symm
      simpa [List.append_assoc] using ((hmove.append_right rooms.flatten).append_left room)
  | succ k ih =>
    cases rooms with
    | nil => cases h
    | cons room rooms =>
      obtain ⟨rest,hrest,rfl⟩ := Option.map_eq_some_iff.mp h
      exact (ih hrest).append_left room

theorem perm_takeFrom (h : takeFrom i k rooms = some (a,rooms')) :
    rooms.flatten.Perm (a :: rooms'.flatten) := by
  induction k generalizing rooms rooms' with
  | zero =>
    cases rooms with
    | nil => cases h
    | cons room rooms =>
      obtain ⟨⟨b,room'⟩,htake,heq⟩ := Option.map_eq_some_iff.mp h
      obtain ⟨rfl,rfl⟩ := Prod.mk.inj heq
      exact (perm_takeAt htake).append_right rooms.flatten
  | succ k ih =>
    cases rooms with
    | nil => cases h
    | cons room rooms =>
      obtain ⟨⟨b,rest⟩,hrest,heq⟩ := Option.map_eq_some_iff.mp h
      obtain ⟨rfl,rfl⟩ := Prod.mk.inj heq
      exact ((ih hrest).append_left room).trans List.perm_middle

end Rooms

structure Item (α : Type*) where
  number : Nat
  content : α
  deriving DecidableEq, Repr

/-- `sent` and `arrived` are logs. -/
structure Line (α : Type*) where
  sent : List (Item α)
  rooms : List (List (Item α))
  arrived : List (Item α)
  deriving DecidableEq, Repr

/-- `pass` goes into a room, `lose` takes an item out of one. -/
inductive LineStep (α : Type*) where
  | send (content : α)
  | pass (room place : Nat)
  | arrive (place : Nat)
  | lose (room place : Nat)
  deriving DecidableEq, Repr

namespace Line

/-- A line with as many rooms, all empty. -/
def empty (rooms : Nat) : Line α := ⟨[],List.replicate rooms [],[]⟩

def step (s : Line α) : LineStep α → Option (Line α)
  | .send content =>
    if s.rooms = [] then none
    else
      let item : Item α := ⟨s.sent.length,content⟩
      some { s with sent := s.sent ++ [item], rooms := Rooms.enter item s.rooms }
  | .pass room i => (Rooms.pass i room s.rooms).map fun rooms => { s with rooms }
  | .arrive i => (Rooms.takeFrom i 0 s.rooms).map fun taken =>
    { s with rooms := taken.2, arrived := s.arrived ++ [taken.1] }
  | .lose room i => (Rooms.takeFrom i room s.rooms).map fun taken => { s with rooms := taken.2 }

/-- Nothing is lost, and what arrives was sent first of all that is on its way. -/
def OldestFirst (s : Line α) : LineStep α → Prop
  | .arrive i => ∀ taken ∈ Rooms.takeFrom i 0 s.rooms, ∀ b ∈ s.rooms.flatten,
    taken.1.number ≤ b.number
  | .lose room i => Rooms.takeFrom i room s.rooms = none
  | _ => True

/-- Every item has arrived or is on its way, and what has arrived was sent first. -/
structure Delivers (s : Line α) : Prop where
  kept : s.sent.Perm (s.arrived ++ s.rooms.flatten)
  order : s.arrived <+: s.sent

/-- The items on their way are those behind what has arrived. -/
theorem Delivers.rest {s : Line α} (h : s.Delivers) :
    ∃ rest, s.sent = s.arrived ++ rest ∧ rest.Perm s.rooms.flatten := by
  obtain ⟨rest,hrest⟩ := h.order
  refine ⟨rest,hrest.symm,?_⟩
  have hkept := h.kept
  rw [← hrest] at hkept
  exact (List.perm_append_left_iff s.arrived).mp hkept

theorem Delivers.arrived_of_settled {s : Line α} (h : s.Delivers) (hnil : s.rooms.flatten = []) :
    s.arrived = s.sent := by
  obtain ⟨rest,hsent,hperm⟩ := h.rest
  rw [hnil,List.perm_nil] at hperm
  rw [hsent,hperm,List.append_nil]

theorem delivers_empty (rooms : Nat) : (empty rooms : Line α).Delivers where
  kept := by simp [empty]
  order := List.nil_prefix

theorem numbered_empty (rooms : Nat) :
    Consecutive Item.number 0 (empty rooms : Line α).sent := trivial

theorem numbered_step {s t : Line α} {e : LineStep α}
    (h : Consecutive Item.number 0 s.sent) (hstep : s.step e = some t) :
    Consecutive Item.number 0 t.sent := by
  cases e with
  | send content =>
    simp only [step,Option.ite_none_left_eq_some,Option.some.injEq] at hstep
    obtain ⟨-,rfl⟩ := hstep
    exact h.snoc (by simp)
  | pass room i =>
    obtain ⟨rooms,-,rfl⟩ := Option.map_eq_some_iff.mp hstep
    exact h
  | arrive i =>
    obtain ⟨taken,-,rfl⟩ := Option.map_eq_some_iff.mp hstep
    exact h
  | lose room i =>
    obtain ⟨taken,-,rfl⟩ := Option.map_eq_some_iff.mp hstep
    exact h

/-- The item whose turn it is has the smallest number of all on their way. -/
theorem order_arrive_iff {s : Line α} (hnum : Consecutive Item.number 0 s.sent) (h : s.Delivers)
    {a : Item α} (ha : a ∈ s.rooms.flatten) :
    s.arrived ++ [a] <+: s.sent ↔ ∀ b ∈ s.rooms.flatten, a.number ≤ b.number := by
  obtain ⟨rest,hsent,hperm⟩ := h.rest
  rw [hsent,Consecutive.append_iff] at hnum
  rw [hsent,List.prefix_append_right_inj]
  cases rest with
  | nil => exact absurd (hperm.mem_iff.mpr ha) List.not_mem_nil
  | cons b rest =>
    have hmem := hperm.mem_iff.mpr ha
    rw [List.cons_prefix_cons]
    constructor
    · rintro ⟨rfl,-⟩ c hc
      have hlow := hnum.2.lower c (hperm.mem_iff.mpr hc)
      exact hnum.2.1.le.trans hlow
    · intro hle
      have hhead := hnum.2.eq_head hmem (hle b (hperm.mem_iff.mp List.mem_cons_self))
      exact ⟨hhead,List.nil_prefix⟩

theorem delivers_step_iff {s : Line α} {e : LineStep α}
    (hnum : Consecutive Item.number 0 s.sent) (h : s.Delivers) :
    s.OldestFirst e ↔ ∀ t, s.step e = some t → t.Delivers := by
  cases e with
  | send content =>
    refine iff_of_true trivial fun t hstep => ?_
    simp only [step,Option.ite_none_left_eq_some,Option.some.injEq] at hstep
    obtain ⟨hne,rfl⟩ := hstep
    refine ⟨?_,h.order.trans (List.prefix_append _ _)⟩
    have hlast := (h.kept.append_right [⟨s.sent.length,content⟩])
    rw [List.append_assoc] at hlast
    refine hlast.trans (List.Perm.append_left _ ?_)
    exact (List.perm_append_singleton _ _).trans (Rooms.perm_enter _ hne).symm
  | pass room i =>
    refine iff_of_true trivial fun t hstep => ?_
    obtain ⟨rooms,hrooms,rfl⟩ := Option.map_eq_some_iff.mp hstep
    exact ⟨h.kept.trans ((Rooms.perm_pass hrooms).symm.append_left _),h.order⟩
  | arrive i =>
    simp only [OldestFirst,step]
    cases htake : Rooms.takeFrom i 0 s.rooms with
    | none => simp
    | some taken =>
      obtain ⟨a,rooms⟩ := taken
      have hperm := Rooms.perm_takeFrom htake
      have ha : a ∈ s.rooms.flatten := hperm.mem_iff.mpr List.mem_cons_self
      simp only [Option.mem_some_iff,forall_eq',Option.map_some,Option.some.injEq]
      rw [← order_arrive_iff hnum h ha]
      refine ⟨fun horder => ⟨?_,horder⟩,fun hdel => hdel.order⟩
      have hkept := h.kept.trans (hperm.append_left s.arrived)
      simpa [List.append_assoc] using hkept
  | lose room i =>
    simp only [OldestFirst,step]
    cases htake : Rooms.takeFrom i room s.rooms with
    | none => simp
    | some taken =>
      obtain ⟨a,rooms⟩ := taken
      have hlen := (Rooms.perm_takeFrom htake).length_eq
      refine iff_of_false (by simp) fun hall => ?_
      have hbefore := h.kept.length_eq
      have hafter := (hall _ rfl).kept.length_eq
      simp only [List.length_append,List.length_cons] at hlen hbefore hafter
      omega

end Line

end Pyre.Base
