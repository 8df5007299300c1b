import Mathlib.Data.List.Basic
import Pyre.Base.Run
import Pyre.Base.Timers

/-!
The stack of toasts. Cards are told apart by the order they were made in. A card leaves in two
steps: `dismiss` marks it, and the end of its animation or a timer takes it off the page.
-/

set_option autoImplicit false

namespace Pyre.Gui.Toast
open Base

inductive ToastKind where
  | error
  | info
  | success
  deriving DecidableEq, Repr

def maxVisible : Nat := 4

def dismissMs : ToastKind → Nat
  | .error => 6000
  | .info => 4000
  | .success => 4000

def exitFallbackMs : Nat := 120

/-- `badge` is the number the badge shows, `hit` when the card was last asked for. -/
structure CardState where
  message : String
  kind : ToastKind
  count : Nat
  timer : Nat
  badge : Option Nat
  hit : Nat
  deriving DecidableEq, Repr

/-- A card on the page; `out` is the class `toast--out`. -/
structure Node where
  id : Nat
  out : Bool
  deriving DecidableEq, Repr

inductive TimerCall where
  | dismiss (node : Nat)
  | remove (node : Nat)
  deriving DecidableEq, Repr

def TimerCall.node : TimerCall → Nat
  | dismiss node => node
  | remove node => node

/-- `nodes` are the children of the stack in order, `cards` has the state of every card made and
`calls` every call of `toast`. -/
structure Stack where
  clock : Timers TimerCall
  nodes : List Node
  cards : List CardState
  calls : List (String × ToastKind)
  deriving Repr

namespace Stack

def start : Stack := ⟨.start,[],[],[]⟩

/-- `.toast:not(.toast--out)` -/
def live (s : Stack) : List Nat := (s.nodes.filter fun n => !n.out).map Node.id

def dismiss (s : Stack) (id : Nat) : Stack :=
  if id ∈ s.live then
    { s with
      clock := s.clock.set exitFallbackMs (.remove id)
      nodes := s.nodes.map fun n => if n.id = id then { n with out := true } else n }
  else s

def remove (s : Stack) (id : Nat) : Stack :=
  { s with nodes := s.nodes.filter fun n => n.id ≠ id }

def updateBadge (card : CardState) : CardState :=
  if card.count < 2 then card else { card with badge := some card.count }

def bump (card : CardState) (timer now : Nat) : CardState :=
  { updateBadge { card with count := card.count + 1 } with timer := timer, hit := now }

/-- A call that repeats what the newest card says. -/
def repeated (s : Stack) (id : Nat) (card : CardState) : Stack :=
  { s with
    clock := (s.clock.clear card.timer).set (dismissMs card.kind) (.dismiss id)
    cards := s.cards.set id (bump card s.clock.next s.clock.now) }

def shown (s : Stack) (message : String) (kind : ToastKind) : Stack :=
  { s with
    clock := s.clock.set (dismissMs kind) (.dismiss s.cards.length)
    nodes := s.nodes ++ [⟨s.cards.length,false⟩]
    cards := s.cards ++ [⟨message,kind,1,s.clock.next,none,s.clock.now⟩] }

def evict (s : Stack) : Stack :=
  (s.live.take (s.live.length - maxVisible)).foldl dismiss s

/-- The newest card still to be seen, if it says the same. -/
def newest (s : Stack) (message : String) (kind : ToastKind) : Option (Nat × CardState) :=
  match s.live.getLast? with
  | none => none
  | some id =>
    match s.cards[id]? with
    | none => none
    | some card => if card.message = message ∧ card.kind = kind then some (id,card) else none

def toast (s : Stack) (message : String) (kind : ToastKind) : Stack :=
  let s := { s with calls := s.calls ++ [(message,kind)] }
  match s.newest message kind with
  | some (id,card) => s.repeated id card
  | none => (s.shown message kind).evict

def run (s : Stack) : TimerCall → Stack
  | .dismiss id => s.dismiss id
  | .remove id => s.remove id

end Stack

/-- `animationEnd` is heard of the cards that leave. -/
inductive StackOp where
  | toast (message : String) (kind : ToastKind)
  | tick (ms : Nat)
  | fire (timer : Nat)
  | animationEnd (node : Nat)
  deriving Repr

def step (s : Stack) : StackOp → Option Stack
  | .toast message kind => some (s.toast message kind)
  | .tick ms => some { s with clock := s.clock.tick ms }
  | .fire timer => (s.clock.dueAt timer).map fun t =>
    ({ s with clock := s.clock.clear timer } : Stack).run t.call
  | .animationEnd node => if (⟨node,true⟩ : Node) ∈ s.nodes then some (s.remove node) else none

namespace Stack

variable {s : Stack} {id : Nat} {card : CardState}

/-- What the badge of a card shows: how often it was asked for, from the second time on. -/
def badgeOf (count : Nat) : Option Nat := if count < 2 then none else some count

/-- The one timer that dismisses a card. -/
def dismissal (id : Nat) (card : CardState) : Timer TimerCall :=
  ⟨card.timer,card.hit + dismissMs card.kind,.dismiss id⟩

/-- The calls the cards stand for. -/
def callsOf (cards : List CardState) : List (String × ToastKind) :=
  cards.flatMap fun card => List.replicate card.count (card.message,card.kind)

/-- All but the number of the cards, which `shown` exceeds for a moment. -/
structure Kept (s : Stack) : Prop where
  clock : s.clock.Valid
  sorted : (s.nodes.map Node.id).Pairwise (· < ·)
  known : ∀ n ∈ s.nodes, n.id < s.cards.length
  targets : ∀ t ∈ s.clock.pending, t.call.node < s.cards.length
  removes : ∀ t ∈ s.clock.pending, ∀ id, t.call = .remove id → id ∉ s.live
  leaving : ∀ n ∈ s.nodes, n.out = true →
    ∃ t ∈ s.clock.pending, t.call = .remove n.id ∧ t.due ≤ s.clock.now + exitFallbackMs
  timed : ∀ id ∈ s.live, ∃ card, s.cards[id]? = some card ∧
    ∀ t, t ∈ s.clock.pending ∧ t.call = .dismiss id ↔ t = dismissal id card
  stays : ∀ id card, s.cards[id]? = some card → s.cards.length ≤ id + maxVisible →
    s.clock.now < card.hit + dismissMs card.kind → id ∈ s.live
  counted : ∀ card ∈ s.cards,
    1 ≤ card.count ∧ card.badge = badgeOf card.count ∧ card.hit ≤ s.clock.now
  distinct : ∀ (id : Nat) (a b : CardState), id ∈ s.live → id + 1 ∈ s.live →
    s.cards[id]? = some a → s.cards[id + 1]? = some b → (a.message,a.kind) ≠ (b.message,b.kind)
  told : (callsOf s.cards).Perm s.calls

theorem mem_live : id ∈ s.live ↔ (⟨id,false⟩ : Node) ∈ s.nodes := by
  simp only [live,List.mem_map,List.mem_filter,Bool.not_eq_true']
  constructor
  · rintro ⟨⟨_,_⟩,⟨hn,rfl⟩,rfl⟩
    exact hn
  · intro hn
    exact ⟨_,⟨hn,rfl⟩,rfl⟩

theorem Kept.sorted_live (h : s.Kept) : s.live.Pairwise (· < ·) :=
  h.sorted.sublist (List.filter_sublist.map _)

theorem Kept.lt_of_mem_live (h : s.Kept) (hid : id ∈ s.live) : id < s.cards.length :=
  h.known _ (mem_live.mp hid)

theorem Kept.start : start.Kept := by
  refine ⟨Timers.Valid.start,?_,?_,?_,?_,?_,?_,?_,?_,?_,.nil⟩ <;>
    simp [Stack.start,Timers.start,live]

/-! ### A card that goes -/

theorem live_dismiss (s : Stack) (id : Nat) : (s.dismiss id).live = s.live.filter (· ≠ id) := by
  unfold dismiss
  split
  · simp only [live,List.filter_map,List.map_map,List.filter_filter]
    generalize s.nodes = ns
    induction ns with
    | nil => rfl
    | cons n ns ih =>
      obtain ⟨m,out⟩ := n
      by_cases hm : m = id <;> cases out <;> simp_all
  · rename_i hid
    exact (List.filter_eq_self.mpr fun m hm => by
      simpa using fun heq : m = id => hid (heq ▸ hm)).symm

theorem cards_dismiss (s : Stack) (id : Nat) : (s.dismiss id).cards = s.cards := by
  unfold dismiss
  split <;> rfl

theorem Kept.dismiss (h : s.Kept) (hid : ∀ card, s.cards[id]? = some card →
      id + maxVisible < s.cards.length ∨ card.hit + dismissMs card.kind ≤ s.clock.now) :
    (s.dismiss id).Kept := by
  have hlive := live_dismiss s id
  unfold Stack.dismiss at hlive ⊢
  split
  · rename_i hmem
    rw [if_pos hmem] at hlive
    generalize hu : ({ s with
      clock := s.clock.set exitFallbackMs (.remove id)
      nodes := s.nodes.map fun n => if n.id = id then { n with out := true } else n } : Stack) = u
      at hlive ⊢
    have hclock : u.clock = s.clock.set exitFallbackMs (.remove id) := by rw [← hu]
    have hcards : u.cards = s.cards := by rw [← hu]
    have hids : u.nodes.map Node.id = s.nodes.map Node.id := by
      rw [← hu,List.map_map]
      refine List.map_congr_left fun n hn => ?_
      simp only [Function.comp_apply]
      split <;> rfl
    have hmem_live {m : Nat} : m ∈ u.live ↔ m ∈ s.live ∧ m ≠ id := by
      simp [hlive]
    constructor
    · rw [hclock]
      exact h.clock.set _ _
    · rw [hids]
      exact h.sorted
    · intro n hn
      have hn' : n.id ∈ s.nodes.map Node.id := hids ▸ List.mem_map_of_mem hn
      obtain ⟨m,hm,heq⟩ := List.mem_map.mp hn'
      rw [hcards,← heq]
      exact h.known m hm
    · intro t ht
      rw [hclock,Timers.mem_set] at ht
      rw [hcards]
      obtain ht | rfl := ht
      · exact h.targets t ht
      · exact h.lt_of_mem_live hmem
    · intro t ht m hcall
      rw [hclock,Timers.mem_set] at ht
      rw [hmem_live,not_and,not_not]
      obtain ht | rfl := ht
      · exact fun hm => absurd hm (h.removes t ht m hcall)
      · exact fun _ => (TimerCall.remove.inj hcall).symm
    · intro n hn hout
      rw [hclock]
      simp only [Timers.mem_set,Timers.now_set]
      rw [← hu] at hn
      obtain ⟨m,hm,rfl⟩ := List.mem_map.mp hn
      split at hout
      · rename_i heq
        exact ⟨_,.inr rfl,by simp [heq],Nat.le_refl _⟩
      · rename_i hne
        obtain ⟨t,ht,hcall,hdue⟩ := h.leaving m hm hout
        exact ⟨t,.inl ht,by simpa [hne] using hcall,hdue⟩
    · intro m hm
      obtain ⟨hm,hne⟩ := hmem_live.mp hm
      obtain ⟨card,hcard,htimer⟩ := h.timed m hm
      refine ⟨card,by rw [hcards,hcard],fun t => ?_⟩
      rw [← htimer t,hclock,Timers.mem_set]
      refine and_congr_left fun hcall => or_iff_left ?_
      rintro rfl
      cases hcall
    · intro m card hcard hlast hnow
      rw [hcards] at hcard hlast
      rw [hclock,Timers.now_set] at hnow
      refine hmem_live.mpr ⟨h.stays m card hcard hlast hnow,?_⟩
      rintro rfl
      rcases hid card hcard with hold | hdue
      · omega
      · omega
    · rw [hcards,hclock]
      exact h.counted
    · intro m a b hm hm' ha hb
      rw [hcards] at ha hb
      exact h.distinct m a b (hmem_live.mp hm).1 (hmem_live.mp hm').1 ha hb
    · rw [hcards,← hu]
      exact h.told
  · exact h

/-- A timer with nothing left to do may go. -/
theorem Kept.clear (h : s.Kept) {timer : Nat} (hidle : ∀ t ∈ s.clock.pending, t.id = timer →
      t.call.node ∉ s.live ∧ ∀ n ∈ s.nodes, t.call ≠ .remove n.id) :
    ({ s with clock := s.clock.clear timer } : Stack).Kept := by
  refine { h with
    clock := h.clock.clear timer
    targets := fun t ht => h.targets t (Timers.mem_clear.mp ht).1
    removes := fun t ht => h.removes t (Timers.mem_clear.mp ht).1
    leaving := fun n hn hout => ?_
    timed := fun id hid => ?_ }
  · obtain ⟨t,ht,hcall,hdue⟩ := h.leaving n hn hout
    refine ⟨t,Timers.mem_clear.mpr ⟨ht,fun heq => ?_⟩,hcall,hdue⟩
    exact (hidle t ht heq).2 n hn hcall
  · obtain ⟨card,hcard,htimer⟩ := h.timed id hid
    refine ⟨card,hcard,fun t => ?_⟩
    rw [← htimer t]
    simp only [Timers.mem_clear]
    refine and_congr_left fun hcall => and_iff_left_of_imp fun ht heq => ?_
    have hnode := (hidle t ht heq).1
    rw [hcall] at hnode
    exact hnode hid

theorem live_remove (s : Stack) (id : Nat) (hid : id ∉ s.live) : (s.remove id).live = s.live := by
  rw [live,remove,List.filter_filter]
  refine congrArg _ (List.filter_congr fun n hn => ?_)
  have hne : n.out = false → n.id ≠ id := by
    rintro hout rfl
    exact hid (mem_live.mpr (by rw [← hout]; exact hn))
  cases hout : n.out
  · simpa using hne hout
  · simp

theorem Kept.remove (h : s.Kept) (hid : id ∉ s.live) : (s.remove id).Kept := by
  have hlive := live_remove s id hid
  refine { h with
    sorted := h.sorted.sublist (List.filter_sublist.map _)
    known := fun n hn => h.known n (List.mem_filter.mp hn).1
    removes := fun t ht m hcall => hlive ▸ h.removes t ht m hcall
    leaving := fun n hn => h.leaving n (List.mem_filter.mp hn).1
    timed := fun m hm => h.timed m (hlive ▸ hm)
    stays := fun m card hcard hlast hnow => hlive ▸ h.stays m card hcard hlast hnow
    distinct := fun m a b hm hm' => h.distinct m a b (hlive ▸ hm) (hlive ▸ hm') }

theorem dismiss_clear {timer : Nat} (h : timer < s.clock.next) (id : Nat) :
    ({ s with clock := s.clock.clear timer } : Stack).dismiss id =
      { s.dismiss id with clock := (s.dismiss id).clock.clear timer } := by
  by_cases hid : id ∈ s.live
  · have hid' : id ∈ ({ s with clock := s.clock.clear timer } : Stack).live := hid
    simp only [dismiss,if_pos hid,if_pos hid',Timers.clear_set h]
  · have hid' : id ∉ ({ s with clock := s.clock.clear timer } : Stack).live := hid
    simp only [dismiss,if_neg hid,if_neg hid']

theorem mem_pending_dismiss {t : Timer TimerCall} (ht : t ∈ s.clock.pending) (id : Nat) :
    t ∈ (s.dismiss id).clock.pending := by
  unfold dismiss
  split
  · exact Timers.mem_set.mpr (.inl ht)
  · exact ht

theorem Kept.fire (h : s.Kept) {timer : Nat} {t : Timer TimerCall}
    (hdue : s.clock.dueAt timer = some t) :
    (({ s with clock := s.clock.clear timer } : Stack).run t.call).Kept := by
  obtain ⟨ht,rfl,hnow⟩ := Timers.dueAt_eq_some hdue
  cases hcall : t.call with
  | dismiss id =>
    have hkept : (s.dismiss id).Kept := by
      by_cases hid : id ∈ s.live
      · refine h.dismiss fun card hcard => .inr ?_
        obtain ⟨card',hcard',htimer⟩ := h.timed id hid
        obtain rfl : card' = card := Option.some.inj (hcard'.symm.trans hcard)
        have heq := (htimer t).mp ⟨ht,hcall⟩
        rw [heq] at hnow
        exact hnow
      · rw [Stack.dismiss,if_neg hid]
        exact h
    rw [run,dismiss_clear (h.clock.fresh t ht)]
    refine hkept.clear fun u hu heq => ?_
    rw [hkept.clock.unique u hu t (mem_pending_dismiss ht id) heq,hcall,live_dismiss]
    simp [TimerCall.node]
  | remove id =>
    have hlive := h.removes t ht id hcall
    have hgone : ∀ n ∈ (s.remove id).nodes, n.id ≠ id := fun n hn => by
      simpa using (List.mem_filter.mp hn).2
    refine (h.remove hlive).clear fun u hu heq => ?_
    rw [h.clock.unique u hu t ht heq,hcall,live_remove s id hlive]
    exact ⟨hlive,fun n hn heq => hgone n hn (TimerCall.remove.inj heq).symm⟩

/-! ### A call of toast -/

/-- Above a place in a row of numbers there is room for those that follow it. -/
theorem add_length_lt {l : List Nat} {a m : Nat} (h : (a :: l).Pairwise (· < ·))
    (hlt : ∀ x ∈ a :: l, x < m) : a + l.length < m := by
  induction l generalizing a with
  | nil => exact hlt a (List.mem_cons_self ..)
  | cons b l ih =>
    have hab := List.rel_of_pairwise_cons h (List.mem_cons_self ..)
    have hroom := ih (List.Pairwise.of_cons h) fun x hx => hlt x (List.mem_cons_of_mem _ hx)
    rw [List.length_cons]
    omega

theorem Kept.foldl_dismiss (ids : List Nat) (h : s.Kept)
    (hids : ∀ id ∈ ids, id + maxVisible < s.cards.length) :
    (ids.foldl Stack.dismiss s).Kept ∧
      (ids.foldl Stack.dismiss s).live = s.live.filter (· ∉ ids) := by
  induction ids generalizing s with
  | nil => exact ⟨h,by simp⟩
  | cons id ids ih =>
    have hold := hids id (List.mem_cons_self ..)
    have hcards := cards_dismiss s id
    obtain ⟨hkept,hlive⟩ := ih (s := s.dismiss id) (h.dismiss fun _ _ => .inl hold)
      fun m hm => hcards ▸ hids m (List.mem_cons_of_mem _ hm)
    refine ⟨hkept,?_⟩
    rw [List.foldl_cons,hlive,live_dismiss,List.filter_filter]
    refine List.filter_congr fun m _ => ?_
    simp [Bool.and_comm]

/-- The oldest cards make room, and only they go. -/
theorem Kept.evict (h : s.Kept) : s.evict.Kept ∧ s.evict.live.length ≤ maxVisible := by
  have hsplit := List.take_append_drop (s.live.length - maxVisible) s.live
  generalize hold : s.live.take (s.live.length - maxVisible) = old at hsplit
  generalize hnew : s.live.drop (s.live.length - maxVisible) = new at hsplit
  have hlen : new.length = s.live.length - (s.live.length - maxVisible) := by
    rw [← hnew,List.length_drop]
  have hsorted := h.sorted_live
  have hknown : ∀ id ∈ s.live, id < s.cards.length := fun id hid => h.lt_of_mem_live hid
  have hroom : ∀ id ∈ old, id + maxVisible < s.cards.length := by
    intro id hid
    have hpos : old.length = s.live.length - maxVisible := by
      rw [← hold,List.length_take]
      omega
    have hpos' := List.length_pos_of_mem hid
    obtain ⟨pre,post,rfl⟩ := List.append_of_mem hid
    rw [← hsplit,List.append_assoc] at hsorted hknown
    have htail : (id :: (post ++ new)).Pairwise (· < ·) := (List.pairwise_append.mp hsorted).2.1
    have hlt := add_length_lt htail fun x hx => hknown x (List.mem_append_right _ hx)
    rw [List.length_append] at hlt
    omega
  rw [Stack.evict,hold]
  obtain ⟨hkept,hlive⟩ := h.foldl_dismiss old hroom
  refine ⟨hkept,?_⟩
  rw [hlive,← hsplit,List.filter_append]
  have hgone : old.filter (· ∉ old) = [] := by simp
  rw [hgone,List.nil_append]
  refine (List.length_filter_le _ _).trans ?_
  omega

theorem live_shown (s : Stack) (message : String) (kind : ToastKind) :
    (s.shown message kind).live = s.live ++ [s.cards.length] := by
  simp [live,shown]

theorem newest_eq_some {message : String} {kind : ToastKind}
    (h : s.newest message kind = some (id,card)) :
    id ∈ s.live ∧ s.cards[id]? = some card ∧ card.message = message ∧ card.kind = kind := by
  unfold newest at h
  split at h
  · cases h
  · rename_i last hlast
    split at h
    · cases h
    · rename_i found hfound
      split at h
      · rename_i hsame
        cases h
        exact ⟨List.mem_of_getLast? hlast,hfound,hsame⟩
      · cases h

/-- If the last card made is still to be seen, it is the newest. -/
theorem Kept.last_of_mem (h : s.Kept) (hid : id ∈ s.live) (hlast : id + 1 = s.cards.length) :
    s.live.getLast? = some id := by
  obtain ⟨l,r,hsplit⟩ := List.append_of_mem hid
  have hsorted := h.sorted_live
  rw [hsplit] at hsorted
  cases r with
  | nil => rw [hsplit,List.getLast?_concat]
  | cons m r =>
    have hlt := List.rel_of_pairwise_cons (List.pairwise_append.mp hsorted).2.1
      (List.mem_cons_self ..)
    have hm : m < s.cards.length := h.lt_of_mem_live (by simp [hsplit])
    omega

theorem Kept.shown (h : s.Kept) {message : String} {kind : ToastKind}
    (hnew : s.newest message kind = none) :
    ({ s with calls := s.calls ++ [(message,kind)] }.shown message kind : Stack).Kept := by
  have hlive := live_shown { s with calls := s.calls ++ [(message,kind)] } message kind
  have hpast {id : Nat} (hid : id ∈ s.live) : id ≠ s.cards.length :=
    Nat.ne_of_lt (h.lt_of_mem_live hid)
  refine ⟨h.clock.set _ _,?_,?_,?_,?_,?_,?_,?_,?_,?_,?_⟩
  · simp only [Stack.shown,List.map_append,List.map_cons,List.map_nil]
    refine List.pairwise_append.mpr ⟨h.sorted,List.pairwise_singleton _ _,?_⟩
    intro a ha b hb
    obtain ⟨n,hn,rfl⟩ := List.mem_map.mp ha
    rw [List.mem_singleton.mp hb]
    exact h.known n hn
  · intro n hn
    simp only [Stack.shown,List.mem_append,List.mem_singleton,List.length_append,
      List.length_singleton] at hn ⊢
    obtain hn | rfl := hn
    · exact Nat.lt_succ_of_lt (h.known n hn)
    · exact Nat.lt_succ_self _
  · intro t ht
    simp only [Stack.shown,Timers.mem_set,List.length_append,List.length_singleton] at ht ⊢
    obtain ht | rfl := ht
    · exact Nat.lt_succ_of_lt (h.targets t ht)
    · exact Nat.lt_succ_self _
  · intro t ht id hcall
    simp only [Stack.shown,Timers.mem_set] at ht
    rw [hlive,List.mem_append,List.mem_singleton]
    obtain ht | rfl := ht
    · have htarget := h.targets t ht
      rw [hcall] at htarget
      exact not_or.mpr ⟨h.removes t ht id hcall,Nat.ne_of_lt htarget⟩
    · cases hcall
  · intro n hn hout
    simp only [Stack.shown,List.mem_append,List.mem_singleton,Timers.mem_set] at hn ⊢
    obtain hn | rfl := hn
    · obtain ⟨t,ht,hcall,hdue⟩ := h.leaving n hn hout
      exact ⟨t,.inl ht,hcall,hdue⟩
    · cases hout
  · intro id hid
    rw [hlive,List.mem_append,List.mem_singleton] at hid
    simp only [Stack.shown,Timers.mem_set]
    obtain hid | rfl := hid
    · obtain ⟨card,hcard,htimer⟩ := h.timed id hid
      refine ⟨card,?_,fun t => ?_⟩
      · rw [List.getElem?_append_left (h.lt_of_mem_live hid),hcard]
      · rw [← htimer t]
        refine and_congr_left fun hcall => or_iff_left ?_
        rintro rfl
        exact hpast hid (TimerCall.dismiss.inj hcall).symm
    · refine ⟨_,List.getElem?_concat_length,fun t => ⟨?_,?_⟩⟩
      · rintro ⟨ht | rfl,hcall⟩
        · have htarget := h.targets t ht
          rw [hcall] at htarget
          exact absurd htarget (Nat.lt_irrefl _)
        · rfl
      · rintro rfl
        exact ⟨.inr rfl,rfl⟩
  · intro id card hcard hlast hnow
    rw [hlive,List.mem_append,List.mem_singleton]
    simp only [Stack.shown,List.length_append,List.length_singleton] at hcard hlast hnow
    rcases Nat.lt_trichotomy id s.cards.length with hlt | rfl | hgt
    · rw [List.getElem?_append_left hlt] at hcard
      exact .inl (h.stays id card hcard (by omega) hnow)
    · exact .inr rfl
    · rw [List.getElem?_eq_none (by simp; omega)] at hcard
      cases hcard
  · intro card hcard
    simp only [Stack.shown,List.mem_append,List.mem_singleton] at hcard
    obtain hcard | rfl := hcard
    · exact h.counted card hcard
    · exact ⟨Nat.le_refl _,rfl,Nat.le_refl _⟩
  · intro id a b hid hid' ha hb
    rw [hlive,List.mem_append,List.mem_singleton] at hid hid'
    simp only [Stack.shown] at ha hb
    have hid : id ∈ s.live := by
      obtain hid | rfl := hid
      · exact hid
      · rcases hid' with hid' | heq
        · exact absurd (h.lt_of_mem_live hid') (Nat.not_lt.mpr (Nat.le_succ _))
        · exact absurd heq (Nat.succ_ne_self _)
    rw [List.getElem?_append_left (h.lt_of_mem_live hid)] at ha
    obtain hid' | heq := hid'
    · rw [List.getElem?_append_left (h.lt_of_mem_live hid')] at hb
      exact h.distinct id a b hid hid' ha hb
    · -- the new card follows the newest, which said something else
      have hlast := h.last_of_mem hid heq
      rw [heq,List.getElem?_concat_length] at hb
      obtain rfl := Option.some.inj hb
      intro hsame
      obtain ⟨hmessage,hkind⟩ := Prod.mk.inj hsame
      simp [newest,hlast,ha,hmessage,hkind] at hnew
  · simp only [Stack.shown,callsOf,List.flatMap_append,List.flatMap_cons,List.flatMap_nil,
      List.append_nil,List.replicate_one]
    exact h.told.append_right _

theorem bump_says (card : CardState) (timer now : Nat) :
    (bump card timer now).message = card.message ∧ (bump card timer now).kind = card.kind ∧
      (bump card timer now).count = card.count + 1 ∧ (bump card timer now).timer = timer ∧
      (bump card timer now).hit = now := by
  unfold bump updateBadge
  split <;> simp

theorem badge_bump (h : 1 ≤ card.count) (timer now : Nat) :
    (bump card timer now).badge = badgeOf (card.count + 1) := by
  have hcount : ¬card.count + 1 < 2 := by omega
  simp [bump,updateBadge,badgeOf,hcount]

theorem perm_set {cards : List CardState} (hcard : cards[id]? = some card) (timer now : Nat) :
    (callsOf (cards.set id (bump card timer now))).Perm
      (callsOf cards ++ [(card.message,card.kind)]) := by
  obtain ⟨hmessage,hkind,hcount,-,-⟩ := bump_says card timer now
  obtain ⟨hlt,heq⟩ := List.getElem?_eq_some_iff.mp hcard
  have hsplit : cards = cards.take id ++ card :: cards.drop (id + 1) := by
    rw [← heq,← List.drop_eq_getElem_cons hlt,List.take_append_drop]
  rw [List.set_eq_take_append_cons_drop,if_pos hlt]
  conv_rhs => rw [hsplit]
  simp only [callsOf,List.flatMap_append,List.flatMap_cons,hmessage,hkind,hcount,
    List.append_assoc,List.replicate_succ,List.cons_append]
  refine List.Perm.append_left _ ?_
  rw [← List.append_assoc]
  exact (List.perm_append_singleton _ _).symm

theorem Kept.repeated (h : s.Kept) {message : String} {kind : ToastKind}
    (hsame : s.newest message kind = some (id,card)) :
    ({ s with calls := s.calls ++ [(message,kind)] }.repeated id card : Stack).Kept := by
  obtain ⟨hid,hcard,rfl,rfl⟩ := newest_eq_some hsame
  obtain ⟨hmessage,hkind,hcount,htimer,hhit⟩ := bump_says card s.clock.next s.clock.now
  have hlt := h.lt_of_mem_live hid
  have hown : ∀ t, t ∈ s.clock.pending ∧ t.call = .dismiss id ↔ t = dismissal id card := by
    obtain ⟨card',hcard',hown⟩ := h.timed id hid
    obtain rfl := Option.some.inj (hcard'.symm.trans hcard)
    exact hown
  have hdismissal := (hown _).mpr rfl
  -- the timer that is cleared is the one of this card
  have hcleared : ∀ t ∈ s.clock.pending, t.call ≠ .dismiss id → t.id ≠ card.timer := by
    intro t ht hcall heq
    rw [h.clock.unique t ht _ hdismissal.1 heq] at hcall
    exact hcall rfl
  have hcards {m : Nat} (a : CardState)
      (ha : (s.cards.set id (bump card s.clock.next s.clock.now))[m]? = some a) :
      ∃ b, s.cards[m]? = some b ∧ a.message = b.message ∧ a.kind = b.kind ∧
        (m ≠ id → a = b) := by
    rw [List.getElem?_set] at ha
    split at ha
    · rename_i heq
      subst heq
      obtain rfl := Option.some.inj ha
      exact ⟨card,hcard,hmessage,hkind,fun hne => absurd rfl hne⟩
    · exact ⟨a,ha,rfl,rfl,fun _ => rfl⟩
  refine ⟨(h.clock.clear _).set _ _,h.sorted,?_,?_,?_,?_,?_,?_,?_,?_,?_⟩
  · intro n hn
    rw [Stack.repeated,List.length_set]
    exact h.known n hn
  · intro t ht
    simp only [Stack.repeated,Timers.mem_set,Timers.mem_clear,List.length_set] at ht ⊢
    obtain ⟨ht,-⟩ | rfl := ht
    · exact h.targets t ht
    · exact hlt
  · intro t ht m hcall
    simp only [Stack.repeated,Timers.mem_set,Timers.mem_clear] at ht
    obtain ⟨ht,-⟩ | rfl := ht
    · exact h.removes t ht m hcall
    · cases hcall
  · intro n hn hout
    obtain ⟨t,ht,hcall,hdue⟩ := h.leaving n hn hout
    refine ⟨t,?_,hcall,hdue⟩
    simp only [Stack.repeated,Timers.mem_set,Timers.mem_clear]
    exact .inl ⟨ht,hcleared t ht (by simp [hcall])⟩
  · intro m hm
    simp only [Stack.repeated,Timers.mem_set,Timers.mem_clear]
    rcases eq_or_ne m id with rfl | hne
    · refine ⟨_,List.getElem?_set_self hlt,fun t => ⟨?_,?_⟩⟩
      · rintro ⟨⟨ht,hother⟩ | rfl,hcall⟩
        · rw [(hown t).mp ⟨ht,hcall⟩] at hother
          exact absurd rfl hother
        · simp [dismissal,hkind,htimer,hhit]
      · rintro rfl
        exact ⟨.inr (by simp [dismissal,hkind,htimer,hhit]),rfl⟩
    · obtain ⟨card',hcard',hother⟩ := h.timed m hm
      refine ⟨card',by rw [List.getElem?_set_ne hne.symm,hcard'],fun t => ?_⟩
      rw [← hother t]
      refine and_congr_left fun hcall => ⟨?_,fun ht => ?_⟩
      · rintro (⟨ht,-⟩ | rfl)
        · exact ht
        · exact absurd (TimerCall.dismiss.inj hcall).symm hne
      · refine .inl ⟨ht,hcleared t ht ?_⟩
        rw [hcall]
        exact fun heq => hne (TimerCall.dismiss.inj heq)
  · intro m a ha hlast hnow
    rcases eq_or_ne m id with rfl | hne
    · exact hid
    · obtain ⟨b,hb,-,-,hsame⟩ := hcards a ha
      obtain rfl := hsame hne
      simp only [Stack.repeated,List.length_set] at hlast
      exact h.stays m a hb hlast hnow
  · intro a ha
    obtain ⟨hone,hbadge,hnow⟩ := h.counted card (List.mem_of_getElem? hcard)
    rcases List.mem_or_eq_of_mem_set ha with ha | rfl
    · exact h.counted a ha
    · exact ⟨by rw [hcount]; omega,by rw [badge_bump hone,hcount],by rw [hhit]; exact Nat.le_refl _⟩
  · intro m a b hm hm' ha hb
    obtain ⟨a',ha',hma,hka,-⟩ := hcards a ha
    obtain ⟨b',hb',hmb,hkb,-⟩ := hcards b hb
    rw [hma,hka,hmb,hkb]
    exact h.distinct m a' b' hm hm' ha' hb'
  · exact (perm_set hcard _ _).trans (h.told.append_right _)

theorem Kept.tick (h : s.Kept) (ms : Nat) :
    ({ s with clock := s.clock.tick ms } : Stack).Kept := by
  refine { h with
    clock := h.clock.tick ms
    leaving := fun n hn hout => ?_
    stays := fun id card hcard hlast hnow => h.stays id card hcard hlast ?_
    counted := fun card hcard => ?_ }
  · obtain ⟨t,ht,hcall,hdue⟩ := h.leaving n hn hout
    exact ⟨t,ht,hcall,hdue.trans (Nat.add_le_add_right (Nat.le_add_right _ _) _)⟩
  · exact Nat.lt_of_le_of_lt (Nat.le_add_right _ _) hnow
  · obtain ⟨hone,hbadge,hnow⟩ := h.counted card hcard
    exact ⟨hone,hbadge,hnow.trans (Nat.le_add_right _ _)⟩

theorem length_live_run (s : Stack) (call : TimerCall) :
    (s.run call).live.length ≤ s.live.length := by
  cases call with
  | dismiss id =>
    rw [run,live_dismiss]
    exact List.length_filter_le _ _
  | remove id =>
    simp only [run,live,remove,List.length_map]
    exact ((List.filter_sublist (l := s.nodes)).filter _).length_le

/-- The invariant: no more cards than may be seen, and each kept for its time. -/
structure Sound (s : Stack) : Prop where
  kept : s.Kept
  few : s.live.length ≤ maxVisible

theorem Sound.toast (h : s.Sound) (message : String) (kind : ToastKind) :
    (s.toast message kind).Sound := by
  rw [Stack.toast]
  split
  · rename_i id card hsame
    exact ⟨h.kept.repeated hsame,h.few⟩
  · rename_i hnew
    obtain ⟨hkept,hfew⟩ := (h.kept.shown hnew).evict
    exact ⟨hkept,hfew⟩

theorem Sound.step {t : Stack} {op : StackOp} (h : s.Sound) (hstep : step s op = some t) :
    t.Sound := by
  cases op with
  | toast message kind =>
    obtain rfl := Option.some.inj hstep
    exact h.toast message kind
  | tick ms =>
    obtain rfl := Option.some.inj hstep
    exact ⟨h.kept.tick ms,h.few⟩
  | fire timer =>
    obtain ⟨u,hdue,rfl⟩ := Option.map_eq_some_iff.mp hstep
    exact ⟨h.kept.fire hdue,(length_live_run _ u.call).trans h.few⟩
  | animationEnd node =>
    rw [Toast.step,Option.ite_none_right_eq_some] at hstep
    obtain ⟨hnode,heq⟩ := hstep
    obtain rfl := Option.some.inj heq
    have hgone : node ∉ s.live := by
      intro hlive
      have hnodup : (s.nodes.map Node.id).Nodup := h.kept.sorted.imp Nat.ne_of_lt
      have hsame := List.inj_on_of_nodup_map hnodup hnode (mem_live.mp hlive) rfl
      cases hsame
    exact ⟨h.kept.remove hgone,(length_live_run s (.remove node)).trans h.few⟩

/-- What is on the page, however late the timers are. The last cards made are there for all of
their time, each with one timer for the time after its last call; each call is counted on one
card, and a card says something else than the one made before it while that is there. -/
structure Faithful (s : Stack) : Prop where
  few : s.live.length ≤ maxVisible
  stays : ∀ id card, s.cards[id]? = some card → s.cards.length ≤ id + maxVisible →
    s.clock.now < card.hit + dismissMs card.kind → id ∈ s.live
  timed : ∀ id ∈ s.live, ∃ card, s.cards[id]? = some card ∧
    ∀ t, t ∈ s.clock.pending ∧ t.call = .dismiss id ↔ t = dismissal id card
  leaving : ∀ n ∈ s.nodes, n.out = true →
    ∃ t ∈ s.clock.pending, t.call = .remove n.id ∧ t.due ≤ s.clock.now + exitFallbackMs
  cleared : s.clock.pending = [] → s.nodes = []
  badges : ∀ card ∈ s.cards, card.badge = badgeOf card.count
  distinct : ∀ (id : Nat) (a b : CardState), id ∈ s.live → id + 1 ∈ s.live →
    s.cards[id]? = some a → s.cards[id + 1]? = some b → (a.message,a.kind) ≠ (b.message,b.kind)
  told : (callsOf s.cards).Perm s.calls

theorem Sound.faithful (h : s.Sound) : s.Faithful where
  few := h.few
  stays := h.kept.stays
  timed := h.kept.timed
  leaving := h.kept.leaving
  cleared := by
    intro hidle
    refine List.eq_nil_iff_forall_not_mem.mpr fun n hn => ?_
    cases hout : n.out
    · have hlive : n.id ∈ s.live := mem_live.mpr (by rw [← hout]; exact hn)
      obtain ⟨card,-,htimer⟩ := h.kept.timed n.id hlive
      have hpending := ((htimer _).mpr rfl).1
      rw [hidle] at hpending
      cases hpending
    · obtain ⟨t,ht,-⟩ := h.kept.leaving n hn hout
      rw [hidle] at ht
      cases ht
  badges := fun card hcard => (h.kept.counted card hcard).2.1
  distinct := h.kept.distinct
  told := h.kept.told

end Stack

/-- At every moment of every run. -/
theorem toasts_faithful (ops : List StackOp) : Always step Stack.Faithful .start ops :=
  (Always.of_invariant (I := Stack.Sound) (fun _ _ _ h hstep => h.step hstep)
    ⟨.start,by decide⟩ ops).mono fun _ h => h.faithful

end Pyre.Gui.Toast
