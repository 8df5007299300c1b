import Mathlib.Data.List.DropRight

/-!
A snapshot followed by a live subscription. A publisher records each item and
then broadcasts it; who joins later takes a copy of the end of what was recorded
and receives from some point on what is broadcast. The two fit together when the
copy ends where the subscription begins.
-/

set_option autoImplicit false

namespace Pyre.Base

variable {α : Type*}

/-! The last elements of a list. -/

theorem rtake_of_length_le {l : List α} {n : Nat} (h : l.length ≤ n) : l.rtake n = l := by
  have hzero : l.length - n = 0 := by omega
  rw [List.rtake,hzero,List.drop_zero]

theorem rtake_suffix (l : List α) (n : Nat) : l.rtake n <:+ l := List.drop_suffix _ l

/-- What is dropped in between would be dropped at the end. -/
theorem rtake_rtake_append (l m : List α) (n : Nat) :
    (l.rtake n ++ m).rtake n = (l ++ m).rtake n := by
  rcases le_total l.length n with h | h
  · rw [rtake_of_length_le h]
  · simp only [List.rtake,List.length_append,List.length_drop,List.drop_append,List.drop_drop]
    congr 2 <;> omega

/-! A prefix and the element that follows it. -/

theorem prefix_snoc {l m : List α} {a : α} (h : l <+: m) (ha : m[l.length]? = some a) :
    l ++ [a] <+: m := by
  obtain ⟨t,rfl⟩ := h
  rw [List.getElem?_append_right (Nat.le_refl _),Nat.sub_self] at ha
  cases t with
  | nil => simp at ha
  | cons b t =>
    obtain rfl : b = a := by simpa using ha
    exact ⟨t,by simp⟩

/-- The items recorded so far, and those of them broadcast so far. -/
structure Feed (α : Type*) where
  recorded : List α
  sent : List α
  sent_prefix : sent <+: recorded

namespace Feed

def empty : Feed α := ⟨[],[],List.prefix_rfl⟩

def record (f : Feed α) (a : α) : Feed α :=
  ⟨f.recorded ++ [a],f.sent,f.sent_prefix.trans (List.prefix_append _ _)⟩

/-- The oldest item not broadcast yet. -/
def pending (f : Feed α) : Option α := f.recorded[f.sent.length]?

def broadcast (f : Feed α) : Option (Feed α) :=
  match h : f.pending with
  | none => none
  | some a => some ⟨f.recorded,f.sent ++ [a],prefix_snoc f.sent_prefix h⟩

@[simp] theorem recorded_record (f : Feed α) (a : α) :
    (f.record a).recorded = f.recorded ++ [a] := rfl

@[simp] theorem sent_record (f : Feed α) (a : α) : (f.record a).sent = f.sent := rfl

/-- The feed has grown from one to the other. -/
structure Le (f g : Feed α) : Prop where
  recorded : f.recorded <+: g.recorded
  sent : f.sent <+: g.sent

theorem le_refl (f : Feed α) : f.Le f := ⟨List.prefix_rfl,List.prefix_rfl⟩

theorem le_record (f : Feed α) (a : α) : f.Le (f.record a) :=
  ⟨List.prefix_append _ _,List.prefix_rfl⟩

theorem recorded_broadcast {f g : Feed α} (h : f.broadcast = some g) :
    g.recorded = f.recorded := by
  unfold broadcast at h
  split at h
  · cases h
  · obtain rfl := Option.some.inj h
    rfl

theorem le_broadcast {f g : Feed α} (h : f.broadcast = some g) : f.Le g := by
  refine ⟨(recorded_broadcast h).symm ▸ List.prefix_rfl,?_⟩
  unfold broadcast at h
  split at h
  · cases h
  · obtain rfl := Option.some.inj h
    exact List.prefix_append _ _

theorem take_recorded_mono {f g : Feed α} (h : f.Le g) {n : Nat} (hn : n ≤ f.recorded.length) :
    g.recorded.take n = f.recorded.take n := by
  obtain ⟨t,ht⟩ := h.recorded
  rw [← ht,List.take_append_of_le_length hn]

theorem take_sent_mono {f g : Feed α} (h : f.Le g) {n : Nat} (hn : n ≤ f.sent.length) :
    g.sent.take n = f.sent.take n := by
  obtain ⟨t,ht⟩ := h.sent
  rw [← ht,List.take_append_of_le_length hn]

theorem take_recorded {f : Feed α} {n : Nat} (h : n ≤ f.sent.length) :
    f.recorded.take n = f.sent.take n := by
  obtain ⟨t,ht⟩ := f.sent_prefix
  rw [← ht,List.take_append_of_le_length h]

end Feed

/-- A subscriber of the broadcast: the index it reads next and what it has read. -/
structure Receiver (α : Type*) where
  next : Nat
  got : List α
  deriving DecidableEq

namespace Receiver

def subscribe (sent : List α) : Receiver α := ⟨sent.length,[]⟩

/-- The channel keeps the last `cap` items; who is further behind has lost some. -/
def lagged (cap : Nat) (sent : List α) (r : Receiver α) : Bool := cap < sent.length - r.next

def recv (cap : Nat) (sent : List α) (r : Receiver α) : Option (Receiver α) :=
  if r.lagged cap sent then some { r with next := sent.length - cap }
  else sent[r.next]?.map fun a => ⟨r.next+1,r.got ++ [a]⟩

theorem got_prefix_recv {cap : Nat} {sent : List α} {r r' : Receiver α}
    (h : r.recv cap sent = some r') : r.got <+: r'.got := by
  unfold recv at h
  split at h
  · obtain rfl := Option.some.inj h
    exact List.prefix_rfl
  · obtain ⟨a,-,rfl⟩ := Option.map_eq_some_iff.mp h
    exact List.prefix_append _ _

/-- The receiver has read what was broadcast from `start` to its position. -/
structure Follows (start : Nat) (sent : List α) (r : Receiver α) : Prop where
  start_le : start ≤ r.next
  next_le : r.next ≤ sent.length
  take_next : sent.take r.next = sent.take start ++ r.got

theorem follows_subscribe (sent : List α) : (subscribe sent).Follows sent.length sent where
  start_le := Nat.le_refl _
  next_le := Nat.le_refl _
  take_next := by simp [subscribe]

namespace Follows

variable {start : Nat} {sent sent' : List α} {r r' : Receiver α}

theorem got_nil (h : r.Follows r.next sent) : r.got = [] := by simpa using h.take_next

theorem mono (h : r.Follows start sent) (hp : sent <+: sent') : r.Follows start sent' := by
  obtain ⟨t,rfl⟩ := hp
  have hnext := h.next_le
  refine ⟨h.start_le,?_,?_⟩
  · rw [List.length_append]
    omega
  · rw [List.take_append_of_le_length hnext,List.take_append_of_le_length (h.start_le.trans hnext)]
    exact h.take_next

theorem recv {cap : Nat} (h : r.Follows start sent) (hlag : r.lagged cap sent = false)
    (hr : r.recv cap sent = some r') : r'.Follows start sent := by
  rw [Receiver.recv,hlag,if_neg Bool.false_ne_true,Option.map_eq_some_iff] at hr
  obtain ⟨a,ha,rfl⟩ := hr
  obtain ⟨hlt,-⟩ := List.getElem?_eq_some_iff.mp ha
  refine ⟨h.start_le.trans (Nat.le_succ _),hlt,?_⟩
  rw [List.take_add_one,h.take_next,ha,Option.toList_some,List.append_assoc]

/-- A copy that ends where the subscription begins, and what follows it, are one
piece of the stream. -/
theorem seam {β : Type*} {sent : List (List β)} {r : Receiver (List β)}
    (h : r.Follows start sent) {snap : List β} (hs : snap <:+ (sent.take start).flatten) :
    snap ++ r.got.flatten <:+: sent.flatten := by
  obtain ⟨pre,hpre⟩ := hs
  refine ⟨pre,(sent.drop r.next).flatten,?_⟩
  calc pre ++ (snap ++ r.got.flatten) ++ (sent.drop r.next).flatten
      = (pre ++ snap ++ r.got.flatten) ++ (sent.drop r.next).flatten := by simp
    _ = (sent.take r.next).flatten ++ (sent.drop r.next).flatten := by
        rw [hpre,h.take_next,List.flatten_append]
    _ = sent.flatten := by rw [← List.flatten_append,List.take_append_drop]

end Follows

end Receiver

theorem Feed.flatten_sent_in_recorded {β : Type*} (f : Feed (List β)) :
    f.sent.flatten <:+: f.recorded.flatten := by
  obtain ⟨t,ht⟩ := f.sent_prefix
  exact ⟨[],t.flatten,by rw [← ht]; simp⟩

end Pyre.Base
