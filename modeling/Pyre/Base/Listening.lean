import Mathlib.Data.List.Basic

/-!
Requests of which only the latest is listened to: each opens a channel of its own, and the
channel before it is dropped with whatever lies in it.
-/

set_option autoImplicit false

namespace Pyre.Base

variable {Q A : Type*}

structure Channel (Q A : Type*) where
  number : Nat
  query : Q
  arrived : Option A
  deriving DecidableEq, Repr

/-- `inFlight` holds the requests without an answer, listened to or not. -/
structure Listening (Q A : Type*) where
  asked : Nat
  inFlight : List (Nat × Q)
  channel : Option (Channel Q A)
  deriving DecidableEq, Repr

namespace Listening

def start : Listening Q A := ⟨0,[],none⟩

def ask (l : Listening Q A) (query : Q) : Listening Q A :=
  ⟨l.asked+1,l.inFlight ++ [(l.asked,query)],some ⟨l.asked,query,none⟩⟩

/-- The query of a request in flight. -/
def queryOf (l : Listening Q A) (number : Nat) : Option Q :=
  (l.inFlight.find? (·.1 = number)).map (·.2)

def answer (l : Listening Q A) (number : Nat) (a : A) : Listening Q A :=
  { l with
    inFlight := l.inFlight.filter (·.1 ≠ number)
    channel := l.channel.map fun c => if c.number = number then { c with arrived := some a } else c }

def drop (l : Listening Q A) : Listening Q A := { l with channel := none }

/-- What lies in the channel, with the query it answers. -/
def arrived (l : Listening Q A) : Option (Q × A) :=
  l.channel.bind fun c => c.arrived.map fun a => (c.query,a)

def take (l : Listening Q A) : Listening Q A :=
  { l with channel := l.channel.map fun c => { c with arrived := none } }

def listensTo (l : Listening Q A) : Option Q := l.channel.map (·.query)

/-- An answer is still to come through the channel, or lies in it. -/
def Waiting (l : Listening Q A) : Prop :=
  ∃ c ∈ l.channel, c.number ∈ l.inFlight.map (·.1) ∨ c.arrived.isSome

instance (l : Listening Q A) : Decidable l.Waiting :=
  match h : l.channel with
  | none => isFalse fun ⟨_,hc,_⟩ => by simp [h] at hc
  | some c => decidable_of_iff (c.number ∈ l.inFlight.map (·.1) ∨ c.arrived.isSome)
    (by simp [Waiting,h])

/-- Numbers are given once, and a request that has been answered is in flight no more. -/
structure Numbered (l : Listening Q A) : Prop where
  below : ∀ r ∈ l.inFlight, r.1 < l.asked
  open_below : ∀ c ∈ l.channel, c.number < l.asked
  same : ∀ c ∈ l.channel, ∀ r ∈ l.inFlight, r.1 = c.number → r.2 = c.query
  answered : ∀ c ∈ l.channel, c.arrived.isSome → c.number ∉ l.inFlight.map (·.1)

variable {l : Listening Q A} {number : Nat} {query : Q} {a : A}

theorem numbered_start : (start : Listening Q A).Numbered := by
  constructor <;> simp [start]

theorem Numbered.ask (h : l.Numbered) (query : Q) : (l.ask query).Numbered where
  below := by
    intro r hr
    rcases List.mem_append.mp hr with hr | hr
    · exact Nat.lt_succ_of_lt (h.below r hr)
    · rw [List.mem_singleton.mp hr]
      exact Nat.lt_succ_self _
  open_below := by
    rintro c ⟨⟩
    exact Nat.lt_succ_self _
  same := by
    rintro c ⟨⟩ r hr hnumber
    rcases List.mem_append.mp hr with hr | hr
    · exact absurd hnumber (Nat.ne_of_lt (h.below r hr))
    · rw [List.mem_singleton.mp hr]
  answered := by
    rintro c ⟨⟩ hsome
    cases hsome

theorem mem_channel_answer {c : Channel Q A} (hc : c ∈ (l.answer number a).channel) :
    ∃ b ∈ l.channel, c.number = b.number ∧ c.query = b.query ∧
      (b.number = number ∧ c.arrived = some a ∨ b.number ≠ number ∧ c = b) := by
  obtain ⟨b,hb,rfl⟩ := Option.map_eq_some_iff.mp hc
  refine ⟨b,hb,?_⟩
  split_ifs with hnumber
  · exact ⟨rfl,rfl,.inl ⟨hnumber,rfl⟩⟩
  · exact ⟨rfl,rfl,.inr ⟨hnumber,rfl⟩⟩

theorem Numbered.answer (h : l.Numbered) (number : Nat) (a : A) :
    (l.answer number a).Numbered where
  below := fun r hr => h.below r (List.mem_of_mem_filter hr)
  open_below := by
    intro c hc
    obtain ⟨b,hb,hnumber,-,-⟩ := mem_channel_answer hc
    rw [hnumber]
    exact h.open_below b hb
  same := by
    intro c hc r hr hr'
    obtain ⟨b,hb,hnumber,hquery,-⟩ := mem_channel_answer hc
    rw [hquery]
    exact h.same b hb r (List.mem_of_mem_filter hr) (hr'.trans hnumber)
  answered := by
    intro c hc hsome hin
    obtain ⟨r,hr,hnumber⟩ := List.mem_map.mp hin
    obtain ⟨hr,hne⟩ := List.mem_filter.mp hr
    obtain ⟨b,hb,hcb,-,⟨hthis,-⟩ | ⟨-,rfl⟩⟩ := mem_channel_answer hc
    · exact of_decide_eq_true hne (hnumber.trans (hcb.trans hthis))
    · exact h.answered c hb hsome (List.mem_map.mpr ⟨r,hr,hnumber⟩)

theorem Numbered.drop (h : l.Numbered) : l.drop.Numbered :=
  ⟨h.below,by simp [Listening.drop],by simp [Listening.drop],by simp [Listening.drop]⟩

theorem Numbered.take (h : l.Numbered) : l.take.Numbered where
  below := h.below
  open_below := by
    rintro c hc
    obtain ⟨b,hb,rfl⟩ := Option.map_eq_some_iff.mp hc
    exact h.open_below b hb
  same := by
    rintro c hc
    obtain ⟨b,hb,rfl⟩ := Option.map_eq_some_iff.mp hc
    exact h.same b hb
  answered := by
    rintro c hc hsome
    obtain ⟨b,hb,rfl⟩ := Option.map_eq_some_iff.mp hc
    cases hsome

theorem Numbered.queryOf (h : l.Numbered) {c : Channel Q A} (hc : c ∈ l.channel)
    (hq : l.queryOf c.number = some query) : query = c.query := by
  obtain ⟨r,hr,rfl⟩ := Option.map_eq_some_iff.mp hq
  exact h.same c hc r (List.mem_of_find?_eq_some hr) (by simpa using List.find?_some hr)

theorem mem_arrived {r : Q × A} :
    r ∈ l.arrived ↔ ∃ c ∈ l.channel, c.query = r.1 ∧ c.arrived = some r.2 := by
  obtain ⟨query,a⟩ := r
  unfold arrived
  simp only [Option.mem_def,Option.bind_eq_some_iff,Option.map_eq_some_iff,Prod.mk.injEq]
  constructor
  · rintro ⟨c,hc,b,hb,hquery,rfl⟩
    exact ⟨c,hc,hquery,hb⟩
  · rintro ⟨c,hc,hquery,hb⟩
    exact ⟨c,hc,a,hb,hquery,rfl⟩

/-- What lies in the channel has lain there, or is the answer that came just now. -/
theorem Numbered.arrived_answer (h : l.Numbered) (hq : l.queryOf number = some query) {r : Q × A}
    (hr : r ∈ (l.answer number a).arrived) : r ∈ l.arrived ∨ r = (query,a) := by
  obtain ⟨c,hc,hquery,ha⟩ := mem_arrived.mp hr
  obtain ⟨b,hb,-,hcb,⟨hnumber,harrived⟩ | ⟨-,rfl⟩⟩ := mem_channel_answer hc
  · right
    rw [← hnumber] at hq
    rw [harrived] at ha
    exact Prod.ext (hquery.symm.trans (hcb.trans (h.queryOf hb hq).symm))
      (Option.some.inj ha).symm
  · exact .inl (mem_arrived.mpr ⟨c,hb,hquery,ha⟩)

@[simp] theorem arrived_take : l.take.arrived = none := by
  unfold arrived take
  cases l.channel <;> rfl

@[simp] theorem listensTo_ask : (l.ask query).listensTo = some query := rfl

@[simp] theorem listensTo_answer : (l.answer number a).listensTo = l.listensTo := by
  unfold listensTo answer
  cases l.channel with
  | none => rfl
  | some c =>
    simp only [Option.map_some]
    split_ifs <;> rfl

@[simp] theorem listensTo_drop : l.drop.listensTo = none := rfl

@[simp] theorem listensTo_take : l.take.listensTo = l.listensTo := by
  unfold listensTo take
  cases l.channel <;> rfl

theorem listensTo_of_arrived (h : l.arrived = some (query,a)) : l.listensTo = some query := by
  obtain ⟨c,hc,hquery,-⟩ := mem_arrived.mp h
  rw [listensTo,hc]
  exact congrArg some hquery

theorem waiting_ask : (l.ask query).Waiting :=
  ⟨_,rfl,.inl (by simp [ask])⟩

/-- An answer to a request in flight changes nothing in whether one is waited for. -/
theorem waiting_answer (hq : l.queryOf number ≠ none) :
    (l.answer number a).Waiting ↔ l.Waiting := by
  have hin : number ∈ l.inFlight.map (·.1) := by
    obtain ⟨q,hq⟩ := Option.ne_none_iff_exists'.mp hq
    obtain ⟨r,hr,-⟩ := Option.map_eq_some_iff.mp hq
    exact List.mem_map.mpr ⟨r,List.mem_of_find?_eq_some hr,by simpa using List.find?_some hr⟩
  unfold Waiting answer
  cases l.channel with
  | none => simp
  | some c =>
    by_cases hc : c.number = number
    · simp only [Option.map_some,Option.mem_some_iff,exists_eq_left',if_pos hc]
      exact iff_of_true (.inr rfl) (.inl (hc ▸ hin))
    · have hmem : c.number ∈ (l.inFlight.filter (·.1 ≠ number)).map (·.1) ↔
          c.number ∈ l.inFlight.map (·.1) := by
        simp only [List.mem_map,List.mem_filter]
        constructor
        · rintro ⟨r,⟨hr,-⟩,hr'⟩
          exact ⟨r,hr,hr'⟩
        · rintro ⟨r,hr,hr'⟩
          exact ⟨r,⟨hr,by simpa [hr'] using hc⟩,hr'⟩
      simp only [Option.map_some,Option.mem_some_iff,exists_eq_left',if_neg hc]
      exact or_congr_left hmem

/-- Once the answer has been taken, no other is waited for. -/
theorem Numbered.not_waiting_take (h : l.Numbered) (ha : l.arrived ≠ none) :
    ¬ l.take.Waiting := by
  rintro ⟨c,hc,hwait⟩
  obtain ⟨b,hb,rfl⟩ := Option.map_eq_some_iff.mp hc
  rcases hwait with hin | hsome
  · refine h.answered b hb ?_ hin
    by_contra hnone
    rw [Option.not_isSome_iff_eq_none] at hnone
    simp [arrived,hb,hnone] at ha
  · cases hsome

end Pyre.Base.Listening
