import Pyre.Search.Query

/-!
The search overlay of the terminal front end. A key press queues the query, which is asked for
once nothing has been typed for a while; Enter and a click act on a result that is shown.
-/

set_option autoImplicit false

namespace Pyre.Search
open Base

structure SearchState where
  opened : Bool
  input : Text
  cursor : Nat
  results : Option Results
  pendingQuery : Option Text
  rx : Listening Query (List BlockHit)
  chosen : List Choice
  deriving DecidableEq, Repr

/-- `openSearch` is the key after the prefix, `tick` tells whether the time of the debounce is
over, `click` is one on the row with the number, and `reply` is what a call to the daemon ends
with, no hits if it failed. -/
inductive SearchStateStep where
  | openSearch
  | escape
  | enter
  | click (index : Nat)
  | up
  | down
  | char (c : Char)
  | backspace
  | tick (elapsed : Bool)
  | drain
  | reply (call : Nat) (hits : List BlockHit)
  deriving DecidableEq, Repr

namespace SearchState

def start : SearchState := ⟨false,[],0,none,none,.start,[]⟩

def openSearch (s : SearchState) : SearchState :=
  { s with
    opened := true, input := [], cursor := 0, results := none, pendingQuery := none
    rx := s.rx.drop }

/-- The queued query stays. -/
def close (s : SearchState) : SearchState := { s with opened := false, rx := s.rx.drop }

def edit (s : SearchState) (input : Text) : SearchState :=
  { s with input, pendingQuery := some input }

/-- The jump to a result, if there is one with the number. -/
def jump (s : SearchState) (index : Nat) : SearchState :=
  match s.results with
  | none => s
  | some r => match r.hits[index]? with
    | none => s
    | some hit => { s with chosen := ⟨hit,r.query,parseSearchInput s.input⟩ :: s.chosen }

/-- An empty query is asked for like any other. -/
def tickDebounce (s : SearchState) (elapsed : Bool) : SearchState :=
  match s.pendingQuery with
  | none => s
  | some raw =>
    if s.opened && elapsed then
      { s with pendingQuery := none, rx := s.rx.ask (parseSearchInput raw) }
    else s

def drain (s : SearchState) : SearchState :=
  match s.rx.arrived with
  | none => s
  | some (query,hits) => { s with results := some ⟨query,hits⟩, cursor := 0, rx := s.rx.take }

/-- `found` tells what hits the index of the daemon may have for a query. -/
def step (found : Query → List BlockHit → Bool) (s : SearchState) :
    SearchStateStep → Option SearchState
  | .openSearch => some s.openSearch
  | .escape => if s.opened then some s.close else none
  | .enter => if s.opened then some (s.jump s.cursor).close else none
  | .click index =>
    if s.opened ∧ index < (hitsOf s.results).length then
      some (jump { s with cursor := index } index).close
    else none
  | .up => if s.opened then some { s with cursor := s.cursor-1 } else none
  | .down =>
    if s.opened then some { s with cursor := min (s.cursor+1) ((hitsOf s.results).length-1) }
    else none
  | .char c => if s.opened then some (s.edit (s.input ++ [c])) else none
  | .backspace => if s.opened then some (s.edit s.input.dropLast) else none
  | .tick elapsed => some (s.tickDebounce elapsed)
  | .drain => some s.drain
  | .reply call hits => (s.rx.queryOf call).bind fun query =>
    if hits = [] ∨ found query hits then some { s with rx := s.rx.answer call hits } else none

/-- The debounce is over, and no reply is pending. -/
def Settled (s : SearchState) : Prop := s.opened ∧ s.pendingQuery = none ∧ ¬ s.rx.Waiting

/-- The settled overlay shows the results of its input, and what was acted on belonged to it. -/
structure Right (s : SearchState) : Prop where
  settled : s.Settled → ShownFor (parseSearchInput s.input) s.results
  chosen : ∀ c ∈ s.chosen, c.Belongs

/-- A result with the number is one for the input. -/
def JumpsInTime (s : SearchState) (index : Nat) : Prop :=
  ∀ r ∈ s.results, index < r.hits.length → r.query = parseSearchInput s.input

def InTime (s : SearchState) : SearchStateStep → Prop
  | .enter => s.opened → s.JumpsInTime s.cursor
  | .click index => s.opened → s.JumpsInTime index
  | _ => True

/-- What the steps keep: what is queued is the query in the input, and with nothing queued it is
the one that is listened to; the cursor is on a result. -/
structure Kept (s : SearchState) : Prop where
  numbered : s.rx.Numbered
  queued : ∀ raw ∈ s.pendingQuery, raw = s.input
  asked : s.pendingQuery = none → ∀ query ∈ s.rx.listensTo, query = parseSearchInput s.input
  arrived : ∀ a ∈ s.rx.arrived, a.1.text = [] → a.2 = []
  inRange : hitsOf s.results = [] ∨ s.cursor < (hitsOf s.results).length

instance (s : SearchState) (index : Nat) : Decidable (s.JumpsInTime index) :=
  inferInstanceAs (Decidable (∀ r ∈ s.results, _ → _))

instance (s : SearchState) : DecidablePred s.InTime := fun a => by
  cases a <;> unfold InTime <;> infer_instance

variable {found : Query → List BlockHit → Bool} {s t : SearchState}

theorem right_start : start.Right := ⟨fun h => absurd h.1 (by decide),by decide⟩

theorem kept_start : start.Kept where
  numbered := Listening.numbered_start
  queued := by decide
  asked := fun _ _ h => by cases h
  arrived := fun _ h => by cases h
  inRange := .inl rfl

theorem Kept.close (h : s.Kept) : s.close.Kept where
  numbered := h.numbered.drop
  queued := h.queued
  asked := fun _ _ h => by cases h
  arrived := fun _ h => by cases h
  inRange := h.inRange

theorem Kept.openSearch (h : s.Kept) : s.openSearch.Kept where
  numbered := h.numbered.drop
  queued := fun _ h => by cases h
  asked := fun _ _ h => by cases h
  arrived := fun _ h => by cases h
  inRange := .inl rfl

theorem Kept.edit (h : s.Kept) (input : Text) : (s.edit input).Kept where
  numbered := h.numbered
  queued := fun _ hraw => (Option.some.inj hraw).symm
  asked := fun hnone => by cases hnone
  arrived := h.arrived
  inRange := h.inRange

theorem Kept.cursor (h : s.Kept) {cursor : Nat}
    (hc : hitsOf s.results = [] ∨ cursor < (hitsOf s.results).length) :
    Kept { s with cursor } := ⟨h.numbered,h.queued,h.asked,h.arrived,hc⟩

theorem Kept.jump (h : s.Kept) (index : Nat) : (s.jump index).Kept := by
  unfold SearchState.jump
  split
  · exact h
  · split
    · exact h
    · exact ⟨h.numbered,h.queued,h.asked,h.arrived,h.inRange⟩

theorem Kept.tickDebounce (h : s.Kept) (elapsed : Bool) : (s.tickDebounce elapsed).Kept := by
  unfold SearchState.tickDebounce
  split
  · exact h
  · rename_i raw hraw
    split
    · refine ⟨h.numbered.ask _,?_,?_,?_,h.inRange⟩
      · rintro raw ⟨⟩
      · rintro - query ⟨⟩
        rw [h.queued raw hraw]
      · rintro a ⟨⟩
    · exact h

theorem Kept.drain (h : s.Kept) : s.drain.Kept := by
  unfold SearchState.drain
  split
  · exact h
  · rename_i query hits ha
    refine ⟨h.numbered.take,h.queued,?_,?_,?_⟩
    · rw [Listening.listensTo_take]
      exact h.asked
    · rw [Listening.arrived_take]
      intro a ha
      cases ha
    · exact hits.eq_nil_or_concat.imp_right fun ⟨_,_,hhits⟩ => by simp [hitsOf,hhits]

theorem Kept.answer (h : s.Kept) (hempty : ∀ query hits, query.text = [] → found query hits →
    hits = []) {call : Nat} {query : Query} {hits : List BlockHit}
    (hquery : s.rx.queryOf call = some query) (hhits : hits = [] ∨ found query hits) :
    Kept { s with rx := s.rx.answer call hits } where
  numbered := h.numbered.answer call hits
  queued := h.queued
  asked := by
    rw [Listening.listensTo_answer]
    exact h.asked
  arrived := by
    intro a ha htext
    rcases h.numbered.arrived_answer hquery ha with hold | rfl
    · exact h.arrived a hold htext
    · exact hhits.elim id (hempty query hits htext)
  inRange := h.inRange

theorem kept_step (hempty : ∀ query hits, query.text = [] → found query hits → hits = [])
    (h : s.Kept) (a : SearchStateStep) (ht : s.step found a = some t) : t.Kept := by
  cases a with
  | openSearch =>
    cases ht
    exact h.openSearch
  | escape =>
    obtain ⟨-,⟨⟩⟩ := Option.ite_none_right_eq_some.mp ht
    exact h.close
  | enter =>
    obtain ⟨-,⟨⟩⟩ := Option.ite_none_right_eq_some.mp ht
    exact (h.jump _).close
  | click index =>
    obtain ⟨⟨-,hindex⟩,⟨⟩⟩ := Option.ite_none_right_eq_some.mp ht
    exact ((h.cursor (.inr hindex)).jump _).close
  | up =>
    obtain ⟨-,⟨⟩⟩ := Option.ite_none_right_eq_some.mp ht
    exact h.cursor (h.inRange.imp_right fun hc => (Nat.sub_le _ _).trans_lt hc)
  | down =>
    obtain ⟨-,⟨⟩⟩ := Option.ite_none_right_eq_some.mp ht
    exact h.cursor (h.inRange.imp_right fun hc => by omega)
  | char c =>
    obtain ⟨-,⟨⟩⟩ := Option.ite_none_right_eq_some.mp ht
    exact h.edit _
  | backspace =>
    obtain ⟨-,⟨⟩⟩ := Option.ite_none_right_eq_some.mp ht
    exact h.edit _
  | tick elapsed =>
    cases ht
    exact h.tickDebounce elapsed
  | drain =>
    cases ht
    exact h.drain
  | reply call hits =>
    obtain ⟨query,hquery,ht⟩ := Option.bind_eq_some_iff.mp ht
    obtain ⟨hhits,⟨⟩⟩ := Option.ite_none_right_eq_some.mp ht
    exact h.answer hempty hquery hhits

theorem Right.unsettled (hchosen : ∀ c ∈ t.chosen, c.Belongs) (h : ¬ t.Settled) : t.Right :=
  ⟨fun hs => absurd hs h,hchosen⟩

theorem Right.edit (h : s.Right) (input : Text) : (s.edit input).Right :=
  .unsettled h.chosen fun hs => by cases hs.2.1

theorem Right.tickDebounce (h : s.Right) (elapsed : Bool) : (s.tickDebounce elapsed).Right := by
  unfold SearchState.tickDebounce
  split
  · exact h
  · split
    · exact .unsettled h.chosen fun hs => hs.2.2 Listening.waiting_ask
    · exact h

/-- The reply that is drained after the debounce is one to the query in the input. -/
theorem Right.drain (h : s.Right) (hk : s.Kept) : s.drain.Right := by
  unfold SearchState.drain
  split
  · exact h
  · rename_i query hits ha
    refine ⟨fun hs => ?_,h.chosen⟩
    have hquery := hk.asked hs.2.1 query (Listening.listensTo_of_arrived ha)
    subst hquery
    exact shownFor_self (hk.arrived _ ha)

/-- A jump closes the overlay; what counts is whether it went to a result of the input. -/
theorem right_jump_iff (h : s.Right) (index : Nat) :
    (s.jump index).close.Right ↔ s.JumpsInTime index := by
  unfold jump JumpsInTime
  split
  · rename_i hnone
    refine iff_of_true (.unsettled h.chosen fun hs => by cases hs.1) ?_
    intro r hr
    cases hnone.symm.trans hr
  · rename_i r hr
    split
    · rename_i hnone
      refine iff_of_true (.unsettled h.chosen fun hs => by cases hs.1) ?_
      intro r' hr' hindex
      cases hr.symm.trans hr'
      exact absurd (List.getElem?_eq_none_iff.mp hnone) (Nat.not_le.mpr hindex)
    · rename_i hit hhit
      constructor
      · intro hright r' hr' _
        cases hr.symm.trans hr'
        exact hright.chosen _ List.mem_cons_self
      · intro hin
        refine .unsettled (List.forall_mem_cons.mpr ⟨?_,h.chosen⟩) fun hs => by cases hs.1
        exact hin r hr (List.getElem?_eq_some_iff.mp hhit).1

theorem right_step_iff (a : SearchStateStep) (hk : s.Kept) (h : s.Right) :
    s.InTime a ↔ ∀ t, s.step found a = some t → t.Right := by
  cases a with
  | openSearch =>
    refine iff_of_true trivial ?_
    rintro t ⟨⟩
    exact ⟨fun _ => shownFor_none_iff.mpr rfl,h.chosen⟩
  | escape =>
    refine iff_of_true trivial fun t ht => ?_
    obtain ⟨-,⟨⟩⟩ := Option.ite_none_right_eq_some.mp ht
    exact .unsettled h.chosen fun hs => by cases hs.1
  | enter =>
    constructor
    · intro hin t ht
      obtain ⟨hopened,⟨⟩⟩ := Option.ite_none_right_eq_some.mp ht
      exact (right_jump_iff h _).mpr (hin hopened)
    · intro hright hopened
      exact (right_jump_iff h _).mp (hright _ (if_pos hopened))
  | click index =>
    have hs : Right { s with cursor := index } := ⟨h.settled,h.chosen⟩
    constructor
    · intro hin t ht
      obtain ⟨⟨hopened,-⟩,⟨⟩⟩ := Option.ite_none_right_eq_some.mp ht
      exact (right_jump_iff hs index).mpr (hin hopened)
    · intro hright hopened r hr hindex
      have hrow : index < (hitsOf s.results).length := by
        rw [hr]
        exact hindex
      exact (right_jump_iff hs index).mp (hright _ (if_pos ⟨hopened,hrow⟩)) r hr hindex
  | up =>
    refine iff_of_true trivial fun t ht => ?_
    obtain ⟨-,⟨⟩⟩ := Option.ite_none_right_eq_some.mp ht
    exact ⟨h.settled,h.chosen⟩
  | down =>
    refine iff_of_true trivial fun t ht => ?_
    obtain ⟨-,⟨⟩⟩ := Option.ite_none_right_eq_some.mp ht
    exact ⟨h.settled,h.chosen⟩
  | char c =>
    refine iff_of_true trivial fun t ht => ?_
    obtain ⟨-,⟨⟩⟩ := Option.ite_none_right_eq_some.mp ht
    exact h.edit _
  | backspace =>
    refine iff_of_true trivial fun t ht => ?_
    obtain ⟨-,⟨⟩⟩ := Option.ite_none_right_eq_some.mp ht
    exact h.edit _
  | tick elapsed =>
    refine iff_of_true trivial ?_
    rintro t ⟨⟩
    exact h.tickDebounce elapsed
  | drain =>
    refine iff_of_true trivial ?_
    rintro t ⟨⟩
    exact h.drain hk
  | reply call hits =>
    refine iff_of_true trivial fun t ht => ?_
    obtain ⟨query,hquery,ht⟩ := Option.bind_eq_some_iff.mp ht
    obtain ⟨-,⟨⟩⟩ := Option.ite_none_right_eq_some.mp ht
    refine ⟨fun hs => h.settled ⟨hs.1,hs.2.1,?_⟩,h.chosen⟩
    exact (not_congr (Listening.waiting_answer (by simp [hquery]))).mp hs.2.2

/-- The overlay always settles on its input, and it is right just where no result of another
query is acted on. -/
theorem settles_iff (hempty : ∀ query hits, query.text = [] → found query hits → hits = [])
    (steps : List SearchStateStep) :
    Always (step found) Right start steps ↔ Along (step found) InTime start steps :=
  (along_iff_always (I := Kept) (fun _ a _ hs ht => kept_step hempty hs a ht)
    (fun _ a hk hs => right_step_iff a hk hs) kept_start right_start).symm

end Pyre.Search.SearchState
