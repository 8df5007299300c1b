import Pyre.Search.Query

/-!
The search overlay of the GPU front end. A key press queues the query, which is asked for once
nothing has been typed for a while, or is to be at once with Enter.
-/

set_option autoImplicit false

namespace Pyre.Search
open Base

/-- `char::is_control` -/
def isControl (c : Char) : Bool := c.toNat < 0x20 || (0x7F ≤ c.toNat && c.toNat ≤ 0x9F)

/-- The last two fields say what has happened: whether something has been typed or entered since
the overlay was opened, and whether each Enter has run the query in the input. -/
structure SearchUi where
  opened : Bool
  input : Text
  results : Option Results
  pendingQuery : Option Text
  rx : Listening Query (List BlockHit)
  touched : Bool
  ran : Bool
  deriving DecidableEq, Repr

/-- `toggle` is the key that opens and closes the overlay, with the `pane:` prefix of the pane in
focus. `tick` tells whether the time of the debounce is over, and `reply` is what a call to the
daemon ends with, no hits if it failed. -/
inductive SearchUiStep where
  | toggle (panePrefix : Text)
  | escape
  | enter
  | type (chars : Text)
  | backspace
  | tick (elapsed : Bool)
  | poll
  | reply (call : Nat) (hits : List BlockHit)
  deriving DecidableEq, Repr

namespace SearchUi

def start : SearchUi := ⟨false,[],none,none,.start,false,true⟩

def openOverlayScoped (s : SearchUi) (panePrefix : Text) : SearchUi :=
  { s with opened := true, input := panePrefix, results := none, touched := false }

def close (s : SearchUi) : SearchUi :=
  { s with opened := false, rx := s.rx.drop, pendingQuery := none }

def queueQuery (s : SearchUi) (raw : Text) : SearchUi := { s with pendingQuery := some raw }

def tickDebounce (s : SearchUi) (elapsed : Bool) : SearchUi :=
  if s.opened then
    match s.pendingQuery with
    | none => s
    | some raw =>
      if elapsed then
        if (parseSearchInput raw).text = [] then { s with pendingQuery := none, results := none }
        else { s with pendingQuery := none, rx := s.rx.ask (parseSearchInput raw) }
      else s
  else s

/-- The query is queued and dropped before the debounce could take it. -/
def runQueryNow (s : SearchUi) : SearchUi :=
  tickDebounce { s.queueQuery s.input with pendingQuery := none } true

def pollResults (s : SearchUi) : SearchUi :=
  match s.rx.arrived with
  | none => s
  | some (query,hits) => { s with results := some ⟨query,hits⟩, rx := s.rx.take }

def edit (s : SearchUi) (input : Text) : SearchUi :=
  { s.queueQuery input with input, touched := true }

/-- From `s` to `t` the query in the input was run: asked for, or the results cleared if it is
empty. -/
def Ran (s t : SearchUi) : Prop :=
  if (parseSearchInput s.input).text = [] then hitsOf t.results = []
  else t.rx.asked = s.rx.asked+1 ∧ t.rx.listensTo = some (parseSearchInput s.input)

instance (s t : SearchUi) : Decidable (s.Ran t) := by
  unfold Ran
  infer_instance

def enter (s : SearchUi) : SearchUi :=
  { s.runQueryNow with touched := true, ran := s.ran && decide (s.Ran s.runQueryNow) }

/-- Keys reach the overlay while it is open. -/
def step (s : SearchUi) : SearchUiStep → Option SearchUi
  | .toggle panePrefix => some (if s.opened then s.close else s.openOverlayScoped panePrefix)
  | .escape => if s.opened then some s.close else none
  | .enter => if s.opened then some s.enter else none
  | .type chars =>
    if s.opened then some (s.edit (s.input ++ chars.filter fun c => !isControl c)) else none
  | .backspace => if s.opened then some (s.edit s.input.dropLast) else none
  | .tick elapsed => some (s.tickDebounce elapsed)
  | .poll => some s.pollResults
  | .reply call hits =>
    (s.rx.queryOf call).map fun _ => { s with rx := s.rx.answer call hits }

/-- Something has been typed, the debounce is over, and no reply is pending. -/
def Settled (s : SearchUi) : Prop :=
  s.opened ∧ s.touched ∧ s.pendingQuery = none ∧ ¬ s.rx.Waiting

/-- The settled overlay shows the results of its input, and Enter has run the query each time. -/
structure Right (s : SearchUi) : Prop where
  settled : s.Settled → ShownFor (parseSearchInput s.input) s.results
  ran : s.ran

/-- The results are none as the query in the input is, or the reply found is for that query. -/
def InTime (s : SearchUi) : SearchUiStep → Prop
  | .enter => s.opened → (parseSearchInput s.input).text = [] ∧ hitsOf s.results = []
  | .poll => s.opened → s.touched → s.pendingQuery = none → ∀ a ∈ s.rx.arrived,
    if (parseSearchInput s.input).text = [] then a.2 = [] else a.1 = parseSearchInput s.input
  | _ => True

instance (s : SearchUi) : Decidable s.Settled := inferInstanceAs (Decidable (_ ∧ _))

instance (s : SearchUi) : Decidable s.Right :=
  decidable_of_iff ((s.Settled → ShownFor (parseSearchInput s.input) s.results) ∧ s.ran)
    ⟨fun h => ⟨h.1,h.2⟩,fun h => ⟨h.settled,h.ran⟩⟩

variable {s t : SearchUi}

theorem right_start : start.Right := ⟨fun h => absurd h.1 (by decide),rfl⟩

theorem runQueryNow_eq (s : SearchUi) : s.runQueryNow = { s with pendingQuery := none } := by
  unfold runQueryNow queueQuery tickDebounce
  split <;> rfl

/-- The query that is queued is the one in the input, of an overlay that is open. -/
structure Kept (s : SearchUi) : Prop where
  numbered : s.rx.Numbered
  queued : ∀ raw ∈ s.pendingQuery, s.opened ∧ raw = s.input

theorem kept_start : start.Kept := ⟨Listening.numbered_start,fun raw h => by cases h⟩

theorem Kept.tickDebounce (h : s.Kept) (elapsed : Bool) : (s.tickDebounce elapsed).Kept := by
  unfold SearchUi.tickDebounce
  split
  · split
    · exact h
    · split_ifs
      · exact ⟨h.numbered,fun raw h => by cases h⟩
      · exact ⟨h.numbered.ask _,fun raw h => by cases h⟩
      · exact h
  · exact h

theorem Kept.pollResults (h : s.Kept) : s.pollResults.Kept := by
  unfold SearchUi.pollResults
  split
  · exact h
  · exact ⟨h.numbered.take,h.queued⟩

theorem Kept.edit (h : s.Kept) (hopened : s.opened) (input : Text) : (s.edit input).Kept :=
  ⟨h.numbered,fun _ hraw => ⟨hopened,(Option.some.inj hraw).symm⟩⟩

theorem kept_step (h : s.Kept) (a : SearchUiStep) (ht : s.step a = some t) : t.Kept := by
  cases a with
  | toggle panePrefix =>
    cases ht
    split_ifs with hopened
    · exact ⟨h.numbered.drop,fun raw h => by cases h⟩
    · exact ⟨h.numbered,fun raw hraw => absurd (h.queued raw hraw).1 hopened⟩
  | escape =>
    obtain ⟨-,⟨⟩⟩ := Option.ite_none_right_eq_some.mp ht
    exact ⟨h.numbered.drop,fun raw h => by cases h⟩
  | enter =>
    obtain ⟨-,⟨⟩⟩ := Option.ite_none_right_eq_some.mp ht
    unfold enter
    rw [runQueryNow_eq]
    exact ⟨h.numbered,fun raw h => by cases h⟩
  | type chars =>
    obtain ⟨hopened,⟨⟩⟩ := Option.ite_none_right_eq_some.mp ht
    exact h.edit hopened _
  | backspace =>
    obtain ⟨hopened,⟨⟩⟩ := Option.ite_none_right_eq_some.mp ht
    exact h.edit hopened _
  | tick elapsed =>
    cases ht
    exact h.tickDebounce elapsed
  | poll =>
    cases ht
    exact h.pollResults
  | reply call hits =>
    obtain ⟨query,-,rfl⟩ := Option.map_eq_some_iff.mp ht
    exact ⟨h.numbered.answer call hits,h.queued⟩

theorem Right.unsettled (hran : t.ran) (h : ¬ t.Settled) : t.Right := ⟨fun hs => absurd hs h,hran⟩

theorem Right.tickDebounce (h : s.Right) (hk : s.Kept) (elapsed : Bool) :
    (s.tickDebounce elapsed).Right := by
  unfold SearchUi.tickDebounce
  split
  · split
    · exact h
    · rename_i raw hraw
      split_ifs with helapsed hempty
      · refine ⟨fun _ => ?_,h.ran⟩
        rw [(hk.queued raw hraw).2] at hempty
        exact shownFor_none_iff.mpr hempty
      · exact .unsettled h.ran fun hs => hs.2.2.2 Listening.waiting_ask
      · exact h
  · exact h

theorem right_edit (hran : s.ran) (input : Text) : (s.edit input).Right :=
  .unsettled hran fun hs => by cases hs.2.2.1

theorem right_enter_iff (h : s.Right) :
    s.enter.Right ↔ (parseSearchInput s.input).text = [] ∧ hitsOf s.results = [] := by
  have hran : s.Ran s.runQueryNow ↔
      (parseSearchInput s.input).text = [] ∧ hitsOf s.results = [] := by
    rw [runQueryNow_eq]
    unfold Ran
    split_ifs with hempty
    · simp [hempty]
    · simp [hempty]
  constructor
  · intro hright
    have hboth : (s.ran && decide (s.Ran s.runQueryNow)) = true := hright.ran
    rw [Bool.and_eq_true,decide_eq_true_iff] at hboth
    exact hran.mp hboth.2
  · intro hnone
    refine ⟨fun _ => ?_,?_⟩
    · unfold enter
      rw [runQueryNow_eq]
      unfold ShownFor
      rw [if_pos hnone.1]
      exact hnone.2
    · change (s.ran && decide (s.Ran s.runQueryNow)) = true
      rw [Bool.and_eq_true,decide_eq_true_iff]
      exact ⟨h.ran,hran.mpr hnone⟩

theorem right_pollResults_iff (hn : s.rx.Numbered) (h : s.Right) :
    s.pollResults.Right ↔ s.InTime .poll := by
  unfold pollResults
  split
  · rename_i hnone
    exact iff_of_true h fun _ _ _ a ha => by cases hnone.symm.trans ha
  · rename_i query hits ha
    have hstill := hn.not_waiting_take (by rw [ha]; exact Option.some_ne_none _)
    constructor
    · intro hright hopened htouched hpending a ha'
      cases ha.symm.trans ha'
      have hshown := hright.settled ⟨hopened,htouched,hpending,hstill⟩
      simpa [ShownFor,hitsOf] using hshown
    · intro hin
      refine ⟨fun hs => ?_,h.ran⟩
      have hfits := hin hs.1 hs.2.1 hs.2.2.1 _ ha
      simpa [ShownFor,hitsOf] using hfits

theorem right_step_iff (a : SearchUiStep) (hk : s.Kept) (h : s.Right) :
    s.InTime a ↔ ∀ t, s.step a = some t → t.Right := by
  cases a with
  | toggle panePrefix =>
    refine iff_of_true trivial ?_
    rintro t ⟨⟩
    split_ifs
    · exact .unsettled h.ran fun hs => by cases hs.1
    · exact .unsettled h.ran fun hs => by cases hs.2.1
  | escape =>
    refine iff_of_true trivial fun t ht => ?_
    obtain ⟨-,⟨⟩⟩ := Option.ite_none_right_eq_some.mp ht
    exact .unsettled h.ran fun hs => by cases hs.1
  | enter =>
    constructor
    · intro hin t ht
      obtain ⟨hopened,⟨⟩⟩ := Option.ite_none_right_eq_some.mp ht
      exact (right_enter_iff h).mpr (hin hopened)
    · intro hright hopened
      exact (right_enter_iff h).mp (hright _ (if_pos hopened))
  | type chars =>
    refine iff_of_true trivial fun t ht => ?_
    obtain ⟨-,⟨⟩⟩ := Option.ite_none_right_eq_some.mp ht
    exact right_edit h.ran _
  | backspace =>
    refine iff_of_true trivial fun t ht => ?_
    obtain ⟨-,⟨⟩⟩ := Option.ite_none_right_eq_some.mp ht
    exact right_edit h.ran _
  | tick elapsed =>
    refine iff_of_true trivial ?_
    rintro t ⟨⟩
    exact h.tickDebounce hk elapsed
  | poll =>
    rw [← right_pollResults_iff hk.numbered h]
    simp [step]
  | reply call hits =>
    refine iff_of_true trivial fun t ht => ?_
    obtain ⟨query,hquery,rfl⟩ := Option.map_eq_some_iff.mp ht
    refine ⟨fun hs => h.settled ⟨hs.1,hs.2.1,hs.2.2.1,?_⟩,h.ran⟩
    exact (not_congr (Listening.waiting_answer (by simp [hquery]))).mp hs.2.2.2

/-- The overlay settles on its input and Enter runs the query just where Enter finds nothing to
run, and a reply that comes after the debounce is one to the query in the input. -/
theorem settles_iff (steps : List SearchUiStep) :
    Always step Right start steps ↔ Along step InTime start steps :=
  (along_iff_always (I := Kept) (fun _ a _ hs ht => kept_step hs a ht)
    (fun _ a hk hs => right_step_iff a hk hs) kept_start right_start).symm

end Pyre.Search.SearchUi
