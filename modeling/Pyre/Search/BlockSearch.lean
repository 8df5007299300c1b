import Pyre.Search.Query

/-!
The search of the block panel: each change of the input asks at once, and each reply is shown,
in the order the replies come.
-/

set_option autoImplicit false

namespace Pyre.Search
open Base

/-- White space of a script: without NEL, and with the byte order mark. -/
def scriptWhitespace (c : Char) : Bool := (isWhitespace c && c ≠ '\u0085') || c = '\uFEFF'

/-- `String.prototype.trim` -/
def scriptTrim (t : Text) : Text :=
  (t.rdropWhile scriptWhitespace).dropWhile scriptWhitespace

/-- `searchResults` is `none` while the panel shows the live blocks. -/
structure BlockSearch where
  blockQuery : Text
  searchResults : Option Results
  calls : List Query
  chosen : List Choice
  deriving DecidableEq, Repr

/-- `reply` and `fail` end the call with the number, and `rerunBlock` is a click on a result. -/
inductive BlockSearchStep where
  | runBlockSearch (query : Text)
  | reply (call : Nat) (hits : List BlockHit)
  | fail (call : Nat)
  | rerunBlock (index : Nat)
  deriving DecidableEq, Repr

namespace BlockSearch

def start : BlockSearch := ⟨[],none,[],[]⟩

/-- What the input asks for; the failures among the results are picked out in the panel. -/
def current (s : BlockSearch) : Query := ⟨scriptTrim s.blockQuery,false⟩

def runBlockSearch (s : BlockSearch) (query : Text) : BlockSearch :=
  if scriptTrim query = [] then { s with blockQuery := query, searchResults := none }
  else { s with blockQuery := query, calls := s.calls ++ [⟨scriptTrim query,false⟩] }

/-- The call ends, and its results are shown whatever the input is by now. -/
def showHits (s : BlockSearch) (call : Nat) (query : Query) (hits : List BlockHit) : BlockSearch :=
  { s with calls := s.calls.eraseIdx call, searchResults := some ⟨query,hits⟩ }

def rerunBlock (s : BlockSearch) (r : Results) (hit : BlockHit) : BlockSearch :=
  { s with chosen := ⟨hit,r.query,s.current⟩ :: s.chosen }

def step (s : BlockSearch) : BlockSearchStep → Option BlockSearch
  | .runBlockSearch query => some (s.runBlockSearch query)
  | .reply call hits => s.calls[call]?.map fun query => s.showHits call query hits
  | .fail call => s.calls[call]?.map fun query => s.showHits call query []
  | .rerunBlock index => s.searchResults.bind fun r => r.hits[index]?.map (s.rerunBlock r)

/-- With no reply pending the results are those of the input, and what was acted on belonged to
it. -/
structure Right (s : BlockSearch) : Prop where
  settled : s.calls = [] → if s.current.text = [] then s.searchResults = none
    else ∃ r ∈ s.searchResults, r.query = s.current
  chosen : ∀ c ∈ s.chosen, c.Belongs

/-- The last reply is the one for the input. -/
def RepliesInTime (s : BlockSearch) (call : Nat) : Prop :=
  ∀ query ∈ s.calls[call]?, s.calls.eraseIdx call = [] →
    s.current.text ≠ [] ∧ query = s.current

def InTime (s : BlockSearch) : BlockSearchStep → Prop
  | .runBlockSearch _ => True
  | .reply call _ | .fail call => s.RepliesInTime call
  | .rerunBlock index => ∀ r ∈ s.searchResults, index < r.hits.length → r.query = s.current

instance (s : BlockSearch) : Decidable s.Right :=
  decidable_of_iff (( s.calls = [] → if s.current.text = [] then s.searchResults = none
    else ∃ r ∈ s.searchResults, r.query = s.current) ∧ ∀ c ∈ s.chosen, c.Belongs)
    ⟨fun h => ⟨h.1,h.2⟩,fun h => ⟨h.settled,h.chosen⟩⟩

variable {s t : BlockSearch}

theorem right_start : start.Right := ⟨by decide,by decide⟩

theorem Right.runBlockSearch (h : s.Right) (query : Text) : (s.runBlockSearch query).Right := by
  unfold BlockSearch.runBlockSearch
  split_ifs with hempty
  · exact ⟨fun _ => (if_pos hempty).mpr rfl,h.chosen⟩
  · exact ⟨fun hnone => absurd hnone (by simp),h.chosen⟩

theorem right_showHits_iff (h : s.Right) {call : Nat} {query : Query} (hits : List BlockHit)
    (hcall : s.calls[call]? = some query) :
    (s.showHits call query hits).Right ↔ s.RepliesInTime call := by
  constructor
  · intro hright other hother hlast
    cases hcall.symm.trans hother
    have hshown := hright.settled hlast
    by_cases hempty : s.current.text = []
    · rw [if_pos (show (s.showHits call query hits).current.text = [] from hempty)] at hshown
      cases hshown
    · rw [if_neg (show (s.showHits call query hits).current.text ≠ [] from hempty)] at hshown
      obtain ⟨r,⟨⟩,hr⟩ := hshown
      exact ⟨hempty,hr⟩
  · intro hin
    refine ⟨fun hlast => ?_,h.chosen⟩
    obtain ⟨hne,hquery⟩ := hin query hcall hlast
    rw [if_neg (show (s.showHits call query hits).current.text ≠ [] from hne)]
    exact ⟨_,rfl,hquery⟩

theorem right_step_iff (a : BlockSearchStep) (h : s.Right) :
    s.InTime a ↔ ∀ t, s.step a = some t → t.Right := by
  cases a with
  | runBlockSearch query =>
    refine iff_of_true trivial ?_
    rintro t ⟨⟩
    exact h.runBlockSearch query
  | reply call hits =>
    change s.RepliesInTime call ↔ ∀ t : BlockSearch, s.calls[call]?.map _ = some t → t.Right
    cases hcall : s.calls[call]? with
    | none => simp [RepliesInTime,hcall]
    | some query => simpa using (right_showHits_iff h hits hcall).symm
  | fail call =>
    change s.RepliesInTime call ↔ ∀ t : BlockSearch, s.calls[call]?.map _ = some t → t.Right
    cases hcall : s.calls[call]? with
    | none => simp [RepliesInTime,hcall]
    | some query => simpa using (right_showHits_iff h [] hcall).symm
  | rerunBlock index =>
    change (∀ r ∈ s.searchResults, _) ↔ ∀ t : BlockSearch, s.searchResults.bind _ = some t → t.Right
    cases hresults : s.searchResults with
    | none => simp
    | some r =>
      constructor
      · intro hin t ht
        obtain ⟨hit,hhit,rfl⟩ := Option.map_eq_some_iff.mp ht
        have hbelongs := hin r rfl (List.getElem?_eq_some_iff.mp hhit).1
        exact ⟨h.settled,List.forall_mem_cons.mpr ⟨hbelongs,h.chosen⟩⟩
      · rintro hright _ ⟨⟩ hindex
        have ht := hright (s.rerunBlock r r.hits[index]) (by simp [hindex])
        exact ht.chosen _ List.mem_cons_self

/-- The panel settles on its input just where the reply that comes last is the one for it, and
no result of another query is acted on. -/
theorem settles_iff (steps : List BlockSearchStep) :
    Always step Right start steps ↔ Along step InTime start steps :=
  (along_iff_always (I := fun _ => True) (fun _ _ _ _ _ => trivial)
    (fun _ a _ hs => right_step_iff a hs) trivial right_start).symm

end Pyre.Search.BlockSearch
