import Pyre.Base.Listening
import Pyre.Base.Run
import Pyre.Base.Text
import Pyre.Proto

/-!
What the search overlays have in common: the query an input asks for, and results that are
shown with the query they were found for.
-/

set_option autoImplicit false

namespace Pyre.Search
open Base

/-- The parts of a `search_blocks` request that an input decides. -/
structure Query where
  text : Text
  failuresOnly : Bool
  deriving DecidableEq, Repr

structure BlockHit where
  block : BlockId
  pane : PaneId
  command : Text
  snippet : Text
  deriving DecidableEq, Repr

def trimStart (t : Text) : Text := t.dropWhile isWhitespace

/-- The two front ends in Rust have one each, alike. -/
def parseSearchInput : Text → Query
  | '!' :: rest => ⟨trimStart rest,true⟩
  | input => ⟨input,false⟩

/-- Results and what they were found for. The overlays store the hits only. -/
structure Results where
  query : Query
  hits : List BlockHit
  deriving DecidableEq, Repr

/-- The hits of a list that may have been cleared. -/
def hitsOf (results : Option Results) : List BlockHit := results.elim [] (·.hits)

/-- The hits are those of the query, none if it is empty. -/
def ShownFor (query : Query) (results : Option Results) : Prop :=
  if query.text = [] then hitsOf results = [] else ∃ r ∈ results, r.query = query

instance (query : Query) (results : Option Results) : Decidable (ShownFor query results) := by
  unfold ShownFor
  infer_instance

/-- A result acted on: whose it was, and the query in the input when it was chosen. -/
structure Choice where
  hit : BlockHit
  foundFor : Query
  shown : Query
  deriving DecidableEq, Repr

def Choice.Belongs (c : Choice) : Prop := c.foundFor = c.shown

instance : DecidablePred Choice.Belongs := fun c => decEq c.foundFor c.shown

@[simp] theorem shownFor_none_iff {query : Query} : ShownFor query none ↔ query.text = [] := by
  unfold ShownFor
  split_ifs with h <;> simp [h,hitsOf]

theorem shownFor_self {query : Query} {hits : List BlockHit}
    (h : query.text = [] → hits = []) : ShownFor query (some ⟨query,hits⟩) := by
  unfold ShownFor
  split_ifs with hempty
  · exact h hempty
  · exact ⟨_,rfl,rfl⟩

end Pyre.Search
