import Pyre.Search.BlockSearch
import Pyre.Search.SearchUi
import Pyre.Search.SearchState

/-!
The three search overlays, each with the runs in which it settles on the query in its input.
-/

set_option autoImplicit false

namespace Pyre.Search
open Base

/-- An index finds nothing for an empty query. -/
theorem overlays_settle_iff (found : Query → List BlockHit → Bool)
    (hempty : ∀ query hits, query.text = [] → found query hits → hits = []) :
    (∀ steps, Always BlockSearch.step BlockSearch.Right .start steps ↔
      Along BlockSearch.step BlockSearch.InTime .start steps) ∧
    (∀ steps, Always SearchUi.step SearchUi.Right .start steps ↔
      Along SearchUi.step SearchUi.InTime .start steps) ∧
    ∀ steps, Always (SearchState.step found) SearchState.Right .start steps ↔
      Along (SearchState.step found) SearchState.InTime .start steps :=
  ⟨BlockSearch.settles_iff,SearchUi.settles_iff,SearchState.settles_iff hempty⟩

def makeHit : BlockHit := ⟨⟨1⟩,⟨2⟩,['m','a','k','e'],[]⟩

/-- A jump to a result of the query that was typed. -/
theorem overlays_settle_iff_jump :
    Always (SearchState.step fun query hits => query.text ≠ [] ∨ hits = []) SearchState.Right .start
      [.openSearch,.char 'm',.tick true,.reply 0 [makeHit],.drain,.enter] :=
  ((overlays_settle_iff _ fun _ _ htext hfound => by simpa [htext] using hfound).2.2 _).mpr
    (by decide)

/-- The reply for the input comes first, and is replaced by the one for what was typed before. -/
theorem late_reply_shown :
    ¬ Always BlockSearch.step BlockSearch.Right .start
      [.runBlockSearch ['m'],.runBlockSearch ['m','a'],.reply 1 [],.reply 0 [makeHit]] :=
  fun h => absurd (h.last rfl) (by decide)

end Pyre.Search
