import Pyre.Base.Newest
import Pyre.Migration.Backfill

/-!
The queries for the most recent blocks: of all panes, of a session, and of one pane. The order of
blocks that were started at the same time is left to the order of the rows.
-/

set_option autoImplicit false

namespace Pyre.Migration
open Base

/-- `a` is listed before `b`, or may be. -/
def BlockRow.Before (a b : BlockRow) : Prop := b.startedAt ≤ a.startedAt

instance : DecidableRel BlockRow.Before := fun _ _ => inferInstanceAs (Decidable (_ ≤ _))

instance : Std.Total BlockRow.Before := ⟨fun a b => Int.le_total b.startedAt a.startedAt⟩

instance : IsTrans BlockRow BlockRow.Before := ⟨fun _ _ _ hab hbc => Int.le_trans hbc hab⟩

structure ListBlocksReq where
  session : Option SessionId
  limit : Nat
  deriving Repr

namespace BlockStore

variable (st : BlockStore)

/-- `ORDER BY started_at DESC`. -/
def newestFirst : List BlockRow := st.rows.insertionSort BlockRow.Before

/-- The handler of the request, in either daemon. -/
def serveListBlocks (req : ListBlocksReq) : List BlockRow :=
  match req.session with
  | none => st.listBlocks req.limit
  | some s =>
    ((st.rows.filter fun b => b.session = s).insertionSort BlockRow.Before).take req.limit

def listBlocksForPane (pane : PaneId) (limit : Nat) : List BlockRow :=
  ((st.rows.filter fun b => b.pane = pane).insertionSort BlockRow.Before).take limit

variable {st}

theorem listBlocks_eq_take (limit : Nat) : st.listBlocks limit = st.newestFirst.take limit := rfl

theorem perm_newestFirst : st.newestFirst.Perm st.rows := List.perm_insertionSort _ _

theorem pairwise_newestFirst : st.newestFirst.Pairwise BlockRow.Before :=
  List.pairwise_insertionSort _ _

theorem nodup_rows : st.rows.Nodup := st.ids_nodup.of_map

theorem nodup_newestFirst : st.newestFirst.Nodup := perm_newestFirst.nodup_iff.mpr nodup_rows

/-- What the query for one pane lists are its most recent blocks. -/
theorem listBlocksForPane_leading (pane : PaneId) (limit : Nat) :
    Leading BlockRow.Before (st.rows.filter fun b => b.pane = pane) limit
      (st.listBlocksForPane pane limit) := by
  have hrows : (st.rows.filter fun b => b.pane = pane).Nodup := nodup_rows.filter _
  have hperm := List.perm_insertionSort BlockRow.Before (st.rows.filter fun b => b.pane = pane)
  have hsorted := List.pairwise_insertionSort BlockRow.Before
    (st.rows.filter fun b => b.pane = pane)
  have hall := leading_filter_take_iff (p := fun _ => true) (k := limit) hperm hsorted
    (hperm.nodup_iff.mpr hrows)
  simp only [List.filter_true] at hall
  exact hall.mpr (List.length_take ..)

end BlockStore

end Pyre.Migration
