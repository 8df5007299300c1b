import Pyre.Blocks.Listing

/-!
The blocks the bridge lists for a pane. It asks for the most recent blocks of all panes, and keeps
those of the pane.
-/

set_option autoImplicit false

namespace Pyre.Gui
open Base Migration

def listBlocksLimit : Nat := 100

/-- The command of the bridge. -/
def listBlocks (st : BlockStore) (pane : PaneId) : List BlockRow :=
  (st.serveListBlocks ⟨none,listBlocksLimit⟩).filter fun b => b.pane = pane

/-- The most recent blocks of the pane, up to the limit, in the list. -/
def ListsPane (st : BlockStore) (pane : PaneId) : Prop :=
  Leading BlockRow.Before (st.rows.filter fun b => b.pane = pane) listBlocksLimit
    (listBlocks st pane)

/-- No block of the pane that is among the most recent of the pane has too many blocks of any
pane before it. -/
def NotCrowdedOut (st : BlockStore) (pane : PaneId) : Prop :=
  ∀ newer b older, st.newestFirst = newer ++ b :: older → b.pane = pane →
    (newer.filter fun b => b.pane = pane).length < listBlocksLimit →
      newer.length < listBlocksLimit

/-- The list is complete just where other panes have not crowded out a block that belongs in it. -/
theorem listsPane_iff (st : BlockStore) (pane : PaneId) :
    ListsPane st pane ↔ NotCrowdedOut st pane := by
  have hfirst := leading_filter_take_iff (p := fun b => decide (b.pane = pane))
    (k := listBlocksLimit) st.perm_newestFirst st.pairwise_newestFirst st.nodup_newestFirst
  rw [length_filter_take_iff] at hfirst
  simpa [ListsPane,NotCrowdedOut,listBlocks,BlockStore.serveListBlocks,
    BlockStore.listBlocks_eq_take] using hfirst

/-- The blocks of pane 2, the newest first. -/
def busyRows : List BlockRow :=
  (List.range listBlocksLimit).map fun i => ⟨⟨i+1⟩,⟨2⟩,⟨1⟩,[],listBlocksLimit-i,none⟩

/-- Pane 1 had its one block before. -/
def quietRow : BlockRow := ⟨⟨0⟩,⟨1⟩,⟨1⟩,[],0,none⟩

def busyStore : BlockStore where
  rows := busyRows ++ [quietRow]
  blob _ := none
  ids_nodup := by decide +kernel

/-- A hundred blocks of one pane hide the block of another. -/
theorem crowded_out : ¬∀ st pane, ListsPane st pane := by
  intro hall
  have hnear := (listsPane_iff busyStore ⟨1⟩).mp (hall busyStore ⟨1⟩)
  have hsorted : (busyRows ++ [quietRow]).Pairwise BlockRow.Before := by decide +kernel
  have hfirst : busyStore.newestFirst = busyRows ++ quietRow :: [] := hsorted.insertionSort_eq
  have hlisted := hnear busyRows quietRow [] hfirst rfl (by decide +kernel)
  revert hlisted
  decide

end Pyre.Gui
