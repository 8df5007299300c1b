import Pyre.Base.Table
import Pyre.Blocks.Listing

/-!
The recent blocks of the panes in the terminal client: the poll of the daemon, the cache in each
slot, the key that copies the output of the last one, and the ribbon that marks it.
-/

set_option autoImplicit false

namespace Pyre.Tui
open Base Migration

/-- A slot as far as its ribbon goes. A cursor of `none` is the live end. -/
structure PaneSlot where
  pane : PaneId
  recentBlocks : List BlockRow
  ribbonCursor : Option Nat

inductive ChipStyle where
  | selection
  | live
  | badge (exitCode : Option Int)
  deriving DecidableEq, Repr

def pollLimit : Nat := 20

/-- What the poll task has the daemon list. -/
def polled (st : BlockStore) : List BlockRow := st.serveListBlocks ⟨none,pollLimit⟩

/-- The poll task groups the blocks by their panes before it publishes them. -/
def groupByPane (blocks : List BlockRow) : Table PaneId (List BlockRow) :=
  blocks.foldl (fun map b => map.insert b.pane ((map.lookup b.pane).getD [] ++ [b])) ∅

namespace PaneSlot

/-- The event loop takes over what was published. -/
def drain (map : Table PaneId (List BlockRow)) (slot : PaneSlot) : PaneSlot :=
  match map.lookup slot.pane with
  | some blocks =>
    { slot with
      recentBlocks := blocks
      ribbonCursor := slot.ribbonCursor.bind fun cursor =>
        if blocks ≠ [] then some (min cursor (blocks.length-1)) else none }
  | none => { slot with recentBlocks := [], ribbonCursor := none }

/-- The block whose output the binding copies. -/
def copiedBlock (slot : PaneSlot) : Option BlockId := slot.recentBlocks.getLast?.map BlockRow.id

/-- The chips with their styles. -/
def ribbon (slot : PaneSlot) : List (BlockRow × ChipStyle) :=
  let latestIdx := slot.recentBlocks.length-1
  let highlightIdx := slot.ribbonCursor.getD latestIdx
  slot.recentBlocks.mapIdx fun i b =>
    (b,if i = highlightIdx ∧ slot.ribbonCursor ≠ none then .selection
      else if i = latestIdx ∧ slot.ribbonCursor = none then .live
      else .badge b.exitCode)

end PaneSlot

def afterPoll (st : BlockStore) (slots : List PaneSlot) : List PaneSlot :=
  slots.map (PaneSlot.drain (groupByPane (polled st)))

/-- Of the pane's blocks in the list none was started later. -/
structure LastStarted (blocks : List BlockRow) (pane : PaneId) (b : BlockRow) : Prop where
  mem : b ∈ blocks
  shown : b.pane = pane
  latest : ∀ c ∈ blocks, c.pane = pane → c.startedAt ≤ b.startedAt

/-- The slot has its blocks newest last, and so has whoever reads them. -/
structure PaneSlot.NewestLast (blocks : List BlockRow) (slot : PaneSlot) : Prop where
  ascending : slot.recentBlocks.Pairwise fun a b => a.startedAt ≤ b.startedAt
  copied : (∃ b ∈ blocks, b.pane = slot.pane) →
    ∃ b, slot.copiedBlock = some b.id ∧ LastStarted blocks slot.pane b
  marked : (∃ b ∈ blocks, b.pane = slot.pane) → slot.ribbonCursor = none →
    ∃ b, (b,.live) ∈ slot.ribbon ∧ LastStarted blocks slot.pane b

/-- The blocks of the pane that were polled were all started at one time. -/
def StartedTogether (blocks : List BlockRow) (pane : PaneId) : Prop :=
  ∀ a ∈ blocks, ∀ b ∈ blocks, a.pane = pane → b.pane = pane → a.startedAt = b.startedAt

variable {st : BlockStore} {slot : PaneSlot} {blocks : List BlockRow}

theorem lookup_groupByPane (blocks : List BlockRow) (pane : PaneId) :
    ((groupByPane blocks).lookup pane).getD [] = blocks.filter fun b => b.pane = pane := by
  induction blocks using List.reverseRecOn with
  | nil => rfl
  | append_singleton blocks b ih =>
    rw [groupByPane,List.foldl_append,List.foldl_cons,List.foldl_nil,← groupByPane,
      List.filter_append]
    by_cases hpane : b.pane = pane
    · subst hpane
      simp [ih]
    · rw [AList.lookup_insert_ne (Ne.symm hpane),ih]
      simp [hpane]

theorem recentBlocks_drain (blocks : List BlockRow) (slot : PaneSlot) :
    (slot.drain (groupByPane blocks)).recentBlocks = blocks.filter fun b => b.pane = slot.pane := by
  rw [← lookup_groupByPane,PaneSlot.drain]
  split <;> simp [*]

@[simp] theorem pane_drain (map : Table PaneId (List BlockRow)) (slot : PaneSlot) :
    (slot.drain map).pane = slot.pane := by
  rw [PaneSlot.drain]
  split <;> rfl

theorem pairwise_polled (st : BlockStore) : (polled st).Pairwise BlockRow.Before :=
  st.pairwise_newestFirst.sublist (List.take_sublist pollLimit _)

/-- Blocks that are listed newest first stand oldest first only where they are of one time. -/
theorem started_eq (hdesc : blocks.Pairwise BlockRow.Before)
    (hasc : blocks.Pairwise fun a b => a.startedAt ≤ b.startedAt) {a b : BlockRow}
    (ha : a ∈ blocks) (hb : b ∈ blocks) : a.startedAt = b.startedAt := by
  have heq : (blocks.map BlockRow.startedAt).Pairwise (· = ·) :=
    List.pairwise_map.mpr ((hdesc.and hasc).imp fun h => Int.le_antisymm h.2 h.1)
  exact heq.forall_of_forall (fun _ _ => rfl) (List.mem_map_of_mem ha) (List.mem_map_of_mem hb)

/-- The last chip has the live style while no cursor is set. -/
theorem live_mem_ribbon {b : BlockRow} (hlive : slot.ribbonCursor = none)
    (hlast : slot.recentBlocks.getLast? = some b) : (b,.live) ∈ slot.ribbon := by
  rw [List.getLast?_eq_getElem?] at hlast
  obtain ⟨hlt,hb⟩ := List.getElem?_eq_some_iff.mp hlast
  have hribbon : slot.recentBlocks.length-1 < slot.ribbon.length := by
    simpa [PaneSlot.ribbon] using hlt
  refine List.mem_iff_getElem.mpr ⟨slot.recentBlocks.length-1,hribbon,?_⟩
  simp [PaneSlot.ribbon,hlive,hb]

/-- A slot after the poll. -/
theorem newestLast_drain_iff (hdesc : blocks.Pairwise BlockRow.Before) (slot : PaneSlot) :
    (slot.drain (groupByPane blocks)).NewestLast blocks ↔ StartedTogether blocks slot.pane := by
  have hrecent := recentBlocks_drain blocks slot
  constructor
  · intro h a ha b hb hpa hpb
    have hasc := h.ascending
    rw [hrecent] at hasc
    exact started_eq (hdesc.filter _) hasc (List.mem_filter.mpr ⟨ha,by simpa using hpa⟩)
      (List.mem_filter.mpr ⟨hb,by simpa using hpb⟩)
  · intro htogether
    have hmem : ∀ b ∈ (slot.drain (groupByPane blocks)).recentBlocks,
        b ∈ blocks ∧ b.pane = slot.pane := by
      intro b hb
      simpa [hrecent] using hb
    have hnewest : ∀ b ∈ (slot.drain (groupByPane blocks)).recentBlocks,
        LastStarted blocks slot.pane b := by
      intro b hb
      obtain ⟨hb,hpane⟩ := hmem b hb
      exact ⟨hb,hpane,fun c hc hcp => (htogether c hc b hb hcp hpane).le⟩
    have hlast : (∃ b ∈ blocks, b.pane = slot.pane) →
        ∃ b, (slot.drain (groupByPane blocks)).recentBlocks.getLast? = some b ∧
          LastStarted blocks slot.pane b := by
      rintro ⟨b,hb,hpane⟩
      have hne : (slot.drain (groupByPane blocks)).recentBlocks ≠ [] := by
        apply List.ne_nil_of_mem (a := b)
        simpa [hrecent] using ⟨hb,hpane⟩
      exact ⟨_,List.getLast?_eq_some_getLast hne,hnewest _ (List.getLast_mem hne)⟩
    refine ⟨List.pairwise_of_forall_mem_list fun a ha b hb => ?_,fun hsome => ?_,
      fun hsome hlive => ?_⟩
    · obtain ⟨ha,hpa⟩ := hmem a ha
      obtain ⟨hb,hpb⟩ := hmem b hb
      exact (htogether a ha b hb hpa hpb).le
    · rw [pane_drain] at hsome ⊢
      obtain ⟨b,hb,hnewest⟩ := hlast hsome
      exact ⟨b,by rw [PaneSlot.copiedBlock,hb,Option.map_some],hnewest⟩
    · rw [pane_drain] at hsome ⊢
      obtain ⟨b,hb,hnewest⟩ := hlast hsome
      exact ⟨b,live_mem_ribbon hlive hb,hnewest⟩

/-- Of all slots after a poll. -/
theorem recentBlocks_newestLast_iff (st : BlockStore) (slots : List PaneSlot) :
    (∀ slot ∈ afterPoll st slots, slot.NewestLast (polled st)) ↔
      ∀ slot ∈ slots, StartedTogether (polled st) slot.pane := by
  rw [afterPoll,List.forall_mem_map]
  exact forall₂_congr fun slot _ => newestLast_drain_iff (pairwise_polled st) slot

/-- A pane that has run two commands. -/
def twoCommands : BlockStore where
  rows := [⟨⟨1⟩,⟨1⟩,⟨1⟩,"make".toList,10,some 0⟩,⟨⟨2⟩,⟨1⟩,⟨1⟩,"ls".toList,20,some 0⟩]
  blob _ := none
  ids_nodup := by decide

/-- The output of the first one is copied. -/
theorem oldest_copied : ¬∀ st slots, ∀ slot ∈ afterPoll st slots, slot.NewestLast (polled st) := by
  intro hall
  have htogether := (recentBlocks_newestLast_iff twoCommands [⟨⟨1⟩,[],none⟩]).mp (hall _ _) _
    List.mem_cons_self
  have hsame := htogether ⟨⟨1⟩,⟨1⟩,⟨1⟩,"make".toList,10,some 0⟩ (by decide)
    ⟨⟨2⟩,⟨1⟩,⟨1⟩,"ls".toList,20,some 0⟩ (by decide) rfl rfl
  cases hsame

end Pyre.Tui
