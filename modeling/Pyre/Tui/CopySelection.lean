import Pyre.Base.Find
import Pyre.Proto

/-!
What a copy of a selection takes from the terminal grid. A selection is in rows and columns of the
pane as it is displayed; when the mouse is released rows are mapped through the scroll offset, in
the two copies of the context menu they are not.
-/

set_option autoImplicit false

namespace Pyre.Tui
open Base

/-- The grid of the terminal emulator, whose lines of history have negative numbers. No cell holds
a line break. -/
structure Grid where
  columns : Nat
  screenLines : Nat
  history : Nat
  cell : Int → Nat → Char
  columns_pos : 0 < columns
  unbroken : ∀ line col, cell line col ≠ '\n' ∧ cell line col ≠ '\r'

/-- Indexing, which panics past the grid. -/
def Grid.at? (g : Grid) (line : Int) (col : Nat) : Option Char :=
  if -(g.history : Int) ≤ line ∧ line < g.screenLines ∧ col < g.columns then some (g.cell line col)
  else none

def shown (ch : Char) : Char := if ch = '\x00' then ' ' else ch

structure Selection where
  start : Nat × Nat
  stop : Nat × Nat

namespace Selection

def normalized (sel : Selection) : (Nat × Nat) × (Nat × Nat) :=
  if sel.start.1 < sel.stop.1 ∨ sel.start.1 = sel.stop.1 ∧ sel.start.2 ≤ sel.stop.2 then
    (sel.start,sel.stop)
  else (sel.stop,sel.start)

def firstRow (sel : Selection) : Nat := sel.normalized.1.1

def lastRow (sel : Selection) : Nat := sel.normalized.2.1

def lastCol (sel : Selection) : Nat := sel.normalized.2.2

/-- The rows that are looped over. -/
def rows (sel : Selection) : List Nat := List.range' sel.firstRow (sel.lastRow+1-sel.firstRow)

/-- The columns of a row that are looped over: from where the selection starts in its first row,
to where it ends in its last. -/
def cols (sel : Selection) (g : Grid) (row : Nat) : List Nat :=
  let colStart := if row = sel.firstRow then sel.normalized.1.2 else 0
  let colEnd := if row = sel.lastRow then sel.lastCol else g.columns-1
  List.range' colStart (colEnd+1-colStart)

end Selection

/-- The cells of the selection, each row from its line, then without trailing blanks. The empty
text is not put into the clipboard. -/
def copyText (g : Grid) (sel : Selection) (lineOf : Nat → Int) : Option Text := do
  let text ← sel.rows.mapM fun row =>
    (sel.cols g row).mapM fun c => (g.at? (lineOf row) c).map shown
  return joinLines ((lines (joinLines text)).map trimEnd)

def extractSelectionText (g : Grid) (sel : Selection) (scrollOffset : Nat) : Option Text :=
  copyText g sel fun row => (row : Int)-(scrollOffset : Int)

/-- `ContextMenuActivate` on `MenuItem::Copy` -/
def contextMenuCopy (g : Grid) (sel : Selection) : Option Text := copyText g sel fun row => row

/-- Enter on `MenuItem::Copy` -/
def keyboardCopy (g : Grid) (sel : Selection) : Option Text := copyText g sel fun row => row

/-- A grid and how far it is scrolled back, at most to its oldest line. -/
structure View where
  grid : Grid
  scrollOffset : Nat
  offset_le : scrollOffset ≤ grid.history

namespace View

/-- `render_pane` -/
def displayed (v : View) (row col : Nat) : Char :=
  if row < v.grid.screenLines ∧ col < v.grid.columns then
    shown (v.grid.cell ((row : Int)-(v.scrollOffset : Int)) col)
  else ' '

/-- The selected cells as they are displayed. -/
def selectedText (v : View) (sel : Selection) : Text :=
  joinLines (sel.rows.map fun row => trimEnd ((sel.cols v.grid row).map (v.displayed row)))

/-- All copies take what is displayed. -/
def CopiesAlike (v : View) (sel : Selection) : Prop :=
  extractSelectionText v.grid sel v.scrollOffset = some (v.selectedText sel) ∧
    contextMenuCopy v.grid sel = some (v.selectedText sel) ∧
    keyboardCopy v.grid sel = some (v.selectedText sel)

end View

/-- The selected cells of a row, taken from a line. -/
def rowText (g : Grid) (sel : Selection) (row : Nat) (line : Int) : Text :=
  (sel.cols g row).map fun c => shown (g.cell line c)

/-- The selection ends in the grid, and each of its rows looks as it does when the grid is not
scrolled back. -/
def View.Unmoved (v : View) (sel : Selection) : Prop :=
  sel.lastRow < v.grid.screenLines ∧ sel.lastCol < v.grid.columns ∧
    ∀ row ∈ sel.rows, trimEnd (rowText v.grid sel row row) =
      trimEnd (rowText v.grid sel row ((row : Int)-(v.scrollOffset : Int)))

variable {g : Grid} {sel : Selection} {v : View} {row c : Nat}

namespace Selection

/-- Whichever way it was dragged, the selection runs on from where it starts. -/
theorem normalized_ordered (sel : Selection) : sel.firstRow < sel.lastRow ∨
    sel.firstRow = sel.lastRow ∧ sel.normalized.1.2 ≤ sel.lastCol := by
  simp only [firstRow,lastRow,lastCol,normalized]
  by_cases h : sel.start.1 < sel.stop.1 ∨ sel.start.1 = sel.stop.1 ∧ sel.start.2 ≤ sel.stop.2
  · rw [if_pos h]
    exact h
  · rw [if_neg h]
    dsimp only
    omega

theorem firstRow_le_lastRow (sel : Selection) : sel.firstRow ≤ sel.lastRow := by
  have hle := sel.normalized_ordered
  omega

theorem mem_rows : row ∈ sel.rows ↔ sel.firstRow ≤ row ∧ row ≤ sel.lastRow := by
  have hle := sel.firstRow_le_lastRow
  rw [rows,List.mem_range'_1]
  omega

theorem rows_eq_append : sel.rows =
    List.range' sel.firstRow (sel.lastRow-sel.firstRow) ++ [sel.lastRow] := by
  have hle := sel.firstRow_le_lastRow
  rw [rows,Nat.sub_add_comm hle,List.range'_1_concat,Nat.add_sub_cancel' hle]

theorem lastRow_mem_rows : sel.lastRow ∈ sel.rows := mem_rows.mpr ⟨sel.firstRow_le_lastRow,le_rfl⟩

/-- The columns of the last row go to the last one. -/
theorem lastCol_mem_cols : sel.lastCol ∈ sel.cols g sel.lastRow := by
  rw [cols,List.mem_range'_1,if_pos rfl]
  by_cases hone : sel.lastRow = sel.firstRow
  · have hle := sel.normalized_ordered
    rw [if_pos hone]
    omega
  · rw [if_neg hone]
    omega

theorem lt_columns_of_mem_cols (hcol : sel.lastCol < g.columns) (hc : c ∈ sel.cols g row) :
    c < g.columns := by
  have hpos := g.columns_pos
  simp only [cols,List.mem_range'_1] at hc
  split at hc <;> split at hc <;> omega

theorem cols_lastRow_ne_nil : sel.cols g sel.lastRow ≠ [] := List.ne_nil_of_mem lastCol_mem_cols

end Selection

theorem mapM_eq_some_map {α β : Type} {l : List α} {f : α → Option β} {k : α → β}
    (h : ∀ a ∈ l, f a = some (k a)) : l.mapM f = some (l.map k) := by
  induction l with
  | nil => rfl
  | cons a l ih =>
    have hl := ih fun b hb => h b (List.mem_cons_of_mem a hb)
    simp [h a List.mem_cons_self,hl]

theorem isSome_of_mapM {α β : Type} {l : List α} {f : α → Option β} {bs : List β}
    (h : l.mapM f = some bs) : ∀ a ∈ l, ∃ b, f a = some b := by
  induction l generalizing bs with
  | nil => simp
  | cons a l ih =>
    simp only [List.mapM_cons,Option.bind_eq_bind,Option.bind_eq_some_iff] at h
    obtain ⟨b,hb,bs',hbs,-⟩ := h
    intro a' ha'
    obtain rfl | hmem := List.mem_cons.mp ha'
    · exact ⟨b,hb⟩
    · exact ih hbs a' hmem

theorem unbroken_rowText (row : Nat) (line : Int) : Unbroken (rowText g sel row line) := by
  have hcell : ∀ ch, ch ∈ rowText g sel row line → ch ≠ '\n' ∧ ch ≠ '\r' := by
    intro ch hch
    obtain ⟨c,-,rfl⟩ := List.mem_map.mp hch
    rw [shown]
    split
    · exact ⟨by decide,by decide⟩
    · exact g.unbroken line c
  exact ⟨fun h => (hcell _ h).1 rfl,fun h => (hcell _ h).2 rfl⟩

theorem unbroken_trimEnd {l : Text} (h : Unbroken l) : Unbroken (trimEnd l) := by
  have hsub := (List.rdropWhile_prefix isWhitespace l).subset
  exact ⟨fun hc => h.1 (hsub hc),fun hc => h.2 (hsub hc)⟩

/-- A selection whose lines are in the grid is copied row by row. -/
theorem copyText_eq_some {lineOf : Nat → Int} (hcol : sel.lastCol < g.columns)
    (hline : ∀ row ∈ sel.rows, -(g.history : Int) ≤ lineOf row ∧ lineOf row < g.screenLines) :
    copyText g sel lineOf =
      some (joinLines (sel.rows.map fun row => trimEnd (rowText g sel row (lineOf row)))) := by
  have hrow : ∀ row ∈ sel.rows, ((sel.cols g row).mapM fun c => (g.at? (lineOf row) c).map shown) =
      some (rowText g sel row (lineOf row)) := by
    intro row hr
    refine mapM_eq_some_map fun c hc => ?_
    have hin := hline row hr
    rw [Grid.at?,if_pos ⟨hin.1,hin.2,Selection.lt_columns_of_mem_cols hcol hc⟩]
    rfl
  -- the last row has a cell, so that no line is lost where the text is cut into lines again
  have hlines : lines (joinLines (sel.rows.map fun row => rowText g sel row (lineOf row))) =
      sel.rows.map fun row => rowText g sel row (lineOf row) := by
    rw [Selection.rows_eq_append,List.map_append,List.map_singleton]
    refine lines_joinLines ?_ (unbroken_rowText _ _) ?_
    · intro l hl
      obtain ⟨row,-,rfl⟩ := List.mem_map.mp hl
      exact unbroken_rowText _ _
    · exact mt List.map_eq_nil_iff.mp Selection.cols_lastRow_ne_nil
  rw [copyText,mapM_eq_some_map hrow]
  simp only [Option.bind_eq_bind,Option.bind_some,hlines,List.map_map]
  rfl

/-- A copy that takes each row from its own line needs the end of the selection in the grid. -/
theorem lastRow_lt_of_copyText {t : Text} (h : copyText g sel (fun row => row) = some t) :
    sel.lastRow < g.screenLines ∧ sel.lastCol < g.columns := by
  obtain ⟨text,htext,-⟩ := Option.bind_eq_some_iff.mp h
  obtain ⟨cells,hcells⟩ := isSome_of_mapM htext sel.lastRow Selection.lastRow_mem_rows
  obtain ⟨ch,hch⟩ := isSome_of_mapM hcells sel.lastCol Selection.lastCol_mem_cols
  obtain ⟨ch',hat,-⟩ := Option.map_eq_some_iff.mp hch
  obtain ⟨hin,-⟩ := Option.ite_none_right_eq_some.mp hat
  exact ⟨Int.ofNat_lt.mp hin.2.1,hin.2.2⟩

theorem selectedText_eq (hrow : sel.lastRow < v.grid.screenLines)
    (hcol : sel.lastCol < v.grid.columns) : v.selectedText sel =
      joinLines (sel.rows.map fun row =>
        trimEnd (rowText v.grid sel row ((row : Int)-(v.scrollOffset : Int)))) := by
  refine congrArg joinLines (List.map_congr_left fun row hr => congrArg trimEnd ?_)
  refine List.map_congr_left fun c hc => ?_
  have hle := (Selection.mem_rows.mp hr).2
  exact if_pos ⟨hle.trans_lt hrow,Selection.lt_columns_of_mem_cols hcol hc⟩

theorem extractSelectionText_eq (hrow : sel.lastRow < v.grid.screenLines)
    (hcol : sel.lastCol < v.grid.columns) :
    extractSelectionText v.grid sel v.scrollOffset = some (v.selectedText sel) := by
  rw [extractSelectionText,selectedText_eq hrow hcol]
  refine copyText_eq_some hcol fun row hr => ?_
  have hle := (Selection.mem_rows.mp hr).2
  have hoff := v.offset_le
  omega

theorem unmoved_eq (hrow : sel.lastRow < v.grid.screenLines) (hcol : sel.lastCol < v.grid.columns) :
    copyText v.grid sel (fun row => row) = some (v.selectedText sel) ↔
      ∀ row ∈ sel.rows, trimEnd (rowText v.grid sel row row) =
        trimEnd (rowText v.grid sel row ((row : Int)-(v.scrollOffset : Int))) := by
  have hline : ∀ row ∈ sel.rows, -(v.grid.history : Int) ≤ (row : Int) ∧
      (row : Int) < v.grid.screenLines := by
    intro row hr
    have hle := (Selection.mem_rows.mp hr).2
    omega
  have hunbroken : ∀ f : Nat → Int,
      ∀ l ∈ sel.rows.map fun row => trimEnd (rowText v.grid sel row (f row)), Unbroken l := by
    intro f l hl
    obtain ⟨row,-,rfl⟩ := List.mem_map.mp hl
    exact unbroken_trimEnd (unbroken_rowText _ _)
  have hne : ∀ f : Nat → Int,
      (sel.rows.map fun row => trimEnd (rowText v.grid sel row (f row))) ≠ [] := fun f =>
    mt List.map_eq_nil_iff.mp (List.ne_nil_of_mem Selection.lastRow_mem_rows)
  rw [copyText_eq_some hcol hline,selectedText_eq hrow hcol,Option.some.injEq,
    joinLines_inj (hunbroken _) (hunbroken _) (hne _) (hne _),List.map_inj_left]

/-- The copies agree with what is displayed if and only if the selection ends in the grid and its
rows look as they do when the grid is not scrolled back. -/
theorem copiesAlike_iff (v : View) (sel : Selection) : v.CopiesAlike sel ↔ v.Unmoved sel := by
  constructor
  · rintro ⟨-,hmenu,-⟩
    obtain ⟨hrow,hcol⟩ := lastRow_lt_of_copyText hmenu
    exact ⟨hrow,hcol,(unmoved_eq hrow hcol).mp hmenu⟩
  · rintro ⟨hrow,hcol,hsame⟩
    have hcopy := (unmoved_eq hrow hcol).mpr hsame
    exact ⟨extractSelectionText_eq hrow hcol,hcopy,hcopy⟩

/-- One column, with an older line. -/
def scrolled : View where
  grid := ⟨1,1,1,fun line _ => if line = 0 then 'b' else 'a',by decide,fun line _ => by
    split <;> decide⟩
  scrollOffset := 1
  offset_le := le_rfl

/-- The line that is displayed is `a`, and the context menu copies `b`. -/
theorem other_line_copied : ¬∀ (v : View) sel, v.CopiesAlike sel := by
  intro hall
  exact absurd (hall scrolled ⟨(0,0),(0,0)⟩).2.1 (by decide)

end Pyre.Tui
