import Mathlib.Data.List.Basic

/-!
Texts written side by side into a line of so many columns, some of them tagged, and marks that are
to cover the columns of the tagged ones.
-/

set_option autoImplicit false

namespace Pyre.Base

/-- How a text is written where so many columns are left: how many it takes, and whether it is
written to its end. -/
structure Fitting (τ : Type*) where
  fit : Nat → τ → Nat × Bool
  fit_le : ∀ n t, (fit n t).1 ≤ n

structure Span (ι τ : Type*) where
  tag : Option ι
  text : τ
  deriving DecidableEq

/-- Where the next text begins, and how many columns are left for it. -/
structure Pen where
  col : Nat
  left : Nat

/-- The columns that are meant for a tagged text. -/
structure Mark (ι : Type*) where
  tag : ι
  start : Nat
  width : Nat

namespace Fitting

variable {ι τ : Type*} (w : Fitting τ)

/-- Nothing is written after a text that was cut. -/
def write (pen : Pen) (t : τ) : Pen :=
  ⟨pen.col+(w.fit pen.left t).1,if (w.fit pen.left t).2 then pen.left-(w.fit pen.left t).1 else 0⟩

/-- The column is one of those that are taken by a text with the tag. -/
def Drawn : Pen → List (Span ι τ) → ι → Nat → Prop
  | _, [], _, _ => False
  | pen, s :: spans, i, c =>
    (s.tag = some i ∧ pen.col ≤ c ∧ c < (w.write pen s.text).col) ∨
      Drawn (w.write pen s.text) spans i c

instance Drawn.decidable [DecidableEq ι] :
    ∀ (pen : Pen) (spans : List (Span ι τ)) (i : ι) (c : Nat), Decidable (w.Drawn pen spans i c)
  | _, [], _, _ => isFalse id
  | pen, s :: spans, i, c =>
    have : Decidable (w.Drawn (w.write pen s.text) spans i c) := Drawn.decidable _ spans i c
    inferInstanceAs (Decidable (_ ∨ _))

/-- Each mark has just the columns of the text with its tag. -/
def Covers (pen : Pen) (spans : List (Span ι τ)) (marks : List (Mark ι)) : Prop :=
  ∀ m ∈ marks, ∀ c, m.start ≤ c ∧ c < m.start+m.width ↔ w.Drawn pen spans m.tag c

variable {w} {pen : Pen} {spans rest : List (Span ι τ)} {marks : List (Mark ι)} {i j : ι}
  {c x n : Nat} {t : τ}

theorem col_le_write : pen.col ≤ (w.write pen t).col := Nat.le_add_right _ _

theorem write_le : (w.write pen t).col+(w.write pen t).left ≤ pen.col+pen.left := by
  have hle := w.fit_le pen.left t
  simp only [write]
  split <;> omega

theorem Drawn.bounds (h : w.Drawn pen spans i c) : pen.col ≤ c ∧ c < pen.col+pen.left := by
  induction spans generalizing pen with
  | nil => exact h.elim
  | cons s spans ih =>
    have hle : (w.write pen s.text).col+(w.write pen s.text).left ≤ pen.col+pen.left := write_le
    have hcol : pen.col ≤ (w.write pen s.text).col := col_le_write
    rcases h with ⟨-,hstart,hstop⟩ | h
    · omega
    · have hrest := ih h
      omega

/-- No column is taken twice. -/
theorem Drawn.unique (hi : w.Drawn pen spans i c) (hj : w.Drawn pen spans j c) : i = j := by
  induction spans generalizing pen with
  | nil => exact hi.elim
  | cons s spans ih =>
    rcases hi with ⟨hti,-,hi⟩ | hi <;> rcases hj with ⟨htj,-,hj⟩ | hj
    · exact Option.some.inj (hti.symm.trans htj)
    · exact absurd hj.bounds.1 (by omega)
    · exact absurd hi.bounds.1 (by omega)
    · exact ih hi hj

theorem not_drawn (h : ∀ s ∈ spans, s.tag ≠ some i) : ¬w.Drawn pen spans i c := by
  induction spans generalizing pen with
  | nil => exact id
  | cons s spans ih =>
    rintro (⟨htag,-⟩ | hrest)
    · exact h s List.mem_cons_self htag
    · exact ih (fun s hs => h s (List.mem_cons_of_mem _ hs)) hrest

theorem drawn_append (h : ∀ s ∈ rest, s.tag ≠ some i) :
    w.Drawn pen (spans ++ rest) i c ↔ w.Drawn pen spans i c := by
  induction spans generalizing pen with
  | nil => exact iff_of_false (not_drawn h) id
  | cons s spans ih => exact or_congr_right ih

theorem covers_untagged :
    w.Covers pen (⟨none,t⟩ :: spans) marks ↔ w.Covers (w.write pen t) spans marks := by
  simp [Covers,Drawn]

/-- A text without a mark counts for its columns. -/
theorem covers_unmarked (h : ∀ m ∈ marks, m.tag ≠ i) :
    w.Covers pen (⟨some i,t⟩ :: spans) marks ↔ w.Covers (w.write pen t) spans marks := by
  refine forall₂_congr fun m hm => forall_congr' fun c => ?_
  have hne : some i ≠ some m.tag := fun heq => h m hm (Option.some.inj heq).symm
  simp [Drawn,hne]

theorem covers_marked (hmarks : ∀ m ∈ marks, m.tag ≠ i) (hspans : ∀ s ∈ spans, s.tag ≠ some i) :
    w.Covers pen (⟨some i,t⟩ :: spans) (⟨i,x,n⟩ :: marks) ↔
      (∀ c, x ≤ c ∧ c < x+n ↔ pen.col ≤ c ∧ c < (w.write pen t).col) ∧
        w.Covers (w.write pen t) spans marks := by
  rw [← covers_unmarked hmarks,Covers,List.forall_mem_cons]
  refine and_congr_left fun _ => forall_congr' fun c => ?_
  simp [Drawn,not_drawn hspans]

/-- A mark with columns covers those in between just where it begins and ends with them. -/
theorem same_columns_iff {start stop : Nat} (hn : 0 < n) :
    (∀ c, x ≤ c ∧ c < x+n ↔ start ≤ c ∧ c < stop) ↔ x = start ∧ x+n = stop := by
  constructor
  · intro h
    have hfirst := (h x).mp ⟨Nat.le_refl _,by omega⟩
    have hlast := (h (x+n-1)).mp ⟨by omega,by omega⟩
    have hstart := (h start).mpr ⟨Nat.le_refl _,by omega⟩
    have hstop := (h (stop-1)).mpr ⟨by omega,by omega⟩
    omega
  · rintro ⟨rfl,rfl⟩ c
    exact Iff.rfl

end Fitting

end Pyre.Base
