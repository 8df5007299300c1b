import Mathlib.Algebra.Group.Nat.Defs
import Mathlib.Data.List.Infix
import Pyre.Base.Text

/-!
Searching, cutting and reading of numbers in the text functions of the Rust standard library, with
positions counted in characters.
-/

set_option autoImplicit false

namespace Pyre.Base

variable {a b t pat pfx rest : List Char} {c : Char}

/-- `str::strip_prefix` -/
def strip (pfx t : List Char) : Option (List Char) :=
  if pfx.isPrefixOf t then some (t.drop pfx.length) else none

/-- `str::find` -/
def find (pat : List Char) : List Char → Option Nat
  | [] => if pat = [] then some 0 else none
  | c :: t => if pat.isPrefixOf (c :: t) then some 0 else (find pat t).map (·+1)

def stripCr (l : List Char) : List Char := if l.getLast? = some '\r' then l.dropLast else l

/-- The lines of a text that goes on after `l`. -/
def linesFrom (l : List Char) : List Char → List (List Char)
  | [] => if l = [] then [] else [l]
  | c :: t => if c = '\n' then stripCr l :: linesFrom [] t else linesFrom (l ++ [c]) t

/-- `str::lines` -/
def lines (t : List Char) : List (List Char) := linesFrom [] t

/-- `join("\n")` -/
def joinLines : List (List Char) → List Char
  | [] => []
  | [l] => l
  | l :: ls => l ++ '\n' :: joinLines ls

/-- `str::parse::<u32>` -/
def parseU32 (t : List Char) : Option Nat := do
  let n ← digits (if t.head? = some '+' then t.tail else t)
  if n < 2^32 then some n else none

theorem strip_eq_some : strip pfx t = some rest ↔ t = pfx ++ rest := by
  rw [strip]
  constructor
  · intro h
    obtain ⟨hp,h⟩ := Option.ite_none_right_eq_some.mp h
    obtain ⟨rest',rfl⟩ := List.isPrefixOf_iff_prefix.mp hp
    rw [← Option.some.inj h,List.drop_left]
  · rintro rfl
    simp

theorem strip_eq_none (h : ¬pfx <+: t) : strip pfx t = none :=
  if_neg fun hp => h (List.isPrefixOf_iff_prefix.mp hp)

/-- What has a letter where the text has none is not how the text begins. -/
theorem not_prefix_append (hc : c ∈ pfx.take a.length) (ha : c ∉ a) : ¬pfx <+: a ++ b := by
  rintro ⟨rest,h⟩
  have htake := congrArg (List.take a.length) h
  rw [List.take_left] at htake
  rw [← htake,List.take_append] at ha
  exact ha (List.mem_append_left _ hc)

/-- The first place of a text is where no earlier one has it. -/
theorem find_append (h : ∀ s, s ≠ [] → s <:+ a → ¬pat <+: s ++ (pat ++ b)) :
    find pat (a ++ (pat ++ b)) = some a.length := by
  induction a with
  | nil =>
    cases hpat : pat ++ b with
    | nil =>
      rw [List.append_eq_nil_iff] at hpat
      simp [find,hpat.1]
    | cons c t =>
      have hp : pat <+: c :: t := ⟨b,hpat⟩
      simp [find,hp]
  | cons c a ih =>
    have hnot := h (c :: a) (List.cons_ne_nil c a) List.suffix_rfl
    have hrec := ih fun s hs ht => h s hs (ht.trans (List.suffix_cons c a))
    rw [List.cons_append] at hnot
    rw [List.cons_append,find,if_neg fun hp => hnot (List.isPrefixOf_iff_prefix.mp hp),hrec]
    simp

/-- A text is found past what does not have its first letter. -/
theorem find_append_of_head (h : c ∉ a) :
    find (c :: pat) (a ++ (c :: pat ++ b)) = some a.length := by
  refine find_append fun s hs ht hp => ?_
  obtain ⟨d,s,rfl⟩ := List.exists_cons_of_ne_nil hs
  obtain rfl := (List.cons_prefix_cons.mp hp).1
  exact h (ht.mem List.mem_cons_self)

theorem find_eq_none (h : ¬pat <:+: t) : find pat t = none := by
  induction t with
  | nil =>
    have hne : pat ≠ [] := by
      rintro rfl
      exact h List.infix_rfl
    exact if_neg hne
  | cons c t ih =>
    have hp : ¬pat.isPrefixOf (c :: t) := fun hp => h (List.isPrefixOf_iff_prefix.mp hp).isInfix
    rw [find,if_neg hp,ih fun hi => h (hi.trans (List.suffix_cons c t).isInfix),Option.map_none]

theorem find_eq_none_of_head (h : c ∉ t) : find (c :: pat) t = none :=
  find_eq_none fun hi => h (hi.mem List.mem_cons_self)

theorem linesFrom_line {l : List Char} (h : '\n' ∉ a) (t : List Char) :
    linesFrom l (a ++ '\n' :: t) = stripCr (l ++ a) :: linesFrom [] t := by
  induction a generalizing l with
  | nil => simp [linesFrom]
  | cons c a ih =>
    have hne : c ≠ '\n' := (List.ne_of_not_mem_cons h).symm
    rw [List.cons_append,linesFrom,if_neg hne,ih (List.not_mem_of_not_mem_cons h),
      List.append_assoc,List.singleton_append]

theorem lines_line (h : '\n' ∉ a) (t : List Char) : lines (a ++ '\n' :: t) = stripCr a :: lines t :=
  linesFrom_line h t

theorem stripCr_eq_self (h : '\r' ∉ a) : stripCr a = a :=
  if_neg fun heq => h (List.mem_of_getLast? heq)

/-- Neither a line feed nor a carriage return. -/
def Unbroken (l : List Char) : Prop := '\n' ∉ l ∧ '\r' ∉ l

theorem lines_joinLines {ls : List (List Char)} {last : List Char} (h : ∀ l ∈ ls, Unbroken l)
    (hlast : Unbroken last) (hne : last ≠ []) :
    lines (joinLines (ls ++ [last])) = ls ++ [last] := by
  induction ls with
  | nil =>
    have hend : ∀ l a : List Char, '\n' ∉ a → l ++ a ≠ [] → linesFrom l a = [l ++ a] := by
      intro l a
      induction a generalizing l with
      | nil =>
        intro _ hl
        rw [List.append_nil] at hl ⊢
        exact if_neg hl
      | cons c a ih =>
        intro ha hl
        have hc : c ≠ '\n' := (List.ne_of_not_mem_cons ha).symm
        rw [linesFrom,if_neg hc,ih _ (List.not_mem_of_not_mem_cons ha) (by simp),List.append_assoc,
          List.singleton_append]
    exact hend [] last hlast.1 hne
  | cons l ls ih =>
    have hl := h l List.mem_cons_self
    have hls := ih fun l' hl' => h l' (List.mem_cons_of_mem l hl')
    have hjoin : joinLines (l :: ls ++ [last]) = l ++ '\n' :: joinLines (ls ++ [last]) := by
      cases ls <;> rfl
    rw [hjoin,lines_line hl.1,stripCr_eq_self hl.2,hls,List.cons_append]

theorem joinLines_concat {ls : List (List Char)} (h : ls ≠ []) (l : List Char) :
    joinLines (ls ++ [l]) = joinLines ls ++ '\n' :: l := by
  induction ls with
  | nil => exact absurd rfl h
  | cons l' ls ih =>
    cases ls with
    | nil => rfl
    | cons l'' ls =>
      have hrest := ih (List.cons_ne_nil l'' ls)
      change l' ++ '\n' :: joinLines (l'' :: ls ++ [l]) = _
      rw [hrest]
      simp [joinLines]

/-- Lines that are joined can be told apart. -/
theorem joinLines_inj {as bs : List (List Char)} (has : ∀ l ∈ as, Unbroken l)
    (hbs : ∀ l ∈ bs, Unbroken l) (ha : as ≠ []) (hb : bs ≠ []) :
    joinLines as = joinLines bs ↔ as = bs := by
  refine ⟨fun heq => ?_,congrArg joinLines⟩
  have hend : Unbroken ['.'] := ⟨by decide,by decide⟩
  have hjoin : joinLines (as ++ [['.']]) = joinLines (bs ++ [['.']]) := by
    rw [joinLines_concat ha,joinLines_concat hb,heq]
  have hlines := congrArg lines hjoin
  rw [lines_joinLines has hend (by simp),lines_joinLines hbs hend (by simp)] at hlines
  exact List.append_cancel_right hlines

theorem digits_toDigits (n : Nat) : digits (Nat.toDigits 10 n) = some n := by
  have hfold : ∀ (ds : List Char) (i : Nat), (∀ c ∈ ds, c.isDigit) →
      ds.foldlM (fun n c => if c.isDigit then some (10*n + (c.toNat-48)) else none) i =
        some (Nat.ofDigitChars 10 ds i) := by
    intro ds
    induction ds with
    | nil => simp
    | cons c ds ih =>
      intro i h
      have hc := h c List.mem_cons_self
      rw [List.foldlM_cons,if_pos hc,Nat.ofDigitChars_cons]
      exact ih _ fun d hd => h d (List.mem_cons_of_mem c hd)
  have hall : ∀ c ∈ Nat.toDigits 10 n, c.isDigit := fun c hc =>
    Nat.isDigit_of_mem_toDigits (by decide) (by decide) hc
  have hval := hfold _ 0 hall
  rw [Nat.ofDigitChars_toDigits (by decide) (by decide)] at hval
  cases h : Nat.toDigits 10 n with
  | nil => exact absurd h Nat.toDigits_ne_nil
  | cons c ds =>
    rw [← hval,h]
    rfl

theorem parseU32_toDigits (n : Nat) :
    parseU32 (Nat.toDigits 10 n) = if n < 2^32 then some n else none := by
  have hplus : (Nat.toDigits 10 n).head? ≠ some '+' := fun h =>
    absurd (Nat.isDigit_of_mem_toDigits (by decide) (by decide) (List.mem_of_head? h)) (by decide)
  rw [parseU32,if_neg hplus,digits_toDigits]
  rfl

end Pyre.Base
