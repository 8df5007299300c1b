import Mathlib.Data.List.Basic

/-!
A text without the matches of a pattern. They are looked for from left to right, each behind the
one before. Where no match begins within another, what is left are the elements that are in no
match, wherever one begins; and an element that no match goes over cuts the text in two.
-/

set_option autoImplicit false

namespace Pyre.Base

variable {α : Type*} {a : α} {l m : List α} {k n : Nat}

/-- The elements at the places where `p` holds. -/
def keepAt (p : Nat → Bool) : List α → List α
  | [] => []
  | a :: l => if p 0 then a :: keepAt (fun k => p (k+1)) l else keepAt (fun k => p (k+1)) l

theorem keepAt_sublist (p : Nat → Bool) (l : List α) : (keepAt p l).Sublist l := by
  induction l generalizing p with
  | nil => exact List.nil_sublist []
  | cons a l ih =>
    rw [keepAt]
    split
    · exact (ih _).cons_cons a
    · exact (ih _).cons a

/-- The length of the match at the beginning of a text. -/
structure Matcher (α : Type*) where
  len : List α → Option Nat
  bounds : ∀ {l n}, len l = some n → 0 < n ∧ n ≤ l.length
  apart : ∀ {l n}, len l = some n → ∀ j, 0 < j → j < n → len (l.drop j) = none

namespace Matcher

variable (M : Matcher α)

/-- What is left behind the next `skip` elements, the rest of a match. -/
def eraseFrom : Nat → List α → List α
  | _, [] => []
  | skip+1, _ :: l => eraseFrom skip l
  | 0, a :: l =>
    match M.len (a :: l) with
    | some n => eraseFrom (n-1) l
    | none => a :: eraseFrom 0 l

def erase (l : List α) : List α := M.eraseFrom 0 l

/-- Some match, wherever it begins, goes over the place. -/
def Covers (l : List α) (k : Nat) : Prop := ∃ i ≤ k, ∃ n ∈ M.len (l.drop i), k < i+n

instance (l : List α) (k : Nat) : Decidable (M.Covers l k) :=
  inferInstanceAs (Decidable (∃ i ≤ k, ∃ n ∈ _, _))

/-- No match goes over the element, and none begins with it. -/
def StopsAt (a : α) : Prop := ∀ l m, M.len (l ++ a :: m) = M.len l

variable {M}

@[simp] theorem len_nil : M.len [] = none := by
  cases h : M.len [] with
  | none => rfl
  | some n =>
    have hn := M.bounds h
    simp at hn
    omega

@[simp] theorem eraseFrom_nil (skip : Nat) : M.eraseFrom skip [] = [] := by cases skip <;> rfl

@[simp] theorem erase_nil : M.erase [] = [] := rfl

theorem erase_cons (h : M.len (a :: l) = none) : M.erase (a :: l) = a :: M.erase l := by
  simp only [erase,eraseFrom,h]

theorem eraseFrom_eq (skip : Nat) (l : List α) : M.eraseFrom skip l = M.erase (l.drop skip) := by
  induction skip generalizing l with
  | zero => rfl
  | succ skip ih =>
    cases l with
    | nil => simp
    | cons a l => exact ih l

/-- A match at the beginning is taken out as a whole. -/
theorem erase_match (h : M.len l = some n) : M.erase l = M.erase (l.drop n) := by
  have hn := M.bounds h
  cases l with
  | nil => simp at h
  | cons a l =>
    obtain ⟨n,rfl⟩ : ∃ k, n = k+1 := ⟨n-1,by omega⟩
    simp only [erase,eraseFrom,h]
    exact eraseFrom_eq n l

/-! What is left are the places that no match covers. -/

theorem covers_zero : M.Covers (a :: l) 0 ↔ (M.len (a :: l)).isSome := by
  simp only [Covers,Option.isSome_iff_exists]
  constructor
  · rintro ⟨i,hi,n,hn,-⟩
    obtain rfl : i = 0 := by omega
    exact ⟨n,hn⟩
  · rintro ⟨n,hn⟩
    have hpos := (M.bounds hn).1
    exact ⟨0,Nat.le_refl 0,n,hn,by omega⟩

theorem covers_succ :
    M.Covers (a :: l) (k+1) ↔ (∃ n ∈ M.len (a :: l), k+1 < n) ∨ M.Covers l k := by
  constructor
  · rintro ⟨i,hi,n,hn,hk⟩
    cases i with
    | zero => exact .inl ⟨n,hn,by omega⟩
    | succ i => exact .inr ⟨i,by omega,n,hn,by omega⟩
  · rintro (⟨n,hn,hk⟩ | ⟨i,hi,n,hn,hk⟩)
    · exact ⟨0,by omega,n,hn,by omega⟩
    · exact ⟨i+1,by omega,n,hn,by omega⟩

theorem eraseFrom_eq_keepAt (skip : Nat) (l : List α)
    (h : ∀ j < skip, M.len (l.drop j) = none) :
    M.eraseFrom skip l = keepAt (fun k => decide (skip ≤ k ∧ ¬M.Covers l k)) l := by
  induction l generalizing skip with
  | nil => simp [keepAt]
  | cons a l ih =>
    cases skip with
    | succ skip =>
      -- the element is the rest of a match, so that none begins with it
      have hnone : M.len (a :: l) = none := h 0 (by omega)
      rw [eraseFrom,ih skip fun j hj => h (j+1) (by omega)]
      simp [keepAt,covers_succ,hnone]
    | zero =>
      cases hlen : M.len (a :: l) with
      | none =>
        simp only [eraseFrom,hlen]
        rw [ih 0 (by simp)]
        simp [keepAt,covers_succ,covers_zero,hlen]
      | some n =>
        have hn := M.bounds hlen
        simp only [eraseFrom,hlen]
        rw [ih (n-1) fun j hj => M.apart hlen (j+1) (by omega) (by omega)]
        simp only [keepAt,covers_succ,covers_zero,hlen]
        simp only [Option.isSome_some,not_true,and_false,decide_false,Bool.false_eq_true,if_false,
          Option.mem_some_iff,exists_eq_left',not_or,Nat.zero_le,true_and,Nat.not_lt]
        congr 1
        funext k
        congr 1
        have hle : n-1 ≤ k ↔ n ≤ k+1 := by omega
        rw [hle]

theorem erase_eq_keepAt (l : List α) : M.erase l = keepAt (fun k => !decide (M.Covers l k)) l := by
  rw [erase,eraseFrom_eq_keepAt 0 l (by simp)]
  simp

theorem erase_sublist (l : List α) : (M.erase l).Sublist l := by
  rw [erase_eq_keepAt]
  exact keepAt_sublist _ l

/-! The search does not go over an element that stops it. -/

theorem StopsAt.eraseFrom (h : M.StopsAt a) (m : List α) {skip : Nat} (hskip : skip ≤ l.length) :
    M.eraseFrom skip (l ++ a :: m) = M.eraseFrom skip l ++ a :: M.erase m := by
  induction l generalizing skip with
  | nil =>
    obtain rfl : skip = 0 := by simpa using hskip
    have hnone : M.len (a :: m) = none := by simpa using h [] m
    exact erase_cons hnone
  | cons b l ih =>
    cases skip with
    | succ skip => exact ih (by simpa using hskip)
    | zero =>
      have hlen : M.len (b :: (l ++ a :: m)) = M.len (b :: l) := h (b :: l) m
      simp only [List.cons_append,Matcher.eraseFrom,hlen]
      cases hb : M.len (b :: l) with
      | none => simp only [ih (Nat.zero_le _),List.cons_append]
      | some n =>
        have hn := (M.bounds hb).2
        exact ih (by simp at hn; omega)

theorem StopsAt.erase (h : M.StopsAt a) (l m : List α) :
    M.erase (l ++ a :: m) = M.erase l ++ a :: M.erase m := h.eraseFrom m (Nat.zero_le _)

end Matcher

end Pyre.Base
