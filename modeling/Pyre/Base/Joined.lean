import Pyre.Base.Find

/-!
Texts joined with a separator between them, and the fields they are read back into.
-/

set_option autoImplicit false

namespace Pyre.Base

variable {sep c : Char} {a b a' b' : List Char} {xs ys : List (List Char)} {m n : Nat}

/-- `join(sep)` -/
def join (sep : Char) (fields : List (List Char)) : List Char := [sep].intercalate fields

/-- A number as `to_string` prints it. -/
def decimal (n : Nat) : List Char := Nat.toDigits 10 n

theorem decimal_injective : Function.Injective decimal := by
  intro m n h
  have hdigits := congrArg digits h
  rw [decimal,decimal,digits_toDigits,digits_toDigits] at hdigits
  exact Option.some.inj hdigits

theorem notMem_decimal (h : c.isDigit = false) : c ∉ decimal n := by
  intro hc
  rw [Nat.isDigit_of_mem_toDigits (by decide) (by decide) hc] at h
  cases h

/-- Joined fields that the separator is not in can be told apart. -/
theorem join_inj (hxs : ∀ x ∈ xs, sep ∉ x) (hys : ∀ y ∈ ys, sep ∉ y) (hx : xs ≠ [])
    (hy : ys ≠ []) : join sep xs = join sep ys ↔ xs = ys := by
  refine ⟨fun h => ?_,congrArg (join sep)⟩
  rw [← List.splitOn_intercalate sep hxs hx,← List.splitOn_intercalate sep hys hy]
  exact congrArg (List.splitOn sep) h

theorem join_cons_cons (a b : List Char) (xs : List (List Char)) :
    join sep (a :: b :: xs) = a ++ sep :: join sep (b :: xs) := by
  simp [join,List.intercalate]

theorem mem_join (h : c ∈ join sep xs) : c = sep ∨ ∃ x ∈ xs, c ∈ x := by
  induction xs with
  | nil => simp [join] at h
  | cons a xs ih =>
    cases xs with
    | nil => exact .inr ⟨a,List.mem_cons_self,by simpa [join] using h⟩
    | cons b xs =>
      rw [join_cons_cons,List.mem_append,List.mem_cons] at h
      obtain ha | rfl | hrest := h
      · exact .inr ⟨a,List.mem_cons_self,ha⟩
      · exact .inl rfl
      · obtain rfl | ⟨x,hx,hc⟩ := ih hrest
        · exact .inl rfl
        · exact .inr ⟨x,List.mem_cons_of_mem a hx,hc⟩

theorem join_eq_nil (h : [] ∉ xs) : join sep xs = [] ↔ xs = [] := by
  refine ⟨fun heq => ?_,fun heq => by rw [heq]; rfl⟩
  match xs, h, heq with
  | [], _, _ => rfl
  | [a], h, heq =>
    obtain rfl : a = [] := by simpa [join] using heq
    exact absurd List.mem_cons_self h
  | a :: b :: xs, _, heq =>
    rw [join_cons_cons,List.append_eq_nil_iff] at heq
    cases heq.2

/-- Lists of fields of which none is empty can be told apart even where one has no fields. -/
theorem join_inj_of_ne_nil (hxs : ∀ x ∈ xs, sep ∉ x) (hys : ∀ y ∈ ys, sep ∉ y) (hx : [] ∉ xs)
    (hy : [] ∉ ys) : join sep xs = join sep ys ↔ xs = ys := by
  refine ⟨fun h => ?_,congrArg (join sep)⟩
  rcases eq_or_ne xs [] with rfl | hx'
  · exact ((join_eq_nil hy).mp h.symm).symm
  · have hy' : ys ≠ [] := fun heq => hx' ((join_eq_nil hx).mp (by rw [h,heq]; rfl))
    exact (join_inj hxs hys hx' hy').mp h

/-- A text is cut where it first has the separator. -/
theorem cut_first (ha : sep ∉ a) (ha' : sep ∉ a') (h : a ++ sep :: b = a' ++ sep :: b') :
    a = a' ∧ b = b' := by
  induction a generalizing a' with
  | nil =>
    cases a' with
    | nil => exact ⟨rfl,(List.cons.inj h).2⟩
    | cons c a' => exact absurd ((List.cons.inj h).1 ▸ List.mem_cons_self) ha'
  | cons c a ih =>
    cases a' with
    | nil => exact absurd ((List.cons.inj h).1 ▸ List.mem_cons_self) ha
    | cons d a' =>
      obtain ⟨rfl,htail⟩ := List.cons.inj h
      obtain ⟨rfl,hb⟩ := ih (List.not_mem_of_not_mem_cons ha) (List.not_mem_of_not_mem_cons ha')
        htail
      exact ⟨rfl,hb⟩

/-- A text is cut where it last has the separator. -/
theorem cut_last (hb : sep ∉ b) (hb' : sep ∉ b') (h : a ++ sep :: b = a' ++ sep :: b') :
    a = a' ∧ b = b' := by
  have hrev := congrArg List.reverse h
  simp only [List.reverse_append,List.reverse_cons,List.append_assoc,List.singleton_append] at hrev
  obtain ⟨hbs,has⟩ := cut_first (by simpa using hb) (by simpa using hb') hrev
  exact ⟨List.reverse_injective has,List.reverse_injective hbs⟩

/-- Lists that agree under one function agree under another that it determines. -/
theorem map_eq_of_map_eq {α β γ : Type*} {f : α → β} {g : α → γ} {as as' : List α}
    (h : ∀ a ∈ as, ∀ a' ∈ as', f a = f a' → g a = g a') (heq : as.map f = as'.map f) :
    as.map g = as'.map g := by
  induction as generalizing as' with
  | nil => rw [List.map_eq_nil_iff.mp heq.symm]
  | cons a as ih =>
    cases as' with
    | nil => cases heq
    | cons a' as' =>
      obtain ⟨hhead,htail⟩ := List.cons.inj heq
      rw [List.map_cons,List.map_cons,h a List.mem_cons_self a' List.mem_cons_self hhead,
        ih (fun b hb b' hb' => h b (List.mem_cons_of_mem _ hb) b' (List.mem_cons_of_mem _ hb')) htail]

end Pyre.Base
