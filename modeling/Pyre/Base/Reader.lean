import Mathlib.Data.Nat.Basic
import Mathlib.Data.Vector.Basic

/-!
Readers that ask for a number of symbols at a time, as `read_exact` does, and go on with them.
What a reader makes of its input is the same however the input is cut, and a reader that is
done has left the rest of it alone.
-/

set_option autoImplicit false

namespace Pyre.Base

inductive Reader (α β : Type) where
  | done (b : β)
  | readExact (n : Nat) (next : List.Vector α n → Reader α β)

namespace Reader

variable {α β γ : Type}

/-- How far the reader gets with this much of the input, and what it has not taken of it. -/
def run : Reader α β → List α → Reader α β × List α
  | .done b, l => (.done b,l)
  | .readExact n next, l =>
    if h : n ≤ l.length then run (next ⟨l.take n,by simp [h]⟩) (l.drop n)
    else (.readExact n next,l)

def bind : Reader α β → (β → Reader α γ) → Reader α γ
  | .done b, f => f b
  | .readExact n next, f => .readExact n fun v => bind (next v) f

@[simp] theorem run_done (b : β) (l : List α) : (done b).run l = (.done b,l) := rfl

theorem run_readExact {n : Nat} (v : List.Vector α n) (next : List.Vector α n → Reader α β)
    (l : List α) :
    (readExact n next).run (v.toList ++ l) = (next v).run l := by
  have hlen : v.toList.length = n := v.toList_length
  have hle : n ≤ (v.toList ++ l).length := by simp
  rw [run,dif_pos hle]
  congr 1
  · congr 1
    exact Subtype.ext (List.take_left' hlen)
  · exact List.drop_left' hlen

theorem run_short {n : Nat} {l : List α} (h : l.length < n)
    (next : List.Vector α n → Reader α β) :
    (readExact n next).run l = (.readExact n next,l) := by
  rw [run,dif_neg (Nat.not_le_of_lt h)]

/-- Either there are symbols enough for the next call or the reader waits. -/
theorem long_or_short (n : Nat) (l : List α) :
    (∃ (v : List.Vector α n) (m : List α), l = v.toList ++ m) ∨ l.length < n := by
  by_cases h : n ≤ l.length
  · exact .inl ⟨⟨l.take n,by simp [h]⟩,l.drop n,(List.take_append_drop n l).symm⟩
  · exact .inr (Nat.lt_of_not_le h)

theorem run_append (r : Reader α β) (l m : List α) :
    r.run (l ++ m) = (r.run l).1.run ((r.run l).2 ++ m) := by
  induction r generalizing l with
  | done b => rfl
  | readExact n next ih =>
    obtain ⟨v,l',rfl⟩ | hshort := long_or_short n l
    · rw [List.append_assoc,run_readExact,run_readExact,ih]
    · rw [run_short hshort]

/-- A connection whose input arrives in pieces: the reader goes on at each, with what it had not
taken before. -/
def push (at_ : Reader α β × List α) (piece : List α) : Reader α β × List α :=
  at_.1.run (at_.2 ++ piece)

theorem foldl_push (r : Reader α β) (l : List α) (pieces : List (List α)) :
    pieces.foldl push (r.run l) = r.run (l ++ pieces.flatten) := by
  induction pieces generalizing l with
  | nil => rw [List.flatten_nil,List.append_nil,List.foldl_nil]
  | cons piece pieces ih =>
    rw [List.foldl_cons,push,← run_append,ih,List.flatten_cons,List.append_assoc]

/-- However the input is cut, the reader gets as far as with the whole of it. -/
theorem run_pieces (r : Reader α β) (pieces : List (List α)) :
    pieces.foldl push (r.run []) = r.run pieces.flatten := by
  rw [foldl_push,List.nil_append]

/-- The reader makes `b` of exactly these symbols. -/
inductive Reads : Reader α β → List α → β → Prop where
  | done (b : β) : Reads (.done b) [] b
  | readExact {n : Nat} {next : List.Vector α n → Reader α β} {l : List α} {b : β}
      (v : List.Vector α n) (h : Reads (next v) l b) : Reads (.readExact n next) (v.toList ++ l) b

theorem Reads.run {r : Reader α β} {l : List α} {b : β} (h : r.Reads l b) (rest : List α) :
    r.run (l ++ rest) = (.done b,rest) := by
  induction h with
  | done b => rfl
  | readExact v h ih => rw [List.append_assoc,run_readExact,ih]

theorem run_eq_done_iff {r : Reader α β} {l rest : List α} {b : β} :
    r.run l = (.done b,rest) ↔ ∃ head, r.Reads head b ∧ l = head ++ rest := by
  constructor
  · intro h
    induction r generalizing l with
    | done b' =>
      obtain ⟨hb,rfl⟩ := Prod.mk.inj h
      obtain rfl := Reader.done.inj hb
      exact ⟨[],.done b',rfl⟩
    | readExact n next ih =>
      obtain ⟨v,l',rfl⟩ | hshort := long_or_short n l
      · rw [run_readExact] at h
        obtain ⟨head,hreads,rfl⟩ := ih v h
        exact ⟨v.toList ++ head,.readExact v hreads,(List.append_assoc _ _ _).symm⟩
      · rw [run_short hshort] at h
        cases (Prod.mk.inj h).1
  · rintro ⟨head,hreads,rfl⟩
    exact hreads.run rest

theorem run_pieces_eq_done_iff {r : Reader α β} {pieces : List (List α)} {rest : List α} {b : β} :
    pieces.foldl push (r.run []) = (.done b,rest) ↔
      ∃ head, r.Reads head b ∧ pieces.flatten = head ++ rest := by
  rw [run_pieces,run_eq_done_iff]

/-- A reader that is not done waits. -/
theorem waits_iff (at_ : Reader α β × List α) :
    (∃ n next rest, at_ = (.readExact n next,rest)) ↔ ¬∃ b rest, at_ = (.done b,rest) := by
  obtain ⟨b | ⟨n,next⟩,rest⟩ := at_ <;> simp

theorem reads_done_iff {l : List α} {b b' : β} : (done b).Reads l b' ↔ l = [] ∧ b = b' := by
  constructor
  · intro h
    cases h
    exact ⟨rfl,rfl⟩
  · rintro ⟨rfl,rfl⟩
    exact .done b

theorem reads_readExact_iff {n : Nat} {next : List.Vector α n → Reader α β} {l : List α} {b : β} :
    (readExact n next).Reads l b ↔ ∃ v m, (next v).Reads m b ∧ l = v.toList ++ m := by
  constructor
  · intro h
    cases h with
    | readExact v h => exact ⟨v,_,h,rfl⟩
  · rintro ⟨v,m,h,rfl⟩
    exact .readExact v h

theorem reads_bind_iff {r : Reader α β} {f : β → Reader α γ} {l : List α} {c : γ} :
    (r.bind f).Reads l c ↔ ∃ b l₁ l₂, r.Reads l₁ b ∧ (f b).Reads l₂ c ∧ l = l₁ ++ l₂ := by
  constructor
  · intro h
    induction r generalizing l with
    | done b => exact ⟨b,[],l,.done b,h,rfl⟩
    | readExact n next ih =>
      obtain ⟨v,m,hm,rfl⟩ := reads_readExact_iff.mp h
      obtain ⟨b,l₁,l₂,h₁,h₂,rfl⟩ := ih v hm
      exact ⟨b,v.toList ++ l₁,l₂,.readExact v h₁,h₂,(List.append_assoc _ _ _).symm⟩
  · rintro ⟨b,l₁,l₂,h₁,h₂,rfl⟩
    induction h₁ with
    | done b => exact h₂
    | readExact v h ih =>
      rw [List.append_assoc]
      exact .readExact v (ih h₂)

end Reader

/-- The number whose base-256 digits these are, the lowest first. -/
def fromLeBytes : List UInt8 → Nat
  | [] => 0
  | b :: bs => b.toNat + 256 * fromLeBytes bs

def toLeBytes : Nat → Nat → List UInt8
  | 0, _ => []
  | width + 1, n => UInt8.ofNat n :: toLeBytes width (n / 256)

@[simp] theorem length_toLeBytes (width n : Nat) : (toLeBytes width n).length = width := by
  induction width generalizing n with
  | zero => rfl
  | succ width ih => simp [toLeBytes,ih]

theorem fromLeBytes_toLeBytes (width n : Nat) :
    fromLeBytes (toLeBytes width n) = n % 256 ^ width := by
  induction width generalizing n with
  | zero => simp [toLeBytes,fromLeBytes,Nat.mod_one]
  | succ width ih =>
    have hlow : (UInt8.ofNat n).toNat = n % 256 := UInt8.toNat_ofNat'
    rw [toLeBytes,fromLeBytes,ih,hlow,Nat.pow_succ',Nat.mod_mul]

theorem toLeBytes_fromLeBytes (bs : List UInt8) : toLeBytes bs.length (fromLeBytes bs) = bs := by
  induction bs with
  | nil => rfl
  | cons b bs ih =>
    have hlow : UInt8.ofNat (b.toNat + 256 * fromLeBytes bs) = b := by
      apply UInt8.toNat_inj.mp
      have hb := b.toNat_lt
      simp
    have hrest : (b.toNat + 256 * fromLeBytes bs) / 256 = fromLeBytes bs := by
      have hb := b.toNat_lt
      omega
    rw [List.length_cons,fromLeBytes,toLeBytes,hlow,hrest,ih]

theorem fromLeBytes_lt (bs : List UInt8) : fromLeBytes bs < 256 ^ bs.length := by
  induction bs with
  | nil => simp [fromLeBytes]
  | cons b bs ih =>
    have hb := b.toNat_lt
    rw [fromLeBytes,List.length_cons,Nat.pow_succ]
    omega

/-- So bytes of one length are told apart by their number. -/
theorem fromLeBytes_eq_iff {bs : List UInt8} {n : Nat} (h : n < 256 ^ bs.length) :
    fromLeBytes bs = n ↔ bs = toLeBytes bs.length n := by
  constructor
  · rintro rfl
    exact (toLeBytes_fromLeBytes bs).symm
  · intro hbs
    rw [hbs,fromLeBytes_toLeBytes,Nat.mod_eq_of_lt h]

end Pyre.Base
