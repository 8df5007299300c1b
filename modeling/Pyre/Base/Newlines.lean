import Pyre.Base.Replay
import Pyre.Base.Text

/-!
Texts line by line. A function that keeps the separator where it is acts on each line by itself,
and the last lines of a text do not depend on what stands in front of them. Lossy decoding of
UTF-8 is such a function: no scalar and no broken beginning of one goes over an ASCII byte.
-/

set_option autoImplicit false

namespace Pyre.Base

section Pieces

variable {α β : Type*} [DecidableEq α] [DecidableEq β] {a x : α} {b : β} {l m : List α} {n : Nat}

theorem splitOn_cons_self (a : α) (l : List α) : (a :: l).splitOn a = [] :: l.splitOn a := by
  rw [List.splitOn_cons_eq_if_modifyHead,if_pos (beq_self_eq_true a)]

theorem splitOn_cons_ne (h : x ≠ a) (l : List α) :
    (x :: l).splitOn a = (l.splitOn a).modifyHead (x :: ·) := by
  rw [List.splitOn_cons_eq_if_modifyHead,if_neg (by simpa using h)]

theorem length_splitOn (a : α) (l : List α) : (l.splitOn a).length = l.count a + 1 := by
  induction l with
  | nil => simp
  | cons x l ih =>
    by_cases h : x = a
    · subst h
      simp [splitOn_cons_self,ih]
    · rw [splitOn_cons_ne h,List.length_modifyHead,ih,List.count_cons_of_ne h]

omit [DecidableEq α] [DecidableEq β] in
theorem rtake_map (f : α → β) (l : List α) (n : Nat) : (l.map f).rtake n = (l.rtake n).map f := by
  rw [List.rtake,List.rtake,List.length_map,List.map_drop]

omit [DecidableEq α] in
theorem rtake_cons (x : α) (h : n ≤ l.length) : (x :: l).rtake n = l.rtake n := by
  simp only [List.rtake,List.length_cons]
  rw [Nat.succ_sub h,List.drop_succ_cons]

omit [DecidableEq α] in
theorem rtake_modifyHead (f : α → α) (h : n < l.length) : (l.modifyHead f).rtake n = l.rtake n := by
  cases l with
  | nil => simp at h
  | cons x l =>
    have hn : n ≤ l.length := by simpa [Nat.lt_succ_iff] using h
    rw [List.modifyHead_cons,rtake_cons _ hn,rtake_cons _ hn]

/-- The last lines are those of the end of the text, if they begin in it. -/
theorem rtake_splitOn_append (l : List α) (h : n ≤ m.count a) :
    ((l ++ m).splitOn a).rtake n = (m.splitOn a).rtake n := by
  induction l with
  | nil => rfl
  | cons x l ih =>
    have hlen : n < ((l ++ m).splitOn a).length := by
      rw [length_splitOn,List.count_append]
      omega
    rw [List.cons_append,← ih]
    by_cases hx : x = a
    · subst hx
      rw [splitOn_cons_self,rtake_cons _ (by omega)]
    · rw [splitOn_cons_ne hx,rtake_modifyHead _ hlen]

/-- The image of a text, line by line. -/
theorem splitOn_map {f : List α → List β} (hcut : ∀ l m, f (l ++ a :: m) = f l ++ b :: f m)
    (hline : ∀ l, a ∉ l → b ∉ f l) (l : List α) :
    (f l).splitOn b = (l.splitOn a).map f := by
  obtain ⟨k,hk⟩ : ∃ k, l.length = k := ⟨_,rfl⟩
  induction k using Nat.strong_induction_on generalizing l with
  | _ k ih =>
    by_cases h : a ∈ l
    · obtain ⟨p,q,rfl,hp⟩ := List.eq_append_cons_of_mem h
      have hq := ih q.length (by simp at hk; omega) q rfl
      rw [hcut,List.splitOn_append_cons_self_of_not_mem hp,
        List.splitOn_append_cons_self_of_not_mem (hline p hp),hq,List.map_cons]
    · rw [List.splitOn_eq_singleton h,List.splitOn_eq_singleton (hline l h),List.map_singleton]

end Pieces

section Lossy

variable {c : Char} {b : UInt8} {bs cs : List UInt8} {n : Nat}

theorem utf8EncodeChar_tail (c : Char) : ∃ b bs, String.utf8EncodeChar c = b :: bs ∧
    ∀ d ∈ bs, 0x80 ≤ d := by
  have hlow : ∀ n : Nat, 0x80 ≤ UInt8.ofNat (n % 64 + 128) := by
    intro n
    rw [UInt8.le_iff_toNat_le,UInt8.toNat_ofNat']
    have h : (0x80 : UInt8).toNat = 128 := rfl
    omega
  simp only [String.utf8EncodeChar]
  split_ifs
  · exact ⟨_,[],rfl,List.forall_mem_nil _⟩
  · exact ⟨_,_,rfl,List.forall_mem_singleton.mpr (hlow _)⟩
  · exact ⟨_,_,rfl,List.forall_mem_cons.mpr ⟨hlow _,List.forall_mem_singleton.mpr (hlow _)⟩⟩
  · exact ⟨_,_,rfl,List.forall_mem_cons.mpr ⟨hlow _,List.forall_mem_cons.mpr
      ⟨hlow _,List.forall_mem_singleton.mpr (hlow _)⟩⟩⟩

theorem nextScalar_eq_some : nextScalar bs = some c ↔ String.utf8EncodeChar c <+: bs := by
  constructor
  · intro h
    exact ⟨_,append_of_nextScalar h⟩
  · rintro ⟨cs,rfl⟩
    exact nextScalar_encode c cs

/-- A scalar does not go on over an ASCII byte. -/
theorem nextScalar_append (hb : b < 0x80) (hne : bs ≠ []) (cs : List UInt8) :
    nextScalar (bs ++ b :: cs) = nextScalar bs := by
  refine Option.ext fun c => ?_
  rw [nextScalar_eq_some,nextScalar_eq_some]
  constructor
  · rintro ⟨rest,hrest⟩
    obtain ⟨t,rfl,-⟩ | ⟨t,henc,ht⟩ := List.append_eq_append_iff.mp hrest
    · exact List.prefix_append _ _
    · cases t with
      | nil => exact ⟨[],by simp [henc]⟩
      | cons d t =>
        -- the byte would be one of the sequence, and not its first
        obtain ⟨x,bs,rfl⟩ := List.exists_cons_of_ne_nil hne
        obtain ⟨y,tail,hy,htail⟩ := utf8EncodeChar_tail c
        rw [hy,List.cons_append,List.cons.injEq] at henc
        obtain rfl := (List.cons.inj ht).1
        have hhigh := htail b (henc.2 ▸ List.mem_append_right bs List.mem_cons_self)
        exact absurd hhigh (UInt8.not_le.mpr hb)
  · intro h
    exact h.trans (List.prefix_append _ _)

theorem secondOk_ascii (hb : b < 0x80) (x : UInt8) : secondOk x b = false := by
  have hnot : ∀ low : UInt8, 0x80 ≤ low → decide (low ≤ b) = false := fun low hlow =>
    decide_eq_false (UInt8.not_le.mpr (UInt8.lt_of_lt_of_le hb hlow))
  simp [secondOk,hnot 0xA0 (by decide),hnot 0x80 (by decide),hnot 0x90 (by decide)]

/-- The beginning of a sequence is broken off at an ASCII byte as at the end. -/
theorem invalidPart_append (hb : b < 0x80) (hne : bs ≠ []) (cs : List UInt8) :
    invalidPart (bs ++ b :: cs) = invalidPart bs := by
  have hlow : decide (0x80 ≤ b) = false := decide_eq_false (UInt8.not_le.mpr hb)
  match bs, hne with
  | [x], _ => simp [invalidPart,secondOk_ascii hb]
  | [x,y], _ => simp [invalidPart,hlow]
  | x :: y :: z :: bs, _ => simp [invalidPart]

theorem invalidPart_le (hne : bs ≠ []) : 0 < invalidPart bs ∧ invalidPart bs ≤ bs.length := by
  match bs, hne with
  | [x], _ => simp [invalidPart]
  | [x,y], _ =>
    simp only [invalidPart]
    split <;> simp
  | x :: y :: z :: bs, _ =>
    simp only [invalidPart,List.length_cons]
    split_ifs <;> omega

theorem decodeFuel_enough {m n : Nat} (hm : bs.length ≤ m) (hn : bs.length ≤ n) :
    decodeFuel m bs = decodeFuel n bs := by
  induction m generalizing n bs with
  | zero =>
    obtain rfl : bs = [] := by simpa using hm
    cases n <;> rfl
  | succ m ih =>
    cases bs with
    | nil => cases n <;> rfl
    | cons b bs =>
      obtain ⟨n,rfl⟩ : ∃ k, n = k+1 := ⟨n-1,by simp at hn; omega⟩
      have hpart := (invalidPart_le (List.cons_ne_nil b bs)).1
      simp only [List.length_cons] at hm hn
      simp only [decodeFuel]
      split
      · rename_i c _
        have hpos := c.utf8Size_pos
        rw [ih] <;> simp only [List.length_drop,List.length_cons] <;> omega
      · rw [ih] <;> simp only [List.length_drop,List.length_cons] <;> omega

theorem decode_of_nextScalar (h : nextScalar bs = some c) :
    decode bs = some c :: decode (bs.drop c.utf8Size) := by
  have hpos := c.utf8Size_pos
  cases bs with
  | nil =>
    obtain ⟨x,tail,hx,-⟩ := utf8EncodeChar_tail c
    rw [nextScalar_eq_some,hx] at h
    simp at h
  | cons b bs =>
    rw [decode,List.length_cons,decodeFuel_succ (List.cons_ne_nil b bs) h,decode,
      decodeFuel_enough _ (Nat.le_refl _)]
    simp only [List.length_drop,List.length_cons]
    omega

theorem decode_of_invalid (hne : bs ≠ []) (h : nextScalar bs = none) :
    decode bs = none :: decode (bs.drop (invalidPart bs)) := by
  have hpart := (invalidPart_le hne).1
  cases bs with
  | nil => exact absurd rfl hne
  | cons b bs =>
    rw [decode,List.length_cons,decodeFuel,h]
    simp only
    rw [decode,decodeFuel_enough _ (Nat.le_refl _)]
    simp only [List.length_drop,List.length_cons]
    omega

/-- Decoding starts anew at every ASCII character. -/
theorem decode_append_ascii (hc : c.toNat < 0x80) (bs cs : List UInt8) :
    decode (bs ++ UInt8.ofNat c.toNat :: cs) = decode bs ++ some c :: decode cs := by
  have hb : UInt8.ofNat c.toNat < 0x80 := by
    rw [UInt8.lt_iff_toNat_lt,UInt8.toNat_ofNat']
    have h : (0x80 : UInt8).toNat = 128 := rfl
    omega
  have henc := utf8EncodeChar_of_ascii hc
  obtain ⟨k,hk⟩ : ∃ k, bs.length = k := ⟨_,rfl⟩
  induction k using Nat.strong_induction_on generalizing bs with
  | _ k ih =>
    rcases eq_or_ne bs [] with rfl | hne
    · have hsize : c.utf8Size = 1 := by rw [← String.length_utf8EncodeChar,henc]; rfl
      have hscalar : nextScalar (UInt8.ofNat c.toNat :: cs) = some c :=
        nextScalar_eq_some.mpr (by rw [henc]; exact ⟨cs,rfl⟩)
      rw [List.nil_append,decode_of_nextScalar hscalar,hsize]
      rfl
    · have hlen := List.length_pos_iff.mpr hne
      cases hscalar : nextScalar bs with
      | some d =>
        have hpos := d.utf8Size_pos
        have hle : d.utf8Size ≤ bs.length := by
          rw [← String.length_utf8EncodeChar]
          exact (nextScalar_eq_some.mp hscalar).length_le
        rw [decode_of_nextScalar hscalar,
          decode_of_nextScalar ((nextScalar_append hb hne cs).trans hscalar),
          List.drop_append_of_le_length hle,ih _ (by simp; omega) _ rfl,List.cons_append]
      | none =>
        have hpart := invalidPart_le hne
        have hinvalid := invalidPart_append hb hne cs
        rw [decode_of_invalid hne hscalar,
          decode_of_invalid (by simp) ((nextScalar_append hb hne cs).trans hscalar),hinvalid,
          List.drop_append_of_le_length hpart.2,ih _ (by simp; omega) _ rfl,List.cons_append]

theorem fromUtf8Lossy_append_ascii (hc : c.toNat < 0x80) (bs cs : List UInt8) :
    fromUtf8Lossy (bs ++ UInt8.ofNat c.toNat :: cs) =
      fromUtf8Lossy bs ++ c :: fromUtf8Lossy cs := by
  simp [fromUtf8Lossy,decode_append_ascii hc]

/-- What is decoded was there, or is the replacement of what could not be decoded. -/
theorem mem_fromUtf8Lossy (h : c ∈ fromUtf8Lossy bs) (hc : c ≠ '\uFFFD') :
    ∃ pre post, bs = pre ++ String.utf8EncodeChar c ++ post := by
  obtain ⟨k,hk⟩ : ∃ k, bs.length = k := ⟨_,rfl⟩
  induction k using Nat.strong_induction_on generalizing bs with
  | _ k ih =>
    rcases eq_or_ne bs [] with rfl | hne
    · simp [fromUtf8Lossy,decode,decodeFuel] at h
    · have hlen := List.length_pos_iff.mpr hne
      -- what is found behind the first scalar or replacement
      have hrest : ∀ n, 0 < n → c ∈ fromUtf8Lossy (bs.drop n) →
          ∃ pre post, bs = pre ++ String.utf8EncodeChar c ++ post := by
        intro n hn hmem
        obtain ⟨pre,post,hpre⟩ := ih (bs.drop n).length (by simp; omega) hmem rfl
        exact ⟨bs.take n ++ pre,post,by
          rw [List.append_assoc,List.append_assoc,← List.append_assoc pre,← hpre,
            List.take_append_drop]⟩
      cases hscalar : nextScalar bs with
      | some d =>
        rw [fromUtf8Lossy,decode_of_nextScalar hscalar,List.map_cons,List.mem_cons] at h
        obtain rfl | h := h
        · exact ⟨[],_,(append_of_nextScalar hscalar).symm⟩
        · exact hrest _ d.utf8Size_pos h
      | none =>
        rw [fromUtf8Lossy,decode_of_invalid hne hscalar,List.map_cons,List.mem_cons] at h
        obtain rfl | h := h
        · exact absurd rfl hc
        · exact hrest _ (invalidPart_le hne).1 h

/-- The lines of a text are the texts of the lines. -/
theorem splitOn_fromUtf8Lossy (bs : List UInt8) :
    (fromUtf8Lossy bs).splitOn '\n' = (bs.splitOn 0x0A).map fromUtf8Lossy := by
  refine splitOn_map (fun l m => fromUtf8Lossy_append_ascii (by decide) l m) (fun l hl hc => ?_) bs
  obtain ⟨pre,post,rfl⟩ := mem_fromUtf8Lossy hc (by decide)
  exact hl (List.mem_append_left _ (List.mem_append_right _ (by decide)))

end Lossy

end Pyre.Base
