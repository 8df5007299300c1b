import Mathlib.Data.List.DropRight

/-!
The text functions of the Rust standard library that the daemon uses, on byte
lists and character lists: UTF-8 decoding strict and lossy, trimming of white
space, and the parsing of an `i32`.
-/

set_option autoImplicit false

namespace Pyre.Base

def encode (t : List Char) : List UInt8 := t.flatMap String.utf8EncodeChar

def nextScalar (bs : List UInt8) : Option Char := bs.toByteArray.utf8DecodeChar? 0

/-- Whether the lead byte of a three or four byte sequence may be followed by `b`. -/
def secondOk (a b : UInt8) : Bool :=
  if a = 0xE0 then 0xA0 ≤ b && b ≤ 0xBF
  else if a = 0xED then 0x80 ≤ b && b ≤ 0x9F
  else if a = 0xF0 then 0x90 ≤ b && b ≤ 0xBF
  else if a = 0xF4 then 0x80 ≤ b && b ≤ 0x8F
  else 0xE1 ≤ a && a ≤ 0xF3 && 0x80 ≤ b && b ≤ 0xBF

/-- Where no scalar starts: the length of the part one replacement character
stands for, the longest beginning of a sequence that is broken off. -/
def invalidPart : List UInt8 → Nat
  | a :: b :: rest =>
    if secondOk a b then
      match rest with
      | c :: _ => if 0xF0 ≤ a && 0x80 ≤ c && c ≤ 0xBF then 3 else 2
      | [] => 2
    else 1
  | _ => 1

/-- The scalars of the bytes in order, `none` for each part that is not UTF-8. -/
def decodeFuel : Nat → List UInt8 → List (Option Char)
  | 0, _ => []
  | _+1, [] => []
  | n+1, b :: bs =>
    match nextScalar (b :: bs) with
    | some c => some c :: decodeFuel n ((b :: bs).drop c.utf8Size)
    | none => none :: decodeFuel n ((b :: bs).drop (invalidPart (b :: bs)))

def decode (bs : List UInt8) : List (Option Char) := decodeFuel bs.length bs

/-- `String::from_utf8_lossy` -/
def fromUtf8Lossy (bs : List UInt8) : List Char :=
  (decode bs).map fun c => c.getD '\uFFFD'

/-- `str::from_utf8` -/
def fromUtf8 (bs : List UInt8) : Option (List Char) := (decode bs).mapM id

/-- The Unicode property White_Space. -/
def isWhitespace (c : Char) : Bool :=
  let n := c.toNat
  (0x09 ≤ n && n ≤ 0x0D) || n = 0x20 || n = 0x85 || n = 0xA0 || n = 0x1680 ||
    (0x2000 ≤ n && n ≤ 0x200A) || n = 0x2028 || n = 0x2029 || n = 0x202F || n = 0x205F ||
    n = 0x3000

def trimEnd (t : List Char) : List Char := t.rdropWhile isWhitespace

def trim (t : List Char) : List Char := (trimEnd t).dropWhile isWhitespace

def digits : List Char → Option Nat
  | [] => none
  | ds => ds.foldlM (fun n c => if c.isDigit then some (10*n + (c.toNat - 48)) else none) 0

/-- `str::parse::<i32>` -/
def parseI32 (t : List Char) : Option Int := do
  let n ← match t with
    | '-' :: ds => (digits ds).map fun n => -(n : Int)
    | '+' :: ds => (digits ds).map Int.ofNat
    | ds => (digits ds).map Int.ofNat
  if -2147483648 ≤ n ∧ n ≤ 2147483647 then some n else none

@[simp] theorem encode_nil : encode [] = [] := rfl

@[simp] theorem encode_cons (c : Char) (t : List Char) :
    encode (c :: t) = String.utf8EncodeChar c ++ encode t := rfl

@[simp] theorem encode_append (s t : List Char) : encode (s ++ t) = encode s ++ encode t := by
  simp [encode]

theorem ofNat_ne_zero {n : Nat} (h0 : 0 < n) (h : n < 256) : (0 : UInt8) ≠ UInt8.ofNat n := by
  intro he
  have ht := congrArg UInt8.toNat he
  simp at ht
  omega

theorem zero_notMem_utf8EncodeChar {c : Char} (h : c ≠ '\x00') : 0 ∉ String.utf8EncodeChar c := by
  have hv : 0 < c.val.toNat := by
    apply Nat.pos_of_ne_zero
    intro h0
    exact h (Char.ext (UInt32.toNat.inj h0))
  simp only [String.utf8EncodeChar]
  split_ifs with h1 h2 h3
  · simpa using ofNat_ne_zero hv (by omega)
  · have ha := ofNat_ne_zero (n := c.val.toNat / 64 % 32 + 192) (by omega) (by omega)
    have hb := ofNat_ne_zero (n := c.val.toNat % 64 + 128) (by omega) (by omega)
    simp only [List.mem_cons,ha,hb,List.not_mem_nil,or_self,not_false_eq_true]
  · have ha := ofNat_ne_zero (n := c.val.toNat / 4096 % 16 + 224) (by omega) (by omega)
    have hb := ofNat_ne_zero (n := c.val.toNat / 64 % 64 + 128) (by omega) (by omega)
    have hc := ofNat_ne_zero (n := c.val.toNat % 64 + 128) (by omega) (by omega)
    simp only [List.mem_cons,ha,hb,hc,List.not_mem_nil,or_self,not_false_eq_true]
  · have ha := ofNat_ne_zero (n := c.val.toNat / 262144 % 8 + 240) (by omega) (by omega)
    have hb := ofNat_ne_zero (n := c.val.toNat / 4096 % 64 + 128) (by omega) (by omega)
    have hc := ofNat_ne_zero (n := c.val.toNat / 64 % 64 + 128) (by omega) (by omega)
    have hd := ofNat_ne_zero (n := c.val.toNat % 64 + 128) (by omega) (by omega)
    simp only [List.mem_cons,ha,hb,hc,hd,List.not_mem_nil,or_self,not_false_eq_true]

theorem utf8EncodeChar_of_ascii {c : Char} (h : c.toNat < 0x80) :
    String.utf8EncodeChar c = [UInt8.ofNat c.toNat] := by
  have h1 : c.val.toNat ≤ 0x7F := by
    have hc : c.toNat = c.val.toNat := rfl
    omega
  simp only [String.utf8EncodeChar,h1,if_true]
  rfl

theorem nextScalar_encode (c : Char) (bs : List UInt8) :
    nextScalar (String.utf8EncodeChar c ++ bs) = some c := by
  simp only [nextScalar,List.toByteArray_append]
  exact ByteArray.utf8DecodeChar?_utf8EncodeChar_append

theorem decodeFuel_succ {n : Nat} {bs : List UInt8} {c : Char} (hb : bs ≠ [])
    (h : nextScalar bs = some c) :
    decodeFuel (n+1) bs = some c :: decodeFuel n (bs.drop c.utf8Size) := by
  cases bs with
  | nil => exact absurd rfl hb
  | cons b bs => simp only [decodeFuel,h]

theorem decodeFuel_encode (t : List Char) (n : Nat) (hn : t.length ≤ n) :
    decodeFuel n (encode t) = t.map some := by
  induction t generalizing n with
  | nil => cases n <;> rfl
  | cons c t ih =>
    cases n with
    | zero => simp at hn
    | succ n =>
      have hlen := String.length_utf8EncodeChar c
      have hne : String.utf8EncodeChar c ++ encode t ≠ [] := by
        have hpos := c.utf8Size_pos
        intro h
        rw [List.append_eq_nil_iff] at h
        simp [h.1] at hlen
        omega
      rw [encode_cons,decodeFuel_succ hne (nextScalar_encode c _),← hlen,List.drop_left,
        ih n (by simpa using hn)]
      rfl

theorem length_le_encode (t : List Char) : t.length ≤ (encode t).length := by
  induction t with
  | nil => simp
  | cons c t ih =>
    have hc := c.utf8Size_pos
    simp [String.length_utf8EncodeChar]; omega

theorem decode_encode (t : List Char) : decode (encode t) = t.map some :=
  decodeFuel_encode t _ (length_le_encode t)

/-- What is decoded is what was encoded. -/
theorem append_of_nextScalar {bs : List UInt8} {c : Char} (h : nextScalar bs = some c) :
    String.utf8EncodeChar c ++ bs.drop c.utf8Size = bs := by
  have hbytes := String.toByteArray_utf8EncodeChar_of_utf8DecodeChar?_eq_some h
  have hdata := congrArg ByteArray.data hbytes
  have htake : String.utf8EncodeChar c = bs.take c.utf8Size := by
    simpa using congrArg Array.toList hdata
  rw [htake,List.take_append_drop]

theorem decodeFuel_length (n : Nat) (bs : List UInt8) : (decodeFuel n bs).length ≤ bs.length := by
  induction n generalizing bs with
  | zero => simp [decodeFuel]
  | succ n ih =>
    cases bs with
    | nil => simp [decodeFuel]
    | cons b bs =>
      simp only [decodeFuel]
      split
      · rename_i c _
        have hpos := c.utf8Size_pos
        have hrest := ih ((b :: bs).drop c.utf8Size)
        simp only [List.length_cons,List.length_drop] at hrest ⊢
        omega
      · have hpos : 0 < invalidPart (b :: bs) := by
          unfold invalidPart
          repeat' split
          all_goals omega
        have hrest := ih ((b :: bs).drop (invalidPart (b :: bs)))
        simp only [List.length_cons,List.length_drop] at hrest ⊢
        omega

theorem encode_of_decodeFuel {n : Nat} {bs : List UInt8} {t : List Char} (hn : bs.length ≤ n)
    (h : decodeFuel n bs = t.map some) : encode t = bs := by
  induction n generalizing bs t with
  | zero =>
    obtain rfl : bs = [] := by simpa using hn
    simp [decodeFuel] at h
    simp [h]
  | succ n ih =>
    cases bs with
    | nil =>
      simp [decodeFuel] at h
      simp [h]
    | cons b bs =>
      simp only [decodeFuel] at h
      split at h
      · rename_i c hc
        cases t with
        | nil => simp at h
        | cons d t =>
          rw [List.map_cons,List.cons.injEq,Option.some.injEq] at h
          obtain ⟨rfl,h⟩ := h
          have hpos := c.utf8Size_pos
          rw [encode_cons,ih (by simp at hn ⊢; omega) h,append_of_nextScalar hc]
      · cases t <;> simp at h

theorem fromUtf8_eq_some {bs : List UInt8} {t : List Char} :
    fromUtf8 bs = some t ↔ encode t = bs := by
  have hall : ∀ (l : List (Option Char)) (t : List Char), l.mapM id = some t ↔ l = t.map some := by
    intro l
    induction l with
    | nil =>
      intro t
      cases t <;> simp
    | cons c l ih =>
      intro t
      rw [List.mapM_cons]
      cases c with
      | none => cases t <;> simp
      | some c =>
        cases t with
        | nil => simp [Option.bind_eq_some_iff]
        | cons d t =>
          have hrest := ih t
          simp only [id,Option.bind_eq_bind,Option.bind_some,Option.bind_eq_some_iff,
            Option.pure_def,Option.some.injEq,List.cons.injEq,List.map_cons,← hrest]
          grind
  rw [fromUtf8,hall]
  constructor
  · exact encode_of_decodeFuel (Nat.le_refl _)
  · rintro rfl
    exact decode_encode t

@[simp] theorem fromUtf8Lossy_encode (t : List Char) : fromUtf8Lossy (encode t) = t := by
  simp [fromUtf8Lossy,decode_encode,Function.comp_def]

theorem trimEnd_eq_nil {t : List Char} : trimEnd t = [] ↔ ∀ c ∈ t, isWhitespace c = true :=
  List.rdropWhile_eq_nil_iff

theorem trimEnd_append_blank {s t : List Char} (h : ∀ c ∈ t, isWhitespace c = true) :
    trimEnd (s ++ t) = trimEnd s := by
  have hr : t.reverse.dropWhile isWhitespace = [] := by
    simpa [List.dropWhile_eq_nil_iff] using h
  simp [trimEnd,List.rdropWhile,List.dropWhile_append,hr]

theorem trimEnd_append {s t : List Char} (h : trimEnd t ≠ []) :
    trimEnd (s ++ t) = s ++ trimEnd t := by
  have hr : t.reverse.dropWhile isWhitespace ≠ [] := by simpa [trimEnd,List.rdropWhile] using h
  simp [trimEnd,List.rdropWhile,List.dropWhile_append,hr]

/-- Text in front of a line survives trimming unless both are blank. -/
theorem trimEnd_append_eq_iff {s t : List Char} :
    trimEnd (s ++ t) = trimEnd t ↔ s = [] ∨ (trimEnd s = [] ∧ trimEnd t = []) := by
  by_cases ht : trimEnd t = []
  · rw [trimEnd_append_blank (trimEnd_eq_nil.mp ht),ht]
    constructor
    · exact fun hs => Or.inr ⟨hs,rfl⟩
    · rintro (rfl | ⟨hs,-⟩)
      · rfl
      · exact hs
  · rw [trimEnd_append ht]
    simp [ht]

example : fromUtf8Lossy [0x61,0xE2,0x82,0x62,0xFF] = ['a','\uFFFD','b','\uFFFD'] := by decide
example : parseI32 ['-','1'] = some (-1) := by decide
example : parseI32 "127".toList = some 127 := by decide

end Pyre.Base
