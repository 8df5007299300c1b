import Pyre.Base.Find
import Pyre.Proto

/-!
The output of `git status --porcelain=v1 --branch`: how git prints it, and how `parse_porcelain`
reads it.
-/

set_option autoImplicit false

namespace Pyre.Git
open Base

structure GitInfo where
  branch : Text
  dirty : UInt32
  ahead : UInt32
  behind : UInt32
  upstream : Option Text
  deriving DecidableEq, Repr

def extractCount (s pfx : Text) : Option UInt32 := do
  let start ← find pfx s
  let n ← parseU32 ((s.drop (start+pfx.length)).takeWhile Char.isDigit)
  return UInt32.ofNat n

/-- `parse_porcelain` on the first line, past its marker -/
def parseHeader (header : Text) : GitInfo :=
  if let some rest := strip "No commits yet on ".toList header then ⟨rest,0,0,0,none⟩
  else if "HEAD (no branch)".toList.isPrefixOf header then ⟨"HEAD".toList,0,0,0,none⟩
  else
    match find "...".toList header with
    | some dotPos =>
      let after := header.drop (dotPos+3)
      match find " [".toList after with
      | some bracketPos =>
        let bracketContent := after.drop (bracketPos+2)
        ⟨header.take dotPos,0,(extractCount bracketContent "ahead ".toList).getD 0,
          (extractCount bracketContent "behind ".toList).getD 0,some (after.take bracketPos)⟩
      | none => ⟨header.take dotPos,0,0,0,some after⟩
    | none => ⟨header,0,0,0,none⟩

def parsePorcelain (out : Text) : GitInfo :=
  match lines out with
  | first :: rest =>
    match strip "## ".toList first with
    | some header =>
      { parseHeader header with dirty := UInt32.ofNat (rest.filter fun l => l ≠ []).length }
    | none => ⟨[],0,0,0,none⟩
  | [] => ⟨[],0,0,0,none⟩

/-! What git prints. -/

/-- The name of a branch, by what git demands of it that matters here. -/
structure RefName where
  name : Text
  ne_nil : name ≠ []
  printable : ∀ c ∈ name, 0x20 < c.toNat
  no_dots : ¬"..".toList <:+: name
  no_dot_end : name.getLast? ≠ some '.'

/-- An upstream branch, which is gone or has so many commits that it lacks and that it has alone. -/
structure Upstream where
  name : RefName
  counts : Option (Nat × Nat)

inductive Head where
  | detached
  /-- No commits yet; an upstream that is set is printed as gone. -/
  | unborn (branch : RefName) (upstream : Option RefName)
  | born (branch : RefName) (upstream : Option Upstream)

/-- A changed file, by its line: two letters of state, a blank and the quoted path. -/
structure ChangedFile where
  x : Char
  y : Char
  path : Text
  one_line : '\n' ∉ x :: y :: ' ' :: path

def ChangedFile.line (f : ChangedFile) : Text := f.x :: f.y :: ' ' :: f.path

def decimal (n : Nat) : Text := Nat.toDigits 10 n

def bracket : Option (Nat × Nat) → Text
  | none => " [gone]".toList
  | some (ahead,behind) =>
    if ahead = 0 ∧ behind = 0 then []
    else if ahead = 0 then " [behind ".toList ++ (decimal behind ++ "]".toList)
    else if behind = 0 then " [ahead ".toList ++ (decimal ahead ++ "]".toList)
    else " [ahead ".toList ++
      (decimal ahead ++ (", behind ".toList ++ (decimal behind ++ "]".toList)))

namespace Head

def header : Head → Text
  | detached => "HEAD (no branch)".toList
  | unborn branch none => "No commits yet on ".toList ++ branch.name
  | unborn branch (some upstream) =>
    "No commits yet on ".toList ++
      (branch.name ++ ("...".toList ++ (upstream.name ++ bracket none)))
  | born branch none => branch.name
  | born branch (some upstream) =>
    branch.name ++ ("...".toList ++ (upstream.name.name ++ bracket upstream.counts))

def branch : Head → Text
  | detached => "HEAD".toList
  | unborn branch _ | born branch _ => branch.name

def counts : Head → Nat × Nat
  | born _ (some ⟨_,some counts⟩) => counts
  | _ => (0,0)

/-- No commits yet, and an upstream is set. -/
def UnbornTracking : Head → Prop
  | unborn _ (some _) => True
  | _ => False

end Head

def porcelain (head : Head) (files : List ChangedFile) : Text :=
  "## ".toList ++ head.header ++ '\n' :: files.flatMap fun f => f.line ++ ['\n']

/-- What is read of the output is what git printed. -/
def Decodes (head : Head) (files : List ChangedFile) : Prop :=
  let info := parsePorcelain (porcelain head files)
  info.branch = head.branch ∧ (info.ahead.toNat,info.behind.toNat) = head.counts ∧
    info.dirty.toNat = files.length

/-- A count as it is read: one that is too large is read as none. -/
def counted (n : Nat) : Nat := if n < 2^32 then n else 0

theorem counted_eq_iff {n : Nat} : counted n = n ↔ n < 2^32 := by
  rw [counted]
  split <;> omega

theorem mem_decimal {c : Char} {n : Nat} (h : c ∈ decimal n) : c.isDigit :=
  Nat.isDigit_of_mem_toDigits (by decide) (by decide) h

theorem notMem_decimal {c : Char} (h : ¬c.isDigit) (n : Nat) : c ∉ decimal n :=
  fun hc => h (mem_decimal hc)

/-- The number after a text that starts with a letter which nothing before it has. -/
theorem extractCount_append {a : Text} {c d : Char} (h : c ∉ a) (hd : ¬d.isDigit) (n : Nat)
    (pat rest : Text) :
    ((extractCount (a ++ (c :: pat ++ (decimal n ++ d :: rest))) (c :: pat)).getD 0).toNat =
      counted n := by
  have hdrop : (a ++ (c :: pat ++ (decimal n ++ d :: rest))).drop (a.length+(c :: pat).length) =
      decimal n ++ d :: rest := by
    rw [← List.length_append,← List.append_assoc,List.drop_left]
  have htake : (decimal n ++ d :: rest).takeWhile Char.isDigit = decimal n := by
    rw [List.takeWhile_append_of_pos fun c hc => mem_decimal hc,List.takeWhile_cons_of_neg hd,
      List.append_nil]
  have hread := parseU32_toDigits n
  rw [← decimal] at hread
  rw [extractCount,find_append_of_head h]
  simp only [Option.bind_eq_bind,Option.bind_some,hdrop,htake,hread,counted]
  split
  case isTrue hlt => exact Nat.mod_eq_of_lt hlt
  case isFalse => rfl

theorem extractCount_eq_none {s pat : Text} {c : Char} (h : c ∉ s) :
    extractCount s (c :: pat) = none := by
  rw [extractCount,find_eq_none_of_head h]
  rfl

namespace RefName

variable (r : RefName)

theorem blank_notMem : ' ' ∉ r.name := fun h => absurd (r.printable ' ' h) (by decide)

theorem dots_notMem : ¬"...".toList <:+: r.name := fun h =>
  r.no_dots ((by decide : "..".toList <:+: "...".toList).trans h)

theorem find_dots (rest : Text) :
    find "...".toList (r.name ++ ("...".toList ++ rest)) = some r.name.length := by
  have hdots : "...".toList = ['.','.','.'] := rfl
  rw [hdots]
  refine find_append fun s hs ht hp => ?_
  obtain ⟨c,s,rfl⟩ := List.exists_cons_of_ne_nil hs
  obtain ⟨rfl,htail⟩ := List.cons_prefix_cons.mp hp
  cases s with
  | nil =>
    obtain ⟨front,hfront⟩ := ht
    exact r.no_dot_end (by rw [← hfront,List.getLast?_concat])
  | cons d s =>
    obtain ⟨rfl,-⟩ := List.cons_prefix_cons.mp htail
    exact r.no_dots (List.IsInfix.trans ⟨[],s,rfl⟩ ht.isInfix)

/-- A header that starts with a name is of neither of the two special kinds. -/
theorem not_special {rest : Text} (h : 5 ≤ (r.name ++ rest).length) (hrest : ' ' ∉ rest)
    (more : Text) :
    strip "No commits yet on ".toList (r.name ++ rest ++ more) = none ∧
      ¬"HEAD (no branch)".toList.isPrefixOf (r.name ++ rest ++ more) := by
  have hblank : ' ' ∉ r.name ++ rest := fun hc =>
    (List.mem_append.mp hc).elim r.blank_notMem hrest
  have htake : ∀ pfx : Text, ' ' ∈ pfx.take 5 → ' ' ∈ pfx.take (r.name ++ rest).length :=
    fun pfx hc => (List.take_prefix_take_left h).mem hc
  refine ⟨strip_eq_none (not_prefix_append (htake _ (by decide)) hblank),fun hp => ?_⟩
  exact not_prefix_append (htake _ (by decide)) hblank (List.isPrefixOf_iff_prefix.mp hp)

end RefName

theorem parseHeader_plain (b : RefName) : parseHeader b.name = ⟨b.name,0,0,0,none⟩ := by
  have hstrip : strip "No commits yet on ".toList b.name = none :=
    strip_eq_none fun hp => b.blank_notMem (hp.mem (by decide))
  have hhead : ¬"HEAD (no branch)".toList.isPrefixOf b.name := fun hp =>
    b.blank_notMem ((List.isPrefixOf_iff_prefix.mp hp).mem (by decide))
  rw [parseHeader,hstrip]
  simp only [hhead,find_eq_none b.dots_notMem]
  rfl

/-- What the brackets tell, past the blank and the bracket that open them. -/
def bracketContent : Option (Nat × Nat) → Text
  | none => "gone]".toList
  | some (ahead,behind) =>
    if ahead = 0 then "behind ".toList ++ (decimal behind ++ "]".toList)
    else if behind = 0 then "ahead ".toList ++ (decimal ahead ++ "]".toList)
    else "ahead ".toList ++
      (decimal ahead ++ (", behind ".toList ++ (decimal behind ++ "]".toList)))

theorem bracket_some (ahead behind : Nat) :
    bracket (some (ahead,behind)) =
      if ahead = 0 ∧ behind = 0 then []
      else if ahead = 0 then " [behind ".toList ++ (decimal behind ++ "]".toList)
      else if behind = 0 then " [ahead ".toList ++ (decimal ahead ++ "]".toList)
      else " [ahead ".toList ++
        (decimal ahead ++ (", behind ".toList ++ (decimal behind ++ "]".toList))) :=
  rfl

theorem bracketContent_some (ahead behind : Nat) :
    bracketContent (some (ahead,behind)) =
      if ahead = 0 then "behind ".toList ++ (decimal behind ++ "]".toList)
      else if behind = 0 then "ahead ".toList ++ (decimal ahead ++ "]".toList)
      else "ahead ".toList ++
        (decimal ahead ++ (", behind ".toList ++ (decimal behind ++ "]".toList))) :=
  rfl

theorem bracket_eq (counts : Option (Nat × Nat)) (h : counts ≠ some (0,0)) :
    bracket counts = " [".toList ++ bracketContent counts := by
  match counts with
  | none => rfl
  | some (ahead,behind) =>
    have hne : ¬(ahead = 0 ∧ behind = 0) := by
      rintro ⟨rfl,rfl⟩
      exact h rfl
    have hahead : " [ahead ".toList = " [".toList ++ "ahead ".toList := rfl
    have hbehind : " [behind ".toList = " [".toList ++ "behind ".toList := rfl
    rw [bracket_some,if_neg hne,bracketContent_some,hahead,hbehind]
    split_ifs <;> exact List.append_assoc ..

theorem extractCount_ahead (counts : Option (Nat × Nat)) :
    ((extractCount (bracketContent counts) "ahead ".toList).getD 0).toNat =
      counted (counts.getD (0,0)).1 := by
  match counts with
  | none => decide
  | some (ahead,behind) =>
    rw [bracketContent_some]
    split_ifs with ha hb
    · rw [show "ahead ".toList = 'a' :: "head ".toList from rfl,extractCount_eq_none]
      · simp [ha,counted]
      · simp [notMem_decimal]
    · exact extractCount_append (a := []) List.not_mem_nil (by decide) ahead _ _
    · exact extractCount_append (a := []) List.not_mem_nil (by decide) ahead _ _

theorem extractCount_behind (counts : Option (Nat × Nat)) :
    ((extractCount (bracketContent counts) "behind ".toList).getD 0).toNat =
      counted (counts.getD (0,0)).2 := by
  match counts with
  | none => decide
  | some (ahead,behind) =>
    rw [bracketContent_some]
    split_ifs with ha hb
    · exact extractCount_append (a := []) List.not_mem_nil (by decide) behind _ _
    · rw [show "behind ".toList = 'b' :: "ehind ".toList from rfl,extractCount_eq_none]
      · simp [hb,counted]
      · simp [notMem_decimal]
    · have hfind := extractCount_append (a := "ahead ".toList ++ decimal ahead ++ ", ".toList)
        (c := 'b') (d := ']') (by simp [notMem_decimal]) (by decide) behind "ehind ".toList []
      simpa using hfind

/-- A header with an upstream, which may have brackets after it. -/
theorem parseHeader_dots (b r : RefName) (more : Text) :
    parseHeader (b.name ++ ("...".toList ++ (r.name ++ more))) =
      match find " [".toList (r.name ++ more) with
      | some bracketPos =>
        let content := (r.name ++ more).drop (bracketPos+2)
        ⟨b.name,0,(extractCount content "ahead ".toList).getD 0,
          (extractCount content "behind ".toList).getD 0,some ((r.name ++ more).take bracketPos)⟩
      | none => ⟨b.name,0,0,0,some (r.name ++ more)⟩ := by
  have hdots : ' ' ∉ "...".toList ++ r.name := fun hc =>
    (List.mem_append.mp hc).elim (by decide) r.blank_notMem
  have hlen : 5 ≤ (b.name ++ ("...".toList ++ r.name)).length := by
    have hb := List.length_pos_of_ne_nil b.ne_nil
    have hr := List.length_pos_of_ne_nil r.ne_nil
    simp only [List.length_append,show "...".toList.length = 3 from rfl]
    omega
  obtain ⟨hstrip,hhead⟩ := b.not_special hlen hdots more
  simp only [List.append_assoc] at hstrip hhead
  have hafter : (b.name ++ ("...".toList ++ (r.name ++ more))).drop (b.name.length+3) =
      r.name ++ more := by
    rw [← List.drop_drop,List.drop_left]
    rfl
  rw [parseHeader,hstrip]
  simp only [hhead,b.find_dots,hafter,List.take_left]
  rfl

theorem parseHeader_tracking (b r : RefName) (counts : Option (Nat × Nat)) :
    let info := parseHeader (b.name ++ ("...".toList ++ (r.name ++ bracket counts)))
    info.branch = b.name ∧ info.ahead.toNat = counted (counts.getD (0,0)).1 ∧
      info.behind.toNat = counted (counts.getD (0,0)).2 := by
  rw [parseHeader_dots]
  by_cases hnone : counts = some (0,0)
  · subst hnone
    have hfind : find " [".toList (r.name ++ bracket (some (0,0))) = none := by
      rw [show bracket (some (0,0)) = [] from rfl,List.append_nil]
      exact find_eq_none_of_head r.blank_notMem
    rw [hfind]
    exact ⟨rfl,rfl,rfl⟩
  · have hfind : find " [".toList (r.name ++ (" [".toList ++ bracketContent counts)) =
        some r.name.length := find_append_of_head r.blank_notMem
    have hcontent : (r.name ++ (" [".toList ++ bracketContent counts)).drop (r.name.length+2) =
        bracketContent counts := by
      rw [← List.drop_drop,List.drop_left]
      rfl
    rw [bracket_eq counts hnone,hfind]
    simp only [hcontent]
    exact ⟨trivial,extractCount_ahead counts,extractCount_behind counts⟩

/-- No control characters. -/
def Printable (t : Text) : Prop := ∀ c ∈ t, 0x20 ≤ c.toNat

instance (t : Text) : Decidable (Printable t) := List.decidableBAll _ t

theorem Printable.append {s t : Text} (hs : Printable s) (ht : Printable t) : Printable (s ++ t) :=
  List.forall_mem_append.mpr ⟨hs,ht⟩

theorem RefName.printable_name (r : RefName) : Printable r.name := fun c hc =>
  Nat.le_of_lt (r.printable c hc)

theorem printable_decimal (n : Nat) : Printable (decimal n) := by
  intro c hc
  have hdigit := Char.isDigit_iff_toNat.mp (mem_decimal hc)
  exact Nat.le_trans (by decide) hdigit.1

theorem printable_bracket (counts : Option (Nat × Nat)) : Printable (bracket counts) := by
  match counts with
  | none => decide
  | some (ahead,behind) =>
    have hclose : ∀ n, Printable (decimal n ++ "]".toList) := fun n =>
      (printable_decimal n).append (by decide)
    rw [bracket_some]
    split_ifs
    · decide
    · exact Printable.append (by decide) (hclose behind)
    · exact Printable.append (by decide) (hclose ahead)
    · refine Printable.append (by decide) ((printable_decimal ahead).append ?_)
      exact Printable.append (by decide) (hclose behind)

theorem printable_tracking (b r : RefName) (counts : Option (Nat × Nat)) :
    Printable (b.name ++ ("...".toList ++ (r.name ++ bracket counts))) :=
  b.printable_name.append (Printable.append (by decide)
    (r.printable_name.append (printable_bracket counts)))

theorem Head.printable_header (head : Head) : Printable head.header := by
  match head with
  | detached => decide
  | unborn b none => exact Printable.append (by decide) b.printable_name
  | unborn b (some r) => exact Printable.append (by decide) (printable_tracking b r none)
  | born b none => exact b.printable_name
  | born b (some u) => exact printable_tracking b u.name u.counts

theorem lines_files (files : List ChangedFile) :
    ((lines (files.flatMap fun f => f.line ++ ['\n'])).filter fun l => l ≠ []).length =
      files.length := by
  induction files with
  | nil => rfl
  | cons f files ih =>
    have hne : stripCr f.line ≠ [] := by
      rw [stripCr,ChangedFile.line]
      split <;> simp
    have hline : '\n' ∉ f.line := f.one_line
    rw [List.flatMap_cons,List.append_assoc,List.singleton_append,lines_line hline,
      List.filter_cons_of_pos (by simpa using hne),List.length_cons,List.length_cons,ih]

theorem parsePorcelain_porcelain (head : Head) (files : List ChangedFile) :
    parsePorcelain (porcelain head files) =
      { parseHeader head.header with dirty := UInt32.ofNat files.length } := by
  have hplain := Printable.append (by decide : Printable "## ".toList) head.printable_header
  have hn : '\n' ∉ "## ".toList ++ head.header := fun hc => absurd (hplain _ hc) (by decide)
  have hr : '\r' ∉ "## ".toList ++ head.header := fun hc => absurd (hplain _ hc) (by decide)
  rw [parsePorcelain,porcelain,lines_line hn,stripCr_eq_self hr]
  simp only [strip_eq_some.mpr rfl,lines_files]

/-- The branch and the counts of commits that are read of a header. -/
theorem parseHeader_iff (head : Head) :
    ((parseHeader head.header).branch = head.branch ∧
      ((parseHeader head.header).ahead.toNat,(parseHeader head.header).behind.toNat) =
        head.counts) ↔
    ¬head.UnbornTracking ∧ head.counts.1 < 2^32 ∧ head.counts.2 < 2^32 := by
  match head with
  | .detached =>
    exact iff_of_true ⟨by decide,by decide⟩ ⟨not_false,Nat.two_pow_pos 32,Nat.two_pow_pos 32⟩
  | .unborn b none =>
    have hparse : parseHeader (Head.unborn b none).header = ⟨b.name,0,0,0,none⟩ := by
      change parseHeader ("No commits yet on ".toList ++ b.name) = _
      rw [parseHeader,strip_eq_some.mpr rfl]
    rw [hparse]
    exact iff_of_true ⟨rfl,rfl⟩ ⟨not_false,Nat.two_pow_pos 32,Nat.two_pow_pos 32⟩
  | .unborn b (some r) =>
    have hparse : (parseHeader (Head.unborn b (some r)).header).branch =
        b.name ++ ("...".toList ++ (r.name ++ bracket none)) := by
      change (parseHeader ("No commits yet on ".toList ++ _)).branch = _
      rw [parseHeader,strip_eq_some.mpr rfl]
    refine iff_of_false (fun h => ?_) fun h => h.1 trivial
    have hlen := congrArg List.length (hparse.symm.trans h.1)
    simp [Head.branch] at hlen
  | .born b none =>
    have hparse : parseHeader (Head.born b none).header = ⟨b.name,0,0,0,none⟩ :=
      parseHeader_plain b
    rw [hparse]
    exact iff_of_true ⟨rfl,rfl⟩ ⟨not_false,Nat.two_pow_pos 32,Nat.two_pow_pos 32⟩
  | .born b (some ⟨r,counts⟩) =>
    obtain ⟨hbranch,hahead,hbehind⟩ := parseHeader_tracking b r counts
    have hcounts : (Head.born b (some ⟨r,counts⟩)).counts = counts.getD (0,0) := by
      cases counts <;> rfl
    change ((parseHeader (b.name ++ ("...".toList ++ (r.name ++ bracket counts)))).branch =
      b.name ∧ _ = _) ↔ _
    rw [hcounts]
    change (_ ∧ ((parseHeader (b.name ++ ("...".toList ++ (r.name ++ bracket counts)))).ahead.toNat,
      (parseHeader (b.name ++ ("...".toList ++ (r.name ++ bracket counts)))).behind.toNat) = _) ↔ _
    rw [hbranch,hahead,hbehind,Prod.ext_iff,counted_eq_iff,counted_eq_iff]
    simp [Head.UnbornTracking]

/-- The parser inverts what git prints unless an upstream is set where there are no commits yet, or
a count is too large for its type. -/
theorem parsePorcelain_inverts_iff (head : Head) (files : List ChangedFile) :
    Decodes head files ↔ ¬head.UnbornTracking ∧ head.counts.1 < 2^32 ∧ head.counts.2 < 2^32 ∧
      files.length < 2^32 := by
  have hdirty : (UInt32.ofNat files.length).toNat = files.length ↔ files.length < 2^32 := by
    rw [UInt32.toNat_ofNat']
    exact Nat.mod_eq_iff_lt (by decide)
  rw [Decodes,parsePorcelain_porcelain]
  simp only [hdirty]
  rw [← and_assoc,parseHeader_iff]
  simp only [and_assoc]

def mainBranch : RefName := ⟨"main".toList,by decide,by simp,by decide,by decide⟩

/-- A clone of an empty repository is on a branch with all that git prints after it. -/
theorem unborn_misread : ¬∀ head files, Decodes head files := by
  intro hall
  exact absurd (hall (.unborn mainBranch (some mainBranch)) []).1 (by decide)

end Pyre.Git
