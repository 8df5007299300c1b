import Pyre.Base.Joined
import Pyre.Base.Matches
import Pyre.Base.Newlines
import Pyre.Stream.Scrollback

/-!
The text of a pane, as `capture_pane` makes it of the ring: the last lines without their control
sequences. The ring cuts the output off anywhere and the reads cut it up; the lines that begin in
the ring are what the program wrote all the same.
-/

set_option autoImplicit false

namespace Pyre.Stream
open Base

def esc : Char := '\x1b'

def isParam (c : Char) : Bool := 0x20 ≤ c.toNat && c.toNat ≤ 0x3F

def isFinal (c : Char) : Bool := 0x40 ≤ c.toNat && c.toNat ≤ 0x7E

/-- The parameters and the final character. -/
def untilFinal : Text → Option Nat
  | [] => none
  | c :: t =>
    if isFinal c then some 1 else if isParam c then (untilFinal t).map (· + 1) else none

def csiLen : Text → Option Nat
  | c :: d :: t => if c = esc ∧ d = '[' then (untilFinal t).map (· + 2) else none
  | _ => none

section pattern

variable {c : Char} {t u : Text} {n : Nat}

theorem untilFinal_bounds (h : untilFinal t = some n) : 0 < n ∧ n ≤ t.length := by
  induction t generalizing n with
  | nil => cases h
  | cons c t ih =>
    rw [untilFinal] at h
    split at h
    · obtain rfl := Option.some.inj h
      simp
    · split at h
      · obtain ⟨m,hm,rfl⟩ := Option.map_eq_some_iff.mp h
        have hle := ih hm
        simp
        omega
      · cases h

theorem untilFinal_append (hfinal : isFinal c = false) (hparam : isParam c = false) :
    untilFinal (t ++ c :: u) = untilFinal t := by
  induction t with
  | nil => simp [untilFinal,hfinal,hparam]
  | cons d t ih => simp only [List.cons_append,untilFinal,ih]

theorem ne_esc (h : isFinal c = true ∨ isParam c = true) : c ≠ esc := by
  rintro rfl
  revert h
  decide

/-- No character of a sequence but its first is an escape. -/
theorem untilFinal_drop (h : untilFinal t = some n) {j : Nat} (hj : j < n) :
    ∃ c u, t.drop j = c :: u ∧ c ≠ esc := by
  induction t generalizing n j with
  | nil => cases h
  | cons c t ih =>
    rw [untilFinal] at h
    split at h
    · rename_i hfinal
      obtain rfl := Option.some.inj h
      obtain rfl : j = 0 := by omega
      exact ⟨c,t,rfl,ne_esc (.inl hfinal)⟩
    · split at h
      · rename_i hparam
        obtain ⟨m,hm,rfl⟩ := Option.map_eq_some_iff.mp h
        cases j with
        | zero => exact ⟨c,t,rfl,ne_esc (.inr hparam)⟩
        | succ j => exact ih hm (by omega)
      · cases h

theorem csiLen_cons_ne (h : c ≠ esc) (t : Text) : csiLen (c :: t) = none := by
  cases t with
  | nil => rfl
  | cons d t => simp [csiLen,h]

theorem csiLen_eq_some (h : csiLen t = some n) :
    ∃ u m, t = esc :: '[' :: u ∧ untilFinal u = some m ∧ n = m+2 := by
  match t, h with
  | c :: d :: t, h =>
    rw [csiLen,Option.ite_none_right_eq_some,Option.map_eq_some_iff] at h
    obtain ⟨⟨rfl,rfl⟩,m,hm,rfl⟩ := h
    exact ⟨t,m,rfl,hm,rfl⟩

end pattern

/-- `\x1b\[[\x20-\x3f]*[\x40-\x7e]` -/
def ansiCsiRe : Matcher Char where
  len := csiLen
  bounds := by
    intro t n h
    obtain ⟨u,m,rfl,hm,rfl⟩ := csiLen_eq_some h
    have hle := untilFinal_bounds hm
    simp
    omega
  apart := by
    intro t n h j hpos hj
    obtain ⟨u,m,rfl,hm,rfl⟩ := csiLen_eq_some h
    match j, hpos with
    | 1, _ => exact csiLen_cons_ne (by decide) u
    | j+2, _ =>
      obtain ⟨c,v,hdrop,hc⟩ := untilFinal_drop hm (j := j) (by omega)
      simp only [List.drop_succ_cons,hdrop]
      exact csiLen_cons_ne hc v

theorem stopsAt_newline : ansiCsiRe.StopsAt '\n' := by
  intro t u
  match t with
  | [] => exact csiLen_cons_ne (by decide) u
  | [c] => simp [ansiCsiRe,csiLen]
  | c :: d :: t =>
    have hrest : untilFinal (t ++ '\n' :: u) = untilFinal t :=
      untilFinal_append (by decide) (by decide)
    simp only [ansiCsiRe,csiLen,List.cons_append,hrest]

/-- `capture_pane`, in a worker and in a daemon of its own. -/
def capturePane (ringbuf : RingBuf) (lines : UInt32) : Bytes :=
  let lossy := fromUtf8Lossy ringbuf.snapshot
  let stripped := ansiCsiRe.erase lossy
  let allLines := stripped.splitOn '\n'
  let take := min lines.toNat allLines.length
  let tail := allLines.drop (allLines.length - take)
  encode (join '\n' tail)

/-! What a line shows, by itself. -/

/-- The characters of a line that are in none of its control sequences. -/
def shown (line : Bytes) : Text :=
  let text := fromUtf8Lossy line
  keepAt (fun k => !decide (ansiCsiRe.Covers text k)) text

def lastLines (n : Nat) (bytes : Bytes) : List Bytes := (bytes.splitOn 0x0A).rtake n

theorem shown_eq (line : Bytes) : shown line = ansiCsiRe.erase (fromUtf8Lossy line) :=
  (Matcher.erase_eq_keepAt _).symm

theorem splitOn_erase (t : Text) :
    (ansiCsiRe.erase t).splitOn '\n' = (t.splitOn '\n').map ansiCsiRe.erase := by
  refine splitOn_map (fun t u => stopsAt_newline.erase t u) (fun t ht hmem => ?_) t
  exact ht ((Matcher.erase_sublist t).subset hmem)

/-- Decoding and stripping the whole snapshot is doing so with each line. -/
theorem splitOn_stripped (bytes : Bytes) :
    (ansiCsiRe.erase (fromUtf8Lossy bytes)).splitOn '\n' = (bytes.splitOn 0x0A).map shown := by
  rw [splitOn_erase,splitOn_fromUtf8Lossy,List.map_map]
  exact List.map_congr_left fun line _ => (shown_eq line).symm

theorem capturePane_eq (ringbuf : RingBuf) (lines : UInt32) :
    capturePane ringbuf lines =
      encode (join '\n' ((lastLines lines.toNat ringbuf.snapshot).map shown)) := by
  have htail : ∀ l : List Text, l.drop (l.length - min lines.toNat l.length) =
      l.rtake lines.toNat := by
    intro l
    rw [List.rtake]
    congr 1
    omega
  simp only [capturePane,htail,splitOn_stripped]
  rw [lastLines,List.rtake,List.rtake,List.map_drop,List.length_map]

theorem lastLines_rtake {written : Bytes} {cap n : Nat}
    (h : n ≤ (written.rtake cap).count 0x0A) :
    lastLines n (written.rtake cap) = lastLines n written := by
  obtain ⟨front,hfront⟩ := rtake_suffix written cap
  have hsame := rtake_splitOn_append front h
  rw [hfront] at hsame
  exact hsame.symm

/-! What a program writes: lines of text with control sequences between. -/

inductive Piece where
  | text (t : Text) (plain : ∀ c ∈ t, c ≠ esc ∧ c ≠ '\n')
  | csi (params : Text) (final : Char) (isParams : ∀ c ∈ params, isParam c = true)
      (isFinal : isFinal final = true)

namespace Piece

def rendered : Piece → Text
  | text t _ => t
  | csi params final _ _ => esc :: '[' :: (params ++ [final])

def plain : Piece → Text
  | text t _ => t
  | csi _ _ _ _ => []

end Piece

section pieces

variable {t : Text}

theorem untilFinal_params {params : Text} {final : Char} (hparams : ∀ c ∈ params, isParam c = true)
    (hfinal : isFinal final = true) (t : Text) :
    untilFinal (params ++ final :: t) = some (params.length+1) := by
  induction params with
  | nil => simp [untilFinal,hfinal]
  | cons c params ih =>
    have hc := hparams c List.mem_cons_self
    have hnot : isFinal c = false := by
      simp only [isParam,isFinal,Bool.and_eq_true,decide_eq_true_eq] at hc ⊢
      simp only [Bool.and_eq_false_iff,decide_eq_false_iff_not]
      omega
    simp [untilFinal,hc,hnot,ih fun d hd => hparams d (List.mem_cons_of_mem _ hd)]

theorem erase_plain (h : ∀ c ∈ t, c ≠ esc) (u : Text) :
    ansiCsiRe.erase (t ++ u) = t ++ ansiCsiRe.erase u := by
  induction t with
  | nil => rfl
  | cons c t ih =>
    have hnone : csiLen (c :: (t ++ u)) = none := csiLen_cons_ne (h c List.mem_cons_self) _
    rw [List.cons_append,Matcher.erase_cons hnone,ih fun d hd => h d (List.mem_cons_of_mem _ hd),
      List.cons_append]

theorem erase_rendered (p : Piece) (t : Text) :
    ansiCsiRe.erase (p.rendered ++ t) = p.plain ++ ansiCsiRe.erase t := by
  cases p with
  | text u hplain => exact erase_plain (fun c hc => (hplain c hc).1) t
  | csi params final hparams hfinal =>
    have hlen : ansiCsiRe.len (esc :: '[' :: (params ++ final :: t)) =
        some (params.length+1+2) := by
      simp [ansiCsiRe,csiLen,untilFinal_params hparams hfinal]
    simpa [Piece.rendered,Piece.plain] using Matcher.erase_match hlen

theorem erase_line (line : List Piece) :
    ansiCsiRe.erase (line.flatMap Piece.rendered) = line.flatMap Piece.plain := by
  induction line with
  | nil => rfl
  | cons p line ih => rw [List.flatMap_cons,erase_rendered,ih,List.flatMap_cons]

theorem newline_notMem (line : List Piece) : '\n' ∉ line.flatMap Piece.rendered := by
  intro h
  obtain ⟨p,-,hp⟩ := List.mem_flatMap.mp h
  cases p with
  | text u hplain => exact (hplain _ hp).2 rfl
  | csi params final hparams hfinal =>
    simp only [Piece.rendered,List.mem_cons,List.mem_append,List.not_mem_nil,or_false] at hp
    obtain h | h | h | rfl := hp
    · exact absurd h (by decide)
    · exact absurd h (by decide)
    · exact absurd (hparams _ h) (by decide)
    · exact absurd hfinal (by decide)

/-- The lines of a program's output are shown as their text. -/
theorem shown_lines {ls : List (List Piece)} (hne : ls ≠ []) (n : Nat) :
    (lastLines n (encode (join '\n' (ls.map fun line => line.flatMap Piece.rendered)))).map shown =
      (ls.rtake n).map fun line => line.flatMap Piece.plain := by
  have hsplit : (join '\n' (ls.map fun line => line.flatMap Piece.rendered)).splitOn '\n' =
      ls.map fun line => line.flatMap Piece.rendered :=
    List.splitOn_intercalate '\n' (by simpa using fun line _ => newline_notMem line)
      (by simpa using hne)
  rw [lastLines,← rtake_map,← splitOn_stripped,fromUtf8Lossy_encode,splitOn_erase,hsplit,
    List.map_map,← rtake_map]
  simp only [Function.comp_def,erase_line]

end pieces

/-- The ring has all of the last `n` lines. -/
def HasLines (cap n : Nat) (written : Bytes) : Prop :=
  written.length ≤ cap ∨ n ≤ (written.rtake cap).count 0x0A

theorem HasLines.lastLines {cap n : Nat} {written : Bytes} (h : HasLines cap n written) :
    lastLines n (written.rtake cap) = lastLines n written := by
  rcases h with hfit | hlines
  · rw [rtake_of_length_le hfit]
  · exact lastLines_rtake hlines

/-- However the output was cut up on its way into the ring: a capture has the last lines that are
in the ring, each decoded by itself and without the characters of its control sequences. As
many lines as begin in the ring are the last of all that was written, and where that was text with
control sequences in it they are that text. -/
theorem capture_shows_lines (cap : Nat) (chunks : List Bytes) (lines : UInt32) :
    capturePane (chunks.foldl RingBuf.push (.new cap)) lines =
      encode (join '\n' ((lastLines lines.toNat (chunks.flatten.rtake cap)).map shown)) ∧
    (HasLines cap lines.toNat chunks.flatten →
      capturePane (chunks.foldl RingBuf.push (.new cap)) lines =
        encode (join '\n' ((lastLines lines.toNat chunks.flatten).map shown)) ∧
      ∀ ls : List (List Piece), ls ≠ [] →
        chunks.flatten = encode (join '\n' (ls.map fun line => line.flatMap Piece.rendered)) →
        capturePane (chunks.foldl RingBuf.push (.new cap)) lines =
          encode (join '\n'
            ((ls.rtake lines.toNat).map fun line => line.flatMap Piece.plain))) := by
  have hring : capturePane (chunks.foldl RingBuf.push (.new cap)) lines =
      encode (join '\n' ((lastLines lines.toNat (chunks.flatten.rtake cap)).map shown)) := by
    rw [capturePane_eq,RingBuf.snapshot_foldl_push,RingBuf.snapshot_new,RingBuf.cap_new,
      List.nil_append]
  refine ⟨hring,fun hlines => ?_⟩
  rw [hring,hlines.lastLines]
  refine ⟨rfl,fun ls hne hwritten => ?_⟩
  rw [hwritten,shown_lines hne]

/-- A line, one in bold and a prompt, read with a cut in the first control sequence. -/
def boldLine : List (List Piece) :=
  [[.text ['o','l','d'] (by simp [esc])],
    [.csi ['1'] 'm' (by simp [isParam]) (by decide),.text ['h','i'] (by simp [esc]),
      .csi [] 'm' (by simp) (by decide)],[.text ['$'] (by simp [esc])]]

def boldChunks : List Bytes :=
  [[0x6F,0x6C,0x64,0x0A,0x1B],[0x5B,0x31,0x6D,0x68,0x69,0x1B,0x5B,0x6D,0x0A,0x24]]

/-- The ring has lost the first line but for its end. -/
theorem capture_shows_bold :
    capturePane (boldChunks.foldl RingBuf.push (.new 12)) 2 = encode ['h','i','\n','$'] :=
  ((capture_shows_lines 12 boldChunks 2).2 (.inr (by decide))).2 boldLine (by decide) (by decide)

end Pyre.Stream
