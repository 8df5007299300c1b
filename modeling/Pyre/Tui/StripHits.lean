import Pyre.Tui.StripLine

/-!
When the rectangles of the session strip are where its pills are drawn.
-/

set_option autoImplicit false

namespace Pyre.Tui
open Base Events

namespace Viewport

variable {v : Viewport} {p : Pill} {pills : List Pill} {vx idx : Nat}

section covers

/-! Which lines have the pills in their rectangles. -/

variable (v : Viewport) (w : LineWidget)

def penAt (col : Nat) : Pen := ⟨v.startCol+(col-v.scroll),v.width-(col-v.scroll)⟩

def markOf (e : Nat × StripRect) : Mark Nat := ⟨e.1,e.2.x,e.2.width⟩

def Covers (pen : Pen) (l : List (Span Nat Text) × List (Nat × StripRect)) : Prop :=
  w.Covers pen l.1 (l.2.map markOf)

/-- The label takes as many columns as it has characters in view. -/
def Takes (vx : Nat) (p : Pill) : Prop :=
  (w.fit (v.width-(vx-v.scroll)) (v.shown vx p)).1 = (v.shown vx p).length

def Whole (vx : Nat) (p : Pill) : Prop :=
  (w.fit (v.width-(vx-v.scroll)) (v.shown vx p)).2 = true

/-- The labels in view take as many columns as they have characters there, and no label is cut
before another one. -/
def Laid (pills : List Pill) : Prop :=
  (∀ p ∈ pills, p.start < v.last → v.Takes w p.start p) ∧
    pills.Pairwise fun p q => q.start < v.last → v.Whole w p.start p

variable {v w} {pen : Pen} {rest : List Pill}

theorem following_of_last (h : ∀ p ∈ pills, v.last ≤ p.start) : v.following pills = ([],[]) := by
  cases pills with
  | nil => rfl
  | cons p rest => rw [following,if_pos (h p List.mem_cons_self)]

theorem following_marks_ne (v : Viewport) {i : Nat} (hother : ∀ q ∈ rest, i ≠ q.sessIdx) :
    ∀ m ∈ (v.following rest).2.map markOf, m.tag ≠ i := by
  rintro m hm rfl
  obtain ⟨e,he,rfl⟩ := List.mem_map.mp hm
  obtain ⟨q,hq,hi⟩ := List.mem_map.mp (sound_following.order.subset (List.mem_map_of_mem he))
  exact hother q hq hi.symm

/-- A label that has a rectangle, and what follows. -/
theorem covers_label (hdistinct : Distinct (p :: rest)) (hheight : 0 < v.height)
    (hshown : 0 < (v.shown vx p).length) :
    Covers w pen (⟨some p.sessIdx,v.shown vx p⟩ :: (v.following rest).1,
        v.marked vx p ++ (v.following rest).2) ↔
      (v.startCol+(vx-v.scroll) = pen.col ∧
          (w.fit pen.left (v.shown vx p)).1 = (v.shown vx p).length) ∧
        Covers w (w.write pen (v.shown vx p)) (v.following rest) := by
  have hother := (List.pairwise_cons.mp hdistinct).1
  have hmarks := following_marks_ne v hother
  have hspans : ∀ s ∈ (v.following rest).1, s.tag ≠ some p.sessIdx := by
    intro s hs htag
    obtain ⟨q,hq,hi⟩ := List.mem_map.mp (sound_following.tags s hs _ htag)
    exact hother q hq hi.symm
  have hmarked : v.marked vx p = [(p.sessIdx,v.rectAt vx p)] := if_pos ⟨hheight,hshown⟩
  rw [Covers,hmarked,List.singleton_append,List.map_cons]
  refine (Fitting.covers_marked hmarks hspans).trans (and_congr_left fun _ => ?_)
  refine (Fitting.same_columns_iff hshown).trans ?_
  simp only [Fitting.write,rectAt]
  constructor
  · rintro ⟨hstart,hstop⟩
    exact ⟨hstart,by omega⟩
  · rintro ⟨hstart,htakes⟩
    exact ⟨hstart,by omega⟩

/-- A label without one. -/
theorem covers_label_empty (hdistinct : Distinct (p :: rest)) (hshown : (v.shown vx p).length = 0) :
    Covers w pen (⟨some p.sessIdx,v.shown vx p⟩ :: (v.following rest).1,
        v.marked vx p ++ (v.following rest).2) ↔
      Covers w (w.write pen (v.shown vx p)) (v.following rest) := by
  have hother := (List.pairwise_cons.mp hdistinct).1
  have hmarks := following_marks_ne v hother
  have hmarked : v.marked vx p = [] := if_neg fun h => by omega
  rw [Covers,hmarked,List.nil_append]
  exact Fitting.covers_unmarked hmarks

theorem covers_nil : Covers w pen ([],[]) := by simp [Covers,Fitting.Covers]

/-- The next pill in view is where its rectangle is just if the line so far ends a column before
it. -/
theorem following_position {q : Pill} (hdistinct : Distinct (q :: rest)) (hheight : 0 < v.height)
    (hlabel : q.label ≠ []) (hscroll : v.scroll < q.start) (hlast : q.start < v.last)
    (h : Covers w pen (v.following (q :: rest))) :
    pen.col+1 = v.startCol+(q.start-v.scroll) ∧ 0 < pen.left := by
  have hpos := List.length_pos_iff.mpr hlabel
  have hshown : 0 < (v.shown q.start q).length := by
    rw [length_shown]
    omega
  rw [following,if_neg (by omega),Covers,separator] at h
  have hcovers := (covers_label hdistinct hheight hshown).mp (Fitting.covers_untagged.mp h)
  obtain ⟨⟨hcol,htakes⟩,-⟩ := hcovers
  have hle := w.fit_le (w.write pen [' ']).left (v.shown q.start q)
  by_cases hleft : 0 < pen.left
  · simp only [Fitting.write,w.fit_space _ hleft] at hcol
    exact ⟨hcol.symm,hleft⟩
  · have hnone : (w.write pen [' ']).left = 0 := by
      simp only [Fitting.write]
      split <;> omega
    rw [htakes,hnone] at hle
    omega

theorem shown_pos_iff (hlabel : p.label ≠ []) (hstop : v.scroll < p.stop)
    (hstart : p.start < v.last) :
    0 < (v.shown p.start p).length ↔ 0 < v.width := by
  have hpos := List.length_pos_iff.mpr hlabel
  rw [length_shown]
  simp only [Pill.stop,last] at *
  omega

theorem takes_of_narrow (hwidth : v.width = 0)
    (hshown : (v.shown p.start p).length = 0) : v.Takes w p.start p := by
  have hle := w.fit_le (v.width-(p.start-v.scroll)) (v.shown p.start p)
  rw [Takes]
  omega

/-- Only the first label is in view. -/
theorem laid_iff_takes (hstart : p.start < v.last) (hlast : ∀ q ∈ rest, v.last ≤ q.start) :
    v.Laid w (p :: rest) ↔ v.Takes w p.start p := by
  constructor
  · intro h
    exact h.1 p List.mem_cons_self hstart
  · intro h
    refine ⟨fun q hq hqlast => ?_,List.pairwise_cons.mpr ⟨fun q hq hqlast => ?_,?_⟩⟩
    · rcases List.mem_cons.mp hq with rfl | hq
      · exact h
      · exact absurd hqlast (by have hle := hlast q hq; omega)
    · exact absurd hqlast (by have hle := hlast q hq; omega)
    · refine List.pairwise_of_forall_mem_list fun q hq r hr hrlast => ?_
      exact absurd hrlast (by have hle := hlast r hr; omega)

theorem covers_iff_takes (hlabel : p.label ≠ []) (hdistinct : Distinct (p :: rest))
    (hheight : 0 < v.height) (hstop : v.scroll < p.stop) (hstart : p.start < v.last)
    (hlast : ∀ q ∈ rest, v.last ≤ q.start) :
    Covers w (v.penAt p.start) (⟨some p.sessIdx,v.shown p.start p⟩ :: (v.following rest).1,
        v.marked p.start p ++ (v.following rest).2) ↔ v.Takes w p.start p := by
  have hpos := shown_pos_iff hlabel hstop hstart
  by_cases hshown : 0 < (v.shown p.start p).length
  · rw [covers_label hdistinct hheight hshown,following_of_last hlast]
    exact ⟨fun h => h.1.2,fun h => ⟨⟨rfl,h⟩,covers_nil⟩⟩
  · rw [covers_label_empty hdistinct (by omega),following_of_last hlast]
    exact iff_of_true covers_nil (takes_of_narrow (by omega) (by omega))

/-- After a whole label the next one begins where it is meant to. -/
theorem write_write (hstop : v.scroll < p.stop) (hnext : p.stop+1 < v.last)
    (htakes : v.Takes w p.start p) (hwhole : v.Whole w p.start p) :
    w.write (w.write (v.penAt p.start) (v.shown p.start p)) [' '] = v.penAt (p.stop+1) := by
  have hlength : (v.shown p.start p).length = _ := length_shown
  simp only [Takes,Whole] at htakes hwhole
  simp only [Pill.stop,last] at *
  have hpen : w.write (v.penAt p.start) (v.shown p.start p) =
      ⟨v.startCol+(p.start+p.label.length-v.scroll),v.width-(p.start+p.label.length-v.scroll)⟩ := by
    simp only [Fitting.write,penAt,htakes,hwhole,if_true,Pen.mk.injEq]
    omega
  have hleft : 0 < v.width-(p.start+p.label.length-v.scroll) := by omega
  rw [hpen]
  simp only [Fitting.write,penAt,w.fit_space _ hleft,if_true,Pen.mk.injEq]
  omega

theorem laid_cons {q : Pill} (hp : p.start < v.last) (hq : q.start < v.last) :
    v.Laid w (p :: q :: rest) ↔
      v.Takes w p.start p ∧ v.Whole w p.start p ∧ v.Laid w (q :: rest) := by
  constructor
  · rintro ⟨htakes,hwhole⟩
    obtain ⟨hfirst,hwhole⟩ := List.pairwise_cons.mp hwhole
    refine ⟨htakes p List.mem_cons_self hp,hfirst q List.mem_cons_self hq,?_,hwhole⟩
    exact fun r hr => htakes r (List.mem_cons_of_mem _ hr)
  · rintro ⟨hfirst,hfull,htakes,hwhole⟩
    refine ⟨List.forall_mem_cons.mpr ⟨fun _ => hfirst,htakes⟩,?_⟩
    exact List.pairwise_cons.mpr ⟨fun r _ _ => hfull,hwhole⟩

/-- From a label that begins where it is meant to, the line has the pills in their rectangles just
where all labels are laid. -/
theorem covers_iff_laid (hlabel : p.label ≠ []) (hchain : Chained (p.stop+1) rest)
    (hdistinct : Distinct (p :: rest)) (hheight : 0 < v.height) (hstop : v.scroll < p.stop)
    (hstart : p.start < v.last) :
    Covers w (v.penAt p.start) (⟨some p.sessIdx,v.shown p.start p⟩ :: (v.following rest).1,
        v.marked p.start p ++ (v.following rest).2) ↔ v.Laid w (p :: rest) := by
  induction rest generalizing p with
  | nil =>
    rw [laid_iff_takes hstart (by simp)]
    exact covers_iff_takes hlabel hdistinct hheight hstop hstart (by simp)
  | cons q rest ih =>
    by_cases hq : q.start < v.last
    swap
    · have hlast : ∀ r ∈ q :: rest, v.last ≤ r.start := fun r hr => by
        have hle := hchain.start_le r hr
        have hstart := hchain.1
        omega
      rw [laid_iff_takes hstart hlast]
      exact covers_iff_takes hlabel hdistinct hheight hstop hstart hlast
    obtain ⟨hqstart,hqlabel,hrest⟩ := hchain
    have hqdistinct := (List.pairwise_cons.mp hdistinct).2
    have hwidth : 0 < v.width := by
      simp only [last] at hq
      omega
    have hqstop : v.scroll < q.stop := by
      simp only [Pill.stop] at *
      omega
    have hshown := (shown_pos_iff hlabel hstop hstart).mpr hwidth
    rw [covers_label hdistinct hheight hshown,laid_cons hstart hq]
    constructor
    · rintro ⟨⟨-,htakes⟩,hcovers⟩
      obtain ⟨-,hleft⟩ := following_position hqdistinct hheight hqlabel (by omega) hq hcovers
      have hwhole : v.Whole w p.start p := by
        by_contra hcut
        rw [Whole] at hcut
        simp [Fitting.write,penAt,hcut] at hleft
      rw [following,if_neg (by omega),Covers,separator] at hcovers
      have hlabels := Fitting.covers_untagged.mp hcovers
      rw [write_write hstop (by omega) htakes hwhole,← hqstart] at hlabels
      exact ⟨htakes,hwhole,(ih hqlabel hrest hqdistinct hqstop hq).mp hlabels⟩
    · rintro ⟨htakes,hwhole,hlaid⟩
      refine ⟨⟨rfl,htakes⟩,?_⟩
      rw [following,if_neg (by omega),Covers,separator]
      refine Fitting.covers_untagged.mpr ?_
      rw [write_write hstop (by omega) htakes hwhole,← hqstart]
      exact (ih hqlabel hrest hqdistinct hqstop hq).mpr hlaid

/-- After the rest of a pill whose beginning is off, with a column too many, no other pill has its
columns. -/
theorem covers_after_rest (hchain : Chained (p.stop+1) rest) (hdistinct : Distinct (p :: rest))
    (hheight : 0 < v.height) (hstop : v.scroll < p.stop) (hbefore : p.start < v.scroll)
    (htakes : v.Takes w (p.start+1) p) :
    Covers w (w.write (v.penAt 0) (v.shown (p.start+1) p)) (v.following rest) ↔
      rest = [] ∨ v.last ≤ p.stop+1 := by
  have hlength : (v.shown (p.start+1) p).length = _ := length_shown
  have hzero : p.start+1-v.scroll = 0 := by omega
  cases rest with
  | nil => exact iff_of_true covers_nil (.inl rfl)
  | cons q rest =>
    by_cases hq : v.last ≤ q.start
    · rw [following_of_last fun r hr => hq.trans (hchain.1 ▸ hchain.start_le r hr)]
      exact iff_of_true covers_nil (.inr (hchain.1 ▸ hq))
    · obtain ⟨hqstart,hqlabel,-⟩ := hchain
      have hqdistinct := (List.pairwise_cons.mp hdistinct).2
      have hnot : ¬(q :: rest = [] ∨ v.last ≤ p.stop+1) := by
        rw [← hqstart]
        simp [hq]
      refine iff_of_false (fun hcovers => ?_) hnot
      obtain ⟨hcol,-⟩ :=
        following_position hqdistinct hheight hqlabel (by omega) (by omega) hcovers
      simp only [Takes,hzero] at htakes
      simp only [Fitting.write,penAt,Nat.zero_sub,htakes] at hcol
      simp only [Pill.stop] at hqstart hstop
      omega

/-- The rest of a pill whose beginning is off has its rectangle. -/
theorem covers_rest (hchain : Chained (p.stop+1) rest) (hdistinct : Distinct (p :: rest))
    (hheight : 0 < v.height) (hstop : v.scroll < p.stop) (hbefore : p.start < v.scroll) :
    Covers w (v.penAt 0) (⟨some p.sessIdx,v.shown (p.start+1) p⟩ :: (v.following rest).1,
        v.marked (p.start+1) p ++ (v.following rest).2) ↔
      v.Takes w (p.start+1) p ∧ (rest = [] ∨ v.last ≤ p.stop+1) := by
  have hzero : p.start+1-v.scroll = 0 := by omega
  have hpen : v.penAt (p.start+1) = v.penAt 0 := by simp [penAt,hzero]
  by_cases hshown : 0 < (v.shown (p.start+1) p).length
  · have htakes : (v.startCol+(p.start+1-v.scroll) = (v.penAt 0).col ∧
        (w.fit (v.penAt 0).left (v.shown (p.start+1) p)).1 = (v.shown (p.start+1) p).length) ↔
          v.Takes w (p.start+1) p := by
      rw [← hpen]
      exact and_iff_right rfl
    rw [covers_label hdistinct hheight hshown,htakes]
    exact and_congr_right fun h => covers_after_rest hchain hdistinct hheight hstop hbefore h
  · have hempty : v.shown (p.start+1) p = [] :=
      List.length_eq_zero_iff.mp (Nat.eq_zero_of_not_pos hshown)
    have htakes : v.Takes w (p.start+1) p := by
      rw [Takes,hempty,w.fit_nil]
      rfl
    rw [covers_label_empty hdistinct (Nat.eq_zero_of_not_pos hshown),
      covers_after_rest hchain hdistinct hheight hstop hbefore htakes]
    exact (and_iff_right htakes).symm

/-- A pill that begins in view after others that are off has its rectangle a column too far
right. -/
theorem covers_shifted (hlabel : p.label ≠ []) (hchain : Chained (p.stop+1) rest)
    (hdistinct : Distinct (p :: rest)) (hheight : 0 < v.height) (hbegins : v.scroll ≤ p.start)
    (hend : p.start < v.last) :
    Covers w (v.penAt 0) ((if v.scroll < p.start then [separator] else []) ++
          ⟨some p.sessIdx,v.shown (p.start+1) p⟩ :: (v.following rest).1,
        v.marked (p.start+1) p ++ (v.following rest).2) ↔ v.last ≤ p.start+1 := by
  have hpos := List.length_pos_iff.mpr hlabel
  have hlength : (v.shown (p.start+1) p).length = _ := length_shown
  by_cases hshown : 0 < (v.shown (p.start+1) p).length
  · have hwidth : 0 < v.width := by
      simp only [last] at hlength
      omega
    refine iff_of_false (fun hcovers => ?_) (by omega)
    by_cases hsep : v.scroll < p.start
    · rw [if_pos hsep,Covers,separator] at hcovers
      obtain ⟨⟨hcol,-⟩,-⟩ :=
        (covers_label hdistinct hheight hshown).mp (Fitting.covers_untagged.mp hcovers)
      simp only [Fitting.write,penAt,Nat.zero_sub,Nat.sub_zero,w.fit_space _ hwidth] at hcol
      omega
    · rw [if_neg hsep,List.nil_append] at hcovers
      obtain ⟨⟨hcol,-⟩,-⟩ := (covers_label hdistinct hheight hshown).mp hcovers
      simp only [penAt] at hcol
      omega
  · have hlast : ∀ q ∈ rest, v.last ≤ q.start := fun q hq => by
      have hle := hchain.start_le q hq
      simp only [Pill.stop] at hle
      omega
    refine iff_of_true ?_ (by omega)
    by_cases hsep : v.scroll < p.start
    · rw [if_pos hsep,Covers,separator]
      refine Fitting.covers_untagged.mpr ((covers_label_empty hdistinct (by omega)).mpr ?_)
      rw [following_of_last hlast]
      exact covers_nil
    · rw [if_neg hsep,List.nil_append,covers_label_empty hdistinct (by omega),
        following_of_last hlast]
      exact covers_nil

/-- The first pill in view where others are scrolled off. -/
theorem covers_leading (hlabel : p.label ≠ []) (hchain : Chained (p.stop+1) rest)
    (hdistinct : Distinct (p :: rest)) (hheight : 0 < v.height) (hstop : v.scroll < p.stop) :
    Covers w (v.penAt 0)
        (v.leading (if v.scroll < p.start then [separator] else []) (p.start+1) p rest) ↔
      if p.start < v.scroll then v.Takes w (p.start+1) p ∧ (rest = [] ∨ v.last ≤ p.stop+1)
      else v.last ≤ p.start+1 := by
  rw [leading]
  by_cases hbefore : p.start < v.scroll
  · have hend : ¬v.last ≤ p.start := by
      simp only [last]
      omega
    rw [if_neg hend,if_pos hbefore,if_neg (by omega),List.nil_append]
    exact covers_rest hchain hdistinct hheight hstop hbefore
  · rw [if_neg hbefore]
    by_cases hend : v.last ≤ p.start
    · rw [if_pos hend]
      exact iff_of_true covers_nil (by omega)
    · rw [if_neg hend]
      exact covers_shifted hlabel hchain hdistinct hheight (by omega) (by omega)

variable (v w)

/-- No pill is scrolled off whole. -/
def NoneSkipped (pills : List Pill) : Prop := ∀ p ∈ pills, v.scroll < p.stop

instance : DecidablePred v.NoneSkipped := fun _ => inferInstanceAs (Decidable (∀ p ∈ _, _))

/-- Where pills are scrolled off, one pill is all there is in view, its beginning off; or none. -/
def LoneRest (pills : List Pill) : Prop :=
  match pills.dropWhile fun p => p.stop ≤ v.scroll with
  | [] => True
  | p :: rest =>
    if p.start < v.scroll then v.Takes w (p.start+1) p ∧ (rest = [] ∨ v.last ≤ p.stop+1)
    else v.last ≤ p.start+1

def Straight (pills : List Pill) : Prop :=
  if v.NoneSkipped pills then v.Laid w pills else v.LoneRest w pills

/-- Some of the pill is in view; where others are scrolled off, its beginning is not. -/
def InView (pills : List Pill) (p : Pill) : Prop :=
  0 < v.width ∧ v.scroll < p.stop ∧
    if v.NoneSkipped pills then p.start < v.last else p.start < v.scroll

variable {v w}

theorem noneSkipped_cons (hchain : Chained (p.stop+1) rest) :
    v.NoneSkipped (p :: rest) ↔ v.scroll < p.stop := by
  refine ⟨fun h => h p List.mem_cons_self,fun h => List.forall_mem_cons.mpr ⟨h,fun q hq => ?_⟩⟩
  have hle := hchain.start_le q hq
  simp only [Pill.stop] at *
  omega

theorem dropWhile_chained {col : Nat} (hchain : Chained col pills) (hdistinct : Distinct pills)
    (hdrop : pills.dropWhile (fun q => q.stop ≤ v.scroll) = p :: rest) :
    p.label ≠ [] ∧ Chained (p.stop+1) rest ∧ Distinct (p :: rest) ∧ v.scroll < p.stop ∧
      ∀ q ∈ pills, q ∈ p :: rest ∨ q.stop ≤ v.scroll := by
  induction pills generalizing col with
  | nil => cases hdrop
  | cons q pills ih =>
    obtain ⟨-,hlabel,hrest⟩ := hchain
    by_cases hskip : q.stop ≤ v.scroll
    · rw [List.dropWhile_cons_of_pos (by simpa using hskip)] at hdrop
      obtain ⟨hp,hpchain,hpdistinct,hstop,hall⟩ :=
        ih hrest (List.pairwise_cons.mp hdistinct).2 hdrop
      exact ⟨hp,hpchain,hpdistinct,hstop,List.forall_mem_cons.mpr ⟨.inr hskip,hall⟩⟩
    · rw [List.dropWhile_cons_of_neg (by simpa using hskip)] at hdrop
      obtain ⟨rfl,rfl⟩ := List.cons.inj hdrop
      exact ⟨hlabel,hrest,hdistinct,by omega,fun r hr => .inl hr⟩

theorem covers_line (hchain : Chained 0 pills) (hdistinct : Distinct pills)
    (hheight : 0 < v.height) :
    Covers w (v.penAt 0) (v.line pills) ↔ v.Straight w pills := by
  cases pills with
  | nil => exact iff_of_true covers_nil (by simp [Straight,NoneSkipped,Laid])
  | cons p rest =>
    obtain ⟨hstart,hlabel,hrest⟩ := hchain
    rw [Straight,line]
    simp only [noneSkipped_cons hrest]
    by_cases hskip : p.stop ≤ v.scroll
    · rw [if_pos hskip,if_neg (by omega),afterSkipped,LoneRest,
        List.dropWhile_cons_of_pos (by simpa using hskip)]
      cases hdrop : rest.dropWhile (fun q => decide (q.stop ≤ v.scroll)) with
      | nil => exact iff_of_true covers_nil trivial
      | cons q rest' =>
        obtain ⟨hq,hqchain,hqdistinct,hqstop,-⟩ :=
          dropWhile_chained hrest (List.pairwise_cons.mp hdistinct).2 hdrop
        exact covers_leading hq hqchain hqdistinct hheight hqstop
    · rw [if_neg hskip,if_pos (by omega),leading]
      by_cases hend : v.last ≤ p.start
      · rw [if_pos hend]
        refine iff_of_true covers_nil ⟨fun q hq hlast => ?_,?_⟩
        · omega
        · exact List.pairwise_of_forall_mem_list fun q _ r _ hlast => by omega
      · rw [if_neg hend,List.nil_append,← hstart]
        exact covers_iff_laid hlabel hrest hdistinct hheight (by omega) (by omega)

end covers

section rects

/-! Which pills have a rectangle. -/

variable {rest : List Pill} {i : Nat} {w : LineWidget}

theorem rects_following (hheight : 0 < v.height) (hwidth : 0 < v.width)
    (hscroll : ∀ p ∈ pills, v.scroll < p.start) {col : Nat} (hchain : Chained col pills) :
    (∃ e ∈ (v.following pills).2, e.1 = i) ↔ ∃ p ∈ pills, p.sessIdx = i ∧ p.start < v.last := by
  induction pills generalizing col with
  | nil => simp [following]
  | cons p rest ih =>
    obtain ⟨-,hlabel,hrest⟩ := hchain
    have hstart := hscroll p List.mem_cons_self
    have hstop : v.scroll < p.stop := by
      simp only [Pill.stop]
      omega
    by_cases hend : v.last ≤ p.start
    · rw [following,if_pos hend]
      refine iff_of_false (by simp) ?_
      rintro ⟨q,hq,-,hlast⟩
      rcases List.mem_cons.mp hq with rfl | hq
      · omega
      · have hle := hrest.start_le q hq
        simp only [Pill.stop] at hle
        omega
    · have hshown := (shown_pos_iff hlabel hstop (by omega)).mpr hwidth
      rw [following,if_neg hend,marked,if_pos ⟨hheight,hshown⟩]
      have hrects := ih (fun q hq => hscroll q (List.mem_cons_of_mem _ hq)) hrest
      simp only [List.singleton_append,List.exists_mem_cons_iff,hrects]
      have hlast : p.start < v.last := by omega
      simp only [hlast,and_true]

/-- Where no pill is skipped. -/
theorem rects_whole (hlabel : p.label ≠ []) (hchain : Chained (p.stop+1) rest)
    (hheight : 0 < v.height) (hstop : v.scroll < p.stop) (hstart : p.start < v.last) :
    (∃ e ∈ v.marked p.start p ++ (v.following rest).2, e.1 = i) ↔
      ∃ q ∈ p :: rest, q.sessIdx = i ∧ 0 < v.width ∧ q.start < v.last := by
  have hpos := shown_pos_iff hlabel hstop hstart
  have hscroll : ∀ q ∈ rest, v.scroll < q.start := fun q hq => by
    have hle := hchain.start_le q hq
    omega
  by_cases hwidth : 0 < v.width
  · have hshown := hpos.mpr hwidth
    rw [marked,if_pos ⟨hheight,hshown⟩]
    have hrects : (∃ e ∈ (v.following rest).2, e.1 = i) ↔ _ :=
      rects_following hheight hwidth hscroll hchain
    simp only [List.singleton_append,List.exists_mem_cons_iff,hrects,hwidth,true_and,hstart,
      and_true]
  · have hlast : ∀ q ∈ rest, v.last ≤ q.start := fun q hq => by
      have hlt := hscroll q hq
      simp only [last]
      omega
    rw [marked,if_neg (by omega),following_of_last hlast]
    simp [hwidth]

/-- Where some are, and just the rest of one pill is left. -/
theorem rects_leading {sep : List (Span Nat Text)} (hchain : Chained (p.stop+1) rest)
    (hheight : 0 < v.height) (hstop : v.scroll < p.stop)
    (hlone : if p.start < v.scroll then v.Takes w (p.start+1) p ∧ (rest = [] ∨ v.last ≤ p.stop+1)
      else v.last ≤ p.start+1) :
    (∃ e ∈ (v.leading sep (p.start+1) p rest).2, e.1 = i) ↔
      p.sessIdx = i ∧ 0 < v.width ∧ p.start < v.scroll := by
  have hlength : (v.shown (p.start+1) p).length = _ := length_shown
  simp only [Pill.stop] at hstop hchain hlone
  have hlast : ∀ q ∈ rest, v.last ≤ q.start := fun q hq => by
    have hle := hchain.start_le q hq
    split at hlone
    · rcases hlone.2 with rfl | hlone
      · cases hq
      · omega
    · omega
  rw [leading]
  by_cases hbefore : p.start < v.scroll
  · have hend : ¬v.last ≤ p.start := by
      simp only [last]
      omega
    have hshown : 0 < (v.shown (p.start+1) p).length ↔ 0 < v.width := by
      simp only [last] at hlength
      omega
    rw [if_neg hend,following_of_last hlast,List.append_nil]
    simp only [mem_marked,hshown,hheight,true_and,hbefore,and_true]
    constructor
    · rintro ⟨e,⟨hwidth,rfl⟩,hi⟩
      exact ⟨hi,hwidth⟩
    · rintro ⟨hi,hwidth⟩
      exact ⟨_,⟨hwidth,rfl⟩,hi⟩
  · rw [if_neg hbefore] at hlone
    refine iff_of_false ?_ fun h => hbefore h.2.2
    split
    · simp
    · rw [following_of_last hlast,marked,if_neg (by omega)]
      simp

theorem rects_line (hchain : Chained 0 pills) (hdistinct : Distinct pills) (hheight : 0 < v.height)
    (hstraight : v.Straight w pills) :
    (∃ e ∈ (v.line pills).2, e.1 = i) ↔ ∃ p ∈ pills, p.sessIdx = i ∧ v.InView pills p := by
  cases pills with
  | nil => simp [line]
  | cons p rest =>
    obtain ⟨hstart,hlabel,hrest⟩ := hchain
    simp only [Straight,noneSkipped_cons hrest] at hstraight
    simp only [InView,noneSkipped_cons hrest]
    rw [line]
    by_cases hskip : p.stop ≤ v.scroll
    · have hnot : ¬v.scroll < p.stop := by omega
      rw [if_neg hnot,LoneRest,List.dropWhile_cons_of_pos (by simpa using hskip)] at hstraight
      simp only [if_pos hskip,hnot,if_false,afterSkipped,List.exists_mem_cons_iff,false_and,
        and_false,false_or]
      cases hdrop : rest.dropWhile (fun q => decide (q.stop ≤ v.scroll)) with
      | nil =>
        have hall := List.dropWhile_eq_nil_iff.mp hdrop
        refine iff_of_false (by simp) ?_
        rintro ⟨q,hq,-,-,hstop,-⟩
        have hle := of_decide_eq_true (hall q hq)
        omega
      | cons q rest' =>
        rw [hdrop] at hstraight
        obtain ⟨hq,hqchain,hqdistinct,hqstop,hall⟩ :=
          dropWhile_chained hrest (List.pairwise_cons.mp hdistinct).2 hdrop
        refine (rects_leading hqchain hheight hqstop hstraight).trans ?_
        constructor
        · rintro ⟨hi,hwidth,hbefore⟩
          have hmem : q ∈ rest := (List.dropWhile_sublist _).subset (hdrop ▸ List.mem_cons_self)
          exact ⟨q,hmem,hi,hwidth,hqstop,hbefore⟩
        · rintro ⟨r,hr,hi,hwidth,hstop,hbefore⟩
          rcases hall r hr with hmem | hle
          · rcases List.mem_cons.mp hmem with rfl | hmem
            · exact ⟨hi,hwidth,hbefore⟩
            · have hle := hqchain.start_le r hmem
              omega
          · omega
    · have hstop : v.scroll < p.stop := by omega
      have hnone := (noneSkipped_cons hrest).mpr hstop
      rw [if_neg hskip,leading]
      simp only [hstop,if_true]
      by_cases hend : v.last ≤ p.start
      · have hwidth : ¬0 < v.width := by
          simp only [last] at hend
          omega
        rw [if_pos hend]
        simp [hwidth]
      · rw [if_neg hend]
        refine (rects_whole hlabel hrest hheight hstop (by omega)).trans ?_
        refine exists_congr fun q => and_congr_right fun hq => ?_
        simp only [hnone q hq,true_and]

theorem text_of_drawn {pen : Pen} {spans : List (Span Nat Text)} {c : Nat}
    (h : w.Drawn pen spans i c) : ∃ s ∈ spans, s.tag = some i ∧ s.text ≠ [] := by
  induction spans generalizing pen with
  | nil => exact h.elim
  | cons s spans ih =>
    rcases h with ⟨htag,hstart,hstop⟩ | h
    · refine ⟨s,List.mem_cons_self,htag,fun htext => ?_⟩
      simp only [Fitting.write,htext,w.fit_nil] at hstop
      omega
    · obtain ⟨s',hs,htext⟩ := ih h
      exact ⟨s',List.mem_cons_of_mem _ hs,htext⟩

end rects

end Viewport

namespace StripState

variable {s : StripState} {area : StripArea} {w : LineWidget}

theorem pillLabel_ne_nil (i : Nat) (name : Text) (rollup : Option SidebarPane) :
    pillLabel i name rollup ≠ [] := by simp [pillLabel]

theorem label_ne_nil : ∀ e ∈ s.items, e.2 ≠ [] := by
  intro e he
  obtain ⟨⟨sv,i⟩,-,he⟩ := List.mem_filterMap.mp he
  rw [Option.ite_none_right_eq_some,Option.some.injEq] at he
  obtain ⟨-,rfl⟩ := he
  exact pillLabel_ne_nil _ _ _

theorem chained_place {col : Nat} {items : List (Nat × Text)} (h : ∀ e ∈ items, e.2 ≠ []) :
    Chained col (place col items) := by
  induction items generalizing col with
  | nil => trivial
  | cons e rest ih =>
    obtain ⟨hlabel,hrest⟩ := List.forall_mem_cons.mp h
    exact ⟨rfl,hlabel,ih hrest⟩

theorem chained_pills : Chained 0 s.pills := chained_place label_ne_nil

theorem map_place {col : Nat} {items : List (Nat × Text)} :
    (place col items).map Pill.sessIdx = items.map Prod.fst := by
  induction items generalizing col with
  | nil => rfl
  | cons e rest ih => simp [place,ih]

theorem mem_items {i : Nat} :
    i ∈ s.items.map Prod.fst ↔
      ∃ sv, s.sessions[i]? = some sv ∧ sessionIsLive sv.view s.slots = true := by
  simp only [List.mem_map,items,List.mem_filterMap]
  constructor
  · rintro ⟨e,⟨⟨sv,j⟩,hj,he⟩,rfl⟩
    rw [Option.ite_none_right_eq_some,Option.some.injEq] at he
    obtain ⟨hlive,rfl⟩ := he
    exact ⟨sv,List.mem_zipIdx_iff_getElem?.mp hj,hlive⟩
  · rintro ⟨sv,hi,hlive⟩
    exact ⟨_,⟨(sv,i),List.mem_zipIdx_iff_getElem?.mpr hi,if_pos hlive⟩,rfl⟩

theorem distinct_pills : Distinct s.pills := by
  have hzip : s.sessions.zipIdx.Pairwise fun e f => e.2 ≠ f.2 := by
    refine List.pairwise_map.mp ?_
    rw [List.zipIdx_map_snd]
    exact List.nodup_range'
  have hitems : (s.items.map Prod.fst).Nodup := by
    refine List.pairwise_map.mpr (hzip.filterMap _ ?_)
    intro e f hne a ha b hb
    rw [Option.ite_none_right_eq_some,Option.some.injEq] at ha hb
    obtain ⟨-,rfl⟩ := ha
    obtain ⟨-,rfl⟩ := hb
    exact hne
  have hmap : s.pills.map Pill.sessIdx = s.items.map Prod.fst := map_place
  rw [← hmap] at hitems
  exact List.pairwise_map.mp hitems

theorem mem_pills {i : Nat} :
    (∃ p ∈ s.pills, p.sessIdx = i) ↔
      ∃ sv, s.sessions[i]? = some sv ∧ sessionIsLive sv.view s.slots = true := by
  have hmap : s.pills.map Pill.sessIdx = s.items.map Prod.fst := map_place
  rw [← mem_items,← hmap,List.mem_map]

theorem viewport_fits :
    area.x ≤ (s.viewport area).startCol ∧
      (s.viewport area).startCol+(s.viewport area).width ≤ area.x+area.width := by
  have hwide := area.wide
  have hleft : leftReserved (s.scrolled area.width) ≤ 1 := by
    unfold leftReserved
    split <;> omega
  simp only [viewport]
  omega

theorem render_eq (h : area.width+s.scroll ≤ usizeMax) :
    ∃ out, s.renderSessionStrip area = some out ∧
      out.rects = ((s.viewport area).line s.pills).2 ∧
      (∃ plus, out.spans = ((s.viewport area).line s.pills).1 ++ plus ∧ ∀ t ∈ plus, t.tag = none) ∧
      out.content = ⟨(s.viewport area).startCol,(s.viewport area).y,(s.viewport area).width,
        (s.viewport area).height⟩ := by
  have hfit : (s.viewport area).startCol+(s.viewport area).width ≤ u16Max :=
    viewport_fits.2.trans area.right_le
  have hchain : Chained 0 s.pills := chained_pills
  obtain ⟨vxEnd,hdraw⟩ := Viewport.drawPills_eq hfit hchain
  obtain ⟨plus,rect,hplus,htags⟩ := Viewport.drawPlus_isSome hfit s.plusX vxEnd
  rw [renderSessionStrip,if_pos h]
  simp only [hdraw,hplus,Option.bind_eq_bind,Option.bind_some,Option.pure_def,Option.some.injEq,
    exists_eq_left']
  exact ⟨trivial,⟨plus,rfl,htags⟩,trivial⟩

/-- What a click on the strip is to hit, where the second pass has written the line. -/
theorem hitsDrawn_iff {v : Viewport} {out : Strip} (hv : v = s.viewport area)
    (hrects : out.rects = (v.line s.pills).2)
    (hspans : ∃ plus, out.spans = (v.line s.pills).1 ++ plus ∧ ∀ t ∈ plus, t.tag = none)
    (hcontent : out.content = ⟨v.startCol,v.y,v.width,v.height⟩) :
    out.HitsDrawn w s area ↔
      Viewport.Covers w (v.penAt 0) (v.line s.pills) ∧
        ∀ p ∈ s.pills, p.sessIdx = s.activeSession →
          ∃ e ∈ (v.line s.pills).2, e.1 = s.activeSession := by
  obtain ⟨plus,hspans,hplus⟩ := hspans
  have hsound : v.Sound s.pills (v.line s.pills) := Viewport.sound_line
  have hdraws : ∀ i col row, out.Draws w i col row ↔
      0 < v.height ∧ row = v.y ∧ w.Drawn (v.penAt 0) (v.line s.pills).1 i col := by
    intro i col row
    have hpen : v.penAt 0 = ⟨v.startCol,v.width⟩ := by simp [Viewport.penAt]
    rw [Strip.Draws,hcontent,hspans,hpen,Fitting.drawn_append fun t ht => by rw [hplus t ht]; simp]
  have hcontains : ∀ e ∈ out.rects, ∀ col row,
      e.2.Contains col row ↔ row = v.y ∧ e.2.x ≤ col ∧ col < e.2.x+e.2.width := by
    intro e he col row
    obtain ⟨-,hy,hone,-⟩ := hsound.shape e (hrects ▸ he)
    rw [StripRect.Contains,hy,hone]
    omega
  have hcovers : Viewport.Covers w (v.penAt 0) (v.line s.pills) ↔
      ∀ e ∈ out.rects, ∀ col row, e.2.Contains col row ↔ out.Draws w e.1 col row := by
    rw [Viewport.Covers,Fitting.Covers,hrects,List.forall_mem_map]
    refine forall₂_congr fun e he => forall_congr' fun col => ?_
    have hheight := (hsound.shape e he).1
    simp only [hcontains e (hrects ▸ he),hdraws,hheight,true_and]
    exact ⟨fun h row => and_congr_right fun _ => h,fun h => by simpa [Viewport.markOf] using h v.y⟩
  rw [hcovers]
  constructor
  · intro h
    refine ⟨h.covers,fun p hp hactive => ?_⟩
    obtain ⟨sv,hsv,hlive⟩ := mem_pills.mp ⟨p,hp,hactive⟩
    obtain ⟨col,row,hdrawn⟩ := h.active sv hsv hlive
    obtain ⟨hheight,-,hdrawn⟩ := (hdraws _ _ _).mp hdrawn
    obtain ⟨t,ht,htag,htext⟩ := Viewport.text_of_drawn hdrawn
    exact hsound.marked hheight t ht _ htag htext
  · rintro ⟨hcov,hactive⟩
    refine ⟨hcov,?_,fun e he col row hin => ?_,fun sv hsv hlive => ?_⟩
    · have hnodup : (out.rects.map Prod.fst).Nodup := by
        rw [hrects]
        exact hsound.order.nodup (List.pairwise_map.mpr distinct_pills)
      refine (List.pairwise_map.mp hnodup).imp_of_mem fun he hf hne col row hboth => ?_
      have hdrawnE := ((hdraws _ _ _).mp ((hcov _ he col row).mp hboth.1)).2.2
      have hdrawnF := ((hdraws _ _ _).mp ((hcov _ hf col row).mp hboth.2)).2.2
      exact hne (hdrawnE.unique hdrawnF)
    · obtain ⟨hrow,-⟩ := (hcontains e he col row).mp hin
      obtain ⟨hheight,-,hdrawn⟩ := (hdraws _ _ _).mp ((hcov e he col row).mp hin)
      have hbounds := hdrawn.bounds
      have hfits : area.x ≤ v.startCol ∧ v.startCol+v.width ≤ area.x+area.width :=
        hv ▸ viewport_fits
      simp only [Viewport.penAt] at hbounds
      have hy : v.y = area.y := by rw [hv]; rfl
      have hh : v.height = area.height := by rw [hv]; rfl
      refine ⟨?_,?_,?_,?_⟩ <;> omega
    · obtain ⟨p,hp,hi⟩ := mem_pills.mpr ⟨sv,hsv,hlive⟩
      obtain ⟨e,he,hidx⟩ := hactive p hp hi
      obtain ⟨hheight,-,-,hwide⟩ := hsound.shape e he
      refine ⟨e.2.x,v.y,?_⟩
      rw [← hidx,← hcov e (hrects ▸ he)]
      exact (hcontains e (hrects ▸ he) _ _).mpr ⟨rfl,le_rfl,by omega⟩

/-- The strip is drawn straight, and the active session's pill is in view. -/
def Fits (w : LineWidget) (s : StripState) (area : StripArea) : Prop :=
  area.width+s.scroll ≤ usizeMax ∧
    if 0 < area.height then
      (s.viewport area).Straight w s.pills ∧
        ∀ p ∈ s.pills, p.sessIdx = s.activeSession → (s.viewport area).InView s.pills p
    else ∀ p ∈ s.pills, p.sessIdx ≠ s.activeSession

theorem clicksHit_iff (w : LineWidget) (s : StripState) (area : StripArea) :
    s.ClicksHit w area ↔ s.Fits w area := by
  unfold ClicksHit Fits
  by_cases hscroll : area.width+s.scroll ≤ usizeMax
  swap
  · have hpanic : s.renderSessionStrip area = none := if_neg hscroll
    simp [hpanic,hscroll]
  obtain ⟨out,hrender,hrects,hspans,hcontent⟩ := render_eq hscroll
  have hchain : Chained 0 s.pills := chained_pills
  have hout : (∃ out', s.renderSessionStrip area = some out' ∧ out'.HitsDrawn w s area) ↔
      out.HitsDrawn w s area := by simp [hrender]
  rw [hout,hitsDrawn_iff rfl hrects hspans hcontent]
  simp only [hscroll,true_and]
  by_cases hheight : 0 < area.height
  · rw [if_pos hheight,Viewport.covers_line hchain distinct_pills hheight]
    refine and_congr_right fun hstraight => ?_
    have hshown : (∃ e ∈ ((s.viewport area).line s.pills).2, e.1 = s.activeSession) ↔ _ :=
      Viewport.rects_line hchain distinct_pills hheight hstraight
    rw [hshown]
    constructor
    · intro h p hp hactive
      obtain ⟨q,hq,hi,hview⟩ := h p hp hactive
      have hnodup : (s.pills.map Pill.sessIdx).Nodup := List.pairwise_map.mpr distinct_pills
      rwa [List.inj_on_of_nodup_map hnodup hp hq (hactive.trans hi.symm)]
    · exact fun h p hp hactive => ⟨p,hp,hactive,h p hp hactive⟩
  · have hnone : ((s.viewport area).line s.pills).2 = [] :=
      List.eq_nil_iff_forall_not_mem.mpr fun e he => hheight (Viewport.sound_line.shape e he).1
    rw [if_neg hheight,Viewport.Covers,hnone]
    simp [Fitting.Covers]

/-- Three sessions with a pane each, of which the last is active. -/
def threeSessions : StripState where
  sessions := [⟨.newSinglePane ⟨1⟩ ⟨1⟩,['a']⟩,⟨.newSinglePane ⟨2⟩ ⟨2⟩,['b']⟩,
    ⟨.newSinglePane ⟨3⟩ ⟨3⟩,['c']⟩]
  activeSession := 2
  slots := [some ⟨1⟩,some ⟨2⟩,some ⟨3⟩]
  sidebar := []
  scroll := 0

def topRow (width : Nat) (h : 0 < width ∧ width ≤ u16Max) : StripArea :=
  ⟨⟨0,0,width,1⟩,h.1,by simpa using h.2⟩

theorem clicksHit_iff_wide : threeSessions.ClicksHit .plain (topRow 40 (by decide)) := by
  refine (clicksHit_iff _ _ _).mpr ⟨by decide,?_⟩
  rw [if_pos (by decide),Viewport.Straight,if_pos (by decide)]
  unfold Viewport.Laid Viewport.Takes Viewport.Whole Viewport.InView
  decide

/-- The second pill is drawn a column to the left of its rectangle. -/
theorem shifted_rect :
    ¬∀ (w : LineWidget) (s : StripState) (area : StripArea), s.ClicksHit w area := by
  intro h
  obtain ⟨out,hrender,hhits⟩ := h .plain threeSessions (topRow 12 (by decide))
  have hline : (threeSessions.renderSessionStrip (topRow 12 (by decide))).map
      (fun o => (o.rects,o.spans,o.content)) =
      some ([(1,⟨2,0,5,1⟩),(2,⟨7,0,4,1⟩)],[⟨some 1," 2 b ".toList⟩,⟨none,[' ']⟩,
        ⟨some 2," 3 c".toList⟩],⟨1,0,10,1⟩) := by decide
  rw [hrender,Option.map_some,Option.some.injEq,Prod.mk.injEq,Prod.mk.injEq] at hline
  obtain ⟨hrects,hspans,hcontent⟩ := hline
  have hcovers := hhits.covers (1,⟨2,0,5,1⟩) (by simp [hrects]) 6 0
  have hdrawn := (hcovers.mp (by decide)).2.2
  rw [hspans,hcontent] at hdrawn
  revert hdrawn
  decide

end StripState

end Pyre.Tui
