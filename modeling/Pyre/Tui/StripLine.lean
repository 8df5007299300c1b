import Mathlib.Data.List.TakeWhile
import Pyre.Tui.SessionStrip

/-!
What the second pass of the strip writes: no column overflows, and the line and its rectangles
depend only on the view and on the pills.
-/

set_option autoImplicit false

namespace Pyre.Tui
open Base Events

theorem toU16_of_le {n : Nat} (h : n ≤ u16Max) : toU16 n = n :=
  Nat.mod_eq_of_lt (Nat.lt_succ_of_le h)

/-- Each pill begins a column after the one before it ends. -/
def Chained : Nat → List Pill → Prop
  | _, [] => True
  | col, p :: rest => p.start = col ∧ p.label ≠ [] ∧ Chained (p.stop+1) rest

/-- No two pills are of one session. -/
def Distinct (pills : List Pill) : Prop := pills.Pairwise fun p q => p.sessIdx ≠ q.sessIdx

theorem Chained.start_le {col : Nat} {pills : List Pill} (h : Chained col pills) :
    ∀ p ∈ pills, col ≤ p.start := by
  induction pills generalizing col with
  | nil => simp
  | cons q rest ih =>
    obtain ⟨rfl,-,hrest⟩ := h
    intro p hp
    rcases List.mem_cons.mp hp with rfl | hp
    · exact le_rfl
    · have hle := ih hrest p hp
      simp only [Pill.stop] at hle
      omega

namespace Viewport

variable (v : Viewport)

/-- The part of a label that is in view, where the second pass takes the pill to begin at `vx`. -/
def shown (vx : Nat) (p : Pill) : Text :=
  (p.label.take (min (v.last-vx) p.label.length)).drop (v.scroll-vx)

def rectAt (vx : Nat) (p : Pill) : StripRect :=
  ⟨v.startCol+(vx-v.scroll),v.y,(v.shown vx p).length,1⟩

def marked (vx : Nat) (p : Pill) : List (Nat × StripRect) :=
  if 0 < v.height ∧ 0 < (v.shown vx p).length then [(p.sessIdx,v.rectAt vx p)] else []

/-- The line on from a pill that was shown. -/
def following : List Pill → List (Span Nat Text) × List (Nat × StripRect)
  | [] => ([],[])
  | p :: rest =>
    if v.last ≤ p.start then ([],[])
    else (separator :: ⟨some p.sessIdx,v.shown p.start p⟩ :: (following rest).1,
      v.marked p.start p ++ (following rest).2)

/-- The line from the first pill in view, which is taken to begin at `vx`. -/
def leading (sep : List (Span Nat Text)) (vx : Nat) (p : Pill) (rest : List Pill) :
    List (Span Nat Text) × List (Nat × StripRect) :=
  if v.last ≤ p.start then ([],[])
  else (sep ++ ⟨some p.sessIdx,v.shown vx p⟩ :: (v.following rest).1,
    v.marked vx p ++ (v.following rest).2)

/-- After a pill that is scrolled off, the column between it and the next one is counted twice. -/
def afterSkipped (pills : List Pill) : List (Span Nat Text) × List (Nat × StripRect) :=
  match pills.dropWhile fun p => p.stop ≤ v.scroll with
  | [] => ([],[])
  | p :: rest => v.leading (if v.scroll < p.start then [separator] else []) (p.start+1) p rest

def line : List Pill → List (Span Nat Text) × List (Nat × StripRect)
  | [] => ([],[])
  | p :: rest => if p.stop ≤ v.scroll then v.afterSkipped rest else v.leading [] p.start p rest

variable {v} {p : Pill} {pills : List Pill} {vx idx : Nat}

theorem length_shown : (v.shown vx p).length = min (v.last-vx) p.label.length-(v.scroll-vx) := by
  simp [shown]

theorem clip_eq (hfit : v.startCol+v.width ≤ u16Max) (hstop : v.scroll < p.stop)
    (hstart : p.start < v.last) (hvx : p.start ≤ vx) (hvx' : vx ≤ p.start+1) :
    v.clip vx p = some (v.shown vx p,v.rectAt vx p) := by
  have hlength : (v.shown vx p).length = _ := length_shown
  simp only [Pill.stop,last] at hstop hstart hlength
  have hslice : v.scroll-vx ≤ min (v.last-vx) p.label.length ∧
      min (v.last-vx) p.label.length ≤ p.label.length := by
    simp only [last]
    omega
  have hx : vx+(v.scroll-vx)-v.scroll = vx-v.scroll := by omega
  have hcol : v.startCol+(vx-v.scroll) ≤ u16Max := by omega
  have hwidth : (v.shown vx p).length ≤ u16Max := by omega
  have hcast := toU16_of_le (Nat.le_of_add_left_le hcol)
  simp only [clip,slice,if_pos hslice,addCols,hx,hcast,if_pos hcol]
  simp only [Option.bind_eq_bind,Option.bind_some,Option.pure_def,rectAt]
  rw [← shown,toU16_of_le hwidth]

theorem sepBefore_eq (hfit : v.startCol+v.width ≤ u16Max) (hvx : vx ≤ v.last) :
    v.sepBefore idx vx = some (if 0 < idx ∧ v.scroll < vx then [separator] else []) := by
  unfold sepBefore
  split
  · simp only [last] at hvx
    have hcol : v.startCol+(vx-v.scroll) ≤ u16Max := by omega
    rw [toU16_of_le (Nat.le_of_add_left_le hcol),addCols,if_pos hcol,Option.map_some]
  · rfl

/-- One pill in view. -/
theorem drawPills_cons {rest : List Pill} {spans : List (Span Nat Text)}
    {rects : List (Nat × StripRect)} {vxEnd : Nat} (hfit : v.startCol+v.width ≤ u16Max)
    (hstop : v.scroll < p.stop) (hstart : p.start < v.last)
    (hvx : (if 0 < idx then vx+1 else vx) = p.start ∨ (if 0 < idx then vx+1 else vx) = p.start+1)
    (hrest : v.drawPills (idx+1) p.stop rest = some ⟨spans,rects,vxEnd⟩) :
    v.drawPills idx vx (p :: rest) =
      some ⟨(if 0 < idx ∧ v.scroll < vx then [separator] else []) ++
          ⟨some p.sessIdx,v.shown (if 0 < idx then vx+1 else vx) p⟩ :: spans,
        v.marked (if 0 < idx then vx+1 else vx) p ++ rects,vxEnd⟩ := by
  have hle : vx ≤ v.last := by
    split at hvx <;> omega
  have hclip : v.clip (if 0 < idx then vx+1 else vx) p = _ :=
    clip_eq hfit hstop hstart (by omega) (by omega)
  rw [drawPills,if_neg (by omega),if_neg (by omega),sepBefore_eq hfit hle,hclip,hrest]
  rfl

theorem drawPills_following (hfit : v.startCol+v.width ≤ u16Max) (hvx : v.scroll < vx)
    (hidx : 0 < idx) (hchain : Chained (vx+1) pills) :
    ∃ vxEnd, v.drawPills idx vx pills =
      some ⟨(v.following pills).1,(v.following pills).2,vxEnd⟩ := by
  induction pills generalizing idx vx with
  | nil => exact ⟨vx,rfl⟩
  | cons p rest ih =>
    obtain ⟨hstart,-,hrest⟩ := hchain
    have hstop : v.scroll < p.stop := by
      simp only [Pill.stop]
      omega
    by_cases hend : v.last ≤ p.start
    · refine ⟨vx,?_⟩
      rw [drawPills,if_neg (by omega),if_pos hend,following,if_pos hend]
    · obtain ⟨vxEnd,hdraw⟩ := ih hstop idx.succ_pos hrest
      refine ⟨vxEnd,?_⟩
      rw [drawPills_cons hfit hstop (by omega) (.inl (by rw [if_pos hidx,hstart])) hdraw,following,
        if_neg hend,if_pos hidx,if_pos ⟨hidx,hvx⟩,hstart]
      rfl

theorem drawPills_skipped (hfit : v.startCol+v.width ≤ u16Max) (hidx : 0 < idx)
    (hchain : Chained vx pills) :
    ∃ vxEnd, v.drawPills idx vx pills =
      some ⟨(v.afterSkipped pills).1,(v.afterSkipped pills).2,vxEnd⟩ := by
  induction pills generalizing idx vx with
  | nil => exact ⟨vx,rfl⟩
  | cons p rest ih =>
    obtain ⟨hstart,-,hrest⟩ := hchain
    by_cases hskip : p.stop ≤ v.scroll
    · rw [drawPills,if_pos hskip,afterSkipped,List.dropWhile_cons_of_pos (by simpa using hskip),
        ← afterSkipped]
      cases rest with
      | nil => exact ⟨_,rfl⟩
      | cons q rest => exact ih idx.succ_pos hrest
    · rw [afterSkipped,List.dropWhile_cons_of_neg (by simpa using hskip)]
      simp only [leading]
      by_cases hend : v.last ≤ p.start
      · refine ⟨vx,?_⟩
        rw [drawPills,if_neg hskip,if_pos hend,if_pos hend]
      · obtain ⟨vxEnd,hdraw⟩ := drawPills_following hfit (by omega) idx.succ_pos hrest
        refine ⟨vxEnd,?_⟩
        rw [drawPills_cons hfit (by omega) (by omega) (.inr (by rw [if_pos hidx,hstart])) hdraw,
          if_neg hend,if_pos hidx,hstart]
        simp only [hidx,true_and]

theorem drawPills_eq (hfit : v.startCol+v.width ≤ u16Max) (hchain : Chained 0 pills) :
    ∃ vxEnd, v.drawPills 0 0 pills = some ⟨(v.line pills).1,(v.line pills).2,vxEnd⟩ := by
  cases pills with
  | nil => exact ⟨0,rfl⟩
  | cons p rest =>
    obtain ⟨hstart,-,hrest⟩ := hchain
    rw [line]
    by_cases hskip : p.stop ≤ v.scroll
    · rw [drawPills,if_pos hskip,if_pos hskip]
      cases rest with
      | nil => exact ⟨_,rfl⟩
      | cons q rest => exact drawPills_skipped hfit Nat.one_pos hrest
    · rw [if_neg hskip,leading]
      by_cases hend : v.last ≤ p.start
      · refine ⟨0,?_⟩
        rw [drawPills,if_neg hskip,if_pos hend,if_pos hend]
      · obtain ⟨vxEnd,hdraw⟩ := drawPills_following hfit (by omega) Nat.one_pos hrest
        refine ⟨vxEnd,?_⟩
        rw [drawPills_cons hfit (by omega) (by omega) (.inl (by simpa using hstart.symm)) hdraw,
          if_neg hend,hstart]
        rfl

theorem drawPlus_isSome (hfit : v.startCol+v.width ≤ u16Max) (plusX vx : Nat) :
    ∃ spans rect, v.drawPlus plusX vx = some (spans,rect) ∧ ∀ s ∈ spans, s.tag = none := by
  unfold drawPlus
  split
  · rename_i h
    obtain ⟨-,hscroll,hlast⟩ := h
    simp only [last] at hlast
    have hcol : v.startCol+(plusX-v.scroll) ≤ u16Max := by omega
    have hslice : v.scroll-plusX ≤ min (v.last-plusX) 3 ∧
        min (v.last-plusX) 3 ≤ plusLabel.length := by
      have hlength : plusLabel.length = 3 := rfl
      simp only [last]
      omega
    rw [toU16_of_le (Nat.le_of_add_left_le hcol),addCols,if_pos hcol,slice,if_pos hslice]
    refine ⟨_,_,rfl,fun s hs => ?_⟩
    rcases List.mem_append.mp hs with hs | hs
    · split at hs
      · rw [List.mem_singleton.mp hs]
        rfl
      · cases hs
    · rw [List.mem_singleton.mp hs]
  · exact ⟨[],none,rfl,by simp⟩

theorem mem_marked {e : Nat × StripRect} :
    e ∈ v.marked vx p ↔
      (0 < v.height ∧ 0 < (v.shown vx p).length) ∧ e = (p.sessIdx,v.rectAt vx p) := by
  unfold marked
  split <;> simp [*]

/-- What the pass makes of the pills, wherever it is in them. -/
structure Sound (v : Viewport) (pills : List Pill)
    (l : List (Span Nat Text) × List (Nat × StripRect)) : Prop where
  tags : ∀ s ∈ l.1, ∀ i, s.tag = some i → i ∈ pills.map Pill.sessIdx
  order : (l.2.map Prod.fst).Sublist (pills.map Pill.sessIdx)
  shape : ∀ e ∈ l.2, 0 < v.height ∧ e.2.y = v.y ∧ e.2.height = 1 ∧ 0 < e.2.width
  marked : 0 < v.height → ∀ s ∈ l.1, ∀ i, s.tag = some i → s.text ≠ [] → ∃ e ∈ l.2, e.1 = i

theorem sound_nil : v.Sound pills ([],[]) := ⟨by simp,List.nil_sublist _,by simp,by simp⟩

theorem Sound.leading {sep : List (Span Nat Text)} {rest : List Pill}
    (h : v.Sound rest (v.following rest)) (hsep : ∀ s ∈ sep, s.tag = none) :
    v.Sound (p :: rest) (v.leading sep vx p rest) := by
  rw [Viewport.leading]
  split
  · exact sound_nil
  have hmem : ∀ s ∈ sep ++ ⟨some p.sessIdx,v.shown vx p⟩ :: (v.following rest).1, ∀ i,
      s.tag = some i → s = ⟨some i,v.shown vx p⟩ ∧ i = p.sessIdx ∨ s ∈ (v.following rest).1 := by
    intro s hs i htag
    rcases List.mem_append.mp hs with hs | hs
    · rw [hsep s hs] at htag
      cases htag
    · rcases List.mem_cons.mp hs with rfl | hs
      · obtain rfl := Option.some.inj htag
        exact .inl ⟨rfl,rfl⟩
      · exact .inr hs
  refine ⟨fun s hs i htag => ?_,?_,fun e he => ?_,fun hheight s hs i htag htext => ?_⟩
  · rcases hmem s hs i htag with ⟨-,rfl⟩ | hs
    · exact List.mem_cons_self
    · exact List.mem_cons_of_mem _ (h.tags s hs i htag)
  · rw [Viewport.marked]
    split
    · exact h.order.cons_cons _
    · exact h.order.cons _
  · rcases List.mem_append.mp he with he | he
    · obtain ⟨⟨hheight,hshown⟩,rfl⟩ := mem_marked.mp he
      exact ⟨hheight,rfl,rfl,hshown⟩
    · exact h.shape e he
  · rcases hmem s hs i htag with ⟨rfl,rfl⟩ | hs
    · have he := mem_marked.mpr ⟨⟨hheight,List.length_pos_iff.mpr htext⟩,rfl⟩
      exact ⟨_,List.mem_append_left _ he,rfl⟩
    · obtain ⟨e,he,hi⟩ := h.marked hheight s hs i htag htext
      exact ⟨e,List.mem_append_right _ he,hi⟩

theorem Sound.mono {l : List (Span Nat Text) × List (Nat × StripRect)} {more : List Pill}
    (h : v.Sound pills l) (hsub : pills.Sublist more) : v.Sound more l :=
  ⟨fun s hs i htag => (hsub.map _).subset (h.tags s hs i htag),h.order.trans (hsub.map _),h.shape,
    h.marked⟩

theorem sound_following : v.Sound pills (v.following pills) := by
  induction pills with
  | nil => exact sound_nil
  | cons p rest ih =>
    change v.Sound _ (v.leading [separator] p.start p rest)
    exact ih.leading fun s hs => by rw [List.mem_singleton.mp hs]; rfl

theorem sound_line : v.Sound pills (v.line pills) := by
  cases pills with
  | nil => exact sound_nil
  | cons p rest =>
    rw [line]
    split
    · rw [afterSkipped]
      split
      · exact sound_nil
      · rename_i q rest' hdrop
        have hsub : (q :: rest').Sublist rest := hdrop ▸ List.dropWhile_sublist _
        refine (Sound.leading sound_following fun s hs => ?_).mono (hsub.cons _)
        split at hs
        · rw [List.mem_singleton.mp hs]
          rfl
        · cases hs
    · exact Sound.leading sound_following (by simp)

end Viewport

end Pyre.Tui
