import Mathlib.Algebra.Order.Ring.Rat
import Mathlib.Algebra.Order.Group.Abs
import Mathlib.Data.List.MinMax
import Pyre.Gui.Focus
import Pyre.Layout.FocusDir

/-!
The focus of the GUI moved by a key to the nearest card in a direction. The layouts are filed
under their windows; the key looks for one under the session.
-/

set_option autoImplicit false

namespace Pyre.Gui
open Base

/-- What `getBoundingClientRect` gives. -/
structure DomRect where
  left : ℚ
  top : ℚ
  width : ℚ
  height : ℚ

/-- The card that is found for a pane, with its rectangle. -/
abbrev Cards := PaneId → Option DomRect

namespace DomRect

def cx (r : DomRect) : ℚ := r.left+r.width/2

def cy (r : DomRect) : ℚ := r.top+r.height/2

def tol : ℚ := 4

/-- The centre lies in the half-plane. -/
def InDir (cur r : DomRect) : Dir → Prop
  | .left => r.cx-cur.cx < -tol
  | .right => r.cx-cur.cx > tol
  | .up => r.cy-cur.cy < -tol
  | .down => r.cy-cur.cy > tol

instance (cur r : DomRect) : (dir : Dir) → Decidable (cur.InDir r dir)
  | .left | .right | .up | .down => inferInstanceAs (Decidable (_ < _))

def score (cur r : DomRect) : Dir → ℚ
  | .left | .right => |r.cx-cur.cx|+2*|r.cy-cur.cy|
  | .up | .down => |r.cy-cur.cy|+2*|r.cx-cur.cx|

end DomRect

/-- The entry of a pane in the map of the rectangles. -/
def rectOf (card : Cards) (panes : List PaneId) (pane : PaneId) : Option DomRect :=
  if pane ∈ panes then card pane else none

/-- The entries in the order in which they were made, without that of the focused pane, as far as
they lie in the direction. -/
def inDirection (card : Cards) (panes : List PaneId) (cur : PaneId) (origin : DomRect) (dir : Dir) :
    List (PaneId × DomRect) :=
  (panes.eraseDups.filterMap fun pane => (card pane).map fun r => (pane,r)).filter
    fun e => e.1 ≠ cur ∧ origin.InDir e.2 dir

namespace Store

def doFocus (s : Store) (pane : Option PaneId) : Store :=
  match pane with
  | some pane => s.focusPane pane
  | none => s

/-- A session's id is taken for a window's. -/
def panesUnder (s : Store) (session : SessionId) : List PaneId :=
  leafPanes (s.layouts.lookup ⟨session.uuid⟩)

def focusInDirection (s : Store) (card : Cards) (dir : Dir) : Store :=
  match s.activeSession with
  | none => s
  | some session =>
    if s.zoomedPane.isSome then s
    else
      let panes := s.panesUnder session
      if panes.length < 2 then s
      else
        match s.focusedPane.bind fun cur => (rectOf card panes cur).map fun r => (cur,r) with
        | none => s.doFocus (panes.find? fun pane => (rectOf card panes pane).isSome)
        | some (cur,r) =>
          s.doFocus (((inDirection card panes cur r dir).argmin fun e => r.score e.2 dir).map (·.1))

/-- Another visible pane lies in the direction. -/
def Ahead (s : Store) (card : Cards) (cur : PaneId) (origin : DomRect) (dir : Dir) (pane : PaneId)
    (r : DomRect) : Prop :=
  pane ∈ s.shownPanes ∧ pane ≠ cur ∧ card pane = some r ∧ origin.InDir r dir

/-- A key is to move the focus to a nearest pane ahead, and never out of the active window. -/
structure FocusesAhead (s : Store) (card : Cards) (dir : Dir) : Prop where
  reaches : ∀ cur origin, s.focusedPane = some cur → cur ∈ s.shownPanes → card cur = some origin →
    (∃ pane r, s.Ahead card cur origin dir pane r) →
      ∃ pane r, (s.focusInDirection card dir).focusedPane = some pane ∧
        s.Ahead card cur origin dir pane r ∧
          ∀ other r', s.Ahead card cur origin dir other r' →
            origin.score r dir ≤ origin.score r' dir
  inside : ∀ pane, (s.focusInDirection card dir).focusedPane = some pane →
    s.focusedPane = some pane ∨ pane ∈ s.shownPanes

/-- What is filed under the session is as good as the active window: it has no other panes than
that, but for the focused one, and where that is shown it has the other panes, with the focused
one or alone. -/
structure FiledAlike (s : Store) (session : SessionId) : Prop where
  inside : 2 ≤ (s.panesUnder session).length → ∀ pane ∈ s.panesUnder session,
    s.focusedPane ≠ some pane → pane ∈ s.shownPanes
  whole : ∀ cur ∈ s.shownPanes, s.focusedPane = some cur → ∀ pane ∈ s.shownPanes, pane ≠ cur →
    2 ≤ (s.panesUnder session).length ∧ pane ∈ s.panesUnder session ∧
      (cur ∈ s.panesUnder session ∨ ∀ other ∈ s.panesUnder session, other = pane)

/-! Where the focus goes. -/

variable {s : Store} {session : SessionId} {card : Cards} {dir : Dir} {cur pane : PaneId}
  {origin r : DomRect}

theorem focusInDirection_idle (hs : s.activeSession = some session)
    (hfew : (s.panesUnder session).length < 2) : s.focusInDirection card dir = s := by
  simp only [focusInDirection,hs]
  split_ifs
  · rfl
  · rfl

/-- The focused pane has no entry. -/
theorem focusInDirection_first (hs : s.activeSession = some session) (hz : s.zoomedPane = none)
    (hmany : 2 ≤ (s.panesUnder session).length)
    (hcur : ∀ cur, s.focusedPane = some cur → rectOf card (s.panesUnder session) cur = none) :
    s.focusInDirection card dir = s.doFocus ((s.panesUnder session).find?
      fun pane => (rectOf card (s.panesUnder session) pane).isSome) := by
  have hnone : (s.focusedPane.bind fun cur =>
      (rectOf card (s.panesUnder session) cur).map fun r => (cur,r)) = none := by
    cases hfocus : s.focusedPane with
    | none => rfl
    | some cur => rw [Option.bind_some,hcur cur hfocus]; rfl
  simp only [focusInDirection,hs,hz,hnone,Option.isSome_none,Bool.false_eq_true,if_false,
    if_neg (Nat.not_lt.mpr hmany)]

theorem focusInDirection_nearest (hs : s.activeSession = some session) (hz : s.zoomedPane = none)
    (hmany : 2 ≤ (s.panesUnder session).length) (hcur : s.focusedPane = some cur)
    (hrect : rectOf card (s.panesUnder session) cur = some origin) :
    s.focusInDirection card dir = s.doFocus
      (((inDirection card (s.panesUnder session) cur origin dir).argmin
        fun e => origin.score e.2 dir).map (·.1)) := by
  simp only [focusInDirection,hs,hz,hcur,hrect,Option.isSome_none,Bool.false_eq_true,if_false,
    if_neg (Nat.not_lt.mpr hmany),Option.bind_some,Option.map_some]

theorem mem_inDirection {panes : List PaneId} :
    (pane,r) ∈ inDirection card panes cur origin dir ↔
      pane ∈ panes ∧ card pane = some r ∧ pane ≠ cur ∧ origin.InDir r dir := by
  simp [inDirection,List.mem_eraseDups,and_assoc]

theorem rectOf_eq_some {panes : List PaneId} :
    rectOf card panes pane = some r ↔ pane ∈ panes ∧ card pane = some r := by
  simp [rectOf]

theorem focusedPane_doFocus {target : Option PaneId}
    (h : (s.doFocus target).focusedPane = some pane) (hne : s.focusedPane ≠ some pane) : target = some pane := by
  cases target with
  | none => exact absurd h hne
  | some other => exact h

theorem FiledAlike.ahead (h : s.FiledAlike session) (hmany : 2 ≤ (s.panesUnder session).length)
    (hcur : s.focusedPane = some cur)
    (hmem : (pane,r) ∈ inDirection card (s.panesUnder session) cur origin dir) :
    s.Ahead card cur origin dir pane r := by
  obtain ⟨hpane,hcard,hne,hdir⟩ := mem_inDirection.mp hmem
  refine ⟨h.inside hmany pane hpane ?_,hne,hcard,hdir⟩
  rw [hcur]
  exact fun heq => hne (Option.some.inj heq).symm

/-- The focused pane has an entry: the candidates are those that lie ahead. -/
theorem FiledAlike.nearest (h : s.FiledAlike session) (hs : s.activeSession = some session)
    (hz : s.zoomedPane = none) (hmany : 2 ≤ (s.panesUnder session).length)
    (hcur : s.focusedPane = some cur)
    (hrect : rectOf card (s.panesUnder session) cur = some origin) : s.FocusesAhead card dir := by
  have hto : s.focusInDirection card dir = _ := focusInDirection_nearest hs hz hmany hcur hrect
  constructor
  · intro cur' origin' hcur' hshown hcard hahead
    obtain rfl : cur = cur' := Option.some.inj (hcur.symm.trans hcur')
    obtain rfl : origin = origin' := by
      rw [(rectOf_eq_some.mp hrect).2] at hcard
      exact Option.some.inj hcard
    have hmem : ∀ pane r, s.Ahead card cur origin dir pane r →
        (pane,r) ∈ inDirection card (s.panesUnder session) cur origin dir := by
      rintro pane r ⟨hpane,hne,hcard,hdir⟩
      exact mem_inDirection.mpr ⟨(h.whole cur hshown hcur pane hpane hne).2.1,hcard,hne,hdir⟩
    obtain ⟨pane,r,hpane⟩ := hahead
    cases hbest : (inDirection card (s.panesUnder session) cur origin dir).argmin
        fun e => origin.score e.2 dir with
    | none => exact absurd (hmem pane r hpane) (by simp [List.argmin_eq_none.mp hbest])
    | some best =>
      refine ⟨best.1,best.2,?_,h.ahead hmany hcur (List.argmin_mem hbest),fun other r' hother => ?_⟩
      · rw [hto,hbest]
        rfl
      · exact List.le_of_mem_argmin (hmem other r' hother) hbest
  · intro pane hpane
    by_cases hsame : s.focusedPane = some pane
    · exact .inl hsame
    · rw [hto] at hpane
      obtain ⟨best,hbest,rfl⟩ := Option.map_eq_some_iff.mp (focusedPane_doFocus hpane hsame)
      exact .inr (h.ahead hmany hcur (List.argmin_mem hbest)).1

/-- The focused pane has no entry: the first that has one gets the focus. -/
theorem FiledAlike.first (h : s.FiledAlike session) (hs : s.activeSession = some session)
    (hz : s.zoomedPane = none) (hmany : 2 ≤ (s.panesUnder session).length)
    (hrect : ∀ cur, s.focusedPane = some cur → rectOf card (s.panesUnder session) cur = none) :
    s.FocusesAhead card dir := by
  have hto : s.focusInDirection card dir = _ := focusInDirection_first hs hz hmany hrect
  constructor
  · rintro cur origin hcur hshown hcard ⟨pane,r,hahead⟩
    obtain ⟨-,hunder,hfiled⟩ := h.whole cur hshown hcur pane hahead.1 hahead.2.1
    have hnot : cur ∉ s.panesUnder session := by
      intro hin
      have hentry := rectOf_eq_some.mpr ⟨hin,hcard⟩
      rw [hrect cur hcur] at hentry
      cases hentry
    have hall := hfiled.resolve_left hnot
    have hfind : (s.panesUnder session).find?
        (fun pane => (rectOf card (s.panesUnder session) pane).isSome) = some pane := by
      cases hfound : (s.panesUnder session).find?
          fun pane => (rectOf card (s.panesUnder session) pane).isSome with
      | none =>
        have hentry := rectOf_eq_some.mpr ⟨hunder,hahead.2.2.1⟩
        have hnone := List.find?_eq_none.mp hfound pane hunder
        simp [hentry] at hnone
      | some other => rw [hall other (List.mem_of_find?_eq_some hfound)]
    refine ⟨pane,r,by rw [hto,hfind]; rfl,hahead,?_⟩
    rintro other r' ⟨hother,hne,hcard',-⟩
    obtain rfl := hall other (h.whole cur hshown hcur other hother hne).2.1
    rw [hahead.2.2.1] at hcard'
    rw [Option.some.inj hcard']
  · intro pane hpane
    by_cases hsame : s.focusedPane = some pane
    · exact .inl hsame
    · rw [hto] at hpane
      have hfound := List.mem_of_find?_eq_some (focusedPane_doFocus hpane hsame)
      exact .inr (h.inside hmany pane hfound hsame)

theorem FiledAlike.focusesAhead (h : s.FiledAlike session) (hs : s.activeSession = some session)
    (hz : s.zoomedPane = none) : s.FocusesAhead card dir := by
  rcases Nat.lt_or_ge (s.panesUnder session).length 2 with hfew | hmany
  · have hidle : s.focusInDirection card dir = s := focusInDirection_idle hs hfew
    refine ⟨fun cur origin hcur hshown _ hahead => ?_,fun pane hpane => .inl (hidle ▸ hpane)⟩
    obtain ⟨pane,r,hahead⟩ := hahead
    have hmany := (h.whole cur hshown hcur pane hahead.1 hahead.2.1).1
    omega
  · by_cases hrect : ∀ cur, s.focusedPane = some cur →
        rectOf card (s.panesUnder session) cur = none
    · exact h.first hs hz hmany hrect
    · simp only [not_forall] at hrect
      obtain ⟨cur,hcur,hrect⟩ := hrect
      obtain ⟨origin,horigin⟩ := Option.ne_none_iff_exists'.mp hrect
      exact h.nearest hs hz hmany hcur horigin

/-! Cards that tell two panes apart. -/

def spot (x : ℚ) : DomRect := ⟨x,0,0,0⟩

/-- The focused pane, one to its right, and all others as given. -/
def rightOf (cur pane : PaneId) (others : Option DomRect) : Cards := fun p =>
  if p = cur then some (spot 0) else if p = pane then some (spot 10) else others

theorem inDir_spot {x : ℚ} : (spot 0).InDir (spot x) .right ↔ 4 < x := by
  simp [spot,DomRect.InDir,DomRect.cx,DomRect.tol]

/-- The pane is the only one ahead. -/
theorem focuses_rightOf {others : Option DomRect} (hothers : ∀ r ∈ others, r = spot (-10))
    (h : s.FocusesAhead (rightOf cur pane others) .right) (hcur : s.focusedPane = some cur)
    (hshown : cur ∈ s.shownPanes) (hpane : pane ∈ s.shownPanes) (hne : pane ≠ cur) :
    (s.focusInDirection (rightOf cur pane others) .right).focusedPane = some pane := by
  have hahead : s.Ahead (rightOf cur pane others) cur (spot 0) .right pane (spot 10) :=
    ⟨hpane,hne,by simp [rightOf,hne],inDir_spot.mpr (by decide)⟩
  obtain ⟨other,r,hto,hother,-⟩ := h.reaches cur (spot 0) hcur hshown (by simp [rightOf])
    ⟨pane,spot 10,hahead⟩
  have hsame : other = pane := by
    by_contra hdiff
    have hcard := hother.2.2.1
    rw [rightOf,if_neg hother.2.1,if_neg hdiff] at hcard
    have hleft := hother.2.2.2
    rw [hothers r hcard,inDir_spot] at hleft
    exact absurd hleft (by decide)
  rw [hto,hsame]

/-- A pane other than the focused one that is found is filed under the session. -/
theorem mem_panesUnder_of_focused (hs : s.activeSession = some session) (hz : s.zoomedPane = none)
    (hto : (s.focusInDirection card dir).focusedPane = some pane)
    (hne : s.focusedPane ≠ some pane) :
    2 ≤ (s.panesUnder session).length ∧ pane ∈ s.panesUnder session := by
  rcases Nat.lt_or_ge (s.panesUnder session).length 2 with hfew | hmany
  · rw [focusInDirection_idle hs hfew] at hto
    exact absurd hto hne
  · refine ⟨hmany,?_⟩
    by_cases hrect : ∀ cur, s.focusedPane = some cur →
        rectOf card (s.panesUnder session) cur = none
    · rw [focusInDirection_first hs hz hmany hrect] at hto
      exact List.mem_of_find?_eq_some (focusedPane_doFocus hto hne)
    · simp only [not_forall] at hrect
      obtain ⟨cur,hcur,hrect⟩ := hrect
      obtain ⟨origin,horigin⟩ := Option.ne_none_iff_exists'.mp hrect
      rw [focusInDirection_nearest hs hz hmany hcur horigin] at hto
      obtain ⟨best,hbest,rfl⟩ := Option.map_eq_some_iff.mp (focusedPane_doFocus hto hne)
      exact (mem_inDirection.mp (List.argmin_mem hbest)).1

def only (pane : PaneId) : Cards := fun p => if p = pane then some (spot 0) else none

/-- A pane that alone has a card gets the focus. -/
theorem focuses_only (hs : s.activeSession = some session) (hz : s.zoomedPane = none)
    (hmany : 2 ≤ (s.panesUnder session).length) (hpane : pane ∈ s.panesUnder session)
    (hne : s.focusedPane ≠ some pane) :
    (s.focusInDirection (only pane) dir).focusedPane = some pane := by
  have hrect : ∀ cur, s.focusedPane = some cur →
      rectOf (only pane) (s.panesUnder session) cur = none := by
    intro cur hcur
    have hdiff : cur ≠ pane := fun heq => hne (heq ▸ hcur)
    simp [rectOf,only,hdiff]
  rw [focusInDirection_first hs hz hmany hrect]
  cases hfound : (s.panesUnder session).find?
      fun p => (rectOf (only pane) (s.panesUnder session) p).isSome with
  | none =>
    have hnone := List.find?_eq_none.mp hfound pane hpane
    simp [rectOf,only,hpane] at hnone
  | some other =>
    have hentry : (rectOf (only pane) (s.panesUnder session) other).isSome :=
      List.find?_some (p := fun p => (rectOf (only pane) (s.panesUnder session) p).isSome) hfound
    obtain ⟨r,hr⟩ := Option.isSome_iff_exists.mp hentry
    have hcard := (rectOf_eq_some.mp hr).2
    have hsame : other = pane := by
      by_contra hdiff
      rw [only,if_neg hdiff] at hcard
      cases hcard
    rw [hsame]
    rfl

/-- Where the focused pane is not filed and all others have cards, the first of them is found. -/
theorem head_of_focused (hs : s.activeSession = some session) (hz : s.zoomedPane = none)
    (hcur : s.focusedPane = some cur) (hnot : cur ∉ s.panesUnder session) (hne : pane ≠ cur)
    (hto : (s.focusInDirection (rightOf cur pane (some (spot (-10)))) .right).focusedPane =
      some pane) : (s.panesUnder session).head? = some pane := by
  have hunder := mem_panesUnder_of_focused hs hz hto (by
    rw [hcur]
    exact fun heq => hne (Option.some.inj heq).symm)
  have hrect : ∀ cur', s.focusedPane = some cur' →
      rectOf (rightOf cur pane (some (spot (-10)))) (s.panesUnder session) cur' = none := by
    intro cur' hcur'
    obtain rfl : cur = cur' := Option.some.inj (hcur.symm.trans hcur')
    exact if_neg hnot
  rw [focusInDirection_first hs hz hunder.1 hrect] at hto
  have hfound := focusedPane_doFocus hto (by
    rw [hcur]
    exact fun heq => hne (Option.some.inj heq).symm)
  cases hpanes : s.panesUnder session with
  | nil =>
    rw [hpanes] at hunder
    cases hunder.2
  | cons first rest =>
    rw [hpanes] at hfound hnot
    have hfirst : (rectOf (rightOf cur pane (some (spot (-10)))) (first :: rest) first).isSome := by
      have hne' : first ≠ cur := fun heq => hnot (heq ▸ List.mem_cons_self)
      rw [rectOf,if_pos List.mem_cons_self,rightOf,if_neg hne']
      split <;> rfl
    simpa [List.find?_cons,hfirst] using hfound

/-- The key works in a store just where something as good as the active window's layout is filed
under the session's own id. -/
theorem focusesAhead_iff (s : Store) (session : SessionId)
    (hs : s.activeSession = some session) (hz : s.zoomedPane = none) :
    (∀ card dir, s.FocusesAhead card dir) ↔ s.FiledAlike session := by
  constructor
  · intro h
    have hinside : 2 ≤ (s.panesUnder session).length → ∀ pane ∈ s.panesUnder session,
        s.focusedPane ≠ some pane → pane ∈ s.shownPanes := by
      intro hmany pane hpane hne
      have hto : (s.focusInDirection (only pane) .right).focusedPane = some pane :=
        focuses_only hs hz hmany hpane hne
      exact ((h _ _).inside pane hto).resolve_left hne
    refine ⟨hinside,fun cur hshown hcur pane hpane hne => ?_⟩
    have hdiff : ∀ p, p ≠ cur → s.focusedPane ≠ some p := by
      rw [hcur]
      exact fun p hp heq => hp (Option.some.inj heq).symm
    have hto := focuses_rightOf (by simp) (h (rightOf cur pane none) _) hcur hshown hpane hne
    obtain ⟨hmany,hunder⟩ := mem_panesUnder_of_focused hs hz hto (hdiff pane hne)
    refine ⟨hmany,hunder,or_iff_not_imp_left.mpr fun hnot other hother => ?_⟩
    have hfirst : ∀ p ∈ s.shownPanes, p ≠ cur → (s.panesUnder session).head? = some p :=
      fun p hp hpne => head_of_focused hs hz hcur hnot hpne
        (focuses_rightOf (by simp) (h _ _) hcur hshown hp hpne)
    have hne' : other ≠ cur := fun heq => hnot (heq ▸ hother)
    have hshown' := hinside hmany other hother (hdiff other hne')
    exact Option.some.inj ((hfirst other hshown' hne').symm.trans (hfirst pane hpane hne))
  · intro h card dir
    exact h.focusesAhead hs hz

def leftRightTree : LayoutNode :=
  .split .vertical [(.leaf ⟨1⟩,50),(.leaf ⟨2⟩,50)]

/-- One window with two panes next to each other, the first of them focused. -/
def sideBySide : Store where
  sessions := [⟨⟨1⟩,2⟩]
  activeSession := some ⟨1⟩
  focusedPane := some ⟨1⟩
  zoomedPane := none
  layouts := AList.insert ⟨2⟩ leftRightTree ∅
  windows := AList.insert ⟨1⟩ [⟨2⟩] ∅
  activeWindow := ∅

theorem focusesAhead_iff_sideBySide :
    (∀ card dir, sideBySide.FocusesAhead card dir) ↔ sideBySide.FiledAlike ⟨1⟩ :=
  focusesAhead_iff sideBySide ⟨1⟩ rfl rfl

/-- Nothing is filed under the session: the key does not do anything. -/
theorem neighbour_not_reached : ¬∀ (s : Store) (card : Cards) (dir : Dir), s.zoomedPane = none →
    2 ≤ s.shownPanes.length → s.FocusesAhead card dir := by
  intro h
  have hright := h sideBySide (rightOf ⟨1⟩ ⟨2⟩ none) .right rfl (by decide)
  have hto := focuses_rightOf (by simp) hright rfl (by decide) (by decide) (by decide)
  exact absurd hto (by decide)

end Store

end Pyre.Gui
