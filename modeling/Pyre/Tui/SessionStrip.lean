import Mathlib.Data.List.MinMax
import Pyre.Base.Spans
import Pyre.Events.Bus
import Pyre.Tui.AppState

/-!
The session strip: a pill for each live session on one scrolled line, with the rectangles by which
clicks find them. One pass over the pills measures them, another one writes the line.
-/

set_option autoImplicit false

namespace Pyre.Tui
open Base Events

/-- What the strip reads of a pane in the sidebar. -/
structure SidebarPane where
  session : SessionId
  state : PaneStateKind
  seen : Bool
  deriving DecidableEq, Repr

def agentUiLabel (state : PaneStateKind) (seen : Bool) : String :=
  match state,seen with
  | .waitingInput,_ => "blocked"
  | .running,_ => "working"
  | .interactive,_ => "interactive"
  | .crashed,_ => "crashed"
  | .done,false => "done"
  | .done,true => "idle"
  | .idle,_ => "idle"

def paneRank : PaneStateKind → Nat
  | .crashed => 0
  | .waitingInput => 1
  | .running => 2
  | .interactive => 3
  | .idle => 4
  | .done => 5

/-- The first of the worst. -/
def sessionWorstPane (sidebar : List SidebarPane) (session : SessionId) : Option SidebarPane :=
  (sidebar.filter fun p => p.session = session).argmin fun p => paneRank p.state

def sessionIsLive (sv : SessionView) (slots : List (Option PaneId)) : Bool :=
  sv.tabs.any fun tab => tab.root.allLeaves.any fun p => (paneToSlotIdx slots p).isSome

structure StripSession where
  view : SessionView
  name : Text

/-- The parts of the client's state that the strip reads. -/
structure StripState where
  sessions : List StripSession
  activeSession : Nat
  slots : List (Option PaneId)
  sidebar : List SidebarPane
  scroll : Nat

structure StripRect where
  x : Nat
  y : Nat
  width : Nat
  height : Nat
  deriving DecidableEq, Repr

/-- `rect_contains` -/
def StripRect.Contains (r : StripRect) (col row : Nat) : Prop :=
  r.x ≤ col ∧ col < r.x+r.width ∧ r.y ≤ row ∧ row < r.y+r.height

instance (r : StripRect) (col row : Nat) : Decidable (r.Contains col row) :=
  inferInstanceAs (Decidable (_ ∧ _))

def u16Max : Nat := 65535

def usizeMax : Nat := 18446744073709551615

/-- The strip's area is at least one column wide. -/
structure StripArea extends StripRect where
  wide : 0 < width
  right_le : x+width ≤ u16Max

/-- A pill with its offset, which the first pass computes. -/
structure Pill where
  sessIdx : Nat
  label : Text
  start : Nat
  deriving DecidableEq, Repr

def Pill.stop (p : Pill) : Nat := p.start+p.label.length

def pillLabel (i : Nat) (name : Text) (rollup : Option SidebarPane) : Text :=
  let tag := match rollup with
    | some p => ':' :: (agentUiLabel p.state p.seen).toList
    | none => []
  ' ' :: Nat.toDigits 10 (i+1) ++ ' ' :: name ++ tag ++ [' ']

namespace StripState

variable (s : StripState)

/-- The live sessions by their index, with their labels. -/
def items : List (Nat × Text) :=
  s.sessions.zipIdx.filterMap fun (sv,i) =>
    if sessionIsLive sv.view s.slots then
      some (i,pillLabel i sv.name (sessionWorstPane s.sidebar sv.view.id))
    else none

/-- A column is left between two pills. -/
def place : Nat → List (Nat × Text) → List Pill
  | _, [] => []
  | col, (i,label) :: rest => ⟨i,label,col⟩ :: place (col+label.length+1) rest

def pills : List Pill := place 0 s.items

/-- Where `[+]` begins. -/
def plusX : Nat := (s.pills.getLast?.elim 0 Pill.stop)+1

def totalW : Nat := s.plusX+3

def leftReserved (scroll : Nat) : Nat := if 0 < scroll then 1 else 0

def rightReserved (viewportW scroll : Nat) : Nat := if viewportW+scroll < s.totalW then 1 else 0

/-- The pill of the active session is to be brought into view; its index is not the session's. -/
def scrolled (viewportW : Nat) : Nat :=
  let left := leftReserved s.scroll
  let right := s.rightReserved viewportW s.scroll
  let visibleW := viewportW-(left+right)
  let scroll := match s.pills[min s.activeSession (s.pills.length-1)]? with
    | none => s.scroll
    | some p =>
      let scroll := if p.start < s.scroll+left then p.start-left else s.scroll
      if scroll+left+visibleW < p.stop then p.stop-visibleW-left else scroll
  min scroll (s.totalW-viewportW)

end StripState

/-- The part of the line that is shown, and where. -/
structure Viewport where
  scroll : Nat
  startCol : Nat
  y : Nat
  width : Nat
  height : Nat
  deriving DecidableEq, Repr

/-- Sums of columns overflow beyond a `u16`. -/
def addCols (a b : Nat) : Option Nat := if a+b ≤ u16Max then some (a+b) else none

def toU16 (n : Nat) : Nat := n % (u16Max+1)

def slice (t : Text) (a b : Nat) : Option Text :=
  if a ≤ b ∧ b ≤ t.length then some ((t.take b).drop a) else none

/-- What the second pass has made: the spans, tagged with the session whose pill they show, the
rectangles, and how far it has come. -/
structure StripLine where
  spans : List (Span Nat Text)
  rects : List (Nat × StripRect)
  vx : Nat

namespace Viewport

variable (v : Viewport)

/-- Where the view ends on the unscrolled line. -/
def last : Nat := v.scroll+v.width

def separator : Span Nat Text := ⟨none,[' ']⟩

/-- The label's part in view, and its rectangle. -/
def clip (vx : Nat) (p : Pill) : Option (Text × StripRect) := do
  let clipStart := v.scroll-vx
  let clipEnd := min (v.last-vx) p.label.length
  let visible ← slice p.label clipStart clipEnd
  let x ← addCols v.startCol (toU16 (vx+clipStart-v.scroll))
  return (visible,⟨x,v.y,toU16 visible.length,1⟩)

/-- The separator before a pill other than the first, as far as it is in view. -/
def sepBefore (idx vx : Nat) : Option (List (Span Nat Text)) :=
  if 0 < idx ∧ v.scroll < vx then
    (addCols v.startCol (toU16 (vx-v.scroll))).map fun _ => [separator]
  else some []

def drawPills : Nat → Nat → List Pill → Option StripLine
  | _, vx, [] => some ⟨[],[],vx⟩
  | idx, vx, p :: rest =>
    if p.stop ≤ v.scroll then drawPills (idx+1) (if rest = [] then p.stop else p.stop+1) rest
    else if v.last ≤ p.start then some ⟨[],[],vx⟩
    else do
      let sep ← v.sepBefore idx vx
      let (visible,rect) ← v.clip (if 0 < idx then vx+1 else vx) p
      let line ← drawPills (idx+1) p.stop rest
      let marked := if 0 < v.height ∧ 0 < rect.width then [(p.sessIdx,rect)] else []
      return ⟨sep ++ ⟨some p.sessIdx,visible⟩ :: line.spans,marked ++ line.rects,line.vx⟩

def plusLabel : Text := "[+]".toList

def drawPlus (plusX vx : Nat) : Option (List (Span Nat Text) × Option StripRect) :=
  if 0 < v.height ∧ v.scroll < plusX+3 ∧ plusX < v.last then do
    let x ← addCols v.startCol (toU16 (plusX-v.scroll))
    let sep := if v.scroll < plusX ∧ vx ≤ v.last then [separator] else []
    let visible ← slice plusLabel (v.scroll-plusX) (min (v.last-plusX) 3)
    let width := toU16 visible.length
    return (sep ++ [⟨none,visible⟩],if 0 < width then some ⟨x,v.y,width,1⟩ else none)
  else some ([],none)

end Viewport

/-- What is kept for the clicks, and the line with the area it is written to. -/
structure Strip where
  scroll : Nat
  rects : List (Nat × StripRect)
  leftArrow : Option StripRect
  rightArrow : Option StripRect
  plusRect : Option StripRect
  spans : List (Span Nat Text)
  content : StripRect

namespace StripState

variable (s : StripState)

def viewport (area : StripArea) : Viewport :=
  let scroll := s.scrolled area.width
  let left := leftReserved scroll
  let right := s.rightReserved area.width scroll
  ⟨scroll,area.x+left,area.y,area.width-(left+right),area.height⟩

/-- The first sum is the only one of a scroll value that was not bounded. -/
def renderSessionStrip (area : StripArea) : Option Strip :=
  if area.width+s.scroll ≤ usizeMax then do
    let v := s.viewport area
    let line ← v.drawPills 0 0 s.pills
    let (plusSpans,plusRect) ← v.drawPlus s.plusX line.vx
    let arrow (shown : Nat) (x : Nat) : Option StripRect :=
      if 0 < shown ∧ 0 < area.height then some ⟨x,area.y,1,1⟩ else none
    return {
      scroll := v.scroll
      rects := line.rects
      leftArrow := arrow (leftReserved v.scroll) area.x
      rightArrow := arrow (s.rightReserved area.width v.scroll) (area.x+area.width-1)
      plusRect
      spans := line.spans ++ plusSpans
      content := ⟨v.startCol,v.y,v.width,v.height⟩ }
  else none

end StripState

/-- A widget for a line, which writes a space into a column and nothing for no text. -/
structure LineWidget extends Fitting Text where
  fit_space : ∀ n, 0 < n → fit n [' '] = (1,true)
  fit_nil : ∀ n, (fit n []).1 = 0

/-- Each character takes a column. -/
def LineWidget.plain : LineWidget where
  fit n t := (min n t.length,t.length ≤ n)
  fit_le n t := Nat.min_le_left _ _
  fit_space n hn := by simp; omega
  fit_nil n := Nat.min_zero n

/-- The pill of the session is drawn in the cell. -/
def Strip.Draws (w : LineWidget) (out : Strip) (i col row : Nat) : Prop :=
  0 < out.content.height ∧ row = out.content.y ∧
    w.Drawn ⟨out.content.x,out.content.width⟩ out.spans i col

/-- What a click on the strip relies on. -/
structure Strip.HitsDrawn (w : LineWidget) (s : StripState) (area : StripArea) (out : Strip) :
    Prop where
  covers : ∀ e ∈ out.rects, ∀ col row, e.2.Contains col row ↔ out.Draws w e.1 col row
  disjoint : out.rects.Pairwise fun e f => ∀ col row, ¬(e.2.Contains col row ∧ f.2.Contains col row)
  inside : ∀ e ∈ out.rects, ∀ col row, e.2.Contains col row → area.Contains col row
  active : ∀ sv, s.sessions[s.activeSession]? = some sv → sessionIsLive sv.view s.slots = true →
    ∃ col row, out.Draws w s.activeSession col row

def StripState.ClicksHit (w : LineWidget) (s : StripState) (area : StripArea) : Prop :=
  ∃ out, s.renderSessionStrip area = some out ∧ out.HitsDrawn w s area

end Pyre.Tui
