import Pyre.Base.Run
import Pyre.Base.Table
import Pyre.Layout

/-!
The session registry of a daemon of its own: its sessions, their panes with the
window each belongs to, and the windows with their layout trees. An operation
runs as one here.
-/

set_option autoImplicit false

namespace Pyre.Session
open Base

structure WindowState where
  id : WindowId
  layout : Option LayoutNode

/-- Each pane is entered with its window. -/
structure SessionState where
  panes : Table PaneId WindowId
  windows : List WindowState

namespace SessionState

def findWindow (se : SessionState) (w : WindowId) : Option WindowState :=
  se.windows.find? fun win => win.id = w

/-- The window a new pane is opened in: the one asked for or else the first. -/
def target (se : SessionState) (w : WindowId) : Option WindowState :=
  (se.findWindow w).or se.windows.head?

def layoutOf (se : SessionState) (w : WindowId) : Option LayoutNode :=
  (se.findWindow w).bind WindowState.layout

def panesIn (se : SessionState) (w : WindowId) : List PaneId :=
  (se.panes.entries.filter fun e => e.2 = w).map Sigma.fst

def modifyLayout (se : SessionState) (w : WindowId)
    (f : Option LayoutNode → Option LayoutNode) : SessionState :=
  { se with windows := se.windows.map fun win =>
      if win.id = w then { win with layout := f win.layout } else win }

/-- The layout is initialised by the first pane only. -/
def openPane (se : SessionState) (w : WindowId) (pane : PaneId) : SessionState :=
  { se with panes := se.panes.insert pane w }.modifyLayout w fun layout =>
    some (layout.getD (.leaf pane))

/-- The part of `open_pane_split` that follows the opening of the new pane. -/
def placeSplit (se : SessionState) (w : WindowId) (parent pane : PaneId) (orient : Orient) :
    SessionState :=
  se.modifyLayout w fun layout =>
    some ((layout.getD (.leaf parent)).splitFocused parent pane orient)

def closePane (se : SessionState) (pane : PaneId) (w : WindowId) : SessionState :=
  { se with panes := se.panes.erase pane }.modifyLayout w
    (Option.map fun tree => (tree.close pane).1)

def removePane (se : SessionState) (pane : PaneId) : SessionState :=
  { se with panes := se.panes.erase pane }

def removeWindow (se : SessionState) (w : WindowId) : SessionState :=
  { se with windows := se.windows.filter fun win => win.id ≠ w }

def addWindow (se : SessionState) (w : WindowId) : SessionState :=
  { se with windows := se.windows ++ [⟨w,none⟩] }

/-! The effect of each operation on a lookup. -/

theorem id_of_findWindow {se : SessionState} {w : WindowId} {win : WindowState}
    (h : se.findWindow w = some win) : win.id = w := by simpa using List.find?_some h

theorem findWindow_target {se : SessionState} {w : WindowId} {win : WindowState}
    (h : se.target w = some win) : ∃ win', se.findWindow win.id = some win' := by
  have hmem : win ∈ se.windows := by
    rcases Option.or_eq_some_iff.mp h with h | ⟨-,h⟩
    · exact List.mem_of_find?_eq_some h
    · exact List.mem_of_head? h
  rw [← Option.isSome_iff_exists,findWindow,List.find?_isSome]
  exact ⟨win,hmem,by simp⟩

theorem findWindow_modifyLayout (se : SessionState) (w w' : WindowId)
    (f : Option LayoutNode → Option LayoutNode) :
    (se.modifyLayout w f).findWindow w' = (se.findWindow w').map fun win =>
      if w' = w then { win with layout := f win.layout } else win := by
  simp only [findWindow,modifyLayout,List.find?_map]
  have hid : ((fun win : WindowState => decide (win.id = w')) ∘ fun win : WindowState =>
      if win.id = w then { win with layout := f win.layout } else win) =
      fun win => decide (win.id = w') := by
    funext win
    simp only [Function.comp_apply]
    split <;> rfl
  rw [hid]
  refine Option.map_congr fun win hwin => ?_
  have hw : win.id = w' := by simpa using List.find?_some hwin
  rw [hw]

theorem layoutOf_modifyLayout_ne (se : SessionState) {w w' : WindowId} (h : w' ≠ w)
    (f : Option LayoutNode → Option LayoutNode) :
    (se.modifyLayout w f).layoutOf w' = se.layoutOf w' := by
  simp [layoutOf,findWindow_modifyLayout,h]

theorem layoutOf_modifyLayout_self (se : SessionState) (w : WindowId)
    (f : Option LayoutNode → Option LayoutNode) :
    (se.modifyLayout w f).layoutOf w = (se.findWindow w).bind fun win => f win.layout := by
  simp only [layoutOf,findWindow_modifyLayout,if_true,Option.bind_map]
  rfl

@[simp] theorem panes_modifyLayout (se : SessionState) (w : WindowId)
    (f : Option LayoutNode → Option LayoutNode) : (se.modifyLayout w f).panes = se.panes := rfl

@[simp] theorem layoutOf_removePane (se : SessionState) (pane : PaneId) (w : WindowId) :
    (se.removePane pane).layoutOf w = se.layoutOf w := rfl

theorem lookup_openPane {se : SessionState} {w w' : WindowId} {pane p : PaneId} :
    (se.openPane w pane).panes.lookup p = some w' ↔
      (p = pane ∧ w' = w) ∨ (p ≠ pane ∧ se.panes.lookup p = some w') :=
  Table.lookup_insert_eq_some

theorem lookup_removePane {se : SessionState} {w : WindowId} {pane p : PaneId} :
    (se.removePane pane).panes.lookup p = some w ↔ p ≠ pane ∧ se.panes.lookup p = some w :=
  Table.lookup_erase_eq_some

theorem lookup_closePane {se : SessionState} {w w' : WindowId} {pane p : PaneId} :
    (se.closePane pane w).panes.lookup p = some w' ↔ p ≠ pane ∧ se.panes.lookup p = some w' :=
  Table.lookup_erase_eq_some

theorem findWindow_removeWindow {se : SessionState} {w w' : WindowId} {win : WindowState} :
    (se.removeWindow w).findWindow w' = some win ↔ w' ≠ w ∧ se.findWindow w' = some win := by
  simp only [findWindow,removeWindow,List.find?_filter]
  by_cases h : w' = w
  · subst h
    simp only [ne_eq,not_true_eq_false,false_and,iff_false]
    intro hf
    simpa using List.find?_some hf
  · have hp : (fun win : WindowState => decide (decide (win.id ≠ w) = true ∧
        decide (win.id = w') = true)) = fun win => decide (win.id = w') := by
      funext win
      by_cases hw : win.id = w'
      · simp [hw,h]
      · simp [hw]
    rw [hp]
    simp [h]

theorem findWindow_addWindow (se : SessionState) (w w' : WindowId) :
    (se.addWindow w).findWindow w' =
      (se.findWindow w').or (if w = w' then some ⟨w,none⟩ else none) := by
  simp only [findWindow,addWindow,List.find?_append]
  by_cases h : w = w' <;> simp [h]

@[simp] theorem layoutOf_addWindow (se : SessionState) (w w' : WindowId) :
    (se.addWindow w).layoutOf w' = se.layoutOf w' := by
  rw [layoutOf,findWindow_addWindow,layoutOf]
  cases se.findWindow w' with
  | some win => rfl
  | none => by_cases h : w = w' <;> simp [h]

theorem mem_panesIn {se : SessionState} {w : WindowId} {p : PaneId} :
    p ∈ se.panesIn w ↔ se.panes.lookup p = some w := by
  simp only [panesIn,List.mem_map,List.mem_filter,decide_eq_true_eq,Table.lookup_eq_some]
  constructor
  · rintro ⟨⟨q,k⟩,⟨he,rfl⟩,rfl⟩
    exact he
  · intro h
    exact ⟨⟨p,w⟩,⟨h,rfl⟩,rfl⟩

end SessionState

/-- The identifiers drawn so far are kept, so that a fresh one differs from them. -/
structure Registry where
  sessions : Table SessionId SessionState
  drawnPanes : List PaneId
  drawnWindows : List WindowId

namespace Registry

def empty : Registry := ⟨∅,[],[]⟩

def getPane (s : Registry) (pane : PaneId) : Option (SessionId × SessionState × WindowId) :=
  s.sessions.entries.findSome? fun e => (e.2.panes.lookup pane).map fun w => (e.1,e.2,w)

def findWindow (s : Registry) (w : WindowId) : Option WindowState :=
  s.sessions.entries.findSome? fun e => e.2.findWindow w

/-- The results `get_window_layout` may give: without a tree it makes a leaf of
whichever pane of the window comes first. -/
def windowLayouts (s : Registry) (w : WindowId) : List LayoutNode :=
  match s.findWindow w with
  | none => []
  | some win =>
    match win.layout with
    | some tree => [tree]
    | none => s.sessions.entries.flatMap fun e => (e.2.panesIn w).map .leaf

def update (s : Registry) (sid : SessionId) (se : SessionState) : Registry :=
  { s with sessions := s.sessions.insert sid se }

def dropSession (s : Registry) (sid : SessionId) : Registry :=
  { s with sessions := s.sessions.erase sid }

/-- The session after a pane of it ended: one without panes is dropped. -/
def settle (s : Registry) (sid : SessionId) (se : SessionState) : Registry :=
  if se.panes.entries = [] then s.dropSession sid else s.update sid se

def closePane (s : Registry) (pane : PaneId) : Registry :=
  match s.getPane pane with
  | none => s
  | some (sid,se,w) => s.settle sid (se.closePane pane w)

def removePane (s : Registry) (pane : PaneId) : Registry :=
  match s.getPane pane with
  | none => s
  | some (sid,se,_) => s.settle sid (se.removePane pane)

def openPane (s : Registry) (sid : SessionId) (se : SessionState) (w : WindowId)
    (pane : PaneId) : Registry :=
  { s.update sid (se.openPane w pane) with drawnPanes := pane :: s.drawnPanes }

/-- Panes whose child is gone cannot be killed, and `close_pane` fails for them. -/
def closeWindow (s : Registry) (w : WindowId) (unkilled : List PaneId) : Registry :=
  match s.sessions.entries.find? fun e => (e.2.findWindow w).isSome with
  | none => s
  | some ⟨sid,se⟩ =>
    let killed := (se.panesIn w).filter fun pane => pane ∉ unkilled
    let s' := killed.foldl closePane s
    match s'.sessions.lookup sid with
    | none => s'
    | some se' =>
      let se' := se'.removeWindow w
      if se'.windows = [] then s'.dropSession sid else s'.update sid se'

end Registry

/-- The operations, with the identifiers they draw. -/
inductive Action where
  | newSession (sid : SessionId) (w : WindowId)
  | newWindow (sid : SessionId) (w : WindowId)
  | openPane (sid : SessionId) (w : WindowId) (pane : PaneId)
  | openPaneSplit (parent : PaneId) (orient : Orient) (pane : PaneId)
  | closePane (pane : PaneId)
  | removePane (pane : PaneId)
  | closeWindow (w : WindowId) (unkilled : List PaneId)
  | killSession (sid : SessionId)
  deriving DecidableEq, Repr

namespace Registry

def step (s : Registry) : Action → Option Registry
  | .newSession sid w =>
    if s.sessions.lookup sid = none ∧ w ∉ s.drawnWindows then
      some { s.update sid ⟨∅,[⟨w,none⟩]⟩ with drawnWindows := w :: s.drawnWindows }
    else none
  | .newWindow sid w =>
    (s.sessions.lookup sid).bind fun se =>
      if w ∉ s.drawnWindows then
        some { s.update sid (se.addWindow w) with drawnWindows := w :: s.drawnWindows }
      else none
  | .openPane sid w pane =>
    (s.sessions.lookup sid).bind fun se => (se.target w).bind fun win =>
      if pane ∉ s.drawnPanes then some (s.openPane sid se win.id pane) else none
  | .openPaneSplit parent orient pane =>
    (s.getPane parent).bind fun (sid,se,w) => (se.findWindow w).bind fun win =>
      if pane ∉ s.drawnPanes then
        let opened := s.openPane sid se win.id pane
        some (opened.update sid ((se.openPane win.id pane).placeSplit win.id parent pane orient))
      else none
  | .closePane pane => some (s.closePane pane)
  | .removePane pane => some (s.removePane pane)
  | .closeWindow w unkilled => some (s.closeWindow w unkilled)
  | .killSession sid => some (s.dropSession sid)

theorem of_newWindow {s t : Registry} {sid : SessionId} {w : WindowId}
    (h : s.step (.newWindow sid w) = some t) :
    ∃ se, s.sessions.lookup sid = some se ∧ w ∉ s.drawnWindows ∧
      t = { s.update sid (se.addWindow w) with drawnWindows := w :: s.drawnWindows } := by
  obtain ⟨se,hse,h⟩ := Option.bind_eq_some_iff.mp h
  rw [Option.ite_none_right_eq_some,Option.some.injEq] at h
  exact ⟨se,hse,h.1,h.2.symm⟩

theorem of_openPane {s t : Registry} {sid : SessionId} {w : WindowId} {pane : PaneId}
    (h : s.step (.openPane sid w pane) = some t) :
    ∃ se, s.sessions.lookup sid = some se ∧ ∃ win, se.target w = some win ∧
      pane ∉ s.drawnPanes ∧ t = s.openPane sid se win.id pane := by
  obtain ⟨se,hse,h⟩ := Option.bind_eq_some_iff.mp h
  obtain ⟨win,htarget,h⟩ := Option.bind_eq_some_iff.mp h
  rw [Option.ite_none_right_eq_some,Option.some.injEq] at h
  exact ⟨se,hse,win,htarget,h.1,h.2.symm⟩

theorem of_openPaneSplit {s t : Registry} {parent pane : PaneId} {orient : Orient}
    (h : s.step (.openPaneSplit parent orient pane) = some t) :
    ∃ sid se w, s.getPane parent = some (sid,se,w) ∧ ∃ win, se.findWindow w = some win ∧
      pane ∉ s.drawnPanes ∧ t = (s.openPane sid se win.id pane).update sid
        ((se.openPane win.id pane).placeSplit win.id parent pane orient) := by
  obtain ⟨⟨sid,se,w⟩,hget,h⟩ := Option.bind_eq_some_iff.mp h
  obtain ⟨win,hwin,h⟩ := Option.bind_eq_some_iff.mp h
  rw [Option.ite_none_right_eq_some,Option.some.injEq] at h
  exact ⟨sid,se,w,hget,win,hwin,h.1,h.2.symm⟩

end Registry

end Pyre.Session
