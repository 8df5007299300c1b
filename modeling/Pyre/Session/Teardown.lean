import Pyre.Base.Holdings
import Pyre.Session.WindowOrder

/-!
What `close_window` and `close_session` of a daemon of its own leave behind. A session that has
lost its last pane is dropped whatever windows it has, by `close_pane` and by the task that
waits for the child.
-/

set_option autoImplicit false

namespace Pyre.Session
open Base

/-- The registry and the store, which takes every write, with the panes whose child runs, each
with where it was opened, and the panes that `Closed` events have named. -/
structure DaemonState where
  stored : Stored
  children : Table PaneId (SessionId × WindowId)
  closed : List PaneId

/-- `removePane` is the task that waits for a child. -/
inductive DaemonCall where
  | newSession (sid : SessionId) (w : WindowId)
  | newWindow (sid : SessionId) (name : Option String) (w : WindowId)
  | openPane (sid : SessionId) (w : WindowId) (pane : PaneId)
  | openPaneSplit (parent : PaneId) (orient : Orient) (pane : PaneId)
  | closePane (pane : PaneId)
  | childExit (pane : PaneId)
  | removePane (pane : PaneId)
  | closeWindow (w : WindowId) (unkilled : List PaneId)
  | closeSession (sid : SessionId)
  deriving DecidableEq, Repr

namespace Registry

/-- The session that has the window. -/
def sessionWith (s : Registry) (w : WindowId) : Option (SessionId × SessionState) :=
  (s.sessions.entries.find? fun e => (e.2.findWindow w).isSome).map fun e => (e.1,e.2)

/-- The panes that `close_window` and `kill_session` take. -/
def windowPanes (s : Registry) (w : WindowId) : List PaneId :=
  ((s.sessionWith w).map fun e => e.2.panesIn w).getD []

def sessionPanes (s : Registry) (sid : SessionId) : List PaneId :=
  ((s.sessions.lookup sid).map fun se => se.panes.keys).getD []

end Registry

namespace DaemonState

def empty : DaemonState := ⟨⟨.empty,[]⟩,∅,[]⟩

def registry (d : DaemonState) : Registry := d.stored.registry

def rows (d : DaemonState) : List WindowRow := d.stored.rows

def withRegistry (d : DaemonState) (s : Registry) : DaemonState := { d with stored := ⟨s,d.rows⟩ }

/-- Their children are killed, and each is reported. -/
def kill (d : DaemonState) (panes : List PaneId) : DaemonState :=
  { d with
    children := d.children.retain fun p _ => p ∉ panes
    closed := panes ++ d.closed }

def openPane (d : DaemonState) (s : Registry) (pane : PaneId) : DaemonState :=
  match s.getPane pane with
  | none => d.withRegistry s
  | some (sid,_,w) => { d.withRegistry s with children := d.children.insert pane (sid,w) }

def closePane (d : DaemonState) (pane : PaneId) : DaemonState :=
  if (d.registry.getPane pane).isSome then
    (d.withRegistry (d.registry.closePane pane)).kill [pane]
  else d

/-- The child is gone already. -/
def removePane (d : DaemonState) (pane : PaneId) : DaemonState :=
  { d.withRegistry (d.registry.removePane pane) with closed := pane :: d.closed }

/-- It fails if no session has the window. -/
def closeWindow (d : DaemonState) (w : WindowId) (unkilled : List PaneId) : DaemonState :=
  if (d.registry.findWindow w).isSome then
    { d with stored := ⟨d.registry.closeWindow w unkilled,d.rows.filter fun r => r.id ≠ w⟩ }.kill
      ((d.registry.windowPanes w).filter fun p => p ∉ unkilled)
  else d

/-- The windows whose rows `close_session` deletes. -/
def sessionWindowIds (d : DaemonState) (sid : SessionId) : List WindowId :=
  if (d.registry.sessions.lookup sid).isSome then d.registry.windowsOf sid
  else (d.stored.listWindows sid).map WindowRow.id

def closeSession (d : DaemonState) (sid : SessionId) : DaemonState :=
  { d with
    stored := ⟨d.registry.dropSession sid,d.rows.filter fun r => r.id ∉ d.sessionWindowIds sid⟩ }.kill
    (d.registry.sessionPanes sid)

/-- A new session has a fresh id. A pane that cannot be killed has no child. -/
def step (d : DaemonState) : DaemonCall → Option DaemonState
  | .newSession sid w =>
    if d.stored.rowsOf sid = [] then
      (d.stored.newSession sid w true).map fun s => { d with stored := s }
    else none
  | .newWindow sid name w =>
    (d.stored.step sid (.newWindow name w true)).map fun s => { d with stored := s }
  | .openPane sid w pane => (d.registry.step (.openPane sid w pane)).map fun s => d.openPane s pane
  | .openPaneSplit parent orient pane =>
    (d.registry.step (.openPaneSplit parent orient pane)).map fun s => d.openPane s pane
  | .closePane pane => some (d.closePane pane)
  | .childExit pane =>
    if (d.children.lookup pane).isSome then some { d with children := d.children.erase pane }
    else none
  | .removePane pane =>
    if d.children.lookup pane = none ∧ pane ∈ d.registry.drawnPanes then some (d.removePane pane)
    else none
  | .closeWindow w unkilled =>
    if ∀ p ∈ unkilled, d.children.lookup p = none then some (d.closeWindow w unkilled) else none
  | .closeSession sid => some (d.closeSession sid)

/-- The tasks that wait for the children of panes which have been closed. -/
def wait (d : DaemonState) (panes : List PaneId) : DaemonState := panes.foldl removePane d

/-- What clients and the store see. -/
def holdings (d : DaemonState) :
    Holdings PaneId PaneId WindowId SessionId WindowState WindowRow where
  running p := d.children.lookup p ≠ none
  listed p := (d.registry.getPane p).isSome
  index p := (d.registry.getPane p).map fun _ => p
  home p := (d.registry.getPane p).map fun e => e.2.2
  memory w := d.registry.findWindow w
  store w := d.rows.filter fun r => r.id = w
  lists sid w := w ∈ d.registry.windowsOf sid
  announced p := p ∈ d.registry.drawnPanes
  closed p := p ∈ d.closed

/-- The panes opened in the window, or in it in the registry. -/
def InWindow (d : DaemonState) (w : WindowId) (p : PaneId) : Prop :=
  ∃ sid, d.children.lookup p = some (sid,w) ∨ d.registry.Has sid p w

def windowPart (d : DaemonState) (w : WindowId) : Part PaneId PaneId WindowId where
  place := d.InWindow w
  pane := d.InWindow w
  window v := v = w

def InSession (d : DaemonState) (sid : SessionId) (p : PaneId) : Prop :=
  ∃ w, d.children.lookup p = some (sid,w) ∨ d.registry.Has sid p w

def sessionPart (d : DaemonState) (sid : SessionId) : Part PaneId PaneId WindowId where
  place := d.InSession sid
  pane := d.InSession sid
  window v := v ∈ d.registry.windowsOf sid ∨ ∃ r ∈ d.rows, r.session = sid ∧ r.id = v

/-- Where the session ends with the window it has nothing else: it ends with its last pane and
with its last window. -/
def EndsAlone (d : DaemonState) (w : WindowId) : Prop :=
  ∀ sid, w ∈ d.registry.windowsOf sid →
    ((∃ p, d.registry.Has sid p w) → (∀ p v, d.registry.Has sid p v → v = w) →
      ∀ v ∈ d.registry.windowsOf sid, v = w) ∧
    ((∀ v ∈ d.registry.windowsOf sid, v = w) → ∀ p v, d.registry.Has sid p v → v = w)

end DaemonState

/-! Panes of one window that end one after another. -/

namespace Registry

variable {s t u : Registry} {sid sid' : SessionId} {se se' : SessionState} {v w : WindowId}
  {p q : PaneId} {gone gone' panes : List PaneId}

/-- The panes `gone` of the window have ended: the session goes with its last pane, and else
keeps its other windows as they are. -/
structure Sheds (s t : Registry) (sid : SessionId) (w : WindowId) (gone : List PaneId) : Prop where
  drawn : t.drawnPanes = s.drawnPanes ∧ t.drawnWindows = s.drawnWindows
  others : ∀ sid', sid' ≠ sid → t.sessions.lookup sid' = s.sessions.lookup sid'
  absent : s.sessions.lookup sid = none → t.sessions.lookup sid = none
  ended : (∃ p v, s.Has sid p v) → (∀ p v, s.Has sid p v → p ∈ gone) → t.sessions.lookup sid = none
  kept : ∀ se, s.sessions.lookup sid = some se →
    ((∃ p v, s.Has sid p v) → ∃ p v, s.Has sid p v ∧ p ∉ gone) →
      ∃ se', t.sessions.lookup sid = some se' ∧
        se'.windows.map WindowState.id = se.windows.map WindowState.id ∧
        (∀ v, v ≠ w → se'.findWindow v = se.findWindow v) ∧
        ∀ p v, se'.panes.lookup p = some v ↔ se.panes.lookup p = some v ∧ p ∉ gone

theorem has_of_lookup (h : s.sessions.lookup sid = some se) :
    s.Has sid p v ↔ se.panes.lookup p = some v := by simp [Has,h]

/-- Where a pane stays so does the session. -/
theorem Sheds.has_iff (h : s.Sheds t sid w gone) :
    t.Has sid p v ↔ s.Has sid p v ∧ p ∉ gone := by
  cases hse : s.sessions.lookup sid with
  | none =>
    have ht := h.absent hse
    simp [Has,hse,ht]
  | some se =>
    by_cases hleft : (∃ p v, s.Has sid p v) → ∃ p v, s.Has sid p v ∧ p ∉ gone
    · obtain ⟨se',hse',-,-,hpanes⟩ := h.kept se hse hleft
      rw [has_of_lookup hse',has_of_lookup hse,hpanes]
    · push Not at hleft
      obtain ⟨hsome,hall⟩ := hleft
      have ht := h.ended hsome hall
      constructor
      · rintro ⟨se',hse',-⟩
        rw [ht] at hse'
        cases hse'
      · rintro ⟨hp,hnot⟩
        exact absurd (hall p v hp) hnot

theorem Sheds.refl (s : Registry) (sid : SessionId) (w : WindowId) : s.Sheds s sid w [] where
  drawn := ⟨rfl,rfl⟩
  others _ _ := rfl
  absent := id
  ended hsome hall := by
    obtain ⟨p,v,hp⟩ := hsome
    exact absurd (hall p v hp) List.not_mem_nil
  kept se hse _ := ⟨se,hse,rfl,fun _ _ => rfl,fun p v => by simp⟩

theorem Sheds.trans (h : s.Sheds t sid w gone) (h' : t.Sheds u sid w gone') :
    s.Sheds u sid w (gone ++ gone') where
  drawn := ⟨h'.drawn.1.trans h.drawn.1,h'.drawn.2.trans h.drawn.2⟩
  others sid' hne := (h'.others sid' hne).trans (h.others sid' hne)
  absent hnone := h'.absent (h.absent hnone)
  ended hsome hall := by
    by_cases hleft : ∃ p v, t.Has sid p v
    · refine h'.ended hleft fun p v hp => ?_
      obtain ⟨hs,hnot⟩ := h.has_iff.mp hp
      exact (List.mem_append.mp (hall p v hs)).resolve_left hnot
    · refine h'.absent (h.ended hsome fun p v hp => ?_)
      by_contra hnot
      exact hleft ⟨p,v,h.has_iff.mpr ⟨hp,hnot⟩⟩
  kept se hse hleft := by
    obtain ⟨se₁,hse₁,hids,hwins,hpanes⟩ := h.kept se hse fun hsome => by
      obtain ⟨p,v,hp,hnot⟩ := hleft hsome
      exact ⟨p,v,hp,fun hg => hnot (List.mem_append_left _ hg)⟩
    obtain ⟨se₂,hse₂,hids',hwins',hpanes'⟩ := h'.kept se₁ hse₁ fun hsome => by
      obtain ⟨p,v,hp⟩ := hsome
      obtain ⟨q,v',hq,hnot⟩ := hleft ⟨p,v,(h.has_iff.mp hp).1⟩
      rw [List.mem_append,not_or] at hnot
      exact ⟨q,v',h.has_iff.mpr ⟨hq,hnot.1⟩,hnot.2⟩
    refine ⟨se₂,hse₂,hids'.trans hids,fun v hv => (hwins' v hv).trans (hwins v hv),fun p v => ?_⟩
    rw [hpanes',hpanes,List.mem_append,not_or,and_assoc]

/-- One pane that ends, and of the windows at most its own changes. -/
theorem sheds_settle (hse : s.sessions.lookup sid = some se)
    (hids : se'.windows.map WindowState.id = se.windows.map WindowState.id)
    (hwins : ∀ v, v ≠ w → se'.findWindow v = se.findWindow v)
    (hpanes : ∀ q v, se'.panes.lookup q = some v ↔ q ≠ p ∧ se.panes.lookup q = some v)
    (hp : ∃ v, se.panes.lookup p = some v) : s.Sheds (s.settle sid se') sid w [p] := by
  have hpanes' : ∀ q v, se'.panes.lookup q = some v ↔ se.panes.lookup q = some v ∧ q ∉ [p] := by
    intro q v
    rw [hpanes,List.mem_singleton,and_comm]
  by_cases hempty : se'.panes.entries = []
  · have hdrop : s.settle sid se' = s.dropSession sid := if_pos hempty
    rw [hdrop]
    refine ⟨⟨rfl,rfl⟩,fun sid' h => AList.lookup_erase_ne h,fun _ => AList.lookup_erase _ _,
      fun _ _ => AList.lookup_erase _ _,fun se₁ hse₁ hleft => ?_⟩
    obtain ⟨v,hv⟩ := hp
    obtain ⟨q,v',hq,hnot⟩ := hleft ⟨p,v,(has_of_lookup hse).mpr hv⟩
    have hin := (hpanes' q v').mpr ⟨(has_of_lookup hse).mp hq,hnot⟩
    rw [Table.lookup_eq_some,hempty] at hin
    cases hin
  · have hkeep : s.settle sid se' = s.update sid se' := if_neg hempty
    rw [hkeep]
    refine ⟨⟨rfl,rfl⟩,fun sid' h => AList.lookup_insert_ne h,fun hnone => ?_,fun _ hall => ?_,
      fun se₁ hse₁ _ => ?_⟩
    · rw [hse] at hnone
      cases hnone
    · obtain ⟨e,he⟩ := List.exists_mem_of_ne_nil _ hempty
      obtain ⟨hold,hnot⟩ := (hpanes' e.1 e.2).mp (Table.lookup_eq_some.mpr he)
      exact absurd (hall e.1 e.2 ((has_of_lookup hse).mpr hold)) hnot
    · obtain rfl := Option.some.inj (hse.symm.trans hse₁)
      exact ⟨se',AList.lookup_insert _,hids,hwins,hpanes'⟩

/-- The pane is one of the window, or of none any more. -/
def Only (s : Registry) (sid : SessionId) (w : WindowId) (p : PaneId) : Prop :=
  ∀ sid' v, s.Has sid' p v → sid' = sid ∧ v = w

/-- A pane that no session has is not found. -/
theorem sheds_none (hget : s.getPane p = none) : s.Sheds s sid w [p] := by
  have hno : ∀ sid' v, ¬s.Has sid' p v := fun sid' v hp => by simpa [hget] using isSome_getPane hp
  refine ⟨⟨rfl,rfl⟩,fun _ _ => rfl,id,?_,fun se hse _ => ⟨se,hse,rfl,fun _ _ => rfl,fun q v => ?_⟩⟩
  · rintro ⟨q,v,hq⟩ hall
    obtain rfl := List.mem_singleton.mp (hall q v hq)
    exact absurd hq (hno sid v)
  · refine (and_iff_left_of_imp fun hq hmem => ?_).symm
    obtain rfl := List.mem_singleton.mp hmem
    exact hno sid v ⟨se,hse,hq⟩

theorem ids_modifyLayout (se : SessionState) (w : WindowId)
    (f : Option LayoutNode → Option LayoutNode) :
    (se.modifyLayout w f).windows.map WindowState.id = se.windows.map WindowState.id := by
  simp [SessionState.modifyLayout,Function.comp_def,apply_ite]

theorem sheds_closePane (hp : s.Only sid w p) : s.Sheds (s.closePane p) sid w [p] := by
  unfold closePane
  split
  · rename_i hget
    exact sheds_none hget
  · rename_i sid₁ se₁ w₁ hget
    obtain ⟨hse,hv⟩ := getPane_eq_some hget
    obtain ⟨rfl,rfl⟩ := hp sid₁ w₁ ⟨se₁,hse,hv⟩
    refine sheds_settle hse (ids_modifyLayout _ _ _) (fun v hne => ?_)
      (fun q v => SessionState.lookup_closePane) ⟨w₁,hv⟩
    rw [SessionState.closePane,SessionState.findWindow_modifyLayout]
    simp [hne,SessionState.findWindow]

theorem sheds_removePane (hp : s.Only sid w p) : s.Sheds (s.removePane p) sid w [p] := by
  unfold removePane
  split
  · rename_i hget
    exact sheds_none hget
  · rename_i sid₁ se₁ w₁ hget
    obtain ⟨hse,hv⟩ := getPane_eq_some hget
    obtain ⟨rfl,rfl⟩ := hp sid₁ w₁ ⟨se₁,hse,hv⟩
    exact sheds_settle hse rfl (fun _ _ => rfl) (fun q v => SessionState.lookup_removePane) ⟨w₁,hv⟩

theorem Sheds.only (h : s.Sheds t sid w gone) (hp : s.Only sid w p) : t.Only sid w p := by
  intro sid' v hv
  by_cases hne : sid' = sid
  · subst hne
    exact hp sid' v (h.has_iff.mp hv).1
  · obtain ⟨se,hse,hv⟩ := hv
    exact hp sid' v ⟨se,(h.others sid' hne).symm.trans hse,hv⟩

theorem sheds_foldl {f : Registry → PaneId → Registry}
    (hf : ∀ (s : Registry) (p : PaneId), s.Only sid w p → s.Sheds (f s p) sid w [p])
    (panes : List PaneId) (hpanes : ∀ p ∈ panes, s.Only sid w p) :
    s.Sheds (panes.foldl f s) sid w panes := by
  induction panes generalizing s with
  | nil => exact .refl s sid w
  | cons p panes ih =>
    obtain ⟨hp,hrest⟩ := List.forall_mem_cons.mp hpanes
    have hone := hf s p hp
    exact hone.trans (ih fun q hq => hone.only (hrest q hq))

/-! A window that is closed, from the first of its panes to the last of their tasks. -/

/-- The session has no other panes, and some of this window, or it has no other windows. -/
def EndsWithWindow (s : Registry) (sid : SessionId) (w : WindowId) : Prop :=
  ((∃ p, s.Has sid p w) ∧ ∀ p v, s.Has sid p v → v = w) ∨ ∀ v ∈ s.windowsOf sid, v = w

structure Closes (s t : Registry) (sid : SessionId) (w : WindowId) : Prop where
  inv : t.Inv
  drawn : t.drawnPanes = s.drawnPanes ∧ t.drawnWindows = s.drawnWindows
  others : ∀ sid', sid' ≠ sid → t.sessions.lookup sid' = s.sessions.lookup sid'
  ended : s.EndsWithWindow sid w → t.sessions.lookup sid = none
  kept : ¬s.EndsWithWindow sid w → ∀ se, s.sessions.lookup sid = some se →
    ∃ se', t.sessions.lookup sid = some se' ∧
      (∀ v, v ∈ se'.windows.map WindowState.id ↔ v ∈ se.windows.map WindowState.id ∧ v ≠ w) ∧
      (∀ v, v ≠ w → se'.findWindow v = se.findWindow v) ∧
      ∀ p v, se'.panes.lookup p = some v ↔ se.panes.lookup p = some v ∧ v ≠ w

theorem inv_foldl_removePane (panes : List PaneId) (hi : s.Inv) :
    (panes.foldl removePane s).Inv := by
  induction panes generalizing s with
  | nil => exact hi
  | cons p panes ih => exact ih (inv_removePane hi p)

/-- The last part of `close_window`. -/
def unlist (s : Registry) (sid : SessionId) (w : WindowId) : Registry :=
  match s.sessions.lookup sid with
  | none => s
  | some se =>
    if (se.removeWindow w).windows = [] then s.dropSession sid else s.update sid (se.removeWindow w)

theorem closeWindow_of_listed (hi : s.Inv) (hse : s.sessions.lookup sid = some se)
    (hw : w ∈ s.windowsOf sid) (unkilled : List PaneId) : s.closeWindow w unkilled =
      (((se.panesIn w).filter fun p => p ∉ unkilled).foldl closePane s).unlist sid w := by
  rw [closeWindow,find_windowsOf hi hse hw]
  rfl

theorem drawn_unlist (s : Registry) (sid : SessionId) (w : WindowId) :
    (s.unlist sid w).drawnPanes = s.drawnPanes ∧
      (s.unlist sid w).drawnWindows = s.drawnWindows := by
  unfold unlist
  split
  · exact ⟨rfl,rfl⟩
  · split <;> exact ⟨rfl,rfl⟩

theorem lookup_unlist_ne (h : sid' ≠ sid) (s : Registry) (w : WindowId) :
    (s.unlist sid w).sessions.lookup sid' = s.sessions.lookup sid' := by
  unfold unlist
  split
  · rfl
  · split
    · exact AList.lookup_erase_ne h
    · exact AList.lookup_insert_ne h

theorem lookup_unlist : (s.unlist sid w).sessions.lookup sid = some se' ↔
    ∃ se, s.sessions.lookup sid = some se ∧ (se.removeWindow w).windows ≠ [] ∧
      se' = se.removeWindow w := by
  unfold unlist
  cases hse : s.sessions.lookup sid with
  | none => simp [hse]
  | some se =>
    by_cases hempty : (se.removeWindow w).windows = []
    · simp [hempty,lookup_dropSession]
    · simp only [if_neg hempty,lookup_update]
      constructor
      · rintro (⟨-,rfl⟩ | ⟨hne,-⟩)
        · exact ⟨se,rfl,hempty,rfl⟩
        · exact absurd rfl hne
      · rintro ⟨se₁,h₁,-,rfl⟩
        rw [Option.some.inj h₁]
        exact Or.inl ⟨trivial,rfl⟩

theorem mem_ids_removeWindow : v ∈ (se.removeWindow w).windows.map WindowState.id ↔
    v ∈ se.windows.map WindowState.id ∧ v ≠ w := by
  simp only [SessionState.removeWindow,List.mem_map,List.mem_filter,decide_eq_true_eq]
  constructor
  · rintro ⟨win,⟨hwin,hne⟩,rfl⟩
    exact ⟨⟨win,hwin,rfl⟩,hne⟩
  · rintro ⟨⟨win,hwin,rfl⟩,hne⟩
    exact ⟨win,⟨hwin,hne⟩,rfl⟩

/-- As long as the session is there it has its windows. -/
theorem Sheds.ids (h : s.Sheds t sid w gone) (hse : s.sessions.lookup sid = some se)
    (hse' : t.sessions.lookup sid = some se') :
    se'.windows.map WindowState.id = se.windows.map WindowState.id := by
  by_cases hleft : (∃ p v, s.Has sid p v) → ∃ p v, s.Has sid p v ∧ p ∉ gone
  · obtain ⟨se₁,hse₁,hids,-⟩ := h.kept se hse hleft
    obtain rfl := Option.some.inj (hse'.symm.trans hse₁)
    exact hids
  · push Not at hleft
    have hnone := h.ended hleft.1 hleft.2
    rw [hse'] at hnone
    cases hnone

section closing

variable {killed order : List PaneId}

/-- The panes of the window are closed, those that have a child, then the window is taken from
the list, and the tasks of all its panes run. -/
structure Stages (s u x t : Registry) (sid : SessionId) (w : WindowId) (se : SessionState)
    (killed order : List PaneId) : Prop where
  session : s.sessions.lookup sid = some se
  first : s.Sheds u sid w killed
  middle : x = u.unlist sid w
  last : x.Sheds t sid w order
  killed : ∀ p ∈ killed, se.panes.lookup p = some w
  order : ∀ p, p ∈ order ↔ se.panes.lookup p = some w

namespace Stages

variable {x : Registry}

theorem has (h : s.Stages u x t sid w se killed order) (hp : x.Has sid p v) : s.Has sid p v := by
  obtain ⟨se',hse',hv⟩ := hp
  rw [h.middle] at hse'
  obtain ⟨se₁,hse₁,-,rfl⟩ := lookup_unlist.mp hse'
  exact (h.first.has_iff.mp ⟨se₁,hse₁,hv⟩).1

theorem others (h : s.Stages u x t sid w se killed order) (hne : sid' ≠ sid) :
    t.sessions.lookup sid' = s.sessions.lookup sid' := by
  rw [h.last.others sid' hne,h.middle,lookup_unlist_ne hne,h.first.others sid' hne]

theorem ended (h : s.Stages u x t sid w se killed order) (hends : s.EndsWithWindow sid w) :
    t.sessions.lookup sid = none := by
  by_cases hnone : x.sessions.lookup sid = none
  · exact h.last.absent hnone
  obtain ⟨se',hse'⟩ := Option.ne_none_iff_exists'.mp hnone
  obtain ⟨se₁,hse₁,hwindows,rfl⟩ := lookup_unlist.mp (h.middle ▸ hse')
  rcases hends with ⟨⟨p₀,hp₀⟩,hall⟩ | hall
  · -- a pane is left, which is of this window and waits for its task
    have hleft : ∃ p v, u.Has sid p v := by
      by_contra hno
      have hgone := h.first.ended ⟨p₀,w,hp₀⟩ fun p v hp => by
        by_contra hnot
        exact hno ⟨p,v,h.first.has_iff.mpr ⟨hp,hnot⟩⟩
      rw [hse₁] at hgone
      cases hgone
    obtain ⟨p,v,hp⟩ := hleft
    refine h.last.ended ⟨p,v,_,hse',(has_of_lookup hse₁).mp hp⟩ fun q v' hq => ?_
    have hs := h.has hq
    obtain rfl := hall q v' hs
    exact (h.order q).mpr ((has_of_lookup h.session).mp hs)
  · -- the window that is left in the list would be this one
    obtain ⟨win,hwin⟩ := List.exists_mem_of_ne_nil _ hwindows
    obtain ⟨hin,hne⟩ := mem_ids_removeWindow.mp (List.mem_map_of_mem (f := WindowState.id) hwin)
    rw [h.first.ids h.session hse₁,← windowsOf_of_lookup h.session] at hin
    exact absurd (hall win.id hin) hne

theorem kept (h : s.Stages u x t sid w se killed order) (hnot : ¬s.EndsWithWindow sid w) :
    ∃ se', t.sessions.lookup sid = some se' ∧
      (∀ v, v ∈ se'.windows.map WindowState.id ↔ v ∈ se.windows.map WindowState.id ∧ v ≠ w) ∧
      (∀ v, v ≠ w → se'.findWindow v = se.findWindow v) ∧
      ∀ p v, se'.panes.lookup p = some v ↔ se.panes.lookup p = some v ∧ v ≠ w := by
  have hhas : ∀ p v, s.Has sid p v ↔ se.panes.lookup p = some v := fun _ _ =>
    has_of_lookup h.session
  unfold EndsWithWindow at hnot
  push Not at hnot
  obtain ⟨helse,v₀,hv₀,hne₀⟩ := hnot
  -- if a pane is left, one of another window is
  have hother : (∃ p v, s.Has sid p v) →
      ∃ p v, s.Has sid p v ∧ ∀ ps : List PaneId, (∀ r ∈ ps, se.panes.lookup r = some w) → p ∉ ps := by
    intro hsome
    obtain ⟨p,v,hp,hv⟩ : ∃ p v, s.Has sid p v ∧ v ≠ w := by
      obtain ⟨p,v,hp⟩ := hsome
      by_cases hv : v = w
      · subst hv
        exact helse ⟨p,hp⟩
      · exact ⟨p,v,hp,hv⟩
    refine ⟨p,v,hp,fun ps hps hmem => hv ?_⟩
    exact Option.some.inj (((hhas p v).mp hp).symm.trans (hps p hmem))
  obtain ⟨se₁,hse₁,hids₁,hwins₁,hpanes₁⟩ := h.first.kept se h.session fun hsome => by
    obtain ⟨p,v,hp,hps⟩ := hother hsome
    exact ⟨p,v,hp,hps killed h.killed⟩
  have hnonempty : (se₁.removeWindow w).windows ≠ [] := by
    intro hempty
    have hin : v₀ ∈ (se₁.removeWindow w).windows.map WindowState.id := by
      rw [mem_ids_removeWindow,hids₁,← windowsOf_of_lookup h.session]
      exact ⟨hv₀,hne₀⟩
    rw [hempty] at hin
    cases hin
  have hse' : x.sessions.lookup sid = some (se₁.removeWindow w) := by
    rw [h.middle]
    exact lookup_unlist.mpr ⟨se₁,hse₁,hnonempty,rfl⟩
  obtain ⟨se₂,hse₂,hids₂,hwins₂,hpanes₂⟩ := h.last.kept _ hse' fun hsome => by
    obtain ⟨p,v,hp⟩ := hsome
    obtain ⟨q,v',hq,hps⟩ := hother ⟨p,v,h.has hp⟩
    exact ⟨q,v',⟨_,hse',(hpanes₁ q v').mpr ⟨(hhas q v').mp hq,hps killed h.killed⟩⟩,
      hps order fun r hr => (h.order r).mp hr⟩
  refine ⟨se₂,hse₂,fun v => ?_,fun v hv => ?_,fun p v => ?_⟩
  · rw [hids₂,mem_ids_removeWindow,hids₁]
  · rw [hwins₂ v hv,← hwins₁ v hv]
    exact Option.ext fun win => SessionState.findWindow_removeWindow.trans (and_iff_right hv)
  · have hremove : (se₁.removeWindow w).panes.lookup p = some v ↔ se.panes.lookup p = some v ∧
        p ∉ killed := hpanes₁ p v
    rw [hpanes₂,hremove,h.order,and_assoc]
    refine and_congr_right fun hp => ?_
    constructor
    · rintro ⟨-,hno⟩ rfl
      exact hno hp
    · intro hv
      refine ⟨fun hmem => hv ?_,fun hp' => hv (Option.some.inj (hp.symm.trans hp'))⟩
      exact Option.some.inj (hp.symm.trans (h.killed p hmem))

end Stages

theorem closes_closeWindow (hi : s.Inv) (hse : s.sessions.lookup sid = some se)
    (hw : w ∈ s.windowsOf sid) (unkilled : List PaneId)
    (horder : ∀ p, p ∈ order ↔ se.panes.lookup p = some w) :
    s.Closes (order.foldl removePane (s.closeWindow w unkilled)) sid w := by
  have honly : ∀ p, se.panes.lookup p = some w → s.Only sid w p := by
    intro p hp sid' v hv
    obtain rfl := hi.pane_home sid' sid p v w hv ⟨se,hse,hp⟩
    exact ⟨rfl,Option.some.inj (((has_of_lookup hse).mp hv).symm.trans hp)⟩
  set killed := (se.panesIn w).filter fun p => p ∉ unkilled
  have hkilled : ∀ p ∈ killed, se.panes.lookup p = some w := fun p hp =>
    SessionState.mem_panesIn.mp (List.mem_of_mem_filter hp)
  have hfirst : s.Sheds (killed.foldl closePane s) sid w killed :=
    sheds_foldl (fun _ _ => sheds_closePane) killed fun p hp => honly p (hkilled p hp)
  have hmiddle := closeWindow_of_listed hi hse hw unkilled
  have hlast : (s.closeWindow w unkilled).Sheds
      (order.foldl removePane (s.closeWindow w unkilled)) sid w order := by
    refine sheds_foldl (fun _ _ => sheds_removePane) order fun p hp sid' v hv => ?_
    refine hfirst.only (honly p ((horder p).mp hp)) sid' v ?_
    obtain ⟨se',hse',hp'⟩ := hv
    rw [hmiddle] at hse'
    by_cases hne : sid' = sid
    · subst hne
      obtain ⟨se₁,hse₁,-,rfl⟩ := lookup_unlist.mp hse'
      exact ⟨se₁,hse₁,hp'⟩
    · exact ⟨se',(lookup_unlist_ne hne _ w).symm.trans hse',hp'⟩
  have hstages : s.Stages _ _ _ sid w se killed order :=
    ⟨hse,hfirst,hmiddle,hlast,hkilled,horder⟩
  have hdrawn := drawn_unlist (killed.foldl closePane s) sid w
  rw [← hmiddle] at hdrawn
  refine ⟨inv_foldl_removePane order (inv_closeWindow hi w unkilled),
    ⟨hlast.drawn.1.trans (hdrawn.1.trans hfirst.drawn.1),
      hlast.drawn.2.trans (hdrawn.2.trans hfirst.drawn.2)⟩,fun _ hne => hstages.others hne,
    hstages.ended,fun hnot se₀ hse₀ => ?_⟩
  obtain rfl := Option.some.inj (hse.symm.trans hse₀)
  exact hstages.kept hnot

end closing

end Registry

end Pyre.Session
