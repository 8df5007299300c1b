import Pyre.Base.Ranked
import Pyre.Session.Layouts

/-!
The order of a session's windows, in memory and in the store. A window is stored at a
position that is the count of the windows before it, and to close one moves no other.
-/

set_option autoImplicit false

namespace Pyre.Session
open Base

/-- A row of the store's table `windows`, whose layout is of no matter here. -/
structure WindowRow where
  id : WindowId
  session : SessionId
  name : String
  position : UInt32
  deriving DecidableEq, Repr

/-- The registry beside the store. -/
structure Stored where
  registry : Registry
  rows : List WindowRow

/-- `written` tells if the store takes the write; where it does not there is a warning. -/
inductive WindowCall where
  | newWindow (name : Option String) (w : WindowId) (written : Bool)
  | closeWindow (w : WindowId) (unkilled : List PaneId) (written : Bool)
  deriving DecidableEq, Repr

namespace Registry

/-- The windows of the session in memory, in their order. -/
def windowsOf (s : Registry) (sid : SessionId) : List WindowId :=
  ((s.sessions.lookup sid).map fun se => se.windows.map WindowState.id).getD []

/-- The window is closed with all the panes of its session, of which there are some. -/
def EndsWith (s : Registry) (sid : SessionId) (w : WindowId) (unkilled : List PaneId) : Prop :=
  w ∈ s.windowsOf sid ∧ (∃ p v, s.Has sid p v) ∧ ∀ p v, s.Has sid p v → v = w ∧ p ∉ unkilled

end Registry

namespace Stored

def rowsOf (s : Stored) (sid : SessionId) : List WindowRow := s.rows.filter fun r => r.session = sid

/-- `Store::list_windows` -/
def listWindows (s : Stored) (sid : SessionId) : List WindowRow :=
  (s.rowsOf sid).insertionSort fun a b => a.position ≤ b.position

/-- With its default window. -/
def newSession (s : Stored) (sid : SessionId) (w : WindowId) (written : Bool) : Option Stored :=
  (s.registry.step (.newSession sid w)).map fun registry =>
    ⟨registry,if written then s.rows ++ [⟨w,sid,"1",0⟩] else s.rows⟩

/-- A call that finds no session or no such window fails before it changes anything. -/
def step (sid : SessionId) (s : Stored) : WindowCall → Option Stored
  | .newWindow name w written =>
    match s.registry.sessions.lookup sid with
    | none => some s
    | some se =>
      let position : UInt32 := .ofNat se.windows.length
      let name := (name.filter (· ≠ "")).getD (toString (position+1))
      (s.registry.step (.newWindow sid w)).map fun registry =>
        ⟨registry,if written then s.rows ++ [⟨w,sid,name,position⟩] else s.rows⟩
  | .closeWindow w unkilled written =>
    some ⟨s.registry.closeWindow w unkilled,
      if (s.registry.findWindow w).isSome ∧ written then s.rows.filter fun r => r.id ≠ w
      else s.rows⟩

/-- No two windows are stored at one position, and sorted by it they come as in memory. -/
def InOrder (sid : SessionId) (s : Stored) : Prop :=
  ((s.rowsOf sid).map WindowRow.position).Nodup ∧
    (s.listWindows sid).map WindowRow.id = s.registry.windowsOf sid

/-- A new window is stored, at a position beyond all others; a closed one is deleted, and
if its panes are the last of the session it has no other windows. -/
def KeepsOrder (sid : SessionId) (s : Stored) : WindowCall → Prop
  | .newWindow _ _ written => s.registry.sessions.lookup sid ≠ none →
    written = true ∧ ∀ r ∈ s.rowsOf sid, r.position < .ofNat (s.registry.windowsOf sid).length
  | .closeWindow w unkilled written => w ∈ s.registry.windowsOf sid →
    written = true ∧ (s.registry.EndsWith sid w unkilled → s.registry.windowsOf sid = [w])

end Stored

/-! What `close_window` leaves of a session. -/

namespace Registry

variable {s t : Registry} {sid sid' : SessionId} {se : SessionState} {w : WindowId} {p : PaneId}

theorem windowsOf_of_lookup (h : s.sessions.lookup sid = some se) :
    s.windowsOf sid = se.windows.map WindowState.id := by
  rw [windowsOf,h,Option.map_some,Option.getD_some]

theorem windowsOf_of_none (h : s.sessions.lookup sid = none) : s.windowsOf sid = [] := by
  rw [windowsOf,h,Option.map_none,Option.getD_none]

theorem mem_windowsOf : w ∈ s.windowsOf sid ↔
    ∃ se, s.sessions.lookup sid = some se ∧ ∃ win, se.findWindow w = some win := by
  cases hse : s.sessions.lookup sid with
  | none => simp [windowsOf_of_none hse]
  | some se =>
    rw [windowsOf_of_lookup hse,List.mem_map]
    simp only [Option.some.injEq,exists_eq_left']
    constructor
    · rintro ⟨win,hwin,rfl⟩
      rw [← Option.isSome_iff_exists,SessionState.findWindow,List.find?_isSome]
      exact ⟨win,hwin,by simp⟩
    · rintro ⟨win,hwin⟩
      exact ⟨win,List.mem_of_find?_eq_some hwin,SessionState.id_of_findWindow hwin⟩

theorem getPane_of_has (hi : s.Inv) (hse : s.sessions.lookup sid = some se)
    (hp : se.panes.lookup p = some w) : s.getPane p = some (sid,se,w) := by
  have hhas : s.Has sid p w := ⟨se,hse,hp⟩
  obtain ⟨⟨sid₁,se₁,w₁⟩,hget⟩ := Option.isSome_iff_exists.mp (isSome_getPane hhas)
  obtain ⟨hse₁,hp₁⟩ := getPane_eq_some hget
  obtain rfl := hi.pane_home sid sid₁ p w w₁ hhas ⟨se₁,hse₁,hp₁⟩
  obtain rfl := Option.some.inj (hse.symm.trans hse₁)
  obtain rfl := Option.some.inj (hp.symm.trans hp₁)
  exact hget

theorem closePane_of_has (hi : s.Inv) (hse : s.sessions.lookup sid = some se)
    (hp : se.panes.lookup p = some w) : s.closePane p = s.settle sid (se.closePane p w) := by
  rw [closePane,getPane_of_has hi hse hp]

/-- The panes of one window are closed one after another: the session goes with its last
pane, and else keeps its windows. -/
structure PanesClosed (s : Registry) (sid : SessionId) (w : WindowId) (panes : List PaneId)
    (t : Registry) : Prop where
  drawn : t.drawnWindows = s.drawnWindows
  others : ∀ sid', sid' ≠ sid → t.sessions.lookup sid' = s.sessions.lookup sid'
  gone : (∃ p v, s.Has sid p v) → (∀ p v, s.Has sid p v → p ∈ panes) →
    t.sessions.lookup sid = none
  kept : ((∃ p v, s.Has sid p v) → ∃ p v, s.Has sid p v ∧ p ∉ panes) →
    ∃ se, t.sessions.lookup sid = some se ∧ se.windows.map WindowState.id = s.windowsOf sid

theorem panesClosed {panes : List PaneId} (hi : s.Inv) (hse : s.sessions.lookup sid = some se)
    (hpanes : ∀ p ∈ panes, se.panes.lookup p = some w) (hnodup : panes.Nodup) :
    PanesClosed s sid w panes (panes.foldl closePane s) := by
  induction panes generalizing s se with
  | nil =>
    refine ⟨rfl,fun _ _ => rfl,?_,fun _ => ⟨se,hse,(windowsOf_of_lookup hse).symm⟩⟩
    rintro ⟨p,v,hp⟩ hall
    exact absurd (hall p v hp) List.not_mem_nil
  | cons p panes ih =>
    obtain ⟨hp,hrest⟩ := List.forall_mem_cons.mp hpanes
    obtain ⟨hnew,hnodup⟩ := List.nodup_cons.mp hnodup
    have hhas : ∀ q v, s.Has sid q v ↔ se.panes.lookup q = some v := fun q v => by
      simp [Has,hse]
    have hone := closePane_of_has hi hse hp
    have hi' : (s.settle sid (se.closePane p w)).Inv := hone ▸ inv_closePane hi p
    rw [List.foldl_cons,hone]
    by_cases hempty : (se.closePane p w).panes.entries = []
    · have hnone : ∀ q v, (se.closePane p w).panes.lookup q ≠ some v := by
        intro q v hq
        rw [Table.lookup_eq_some,hempty] at hq
        cases hq
      have honly : ∀ q v, se.panes.lookup q = some v → q = p := by
        intro q v hq
        by_contra hne
        exact hnone q v (SessionState.lookup_closePane.mpr ⟨hne,hq⟩)
      have hlast : panes = [] := by
        refine List.eq_nil_iff_forall_not_mem.mpr fun q hq => ?_
        exact hnew (honly q w (hrest q hq) ▸ hq)
      subst hlast
      have hdrop : s.settle sid (se.closePane p w) = s.dropSession sid := if_pos hempty
      rw [List.foldl_nil,hdrop]
      refine ⟨rfl,fun sid' h => AList.lookup_erase_ne h,fun _ _ => AList.lookup_erase _ _,?_⟩
      intro hkept
      obtain ⟨q,v,hq,hqp⟩ := hkept ⟨p,w,(hhas p w).mpr hp⟩
      exact absurd (honly q v ((hhas q v).mp hq)) (by simpa using hqp)
    · have hkeep : s.settle sid (se.closePane p w) = s.update sid (se.closePane p w) :=
        if_neg hempty
      rw [hkeep] at hi' ⊢
      have hse' : (s.update sid (se.closePane p w)).sessions.lookup sid =
          some (se.closePane p w) := AList.lookup_insert _
      have hhas' : ∀ q v, (s.update sid (se.closePane p w)).Has sid q v ↔
          q ≠ p ∧ se.panes.lookup q = some v := fun q v => by
        rw [← SessionState.lookup_closePane (w := w)]
        simp [Has,hse']
      have hmore : ∃ q v, (s.update sid (se.closePane p w)).Has sid q v := by
        obtain ⟨e,he⟩ := List.exists_mem_of_ne_nil _ hempty
        exact ⟨e.1,e.2,_,hse',Table.lookup_eq_some.mpr he⟩
      have hclosed := ih hi' hse' (fun q hq => by
        refine SessionState.lookup_closePane.mpr ⟨?_,hrest q hq⟩
        rintro rfl
        exact hnew hq) hnodup
      refine ⟨hclosed.drawn,fun sid' h => ?_,fun _ hall => ?_,fun hkept => ?_⟩
      · exact (hclosed.others sid' h).trans (AList.lookup_insert_ne h)
      · refine hclosed.gone hmore fun q v hq => ?_
        obtain ⟨hne,hq⟩ := (hhas' q v).mp hq
        exact List.mem_of_ne_of_mem hne (hall q v ((hhas q v).mpr hq))
      · obtain ⟨q,v,hq,hqp⟩ := hkept ⟨p,w,(hhas p w).mpr hp⟩
        rw [List.mem_cons,not_or] at hqp
        obtain ⟨se',hlookup,hids⟩ := hclosed.kept fun _ =>
          ⟨q,v,(hhas' q v).mpr ⟨hqp.1,(hhas q v).mp hq⟩,hqp.2⟩
        refine ⟨se',hlookup,hids.trans ?_⟩
        rw [windowsOf_of_lookup hse',windowsOf_of_lookup hse]
        simp [SessionState.closePane,SessionState.modifyLayout,Function.comp_def,apply_ite]

theorem windowsOf_congr (h : t.sessions.lookup sid = s.sessions.lookup sid) :
    t.windowsOf sid = s.windowsOf sid := by rw [windowsOf,windowsOf,h]

theorem nodup_panesIn (se : SessionState) (w : WindowId) : (se.panesIn w).Nodup :=
  List.Nodup.sublist (List.filter_sublist.map Sigma.fst) se.panes.nodupKeys

/-- The session that lists the window is the one that `close_window` finds. -/
theorem find_windowsOf (hi : s.Inv) (hse : s.sessions.lookup sid = some se)
    (hw : w ∈ s.windowsOf sid) :
    s.sessions.entries.find? (fun e => (e.2.findWindow w).isSome) = some ⟨sid,se⟩ := by
  obtain ⟨se₀,hse₀,win,hwin⟩ := mem_windowsOf.mp hw
  obtain rfl := Option.some.inj (hse.symm.trans hse₀)
  have hsome : (s.sessions.entries.find? fun e => (e.2.findWindow w).isSome).isSome :=
    List.find?_isSome.mpr ⟨⟨sid,se⟩,Table.lookup_eq_some.mp hse,by simp [hwin]⟩
  obtain ⟨⟨sid₁,se₁⟩,hfind⟩ := Option.isSome_iff_exists.mp hsome
  have hse₁ := Table.lookup_eq_some.mpr (List.mem_of_find?_eq_some hfind)
  obtain ⟨win₁,hwin₁⟩ := Option.isSome_iff_exists.mp (by simpa using List.find?_some hfind)
  obtain rfl := hi.unique_window hse hwin hse₁ hwin₁
  obtain rfl := Option.some.inj (hse.symm.trans hse₁)
  exact hfind

/-- The session that has the window: without its last panes it is gone. -/
theorem closeWindow_own (hi : s.Inv) (hw : w ∈ s.windowsOf sid) (unkilled : List PaneId) :
    (s.closeWindow w unkilled).drawnWindows = s.drawnWindows ∧
      (∀ sid', sid' ≠ sid →
        (s.closeWindow w unkilled).sessions.lookup sid' = s.sessions.lookup sid') ∧
      (s.EndsWith sid w unkilled → (s.closeWindow w unkilled).windowsOf sid = []) ∧
      (¬s.EndsWith sid w unkilled →
        (s.closeWindow w unkilled).windowsOf sid = (s.windowsOf sid).filter (· ≠ w)) := by
  obtain ⟨se,hse,-⟩ := mem_windowsOf.mp hw
  have hfind := find_windowsOf hi hse hw
  simp only [closeWindow,hfind]
  have hmem : ∀ q, q ∈ (se.panesIn w).filter (fun pane => pane ∉ unkilled) ↔
      s.Has sid q w ∧ q ∉ unkilled := by simp [SessionState.mem_panesIn,Has,hse]
  have hclosed := panesClosed hi hse
    (fun q hq => SessionState.mem_panesIn.mp (List.mem_filter.mp hq).1)
    ((nodup_panesIn se w).filter fun pane => pane ∉ unkilled)
  set killed := (se.panesIn w).filter fun pane => pane ∉ unkilled
  set u := killed.foldl closePane s
  have hall : (∀ p v, s.Has sid p v → p ∈ killed) ↔
      ∀ p v, s.Has sid p v → v = w ∧ p ∉ unkilled := by
    refine forall₃_congr fun p v hp => (hmem p).trans (and_congr_left fun _ => ?_)
    obtain ⟨se',hse',hp'⟩ := hp
    obtain rfl := Option.some.inj (hse.symm.trans hse')
    simp [Has,hse,hp']
  by_cases hends : s.EndsWith sid w unkilled
  · have hnone := hclosed.gone hends.2.1 (hall.mpr hends.2.2)
    simp only [hnone]
    exact ⟨hclosed.drawn,hclosed.others,fun _ => windowsOf_of_none hnone,fun h => absurd hends h⟩
  · obtain ⟨se',hlookup,hids⟩ := hclosed.kept fun hsome => by
      by_contra hnot
      push Not at hnot
      exact hends ⟨hw,hsome,hall.mp hnot⟩
    have hfilter : (se'.removeWindow w).windows.map WindowState.id =
        (s.windowsOf sid).filter (· ≠ w) := by
      rw [← hids,List.filter_map]
      rfl
    simp only [hlookup]
    refine ⟨?_,?_,fun h => absurd h hends,fun _ => ?_⟩
    · split <;> exact hclosed.drawn
    · intro sid' hne
      split
      · exact (AList.lookup_erase_ne hne).trans (hclosed.others sid' hne)
      · exact (AList.lookup_insert_ne hne).trans (hclosed.others sid' hne)
    · rw [← hfilter]
      split
      · rename_i hempty
        rw [hempty]
        exact windowsOf_of_none (AList.lookup_erase _ _)
      · exact windowsOf_of_lookup (AList.lookup_insert _)

/-- Of the windows of any session one is taken away, and all where the session ends. -/
theorem windowsOf_closeWindow (hi : s.Inv) (sid : SessionId) (w : WindowId)
    (unkilled : List PaneId) :
    (s.closeWindow w unkilled).drawnWindows = s.drawnWindows ∧
      (w ∉ s.windowsOf sid → (s.closeWindow w unkilled).windowsOf sid = s.windowsOf sid) := by
  by_cases hknown : ∃ sid₁, w ∈ s.windowsOf sid₁
  · obtain ⟨sid₁,hw⟩ := hknown
    obtain ⟨hdrawn,hothers,-⟩ := closeWindow_own hi hw unkilled
    refine ⟨hdrawn,fun hnot => windowsOf_congr (hothers sid ?_)⟩
    rintro rfl
    exact hnot hw
  · have hfind : s.sessions.entries.find? (fun e => (e.2.findWindow w).isSome) = none := by
      refine List.find?_eq_none.mpr fun e he hsome => hknown ⟨e.1,mem_windowsOf.mpr ?_⟩
      exact ⟨e.2,Table.lookup_eq_some.mpr he,Option.isSome_iff_exists.mp hsome⟩
    rw [closeWindow,hfind]
    exact ⟨rfl,fun _ => rfl⟩

end Registry

/-! What the calls leave in the store. -/

namespace Stored

variable {s t : Stored} {sid : SessionId} {w : WindowId}

/-- An id stands for one row, and is drawn. -/
structure Keyed (s : Stored) : Prop where
  inv : s.registry.Inv
  rows : (s.rows.map WindowRow.id).Nodup
  drawn : ∀ r ∈ s.rows, r.id ∈ s.registry.drawnWindows

theorem inOrder_iff : s.InOrder sid ↔
    Ranked WindowRow.position WindowRow.id (s.rowsOf sid) (s.registry.windowsOf sid) :=
  (ranked_iff fun _ _ => UInt32.le_antisymm).symm

theorem rowsOf_filter (sid : SessionId) (rows : List WindowRow) (registry : Registry)
    (w : WindowId) : (Stored.mk registry (rows.filter fun r => r.id ≠ w)).rowsOf sid =
      ((Stored.mk registry rows).rowsOf sid).filter fun r => r.id ≠ w := by
  simp only [rowsOf]
  exact List.filter_comm _ _ _

/-- The window that is drawn may have its row. -/
theorem Keyed.draw (h : s.Keyed) {registry : Registry} (hi : registry.Inv)
    (hdrawn : registry.drawnWindows = w :: s.registry.drawnWindows)
    (hw : w ∉ s.registry.drawnWindows) {r : WindowRow} (hr : r.id = w) (written : Bool) :
    (Stored.mk registry (if written then s.rows ++ [r] else s.rows)).Keyed := by
  have hold : ∀ r ∈ s.rows, r.id ∈ registry.drawnWindows := fun r hr =>
    hdrawn ▸ List.mem_cons_of_mem w (h.drawn r hr)
  cases written with
  | false => exact ⟨hi,h.rows,hold⟩
  | true =>
    refine ⟨hi,?_,fun r' hr' => ?_⟩
    · simp only [if_true,List.map_append,List.map_cons,List.map_nil]
      refine h.rows.append (List.nodup_singleton _) (List.disjoint_singleton.mpr fun hmem => ?_)
      obtain ⟨r',hr',heq⟩ := List.mem_map.mp hmem
      exact hw (hr ▸ heq ▸ h.drawn r' hr')
    · rcases List.mem_append.mp hr' with hr' | hr'
      · exact hold r' hr'
      · rw [List.mem_singleton.mp hr',hr,hdrawn]
        exact List.mem_cons_self

theorem Keyed.step (h : s.Keyed) {a : WindowCall} (ht : s.step sid a = some t) : t.Keyed := by
  cases a with
  | newWindow name w written =>
    simp only [Stored.step] at ht
    split at ht
    · obtain rfl := Option.some.inj ht
      exact h
    · obtain ⟨registry,hstep,rfl⟩ := Option.map_eq_some_iff.mp ht
      have hinv := Registry.step_inv _ _ _ h.inv hstep
      rename_i se hse
      simp only [Registry.step,hse,Option.bind_some,Option.ite_none_right_eq_some,
        Option.some.injEq] at hstep
      obtain ⟨hw,rfl⟩ := hstep
      exact h.draw hinv rfl hw rfl written
  | closeWindow w unkilled written =>
    obtain rfl := Option.some.inj ht
    obtain ⟨hdrawn,-⟩ := Registry.windowsOf_closeWindow h.inv sid w unkilled
    refine ⟨Registry.inv_closeWindow h.inv w unkilled,?_,fun r hr => ?_⟩
    · split
      · exact h.rows.sublist (List.filter_sublist.map _)
      · exact h.rows
    · simp only [hdrawn]
      refine h.drawn r ?_
      dsimp only at hr
      split at hr
      · exact (List.mem_filter.mp hr).1
      · exact hr

/-- A session begins in order, where its default window is stored. -/
theorem newSession_inOrder (h : s.Keyed) (hrows : s.rowsOf sid = [])
    (ht : s.newSession sid w true = some t) : t.Keyed ∧ t.InOrder sid := by
  obtain ⟨registry,hstep,rfl⟩ := Option.map_eq_some_iff.mp ht
  have hinv := Registry.step_inv _ _ _ h.inv hstep
  simp only [Registry.step,Option.ite_none_right_eq_some,Option.some.injEq] at hstep
  obtain ⟨⟨-,hw⟩,rfl⟩ := hstep
  refine ⟨h.draw hinv rfl hw rfl true,inOrder_iff.mpr ?_⟩
  have hrow : (Stored.mk { s.registry.update sid ⟨∅,[⟨w,none⟩]⟩ with
      drawnWindows := w :: s.registry.drawnWindows } (s.rows ++ [⟨w,sid,"1",0⟩])).rowsOf sid =
        [⟨w,sid,"1",0⟩] := by
    rw [rowsOf] at hrows
    simp [rowsOf,hrows]
  rw [if_pos rfl,hrow,Registry.windowsOf_of_lookup (AList.lookup_insert _)]
  exact ⟨_,.refl _,List.pairwise_singleton _ _,rfl⟩

theorem keepsOrder_newWindow (h : s.Keyed) (hs : s.InOrder sid) (name : Option String)
    (written : Bool) (ht : s.step sid (.newWindow name w written) = some t) :
    t.InOrder sid ↔ s.KeepsOrder sid (.newWindow name w written) := by
  rw [inOrder_iff] at hs ⊢
  simp only [Stored.step] at ht
  split at ht
  · rename_i hnone
    obtain rfl := Option.some.inj ht
    exact iff_of_true hs fun hsome => absurd hnone hsome
  rename_i se hse
  obtain ⟨registry,hstep,rfl⟩ := Option.map_eq_some_iff.mp ht
  simp only [Registry.step,hse,Option.bind_some,Option.ite_none_right_eq_some,
    Option.some.injEq] at hstep
  obtain ⟨hw,rfl⟩ := hstep
  have hlist := Registry.windowsOf_of_lookup hse
  have hnew : w ∉ s.registry.windowsOf sid := by
    intro hmem
    obtain ⟨r,hr,rfl⟩ := hs.mem_labels.mp hmem
    exact hw (h.drawn r (List.mem_filter.mp hr).1)
  set registry : Registry :=
    { s.registry.update sid (se.addWindow w) with drawnWindows := w :: s.registry.drawnWindows }
  have hafter : registry.windowsOf sid = s.registry.windowsOf sid ++ [w] := by
    rw [hlist,Registry.windowsOf_of_lookup (AList.lookup_insert _)]
    simp [SessionState.addWindow]
  simp only [hafter]
  cases written with
  | false =>
    refine iff_of_false (fun hranked => ?_) fun hkeeps => by simpa using (hkeeps (by simp [hse])).1
    obtain ⟨r,hr,rfl⟩ := hranked.mem_labels.mp (List.mem_append_right _ (List.mem_singleton_self w))
    exact hnew (hs.mem_labels.mpr ⟨r,hr,rfl⟩)
  | true =>
    set row : WindowRow := ⟨w,sid,(name.filter (· ≠ "")).getD
      (toString ((.ofNat se.windows.length : UInt32)+1)),.ofNat se.windows.length⟩
    have hrows : (Stored.mk registry (s.rows ++ [row])).rowsOf sid = s.rowsOf sid ++ [row] := by
      simp [rowsOf,row]
    rw [if_pos rfl,hrows]
    refine (hs.snoc_iff (a := row) hnew).trans ?_
    simp only [KeepsOrder,hse,ne_eq,reduceCtorEq,not_false_eq_true,forall_const,true_and,hlist,
      List.length_map,UInt32.not_le,row]

theorem findWindow_isSome (hw : w ∈ s.registry.windowsOf sid) :
    (s.registry.findWindow w).isSome := by
  obtain ⟨se,hse,win,hwin⟩ := Registry.mem_windowsOf.mp hw
  rw [Option.isSome_iff_ne_none]
  intro hnone
  have hnot := List.findSome?_eq_none_iff.mp hnone ⟨sid,se⟩ (Table.lookup_eq_some.mp hse)
  rw [hwin] at hnot
  cases hnot

theorem keepsOrder_closeWindow (h : s.Keyed) (hs : s.InOrder sid) (unkilled : List PaneId)
    (written : Bool) (ht : s.step sid (.closeWindow w unkilled written) = some t) :
    t.InOrder sid ↔ s.KeepsOrder sid (.closeWindow w unkilled written) := by
  obtain rfl := Option.some.inj ht
  rw [inOrder_iff] at hs ⊢
  have hdeleted : (Stored.mk (s.registry.closeWindow w unkilled)
      (s.rows.filter fun r => r.id ≠ w)).rowsOf sid = (s.rowsOf sid).filter fun r => r.id ≠ w :=
    rowsOf_filter sid s.rows _ w
  by_cases hw : w ∈ s.registry.windowsOf sid
  swap
  · obtain ⟨-,hsame⟩ := Registry.windowsOf_closeWindow h.inv sid w unkilled
    refine iff_of_true ?_ fun hmem => absurd hmem hw
    simp only [hsame hw]
    split
    · rw [hdeleted,List.filter_eq_self.mpr]
      · exact hs
      intro r hr
      have hne : r.id ≠ w := fun heq => hw (hs.mem_labels.mpr ⟨r,hr,heq⟩)
      simpa using hne
    · exact hs
  obtain ⟨-,-,hends,hstays⟩ := Registry.closeWindow_own h.inv hw unkilled
  simp only [findWindow_isSome hw,true_and,KeepsOrder,hw,forall_const]
  cases written with
  | false =>
    refine iff_of_false (fun hranked => ?_) (by simp)
    have hleft : w ∈ (s.registry.closeWindow w unkilled).windowsOf sid := by
      obtain ⟨r,hr,rfl⟩ := hs.mem_labels.mp hw
      exact hranked.mem_labels.mpr ⟨r,hr,rfl⟩
    by_cases hlast : s.registry.EndsWith sid w unkilled
    · simp [hends hlast] at hleft
    · simp [hstays hlast] at hleft
  | true =>
    simp only [if_true,hdeleted,true_and]
    by_cases hlast : s.registry.EndsWith sid w unkilled
    swap
    · rw [hstays hlast]
      exact iff_of_true (hs.filter fun v => v ≠ w) fun h => absurd h hlast
    simp only [hends hlast,hlast,forall_const]
    have honly : (s.registry.windowsOf sid = [w]) ↔ ∀ v ∈ s.registry.windowsOf sid, v = w := by
      constructor
      · rintro heq v hv
        rwa [heq,List.mem_singleton] at hv
      · intro hall
        have hnodup : (s.registry.windowsOf sid).Nodup :=
          hs.perm_labels.nodup_iff.mp (h.rows.sublist (List.filter_sublist.map _))
        have hrep := List.eq_replicate_iff.mpr ⟨rfl,hall⟩
        rw [hrep,List.nodup_replicate] at hnodup
        have hpos := List.length_pos_of_mem hw
        rw [hrep,Nat.le_antisymm hnodup hpos]
        rfl
    rw [honly]
    constructor
    · intro hranked v hv
      obtain ⟨r,hr,rfl⟩ := hs.mem_labels.mp hv
      by_contra hne
      have hmem := hranked.mem_labels.mpr
        ⟨r,List.mem_filter.mpr ⟨hr,by simpa using hne⟩,rfl⟩
      cases hmem
    · intro hall
      have hnone : (s.rowsOf sid).filter (fun r => r.id ≠ w) = [] := by
        refine List.filter_eq_nil_iff.mpr fun r hr => ?_
        simpa using hall r.id (hs.mem_labels.mpr ⟨r,hr,rfl⟩)
      rw [hnone]
      exact ⟨[],.nil,.nil,rfl⟩

/-- In a run of calls the order in the store stays that in memory just if every call keeps it. -/
theorem inOrder_always_iff (h : s.Keyed) (hs : s.InOrder sid) (calls : List WindowCall) :
    Along (Stored.step sid) (fun s a => (s.step sid a).isSome → s.KeepsOrder sid a) s calls ↔
      Always (Stored.step sid) (InOrder sid) s calls := by
  refine along_iff_always (I := Keyed) (fun s a t hI ht => hI.step ht) (fun s a hI hP => ?_) h hs
  have hone : ∀ t, s.step sid a = some t → (t.InOrder sid ↔ s.KeepsOrder sid a) := by
    intro t ht
    cases a with
    | newWindow name w written => exact keepsOrder_newWindow hI hP name written ht
    | closeWindow w unkilled written => exact keepsOrder_closeWindow hI hP unkilled written ht
  constructor
  · intro hkeeps t ht
    exact (hone t ht).mpr (hkeeps (by rw [ht]; rfl))
  · intro hall hsome
    obtain ⟨t,ht⟩ := Option.isSome_iff_exists.mp hsome
    exact (hone t ht).mp (hall t ht)

/-- A session with its default window. -/
def oneSession : Stored where
  registry := ⟨AList.singleton ⟨1⟩ ⟨∅,[⟨⟨1⟩,none⟩]⟩,[],[⟨1⟩]⟩
  rows := [⟨⟨1⟩,⟨1⟩,"1",0⟩]

theorem inOrder_oneSession : oneSession.Keyed ∧ oneSession.InOrder ⟨1⟩ :=
  newSession_inOrder (s := ⟨.empty,[]⟩) (w := ⟨1⟩)
    ⟨Registry.inv_empty,List.nodup_nil,fun _ h => absurd h List.not_mem_nil⟩ rfl rfl

end Stored

end Pyre.Session
