import Pyre.Session.TeardownRuns
import Pyre.Supervisor.TeardownSession
import Pyre.Supervisor.Visible

/-!
In every run the window of a pane is the one that the store has, and what the index has was told
to clients. The calls that close are then whole and alone just where their conditions hold.
-/

set_option autoImplicit false

namespace Pyre.Supervisor
open Base

namespace SupervisorImpl

variable {s t : SupervisorImpl} {session : SessionKey} {w : WindowId} {p : PaneId}

/-! The tables that have the windows of panes. -/

def homes (s : SupervisorImpl) : Table PaneId WindowId × Table PaneId WindowId :=
  (s.paneWindowMap,s.paneRows)

theorem Filed.of_homes (h : s.Filed) (heq : t.homes = s.homes) : t.Filed := by
  obtain ⟨hmap,hrows⟩ := Prod.mk.inj heq
  intro p v hv
  rw [hmap] at hv
  rw [hrows]
  exact h p v hv

theorem Removes.filed {gone : PaneId → SlotKey → Prop} (hr : s.Removes t gone) (h : s.Filed) :
    t.Filed := by
  intro p v hv
  rw [hr.rows]
  exact h p v (hr.mapped p v hv)

theorem filed_assign (h : s.Filed) (p : PaneId) (w : WindowId) : (s.assign p w).Filed := by
  intro q v hv
  rcases Table.lookup_insert_eq_some.mp hv with ⟨rfl,rfl⟩ | ⟨hne,hold⟩
  · exact AList.lookup_insert _
  · exact (AList.lookup_insert_ne hne).trans (h q v hold)

theorem homes_orInsertMeta (s : SupervisorImpl) (w : WindowId) (info : WindowMeta) :
    (s.orInsertMeta w info).homes = s.homes := by
  have hsame := samePanes_orInsertMeta s w info
  rw [homes,hsame.paneWindowMap,hsame.paneRows,homes]

theorem homes_setLayout (s : SupervisorImpl) (w : WindowId) (tree : LayoutNode) :
    (s.setLayout w tree).homes = s.homes := by
  have hsame := samePanes_setLayout s w tree
  rw [homes,hsame.paneWindowMap,hsame.paneRows,homes]

theorem homes_default (s : SupervisorImpl) (session : SessionKey) (fresh : WindowId) :
    (s.getOrCreateDefaultWindow session fresh).1.homes = s.homes := by
  unfold getOrCreateDefaultWindow
  split
  · rfl
  · split
    · exact homes_orInsertMeta s _ _
    · rfl

theorem homes_warm (session : SessionKey) (s : SupervisorImpl) (row : WindowRow) :
    (warm session s row).homes = s.homes := by
  have hmeta := homes_orInsertMeta s row.id ⟨session,row.name,row.position,none⟩
  simp only [warm]
  split <;> exact hmeta

theorem homes_loadWindows (s : SupervisorImpl) (session : SessionKey) :
    (s.loadWindows session).homes = s.homes := by
  have hall : ∀ rows : List WindowRow, ∀ s, (rows.foldl (warm session) s).homes = s.homes := by
    intro rows
    induction rows with
    | nil => exact fun _ => rfl
    | cons row rows ih => exact fun s => (ih _).trans (homes_warm session s row)
  unfold loadWindows
  split
  · exact hall _ s
  · rfl

theorem homes_getWindowLayout (s : SupervisorImpl) (w : WindowId) (first : UInt32)
    (fresh : PaneId) : (s.getWindowLayout w first fresh).1.homes = s.homes := by
  unfold getWindowLayout
  split
  · rfl
  · split
    · split <;> rfl
    · rename_i tree _
      have hset := homes_setLayout s w tree
      simp only
      split
      · exact hset
      · split
        · exact hset
        · exact (homes_setLayout _ _ _).trans hset

theorem homes_getSessionLayout (s : SupervisorImpl) (session : SessionKey) (first : UInt32)
    (fresh : PaneId) : (s.getSessionLayout session first fresh).1.homes = s.homes := by
  unfold getSessionLayout
  split
  · exact homes_getWindowLayout s _ first fresh
  · split
    · exact (homes_getWindowLayout _ _ first fresh).trans (homes_warm session s _)
    · split <;> rfl

theorem filed_placeOpened (h : s.Filed) (session : SessionKey) (p : PaneId) (w : WindowId) :
    (s.placeOpened session p w).Filed := by
  have hassign := filed_assign h p w
  simp only [placeOpened]
  split
  · exact hassign
  · exact hassign.of_homes (homes_orInsertMeta _ _ _)

theorem filed_placeSplit (h : s.Filed) (session : SessionKey) (parent p : PaneId) (orient : Orient)
    (w : WindowId) : (s.placeSplit session parent p orient w).Filed := by
  have hmeta := h.of_homes (homes_orInsertMeta s w ⟨session,"1",0,some (.leaf parent)⟩)
  simp only [placeSplit]
  split
  · exact hmeta
  · exact filed_assign (hmeta.of_homes (homes_setLayout _ _ _)) p w

theorem filed_listPane (h : s.Filed) (session : SessionKey) (slot : UInt32) (p : PaneId)
    (fresh : WindowId) : (s.listPane session slot p fresh).Filed := by
  have halloc : (s.getOrAllocPaneBySlot session slot p).1.Filed := h
  simp only [listPane]
  split
  · exact halloc
  · split
    · exact halloc
    · exact filed_assign (halloc.of_homes (homes_default _ session fresh)) _ _

/-- No operation gives a pane a window in memory alone. -/
theorem filed_step (h : s.Filed) {a : Operation} (hstep : s.step a = some t) : t.Filed := by
  cases a with
  | spawn session pane w =>
    simp only [step,Option.ite_none_right_eq_some,Option.some.injEq] at hstep
    obtain ⟨-,rfl⟩ := hstep
    exact filed_assign h pane w
  | newWindow session name w =>
    simp only [step,Option.ite_none_right_eq_some,Option.some.injEq] at hstep
    obtain ⟨-,rfl⟩ := hstep
    exact h
  | openPane session asked pane fresh =>
    simp only [step,Option.ite_none_right_eq_some,Option.some.injEq] at hstep
    obtain ⟨-,rfl⟩ := hstep
    refine filed_placeOpened ?_ session pane _
    cases asked with
    | some w => exact h
    | none => exact Filed.of_homes (s := s) h (homes_default _ session fresh)
  | openPaneSplit parent orient pane fresh =>
    obtain ⟨k,-,hstep⟩ := Option.bind_eq_some_iff.mp hstep
    simp only [Option.ite_none_right_eq_some,Option.some.injEq] at hstep
    obtain ⟨-,rfl⟩ := hstep
    refine filed_placeSplit ?_ k.1 parent pane orient _
    split
    · exact h
    · exact Filed.of_homes (s := s) h (homes_default _ k.1 fresh)
  | closePane pane =>
    obtain ⟨k,-,hstep⟩ := Option.bind_eq_some_iff.mp hstep
    simp only [Option.ite_none_right_eq_some,Option.some.injEq] at hstep
    obtain ⟨-,rfl⟩ := hstep
    exact (removes_closePane s pane).filed h
  | shellExit session slot fresh =>
    simp only [step,Option.ite_none_right_eq_some,Option.some.injEq] at hstep
    obtain ⟨hfresh,rfl⟩ := hstep
    exact (removes_workerClose fun _ => hfresh).filed h
  | listPanes session listed fresh =>
    simp only [step,Option.ite_none_right_eq_some,Option.some.injEq] at hstep
    obtain ⟨-,rfl⟩ := hstep
    simp only [listPanes]
    induction listed generalizing s with
    | nil => exact h
    | cons e listed ih => exact ih (filed_listPane h session e.1 e.2 fresh)
  | closeWindow w =>
    obtain rfl := Option.some.inj hstep
    obtain ⟨gone,hr,-,-⟩ := removes_closePanesOf s w
    obtain ⟨-,-,hmap,hrows⟩ := samePanes_dropWindow (s.closePanesOf w) w
    exact (hr.filed h).of_homes (Prod.ext hmap hrows)
  | getWindowLayout w first fresh =>
    simp only [step,Option.ite_none_right_eq_some,Option.some.injEq] at hstep
    obtain ⟨-,rfl⟩ := hstep
    exact h.of_homes (homes_getWindowLayout s w first fresh)
  | callback session slot fresh =>
    simp only [step,Option.ite_none_right_eq_some,Option.some.injEq] at hstep
    obtain ⟨-,rfl⟩ := hstep
    exact h
  | removeWorker session =>
    obtain rfl := Option.some.inj hstep
    exact h
  | registerWorker session slots =>
    simp only [step,Option.ite_none_right_eq_some,Option.some.injEq] at hstep
    obtain ⟨-,rfl⟩ := hstep
    exact h
  | restart =>
    obtain rfl := Option.some.inj hstep
    intro p v hv
    cases hv

end SupervisorImpl

namespace Fleet

variable {d e : Fleet} {session : SessionKey} {w : WindowId} {p : PaneId}
  {reports : List WorkerReport}

/-! The requests, slot by slot and as a whole. -/

theorem impl_workerClose (d : Fleet) (k : SlotKey) (fresh : PaneId) :
    (d.workerClose k fresh).impl = d.impl.workerClose k.1 k.2 fresh := by
  unfold workerClose SupervisorImpl.workerClose
  split
  · rename_i hopen
    rw [paneClosed,if_pos hopen]
  · rfl

theorem impl_closeOnWorker (d : Fleet) (p : PaneId) :
    (d.closeOnWorker p).impl = d.impl.closeOnWorker p := by
  unfold closeOnWorker SupervisorImpl.closeOnWorker
  cases d.impl.index.lookup p with
  | none => rfl
  | some k => exact impl_workerClose d k p

theorem impl_closePanes (panes : List PaneId) (d : Fleet) :
    (d.closePanes panes).impl = panes.foldl (fun s p => (s.closeOnWorker p).unassign p) d.impl := by
  induction panes generalizing d with
  | nil => rfl
  | cons p panes ih =>
    rw [List.foldl_cons,← impl_closeOnWorker]
    exact ih _

theorem impl_closeWindow (d : Fleet) (w : WindowId) :
    (d.closeWindow w).impl = d.impl.closeWindow w := by
  have hpanes := impl_closePanes (d.impl.listPanesForWindow w) d
  rw [SupervisorImpl.closeWindow,SupervisorImpl.closePanesOf,← hpanes]
  rfl

theorem homes_blockEvents (late : List (SlotKey × PaneId)) (d : Fleet) :
    (d.blockEvents late).impl.homes = d.impl.homes := by
  induction late generalizing d with
  | nil => rfl
  | cons e late ih => exact ih _

/-- The supervisor does what it does without the shards. -/
theorem serve_impl {a : Operation} (h : d.serve a = some e) : d.impl.step a = some e.impl := by
  have hother : ∀ a, (if d.Admits a then (d.impl.step a).map fun s =>
      { d with impl := s, shards := d.shardsAfter a } else none) = some e →
      d.impl.step a = some e.impl := by
    intro a h
    rw [Option.ite_none_right_eq_some,Option.map_eq_some_iff] at h
    obtain ⟨-,s,hs,rfl⟩ := h
    exact hs
  cases a with
  | closePane pane =>
    obtain ⟨k,hk,h⟩ := Option.bind_eq_some_iff.mp h
    simp only [Option.ite_none_right_eq_some,Option.some.injEq] at h
    obtain ⟨hworker,rfl⟩ := h
    rw [SupervisorImpl.step,hk,Option.bind_some,if_pos hworker,SupervisorImpl.closePane,
      ← impl_closeOnWorker]
    rfl
  | shellExit session slot fresh =>
    simp only [serve,Option.ite_none_right_eq_some,Option.some.injEq] at h
    obtain ⟨hfresh,rfl⟩ := h
    rw [SupervisorImpl.step,if_pos hfresh,impl_workerClose]
  | closeWindow w => cases h
  | _ => exact hother _ h

/-! What holds in every run. -/

theorem known_empty : empty.Known := by
  refine ⟨fun p v hv => ?_,fun p k hk => ?_⟩
  · cases hv
  · cases hk

theorem known_tell (h : d.impl.Filed) : d.tell.Known := by
  refine ⟨h,fun p k hk => List.mem_append_left _ ?_⟩
  exact AList.mem_keys.mpr (AList.lookup_isSome.mp (Option.isSome_of_eq_some hk))

theorem known_closeSession (h : d.Known) (hr : d.Ready reports) :
    (d.closeSession session reports).Known := by
  obtain ⟨hreports,hc,-,-⟩ := reports_closeSession d session hr
  obtain ⟨heard,hstill⟩ := hreports.still
  refine ⟨fun p v hv => ?_,fun p k hk => ?_⟩
  · rw [hstill.impl] at hv ⊢
    exact (congrArg (AList.lookup p) hc.paneRows).trans (h.rows p v ((hc.homes p v).mp hv).1)
  · by_cases hs : k.1 = session
    · obtain ⟨_,slot⟩ := k
      obtain rfl := hs
      exact hstill.told p slot hk
    · have hold := (hstill.others p k hs).mp hk
      exact hreports.told p (h.told p k ((hc.lookup p k).mp hold).1)

theorem known_step (h : d.Known) {a : FleetCall} (hstep : d.step a = some e) : e.Known := by
  cases a with
  | request a =>
    obtain ⟨e,he,rfl⟩ := Option.map_eq_some_iff.mp hstep
    exact known_tell (SupervisorImpl.filed_step h.rows (serve_impl he))
  | closeWindow w late =>
    simp only [step,Option.ite_none_right_eq_some,Option.some.injEq] at hstep
    obtain ⟨-,rfl⟩ := hstep
    have hserved : d.impl.step (.closeWindow w) = some (d.impl.closeWindow w) := rfl
    have hclosed := SupervisorImpl.filed_step h.rows hserved
    rw [← impl_closeWindow] at hclosed
    exact known_tell (hclosed.of_homes (homes_blockEvents late _))
  | listWindows session =>
    obtain rfl := Option.some.inj hstep
    refine ⟨h.rows.of_homes (SupervisorImpl.homes_loadWindows d.impl session),fun p k hk => ?_⟩
    obtain ⟨⟨ws,hloads⟩,-⟩ := SupervisorImpl.loads_loadWindows d.impl session
    exact h.told p k (hloads.index ▸ hk)
  | getSessionLayout session first fresh =>
    simp only [step,Option.ite_none_right_eq_some,Option.some.injEq] at hstep
    obtain ⟨-,rfl⟩ := hstep
    exact known_tell (h.rows.of_homes (SupervisorImpl.homes_getSessionLayout d.impl session first
      fresh))
  | exit session slot heard =>
    simp only [step,Option.ite_none_right_eq_some] at hstep
    obtain ⟨⟨hworker,-,hfresh⟩,hstep⟩ := hstep
    cases heard with
    | none =>
      obtain rfl := Option.some.inj hstep
      exact ⟨h.rows,h.told⟩
    | some fresh =>
      obtain rfl := Option.some.inj hstep
      have hshut : slot ∉ d.impl.slots session := by simp [SupervisorImpl.slots,hworker]
      have hfiled := (SupervisorImpl.removes_paneClosed hshut fun _ =>
        hfresh fresh rfl).filed h.rows
      refine known_tell ?_
      rw [paneClosed,if_neg hshut]
      exact hfiled
  | closeSession session reports =>
    simp only [step,Option.ite_none_right_eq_some,Option.some.injEq] at hstep
    obtain ⟨⟨-,hdistinct,hfresh⟩,rfl⟩ := hstep
    exact known_closeSession h ⟨hdistinct,hfresh⟩

/-- A window or a session that is closed goes whole and alone. -/
def GoesWhole (d : Fleet) (a : FleetCall) : Prop :=
  ∀ e, d.step a = some e → match a with
    | .closeWindow w _ => d.holdings.Takes e.holdings (d.windowPart w)
    | .closeSession session _ => d.holdings.Takes e.holdings (d.sessionPart session)
    | _ => True

/-- The condition on a call that closes. -/
def EndsWell (d : Fleet) (a : FleetCall) : Prop :=
  (d.step a).isSome → match a with
    | .closeWindow w late => d.EndsAlone w late
    | .closeSession session reports => d.EndsWhole session reports
    | _ => True

theorem endsWell_iff (h : d.Known) (a : FleetCall) : d.EndsWell a ↔ d.GoesWhole a := by
  cases a with
  | closeWindow w late =>
    have hstep : d.step (.closeWindow w late) =
        if (∀ e ∈ late, d.Shut w e.1) ∧ (late.map Prod.snd).Nodup ∧ ∀ e ∈ late, d.Fresh e.2 then
          some ((d.closeWindow w).blockEvents late).tell else none := rfl
    simp only [EndsWell,GoesWhole,hstep]
    split
    · rename_i hcall
      obtain ⟨hshut,hdistinct,hfresh⟩ := hcall
      have hiff := takes_closeWindow_iff h hshut hdistinct hfresh
      simp only [Option.isSome_some,forall_const,Option.some.injEq,forall_eq']
      exact hiff.symm
    · simp
  | closeSession session reports =>
    have hstep : d.step (.closeSession session reports) =
        if WorkerReport.All (d.impl.slots session) reports ∧
          (reports.map WorkerReport.fresh).Nodup ∧ ∀ r ∈ reports, d.Fresh r.fresh then
          some (d.closeSession session reports) else none := rfl
    simp only [EndsWell,GoesWhole,hstep]
    split
    · rename_i hcall
      obtain ⟨hall,hdistinct,hfresh⟩ := hcall
      have hiff := takes_closeSession_iff h hall ⟨hdistinct,hfresh⟩
      simp only [Option.isSome_some,forall_const,Option.some.injEq,forall_eq']
      exact hiff.symm
    · simp
  | _ => exact iff_of_true (fun _ => trivial) fun _ _ => trivial

end Fleet

open Session in
/-- In a run of either kind of daemon every window and session that is closed goes whole and alone
just if every call that closes one meets its condition. -/
theorem closes_whole_iff (calls : List DaemonCall) (requests : List FleetCall) :
    (Along DaemonState.step DaemonState.EndsWell .empty calls ↔
      Along DaemonState.step DaemonState.GoesWhole .empty calls) ∧
    (Along Fleet.step Fleet.EndsWell .empty requests ↔
      Along Fleet.step Fleet.GoesWhole .empty requests) := by
  constructor
  · exact along_congr DaemonState.step_ok (fun _ a h => DaemonState.endsWell_iff h a)
      DaemonState.ok_empty calls
  · exact along_congr (fun _ _ _ h => Fleet.known_step h) (fun _ a h => Fleet.endsWell_iff h a)
      Fleet.known_empty requests

/-- The session has one pane, whose slot its worker closes after the grace period. -/
def closedUnheard : List FleetCall :=
  [.request (.spawn "s" ⟨1⟩ ⟨1⟩),.closeSession "s" [.paneClosed 0 ⟨2⟩]]

/-- `Closed` names an id that is drawn for the slot then, as the index has nothing of the session. -/
theorem closed_never_announced :
    ¬∀ calls, Along Fleet.step Fleet.GoesWhole .empty calls := by
  intro hall
  have hrun := hall closedUnheard
  have hopened : Fleet.step .empty (.request (.spawn "s" ⟨1⟩ ⟨1⟩)) =
      some ((Fleet.step .empty (.request (.spawn "s" ⟨1⟩ ⟨1⟩))).getD .empty) := by rfl
  have hwhole := (hrun.2 _ hopened).1 _ rfl
  have hnamed := hwhole.named ⟨2⟩
  simp only [Fleet.holdings] at hnamed
  exact absurd hnamed (by decide)

end Pyre.Supervisor
