import Pyre.Supervisor.Ending
import Pyre.Supervisor.Placing

/-!
The windows of a session as they are listed. After a restart they are in the store
alone, and which of them come into memory depends on the call that is made first.
-/

set_option autoImplicit false

namespace Pyre.Supervisor
open Base

structure WindowInfo where
  id : WindowId
  session : SessionKey
  name : String
  position : UInt32
  paneCount : UInt32
  deriving DecidableEq, Repr

namespace SupervisorImpl

/-! Listing. -/

/-- A window of the store is taken into memory. -/
def warm (session : SessionKey) (s : SupervisorImpl) (row : WindowRow) : SupervisorImpl :=
  let s := s.orInsertMeta row.id ⟨session,row.name,row.position,none⟩
  if row.id ∈ s.windowsOf session then s else s.pushWindow session row.id

/-- `Store::get_window_name` -/
def windowName (s : SupervisorImpl) (w : WindowId) : Option String :=
  (s.windowRows.find? fun r => r.id = w).map WindowRow.name

/-- The name in the store goes before the one in memory. -/
def windowInfo (s : SupervisorImpl) (session : SessionKey) (w : WindowId) : Option WindowInfo :=
  (s.windowStore.lookup w).map fun info =>
    { id := w
      session
      name := ((s.windowName w).filter (· ≠ "")).getD info.name
      position := info.position
      paneCount := .ofNat (s.paneWindowMap.values.filter (· = w)).length }

/-- What `list_windows` leaves in memory: with nothing cached, all that is in the store. -/
def loadWindows (s : SupervisorImpl) (session : SessionKey) : SupervisorImpl :=
  if s.windowsOf session = [] then (s.listWindows session).foldl (warm session) s else s

/-- The reply of `list_windows`. -/
def windowInfos (s : SupervisorImpl) (session : SessionKey) : List WindowInfo :=
  let windows :=
    if s.windowsOf session = [] then (s.listWindows session).map WindowRow.id
    else s.windowsOf session
  windows.filterMap ((s.loadWindows session).windowInfo session)

/-- The layout of the first window, and where there is none a single leaf. -/
def getSessionLayout (s : SupervisorImpl) (session : SessionKey) (first : UInt32)
    (fresh : PaneId) : SupervisorImpl × Option LayoutNode :=
  match (s.windowsOf session).head? with
  | some w => s.getWindowLayout w first fresh
  | none =>
    match (s.listWindows session).head? with
    | some row => (s.warm session row).getWindowLayout row.id first fresh
    | none =>
      if first ∈ s.slots session then
        let (s,pane) := s.getOrAllocPaneBySlot session first fresh
        (s,pane.map .leaf)
      else (s,none)

end SupervisorImpl

/-- The calls for a session. -/
inductive WindowCall where
  | listPanes (listed : List (UInt32 × PaneId)) (fresh : WindowId)
  | getSessionLayout (first : UInt32) (fresh : PaneId)
  | newWindow (name : Option String) (w : WindowId)
  | closeWindow (w : WindowId)
  | openPane (asked : Option WindowId) (pane : PaneId) (fresh : WindowId)
  | listWindows
  deriving DecidableEq, Repr

namespace SupervisorImpl

def serve (session : SessionKey) (s : SupervisorImpl) : WindowCall → Option SupervisorImpl
  | .listPanes listed fresh => s.step (.listPanes session listed fresh)
  | .getSessionLayout first fresh =>
    if s.UnusedPane fresh then some (s.getSessionLayout session first fresh).1 else none
  | .newWindow name w => s.step (.newWindow session name w)
  | .closeWindow w => s.step (.closeWindow w)
  | .openPane asked pane fresh => s.step (.openPane session asked pane fresh)
  | .listWindows => some (s.loadWindows session)

/-- Every window that is stored for the session is listed once, in ascending order. -/
def ListsWindows (session : SessionKey) (s : SupervisorImpl) : Prop :=
  (∀ r ∈ s.windowRows, r.session = session →
    (s.windowInfos session).countP (fun info => info.id = r.id) = 1) ∧
    (s.windowInfos session).Pairwise fun a b => a.position ≤ b.position

/-- No window is in memory; an id stands for one row of the store. -/
structure Restarted (s : SupervisorImpl) : Prop where
  windowStore : s.windowStore = ∅
  sessionWindows : s.sessionWindows = ∅
  paneWindowMap : s.paneWindowMap = ∅
  keyed : (s.windowRows.map WindowRow.id).Nodup

/-! When a call leaves the list complete. -/

/-- A pane is listed that has no window. -/
def Unplaced (s : SupervisorImpl) (session : SessionKey) (listed : List (UInt32 × PaneId)) : Prop :=
  ∃ e ∈ listed, ∃ p, (s.getOrAllocPaneBySlot session e.1 e.2).2 = some p ∧
    s.paneWindowMap.lookup p = none

/-- Something is cached, or there is but one window to cache. -/
def LoadsAll (s : SupervisorImpl) (session : SessionKey) : Prop :=
  s.windowsOf session = [] → (s.listWindows session).length ≤ 1

def positionOf (s : SupervisorImpl) (w : WindowId) : Option UInt32 :=
  (s.windowStore.lookup w).map WindowMeta.position

/-- Something is cached, or there is no other window, and none has a position beyond the count. -/
def Appends (s : SupervisorImpl) (session : SessionKey) (w : WindowId) : Prop :=
  (s.windowsOf session = [] → ∀ r ∈ s.listWindows session, r.id = w) ∧
    ∀ v ∈ s.windowsOf session, ∀ p ∈ s.positionOf v, p ≤ .ofNat (s.windowsOf session).length

def KeepsList (session : SessionKey) (s : SupervisorImpl) : WindowCall → Prop
  | .listPanes listed _ => s.Unplaced session listed → s.LoadsAll session
  | .getSessionLayout _ _ => s.LoadsAll session
  | .newWindow _ w => s.Appends session w
  | .openPane none _ _ => s.LoadsAll session
  | .openPane (some w) _ _ => w ∈ s.windowsOf session ∨ s.Appends session w
  | .closeWindow _ | .listWindows => True

variable {s t u : SupervisorImpl} {session : SessionKey} {v w : WindowId} {p : PaneId}

/-! What changes only panes and layouts. -/

/-- What a row says but for the name and the layout. -/
def rowPlace (r : WindowRow) : WindowId × SessionKey × UInt32 := (r.id,r.session,r.position)

/-- The same windows are known and stored, at the same positions. -/
structure SameWindows (s t : SupervisorImpl) : Prop where
  sessionWindows : t.sessionWindows = s.sessionWindows
  sessionOf : ∀ v, t.sessionOf v = s.sessionOf v
  positionOf : ∀ v, t.positionOf v = s.positionOf v
  places : t.windowRows.map rowPlace = s.windowRows.map rowPlace

namespace SameWindows

theorem refl (s : SupervisorImpl) : s.SameWindows s :=
  ⟨rfl,fun _ => rfl,fun _ => rfl,rfl⟩

theorem trans (h : s.SameWindows t) (h' : t.SameWindows u) : s.SameWindows u where
  sessionWindows := h'.sessionWindows.trans h.sessionWindows
  sessionOf v := (h'.sessionOf v).trans (h.sessionOf v)
  positionOf v := (h'.positionOf v).trans (h.positionOf v)
  places := h'.places.trans h.places

theorem ids (h : s.SameWindows t) :
    t.windowRows.map WindowRow.id = s.windowRows.map WindowRow.id := by
  have hids := congrArg (List.map Prod.fst) h.places
  rwa [List.map_map,List.map_map] at hids

theorem stored_at (h : s.SameWindows t) (session : SessionKey) (v : WindowId) (p : UInt32) :
    (∃ r ∈ t.windowRows, r.session = session ∧ r.id = v ∧ r.position = p) ↔
      ∃ r ∈ s.windowRows, r.session = session ∧ r.id = v ∧ r.position = p := by
  have hplace : ∀ rows : List WindowRow,
      (∃ r ∈ rows, r.session = session ∧ r.id = v ∧ r.position = p) ↔
        (v,session,p) ∈ rows.map rowPlace := by
    intro rows
    simp only [List.mem_map,rowPlace,Prod.mk.injEq]
    exact exists_congr fun r => and_congr_right fun _ => by tauto
  rw [hplace,hplace,h.places]

theorem stored (h : s.SameWindows t) (session : SessionKey) (v : WindowId) :
    (∃ r ∈ t.windowRows, r.session = session ∧ r.id = v) ↔
      ∃ r ∈ s.windowRows, r.session = session ∧ r.id = v := by
  have hany : ∀ rows : List WindowRow, (∃ r ∈ rows, r.session = session ∧ r.id = v) ↔
      ∃ p, ∃ r ∈ rows, r.session = session ∧ r.id = v ∧ r.position = p := by
    intro rows
    rw [exists_comm]
    simp
  rw [hany,hany]
  exact exists_congr fun p => h.stored_at session v p

/-- Tables of panes alone differ. -/
theorem of_panes (hstore : t.windowStore = s.windowStore) (hrows : t.windowRows = s.windowRows)
    (hlists : t.sessionWindows = s.sessionWindows) : s.SameWindows t where
  sessionWindows := hlists
  sessionOf v := by rw [SupervisorImpl.sessionOf,SupervisorImpl.sessionOf,hstore]
  positionOf v := by rw [SupervisorImpl.positionOf,SupervisorImpl.positionOf,hstore]
  places := by rw [hrows]

theorem setLayout (s : SupervisorImpl) (w : WindowId) (tree : LayoutNode) :
    s.SameWindows (s.setLayout w tree) where
  sessionWindows := (samePanes_setLayout s w tree).sessionWindows
  sessionOf v := sessionOf_setLayout s w v tree
  positionOf v := by
    unfold SupervisorImpl.setLayout
    cases hw : s.windowStore.lookup w with
    | none => rfl
    | some info =>
      by_cases h : v = w
      · subst h
        simp only [SupervisorImpl.positionOf,lookup_setMeta_self,hw,Option.map_some]
      · simp only [SupervisorImpl.positionOf,lookup_setMeta_ne h]
  places := by rw [windowRows_setLayout]

theorem upsertWindowLayout (s : SupervisorImpl) (w : WindowId) (tree : LayoutNode) :
    s.SameWindows (s.upsertWindowLayout w tree) where
  sessionWindows := rfl
  sessionOf _ := rfl
  positionOf _ := rfl
  places := by
    rw [SupervisorImpl.upsertWindowLayout,List.map_map]
    refine List.map_congr_left fun r _ => ?_
    simp only [Function.comp_apply]
    split <;> rfl

theorem storeLayout (s : SupervisorImpl) (w : WindowId) (tree : LayoutNode) :
    s.SameWindows ((s.setLayout w tree).upsertWindowLayout w tree) :=
  (setLayout s w tree).trans (upsertWindowLayout _ w tree)

theorem prunePane (s : SupervisorImpl) (p : PaneId) : s.SameWindows (s.prunePane p) := by
  unfold SupervisorImpl.prunePane
  split
  · exact refl s
  · simp only
    have hunassign : s.SameWindows (s.unassign p) := of_panes rfl rfl rfl
    split
    · exact hunassign
    · exact hunassign.trans (storeLayout _ _ _)

theorem paneClosed (s : SupervisorImpl) (session : SessionKey) (slot : UInt32) (fresh : PaneId) :
    s.SameWindows (s.paneClosed session slot fresh) := by
  simp only [SupervisorImpl.paneClosed]
  split
  · split <;> exact of_panes rfl rfl rfl
  · refine .trans ?_ (prunePane _ _)
    split <;> exact of_panes rfl rfl rfl

theorem closeOnWorker (s : SupervisorImpl) (p : PaneId) : s.SameWindows (s.closeOnWorker p) := by
  unfold SupervisorImpl.closeOnWorker workerClose
  split
  · split
    · have hclosed : ∀ session slot, s.SameWindows (s.closeSlot session slot) :=
        fun _ _ => of_panes rfl rfl rfl
      exact (hclosed _ _).trans (paneClosed _ _ _ _)
    · exact refl s
  · exact refl s

theorem closePanesOf (s : SupervisorImpl) (w : WindowId) : s.SameWindows (s.closePanesOf w) := by
  rw [SupervisorImpl.closePanesOf]
  generalize s.listPanesForWindow w = panes
  induction panes generalizing s with
  | nil => exact refl s
  | cons p panes ih =>
    have hunassign : (s.closeOnWorker p).SameWindows ((s.closeOnWorker p).unassign p) :=
      of_panes rfl rfl rfl
    exact ((closeOnWorker s p).trans hunassign).trans (ih _)

theorem getWindowLayout (s : SupervisorImpl) (w : WindowId) (first : UInt32) (fresh : PaneId) :
    s.SameWindows (s.getWindowLayout w first fresh).1 := by
  unfold SupervisorImpl.getWindowLayout
  split
  · exact refl s
  · split
    · split
      · exact of_panes rfl rfl rfl
      · exact refl s
    · rename_i tree _
      have hset := setLayout s w tree
      simp only
      split
      · exact hset
      · split
        · exact hset
        · exact hset.trans (storeLayout _ _ _)

end SameWindows

/-! What is in memory. -/

/-- The windows in memory are those cached for the session. -/
structure Cached (s : SupervisorImpl) (session : SessionKey) : Prop where
  nodup : (s.windowsOf session).Nodup
  known : ∀ v, s.sessionOf v = if v ∈ s.windowsOf session then some session else none
  keyed : (s.windowRows.map WindowRow.id).Nodup

def Stored (s : SupervisorImpl) (session : SessionKey) (v : WindowId) : Prop :=
  ∃ r ∈ s.windowRows, r.session = session ∧ r.id = v

/-- All that is stored is cached, in ascending order. -/
structure Loaded (s : SupervisorImpl) (session : SessionKey) : Prop where
  all : ∀ v, s.Stored session v → v ∈ s.windowsOf session
  ascending : (s.windowsOf session).Pairwise fun v w =>
    ∀ p ∈ s.positionOf v, ∀ q ∈ s.positionOf w, p ≤ q

theorem mem_listWindows_iff {r : WindowRow} :
    r ∈ s.listWindows session ↔ r ∈ s.windowRows ∧ r.session = session := by
  rw [listWindows,List.mem_insertionSort,List.mem_filter,decide_eq_true_iff]

theorem stored_iff : s.Stored session v ↔ ∃ r ∈ s.listWindows session, r.id = v := by
  simp only [Stored,mem_listWindows_iff,and_assoc]

theorem Cached.nodup_listWindows (h : s.Cached session) :
    ((s.listWindows session).map WindowRow.id).Nodup := by
  have hperm := (List.perm_insertionSort (fun a b : WindowRow => a.position ≤ b.position)
    (s.windowRows.filter fun r => r.session = session)).map WindowRow.id
  exact hperm.nodup_iff.mpr (h.keyed.sublist (List.filter_sublist.map _))

theorem Cached.of_same (h : s.Cached session) (hsame : s.SameWindows t) : t.Cached session := by
  have hlist : t.windowsOf session = s.windowsOf session := by
    rw [windowsOf,windowsOf,hsame.sessionWindows]
  refine ⟨hlist ▸ h.nodup,fun v => ?_,hsame.ids ▸ h.keyed⟩
  rw [hsame.sessionOf,hlist,h.known]

theorem sessionOf_isSome : s.sessionOf v ≠ none ↔ ∃ info, s.windowStore.lookup v = some info := by
  rw [sessionOf,ne_eq,Option.map_eq_none_iff,← ne_eq,Option.ne_none_iff_exists']

theorem windowsOf_pushWindow (s : SupervisorImpl) (session : SessionKey) (w : WindowId) :
    (s.pushWindow session w).windowsOf session = s.windowsOf session ++ [w] := by
  simp [pushWindow,windowsOf]

/-- With nothing cached, all rows go into memory as they are stored. -/
theorem warm_all (rows : List WindowRow) (hnodup : (rows.map WindowRow.id).Nodup)
    (hnew : ∀ r ∈ rows, s.windowStore.lookup r.id = none ∧ r.id ∉ s.windowsOf session) :
    let t := rows.foldl (warm session) s
    t.windowsOf session = s.windowsOf session ++ rows.map WindowRow.id ∧
      (∀ r ∈ rows, t.windowStore.lookup r.id = some ⟨session,r.name,r.position,none⟩) ∧
      (∀ v ∉ rows.map WindowRow.id, t.windowStore.lookup v = s.windowStore.lookup v) ∧
      t.windowRows = s.windowRows := by
  induction rows generalizing s with
  | nil => simp
  | cons r rows ih =>
    obtain ⟨hr,hrows⟩ := List.nodup_cons.mp hnodup
    obtain ⟨⟨hlookup,hlist⟩,hrest⟩ := List.forall_mem_cons.mp hnew
    set u := s.warm session r with hu
    have hwarm : u = (s.setMeta r.id ⟨session,r.name,r.position,none⟩).pushWindow session r.id := by
      have hinsert : s.orInsertMeta r.id ⟨session,r.name,r.position,none⟩ =
          s.setMeta r.id ⟨session,r.name,r.position,none⟩ := by rw [orInsertMeta,hlookup]
      rw [hu,warm,hinsert]
      exact if_neg hlist
    have hulist : u.windowsOf session = s.windowsOf session ++ [r.id] := by
      rw [hwarm,windowsOf_pushWindow]
      rfl
    have hukept : ∀ v, v ≠ r.id → u.windowStore.lookup v = s.windowStore.lookup v := by
      intro v hv
      rw [hwarm]
      exact lookup_setMeta_ne hv s _
    have hne : ∀ r' ∈ rows, r'.id ≠ r.id := by
      intro r' hr' heq
      exact hr (heq ▸ List.mem_map_of_mem hr')
    obtain ⟨htlist,htrows,htkept,htstore⟩ := ih hrows (s := u) fun r' hr' => by
      rw [hukept _ (hne r' hr'),hulist]
      exact ⟨(hrest r' hr').1,by simpa [hne r' hr'] using (hrest r' hr').2⟩
    refine ⟨?_,?_,?_,?_⟩
    · rw [List.foldl_cons,htlist,hulist,List.append_assoc]
      rfl
    · rw [List.forall_mem_cons]
      refine ⟨?_,htrows⟩
      rw [List.foldl_cons,htkept r.id hr,hwarm]
      exact lookup_setMeta_self s r.id _
    · intro v hv
      rw [List.map_cons,List.mem_cons,not_or] at hv
      rw [List.foldl_cons,htkept v hv.2,hukept v hv.1]
    · rw [List.foldl_cons,htstore,hwarm]
      rfl

/-! When the list is complete. -/

theorem ids_windowInfos {ws : List WindowId} (h : ∀ w ∈ ws, s.sessionOf w ≠ none) :
    (ws.filterMap (s.windowInfo session)).map WindowInfo.id = ws := by
  induction ws with
  | nil => rfl
  | cons w ws ih =>
    obtain ⟨hw,hws⟩ := List.forall_mem_cons.mp h
    obtain ⟨info,hinfo⟩ := sessionOf_isSome.mp hw
    have hsome : ∃ i, s.windowInfo session w = some i ∧ i.id = w := by
      rw [windowInfo,hinfo]
      exact ⟨_,rfl,rfl⟩
    obtain ⟨i,hi,hid⟩ := hsome
    rw [List.filterMap_cons_some hi,List.map_cons,hid,ih hws]

theorem ascending_windowInfos (ws : List WindowId) :
    (ws.filterMap (s.windowInfo session)).Pairwise (fun a b => a.position ≤ b.position) ↔
      ws.Pairwise fun v w => ∀ p ∈ s.positionOf v, ∀ q ∈ s.positionOf w, p ≤ q := by
  rw [List.pairwise_filterMap]
  simp [windowInfo,positionOf]

theorem count_windowInfos {ws : List WindowId} (h : ∀ w ∈ ws, s.sessionOf w ≠ none)
    (hnodup : ws.Nodup) (w : WindowId) :
    (ws.filterMap (s.windowInfo session)).countP (fun info => info.id = w) = 1 ↔ w ∈ ws := by
  have hcount : (ws.filterMap (s.windowInfo session)).countP (fun info => info.id = w) =
      ws.count w := by
    conv_rhs => rw [← @ids_windowInfos s session ws h]
    rw [List.count,List.countP_map]
    rfl
  rw [hcount]
  constructor
  · intro hone
    exact List.count_pos_iff.mp (by omega)
  · exact List.count_eq_one_of_mem hnodup

/-- A cache that is cold is filled from the store; one that is not has to have all. -/
theorem listsWindows_iff (h : s.Cached session) :
    s.ListsWindows session ↔ s.windowsOf session = [] ∨ s.Loaded session := by
  unfold ListsWindows windowInfos loadWindows
  by_cases hcold : s.windowsOf session = []
  · rw [if_pos hcold,if_pos hcold]
    refine iff_of_true ?_ (Or.inl hcold)
    have hnone : ∀ v, s.windowStore.lookup v = none := by
      intro v
      have hv := h.known v
      rw [hcold,if_neg List.not_mem_nil,sessionOf,Option.map_eq_none_iff] at hv
      exact hv
    obtain ⟨-,hrows,-,-⟩ := @warm_all s session (s.listWindows session)
      h.nodup_listWindows fun r _ => ⟨hnone r.id,by simp [hcold]⟩
    set t := (s.listWindows session).foldl (warm session) s
    have hknown : ∀ w ∈ (s.listWindows session).map WindowRow.id, t.sessionOf w ≠ none := by
      intro w hw
      obtain ⟨r,hr,rfl⟩ := List.mem_map.mp hw
      exact sessionOf_isSome.mpr ⟨_,hrows r hr⟩
    refine ⟨fun r hr hsession => ?_,?_⟩
    · rw [count_windowInfos hknown h.nodup_listWindows]
      exact List.mem_map_of_mem (mem_listWindows_iff.mpr ⟨hr,hsession⟩)
    · rw [ascending_windowInfos,List.pairwise_map]
      have hsorted : (s.listWindows session).Pairwise fun a b => a.position ≤ b.position :=
        List.pairwise_insertionSort _ _
      refine hsorted.imp_of_mem fun {a b} ha hb hab p hp q hq => ?_
      rw [positionOf,hrows a ha] at hp
      rw [positionOf,hrows b hb] at hq
      obtain rfl := Option.some.inj hp
      obtain rfl := Option.some.inj hq
      exact hab
  · rw [if_neg hcold,if_neg hcold,or_iff_right hcold,ascending_windowInfos]
    have hknown : ∀ w ∈ s.windowsOf session, s.sessionOf w ≠ none := by
      intro w hw
      rw [h.known,if_pos hw]
      exact Option.some_ne_none _
    simp only [count_windowInfos hknown h.nodup]
    constructor
    · rintro ⟨hall,hascending⟩
      refine ⟨fun v hv => ?_,hascending⟩
      obtain ⟨r,hr,hsession,rfl⟩ := hv
      exact hall r hr hsession
    · intro hloaded
      exact ⟨fun r hr hsession => hloaded.all r.id ⟨r,hr,hsession,rfl⟩,hloaded.ascending⟩

theorem listsWindows_of_same (h : s.Cached session) (hsame : s.SameWindows t) :
    t.ListsWindows session ↔ s.ListsWindows session := by
  have hlist : t.windowsOf session = s.windowsOf session := by
    rw [windowsOf,windowsOf,hsame.sessionWindows]
  have hloaded : t.Loaded session ↔ s.Loaded session := by
    constructor
    · intro ht
      refine ⟨fun v hv => hlist ▸ ht.all v ((hsame.stored session v).mpr hv),?_⟩
      simpa only [hlist,hsame.positionOf] using ht.ascending
    · intro hs
      refine ⟨fun v hv => hlist ▸ hs.all v ((hsame.stored session v).mp hv),?_⟩
      simpa only [hlist,hsame.positionOf] using hs.ascending
  rw [listsWindows_iff h,listsWindows_iff (h.of_same hsame),hlist,hloaded]

end SupervisorImpl

end Pyre.Supervisor
