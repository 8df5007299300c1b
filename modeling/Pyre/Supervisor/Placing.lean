import Pyre.Supervisor.Showing

/-!
Panes and windows that come: the default window of a session, a pane that is opened
or split off into a window, a session that starts.
-/

set_option autoImplicit false

namespace Pyre.Supervisor
open Base

namespace SupervisorImpl

variable {s t : SupervisorImpl} {session : SessionKey} {v w : WindowId} {p q : PaneId}
  {k : SlotKey} {tree : LayoutNode}

/-! The default window. -/

/-- What it takes to have a window of the session: at most one more is known. -/
structure Resolves (s t : SupervisorImpl) (session : SessionKey) (w : WindowId) : Prop where
  index : t.index = s.index
  workers : t.workers = s.workers
  paneWindowMap : t.paneWindowMap = s.paneWindowMap
  paneRows : t.paneRows = s.paneRows
  own : t.sessionOf w = some session
  sessions : ∀ v, s.sessionOf v ≠ none → t.sessionOf v = s.sessionOf v
  unknown : ∀ v, v ≠ w → t.sessionOf v = s.sessionOf v
  trees : ∀ v, s.sessionOf v ≠ none → t.treeOf v = s.treeOf v
  listed : ∀ session', ∀ v ∈ t.windowsOf session',
    v ∈ s.windowsOf session' ∨ v = w ∧ session' = session
  stored : ∀ r ∈ t.windowRows, r ∈ s.windowRows ∨ r.id = w ∧ r.session = session
  rows : ∀ r ∈ t.windowRows, r.id = w → r.session = session

theorem mem_pushWindow {session' : SessionKey} (h : v ∈ (s.pushWindow session w).windowsOf session') :
    v ∈ s.windowsOf session' ∨ v = w ∧ session' = session := by
  by_cases heq : session' = session
  · subst heq
    simp only [windowsOf,pushWindow,AList.lookup_insert,Option.getD_some,List.mem_append,
      List.mem_singleton] at h ⊢
    simpa using h
  · simp only [windowsOf,pushWindow,AList.lookup_insert_ne heq] at h
    exact Or.inl h

theorem mem_listWindows {r : WindowRow} (h : r ∈ s.listWindows session) :
    r ∈ s.windowRows ∧ r.session = session := by
  rw [listWindows,List.mem_insertionSort] at h
  simpa using h

/-- A window, unless it is known, is entered under the session, then listed for it. -/
theorem resolves_enter {info : WindowMeta} (hsession : info.session = session)
    (hknown : s.sessionOf w ≠ none → s.sessionOf w = some session)
    (hsame : s.SamePanes t) (hstore : t.windowStore = s.windowStore)
    (hjson : ∀ v, t.windowLayoutJson v = s.windowLayoutJson v)
    (hstored : ∀ r ∈ t.windowRows, r ∈ s.windowRows ∨ r.id = w ∧ r.session = session)
    (hrows : ∀ r ∈ t.windowRows, r.id = w → r.session = session) :
    Resolves s ((t.orInsertMeta w info).pushWindow session w) session w := by
  have hsessions : ∀ v, t.sessionOf v = s.sessionOf v := by
    intro v
    rw [sessionOf,sessionOf,hstore]
  have htrees : ∀ v, t.treeOf v = s.treeOf v := fun v => treeOf_congr (by rw [hstore]) (hjson v)
  have hpushed : ∀ session', ∀ v ∈ ((t.orInsertMeta w info).pushWindow session w).windowsOf session',
      v ∈ s.windowsOf session' ∨ v = w ∧ session' = session := by
    intro session' v hv
    have horinsert := (samePanes_orInsertMeta t w info).sessionWindows
    refine (mem_pushWindow hv).imp_left fun hv => ?_
    rwa [windowsOf,horinsert,hsame.sessionWindows] at hv
  by_cases hw : s.sessionOf w = none
  · rw [orInsertMeta_unknown ((hsessions w).trans hw)] at hpushed ⊢
    have hne : ∀ {v}, s.sessionOf v ≠ none → v ≠ w := by
      rintro v hv rfl
      exact hv hw
    exact
      { index := hsame.index
        workers := hsame.workers
        paneWindowMap := hsame.paneWindowMap
        paneRows := hsame.paneRows
        own := (sessionOf_setMeta_self t w info).trans (by rw [hsession])
        sessions := fun v hv => (sessionOf_setMeta_ne (hne hv) t info).trans (hsessions v)
        unknown := fun v hv => (sessionOf_setMeta_ne hv t info).trans (hsessions v)
        trees := fun v hv => (treeOf_setMeta_ne (hne hv) t info).trans (htrees v)
        listed := hpushed
        stored := hstored
        rows := hrows }
  · rw [orInsertMeta_known (by rwa [hsessions])] at hpushed ⊢
    exact
      { index := hsame.index
        workers := hsame.workers
        paneWindowMap := hsame.paneWindowMap
        paneRows := hsame.paneRows
        own := (hsessions w).trans (hknown hw)
        sessions := fun v _ => hsessions v
        unknown := fun v _ => hsessions v
        trees := fun v _ => htrees v
        listed := hpushed
        stored := hstored
        rows := hrows }

theorem resolves_default (h : s.Inv) (session : SessionKey) {fresh : WindowId}
    (hfresh : s.UnusedWindow fresh) :
    Resolves s (s.getOrCreateDefaultWindow session fresh).1 session
      (s.getOrCreateDefaultWindow session fresh).2 := by
  unfold getOrCreateDefaultWindow
  split
  · rename_i w hhead
    have hw := h.listed session w (List.mem_of_head? hhead)
    exact
      { index := rfl
        workers := rfl
        paneWindowMap := rfl
        paneRows := rfl
        own := hw
        sessions := fun _ _ => rfl
        unknown := fun _ _ => rfl
        trees := fun _ _ => rfl
        listed := fun _ _ hv => Or.inl hv
        stored := fun _ hr => Or.inl hr
        rows := fun r hr hid => h.stored r hr session (hid ▸ hw) }
  · split
    · rename_i row hhead
      obtain ⟨hmem,hsession⟩ := mem_listWindows (List.mem_of_head? hhead)
      refine resolves_enter rfl ?_ (.refl s) rfl (fun _ => rfl) (fun _ hr => Or.inl hr) ?_
      · intro hknown
        obtain ⟨session',hs⟩ := Option.ne_none_iff_exists'.mp hknown
        rw [hs,← h.stored row hmem session' hs,hsession]
      · exact fun r hr hid => (h.keyed r hr row hmem hid).trans hsession
    · obtain ⟨hunknown,hunstored⟩ := hfresh
      have hnone : s.sessionOf fresh = none := by rw [sessionOf,hunknown]; rfl
      have hnew : ((s.upsertWindow fresh session "1" 0).setMeta fresh ⟨session,"1",0,none⟩) =
          (s.upsertWindow fresh session "1" 0).orInsertMeta fresh ⟨session,"1",0,none⟩ :=
        (orInsertMeta_unknown (s := s.upsertWindow fresh session "1" 0) hnone _).symm
      rw [hnew]
      refine resolves_enter rfl (fun hne => absurd hnone hne) ⟨rfl,rfl,rfl,rfl,rfl⟩ rfl
        (windowLayoutJson_upsertWindow s fresh session "1" 0) ?_ ?_
      · intro r hr
        rcases List.mem_append.mp hr with hr | hr
        · exact Or.inl hr
        · rw [List.mem_singleton.mp hr]
          exact Or.inr ⟨rfl,rfl⟩
      · intro r hr hid
        rcases List.mem_append.mp hr with hr | hr
        · exact absurd hid (hunstored r hr)
        · rw [List.mem_singleton.mp hr]

theorem Resolves.on (h : s.Resolves t session w) : t.On v q k ↔ s.On v q k := by
  rw [On,On,h.index,h.paneWindowMap]

theorem Resolves.unused (h : s.Resolves t session w) (hp : s.UnusedPane p) : t.UnusedPane p := by
  rw [UnusedPane,h.index,h.paneWindowMap,h.paneRows]
  exact hp

theorem Resolves.inv (hr : s.Resolves t session w) (h : s.Inv) : t.Inv := by
  have hknown : ∀ {v q k}, s.On v q k → s.sessionOf v ≠ none := by
    intro v q k hon
    rw [h.home v q k hon]
    exact Option.some_ne_none _
  refine ⟨?_,?_,?_,?_,?_,?_⟩
  · rw [hr.paneWindowMap,hr.paneRows]
    exact h.rows
  · intro v q k hon
    have hon := hr.on.mp hon
    rw [hr.sessions v (hknown hon)]
    exact h.home v q k hon
  · intro session' v hv
    rcases hr.listed session' v hv with hv | ⟨rfl,rfl⟩
    · have hold := h.listed session' v hv
      rw [hr.sessions v (by simp [hold])]
      exact hold
    · exact hr.own
  · intro v q k hon
    rw [hr.workers]
    exact h.staffed v q k (hr.on.mp hon)
  · intro r hmem session' hs
    by_cases hid : r.id = w
    · rw [hid,hr.own,Option.some.injEq] at hs
      exact (hr.rows r hmem hid).trans hs
    · rw [hr.unknown _ hid] at hs
      rcases hr.stored r hmem with hmem | ⟨hid',-⟩
      · exact h.stored r hmem session' hs
      · exact absurd hid' hid
  · intro r₁ hr₁ r₂ hr₂ heq
    rcases hr.stored r₁ hr₁ with hold₁ | ⟨hid₁,hs₁⟩
    · rcases hr.stored r₂ hr₂ with hold₂ | ⟨hid₂,hs₂⟩
      · exact h.keyed r₁ hold₁ r₂ hold₂ heq
      · rw [hs₂]
        exact hr.rows r₁ hr₁ (heq.trans hid₂)
    · rw [hs₁]
      exact (hr.rows r₂ hr₂ (heq.symm.trans hid₁)).symm

theorem Good.resolves (h : s.Good) (hr : s.Resolves t session w) : t.Good := by
  refine ⟨hr.inv h.toInv,fun v q k hon => ?_⟩
  have hon := hr.on.mp hon
  have hknown : s.sessionOf v ≠ none := by
    rw [h.home v q k hon]
    exact Option.some_ne_none _
  exact (h.shown v q k hon).congr (hr.trees v hknown) hr.index hr.workers hr.paneWindowMap

/-! The window is resolved before the slot is handed out as well as after. -/

def withPanes (s : SupervisorImpl) (index : PaneIndex)
    (workers : Table SessionKey (List UInt32)) : SupervisorImpl :=
  { s with index := index, workers := workers }

theorem orInsertMeta_withPanes (s : SupervisorImpl) (index : PaneIndex)
    (workers : Table SessionKey (List UInt32)) (w : WindowId) (info : WindowMeta) :
    (s.withPanes index workers).orInsertMeta w info =
      (s.orInsertMeta w info).withPanes index workers := by
  unfold orInsertMeta
  cases hw : s.windowStore.lookup w with
  | some info => simp only [withPanes,hw]
  | none =>
    simp only [withPanes,hw]
    rfl

theorem default_withPanes (s : SupervisorImpl) (index : PaneIndex)
    (workers : Table SessionKey (List UInt32)) (session : SessionKey) (fresh : WindowId) :
    (s.withPanes index workers).getOrCreateDefaultWindow session fresh =
      ((s.getOrCreateDefaultWindow session fresh).1.withPanes index workers,
        (s.getOrCreateDefaultWindow session fresh).2) := by
  have hws : (s.withPanes index workers).windowsOf session = s.windowsOf session := rfl
  have hrows : (s.withPanes index workers).listWindows session = s.listWindows session := rfl
  simp only [getOrCreateDefaultWindow,hws,hrows]
  cases (s.windowsOf session).head? with
  | some w => rfl
  | none =>
    cases (s.listWindows session).head? with
    | some row =>
      simp only [orInsertMeta_withPanes]
      rfl
    | none => rfl

/-- `open_pane` with its window resolved. -/
def openIn (s : SupervisorImpl) (session : SessionKey) (pane : PaneId) (w : WindowId) :
    SupervisorImpl :=
  let (s,slot) := s.allocPane session pane
  (s.openSlot session slot).placeOpened session pane w

/-- `open_pane_split` with its window resolved. -/
def splitIn (s : SupervisorImpl) (session : SessionKey) (parent pane : PaneId) (orient : Orient)
    (w : WindowId) : SupervisorImpl :=
  let (s,slot) := s.allocPane session pane
  (s.openSlot session slot).placeSplit session parent pane orient w

theorem panes_default (s : SupervisorImpl) (session : SessionKey) (fresh : WindowId) :
    (s.getOrCreateDefaultWindow session fresh).1.index = s.index ∧
      (s.getOrCreateDefaultWindow session fresh).1.workers = s.workers := by
  have h : (s.getOrCreateDefaultWindow session fresh).1 =
      (s.getOrCreateDefaultWindow session fresh).1.withPanes s.index s.workers :=
    congrArg Prod.fst (default_withPanes s s.index s.workers session fresh)
  constructor <;> (rw [h]; rfl)

/-- A slot is handed out and opened. -/
def openNext (s : SupervisorImpl) (session : SessionKey) (pane : PaneId) : SupervisorImpl :=
  s.withPanes (s.index.allocPane session pane).1
    (s.workers.insert session ((s.slots session).insert (s.index.counter session)))

theorem openNext_default (s : SupervisorImpl) (session : SessionKey) (pane : PaneId)
    (fresh : WindowId) :
    (s.openNext session pane).getOrCreateDefaultWindow session fresh =
      ((s.getOrCreateDefaultWindow session fresh).1.openNext session pane,
        (s.getOrCreateDefaultWindow session fresh).2) := by
  obtain ⟨hindex,hworkers⟩ := panes_default s session fresh
  rw [openNext,default_withPanes,openNext,slots,slots,hindex,hworkers]

theorem openPane_eq (s : SupervisorImpl) (session : SessionKey) (asked : Option WindowId)
    (pane : PaneId) (fresh : WindowId) :
    s.openPane session asked pane fresh = (s.resolveWindow session asked fresh).1.openIn session
      pane (s.resolveWindow session asked fresh).2 := by
  cases asked with
  | some w => rfl
  | none =>
    have hresolve := openNext_default s session pane fresh
    have hopen : s.openPane session none pane fresh =
        ((s.openNext session pane).getOrCreateDefaultWindow session fresh).1.placeOpened session
          pane ((s.openNext session pane).getOrCreateDefaultWindow session fresh).2 := rfl
    rw [hopen,hresolve]
    rfl

theorem openPaneSplit_eq (s : SupervisorImpl) (session : SessionKey) (parent : PaneId)
    (orient : Orient) (pane : PaneId) (fresh : WindowId) :
    s.openPaneSplit session parent orient pane fresh =
      (s.parentWindow session parent fresh).1.splitIn session parent pane orient
        (s.parentWindow session parent fresh).2 := by
  have hopen : s.openPaneSplit session parent orient pane fresh =
      ((s.openNext session pane).parentWindow session parent fresh).1.placeSplit session parent
        pane orient ((s.openNext session pane).parentWindow session parent fresh).2 := rfl
  rw [hopen]
  cases hw : s.paneWindowMap.lookup parent with
  | some w =>
    have hopened : (s.openNext session pane).parentWindow session parent fresh =
        (s.openNext session pane,w) := by
      have hw' : (s.openNext session pane).paneWindowMap.lookup parent = some w := hw
      rw [parentWindow,hw']
    have hold : s.parentWindow session parent fresh = (s,w) := by rw [parentWindow,hw]
    rw [hopened,hold]
    rfl
  | none =>
    have hopened : (s.openNext session pane).parentWindow session parent fresh =
        (s.openNext session pane).getOrCreateDefaultWindow session fresh := by
      have hw' : (s.openNext session pane).paneWindowMap.lookup parent = none := hw
      rw [parentWindow,hw']
    have hold : s.parentWindow session parent fresh =
        s.getOrCreateDefaultWindow session fresh := by rw [parentWindow,hw]
    rw [hopened,hold,openNext_default]
    rfl

/-! A pane that is new. -/

/-- A pane is opened at the slot and put into the window. -/
structure Adds (s t : SupervisorImpl) (session : SessionKey) (p : PaneId) (slot : UInt32)
    (w : WindowId) : Prop where
  lookup : ∀ q k, t.index.lookup q = some k ↔
    q = p ∧ k = (session,slot) ∨ q ≠ p ∧ s.index.lookup q = some k
  mapped : ∀ q v, t.paneWindowMap.lookup q = some v ↔
    q = p ∧ v = w ∨ q ≠ p ∧ s.paneWindowMap.lookup q = some v
  rows : ∀ q v, t.paneRows.lookup q = some v ↔
    q = p ∧ v = w ∨ q ≠ p ∧ s.paneRows.lookup q = some v
  dead : t.index.deadSlots = s.index.deadSlots
  slots : ∀ session', session' ≠ session → t.slots session' = s.slots session'
  opened : t.slots session = (s.slots session).insert slot
  workers : ∀ session', session' = session ∨ s.workers.lookup session' ≠ none →
    t.workers.lookup session' ≠ none
  own : t.sessionOf w = some session
  sessions : ∀ v, v ≠ w → t.sessionOf v = s.sessionOf v
  trees : ∀ v, v ≠ w → t.treeOf v = s.treeOf v
  listed : ∀ session', ∀ v ∈ t.windowsOf session',
    v ∈ s.windowsOf session' ∨ v = w ∧ session' = session
  stored : ∀ r ∈ t.windowRows, (∃ r' ∈ s.windowRows, r'.id = r.id ∧ r'.session = r.session) ∨
    r.id = w ∧ r.session = session

section adds

variable {slot : UInt32}

theorem Adds.on (h : s.Adds t session p slot w) :
    t.On v q k ↔ (q = p ∧ v = w ∧ k = (session,slot)) ∨ q ≠ p ∧ s.On v q k := by
  rw [On,On,h.lookup,h.mapped]
  by_cases hq : q = p
  · simp [hq,and_comm]
  · simp [hq]

theorem Adds.inv (ha : s.Adds t session p slot w) (h : s.Inv)
    (hown : ∀ session', s.sessionOf w = some session' → session' = session)
    (hrows : ∀ r ∈ s.windowRows, r.id = w → r.session = session) : t.Inv := by
  have hrow : ∀ r ∈ t.windowRows, r.id = w → r.session = session := by
    intro r hr hid
    rcases ha.stored r hr with ⟨r',hr',hid',hs'⟩ | ⟨-,hs⟩
    · exact hs' ▸ hrows r' hr' (hid'.trans hid)
    · exact hs
  refine ⟨?_,?_,?_,?_,?_,?_⟩
  · intro q v hq
    rw [ha.mapped] at hq
    rw [ha.rows]
    exact hq.imp_right (And.imp_right (h.rows q v))
  · intro v q k hon
    rcases ha.on.mp hon with ⟨rfl,rfl,rfl⟩ | ⟨-,hold⟩
    · exact ha.own
    · have hs := h.home v q k hold
      by_cases hv : v = w
      · subst hv
        rw [ha.own,hown k.1 hs]
      · rw [ha.sessions v hv,hs]
  · intro session' v hv
    rcases ha.listed session' v hv with hv | ⟨rfl,rfl⟩
    · have hs := h.listed session' v hv
      by_cases hvw : v = w
      · subst hvw
        rw [ha.own,hown session' hs]
      · rw [ha.sessions v hvw,hs]
    · exact ha.own
  · intro v q k hon
    refine ha.workers k.1 ?_
    rcases ha.on.mp hon with ⟨-,-,rfl⟩ | ⟨-,hold⟩
    · exact Or.inl rfl
    · exact Or.inr (h.staffed v q k hold)
  · intro r hr session' hs
    by_cases hid : r.id = w
    · rw [hid,ha.own,Option.some.injEq] at hs
      exact (hrow r hr hid).trans hs
    · rw [ha.sessions r.id hid] at hs
      rcases ha.stored r hr with ⟨r',hr',hid',hs'⟩ | ⟨hid',-⟩
      · rw [← hid'] at hs
        exact hs' ▸ h.stored r' hr' session' hs
      · exact absurd hid' hid
  · intro r₁ hr₁ r₂ hr₂ heq
    by_cases hid : r₁.id = w
    · rw [hrow r₁ hr₁ hid,hrow r₂ hr₂ (heq.symm.trans hid)]
    · rcases ha.stored r₁ hr₁ with ⟨r₁',hr₁',hid₁,hs₁⟩ | ⟨hid₁,-⟩
      · rcases ha.stored r₂ hr₂ with ⟨r₂',hr₂',hid₂,hs₂⟩ | ⟨hid₂,-⟩
        · rw [← hs₁,← hs₂]
          exact h.keyed r₁' hr₁' r₂' hr₂' (hid₁.trans (heq.trans hid₂.symm))
        · exact absurd (heq.trans hid₂) hid
      · exact absurd hid₁ hid

/-- The pane's window is one of its session, and the others of that session do not
fall back on the worker's slots. -/
theorem Good.adds (h : s.Good) (ha : s.Adds t session p slot w) (hp : s.UnusedPane p)
    (hown : ∀ session', s.sessionOf w = some session' → session' = session)
    (hrows : ∀ r ∈ s.windowRows, r.id = w → r.session = session)
    (hothers : ∀ v q k, v ≠ w → s.On v q k → k.1 = session → s.treeOf v ≠ none)
    (hshown : t.Shown session w) : t.Good := by
  have hkept : ∀ {v q k}, s.On v q k → q ≠ p → t.On v q k :=
    fun hon hq => ha.on.mpr (Or.inr ⟨hq,hon⟩)
  refine ⟨ha.inv h.toInv hown hrows,?_⟩
  · intro v q k hon
    by_cases hv : v = w
    · subst hv
      rcases ha.on.mp hon with ⟨-,-,rfl⟩ | ⟨-,hold⟩
      · exact hshown
      · rw [hown k.1 (h.home v q k hold)]
        exact hshown
    · rcases ha.on.mp hon with ⟨-,hvw,-⟩ | ⟨hq,hold⟩
      · exact absurd hvw hv
      have hs := h.shown v q k hold
      cases htree : s.treeOf v with
      | some tree =>
        rw [shown_of_tree htree] at hs
        rw [shown_of_tree ((ha.trees v hv).trans htree)]
        obtain ⟨r,hr,k',hk'⟩ := hs
        have hne : r ≠ p := by
          rintro rfl
          exact absurd (hp.1.symm.trans hk'.1) (by simp)
        exact ⟨r,hr,k',hkept hk' hne⟩
      | none =>
        rw [shown_of_none htree] at hs
        rw [shown_of_none ((ha.trees v hv).trans htree)]
        have hsession : k.1 ≠ session := fun heq => hothers v q k hv hold heq htree
        refine hs.mono (fun slot' hslot => (ha.slots k.1 hsession) ▸ hslot) ?_ ?_
        · intro slot' _ hr
          rw [registers_iff] at hr ⊢
          refine ⟨fun r hr' => hr.1 r ((ha.lookup r _).mpr (Or.inr ⟨?_,hr'⟩)),ha.dead ▸ hr.2⟩
          rintro rfl
          exact absurd (hp.1.symm.trans hr') (by simp)
        · intro slot' _ r hr
          rcases (ha.lookup r _).mp hr with ⟨-,heq⟩ | ⟨hne,hold⟩
          · exact absurd (congrArg Prod.fst heq) hsession
          · exact Or.inr ⟨hold,fun hv => (ha.mapped r v).mpr (Or.inr ⟨hne,hv⟩)⟩

theorem slots_openNext_ne {session' : SessionKey} (h : session' ≠ session) (s : SupervisorImpl)
    (p : PaneId) : (s.openNext session p).slots session' = s.slots session' := by
  simp [SupervisorImpl.slots,openNext,withPanes,AList.lookup_insert_ne h]

theorem slots_openNext_self (s : SupervisorImpl) (session : SessionKey) (p : PaneId) :
    (s.openNext session p).slots session =
      (s.slots session).insert (s.index.counter session) := by
  simp [SupervisorImpl.slots,openNext,withPanes]

theorem worker_openNext {session' : SessionKey}
    (h : session' = session ∨ s.workers.lookup session' ≠ none) :
    (s.openNext session p).workers.lookup session' ≠ none := by
  by_cases heq : session' = session
  · subst heq
    simp [openNext,withPanes]
  · rw [openNext,withPanes,AList.lookup_insert_ne heq]
    exact h.resolve_left heq

/-- What is left to say of a pane that is opened is where its window stands. -/
theorem adds_of_windows (hindex : t.index = (s.openNext session p).index)
    (hworkers : t.workers = (s.openNext session p).workers)
    (hmap : t.paneWindowMap = s.paneWindowMap.insert p w)
    (hrows : t.paneRows = s.paneRows.insert p w)
    (hown : t.sessionOf w = some session) (hsessions : ∀ v, v ≠ w → t.sessionOf v = s.sessionOf v)
    (htrees : ∀ v, v ≠ w → t.treeOf v = s.treeOf v)
    (hlisted : ∀ session', ∀ v ∈ t.windowsOf session',
      v ∈ s.windowsOf session' ∨ v = w ∧ session' = session)
    (hstored : ∀ r ∈ t.windowRows, (∃ r' ∈ s.windowRows, r'.id = r.id ∧ r'.session = r.session) ∨
      r.id = w ∧ r.session = session) :
    s.Adds t session p (s.index.counter session) w where
  lookup q k := by
    rw [hindex]
    exact PaneIndex.lookup_allocPane
  mapped q v := by
    rw [hmap]
    exact Table.lookup_insert_eq_some
  rows q v := by
    rw [hrows]
    exact Table.lookup_insert_eq_some
  dead := by rw [hindex]; rfl
  slots session' h := by
    rw [SupervisorImpl.slots,hworkers]
    exact slots_openNext_ne h s p
  opened := by
    rw [SupervisorImpl.slots,hworkers]
    exact slots_openNext_self s session p
  workers session' h := by
    rw [hworkers]
    exact worker_openNext (p := p) h
  own := hown
  sessions := hsessions
  trees := htrees
  listed := hlisted
  stored := hstored

/-- A pane may be put into the window and leave all layouts as they should be. Only an
unknown window gets a tree with the pane as its leaf. -/
structure Opens (s : SupervisorImpl) (session : SessionKey) (w : WindowId) : Prop where
  own : ∀ session', s.sessionOf w = some session' → session' = session
  rows : ∀ r ∈ s.windowRows, r.id = w → r.session = session
  others : ∀ v q k, v ≠ w → s.On v q k → k.1 = session → s.treeOf v ≠ none
  tree : s.treeOf w ≠ none → ∃ q k, s.On w q k
  none : s.sessionOf w ≠ none → s.treeOf w = none →
    ((∃ q k, s.On w q k) ∨ s.slots session = []) ∧
      ∀ q, s.index.lookup q = some (session,s.index.counter session) →
        s.paneWindowMap.lookup q = some w

theorem openIn_eq (s : SupervisorImpl) (session : SessionKey) (p : PaneId) (w : WindowId) :
    s.openIn session p w = (s.openNext session p).placeOpened session p w := rfl

/-- The window is there from the start or gets the pane for its only leaf. -/
theorem adds_openIn (h : s.Inv) (hown : ∀ session', s.sessionOf w = some session' →
    session' = session) :
    s.Adds (s.openIn session p w) session p (s.index.counter session) w ∧
      (s.openIn session p w).treeOf w =
        if s.sessionOf w = none then some (.leaf p) else s.treeOf w := by
  have hstored : ∀ r ∈ s.windowRows, (∃ r' ∈ s.windowRows, r'.id = r.id ∧
      r'.session = r.session) ∨ r.id = w ∧ r.session = session :=
    fun r hr => Or.inl ⟨r,hr,rfl,rfl⟩
  rw [openIn_eq,placeOpened]
  split
  · rename_i hlisted
    have hs := h.listed session w hlisted
    refine ⟨adds_of_windows rfl rfl rfl rfl hs (fun _ _ => rfl) (fun _ _ => rfl)
      (fun _ _ hv => Or.inl hv) hstored,?_⟩
    rw [if_neg (by simp [hs])]
    rfl
  · rename_i hnew
    set u := ((s.openNext session p).assign p w).pushWindow session w with hu
    set position : UInt32 :=
      .ofNat (windowsOf ((s.openNext session p).assign p w) session).length
    set info : WindowMeta := ⟨session,toString (position+1),position,some (.leaf p)⟩
    have hlisted : ∀ session', ∀ v ∈ u.windowsOf session',
        v ∈ s.windowsOf session' ∨ v = w ∧ session' = session := fun session' v hv =>
      mem_pushWindow (s := (s.openNext session p).assign p w) hv
    change s.Adds (u.orInsertMeta w info) session p _ w ∧ (u.orInsertMeta w info).treeOf w = _
    by_cases hw : s.sessionOf w = none
    · have hins : u.orInsertMeta w info = u.setMeta w info :=
        orInsertMeta_unknown (s := u) hw info
      rw [hins,if_pos hw]
      refine ⟨adds_of_windows rfl rfl rfl rfl (sessionOf_setMeta_self u w info)
        (fun v hv => sessionOf_setMeta_ne hv u info) (fun v hv => treeOf_setMeta_ne hv u info)
        hlisted hstored,treeOf_setMeta_some u w session _ _ _⟩
    · have hins : u.orInsertMeta w info = u := orInsertMeta_known (s := u) hw info
      obtain ⟨session',hs⟩ := Option.ne_none_iff_exists'.mp hw
      have hsession : u.sessionOf w = some session := hs.trans (congrArg some (hown session' hs))
      rw [hins,if_neg hw]
      exact ⟨adds_of_windows rfl rfl rfl rfl hsession (fun _ _ => rfl) (fun _ _ => rfl) hlisted
        hstored,rfl⟩

/-- A live leaf of the window's tree stays one. Without a tree, the slots that are there
have to be the window's already. -/
theorem Adds.shown {slot : UInt32} (ha : s.Adds t session p slot w) (hp : s.UnusedPane p)
    (htree : t.treeOf w = s.treeOf w)
    (htrees : ∀ tree, s.treeOf w = some tree → ∃ q ∈ tree.allLeaves, ∃ k, s.On w q k)
    (hnone : s.treeOf w = none → s.Fallback session w ∧
      ∀ q, s.index.lookup q = some (session,slot) → s.paneWindowMap.lookup q = some w) :
    t.Shown session w := by
  have hne : ∀ {q k}, s.index.lookup q = some k → q ≠ p := by
    rintro q k hq rfl
    exact absurd (hp.1.symm.trans hq) (by simp)
  cases ht : s.treeOf w with
  | some tree =>
    obtain ⟨q,hq,k,hk⟩ := htrees tree ht
    rw [shown_of_tree (htree.trans ht)]
    exact ⟨q,hq,k,ha.on.mpr (Or.inr ⟨hne hk.1,hk⟩)⟩
  | none =>
    obtain ⟨hfall,hat⟩ := hnone ht
    rw [shown_of_none (htree.trans ht)]
    intro slot' hslot'
    constructor
    · rw [registers_iff]
      rintro ⟨hunmapped,hdead⟩
      rw [ha.opened,List.mem_insert_iff] at hslot'
      rcases hslot' with rfl | hold
      · exact hunmapped p ((ha.lookup p _).mpr (Or.inl ⟨rfl,rfl⟩))
      · refine (hfall slot' hold).1 (registers_iff.mpr ⟨fun q hq => ?_,ha.dead ▸ hdead⟩)
        exact hunmapped q ((ha.lookup q _).mpr (Or.inr ⟨hne hq,hq⟩))
    · intro q hq
      rw [ha.mapped]
      rcases (ha.lookup q _).mp hq with ⟨rfl,-⟩ | ⟨hqp,hold⟩
      · exact Or.inl ⟨rfl,rfl⟩
      · refine Or.inr ⟨hqp,?_⟩
        rw [ha.opened,List.mem_insert_iff] at hslot'
        rcases hslot' with rfl | hslot
        · exact hat q hold
        · exact (hfall slot' hslot).2 q hold

theorem good_openIn (h : s.Good) (hp : s.UnusedPane p) (ho : s.Opens session w) :
    (s.openIn session p w).Good := by
  obtain ⟨ha,htree⟩ := adds_openIn (p := p) h.toInv ho.own
  refine h.adds ha hp ho.own ho.rows ho.others ?_
  have hshown : ∀ q k, s.On w q k → s.Shown session w := by
    intro q k hon
    exact ho.own k.1 (h.home w q k hon) ▸ h.shown w q k hon
  by_cases hw : s.sessionOf w = none
  · rw [if_pos hw] at htree
    rw [shown_of_tree htree]
    exact ⟨p,by simp [LayoutNode.allLeaves],_,ha.on.mpr (Or.inl ⟨rfl,rfl,rfl⟩)⟩
  · rw [if_neg hw] at htree
    refine ha.shown hp htree ?_ ?_
    · intro tree ht
      obtain ⟨q,k,hon⟩ := ho.tree (by simp [ht])
      exact (shown_of_tree ht).mp (hshown q k hon)
    · intro ht
      obtain ⟨hfirst,hat⟩ := ho.none hw ht
      refine ⟨?_,hat⟩
      rcases hfirst with ⟨q,k,hon⟩ | hempty
      · exact (shown_of_none ht).mp (hshown q k hon)
      · intro slot hslot
        rw [hempty] at hslot
        cases hslot

/-- The pane may be split. A cached tree has the parent for a leaf, or else has another
live one; with no tree in memory the parent makes one. -/
structure Splits (s : SupervisorImpl) (session : SessionKey) (parent : PaneId) (w : WindowId) :
    Prop where
  others : ∀ v q k, v ≠ w → s.On v q k → k.1 = session → s.treeOf v ≠ none
  tree : ∀ tree, (s.windowStore.lookup w).bind WindowMeta.layout = some tree →
    parent ∈ tree.allLeaves ∨ ∃ q k, s.On w q k

/-- The tree that `open_pane_split` changes. -/
def treeToSplit (s : SupervisorImpl) (w : WindowId) (parent : PaneId) : LayoutNode :=
  ((s.windowStore.lookup w).bind WindowMeta.layout).getD (.leaf parent)

theorem splitIn_eq (s : SupervisorImpl) (session : SessionKey) (parent p : PaneId)
    (orient : Orient) (w : WindowId) :
    s.splitIn session parent p orient w =
      (s.openNext session p).placeSplit session parent p orient w := rfl

theorem placeSplit_known {info : WindowMeta} (hw : s.windowStore.lookup w = some info)
    (parent : PaneId) (orient : Orient) :
    s.placeSplit session parent p orient w =
      ((s.setLayout w ((s.treeToSplit w parent).splitFocused parent p orient)).upsertWindowLayout w
        ((s.treeToSplit w parent).splitFocused parent p orient)).assign p w := by
  have hins : ∀ info', s.orInsertMeta w info' = s :=
    orInsertMeta_known (by rw [sessionOf,hw]; exact Option.some_ne_none _)
  simp only [placeSplit,hins,hw,treeToSplit,Option.bind_some]

theorem adds_splitIn (hw : s.sessionOf w = some session) (parent : PaneId) (orient : Orient) :
    s.Adds (s.splitIn session parent p orient w) session p (s.index.counter session) w ∧
      (s.splitIn session parent p orient w).treeOf w =
        some ((s.treeToSplit w parent).splitFocused parent p orient) := by
  obtain ⟨info,hinfo,-⟩ := Option.map_eq_some_iff.mp hw
  set u := s.openNext session p with hu
  have hknown : u.windowStore.lookup w = some info := hinfo
  rw [splitIn_eq,placeSplit_known hknown]
  set tree := (u.treeToSplit w parent).splitFocused parent p orient with htree
  have hsame := samePanes_storeLayout u w tree
  have hself : (((u.setLayout w tree).upsertWindowLayout w tree).assign p w).treeOf w =
      some tree := treeOf_storeLayout_self (s := u) (by rw [sessionOf,hknown]; simp) tree
  have hinsert : ∀ {m m' : Table PaneId WindowId}, m = m' → m.insert p w = m'.insert p w :=
    fun h => congrArg _ h
  refine ⟨adds_of_windows hsame.index hsame.workers (hinsert hsame.paneWindowMap)
    (hinsert hsame.paneRows) ((sessionOf_setLayout u w w tree).trans hw)
    (fun v _ => sessionOf_setLayout u w v tree) (fun v hv => treeOf_storeLayout_ne hv u tree)
    (fun session' v hv => ?_) (fun r hr => ?_),hself⟩
  · refine Or.inl ?_
    have hwindows : (((u.setLayout w tree).upsertWindowLayout w tree).assign p w).sessionWindows =
        s.sessionWindows := hsame.sessionWindows
    rwa [windowsOf,hwindows] at hv
  · obtain ⟨r',hr',rfl⟩ := List.mem_map.mp hr
    rw [windowRows_setLayout] at hr'
    refine Or.inl ⟨r',hr',?_,?_⟩ <;> split <;> rfl

theorem good_splitIn (h : s.Good) (hp : s.UnusedPane p) (hw : s.sessionOf w = some session)
    {parent : PaneId} (hs : s.Splits session parent w) (orient : Orient) :
    (s.splitIn session parent p orient w).Good := by
  obtain ⟨ha,htree⟩ := adds_splitIn (p := p) hw parent orient
  have hown : ∀ session', s.sessionOf w = some session' → session' = session :=
    fun session' hs' => Option.some.inj (hs'.symm.trans hw)
  have hrows : ∀ r ∈ s.windowRows, r.id = w → r.session = session :=
    fun r hr hid => h.stored r hr session (hid ▸ hw)
  refine h.adds ha hp hown hrows hs.others ?_
  have hself : (s.splitIn session parent p orient w).On w p (session,s.index.counter session) :=
    ha.on.mpr (Or.inl ⟨rfl,rfl,rfl⟩)
  rw [shown_of_tree htree]
  by_cases hmem : parent ∈ (s.treeToSplit w parent).allLeaves
  · exact ⟨p,(LayoutNode.leaves_splitFocused hmem).mem_iff.mpr List.mem_cons_self,_,hself⟩
  · -- the tree is as it was, so it has to have a live leaf
    rw [LayoutNode.splitFocused_of_notMem hmem]
    cases hcached : (s.windowStore.lookup w).bind WindowMeta.layout with
    | none =>
      rw [treeToSplit,hcached,Option.getD_none] at hmem
      simp [LayoutNode.allLeaves] at hmem
    | some tree =>
      rw [treeToSplit,hcached,Option.getD_some] at hmem ⊢
      obtain ⟨q,k,hon⟩ := (hs.tree tree hcached).resolve_left hmem
      have ht : s.treeOf w = some tree := treeOf_of_layout hcached
      obtain ⟨r,hr,k',hk'⟩ := (shown_of_tree ht).mp (h.shown w q k hon)
      refine ⟨r,hr,k',ha.on.mpr (Or.inr ⟨?_,hk'⟩)⟩
      rintro rfl
      exact absurd (hp.1.symm.trans hk'.1) (by simp)

end adds

theorem spawn_eq (h : s.workers.lookup session = none) (p : PaneId) (w : WindowId) :
    s.spawn session p w = (s.openNext session p).placeSpawned session p w := by
  have hslots : s.slots session = [] := by rw [slots,h]; rfl
  have hopened : (((s.allocPane session p).1.registerWorker session []).openSlot session
      (s.allocPane session p).2) = s.openNext session p := by
    rw [openSlot,slots_registerWorker,if_pos rfl,openNext,withPanes,hslots]
    simp only [registerWorker,AList.insert_insert]
    rfl
  rw [spawn,← hopened]

theorem adds_spawn (s : SupervisorImpl) (session : SessionKey) (p : PaneId) (w : WindowId) :
    s.Adds ((s.openNext session p).placeSpawned session p w) session p
        (s.index.counter session) w ∧
      ((s.openNext session p).placeSpawned session p w).treeOf w = some (.leaf p) := by
  set u := (s.openNext session p).upsertWindow w session "1" 0 with hu
  set info : WindowMeta := ⟨session,"1",0,some (.leaf p)⟩ with hinfo
  have hplaced : (s.openNext session p).placeSpawned session p w =
      ((u.assign p w).setMeta w info).pushWindow session w := rfl
  have hjson : ∀ v, u.windowLayoutJson v = s.windowLayoutJson v :=
    windowLayoutJson_upsertWindow (s.openNext session p) w session "1" 0
  refine ⟨adds_of_windows rfl rfl rfl rfl (sessionOf_setMeta_self (u.assign p w) w info)
    (fun v hv => sessionOf_setMeta_ne hv (u.assign p w) info) (fun v hv => ?_)
    (fun session' v hv => mem_pushWindow (s := (u.assign p w).setMeta w info) hv)
    (fun r hr => ?_),treeOf_setMeta_some (u.assign p w) w session "1" 0 (.leaf p)⟩
  · have hkept : ((u.assign p w).setMeta w info).treeOf v = (u.assign p w).treeOf v :=
      treeOf_setMeta_ne hv (u.assign p w) info
    exact hkept.trans (treeOf_congr rfl (hjson v))
  · rcases List.mem_append.mp hr with hr | hr
    · exact Or.inl ⟨r,hr,rfl,rfl⟩
    · rw [List.mem_singleton.mp hr]
      exact Or.inr ⟨rfl,rfl⟩

/-- A session that starts has one pane, which is the leaf of its one window. -/
theorem good_spawn (h : s.Good) (hsession : s.UnusedSession session) (hp : s.UnusedPane p)
    (hw : s.UnusedWindow w) : (s.spawn session p w).Good := by
  rw [spawn_eq hsession.1]
  obtain ⟨ha,hself⟩ := adds_spawn s session p w
  have hunknown : s.sessionOf w = none := by rw [sessionOf,hw.1]; rfl
  refine h.adds ha hp (by simp [hunknown]) (fun r hr hid => absurd hid (hw.2 r hr)) ?_ ?_
  · rintro v q k - hon heq
    -- the session has no window yet
    have hs := h.home v q k hon
    obtain ⟨info',hinfo',hs'⟩ := Option.map_eq_some_iff.mp hs
    exact absurd (hs'.trans heq) (hsession.2 info'
      (List.mem_map.mpr ⟨_,Table.lookup_eq_some.mp hinfo',rfl⟩))
  · rw [shown_of_tree hself]
    exact ⟨p,by simp [LayoutNode.allLeaves],_,ha.on.mpr (Or.inl ⟨rfl,rfl,rfl⟩)⟩

theorem resolves_newWindow (hw : s.UnusedWindow w) (session : SessionKey) (name : Option String) :
    s.Resolves (s.newWindow session name w) session w := by
  have hunknown : s.sessionOf w = none := by rw [sessionOf,hw.1]; rfl
  set position : UInt32 := .ofNat (s.windowsOf session).length with hposition
  set u := s.upsertWindow w session (name.getD (toString (position+1))) position with hu
  set info : WindowMeta := ⟨session,name.getD (toString (position+1)),position,none⟩ with hinfo
  have hnew : s.newWindow session name w = (u.orInsertMeta w info).pushWindow session w :=
    (congrArg (fun s : SupervisorImpl => s.pushWindow session w)
      (orInsertMeta_unknown (s := u) hunknown info)).symm
  rw [hnew]
  refine resolves_enter rfl (fun hne => absurd hunknown hne) ⟨rfl,rfl,rfl,rfl,rfl⟩ rfl
    (windowLayoutJson_upsertWindow s w session _ position) (fun r hr => ?_) fun r hr hid => ?_
  · rcases List.mem_append.mp hr with hr | hr
    · exact Or.inl hr
    · rw [List.mem_singleton.mp hr]
      exact Or.inr ⟨rfl,rfl⟩
  · rcases List.mem_append.mp hr with hr | hr
    · exact absurd hid (hw.2 r hr)
    · rw [List.mem_singleton.mp hr]

theorem good_newWindow (h : s.Good) (hw : s.UnusedWindow w) (session : SessionKey)
    (name : Option String) : (s.newWindow session name w).Good :=
  h.resolves (resolves_newWindow hw session name)

end SupervisorImpl

end Pyre.Supervisor
