import Pyre.Supervisor.TeardownWindow

/-!
What `close_session` of the supervisor leaves. The windows listed for the session go at once, its
panes when their worker closes them, and what the worker reports until then is of a session that
the index does not have any more.
-/

set_option autoImplicit false

namespace Pyre.Supervisor
open Base

namespace SupervisorImpl

variable {s t u : SupervisorImpl} {session : SessionKey} {v w : WindowId} {p q : PaneId}
  {k : SlotKey} {ws : List WindowId}

/-! The windows that are listed. -/

theorem lookup_foldl_unassign (panes : List PaneId) (s : SupervisorImpl) :
    (∀ q v, (panes.foldl unassign s).paneWindowMap.lookup q = some v ↔
      s.paneWindowMap.lookup q = some v ∧ q ∉ panes) ∧
    panes.foldl unassign s =
      { s with paneWindowMap := (panes.foldl unassign s).paneWindowMap } := by
  induction panes generalizing s with
  | nil => simp
  | cons p panes ih =>
    obtain ⟨hmap,hrest⟩ := ih (s.unassign p)
    refine ⟨fun q v => ?_,hrest⟩
    rw [List.foldl_cons,hmap,unassign,Table.lookup_erase_eq_some,List.mem_cons,not_or]
    constructor
    · rintro ⟨⟨hne,hold⟩,hnot⟩
      exact ⟨hold,hne,hnot⟩
    · rintro ⟨hold,hne,hnot⟩
      exact ⟨⟨hne,hold⟩,hnot⟩

/-- These windows are nowhere any more, nor are the panes that the store has for them. -/
structure Forgets (s t : SupervisorImpl) (ws : List WindowId) : Prop where
  index : t.index = s.index
  workers : t.workers = s.workers
  sessionWindows : t.sessionWindows = s.sessionWindows
  paneRows : t.paneRows = s.paneRows
  homes : ∀ q v, t.paneWindowMap.lookup q = some v ↔
    s.paneWindowMap.lookup q = some v ∧ ∀ w ∈ ws, s.paneRows.lookup q ≠ some w
  memory : ∀ v, t.windowStore.lookup v = if v ∈ ws then none else s.windowStore.lookup v
  store : ∀ v, t.rowsAt v = if v ∈ ws then [] else s.rowsAt v

theorem forgets_window (s : SupervisorImpl) (w : WindowId) :
    s.Forgets (s.closeSessionWindow w) [w] := by
  obtain ⟨hmap,hrest⟩ := lookup_foldl_unassign (s.listPanesForWindow w) s
  set u := (s.listPanesForWindow w).foldl unassign s with hu
  have ht : s.closeSessionWindow w =
      deleteWindow { u with windowStore := u.windowStore.erase w } w := rfl
  rw [hrest] at ht
  rw [ht]
  refine ⟨rfl,rfl,rfl,rfl,fun q v => ?_,fun v => ?_,fun v => ?_⟩
  · rw [List.forall_mem_singleton,ne_eq,← mem_listPanesForWindow]
    exact hmap q v
  · by_cases hv : v = w
    · subst hv
      simp [deleteWindow]
    · simp [deleteWindow,hv,AList.lookup_erase_ne hv]
  · by_cases hv : v = w
    · subst hv
      simp [rowsAt,deleteWindow,List.filter_filter]
    · rw [rowsAt_deleteWindow hv,if_neg (by simpa using hv)]
      rfl

theorem Forgets.trans {ws' : List WindowId} (h : s.Forgets t ws) (h' : t.Forgets u ws') :
    s.Forgets u (ws ++ ws') where
  index := h'.index.trans h.index
  workers := h'.workers.trans h.workers
  sessionWindows := h'.sessionWindows.trans h.sessionWindows
  paneRows := h'.paneRows.trans h.paneRows
  homes q v := by rw [h'.homes,h.homes,h.paneRows,and_assoc,← List.forall_mem_append]
  memory v := by
    rw [h'.memory,h.memory]
    by_cases hv : v ∈ ws <;> by_cases hv' : v ∈ ws' <;> simp [hv,hv']
  store v := by
    rw [h'.store,h.store]
    by_cases hv : v ∈ ws <;> by_cases hv' : v ∈ ws' <;> simp [hv,hv']

theorem forgets_windows (ws : List WindowId) (s : SupervisorImpl) :
    s.Forgets (ws.foldl closeSessionWindow s) ws := by
  induction ws generalizing s with
  | nil => exact ⟨rfl,rfl,rfl,rfl,by simp,by simp,by simp⟩
  | cons w ws ih => exact (forgets_window s w).trans (ih _)

/-- The session is not in the index or in memory, nor are the windows it was listed with. -/
structure ClosesSession (s t : SupervisorImpl) (session : SessionKey) : Prop where
  lookup : ∀ q k, t.index.lookup q = some k ↔ s.index.lookup q = some k ∧ k.1 ≠ session
  dead : ∀ k ∈ t.index.deadSlots, k.1 ≠ session
  workers : t.workers = s.workers.erase session
  paneRows : t.paneRows = s.paneRows
  homes : ∀ q v, t.paneWindowMap.lookup q = some v ↔ s.paneWindowMap.lookup q = some v ∧
    ∀ w ∈ s.windowsOf session, s.paneRows.lookup q ≠ some w
  memory : ∀ v, t.windowStore.lookup v =
    if v ∈ s.windowsOf session then none else s.windowStore.lookup v
  store : ∀ v, t.rowsAt v = if v ∈ s.windowsOf session then [] else s.rowsAt v
  lists : ∀ other, t.windowsOf other = if other = session then [] else s.windowsOf other

theorem closesSession (s : SupervisorImpl) (session : SessionKey) :
    s.ClosesSession (s.closeSession session) session := by
  have h := forgets_windows (s.windowsOf session) (s.removeSession session)
  set u := (s.windowsOf session).foldl closeSessionWindow (s.removeSession session) with hu
  have ht : s.closeSession session =
      { u with sessionWindows := u.sessionWindows.erase session } := rfl
  rw [ht]
  refine ⟨fun q k => ?_,fun k hk => ?_,h.workers,h.paneRows,h.homes,h.memory,h.store,
    fun other => ?_⟩
  · rw [h.index]
    exact PaneIndex.lookup_removeSession
  · rw [h.index] at hk
    simpa using (Finset.mem_filter.mp hk).2
  · rw [windowsOf,h.sessionWindows]
    by_cases hne : other = session
    · subst hne
      simp
    · rw [AList.lookup_erase_ne hne,if_neg hne]
      rfl

end SupervisorImpl

namespace Fleet

variable {b d e : Fleet} {session : SessionKey} {heard : Heard} {w : WindowId} {p q : PaneId}
  {slot : UInt32} {r : WorkerReport} {reports : List WorkerReport}

/-! What a worker reports of a session that is closed. -/

/-- The index has of the session the slots that have been heard of; nothing else has changed but
what was closed. -/
structure Reporting (b d : Fleet) (session : SessionKey) (heard : Heard) : Prop where
  impl : d.impl = { b.impl with index := d.impl.index }
  slots : b.impl.workers.lookup session = none
  others : ∀ p k, k.1 ≠ session →
    (d.impl.index.lookup p = some k ↔ b.impl.index.lookup p = some k)
  known : ∀ slot, slot ∈ heard.known ↔ ∃ p, d.impl.index.lookup p = some (session,slot)
  told : ∀ p slot, d.impl.index.lookup p = some (session,slot) → p ∈ d.announced
  unplaced : ∀ p slot, d.impl.index.lookup p = some (session,slot) →
    b.impl.paneWindowMap.lookup p = none
  dead : ∀ slot, (session,slot) ∈ d.impl.index.deadSlots ↔ slot ∈ heard.dead

namespace Reporting

theorem registers_iff (h : b.Reporting d session heard) :
    d.impl.index.Registers session slot ↔ slot ∉ heard.known ∧ slot ∉ heard.dead := by
  rw [SupervisorImpl.registers_iff,h.known,← h.dead,not_exists]

theorem slots_nil (h : b.Reporting d session heard) : d.impl.slots session = [] := by
  rw [h.impl]
  simp [SupervisorImpl.slots,h.slots]

theorem callback (h : b.Reporting d session heard) {fresh : PaneId} (hfresh : d.Fresh fresh) :
    b.Reporting (d.report session (.callback slot fresh)) session
      (heard.hear (.callback slot fresh)) := by
  by_cases hr : d.impl.index.Registers session slot
  · obtain ⟨hknown,hdead⟩ := h.registers_iff.mp hr
    have hd : d.report session (.callback slot fresh) =
        { d with
          impl := { d.impl with index := d.impl.index.register fresh session slot }
          announced := fresh :: d.announced } := by
      simp [report,SupervisorImpl.getOrAllocPaneBySlot,PaneIndex.getOrAlloc_registers hr]
    have hmap : b.impl.paneWindowMap.lookup fresh = none := by
      have hunused := hfresh.1.2.1
      rwa [h.impl] at hunused
    rw [hd,Heard.hear,if_neg hdead]
    refine ⟨?_,h.slots,fun p k hk => ?_,fun x => ?_,fun p x hp => ?_,fun p x hp => ?_,h.dead⟩
    · rw [h.impl]
    · rw [← h.others p k hk,PaneIndex.lookup_register]
      constructor
      · rintro (⟨-,rfl⟩ | ⟨-,hp⟩)
        · exact absurd rfl hk
        · exact hp
      · intro hp
        refine Or.inr ⟨?_,hp⟩
        rintro rfl
        rw [hfresh.1.1] at hp
        cases hp
    · rw [List.mem_insert_iff,h.known]
      simp only [PaneIndex.lookup_register,Prod.mk.injEq,true_and]
      constructor
      · rintro (rfl | ⟨p,hp⟩)
        · exact ⟨fresh,Or.inl ⟨rfl,rfl⟩⟩
        · refine ⟨p,Or.inr ⟨?_,hp⟩⟩
          rintro rfl
          rw [hfresh.1.1] at hp
          cases hp
      · rintro ⟨p,⟨-,rfl⟩ | ⟨-,hp⟩⟩
        · exact Or.inl rfl
        · exact Or.inr ⟨p,hp⟩
    · rcases PaneIndex.lookup_register.mp hp with ⟨rfl,-⟩ | ⟨-,hp⟩
      · exact List.mem_cons_self
      · exact List.mem_cons_of_mem _ (h.told p x hp)
    · rcases PaneIndex.lookup_register.mp hp with ⟨rfl,-⟩ | ⟨-,hp⟩
      · exact hmap
      · exact h.unplaced p x hp
  · have hd : d.report session (.callback slot fresh) =
        { d with announced :=
            (d.impl.index.getOrAllocPaneBySlot session slot fresh).2.toList ++ d.announced } := by
      simp [report,SupervisorImpl.getOrAllocPaneBySlot,PaneIndex.getOrAlloc_keeps hr]
    have hheard : heard.hear (.callback slot fresh) = heard := by
      rw [h.registers_iff,not_and_or,not_not,not_not] at hr
      rw [Heard.hear]
      split
      · rfl
      · rename_i hdead
        rw [List.insert_of_mem (hr.resolve_right hdead)]
    rw [hd,hheard]
    exact { h with told := fun p x hp => List.mem_append_right _ (h.told p x hp) }

theorem paneClosed (h : b.Reporting d session heard) {fresh : PaneId} (hfresh : d.Fresh fresh) :
    b.Reporting (d.report session (.paneClosed slot fresh)) session
      (heard.hear (.paneClosed slot fresh)) := by
  set ix := ((d.impl.index.getOrAllocPaneBySlot session slot fresh).1.removePaneSlot
    session slot).1 with hix
  have hlook : ∀ q k, ix.lookup q = some k ↔
      d.impl.index.lookup q = some k ∧ k ≠ (session,slot) := fun q k =>
    SupervisorImpl.lookup_dropSlot fun _ => hfresh.1.1
  have hdead : ∀ x, (session,x) ∈ ix.deadSlots ↔ x = slot ∨ x ∈ heard.dead := by
    intro x
    rw [hix,← h.dead]
    simp [PaneIndex.removePaneSlot,SupervisorImpl.deadSlots_getOrAlloc]
  have hleft : ∀ x, x ∈ heard.known.filter (· ≠ slot) ↔ ∃ p, ix.lookup p = some (session,x) := by
    intro x
    simp only [List.mem_filter,h.known,hlook,decide_eq_true_eq,ne_eq,Prod.mk.injEq,true_and,
      exists_and_right]
  have hcount : ix.paneCount session = 0 ↔ heard.known.filter (· ≠ slot) = [] := by
    rw [SupervisorImpl.paneCount_eq_zero_iff,List.eq_nil_iff_forall_not_mem]
    simp only [hleft,not_exists]
    constructor
    · intro hnone x p hp
      exact hnone p _ hp rfl
    · rintro hnone p ⟨_,x⟩ hp rfl
      exact hnone x p hp
  set ix' := if ix.paneCount session = 0 then ix.removeSession session else ix with hix'
  have hlook' : ∀ q k, ix'.lookup q = some k ↔ ix.lookup q = some k := by
    intro q k
    rw [hix']
    split
    · rename_i hzero
      rw [PaneIndex.lookup_removeSession]
      exact and_iff_left_of_imp (SupervisorImpl.session_of_paneCount hzero)
    · exact Iff.rfl
  -- the ids of the session are in no window
  have himpl : (d.report session (.paneClosed slot fresh)).impl = { d.impl with index := ix' } := by
    have hshut : slot ∉ d.impl.slots session := by simp [h.slots_nil]
    have herase : d.impl.workers.erase session = d.impl.workers := by
      rw [h.impl]
      exact AList.ext (List.kerase_of_notMem_keys (AList.lookup_eq_none.mp h.slots))
    have hevict : (if ix.paneCount session = 0 then
        SupervisorImpl.removeSession { d.impl with index := ix } session
        else { d.impl with index := ix }) = { d.impl with index := ix' } := by
      rw [hix']
      split
      · simp only [SupervisorImpl.removeSession,herase]
      · rfl
    rw [report,Fleet.paneClosed,if_neg hshut,SupervisorImpl.paneClosed_evict _ _ _ _ hix,hevict]
    cases hpane : (d.impl.index.getOrAllocPaneBySlot session slot fresh).2 with
    | none => rfl
    | some pane =>
      have hnone : d.impl.paneWindowMap.lookup pane = none := by
        rcases PaneIndex.lookup_of_getOrAlloc (PaneIndex.lookup_getOrAlloc_some hpane) with
          rfl | hat
        · exact hfresh.1.2.1
        · rw [h.impl]
          exact h.unplaced pane slot hat
      rw [Option.elim_some,SupervisorImpl.prunePane,hnone]
  have hheard : heard.hear (.paneClosed slot fresh) =
      if ix.paneCount session = 0 then ⟨[],[]⟩
      else ⟨heard.known.filter (· ≠ slot),slot :: heard.dead⟩ := by
    simp only [Heard.hear,hcount]
  refine ⟨?_,h.slots,fun p k hk => ?_,fun x => ?_,fun p x hp => ?_,fun p x hp => ?_,fun x => ?_⟩
  · rw [himpl]
    conv_lhs => rw [h.impl]
  · rw [himpl,hlook',hlook,h.others p k hk]
    refine and_iff_left ?_
    rintro rfl
    exact hk rfl
  · simp only [himpl,hlook',← hleft,hheard]
    split
    · rename_i hzero
      rw [hcount.mp hzero]
    · exact Iff.rfl
  · rw [himpl,hlook',hlook] at hp
    exact h.told p x hp.1
  · rw [himpl,hlook',hlook] at hp
    exact h.unplaced p x hp.1
  · rw [himpl,hheard,hix']
    split
    · simp [PaneIndex.removeSession]
    · rw [hdead,List.mem_cons]

theorem report (h : b.Reporting d session heard) (hfresh : d.Fresh r.fresh) :
    b.Reporting (d.report session r) session (heard.hear r) := by
  cases r with
  | callback slot fresh => exact h.callback hfresh
  | paneClosed slot fresh => exact h.paneClosed hfresh

/-- The id of a slot is one that has been told, or is drawn now. -/
theorem found (h : b.Reporting d session heard) {fresh : PaneId}
    (hp : (d.impl.index.getOrAllocPaneBySlot session slot fresh).2 = some p) :
    slot ∈ heard.known ∧ p ∈ d.announced ∨
      slot ∉ heard.known ∧ slot ∉ heard.dead ∧ p = fresh := by
  by_cases hr : d.impl.index.Registers session slot
  · rw [PaneIndex.getOrAlloc_registers hr] at hp
    exact Or.inr ⟨(h.registers_iff.mp hr).1,(h.registers_iff.mp hr).2,(Option.some.inj hp).symm⟩
  · have hat := PaneIndex.lookup_getOrAlloc_some hp
    rw [PaneIndex.getOrAlloc_keeps hr] at hat
    exact Or.inl ⟨(h.known slot).mpr ⟨p,hat⟩,h.told p slot hat⟩

theorem announced (h : b.Reporting d session heard) (hp : p ∈ (d.report session r).announced) :
    p ∈ d.announced ∨ p = r.fresh := by
  cases r with
  | callback slot fresh =>
    rcases List.mem_append.mp hp with hp | hp
    · rcases h.found (Option.mem_toList.mp hp) with ⟨-,hold⟩ | ⟨-,-,rfl⟩
      · exact Or.inl hold
      · exact Or.inr rfl
    · exact Or.inl hp
  | paneClosed slot fresh => exact Or.inl hp

theorem closed (h : b.Reporting d session heard) (hp : p ∈ (d.report session r).closed) :
    p ∈ d.closed ∨ p ∈ d.announced ∨ p = r.fresh := by
  cases r with
  | callback slot fresh => exact Or.inl hp
  | paneClosed slot fresh =>
    rcases List.mem_append.mp hp with hp | hp
    · rcases h.found (Option.mem_toList.mp hp) with ⟨-,hold⟩ | ⟨-,-,rfl⟩
      · exact Or.inr (Or.inl hold)
      · exact Or.inr (Or.inr rfl)
    · exact Or.inl hp

theorem fresh (h : b.Reporting d session heard) (hr : d.Fresh r.fresh) (hq : d.Fresh q)
    (hne : q ≠ r.fresh) : (d.report session r).Fresh q := by
  have hnext := h.report hr
  obtain ⟨⟨hindex,hmap,hrows⟩,htold,hclosed⟩ := hq
  refine ⟨⟨Option.eq_none_iff_forall_ne_some.mpr fun k hk => ?_,?_,?_⟩,fun hin => ?_,fun hin => ?_⟩
  · by_cases hs : k.1 = session
    · obtain ⟨_,slot⟩ := k
      obtain rfl := hs
      exact hne ((h.announced (hnext.told q slot hk)).resolve_left htold)
    · rw [hnext.others q k hs,← h.others q k hs,hindex] at hk
      cases hk
  · rw [h.impl] at hmap
    rw [hnext.impl]
    exact hmap
  · rw [h.impl] at hrows
    rw [hnext.impl]
    exact hrows
  · exact hne ((h.announced hin).resolve_left htold)
  · rcases h.closed hin with hin | hin | rfl
    · exact hclosed hin
    · exact htold hin
    · exact hne rfl

end Reporting

theorem announced_report (hp : p ∈ d.announced) : p ∈ (d.report session r).announced := by
  cases r with
  | callback slot fresh => exact List.mem_append_right _ hp
  | paneClosed slot fresh => exact hp

theorem closed_report (hp : p ∈ d.closed) : p ∈ (d.report session r).closed := by
  cases r with
  | callback slot fresh => exact hp
  | paneClosed slot fresh => exact List.mem_append_right _ hp

/-- The reports one after another. -/
structure Reports (b d e : Fleet) (session : SessionKey) (reports : List WorkerReport) : Prop where
  still : ∃ heard, b.Reporting e session heard
  shards : ∀ k, e.shards.lookup k =
    if k.1 = session ∧ k.2 ∈ reports.filterMap WorkerReport.closes? then none
    else d.shards.lookup k
  told : ∀ p ∈ d.announced, p ∈ e.announced
  announced : ∀ p ∈ e.announced, p ∈ d.announced ∨ p ∈ reports.map WorkerReport.fresh
  closed : ∀ p ∈ d.closed, p ∈ e.closed

/-- What the worker has to report. -/
structure Ready (d : Fleet) (reports : List WorkerReport) : Prop where
  distinct : (reports.map WorkerReport.fresh).Nodup
  fresh : ∀ r ∈ reports, d.Fresh r.fresh

theorem Reporting.ready (h : b.Reporting d session heard) (hr : d.Ready (r :: reports)) :
    (d.report session r).Ready reports := by
  obtain ⟨hfirst,hrest⟩ := List.forall_mem_cons.mp hr.fresh
  obtain ⟨hnotin,hnodup⟩ := List.nodup_cons.mp hr.distinct
  refine ⟨hnodup,fun r' hr' => h.fresh hfirst (hrest r' hr') ?_⟩
  exact fun heq => hnotin (heq ▸ List.mem_map_of_mem hr')

theorem reports_foldl (h : b.Reporting d session heard) (hr : d.Ready reports) :
    b.Reports d (reports.foldl (report session) d) session reports := by
  induction reports generalizing d heard with
  | nil => exact ⟨⟨heard,h⟩,by simp,fun _ hp => hp,fun _ hp => Or.inl hp,fun _ hp => hp⟩
  | cons r reports ih =>
    have hnext := h.report (hr.fresh r List.mem_cons_self)
    obtain ⟨hstill,hshards,htold,hannounced,hclosed⟩ := ih hnext (h.ready hr)
    refine ⟨hstill,fun k => ?_,fun p hp => htold p (announced_report hp),fun p hp => ?_,
      fun p hp => hclosed p (closed_report hp)⟩
    · rw [List.foldl_cons,hshards]
      cases r with
      | callback slot fresh => rfl
      | paneClosed slot fresh =>
        have herase : (d.report session (.paneClosed slot fresh)).shards =
            d.shards.erase (session,slot) := rfl
        simp only [List.filterMap_cons,WorkerReport.closes?,List.mem_cons,herase]
        by_cases hk : k = (session,slot)
        · subst hk
          simp
        · have hne : k.1 = session → k.2 ≠ slot := fun hs hslot => hk (Prod.ext hs hslot)
          rw [AList.lookup_erase_ne hk]
          refine if_congr (and_congr_right fun hs => ?_) rfl rfl
          exact (or_iff_right (hne hs)).symm
    · rw [List.map_cons,List.mem_cons]
      rcases hannounced p hp with hp | hp
      · exact (h.announced hp).imp_right Or.inl
      · exact Or.inr (Or.inr hp)

/-- The reports leave nothing of the session, and name no pane but such as were told of, just if
they are heralded. -/
theorem heralded_iff (h : b.Reporting d session heard) (hr : d.Ready reports) :
    heard.Heralded reports ↔
      (∀ p slot, (reports.foldl (report session) d).impl.index.lookup p ≠ some (session,slot)) ∧
      ∀ p ∈ (reports.foldl (report session) d).closed,
        p ∈ d.closed ∨ p ∈ (reports.foldl (report session) d).announced := by
  induction reports generalizing d heard with
  | nil =>
    have hnone : heard.known = [] ↔ ∀ p slot, d.impl.index.lookup p ≠ some (session,slot) := by
      rw [List.eq_nil_iff_forall_not_mem,forall_comm]
      simp only [h.known,not_exists,ne_eq]
    exact hnone.trans (and_iff_left fun p hp => Or.inl hp).symm
  | cons r reports ih =>
    have hfirst := hr.fresh r List.mem_cons_self
    have hnext := h.report hfirst
    have hready := h.ready hr
    have hall := reports_foldl hnext hready
    rw [Heard.Heralded,ih hnext hready,List.foldl_cons]
    set e := reports.foldl (Fleet.report session) (d.report session r) with he
    rw [and_left_comm]
    refine and_congr_right fun _ => ?_
    constructor
    · rintro ⟨hadmits,hclosed⟩ p hp
      rcases hclosed p hp with hp | hp
      · cases r with
        | callback slot fresh => exact Or.inl hp
        | paneClosed slot fresh =>
          rcases List.mem_append.mp hp with hp | hp
          · rcases h.found (Option.mem_toList.mp hp) with ⟨-,hold⟩ | ⟨hunknown,hlives,-⟩
            · exact Or.inr (hall.told p (announced_report hold))
            · exact ((hadmits slot rfl).elim hunknown hlives).elim
          · exact Or.inl hp
      · exact Or.inr hp
    · intro hclosed
      refine ⟨fun slot hslot => ?_,fun p hp => (hclosed p hp).imp_left closed_report⟩
      cases r with
      | callback => cases hslot
      | paneClosed slot' fresh =>
        obtain rfl := Option.some.inj hslot
        by_contra hnot
        rw [not_or] at hnot
        -- the id that is drawn here is not told of later
        have hreg : d.impl.index.Registers session slot' := h.registers_iff.mpr hnot
        have hnamed : fresh ∈ (d.report session (.paneClosed slot' fresh)).closed := by
          simp [Fleet.report,Fleet.paneClosed,PaneIndex.getOrAlloc_registers hreg]
        rcases hclosed fresh (hall.closed fresh hnamed) with hin | hin
        · exact hfirst.2.2 hin
        · rcases hall.announced fresh hin with hin | hin
          · exact hfirst.2.1 hin
          · exact (List.nodup_cons.mp hr.distinct).1 hin

/-! A session that is closed. -/

/-- The reports, from the state in which the session was closed. -/
theorem reports_closeSession (d : Fleet) (session : SessionKey) (hr : d.Ready reports) :
    let b := d.onImpl fun s => s.closeSession session
    b.Reports b (d.closeSession session reports) session reports ∧
      d.impl.ClosesSession b.impl session ∧ b.Reporting b session ⟨[],[]⟩ ∧ b.Ready reports := by
  intro b
  have hc : d.impl.ClosesSession b.impl session := SupervisorImpl.closesSession d.impl session
  have hnone : ∀ p slot, b.impl.index.lookup p ≠ some (session,slot) := fun p slot hp =>
    ((hc.lookup p _).mp hp).2 rfl
  have hstart : b.Reporting b session ⟨[],[]⟩ := by
    refine ⟨rfl,?_,fun _ _ _ => Iff.rfl,fun slot => ?_,fun p slot hp => absurd hp (hnone p slot),
      fun p slot hp => absurd hp (hnone p slot),fun slot => ?_⟩
    · rw [hc.workers]
      exact AList.lookup_erase _ _
    · simp [hnone]
    · exact iff_of_false (fun hdead => hc.dead _ hdead rfl) List.not_mem_nil
  have hready : b.Ready reports := by
    refine ⟨hr.distinct,fun r hmem => ?_⟩
    obtain ⟨⟨hindex,hmap,hrows⟩,htold,hclosed⟩ := hr.fresh r hmem
    refine ⟨⟨?_,?_,?_⟩,htold,hclosed⟩
    · refine Option.eq_none_iff_forall_ne_some.mpr fun k hk => ?_
      rw [((hc.lookup r.fresh k).mp hk).1] at hindex
      cases hindex
    · refine Option.eq_none_iff_forall_ne_some.mpr fun v hv => ?_
      rw [((hc.homes r.fresh v).mp hv).1] at hmap
      cases hmap
    · exact (congrArg (AList.lookup r.fresh) hc.paneRows).trans hrows
  exact ⟨reports_foldl hstart hready,hc,hstart,hready⟩

/-- The session goes from all tables but for what its worker reports. -/
structure ClosesSession (d e : Fleet) (session : SessionKey) (reports : List WorkerReport) :
    Prop where
  lookup : ∀ q k, k.1 ≠ session →
    (e.impl.index.lookup q = some k ↔ d.impl.index.lookup q = some k)
  slots : ∀ k : SlotKey, k.2 ∈ e.impl.slots k.1 ↔ k.1 ≠ session ∧ k.2 ∈ d.impl.slots k.1
  shards : ∀ k, e.shards.lookup k =
    if k.1 = session ∧ k.2 ∈ d.impl.slots session then none else d.shards.lookup k
  homes : ∀ q v, e.impl.paneWindowMap.lookup q = some v ↔
    d.impl.paneWindowMap.lookup q = some v ∧ v ∉ d.impl.windowsOf session
  memory : ∀ v, e.impl.windowStore.lookup v =
    if v ∈ d.impl.windowsOf session then none else d.impl.windowStore.lookup v
  store : ∀ v, e.impl.rowsAt v = if v ∈ d.impl.windowsOf session then [] else d.impl.rowsAt v
  lists : ∀ other, e.impl.windowsOf other =
    if other = session then [] else d.impl.windowsOf other
  heralded : Heard.Heralded ⟨[],[]⟩ reports ↔
    (∀ p slot, e.impl.index.lookup p ≠ some (session,slot)) ∧
      ∀ p ∈ e.closed, p ∈ d.closed ∨ p ∈ e.announced
  told : ∀ p ∈ d.announced, p ∈ e.announced

theorem closesSession (h : d.Known) (hall : WorkerReport.All (d.impl.slots session) reports)
    (hr : d.Ready reports) : d.ClosesSession (d.closeSession session reports) session reports := by
  obtain ⟨hreports,hc,hstart,hready⟩ := reports_closeSession d session hr
  obtain ⟨⟨heard,hstill⟩,hshards,htold,-,-⟩ := hreports
  have hheralded := heralded_iff hstart hready
  set b := d.onImpl fun s => s.closeSession session
  have hd : reports.foldl (report session) b = d.closeSession session reports := rfl
  rw [hd] at hheralded
  set e := d.closeSession session reports
  refine ⟨fun q k hk => ?_,fun k => ?_,fun k => ?_,fun q v => ?_,fun v => ?_,fun v => ?_,
    fun other => ?_,hheralded,htold⟩
  · rw [hstill.others q k hk,hc.lookup]
    exact and_iff_left hk
  · have hworkers : e.impl.workers = d.impl.workers.erase session := by
      rw [hstill.impl]
      exact hc.workers
    rw [SupervisorImpl.slots,hworkers]
    by_cases hs : k.1 = session
    · rw [hs]
      simp
    · rw [AList.lookup_erase_ne hs]
      exact (and_iff_right hs).symm
  · rw [hshards]
    exact if_congr (and_congr_right fun _ => hall.2.mem_iff) rfl rfl
  · have hmap : e.impl.paneWindowMap = b.impl.paneWindowMap := by rw [hstill.impl]
    rw [hmap,hc.homes]
    refine and_congr_right fun hv => ?_
    rw [h.rows q v hv]
    constructor
    · exact fun hnot hin => hnot v hin rfl
    · rintro hnot w hw heq
      exact hnot (Option.some.inj heq ▸ hw)
  · have hmemory : e.impl.windowStore = b.impl.windowStore := by rw [hstill.impl]
    rw [hmemory]
    exact hc.memory v
  · have hstore : e.impl.rowsAt v = b.impl.rowsAt v := by
      rw [hstill.impl]
      rfl
    rw [hstore]
    exact hc.store v
  · have hlists : e.impl.windowsOf other = b.impl.windowsOf other := by
      rw [hstill.impl]
      rfl
    rw [hlists]
    exact hc.lists other

theorem rowsAt_ne_nil_iff {s : SupervisorImpl} :
    s.rowsAt w ≠ [] ↔ ∃ session, s.Stored session w := by
  rw [SupervisorImpl.rowsAt,ne_eq,List.filter_eq_nil_iff]
  simp [SupervisorImpl.Stored,and_comm]

theorem endsWhole_of_takes (hc : d.ClosesSession e session reports)
    (ht : d.holdings.Takes e.holdings (d.sessionPart session)) : d.EndsWhole session reports := by
  refine ⟨fun slot hrun => ?_,fun w hw => ?_,fun w hw hsome => ?_,fun w hw other hlist => ?_,
    fun v p k hon => ⟨fun hs => ?_,fun hv => ?_⟩,hc.heralded.mpr ⟨fun p slot hp => ?_,?_⟩⟩
  · by_contra hshut
    have hstays := hc.shards (session,slot)
    rw [if_neg fun hboth => hshut hboth.2] at hstays
    exact (ht.stopped (session,slot) rfl).1 (hstays.trans_ne hrun)
  · obtain ⟨hmemory,hstore,-⟩ := ht.removed w hw
    by_contra hnot
    simp only [holdings,hc.memory,hc.store,if_neg hnot] at hmemory hstore
    rcases hw with hown | ⟨-,hstored⟩
    · rw [SupervisorImpl.sessionOf,hmemory] at hown
      cases hown
    · exact rowsAt_ne_nil_iff.mpr ⟨session,hstored⟩ hstore
  · by_contra hnot
    obtain ⟨hmemory,hstore,-⟩ := ht.windows w hnot
    simp only [holdings,hc.memory,hc.store,if_pos hw] at hmemory hstore
    exact hsome.elim (fun hne => hne hmemory.symm) fun hne => hne hstore.symm
  · by_contra hne
    have hstays := hc.lists other
    rw [if_neg hne] at hstays
    rw [← hstays] at hlist
    exact (ht.removed w hw).2.2 other hlist
  · by_contra hnot
    have hgone := (ht.forgotten p (Or.inl ⟨k,hon.1,hs⟩)).2
    have hstays := (hc.homes p v).mpr ⟨hon.2,hnot⟩
    exact absurd (hgone.symm.trans hstays) (by simp)
  · by_contra hs
    have hnot : ¬(d.sessionPart session).pane p := by
      rintro (⟨j,hj,hown⟩ | ⟨hnone,-⟩)
      · obtain rfl := Option.some.inj (hon.1.symm.trans hj)
        exact hs hown
      · rw [hon.1] at hnone
        cases hnone
    have hindexed : d.holdings.index p ≠ none := by
      simp [holdings,hon.1]
    have hstays := ((ht.panes p hnot).2 hindexed).trans hon.2
    exact ((hc.homes p v).mp hstays).2 hv
  · by_cases hpart : (d.sessionPart session).pane p
    · exact absurd ((ht.forgotten p hpart).1.symm.trans hp) (by simp)
    · have hold := (ht.panes p hpart).1.symm.trans hp
      exact hpart (Or.inl ⟨_,hold,rfl⟩)
  · exact ht.named

theorem takes_of_endsWhole (hc : d.ClosesSession e session reports)
    (ha : d.EndsWhole session reports) :
    d.holdings.Takes e.holdings (d.sessionPart session) := by
  obtain ⟨hnone,hnamed⟩ := hc.heralded.mp ha.heralded
  have hold : ∀ {p k}, e.impl.index.lookup p = some k →
      d.impl.index.lookup p = some k ∧ k.1 ≠ session := by
    intro p k hk
    have hs : k.1 ≠ session := by
      obtain ⟨_,slot⟩ := k
      rintro rfl
      exact hnone p slot hk
    exact ⟨(hc.lookup p k hs).mp hk,hs⟩
  refine ⟨fun k hk => ⟨?_,fun hlisted => ((hc.slots k).mp hlisted).1 hk⟩,fun p hp => ⟨?_,?_⟩,
    fun w hw => ?_,hnamed,fun k hk => ⟨?_,(hc.slots k).trans (and_iff_right hk)⟩,
    fun p hp => ⟨?_,fun hsome => ?_⟩,fun w hw => ?_⟩
  · obtain ⟨_,slot⟩ := k
    obtain rfl : _ = session := hk
    refine not_ne_iff.mpr ((hc.shards _).trans ?_)
    split
    · rfl
    · rename_i hshut
      by_contra hrun
      exact hshut ⟨rfl,ha.running slot hrun⟩
  · refine Option.eq_none_iff_forall_ne_some.mpr fun k hk => ?_
    obtain ⟨hat,hs⟩ := hold hk
    rcases hp with ⟨j,hj,hown⟩ | ⟨hgone,-⟩
    · obtain rfl := Option.some.inj (hat.symm.trans hj)
      exact hs hown
    · rw [hat] at hgone
      cases hgone
  · refine Option.eq_none_iff_forall_ne_some.mpr fun v hv => ?_
    obtain ⟨hat,hout⟩ := (hc.homes p v).mp hv
    rcases hp with ⟨k,hk,hown⟩ | ⟨-,w,hw,howned⟩
    · exact hout ((ha.homes v p k ⟨hk,hat⟩).mp hown)
    · obtain rfl := Option.some.inj (hat.symm.trans hw)
      exact hout (ha.owned _ howned)
  · have hlisted := ha.owned w hw
    refine ⟨(hc.memory w).trans (if_pos hlisted),(hc.store w).trans (if_pos hlisted),
      fun other hin => ?_⟩
    simp only [holdings,hc.lists] at hin
    split at hin
    · cases hin
    · rename_i hne
      exact hne (ha.apart w hw other hin)
  · have hstays := hc.shards k
    rw [if_neg fun hboth => hk hboth.1] at hstays
    exact iff_of_eq (congrArg (· ≠ none) hstays)
  · refine Option.ext fun k => ⟨fun hk => (hold hk).1,fun hk => ?_⟩
    refine (hc.lookup p k fun hs => hp (Or.inl ⟨k,hk,hs⟩)).mpr hk
  · obtain ⟨k,hk⟩ := Option.ne_none_iff_exists'.mp hsome
    refine Option.ext fun v => (hc.homes p v).trans (and_iff_left_of_imp fun hv hin => ?_)
    exact hp (Or.inl ⟨k,hk,(ha.homes v p k ⟨hk,hv⟩).mpr hin⟩)
  · have hout : d.impl.windowStore.lookup w ≠ none ∨ d.impl.rowsAt w ≠ [] →
        w ∉ d.impl.windowsOf session := fun hsome hin => hw (ha.listed w hin hsome)
    refine ⟨(hc.memory w).trans ?_,(hc.store w).trans ?_,fun hmemory other => ?_⟩
    · split
      · rename_i hin
        by_contra hne
        exact hout (Or.inl (Ne.symm hne)) hin
      · rfl
    · split
      · rename_i hin
        by_contra hne
        exact hout (Or.inr (Ne.symm hne)) hin
      · rfl
    · simp only [holdings,hc.lists]
      split
      · rename_i heq
        rw [heq]
        exact iff_of_false List.not_mem_nil (hout (Or.inl hmemory))
      · exact Iff.rfl

/-- A session that is closed goes whole and alone just if its worker is there, the windows listed
for it are all and only its own, with its panes, and its slots are heard of before they close. -/
theorem takes_closeSession_iff (h : d.Known)
    (hall : WorkerReport.All (d.impl.slots session) reports) (hr : d.Ready reports) :
    d.holdings.Takes (d.closeSession session reports).holdings (d.sessionPart session) ↔
      d.EndsWhole session reports :=
  have hc := closesSession h hall hr
  ⟨endsWhole_of_takes hc,takes_of_endsWhole hc⟩

end Fleet

end Pyre.Supervisor
