import Pyre.Supervisor.Teardown

/-!
What `close_window` of the supervisor leaves: one pane after another is closed on its worker, and
the callback takes it out of the tables.
-/

set_option autoImplicit false

namespace Pyre.Supervisor
open Base

namespace SupervisorImpl

variable {s t u : SupervisorImpl} {session : SessionKey} {v w : WindowId} {p q : PaneId}
  {k : SlotKey} {tree : LayoutNode} {within : WindowId → Prop} {gone gone' : SlotKey → Prop}

/-- The window of a pane is the one the store has. -/
def Filed (s : SupervisorImpl) : Prop :=
  ∀ p v, s.paneWindowMap.lookup p = some v → s.paneRows.lookup p = some v

/-! Panes that are taken out of their windows, and slots that are closed. -/

theorem rowsAt_upsertWindowLayout (h : v ≠ w) (s : SupervisorImpl) (tree : LayoutNode) :
    (s.upsertWindowLayout w tree).rowsAt v = s.rowsAt v := by
  rw [rowsAt,rowsAt,upsertWindowLayout]
  induction s.windowRows with
  | nil => rfl
  | cons r rows ih =>
    rw [List.map_cons,List.filter_cons,List.filter_cons,ih]
    by_cases hr : r.id = w
    · have hne : r.id ≠ v := fun hv => h (hv.symm.trans hr)
      simp [hr,Ne.symm h]
    · simp [hr]

theorem lookup_setLayout_ne (h : v ≠ w) (s : SupervisorImpl) (tree : LayoutNode) :
    (s.setLayout w tree).windowStore.lookup v = s.windowStore.lookup v := by
  unfold setLayout
  split
  · exact lookup_setMeta_ne h s _
  · rfl

/-- The session has not lost a pane, or not all. -/
def Left (s : SupervisorImpl) (gone : SlotKey → Prop) (session : SessionKey) : Prop :=
  (∃ x, gone (session,x)) → ∃ q k, s.index.lookup q = some k ∧ k.1 = session ∧ ¬gone k

/-- The slots `gone` are closed, and what has been said of panes and trees concerns only some
windows. A session that has no pane left is dropped with all its slots. -/
structure Drops (s t : SupervisorImpl) (within : WindowId → Prop) (gone : SlotKey → Prop) : Prop
    extends s.SameWindows t where
  lookup : ∀ q k, t.index.lookup q = some k ↔ s.index.lookup q = some k ∧ ¬gone k
  slots : ∀ session slot, slot ∈ t.slots session ↔
    slot ∈ s.slots session ∧ ¬gone (session,slot) ∧ s.Left gone session
  dead : ∀ k, k ∈ t.index.deadSlots ↔ (k ∈ s.index.deadSlots ∨ gone k) ∧ s.Left gone k.1
  paneRows : t.paneRows = s.paneRows
  homes : ∀ q, t.paneWindowMap.lookup q = s.paneWindowMap.lookup q ∨
    ∃ v, within v ∧ s.paneWindowMap.lookup q = some v ∧ t.paneWindowMap.lookup q = none
  windows : ∀ v, ¬within v →
    t.windowStore.lookup v = s.windowStore.lookup v ∧ t.rowsAt v = s.rowsAt v

/-- If only the first closed a slot of the session, what it left is still there. -/
theorem left_trans (h : ∀ q k, t.index.lookup q = some k ↔ s.index.lookup q = some k ∧ ¬gone k) :
    s.Left (fun k => gone k ∨ gone' k) session ↔ s.Left gone session ∧ t.Left gone' session := by
  simp only [Left,h,not_or]
  constructor
  · intro hleft
    refine ⟨fun hsome => ?_,fun hsome => ?_⟩
    · obtain ⟨x,hx⟩ := hsome
      obtain ⟨q,j,hq,hs,hj,-⟩ := hleft ⟨x,Or.inl hx⟩
      exact ⟨q,j,hq,hs,hj⟩
    · obtain ⟨x,hx⟩ := hsome
      obtain ⟨q,j,hq,hs,hj,hj'⟩ := hleft ⟨x,Or.inr hx⟩
      exact ⟨q,j,⟨hq,hj⟩,hs,hj'⟩
  · rintro ⟨hleft,hleft'⟩
    by_cases hsome : ∃ x, gone' (session,x)
    · intro _
      obtain ⟨q,j,⟨hq,hj⟩,hs,hj'⟩ := hleft' hsome
      exact ⟨q,j,hq,hs,hj,hj'⟩
    · rintro ⟨x,hx | hx⟩
      · obtain ⟨q,j,hq,rfl,hj⟩ := hleft ⟨x,hx⟩
        exact ⟨q,j,hq,rfl,hj,fun hj' => hsome ⟨j.2,hj'⟩⟩
      · exact absurd ⟨x,hx⟩ hsome

namespace Drops

theorem refl (s : SupervisorImpl) (within : WindowId → Prop) : s.Drops s within fun _ => False where
  toSameWindows := .refl s
  lookup _ _ := by simp
  slots _ _ := by simp [Left]
  dead _ := by simp [Left]
  paneRows := rfl
  homes _ := Or.inl rfl
  windows _ _ := ⟨rfl,rfl⟩

theorem congr (h : s.Drops t within gone) (hgone : ∀ k, gone k ↔ gone' k) :
    s.Drops t within gone' := by
  obtain rfl : gone = gone' := funext fun k => propext (hgone k)
  exact h

theorem trans (h : s.Drops t within gone) (h' : t.Drops u within gone') :
    s.Drops u within fun k => gone k ∨ gone' k where
  toSameWindows := h.toSameWindows.trans h'.toSameWindows
  lookup q k := by rw [h'.lookup,h.lookup,not_or,and_assoc]
  slots session slot := by
    rw [h'.slots,h.slots,left_trans h.lookup,not_or]
    tauto
  dead k := by
    rw [h'.dead,h.dead,left_trans h.lookup]
    constructor
    · rintro ⟨⟨hdead,hleft⟩ | hk,hleft'⟩
      · exact ⟨hdead.imp_right Or.inl,hleft,hleft'⟩
      · refine ⟨Or.inr (Or.inr hk),?_,hleft'⟩
        -- a pane that the second left was left by the first
        obtain ⟨q,j,hq,hs,-⟩ := hleft' ⟨k.2,hk⟩
        obtain ⟨hold,hj⟩ := (h.lookup q j).mp hq
        exact fun _ => ⟨q,j,hold,hs,hj⟩
    · rintro ⟨hdead | hk | hk,hleft,hleft'⟩
      · exact ⟨Or.inl ⟨Or.inl hdead,hleft⟩,hleft'⟩
      · exact ⟨Or.inl ⟨Or.inr hk,hleft⟩,hleft'⟩
      · exact ⟨Or.inr hk,hleft'⟩
  paneRows := h'.paneRows.trans h.paneRows
  homes q := by
    rcases h'.homes q with hq | ⟨v,hv,hold,hq⟩
    · rw [hq]
      exact h.homes q
    · rcases h.homes q with hq₀ | ⟨v₀,hv₀,hold₀,hq₀⟩
      · exact Or.inr ⟨v,hv,hq₀ ▸ hold,hq⟩
      · exact Or.inr ⟨v₀,hv₀,hold₀,hq⟩
  windows v hv :=
    ⟨(h'.windows v hv).1.trans (h.windows v hv).1,(h'.windows v hv).2.trans (h.windows v hv).2⟩

/-- Nothing is closed. -/
theorem of_none (hsame : s.SameWindows t) (hindex : t.index = s.index)
    (hworkers : t.workers = s.workers) (hrows : t.paneRows = s.paneRows)
    (homes : ∀ q, t.paneWindowMap.lookup q = s.paneWindowMap.lookup q ∨
      ∃ v, within v ∧ s.paneWindowMap.lookup q = some v ∧ t.paneWindowMap.lookup q = none)
    (hwindows : ∀ v, ¬within v →
      t.windowStore.lookup v = s.windowStore.lookup v ∧ t.rowsAt v = s.rowsAt v) :
    s.Drops t within fun _ => False where
  toSameWindows := hsame
  lookup q k := by simp [hindex]
  slots session slot := by simp [SupervisorImpl.slots,hworkers,Left]
  dead k := by simp [hindex,Left]
  paneRows := hrows
  homes := homes
  windows := hwindows

theorem then_none (h : s.Drops t within gone) (h' : t.Drops u within fun _ => False) :
    s.Drops u within gone := (h.trans h').congr fun _ => iff_of_eq (or_false _)

end Drops

theorem drops_unassign (h : ∀ v, s.paneWindowMap.lookup p = some v → within v) :
    s.Drops (s.unassign p) within fun _ => False := by
  refine .of_none (.of_panes rfl rfl rfl) rfl rfl rfl (fun q => ?_) fun _ _ => ⟨rfl,rfl⟩
  by_cases hq : q = p
  · subst hq
    have hnone : (s.unassign q).paneWindowMap.lookup q = none := AList.lookup_erase _ _
    cases hold : s.paneWindowMap.lookup q with
    | none => exact Or.inl hnone
    | some v => exact Or.inr ⟨v,h v hold,rfl,hnone⟩
  · exact Or.inl (AList.lookup_erase_ne hq)

theorem drops_storeLayout (hw : within w) (s : SupervisorImpl) (tree : LayoutNode) :
    s.Drops ((s.setLayout w tree).upsertWindowLayout w tree) within fun _ => False := by
  have hpanes := samePanes_storeLayout s w tree
  refine .of_none (.storeLayout s w tree) hpanes.index hpanes.workers hpanes.paneRows
    (fun q => Or.inl (by rw [hpanes.paneWindowMap])) fun v hv => ?_
  have hne : v ≠ w := by
    rintro rfl
    exact hv hw
  refine ⟨lookup_setLayout_ne hne s tree,?_⟩
  rw [rowsAt_upsertWindowLayout hne,rowsAt,windowRows_setLayout,rowsAt]

theorem drops_prunePane (h : ∀ v, s.paneWindowMap.lookup p = some v → within v) :
    s.Drops (s.prunePane p) within fun _ => False := by
  have hun := drops_unassign h
  unfold prunePane
  split
  · exact .refl s within
  · rename_i w hw
    simp only
    split
    · exact hun
    · exact hun.then_none (drops_storeLayout (h w hw) _ _)

theorem windowStore_dropWindow (s : SupervisorImpl) (w : WindowId) :
    (s.dropWindow w).windowStore = s.windowStore.erase w := by
  unfold dropWindow
  simp only
  split
  · rfl
  · split <;> rfl

theorem rowsAt_deleteWindow (h : v ≠ w) (s : SupervisorImpl) :
    (s.deleteWindow w).rowsAt v = s.rowsAt v := by
  rw [rowsAt,deleteWindow,List.filter_filter,rowsAt]
  refine List.filter_congr fun r _ => ?_
  by_cases hr : r.id = v
  · simp [hr,h]
  · simp [hr]

/-- A slot that is closed on its worker and struck out of the index, and the session with the
last pane. -/
def evict (s : SupervisorImpl) (k : SlotKey) (ix : PaneIndex) : SupervisorImpl :=
  let s := { (if k.2 ∈ s.slots k.1 then s.closeSlot k.1 k.2 else s) with index := ix }
  if ix.paneCount k.1 = 0 then s.removeSession k.1 else s

theorem mem_slots_closed (s : SupervisorImpl) (k : SlotKey) (session : SessionKey) (slot : UInt32) :
    slot ∈ (if k.2 ∈ s.slots k.1 then s.closeSlot k.1 k.2 else s).slots session ↔
      slot ∈ s.slots session ∧ (session,slot) ≠ k := by
  split
  · rw [closeSlot,← registerWorker,slots_registerWorker]
    by_cases hs : session = k.1
    · subst hs
      simp [Prod.ext_iff]
    · simp [hs,Prod.ext_iff]
  · rename_i hclosed
    refine (and_iff_left_of_imp fun hslot => ?_).symm
    rintro rfl
    exact hclosed hslot

theorem left_evict {ix : PaneIndex}
    (hix : ∀ q j, ix.lookup q = some j ↔ s.index.lookup q = some j ∧ j ≠ k) :
    s.Left (· = k) session ↔ (session = k.1 → ix.paneCount k.1 ≠ 0) := by
  constructor
  · rintro hleft rfl
    obtain ⟨q,j,hq,hs,hj⟩ := hleft ⟨k.2,rfl⟩
    exact fun hzero => session_of_paneCount hzero ((hix q j).mpr ⟨hq,hj⟩) hs
  · rintro hsome ⟨x,rfl⟩
    have hcount := hsome rfl
    rw [ne_eq,paneCount_eq_zero_iff] at hcount
    push Not at hcount
    obtain ⟨q,j,hq,hs⟩ := hcount
    obtain ⟨hold,hj⟩ := (hix q j).mp hq
    exact ⟨q,j,hold,hs,hj⟩

theorem drops_evict {ix : PaneIndex} (within : WindowId → Prop)
    (hix : ∀ q j, ix.lookup q = some j ↔ s.index.lookup q = some j ∧ j ≠ k)
    (hdead : ix.deadSlots = insert k s.index.deadSlots) :
    s.Drops (s.evict k ix) within (· = k) := by
  set c := { (if k.2 ∈ s.slots k.1 then s.closeSlot k.1 k.2 else s) with index := ix } with hc
  have hslots : ∀ session slot, slot ∈ c.slots session ↔
      slot ∈ s.slots session ∧ (session,slot) ≠ k := by
    intro session slot
    rw [hc]
    exact mem_slots_closed s k session slot
  have hkeeps : s.SameWindows c ∧ c.paneRows = s.paneRows ∧ c.paneWindowMap = s.paneWindowMap ∧
      c.windowStore = s.windowStore ∧ c.windowRows = s.windowRows := by
    rw [hc]
    split
    · exact ⟨.of_panes rfl rfl rfl,rfl,rfl,rfl,rfl⟩
    · exact ⟨.of_panes rfl rfl rfl,rfl,rfl,rfl,rfl⟩
  obtain ⟨hsame,hrows,hmap,hstore,hwindows⟩ := hkeeps
  unfold evict
  simp only [← hc]
  split
  · rename_i hzero
    have hleft : ∀ session, s.Left (· = k) session ↔ session ≠ k.1 := by
      intro session
      rw [left_evict hix]
      exact ⟨fun h hs => h hs hzero,fun h hs => absurd hs h⟩
    refine ⟨hsame.trans (.of_panes rfl rfl rfl),fun q j => ?_,fun session slot => ?_,fun j => ?_,
      hrows,fun q => Or.inl (congrArg (AList.lookup q) hmap),
      fun v _ => ⟨congrArg (AList.lookup v) hstore,congrArg (List.filter _) hwindows⟩⟩
    · rw [← hix,removeSession,PaneIndex.lookup_removeSession]
      exact and_iff_left_of_imp (session_of_paneCount hzero)
    · rw [hleft,← and_assoc,← hslots]
      by_cases hs : session = k.1
      · subst hs
        simp [SupervisorImpl.slots,removeSession]
      · simp [SupervisorImpl.slots,removeSession,AList.lookup_erase_ne hs,hs]
    · rw [hleft]
      simp [hc,removeSession,PaneIndex.removeSession,hdead,or_comm]
  · rename_i hsome
    have hleft : ∀ session, s.Left (· = k) session := fun _ => (left_evict hix).mpr fun _ => hsome
    refine ⟨hsame,fun q j => (hix q j),fun session slot => ?_,fun j => ?_,hrows,
      fun q => Or.inl (congrArg (AList.lookup q) hmap),
      fun v _ => ⟨congrArg (AList.lookup v) hstore,congrArg (List.filter _) hwindows⟩⟩
    · rw [hslots,and_iff_left (hleft session)]
    · rw [and_iff_left (hleft j.1)]
      simp [hc,hdead,or_comm]

/-- With the callback of the worker. -/
theorem drops_paneClosed {fresh : PaneId}
    (hfresh : s.index.Registers k.1 k.2 → s.UnusedPane fresh)
    (hhomes : ∀ v p, s.On v p k → within v) :
    s.Drops ((if k.2 ∈ s.slots k.1 then s.closeSlot k.1 k.2 else s).paneClosed k.1 k.2 fresh)
      within (· = k) := by
  set c := if k.2 ∈ s.slots k.1 then s.closeSlot k.1 k.2 else s with hc
  have hindex : c.index = s.index := by
    rw [hc]
    split <;> rfl
  have hmap : c.paneWindowMap = s.paneWindowMap := by
    rw [hc]
    split <;> rfl
  set ix := ((c.index.getOrAllocPaneBySlot k.1 k.2 fresh).1.removePaneSlot k.1 k.2).1 with hix
  have hlook : ∀ q j, ix.lookup q = some j ↔ s.index.lookup q = some j ∧ j ≠ k := by
    intro q j
    rw [hix,hindex]
    exact lookup_dropSlot fun hr => (hfresh hr).1
  have hdead : ix.deadSlots = insert k s.index.deadSlots := by
    rw [hix,hindex]
    exact congrArg (insert k) (deadSlots_getOrAlloc s.index k.1 k.2 fresh)
  have hevict := drops_evict within hlook hdead
  have heq : s.evict k ix = if ix.paneCount k.1 = 0 then
      SupervisorImpl.removeSession { c with index := ix } k.1 else { c with index := ix } := rfl
  rw [paneClosed_evict c k.1 k.2 fresh hix,← heq]
  cases hpane : (c.index.getOrAllocPaneBySlot k.1 k.2 fresh).2 with
  | none => exact hevict
  | some pane =>
    rw [Option.elim_some]
    refine hevict.then_none (drops_prunePane fun v hv => ?_)
    have hold : s.paneWindowMap.lookup pane = some v := by
      rcases hevict.homes pane with hsame | ⟨-,-,-,hnone⟩
      · rw [← hsame]
        exact hv
      · rw [hnone] at hv
        cases hv
    -- an id that has just been drawn is in no window
    rw [hindex] at hpane
    rcases PaneIndex.lookup_of_getOrAlloc (PaneIndex.lookup_getOrAlloc_some hpane) with rfl | hat
    · by_cases hr : s.index.Registers k.1 k.2
      · rw [(hfresh hr).2.1] at hold
        cases hold
      · have hat := PaneIndex.lookup_getOrAlloc_some hpane
        rw [PaneIndex.getOrAlloc_keeps hr] at hat
        exact hhomes v _ ⟨hat,hold⟩
    · exact hhomes v _ ⟨hat,hold⟩

end SupervisorImpl

namespace Fleet

variable {d e f : Fleet} {w : WindowId} {p q : PaneId} {k : SlotKey} {within : WindowId → Prop}
  {gone gone' : SlotKey → Prop}

/-! Panes that are closed, with their callbacks. -/

structure Closes (d e : Fleet) (within : WindowId → Prop) (gone : SlotKey → Prop) : Prop where
  impl : d.impl.Drops e.impl within gone
  shut : ∀ k, gone k → e.shards.lookup k = none
  kept : ∀ k, ¬gone k → e.shards.lookup k = d.shards.lookup k
  announced : e.announced = d.announced
  closed : ∀ p ∈ e.closed, p ∈ d.closed ∨ ∃ k, d.impl.index.lookup p = some k

namespace Closes

theorem of_impl {s : SupervisorImpl} (h : d.impl.Drops s within fun _ => False) :
    d.Closes { d with impl := s } within fun _ => False where
  impl := h
  shut _ hk := hk.elim
  kept _ _ := rfl
  announced := rfl
  closed _ hp := Or.inl hp

theorem congr (h : d.Closes e within gone) (hgone : ∀ k, gone k ↔ gone' k) :
    d.Closes e within gone' := by
  obtain rfl : gone = gone' := funext fun k => propext (hgone k)
  exact h

theorem trans (h : d.Closes e within gone) (h' : e.Closes f within gone') :
    d.Closes f within fun k => gone k ∨ gone' k where
  impl := h.impl.trans h'.impl
  shut k hk := by
    by_cases hk' : gone' k
    · exact h'.shut k hk'
    · rw [h'.kept k hk']
      exact h.shut k (hk.resolve_right hk')
  kept k hk := (h'.kept k fun hk' => hk (Or.inr hk')).trans (h.kept k fun hk' => hk (Or.inl hk'))
  announced := h'.announced.trans h.announced
  closed p hp := by
    rcases h'.closed p hp with hp | ⟨k,hk⟩
    · exact h.closed p hp
    · exact Or.inr ⟨k,((h.impl.lookup p k).mp hk).1⟩

end Closes

/-- A pane is closed on its worker, if the slot that the index has for it is open. -/
theorem closes_closeOnWorker (hhomes : ∀ k, d.impl.Closes p k → ∀ v q, d.impl.On v q k → within v) :
    d.Closes (d.closeOnWorker p) within fun k => d.impl.Closes p k := by
  unfold closeOnWorker
  cases hp : d.impl.index.lookup p with
  | none =>
    refine (Closes.of_impl (.refl d.impl within)).congr fun k => ?_
    simp [SupervisorImpl.Closes,hp]
  | some k =>
    have hone : ∀ j, d.impl.Closes p j ↔ j = k ∧ k.2 ∈ d.impl.slots k.1 := by
      intro j
      rw [SupervisorImpl.Closes,hp,Option.some.injEq]
      constructor
      · rintro ⟨rfl,hopen⟩
        exact ⟨rfl,hopen⟩
      · rintro ⟨rfl,hopen⟩
        exact ⟨rfl,hopen⟩
    simp only [workerClose]
    split
    · rename_i hopen
      have hknown : ¬d.impl.index.Registers k.1 k.2 := fun hr =>
        (SupervisorImpl.registers_iff.mp hr).1 p hp
      have hcloses : d.Closes (d.paneClosed k p) within (· = k) := by
        refine ⟨SupervisorImpl.drops_paneClosed (fun hr => absurd hr hknown) fun v q hon => ?_,
          ?_,?_,rfl,?_⟩
        · exact hhomes k ((hone k).mpr ⟨rfl,hopen⟩) v q hon
        · rintro j rfl
          exact AList.lookup_erase _ _
        · intro j hj
          exact AList.lookup_erase_ne hj
        · intro q hq
          rcases List.mem_append.mp hq with hq | hq
          · have hat := PaneIndex.lookup_getOrAlloc_some (Option.mem_toList.mp hq)
            rw [PaneIndex.getOrAlloc_keeps hknown] at hat
            exact Or.inr ⟨_,hat⟩
          · exact Or.inl hq
      exact hcloses.congr fun j => ((hone j).trans (and_iff_left hopen)).symm
    · rename_i hshut
      refine (Closes.of_impl (.refl d.impl within)).congr fun j => ?_
      simp [hone,hshut]

theorem closes_unassign (h : ∀ v, d.impl.paneWindowMap.lookup p = some v → within v) :
    d.Closes (d.onImpl fun s => s.unassign p) within fun _ => False :=
  .of_impl (SupervisorImpl.drops_unassign h)

/-- The panes of a list are closed one after another. -/
theorem closes_closePanes (within : WindowId → Prop) (panes : List PaneId) (d : Fleet)
    (hpanes : ∀ p ∈ panes, ∀ v, d.impl.paneWindowMap.lookup p = some v → within v)
    (hhomes : ∀ p ∈ panes, ∀ k, d.impl.Closes p k → ∀ v q, d.impl.On v q k → within v) :
    d.Closes (d.closePanes panes) within (fun k => ∃ p ∈ panes, d.impl.Closes p k) ∧
      ∀ p ∈ panes, (d.closePanes panes).impl.paneWindowMap.lookup p = none := by
  induction panes generalizing d with
  | nil => exact ⟨(Closes.of_impl (.refl d.impl within)).congr (by simp),by simp⟩
  | cons p panes ih =>
    obtain ⟨hpane,hpanes⟩ := List.forall_mem_cons.mp hpanes
    obtain ⟨hhome,hhomes⟩ := List.forall_mem_cons.mp hhomes
    have hworker := closes_closeOnWorker hhome
    have hmapped : ∀ {q v}, (d.closeOnWorker p).impl.paneWindowMap.lookup q = some v →
        d.impl.paneWindowMap.lookup q = some v := by
      intro q v hv
      rcases hworker.impl.homes q with hsame | ⟨-,-,-,hnone⟩
      · rw [← hsame]
        exact hv
      · rw [hnone] at hv
        cases hv
    have hfirst := (hworker.trans (closes_unassign fun v hv => hpane v (hmapped hv))).congr
      fun _ => iff_of_eq (or_false _)
    set e := (d.closeOnWorker p).onImpl fun s => s.unassign p with he
    have hkept : ∀ {q v}, e.impl.paneWindowMap.lookup q = some v →
        d.impl.paneWindowMap.lookup q = some v := by
      intro q v hv
      exact hmapped (Table.lookup_erase_eq_some.mp hv).2
    -- what else is closed was open before, at a slot of its own
    have hlater : ∀ q k, e.impl.Closes q k ↔ d.impl.Closes q k ∧ ¬d.impl.Closes p k := by
      intro q k
      rw [SupervisorImpl.Closes,hfirst.impl.lookup,hfirst.impl.slots]
      constructor
      · rintro ⟨⟨hq,hnot⟩,hslot,-,-⟩
        exact ⟨⟨hq,hslot⟩,hnot⟩
      · rintro ⟨⟨hq,hslot⟩,hnot⟩
        exact ⟨⟨hq,hnot⟩,hslot,hnot,fun _ => ⟨q,k,hq,rfl,hnot⟩⟩
    obtain ⟨hrest,hnone⟩ := ih e (fun q hq v hv => hpanes q hq v (hkept hv))
      fun q hq k hk v r hon => hhomes q hq k ((hlater q k).mp hk).1 v r
        ⟨((hfirst.impl.lookup r k).mp hon.1).1,hkept hon.2⟩
    refine ⟨(hfirst.trans hrest).congr fun k => ?_,fun q hq => ?_⟩
    · simp only [hlater,List.exists_mem_cons_iff]
      constructor
      · rintro (hk | ⟨q,hq,hk,-⟩)
        · exact Or.inl hk
        · exact Or.inr ⟨q,hq,hk⟩
      · rintro (hk | ⟨q,hq,hk⟩)
        · exact Or.inl hk
        · exact (em _).imp_right fun hnot => ⟨q,hq,hk,hnot⟩
    · rcases List.mem_cons.mp hq with rfl | hq
      · rcases hrest.impl.homes q with hsame | ⟨-,-,-,hnone⟩
        · exact hsame.trans (AList.lookup_erase _ _)
        · exact hnone
      · exact hnone q hq

/-! A window that is closed. -/

/-- What is in the index has been announced. -/
structure Known (d : Fleet) : Prop where
  rows : d.impl.Filed
  told : ∀ p k, d.impl.index.lookup p = some k → p ∈ d.announced

/-- The window goes once its panes are closed. -/
structure ClosesWindow (d e : Fleet) (w : WindowId) (within : WindowId → Prop) : Prop where
  lookup : ∀ q k, e.impl.index.lookup q = some k ↔ d.impl.index.lookup q = some k ∧ ¬d.Shut w k
  slots : ∀ session slot, slot ∈ e.impl.slots session ↔
    slot ∈ d.impl.slots session ∧ ¬d.Shut w (session,slot) ∧ d.impl.Left (d.Shut w) session
  dead : ∀ k, k ∈ e.impl.index.deadSlots ↔
    (k ∈ d.impl.index.deadSlots ∨ d.Shut w k) ∧ d.impl.Left (d.Shut w) k.1
  shut : ∀ k, d.Shut w k → e.shards.lookup k = none
  kept : ∀ k, ¬d.Shut w k → e.shards.lookup k = d.shards.lookup k
  homes : ∀ q, e.impl.paneWindowMap.lookup q = d.impl.paneWindowMap.lookup q ∨
    ∃ v, within v ∧ d.impl.paneWindowMap.lookup q = some v ∧ e.impl.paneWindowMap.lookup q = none
  unassigned : ∀ q, d.impl.paneRows.lookup q = some w → e.impl.paneWindowMap.lookup q = none
  memory : e.impl.windowStore.lookup w = none
  store : e.impl.rowsAt w = []
  others : ∀ v, v ≠ w → ¬within v →
    e.impl.windowStore.lookup v = d.impl.windowStore.lookup v ∧ e.impl.rowsAt v = d.impl.rowsAt v
  lists : ∀ session v, v ∈ e.impl.windowsOf session ↔
    v ∈ d.impl.windowsOf session ∧ (d.impl.sessionOf w = some session → v ≠ w)
  announced : e.announced = d.announced
  closed : ∀ p ∈ e.closed, p ∈ d.closed ∨ ∃ k, d.impl.index.lookup p = some k

theorem closesWindow (within : WindowId → Prop) (h : d.Known) (hw : within w)
    (hhomes : ∀ v q k, d.impl.On v q k → d.Shut w k → within v) :
    d.ClosesWindow (d.closeWindow w) w within := by
  obtain ⟨hclosed,hnone⟩ := closes_closePanes within (d.impl.listPanesForWindow w) d
    (fun p hp v hv => by
      rw [SupervisorImpl.mem_listPanesForWindow,h.rows p v hv,Option.some.injEq] at hp
      exact hp ▸ hw)
    fun p hp k hk v q hon => hhomes v q k hon ⟨p,hp,hk⟩
  set c := d.closePanes (d.impl.listPanesForWindow w) with hc
  obtain ⟨hindex,hworkers,hmap,hrows⟩ := SupervisorImpl.samePanes_dropWindow c.impl w
  have hstore := SupervisorImpl.windowRows_dropWindow c.impl w
  have he : (d.closeWindow w).impl = (c.impl.dropWindow w).deleteWindow w := rfl
  refine ⟨fun q k => ?_,fun session slot => ?_,fun k => ?_,hclosed.shut,hclosed.kept,fun q => ?_,
    fun q hq => ?_,?_,?_,fun v hv hout => ⟨?_,?_⟩,fun session v => ?_,hclosed.announced,
    hclosed.closed⟩
  · rw [he,SupervisorImpl.deleteWindow,hindex]
    exact hclosed.impl.lookup q k
  · rw [he,SupervisorImpl.deleteWindow,SupervisorImpl.slots,hworkers]
    exact hclosed.impl.slots session slot
  · rw [he,SupervisorImpl.deleteWindow,hindex]
    exact hclosed.impl.dead k
  · rw [he,SupervisorImpl.deleteWindow,hmap]
    exact hclosed.impl.homes q
  · rw [he,SupervisorImpl.deleteWindow,hmap]
    exact hnone q (SupervisorImpl.mem_listPanesForWindow.mpr hq)
  · rw [he,SupervisorImpl.deleteWindow,SupervisorImpl.windowStore_dropWindow]
    exact AList.lookup_erase _ _
  · rw [he,SupervisorImpl.rowsAt,SupervisorImpl.deleteWindow,List.filter_filter,
      List.filter_eq_nil_iff]
    simp
  · rw [he,SupervisorImpl.deleteWindow,SupervisorImpl.lookup_dropWindow_ne hv]
    exact (hclosed.impl.windows v hout).1
  · rw [he,SupervisorImpl.rowsAt_deleteWindow hv,SupervisorImpl.rowsAt,hstore]
    exact (hclosed.impl.windows v hout).2
  · have hlists : c.impl.windowsOf session = d.impl.windowsOf session := by
      rw [SupervisorImpl.windowsOf,hclosed.impl.sessionWindows,SupervisorImpl.windowsOf]
    rw [← hlists,← hclosed.impl.sessionOf w]
    exact SupervisorImpl.mem_windowsOf_dropWindow

theorem open_of_shut (h : d.Shut w k) : k.2 ∈ d.impl.slots k.1 := by
  obtain ⟨p,-,hp⟩ := h
  exact hp.2

/-! Block events of its slots that come late. -/

theorem blockEvents_quiet {late : List (SlotKey × PaneId)}
    (h : ∀ e ∈ late, ¬d.impl.index.Registers e.1.1 e.1.2) : d.blockEvents late = d := by
  induction late with
  | nil => rfl
  | cons e late ih =>
    obtain ⟨hfirst,hlater⟩ := List.forall_mem_cons.mp h
    have hquiet : (d.onImpl fun s => (s.getOrAllocPaneBySlot e.1.1 e.1.2 e.2).1) = d := by
      simp only [onImpl,SupervisorImpl.getOrAllocPaneBySlot,PaneIndex.getOrAlloc_keeps hfirst]
    rw [blockEvents,List.foldl_cons,hquiet]
    exact ih hlater

theorem lookup_blockEvents (late : List (SlotKey × PaneId)) (d : Fleet)
    (hp : d.impl.index.lookup p = some k) (hnew : p ∉ late.map Prod.snd) :
    (d.blockEvents late).impl.index.lookup p = some k := by
  induction late generalizing d with
  | nil => exact hp
  | cons e late ih =>
    obtain ⟨hne,hnew⟩ := not_or.mp (mt List.mem_cons.mpr hnew)
    exact ih _ (PaneIndex.lookup_getOrAlloc hne hp) hnew

/-- If the index has a slot neither in use nor dead, an event leaves its id there. -/
theorem blockEvents_registers {late : List (SlotKey × PaneId)}
    (hdistinct : (late.map Prod.snd).Nodup)
    (h : ∃ e ∈ late, d.impl.index.Registers e.1.1 e.1.2) :
    ∃ e ∈ late, (d.blockEvents late).impl.index.lookup e.2 ≠ none := by
  induction late with
  | nil => simp at h
  | cons e late ih =>
    obtain ⟨hnew,hdistinct⟩ := List.nodup_cons.mp hdistinct
    by_cases hr : d.impl.index.Registers e.1.1 e.1.2
    · have hat : (d.impl.index.getOrAllocPaneBySlot e.1.1 e.1.2 e.2).1.lookup e.2 = some e.1 := by
        rw [PaneIndex.getOrAlloc_registers hr]
        exact PaneIndex.lookup_register.mpr (Or.inl ⟨rfl,rfl⟩)
      refine ⟨e,List.mem_cons_self,Option.isSome_iff_ne_none.mp ?_⟩
      exact Option.isSome_of_eq_some (lookup_blockEvents late _ hat hnew)
    · have hquiet : d.blockEvents (e :: late) = d.blockEvents late := by
        have hone : d.blockEvents [e] = d := blockEvents_quiet (List.forall_mem_singleton.mpr hr)
        exact congrArg (fun d => blockEvents d late) hone
      obtain ⟨e',he',hr'⟩ := h
      have hlater : e' ∈ late := by
        refine List.mem_of_ne_of_mem ?_ he'
        rintro rfl
        exact hr hr'
      obtain ⟨x,hx,hat⟩ := ih hdistinct ⟨e',hlater,hr'⟩
      exact ⟨x,List.mem_cons_of_mem _ hx,hquiet ▸ hat⟩

/-- What is dead is forgotten with the last pane of the session. -/
theorem registers_closeWindow (h : d.Known) (hk : d.Shut w k) :
    (d.closeWindow w).impl.index.Registers k.1 k.2 ↔ ¬d.impl.Left (d.Shut w) k.1 := by
  have hc : d.ClosesWindow (d.closeWindow w) w fun _ => True :=
    closesWindow _ h trivial fun _ _ _ _ _ => trivial
  rw [SupervisorImpl.registers_iff,hc.dead,and_iff_right (Or.inr hk)]
  refine and_iff_right fun p hp => ?_
  exact ((hc.lookup p k).mp hp).2 hk

variable {late : List (SlotKey × PaneId)}

/-- What must have been so of a window that has gone whole and alone. -/
theorem endsAlone_of_takes (h : d.Known) (hshut : ∀ e ∈ late, d.Shut w e.1)
    (hdistinct : (late.map Prod.snd).Nodup) (hfresh : ∀ e ∈ late, d.Fresh e.2)
    (ht : d.holdings.Takes ((d.closeWindow w).blockEvents late).tell.holdings (d.windowPart w)) :
    d.EndsAlone w late := by
  -- an id that is drawn late stays in the index
  have hlate : ∀ e ∈ late, ¬(d.closeWindow w).impl.index.Registers e.1.1 e.1.2 := by
    by_contra hsome
    push Not at hsome
    obtain ⟨e,he,hat⟩ := blockEvents_registers hdistinct hsome
    obtain ⟨hindex,hhome,-⟩ := (hfresh e he).1
    have hnot : ¬(d.windowPart w).pane e.2 := by
      rintro (hv | ⟨-,k,hk,-⟩)
      · exact Option.some_ne_none _ (hv.symm.trans hhome)
      · exact Option.some_ne_none _ (hk.symm.trans hindex)
    exact hat ((ht.panes e.2 hnot).1.trans hindex)
  rw [blockEvents_quiet hlate] at ht
  have hc : d.ClosesWindow (d.closeWindow w) w fun _ => True :=
    closesWindow _ h trivial fun _ _ _ _ _ => trivial
  have hstopped : ∀ k, d.Belongs k w →
      (d.closeWindow w).shards.lookup k = none ∧ k.2 ∉ (d.closeWindow w).impl.slots k.1 := by
    intro k hk
    obtain ⟨hrun,hlisted⟩ := ht.stopped k hk
    exact ⟨not_ne_iff.mp hrun,hlisted⟩
  have hown : ∀ k, d.Shut w k → d.Belongs k w := by
    intro k hk
    by_contra hnot
    have hlisted := (ht.places k hnot).2.mpr (open_of_shut hk)
    exact ((hc.slots k.1 k.2).mp hlisted).2.1 hk
  refine ⟨fun k => ⟨fun hk => ?_,hown k⟩,fun v p k hon hk => ?_,fun k hk hall slot hslot => ?_,
    fun session hw => ?_,fun e he => ?_⟩
  · by_contra hopen
    rcases hk with ⟨p,hon⟩ | ⟨hno,hshard⟩
    · have hgone := (ht.forgotten p (Or.inl hon.2)).1
      have hstays := (hc.lookup p k).mpr ⟨hon.1,hopen⟩
      exact absurd (hgone.symm.trans hstays) (by simp)
    · have hstays := (hc.kept k hopen).trans hshard
      rw [(hstopped k (Or.inr ⟨hno,hshard⟩)).1] at hstays
      cases hstays
  · by_contra hne
    have hnot : ¬(d.windowPart w).pane p := by
      rintro (hv | ⟨hnone,-⟩)
      · exact hne (Option.some.inj (hon.2.symm.trans hv))
      · rw [hon.2] at hnone
        cases hnone
    have hstays := (ht.panes p hnot).1.trans hon.1
    exact ((hc.lookup p k).mp hstays).2 hk
  · by_contra hopen
    have hnot : ¬d.Belongs (k.1,slot) w := by
      intro hbelongs
      rcases hbelongs with ⟨p,hon⟩ | ⟨hno,hshard⟩
      · exact hopen (hall p _ hon.1 rfl)
      · have hstays := (hc.kept (k.1,slot) hopen).trans hshard
        rw [(hstopped _ (Or.inr ⟨hno,hshard⟩)).1] at hstays
        cases hstays
    have hlisted := (ht.places _ hnot).2.mpr hslot
    obtain ⟨q,j,hq,hj,hleft⟩ := ((hc.slots k.1 slot).mp hlisted).2.2 ⟨k.2,hk⟩
    exact hleft (hall q j hq hj)
  · by_contra hne
    have hlists := (hc.lists session w).mpr ⟨hw,fun hs => absurd hs hne⟩
    exact (ht.removed w rfl).2.2 session hlists
  · have hleft := not_not.mp (mt (registers_closeWindow h (hshut e he)).mpr (hlate e he))
    exact hleft ⟨e.1.2,hshut e he⟩

theorem takes_of_endsAlone (h : d.Known) (hshut : ∀ e ∈ late, d.Shut w e.1)
    (ha : d.EndsAlone w late) :
    d.holdings.Takes ((d.closeWindow w).blockEvents late).tell.holdings (d.windowPart w) := by
  have hlate : ∀ e ∈ late, ¬(d.closeWindow w).impl.index.Registers e.1.1 e.1.2 := by
    intro e he hr
    exact (registers_closeWindow h (hshut e he)).mp hr fun _ => ha.late e he
  rw [blockEvents_quiet hlate]
  have hc := closesWindow (· = w) h rfl ha.homes
  -- a slot is closed just if a pane of the window is there
  have hpane : ∀ p k, d.impl.index.lookup p = some k →
      (d.Shut w k ↔ (d.windowPart w).pane p) := by
    intro p k hp
    constructor
    · intro hk
      cases hv : d.impl.paneWindowMap.lookup p with
      | none => exact Or.inr ⟨hv,k,hp,(ha.own k).mpr hk⟩
      | some v => exact Or.inl (hv.trans (congrArg some (ha.homes v p k ⟨hp,hv⟩ hk)))
    · rintro (hv | ⟨-,j,hj,hbelongs⟩)
      · exact (ha.own k).mp (Or.inl ⟨p,hp,hv⟩)
      · obtain rfl := Option.some.inj (hp.symm.trans hj)
        exact (ha.own _).mp hbelongs
  refine ⟨fun k hk => ?_,fun p hp => ⟨?_,?_⟩,?_,fun p hp => ?_,fun k hk => ⟨?_,?_⟩,
    fun p hp => ⟨?_,fun hsome => ?_⟩,fun v hv => ?_⟩
  · have hshut := (ha.own k).mp hk
    refine ⟨not_ne_iff.mpr (hc.shut k hshut),fun hlisted => ?_⟩
    exact ((hc.slots k.1 k.2).mp hlisted).2.1 hshut
  · refine Option.eq_none_iff_forall_ne_some.mpr fun k hk => ?_
    obtain ⟨hat,hopen⟩ := (hc.lookup p k).mp hk
    exact hopen ((hpane p k hat).mpr hp)
  · rcases hp with hv | ⟨hnone,-⟩
    · exact hc.unassigned p (h.rows p w hv)
    · rcases hc.homes p with hsame | ⟨-,-,-,hgone⟩
      · exact hsame.trans hnone
      · exact hgone
  · rintro v rfl
    refine ⟨hc.memory,hc.store,fun session hlists => ?_⟩
    obtain ⟨hold,hother⟩ := (hc.lists session v).mp hlists
    exact hother (ha.known session hold) rfl
  · refine (hc.closed p hp).imp_right fun ⟨k,hk⟩ => List.mem_append_right _ ?_
    rw [hc.announced]
    exact h.told p k hk
  · have hopen : ¬d.Shut w k := fun hshut => hk ((ha.own k).mpr hshut)
    exact iff_of_eq (congrArg (· ≠ none) (hc.kept k hopen))
  · have hopen : ¬d.Shut w k := fun hshut => hk ((ha.own k).mpr hshut)
    refine (hc.slots k.1 k.2).trans (and_iff_left_of_imp fun hslot => ⟨hopen,?_⟩)
    rintro ⟨x,hx⟩
    by_contra hnone
    refine hopen (ha.sessions (k.1,x) hx (fun p j hj hs => ?_) k.2 hslot)
    by_contra hleft
    exact hnone ⟨p,j,hj,hs,hleft⟩
  · refine Option.ext fun k => (hc.lookup p k).trans (and_iff_left_of_imp fun hat => ?_)
    exact fun hshut => hp ((hpane p k hat).mp hshut)
  · rcases hc.homes p with hsame | ⟨v,rfl,hold,-⟩
    · exact hsame
    · exact absurd (Or.inl hold) hp
  · obtain ⟨hmemory,hstore⟩ := hc.others v hv hv
    exact ⟨hmemory,hstore,fun _ session =>
      (hc.lists session v).trans (and_iff_left fun _ => hv)⟩

/-- A window that is closed goes whole and alone just if its slots are all and only those that
are closed, no session goes along, it is listed where it is known, and no event brings one of its
slots back. -/
theorem takes_closeWindow_iff (h : d.Known) (hshut : ∀ e ∈ late, d.Shut w e.1)
    (hdistinct : (late.map Prod.snd).Nodup) (hfresh : ∀ e ∈ late, d.Fresh e.2) :
    d.holdings.Takes ((d.closeWindow w).blockEvents late).tell.holdings (d.windowPart w) ↔
      d.EndsAlone w late :=
  ⟨endsAlone_of_takes h hshut hdistinct hfresh,takes_of_endsAlone h hshut⟩

end Fleet

end Pyre.Supervisor
