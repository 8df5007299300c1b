import Pyre.Supervisor.Ending
import Pyre.Supervisor.Placing

/-!
What the supervisor learns from workers and what it changes when it is read: reports
of slots, a worker that registers, a layout that is pruned, and the panes that are put
into the default window when a client lists them.
-/

set_option autoImplicit false

namespace Pyre.Supervisor
open Base

namespace SupervisorImpl

variable {s t : SupervisorImpl} {session : SessionKey} {v w : WindowId} {p q : PaneId}
  {k : SlotKey} {tree : LayoutNode}

/-! What workers report, and what is read. -/

theorem on_register (hp : s.UnusedPane p) {slot : UInt32} :
    On { s with index := s.index.register p session slot } v q k ↔ s.On v q k := by
  refine and_congr_left fun hv => ?_
  have hne : q ≠ p := by
    rintro rfl
    exact absurd (hp.2.1.symm.trans hv) (by simp)
  rw [PaneIndex.lookup_register]
  simp [hne]

theorem inv_callback (h : s.Inv) (hp : s.UnusedPane p) (session : SessionKey) (slot : UInt32) :
    (s.getOrAllocPaneBySlot session slot p).1.Inv := by
  by_cases hr : s.index.Registers session slot
  · simp only [getOrAllocPaneBySlot,PaneIndex.getOrAlloc_registers hr]
    exact ⟨h.rows,fun v q k hq => h.home v q k ((on_register hp).mp hq),h.listed,
      fun v q k hq => h.staffed v q k ((on_register hp).mp hq),h.stored,h.keyed⟩
  · simp only [getOrAllocPaneBySlot,PaneIndex.getOrAlloc_keeps hr]
    exact h

/-- A report of a slot: only a slot of no pane gets one, which no window has. -/
theorem good_callback (h : s.Good) (hp : s.UnusedPane p) (session : SessionKey)
    (slot : UInt32) : (s.getOrAllocPaneBySlot session slot p).1.Good := by
  refine ⟨inv_callback h.toInv hp session slot,?_⟩
  by_cases hr : s.index.Registers session slot
  swap
  · have hkept : (s.getOrAllocPaneBySlot session slot p).1 = s := by
      simp only [getOrAllocPaneBySlot,PaneIndex.getOrAlloc_keeps hr]
    rw [hkept]
    exact h.shown
  set t : SupervisorImpl := { s with index := s.index.register p session slot } with ht
  have hreg : (s.getOrAllocPaneBySlot session slot p).1 = t := by
    simp only [getOrAllocPaneBySlot,PaneIndex.getOrAlloc_registers hr,ht]
  rw [hreg]
  have hon : ∀ {v q k}, t.On v q k ↔ s.On v q k := on_register hp
  intro v q k hq
  have hs := h.shown v q k (hon.mp hq)
  cases htree : s.treeOf v with
  | some tree =>
    obtain ⟨r,hrleaf,k',hk'⟩ := (shown_of_tree htree).mp hs
    exact (shown_of_tree (s := t) htree).mpr ⟨r,hrleaf,k',hon.mpr hk'⟩
  | none =>
    rw [shown_of_none htree] at hs
    refine (shown_of_none (s := t) htree).mpr (hs.mono (fun _ hslot => hslot) ?_ ?_)
    · intro slot' _ hr'
      rw [registers_iff] at hr' ⊢
      refine ⟨fun r hr'' => hr'.1 r (PaneIndex.lookup_register.mpr (Or.inr ⟨?_,hr''⟩)),hr'.2⟩
      rintro rfl
      exact absurd (hp.1.symm.trans hr'') (by simp)
    · intro slot' _ r hr'
      rcases PaneIndex.lookup_register.mp hr' with ⟨-,heq⟩ | ⟨-,hold⟩
      · obtain ⟨rfl,rfl⟩ := Prod.mk.inj heq
        exact Or.inl hr
      · exact Or.inr ⟨hold,id⟩

theorem inv_registerWorker (h : s.Inv) (session : SessionKey) (slots : List UInt32) :
    (s.registerWorker session slots).Inv :=
  ⟨h.rows,h.home,h.listed,fun v q k hq =>
    worker_registerWorker s session slots (h.staffed v q k hq),h.stored,h.keyed⟩

/-- Without a worker the session has no pane in a window. -/
theorem good_registerWorker (h : s.Good) (hnone : s.workers.lookup session = none)
    (slots : List UInt32) : (s.registerWorker session slots).Good := by
  refine ⟨inv_registerWorker h.toInv session slots,fun v q k hq => ?_⟩
  have hne : k.1 ≠ session := by
    intro heq
    exact h.staffed v q k hq (heq ▸ hnone)
  have hs := h.shown v q k hq
  cases htree : s.treeOf v with
  | some tree =>
    obtain ⟨r,hr,k',hk'⟩ := (shown_of_tree htree).mp hs
    exact (shown_of_tree (s := s.registerWorker session slots) htree).mpr ⟨r,hr,k',hk'⟩
  | none =>
    rw [shown_of_none htree] at hs
    refine (shown_of_none (s := s.registerWorker session slots) htree).mpr
      (hs.mono (fun slot hslot => ?_) (fun _ _ hr => hr) fun _ _ r hr => Or.inr ⟨hr,id⟩)
    rwa [slots_registerWorker,if_neg hne] at hslot

theorem not_on_restart : ¬s.restart.On v q k := by
  rintro ⟨hq,-⟩
  cases hq

theorem inv_restart (h : s.Inv) : s.restart.Inv := by
  refine ⟨?_,fun v q k hq => absurd hq not_on_restart,?_,
    fun v q k hq => absurd hq not_on_restart,?_,h.keyed⟩
  · intro q v hq
    cases hq
  · intro session v hv
    cases hv
  · intro r hr session hs
    cases hs

theorem good_restart (h : s.Good) : s.restart.Good :=
  ⟨inv_restart h.toInv,fun _ _ _ hq => absurd hq not_on_restart⟩

theorem Good.ends_none (h : s.Good) : s.Ends fun _ _ => False := by
  intro v p k tree hon _ htree
  obtain ⟨q,hq,k',hk'⟩ := (shown_of_tree htree).mp (h.shown v p k hon)
  exact ⟨q,hq,k',hk',id⟩

/-- A tree that is read is put into memory, without the panes that are gone. -/
theorem removes_getWindowLayout (h : s.Inv) (ht : s.treeOf w = some tree) (first : UInt32)
    (fresh : PaneId) : s.Removes (s.getWindowLayout w first fresh).1 fun _ _ => False := by
  obtain ⟨info,hw,-⟩ := Option.bind_eq_some_iff.mp ht
  have hsession : s.sessionOf w = some info.session := by rw [sessionOf,hw]; rfl
  have hset := removes_setLayout ht fun _ hq _ => hq
  obtain ⟨tree',-,⟨-,-,hres⟩ | ⟨rfl,-,hres⟩⟩ := getWindowLayout_of_tree hw ht first fresh
  · rw [hres]
    exact hset
  · rw [hres]
    have ht' : (s.setLayout w tree).treeOf w = some tree :=
      treeOf_setLayout_self (by simp [hsession]) tree
    refine (hset.trans (removes_storeLayout ht' fun q hq hon => ?_)).congr fun _ _ _ _ => by simp
    obtain ⟨k,hon⟩ := hon
    have hlive : s.isLive info.session w q = true :=
      (h.isLive_iff hsession).mpr ⟨k,((hset.on w q k).mp hon).1⟩
    rw [leaves_pruneGhosts ⟨q,hq,hlive⟩]
    exact List.mem_filter.mpr ⟨hq,hlive⟩

theorem good_getWindowLayout (h : s.Good) (hp : s.UnusedPane p) (w : WindowId) (first : UInt32) :
    (s.getWindowLayout w first p).1.Good := by
  cases hw : s.windowStore.lookup w with
  | none =>
    have hsame : (s.getWindowLayout w first p).1 = s := by simp [getWindowLayout,hw]
    rwa [hsame]
  | some info =>
    cases ht : s.treeOf w with
    | none =>
      simp only [getWindowLayout,hw,ht]
      split
      · exact good_callback h hp info.session first
      · exact h
    | some tree => exact h.removes (removes_getWindowLayout h.toInv ht first p) h.ends_none

/-! The panes that are listed. -/

/-- Panes have been put into the window, the one that their session falls back on. -/
structure Lists (s t : SupervisorImpl) (session : SessionKey) (w : WindowId) : Prop where
  workers : t.workers = s.workers
  windowStore : t.windowStore = s.windowStore
  windowRows : t.windowRows = s.windowRows
  sessionWindows : t.sessionWindows = s.sessionWindows
  dead : t.index.deadSlots = s.index.deadSlots
  kept : ∀ q k, s.index.lookup q = some k → t.index.lookup q = some k
  found : ∀ q k, t.index.lookup q = some k → s.index.lookup q = some k ∨
    s.index.Registers k.1 k.2 ∧ k.1 = session ∧ s.paneWindowMap.lookup q = none
  mapped : ∀ q v, s.paneWindowMap.lookup q = some v → t.paneWindowMap.lookup q = some v
  placed : ∀ q v, t.paneWindowMap.lookup q = some v → s.paneWindowMap.lookup q = some v ∨
    v = w ∧ ∃ slot, t.index.lookup q = some (session,slot)
  rows : ∀ q v, t.paneWindowMap.lookup q = some v → t.paneRows.lookup q = some v

namespace Lists

theorem refl (h : s.Inv) : s.Lists s session w where
  workers := rfl
  windowStore := rfl
  windowRows := rfl
  sessionWindows := rfl
  dead := rfl
  kept _ _ hq := hq
  found _ _ hq := Or.inl hq
  mapped _ _ hq := hq
  placed _ _ hq := Or.inl hq
  rows := h.rows

theorem sessionOf (h : s.Lists t session w) (v : WindowId) : t.sessionOf v = s.sessionOf v := by
  rw [SupervisorImpl.sessionOf,SupervisorImpl.sessionOf,h.windowStore]

theorem treeOf (h : s.Lists t session w) (v : WindowId) : t.treeOf v = s.treeOf v :=
  treeOf_congr (by rw [h.windowStore])
    (by rw [windowLayoutJson,windowLayoutJson,h.windowRows])

theorem on_kept (h : s.Lists t session w) (hon : s.On v q k) : t.On v q k :=
  ⟨h.kept q k hon.1,h.mapped q v hon.2⟩

theorem on (h : s.Lists t session w) (hon : t.On v q k) :
    s.On v q k ∨ v = w ∧ k.1 = session := by
  rcases h.placed q v hon.2 with hv | ⟨rfl,slot,hslot⟩
  · rcases h.found q k hon.1 with hk | ⟨-,-,hnone⟩
    · exact Or.inl ⟨hk,hv⟩
    · rw [hnone] at hv
      cases hv
  · have heq : k = (session,slot) := Option.some.inj (hon.1.symm.trans hslot)
    exact Or.inr ⟨rfl,by rw [heq]⟩

/-- A window that had a live pane is shown as before. -/
theorem shown (h : s.Lists t session w) {session' : SessionKey} (hs : s.Shown session' v) :
    t.Shown session' v := by
  cases htree : s.treeOf v with
  | some tree =>
    obtain ⟨q,hq,k,hk⟩ := (shown_of_tree htree).mp hs
    exact (shown_of_tree ((h.treeOf v).trans htree)).mpr ⟨q,hq,k,h.on_kept hk⟩
  | none =>
    rw [shown_of_none htree] at hs
    refine (shown_of_none ((h.treeOf v).trans htree)).mpr (hs.mono ?_ ?_ ?_)
    · intro slot hslot
      rwa [slots,h.workers] at hslot
    · intro slot _ hr
      rw [registers_iff] at hr ⊢
      exact ⟨fun q hq => hr.1 q (h.kept q _ hq),h.dead ▸ hr.2⟩
    · intro slot _ q hq
      rcases h.found q _ hq with hold | ⟨hr,-,-⟩
      · exact Or.inr ⟨hold,h.mapped q v⟩
      · exact Or.inl hr

theorem inv (h : s.Lists t session w) (hs : s.Inv) (hw : s.sessionOf w = some session)
    (hworker : s.workers.lookup session ≠ none) : t.Inv := by
  refine ⟨h.rows,?_,?_,?_,?_,?_⟩
  · intro v q k hon
    rw [h.sessionOf]
    rcases h.on hon with hold | ⟨rfl,hk⟩
    · exact hs.home v q k hold
    · rw [hk,hw]
  · intro session' v hv
    rw [h.sessionOf]
    rw [windowsOf,h.sessionWindows] at hv
    exact hs.listed session' v hv
  · intro v q k hon
    rw [h.workers]
    rcases h.on hon with hold | ⟨-,hk⟩
    · exact hs.staffed v q k hold
    · rwa [hk]
  · rw [h.windowRows]
    intro r hr session' hsession
    rw [h.sessionOf] at hsession
    exact hs.stored r hr session' hsession
  · rw [h.windowRows]
    exact hs.keyed

theorem good (h : s.Lists t session w) (hs : s.Good) (hw : s.sessionOf w = some session)
    (hworker : s.workers.lookup session ≠ none) (hshown : t.Shown session w) : t.Good := by
  refine ⟨h.inv hs.toInv hw hworker,fun v q k hon => ?_⟩
  rcases h.on hon with hold | ⟨rfl,hk⟩
  · exact h.shown (hs.shown v q k hold)
  · rwa [hk]

end Lists

section listing

variable {slot : UInt32} {fresh : WindowId}

/-- A round that puts the pane into the window, registering it if it has to. -/
structure Places (s t : SupervisorImpl) (session : SessionKey) (slot : UInt32) (w : WindowId)
    (r : PaneId) : Prop where
  unmapped : s.paneWindowMap.lookup r = none
  known : s.index.lookup r = some (session,slot) ∨ s.index.Registers session slot
  lookup : ∀ q k, t.index.lookup q = some k ↔
    q = r ∧ k = (session,slot) ∨ s.index.lookup q = some k
  dead : t.index.deadSlots = s.index.deadSlots
  paneWindowMap : t.paneWindowMap = s.paneWindowMap.insert r w
  paneRows : t.paneRows = s.paneRows.insert r w
  workers : t.workers = s.workers
  windowStore : t.windowStore = s.windowStore
  windowRows : t.windowRows = s.windowRows
  sessionWindows : t.sessionWindows = s.sessionWindows

/-- One round, in a session whose default window is known. -/
theorem listPane_cases (hhead : (s.windowsOf session).head? = some w) (hp : s.UnusedPane p) :
    (∃ r, (r = p ∨ s.index.lookup r ≠ none) ∧
      s.Places (s.listPane session slot p fresh) session slot w r) ∨
    s.listPane session slot p fresh = s ∧ ¬s.index.Registers session slot ∧
      ((∀ q, s.index.lookup q ≠ some (session,slot)) ∨
        ∃ q v, s.index.lookup q = some (session,slot) ∧ s.paneWindowMap.lookup q = some v) := by
  have hdefault : ∀ u : SupervisorImpl, u.sessionWindows = s.sessionWindows →
      u.getOrCreateDefaultWindow session fresh = (u,w) := by
    intro u hu
    have hhead' : (u.windowsOf session).head? = some w := by rwa [windowsOf,hu]
    exact default_of_head hhead' fresh
  by_cases hr : s.index.Registers session slot
  · refine Or.inl ⟨p,Or.inl rfl,?_⟩
    have hplaced : s.listPane session slot p fresh =
        SupervisorImpl.assign { s with index := s.index.register p session slot } p w := by
      simp only [listPane,getOrAllocPaneBySlot,PaneIndex.getOrAlloc_registers hr,hp.2.1]
      rw [hdefault { s with index := s.index.register p session slot } rfl]
    rw [hplaced]
    refine ⟨hp.2.1,Or.inr hr,fun q k => ?_,rfl,rfl,rfl,rfl,rfl,rfl,rfl⟩
    have hlookup : (s.index.register p session slot).lookup q = some k ↔ _ :=
      PaneIndex.lookup_register
    refine hlookup.trans (or_congr_right (and_iff_right_of_imp ?_))
    rintro hq rfl
    exact absurd (hp.1.symm.trans hq) (by simp)
  · have hkeep := PaneIndex.getOrAlloc_keeps hr p
    have hstate : s.getOrAllocPaneBySlot session slot p =
        (s,(s.index.getOrAllocPaneBySlot session slot p).2) := by
      simp only [getOrAllocPaneBySlot,hkeep]
    simp only [listPane,hstate]
    cases hfound : (s.index.getOrAllocPaneBySlot session slot p).2 with
    | none =>
      refine Or.inr ⟨rfl,hr,Or.inl fun q hq => ?_⟩
      unfold PaneIndex.getOrAllocPaneBySlot at hfound
      split at hfound
      · cases hfound
      · rename_i hnone
        exact PaneIndex.paneIdBySlot_eq_none.mp hnone q hq
    | some q =>
      have hat := PaneIndex.lookup_getOrAlloc_some hfound
      rw [hkeep] at hat
      cases hv : s.paneWindowMap.lookup q with
      | some v => exact Or.inr ⟨by simp only [hv],hr,Or.inr ⟨q,v,hat,hv⟩⟩
      | none =>
        refine Or.inl ⟨q,Or.inr (by simp [hat]),?_⟩
        simp only [hv]
        rw [hdefault s rfl]
        refine ⟨hv,Or.inl hat,fun q' k => ?_,rfl,rfl,rfl,rfl,rfl,rfl,rfl⟩
        refine (or_iff_right_of_imp ?_).symm
        rintro ⟨rfl,rfl⟩
        exact hat

/-- The slot's pane is one of the window's. -/
def Done (s : SupervisorImpl) (session : SessionKey) (w : WindowId) (slot : UInt32) : Prop :=
  ¬s.index.Registers session slot ∧
    ∀ q, s.index.lookup q = some (session,slot) → s.paneWindowMap.lookup q = some w

/-- The slot has at most one pane, which is in no window. -/
def Todo (s : SupervisorImpl) (session : SessionKey) (slot : UInt32) : Prop :=
  ∀ q, s.index.lookup q = some (session,slot) → s.paneWindowMap.lookup q = none ∧
    ∀ q', s.index.lookup q' = some (session,slot) → q' = q

namespace Places

variable {r : PaneId}

theorem mapped (h : s.Places t session slot w r) : t.paneWindowMap.lookup q = some v ↔
    q = r ∧ v = w ∨ q ≠ r ∧ s.paneWindowMap.lookup q = some v := by
  rw [h.paneWindowMap]
  exact Table.lookup_insert_eq_some

theorem unused (h : s.Places t session slot w r) (hr : r = p ∨ s.index.lookup r ≠ none)
    (hq : s.UnusedPane q) (hne : q ≠ p) : t.UnusedPane q := by
  have hqr : q ≠ r := by
    rintro rfl
    exact hr.elim hne fun hsome => hsome hq.1
  refine ⟨?_,?_,?_⟩
  · rw [Option.eq_none_iff_forall_ne_some]
    intro k hk
    rcases (h.lookup q k).mp hk with ⟨heq,-⟩ | hold
    · exact hqr heq
    · rw [hq.1] at hold
      cases hold
  · rw [h.paneWindowMap,AList.lookup_insert_ne hqr]
    exact hq.2.1
  · rw [h.paneRows,AList.lookup_insert_ne hqr]
    exact hq.2.2

theorem registers (h : s.Places t session slot w r) {session' : SessionKey} {slot' : UInt32}
    (hr : t.index.Registers session' slot') :
    s.index.Registers session' slot' ∧ (session',slot') ≠ (session,slot) := by
  rw [registers_iff] at hr
  refine ⟨registers_iff.mpr ⟨fun q hq => hr.1 q ((h.lookup q _).mpr (Or.inr hq)),
    h.dead ▸ hr.2⟩,fun heq => ?_⟩
  exact hr.1 r ((h.lookup r _).mpr (Or.inl ⟨rfl,heq⟩))

theorem lists {u : SupervisorImpl} (h : s.Places t session slot w r)
    (hu : u.Lists s session w) : u.Lists t session w where
  workers := h.workers.trans hu.workers
  windowStore := h.windowStore.trans hu.windowStore
  windowRows := h.windowRows.trans hu.windowRows
  sessionWindows := h.sessionWindows.trans hu.sessionWindows
  dead := h.dead.trans hu.dead
  kept q k hq := (h.lookup q k).mpr (Or.inr (hu.kept q k hq))
  found q k hq := by
    rcases (h.lookup q k).mp hq with ⟨rfl,rfl⟩ | hold
    · rcases h.known with hold | hr
      · exact hu.found q _ hold
      · rw [registers_iff] at hr
        refine Or.inr ⟨registers_iff.mpr ⟨fun q' hq' => hr.1 q' (hu.kept q' _ hq'),
          hu.dead ▸ hr.2⟩,rfl,?_⟩
        rw [Option.eq_none_iff_forall_ne_some]
        intro v hv
        exact absurd (h.unmapped.symm.trans (hu.mapped q v hv)) (by simp)
    · exact hu.found q k hold
  mapped q v hq := by
    have hold := hu.mapped q v hq
    refine h.mapped.mpr (Or.inr ⟨?_,hold⟩)
    rintro rfl
    exact absurd (h.unmapped.symm.trans hold) (by simp)
  placed q v hq := by
    rcases h.mapped.mp hq with ⟨rfl,rfl⟩ | ⟨-,hold⟩
    · exact Or.inr ⟨rfl,slot,(h.lookup q _).mpr (Or.inl ⟨rfl,rfl⟩)⟩
    · refine (hu.placed q v hold).imp_right ?_
      rintro ⟨rfl,slot',hslot'⟩
      exact ⟨rfl,slot',(h.lookup q _).mpr (Or.inr hslot')⟩
  rows q v hq := by
    rw [h.paneRows]
    rcases h.mapped.mp hq with ⟨rfl,rfl⟩ | ⟨hne,hold⟩
    · exact AList.lookup_insert _
    · rw [AList.lookup_insert_ne hne]
      exact hu.rows q v hold

/-- What is done for a slot stays done, and is done for the slot of the round. -/
theorem done (h : s.Places t session slot w r) {slot' : UInt32}
    (hslot : s.Done session w slot' ∨ slot' = slot ∧ s.Todo session slot) :
    t.Done session w slot' := by
  constructor
  · intro hr
    obtain ⟨hold,hne⟩ := h.registers hr
    rcases hslot with hdone | ⟨rfl,-⟩
    · exact hdone.1 hold
    · exact hne rfl
  · intro q hq
    rw [h.mapped]
    by_cases hqr : q = r
    · exact Or.inl ⟨hqr,rfl⟩
    · have hold := ((h.lookup q _).mp hq).resolve_left fun heq => hqr heq.1
      refine Or.inr ⟨hqr,?_⟩
      rcases hslot with hdone | ⟨rfl,htodo⟩
      · exact hdone.2 q hold
      · rcases h.known with hr | hr
        · exact absurd ((htodo r hr).2 q hold) hqr
        · exact absurd hold ((registers_iff.mp hr).1 q)

theorem todo (h : s.Places t session slot w r) {slot' : UInt32} (hne : slot' ≠ slot)
    (htodo : s.Todo session slot') : t.Todo session slot' := by
  have hold : ∀ q, t.index.lookup q = some (session,slot') →
      s.index.lookup q = some (session,slot') := fun q hq =>
    ((h.lookup q _).mp hq).resolve_left fun heq => hne (Prod.mk.inj heq.2).2
  intro q hq
  obtain ⟨hnone,hone⟩ := htodo q (hold q hq)
  refine ⟨?_,fun q' hq' => hone q' (hold q' hq')⟩
  have hqr : q ≠ r := by
    rintro rfl
    have hself := (h.lookup q _).mpr (Or.inl ⟨rfl,rfl⟩)
    exact hne (Prod.mk.inj (Option.some.inj (hq.symm.trans hself))).2
  rw [h.paneWindowMap,AList.lookup_insert_ne hqr]
  exact hnone

end Places

/-- The whole loop, in a session whose default window is known. -/
theorem lists_listPanes {u : SupervisorImpl} (listed : List (UInt32 × PaneId))
    (hu : u.Lists s session w) (hhead : (s.windowsOf session).head? = some w)
    (hnodup : (listed.map Prod.snd).Nodup) (hunused : ∀ e ∈ listed, s.UnusedPane e.2) :
    u.Lists (s.listPanes session listed fresh) session w ∧
      ((∀ e ∈ listed, s.Done session w e.1 ∨ s.Todo session e.1) →
        ∀ slot, (slot ∈ listed.map Prod.fst ∨ s.Done session w slot) →
          (s.listPanes session listed fresh).Done session w slot) := by
  induction listed generalizing s with
  | nil => exact ⟨hu,fun _ slot hslot => hslot.resolve_left (by simp)⟩
  | cons e listed ih =>
    rw [List.map_cons,List.nodup_cons] at hnodup
    have hp := hunused e List.mem_cons_self
    have hrest : ∀ e' ∈ listed, s.UnusedPane e'.2 ∧ e'.2 ≠ e.2 := by
      intro e' he'
      refine ⟨hunused e' (List.mem_cons_of_mem _ he'),fun heq => hnodup.1 ?_⟩
      exact heq ▸ List.mem_map_of_mem he'
    have hfold : s.listPanes session (e :: listed) fresh =
        (s.listPane session e.1 e.2 fresh).listPanes session listed fresh := rfl
    rw [hfold]
    rcases listPane_cases hhead hp with
      ⟨r,hr,hplaces⟩ | ⟨hsame,hnew,hmapped⟩
    · set t := s.listPane session e.1 e.2 fresh with ht
      have hhead' : (t.windowsOf session).head? = some w := by
        rwa [windowsOf,hplaces.sessionWindows]
      obtain ⟨hlists,hdone⟩ := ih (hplaces.lists hu) hhead' hnodup.2 fun e' he' =>
        hplaces.unused hr (hrest e' he').1 (hrest e' he').2
      refine ⟨hlists,fun hstart slot hslot => ?_⟩
      have hfirst : t.Done session w e.1 := by
        rcases hstart e List.mem_cons_self with hd | htodo
        · exact hplaces.done (Or.inl hd)
        · exact hplaces.done (Or.inr ⟨rfl,htodo⟩)
      refine hdone (fun e' he' => ?_) slot ?_
      · by_cases heq : e'.1 = e.1
        · exact Or.inl (heq ▸ hfirst)
        · exact (hstart e' (List.mem_cons_of_mem _ he')).imp (fun h => hplaces.done (Or.inl h))
            (hplaces.todo heq)
      · rcases hslot with hslot | hslot
        · rcases List.mem_cons.mp hslot with rfl | hslot
          · exact Or.inr hfirst
          · exact Or.inl hslot
        · exact Or.inr (hplaces.done (Or.inl hslot))
    · rw [hsame]
      obtain ⟨hlists,hdone⟩ := ih hu hhead hnodup.2 fun e' he' => (hrest e' he').1
      refine ⟨hlists,fun hstart slot hslot => ?_⟩
      refine hdone (fun e' he' => hstart e' (List.mem_cons_of_mem _ he')) slot ?_
      rcases hslot with hslot | hslot
      · rcases List.mem_cons.mp hslot with rfl | hslot
        · refine Or.inr ?_
          -- with nothing to place for it, the slot has no pane or one that is placed
          rcases hstart e List.mem_cons_self with hd | htodo
          · exact hd
          · refine ⟨hnew,fun q hq => ?_⟩
            rcases hmapped with hnone | ⟨q',v,hq',hv⟩
            · exact absurd hq (hnone q)
            · exact absurd ((htodo q' hq').1.symm.trans hv) (by simp)
        · exact Or.inl hslot
      · exact Or.inr hslot

theorem head_default (s : SupervisorImpl) (session : SessionKey) (fresh : WindowId) :
    ((s.getOrCreateDefaultWindow session fresh).1.windowsOf session).head? =
      some (s.getOrCreateDefaultWindow session fresh).2 := by
  unfold getOrCreateDefaultWindow
  cases hhead : (s.windowsOf session).head? with
  | some w => exact hhead
  | none =>
    have hnil : s.windowsOf session = [] := by simpa using hhead
    cases (s.listWindows session).head? with
    | some row =>
      have hsame := (samePanes_orInsertMeta s row.id ⟨session,row.name,row.position,none⟩).sessionWindows
      have hnil' : (s.orInsertMeta row.id ⟨session,row.name,row.position,none⟩).windowsOf session =
          [] := by rw [windowsOf,hsame]; exact hnil
      simp [windowsOf,pushWindow] at hnil' ⊢
      rw [hnil']
      rfl
    | none =>
      simp only [windowsOf] at hnil
      simp [windowsOf,pushWindow,setMeta,upsertWindow,hnil]

/-- A round either changes nothing or has the default window first. -/
theorem listPane_default (hr : s.Resolves (s.getOrCreateDefaultWindow session fresh).1 session
    (s.getOrCreateDefaultWindow session fresh).2) (hp : s.UnusedPane p) :
    s.listPane session slot p fresh = s ∧
        (s.getOrCreateDefaultWindow session fresh).1.listPane session slot p fresh =
          (s.getOrCreateDefaultWindow session fresh).1 ∨
      s.listPane session slot p fresh =
        (s.getOrCreateDefaultWindow session fresh).1.listPane session slot p fresh := by
  set u := (s.getOrCreateDefaultWindow session fresh).1 with hu
  set w := (s.getOrCreateDefaultWindow session fresh).2 with hw
  set ix := (s.index.getOrAllocPaneBySlot session slot p).1 with hix
  have hself : u.getOrCreateDefaultWindow session fresh = (u,w) := by
    have hhead := head_default s session fresh
    rw [← hu,← hw] at hhead
    exact default_of_head hhead fresh
  have hdefault : (s.withPanes ix s.workers).getOrCreateDefaultWindow session fresh =
      (u.withPanes ix u.workers).getOrCreateDefaultWindow session fresh := by
    rw [default_withPanes,default_withPanes,hself,hr.workers]
  have hold : s.getOrAllocPaneBySlot session slot p =
      (s.withPanes ix s.workers,(s.index.getOrAllocPaneBySlot session slot p).2) := rfl
  have hnew : u.getOrAllocPaneBySlot session slot p =
      (u.withPanes ix u.workers,(s.index.getOrAllocPaneBySlot session slot p).2) := by
    simp only [getOrAllocPaneBySlot,hr.index]
    rfl
  have hmap : (s.withPanes ix s.workers).paneWindowMap = s.paneWindowMap := rfl
  have hmap' : (u.withPanes ix u.workers).paneWindowMap = s.paneWindowMap := hr.paneWindowMap
  have hkeep : ¬s.index.Registers session slot →
      s.withPanes ix s.workers = s ∧ u.withPanes ix u.workers = u := by
    intro hreg
    have hsame : ix = s.index := PaneIndex.getOrAlloc_keeps hreg p
    rw [hsame]
    exact ⟨rfl,by rw [← hr.index]; rfl⟩
  simp only [listPane,hold,hnew,hmap,hmap']
  cases hfound : (s.index.getOrAllocPaneBySlot session slot p).2 with
  | none =>
    refine Or.inl (hkeep fun hreg => ?_)
    rw [PaneIndex.getOrAlloc_registers hreg] at hfound
    cases hfound
  | some q =>
    cases hq : s.paneWindowMap.lookup q with
    | none =>
      refine Or.inr ?_
      simp only [hq,hdefault]
    | some v =>
      simp only [hq]
      refine Or.inl (hkeep fun hreg => ?_)
      rw [PaneIndex.getOrAlloc_registers hreg,Option.some.injEq] at hfound
      rw [← hfound,hp.2.1] at hq
      cases hq

theorem listPanes_cons (s : SupervisorImpl) (session : SessionKey) (e : UInt32 × PaneId)
    (listed : List (UInt32 × PaneId)) (fresh : WindowId) :
    s.listPanes session (e :: listed) fresh =
      (s.listPane session e.1 e.2 fresh).listPanes session listed fresh := rfl

theorem listPanes_default (listed : List (UInt32 × PaneId))
    (hr : s.Resolves (s.getOrCreateDefaultWindow session fresh).1 session
      (s.getOrCreateDefaultWindow session fresh).2)
    (hunused : ∀ e ∈ listed, s.UnusedPane e.2) :
    s.listPanes session listed fresh = s ∨ s.listPanes session listed fresh =
      (s.getOrCreateDefaultWindow session fresh).1.listPanes session listed fresh := by
  induction listed with
  | nil => exact Or.inl rfl
  | cons e listed ih =>
    rw [listPanes_cons,listPanes_cons]
    rcases listPane_default hr (hunused e List.mem_cons_self) with ⟨hs,hu⟩ | hfirst
    · rw [hs,hu]
      exact ih fun e' he' => hunused e' (List.mem_cons_of_mem _ he')
    · rw [hfirst]
      exact Or.inr rfl

/-- The panes may be listed: the default window has a live pane, or no tree, in which
case it takes up all slots. -/
def Listable (s : SupervisorImpl) (session : SessionKey) (w : WindowId) : Prop :=
  (∃ q k, s.On w q k) ∨ s.treeOf w = none ∧ ∀ slot ∈ s.slots session, s.Todo session slot

/-- All panes that are listed have a window. -/
def Settled (s : SupervisorImpl) (session : SessionKey) : Prop :=
  ∀ slot ∈ s.slots session, ¬s.index.Registers session slot ∧
    ∀ q, s.index.lookup q = some (session,slot) → s.paneWindowMap.lookup q ≠ none

theorem listPanes_settled (listed : List (UInt32 × PaneId)) (hs : s.Settled session)
    (hslots : ∀ e ∈ listed, e.1 ∈ s.slots session) : s.listPanes session listed fresh = s := by
  induction listed with
  | nil => rfl
  | cons e listed ih =>
    obtain ⟨hreg,hmapped⟩ := hs e.1 (hslots e List.mem_cons_self)
    have hkeep := PaneIndex.getOrAlloc_keeps hreg e.2
    have hround : s.listPane session e.1 e.2 fresh = s := by
      have hstate : s.getOrAllocPaneBySlot session e.1 e.2 =
          (s,(s.index.getOrAllocPaneBySlot session e.1 e.2).2) := by
        simp only [getOrAllocPaneBySlot,hkeep]
      simp only [listPane,hstate]
      cases hfound : (s.index.getOrAllocPaneBySlot session e.1 e.2).2 with
      | none => rfl
      | some q =>
        have hat := PaneIndex.lookup_getOrAlloc_some hfound
        rw [hkeep] at hat
        obtain ⟨v,hv⟩ := Option.ne_none_iff_exists'.mp (hmapped q hat)
        simp only [hv]
    rw [listPanes_cons,hround]
    exact ih fun e' he' => hslots e' (List.mem_cons_of_mem _ he')

theorem good_listPanes (h : s.Good) {listed : List (UInt32 × PaneId)}
    (hworker : s.workers.lookup session ≠ none)
    (hperm : (listed.map Prod.fst).Perm (s.slots session))
    (hnodup : (listed.map Prod.snd).Nodup) (hunused : ∀ e ∈ listed, s.UnusedPane e.2)
    (hfresh : s.UnusedWindow fresh)
    (hl : s.Settled session ∨ (s.getOrCreateDefaultWindow session fresh).1.Listable session
      (s.getOrCreateDefaultWindow session fresh).2) : (s.listPanes session listed fresh).Good := by
  have hslots : ∀ e ∈ listed, e.1 ∈ s.slots session := fun e he =>
    hperm.mem_iff.mp (List.mem_map_of_mem he)
  rcases hl with hsettled | hl
  · rwa [listPanes_settled listed hsettled hslots]
  have hr := resolves_default h.toInv session hfresh
  rcases listPanes_default listed hr hunused with hsame | hfirst
  · rwa [hsame]
  rw [hfirst]
  set u := (s.getOrCreateDefaultWindow session fresh).1 with hu
  set w := (s.getOrCreateDefaultWindow session fresh).2 with hw
  have hgood := h.resolves hr
  have hunused' : ∀ e ∈ listed, u.UnusedPane e.2 := fun e he => hr.unused (hunused e he)
  obtain ⟨hlists,hdone⟩ := lists_listPanes listed (Lists.refl hgood.toInv)
    (head_default s session fresh) hnodup hunused'
  refine hlists.good hgood hr.own (by rwa [hr.workers]) ?_
  rcases hl with ⟨q,k,hon⟩ | ⟨htree,htodo⟩
  · have hk : k.1 = session := Option.some.inj ((hgood.home w q k hon).symm.trans hr.own)
    have hs := hlists.shown (hgood.shown w q k hon)
    rwa [hk] at hs
  · rw [shown_of_none ((hlists.treeOf w).trans htree)]
    have hslots' : ∀ e ∈ listed, e.1 ∈ u.slots session := by
      intro e he
      rw [slots,hr.workers]
      exact hslots e he
    intro slot hslot
    refine hdone (fun e he => Or.inr (htodo e.1 (hslots' e he))) slot (Or.inl ?_)
    rw [slots,hlists.workers,hr.workers] at hslot
    exact hperm.mem_iff.mpr hslot

end listing

end SupervisorImpl

end Pyre.Supervisor
