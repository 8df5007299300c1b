import Pyre.Supervisor.Showing

/-!
Panes that end: what is left of a state when a worker closes slots or goes away,
when a pane leaves its window, and when a window is closed. A tree keeps its last leaf
whatever becomes of the pane.
-/

set_option autoImplicit false

namespace Pyre.Supervisor
open Base

namespace SupervisorImpl

variable {s t : SupervisorImpl} {session : SessionKey} {v w : WindowId} {p q : PaneId}
  {k : SlotKey} {tree : LayoutNode}

/-- What the end of some panes, those that are `gone`, leaves of the state. -/
structure Removes (s t : SupervisorImpl) (gone : PaneId → SlotKey → Prop) : Prop where
  lookup : ∀ q k, t.index.lookup q = some k → s.index.lookup q = some k
  mapped : ∀ q v, t.paneWindowMap.lookup q = some v → s.paneWindowMap.lookup q = some v
  on : ∀ v q k, t.On v q k ↔ s.On v q k ∧ ¬gone q k
  listed : ∀ v q k, s.On v q k → t.index.lookup q = some k → k.2 ∈ t.slots k.1 → t.On v q k
  slots : ∀ session, ∀ slot ∈ t.slots session, slot ∈ s.slots session
  registers : ∀ session, ∀ slot ∈ t.slots session, t.index.Registers session slot →
    s.index.Registers session slot
  staffed : ∀ v q k, t.On v q k → s.workers.lookup k.1 ≠ none → t.workers.lookup k.1 ≠ none
  rows : t.paneRows = s.paneRows
  stored : ∀ r ∈ t.windowRows, ∃ r' ∈ s.windowRows, r'.id = r.id ∧ r'.session = r.session
  windows : t.sessionWindows = s.sessionWindows
  sessions : ∀ v, t.sessionOf v = s.sessionOf v
  trees : ∀ v, s.treeOf v = none ∧ t.treeOf v = none ∨
    ∃ tree tree', s.treeOf v = some tree ∧ t.treeOf v = some tree' ∧
      ∀ q ∈ tree.allLeaves, (∃ k, t.On v q k) → q ∈ tree'.allLeaves

/-- A tree that stays keeps its leaves. -/
theorem tree_of_eq (h : t.treeOf v = s.treeOf v) :
    s.treeOf v = none ∧ t.treeOf v = none ∨
      ∃ tree tree', s.treeOf v = some tree ∧ t.treeOf v = some tree' ∧
        ∀ q ∈ tree.allLeaves, (∃ k, t.On v q k) → q ∈ tree'.allLeaves := by
  rw [h]
  cases s.treeOf v with
  | none => exact Or.inl ⟨rfl,rfl⟩
  | some tree => exact Or.inr ⟨tree,tree,rfl,rfl,fun _ hq _ => hq⟩

namespace Removes

variable {u : SupervisorImpl} {gone gone' : PaneId → SlotKey → Prop}

theorem refl (s : SupervisorImpl) : s.Removes s fun _ _ => False where
  lookup _ _ h := h
  mapped _ _ h := h
  on _ _ _ := by simp
  listed _ _ _ h _ _ := h
  slots _ _ h := h
  registers _ _ _ h := h
  staffed _ _ _ _ h := h
  rows := rfl
  stored r h := ⟨r,h,rfl,rfl⟩
  windows := rfl
  sessions _ := rfl
  trees _ := tree_of_eq rfl

theorem congr (h : s.Removes t gone) (hgone : ∀ v q k, s.On v q k → (gone q k ↔ gone' q k)) :
    s.Removes t gone' := by
  have hon : ∀ v q k, t.On v q k ↔ s.On v q k ∧ ¬gone' q k := by
    intro v q k
    rw [h.on]
    exact and_congr_right fun hon => not_congr (hgone v q k hon)
  exact { h with on := hon }

theorem trans (h : s.Removes t gone) (h' : t.Removes u gone') :
    s.Removes u fun q k => gone q k ∨ gone' q k where
  lookup q k hq := h.lookup q k (h'.lookup q k hq)
  mapped q v hq := h.mapped q v (h'.mapped q v hq)
  on v q k := by rw [h'.on,h.on,not_or,and_assoc]
  listed v q k hon hq hslot :=
    h'.listed v q k (h.listed v q k hon (h'.lookup q k hq) (h'.slots k.1 k.2 hslot)) hq hslot
  slots session slot hs := h.slots session slot (h'.slots session slot hs)
  registers session slot hs hr :=
    h.registers session slot (h'.slots session slot hs) (h'.registers session slot hs hr)
  staffed v q k hon hw := h'.staffed v q k hon (h.staffed v q k ((h'.on v q k).mp hon).1 hw)
  rows := h'.rows.trans h.rows
  stored r hr := by
    obtain ⟨r₁,hr₁,hid₁,hs₁⟩ := h'.stored r hr
    obtain ⟨r₂,hr₂,hid₂,hs₂⟩ := h.stored r₁ hr₁
    exact ⟨r₂,hr₂,hid₂.trans hid₁,hs₂.trans hs₁⟩
  windows := h'.windows.trans h.windows
  sessions v := (h'.sessions v).trans (h.sessions v)
  trees v := by
    rcases h.trees v with ⟨hs,ht⟩ | ⟨tree,tree',hs,ht,hleaf⟩
    · rcases h'.trees v with ⟨-,hu⟩ | ⟨tree₁,tree₂,ht₁,-,-⟩
      · exact Or.inl ⟨hs,hu⟩
      · rw [ht] at ht₁
        cases ht₁
    · rcases h'.trees v with ⟨ht₁,-⟩ | ⟨tree₁,tree₂,ht₁,hu,hleaf'⟩
      · rw [ht] at ht₁
        cases ht₁
      · obtain rfl : tree' = tree₁ := Option.some.inj (ht.symm.trans ht₁)
        refine Or.inr ⟨tree,tree₂,hs,hu,fun q hq hon => hleaf' q (hleaf q hq ?_) hon⟩
        obtain ⟨k,hk⟩ := hon
        exact ⟨k,((h'.on v q k).mp hk).1⟩

theorem inv (h : s.Removes t gone) (hi : s.Inv) : t.Inv where
  rows p v hp := by
    rw [h.rows]
    exact hi.rows p v (h.mapped p v hp)
  home v p k hon := by
    rw [h.sessions]
    exact hi.home v p k ((h.on v p k).mp hon).1
  listed session v hv := by
    rw [h.sessions]
    rw [windowsOf,h.windows] at hv
    exact hi.listed session v hv
  staffed v p k hon := h.staffed v p k hon (hi.staffed v p k ((h.on v p k).mp hon).1)
  stored r hr session hs := by
    obtain ⟨r',hr',hid,hsession⟩ := h.stored r hr
    rw [h.sessions,← hid] at hs
    exact hsession ▸ hi.stored r' hr' session hs
  keyed r₁ hr₁ r₂ hr₂ heq := by
    obtain ⟨r₁',hr₁',hid₁,hs₁⟩ := h.stored r₁ hr₁
    obtain ⟨r₂',hr₂',hid₂,hs₂⟩ := h.stored r₂ hr₂
    rw [← hs₁,← hs₂]
    exact hi.keyed r₁' hr₁' r₂' hr₂' (hid₁.trans (heq.trans hid₂.symm))

/-- A live leaf that stays is all it takes; a window without a tree needs nothing. -/
theorem shown (h : s.Removes t gone) (hs : s.Shown session v)
    (hleaf : ∀ tree, s.treeOf v = some tree →
      ∃ q ∈ tree.allLeaves, ∃ k, s.On v q k ∧ ¬gone q k) : t.Shown session v := by
  rcases h.trees v with ⟨hnone,hnone'⟩ | ⟨tree,tree',htree,htree',hsub⟩
  · rw [shown_of_none hnone] at hs
    rw [shown_of_none hnone']
    refine hs.mono (h.slots session) (h.registers session) fun slot hslot q hq => ?_
    have hold := h.lookup q _ hq
    exact Or.inr ⟨hold,fun hv => (h.listed v q _ ⟨hold,hv⟩ hq hslot).2⟩
  · obtain ⟨q,hq,k,hk⟩ := hleaf tree htree
    have hon := (h.on v q k).mpr hk
    rw [shown_of_tree htree']
    exact ⟨q,hsub q hq ⟨k,hon⟩,k,hon⟩

end Removes

/-- The panes that end leave each window that still has a live pane a leaf that is one. -/
def Ends (s : SupervisorImpl) (gone : PaneId → SlotKey → Prop) : Prop :=
  ∀ v p k tree, s.On v p k → ¬gone p k → s.treeOf v = some tree →
    ∃ q ∈ tree.allLeaves, ∃ k, s.On v q k ∧ ¬gone q k

theorem Good.removes {gone : PaneId → SlotKey → Prop} (h : s.Good) (hr : s.Removes t gone)
    (hends : s.Ends gone) : t.Good where
  toInv := hr.inv h.toInv
  shown v p k hon := by
    obtain ⟨hon,hkept⟩ := (hr.on v p k).mp hon
    exact hr.shown (h.shown v p k hon) fun tree htree => hends v p k tree hon hkept htree

theorem removes_closeSlot (s : SupervisorImpl) (session : SessionKey) (slot : UInt32) :
    s.Removes (s.closeSlot session slot) fun _ _ => False where
  lookup _ _ h := h
  mapped _ _ h := h
  on v q k := by simp [On,closeSlot]
  listed _ _ _ h _ _ := h
  slots session' slot' h := by
    rw [closeSlot,← registerWorker,slots_registerWorker] at h
    split at h
    · rename_i heq
      exact heq ▸ List.mem_of_mem_filter h
    · exact h
  registers _ _ _ h := h
  staffed _ _ _ _ h := worker_registerWorker s session _ h
  rows := rfl
  stored r h := ⟨r,h,rfl,rfl⟩
  windows := rfl
  sessions _ := rfl
  trees _ := tree_of_eq rfl

theorem slot_closeSlot (s : SupervisorImpl) (session : SessionKey) (slot : UInt32) :
    slot ∉ (s.closeSlot session slot).slots session := by
  rw [closeSlot,← registerWorker,slots_registerWorker,if_pos rfl]
  simp

theorem lookup_dropSlot {ix : PaneIndex} {slot : UInt32} {fresh : PaneId}
    (hfresh : ix.Registers session slot → ix.lookup fresh = none) :
    ((ix.getOrAllocPaneBySlot session slot fresh).1.removePaneSlot session slot).1.lookup q =
      some k ↔ ix.lookup q = some k ∧ k ≠ (session,slot) := by
  rw [PaneIndex.lookup_removePaneSlot]
  refine and_congr_left fun hk => ?_
  by_cases hr : ix.Registers session slot
  · rw [PaneIndex.getOrAlloc_registers hr,PaneIndex.lookup_register]
    constructor
    · rintro (⟨-,rfl⟩ | ⟨-,h⟩)
      · exact absurd rfl hk
      · exact h
    · intro h
      refine Or.inr ⟨?_,h⟩
      rintro rfl
      rw [hfresh hr] at h
      cases h
  · rw [PaneIndex.getOrAlloc_keeps hr]

theorem deadSlots_getOrAlloc (ix : PaneIndex) (session : SessionKey) (slot : UInt32)
    (fresh : PaneId) : (ix.getOrAllocPaneBySlot session slot fresh).1.deadSlots = ix.deadSlots := by
  unfold PaneIndex.getOrAllocPaneBySlot
  split
  · rfl
  · split <;> rfl

/-- The index forgets a slot that the worker has closed. -/
theorem removes_slot {slot : UInt32} {fresh : PaneId} (hslot : slot ∉ s.slots session)
    (hfresh : s.index.Registers session slot → s.index.lookup fresh = none) :
    s.Removes { s with index :=
      ((s.index.getOrAllocPaneBySlot session slot fresh).1.removePaneSlot session slot).1 }
      fun _ k => k = (session,slot) where
  lookup q k h := ((lookup_dropSlot hfresh).mp h).1
  mapped _ _ h := h
  on v q k := by
    simp only [On,lookup_dropSlot hfresh]
    exact and_right_comm
  listed v q k hon hq _ := ⟨hq,hon.2⟩
  slots _ _ h := h
  registers session' slot' hs hr := by
    have hne : (session',slot') ≠ (session,slot) := by
      rintro ⟨⟩
      exact hslot hs
    rw [registers_iff] at hr ⊢
    refine ⟨fun p hp => hr.1 p ((lookup_dropSlot hfresh).mpr ⟨hp,hne⟩),fun hdead => hr.2 ?_⟩
    refine Finset.mem_insert_of_mem ?_
    rwa [deadSlots_getOrAlloc]
  staffed _ _ _ _ h := h
  rows := rfl
  stored r h := ⟨r,h,rfl,rfl⟩
  windows := rfl
  sessions _ := rfl
  trees _ := tree_of_eq rfl

theorem paneCount_eq_zero_iff {ix : PaneIndex} :
    ix.paneCount session = 0 ↔ ∀ q k, ix.lookup q = some k → k.1 ≠ session := by
  rw [PaneIndex.paneCount,List.length_eq_zero_iff,List.filter_eq_nil_iff]
  constructor
  · intro hnone q k hq
    exact of_decide_eq_false (eq_false_of_ne_true
      (hnone k (List.mem_map.mpr ⟨_,Table.lookup_eq_some.mp hq,rfl⟩)))
  · intro hnone k hk
    obtain ⟨⟨q,k⟩,he,rfl⟩ := List.mem_map.mp hk
    simpa using hnone q k (Table.lookup_eq_some.mpr he)

theorem session_of_paneCount {ix : PaneIndex} (h : ix.paneCount session = 0)
    (hq : ix.lookup q = some k) : k.1 ≠ session := paneCount_eq_zero_iff.mp h q k hq

theorem removes_session (s : SupervisorImpl) (session : SessionKey) :
    s.Removes (s.removeSession session) fun _ k => k.1 = session where
  lookup q k h := (PaneIndex.lookup_removeSession.mp h).1
  mapped _ _ h := h
  on v q k := by
    simp only [On,removeSession,PaneIndex.lookup_removeSession]
    exact and_right_comm
  listed v q k hon hq _ := ⟨hq,hon.2⟩
  slots session' slot' h := by
    by_cases heq : session' = session
    · subst heq
      simp [SupervisorImpl.slots,removeSession] at h
    · rwa [SupervisorImpl.slots,removeSession,AList.lookup_erase_ne heq] at h
  registers session' slot' hs hr := by
    have hne : session' ≠ session := by
      rintro rfl
      simp [SupervisorImpl.slots,removeSession] at hs
    rw [registers_iff] at hr ⊢
    refine ⟨fun p hp => hr.1 p (PaneIndex.lookup_removeSession.mpr ⟨hp,hne⟩),fun hdead => hr.2 ?_⟩
    exact Finset.mem_filter.mpr ⟨hdead,by simpa using hne⟩
  staffed v q k hon h := by
    have hne : k.1 ≠ session := (PaneIndex.lookup_removeSession.mp hon.1).2
    rwa [removeSession,AList.lookup_erase_ne hne]
  rows := rfl
  stored r h := ⟨r,h,rfl,rfl⟩
  windows := rfl
  sessions _ := rfl
  trees _ := tree_of_eq rfl

theorem removes_unassign (h : ∀ k, s.index.lookup p = some k → k.2 ∉ s.slots k.1) :
    s.Removes (s.unassign p) fun q _ => q = p where
  lookup _ _ h := h
  mapped q v h := (Table.lookup_erase_eq_some.mp h).2
  on v q k := by
    simp only [On,unassign,Table.lookup_erase_eq_some]
    rw [and_assoc,and_comm (a := q ≠ p)]
  listed v q k hon hq hslot := by
    refine ⟨hq,Table.lookup_erase_eq_some.mpr ⟨?_,hon.2⟩⟩
    rintro rfl
    exact h k hq hslot
  slots _ _ h := h
  registers _ _ _ h := h
  staffed _ _ _ _ h := h
  rows := rfl
  stored r h := ⟨r,h,rfl,rfl⟩
  windows := rfl
  sessions _ := rfl
  trees _ := tree_of_eq rfl

/-- Where all but the trees is the same, and they keep their live leaves. -/
theorem removes_of_samePanes (hsame : s.SamePanes t)
    (hsessions : ∀ v, t.sessionOf v = s.sessionOf v)
    (hstored : ∀ r ∈ t.windowRows, ∃ r' ∈ s.windowRows, r'.id = r.id ∧ r'.session = r.session)
    (hne : ∀ v, v ≠ w → t.treeOf v = s.treeOf v) {tree' : LayoutNode}
    (htree : s.treeOf w = some tree) (htree' : t.treeOf w = some tree')
    (hleaf : ∀ q ∈ tree.allLeaves, (∃ k, s.On w q k) → q ∈ tree'.allLeaves) :
    s.Removes t fun _ _ => False := by
  have hon : ∀ v q k, t.On v q k ↔ s.On v q k := by
    simp [On,hsame.index,hsame.paneWindowMap]
  exact
    { lookup := fun q k h => by rwa [hsame.index] at h
      mapped := fun q v h => by rwa [hsame.paneWindowMap] at h
      on := fun v q k => by simp [hon]
      listed := fun v q k h _ _ => (hon v q k).mpr h
      slots := fun session slot h => by rwa [SupervisorImpl.slots,hsame.workers] at h
      registers := fun session slot _ h => by rwa [hsame.index] at h
      staffed := fun v q k _ h => by rwa [hsame.workers]
      rows := hsame.paneRows
      stored := hstored
      windows := hsame.sessionWindows
      sessions := hsessions
      trees := fun v => by
        by_cases h : v = w
        · subst h
          have hleaf' : ∀ q ∈ tree.allLeaves, (∃ k, t.On v q k) → q ∈ tree'.allLeaves := by
            simpa only [hon] using hleaf
          exact Or.inr ⟨tree,tree',htree,htree',hleaf'⟩
        · exact tree_of_eq (hne v h) }

theorem removes_setLayout {tree' : LayoutNode} (htree : s.treeOf w = some tree)
    (hleaf : ∀ q ∈ tree.allLeaves, (∃ k, s.On w q k) → q ∈ tree'.allLeaves) :
    s.Removes (s.setLayout w tree') fun _ _ => False := by
  obtain ⟨session,hsession⟩ := sessionOf_of_treeOf htree
  refine removes_of_samePanes (samePanes_setLayout s w tree')
    (fun v => sessionOf_setLayout s w v tree') (fun r hr => ?_)
    (fun v hv => treeOf_setLayout_ne hv s tree') htree
    (treeOf_setLayout_self (by simp [hsession]) tree') hleaf
  rw [windowRows_setLayout] at hr
  exact ⟨r,hr,rfl,rfl⟩

theorem removes_storeLayout {tree' : LayoutNode} (htree : s.treeOf w = some tree)
    (hleaf : ∀ q ∈ tree.allLeaves, (∃ k, s.On w q k) → q ∈ tree'.allLeaves) :
    s.Removes ((s.setLayout w tree').upsertWindowLayout w tree') fun _ _ => False := by
  obtain ⟨session,hsession⟩ := sessionOf_of_treeOf htree
  refine removes_of_samePanes (samePanes_storeLayout s w tree')
    (fun v => sessionOf_setLayout s w v tree') (fun r hr => ?_)
    (fun v hv => treeOf_storeLayout_ne hv s tree') htree
    (treeOf_storeLayout_self (by simp [hsession]) tree') hleaf
  obtain ⟨r',hr',rfl⟩ := List.mem_map.mp hr
  rw [windowRows_setLayout] at hr'
  refine ⟨r',hr',?_,?_⟩ <;> split <;> rfl

theorem removes_prunePane (h : ∀ k, s.index.lookup p = some k → k.2 ∉ s.slots k.1) :
    s.Removes (s.prunePane p) fun q _ => q = p := by
  unfold prunePane
  split
  · rename_i hnone
    refine (Removes.refl s).congr fun v q k hon => ?_
    constructor
    · exact False.elim
    · rintro rfl
      exact absurd (hnone.symm.trans hon.2) (by simp)
  · rename_i w hw
    have hun := removes_unassign h
    simp only
    split
    · exact hun
    · rename_i tree htree
      have ht : (s.unassign p).treeOf w = some tree := treeOf_of_layout htree
      refine (hun.trans (removes_storeLayout ht fun q hq hon => ?_)).congr fun _ _ _ _ => by simp
      obtain ⟨k,hk⟩ := hon
      have hne : q ≠ p := ((hun.on w q k).mp hk).2
      rw [LayoutNode.leaves_close_of_ne hq hne]
      exact List.mem_filter.mpr ⟨hq,by simpa using hne⟩

/-- The session goes with its last pane, and then the pane goes from its window. -/
theorem paneClosed_evict (s : SupervisorImpl) (session : SessionKey) (slot : UInt32)
    (fresh : PaneId) {ix : PaneIndex}
    (hix : ix = ((s.index.getOrAllocPaneBySlot session slot fresh).1.removePaneSlot
      session slot).1) :
    s.paneClosed session slot fresh =
      (s.index.getOrAllocPaneBySlot session slot fresh).2.elim
        (if ix.paneCount session = 0 then
          SupervisorImpl.removeSession { s with index := ix } session else { s with index := ix })
        (prunePane (if ix.paneCount session = 0 then
          SupervisorImpl.removeSession { s with index := ix } session
          else { s with index := ix })) := by
  subst hix
  unfold paneClosed
  cases hpane : (s.index.getOrAllocPaneBySlot session slot fresh).2 <;>
    simp only [getOrAllocPaneBySlot,hpane] <;> rfl

/-- A callback of a slot that is closed: its pane goes, and the session with the last. -/
theorem removes_paneClosed {slot : UInt32} {fresh : PaneId} (hslot : slot ∉ s.slots session)
    (hfresh : s.index.Registers session slot → s.UnusedPane fresh) :
    s.Removes (s.paneClosed session slot fresh) fun _ k => k = (session,slot) := by
  have hdrop := removes_slot hslot fun hr => (hfresh hr).1
  set ix := ((s.index.getOrAllocPaneBySlot session slot fresh).1.removePaneSlot session slot).1
    with hix
  have hevict : s.Removes (if ix.paneCount session = 0 then
      SupervisorImpl.removeSession { s with index := ix } session else { s with index := ix })
      fun _ k => k = (session,slot) := by
    split
    · rename_i hzero
      refine (hdrop.trans (removes_session _ session)).congr fun v q k hon => ?_
      refine or_iff_left_of_imp fun hk => ?_
      by_contra hne
      have hon' := (hdrop.on v q k).mpr ⟨hon,hne⟩
      exact session_of_paneCount hzero hon'.1 hk
    · exact hdrop
  rw [paneClosed_evict s session slot fresh hix]
  cases hpane : (s.index.getOrAllocPaneBySlot session slot fresh).2 with
  | none => exact hevict
  | some pane =>
    -- the pane is of this slot or has just been drawn
    have hgone : ∀ k, ix.lookup pane ≠ some k := by
      intro k hk
      obtain ⟨hat,hne⟩ := PaneIndex.lookup_removePaneSlot.mp hk
      have hslot := PaneIndex.lookup_getOrAlloc_some hpane
      exact hne (Option.some.inj (hat.symm.trans hslot))
    refine (hevict.trans (removes_prunePane fun k hk => ?_)).congr fun v q k hon => ?_
    · have hk' := hk
      split at hk'
      · exact absurd (PaneIndex.lookup_removeSession.mp hk').1 (hgone k)
      · exact absurd hk' (hgone k)
    · refine or_iff_left_of_imp ?_
      rintro rfl
      by_contra hne
      exact hgone k ((lookup_dropSlot fun hr => (hfresh hr).1).mpr ⟨hon.1,hne⟩)

theorem removes_workerClose {slot : UInt32} {fresh : PaneId}
    (hfresh : s.index.Registers session slot → s.UnusedPane fresh) :
    s.Removes (s.workerClose session slot fresh) fun _ k =>
      k = (session,slot) ∧ slot ∈ s.slots session := by
  unfold workerClose
  split
  · rename_i hopen
    have hclose := removes_closeSlot s session slot
    refine (hclose.trans (removes_paneClosed (slot_closeSlot s session slot) hfresh)).congr ?_
    intro v q k _
    simp [hopen]
  · rename_i hclosed
    exact (Removes.refl s).congr fun v q k _ => by simp [hclosed]

/-- The slots closed when the worker is asked to close the pane. -/
def Closes (s : SupervisorImpl) (p : PaneId) (k : SlotKey) : Prop :=
  s.index.lookup p = some k ∧ k.2 ∈ s.slots k.1

theorem removes_closeOnWorker (s : SupervisorImpl) (p : PaneId) :
    s.Removes (s.closeOnWorker p) fun _ k => s.Closes p k := by
  unfold closeOnWorker
  split
  · rename_i session slot hp
    have hknown : ¬s.index.Registers session slot := fun hr => (registers_iff.mp hr).1 p hp
    refine (removes_workerClose fun hr => absurd hr hknown).congr fun v q k _ => ?_
    rw [Closes,hp,Option.some.injEq]
    constructor
    · rintro ⟨rfl,hopen⟩
      exact ⟨rfl,hopen⟩
    · rintro ⟨rfl,hopen⟩
      exact ⟨rfl,hopen⟩
  · rename_i hnone
    exact (Removes.refl s).congr fun v q k _ => by simp [Closes,hnone]

theorem slot_workerClose {slot : UInt32} {fresh : PaneId}
    (hfresh : s.index.Registers session slot → s.UnusedPane fresh) :
    slot ∉ (s.workerClose session slot fresh).slots session := by
  unfold workerClose
  split
  · intro hopen
    have hclosed := slot_closeSlot s session slot
    exact hclosed ((removes_paneClosed hclosed hfresh).slots session slot hopen)
  · assumption

/-- Afterwards the pane is at no slot that is open. -/
theorem slot_closeOnWorker (s : SupervisorImpl) (p : PaneId) :
    ∀ k, (s.closeOnWorker p).index.lookup p = some k → k.2 ∉ (s.closeOnWorker p).slots k.1 := by
  intro k hk
  have hold := (removes_closeOnWorker s p).lookup p k hk
  obtain ⟨session,slot⟩ := k
  have hknown : ¬s.index.Registers session slot := fun hr => (registers_iff.mp hr).1 p hold
  simp only [closeOnWorker,hold]
  exact slot_workerClose fun hr => absurd hr hknown

theorem removes_closePane (s : SupervisorImpl) (p : PaneId) :
    s.Removes (s.closePane p) fun q k => s.Closes p k ∨ q = p :=
  (removes_closeOnWorker s p).trans (removes_prunePane (slot_closeOnWorker s p))

theorem removes_closePanes (panes : List PaneId) (s : SupervisorImpl) :
    ∃ gone, s.Removes (panes.foldl (fun s p => (s.closeOnWorker p).unassign p) s) gone ∧
      (∀ q k, gone q k → ∃ p ∈ panes, s.index.lookup p = some k ∨ q = p) ∧
      ∀ p ∈ panes, (panes.foldl (fun s p => (s.closeOnWorker p).unassign p) s).paneWindowMap.lookup
        p = none := by
  induction panes generalizing s with
  | nil => exact ⟨_,Removes.refl s,fun _ _ => False.elim,by simp⟩
  | cons p panes ih =>
    have hfirst := (removes_closeOnWorker s p).trans (removes_unassign (slot_closeOnWorker s p))
    obtain ⟨gone,hrest,hgone,hnone⟩ := ih ((s.closeOnWorker p).unassign p)
    refine ⟨_,hfirst.trans hrest,?_,?_⟩
    · rintro q k ((hk | rfl) | hk)
      · exact ⟨p,List.mem_cons_self,Or.inl hk.1⟩
      · exact ⟨q,List.mem_cons_self,Or.inr rfl⟩
      · obtain ⟨p',hp',hat⟩ := hgone q k hk
        exact ⟨p',List.mem_cons_of_mem _ hp',hat.imp_left (hfirst.lookup p' k)⟩
    · intro p' hp'
      rw [List.foldl_cons]
      rcases List.mem_cons.mp hp' with rfl | hp'
      · by_contra hsome
        obtain ⟨v,hv⟩ := Option.ne_none_iff_exists'.mp hsome
        have hold := hrest.mapped p' v hv
        exact (Table.lookup_erase_eq_some.mp hold).1 rfl
      · exact hnone p' hp'

theorem mem_listPanesForWindow :
    p ∈ s.listPanesForWindow w ↔ s.paneRows.lookup p = some w := by
  simp only [listPanesForWindow,List.mem_map,List.mem_filter,decide_eq_true_eq,Table.lookup_eq_some]
  constructor
  · rintro ⟨⟨q,k⟩,⟨he,rfl⟩,rfl⟩
    exact he
  · intro h
    exact ⟨⟨p,w⟩,⟨h,rfl⟩,rfl⟩

/-- No pane of another window is at the slot of a pane stored with this one. -/
def Apart (s : SupervisorImpl) (w : WindowId) : Prop :=
  ∀ p ∈ s.listPanesForWindow w, ∀ k, s.index.lookup p = some k → ∀ q v, s.On v q k → v = w

theorem samePanes_dropWindow (s : SupervisorImpl) (w : WindowId) :
    (s.dropWindow w).index = s.index ∧ (s.dropWindow w).workers = s.workers ∧
      (s.dropWindow w).paneWindowMap = s.paneWindowMap ∧ (s.dropWindow w).paneRows = s.paneRows := by
  unfold dropWindow
  simp only
  split
  · exact ⟨rfl,rfl,rfl,rfl⟩
  · split <;> exact ⟨rfl,rfl,rfl,rfl⟩

theorem lookup_dropWindow_ne (h : v ≠ w) (s : SupervisorImpl) :
    (s.dropWindow w).windowStore.lookup v = s.windowStore.lookup v := by
  unfold dropWindow
  simp only
  split
  · exact AList.lookup_erase_ne h
  · split <;> exact AList.lookup_erase_ne h

theorem windowRows_dropWindow (s : SupervisorImpl) (w : WindowId) :
    (s.dropWindow w).windowRows = s.windowRows := by
  unfold dropWindow
  simp only
  split
  · rfl
  · split <;> rfl

/-- The window leaves the list of its session. -/
theorem windowsOf_dropWindow (s : SupervisorImpl) (w : WindowId) (session : SessionKey) :
    (s.dropWindow w).windowsOf session = if s.sessionOf w = some session then
      (s.windowsOf session).filter (· ≠ w) else s.windowsOf session := by
  unfold dropWindow
  rw [← sessionOf]
  cases hs : s.sessionOf w with
  | none => rfl
  | some session' =>
    by_cases heq : session = session'
    · subst heq
      rw [if_pos rfl]
      cases hws : s.sessionWindows.lookup session with
      | none => simp [windowsOf,hws]
      | some ws => simp [windowsOf,hws]
    · rw [if_neg fun h => heq (Option.some.inj h).symm]
      cases hws : s.sessionWindows.lookup session' with
      | none => simp [windowsOf,hws]
      | some ws => simp [windowsOf,hws,AList.lookup_insert_ne heq]

theorem mem_windowsOf_dropWindow : v ∈ (s.dropWindow w).windowsOf session ↔
    v ∈ s.windowsOf session ∧ (s.sessionOf w = some session → v ≠ w) := by
  rw [windowsOf_dropWindow]
  split <;> simp [*]

theorem windowsOf_dropWindow_of_listed
    (h : ∀ v ∈ s.windowsOf session, s.sessionOf v = some session) :
    (s.dropWindow w).windowsOf session = (s.windowsOf session).filter (· ≠ w) := by
  rw [windowsOf_dropWindow]
  split
  · rfl
  · rename_i hne
    refine (List.filter_eq_self.mpr fun v hv => decide_eq_true ?_).symm
    rintro rfl
    exact hne (h v hv)

/-- The panes of the window, as the store has them, are closed and in no window. -/
theorem removes_closePanesOf (s : SupervisorImpl) (w : WindowId) :
    ∃ gone, s.Removes (s.closePanesOf w) gone ∧
      (∀ q k, gone q k → ∃ p ∈ s.listPanesForWindow w, s.index.lookup p = some k ∨ q = p) ∧
      ∀ p ∈ s.listPanesForWindow w, (s.closePanesOf w).paneWindowMap.lookup p = none :=
  removes_closePanes (s.listPanesForWindow w) s

theorem on_dropWindow : ((s.dropWindow w).deleteWindow w).On v q k ↔ s.On v q k := by
  obtain ⟨hindex,-,hmap,-⟩ := samePanes_dropWindow s w
  simp only [On,deleteWindow,hindex,hmap]

theorem sessionOf_dropWindow_ne (h : v ≠ w) (s : SupervisorImpl) :
    ((s.dropWindow w).deleteWindow w).sessionOf v = s.sessionOf v := by
  rw [sessionOf,sessionOf]
  exact congrArg _ (lookup_dropWindow_ne h s)

theorem windowLayoutJson_dropWindow_ne (h : v ≠ w) (s : SupervisorImpl) :
    ((s.dropWindow w).deleteWindow w).windowLayoutJson v = s.windowLayoutJson v := by
  rw [windowLayoutJson_deleteWindow h,windowLayoutJson,windowRows_dropWindow,windowLayoutJson]

theorem inv_dropWindow (h : s.Inv) (hne : ∀ v q k, s.On v q k → v ≠ w) :
    ((s.dropWindow w).deleteWindow w).Inv := by
  obtain ⟨-,hworkers,hmap,hrows⟩ := samePanes_dropWindow s w
  refine ⟨?_,?_,?_,?_,?_,?_⟩
  · intro p v hp
    rw [deleteWindow,hrows]
    exact h.rows p v (by rwa [deleteWindow,hmap] at hp)
  · intro v q k hq
    have hq' := on_dropWindow.mp hq
    rw [sessionOf_dropWindow_ne (hne v q k hq')]
    exact h.home v q k hq'
  · intro session v hv
    obtain ⟨hv,hdropped⟩ := mem_windowsOf_dropWindow.mp hv
    have hold := h.listed session v hv
    have hvw : v ≠ w := by
      rintro rfl
      exact hdropped hold rfl
    rw [sessionOf_dropWindow_ne hvw]
    exact hold
  · intro v q k hq
    have hq' := on_dropWindow.mp hq
    rw [deleteWindow,hworkers]
    exact h.staffed v q k hq'
  · intro r hr session hs
    rw [deleteWindow,windowRows_dropWindow,List.mem_filter,decide_eq_true_eq] at hr
    rw [sessionOf_dropWindow_ne hr.2] at hs
    exact h.stored r hr.1 session hs
  · intro r hr r' hr' heq
    rw [deleteWindow,windowRows_dropWindow,List.mem_filter] at hr hr'
    exact h.keyed r hr.1 r' hr'.1 heq

/-- All that the window had is unassigned before it goes. -/
theorem on_closePanesOf (h : s.Inv) (hon : (s.closePanesOf w).On v q k) : v ≠ w := by
  obtain ⟨gone,hr,-,hnone⟩ := removes_closePanesOf s w
  rintro rfl
  have hrow := h.rows q v (hr.mapped q v hon.2)
  exact absurd ((hnone q (mem_listPanesForWindow.mpr hrow)).symm.trans hon.2) (by simp)

theorem good_closeWindow (h : s.Good) (hw : s.Apart w) : (s.closeWindow w).Good := by
  obtain ⟨gone,hr,hgone,-⟩ := removes_closePanesOf s w
  have hclose : s.closeWindow w = ((s.closePanesOf w).dropWindow w).deleteWindow w := rfl
  set t := s.closePanesOf w with ht
  obtain ⟨hindex,hworkers,hmap,-⟩ := samePanes_dropWindow t w
  have hne : ∀ v q k, t.On v q k → v ≠ w := fun v q k hon => on_closePanesOf h.toInv hon
  rw [hclose]
  refine ⟨inv_dropWindow (hr.inv h.toInv) hne,fun v q k hq => ?_⟩
  have hq' := on_dropWindow.mp hq
  have hv := hne v q k hq'
  have hs := ((hr.on v q k).mp hq').1
  have hshown : t.Shown k.1 v := by
    refine hr.shown (h.shown v q k hs) fun tree htree₀ => ?_
    obtain ⟨r,hrleaf,k',hk'⟩ := (shown_of_tree htree₀).mp (h.shown v q k hs)
    refine ⟨r,hrleaf,k',hk',fun hg => hv ?_⟩
    obtain ⟨p,hp,hat | rfl⟩ := hgone r k' hg
    · exact hw p hp k' hat r v hk'
    · have hrow := h.rows r v hk'.2
      exact Option.some.inj (hrow.symm.trans (mem_listPanesForWindow.mp hp))
  exact hshown.congr (treeOf_congr (lookup_dropWindow_ne hv t)
    (windowLayoutJson_dropWindow_ne hv t)) hindex hworkers hmap

theorem good_removeWorker (h : s.Good) (session : SessionKey) : (s.removeSession session).Good := by
  refine h.removes (removes_session s session) fun v p k tree hon hne htree => ?_
  obtain ⟨q,hq,k',hk'⟩ := (shown_of_tree htree).mp (h.shown v p k hon)
  refine ⟨q,hq,k',hk',fun heq => hne ?_⟩
  -- all panes of a window are of one session
  rw [← heq]
  exact Option.some.inj ((h.home v p k hon).symm.trans (h.home v q k' hk'))

end SupervisorImpl

end Pyre.Supervisor
