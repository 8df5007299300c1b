import Pyre.Supervisor.Operations

/-!
The layouts that the supervisor shows, and what the tables have to be like for the
leaves of a window to be live panes of it. A window without a tree is shown with the
first pane that the session's worker lists.
-/

set_option autoImplicit false

namespace Pyre.Supervisor
open Base

namespace SupervisorImpl

/-- The pane is live, at the slot, and assigned to the window. -/
def On (s : SupervisorImpl) (w : WindowId) (p : PaneId) (k : SlotKey) : Prop :=
  s.index.lookup p = some k ∧ s.paneWindowMap.lookup p = some w

/-- Where a window has a live pane, all leaves of the layout it is shown with are
live panes of it. -/
def LayoutsLive (s : SupervisorImpl) : Prop :=
  ∀ w p k, s.On w p k → ∀ first fresh tree, (s.getWindowLayout w first fresh).2 = some tree →
    ∀ q ∈ tree.allLeaves, ∃ k, s.On w q k

/-- Every slot that the session's worker has is one of the window's. -/
def Fallback (s : SupervisorImpl) (session : SessionKey) (w : WindowId) : Prop :=
  ∀ slot ∈ s.slots session, ¬s.index.Registers session slot ∧
    ∀ q, s.index.lookup q = some (session,slot) → s.paneWindowMap.lookup q = some w

def Shown (s : SupervisorImpl) (session : SessionKey) (w : WindowId) : Prop :=
  match s.treeOf w with
  | some tree => ∃ q ∈ tree.allLeaves, ∃ k, s.On w q k
  | none => s.Fallback session w

/-- `rows`, `stored`: what the store has agrees with memory. `home`: the window of a
live pane is one of the pane's session. `staffed`: that session has a worker. -/
structure Inv (s : SupervisorImpl) : Prop where
  rows : ∀ p v, s.paneWindowMap.lookup p = some v → s.paneRows.lookup p = some v
  home : ∀ v p k, s.On v p k → s.sessionOf v = some k.1
  listed : ∀ session, ∀ v ∈ s.windowsOf session, s.sessionOf v = some session
  staffed : ∀ v p k, s.On v p k → s.workers.lookup k.1 ≠ none
  stored : ∀ r ∈ s.windowRows, ∀ session, s.sessionOf r.id = some session → r.session = session
  keyed : ∀ r ∈ s.windowRows, ∀ r' ∈ s.windowRows, r.id = r'.id → r.session = r'.session

structure Good (s : SupervisorImpl) : Prop extends s.Inv where
  shown : ∀ v p k, s.On v p k → s.Shown k.1 v

variable {s t : SupervisorImpl} {session : SessionKey} {v w : WindowId} {p q : PaneId}
  {k : SlotKey} {tree : LayoutNode}

theorem shown_of_tree (h : s.treeOf w = some tree) :
    s.Shown session w ↔ ∃ q ∈ tree.allLeaves, ∃ k, s.On w q k := by rw [Shown,h]

theorem shown_of_none (h : s.treeOf w = none) : s.Shown session w ↔ s.Fallback session w := by
  rw [Shown,h]

theorem Shown.congr (h : s.Shown session v) (htree : t.treeOf v = s.treeOf v)
    (hindex : t.index = s.index) (hworkers : t.workers = s.workers)
    (hmap : t.paneWindowMap = s.paneWindowMap) : t.Shown session v := by
  unfold Shown Fallback On slots at h ⊢
  rwa [htree,hindex,hworkers,hmap]

theorem isLive_iff : s.isLive session w p = true ↔ ∃ k, s.On w p k ∧ k.1 = session := by
  simp only [isLive,decide_eq_true_eq,Option.map_eq_some_iff,On]
  constructor
  · rintro ⟨⟨k,hk,rfl⟩,hw⟩
    exact ⟨k,⟨hk,hw⟩,rfl⟩
  · rintro ⟨k,⟨hk,hw⟩,rfl⟩
    exact ⟨⟨k,hk,rfl⟩,hw⟩

theorem Inv.isLive_iff (h : s.Inv) (hw : s.sessionOf w = some session) :
    s.isLive session w p = true ↔ ∃ k, s.On w p k := by
  rw [SupervisorImpl.isLive_iff]
  constructor
  · rintro ⟨k,hon,-⟩
    exact ⟨k,hon⟩
  · rintro ⟨k,hon⟩
    exact ⟨k,hon,Option.some.inj ((h.home w p k hon).symm.trans hw)⟩

theorem mem_livePanes : p ∈ s.livePanes session w ↔ s.isLive session w p = true := by
  simp only [livePanes,List.mem_filter,and_iff_right_iff_imp]
  intro hlive
  obtain ⟨k,hon,-⟩ := isLive_iff.mp hlive
  exact List.mem_map.mpr ⟨_,Table.lookup_eq_some.mp hon.1,rfl⟩

theorem leaves_pruneGhosts (h : ∃ q ∈ tree.allLeaves, s.isLive session w q = true) :
    (s.pruneGhosts session w tree).allLeaves = tree.allLeaves.filter (s.isLive session w) := by
  obtain ⟨q,hq,hlive⟩ := h
  have hkept : q ∉ tree.allLeaves.filter fun p => !s.isLive session w p := by
    simp [hlive]
  rw [pruneGhosts,LayoutNode.leaves_foldl_close hq hkept]
  refine List.filter_congr fun r hr => ?_
  cases hl : s.isLive session w r <;> simp [hr,hl]

/-- The result of `get_window_layout` where the window is in memory. -/
theorem getWindowLayout_of_tree {info : WindowMeta} (hw : s.windowStore.lookup w = some info)
    (ht : s.treeOf w = some tree) (first : UInt32) (fresh : PaneId) :
    ∃ tree', (s.getWindowLayout w first fresh).2 = some tree' ∧
      (tree' = tree ∧ (s.livePanes info.session w = [] ∨
          tree.allLeaves.all (s.isLive info.session w)) ∧
          (s.getWindowLayout w first fresh).1 = s.setLayout w tree ∨
        tree' = s.pruneGhosts info.session w tree ∧ s.livePanes info.session w ≠ [] ∧
          (s.getWindowLayout w first fresh).1 =
            ((s.setLayout w tree).setLayout w tree').upsertWindowLayout w tree') := by
  have hsame := samePanes_setLayout s w tree
  have hlive : (s.setLayout w tree).isLive = s.isLive := by
    funext session v p
    simp only [isLive,hsame.index,hsame.paneWindowMap]
  have hpanes : (s.setLayout w tree).livePanes = s.livePanes := by
    funext session v
    simp only [livePanes,hlive,hsame.index]
  have hprune : (s.setLayout w tree).pruneGhosts = s.pruneGhosts := by
    funext session v t
    simp only [pruneGhosts,hlive]
  unfold getWindowLayout
  simp only [hw,ht,hlive,hpanes,hprune]
  split
  · rename_i hnil
    exact ⟨tree,rfl,Or.inl ⟨rfl,Or.inl hnil,rfl⟩⟩
  · rename_i hne
    split
    · rename_i hall
      exact ⟨tree,rfl,Or.inl ⟨rfl,Or.inr hall,rfl⟩⟩
    · exact ⟨_,rfl,Or.inr ⟨rfl,hne,rfl⟩⟩

/-- Where every window is shown as it should be, its layout is live. -/
theorem Good.layoutsLive (h : s.Good) : s.LayoutsLive := by
  intro w p k hon first fresh tree htree q hq
  have hshown := h.shown w p k hon
  cases hw : s.windowStore.lookup w with
  | none => simp [getWindowLayout,hw] at htree
  | some info =>
    have hsession : s.sessionOf w = some info.session := by rw [sessionOf,hw]; rfl
    have hk : k.1 = info.session := Option.some.inj ((h.home w p k hon).symm.trans hsession)
    rw [hk] at hshown
    have hiff : ∀ {r}, s.isLive info.session w r = true ↔ ∃ k, s.On w r k :=
      h.isLive_iff hsession
    cases ht : s.treeOf w with
    | some tree₀ =>
      rw [shown_of_tree ht] at hshown
      obtain ⟨r,hr,hlive⟩ := hshown
      obtain ⟨tree',hres,hcase⟩ := getWindowLayout_of_tree hw ht first fresh
      obtain rfl : tree = tree' := Option.some.inj (htree.symm.trans hres)
      rcases hcase with ⟨rfl,hnil | hall,-⟩ | ⟨rfl,-,-⟩
      · have hmem : p ∈ s.livePanes info.session w := mem_livePanes.mpr (hiff.mpr ⟨k,hon⟩)
        rw [hnil] at hmem
        cases hmem
      · exact hiff.mp (List.all_eq_true.mp hall q hq)
      · rw [leaves_pruneGhosts ⟨r,hr,hiff.mpr hlive⟩] at hq
        exact hiff.mp (List.mem_filter.mp hq).2
    | none =>
      rw [shown_of_none ht] at hshown
      simp only [getWindowLayout,hw,ht] at htree
      split at htree
      · rename_i hfirst
        obtain ⟨hreg,hall⟩ := hshown first hfirst
        obtain ⟨r,hr,rfl⟩ := Option.map_eq_some_iff.mp htree
        have hat := PaneIndex.lookup_getOrAlloc_some hr
        rw [PaneIndex.getOrAlloc_keeps hreg] at hat
        obtain rfl : q = r := by simpa [LayoutNode.allLeaves] using hq
        exact ⟨_,hat,hall q hat⟩
      · cases htree

theorem slots_registerWorker (s : SupervisorImpl) (session session' : SessionKey)
    (slots : List UInt32) :
    (s.registerWorker session slots).slots session' =
      if session' = session then slots else s.slots session' := by
  by_cases h : session' = session
  · subst h
    simp [registerWorker,SupervisorImpl.slots]
  · simp [registerWorker,SupervisorImpl.slots,AList.lookup_insert_ne h,h]

theorem worker_registerWorker (s : SupervisorImpl) (session : SessionKey)
    (slots : List UInt32) {session' : SessionKey} (h : s.workers.lookup session' ≠ none) :
    (s.registerWorker session slots).workers.lookup session' ≠ none := by
  by_cases heq : session' = session
  · subst heq
    simp [registerWorker]
  · rwa [registerWorker,AList.lookup_insert_ne heq]

theorem registers_iff {ix : PaneIndex} {slot : UInt32} :
    ix.Registers session slot ↔
      (∀ p, ix.lookup p ≠ some (session,slot)) ∧ (session,slot) ∉ ix.deadSlots := by
  rw [PaneIndex.Registers,PaneIndex.paneIdBySlot_eq_none,PaneIndex.isDead,decide_eq_false_iff_not]

theorem Fallback.mono (h : s.Fallback session v)
    (hslots : ∀ slot ∈ t.slots session, slot ∈ s.slots session)
    (hreg : ∀ slot ∈ t.slots session, t.index.Registers session slot →
      s.index.Registers session slot)
    (hat : ∀ slot ∈ t.slots session, ∀ q, t.index.lookup q = some (session,slot) →
      s.index.Registers session slot ∨ s.index.lookup q = some (session,slot) ∧
        (s.paneWindowMap.lookup q = some v → t.paneWindowMap.lookup q = some v)) :
    t.Fallback session v := by
  intro slot hslot
  obtain ⟨hnew,hall⟩ := h slot (hslots slot hslot)
  refine ⟨fun hr => hnew (hreg slot hslot hr),fun q hq => ?_⟩
  rcases hat slot hslot q hq with hr | ⟨hold,hkeep⟩
  · exact absurd hr hnew
  · exact hkeep (hall q hold)

end SupervisorImpl

end Pyre.Supervisor
