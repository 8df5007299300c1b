import Pyre.Supervisor.Visible

/-!
What ends panes and prunes trees keeps the other panes in sight, and so does a window that is
closed, unless it is the one without a tree that a pane of no window is shown in.
-/

set_option autoImplicit false

namespace Pyre.Supervisor
open Base

namespace SupervisorImpl

variable {s t u : SupervisorImpl} {session session' : SessionKey} {v w : WindowId}
  {p q : PaneId} {k : SlotKey} {slot : UInt32} {tree tree' : LayoutNode}

/-- Trees only lose leaves, and stay in memory. -/
structure Trims (s t : SupervisorImpl) : Prop where
  unknown : ∀ v, s.sessionOf v = none → t.windowLayoutJson v = s.windowLayoutJson v
  cached : ∀ v, s.cachedTree v ≠ none → t.cachedTree v ≠ none
  leaves : ∀ v tree', t.treeOf v = some tree' →
    ∃ tree, s.treeOf v = some tree ∧ ∀ q ∈ tree'.allLeaves, q ∈ tree.allLeaves

namespace Trims

theorem of_panes (hstore : t.windowStore = s.windowStore) (hrows : t.windowRows = s.windowRows) :
    s.Trims t where
  unknown v _ := by rw [windowLayoutJson,hrows,windowLayoutJson]
  cached v h := by rwa [cachedTree,hstore]
  leaves v tree' h := by
    refine ⟨tree',?_,fun _ hq => hq⟩
    rw [← h]
    exact (treeOf_congr (by rw [hstore]) (by rw [windowLayoutJson,windowLayoutJson,hrows])).symm

theorem refl (s : SupervisorImpl) : s.Trims s := of_panes rfl rfl

theorem trans (h : s.Trims t) (h' : t.Trims u) (hsessions : ∀ v, t.sessionOf v = s.sessionOf v) :
    s.Trims u where
  unknown v hv := (h'.unknown v ((hsessions v).trans hv)).trans (h.unknown v hv)
  cached v hv := h'.cached v (h.cached v hv)
  leaves v tree₂ ht := by
    obtain ⟨tree₁,ht₁,hsub₁⟩ := h'.leaves v tree₂ ht
    obtain ⟨tree₀,ht₀,hsub₀⟩ := h.leaves v tree₁ ht₁
    exact ⟨tree₀,ht₀,fun q hq => hsub₀ q (hsub₁ q hq)⟩

theorem setLayout (ht : s.treeOf w = some tree)
    (hsub : ∀ q ∈ tree'.allLeaves, q ∈ tree.allLeaves) : s.Trims (s.setLayout w tree') where
  unknown v _ := by rw [windowLayoutJson,windowRows_setLayout,windowLayoutJson]
  cached v hv := by
    unfold SupervisorImpl.setLayout
    split
    · rename_i info hinfo
      by_cases heq : v = w
      · subst heq
        rw [cachedTree,lookup_setMeta_self]
        simp
      · rwa [cachedTree,lookup_setMeta_ne heq]
    · exact hv
  leaves v tree₁ h₁ := by
    by_cases heq : v = w
    · subst heq
      obtain ⟨session,hs⟩ := sessionOf_of_treeOf ht
      rw [treeOf_setLayout_self (by simp [hs])] at h₁
      obtain rfl := Option.some.inj h₁
      exact ⟨tree,ht,hsub⟩
    · rw [treeOf_setLayout_ne heq] at h₁
      exact ⟨tree₁,h₁,fun _ hq => hq⟩

theorem storeLayout (ht : s.treeOf w = some tree)
    (hsub : ∀ q ∈ tree'.allLeaves, q ∈ tree.allLeaves) :
    s.Trims ((s.setLayout w tree').upsertWindowLayout w tree') := by
  have hset := Trims.setLayout ht hsub
  obtain ⟨session,hs⟩ := sessionOf_of_treeOf ht
  refine ⟨fun v hv => ?_,hset.cached,fun v tree₁ h₁ => ?_⟩
  · have hne : v ≠ w := by
      rintro rfl
      rw [hv] at hs
      cases hs
    rw [windowLayoutJson_upsertWindowLayout hne]
    exact hset.unknown v hv
  · by_cases heq : v = w
    · subst heq
      rw [treeOf_storeLayout_self (by simp [hs])] at h₁
      obtain rfl := Option.some.inj h₁
      exact ⟨tree,ht,hsub⟩
    · rw [treeOf_storeLayout_ne heq] at h₁
      exact ⟨tree₁,h₁,fun _ hq => hq⟩

theorem prunePane (s : SupervisorImpl) (p : PaneId) : s.Trims (s.prunePane p) := by
  unfold SupervisorImpl.prunePane
  split
  · exact refl s
  · rename_i w hw
    have hunassign : s.Trims (s.unassign p) := of_panes rfl rfl
    simp only
    split
    · exact hunassign
    · rename_i tree htree
      have ht : (s.unassign p).treeOf w = some tree := treeOf_of_layout htree
      exact hunassign.trans (storeLayout ht fun q hq => LayoutNode.mem_leaves_close hq)
        fun _ => rfl

theorem paneClosed (s : SupervisorImpl) (session : SessionKey) (slot : UInt32) (fresh : PaneId) :
    s.Trims (s.paneClosed session slot fresh) := by
  simp only [SupervisorImpl.paneClosed]
  split
  · split <;> exact of_panes rfl rfl
  · refine .trans ?_ (prunePane _ _) ?_
    · split <;> exact of_panes rfl rfl
    · intro v
      split <;> rfl

theorem workerClose (s : SupervisorImpl) (session : SessionKey) (slot : UInt32) (fresh : PaneId) :
    s.Trims (s.workerClose session slot fresh) := by
  unfold SupervisorImpl.workerClose
  split
  · have hclosed : s.Trims (s.closeSlot session slot) := of_panes rfl rfl
    exact hclosed.trans (paneClosed _ session slot fresh) fun _ => rfl
  · exact refl s

theorem closeOnWorker (s : SupervisorImpl) (p : PaneId) : s.Trims (s.closeOnWorker p) := by
  unfold SupervisorImpl.closeOnWorker
  split
  · exact workerClose s _ _ p
  · exact refl s

theorem closePanesOf (s : SupervisorImpl) (w : WindowId) : s.Trims (s.closePanesOf w) := by
  rw [SupervisorImpl.closePanesOf]
  generalize s.listPanesForWindow w = panes
  induction panes generalizing s with
  | nil => exact refl s
  | cons p panes ih =>
    have hunassign : (s.closeOnWorker p).Trims ((s.closeOnWorker p).unassign p) :=
      of_panes rfl rfl
    have hsessions := (SameWindows.closeOnWorker s p).sessionOf
    exact ((closeOnWorker s p).trans hunassign hsessions).trans (ih _) hsessions

end Trims

theorem SameWindows.workerClose (s : SupervisorImpl) (session : SessionKey) (slot : UInt32)
    (fresh : PaneId) : s.SameWindows (s.workerClose session slot fresh) := by
  unfold SupervisorImpl.workerClose
  split
  · have hclosed : s.SameWindows (s.closeSlot session slot) := .of_panes rfl rfl rfl
    exact hclosed.trans (paneClosed _ session slot fresh)
  · exact refl s

/-! Nothing that is left goes out of sight. -/

theorem SameWindows.mem_listedWindows (h : s.SameWindows t) :
    v ∈ t.listedWindows session ↔ v ∈ s.listedWindows session := by
  have hstored : t.Stored session v ↔ s.Stored session v := h.stored session v
  rw [SupervisorImpl.mem_listedWindows,SupervisorImpl.mem_listedWindows,windowsOf,
    h.sessionWindows,hstored]
  rfl

/-- What panes and trees are lost by. -/
structure Loses (s t : SupervisorImpl) (gone : PaneId → SlotKey → Prop) : Prop where
  removes : s.Removes t gone
  windows : s.SameWindows t
  trims : s.Trims t

namespace Loses

variable {gone : PaneId → SlotKey → Prop}

theorem live (h : s.Loses t gone) (hp : t.Live session p) : s.Live session p := by
  obtain ⟨slot,hslot,hat⟩ := hp
  exact ⟨slot,h.removes.slots session slot hslot,h.removes.lookup p _ hat⟩

theorem mapped (h : s.Loses t gone) (hp : t.Live session p)
    (hw : s.paneWindowMap.lookup p = some w) : t.paneWindowMap.lookup p = some w := by
  obtain ⟨slot,hslot,hat⟩ := hp
  exact (h.removes.listed w p _ ⟨h.removes.lookup p _ hat,hw⟩ hat hslot).2

theorem saved (h : s.Loses t gone) (v : WindowId) :
    s.savedTree v = none ∧ t.savedTree v = none ∨
      ∃ tree tree', s.savedTree v = some tree ∧ t.savedTree v = some tree' ∧
        (∀ q ∈ tree'.allLeaves, q ∈ tree.allLeaves) ∧
        ∀ q ∈ tree.allLeaves, (∃ k, t.On v q k) → q ∈ tree'.allLeaves := by
  by_cases hv : s.sessionOf v = none
  · have hunknown : ∀ x : SupervisorImpl, x.sessionOf v = none →
        x.savedTree v = x.windowLayoutJson v := by
      intro x hx
      rw [sessionOf,Option.map_eq_none_iff] at hx
      simp [savedTree,cachedTree,hx]
    have hsame : t.savedTree v = s.savedTree v := by
      rw [hunknown s hv,hunknown t ((h.windows.sessionOf v).trans hv),h.trims.unknown v hv]
    rw [hsame]
    cases s.savedTree v with
    | none => exact Or.inl ⟨rfl,rfl⟩
    | some tree => exact Or.inr ⟨tree,tree,rfl,rfl,fun _ hq => hq,fun _ hq _ => hq⟩
  · have hv' : t.sessionOf v ≠ none := by rwa [h.windows.sessionOf]
    rw [← treeOf_eq_savedTree hv,← treeOf_eq_savedTree hv']
    rcases h.removes.trees v with hnone | ⟨tree,tree',ht,ht',hkept⟩
    · exact Or.inl hnone
    · obtain ⟨tree₀,ht₀,hsub⟩ := h.trims.leaves v tree' ht'
      obtain rfl := Option.some.inj (ht.symm.trans ht₀)
      exact Or.inr ⟨tree,tree',ht,ht',hsub,hkept⟩

theorem savedTree_eq_none (h : s.Loses t gone) (v : WindowId) :
    t.savedTree v = none ↔ s.savedTree v = none := by
  rcases h.saved v with ⟨hs,ht⟩ | ⟨tree,tree',hs,ht,-⟩
  · simp [hs,ht]
  · simp [hs,ht]

theorem leaf (h : s.Loses t gone) {tree' : LayoutNode} (ht : t.savedTree v = some tree')
    (hp : p ∈ tree'.allLeaves) : ∃ tree, s.savedTree v = some tree ∧ p ∈ tree.allLeaves := by
  rcases h.saved v with ⟨-,hnone⟩ | ⟨tree,tree₁,hs,ht₁,hsub,-⟩
  · rw [hnone] at ht
    cases ht
  · obtain rfl := Option.some.inj (ht.symm.trans ht₁)
    exact ⟨tree,hs,hsub p hp⟩

theorem inTree (h : s.Loses t gone) (hp : t.Live session p) (hin : s.InTree session p) :
    t.InTree session p := by
  obtain ⟨w,hw,hmap,⟨tree,htree,hleaf⟩,honly⟩ := hin
  have hlist : t.windowsOf session = s.windowsOf session := by
    rw [windowsOf,windowsOf,h.windows.sessionWindows]
  have hmap' := h.mapped hp hmap
  rw [InTree,hlist]
  refine ⟨w,hw,hmap',?_,fun v hv tree' ht' hp' => ?_⟩
  · obtain ⟨tree',htree'⟩ := Option.ne_none_iff_exists'.mp
      (h.trims.cached w (by simp [htree]))
    refine ⟨tree',htree',?_⟩
    obtain ⟨slot,-,hat⟩ := hp
    rcases h.saved w with ⟨hnone,-⟩ | ⟨tree₀,tree₁,h₀,h₁,-,hkept⟩
    · rw [savedTree_of_cached htree] at hnone
      cases hnone
    · obtain rfl := Option.some.inj ((savedTree_of_cached htree).symm.trans h₀)
      obtain rfl := Option.some.inj ((savedTree_of_cached htree').symm.trans h₁)
      exact hkept p hleaf ⟨_,hat,hmap'⟩
  · obtain ⟨tree₀,h₀,hp₀⟩ := h.leaf ht' hp'
    exact honly v hv tree₀ h₀ hp₀

theorem onlyBare (h : s.Loses t gone) (hw : s.OnlyBare (s.listedWindows session) w) :
    t.OnlyBare (t.listedWindows session) w := by
  obtain ⟨hmem,hnone,hothers⟩ := hw
  refine ⟨h.windows.mem_listedWindows.mpr hmem,(h.savedTree_eq_none w).mpr hnone,?_⟩
  intro v hv hne hv'
  exact hothers v (h.windows.mem_listedWindows.mp hv) hne ((h.savedTree_eq_none v).mp hv')

theorem seen (h : s.Loses t gone) (hs : s.Seen session) : t.Seen session := by
  rcases hs with hquiet | htreed | ⟨p,slot,w,hlone⟩
  · exact Or.inl fun p hp => hquiet p (h.live hp)
  · refine Or.inr (Or.inl ⟨fun p hp => h.inTree hp (htreed.placed p (h.live hp)),?_⟩)
    intro v hv hnone
    rw [windowsOf,h.windows.sessionWindows] at hv
    exact htreed.trees v hv ((h.savedTree_eq_none v).mp hnone)
  · have hslots : ∀ x ∈ t.slots session, x = slot := fun x hx =>
      hlone.slots x (h.removes.slots session x hx)
    by_cases hat : t.index.lookup p = some (session,slot)
    · refine Or.inr (Or.inr ⟨p,slot,w,⟨fun q => ?_,h.onlyBare hlone.bare,?_⟩,hslots⟩)
      · constructor
        · intro hq
          exact (hlone.at_slot q).mp (h.removes.lookup q _ hq)
        · rintro rfl
          exact hat
      · intro v hv tree' ht' hp
        obtain ⟨tree,ht,hp'⟩ := h.leaf ht' hp
        exact hlone.away v (h.windows.mem_listedWindows.mp hv) tree ht hp'
    · -- the pane is gone, and there was no other
      refine Or.inl fun q hq => hat ?_
      obtain ⟨x,hx,hq⟩ := hq
      obtain rfl := hslots x hx
      obtain rfl := (hlone.at_slot q).mp (h.removes.lookup q _ hq)
      exact hq

end Loses

theorem loses_workerClose {fresh : PaneId}
    (hfresh : s.index.Registers session slot → s.UnusedPane fresh) :
    ∃ gone, s.Loses (s.workerClose session slot fresh) gone :=
  ⟨_,removes_workerClose hfresh,.workerClose s session slot fresh,
    .workerClose s session slot fresh⟩

theorem loses_closePane (s : SupervisorImpl) (p : PaneId) :
    ∃ gone, s.Loses (s.closePane p) gone := by
  have hwindows := SameWindows.closeOnWorker s p
  exact ⟨_,removes_closePane s p,hwindows.trans (.prunePane _ p),
    (Trims.closeOnWorker s p).trans (.prunePane _ p) hwindows.sessionOf⟩

theorem loses_removeWorker (s : SupervisorImpl) (session : SessionKey) :
    ∃ gone, s.Loses (s.removeSession session) gone :=
  ⟨_,removes_session s session,.of_panes rfl rfl rfl,.of_panes rfl rfl⟩

theorem loses_getWindowLayout (h : s.Inv) (ht : s.treeOf w = some tree) (first : UInt32)
    (fresh : PaneId) : ∃ gone, s.Loses (s.getWindowLayout w first fresh).1 gone := by
  obtain ⟨info,hinfo,-⟩ := Option.bind_eq_some_iff.mp ht
  refine ⟨_,removes_getWindowLayout h ht first fresh,.getWindowLayout s w first fresh,?_⟩
  have hset : s.Trims (s.setLayout w tree) := .setLayout ht fun _ hq => hq
  obtain ⟨tree',-,⟨-,-,hstate⟩ | ⟨rfl,-,hstate⟩⟩ := getWindowLayout_of_tree hinfo ht first fresh
  · rwa [hstate]
  · rw [hstate]
    have ht' : (s.setLayout w tree).treeOf w = some tree :=
      treeOf_setLayout_self (by simp [sessionOf,hinfo]) tree
    exact hset.trans (.storeLayout ht' fun q hq => LayoutNode.mem_leaves_foldl_close hq)
      fun v => sessionOf_setLayout s w v tree

/-! A window that is closed. -/

theorem cachedTree_dropWindow_ne (h : v ≠ w) (s : SupervisorImpl) :
    ((s.dropWindow w).deleteWindow w).cachedTree v = s.cachedTree v := by
  rw [cachedTree,cachedTree]
  exact congrArg (Option.bind · WindowMeta.layout) (lookup_dropWindow_ne h s)

theorem savedTree_dropWindow_ne (h : v ≠ w) (s : SupervisorImpl) :
    ((s.dropWindow w).deleteWindow w).savedTree v = s.savedTree v := by
  rw [savedTree,cachedTree_dropWindow_ne h,windowLayoutJson_dropWindow_ne h,savedTree]

theorem live_dropWindow : ((s.dropWindow w).deleteWindow w).Live session p ↔ s.Live session p := by
  obtain ⟨hindex,hworkers,-,-⟩ := samePanes_dropWindow s w
  simp only [Live,SupervisorImpl.slots,deleteWindow,hindex,hworkers]

theorem mem_windowsOf_closed (h : s.Inv) :
    v ∈ ((s.dropWindow w).deleteWindow w).windowsOf session ↔ v ∈ s.windowsOf session ∧ v ≠ w := by
  have hlist : ((s.dropWindow w).deleteWindow w).windowsOf session =
      (s.dropWindow w).windowsOf session := rfl
  rw [hlist,windowsOf_dropWindow_of_listed (h.listed session),List.mem_filter,decide_eq_true_iff]

/-- As long as one window is left the list is the old one without the window. -/
theorem mem_listedWindows_closed (h : s.Inv) {v₀ : WindowId} (hv₀ : v₀ ∈ s.listedWindows session)
    (hne : v₀ ≠ w) : v ∈ ((s.dropWindow w).deleteWindow w).listedWindows session ↔
      v ∈ s.listedWindows session ∧ v ≠ w := by
  set t := (s.dropWindow w).deleteWindow w with ht
  have hmem : ∀ x, x ∈ t.windowsOf session ↔ x ∈ s.windowsOf session ∧ x ≠ w :=
    fun x => mem_windowsOf_closed h
  have hstored : t.Stored session v ↔ s.Stored session v ∧ v ≠ w := by
    simp only [Stored,ht,deleteWindow,windowRows_dropWindow,List.mem_filter,decide_eq_true_eq]
    constructor
    · rintro ⟨r,⟨hr,hrw⟩,hs,rfl⟩
      exact ⟨⟨r,hr,hs,rfl⟩,hrw⟩
    · rintro ⟨⟨r,hr,hs,rfl⟩,hrw⟩
      exact ⟨r,⟨hr,hrw⟩,hs,rfl⟩
  have hcold : t.windowsOf session = [] ↔ s.windowsOf session = [] := by
    constructor
    · intro hnil
      by_contra hwarm
      rw [listedWindows,if_neg hwarm] at hv₀
      have hkept := (hmem v₀).mpr ⟨hv₀,hne⟩
      rw [hnil] at hkept
      cases hkept
    · intro hnil
      rw [List.eq_nil_iff_forall_not_mem]
      intro x hx
      have hold := ((hmem x).mp hx).1
      rw [hnil] at hold
      cases hold
  rw [mem_listedWindows,mem_listedWindows,hcold,hstored,hmem]
  tauto

theorem Treed.dropWindow (h : s.Treed session) (hi : s.Inv) (hne : ∀ v q k, s.On v q k → v ≠ w) :
    ((s.dropWindow w).deleteWindow w).Treed session := by
  have hmap := (samePanes_dropWindow s w).2.2.1
  refine ⟨fun p hp => ?_,fun v hv => ?_⟩
  · have hp := live_dropWindow.mp hp
    obtain ⟨v,hv,hat,⟨tree,htree,hleaf⟩,honly⟩ := h.placed p hp
    obtain ⟨slot,-,hlookup⟩ := hp
    have hvw := hne v p _ ⟨hlookup,hat⟩
    refine ⟨v,(mem_windowsOf_closed hi).mpr ⟨hv,hvw⟩,?_,⟨tree,?_,hleaf⟩,fun x hx tree' ht' => ?_⟩
    · rw [deleteWindow,hmap]
      exact hat
    · rw [cachedTree_dropWindow_ne hvw]
      exact htree
    · obtain ⟨hx,hxw⟩ := (mem_windowsOf_closed hi).mp hx
      rw [savedTree_dropWindow_ne hxw] at ht'
      exact honly x hx tree' ht'
  · obtain ⟨hv,hvw⟩ := (mem_windowsOf_closed hi).mp hv
    rw [savedTree_dropWindow_ne hvw]
    exact h.trees v hv

theorem Lone.dropWindow {v₀ : WindowId} (h : s.Lone session p slot v₀) (hi : s.Inv)
    (hne : v₀ ≠ w) : ((s.dropWindow w).deleteWindow w).Lone session p slot v₀ := by
  obtain ⟨hindex,hworkers,-,-⟩ := samePanes_dropWindow s w
  obtain ⟨hmem,hnone,hothers⟩ := h.bare
  have hlist : ∀ v, v ∈ ((s.dropWindow w).deleteWindow w).listedWindows session ↔
      v ∈ s.listedWindows session ∧ v ≠ w := fun v => mem_listedWindows_closed hi hmem hne
  refine ⟨⟨fun q => ?_,⟨(hlist v₀).mpr ⟨hmem,hne⟩,?_,fun v hv hv₀ => ?_⟩,fun v hv => ?_⟩,?_⟩
  · rw [deleteWindow,hindex]
    exact h.at_slot q
  · rwa [savedTree_dropWindow_ne hne]
  · obtain ⟨hv,hvw⟩ := (hlist v).mp hv
    rw [savedTree_dropWindow_ne hvw]
    exact hothers v hv hv₀
  · obtain ⟨hv,hvw⟩ := (hlist v).mp hv
    rw [savedTree_dropWindow_ne hvw]
    exact h.away v hv
  · rw [SupervisorImpl.slots,deleteWindow,hworkers]
    exact h.slots

theorem loses_closePanesOf (s : SupervisorImpl) (w : WindowId) :
    ∃ gone, s.Loses (s.closePanesOf w) gone := by
  obtain ⟨gone,hr,-,-⟩ := removes_closePanesOf s w
  exact ⟨gone,hr,.closePanesOf s w,.closePanesOf s w⟩

/-- The live panes that are shown in the window for want of a tree are its own. -/
def Empties (s : SupervisorImpl) (w : WindowId) : Prop :=
  ∀ session p, s.Live session p → w ∈ s.listedWindows session → s.savedTree w = none →
    s.paneWindowMap.lookup p = some w

theorem inv_closeWindow (h : s.Inv) (w : WindowId) : (s.closeWindow w).Inv := by
  obtain ⟨gone,hl⟩ := loses_closePanesOf s w
  exact inv_dropWindow (hl.removes.inv h) fun v q k hon => on_closePanesOf h hon

theorem seen_closeWindow (h : s.Inv) (hempties : s.Empties w) (hs : s.Seen session) :
    (s.closeWindow w).Seen session := by
  obtain ⟨gone,hl⟩ := loses_closePanesOf s w
  have hi := hl.removes.inv h
  have hne : ∀ v q k, (s.closePanesOf w).On v q k → v ≠ w := fun v q k hon => on_closePanesOf h hon
  unfold closeWindow
  rcases hl.seen hs with hquiet | htreed | ⟨p,slot,v₀,hlone⟩
  · exact Or.inl fun p hp => hquiet p (live_dropWindow.mp hp)
  · exact Or.inr (Or.inl (htreed.dropWindow hi hne))
  · by_cases hv₀ : v₀ = w
    · -- its own panes are closed, so that none is left
      subst hv₀
      refine Or.inl fun q hq => ?_
      have hq := live_dropWindow.mp hq
      obtain ⟨hmem,hnone,-⟩ := hlone.bare
      have hmap := hempties session q (hl.live hq) (hl.windows.mem_listedWindows.mp hmem)
        ((hl.savedTree_eq_none v₀).mp hnone)
      obtain ⟨x,hx,hlookup⟩ := id hq
      exact hne v₀ q _ ⟨hlookup,hl.mapped hq hmap⟩ rfl
    · exact Or.inr (Or.inr ⟨p,slot,v₀,hlone.dropWindow hi hv₀⟩)

end SupervisorImpl

end Pyre.Supervisor
