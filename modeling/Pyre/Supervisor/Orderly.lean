import Pyre.Layout.Tiling
import Pyre.Supervisor.Failures
import Pyre.Supervisor.Listing
import Pyre.Supervisor.WindowCache

/-!
The supervisor while its sessions only grow, but for windows that are closed whole: panes
are spawned, opened and split off, windows made, closed and renamed, weights set and panes
renamed. What holds between the tables in every such run.
-/

set_option autoImplicit false

namespace Pyre.Supervisor
open Base

/-- With the names of panes, which are in the store alone. -/
structure NamedSupervisor where
  impl : SupervisorImpl
  names : Table PaneId String

inductive ClientCall where
  | spawn (session : SessionKey) (pane : PaneId) (w : WindowId)
  | openPane (session : SessionKey) (asked : Option WindowId) (pane : PaneId) (fresh : WindowId)
  | openPaneSplit (parent : PaneId) (orient : Orient) (pane : PaneId) (fresh : WindowId)
  | newWindow (session : SessionKey) (name : Option String) (w : WindowId)
  | renameWindow (w : WindowId) (name : String)
  | closeWindow (w : WindowId)
  | setPaneWeight (pane : PaneId) (weight : UInt16)
  | renamePane (pane : PaneId) (name : String)
  | listPanes (session : SessionKey) (listed : List (UInt32 × PaneId)) (fresh : WindowId)
  | listWindows (session : SessionKey)
  | getWindowLayout (w : WindowId) (first : UInt32) (fresh : PaneId)
  deriving DecidableEq, Repr

namespace NamedSupervisor

def empty : NamedSupervisor := ⟨.empty,∅⟩

/-- `Store::get_pane_name` -/
def paneName (d : NamedSupervisor) (pane : PaneId) : Option String :=
  (d.names.lookup pane).filter (· ≠ "")

/-- An identifier that has just been drawn is in no table and no tree. -/
def Unseen (d : NamedSupervisor) (pane : PaneId) : Prop :=
  d.impl.UnusedPane pane ∧ d.names.lookup pane = none ∧
    (∀ info ∈ d.impl.windowStore.values, ∀ tree ∈ info.layout, pane ∉ tree.allLeaves) ∧
    ∀ r ∈ d.impl.windowRows, ∀ tree ∈ r.layout, pane ∉ tree.allLeaves

instance (d : NamedSupervisor) (pane : PaneId) : Decidable (d.Unseen pane) :=
  inferInstanceAs (Decidable (_ ∧ _ ∧ _ ∧ _))

/-- The call has drawn no identifier but new ones. A pane is opened into the default window
or into one of the session's own. -/
def Admits (d : NamedSupervisor) : ClientCall → Prop
  | .spawn _ pane _ | .openPaneSplit _ _ pane _ | .getWindowLayout _ _ pane => d.Unseen pane
  | .openPane session asked pane _ =>
    d.Unseen pane ∧ ∀ w ∈ asked, w ∈ d.impl.windowsOf session
  | .listPanes _ listed _ => ∀ e ∈ listed, d.Unseen e.2
  | .newWindow _ _ _ | .renameWindow _ _ | .closeWindow _ | .setPaneWeight _ _
  | .renamePane _ _ | .listWindows _ => True

instance (d : NamedSupervisor) : (a : ClientCall) → Decidable (d.Admits a)
  | .spawn _ _ _ | .openPaneSplit _ _ _ _ | .getWindowLayout _ _ _ =>
    inferInstanceAs (Decidable (NamedSupervisor.Unseen _ _))
  | .openPane _ _ _ _ => inferInstanceAs (Decidable (_ ∧ _))
  | .listPanes _ listed _ => inferInstanceAs (Decidable (∀ e ∈ listed, _))
  | .newWindow _ _ _ | .renameWindow _ _ | .closeWindow _ | .setPaneWeight _ _
  | .renamePane _ _ | .listWindows _ => isTrue trivial

def serve (s : SupervisorImpl) : ClientCall → Option SupervisorImpl
  | .spawn session pane w => s.step (.spawn session pane w)
  | .openPane session asked pane fresh => s.step (.openPane session asked pane fresh)
  | .openPaneSplit parent orient pane fresh => s.step (.openPaneSplit parent orient pane fresh)
  | .newWindow session name w => s.step (.newWindow session name w)
  | .renameWindow w name => some (s.renameWindowRpc w name (.ok ())).1
  | .closeWindow w => s.step (.closeWindow w)
  | .setPaneWeight pane weight => some (s.setPaneWeightRpc pane weight (.ok ())).1
  | .renamePane _ _ => some s
  | .listPanes session listed fresh => s.step (.listPanes session listed fresh)
  | .listWindows session => some (s.loadWindows session)
  | .getWindowLayout w first fresh => s.step (.getWindowLayout w first fresh)

/-- `rename_pane`: the pane has to be in the index. -/
def rename (d : NamedSupervisor) : ClientCall → Table PaneId String
  | .renamePane pane name =>
    if (d.impl.index.lookup pane).isSome then d.names.insert pane name else d.names
  | _ => d.names

def step (d : NamedSupervisor) (a : ClientCall) : Option NamedSupervisor :=
  if d.Admits a then (serve d.impl a).map fun s => ⟨s,d.rename a⟩ else none

end NamedSupervisor

namespace SupervisorImpl

/-- `windows`: those listed for a session are those known of it. `stored`: they are those the
store has of it. `opened`, `registered`: the index has a pane at the open slots and at no
others. `placed`: each pane is in a window of its session. `unsaved`: a tree that was never
stored is a leaf. -/
structure Orderly (s : SupervisorImpl) : Prop where
  windows : ∀ session v, v ∈ s.windowsOf session ↔ s.sessionOf v = some session
  nodup : ∀ session, (s.windowsOf session).Nodup
  stored : ∀ session v, s.Stored session v ↔ v ∈ s.windowsOf session
  keyed : (s.windowRows.map WindowRow.id).Nodup
  distinct : ∀ session, (s.slots session).Nodup
  opened : ∀ p k, s.index.lookup p = some k → k.2 ∈ s.slots k.1
  registered : ∀ session, ∀ slot ∈ s.slots session, ∃ p, s.index.lookup p = some (session,slot)
  staffed : ∀ session, s.workers.lookup session ≠ some []
  rows : ∀ p v, s.paneWindowMap.lookup p = some v → s.paneRows.lookup p = some v
  placed : ∀ p k, s.index.lookup p = some k →
    ∃ v ∈ s.windowsOf k.1, s.paneWindowMap.lookup p = some v
  cachedTrees : ∀ v info tree, s.windowStore.lookup v = some info → info.layout = some tree →
    tree.Sound
  storedTrees : ∀ r ∈ s.windowRows, ∀ tree, r.layout = some tree → tree.Sound
  unsaved : ∀ v info tree, s.windowStore.lookup v = some info → info.layout = some tree →
    s.windowLayoutJson v = none → ∃ p, tree = .leaf p

variable {s t : SupervisorImpl} {session : SessionKey} {v w : WindowId} {p q : PaneId}
  {k : SlotKey} {tree : LayoutNode}

theorem orderly_empty : empty.Orderly := by
  refine ⟨?_,?_,?_,by simp [empty],fun session => List.nodup_nil,?_,?_,?_,?_,?_,?_,?_,?_⟩
  · intro session v
    exact iff_of_false (by simp [empty,windowsOf]) (by simp [empty,sessionOf])
  · intro session
    simp [empty,windowsOf]
  · intro session v
    exact iff_of_false (by simp [empty,Stored]) (by simp [empty,windowsOf])
  · intro p k h
    cases h
  · intro session slot h
    cases h
  · intro session h
    cases h
  · intro p v h
    cases h
  · intro p k h
    cases h
  · intro v info tree h
    cases h
  · intro r h
    cases h
  · intro v info tree h
    cases h

/-! What changes only layouts and names. -/

/-- The tables of the panes are as they were, and so are the windows of each session. -/
theorem Orderly.of_same (h : s.Orderly) (hpanes : s.SamePanes t) (hwindows : s.SameWindows t)
    (hcached : ∀ v info tree, t.windowStore.lookup v = some info → info.layout = some tree →
      tree.Sound)
    (hstored : ∀ r ∈ t.windowRows, ∀ tree, r.layout = some tree → tree.Sound)
    (hunsaved : ∀ v info tree, t.windowStore.lookup v = some info → info.layout = some tree →
      t.windowLayoutJson v = none → ∃ p, tree = .leaf p) : t.Orderly := by
  have hlist : ∀ session, t.windowsOf session = s.windowsOf session := by
    intro session
    rw [windowsOf,windowsOf,hpanes.sessionWindows]
  have hslots : ∀ session, t.slots session = s.slots session := by
    intro session
    rw [slots,slots,hpanes.workers]
  exact
    { windows := fun session v => by rw [hlist,hwindows.sessionOf,h.windows]
      nodup := fun session => hlist session ▸ h.nodup session
      stored := fun session v => by
        rw [hlist,← h.stored]
        exact hwindows.stored session v
      keyed := hwindows.ids ▸ h.keyed
      distinct := fun session => hslots session ▸ h.distinct session
      opened := fun p k hp => by
        rw [hpanes.index] at hp
        exact hslots k.1 ▸ h.opened p k hp
      registered := fun session slot hslot => by
        rw [hpanes.index]
        exact h.registered session slot (hslots session ▸ hslot)
      staffed := fun session => by
        rw [hpanes.workers]
        exact h.staffed session
      rows := fun p v hp => by
        rw [hpanes.paneWindowMap] at hp
        rw [hpanes.paneRows]
        exact h.rows p v hp
      placed := fun p k hp => by
        rw [hpanes.index] at hp
        rw [hlist,hpanes.paneWindowMap]
        exact h.placed p k hp
      cachedTrees := hcached
      storedTrees := hstored
      unsaved := hunsaved }

theorem Orderly.row_of_known (h : s.Orderly) (hw : s.sessionOf w ≠ none) :
    ∃ r ∈ s.windowRows, r.id = w := by
  obtain ⟨session,hs⟩ := Option.ne_none_iff_exists'.mp hw
  obtain ⟨r,hr,-,hid⟩ := (h.stored session w).mpr ((h.windows session w).mpr hs)
  exact ⟨r,hr,hid⟩

/-- Once a tree is stored for a window that has a row, it is there to be read. -/
theorem windowLayoutJson_upsertWindowLayout_self (hrow : ∃ r ∈ s.windowRows, r.id = w)
    (tree : LayoutNode) : (s.upsertWindowLayout w tree).windowLayoutJson w = some tree := by
  obtain ⟨r,hr,hid⟩ := hrow
  have hfind : ((s.upsertWindowLayout w tree).windowRows.find? fun r => r.id = w).isSome := by
    rw [List.find?_isSome]
    refine ⟨{ r with layout := some tree },List.mem_map.mpr ⟨r,hr,if_pos hid⟩,by simpa using hid⟩
  obtain ⟨r',hr'⟩ := Option.isSome_iff_exists.mp hfind
  have hid' : r'.id = w := by simpa using List.find?_some hr'
  obtain ⟨r₀,-,hr₀⟩ := List.mem_map.mp (List.mem_of_find?_eq_some hr')
  rw [windowLayoutJson,hr',Option.bind_some]
  split at hr₀
  · rw [← hr₀]
  · rename_i hne
    exact absurd (hr₀ ▸ hid') hne

theorem windowLayoutJson_setLayout (s : SupervisorImpl) (w v : WindowId) (tree : LayoutNode) :
    (s.setLayout w tree).windowLayoutJson v = s.windowLayoutJson v := by
  rw [windowLayoutJson,windowRows_setLayout,windowLayoutJson]

/-- The window's tree is as given or as before. -/
theorem lookup_setLayout {info : WindowMeta}
    (h : (s.setLayout w tree).windowStore.lookup v = some info) :
    v = w ∧ info.layout = some tree ∨ s.windowStore.lookup v = some info := by
  unfold setLayout at h
  split at h
  · by_cases hv : v = w
    · subst hv
      rw [lookup_setMeta_self,Option.some.injEq] at h
      exact Or.inl ⟨rfl,h ▸ rfl⟩
    · rw [lookup_setMeta_ne hv] at h
      exact Or.inr h
  · exact Or.inr h

/-- A new tree goes into both places. -/
theorem orderly_storeLayout (h : s.Orderly) (hw : s.sessionOf w ≠ none) (ht : tree.Sound) :
    ((s.setLayout w tree).upsertWindowLayout w tree).Orderly := by
  refine h.of_same (samePanes_storeLayout s w tree) (SameWindows.storeLayout s w tree) ?_ ?_ ?_
  · intro v info tree' hinfo hlayout
    have hinfo : (s.setLayout w tree).windowStore.lookup v = some info := hinfo
    rcases lookup_setLayout hinfo with ⟨-,hself⟩ | hold
    · obtain rfl := Option.some.inj (hself.symm.trans hlayout)
      exact ht
    · exact h.cachedTrees v info tree' hold hlayout
  · intro r hr tree' hlayout
    obtain ⟨r₀,hr₀,rfl⟩ := List.mem_map.mp hr
    rw [windowRows_setLayout] at hr₀
    split at hlayout
    · obtain rfl := Option.some.inj hlayout
      exact ht
    · exact h.storedTrees r₀ hr₀ tree' hlayout
  · intro v info tree' hinfo hlayout hnone
    have hinfo : (s.setLayout w tree).windowStore.lookup v = some info := hinfo
    by_cases hv : v = w
    · subst hv
      have hrow := h.row_of_known hw
      rw [windowLayoutJson_upsertWindowLayout_self (by rwa [windowRows_setLayout])] at hnone
      cases hnone
    · rw [windowLayoutJson_upsertWindowLayout hv,windowLayoutJson_setLayout] at hnone
      rcases lookup_setLayout hinfo with ⟨heq,-⟩ | hold
      · exact absurd heq hv
      · exact h.unsaved v info tree' hold hlayout hnone

/-- The tree read from the store goes into memory. -/
theorem orderly_setLayout (h : s.Orderly) (ht : s.treeOf w = some tree) :
    (s.setLayout w tree).Orderly := by
  obtain ⟨info₀,hinfo₀,hor⟩ := Option.bind_eq_some_iff.mp ht
  rw [Option.or_eq_some_iff] at hor
  refine h.of_same (samePanes_setLayout s w tree) (SameWindows.setLayout s w tree) ?_ ?_ ?_
  · intro v info tree' hinfo hlayout
    rcases lookup_setLayout hinfo with ⟨-,hself⟩ | hold
    · obtain rfl := Option.some.inj (hself.symm.trans hlayout)
      rcases hor with hcached | ⟨-,hjson⟩
      · exact h.cachedTrees w info₀ tree hinfo₀ hcached
      · obtain ⟨r,hr,hlayout⟩ := Option.bind_eq_some_iff.mp hjson
        exact h.storedTrees r (List.mem_of_find?_eq_some hr) tree hlayout
    · exact h.cachedTrees v info tree' hold hlayout
  · intro r hr
    rw [windowRows_setLayout] at hr
    exact h.storedTrees r hr
  · intro v info tree' hinfo hlayout hnone
    rw [windowLayoutJson_setLayout] at hnone
    rcases lookup_setLayout hinfo with ⟨rfl,hself⟩ | hold
    · obtain rfl := Option.some.inj (hself.symm.trans hlayout)
      rcases hor with hcached | ⟨-,hjson⟩
      · exact h.unsaved v info₀ tree hinfo₀ hcached hnone
      · exact absurd (hnone.symm.trans hjson) (by simp)
    · exact h.unsaved v info tree' hold hlayout hnone

theorem Orderly.sound (h : s.Orderly) (ht : s.treeOf w = some tree) : tree.Sound := by
  obtain ⟨info,hinfo,hor⟩ := Option.bind_eq_some_iff.mp ht
  rw [Option.or_eq_some_iff] at hor
  rcases hor with hcached | ⟨-,hjson⟩
  · exact h.cachedTrees w info tree hinfo hcached
  · obtain ⟨r,hr,hlayout⟩ := Option.bind_eq_some_iff.mp hjson
    exact h.storedTrees r (List.mem_of_find?_eq_some hr) tree hlayout

theorem sessionOf_ne_none_of_treeOf (ht : s.treeOf w = some tree) : s.sessionOf w ≠ none := by
  obtain ⟨session,hs⟩ := sessionOf_of_treeOf ht
  simp [hs]

theorem sound_close (h : tree.Sound) (pane : PaneId) : (tree.close pane).1.Sound :=
  (LayoutNode.sound_step (a := .close pane) h rfl).1

theorem sound_foldl_close {panes : List PaneId} (h : tree.Sound) :
    (panes.foldl (fun t p => (t.close p).1) tree).Sound := by
  induction panes generalizing tree with
  | nil => exact h
  | cons p panes ih => exact ih (sound_close h p)

theorem orderly_unassign (h : s.Orderly) (hp : s.index.lookup p = none) :
    (s.unassign p).Orderly :=
  { h with
    rows := fun q v hq => h.rows q v (Table.lookup_erase_eq_some.mp hq).2
    placed := fun q k hq => by
      obtain ⟨v,hv,hmap⟩ := h.placed q k hq
      refine ⟨v,hv,Table.lookup_erase_eq_some.mpr ⟨?_,hmap⟩⟩
      rintro rfl
      exact absurd (hp.symm.trans hq) (by simp) }

theorem orderly_prunePane (h : s.Orderly) (hp : s.index.lookup p = none) :
    (s.prunePane p).Orderly := by
  unfold prunePane
  split
  · exact h
  · rename_i w hw
    have hun := orderly_unassign h hp
    simp only
    split
    · exact hun
    · rename_i tree htree
      have ht := treeOf_of_layout (s := s.unassign p) htree
      exact orderly_storeLayout hun (sessionOf_ne_none_of_treeOf ht)
        (sound_close (hun.sound ht) p)

theorem orderly_setPaneWeight (h : s.Orderly) (pane : PaneId) (weight : UInt16) :
    (s.setPaneWeightRpc pane weight (.ok ())).1.Orderly := by
  unfold setPaneWeightRpc
  split
  · exact h
  · split
    · exact h
    · rename_i w _ tree htree
      have ht := treeOf_of_layout htree
      exact orderly_storeLayout h (sessionOf_ne_none_of_treeOf ht)
        (LayoutNode.sound_step (a := .setWeight pane weight) (h.sound ht) rfl).1

theorem lookup_renameMeta {info : WindowMeta} {name : String}
    (h : (s.renameMeta w name).windowStore.lookup v = some info) :
    ∃ info', s.windowStore.lookup v = some info' ∧ info.session = info'.session ∧
      info.layout = info'.layout ∧ info.position = info'.position := by
  unfold renameMeta at h
  split at h
  · rename_i info₀ hinfo₀
    by_cases hv : v = w
    · subst hv
      rw [lookup_setMeta_self,Option.some.injEq] at h
      exact ⟨info₀,hinfo₀,h ▸ rfl,h ▸ rfl,h ▸ rfl⟩
    · rw [lookup_setMeta_ne hv] at h
      exact ⟨info,h,rfl,rfl,rfl⟩
  · exact ⟨info,h,rfl,rfl,rfl⟩

theorem orderly_renameWindow (h : s.Orderly) (w : WindowId) (name : String) :
    (s.renameWindowRpc w name (.ok ())).1.Orderly := by
  have hpanes : s.SamePanes ((s.renameMeta w name).renameRow w name) := by
    unfold renameMeta
    split <;> exact ⟨rfl,rfl,rfl,rfl,rfl⟩
  have hrows : (s.renameMeta w name).windowRows = s.windowRows := by
    unfold renameMeta
    split <;> rfl
  have hmeta : ∀ v, (((s.renameMeta w name).windowStore.lookup v).map fun i =>
      (i.session,i.position)) = (s.windowStore.lookup v).map fun i => (i.session,i.position) := by
    intro v
    unfold renameMeta
    split
    · rename_i info hinfo
      by_cases hv : v = w
      · subst hv
        rw [lookup_setMeta_self,hinfo]
        rfl
      · rw [lookup_setMeta_ne hv]
    · rfl
  have hjson : ∀ v, ((s.renameMeta w name).renameRow w name).windowLayoutJson v =
      s.windowLayoutJson v := by
    intro v
    have hid : ((fun r : WindowRow => decide (r.id = v)) ∘ fun r : WindowRow =>
        if r.id = w then { r with name := name } else r) = fun r => decide (r.id = v) := by
      funext r
      simp only [Function.comp_apply]
      split <;> rfl
    simp only [windowLayoutJson,renameRow,hrows,List.find?_map,hid]
    cases s.windowRows.find? fun r => r.id = v with
    | none => rfl
    | some r =>
      simp only [Option.map_some,Option.bind_some]
      split <;> rfl
  have hwindows : s.SameWindows ((s.renameMeta w name).renameRow w name) :=
    { sessionWindows := hpanes.sessionWindows
      sessionOf := fun v => by
        have hv := congrArg (Option.map Prod.fst) (hmeta v)
        rwa [Option.map_map,Option.map_map] at hv
      positionOf := fun v => by
        have hv := congrArg (Option.map Prod.snd) (hmeta v)
        rwa [Option.map_map,Option.map_map] at hv
      places := by
        rw [renameRow,hrows,List.map_map]
        refine List.map_congr_left fun r _ => ?_
        simp only [Function.comp_apply]
        split <;> rfl }
  refine h.of_same hpanes hwindows (fun v info tree hinfo hlayout => ?_)
    (fun r hr tree hlayout => ?_) fun v info tree hinfo hlayout hnone => ?_
  · obtain ⟨info',hinfo',-,hsame,-⟩ := lookup_renameMeta hinfo
    exact h.cachedTrees v info' tree hinfo' (hsame ▸ hlayout)
  · obtain ⟨r₀,hr₀,rfl⟩ := List.mem_map.mp hr
    rw [hrows] at hr₀
    refine h.storedTrees r₀ hr₀ tree ?_
    split at hlayout <;> exact hlayout
  · obtain ⟨info',hinfo',-,hsame,-⟩ := lookup_renameMeta hinfo
    exact h.unsaved v info' tree hinfo' (hsame ▸ hlayout) ((hjson v).symm.trans hnone)

/-- Every open slot is known, so that nothing is drawn for it. -/
theorem Orderly.getOrAlloc (h : s.Orderly) {slot : UInt32} (hslot : slot ∈ s.slots session)
    (fresh : PaneId) : ∃ p, s.getOrAllocPaneBySlot session slot fresh = (s,some p) ∧
      s.index.lookup p = some (session,slot) := by
  obtain ⟨q,hq⟩ := h.registered session slot hslot
  cases hfind : s.index.paneIdBySlot session slot with
  | none => exact absurd hq (PaneIndex.paneIdBySlot_eq_none.mp hfind q)
  | some p =>
    refine ⟨p,?_,PaneIndex.lookup_of_paneIdBySlot hfind⟩
    simp only [getOrAllocPaneBySlot,PaneIndex.getOrAllocPaneBySlot,hfind]

theorem orderly_getWindowLayout (h : s.Orderly) (w : WindowId) (first : UInt32) (fresh : PaneId) :
    (s.getWindowLayout w first fresh).1.Orderly := by
  cases hw : s.windowStore.lookup w with
  | none => simpa only [getWindowLayout,hw] using h
  | some info =>
    cases ht : s.treeOf w with
    | none =>
      by_cases hfirst : first ∈ s.slots info.session
      · obtain ⟨p,hget,-⟩ := h.getOrAlloc hfirst fresh
        simpa only [getWindowLayout,hw,ht,if_pos hfirst,hget] using h
      · simpa only [getWindowLayout,hw,ht,if_neg hfirst] using h
    | some tree =>
      have hset := orderly_setLayout h ht
      obtain ⟨tree',-,⟨-,-,hstate⟩ | ⟨rfl,-,hstate⟩⟩ := getWindowLayout_of_tree hw ht first fresh
      · exact hstate ▸ hset
      · rw [hstate]
        refine orderly_storeLayout hset ?_ (sound_foldl_close (h.sound ht))
        rw [sessionOf_setLayout]
        exact sessionOf_ne_none_of_treeOf ht

/-- No pane that is listed is without a window. -/
theorem Orderly.settled (h : s.Orderly) (session : SessionKey) : s.Settled session := by
  intro slot hslot
  obtain ⟨p,hp⟩ := h.registered session slot hslot
  refine ⟨fun hr => (registers_iff.mp hr).1 p hp,fun q hq => ?_⟩
  obtain ⟨v,-,hv⟩ := h.placed q _ hq
  simp [hv]

/-- A session without windows in memory has none in the store. -/
theorem Orderly.loadWindows (h : s.Orderly) (session : SessionKey) :
    s.loadWindows session = s := by
  unfold SupervisorImpl.loadWindows
  split
  · rename_i hcold
    have hnone : s.listWindows session = [] := by
      refine List.eq_nil_iff_forall_not_mem.mpr fun r hr => ?_
      have hmem := (h.stored session r.id).mp (stored_iff.mpr ⟨r,hr,rfl⟩)
      rw [hcold] at hmem
      cases hmem
    rw [hnone]
    rfl
  · rfl

/-! Windows that are closed whole. -/

theorem exists_of_paneCount {ix : PaneIndex} (h : ix.paneCount session ≠ 0) :
    ∃ q slot, ix.lookup q = some (session,slot) := by
  by_contra hnone
  push Not at hnone
  refine h (SupervisorImpl.paneCount_eq_zero_iff.mpr fun q k hq hs => ?_)
  obtain ⟨_,slot⟩ := k
  obtain rfl := hs
  exact hnone q slot hq

/-- One slot less, in the index and at its worker. -/
theorem Orderly.withoutSlot (h : s.Orderly) {slot : UInt32} {t : SupervisorImpl}
    (ht : t = { s with index := t.index, workers := t.workers })
    (hindex : ∀ q k, t.index.lookup q = some k ↔ s.index.lookup q = some k ∧ k ≠ (session,slot))
    (hslots : ∀ session' slot', slot' ∈ t.slots session' ↔
      slot' ∈ s.slots session' ∧ (session',slot') ≠ (session,slot))
    (hdistinct : ∀ session', (t.slots session').Nodup)
    (hstaffed : ∀ session', t.workers.lookup session' ≠ some []) : t.Orderly := by
  have hkeep : Orderly { s with index := t.index, workers := t.workers } :=
    { h with
      distinct := hdistinct
      opened := fun q k hq => by
        obtain ⟨hold,hne⟩ := (hindex q k).mp hq
        exact (hslots k.1 k.2).mpr ⟨h.opened q k hold,hne⟩
      registered := fun session' slot' hslot => by
        obtain ⟨hold,hne⟩ := (hslots session' slot').mp hslot
        obtain ⟨q,hq⟩ := h.registered session' slot' hold
        exact ⟨q,(hindex q _).mpr ⟨hq,hne⟩⟩
      staffed := hstaffed
      placed := fun q k hq => h.placed q k ((hindex q k).mp hq).1 }
  rwa [ht]

/-- A worker that has closed a slot is left with the panes at the others, if there are any. -/
theorem orderly_evict (h : s.Orderly) {slot : UInt32} :
    let u : SupervisorImpl :=
      { s.closeSlot session slot with index := (s.index.removePaneSlot session slot).1 }
    (if u.index.paneCount session = 0 then u.removeSession session else u).Orderly := by
  intro u
  have hix : ∀ q k, u.index.lookup q = some k ↔
      s.index.lookup q = some k ∧ k ≠ (session,slot) :=
    fun q k => PaneIndex.lookup_removePaneSlot
  have hslots : ∀ session', u.slots session' =
      if session' = session then (s.slots session).filter (· ≠ slot) else s.slots session' :=
    fun session' => slots_registerWorker s session session' _
  have hkept : ∀ session' slot', slot' ∈ u.slots session' ↔
      slot' ∈ s.slots session' ∧ (session',slot') ≠ (session,slot) := by
    intro session' slot'
    rw [hslots]
    split
    · rename_i heq
      subst heq
      simp
    · rename_i hne
      simp [hne]
  have hnodup : ∀ session', (u.slots session').Nodup := by
    intro session'
    rw [hslots]
    split
    · exact (h.distinct session).filter _
    · exact h.distinct session'
  split
  · rename_i hzero
    have hgone : ∀ q k, u.index.lookup q = some k → k.1 ≠ session :=
      fun q k hq => session_of_paneCount hzero hq
    have hindex : ∀ q k, (u.removeSession session).index.lookup q = some k ↔
        s.index.lookup q = some k ∧ k ≠ (session,slot) := by
      intro q k
      rw [← hix]
      exact PaneIndex.lookup_removeSession.trans (and_iff_left_of_imp (hgone q k))
    have hopen : ∀ session' slot', slot' ∈ (u.removeSession session).slots session' ↔
        slot' ∈ s.slots session' ∧ (session',slot') ≠ (session,slot) := by
      intro session' slot'
      rw [← hkept]
      by_cases heq : session' = session
      · subst heq
        refine iff_of_false (by simp [SupervisorImpl.slots,removeSession]) fun hslot => ?_
        obtain ⟨hold,hne⟩ := (hkept session' slot').mp hslot
        obtain ⟨q,hq⟩ := h.registered session' slot' hold
        exact hgone q _ ((hix q _).mpr ⟨hq,hne⟩) rfl
      · rw [SupervisorImpl.slots,removeSession,AList.lookup_erase_ne heq,SupervisorImpl.slots]
    have hdistinct : ∀ session', ((u.removeSession session).slots session').Nodup := by
      intro session'
      by_cases heq : session' = session
      · subst heq
        simp [SupervisorImpl.slots,removeSession]
      · rw [SupervisorImpl.slots,removeSession,AList.lookup_erase_ne heq,← SupervisorImpl.slots]
        exact hnodup session'
    refine h.withoutSlot rfl hindex hopen hdistinct fun session' hnil => ?_
    have hworkers : (u.removeSession session).workers =
        (s.workers.insert session ((s.slots session).filter (· ≠ slot))).erase session := rfl
    rw [hworkers,Table.lookup_erase_eq_some] at hnil
    rw [AList.lookup_insert_ne hnil.1] at hnil
    exact h.staffed session' hnil.2
  · rename_i hmore
    refine h.withoutSlot rfl hix hkept hnodup fun session' hnil => ?_
    by_cases heq : session' = session
    · subst heq
      obtain ⟨q,slot',hq⟩ := exists_of_paneCount hmore
      obtain ⟨hold,hne⟩ := (hix q _).mp hq
      have hmem := (hkept session' slot').mpr ⟨h.opened q _ hold,hne⟩
      rw [SupervisorImpl.slots,hnil] at hmem
      cases hmem
    · have hworkers : u.workers =
          s.workers.insert session ((s.slots session).filter (· ≠ slot)) := rfl
      rw [hworkers,AList.lookup_insert_ne heq] at hnil
      exact h.staffed session' hnil

theorem orderly_closeOnWorker (h : s.Orderly) (p : PaneId) : (s.closeOnWorker p).Orderly := by
  unfold closeOnWorker
  cases hp : s.index.lookup p with
  | none => exact h
  | some k =>
    obtain ⟨session,slot⟩ := k
    have hopen := h.opened p _ hp
    obtain ⟨q,hget,hq⟩ := h.getOrAlloc hopen p
    have hfound : (s.closeSlot session slot).index.getOrAllocPaneBySlot session slot p =
        (s.index,some q) := by
      have hindex := congrArg (fun r => (r.1.index,r.2)) hget
      exact hindex
    simp only [workerClose,if_pos hopen]
    rw [paneClosed_evict _ session slot p rfl,hfound]
    refine orderly_prunePane (orderly_evict h) ?_
    rw [Option.eq_none_iff_forall_ne_some]
    intro k hk
    have hne : ∀ k, (s.index.removePaneSlot session slot).1.lookup q ≠ some k := by
      intro k hk
      obtain ⟨hat,hne⟩ := PaneIndex.lookup_removePaneSlot.mp hk
      exact hne (Option.some.inj (hat.symm.trans hq))
    split at hk
    · exact hne k (PaneIndex.lookup_removeSession.mp hk).1
    · exact hne k hk

theorem index_closeOnWorker (h : s.Orderly) (p : PaneId) :
    (s.closeOnWorker p).index.lookup p = none := by
  rw [Option.eq_none_iff_forall_ne_some]
  intro k hk
  exact slot_closeOnWorker s p k hk ((orderly_closeOnWorker h p).opened p k hk)

theorem orderly_closePanes (panes : List PaneId) (h : s.Orderly) :
    (panes.foldl (fun s p => (s.closeOnWorker p).unassign p) s).Orderly ∧
      ∀ p ∈ panes,
        (panes.foldl (fun s p => (s.closeOnWorker p).unassign p) s).index.lookup p = none := by
  induction panes generalizing s with
  | nil => exact ⟨h,by simp⟩
  | cons p panes ih =>
    have hnone := index_closeOnWorker h p
    obtain ⟨hrest,hgone⟩ := ih (orderly_unassign (orderly_closeOnWorker h p) hnone)
    refine ⟨hrest,fun q hq => ?_⟩
    rcases List.mem_cons.mp hq with rfl | hq
    · obtain ⟨gone,hr,-,-⟩ := removes_closePanes panes ((s.closeOnWorker q).unassign q)
      rw [Option.eq_none_iff_forall_ne_some]
      intro k hk
      exact absurd (hnone.symm.trans (hr.lookup q k hk)) (by simp)
    · exact hgone q hq

theorem Orderly.windowsOf_dropWindow (h : s.Orderly) (session : SessionKey) (w : WindowId) :
    (s.dropWindow w).windowsOf session = (s.windowsOf session).filter (· ≠ w) :=
  SupervisorImpl.windowsOf_dropWindow_of_listed fun v hv => (h.windows session v).mp hv

/-- No pane is left in the window, so that no table has it any more. -/
theorem orderly_dropWindow (h : s.Orderly)
    (hempty : ∀ q, s.index.lookup q ≠ none → s.paneWindowMap.lookup q ≠ some w) :
    ((s.dropWindow w).deleteWindow w).Orderly := by
  obtain ⟨hindex,hworkers,hmap,hrows⟩ := samePanes_dropWindow s w
  set t := (s.dropWindow w).deleteWindow w with ht
  have hlist : ∀ session, t.windowsOf session = (s.windowsOf session).filter (· ≠ w) :=
    fun session => h.windowsOf_dropWindow session w
  have hmem : ∀ session v, v ∈ t.windowsOf session ↔ v ∈ s.windowsOf session ∧ v ≠ w := by
    intro session v
    rw [hlist,List.mem_filter,decide_eq_true_iff]
  have hself : t.windowStore.lookup w = none := lookup_dropWindow_self s w
  have hother : ∀ v, v ≠ w → t.windowStore.lookup v = s.windowStore.lookup v :=
    fun v hv => lookup_dropWindow_ne hv s
  have hrow : t.windowRows = s.windowRows.filter fun r => r.id ≠ w := by
    rw [ht,deleteWindow,windowRows_dropWindow]
  have hkept : ∀ v info, t.windowStore.lookup v = some info →
      v ≠ w ∧ s.windowStore.lookup v = some info := by
    intro v info hinfo
    have hv : v ≠ w := by
      rintro rfl
      rw [hself] at hinfo
      cases hinfo
    exact ⟨hv,hother v hv ▸ hinfo⟩
  have hslots : ∀ session, t.slots session = s.slots session := fun session =>
    congrArg (fun m : Table SessionKey (List UInt32) => (m.lookup session).getD []) hworkers
  exact
    { windows := fun session v => by
        rw [hmem]
        by_cases hv : v = w
        · subst hv
          simp [sessionOf,hself]
        · rw [sessionOf,hother v hv,← sessionOf,h.windows]
          exact and_iff_left hv
      nodup := fun session => hlist session ▸ (h.nodup session).filter _
      stored := fun session v => by
        rw [hmem,← h.stored]
        simp only [Stored,hrow,List.mem_filter,decide_eq_true_eq]
        constructor
        · rintro ⟨r,⟨hr,hne⟩,hs,rfl⟩
          exact ⟨⟨r,hr,hs,rfl⟩,hne⟩
        · rintro ⟨⟨r,hr,hs,rfl⟩,hne⟩
          exact ⟨r,⟨hr,hne⟩,hs,rfl⟩
      keyed := by
        rw [hrow]
        exact h.keyed.sublist (List.filter_sublist.map _)
      distinct := fun session => hslots session ▸ h.distinct session
      opened := fun p k hp => by
        rw [hslots]
        exact h.opened p k (hindex ▸ hp)
      registered := fun session slot hslot => by
        obtain ⟨p,hp⟩ := h.registered session slot (hslots session ▸ hslot)
        exact ⟨p,(congrArg (fun ix : PaneIndex => ix.lookup p) hindex).trans hp⟩
      staffed := fun session hnil => h.staffed session (hworkers ▸ hnil)
      rows := fun p v hp => by
        have hold := h.rows p v (hmap ▸ hp)
        exact (congrArg (fun m : Table PaneId WindowId => m.lookup p) hrows).trans hold
      placed := fun p k hp => by
        have hp' : s.index.lookup p = some k := hindex ▸ hp
        obtain ⟨v,hv,hpv⟩ := h.placed p k hp'
        refine ⟨v,(hmem k.1 v).mpr ⟨hv,?_⟩,?_⟩
        · rintro rfl
          exact hempty p (by simp [hp']) hpv
        · exact (congrArg (fun m : Table PaneId WindowId => m.lookup p) hmap).trans hpv
      cachedTrees := fun v info tree hinfo =>
        h.cachedTrees v info tree (hkept v info hinfo).2
      storedTrees := fun r hr => by
        rw [hrow] at hr
        exact h.storedTrees r (List.mem_filter.mp hr).1
      unsaved := fun v info tree hinfo hlayout hnone => by
        obtain ⟨hv,hold⟩ := hkept v info hinfo
        refine h.unsaved v info tree hold hlayout ?_
        rw [ht,windowLayoutJson_deleteWindow hv,windowLayoutJson,windowRows_dropWindow] at hnone
        exact hnone }

theorem orderly_closeWindow (h : s.Orderly) (w : WindowId) : (s.closeWindow w).Orderly := by
  obtain ⟨hclosed,hgone⟩ := orderly_closePanes (s.listPanesForWindow w) h
  obtain ⟨gone,hr,-,-⟩ := removes_closePanes (s.listPanesForWindow w) s
  refine orderly_dropWindow hclosed fun q hq hmap => hq ?_
  -- what is in the window is stored with it
  have hrow := hclosed.rows q w hmap
  rw [hr.rows] at hrow
  exact hgone q (mem_listPanesForWindow.mpr hrow)

/-! Windows and panes that come. -/

/-- A window of the session that is new, in the store without its tree. -/
def addWindow (s : SupervisorImpl) (w : WindowId) (info : WindowMeta) : SupervisorImpl :=
  ((s.upsertWindow w info.session info.name info.position).setMeta w info).pushWindow
    info.session w

theorem windowsOf_addWindow (s : SupervisorImpl) (w : WindowId) (info : WindowMeta)
    (session : SessionKey) : (s.addWindow w info).windowsOf session =
      if session = info.session then s.windowsOf session ++ [w] else s.windowsOf session := by
  by_cases heq : session = info.session
  · subst heq
    rw [if_pos rfl,addWindow,windowsOf_pushWindow]
    rfl
  · rw [if_neg heq]
    simp only [addWindow,pushWindow,windowsOf,AList.lookup_insert_ne heq]
    rfl

theorem orderly_addWindow (h : s.Orderly) (hw : s.UnusedWindow w) (info : WindowMeta)
    (hleaf : ∀ tree, info.layout = some tree → ∃ p, tree = .leaf p) :
    (s.addWindow w info).Orderly := by
  have hunknown : s.sessionOf w = none := by
    rw [sessionOf,hw.1]
    rfl
  have hnew : ∀ session, w ∉ s.windowsOf session := by
    intro session hmem
    exact absurd (hunknown.symm.trans ((h.windows session w).mp hmem)) (by simp)
  have hmem : ∀ session v, v ∈ (s.addWindow w info).windowsOf session ↔
      v ∈ s.windowsOf session ∨ v = w ∧ session = info.session := by
    intro session v
    rw [windowsOf_addWindow]
    split
    · rename_i heq
      simp [heq]
    · rename_i hne
      simp [hne]
  have hrows : (s.addWindow w info).windowRows =
      s.windowRows ++ [⟨w,info.session,info.name,info.position,none⟩] := rfl
  have hlookup : ∀ v info', (s.addWindow w info).windowStore.lookup v = some info' ↔
      v = w ∧ info' = info ∨ v ≠ w ∧ s.windowStore.lookup v = some info' :=
    fun v info' => Table.lookup_insert_eq_some
  have hsound : ∀ tree, info.layout = some tree → tree.Sound := by
    intro tree ht
    obtain ⟨p,rfl⟩ := hleaf tree ht
    exact ⟨.leaf p,by simp [LayoutNode.allLeaves]⟩
  exact
    { windows := fun session v => by
        rw [hmem,h.windows]
        by_cases hv : v = w
        · subst hv
          have hself : (s.addWindow v info).sessionOf v = some info.session :=
            sessionOf_setMeta_self (s.upsertWindow v info.session info.name info.position) v info
          rw [hself,hunknown]
          simp [eq_comm]
        · have hother : (s.addWindow w info).sessionOf v = s.sessionOf v :=
            sessionOf_setMeta_ne hv (s.upsertWindow w info.session info.name info.position) info
          rw [hother]
          simp [hv]
      nodup := fun session => by
        rw [windowsOf_addWindow]
        split
        · exact (h.nodup session).append (List.nodup_singleton w)
            (List.disjoint_singleton.mpr (hnew session))
        · exact h.nodup session
      stored := fun session v => by
        rw [hmem,← h.stored]
        simp only [Stored,hrows,List.mem_append,List.mem_singleton]
        constructor
        · rintro ⟨r,hr | rfl,hs,rfl⟩
          · exact Or.inl ⟨r,hr,hs,rfl⟩
          · exact Or.inr ⟨rfl,hs.symm⟩
        · rintro (⟨r,hr,hs,rfl⟩ | ⟨rfl,rfl⟩)
          · exact ⟨r,Or.inl hr,hs,rfl⟩
          · exact ⟨_,Or.inr rfl,rfl,rfl⟩
      keyed := by
        rw [hrows,List.map_append]
        refine h.keyed.append (List.nodup_singleton w) (List.disjoint_singleton.mpr fun hid => ?_)
        obtain ⟨r,hr,hid⟩ := List.mem_map.mp hid
        exact hw.2 r hr hid
      distinct := h.distinct
      opened := h.opened
      registered := h.registered
      staffed := h.staffed
      rows := h.rows
      placed := fun p k hp => by
        obtain ⟨v,hv,hmap⟩ := h.placed p k hp
        exact ⟨v,(hmem k.1 v).mpr (Or.inl hv),hmap⟩
      cachedTrees := fun v info' tree hinfo hlayout => by
        rcases (hlookup v info').mp hinfo with ⟨-,rfl⟩ | ⟨-,hold⟩
        · exact hsound tree hlayout
        · exact h.cachedTrees v info' tree hold hlayout
      storedTrees := fun r hr tree hlayout => by
        rw [hrows,List.mem_append,List.mem_singleton] at hr
        rcases hr with hr | rfl
        · exact h.storedTrees r hr tree hlayout
        · cases hlayout
      unsaved := fun v info' tree hinfo hlayout hnone => by
        have hjson : (s.addWindow w info).windowLayoutJson v = s.windowLayoutJson v :=
          windowLayoutJson_upsertWindow s w info.session info.name info.position v
        rcases (hlookup v info').mp hinfo with ⟨-,rfl⟩ | ⟨-,hold⟩
        · exact hleaf tree hlayout
        · exact h.unsaved v info' tree hold hlayout (hjson.symm.trans hnone) }

/-- A pane is opened at the next slot and put into a window of its session. -/
theorem orderly_open (h : s.Orderly) (hp : s.UnusedPane p) (hw : w ∈ s.windowsOf session) :
    ((s.openNext session p).assign p w).Orderly := by
  set t := (s.openNext session p).assign p w with ht
  have hlookup : ∀ q k, t.index.lookup q = some k ↔
      q = p ∧ k = (session,s.index.counter session) ∨ q ≠ p ∧ s.index.lookup q = some k :=
    fun q k => PaneIndex.lookup_allocPane
  have hself : t.slots session = (s.slots session).insert (s.index.counter session) :=
    slots_openNext_self s session p
  have hother : ∀ session', session' ≠ session → t.slots session' = s.slots session' :=
    fun session' hne => slots_openNext_ne hne s p
  have hkept : ∀ session' slot, slot ∈ s.slots session' → slot ∈ t.slots session' := by
    intro session' slot hslot
    by_cases heq : session' = session
    · subst heq
      rw [hself]
      exact List.mem_insert_of_mem hslot
    · rwa [hother session' heq]
  have hmap : ∀ q v, t.paneWindowMap.lookup q = some v ↔
      q = p ∧ v = w ∨ q ≠ p ∧ s.paneWindowMap.lookup q = some v :=
    fun q v => Table.lookup_insert_eq_some
  have hne : ∀ {q k}, s.index.lookup q = some k → q ≠ p := by
    rintro q k hq rfl
    exact absurd (hp.1.symm.trans hq) (by simp)
  exact { h with
    distinct := fun session' => by
      by_cases heq : session' = session
      · subst heq
        rw [hself]
        exact (h.distinct session').insert
      · rw [hother session' heq]
        exact h.distinct session'
    opened := fun q k hq => by
      rcases (hlookup q k).mp hq with ⟨rfl,rfl⟩ | ⟨-,hold⟩
      · rw [hself]
        exact List.mem_insert_self
      · exact hkept k.1 k.2 (h.opened q k hold)
    registered := fun session' slot hslot => by
      have hold : slot ∈ s.slots session' → ∃ q, t.index.lookup q = some (session',slot) := by
        intro hslot
        obtain ⟨q,hq⟩ := h.registered session' slot hslot
        exact ⟨q,(hlookup q _).mpr (Or.inr ⟨hne hq,hq⟩)⟩
      by_cases heq : session' = session
      · subst heq
        rw [hself,List.mem_insert_iff] at hslot
        rcases hslot with rfl | hslot
        · exact ⟨p,(hlookup p _).mpr (Or.inl ⟨rfl,rfl⟩)⟩
        · exact hold hslot
      · rw [hother session' heq] at hslot
        exact hold hslot
    staffed := fun session' hnil => by
      by_cases heq : session' = session
      · subst heq
        have hempty : t.slots session' = [] := by rw [slots,hnil]; rfl
        rw [hself] at hempty
        exact absurd hempty (List.ne_nil_of_mem List.mem_insert_self)
      · have hworkers : t.workers.lookup session' = s.workers.lookup session' :=
          AList.lookup_insert_ne heq
        exact h.staffed session' (hworkers ▸ hnil)
    rows := fun q v hq => by
      refine Table.lookup_insert_eq_some.mpr ?_
      exact ((hmap q v).mp hq).imp_right (And.imp_right (h.rows q v))
    placed := fun q k hq => by
      rcases (hlookup q k).mp hq with ⟨rfl,rfl⟩ | ⟨hqp,hold⟩
      · exact ⟨w,hw,(hmap q w).mpr (Or.inl ⟨rfl,rfl⟩)⟩
      · obtain ⟨v,hv,hqv⟩ := h.placed q k hold
        exact ⟨v,hv,(hmap q v).mpr (Or.inr ⟨hqp,hqv⟩)⟩ }

theorem orderly_spawn (h : s.Orderly) (hsession : s.UnusedSession session) (hp : s.UnusedPane p)
    (hw : s.UnusedWindow w) : (s.spawn session p w).Orderly := by
  have hspawn : s.spawn session p w =
      ((s.addWindow w ⟨session,"1",0,some (.leaf p)⟩).openNext session p).assign p w :=
    spawn_eq hsession.1 p w
  have hwindow : (s.addWindow w ⟨session,"1",0,some (.leaf p)⟩).Orderly :=
    orderly_addWindow h hw _ fun tree ht => ⟨p,(Option.some.inj ht).symm⟩
  rw [hspawn]
  refine orderly_open hwindow hp ?_
  rw [windowsOf_addWindow,if_pos rfl]
  exact List.mem_append_right _ List.mem_cons_self

theorem orderly_newWindow (h : s.Orderly) (hw : s.UnusedWindow w) (session : SessionKey)
    (name : Option String) : (s.newWindow session name w).Orderly := by
  set position : UInt32 := .ofNat (s.windowsOf session).length with hposition
  exact orderly_addWindow h hw ⟨session,name.getD (toString (position+1)),position,none⟩
    fun tree ht => by cases ht

theorem Orderly.inv (h : s.Orderly) : s.Inv := by
  have hrow : ∀ r ∈ s.windowRows, s.sessionOf r.id = some r.session := fun r hr =>
    (h.windows r.session r.id).mp ((h.stored r.session r.id).mp ⟨r,hr,rfl,rfl⟩)
  exact
    { rows := h.rows
      home := fun v q k hon => by
        obtain ⟨u,hu,hmap⟩ := h.placed q k hon.1
        obtain rfl := Option.some.inj (hon.2.symm.trans hmap)
        exact (h.windows k.1 v).mp hu
      listed := fun session v hv => (h.windows session v).mp hv
      staffed := fun v q k hon hnone => by
        have hopen := h.opened q k hon.1
        rw [slots,hnone] at hopen
        cases hopen
      stored := fun r hr session hs => Option.some.inj ((hrow r hr).symm.trans hs)
      keyed := fun r hr r' hr' heq =>
        Option.some.inj ((hrow r hr).symm.trans (heq ▸ hrow r' hr')) }

/-- The default window is of the session, and no window comes but a new one. -/
theorem orderly_default (h : s.Orderly) {fresh : WindowId} (hfresh : s.UnusedWindow fresh) :
    (s.getOrCreateDefaultWindow session fresh).1.Orderly ∧
      (s.getOrCreateDefaultWindow session fresh).2 ∈
        (s.getOrCreateDefaultWindow session fresh).1.windowsOf session := by
  refine ⟨?_,List.mem_of_head? (head_default s session fresh)⟩
  unfold getOrCreateDefaultWindow
  cases hhead : (s.windowsOf session).head? with
  | some w => exact h
  | none =>
    have hcold : s.windowsOf session = [] := by simpa using hhead
    cases hrow : (s.listWindows session).head? with
    | some row =>
      obtain ⟨hmem,hsession⟩ := mem_listWindows (List.mem_of_head? hrow)
      have hlisted := (h.stored session row.id).mp ⟨row,hmem,hsession,rfl⟩
      rw [hcold] at hlisted
      cases hlisted
    | none => exact orderly_addWindow h hfresh ⟨session,"1",0,none⟩ fun tree ht => by cases ht

theorem orderly_openPane (h : s.Orderly) (hp : s.UnusedPane p) {asked : Option WindowId}
    (hasked : ∀ w ∈ asked, w ∈ s.windowsOf session) {fresh : WindowId}
    (hfresh : s.UnusedWindow fresh) : (s.openPane session asked p fresh).Orderly := by
  rw [openPane_eq]
  have hresolved : (s.resolveWindow session asked fresh).1.Orderly ∧
      (s.resolveWindow session asked fresh).2 ∈
        (s.resolveWindow session asked fresh).1.windowsOf session ∧
      (s.resolveWindow session asked fresh).1.UnusedPane p := by
    cases asked with
    | some w => exact ⟨h,hasked w rfl,hp⟩
    | none =>
      have hdefault : (s.getOrCreateDefaultWindow session fresh).1.Orderly ∧
          (s.getOrCreateDefaultWindow session fresh).2 ∈
            (s.getOrCreateDefaultWindow session fresh).1.windowsOf session :=
        orderly_default h hfresh
      exact ⟨hdefault.1,hdefault.2,(resolves_default h.inv session hfresh).unused hp⟩
  obtain ⟨horderly,hmem,hunused⟩ := hresolved
  set u := (s.resolveWindow session asked fresh).1
  set w := (s.resolveWindow session asked fresh).2
  have hopen : u.openIn session p w = (u.openNext session p).assign p w := if_pos hmem
  rw [hopen]
  exact orderly_open horderly hunused hmem

/-- The parent's tree and the new pane's window may be written in either order. -/
theorem storeLayout_assign (s : SupervisorImpl) (w : WindowId) (tree : LayoutNode) (p : PaneId) :
    ((s.setLayout w tree).upsertWindowLayout w tree).assign p w =
      ((s.assign p w).setLayout w tree).upsertWindowLayout w tree := by
  have hsame : (s.assign p w).windowStore = s.windowStore := rfl
  unfold setLayout
  rw [hsame]
  cases s.windowStore.lookup w <;> rfl

theorem orderly_openPaneSplit (h : s.Orderly) (hp : s.UnusedPane p)
    (htrees : ∀ v info tree, s.windowStore.lookup v = some info → info.layout = some tree →
      p ∉ tree.allLeaves) {parent : PaneId} (hparent : s.index.lookup parent = some k)
    (orient : Orient) (fresh : WindowId) : (s.openPaneSplit k.1 parent orient p fresh).Orderly := by
  obtain ⟨w,hw,hmap⟩ := h.placed parent k hparent
  have hwindow : s.parentWindow k.1 parent fresh = (s,w) := by rw [parentWindow,hmap]
  obtain ⟨info,hinfo,-⟩ := Option.map_eq_some_iff.mp ((h.windows k.1 w).mp hw)
  set u := s.openNext k.1 p with hu
  have hknown : u.windowStore.lookup w = some info := hinfo
  rw [openPaneSplit_eq,hwindow,splitIn_eq,placeSplit_known hknown,storeLayout_assign]
  have hopen := orderly_open h hp hw
  have hself : (u.assign p w).sessionOf w ≠ none := by
    have hsession : (u.assign p w).sessionOf w = some k.1 := (h.windows k.1 w).mp hw
    simp [hsession]
  refine orderly_storeLayout hopen hself ?_
  have hne : p ≠ parent := by
    rintro rfl
    exact absurd (hp.1.symm.trans hparent) (by simp)
  have hsound : (u.treeToSplit w parent).Sound ∧ p ∉ (u.treeToSplit w parent).allLeaves := by
    rw [treeToSplit,hknown,Option.bind_some]
    cases hlayout : info.layout with
    | none =>
      refine ⟨⟨.leaf parent,by simp [LayoutNode.allLeaves]⟩,?_⟩
      simpa [LayoutNode.allLeaves] using hne
    | some tree => exact ⟨h.cachedTrees w info tree hinfo hlayout,htrees w info tree hinfo hlayout⟩
  exact (LayoutNode.sound_step (a := .splitFocused parent p orient) hsound.1 (if_pos hsound.2)).1

end SupervisorImpl

namespace NamedSupervisor

open SupervisorImpl

variable {d e : NamedSupervisor} {a : ClientCall}

theorem serve_of_step (h : d.step a = some e) :
    d.Admits a ∧ serve d.impl a = some e.impl ∧ e.names = d.rename a := by
  simp only [step,Option.ite_none_right_eq_some,Option.map_eq_some_iff] at h
  obtain ⟨hadmits,s,hs,rfl⟩ := h
  exact ⟨hadmits,hs,rfl⟩

theorem step_orderly (d : NamedSupervisor) (a : ClientCall) (e : NamedSupervisor)
    (h : d.impl.Orderly) (hstep : d.step a = some e) : e.impl.Orderly := by
  obtain ⟨hadmits,hserve,-⟩ := serve_of_step hstep
  generalize e.impl = t at hserve
  cases a with
  | spawn session pane w =>
    simp only [serve,SupervisorImpl.step,Option.ite_none_right_eq_some,Option.some.injEq] at hserve
    obtain ⟨⟨hsession,hpane,hw⟩,rfl⟩ := hserve
    exact orderly_spawn h hsession hpane hw
  | openPane session asked pane fresh =>
    simp only [serve,SupervisorImpl.step,Option.ite_none_right_eq_some,Option.some.injEq] at hserve
    obtain ⟨⟨-,hpane,hfresh⟩,rfl⟩ := hserve
    exact orderly_openPane h hpane hadmits.2 hfresh
  | openPaneSplit parent orient pane fresh =>
    obtain ⟨k,hparent,hserve⟩ := Option.bind_eq_some_iff.mp hserve
    rw [Option.ite_none_right_eq_some,Option.some.injEq] at hserve
    obtain ⟨⟨-,hpane,-⟩,rfl⟩ := hserve
    refine orderly_openPaneSplit h hpane (fun v info tree hinfo hlayout => ?_) hparent orient fresh
    exact hadmits.2.2.1 info (List.mem_map.mpr ⟨_,Table.lookup_eq_some.mp hinfo,rfl⟩) tree hlayout
  | newWindow session name w =>
    simp only [serve,SupervisorImpl.step,Option.ite_none_right_eq_some,Option.some.injEq] at hserve
    obtain ⟨hw,rfl⟩ := hserve
    exact orderly_newWindow h hw session name
  | renameWindow w name =>
    obtain rfl := Option.some.inj hserve
    exact orderly_renameWindow h w name
  | closeWindow w =>
    obtain rfl := Option.some.inj hserve
    exact orderly_closeWindow h w
  | setPaneWeight pane weight =>
    obtain rfl := Option.some.inj hserve
    exact orderly_setPaneWeight h pane weight
  | renamePane pane name =>
    obtain rfl := Option.some.inj hserve
    exact h
  | listPanes session listed fresh =>
    simp only [serve,SupervisorImpl.step,Option.ite_none_right_eq_some,Option.some.injEq] at hserve
    obtain ⟨⟨-,hperm,-⟩,rfl⟩ := hserve
    rw [listPanes_settled listed (h.settled session) fun e he =>
      hperm.mem_iff.mp (List.mem_map_of_mem he)]
    exact h
  | listWindows session =>
    obtain rfl := Option.some.inj hserve
    rw [h.loadWindows session]
    exact h
  | getWindowLayout w first fresh =>
    simp only [serve,SupervisorImpl.step,Option.ite_none_right_eq_some,Option.some.injEq] at hserve
    obtain ⟨-,rfl⟩ := hserve
    exact orderly_getWindowLayout h w first fresh

theorem orderly_run {as : List ClientCall} (h : exec step empty as = some d) : d.impl.Orderly :=
  (Always.of_invariant (I := fun d => d.impl.Orderly) step_orderly orderly_empty as).last h

end NamedSupervisor

end Pyre.Supervisor
