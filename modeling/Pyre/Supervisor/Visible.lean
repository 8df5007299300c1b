import Pyre.Supervisor.Listing
import Pyre.Supervisor.WindowCache

/-!
Which panes a client that lists the windows of a session and draws their layouts can see:
what is shown of each window, whether it is in memory or only in the store, and the two ways
in which every live pane is shown in one window.
-/

set_option autoImplicit false

namespace Pyre.Supervisor
open Base

namespace SupervisorImpl

/-- The pane is at a slot that the session's worker has open. -/
def Live (s : SupervisorImpl) (session : SessionKey) (p : PaneId) : Prop :=
  ∃ slot ∈ s.slots session, s.index.lookup p = some (session,slot)

/-- `list_windows` has the window, and the pane is a leaf of what `get_window_layout` then
gives; `first` is the slot that the worker lists first. -/
def ShownIn (s : SupervisorImpl) (session : SessionKey) (first : UInt32) (fresh p : PaneId)
    (w : WindowId) : Prop :=
  w ∈ (s.loadWindows session).windowsOf session ∧
    ∃ tree, ((s.loadWindows session).getWindowLayout w first fresh).2 = some tree ∧
      p ∈ tree.allLeaves

def EachShown (s : SupervisorImpl) : Prop :=
  ∀ session p, s.Live session p → ∀ first ∈ s.slots session, ∀ fresh,
    ∃! w, s.ShownIn session first fresh p w

/-! Windows in memory and in the store. -/

/-- The windows `list_windows` has. -/
def listedWindows (s : SupervisorImpl) (session : SessionKey) : List WindowId :=
  if s.windowsOf session = [] then (s.listWindows session).map WindowRow.id
  else s.windowsOf session

def cachedTree (s : SupervisorImpl) (w : WindowId) : Option LayoutNode :=
  (s.windowStore.lookup w).bind WindowMeta.layout

/-- The tree of the window once it is in memory. -/
def savedTree (s : SupervisorImpl) (w : WindowId) : Option LayoutNode :=
  (s.cachedTree w).or (s.windowLayoutJson w)

variable {s t : SupervisorImpl} {session session' : SessionKey} {v w : WindowId} {p q : PaneId}
  {k : SlotKey} {slot : UInt32} {tree : LayoutNode}

theorem listedWindows_warm (h : w ∈ s.windowsOf session) :
    s.listedWindows session = s.windowsOf session := if_neg (List.ne_nil_of_mem h)

theorem mem_listedWindows : v ∈ s.listedWindows session ↔
    s.windowsOf session = [] ∧ s.Stored session v ∨ v ∈ s.windowsOf session := by
  have hrows : v ∈ (s.listWindows session).map WindowRow.id ↔ s.Stored session v := by
    simp only [List.mem_map,mem_listWindows_iff,Stored,and_assoc]
  unfold listedWindows
  split
  · rename_i hcold
    rw [hrows,hcold]
    simp
  · rename_i hwarm
    simp [hwarm]

theorem treeOf_eq_savedTree (h : s.sessionOf w ≠ none) : s.treeOf w = s.savedTree w := by
  cases hw : s.windowStore.lookup w with
  | none => simp [sessionOf,hw] at h
  | some info => simp only [treeOf,savedTree,cachedTree,hw,Option.bind_some]

theorem savedTree_of_cached (h : s.cachedTree w = some tree) : s.savedTree w = some tree := by
  rw [savedTree,h]
  rfl

/-- A window that is entered without a tree. -/
theorem cachedTree_orInsertMeta (s : SupervisorImpl) (w : WindowId) {info : WindowMeta}
    (hlayout : info.layout = none) (v : WindowId) :
    (s.orInsertMeta w info).cachedTree v = s.cachedTree v := by
  by_cases hw : s.sessionOf w = none
  · rw [orInsertMeta_unknown hw]
    by_cases hv : v = w
    · subst hv
      rw [sessionOf,Option.map_eq_none_iff] at hw
      rw [cachedTree,lookup_setMeta_self,cachedTree,hw]
      exact hlayout
    · rw [cachedTree,lookup_setMeta_ne hv,cachedTree]
  · rw [orInsertMeta_known hw]

/-! What `list_windows` takes into memory. -/

/-- Windows of the session have been taken into memory, those given at the least. -/
structure Loads (s t : SupervisorImpl) (session : SessionKey) (ws : List WindowId) : Prop where
  index : t.index = s.index
  workers : t.workers = s.workers
  paneWindowMap : t.paneWindowMap = s.paneWindowMap
  rows : t.windowRows = s.windowRows
  cached : ∀ v, t.cachedTree v = s.cachedTree v
  others : ∀ session', session' ≠ session → t.windowsOf session' = s.windowsOf session'
  windows : ∀ v, v ∈ t.windowsOf session ↔ v ∈ s.windowsOf session ∨ v ∈ ws

namespace Loads

theorem refl (s : SupervisorImpl) (session : SessionKey) : s.Loads s session [] where
  index := rfl
  workers := rfl
  paneWindowMap := rfl
  rows := rfl
  cached _ := rfl
  others _ _ := rfl
  windows v := by simp

theorem trans {u : SupervisorImpl} {ws ws' : List WindowId} (h : s.Loads t session ws)
    (h' : t.Loads u session ws') : s.Loads u session (ws ++ ws') where
  index := h'.index.trans h.index
  workers := h'.workers.trans h.workers
  paneWindowMap := h'.paneWindowMap.trans h.paneWindowMap
  rows := h'.rows.trans h.rows
  cached v := (h'.cached v).trans (h.cached v)
  others session' hne := (h'.others session' hne).trans (h.others session' hne)
  windows v := by rw [h'.windows,h.windows,List.mem_append,or_assoc]

theorem savedTree {ws : List WindowId} (h : s.Loads t session ws) (v : WindowId) :
    t.savedTree v = s.savedTree v := by
  rw [SupervisorImpl.savedTree,h.cached,windowLayoutJson,h.rows]
  rfl

end Loads

theorem loads_warm (s : SupervisorImpl) (session : SessionKey) (row : WindowRow) :
    s.Loads (s.warm session row) session [row.id] := by
  have hsame := samePanes_orInsertMeta s row.id ⟨session,row.name,row.position,none⟩
  have hcached : ∀ v, (s.orInsertMeta row.id ⟨session,row.name,row.position,none⟩).cachedTree v =
      s.cachedTree v := cachedTree_orInsertMeta s row.id rfl
  have hrows := windowRows_orInsertMeta s row.id ⟨session,row.name,row.position,none⟩
  simp only [warm]
  set u := s.orInsertMeta row.id ⟨session,row.name,row.position,none⟩
  have hlist : ∀ session', u.windowsOf session' = s.windowsOf session' := by
    intro session'
    rw [windowsOf,windowsOf,hsame.sessionWindows]
  split
  · rename_i hmem
    rw [hlist] at hmem
    refine ⟨hsame.index,hsame.workers,hsame.paneWindowMap,hrows,hcached,fun σ _ => hlist σ,?_⟩
    intro v
    rw [hlist,List.mem_singleton]
    constructor
    · exact Or.inl
    · rintro (hv | rfl)
      · exact hv
      · exact hmem
  · refine ⟨hsame.index,hsame.workers,hsame.paneWindowMap,hrows,hcached,fun σ hne => ?_,?_⟩
    · rw [← hlist]
      simp only [pushWindow,windowsOf,AList.lookup_insert_ne hne]
    · intro v
      rw [windowsOf_pushWindow,hlist,List.mem_append]

theorem inv_warm (h : s.Inv) {row : WindowRow} (hrow : row ∈ s.windowRows)
    (hs : row.session = session) : (s.warm session row).Inv := by
  have hknown : s.sessionOf row.id ≠ none → s.sessionOf row.id = some session := by
    intro hne
    obtain ⟨session',hs'⟩ := Option.ne_none_iff_exists'.mp hne
    rw [hs',← h.stored row hrow session' hs',hs]
  simp only [warm]
  split
  · rename_i hmem
    rw [windowsOf,(samePanes_orInsertMeta s row.id _).sessionWindows] at hmem
    rw [orInsertMeta_known (by simp [h.listed session _ hmem])]
    exact h
  · refine (resolves_enter rfl hknown (.refl s) rfl (fun _ => rfl) (fun _ hr => Or.inl hr) ?_).inv h
    exact fun r hr hid => (h.keyed r hr row hrow hid).trans hs

theorem loads_warms (session : SessionKey) (rows : List WindowRow) (s : SupervisorImpl) :
    s.Loads (rows.foldl (SupervisorImpl.warm session) s) session (rows.map WindowRow.id) := by
  induction rows generalizing s with
  | nil => exact .refl s session
  | cons row rows ih => exact (loads_warm s session row).trans (ih _)

theorem inv_warms (rows : List WindowRow) (h : s.Inv)
    (hrows : ∀ r ∈ rows, r ∈ s.windowRows ∧ r.session = session) :
    (rows.foldl (SupervisorImpl.warm session) s).Inv := by
  induction rows generalizing s with
  | nil => exact h
  | cons row rows ih =>
    obtain ⟨⟨hrow,hs⟩,hrest⟩ := List.forall_mem_cons.mp hrows
    refine ih (inv_warm h hrow hs) fun r hr => ?_
    rw [(loads_warm s session row).rows]
    exact hrest r hr

theorem inv_loadWindows (h : s.Inv) (session : SessionKey) : (s.loadWindows session).Inv := by
  unfold loadWindows
  split
  · exact inv_warms _ h fun r hr => mem_listWindows_iff.mp hr
  · exact h

/-- Once they are listed the session's windows are in memory, with the trees they had. -/
theorem loads_loadWindows (s : SupervisorImpl) (session : SessionKey) :
    (∃ ws, s.Loads (s.loadWindows session) session ws) ∧
      ∀ v, v ∈ (s.loadWindows session).windowsOf session ↔ v ∈ s.listedWindows session := by
  unfold loadWindows listedWindows
  split
  · rename_i hcold
    have hloads := loads_warms session (s.listWindows session) s
    refine ⟨⟨_,hloads⟩,fun v => ?_⟩
    rw [hloads.windows,hcold]
    simp
  · exact ⟨⟨[],.refl s session⟩,fun v => Iff.rfl⟩

/-! The two ways in which the panes of a session are shown. -/

/-- The pane is in the tree of its own window, which is in memory, and in no other. -/
def InTree (s : SupervisorImpl) (session : SessionKey) (p : PaneId) : Prop :=
  ∃ w ∈ s.windowsOf session, s.paneWindowMap.lookup p = some w ∧
    (∃ tree, s.cachedTree w = some tree ∧ p ∈ tree.allLeaves) ∧
    ∀ v ∈ s.windowsOf session, ∀ tree, s.savedTree v = some tree → p ∈ tree.allLeaves → v = w

/-- All windows have trees, and the live panes are in them. -/
structure Treed (s : SupervisorImpl) (session : SessionKey) : Prop where
  placed : ∀ p, s.Live session p → s.InTree session p
  trees : ∀ v ∈ s.windowsOf session, s.savedTree v ≠ none

/-- The window is the only one of these that has no tree. -/
def OnlyBare (s : SupervisorImpl) (ws : List WindowId) (w : WindowId) : Prop :=
  w ∈ ws ∧ s.savedTree w = none ∧ ∀ v ∈ ws, v ≠ w → s.savedTree v ≠ none

/-- The slot has one pane, which no tree has, and one window has no tree. -/
structure Sole (s : SupervisorImpl) (session : SessionKey) (p : PaneId) (slot : UInt32)
    (w : WindowId) : Prop where
  at_slot : ∀ q, s.index.lookup q = some (session,slot) ↔ q = p
  bare : s.OnlyBare (s.listedWindows session) w
  away : ∀ v ∈ s.listedWindows session, ∀ tree, s.savedTree v = some tree → p ∉ tree.allLeaves

/-- No other slot is open, so that the window without a tree falls back on that pane. -/
structure Lone (s : SupervisorImpl) (session : SessionKey) (p : PaneId) (slot : UInt32)
    (w : WindowId) : Prop extends s.Sole session p slot w where
  slots : ∀ x ∈ s.slots session, x = slot

def Quiet (s : SupervisorImpl) (session : SessionKey) : Prop := ∀ p, ¬s.Live session p

def Seen (s : SupervisorImpl) (session : SessionKey) : Prop :=
  s.Quiet session ∨ s.Treed session ∨ ∃ p slot w, s.Lone session p slot w

structure Viewed (s : SupervisorImpl) : Prop extends s.Inv where
  seen : ∀ session, s.Seen session

/-- What is shown of a window has no leaves but those of its tree. -/
theorem leaves_getWindowLayout (ht : s.treeOf w = some tree) {first : UInt32} {fresh : PaneId}
    {tree' : LayoutNode} (h : (s.getWindowLayout w first fresh).2 = some tree')
    (hp : p ∈ tree'.allLeaves) : p ∈ tree.allLeaves := by
  obtain ⟨info,hinfo,-⟩ := Option.bind_eq_some_iff.mp ht
  obtain ⟨tree₁,hserved,⟨rfl,-,-⟩ | ⟨rfl,-,-⟩⟩ := getWindowLayout_of_tree hinfo ht first fresh
  · obtain rfl := Option.some.inj (h.symm.trans hserved)
    exact hp
  · obtain rfl := Option.some.inj (h.symm.trans hserved)
    exact LayoutNode.mem_leaves_foldl_close hp

/-- It has those that are live panes of the window. -/
theorem mem_getWindowLayout (hs : s.sessionOf w = some session) (ht : s.treeOf w = some tree)
    (hp : p ∈ tree.allLeaves) (hat : s.index.lookup p = some (session,slot))
    (hw : s.paneWindowMap.lookup p = some w) (first : UInt32) (fresh : PaneId) :
    ∃ tree', (s.getWindowLayout w first fresh).2 = some tree' ∧ p ∈ tree'.allLeaves := by
  obtain ⟨info,hinfo,hsession⟩ := Option.map_eq_some_iff.mp hs
  obtain ⟨tree₁,hserved,⟨rfl,-,-⟩ | ⟨rfl,-,-⟩⟩ := getWindowLayout_of_tree hinfo ht first fresh
  · exact ⟨tree₁,hserved,hp⟩
  · have hlive : s.isLive info.session w p = true := by simp [isLive,hat,hw,hsession]
    refine ⟨_,hserved,?_⟩
    rw [leaves_pruneGhosts ⟨p,hp,hlive⟩]
    exact List.mem_filter.mpr ⟨hp,hlive⟩

theorem Treed.shown (h : s.Treed session) (hi : s.Inv) (hp : s.Live session p) (first : UInt32)
    (fresh : PaneId) : ∃! w, s.ShownIn session first fresh p w := by
  obtain ⟨w,hw,hmap,⟨tree,htree,hleaf⟩,honly⟩ := h.placed p hp
  obtain ⟨slot,-,hat⟩ := hp
  have hload : s.loadWindows session = s := if_neg (List.ne_nil_of_mem hw)
  have htreeOf : ∀ v ∈ s.windowsOf session, s.treeOf v = s.savedTree v := by
    intro v hv
    exact treeOf_eq_savedTree (by simp [hi.listed session v hv])
  have htreeOf' : s.treeOf w = some tree := (htreeOf w hw).trans (savedTree_of_cached htree)
  refine ⟨w,?_,?_⟩
  · unfold ShownIn
    rw [hload]
    exact ⟨hw,mem_getWindowLayout (hi.listed session w hw) htreeOf' hleaf hat hmap first fresh⟩
  · rintro v ⟨hv,tree',hserved,hleaf'⟩
    rw [hload] at hv hserved
    obtain ⟨tree₀,htree₀⟩ := Option.ne_none_iff_exists'.mp (h.trees v hv)
    exact honly v hv tree₀ htree₀
      (leaves_getWindowLayout ((htreeOf v hv).trans htree₀) hserved hleaf')

theorem Lone.shown (h : s.Lone session p slot w) (hi : s.Inv) {first : UInt32}
    (hfirst : first ∈ s.slots session) (fresh : PaneId) :
    ∃! v, s.ShownIn session first fresh p v := by
  have hi' := inv_loadWindows hi session
  obtain ⟨⟨ws,hload⟩,hlist⟩ := loads_loadWindows s session
  set u := s.loadWindows session with hu
  have htreeOf : ∀ v ∈ s.listedWindows session, u.treeOf v = s.savedTree v := by
    intro v hv
    rw [treeOf_eq_savedTree,hload.savedTree]
    simp [hi'.listed session v ((hlist v).mpr hv)]
  obtain ⟨hmem,hnone,hothers⟩ := h.bare
  obtain ⟨info,hinfo,hsession⟩ := Option.map_eq_some_iff.mp
    (hi'.listed session w ((hlist w).mpr hmem))
  obtain rfl := h.slots first hfirst
  have hslots : first ∈ u.slots info.session := by
    rw [hsession,SupervisorImpl.slots,hload.workers]
    exact hfirst
  have hat := (h.at_slot p).mpr rfl
  have hget : (u.getOrAllocPaneBySlot info.session first fresh).2 = some p := by
    simp only [getOrAllocPaneBySlot,hload.index,hsession,PaneIndex.getOrAllocPaneBySlot]
    cases hfind : s.index.paneIdBySlot session first with
    | none => exact absurd hat (PaneIndex.paneIdBySlot_eq_none.mp hfind p)
    | some q => rw [(h.at_slot q).mp (PaneIndex.lookup_of_paneIdBySlot hfind)]
  have hfallback : (u.getWindowLayout w first fresh).2 = some (.leaf p) := by
    simp only [SupervisorImpl.getWindowLayout,hinfo,(htreeOf w hmem).trans hnone,if_pos hslots,hget,
      Option.map_some]
  refine ⟨w,⟨(hlist w).mpr hmem,.leaf p,hfallback,by simp [LayoutNode.allLeaves]⟩,?_⟩
  rintro v ⟨hv,tree,hserved,hleaf⟩
  by_contra hne
  have hv := (hlist v).mp hv
  obtain ⟨tree₀,htree₀⟩ := Option.ne_none_iff_exists'.mp (hothers v hv hne)
  exact h.away v hv tree₀ htree₀
    (leaves_getWindowLayout ((htreeOf v hv).trans htree₀) hserved hleaf)

theorem Viewed.eachShown (h : s.Viewed) : s.EachShown := by
  have hi := h.toInv
  intro session p hp first hfirst fresh
  rcases h.seen session with hquiet | htreed | ⟨q,slot,w,hlone⟩
  · exact absurd hp (hquiet p)
  · exact htreed.shown hi hp first fresh
  · obtain ⟨x,hx,hat⟩ := hp
    obtain rfl := hlone.slots x hx
    obtain rfl := (hlone.at_slot p).mp hat
    exact hlone.shown hi hfirst fresh

/-- The session is as it was, as far as it decides what is shown of its panes. -/
structure Beside (s t : SupervisorImpl) (session : SessionKey) : Prop where
  lookup : ∀ q, ∀ slot ∈ s.slots session, t.index.lookup q = some (session,slot) ↔
    s.index.lookup q = some (session,slot)
  slots : t.slots session = s.slots session
  mapped : ∀ q slot, s.index.lookup q = some (session,slot) →
    t.paneWindowMap.lookup q = s.paneWindowMap.lookup q
  windows : t.windowsOf session = s.windowsOf session
  listed : ∀ v, v ∈ t.listedWindows session ↔ v ∈ s.listedWindows session
  cached : ∀ v ∈ s.windowsOf session, t.cachedTree v = s.cachedTree v
  saved : ∀ v ∈ s.listedWindows session, t.savedTree v = s.savedTree v

namespace Beside

theorem live (h : s.Beside t session) : t.Live session p ↔ s.Live session p := by
  unfold Live
  rw [h.slots]
  exact exists_congr fun slot => and_congr_right fun hslot => h.lookup p slot hslot

theorem treed (h : s.Beside t session) (hs : s.Treed session) : t.Treed session := by
  refine ⟨fun q hq => ?_,?_⟩
  · have hq := h.live.mp hq
    obtain ⟨w,hw,hmap,⟨tree,htree,hleaf⟩,honly⟩ := hs.placed q hq
    obtain ⟨slot,-,hat⟩ := hq
    rw [InTree,h.windows]
    refine ⟨w,hw,(h.mapped q slot hat).trans hmap,⟨tree,(h.cached w hw).trans htree,hleaf⟩,?_⟩
    intro v hv tree' ht'
    rw [h.saved v (mem_listedWindows.mpr (Or.inr hv))] at ht'
    exact honly v hv tree' ht'
  · rw [h.windows]
    intro v hv
    rw [h.saved v (mem_listedWindows.mpr (Or.inr hv))]
    exact hs.trees v hv

theorem onlyBare (h : s.Beside t session) (hs : s.OnlyBare (s.listedWindows session) w) :
    t.OnlyBare (t.listedWindows session) w := by
  obtain ⟨hmem,hnone,hothers⟩ := hs
  refine ⟨(h.listed w).mpr hmem,(h.saved w hmem).trans hnone,fun v hv hne => ?_⟩
  have hv := (h.listed v).mp hv
  rw [h.saved v hv]
  exact hothers v hv hne

theorem seen (h : s.Beside t session) (hs : s.Seen session) : t.Seen session := by
  rcases hs with hquiet | htreed | ⟨p,slot,w,hlone⟩
  · exact Or.inl fun p hp => hquiet p (h.live.mp hp)
  · exact Or.inr (Or.inl (h.treed htreed))
  · by_cases hslot : slot ∈ s.slots session
    · refine Or.inr (Or.inr ⟨p,slot,w,⟨fun q => (h.lookup q slot hslot).trans (hlone.at_slot q),
        h.onlyBare hlone.bare,fun v hv => ?_⟩,?_⟩)
      · have hv := (h.listed v).mp hv
        rw [h.saved v hv]
        exact hlone.away v hv
      · rw [h.slots]
        exact hlone.slots
    · refine Or.inl fun q hq => ?_
      obtain ⟨x,hx,-⟩ := h.live.mp hq
      exact hslot (hlone.slots x hx ▸ hx)

end Beside

end SupervisorImpl

end Pyre.Supervisor
