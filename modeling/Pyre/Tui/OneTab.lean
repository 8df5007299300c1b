import Pyre.Tui.Indices

/-!
A pane is shown in one tab. The windows of a session have no pane in common, and what
the client takes over from the daemon leaves its tabs so just when it does not put the
layout of one window into the tab of another.
-/

set_option autoImplicit false

namespace Pyre.Tui

/-! What the daemon has. -/

structure DaemonWindow where
  session : SessionId
  id : WindowId
  layout : LayoutNode

/-- The windows stand in their order, and those of a session share no pane. -/
structure DaemonView where
  windows : List DaemonWindow
  panes : SessionId → List PaneInfo
  disjoint : windows.Pairwise fun v w =>
    v.session = w.session → v.layout.allLeaves.Disjoint w.layout.allLeaves

/-- The layout of the first window, and for a session without one its first pane. -/
def DaemonView.getSessionLayout (d : DaemonView) (session : SessionId) : Option LayoutNode :=
  match d.windows.find? fun w => w.session = session with
  | some w => some w.layout
  | none => (d.panes session).head?.map fun p => .leaf p.id

def DaemonView.getWindowLayout (d : DaemonView) (window : WindowId) : Option LayoutNode :=
  (d.windows.find? fun w => w.id = window).map DaemonWindow.layout

def DaemonView.answer (d : DaemonView) : LayoutQuery → Option LayoutNode
  | .window w => d.getWindowLayout w
  | .session id => d.getSessionLayout id

/-- Which of the requests get an answer, and which panes can be attached. -/
inductive SyncReply where
  | paneSync (session : SessionId) (listed laidOut : Bool) (attached : PaneId → Bool)
  | layoutResync (answered : Bool) (attached : PaneId → Bool) (recentlySplit : Bool)

/-- What is told of the session when its panes are synced. -/
def DaemonView.reply (d : DaemonView) (session : SessionId) (listed laidOut : Bool) :
    SessionReply where
  id := session
  paneCount := (d.panes session).length.toUInt32
  adoptPanes := none
  panes := if listed then some (d.panes session) else none
  layout := if laidOut then d.getSessionLayout session else none

def AppState.sync (s : AppState) (d : DaemonView) : SyncReply → Option AppState
  | .paneSync session listed laidOut attached =>
    s.paneSync attached (d.reply session listed laidOut)
  | .layoutResync answered attached recentlySplit =>
    s.layoutResync (fun q => if answered then d.answer q else none) attached recentlySplit

namespace AppState

variable {s t : AppState} {si ti : Nat} {sv : SessionView} {tab : Tab} {pane : PaneId}

/-! The tab at a place shows the pane. -/

def Shows (s : AppState) (place : Nat × Nat) (pane : PaneId) : Prop :=
  ∃ tab ∈ s.tabAt place.1 place.2, pane ∈ tab.root.allLeaves

structure OneTab (s : AppState) : Prop where
  once : ∀ {pane a b}, s.Shows a pane → s.Shows b pane → a = b
  zoomed : ∀ {si ti tab}, s.tabAt si ti = some tab → ∀ p ∈ tab.zoomed, p ∈ tab.root.allLeaves

/-- The layout shares no pane with another tab, and has the pane this one is zoomed on. -/
def TakesLayout (s : AppState) (si ti : Nat) (layout : LayoutNode) : Prop :=
  (∀ p ∈ layout.allLeaves, ∀ place, s.Shows place p → place = (si,ti)) ∧
    ∀ tab ∈ s.tabAt si ti, ∀ p ∈ tab.zoomed, p ∈ layout.allLeaves

/-- No tab shows one of the panes, and each is there once. -/
def TakesPanes (s : AppState) (panes : List PaneInfo) : Prop :=
  (∀ p ∈ panes, ∀ place, ¬s.Shows place p.id) ∧ (panes.map PaneInfo.id).Nodup

theorem tabAt_modifyTab (s : AppState) (si ti : Nat) (f : Tab → Tab) (i j : Nat) :
    (s.modifyTab si ti f).tabAt i j =
      if (i,j) = (si,ti) then (s.tabAt i j).map f else s.tabAt i j := by
  simp only [tabAt,modifyTab,List.getElem?_modify,Prod.mk.injEq]
  cases s.sessions[i]? with
  | none => simp
  | some sv =>
    by_cases hi : si = i
    · by_cases hj : ti = j
      · simp [hi,hj]
      · simp [hi,hj,Ne.symm hj]
    · simp [hi,Ne.symm hi]

/-- A new tree in one of the tabs. -/
theorem oneTab_setLayout_iff (h : s.OneTab) (htab : s.tabAt si ti = some tab)
    (layout : LayoutNode) (focus : Tab → PaneId) :
    (s.modifyTab si ti fun tab => { tab with root := layout, focusPane := focus tab }).OneTab ↔
      s.TakesLayout si ti layout := by
  set t := s.modifyTab si ti fun tab => { tab with root := layout, focusPane := focus tab } with ht
  have hset : t.tabAt si ti = some { tab with root := layout, focusPane := focus tab } := by
    rw [ht,tabAt_modifyTab,if_pos rfl,htab,Option.map_some]
  have hrest : ∀ {place}, place ≠ (si,ti) → t.tabAt place.1 place.2 = s.tabAt place.1 place.2 :=
    fun hne => by rw [ht,tabAt_modifyTab,if_neg hne]
  have hshows : ∀ p place, t.Shows place p ↔
      if place = (si,ti) then p ∈ layout.allLeaves else s.Shows place p := by
    intro p place
    split
    · rename_i heq
      subst heq
      simp [Shows,hset]
    · rename_i hne
      rw [Shows,hrest hne,Shows]
  constructor
  · intro ht'
    constructor
    · intro p hp place hplace
      by_contra hne
      have hhere : t.Shows (si,ti) p := by rwa [hshows,if_pos rfl]
      have hthere : t.Shows place p := by rwa [hshows,if_neg hne]
      exact hne (ht'.once hthere hhere)
    · intro tab' htab' p hp
      obtain rfl := Option.some.inj (htab.symm.trans htab')
      exact ht'.zoomed hset p hp
  · intro htakes
    constructor
    · intro p a b ha hb
      rw [hshows] at ha hb
      split at ha <;> split at hb
      · simp_all
      · rename_i hne
        exact absurd (htakes.1 p ha b hb) hne
      · rename_i hne _
        exact absurd (htakes.1 p hb a ha) hne
      · exact h.once ha hb
    · intro i j tab' htab' p hp
      by_cases hplace : (i,j) = (si,ti)
      · obtain ⟨rfl,rfl⟩ := Prod.mk.inj hplace
        obtain rfl := Option.some.inj (hset.symm.trans htab')
        exact htakes.2 tab htab p hp
      · exact h.zoomed ((hrest hplace).symm.trans htab') p hp

/-! New tabs of one pane. -/

@[simp] theorem slots_pushTab (s : AppState) (si : Nat) (tab : Tab) :
    (s.pushTab si tab).slots = s.slots := rfl

theorem tabAt_pushTab (hsv : s.sessions[si]? = some sv) (tab : Tab) (i j : Nat) :
    (s.pushTab si tab).tabAt i j = if (i,j) = (si,sv.tabs.length) then some tab else s.tabAt i j := by
  simp only [tabAt,pushTab,List.getElem?_modify,Prod.mk.injEq]
  by_cases hi : si = i
  · subst hi
    by_cases hj : j = sv.tabs.length
    · simp [hsv,hj]
    · simp only [hsv,hj,and_false,if_false,if_true,Option.map_eq_map,Option.map_some,
        Option.bind_some]
      rcases Nat.lt_or_gt_of_ne hj with hlt | hgt
      · rw [List.getElem?_append_left hlt]
      · rw [List.getElem?_eq_none (by simp; omega),List.getElem?_eq_none hgt.le]
  · simp [hi,Ne.symm hi]

theorem shows_pushTab_iff (hsv : s.sessions[si]? = some sv) (pane : PaneId) (w : WindowId)
    (place : Nat × Nat) (p : PaneId) : (s.pushTab si (.single pane w)).Shows place p ↔
      place = (si,sv.tabs.length) ∧ p = pane ∨ s.Shows place p := by
  have hnone : s.tabAt si sv.tabs.length = none := by simp [tabAt,hsv]
  rw [Shows,tabAt_pushTab hsv]
  split
  · rename_i heq
    obtain rfl : place = (si,sv.tabs.length) := heq
    simp [Shows,hnone,Tab.single,LayoutNode.allLeaves]
  · rename_i hne
    have hne : place ≠ (si,sv.tabs.length) := hne
    simp [Shows,hne]

theorem oneTab_pushTab_iff (hsi : si < s.sessions.length) (pane : PaneId) (w : WindowId) :
    (s.pushTab si (.single pane w)).OneTab ↔ s.OneTab ∧ ∀ place, ¬s.Shows place pane := by
  have hsv := List.getElem?_eq_getElem hsi
  set sv := s.sessions[si]
  have hnone : s.tabAt si sv.tabs.length = none := by simp [tabAt,hsv]
  have hshows := fun place p => shows_pushTab_iff hsv pane w place p
  constructor
  · intro h
    refine ⟨⟨fun ha hb => ?_,fun htab => ?_⟩,fun place hplace => ?_⟩
    · exact h.once ((hshows _ _).mpr (Or.inr ha)) ((hshows _ _).mpr (Or.inr hb))
    · rename_i i j tab
      have hne : (i,j) ≠ (si,sv.tabs.length) := by
        intro heq
        obtain ⟨rfl,rfl⟩ := Prod.mk.inj heq
        simp [hnone] at htab
      have hkept : (s.pushTab si (.single pane w)).tabAt i j = some tab := by
        rw [tabAt_pushTab hsv,if_neg hne,htab]
      exact h.zoomed hkept
    · obtain rfl := h.once ((hshows place pane).mpr (Or.inr hplace))
        ((hshows _ pane).mpr (Or.inl ⟨rfl,rfl⟩))
      obtain ⟨tab,htab,-⟩ := hplace
      simp [hnone] at htab
  · rintro ⟨h,hfresh⟩
    constructor
    · intro p a b ha hb
      rw [hshows] at ha hb
      rcases ha with ⟨rfl,rfl⟩ | ha
      · exact hb.elim (fun hb => hb.1.symm) fun hb => absurd hb (hfresh b)
      · rcases hb with ⟨rfl,rfl⟩ | hb
        · exact absurd ha (hfresh a)
        · exact h.once ha hb
    · intro i j tab htab
      rw [tabAt_pushTab hsv] at htab
      split at htab
      · obtain rfl := Option.some.inj htab
        simp [Tab.single]
      · exact h.zoomed htab

/-- Only the panes with a slot get a tab. -/
theorem oneTab_pushTabs_iff (panes : List PaneInfo) (hsi : si < s.sessions.length) :
    (panes.foldl (fun s p => if (paneToSlotIdx s.slots p.id).isSome then
      s.pushTab si (.single p.id p.window) else s) s).OneTab ↔
      s.OneTab ∧ s.TakesPanes (panes.filter fun p => (paneToSlotIdx s.slots p.id).isSome) := by
  induction panes generalizing s with
  | nil => simp [TakesPanes]
  | cons p panes ih =>
    rw [List.foldl_cons]
    by_cases hslot : (paneToSlotIdx s.slots p.id).isSome
    · have hlen : si < (s.pushTab si (.single p.id p.window)).sessions.length := by
        simpa [pushTab] using hsi
      have hshows := fun place q =>
        shows_pushTab_iff (List.getElem?_eq_getElem hsi) p.id p.window place q
      have hnone : ∀ q, (∀ place, ¬(s.pushTab si (.single p.id p.window)).Shows place q) ↔
          q ≠ p.id ∧ ∀ place, ¬s.Shows place q := by
        intro q
        simp only [hshows,not_or,not_and,forall_and,forall_eq,ne_eq]
      rw [if_pos hslot,ih hlen,oneTab_pushTab_iff hsi]
      simp only [TakesPanes,List.filter_cons,hslot,if_true,List.forall_mem_cons,List.map_cons,
        List.nodup_cons,hnone,slots_pushTab]
      have hfresh : p.id ∉ (panes.filter fun q => (paneToSlotIdx s.slots q.id).isSome).map
          PaneInfo.id ↔ ∀ q ∈ panes.filter fun q => (paneToSlotIdx s.slots q.id).isSome,
            q.id ≠ p.id := by
        simp only [List.mem_map,not_exists,not_and,ne_eq]
      rw [hfresh]
      constructor
      · rintro ⟨⟨hone,hp⟩,hrest,hnodup⟩
        exact ⟨hone,⟨hp,fun q hq => (hrest q hq).2⟩,fun q hq => (hrest q hq).1,hnodup⟩
      · rintro ⟨hone,⟨hp,hrest⟩,hne,hnodup⟩
        exact ⟨⟨hone,hp⟩,fun q hq => ⟨hne q hq,hrest q hq⟩,hnodup⟩
    · rw [if_neg hslot,ih hsi,List.filter_cons_of_neg (by simpa using hslot)]

/-! Only slots differ. -/

theorem oneTab_congr (h : t.sessions = s.sessions) : t.OneTab ↔ s.OneTab := by
  have hat : t.tabAt = s.tabAt := by
    funext i j
    rw [tabAt,tabAt,h]
  have hshows : t.Shows = s.Shows := by
    funext place p
    rw [Shows,Shows,hat]
  constructor
  · intro ht
    exact ⟨by rw [← hshows]; exact ht.once,by rw [← hat]; exact ht.zoomed⟩
  · intro hs
    exact ⟨by rw [hshows]; exact hs.once,by rw [hat]; exact hs.zoomed⟩

theorem isSome_paneToSlotIdx {slots : List (Option PaneId)} :
    (paneToSlotIdx slots pane).isSome ↔ some pane ∈ slots := by
  simp [paneToSlotIdx,List.findIdx?_isSome]

variable (attached : PaneId → Bool)

theorem mem_slots_attachNew (s : AppState) (p q : PaneId) :
    some q ∈ (s.attachNew attached p).slots ↔ some q ∈ s.slots ∨ q = p ∧ attached p := by
  unfold attachNew attach
  split
  · rename_i hslot
    rw [isSome_paneToSlotIdx] at hslot
    constructor
    · exact Or.inl
    · rintro (h | ⟨rfl,-⟩)
      · exact h
      · exact hslot
  · split <;> simp_all [pushSlot]

theorem mem_slots_attachAll (panes : List PaneInfo) (s : AppState) (q : PaneId) :
    some q ∈ (panes.foldl (fun s p => s.attachNew attached p.id) s).slots ↔
      some q ∈ s.slots ∨ ∃ p ∈ panes, q = p.id ∧ attached p.id := by
  induction panes generalizing s with
  | nil => simp
  | cons p panes ih => rw [List.foldl_cons,ih,mem_slots_attachNew]; simp [or_assoc]

theorem sessions_attachAll (panes : List PaneInfo) (s : AppState) :
    (panes.foldl (fun s p => s.attachNew attached p.id) s).sessions = s.sessions := by
  induction panes generalizing s with
  | nil => rfl
  | cons p panes ih => rw [List.foldl_cons,ih,sessions_attachNew]

/-- The state is ready for the new panes with this layout, or without one. -/
def TakesNew (s : AppState) (si ti : Nat) (newPanes : List PaneInfo) :
    Option LayoutNode → Prop
  | some layout => s.TakesLayout si ti layout
  | none => s.TakesPanes (newPanes.filter fun p =>
      (paneToSlotIdx s.slots p.id).isSome ∨ attached p.id)

theorem oneTab_takeNewPanes_iff (h : s.OneTab) (hsv : s.sessions[si]? = some sv)
    {newPanes : List PaneInfo} {layout : Option LayoutNode}
    (ht : s.takeNewPanes attached si newPanes layout = some t) :
    t.OneTab ↔ s.TakesNew attached si sv.activeTab newPanes layout := by
  set u := newPanes.foldl (fun s p => s.attachNew attached p.id) s with hu
  have hsessions : u.sessions = s.sessions := sessions_attachAll attached newPanes s
  have hone : u.OneTab := (oneTab_congr hsessions).mpr h
  have hat : u.tabAt = s.tabAt := by
    funext i j
    rw [tabAt,tabAt,hsessions]
  have hshows : u.Shows = s.Shows := by
    funext place p
    rw [Shows,Shows,hat]
  unfold takeNewPanes at ht
  simp only [← hu] at ht
  cases layout with
  | some layout =>
    obtain ⟨sv',hsv',ht⟩ := Option.bind_eq_some_iff.mp ht
    obtain rfl := Option.some.inj (hsv.symm.trans (hsessions ▸ hsv'))
    obtain ⟨tab,htab,rfl⟩ := Option.map_eq_some_iff.mp ht
    have hplace : u.tabAt si sv.activeTab = some tab := by rw [tabAt,hsv',Option.bind_some,htab]
    rw [oneTab_setLayout_iff hone hplace layout fun tab => keepFocus tab.focusPane layout]
    simp only [TakesNew,TakesLayout,hat,hshows]
  | none =>
    obtain rfl := Option.some.inj ht
    have hsi : si < u.sessions.length := hsessions ▸ (List.getElem?_eq_some_iff.mp hsv).1
    have hslots : newPanes.filter (fun p => (paneToSlotIdx u.slots p.id).isSome) =
        newPanes.filter fun p => (paneToSlotIdx s.slots p.id).isSome ∨ attached p.id := by
      refine List.filter_congr fun p hp => ?_
      rw [Bool.eq_iff_iff,isSome_paneToSlotIdx,hu,mem_slots_attachAll,decide_eq_true_iff,
        isSome_paneToSlotIdx]
      refine or_congr_right ⟨?_,fun hattached => ⟨p,hp,rfl,hattached⟩⟩
      rintro ⟨q,-,hq,hattached⟩
      rwa [hq]
    rw [oneTab_pushTabs_iff newPanes hsi,hslots]
    simp only [TakesNew,TakesPanes,hone,true_and,hshows]

/-- Where the reply has panes that no tab of the session shows, the active tab takes the
layout that comes with them. -/
def TakesReply (s : AppState) (info : SessionReply) : Prop :=
  ∀ si ∈ s.sessions.findIdx? fun sv => sv.id = info.id, ∀ sv ∈ s.sessions[si]?,
    ∀ panes ∈ info.panes,
      let shown := sv.tabs.flatMap fun tab => tab.root.allLeaves
      let newPanes := panes.filter fun p => p.id ∉ shown
      newPanes ≠ [] → s.TakesNew attached si sv.activeTab newPanes info.layout

theorem oneTab_paneSync_iff (h : s.OneTab) {info : SessionReply}
    (ht : s.paneSync attached info = some t) : t.OneTab ↔ s.TakesReply attached info := by
  unfold paneSync at ht
  unfold TakesReply
  cases hfind : s.sessions.findIdx? fun sv => sv.id = info.id with
  | none =>
    simp only [hfind] at ht
    obtain rfl := Option.some.inj ht
    exact iff_of_true h (by simp)
  | some si =>
    simp only [hfind] at ht
    obtain ⟨sv,hsv,ht⟩ := Option.bind_eq_some_iff.mp ht
    simp only [hsv,Option.mem_some_iff,forall_eq']
    cases hpanes : info.panes with
    | none =>
      simp only [hpanes] at ht
      obtain rfl := Option.some.inj ht
      exact iff_of_true h (by simp)
    | some panes =>
      simp only [hpanes] at ht
      simp only [Option.mem_some_iff,forall_eq']
      obtain ⟨u,hu,ht⟩ := Option.bind_eq_some_iff.mp ht
      obtain ⟨sv',-,rfl⟩ := Option.map_eq_some_iff.mp ht
      rw [oneTab_congr (show (u.dropSlots sv' _).sessions = u.sessions from rfl)]
      split at hu
      · rename_i hnil
        obtain rfl := Option.some.inj hu
        exact iff_of_true h fun hnew => absurd hnil hnew
      · rename_i hnew
        rw [oneTab_takeNewPanes_iff attached h hsv hu]
        exact ⟨fun htakes _ => htakes,fun htakes => htakes hnew⟩

theorem sessions_attach (s : AppState) (p : PaneId) :
    (s.attach attached p).sessions = s.sessions := by
  unfold attach
  split <;> rfl

theorem oneTab_layoutResync_iff (h : s.OneTab) {fetch : LayoutQuery → Option LayoutNode}
    {recentlySplit : Bool} (ht : s.layoutResync fetch attached recentlySplit = some t) :
    t.OneTab ↔ ∀ sv ∈ s.activeView, ∀ tab ∈ sv.tabs[sv.activeTab]?,
      ∀ layout ∈ fetch (tab.query sv.id), !recentlySplit →
        s.TakesLayout s.activeSession sv.activeTab layout := by
  obtain ⟨sv,hsv,ht⟩ := Option.bind_eq_some_iff.mp ht
  obtain ⟨tab,htab,ht⟩ := Option.map_eq_some_iff.mp ht
  simp only [hsv,htab,Option.mem_some_iff,forall_eq']
  cases hfetch : fetch (tab.query sv.id) with
  | none =>
    simp only [hfetch] at ht
    subst ht
    exact iff_of_true h (by simp)
  | some layout =>
    simp only [hfetch] at ht
    simp only [Option.mem_some_iff,forall_eq']
    have hplace : s.tabAt s.activeSession sv.activeTab = some tab := by
      rw [tabAt,show s.sessions[s.activeSession]? = some sv from hsv,Option.bind_some,htab]
    set newIds := layout.allLeaves.filter fun p => (paneToSlotIdx s.slots p).isNone
    set u := newIds.foldl (attach · attached) s with hu
    have hsessions : u.sessions = s.sessions :=
      foldl_keeps (I := fun u : AppState => u.sessions = s.sessions) newIds
        (fun u p hu => (sessions_attach attached u p).trans hu) rfl
    split at ht
    · rename_i hdiff
      subst ht
      rw [oneTab_congr (s := s.modifyTab s.activeSession sv.activeTab fun tab =>
        { tab with root := layout, focusPane := keepFocus tab.focusPane layout })]
      · rw [oneTab_setLayout_iff h hplace layout fun tab => keepFocus tab.focusPane layout]
        exact ⟨fun htakes _ => htakes,fun htakes => htakes hdiff.2⟩
      · rw [modifyTab,modifyTab,hsessions]
    · rename_i hsame
      subst ht
      rw [oneTab_congr hsessions]
      refine iff_of_true h fun hlate => ?_
      have hleaves : tab.root.allLeaves = layout.allLeaves :=
        not_not.mp fun hne => hsame ⟨hne,hlate⟩
      constructor
      · intro p hp place hshows
        exact h.once hshows ⟨tab,hplace,hleaves ▸ hp⟩
      · intro tab' htab' p hp
        obtain rfl := Option.some.inj (hplace.symm.trans htab')
        exact hleaves ▸ h.zoomed hplace p hp

end AppState

/-- The layout that comes is that of the tab it is put into. -/
def SyncReply.Fits (s : AppState) (d : DaemonView) : SyncReply → Prop
  | .paneSync session listed laidOut attached =>
    s.TakesReply attached (d.reply session listed laidOut)
  | .layoutResync answered _ recentlySplit =>
    ∀ sv ∈ s.activeView, ∀ tab ∈ sv.tabs[sv.activeTab]?,
      ∀ layout ∈ (if answered then d.answer (tab.query sv.id) else none), !recentlySplit →
        s.TakesLayout s.activeSession sv.activeTab layout

/-- A reply leaves each pane in one tab just when the layout it brings, or else the panes,
are shown by no tab but the one they go to. -/
theorem oneTab_sync_iff {s t : AppState} {d : DaemonView} {r : SyncReply} (h : s.OneTab)
    (ht : s.sync d r = some t) : t.OneTab ↔ r.Fits s d := by
  cases r with
  | paneSync session listed laidOut attached => exact AppState.oneTab_paneSync_iff attached h ht
  | layoutResync answered attached recentlySplit =>
    simp only [AppState.sync] at ht
    exact AppState.oneTab_layoutResync_iff attached h ht

/-- Two windows of one session, the second of them with a pane that is new. -/
def twoWindows : DaemonView where
  windows := [⟨⟨1⟩,⟨1⟩,.leaf ⟨1⟩⟩,⟨⟨1⟩,⟨2⟩,.split .vertical [(.leaf ⟨2⟩,50),(.leaf ⟨3⟩,50)]⟩]
  panes _ := [⟨⟨1⟩,⟨1⟩⟩,⟨⟨2⟩,⟨2⟩⟩,⟨⟨3⟩,⟨2⟩⟩]
  disjoint := by simp [LayoutNode.allLeaves,LayoutNode.leavesOf]

/-- The client has a tab for each and looks at the second. -/
def twoTabs : AppState where
  sessions := [⟨⟨1⟩,[.single ⟨1⟩ ⟨1⟩,.single ⟨2⟩ ⟨2⟩],1⟩]
  activeSession := 0
  slots := [some ⟨1⟩,some ⟨2⟩]
  sessionLost := false

theorem tabAt_twoTabs {i j : Nat} {tab : Tab} (h : twoTabs.tabAt i j = some tab) :
    i = 0 ∧ (j = 0 ∧ tab = .single ⟨1⟩ ⟨1⟩ ∨ j = 1 ∧ tab = .single ⟨2⟩ ⟨2⟩) := by
  obtain ⟨sv,hsv,htab⟩ := Option.bind_eq_some_iff.mp h
  cases i with
  | succ i => simp [twoTabs] at hsv
  | zero =>
    obtain rfl := Option.some.inj hsv
    rcases j with _ | _ | j
    · exact ⟨rfl,Or.inl ⟨rfl,(Option.some.inj htab).symm⟩⟩
    · exact ⟨rfl,Or.inr ⟨rfl,(Option.some.inj htab).symm⟩⟩
    · simp at htab

theorem oneTab_twoTabs : twoTabs.OneTab where
  once := by
    intro pane a b ha hb
    obtain ⟨tab,htab,hmem⟩ := ha
    obtain ⟨tab',htab',hmem'⟩ := hb
    have ha := tabAt_twoTabs htab
    have hb := tabAt_twoTabs htab'
    obtain ⟨i,j⟩ := a
    obtain ⟨i',j'⟩ := b
    simp only at ha hb
    obtain ⟨rfl,⟨rfl,rfl⟩ | ⟨rfl,rfl⟩⟩ := ha <;> obtain ⟨rfl,⟨rfl,rfl⟩ | ⟨rfl,rfl⟩⟩ := hb <;>
      simp_all [Tab.single,LayoutNode.allLeaves]
  zoomed := by
    intro i j tab htab
    obtain ⟨-,⟨-,rfl⟩ | ⟨-,rfl⟩⟩ := tabAt_twoTabs htab <;> simp [Tab.single]

theorem oneTab_sync_window : ∃ t,
    twoTabs.sync twoWindows (.layoutResync true (fun _ => true) false) = some t ∧ t.OneTab := by
  have hfits : SyncReply.Fits twoTabs twoWindows (.layoutResync true (fun _ => true) false) := by
    intro sv hsv tab htab layout hlayout _
    obtain rfl := Option.some.inj hsv
    obtain rfl := Option.some.inj htab
    obtain rfl := Option.some.inj hlayout
    refine ⟨fun p hp place hplace => ?_,fun tab htab => ?_⟩
    · obtain ⟨i,j⟩ := place
      obtain ⟨tab,htab,hmem⟩ := hplace
      obtain ⟨rfl,⟨rfl,rfl⟩ | ⟨rfl,rfl⟩⟩ := tabAt_twoTabs htab
      · simp_all [Tab.single,LayoutNode.allLeaves,LayoutNode.leavesOf]
      · rfl
    · obtain rfl := Option.some.inj htab
      simp [Tab.single]
  exact ⟨_,rfl,(oneTab_sync_iff oneTab_twoTabs rfl).mpr hfits⟩

/-- The new pane is in the second window, and the layout of the first goes to its tab. -/
theorem first_window_twice : ¬∀ (s t : AppState) (d : DaemonView) (r : SyncReply),
    s.OneTab → s.sync d r = some t → t.OneTab := by
  intro h
  have hone := h twoTabs _ twoWindows (.paneSync ⟨1⟩ true true fun _ => true) oneTab_twoTabs rfl
  have hfirst := @AppState.OneTab.once _ hone ⟨1⟩ (0,0) (0,1) ⟨_,rfl,by decide⟩ ⟨_,rfl,by decide⟩
  exact absurd hfirst (by decide)

end Pyre.Tui
