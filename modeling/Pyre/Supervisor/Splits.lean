import Pyre.Session.Splits
import Pyre.Supervisor.WindowLayouts

/-!
What a split leaves in the layout, in a daemon of its own and under a supervisor. The
new pane is opened first and the tree changed later; the state may be any by then.
-/

set_option autoImplicit false

namespace Pyre.Supervisor
open Base

namespace SupervisorImpl

variable {s t u : SupervisorImpl} {session : SessionKey} {w : WindowId} {parent pane : PaneId}
  {orient : Orient} {tree : LayoutNode}

/-- The part of `open_pane_split` that changes the tree of the window; what follows
assigns the new pane to the window. -/
def growTree (s : SupervisorImpl) (session : SessionKey) (parent pane : PaneId)
    (orient : Orient) (w : WindowId) : SupervisorImpl :=
  let s := s.orInsertMeta w ⟨session,"1",0,some (.leaf parent)⟩
  match s.windowStore.lookup w with
  | none => s
  | some info =>
    let tree := (info.layout.getD (.leaf parent)).splitFocused parent pane orient
    (s.setLayout w tree).upsertWindowLayout w tree

theorem orInsertMeta_spec (s : SupervisorImpl) (session : SessionKey) (parent : PaneId)
    (w : WindowId) :
    ∃ info, (s.orInsertMeta w ⟨session,"1",0,some (.leaf parent)⟩).windowStore.lookup w =
        some info ∧ info.session = (s.sessionOf w).getD session ∧
      info.layout.getD (.leaf parent) = s.treeToSplit w parent := by
  cases h : s.windowStore.lookup w with
  | some info =>
    have hsession : s.sessionOf w = some info.session := by rw [sessionOf,h]; rfl
    have hknown : s.orInsertMeta w ⟨session,"1",0,some (.leaf parent)⟩ = s :=
      orInsertMeta_known (by simp [hsession]) _
    refine ⟨info,by rw [hknown,h],by rw [hsession]; rfl,?_⟩
    rw [treeToSplit,h]
    rfl
  | none =>
    have hsession : s.sessionOf w = none := by rw [sessionOf,h]; rfl
    refine ⟨⟨session,"1",0,some (.leaf parent)⟩,?_,by rw [hsession]; rfl,?_⟩
    · rw [orInsertMeta_unknown hsession,lookup_setMeta_self]
    · rw [treeToSplit,h]
      rfl

theorem placeSplit_eq (s : SupervisorImpl) (session : SessionKey) (parent pane : PaneId)
    (orient : Orient) (w : WindowId) :
    s.placeSplit session parent pane orient w =
      (s.growTree session parent pane orient w).assign pane w := by
  obtain ⟨info,hinfo,-⟩ := orInsertMeta_spec s session parent w
  simp only [placeSplit,growTree,hinfo]

/-- The session that the window shows the panes of. -/
def shownSession (s : SupervisorImpl) (session : SessionKey) (w : WindowId) : SessionKey :=
  (s.sessionOf w).getD session

/-- The state once the tree has changed, as far as it decides what is shown. -/
theorem growTree_spec (s : SupervisorImpl) (session : SessionKey) (parent pane : PaneId)
    (orient : Orient) (w : WindowId) :
    (s.growTree session parent pane orient w).sessionOf w = some (s.shownSession session w) ∧
      (s.growTree session parent pane orient w).treeOf w =
        some ((s.treeToSplit w parent).splitFocused parent pane orient) ∧
      s.SamePanes (s.growTree session parent pane orient w) := by
  obtain ⟨info,hinfo,hsession,hlayout⟩ := orInsertMeta_spec s session parent w
  have hsame := samePanes_orInsertMeta s w ⟨session,"1",0,some (.leaf parent)⟩
  set u := s.orInsertMeta w ⟨session,"1",0,some (.leaf parent)⟩ with hu
  set tree := (s.treeToSplit w parent).splitFocused parent pane orient with htree
  have hgrow : s.growTree session parent pane orient w =
      (u.setLayout w tree).upsertWindowLayout w tree := by
    simp only [growTree,← hu,hinfo,hlayout,htree]
  have hknown : u.sessionOf w = some (s.shownSession session w) := by
    rw [sessionOf,hinfo,Option.map_some,hsession,shownSession]
  rw [hgrow]
  exact ⟨(sessionOf_setLayout u w w tree).trans hknown,
    treeOf_storeLayout_self (s := u) (by simp [hknown]) tree,
    hsame.trans (samePanes_storeLayout u w tree)⟩

/-! What a reader of the window is shown of its tree. -/

/-- The tree as `get_window_layout` gives it and leaves it. -/
def shownTree (s : SupervisorImpl) (session : SessionKey) (w : WindowId) (tree : LayoutNode) :
    LayoutNode :=
  if s.livePanes session w = [] ∨ tree.allLeaves.all (s.isLive session w) then tree
  else s.pruneGhosts session w tree

theorem livePanes_eq_nil : s.livePanes session w = [] ↔ ∀ q, s.isLive session w q = false := by
  rw [List.eq_nil_iff_forall_not_mem]
  exact forall_congr' fun q => by rw [mem_livePanes,Bool.not_eq_true]

theorem shownTree_congr (h : ∀ q, t.isLive session w q = s.isLive session w q)
    (tree : LayoutNode) : t.shownTree session w tree = s.shownTree session w tree := by
  have hlive : t.isLive session w = s.isLive session w := funext h
  have hnil : t.livePanes session w = [] ↔ s.livePanes session w = [] := by
    simp only [livePanes_eq_nil,h]
  simp only [shownTree,pruneGhosts,hlive,hnil]

theorem leaves_shownTree {q : PaneId} (h : q ∈ (s.shownTree session w tree).allLeaves) :
    q ∈ tree.allLeaves := by
  unfold shownTree at h
  split at h
  · exact h
  · exact LayoutNode.mem_leaves_foldl_close h

/-- Of two leaves that are shown, both are live, if any pane is. -/
theorem live_of_shownTree {a b : PaneId} (hne : a ≠ b) (hsome : s.livePanes session w ≠ [])
    (ha : a ∈ (s.shownTree session w tree).allLeaves)
    (hb : b ∈ (s.shownTree session w tree).allLeaves) : s.isLive session w a = true := by
  unfold shownTree at ha hb
  split at ha
  · rename_i hall
    exact List.all_eq_true.mp (hall.resolve_left hsome) a ha
  · rename_i hall
    rw [if_neg hall] at hb
    have hleaf := LayoutNode.mem_leaves_foldl_close ha
    have hghost := LayoutNode.notMem_of_leaves_foldl_close ha hb hne
    simpa [hleaf] using hghost

theorem halves_shownTree {a b : PaneId} (h : tree.Halves orient a b)
    (hlive : s.livePanes session w = [] ∨
      s.isLive session w a = true ∧ s.isLive session w b = true) :
    (s.shownTree session w tree).Halves orient a b := by
  unfold shownTree
  split
  · exact h
  · rename_i hall
    obtain ⟨ha,hb⟩ := hlive.resolve_left fun hnil => hall (Or.inl hnil)
    exact LayoutNode.halves_foldl_close h (by simp [ha]) (by simp [hb])

theorem leaves_iterate_shownTree {n : ℕ} {q : PaneId}
    (h : q ∈ ((s.shownTree session w)^[n] tree).allLeaves) : q ∈ tree.allLeaves := by
  induction n generalizing tree with
  | zero => exact h
  | succ n ih => exact leaves_shownTree (ih h)

theorem halves_iterate_shownTree {a b : PaneId} (h : tree.Halves orient a b)
    (hlive : s.livePanes session w = [] ∨
      s.isLive session w a = true ∧ s.isLive session w b = true) (n : ℕ) :
    ((s.shownTree session w)^[n] tree).Halves orient a b := by
  induction n generalizing tree with
  | zero => exact h
  | succ n ih => exact ih (halves_shownTree h hlive)

theorem getWindowLayout_shown (hw : s.sessionOf w = some session) (ht : s.treeOf w = some tree)
    (first : UInt32) (fresh : PaneId) :
    (s.getWindowLayout w first fresh).2 = some (s.shownTree session w tree) ∧
      (s.getWindowLayout w first fresh).1.treeOf w = some (s.shownTree session w tree) ∧
      (s.getWindowLayout w first fresh).1.sessionOf w = some session ∧
      s.SamePanes (s.getWindowLayout w first fresh).1 := by
  obtain ⟨info,hinfo,rfl⟩ := Option.map_eq_some_iff.mp hw
  have hset : (s.setLayout w tree).sessionOf w ≠ none := by
    rw [sessionOf_setLayout,hw]
    exact Option.some_ne_none _
  obtain ⟨tree',hres,⟨rfl,hkept,hst⟩ | ⟨rfl,hne,hst⟩⟩ := getWindowLayout_of_tree hinfo ht first fresh
  · rw [hres,hst,shownTree,if_pos hkept]
    exact ⟨rfl,treeOf_setLayout_self (by simp [hw]) _,(sessionOf_setLayout s w w _).trans hw,
      samePanes_setLayout s w _⟩
  · have hprune : s.shownTree info.session w tree = s.pruneGhosts info.session w tree := by
      unfold shownTree
      split
      · rename_i hall
        have hlive := List.all_eq_true.mp (hall.resolve_left hne)
        have hnone : tree.allLeaves.filter (fun p => !s.isLive info.session w p) = [] := by
          rw [List.filter_eq_nil_iff]
          intro q hq
          simp [hlive q hq]
        rw [pruneGhosts,hnone]
        rfl
      · rfl
    rw [hres,hst,hprune]
    exact ⟨rfl,treeOf_storeLayout_self hset _,
      ((sessionOf_setLayout _ w w _).trans (sessionOf_setLayout s w w _)).trans hw,
      (samePanes_setLayout s w tree).trans (samePanes_storeLayout _ w _)⟩

/-! The layouts that are read before the new pane is assigned. -/

/-- What the readers of layouts leave of the window and of its live panes. -/
structure Reads (s u : SupervisorImpl) (w : WindowId) : Prop where
  session : u.sessionOf w = s.sessionOf w
  map : u.paneWindowMap = s.paneWindowMap
  kept : ∀ q k, s.index.lookup q = some k → u.index.lookup q = some k
  found : ∀ q k, u.index.lookup q = some k →
    s.index.lookup q = some k ∨ s.paneWindowMap.lookup q = none

theorem SamePanes.reads (h : s.SamePanes u) (hw : u.sessionOf w = s.sessionOf w) :
    s.Reads u w where
  session := hw
  map := h.paneWindowMap
  kept _ _ hq := by rwa [h.index]
  found _ _ hq := Or.inl (by rwa [h.index] at hq)

theorem Reads.trans (h : s.Reads t w) (h' : t.Reads u w) : s.Reads u w where
  session := h'.session.trans h.session
  map := h'.map.trans h.map
  kept q k hq := h'.kept q k (h.kept q k hq)
  found q k hq := by
    rcases h'.found q k hq with hq | hq
    · exact h.found q k hq
    · exact Or.inr (by rwa [h.map] at hq)

theorem Reads.isLive (h : s.Reads u w) (session : SessionKey) (q : PaneId) :
    u.isLive session w q = s.isLive session w q := by
  rw [Bool.eq_iff_iff,isLive_iff,isLive_iff]
  refine exists_congr fun k => and_congr_left fun _ => ?_
  rw [On,On,h.map]
  refine and_congr_left fun hq => ⟨fun hk => ?_,h.kept q k⟩
  exact (h.found q k hk).resolve_right fun hnone => by simp [hnone] at hq

/-- A reader changes the tree of the window it asks for, and no other. -/
theorem reads_getWindowLayout (hw : s.sessionOf w = some session)
    (ht : s.treeOf w = some tree) {fresh : PaneId} (hfresh : s.UnusedPane fresh) (v : WindowId)
    (first : UInt32) :
    s.Reads (s.getWindowLayout v first fresh).1 w ∧
      (s.getWindowLayout v first fresh).1.treeOf w =
        some (if v = w then s.shownTree session w tree else tree) := by
  by_cases hv : v = w
  · subst hv
    obtain ⟨-,htree,hsession,hsame⟩ := getWindowLayout_shown hw ht first fresh
    exact ⟨hsame.reads (hsession.trans hw.symm),by rw [if_pos rfl,htree]⟩
  · rw [if_neg hv]
    have hwv : w ≠ v := Ne.symm hv
    cases hinfo : s.windowStore.lookup v with
    | none =>
      have hsame : (s.getWindowLayout v first fresh).1 = s := by simp [getWindowLayout,hinfo]
      rw [hsame]
      exact ⟨(SamePanes.refl s).reads rfl,ht⟩
    | some info =>
      cases htv : s.treeOf v with
      | none =>
        simp only [getWindowLayout,hinfo,htv]
        split
        · refine ⟨⟨rfl,rfl,fun q k hq => ?_,fun q k hq => ?_⟩,ht⟩
          · refine PaneIndex.lookup_getOrAlloc ?_ hq
            rintro rfl
            simp [hfresh.1] at hq
          · rcases PaneIndex.lookup_of_getOrAlloc hq with rfl | hq
            · exact Or.inr hfresh.2.1
            · exact Or.inl hq
        · exact ⟨(SamePanes.refl s).reads rfl,ht⟩
      | some tree' =>
        obtain ⟨tree'',-,⟨-,-,hst⟩ | ⟨rfl,-,hst⟩⟩ := getWindowLayout_of_tree hinfo htv first fresh
        · rw [hst]
          exact ⟨(samePanes_setLayout s v tree').reads (sessionOf_setLayout s v w tree'),
            (treeOf_setLayout_ne hwv s tree').trans ht⟩
        · rw [hst]
          have hsame := (samePanes_setLayout s v tree').trans (samePanes_storeLayout _ v
            (s.pruneGhosts info.session v tree'))
          exact ⟨hsame.reads ((sessionOf_setLayout _ v w _).trans (sessionOf_setLayout s v w _)),
            (treeOf_storeLayout_ne hwv _ _).trans ((treeOf_setLayout_ne hwv s _).trans ht)⟩

/-- `get_window_layout` of a window, with the slot its worker lists first and the id
that an unknown slot would get. -/
abbrev Read := WindowId × UInt32 × PaneId

def read (s : SupervisorImpl) (r : Read) : Option SupervisorImpl :=
  s.step (.getWindowLayout r.1 r.2.1 r.2.2)

/-- The tree is pruned once for each reader of the window. -/
theorem reads_exec (hw : s.sessionOf w = some session) (ht : s.treeOf w = some tree)
    {reads : List Read} (h : exec read s reads = some u) :
    s.Reads u w ∧ u.treeOf w =
      some ((s.shownTree session w)^[(reads.map Prod.fst).count w] tree) := by
  induction reads generalizing s tree with
  | nil =>
    obtain rfl := Option.some.inj h
    exact ⟨(SamePanes.refl s).reads rfl,ht⟩
  | cons r reads ih =>
    obtain ⟨t,hstep,h⟩ := Option.bind_eq_some_iff.mp h
    simp only [read,step,Option.ite_none_right_eq_some,Option.some.injEq] at hstep
    obtain ⟨hfresh,rfl⟩ := hstep
    obtain ⟨hreads,htree⟩ := reads_getWindowLayout hw ht hfresh r.1 r.2.1
    obtain ⟨hrest,hu⟩ := ih (hreads.session.trans hw) htree h
    refine ⟨hreads.trans hrest,?_⟩
    have hshown : (s.getWindowLayout r.1 r.2.1 r.2.2).1.shownTree session w =
        s.shownTree session w := funext (shownTree_congr (hreads.isLive session))
    rw [hu,hshown,List.map_cons,List.count_cons]
    by_cases hr : r.1 = w
    · simp [hr]
    · simp [hr]

theorem isLive_assign_ne {q : PaneId} (hq : q ≠ pane) (s : SupervisorImpl)
    (session : SessionKey) (w : WindowId) :
    (s.assign pane w).isLive session w q = s.isLive session w q := by
  have hmap : (s.assign pane w).paneWindowMap.lookup q = s.paneWindowMap.lookup q :=
    AList.lookup_insert_ne hq
  rw [isLive,isLive,hmap]
  rfl

theorem isLive_assign_self {k : SlotKey} (h : s.index.lookup pane = some k)
    (session : SessionKey) (w : WindowId) :
    (s.assign pane w).isLive session w pane = true ↔ k.1 = session := by
  have hmap : (s.assign pane w).paneWindowMap.lookup pane = some w := AList.lookup_insert _
  have hindex : (s.assign pane w).index.lookup pane = some k := h
  rw [isLive,decide_eq_true_eq,hmap,hindex,Option.map_some,Option.some_inj]
  exact and_iff_left rfl

/-- The parent is a leaf of the tree and is assigned to the window; in a window of
another session no pane is pruned only while that session has none there. -/
def CanSplit (s : SupervisorImpl) (session : SessionKey) (parent : PaneId) (w : WindowId) : Prop :=
  parent ∈ (s.treeToSplit w parent).allLeaves ∧
    if s.shownSession session w = session then s.paneWindowMap.lookup parent = some w
    else s.livePanes (s.shownSession session w) w = []

/-- Nobody reads the window while the new pane would be pruned from it. -/
def Unpruned (s : SupervisorImpl) (session : SessionKey) (w : WindowId) (pane : PaneId)
    (reads : List Read) : Prop :=
  s.livePanes (s.shownSession session w) w = [] ∨
    s.isLive (s.shownSession session w) w pane = true ∨ w ∉ reads.map Prod.fst

theorem shows_split_iff {k k' : UInt32} (hparent : s.index.lookup parent = some (session,k))
    (hpane : s.index.lookup pane = some (session,k')) (hne : parent ≠ pane) {reads : List Read}
    (h : exec read (s.growTree session parent pane orient w) reads = some u) (first : UInt32)
    (fresh : PaneId) :
    (∃ tree, ((u.assign pane w).getWindowLayout w first fresh).2 = some tree ∧
        tree.Halves orient parent pane) ↔
      s.CanSplit session parent w ∧ s.Unpruned session w pane reads := by
  obtain ⟨hsession,htree,hsame⟩ := growTree_spec s session parent pane orient w
  obtain ⟨hreads,hu⟩ := reads_exec hsession htree h
  rw [CanSplit,Unpruned]
  set t := s.growTree session parent pane orient w with ht
  set σ := s.shownSession session w with hσ
  set tree := (s.treeToSplit w parent).splitFocused parent pane orient with hdef
  have hsplit : tree.Halves orient parent pane ↔ parent ∈ (s.treeToSplit w parent).allLeaves :=
    LayoutNode.halves_splitFocused
  have hgrown : ∀ q, t.isLive σ w q = s.isLive σ w q := by
    intro q
    rw [isLive,isLive,hsame.index,hsame.paneWindowMap]
  rw [funext (shownTree_congr hgrown)] at hu
  set n := (reads.map Prod.fst).count w with hn
  -- the readers see the live panes from before, the last one the new pane as well
  have hlive : ∀ q, q ≠ pane → (u.assign pane w).isLive σ w q = s.isLive σ w q := by
    intro q hq
    rw [isLive_assign_ne hq,hreads.isLive,hgrown]
  have hpaneLive : (u.assign pane w).isLive σ w pane = true ↔ session = σ :=
    isLive_assign_self (hreads.kept pane _ (by rw [hsame.index,hpane])) σ w
  have hparentLive : s.isLive σ w parent = true ↔
      session = σ ∧ s.paneWindowMap.lookup parent = some w := by
    rw [isLive,decide_eq_true_eq,hparent,Option.map_some,Option.some_inj]
  have hres := (getWindowLayout_shown (s := u.assign pane w) (hreads.session.trans hsession) hu
    first fresh).1
  have hshows : (∃ tree', ((u.assign pane w).getWindowLayout w first fresh).2 = some tree' ∧
      tree'.Halves orient parent pane) ↔ ((u.assign pane w).shownTree σ w
        ((s.shownTree σ w)^[n] tree)).Halves orient parent pane := by
    rw [hres]
    simp only [Option.some.injEq,exists_eq_left']
  rw [hshows]
  constructor
  · intro hh
    have hp := hh.parent_mem
    have hq := hh.fresh_mem
    have hmem := leaves_iterate_shownTree (leaves_shownTree hp)
    have hleaf := (LayoutNode.mem_leaves_splitFocused hmem).resolve_right hne
    by_cases heq : σ = session
    · have hsome : (u.assign pane w).livePanes σ w ≠ [] :=
        List.ne_nil_of_mem (mem_livePanes.mpr (hpaneLive.mpr heq.symm))
      have hl := live_of_shownTree hne hsome hp hq
      rw [hlive parent hne] at hl
      rw [if_pos heq]
      refine ⟨⟨hleaf,(hparentLive.mp hl).2⟩,?_⟩
      by_contra hc
      push Not at hc
      obtain ⟨hnil,hdead,hread⟩ := hc
      obtain ⟨m,hm⟩ := Nat.exists_eq_succ_of_ne_zero (List.count_pos_iff.mpr hread).ne'
      rw [← hn] at hm
      rw [hm,Function.iterate_succ_apply'] at hp hq
      exact hdead (live_of_shownTree hne.symm hnil (leaves_shownTree hq) (leaves_shownTree hp))
    · rw [if_neg heq]
      have hnil : s.livePanes σ w = [] := by
        refine livePanes_eq_nil.mpr fun q => ?_
        by_contra hq'
        rw [Bool.not_eq_false] at hq'
        have hqp : q ≠ pane := by
          rintro rfl
          rw [isLive,decide_eq_true_eq,hpane] at hq'
          exact heq (Option.some.inj hq'.1).symm
        have hsome : (u.assign pane w).livePanes σ w ≠ [] :=
          List.ne_nil_of_mem (mem_livePanes.mpr ((hlive q hqp).trans hq'))
        exact heq (hpaneLive.mp (live_of_shownTree hne.symm hsome hq hp)).symm
      exact ⟨⟨hleaf,hnil⟩,Or.inl hnil⟩
  · rintro ⟨⟨hleaf,hhome⟩,hunpruned⟩
    have hh := hsplit.mpr hleaf
    by_cases heq : σ = session
    · rw [if_pos heq] at hhome
      have hl := hparentLive.mpr ⟨heq.symm,hhome⟩
      have hbefore : ((s.shownTree σ w)^[n] tree).Halves orient parent pane := by
        rcases hunpruned with hnil | hl' | hread
        · exact halves_iterate_shownTree hh (Or.inl hnil) n
        · exact halves_iterate_shownTree hh (Or.inr ⟨hl,hl'⟩) n
        · rw [hn,List.count_eq_zero.mpr hread]
          exact hh
      refine halves_shownTree hbefore (Or.inr ⟨?_,hpaneLive.mpr heq.symm⟩)
      rw [hlive parent hne,hl]
    · rw [if_neg heq] at hhome
      refine halves_shownTree (halves_iterate_shownTree hh (Or.inl hhome) n) (Or.inl ?_)
      refine livePanes_eq_nil.mpr fun q => ?_
      by_cases hqp : q = pane
      · rw [hqp,← Bool.not_eq_true,hpaneLive]
        exact fun h => heq h.symm
      · rw [hlive q hqp,livePanes_eq_nil.mp hhome q]

end SupervisorImpl

/-- A split is shown just where the parent is a leaf of the tree that is changed. Under
a supervisor the parent must be assigned to that window as well, and the window not be
read before the new pane is. -/
theorem split_shown_iff (w : WindowId) (parent pane : PaneId) (orient : Orient) :
    (∀ (actions : List Session.Action) (s t : Session.Registry) (sid : SessionId)
        (se : Session.SessionState),
      exec Session.Registry.step .empty actions = some s → s.getPane parent = some (sid,se,w) →
      s.step (.openPaneSplit parent orient pane) = some t →
      ((∃ tree ∈ t.windowLayouts w, tree.Halves orient parent pane) ↔ se.Leaf w parent)) ∧
    (∀ (s : Session.Registry) (sid : SessionId) (se : Session.SessionState)
        (win : Session.WindowState),
      s.sessions.lookup sid = some se → se.findWindow w = some win →
      ((∃ se' tree, (s.placeSplit sid w parent pane orient).sessions.lookup sid = some se' ∧
          se'.layoutOf w = some tree ∧ tree.Halves orient parent pane) ↔
        parent ∈ (win.layout.getD (.leaf parent)).allLeaves)) ∧
    ∀ (s u : SupervisorImpl) (session : SessionKey) (k k' : UInt32)
        (reads : List SupervisorImpl.Read),
      s.index.lookup parent = some (session,k) → s.index.lookup pane = some (session,k') →
      parent ≠ pane →
      exec SupervisorImpl.read (s.growTree session parent pane orient w) reads = some u →
      ∀ first fresh, (∃ tree, ((u.assign pane w).getWindowLayout w first fresh).2 = some tree ∧
          tree.Halves orient parent pane) ↔
        s.CanSplit session parent w ∧ s.Unpruned session w pane reads := by
  refine ⟨?_,?_,?_⟩
  · intro actions s t sid se hrun hget hstep
    have hi := (Always.of_invariant Session.Registry.step_inv Session.Registry.inv_empty
      actions).last hrun
    exact Session.Registry.shows_openPaneSplit_iff hi hget hstep
  · intro s sid se win hse hwin
    exact Session.Registry.halves_placeSplit hse hwin parent pane orient
  · intro s u session k k' reads hparent hpane hne h first fresh
    exact SupervisorImpl.shows_split_iff hparent hpane hne h first fresh

/-- The first pane of a window is split in either mode, under a supervisor while a
reader looks at another window. -/
theorem split_shown_first :
    (∃ s t, exec Session.Registry.step .empty [.newSession ⟨0⟩ ⟨0⟩,.openPane ⟨0⟩ ⟨0⟩ ⟨1⟩] =
        some s ∧ s.step (.openPaneSplit ⟨1⟩ .vertical ⟨2⟩) = some t ∧
        ∃ tree ∈ t.windowLayouts ⟨0⟩, tree.Halves .vertical ⟨1⟩ ⟨2⟩) ∧
    (∃ se tree, (Session.Registry.placeSplit ⟨AList.insert ⟨0⟩ ⟨∅,[⟨⟨0⟩,some (.leaf ⟨1⟩)⟩]⟩ ∅,[],[]⟩
        ⟨0⟩ ⟨0⟩ ⟨1⟩ ⟨2⟩ .vertical).sessions.lookup ⟨0⟩ = some se ∧ se.layoutOf ⟨0⟩ = some tree ∧
        tree.Halves .vertical ⟨1⟩ ⟨2⟩) ∧
    ∃ u, exec SupervisorImpl.read (((SupervisorImpl.empty.spawn "s" ⟨1⟩ ⟨1⟩).allocPane "s"
        ⟨2⟩).1.growTree "s" ⟨1⟩ ⟨2⟩ .vertical ⟨1⟩) [(⟨2⟩,0,⟨3⟩)] = some u ∧
        ∃ tree, ((u.assign ⟨2⟩ ⟨1⟩).getWindowLayout ⟨1⟩ 0 ⟨3⟩).2 = some tree ∧
          tree.Halves .vertical ⟨1⟩ ⟨2⟩ := by
  refine ⟨⟨_,_,rfl,rfl,?_⟩,?_,⟨_,rfl,?_⟩⟩
  · exact ((split_shown_iff ⟨0⟩ ⟨1⟩ ⟨2⟩ .vertical).1 [.newSession ⟨0⟩ ⟨0⟩,.openPane ⟨0⟩ ⟨0⟩ ⟨1⟩]
      _ _ ⟨0⟩ _ rfl rfl rfl).mpr ⟨_,rfl,List.mem_singleton.mpr rfl⟩
  · exact ((split_shown_iff ⟨0⟩ ⟨1⟩ ⟨2⟩ .vertical).2.1 _ ⟨0⟩ _ _ rfl rfl).mpr
      (List.mem_singleton.mpr rfl)
  · have hshown : ((SupervisorImpl.empty.spawn "s" ⟨1⟩ ⟨1⟩).allocPane "s" ⟨2⟩).1.shownSession "s"
        ⟨1⟩ = "s" := rfl
    have hcan : ((SupervisorImpl.empty.spawn "s" ⟨1⟩ ⟨1⟩).allocPane "s" ⟨2⟩).1.CanSplit "s" ⟨1⟩
        ⟨1⟩ := by
      refine ⟨List.mem_singleton.mpr rfl,?_⟩
      rw [if_pos hshown]
      rfl
    exact ((split_shown_iff ⟨1⟩ ⟨1⟩ ⟨2⟩ .vertical).2.2 _ _ "s" 0 1 [(⟨2⟩,0,⟨3⟩)] rfl rfl
      (by decide) rfl 0 ⟨3⟩).mpr ⟨hcan,Or.inr (Or.inr (by decide))⟩

/-- The second pane of a window is no leaf of its tree, and a split of it is not shown. -/
theorem split_not_shown :
    (¬∀ (actions : List Session.Action) (s t : Session.Registry) (sid : SessionId)
        (se : Session.SessionState) (w : WindowId) (parent pane : PaneId) (orient : Orient),
      exec Session.Registry.step .empty actions = some s → s.getPane parent = some (sid,se,w) →
      s.step (.openPaneSplit parent orient pane) = some t →
      ∃ tree ∈ t.windowLayouts w, tree.Halves orient parent pane) ∧
    ¬∀ (operations : List Operation) (s t : SupervisorImpl) (parent pane : PaneId)
        (orient : Orient) (w fresh : WindowId),
      exec SupervisorImpl.step .empty operations = some s →
      s.paneWindowMap.lookup parent = some w →
      s.step (.openPaneSplit parent orient pane fresh) = some t →
      ∀ first fresh, ∃ tree, (t.getWindowLayout w first fresh).2 = some tree ∧
        tree.Halves orient parent pane := by
  constructor
  · intro h
    obtain ⟨tree,htree,hh⟩ := h [.newSession ⟨0⟩ ⟨0⟩,.openPane ⟨0⟩ ⟨0⟩ ⟨1⟩,.openPane ⟨0⟩ ⟨0⟩ ⟨2⟩]
      _ _ ⟨0⟩ _ ⟨0⟩ ⟨2⟩ ⟨3⟩ .vertical rfl rfl rfl
    obtain rfl := List.mem_singleton.mp htree
    exact absurd hh.parent_mem (by decide)
  · intro h
    obtain ⟨tree,htree,hh⟩ := h [.spawn "s" ⟨1⟩ ⟨1⟩,.openPane "s" none ⟨2⟩ ⟨2⟩] _ _ ⟨2⟩ ⟨3⟩
      .vertical ⟨1⟩ ⟨2⟩ rfl rfl rfl 0 ⟨4⟩
    obtain rfl := Option.some.inj htree
    exact absurd hh.parent_mem (by decide)

end Pyre.Supervisor
