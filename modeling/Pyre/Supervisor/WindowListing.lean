import Pyre.Supervisor.WindowCache

/-!
Which runs after a restart keep the list of the windows complete: what each call takes
into memory, and what it does to the list.
-/

set_option autoImplicit false

namespace Pyre.Supervisor
open Base

namespace SupervisorImpl

variable {s t u : SupervisorImpl} {session : SessionKey} {v w : WindowId} {p : PaneId}

/-! A window that comes into memory. -/

/-- A window is cached after the others, at the position that is their count. -/
structure Pushes (s t : SupervisorImpl) (session : SessionKey) (w : WindowId) : Prop where
  list : t.windowsOf session = s.windowsOf session ++ [w]
  own : t.sessionOf w = some session
  position : t.positionOf w = some (.ofNat (s.windowsOf session).length)
  sessionOf : ∀ v, v ≠ w → t.sessionOf v = s.sessionOf v
  positionOf : ∀ v, v ≠ w → t.positionOf v = s.positionOf v
  keyed : (t.windowRows.map WindowRow.id).Nodup
  kept : ∀ v, s.Stored session v → t.Stored session v
  stored : ∀ v, t.Stored session v → s.Stored session v ∨ v = w

theorem Pushes.cached (hp : s.Pushes t session w) (h : s.Cached session)
    (hw : w ∉ s.windowsOf session) : t.Cached session where
  nodup := by
    rw [hp.list]
    exact List.Nodup.append h.nodup (List.nodup_singleton w) (by simpa using hw)
  known v := by
    rw [hp.list]
    by_cases hv : v = w
    · simp [hv,hp.own]
    · rw [hp.sessionOf v hv,h.known]
      simp [hv]
  keyed := hp.keyed

theorem Pushes.listsWindows_iff (hp : s.Pushes t session w) (h : s.Cached session)
    (hw : w ∉ s.windowsOf session) (hs : s.ListsWindows session) :
    t.ListsWindows session ↔ s.Appends session w := by
  have hs := (SupervisorImpl.listsWindows_iff h).mp hs
  have hne : ∀ v ∈ s.windowsOf session, v ≠ w := fun v hv heq => hw (heq ▸ hv)
  have hascending : (t.windowsOf session).Pairwise
      (fun v w => ∀ p ∈ t.positionOf v, ∀ q ∈ t.positionOf w, p ≤ q) ↔
      (s.windowsOf session).Pairwise
        (fun v w => ∀ p ∈ s.positionOf v, ∀ q ∈ s.positionOf w, p ≤ q) ∧
      ∀ v ∈ s.windowsOf session, ∀ p ∈ s.positionOf v, p ≤ .ofNat (s.windowsOf session).length := by
    rw [hp.list,List.pairwise_append]
    refine and_congr (List.Pairwise.iff_of_mem fun {a b} ha hb => ?_) ?_
    · rw [hp.positionOf a (hne a ha),hp.positionOf b (hne b hb)]
    · rw [and_iff_right (List.pairwise_singleton _ _)]
      refine forall₂_congr fun v hv => ?_
      simp only [List.mem_singleton,forall_eq,hp.position,Option.mem_some_iff,forall_eq',
        hp.positionOf v (hne v hv)]
  rw [SupervisorImpl.listsWindows_iff (hp.cached h hw),or_iff_right (by simp [hp.list])]
  constructor
  · intro ht
    refine ⟨fun hcold r hr => ?_,(hascending.mp ht.ascending).2⟩
    have hmem := ht.all r.id (hp.kept r.id (stored_iff.mpr ⟨r,hr,rfl⟩))
    simpa [hp.list,hcold] using hmem
  · rintro ⟨hfirst,hlast⟩
    rcases hs with hcold | hloaded
    · refine ⟨fun v hv => ?_,hascending.mpr ⟨by simp [hcold],hlast⟩⟩
      rw [hp.list,List.mem_append,List.mem_singleton]
      rcases hp.stored v hv with hv | rfl
      · obtain ⟨r,hr,rfl⟩ := stored_iff.mp hv
        exact Or.inr (hfirst hcold r hr)
      · exact Or.inr rfl
    · refine ⟨fun v hv => ?_,hascending.mpr ⟨hloaded.ascending,hlast⟩⟩
      rw [hp.list,List.mem_append,List.mem_singleton]
      exact (hp.stored v hv).imp_left (hloaded.all v)

/-- A new window is stored and cached. -/
theorem pushes_newWindow (h : s.Cached session) (hw : s.UnusedWindow w) (name : String)
    (layout : Option LayoutNode) :
    let position : UInt32 := .ofNat (s.windowsOf session).length
    s.Pushes (((s.upsertWindow w session name position).setMeta w
      ⟨session,name,position,layout⟩).pushWindow session w) session w where
  list := windowsOf_pushWindow _ _ _
  own := sessionOf_setMeta_self _ w _
  position := congrArg (Option.map WindowMeta.position) (lookup_setMeta_self _ w _)
  sessionOf v hv := sessionOf_setMeta_ne hv _ _
  positionOf v hv := congrArg (Option.map WindowMeta.position) (lookup_setMeta_ne hv _ _)
  keyed := by
    have hnew : w ∉ s.windowRows.map WindowRow.id := by
      intro hmem
      obtain ⟨r,hr,hid⟩ := List.mem_map.mp hmem
      exact hw.2 r hr hid
    change ((s.windowRows ++ [_]).map WindowRow.id).Nodup
    rw [List.map_append]
    exact List.Nodup.append h.keyed (List.nodup_singleton w) (by simpa using hnew)
  kept v hv := by
    obtain ⟨r,hr,hsession⟩ := hv
    exact ⟨r,List.mem_append_left _ hr,hsession⟩
  stored v hv := by
    obtain ⟨r,hr,hsession,rfl⟩ := hv
    rcases List.mem_append.mp hr with hr | hr
    · exact Or.inl ⟨r,hr,hsession,rfl⟩
    · obtain rfl := List.mem_singleton.mp hr
      exact Or.inr rfl

/-- A window that a pane is opened into is cached only. -/
theorem pushes_placeOpened (h : s.Cached session) (hw : w ∉ s.windowsOf session) (pane : PaneId) :
    s.Pushes (s.placeOpened session pane w) session w := by
  have hnone : (s.assign pane w).sessionOf w = none := by
    have hknown := h.known w
    rw [if_neg hw] at hknown
    exact hknown
  have hlist : w ∉ (s.assign pane w).windowsOf session := hw
  have hplaced : s.placeOpened session pane w = ((s.assign pane w).pushWindow session w).setMeta w
      ⟨session,toString ((UInt32.ofNat (s.windowsOf session).length)+1),
        .ofNat (s.windowsOf session).length,some (.leaf pane)⟩ := by
    simp only [placeOpened,if_neg hlist]
    exact orInsertMeta_unknown (s := (s.assign pane w).pushWindow session w) hnone _
  rw [hplaced]
  exact
    { list := windowsOf_pushWindow _ _ _
      own := sessionOf_setMeta_self _ w _
      position := congrArg (Option.map WindowMeta.position) (lookup_setMeta_self _ w _)
      sessionOf := fun v hv => sessionOf_setMeta_ne hv _ _
      positionOf := fun v hv => congrArg (Option.map WindowMeta.position) (lookup_setMeta_ne hv _ _)
      keyed := h.keyed
      kept := fun v hv => hv
      stored := fun v hv => Or.inl hv }

/-! The first window alone, where nothing is cached. -/

theorem warm_first (h : s.Cached session) (hcold : s.windowsOf session = []) {row : WindowRow}
    (hrow : (s.listWindows session).head? = some row) :
    (s.warm session row).Cached session ∧ (s.warm session row).windowsOf session = [row.id] ∧
      ((s.warm session row).ListsWindows session ↔ s.LoadsAll session) := by
  have hnone : ∀ v, s.sessionOf v = none := by
    intro v
    rw [h.known,hcold,if_neg List.not_mem_nil]
  have hlookup : s.windowStore.lookup row.id = none := Option.map_eq_none_iff.mp (hnone row.id)
  obtain ⟨hlist,hrows,hkept,hstore⟩ := @warm_all s session [row] (List.nodup_singleton _)
    fun r hr => by
      obtain rfl := List.mem_singleton.mp hr
      exact ⟨hlookup,by simp [hcold]⟩
  rw [List.foldl_cons,List.foldl_nil] at hlist hrows hkept hstore
  rw [hcold,List.nil_append,List.map_singleton] at hlist
  have hown := hrows row List.mem_cons_self
  set t := s.warm session row
  have hcached : t.Cached session := by
    refine ⟨by simp [hlist],fun v => ?_,hstore ▸ h.keyed⟩
    rw [hlist]
    by_cases hv : v = row.id
    · subst hv
      rw [sessionOf,hown]
      simp
    · rw [sessionOf,hkept v (by simpa using hv),← sessionOf,hnone]
      simp [hv]
  refine ⟨hcached,hlist,?_⟩
  rw [listsWindows_iff hcached,or_iff_right (by simp [hlist]),LoadsAll]
  simp only [hcold,true_imp_iff]
  have hstored : ∀ v, t.Stored session v ↔ ∃ r ∈ s.listWindows session, r.id = v := by
    intro v
    rw [← stored_iff,Stored,Stored,hstore]
  obtain ⟨rest,hrest⟩ := List.head?_eq_some_iff.mp hrow
  constructor
  · intro hloaded
    have hall : ∀ r ∈ s.listWindows session, r.id = row.id := by
      intro r hr
      simpa [hlist] using hloaded.all r.id ((hstored r.id).mpr ⟨r,hr,rfl⟩)
    have hnodup := h.nodup_listWindows
    rw [hrest] at hall hnodup ⊢
    cases rest with
    | nil => simp
    | cons r rest =>
      have hr := hall r (by simp)
      simp [hr] at hnodup
  · intro hone
    refine ⟨fun v hv => ?_,by simp [hlist]⟩
    obtain ⟨r,hr,rfl⟩ := (hstored v).mp hv
    rw [hrest,List.length_cons] at hone
    have hnil : rest = [] := List.length_eq_zero_iff.mp (by omega)
    rw [hrest,hnil] at hr
    rw [hlist]
    exact List.mem_singleton.mpr (congrArg WindowRow.id (List.mem_singleton.mp hr))

/-- The default window, which is the first one cached or stored, or else a new one. -/
theorem listsWindows_default (h : s.Cached session) {fresh : WindowId}
    (hf : s.UnusedWindow fresh) :
    let t := (s.getOrCreateDefaultWindow session fresh).1
    t.Cached session ∧ (s.getOrCreateDefaultWindow session fresh).2 ∈ t.windowsOf session ∧
      (s.ListsWindows session → (t.ListsWindows session ↔ s.LoadsAll session)) := by
  cases hhead : (s.windowsOf session).head? with
  | some w =>
    have hmem : w ∈ s.windowsOf session := List.mem_of_head? hhead
    simp only [getOrCreateDefaultWindow,hhead]
    exact ⟨h,hmem,fun hs => iff_of_true hs fun hcold => absurd hmem (by simp [hcold])⟩
  | none =>
    have hcold : s.windowsOf session = [] := List.head?_eq_none_iff.mp hhead
    cases hrow : (s.listWindows session).head? with
    | some row =>
      have hwarm : (s.orInsertMeta row.id ⟨session,row.name,row.position,none⟩).pushWindow
          session row.id = s.warm session row := by
        have hlist : row.id ∉ (s.orInsertMeta row.id
            ⟨session,row.name,row.position,none⟩).windowsOf session := by
          rw [windowsOf,(samePanes_orInsertMeta s row.id _).sessionWindows,← windowsOf,hcold]
          exact List.not_mem_nil
        exact (if_neg hlist).symm
      obtain ⟨hcached,hlist,hiff⟩ := warm_first h hcold hrow
      simp only [getOrCreateDefaultWindow,hhead,hrow,hwarm]
      exact ⟨hcached,by rw [hlist]; exact List.mem_singleton_self _,fun _ => hiff⟩
    | none =>
      have hrows : s.listWindows session = [] := List.head?_eq_none_iff.mp hrow
      have hpushes : s.Pushes (((s.upsertWindow fresh session "1" 0).setMeta fresh
          ⟨session,"1",0,none⟩).pushWindow session fresh) session fresh := by
        have hnew := pushes_newWindow h hf "1" none
        simp only [hcold,List.length_nil] at hnew
        exact hnew
      have hnot : fresh ∉ s.windowsOf session := by simp [hcold]
      simp only [getOrCreateDefaultWindow,hhead,hrow]
      refine ⟨hpushes.cached h hnot,by rw [hpushes.list]; simp,fun hs => ?_⟩
      refine (hpushes.listsWindows_iff h hnot hs).trans (iff_of_true ?_ ?_)
      · exact ⟨by simp [hrows],by simp [hcold]⟩
      · simp [LoadsAll,hrows]

/-! The calls. -/

theorem listsWindows_getSessionLayout (h : s.Cached session) (first : UInt32) (fresh : PaneId) :
    let t := (s.getSessionLayout session first fresh).1
    t.Cached session ∧
      (s.ListsWindows session → (t.ListsWindows session ↔ s.LoadsAll session)) := by
  cases hhead : (s.windowsOf session).head? with
  | some w =>
    have hsame := SameWindows.getWindowLayout s w first fresh
    have hmem : w ∈ s.windowsOf session := List.mem_of_head? hhead
    simp only [getSessionLayout,hhead]
    refine ⟨h.of_same hsame,fun hs => (listsWindows_of_same h hsame).trans (iff_of_true hs ?_)⟩
    exact fun hcold => absurd hmem (by simp [hcold])
  | none =>
    have hcold : s.windowsOf session = [] := List.head?_eq_none_iff.mp hhead
    cases hrow : (s.listWindows session).head? with
    | some row =>
      obtain ⟨hcached,-,hiff⟩ := warm_first h hcold hrow
      have hsame := SameWindows.getWindowLayout (s.warm session row) row.id first fresh
      simp only [getSessionLayout,hhead,hrow]
      exact ⟨hcached.of_same hsame,fun _ => (listsWindows_of_same hcached hsame).trans hiff⟩
    | none =>
      have hrows : s.listWindows session = [] := List.head?_eq_none_iff.mp hrow
      have hsame : s.SameWindows (s.getSessionLayout session first fresh).1 := by
        simp only [getSessionLayout,hhead,hrow]
        split
        · exact .of_panes rfl rfl rfl
        · exact .refl s
      refine ⟨h.of_same hsame,fun hs => (listsWindows_of_same h hsame).trans (iff_of_true hs ?_)⟩
      simp [LoadsAll,hrows]

theorem listsWindows_openPane (h : s.Cached session) (asked : Option WindowId) (pane : PaneId)
    {fresh : WindowId} (hf : s.UnusedWindow fresh) :
    let t := s.openPane session asked pane fresh
    t.Cached session ∧ (s.ListsWindows session →
      (t.ListsWindows session ↔ s.KeepsList session (.openPane asked pane fresh))) := by
  have hopened : s.SameWindows (s.openNext session pane) := .of_panes rfl rfl rfl
  have hcached := h.of_same hopened
  have hlists := (listsWindows_of_same h hopened).mpr
  have hold : ∀ {u : SupervisorImpl} {w : WindowId}, w ∈ u.windowsOf session →
      u.SameWindows (u.placeOpened session pane w) := by
    intro u w hw
    have hmem : w ∈ (u.assign pane w).windowsOf session := hw
    simp only [placeOpened,if_pos hmem]
    exact .of_panes rfl rfl rfl
  cases asked with
  | none =>
    have hunused : (s.openNext session pane).UnusedWindow fresh := hf
    obtain ⟨hdefault,hmem,hiff⟩ := listsWindows_default hcached hunused
    have hsame := hold hmem
    refine ⟨hdefault.of_same hsame,fun hs => ?_⟩
    exact (listsWindows_of_same hdefault hsame).trans (hiff (hlists hs))
  | some w =>
    by_cases hw : w ∈ s.windowsOf session
    · have hsame := hopened.trans (hold (u := s.openNext session pane) hw)
      refine ⟨h.of_same hsame,fun hs => (listsWindows_of_same h hsame).trans (iff_of_true hs ?_)⟩
      exact Or.inl hw
    · have hpushes := pushes_placeOpened (s := s.openNext session pane) hcached hw pane
      refine ⟨hpushes.cached hcached hw,fun hs => ?_⟩
      exact (hpushes.listsWindows_iff hcached hw (hlists hs)).trans (or_iff_right hw).symm

theorem listsWindows_newWindow (h : s.Cached session) (name : Option String)
    (hw : s.UnusedWindow w) :
    let t := s.newWindow session name w
    t.Cached session ∧
      (s.ListsWindows session → (t.ListsWindows session ↔ s.Appends session w)) := by
  have hnot : w ∉ s.windowsOf session := by
    intro hmem
    have hknown := h.known w
    rw [if_pos hmem,sessionOf,hw.1] at hknown
    cases hknown
  have hpushes := pushes_newWindow h hw (name.getD (toString
    ((UInt32.ofNat (s.windowsOf session).length)+1))) none
  exact ⟨hpushes.cached h hnot,hpushes.listsWindows_iff h hnot⟩

theorem listsWindows_loadWindows (h : s.Cached session) :
    (s.loadWindows session).Cached session ∧
      (s.ListsWindows session → (s.loadWindows session).ListsWindows session) := by
  unfold loadWindows
  split
  swap
  · exact ⟨h,id⟩
  rename_i hcold
  have hnone : ∀ v, s.sessionOf v = none := by
    intro v
    rw [h.known,hcold,if_neg List.not_mem_nil]
  obtain ⟨hlist,hrows,hkept,hstore⟩ := @warm_all s session (s.listWindows session)
    h.nodup_listWindows fun r _ => ⟨Option.map_eq_none_iff.mp (hnone r.id),by simp [hcold]⟩
  rw [hcold,List.nil_append] at hlist
  set t := (s.listWindows session).foldl (warm session) s
  have hcached : t.Cached session := by
    refine ⟨hlist ▸ h.nodup_listWindows,fun v => ?_,hstore ▸ h.keyed⟩
    rw [hlist]
    split
    · rename_i hv
      obtain ⟨r,hr,rfl⟩ := List.mem_map.mp hv
      rw [sessionOf,hrows r hr]
      rfl
    · rename_i hv
      rw [sessionOf,hkept v hv,← sessionOf,hnone]
  refine ⟨hcached,fun _ => (listsWindows_iff hcached).mpr (Or.inr ⟨fun v hv => ?_,?_⟩)⟩
  · have hstored : s.Stored session v := by rwa [Stored,hstore] at hv
    obtain ⟨r,hr,rfl⟩ := stored_iff.mp hstored
    rw [hlist]
    exact List.mem_map_of_mem hr
  · rw [hlist,List.pairwise_map]
    refine (List.pairwise_insertionSort _ _).imp_of_mem fun {a b} ha hb hab p hp q hq => ?_
    rw [positionOf,hrows a ha] at hp
    rw [positionOf,hrows b hb] at hq
    obtain rfl := Option.some.inj hp
    obtain rfl := Option.some.inj hq
    exact hab

theorem listsWindows_closeWindow (h : s.Cached session) (w : WindowId) :
    (s.closeWindow w).Cached session ∧
      (s.ListsWindows session → (s.closeWindow w).ListsWindows session) := by
  have hsame := SameWindows.closePanesOf s w
  rw [← listsWindows_of_same h hsame]
  replace h := h.of_same hsame
  rw [closeWindow]
  set u := s.closePanesOf w
  set t := (u.dropWindow w).deleteWindow w with ht
  have hlist : t.windowsOf session = (u.windowsOf session).filter (· ≠ w) :=
    windowsOf_dropWindow_of_listed fun v hv => (h.known v).trans (if_pos hv)
  have hlookup : ∀ v, v ≠ w → t.windowStore.lookup v = u.windowStore.lookup v :=
    fun v hv => lookup_dropWindow_ne hv u
  have hgone : t.windowStore.lookup w = none := by
    rw [ht]
    simp only [deleteWindow,dropWindow]
    split
    · exact AList.lookup_erase w u.windowStore
    · split <;> exact AList.lookup_erase w u.windowStore
  have hrows : t.windowRows = u.windowRows.filter fun r => r.id ≠ w := by
    rw [ht,deleteWindow,windowRows_dropWindow]
  have hcached : t.Cached session := by
    refine ⟨hlist ▸ h.nodup.filter _,fun v => ?_,?_⟩
    · by_cases hv : v = w
      · subst hv
        simp [sessionOf,hgone,hlist]
      · rw [sessionOf,hlookup v hv,← sessionOf,h.known,hlist]
        simp [hv]
    · rw [hrows]
      exact h.keyed.sublist (List.filter_sublist.map _)
  refine ⟨hcached,fun hs => (listsWindows_iff hcached).mpr ?_⟩
  rcases (listsWindows_iff h).mp hs with hcold | hloaded
  · exact Or.inl (by rw [hlist,hcold]; rfl)
  · refine Or.inr ⟨fun v hv => ?_,?_⟩
    · obtain ⟨r,hr,hsession,rfl⟩ := hv
      rw [hrows,List.mem_filter] at hr
      rw [hlist,List.mem_filter]
      exact ⟨hloaded.all r.id ⟨r,hr.1,hsession,rfl⟩,hr.2⟩
    · rw [hlist]
      refine (hloaded.ascending.filter _).imp_of_mem fun {a b} ha hb hab => ?_
      have hne : ∀ {v}, v ∈ (u.windowsOf session).filter (· ≠ w) → v ≠ w :=
        fun hv => by simpa using (List.mem_filter.mp hv).2
      rw [positionOf,hlookup a (hne ha),positionOf,hlookup b (hne hb)]
      exact hab

/-- A slot whose pane has a window, or that has none, changes nothing. -/
theorem listPane_placed {slot : UInt32} {pane : PaneId} (hp : s.UnusedPane pane)
    (h : ∀ p, (s.getOrAllocPaneBySlot session slot pane).2 = some p →
      s.paneWindowMap.lookup p ≠ none) (fresh : WindowId) :
    s.listPane session slot pane fresh = s := by
  by_cases hr : s.index.Registers session slot
  · have hnew : (s.getOrAllocPaneBySlot session slot pane).2 = some pane := by
      simp only [getOrAllocPaneBySlot,PaneIndex.getOrAlloc_registers hr]
    exact absurd hp.2.1 (h pane hnew)
  · have hstate : s.getOrAllocPaneBySlot session slot pane =
        (s,(s.index.getOrAllocPaneBySlot session slot pane).2) := by
      simp only [getOrAllocPaneBySlot,PaneIndex.getOrAlloc_keeps hr]
    rw [hstate] at h
    simp only [listPane,hstate]
    split
    · rfl
    · rename_i p hfound
      cases hmap : s.paneWindowMap.lookup p with
      | none => exact absurd hmap (h p hfound)
      | some w => rfl

/-- A pane without a window goes to the default one. -/
theorem listPane_unplaced {slot : UInt32} {pane : PaneId}
    (hfound : (s.getOrAllocPaneBySlot session slot pane).2 = some p)
    (hmap : s.paneWindowMap.lookup p = none) (fresh : WindowId) :
    (s.getOrCreateDefaultWindow session fresh).1.SameWindows
      (s.listPane session slot pane fresh) := by
  set index := (s.index.getOrAllocPaneBySlot session slot pane).1
  have hstate : s.getOrAllocPaneBySlot session slot pane =
      (s.withPanes index s.workers,some p) := Prod.ext rfl hfound
  have hkept : (s.withPanes index s.workers).paneWindowMap.lookup p = none := hmap
  simp only [listPane,hstate,hkept,default_withPanes]
  exact .of_panes rfl rfl rfl

theorem listPane_warm (hwarm : s.windowsOf session ≠ []) (slot : UInt32) (pane : PaneId)
    (fresh : WindowId) : s.SameWindows (s.listPane session slot pane fresh) := by
  cases hfound : (s.getOrAllocPaneBySlot session slot pane).2 with
  | none =>
    simp only [listPane,hfound]
    exact .of_panes rfl rfl rfl
  | some p =>
    cases hmap : s.paneWindowMap.lookup p with
    | some w =>
      have hkept : (s.getOrAllocPaneBySlot session slot pane).1.paneWindowMap.lookup p = some w :=
        hmap
      simp only [listPane,hfound,hkept]
      exact .of_panes rfl rfl rfl
    | none =>
      have hlisted := listPane_unplaced hfound hmap fresh
      obtain ⟨w,-,hdefault⟩ := default_of_warm hwarm fresh
      rwa [hdefault] at hlisted

theorem listPanes_warm (hwarm : s.windowsOf session ≠ []) (listed : List (UInt32 × PaneId))
    (fresh : WindowId) : s.SameWindows (s.listPanes session listed fresh) := by
  induction listed generalizing s with
  | nil => exact .refl s
  | cons e listed ih =>
    have hone := listPane_warm hwarm e.1 e.2 fresh
    have hkept : (s.listPane session e.1 e.2 fresh).windowsOf session ≠ [] := by
      rwa [windowsOf,hone.sessionWindows]
    exact hone.trans (ih hkept)

theorem listsWindows_listPanes (h : s.Cached session) {listed : List (UInt32 × PaneId)}
    (hlisted : ∀ e ∈ listed, s.UnusedPane e.2) {fresh : WindowId} (hf : s.UnusedWindow fresh) :
    let t := s.listPanes session listed fresh
    t.Cached session ∧ (s.ListsWindows session →
      (t.ListsWindows session ↔ (s.Unplaced session listed → s.LoadsAll session))) := by
  induction listed with
  | nil => exact ⟨h,fun hs => iff_of_true hs (by simp [Unplaced])⟩
  | cons e listed ih =>
    obtain ⟨he,hrest⟩ := List.forall_mem_cons.mp hlisted
    by_cases hplaced : ∃ p, (s.getOrAllocPaneBySlot session e.1 e.2).2 = some p ∧
        s.paneWindowMap.lookup p = none
    · obtain ⟨p,hfound,hmap⟩ := hplaced
      obtain ⟨hcached,hmem,hiff⟩ := listsWindows_default h hf
      have hone := listPane_unplaced hfound hmap fresh
      have hwarm : (s.listPane session e.1 e.2 fresh).windowsOf session ≠ [] := by
        rw [windowsOf,hone.sessionWindows]
        exact List.ne_nil_of_mem hmem
      have hsame := hone.trans (listPanes_warm hwarm listed fresh)
      refine ⟨hcached.of_same hsame,fun hs => ?_⟩
      refine (listsWindows_of_same hcached hsame).trans ((hiff hs).trans ?_)
      exact ⟨fun hall _ => hall,fun hall => hall ⟨e,List.mem_cons_self,p,hfound,hmap⟩⟩
    · have hsame : s.listPane session e.1 e.2 fresh = s :=
        listPane_placed he (fun p hp hmap => hplaced ⟨p,hp,hmap⟩) fresh
      have hunplaced : s.Unplaced session (e :: listed) ↔ s.Unplaced session listed := by
        simp only [Unplaced,List.exists_mem_cons_iff]
        exact or_iff_right hplaced
      rw [listPanes,List.foldl_cons,hsame,hunplaced]
      exact ih hrest

/-- What each call does to the cache and to the completeness of the list. -/
theorem serve_lists (h : s.Cached session) {a : WindowCall} (ht : s.serve session a = some t) :
    t.Cached session ∧ (s.ListsWindows session →
      (t.ListsWindows session ↔ s.KeepsList session a)) := by
  cases a with
  | listPanes listed fresh =>
    simp only [serve,step,Option.ite_none_right_eq_some,Option.some.injEq] at ht
    obtain ⟨⟨-,-,-,hlisted,hf⟩,rfl⟩ := ht
    exact listsWindows_listPanes h hlisted hf
  | getSessionLayout first fresh =>
    simp only [serve,Option.ite_none_right_eq_some,Option.some.injEq] at ht
    obtain ⟨-,rfl⟩ := ht
    exact listsWindows_getSessionLayout h first fresh
  | newWindow name w =>
    simp only [serve,step,Option.ite_none_right_eq_some,Option.some.injEq] at ht
    obtain ⟨hw,rfl⟩ := ht
    exact listsWindows_newWindow h name hw
  | closeWindow w =>
    obtain rfl := Option.some.inj ht
    obtain ⟨hcached,hkept⟩ := listsWindows_closeWindow h w
    exact ⟨hcached,fun hs => iff_of_true (hkept hs) trivial⟩
  | openPane asked pane fresh =>
    simp only [serve,step,Option.ite_none_right_eq_some,Option.some.injEq] at ht
    obtain ⟨⟨-,-,hf⟩,rfl⟩ := ht
    exact listsWindows_openPane h asked pane hf
  | listWindows =>
    obtain rfl := Option.some.inj ht
    obtain ⟨hcached,hkept⟩ := listsWindows_loadWindows h
    exact ⟨hcached,fun hs => iff_of_true (hkept hs) trivial⟩

theorem Restarted.cached (h : s.Restarted) (session : SessionKey) :
    s.Cached session ∧ s.windowsOf session = [] := by
  have hlist : s.windowsOf session = [] := by
    rw [windowsOf,h.sessionWindows]
    rfl
  refine ⟨⟨by simp [hlist],fun v => ?_,h.keyed⟩,hlist⟩
  rw [hlist,if_neg List.not_mem_nil,sessionOf,h.windowStore]
  rfl

/-- What a restart leaves is such a state. -/
theorem restarted_restart (h : (s.windowRows.map WindowRow.id).Nodup) : s.restart.Restarted :=
  ⟨rfl,rfl,rfl,h⟩

/-- After a restart the list of windows stays complete just if no call that finds nothing
cached takes in one window of several, or puts a new one there, and none is appended
after a window whose position is beyond the count. -/
theorem list_windows_complete_iff (h : s.Restarted) (session : SessionKey)
    (calls : List WindowCall) :
    Along (serve session) (fun s a => (s.serve session a).isSome → s.KeepsList session a) s calls ↔
      Always (serve session) (ListsWindows session) s calls := by
  obtain ⟨hcached,hcold⟩ := h.cached session
  refine along_iff_always (I := fun s => s.Cached session) (fun s a t hs ht => (serve_lists hs ht).1)
    (fun s a hs hlists => ?_) hcached ((listsWindows_iff hcached).mpr (Or.inl hcold))
  constructor
  · intro hkeeps t ht
    exact ((serve_lists hs ht).2 hlists).mpr (hkeeps (by rw [ht]; rfl))
  · intro hall hsome
    obtain ⟨t,ht⟩ := Option.isSome_iff_exists.mp hsome
    exact ((serve_lists hs ht).2 hlists).mp (hall t ht)

/-- Two windows in the store. -/
def twoStored : SupervisorImpl where
  index := .empty
  workers := ∅
  windowStore := ∅
  sessionWindows := ∅
  paneWindowMap := ∅
  windowRows := [⟨⟨1⟩,"s","1",0,none⟩,⟨⟨2⟩,"s","2",1,none⟩]
  paneRows := ∅

theorem restarted_twoStored : twoStored.Restarted := ⟨rfl,rfl,rfl,by decide⟩

theorem list_windows_complete_twoStored :
    Always (serve "s") (ListsWindows "s") twoStored [.listWindows,.getSessionLayout 0 ⟨1⟩] := by
  refine (list_windows_complete_iff restarted_twoStored "s" _).mp
    ⟨fun _ => trivial,fun s hs => ⟨fun _ hcold => ?_,fun _ _ => trivial⟩⟩
  obtain rfl := Option.some.inj hs
  exact absurd hcold (by decide)

/-- The layout of the session is asked for first, and one of its two windows is listed. -/
theorem list_windows_first_only : ¬∀ s : SupervisorImpl, s.Restarted → ∀ session calls,
    Always (serve session) (ListsWindows session) s calls := by
  intro h
  have hrun := h twoStored restarted_twoStored "s" [.getSessionLayout 0 ⟨1⟩]
  have hlists := (hrun.last rfl).1 ⟨⟨2⟩,"s","2",1,none⟩
    (List.mem_cons_of_mem _ List.mem_cons_self) rfl
  exact absurd hlists (by decide)

end SupervisorImpl

end Pyre.Supervisor
