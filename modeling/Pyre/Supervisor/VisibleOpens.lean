import Pyre.Supervisor.Visible

/-!
What opens panes keeps those of other sessions in sight, and the new one comes into sight with
a tree of its own or one that is split, or else where a window has no tree.
-/

set_option autoImplicit false

namespace Pyre.Supervisor
open Base

namespace SupervisorImpl

variable {s t u : SupervisorImpl} {session session' : SessionKey} {v w fresh : WindowId}
  {p q parent : PaneId} {k : SlotKey} {slot : UInt32} {tree : LayoutNode}

/-- No window has the pane in its tree, in memory or in the store. -/
def Unplanted (s : SupervisorImpl) (p : PaneId) : Prop :=
  ∀ v tree, s.savedTree v = some tree → p ∉ tree.allLeaves

/-- Windows of the session have changed, and the tree of one of them. -/
structure Alters (s t : SupervisorImpl) (session : SessionKey) (w : WindowId) : Prop where
  windows : ∀ session', session' ≠ session → t.windowsOf session' = s.windowsOf session'
  stored : ∀ session', session' ≠ session → ∀ v, t.Stored session' v ↔ s.Stored session' v
  cached : ∀ v, v ≠ w → t.cachedTree v = s.cachedTree v
  saved : ∀ v, v ≠ w → t.savedTree v = s.savedTree v

theorem Alters.listed (h : s.Alters t session w) (hne : session' ≠ session) :
    v ∈ t.listedWindows session' ↔ v ∈ s.listedWindows session' := by
  rw [mem_listedWindows,mem_listedWindows,h.windows session' hne,h.stored session' hne]

/-- A window of the session is none of another. -/
theorem notMem_listedWindows (hi : s.Inv) (hne : session' ≠ session)
    (hown : ∀ σ, s.sessionOf w = some σ → σ = session)
    (hrows : ∀ r ∈ s.windowRows, r.id = w → r.session = session) :
    w ∉ s.listedWindows session' := by
  rw [mem_listedWindows]
  rintro (⟨-,r,hr,hs,hid⟩ | hmem)
  · exact hne (hs.symm.trans (hrows r hr hid))
  · exact hne (hown session' (hi.listed session' w hmem))

theorem Adds.beside (h : s.Adds t session p slot w) (ha : s.Alters t session w)
    (hp : s.UnusedPane p) (hne : session' ≠ session) (hw : w ∉ s.listedWindows session') :
    s.Beside t session' where
  lookup q x _ := by
    rw [h.lookup]
    constructor
    · rintro (⟨-,heq⟩ | ⟨-,hq⟩)
      · exact absurd (Prod.mk.inj heq).1 hne
      · exact hq
    · intro hq
      refine Or.inr ⟨?_,hq⟩
      rintro rfl
      exact absurd (hp.1.symm.trans hq) (by simp)
  slots := h.slots session' hne
  mapped q x hq := by
    have hqp : q ≠ p := by
      rintro rfl
      exact absurd (hp.1.symm.trans hq) (by simp)
    refine Option.ext fun v => ?_
    rw [h.mapped]
    simp [hqp]
  windows := ha.windows session' hne
  listed v := ha.listed hne
  cached v hv := ha.cached v fun heq => hw (heq ▸ mem_listedWindows.mpr (Or.inr hv))
  saved v hv := ha.saved v fun heq => hw (heq ▸ hv)

theorem beside_of_panes (ha : s.Alters t session w) (hindex : t.index = s.index)
    (hworkers : t.workers = s.workers) (hmap : t.paneWindowMap = s.paneWindowMap)
    (hne : session' ≠ session) (hw : w ∉ s.listedWindows session') : s.Beside t session' where
  lookup q x _ := by rw [hindex]
  slots := by rw [SupervisorImpl.slots,hworkers,SupervisorImpl.slots]
  mapped q x _ := by rw [hmap]
  windows := ha.windows session' hne
  listed v := ha.listed hne
  cached v hv := ha.cached v fun heq => hw (heq ▸ mem_listedWindows.mpr (Or.inr hv))
  saved v hv := ha.saved v fun heq => hw (heq ▸ hv)

/-! The panes that were there and the new one. -/

/-- A pane at the slot that is handed out next is at one that is open. -/
def Vacant (s : SupervisorImpl) (session : SessionKey) : Prop :=
  ∀ q, s.index.lookup q = some (session,s.index.counter session) →
    s.index.counter session ∈ s.slots session

theorem Live.ne (h : s.Live session q) (hp : s.UnusedPane p) : q ≠ p := by
  obtain ⟨x,-,hat⟩ := h
  rintro rfl
  exact absurd (hp.1.symm.trans hat) (by simp)

namespace Adds

theorem live (h : s.Adds t session p slot w)
    (hvacant : ∀ q, s.index.lookup q = some (session,slot) → slot ∈ s.slots session)
    (hq : t.Live session q) : q = p ∨ s.Live session q := by
  obtain ⟨x,hx,hat⟩ := hq
  rcases (h.lookup q _).mp hat with ⟨rfl,-⟩ | ⟨-,hat⟩
  · exact Or.inl rfl
  · refine Or.inr ⟨x,?_,hat⟩
    rw [h.opened,List.mem_insert_iff] at hx
    rcases hx with rfl | hx
    · exact hvacant q hat
    · exact hx

/-- The new pane is in sight once the tree of its window has it. -/
theorem inTree_new (h : s.Adds t session p slot w) (ha : s.Alters t session w)
    (hp : s.Unplanted p) (hw : w ∈ t.windowsOf session) (htree : t.cachedTree w = some tree)
    (hleaf : p ∈ tree.allLeaves) : t.InTree session p := by
  refine ⟨w,hw,(h.mapped p w).mpr (Or.inl ⟨rfl,rfl⟩),⟨tree,htree,hleaf⟩,?_⟩
  intro v _ tree' ht' hp'
  by_contra hne
  rw [ha.saved v hne] at ht'
  exact hp v tree' ht' hp'

theorem inTree_old (h : s.Adds t session p slot w) (ha : s.Alters t session w)
    (hwindows : ∀ v, v ∈ t.windowsOf session ↔ v ∈ s.windowsOf session ∨ v = w)
    (hq : s.InTree session q) (hqp : q ≠ p) (htree : t.cachedTree w = some tree)
    (hkept : q ∈ tree.allLeaves ↔ s.paneWindowMap.lookup q = some w) : t.InTree session q := by
  obtain ⟨v,hv,hmap,⟨tree₀,htree₀,hleaf⟩,honly⟩ := hq
  have hsaved := savedTree_of_cached htree
  refine ⟨v,(hwindows v).mpr (Or.inl hv),(h.mapped q v).mpr (Or.inr ⟨hqp,hmap⟩),?_,?_⟩
  · by_cases hvw : v = w
    · subst hvw
      exact ⟨tree,htree,hkept.mpr hmap⟩
    · exact ⟨tree₀,(ha.cached v hvw).trans htree₀,hleaf⟩
  · intro x hx tree' ht' hq'
    by_cases hxw : x = w
    · subst hxw
      obtain rfl := Option.some.inj (hsaved.symm.trans ht')
      exact Option.some.inj ((hkept.mp hq').symm.trans hmap)
    · rw [ha.saved x hxw] at ht'
      exact honly x (((hwindows x).mp hx).resolve_right hxw) tree' ht' hq'

theorem treed (h : s.Adds t session p slot w) (ha : s.Alters t session w)
    (hp : s.Unplanted p)
    (hvacant : ∀ q, s.index.lookup q = some (session,slot) → slot ∈ s.slots session)
    (hwindows : ∀ v, v ∈ t.windowsOf session ↔ v ∈ s.windowsOf session ∨ v = w)
    (htree : t.cachedTree w = some tree) (hleaf : p ∈ tree.allLeaves)
    (hothers : ∀ v ∈ s.windowsOf session, v ≠ w → s.savedTree v ≠ none)
    (hlive : ∀ q, s.Live session q → t.InTree session q) : t.Treed session := by
  refine ⟨fun q hq => ?_,fun v hv => ?_⟩
  · rcases h.live hvacant hq with rfl | hold
    · exact h.inTree_new ha hp ((hwindows w).mpr (Or.inr rfl)) htree hleaf
    · exact hlive q hold
  · by_cases hvw : v = w
    · rw [hvw,savedTree_of_cached htree]
      exact Option.some_ne_none _
    · rw [ha.saved v hvw]
      exact hothers v (((hwindows v).mp hv).resolve_right hvw) hvw

/-- Where no pane was live and the only open slot is the new one's. -/
theorem lone {v₀ : WindowId} (h : s.Adds t session p slot w) (hp : s.Unplanted p)
    (hslots : ∀ x ∈ s.slots session, x = slot)
    (hempty : ∀ q, s.index.lookup q ≠ some (session,slot))
    (hlisted : ∀ v, v ∈ t.listedWindows session ↔ v ∈ s.windowsOf session)
    (hsaved : ∀ v, t.savedTree v = s.savedTree v)
    (hbare : s.OnlyBare (s.windowsOf session) v₀) : t.Lone session p slot v₀ := by
  obtain ⟨hmem,hnone,hothers⟩ := hbare
  refine ⟨⟨fun q => ?_,⟨(hlisted v₀).mpr hmem,(hsaved v₀).trans hnone,fun v hv hne => ?_⟩,?_⟩,?_⟩
  · rw [h.lookup]
    constructor
    · rintro (⟨rfl,-⟩ | ⟨-,hq⟩)
      · rfl
      · exact absurd hq (hempty q)
    · rintro rfl
      exact Or.inl ⟨rfl,rfl⟩
  · rw [hsaved]
    exact hothers v ((hlisted v).mp hv) hne
  · intro v _ tree ht
    rw [hsaved] at ht
    exact hp v tree ht
  · intro x hx
    rw [h.opened,List.mem_insert_iff] at hx
    exact hx.elim id (hslots x)

end Adds

/-! Where the operations put the pane. -/

theorem openIn_listed (h : w ∈ s.windowsOf session) :
    s.openIn session p w = (s.openNext session p).assign p w := if_pos h

theorem openIn_unknown (h : w ∉ s.windowsOf session) (hw : s.sessionOf w = none) :
    s.openIn session p w = (((s.openNext session p).assign p w).pushWindow session w).setMeta w
      ⟨session,toString (UInt32.ofNat (s.windowsOf session).length+1),
        .ofNat (s.windowsOf session).length,some (.leaf p)⟩ := by
  have hopen : s.openIn session p w =
      (((s.openNext session p).assign p w).pushWindow session w).orInsertMeta w
        ⟨session,toString (UInt32.ofNat (s.windowsOf session).length+1),
          .ofNat (s.windowsOf session).length,some (.leaf p)⟩ := if_neg h
  rw [hopen]
  exact orInsertMeta_unknown (s := ((s.openNext session p).assign p w).pushWindow session w) hw _

theorem alters_setMeta {info : WindowMeta} (hstore : t.windowStore = (s.setMeta w info).windowStore)
    (hjson : ∀ v, t.windowLayoutJson v = s.windowLayoutJson v)
    (hwindows : ∀ σ, σ ≠ session → t.windowsOf σ = s.windowsOf σ)
    (hstored : ∀ σ, σ ≠ session → ∀ v, t.Stored σ v ↔ s.Stored σ v) : s.Alters t session w := by
  have hcached : ∀ v, v ≠ w → t.cachedTree v = s.cachedTree v := by
    intro v hv
    rw [cachedTree,hstore,lookup_setMeta_ne hv,cachedTree]
  refine ⟨hwindows,hstored,hcached,fun v hv => ?_⟩
  rw [savedTree,hcached v hv,hjson,savedTree]

theorem windowsOf_pushWindow_ne (h : session' ≠ session) (s : SupervisorImpl) (w : WindowId) :
    (s.pushWindow session w).windowsOf session' = s.windowsOf session' := by
  simp only [pushWindow,windowsOf,AList.lookup_insert_ne h]

theorem alters_openIn (h : w ∉ s.windowsOf session) (hw : s.sessionOf w = none) :
    s.Alters (s.openIn session p w) session w ∧
      (∀ v, v ∈ (s.openIn session p w).windowsOf session ↔ v ∈ s.windowsOf session ∨ v = w) ∧
      (s.openIn session p w).cachedTree w = some (.leaf p) := by
  rw [openIn_unknown h hw]
  refine ⟨alters_setMeta rfl (fun _ => rfl) (fun σ hσ => ?_) fun _ _ _ => Iff.rfl,fun v => ?_,?_⟩
  · exact windowsOf_pushWindow_ne hσ ((s.openNext session p).assign p w) w
  · change v ∈ (((s.openNext session p).assign p w).pushWindow session w).windowsOf session ↔ _
    rw [windowsOf_pushWindow,List.mem_append,List.mem_singleton]
    exact Iff.rfl
  · rw [cachedTree,lookup_setMeta_self]
    rfl

theorem alters_spawn (s : SupervisorImpl) (session : SessionKey) (p : PaneId) (w : WindowId) :
    s.Alters ((s.openNext session p).placeSpawned session p w) session w ∧
      (∀ v, v ∈ ((s.openNext session p).placeSpawned session p w).windowsOf session ↔
        v ∈ s.windowsOf session ∨ v = w) ∧
      ((s.openNext session p).placeSpawned session p w).cachedTree w = some (.leaf p) := by
  set u := (s.openNext session p).upsertWindow w session "1" 0 with hu
  set info : WindowMeta := ⟨session,"1",0,some (.leaf p)⟩ with hinfo
  have hplaced : (s.openNext session p).placeSpawned session p w =
      ((u.assign p w).setMeta w info).pushWindow session w := rfl
  rw [hplaced]
  have hstore : (((u.assign p w).setMeta w info).pushWindow session w).windowStore =
      (s.setMeta w info).windowStore := rfl
  refine ⟨alters_setMeta hstore
    (windowLayoutJson_upsertWindow (s.openNext session p) w session "1" 0) (fun σ hσ => ?_)
    (fun σ hσ v => ?_),fun v => ?_,?_⟩
  · exact windowsOf_pushWindow_ne hσ ((u.assign p w).setMeta w info) w
  · constructor
    · rintro ⟨r,hr,hs,hid⟩
      rcases List.mem_append.mp hr with hr | hr
      · exact ⟨r,hr,hs,hid⟩
      · rw [List.mem_singleton.mp hr] at hs
        exact absurd hs.symm hσ
    · rintro ⟨r,hr,hs,hid⟩
      exact ⟨r,List.mem_append_left _ hr,hs,hid⟩
  · rw [windowsOf_pushWindow,List.mem_append,List.mem_singleton]
    exact Iff.rfl
  · have hself : (((u.assign p w).setMeta w info).pushWindow session w).windowStore.lookup w =
        some info := lookup_setMeta_self (u.assign p w) w info
    rw [cachedTree,hself,hinfo]
    rfl

/-- The tree that is split is in both places, and no other has changed. -/
theorem alters_splitIn (hw : s.sessionOf w = some session) (parent : PaneId) (orient : Orient) :
    s.Alters (s.splitIn session parent p orient w) session w ∧
      (s.splitIn session parent p orient w).windowsOf session = s.windowsOf session ∧
      (s.splitIn session parent p orient w).cachedTree w =
        some ((s.treeToSplit w parent).splitFocused parent p orient) := by
  obtain ⟨info,hinfo,-⟩ := Option.map_eq_some_iff.mp hw
  set u := s.openNext session p with hu
  have hknown : u.windowStore.lookup w = some info := hinfo
  rw [splitIn_eq,placeSplit_known hknown]
  set tree := (u.treeToSplit w parent).splitFocused parent p orient with htree
  have hsame := SameWindows.storeLayout u w tree
  have hstore : (((u.setLayout w tree).upsertWindowLayout w tree).assign p w).windowStore =
      (u.setMeta w { info with layout := some tree }).windowStore := by
    change (u.setLayout w tree).windowStore = _
    rw [setLayout,hknown]
  have hlist : ∀ σ, (((u.setLayout w tree).upsertWindowLayout w tree).assign p w).windowsOf σ =
      s.windowsOf σ := by
    intro σ
    change ((u.setLayout w tree).upsertWindowLayout w tree).windowsOf σ = _
    rw [windowsOf,hsame.sessionWindows]
    rfl
  have hcached : ∀ v, v ≠ w → (((u.setLayout w tree).upsertWindowLayout w tree).assign p w
      ).cachedTree v = s.cachedTree v := by
    intro v hv
    rw [cachedTree,hstore,lookup_setMeta_ne hv]
    rfl
  refine ⟨⟨fun σ _ => hlist σ,fun σ _ v => hsame.stored σ v,hcached,fun v hv => ?_⟩,
    hlist session,?_⟩
  · rw [savedTree,hcached v hv,savedTree]
    congr 1
    change ((u.setLayout w tree).upsertWindowLayout w tree).windowLayoutJson v = _
    rw [windowLayoutJson_upsertWindowLayout hv,windowLayoutJson,windowRows_setLayout]
    rfl
  · rw [cachedTree,hstore,lookup_setMeta_self]
    rfl

/-! The default window. -/

theorem trees_default (hfresh : s.UnusedWindow fresh) (session : SessionKey) (v : WindowId) :
    (s.getOrCreateDefaultWindow session fresh).1.cachedTree v = s.cachedTree v ∧
      (s.getOrCreateDefaultWindow session fresh).1.savedTree v = s.savedTree v := by
  have hcached : (s.getOrCreateDefaultWindow session fresh).1.cachedTree v = s.cachedTree v := by
    unfold getOrCreateDefaultWindow
    split
    · rfl
    · split
      · exact cachedTree_orInsertMeta s _ rfl v
      · have hnone : s.sessionOf fresh = none := by rw [sessionOf,hfresh.1]; rfl
        have hinsert : ((s.upsertWindow fresh session "1" 0).orInsertMeta fresh
            ⟨session,"1",0,none⟩).cachedTree v = s.cachedTree v :=
          cachedTree_orInsertMeta (s.upsertWindow fresh session "1" 0) fresh rfl v
        rw [orInsertMeta_unknown (s := s.upsertWindow fresh session "1" 0) hnone] at hinsert
        exact hinsert
  have hjson : (s.getOrCreateDefaultWindow session fresh).1.windowLayoutJson v =
      s.windowLayoutJson v := by
    unfold getOrCreateDefaultWindow
    split
    · rfl
    · split
      · rename_i row _
        rw [windowLayoutJson,windowLayoutJson]
        exact congrArg (fun rows => (List.find? (fun r : WindowRow => r.id = v) rows).bind
          WindowRow.layout) (windowRows_orInsertMeta s row.id _)
      · exact windowLayoutJson_upsertWindow s fresh session "1" 0 v
  exact ⟨hcached,by rw [savedTree,hcached,hjson,savedTree]⟩

theorem alters_default (hfresh : s.UnusedWindow fresh) (session : SessionKey) (w : WindowId) :
    s.Alters (s.getOrCreateDefaultWindow session fresh).1 session w := by
  refine ⟨fun σ hσ => ?_,fun σ hσ v => ?_,fun v _ => (trees_default hfresh session v).1,
    fun v _ => (trees_default hfresh session v).2⟩
  · unfold getOrCreateDefaultWindow
    split
    · rfl
    · split
      · rename_i row _
        rw [windowsOf_pushWindow_ne hσ,windowsOf,
          (samePanes_orInsertMeta s row.id _).sessionWindows]
        rfl
      · exact windowsOf_pushWindow_ne hσ _ fresh
  · unfold getOrCreateDefaultWindow
    split
    · exact Iff.rfl
    · split
      · rename_i row _
        change (∃ r ∈ (s.orInsertMeta row.id _).windowRows,_) ↔ _
        rw [windowRows_orInsertMeta]
        exact Iff.rfl
      · constructor
        · rintro ⟨r,hr,hs,hid⟩
          rcases List.mem_append.mp hr with hr | hr
          · exact ⟨r,hr,hs,hid⟩
          · rw [List.mem_singleton.mp hr] at hs
            exact absurd hs.symm hσ
        · rintro ⟨r,hr,hs,hid⟩
          exact ⟨r,List.mem_append_left _ hr,hs,hid⟩

theorem trees_newWindow (hw : s.UnusedWindow w) (session : SessionKey) (name : Option String)
    (v : WindowId) : (s.newWindow session name w).cachedTree v = s.cachedTree v ∧
      (s.newWindow session name w).savedTree v = s.savedTree v := by
  set position : UInt32 := .ofNat (s.windowsOf session).length with hposition
  set u := s.upsertWindow w session (name.getD (toString (position+1))) position with hu
  set info : WindowMeta := ⟨session,name.getD (toString (position+1)),position,none⟩ with hinfo
  have hnone : u.sessionOf w = none := by
    change s.sessionOf w = none
    rw [sessionOf,hw.1]
    rfl
  have hcached : (s.newWindow session name w).cachedTree v = s.cachedTree v := by
    have hinsert : (u.orInsertMeta w info).cachedTree v = s.cachedTree v :=
      cachedTree_orInsertMeta u w rfl v
    rw [orInsertMeta_unknown hnone] at hinsert
    exact hinsert
  have hjson : (s.newWindow session name w).windowLayoutJson v = s.windowLayoutJson v :=
    windowLayoutJson_upsertWindow s w session _ position v
  exact ⟨hcached,by rw [savedTree,hcached,hjson,savedTree]⟩

theorem alters_newWindow (hw : s.UnusedWindow w) (session : SessionKey) (name : Option String) :
    s.Alters (s.newWindow session name w) session w := by
  refine ⟨fun σ hσ => windowsOf_pushWindow_ne hσ _ w,fun σ hσ v => ?_,
    fun v _ => (trees_newWindow hw session name v).1,
    fun v _ => (trees_newWindow hw session name v).2⟩
  constructor
  · rintro ⟨r,hr,hs,hid⟩
    rcases List.mem_append.mp hr with hr | hr
    · exact ⟨r,hr,hs,hid⟩
    · rw [List.mem_singleton.mp hr] at hs
      exact absurd hs.symm hσ
  · rintro ⟨r,hr,hs,hid⟩
    exact ⟨r,List.mem_append_left _ hr,hs,hid⟩

theorem savedTree_of_unused (hw : s.UnusedWindow w) : s.savedTree w = none := by
  have hrow : s.windowRows.find? (fun r => r.id = w) = none :=
    List.find?_eq_none.mpr fun r hr => by simpa using hw.2 r hr
  rw [savedTree,cachedTree,hw.1,windowLayoutJson,hrow]
  rfl

/-- Windows of another session than the one whose default is taken or that gets one. -/
theorem Resolves.beside (h : s.Resolves t session w) (ha : s.Alters t session w) (hi : s.Inv)
    (hne : session' ≠ session) : s.Beside t session' := by
  refine beside_of_panes ha h.index h.workers h.paneWindowMap hne ?_
  rw [mem_listedWindows]
  rintro (⟨-,hstored⟩ | hmem)
  · obtain ⟨r,hr,hs,hid⟩ := (ha.stored session' hne w).mpr hstored
    exact hne (hs.symm.trans (h.rows r hr hid))
  · have hs := hi.listed session' w hmem
    have hown := (h.sessions w (by simp [hs])).symm.trans h.own
    exact hne (Option.some.inj (hs.symm.trans hown))

/-! Each operation keeps all live panes in sight. -/

theorem Quiet.of_panes (h : s.Quiet session) (hindex : t.index = s.index)
    (hworkers : t.workers = s.workers) : t.Quiet session := by
  intro p hp
  rw [Live,SupervisorImpl.slots,hindex,hworkers] at hp
  exact h p hp

theorem Treed.quiet (h : s.Treed session) (hcold : s.windowsOf session = []) :
    s.Quiet session := by
  intro p hp
  obtain ⟨w,hw,-⟩ := h.placed p hp
  rw [hcold] at hw
  cases hw

theorem viewed_spawn (h : s.Viewed) (hsession : s.UnusedSession session)
    (hslots : ∀ q k, s.index.lookup q = some k → k.1 ≠ session) (hp : s.UnusedPane p)
    (hplanted : s.Unplanted p) (hw : s.UnusedWindow w) : (s.spawn session p w).Viewed := by
  rw [spawn_eq hsession.1]
  obtain ⟨ha,-⟩ := adds_spawn s session p w
  obtain ⟨halters,hwindows,htree⟩ := alters_spawn s session p w
  have hunknown : s.sessionOf w = none := by rw [sessionOf,hw.1]; rfl
  have hown : ∀ σ, s.sessionOf w = some σ → σ = session := by simp [hunknown]
  have hrows : ∀ r ∈ s.windowRows, r.id = w → r.session = session :=
    fun r hr hid => absurd hid (hw.2 r hr)
  refine ⟨ha.inv h.toInv hown hrows,fun σ => ?_⟩
  by_cases hσ : σ = session
  · subst hσ
    -- the session has had neither windows nor panes
    have hcold : ∀ v, v ∉ s.windowsOf σ := by
      intro v hv
      obtain ⟨info,hinfo,hs⟩ := Option.map_eq_some_iff.mp (h.listed σ v hv)
      exact hsession.2 info (List.mem_map.mpr ⟨_,Table.lookup_eq_some.mp hinfo,rfl⟩) hs
    refine Or.inr (Or.inl (ha.treed halters hplanted (fun q hq => absurd rfl (hslots q _ hq))
      hwindows htree (by simp [LayoutNode.allLeaves]) (fun v hv => absurd hv (hcold v)) ?_))
    rintro q ⟨x,-,hat⟩
    exact absurd rfl (hslots q _ hat)
  · exact (ha.beside halters hp hσ (notMem_listedWindows h.toInv hσ hown hrows)).seen (h.seen σ)

/-- A new window has no tree, so that its session may have none of its panes open, unless none
of the session's windows is in memory. -/
theorem viewed_newWindow (h : s.Viewed) (hw : s.UnusedWindow w)
    (hbare : s.Quiet session ∨ s.windowsOf session = []) (name : Option String) :
    (s.newWindow session name w).Viewed := by
  have hr := resolves_newWindow hw session name
  have halters := alters_newWindow hw session name
  refine ⟨hr.inv h.toInv,fun σ => ?_⟩
  by_cases hσ : σ = session
  · subst hσ
    have hquiet : s.Quiet σ → (s.newWindow σ name w).Seen σ := fun hquiet =>
      Or.inl (hquiet.of_panes hr.index hr.workers)
    rcases hbare with hnone | hcold
    · exact hquiet hnone
    rcases h.seen σ with hnone | htreed | ⟨p,slot,v₀,hlone⟩
    · exact hquiet hnone
    · exact hquiet (htreed.quiet hcold)
    · have hlist : (s.newWindow σ name w).listedWindows σ = [w] := by
        have hwindows : (s.newWindow σ name w).windowsOf σ = [w] := by
          rw [newWindow,windowsOf_pushWindow]
          change s.windowsOf σ ++ [w] = [w]
          rw [hcold]
          rfl
        rw [listedWindows_warm (w := w) (by simp [hwindows]),hwindows]
      have hnone : (s.newWindow σ name w).savedTree w = none :=
        (trees_newWindow hw σ name w).2.trans (savedTree_of_unused hw)
      refine Or.inr (Or.inr ⟨p,slot,w,⟨fun q => ?_,?_,?_⟩,?_⟩)
      · rw [hr.index]
        exact hlone.at_slot q
      · rw [hlist]
        exact ⟨List.mem_singleton.mpr rfl,hnone,fun v hv hne =>
          absurd (List.mem_singleton.mp hv) hne⟩
      · rw [hlist]
        intro v hv tree ht
        rw [List.mem_singleton.mp hv,hnone] at ht
        cases ht
      · rw [SupervisorImpl.slots,hr.workers]
        exact hlone.slots
  · exact (hr.beside halters h.toInv hσ).seen (h.seen σ)

/-! `open_pane` gives no tree but to a window that is new. -/

/-- The window is new, and all panes that are live have trees. -/
structure Enters (s : SupervisorImpl) (session : SessionKey) (w : WindowId) : Prop where
  unlisted : w ∉ s.windowsOf session
  unknown : s.sessionOf w = none
  rows : ∀ r ∈ s.windowRows, r.id = w → r.session = session
  trees : ∀ v ∈ s.windowsOf session, s.savedTree v ≠ none
  warm : s.Quiet session ∨ s.windowsOf session ≠ []
  vacant : s.Vacant session

/-- The pane will be the only one, and one window of the session has no tree. -/
structure Falls (s : SupervisorImpl) (session : SessionKey) (w : WindowId) : Prop where
  listed : w ∈ s.windowsOf session
  quiet : s.Quiet session
  slots : ∀ x ∈ s.slots session, x = s.index.counter session
  empty : ∀ q, s.index.lookup q ≠ some (session,s.index.counter session)
  bare : ∃ v, s.OnlyBare (s.windowsOf session) v

theorem Enters.treed (h : s.Enters session w) (hs : s.Seen session) : s.Treed session := by
  rcases hs with hquiet | htreed | ⟨p,slot,v₀,hlone⟩
  · exact ⟨fun p hp => absurd hp (hquiet p),h.trees⟩
  · exact htreed
  · rcases h.warm with hquiet | hwarm
    · exact ⟨fun p hp => absurd hp (hquiet p),h.trees⟩
    · -- the window without a tree would be in memory
      obtain ⟨hmem,hnone,-⟩ := hlone.bare
      rw [listedWindows,if_neg hwarm] at hmem
      exact absurd hnone (h.trees v₀ hmem)

theorem viewed_openIn (h : s.Viewed) (hp : s.UnusedPane p) (hplanted : s.Unplanted p)
    (hw : s.Enters session w ∨ s.Falls session w) : (s.openIn session p w).Viewed := by
  rcases hw with henter | hfall
  · have hown : ∀ σ, s.sessionOf w = some σ → σ = session := by simp [henter.unknown]
    obtain ⟨ha,-⟩ := adds_openIn (p := p) h.toInv hown
    obtain ⟨halters,hwindows,htree⟩ := alters_openIn (p := p) henter.unlisted henter.unknown
    refine ⟨ha.inv h.toInv hown henter.rows,fun σ => ?_⟩
    by_cases hσ : σ = session
    · subst hσ
      have htreed := henter.treed (h.seen σ)
      refine Or.inr (Or.inl (ha.treed halters hplanted henter.vacant hwindows htree
        (by simp [LayoutNode.allLeaves]) (fun v hv _ => henter.trees v hv) fun q hq => ?_))
      have hqp := hq.ne hp
      have hin := htreed.placed q hq
      refine ha.inTree_old halters hwindows hin hqp htree ?_
      obtain ⟨v,hv,hmap,-⟩ := hin
      simp only [LayoutNode.allLeaves,List.mem_singleton]
      constructor
      · intro heq
        exact absurd heq hqp
      · intro hmap'
        obtain rfl := Option.some.inj (hmap.symm.trans hmap')
        exact absurd hv henter.unlisted
    · exact (ha.beside halters hp hσ (notMem_listedWindows h.toInv hσ hown henter.rows)).seen
        (h.seen σ)
  · have hsession := h.listed session w hfall.listed
    have hown : ∀ σ, s.sessionOf w = some σ → σ = session :=
      fun σ hs => Option.some.inj (hs.symm.trans hsession)
    have hrows : ∀ r ∈ s.windowRows, r.id = w → r.session = session :=
      fun r hr hid => h.stored r hr session (hid ▸ hsession)
    obtain ⟨ha,-⟩ := adds_openIn (p := p) h.toInv hown
    rw [openIn_listed hfall.listed] at ha ⊢
    refine ⟨ha.inv h.toInv hown hrows,fun σ => ?_⟩
    by_cases hσ : σ = session
    · subst hσ
      obtain ⟨v₀,hbare⟩ := hfall.bare
      have hlist : ((s.openNext σ p).assign p w).listedWindows σ = s.windowsOf σ :=
        listedWindows_warm (s := (s.openNext σ p).assign p w) hfall.listed
      exact Or.inr (Or.inr ⟨p,_,v₀,ha.lone hplanted hfall.slots hfall.empty
        (fun v => by rw [hlist]) (fun _ => rfl) hbare⟩)
    · have halters : s.Alters ((s.openNext session p).assign p w) session w :=
        ⟨fun _ _ => rfl,fun _ _ _ => Iff.rfl,fun _ _ => rfl,fun _ _ => rfl⟩
      exact (ha.beside halters hp hσ (notMem_listedWindows h.toInv hσ hown hrows)).seen (h.seen σ)

theorem viewed_default (h : s.Viewed) (hfresh : s.UnusedWindow fresh)
    (hquiet : s.Quiet session) : (s.getOrCreateDefaultWindow session fresh).1.Viewed := by
  have hr := resolves_default h.toInv session hfresh
  refine ⟨hr.inv h.toInv,fun σ => ?_⟩
  by_cases hσ : σ = session
  · subst hσ
    exact Or.inl (hquiet.of_panes hr.index hr.workers)
  · exact (hr.beside (alters_default hfresh session _) h.toInv hσ).seen (h.seen σ)

theorem Unplanted.congr (h : s.Unplanted p) (hsaved : ∀ v, t.savedTree v = s.savedTree v) :
    t.Unplanted p := by
  intro v tree ht
  rw [hsaved] at ht
  exact h v tree ht

def Receives (s : SupervisorImpl) (session : SessionKey) (asked : Option WindowId)
    (fresh : WindowId) : Prop :=
  (s.resolveWindow session asked fresh).1.Enters session (s.resolveWindow session asked fresh).2 ∨
    (s.resolveWindow session asked fresh).1.Falls session (s.resolveWindow session asked fresh).2

theorem viewed_openPane (h : s.Viewed) (hp : s.UnusedPane p) (hplanted : s.Unplanted p)
    {asked : Option WindowId} (hfresh : s.UnusedWindow fresh)
    (hw : s.Receives session asked fresh) : (s.openPane session asked p fresh).Viewed := by
  rw [openPane_eq]
  cases asked with
  | some w => exact viewed_openIn h hp hplanted hw
  | none =>
    have hr := resolves_default h.toInv session hfresh
    rcases hw with henter | hfall
    · have hhead := head_default s session fresh
      exact absurd (List.mem_of_head? hhead) henter.unlisted
    · have hquiet : s.Quiet session := hfall.quiet.of_panes hr.index.symm hr.workers.symm
      exact viewed_openIn (viewed_default h hfresh hquiet) (hr.unused hp)
        (hplanted.congr fun v => (trees_default hfresh session v).2) (Or.inr hfall)

/-! `open_pane_split` puts the pane beside its parent, if that is a leaf of the tree. -/

/-- The window is listed, its tree has the parent or is made of it, and a window without a tree
is one that falls back on the parent. -/
structure Grafts (s : SupervisorImpl) (session : SessionKey) (parent : PaneId) (w : WindowId) :
    Prop where
  listed : w ∈ s.windowsOf session
  leaf : parent ∈ (s.treeToSplit w parent).allLeaves
  trees : ∀ v ∈ s.windowsOf session, v ≠ w → s.savedTree v ≠ none
  alone : s.savedTree w = none → ∀ q, s.Live session q → q = parent
  known : s.Quiet session ∨ s.paneWindowMap.lookup parent = some w
  vacant : s.Vacant session

theorem treeToSplit_of_cached (h : s.cachedTree w = some tree) (parent : PaneId) :
    s.treeToSplit w parent = tree := by
  rw [cachedTree] at h
  rw [treeToSplit,h]
  rfl

theorem treeToSplit_of_none (h : s.cachedTree w = none) (parent : PaneId) :
    s.treeToSplit w parent = .leaf parent := by
  rw [cachedTree] at h
  rw [treeToSplit,h]
  rfl

theorem viewed_splitIn (h : s.Viewed) (hp : s.UnusedPane p) (hplanted : s.Unplanted p)
    (hw : s.Grafts session parent w) (orient : Orient) :
    (s.splitIn session parent p orient w).Viewed := by
  have hsession := h.listed session w hw.listed
  have hown : ∀ σ, s.sessionOf w = some σ → σ = session :=
    fun σ hs => Option.some.inj (hs.symm.trans hsession)
  have hrows : ∀ r ∈ s.windowRows, r.id = w → r.session = session :=
    fun r hr hid => h.stored r hr session (hid ▸ hsession)
  obtain ⟨ha,-⟩ := adds_splitIn (p := p) hsession parent orient
  obtain ⟨halters,hlist,htree⟩ := alters_splitIn (p := p) hsession parent orient
  refine ⟨ha.inv h.toInv hown hrows,fun σ => ?_⟩
  by_cases hσ : σ = session
  swap
  · exact (ha.beside halters hp hσ (notMem_listedWindows h.toInv hσ hown hrows)).seen (h.seen σ)
  subst hσ
  have hleaves : ((s.treeToSplit w parent).splitFocused parent p orient).allLeaves.Perm
      (p :: (s.treeToSplit w parent).allLeaves) := LayoutNode.leaves_splitFocused hw.leaf
  have hwindows : ∀ v, v ∈ (s.splitIn σ parent p orient w).windowsOf σ ↔
      v ∈ s.windowsOf σ ∨ v = w := by
    intro v
    rw [hlist]
    constructor
    · exact Or.inl
    · rintro (hv | rfl)
      · exact hv
      · exact hw.listed
  refine Or.inr (Or.inl (ha.treed halters hplanted hw.vacant hwindows htree
    (hleaves.mem_iff.mpr List.mem_cons_self) hw.trees fun q hq => ?_))
  have hqp := hq.ne hp
  have hmem : q ∈ ((s.treeToSplit w parent).splitFocused parent p orient).allLeaves ↔
      q ∈ (s.treeToSplit w parent).allLeaves := by
    rw [hleaves.mem_iff,List.mem_cons]
    exact or_iff_right hqp
  have hknown : s.paneWindowMap.lookup parent = some w :=
    hw.known.resolve_left fun hquiet => hquiet q hq
  rcases h.seen σ with hquiet | htreed | ⟨p₀,slot,v₀,hlone⟩
  · exact absurd hq (hquiet q)
  · have hin := htreed.placed q hq
    refine ha.inTree_old halters hwindows hin hqp htree (hmem.trans ?_)
    obtain ⟨v,hv,hmap,⟨tree,hcached,hleaf⟩,honly⟩ := hin
    cases hw₀ : s.cachedTree w with
    | some tree₀ =>
      rw [treeToSplit_of_cached hw₀]
      constructor
      · intro hq₀
        rw [honly w hw.listed tree₀ (savedTree_of_cached hw₀) hq₀]
        exact hmap
      · intro hmap'
        obtain rfl := Option.some.inj (hmap.symm.trans hmap')
        obtain rfl := Option.some.inj (hcached.symm.trans hw₀)
        exact hleaf
    | none =>
      -- the tree is made of the parent, which is no pane that is live
      rw [treeToSplit_of_none hw₀]
      constructor
      · intro hq₀
        simp only [LayoutNode.allLeaves,List.mem_singleton] at hq₀
        rw [hq₀]
        exact hknown
      · intro hmap'
        obtain rfl := Option.some.inj (hmap.symm.trans hmap')
        rw [hw₀] at hcached
        cases hcached
  · -- the window that falls back on the one pane gets a tree with it
    obtain ⟨hmem₀,hnone,-⟩ := hlone.bare
    rw [listedWindows_warm hw.listed] at hmem₀
    have hv₀ : v₀ = w := by
      by_contra hne
      exact hw.trees v₀ hmem₀ hne hnone
    subst hv₀
    obtain rfl := hw.alone hnone q hq
    have hcached : s.cachedTree v₀ = none := (Option.or_eq_none_iff.mp hnone).1
    obtain ⟨x,hx,hat⟩ := hq
    obtain rfl := hlone.slots x hx
    obtain rfl := (hlone.at_slot q).mp hat
    refine ⟨v₀,(hwindows v₀).mpr (Or.inr rfl),(ha.mapped q v₀).mpr (Or.inr ⟨hqp,hknown⟩),
      ⟨_,htree,hmem.mpr hw.leaf⟩,fun v hv tree ht hleaf => ?_⟩
    by_contra hne
    rw [halters.saved v hne] at ht
    refine hlone.away v ?_ tree ht hleaf
    rw [listedWindows_warm hw.listed]
    exact ((hwindows v).mp hv).resolve_right hne

def Splices (s : SupervisorImpl) (parent : PaneId) (fresh : WindowId) : Prop :=
  ∀ k, s.index.lookup parent = some k →
    (s.parentWindow k.1 parent fresh).1.Grafts k.1 parent (s.parentWindow k.1 parent fresh).2

theorem viewed_openPaneSplit (h : s.Viewed) (hp : s.UnusedPane p) (hplanted : s.Unplanted p)
    (hfresh : s.UnusedWindow fresh) (orient : Orient)
    (hw : (s.parentWindow session parent fresh).1.Grafts session parent
      (s.parentWindow session parent fresh).2) :
    (s.openPaneSplit session parent orient p fresh).Viewed := by
  rw [openPaneSplit_eq]
  cases hmap : s.paneWindowMap.lookup parent with
  | some w =>
    have hparent : s.parentWindow session parent fresh = (s,w) := by simp only [parentWindow,hmap]
    rw [hparent] at hw ⊢
    exact viewed_splitIn h hp hplanted hw orient
  | none =>
    have hparent : s.parentWindow session parent fresh =
        s.getOrCreateDefaultWindow session fresh := by simp only [parentWindow,hmap]
    rw [hparent] at hw ⊢
    have hr := resolves_default h.toInv session hfresh
    have hquiet : s.Quiet session := by
      refine (hw.known.resolve_right fun hknown => ?_).of_panes hr.index.symm hr.workers.symm
      rw [hr.paneWindowMap,hmap] at hknown
      cases hknown
    exact viewed_splitIn (viewed_default h hfresh hquiet) (hr.unused hp)
      (hplanted.congr fun v => (trees_default hfresh session v).2) hw orient

end SupervisorImpl

end Pyre.Supervisor
