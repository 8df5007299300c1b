import Pyre.Supervisor.VisibleEnds
import Pyre.Supervisor.VisibleOpens

/-!
A pane that the supervisor hears of from a worker it does not know yet comes into sight where
the session has one open slot and one window without a tree, and nowhere else.
-/

set_option autoImplicit false

namespace Pyre.Supervisor
open Base

namespace SupervisorImpl

variable {s t u : SupervisorImpl} {session session' : SessionKey} {v w fresh : WindowId}
  {p q : PaneId} {k : SlotKey} {slot : UInt32} {tree : LayoutNode}

theorem Loses.viewed {gone : PaneId → SlotKey → Prop} (h : s.Loses t gone) (hs : s.Viewed) :
    t.Viewed :=
  ⟨h.removes.inv hs.toInv,fun session => h.seen (hs.seen session)⟩

/-- The slot is the only one that is open, and one window has no tree. -/
structure Falling (s : SupervisorImpl) (session : SessionKey) (slot : UInt32) : Prop where
  slots : ∀ x ∈ s.slots session, x = slot
  bare : ∃ w, s.OnlyBare (s.listedWindows session) w

/-- A pane that an open slot would get is one to fall back on. -/
def Recovers (s : SupervisorImpl) (session : SessionKey) (slot : UInt32) : Prop :=
  slot ∈ s.slots session → s.index.Registers session slot → s.Falling session slot

theorem lookup_register_unused (hp : s.UnusedPane p) :
    (s.index.register p session slot).lookup q = some k ↔
      q = p ∧ k = (session,slot) ∨ s.index.lookup q = some k := by
  rw [PaneIndex.lookup_register]
  refine or_congr_right (and_iff_right_of_imp ?_)
  rintro hq rfl
  exact absurd (hp.1.symm.trans hq) (by simp)

theorem Falling.lone (h : s.Falling session slot) (haway : ∀ v ∈ s.listedWindows session,
      ∀ tree, s.savedTree v = some tree → p ∉ tree.allLeaves)
    (hat : ∀ q, t.index.lookup q = some (session,slot) ↔ q = p) (hworkers : t.workers = s.workers)
    (hlisted : ∀ v, v ∈ t.listedWindows session ↔ v ∈ s.listedWindows session)
    (hsaved : ∀ v, t.savedTree v = s.savedTree v) : ∃ w, t.Lone session p slot w := by
  obtain ⟨w,hmem,hnone,hothers⟩ := h.bare
  refine ⟨w,⟨hat,⟨(hlisted w).mpr hmem,(hsaved w).trans hnone,fun v hv hne => ?_⟩,?_⟩,?_⟩
  · rw [hsaved]
    exact hothers v ((hlisted v).mp hv) hne
  · intro v hv tree ht
    rw [hsaved] at ht
    exact haway v ((hlisted v).mp hv) tree ht
  · rw [SupervisorImpl.slots,hworkers]
    exact h.slots

theorem viewed_callback (h : s.Viewed) (hp : s.UnusedPane p) (hplanted : s.Unplanted p)
    (hrec : s.Recovers session slot) : (s.getOrAllocPaneBySlot session slot p).1.Viewed := by
  refine ⟨inv_callback h.toInv hp session slot,fun σ => ?_⟩
  by_cases hr : s.index.Registers session slot
  swap
  · simp only [getOrAllocPaneBySlot,PaneIndex.getOrAlloc_keeps hr]
    exact h.seen σ
  simp only [getOrAllocPaneBySlot,PaneIndex.getOrAlloc_registers hr]
  by_cases hopen : σ = session ∧ slot ∈ s.slots session
  · obtain ⟨rfl,hslot⟩ := hopen
    have hat : ∀ q, (s.index.register p σ slot).lookup q = some (σ,slot) ↔ q = p := by
      intro q
      rw [lookup_register_unused hp]
      constructor
      · rintro (⟨rfl,-⟩ | hq)
        · rfl
        · exact absurd hq ((registers_iff.mp hr).1 q)
      · rintro rfl
        exact Or.inl ⟨rfl,rfl⟩
    obtain ⟨w,hlone⟩ := (hrec hslot hr).lone (t := { s with index := s.index.register p σ slot })
      (fun v _ => hplanted v) hat rfl (fun _ => Iff.rfl) fun _ => rfl
    exact Or.inr (Or.inr ⟨p,slot,w,hlone⟩)
  · -- no open slot of the session gets a pane
    have hbeside : s.Beside { s with index := s.index.register p session slot } σ := by
      refine ⟨fun q x hx => ?_,rfl,fun _ _ _ => rfl,rfl,fun _ => Iff.rfl,fun _ _ => rfl,
        fun _ _ => rfl⟩
      rw [lookup_register_unused hp]
      refine or_iff_right ?_
      rintro ⟨-,heq⟩
      obtain ⟨rfl,rfl⟩ := Prod.mk.inj heq
      exact hopen ⟨rfl,hx⟩
    exact hbeside.seen (h.seen σ)

/-- A layout that is read is a tree, pruned, or the first pane that the worker lists. -/
theorem viewed_getWindowLayout (h : s.Viewed) (hp : s.UnusedPane p) (hplanted : s.Unplanted p)
    {first : UInt32} (hrec : s.treeOf w = none → ∀ σ, s.sessionOf w = some σ →
      s.Recovers σ first) : (s.getWindowLayout w first p).1.Viewed := by
  cases hw : s.windowStore.lookup w with
  | none =>
    have hsame : (s.getWindowLayout w first p).1 = s := by simp [getWindowLayout,hw]
    rwa [hsame]
  | some info =>
    cases ht : s.treeOf w with
    | none =>
      simp only [getWindowLayout,hw,ht]
      split
      · exact viewed_callback h hp hplanted (hrec ht info.session (by simp [sessionOf,hw]))
      · exact h
    | some tree =>
      obtain ⟨gone,hl⟩ := loses_getWindowLayout h.toInv ht first p
      exact hl.viewed h

/-- The worker comes back with slots of which no pane is known, or with the one pane that its
session falls back on. -/
def Respawns (s : SupervisorImpl) (session : SessionKey) (slots : List UInt32) : Prop :=
  (∀ q, ∀ x ∈ slots, s.index.lookup q ≠ some (session,x)) ∨
    ∃ p slot w, (∀ x ∈ slots, x = slot) ∧ s.Sole session p slot w

theorem viewed_registerWorker (h : s.Viewed) {slots : List UInt32}
    (hrespawns : s.Respawns session slots) : (s.registerWorker session slots).Viewed := by
  refine ⟨inv_registerWorker h.toInv session slots,fun σ => ?_⟩
  by_cases hσ : σ = session
  · subst hσ
    have hslots : (s.registerWorker σ slots).slots σ = slots := by
      rw [slots_registerWorker,if_pos rfl]
    rcases hrespawns with hnone | ⟨p,slot,w,honly,hsole⟩
    · refine Or.inl ?_
      rintro q ⟨x,hx,hat⟩
      rw [hslots] at hx
      exact hnone q x hx hat
    · refine Or.inr (Or.inr ⟨p,slot,w,⟨hsole.at_slot,hsole.bare,hsole.away⟩,?_⟩)
      rwa [hslots]
  · have hbeside : s.Beside (s.registerWorker session slots) σ :=
      ⟨fun _ _ _ => Iff.rfl,by rw [slots_registerWorker,if_neg hσ],fun _ _ _ => rfl,rfl,
        fun _ => Iff.rfl,fun _ _ => rfl,fun _ _ => rfl⟩
    exact hbeside.seen (h.seen σ)

theorem viewed_restart (h : s.Viewed) : s.restart.Viewed := by
  refine ⟨inv_restart h.toInv,fun σ => Or.inl ?_⟩
  rintro p ⟨x,hx,-⟩
  cases hx

theorem viewed_loadWindows (h : s.Viewed) (session : SessionKey) :
    (s.loadWindows session).Viewed := by
  obtain ⟨⟨ws,hload⟩,hlist⟩ := loads_loadWindows s session
  refine ⟨inv_loadWindows h.toInv session,fun σ => ?_⟩
  by_cases hσ : σ = session
  · subst hσ
    by_cases hcold : s.windowsOf σ = []
    · rcases h.seen σ with hquiet | htreed | ⟨p,slot,w,hlone⟩
      · exact Or.inl (hquiet.of_panes hload.index hload.workers)
      · exact Or.inl ((htreed.quiet hcold).of_panes hload.index hload.workers)
      · obtain ⟨hmem,hnone,hothers⟩ := hlone.bare
        have hlisted : ∀ v, v ∈ (s.loadWindows σ).listedWindows σ ↔ v ∈ s.listedWindows σ := by
          intro v
          rw [listedWindows_warm ((hlist w).mpr hmem)]
          exact hlist v
        refine Or.inr (Or.inr ⟨p,slot,w,⟨fun q => ?_,⟨(hlisted w).mpr hmem,?_,fun v hv hne => ?_⟩,
          fun v hv => ?_⟩,?_⟩)
        · rw [hload.index]
          exact hlone.at_slot q
        · rwa [hload.savedTree]
        · rw [hload.savedTree]
          exact hothers v ((hlisted v).mp hv) hne
        · rw [hload.savedTree]
          exact hlone.away v ((hlisted v).mp hv)
        · rw [SupervisorImpl.slots,hload.workers]
          exact hlone.slots
    · rw [loadWindows,if_neg hcold]
      exact h.seen σ
  · have hstored : ∀ v, (s.loadWindows session).Stored σ v ↔ s.Stored σ v := by
      intro v
      rw [Stored,hload.rows,Stored]
    have hbeside : s.Beside (s.loadWindows session) σ := by
      refine ⟨fun q x _ => by rw [hload.index],?_,fun q x _ => by rw [hload.paneWindowMap],
        hload.others σ hσ,fun v => ?_,fun v _ => hload.cached v,fun v _ => hload.savedTree v⟩
      · rw [SupervisorImpl.slots,hload.workers,SupervisorImpl.slots]
      · rw [mem_listedWindows,mem_listedWindows,hload.others σ hσ,hstored]
    exact hbeside.seen (h.seen σ)

/-! `list_panes` puts panes that it does not know into the default window, not into its tree. -/

theorem Lists.beside (h : s.Lists t session w) (hne : session' ≠ session) :
    s.Beside t session' where
  lookup q x _ := by
    constructor
    · intro hq
      exact (h.found q _ hq).resolve_right fun hnew => hne hnew.2.1
    · exact h.kept q _
  slots := by rw [SupervisorImpl.slots,h.workers,SupervisorImpl.slots]
  mapped q x hq := by
    cases hv : s.paneWindowMap.lookup q with
    | some v => exact h.mapped q v hv
    | none =>
      by_contra hsome
      obtain ⟨v,hv'⟩ := Option.ne_none_iff_exists'.mp hsome
      rcases h.placed q v hv' with hold | ⟨-,y,hy⟩
      · rw [hv] at hold
        cases hold
      · have heq := Option.some.inj ((h.kept q _ hq).symm.trans hy)
        exact hne (Prod.mk.inj heq).1
  windows := by rw [windowsOf,h.sessionWindows,windowsOf]
  listed v := by
    rw [mem_listedWindows,mem_listedWindows,windowsOf,h.sessionWindows,Stored,h.windowRows]
    rfl
  cached v _ := by rw [cachedTree,h.windowStore,cachedTree]
  saved v _ := by
    rw [savedTree,cachedTree,h.windowStore,windowLayoutJson,h.windowRows]
    rfl

theorem mem_windowsOf_default (hi : s.Inv) (hfresh : s.UnusedWindow fresh)
    (hv : v ∈ (s.getOrCreateDefaultWindow session fresh).1.windowsOf session) :
    v ∈ s.listedWindows session ∨ v = fresh := by
  have hdefault : (s.getOrCreateDefaultWindow session fresh).2 ∈ s.listedWindows session ∨
      (s.getOrCreateDefaultWindow session fresh).2 = fresh := by
    unfold getOrCreateDefaultWindow
    split
    · rename_i w hhead
      exact Or.inl (mem_listedWindows.mpr (Or.inr (List.mem_of_head? hhead)))
    · rename_i hcold
      split
      · rename_i row hhead
        rw [List.head?_eq_none_iff] at hcold
        rw [listedWindows,if_pos hcold]
        exact Or.inl (List.mem_map_of_mem (List.mem_of_head? hhead))
      · exact Or.inr rfl
  rcases (resolves_default hi session hfresh).listed session v hv with hv | ⟨rfl,-⟩
  · exact Or.inl (mem_listedWindows.mpr (Or.inr hv))
  · exact hdefault

/-- All panes that are listed have windows, or there is at most one, to fall back on. -/
def Gathers (s : SupervisorImpl) (session : SessionKey) (fresh : WindowId) : Prop :=
  s.Settled session ∨
    ∃ slot, (s.getOrCreateDefaultWindow session fresh).1.Falling session slot

/-- The pane of the only open slot, if it has one once the panes are listed. -/
theorem lone_listPanes {listed : List (UInt32 × PaneId)}
    (hhead : (s.windowsOf session).head? = some w) (hfall : s.Falling session slot)
    (hempty : ∀ q, s.index.lookup q ≠ some (session,slot))
    (hr : s.index.Registers session slot) (hslots : ∀ e ∈ listed, e.1 ∈ s.slots session)
    (hcons : listed ≠ []) (hunused : ∀ e ∈ listed, s.UnusedPane e.2)
    (hplanted : ∀ e ∈ listed, s.Unplanted e.2) :
    ∃ p w, (s.listPanes session listed fresh).Lone session p slot w := by
  obtain ⟨e,rest,rfl⟩ := List.exists_cons_of_ne_nil hcons
  have heq := hfall.slots e.1 (hslots e List.mem_cons_self)
  rw [listPanes_cons,heq]
  set t := s.listPane session slot e.2 fresh with ht
  have hcase : (∃ r, (r = e.2 ∨ s.index.lookup r ≠ none) ∧ s.Places t session slot w r) ∨
      ¬s.index.Registers session slot :=
    (listPane_cases hhead (hunused e List.mem_cons_self)).imp_right fun hkept => hkept.2.1
  obtain ⟨r,hnew,hplaces⟩ := hcase.resolve_right fun hno => hno hr
  have hat : ∀ q, t.index.lookup q = some (session,slot) ↔ q = r := by
    intro q
    rw [hplaces.lookup]
    constructor
    · rintro (⟨rfl,-⟩ | hq)
      · rfl
      · exact absurd hq (hempty q)
    · rintro rfl
      exact Or.inl ⟨rfl,rfl⟩
  have hr₀ : r = e.2 := by
    refine hnew.resolve_right fun hsome => ?_
    obtain ⟨k,hk⟩ := Option.ne_none_iff_exists'.mp hsome
    have hk' := (hplaces.lookup r k).mpr (Or.inr hk)
    have hself := Option.some.inj (hk'.symm.trans ((hat r).mpr rfl))
    rw [hself] at hk
    exact hempty r hk
  have hslots' : t.slots session = s.slots session := by
    rw [SupervisorImpl.slots,hplaces.workers,SupervisorImpl.slots]
  -- the other rounds find the pane in its window
  have hsettled : t.Settled session := by
    intro x hx
    rw [hslots'] at hx
    rw [hfall.slots x hx]
    refine ⟨fun hagain => (hplaces.registers hagain).2 rfl,fun q hq => ?_⟩
    rw [(hat q).mp hq,hplaces.mapped.mpr (Or.inl ⟨rfl,rfl⟩)]
    exact Option.some_ne_none _
  rw [listPanes_settled rest hsettled fun e' he' =>
    hslots' ▸ hslots e' (List.mem_cons_of_mem _ he')]
  have hplanted' := hplanted e List.mem_cons_self
  rw [← hr₀] at hplanted'
  obtain ⟨v,hlone⟩ := hfall.lone (fun v _ => hplanted' v) hat hplaces.workers
    (fun v => by
      rw [mem_listedWindows,mem_listedWindows,windowsOf,hplaces.sessionWindows,Stored,
        hplaces.windowRows]
      rfl)
    fun v => by
      rw [savedTree,cachedTree,hplaces.windowStore,windowLayoutJson,hplaces.windowRows]
      rfl
  exact ⟨r,v,hlone⟩

theorem viewed_listPanes (h : s.Viewed) {listed : List (UInt32 × PaneId)}
    (hworker : s.workers.lookup session ≠ none)
    (hperm : (listed.map Prod.fst).Perm (s.slots session))
    (hnodup : (listed.map Prod.snd).Nodup) (hunused : ∀ e ∈ listed, s.UnusedPane e.2)
    (hplanted : ∀ e ∈ listed, s.Unplanted e.2) (hfresh : s.UnusedWindow fresh)
    (hgathers : s.Gathers session fresh) : (s.listPanes session listed fresh).Viewed := by
  have hslots : ∀ e ∈ listed, e.1 ∈ s.slots session := fun e he =>
    hperm.mem_iff.mp (List.mem_map_of_mem he)
  by_cases hsettled : s.Settled session
  · rwa [listPanes_settled listed hsettled hslots]
  obtain ⟨slot,hfall⟩ := hgathers.resolve_left hsettled
  have hr := resolves_default h.toInv session hfresh
  rcases listPanes_default listed hr hunused with hsame | hfirst
  · rwa [hsame]
  rw [hfirst]
  have hhead := head_default s session fresh
  have hsaved : ∀ v, (s.getOrCreateDefaultWindow session fresh).1.savedTree v = s.savedTree v :=
    fun v => (trees_default hfresh session v).2
  have hwindows : ∀ v, v ∈ (s.getOrCreateDefaultWindow session fresh).1.windowsOf session →
      v ∈ s.listedWindows session ∨ v = fresh := fun v => mem_windowsOf_default h.toInv hfresh
  have hwarm : s.windowsOf session ≠ [] →
      (s.getOrCreateDefaultWindow session fresh).1 = s := by
    intro hne
    obtain ⟨v,-,hsame⟩ := default_of_warm hne fresh
    rw [hsame]
  have halters := alters_default hfresh session (s.getOrCreateDefaultWindow session fresh).2
  set u := (s.getOrCreateDefaultWindow session fresh).1 with hu
  set w := (s.getOrCreateDefaultWindow session fresh).2 with hw
  have hslots' : u.slots session = s.slots session := by
    rw [SupervisorImpl.slots,hr.workers,SupervisorImpl.slots]
  have hunused' : ∀ e ∈ listed, u.UnusedPane e.2 := fun e he => hr.unused (hunused e he)
  have hinv := hr.inv h.toInv
  have hlists : u.Lists (u.listPanes session listed fresh) session w :=
    (lists_listPanes listed (Lists.refl hinv) hhead hnodup hunused').1
  refine ⟨hlists.inv hinv hr.own (by rwa [hr.workers]),fun σ => ?_⟩
  by_cases hσ : σ = session
  swap
  · exact (hlists.beside hσ).seen ((hr.beside halters h.toInv hσ).seen (h.seen σ))
  subst hσ
  have honly : ∀ x ∈ s.slots σ, x = slot := hslots' ▸ hfall.slots
  by_cases hopen : slot ∈ s.slots σ
  swap
  · refine Or.inl ?_
    rintro q ⟨x,hx,-⟩
    rw [SupervisorImpl.slots,hlists.workers] at hx
    rw [← SupervisorImpl.slots,hslots'] at hx
    exact hopen (honly x hx ▸ hx)
  have hquiet : s.Quiet σ → (u.listPanes σ listed fresh).Seen σ := by
    intro hquiet
    have hempty : ∀ q, s.index.lookup q ≠ some (σ,slot) := fun q hq => hquiet q ⟨slot,hopen,hq⟩
    have hregisters : s.index.Registers σ slot := by
      by_contra hno
      refine hsettled fun x hx => ?_
      rw [honly x hx]
      exact ⟨hno,fun q hq => absurd hq (hempty q)⟩
    have hcons : listed ≠ [] := by
      rintro rfl
      have hnil := List.nil_perm.mp hperm
      rw [hnil] at hopen
      cases hopen
    rw [← hr.index] at hempty hregisters
    obtain ⟨p,v,hlone⟩ : ∃ p v, (u.listPanes σ listed fresh).Lone σ p slot v :=
      lone_listPanes hhead hfall hempty hregisters (fun e he => hslots' ▸ hslots e he) hcons
        hunused' fun e he => (hplanted e he).congr hsaved
    exact Or.inr (Or.inr ⟨p,slot,v,hlone⟩)
  rcases h.seen σ with hnone | htreed | ⟨p,slot₀,v₀,hlone⟩
  · exact hquiet hnone
  · by_cases hcold : s.windowsOf σ = []
    · exact hquiet (htreed.quiet hcold)
    · -- no window is without a tree
      obtain ⟨v,hmem,hnone,-⟩ := hfall.bare
      rw [hwarm hcold,listedWindows,if_neg hcold] at hmem
      rw [hsaved] at hnone
      exact absurd hnone (htreed.trees v hmem)
  · obtain rfl := hlone.slots slot hopen
    have hat : ∀ q, (u.listPanes σ listed fresh).index.lookup q = some (σ,slot) ↔ q = p := by
      intro q
      rw [← hlone.at_slot q,← hr.index]
      constructor
      · intro hq
        refine (hlists.found q _ hq).resolve_right fun hnew => ?_
        refine (registers_iff.mp hnew.1).1 p ?_
        rw [hr.index]
        exact (hlone.at_slot p).mpr rfl
      · exact hlists.kept q _
    have haway : ∀ v ∈ u.listedWindows σ, ∀ tree, u.savedTree v = some tree →
        p ∉ tree.allLeaves := by
      intro v hv tree ht
      rw [listedWindows_warm (List.mem_of_head? hhead)] at hv
      rw [hsaved] at ht
      rcases hwindows v hv with hv | rfl
      · exact hlone.away v hv tree ht
      · rw [savedTree_of_unused hfresh] at ht
        cases ht
    obtain ⟨v,hlone'⟩ := hfall.lone haway hat hlists.workers
      (fun v => by
        rw [mem_listedWindows,mem_listedWindows,windowsOf,hlists.sessionWindows,Stored,
          hlists.windowRows]
        rfl)
      fun v => by
        rw [savedTree,cachedTree,hlists.windowStore,windowLayoutJson,hlists.windowRows]
        rfl
    exact Or.inr (Or.inr ⟨p,slot,v,hlone'⟩)

end SupervisorImpl

end Pyre.Supervisor
