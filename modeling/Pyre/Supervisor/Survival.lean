import Pyre.Supervisor.Recovery

/-!
Which sessions are as they were once their panes are listed after a restart: those of one
pane in one window, of which nothing was stored under the pane's identifier.
-/

set_option autoImplicit false

namespace Pyre.Supervisor
open Base

namespace NamedSupervisor

open SupervisorImpl

variable {d e : NamedSupervisor} {session : SessionKey} {slot : UInt32} {w : WindowId}
  {p q : PaneId}

/-! A bare session comes back. -/

theorem Bare.slots_eq (h : d.Bare session) (hd : d.impl.Orderly)
    (hslot : slot ∈ d.impl.slots session) : d.impl.slots session = [slot] := by
  obtain ⟨p,hp⟩ := hd.registered session slot hslot
  have hall : ∀ x ∈ d.impl.slots session, x = slot := by
    intro x hx
    obtain ⟨q,hq⟩ := hd.registered session x hx
    obtain rfl := h.pane p q slot x hp hq
    exact (Prod.mk.inj (Option.some.inj (hq.symm.trans hp))).2
  have hrep := List.eq_replicate_of_mem hall
  have hlen : (d.impl.slots session).length ≤ 1 := by
    have hnodup := hd.distinct session
    rw [hrep] at hnodup
    exact List.nodup_replicate.mp hnodup
  have hpos := List.length_pos_of_mem hslot
  obtain hone : (d.impl.slots session).length = 1 := by omega
  rw [hrep,hone,List.replicate_one]

theorem Bare.windowsOf_eq (h : d.Bare session) (hd : d.impl.Orderly)
    (hw : w ∈ d.impl.windowsOf session) : d.impl.windowsOf session = [w] := by
  have hrep := List.eq_replicate_of_mem fun v hv => h.window v hv w hw
  have hlen : (d.impl.windowsOf session).length ≤ 1 := by
    have hnodup := hd.nodup session
    rw [hrep] at hnodup
    exact List.nodup_replicate.mp hnodup
  have hpos := List.length_pos_of_mem hw
  obtain hone : (d.impl.windowsOf session).length = 1 := by omega
  rw [hrep,hone,List.replicate_one]

/-- One window of the session is one row of the store. -/
theorem row_of_window (hd : d.impl.Orderly) (hw : d.impl.windowsOf session = [w]) :
    ∃ r, d.impl.windowRows.filter (fun r => r.session = session) = [r] ∧ r.id = w := by
  have hmem : w ∈ d.impl.windowsOf session := by simp [hw]
  obtain ⟨r,hr,hs,hid⟩ := (hd.stored session w).mpr hmem
  refine ⟨r,?_,hid⟩
  set rows := d.impl.windowRows.filter fun r => r.session = session with hrows
  have hnodup : (rows.map WindowRow.id).Nodup := hd.keyed.sublist (List.filter_sublist.map _)
  have hids : ∀ v ∈ rows.map WindowRow.id, v = w := by
    intro v hv
    obtain ⟨r',hr',rfl⟩ := List.mem_map.mp hv
    obtain ⟨hrow,hs'⟩ := List.mem_filter.mp hr'
    have hlisted := (hd.stored session r'.id).mp ⟨r',hrow,of_decide_eq_true hs',rfl⟩
    simpa [hw] using hlisted
  have hlen : rows.length ≤ 1 := by
    have hrep := List.eq_replicate_of_mem hids
    rw [hrep,List.length_map] at hnodup
    exact List.nodup_replicate.mp hnodup
  have hself : r ∈ rows := List.mem_filter.mpr ⟨hr,decide_eq_true hs⟩
  obtain ⟨r',hone⟩ := List.length_eq_one_iff.mp
    (Nat.le_antisymm hlen (List.length_pos_of_mem hself))
  rw [hone,List.mem_singleton] at hself
  rw [hone,hself]

theorem recovering_restart (hd : d.impl.Orderly) (hw : d.impl.windowsOf session = [w])
    (hunsaved : d.impl.windowLayoutJson w = none) :
    d.Recovering session slot w d.restart.impl where
  worker opened ho := by cases ho
  row := row_of_window (d := d) hd hw
  own r hr hid := by
    have hlisted := (hd.windows r.session r.id).mp ((hd.stored r.session r.id).mp ⟨r,hr,rfl,rfl⟩)
    have hmem : w ∈ d.impl.windowsOf session := by simp [hw]
    rw [hid,(hd.windows session w).mp hmem] at hlisted
    exact (Option.some.inj hlisted).symm
  unsaved := hunsaved
  cached := Or.inl rfl
  info info hinfo := by cases hinfo
  index q k hq := by cases hq
  unique q q' k k' hq := by cases hq
  alive := rfl

/-- What a bare session shows of its window is its pane. -/
theorem Bare.served (h : d.Bare session) (hd : d.impl.Orderly)
    (hw : d.impl.windowsOf session = [w]) (hp : d.At session slot p) {first : UInt32}
    (hfirst : first ∈ d.impl.slots session)
    (fresh : PaneId) {tree : LayoutNode}
    (hserved : (d.impl.getWindowLayout w first fresh).2 = some tree) : tree = .leaf p := by
  have hmem : w ∈ d.impl.windowsOf session := by simp [hw]
  obtain ⟨info,hinfo,hsession⟩ := Option.map_eq_some_iff.mp ((hd.windows session w).mp hmem)
  cases ht : d.impl.treeOf w with
  | none =>
    have hfirst' : first ∈ d.impl.slots info.session := hsession ▸ hfirst
    obtain ⟨q,hget,hq⟩ := hd.getOrAlloc hfirst' fresh
    simp only [SupervisorImpl.getWindowLayout,hinfo,ht,if_pos hfirst',hget,Option.map_some,
      Option.some.injEq] at hserved
    rw [hsession] at hq
    rw [← hserved,h.pane p q slot first hp hq]
  | some tree₀ =>
    have hjson := h.unsaved w hmem
    have hlayout : info.layout = some tree₀ := by
      simpa [SupervisorImpl.treeOf,hinfo,hjson] using ht
    obtain ⟨x,rfl⟩ := hd.unsaved w info tree₀ hinfo hlayout hjson
    obtain ⟨slot',hx⟩ := h.leaf w hmem _ ht x (by simp [LayoutNode.allLeaves])
    obtain rfl := h.pane p x slot slot' hp hx
    have hlive : d.impl.isLive info.session w p = true := by
      obtain ⟨v,hv,hmap⟩ := hd.placed p _ hp
      rw [hw,List.mem_singleton] at hv
      subst hv
      have hat : d.impl.index.lookup p = some (session,slot) := hp
      simp [isLive,hat,hmap,hsession]
    obtain ⟨tree',hserved',⟨rfl,-,-⟩ | ⟨rfl,-,-⟩⟩ := getWindowLayout_of_tree hinfo ht first fresh
    · exact Option.some.inj (hserved.symm.trans hserved')
    · rw [hserved,Option.some.injEq] at hserved'
      simpa [pruneGhosts,LayoutNode.allLeaves,hlive] using hserved'

/-- The slot is listed, so that its pane is in the session's window again. -/
theorem Recovering.listed {d e f : NamedSupervisor} {listed : List (UInt32 × PaneId)}
    {fresh : WindowId} (h : d.Recovering session slot w e.impl) (hnames : e.names = d.names)
    (hstep : recover d e (.listPanes session listed fresh) = some f) :
    ∃ q, f.At session slot q ∧ f.impl.paneWindowMap.lookup q ≠ none ∧
      f.impl.slots session = [slot] := by
  simp only [recover,resume,SupervisorImpl.step,Option.ite_none_right_eq_some,
    Option.map_eq_some_iff,Option.some.injEq] at hstep
  obtain ⟨hdrawn,t,⟨⟨hworker,hperm,-,-,hfresh⟩,rfl⟩,rfl⟩ := hstep
  obtain ⟨opened,ho⟩ := Option.isSome_iff_exists.mp hworker
  have hslots : e.impl.slots session = [slot] := by
    rw [SupervisorImpl.slots,ho,h.worker opened ho]
    rfl
  rw [hslots] at hperm
  obtain ⟨⟨x,p⟩,rfl⟩ := List.length_eq_one_iff.mp
    ((List.length_map Prod.fst).symm.trans hperm.length_eq)
  obtain rfl : x = slot := by simpa using hperm.mem_iff.mp List.mem_cons_self
  obtain ⟨hspare,hname⟩ := spare_of_unseen (hdrawn p (by simp [RecoveryCall.drawn]))
  rw [paneName,hnames] at hname
  obtain ⟨-,-,-,hworkers,q,hq,hmap⟩ := h.listPane (fun _ => rfl) hspare hname (Or.inr hfresh)
  refine ⟨q,hq,hmap,?_⟩
  rw [← hslots]
  exact congrArg (fun m : Table SessionKey (List UInt32) => (m.lookup session).getD []) hworkers

theorem Bare.survives (h : d.Bare session) (hd : d.impl.Orderly)
    (hopen : d.impl.slots session ≠ []) : d.Survives session := by
  obtain ⟨slot,hslot⟩ := List.exists_mem_of_ne_nil _ hopen
  have hslots := h.slots_eq hd hslot
  obtain ⟨p,hp⟩ := hd.registered session slot hslot
  obtain ⟨w,hw,hmap⟩ := hd.placed p _ hp
  have hwindows := h.windowsOf_eq hd hw
  intro calls listed fresh e hrun
  rw [exec_append,Option.bind_eq_some_iff] at hrun
  obtain ⟨u,hu,hlist⟩ := hrun
  rw [exec_cons,Option.bind_eq_some_iff] at hlist
  obtain ⟨e',hstep,he⟩ := hlist
  obtain rfl := Option.some.inj he
  -- what is known of the session is kept by every call
  have hinv : d.Recovering session slot w u.impl ∧ u.names = d.names :=
    (Always.of_invariant (I := fun u => d.Recovering session slot w u.impl ∧ u.names = d.names)
      (fun u a u' hu hstep => recover_recovering hslots hu.1 hu.2 hstep)
      ⟨recovering_restart hd hwindows (h.unsaved w hw),rfl⟩ calls).last hu
  obtain ⟨hrec,hnames⟩ := recover_recovering hslots hinv.1 hinv.2 hstep
  obtain ⟨q,hq,hplaced,hslots'⟩ := hinv.1.listed hinv.2 hstep
  have hat : ∀ x slot', d.At session slot' x → x = p ∧ slot' = slot := by
    intro x slot' hx
    obtain rfl := h.pane p x slot slot' hp hx
    exact ⟨rfl,(Prod.mk.inj (Option.some.inj (hx.symm.trans hp))).2⟩
  obtain ⟨-,hname,hown⟩ := hrec.index q _ hq rfl
  obtain ⟨v,hv⟩ := Option.ne_none_iff_exists'.mp hplaced
  obtain ⟨rfl,hwarm⟩ := hown v hv
  refine ⟨fun _ => q,⟨⟨fun x _ => ⟨slot,hq⟩,?_,?_⟩,?_,?_,?_,?_⟩⟩
  · rintro x ⟨slot₁,hx⟩ y ⟨slot₂,hy⟩ -
    exact h.pane x y slot₁ slot₂ hx hy
  · rintro y ⟨slot',hy⟩
    exact ⟨p,⟨slot,hp⟩,hrec.unique q y _ _ hq hy rfl rfl⟩
  · intro x slot' hx
    obtain ⟨-,rfl⟩ := hat x slot' hx
    exact hq
  · intro v' hv' first hfirst fresh' tree hserved
    obtain rfl := h.window v' hv' v hw
    obtain rfl := h.served hd hwindows hp hfirst fresh' hserved
    refine ⟨fun x hx => ⟨slot,?_⟩,fun first' hfirst' fresh'' => ?_⟩
    · obtain rfl : x = p := by simpa [LayoutNode.allLeaves] using hx
      exact hp
    · have hknown : e'.impl.sessionOf v' ≠ none := by
        rcases hrec.cached with hcold | ⟨-,hknown⟩
        · rw [hcold] at hwarm
          cases hwarm
        · exact hknown
      obtain ⟨info,hinfo⟩ := Option.ne_none_iff_exists'.mp
        (show e'.impl.windowStore.lookup v' ≠ none from fun hnone => hknown (by
          rw [sessionOf,hnone]; rfl))
      have hsession := (hrec.info info hinfo).1
      obtain rfl := hrec.mem_slots hfirst'
      obtain ⟨q',hfound,hq'⟩ := hrec.found session first' fresh''
      have hkeep : (e'.impl.getOrAllocPaneBySlot session first' fresh'').1 = e'.impl := by
        have hregs : ¬e'.impl.index.Registers session first' := fun hr =>
          (registers_iff.mp hr).1 q hq
        simp only [getOrAllocPaneBySlot,PaneIndex.getOrAlloc_keeps hregs]
      rw [hkeep] at hq'
      obtain rfl := hrec.unique q q' _ _ hq hq' rfl rfl
      simp only [SupervisorImpl.getWindowLayout,hinfo,hrec.treeOf,hsession,if_pos hfirst',hfound,
        Option.map_some,LayoutNode.mapPanes]
  · intro x slot' hx
    obtain ⟨rfl,-⟩ := hat x slot' hx
    rw [hv,hmap]
  · intro x slot' hx
    rw [h.unnamed x slot' hx,paneName,hnames]
    exact hname

/-! A session that comes back is bare. -/

/-- The index has one pane for a slot, out of those given. -/
def Drawn (ix : PaneIndex) (ids : List PaneId) : Prop :=
  ∀ q k, ix.lookup q = some k → q ∈ ids ∧ ∀ q', ix.lookup q' = some k → q' = q

theorem drawn_getOrAlloc {ix : PaneIndex} {ids : List PaneId} (h : Drawn ix ids) (hp : p ∈ ids) :
    Drawn (ix.getOrAllocPaneBySlot session slot p).1 ids := by
  by_cases hr : ix.Registers session slot
  · rw [PaneIndex.getOrAlloc_registers hr]
    have hfree : ∀ q, ix.lookup q ≠ some (session,slot) := (registers_iff.mp hr).1
    intro q k hq
    rcases PaneIndex.lookup_register.mp hq with ⟨rfl,rfl⟩ | ⟨-,hold⟩
    · refine ⟨hp,fun q' hq' => ?_⟩
      rcases PaneIndex.lookup_register.mp hq' with ⟨heq,-⟩ | ⟨-,hold'⟩
      · exact heq
      · exact absurd hold' (hfree q')
    · refine ⟨(h q k hold).1,fun q' hq' => ?_⟩
      rcases PaneIndex.lookup_register.mp hq' with ⟨-,rfl⟩ | ⟨-,hold'⟩
      · exact absurd hold (hfree q)
      · exact (h q k hold).2 q' hold'
  · rwa [PaneIndex.getOrAlloc_keeps hr]

theorem index_listPane (s : SupervisorImpl) (session : SessionKey) (slot : UInt32) (p : PaneId)
    (fresh : WindowId) :
    (s.listPane session slot p fresh).index = (s.index.getOrAllocPaneBySlot session slot p).1 := by
  simp only [listPane]
  cases (s.getOrAllocPaneBySlot session slot p).2 with
  | none => rfl
  | some q =>
    simp only
    cases (s.getOrAllocPaneBySlot session slot p).1.paneWindowMap.lookup q with
    | some v => rfl
    | none => exact (panes_default _ session fresh).1

theorem drawn_listPanes {s : SupervisorImpl} {ids : List PaneId}
    {listed : List (UInt32 × PaneId)} {fresh : WindowId} (h : Drawn s.index ids)
    (hids : ∀ e ∈ listed, e.2 ∈ ids) :
    Drawn (s.listPanes session listed fresh).index ids := by
  induction listed generalizing s with
  | nil => exact h
  | cons e listed ih =>
    obtain ⟨hid,hrest⟩ := List.forall_mem_cons.mp hids
    rw [listPanes_cons]
    refine ih ?_ hrest
    rw [index_listPane]
    exact drawn_getOrAlloc h hid

/-- The worker has registered and its panes are listed, with identifiers that the store does
not have; one window is known. -/
structure Relisted (d e : NamedSupervisor) (session : SessionKey) (ids : List PaneId)
    (w : WindowId) : Prop where
  names : e.names = d.names
  slots : e.impl.slots session = d.impl.slots session
  drawn : Drawn e.impl.index ids
  unnamed : ∀ p ∈ ids, d.names.lookup p = none
  unstored : ∀ p ∈ ids, ∀ r ∈ d.impl.windowRows, ∀ tree ∈ r.layout, p ∉ tree.allLeaves
  rows : e.impl.windowRows = d.impl.windowRows
  info : ∀ v info, e.impl.windowStore.lookup v = some info →
    v = w ∧ info.session = session ∧ info.layout = none

/-- The only window known after the panes are listed is the first of the session's rows. -/
theorem info_default {s : SupervisorImpl} {r : WindowRow} {fresh v : WindowId} {info : WindowMeta}
    (hcold : s.windowsOf session = []) (hnone : ∀ v, s.windowStore.lookup v = none)
    (hrow : (s.listWindows session).head? = some r)
    (hinfo : (s.getOrCreateDefaultWindow session fresh).1.windowStore.lookup v = some info) :
    v = r.id ∧ info.session = session ∧ info.layout = none := by
  have hhead : (s.windowsOf session).head? = none := by rw [hcold]; rfl
  have hstore : (s.getOrCreateDefaultWindow session fresh).1.windowStore =
      (s.setMeta r.id ⟨session,r.name,r.position,none⟩).windowStore := by
    have hunknown : s.sessionOf r.id = none := by rw [sessionOf,hnone]; rfl
    simp only [SupervisorImpl.getOrCreateDefaultWindow,hhead,hrow,orInsertMeta_unknown hunknown]
    rfl
  rw [hstore] at hinfo
  rcases Table.lookup_insert_eq_some.mp hinfo with ⟨rfl,rfl⟩ | ⟨-,hold⟩
  · exact ⟨rfl,rfl,rfl⟩
  · rw [hnone] at hold
    cases hold

/-- Identifiers that the store does not have. -/
theorem exists_unknown (d : NamedSupervisor) (n : Nat) :
    ∃ ids : List PaneId, ids.length = n ∧ ids.Nodup ∧ ∀ p ∈ ids,
      d.impl.paneRows.lookup p = none ∧ d.names.lookup p = none ∧
        ∀ r ∈ d.impl.windowRows, ∀ tree ∈ r.layout, p ∉ tree.allLeaves := by
  obtain ⟨ids,hlen,hnodup,hnew⟩ := Table.exists_notMem
    (d.impl.paneRows.keys ++ d.names.keys ++
      d.impl.windowRows.flatMap fun r => (r.layout.map LayoutNode.allLeaves).getD []) n
  refine ⟨ids,hlen,hnodup,fun p hp => ⟨?_,?_,fun r hr tree htree hleaf => ?_⟩⟩
  · rw [AList.lookup_eq_none,AList.mem_keys]
    exact fun hmem => hnew p hp (by simp [hmem])
  · rw [AList.lookup_eq_none,AList.mem_keys]
    exact fun hmem => hnew p hp (by simp [hmem])
  · refine hnew p hp (List.mem_append_right _ (List.mem_flatMap.mpr ⟨r,hr,?_⟩))
    rw [Option.mem_def.mp htree]
    exact hleaf

/-- The session has a row, as it has a pane in a window. -/
theorem exists_head_row {s : SupervisorImpl} (hs : s.Orderly) (hopen : s.slots session ≠ []) :
    ∃ r, (s.listWindows session).head? = some r := by
  obtain ⟨slot,hslot⟩ := List.exists_mem_of_ne_nil _ hopen
  obtain ⟨p,hp⟩ := hs.registered session slot hslot
  obtain ⟨w,hw,-⟩ := hs.placed p _ hp
  obtain ⟨r,hr,hsession,-⟩ := (hs.stored session w).mpr hw
  have hmem : r ∈ s.listWindows session := mem_listWindows_iff.mpr ⟨hr,hsession⟩
  exact Option.ne_none_iff_exists'.mp fun hnone =>
    List.ne_nil_of_mem hmem (List.head?_eq_none_iff.mp hnone)

theorem inv_registered {s : SupervisorImpl} (hs : s.Inv) (session : SessionKey)
    (opened : List UInt32) : (s.restart.registerWorker session opened).Inv where
  rows := fun p v hp => by cases hp
  home := fun v p k hon => by cases hon.1
  listed := fun session' v hv => by cases hv
  staffed := fun v p k hon => by cases hon.1
  stored := fun r hr session' hsession => by cases hsession
  keyed := hs.keyed

/-- The panes are listed into the first of the session's rows. -/
theorem listPanes_registered {s : SupervisorImpl} (hs : s.Inv) {opened : List UInt32}
    {fresh : WindowId} {r : WindowRow} {listed : List (UInt32 × PaneId)}
    (hfresh : (s.restart.registerWorker session opened).UnusedWindow fresh)
    (hpanes : ∀ e ∈ listed, (s.restart.registerWorker session opened).UnusedPane e.2)
    (hnodup : (listed.map Prod.snd).Nodup)
    (hrow : ((s.restart.registerWorker session opened).listWindows session).head? = some r) :
    ((s.restart.registerWorker session opened).listPanes session listed fresh).slots session =
        opened ∧
      ((s.restart.registerWorker session opened).listPanes session listed fresh).windowRows =
        s.windowRows ∧
      ∀ v info, ((s.restart.registerWorker session opened).listPanes session listed fresh
        ).windowStore.lookup v = some info →
          v = r.id ∧ info.session = session ∧ info.layout = none := by
  have hinv := inv_registered hs session opened
  have hresolves := resolves_default hinv session hfresh
  set u := s.restart.registerWorker session opened with hu
  have hself : u.workers.lookup session = some opened := AList.lookup_insert _
  rcases listPanes_default listed hresolves hpanes with hsame | hfirst
  · rw [hsame]
    refine ⟨by rw [SupervisorImpl.slots,hself]; rfl,rfl,fun v info hinfo => ?_⟩
    cases hinfo
  · rw [hfirst]
    have hgood : u.Good := ⟨hinv,fun v p k hon => by cases hon.1⟩
    obtain ⟨hlists,-⟩ := lists_listPanes listed (Lists.refl (hgood.resolves hresolves).toInv)
      (head_default u session fresh) hnodup fun e he => hresolves.unused (hpanes e he)
    refine ⟨?_,?_,fun v info hinfo => ?_⟩
    · rw [SupervisorImpl.slots,hlists.workers,hresolves.workers,hself]
      rfl
    · rw [hlists.windowRows]
      have hhead : (u.windowsOf session).head? = none := rfl
      simp only [SupervisorImpl.getOrCreateDefaultWindow,hhead,hrow]
      exact windowRows_orInsertMeta u r.id ⟨session,r.name,r.position,none⟩
    · rw [hlists.windowStore] at hinfo
      exact info_default rfl (fun _ => rfl) hrow hinfo

theorem exists_relisted (hd : d.impl.Orderly) (hopen : d.impl.slots session ≠ []) :
    ∃ calls listed fresh e ids w,
      exec (recover d) d.restart (calls ++ [.listPanes session listed fresh]) = some e ∧
        d.Relisted e session ids w := by
  obtain ⟨opened,hopened⟩ : ∃ opened, d.impl.workers.lookup session = some opened := by
    cases hworker : d.impl.workers.lookup session with
    | none => simp [SupervisorImpl.slots,hworker] at hopen
    | some opened => exact ⟨opened,rfl⟩
  have hslots : d.impl.slots session = opened := by rw [SupervisorImpl.slots,hopened]; rfl
  obtain ⟨ids,hlen,hnodup,hunknown⟩ := exists_unknown d opened.length
  obtain ⟨freshes,hone,-,hfresh⟩ := Table.exists_notMem (d.impl.windowRows.map WindowRow.id) 1
  obtain ⟨fresh,rfl⟩ := List.length_eq_one_iff.mp hone
  set s := d.impl.restart.registerWorker session opened with hs
  have hunseen : ∀ p ∈ ids, NamedSupervisor.Unseen ⟨s,d.names⟩ p := by
    intro p hp
    obtain ⟨hunrowed,hunnamed,hunstored⟩ := hunknown p hp
    refine ⟨⟨rfl,rfl,hunrowed⟩,hunnamed,?_,hunstored⟩
    intro info hinfo
    cases hinfo
  have hunused : s.UnusedWindow fresh := by
    refine ⟨rfl,fun r hr heq => hfresh fresh List.mem_cons_self ?_⟩
    exact heq ▸ List.mem_map_of_mem hr
  set listed := opened.zip ids with hlisted
  have hfst : listed.map Prod.fst = opened := List.map_fst_zip hlen.ge
  have hsnd : listed.map Prod.snd = ids := List.map_snd_zip hlen.le
  have hmem : ∀ e ∈ listed, e.2 ∈ ids := fun e he => hsnd ▸ List.mem_map_of_mem he
  have hself : s.workers.lookup session = some opened := AList.lookup_insert _
  have hregister : recover d d.restart (.registerWorker session opened) = some ⟨s,d.names⟩ := by
    have hdistinct : opened.Nodup := hslots ▸ hd.distinct session
    have hnone : d.restart.impl.workers.lookup session = none := rfl
    simp only [recover,RecoveryCall.drawn,resume,hopened,Option.bind_some,
      if_pos (List.Perm.refl opened),SupervisorImpl.step]
    rw [if_pos (by simp),if_pos ⟨hnone,hdistinct⟩]
    rfl
  have hlist : recover d ⟨s,d.names⟩ (.listPanes session listed fresh) =
      some ⟨s.listPanes session listed fresh,d.names⟩ := by
    have hslots' : s.slots session = opened := by rw [SupervisorImpl.slots,hself]; rfl
    simp only [recover,RecoveryCall.drawn,resume,SupervisorImpl.step]
    rw [if_pos (by rwa [hsnd]),if_pos]
    · rfl
    · rw [hself,hfst,hslots',hsnd]
      exact ⟨rfl,List.Perm.refl opened,hnodup,fun e he => (hunseen e.2 (hmem e he)).1,hunused⟩
  obtain ⟨r,hrow⟩ := exists_head_row hd hopen
  have hdrawn : Drawn s.index ids := by
    intro q k hq
    cases hq
  have hstate := listPanes_registered hd.inv hunused (fun e he => (hunseen e.2 (hmem e he)).1)
    (hsnd.symm ▸ hnodup) hrow
  refine ⟨[.registerWorker session opened],listed,fresh,_,ids,r.id,
    exec_snoc (by rw [exec_cons,hregister]; rfl) _ |>.trans hlist,?_⟩
  exact
    { names := rfl
      slots := hstate.1.trans hslots.symm
      drawn := drawn_listPanes hdrawn hmem
      unnamed := fun p hp => (hunknown p hp).2.1
      unstored := fun p hp => (hunknown p hp).2.2
      rows := hstate.2.1
      info := hstate.2.2 }

/-- Of an open slot's session every window is shown. -/
theorem exists_served (hd : d.impl.Orderly) (hw : w ∈ d.impl.windowsOf session) {first : UInt32}
    (hfirst : first ∈ d.impl.slots session) (fresh : PaneId) :
    ∃ tree, (d.impl.getWindowLayout w first fresh).2 = some tree ∧ tree.allLeaves ≠ [] ∧
      ∀ x, d.impl.treeOf w = some (.leaf x) → tree = .leaf x := by
  obtain ⟨info,hinfo,hsession⟩ := Option.map_eq_some_iff.mp ((hd.windows session w).mp hw)
  cases ht : d.impl.treeOf w with
  | none =>
    have hfirst' : first ∈ d.impl.slots info.session := hsession ▸ hfirst
    obtain ⟨q,hget,-⟩ := hd.getOrAlloc hfirst' fresh
    refine ⟨.leaf q,?_,by simp [LayoutNode.allLeaves],fun x hx => by cases hx⟩
    simp only [SupervisorImpl.getWindowLayout,hinfo,ht,if_pos hfirst',hget,Option.map_some]
  | some tree =>
    have hsound := hd.sound ht
    obtain ⟨tree',hserved,⟨rfl,-,-⟩ | ⟨rfl,-,-⟩⟩ := getWindowLayout_of_tree hinfo ht first fresh
    · exact ⟨tree',hserved,hsound.tiled.ne_nil,fun x hx => Option.some.inj hx⟩
    · refine ⟨_,hserved,(sound_foldl_close hsound).tiled.ne_nil,fun x hx => ?_⟩
      obtain rfl := Option.some.inj hx
      -- the last leaf is never closed
      have hclose : ∀ p, ((LayoutNode.leaf x).close p).1 = .leaf x := by
        intro p
        unfold LayoutNode.close
        split
        · rfl
        · rfl
      unfold pruneGhosts
      generalize List.filter _ _ = ghosts
      induction ghosts with
      | nil => rfl
      | cons p ghosts ih => rw [List.foldl_cons,hclose,ih]

/-- What is shown of a window once the panes are listed comes from the store or is a leaf. -/
theorem Relisted.served {ids : List PaneId} {v : WindowId} {first : UInt32} {fresh : PaneId}
    {tree : LayoutNode} (h : d.Relisted e session ids w)
    (hserved : (e.impl.getWindowLayout v first fresh).2 = some tree) :
    v = w ∧ ((∃ stored, d.impl.windowLayoutJson v = some stored ∧
        ∀ x ∈ tree.allLeaves, x ∈ stored.allLeaves) ∨
      d.impl.windowLayoutJson v = none ∧ ∃ q, tree = .leaf q ∧
        ∀ p, e.At session first p → p = q) := by
  cases hv : e.impl.windowStore.lookup v with
  | none => simp [SupervisorImpl.getWindowLayout,hv] at hserved
  | some info =>
    obtain ⟨rfl,hsession,hlayout⟩ := h.info v info hv
    refine ⟨rfl,?_⟩
    have hjson : e.impl.windowLayoutJson v = d.impl.windowLayoutJson v := by
      rw [windowLayoutJson,h.rows,windowLayoutJson]
    have ht : e.impl.treeOf v = d.impl.windowLayoutJson v := by
      rw [SupervisorImpl.treeOf,hv,Option.bind_some,hlayout,hjson]
      rfl
    cases hstored : d.impl.windowLayoutJson v with
    | some stored =>
      refine Or.inl ⟨stored,rfl,?_⟩
      obtain ⟨tree',hserved',⟨rfl,-,-⟩ | ⟨rfl,-,-⟩⟩ :=
        getWindowLayout_of_tree hv (ht.trans hstored) first fresh
      · obtain rfl := Option.some.inj (hserved.symm.trans hserved')
        exact fun x hx => hx
      · obtain rfl := Option.some.inj (hserved.symm.trans hserved')
        intro x hx
        exact LayoutNode.mem_leaves_foldl_close hx
    | none =>
      refine Or.inr ⟨rfl,?_⟩
      simp only [SupervisorImpl.getWindowLayout,hv,ht.trans hstored,hsession] at hserved
      split at hserved
      · obtain ⟨q,hfound,rfl⟩ := Option.map_eq_some_iff.mp hserved
        refine ⟨q,rfl,fun p hp => ?_⟩
        have hregs : ¬e.impl.index.Registers session first := fun hr =>
          (registers_iff.mp hr).1 p hp
        have hq := PaneIndex.lookup_getOrAlloc_some hfound
        rw [PaneIndex.getOrAlloc_keeps hregs] at hq
        exact (h.drawn q _ hq).2 p hp
      · cases hserved

theorem Relisted.bare {ids : List PaneId} {f : PaneId → PaneId}
    (h : d.Relisted e session ids w) (hd : d.impl.Orderly) (hopen : d.impl.slots session ≠ [])
    (hc : d.Carries e session f) : d.Bare session := by
  obtain ⟨first,hfirst⟩ := List.exists_mem_of_ne_nil _ hopen
  have hfirst' : first ∈ e.impl.slots session := h.slots ▸ hfirst
  have hids : ∀ {p slot}, d.At session slot p → f p ∈ ids := fun hp =>
    (h.drawn _ _ (hc.slot _ _ hp)).1
  obtain ⟨p₀,hp₀⟩ := hd.registered session first hfirst
  -- of each window what is shown is a leaf, as the store has no tree of it
  have hleaf : ∀ v ∈ d.impl.windowsOf session, v = w ∧ d.impl.windowLayoutJson v = none ∧
      (∀ x, d.impl.treeOf v = some (.leaf x) → ∃ slot, d.At session slot x) ∧
      ∃ q, ∀ slot ∈ d.impl.slots session, ∀ p, e.At session slot p → p = q := by
    intro v hv
    obtain ⟨tree,hserved,hne,honly⟩ := exists_served hd hv hfirst p₀
    obtain ⟨hpanes,hafter⟩ := hc.layout v hv first hfirst p₀ tree hserved
    obtain ⟨x,hx⟩ := List.exists_mem_of_ne_nil _ hne
    obtain ⟨hvw,⟨stored,hjson,hsub⟩ | ⟨hnone,q,htree,-⟩⟩ := h.served (hafter first hfirst' p₀)
    · exfalso
      obtain ⟨r,hr,hlayout⟩ := Option.bind_eq_some_iff.mp hjson
      obtain ⟨slot,hat⟩ := hpanes x hx
      refine h.unstored (f x) (hids hat) r (List.mem_of_find?_eq_some hr) stored hlayout
        (hsub (f x) ?_)
      rw [LayoutNode.leaves_mapPanes]
      exact List.mem_map_of_mem hx
    · refine ⟨hvw,hnone,fun y hy => ?_,q,fun slot hslot p hp => ?_⟩
      · refine hpanes y ?_
        rw [honly y hy]
        simp [LayoutNode.allLeaves]
      · obtain ⟨-,⟨stored,hjson,-⟩ | ⟨-,q',htree',hq'⟩⟩ :=
          h.served (hafter slot (h.slots ▸ hslot) p₀)
        · rw [hnone] at hjson
          cases hjson
        · obtain rfl : q = q' := LayoutNode.leaf.inj (htree.symm.trans htree')
          exact hq' p hp
  obtain ⟨v₀,hv₀,-⟩ := hd.placed p₀ _ hp₀
  obtain ⟨-,-,-,q,hq⟩ := hleaf v₀ hv₀
  exact
    { pane := fun x y slot slot' hx hy => by
        refine hc.bij.injOn ⟨slot,hx⟩ ⟨slot',hy⟩ ?_
        rw [hq slot (hd.opened x _ hx) _ (hc.slot x slot hx),
          hq slot' (hd.opened y _ hy) _ (hc.slot y slot' hy)]
      window := fun v hv v' hv' => (hleaf v hv).1.trans (hleaf v' hv').1.symm
      unsaved := fun v hv => (hleaf v hv).2.1
      leaf := fun v hv tree ht p hp => by
        have hinfo := Option.map_eq_some_iff.mp ((hd.windows session v).mp hv)
        obtain ⟨info,hinfo,-⟩ := hinfo
        have hnone := (hleaf v hv).2.1
        have hlayout : info.layout = some tree := by
          simpa [SupervisorImpl.treeOf,hinfo,hnone] using ht
        obtain ⟨x,rfl⟩ := hd.unsaved v info tree hinfo hlayout hnone
        obtain rfl : p = x := by simpa [LayoutNode.allLeaves] using hp
        exact (hleaf v hv).2.2.1 p ht
      unnamed := fun p slot hp => by
        rw [← hc.name p slot hp,paneName,h.names,h.unnamed (f p) (hids hp)]
        rfl }

/-! What is read changes no worker. -/

theorem workers_listPanes (s : SupervisorImpl) (listed : List (UInt32 × PaneId))
    (fresh : WindowId) : (s.listPanes session listed fresh).workers = s.workers := by
  induction listed generalizing s with
  | nil => rfl
  | cons e listed ih =>
    rw [listPanes_cons,ih]
    simp only [listPane]
    cases (s.getOrAllocPaneBySlot session e.1 e.2).2 with
    | none => rfl
    | some q =>
      simp only
      cases (s.getOrAllocPaneBySlot session e.1 e.2).1.paneWindowMap.lookup q with
      | some v => rfl
      | none => exact (panes_default _ session fresh).2

theorem workers_getWindowLayout (s : SupervisorImpl) (v : WindowId) (first : UInt32)
    (fresh : PaneId) : (s.getWindowLayout v first fresh).1.workers = s.workers := by
  cases hv : s.windowStore.lookup v with
  | none => simp only [SupervisorImpl.getWindowLayout,hv]
  | some info =>
    cases ht : s.treeOf v with
    | none =>
      simp only [SupervisorImpl.getWindowLayout,hv,ht]
      split <;> rfl
    | some tree =>
      obtain ⟨tree',-,⟨-,-,hstate⟩ | ⟨-,-,hstate⟩⟩ := getWindowLayout_of_tree hv ht first fresh
      · rw [hstate]
        exact (samePanes_setLayout s v tree).workers
      · rw [hstate]
        exact ((samePanes_setLayout s v tree).trans (samePanes_storeLayout _ v tree')).workers

theorem workers_warm (s : SupervisorImpl) (session : SessionKey) (row : WindowRow) :
    (s.warm session row).workers = s.workers := by
  have hsame := (samePanes_orInsertMeta s row.id ⟨session,row.name,row.position,none⟩).workers
  simp only [SupervisorImpl.warm]
  split <;> exact hsame

theorem workers_loadWindows (s : SupervisorImpl) (session : SessionKey) :
    (s.loadWindows session).workers = s.workers := by
  unfold SupervisorImpl.loadWindows
  split
  · rename_i hcold
    generalize s.listWindows session = rows
    clear hcold
    induction rows generalizing s with
    | nil => rfl
    | cons row rows ih => rw [List.foldl_cons,ih,workers_warm]
  · rfl

theorem workers_getSessionLayout (s : SupervisorImpl) (first : UInt32) (fresh : PaneId) :
    (s.getSessionLayout session first fresh).1.workers = s.workers := by
  unfold SupervisorImpl.getSessionLayout
  split
  · exact workers_getWindowLayout s _ first fresh
  · split
    · rw [workers_getWindowLayout,workers_warm]
    · split <;> rfl

/-- A worker comes back only for a session that had one. -/
theorem recover_closed (hclosed : d.impl.workers.lookup session = none) {u : NamedSupervisor}
    {a : RecoveryCall} (hstep : recover d e a = some u)
    (hnone : e.impl.workers.lookup session = none) : u.impl.workers.lookup session = none := by
  simp only [recover,Option.ite_none_right_eq_some,Option.map_eq_some_iff] at hstep
  obtain ⟨-,t,hresume,rfl⟩ := hstep
  cases a with
  | registerWorker session' slots =>
    obtain ⟨opened,hopened,hresume⟩ := Option.bind_eq_some_iff.mp hresume
    simp only [SupervisorImpl.step,Option.ite_none_right_eq_some,Option.some.injEq] at hresume
    obtain ⟨-,-,rfl⟩ := hresume
    have hne : session ≠ session' := by
      rintro rfl
      rw [hclosed] at hopened
      cases hopened
    exact (AList.lookup_insert_ne hne).trans hnone
  | callback session' x fresh =>
    simp only [resume,SupervisorImpl.step,Option.ite_none_right_eq_some,Option.some.injEq]
      at hresume
    obtain ⟨-,-,rfl⟩ := hresume
    exact hnone
  | listPanes session' listed fresh =>
    simp only [resume,SupervisorImpl.step,Option.ite_none_right_eq_some,Option.some.injEq]
      at hresume
    obtain ⟨-,rfl⟩ := hresume
    rwa [workers_listPanes]
  | listWindows session' =>
    obtain rfl := Option.some.inj hresume
    rwa [workers_loadWindows]
  | getSessionLayout session' first fresh =>
    simp only [resume,SupervisorImpl.serve,Option.ite_none_right_eq_some,Option.some.injEq]
      at hresume
    obtain ⟨-,rfl⟩ := hresume
    rwa [workers_getSessionLayout]
  | getWindowLayout v first fresh =>
    simp only [resume,SupervisorImpl.step,Option.ite_none_right_eq_some,Option.some.injEq]
      at hresume
    obtain ⟨-,rfl⟩ := hresume
    rwa [workers_getWindowLayout]

/-- The panes of a session without a worker are not listed. -/
theorem survives_of_closed (hd : d.impl.Orderly) (hclosed : d.impl.slots session = []) :
    d.Survives session := by
  have hnone : d.impl.workers.lookup session = none := by
    cases hworker : d.impl.workers.lookup session with
    | none => rfl
    | some opened =>
      rw [SupervisorImpl.slots,hworker,Option.getD_some] at hclosed
      exact absurd (hclosed ▸ hworker) (hd.staffed session)
  intro calls listed fresh e hrun
  rw [exec_append,Option.bind_eq_some_iff] at hrun
  obtain ⟨u,hu,hlist⟩ := hrun
  rw [exec_cons,Option.bind_eq_some_iff] at hlist
  obtain ⟨e',hstep,-⟩ := hlist
  have hinv : u.impl.workers.lookup session = none :=
    (Always.of_invariant (I := fun u => u.impl.workers.lookup session = none)
      (fun u a u' hu hstep => recover_closed hnone hstep hu) rfl calls).last hu
  simp only [recover,resume,SupervisorImpl.step,Option.ite_none_right_eq_some,
    Option.map_eq_some_iff,Option.some.injEq] at hstep
  obtain ⟨-,t,⟨⟨hworker,-⟩,-⟩,-⟩ := hstep
  rw [hinv] at hworker
  cases hworker

theorem bare_of_survives (hd : d.impl.Orderly) (hopen : d.impl.slots session ≠ [])
    (h : d.Survives session) : d.Bare session := by
  obtain ⟨calls,listed,fresh,e,ids,w,hrun,hrelisted⟩ := exists_relisted hd hopen
  obtain ⟨f,hcarries⟩ := h calls listed fresh e hrun
  exact hrelisted.bare hd hopen hcarries

/-- Of what is reached, the sessions that come back are those with at most one open pane, in
one window, of which the store has neither a layout nor a name. -/
theorem layouts_survive_iff {calls : List ClientCall} (h : exec step empty calls = some d)
    (session : SessionKey) :
    d.Survives session ↔ (d.impl.slots session ≠ [] → d.Bare session) := by
  have hd := orderly_run h
  constructor
  · intro hsurvives hopen
    exact bare_of_survives hd hopen hsurvives
  · intro hbare
    by_cases hclosed : d.impl.slots session = []
    · exact survives_of_closed hd hclosed
    · exact (hbare hclosed).survives hd hclosed

def spawnOne : List ClientCall := [.spawn "s" ⟨1⟩ ⟨1⟩]

theorem layouts_survive_one : ∃ d, exec step empty spawnOne = some d ∧
    (d.Survives "s" ↔ (d.impl.slots "s" ≠ [] → d.Bare "s")) := by
  obtain ⟨d,hd⟩ := Option.isSome_iff_exists.mp
    (show (exec step empty spawnOne).isSome from by decide)
  exact ⟨d,hd,layouts_survive_iff hd "s"⟩

/-- A pane is split: the tree in the store has two panes that no longer exist. -/
def splitOne : List ClientCall := spawnOne ++ [.openPaneSplit ⟨1⟩ .horizontal ⟨2⟩ ⟨2⟩]

theorem split_lost : ¬∀ calls d, exec step empty calls = some d → ∀ session,
    d.Survives session := by
  intro h
  obtain ⟨d,hd⟩ := Option.isSome_iff_exists.mp
    (show (exec step empty splitOne).isSome from by decide)
  have hpanes : (exec step empty splitOne).map (fun d => (d.impl.slots "s",
      d.impl.index.lookup ⟨1⟩,d.impl.index.lookup ⟨2⟩)) =
        some ([1,0],some ("s",0),some ("s",1)) := by decide
  rw [hd,Option.map_some,Option.some.injEq,Prod.mk.injEq,Prod.mk.injEq] at hpanes
  obtain ⟨hslots,hfirst,hsecond⟩ := hpanes
  have hbare : d.Bare "s" := bare_of_survives (orderly_run hd) (by simp [hslots])
    (h splitOne d hd "s")
  exact absurd (hbare.pane ⟨1⟩ ⟨2⟩ 0 1 hfirst hsecond) (by decide)

end NamedSupervisor

end Pyre.Supervisor
