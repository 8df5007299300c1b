import Pyre.Session.PaneEvents
import Pyre.Supervisor.Ending
import Pyre.Supervisor.Splits

/-!
The pane events of a supervisor and of a daemon of its own. Under a supervisor the
requests of clients and the callbacks of workers run side by side, and each emits the
events of what it has done itself.
-/

set_option autoImplicit false

namespace Pyre.Supervisor
open Base Events

namespace SupervisorImpl

/-- Take the pane out of the tree of the window it was found in, if there is one. -/
def closeLeaf (s : SupervisorImpl) (pane : PaneId) (w : Option WindowId) :
    SupervisorImpl × Bool :=
  match w.bind fun w => ((s.windowStore.lookup w).bind WindowMeta.layout).map (w,·) with
  | none => (s,false)
  | some (w,tree) =>
    let tree := (tree.close pane).1
    ((s.setLayout w tree).upsertWindowLayout w tree,true)

theorem prunePane_eq (s : SupervisorImpl) (pane : PaneId) :
    s.prunePane pane =
      ((s.unassign pane).closeLeaf pane (s.paneWindowMap.lookup pane)).1 := by
  unfold prunePane closeLeaf
  cases hw : s.paneWindowMap.lookup pane with
  | none =>
    have herase : s.paneWindowMap.erase pane = s.paneWindowMap :=
      AList.ext (List.kerase_of_notMem_keys (AList.lookup_eq_none.mp hw))
    simp [unassign,herase]
  | some w =>
    simp only [unassign,Option.bind_some]
    cases (s.windowStore.lookup w).bind WindowMeta.layout with
    | none => rfl
    | some tree => rfl

/-- `set_pane_weight`, once the window is found: the tree must be there. -/
def weighLeaf (s : SupervisorImpl) (pane : PaneId) (w : WindowId) (weight : UInt16) :
    Option SupervisorImpl :=
  ((s.windowStore.lookup w).bind WindowMeta.layout).map fun tree =>
    let tree := tree.setWeight pane weight
    (s.setLayout w tree).upsertWindowLayout w tree

def removePaneSlot (s : SupervisorImpl) (session : SessionKey) (slot : UInt32) :
    SupervisorImpl :=
  { s with index := (s.index.removePaneSlot session slot).1 }

/-- The parts of the callback, one after the other. -/
theorem paneClosed_eq {s t u : SupervisorImpl} {session : SessionKey} {slot : UInt32}
    {fresh : PaneId} {pane : Option PaneId}
    (ht : s.getOrAllocPaneBySlot session slot fresh = (t,pane))
    (hu : u = if (t.removePaneSlot session slot).index.paneCount session = 0 then
      (t.removePaneSlot session slot).removeSession session else t.removePaneSlot session slot) :
    s.paneClosed session slot fresh = pane.elim u u.prunePane := by
  subst hu
  unfold paneClosed
  rw [ht]
  cases pane <;> rfl

theorem index_closeLeaf (s : SupervisorImpl) (pane : PaneId) (w : Option WindowId) :
    (s.closeLeaf pane w).1.index = s.index := by
  unfold closeLeaf
  split
  · rfl
  · rename_i w tree _
    exact (samePanes_storeLayout s w (tree.close pane).1).index

theorem index_weighLeaf {s t : SupervisorImpl} {pane : PaneId} {w : WindowId} {weight : UInt16}
    (h : s.weighLeaf pane w weight = some t) : t.index = s.index := by
  obtain ⟨tree,-,rfl⟩ := Option.map_eq_some_iff.mp h
  exact (samePanes_storeLayout s w (tree.setWeight pane weight)).index

theorem index_getOrCreateDefaultWindow (s : SupervisorImpl) (session : SessionKey)
    (fresh : WindowId) : (s.getOrCreateDefaultWindow session fresh).1.index = s.index := by
  unfold getOrCreateDefaultWindow
  split
  · rfl
  · split
    · rename_i row _
      exact (samePanes_orInsertMeta s row.id ⟨session,row.name,row.position,none⟩).index
    · rfl

theorem index_placeOpened (s : SupervisorImpl) (session : SessionKey) (pane : PaneId)
    (w : WindowId) : (s.placeOpened session pane w).index = s.index := by
  unfold placeOpened
  simp only
  split
  · rfl
  · exact (samePanes_orInsertMeta _ w _).index

theorem index_placeSplit (s : SupervisorImpl) (session : SessionKey) (parent pane : PaneId)
    (orient : Orient) (w : WindowId) :
    (s.placeSplit session parent pane orient w).index = s.index := by
  rw [placeSplit_eq]
  exact (growTree_spec s session parent pane orient w).2.2.index

theorem index_dropWindow (s : SupervisorImpl) (w : WindowId) :
    ((s.dropWindow w).deleteWindow w).index = s.index := (samePanes_dropWindow s w).1

/-- A reader of the layout may find a slot of the worker that is in no table. -/
theorem lookup_of_getWindowLayout {s : SupervisorImpl} {w : WindowId} {first : UInt32}
    {p fresh : PaneId} {key : SlotKey}
    (h : (s.getWindowLayout w first fresh).1.index.lookup p = some key) :
    fresh = p ∨ s.index.lookup p = some key := by
  cases hw : s.windowStore.lookup w with
  | none =>
    simp only [getWindowLayout,hw] at h
    exact Or.inr h
  | some info =>
    cases ht : s.treeOf w with
    | none =>
      simp only [getWindowLayout,hw,ht] at h
      split at h
      · exact PaneIndex.lookup_of_getOrAlloc h
      · exact Or.inr h
    | some tree =>
      have hsession : s.sessionOf w = some info.session := by rw [sessionOf,hw]; rfl
      rw [(getWindowLayout_shown hsession ht first fresh).2.2.2.index] at h
      exact Or.inr h

end SupervisorImpl

/-- The supervisor with what runs in it: `opening` are the panes whose slot is allocated
and that are still to be placed, `opened` those that have been, and `ending` the panes
whose slot a callback has closed. `resolved` are the slots that have been looked up, with
the PaneId found, and `drawn` the PaneIds drawn so far. -/
structure Host where
  impl : SupervisorImpl
  emitters : Emitters
  opening : List PaneId
  opened : List PaneId
  ending : List PaneId
  resolved : List (SlotKey × PaneId)
  drawn : List PaneId

namespace Host

def idle : Host := ⟨.empty,.idle,[],[],[],[],[]⟩

/-- `spawned`, `placed` and `split` end the three calls that open a pane. The window of
`closePane`, `setPaneWeight` and `endPane` is the one that the pane was found in before. A
callback of a worker starts with `resolve`, as any other use of a slot does; that a pane
has closed is then `removePaneSlot` and `endPane`. A worker may register, and its session
be removed, at any time. -/
inductive Step where
  | alloc (session : SessionKey) (pane : PaneId)
  | spawned (session : SessionKey) (pane : PaneId) (w : WindowId)
  | placed (session : SessionKey) (pane : PaneId) (w : WindowId)
  | split (session : SessionKey) (parent : PaneId) (orient : Orient) (pane : PaneId)
      (w : WindowId)
  | closePane (pane : PaneId) (w : Option WindowId)
  | setPaneWeight (pane : PaneId) (w : WindowId) (weight : UInt16)
  | resolve (session : SessionKey) (slot : UInt32) (fresh : PaneId)
  | removePaneSlot (session : SessionKey) (slot : UInt32) (pane : Option PaneId)
  | endPane (pane : PaneId) (w : Option WindowId)
  | paneStateChanged (session : SessionKey) (slot : UInt32) (pane : PaneId)
  | assign (pane : PaneId) (w : WindowId)
  | unassign (pane : PaneId)
  | newWindow (session : SessionKey) (name : Option String) (w : WindowId)
  | defaultWindow (session : SessionKey) (fresh : WindowId)
  | dropWindow (w : WindowId)
  | getWindowLayout (w : WindowId) (first : UInt32) (fresh : PaneId)
  | registerWorker (session : SessionKey) (slots : List UInt32)
  | removeSession (session : SessionKey)
  | emit (i : Nat)
  deriving DecidableEq, Repr

/-- The tables change, and a task starts that emits the events. -/
def run (s : Host) (impl : SupervisorImpl) (task : List Note) : Host :=
  { s with impl := impl, emitters := s.emitters.start task }

/-- The pane is placed, and its opening has events to emit. -/
def place (s : Host) (impl : SupervisorImpl) (pane : PaneId) (task : List Note) : Option Host :=
  if pane ∈ s.opening then
    some { s.run impl task with opening := s.opening.erase pane, opened := pane :: s.opened }
  else none

def step (s : Host) : Step → Option Host
  | .alloc session pane =>
    if pane ∉ s.drawn then
      some { s with
        impl := (s.impl.allocPane session pane).1
        opening := pane :: s.opening
        drawn := pane :: s.drawn }
    else none
  | .spawned session pane w => s.place (s.impl.placeSpawned session pane w) pane [(pane,.spawned)]
  | .placed session pane w => s.place (s.impl.placeOpened session pane w) pane [(pane,.spawned)]
  | .split session parent orient pane w =>
    s.place (s.impl.placeSplit session parent pane orient w) pane
      [(pane,.spawned),(pane,.layoutChanged)]
  | .closePane pane w =>
    let (impl,changed) := s.impl.closeLeaf pane w
    some (s.run (impl.unassign pane) (if changed then [(pane,.layoutChanged)] else []))
  | .setPaneWeight pane w weight =>
    (s.impl.weighLeaf pane w weight).map fun impl => s.run impl [(pane,.layoutChanged)]
  | .resolve session slot fresh =>
    if fresh ∉ s.drawn then
      let (impl,pane) := s.impl.getOrAllocPaneBySlot session slot fresh
      some { s with
        impl := impl
        resolved := (pane.map ((session,slot),·)).toList ++ s.resolved
        drawn := fresh :: s.drawn }
    else none
  | .removePaneSlot session slot pane =>
    if ∀ p ∈ pane, ((session,slot),p) ∈ s.resolved then
      some { s with
        impl := s.impl.removePaneSlot session slot
        ending := pane.toList ++ s.ending }
    else none
  | .endPane pane w =>
    if pane ∈ s.ending then
      let (impl,changed) := (s.impl.unassign pane).closeLeaf pane w
      some { s.run impl (closedTask pane changed) with ending := s.ending.erase pane }
    else none
  | .paneStateChanged session slot pane =>
    if ((session,slot),pane) ∈ s.resolved then some (s.run s.impl [(pane,.stateChanged)])
    else none
  | .assign pane w => some { s with impl := s.impl.assign pane w }
  | .unassign pane => some { s with impl := s.impl.unassign pane }
  | .newWindow session name w => some { s with impl := s.impl.newWindow session name w }
  | .defaultWindow session fresh =>
    some { s with impl := (s.impl.getOrCreateDefaultWindow session fresh).1 }
  | .dropWindow w => some { s with impl := (s.impl.dropWindow w).deleteWindow w }
  | .getWindowLayout w first fresh =>
    if fresh ∉ s.drawn then
      some { s with impl := (s.impl.getWindowLayout w first fresh).1, drawn := fresh :: s.drawn }
    else none
  | .registerWorker session slots =>
    some { s with impl := s.impl.registerWorker session slots }
  | .removeSession session => some { s with impl := s.impl.removeSession session }
  | .emit i => (s.emitters.emit i).map fun e => { s with emitters := e }

/-- A pane that a worker reports about has been opened and still has its slot. Where it
has closed, nobody has an event of it yet to emit, and where its state has changed, its
`Spawned` is out. Layouts change for panes in the index. -/
def Settled (s : Host) : Step → Prop
  | .closePane pane w =>
    (s.impl.closeLeaf pane w).2 = true → (s.impl.index.lookup pane).isSome
  | .setPaneWeight pane _ _ => (s.impl.index.lookup pane).isSome
  | .removePaneSlot session slot pane => ∀ p ∈ pane,
    s.impl.index.lookup p = some (session,slot) ∧ p ∈ s.opened ∧ ¬s.emitters.Pending p
  | .paneStateChanged session slot pane =>
    s.impl.index.lookup pane = some (session,slot) ∧ pane ∈ s.opened ∧
      ∀ task ∈ s.emitters.tasks, (pane,.spawned) ∉ task
  | .alloc _ _ | .spawned _ _ _ | .placed _ _ _ | .split _ _ _ _ _ | .resolve _ _ _
  | .endPane _ _ | .assign _ _ | .unassign _ | .newWindow _ _ _ | .defaultWindow _ _
  | .dropWindow _ | .getWindowLayout _ _ _ | .registerWorker _ _ | .removeSession _
  | .emit _ => True

instance (s : Host) : DecidablePred s.Settled
  | .closePane _ _ => inferInstanceAs (Decidable (_ → _))
  | .setPaneWeight _ _ _ => inferInstanceAs (Decidable (_ = true))
  | .removePaneSlot _ _ _ => inferInstanceAs (Decidable (∀ _ ∈ _, _))
  | .paneStateChanged _ _ _ => inferInstanceAs (Decidable (_ ∧ _))
  | .alloc _ _ | .spawned _ _ _ | .placed _ _ _ | .split _ _ _ _ _ | .resolve _ _ _
  | .endPane _ _ | .assign _ _ | .unassign _ | .newWindow _ _ _ | .defaultWindow _ _
  | .dropWindow _ | .getWindowLayout _ _ _ | .registerWorker _ _ | .removeSession _
  | .emit _ => isTrue trivial

structure Inv (s : Host) : Prop where
  safe : s.emitters.Safe
  opened : ∀ p ∈ s.opened, s.emitters.Noted (p,.spawned)
  live : ∀ p, (s.impl.index.lookup p).isSome → ¬s.emitters.Noted (p,.closed)
  opening : ∀ p ∈ s.opening,
    ¬s.emitters.Noted (p,.spawned) ∧ ¬s.emitters.Noted (p,.closed)
  ending : ∀ p ∈ s.ending, s.impl.index.lookup p = none ∧ (p,.spawned) ∈ s.emitters.trace ∧
    ¬s.emitters.Noted (p,.closed) ∧ ¬s.emitters.Pending p
  nodup : s.opening.Nodup ∧ s.ending.Nodup
  drawn : ∀ p, (s.impl.index.lookup p).isSome ∨ p ∈ s.opening ∨ (∃ k, s.emitters.Noted (p,k)) →
    p ∈ s.drawn

variable {s t : Host} {pane : PaneId} {task : List Note} {impl : SupervisorImpl}

theorem inv_idle : idle.Inv where
  safe := Emitters.safe_idle
  opened p h := by cases h
  live p h := by cases h
  opening p h := by cases h
  ending p h := by cases h
  nodup := ⟨List.nodup_nil,List.nodup_nil⟩
  drawn p h := by
    rcases h with h | h | ⟨k,h | ⟨task,h,-⟩⟩
    · cases h
    · cases h
    · cases h
    · cases h

theorem Inv.noted_drawn (h : s.Inv) {p : PaneId} {k : PaneEventKind}
    (hk : s.emitters.Noted (p,k)) : p ∈ s.drawn := h.drawn p (Or.inr (Or.inr ⟨k,hk⟩))

/-- The tables change, and in the index there are at most new panes besides. -/
theorem Inv.tables (h : s.Inv) {drawn : List PaneId} (hsub : s.drawn ⊆ drawn)
    (hindex : ∀ p key, impl.index.lookup p = some key →
      (s.impl.index.lookup p).isSome ∨ p ∈ drawn ∧ p ∉ s.drawn) :
    Inv { s with impl := impl, drawn := drawn } where
  safe := h.safe
  opened := h.opened
  live p hp := by
    obtain ⟨key,hkey⟩ := Option.isSome_iff_exists.mp hp
    rcases hindex p key hkey with hold | ⟨-,hnew⟩
    · exact h.live p hold
    · exact fun hc => hnew (h.noted_drawn hc)
  opening := h.opening
  ending p hp := by
    obtain ⟨hnone,hspawned,hrest⟩ := h.ending p hp
    refine ⟨?_,hspawned,hrest⟩
    by_contra hsome
    obtain ⟨key,hkey⟩ := Option.ne_none_iff_exists'.mp hsome
    rcases hindex p key hkey with hold | ⟨-,hnew⟩
    · rw [hnone] at hold
      cases hold
    · exact hnew (h.noted_drawn (Or.inl hspawned))
  nodup := h.nodup
  drawn p hp := by
    rcases hp with hp | hp | ⟨k,hk⟩
    · obtain ⟨key,hkey⟩ := Option.isSome_iff_exists.mp hp
      rcases hindex p key hkey with hold | ⟨hdrawn,-⟩
      · exact hsub (h.drawn p (Or.inl hold))
      · exact hdrawn
    · exact hsub (h.drawn p (Or.inr (Or.inl hp)))
    · exact hsub (h.noted_drawn hk)

/-- A task starts about panes drawn before, none of which is ending. -/
theorem Inv.start (h : s.Inv) (hsafe : (s.emitters.start task).Safe)
    (hclosed : ∀ p, (p,.closed) ∈ task → s.impl.index.lookup p = none)
    (hopening : ∀ p k, (p,k) ∈ task → p ∈ s.opening → k = .layoutChanged)
    (hending : ∀ p k, (p,k) ∈ task → p ∈ s.drawn ∧ p ∉ s.ending) :
    Inv (s.run s.impl task) where
  safe := hsafe
  opened p hp := Emitters.noted_start.mpr (Or.inl (h.opened p hp))
  live p hp := by
    intro hc
    rcases Emitters.noted_start.mp hc with hc | hc
    · exact h.live p hp hc
    · have hsome : (s.impl.index.lookup p).isSome := hp
      rw [hclosed p hc] at hsome
      cases hsome
  opening p hp := by
    obtain ⟨hspawned,hopen⟩ := h.opening p hp
    refine ⟨fun hc => ?_,fun hc => ?_⟩
    · rcases Emitters.noted_start.mp hc with hc | hc
      · exact hspawned hc
      · cases hopening p _ hc hp
    · rcases Emitters.noted_start.mp hc with hc | hc
      · exact hopen hc
      · cases hopening p _ hc hp
  ending p hp := by
    obtain ⟨hnone,hspawned,hopen,hpending⟩ := h.ending p hp
    refine ⟨hnone,hspawned,fun hc => ?_,fun hc => ?_⟩
    · rcases Emitters.noted_start.mp hc with hc | hc
      · exact hopen hc
      · exact (hending p _ hc).2 hp
    · rcases Emitters.pending_start.mp hc with hc | ⟨k,hk⟩
      · exact hpending hc
      · exact (hending p k hk).2 hp
  nodup := h.nodup
  drawn p hp := by
    rcases hp with hp | hp | ⟨k,hk⟩
    · exact h.drawn p (Or.inl hp)
    · exact h.drawn p (Or.inr (Or.inl hp))
    · rcases Emitters.noted_start.mp hk with hk | hk
      · exact h.noted_drawn hk
      · exact (hending p k hk).1

/-- The windows change and the index stays. -/
theorem Inv.windows (h : s.Inv) (hindex : impl.index = s.impl.index) :
    Inv { s with impl := impl } := by
  refine h.tables (List.Subset.refl _) fun p key hkey => Or.inl ?_
  rw [← hindex,hkey]
  rfl

theorem Inv.alloc (h : s.Inv) (session : SessionKey) (hnew : pane ∉ s.drawn) :
    Inv { s with
      impl := (s.impl.allocPane session pane).1
      opening := pane :: s.opening
      drawn := pane :: s.drawn } := by
  have ht : Inv { s with
      impl := (s.impl.allocPane session pane).1
      drawn := pane :: s.drawn } := by
    refine h.tables (List.subset_cons_self _ _) fun p key hkey => ?_
    rcases PaneIndex.lookup_allocPane.mp hkey with ⟨rfl,-⟩ | ⟨-,hkey⟩
    · exact Or.inr ⟨List.mem_cons_self,hnew⟩
    · exact Or.inl (Option.isSome_of_mem hkey)
  refine ⟨ht.safe,ht.opened,ht.live,fun p hp => ?_,ht.ending,?_,fun p hp => ?_⟩
  · rcases List.mem_cons.mp hp with rfl | hp
    · exact ⟨fun hk => hnew (h.noted_drawn hk),fun hk => hnew (h.noted_drawn hk)⟩
    · exact h.opening p hp
  · exact ⟨List.nodup_cons.mpr
      ⟨fun hp => hnew (h.drawn pane (Or.inr (Or.inl hp))),h.nodup.1⟩,h.nodup.2⟩
  · rcases hp with hp | hp | hp
    · exact ht.drawn p (Or.inl hp)
    · rcases List.mem_cons.mp hp with rfl | hp
      · exact List.mem_cons_self
      · exact ht.drawn p (Or.inr (Or.inl hp))
    · exact ht.drawn p (Or.inr (Or.inr hp))

/-- The pane whose opening ends has had neither a `Spawned` nor a `Closed`. -/
theorem Inv.place (h : s.Inv) (hindex : impl.index = s.impl.index)
    (htask : ∀ e ∈ task, e = (pane,.spawned) ∨ e = (pane,.layoutChanged))
    (hspawned : (pane,.spawned) ∈ task) (ht : s.place impl pane task = some t) : t.Inv := by
  rw [Host.place,Option.ite_none_right_eq_some,Option.some.injEq] at ht
  obtain ⟨hpane,rfl⟩ := ht
  obtain ⟨hunspawned,hopen⟩ := h.opening pane hpane
  have hw := h.windows hindex
  have hmem : ∀ {p k}, (p,k) ∈ task → p = pane ∧ (k = .spawned ∨ k = .layoutChanged) := by
    intro p k hmem
    rcases htask _ hmem with heq | heq
    · exact ⟨(Prod.mk.inj heq).1,Or.inl (Prod.mk.inj heq).2⟩
    · exact ⟨(Prod.mk.inj heq).1,Or.inr (Prod.mk.inj heq).2⟩
  have hnot : ∀ {p}, (p,PaneEventKind.closed) ∉ task := by
    intro p hp
    rcases (hmem hp).2 with hk | hk <;> cases hk
  have herased : Inv { s with impl := impl, opening := s.opening.erase pane } :=
    ⟨hw.safe,hw.opened,hw.live,fun p hp => hw.opening p (List.mem_of_mem_erase hp),hw.ending,
      ⟨h.nodup.1.erase pane,h.nodup.2⟩,
      fun p hp => hw.drawn p (hp.imp_right (Or.imp_left List.mem_of_mem_erase))⟩
  have hsafe : (s.emitters.start task).Safe := by
    refine h.safe.start_open (fun p k hp => ?_) fun p k hp => ?_
    · rwa [(hmem hp).1]
    · rcases (hmem hp).2 with rfl | rfl <;> simp
  have hi := herased.start hsafe (fun p hp => absurd hp hnot) (fun p k hp hopening => ?_)
    fun p k hp => ⟨?_,fun hending => ?_⟩
  · refine ⟨hi.safe,fun p hp => ?_,hi.live,hi.opening,hi.ending,hi.nodup,hi.drawn⟩
    rcases List.mem_cons.mp hp with rfl | hp
    · exact Emitters.noted_start.mpr (Or.inr hspawned)
    · exact hi.opened p hp
  · have hne := ((h.nodup.1.mem_erase_iff).mp hopening).1
    exact absurd (hmem hp).1 hne
  · rw [(hmem hp).1]
    exact h.drawn pane (Or.inr (Or.inl hpane))
  · have htrace := (h.ending p hending).2.1
    rw [(hmem hp).1] at htrace
    exact hunspawned (Or.inl htrace)

/-- The layout changes for a pane in the index. -/
theorem Inv.layoutChanged (h : s.Inv) (hindex : impl.index = s.impl.index)
    (htask : ∀ e ∈ task, e = (pane,.layoutChanged) ∧ (s.impl.index.lookup pane).isSome) :
    Inv (s.run impl task) := by
  have hmem : ∀ {p k}, (p,k) ∈ task →
      (s.impl.index.lookup p).isSome ∧ k = .layoutChanged := by
    intro p k hmem
    obtain ⟨heq,hsome⟩ := htask _ hmem
    rw [(Prod.mk.inj heq).1]
    exact ⟨hsome,(Prod.mk.inj heq).2⟩
  refine (h.windows hindex).start ?_ ?_ ?_ ?_
  · refine h.safe.start_open (fun p k hp => h.live p (hmem hp).1) fun p k hp => ?_
    rw [(hmem hp).2]
    simp
  · intro p hp
    cases (hmem hp).2
  · intro p k hp _
    exact (hmem hp).2
  · intro p k hp
    refine ⟨h.drawn p (Or.inl (hmem hp).1),fun hending => ?_⟩
    have hsome := (hmem hp).1
    rw [(h.ending p hending).1] at hsome
    cases hsome

theorem Inv.resolve (h : s.Inv) {session : SessionKey} {slot : UInt32} {fresh : PaneId}
    (hnew : fresh ∉ s.drawn) :
    Inv { s with
      impl := (s.impl.getOrAllocPaneBySlot session slot fresh).1
      drawn := fresh :: s.drawn } := by
  refine h.tables (List.subset_cons_self _ _) fun p key hkey => ?_
  rcases PaneIndex.lookup_of_getOrAlloc hkey with rfl | hkey
  · exact Or.inr ⟨List.mem_cons_self,hnew⟩
  · exact Or.inl (Option.isSome_of_mem hkey)

/-- The slot of an opened pane is closed, and the pane starts to end. -/
theorem Inv.removePaneSlot (h : s.Inv) {session : SessionKey} {slot : UInt32}
    {found : Option PaneId} (hs : ∀ p ∈ found, s.impl.index.lookup p = some (session,slot) ∧
      p ∈ s.opened ∧ ¬s.emitters.Pending p) :
    Inv { s with
      impl := s.impl.removePaneSlot session slot
      ending := found.toList ++ s.ending } := by
  have hold : ∀ p key, (s.impl.removePaneSlot session slot).index.lookup p = some key →
      s.impl.index.lookup p = some key ∧ key ≠ (session,slot) :=
    fun p key hkey => PaneIndex.lookup_removePaneSlot.mp hkey
  have ht : Inv { s with impl := s.impl.removePaneSlot session slot } :=
    h.tables (List.Subset.refl _) fun p key hkey =>
      Or.inl (Option.isSome_of_mem (hold p key hkey).1)
  cases found with
  | none => exact ht
  | some p =>
    obtain ⟨hlookup,hopened,hpending⟩ := hs p rfl
    have hspawned : (p,.spawned) ∈ s.emitters.trace := by
      refine (h.opened p hopened).resolve_right ?_
      rintro ⟨task,htask,hmem⟩
      exact hpending ⟨task,htask,.spawned,hmem⟩
    have hopen := h.live p (Option.isSome_of_mem hlookup)
    refine ⟨ht.safe,ht.opened,ht.live,ht.opening,fun q hq => ?_,⟨h.nodup.1,?_⟩,ht.drawn⟩
    · rcases List.mem_cons.mp hq with rfl | hq
      · refine ⟨?_,hspawned,hopen,hpending⟩
        by_contra hsome
        obtain ⟨key,hkey⟩ := Option.ne_none_iff_exists'.mp hsome
        obtain ⟨hkey,hne⟩ := hold q key hkey
        exact hne (Option.some.inj (hkey.symm.trans hlookup))
      · exact ht.ending q hq
    · refine List.nodup_cons.mpr ⟨fun hq => ?_,h.nodup.2⟩
      rw [(h.ending p hq).1] at hlookup
      cases hlookup

/-- The pane that ends gets its last events. -/
theorem Inv.endPane (h : s.Inv) (hindex : impl.index = s.impl.index) (hpane : pane ∈ s.ending)
    (changed : Bool) :
    Inv { s.run impl (closedTask pane changed) with ending := s.ending.erase pane } := by
  obtain ⟨hnone,hspawned,hopen,hpending⟩ := h.ending pane hpane
  have hw := h.windows hindex
  have herased : Inv { s with impl := impl, ending := s.ending.erase pane } :=
    ⟨hw.safe,hw.opened,hw.live,hw.opening,fun p hp => hw.ending p (List.mem_of_mem_erase hp),
      ⟨h.nodup.1,h.nodup.2.erase pane⟩,hw.drawn⟩
  refine herased.start (h.safe.start_known ?_ ?_ ?_) ?_ ?_ ?_
  · intro p k hp
    rw [pane_of_closedTask hp]
    exact ⟨hspawned,hopen⟩
  · intro pre p post heq k hp
    rw [last_closedTask heq] at hp
    cases hp
  · intro p hp
    rwa [pane_of_closedTask hp]
  · intro p hp
    rw [pane_of_closedTask hp]
    exact hindex ▸ hnone
  · intro p k hp hopening
    rw [pane_of_closedTask hp] at hopening
    exact absurd (Or.inl hspawned) (h.opening pane hopening).1
  · intro p k hp
    rw [pane_of_closedTask hp]
    refine ⟨h.noted_drawn (Or.inl hspawned),fun hending => ?_⟩
    exact (h.nodup.2.mem_erase_iff.mp hending).1 rfl

theorem Inv.stateChanged (h : s.Inv) {key : SlotKey} (hlookup : s.impl.index.lookup pane = some key)
    (hopened : pane ∈ s.opened) (hout : ∀ task ∈ s.emitters.tasks, (pane,.spawned) ∉ task) :
    Inv (s.run s.impl [(pane,.stateChanged)]) := by
  have hspawned : (pane,.spawned) ∈ s.emitters.trace := by
    refine (h.opened pane hopened).resolve_right ?_
    rintro ⟨task,htask,hmem⟩
    exact hout task htask hmem
  have hmem : ∀ {p k}, (p,k) ∈ [(pane,PaneEventKind.stateChanged)] →
      p = pane ∧ k = .stateChanged := fun h => Prod.mk.inj (List.mem_singleton.mp h)
  refine h.start (h.safe.start_known ?_ ?_ ?_) ?_ ?_ ?_
  · intro p k hp
    rw [(hmem hp).1]
    exact ⟨hspawned,h.live pane (Option.isSome_of_mem hlookup)⟩
  · intro pre p post heq
    have hp : (p,PaneEventKind.closed) ∈ [(pane,PaneEventKind.stateChanged)] := by
      rw [heq]
      exact List.mem_append_right _ List.mem_cons_self
    cases (hmem hp).2
  · intro p hp
    cases (hmem hp).2
  · intro p hp
    cases (hmem hp).2
  · intro p k hp hopening
    rw [(hmem hp).1] at hopening
    exact absurd (Or.inl hspawned) (h.opening pane hopening).1
  · intro p k hp
    rw [(hmem hp).1]
    refine ⟨h.noted_drawn (Or.inl hspawned),fun hending => ?_⟩
    rw [(h.ending pane hending).1] at hlookup
    cases hlookup

theorem Inv.emit (h : s.Inv) {i : Nat} {e : Emitters} (he : s.emitters.emit i = some e) :
    Inv { s with emitters := e } where
  safe := h.safe.emit he
  opened p hp := Emitters.noted_emit he (h.opened p hp)
  live p hp hc := h.live p hp (Emitters.noted_of_emit he hc)
  opening p hp := by
    obtain ⟨hspawned,hopen⟩ := h.opening p hp
    exact ⟨fun hk => hspawned (Emitters.noted_of_emit he hk),
      fun hk => hopen (Emitters.noted_of_emit he hk)⟩
  ending p hp := by
    obtain ⟨hnone,hspawned,hopen,hpending⟩ := h.ending p hp
    refine ⟨hnone,?_,fun hc => hopen (Emitters.noted_of_emit he hc),
      fun hc => hpending (Emitters.pending_of_emit he hc)⟩
    obtain ⟨e',rest,-,rfl⟩ := Emitters.emit_eq_some he
    exact List.mem_append_left _ hspawned
  nodup := h.nodup
  drawn p hp := h.drawn p (hp.imp_right (Or.imp_right fun ⟨k,hk⟩ =>
    ⟨k,Emitters.noted_of_emit he hk⟩))

theorem step_inv (s : Host) (a : Step) (t : Host) (h : s.Inv) (hs : s.Settled a)
    (hstep : s.step a = some t) : t.Inv := by
  cases a with
  | alloc session pane =>
    rw [step,Option.ite_none_right_eq_some,Option.some.injEq] at hstep
    obtain ⟨hnew,rfl⟩ := hstep
    exact h.alloc session hnew
  | spawned session pane w =>
    have hindex : (s.impl.placeSpawned session pane w).index = s.impl.index := rfl
    exact h.place hindex (by simp) (by simp) hstep
  | placed session pane w =>
    exact h.place (SupervisorImpl.index_placeOpened _ session pane w) (by simp) (by simp) hstep
  | split session parent orient pane w =>
    exact h.place (SupervisorImpl.index_placeSplit _ session parent pane orient w)
      (by simp) (by simp) hstep
  | closePane pane w =>
    have htask : ∀ e ∈ (if (s.impl.closeLeaf pane w).2 then [(pane,PaneEventKind.layoutChanged)]
        else []), e = (pane,.layoutChanged) ∧ (s.impl.index.lookup pane).isSome := by
      intro e he
      split at he
      · rename_i hchanged
        exact ⟨List.mem_singleton.mp he,hs hchanged⟩
      · cases he
    have hindex : ((s.impl.closeLeaf pane w).1.unassign pane).index = s.impl.index :=
      SupervisorImpl.index_closeLeaf s.impl pane w
    exact Option.some.inj hstep ▸ h.layoutChanged hindex htask
  | setPaneWeight pane w weight =>
    obtain ⟨impl,himpl,rfl⟩ := Option.map_eq_some_iff.mp hstep
    exact h.layoutChanged (SupervisorImpl.index_weighLeaf himpl) fun e he =>
      ⟨List.mem_singleton.mp he,hs⟩
  | resolve session slot fresh =>
    rw [step,Option.ite_none_right_eq_some,Option.some.injEq] at hstep
    obtain ⟨hnew,rfl⟩ := hstep
    have hi : Inv { s with
        impl := (s.impl.getOrAllocPaneBySlot session slot fresh).1
        drawn := fresh :: s.drawn } := h.resolve hnew
    exact ⟨hi.safe,hi.opened,hi.live,hi.opening,hi.ending,hi.nodup,hi.drawn⟩
  | removePaneSlot session slot found =>
    rw [step,Option.ite_none_right_eq_some,Option.some.injEq] at hstep
    obtain ⟨-,rfl⟩ := hstep
    exact h.removePaneSlot hs
  | endPane pane w =>
    rw [step,Option.ite_none_right_eq_some,Option.some.injEq] at hstep
    obtain ⟨hpane,rfl⟩ := hstep
    exact h.endPane (SupervisorImpl.index_closeLeaf (s.impl.unassign pane) pane w) hpane _
  | paneStateChanged session slot pane =>
    rw [step,Option.ite_none_right_eq_some,Option.some.injEq] at hstep
    obtain ⟨-,rfl⟩ := hstep
    exact h.stateChanged hs.1 hs.2.1 hs.2.2
  | assign pane w =>
    obtain rfl := Option.some.inj hstep
    have hindex : (s.impl.assign pane w).index = s.impl.index := rfl
    exact h.windows hindex
  | unassign pane =>
    obtain rfl := Option.some.inj hstep
    have hindex : (s.impl.unassign pane).index = s.impl.index := rfl
    exact h.windows hindex
  | newWindow session name w =>
    obtain rfl := Option.some.inj hstep
    have hindex : (s.impl.newWindow session name w).index = s.impl.index := rfl
    exact h.windows hindex
  | defaultWindow session fresh =>
    obtain rfl := Option.some.inj hstep
    exact h.windows (SupervisorImpl.index_getOrCreateDefaultWindow s.impl session fresh)
  | dropWindow w =>
    obtain rfl := Option.some.inj hstep
    exact h.windows (SupervisorImpl.index_dropWindow s.impl w)
  | getWindowLayout w first fresh =>
    rw [step,Option.ite_none_right_eq_some,Option.some.injEq] at hstep
    obtain ⟨hnew,rfl⟩ := hstep
    refine h.tables (List.subset_cons_self _ _) fun p key hkey => ?_
    rcases SupervisorImpl.lookup_of_getWindowLayout hkey with rfl | hkey
    · exact Or.inr ⟨List.mem_cons_self,hnew⟩
    · exact Or.inl (Option.isSome_of_mem hkey)
  | registerWorker session slots =>
    obtain rfl := Option.some.inj hstep
    have hindex : (s.impl.registerWorker session slots).index = s.impl.index := rfl
    exact h.windows hindex
  | removeSession session =>
    obtain rfl := Option.some.inj hstep
    refine h.tables (List.Subset.refl _) fun p key hkey => Or.inl ?_
    exact Option.isSome_of_mem (PaneIndex.lookup_removeSession.mp hkey).1
  | emit i =>
    obtain ⟨e,he,rfl⟩ := Option.map_eq_some_iff.mp hstep
    exact h.emit he

theorem always_orderly {steps : List Step} (h : Along step Settled idle steps) :
    Always step (fun s => Orderly s.emitters.trace) idle steps :=
  (h.invariant step_inv inv_idle).mono fun _ hs => hs.safe.orderly

end Host

/-- In both modes the events of every pane are in order in each run in which whatever ends
a pane, or reports about it, finds it announced and not yet ended. -/
theorem pane_events_orderly (steps : List Session.Daemon.Step) (steps' : List Host.Step) :
    (Along Session.Daemon.step Session.Daemon.Settled .idle steps →
      Always Session.Daemon.step (fun s => Orderly s.emitters.trace) .idle steps) ∧
    (Along Host.step Host.Settled .idle steps' →
      Always Host.step (fun s => Orderly s.emitters.trace) .idle steps') :=
  ⟨Session.Daemon.always_orderly,Host.always_orderly⟩

/-- The shell exits after its pane has been announced, and the worker reports so. -/
theorem pane_events_orderly_exit :
    Always Session.Daemon.step (fun s => Orderly s.emitters.trace) .idle
      [.newSession ⟨1⟩ ⟨1⟩,.start ⟨1⟩,.insert ⟨1⟩ ⟨1⟩ ⟨1⟩,.emit 0,.tick [⟨1⟩],.emit 1,.exit ⟨1⟩,
        .emit 2] ∧
    Always Host.step (fun s => Orderly s.emitters.trace) .idle
      [.alloc "s" ⟨1⟩,.spawned "s" ⟨1⟩ ⟨1⟩,.emit 0,.resolve "s" 0 ⟨2⟩,
        .removePaneSlot "s" 0 (some ⟨1⟩),.removeSession "s",.endPane ⟨1⟩ (some ⟨1⟩),.emit 1,.emit 1] :=
  ⟨(pane_events_orderly _ []).1 (by decide),(pane_events_orderly [] _).2 (by decide)⟩

/-- A pane that is closed has its shell exit after that, which emits `Closed` again. Under a
supervisor the state of a pane changes that a worker started anew has recovered. -/
theorem closed_emitted_twice :
    (¬∀ steps, Always Session.Daemon.step (fun s => Orderly s.emitters.trace) .idle steps) ∧
      ¬∀ steps, Always Host.step (fun s => Orderly s.emitters.trace) .idle steps := by
  constructor
  · intro h
    have hrun : (exec Session.Daemon.step .idle [.newSession ⟨1⟩ ⟨1⟩,.start ⟨1⟩,
        .insert ⟨1⟩ ⟨1⟩ ⟨1⟩,.emit 0,.closePane ⟨1⟩,.removeClosed ⟨1⟩ true,.exit ⟨1⟩,.emit 1,.emit 1,
        .emit 2]).any (fun s => 1 < s.emitters.trace.count (⟨1⟩,.closed)) := by decide
    obtain ⟨s,hs,hcount⟩ := (Option.any_eq_true _ _).mp hrun
    exact absurd ((h _).last hs |>.once ⟨1⟩) (not_le.mpr (of_decide_eq_true hcount))
  · intro h
    have hrun : (exec Host.step .idle [.alloc "s" ⟨1⟩,.spawned "s" ⟨1⟩ ⟨1⟩,.emit 0,
        .removeSession "s",.registerWorker "s" [0],.resolve "s" 0 ⟨2⟩,
        .paneStateChanged "s" 0 ⟨2⟩,.emit 1]).any
        (fun s => s.emitters.trace = [(⟨1⟩,.spawned),(⟨2⟩,.stateChanged)]) := by decide
    obtain ⟨s,hs,htrace⟩ := (Option.any_eq_true _ _).mp hrun
    have hspawned := ((h _).last hs).announced [(⟨1⟩,.spawned)] ⟨2⟩ .stateChanged []
      (of_decide_eq_true htrace) (Or.inr rfl)
    exact absurd hspawned (by decide)

end Pyre.Supervisor
