import Pyre.Events.Lifecycle
import Pyre.Session.Opening
import Pyre.Session.Splits

/-!
The pane events of a daemon of its own: what each call and task changes in the registry
and which events it has to emit afterwards, while others run.
-/

set_option autoImplicit false

namespace Pyre.Session
open Base Events

namespace Registry

def Registered (s : Registry) (p : PaneId) : Prop := ∃ sid w, s.Has sid p w

theorem registered_iff {s : Registry} {p : PaneId} :
    s.Registered p ↔ (s.getPane p).isSome := by
  constructor
  · rintro ⟨sid,w,h⟩
    exact isSome_getPane h
  · intro h
    obtain ⟨⟨sid,se,w⟩,hget⟩ := Option.isSome_iff_exists.mp h
    exact ⟨sid,w,se,getPane_eq_some hget⟩

instance (s : Registry) (p : PaneId) : Decidable (s.Registered p) :=
  decidable_of_iff (s.getPane p).isSome registered_iff.symm

/-- The last part of `close_window`: the window goes, and the session with its last. -/
def dropWindow (s : Registry) (sid : SessionId) (w : WindowId) : Registry :=
  match s.sessions.lookup sid with
  | none => s
  | some se =>
    let se := se.removeWindow w
    if se.windows = [] then s.dropSession sid else s.update sid se

theorem fewer_dropWindow (s : Registry) (sid : SessionId) (w : WindowId) :
    s.Fewer (s.dropWindow sid w) := by
  unfold dropWindow
  split
  · exact Fewer.refl s
  · rename_i se hse
    simp only
    split
    · exact fewer_dropSession s sid
    · exact fewer_update hse fun _ _ h => h

theorem Fewer.registered {s t : Registry} {p : PaneId} (h : s.Fewer t) (hp : t.Registered p) :
    s.Registered p := by
  obtain ⟨sid,w,hp⟩ := hp
  exact ⟨sid,w,h.has sid p w hp⟩

theorem fewer_placeSplit (s : Registry) (sid : SessionId) (w : WindowId) (parent pane : PaneId)
    (orient : Orient) : s.Fewer (s.placeSplit sid w parent pane orient) := by
  unfold placeSplit
  split
  · exact Fewer.refl s
  · rename_i se hse
    exact fewer_update hse fun _ _ h => h

def panesOf (s : Registry) (sid : SessionId) : List PaneId :=
  match s.sessions.lookup sid with
  | none => []
  | some se => se.panes.keys

theorem mem_panesOf {s : Registry} {sid : SessionId} {p : PaneId} :
    p ∈ s.panesOf sid ↔ ∃ w, s.Has sid p w := by
  unfold panesOf
  cases hse : s.sessions.lookup sid with
  | none => simp [Has,hse]
  | some se =>
    simp only [Has,hse,Option.some.injEq,exists_eq_left']
    rw [← AList.mem_keys,← AList.lookup_isSome,Option.isSome_iff_exists]

theorem nodup_panesOf (s : Registry) (sid : SessionId) : (s.panesOf sid).Nodup := by
  unfold panesOf
  split
  · exact List.nodup_nil
  · exact AList.keys_nodup _

end Registry

/-- The daemon with what runs in it: `children` are the shells that have not been reaped,
`starting` the panes that are still to be inserted, and `closing` the calls of
`close_pane` that have found theirs. -/
structure Daemon where
  registry : Registry
  emitters : Emitters
  children : List PaneId
  starting : List PaneId
  closing : List PaneId

namespace Daemon

def idle : Daemon := ⟨.empty,.idle,[],[],[]⟩

/-- A pane is closed in two steps, after it was found and once it is removed; `changed`
tells whether its window had a tree. `close_window` closes its panes so one by one and then
drops the window. The panes of a `tick` are those whose state has changed. -/
inductive Step where
  | newSession (sid : SessionId) (w : WindowId)
  | newWindow (sid : SessionId) (w : WindowId)
  | start (pane : PaneId)
  | insert (sid : SessionId) (w : WindowId) (pane : PaneId)
  | insertSplit (sid : SessionId) (w : WindowId) (parent : PaneId) (orient : Orient)
      (pane : PaneId)
  | closePane (pane : PaneId)
  | removeClosed (pane : PaneId) (changed : Bool)
  | dropWindow (sid : SessionId) (w : WindowId)
  | killSession (sid : SessionId)
  | exit (pane : PaneId)
  | tick (panes : List PaneId)
  | setPaneWeight (pane : PaneId)
  | emit (i : Nat)
  deriving DecidableEq, Repr

/-- The registry changes, and a task starts that emits the events. -/
def run (s : Daemon) (registry : Registry) (task : List Note) : Daemon :=
  { s with registry := registry, emitters := s.emitters.start task }

def step (s : Daemon) : Step → Option Daemon
  | .newSession sid w => (s.registry.step (.newSession sid w)).map fun r => { s with registry := r }
  | .newWindow sid w => (s.registry.step (.newWindow sid w)).map fun r => { s with registry := r }
  | .start pane =>
    if pane ∉ s.registry.drawnPanes then
      some { s with
        registry := s.registry.draw pane
        children := pane :: s.children
        starting := pane :: s.starting }
    else none
  | .insert sid w pane =>
    if pane ∈ s.starting then
      some { s.run ((s.registry.insertPane sid w pane).initLayout sid w pane) [(pane,.spawned)] with
        starting := s.starting.erase pane }
    else none
  | .insertSplit sid w parent orient pane =>
    if pane ∈ s.starting then
      some { s.run (((s.registry.insertPane sid w pane).initLayout sid w pane).placeSplit sid w
          parent pane orient) [(pane,.spawned),(pane,.layoutChanged)] with
        starting := s.starting.erase pane }
    else none
  | .closePane pane =>
    if (s.registry.getPane pane).isSome then some { s with closing := pane :: s.closing } else none
  | .removeClosed pane changed =>
    if pane ∈ s.closing then
      some { s.run (s.registry.closePane pane) (closedTask pane changed) with
        closing := s.closing.erase pane }
    else none
  | .dropWindow sid w => some { s with registry := s.registry.dropWindow sid w }
  | .killSession sid =>
    (s.registry.sessions.lookup sid).map fun _ =>
      s.run (s.registry.dropSession sid) ((s.registry.panesOf sid).map (·,.closed))
  | .exit pane =>
    if pane ∈ s.children then
      some { s.run (s.registry.removePane pane) [(pane,.closed)] with
        children := s.children.erase pane }
    else none
  | .tick panes =>
    if ∀ p ∈ panes, (s.registry.getPane p).isSome then
      some (s.run s.registry (panes.map (·,.stateChanged)))
    else none
  | .setPaneWeight pane =>
    if (s.registry.getPane pane).isSome then some (s.run s.registry [(pane,.layoutChanged)])
    else none
  | .emit i => (s.emitters.emit i).map fun e => { s with emitters := e }

/-- A pane that is ended is still registered, and nobody has an event of it yet to emit;
a tick only finds panes whose `Spawned` is out. -/
def Settled (s : Daemon) : Step → Prop
  | .removeClosed pane _ | .exit pane =>
    s.registry.Registered pane ∧ ¬s.emitters.Pending pane
  | .killSession sid => ∀ p ∈ s.registry.panesOf sid, ¬s.emitters.Pending p
  | .tick panes => ∀ p ∈ panes, ∀ task ∈ s.emitters.tasks, (p,.spawned) ∉ task
  | .newSession _ _ | .newWindow _ _ | .start _ | .insert _ _ _ | .insertSplit _ _ _ _ _
  | .closePane _ | .dropWindow _ _ | .setPaneWeight _ | .emit _ => True

instance (s : Daemon) : DecidablePred s.Settled
  | .removeClosed _ _ | .exit _ => inferInstanceAs (Decidable (_ ∧ _))
  | .killSession _ | .tick _ => inferInstanceAs (Decidable (∀ _ ∈ _, _))
  | .newSession _ _ | .newWindow _ _ | .start _ | .insert _ _ _ | .insertSplit _ _ _ _ _
  | .closePane _ | .dropWindow _ _ | .setPaneWeight _ | .emit _ => isTrue trivial

structure Inv (s : Daemon) : Prop where
  safe : s.emitters.Safe
  live : ∀ p, s.registry.Registered p →
    s.emitters.Noted (p,.spawned) ∧ ¬s.emitters.Noted (p,.closed)
  starting : ∀ p ∈ s.starting, ¬s.registry.Registered p ∧ ∀ k, ¬s.emitters.Noted (p,k)
  nodup : s.starting.Nodup
  drawn : ∀ p, s.registry.Registered p ∨ p ∈ s.starting ∨ (∃ k, s.emitters.Noted (p,k)) →
    p ∈ s.registry.drawnPanes
  home : ∀ sid sid' p w w', s.registry.Has sid p w → s.registry.Has sid' p w' → sid = sid'

variable {s t : Daemon} {pane : PaneId} {task : List Note} {r : Registry}

theorem inv_idle : idle.Inv where
  safe := Emitters.safe_idle
  live p h := by
    obtain ⟨sid,w,se,hse,-⟩ := h
    cases hse
  starting p h := by cases h
  nodup := List.nodup_nil
  drawn p h := by
    rcases h with ⟨sid,w,se,hse,-⟩ | h | ⟨k,h | ⟨task,h,-⟩⟩
    · cases hse
    · cases h
    · cases h
    · cases h
  home sid sid' p w w' h := by
    obtain ⟨se,hse,-⟩ := h
    cases hse

/-- A registered pane with nothing left to emit is announced and not closed. -/
theorem Inv.announced (h : s.Inv) (hp : s.registry.Registered pane)
    (hspawned : ∀ task ∈ s.emitters.tasks, (pane,.spawned) ∉ task) :
    (pane,.spawned) ∈ s.emitters.trace ∧ ¬s.emitters.Noted (pane,.closed) := by
  obtain ⟨hnoted,hopen⟩ := h.live pane hp
  refine ⟨hnoted.resolve_right ?_,hopen⟩
  rintro ⟨task,htask,hmem⟩
  exact hspawned task htask hmem

theorem Inv.settled (h : s.Inv) (hp : s.registry.Registered pane)
    (hpending : ¬s.emitters.Pending pane) :
    (pane,.spawned) ∈ s.emitters.trace ∧ ¬s.emitters.Noted (pane,.closed) :=
  h.announced hp fun task htask hmem => hpending ⟨task,htask,.spawned,hmem⟩

/-- Registered panes get events, and those that are closed are no longer registered. -/
theorem Inv.run (h : s.Inv) (hr : s.registry.Fewer r) (hsafe : (s.emitters.start task).Safe)
    (hpanes : ∀ p k, (p,k) ∈ task → s.registry.Registered p)
    (hgone : ∀ p, (p,.closed) ∈ task → ¬r.Registered p) : (s.run r task).Inv where
  safe := hsafe
  live p hp := by
    obtain ⟨hnoted,hopen⟩ := h.live p (hr.registered hp)
    refine ⟨Emitters.noted_start.mpr (Or.inl hnoted),fun hclosed => ?_⟩
    rcases Emitters.noted_start.mp hclosed with hclosed | hclosed
    · exact hopen hclosed
    · exact hgone p hclosed hp
  starting p hp := by
    obtain ⟨hnew,hnone⟩ := h.starting p hp
    refine ⟨fun hreg => hnew (hr.registered hreg),fun k hnoted => ?_⟩
    rcases Emitters.noted_start.mp hnoted with hnoted | hmem
    · exact hnone k hnoted
    · exact hnew (hpanes p k hmem)
  nodup := h.nodup
  drawn p hp := by
    have hdrawn : p ∈ s.registry.drawnPanes := by
      refine h.drawn p ?_
      rcases hp with hp | hp | ⟨k,hp⟩
      · exact Or.inl (hr.registered hp)
      · exact Or.inr (Or.inl hp)
      · rcases Emitters.noted_start.mp hp with hp | hp
        · exact Or.inr (Or.inr ⟨k,hp⟩)
        · exact Or.inl (hpanes p k hp)
    have hsame : (s.run r task).registry.drawnPanes = s.registry.drawnPanes := hr.drawn
    rwa [hsame]
  home sid sid' p w w' hp hp' := h.home sid sid' p w w' (hr.has sid p w hp) (hr.has sid' p w' hp')

/-- The registry alone changes, and only loses panes. -/
theorem Inv.fewer (h : s.Inv) (hr : s.registry.Fewer r) : Inv { s with registry := r } where
  safe := h.safe
  live p hp := h.live p (hr.registered hp)
  starting p hp := ⟨fun hreg => (h.starting p hp).1 (hr.registered hreg),(h.starting p hp).2⟩
  nodup := h.nodup
  drawn p hp := by
    have hsame : r.drawnPanes = s.registry.drawnPanes := hr.drawn
    rw [hsame]
    exact h.drawn p (hp.imp_left hr.registered)
  home sid sid' p w w' hp hp' := h.home sid sid' p w w' (hr.has sid p w hp) (hr.has sid' p w' hp')

/-- The pane is inserted and its opening has events to emit. -/
theorem Inv.insert {sid : SessionId} {w : WindowId} (h : s.Inv) (hpane : pane ∈ s.starting)
    (hr : (s.registry.insertPane sid w pane).Fewer r)
    (htask : ∀ e ∈ task, e = (pane,.spawned) ∨ e = (pane,.layoutChanged))
    (hspawned : (pane,.spawned) ∈ task) :
    Inv { s.run r task with starting := s.starting.erase pane } := by
  obtain ⟨hnew,hnone⟩ := h.starting pane hpane
  have hreg : ∀ {p}, r.Registered p → s.registry.Registered p ∨ p = pane := by
    rintro p ⟨sid',w',hp⟩
    rcases Registry.has_insertPane (hr.has sid' p w' hp) with hp | ⟨-,rfl⟩
    · exact Or.inl ⟨sid',w',hp⟩
    · exact Or.inr rfl
  have hopen : ¬(pane,PaneEventKind.closed) ∈ task := by
    intro hmem
    rcases htask _ hmem with heq | heq <;> cases heq
  have hmem : ∀ {p k}, (p,k) ∈ task → p = pane := by
    intro p k hmem
    rcases htask _ hmem with heq | heq <;> exact (Prod.mk.inj heq).1
  refine ⟨h.safe.start_open ?_ ?_,fun p hp => ?_,fun p hp => ?_,h.nodup.erase pane,fun p hp => ?_,?_⟩
  · rintro p k hk
    rw [hmem hk]
    exact hnone .closed
  · intro p k hk
    rcases htask _ hk with heq | heq <;> (obtain ⟨-,rfl⟩ := Prod.mk.inj heq; simp)
  · refine ⟨Emitters.noted_start.mpr ?_,fun hclosed => ?_⟩
    · rcases hreg hp with hp | rfl
      · exact Or.inl (h.live p hp).1
      · exact Or.inr hspawned
    · rcases hreg hp with hp | rfl
      · rcases Emitters.noted_start.mp hclosed with hclosed | hclosed
        · exact (h.live p hp).2 hclosed
        · exact hopen (hmem hclosed ▸ hclosed)
      · rcases Emitters.noted_start.mp hclosed with hclosed | hclosed
        · exact hnone .closed hclosed
        · exact hopen hclosed
  · rw [h.nodup.mem_erase_iff] at hp
    obtain ⟨hne,hp⟩ := hp
    obtain ⟨hnew',hnone'⟩ := h.starting p hp
    refine ⟨fun hp => (hreg hp).elim hnew' hne,fun k hnoted => ?_⟩
    rcases Emitters.noted_start.mp hnoted with hnoted | hnoted
    · exact hnone' k hnoted
    · exact hne (hmem hnoted)
  · have hsame : r.drawnPanes = s.registry.drawnPanes :=
      hr.drawn.trans (Registry.drawn_insertPane s.registry sid w pane)
    have hdrawn := h.drawn pane (Or.inr (Or.inl hpane))
    change p ∈ r.drawnPanes
    rw [hsame]
    rcases hp with hp | hp | ⟨k,hp⟩
    · rcases hreg hp with hp | rfl
      · exact h.drawn p (Or.inl hp)
      · exact hdrawn
    · exact h.drawn p (Or.inr (Or.inl (List.mem_of_mem_erase hp)))
    · rcases Emitters.noted_start.mp hp with hp | hp
      · exact h.drawn p (Or.inr (Or.inr ⟨k,hp⟩))
      · exact hmem hp ▸ hdrawn
  · intro sid₁ sid₂ p w₁ w₂ hp₁ hp₂
    rcases Registry.has_insertPane (hr.has sid₁ p w₁ hp₁) with hold₁ | ⟨rfl,rfl⟩
    · rcases Registry.has_insertPane (hr.has sid₂ p w₂ hp₂) with hold₂ | ⟨-,rfl⟩
      · exact h.home sid₁ sid₂ p w₁ w₂ hold₁ hold₂
      · exact absurd ⟨sid₁,w₁,hold₁⟩ hnew
    · rcases Registry.has_insertPane (hr.has sid₂ p w₂ hp₂) with hold₂ | ⟨rfl,-⟩
      · exact absurd ⟨sid₂,w₂,hold₂⟩ hnew
      · rfl

/-- A pane is ended by a path that finds it registered, with nothing about it pending. -/
theorem Inv.close (h : s.Inv) (hp : s.registry.Registered pane)
    (hpending : ¬s.emitters.Pending pane) (hr : s.registry.Fewer r) (hgone : ¬r.Registered pane)
    (changed : Bool) : (s.run r (closedTask pane changed)).Inv := by
  have hsettled := h.settled hp hpending
  refine h.run hr (h.safe.start_known ?_ ?_ ?_) ?_ ?_
  · intro p k hmem
    rwa [pane_of_closedTask hmem]
  · intro pre p post heq k hmem
    rw [last_closedTask heq] at hmem
    cases hmem
  · intro p hmem
    rwa [pane_of_closedTask hmem]
  · intro p k hmem
    rwa [pane_of_closedTask hmem]
  · intro p hmem
    rwa [pane_of_closedTask hmem]

theorem mem_map_kind {panes : List PaneId} {p : PaneId} {k k' : PaneEventKind}
    (h : (p,k) ∈ panes.map (·,k')) : p ∈ panes ∧ k = k' := by
  obtain ⟨q,hq,heq⟩ := List.mem_map.mp h
  obtain ⟨rfl,rfl⟩ := Prod.mk.inj heq
  exact ⟨hq,rfl⟩

/-- Each pane of the session is closed once. -/
theorem last_map_closed {panes : List PaneId} (hnodup : panes.Nodup) {pre post : List Note}
    {p : PaneId} (h : panes.map (·,PaneEventKind.closed) = pre ++ (p,.closed) :: post)
    (k : PaneEventKind) : (p,k) ∉ post := by
  intro hmem
  have hin : (p,k) ∈ panes.map (·,PaneEventKind.closed) := by
    rw [h]
    exact List.mem_append_right _ (List.mem_cons_of_mem _ hmem)
  have hk := (mem_map_kind hin).2
  have hpairs : (panes.map (·,PaneEventKind.closed)).Nodup :=
    hnodup.map fun _ _ heq => (Prod.mk.inj heq).1
  rw [h] at hpairs
  have hcons := (List.nodup_append.mp hpairs).2.1
  exact (List.nodup_cons.mp hcons).1 (hk ▸ hmem)

theorem Inv.killSession (h : s.Inv) {sid : SessionId}
    (hpending : ∀ p ∈ s.registry.panesOf sid, ¬s.emitters.Pending p) :
    (s.run (s.registry.dropSession sid) ((s.registry.panesOf sid).map (·,.closed))).Inv := by
  have hreg : ∀ p ∈ s.registry.panesOf sid, s.registry.Registered p :=
    fun p hp => ⟨sid,Registry.mem_panesOf.mp hp⟩
  refine h.run (Registry.fewer_dropSession s.registry sid) (h.safe.start_known ?_ ?_ ?_) ?_ ?_
  · intro p k hmem
    have hp := (mem_map_kind hmem).1
    exact h.settled (hreg p hp) (hpending p hp)
  · intro pre p post heq k
    exact last_map_closed (Registry.nodup_panesOf s.registry sid) heq k
  · intro p hmem
    exact hpending p (mem_map_kind hmem).1
  · intro p k hmem
    exact hreg p (mem_map_kind hmem).1
  · rintro p hmem ⟨sid',w',se,hse,hp⟩
    obtain ⟨hne,hold⟩ := Registry.lookup_dropSession.mp hse
    obtain ⟨w,hhas⟩ := Registry.mem_panesOf.mp (mem_map_kind hmem).1
    exact hne (h.home sid' sid p w' w ⟨se,hold,hp⟩ hhas)

theorem Inv.tick (h : s.Inv) {panes : List PaneId}
    (hpanes : ∀ p ∈ panes, s.registry.Registered p)
    (hspawned : ∀ p ∈ panes, ∀ task ∈ s.emitters.tasks, (p,.spawned) ∉ task) :
    (s.run s.registry (panes.map (·,.stateChanged))).Inv := by
  refine h.run (Registry.Fewer.refl s.registry) (h.safe.start_known ?_ ?_ ?_) ?_ ?_
  · intro p k hmem
    have hp := (mem_map_kind hmem).1
    exact h.announced (hpanes p hp) (hspawned p hp)
  · intro pre p post heq
    have hmem : (p,PaneEventKind.closed) ∈ panes.map (·,PaneEventKind.stateChanged) := by
      rw [heq]
      simp
    cases (mem_map_kind hmem).2
  · intro p hmem
    cases (mem_map_kind hmem).2
  · intro p k hmem
    exact hpanes p (mem_map_kind hmem).1
  · intro p hmem
    cases (mem_map_kind hmem).2

theorem Inv.setPaneWeight (h : s.Inv) (hp : s.registry.Registered pane) :
    (s.run s.registry [(pane,.layoutChanged)]).Inv := by
  have hmem : ∀ {p k}, (p,k) ∈ [(pane,PaneEventKind.layoutChanged)] →
      p = pane ∧ k = .layoutChanged := fun h => Prod.mk.inj (List.mem_singleton.mp h)
  refine h.run (Registry.Fewer.refl s.registry) (h.safe.start_open ?_ ?_) ?_ ?_
  · intro p k hk
    exact (hmem hk).1 ▸ (h.live pane hp).2
  · intro p k hk
    rw [(hmem hk).2]
    simp
  · intro p k hk
    exact (hmem hk).1 ▸ hp
  · intro p hk
    cases (hmem hk).2

theorem Inv.emit (h : s.Inv) {i : Nat} {e : Emitters} (he : s.emitters.emit i = some e) :
    Inv { s with emitters := e } where
  safe := h.safe.emit he
  live p hp := by
    obtain ⟨hnoted,hopen⟩ := h.live p hp
    exact ⟨Emitters.noted_emit he hnoted,fun hc => hopen (Emitters.noted_of_emit he hc)⟩
  starting p hp := by
    obtain ⟨hnew,hnone⟩ := h.starting p hp
    exact ⟨hnew,fun k hk => hnone k (Emitters.noted_of_emit he hk)⟩
  nodup := h.nodup
  drawn p hp := h.drawn p (hp.imp_right (Or.imp_right fun ⟨k,hk⟩ =>
    ⟨k,Emitters.noted_of_emit he hk⟩))
  home := h.home

theorem Inv.start (h : s.Inv) (hnew : pane ∉ s.registry.drawnPanes) :
    Inv { s with
      registry := s.registry.draw pane
      children := pane :: s.children
      starting := pane :: s.starting } where
  safe := h.safe
  live := h.live
  starting p hp := by
    rcases List.mem_cons.mp hp with rfl | hp
    · exact ⟨fun hreg => hnew (h.drawn p (Or.inl hreg)),
        fun k hk => hnew (h.drawn p (Or.inr (Or.inr ⟨k,hk⟩)))⟩
    · exact h.starting p hp
  nodup := List.nodup_cons.mpr ⟨fun hp => hnew (h.drawn pane (Or.inr (Or.inl hp))),h.nodup⟩
  drawn p hp := by
    rcases hp with hp | hp | hp
    · exact List.mem_cons_of_mem pane (h.drawn p (Or.inl hp))
    · rcases List.mem_cons.mp hp with rfl | hp
      · exact List.mem_cons_self
      · exact List.mem_cons_of_mem pane (h.drawn p (Or.inr (Or.inl hp)))
    · exact List.mem_cons_of_mem pane (h.drawn p (Or.inr (Or.inr hp)))
  home := h.home

theorem Inv.only (h : s.Inv) (hp : s.registry.Registered pane) :
    ∃ sid, ∀ sid' w, s.registry.Has sid' pane w → sid' = sid := by
  obtain ⟨sid,w,hp⟩ := hp
  exact ⟨sid,fun sid' w' hp' => h.home sid' sid pane w' w hp' hp⟩

theorem step_inv (s : Daemon) (a : Step) (t : Daemon) (h : s.Inv) (hs : s.Settled a)
    (hstep : s.step a = some t) : t.Inv := by
  cases a with
  | newSession sid w =>
    obtain ⟨r,hr,rfl⟩ := Option.map_eq_some_iff.mp hstep
    refine h.fewer ((Registry.draws_step hr).fewer ?_)
    simp only [Registry.step,Option.ite_none_right_eq_some,Option.some.injEq] at hr
    obtain ⟨-,rfl⟩ := hr
    rfl
  | newWindow sid w =>
    obtain ⟨r,hr,rfl⟩ := Option.map_eq_some_iff.mp hstep
    refine h.fewer ((Registry.draws_step hr).fewer ?_)
    obtain ⟨se,-,hr⟩ := Option.bind_eq_some_iff.mp hr
    rw [Option.ite_none_right_eq_some,Option.some.injEq] at hr
    obtain ⟨-,rfl⟩ := hr
    rfl
  | start pane =>
    rw [step,Option.ite_none_right_eq_some,Option.some.injEq] at hstep
    obtain ⟨hnew,rfl⟩ := hstep
    exact h.start hnew
  | insert sid w pane =>
    rw [step,Option.ite_none_right_eq_some,Option.some.injEq] at hstep
    obtain ⟨hpane,rfl⟩ := hstep
    exact h.insert hpane (Registry.fewer_initLayout _ sid w pane) (by simp) (by simp)
  | insertSplit sid w parent orient pane =>
    rw [step,Option.ite_none_right_eq_some,Option.some.injEq] at hstep
    obtain ⟨hpane,rfl⟩ := hstep
    have hfewer := (Registry.fewer_initLayout (s.registry.insertPane sid w pane) sid w pane).trans
      (Registry.fewer_placeSplit _ sid w parent pane orient)
    exact h.insert hpane hfewer (by simp) (by simp)
  | closePane pane =>
    rw [step,Option.ite_none_right_eq_some,Option.some.injEq] at hstep
    obtain ⟨-,rfl⟩ := hstep
    exact ⟨h.safe,h.live,h.starting,h.nodup,h.drawn,h.home⟩
  | removeClosed pane changed =>
    rw [step,Option.ite_none_right_eq_some,Option.some.injEq] at hstep
    obtain ⟨-,rfl⟩ := hstep
    obtain ⟨hp,hpending⟩ := hs
    obtain ⟨sid,honly⟩ := h.only hp
    have hgone : ¬(s.registry.closePane pane).Registered pane := by
      rintro ⟨sid',w,hhas⟩
      exact Registry.gone_closePane honly sid' w hhas
    have hi := h.close hp hpending (Registry.fewer_closePane s.registry pane) hgone changed
    exact ⟨hi.safe,hi.live,hi.starting,hi.nodup,hi.drawn,hi.home⟩
  | dropWindow sid w =>
    obtain rfl := Option.some.inj hstep
    exact h.fewer (Registry.fewer_dropWindow s.registry sid w)
  | killSession sid =>
    obtain ⟨se,-,rfl⟩ := Option.map_eq_some_iff.mp hstep
    exact h.killSession hs
  | exit pane =>
    rw [step,Option.ite_none_right_eq_some,Option.some.injEq] at hstep
    obtain ⟨-,rfl⟩ := hstep
    obtain ⟨hp,hpending⟩ := hs
    obtain ⟨sid,honly⟩ := h.only hp
    have hgone : ¬(s.registry.removePane pane).Registered pane := by
      rintro ⟨sid',w,hhas⟩
      exact Registry.gone_removePane honly sid' w hhas
    have hi := h.close hp hpending (Registry.fewer_removePane s.registry pane) hgone false
    exact ⟨hi.safe,hi.live,hi.starting,hi.nodup,hi.drawn,hi.home⟩
  | tick panes =>
    rw [step,Option.ite_none_right_eq_some,Option.some.injEq] at hstep
    obtain ⟨hpanes,rfl⟩ := hstep
    exact h.tick (fun p hp => Registry.registered_iff.mpr (hpanes p hp)) hs
  | setPaneWeight pane =>
    rw [step,Option.ite_none_right_eq_some,Option.some.injEq] at hstep
    obtain ⟨hp,rfl⟩ := hstep
    exact h.setPaneWeight (Registry.registered_iff.mpr hp)
  | emit i =>
    obtain ⟨e,he,rfl⟩ := Option.map_eq_some_iff.mp hstep
    exact h.emit he

theorem always_orderly {steps : List Step} (h : Along step Settled idle steps) :
    Always step (fun s => Orderly s.emitters.trace) idle steps :=
  (h.invariant step_inv inv_idle).mono fun _ hs => hs.safe.orderly

end Daemon

end Pyre.Session
