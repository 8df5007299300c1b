import Pyre.Session.Layouts

/-!
One `open_pane` of a daemon of its own, step by step, with the task that waits for the
child and removes the pane. All other requests run in between as they like.
-/

set_option autoImplicit false

namespace Pyre.Session
open Base

namespace Registry

/-- Into the session's panes; a session no longer registered is out of reach. -/
def insertPane (s : Registry) (sid : SessionId) (w : WindowId) (pane : PaneId) : Registry :=
  match s.sessions.lookup sid with
  | none => s
  | some se => s.update sid { se with panes := se.panes.insert pane w }

def initLayout (s : Registry) (sid : SessionId) (w : WindowId) (pane : PaneId) : Registry :=
  match s.sessions.lookup sid with
  | none => s
  | some se => s.update sid (se.modifyLayout w fun layout => some (layout.getD (.leaf pane)))

def draw (s : Registry) (pane : PaneId) : Registry :=
  { s with drawnPanes := pane :: s.drawnPanes }

/-- The steps in a row are the operation. -/
theorem openPane_eq {s : Registry} {sid : SessionId} {se : SessionState}
    (hse : s.sessions.lookup sid = some se) (w : WindowId) (pane : PaneId) :
    s.openPane sid se w pane = ((s.draw pane).insertPane sid w pane).initLayout sid w pane := by
  have hdrawn : (s.draw pane).sessions.lookup sid = some se := hse
  have hinserted : ((s.draw pane).insertPane sid w pane).sessions.lookup sid =
      some { se with panes := se.panes.insert pane w } := by
    rw [insertPane,hdrawn]
    exact AList.lookup_insert _
  rw [initLayout,hinserted,insertPane,hdrawn]
  simp [openPane,update,draw,SessionState.openPane]

/-! Which panes an operation may add. -/

/-- Every pane was there before, and none has been drawn. -/
structure Fewer (s t : Registry) : Prop where
  drawn : t.drawnPanes = s.drawnPanes
  has : ∀ sid q w, t.Has sid q w → s.Has sid q w

/-- Only panes that have been drawn are new. -/
structure Draws (s t : Registry) : Prop where
  drawn : s.drawnPanes ⊆ t.drawnPanes
  has : ∀ sid q w, t.Has sid q w → s.Has sid q w ∨ q ∉ s.drawnPanes ∧ q ∈ t.drawnPanes

variable {s t u : Registry} {sid : SessionId} {se se' : SessionState} {w w' : WindowId}
  {pane : PaneId}

theorem Fewer.refl (s : Registry) : s.Fewer s := ⟨rfl,fun _ _ _ h => h⟩

theorem Fewer.trans (h : s.Fewer t) (h' : t.Fewer u) : s.Fewer u :=
  ⟨h'.drawn.trans h.drawn,fun sid q w hq => h.has sid q w (h'.has sid q w hq)⟩

theorem Fewer.draws (h : s.Fewer t) : s.Draws t :=
  ⟨h.drawn ▸ List.Subset.refl _,fun sid q w hq => Or.inl (h.has sid q w hq)⟩

theorem Draws.fewer (h : s.Draws t) (hdrawn : t.drawnPanes = s.drawnPanes) : s.Fewer t := by
  refine ⟨hdrawn,fun sid q w hq => (h.has sid q w hq).resolve_right ?_⟩
  rintro ⟨hnew,hin⟩
  exact hnew (hdrawn ▸ hin)

theorem fewer_update (hse : s.sessions.lookup sid = some se)
    (hpanes : ∀ q w, se'.panes.lookup q = some w → se.panes.lookup q = some w) :
    s.Fewer (s.update sid se') := by
  refine ⟨rfl,?_⟩
  rintro sid' q w ⟨se₁,h,hq⟩
  rcases lookup_update.mp h with ⟨rfl,rfl⟩ | ⟨-,h⟩
  · exact ⟨se,hse,hpanes q w hq⟩
  · exact ⟨se₁,h,hq⟩

theorem fewer_dropSession (s : Registry) (sid : SessionId) : s.Fewer (s.dropSession sid) :=
  ⟨rfl,fun _ _ _ ⟨se,h,hq⟩ => ⟨se,(lookup_dropSession.mp h).2,hq⟩⟩

theorem fewer_settle (hse : s.sessions.lookup sid = some se)
    (hpanes : ∀ q w, se'.panes.lookup q = some w → se.panes.lookup q = some w) :
    s.Fewer (s.settle sid se') := by
  unfold settle
  split
  · exact fewer_dropSession s sid
  · exact fewer_update hse hpanes

theorem fewer_closePane (s : Registry) (pane : PaneId) : s.Fewer (s.closePane pane) := by
  unfold closePane
  split
  · exact Fewer.refl s
  · rename_i hget
    exact fewer_settle (getPane_eq_some hget).1 fun q w hq =>
      (SessionState.lookup_closePane.mp hq).2

theorem fewer_removePane (s : Registry) (pane : PaneId) : s.Fewer (s.removePane pane) := by
  unfold removePane
  split
  · exact Fewer.refl s
  · rename_i hget
    exact fewer_settle (getPane_eq_some hget).1 fun q w hq =>
      (SessionState.lookup_removePane.mp hq).2

theorem fewer_closePanes (panes : List PaneId) (s : Registry) :
    s.Fewer (panes.foldl closePane s) := by
  induction panes generalizing s with
  | nil => exact Fewer.refl s
  | cons p panes ih => exact (fewer_closePane s p).trans (ih _)

theorem fewer_closeWindow (s : Registry) (w : WindowId) (unkilled : List PaneId) :
    s.Fewer (s.closeWindow w unkilled) := by
  unfold closeWindow
  split
  · exact Fewer.refl s
  · rename_i sid se _
    simp only
    set s' := ((se.panesIn w).filter fun pane => pane ∉ unkilled).foldl closePane s with hs'
    have hclosed : s.Fewer s' := fewer_closePanes _ s
    split
    · exact hclosed
    · rename_i se' hse'
      split
      · exact hclosed.trans (fewer_dropSession s' sid)
      · exact hclosed.trans (fewer_update hse' fun _ _ hq => hq)

theorem fewer_initLayout (s : Registry) (sid : SessionId) (w : WindowId) (pane : PaneId) :
    s.Fewer (s.initLayout sid w pane) := by
  unfold initLayout
  split
  · exact Fewer.refl s
  · rename_i se hse
    exact fewer_update hse fun _ _ hq => hq

theorem drawn_insertPane (s : Registry) (sid : SessionId) (w : WindowId) (pane : PaneId) :
    (s.insertPane sid w pane).drawnPanes = s.drawnPanes := by
  unfold insertPane
  split <;> rfl

theorem has_insertPane {sid' : SessionId} {q : PaneId} {w' : WindowId}
    (h : (s.insertPane sid w pane).Has sid' q w') :
    s.Has sid' q w' ∨ sid' = sid ∧ q = pane := by
  unfold insertPane at h
  split at h
  · exact Or.inl h
  · rename_i se hse
    obtain ⟨se₁,hse₁,hq⟩ := h
    rcases lookup_update.mp hse₁ with ⟨rfl,rfl⟩ | ⟨-,hse₁⟩
    · rcases Table.lookup_insert_eq_some.mp hq with ⟨rfl,-⟩ | ⟨-,hq⟩
      · exact Or.inr ⟨rfl,rfl⟩
      · exact Or.inl ⟨se,hse,hq⟩
    · exact Or.inl ⟨se₁,hse₁,hq⟩

/-- The pane an operation opens, with its session. -/
def opened (s : Registry) : Action → Option (PaneId × SessionId)
  | .openPane sid _ pane => some (pane,sid)
  | .openPaneSplit parent _ pane => (s.getPane parent).map fun x => (pane,x.1)
  | _ => none

/-- A session is filed anew, with one pane more. -/
theorem has_update {q : PaneId} {drawn : List PaneId} {sid' : SessionId}
    (hse : s.sessions.lookup sid = some se)
    (h : Has { s.update sid se' with drawnPanes := drawn } sid' q w')
    (hpanes : se'.panes = (se.openPane w pane).panes) :
    s.Has sid' q w' ∨ (pane,sid) = (q,sid') := by
  obtain ⟨se₁,h,hq⟩ := h
  rcases lookup_update.mp h with ⟨rfl,rfl⟩ | ⟨-,h⟩
  · rw [hpanes] at hq
    rcases SessionState.lookup_openPane.mp hq with ⟨rfl,-⟩ | ⟨-,hq⟩
    · exact Or.inr rfl
    · exact Or.inl ⟨se,hse,hq⟩
  · exact Or.inl ⟨se₁,h,hq⟩

/-- A pane that is there after an operation was there before or has been opened by it. -/
theorem has_step {a : Action} {q : PaneId} (h : s.step a = some t) (hq : t.Has sid q w) :
    s.Has sid q w ∨ s.opened a = some (q,sid) := by
  cases a with
  | newSession sid' v =>
    simp only [step,Option.ite_none_right_eq_some,Option.some.injEq] at h
    obtain ⟨-,rfl⟩ := h
    obtain ⟨se,hse,hq⟩ := hq
    rcases lookup_update.mp hse with ⟨rfl,rfl⟩ | ⟨-,hse⟩
    · simp at hq
    · exact Or.inl ⟨se,hse,hq⟩
  | newWindow sid' v =>
    obtain ⟨se,hse,-,rfl⟩ := of_newWindow h
    have hfewer : s.Fewer (s.update sid' (se.addWindow v)) := fewer_update hse fun _ _ hq => hq
    exact Or.inl (hfewer.has sid q w hq)
  | openPane sid' v pane =>
    obtain ⟨se,hse,win,-,-,rfl⟩ := of_openPane h
    exact (has_update hse hq rfl).imp_right (congrArg some)
  | openPaneSplit parent orient pane =>
    obtain ⟨sid',se,v,hget,win,-,-,rfl⟩ := of_openPaneSplit h
    rw [update_openPane] at hq
    rw [opened,hget]
    exact (has_update (getPane_eq_some hget).1 hq rfl).imp_right (congrArg some)
  | closePane pane =>
    obtain rfl := Option.some.inj h
    exact Or.inl ((fewer_closePane s pane).has sid q w hq)
  | removePane pane =>
    obtain rfl := Option.some.inj h
    exact Or.inl ((fewer_removePane s pane).has sid q w hq)
  | closeWindow v unkilled =>
    obtain rfl := Option.some.inj h
    exact Or.inl ((fewer_closeWindow s v unkilled).has sid q w hq)
  | killSession sid' =>
    obtain rfl := Option.some.inj h
    exact Or.inl ((fewer_dropSession s sid').has sid q w hq)

/-- The ids an operation draws are those of the panes it opens, and new. -/
theorem drawn_step {a : Action} (h : s.step a = some t) :
    s.drawnPanes ⊆ t.drawnPanes ∧
      ∀ q sid, s.opened a = some (q,sid) → q ∉ s.drawnPanes ∧ q ∈ t.drawnPanes := by
  cases a with
  | newSession sid' v =>
    simp only [step,Option.ite_none_right_eq_some,Option.some.injEq] at h
    obtain ⟨-,rfl⟩ := h
    exact ⟨List.Subset.refl _,fun _ _ h => by cases h⟩
  | newWindow sid' v =>
    obtain ⟨se,-,-,rfl⟩ := of_newWindow h
    exact ⟨List.Subset.refl _,fun _ _ h => by cases h⟩
  | openPane sid' v pane =>
    obtain ⟨se,-,win,-,hnew,rfl⟩ := of_openPane h
    refine ⟨List.subset_cons_self _ _,fun q sid h => ?_⟩
    cases h
    exact ⟨hnew,List.mem_cons_self⟩
  | openPaneSplit parent orient pane =>
    obtain ⟨sid',se,v,hget,win,-,hnew,rfl⟩ := of_openPaneSplit h
    refine ⟨List.subset_cons_self _ _,fun q sid h => ?_⟩
    rw [opened,hget] at h
    cases h
    exact ⟨hnew,List.mem_cons_self⟩
  | closePane pane =>
    obtain rfl := Option.some.inj h
    exact ⟨(fewer_closePane s pane).draws.drawn,fun _ _ h => by cases h⟩
  | removePane pane =>
    obtain rfl := Option.some.inj h
    exact ⟨(fewer_removePane s pane).draws.drawn,fun _ _ h => by cases h⟩
  | closeWindow v unkilled =>
    obtain rfl := Option.some.inj h
    exact ⟨(fewer_closeWindow s v unkilled).draws.drawn,fun _ _ h => by cases h⟩
  | killSession sid' =>
    obtain rfl := Option.some.inj h
    exact ⟨(fewer_dropSession s sid').draws.drawn,fun _ _ h => by cases h⟩

theorem draws_step {a : Action} (h : s.step a = some t) : s.Draws t := by
  obtain ⟨hdrawn,hnew⟩ := drawn_step h
  exact ⟨hdrawn,fun sid q w hq => (has_step h hq).imp_right (hnew q sid)⟩

/-- A pane of one session at most is gone once that session is settled without it. -/
theorem gone_settle {sid₀ : SessionId} {w₀ : WindowId}
    (honly : ∀ sid' w, s.Has sid' pane w → sid' = sid)
    (hget : s.getPane pane = some (sid₀,se,w₀)) (hfewer : s.Fewer (s.settle sid₀ se'))
    (hgone : ∀ w, se'.panes.lookup pane ≠ some w) :
    ∀ sid' w, ¬(s.settle sid₀ se').Has sid' pane w := by
  intro sid' w hhas
  have hold := hfewer.has sid' pane w hhas
  have hsid : sid' = sid₀ :=
    (honly sid' w hold).trans (honly sid₀ w₀ ⟨se,getPane_eq_some hget⟩).symm
  obtain ⟨se₁,h,hq⟩ := hhas
  rcases lookup_settle.mp h with ⟨-,rfl,-⟩ | ⟨hne,-⟩
  · exact hgone w hq
  · exact hne hsid

theorem gone_removePane (honly : ∀ sid' w, s.Has sid' pane w → sid' = sid) :
    ∀ sid' w, ¬(s.removePane pane).Has sid' pane w := by
  have hfewer := fewer_removePane s pane
  cases hget : s.getPane pane with
  | none =>
    intro sid' w hhas
    have hsome := isSome_getPane (hfewer.has sid' pane w hhas)
    rw [hget] at hsome
    cases hsome
  | some found =>
    obtain ⟨sid₀,se,w₀⟩ := found
    rw [removePane,hget] at hfewer ⊢
    exact gone_settle honly hget hfewer fun w hp => (SessionState.lookup_removePane.mp hp).1 rfl

theorem gone_closePane (honly : ∀ sid' w, s.Has sid' pane w → sid' = sid) :
    ∀ sid' w, ¬(s.closePane pane).Has sid' pane w := by
  have hfewer := fewer_closePane s pane
  cases hget : s.getPane pane with
  | none =>
    intro sid' w hhas
    have hsome := isSome_getPane (hfewer.has sid' pane w hhas)
    rw [hget] at hsome
    cases hsome
  | some found =>
    obtain ⟨sid₀,se,w₀⟩ := found
    rw [closePane,hget] at hfewer ⊢
    exact gone_settle honly hget hfewer fun w hp => (SessionState.lookup_closePane.mp hp).1 rfl

theorem getPane_eq_none (h : ∀ sid w, ¬s.Has sid pane w) : s.getPane pane = none := by
  rw [Option.eq_none_iff_forall_ne_some]
  rintro ⟨sid,se,w⟩ hget
  obtain ⟨hse,hp⟩ := getPane_eq_some hget
  exact h sid w ⟨se,hse,hp⟩

end Registry

/-- The state of one call and of the task that waits for its child. -/
structure Opening where
  registry : Registry
  target : Option WindowId
  inserted : Bool
  finished : Bool
  exited : Bool
  removed : Bool

namespace Opening

def idle : Opening := ⟨.empty,none,false,false,false,false⟩

/-- `start` has the window resolved and the child and its task running. -/
inductive Move where
  | start (w : WindowId)
  | insert
  | finish
  | exit
  | remove
  | other (a : Action)
  deriving DecidableEq, Repr

section steps

/-! The call is one for this session and draws this pane. -/

variable (sid : SessionId) (pane : PaneId)

def step (s : Opening) : Move → Option Opening
  | .start w =>
    (s.registry.sessions.lookup sid).bind fun se => (se.target w).bind fun win =>
      if s.target = none ∧ pane ∉ s.registry.drawnPanes then
        some { s with registry := s.registry.draw pane, target := some win.id }
      else none
  | .insert => s.target.bind fun w =>
    if s.inserted then none
    else some { s with registry := s.registry.insertPane sid w pane, inserted := true }
  | .finish => s.target.bind fun w =>
    if s.inserted ∧ ¬s.finished then
      some { s with registry := s.registry.initLayout sid w pane, finished := true }
    else none
  | .exit => if s.target.isSome ∧ ¬s.exited then some { s with exited := true } else none
  | .remove =>
    if s.exited ∧ ¬s.removed then
      some { s with registry := s.registry.removePane pane, removed := true }
    else none
  | .other a => (s.registry.step a).map fun r => { s with registry := r }

/-- The pane is inserted while its child's task has yet to remove it, or into a session
that is gone. -/
def Awaited (s : Opening) : Move → Prop
  | .insert => s.removed = false ∨ s.registry.sessions.lookup sid = none
  | .start _ | .finish | .exit | .remove | .other _ => True

structure Inv (s : Opening) : Prop where
  drawn : ∀ sid' q w, s.registry.Has sid' q w → q ∈ s.registry.drawnPanes
  idle : s.target = none → s.removed = false ∧ s.exited = false
  own : s.target ≠ none → pane ∈ s.registry.drawnPanes ∧
    ∀ sid' w, s.registry.Has sid' pane w → sid' = sid
  gone : s.removed = true → ∀ sid' w, ¬s.registry.Has sid' pane w

end steps

variable {sid : SessionId} {pane : PaneId} {s t : Opening}

theorem inv_idle : Inv sid pane idle where
  drawn _ _ _ h := by
    obtain ⟨se,hse,-⟩ := h
    cases hse
  idle _ := ⟨rfl,rfl⟩
  own h := absurd rfl h
  gone h := by cases h

/-- The registry changes, and of the pane nothing comes back. -/
theorem Inv.registry (h : s.Inv sid pane) {r : Session.Registry} (hr : s.registry.Draws r) :
    Inv sid pane { s with registry := r } where
  drawn sid' q w hq := by
    rcases hr.has sid' q w hq with hq | ⟨-,hq⟩
    · exact hr.drawn (h.drawn sid' q w hq)
    · exact hq
  idle := h.idle
  own ht := by
    obtain ⟨hpane,honly⟩ := h.own ht
    refine ⟨hr.drawn hpane,fun sid' w hq => ?_⟩
    rcases hr.has sid' pane w hq with hq | ⟨hnew,-⟩
    · exact honly sid' w hq
    · exact absurd hpane hnew
  gone hremoved sid' w hq := by
    have ht : s.target ≠ none := by
      intro ht
      rw [(h.idle ht).1] at hremoved
      cases hremoved
    rcases hr.has sid' pane w hq with hq | ⟨hnew,-⟩
    · exact h.gone hremoved sid' w hq
    · exact hnew (h.own ht).1

theorem step_inv (s : Opening) (m : Move) (t : Opening) (h : s.Inv sid pane)
    (ha : s.Awaited sid m) (hstep : s.step sid pane m = some t) : t.Inv sid pane := by
  cases m with
  | start w =>
    obtain ⟨se,-,hstep⟩ := Option.bind_eq_some_iff.mp hstep
    obtain ⟨win,-,hstep⟩ := Option.bind_eq_some_iff.mp hstep
    rw [Option.ite_none_right_eq_some,Option.some.injEq] at hstep
    obtain ⟨⟨ht,hnew⟩,rfl⟩ := hstep
    obtain ⟨hremoved,hexited⟩ := h.idle ht
    have hno : ∀ sid' w, ¬s.registry.Has sid' pane w := fun sid' w hq =>
      hnew (h.drawn sid' pane w hq)
    refine ⟨fun sid' q w hq => List.mem_cons_of_mem _ (h.drawn sid' q w hq),?_,?_,?_⟩
    · intro hnone
      cases hnone
    · exact fun _ => ⟨List.mem_cons_self,fun sid' w hq => absurd hq (hno sid' w)⟩
    · exact fun _ => hno
  | insert =>
    obtain ⟨w,ht,hstep⟩ := Option.bind_eq_some_iff.mp hstep
    rw [Option.ite_none_left_eq_some,Option.some.injEq] at hstep
    obtain ⟨-,rfl⟩ := hstep
    have htarget : s.target ≠ none := by simp [ht]
    obtain ⟨hpane,honly⟩ := h.own htarget
    cases hse : s.registry.sessions.lookup sid with
    | none =>
      have hsame : s.registry.insertPane sid w pane = s.registry := by
        rw [Session.Registry.insertPane,hse]
      rw [hsame]
      exact ⟨h.drawn,h.idle,h.own,h.gone⟩
    | some se =>
      have hlate : s.removed = false := ha.resolve_right (by simp [hse])
      have hdrawn := Session.Registry.drawn_insertPane s.registry sid w pane
      refine ⟨fun sid' q w' hq => ?_,h.idle,fun _ => ⟨?_,fun sid' w' hq => ?_⟩,fun hremoved => ?_⟩
      · rw [hdrawn]
        rcases Session.Registry.has_insertPane hq with hq | ⟨-,rfl⟩
        · exact h.drawn sid' q w' hq
        · exact hpane
      · rw [hdrawn]
        exact hpane
      · rcases Session.Registry.has_insertPane hq with hq | ⟨rfl,-⟩
        · exact honly sid' w' hq
        · rfl
      · rw [hlate] at hremoved
        cases hremoved
  | finish =>
    obtain ⟨w,ht,hstep⟩ := Option.bind_eq_some_iff.mp hstep
    rw [Option.ite_none_right_eq_some,Option.some.injEq] at hstep
    obtain ⟨-,rfl⟩ := hstep
    have hfewer := Session.Registry.fewer_initLayout s.registry sid w pane
    have hi := h.registry hfewer.draws
    exact ⟨hi.drawn,hi.idle,hi.own,hi.gone⟩
  | exit =>
    rw [step,Option.ite_none_right_eq_some,Option.some.injEq] at hstep
    obtain ⟨⟨ht,-⟩,rfl⟩ := hstep
    refine ⟨h.drawn,fun hnone => ?_,h.own,h.gone⟩
    rw [Option.isSome_iff_ne_none] at ht
    exact absurd hnone ht
  | remove =>
    rw [step,Option.ite_none_right_eq_some,Option.some.injEq] at hstep
    obtain ⟨⟨hexited,-⟩,rfl⟩ := hstep
    have htarget : s.target ≠ none := by
      intro ht
      rw [(h.idle ht).2] at hexited
      cases hexited
    have hi := h.registry (Session.Registry.fewer_removePane s.registry pane).draws
    exact ⟨hi.drawn,fun hnone => absurd hnone htarget,hi.own,
      fun _ => Session.Registry.gone_removePane (h.own htarget).2⟩
  | other a =>
    obtain ⟨r,hr,rfl⟩ := Option.map_eq_some_iff.mp hstep
    exact h.registry (Session.Registry.draws_step hr)

/-- Once the call has returned and the task has removed the pane, it is not registered. -/
def Gone (pane : PaneId) (s : Opening) : Prop :=
  s.finished = true → s.removed = true → s.registry.getPane pane = none

theorem gone_of_inv (h : s.Inv sid pane) : s.Gone pane :=
  fun _ hremoved => Session.Registry.getPane_eq_none (h.gone hremoved)

theorem always_gone {moves : List Move}
    (h : Along (step sid pane) (Awaited sid) idle moves) :
    Always (step sid pane) (Gone pane) idle moves :=
  (h.invariant step_inv inv_idle).mono fun _ => gone_of_inv

end Opening

end Pyre.Session
