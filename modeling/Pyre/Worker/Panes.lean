import Pyre.Session.Opening

/-!
A worker's panes: the map in memory and the rows of its shard, which are opened again
when the worker is respawned. One `open_pane` runs step by step beside the calls of
`close_pane`, the first of which its own reader thread makes when the shell exits.
-/

set_option autoImplicit false

namespace Pyre.Worker
open Base

structure PaneHandle where
  shell : String
  cwd : String
  cols : UInt16
  rows : UInt16
  deriving DecidableEq, Repr

structure PaneRow where
  shell : String
  cwd : String
  deriving DecidableEq, Repr

structure OpenPaneReq where
  slot : UInt32
  shell : String
  cwd : String
  cols : UInt16
  rows : UInt16
  deriving DecidableEq, Repr

/-- A zero dimension falls back to 80×24. -/
def OpenPaneReq.handle (req : OpenPaneReq) : PaneHandle :=
  if req.cols = 0 ∨ req.rows = 0 then ⟨req.shell,req.cwd,80,24⟩
  else ⟨req.shell,req.cwd,req.cols,req.rows⟩

def OpenPaneReq.row (req : OpenPaneReq) : PaneRow := ⟨req.shell,req.cwd⟩

structure WorkerState where
  panes : Table UInt32 PaneHandle
  shard : Table UInt32 PaneRow

/-- The writes of `open_pane` and `close_pane`, each under a lock of its own. -/
inductive Write where
  | insert (slot : UInt32) (handle : PaneHandle)
  | upsert (slot : UInt32) (row : PaneRow)
  | remove (slot : UInt32)
  | delete (slot : UInt32)
  deriving DecidableEq, Repr

def Write.slot : Write → UInt32
  | .insert slot _ | .upsert slot _ | .remove slot | .delete slot => slot

namespace WorkerState

def write (s : WorkerState) : Write → WorkerState
  | .insert slot handle => { s with panes := s.panes.insert slot handle }
  | .upsert slot row => { s with shard := s.shard.insert slot row }
  | .remove slot => { s with panes := s.panes.erase slot }
  | .delete slot => { s with shard := s.shard.erase slot }

/-- A write leaves the other slots as they are. -/
theorem write_other {s : WorkerState} {e : Write} {slot : UInt32} (h : e.slot ≠ slot) :
    (s.write e).panes.lookup slot = s.panes.lookup slot ∧
      (s.write e).shard.lookup slot = s.shard.lookup slot := by
  have hne : slot ≠ e.slot := h.symm
  cases e with
  | insert slot' handle => exact ⟨AList.lookup_insert_ne hne,rfl⟩
  | upsert slot' row => exact ⟨rfl,AList.lookup_insert_ne hne⟩
  | remove slot' => exact ⟨AList.lookup_erase_ne hne,rfl⟩
  | delete slot' => exact ⟨rfl,AList.lookup_erase_ne hne⟩

end WorkerState

/-- `opened`: `open_pane` has returned. `cleaned`: the reader thread's own `close_pane`
has looked for the pane. `deleting`: the calls of `close_pane` that have taken it out of
the map and have yet to delete the row. -/
structure Opening where
  worker : WorkerState
  started : Bool
  inserted : Bool
  opened : Bool
  exited : Bool
  cleaned : Bool
  deleting : Nat

namespace Opening

def idle (worker : WorkerState) : Opening := ⟨worker,false,false,false,false,false,0⟩

/-- The shard may fail to `upsert` or to `delete`. A `close` is one that a client has
asked for. -/
inductive Move where
  | start
  | insert
  | upsert (ok : Bool)
  | exit
  | clean
  | close
  | delete (ok : Bool)
  | other (e : Write)
  deriving DecidableEq, Repr

variable (req : OpenPaneReq)

/-- The first part of `close_pane`: it ends there if the pane is absent. -/
def takeHandle (s : Opening) : Opening :=
  match s.worker.panes.lookup req.slot with
  | none => s
  | some _ => { s with worker := s.worker.write (.remove req.slot), deleting := s.deleting+1 }

def step (s : Opening) : Move → Option Opening
  | .start => if s.started then none else some { s with started := true }
  | .insert =>
    if s.started ∧ ¬s.inserted then
      some { s with worker := s.worker.write (.insert req.slot req.handle), inserted := true }
    else none
  | .upsert ok =>
    if s.inserted ∧ ¬s.opened then
      some { s with
        worker := if ok then s.worker.write (.upsert req.slot req.row) else s.worker
        opened := true }
    else none
  | .exit => if s.started ∧ ¬s.exited then some { s with exited := true } else none
  | .clean =>
    if s.exited ∧ ¬s.cleaned then some { s.takeHandle req with cleaned := true } else none
  | .close => some (s.takeHandle req)
  | .delete ok =>
    if 0 < s.deleting then
      some { s with
        worker := if ok then s.worker.write (.delete req.slot) else s.worker
        deleting := s.deleting-1 }
    else none
  | .other e => if e.slot ≠ req.slot then some { s with worker := s.worker.write e } else none

/-- The thread looks for the pane once it is in the map, and the row is deleted, without
failure, once `open_pane` has returned. -/
def Awaited (s : Opening) : Move → Prop
  | .clean => s.inserted = true
  | .delete ok => s.opened = true ∧ ok = true
  | .start | .insert | .upsert _ | .exit | .close | .other _ => True

structure Inv (s : Opening) : Prop where
  opened : s.opened = true → s.inserted = true
  cleaned : s.cleaned = true → s.inserted = true ∧ s.worker.panes.lookup req.slot = none
  owed : s.inserted = true → s.opened = false → s.worker.panes.lookup req.slot = none →
    0 < s.deleting
  deleted : s.opened = true → s.worker.panes.lookup req.slot = none → s.deleting = 0 →
    s.worker.shard.lookup req.slot = none

/-- Once all calls have returned, the pane is neither in the map nor in the shard. -/
def Gone (s : Opening) : Prop :=
  s.opened = true → s.cleaned = true → s.deleting = 0 →
    s.worker.panes.lookup req.slot = none ∧ s.worker.shard.lookup req.slot = none

variable {req : OpenPaneReq} {s t : Opening}

theorem inv_idle (worker : WorkerState) : (idle worker).Inv req where
  opened h := by cases h
  cleaned h := by cases h
  owed h := by cases h
  deleted h := by cases h

theorem takeHandle_absent (h : s.worker.panes.lookup req.slot = none) :
    s.takeHandle req = s := by rw [takeHandle,h]

theorem takeHandle_present {handle : PaneHandle}
    (h : s.worker.panes.lookup req.slot = some handle) :
    s.takeHandle req =
      { s with worker := s.worker.write (.remove req.slot), deleting := s.deleting+1 } := by
  rw [takeHandle,h]

theorem lookup_takeHandle (s : Opening) : (s.takeHandle req).worker.panes.lookup req.slot = none := by
  cases h : s.worker.panes.lookup req.slot with
  | none => rw [takeHandle_absent h,h]
  | some handle =>
    rw [takeHandle_present h]
    exact AList.lookup_erase _ _

theorem Inv.takeHandle (h : s.Inv req) : (s.takeHandle req).Inv req := by
  cases hp : s.worker.panes.lookup req.slot with
  | none => rwa [takeHandle_absent hp]
  | some handle =>
    rw [takeHandle_present hp]
    refine ⟨h.opened,fun hc => ?_,fun _ _ _ => Nat.succ_pos _,fun _ _ hd => ?_⟩
    · rw [(h.cleaned hc).2] at hp
      cases hp
    · cases hd

theorem step_inv (s : Opening) (m : Move) (t : Opening) (h : s.Inv req) (ha : s.Awaited m)
    (hstep : s.step req m = some t) : t.Inv req := by
  cases m with
  | start =>
    rw [step,Option.ite_none_left_eq_some,Option.some.injEq] at hstep
    obtain ⟨-,rfl⟩ := hstep
    exact ⟨h.opened,h.cleaned,h.owed,h.deleted⟩
  | insert =>
    rw [step,Option.ite_none_right_eq_some,Option.some.injEq] at hstep
    obtain ⟨⟨-,hnew⟩,rfl⟩ := hstep
    rw [Bool.not_eq_true] at hnew
    have hin : (s.worker.write (.insert req.slot req.handle)).panes.lookup req.slot =
        some req.handle := AList.lookup_insert _
    refine ⟨fun _ => rfl,fun hc => ?_,fun _ _ hp => ?_,fun _ hp => ?_⟩
    · rw [(h.cleaned hc).1] at hnew
      cases hnew
    · rw [hin] at hp
      cases hp
    · rw [hin] at hp
      cases hp
  | upsert ok =>
    rw [step,Option.ite_none_right_eq_some,Option.some.injEq] at hstep
    obtain ⟨⟨hin,hopen⟩,rfl⟩ := hstep
    rw [Bool.not_eq_true] at hopen
    have hpanes : (if ok then s.worker.write (.upsert req.slot req.row) else s.worker).panes =
        s.worker.panes := by split <;> rfl
    refine ⟨fun _ => hin,?_,fun _ ho => ?_,fun _ hp hd => ?_⟩
    · simpa only [hpanes] using h.cleaned
    · cases ho
    · -- a call that has taken the pane still owes the deletion
      simp only [hpanes] at hp
      exact absurd hd (h.owed hin hopen hp).ne'
  | exit =>
    rw [step,Option.ite_none_right_eq_some,Option.some.injEq] at hstep
    obtain ⟨-,rfl⟩ := hstep
    exact ⟨h.opened,h.cleaned,h.owed,h.deleted⟩
  | clean =>
    rw [step,Option.ite_none_right_eq_some,Option.some.injEq] at hstep
    obtain ⟨-,rfl⟩ := hstep
    have hi := h.takeHandle
    have hin : (s.takeHandle req).inserted = true := by
      cases hp : s.worker.panes.lookup req.slot with
      | none => rwa [takeHandle_absent hp]
      | some handle => rwa [takeHandle_present hp]
    exact ⟨hi.opened,fun _ => ⟨hin,lookup_takeHandle s⟩,hi.owed,hi.deleted⟩
  | close => exact Option.some.inj hstep ▸ h.takeHandle
  | delete ok =>
    obtain ⟨hopen,rfl⟩ := ha
    rw [step,Option.ite_none_right_eq_some,Option.some.injEq] at hstep
    obtain ⟨-,rfl⟩ := hstep
    refine ⟨h.opened,h.cleaned,fun _ ho => ?_,fun _ _ _ => AList.lookup_erase _ _⟩
    rw [hopen] at ho
    cases ho
  | other e =>
    rw [step,Option.ite_none_right_eq_some,Option.some.injEq] at hstep
    obtain ⟨hne,rfl⟩ := hstep
    obtain ⟨hpanes,hshard⟩ := WorkerState.write_other (s := s.worker) hne
    refine ⟨h.opened,?_,?_,?_⟩
    · simpa only [hpanes] using h.cleaned
    · simpa only [hpanes] using h.owed
    · simpa only [hpanes,hshard] using h.deleted

theorem gone_of_inv (h : s.Inv req) : s.Gone req := fun hopen hcleaned hdone => by
  have hp := (h.cleaned hcleaned).2
  exact ⟨hp,h.deleted hopen hp hdone⟩

theorem always_gone {worker : WorkerState} {moves : List Move}
    (h : Along (step req) Awaited (idle worker) moves) :
    Always (step req) (Gone req) (idle worker) moves :=
  (h.invariant step_inv (inv_idle worker)).mono fun _ => gone_of_inv

end Opening

/-- A pane whose shell exits leaves nothing behind along the runs in which it is
removed only after it has been put there, in a daemon of its own and in a worker. -/
theorem exited_pane_gone (sid : SessionId) (pane : PaneId) (req : OpenPaneReq)
    (worker : WorkerState) :
    (∀ moves, Along (Session.Opening.step sid pane) (Session.Opening.Awaited sid) .idle moves →
        Always (Session.Opening.step sid pane) (Session.Opening.Gone pane) .idle moves) ∧
    ∀ moves, Along (Opening.step req) Opening.Awaited (.idle worker) moves →
        Always (Opening.step req) (Opening.Gone req) (.idle worker) moves :=
  ⟨fun _ h => Session.Opening.always_gone h,fun _ h => Opening.always_gone h⟩

/-- A shell that exits once its pane is there, in either mode. -/
theorem exited_pane_gone_after :
    Always (Session.Opening.step ⟨0⟩ ⟨1⟩) (Session.Opening.Gone ⟨1⟩) .idle
        [.other (.newSession ⟨0⟩ ⟨0⟩),.start ⟨0⟩,.exit,.insert,.remove,.finish] ∧
      Always (Opening.step ⟨0,"sh","/",80,24⟩) (Opening.Gone ⟨0,"sh","/",80,24⟩) (.idle ⟨∅,∅⟩)
        [.start,.exit,.insert,.clean,.upsert true,.delete true] := by
  have hgone := exited_pane_gone ⟨0⟩ ⟨1⟩ ⟨0,"sh","/",80,24⟩ ⟨∅,∅⟩
  refine ⟨hgone.1 _ ?_,hgone.2 _ ?_⟩
  · refine ⟨trivial,fun s hs => ⟨trivial,fun s hs' => ⟨trivial,fun s hs'' => ⟨Or.inl ?_,
      fun _ _ => ⟨trivial,fun _ _ => ⟨trivial,fun _ _ => trivial⟩⟩⟩⟩⟩⟩
    obtain rfl := Option.some.inj hs
    obtain rfl := Option.some.inj hs'
    obtain rfl := Option.some.inj hs''
    rfl
  · refine ⟨trivial,fun s h₁ => ⟨trivial,fun s h₂ => ⟨trivial,fun s h₃ => ⟨?_,fun s h₄ => ⟨trivial,
      fun s h₅ => ⟨?_,fun _ _ => trivial⟩⟩⟩⟩⟩⟩
    · obtain rfl := Option.some.inj h₁
      obtain rfl := Option.some.inj h₂
      obtain rfl := Option.some.inj h₃
      rfl
    · obtain rfl := Option.some.inj h₁
      obtain rfl := Option.some.inj h₂
      obtain rfl := Option.some.inj h₃
      obtain rfl := Option.some.inj h₄
      obtain rfl := Option.some.inj h₅
      exact ⟨rfl,rfl⟩

/-- The shell exits at once: the pane is put into the map after it was removed from it,
and in a worker the row may come back just as well. -/
theorem exited_pane_stays :
    (¬∀ (sid : SessionId) (pane : PaneId) (moves : List Session.Opening.Move),
      Always (Session.Opening.step sid pane) (Session.Opening.Gone pane) .idle moves) ∧
    (¬∀ (req : OpenPaneReq) (worker : WorkerState) (moves : List Opening.Move),
      Always (Opening.step req) (fun s => s.opened = true → s.cleaned = true → s.deleting = 0 →
        s.worker.panes.lookup req.slot = none) (.idle worker) moves) ∧
    ¬∀ (req : OpenPaneReq) (worker : WorkerState) (moves : List Opening.Move),
      Always (Opening.step req) (fun s => s.opened = true → s.cleaned = true → s.deleting = 0 →
        s.worker.shard.lookup req.slot = none) (.idle worker) moves := by
  refine ⟨fun h => ?_,fun h => ?_,fun h => ?_⟩
  · have hrun := h ⟨0⟩ ⟨1⟩ [.other (.newSession ⟨0⟩ ⟨0⟩),.start ⟨0⟩,.exit,.remove,.insert,.finish]
    exact absurd ((hrun.last rfl) rfl rfl) (by decide)
  · have hrun := h ⟨0,"sh","/",80,24⟩ ⟨∅,∅⟩ [.start,.exit,.clean,.insert,.upsert true]
    exact absurd ((hrun.last rfl) rfl rfl rfl) (by decide)
  · have hrun := h ⟨0,"sh","/",80,24⟩ ⟨∅,∅⟩
      [.start,.insert,.exit,.clean,.delete true,.upsert true]
    exact absurd ((hrun.last rfl) rfl rfl rfl) (by decide)

end Pyre.Worker
