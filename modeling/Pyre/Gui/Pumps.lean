import Mathlib.Data.Finset.Insert
import Pyre.Base.Run
import Pyre.Base.Table
import Pyre.Proto

/-!
The output pumps of the GUI bridge: `attach_pane_stream` and `detach_pane_stream` by their
lock sections. An attach aborts the pane's registered pump, connects without the lock, spawns
a pump and registers it; what it replaces then is not aborted.
-/

set_option autoImplicit false

namespace Pyre.Gui
open Base

/-- `waiting` and `detaching` are calls before their first lock section. -/
inductive CallPhase where
  | waiting
  | connecting
  | registering (task : Nat)
  | detaching
  deriving DecidableEq, Repr

/-- A call in progress; `begun` numbers the calls by when they began. -/
structure StreamCall where
  pane : PaneId
  begun : Nat
  phase : CallPhase
  deriving DecidableEq, Repr

structure Pump where
  pane : PaneId
  running : Bool
  deriving DecidableEq, Repr

/-- `detached` has the panes for which a detach that began after the last attach has run. -/
structure Pumps where
  clock : Nat
  calls : Table Nat StreamCall
  tasks : Table Nat Pump
  streamTasks : Table PaneId Nat
  lastAttach : Table PaneId Nat
  detached : Finset PaneId

/-- `pumpEnds` is the end of the stream, or of the window it is emitted to. -/
inductive PumpStep where
  | attachPaneStream (call : Nat) (pane : PaneId)
  | abortOld (call : Nat)
  | connect (call : Nat) (task : Option Nat)
  | register (call : Nat)
  | detachPaneStream (call : Nat) (pane : PaneId)
  | abortTask (call : Nat)
  | pumpEnds (task : Nat)
  deriving DecidableEq, Repr

namespace Pumps

def start : Pumps := ⟨0,∅,∅,∅,∅,∅⟩

def stop (tasks : Table Nat Pump) (task : Nat) : Table Nat Pump :=
  match tasks.lookup task with
  | some pump => tasks.insert task { pump with running := false }
  | none => tasks

/-- The pane's handle is taken out of the map, and its task aborted. -/
def abort (s : Pumps) (pane : PaneId) : Pumps :=
  { s with
    streamTasks := s.streamTasks.erase pane
    tasks := match s.streamTasks.lookup pane with
      | some task => stop s.tasks task
      | none => s.tasks }

def setPhase (s : Pumps) (i : Nat) (c : StreamCall) (phase : CallPhase) : Pumps :=
  { s with calls := s.calls.insert i { c with phase } }

def endCall (s : Pumps) (i : Nat) : Pumps := { s with calls := s.calls.erase i }

/-- The detach began after the last attach of its pane did. -/
def Late (s : Pumps) (c : StreamCall) : Prop := ∀ n ∈ s.lastAttach.lookup c.pane, n < c.begun

instance (s : Pumps) (c : StreamCall) : Decidable (s.Late c) :=
  inferInstanceAs (Decidable (∀ _ ∈ _, _))

def stepCall (s : Pumps) (i : Nat) (f : StreamCall → Option Pumps) : Option Pumps :=
  (s.calls.lookup i).bind f

def step (s : Pumps) : PumpStep → Option Pumps
  | .attachPaneStream i pane =>
    if s.calls.lookup i = none then
      some { s with
        clock := s.clock+1
        calls := s.calls.insert i ⟨pane,s.clock,.waiting⟩
        lastAttach := s.lastAttach.insert pane s.clock
        detached := s.detached.erase pane }
    else none
  | .abortOld i => s.stepCall i fun c =>
    match c.phase with
    | .waiting => some ((s.abort c.pane).setPhase i c .connecting)
    | _ => none
  | .connect i task => s.stepCall i fun c =>
    match c.phase with
    | .connecting =>
      match task with
      | none => some (s.endCall i)
      | some k =>
        if s.tasks.lookup k = none then
          some { s.setPhase i c (.registering k) with tasks := s.tasks.insert k ⟨c.pane,true⟩ }
        else none
    | _ => none
  | .register i => s.stepCall i fun c =>
    match c.phase with
    | .registering k =>
      some { s.endCall i with streamTasks := s.streamTasks.insert c.pane k }
    | _ => none
  | .detachPaneStream i pane =>
    if s.calls.lookup i = none then
      some { s with
        clock := s.clock+1
        calls := s.calls.insert i ⟨pane,s.clock,.detaching⟩ }
    else none
  | .abortTask i => s.stepCall i fun c =>
    match c.phase with
    | .detaching =>
      some { (s.abort c.pane).endCall i with
        detached := if s.Late c then insert c.pane s.detached else s.detached }
    | _ => none
  | .pumpEnds k => (s.tasks.lookup k).bind fun pump =>
    if pump.running then some { s with tasks := stop s.tasks k } else none

/-- A frame of the pane's output goes to the webview once for each of these. -/
def Runs (s : Pumps) (pane : PaneId) (task : Nat) : Prop := s.tasks.lookup task = some ⟨pane,true⟩

/-- No call for the pane is in progress. -/
def Idle (s : Pumps) (pane : PaneId) : Prop := ∀ i c, s.calls.lookup i = some c → c.pane ≠ pane

/-- While no call for a pane is in progress only its registered pump runs, and none once it
is detached. -/
structure OnePump (s : Pumps) : Prop where
  registered : ∀ pane, s.Idle pane → ∀ k, s.Runs pane k → s.streamTasks.lookup pane = some k
  detached : ∀ pane ∈ s.detached, s.Idle pane → ∀ k, ¬s.Runs pane k

/-- No frame of a pane's output goes to the webview twice. -/
def EmitsOnce (s : Pumps) : Prop := ∀ pane k k', s.Runs pane k → s.Runs pane k' → k = k'

/-- An attach finds no pump of its pane running when it has connected, nor registered when it
registers its own, and does so before a detach that began after it has run. -/
def Undisturbed (s : Pumps) : PumpStep → Prop
  | .connect i task => task.isSome → ∀ c ∈ s.calls.lookup i,
    ∀ e ∈ s.tasks.entries, e.2.pane = c.pane → e.2.running = false
  | .register i => ∀ c ∈ s.calls.lookup i, c.pane ∉ s.detached ∧
    ∀ k ∈ s.streamTasks.lookup c.pane, ¬s.Runs c.pane k
  | _ => True

instance (s : Pumps) : DecidablePred s.Undisturbed
  | .connect _ _ => inferInstanceAs (Decidable (_ → ∀ _ ∈ _, ∀ _ ∈ _, _ → _))
  | .register _ => inferInstanceAs (Decidable (∀ _ ∈ _, _ ∧ ∀ _ ∈ _, ¬(_ = _)))
  | .attachPaneStream _ _ | .abortOld _ | .detachPaneStream _ _ | .abortTask _
  | .pumpEnds _ => isTrue trivial

/-! What each part of a step does to the pumps that run. -/

variable {s t : Pumps} {pane : PaneId} {i k : Nat} {c : StreamCall}

theorem runs_stop {tasks : Table Nat Pump} {task : Nat} :
    (stop tasks task).lookup k = some ⟨pane,true⟩ ↔
      k ≠ task ∧ tasks.lookup k = some ⟨pane,true⟩ := by
  unfold stop
  split
  · simp [Table.lookup_insert_eq_some]
  · rename_i hnone
    refine ⟨fun h => ⟨?_,h⟩,fun h => h.2⟩
    rintro rfl
    rw [hnone] at h
    cases h

theorem isSome_stop {tasks : Table Nat Pump} {task : Nat} (h : (tasks.lookup k).isSome) :
    ((stop tasks task).lookup k).isSome := by
  unfold stop
  split
  · by_cases hk : k = task
    · subst hk
      rw [AList.lookup_insert]
      rfl
    · rwa [AList.lookup_insert_ne hk]
  · exact h

theorem runs_abort {q : PaneId} :
    (s.abort q).Runs pane k ↔ s.streamTasks.lookup q ≠ some k ∧ s.Runs pane k := by
  simp only [abort,Runs]
  split
  · rename_i task htask
    rw [runs_stop,htask,ne_eq,ne_eq,Option.some.injEq,eq_comm (a := k)]
  · rename_i hnone
    simp [hnone]

theorem isSome_abort {q : PaneId} (h : (s.tasks.lookup k).isSome) :
    ((s.abort q).tasks.lookup k).isSome := by
  simp only [abort]
  split
  · exact isSome_stop h
  · exact h

/-- An attach has spawned the pump and not registered it yet. -/
def Held (calls : Table Nat StreamCall) (pane : PaneId) (k : Nat) : Prop :=
  ∃ i c, calls.lookup i = some c ∧ c.pane = pane ∧ c.phase = .registering k

section held

variable {calls : Table Nat StreamCall} {c' : StreamCall}

theorem Held.of_insert (h : Held (calls.insert i c') pane k) :
    (c'.pane = pane ∧ c'.phase = .registering k) ∨ Held calls pane k := by
  obtain ⟨j,d,hj,hd⟩ := h
  rcases Table.lookup_insert_eq_some.mp hj with ⟨-,rfl⟩ | ⟨-,hj⟩
  · exact Or.inl hd
  · exact Or.inr ⟨j,d,hj,hd⟩

theorem Held.of_erase (h : Held (calls.erase i) pane k) : Held calls pane k := by
  obtain ⟨j,d,hj,hd⟩ := h
  exact ⟨j,d,(Table.lookup_erase_eq_some.mp hj).2,hd⟩

/-- Another call than the one that holds the pump. -/
theorem Held.ne {j : Nat} {d : StreamCall} (hi : calls.lookup i = some c)
    (hc : c.phase ≠ .registering k) (hj : calls.lookup j = some d)
    (hd : d.phase = .registering k) : j ≠ i := by
  rintro rfl
  obtain rfl := Option.some.inj (hi.symm.trans hj)
  exact hc hd

theorem Held.insert (h : Held calls pane k) (hi : calls.lookup i = some c)
    (hc : c.phase ≠ .registering k) : Held (calls.insert i c') pane k := by
  obtain ⟨j,d,hj,hd⟩ := h
  exact ⟨j,d,by rwa [AList.lookup_insert_ne (Held.ne hi hc hj hd.2)],hd⟩

theorem Held.insert_new (h : Held calls pane k) (hi : calls.lookup i = none) :
    Held (calls.insert i c') pane k := by
  obtain ⟨j,d,hj,hd⟩ := h
  have hne : j ≠ i := by
    rintro rfl
    rw [hi] at hj
    cases hj
  exact ⟨j,d,by rwa [AList.lookup_insert_ne hne],hd⟩

theorem Held.erase (h : Held calls pane k) (hi : calls.lookup i = some c)
    (hc : c.phase ≠ .registering k) : Held (calls.erase i) pane k := by
  obtain ⟨j,d,hj,hd⟩ := h
  exact ⟨j,d,by rwa [AList.lookup_erase_ne (Held.ne hi hc hj hd.2)],hd⟩

end held

/-- Every pump that runs is the pane's only one, and registered or about to be. -/
structure Inv (s : Pumps) : Prop where
  once : s.EmitsOnce
  kept : ∀ pane k, s.Runs pane k → s.streamTasks.lookup pane = some k ∨ Held s.calls pane k
  detached : ∀ pane ∈ s.detached, ∀ k, s.streamTasks.lookup pane = some k → ¬s.Runs pane k
  known : ∀ pane k, s.streamTasks.lookup pane = some k → (s.tasks.lookup k).isSome
  spawned : ∀ pane k, Held s.calls pane k → (s.tasks.lookup k).isSome

theorem inv_start : start.Inv where
  once pane k k' h := by cases h
  kept pane k h := by cases h
  detached pane h := by cases h
  known pane k h := by cases h
  spawned := by
    rintro pane k ⟨i,c,h,-⟩
    cases h

/-- The lock section both calls have. -/
theorem Inv.abort (h : s.Inv) (q : PaneId) : (s.abort q).Inv where
  once pane k k' hk hk' := h.once pane k k' (runs_abort.mp hk).2 (runs_abort.mp hk').2
  kept pane k hk := by
    obtain ⟨hne,hk⟩ := runs_abort.mp hk
    rcases h.kept pane k hk with hreg | hheld
    · have hpane : pane ≠ q := by
        rintro rfl
        exact hne hreg
      exact Or.inl (Table.lookup_erase_eq_some.mpr ⟨hpane,hreg⟩)
    · exact Or.inr hheld
  detached pane hpane k hreg hk :=
    h.detached pane hpane k (Table.lookup_erase_eq_some.mp hreg).2 (runs_abort.mp hk).2
  known pane k hreg := isSome_abort (h.known pane k (Table.lookup_erase_eq_some.mp hreg).2)
  spawned pane k hheld := isSome_abort (h.spawned pane k hheld)

/-- A call that holds no pump, before and after. -/
theorem Inv.setPhase (h : s.Inv) (hi : s.calls.lookup i = some c) {phase : CallPhase}
    (hc : ∀ k, c.phase ≠ .registering k) (hphase : ∀ k, phase ≠ .registering k) :
    (s.setPhase i c phase).Inv where
  once := h.once
  kept pane k hk := (h.kept pane k hk).imp id fun hheld => hheld.insert hi (hc k)
  detached := h.detached
  known := h.known
  spawned pane k hheld := by
    rcases hheld.of_insert with ⟨-,hd⟩ | hheld
    · exact absurd hd (hphase k)
    · exact h.spawned pane k hheld

theorem Inv.endCall (h : s.Inv) (hi : s.calls.lookup i = some c)
    (hc : ∀ k, c.phase ≠ .registering k) : (s.endCall i).Inv where
  once := h.once
  kept pane k hk := (h.kept pane k hk).imp id fun hheld => hheld.erase hi (hc k)
  detached := h.detached
  known := h.known
  spawned pane k hheld := h.spawned pane k hheld.of_erase

/-- A call begins; an attach forgets the detach before it. -/
theorem Inv.begin (h : s.Inv) (hi : s.calls.lookup i = none) {phase : CallPhase}
    (hphase : ∀ k, phase ≠ .registering k) {last : Table PaneId Nat} {detached : Finset PaneId}
    (hsub : detached ⊆ s.detached) :
    (⟨s.clock+1,s.calls.insert i ⟨pane,s.clock,phase⟩,s.tasks,s.streamTasks,last,detached⟩ :
      Pumps).Inv where
  once := h.once
  kept pane k hk := (h.kept pane k hk).imp id fun hheld => hheld.insert_new hi
  detached pane hpane := h.detached pane (hsub hpane)
  known := h.known
  spawned pane k hheld := by
    rcases hheld.of_insert with ⟨-,hd⟩ | hheld
    · exact absurd hd (hphase k)
    · exact h.spawned pane k hheld

/-- The pump that is spawned is the only one of its pane. -/
theorem Inv.spawn (h : s.Inv) (hi : s.calls.lookup i = some c)
    (hc : ∀ k, c.phase ≠ .registering k) (hnew : s.tasks.lookup k = none)
    (hnone : ∀ e ∈ s.tasks.entries, e.2.pane = c.pane → e.2.running = false) :
    ({ s.setPhase i c (.registering k) with tasks := s.tasks.insert k ⟨c.pane,true⟩ } :
      Pumps).Inv := by
  have hidle : ∀ k', ¬s.Runs c.pane k' := fun k' hk' =>
    absurd (hnone ⟨k',⟨c.pane,true⟩⟩ (Table.lookup_eq_some.mp hk') rfl) (by simp)
  have hruns : ∀ {pane k'}, (s.tasks.insert k ⟨c.pane,true⟩).lookup k' = some ⟨pane,true⟩ →
      k' = k ∧ pane = c.pane ∨ s.Runs pane k' ∧ pane ≠ c.pane := by
    intro pane k' hk'
    rcases Table.lookup_insert_eq_some.mp hk' with ⟨rfl,hpane⟩ | ⟨-,hk'⟩
    · exact Or.inl ⟨rfl,congrArg Pump.pane hpane⟩
    · refine Or.inr ⟨hk',?_⟩
      rintro rfl
      exact hidle k' hk'
  have hsome : ∀ {k'}, (s.tasks.lookup k').isSome →
      ((s.tasks.insert k ⟨c.pane,true⟩).lookup k').isSome := by
    intro k' hk'
    have hne : k' ≠ k := by
      rintro rfl
      rw [hnew] at hk'
      cases hk'
    rwa [AList.lookup_insert_ne hne]
  refine ⟨?_,?_,?_,?_,?_⟩
  · intro pane k₁ k₂ h₁ h₂
    rcases hruns h₁ with ⟨rfl,rfl⟩ | ⟨h₁,hne⟩
    · rcases hruns h₂ with ⟨rfl,-⟩ | ⟨-,hne⟩
      · rfl
      · exact absurd rfl hne
    · rcases hruns h₂ with ⟨-,rfl⟩ | ⟨h₂,-⟩
      · exact absurd rfl hne
      · exact h.once pane k₁ k₂ h₁ h₂
  · intro pane k' hk'
    rcases hruns hk' with ⟨rfl,rfl⟩ | ⟨hk',-⟩
    · exact Or.inr ⟨i,_,AList.lookup_insert _,rfl,rfl⟩
    · exact (h.kept pane k' hk').imp id fun hheld => hheld.insert hi (hc k')
  · intro pane hpane k' hreg hk'
    rcases hruns hk' with ⟨rfl,-⟩ | ⟨hk',-⟩
    · have hknown := h.known pane k' hreg
      rw [hnew] at hknown
      cases hknown
    · exact h.detached pane hpane k' hreg hk'
  · exact fun pane k' hreg => hsome (h.known pane k' hreg)
  · intro pane k' hheld
    rcases hheld.of_insert with ⟨-,hd⟩ | hheld
    · obtain rfl : k = k' := by simpa using hd
      rw [AList.lookup_insert]
      rfl
    · exact hsome (h.spawned pane k' hheld)

/-- The pump that is replaced does not run. -/
theorem Inv.register (h : s.Inv) (hi : s.calls.lookup i = some c)
    (hc : c.phase = .registering k) (hlate : c.pane ∉ s.detached)
    (hold : ∀ k ∈ s.streamTasks.lookup c.pane, ¬s.Runs c.pane k) :
    ({ s.endCall i with streamTasks := s.streamTasks.insert c.pane k } : Pumps).Inv where
  once := h.once
  kept pane k' hk' := by
    rcases h.kept pane k' hk' with hreg | ⟨j,d,hj,hpane,hd⟩
    · have hne : pane ≠ c.pane := by
        rintro rfl
        exact hold k' hreg hk'
      exact Or.inl (by rwa [AList.lookup_insert_ne hne])
    · by_cases hji : j = i
      · subst hji
        obtain rfl := Option.some.inj (hi.symm.trans hj)
        obtain rfl : k = k' := by simpa using hc.symm.trans hd
        subst hpane
        exact Or.inl (AList.lookup_insert _)
      · exact Or.inr ⟨j,d,(Table.lookup_erase_eq_some).mpr ⟨hji,hj⟩,hpane,hd⟩
  detached pane hpane k' hreg hk' := by
    have hne : pane ≠ c.pane := by
      rintro rfl
      exact hlate hpane
    rw [AList.lookup_insert_ne hne] at hreg
    exact h.detached pane hpane k' hreg hk'
  known pane k' hreg := by
    rcases Table.lookup_insert_eq_some.mp hreg with ⟨-,rfl⟩ | ⟨-,hreg⟩
    · exact h.spawned c.pane k' ⟨i,c,hi,rfl,hc⟩
    · exact h.known pane k' hreg
  spawned pane k' hheld := h.spawned pane k' hheld.of_erase

theorem Inv.detach (h : s.Inv) (hi : s.calls.lookup i = some c)
    (hc : ∀ k, c.phase ≠ .registering k) :
    ({ (s.abort c.pane).endCall i with
      detached := if s.Late c then insert c.pane s.detached else s.detached } : Pumps).Inv := by
  have hend := (h.abort c.pane).endCall hi hc
  refine ⟨hend.once,hend.kept,fun pane hpane k hreg => ?_,hend.known,hend.spawned⟩
  by_cases heq : pane = c.pane
  · subst heq
    exact absurd rfl (Table.lookup_erase_eq_some.mp hreg).1
  · refine hend.detached pane ?_ k hreg
    split at hpane
    · exact (Finset.mem_insert.mp hpane).resolve_left heq
    · exact hpane

theorem Inv.pumpEnds (h : s.Inv) (k : Nat) : ({ s with tasks := stop s.tasks k } : Pumps).Inv where
  once pane k₁ k₂ h₁ h₂ := h.once pane k₁ k₂ (runs_stop.mp h₁).2 (runs_stop.mp h₂).2
  kept pane k' hk' := h.kept pane k' (runs_stop.mp hk').2
  detached pane hpane k' hreg hk' := h.detached pane hpane k' hreg (runs_stop.mp hk').2
  known pane k' hreg := isSome_stop (h.known pane k' hreg)
  spawned pane k' hheld := isSome_stop (h.spawned pane k' hheld)

theorem step_inv {e : PumpStep} (h : s.Inv) (hund : s.Undisturbed e) (hstep : s.step e = some t) :
    t.Inv := by
  cases e with
  | attachPaneStream i pane =>
    simp only [step,Option.ite_none_right_eq_some,Option.some.injEq] at hstep
    obtain ⟨hi,rfl⟩ := hstep
    exact h.begin hi (by simp) (Finset.erase_subset pane s.detached)
  | abortOld i =>
    obtain ⟨c,hc,hstep⟩ := Option.bind_eq_some_iff.mp hstep
    split at hstep
    · rename_i hphase
      obtain rfl := Option.some.inj hstep
      exact (h.abort c.pane).setPhase hc (by simp [hphase]) (by simp)
    · cases hstep
  | connect i task =>
    obtain ⟨c,hc,hstep⟩ := Option.bind_eq_some_iff.mp hstep
    split at hstep
    · rename_i hphase
      split at hstep
      · obtain rfl := Option.some.inj hstep
        exact h.endCall hc (by simp [hphase])
      · rename_i k
        simp only [Option.ite_none_right_eq_some,Option.some.injEq] at hstep
        obtain ⟨hnew,rfl⟩ := hstep
        exact h.spawn hc (by simp [hphase]) hnew (hund rfl c hc)
    · cases hstep
  | register i =>
    obtain ⟨c,hc,hstep⟩ := Option.bind_eq_some_iff.mp hstep
    split at hstep
    · rename_i k hphase
      obtain rfl := Option.some.inj hstep
      exact h.register hc hphase (hund c hc).1 (hund c hc).2
    · cases hstep
  | detachPaneStream i pane =>
    simp only [step,Option.ite_none_right_eq_some,Option.some.injEq] at hstep
    obtain ⟨hi,rfl⟩ := hstep
    exact h.begin hi (by simp) (Finset.Subset.refl s.detached)
  | abortTask i =>
    obtain ⟨c,hc,hstep⟩ := Option.bind_eq_some_iff.mp hstep
    split at hstep
    · rename_i hphase
      obtain rfl := Option.some.inj hstep
      exact h.detach hc (by simp [hphase])
    · cases hstep
  | pumpEnds k =>
    obtain ⟨pump,hpump,hstep⟩ := Option.bind_eq_some_iff.mp hstep
    simp only [Option.ite_none_right_eq_some,Option.some.injEq] at hstep
    obtain ⟨-,rfl⟩ := hstep
    exact h.pumpEnds k

theorem Inv.onePump (h : s.Inv) : s.OnePump where
  registered pane hidle k hk := by
    rcases h.kept pane k hk with hreg | ⟨i,c,hi,hpane,-⟩
    · exact hreg
    · exact absurd hpane (hidle i c hi)
  detached pane hpane hidle k hk := by
    rcases h.kept pane k hk with hreg | ⟨i,c,hi,hcall,-⟩
    · exact h.detached pane hpane k hreg hk
    · exact absurd hcall (hidle i c hi)

/-! A pump that has fallen out of the map. -/

/-- It runs, is registered for no pane and in no attach's hands. -/
structure Orphan (s : Pumps) (pane : PaneId) (k : Nat) : Prop where
  runs : s.Runs pane k
  unregistered : ∀ q, s.streamTasks.lookup q ≠ some k
  unheld : ∀ q, ¬Held s.calls q k

theorem Orphan.abort (h : s.Orphan pane k) (q : PaneId) : (s.abort q).Orphan pane k where
  runs := runs_abort.mpr ⟨h.unregistered q,h.runs⟩
  unregistered r hreg := h.unregistered r (Table.lookup_erase_eq_some.mp hreg).2
  unheld := h.unheld

theorem Orphan.insertCall (h : s.Orphan pane k) {c' : StreamCall} (hc : c'.phase ≠ .registering k) :
    ∀ q, ¬Held (s.calls.insert i c') q k := by
  intro q hheld
  rcases hheld.of_insert with ⟨-,hd⟩ | hheld
  · exact hc hd
  · exact h.unheld q hheld

/-- No call stops it: it runs until its stream ends. -/
theorem Orphan.step {e : PumpStep} (h : s.Orphan pane k) (he : e ≠ .pumpEnds k)
    (hstep : s.step e = some t) : t.Orphan pane k := by
  cases e with
  | attachPaneStream i q =>
    simp only [Pumps.step,Option.ite_none_right_eq_some,Option.some.injEq] at hstep
    obtain ⟨-,rfl⟩ := hstep
    exact ⟨h.runs,h.unregistered,h.insertCall (by simp)⟩
  | abortOld i =>
    obtain ⟨c,hc,hstep⟩ := Option.bind_eq_some_iff.mp hstep
    split at hstep
    · obtain rfl := Option.some.inj hstep
      have habort := h.abort c.pane
      exact ⟨habort.runs,habort.unregistered,habort.insertCall (by simp)⟩
    · cases hstep
  | connect i task =>
    obtain ⟨c,hc,hstep⟩ := Option.bind_eq_some_iff.mp hstep
    split at hstep
    · split at hstep
      · obtain rfl := Option.some.inj hstep
        exact ⟨h.runs,h.unregistered,fun q hheld => h.unheld q hheld.of_erase⟩
      · rename_i k' _
        simp only [Option.ite_none_right_eq_some,Option.some.injEq] at hstep
        obtain ⟨hnew,rfl⟩ := hstep
        have hne : k ≠ k' := by
          rintro rfl
          have hrun := h.runs
          rw [Runs,hnew] at hrun
          cases hrun
        refine ⟨(AList.lookup_insert_ne hne).trans h.runs,h.unregistered,h.insertCall ?_⟩
        simpa using Ne.symm hne
    · cases hstep
  | register i =>
    obtain ⟨c,hc,hstep⟩ := Option.bind_eq_some_iff.mp hstep
    split at hstep
    · rename_i k' hphase
      obtain rfl := Option.some.inj hstep
      refine ⟨h.runs,fun q hreg => ?_,fun q hheld => h.unheld q hheld.of_erase⟩
      rcases Table.lookup_insert_eq_some.mp hreg with ⟨-,rfl⟩ | ⟨-,hreg⟩
      · exact h.unheld c.pane ⟨i,c,hc,rfl,hphase⟩
      · exact h.unregistered q hreg
    · cases hstep
  | detachPaneStream i q =>
    simp only [Pumps.step,Option.ite_none_right_eq_some,Option.some.injEq] at hstep
    obtain ⟨-,rfl⟩ := hstep
    exact ⟨h.runs,h.unregistered,h.insertCall (by simp)⟩
  | abortTask i =>
    obtain ⟨c,hc,hstep⟩ := Option.bind_eq_some_iff.mp hstep
    split at hstep
    · obtain rfl := Option.some.inj hstep
      have habort := h.abort c.pane
      exact ⟨habort.runs,habort.unregistered,fun q hheld => habort.unheld q hheld.of_erase⟩
    · cases hstep
  | pumpEnds k' =>
    obtain ⟨pump,-,hstep⟩ := Option.bind_eq_some_iff.mp hstep
    simp only [Option.ite_none_right_eq_some,Option.some.injEq] at hstep
    obtain ⟨-,rfl⟩ := hstep
    have hne : k ≠ k' := by
      rintro rfl
      exact he rfl
    exact ⟨runs_stop.mpr ⟨hne,h.runs⟩,h.unregistered,h.unheld⟩

theorem orphan_runs_on {es : List PumpStep} (h : s.Orphan pane k) (hes : .pumpEnds k ∉ es) :
    Always Pumps.step (fun t => t.Orphan pane k) s es := by
  have hends : Along Pumps.step (fun _ e => e ≠ .pumpEnds k) s es := by
    refine along_iff.mpr fun pre e hpre _ _ he => hes ?_
    exact he ▸ hpre.mem (by simp)
  exact hends.invariant (fun _ _ _ h he hstep => h.step he hstep) h

end Pumps

/-- In a run whose attaches are undisturbed a pane has at most one pump at any moment; when no
call is in progress it is the registered one, and none after a detach. -/
theorem one_pump {es : List PumpStep} (h : Along Pumps.step Pumps.Undisturbed .start es) :
    Always Pumps.step (fun s => s.OnePump ∧ s.EmitsOnce) .start es := by
  have hinv := h.invariant (fun s e t hs hund hstep => Pumps.step_inv hs hund hstep)
    Pumps.inv_start
  exact hinv.mono fun s hs => ⟨hs.onePump,hs.once⟩

/-- A reload while the pane is attached, and then a detach. -/
theorem one_pump_reattached : Always Pumps.step (fun s => s.OnePump ∧ s.EmitsOnce) .start
    [.attachPaneStream 0 ⟨1⟩,.abortOld 0,.connect 0 (some 0),.register 0,.attachPaneStream 1 ⟨1⟩,
      .abortOld 1,.connect 1 (some 1),.register 1,.detachPaneStream 2 ⟨1⟩,.abortTask 2] :=
  one_pump (by decide)

/-- Two reloads abort the old pump before either has registered its own. -/
def overlappingAttaches : List PumpStep :=
  [.attachPaneStream 0 ⟨1⟩,.attachPaneStream 1 ⟨1⟩,.abortOld 0,.abortOld 1,.connect 0 (some 0),
    .connect 1 (some 1),.register 0,.register 1]

/-- Both have returned, and the pump of the first runs beside the registered one. -/
theorem replaced_pump_runs : ¬∀ es, Always Pumps.step Pumps.OnePump .start es := by
  intro h
  obtain ⟨t,ht⟩ := Option.isSome_iff_exists.mp
    (show (exec Pumps.step .start overlappingAttaches).isSome by decide)
  have hone := (h overlappingAttaches).last ht
  have hcalls : (exec Pumps.step .start overlappingAttaches).map (fun t => t.calls.entries) =
      some [] := by decide
  have hfirst : (exec Pumps.step .start overlappingAttaches).bind (fun t => t.tasks.lookup 0) =
      some ⟨⟨1⟩,true⟩ := by decide
  have hsecond : (exec Pumps.step .start overlappingAttaches).bind
      (fun t => t.streamTasks.lookup ⟨1⟩) = some 1 := by decide
  rw [ht,Option.map_some,Option.some.injEq] at hcalls
  rw [ht,Option.bind_some] at hfirst hsecond
  have hidle : t.Idle ⟨1⟩ := by
    intro i c hi
    rw [Table.lookup_eq_some,hcalls] at hi
    cases hi
  have hreg := hone.registered ⟨1⟩ hidle 0 hfirst
  rw [hsecond] at hreg
  exact absurd hreg (by decide)

end Pyre.Gui
