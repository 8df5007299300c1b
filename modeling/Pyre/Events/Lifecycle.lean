import Pyre.Events.Bus

/-!
The events of a pane over its life, and the tasks that emit them. A task emits its
events in their order, and between any two of them other tasks may emit theirs.
-/

set_option autoImplicit false

namespace Pyre.Events
open Base

/-- An event as far as its place among the others matters. -/
abbrev Note := PaneId × PaneEventKind

/-- One `Closed` at most, no change after it, and nothing that ends or changes a pane
before it is announced. -/
structure Orderly (trace : List Note) : Prop where
  once : ∀ p, trace.count (p,.closed) ≤ 1
  quiet : ∀ pre p post, trace = pre ++ (p,.closed) :: post →
    (p,.stateChanged) ∉ post ∧ (p,.layoutChanged) ∉ post
  announced : ∀ pre p k post, trace = pre ++ (p,k) :: post → k = .closed ∨ k = .stateChanged →
    (p,.spawned) ∈ pre

/-- What the trace must be like for the event to come next. -/
def Admits (trace : List Note) (e : Note) : Prop :=
  (e.1,.closed) ∉ trace ∧ (e.2 = .closed ∨ e.2 = .stateChanged → (e.1,.spawned) ∈ trace)

theorem orderly_nil : Orderly [] where
  once _ := Nat.zero_le 1
  quiet _ _ _ h := by simp at h
  announced _ _ _ _ h := by simp at h

theorem Orderly.snoc {trace : List Note} {e : Note} (h : Orderly trace) (ha : Admits trace e) :
    Orderly (trace ++ [e]) := by
  refine ⟨fun p => ?_,fun pre p post heq => ?_,fun pre p k post heq hk => ?_⟩
  · rw [List.count_append]
    by_cases he : e = (p,.closed)
    · subst he
      rw [List.count_eq_zero.mpr ha.1,List.count_singleton_self]
    · rw [List.count_singleton]
      simpa [he] using h.once p
  · rcases List.eq_nil_or_concat post with rfl | ⟨post,x,rfl⟩
    · simp
    · rw [List.concat_eq_append,← List.cons_append,← List.append_assoc] at heq
      obtain ⟨htrace,hx⟩ := List.append_inj' heq rfl
      obtain rfl := List.singleton_inj.mp hx
      obtain ⟨hstate,hlayout⟩ := h.quiet pre p post htrace
      have hclosed : (p,PaneEventKind.closed) ∈ trace := by simp [htrace]
      have hne : ∀ k, e ≠ (p,k) := by
        rintro k rfl
        exact ha.1 hclosed
      simp [hstate,hlayout,(hne _).symm]
  · rcases List.eq_nil_or_concat post with rfl | ⟨post,x,rfl⟩
    · obtain ⟨rfl,hx⟩ := List.append_inj' heq rfl
      obtain rfl := List.singleton_inj.mp hx
      exact ha.2 hk
    · rw [List.concat_eq_append,← List.cons_append,← List.append_assoc] at heq
      exact h.announced pre p k post (List.append_inj' heq rfl).1 hk

/-- What is emitted once a pane has ended; `changed` tells whether its window had a tree. -/
def closedTask (pane : PaneId) (changed : Bool) : List Note :=
  if changed then [(pane,.layoutChanged),(pane,.closed)] else [(pane,.closed)]

theorem pane_of_closedTask {pane p : PaneId} {changed : Bool} {k : PaneEventKind}
    (h : (p,k) ∈ closedTask pane changed) : p = pane := by
  cases changed with
  | false => simpa [closedTask] using congrArg Prod.fst (List.mem_singleton.mp h)
  | true =>
    rcases List.mem_cons.mp h with heq | h
    · exact congrArg Prod.fst heq
    · exact congrArg Prod.fst (List.mem_singleton.mp h)

theorem last_closedTask {pane p : PaneId} {changed : Bool} {pre post : List Note}
    (h : closedTask pane changed = pre ++ (p,.closed) :: post) : post = [] := by
  cases changed with
  | false =>
    cases pre with
    | nil => exact (List.cons.inj h).2.symm
    | cons e pre => simp [closedTask] at h
  | true =>
    cases pre with
    | nil => simp [closedTask] at h
    | cons e pre =>
      cases pre with
      | nil =>
        obtain ⟨-,h⟩ := List.cons.inj h
        exact (List.cons.inj h).2.symm
      | cons e' pre => simp [closedTask] at h

/-- What has been emitted, and what the tasks that run have yet to emit. -/
structure Emitters where
  trace : List Note
  tasks : List (List Note)
  deriving DecidableEq, Repr

namespace Emitters

def idle : Emitters := ⟨[],[]⟩

def start (s : Emitters) (task : List Note) : Emitters := { s with tasks := s.tasks ++ [task] }

/-- The task at the place emits its next event. -/
def emit (s : Emitters) (i : Nat) : Option Emitters :=
  match s.tasks[i]? with
  | some (e :: rest) => some ⟨s.trace ++ [e],s.tasks.set i rest⟩
  | some [] | none => none

/-- A task has an event of the pane yet to emit. -/
def Pending (s : Emitters) (p : PaneId) : Prop := ∃ task ∈ s.tasks, ∃ k, (p,k) ∈ task

instance (s : Emitters) (p : PaneId) : Decidable (s.Pending p) :=
  decidable_of_iff (∃ task ∈ s.tasks, ∃ e ∈ task, e.1 = p) (by simp [Pending])

/-- The event has been emitted or will be. -/
def Noted (s : Emitters) (e : Note) : Prop := e ∈ s.trace ∨ ∃ task ∈ s.tasks, e ∈ task

/-- The task may run at any time, if no other one closes its panes. -/
structure Fits (trace task : List Note) : Prop where
  last : ∀ pre p post, task = pre ++ (p,.closed) :: post → ∀ k, (p,k) ∉ post
  unclosed : ∀ p k, (p,k) ∈ task → (p,.closed) ∉ trace
  announced : ∀ pre p k post, task = pre ++ (p,k) :: post → k = .closed ∨ k = .stateChanged →
    (p,.spawned) ∈ trace ∨ (p,.spawned) ∈ pre

/-- The tasks may run in any order: the one that closes a pane is alone with it. -/
structure Safe (s : Emitters) : Prop where
  orderly : Orderly s.trace
  fits : ∀ task ∈ s.tasks, Fits s.trace task
  alone : ∀ (i j : Nat) (task task' : List Note) (p : PaneId) (k : PaneEventKind),
    s.tasks[i]? = some task → s.tasks[j]? = some task' →
    (p,.closed) ∈ task → (p,k) ∈ task' → i = j

variable {s t : Emitters} {task : List Note} {e : Note} {p : PaneId} {i : Nat}

theorem safe_idle : idle.Safe where
  orderly := orderly_nil
  fits _ h := by simp [idle] at h
  alone _ _ _ _ _ _ h := by simp [idle] at h

theorem Fits.tail (h : Fits s.trace (e :: task)) (hclosed : e.2 = .closed → ∀ k, (e.1,k) ∉ task) :
    Fits (s.trace ++ [e]) task where
  last pre p post heq := h.last (e :: pre) p post (by rw [heq]; rfl)
  unclosed p k hmem := by
    rw [List.mem_append,List.mem_singleton,not_or]
    refine ⟨h.unclosed p k (List.mem_cons_of_mem e hmem),?_⟩
    rintro rfl
    exact hclosed rfl k hmem
  announced pre p k post heq hk := by
    rcases h.announced (e :: pre) p k post (by rw [heq]; rfl) hk with hs | hs
    · exact Or.inl (List.mem_append_left _ hs)
    · rcases List.mem_cons.mp hs with rfl | hs
      · exact Or.inl (List.mem_append_right _ List.mem_cons_self)
      · exact Or.inr hs

theorem emit_eq_some (h : s.emit i = some t) :
    ∃ e rest, s.tasks[i]? = some (e :: rest) ∧ t = ⟨s.trace ++ [e],s.tasks.set i rest⟩ := by
  unfold emit at h
  split at h
  · rename_i e rest hi
    exact ⟨e,rest,hi,(Option.some.inj h).symm⟩
  · cases h
  · cases h

theorem mem_tasks_set {rest task' : List Note} (hi : s.tasks[i]? = some (e :: rest))
    (h : task' ∈ s.tasks.set i rest) : ∃ task ∈ s.tasks, task' ⊆ task := by
  rcases List.mem_or_eq_of_mem_set h with h | rfl
  · exact ⟨task',h,List.Subset.refl _⟩
  · exact ⟨e :: task',List.mem_of_getElem? hi,List.subset_cons_self _ _⟩

theorem Safe.emit (h : s.Safe) (hs : s.emit i = some t) : t.Safe := by
  obtain ⟨e,rest,hi,rfl⟩ := emit_eq_some hs
  have hfit := h.fits _ (List.mem_of_getElem? hi)
  have hlast : e.2 = .closed → ∀ k, (e.1,k) ∉ rest := by
    intro hk
    obtain ⟨p,k⟩ := e
    obtain rfl : k = .closed := hk
    exact hfit.last [] p rest rfl
  have hadmits : Admits s.trace e := by
    refine ⟨hfit.unclosed e.1 e.2 List.mem_cons_self,fun hk => ?_⟩
    exact (hfit.announced [] e.1 e.2 rest rfl hk).resolve_right List.not_mem_nil
  refine ⟨h.orderly.snoc hadmits,fun task htask => ?_,fun j j' task task' p k hj hj' hp hp' => ?_⟩
  · obtain ⟨j,hj⟩ := List.mem_iff_getElem?.mp htask
    rw [List.getElem?_set] at hj
    split at hj
    · rename_i hij
      rw [Option.ite_none_right_eq_some,Option.some.injEq] at hj
      exact hj.2 ▸ hfit.tail hlast
    · rename_i hij
      have hold := h.fits task (List.mem_of_getElem? hj)
      refine ⟨hold.last,fun p k hmem => ?_,fun pre p k post heq hk => ?_⟩
      · rw [List.mem_append,List.mem_singleton,not_or]
        refine ⟨hold.unclosed p k hmem,?_⟩
        -- the task that closes a pane is the only one with events of it
        rintro rfl
        exact hij (h.alone i j _ _ p k hi hj List.mem_cons_self hmem)
      · exact (hold.announced pre p k post heq hk).imp_left (List.mem_append_left _)
  · have hsub : ∀ {j : Nat} {task : List Note}, (s.tasks.set i rest)[j]? = some task →
        ∃ task₀ : List Note, s.tasks[j]? = some task₀ ∧ task ⊆ task₀ := by
      intro j task hj
      rw [List.getElem?_set] at hj
      split at hj
      · rename_i hij
        rw [Option.ite_none_right_eq_some,Option.some.injEq] at hj
        exact ⟨e :: rest,hij ▸ hi,hj.2 ▸ List.subset_cons_self _ _⟩
      · exact ⟨task,hj,List.Subset.refl _⟩
    obtain ⟨task₀,hj,hsub₀⟩ := hsub hj
    obtain ⟨task₁,hj',hsub₁⟩ := hsub hj'
    exact h.alone j j' task₀ task₁ p k hj hj' (hsub₀ hp) (hsub₁ hp')

/-- A task may start if no other one closes its panes, and none has events of the panes
that it closes. -/
theorem Safe.start (h : s.Safe) (hfit : Fits s.trace task)
    (hopen : ∀ p k, (p,k) ∈ task → ∀ task' ∈ s.tasks, (p,.closed) ∉ task')
    (hends : ∀ p, (p,.closed) ∈ task → ¬s.Pending p) : (s.start task).Safe := by
  refine ⟨h.orderly,fun task' hmem => ?_,fun i j task₀ task₁ p k hi hj hp hp' => ?_⟩
  · rcases List.mem_append.mp hmem with hmem | hmem
    · exact h.fits task' hmem
    · exact List.mem_singleton.mp hmem ▸ hfit
  · have hcases : ∀ {j : Nat} {task' : List Note}, (s.tasks ++ [task])[j]? = some task' →
        s.tasks[j]? = some task' ∨ j = s.tasks.length ∧ task' = task := by
      intro j task' hj
      rw [List.getElem?_append] at hj
      split at hj
      · exact Or.inl hj
      · rename_i hlen
        rw [List.getElem?_singleton,Option.ite_none_right_eq_some,Option.some.injEq] at hj
        exact Or.inr ⟨by omega,hj.2.symm⟩
    rcases hcases hi with hold | ⟨hlen,rfl⟩
    · rcases hcases hj with hold' | ⟨-,rfl⟩
      · exact h.alone i j task₀ task₁ p k hold hold' hp hp'
      · exact absurd hp (hopen p k hp' task₀ (List.mem_of_getElem? hold))
    · rcases hcases hj with hold' | ⟨hlen',-⟩
      · exact absurd ⟨task₁,List.mem_of_getElem? hold',k,hp'⟩ (hends p hp)
      · exact hlen.trans hlen'.symm

/-- A task about panes that are announced and not closed. -/
theorem Safe.start_known (h : s.Safe)
    (hknown : ∀ p k, (p,k) ∈ task → (p,.spawned) ∈ s.trace ∧ ¬s.Noted (p,.closed))
    (hlast : ∀ pre p post, task = pre ++ (p,.closed) :: post → ∀ k, (p,k) ∉ post)
    (hends : ∀ p, (p,.closed) ∈ task → ¬s.Pending p) : (s.start task).Safe := by
  refine h.start ⟨hlast,fun p k hp hc => (hknown p k hp).2 (Or.inl hc),?_⟩ ?_ hends
  · intro pre p k post heq _
    exact Or.inl (hknown p k (by simp [heq])).1
  · intro p k hp task' htask' hc
    exact (hknown p k hp).2 (Or.inr ⟨task',htask',hc⟩)

/-- A task that neither closes a pane nor reports a change of its state. -/
theorem Safe.start_open (h : s.Safe) (hopen : ∀ p k, (p,k) ∈ task → ¬s.Noted (p,.closed))
    (hkind : ∀ p k, (p,k) ∈ task → k ≠ .closed ∧ k ≠ .stateChanged) : (s.start task).Safe := by
  refine h.start ⟨?_,fun p k hp hc => hopen p k hp (Or.inl hc),?_⟩ ?_ ?_
  · intro pre p post heq
    exact absurd rfl (hkind p .closed (by simp [heq])).1
  · intro pre p k post heq hk
    obtain ⟨hclosed,hstate⟩ := hkind p k (by simp [heq])
    rcases hk with rfl | rfl
    · exact absurd rfl hclosed
    · exact absurd rfl hstate
  · intro p k hp task' htask' hc
    exact hopen p k hp (Or.inr ⟨task',htask',hc⟩)
  · intro p hp
    exact absurd rfl (hkind p .closed hp).1

/-- To emit moves an event from the task to the trace. -/
theorem noted_of_emit (h : s.emit i = some t) {e : Note} (he : t.Noted e) : s.Noted e := by
  obtain ⟨e',rest,hi,rfl⟩ := emit_eq_some h
  rcases he with he | ⟨task,htask,he⟩
  · rcases List.mem_append.mp he with he | he
    · exact Or.inl he
    · exact Or.inr ⟨_,List.mem_of_getElem? hi,List.mem_singleton.mp he ▸ List.mem_cons_self⟩
  · obtain ⟨task',htask',hsub⟩ := mem_tasks_set hi htask
    exact Or.inr ⟨task',htask',hsub he⟩

theorem noted_emit (h : s.emit i = some t) {e : Note} (he : s.Noted e) : t.Noted e := by
  obtain ⟨e',rest,hi,rfl⟩ := emit_eq_some h
  obtain ⟨hlen,hget⟩ := List.getElem?_eq_some_iff.mp hi
  rcases he with he | ⟨task,htask,he⟩
  · exact Or.inl (List.mem_append_left _ he)
  · obtain ⟨j,hj⟩ := List.mem_iff_getElem?.mp htask
    by_cases hij : i = j
    · subst hij
      obtain rfl := Option.some.inj (hi.symm.trans hj)
      rcases List.mem_cons.mp he with rfl | he
      · exact Or.inl (List.mem_append_right _ List.mem_cons_self)
      · exact Or.inr ⟨rest,List.mem_set hlen rest,he⟩
    · refine Or.inr ⟨task,List.mem_of_getElem? (i := j) ?_,he⟩
      rw [List.getElem?_set_ne hij,hj]

theorem pending_of_emit (h : s.emit i = some t) (hp : t.Pending p) : s.Pending p := by
  obtain ⟨e,rest,hi,rfl⟩ := emit_eq_some h
  obtain ⟨task,htask,k,hk⟩ := hp
  obtain ⟨task',htask',hsub⟩ := mem_tasks_set hi htask
  exact ⟨task',htask',k,hsub hk⟩

theorem noted_start : (s.start task).Noted e ↔ s.Noted e ∨ e ∈ task := by
  simp only [Noted,start,List.mem_append,List.mem_singleton,or_and_right,exists_or,
    exists_eq_left,or_assoc]

theorem pending_start : (s.start task).Pending p ↔ s.Pending p ∨ ∃ k, (p,k) ∈ task := by
  simp only [Pending,start,List.mem_append,List.mem_singleton,or_and_right,exists_or,
    exists_eq_left]

end Emitters

end Pyre.Events
