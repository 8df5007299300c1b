import Mathlib.Data.List.Nodup
import Pyre.Base.Table
import Pyre.Events.Bus

/-!
The notifications of the GUI. Two sources write the pane states of its store: the replies to
polls, which have all panes as they were when the daemon answered, and the events, which are
applied in order and of which alone a notification is made.
-/

set_option autoImplicit false

namespace Pyre.Gui
open Base Events

structure PaneStateInfo where
  state : PaneStateKind
  title : Option String
  agent : Option String
  name : Option String
  deriving DecidableEq, Repr

structure LastNotify where
  state : PaneStateKind
  time : Nat
  deriving DecidableEq, Repr

/-- What the daemon has of a pane, with the number of its last transition. -/
structure DaemonPane where
  info : PaneStateInfo
  last : Option Nat
  deriving DecidableEq, Repr

inductive StateNotice where
  | stateChanged (n : Nat) (pane : PaneId) (state : PaneStateKind)
  | closed (pane : PaneId)
  deriving DecidableEq, Repr

structure Notification where
  n : Nat
  pane : PaneId
  title : String
  deriving DecidableEq, Repr

/-- A transition whose event was applied, with what was the case then. -/
structure AppliedEvent where
  n : Nat
  next : PaneStateKind
  focused : Bool
  debounced : Bool
  deriving DecidableEq, Repr

/-- The daemon, the events that are still to be applied and the polls in flight, with what was
answered; the store and the variables of the module. `reported` are the transitions that were
the last of their pane in the answer to a poll that has been applied. -/
structure NotifyState where
  daemon : Table PaneId DaemonPane
  transitions : List (PaneId × PaneStateKind)
  pending : List StateNotice
  polls : List (Option (Table PaneId DaemonPane))
  paneStates : Table PaneId PaneStateInfo
  focusedPane : Option PaneId
  hidden : Bool
  enabled : Bool
  lastByPane : Table PaneId LastNotify
  sent : List Notification
  applied : List AppliedEvent
  reported : List Nat

/-- `spawn`, `change`, `describe` and `close` are the daemon's; `now` is what the clock says. -/
inductive NotifyStep where
  | spawn (pane : PaneId) (info : PaneStateInfo)
  | change (pane : PaneId) (state : PaneStateKind)
  | describe (pane : PaneId) (title agent name : Option String)
  | close (pane : PaneId)
  | poll
  | answer (i : Nat)
  | reply (i : Nat)
  | fail (i : Nat)
  | applyEvent (now : Nat)
  | focus (pane : Option PaneId)
  | hide (hidden : Bool)
  deriving DecidableEq, Repr

/-- States that warrant a notification, with its title. -/
def notifyTitle : PaneStateKind → Option String
  | .done => some "Pane finished"
  | .waitingInput => some "Needs your input"
  | .running | .idle | .interactive | .crashed => none

def debounceMs : Nat := 4000

/-- The gate of the poll: the same panes, with the same fields. -/
def paneStatesEqual (a b : Table PaneId PaneStateInfo) : Bool :=
  a.entries.length = b.entries.length && a.entries.all fun e => b.lookup e.1 = some e.2

/-- The transition of an unfocused pane into a state of interest, outside the window. -/
def AppliedEvent.Due (e : AppliedEvent) : Prop :=
  (notifyTitle e.next).isSome ∧ e.focused = false ∧ e.debounced = false

namespace NotifyState

def start : NotifyState where
  daemon := ∅
  transitions := []
  pending := []
  polls := []
  paneStates := ∅
  focusedPane := none
  hidden := false
  enabled := true
  lastByPane := ∅
  sent := []
  applied := []
  reported := []

/-- A repeat for the pane and the state inside the window. -/
def Debounced (s : NotifyState) (pane : PaneId) (next : PaneStateKind) (now : Nat) : Prop :=
  ∃ last ∈ s.lastByPane.lookup pane, last.state = next ∧ now < last.time+debounceMs

instance (s : NotifyState) (pane : PaneId) (next : PaneStateKind) (now : Nat) :
    Decidable (s.Debounced pane next now) := inferInstanceAs (Decidable (∃ _ ∈ _, _ ∧ _))

def remember (s : NotifyState) (pane : PaneId) (next : PaneStateKind) (now : Nat) : NotifyState :=
  { s with lastByPane := s.lastByPane.insert pane ⟨next,now⟩ }

/-- `n` is the transition that the event is of. -/
def maybeNotifyTransition (s : NotifyState) (n : Nat) (pane : PaneId)
    (prev : Option PaneStateKind) (next : PaneStateKind) (now : Nat) : NotifyState :=
  if s.enabled then
    match notifyTitle next, prev with
    | none, _ => s
    | some _, none => s.remember pane next now
    | some title, some prev =>
      if prev = next then s
      else if next = .done ∧ s.focusedPane = some pane ∧ !s.hidden then s.remember pane next now
      else if s.Debounced pane next now then s
      else { s.remember pane next now with sent := s.sent ++ [⟨n,pane,title⟩] }
  else s

def forgetPane (s : NotifyState) (pane : PaneId) : NotifyState :=
  { s with lastByPane := s.lastByPane.erase pane }

/-- The `state_changed` of `applyLifecycleEvent`. -/
def stateChanged (s : NotifyState) (n : Nat) (pane : PaneId) (next : PaneStateKind) (now : Nat) :
    NotifyState :=
  let prev := s.paneStates.lookup pane
  let info : PaneStateInfo :=
    ⟨next,prev.bind PaneStateInfo.title,prev.bind PaneStateInfo.agent,prev.bind PaneStateInfo.name⟩
  let entry : AppliedEvent :=
    ⟨n,next,s.focusedPane = some pane,s.Debounced pane next now⟩
  { s with
    paneStates := s.paneStates.insert pane info
    applied := s.applied ++ [entry] }.maybeNotifyTransition n pane (prev.map PaneStateInfo.state)
      next now

/-- `reloadPaneStates` once it is answered. -/
def reloadPaneStates (s : NotifyState) (answer : Table PaneId DaemonPane) : NotifyState :=
  let map : Table PaneId PaneStateInfo :=
    (answer.entries.map fun e => (e.1,e.2.info)).foldl (fun m e => m.insert e.1 e.2) ∅
  { s with
    paneStates := if paneStatesEqual s.paneStates map then s.paneStates else map
    reported := answer.entries.filterMap (fun e => e.2.last) ++ s.reported }

def step (s : NotifyState) : NotifyStep → Option NotifyState
  | .spawn pane info =>
    if s.daemon.lookup pane = none then
      some { s with daemon := s.daemon.insert pane ⟨info,none⟩ }
    else none
  | .change pane state => (s.daemon.lookup pane).bind fun p =>
    if p.info.state = state then none
    else some { s with
      daemon := s.daemon.insert pane ⟨{ p.info with state },some s.transitions.length⟩
      transitions := s.transitions ++ [(pane,state)]
      pending := s.pending ++ [.stateChanged s.transitions.length pane state] }
  | .describe pane title agent name => (s.daemon.lookup pane).map fun p =>
    { s with daemon := s.daemon.insert pane ⟨⟨p.info.state,title,agent,name⟩,p.last⟩ }
  | .close pane =>
    if (s.daemon.lookup pane).isSome then
      some { s with daemon := s.daemon.erase pane, pending := s.pending ++ [.closed pane] }
    else none
  | .poll => some { s with polls := s.polls ++ [none] }
  | .answer i =>
    if s.polls[i]? = some none then some { s with polls := s.polls.set i (some s.daemon) } else none
  | .reply i => (s.polls[i]?.bind id).map fun answer =>
    { s with polls := s.polls.eraseIdx i }.reloadPaneStates answer
  | .fail i => s.polls[i]?.map fun _ => { s with polls := s.polls.eraseIdx i }
  | .applyEvent now =>
    match s.pending with
    | [] => none
    | .stateChanged n pane state :: rest =>
      some ({ s with pending := rest }.stateChanged n pane state now)
    | .closed pane :: rest => some ({ s with pending := rest }.forgetPane pane)
  | .focus pane => some { s with focusedPane := pane }
  | .hide hidden => some { s with hidden }

/-- `once`: of each such transition that both sources have reported there is one notification.
`real`: each is of a transition of the daemon, and no two of the same. -/
structure Exact (s : NotifyState) : Prop where
  once : ∀ e ∈ s.applied, e.Due → e.n ∈ s.reported → (s.sent.map Notification.n).count e.n = 1
  real : ∀ m ∈ s.sent, ∃ state, s.transitions[m.n]? = some (m.pane,state) ∧
    notifyTitle state = some m.title
  distinct : (s.sent.map Notification.n).Nodup

/-- What makes the event of such a transition, before it is applied. -/
def DueNow (s : NotifyState) (pane : PaneId) (next : PaneStateKind) (now : Nat) : Prop :=
  (notifyTitle next).isSome ∧ s.focusedPane ≠ some pane ∧ ¬s.Debounced pane next now

/-- When it is applied the store has the pane, in another state: no poll has brought the new one
before. -/
def Ahead (s : NotifyState) : NotifyStep → Prop
  | .applyEvent now => ∀ n pane next, s.pending.head? = some (.stateChanged n pane next) →
    s.DueNow pane next now → ∃ info, s.paneStates.lookup pane = some info ∧ info.state ≠ next
  | _ => True

variable {s t : NotifyState} {n : Nat} {pane : PaneId} {next : PaneStateKind} {now : Nat}

/-! What an event does. -/

/-- The transitions that are numbered in a list of events. -/
def numbers (events : List StateNotice) : List Nat := events.filterMap fun
  | .stateChanged n _ _ => some n
  | .closed _ => none

/-- Nothing but the memory of what was notified differs, but for one notification if it is due. -/
structure Notifies (s t : NotifyState) (n : Nat) (pane : PaneId) (next : PaneStateKind)
    (due : Prop) : Prop where
  transitions : t.transitions = s.transitions
  pending : t.pending = s.pending
  applied : t.applied = s.applied
  reported : t.reported = s.reported
  enabled : t.enabled = s.enabled
  sends : due → ∃ title, notifyTitle next = some title ∧ t.sent = s.sent ++ [⟨n,pane,title⟩]
  silent : ¬due → t.sent = s.sent

theorem notifies_silent {due : Prop} (h : ¬due) : s.Notifies s n pane next due :=
  ⟨rfl,rfl,rfl,rfl,rfl,fun hd => absurd hd h,fun _ => rfl⟩

theorem notifies_remember {due : Prop} (h : ¬due) :
    s.Notifies (s.remember pane next now) n pane next due :=
  ⟨rfl,rfl,rfl,rfl,rfl,fun hd => absurd hd h,fun _ => rfl⟩

theorem notifies_maybe (hs : s.enabled = true) (prev : Option PaneStateKind) :
    s.Notifies (s.maybeNotifyTransition n pane prev next now) n pane next
      ((notifyTitle next).isSome ∧ (∃ p ∈ prev, p ≠ next) ∧
        ¬(next = .done ∧ s.focusedPane = some pane ∧ s.hidden = false) ∧
        ¬s.Debounced pane next now) := by
  unfold maybeNotifyTransition
  rw [if_pos hs]
  split
  · rename_i htitle
    exact notifies_silent (by simp [htitle])
  · exact notifies_remember (by simp)
  · rename_i title prev htitle
    split
    · rename_i heq
      exact notifies_silent (by simp [heq])
    · rename_i hne
      split
      · rename_i hfocused
        refine notifies_remember ?_
        rintro ⟨-,-,hnot,-⟩
        exact hnot (by simpa using hfocused)
      · rename_i hunfocused
        split
        · rename_i hdeb
          exact notifies_silent (by simp [hdeb])
        · rename_i hdeb
          refine ⟨rfl,rfl,rfl,rfl,rfl,fun _ => ⟨title,htitle,rfl⟩,fun hnot => absurd ?_ hnot⟩
          exact ⟨by simp [htitle],⟨prev,rfl,hne⟩,by simpa using hunfocused,hdeb⟩

/-! What holds of the numbers of transitions. -/

structure Numbered (s : NotifyState) : Prop where
  enabled : s.enabled = true
  pending : ∀ n pane next, StateNotice.stateChanged n pane next ∈ s.pending →
    s.transitions[n]? = some (pane,next)
  distinct : (s.applied.map AppliedEvent.n ++ numbers s.pending).Nodup
  begun : ∀ e ∈ s.applied, e.n < s.transitions.length
  sent : ∀ m ∈ s.sent, m.n ∈ s.applied.map AppliedEvent.n
  real : ∀ m ∈ s.sent, ∃ state, s.transitions[m.n]? = some (m.pane,state) ∧
    notifyTitle state = some m.title
  once : (s.sent.map Notification.n).Nodup

theorem numbered_start : start.Numbered where
  enabled := rfl
  pending _ _ _ h := absurd h List.not_mem_nil
  distinct := List.nodup_nil
  begun _ h := absurd h List.not_mem_nil
  sent _ h := absurd h List.not_mem_nil
  real _ h := absurd h List.not_mem_nil
  once := List.nodup_nil

theorem mem_numbers {events : List StateNotice} :
    n ∈ numbers events ↔ ∃ pane next, StateNotice.stateChanged n pane next ∈ events := by
  simp only [numbers,List.mem_filterMap]
  constructor
  · rintro ⟨e,he,hn⟩
    cases e with
    | stateChanged m pane next =>
      obtain rfl := Option.some.inj hn
      exact ⟨pane,next,he⟩
    | closed pane => cases hn
  · rintro ⟨pane,next,he⟩
    exact ⟨_,he,rfl⟩

/-- What changes nothing of these. -/
theorem Numbered.congr (h : s.Numbered) (henabled : t.enabled = s.enabled)
    (hpending : t.pending = s.pending) (htransitions : t.transitions = s.transitions)
    (happlied : t.applied = s.applied) (hsent : t.sent = s.sent) : t.Numbered :=
  ⟨henabled.trans h.enabled,by rw [hpending,htransitions]; exact h.pending,
    by rw [happlied,hpending]; exact h.distinct,by rw [happlied,htransitions]; exact h.begun,
    by rw [hsent,happlied]; exact h.sent,
    by rw [hsent,htransitions]; exact h.real,by rw [hsent]; exact h.once⟩

/-- The daemon's transition, which takes the next number. -/
theorem Numbered.change (h : s.Numbered) (pane : PaneId) (next : PaneStateKind)
    (daemon : Table PaneId DaemonPane) : Numbered
    { s with
      daemon
      transitions := s.transitions ++ [(pane,next)]
      pending := s.pending ++ [.stateChanged s.transitions.length pane next] } := by
  have hold : ∀ (m : Nat) (x : PaneId × PaneStateKind), s.transitions[m]? = some x →
      (s.transitions ++ [(pane,next)])[m]? = some x := by
    intro m x hm
    rw [List.getElem?_append_left (List.getElem?_eq_some_iff.mp hm).1]
    exact hm
  have hbound : ∀ m ∈ s.applied.map AppliedEvent.n ++ numbers s.pending,
      m < s.transitions.length := by
    intro m hm
    rcases List.mem_append.mp hm with hm | hm
    · obtain ⟨e,he,rfl⟩ := List.mem_map.mp hm
      exact h.begun e he
    · obtain ⟨q,st,hm⟩ := mem_numbers.mp hm
      exact (List.getElem?_eq_some_iff.mp (h.pending m q st hm)).1
  refine ⟨h.enabled,fun m q st hm => ?_,?_,fun e he => ?_,h.sent,fun m hm => ?_,h.once⟩
  · rcases List.mem_append.mp hm with hm | hm
    · exact hold m _ (h.pending m q st hm)
    · obtain ⟨rfl,rfl,rfl⟩ := StateNotice.stateChanged.inj (List.mem_singleton.mp hm)
      simp
  · have hnumbers : numbers (s.pending ++ [.stateChanged s.transitions.length pane next]) =
        numbers s.pending ++ [s.transitions.length] := by simp [numbers]
    rw [hnumbers,← List.append_assoc,List.nodup_append]
    refine ⟨h.distinct,List.nodup_singleton _,fun m hm m' hm' => ?_⟩
    obtain rfl := List.mem_singleton.mp hm'
    exact (hbound m hm).ne
  · rw [List.length_append]
    exact Nat.lt_add_right _ (h.begun e he)
  · obtain ⟨st,hst,htitle⟩ := h.real m hm
    exact ⟨st,hold m.n _ hst,htitle⟩

/-- An event is applied: its entry, and a notification if the store had the pane in another
state. -/
structure Applies (s t : NotifyState) (rest : List StateNotice) (n : Nat) (pane : PaneId)
    (next : PaneStateKind) (now : Nat) : Prop where
  enabled : t.enabled = s.enabled
  transitions : t.transitions = s.transitions
  pending : t.pending = rest
  reported : t.reported = s.reported
  applied : ∃ e : AppliedEvent, e.n = n ∧ t.applied = s.applied ++ [e] ∧
    (e.Due ↔ s.DueNow pane next now)
  sent : t.sent = s.sent ∨
    ∃ title, notifyTitle next = some title ∧ t.sent = s.sent ++ [⟨n,pane,title⟩]
  due : s.DueNow pane next now →
    (t.sent ≠ s.sent ↔ ∃ info, s.paneStates.lookup pane = some info ∧ info.state ≠ next)

theorem applies_stateChanged (hs : s.enabled = true) (rest : List StateNotice) :
    s.Applies ({ s with pending := rest }.stateChanged n pane next now) rest n pane next now := by
  set u := { s with pending := rest }.stateChanged n pane next now with hu
  let v : NotifyState :=
    { s with
      pending := rest
      paneStates := s.paneStates.insert pane ⟨next,
        (s.paneStates.lookup pane).bind PaneStateInfo.title,
        (s.paneStates.lookup pane).bind PaneStateInfo.agent,
        (s.paneStates.lookup pane).bind PaneStateInfo.name⟩
      applied := s.applied ++ [⟨n,next,s.focusedPane = some pane,s.Debounced pane next now⟩] }
  have hn : v.Notifies u n pane next _ :=
    notifies_maybe (s := v) hs ((s.paneStates.lookup pane).map PaneStateInfo.state)
  refine ⟨hn.enabled,hn.transitions,hn.pending,hn.reported,
    ⟨_,rfl,hn.applied,by simp [AppliedEvent.Due,DueNow]⟩,?_,fun hdue => ?_⟩
  · by_contra hno
    rw [not_or] at hno
    exact hno.1 (hn.silent fun hd => hno.2 (hn.sends hd))
  · obtain ⟨hsome,hfocus,hdeb⟩ := hdue
    constructor
    · intro hne
      by_contra hno
      refine hne (hn.silent ?_)
      rintro ⟨-,⟨p,hp,hpn⟩,-,-⟩
      obtain ⟨info,hinfo,rfl⟩ := Option.map_eq_some_iff.mp hp
      exact hno ⟨info,hinfo,hpn⟩
    · rintro ⟨info,hinfo,hne⟩ heq
      obtain ⟨title,-,hsent⟩ := hn.sends ⟨hsome,⟨info.state,by simp [hinfo],hne⟩,
        fun hf => hfocus hf.2.1,hdeb⟩
      rw [hsent] at heq
      exact absurd (congrArg List.length heq) (by simp [v])

/-- The number of an event that is pending is new. -/
theorem Numbered.fresh (h : s.Numbered) {rest : List StateNotice}
    (hp : s.pending = .stateChanged n pane next :: rest) :
    n ∉ s.applied.map AppliedEvent.n ∧ n ∉ s.sent.map Notification.n := by
  have hnumbers : numbers s.pending = n :: numbers rest := by rw [hp]; rfl
  have hdistinct := h.distinct
  rw [hnumbers] at hdistinct
  have hnew : n ∉ s.applied.map AppliedEvent.n := fun hmem =>
    (List.nodup_append.mp hdistinct).2.2 _ hmem _ List.mem_cons_self rfl
  refine ⟨hnew,fun hmem => ?_⟩
  obtain ⟨m,hm,rfl⟩ := List.mem_map.mp hmem
  exact hnew (h.sent m hm)

theorem Numbered.applies (h : s.Numbered) {rest : List StateNotice}
    (hp : s.pending = .stateChanged n pane next :: rest) (ha : s.Applies t rest n pane next now) :
    t.Numbered := by
  obtain ⟨e,rfl,happlied,-⟩ := ha.applied
  have htransition := h.pending e.n pane next (by rw [hp]; exact List.mem_cons_self)
  have hnumbers : numbers s.pending = e.n :: numbers rest := by rw [hp]; rfl
  have hdistinct := h.distinct
  rw [hnumbers] at hdistinct
  have hmap : t.applied.map AppliedEvent.n = s.applied.map AppliedEvent.n ++ [e.n] := by
    rw [happlied,List.map_append]
    rfl
  refine ⟨ha.enabled.trans h.enabled,?_,?_,?_,?_,?_,?_⟩
  · intro m q st hm
    rw [ha.pending] at hm
    rw [ha.transitions]
    exact h.pending m q st (by rw [hp]; exact List.mem_cons_of_mem _ hm)
  · rwa [hmap,ha.pending,List.append_assoc,List.singleton_append]
  · rw [happlied,ha.transitions]
    intro e' he'
    rcases List.mem_append.mp he' with he' | he'
    · exact h.begun e' he'
    · obtain rfl := List.mem_singleton.mp he'
      exact (List.getElem?_eq_some_iff.mp htransition).1
  · intro m hm
    rw [hmap,List.mem_append,List.mem_singleton]
    rcases ha.sent with hsent | ⟨title,-,hsent⟩
    · exact Or.inl (h.sent m (hsent ▸ hm))
    · rw [hsent] at hm
      rcases List.mem_append.mp hm with hm | hm
      · exact Or.inl (h.sent m hm)
      · obtain rfl := List.mem_singleton.mp hm
        exact Or.inr rfl
  · rw [ha.transitions]
    intro m hm
    rcases ha.sent with hsent | ⟨title,htitle,hsent⟩
    · exact h.real m (hsent ▸ hm)
    · rw [hsent] at hm
      rcases List.mem_append.mp hm with hm | hm
      · exact h.real m hm
      · obtain rfl := List.mem_singleton.mp hm
        exact ⟨next,htransition,htitle⟩
  · rcases ha.sent with hsent | ⟨title,-,hsent⟩
    · rw [hsent]
      exact h.once
    · rw [hsent,List.map_append,List.nodup_append]
      refine ⟨h.once,List.nodup_singleton _,fun m hm m' hm' => ?_⟩
      rintro rfl
      obtain rfl := List.mem_singleton.mp hm'
      exact (h.fresh hp).2 hm

/-- A step may take an event that has no number. -/
theorem Numbered.close (h : s.Numbered) (pane : PaneId) (daemon : Table PaneId DaemonPane) :
    Numbered { s with daemon, pending := s.pending ++ [.closed pane] } := by
  have hnumbers : numbers (s.pending ++ [.closed pane]) = numbers s.pending := by simp [numbers]
  refine ⟨h.enabled,fun m q st hm => ?_,?_,h.begun,h.sent,h.real,h.once⟩
  · rcases List.mem_append.mp hm with hm | hm
    · exact h.pending m q st hm
    · cases List.mem_singleton.mp hm
  · rw [hnumbers]
    exact h.distinct

theorem Numbered.closed (h : s.Numbered) {rest : List StateNotice}
    (hp : s.pending = .closed pane :: rest) :
    ({ s with pending := rest }.forgetPane pane).Numbered := by
  have hnumbers : numbers s.pending = numbers rest := by rw [hp]; rfl
  refine ⟨h.enabled,fun m q st hm => ?_,?_,h.begun,h.sent,h.real,h.once⟩
  · exact h.pending m q st (by rw [hp]; exact List.mem_cons_of_mem _ hm)
  · have hdistinct := h.distinct
    rwa [hnumbers] at hdistinct

/-- A step applies an event of a transition, or leaves these and what was sent. -/
theorem step_cases (h : s.Numbered) {a : NotifyStep} (ht : s.step a = some t) :
    (∃ now n pane next rest, a = .applyEvent now ∧ s.pending = .stateChanged n pane next :: rest ∧
      s.Applies t rest n pane next now) ∨
    t.Numbered ∧ t.applied = s.applied ∧ t.sent = s.sent ∧
      ∀ now, a = .applyEvent now → ∀ n pane next,
        s.pending.head? ≠ some (.stateChanged n pane next) := by
  cases a with
  | spawn pane info =>
    simp only [step,Option.ite_none_right_eq_some,Option.some.injEq] at ht
    obtain ⟨-,rfl⟩ := ht
    exact Or.inr ⟨h.congr rfl rfl rfl rfl rfl,rfl,rfl,fun _ hn => by cases hn⟩
  | change pane state =>
    obtain ⟨p,-,ht⟩ := Option.bind_eq_some_iff.mp ht
    rw [Option.ite_none_left_eq_some,Option.some.injEq] at ht
    obtain ⟨-,rfl⟩ := ht
    exact Or.inr ⟨h.change pane state _,rfl,rfl,fun _ hn => by cases hn⟩
  | describe pane title agent name =>
    obtain ⟨p,-,rfl⟩ := Option.map_eq_some_iff.mp ht
    exact Or.inr ⟨h.congr rfl rfl rfl rfl rfl,rfl,rfl,fun _ hn => by cases hn⟩
  | close pane =>
    simp only [step,Option.ite_none_right_eq_some,Option.some.injEq] at ht
    obtain ⟨-,rfl⟩ := ht
    exact Or.inr ⟨h.close pane _,rfl,rfl,fun _ hn => by cases hn⟩
  | poll =>
    obtain rfl := Option.some.inj ht
    exact Or.inr ⟨h.congr rfl rfl rfl rfl rfl,rfl,rfl,fun _ hn => by cases hn⟩
  | answer i =>
    simp only [step,Option.ite_none_right_eq_some,Option.some.injEq] at ht
    obtain ⟨-,rfl⟩ := ht
    exact Or.inr ⟨h.congr rfl rfl rfl rfl rfl,rfl,rfl,fun _ hn => by cases hn⟩
  | reply i =>
    obtain ⟨answer,-,rfl⟩ := Option.map_eq_some_iff.mp ht
    exact Or.inr ⟨h.congr rfl rfl rfl rfl rfl,rfl,rfl,fun _ hn => by cases hn⟩
  | fail i =>
    obtain ⟨p,-,rfl⟩ := Option.map_eq_some_iff.mp ht
    exact Or.inr ⟨h.congr rfl rfl rfl rfl rfl,rfl,rfl,fun _ hn => by cases hn⟩
  | applyEvent now =>
    simp only [step] at ht
    split at ht
    · cases ht
    · rename_i n pane next rest hp
      obtain rfl := Option.some.inj ht
      exact Or.inl ⟨now,n,pane,next,rest,rfl,hp,applies_stateChanged h.enabled rest⟩
    · rename_i pane rest hp
      obtain rfl := Option.some.inj ht
      exact Or.inr ⟨h.closed hp,rfl,rfl,fun _ _ n q st => by simp [hp]⟩
  | focus pane =>
    obtain rfl := Option.some.inj ht
    exact Or.inr ⟨h.congr rfl rfl rfl rfl rfl,rfl,rfl,fun _ hn => by cases hn⟩
  | hide hidden =>
    obtain rfl := Option.some.inj ht
    exact Or.inr ⟨h.congr rfl rfl rfl rfl rfl,rfl,rfl,fun _ hn => by cases hn⟩

/-! Which transitions are notified. -/

theorem step_numbered (s : NotifyState) (a : NotifyStep) (t : NotifyState) (h : s.Numbered)
    (ht : s.step a = some t) : t.Numbered := by
  rcases step_cases h ht with ⟨now,n,pane,next,rest,-,hp,ha⟩ | ⟨hnumbered,-⟩
  · exact h.applies hp ha
  · exact hnumbered

/-- Of every transition whose event is due there is a notification. -/
def AllSent (s : NotifyState) : Prop := ∀ e ∈ s.applied, e.Due → e.n ∈ s.sent.map Notification.n

theorem Numbered.exact (h : s.Numbered) (hs : s.AllSent) : s.Exact where
  once e he hdue _ := List.count_eq_one_of_mem h.once (hs e he hdue)
  real := h.real
  distinct := h.once

/-- The event that has been applied last is notified if it is due and the store had the pane. -/
theorem Applies.sent_iff (h : s.Numbered) {rest : List StateNotice}
    (hp : s.pending = .stateChanged n pane next :: rest) (ha : s.Applies t rest n pane next now)
    (hdue : s.DueNow pane next now) : n ∈ t.sent.map Notification.n ↔
      ∃ info, s.paneStates.lookup pane = some info ∧ info.state ≠ next := by
  rw [← ha.due hdue]
  constructor
  · rintro hmem heq
    exact (h.fresh hp).2 (heq ▸ hmem)
  · intro hne
    obtain ⟨title,-,hsent⟩ := ha.sent.resolve_left hne
    simp [hsent]

/-- What was sent is kept, and only an event that is applied adds to it. -/
theorem Applies.sent_mono {rest : List StateNotice} (ha : s.Applies t rest n pane next now)
    {m : Nat} : m ∈ s.sent.map Notification.n → m ∈ t.sent.map Notification.n := by
  intro hm
  rcases ha.sent with hsent | ⟨title,-,hsent⟩
  · rwa [hsent]
  · rw [hsent,List.map_append]
    exact List.mem_append_left _ hm

theorem Applies.mem_sent {rest : List StateNotice} (ha : s.Applies t rest n pane next now)
    {m : Nat} (hm : m ∈ t.sent.map Notification.n) : m ∈ s.sent.map Notification.n ∨ m = n := by
  rcases ha.sent with hsent | ⟨title,-,hsent⟩
  · exact Or.inl (hsent ▸ hm)
  · rw [hsent,List.map_append] at hm
    exact (List.mem_append.mp hm).imp_right List.mem_singleton.mp

theorem step_allSent (s : NotifyState) (a : NotifyStep) (t : NotifyState)
    (h : s.Numbered ∧ s.AllSent) (hc : s.Ahead a) (ht : s.step a = some t) :
    t.Numbered ∧ t.AllSent := by
  obtain ⟨hn,hall⟩ := h
  refine ⟨step_numbered s a t hn ht,?_⟩
  rcases step_cases hn ht with ⟨now,n,pane,next,rest,rfl,hp,ha⟩ | ⟨-,happlied,hsent,-⟩
  · obtain ⟨e,rfl,happlied,hdue⟩ := ha.applied
    intro e' he' hd
    rw [happlied] at he'
    rcases List.mem_append.mp he' with he' | he'
    · exact ha.sent_mono (hall e' he' hd)
    · obtain rfl := List.mem_singleton.mp he'
      have hnow := hdue.mp hd
      exact (ha.sent_iff hn hp hnow).mpr (hc e'.n pane next (by rw [hp]; rfl) hnow)
  · rw [AllSent,happlied,hsent]
    exact hall

/-- A transition that has been missed stays so. -/
theorem step_missed {e : AppliedEvent} (h : s.Numbered) {a : NotifyStep} (ht : s.step a = some t)
    (he : e ∈ s.applied) (hmissed : e.n ∉ s.sent.map Notification.n) :
    e ∈ t.applied ∧ e.n ∉ t.sent.map Notification.n := by
  rcases step_cases h ht with ⟨now,n,pane,next,rest,rfl,hp,ha⟩ | ⟨-,happlied,hsent,-⟩
  · obtain ⟨e',-,happlied,-⟩ := ha.applied
    refine ⟨by rw [happlied]; exact List.mem_append_left _ he,fun hmem => ?_⟩
    rcases ha.mem_sent hmem with hmem | rfl
    · exact hmissed hmem
    · exact (h.fresh hp).1 (List.mem_map_of_mem he)
  · rw [happlied,hsent]
    exact ⟨he,hmissed⟩

theorem missed_of_exec {e : AppliedEvent} {steps : List NotifyStep} (h : s.Numbered)
    (ht : exec step s steps = some t) (he : e ∈ s.applied)
    (hmissed : e.n ∉ s.sent.map Notification.n) :
    e ∈ t.applied ∧ e.n ∉ t.sent.map Notification.n := by
  induction steps generalizing s with
  | nil =>
    obtain rfl := Option.some.inj ht
    exact ⟨he,hmissed⟩
  | cons a steps ih =>
    rw [exec_cons,Option.bind_eq_some_iff] at ht
    obtain ⟨u,hu,ht⟩ := ht
    obtain ⟨he,hmissed⟩ := step_missed h hu he hmissed
    exact ih (step_numbered s a u h hu) ht he hmissed

/-- An event that is due and not ahead of the polls is one that is missed. -/
theorem missed_of_not_ahead {a : NotifyStep} (h : s.Numbered) (ht : s.step a = some t)
    (hc : ¬s.Ahead a) : ∃ e ∈ t.applied, e.Due ∧ e.n ∉ t.sent.map Notification.n := by
  rcases step_cases h ht with ⟨now,n,pane,next,rest,rfl,hp,ha⟩ | ⟨-,-,-,hnone⟩
  · obtain ⟨e,rfl,happlied,hdue⟩ := ha.applied
    simp only [Ahead,hp,List.head?_cons,Option.some.injEq,StateNotice.stateChanged.injEq,
      not_forall] at hc
    obtain ⟨n,q,st,⟨rfl,rfl,rfl⟩,hnow,hno⟩ := hc
    refine ⟨e,by rw [happlied]; simp,hdue.mpr hnow,fun hmem => hno ?_⟩
    exact (ha.sent_iff h hp hnow).mp hmem
  · cases a with
    | applyEvent now => exact absurd (fun n q st hh => absurd hh (hnone now rfl n q st)) hc
    | spawn | change | describe | close | poll | answer | reply | fail | focus | hide =>
      exact absurd trivial hc

/-- Where no poll brings a state of interest before its event is applied, every such transition
that both report is notified once. A run in which all are reported is of no other kind. -/
theorem notifications_exact (steps : List NotifyStep) :
    (Along step Ahead start steps → Always step Exact start steps) ∧
      ∀ t, exec step start steps = some t → (∀ e ∈ t.applied, e.n ∈ t.reported) → t.Exact →
        Along step Ahead start steps := by
  constructor
  · intro h
    have hall := h.invariant (I := fun s => s.Numbered ∧ s.AllSent) step_allSent
      ⟨numbered_start,fun e he => absurd he List.not_mem_nil⟩
    exact hall.mono fun t ht => ht.1.exact ht.2
  · intro t ht hreported hexact
    refine along_iff.mpr fun pre a hpre u hu => ?_
    by_contra hc
    obtain ⟨post,hpost⟩ := hpre
    have hn := (Always.of_invariant step_numbered numbered_start pre).last hu
    rw [← hpost,exec_append,exec_append,hu] at ht
    obtain ⟨u',hu',ht⟩ := Option.bind_eq_some_iff.mp ht
    have hstep : u.step a = some u' := by simpa using hu'
    obtain ⟨e,he,hdue,hmissed⟩ := missed_of_not_ahead hn hstep hc
    obtain ⟨he,hmissed⟩ := missed_of_exec (step_numbered u a u' hn hstep) ht he hmissed
    have hone := hexact.once e he hdue (hreported e he)
    exact hmissed (List.count_pos_iff.mp (by omega))

/-- A pane of which the store knows comes to wait. -/
def polled : List NotifyStep :=
  [.spawn ⟨1⟩ ⟨.running,none,none,none⟩,.poll,.answer 0,.reply 0,.change ⟨1⟩ .waitingInput]

theorem notifications_exact_polled :
    Always step Exact start (polled ++ [.applyEvent 0,.poll,.answer 0,.reply 0]) := by
  refine (notifications_exact _).1 ⟨trivial,fun t₁ h₁ => ⟨trivial,fun t₂ h₂ => ⟨trivial,
    fun t₃ h₃ => ⟨trivial,fun t₄ h₄ => ⟨trivial,fun t₅ h₅ => ⟨?_,fun _ _ => ⟨trivial,
      fun _ _ => ⟨trivial,fun _ _ => ⟨trivial,fun _ _ => trivial⟩⟩⟩⟩⟩⟩⟩⟩⟩
  obtain rfl := Option.some.inj h₁
  obtain rfl := Option.some.inj h₂
  obtain rfl := Option.some.inj h₃
  obtain rfl := Option.some.inj h₄
  obtain rfl := Option.some.inj h₅
  intro n pane next hhead _
  obtain ⟨rfl,rfl,rfl⟩ := StateNotice.stateChanged.inj (Option.some.inj hhead)
  exact ⟨⟨.running,none,none,none⟩,rfl,by decide⟩

/-- The poll is answered and applied before the event. -/
theorem transition_not_notified : ¬∀ steps : List NotifyStep, Always step Exact start steps := by
  intro h
  obtain ⟨t,ht⟩ : ∃ t, exec step start (polled ++ [.poll,.answer 0,.reply 0,.applyEvent 0]) =
      some t := ⟨_,rfl⟩
  have honce := ((h _).last ht).once
  obtain rfl := Option.some.inj ht
  have hone := honce ⟨0,.waitingInput,false,false⟩ (by decide) ⟨by decide,rfl,rfl⟩ (by decide)
  exact absurd hone (by decide)

end NotifyState

end Pyre.Gui
