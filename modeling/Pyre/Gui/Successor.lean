import Pyre.Base.Run
import Pyre.Gui.Actions

/-!
The successor of a session that has ended. The active session is to be live whenever nothing is in
progress, with a fresh one spawned where none is left. Until then a function that will choose a
session, or an event that will make one do so, may leave it dead.
-/

set_option autoImplicit false

namespace Pyre.Gui
open Base

/-- A session that has a pane. `daemon` has for each session listed how many. -/
def Live (daemon : Table SessionId Nat) (session : SessionId) : Prop :=
  ∃ n ∈ daemon.lookup session, 0 < n

/-- No session has a pane. -/
def Vacant (daemon : Table SessionId Nat) : Prop := ∀ e ∈ daemon.entries, e.2 = 0

instance (daemon : Table SessionId Nat) : Decidable (Vacant daemon) :=
  inferInstanceAs (Decidable (∀ _ ∈ _, _))

/-- The list is of all sessions of the daemon, in any order. -/
def Lists (daemon : Table SessionId Nat) (sessions : List SessionInfo) : Prop :=
  (∀ info ∈ sessions, daemon.lookup info.id = some info.paneCount) ∧
    ∀ e ∈ daemon.entries, e.1 ∈ sessions.map (·.id)

instance (daemon : Table SessionId Nat) (sessions : List SessionInfo) :
    Decidable (Lists daemon sessions) :=
  inferInstanceAs (Decidable ((∀ _ ∈ _, _) ∧ ∀ _ ∈ _, _))

/-- `inPlace`: a session that it spawns is in the place of one that has ended. -/
structure PendingCall where
  awaiting : Awaiting
  reply : Option DaemonReply
  inPlace : Bool

/-- `fresh` counts the sessions spawned in the place of those that have ended, since the last
session with panes has, which it has once `ended`; `others` is whether another has come since. -/
structure Succession where
  daemon : Table SessionId Nat
  store : Store
  calls : Table Nat PendingCall
  events : List LifecycleEvent
  ended : Bool
  fresh : Nat
  others : Bool

/-- `serve` is the daemon's answer to a request, which waits for the function's turn. The last
five are what happens on the daemon: `known` is whether the session of the pane is in the pane
states of the GUI, `listed` whether a session without panes is still there for now. -/
inductive SuccessionStep where
  | act (call : Nat) (action : GuiAction)
  | applyEvent
  | serve (call : Nat) (reply : DaemonReply)
  | resume (call : Nat)
  | emit (event : LifecycleEvent)
  | spawned (session : SessionId)
  | paneOpened (session : SessionId)
  | paneEnds (session : SessionId) (pane : PaneId) (known listed : Bool)
  | forget (session : SessionId)

/-- The session whose end the close of a pane or window will look for. -/
def Awaiting.closing? : Awaiting → Option SessionId
  | .closePane session _ | .closeWindow session _ | .listSessions (.closeAction session) => session
  | _ => none

/-- A spawn in the place of another that the daemon has not answered. -/
def PendingCall.inFlight : PendingCall → Bool
  | ⟨.spawnSession,none,inPlace⟩ => inPlace
  | _ => false

namespace Succession

/-- The GUI as it connects. -/
def start (daemon : Table SessionId Nat) : Succession where
  daemon
  store := .start
  calls := AList.insert 1 ⟨.listSessions .loadInitial,none,false⟩ ∅
  events := []
  ended := false
  fresh := 0
  others := false

def eventLoop : Nat := 0

def proceed (s : Succession) (i : Nat) (inPlace : Bool) (next : Stretch) : Succession :=
  { s with
    store := next.1
    calls := match next.2 with
      | some phase => s.calls.insert i ⟨phase,none,inPlace⟩
      | none => s.calls.erase i }

/-- A session of this id has never been heard of. -/
def New (s : Succession) (session : SessionId) : Prop :=
  session ∉ s.daemon ∧ ∀ e ∈ s.calls.entries, e.2.awaiting.closing? ≠ some session

instance (s : Succession) (session : SessionId) : Decidable (s.New session) :=
  inferInstanceAs (Decidable (_ ∧ ∀ _ ∈ _, _))

/-- What the daemon may answer, by what it has now. -/
def Answers (s : Succession) : Awaiting → DaemonReply → Bool
  | .listSessions _, .sessions sessions => Lists s.daemon sessions
  | .spawnSession, .session session => s.New session
  | phase, reply => (s.store.resume phase reply).isSome

def served (s : Succession) (i : Nat) (c : PendingCall) (reply : DaemonReply) : Succession :=
  let t := { s with calls := s.calls.insert i { c with reply := some reply } }
  match c.awaiting, reply with
  | .spawnSession, .session session =>
    { t with
      daemon := s.daemon.insert session 1
      fresh := if c.inPlace then s.fresh+1 else s.fresh
      others := s.others || !c.inPlace }
  | _, _ => t

/-- The daemon with a pane less. -/
def lessOne (daemon : Table SessionId Nat) (session : SessionId) (n : Nat) (listed : Bool) :
    Table SessionId Nat :=
  if n = 0 ∧ listed = false then daemon.erase session else daemon.insert session n

def paneEnds (s : Succession) (session : SessionId) (pane : PaneId) (known listed : Bool)
    (n : Nat) : Succession :=
  let daemon := lessOne s.daemon session n listed
  let t := { s with
    daemon
    events := s.events ++ [.closed (if known then some session else none) (some pane)] }
  if Vacant daemon then { t with ended := true, fresh := 0, others := false } else t

def step (s : Succession) : SuccessionStep → Option Succession
  | .act i action =>
    if i ≠ eventLoop ∧ i ∉ s.calls then some (s.proceed i false (s.store.act action)) else none
  | .applyEvent =>
    match s.events with
    | event :: events =>
      if eventLoop ∈ s.calls then none
      else some (proceed { s with events } eventLoop false (s.store.applyLifecycleEvent event))
    | [] => none
  | .serve i reply => (s.calls.lookup i).bind fun c =>
    if c.reply.isNone ∧ s.Answers c.awaiting reply then some (s.served i c reply) else none
  | .resume i => (s.calls.lookup i).bind fun c => c.reply.bind fun reply =>
    (s.store.resume c.awaiting reply).map (s.proceed i true)
  | .emit event => some { s with events := s.events ++ [event] }
  | .spawned session =>
    if s.New session then some { s with
      daemon := s.daemon.insert session 1
      events := s.events ++ [.spawned none]
      others := true }
    else none
  | .paneOpened session => (s.daemon.lookup session).map fun n =>
    { s with
      daemon := s.daemon.insert session (n+1)
      events := s.events ++ [.spawned none]
      others := s.others || n = 0 }
  | .paneEnds session pane known listed => (s.daemon.lookup session).bind fun n =>
    if n = 0 then none else some (s.paneEnds session pane known listed (n-1))
  | .forget session => (s.daemon.lookup session).bind fun n =>
    if n = 0 then some { s with daemon := s.daemon.erase session } else none

/-- No function is in progress and no event is to be applied. -/
def Quiescent (s : Succession) : Prop := s.events = [] ∧ ∀ i c, s.calls.lookup i ≠ some c

def ActiveLive (s : Succession) : Prop := ∃ session ∈ s.store.activeSession, Live s.daemon session

/-- Never more than one session is spawned in the place of the last that had panes, and one is,
unless another has come first; and the active session is live. -/
structure Sound (s : Succession) : Prop where
  once : s.fresh ≤ 1
  active : s.Quiescent → s.ActiveLive
  spawned : s.Quiescent → s.ended = true → s.fresh = 1 ∨ s.others = true

end Succession

/-! What will choose the active session again, whatever is chosen. -/

/-- The function will. `closed` finds the active session ended only while it is listed. -/
def Awaiting.Recovers (daemon : Table SessionId Nat) (active : Option SessionId) :
    Awaiting → Option DaemonReply → Prop
  | .spawnSession, some .failed | .closeSession _ _ _, some .failed => False
  | .spawnSession, _ | .listSessions (.newSession _), _ | .listSessions .loadInitial, _ => True
  | .closeSession _ _ wasActive, _ | .listSessions (.closeSessionAction wasActive), _ => wasActive
  | .closePane (some session) _, _ | .closeWindow (some session) _, _
  | .listSessions (.closeAction (some session)), none => session ∉ daemon
  | .listSessions (.closeAction (some session)), some (.sessions sessions) =>
    session ∉ sessions.map (·.id)
  | .listSessions (.closed (some session) _), none =>
    active = some session ∧ daemon.lookup session = some 0
  | .listSessions (.closed (some session) _), some (.sessions sessions) =>
    active = some session ∧ (sessions.find? (·.id = session)).map (·.paneCount) = some 0
  | _, _ => False

def LifecycleEvent.Recovers (daemon : Table SessionId Nat) (active : Option SessionId) :
    LifecycleEvent → Prop
  | .closed (some session) _ => active = some session ∧ daemon.lookup session = some 0
  | _ => False

/-- The sessions that a function chooses the active one from, when the list has come. -/
def Store.candidates (s : Store) : AfterSessions → Option (List SessionInfo)
  | .loadInitial | .closeSessionAction true => some s.sessions
  | .closeAction (some session) => if s.listed session then none else some s.sessions
  | .closed (some session) _ =>
    if s.activeSession = some session ∧
        (s.sessions.find? (·.id = session)).all (·.paneCount = 0) then
      some (s.sessions.filter fun info => info.id ≠ session)
    else none
  | _ => none

namespace Succession

def RecoveringOn (s : Succession) (daemon : Table SessionId Nat) (active : Option SessionId) :
    Prop :=
  (∃ i c, s.calls.lookup i = some c ∧ c.awaiting.Recovers daemon active c.reply) ∨
    ∃ event ∈ s.events, event.Recovers daemon active

/-- Another function than `i` will choose, or an event to come makes one. -/
def OtherRecovers (s : Succession) (i : Nat) (active : Option SessionId) : Prop :=
  (∃ j c, j ≠ i ∧ s.calls.lookup j = some c ∧ c.awaiting.Recovers s.daemon active c.reply) ∨
    ∃ event ∈ s.events, event.Recovers s.daemon active

def Attended (s : Succession) : Prop :=
  s.ActiveLive ∨ s.RecoveringOn s.daemon s.store.activeSession

/-! The steps that keep the active session attended. -/

def MayActivate (s : Succession) (i : Nat) (session : SessionId) : Prop :=
  Live s.daemon session ∨ s.OtherRecovers i (some session)

/-- No session has a pane, and no other is being spawned in place. -/
def MaySpawn (s : Succession) (i : Nat) : Prop :=
  Vacant s.daemon ∧ ∀ j c, j ≠ i → s.calls.lookup j = some c → c.inFlight = false

/-- The session that is chosen is live, or one is spawned in time. -/
def MayChoose (s : Succession) (i : Nat) (sessions : List SessionInfo) : Prop :=
  match sessions.head? with
  | some first => s.MayActivate i first.id
  | none => s.MaySpawn i

/-- The function has the list, in the store. -/
def SessionsInTime (s : Succession) (i : Nat) (store : Store) (next : AfterSessions) : Prop :=
  (∀ sessions ∈ store.candidates next, s.MayChoose i sessions) ∧
    ∀ session, next = .newSession session → s.MayActivate i session

def RepliesInTime (s : Succession) (i : Nat) : Awaiting → DaemonReply → Prop
  | .listSessions next, .sessions sessions =>
    s.SessionsInTime i (s.store.reloadSessions sessions) next ∧
      (s.store.activeSession.any (· ∉ sessions.map (·.id)) →
        ((s.store.reloadSessions sessions).candidates next).isSome ∨
          (∃ session, next = .newSession session) ∨ s.OtherRecovers i none)
  | .listSessions next, .failed => s.SessionsInTime i s.store next
  | _, _ => True

def InTime (s : Succession) : SuccessionStep → Prop
  | .act i (.switchSession session) | .act i (.gotoPane session _) => s.MayActivate i session
  | .serve i .failed => ∀ c ∈ s.calls.lookup i,
    s.ActiveLive ∨ s.OtherRecovers i s.store.activeSession ∨
      c.awaiting.Recovers s.daemon s.store.activeSession (some .failed)
  | .resume i => ∀ c ∈ s.calls.lookup i, ∀ reply ∈ c.reply, s.RepliesInTime i c.awaiting reply
  | .paneEnds session _ known listed =>
    s.store.activeSession = some session → s.daemon.lookup session = some 1 →
      known = true ∧ listed = true ∨
        s.RecoveringOn (lessOne s.daemon session 0 listed) (some session)
  | .forget session => s.store.activeSession = some session →
    s.RecoveringOn (s.daemon.erase session) (some session)
  | _ => True

end Succession

/-! How the active session is chosen. -/

namespace Store

variable {s : Store} {next : AfterSessions} {sessions : List SessionInfo} {first : SessionInfo}
  {session : SessionId} {pane : Option PaneId}

theorem removeSession_active (h : s.activeSession = some session) :
    s.removeSession session = (s.removeSessionNow session,
      some (.successor ((s.sessions.filter fun info => info.id ≠ session).head?.map (·.id)))) := by
  have hnext : (s.removeSessionNow session).activeSession =
      (s.sessions.filter fun info => info.id ≠ session).head?.map (·.id) := if_pos h
  simp only [removeSession,if_pos h,hnext]

theorem removeSession_inactive (h : s.activeSession ≠ some session) :
    (s.removeSession session).1.activeSession = s.activeSession ∧
      (s.removeSession session).2 = none := ⟨if_neg h,if_neg h⟩

theorem afterSessions_closed : s.afterSessions (.closed (some session) pane) =
    if (s.sessions.find? (·.id = session)).all (·.paneCount = 0) then s.removeSession session
    else (s,some (.paneStates (.closed session pane))) := by
  rw [afterSessions]
  split
  · rename_i info hinfo
    simp [hinfo]
  · rename_i hnone
    simp [hnone]

/-- The function goes on with a session of the candidates, or spawns one if there is none. -/
theorem afterSessions_of_candidates (h : s.candidates next = some sessions) :
    (∀ first ∈ sessions.head?, (s.afterSessions next).1.activeSession = some first.id ∧
      (s.afterSessions next).2 = some (.show first.id)) ∧
        (sessions.head? = none → (s.afterSessions next).2 = some .spawnSession) := by
  cases next with
  | loadInitial =>
    obtain rfl := Option.some.inj h
    refine ⟨fun first hfirst => ?_,fun hnone => ?_⟩
    · rw [afterSessions,Option.mem_def.mp hfirst]
      exact ⟨rfl,rfl⟩
    · rw [afterSessions,hnone]
  | closeSessionAction wasActive =>
    cases wasActive with
    | false => cases h
    | true =>
      obtain rfl := Option.some.inj h
      refine ⟨fun first hfirst => ⟨congrArg (Option.map _) hfirst,?_⟩,fun hnone => ?_⟩
      · simp [afterSessions,activateFirst,Option.mem_def.mp hfirst,Awaiting.successor]
      · simp [afterSessions,activateFirst,hnone,Awaiting.successor]
  | closeAction session =>
    cases session with
    | none => cases h
    | some session =>
      rw [candidates,Option.ite_none_left_eq_some] at h
      obtain ⟨hgone,h⟩ := h
      obtain rfl := Option.some.inj h
      rw [afterSessions,if_neg hgone]
      refine ⟨fun first hfirst => ⟨congrArg (Option.map _) hfirst,?_⟩,fun hnone => ?_⟩
      · simp [activateFirst,Option.mem_def.mp hfirst,Awaiting.successor]
      · simp [activateFirst,hnone,Awaiting.successor]
  | closed session pane =>
    cases session with
    | none => cases h
    | some session =>
      rw [candidates,Option.ite_none_right_eq_some] at h
      obtain ⟨⟨hactive,hended⟩,h⟩ := h
      obtain rfl := Option.some.inj h
      rw [afterSessions_closed,if_pos hended,removeSession_active hactive]
      refine ⟨fun first hfirst => ⟨?_,?_⟩,fun hnone => ?_⟩
      · exact (if_pos hactive).trans (congrArg (Option.map _) hfirst)
      · rw [Option.mem_def.mp hfirst]
        rfl
      · rw [hnone]
        rfl
  | _ => cases h

/-- A function that does not choose leaves the active session as it is. -/
theorem afterSessions_of_none (h : s.candidates next = none)
    (hnew : ∀ session, next ≠ .newSession session) :
    (s.afterSessions next).1.activeSession = s.activeSession ∧
      (s.afterSessions next).2 ≠ some .spawnSession := by
  cases next with
  | newSession session => exact absurd rfl (hnew session)
  | loadInitial => cases h
  | done => exact ⟨rfl,by simp [afterSessions]⟩
  | spawned session => exact ⟨rfl,by simp [afterSessions]⟩
  | closeSessionAction wasActive =>
    cases wasActive with
    | false => exact ⟨rfl,by simp [afterSessions]⟩
    | true => cases h
  | closeAction session =>
    cases session with
    | none => exact ⟨rfl,by simp [afterSessions]⟩
    | some session =>
      by_cases hlisted : s.listed session = true
      · rw [afterSessions,if_pos hlisted]
        exact ⟨rfl,by simp [Awaiting.show]⟩
      · rw [candidates,if_neg hlisted] at h
        cases h
  | closed session pane =>
    cases session with
    | none => exact ⟨rfl,by simp [afterSessions]⟩
    | some session =>
      rw [afterSessions_closed]
      split
      · rename_i hended
        have hactive : s.activeSession ≠ some session := by
          intro hactive
          rw [candidates,if_pos ⟨hactive,hended⟩] at h
          cases h
        obtain ⟨hsame,hdone⟩ := removeSession_inactive hactive
        exact ⟨hsame,by rw [hdone]; simp⟩
      · exact ⟨rfl,by simp⟩

end Store

namespace Succession

variable {s t : Succession} {i : Nat} {c : PendingCall} {next : Stretch} {session : SessionId}

/-! A step of one function, and what is left to the others. -/

def AttendedBy (s : Succession) (i : Nat) (next : Stretch) : Prop :=
  (∃ session ∈ next.1.activeSession, Live s.daemon session) ∨
    (∃ phase ∈ next.2, phase.Recovers s.daemon next.1.activeSession none) ∨
      s.OtherRecovers i next.1.activeSession

theorem attended_proceed {inPlace : Bool} (h : s.AttendedBy i next) :
    (s.proceed i inPlace next).Attended := by
  rcases h with hlive | ⟨phase,hphase,hrecovers⟩ | ⟨j,c,hne,hc,hrecovers⟩ | hevent
  · exact .inl hlive
  · refine .inr (.inl ⟨i,⟨phase,none,inPlace⟩,?_,hrecovers⟩)
    rw [Option.mem_def] at hphase
    simp only [proceed,hphase]
    exact AList.lookup_insert _
  · refine .inr (.inl ⟨j,c,?_,hrecovers⟩)
    simp only [proceed]
    split
    · exact (AList.lookup_insert_ne hne).trans hc
    · exact (AList.lookup_erase_ne hne).trans hc
  · exact .inr (.inr hevent)

/-- The active session is as it was, and the function still will choose if it would. -/
theorem attended_same (h : s.Attended)
    (hactive : next.1.activeSession = s.store.activeSession)
    (hpasses : ∀ c ∈ s.calls.lookup i,
      c.awaiting.Recovers s.daemon s.store.activeSession c.reply →
        ∃ phase ∈ next.2, phase.Recovers s.daemon s.store.activeSession none) :
    s.AttendedBy i next := by
  rw [AttendedBy,hactive]
  rcases h with hlive | ⟨j,c,hc,hrecovers⟩ | hevent
  · exact .inl hlive
  · by_cases hne : j = i
    · subst hne
      exact .inr (.inl (hpasses c hc hrecovers))
    · exact .inr (.inr (.inl ⟨j,c,hne,hc,hrecovers⟩))
  · exact .inr (.inr (.inr hevent))

/-- While no session is active, what will choose does so for any. -/
theorem recovers_of_none {daemon : Table SessionId Nat} {active : Option SessionId}
    {phase : Awaiting} {reply : Option DaemonReply} (h : phase.Recovers daemon none reply) :
    phase.Recovers daemon active reply := by
  unfold Awaiting.Recovers at h ⊢
  split at h <;> first | exact h | (exact absurd h.1 (by simp))

theorem otherRecovers_of_none {active : Option SessionId} (h : s.OtherRecovers i none) :
    s.OtherRecovers i active := by
  rcases h with ⟨j,c,hne,hc,hrecovers⟩ | ⟨event,hevent,hrecovers⟩
  · exact .inl ⟨j,c,hne,hc,recovers_of_none hrecovers⟩
  · unfold LifecycleEvent.Recovers at hrecovers
    split at hrecovers
    · exact absurd hrecovers.1 (by simp)
    · exact hrecovers.elim

theorem attended_adoptIfNone (h : s.Attended) (hc : s.calls.lookup i = some c)
    (hnot : ¬c.awaiting.Recovers s.daemon s.store.activeSession c.reply) :
    s.AttendedBy i (s.store.adoptIfNone session) := by
  have hpasses : ∀ after : Option Awaiting, ∀ c' ∈ s.calls.lookup i,
      c'.awaiting.Recovers s.daemon s.store.activeSession c'.reply →
        ∃ phase ∈ after, phase.Recovers s.daemon s.store.activeSession none := by
    intro after c' hc' hrecovers
    obtain rfl := Option.some.inj (hc.symm.trans hc')
    exact absurd hrecovers hnot
  unfold Store.adoptIfNone
  split
  · rename_i hnone
    have hsame : s.AttendedBy i (s.store,none) := attended_same h rfl (hpasses none)
    rw [AttendedBy,hnone] at hsame
    rcases hsame with ⟨session,hsession,-⟩ | ⟨phase,hphase,-⟩ | hother
    · cases hsession
    · cases hphase
    · exact .inr (.inr (otherRecovers_of_none hother))
  · exact attended_same h rfl (hpasses none)

theorem attended_activates (hactive : next.1.activeSession = some session)
    (h : s.MayActivate i session) : s.AttendedBy i next := by
  rw [AttendedBy,hactive]
  rcases h with hlive | hother
  · exact .inl ⟨session,rfl,hlive⟩
  · exact .inr (.inr hother)

/-- The list has come: the function chooses, or the active session is as attended as it was. -/
theorem attended_afterSessions {store : Store} {after : AfterSessions}
    (hin : s.SessionsInTime i store after)
    (h : (store.candidates after).isSome ∨ (∃ session, after = .newSession session) ∨
      (∃ session ∈ store.activeSession, Live s.daemon session) ∨
        s.OtherRecovers i store.activeSession) : s.AttendedBy i (store.afterSessions after) := by
  cases hcandidates : store.candidates after with
  | some sessions =>
    obtain ⟨hfirst,hspawns⟩ := Store.afterSessions_of_candidates hcandidates
    have hmay := hin.1 sessions hcandidates
    unfold MayChoose at hmay
    split at hmay
    · rename_i first hhead
      exact attended_activates (hfirst first hhead).1 hmay
    · rename_i hnone
      exact .inr (.inl ⟨_,hspawns hnone,trivial⟩)
  | none =>
    by_cases hnew : ∃ session, after = .newSession session
    · obtain ⟨session,rfl⟩ := hnew
      exact attended_activates rfl (hin.2 session rfl)
    · obtain ⟨hactive,-⟩ := Store.afterSessions_of_none hcandidates
        fun session heq => hnew ⟨session,heq⟩
      rw [AttendedBy,hactive]
      rcases h with hsome | hex | hlive | hother
      · rw [hcandidates] at hsome
        cases hsome
      · exact absurd hex hnew
      · exact .inl hlive
      · exact .inr (.inr hother)

/-- A function that will choose does so when the list has come. -/
theorem chooses_of_sessions {daemon : Table SessionId Nat} {store : Store}
    {sessions : List SessionInfo} {after : AfterSessions} (hsessions : store.sessions = sessions)
    (h : Awaiting.Recovers daemon store.activeSession (.listSessions after)
      (some (.sessions sessions))) :
    (store.candidates after).isSome ∨ ∃ session, after = .newSession session := by
  subst hsessions
  cases after with
  | newSession session => exact .inr ⟨session,rfl⟩
  | loadInitial => exact .inl rfl
  | done | spawned _ => exact h.elim
  | closeSessionAction wasActive =>
    cases wasActive with
    | false => exact absurd h Bool.false_ne_true
    | true => exact .inl rfl
  | closeAction session =>
    cases session with
    | none => exact h.elim
    | some session =>
      left
      have hgone : store.listed session ≠ true := by
        intro hlisted
        obtain ⟨info,hinfo,hid⟩ := List.any_eq_true.mp hlisted
        exact h (List.mem_map.mpr ⟨info,hinfo,of_decide_eq_true hid⟩)
      rw [Store.candidates,if_neg hgone]
      rfl
  | closed session pane =>
    cases session with
    | none => exact h.elim
    | some session =>
      left
      obtain ⟨hactive,hended⟩ := h
      obtain ⟨info,hinfo,hcount⟩ := Option.map_eq_some_iff.mp hended
      rw [Store.candidates,if_pos ⟨hactive,by simp [hinfo,hcount]⟩]
      rfl

theorem chooses_of_failed {daemon : Table SessionId Nat} {store : Store} {after : AfterSessions}
    {active : Option SessionId}
    (h : Awaiting.Recovers daemon active (.listSessions after) (some .failed)) :
    (store.candidates after).isSome ∨ ∃ session, after = .newSession session := by
  cases after with
  | newSession session => exact .inr ⟨session,rfl⟩
  | loadInitial => exact .inl rfl
  | done | spawned _ => exact h.elim
  | closeSessionAction wasActive =>
    cases wasActive with
    | false => exact absurd h Bool.false_ne_true
    | true => exact .inl rfl
  | closeAction session => cases session <;> exact h.elim
  | closed session pane => cases session <;> exact h.elim

/-- An attended session is one that lives, or that the function itself, another one or an event
will take the place of. -/
theorem attended_listed {store : Store} {after : AfterSessions} (h : s.Attended)
    (hc : s.calls.lookup i = some c)
    (hchooses : c.awaiting.Recovers s.daemon s.store.activeSession c.reply →
      (store.candidates after).isSome ∨ ∃ session, after = .newSession session) :
    (store.candidates after).isSome ∨ (∃ session, after = .newSession session) ∨
      (∃ session ∈ s.store.activeSession, Live s.daemon session) ∨
        s.OtherRecovers i s.store.activeSession := by
  rcases h with hlive | ⟨j,c',hc',hrecovers⟩ | hevent
  · exact .inr (.inr (.inl hlive))
  · by_cases hne : j = i
    · subst hne
      obtain rfl := Option.some.inj (hc.symm.trans hc')
      rcases hchooses hrecovers with hsome | hnew
      · exact .inl hsome
      · exact .inr (.inl hnew)
    · exact .inr (.inr (.inr (.inl ⟨j,c',hne,hc',hrecovers⟩)))
  · exact .inr (.inr (.inr (.inr hevent)))

theorem attended_sessions {after : AfterSessions} {sessions : List SessionInfo}
    {inPlace : Bool} (h : s.Attended)
    (hc : s.calls.lookup i = some ⟨.listSessions after,some (.sessions sessions),inPlace⟩)
    (hin : s.RepliesInTime i (.listSessions after) (.sessions sessions)) :
    s.AttendedBy i ((s.store.reloadSessions sessions).afterSessions after) := by
  refine attended_afterSessions hin.1 ?_
  by_cases hvanished : s.store.activeSession.any (· ∉ sessions.map (·.id)) = true
  · have hnone : (s.store.reloadSessions sessions).activeSession = none := if_pos hvanished
    rw [hnone]
    rcases hin.2 hvanished with hsome | hnew | hother
    · exact .inl hsome
    · exact .inr (.inl hnew)
    · exact .inr (.inr (.inr hother))
  · have hsame : (s.store.reloadSessions sessions).activeSession = s.store.activeSession :=
      if_neg hvanished
    rw [hsame]
    refine attended_listed h hc fun hrecovers => ?_
    rw [← hsame] at hrecovers
    exact chooses_of_sessions rfl hrecovers

theorem attended_unlisted {after : AfterSessions} {inPlace : Bool} (h : s.Attended)
    (hc : s.calls.lookup i = some ⟨.listSessions after,some .failed,inPlace⟩)
    (hin : s.SessionsInTime i s.store after) : s.AttendedBy i (s.store.afterSessions after) := by
  exact attended_afterSessions hin (attended_listed h hc chooses_of_failed)

theorem attended_afterReload {after : AfterReload} (h : s.Attended)
    (hc : s.calls.lookup i = some c)
    (hnot : ¬c.awaiting.Recovers s.daemon s.store.activeSession c.reply) :
    s.AttendedBy i (s.store.afterReload after) := by
  have hsame : ∀ {next : Stretch}, next.1.activeSession = s.store.activeSession →
      s.AttendedBy i next := by
    refine fun hactive => attended_same h hactive fun c' hc' hrecovers => ?_
    obtain rfl := Option.some.inj (hc.symm.trans hc')
    exact absurd hrecovers hnot
  cases after with
  | done | focusFirstLeaf _ | gotoPane _ _ | focusSplit _ => exact hsame rfl
  | switchWindow window => exact hsame (s.store.activeSession_switchWindow window)
  | adopt session => exact attended_adoptIfNone h hc hnot
  | refocusClosed session pane =>
    refine hsame ?_
    rw [Store.afterReload]
    split <;> rfl

theorem attended_resume {phase : Awaiting} {reply : DaemonReply} {inPlace : Bool}
    (h : s.Attended) (hc : s.calls.lookup i = some ⟨phase,some reply,inPlace⟩)
    (hs : s.store.resume phase reply = some next) (hin : s.RepliesInTime i phase reply) :
    s.AttendedBy i next := by
  have hsame : ∀ {next : Stretch}, next.1.activeSession = s.store.activeSession →
      (phase.Recovers s.daemon s.store.activeSession (some reply) →
        ∃ p ∈ next.2, p.Recovers s.daemon s.store.activeSession none) → s.AttendedBy i next := by
    refine fun hactive hpasses => attended_same h hactive fun c' hc' hrecovers => ?_
    obtain rfl := Option.some.inj (hc.symm.trans hc')
    exact hpasses hrecovers
  cases phase with
  | spawnSession =>
    cases reply <;> cases hs
    · exact hsame rfl fun h => h.elim
    · exact hsame rfl fun _ => ⟨_,rfl,trivial⟩
  | openSplit _ | newWindow _ | openPane _ _ =>
    cases reply <;> cases hs <;> exact hsame rfl fun h => h.elim
  | closePane session pane =>
    have hkept : s.AttendedBy i
        (if s.store.zoomedPane = some pane then s.store.unzoom else s.store,
          some (.listSessions (.closeAction session))) := by
      refine hsame (by simp only; split <;> rfl) fun hrecovers => ?_
      cases session with
      | none => exact hrecovers.elim
      | some session => exact ⟨_,rfl,hrecovers⟩
    cases reply <;> cases hs <;> exact hkept
  | closeWindow session window =>
    have hkept : s.AttendedBy i (s.store.closeWindowAction session window,
        some (.listSessions (.closeAction session))) := by
      refine hsame rfl fun hrecovers => ?_
      cases session with
      | none => exact hrecovers.elim
      | some session => exact ⟨_,rfl,hrecovers⟩
    cases reply <;> cases hs <;> exact hkept
  | closeSession session windows wasActive =>
    cases reply <;> cases hs
    · exact hsame rfl fun h => h.elim
    · exact hsame rfl fun h => ⟨_,rfl,h⟩
  | listSessions after =>
    cases reply with
    | sessions sessions =>
      obtain rfl := Option.some.inj hs
      exact attended_sessions h hc hin
    | failed =>
      obtain rfl := Option.some.inj hs
      exact attended_unlisted h hc hin
    | _ => cases hs
  | paneStates after =>
    have hnot : ¬Awaiting.Recovers s.daemon s.store.activeSession (.paneStates after)
        (some reply) := by
      cases reply <;> exact fun h => h
    have hafter : s.AttendedBy i (s.store.afterStates after) := by
      cases after with
      | newPaneAction session window => exact hsame rfl fun h => absurd h hnot
      | spawned session =>
        rw [Store.afterStates]
        split
        · split
          · exact hsame rfl fun h => absurd h hnot
          · exact attended_adoptIfNone h hc hnot
        · exact hsame rfl fun h => absurd h hnot
      | closed session pane =>
        rw [Store.afterStates]
        split <;> exact hsame rfl fun h => absurd h hnot
    cases reply <;> cases hs <;> exact hafter
  | reloadWindows session =>
    cases reply <;> cases hs <;> exact hsame rfl fun h => h.elim
  | listWindows session after =>
    cases reply with
    | windows windows =>
      obtain rfl := Option.some.inj hs
      cases windows <;> exact hsame rfl fun h => h.elim
    | failed =>
      obtain rfl := Option.some.inj hs
      exact attended_afterReload h hc fun h => h
    | _ => cases hs
  | windowLayout copy w todo after =>
    cases reply <;> cases hs <;> cases todo <;> exact hsame rfl fun h => h.elim
  | ensureStreams after =>
    cases reply <;> cases hs
    exact attended_afterReload h hc fun h => h
  | reloadFocusedBlocks pane =>
    cases reply <;> cases hs
    exact hsame rfl fun h => h.elim

theorem attended_act {action : GuiAction} (h : s.Attended) (hi : i ∉ s.calls)
    (hin : s.InTime (.act i action)) : s.AttendedBy i (s.store.act action) := by
  have hsame : ∀ {next : Stretch}, next.1.activeSession = s.store.activeSession →
      s.AttendedBy i next := fun hactive =>
    attended_same h hactive fun c hc => absurd hc (Table.lookup_of_notMem hi)
  cases action with
  | switchSession session => exact attended_activates rfl hin
  | gotoPane session pane =>
    rw [Store.act]
    split
    · exact hsame rfl
    · exact attended_activates rfl hin
  | switchWindow window => exact hsame (s.store.activeSession_switchWindow window)
  | doSplit pane =>
    refine hsame ?_
    rw [Store.act]
    split <;> rfl
  | zoomPane pane =>
    refine hsame ?_
    rw [Store.act,Store.zoomPane]
    split <;> rfl
  | _ => exact hsame rfl

/-- The event that is applied hands on what it makes chosen. -/
theorem attended_applyEvent {event : LifecycleEvent} {events : List LifecycleEvent}
    (h : s.Attended) (hi : i ∉ s.calls) (hevents : s.events = event :: events) :
    AttendedBy { s with events } i (s.store.applyLifecycleEvent event) := by
  rw [AttendedBy,Store.applyLifecycleEvent_store]
  rcases h with hlive | ⟨j,c,hc,hrecovers⟩ | ⟨e,he,hrecovers⟩
  · exact .inl hlive
  · refine .inr (.inr (.inl ⟨j,c,?_,hc,hrecovers⟩))
    rintro rfl
    exact Table.lookup_of_notMem hi hc
  · rw [hevents] at he
    rcases List.mem_cons.mp he with rfl | he
    · cases e with
      | closed session pane =>
        cases session with
        | none => exact hrecovers.elim
        | some session => exact .inr (.inl ⟨_,rfl,hrecovers⟩)
      | _ => exact hrecovers.elim
    · exact .inr (.inr (.inr ⟨e,he,hrecovers⟩))

theorem find_of_lists {daemon : Table SessionId Nat} {sessions : List SessionInfo} {n : Nat}
    (h : Lists daemon sessions) (hn : daemon.lookup session = some n) :
    (sessions.find? (·.id = session)).map (·.paneCount) = some n := by
  have hmem : session ∈ sessions.map (·.id) := h.2 ⟨session,n⟩ (Table.lookup_eq_some.mp hn)
  cases hfind : sessions.find? (·.id = session) with
  | none =>
    obtain ⟨info,hinfo,hid⟩ := List.mem_map.mp hmem
    exact absurd (decide_eq_true hid) (List.find?_eq_none.mp hfind info hinfo)
  | some info =>
    have hid : info.id = session := by simpa using List.find?_some hfind
    have hcount := h.1 info (List.mem_of_find?_eq_some hfind)
    rw [hid,hn] at hcount
    exact hcount.symm

/-- The daemon's answer does not keep a function from choosing. -/
theorem recovers_answered {phase : Awaiting} {reply : DaemonReply} {active : Option SessionId}
    (h : phase.Recovers s.daemon active none) (hanswers : s.Answers phase reply = true)
    (hok : reply ≠ .failed) : phase.Recovers s.daemon active (some reply) := by
  cases phase with
  | spawnSession =>
    cases reply with
    | failed => exact absurd rfl hok
    | _ => trivial
  | closeSession _ _ _ =>
    cases reply with
    | failed => exact absurd rfl hok
    | _ => exact h
  | closePane session _ | closeWindow session _ =>
    cases session with
    | none => exact h.elim
    | some session => exact h
  | listSessions after =>
    cases reply with
    | failed => exact absurd rfl hok
    | sessions sessions =>
      have hlists : Lists s.daemon sessions := of_decide_eq_true hanswers
      cases after with
      | newSession _ | loadInitial | closeSessionAction _ | done | spawned _ => exact h
      | closeAction session =>
        cases session with
        | none => exact h.elim
        | some session =>
          intro hmem
          obtain ⟨info,hinfo,rfl⟩ := List.mem_map.mp hmem
          exact h (AList.lookup_isSome.mp (Option.isSome_of_eq_some (hlists.1 info hinfo)))
      | closed session pane =>
        cases session with
        | none => exact h.elim
        | some session => exact ⟨h.1,find_of_lists hlists h.2⟩
    | _ => cases hanswers
  | _ => exact h.elim

theorem attended_served {reply : DaemonReply} (h : s.Attended) (hc : s.calls.lookup i = some c)
    (hreply : c.reply = none) (hanswers : s.Answers c.awaiting reply = true)
    (hin : s.InTime (.serve i reply)) : (s.served i c reply).Attended := by
  have hself : (s.served i c reply).calls.lookup i = some { c with reply := some reply } := by
    unfold served
    simp only
    split <;> exact AList.lookup_insert _
  by_cases hspawned : ∃ session, c.awaiting = .spawnSession ∧ reply = .session session
  · obtain ⟨session,hphase,rfl⟩ := hspawned
    refine .inr (.inl ⟨i,_,hself,?_⟩)
    rw [hphase]
    trivial
  · have hsame : s.served i c reply =
        { s with calls := s.calls.insert i { c with reply := some reply } } := by
      unfold served
      simp only
      split
      · rename_i session hphase
        exact absurd ⟨session,hphase,rfl⟩ hspawned
      · rfl
    rw [hsame] at hself ⊢
    have hother : s.OtherRecovers i s.store.activeSession →
        Attended { s with calls := s.calls.insert i { c with reply := some reply } } := by
      rintro (⟨j,d,hne,hd,hrecovers⟩ | hevent)
      · exact .inr (.inl ⟨j,d,(AList.lookup_insert_ne hne).trans hd,hrecovers⟩)
      · exact .inr (.inr hevent)
    rcases h with hlive | ⟨j,d,hd,hrecovers⟩ | hevent
    · exact .inl hlive
    · by_cases hne : j = i
      · subst hne
        obtain rfl := Option.some.inj (hc.symm.trans hd)
        rw [hreply] at hrecovers
        by_cases hok : reply = .failed
        · subst hok
          rcases hin c hc with hlive | hrest | hself'
          · exact .inl hlive
          · exact hother hrest
          · exact .inr (.inl ⟨j,_,hself,hself'⟩)
        · exact .inr (.inl ⟨j,_,hself,recovers_answered (s := s) hrecovers hanswers hok⟩)
      · exact hother (.inl ⟨j,d,hne,hd,hrecovers⟩)
    · exact hother (.inr hevent)

/-! What happens on the daemon. -/

theorem Recovers.mono {daemon daemon' : Table SessionId Nat} {active : Option SessionId}
    {phase : Awaiting} {reply : Option DaemonReply} (h : phase.Recovers daemon active reply)
    (hgone : ∀ session, phase.closing? = some session → session ∉ daemon → session ∉ daemon')
    (hzero : ∀ session, active = some session → daemon.lookup session = some 0 →
      daemon'.lookup session = some 0) : phase.Recovers daemon' active reply := by
  unfold Awaiting.Recovers at h ⊢
  split at h <;> first
    | exact h
    | exact hgone _ rfl h
    | exact ⟨h.1,hzero _ h.1 h.2⟩

theorem LifecycleEvent.Recovers.mono {daemon daemon' : Table SessionId Nat}
    {active : Option SessionId} {event : LifecycleEvent} (h : event.Recovers daemon active)
    (hzero : ∀ session, active = some session → daemon.lookup session = some 0 →
      daemon'.lookup session = some 0) : event.Recovers daemon' active := by
  unfold LifecycleEvent.Recovers at h ⊢
  split at h
  · exact ⟨h.1,hzero _ h.1 h.2⟩
  · exact h

theorem RecoveringOn.mono {daemon daemon' : Table SessionId Nat} {active : Option SessionId}
    (h : s.RecoveringOn daemon active)
    (hgone : ∀ i c session, s.calls.lookup i = some c → c.awaiting.closing? = some session →
      session ∉ daemon → session ∉ daemon')
    (hzero : ∀ session, active = some session → daemon.lookup session = some 0 →
      daemon'.lookup session = some 0) : s.RecoveringOn daemon' active := by
  rcases h with ⟨i,c,hc,hrecovers⟩ | ⟨event,hevent,hrecovers⟩
  · exact .inl ⟨i,c,hc,Recovers.mono hrecovers (fun session => hgone i c session hc) hzero⟩
  · exact .inr ⟨event,hevent,LifecycleEvent.Recovers.mono hrecovers hzero⟩

/-- The daemon has changed, and told so. -/
theorem attended_of_change (hstore : t.store = s.store) (hcalls : t.calls = s.calls)
    (hevents : s.events ⊆ t.events)
    (h : (∃ session ∈ s.store.activeSession, Live t.daemon session) ∨
      s.RecoveringOn t.daemon s.store.activeSession) : t.Attended := by
  rcases h with ⟨session,hactive,hlive⟩ | ⟨i,c,hc,hrecovers⟩ | ⟨event,hevent,hrecovers⟩
  · exact .inl ⟨session,hstore ▸ hactive,hlive⟩
  · exact .inr (.inl ⟨i,c,hcalls ▸ hc,hstore ▸ hrecovers⟩)
  · exact .inr (.inr ⟨event,hevents hevent,hstore ▸ hrecovers⟩)

theorem live_insert {daemon : Table SessionId Nat} {other : SessionId} {n : Nat}
    (h : Live daemon other) (hn : 0 < n) : Live (daemon.insert session n) other := by
  by_cases hne : other = session
  · exact ⟨n,by rw [hne]; exact AList.lookup_insert _,hn⟩
  · obtain ⟨m,hm,hpos⟩ := h
    exact ⟨m,(AList.lookup_insert_ne hne).trans hm,hpos⟩

theorem mem_insert_of_ne {daemon : Table SessionId Nat} {other : SessionId} {n : Nat}
    (h : other ∉ daemon) (hne : other ≠ session) : other ∉ daemon.insert session n := by
  intro hmem
  rcases (AList.mem_insert _).mp hmem with heq | hmem
  · exact hne heq
  · exact h hmem

theorem attended_spawned (h : s.Attended) (ht : s.step (.spawned session) = some t) :
    t.Attended := by
  rw [step,Option.ite_none_right_eq_some,Option.some.injEq] at ht
  obtain ⟨hnew,rfl⟩ := ht
  refine attended_of_change (s := s) rfl rfl (List.subset_append_left _ _) ?_
  rcases h with ⟨other,hactive,hlive⟩ | hrec
  · exact .inl ⟨other,hactive,live_insert hlive Nat.one_pos⟩
  · refine .inr (hrec.mono (fun i c other hc hclosing hgone => ?_) fun other _ hzero => ?_)
    · refine mem_insert_of_ne hgone ?_
      rintro rfl
      exact hnew.2 ⟨i,c⟩ (Table.lookup_eq_some.mp hc) hclosing
    · refine (AList.lookup_insert_ne ?_).trans hzero
      rintro rfl
      exact hnew.1 (AList.lookup_isSome.mp (Option.isSome_of_eq_some hzero))

theorem attended_paneOpened (h : s.Attended) (ht : s.step (.paneOpened session) = some t) :
    t.Attended := by
  obtain ⟨n,hn,rfl⟩ := Option.map_eq_some_iff.mp ht
  refine attended_of_change (s := s) rfl rfl (List.subset_append_left _ _) ?_
  by_cases hactive : s.store.activeSession = some session
  · exact .inl ⟨session,hactive,n+1,AList.lookup_insert _,Nat.succ_pos n⟩
  rcases h with ⟨other,hother,hlive⟩ | hrec
  · exact .inl ⟨other,hother,live_insert hlive (Nat.succ_pos n)⟩
  · refine .inr (hrec.mono (fun i c other hc _ hgone => ?_) fun other hother hzero => ?_)
    · refine mem_insert_of_ne hgone ?_
      rintro rfl
      exact hgone (AList.lookup_isSome.mp (Option.isSome_of_eq_some hn))
    · refine (AList.lookup_insert_ne ?_).trans hzero
      rintro rfl
      exact hactive hother

theorem lookup_lessOne {daemon : Table SessionId Nat} {other : SessionId} {n : Nat}
    {listed : Bool} (hne : other ≠ session) :
    (lessOne daemon session n listed).lookup other = daemon.lookup other := by
  unfold lessOne
  split
  · exact AList.lookup_erase_ne hne
  · exact AList.lookup_insert_ne hne

theorem lookup_lessOne_self {daemon : Table SessionId Nat} {n : Nat} {listed : Bool}
    (h : 0 < n ∨ listed = true) : (lessOne daemon session n listed).lookup session = some n := by
  have hnot : ¬(n = 0 ∧ listed = false) := by
    rintro ⟨rfl,rfl⟩
    simp at h
  rw [lessOne,if_neg hnot]
  exact AList.lookup_insert _

theorem notMem_lessOne {daemon : Table SessionId Nat} {other : SessionId} {n : Nat}
    {listed : Bool} (h : other ∉ daemon) (hne : other ≠ session) :
    other ∉ lessOne daemon session n listed := by
  intro hmem
  have hsome := AList.lookup_isSome.mpr hmem
  rw [lookup_lessOne hne] at hsome
  exact h (AList.lookup_isSome.mp hsome)

theorem attended_paneEnds {pane : PaneId} {known listed : Bool} (h : s.Attended)
    (hin : s.InTime (.paneEnds session pane known listed))
    (ht : s.step (.paneEnds session pane known listed) = some t) : t.Attended := by
  obtain ⟨m,hm,ht⟩ := Option.bind_eq_some_iff.mp ht
  rw [Option.ite_none_left_eq_some,Option.some.injEq] at ht
  obtain ⟨hpos,rfl⟩ := ht
  obtain ⟨n,rfl⟩ := Nat.exists_eq_succ_of_ne_zero hpos
  have hpart : ∀ u : Succession, u.store = s.store → u.calls = s.calls →
      u.daemon = lessOne s.daemon session n listed → u.events = s.events ++
        [.closed (if known then some session else none) (some pane)] → u.Attended := by
    intro u hstore hcalls hdaemon hevents
    by_cases hactive : s.store.activeSession = some session
    · cases n with
      | succ n =>
        refine attended_of_change hstore hcalls (by rw [hevents]; exact List.subset_append_left _ _)
          (.inl ⟨session,hactive,n+1,?_,Nat.succ_pos n⟩)
        rw [hdaemon]
        exact lookup_lessOne_self (.inl (Nat.succ_pos n))
      | zero =>
        rcases hin hactive hm with ⟨rfl,rfl⟩ | hrec
        · refine .inr (.inr ⟨.closed (some session) (some pane),?_,?_⟩)
          · rw [hevents]
            exact List.mem_append_right _ List.mem_cons_self
          · rw [hstore,hdaemon]
            exact ⟨hactive,lookup_lessOne_self (.inr rfl)⟩
        · refine attended_of_change hstore hcalls
            (by rw [hevents]; exact List.subset_append_left _ _) (.inr ?_)
          rw [hdaemon,hactive]
          exact hrec
    · refine attended_of_change hstore hcalls
        (by rw [hevents]; exact List.subset_append_left _ _) ?_
      rw [hdaemon]
      rcases h with ⟨other,hother,k,hk,hlive⟩ | hrec
      · have hne : other ≠ session := by
          rintro rfl
          exact hactive hother
        exact .inl ⟨other,hother,k,(lookup_lessOne hne).trans hk,hlive⟩
      · refine .inr (hrec.mono (fun i c other hc _ hgone => notMem_lessOne hgone ?_)
          fun other hother hzero => (lookup_lessOne ?_).trans hzero)
        · rintro rfl
          exact hgone (AList.lookup_isSome.mp (Option.isSome_of_eq_some hm))
        · rintro rfl
          exact hactive hother
  unfold paneEnds
  simp only [Nat.succ_eq_add_one,Nat.add_sub_cancel]
  split
  · exact hpart _ rfl rfl rfl rfl
  · exact hpart _ rfl rfl rfl rfl

theorem attended_forget (h : s.Attended) (hin : s.InTime (.forget session))
    (ht : s.step (.forget session) = some t) : t.Attended := by
  obtain ⟨n,hn,ht⟩ := Option.bind_eq_some_iff.mp ht
  rw [Option.ite_none_right_eq_some,Option.some.injEq] at ht
  obtain ⟨rfl,rfl⟩ := ht
  refine attended_of_change (s := s) rfl rfl (List.Subset.refl _) ?_
  by_cases hactive : s.store.activeSession = some session
  · rw [hactive]
    exact .inr (hin hactive)
  rcases h with ⟨other,hother,k,hk,hlive⟩ | hrec
  · have hne : other ≠ session := by
      rintro rfl
      exact hactive hother
    exact .inl ⟨other,hother,k,(AList.lookup_erase_ne hne).trans hk,hlive⟩
  · refine .inr (hrec.mono (fun i c other hc _ hgone hmem => hgone (AList.mem_erase.mp hmem).2)
      fun other hother hzero => (AList.lookup_erase_ne ?_).trans hzero)
    rintro rfl
    exact hactive hother

theorem of_applyEvent (ht : s.step .applyEvent = some t) :
    ∃ event events, s.events = event :: events ∧ eventLoop ∉ s.calls ∧
      t = proceed { s with events } eventLoop false (s.store.applyLifecycleEvent event) := by
  cases hevents : s.events with
  | nil => simp [step,hevents] at ht
  | cons event events =>
    simp only [step,hevents,Option.ite_none_left_eq_some,Option.some.injEq] at ht
    obtain ⟨hfree,rfl⟩ := ht
    exact ⟨event,events,rfl,hfree,rfl⟩

theorem attended_step (h : s.Attended) {e : SuccessionStep} (hin : s.InTime e)
    (ht : s.step e = some t) : t.Attended := by
  cases e with
  | act i action =>
    rw [step,Option.ite_none_right_eq_some,Option.some.injEq] at ht
    obtain ⟨hfree,rfl⟩ := ht
    exact attended_proceed (attended_act h hfree.2 hin)
  | applyEvent =>
    obtain ⟨event,events,hevents,hfree,rfl⟩ := of_applyEvent ht
    exact attended_proceed (attended_applyEvent h hfree hevents)
  | serve i reply =>
    obtain ⟨c,hc,ht⟩ := Option.bind_eq_some_iff.mp ht
    rw [Option.ite_none_right_eq_some,Option.some.injEq] at ht
    obtain ⟨⟨hnone,hanswers⟩,rfl⟩ := ht
    exact attended_served h hc (Option.isNone_iff_eq_none.mp hnone) hanswers hin
  | resume i =>
    obtain ⟨c,hc,ht⟩ := Option.bind_eq_some_iff.mp ht
    obtain ⟨reply,hreply,ht⟩ := Option.bind_eq_some_iff.mp ht
    obtain ⟨next,hnext,rfl⟩ := Option.map_eq_some_iff.mp ht
    have hc' : s.calls.lookup i = some ⟨c.awaiting,some reply,c.inPlace⟩ := by
      rw [hc,← hreply]
    exact attended_proceed (attended_resume h hc' hnext (hin c hc reply hreply))
  | emit event =>
    obtain rfl := Option.some.inj ht
    exact attended_of_change (s := s) rfl rfl (List.subset_append_left _ _) h
  | spawned session => exact attended_spawned h ht
  | paneOpened session => exact attended_paneOpened h ht
  | paneEnds session pane known listed => exact attended_paneEnds h hin ht
  | forget session => exact attended_forget h hin ht

end Succession
end Pyre.Gui
