import Pyre.Base.Run
import Pyre.Base.Table
import Pyre.Gui.CheckRuns
import Pyre.Proto

/-!
The chips of pull requests. A chip is asked for with the working directory and the branch of the
session's git status in the store; sweeps over all sessions and polls of the active one overlap.
-/

set_option autoImplicit false

namespace Pyre.Gui
open Base

structure GitInfo where
  branch : Text
  dirty : Nat
  ahead : Nat
  behind : Nat
  upstream : Option Text
  cwd : Option Text
  deriving DecidableEq, Repr

structure PrCiInfo where
  prNumber : Option Nat
  prUrl : Option Text
  ciState : CiState
  deriving DecidableEq, Repr

/-- Five of the fields count. -/
def gitChanged : Option GitInfo → Option GitInfo → Bool
  | none, none => false
  | none, some _ | some _, none => true
  | some a, some b => a.branch ≠ b.branch ∨ a.dirty ≠ b.dirty ∨ a.ahead ≠ b.ahead ∨
    a.behind ≠ b.behind ∨ a.upstream ≠ b.upstream

def prCiChanged : Option PrCiInfo → Option PrCiInfo → Bool
  | none, none => false
  | none, some _ | some _, none => true
  | some a, some b => a.prNumber ≠ b.prNumber ∨ a.ciState ≠ b.ciState ∨ a.prUrl ≠ b.prUrl

/-- The arguments of `github_pr_ci`. -/
structure PrCiQuery where
  cwd : Text
  branch : Text
  deriving DecidableEq, Repr

/-- Where a session is, as far as its chip goes. -/
inductive Place where
  | noRepository
  | unresolved
  | at (query : PrCiQuery)
  deriving DecidableEq, Repr

/-- An empty directory is none. -/
def placeOf : Option GitInfo → Place
  | none => .noRepository
  | some git =>
    match git.cwd with
    | none | some [] => .unresolved
    | some cwd => .at ⟨cwd,git.branch⟩

/-- A call that awaits `github_pr_ci`; a sweep goes on with the rest. -/
structure PrCiCall where
  session : SessionId
  query : PrCiQuery
  rest : List SessionId
  deriving DecidableEq, Repr

/-- The part of the store, and the poller. The last three fields say what has happened: where the
last git poll found a session, the last answer for it, and whether it has been polled since it was
found there. -/
structure PrCi where
  sessions : List SessionId
  activeSession : Option SessionId
  gitBySession : Table SessionId GitInfo
  prCiBySession : Table SessionId PrCiInfo
  polling : Bool
  lastActiveKey : Option (SessionId × Text)
  calls : List PrCiCall
  found : Table SessionId Place
  answered : Table SessionId (PrCiQuery × Option PrCiInfo)
  polled : List SessionId

/-- `sweep` is the interval's, and `stateChanges` any other change of the store. `gitPoll` is what
a git poll has learnt, and `reply` and `reject` end the call of `github_pr_ci` with the number. -/
inductive PrCiStep where
  | startPrCiPolling
  | sweep
  | setSessions (sessions : List SessionId)
  | switchSession (session : Option SessionId)
  | stateChanges
  | gitPoll (session : SessionId) (git : Option GitInfo)
  | reply (call : Nat) (prCi : Option PrCiInfo)
  | reject (call : Nat)
  deriving DecidableEq, Repr

namespace PrCi

def start : PrCi := ⟨[],none,∅,∅,false,none,[],∅,∅,[]⟩

/-- What a poll of the session asks, if anything. -/
def asks (s : PrCi) (session : SessionId) : Option PrCiQuery :=
  match placeOf (s.gitBySession.lookup session) with
  | .at query => some query
  | .noRepository | .unresolved => none

def notePolled (s : PrCi) (session : SessionId) : PrCi :=
  { s with polled := session :: s.polled }

/-- The sessions are polled one after the other, up to the first that has to wait. -/
def pollFrom (s : PrCi) : List SessionId → PrCi
  | [] => s
  | session :: rest =>
    match s.asks session with
    | some query => { s.notePolled session with calls := s.calls ++ [⟨session,query,rest⟩] }
    | none => pollFrom (s.notePolled session) rest

def pollSession (s : PrCi) (session : SessionId) : PrCi := s.pollFrom [session]

def pollAll (s : PrCi) : PrCi := s.pollFrom s.sessions

/-- A branch that is not known counts as an empty one. -/
def activeKey (s : PrCi) (active : SessionId) : SessionId × Text :=
  (active,(s.gitBySession.lookup active).elim [] (·.branch))

/-- Only the active session and its branch are looked at. -/
def onStateChange (s : PrCi) : PrCi :=
  match s.activeSession with
  | none => s
  | some active =>
    if s.polling = false ∨ some (s.activeKey active) = s.lastActiveKey then s
    else pollSession { s with lastActiveKey := some (s.activeKey active) } active

/-- `setSessionGit` up to its notification. -/
def storeGit (s : PrCi) (session : SessionId) (git : Option GitInfo) : PrCi :=
  { s with gitBySession := git.elim (s.gitBySession.erase session) (s.gitBySession.insert session) }

def setSessionGit (s : PrCi) (session : SessionId) (git : Option GitInfo) : PrCi :=
  if gitChanged (s.gitBySession.lookup session) git then (s.storeGit session git).onStateChange
  else s

def storePrCi (s : PrCi) (session : SessionId) (prCi : Option PrCiInfo) : PrCi :=
  { s with
    prCiBySession := prCi.elim (s.prCiBySession.erase session) (s.prCiBySession.insert session) }

def setSessionPrCi (s : PrCi) (session : SessionId) (prCi : Option PrCiInfo) : PrCi :=
  if prCiChanged (s.prCiBySession.lookup session) prCi then
    (s.storePrCi session prCi).onStateChange
  else s

/-- The session is found somewhere: when that is elsewhere, it has not been polled there. -/
def noteGit (s : PrCi) (session : SessionId) (git : Option GitInfo) : PrCi :=
  { s with
    found := s.found.insert session (placeOf git)
    polled := if s.found.lookup session = some (placeOf git) then s.polled
      else s.polled.filter (· ≠ session) }

def noteAnswer (s : PrCi) (call : Nat) (c : PrCiCall) (prCi : Option PrCiInfo) : PrCi :=
  { s with
    calls := s.calls.eraseIdx call
    answered := s.answered.insert c.session (c.query,prCi) }

def dropCall (s : PrCi) (call : Nat) : PrCi := { s with calls := s.calls.eraseIdx call }

def step (s : PrCi) : PrCiStep → Option PrCi
  | .startPrCiPolling => if s.polling then none else some { s.pollAll with polling := true }
  | .sweep => if s.polling then some s.pollAll else none
  | .setSessions sessions => some (onStateChange { s with sessions })
  | .switchSession session => some (onStateChange { s with activeSession := session })
  | .stateChanges => some s.onStateChange
  | .gitPoll session git => some ((s.noteGit session git).setSessionGit session git)
  | .reply call prCi => s.calls[call]?.map fun c =>
    ((s.noteAnswer call c prCi).setSessionPrCi c.session prCi).pollFrom c.rest
  | .reject call => s.calls[call]?.map fun c => (s.dropCall call).pollFrom c.rest

/-- The chip is the answer for the place the session was found in; outside of a repository there
is none. -/
def Belongs (s : PrCi) (session : SessionId) : Prop :=
  match s.found.lookup session with
  | some .noRepository => s.prCiBySession.lookup session = none
  | some (.at query) =>
    s.answered.lookup session = some (query,s.prCiBySession.lookup session)
  | some .unresolved | none => True

/-- With no reply pending, of each session that has been polled since its last git change. -/
def ChipsRight (s : PrCi) : Prop := s.calls = [] → ∀ session ∈ s.polled, s.Belongs session

/-! The conditions on the steps. -/

/-- A call for the session is in flight, and asks about the place it was found in. -/
def Awaits (s : PrCi) (session : SessionId) : Prop :=
  match s.found.lookup session with
  | some .noRepository => ∃ c ∈ s.calls, c.session = session
  | some (.at query) => ∃ c ∈ s.calls, c.session = session ∧ c.query = query
  | some .unresolved | none => False

/-- A poll finds the place of the session in the store, and no chip of one that has left its
repository for good. -/
def MayPoll (s : PrCi) (session : SessionId) : Prop :=
  match s.found.lookup session with
  | some .noRepository => s.prCiBySession.lookup session = none ∨ s.Awaits session
  | some (.at query) => s.asks session = some query
  | some .unresolved | none => True

def PollsInTime (s : PrCi) : List SessionId → Prop
  | [] => True
  | session :: rest => s.MayPoll session ∧ (s.asks session = none → PollsInTime s rest)

/-- The active session is polled when its key has changed. -/
def NoticesInTime (s : PrCi) : Prop :=
  s.polling → ∀ active ∈ s.activeSession,
    some (s.activeKey active) ≠ s.lastActiveKey → s.MayPoll active

/-- An answer is one to what is to be asked now, or another call still is in flight. -/
def AnswersInTime (s : PrCi) (call : Nat) (c : PrCiCall) (prCi : Option PrCiInfo) : Prop :=
  c.session ∈ s.polled → (s.dropCall call).Awaits c.session ∨
    match s.found.lookup c.session with
    | some .noRepository => prCi = none
    | some (.at query) => c.query = query
    | some .unresolved | none => True

def InTime (s : PrCi) : PrCiStep → Prop
  | .startPrCiPolling | .sweep => s.PollsInTime s.sessions
  | .setSessions _ | .stateChanges => s.NoticesInTime
  | .switchSession session => NoticesInTime { s with activeSession := session }
  | .gitPoll session git => gitChanged (s.gitBySession.lookup session) git →
    ((s.noteGit session git).storeGit session git).NoticesInTime
  | .reply call prCi => ∀ c ∈ s.calls[call]?, s.AnswersInTime call c prCi ∧
    (prCiChanged (s.prCiBySession.lookup c.session) prCi →
      ((s.noteAnswer call c prCi).storePrCi c.session prCi).NoticesInTime) ∧
      ((s.noteAnswer call c prCi).setSessionPrCi c.session prCi).PollsInTime c.rest
  | .reject call => ∀ c ∈ s.calls[call]?,
    (c.session ∈ s.polled → s.Belongs c.session ∨ (s.dropCall call).Awaits c.session) ∧
      (s.dropCall call).PollsInTime c.rest

instance (s : PrCi) (session : SessionId) : Decidable (s.Belongs session) := by
  unfold Belongs
  split <;> infer_instance

instance (s : PrCi) (session : SessionId) : Decidable (s.Awaits session) := by
  unfold Awaits
  split <;> infer_instance

instance (s : PrCi) (session : SessionId) : Decidable (s.MayPoll session) := by
  unfold MayPoll
  split <;> infer_instance

instance PollsInTime.decidable (s : PrCi) : ∀ sessions, Decidable (s.PollsInTime sessions)
  | [] => isTrue trivial
  | _ :: rest =>
    have := PollsInTime.decidable s rest
    inferInstanceAs (Decidable (_ ∧ (_ → _)))

instance (s : PrCi) : Decidable s.ChipsRight := inferInstanceAs (Decidable (_ → _))

instance (s : PrCi) : Decidable s.NoticesInTime := inferInstanceAs (Decidable (_ → _))

instance (s : PrCi) (call : Nat) (c : PrCiCall) (prCi : Option PrCiInfo) :
    Decidable (s.AnswersInTime call c prCi) := by
  unfold AnswersInTime
  refine @instDecidableForall _ _ _ (@instDecidableOr _ _ _ ?_)
  split <;> infer_instance

instance (s : PrCi) : DecidablePred s.InTime := fun a => by
  cases a <;> unfold InTime <;> infer_instance

/-- What the steps keep: the chip of a session that has been polled belongs to it, or will. -/
def Settled (s : PrCi) : Prop := ∀ session ∈ s.polled, s.Belongs session ∨ s.Awaits session

/-- No more has happened than that calls were made. -/
structure Keeps (s t : PrCi) : Prop where
  found : t.found = s.found
  chips : t.prCiBySession = s.prCiBySession
  answered : t.answered = s.answered
  calls : s.calls ⊆ t.calls

/-- Sessions have been polled in time. -/
structure Asked (s t : PrCi) : Prop extends s.Keeps t where
  polled : ∀ session ∈ t.polled, session ∈ s.polled ∨ t.Belongs session ∨ t.Awaits session

variable {s t u : PrCi} {session : SessionId} {call : Nat} {c : PrCiCall}
  {prCi : Option PrCiInfo}

theorem Keeps.refl (s : PrCi) : s.Keeps s := ⟨rfl,rfl,rfl,fun _ hc => hc⟩

theorem Keeps.belongs (h : s.Keeps t) (hs : s.Belongs session) : t.Belongs session := by
  unfold Belongs
  rw [h.found,h.chips,h.answered]
  exact hs

theorem Keeps.awaits (h : s.Keeps t) (hs : s.Awaits session) : t.Awaits session := by
  unfold Awaits at hs ⊢
  rw [h.found]
  split at hs
  · obtain ⟨c,hc,hsession⟩ := hs
    exact ⟨c,h.calls hc,hsession⟩
  · obtain ⟨c,hc,hquery⟩ := hs
    exact ⟨c,h.calls hc,hquery⟩
  · exact hs
  · exact hs

theorem Asked.refl (s : PrCi) : s.Asked s := ⟨.refl s,fun _ hsession => .inl hsession⟩

theorem Settled.asked (hs : s.Settled) (h : s.Asked t) : t.Settled := by
  intro session hsession
  rcases h.polled session hsession with hold | hnew
  · exact (hs session hold).imp h.belongs h.awaits
  · exact hnew

theorem pollsInTime_notePolled (session : SessionId) (sessions : List SessionId) :
    (s.notePolled session).PollsInTime sessions ↔ s.PollsInTime sessions := by
  induction sessions with
  | nil => exact Iff.rfl
  | cons other rest ih => exact and_congr Iff.rfl (imp_congr Iff.rfl ih)

/-- A session that may be polled asks about its place, or needs no answer. -/
theorem MayPoll.owed (h : s.MayPoll session) (hask : s.Keeps t)
    (hasks : ∀ query, s.asks session = some query →
      ∃ c ∈ t.calls, c.session = session ∧ c.query = query) :
    t.Belongs session ∨ t.Awaits session := by
  unfold MayPoll at h
  split at h
  · rename_i hfound
    refine h.imp (fun hnone => ?_) hask.awaits
    rw [Belongs,hask.found,hfound,hask.chips]
    exact hnone
  · rename_i query hfound
    refine .inr ?_
    rw [Awaits,hask.found,hfound]
    exact hasks query h
  · rename_i hfound
    refine .inl ?_
    rw [Belongs,hask.found,hfound]
    trivial
  · rename_i hfound
    refine .inl ?_
    rw [Belongs,hask.found,hfound]
    trivial

theorem asked_pollFrom {sessions : List SessionId} (h : s.PollsInTime sessions) :
    s.Asked (s.pollFrom sessions) := by
  induction sessions generalizing s with
  | nil => exact .refl s
  | cons session rest ih =>
    obtain ⟨hmay,hrest⟩ := h
    rw [pollFrom]
    split
    · rename_i query hquery
      have hkeeps : s.Keeps
          { s.notePolled session with calls := s.calls ++ [⟨session,query,rest⟩] } :=
        ⟨rfl,rfl,rfl,List.subset_append_left _ _⟩
      refine ⟨hkeeps,fun other hother => ?_⟩
      rcases List.mem_cons.mp hother with rfl | hother
      · refine .inr (hmay.owed hkeeps fun query' hquery' => ?_)
        rw [hquery] at hquery'
        exact ⟨_,List.mem_append_right _ (List.mem_singleton_self _),rfl,
          Option.some.inj hquery'⟩
      · exact .inl hother
    · rename_i hnone
      have hlater := ih ((pollsInTime_notePolled session rest).mpr (hrest hnone))
      have hkeeps : s.Keeps ((s.notePolled session).pollFrom rest) :=
        ⟨hlater.found,hlater.chips,hlater.answered,hlater.calls⟩
      refine ⟨hkeeps,fun other hother => ?_⟩
      rcases hlater.polled other hother with hold | hnew
      · rcases List.mem_cons.mp hold with rfl | hold
        · refine .inr (hmay.owed hkeeps fun query hquery => ?_)
          rw [hnone] at hquery
          cases hquery
        · exact .inl hold
      · exact .inr hnew

theorem asked_onStateChange (h : s.NoticesInTime) : s.Asked s.onStateChange := by
  unfold onStateChange
  split
  · exact .refl s
  · rename_i active hactive
    split_ifs with hknown
    · exact .refl s
    · rw [not_or,Bool.not_eq_false] at hknown
      have hpolls : PollsInTime { s with lastActiveKey := some (s.activeKey active) } [active] :=
        ⟨h hknown.1 active hactive hknown.2,fun _ => trivial⟩
      have hasked := asked_pollFrom hpolls
      exact ⟨⟨hasked.found,hasked.chips,hasked.answered,hasked.calls⟩,hasked.polled⟩

theorem eq_of_prCiChanged {a b : Option PrCiInfo} (h : prCiChanged a b = false) : a = b := by
  cases a with
  | none =>
    cases b with
    | none => rfl
    | some b => cases h
  | some a =>
    cases b with
    | none => cases h
    | some b =>
      have hsame := of_decide_eq_false h
      simp only [not_or,not_ne_iff] at hsame
      obtain ⟨hnumber,hstate,hurl⟩ := hsame
      cases a
      cases b
      simp_all

/-- The session has gone elsewhere, or is where it was. -/
theorem Settled.noteGit (hs : s.Settled) (session : SessionId) (git : Option GitInfo) :
    (s.noteGit session git).Settled := by
  intro other hother
  have hfound : other ∈ s.polled ∧
      (s.found.insert session (placeOf git)).lookup other = s.found.lookup other := by
    simp only [PrCi.noteGit] at hother
    split_ifs at hother with hsame
    · exact ⟨hother,Table.lookup_insert_same hsame other⟩
    · obtain ⟨hother,hne⟩ := List.mem_filter.mp hother
      exact ⟨hother,AList.lookup_insert_ne (of_decide_eq_true hne)⟩
  have howed := hs other hfound.1
  unfold Belongs Awaits at howed ⊢
  simp only [PrCi.noteGit,hfound.2]
  exact howed

theorem Settled.gitPoll (hs : s.Settled) {git : Option GitInfo}
    (h : gitChanged (s.gitBySession.lookup session) git →
      ((s.noteGit session git).storeGit session git).NoticesInTime) :
    ((s.noteGit session git).setSessionGit session git).Settled := by
  unfold setSessionGit
  split_ifs with hchanged
  · have hstored : ((s.noteGit session git).storeGit session git).Settled :=
      hs.noteGit session git
    exact hstored.asked (asked_onStateChange (h hchanged))
  · exact hs.noteGit session git

/-- The call of another session is not the one that has ended. -/
theorem awaits_dropCall (hcall : s.calls[call]? = some c) (hne : session ≠ c.session)
    (h : s.Awaits session) : (s.dropCall call).Awaits session := by
  have hkept : ∀ d ∈ s.calls, d.session = session → d ∈ s.calls.eraseIdx call := by
    rintro d hd rfl
    obtain ⟨i,hi⟩ := List.mem_iff_getElem?.mp hd
    refine List.mem_eraseIdx_iff_getElem?.mpr ⟨i,?_,hi⟩
    rintro rfl
    rw [hi] at hcall
    exact hne (congrArg PrCiCall.session (Option.some.inj hcall))
  unfold Awaits at h ⊢
  simp only [dropCall]
  split at h
  · obtain ⟨d,hd,hsession⟩ := h
    exact ⟨d,hkept d hd hsession,hsession⟩
  · obtain ⟨d,hd,hsession,hquery⟩ := h
    exact ⟨d,hkept d hd hsession,hsession,hquery⟩
  · exact h
  · exact h

/-- The answer has been taken, whether its chip was stored again or not. -/
theorem Settled.stored (hs : s.Settled) (hcall : s.calls[call]? = some c)
    (hanswer : s.AnswersInTime call c prCi) {chips : Table SessionId PrCiInfo}
    (hchips : ∀ other, chips.lookup other =
      if other = c.session then prCi else s.prCiBySession.lookup other) :
    Settled { s.noteAnswer call c prCi with prCiBySession := chips } := by
  intro session hsession
  by_cases hsame : session = c.session
  · subst hsame
    rcases hanswer hsession with hawaits | hfits
    · exact .inr hawaits
    · refine .inl ?_
      have hchip : chips.lookup c.session = prCi := (hchips c.session).trans (if_pos rfl)
      simp only [Belongs,noteAnswer,hchip,AList.lookup_insert]
      split at hfits
      · exact hfits
      · rw [hfits]
      · trivial
      · trivial
  · refine (hs session hsession).imp (fun hbelongs => ?_) (awaits_dropCall hcall hsame)
    have hchip : chips.lookup session = s.prCiBySession.lookup session :=
      (hchips session).trans (if_neg hsame)
    simp only [Belongs,noteAnswer,hchip,AList.lookup_insert_ne hsame]
    exact hbelongs

theorem lookup_storePrCi (s : PrCi) (session other : SessionId) (prCi : Option PrCiInfo) :
    (s.storePrCi session prCi).prCiBySession.lookup other =
      if other = session then prCi else s.prCiBySession.lookup other := by
  rw [storePrCi]
  split_ifs with hother
  · rw [hother]
    cases prCi with
    | none => exact AList.lookup_erase _ _
    | some prCi => exact AList.lookup_insert _
  · cases prCi with
    | none => exact AList.lookup_erase_ne hother
    | some prCi => exact AList.lookup_insert_ne hother

theorem Settled.answered (hs : s.Settled) (hcall : s.calls[call]? = some c)
    (hanswer : s.AnswersInTime call c prCi)
    (hnotice : prCiChanged (s.prCiBySession.lookup c.session) prCi →
      ((s.noteAnswer call c prCi).storePrCi c.session prCi).NoticesInTime) :
    ((s.noteAnswer call c prCi).setSessionPrCi c.session prCi).Settled := by
  unfold setSessionPrCi
  split_ifs with hchanged
  · have hstored : ((s.noteAnswer call c prCi).storePrCi c.session prCi).Settled :=
      hs.stored hcall hanswer fun other => lookup_storePrCi (s.noteAnswer call c prCi) _ other _
    exact hstored.asked (asked_onStateChange (hnotice hchanged))
  · -- the chip is the one that is there
    refine hs.stored hcall hanswer fun other => ?_
    have hsame : s.prCiBySession.lookup c.session = prCi :=
      eq_of_prCiChanged (Bool.eq_false_of_not_eq_true hchanged)
    split_ifs with hother
    · rw [hother,← hsame]
    · rfl

theorem settled_step {a : PrCiStep} (hs : s.Settled) (h : s.InTime a) (ht : s.step a = some t) :
    t.Settled := by
  cases a with
  | startPrCiPolling =>
    obtain ⟨-,ht⟩ := Option.ite_none_left_eq_some.mp ht
    obtain rfl := Option.some.inj ht
    have hpolled : s.pollAll.Settled := hs.asked (asked_pollFrom h)
    exact hpolled
  | sweep =>
    obtain ⟨-,ht⟩ := Option.ite_none_right_eq_some.mp ht
    obtain rfl := Option.some.inj ht
    exact hs.asked (asked_pollFrom h)
  | setSessions sessions =>
    obtain rfl := Option.some.inj ht
    have hsame : Settled { s with sessions } := hs
    exact hsame.asked (asked_onStateChange h)
  | switchSession session =>
    obtain rfl := Option.some.inj ht
    have hsame : Settled { s with activeSession := session } := hs
    exact hsame.asked (asked_onStateChange h)
  | stateChanges =>
    obtain rfl := Option.some.inj ht
    exact hs.asked (asked_onStateChange h)
  | gitPoll session git =>
    obtain rfl := Option.some.inj ht
    exact hs.gitPoll h
  | reply call prCi =>
    obtain ⟨c,hcall,rfl⟩ := Option.map_eq_some_iff.mp ht
    obtain ⟨hanswer,hnotice,hpolls⟩ := h c hcall
    exact (hs.answered hcall hanswer hnotice).asked (asked_pollFrom hpolls)
  | reject call =>
    obtain ⟨c,hcall,rfl⟩ := Option.map_eq_some_iff.mp ht
    obtain ⟨hrejected,hpolls⟩ := h c hcall
    refine Settled.asked (fun session hsession => ?_) (asked_pollFrom hpolls)
    by_cases hsame : session = c.session
    · subst hsame
      exact hrejected hsession
    · exact (hs session hsession).imp id (awaits_dropCall hcall hsame)

end PrCi

open PrCi

/-- The chips belong to their sessions in every run whose polls ask about the place the session was
found in, whose answers to an older question are not the last ones, and in which no session with a
chip leaves its repository. -/
theorem chips_right (steps : List PrCiStep) (h : Along PrCi.step InTime .start steps) :
    Always PrCi.step ChipsRight .start steps := by
  have hstart : Settled .start := fun session hsession => by cases hsession
  refine (h.invariant (fun _ _ _ hs ha ht => settled_step hs ha ht) hstart).mono ?_
  intro t ht hidle session hsession
  refine (ht session hsession).resolve_right fun hawaits => ?_
  unfold Awaits at hawaits
  rw [hidle] at hawaits
  split at hawaits
  · obtain ⟨c,hc,-⟩ := hawaits
    cases hc
  · obtain ⟨c,hc,-⟩ := hawaits
    cases hc
  · exact hawaits
  · exact hawaits

/-- A clean branch `main` in a directory. -/
def onMain (cwd : String) : GitInfo := ⟨"main".toList,0,0,0,none,some cwd.toList⟩

def greenChip : PrCiInfo := ⟨some 7,none,.success⟩

theorem chips_right_answered : Always PrCi.step ChipsRight .start
    [.setSessions [⟨1⟩],.switchSession (some ⟨1⟩),.startPrCiPolling,
      .gitPoll ⟨1⟩ (some (onMain "/a")),.reply 0 (some greenChip)] :=
  chips_right _ (by decide)

/-- The session goes to the same branch of another directory, which no field that counts tells. -/
theorem other_directory_missed : ¬∀ steps, Always PrCi.step ChipsRight .start steps := by
  intro h
  have hrun : (exec PrCi.step .start [.setSessions [⟨1⟩],.startPrCiPolling,
      .gitPoll ⟨1⟩ (some (onMain "/a")),.sweep,.reply 0 (some greenChip),
      .gitPoll ⟨1⟩ (some (onMain "/b")),.sweep,.reply 0 (some greenChip)]).any fun t =>
        ¬t.ChipsRight := by decide
  obtain ⟨t,ht,hrun⟩ := (Option.any_eq_true _ _).mp hrun
  exact of_decide_eq_true hrun ((h _).last ht)

end Pyre.Gui
