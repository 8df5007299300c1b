import Pyre.Base.Run
import Pyre.Base.Table

/-!
The event loop of the GUI over reconnects. Two flags on different sides of an await say whether
it runs and whether it is to go on.
-/

set_option autoImplicit false

namespace Pyre.Gui
open Base

/-- What a call of `runEventLoop` awaits: the events of a poll are applied, and after a poll that
has failed it backs off. -/
inductive LoopPhase where
  | polling
  | applying
  | sleeping
  deriving DecidableEq, Repr

inductive BootPhase where
  | probing
  | loading
  | closingSplash
  | booted
  deriving DecidableEq, Repr

/-- `probing` and `loading` are of `attemptReconnect`. The button of the status bar has a call of
its own, which loads nothing. -/
inductive ReconnectPhase where
  | probing
  | loading
  | statusbar
  deriving DecidableEq, Repr

/-- `connected` is of the store; the timers say whether they have been set. -/
structure EventLoop where
  connected : Bool
  eventLoopRunning : Bool
  eventLoopActive : Bool
  reconnectTimer : Bool
  pollTimer : Bool
  boot : BootPhase
  reconnects : Table Nat ReconnectPhase
  loops : List LoopPhase

/-- The probes of the boot are one step. `reconnectTick` and `pollTick` are the timers', and
`reconnect` and `reconnectStatusbar` the buttons'. -/
inductive EventLoopStep where
  | bootProbed (connected : Bool)
  | bootLoaded
  | splashClosed
  | reconnectTick (call : Nat)
  | reconnect (call : Nat)
  | reconnectStatusbar (call : Nat)
  | probed (call : Nat) (connected : Bool)
  | loaded (call : Nat)
  | statusbarReplied (call : Nat) (connected : Bool)
  | pollTick
  | pollReturns (loop : Nat) (events : Bool)
  | pollFails (loop : Nat)
  | applied (loop : Nat)
  | slept (loop : Nat)
  deriving DecidableEq, Repr

namespace EventLoop

def start : EventLoop := ⟨false,false,false,false,false,.probing,∅,[]⟩

/-- Up to its first await. -/
def runEventLoop (s : EventLoop) : EventLoop :=
  if s.eventLoopRunning then s
  else if s.connected then { s with
    eventLoopRunning := true
    eventLoopActive := true
    loops := s.loops ++ [.polling] }
  else { s with eventLoopActive := true }

def startEventLoop (s : EventLoop) : EventLoop :=
  if s.eventLoopRunning then s
  else if s.connected then s.runEventLoop
  else s

def stopEventLoop (s : EventLoop) : EventLoop := { s with eventLoopActive := false }

def startReconnectPoll (s : EventLoop) : EventLoop := { s with reconnectTimer := true }

def stopReconnectPoll (s : EventLoop) : EventLoop := { s with reconnectTimer := false }

/-- The head of the loop: another poll, or the end. -/
def nextRound (s : EventLoop) (loop : Nat) : EventLoop :=
  if s.eventLoopActive ∧ s.connected then { s with loops := s.loops.set loop .polling }
  else { s with eventLoopRunning := false, loops := s.loops.eraseIdx loop }

def setPhase (s : EventLoop) (loop : Nat) (phase : LoopPhase) : EventLoop :=
  { s with loops := s.loops.set loop phase }

def beginReconnect (s : EventLoop) (call : Nat) (phase : ReconnectPhase) : Option EventLoop :=
  if call ∈ s.reconnects then none
  else some { s with reconnects := s.reconnects.insert call phase }

def endReconnect (s : EventLoop) (call : Nat) : EventLoop :=
  { s with reconnects := s.reconnects.erase call }

/-- The status has come: what `attemptReconnect` does then. -/
def afterProbe (s : EventLoop) (call : Nat) (connected : Bool) : EventLoop :=
  let t := { s with connected }
  if connected then
    { t.stopReconnectPoll with reconnects := s.reconnects.insert call .loading }
  else (t.stopEventLoop.startReconnectPoll).endReconnect call

def step (s : EventLoop) : EventLoopStep → Option EventLoop
  | .bootProbed connected =>
    if s.boot = .probing then
      let t := { s with connected }
      some (if connected then { t with boot := .loading }
        else { t.startReconnectPoll with boot := .closingSplash })
    else none
  | .bootLoaded =>
    if s.boot = .loading then some { s.startEventLoop with boot := .closingSplash } else none
  | .splashClosed =>
    if s.boot = .closingSplash then some { s with boot := .booted, pollTimer := true } else none
  | .reconnectTick call =>
    if s.reconnectTimer then
      if s.connected then some s.stopReconnectPoll else s.beginReconnect call .probing
    else none
  | .reconnect call => s.beginReconnect call .probing
  | .reconnectStatusbar call => s.beginReconnect call .statusbar
  | .probed call connected =>
    if s.reconnects.lookup call = some .probing then some (s.afterProbe call connected) else none
  | .loaded call =>
    if s.reconnects.lookup call = some .loading then
      some (s.startEventLoop.endReconnect call)
    else none
  | .statusbarReplied call connected =>
    if s.reconnects.lookup call = some .statusbar then
      some ({ s with connected }.endReconnect call)
    else none
  | .pollTick =>
    if s.pollTimer then
      some (if s.connected then s else s.stopEventLoop.startReconnectPoll)
    else none
  | .pollReturns loop events =>
    if s.loops[loop]? = some .polling then
      some (if events then s.setPhase loop .applying else s.nextRound loop)
    else none
  | .pollFails loop =>
    if s.loops[loop]? = some .polling then some (s.setPhase loop .sleeping) else none
  | .applied loop =>
    if s.loops[loop]? = some .applying then some (s.nextRound loop) else none
  | .slept loop =>
    if s.loops[loop]? = some .sleeping then some (s.nextRound loop) else none

/-- A connection is being made or loaded. -/
def Reconnecting (s : EventLoop) : Prop :=
  s.boot = .probing ∨ s.boot = .loading ∨ s.reconnects.keys ≠ []

def Polling (s : EventLoop) : Prop := .polling ∈ s.loops

/-- There is one loop, which goes on. -/
def Alive (s : EventLoop) : Prop :=
  s.loops.length = 1 ∧ s.eventLoopRunning ∧ s.eventLoopActive

/-- The GUI gets its events, whatever it still awaits. -/
def Served (s : EventLoop) : Prop :=
  s.connected → ¬s.Reconnecting → ¬s.Polling → s.Alive

/-- A start is ignored for good: the loop has been told to stop, and will not poll before it
ends. -/
def Ending (s : EventLoop) : Prop :=
  s.eventLoopRunning ∧ ¬s.eventLoopActive ∧ ¬s.Polling

/-- A connection that is complete finds no loop that is ending, that of the status bar a loop, and
a poll returns to no loop that was told to stop. -/
def InTime (s : EventLoop) : EventLoopStep → Prop
  | .bootLoaded => s.boot = .loading →
    s.connected → ¬Reconnecting { s with boot := .closingSplash } → ¬s.Ending
  | .loaded call => s.reconnects.lookup call = some .loading →
    s.connected → ¬(s.endReconnect call).Reconnecting → ¬s.Ending
  | .statusbarReplied call connected => s.reconnects.lookup call = some .statusbar →
    connected → ¬(s.endReconnect call).Reconnecting →
      s.Polling ∨ s.eventLoopRunning ∧ s.eventLoopActive
  | .pollReturns loop _ | .pollFails loop => s.loops[loop]? = some .polling →
    s.connected → ¬s.Reconnecting → s.eventLoopActive
  | _ => True

instance (s : EventLoop) : Decidable s.Reconnecting :=
  inferInstanceAs (Decidable (_ ∨ _ ∨ _))

instance (s : EventLoop) : Decidable s.Polling := inferInstanceAs (Decidable (_ ∈ _))

instance (s : EventLoop) : Decidable s.Alive := inferInstanceAs (Decidable (_ ∧ _))

instance (s : EventLoop) : Decidable s.Served := inferInstanceAs (Decidable (_ → _))

/-- The flag and the calls agree: a second call returns at once. -/
def Guarded (s : EventLoop) : Prop := s.loops.length = if s.eventLoopRunning then 1 else 0

variable {s t : EventLoop} {loop call : Nat} {phase : LoopPhase}

theorem guarded_startEventLoop (h : s.Guarded) : s.startEventLoop.Guarded := by
  unfold startEventLoop runEventLoop
  split_ifs with hrunning hconnected
  · exact h
  · simp only [Guarded,hrunning,Bool.false_eq_true,if_false] at h
    simp [Guarded,h]
  · exact h

/-- A loop that awaits something is the only one. -/
theorem Guarded.only (h : s.Guarded) (hloop : s.loops[loop]? = some phase) :
    s.eventLoopRunning ∧ s.loops = [phase] ∧ loop = 0 := by
  unfold Guarded at h
  have hlt := (List.getElem?_eq_some_iff.mp hloop).1
  split_ifs at h with hrunning
  · obtain ⟨only,honly⟩ := List.length_eq_one_iff.mp h
    obtain rfl : loop = 0 := by omega
    rw [honly] at hloop
    exact ⟨hrunning,by rw [honly,Option.some.inj hloop],rfl⟩
  · omega

theorem guarded_setPhase (h : s.Guarded) (loop : Nat) (phase : LoopPhase) :
    (s.setPhase loop phase).Guarded := by
  have hlength : (s.setPhase loop phase).loops.length = s.loops.length := List.length_set
  exact hlength.trans h

theorem guarded_nextRound (h : s.Guarded) (hloop : s.loops[loop]? = some phase) :
    (s.nextRound loop).Guarded := by
  obtain ⟨hrunning,hloops,rfl⟩ := h.only hloop
  unfold nextRound
  split_ifs
  · simp [Guarded,hrunning,hloops]
  · simp [Guarded,hloops]

theorem guarded_step {a : EventLoopStep} (h : s.Guarded) (ht : s.step a = some t) : t.Guarded := by
  cases a with
  | bootProbed connected =>
    obtain ⟨-,ht⟩ := Option.ite_none_right_eq_some.mp ht
    obtain rfl := Option.some.inj ht
    split_ifs <;> exact h
  | bootLoaded =>
    obtain ⟨-,ht⟩ := Option.ite_none_right_eq_some.mp ht
    obtain rfl := Option.some.inj ht
    exact guarded_startEventLoop h
  | splashClosed =>
    obtain ⟨-,ht⟩ := Option.ite_none_right_eq_some.mp ht
    obtain rfl := Option.some.inj ht
    exact h
  | reconnectTick call =>
    obtain ⟨-,ht⟩ := Option.ite_none_right_eq_some.mp ht
    split_ifs at ht
    · obtain rfl := Option.some.inj ht
      exact h
    · obtain ⟨-,ht⟩ := Option.ite_none_left_eq_some.mp ht
      obtain rfl := Option.some.inj ht
      exact h
  | reconnect call | reconnectStatusbar call =>
    obtain ⟨-,ht⟩ := Option.ite_none_left_eq_some.mp ht
    obtain rfl := Option.some.inj ht
    exact h
  | probed call connected =>
    obtain ⟨-,ht⟩ := Option.ite_none_right_eq_some.mp ht
    obtain rfl := Option.some.inj ht
    cases connected <;> exact h
  | loaded call =>
    obtain ⟨-,ht⟩ := Option.ite_none_right_eq_some.mp ht
    obtain rfl := Option.some.inj ht
    exact guarded_startEventLoop h
  | statusbarReplied call connected =>
    obtain ⟨-,ht⟩ := Option.ite_none_right_eq_some.mp ht
    obtain rfl := Option.some.inj ht
    exact h
  | pollTick =>
    obtain ⟨-,ht⟩ := Option.ite_none_right_eq_some.mp ht
    obtain rfl := Option.some.inj ht
    split_ifs <;> exact h
  | pollReturns loop events =>
    obtain ⟨hloop,ht⟩ := Option.ite_none_right_eq_some.mp ht
    obtain rfl := Option.some.inj ht
    split_ifs
    · exact guarded_setPhase h loop _
    · exact guarded_nextRound h hloop
  | pollFails loop =>
    obtain ⟨-,ht⟩ := Option.ite_none_right_eq_some.mp ht
    obtain rfl := Option.some.inj ht
    exact guarded_setPhase h loop _
  | applied loop | slept loop =>
    obtain ⟨hloop,ht⟩ := Option.ite_none_right_eq_some.mp ht
    obtain rfl := Option.some.inj ht
    exact guarded_nextRound h hloop

/-! Which steps keep the GUI served. -/

theorem Served.of_reconnecting (h : s.Reconnecting) : s.Served := fun _ hnot => absurd h hnot

theorem Served.of_disconnected (h : s.connected = false) : s.Served := by
  intro hconnected
  rw [h] at hconnected
  cases hconnected

theorem Reconnecting.of_insert {call : Nat} {phase : ReconnectPhase}
    (h : t.reconnects = s.reconnects.insert call phase) : t.Reconnecting := by
  refine .inr (.inr ?_)
  rw [h]
  exact List.ne_nil_of_mem (AList.mem_insert _ |>.mpr (.inl rfl))

/-- With the guard, to be served is a matter of the flags. -/
theorem Guarded.served_iff (h : s.Guarded) : s.Served ↔
    (s.connected → ¬s.Reconnecting → s.Polling ∨ s.eventLoopRunning ∧ s.eventLoopActive) := by
  have hone : s.eventLoopRunning → s.loops.length = 1 := by
    intro hrunning
    rw [Guarded,if_pos hrunning] at h
    exact h
  unfold Served Alive
  grind

@[simp] theorem connected_startEventLoop : s.startEventLoop.connected = s.connected := by
  unfold startEventLoop runEventLoop
  split_ifs <;> rfl

@[simp] theorem boot_startEventLoop : s.startEventLoop.boot = s.boot := by
  unfold startEventLoop runEventLoop
  split_ifs <;> rfl

@[simp] theorem reconnects_startEventLoop : s.startEventLoop.reconnects = s.reconnects := by
  unfold startEventLoop runEventLoop
  split_ifs <;> rfl

/-- A loop is started, or one is there. -/
theorem startEventLoop_serves_iff (hconnected : s.connected = true) :
    (s.startEventLoop.Polling ∨
      s.startEventLoop.eventLoopRunning ∧ s.startEventLoop.eventLoopActive) ↔ ¬s.Ending := by
  by_cases hrunning : s.eventLoopRunning = true
  · have hsame : s.startEventLoop = s := if_pos hrunning
    rw [hsame,Ending]
    tauto
  · have hstarted : s.startEventLoop = { s with
        eventLoopRunning := true
        eventLoopActive := true
        loops := s.loops ++ [.polling] } := by
      simp [startEventLoop,runEventLoop,hrunning,hconnected]
    refine iff_of_true (.inl ?_) fun hending => hrunning hending.1
    rw [hstarted]
    simp [Polling]

/-- A state with the loop that `startEventLoop` leaves is served unless that loop was ending. -/
theorem served_started_iff (h : t.Guarded) (hconnected : t.connected = s.connected)
    (hserves : t.Polling ∨ t.eventLoopRunning ∧ t.eventLoopActive ↔
      s.startEventLoop.Polling ∨
        s.startEventLoop.eventLoopRunning ∧ s.startEventLoop.eventLoopActive) :
    t.Served ↔ (s.connected → ¬t.Reconnecting → ¬s.Ending) := by
  rw [h.served_iff,hserves,hconnected]
  exact forall_congr' fun hc => by rw [startEventLoop_serves_iff hc]

theorem served_bootLoaded_iff (h : s.Guarded) :
    Served { s.startEventLoop with boot := .closingSplash } ↔
      (s.connected → ¬Reconnecting { s with boot := .closingSplash } → ¬s.Ending) := by
  have hguarded : Guarded { s.startEventLoop with boot := .closingSplash } :=
    guarded_startEventLoop h
  rw [served_started_iff hguarded (connected_startEventLoop ..) Iff.rfl]
  simp only [Reconnecting,reconnects_startEventLoop]

theorem served_loaded_iff (h : s.Guarded) : (s.startEventLoop.endReconnect call).Served ↔
    (s.connected → ¬(s.endReconnect call).Reconnecting → ¬s.Ending) := by
  have hguarded : (s.startEventLoop.endReconnect call).Guarded := guarded_startEventLoop h
  rw [served_started_iff hguarded (connected_startEventLoop ..) Iff.rfl]
  simp only [Reconnecting,endReconnect,reconnects_startEventLoop,boot_startEventLoop]

/-- The phase after a poll is one without a poll, and the loop goes on if it may. -/
theorem served_setPhase_iff (h : s.Guarded) (hloop : s.loops[loop]? = some .polling)
    (hphase : phase ≠ .polling) : (s.setPhase loop phase).Served ↔
      (s.connected → ¬s.Reconnecting → s.eventLoopActive) := by
  obtain ⟨hrunning,hloops,rfl⟩ := h.only hloop
  have hguarded := guarded_setPhase h 0 phase
  rw [hguarded.served_iff]
  have hnot : ¬(s.setPhase 0 phase).Polling := by
    simpa [Polling,setPhase,hloops] using hphase.symm
  refine forall_congr' fun _ => forall_congr' fun _ => ?_
  exact ⟨fun hserves => (hserves.resolve_left hnot).2,fun hactive => .inr ⟨hrunning,hactive⟩⟩

theorem served_nextRound_iff (h : s.Guarded) (hloop : s.loops[loop]? = some phase) :
    (s.nextRound loop).Served ↔ (s.connected → ¬s.Reconnecting → s.eventLoopActive) := by
  obtain ⟨hrunning,hloops,rfl⟩ := h.only hloop
  have hguarded := guarded_nextRound h hloop
  rw [hguarded.served_iff]
  by_cases hgoes : s.eventLoopActive ∧ s.connected
  · have hnext : s.nextRound 0 = { s with loops := s.loops.set 0 .polling } := if_pos hgoes
    rw [hnext]
    refine iff_of_true (fun _ _ => .inl ?_) fun _ _ => hgoes.1
    simp [Polling,hloops]
  · have hnext : s.nextRound 0 = { s with eventLoopRunning := false, loops := [] } := by
      rw [nextRound,if_neg hgoes,hloops]
      rfl
    rw [hnext]
    refine forall_congr' fun hconnected => forall_congr' fun _ => ?_
    simp only [Polling,List.not_mem_nil,Bool.false_eq_true,false_and,or_false,false_iff]
    exact fun hactive => hgoes ⟨hactive,hconnected⟩

/-- A loop that does not poll is asked to go on in a state that is served already. -/
theorem Served.nextRound (hs : s.Served) (h : s.Guarded) (hloop : s.loops[loop]? = some phase)
    (hphase : phase ≠ .polling) : (s.nextRound loop).Served := by
  obtain ⟨hrunning,hloops,rfl⟩ := h.only hloop
  refine (served_nextRound_iff h hloop).mpr fun hconnected hnot => ?_
  have hpolling : ¬s.Polling := by simpa [Polling,hloops] using hphase.symm
  exact (hs hconnected hnot hpolling).2.2

/-- Of a step that is taken under a condition, and that comes to one state. -/
theorem served_after_iff {cond inTime : Prop} {t' : EventLoop}
    (h : cond → (t'.Served ↔ inTime)) :
    (cond → inTime) ↔ ∀ t, cond → t' = t → t.Served :=
  ⟨fun hin _ hcond ht => ht ▸ (h hcond).mpr (hin hcond),
    fun hall hcond => (h hcond).mp (hall _ hcond rfl)⟩

theorem served_step_iff (h : s.Guarded) (hs : s.Served) (a : EventLoopStep) :
    s.InTime a ↔ ∀ t, s.step a = some t → t.Served := by
  cases a with
  | bootProbed connected =>
    refine iff_of_true trivial fun t ht => ?_
    obtain ⟨-,ht⟩ := Option.ite_none_right_eq_some.mp ht
    obtain rfl := Option.some.inj ht
    cases connected with
    | true => exact .of_reconnecting (.inr (.inl rfl))
    | false => exact .of_disconnected rfl
  | bootLoaded =>
    simp only [InTime,step,Option.ite_none_right_eq_some,Option.some.injEq,and_imp]
    exact served_after_iff fun _ => served_bootLoaded_iff h
  | splashClosed =>
    refine iff_of_true trivial fun t ht => ?_
    obtain ⟨hboot,ht⟩ := Option.ite_none_right_eq_some.mp ht
    obtain rfl := Option.some.inj ht
    intro hconnected hnot
    refine hs hconnected fun hreconnecting => hnot (.inr (.inr ?_))
    simpa [Reconnecting,hboot] using hreconnecting
  | reconnectTick call =>
    refine iff_of_true trivial fun t ht => ?_
    obtain ⟨-,ht⟩ := Option.ite_none_right_eq_some.mp ht
    split_ifs at ht
    · obtain rfl := Option.some.inj ht
      exact hs
    · obtain ⟨-,ht⟩ := Option.ite_none_left_eq_some.mp ht
      obtain rfl := Option.some.inj ht
      exact .of_reconnecting (.of_insert rfl)
  | reconnect call | reconnectStatusbar call =>
    refine iff_of_true trivial fun t ht => ?_
    obtain ⟨-,ht⟩ := Option.ite_none_left_eq_some.mp ht
    obtain rfl := Option.some.inj ht
    exact .of_reconnecting (.of_insert rfl)
  | probed call connected =>
    refine iff_of_true trivial fun t ht => ?_
    obtain ⟨-,ht⟩ := Option.ite_none_right_eq_some.mp ht
    obtain rfl := Option.some.inj ht
    cases connected with
    | true => exact .of_reconnecting (.of_insert rfl)
    | false => exact .of_disconnected rfl
  | loaded call =>
    simp only [InTime,step,Option.ite_none_right_eq_some,Option.some.injEq,and_imp]
    exact served_after_iff fun _ => served_loaded_iff h
  | statusbarReplied call connected =>
    have hguarded : (endReconnect { s with connected } call).Guarded := h
    simp only [InTime,step,Option.ite_none_right_eq_some,Option.some.injEq,and_imp]
    exact served_after_iff fun _ => hguarded.served_iff
  | pollTick =>
    refine iff_of_true trivial fun t ht => ?_
    obtain ⟨-,ht⟩ := Option.ite_none_right_eq_some.mp ht
    obtain rfl := Option.some.inj ht
    split_ifs with hconnected
    · exact hs
    · exact .of_disconnected (Bool.eq_false_of_not_eq_true hconnected)
  | pollReturns loop events =>
    simp only [InTime,step,Option.ite_none_right_eq_some,Option.some.injEq,and_imp]
    cases events with
    | true => exact served_after_iff fun hloop => served_setPhase_iff h hloop (by decide)
    | false => exact served_after_iff fun hloop => served_nextRound_iff h hloop
  | pollFails loop =>
    simp only [InTime,step,Option.ite_none_right_eq_some,Option.some.injEq,and_imp]
    exact served_after_iff fun hloop => served_setPhase_iff h hloop (by decide)
  | applied loop | slept loop =>
    refine iff_of_true trivial fun t ht => ?_
    obtain ⟨hloop,ht⟩ := Option.ite_none_right_eq_some.mp ht
    obtain rfl := Option.some.inj ht
    exact hs.nextRound h hloop (by decide)

end EventLoop

open EventLoop

/-- The event loop survives the reconnects of just those runs in which no step meets a loop that
was told to stop. -/
theorem event_loop_survives_iff (steps : List EventLoopStep) :
    Always EventLoop.step Served .start steps ↔ Along EventLoop.step InTime .start steps := by
  have hguarded : Guarded .start := rfl
  have hserved : Served .start := .of_disconnected rfl
  exact (along_iff_always (fun _ _ _ h ht => guarded_step h ht)
    (fun _ a h hs => served_step_iff h hs a) hguarded hserved).symm

/-- Two probes overlap and the second one fails; the loop is told to stop, the start after the
next probe is ignored, and the poll then returns. -/
theorem event_loop_lost : ¬∀ steps, Always EventLoop.step Served .start steps := by
  intro h
  have hrun : (exec EventLoop.step .start [.bootProbed false,.splashClosed,.reconnectTick 0,
      .reconnectTick 1,.probed 0 true,.loaded 0,.probed 1 false,.reconnectTick 2,.probed 2 true,
      .loaded 2,.pollReturns 0 false]).any fun t =>
        t.connected ∧ ¬t.Reconnecting ∧ ¬t.Polling ∧ t.loops = [] := by decide
  obtain ⟨t,ht,hrun⟩ := (Option.any_eq_true _ _).mp hrun
  obtain ⟨hconnected,hdone,hidle,hnone⟩ := of_decide_eq_true hrun
  have hone := ((h _).last ht hconnected hdone hidle).1
  rw [hnone] at hone
  cases hone

end Pyre.Gui
