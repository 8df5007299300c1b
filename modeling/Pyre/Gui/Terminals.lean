import Pyre.Gui.Pumps
import Pyre.Gui.Store

/-!
The terminals of the GUI. A pane has a terminal from the first time its card is drawn, in a
microtask after the render, and an output pump from the time a reload asks for one; frames of the
pump that find no terminal are dropped.
-/

set_option autoImplicit false

namespace Pyre.Gui
open Base

/-- The text of a fingerprint. -/
inductive Mark where
  | disconnected
  | noWindows
  | window (w : WindowId)
  | noLayout
  | pane (p : PaneId)
  | opening (dir : Orient)
  | closing
  | active (w : Option WindowId)
  | zoom (p : Option PaneId)
  deriving DecidableEq

mutual

def fingerprintNode : LayoutNode → List Mark
  | .leaf p => [.pane p]
  | .split dir children => .opening dir :: (fingerprintChildren children ++ [.closing])

def fingerprintChildren : List (LayoutNode × UInt16) → List Mark
  | [] => []
  | (child,_) :: rest => fingerprintNode child ++ fingerprintChildren rest

end

namespace Store

def shownWindows (s : Store) : List WindowId := s.activeSession.elim [] s.windowTabs

def shownWindow (s : Store) : Option WindowId := s.activeSession.bind s.activeWindowOf

def windowsFingerprint (s : Store) (connected : Bool) : List Mark :=
  if connected = false then [.disconnected]
  else if s.shownWindows = [] then [.noWindows]
  else
    (s.shownWindows.flatMap fun w =>
        .window w :: (s.layouts.lookup w).elim [.noLayout] fingerprintNode)
      ++ [.active s.shownWindow,.zoom s.zoomedPane]

/-- What `renderCenter` draws: all windows of the session, only one of them to be seen, and in
that the zoomed pane alone. -/
def cards (s : Store) (connected : Bool) : List PaneId :=
  if connected = false then []
  else s.shownWindows.flatMap fun w =>
    match s.layouts.lookup w, s.zoomedPane with
    | none, _ => []
    | some tree, some zoomed => if s.shownWindow = some w then [zoomed] else tree.allLeaves
    | some tree, none => tree.allLeaves

end Store

/-- What the bridge has emitted and the webview has not handled. -/
inductive WebviewEvent where
  | ptyOutput (pane : PaneId) (pump frame : Nat)
  | paneClosed (pane : PaneId)
  deriving DecidableEq

/-- `terms` has for each mounted terminal the frames it was written, by their pump and number.
`mounts` are the microtasks of the last renders. -/
structure Terminals where
  store : Store
  connected : Bool
  lastFingerprint : List Mark
  mounts : List PaneId
  terms : Table PaneId (List (Nat × Nat))
  events : List WebviewEvent
  pumps : Pumps
  emitted : Table Nat Nat
  live : Finset PaneId

/-- The parts of a stretch of code without an await that matter here. `setState` is any change of
the store, with the render it causes (none of the center while a name is edited in it); `attach`
is `ensureStreams` for one of its panes. -/
inductive ScriptOp where
  | setState (store : Store) (connected editing : Bool)
  | dispose (pane : PaneId)
  | attach (call : Nat) (pane : PaneId)
  | detach (call : Nat) (pane : PaneId)

/-- `script` is a stretch of code of any of the functions of the webview, and `mount` a microtask
of a render. `bridge` is a step of the bridge; `frame` a frame that a pump emits. -/
inductive TerminalStep where
  | script (ops : List ScriptOp)
  | mount
  | handle
  | bridge (e : PumpStep)
  | frame (pump : Nat)
  | paneBegins (pane : PaneId)
  | paneEnds (pane : PaneId)

/-- A command that the webview invokes. -/
def PumpStep.Invoked : PumpStep → Bool
  | .attachPaneStream _ _ | .detachPaneStream _ _ => true
  | _ => false

namespace Terminals

def start : Terminals := ⟨.start,false,[],[],∅,[],.start,∅,∅⟩

def renderCenter (s : Terminals) : Terminals :=
  let fp := s.store.windowsFingerprint s.connected
  if fp = s.lastFingerprint then s
  else { s with
    lastFingerprint := fp
    mounts := s.mounts ++ s.store.cards s.connected }

def disposePaneTerminal (s : Terminals) (pane : PaneId) : Terminals :=
  { s with terms := s.terms.erase pane }

def run (s : Terminals) : ScriptOp → Option Terminals
  | .setState store connected editing =>
    let t := { s with store, connected }
    some (if editing then t else t.renderCenter)
  | .dispose pane => some (s.disposePaneTerminal pane)
  | .attach i pane =>
    if pane ∈ s.terms then some s
    else (s.pumps.step (.attachPaneStream i pane)).map fun pumps => { s with pumps }
  | .detach i pane =>
    (s.pumps.step (.detachPaneStream i pane)).map fun pumps => { s with pumps }

/-- A terminal that exists is only moved to the new card. -/
def mountPaneTerminal (s : Terminals) (pane : PaneId) : Terminals :=
  if pane ∈ s.terms then s else { s with terms := s.terms.insert pane [] }

def writePaneOutput (s : Terminals) (pane : PaneId) (pump frame : Nat) : Terminals :=
  match s.terms.lookup pane with
  | some written => { s with terms := s.terms.insert pane (written ++ [(pump,frame)]) }
  | none => s

def onEvent (s : Terminals) : WebviewEvent → Terminals
  | .ptyOutput pane pump frame => s.writePaneOutput pane pump frame
  | .paneClosed pane => s.disposePaneTerminal pane

/-- The end of a stream is emitted. -/
def ended (s : Terminals) : PumpStep → List WebviewEvent
  | .pumpEnds k => (s.pumps.tasks.lookup k).elim [] fun pump => [.paneClosed pump.pane]
  | _ => []

/-- What the bridge does by itself: the lock sections after a command has been invoked. -/
def bridge (s : Terminals) (e : PumpStep) : Option Terminals :=
  if e.Invoked then none
  else (s.pumps.step e).map fun pumps => { s with pumps, events := s.events ++ s.ended e }

def emittedBy (s : Terminals) (k : Nat) : Nat := (s.emitted.lookup k).getD 0

def frame (s : Terminals) (k : Nat) : Option Terminals :=
  (s.pumps.tasks.lookup k).bind fun pump =>
    if pump.running then some { s with
      events := s.events ++ [.ptyOutput pump.pane k (s.emittedBy k)]
      emitted := s.emitted.insert k (s.emittedBy k+1) }
    else none

def step (s : Terminals) : TerminalStep → Option Terminals
  | .script ops => exec run s ops
  | .mount =>
    match s.mounts with
    | pane :: mounts => some { s.mountPaneTerminal pane with mounts }
    | [] => none
  | .handle =>
    match s.events with
    | e :: events => if s.mounts = [] then some ({ s with events }.onEvent e) else none
    | [] => none
  | .bridge e => s.bridge e
  | .frame k => s.frame k
  | .paneBegins pane =>
    if pane ∈ s.terms then none else some { s with live := insert pane s.live }
  | .paneEnds pane => some { s with live := s.live.erase pane }

/-- The frames of the pump that are still to be handled. -/
def queued (s : Terminals) (k : Nat) : List Nat :=
  s.events.filterMap fun e => match e with
    | .ptyOutput _ k' n => if k' = k then some n else none
    | .paneClosed _ => none

def framesOf (written : List (Nat × Nat)) (k : Nat) : List Nat :=
  written.filterMap fun f => if f.1 = k then some f.2 else none

/-- An attach of the pane other than `i` has been invoked and has not connected yet. -/
def Attaching (s : Terminals) (i : Option Nat) (pane : PaneId) : Prop :=
  ∃ j c, some j ≠ i ∧ s.pumps.calls.lookup j = some c ∧ c.pane = pane ∧
    (c.phase = .waiting ∨ c.phase = .connecting)

/-- What a terminal of the pane that was written `written` waits for: a pump that runs, all of
whose frames it has had or will have, or an attach, or its own end. -/
def Fed (s : Terminals) (i : Option Nat) (aborted : Option Nat) (pane : PaneId)
    (written : List (Nat × Nat)) : Prop :=
  (∃ k, some k ≠ aborted ∧ s.pumps.Runs pane k ∧
      framesOf written k ++ s.queued k = List.range (s.emittedBy k)) ∨
    s.Attaching i pane ∨ .paneClosed pane ∈ s.events

/-- Every mounted terminal of a live pane. -/
def Shown (s : Terminals) : Prop :=
  ∀ pane ∈ s.live, ∀ written ∈ s.terms.lookup pane, s.Fed none none pane written

/-- No event is to be handled, no microtask to run and no command in progress. -/
def Quiescent (s : Terminals) : Prop :=
  s.events = [] ∧ s.mounts = [] ∧ ∀ i c, s.pumps.calls.lookup i ≠ some c

/-- The terminal has a pump that runs, and was written all of its frames. -/
def Whole (s : Terminals) : Prop :=
  ∀ pane ∈ s.live, ∀ written ∈ s.terms.lookup pane, ∃ k, s.pumps.Runs pane k ∧
    framesOf written k = List.range (s.emittedBy k)

/-- A terminal is mounted only while all frames of a pump of its pane are still to come, or its
attach; and an attach fails, or a detach takes the pump away, only where the terminal has another
one. -/
def InTime (s : Terminals) : TerminalStep → Prop
  | .mount => ∀ pane ∈ s.mounts.head?, pane ∈ s.live → pane ∉ s.terms → s.Fed none none pane []
  | .bridge (.connect i none) => ∀ c ∈ s.pumps.calls.lookup i, c.phase = .connecting →
    c.pane ∈ s.live → ∀ written ∈ s.terms.lookup c.pane, s.Fed (some i) none c.pane written
  | .bridge (.abortTask i) => ∀ c ∈ s.pumps.calls.lookup i, c.phase = .detaching →
    c.pane ∈ s.live → ∀ written ∈ s.terms.lookup c.pane,
      s.Fed none (s.pumps.streamTasks.lookup c.pane) c.pane written
  | _ => True

end Terminals

/-! Pumps, and the pane each is for. -/

section pumps

variable {u v : Pumps} {pane q : PaneId} {i k : Nat} {c : StreamCall}

/-- A pump keeps its pane. -/
def Extends (u v : Pumps) : Prop := ∀ k pump, u.tasks.lookup k = some pump →
  ∃ pump', v.tasks.lookup k = some pump' ∧ pump'.pane = pump.pane

/-- A registered pump, and one about to be, is of the pane it is filed under. -/
structure PumpsFiled (u : Pumps) : Prop where
  registered : ∀ pane k, u.streamTasks.lookup pane = some k →
    ∃ pump, u.tasks.lookup k = some pump ∧ pump.pane = pane
  held : ∀ i c k, u.calls.lookup i = some c → c.phase = .registering k →
    ∃ pump, u.tasks.lookup k = some pump ∧ pump.pane = c.pane

theorem extends_refl (u : Pumps) : Extends u u := fun _ pump hk => ⟨pump,hk,rfl⟩

theorem lookup_stop {tasks : Table Nat Pump} {pump : Pump} (task : Nat)
    (h : tasks.lookup k = some pump) :
    ∃ pump', (Pumps.stop tasks task).lookup k = some pump' ∧ pump'.pane = pump.pane := by
  unfold Pumps.stop
  split
  · rename_i pump' hpump'
    by_cases hk : k = task
    · subst hk
      obtain rfl := Option.some.inj (h.symm.trans hpump')
      exact ⟨_,AList.lookup_insert _,rfl⟩
    · exact ⟨pump,(AList.lookup_insert_ne hk).trans h,rfl⟩
  · exact ⟨pump,h,rfl⟩

theorem extends_abort (u : Pumps) (q : PaneId) : Extends u (u.abort q) := by
  intro k pump hk
  simp only [Pumps.abort]
  split
  · exact lookup_stop _ hk
  · exact ⟨pump,hk,rfl⟩

theorem Extends.keeps (h : Extends u v)
    (hk : ∃ pump, u.tasks.lookup k = some pump ∧ pump.pane = pane) :
    ∃ pump, v.tasks.lookup k = some pump ∧ pump.pane = pane := by
  obtain ⟨pump,hpump,rfl⟩ := hk
  exact h k pump hpump

theorem Extends.fresh (h : Extends u v) (hk : v.tasks.lookup k = none) :
    u.tasks.lookup k = none := by
  cases hu : u.tasks.lookup k with
  | none => rfl
  | some pump =>
    obtain ⟨pump',hv,-⟩ := h k pump hu
    rw [hk] at hv
    cases hv

theorem PumpsFiled.mono (h : PumpsFiled u) (hext : Extends u v)
    (hregistered : ∀ pane k, v.streamTasks.lookup pane = some k →
      u.streamTasks.lookup pane = some k ∨
        ∃ i c, u.calls.lookup i = some c ∧ c.phase = .registering k ∧ c.pane = pane)
    (hheld : ∀ i c k, v.calls.lookup i = some c → c.phase = .registering k →
      u.calls.lookup i = some c ∨ ∃ pump, v.tasks.lookup k = some pump ∧ pump.pane = c.pane) :
    PumpsFiled v := by
  refine ⟨fun pane k hk => ?_,fun i c k hc hphase => ?_⟩
  · rcases hregistered pane k hk with hold | ⟨i,c,hc,hphase,rfl⟩
    · exact hext.keeps (h.registered pane k hold)
    · exact hext.keeps (h.held i c k hc hphase)
  · rcases hheld i c k hc hphase with hold | hnew
    · exact hext.keeps (h.held i c k hold hphase)
    · exact hnew

/-- A call that is at another lock section than the last holds no pump. -/
theorem held_insert {calls : Table Nat StreamCall} {c' : StreamCall} {P : Prop} {j : Nat}
    (hc : (calls.insert i c').lookup j = some c) (hphase : c.phase = .registering k)
    (hc' : c'.phase ≠ .registering k) : calls.lookup j = some c ∨ P := by
  rcases Table.lookup_insert_eq_some.mp hc with ⟨-,rfl⟩ | ⟨-,hc⟩
  · exact absurd hphase hc'
  · exact .inl hc

theorem pumps_step (h : PumpsFiled u) {e : PumpStep} (hs : u.step e = some v) :
    PumpsFiled v ∧ Extends u v := by
  cases e with
  | attachPaneStream i pane =>
    simp only [Pumps.step,Option.ite_none_right_eq_some,Option.some.injEq] at hs
    obtain ⟨-,rfl⟩ := hs
    refine ⟨h.mono (extends_refl u) (fun pane k hk => .inl hk) fun j c k hc hphase => ?_,
      extends_refl u⟩
    exact held_insert hc hphase (by simp)
  | abortOld i =>
    obtain ⟨c,-,hs⟩ := Option.bind_eq_some_iff.mp hs
    split at hs
    · obtain rfl := Option.some.inj hs
      have hext := extends_abort u c.pane
      refine ⟨h.mono hext (fun pane k hk => .inl (Table.lookup_erase_eq_some.mp hk).2)
        fun j d k hd hphase => ?_,hext⟩
      exact held_insert hd hphase (by simp)
    · cases hs
  | connect i task =>
    obtain ⟨c,-,hs⟩ := Option.bind_eq_some_iff.mp hs
    split at hs
    · cases task with
      | none =>
        obtain rfl := Option.some.inj hs
        refine ⟨h.mono (extends_refl u) (fun pane k hk => .inl hk) fun j d k hd hphase => ?_,
          extends_refl u⟩
        exact .inl (Table.lookup_erase_eq_some.mp hd).2
      | some k =>
        simp only [Option.ite_none_right_eq_some,Option.some.injEq] at hs
        obtain ⟨hnew,rfl⟩ := hs
        have hext : Extends u { u.setPhase i c (.registering k) with
            tasks := u.tasks.insert k ⟨c.pane,true⟩ } := by
          intro k' pump hk'
          refine ⟨pump,(AList.lookup_insert_ne ?_).trans hk',rfl⟩
          rintro rfl
          rw [hnew] at hk'
          cases hk'
        refine ⟨h.mono hext (fun pane k hk => .inl hk) fun j d k' hd hphase => ?_,hext⟩
        rcases Table.lookup_insert_eq_some.mp hd with ⟨-,rfl⟩ | ⟨-,hd⟩
        · obtain rfl := CallPhase.registering.inj hphase
          exact .inr ⟨_,AList.lookup_insert _,rfl⟩
        · exact .inl hd
    · cases hs
  | register i =>
    obtain ⟨c,hc,hs⟩ := Option.bind_eq_some_iff.mp hs
    split at hs
    · rename_i k hphase
      obtain rfl := Option.some.inj hs
      refine ⟨h.mono (extends_refl u) (fun pane k' hk => ?_) fun j d k hd hphase => ?_,
        extends_refl u⟩
      · rcases Table.lookup_insert_eq_some.mp hk with ⟨rfl,rfl⟩ | ⟨-,hk⟩
        · exact .inr ⟨i,c,hc,hphase,rfl⟩
        · exact .inl hk
      · exact .inl (Table.lookup_erase_eq_some.mp hd).2
    · cases hs
  | detachPaneStream i pane =>
    simp only [Pumps.step,Option.ite_none_right_eq_some,Option.some.injEq] at hs
    obtain ⟨-,rfl⟩ := hs
    refine ⟨h.mono (extends_refl u) (fun pane k hk => .inl hk) fun j c k hc hphase => ?_,
      extends_refl u⟩
    exact held_insert hc hphase (by simp)
  | abortTask i =>
    obtain ⟨c,-,hs⟩ := Option.bind_eq_some_iff.mp hs
    split at hs
    · obtain rfl := Option.some.inj hs
      have hext : Extends u (u.abort c.pane) := extends_abort u c.pane
      refine ⟨h.mono hext (fun pane k hk => .inl (Table.lookup_erase_eq_some.mp hk).2)
        fun j d k hd hphase => ?_,hext⟩
      exact .inl (Table.lookup_erase_eq_some.mp hd).2
    · cases hs
  | pumpEnds k =>
    obtain ⟨pump,-,hs⟩ := Option.bind_eq_some_iff.mp hs
    rw [Option.ite_none_right_eq_some,Option.some.injEq] at hs
    obtain ⟨-,rfl⟩ := hs
    have hext : Extends u { u with tasks := Pumps.stop u.tasks k } :=
      fun k' pump hk' => lookup_stop k hk'
    exact ⟨h.mono hext (fun pane k hk => .inl hk) fun j c k hc hphase => .inl hc,hext⟩

end pumps

namespace Terminals

variable {s t : Terminals} {pane q : PaneId} {i k n : Nat} {written : List (Nat × Nat)}

/-! What holds in every run: frames are of the pane they are for. -/

structure Filed (s : Terminals) : Prop where
  pumps : PumpsFiled s.pumps
  events : ∀ pane k n, .ptyOutput pane k n ∈ s.events →
    ∃ pump, s.pumps.tasks.lookup k = some pump ∧ pump.pane = pane
  written : ∀ pane written, s.terms.lookup pane = some written → ∀ f ∈ written,
    ∃ pump, s.pumps.tasks.lookup f.1 = some pump
  emitted : ∀ k, s.pumps.tasks.lookup k = none → s.emittedBy k = 0

theorem Filed.bridge (h : s.Filed) {e : PumpStep} {v : Pumps} (hs : s.pumps.step e = some v) :
    Filed { s with pumps := v } := by
  obtain ⟨hfiled,hext⟩ := pumps_step h.pumps hs
  refine ⟨hfiled,fun pane k n he => hext.keeps (h.events pane k n he),
    fun pane written hw f hf => ?_,fun k hk => h.emitted k (hext.fresh hk)⟩
  obtain ⟨pump,hpump⟩ := h.written pane written hw f hf
  exact (hext f.1 pump hpump).imp fun _ hp => hp.1

/-- Terminals go, and nothing else that is filed has changed. -/
theorem Filed.sub (h : s.Filed) {u : Terminals} (hpumps : u.pumps = s.pumps)
    (hevents : ∀ pane k n, .ptyOutput pane k n ∈ u.events → .ptyOutput pane k n ∈ s.events)
    (hterms : ∀ pane written, u.terms.lookup pane = some written →
      s.terms.lookup pane = some written) (hemitted : u.emitted = s.emitted) : u.Filed := by
  refine ⟨hpumps ▸ h.pumps,fun pane k n he => ?_,fun pane written hw f hf => ?_,fun k hk => ?_⟩
  · rw [hpumps]
    exact h.events pane k n (hevents pane k n he)
  · rw [hpumps]
    exact h.written pane written (hterms pane written hw) f hf
  · rw [emittedBy,hemitted]
    exact h.emitted k (hpumps ▸ hk)

theorem filed_dispose (h : s.Filed) (pane : PaneId) : (s.disposePaneTerminal pane).Filed :=
  h.sub rfl (fun _ _ _ he => he) (fun _ _ hw => (Table.lookup_erase_eq_some.mp hw).2) rfl

theorem filed_renderCenter (h : s.Filed) : s.renderCenter.Filed := by
  simp only [renderCenter]
  split
  · exact h
  · exact h.sub rfl (fun _ _ _ he => he) (fun _ _ hw => hw) rfl

theorem filed_run (h : s.Filed) {op : ScriptOp} (ht : s.run op = some t) : t.Filed := by
  cases op with
  | setState store connected editing =>
    obtain rfl := Option.some.inj ht
    have hset : Filed { s with store, connected } :=
      h.sub rfl (fun _ _ _ he => he) (fun _ _ hw => hw) rfl
    split
    · exact hset
    · exact filed_renderCenter hset
  | dispose pane =>
    obtain rfl := Option.some.inj ht
    exact filed_dispose h pane
  | attach i pane =>
    simp only [run] at ht
    split at ht
    · exact Option.some.inj ht ▸ h
    · obtain ⟨v,hv,rfl⟩ := Option.map_eq_some_iff.mp ht
      exact h.bridge hv
  | detach i pane =>
    obtain ⟨v,hv,rfl⟩ := Option.map_eq_some_iff.mp ht
    exact h.bridge hv

theorem filed_writePaneOutput (h : s.Filed) (hk : ∃ pump, s.pumps.tasks.lookup k = some pump) :
    (s.writePaneOutput pane k n).Filed := by
  unfold writePaneOutput
  split
  · rename_i written hw
    refine ⟨h.pumps,h.events,fun q written' hw' f hf => ?_,h.emitted⟩
    rcases Table.lookup_insert_eq_some.mp hw' with ⟨-,rfl⟩ | ⟨-,hw'⟩
    · rcases List.mem_append.mp hf with hf | hf
      · exact h.written pane written hw f hf
      · rw [List.mem_singleton.mp hf]
        exact hk
    · exact h.written q written' hw' f hf
  · exact h

theorem mount_cases (ht : s.step .mount = some t) : ∃ pane mounts, s.mounts = pane :: mounts ∧
    t = { s.mountPaneTerminal pane with mounts } := by
  cases hm : s.mounts with
  | nil => simp [step,hm] at ht
  | cons pane mounts =>
    rw [step,hm] at ht
    exact ⟨pane,mounts,rfl,(Option.some.inj ht).symm⟩

theorem handle_cases (ht : s.step .handle = some t) : ∃ e events, s.events = e :: events ∧
    t = { s with events }.onEvent e := by
  cases he : s.events with
  | nil => simp [step,he] at ht
  | cons e events =>
    simp only [step,he,Option.ite_none_right_eq_some,Option.some.injEq] at ht
    exact ⟨e,events,rfl,ht.2.symm⟩

theorem bridge_cases {e : PumpStep} (ht : s.bridge e = some t) : ∃ v, e.Invoked = false ∧
    s.pumps.step e = some v ∧
      t = { s with pumps := v, events := s.events ++ s.ended e } := by
  rw [bridge,Option.ite_none_left_eq_some] at ht
  obtain ⟨hinvoked,ht⟩ := ht
  obtain ⟨v,hv,rfl⟩ := Option.map_eq_some_iff.mp ht
  exact ⟨v,by simpa using hinvoked,hv,rfl⟩

theorem output_notMem_ended (e : PumpStep) : .ptyOutput pane k n ∉ s.ended e := by
  unfold ended
  split
  · rename_i task
    cases s.pumps.tasks.lookup task <;> simp
  · exact List.not_mem_nil

theorem filed_step (h : s.Filed) {e : TerminalStep} (ht : s.step e = some t) : t.Filed := by
  cases e with
  | script ops => exact (Always.of_invariant (fun _ _ _ h ht => filed_run h ht) h ops).last ht
  | mount =>
    obtain ⟨pane,mounts,-,rfl⟩ := mount_cases ht
    unfold mountPaneTerminal
    split
    · exact h.sub rfl (fun _ _ _ he => he) (fun _ _ hw => hw) rfl
    · refine ⟨h.pumps,h.events,fun q written hw f hf => ?_,h.emitted⟩
      rcases Table.lookup_insert_eq_some.mp hw with ⟨-,rfl⟩ | ⟨-,hw⟩
      · cases hf
      · exact h.written q written hw f hf
  | handle =>
    obtain ⟨e,events,he,rfl⟩ := handle_cases ht
    have hrest : Filed { s with events } :=
      h.sub rfl (fun _ _ _ hmem => he ▸ List.mem_cons_of_mem e hmem) (fun _ _ hw => hw) rfl
    cases e with
    | paneClosed pane => exact filed_dispose hrest pane
    | ptyOutput pane k n =>
      obtain ⟨pump,hpump,-⟩ := h.events pane k n (by rw [he]; exact List.mem_cons_self)
      exact filed_writePaneOutput hrest ⟨pump,hpump⟩
  | bridge e =>
    obtain ⟨v,-,hv,rfl⟩ := bridge_cases ht
    refine (h.bridge hv).sub rfl (fun pane k n hmem => ?_) (fun _ _ hw => hw) rfl
    exact (List.mem_append.mp hmem).resolve_right (output_notMem_ended e)
  | frame k =>
    obtain ⟨pump,hpump,ht⟩ := Option.bind_eq_some_iff.mp ht
    rw [Option.ite_none_right_eq_some,Option.some.injEq] at ht
    obtain ⟨-,rfl⟩ := ht
    refine ⟨h.pumps,fun pane k' n hmem => ?_,h.written,fun k' hk' => ?_⟩
    · rcases List.mem_append.mp hmem with hmem | hmem
      · exact h.events pane k' n hmem
      · rw [List.mem_singleton] at hmem
        obtain ⟨rfl,rfl,-⟩ := WebviewEvent.ptyOutput.inj hmem
        exact ⟨pump,hpump,rfl⟩
    · have hne : k' ≠ k := by
        rintro rfl
        rw [hpump] at hk'
        cases hk'
      rw [emittedBy,AList.lookup_insert_ne hne]
      exact h.emitted k' hk'
  | paneBegins pane =>
    unfold step at ht
    rw [Option.ite_none_left_eq_some,Option.some.injEq] at ht
    exact ht.2 ▸ h.sub rfl (fun _ _ _ he => he) (fun _ _ hw => hw) rfl
  | paneEnds pane =>
    obtain rfl := Option.some.inj ht
    exact h.sub rfl (fun _ _ _ he => he) (fun _ _ hw => hw) rfl

/-! What a terminal waits for, step by step. -/

variable {aborted : Option Nat} {except? : Option Nat} {u v : Pumps} {c : StreamCall}

/-- The pump goes on, and with it the frames that are still to come. -/
theorem Fed.mono {written' : List (Nat × Nat)} (h : s.Fed except? aborted pane written)
    (hpump : ∀ k, some k ≠ aborted → s.pumps.Runs pane k →
      framesOf written k ++ s.queued k = List.range (s.emittedBy k) →
        t.Fed none none pane written')
    (hattach : s.Attaching except? pane → t.Fed none none pane written')
    (hclosed : .paneClosed pane ∈ s.events → t.Fed none none pane written') :
    t.Fed none none pane written' := by
  rcases h with ⟨k,hk,hruns,hframes⟩ | hatt | hend
  · exact hpump k hk hruns hframes
  · exact hattach hatt
  · exact hclosed hend

theorem Attaching.calls (h : s.Attaching none pane)
    (hcalls : ∀ j d, s.pumps.calls.lookup j = some d → d.pane = pane →
      (d.phase = .waiting ∨ d.phase = .connecting) → t.pumps.calls.lookup j = some d) :
    t.Attaching none pane := by
  obtain ⟨j,d,hj,hd,hpane,hphase⟩ := h
  exact ⟨j,d,hj,hcalls j d hd hpane hphase,hpane,hphase⟩

@[simp] theorem queued_ended (e : PumpStep) :
    ((s.ended e).filterMap fun ev => match ev with
      | .ptyOutput _ k' n => if k' = k then some n else none
      | .paneClosed _ => none) = [] := by
  unfold ended
  split
  · rename_i task
    cases s.pumps.tasks.lookup task <;> rfl
  · rfl

theorem queued_bridge (e : PumpStep) :
    queued { s with pumps := v, events := s.events ++ s.ended e } k = s.queued k := by
  rw [queued,List.filterMap_append,queued_ended,List.append_nil]
  rfl

/-- Where pumps and calls of the pane are as they were, so is the terminal. -/
theorem Fed.bridge {e : PumpStep} (h : s.Fed none none pane written)
    (hruns : ∀ k, s.pumps.Runs pane k → v.Runs pane k)
    (hcalls : ∀ j d, s.pumps.calls.lookup j = some d → d.pane = pane →
      (d.phase = .waiting ∨ d.phase = .connecting) → v.calls.lookup j = some d) :
    Fed { s with pumps := v, events := s.events ++ s.ended e } none none pane written := by
  refine h.mono (fun k _ hk hframes => .inl ⟨k,by simp,hruns k hk,?_⟩)
    (fun hatt => .inr (.inl (hatt.calls hcalls)))
    (fun hend => .inr (.inr (List.mem_append_left _ hend)))
  rw [queued_bridge]
  exact hframes

/-- The pump of another pane is not the one that is registered. -/
theorem runs_abort_ne (hf : PumpsFiled u) (hne : pane ≠ q) (hk : u.Runs pane k) :
    (u.abort q).Runs pane k := by
  refine Pumps.runs_abort.mpr ⟨fun hreg => ?_,hk⟩
  obtain ⟨pump,hpump,hpane⟩ := hf.registered q k hreg
  obtain rfl := Option.some.inj (hk.symm.trans hpump)
  exact hne hpane

theorem lookup_ne {calls : Table Nat StreamCall} {j : Nat} {d : StreamCall}
    (hc : calls.lookup i = some c) (hd : calls.lookup j = some d) (hne : d ≠ c) : j ≠ i := by
  rintro rfl
  exact hne (Option.some.inj (hd.symm.trans hc))

theorem fed_abortOld (hf : s.Filed) (hc : s.pumps.calls.lookup i = some c)
    (h : s.Fed none none pane written) :
    Fed { s with
      pumps := (s.pumps.abort c.pane).setPhase i c .connecting
      events := s.events ++ s.ended (.abortOld i) } none none pane written := by
  by_cases hpane : pane = c.pane
  · exact .inr (.inl ⟨i,_,by simp,AList.lookup_insert _,hpane.symm,.inr rfl⟩)
  · refine h.bridge (fun k hk => runs_abort_ne hf.pumps hpane hk) fun j d hd hd' _ => ?_
    refine (AList.lookup_insert_ne (lookup_ne hc hd ?_)).trans hd
    rintro rfl
    exact hpane hd'.symm

theorem fed_connect (hf : s.Filed) (hc : s.pumps.calls.lookup i = some c)
    (hnew : s.pumps.tasks.lookup k = none) (hw : s.terms.lookup pane = some written)
    (h : s.Fed none none pane written) :
    Fed { s with
      pumps := { s.pumps.setPhase i c (.registering k) with
        tasks := s.pumps.tasks.insert k ⟨c.pane,true⟩ }
      events := s.events ++ s.ended (.connect i (some k)) } none none pane written := by
  by_cases hpane : pane = c.pane
  · refine .inl ⟨k,by simp,?_,?_⟩
    · rw [hpane]
      exact AList.lookup_insert _
    · have hqueued : s.queued k = [] := by
        refine List.filterMap_eq_nil_iff.mpr fun e he => ?_
        cases e with
        | paneClosed q => rfl
        | ptyOutput q k' n =>
          have hne : k' ≠ k := by
            rintro rfl
            obtain ⟨pump,hpump,-⟩ := hf.events q k' n he
            rw [hnew] at hpump
            cases hpump
          exact if_neg hne
      have hframes : framesOf written k = [] := by
        refine List.filterMap_eq_nil_iff.mpr fun f hmem => if_neg ?_
        rintro rfl
        obtain ⟨pump,hpump⟩ := hf.written pane written hw f hmem
        rw [hnew] at hpump
        cases hpump
      have hemitted : s.emittedBy k = 0 := hf.emitted k hnew
      rw [queued_bridge,hqueued,hframes]
      exact (congrArg List.range hemitted).symm
  · refine h.bridge (fun k' hk' => ?_) fun j d hd hd' _ => ?_
    · refine (AList.lookup_insert_ne ?_).trans hk'
      rintro rfl
      rw [Pumps.Runs,hnew] at hk'
      cases hk'
    · refine (AList.lookup_insert_ne (lookup_ne hc hd ?_)).trans hd
      rintro rfl
      exact hpane hd'.symm

theorem fed_pumpEnds {pump : Pump} (hk : s.pumps.tasks.lookup k = some pump)
    (h : s.Fed none none pane written) :
    Fed { s with
      pumps := { s.pumps with tasks := Pumps.stop s.pumps.tasks k }
      events := s.events ++ s.ended (.pumpEnds k) } none none pane written := by
  by_cases hpane : pane = pump.pane
  · refine .inr (.inr (List.mem_append_right _ ?_))
    simp [ended,hk,hpane]
  · refine h.bridge (fun k' hk' => Pumps.runs_stop.mpr ⟨?_,hk'⟩) fun j d hd _ _ => hd
    rintro rfl
    obtain rfl := Option.some.inj (hk'.symm.trans hk)
    exact hpane rfl

/-- What is left to the terminal when a call has ended. -/
theorem fed_ended_iff {e : PumpStep} (hended : s.ended e = [])
    (hruns : ∀ k, v.Runs pane k ↔ some k ≠ aborted ∧ s.pumps.Runs pane k)
    (hatt : Attaching { s with pumps := v, events := s.events ++ s.ended e } none pane ↔
      s.Attaching except? pane) :
    Fed { s with pumps := v, events := s.events ++ s.ended e } none none pane written ↔
      s.Fed except? aborted pane written := by
  have hclosed : .paneClosed pane ∈ s.events ++ s.ended e ↔ .paneClosed pane ∈ s.events := by
    rw [hended,List.append_nil]
  refine or_congr (exists_congr fun k => ?_) (or_congr hatt hclosed)
  rw [queued_bridge]
  constructor
  · rintro ⟨-,hk,hframes⟩
    exact ⟨((hruns k).mp hk).1,((hruns k).mp hk).2,hframes⟩
  · rintro ⟨hne,hk,hframes⟩
    exact ⟨by simp,(hruns k).mpr ⟨hne,hk⟩,hframes⟩

/-- An attach that fails is one less in progress. -/
theorem fed_failed_iff :
    Fed { s with
      pumps := s.pumps.endCall i
      events := s.events ++ s.ended (.connect i none) } none none pane written ↔
      s.Fed (some i) none pane written := by
  refine fed_ended_iff rfl (fun k => (and_iff_right (by simp)).symm) ?_
  constructor
  · rintro ⟨j,d,-,hd,hrest⟩
    obtain ⟨hne,hd⟩ := Table.lookup_erase_eq_some.mp hd
    exact ⟨j,d,by simpa using hne,hd,hrest⟩
  · rintro ⟨j,d,hne,hd,hrest⟩
    exact ⟨j,d,by simp,Table.lookup_erase_eq_some.mpr ⟨by simpa using hne,hd⟩,hrest⟩

/-- A detach takes the registered pump away. -/
theorem fed_aborted_iff (hc : s.pumps.calls.lookup i = some c) (hphase : c.phase = .detaching) :
    Fed { s with
      pumps := { (s.pumps.abort c.pane).endCall i with
        detached := if s.pumps.Late c then insert c.pane s.pumps.detached
          else s.pumps.detached }
      events := s.events ++ s.ended (.abortTask i) } none none pane written ↔
      s.Fed none (s.pumps.streamTasks.lookup c.pane) pane written := by
  refine fed_ended_iff rfl (fun k => ?_) ?_
  · rw [ne_comm]
    exact Pumps.runs_abort
  constructor
  · rintro ⟨j,d,hne,hd,hrest⟩
    exact ⟨j,d,hne,(Table.lookup_erase_eq_some.mp hd).2,hrest⟩
  · rintro ⟨j,d,hne,hd,hpane,hrest⟩
    refine ⟨j,d,hne,Table.lookup_erase_eq_some.mpr ⟨lookup_ne hc hd ?_,hd⟩,hpane,hrest⟩
    rintro rfl
    rw [hphase] at hrest
    rcases hrest with hrest | hrest <;> cases hrest

/-- What the terminals of the other panes wait for is not the call's. -/
theorem fed_other (hf : s.Filed) (hc : s.pumps.calls.lookup i = some c) (hne : pane ≠ c.pane)
    (h : s.Fed none none pane written) :
    s.Fed (some i) (s.pumps.streamTasks.lookup c.pane) pane written := by
  rcases h with ⟨k,-,hk,hframes⟩ | ⟨j,d,-,hd,hpane,hphase⟩ | hend
  · refine .inl ⟨k,fun hreg => ?_,hk,hframes⟩
    obtain ⟨pump,hpump,hpane⟩ := hf.pumps.registered c.pane k hreg.symm
    obtain rfl := Option.some.inj (hk.symm.trans hpump)
    exact hne hpane
  · refine .inr (.inl ⟨j,d,?_,hd,hpane,hphase⟩)
    rintro heq
    obtain rfl := Option.some.inj heq
    obtain rfl := Option.some.inj (hd.symm.trans hc)
    exact hne hpane.symm
  · exact .inr (.inr hend)

theorem shown_bridge (hf : s.Filed) (h : s.Shown) {e : PumpStep} (ht : s.bridge e = some t)
    (hconnect : ∀ i, e ≠ .connect i none) (habort : ∀ i, e ≠ .abortTask i) : t.Shown := by
  obtain ⟨v,hinvoked,hv,rfl⟩ := bridge_cases ht
  intro pane hlive written hw
  have hfed := h pane hlive written hw
  cases e with
  | attachPaneStream i q => cases hinvoked
  | detachPaneStream i q => cases hinvoked
  | abortTask i => exact absurd rfl (habort i)
  | abortOld i =>
    obtain ⟨c,hc,hv⟩ := Option.bind_eq_some_iff.mp hv
    split at hv
    · obtain rfl := Option.some.inj hv
      exact fed_abortOld hf hc hfed
    · cases hv
  | connect i task =>
    obtain ⟨c,hc,hv⟩ := Option.bind_eq_some_iff.mp hv
    split at hv
    · cases task with
      | none => exact absurd rfl (hconnect i)
      | some k =>
        simp only [Option.ite_none_right_eq_some,Option.some.injEq] at hv
        obtain ⟨hnew,rfl⟩ := hv
        exact fed_connect hf hc hnew hw hfed
    · cases hv
  | register i =>
    obtain ⟨c,hc,hv⟩ := Option.bind_eq_some_iff.mp hv
    split at hv
    · rename_i k hphase
      obtain rfl := Option.some.inj hv
      refine hfed.bridge (fun _ hk => hk) fun j d hd _ hd' => ?_
      refine Table.lookup_erase_eq_some.mpr ⟨lookup_ne hc hd ?_,hd⟩
      rintro rfl
      rw [hphase] at hd'
      rcases hd' with hd' | hd' <;> cases hd'
    · cases hv
  | pumpEnds k =>
    obtain ⟨pump,hk,hv⟩ := Option.bind_eq_some_iff.mp hv
    rw [Option.ite_none_right_eq_some,Option.some.injEq] at hv
    obtain ⟨-,rfl⟩ := hv
    exact fed_pumpEnds hk hfed

/-- A terminal is fed after a failed attach if another pump or attach feeds it. -/
theorem shown_failed_iff (hf : s.Filed) (h : s.Shown) (i : Nat) :
    s.InTime (.bridge (.connect i none)) ↔
      ∀ t, s.bridge (.connect i none) = some t → t.Shown := by
  constructor
  · intro hin t ht
    obtain ⟨v,-,hv,rfl⟩ := bridge_cases ht
    obtain ⟨c,hc,hv⟩ := Option.bind_eq_some_iff.mp hv
    split at hv
    · rename_i hphase
      obtain rfl := Option.some.inj hv
      intro pane hlive written hw
      refine fed_failed_iff.mpr ?_
      by_cases hpane : pane = c.pane
      · rw [hpane] at hlive hw ⊢
        exact hin c hc hphase hlive written hw
      · have hother := fed_other hf hc hpane (h pane hlive written hw)
        rcases hother with ⟨k,-,hk⟩ | hrest
        · exact .inl ⟨k,by simp,hk⟩
        · exact .inr hrest
    · cases hv
  · intro hall c hc hphase hlive written hw
    have ht : s.bridge (.connect i none) = some { s with
        pumps := s.pumps.endCall i
        events := s.events ++ s.ended (.connect i none) } := by
      rw [Option.mem_def] at hc
      simp [bridge,PumpStep.Invoked,Pumps.step,Pumps.stepCall,hc,hphase]
    exact fed_failed_iff.mp (hall _ ht c.pane hlive written hw)

theorem shown_aborted_iff (hf : s.Filed) (h : s.Shown) (i : Nat) :
    s.InTime (.bridge (.abortTask i)) ↔ ∀ t, s.bridge (.abortTask i) = some t → t.Shown := by
  constructor
  · intro hin t ht
    obtain ⟨v,-,hv,rfl⟩ := bridge_cases ht
    obtain ⟨c,hc,hv⟩ := Option.bind_eq_some_iff.mp hv
    split at hv
    · rename_i hphase
      obtain rfl := Option.some.inj hv
      intro pane hlive written hw
      refine (fed_aborted_iff hc hphase).mpr ?_
      by_cases hpane : pane = c.pane
      · rw [hpane] at hlive hw ⊢
        exact hin c hc hphase hlive written hw
      · have hother := fed_other hf hc hpane (h pane hlive written hw)
        rcases hother with hpump | ⟨j,d,-,hd⟩ | hend
        · exact .inl hpump
        · exact .inr (.inl ⟨j,d,by simp,hd⟩)
        · exact .inr (.inr hend)
    · cases hv
  · intro hall c hc hphase hlive written hw
    rw [Option.mem_def] at hc
    have ht : s.bridge (.abortTask i) = some { s with
        pumps := { (s.pumps.abort c.pane).endCall i with
          detached := if s.pumps.Late c then insert c.pane s.pumps.detached
            else s.pumps.detached }
        events := s.events ++ s.ended (.abortTask i) } := by
      simp [bridge,PumpStep.Invoked,Pumps.step,Pumps.stepCall,hc,hphase]
    exact (fed_aborted_iff hc hphase).mp (hall _ ht c.pane hlive written hw)

/-! The steps of the webview. -/

theorem shown_of_calls (h : s.Shown) (htasks : v.tasks = s.pumps.tasks)
    (hcalls : ∀ j d, s.pumps.calls.lookup j = some d → v.calls.lookup j = some d) :
    Shown { s with pumps := v } := by
  intro pane hlive written hw
  refine (h pane hlive written hw).mono (fun k _ hk hframes => .inl ⟨k,by simp,?_,hframes⟩)
    (fun hatt => .inr (.inl (hatt.calls fun j d hd _ _ => hcalls j d hd)))
    (fun hend => .inr (.inr hend))
  rw [Pumps.Runs,htasks]
  exact hk

/-- A call that begins leaves the others as they are. -/
theorem shown_invoke (h : s.Shown) {e : PumpStep} (he : e.Invoked) (hv : s.pumps.step e = some v) :
    Shown { s with pumps := v } := by
  have hnew : ∀ {i pane phase}, s.pumps.calls.lookup i = none → ∀ j d,
      s.pumps.calls.lookup j = some d →
        (s.pumps.calls.insert i ⟨pane,s.pumps.clock,phase⟩).lookup j = some d := by
    intro i pane phase hi j d hd
    refine (AList.lookup_insert_ne ?_).trans hd
    rintro rfl
    rw [hi] at hd
    cases hd
  cases e with
  | attachPaneStream i pane =>
    simp only [Pumps.step,Option.ite_none_right_eq_some,Option.some.injEq] at hv
    obtain ⟨hi,rfl⟩ := hv
    exact shown_of_calls h rfl (hnew hi)
  | detachPaneStream i pane =>
    simp only [Pumps.step,Option.ite_none_right_eq_some,Option.some.injEq] at hv
    obtain ⟨hi,rfl⟩ := hv
    exact shown_of_calls h rfl (hnew hi)
  | abortOld _ | connect _ _ | register _ | abortTask _ | pumpEnds _ => cases he

theorem shown_dispose (h : s.Shown) (pane : PaneId) : (s.disposePaneTerminal pane).Shown :=
  fun q hlive written hw => h q hlive written (Table.lookup_erase_eq_some.mp hw).2

theorem shown_run (h : s.Shown) {op : ScriptOp} (ht : s.run op = some t) : t.Shown := by
  cases op with
  | setState store connected editing =>
    obtain rfl := Option.some.inj ht
    have hset : Shown { s with store, connected } := h
    split
    · exact hset
    · simp only [renderCenter]
      split
      · exact hset
      · exact h
  | dispose pane =>
    obtain rfl := Option.some.inj ht
    exact shown_dispose h pane
  | attach i pane =>
    simp only [run] at ht
    split at ht
    · exact Option.some.inj ht ▸ h
    · obtain ⟨v,hv,rfl⟩ := Option.map_eq_some_iff.mp ht
      exact shown_invoke h rfl hv
  | detach i pane =>
    obtain ⟨v,hv,rfl⟩ := Option.map_eq_some_iff.mp ht
    exact shown_invoke h rfl hv

theorem shown_script (h : s.Shown) {ops : List ScriptOp} (ht : s.step (.script ops) = some t) :
    t.Shown :=
  (Always.of_invariant (fun _ _ _ h ht => shown_run h ht) h ops).last ht

/-- A terminal is mounted where one is there, or with what is still to come for it. -/
theorem shown_mount_iff (h : s.Shown) :
    s.InTime .mount ↔ ∀ t, s.step .mount = some t → t.Shown := by
  constructor
  · intro hin t ht
    obtain ⟨pane,mounts,hm,rfl⟩ := mount_cases ht
    have hhead : pane ∈ s.mounts.head? := by rw [hm]; exact rfl
    intro q hlive written hw
    unfold mountPaneTerminal at hw hlive ⊢
    split at hw
    · rename_i hmem
      rw [if_pos hmem] at hlive ⊢
      exact h q hlive written hw
    · rename_i hmem
      rw [if_neg hmem] at hlive ⊢
      rcases Table.lookup_insert_eq_some.mp hw with ⟨rfl,rfl⟩ | ⟨-,hw⟩
      · exact hin q hhead hlive hmem
      · exact h q hlive written hw
  · intro hall pane hpane hlive hmem
    cases hm : s.mounts with
    | nil =>
      rw [hm] at hpane
      cases hpane
    | cons q mounts =>
      rw [hm] at hpane
      obtain rfl := Option.some.inj hpane
      have ht : s.step .mount = some { s with terms := s.terms.insert q [], mounts } := by
        simp [step,hm,mountPaneTerminal,hmem]
      exact hall _ ht q hlive [] (AList.lookup_insert _)

@[simp] theorem framesOf_append (written new : List (Nat × Nat)) (k : Nat) :
    framesOf (written ++ new) k = framesOf written k ++ framesOf new k :=
  List.filterMap_append

theorem queued_output {events : List WebviewEvent}
    (he : s.events = .ptyOutput q k n :: events) (k' : Nat) :
    s.queued k' = framesOf [(k,n)] k' ++ queued { s with events } k' := by
  simp only [queued,framesOf,he,List.filterMap_cons,List.filterMap_nil]
  split <;> rfl

theorem queued_closed {events : List WebviewEvent} (he : s.events = .paneClosed q :: events)
    (k' : Nat) : s.queued k' = queued { s with events } k' := by
  simp only [queued,he,List.filterMap_cons]

/-- An event is handled that is not the end of the pane, and what was to come of its pumps has
come or is still to. -/
theorem Fed.handled {e : WebviewEvent} {events : List WebviewEvent} {written' : List (Nat × Nat)}
    {terms : Table PaneId (List (Nat × Nat))} (he : s.events = e :: events)
    (h : s.Fed none none pane written) (hopen : .paneClosed pane ≠ e)
    (hframes : ∀ k, s.pumps.Runs pane k →
      framesOf written' k ++ queued { s with events } k = framesOf written k ++ s.queued k) :
    Fed { s with events, terms } none none pane written' := by
  refine h.mono (fun k _ hk hrange => .inl ⟨k,by simp,hk,(hframes k hk).trans hrange⟩)
    (fun hatt => .inr (.inl hatt)) (fun hend => .inr (.inr ?_))
  rw [he,List.mem_cons] at hend
  exact hend.resolve_left hopen

/-- A frame is of no pump of another pane. -/
theorem queued_other {events : List WebviewEvent} (hf : s.Filed)
    (he : s.events = .ptyOutput q k n :: events) (hne : pane ≠ q) {k' : Nat}
    (hk : s.pumps.Runs pane k') : queued { s with events } k' = s.queued k' := by
  have hk' : k ≠ k' := by
    rintro rfl
    obtain ⟨pump,hpump,hpane⟩ := hf.events q k n (by rw [he]; exact List.mem_cons_self)
    obtain rfl := Option.some.inj (hk.symm.trans hpump)
    exact hne hpane
  have hframes : framesOf [(k,n)] k' = [] := by simp [framesOf,hk']
  rw [queued_output he,hframes,List.nil_append]

theorem shown_output {events : List WebviewEvent} (hf : s.Filed) (h : s.Shown)
    (he : s.events = .ptyOutput q k n :: events) :
    (writePaneOutput { s with events } q k n).Shown := by
  unfold writePaneOutput
  split
  · rename_i old hold
    intro pane hlive written hw
    rcases Table.lookup_insert_eq_some.mp hw with ⟨rfl,rfl⟩ | ⟨hne,hw⟩
    · refine Fed.handled (s := s) he (h pane hlive old hold) (by simp) fun k' _ => ?_
      rw [framesOf_append,List.append_assoc,queued_output he]
    · refine Fed.handled (s := s) he (h pane hlive written hw) (by simp) fun k' hk' => ?_
      rw [queued_other hf he hne hk']
  · rename_i hnone
    intro pane hlive written hw
    have hne : pane ≠ q := by
      rintro rfl
      exact absurd (hnone.symm.trans hw) (by simp)
    refine Fed.handled (s := s) he (h pane hlive written hw) (by simp) fun k' hk' => ?_
    rw [queued_other hf he hne hk']

/-- The oldest frame is written to the terminal of its pane. -/
theorem shown_handle (hf : s.Filed) (h : s.Shown) (ht : s.step .handle = some t) : t.Shown := by
  obtain ⟨e,events,he,rfl⟩ := handle_cases ht
  cases e with
  | ptyOutput q k n => exact shown_output hf h he
  | paneClosed q =>
    intro pane hlive written hw
    obtain ⟨hne,hw⟩ := Table.lookup_erase_eq_some.mp hw
    refine Fed.handled (s := s) he (h pane hlive written hw) (by simpa using hne) fun k' _ => ?_
    rw [queued_closed he]

theorem shown_frame (h : s.Shown) (ht : s.step (.frame k) = some t) : t.Shown := by
  obtain ⟨pump,hpump,ht⟩ := Option.bind_eq_some_iff.mp ht
  rw [Option.ite_none_right_eq_some,Option.some.injEq] at ht
  obtain ⟨-,rfl⟩ := ht
  intro pane hlive written hw
  refine (h pane hlive written hw).mono (fun k' _ hk' hframes => .inl ⟨k',by simp,hk',?_⟩)
    (fun hatt => .inr (.inl hatt)) (fun hend => .inr (.inr (List.mem_append_left _ hend)))
  have hqueued : queued { s with
      events := s.events ++ [.ptyOutput pump.pane k (s.emittedBy k)]
      emitted := s.emitted.insert k (s.emittedBy k+1) } k' =
      s.queued k' ++ framesOf [(k,s.emittedBy k)] k' := by
    simp only [queued,framesOf,List.filterMap_append,List.filterMap_cons,List.filterMap_nil]
  rw [hqueued,← List.append_assoc,hframes]
  by_cases hkk : k' = k
  · subst hkk
    simp [framesOf,emittedBy,List.range_succ]
  · have hne : k ≠ k' := fun heq => hkk heq.symm
    simp [framesOf,emittedBy,hne,AList.lookup_insert_ne hkk]

theorem inTime_iff (hf : s.Filed) (h : s.Shown) (e : TerminalStep) :
    s.InTime e ↔ ∀ t, s.step e = some t → t.Shown := by
  cases e with
  | script ops => exact iff_of_true trivial fun t ht => shown_script h ht
  | mount => exact shown_mount_iff h
  | handle => exact iff_of_true trivial fun t ht => shown_handle hf h ht
  | bridge e =>
    cases e with
    | connect i task =>
      cases task with
      | none => exact shown_failed_iff hf h i
      | some k => exact iff_of_true trivial fun t ht => shown_bridge hf h ht (by simp) (by simp)
    | abortTask i => exact shown_aborted_iff hf h i
    | attachPaneStream _ _ | abortOld _ | register _ | detachPaneStream _ _ | pumpEnds _ =>
      exact iff_of_true trivial fun t ht => shown_bridge hf h ht (by simp) (by simp)
  | frame k => exact iff_of_true trivial fun t ht => shown_frame h ht
  | paneBegins pane =>
    refine iff_of_true trivial fun t ht => ?_
    unfold step at ht
    rw [Option.ite_none_left_eq_some,Option.some.injEq] at ht
    obtain ⟨hmem,rfl⟩ := ht
    intro q hlive written hw
    rcases Finset.mem_insert.mp hlive with rfl | hlive
    · exact absurd (AList.lookup_isSome.mp (by rw [hw]; rfl)) hmem
    · exact h q hlive written hw
  | paneEnds pane =>
    refine iff_of_true trivial fun t ht => ?_
    obtain rfl := Option.some.inj ht
    exact fun q hlive written hw => h q (Finset.mem_of_mem_erase hlive) written hw

/-- Once nothing is to come, a terminal that is fed has all there is. -/
theorem Shown.whole (h : s.Shown) (hquiet : s.Quiescent) : s.Whole := by
  obtain ⟨hevents,-,hcalls⟩ := hquiet
  intro pane hlive written hw
  rcases h pane hlive written hw with ⟨k,-,hk,hframes⟩ | ⟨j,d,-,hd,-⟩ | hend
  · have hqueued : s.queued k = [] := by rw [queued,hevents,List.filterMap_nil]
    rw [hqueued,List.append_nil] at hframes
    exact ⟨k,hk,hframes⟩
  · exact absurd hd (hcalls j d)
  · rw [hevents] at hend
    cases hend

/-- In every state of a run each terminal has had, or is yet to have, the whole stream, exactly
when each is mounted in time and keeps its pump; and so it has had it whenever nothing is in
progress. -/
theorem terminals_whole_iff (steps : List TerminalStep) :
    (Along step InTime start steps ↔ Always step Shown start steps) ∧
      (Along step InTime start steps →
        Always step (fun s => s.Quiescent → s.Whole) start steps) := by
  have hfiled : start.Filed := by
    refine ⟨⟨fun pane k hk => ?_,fun i c k hc => ?_⟩,fun pane k n he => ?_,
      fun pane written hw => ?_,fun k _ => rfl⟩
    · cases hk
    · cases hc
    · cases he
    · cases hw
  have hshown : start.Shown := fun pane hlive => absurd hlive (Finset.notMem_empty pane)
  have hiff : Along step InTime start steps ↔ Always step Shown start steps :=
    along_iff_always (fun _ _ _ h ht => filed_step h ht)
      (fun _ e hf h => inTime_iff hf h e) hfiled hshown
  exact ⟨hiff,fun h => (hiff.mp h).mono fun _ => Shown.whole⟩

/-- The store once a session of one window of one pane is the active one. -/
def onlySession (session : SessionId) (w : WindowId) (pane : PaneId) : Store :=
  { Store.start with
    sessions := [⟨session,1⟩]
    activeSession := some session
    layouts := AList.insert w (.leaf pane) ∅
    windows := AList.insert session [w] ∅ }

/-- A session that is not shown is reloaded: its pane's pump starts, and the snapshot is dropped
for want of a terminal. Then the session is switched to. -/
def switchedLate : List TerminalStep :=
  [.paneBegins ⟨2⟩,.script [.attach 0 ⟨2⟩],.bridge (.abortOld 0),.bridge (.connect 0 (some 0)),
    .bridge (.register 0),.frame 0,.handle,
    .script [.setState (onlySession ⟨2⟩ ⟨2⟩ ⟨2⟩) true false],.mount]

theorem snapshot_lost :
    ¬Always step (fun s => s.Quiescent → s.Whole) start switchedLate := by
  intro hall
  have hwhole := hall _ (List.prefix_refl _) _ rfl ⟨rfl,rfl,fun i c hc => by cases hc⟩
  obtain ⟨k,hk,hframes⟩ := hwhole ⟨2⟩ (by decide) [] rfl
  by_cases hk0 : k = 0
  · rw [hk0] at hframes
    cases hframes
  · have hnone : (AList.insert 0 ⟨⟨2⟩,true⟩ ∅ : Table Nat Pump).lookup k = none := by
      rw [AList.lookup_insert_ne hk0]
      rfl
    cases hnone.symm.trans hk

end Terminals
end Pyre.Gui
