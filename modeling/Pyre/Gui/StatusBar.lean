import Pyre.Base.Guarded
import Pyre.Base.Run
import Pyre.Gui.Chrome

/-!
The status bar, with the poll of the focused pane's process. The bar is drawn again only when its
fingerprint has changed, and the poll writes only what would be shown differently.
-/

set_option autoImplicit false

namespace Pyre.Gui.Chrome
open Base

/-- What the daemon replies of a process. -/
structure PidInfo where
  pid : Nat
  comm : Text
  children : List Nat
  deriving DecidableEq, Repr

def toReadout (pane : Text) (info : PidInfo) : PidReadout :=
  ⟨pane,info.pid,info.comm,info.children.length⟩

def PidReadout.sameShown (a b : PidReadout) : Bool :=
  a.pane = b.pane ∧ a.pid = b.pid ∧ a.comm = b.comm ∧ a.childCount = b.childCount

def readoutEqual : Option PidReadout → Option PidReadout → Bool
  | none, none => true
  | some a, some b => a.sameShown b
  | _, _ => false

/-- The last part of a path, which is the path itself where it ends in a slash. -/
def basename (t : Text) : Text :=
  let last := (t.splitOn '/').getLast?.getD []
  if last = [] then t else last

def shortComm (comm : Text) : Text :=
  let trimmed := Search.scriptTrim comm
  if trimmed = [] then []
  else
    let base := basename trimmed
    if 42 < base.length then base.take 41 ++ ['…'] else base

/-- The command has the name in full for its title. -/
structure ProcessGroup where
  command : Option (Text × Text)
  children : Option Text
  title : Text
  deriving DecidableEq, Repr

/-- `connected` is the dot, the text beside it and the button to reconnect. -/
structure StatusBar where
  connected : Bool
  socket : Option Text
  process : Option ProcessGroup
  panes : Text
  session : Option Text
  theme : Text
  deriving DecidableEq, Repr

namespace AppState

variable (s : AppState)

/-- The readout that is of the focused pane. -/
def focusedReadout : Option PidReadout :=
  s.pidReadout.filter fun r => decide (some r.pane = s.focusedPane)

def processGroup : Option ProcessGroup :=
  s.focusedReadout.bind fun r =>
    let comm := shortComm r.comm
    let command := if comm = [] then none else some (comm,r.comm)
    let children := if r.childCount = 0 then none
      else some (decimal r.childCount ++
        (if r.childCount = 1 then " child".toList else " children".toList))
    if command = none ∧ children = none then none
    else some ⟨command,children,"pid ".toList ++ decimal r.pid⟩

/-- The process line in the fingerprint. -/
def processField (r : PidReadout) : Text :=
  r.comm ++ rowSep :: (decimal r.childCount ++ rowSep :: decimal r.pid)

def statusbarFingerprint : Text :=
  join fieldSep [
    if s.connected then ['1'] else ['0'],
    s.socket,
    s.focusedReadout.elim [] processField,
    decimal s.totalPaneCount,
    (s.activeSessionInfo.map SessionInfo.name).getD [],
    s.activeTheme]

def statusBar : StatusBar where
  connected := s.connected
  socket := truthy (some s.socket)
  process := s.processGroup
  panes := decimal s.totalPaneCount ++ " panes".toList
  session := s.activeSessionInfo.map SessionInfo.name
  theme := s.activeTheme

/-- No text of the bar has a separator, and no session is without a name. -/
structure Printable : Prop where
  socket : Plain s.socket
  theme : Plain s.activeTheme
  names : ∀ info ∈ s.sessions, Plain info.name ∧ info.name ≠ []
  process : ∀ r, s.pidReadout = some r → Plain r.comm

variable {s} {t : AppState} {r r' : PidReadout}

theorem focusedReadout_mem (h : s.focusedReadout = some r) : s.pidReadout = some r :=
  (Option.filter_eq_some_iff.mp h).1

theorem Printable.activeName (h : s.Printable) :
    fieldSep ∉ (s.activeSessionInfo.map SessionInfo.name).getD [] ∧
      s.activeSessionInfo.map SessionInfo.name ≠ some [] := by
  cases hinfo : s.activeSessionInfo with
  | none => simp
  | some info =>
    obtain ⟨id,-,hfind⟩ := Option.bind_eq_some_iff.mp hinfo
    obtain ⟨hplain,hne⟩ := h.names info (List.mem_of_find?_eq_some hfind)
    exact ⟨hplain.1,by simpa using hne⟩

theorem notMem_processField (h : Plain r.comm) : fieldSep ∉ processField r := by
  have hchildren := (plain_decimal r.childCount).1
  have hpid := (plain_decimal r.pid).1
  simp only [processField,List.mem_append,List.mem_cons,not_or]
  exact ⟨h.1,by decide,hchildren,by decide,hpid⟩

theorem processField_inj (h : Plain r.comm) (h' : Plain r'.comm)
    (heq : processField r = processField r') :
    r.comm = r'.comm ∧ r.childCount = r'.childCount ∧ r.pid = r'.pid := by
  obtain ⟨hcomm,hrest⟩ := cut_first h.2 h'.2 heq
  obtain ⟨hcount,hpid⟩ := cut_first (plain_decimal _).2 (plain_decimal _).2 hrest
  exact ⟨hcomm,decimal_injective hcount,decimal_injective hpid⟩

/-- The process line is the same where its part of the fingerprint is. -/
theorem processGroup_eq (hs : s.Printable) (ht : t.Printable)
    (h : s.focusedReadout.elim [] processField = t.focusedReadout.elim [] processField) :
    s.processGroup = t.processGroup := by
  unfold processGroup
  cases hr : s.focusedReadout with
  | none =>
    cases hr' : t.focusedReadout with
    | none => rfl
    | some r' => simp [hr,hr',processField] at h
  | some r =>
    cases hr' : t.focusedReadout with
    | none => simp [hr,hr',processField] at h
    | some r' =>
      rw [hr,hr'] at h
      obtain ⟨hcomm,hcount,hpid⟩ := processField_inj (hs.process r (focusedReadout_mem hr))
        (ht.process r' (focusedReadout_mem hr')) h
      simp only [Option.bind_some,hcomm,hcount,hpid]

theorem notMem_fields (h : s.Printable) (t : Text) (ht : t ∈ [
    if s.connected then ['1'] else ['0'],
    s.socket,
    s.focusedReadout.elim [] processField,
    decimal s.totalPaneCount,
    (s.activeSessionInfo.map SessionInfo.name).getD [],
    s.activeTheme]) : fieldSep ∉ t := by
  simp only [List.mem_cons,List.not_mem_nil,or_false] at ht
  obtain rfl | rfl | rfl | rfl | rfl | rfl := ht
  · split <;> decide
  · exact h.socket.1
  · cases hr : s.focusedReadout with
    | none => simp
    | some r => exact notMem_processField (h.process r (focusedReadout_mem hr))
  · exact (plain_decimal _).1
  · exact h.activeName.1
  · exact h.theme.1

theorem statusBar_eq (hs : s.Printable) (ht : t.Printable)
    (h : s.statusbarFingerprint = t.statusbarFingerprint) : s.statusBar = t.statusBar := by
  have hfields := (join_inj (notMem_fields hs) (notMem_fields ht) (List.cons_ne_nil _ _)
    (List.cons_ne_nil _ _)).mp h
  simp only [List.cons.injEq,and_true] at hfields
  obtain ⟨hconnected,hsocket,hprocess,hcount,hname,htheme⟩ := hfields
  have hflag : s.connected = t.connected := by
    cases hc : s.connected <;> cases hc' : t.connected <;>
      simp only [hc,hc'] at hconnected ⊢ <;> exact absurd hconnected (by decide)
  have hsession : s.activeSessionInfo.map SessionInfo.name =
      t.activeSessionInfo.map SessionInfo.name := by
    have hns := hs.activeName.2
    have hnt := ht.activeName.2
    cases hi : s.activeSessionInfo.map SessionInfo.name <;>
      cases hi' : t.activeSessionInfo.map SessionInfo.name <;> simp_all
  simp only [statusBar,hflag,hsocket,processGroup_eq hs ht hprocess,decimal_injective hcount,
    hsession,htheme]

end AppState

def statusGuard : Guard AppState Text StatusBar where
  key := AppState.statusbarFingerprint
  view := AppState.statusBar
  patch _ v := v
  closed _ := false
  reset := []

/-- The store with the bar, and the pane that the call in flight asks about. -/
structure StatusPanel where
  store : AppState
  bar : Drawn Text StatusBar
  inFlight : Option Text

/-- `update` is any other change of the store, which leaves the readout alone. -/
inductive StatusStep where
  | update (s : AppState)
  | poll
  | reply (info : Option PidInfo)

namespace StatusPanel

def setState (p : StatusPanel) (s : AppState) : StatusPanel :=
  { p with store := s, bar := statusGuard.render p.bar s }

def start : StatusPanel :=
  (⟨.initial,⟨[],none⟩,none⟩ : StatusPanel).setState .initial

def setPidReadout (p : StatusPanel) (next : Option PidReadout) : StatusPanel :=
  if readoutEqual p.store.pidReadout next then p
  else p.setState { p.store with pidReadout := next }

/-- `pollPidOnce` up to its call. -/
def pollPidOnce (p : StatusPanel) : StatusPanel :=
  if p.inFlight.isSome then p
  else
    match truthy p.store.focusedPane with
    | none => p.setPidReadout none
    | some pane =>
      if p.store.connected then { p with inFlight := some pane } else p.setPidReadout none

def step (p : StatusPanel) : StatusStep → Option StatusPanel
  | .update s => some (p.setState { s with pidReadout := p.store.pidReadout })
  | .poll => some p.pollPidOnce
  | .reply info =>
    p.inFlight.map fun pane =>
      { p.setPidReadout (info.map (toReadout pane)) with inFlight := none }

/-- What the store is given can be told from its fingerprint. -/
def PrintableStep (_ : StatusPanel) : StatusStep → Prop
  | .update s => Plain s.socket ∧ Plain s.activeTheme ∧
      ∀ info ∈ s.sessions, Plain info.name ∧ info.name ≠ []
  | .poll => True
  | .reply info => ∀ i ∈ info, Plain i.comm

instance (p : StatusPanel) : DecidablePred p.PrintableStep
  | .update _ => inferInstanceAs (Decidable (_ ∧ _ ∧ ∀ info ∈ _, _ ∧ _))
  | .poll => isTrue trivial
  | .reply info => inferInstanceAs (Decidable (∀ i ∈ info, Plain i.comm))

/-- The bar is the one that would be drawn without a guard. -/
structure Sound (p : StatusPanel) : Prop where
  printable : p.store.Printable
  valid : statusGuard.Valid AppState.Printable p.bar
  shown : p.bar.shown = some p.store.statusBar

theorem determined : statusGuard.Determined AppState.Printable :=
  .of_key (fun _ _ => rfl) fun _ _ hs ht _ _ h => AppState.statusBar_eq hs ht h

variable {p q : StatusPanel} {s : AppState}

theorem Sound.setState (h : statusGuard.Valid AppState.Printable p.bar) (hs : s.Printable) :
    (p.setState s).Sound where
  printable := hs
  valid := h.render hs
  shown := h.shown_of_patch determined (fun _ _ => rfl) hs

theorem sound_start : start.Sound :=
  Sound.setState Guard.Valid.blank ⟨by decide,by decide,by simp [AppState.initial],
    by simp [AppState.initial]⟩

theorem Sound.setPidReadout (h : p.Sound) {next : Option PidReadout}
    (hplain : ∀ r, next = some r → Plain r.comm) : (p.setPidReadout next).Sound := by
  unfold StatusPanel.setPidReadout
  split
  · exact h
  · exact Sound.setState h.valid { h.printable with process := hplain }

theorem Sound.pollPidOnce (h : p.Sound) : p.pollPidOnce.Sound := by
  have hnone : (p.setPidReadout none).Sound := h.setPidReadout fun _ hr => by cases hr
  unfold StatusPanel.pollPidOnce
  split
  · exact h
  · split
    · exact hnone
    · split
      · exact { h with }
      · exact hnone

theorem Sound.step (h : p.Sound) {a : StatusStep} (ha : p.PrintableStep a)
    (hstep : p.step a = some q) : q.Sound := by
  cases a with
  | update s =>
    obtain rfl := Option.some.inj hstep
    exact Sound.setState h.valid ⟨ha.1,ha.2.1,ha.2.2,h.printable.process⟩
  | poll =>
    obtain rfl := Option.some.inj hstep
    exact h.pollPidOnce
  | reply info =>
    obtain ⟨pane,-,rfl⟩ := Option.map_eq_some_iff.mp hstep
    have hreadout : (p.setPidReadout (info.map (toReadout pane))).Sound := by
      refine h.setPidReadout fun r hr => ?_
      obtain ⟨i,hi,rfl⟩ := Option.map_eq_some_iff.mp hr
      exact ha i hi
    exact { hreadout with }

/-- The bar shows the store at every moment, whatever was skipped. -/
theorem statusBar_shows_store (actions : List StatusStep)
    (h : Along step PrintableStep start actions) :
    Always step (fun p => p.bar.shown = some p.store.statusBar) start actions :=
  (h.invariant (fun _ _ _ hp ha hs => hp.step ha hs) sound_start).mono fun _ hp => hp.shown

/-- The reply comes when the focus is on another pane. -/
def readoutLate : List StatusStep :=
  let s : AppState := { AppState.initial with
    connected := true
    sessions := [⟨"s".toList,"main".toList,2⟩]
    activeSession := some "s".toList
    focusedPane := some "p".toList }
  [.update s, .poll, .update { s with focusedPane := some "q".toList },
    .reply (some ⟨7,"/bin/bash".toList,[8]⟩), .update s]

theorem statusBar_shows_readoutLate :
    Always step (fun p => p.bar.shown = some p.store.statusBar) start readoutLate :=
  statusBar_shows_store readoutLate (by decide +kernel)

example : (exec step start readoutLate).bind (fun p => p.bar.shown.bind StatusBar.process) =
    some ⟨some ("bash".toList,"/bin/bash".toList),some "1 child".toList,"pid 7".toList⟩ := by
  decide +kernel

end StatusPanel

end Pyre.Gui.Chrome
