import Pyre.Base.Run
import Pyre.Blocks.Machine
import Pyre.State.Tracker

/-!
One pane's tracker in the two process models: the single daemon feeds it from the reader
thread and the parser task of the pane, the hybrid worker feeds it nothing after it is made.
The engines of both evaluate it the same way and publish the changes.

The moment of each step is that of the clock, which the run moves on.
-/

set_option autoImplicit false

namespace Pyre.State
open Base Events Blocks

namespace PaneStateTracker

/-- The foreground command of a tick. The agent stays where none is read. -/
def look (t : PaneStateTracker) (foreground : Option Text) : PaneStateTracker :=
  match foreground with
  | some cmd => { t with foregroundCmd := some cmd, agent := classifyForeground cmd }
  | none => { t with foregroundCmd := none }

end PaneStateTracker

/-- A tracker and the states published for its pane. -/
structure Watched where
  tracker : PaneStateTracker
  published : List PaneStateKind

namespace Watched

/-- The body of an engine's loop. -/
def tick (w : Watched) (now : Instant) (foreground : Option Text) (alive : Bool) : Watched :=
  let (t,changed) := (w.tracker.look foreground).evaluate now alive
  ⟨t, if changed then w.published ++ [t.state] else w.published⟩

def setOverride (w : Watched) (now : Instant) (state : PaneStateKind) (reason : Text)
    (secs : Nat) : Watched :=
  { w with tracker := w.tracker.setOverride now state reason secs }

def markSeen (w : Watched) : Watched := { w with tracker := w.tracker.markSeen }

end Watched

/-- A pane of the single daemon. `parseQueue` holds the chunks the reader thread has handed
to the parser task. -/
structure SinglePane (σ : Type) extends Watched where
  parser : BlockParser σ
  parseQueue : List Bytes

abbrev WorkerPane := Watched

/-- The marker the parser task pushes for an event. -/
def marker : BlockEvent → Option Osc133Marker
  | .promptStart _ => some .A
  | .commandStart _ _ _ _ => some .C
  | .blockEnd _ exitCode => some (.D exitCode)
  | .outputChunk _ _ => none

namespace SinglePane

variable {σ : Type} (vte : Vte σ) (draw : Nat → BlockId)

def spawnPty (session : SessionId) (now : Instant) (rootPid : Nat) : SinglePane σ :=
  ⟨⟨.new now rootPid,[]⟩,.new vte session,[]⟩

/-- The reader thread reads a chunk. -/
def read (p : SinglePane σ) (now : Instant) (chunk : Bytes) : SinglePane σ :=
  { p with
    tracker := p.tracker.touchOutput now
    parseQueue := p.parseQueue ++ [chunk] }

/-- The parser task takes up the next chunk. -/
def parse (p : SinglePane σ) (now : Instant) : Option (SinglePane σ) :=
  match p.parseQueue with
  | [] => none
  | chunk :: rest =>
    let (parser,events) := p.parser.feed vte draw chunk
    let pushed := (events.filterMap marker).foldl (fun t m => t.pushMarker now m) p.tracker
    some { p with tracker := pushed, parser := parser, parseQueue := rest }

/-- One round of `spawn_state_engine` over the pane. -/
def stateEngine (p : SinglePane σ) (now : Instant) (foreground : Option Text) (alive : Bool) :
    SinglePane σ :=
  { p with toWatched := p.toWatched.tick now foreground alive }

end SinglePane

namespace WorkerPane

def openPane (now : Instant) (childPid : Nat) : WorkerPane := ⟨.new now childPid,[]⟩

/-- The reader thread reads a chunk: it goes to the ring, the streams and the supervisor. -/
def read (w : WorkerPane) (_now : Instant) (_chunk : Bytes) : WorkerPane := w

/-- One round of `spawn_worker_state_engine` over the pane. -/
def workerStateEngine (w : WorkerPane) (now : Instant) (foreground : Option Text)
    (alive : Bool) : WorkerPane :=
  w.tick now foreground alive

end WorkerPane

/-- What happens to a pane. -/
inductive PaneInput where
  | pass (time : Nat)
  | output (chunk : Bytes)
  | parse
  | tick (foreground : Option Text) (alive : Bool)
  | setPaneState (state : PaneStateKind) (reason : Text) (secs : Nat)
  | markPaneSeen

/-- A pane run in both models, with the same things happening to it at the same moments. -/
structure BothPanes (σ : Type) where
  openedAt : Instant
  now : Instant
  single : SinglePane σ
  worker : WorkerPane

namespace BothPanes

variable {σ : Type} (vte : Vte σ) (draw : Nat → BlockId)

def start (session : SessionId) (openedAt : Instant) (rootPid : Nat) : BothPanes σ :=
  ⟨openedAt,openedAt,.spawnPty vte session openedAt rootPid,.openPane openedAt rootPid⟩

def step (s : BothPanes σ) : PaneInput → Option (BothPanes σ)
  | .pass time => some { s with now := s.now + time }
  | .output chunk =>
    some { s with single := s.single.read s.now chunk, worker := s.worker.read s.now chunk }
  | .parse => (s.single.parse vte draw s.now).map fun single => { s with single := single }
  | .tick foreground alive =>
    some { s with
      single := s.single.stateEngine s.now foreground alive
      worker := s.worker.workerStateEngine s.now foreground alive }
  | .setPaneState state reason secs =>
    some { s with
      single := { s.single with
        toWatched := s.single.toWatched.setOverride s.now state reason secs }
      worker := s.worker.setOverride s.now state reason secs }
  | .markPaneSeen =>
    some { s with
      single := { s.single with toWatched := s.single.toWatched.markSeen }
      worker := s.worker.markSeen }

/-- Both engines have published the same states. -/
def PublishSame (s : BothPanes σ) : Prop := s.worker.published = s.single.published

end BothPanes

namespace PaneStateTracker

variable {t w : PaneStateTracker} {openedAt now : Instant}

/-- The output and the markers make no difference to the rules. Of a dead process, the last
command did not fail. Of a live one, an interactive program is in front; or an agent is and the
pane is open longer than an agent may be silent, and the quiet prompt or the silence shows in the
feeds as well; or else the feeds show neither a quiet prompt nor a quiet end of a block. -/
def FeedsImmaterial (t : PaneStateTracker) (openedAt now : Instant) (alive : Bool) : Prop :=
  if 0 < t.rootPid ∧ !alive then ¬t.ExitedNonZero
  else t.ShowsInteractive ∨
    if t.HasAgent ∧ fromSecs agentIdleSecs < elapsed now openedAt then
      t.AtPrompt now ∨ t.AgentSilent now
    else ¬t.AtPrompt now ∧ ¬t.QuietAfterBlock now

/-- `w` is what `t` is without the feeds: what both are told is the same. -/
structure Unfed (t w : PaneStateTracker) (openedAt : Instant) : Prop where
  foregroundCmd : w.foregroundCmd = t.foregroundCmd
  agent : w.agent = t.agent
  rootPid : w.rootPid = t.rootPid
  overrideUntil : w.overrideUntil = t.overrideUntil
  overriddenState : w.overriddenState = t.overriddenState
  lastMarker : w.lastMarker = none
  lastDAt : w.lastDAt = none
  lastOutputAt : w.lastOutputAt = openedAt
  opened : openedAt ≤ t.lastOutputAt

namespace Unfed

theorem overridden (h : Unfed t w openedAt) : w.Overridden now ↔ t.Overridden now := by
  rw [Overridden,Overridden,h.overrideUntil]

theorem hasAgent (h : Unfed t w openedAt) : w.HasAgent ↔ t.HasAgent := by
  rw [HasAgent,HasAgent,h.agent]

theorem foregroundBase (h : Unfed t w openedAt) : w.foregroundBase = t.foregroundBase := by
  rw [PaneStateTracker.foregroundBase,PaneStateTracker.foregroundBase,h.foregroundCmd]

theorem showsInteractive (h : Unfed t w openedAt) : w.ShowsInteractive ↔ t.ShowsInteractive := by
  rw [ShowsInteractive,ShowsInteractive,h.foregroundBase]

/-- Without markers only the rules for a dead process, for interactive programs and for silent
agents are left, and the silence runs from the opening. -/
theorem heuristic (h : Unfed t w openedAt) (alive : Bool) : (w.heuristic now alive).1 =
    if 0 < t.rootPid ∧ !alive then .done
    else if t.ShowsInteractive then .interactive
    else if t.HasAgent ∧ fromSecs agentIdleSecs < elapsed now openedAt then .waitingInput
    else .running := by
  have hexit : ¬w.ExitedNonZero := by simp [ExitedNonZero,h.lastMarker]
  have hprompt : ¬w.AtPrompt now := by simp [AtPrompt,h.lastMarker]
  have hquiet : ¬w.QuietAfterBlock now := by simp [QuietAfterBlock,h.lastDAt]
  unfold PaneStateTracker.heuristic
  rw [if_neg hexit,if_neg hprompt,if_neg hquiet,h.rootPid]
  simp only [AgentSilent,h.showsInteractive,h.hasAgent,h.lastOutputAt]
  split_ifs <;> rfl

/-- An agent that is silent now was so for no longer than the pane is open. -/
theorem agentSilent (h : Unfed t w openedAt) (hs : t.AgentSilent now) :
    t.HasAgent ∧ fromSecs agentIdleSecs < elapsed now openedAt := by
  obtain ⟨hagent,hidle⟩ := hs
  exact ⟨hagent,hidle.trans_le (Nat.sub_le_sub_left h.opened now)⟩

theorem heuristic_eq_iff (h : Unfed t w openedAt) (alive : Bool) :
    (w.heuristic now alive).1 = (t.heuristic now alive).1 ↔
      t.FeedsImmaterial openedAt now alive := by
  rw [h.heuristic]
  unfold PaneStateTracker.heuristic FeedsImmaterial
  by_cases hdead : 0 < t.rootPid ∧ !alive
  · simp only [if_pos hdead]
    by_cases hexit : t.ExitedNonZero <;> simp [hexit]
  · simp only [if_neg hdead]
    by_cases hinteractive : t.ShowsInteractive
    · simp [hinteractive]
    · simp only [hinteractive,false_or]
      by_cases hopen : t.HasAgent ∧ fromSecs agentIdleSecs < elapsed now openedAt
      · simp only [if_pos hopen]
        by_cases hprompt : t.AtPrompt now
        · simp [hprompt]
        · by_cases hsilent : t.AgentSilent now
          · simp [hprompt,hsilent]
          · by_cases hquiet : t.QuietAfterBlock now <;> simp [hprompt,hsilent,hquiet]
      · have hsilent : ¬t.AgentSilent now := mt h.agentSilent hopen
        simp only [if_neg hopen,if_neg hsilent]
        by_cases hprompt : t.AtPrompt now
        · simp [hprompt]
        · by_cases hquiet : t.QuietAfterBlock now <;> simp [hprompt,hquiet]

theorem verdict_eq_iff (h : Unfed t w openedAt) (alive : Bool) :
    w.verdict now alive = t.verdict now alive ↔
      t.Overridden now ∨ t.FeedsImmaterial openedAt now alive := by
  unfold verdict
  simp only [h.overridden,h.overriddenState]
  split
  · next hin => simp [hin]
  · next hout =>
    rw [h.heuristic_eq_iff]
    simp [hout]

theorem look (h : Unfed t w openedAt) (foreground : Option Text) :
    Unfed (t.look foreground) (w.look foreground) openedAt := by
  cases foreground with
  | none => exact { h with foregroundCmd := rfl }
  | some cmd => exact { h with foregroundCmd := rfl, agent := rfl }

theorem resumed (h : Unfed t w openedAt) : Unfed (t.resumed now) (w.resumed now) openedAt := by
  unfold PaneStateTracker.resumed
  rw [h.overrideUntil]
  split
  · exact { h with overrideUntil := rfl, overriddenState := rfl }
  · exact h

theorem evaluate (h : Unfed t w openedAt) (alive : Bool) :
    Unfed (t.evaluate now alive).1 (w.evaluate now alive).1 openedAt := by
  obtain ⟨ts,tr,tn,ht⟩ := t.evaluate_fields alive
  obtain ⟨ws,wr,wn,hw⟩ := w.evaluate_fields alive
  rw [ht,hw]
  exact { h.resumed with }

end Unfed

/-- Markers set what is known of markers. -/
theorem foldl_pushMarker (ms : List Osc133Marker) (t : PaneStateTracker) :
    ∃ lastMarker lastDAt, ms.foldl (fun t m => t.pushMarker now m) t =
      { t with lastMarker := lastMarker, lastDAt := lastDAt } := by
  induction ms generalizing t with
  | nil => exact ⟨t.lastMarker,t.lastDAt,rfl⟩
  | cons m ms ih =>
    obtain ⟨lastMarker,lastDAt,h⟩ := ih (t.pushMarker now m)
    refine ⟨lastMarker,lastDAt,?_⟩
    rw [List.foldl_cons,h]
    cases m <;> rfl

end PaneStateTracker

theorem SinglePane.parse_fields {σ : Type} {vte : Vte σ} {draw : Nat → BlockId}
    {p q : SinglePane σ} {now : Instant} (h : p.parse vte draw now = some q) :
    q.published = p.published ∧ ∃ lastMarker lastDAt,
      q.tracker = { p.tracker with lastMarker := lastMarker, lastDAt := lastDAt } := by
  unfold parse at h
  split at h
  · cases h
  · obtain rfl := Option.some.inj h
    exact ⟨rfl,PaneStateTracker.foldl_pushMarker _ _⟩

namespace Watched

variable {w x : Watched} {now : Instant}

/-- The state the tracker is in is the one published last. -/
def Current (w : Watched) : Prop := w.tracker.state = w.published.getLastD .running

theorem look_state {t : PaneStateTracker} (foreground : Option Text) :
    (t.look foreground).state = t.state := by
  cases foreground <;> rfl

theorem tick_published (foreground : Option Text) (alive : Bool) :
    (w.tick now foreground alive).published =
      if w.tracker.state = (w.tracker.look foreground).verdict now alive then w.published
      else w.published ++ [(w.tracker.look foreground).verdict now alive] := by
  simp only [tick,PaneStateTracker.evaluate_changed,PaneStateTracker.evaluate_state,look_state]
  split_ifs with hchanged hsame <;> simp_all

theorem tick_state (foreground : Option Text) (alive : Bool) :
    (w.tick now foreground alive).tracker.state =
      (w.tracker.look foreground).verdict now alive :=
  PaneStateTracker.evaluate_state alive

theorem Current.tick (h : w.Current) (foreground : Option Text) (alive : Bool) :
    (w.tick now foreground alive).Current := by
  rw [Current,tick_state,tick_published]
  split
  · next hsame => rw [← hsame,h]
  · simp

/-- Two engines that have published the same go on to do so just if they come to one verdict. -/
theorem tick_published_eq_iff (hw : w.Current) (hx : x.Current) (h : w.published = x.published)
    (foreground : Option Text) (alive : Bool) :
    (w.tick now foreground alive).published = (x.tick now foreground alive).published ↔
      (w.tracker.look foreground).verdict now alive =
        (x.tracker.look foreground).verdict now alive := by
  have hstate : w.tracker.state = x.tracker.state := by rw [hw,hx,h]
  rw [tick_published,tick_published,hstate,h]
  constructor
  · intro heq
    split_ifs at heq with hv hu hu
    · rw [← hv,← hu]
    · simp at heq
    · simp at heq
    · simpa using heq
  · intro heq
    rw [heq]

end Watched

namespace BothPanes

variable {σ : Type} {vte : Vte σ} {draw : Nat → BlockId} {s t : BothPanes σ}

structure Paired (s : BothPanes σ) : Prop where
  unfed : s.single.tracker.Unfed s.worker.tracker s.openedAt
  opened : s.openedAt ≤ s.now
  single : s.single.Current
  worker : s.worker.Current

/-- A tick finds an override in force, or the feeds make no difference to it. -/
def Immaterial (s : BothPanes σ) : PaneInput → Prop
  | .tick foreground alive =>
    (s.single.tracker.look foreground).Overridden s.now ∨
      (s.single.tracker.look foreground).FeedsImmaterial s.openedAt s.now alive
  | _ => True

theorem paired_start (session : SessionId) (openedAt : Instant) (rootPid : Nat) :
    (start vte session openedAt rootPid).Paired :=
  ⟨⟨rfl,rfl,rfl,rfl,rfl,rfl,rfl,rfl,le_rfl⟩,le_rfl,rfl,rfl⟩

theorem paired_step {a : PaneInput} (h : s.Paired) (ht : s.step vte draw a = some t) :
    t.Paired := by
  cases a with
  | pass time =>
    obtain rfl := Option.some.inj ht
    exact { h with opened := h.opened.trans (Nat.le_add_right s.now time) }
  | output chunk =>
    obtain rfl := Option.some.inj ht
    exact { h with unfed := { h.unfed with opened := h.opened } }
  | parse =>
    obtain ⟨p,hp,rfl⟩ := Option.map_eq_some_iff.mp ht
    obtain ⟨hpublished,lastMarker,lastDAt,htracker⟩ := SinglePane.parse_fields hp
    refine { h with unfed := ?_, single := ?_ }
    · rw [htracker]
      exact { h.unfed with }
    · rw [Watched.Current,hpublished,htracker]
      exact h.single
  | tick foreground alive =>
    obtain rfl := Option.some.inj ht
    exact { h with
      unfed := (h.unfed.look foreground).evaluate alive
      single := h.single.tick foreground alive
      worker := h.worker.tick foreground alive }
  | setPaneState state reason secs =>
    obtain rfl := Option.some.inj ht
    exact { h with unfed := { h.unfed with overrideUntil := rfl, overriddenState := rfl } }
  | markPaneSeen =>
    obtain rfl := Option.some.inj ht
    exact { h with unfed := { h.unfed with } }

theorem immaterial_iff (h : s.Paired) (hsame : s.PublishSame) (a : PaneInput) :
    s.Immaterial a ↔ ∀ t, s.step vte draw a = some t → t.PublishSame := by
  cases a with
  | pass time =>
    refine iff_of_true trivial fun t ht => ?_
    obtain rfl := Option.some.inj ht
    exact hsame
  | output chunk =>
    refine iff_of_true trivial fun t ht => ?_
    obtain rfl := Option.some.inj ht
    exact hsame
  | parse =>
    refine iff_of_true trivial fun t ht => ?_
    obtain ⟨p,hp,rfl⟩ := Option.map_eq_some_iff.mp ht
    exact hsame.trans (SinglePane.parse_fields hp).1.symm
  | tick foreground alive =>
    simp only [step,Option.some.injEq,forall_eq']
    exact ((Watched.tick_published_eq_iff h.worker h.single hsame foreground alive).trans
      ((h.unfed.look foreground).verdict_eq_iff alive)).symm
  | setPaneState state reason secs =>
    refine iff_of_true trivial fun t ht => ?_
    obtain rfl := Option.some.inj ht
    exact hsame
  | markPaneSeen =>
    refine iff_of_true trivial fun t ht => ?_
    obtain rfl := Option.some.inj ht
    exact hsame

/-- The engines of both models publish the same states, whatever happens to the pane, just in
the runs whose ticks find the feeds immaterial. -/
theorem engines_publish_same_iff (session : SessionId) (openedAt : Instant) (rootPid : Nat)
    (as : List PaneInput) :
    Along (step vte draw) Immaterial (start vte session openedAt rootPid) as ↔
      Always (step vte draw) PublishSame (start vte session openedAt rootPid) as :=
  along_iff_always (fun _ _ _ h ht => paired_step h ht) (fun _ a h hs => immaterial_iff h hs a)
    (paired_start session openedAt rootPid) rfl

/-- Claude Code redraws its spinner 14 s after the pane was opened; at 16 s the worker takes it
to wait for input, the single daemon knows that it is at work. -/
theorem spinner_not_seen :
    ¬∀ (σ : Type) (vte : Vte σ) (draw : Nat → BlockId) (session : SessionId) (openedAt : Instant)
      (rootPid : Nat) (as : List PaneInput) (t : BothPanes σ),
      exec (step vte draw) (start vte session openedAt rootPid) as = some t → t.PublishSame := by
  intro h
  have hrun : (exec (step plainVte BlockId.mk) (start plainVte ⟨0⟩ 0 7)
      [.pass (fromSecs 14),.output [0x2A],.parse,.pass (fromSecs 2),
        .tick (some "claude".toList) true]).any fun t =>
      decide (t.worker.published = [.waitingInput] ∧ t.single.published = []) := by decide
  obtain ⟨t,ht,hrun⟩ := (Option.any_eq_true _ _).mp hrun
  obtain ⟨hworker,hsingle⟩ := of_decide_eq_true hrun
  have hsame := h _ _ _ _ _ _ _ t ht
  rw [PublishSame,hworker,hsingle] at hsame
  cases hsame

end BothPanes

end Pyre.State
