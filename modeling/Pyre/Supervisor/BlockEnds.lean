import Pyre.Supervisor.Batcher

/-!
The blocks of a pane that has ended: what a daemon of its own and the supervisor's
batcher leave of one stream, in the store and in the search index.
-/

set_option autoImplicit false

namespace Pyre.Supervisor
open Base Blocks

/-- If the block has a row, the row has its end, and there is one document. -/
def ends (a : Archive) (b : BlockId) : Prop :=
  (a.rows.lookup b).isSome → a.Ended b ∧ a.indexed b = 1

/-- Two archives have no block running and the same blocks ended and indexed, by the order
in which they were drawn. In the second one there may be blocks of other panes. -/
structure EndedAlike (a : Archive) (draw : Nat → BlockId) (a' : Archive)
    (draw' : Nat → BlockId) : Prop where
  first : ∀ b, ends a b
  second : ∀ i, ends a' (draw' i)
  ended : ∀ i, a.Ended (draw i) ↔ a'.Ended (draw' i)
  indexed : ∀ i, a.indexed (draw i) = a'.indexed (draw' i)

theorem endedAlike_iff {a a' : Archive} {draw draw' : Nat → BlockId} {l l' : Ledger}
    (h : a.Records draw l) (hsound : l.Sound)
    (hown : ∀ b, (a.rows.lookup b).isSome → ∃ i, draw i = b)
    (h' : a'.Records draw' l') (hsound' : l'.Sound) :
    EndedAlike a draw a' draw' ↔
      l.unfinished = [] ∧ l'.unfinished = [] ∧ l.drawn = l'.drawn := by
  constructor
  · intro hall
    have hnil := (h.finished_iff hsound).mp fun i => hall.first (draw i)
    have hnil' := (h'.finished_iff hsound').mp hall.second
    exact ⟨hnil,hnil',(h.same_iff h' hnil hnil').mp fun i => ⟨hall.ended i,hall.indexed i⟩⟩
  · rintro ⟨hnil,hnil',hdrawn⟩
    have hsame := (h.same_iff h' hnil hnil').mpr hdrawn
    refine ⟨fun b hb => ?_,(h'.finished_iff hsound').mpr hnil',fun i => (hsame i).1,
      fun i => (hsame i).2⟩
    obtain ⟨i,rfl⟩ := hown b hb
    exact (h.finished_iff hsound).mpr hnil i hb

namespace Batcher

variable {σ : Type}

/-- The chunks of the pane that its parser was fed. -/
def fed (s : Batcher σ) (key : SlotKey) : List Bytes := (s.historyOf key).reduceOption

/-- The chunks of the pane that still wait to be processed. -/
def queue (s : Batcher σ) (key : SlotKey) : List Bytes :=
  ((s.working ++ s.pending).filter fun raw => raw.key = key).map RawEvent.bytes

/-- The chunks of the pane that come in with a step. -/
def received (key : SlotKey) : BatcherStep → List Bytes
  | .receive raw => if raw.key = key then [raw.bytes] else []
  | .index _ | .tick | .signal _ | .close | .process _ | .finish => []

variable (vte : Vte σ) (parse : SessionKey → Option SessionId)

/-- The event is not dropped. -/
def Takes (s : Batcher σ) (raw : RawEvent) (fresh : PaneId) : Prop :=
  ∃ session ∈ parse raw.session, (s.paneOf vte raw fresh session).isSome

/-- No event of the pane is dropped. -/
def Taken (key : SlotKey) (s : Batcher σ) : BatcherStep → Prop
  | .process fresh => ∀ raw ∈ s.working.head?, raw.key = key → s.Takes vte parse raw fresh
  | .index _ | .receive _ | .tick | .signal _ | .close | .finish => True

instance (s : Batcher σ) (raw : RawEvent) (fresh : PaneId) :
    Decidable (s.Takes vte parse raw fresh) :=
  inferInstanceAs (Decidable (∃ _ ∈ _, _))

instance (key : SlotKey) (s : Batcher σ) : DecidablePred (s.Taken vte parse key)
  | .process _ => inferInstanceAs (Decidable (∀ _ ∈ _, _))
  | .index _ | .receive _ | .tick | .signal _ | .close | .finish => isTrue trivial

/-- What the parser was fed starts as many blocks as the stream, and the batcher has seen
all of them end. -/
structure Covers (s : Batcher σ) (key : SlotKey) (stream : Bytes) : Prop where
  finished : (s.ledger vte key).2.unfinished = []
  drawn : (s.ledger vte key).2.drawn = (BlockParser.ledgerOf vte stream).drawn

/-- From one state to the next, only the log grows, of what the batcher looks at. -/
structure Logs (s t : Batcher σ) (entries : List (SlotKey × Option Bytes)) : Prop where
  pending : t.pending = s.pending
  working : t.working = s.working
  goal : t.goal = s.goal
  history : t.history = s.history ++ entries

section Feeding

variable {w : World} {vte : Vte σ} {draw : SlotKey → Nat → BlockId}
  {parse : SessionKey → Option SessionId} {s t : Batcher σ} {key : SlotKey}

theorem Logs.trans {u : Batcher σ} {entries more : List (SlotKey × Option Bytes)}
    (h : Logs s t entries) (h' : Logs t u more) : Logs s u (entries ++ more) where
  pending := h'.pending.trans h.pending
  working := h'.working.trans h.working
  goal := h'.goal.trans h.goal
  history := by rw [h'.history,h.history,List.append_assoc]

theorem Logs.fed {entries : List (SlotKey × Option Bytes)} (h : Logs s t entries)
    (key : SlotKey) :
    t.fed key =
      s.fed key ++ ((entries.filter fun e => e.1 = key).map Prod.snd).reduceOption := by
  simp [Batcher.fed,historyOf,h.history,List.reduceOption_append]

theorem Logs.queue {entries : List (SlotKey × Option Bytes)} (h : Logs s t entries)
    (key : SlotKey) : t.queue key = s.queue key := by
  rw [Batcher.queue,h.pending,h.working,Batcher.queue]

theorem logs_put (s : Batcher σ) (key : SlotKey) (a : Archive) (p : PaneParserState σ)
    (bytes : Option Bytes) : Logs s (s.put key a p bytes) [(key,bytes)] := ⟨rfl,rfl,rfl,rfl⟩

theorem logs_processRaw (w : World) (vte : Vte σ) (draw : SlotKey → Nat → BlockId)
    (parse : SessionKey → Option SessionId) (s : Batcher σ) (raw : RawEvent) (fresh : PaneId) :
    Logs s (s.processRaw w vte draw parse raw fresh)
      (if s.Takes vte parse raw fresh then [(raw.key,some raw.bytes)] else []) := by
  unfold processRaw
  split
  · rename_i hnone
    rw [if_neg (by simp [Takes,hnone])]
    exact ⟨rfl,rfl,rfl,(List.append_nil _).symm⟩
  · rename_i session hsession
    have htakes : s.Takes vte parse raw fresh ↔ (s.paneOf vte raw fresh session).isSome := by
      simp [Takes,hsession]
    simp only [htakes,paneOf]
    cases hpane : (s.parserOf vte raw.key session).paneId with
    | some pane => exact logs_put s raw.key _ _ _
    | none =>
      cases hfound : (s.index.getOrAllocPaneBySlot raw.session raw.slot fresh).2 with
      | some pane => exact ⟨rfl,rfl,rfl,rfl⟩
      | none => exact ⟨rfl,rfl,rfl,(List.append_nil _).symm⟩

theorem logs_finalizePane (s : Batcher σ) (key : SlotKey) :
    Logs s (s.finalizePane w key) [(key,none)] := by
  unfold finalizePane
  split
  · exact logs_put s key _ _ none
  · exact ⟨rfl,rfl,rfl,rfl⟩

theorem logs_finalizeOpenBlocks (s : Batcher σ) :
    Logs s (s.finalizeOpenBlocks w) (s.paneParsers.keys.map fun key => (key,none)) := by
  unfold finalizeOpenBlocks
  induction s.paneParsers.keys generalizing s with
  | nil => exact ⟨rfl,rfl,rfl,(List.append_nil _).symm⟩
  | cons key keys ih => exact (logs_finalizePane s key).trans (ih _)

/-- What ends blocks feeds nothing to a parser. -/
theorem Logs.fed_of_none {entries : List (SlotKey × Option Bytes)} (h : Logs s t entries)
    (hnone : ∀ e ∈ entries, e.2 = none) (key : SlotKey) : t.fed key = s.fed key := by
  have hnil : ((entries.filter fun e => e.1 = key).map Prod.snd).reduceOption = [] := by
    refine List.filterMap_eq_nil_iff.mpr fun bytes hbytes => ?_
    obtain ⟨e,he,rfl⟩ := List.mem_map.mp hbytes
    exact hnone e (List.mem_of_mem_filter he)
  rw [h.fed,hnil,List.append_nil]

/-- Between two rounds nothing is at hand. -/
def Idle (s : Batcher σ) : Prop := s.goal = .waiting → s.working = []

/-- A chunk that is received is queued until the parser is fed with it. -/
structure Moves (key : SlotKey) (b : BatcherStep) (s t : Batcher σ) : Prop where
  idle : t.Idle
  chunks : t.fed key ++ t.queue key = s.fed key ++ s.queue key ++ received key b

theorem Logs.moves {entries : List (SlotKey × Option Bytes)} (h : Logs s t entries)
    (hnone : ∀ e ∈ entries, e.2 = none) (hw : s.working = []) {goal : Goal} {b : BatcherStep}
    (hb : received key b = []) : Moves key b s { t with goal := goal } where
  idle _ := h.working.trans hw
  chunks := by
    have hfed : Batcher.fed { t with goal := goal } key = s.fed key := h.fed_of_none hnone key
    have hqueue : Batcher.queue { t with goal := goal } key = s.queue key := h.queue key
    rw [hfed,hqueue,hb,List.append_nil]

theorem step_moves {b : BatcherStep} (h : s.Idle) (hb : s.Taken vte parse key b)
    (hstep : s.step w vte draw parse b = some t) : Moves key b s t := by
  have htake : ∀ {goal}, s.take goal = some t → goal ≠ .waiting → received key b = [] →
      Moves key b s t := by
    intro goal ht hgoal hnone
    rw [take,Option.ite_none_right_eq_some,Option.some.injEq] at ht
    obtain ⟨hwait,rfl⟩ := ht
    have hworking : s.working = [] := h hwait
    refine ⟨fun heq => absurd heq hgoal,?_⟩
    simp [fed,historyOf,queue,hworking,hnone]
  cases b with
  | index op =>
    obtain ⟨ix,-,rfl⟩ := Option.map_eq_some_iff.mp hstep
    exact ⟨h,(List.append_nil _).symm⟩
  | receive raw =>
    rw [step,Option.ite_none_right_eq_some,Option.some.injEq] at hstep
    obtain ⟨-,rfl⟩ := hstep
    refine ⟨h,?_⟩
    by_cases hkey : raw.key = key <;> simp [fed,historyOf,queue,received,hkey]
  | tick => exact htake hstep (by simp) rfl
  | signal k => exact htake hstep (by simp) rfl
  | close => exact htake hstep (by simp) rfl
  | process fresh =>
    simp only [step] at hstep
    split at hstep
    · rename_i raw rest hworking
      obtain rfl := Option.some.inj hstep
      have hlog := logs_processRaw w vte draw parse { s with working := rest } raw fresh
      refine ⟨fun hwait => ?_,?_⟩
      · rw [hlog.goal] at hwait
        cases hworking.symm.trans (h hwait)
      · by_cases hkey : raw.key = key
        · have htakes : Takes vte parse { s with working := rest } raw fresh :=
            hb raw (by rw [hworking]; rfl) hkey
          rw [if_pos htakes] at hlog
          rw [hlog.fed,hlog.queue]
          simp [fed,historyOf,queue,received,hworking,hkey]
        · rw [hlog.fed,hlog.queue]
          split <;> simp [fed,historyOf,queue,received,hworking,hkey]
    · cases hstep
  | finish =>
    rw [step,Option.ite_none_right_eq_some] at hstep
    obtain ⟨hworking,hstep⟩ := hstep
    split at hstep
    · obtain rfl := Option.some.inj hstep
      exact ⟨fun _ => hworking,(List.append_nil _).symm⟩
    · rename_i k hgoal
      obtain rfl := Option.some.inj hstep
      exact (logs_finalizePane s k).moves (by simp) hworking rfl
    · obtain rfl := Option.some.inj hstep
      refine (logs_finalizeOpenBlocks s).moves (fun e he => ?_) hworking rfl
      obtain ⟨k,-,rfl⟩ := List.mem_map.mp he
      rfl
    · cases hstep
    · cases hstep

theorem run_moves {steps : List BatcherStep} (h : s.Idle)
    (hs : Along (step w vte draw parse) (Taken vte parse key) s steps)
    (hrun : exec (step w vte draw parse) s steps = some t) :
    t.fed key ++ t.queue key = s.fed key ++ s.queue key ++ steps.flatMap (received key) := by
  induction steps generalizing s with
  | nil =>
    obtain rfl := Option.some.inj hrun
    exact (List.append_nil _).symm
  | cons b steps ih =>
    obtain ⟨u,hstep,hrun⟩ := Option.bind_eq_some_iff.mp hrun
    have hmoves := step_moves h hs.1 hstep
    rw [ih hmoves.idle (hs.2 u hstep) hrun,hmoves.chunks,List.flatMap_cons,List.append_assoc]

/-- The parser is fed what the pane wrote, if none of it is dropped or waits. -/
theorem fed_eq_received {steps : List BatcherStep}
    (hs : Along (step w vte draw parse) (Taken vte parse key) start steps)
    (hrun : exec (step w vte draw parse) start steps = some t) (hqueue : t.queue key = []) :
    t.fed key = steps.flatMap (received key) := by
  have hmoves := run_moves (fun _ => rfl) hs hrun
  rw [hqueue,List.append_nil] at hmoves
  exact hmoves

/-- Ending blocks for the pane only finishes some of those that the stream started. -/
theorem ledger_within (vte : Vte σ) (s : Batcher σ) (key : SlotKey) :
    (s.ledger vte key).2.Within (BlockParser.ledgerOf vte (s.fed key).flatten) := by
  have hall : ∀ (hs : List (Option Bytes)) (x : σ × Ledger) (l : Ledger), x.2.Within l →
      (hs.foldl (takeIn vte) x).2.Within
        (BlockParser.ledgerAfter vte x.1 l hs.reduceOption.flatten) := by
    intro hs
    induction hs with
    | nil => exact fun x l h => h
    | cons bytes hs ih =>
      intro x l h
      cases bytes with
      | none =>
        rw [List.reduceOption_cons_of_none]
        exact ih (takeIn vte x none) l h.settle
      | some bytes =>
        rw [List.reduceOption_cons_of_some,List.flatten_cons,BlockParser.ledgerAfter_append]
        exact ih (takeIn vte x (some bytes)) _ (h.marks _)
  exact hall (s.historyOf key) (vte.start,.start) .start (Ledger.Within.refl .start)

/-- Where nothing is dropped, the batcher misses nothing of a stream that ends all blocks. -/
theorem covers_of_taken {steps : List BatcherStep} {stream : Bytes}
    (hs : Along (step w vte draw parse) (Taken vte parse key) start steps)
    (hrun : exec (step w vte draw parse) start steps = some t) (hqueue : t.queue key = [])
    (hstream : stream = (steps.flatMap (received key)).flatten)
    (hends : (BlockParser.ledgerOf vte stream).unfinished = []) : t.Covers vte key stream := by
  have hwithin := t.ledger_within vte key
  rw [fed_eq_received hs hrun hqueue,← hstream] at hwithin
  refine ⟨List.eq_nil_iff_forall_not_mem.mpr fun i hi => ?_,hwithin.drawn⟩
  have hmem := hwithin.unfinished i hi
  simp [hends] at hmem

end Feeding

/-- What the two leave is alike just if all blocks end in the stream and the batcher covers
it, as it does where it drops no event of the pane. -/
theorem no_block_left_running (w w' : World) (vte : Vte σ) {draw : Nat → BlockId}
    (hdraw : Function.Injective draw) {draw' : SlotKey → Nat → BlockId}
    (hdraw' : Function.Injective2 draw') (parse : SessionKey → Option SessionId)
    (pane : PaneId) (session : SessionId) {chunks : List Bytes} {steps : List BatcherStep}
    {t : Batcher σ} {key : SlotKey}
    (hrun : exec (step w' vte draw' parse) start steps = some t) (hqueue : t.queue key = [])
    (hstream : chunks.flatten = (steps.flatMap (received key)).flatten) :
    (EndedAlike (recordPane w vte draw pane session chunks) draw t.archive (draw' key) ↔
        exec markStep false (marks (vte.run vte.start chunks.flatten).2) = some false ∧
          t.Covers vte key chunks.flatten) ∧
      (Along (step w' vte draw' parse) (Taken vte parse key) start steps →
        (EndedAlike (recordPane w vte draw pane session chunks) draw t.archive (draw' key) ↔
          exec markStep false (marks (vte.run vte.start chunks.flatten).2) = some false)) := by
  set stream := chunks.flatten with hchunks
  obtain ⟨hrecords,hown⟩ := recordPane_records w vte hdraw pane session chunks
  rw [← hchunks] at hrecords
  obtain ⟨hrecords',hsound'⟩ := (run_inv hdraw' hrun).records key
  have hsound : (BlockParser.ledgerOf vte stream).Sound := Ledger.sound_start.marks _
  have hends : (BlockParser.ledgerOf vte stream).unfinished = [] ↔
      exec markStep false (marks (vte.run vte.start stream).2) = some false :=
    Ledger.start_unfinished_iff _
  have hiff := endedAlike_iff hrecords hsound hown hrecords' hsound'
  rw [hends] at hiff
  have hcovers : EndedAlike (recordPane w vte draw pane session chunks) draw t.archive (draw' key) ↔
      exec markStep false (marks (vte.run vte.start stream).2) = some false ∧
        t.Covers vte key stream := by
    rw [hiff]
    exact and_congr_right fun _ =>
      ⟨fun h => ⟨h.1,h.2.symm⟩,fun h => ⟨h.finished,h.drawn.symm⟩⟩
  refine ⟨hcovers,fun hs => hcovers.trans ?_⟩
  exact and_iff_left_of_imp fun hmarks => covers_of_taken hs hrun hqueue hstream (hends.mpr hmarks)

/-- A command starts and ends, and its pane is closed before the batcher has seen either. -/
theorem no_block_left_running_closed :
    ∃ t, exec (step plainWorld plainVte plainDraw fun _ => some ⟨1⟩) start
        [.receive ⟨"",0,osc133Bytes "C"⟩,.signal ("",0),.process ⟨1⟩,.finish,
          .receive ⟨"",0,osc133Bytes "D;0"⟩,.tick,.process ⟨1⟩,.finish] = some t ∧
      t.Closed ("",0) ∧ t.queue ("",0) = [] ∧
      EndedAlike (recordPane plainWorld plainVte (plainDraw ("",0)) ⟨1⟩ ⟨1⟩
        [osc133Bytes "C" ++ osc133Bytes "D;0"]) (plainDraw ("",0)) t.archive
          (plainDraw ("",0)) := by
  have hrun : (exec (step plainWorld plainVte plainDraw fun _ => some ⟨1⟩) start
      [.receive ⟨"",0,osc133Bytes "C"⟩,.signal ("",0),.process ⟨1⟩,.finish,
        .receive ⟨"",0,osc133Bytes "D;0"⟩,.tick,.process ⟨1⟩,.finish]).any fun t =>
      t.Closed ("",0) ∧ t.queue ("",0) = [] := by decide
  obtain ⟨t,ht,hrun⟩ := (Option.any_eq_true _ _).mp hrun
  obtain ⟨hclosed,hqueue⟩ := of_decide_eq_true hrun
  refine ⟨t,ht,hclosed,hqueue,?_⟩
  have hiff := (no_block_left_running plainWorld plainWorld plainVte
    (plainDraw_injective.right ("",0)) plainDraw_injective _ ⟨1⟩ ⟨1⟩ ht hqueue
    (show List.flatten [osc133Bytes "C" ++ osc133Bytes "D;0"] = _ by decide)).2 (by decide)
  exact hiff.mpr (by decide)

/-- A command runs when the pane ends. Its row gets its end in a daemon of its own, but it is
not indexed there. -/
theorem block_left_running :
    ¬∀ (chunks : List Bytes) (steps : List BatcherStep) (t : Batcher PlainState) (key : SlotKey),
      exec (step plainWorld plainVte plainDraw fun _ => some ⟨1⟩) start steps = some t →
      t.Closed key → t.queue key = [] →
      chunks.flatten = (steps.flatMap (received key)).flatten →
      EndedAlike (recordPane plainWorld plainVte (plainDraw key) ⟨1⟩ ⟨1⟩ chunks) (plainDraw key)
        t.archive (plainDraw key) := by
  intro h
  have hrun : (exec (step plainWorld plainVte plainDraw fun _ => some ⟨1⟩) start
      [.receive ⟨"",0,osc133Bytes "C"⟩,.signal ("",0),.process ⟨1⟩,.finish]).any fun t =>
      t.Closed ("",0) ∧ t.queue ("",0) = [] := by decide
  obtain ⟨t,ht,hrun⟩ := (Option.any_eq_true _ _).mp hrun
  obtain ⟨hclosed,hqueue⟩ := of_decide_eq_true hrun
  have hall := h [osc133Bytes "C"] _ t ("",0) ht hclosed hqueue (by decide)
  have hone := (hall.first (plainDraw ("",0) 0) (by decide)).2
  exact absurd hone (by decide)

end Batcher

end Pyre.Supervisor
