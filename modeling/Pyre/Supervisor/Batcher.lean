import Mathlib.Logic.Equiv.List
import Pyre.Blocks.Bookkeeping
import Pyre.Supervisor.Relay

/-!
The supervisor's batcher, which takes the raw events, the signals of closed panes and
the ticks of its timer in any order, and what it does to the blocks.
-/

set_option autoImplicit false

namespace Pyre.Supervisor
open Base Blocks

/-- What the batcher does once the events it has at hand are processed: wait again, after
it has ended the blocks of a closed pane, or stop, after it has ended those of all. -/
inductive Goal where
  | waiting
  | flushing
  | closing (key : SlotKey)
  | stopping
  | stopped
  deriving DecidableEq, Repr

/-- `working` are the events at hand. `history` is a log of what was fed to the parser of
each slot, with `none` where its blocks were ended for the pane. -/
structure Batcher (σ : Type) where
  index : PaneIndex
  archive : Archive
  paneParsers : Table SlotKey (PaneParserState σ)
  pending : List RawEvent
  working : List RawEvent
  goal : Goal
  history : List (SlotKey × Option Bytes)

/-- `index` stands for the other tasks; `close` is the end of the channel of events. -/
inductive BatcherStep where
  | index (op : IndexOp)
  | receive (raw : RawEvent)
  | tick
  | signal (key : SlotKey)
  | close
  | process (fresh : PaneId)
  | finish
  deriving DecidableEq, Repr

namespace Batcher

variable {σ : Type}

def start : Batcher σ := ⟨.empty,.empty,∅,[],[],.waiting,[]⟩

variable (w : World) (vte : Vte σ) (draw : SlotKey → Nat → BlockId)
  (parse : SessionKey → Option SessionId)

def put (s : Batcher σ) (key : SlotKey) (a : Archive) (p : PaneParserState σ)
    (fed : Option Bytes) : Batcher σ :=
  { s with
    archive := a
    paneParsers := s.paneParsers.insert key p
    history := s.history ++ [(key,fed)] }

/-- The part of `process_raw_event` that has the PaneId. -/
def feedPane (s : Batcher σ) (raw : RawEvent) (session : SessionId) (pane : PaneId)
    (p : PaneParserState σ) : Batcher σ :=
  let (a,p) := if raw.bytes = [] then (s.archive,p)
    else PaneParserState.feed w .hybrid pane session vte (draw raw.key) (s.archive,p) raw.bytes
  s.put raw.key a p (some raw.bytes)

def parserOf (s : Batcher σ) (key : SlotKey) (session : SessionId) : PaneParserState σ :=
  (s.paneParsers.lookup key).getD (.new vte session)

/-- An event under a key that is no UUID is dropped, and so is one of a closed slot whose
parser has no PaneId yet. -/
def processRaw (s : Batcher σ) (raw : RawEvent) (fresh : PaneId) : Batcher σ :=
  match parse raw.session with
  | none => s
  | some session =>
    let p := s.parserOf vte raw.key session
    match p.paneId with
    | some pane => s.feedPane w vte draw raw session pane p
    | none =>
      let (index,found) := s.index.getOrAllocPaneBySlot raw.session raw.slot fresh
      let s := { s with index := index }
      match found with
      | some pane => s.feedPane w vte draw raw session pane { p with paneId := some pane }
      | none => { s with paneParsers := s.paneParsers.insert raw.key p }

/-- The signal of a closed pane, once the events at hand are processed. -/
def finalizePane (s : Batcher σ) (key : SlotKey) : Batcher σ :=
  match s.paneParsers.lookup key with
  | some p =>
    let (a,p) := p.finalizeOne w s.archive
    s.put key a p none
  | none => { s with history := s.history ++ [(key,none)] }

def finalizeOpenBlocks (s : Batcher σ) : Batcher σ :=
  s.paneParsers.keys.foldl (finalizePane w) s

def take (s : Batcher σ) (goal : Goal) : Option (Batcher σ) :=
  if s.goal = .waiting then some { s with working := s.pending, pending := [], goal := goal }
  else none

def step (s : Batcher σ) : BatcherStep → Option (Batcher σ)
  | .index op => (s.index.step op).map fun index => { s with index := index }
  | .receive raw =>
    if s.goal = .waiting then some { s with pending := s.pending ++ [raw] } else none
  | .tick => s.take .flushing
  | .signal key => s.take (.closing key)
  | .close => s.take .stopping
  | .process fresh =>
    match s.working with
    | raw :: rest => some ({ s with working := rest }.processRaw w vte draw parse raw fresh)
    | [] => none
  | .finish =>
    if s.working = [] then
      match s.goal with
      | .flushing => some { s with goal := .waiting }
      | .closing key => some { s.finalizePane w key with goal := .waiting }
      | .stopping => some { s.finalizeOpenBlocks w with goal := .stopped }
      | .waiting | .stopped => none
    else none

/-- The events that the parser makes of the bytes; without bytes it is not fed. -/
def eventsOf (vte : Vte σ) (draw : Nat → BlockId) (p : PaneParserState σ) (bytes : Bytes) :
    List BlockEvent :=
  if bytes = [] then [] else (p.parser.feed vte draw bytes).2

/-- The PaneId that the event is processed under. -/
def paneOf (s : Batcher σ) (raw : RawEvent) (fresh : PaneId) (session : SessionId) :
    Option PaneId :=
  (s.parserOf vte raw.key session).paneId.or
    (s.index.getOrAllocPaneBySlot raw.session raw.slot fresh).2

/-! The ledgers of the parsers, and the books the batcher keeps by them. -/

def historyOf (s : Batcher σ) (key : SlotKey) : List (Option Bytes) :=
  (s.history.filter fun e => e.1 = key).map Prod.snd

/-- The terminal parser and the ledger, after bytes or after the end of the pane. -/
def takeIn (vte : Vte σ) (x : σ × Ledger) : Option Bytes → σ × Ledger
  | some bytes => ((vte.run x.1 bytes).1,BlockParser.ledgerAfter vte x.1 x.2 bytes)
  | none => (x.1,x.2.settle)

def ledger (s : Batcher σ) (key : SlotKey) : σ × Ledger :=
  (s.historyOf key).foldl (takeIn vte) (vte.start,.start)

/-- The pane's signal has been processed, or the batcher has stopped. -/
def Closed (s : Batcher σ) (key : SlotKey) : Prop := none ∈ s.historyOf key

instance (s : Batcher σ) (key : SlotKey) : Decidable (s.Closed key) :=
  inferInstanceAs (Decidable (_ ∈ _))

/-- An event of a closed pane neither starts nor ends a block, unless it is dropped. -/
def Settled (s : Batcher σ) : BatcherStep → Prop
  | .process fresh => ∀ raw ∈ s.working.head?, s.Closed raw.key →
    ∀ session ∈ parse raw.session, (s.paneOf vte raw fresh session).isSome →
      ∀ e ∈ eventsOf vte (draw raw.key) (s.parserOf vte raw.key session) raw.bytes,
        bounds e = false
  | .index _ | .receive _ | .tick | .signal _ | .close | .finish => True

instance (s : Batcher σ) : DecidablePred (s.Settled vte draw parse)
  | .process _ => inferInstanceAs (Decidable (∀ _ ∈ _, _))
  | .index _ | .receive _ | .tick | .signal _ | .close | .finish => isTrue trivial

structure Inv (s : Batcher σ) : Prop where
  entry : ∀ key p, s.paneParsers.lookup key = some p →
    p.parser.parser = (s.ledger vte key).1 ∧
      Held (draw key) (s.ledger vte key).2 (s.archive,p)
  absent : ∀ key, s.paneParsers.lookup key = none → s.ledger vte key = (vte.start,.start) ∧
    ∀ i, s.archive.rows.lookup (draw key i) = none ∧ s.archive.indexed (draw key i) = 0
  named : ∀ b, (∀ key i, draw key i ≠ b) → s.archive.indexed b = 0

section Keeping

variable {w : World} {vte : Vte σ} {draw : SlotKey → Nat → BlockId}
  {parse : SessionKey → Option SessionId} {s t : Batcher σ} {key : SlotKey} {a : Archive}
  {p : PaneParserState σ} {fed : Option Bytes}

theorem inv_start : (start (σ := σ)).Inv vte draw where
  entry key p h := by cases h
  absent key _ := ⟨rfl,fun i => ⟨rfl,rfl⟩⟩
  named b _ := rfl

/-- Whatever else is set, the invariant is about the archive, the parsers and the log. -/
theorem Inv.congr (h : s.Inv vte draw) (ha : t.archive = s.archive)
    (hp : t.paneParsers = s.paneParsers) (hh : t.history = s.history) : t.Inv vte draw := by
  obtain ⟨ix,a,ps,pe,wo,g,hi⟩ := t
  obtain rfl : a = s.archive := ha
  obtain rfl : ps = s.paneParsers := hp
  obtain rfl : hi = s.history := hh
  exact ⟨h.entry,h.absent,h.named⟩

theorem ledger_put_self (s : Batcher σ) (key : SlotKey) (a : Archive) (p : PaneParserState σ)
    (fed : Option Bytes) : (s.put key a p fed).ledger vte key = takeIn vte (s.ledger vte key) fed := by
  simp [ledger,historyOf,put]

theorem ledger_put_ne {k : SlotKey} (h : k ≠ key) (s : Batcher σ) (a : Archive)
    (p : PaneParserState σ) (fed : Option Bytes) :
    (s.put key a p fed).ledger vte k = s.ledger vte k := by
  simp [ledger,historyOf,put,h.symm]

theorem Inv.held (h : s.Inv vte draw) (key : SlotKey) (session : SessionId) :
    (s.parserOf vte key session).parser.parser = (s.ledger vte key).1 ∧
      Held (draw key) (s.ledger vte key).2 (s.archive,s.parserOf vte key session) := by
  unfold parserOf
  cases hp : s.paneParsers.lookup key with
  | some p => exact h.entry key p hp
  | none =>
    obtain ⟨hledger,hnone⟩ := h.absent key hp
    rw [hledger]
    exact ⟨rfl,held_new vte (draw key) session hnone⟩

/-- The state of one parser advances, the others' blocks stay as they are. -/
theorem Inv.put (h : s.Inv vte draw) (hdraw : Function.Injective2 draw)
    (hparser : p.parser.parser = (takeIn vte (s.ledger vte key) fed).1)
    (hheld : Held (draw key) (takeIn vte (s.ledger vte key) fed).2 (a,p))
    (hothers : ∀ c, (∀ i, draw key i ≠ c) → s.archive.Same a c) :
    (s.put key a p fed).Inv vte draw where
  entry k q hq := by
    change (s.paneParsers.insert key p).lookup k = some q at hq
    rcases Table.lookup_insert_eq_some.mp hq with ⟨rfl,rfl⟩ | ⟨hk,hq⟩
    · rw [ledger_put_self]
      exact ⟨hparser,hheld⟩
    · rw [ledger_put_ne hk]
      obtain ⟨hstate,hold⟩ := h.entry k q hq
      refine ⟨hstate,hold.parser,hold.sound,hold.books.same fun i => hothers _ fun j heq => ?_⟩
      exact hk (hdraw heq).1.symm
  absent k hq := by
    change (s.paneParsers.insert key p).lookup k = none at hq
    rw [AList.lookup_eq_none,AList.mem_insert,not_or] at hq
    obtain ⟨hk,hq⟩ := hq
    obtain ⟨hledger,hnone⟩ := h.absent k (AList.lookup_eq_none.mpr hq)
    refine ⟨(ledger_put_ne hk s a p fed).trans hledger,fun i => ?_⟩
    have hsame := hothers (draw k i) fun j heq => hk (hdraw heq).1.symm
    exact ⟨hsame.row.trans (hnone i).1,hsame.indexed.trans (hnone i).2⟩
  named b hb := (hothers b (hb key)).indexed.trans (h.named b hb)

/-- From one state to a later one: ended rows stay, and a closed pane draws no block. -/
structure Kept (vte : Vte σ) (s t : Batcher σ) : Prop where
  rows : s.archive.Keeps t.archive
  closed : ∀ key, s.Closed key →
    t.Closed key ∧ (t.ledger vte key).2.drawn = (s.ledger vte key).2.drawn

theorem Kept.trans {u : Batcher σ} (h : Kept vte s t) (h' : Kept vte t u) : Kept vte s u where
  rows := h.rows.trans h'.rows
  closed key hc := by
    obtain ⟨hclosed,hdrawn⟩ := h.closed key hc
    obtain ⟨hclosed',hdrawn'⟩ := h'.closed key hclosed
    exact ⟨hclosed',hdrawn'.trans hdrawn⟩

theorem kept_congr (ha : t.archive = s.archive) (hh : t.history = s.history) : Kept vte s t where
  rows := by
    rw [ha]
    exact Archive.Keeps.refl s.archive
  closed key hc := by
    have hsame : t.historyOf key = s.historyOf key := by rw [historyOf,hh,historyOf]
    rw [Closed,hsame,ledger,hsame]
    exact ⟨hc,rfl⟩

theorem historyOf_put (s : Batcher σ) (key k : SlotKey) (a : Archive) (p : PaneParserState σ)
    (fed : Option Bytes) :
    (s.put key a p fed).historyOf k = s.historyOf k ++ if k = key then [fed] else [] := by
  by_cases hk : k = key
  · subst hk
    simp [historyOf,put]
  · simp [historyOf,put,hk,Ne.symm hk]

theorem kept_put (hrows : s.archive.Keeps a)
    (hdrawn : s.Closed key →
      (takeIn vte (s.ledger vte key) fed).2.drawn = (s.ledger vte key).2.drawn) :
    Kept vte s (s.put key a p fed) where
  rows := hrows
  closed k hc := by
    refine ⟨?_,?_⟩
    · rw [Closed,historyOf_put]
      exact List.mem_append_left _ hc
    · by_cases hk : k = key
      · subst hk
        rw [ledger_put_self]
        exact hdrawn hc
      · rw [ledger_put_ne hk]

/-- The pane's blocks are ended for it. -/
theorem Inv.finalizePane (h : s.Inv vte draw) (hdraw : Function.Injective2 draw)
    (key : SlotKey) : (s.finalizePane w key).Inv vte draw ∧ Kept vte s (s.finalizePane w key) := by
  cases hp : s.paneParsers.lookup key with
  | some p =>
    obtain ⟨hstate,hheld⟩ := h.entry key p hp
    obtain ⟨hfinal,hparser,hothers,hkeeps⟩ := hheld.finalizeOne (w := w) (hdraw.right key)
    have hput : s.finalizePane w key =
        s.put key (p.finalizeOne w s.archive).1 (p.finalizeOne w s.archive).2 none := by
      simp only [Batcher.finalizePane,hp]
    rw [hput]
    refine ⟨h.put hdraw ?_ hfinal hothers,kept_put hkeeps fun _ => rfl⟩
    rw [hparser,hstate]
    rfl
  | none =>
    obtain ⟨hledger,-⟩ := h.absent key hp
    have hlog : s.finalizePane w key = { s with history := s.history ++ [(key,none)] } := by
      simp only [Batcher.finalizePane,hp]
    rw [hlog]
    have hhistory : ∀ k, ({ s with history := s.history ++ [(key,none)] } : Batcher σ).historyOf k =
        s.historyOf k ++ if k = key then [none] else [] := by
      intro k
      by_cases hk : k = key
      · subst hk
        simp [historyOf]
      · simp [historyOf,hk,Ne.symm hk]
    have hsame : ∀ k, ({ s with history := s.history ++ [(key,none)] } : Batcher σ).ledger vte k =
        s.ledger vte k := by
      intro k
      rw [ledger,hhistory,List.foldl_append]
      by_cases hk : k = key
      · subst hk
        rw [if_pos rfl,← ledger,hledger]
        rfl
      · rw [if_neg hk]
        rfl
    refine ⟨⟨fun k q hq => ?_,fun k hq => ?_,h.named⟩,Archive.Keeps.refl s.archive,fun k hc => ?_⟩
    · rw [hsame]
      exact h.entry k q hq
    · rw [hsame]
      exact h.absent k hq
    · rw [hsame,Closed,hhistory]
      exact ⟨List.mem_append_left _ hc,rfl⟩

theorem Inv.finalizeOpenBlocks (h : s.Inv vte draw) (hdraw : Function.Injective2 draw) :
    (s.finalizeOpenBlocks w).Inv vte draw ∧ Kept vte s (s.finalizeOpenBlocks w) := by
  unfold Batcher.finalizeOpenBlocks
  induction s.paneParsers.keys generalizing s with
  | nil => exact ⟨h,kept_congr rfl rfl⟩
  | cons key keys ih =>
    obtain ⟨hinv,hkept⟩ := h.finalizePane (w := w) hdraw key
    obtain ⟨hinv',hkept'⟩ := ih hinv
    exact ⟨hinv',hkept.trans hkept'⟩

/-- While nothing has been ended for the pane, the open block is unfinished. -/
theorem open_of_not_closed (h : ¬s.Closed key) : (s.ledger vte key).2.Open := by
  have hall : ∀ (hs : List (Option Bytes)) (x : σ × Ledger), none ∉ hs → x.2.Open →
      (hs.foldl (takeIn vte) x).2.Open := by
    intro hs
    induction hs with
    | nil => exact fun x _ hx => hx
    | cons fed hs ih =>
      intro x hnone hx
      rw [List.mem_cons,not_or] at hnone
      cases fed with
      | none => exact absurd rfl hnone.1
      | some bytes => exact ih _ hnone.2 (hx.marks _)
  exact hall (s.historyOf key) (vte.start,.start) h (by simp [Ledger.Open,Ledger.start])

theorem Inv.feedPane (h : s.Inv vte draw) (hdraw : Function.Injective2 draw) {raw : RawEvent}
    (session : SessionId) (pane : PaneId)
    (hstate : p.parser.parser = (s.ledger vte raw.key).1)
    (hheld : Held (draw raw.key) (s.ledger vte raw.key).2 (s.archive,p)) :
    (s.feedPane w vte draw raw session pane p).Inv vte draw ∧
      ((s.Closed raw.key → ∀ e ∈ eventsOf vte (draw raw.key) p raw.bytes, bounds e = false) →
        Kept vte s (s.feedPane w vte draw raw session pane p)) := by
  by_cases hbytes : raw.bytes = []
  · have hput : s.feedPane w vte draw raw session pane p =
        s.put raw.key s.archive p (some raw.bytes) := by
      simp only [Batcher.feedPane,if_pos hbytes]
    have htake : takeIn vte (s.ledger vte raw.key) (some raw.bytes) = s.ledger vte raw.key := by
      rw [hbytes]
      rfl
    rw [hput]
    refine ⟨h.put hdraw (by rw [htake,hstate]) (by rw [htake]; exact hheld) ?_,fun _ =>
      kept_put ?_ ?_⟩
    · exact fun c _ => Archive.Same.refl s.archive c
    · exact Archive.Keeps.refl s.archive
    · exact fun _ => by rw [htake]
  · set fed := PaneParserState.feed w .hybrid pane session vte (draw raw.key) (s.archive,p) raw.bytes
      with hfed
    have hput : s.feedPane w vte draw raw session pane p =
        s.put raw.key fed.1 fed.2 (some raw.bytes) := by
      simp only [Batcher.feedPane,if_neg hbytes,hfed]
    obtain ⟨hheld',hparser,hothers,hkeeps⟩ : Held (draw raw.key) _ fed ∧ _ ∧ _ ∧ _ :=
      hheld.feed (hdraw.right raw.key) raw.bytes
    have hevents := (hheld.parser.feed vte raw.bytes).1
    rw [hstate] at hheld' hevents
    rw [hput,eventsOf,if_neg hbytes]
    refine ⟨h.put hdraw ?_ hheld' hothers,fun hsilent => kept_put ?_ fun hclosed => ?_⟩
    · rw [hparser,hstate]
      rfl
    · by_cases hclosed : s.Closed raw.key
      · intro b row hrow _
        rw [hfed,rows_feed (hsilent hclosed)]
        exact hrow
      · exact hkeeps (open_of_not_closed hclosed)
    · exact Ledger.drawn_of_silent hevents (hsilent hclosed)

/-- A slot may get its entry without being fed. -/
theorem Inv.touch (h : s.Inv vte draw) (key : SlotKey) (session : SessionId) :
    Inv vte draw { s with
      paneParsers := s.paneParsers.insert key (s.parserOf vte key session) } where
  entry k q hq := by
    change (s.paneParsers.insert key (s.parserOf vte key session)).lookup k = some q at hq
    rcases Table.lookup_insert_eq_some.mp hq with ⟨rfl,rfl⟩ | ⟨-,hq⟩
    · exact h.held k session
    · exact h.entry k q hq
  absent k hq := by
    change (s.paneParsers.insert key (s.parserOf vte key session)).lookup k = none at hq
    rw [AList.lookup_eq_none,AList.mem_insert,not_or] at hq
    exact h.absent k (AList.lookup_eq_none.mpr hq.2)
  named := h.named

theorem Inv.processRaw (h : s.Inv vte draw) (hdraw : Function.Injective2 draw) {raw : RawEvent}
    (fresh : PaneId) :
    (s.processRaw w vte draw parse raw fresh).Inv vte draw ∧
      ((s.Closed raw.key → ∀ session ∈ parse raw.session,
        (s.paneOf vte raw fresh session).isSome →
          ∀ e ∈ eventsOf vte (draw raw.key) (s.parserOf vte raw.key session) raw.bytes,
            bounds e = false) →
        Kept vte s (s.processRaw w vte draw parse raw fresh)) := by
  unfold Batcher.processRaw
  split
  · exact ⟨h,fun _ => kept_congr rfl rfl⟩
  · rename_i session hsession
    obtain ⟨hstate,hheld⟩ := h.held raw.key session
    simp only
    split
    · rename_i pane hpane
      obtain ⟨hinv,hkept⟩ := h.feedPane (w := w) hdraw session pane hstate hheld
      refine ⟨hinv,fun hs => hkept fun hclosed => ?_⟩
      exact hs hclosed session hsession (by simp [paneOf,hpane])
    · rename_i hpane
      set found := s.index.getOrAllocPaneBySlot raw.session raw.slot fresh with hfound
      have hindex : Inv vte draw { s with index := found.1 } := h.congr rfl rfl rfl
      split
      · rename_i pane hsome
        obtain ⟨hinv,hkept⟩ := hindex.feedPane (w := w) (p := { s.parserOf vte raw.key session with
          paneId := some pane }) hdraw session pane hstate (hheld.withPane (some pane))
        refine ⟨hinv,fun hs => ?_⟩
        have hrun := hkept fun hclosed =>
          hs hclosed session hsession (by simp [paneOf,hpane,← hfound,hsome])
        exact ⟨hrun.rows,hrun.closed⟩
      · exact ⟨(h.touch raw.key session).congr rfl rfl rfl,fun _ => kept_congr rfl rfl⟩

/-- One step of the batcher or of a task beside it. -/
theorem step_kept (hdraw : Function.Injective2 draw) (b : BatcherStep) (h : s.Inv vte draw)
    (hstep : s.step w vte draw parse b = some t) :
    t.Inv vte draw ∧ (s.Settled vte draw parse b → Kept vte s t) := by
  have htake : ∀ {goal}, s.take goal = some t → t.Inv vte draw ∧ Kept vte s t := by
    intro goal ht
    rw [take,Option.ite_none_right_eq_some,Option.some.injEq] at ht
    obtain ⟨-,rfl⟩ := ht
    exact ⟨h.congr rfl rfl rfl,kept_congr rfl rfl⟩
  cases b with
  | index op =>
    obtain ⟨ix,-,rfl⟩ := Option.map_eq_some_iff.mp hstep
    exact ⟨h.congr rfl rfl rfl,fun _ => kept_congr rfl rfl⟩
  | receive raw =>
    rw [step,Option.ite_none_right_eq_some,Option.some.injEq] at hstep
    obtain ⟨-,rfl⟩ := hstep
    exact ⟨h.congr rfl rfl rfl,fun _ => kept_congr rfl rfl⟩
  | tick => exact (htake hstep).imp_right fun hkept _ => hkept
  | signal key => exact (htake hstep).imp_right fun hkept _ => hkept
  | close => exact (htake hstep).imp_right fun hkept _ => hkept
  | process fresh =>
    simp only [step] at hstep
    split at hstep
    · rename_i raw rest hworking
      obtain rfl := Option.some.inj hstep
      have hrest : Inv vte draw { s with working := rest } := h.congr rfl rfl rfl
      obtain ⟨hinv,hkept⟩ := hrest.processRaw (w := w) hdraw fresh
      refine ⟨hinv,fun hs => ?_⟩
      have hrun := hkept (hs raw (by rw [hworking]; rfl))
      exact ⟨hrun.rows,hrun.closed⟩
    · cases hstep
  | finish =>
    rw [step,Option.ite_none_right_eq_some] at hstep
    obtain ⟨-,hstep⟩ := hstep
    split at hstep
    · obtain rfl := Option.some.inj hstep
      exact ⟨h.congr rfl rfl rfl,fun _ => kept_congr rfl rfl⟩
    · rename_i key hgoal
      obtain rfl := Option.some.inj hstep
      obtain ⟨hinv,hkept⟩ := h.finalizePane (w := w) hdraw key
      exact ⟨hinv.congr rfl rfl rfl,fun _ => hkept.trans (kept_congr rfl rfl)⟩
    · obtain rfl := Option.some.inj hstep
      obtain ⟨hinv,hkept⟩ := h.finalizeOpenBlocks (w := w) hdraw
      exact ⟨hinv.congr rfl rfl rfl,fun _ => hkept.trans (kept_congr rfl rfl)⟩
    · cases hstep
    · cases hstep

theorem run_inv (hdraw : Function.Injective2 draw) {steps : List BatcherStep}
    (hrun : exec (step w vte draw parse) start steps = some t) : t.Inv vte draw :=
  (Always.of_invariant (fun _ _ _ h hstep => (step_kept hdraw _ h hstep).1) inv_start
    steps).last hrun

theorem run_kept (hdraw : Function.Injective2 draw) {steps : List BatcherStep}
    (h : s.Inv vte draw)
    (hs : Along (step w vte draw parse) (Settled vte draw parse) s steps)
    (hrun : exec (step w vte draw parse) s steps = some t) : t.Inv vte draw ∧ Kept vte s t := by
  induction steps generalizing s with
  | nil =>
    obtain rfl := Option.some.inj hrun
    exact ⟨h,kept_congr rfl rfl⟩
  | cons b steps ih =>
    obtain ⟨u,hstep,hrun⟩ := Option.bind_eq_some_iff.mp hrun
    obtain ⟨hinv,hkept⟩ := step_kept hdraw b h hstep
    obtain ⟨hinv',hkept'⟩ := ih hinv (hs.2 u hstep) hrun
    exact ⟨hinv',(hkept hs.1).trans hkept'⟩

end Keeping

/-- From one state to a later one: blocks that have ended do not change, none is indexed
twice, and a closed pane gets no new rows. -/
structure Final (draw : SlotKey → Nat → BlockId) (s t : Batcher σ) : Prop where
  ended : ∀ b row, s.archive.rows.lookup b = some row → row.endedAt.isSome →
    ∃ row', t.archive.rows.lookup b = some row' ∧ row'.endedAt = row.endedAt ∧
      row'.exitCode = row.exitCode ∧ row'.stdoutLen = row.stdoutLen
  once : ∀ b, t.archive.indexed b ≤ 1
  closed : ∀ key, s.Closed key → ∀ i, (t.archive.rows.lookup (draw key i)).isSome →
    (s.archive.rows.lookup (draw key i)).isSome

theorem Inv.records {vte : Vte σ} {draw : SlotKey → Nat → BlockId} {s : Batcher σ}
    (h : s.Inv vte draw) (key : SlotKey) :
    s.archive.Records (draw key) (s.ledger vte key).2 ∧ (s.ledger vte key).2.Sound := by
  obtain ⟨-,hheld⟩ := h.held key ⟨0⟩
  exact ⟨hheld.books.records,hheld.sound⟩

theorem Inv.once {vte : Vte σ} {draw : SlotKey → Nat → BlockId} {s : Batcher σ}
    (h : s.Inv vte draw) (b : BlockId) : s.archive.indexed b ≤ 1 := by
  by_cases hb : ∃ key i, draw key i = b
  · obtain ⟨key,i,rfl⟩ := hb
    rw [(h.held key ⟨0⟩).2.books.documents i]
    split <;> simp
  · push Not at hb
    rw [h.named b hb]
    exact Nat.zero_le 1

/-- What has ended is final in every run in which no event of a closed pane starts or ends
a block. -/
theorem ended_blocks_final (w : World) (vte : Vte σ) {draw : SlotKey → Nat → BlockId}
    (hdraw : Function.Injective2 draw) (parse : SessionKey → Option SessionId)
    {pre post : List BatcherStep} {s t : Batcher σ}
    (h : Along (step w vte draw parse) (Settled vte draw parse) start (pre ++ post))
    (hs : exec (step w vte draw parse) start pre = some s)
    (ht : exec (step w vte draw parse) s post = some t) : s.Final draw t := by
  obtain ⟨hinv,-⟩ := run_kept hdraw inv_start h.of_append hs
  obtain ⟨hinv',hkept⟩ := run_kept hdraw hinv (h.drop hs) ht
  refine ⟨fun b row hrow hend => ⟨row,hkept.rows b row hrow hend,rfl,rfl,rfl⟩,hinv'.once,?_⟩
  intro key hclosed i hsome
  have hdrawn := (hkept.closed key hclosed).2
  rw [(hinv'.records key).1.row,hdrawn,← (hinv.records key).1.row] at hsome
  exact hsome

/-- A supply of ids for runs on fixed events. -/
def plainDraw (key : SlotKey) (n : Nat) : BlockId :=
  ⟨Encodable.encode (key.1.toList.map Char.toNat,key.2.toNat,n)⟩

theorem plainDraw_injective : Function.Injective2 plainDraw := by
  rintro ⟨s,i⟩ ⟨s',i'⟩ n n' h
  have hcode := Encodable.encode_injective (BlockId.mk.inj h)
  simp only [Prod.mk.injEq] at hcode
  obtain ⟨hs,hi,hn⟩ := hcode
  have hchars : s.toList = s'.toList :=
    List.map_injective_iff.mpr (fun _ _ hc => Char.toNat_inj.mp hc) hs
  exact ⟨Prod.ext (String.toList_inj.mp hchars) (UInt32.toNat_inj.mp hi),hn⟩

/-- A clock that shows how often it was read, and blobs that never fail. -/
def plainWorld : World where
  now n := n
  procCwd _ := none
  opens _ := true
  writes _ := true
  closes _ := true

/-- A command starts and ends, and its pane is closed. -/
theorem ended_blocks_final_closed :
    ∃ s t, exec (step plainWorld plainVte plainDraw fun _ => some ⟨1⟩) start
        [.receive ⟨"",0,osc133Bytes "C" ++ osc133Bytes "D;0"⟩,.tick,.process ⟨1⟩] = some s ∧
      exec (step plainWorld plainVte plainDraw fun _ => some ⟨1⟩) s
        [.finish,.signal ("",0),.finish] = some t ∧ s.Final plainDraw t := by
  have hrun : (exec (step plainWorld plainVte plainDraw fun _ => some ⟨1⟩) start
      ([.receive ⟨"",0,osc133Bytes "C" ++ osc133Bytes "D;0"⟩,.tick,.process ⟨1⟩] ++
        [.finish,.signal ("",0),.finish])).isSome := by decide
  obtain ⟨t,ht⟩ := Option.isSome_iff_exists.mp hrun
  rw [exec_append,Option.bind_eq_some_iff] at ht
  obtain ⟨s,hs,ht⟩ := ht
  exact ⟨s,t,hs,ht,ended_blocks_final plainWorld plainVte plainDraw_injective _ (by decide) hs ht⟩

/-- The pane is closed while a command runs, and what the shell wrote last comes after the
signal: the command has ended without an exit code first, and then with one. -/
theorem ended_block_changes :
    ¬∀ (pre post : List BatcherStep) (s t : Batcher PlainState),
      exec (step plainWorld plainVte plainDraw fun _ => some ⟨1⟩) start pre = some s →
      exec (step plainWorld plainVte plainDraw fun _ => some ⟨1⟩) s post = some t →
      s.Final plainDraw t := by
  intro h
  have hrun : (exec (step plainWorld plainVte plainDraw fun _ => some ⟨1⟩) start
      [.receive ⟨"",0,osc133Bytes "C"⟩,.signal ("",0),.process ⟨1⟩,.finish]).any fun s =>
      (exec (step plainWorld plainVte plainDraw fun _ => some ⟨1⟩) s
        [.receive ⟨"",0,osc133Bytes "D;0"⟩,.tick,.process ⟨1⟩]).any fun t =>
      (s.archive.rows.lookup (plainDraw ("",0) 0)).any fun row => row.endedAt.isSome ∧
      (t.archive.rows.lookup (plainDraw ("",0) 0)).all fun row' =>
        row'.exitCode ≠ row.exitCode := by decide
  obtain ⟨s,hs,hrun⟩ := (Option.any_eq_true _ _).mp hrun
  obtain ⟨t,ht,hrun⟩ := (Option.any_eq_true _ _).mp hrun
  obtain ⟨row,hrow,hrun⟩ := (Option.any_eq_true _ _).mp hrun
  obtain ⟨hend,hexit⟩ := of_decide_eq_true hrun
  obtain ⟨row',hrow',-,hsame,-⟩ := (h _ _ s t hs ht).ended _ row hrow hend
  rw [hrow',Option.all_some] at hexit
  exact of_decide_eq_true hexit hsame

end Batcher

end Pyre.Supervisor
