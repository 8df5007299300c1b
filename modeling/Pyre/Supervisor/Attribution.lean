import Pyre.Supervisor.PaneParsers

/-!
Whose output a block row holds. A row names the right pane, and its block the right
worker, as long as no parser outlives the mapping of its slot or the worker it reads.
-/

set_option autoImplicit false

namespace Pyre.Supervisor
open Base Blocks

namespace Supervision

variable {σ : Type}

/-- A row has the PaneId that the index mapped to the slot when the `CommandStart` of
the block was produced, and no worker's output is counted to a block of an earlier one. -/
structure Attributed (s : Supervision σ) : Prop where
  rows : ∀ b row, s.store.rows.lookup b = some row →
    ∃ p ∈ s.started, p.block = b ∧ row.pane ∈ p.panes
  output : ∀ o ∈ s.output, ∀ p ∈ s.started, p.key = o.key → p.block = o.block →
    o.incarnation ≤ p.incarnation

/-- A parser is fed only while its slot has kept the mapping it was resolved with, and
by one worker process. -/
def OneShell (s : Supervision σ) : SupervisionAction → Prop
  | .feed =>
    match s.stage with
    | .resolving a =>
      a.raw.key ∉ s.stale ∧ ∀ b ∈ s.fed, b.raw.key = a.raw.key → b.incarnation = a.incarnation
    | _ => True
  | _ => True

instance (s : Supervision σ) : DecidablePred (OneShell s) := fun a => by
  cases a with
  | feed =>
    unfold OneShell
    cases s.stage <;> infer_instance
  | _ => unfold OneShell; infer_instance

/-- What the tables know of each other. -/
structure Tied (s : Supervision σ) : Prop where
  known : ∀ p key, s.index.lookup p = some key → p ∈ s.panes
  cached : ∀ key r, s.paneParsers.lookup key = some r → r.pane ∈ s.panes
  mapped : ∀ key r, s.paneParsers.lookup key = some r → key ∉ s.stale →
    s.index.lookup r.pane = some key
  stale : ∀ key ∈ s.stale, (s.paneParsers.lookup key).isSome
  oneShell : ∀ a ∈ s.fed, ∀ b ∈ s.fed, a.raw.key = b.raw.key → a.incarnation = b.incarnation
  started : ∀ p ∈ s.started, ∃ a ∈ s.fed, a.raw.key = p.key ∧ a.incarnation = p.incarnation
  output : ∀ o ∈ s.output, ∃ a ∈ s.fed, a.raw.key = o.key ∧ a.incarnation = o.incarnation
  jobs : ∀ key r, s.paneParsers.lookup key = some r →
    ∀ session b command cwd, .event (.commandStart session b command cwd) ∈ r.queue →
      ∃ p ∈ s.started, p.block = b ∧ r.pane ∈ p.panes
  rows : ∀ b row, s.store.rows.lookup b = some row →
    ∃ p ∈ s.started, p.block = b ∧ row.pane ∈ p.panes

namespace Tied

variable {z : Zstd} {vte : Vte σ} {draw : SlotKey → Nat → BlockId}
  {parse : SessionKey → Option SessionId} {s t : Supervision σ}

theorem attributed (h : Tied s) : Attributed s := by
  refine ⟨h.rows,?_⟩
  intro o ho p hp hkey _
  obtain ⟨a,ha,hak,hai⟩ := h.output o ho
  obtain ⟨b,hb,hbk,hbi⟩ := h.started p hp
  have heq := h.oneShell a ha b hb (hak.trans (hkey.symm.trans hbk.symm))
  omega

theorem start : Tied (start : Supervision σ) := by
  constructor <;> simp [Supervision.start,PaneIndex.lookup,PaneIndex.empty,Store.empty]

theorem setStage (h : Tied s) (stage : BatcherStage) (workers : Table SessionKey Nat) :
    Tied { s with stage := stage, workers := workers } :=
  ⟨h.known,h.cached,h.mapped,h.stale,h.oneShell,h.started,h.output,h.jobs,h.rows⟩

theorem index (h : Tied s) {op : IndexOp} {ix : PaneIndex} (hnew : ∀ p ∈ op.drawn, p ∉ s.panes)
    (hstep : s.index.step op = some ix) :
    Tied { s with
      index := ix
      panes := op.drawn.toList ++ s.panes
      stale := s.stale ∪ s.paneParsers.keys.toFinset.filter fun key => op.removes key } := by
  refine ⟨?_,?_,?_,?_,h.oneShell,h.started,h.output,h.jobs,h.rows⟩
  · intro p key hp
    rcases PaneIndex.lookup_of_step hstep hp with hd | hp
    · simp [hd]
    · exact List.mem_append_right _ (h.known p key hp)
  · intro key r hr
    exact List.mem_append_right _ (h.cached key r hr)
  · intro key r hr hfresh
    have hkeys : key ∈ s.paneParsers.keys := by
      rw [← AList.mem_keys,← AList.lookup_isSome,hr]
      rfl
    simp only [Finset.mem_union,Finset.mem_filter,List.mem_toFinset,not_or,not_and,
      Bool.not_eq_true] at hfresh
    have hpanes := h.cached key r hr
    have hdrawn : op.drawn ≠ some r.pane := fun hd => hnew r.pane hd hpanes
    exact PaneIndex.lookup_step (h.mapped key r hr hfresh.1) hstep (hfresh.2 hkeys) hdrawn
  · intro key hkey
    rcases Finset.mem_union.mp hkey with hkey | hkey
    · exact h.stale key hkey
    · have hkeys := List.mem_toFinset.mp (Finset.mem_filter.mp hkey).1
      exact AList.lookup_isSome.mpr hkeys

/-- The recorder of a slot works on: under the same PaneId, on jobs that are known. -/
theorem carry (h : Tied s) {key : SlotKey} {r r' : Recorder σ} {store : Store}
    (stage : BatcherStage) (hr : s.paneParsers.lookup key = some r) (hpane : r'.pane = r.pane)
    (hjobs : ∀ session b command cwd, .event (.commandStart session b command cwd) ∈ r'.queue →
      ∃ p ∈ s.started, p.block = b ∧ r.pane ∈ p.panes)
    (hrows : ∀ b row, store.rows.lookup b = some row →
      ∃ p ∈ s.started, p.block = b ∧ row.pane ∈ p.panes) :
    Tied { s with
      store := store
      paneParsers := s.paneParsers.insert key r'
      stage := stage } := by
  refine ⟨h.known,?_,?_,?_,h.oneShell,h.started,h.output,?_,hrows⟩
  · intro key' q hq
    rcases Table.lookup_insert_eq_some.mp hq with ⟨rfl,rfl⟩ | ⟨-,hq⟩
    · rw [hpane]
      exact h.cached key' r hr
    · exact h.cached key' q hq
  · intro key' q hq hfresh
    rcases Table.lookup_insert_eq_some.mp hq with ⟨rfl,rfl⟩ | ⟨-,hq⟩
    · rw [hpane]
      exact h.mapped key' r hr hfresh
    · exact h.mapped key' q hq hfresh
  · intro key' hkey
    have hsome := h.stale key' hkey
    by_cases hk : key' = key
    · subst hk; simp
    · simpa [AList.lookup_insert_ne hk] using hsome
  · intro key' q hq
    rcases Table.lookup_insert_eq_some.mp hq with ⟨rfl,rfl⟩ | ⟨-,hq⟩
    · rw [hpane]
      exact hjobs
    · exact h.jobs key' q hq

theorem op (h : Tied s) {key : SlotKey} {r : Recorder σ} {o : Op}
    (hr : s.paneParsers.lookup key = some r) (ho : r.nextOp = some o) :
    Tied { s with
      store := (r.perform z s.store o).1
      paneParsers := s.paneParsers.insert key (r.perform z s.store o).2
      stage := .carrying key } := by
  refine h.carry (.carrying key) hr Recorder.perform_pane ?_ ?_
  · intro session b command cwd hjob
    exact h.jobs key r hr session b command cwd (Recorder.mem_queue_of_perform hjob)
  · intro b row hrow
    rcases Recorder.row_of_perform hrow with ⟨row',hrow',heq⟩ | ⟨command,cwd,rfl,heq⟩
    · rw [← heq]
      exact h.rows b row' hrow'
    · obtain ⟨session,hjob⟩ := Recorder.mem_queue_of_create ho
      rw [heq]
      exact h.jobs key r hr session b command cwd hjob

theorem finalize (h : Tied s) {key : SlotKey} {r : Recorder σ}
    (hr : s.paneParsers.lookup key = some r) :
    Tied { s with
      paneParsers := s.paneParsers.insert key (r.paneEnd .hybrid)
      stage := .carrying key } := by
  refine h.carry (.carrying key) hr rfl ?_ h.rows
  intro session b command cwd hjob
  simp [Recorder.paneEnd] at hjob

/-- A slot without an entry gets one, under a PaneId the index maps to it. -/
theorem enter (h : Tied s) {key : SlotKey} {p : PaneId} (session : SessionId)
    (hnone : s.paneParsers.lookup key = none) (hmap : s.index.lookup p = some key) :
    Tied { s with paneParsers := s.paneParsers.insert key (.start vte p session) } := by
  have hother : ∀ key' q, (s.paneParsers.insert key (.start vte p session)).lookup key' = some q →
      (key' = key ∧ q = .start vte p session) ∨ s.paneParsers.lookup key' = some q := by
    intro key' q hq
    exact (Table.lookup_insert_eq_some.mp hq).imp id And.right
  refine ⟨h.known,?_,?_,?_,h.oneShell,h.started,h.output,?_,h.rows⟩
  · intro key' q hq
    rcases hother key' q hq with ⟨-,rfl⟩ | hq
    · exact h.known p key hmap
    · exact h.cached key' q hq
  · intro key' q hq hfresh
    rcases hother key' q hq with ⟨rfl,rfl⟩ | hq
    · exact hmap
    · exact h.mapped key' q hq hfresh
  · intro key' hkey
    have hsome := h.stale key' hkey
    have hk : key' ≠ key := by
      rintro rfl
      simp [hnone] at hsome
    simpa [AList.lookup_insert_ne hk] using hsome
  · intro key' q hq session' b command cwd hjob
    rcases hother key' q hq with ⟨-,rfl⟩ | hq
    · simp [Recorder.start] at hjob
    · exact h.jobs key' q hq session' b command cwd hjob

theorem resolve (h : Tied s) {a : Arrival} {pane : PaneId}
    (hnone : s.paneParsers.lookup a.raw.key = none) (hnew : pane ∉ s.panes) :
    Tied (s.resolveSlot vte parse a pane) := by
  unfold resolveSlot
  cases parse a.raw.session with
  | none => exact h.setStage .idle s.workers
  | some session =>
    have hix : Tied { s with
        index := (s.index.getOrAllocPaneBySlot a.raw.session a.raw.slot pane).1
        panes := pane :: s.panes } := by
      let op : IndexOp := .getOrAllocPaneBySlot a.raw.session a.raw.slot pane
      have hdrawn : ∀ p ∈ op.drawn, p ∉ s.panes := by simpa [op,IndexOp.drawn] using hnew
      have hindex := h.index hdrawn rfl
      simpa [op,IndexOp.removes,IndexOp.drawn] using hindex
    cases hfound : (s.index.getOrAllocPaneBySlot a.raw.session a.raw.slot pane).2 with
    | none =>
      simp only [hfound]
      exact hix.setStage .idle s.workers
    | some p =>
      simp only [hfound]
      exact hix.enter session hnone (PaneIndex.lookup_getOrAlloc_some hfound)

theorem mem_startedBlocks {session : SessionId} {b : BlockId} {command : Text} {cwd : Option Text}
    {events : List BlockEvent} (h : .commandStart session b command cwd ∈ events) :
    b ∈ startedBlocks events := List.mem_filterMap.mpr ⟨_,h,rfl⟩

/-- The logs after a chunk of the worker that has fed the parser so far. -/
theorem log (h : Tied s) (a : Arrival) (panes : List PaneId) (events : List BlockEvent)
    (hone : ∀ b ∈ s.fed, b.raw.key = a.raw.key → b.incarnation = a.incarnation) :
    Tied { s with
      fed := s.fed ++ [a]
      started := s.started ++ startedBy a.raw.key panes a.incarnation events
      output := s.output ++ outputBy a.raw.key a.incarnation events } := by
  have hkept : ∀ {b : BlockId} {pane : PaneId},
      (∃ p ∈ s.started, p.block = b ∧ pane ∈ p.panes) →
      ∃ p ∈ s.started ++ startedBy a.raw.key panes a.incarnation events,
        p.block = b ∧ pane ∈ p.panes := by
    rintro b pane ⟨p,hp,hb⟩
    exact ⟨p,List.mem_append_left _ hp,hb⟩
  have hself : a ∈ s.fed ++ [a] := by simp
  refine ⟨h.known,h.cached,h.mapped,h.stale,?_,?_,?_,?_,?_⟩
  · intro b hb c hc hkey
    rcases List.mem_append.mp hb with hb' | hb' <;> rcases List.mem_append.mp hc with hc' | hc'
    · exact h.oneShell b hb' c hc' hkey
    · obtain rfl := List.mem_singleton.mp hc'
      exact hone b hb' hkey
    · obtain rfl := List.mem_singleton.mp hb'
      exact (hone c hc' hkey.symm).symm
    · rw [List.mem_singleton.mp hb',List.mem_singleton.mp hc']
  · intro p hp
    rcases List.mem_append.mp hp with hp | hp
    · obtain ⟨b,hb,hbp⟩ := h.started p hp
      exact ⟨b,List.mem_append_left _ hb,hbp⟩
    · obtain ⟨b,-,rfl⟩ := List.mem_map.mp hp
      exact ⟨a,hself,rfl,rfl⟩
  · intro o ho
    rcases List.mem_append.mp ho with ho | ho
    · obtain ⟨b,hb,hbo⟩ := h.output o ho
      exact ⟨b,List.mem_append_left _ hb,hbo⟩
    · obtain ⟨e,-,he⟩ := List.mem_filterMap.mp ho
      cases e with
      | outputChunk block data =>
        obtain rfl := Option.some.inj he
        exact ⟨a,hself,rfl,rfl⟩
      | _ => cases he
  · intro key r hr session b command cwd hjob
    exact hkept (h.jobs key r hr session b command cwd hjob)
  · intro b row hrow
    exact hkept (h.rows b row hrow)

theorem feed (h : Tied s) {a : Arrival} {r : Recorder σ}
    (hr : s.paneParsers.lookup a.raw.key = some r) (hfresh : a.raw.key ∉ s.stale)
    (hone : ∀ b ∈ s.fed, b.raw.key = a.raw.key → b.incarnation = a.incarnation) :
    Tied (s.feedRaw vte draw a r) := by
  have hlog := h.log a (s.index.panesOf a.raw.key)
    (if a.raw.bytes = [] then [] else (r.parser.feed vte (draw a.raw.key) a.raw.bytes).2) hone
  have hpane : r.pane ∈ s.index.panesOf a.raw.key :=
    PaneIndex.mem_panesOf.mpr (h.mapped a.raw.key r hr hfresh)
  refine hlog.carry (.carrying a.raw.key) hr ?_ ?_ hlog.rows
  · split <;> rfl
  · intro session b command cwd hjob
    by_cases hbytes : a.raw.bytes = []
    · rw [if_pos hbytes] at hjob
      exact hlog.jobs a.raw.key r hr session b command cwd hjob
    · rw [if_neg hbytes] at hjob
      simp only [Recorder.chunk,List.mem_map,Job.event.injEq] at hjob
      obtain ⟨e,he,rfl⟩ := hjob
      refine ⟨⟨a.raw.key,b,s.index.panesOf a.raw.key,a.incarnation⟩,?_,rfl,hpane⟩
      simp only [hbytes,if_false]
      exact List.mem_append_right _ (List.mem_map_of_mem (mem_startedBlocks he))

theorem step (h : Tied s) {a : SupervisionAction} (hc : s.OneShell a)
    (hstep : s.step z vte draw parse a = some t) : Tied t := by
  cases a with
  | spawnWorker session =>
    simp only [Supervision.step,Option.some.injEq] at hstep
    exact hstep ▸ h.setStage s.stage _
  | index op =>
    simp only [Supervision.step,Option.ite_none_right_eq_some,Option.map_eq_some_iff] at hstep
    obtain ⟨hnew,ix,hix,rfl⟩ := hstep
    exact h.index hnew hix
  | take a =>
    simp only [Supervision.step,Option.ite_none_right_eq_some,Option.some.injEq] at hstep
    exact hstep.2 ▸ h.setStage (.resolving a) s.workers
  | resolve pane =>
    cases hs : s.stage with
    | resolving a =>
      simp only [Supervision.step,hs,Option.ite_none_right_eq_some,Option.some.injEq] at hstep
      obtain ⟨⟨hnone,hnew⟩,rfl⟩ := hstep
      exact h.resolve hnone hnew
    | _ => simp [Supervision.step,hs] at hstep
  | feed =>
    cases hs : s.stage with
    | resolving a =>
      simp only [Supervision.step,hs,Option.map_eq_some_iff] at hstep
      obtain ⟨r,hr,rfl⟩ := hstep
      simp only [OneShell,hs] at hc
      exact h.feed hr hc.1 hc.2
    | _ => simp [Supervision.step,hs] at hstep
  | op o =>
    cases hs : s.stage with
    | carrying key =>
      simp only [Supervision.step,hs,Option.bind_eq_some_iff,Option.ite_none_right_eq_some,
        Option.some.injEq] at hstep
      obtain ⟨r,hr,ho,rfl⟩ := hstep
      exact h.op hr ho
    | _ => simp [Supervision.step,hs] at hstep
  | done =>
    cases hs : s.stage with
    | carrying key =>
      simp only [Supervision.step,hs,Option.ite_none_right_eq_some,Option.some.injEq] at hstep
      exact hstep.2 ▸ h.setStage .idle s.workers
    | _ => simp [Supervision.step,hs] at hstep
  | finalize key =>
    simp only [Supervision.step,Option.ite_none_right_eq_some,Option.map_eq_some_iff] at hstep
    obtain ⟨-,r,hr,rfl⟩ := hstep
    exact h.finalize hr

end Tied

end Supervision

/-- The rows and the output are attributed right in the runs that feed a parser only
under the mapping it was resolved with and from one worker process. -/
theorem attributed_of_oneShell {σ : Type} (z : Zstd) (vte : Vte σ)
    (draw : SlotKey → Nat → BlockId) (parse : SessionKey → Option SessionId)
    (actions : List SupervisionAction)
    (h : Along (Supervision.step z vte draw parse) Supervision.OneShell .start actions) :
    Always (Supervision.step z vte draw parse) Supervision.Attributed .start actions := by
  have htied := h.invariant (fun _ _ _ hs hc hstep => Supervision.Tied.step hs hc hstep)
    Supervision.Tied.start
  exact htied.mono fun _ hs => hs.attributed

/-- The actions that store what a command and its first output come to. -/
def storeCommand (block : BlockId) (data : Bytes) : List SupervisionAction :=
  [.op (.create block [] none),.op (.openBlob block []),.op (.write block data),.done]

/-- A pane runs a command and is closed; the next slot of the session is another's. -/
theorem attributed_two_panes :
    Always (Supervision.step plainZstd plainVte (fun _ => BlockId.mk) fun _ => some ⟨0⟩)
      Supervision.Attributed .start
      ([.spawnWorker "s",.index (.allocPane "s" ⟨1⟩),
        .take ⟨⟨"s",0,osc133Bytes "C" ++ [0x61]⟩,1⟩,.resolve ⟨2⟩,.feed] ++
        storeCommand ⟨0⟩ [0x61] ++
        [.index (.removePaneSlot "s" 0),.finalize ("s",0),.index (.allocPane "s" ⟨3⟩),
          .spawnWorker "s"]) :=
  attributed_of_oneShell _ _ _ _ _ (by decide)

/-- A worker dies with a command running. The pane opened after the respawn gets slot 0
again, and the output of its shell is counted to the block of the dead one. -/
theorem output_of_next_shell :
    ¬∀ actions, Always (Supervision.step plainZstd plainVte (fun _ => BlockId.mk)
      fun _ => some ⟨0⟩) Supervision.Attributed .start actions := by
  intro h
  have hrun := h ([.spawnWorker "s",.index (.allocPane "s" ⟨1⟩),
    .take ⟨⟨"s",0,osc133Bytes "C" ++ [0x61]⟩,1⟩,.resolve ⟨2⟩,.feed] ++ storeCommand ⟨0⟩ [0x61] ++
    [.index (.removeSession "s"),.spawnWorker "s",.index (.allocPane "s" ⟨3⟩),
      .take ⟨⟨"s",0,[0x62]⟩,2⟩,.feed])
  have hle := (hrun.last rfl).output ⟨("s",0),⟨0⟩,[0x62],2⟩ (by decide) ⟨("s",0),⟨0⟩,[⟨1⟩],1⟩
    (by decide) rfl rfl
  exact absurd hle (by decide)

end Pyre.Supervisor
