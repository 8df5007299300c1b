import Pyre.Base.Run
import Pyre.Base.Table
import Pyre.Proto

/-!
The output of the panes of the GPU viewer: a stream task for each pane, which attaches again
when its connection ends, a channel from it to the event loop, and the two handlers that take
chunks out of the channel. A byte is named by its position in the output of its pane.
-/

set_option autoImplicit false

namespace Pyre.Gpu
open Base

/-- Output waits until the parser has been told its size. -/
structure TermView where
  advanced : List Nat
  pendingOutput : List Nat
  parserSized : Bool
  sized : parserSized = true → pendingOutput = []

namespace TermView

def new : TermView := ⟨[],[],false,fun _ => rfl⟩

def pushBytes (tv : TermView) (data : List Nat) : TermView :=
  if h : tv.parserSized = true then
    ⟨tv.advanced ++ data,tv.pendingOutput,tv.parserSized,tv.sized⟩
  else
    ⟨tv.advanced,tv.pendingOutput ++ data,tv.parserSized,fun hs => absurd hs h⟩

def flushPending (tv : TermView) : TermView :=
  if tv.parserSized = true then tv
  else ⟨tv.advanced ++ tv.pendingOutput,[],true,fun _ => rfl⟩

/-- All that was pushed, parsed or not. -/
def pushed (tv : TermView) : List Nat := tv.advanced ++ tv.pendingOutput

@[simp] theorem pushed_new : new.pushed = [] := rfl

@[simp] theorem pushed_pushBytes (tv : TermView) (data : List Nat) :
    (tv.pushBytes data).pushed = tv.pushed ++ data := by
  by_cases h : tv.parserSized = true
  · simp [pushBytes,h,pushed,tv.sized h]
  · simp [pushBytes,h,pushed]

@[simp] theorem pushed_flushPending (tv : TermView) : tv.flushPending.pushed = tv.pushed := by
  by_cases h : tv.parserSized = true <;> simp [flushPending,h,pushed]

theorem pushed_foldl (chunks : List (List Nat)) (tv : TermView) :
    (chunks.foldl pushBytes tv).pushed = tv.pushed ++ chunks.flatten := by
  induction chunks generalizing tv with
  | nil => simp
  | cons chunk rest ih => simp [ih]

end TermView

/-- The bytes are a contiguous piece of the output that ends with the last frame. -/
def EndsAt : Option (Nat × Nat) → List Nat → Prop
  | none, bytes => bytes = []
  | some (start,stop), bytes => ∃ a ≤ start, bytes = List.range' a (stop-a)

/-- A pane with its stream. `connection` is the position of the next byte that the attached
stream has, and `last` where the last frame received began and ended. -/
structure PaneView where
  connection : Option Nat
  outputRx : List (List Nat)
  term : TermView
  last : Option (Nat × Nat)

namespace PaneView

/-- `insert_pane`, and `main` for its first pane. -/
def new : PaneView := ⟨none,[],.new,none⟩

/-- The snapshot begins anywhere in the output. -/
def attach (v : PaneView) (start : Nat) : Option PaneView :=
  if v.connection = none then some { v with connection := some start } else none

/-- An empty frame is not sent on. -/
def frame (v : PaneView) (len : Nat) : Option PaneView :=
  v.connection.map fun start =>
    if len = 0 then v
    else { v with
      connection := some (start+len)
      outputRx := v.outputRx ++ [List.range' start len]
      last := some (start,start+len) }

/-- The daemon leaves out what a slow stream has missed. -/
def lag (v : PaneView) (n : Nat) : Option PaneView :=
  v.connection.map fun start => { v with connection := some (start+n) }

/-- The end of the connection; the task attaches again. -/
def bridgeEnds (v : PaneView) : Option PaneView :=
  v.connection.map fun _ => { v with connection := none }

def redraw (v : PaneView) : PaneView :=
  { v with outputRx := [], term := (v.outputRx.foldl .pushBytes v.term).flushPending }

/-- What the terminal has been pushed is a piece of the output, and the last frame its end. -/
def Whole (v : PaneView) : Prop := EndsAt v.last v.term.pushed

end PaneView

structure Viewer where
  panes : Table PaneId PaneView
  needsRedraw : Bool

/-- `aboutToWait` names the first pane of the map that has a chunk, and `resized` the panes that
are drawn: those of the window, when it or the layout has changed. -/
inductive ViewerEvent where
  | insertPane (pane : PaneId)
  | closePane (pane : PaneId)
  | attach (pane : PaneId) (start : Nat)
  | frame (pane : PaneId) (len : Nat)
  | lag (pane : PaneId) (n : Nat)
  | bridgeEnds (pane : PaneId)
  | aboutToWait (first : Option PaneId)
  | redrawRequested
  | resized (leaves : List PaneId)
  deriving DecidableEq, Repr

namespace Viewer

def start (pane : PaneId) : Viewer := ⟨AList.insert pane .new ∅,true⟩

def onPane (s : Viewer) (pane : PaneId) (f : PaneView → Option PaneView) : Option Viewer :=
  ((s.panes.lookup pane).bind f).map fun v => { s with panes := s.panes.insert pane v }

/-- To see whether there is a chunk the handler takes it. -/
def aboutToWait (s : Viewer) : Option PaneId → Option Viewer
  | some pane =>
    match s.panes.lookup pane with
    | some v => if v.outputRx = [] then none else
      some ⟨s.panes.insert pane { v with outputRx := v.outputRx.tail },true⟩
    | none => none
  | none => if ∀ v ∈ s.panes.values, v.outputRx = [] then some s else none

def redraw (s : Viewer) : Viewer := ⟨s.panes.mapValues .redraw,false⟩

def resize (s : Viewer) (pane : PaneId) : Viewer :=
  match s.panes.lookup pane with
  | some v => { s with panes := s.panes.insert pane { v with term := v.term.flushPending } }
  | none => s

def step (s : Viewer) : ViewerEvent → Option Viewer
  | .insertPane pane => some ⟨s.panes.insert pane .new,true⟩
  | .closePane pane => some ⟨s.panes.erase pane,true⟩
  | .attach pane start => s.onPane pane (·.attach start)
  | .frame pane len => s.onPane pane (·.frame len)
  | .lag pane n => s.onPane pane (·.lag n)
  | .bridgeEnds pane => s.onPane pane PaneView.bridgeEnds
  | .aboutToWait first => s.aboutToWait first
  | .redrawRequested => some s.redraw
  | .resized leaves => some { leaves.foldl resize s with needsRedraw := true }

/-- Every terminal is whole. -/
def Whole (s : Viewer) : Prop := ∀ pane, ∀ v ∈ s.panes.lookup pane, v.Whole

/-- The handler takes a chunk only for a terminal that is still empty, and not the last chunk;
and a frame begins where the last one ended. -/
def Kept (s : Viewer) : ViewerEvent → Prop
  | .aboutToWait (some pane) => ∀ v ∈ s.panes.lookup pane, v.outputRx ≠ [] →
    v.term.pushed = [] ∧ v.outputRx.length ≠ 1
  | .frame pane len => len ≠ 0 → ∀ v ∈ s.panes.lookup pane, ∀ start ∈ v.connection,
    ∀ l ∈ v.last, start = l.2
  | _ => True

end Viewer

/-! What one frame and one chunk do to a piece of the output. -/

theorem endsAt_append {l : Nat × Nat} {bytes : List Nat} {start len : Nat} (hlast : l.1 < l.2)
    (h : EndsAt (some l) bytes) :
    EndsAt (some (start,start+len)) (bytes ++ List.range' start len) ↔ start = l.2 := by
  obtain ⟨i,j⟩ := l
  obtain ⟨a,ha,rfl⟩ := h
  simp only at hlast ha ⊢
  constructor
  · rintro ⟨b,hb,heq⟩
    have hhead := congrArg List.head? heq
    have hlength := congrArg List.length heq
    simp only [List.length_append,List.length_range'] at hlength
    simp only [List.head?_append,List.head?_range'] at hhead
    rw [if_neg (by omega),Option.some_or,if_neg (by omega),Option.some.injEq] at hhead
    omega
  · rintro rfl
    refine ⟨a,by omega,?_⟩
    have hstart : start = a + (start-a) := by omega
    have htotal : start+len-a = start-a+len := by omega
    rw [htotal,← List.range'_append_1,← hstart]

theorem endsAt_drop {l : Nat × Nat} {before chunk rest : List Nat} (hlast : l.1 < l.2)
    (hchunk : chunk ≠ []) (h : EndsAt (some l) (before ++ chunk ++ rest))
    (hrest : rest ≠ [] → l.2-l.1 ≤ rest.length) :
    EndsAt (some l) (before ++ rest) ↔ before = [] ∧ rest ≠ [] := by
  obtain ⟨i,j⟩ := l
  obtain ⟨a,ha,heq⟩ := h
  simp only at hlast ha hrest
  have hpos := List.length_pos_iff.mpr hchunk
  have hlength := congrArg List.length heq
  simp only [List.length_append,List.length_range'] at hlength
  constructor
  · rintro ⟨b,hb,hpiece⟩
    have hlength' := congrArg List.length hpiece
    simp only [List.length_append,List.length_range'] at hlength'
    cases before with
    | nil =>
      refine ⟨rfl,fun hnil => ?_⟩
      rw [hnil] at hlength'
      simp only [List.length_nil] at hlength'
      omega
    | cons first more =>
      have hhead := congrArg List.head? heq
      have hhead' := congrArg List.head? hpiece
      simp only [List.cons_append,List.head?_cons,List.length_cons,
        List.head?_range'] at hhead hhead' hlength hlength'
      rw [if_neg (by omega),Option.some.injEq] at hhead hhead'
      omega
  · rintro ⟨rfl,hne⟩
    have hlong := hrest hne
    refine ⟨a+chunk.length,by simp only [List.length_nil] at hlength; omega,?_⟩
    have hdrop := congrArg (List.drop chunk.length) heq
    rw [List.nil_append,List.drop_left,List.drop_range'] at hdrop
    rw [List.nil_append,hdrop]
    congr 1 <;> omega

/-! What one event does to one pane. -/

namespace PaneView

/-- All that was received, in the channel or in the terminal. -/
def received (v : PaneView) : List Nat := v.term.pushed ++ v.outputRx.flatten

@[simp] theorem whole_redraw (v : PaneView) : v.redraw.Whole ↔ EndsAt v.last v.received := by
  rw [Whole,redraw,TermView.pushed_flushPending,TermView.pushed_foldl]
  rfl

/-- The last frame is the last chunk of the channel, if there is one. -/
structure Queued (v : PaneView) : Prop where
  silent : v.last = none → v.received = []
  long : ∀ l ∈ v.last, l.1 < l.2
  chunks : ∀ chunk ∈ v.outputRx, chunk ≠ []
  ends : ∀ l ∈ v.last, v.outputRx ≠ [] →
    ∃ before, v.outputRx = before ++ [List.range' l.1 (l.2-l.1)]

variable {v v' : PaneView}

theorem queued_new : new.Queued :=
  ⟨fun _ => rfl,fun _ h => absurd h (by simp [new]),fun _ h => absurd h (by simp [new]),
    fun _ h => absurd h (by simp [new])⟩

/-- The connection is none of the queue's. -/
theorem Queued.connect (h : v.Queued) (connection : Option Nat) :
    Queued { v with connection } := ⟨h.silent,h.long,h.chunks,h.ends⟩

theorem Queued.flush (h : v.Queued) : Queued { v with term := v.term.flushPending } := by
  refine ⟨fun hl => ?_,h.long,h.chunks,h.ends⟩
  rw [received,TermView.pushed_flushPending]
  exact h.silent hl

theorem Queued.redraw (h : v.Queued) : v.redraw.Queued := by
  refine ⟨fun hl => ?_,h.long,fun _ hc => absurd hc (by simp [PaneView.redraw]),
    fun _ _ hne => absurd rfl hne⟩
  have hsilent := h.silent hl
  simpa [received,PaneView.redraw,TermView.pushed_foldl] using hsilent

theorem Queued.frame (h : v.Queued) {len : Nat} (hs : v.frame len = some v') : v'.Queued := by
  obtain ⟨start,-,rfl⟩ := Option.map_eq_some_iff.mp hs
  split
  · exact h
  · rename_i hlen
    refine ⟨by simp,fun l hl => ?_,fun chunk hc => ?_,fun l hl _ => ?_⟩
    · obtain rfl := Option.some.inj hl
      simp only
      omega
    · rcases List.mem_append.mp hc with hc | hc
      · exact h.chunks chunk hc
      · rw [List.mem_singleton.mp hc]
        simpa using hlen
    · obtain rfl := Option.some.inj hl
      exact ⟨v.outputRx,by simp⟩

theorem Queued.taken (h : v.Queued) : Queued { v with outputRx := v.outputRx.tail } := by
  refine ⟨fun hl => ?_,h.long,fun chunk hc => h.chunks chunk (List.mem_of_mem_tail hc),
    fun l hl hne => ?_⟩
  · have hsilent := h.silent hl
    simp only [received,List.append_eq_nil_iff,List.flatten_eq_nil_iff] at hsilent ⊢
    exact ⟨hsilent.1,fun chunk hc => hsilent.2 chunk (List.mem_of_mem_tail hc)⟩
  · have hfull : v.outputRx ≠ [] := by
      rintro hnil
      simp [hnil] at hne
    obtain ⟨before,hbefore⟩ := h.ends l hl hfull
    simp only [hbefore] at hne ⊢
    cases before with
    | nil => simp at hne
    | cons chunk rest => exact ⟨rest,rfl⟩

/-- A frame is whole if it begins where the last one ended. -/
theorem frame_iff (h : v.Queued) (hv : EndsAt v.last v.received) (len : Nat) :
    (∀ v', v.frame len = some v' → EndsAt v'.last v'.received) ↔
      (len ≠ 0 → ∀ start ∈ v.connection, ∀ l ∈ v.last, start = l.2) := by
  unfold frame
  cases hc : v.connection with
  | none => simp
  | some start =>
    simp only [Option.map_some,Option.some.injEq,forall_eq',Option.mem_some_iff]
    by_cases hlen : len = 0
    · simp [hlen,hv]
    · rw [if_neg hlen]
      simp only [hlen,not_false_eq_true,ne_eq,forall_const,received,List.flatten_append,
        List.flatten_singleton,← List.append_assoc]
      rw [← received]
      cases hl : v.last with
      | none =>
        rw [h.silent hl]
        exact iff_of_true ⟨start,le_refl start,by simp⟩ (by simp)
      | some l =>
        rw [hl] at hv
        rw [endsAt_append (h.long l hl) hv]
        simp

/-- The chunk that is taken is missed, unless nothing has come before it and the last chunk is
still to come. -/
theorem taken_iff (h : v.Queued) (hv : EndsAt v.last v.received) (hne : v.outputRx ≠ []) :
    EndsAt v.last (received { v with outputRx := v.outputRx.tail }) ↔
      v.term.pushed = [] ∧ v.outputRx.length ≠ 1 := by
  obtain ⟨chunk,rest,hrx⟩ := List.exists_cons_of_ne_nil hne
  have hchunk : chunk ≠ [] := h.chunks chunk (by simp [hrx])
  cases hl : v.last with
  | none =>
    have hsilent := h.silent hl
    simp [received,hrx,hchunk] at hsilent
  | some l =>
    obtain ⟨before,hbefore⟩ := h.ends l hl hne
    have hrest : rest.flatten ≠ [] ↔ v.outputRx.length ≠ 1 := by
      cases before with
      | nil =>
        rw [hrx] at hbefore
        obtain ⟨-,rfl⟩ := List.cons.inj hbefore
        simp [hrx]
      | cons first more =>
        rw [hrx] at hbefore
        obtain ⟨-,rfl⟩ := List.cons.inj hbefore
        have hlong := h.long l hl
        simp [hrx]
        omega
    rw [hl,received,hrx,List.flatten_cons,← List.append_assoc] at hv
    rw [received,hrx,List.tail_cons,endsAt_drop (h.long l hl) hchunk hv fun hnil => ?_,hrest,hrx]
    cases before with
    | nil =>
      rw [hrx] at hbefore
      obtain ⟨-,rfl⟩ := List.cons.inj hbefore
      exact absurd rfl hnil
    | cons first more =>
      rw [hrx] at hbefore
      obtain ⟨-,rfl⟩ := List.cons.inj hbefore
      simp

end PaneView

namespace Viewer

variable {s t : Viewer} {pane : PaneId} {v v' : PaneView} {f : PaneView → Option PaneView}

def Queued (s : Viewer) : Prop := ∀ pane, ∀ v ∈ s.panes.lookup pane, v.Queued

/-- What a redraw now would leave is whole. -/
def Drawable (s : Viewer) : Prop := s.redraw.Whole

theorem drawable_iff : s.Drawable ↔
    ∀ pane, ∀ v ∈ s.panes.lookup pane, EndsAt v.last v.received := by
  simp only [Drawable,Whole,redraw,Table.lookup_mapValues,Option.mem_def,
    Option.map_eq_some_iff,forall_exists_index,and_imp,forall_apply_eq_imp_iff₂,
    PaneView.whole_redraw]

theorem onPane_eq_some : s.onPane pane f = some t ↔ ∃ v v', s.panes.lookup pane = some v ∧
    f v = some v' ∧ t = { s with panes := s.panes.insert pane v' } := by
  simp only [onPane,Option.map_eq_some_iff,Option.bind_eq_some_iff,eq_comm (a := t)]
  grind

/-- A property of every pane, when one pane is written. -/
theorem forall_insert {P : PaneView → Prop} (h : ∀ pane, ∀ v ∈ s.panes.lookup pane, P v) :
    (∀ q, ∀ w ∈ (s.panes.insert pane v).lookup q, P w) ↔ P v := by
  constructor
  · exact fun hall => hall pane v (AList.lookup_insert _)
  · intro hv q w hw
    rcases Table.lookup_insert_eq_some.mp hw with ⟨-,rfl⟩ | ⟨-,hw⟩
    · exact hv
    · exact h q w hw

theorem forall_onPane {P : PaneView → Prop} (h : ∀ pane, ∀ v ∈ s.panes.lookup pane, P v) :
    (∀ t, s.onPane pane f = some t → ∀ q, ∀ w ∈ t.panes.lookup q, P w) ↔
      ∀ v ∈ s.panes.lookup pane, ∀ v', f v = some v' → P v' := by
  constructor
  · intro hall v hv v' hf
    exact (forall_insert h).mp (hall _ (onPane_eq_some.mpr ⟨v,v',hv,hf,rfl⟩))
  · intro hall t ht
    obtain ⟨v,v',hv,hf,rfl⟩ := onPane_eq_some.mp ht
    exact (forall_insert h).mpr (hall v hv v' hf)

theorem forall_erase {P : PaneView → Prop} (h : ∀ pane, ∀ v ∈ s.panes.lookup pane, P v) :
    ∀ q, ∀ w ∈ (s.panes.erase pane).lookup q, P w := by
  intro q w hw
  exact h q w (Table.lookup_erase_eq_some.mp hw).2

theorem forall_resize {P : PaneView → Prop}
    (hflush : ∀ v : PaneView, P v → P { v with term := v.term.flushPending })
    (leaves : List PaneId) (h : ∀ pane, ∀ v ∈ s.panes.lookup pane, P v) :
    ∀ q, ∀ w ∈ (leaves.foldl resize s).panes.lookup q, P w := by
  induction leaves generalizing s with
  | nil => exact h
  | cons pane rest ih =>
    refine ih ?_
    unfold resize
    split
    · rename_i v hv
      exact (forall_insert h).mpr (hflush v (h pane v hv))
    · exact h

theorem forall_redraw {P : PaneView → Prop} (hredraw : ∀ v : PaneView, P v → P v.redraw)
    (h : ∀ pane, ∀ v ∈ s.panes.lookup pane, P v) :
    ∀ q, ∀ w ∈ s.redraw.panes.lookup q, P w := by
  intro q w hw
  rw [redraw,Table.lookup_mapValues] at hw
  obtain ⟨v,hv,rfl⟩ := Option.map_eq_some_iff.mp hw
  exact hredraw v (h q v hv)

theorem aboutToWait_cases {first : Option PaneId} (ht : s.aboutToWait first = some t) :
    (first = none ∧ t = s) ∨ ∃ pane v, first = some pane ∧ s.panes.lookup pane = some v ∧
      v.outputRx ≠ [] ∧
        t = ⟨s.panes.insert pane { v with outputRx := v.outputRx.tail },true⟩ := by
  cases first with
  | none =>
    rw [aboutToWait,Option.ite_none_right_eq_some,Option.some.injEq] at ht
    exact .inl ⟨rfl,ht.2.symm⟩
  | some pane =>
    cases hv : s.panes.lookup pane with
    | none => simp [aboutToWait,hv] at ht
    | some v =>
      simp only [aboutToWait,hv,Option.ite_none_left_eq_some,Option.some.injEq] at ht
      exact .inr ⟨pane,v,rfl,hv,ht.1,ht.2.symm⟩

theorem queued_step (h : s.Queued) {e : ViewerEvent} (ht : s.step e = some t) : t.Queued := by
  cases e with
  | insertPane pane =>
    obtain rfl := Option.some.inj ht
    exact (forall_insert h).mpr PaneView.queued_new
  | closePane pane =>
    obtain rfl := Option.some.inj ht
    exact forall_erase h
  | attach pane start =>
    refine (forall_onPane h).mpr (fun v hv v' hf => ?_) t ht
    rw [PaneView.attach,Option.ite_none_right_eq_some,Option.some.injEq] at hf
    exact hf.2 ▸ (h pane v hv).connect _
  | frame pane len => exact (forall_onPane h).mpr (fun v hv v' hf => (h pane v hv).frame hf) t ht
  | lag pane n =>
    refine (forall_onPane h).mpr (fun v hv v' hf => ?_) t ht
    obtain ⟨start,-,rfl⟩ := Option.map_eq_some_iff.mp hf
    exact (h pane v hv).connect _
  | bridgeEnds pane =>
    refine (forall_onPane h).mpr (fun v hv v' hf => ?_) t ht
    obtain ⟨start,-,rfl⟩ := Option.map_eq_some_iff.mp hf
    exact (h pane v hv).connect _
  | aboutToWait first =>
    rcases aboutToWait_cases ht with ⟨-,rfl⟩ | ⟨pane,v,-,hv,-,rfl⟩
    · exact h
    · exact (forall_insert h).mpr (h pane v hv).taken
  | redrawRequested =>
    obtain rfl := Option.some.inj ht
    exact forall_redraw (fun _ hv => hv.redraw) h
  | resized leaves =>
    obtain rfl := Option.some.inj ht
    exact forall_resize (fun _ hv => hv.flush) leaves h

theorem kept_iff (h : s.Queued) (hp : s.Drawable) (e : ViewerEvent) :
    s.Kept e ↔ ∀ t, s.step e = some t → t.Drawable := by
  have hnow := drawable_iff.mp hp
  simp only [drawable_iff]
  cases e with
  | insertPane pane =>
    refine iff_of_true trivial fun t ht => ?_
    obtain rfl := Option.some.inj ht
    exact (forall_insert hnow).mpr rfl
  | closePane pane =>
    refine iff_of_true trivial fun t ht => ?_
    obtain rfl := Option.some.inj ht
    exact forall_erase hnow
  | attach pane start =>
    refine iff_of_true trivial ((forall_onPane hnow).mpr fun v hv v' hf => ?_)
    rw [PaneView.attach,Option.ite_none_right_eq_some,Option.some.injEq] at hf
    exact hf.2 ▸ hnow pane v hv
  | frame pane len =>
    refine Iff.trans ?_ (forall_onPane hnow).symm
    rw [Kept,forall_comm]
    refine forall_congr' fun v => ?_
    rw [forall_comm]
    exact forall_congr' fun hv => (PaneView.frame_iff (h pane v hv) (hnow pane v hv) len).symm
  | lag pane n =>
    refine iff_of_true trivial ((forall_onPane hnow).mpr fun v hv v' hf => ?_)
    obtain ⟨start,-,rfl⟩ := Option.map_eq_some_iff.mp hf
    exact hnow pane v hv
  | bridgeEnds pane =>
    refine iff_of_true trivial ((forall_onPane hnow).mpr fun v hv v' hf => ?_)
    obtain ⟨start,-,rfl⟩ := Option.map_eq_some_iff.mp hf
    exact hnow pane v hv
  | aboutToWait first =>
    cases first with
    | none =>
      refine iff_of_true trivial fun t ht => ?_
      rw [step] at ht
      rcases aboutToWait_cases ht with ⟨-,rfl⟩ | ⟨pane,v,hno,-⟩
      · exact hnow
      · cases hno
    | some pane =>
      constructor
      · intro hkept t ht
        rw [step] at ht
        rcases aboutToWait_cases ht with ⟨hno,-⟩ | ⟨pane',v,hpane,hv,hne,rfl⟩
        · cases hno
        · obtain rfl := Option.some.inj hpane
          exact (forall_insert hnow).mpr
            ((PaneView.taken_iff (h pane v hv) (hnow pane v hv) hne).mpr (hkept v hv hne))
      · intro hall v hv hne
        have ht : s.aboutToWait (some pane) =
            some ⟨s.panes.insert pane { v with outputRx := v.outputRx.tail },true⟩ := by
          rw [Option.mem_def] at hv
          simp [aboutToWait,hv,hne]
        exact (PaneView.taken_iff (h pane v hv) (hnow pane v hv) hne).mp
          ((forall_insert hnow).mp (hall _ ht))
  | redrawRequested =>
    refine iff_of_true trivial fun t ht => ?_
    obtain rfl := Option.some.inj ht
    exact forall_redraw (P := fun v => EndsAt v.last v.received)
      (fun v hv => by simpa [PaneView.received,PaneView.redraw,TermView.pushed_foldl] using hv) hnow
  | resized leaves =>
    refine iff_of_true trivial fun t ht => ?_
    obtain rfl := Option.some.inj ht
    exact forall_resize (P := fun v => EndsAt v.last v.received)
      (fun v hv => by simpa [PaneView.received] using hv) leaves hnow

/-- The terminals are whole at every redraw of a run exactly when none of its steps misses a
chunk or has one twice. -/
theorem output_whole_iff (pane : PaneId) (events : List ViewerEvent) :
    Along step Kept (start pane) events ↔ Always step Drawable (start pane) events := by
  have hnone : ∀ {P : PaneView → Prop}, P .new →
      ∀ q, ∀ w ∈ (start pane).panes.lookup q, P w := by
    intro P hP
    exact (forall_insert (s := ⟨∅,true⟩) fun _ _ hv => absurd hv (by simp)).mpr hP
  exact along_iff_always (fun _ _ _ h ht => queued_step h ht) (fun _ e h hp => kept_iff h hp e)
    (hnone PaneView.queued_new) (drawable_iff.mpr (hnone rfl))

/-- One frame comes, and the handler that looks for it takes it. -/
theorem frame_not_drawn : ¬Always step Drawable (start ⟨1⟩)
    [.attach ⟨1⟩ 0,.frame ⟨1⟩ 3,.aboutToWait (some ⟨1⟩)] := by
  intro hall
  have hwhole : Whole _ := hall _ (List.prefix_refl _) _ rfl
  obtain ⟨a,ha,hpiece⟩ := hwhole ⟨1⟩ _ rfl
  obtain rfl := Nat.le_zero.mp ha
  exact absurd hpiece (by decide)

end Viewer
end Pyre.Gpu
