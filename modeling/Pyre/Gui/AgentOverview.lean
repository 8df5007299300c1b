import Pyre.Base.Guarded
import Pyre.Gui.Chrome

/-!
The overview of all panes. Its rows are sorted by how much they need the user, and it is drawn
again only when a fingerprint of the rows has changed; how names are collated is a parameter.
-/

set_option autoImplicit false

namespace Pyre.Gui.Chrome
open Base

/-- A pane with the session it is resolved to, if the store lists it. -/
structure AgentRow where
  pane : Text
  session : Option SessionInfo
  sessionId : Text
  state : PaneState
  title : Text
  agent : Text
  deriving DecidableEq, Repr

def agentLabel (info : PaneStateInfo) : Text :=
  let agent := Search.scriptTrim (info.agent.getD [])
  if agent = [] then "unknown".toList else agent

def needsInput (state : PaneState) : Bool := state = .waiting

def PaneState.rank : PaneState → Nat
  | .waiting => 6
  | .crashed => 5
  | .interactive => 4
  | .running => 3
  | .done => 2
  | .idle => 1

def PaneState.stateLabel : PaneState → Text
  | .idle => "Idle".toList
  | .running => "Running".toList
  | .waiting => "Waiting for input".toList
  | .interactive => "Interactive".toList
  | .crashed => "Crashed".toList
  | .done => "Done".toList

/-- Of two sessions with an id the map by ids has the later. -/
def AppState.agentRow (s : AppState) (info : PaneStateInfo) : AgentRow where
  pane := info.pane
  session := s.sessions.reverse.find? fun x => x.id = info.session
  sessionId := info.session
  state := info.state
  title := s.paneDisplayName info.pane ((truthy info.title).getD "pane".toList)
  agent := agentLabel info

namespace AgentRow

def sessionName (r : AgentRow) : Text := (r.session.map SessionInfo.name).getD r.sessionId

/-- The comparison of the sort: who waits for input first, then the hotter, then by session. -/
def compareRows (collate : Text → Text → Ordering) : AgentRow → AgentRow → Ordering :=
  compareLex (fun a b => compareOn (fun r => (needsInput r.state).toNat) b a)
    (compareLex (fun a b => compareOn (fun r => r.state.rank) b a)
      fun a b => collate a.sessionName b.sessionName)

def fields (r : AgentRow) : List Text :=
  [r.sessionId,r.pane,r.state.label,r.title,r.agent,r.sessionName]

end AgentRow

/-- The sort of a script is stable. -/
def AppState.buildRows (collate : Text → Text → Ordering) (s : AppState) : List AgentRow :=
  (s.paneStates.map s.agentRow).mergeSort fun a b => (AgentRow.compareRows collate a b).isLE

def agentsFingerprint (rows : List AgentRow) : Text :=
  join rowSep (rows.map fun r => join fieldSep r.fields)

def chipKind (agent : Text) : Text :=
  let a := agent.map Char.toLower
  if a = "claude".toList then a else if a = "shell".toList then a else "unknown".toList

/-- A row as it is drawn; a click on it goes to the pane in the session. -/
structure AgentCard where
  flagged : Bool
  heat : PaneState
  chip : Text
  agent : Text
  title : Text
  session : Text
  status : Text
  target : Text × Text
  deriving DecidableEq, Repr

def AgentRow.card (r : AgentRow) : AgentCard where
  flagged := needsInput r.state
  heat := r.state
  chip := chipKind r.agent
  agent := r.agent
  title := r.title
  session := r.sessionName
  status := if needsInput r.state then "needs input".toList else r.state.stateLabel
  target := (r.sessionId,r.pane)

/-- The overlay without rows says that there are none. -/
structure AgentOverview where
  count : Text
  waiting : Option Text
  cards : List AgentCard
  deriving DecidableEq, Repr

def overviewOf (rows : List AgentRow) : AgentOverview :=
  let waiting := rows.countP fun r => needsInput r.state
  { count := decimal rows.length ++ (if rows.length = 1 then " pane".toList else " panes".toList)
    waiting := if waiting = 0 then none
      else some (decimal waiting ++ (if waiting = 1 then " needs input".toList
        else " need input".toList))
    cards := rows.map AgentRow.card }

/-- `renderAgents`, which forgets its fingerprint while the overlay is closed. -/
def agentsGuard (collate : Text → Text → Ordering) : Guard AppState Text AgentOverview where
  key s := agentsFingerprint (s.buildRows collate)
  view s := overviewOf (s.buildRows collate)
  patch _ v := v
  closed s := !s.agentsOpen
  reset := []

/-- No text that a row shows has a separator. -/
def AppState.RowsPlain (s : AppState) : Prop :=
  ∀ info ∈ s.paneStates, ∀ t ∈ (s.agentRow info).fields, Plain t

instance : DecidablePred AppState.RowsPlain := fun _ => inferInstanceAs (Decidable (∀ _ ∈ _, _))

/-- What an overview of the panes of a store is to be. -/
structure Surveys (collate : Text → Text → Ordering) (s : AppState) (o : AgentOverview) :
    Prop where
  each : o.cards.Perm (s.paneStates.map fun info => (s.agentRow info).card)
  waitingFirst : o.cards.Pairwise fun a b => b.flagged → a.flagged
  hotterFirst : o.cards.Pairwise fun a b => b.heat.rank ≤ a.heat.rank
  bySession : o.cards.Pairwise fun a b => a.heat = b.heat → (collate a.session b.session).isLE
  badge : o.waiting = none ↔ ∀ info ∈ s.paneStates, info.state ≠ .waiting

section rows

variable {collate : Text → Text → Ordering} {s t : AppState} {rows rows' : List AgentRow}
  {r r' : AgentRow} {s' : PaneState}

theorem buildRows_perm : (s.buildRows collate).Perm (s.paneStates.map s.agentRow) :=
  List.mergeSort_perm _ _

theorem fields_plain (h : s.RowsPlain) (hr : r ∈ s.buildRows collate) :
    ∀ f ∈ r.fields, Plain f := by
  obtain ⟨info,hinfo,rfl⟩ := List.mem_map.mp (buildRows_perm.mem_iff.mp hr)
  exact h info hinfo

theorem card_eq (h : r.fields = r'.fields) : r.card = r'.card := by
  simp only [AgentRow.fields,List.cons.injEq,and_true] at h
  obtain ⟨hid,hpane,hstate,htitle,hagent,hname⟩ := h
  have hheat := PaneState.label_injective hstate
  simp only [AgentRow.card,hid,hpane,hheat,htitle,hagent,hname]

theorem row_ne_nil (r : AgentRow) : join fieldSep r.fields ≠ [] := by
  rw [AgentRow.fields,join_cons_cons]
  exact List.append_ne_nil_of_right_ne_nil _ (List.cons_ne_nil _ _)

theorem notMem_row (h : ∀ f ∈ r.fields, Plain f) : rowSep ∉ join fieldSep r.fields := by
  intro hmem
  obtain heq | ⟨f,hf,hc⟩ := mem_join hmem
  · cases heq
  · exact (h f hf).2 hc

/-- Rows with one fingerprint are drawn alike. -/
theorem overviewOf_eq (hrows : ∀ r ∈ rows, ∀ f ∈ r.fields, Plain f)
    (hrows' : ∀ r ∈ rows', ∀ f ∈ r.fields, Plain f)
    (h : agentsFingerprint rows = agentsFingerprint rows') :
    overviewOf rows = overviewOf rows' := by
  have hjoined := (join_inj_of_ne_nil (by simpa using fun r hr => notMem_row (hrows r hr))
    (by simpa using fun r hr => notMem_row (hrows' r hr))
    (by simpa using fun r _ => row_ne_nil r) (by simpa using fun r _ => row_ne_nil r)).mp h
  have hne : ∀ r : AgentRow, r.fields ≠ [] := fun r => List.cons_ne_nil _ _
  have hcards : rows.map AgentRow.card = rows'.map AgentRow.card := by
    refine map_eq_of_map_eq (fun r hr r' hr' heq => card_eq ?_) hjoined
    exact (join_inj (fun f hf => (hrows r hr f hf).1) (fun f hf => (hrows' r' hr' f hf).1)
      (hne r) (hne r')).mp heq
  have hlen : rows.length = rows'.length := by simpa using congrArg List.length hcards
  have hwaiting : ∀ rs : List AgentRow, (rs.countP fun r => needsInput r.state) =
      (rs.map AgentRow.card).countP AgentCard.flagged := fun rs => by
    rw [List.countP_map]
    rfl
  simp only [overviewOf,hwaiting,hlen,hcards]

theorem agents_determined : (agentsGuard collate).Determined AppState.RowsPlain :=
  .of_key (fun _ _ => rfl) fun _ _ hs ht _ _ h =>
    overviewOf_eq (fun _ hr => fields_plain hs hr) (fun _ hr => fields_plain ht hr) h

instance [Std.TransCmp collate] :
    Std.TransCmp fun a b : AgentRow => collate a.sessionName b.sessionName where
  eq_swap := Std.OrientedCmp.eq_swap
  isLE_trans := Std.TransCmp.isLE_trans

instance [Std.TransCmp collate] : Std.TransCmp (AgentRow.compareRows collate) :=
  inferInstanceAs (Std.TransCmp (compareLex _ (compareLex _ _)))

theorem buildRows_sorted [Std.TransCmp collate] : (s.buildRows collate).Pairwise
    fun a b => (AgentRow.compareRows collate a b).isLE := by
  refine List.pairwise_mergeSort (fun a b c => Std.TransCmp.isLE_trans) (fun a b => ?_) _
  have hswap : AgentRow.compareRows collate b a = (AgentRow.compareRows collate a b).swap :=
    Std.OrientedCmp.eq_swap
  rw [hswap]
  cases AgentRow.compareRows collate a b <;> rfl

/-- What the comparison says of two rows that are in order. -/
theorem compareRows_isLE (h : (AgentRow.compareRows collate r r').isLE) :
    r'.state.rank ≤ r.state.rank ∧
      (r.state = r'.state → (collate r.sessionName r'.sessionName).isLE) := by
  have hneeds : ∀ state : PaneState, (needsInput state).toNat = state.rank/6 := by
    intro state
    cases state <;> rfl
  simp only [AgentRow.compareRows,compareLex,compareOn,Ordering.isLE_then_iff_or,
    Nat.compare_eq_lt,Nat.compare_eq_eq,hneeds] at h
  refine ⟨by omega,?_⟩
  rintro hstate
  rw [hstate] at h
  obtain hlt | ⟨-,hlt | ⟨-,hname⟩⟩ := h
  · omega
  · omega
  · exact hname

theorem waiting_iff : needsInput s' = true ↔ 6 ≤ s'.rank := by
  cases s' <;> decide

/-- Cards in the order of the rows they are drawn from. -/
theorem buildRows_surveys [Std.TransCmp collate] :
    Surveys collate s (overviewOf (s.buildRows collate)) := by
  have hsorted : (s.buildRows collate).Pairwise fun r r' =>
      r'.state.rank ≤ r.state.rank ∧
        (r.state = r'.state → (collate r.sessionName r'.sessionName).isLE) :=
    buildRows_sorted.imp compareRows_isLE
  refine ⟨?_,?_,?_,?_,?_⟩
  · rw [← Function.comp_def AgentRow.card,← List.map_map]
    exact buildRows_perm.map _
  · refine List.pairwise_map.mpr (hsorted.imp fun hle hflagged => ?_)
    exact waiting_iff.mpr ((waiting_iff.mp hflagged).trans hle.1)
  · exact List.pairwise_map.mpr (hsorted.imp And.left)
  · exact List.pairwise_map.mpr (hsorted.imp And.right)
  · have hcount : (overviewOf (s.buildRows collate)).waiting = none ↔
        (s.buildRows collate).countP (fun r => needsInput r.state) = 0 := by
      simp only [overviewOf]
      split
      · exact iff_of_true rfl ‹_›
      · exact iff_of_false (Option.some_ne_none _) ‹_›
    rw [hcount,List.countP_eq_zero]
    simp only [buildRows_perm.mem_iff,List.forall_mem_map,needsInput,decide_eq_true_eq]
    rfl

theorem agents_valid (states : List AppState) (h : ∀ t ∈ states, t.RowsPlain) :
    (agentsGuard collate).Valid AppState.RowsPlain
      (states.foldl (agentsGuard collate).render ⟨[],none⟩) := by
  induction states using List.reverseRecOn with
  | nil => exact Guard.Valid.blank
  | append_singleton states t ih =>
    rw [List.foldl_concat]
    exact (ih fun t ht => h t (List.mem_append_left _ ht)).render
      (h t (List.mem_append_right _ List.mem_cons_self))

end rows

def twoPanes (state : PaneState) : AppState := { AppState.initial with
  agentsOpen := true
  paneStates := [⟨"p".toList,"s".toList,.running,none,none,none⟩,
    ⟨"q".toList,"s".toList,state,some "vim".toList,some " claude ".toList,none⟩] }

end Pyre.Gui.Chrome
