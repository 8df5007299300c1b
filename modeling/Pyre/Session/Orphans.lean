import Pyre.Session.Registry

/-!
The shells of a daemon of its own and the calls that open and end them, each one lock at a
time. A call keeps the session it has looked up, also when it is registered no longer.
-/

set_option autoImplicit false

namespace Pyre.Session
open Base

namespace Shells

/-- `objects` has every session there is, registered or held by a call; `running` has the
panes whose child runs, where one that has been sent its signal counts as ended, and
`awaited` those whose child a task waits for. -/
structure Tables where
  objects : Table SessionId SessionState
  registered : List SessionId
  running : List PaneId
  awaited : List PaneId

/-- `close_pane` on its way. -/
inductive PaneClosing where
  | asked (pane : PaneId)
  | got (sid : SessionId) (w : WindowId) (pane : PaneId)
  | killed (sid : SessionId) (w : WindowId) (pane : PaneId)
  | removed (sid : SessionId)
  | emptied (sid : SessionId)
  deriving DecidableEq, Repr

/-- A call on its way, with what it holds. `open_pane` goes through `found`, `targeted`,
`spawned`; `close_window` through `closingWindow`, `retaining`, `checking`, `windowless`;
`remove_pane` through `exited`, `deserted`; `kill_session` through `killing`, `signalling`. -/
inductive Call where
  | found (sid : SessionId) (asked : WindowId)
  | targeted (sid : SessionId) (w : WindowId)
  | spawned (sid : SessionId) (w : WindowId) (pane : PaneId)
  | closing (c : PaneClosing)
  | closingWindow (sid : SessionId) (w : WindowId) (panes : List PaneId) (c : Option PaneClosing)
  | retaining (sid : SessionId) (w : WindowId)
  | checking (sid : SessionId)
  | windowless (sid : SessionId)
  | exited (pane : PaneId)
  | deserted (sid : SessionId)
  | killing (sid : SessionId)
  | signalling (panes : List PaneId)
  deriving DecidableEq, Repr

namespace Tables

/-- The session object is changed, registered or not. -/
def modify (s : Tables) (sid : SessionId) (f : SessionState → SessionState) : Tables :=
  match s.objects.lookup sid with
  | none => s
  | some se => { s with objects := s.objects.insert sid (f se) }

def evict (s : Tables) (sid : SessionId) : Tables :=
  { s with registered := s.registered.filter (· ≠ sid) }

def kill (s : Tables) (pane : PaneId) : Tables :=
  { s with running := s.running.filter (· ≠ pane) }

def getPane (s : Tables) (pane : PaneId) : Option (SessionId × WindowId) :=
  s.registered.findSome? fun sid =>
    ((s.objects.lookup sid).bind fun se => se.panes.lookup pane).map fun w => (sid,w)

/-- The registered session that has the window. -/
def sessionOfWindow (s : Tables) (w : WindowId) : Option SessionId :=
  s.registered.find? fun sid =>
    ((s.objects.lookup sid).bind fun se => se.findWindow w).isSome

def panesOf (s : Tables) (sid : SessionId) : List PaneId :=
  ((s.objects.lookup sid).map fun se => se.panes.entries.map Sigma.fst).getD []

def panesIn (s : Tables) (sid : SessionId) (w : WindowId) : List PaneId :=
  ((s.objects.lookup sid).map fun se => se.panesIn w).getD []

def windowsOf (s : Tables) (sid : SessionId) : List WindowState :=
  ((s.objects.lookup sid).map SessionState.windows).getD []

/-- The next step of `close_pane`. The signal may fail only for a child that has ended. -/
def closeStep (s : Tables) (signalled : Bool) : PaneClosing → Tables × Option PaneClosing
  | .asked pane => (s,(s.getPane pane).map fun k => .got k.1 k.2 pane)
  | .got sid w pane =>
    if pane ∈ s.running ∨ signalled then (s.kill pane,some (.killed sid w pane)) else (s,none)
  | .killed sid w pane => (s.modify sid fun se => se.closePane pane w,some (.removed sid))
  | .removed sid =>
    (s,if sid ∈ s.registered ∧ s.panesOf sid = [] then some (.emptied sid) else none)
  | .emptied sid => (s.evict sid,none)

/-- The next step of a call. What is spawned is `pane`; `ok` tells if that succeeds, or if
a child that has ended can still be signalled. -/
def resume (s : Tables) (pane : PaneId) (ok : Bool) : Call → Tables × Option Call
  | .found sid asked =>
    (s,(s.objects.lookup sid).bind fun se => (se.target asked).map fun win => .targeted sid win.id)
  | .targeted sid w =>
    if ok then
      ({ s with running := pane :: s.running, awaited := pane :: s.awaited },
        some (.spawned sid w pane))
    else (s,none)
  | .spawned sid w pane => (s.modify sid fun se => se.openPane w pane,none)
  | .closing c =>
    let (s,next) := s.closeStep ok c
    (s,next.map .closing)
  | .closingWindow sid w panes (some c) =>
    let (s,next) := s.closeStep ok c
    (s,some (.closingWindow sid w panes next))
  | .closingWindow sid w (pane :: panes) none =>
    (s,some (.closingWindow sid w panes (some (.asked pane))))
  | .closingWindow sid w [] none =>
    (s,if sid ∈ s.registered then some (.retaining sid w) else none)
  | .retaining sid w => (s.modify sid fun se => se.removeWindow w,some (.checking sid))
  | .checking sid => (s,if s.windowsOf sid = [] then some (.windowless sid) else none)
  | .windowless sid => (s.evict sid,none)
  | .exited pane =>
    match s.getPane pane with
    | none => (s,none)
    | some (sid,_) =>
      let s := s.modify sid fun se => se.removePane pane
      (s,if s.panesOf sid = [] then some (.deserted sid) else none)
  | .deserted sid => (s.evict sid,none)
  | .killing sid => (s,some (.signalling (s.panesOf sid)))
  | .signalling (pane :: panes) => (s.kill pane,some (.signalling panes))
  | .signalling [] => (s,none)

end Tables

/-- `exit` is a shell that ends by itself, `reap` the task that waits for a child. -/
inductive Move where
  | openPane (sid : SessionId) (asked : WindowId)
  | closePane (pane : PaneId)
  | closeWindow (w : WindowId)
  | killSession (sid : SessionId)
  | exit (pane : PaneId)
  | reap (pane : PaneId)
  | resume (call : Call) (pane : PaneId) (ok : Bool)
  deriving DecidableEq, Repr

end Shells

/-- The tables and the calls on their way. -/
structure Shells where
  tables : Shells.Tables
  calls : List Shells.Call

namespace Shells

def PaneClosing.named : PaneClosing → List PaneId
  | .asked pane | .got _ _ pane | .killed _ _ pane => [pane]
  | .removed _ | .emptied _ => []

def Call.named : Call → List PaneId
  | .spawned _ _ pane | .exited pane => [pane]
  | .closing c => c.named
  | .closingWindow _ _ panes c => panes ++ (c.map PaneClosing.named).getD []
  | .signalling panes => panes
  | _ => []

/-- An identifier that has just been drawn is nowhere. -/
def Fresh (s : Shells) (pane : PaneId) : Prop :=
  pane ∉ s.tables.running ∧ pane ∉ s.tables.awaited ∧
    (∀ e ∈ s.tables.objects.entries, e.2.panes.lookup pane = none) ∧ ∀ c ∈ s.calls, pane ∉ c.named

instance (s : Shells) (pane : PaneId) : Decidable (s.Fresh pane) :=
  inferInstanceAs (Decidable (_ ∧ _ ∧ _ ∧ _))

/-- A call that finds nothing returns at once. -/
def step (s : Shells) : Move → Option Shells
  | .openPane sid asked =>
    if sid ∈ s.tables.registered then some { s with calls := .found sid asked :: s.calls }
    else some s
  | .closePane pane => some { s with calls := .closing (.asked pane) :: s.calls }
  | .closeWindow w =>
    match s.tables.sessionOfWindow w with
    | none => some s
    | some sid =>
      some { s with calls := .closingWindow sid w (s.tables.panesIn sid w) none :: s.calls }
  | .killSession sid =>
    if sid ∈ s.tables.registered then some ⟨s.tables.evict sid,.killing sid :: s.calls⟩
    else some s
  | .exit pane =>
    if pane ∈ s.tables.running then some { s with tables := s.tables.kill pane } else none
  | .reap pane =>
    if pane ∈ s.tables.awaited ∧ pane ∉ s.tables.running then
      some ⟨{ s.tables with awaited := s.tables.awaited.filter (· ≠ pane) },.exited pane :: s.calls⟩
    else none
  | .resume call pane ok =>
    if call ∈ s.calls ∧ s.Fresh pane then
      let (tables,next) := s.tables.resume pane ok call
      some ⟨tables,next.toList ++ s.calls.erase call⟩
    else none

/-- Once all calls have returned, a pane whose child runs is found in a registered session. -/
def NoOrphan (s : Shells) : Prop :=
  s.calls = [] → ∀ pane ∈ s.tables.running, (s.tables.getPane pane).isSome

/-- The session a step of the call takes from the registry, if it is still there. -/
def Call.evicts : Call → Option SessionId
  | .closing (.emptied sid) | .closingWindow _ _ _ (some (.emptied sid)) | .windowless sid
  | .deserted sid => some sid
  | _ => none

/-- The pane a step of the call puts into a session. -/
def Call.inserts : Call → Option (SessionId × PaneId)
  | .spawned sid _ pane => some (sid,pane)
  | _ => none

/-- A pane whose child runs is put into a session that is registered, or whose panes a
`kill_session` has yet to collect; and but for a `kill_session` no session is taken from
the registry that has such a pane. -/
def Keeps (s : Shells) : Move → Prop
  | .resume call _ _ =>
    (∀ k ∈ call.inserts, k.2 ∈ s.tables.running →
      k.1 ∈ s.tables.registered ∨ .killing k.1 ∈ s.calls) ∧
    ∀ sid ∈ call.evicts, sid ∈ s.tables.registered →
      ∀ pane ∈ s.tables.panesOf sid, pane ∉ s.tables.running
  | _ => True

variable {s t : Tables} {sid sid' : SessionId} {pane p : PaneId} {c : Call}
  {calls calls' : List Call}

/-! What keeps a shell within reach. -/

namespace Tables

/-- The session object has the pane. -/
def InMap (s : Tables) (sid : SessionId) (pane : PaneId) : Prop :=
  ∃ se w, s.objects.lookup sid = some se ∧ se.panes.lookup pane = some w

/-- The call is about to put the pane into its session, or to end it. -/
def HeldBy (s : Tables) (p : PaneId) : Call → Prop
  | .spawned _ _ pane => p = pane
  | .killing sid => s.InMap sid p
  | .signalling panes => p ∈ panes
  | _ => False

/-- A registered session has the pane, or a call holds it. -/
def Held (s : Tables) (calls : List Call) (pane : PaneId) : Prop :=
  (∃ sid ∈ s.registered, s.InMap sid pane) ∨ ∃ c ∈ calls, s.HeldBy pane c

theorem mem_panesOf : pane ∈ s.panesOf sid ↔ s.InMap sid pane := by
  unfold panesOf InMap
  cases hse : s.objects.lookup sid with
  | none => simp
  | some se =>
    simp only [Option.map_some,Option.getD_some,List.mem_map,Option.some.injEq,exists_and_left,
      exists_eq_left']
    constructor
    · rintro ⟨e,he,rfl⟩
      exact ⟨e.2,Table.lookup_eq_some.mpr he⟩
    · rintro ⟨w,hw⟩
      exact ⟨⟨pane,w⟩,Table.lookup_eq_some.mp hw,rfl⟩

theorem isSome_getPane :
    (s.getPane pane).isSome ↔ ∃ sid ∈ s.registered, s.InMap sid pane := by
  rw [getPane,List.findSome?_isSome_iff]
  refine exists_congr fun sid => and_congr_right fun _ => ?_
  rw [Option.isSome_map,Option.isSome_iff_exists,InMap]
  constructor
  · rintro ⟨w,hw⟩
    obtain ⟨se,hse,hw⟩ := Option.bind_eq_some_iff.mp hw
    exact ⟨se,w,hse,hw⟩
  · rintro ⟨se,w,hse,hw⟩
    exact ⟨w,Option.bind_eq_some_iff.mpr ⟨se,hse,hw⟩⟩

/-- What a step may take away: panes whose child has ended, and sessions without others. -/
structure Lessens (s t : Tables) : Prop where
  running : ∀ p, p ∈ t.running → p ∈ s.running
  objects : ∀ sid, s.objects.lookup sid ≠ none → t.objects.lookup sid ≠ none
  registered : ∀ sid, sid ∈ t.registered → sid ∈ s.registered
  inMap : ∀ p, p ∈ t.running → ∀ sid, s.InMap sid p →
    t.InMap sid p ∧ (sid ∈ s.registered → sid ∈ t.registered)

namespace Lessens

theorem refl (s : Tables) : s.Lessens s :=
  ⟨fun _ h => h,fun _ h => h,fun _ h => h,fun _ _ _ h => ⟨h,id⟩⟩

theorem kill (s : Tables) (pane : PaneId) : s.Lessens (s.kill pane) :=
  ⟨fun _ h => (List.mem_filter.mp h).1,fun _ h => h,fun _ h => h,fun _ _ _ h => ⟨h,id⟩⟩

theorem evict (h : sid ∈ s.registered → ∀ p ∈ s.panesOf sid, p ∉ s.running) :
    s.Lessens (s.evict sid) where
  running _ h := h
  objects _ h := h
  registered _ h := (List.mem_filter.mp h).1
  inMap p hp sid' hmap := by
    refine ⟨hmap,fun hsid => List.mem_filter.mpr ⟨hsid,?_⟩⟩
    have hne : sid' ≠ sid := by
      rintro rfl
      exact h hsid p (mem_panesOf.mpr hmap) hp
    simpa using hne

/-- The session object loses no pane whose child runs. -/
theorem modify {f : SessionState → SessionState}
    (hf : ∀ se p w, p ∈ s.running → se.panes.lookup p = some w →
      ∃ w', (f se).panes.lookup p = some w') :
    s.Lessens (s.modify sid f) := by
  unfold Tables.modify
  split
  · exact refl s
  · rename_i se hse
    refine ⟨fun _ h => h,fun sid' h => ?_,fun _ h => h,fun p hp sid' hmap => ?_⟩
    · by_cases heq : sid' = sid
      · rw [heq,AList.lookup_insert]
        exact Option.some_ne_none _
      · rwa [AList.lookup_insert_ne heq]
    · obtain ⟨se',w,hse',hw⟩ := hmap
      refine ⟨?_,id⟩
      by_cases heq : sid' = sid
      · subst heq
        obtain rfl := Option.some.inj (hse.symm.trans hse')
        obtain ⟨w',hw'⟩ := hf se p w hp hw
        exact ⟨f se,w',AList.lookup_insert _,hw'⟩
      · exact ⟨se',w,(AList.lookup_insert_ne heq).trans hse',hw⟩

end Lessens

end Tables

/-! What holds between the steps. -/

def PaneClosing.ends : PaneClosing → Option PaneId
  | .killed _ _ pane => some pane
  | _ => none

/-- The pane a call takes from its session, as its child has ended. -/
def Call.ends : Call → Option PaneId
  | .closing c | .closingWindow _ _ _ (some c) => c.ends
  | .exited pane => some pane
  | _ => none

theorem named_of_ends (h : p ∈ c.ends) : p ∈ c.named := by
  have hclosing : ∀ c : PaneClosing, p ∈ c.ends → p ∈ c.named := by
    intro c hc
    cases c with
    | killed sid w pane =>
      obtain rfl := Option.some.inj hc
      exact List.mem_singleton_self _
    | _ => cases hc
  cases c with
  | closing c => exact hclosing c h
  | closingWindow sid w panes c =>
    cases c with
    | none => cases h
    | some c => exact List.mem_append_right _ (hclosing c h)
  | exited pane =>
    obtain rfl := Option.some.inj h
    exact List.mem_singleton_self _
  | _ => cases h

structure Inv (s : Tables) (calls : List Call) : Prop where
  held : ∀ p ∈ s.running, s.Held calls p
  ended : ∀ c ∈ calls, ∀ p ∈ c.ends, p ∉ s.running
  objects : ∀ sid, sid ∈ s.registered ∨ .killing sid ∈ calls → s.objects.lookup sid ≠ none

theorem Inv.perm (h : Inv s calls) (hperm : calls.Perm calls') : Inv s calls' := by
  refine ⟨fun p hp => ?_,fun c hc => h.ended c (hperm.mem_iff.mpr hc),fun sid hsid => ?_⟩
  · simpa only [Tables.Held,hperm.mem_iff] using h.held p hp
  · exact h.objects sid (hsid.imp_right hperm.mem_iff.mpr)

theorem HeldBy.mono (h : s.HeldBy p c) (hmap : ∀ sid, s.InMap sid p → t.InMap sid p) :
    t.HeldBy p c := by
  cases c with
  | spawned sid w pane => exact h
  | killing sid => exact hmap sid h
  | signalling panes => exact h
  | _ => exact absurd h id

/-- A step takes its call from `old` to `next`, and what `old` holds stays within reach. -/
theorem Inv.advance (old next : Option Call) (h : Inv s (old.toList ++ calls)) (hl : s.Lessens t)
    (hold : ∀ c ∈ old, ∀ p ∈ t.running, s.HeldBy p c → t.Held (next.toList ++ calls) p)
    (hnext : ∀ c ∈ next, (∀ sid, c ≠ .killing sid) ∧ ∀ p ∈ c.ends, p ∉ t.running) :
    Inv t (next.toList ++ calls) := by
  refine ⟨fun p hp => ?_,fun c hc p hp hrun => ?_,fun sid hsid => hl.objects sid ?_⟩
  · rcases h.held p (hl.running p hp) with ⟨sid,hsid,hmap⟩ | ⟨c,hc,hby⟩
    · obtain ⟨hmap,hkeep⟩ := hl.inMap p hp sid hmap
      exact Or.inl ⟨sid,hkeep hsid,hmap⟩
    · rcases List.mem_append.mp hc with hc | hc
      · exact hold c (Option.mem_toList.mp hc) p hp hby
      · exact Or.inr ⟨c,List.mem_append_right _ hc,
          HeldBy.mono hby fun sid hmap => (hl.inMap p hp sid hmap).1⟩
  · rcases List.mem_append.mp hc with hc | hc
    · exact (hnext c (Option.mem_toList.mp hc)).2 p hp hrun
    · exact h.ended c (List.mem_append_right _ hc) p hp (hl.running p hrun)
  · refine h.objects sid (hsid.imp (hl.registered sid) fun hc => ?_)
    rcases List.mem_append.mp hc with hc | hc
    · exact absurd rfl ((hnext _ (Option.mem_toList.mp hc)).1 sid)
    · exact List.mem_append_right _ hc

theorem lessens_closePane {w : WindowId} (h : pane ∉ s.running) :
    s.Lessens (s.modify sid fun se => se.closePane pane w) := by
  refine Tables.Lessens.modify fun se p w' hp hw => ⟨w',?_⟩
  exact SessionState.lookup_closePane.mpr ⟨ne_of_mem_of_not_mem hp h,hw⟩

theorem lessens_removePane (h : pane ∉ s.running) :
    s.Lessens (s.modify sid fun se => se.removePane pane) := by
  refine Tables.Lessens.modify fun se p w' hp hw => ⟨w',?_⟩
  exact SessionState.lookup_removePane.mpr ⟨ne_of_mem_of_not_mem hp h,hw⟩

theorem lessens_openPane (s : Tables) (sid : SessionId) (w : WindowId) (pane : PaneId) :
    s.Lessens (s.modify sid fun se => se.openPane w pane) := by
  refine Tables.Lessens.modify fun se p w' hp hw => ?_
  by_cases heq : p = pane
  · exact ⟨w,SessionState.lookup_openPane.mpr (Or.inl ⟨heq,rfl⟩)⟩
  · exact ⟨w',SessionState.lookup_openPane.mpr (Or.inr ⟨heq,hw⟩)⟩

/-- The steps of `close_pane`. -/
theorem closeStep_lessens (ok : Bool) (c : PaneClosing) (hended : ∀ p ∈ c.ends, p ∉ s.running)
    (hempty : ∀ sid, c = .emptied sid → sid ∈ s.registered → ∀ p ∈ s.panesOf sid, p ∉ s.running) :
    s.Lessens (s.closeStep ok c).1 ∧
      ∀ d ∈ (s.closeStep ok c).2, ∀ p ∈ d.ends, p ∉ (s.closeStep ok c).1.running := by
  cases c with
  | asked pane =>
    refine ⟨.refl s,fun d hd p hp => ?_⟩
    obtain ⟨k,-,rfl⟩ := Option.map_eq_some_iff.mp hd
    cases hp
  | got sid w pane =>
    simp only [Tables.closeStep]
    split
    · refine ⟨.kill s pane,fun d hd p hp => ?_⟩
      obtain rfl := Option.some.inj hd
      obtain rfl := Option.some.inj hp
      simp [Tables.kill]
    · exact ⟨.refl s,fun d hd => by cases hd⟩
  | killed sid w pane =>
    refine ⟨lessens_closePane (hended pane rfl),fun d hd p hp => ?_⟩
    obtain rfl := Option.some.inj hd
    cases hp
  | removed sid =>
    refine ⟨.refl s,fun d hd p hp => ?_⟩
    obtain ⟨-,hd⟩ := Option.ite_none_right_eq_some.mp hd
    obtain rfl := Option.some.inj hd
    cases hp
  | emptied sid => exact ⟨.evict (hempty sid rfl),fun d hd => by cases hd⟩

/-- What a step of a call takes away, unless it spawns a shell. -/
theorem resume_lessens (pane : PaneId) (ok : Bool) (hspawns : ∀ sid w, c ≠ .targeted sid w)
    (hended : ∀ p ∈ c.ends, p ∉ s.running)
    (hempty : ∀ sid ∈ c.evicts, sid ∈ s.registered → ∀ p ∈ s.panesOf sid, p ∉ s.running) :
    s.Lessens (s.resume pane ok c).1 ∧ ∀ d ∈ (s.resume pane ok c).2,
      (∀ sid, d ≠ .killing sid) ∧ ∀ p ∈ d.ends, p ∉ (s.resume pane ok c).1.running := by
  cases c with
  | found sid asked =>
    refine ⟨.refl s,fun d hd => ?_⟩
    obtain ⟨se,-,hd⟩ := Option.bind_eq_some_iff.mp hd
    obtain ⟨win,-,rfl⟩ := Option.map_eq_some_iff.mp hd
    exact ⟨fun sid heq => (by cases heq),fun p hp => by cases hp⟩
  | targeted sid w => exact absurd rfl (hspawns sid w)
  | spawned sid w p => exact ⟨lessens_openPane s sid w p,fun d hd => by cases hd⟩
  | closing c =>
    obtain ⟨hl,hnext⟩ := closeStep_lessens ok c hended fun sid heq => hempty sid (by rw [heq]; rfl)
    refine ⟨hl,fun d hd => ?_⟩
    obtain ⟨c',hc',rfl⟩ := Option.map_eq_some_iff.mp hd
    exact ⟨fun sid heq => (by cases heq),hnext c' hc'⟩
  | closingWindow sid w panes c =>
    cases c with
    | some c =>
      obtain ⟨hl,hnext⟩ := closeStep_lessens ok c hended
        fun sid heq => hempty sid (by rw [heq]; rfl)
      refine ⟨hl,fun d hd => ?_⟩
      have hcall : d = .closingWindow sid w panes (s.closeStep ok c).2 := (Option.some.inj hd).symm
      rw [hcall]
      refine ⟨fun sid heq => (by cases heq),fun p hp => ?_⟩
      cases hstep : (s.closeStep ok c).2 with
      | none =>
        rw [hstep] at hp
        cases hp
      | some c' =>
        rw [hstep] at hp
        exact hnext c' hstep p hp
    | none =>
      cases panes with
      | nil =>
        refine ⟨.refl s,fun d hd => ?_⟩
        obtain ⟨-,hd⟩ := Option.ite_none_right_eq_some.mp hd
        obtain rfl := Option.some.inj hd
        exact ⟨fun sid heq => (by cases heq),fun p hp => by cases hp⟩
      | cons pane panes =>
        refine ⟨.refl s,fun d hd => ?_⟩
        obtain rfl := Option.some.inj hd
        exact ⟨fun sid heq => (by cases heq),fun p hp => by cases hp⟩
  | retaining sid w =>
    refine ⟨Tables.Lessens.modify fun se p w' _ hw => ⟨w',hw⟩,fun d hd => ?_⟩
    obtain rfl := Option.some.inj hd
    exact ⟨fun sid heq => (by cases heq),fun p hp => by cases hp⟩
  | checking sid =>
    refine ⟨.refl s,fun d hd => ?_⟩
    obtain ⟨-,hd⟩ := Option.ite_none_right_eq_some.mp hd
    obtain rfl := Option.some.inj hd
    exact ⟨fun sid heq => (by cases heq),fun p hp => by cases hp⟩
  | windowless sid => exact ⟨.evict (hempty sid rfl),fun d hd => by cases hd⟩
  | exited p =>
    have hp := hended p rfl
    simp only [Tables.resume]
    split
    · exact ⟨.refl s,fun d hd => by cases hd⟩
    · refine ⟨lessens_removePane hp,fun d hd => ?_⟩
      obtain ⟨-,hd⟩ := Option.ite_none_right_eq_some.mp hd
      obtain rfl := Option.some.inj hd
      exact ⟨fun sid heq => (by cases heq),fun p hp => by cases hp⟩
  | deserted sid => exact ⟨.evict (hempty sid rfl),fun d hd => by cases hd⟩
  | killing sid =>
    refine ⟨.refl s,fun d hd => ?_⟩
    obtain rfl := Option.some.inj hd
    exact ⟨fun sid heq => (by cases heq),fun p hp => by cases hp⟩
  | signalling panes =>
    cases panes with
    | nil => exact ⟨.refl s,fun d hd => by cases hd⟩
    | cons p panes =>
      refine ⟨.kill s p,fun d hd => ?_⟩
      obtain rfl := Option.some.inj hd
      exact ⟨fun sid heq => (by cases heq),fun p hp => by cases hp⟩

/-- What the step leaves within reach of the panes its call has held. -/
theorem held_resume (pane : PaneId) (ok : Bool) (h : Inv s (c :: calls))
    (hinserts : ∀ k ∈ c.inserts, k.2 ∈ s.running → k.1 ∈ s.registered ∨ .killing k.1 ∈ calls)
    (hp : p ∈ (s.resume pane ok c).1.running) (hby : s.HeldBy p c) :
    (s.resume pane ok c).1.Held ((s.resume pane ok c).2.toList ++ calls) p := by
  cases c with
  | spawned sid w q =>
    obtain rfl : p = q := hby
    have hsame : (s.modify sid fun se => se.openPane w p).registered = s.registered := by
      unfold Tables.modify
      split <;> rfl
    have hsid := hinserts (sid,p) rfl ((lessens_openPane s sid w p).running p hp)
    obtain ⟨se,hse⟩ := Option.ne_none_iff_exists'.mp
      (h.objects sid (hsid.imp_right (List.mem_cons_of_mem _)))
    have hmap : (s.modify sid fun se => se.openPane w p).InMap sid p := by
      refine ⟨se.openPane w p,w,?_,SessionState.lookup_openPane.mpr (Or.inl ⟨rfl,rfl⟩)⟩
      rw [Tables.modify,hse]
      exact AList.lookup_insert _
    rcases hsid with hsid | hkill
    · exact Or.inl ⟨sid,hsame ▸ hsid,hmap⟩
    · exact Or.inr ⟨_,hkill,hmap⟩
  | killing sid =>
    exact Or.inr ⟨_,List.mem_cons_self,Tables.mem_panesOf.mpr hby⟩
  | signalling panes =>
    cases panes with
    | nil => exact absurd hby List.not_mem_nil
    | cons q panes =>
      have hne : p ≠ q := by simpa using (List.mem_filter.mp hp).2
      exact Or.inr ⟨_,List.mem_cons_self,List.mem_of_ne_of_mem hne hby⟩
  | _ => exact absurd hby id

/-- A shell is spawned, and the call that spawns it holds its pane. -/
theorem Inv.targeted {w : WindowId} (h : Inv s (.targeted sid w :: calls))
    (hfresh : ∀ c ∈ calls, pane ∉ c.ends) :
    Inv { s with running := pane :: s.running, awaited := pane :: s.awaited }
      (.spawned sid w pane :: calls) := by
  refine ⟨fun p hp => ?_,fun c hc p hp => ?_,fun sid' hsid => h.objects sid' ?_⟩
  · rcases List.mem_cons.mp hp with rfl | hp
    · exact Or.inr ⟨_,List.mem_cons_self,rfl⟩
    · rcases h.held p hp with hreg | ⟨c,hc,hby⟩
      · exact Or.inl hreg
      · rcases List.mem_cons.mp hc with rfl | hc
        · exact absurd hby id
        · exact Or.inr ⟨c,List.mem_cons_of_mem _ hc,HeldBy.mono hby fun _ => id⟩
  · rcases List.mem_cons.mp hc with rfl | hmem
    · cases hp
    · have hnot := h.ended c (List.mem_cons_of_mem _ hmem) p hp
      refine fun hrun => hnot ((List.mem_cons.mp hrun).resolve_left ?_)
      rintro rfl
      exact hfresh c hmem hp
  · refine hsid.imp_right fun hc => List.mem_cons_of_mem _ ?_
    exact (List.mem_cons.mp hc).resolve_left fun hcall => by cases hcall

/-- A call is begun that holds no pane. -/
theorem Inv.begin (h : Inv s calls) (hl : s.Lessens t) (hkill : ∀ sid, c ≠ .killing sid)
    (hends : ∀ p ∈ c.ends, p ∉ t.running) : Inv t (c :: calls) := by
  refine Inv.advance none (some c) h hl (fun _ hc => by cases hc) fun d hd => ?_
  obtain rfl := Option.some.inj hd
  exact ⟨hkill,hends⟩

/-- A session is taken from the registry to be killed. -/
theorem Inv.kill (h : Inv s calls) (hsid : sid ∈ s.registered) :
    Inv (s.evict sid) (.killing sid :: calls) := by
  refine ⟨fun p hp => ?_,fun c hc p hp => ?_,fun sid' hsid' => h.objects sid' ?_⟩
  · rcases h.held p hp with ⟨sid',hsid',hmap⟩ | ⟨c,hc,hby⟩
    · by_cases heq : sid' = sid
      · subst heq
        exact Or.inr ⟨_,List.mem_cons_self,hmap⟩
      · exact Or.inl ⟨sid',List.mem_filter.mpr ⟨hsid',by simpa using heq⟩,hmap⟩
    · exact Or.inr ⟨c,List.mem_cons_of_mem _ hc,HeldBy.mono hby fun _ => id⟩
  · rcases List.mem_cons.mp hc with rfl | hc
    · cases hp
    · exact h.ended c hc p hp
  · rcases hsid' with hsid' | hc
    · exact Or.inl (List.mem_filter.mp hsid').1
    · refine (List.mem_cons.mp hc).imp (fun hcall => ?_) id
      injection hcall with heq
      exact heq ▸ hsid

theorem inv_resume (ok : Bool) (h : Inv s (c :: calls))
    (hinserts : ∀ k ∈ c.inserts, k.2 ∈ s.running → k.1 ∈ s.registered ∨ .killing k.1 ∈ calls)
    (hempty : ∀ sid ∈ c.evicts, sid ∈ s.registered → ∀ p ∈ s.panesOf sid, p ∉ s.running)
    (hfresh : ∀ d ∈ calls, pane ∉ d.ends) :
    Inv (s.resume pane ok c).1 ((s.resume pane ok c).2.toList ++ calls) := by
  by_cases hspawns : ∃ sid w, c = .targeted sid w
  · obtain ⟨sid,w,rfl⟩ := hspawns
    cases ok with
    | true => exact Inv.targeted h hfresh
    | false =>
      exact Inv.advance (some (.targeted sid w)) none h (.refl s)
        (fun c hc p _ hby => by cases hc; exact absurd hby id) fun c hc => by cases hc
  · push Not at hspawns
    obtain ⟨hl,hnext⟩ := resume_lessens pane ok hspawns
      (h.ended c List.mem_cons_self) hempty
    refine Inv.advance (some c) _ h hl (fun d hd p hp hby => ?_) hnext
    obtain rfl := Option.some.inj hd
    exact held_resume pane ok h hinserts hp hby

end Shells

open Shells in
/-- Every step keeps the panes whose child runs within reach. -/
theorem Shells.inv_step {s t : Shells} {m : Move} (h : Inv s.tables s.calls) (hkeeps : s.Keeps m)
    (ht : s.step m = some t) : Inv t.tables t.calls := by
  cases m with
  | openPane sid asked =>
    simp only [step] at ht
    split at ht <;> obtain rfl := Option.some.inj ht
    · exact h.begin (.refl _) (fun sid heq => by cases heq) fun p hp => by cases hp
    · exact h
  | closePane pane =>
    obtain rfl := Option.some.inj ht
    exact h.begin (.refl _) (fun sid heq => by cases heq) fun p hp => by cases hp
  | closeWindow w =>
    simp only [step] at ht
    split at ht <;> obtain rfl := Option.some.inj ht
    · exact h
    · exact h.begin (.refl _) (fun sid heq => by cases heq) fun p hp => by cases hp
  | killSession sid =>
    simp only [step] at ht
    split at ht <;> obtain rfl := Option.some.inj ht
    · exact h.kill ‹_›
    · exact h
  | exit pane =>
    simp only [step,Option.ite_none_right_eq_some,Option.some.injEq] at ht
    obtain ⟨-,rfl⟩ := ht
    exact Inv.advance none none h (.kill _ pane) (fun c hc => by cases hc)
      fun c hc => by cases hc
  | reap pane =>
    simp only [step,Option.ite_none_right_eq_some,Option.some.injEq] at ht
    obtain ⟨⟨-,hended⟩,rfl⟩ := ht
    refine h.begin ⟨fun _ h => h,fun _ h => h,fun _ h => h,fun _ _ _ h => ⟨h,id⟩⟩
      (fun sid heq => by cases heq) fun p hp => ?_
    obtain rfl := Option.some.inj hp
    exact hended
  | resume c pane ok =>
    simp only [step,Option.ite_none_right_eq_some] at ht
    obtain ⟨⟨hc,hfresh⟩,ht⟩ := ht
    obtain rfl := Option.some.inj ht
    have hperm := List.perm_cons_erase hc
    refine inv_resume ok (h.perm hperm) (fun k hk hrun => ?_) hkeeps.2 fun d hd hends => ?_
    · refine (hkeeps.1 k hk hrun).imp_right fun hkill => ?_
      refine (List.mem_cons.mp (hperm.mem_iff.mp hkill)).resolve_left ?_
      rintro rfl
      cases hk
    · exact hfresh.2.2.2 d (List.mem_of_mem_erase hd) (named_of_ends hends)

namespace Shells

/-- No call is on its way, and every shell is within reach. -/
structure Settled (s : Shells) : Prop where
  idle : s.calls = []
  objects : ∀ sid ∈ s.tables.registered, s.tables.objects.lookup sid ≠ none
  found : ∀ pane ∈ s.tables.running, (s.tables.getPane pane).isSome

/-- Calls overlap in any way: as long as a pane is put only into a session within reach, and
none with a shell is taken from the registry but to be killed, no shell is out of reach once
the calls have returned. -/
theorem no_orphan_always {s : Shells} (h : s.Settled) (moves : List Move)
    (hall : Along step Keeps s moves) : Always step NoOrphan s moves := by
  have h0 : Inv s.tables s.calls := by
    refine ⟨fun p hp => Or.inl (Tables.isSome_getPane.mp (h.found p hp)),?_,fun sid hsid => ?_⟩
    · rw [h.idle]
      exact fun c hc => absurd hc List.not_mem_nil
    · rw [h.idle] at hsid
      exact h.objects sid (hsid.resolve_right List.not_mem_nil)
  refine (hall.invariant (I := fun s => Inv s.tables s.calls)
    (fun s m t hI hkeeps ht => inv_step hI hkeeps ht) h0).mono fun t ht hidle p hp => ?_
  rcases ht.held p hp with hreg | ⟨c,hc,-⟩
  · exact Tables.isSome_getPane.mpr hreg
  · rw [hidle] at hc
    exact absurd hc List.not_mem_nil

/-- A session with a window and a shell in it. -/
def oneShell : Shells where
  tables :=
    { objects := AList.singleton ⟨1⟩ ⟨AList.singleton ⟨1⟩ ⟨1⟩,[⟨⟨1⟩,none⟩]⟩
      registered := [⟨1⟩]
      running := [⟨1⟩]
      awaited := [⟨1⟩] }
  calls := []

theorem settled_oneShell : oneShell.Settled := ⟨rfl,by decide,by decide⟩

/-- A pane is opened beside the one there is. -/
theorem no_orphan_opened : Always step NoOrphan oneShell
    [.openPane ⟨1⟩ ⟨1⟩,.resume (.found ⟨1⟩ ⟨1⟩) ⟨2⟩ true,.resume (.targeted ⟨1⟩ ⟨1⟩) ⟨2⟩ true,
      .resume (.spawned ⟨1⟩ ⟨1⟩ ⟨2⟩) ⟨3⟩ true] := by
  refine no_orphan_always settled_oneShell _ ⟨trivial,fun s hs => ?_⟩
  obtain rfl := Option.some.inj hs
  refine ⟨⟨fun k hk => (by cases hk),fun sid hsid => by cases hsid⟩,fun s hs => ?_⟩
  obtain rfl := Option.some.inj hs
  refine ⟨⟨fun k hk => (by cases hk),fun sid hsid => by cases hsid⟩,fun s hs => ?_⟩
  obtain rfl := Option.some.inj hs
  refine ⟨⟨fun k hk _ => Or.inl ?_,fun sid hsid => by cases hsid⟩,fun _ _ => trivial⟩
  obtain rfl := Option.some.inj hk
  exact List.mem_singleton_self _

/-- The only other pane is closed while one is opened, and the session goes with it. -/
theorem orphan_of_last_close : ¬∀ s : Shells, s.Settled → ∀ moves : List Move,
    Always step NoOrphan s moves := by
  intro h
  have hrun := h oneShell settled_oneShell
    [.openPane ⟨1⟩ ⟨1⟩,.resume (.found ⟨1⟩ ⟨1⟩) ⟨2⟩ true,.closePane ⟨1⟩,
      .resume (.closing (.asked ⟨1⟩)) ⟨2⟩ true,.resume (.closing (.got ⟨1⟩ ⟨1⟩ ⟨1⟩)) ⟨2⟩ true,
      .resume (.closing (.killed ⟨1⟩ ⟨1⟩ ⟨1⟩)) ⟨2⟩ true,
      .resume (.closing (.removed ⟨1⟩)) ⟨2⟩ true,.resume (.closing (.emptied ⟨1⟩)) ⟨2⟩ true,
      .resume (.targeted ⟨1⟩ ⟨1⟩) ⟨2⟩ true,.resume (.spawned ⟨1⟩ ⟨1⟩ ⟨2⟩) ⟨3⟩ true]
  have hlast := hrun.last rfl rfl ⟨2⟩
  exact absurd (hlast (by decide)) (by decide)

end Shells

end Pyre.Session
