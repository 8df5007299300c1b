import Pyre.Session.Layouts
import Pyre.Session.Orphans

/-!
Calls of a daemon of its own that no other comes between: each does, one lock at a time, what
the registry does as one operation.
-/

set_option autoImplicit false

namespace Pyre.Session
open Base

namespace Shells

variable {s t : Tables} {sid : SessionId} {pane q : PaneId} {c : Call} {r : Registry}
  {se : SessionState} {w : WindowId} {f : SessionState → SessionState}

namespace Tables

/-- The registry has the sessions that are registered here. -/
def Shows (s : Tables) (r : Registry) : Prop :=
  ∀ sid, r.sessions.lookup sid = if sid ∈ s.registered then s.objects.lookup sid else none

/-- The pane is nowhere. -/
def Unused (s : Tables) (pane : PaneId) : Prop :=
  pane ∉ s.running ∧ pane ∉ s.awaited ∧ ∀ sid, ¬s.InMap sid pane

theorem Shows.lookup (h : s.Shows r) :
    r.sessions.lookup sid = some se ↔ sid ∈ s.registered ∧ s.objects.lookup sid = some se := by
  rw [h sid]
  exact Option.ite_none_right_eq_some

theorem Shows.modify (h : s.Shows r) (hse : r.sessions.lookup sid = some se) :
    (s.modify sid f).Shows (r.update sid (f se)) := by
  obtain ⟨hreg,hobj⟩ := h.lookup.mp hse
  intro sid'
  rw [Tables.modify,hobj]
  by_cases heq : sid' = sid
  · subst heq
    simp [Registry.update,hreg]
  · simp only [Registry.update,AList.lookup_insert_ne heq]
    exact h sid'

theorem Shows.evict (h : s.Shows r) (sid : SessionId) :
    (s.evict sid).Shows (r.dropSession sid) := by
  intro sid'
  by_cases heq : sid' = sid
  · subst heq
    simp [Registry.dropSession,Tables.evict]
  · simp only [Registry.dropSession,Tables.evict,AList.lookup_erase_ne heq,List.mem_filter]
    simpa [heq] using h sid'

/-- The session of a pane, found here and in the registry. -/
theorem Shows.getPane (h : s.Shows r) (hinv : r.Inv)
    (hpane : r.getPane pane = some (sid,se,w)) : s.getPane pane = some (sid,w) := by
  obtain ⟨hse,hw⟩ := Registry.getPane_eq_some hpane
  obtain ⟨hreg,hobj⟩ := h.lookup.mp hse
  obtain ⟨k,hk⟩ := Option.isSome_iff_exists.mp
    (Tables.isSome_getPane.mpr ⟨sid,hreg,se,w,hobj,hw⟩)
  obtain ⟨sid',hreg',hmap⟩ := List.exists_of_findSome?_eq_some hk
  obtain ⟨w',hw',rfl⟩ := Option.map_eq_some_iff.mp hmap
  obtain ⟨se',hse',hlook⟩ := Option.bind_eq_some_iff.mp hw'
  have hhome := hinv.pane_home sid' sid pane w' w ⟨se',h.lookup.mpr ⟨hreg',hse'⟩,hlook⟩
  obtain rfl := hhome ⟨se,hse,hw⟩
  obtain rfl := Option.some.inj (hobj.symm.trans hse')
  obtain rfl := Option.some.inj (hw.symm.trans hlook)
  exact hk

/-- A session that has lost a pane, and its last one perhaps. -/
theorem Shows.settle (h : s.Shows r) (hse : r.sessions.lookup sid = some se) :
    (s.modify sid f).panesOf sid = (f se).panes.entries.map Sigma.fst ∧
      ((f se).panes.entries = [] → ((s.modify sid f).evict sid).Shows (r.settle sid (f se))) ∧
      ((f se).panes.entries ≠ [] → (s.modify sid f).Shows (r.settle sid (f se))) := by
  obtain ⟨hreg,hobj⟩ := h.lookup.mp hse
  refine ⟨?_,fun hempty => ?_,fun hne => ?_⟩
  · simp [Tables.modify,hobj,Tables.panesOf]
  · intro sid'
    rw [Registry.settle,if_pos hempty]
    have hupdate := (h.modify (f := f) hse).evict sid sid'
    by_cases heq : sid' = sid
    · subst heq
      simpa [Registry.dropSession] using hupdate
    · rw [← hupdate]
      simp [Registry.dropSession,Registry.update,AList.lookup_erase_ne heq,
        AList.lookup_insert_ne heq]
  · rw [Registry.settle,if_neg hne]
    exact h.modify hse

theorem Unused.kill (h : s.Unused q) (pane : PaneId) : (s.kill pane).Unused q :=
  ⟨fun hmem => h.1 (List.mem_filter.mp hmem).1,h.2⟩

/-- What puts the pane into no session object leaves it unused. -/
theorem Unused.modify (h : s.Unused q)
    (hf : ∀ se w, (f se).panes.lookup q = some w → ∃ w', se.panes.lookup q = some w') :
    (s.modify sid f).Unused q := by
  unfold Tables.modify
  split
  · exact h
  · rename_i se hse
    refine ⟨h.1,h.2.1,fun sid' hmap => ?_⟩
    obtain ⟨se',w,hse',hw⟩ := hmap
    rcases Table.lookup_insert_eq_some.mp hse' with ⟨rfl,rfl⟩ | ⟨-,hse'⟩
    · obtain ⟨w',hw'⟩ := hf se w hw
      exact h.2.2 sid' ⟨se,w',hse,hw'⟩
    · exact h.2.2 sid' ⟨se',w,hse',hw⟩

end Tables

theorem fresh_iff {calls : List Call} : Fresh ⟨s,calls⟩ pane ↔
    s.Unused pane ∧ ∀ c ∈ calls, pane ∉ c.named := by
  have hmap : (∀ e ∈ s.objects.entries, e.2.panes.lookup pane = none) ↔
      ∀ sid, ¬s.InMap sid pane := by
    constructor
    · rintro h sid ⟨se,w,hse,hw⟩
      rw [h ⟨sid,se⟩ (Table.lookup_eq_some.mp hse)] at hw
      cases hw
    · intro h e he
      rw [Option.eq_none_iff_forall_ne_some]
      exact fun w hw => h e.1 ⟨e.2,w,Table.lookup_eq_some.mpr he,hw⟩
  unfold Fresh Tables.Unused
  rw [hmap]
  tauto

/-- One step of the only call there is. -/
theorem exec_resume {next : Option Call} {ok : Bool} (steps : List Move) (hq : s.Unused q)
    (hnamed : q ∉ c.named) (hnext : s.resume q ok c = (t,next)) :
    exec step ⟨s,[c]⟩ (.resume c q ok :: steps) = exec step ⟨t,next.toList⟩ steps := by
  have hfresh : Fresh ⟨s,[c]⟩ q :=
    fresh_iff.mpr ⟨hq,fun d hd => List.mem_singleton.mp hd ▸ hnamed⟩
  simp [step,hfresh,hnext]

/-- With no other call between its steps a call does what it does as one operation. -/
theorem exec_openPane {asked : WindowId} {win : WindowState} (h : s.Shows r)
    (hse : r.sessions.lookup sid = some se) (hwin : se.target asked = some win)
    (hpane : s.Unused pane) (hq : s.Unused q) (hne : q ≠ pane) :
    ∃ steps t, exec step ⟨s,[]⟩ (.openPane sid asked :: steps) = some ⟨t,[]⟩ ∧
      t.Shows (r.openPane sid se win.id pane) := by
  obtain ⟨hreg,hobj⟩ := h.lookup.mp hse
  let u : Tables := { s with running := pane :: s.running, awaited := pane :: s.awaited }
  have hshows : u.Shows r := h
  have hqu : u.Unused q :=
    ⟨by simp [u,hne,hq.1],by simp [u,hne,hq.2.1],hq.2.2⟩
  have hfound : s.resume q true (.found sid asked) = (s,some (.targeted sid win.id)) := by
    simp [Tables.resume,hobj,hwin]
  have hspawned : q ∉ (Call.spawned sid win.id pane).named := by simpa [Call.named] using hne
  refine ⟨[.resume (.found sid asked) q true,.resume (.targeted sid win.id) pane true,
    .resume (.spawned sid win.id pane) q true],u.modify sid fun se => se.openPane win.id pane,?_,
    hshows.modify (f := fun se => se.openPane win.id pane) hse⟩
  have hstart : step ⟨s,[]⟩ (.openPane sid asked) = some ⟨s,[.found sid asked]⟩ := by
    simp [step,hreg]
  rw [exec_cons,hstart,Option.bind_some,exec_resume _ hq List.not_mem_nil hfound]
  exact (exec_resume _ hpane List.not_mem_nil rfl).trans (exec_resume [] hqu hspawned rfl)

theorem exec_signalling (panes : List PaneId) (h : s.Shows r) (hq : s.Unused q)
    (hpanes : q ∉ panes) :
    ∃ steps t, exec step ⟨s,[.signalling panes]⟩ steps = some ⟨t,[]⟩ ∧ t.Shows r := by
  induction panes generalizing s with
  | nil =>
    exact ⟨[.resume (.signalling []) q true],s,exec_resume [] hq List.not_mem_nil rfl,h⟩
  | cons pane panes ih =>
    have hshows : (s.kill pane).Shows r := h
    obtain ⟨steps,t,ht,hr⟩ := ih hshows (hq.kill pane) (List.not_mem_of_not_mem_cons hpanes)
    refine ⟨.resume (.signalling (pane :: panes)) q true :: steps,t,?_,hr⟩
    exact (exec_resume (c := .signalling (pane :: panes)) steps hq hpanes rfl).trans ht

theorem exec_killSession (h : s.Shows r) (hreg : sid ∈ s.registered) (hq : s.Unused q) :
    ∃ steps t, exec step ⟨s,[]⟩ (.killSession sid :: steps) = some ⟨t,[]⟩ ∧
      t.Shows (r.dropSession sid) := by
  have hqu : (s.evict sid).Unused q := hq
  have hpanes : q ∉ (s.evict sid).panesOf sid :=
    fun hmem => hqu.2.2 sid (Tables.mem_panesOf.mp hmem)
  obtain ⟨steps,t,ht,hr⟩ := exec_signalling _ (h.evict sid) hqu hpanes
  refine ⟨.resume (.killing sid) q true :: steps,t,?_,hr⟩
  have hstart : step ⟨s,[]⟩ (.killSession sid) = some ⟨s.evict sid,[.killing sid]⟩ := by
    simp [step,hreg]
  rw [exec_cons,hstart,Option.bind_some]
  exact (exec_resume steps hqu List.not_mem_nil rfl).trans ht

/-- The end of `close_pane`, once the pane is out of the map. -/
theorem exec_removed (h : s.Shows r) (hse : r.sessions.lookup sid = some se)
    (hq : (s.modify sid f).Unused q) :
    ∃ steps t, exec step ⟨s.modify sid f,[.closing (.removed sid)]⟩ steps = some ⟨t,[]⟩ ∧
      t.Shows (r.settle sid (f se)) := by
  obtain ⟨hpanes,hevict,hkeep⟩ := h.settle (f := f) hse
  have hreg : sid ∈ (s.modify sid f).registered := by
    have hreg := (h.lookup.mp hse).1
    unfold Tables.modify
    split <;> exact hreg
  by_cases hempty : (f se).panes.entries = []
  · refine ⟨[.resume (.closing (.removed sid)) q true,.resume (.closing (.emptied sid)) q true],
      (s.modify sid f).evict sid,?_,hevict hempty⟩
    have hnil : (s.modify sid f).panesOf sid = [] := by rw [hpanes,hempty,List.map_nil]
    have hremoved : (s.modify sid f).resume q true (.closing (.removed sid)) =
        (s.modify sid f,some (.closing (.emptied sid))) := by
      simp [Tables.resume,Tables.closeStep,hreg,hnil]
    rw [exec_resume _ hq List.not_mem_nil hremoved]
    exact exec_resume [] hq List.not_mem_nil rfl
  · refine ⟨[.resume (.closing (.removed sid)) q true],s.modify sid f,?_,hkeep hempty⟩
    have hne : (s.modify sid f).panesOf sid ≠ [] := by
      rw [hpanes]
      exact fun hmap => hempty (List.map_eq_nil_iff.mp hmap)
    have hremoved : (s.modify sid f).resume q true (.closing (.removed sid)) =
        (s.modify sid f,none) := by
      simp [Tables.resume,Tables.closeStep,hne]
    exact exec_resume [] hq List.not_mem_nil hremoved

theorem exec_closePane (h : s.Shows r) (hinv : r.Inv) (hpane : r.getPane pane = some (sid,se,w))
    (hrun : pane ∈ s.running) (hq : s.Unused q) :
    ∃ steps t, exec step ⟨s,[]⟩ (.closePane pane :: steps) = some ⟨t,[]⟩ ∧
      t.Shows (r.closePane pane) := by
  obtain ⟨hse,hw⟩ := Registry.getPane_eq_some hpane
  have hget := h.getPane hinv hpane
  have hne : q ≠ pane := fun heq => hq.1 (heq ▸ hrun)
  have hshows : (s.kill pane).Shows r := h
  have hqm : ((s.kill pane).modify sid fun se => se.closePane pane w).Unused q :=
    (hq.kill pane).modify fun se w' hw' => ⟨w',(SessionState.lookup_closePane.mp hw').2⟩
  obtain ⟨steps,t,ht,hr⟩ := exec_removed hshows hse hqm
  have hasks : q ∉ (Call.closing (.asked pane)).named :=
    fun hmem => hne (List.mem_singleton.mp hmem)
  have hasked : s.resume q true (.closing (.asked pane)) =
      (s,some (.closing (.got sid w pane))) := by
    simp [Tables.resume,Tables.closeStep,hget]
  have hgot : s.resume q true (.closing (.got sid w pane)) =
      (s.kill pane,some (.closing (.killed sid w pane))) := by
    simp [Tables.resume,Tables.closeStep,hrun]
  refine ⟨.resume (.closing (.asked pane)) q true :: .resume (.closing (.got sid w pane)) q true ::
    .resume (.closing (.killed sid w pane)) q true :: steps,t,?_,?_⟩
  · have hstart : step ⟨s,[]⟩ (.closePane pane) = some ⟨s,[.closing (.asked pane)]⟩ := rfl
    rw [exec_cons,hstart,Option.bind_some,exec_resume _ hq hasks hasked]
    refine (exec_resume (c := .closing (.got sid w pane)) _ hq hasks hgot).trans ?_
    exact (exec_resume (c := .closing (.killed sid w pane)) steps (hq.kill pane) hasks rfl).trans ht
  · rw [Registry.closePane,hpane]
    exact hr

theorem exec_removePane (h : s.Shows r) (hinv : r.Inv) (hpane : r.getPane pane = some (sid,se,w))
    (hended : pane ∉ s.running) (hawaited : pane ∈ s.awaited) (hq : s.Unused q) :
    ∃ steps t, exec step ⟨s,[]⟩ (.reap pane :: steps) = some ⟨t,[]⟩ ∧
      t.Shows (r.removePane pane) := by
  let u : Tables := { s with awaited := s.awaited.filter (· ≠ pane) }
  have hshows : u.Shows r := h
  have hqu : u.Unused q := ⟨hq.1,fun hmem => hq.2.1 (List.mem_filter.mp hmem).1,hq.2.2⟩
  have hne : q ≠ pane := fun heq => hq.2.1 (heq ▸ hawaited)
  have hexits : q ∉ (Call.exited pane).named := fun hmem => hne (List.mem_singleton.mp hmem)
  have hse := (Registry.getPane_eq_some hpane).1
  have hget : u.getPane pane = some (sid,w) := hshows.getPane hinv hpane
  have hqm : (u.modify sid fun se => se.removePane pane).Unused q :=
    hqu.modify fun se w' hw' => ⟨w',(SessionState.lookup_removePane.mp hw').2⟩
  obtain ⟨hpanes,hevict,hkeep⟩ := hshows.settle (f := fun se => se.removePane pane) hse
  have hremove : r.removePane pane = r.settle sid (se.removePane pane) := by
    rw [Registry.removePane,hpane]
  have hstart : step ⟨s,[]⟩ (.reap pane) = some ⟨u,[.exited pane]⟩ := by
    simp [step,hawaited,hended,u]
  rw [hremove]
  by_cases hempty : (se.removePane pane).panes.entries = []
  · refine ⟨[.resume (.exited pane) q true,.resume (.deserted sid) q true],_,?_,hevict hempty⟩
    have hexited : u.resume q true (.exited pane) =
        (u.modify sid fun se => se.removePane pane,some (.deserted sid)) := by
      simp [Tables.resume,hget,hpanes,hempty]
    rw [exec_cons,hstart,Option.bind_some,exec_resume _ hqu hexits hexited]
    exact exec_resume [] hqm List.not_mem_nil rfl
  · refine ⟨[.resume (.exited pane) q true],_,?_,hkeep hempty⟩
    have hexited : u.resume q true (.exited pane) =
        (u.modify sid fun se => se.removePane pane,none) := by
      simp [Tables.resume,hget,hpanes,hempty]
    rw [exec_cons,hstart,Option.bind_some]
    exact exec_resume [] hqu hexits hexited

end Shells

end Pyre.Session
