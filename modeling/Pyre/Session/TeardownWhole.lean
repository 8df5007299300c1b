import Pyre.Session.Teardown

/-!
When a window or a session of a daemon of its own goes whole and alone: a session always, a
window unless it takes the rest of its session along.
-/

set_option autoImplicit false

namespace Pyre.Session
open Base

namespace Registry

variable {s t : Registry} {sid sid' : SessionId} {se : SessionState} {v w : WindowId} {p : PaneId}
  {win : WindowState}

theorem getPane_isSome_iff (s : Registry) (p : PaneId) :
    (s.getPane p).isSome ↔ ∃ sid w, s.Has sid p w := by
  constructor
  · intro hsome
    obtain ⟨⟨sid,se,w⟩,hget⟩ := Option.isSome_iff_exists.mp hsome
    obtain ⟨hse,hp⟩ := getPane_eq_some hget
    exact ⟨sid,w,se,hse,hp⟩
  · rintro ⟨sid,w,hp⟩
    exact isSome_getPane hp

theorem getPane_home_iff (hi : s.Inv) :
    (s.getPane p).map (fun e => e.2.2) = some w ↔ ∃ sid, s.Has sid p w := by
  constructor
  · intro h
    obtain ⟨⟨sid,se,w'⟩,hget,rfl⟩ := Option.map_eq_some_iff.mp h
    obtain ⟨hse,hp⟩ := getPane_eq_some hget
    exact ⟨sid,se,hse,hp⟩
  · rintro ⟨sid,se,hse,hp⟩
    rw [getPane_of_has hi hse hp]
    rfl

theorem findWindow_iff (hi : s.Inv) : s.findWindow w = some win ↔
    ∃ sid se, s.sessions.lookup sid = some se ∧ se.findWindow w = some win := by
  constructor
  · exact exists_of_findWindow
  · rintro ⟨sid,se,hse,hwin⟩
    exact findWindow_eq (fun _ _ _ h h' => hi.unique_window hse hwin h h') hse hwin

theorem mem_sessionPanes : p ∈ s.sessionPanes sid ↔ ∃ w, s.Has sid p w := by
  cases hse : s.sessions.lookup sid with
  | none => simp [sessionPanes,Has,hse]
  | some se =>
    have hkeys : p ∈ se.panes.keys ↔ (se.panes.lookup p).isSome := AList.lookup_isSome.symm
    simp only [sessionPanes,hse,Option.map_some,Option.getD_some,hkeys,Option.isSome_iff_exists,
      has_of_lookup hse]

/-- A window is in one session, with its panes. -/
theorem session_of_window (hi : s.Inv) (hw : w ∈ s.windowsOf sid)
    (h : w ∈ s.windowsOf sid' ∨ ∃ p, s.Has sid' p w) : sid' = sid := by
  obtain ⟨se,hse,hwin⟩ := mem_windowsOf.mp hw
  rcases h with hw' | ⟨p,se',hse',hp⟩
  · obtain ⟨se',hse',hwin'⟩ := mem_windowsOf.mp hw'
    exact hi.window_home sid' sid se' se w hse' hse (Or.inl hwin') (Or.inl hwin)
  · exact hi.window_home sid' sid se' se w hse' hse (Or.inr ⟨p,hp⟩) (Or.inl hwin)

end Registry

namespace DaemonState

variable {d t : DaemonState} {sid sid' : SessionId} {v w : WindowId} {p : PaneId}
  {part : Part PaneId PaneId WindowId}

/-- `rows`, `owned`: of a session in memory the store has no windows but its own. `children`: a
pane whose child runs is registered where it was opened, in a window that is there. -/
structure Ok (d : DaemonState) : Prop where
  keyed : d.stored.Keyed
  rows : ∀ r ∈ d.rows, d.registry.sessions.lookup r.session ≠ none →
    r.id ∈ d.registry.windowsOf r.session
  owned : ∀ r ∈ d.rows, ∀ sid, r.id ∈ d.registry.windowsOf sid → r.session = sid
  children : ∀ p sid w, d.children.lookup p = some (sid,w) →
    d.registry.Has sid p w ∧ w ∈ d.registry.windowsOf sid

theorem inWindow_iff (h : d.Ok) : d.InWindow w p ↔ ∃ sid, d.registry.Has sid p w := by
  refine exists_congr fun sid => or_iff_right_of_imp fun hp => ?_
  exact (h.children p sid w hp).1

theorem inWindow_iff_of_listed (h : d.Ok) (hw : w ∈ d.registry.windowsOf sid) :
    d.InWindow w p ↔ d.registry.Has sid p w := by
  rw [inWindow_iff h]
  constructor
  · rintro ⟨sid',hp⟩
    obtain rfl := Registry.session_of_window h.keyed.inv hw (Or.inr ⟨p,hp⟩)
    exact hp
  · exact fun hp => ⟨sid,hp⟩

theorem inSession_iff (h : d.Ok) : d.InSession sid p ↔ ∃ w, d.registry.Has sid p w := by
  refine exists_congr fun w => or_iff_right_of_imp fun hp => ?_
  exact (h.children p sid w hp).1

theorem mem_kill {panes : List PaneId} {e : SessionId × WindowId} :
    (d.kill panes).children.lookup p = some e ↔ d.children.lookup p = some e ∧ p ∉ panes := by
  rw [kill,Table.lookup_retain_eq_some,decide_eq_true_eq]

theorem wait_eq (d : DaemonState) (panes : List PaneId) :
    (d.wait panes).registry = panes.foldl Registry.removePane d.registry ∧
      (d.wait panes).rows = d.rows ∧ (d.wait panes).children = d.children ∧
      ∀ p, p ∈ (d.wait panes).closed ↔ p ∈ panes ∨ p ∈ d.closed := by
  induction panes generalizing d with
  | nil => simp [wait]
  | cons q panes ih =>
    obtain ⟨hregistry,hrows,hchildren,hclosed⟩ := ih (d.removePane q)
    refine ⟨hregistry,hrows,hchildren,fun p => (hclosed p).trans ?_⟩
    simp only [removePane,List.mem_cons]
    tauto

/-- What is left, in terms of the registry. -/
theorem takes_of (hi : d.registry.Inv) (ht : t.registry.Inv) (hplace : part.place = part.pane)
    (hhas : ∀ sid p v, t.registry.Has sid p v ↔ d.registry.Has sid p v ∧ ¬part.pane p)
    (hchildren : ∀ p e, t.children.lookup p = some e ↔ d.children.lookup p = some e ∧ ¬part.pane p)
    (hlists : ∀ sid v, v ∈ t.registry.windowsOf sid ↔
      v ∈ d.registry.windowsOf sid ∧ ¬part.window v)
    (hwins : ∀ sid se' v, t.registry.sessions.lookup sid = some se' → ¬part.window v →
      ∃ se, d.registry.sessions.lookup sid = some se ∧ se'.findWindow v = se.findWindow v)
    {kept : WindowRow → Bool} (hrows : t.rows = d.rows.filter kept)
    (hkept : ∀ r ∈ d.rows, kept r = true ↔ ¬part.window r.id)
    (hclosed : ∀ p ∈ t.closed, p ∈ d.closed ∨ p ∈ t.registry.drawnPanes) :
    d.holdings.Takes t.holdings part := by
  have hgone : ∀ p, part.pane p → t.registry.getPane p = none := by
    intro p hp
    rw [← Option.not_isSome_iff_eq_none,Registry.getPane_isSome_iff]
    rintro ⟨sid,v,hv⟩
    exact ((hhas sid p v).mp hv).2 hp
  have hfound : ∀ p, ¬part.pane p →
      ((t.registry.getPane p).isSome ↔ (d.registry.getPane p).isSome) := by
    intro p hp
    simp only [Registry.getPane_isSome_iff,hhas,hp,not_false_eq_true,and_true]
  have hchild : ∀ p, ¬part.pane p → t.children.lookup p = d.children.lookup p := fun p hp =>
    Option.ext fun e => (hchildren p e).trans (and_iff_left hp)
  refine ⟨?_,?_,?_,hclosed,?_,?_,?_⟩
  · intro p hp
    rw [hplace] at hp
    refine ⟨fun hne => ?_,fun hlisted => ?_⟩
    · obtain ⟨e,he⟩ := Option.ne_none_iff_exists'.mp hne
      exact ((hchildren p e).mp he).2 hp
    · simp [holdings,hgone p hp] at hlisted
  · intro p hp
    simp [holdings,hgone p hp]
  · intro v hv
    refine ⟨?_,?_,fun sid hin => ((hlists sid v).mp hin).2 hv⟩
    · refine Option.eq_none_iff_forall_ne_some.mpr fun win hwin => ?_
      obtain ⟨sid,se,hse,hwin⟩ := (Registry.findWindow_iff ht).mp hwin
      exact ((hlists sid v).mp (Registry.mem_windowsOf.mpr ⟨se,hse,win,hwin⟩)).2 hv
    · refine List.filter_eq_nil_iff.mpr fun r hr heq => ?_
      obtain rfl := of_decide_eq_true heq
      rw [hrows] at hr
      obtain ⟨hr,hkeep⟩ := List.mem_filter.mp hr
      exact (hkept r hr).mp hkeep hv
  · intro p hp
    rw [hplace] at hp
    exact ⟨by simp [holdings,hchild p hp],hfound p hp⟩
  · intro p hp
    have hhome : ∀ v, (t.registry.getPane p).map (fun e => e.2.2) = some v ↔
        (d.registry.getPane p).map (fun e => e.2.2) = some v := by
      intro v
      simp only [Registry.getPane_home_iff ht,Registry.getPane_home_iff hi,hhas,hp,
        not_false_eq_true,and_true]
    refine ⟨?_,fun _ => Option.ext hhome⟩
    have hsome := hfound p hp
    simp only [holdings]
    cases hd : d.registry.getPane p <;> cases hg : t.registry.getPane p <;> simp [hd,hg] at hsome ⊢
  · intro v hv
    refine ⟨Option.ext fun win => ?_,?_,fun _ sid => (hlists sid v).trans (and_iff_left hv)⟩
    · simp only [holdings,Registry.findWindow_iff ht,Registry.findWindow_iff hi]
      constructor
      · rintro ⟨sid,se',hse',hwin⟩
        obtain ⟨se,hse,heq⟩ := hwins sid se' v hse' hv
        exact ⟨sid,se,hse,heq ▸ hwin⟩
      · rintro ⟨sid,se,hse,hwin⟩
        have hin := (hlists sid v).mpr ⟨Registry.mem_windowsOf.mpr ⟨se,hse,win,hwin⟩,hv⟩
        obtain ⟨se',hse',-⟩ := Registry.mem_windowsOf.mp hin
        obtain ⟨se₁,hse₁,heq⟩ := hwins sid se' v hse' hv
        obtain rfl := Option.some.inj (hse.symm.trans hse₁)
        exact ⟨sid,se',hse',heq ▸ hwin⟩
    · simp only [holdings,hrows,List.filter_filter]
      refine List.filter_congr fun r hr => ?_
      by_cases hid : r.id = v
      · simp [hid,(hkept r hr).mpr (hid ▸ hv)]
      · simp [hid]

/-- A session that is closed takes its panes and its windows along, those in the store too. -/
theorem takes_closeSession (h : d.Ok) (sid : SessionId) {order : List PaneId}
    (horder : ∀ p ∈ order, ∃ w, d.registry.Has sid p w) :
    d.holdings.Takes ((d.closeSession sid).wait order).holdings (d.sessionPart sid) := by
  have hi := h.keyed.inv
  obtain ⟨hregistry,hrows,hchildren,hclosed⟩ := wait_eq (d.closeSession sid) order
  -- no task finds a pane
  have hgone : ∀ panes : List PaneId, (∀ p ∈ panes, ∃ w, d.registry.Has sid p w) →
      panes.foldl Registry.removePane (d.registry.dropSession sid) = d.registry.dropSession sid := by
    intro panes hall
    induction panes with
    | nil => rfl
    | cons p panes ih =>
      obtain ⟨⟨w,hp⟩,hrest⟩ := List.forall_mem_cons.mp hall
      have hnone : (d.registry.dropSession sid).getPane p = none := by
        rw [← Option.not_isSome_iff_eq_none,Registry.getPane_isSome_iff]
        rintro ⟨sid',v,se,hse,hv⟩
        obtain ⟨hne,hse⟩ := Registry.lookup_dropSession.mp hse
        exact hne (hi.pane_home sid' sid p v w ⟨se,hse,hv⟩ hp)
      rw [List.foldl_cons,Registry.removePane,hnone]
      exact ih hrest
  have hdrop : ((d.closeSession sid).wait order).registry = d.registry.dropSession sid :=
    hregistry.trans (hgone order horder)
  have hids : ∀ r ∈ d.rows, r.id ∈ d.sessionWindowIds sid ↔ (d.sessionPart sid).window r.id := by
    intro r hr
    unfold sessionWindowIds
    simp only [sessionPart]
    split
    · rename_i hsome
      refine (or_iff_left_of_imp ?_).symm
      rintro ⟨r',hr',rfl,hid⟩
      rw [← hid]
      exact h.rows r' hr' (Option.isSome_iff_ne_none.mp hsome)
    · rename_i hnone
      rw [Option.not_isSome_iff_eq_none] at hnone
      rw [Registry.windowsOf_of_none hnone]
      simp [Stored.listWindows,Stored.rowsOf,rows,and_assoc]
  refine takes_of hi (hdrop ▸ hi.drop sid) rfl ?_ ?_ ?_ ?_ hrows
    (fun r hr => by simp [hids r hr]) ?_
  · intro sid' p v
    rw [hdrop]
    simp only [sessionPart,inSession_iff h]
    constructor
    · rintro ⟨se,hse,hp⟩
      obtain ⟨hne,hse⟩ := Registry.lookup_dropSession.mp hse
      refine ⟨⟨se,hse,hp⟩,?_⟩
      rintro ⟨w,hw⟩
      exact hne (hi.pane_home sid' sid p v w ⟨se,hse,hp⟩ hw)
    · rintro ⟨⟨se,hse,hp⟩,hnot⟩
      refine ⟨se,Registry.lookup_dropSession.mpr ⟨?_,hse⟩,hp⟩
      rintro rfl
      exact hnot ⟨v,se,hse,hp⟩
  · intro p e
    rw [hchildren,closeSession,mem_kill,Registry.mem_sessionPanes,← inSession_iff h]
    exact Iff.rfl
  · intro sid' v
    rw [hdrop]
    by_cases hne : sid' = sid
    · subst hne
      rw [Registry.windowsOf_of_none (AList.lookup_erase _ _)]
      refine iff_of_false List.not_mem_nil ?_
      rintro ⟨hv,hnot⟩
      exact hnot (Or.inl hv)
    · rw [Registry.windowsOf_congr (s := d.registry) (AList.lookup_erase_ne hne)]
      refine (and_iff_left_of_imp fun hv => ?_).symm
      rintro (hin | ⟨r,hr,rfl,rfl⟩)
      · exact hne (Registry.session_of_window hi hin (Or.inl hv))
      · exact hne (h.owned r hr sid' hv).symm
  · intro sid' se' v hse' _
    rw [hdrop] at hse'
    exact ⟨se',(Registry.lookup_dropSession.mp hse').2,rfl⟩
  · intro p hp
    rcases (hclosed p).mp hp with hin | hin
    · obtain ⟨w,se,hse,hw⟩ := horder p hin
      exact Or.inr (hdrop ▸ (hi.ok sid se hse).panes_drawn p w hw)
    · rcases List.mem_append.mp hin with hin | hin
      · obtain ⟨w,se,hse,hw⟩ := Registry.mem_sessionPanes.mp hin
        exact Or.inr (hdrop ▸ (hi.ok sid se hse).panes_drawn p w hw)
      · exact Or.inl hin

theorem endsAlone_iff (h : d.Ok) (hw : w ∈ d.registry.windowsOf sid) : d.EndsAlone w ↔
    (d.registry.EndsWithWindow sid w → (∀ v ∈ d.registry.windowsOf sid, v = w) ∧
      ∀ p v, d.registry.Has sid p v → v = w) := by
  have hone : d.EndsAlone w ↔
      ((∃ p, d.registry.Has sid p w) → (∀ p v, d.registry.Has sid p v → v = w) →
        ∀ v ∈ d.registry.windowsOf sid, v = w) ∧
      ((∀ v ∈ d.registry.windowsOf sid, v = w) → ∀ p v, d.registry.Has sid p v → v = w) := by
    constructor
    · intro hall
      exact hall sid hw
    · intro hone sid' hw'
      obtain rfl := Registry.session_of_window h.keyed.inv hw (Or.inl hw')
      exact hone
  rw [hone]
  constructor
  · rintro ⟨hwindows,hpanes⟩ (⟨hsome,hall⟩ | hall)
    · exact ⟨hwindows hsome hall,hall⟩
    · exact ⟨hall,hpanes hall⟩
  · intro hends
    exact ⟨fun hsome hall => (hends (Or.inl ⟨hsome,hall⟩)).1,fun hall => (hends (Or.inr hall)).2⟩

theorem mem_windowPanes (h : d.Ok) (hw : w ∈ d.registry.windowsOf sid) :
    p ∈ d.registry.windowPanes w ↔ d.registry.Has sid p w := by
  obtain ⟨se,hse,-⟩ := Registry.mem_windowsOf.mp hw
  have hfind := Registry.find_windowsOf (s := d.registry) h.keyed.inv hse hw
  rw [Registry.windowPanes,Registry.sessionWith,hfind,Option.map_some,Option.map_some,
    Option.getD_some,SessionState.mem_panesIn,Registry.has_of_lookup hse]

/-- With the tasks of its panes. -/
theorem closes_wait (h : d.Ok) (hw : w ∈ d.registry.windowsOf sid) (unkilled : List PaneId)
    {order : List PaneId} (horder : ∀ p, p ∈ order ↔ d.registry.Has sid p w) :
    d.registry.Closes ((d.closeWindow w unkilled).wait order).registry sid w := by
  obtain ⟨se,hse,-⟩ := Registry.mem_windowsOf.mp hw
  have hfound : (d.registry.findWindow w).isSome := Stored.findWindow_isSome hw
  have hclose : (d.closeWindow w unkilled).registry = d.registry.closeWindow w unkilled := by
    rw [closeWindow,if_pos hfound]
    rfl
  rw [(wait_eq _ order).1,hclose]
  exact Registry.closes_closeWindow h.keyed.inv hse hw unkilled fun p =>
    (horder p).trans (Registry.has_of_lookup hse)

theorem has_window_unique {sid' : SessionId} (h : d.Ok) (hp : d.registry.Has sid p v)
    (hp' : d.registry.Has sid' p w) : v = w := by
  obtain rfl := h.keyed.inv.pane_home sid sid' p v w hp hp'
  obtain ⟨se₁,hse₁,hv⟩ := hp
  obtain ⟨se₂,hse₂,hw⟩ := hp'
  obtain rfl := Option.some.inj (hse₁.symm.trans hse₂)
  exact Option.some.inj (hv.symm.trans hw)

/-- The session is gone if it ends with the window, so that it must have had nothing else. -/
theorem endsAlone_of_takes (h : d.Ok) (hw : w ∈ d.registry.windowsOf sid)
    (hcloses : d.registry.Closes t.registry sid w)
    (htakes : d.holdings.Takes t.holdings (d.windowPart w)) : d.EndsAlone w := by
  rw [endsAlone_iff h hw]
  intro hends
  have hnone := hcloses.ended hends
  refine ⟨fun v hv => ?_,fun p v hp => ?_⟩
  · by_contra hne
    have hmemory : d.holdings.memory v ≠ none :=
      Option.isSome_iff_ne_none.mp (Stored.findWindow_isSome hv)
    have hleft := ((htakes.windows v hne).2.2 hmemory sid).mpr hv
    have hempty := Registry.windowsOf_of_none hnone
    simp only [holdings,hempty] at hleft
    cases hleft
  · by_contra hne
    have hnot : ¬d.InWindow w p := fun hin =>
      hne (has_window_unique h hp ((inWindow_iff_of_listed h hw).mp hin))
    have hlisted := (htakes.places p hnot).2.mpr
      ((Registry.getPane_isSome_iff d.registry p).mpr ⟨sid,v,hp⟩)
    obtain ⟨sid',v',se',hse',hv'⟩ := (Registry.getPane_isSome_iff t.registry p).mp hlisted
    by_cases hsid : sid' = sid
    · rw [hsid,hnone] at hse'
      cases hse'
    · rw [hcloses.others sid' hsid] at hse'
      exact hsid (h.keyed.inv.pane_home sid' sid p v' v ⟨se',hse',hv'⟩ hp)

/-- What a session keeps of which the window alone is closed, or which had nothing else. -/
theorem kept_of_endsAlone (h : d.Ok) (hw : w ∈ d.registry.windowsOf sid)
    (hcloses : d.registry.Closes t.registry sid w) (halone : d.EndsAlone w)
    {se : SessionState} (hse : d.registry.sessions.lookup sid = some se) :
    (∀ p v, t.registry.Has sid p v ↔ d.registry.Has sid p v ∧ v ≠ w) ∧
      (∀ v, v ∈ t.registry.windowsOf sid ↔ v ∈ d.registry.windowsOf sid ∧ v ≠ w) ∧
      ∀ se' v, t.registry.sessions.lookup sid = some se' → v ≠ w →
        se'.findWindow v = se.findWindow v := by
  by_cases hends : d.registry.EndsWithWindow sid w
  · have hnone := hcloses.ended hends
    obtain ⟨hwindows,hpanes⟩ := (endsAlone_iff h hw).mp halone hends
    refine ⟨fun p v => iff_of_false ?_ ?_,fun v => iff_of_false ?_ ?_,fun se' v hse' => ?_⟩
    · rintro ⟨se',hse',-⟩
      rw [hnone] at hse'
      cases hse'
    · exact fun hp => hp.2 (hpanes p v hp.1)
    · rw [Registry.windowsOf_of_none hnone]
      exact List.not_mem_nil
    · exact fun hv => hv.2 (hwindows v hv.1)
    · rw [hnone] at hse'
      cases hse'
  · obtain ⟨se',hse',hids,hwins,hpanes⟩ := hcloses.kept hends se hse
    refine ⟨fun p v => ?_,fun v => ?_,fun se₁ v hse₁ hv => ?_⟩
    · rw [Registry.has_of_lookup hse',Registry.has_of_lookup hse,hpanes]
    · rw [Registry.windowsOf_of_lookup hse',Registry.windowsOf_of_lookup hse,hids]
    · obtain rfl := Option.some.inj (hse'.symm.trans hse₁)
      exact hwins v hv

/-- A window that is closed goes whole and alone just if its session stays or has nothing else. -/
theorem takes_closeWindow_iff (h : d.Ok) (hw : w ∈ d.registry.windowsOf sid)
    {unkilled order : List PaneId} (hunkilled : ∀ p ∈ unkilled, d.children.lookup p = none)
    (horder : ∀ p, p ∈ order ↔ d.registry.Has sid p w) :
    d.holdings.Takes ((d.closeWindow w unkilled).wait order).holdings (d.windowPart w) ↔
      d.EndsAlone w := by
  have hi := h.keyed.inv
  obtain ⟨se,hse,-⟩ := Registry.mem_windowsOf.mp hw
  have hfound : (d.registry.findWindow w).isSome := Stored.findWindow_isSome hw
  have hcloses := closes_wait h hw unkilled horder
  obtain ⟨-,hrows,hchildren,hclosed⟩ := wait_eq (d.closeWindow w unkilled) order
  set t := (d.closeWindow w unkilled).wait order
  rw [closeWindow,if_pos hfound] at hrows hchildren hclosed
  have hin : ∀ {p}, d.InWindow w p ↔ d.registry.Has sid p w := inWindow_iff_of_listed h hw
  refine ⟨endsAlone_of_takes h hw hcloses,fun halone => ?_⟩
  obtain ⟨hpanes,hlists,hwins⟩ := kept_of_endsAlone h hw hcloses halone hse
  refine takes_of hi hcloses.inv rfl ?_ ?_ ?_ ?_ hrows (fun r _ => by simp [windowPart]) ?_
  · intro sid' p v
    simp only [windowPart,hin]
    by_cases hsid : sid' = sid
    · subst hsid
      rw [hpanes]
      refine and_congr_right fun hp => not_congr ?_
      constructor
      · rintro rfl
        exact hp
      · exact has_window_unique h hp
    · have hsame : t.registry.Has sid' p v ↔ d.registry.Has sid' p v := by
        rw [Registry.Has,hcloses.others sid' hsid,Registry.Has]
      rw [hsame]
      refine (and_iff_left_of_imp fun hp hp' => hsid ?_).symm
      exact hi.pane_home sid' sid p v w hp hp'
  · intro p e
    rw [hchildren,mem_kill,List.mem_filter,mem_windowPanes h hw,decide_eq_true_eq]
    simp only [windowPart,hin]
    refine and_congr_right fun hp => not_congr (and_iff_left fun hmem => ?_)
    have hnone := hunkilled p hmem
    rw [hnone] at hp
    cases hp
  · intro sid' v
    by_cases hsid : sid' = sid
    · subst hsid
      exact hlists v
    · rw [Registry.windowsOf_congr (s := d.registry) (hcloses.others sid' hsid)]
      refine (and_iff_left_of_imp ?_).symm
      rintro hv rfl
      exact hsid (Registry.session_of_window hi hw (Or.inl hv))
  · intro sid' se' v hse' hv
    by_cases hsid : sid' = sid
    · subst hsid
      exact ⟨se,hse,hwins se' v hse' hv⟩
    · exact ⟨se',(hcloses.others sid' hsid).symm.trans hse',rfl⟩
  · intro p hp
    have hdrawn : ∀ p, d.registry.Has sid p w → p ∈ t.registry.drawnPanes := by
      rintro p ⟨se',hse',hp'⟩
      rw [hcloses.drawn.1]
      exact (hi.ok sid se' hse').panes_drawn p w hp'
    rcases (hclosed p).mp hp with hmem | hmem
    · exact Or.inr (hdrawn p ((horder p).mp hmem))
    · rcases List.mem_append.mp hmem with hmem | hmem
      · exact Or.inr (hdrawn p ((mem_windowPanes h hw).mp (List.mem_of_mem_filter hmem)))
      · exact Or.inl hmem

end DaemonState

end Pyre.Session
