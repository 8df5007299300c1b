import Pyre.Base.Run
import Pyre.Session.TeardownWhole

/-!
The registry, the store and the children of a daemon of its own agree in every run.
-/

set_option autoImplicit false

namespace Pyre.Session
open Base

namespace DaemonState

theorem ok_empty : empty.Ok := by
  refine ⟨⟨Registry.inv_empty,List.nodup_nil,fun _ h => absurd h List.not_mem_nil⟩,?_,?_,?_⟩
  · intro r hr
    cases hr
  · intro r hr
    cases hr
  · intro p sid w h
    cases h

end DaemonState

namespace Registry

variable {s t : Registry} {sid sid' : SessionId} {se se' : SessionState} {v w : WindowId}
  {gone : List PaneId}

theorem lookup_of_windowsOf (h : v ∈ s.windowsOf sid) : s.sessions.lookup sid ≠ none := by
  intro hnone
  rw [windowsOf_of_none hnone] at h
  cases h

theorem Sheds.session (h : s.Sheds t sid w gone) (hne : t.sessions.lookup sid' ≠ none) :
    s.sessions.lookup sid' ≠ none := by
  by_cases hsid : sid' = sid
  · subst hsid
    exact fun hnone => hne (h.absent hnone)
  · rwa [← h.others sid' hsid]

theorem Sheds.windowsOf (h : s.Sheds t sid w gone) (hne : t.sessions.lookup sid' ≠ none) :
    t.windowsOf sid' = s.windowsOf sid' := by
  by_cases hsid : sid' = sid
  · subst hsid
    obtain ⟨se',hse'⟩ := Option.ne_none_iff_exists'.mp hne
    obtain ⟨se,hse⟩ := Option.ne_none_iff_exists'.mp (h.session hne)
    rw [windowsOf_of_lookup hse',windowsOf_of_lookup hse,h.ids hse hse']
  · exact windowsOf_congr (h.others sid' hsid)

theorem Sheds.has_of (h : s.Sheds t sid w gone) {p : PaneId} (hp : s.Has sid' p v)
    (hnot : p ∉ gone) : t.Has sid' p v := by
  by_cases hsid : sid' = sid
  · subst hsid
    exact h.has_iff.mpr ⟨hp,hnot⟩
  · rwa [Has,h.others sid' hsid]

/-- Windows are neither made nor closed where a session is replaced by one that lists the same. -/
theorem windowsOf_update (hse : s.sessions.lookup sid = some se)
    (hids : se'.windows.map WindowState.id = se.windows.map WindowState.id) (sid' : SessionId) :
    (s.update sid se').windowsOf sid' = s.windowsOf sid' := by
  by_cases hsid : sid' = sid
  · subst hsid
    rw [windowsOf_of_lookup (AList.lookup_insert _),windowsOf_of_lookup hse,hids]
  · exact windowsOf_congr (AList.lookup_insert_ne hsid)

theorem lookup_update_ne_none (hse : s.sessions.lookup sid = some se)
    (h : (s.update sid se').sessions.lookup sid' ≠ none) : s.sessions.lookup sid' ≠ none := by
  by_cases hsid : sid' = sid
  · rw [hsid,hse]
    exact Option.some_ne_none se
  · rwa [update,AList.lookup_insert_ne hsid] at h

/-- Whatever the pane is, it is one of one window of one session. -/
theorem exists_only (hi : s.Inv) (p : PaneId) : ∃ sid w, s.Only sid w p := by
  cases hget : s.getPane p with
  | none =>
    refine ⟨⟨0⟩,⟨0⟩,fun sid' v hv => ?_⟩
    simpa [hget] using isSome_getPane hv
  | some found =>
    obtain ⟨sid,se,w⟩ := found
    obtain ⟨hse,hp⟩ := getPane_eq_some hget
    refine ⟨sid,w,fun sid' v hv => ?_⟩
    obtain rfl := hi.pane_home sid' sid p v w hv ⟨se,hse,hp⟩
    exact ⟨rfl,Option.some.inj (((has_of_lookup hse).mp hv).symm.trans hp)⟩

theorem inv_foldl_closePane (panes : List PaneId) (hi : s.Inv) : (panes.foldl closePane s).Inv := by
  induction panes generalizing s with
  | nil => exact hi
  | cons p panes ih => exact ih (inv_closePane hi p)

theorem mem_windowsOf_unlist : v ∈ (s.unlist sid w).windowsOf sid' ↔
    v ∈ s.windowsOf sid' ∧ (sid' = sid → v ≠ w) := by
  by_cases hsid : sid' = sid
  · subst hsid
    simp only [forall_const]
    cases hse : s.sessions.lookup sid' with
    | none =>
      have hnone : (s.unlist sid' w).sessions.lookup sid' = none := by
        refine Option.eq_none_iff_forall_ne_some.mpr fun se' hse' => ?_
        obtain ⟨se,hse₁,-⟩ := lookup_unlist.mp hse'
        rw [hse] at hse₁
        cases hse₁
      simp [windowsOf_of_none hse,windowsOf_of_none hnone]
    | some se =>
      rw [windowsOf_of_lookup hse,← mem_ids_removeWindow]
      by_cases hempty : (se.removeWindow w).windows = []
      · have hnone : (s.unlist sid' w).sessions.lookup sid' = none := by
          refine Option.eq_none_iff_forall_ne_some.mpr fun se' hse' => ?_
          obtain ⟨se₁,hse₁,hne,-⟩ := lookup_unlist.mp hse'
          obtain rfl := Option.some.inj (hse.symm.trans hse₁)
          exact hne hempty
        simp [windowsOf_of_none hnone,hempty]
      · rw [windowsOf_of_lookup (lookup_unlist.mpr ⟨se,hse,hempty,rfl⟩)]
  · rw [windowsOf_congr (lookup_unlist_ne hsid s w)]
    simp [hsid]

/-- A pane whose window stays listed stays. -/
theorem has_unlist {p : PaneId} (hp : s.Has sid' p v) (hv : v ∈ s.windowsOf sid')
    (hne : sid' = sid → v ≠ w) : (s.unlist sid w).Has sid' p v := by
  by_cases hsid : sid' = sid
  · subst hsid
    obtain ⟨se,hse,hpane⟩ := hp
    have hin := mem_windowsOf_unlist.mpr ⟨hv,hne⟩
    obtain ⟨se',hse'⟩ := Option.ne_none_iff_exists'.mp (lookup_of_windowsOf hin)
    obtain ⟨se₁,hse₁,-,rfl⟩ := lookup_unlist.mp hse'
    obtain rfl := Option.some.inj (hse.symm.trans hse₁)
    exact ⟨_,hse',hpane⟩
  · rwa [Has,lookup_unlist_ne hsid]

end Registry

namespace DaemonState

variable {d t : DaemonState} {sid sid' : SessionId} {v w : WindowId} {p : PaneId}

/-- Panes have ended, and their children with them. -/
theorem Ok.sheds (h : d.Ok) {gone : List PaneId} (hs : d.registry.Sheds t.registry sid w gone)
    (hi : t.registry.Inv) (hrows : t.rows = d.rows)
    (hchildren : ∀ q e, t.children.lookup q = some e → d.children.lookup q = some e ∧ q ∉ gone) :
    t.Ok := by
  have hrows' : t.stored.rows = d.stored.rows := hrows
  have hkeyed : t.stored.Keyed := by
    refine ⟨hi,hrows' ▸ h.keyed.rows,fun r hr => ?_⟩
    have hold := h.keyed.drawn r (hrows' ▸ hr)
    exact hs.drawn.2 ▸ hold
  refine ⟨hkeyed,fun r hr hne => ?_,fun r hr sid' hv => ?_,fun q sid' v hq => ?_⟩
  · rw [hs.windowsOf hne]
    exact h.rows r (hrows ▸ hr) (hs.session hne)
  · rw [hs.windowsOf (Registry.lookup_of_windowsOf hv)] at hv
    exact h.owned r (hrows ▸ hr) sid' hv
  · obtain ⟨hold,hnot⟩ := hchildren q (sid',v) hq
    obtain ⟨hp,hv⟩ := h.children q sid' v hold
    have hhas := hs.has_of hp hnot
    obtain ⟨se,hse,-⟩ := hhas
    rw [hs.windowsOf (by simp [hse])]
    exact ⟨hs.has_of hp hnot,hv⟩

theorem ok_closePane (h : d.Ok) (p : PaneId) : (d.closePane p).Ok := by
  have hi := h.keyed.inv
  unfold closePane
  split
  · obtain ⟨sid,w,honly⟩ := Registry.exists_only hi p
    exact h.sheds (Registry.sheds_closePane honly) (Registry.inv_closePane hi p) rfl
      fun q e hq => mem_kill.mp hq
  · exact h

theorem ok_removePane (h : d.Ok) (hp : d.children.lookup p = none) : (d.removePane p).Ok := by
  have hi := h.keyed.inv
  obtain ⟨sid,w,honly⟩ := Registry.exists_only hi p
  refine h.sheds (Registry.sheds_removePane honly) (Registry.inv_removePane hi p) rfl fun q e hq => ?_
  refine ⟨hq,fun hmem => ?_⟩
  obtain rfl := List.mem_singleton.mp hmem
  exact absurd (hq.symm.trans hp) (by simp)

/-- The window goes from the list and from the store, and no child of it is left. -/
theorem Ok.unlist (h : d.Ok) (sid : SessionId) (w : WindowId) (hi : (d.registry.unlist sid w).Inv)
    (hno : ∀ p, d.children.lookup p ≠ some (sid,w)) :
    Ok { d with stored := ⟨d.registry.unlist sid w,d.rows.filter fun r => r.id ≠ w⟩ } := by
  have hdrawn := (Registry.drawn_unlist d.registry sid w).2
  refine ⟨⟨hi,h.keyed.rows.sublist (List.filter_sublist.map _),fun r hr => ?_⟩,fun r hr hne => ?_,
    fun r hr sid' hv => ?_,fun p sid' v hp => ?_⟩
  · exact hdrawn ▸ h.keyed.drawn r (List.mem_of_mem_filter hr)
  · obtain ⟨hr,hid⟩ := List.mem_filter.mp hr
    refine Registry.mem_windowsOf_unlist.mpr ⟨h.rows r hr ?_,fun _ => of_decide_eq_true hid⟩
    by_cases hsid : r.session = sid
    · obtain ⟨se',hse'⟩ := Option.ne_none_iff_exists'.mp hne
      rw [registry,hsid] at hse'
      obtain ⟨se,hse,-⟩ := Registry.lookup_unlist.mp hse'
      rw [hsid,hse]
      exact Option.some_ne_none se
    · rwa [← Registry.lookup_unlist_ne hsid d.registry w]
  · exact h.owned r (List.mem_of_mem_filter hr) sid' (Registry.mem_windowsOf_unlist.mp hv).1
  · obtain ⟨hhas,hv⟩ := h.children p sid' v hp
    have hne : sid' = sid → v ≠ w := by
      rintro rfl rfl
      exact hno p hp
    exact ⟨Registry.has_unlist hhas hv hne,Registry.mem_windowsOf_unlist.mpr ⟨hv,hne⟩⟩

theorem ok_closeWindow (h : d.Ok) {unkilled : List PaneId}
    (hunkilled : ∀ p ∈ unkilled, d.children.lookup p = none) : (d.closeWindow w unkilled).Ok := by
  have hi := h.keyed.inv
  by_cases hfound : (d.registry.findWindow w).isSome
  swap
  · rwa [closeWindow,if_neg hfound]
  obtain ⟨win,hwin⟩ := Option.isSome_iff_exists.mp hfound
  obtain ⟨sid,se,hse,hwin⟩ := Registry.exists_of_findWindow hwin
  have hw : w ∈ d.registry.windowsOf sid := Registry.mem_windowsOf.mpr ⟨se,hse,win,hwin⟩
  have hpanes : ∀ p, p ∈ d.registry.windowPanes w ↔ d.registry.Has sid p w := fun p =>
    mem_windowPanes h hw
  have heq : (d.registry.windowPanes w) = se.panesIn w := by
    have hfind := Registry.find_windowsOf (s := d.registry) hi hse hw
    rw [Registry.windowPanes,Registry.sessionWith,hfind]
    rfl
  have hclose := Registry.closeWindow_of_listed (s := d.registry) hi hse hw unkilled
  set killed := (d.registry.windowPanes w).filter fun p => p ∉ unkilled with hk
  rw [← heq,← hk] at hclose
  have hfirst : d.registry.Sheds (killed.foldl Registry.closePane d.registry) sid w killed := by
    refine Registry.sheds_foldl (fun _ _ => Registry.sheds_closePane) killed fun p hp sid' v hv => ?_
    have hp := (hpanes p).mp (List.mem_of_mem_filter hp)
    obtain rfl := hi.pane_home sid' sid p v w hv hp
    obtain ⟨se₁,hse₁,hv⟩ := hv
    obtain rfl := Option.some.inj (hse.symm.trans hse₁)
    exact ⟨rfl,Option.some.inj (hv.symm.trans ((Registry.has_of_lookup hse).mp hp))⟩
  set u := killed.foldl Registry.closePane d.registry
  have hok : ((d.withRegistry u).kill killed).Ok :=
    h.sheds hfirst (Registry.inv_foldl_closePane killed hi) rfl fun q e hq => mem_kill.mp hq
  have hinv : (u.unlist sid w).Inv := hclose ▸ Registry.inv_closeWindow hi w unkilled
  have hdone := hok.unlist sid w hinv fun p hp => by
    obtain ⟨hchild,hnot⟩ := mem_kill.mp hp
    refine hnot (List.mem_filter.mpr ⟨(hpanes p).mpr (h.children p sid w hchild).1,?_⟩)
    refine decide_eq_true fun hmem => ?_
    exact absurd (hchild.symm.trans (hunkilled p hmem)) (by simp)
  rw [closeWindow,if_pos hfound,hclose]
  exact hdone

theorem ok_closeSession (h : d.Ok) (sid : SessionId) : (d.closeSession sid).Ok := by
  have hi := h.keyed.inv
  have hlist : ∀ sid', sid' ≠ sid →
      (d.registry.dropSession sid).windowsOf sid' = d.registry.windowsOf sid' := fun sid' hne =>
    Registry.windowsOf_congr (AList.lookup_erase_ne hne)
  have hother : ∀ sid', (d.registry.dropSession sid).sessions.lookup sid' ≠ none → sid' ≠ sid := by
    rintro sid' hne rfl
    exact hne (AList.lookup_erase _ _)
  refine ⟨⟨hi.drop sid,h.keyed.rows.sublist (List.filter_sublist.map _),fun r hr => ?_⟩,
    fun r hr hne => ?_,fun r hr sid' hv => ?_,fun p sid' v hp => ?_⟩
  · exact h.keyed.drawn r (List.mem_of_mem_filter hr)
  · have hsid := hother r.session hne
    refine (hlist r.session hsid).symm ▸ h.rows r (List.mem_of_mem_filter hr) ?_
    rwa [← AList.lookup_erase_ne (s := d.registry.sessions) hsid]
  · have hsid := hother sid' (Registry.lookup_of_windowsOf hv)
    exact h.owned r (List.mem_of_mem_filter hr) sid' ((hlist sid' hsid) ▸ hv)
  · obtain ⟨hchild,hnot⟩ := mem_kill.mp hp
    obtain ⟨hhas,hv⟩ := h.children p sid' v hchild
    have hsid : sid' ≠ sid := by
      rintro rfl
      exact hnot (Registry.mem_sessionPanes.mpr ⟨v,hhas⟩)
    obtain ⟨se,hse,hpane⟩ := hhas
    exact ⟨⟨se,Registry.lookup_dropSession.mpr ⟨hsid,hse⟩,hpane⟩,(hlist sid' hsid).symm ▸ hv⟩

/-- A fresh window is listed and stored, for a session of which the store has no more than what
is in memory. -/
theorem Ok.window (h : d.Ok) {s : Registry} {row : WindowRow}
    (hkeyed : (Stored.mk s (d.rows ++ [row])).Keyed) (hw : row.id ∉ d.registry.drawnWindows)
    (hothers : ∀ sid', sid' ≠ row.session →
      s.sessions.lookup sid' = d.registry.sessions.lookup sid')
    (hlist : ∀ v, v ∈ s.windowsOf row.session ↔ v ∈ d.registry.windowsOf row.session ∨ v = row.id)
    (hhas : ∀ p v, d.registry.Has row.session p v → s.Has row.session p v)
    (hrows : d.registry.sessions.lookup row.session = none → d.stored.rowsOf row.session = []) :
    Ok { d with stored := ⟨s,d.rows ++ [row]⟩ } := by
  have hlist' : ∀ sid', sid' ≠ row.session → s.windowsOf sid' = d.registry.windowsOf sid' :=
    fun sid' hne => Registry.windowsOf_congr (hothers sid' hne)
  have hdrawn : ∀ sid' v, v ∈ d.registry.windowsOf sid' → v ≠ row.id := by
    rintro sid' v hv rfl
    obtain ⟨se,hse,win,hwin⟩ := Registry.mem_windowsOf.mp hv
    exact hw ((h.keyed.inv.ok sid' se hse).windows_drawn _ (Or.inl ⟨win,hwin⟩))
  refine ⟨hkeyed,fun r hr hne => ?_,fun r hr sid' hv => ?_,fun p sid' v hp => ?_⟩
  · rcases List.mem_append.mp hr with hr | hr
    · by_cases hsid : r.session = row.session
      · have hold : d.registry.sessions.lookup r.session ≠ none := by
          intro hnone
          have hempty := hrows (hsid ▸ hnone)
          have hmem : r ∈ d.stored.rowsOf row.session := List.mem_filter.mpr ⟨hr,decide_eq_true hsid⟩
          rw [hempty] at hmem
          cases hmem
        have hin := h.rows r hr hold
        simp only [registry] at hin ⊢
        rw [hsid] at hin ⊢
        exact (hlist r.id).mpr (Or.inl hin)
      · have hsame := hothers r.session hsid
        exact (hlist' r.session hsid).symm ▸ h.rows r hr (hsame ▸ hne)
    · obtain rfl := List.mem_singleton.mp hr
      exact (hlist r.id).mpr (Or.inr rfl)
  · rcases List.mem_append.mp hr with hr | hr
    · by_cases hsid : sid' = row.session
      · subst hsid
        rcases (hlist r.id).mp hv with hv | hid
        · exact h.owned r hr _ hv
        · exact absurd (h.keyed.drawn r hr) (hid ▸ hw)
      · exact h.owned r hr sid' (hlist' sid' hsid ▸ hv)
    · obtain rfl := List.mem_singleton.mp hr
      by_contra hne
      have hv' := hlist' sid' (Ne.symm hne) ▸ hv
      exact hdrawn sid' _ hv' rfl
  · obtain ⟨hp,hv⟩ := h.children p sid' v hp
    by_cases hsid : sid' = row.session
    · subst hsid
      exact ⟨hhas p v hp,(hlist v).mpr (Or.inl hv)⟩
    · refine ⟨?_,(hlist' sid' hsid).symm ▸ hv⟩
      rwa [Registry.Has,registry,hothers sid' hsid]

theorem ok_newSession (h : d.Ok) (hrows : d.stored.rowsOf sid = []) {s : Stored}
    (hs : d.stored.newSession sid w true = some s) : Ok { d with stored := s } := by
  have hkeyed := (Stored.newSession_inOrder h.keyed hrows hs).1
  obtain ⟨registry,hstep,rfl⟩ := Option.map_eq_some_iff.mp hs
  simp only [Registry.step,Option.ite_none_right_eq_some,Option.some.injEq] at hstep
  obtain ⟨⟨hsid,hw⟩,rfl⟩ := hstep
  refine h.window hkeyed hw (fun sid' hne => AList.lookup_insert_ne hne) (fun v => ?_)
    (fun p v hp => ?_) fun _ => hrows
  · rw [Registry.windowsOf_of_lookup (AList.lookup_insert _),DaemonState.registry,
      Registry.windowsOf_of_none hsid]
    simp
  · obtain ⟨se,hse,-⟩ := hp
    exact absurd (hsid.symm.trans hse) (by simp)

theorem ok_newWindow (h : d.Ok) {name : Option String} {s : Stored}
    (hs : d.stored.step sid (.newWindow name w true) = some s) : Ok { d with stored := s } := by
  have hkeyed := h.keyed.step hs
  simp only [Stored.step] at hs
  split at hs
  · obtain rfl := Option.some.inj hs
    exact h
  · rename_i se hse
    obtain ⟨registry,hstep,rfl⟩ := Option.map_eq_some_iff.mp hs
    simp only [Registry.step,hse,Option.bind_some,Option.ite_none_right_eq_some,
      Option.some.injEq] at hstep
    obtain ⟨hw,rfl⟩ := hstep
    refine h.window hkeyed hw (fun sid' hne => AList.lookup_insert_ne hne) (fun v => ?_)
      (fun p v hp => ?_) fun hnone => absurd (hse.symm.trans hnone) (by simp)
    · rw [Registry.windowsOf_of_lookup (AList.lookup_insert _),DaemonState.registry,
        Registry.windowsOf_of_lookup hse]
      simp [SessionState.addWindow]
    · exact ⟨_,AList.lookup_insert _,(Registry.has_of_lookup hse).mp hp⟩

/-- A fresh pane is opened in a window of its session. -/
theorem Ok.opened (h : d.Ok) {s : Registry} (hi : s.Inv)
    (hdrawn : s.drawnWindows = d.registry.drawnWindows)
    (hlist : ∀ sid', s.windowsOf sid' = d.registry.windowsOf sid')
    (hlook : ∀ sid', s.sessions.lookup sid' ≠ none → d.registry.sessions.lookup sid' ≠ none)
    (hhas : ∀ sid' q v, d.registry.Has sid' q v → s.Has sid' q v)
    (hpane : ∀ sid' v, s.Has sid' p v → v ∈ s.windowsOf sid') : (d.openPane s p).Ok := by
  have hkeyed : (Stored.mk s d.rows).Keyed :=
    ⟨hi,h.keyed.rows,fun r hr => hdrawn ▸ h.keyed.drawn r hr⟩
  have hrows : ∀ r ∈ d.rows, s.sessions.lookup r.session ≠ none → r.id ∈ s.windowsOf r.session :=
    fun r hr hne => hlist r.session ▸ h.rows r hr (hlook r.session hne)
  have howned : ∀ r ∈ d.rows, ∀ sid', r.id ∈ s.windowsOf sid' → r.session = sid' :=
    fun r hr sid' hv => h.owned r hr sid' (hlist sid' ▸ hv)
  have hold : ∀ q sid' v, d.children.lookup q = some (sid',v) →
      s.Has sid' q v ∧ v ∈ s.windowsOf sid' := by
    intro q sid' v hq
    obtain ⟨hp,hv⟩ := h.children q sid' v hq
    exact ⟨hhas sid' q v hp,(hlist sid').symm ▸ hv⟩
  unfold openPane
  split
  · exact ⟨hkeyed,hrows,howned,hold⟩
  · rename_i sid se w hget
    obtain ⟨hse,hp⟩ := Registry.getPane_eq_some hget
    refine ⟨hkeyed,hrows,howned,fun q sid' v hq => ?_⟩
    rcases Table.lookup_insert_eq_some.mp hq with ⟨rfl,heq⟩ | ⟨-,hq⟩
    · obtain ⟨rfl,rfl⟩ := Prod.mk.inj heq
      exact ⟨⟨se,hse,hp⟩,hpane _ _ ⟨se,hse,hp⟩⟩
    · exact hold q sid' v hq

theorem Ok.fresh (h : d.Ok) {se se' : SessionState}
    (hse : d.registry.sessions.lookup sid = some se) (hw : w ∈ d.registry.windowsOf sid)
    (hp : p ∉ d.registry.drawnPanes)
    (hids : se'.windows.map WindowState.id = se.windows.map WindowState.id)
    (hpanes : ∀ q v, se'.panes.lookup q = some v ↔
      q = p ∧ v = w ∨ q ≠ p ∧ se.panes.lookup q = some v)
    (hi : Registry.Inv
      { d.registry.update sid se' with drawnPanes := p :: d.registry.drawnPanes }) :
    (d.openPane { d.registry.update sid se' with drawnPanes := p :: d.registry.drawnPanes } p).Ok := by
  have hlist := Registry.windowsOf_update hse hids
  have hnew : ∀ sid' v, ¬d.registry.Has sid' p v := by
    rintro sid' v ⟨se₀,hse₀,hv⟩
    exact hp ((h.keyed.inv.ok sid' se₀ hse₀).panes_drawn p v hv)
  refine h.opened hi rfl hlist (fun _ => Registry.lookup_update_ne_none hse) ?_ ?_
  · rintro sid' q v hq
    have hne : q ≠ p := by
      rintro rfl
      exact hnew sid' v hq
    obtain ⟨se₀,hse₀,hv⟩ := hq
    by_cases hsid : sid' = sid
    · subst hsid
      obtain rfl := Option.some.inj (hse.symm.trans hse₀)
      exact ⟨se',AList.lookup_insert _,(hpanes q v).mpr (Or.inr ⟨hne,hv⟩)⟩
    · exact ⟨se₀,(AList.lookup_insert_ne hsid).trans hse₀,hv⟩
  · rintro sid' v ⟨se₁,hse₁,hv⟩
    rcases Registry.lookup_update.mp hse₁ with ⟨rfl,rfl⟩ | ⟨-,hold⟩
    · rcases (hpanes p v).mp hv with ⟨-,rfl⟩ | ⟨hne,-⟩
      · exact (hlist _).symm ▸ hw
      · exact absurd rfl hne
    · exact absurd ⟨se₁,hold,hv⟩ (hnew sid' v)

theorem step_ok (d : DaemonState) (a : DaemonCall) (t : DaemonState) (h : d.Ok)
    (hstep : d.step a = some t) : t.Ok := by
  have hi := h.keyed.inv
  cases a with
  | newSession sid w =>
    simp only [step,Option.ite_none_right_eq_some,Option.map_eq_some_iff] at hstep
    obtain ⟨hrows,s,hs,rfl⟩ := hstep
    exact ok_newSession h hrows hs
  | newWindow sid name w =>
    obtain ⟨s,hs,rfl⟩ := Option.map_eq_some_iff.mp hstep
    exact ok_newWindow h hs
  | openPane sid w pane =>
    obtain ⟨s,hs,rfl⟩ := Option.map_eq_some_iff.mp hstep
    have hinv := Registry.step_inv _ _ _ hi hs
    obtain ⟨se,hse,win,htarget,hpane,rfl⟩ := Registry.of_openPane hs
    exact h.fresh hse (Registry.mem_windowsOf.mpr ⟨se,hse,SessionState.findWindow_target htarget⟩)
      hpane (Registry.ids_modifyLayout _ _ _) (fun q v => SessionState.lookup_openPane) hinv
  | openPaneSplit parent orient pane =>
    obtain ⟨s,hs,rfl⟩ := Option.map_eq_some_iff.mp hstep
    have hinv := Registry.step_inv _ _ _ hi hs
    obtain ⟨sid,se,w,hget,win,hwin,hpane,rfl⟩ := Registry.of_openPaneSplit hs
    obtain ⟨hse,-⟩ := Registry.getPane_eq_some hget
    rw [Registry.update_openPane] at hinv ⊢
    obtain rfl := SessionState.id_of_findWindow hwin
    exact h.fresh hse (Registry.mem_windowsOf.mpr ⟨se,hse,win,hwin⟩) hpane
      ((Registry.ids_modifyLayout _ _ _).trans (Registry.ids_modifyLayout _ _ _))
      (fun q v => SessionState.lookup_openPane) hinv
  | closePane pane =>
    obtain rfl := Option.some.inj hstep
    exact ok_closePane h pane
  | childExit pane =>
    simp only [step,Option.ite_none_right_eq_some,Option.some.injEq] at hstep
    obtain ⟨-,rfl⟩ := hstep
    refine ⟨h.keyed,h.rows,h.owned,fun p sid w hp => ?_⟩
    exact h.children p sid w (Table.lookup_erase_eq_some.mp hp).2
  | removePane pane =>
    simp only [step,Option.ite_none_right_eq_some,Option.some.injEq] at hstep
    obtain ⟨⟨hnone,-⟩,rfl⟩ := hstep
    exact ok_removePane h hnone
  | closeWindow w unkilled =>
    simp only [step,Option.ite_none_right_eq_some,Option.some.injEq] at hstep
    obtain ⟨hunkilled,rfl⟩ := hstep
    exact ok_closeWindow h hunkilled
  | closeSession sid =>
    obtain rfl := Option.some.inj hstep
    exact ok_closeSession h sid

/-! When the calls that close do so whole and alone. -/

/-- In whatever order the tasks of the panes run. -/
def GoesWhole (d : DaemonState) (a : DaemonCall) : Prop :=
  ∀ e, d.step a = some e → match a with
    | .closeWindow w _ => (d.registry.findWindow w).isSome → ∀ order : List PaneId, order.Nodup →
      (∀ p, p ∈ order ↔ d.InWindow w p) → d.holdings.Takes (e.wait order).holdings (d.windowPart w)
    | .closeSession sid => ∀ order : List PaneId, order.Nodup →
      (∀ p, p ∈ order ↔ d.InSession sid p) →
        d.holdings.Takes (e.wait order).holdings (d.sessionPart sid)
    | _ => True

/-- The condition on a call that closes. -/
def EndsWell (d : DaemonState) (a : DaemonCall) : Prop :=
  (d.step a).isSome → match a with
    | .closeWindow w _ => d.EndsAlone w
    | _ => True

theorem endsWell_iff (h : d.Ok) (a : DaemonCall) : d.EndsWell a ↔ d.GoesWhole a := by
  cases a with
  | closeWindow w unkilled =>
    have hstep : d.step (.closeWindow w unkilled) =
        if ∀ p ∈ unkilled, d.children.lookup p = none then some (d.closeWindow w unkilled)
        else none := rfl
    simp only [EndsWell,GoesWhole,hstep]
    split
    · rename_i hunkilled
      simp only [Option.isSome_some,forall_const,Option.some.injEq,forall_eq']
      constructor
      · intro hends hfound order _ horder
        obtain ⟨win,hwin⟩ := Option.isSome_iff_exists.mp hfound
        obtain ⟨sid,se,hse,hwin⟩ := (Registry.findWindow_iff h.keyed.inv).mp hwin
        have hw := Registry.mem_windowsOf.mpr ⟨se,hse,win,hwin⟩
        refine (takes_closeWindow_iff h hw hunkilled fun p => ?_).mpr hends
        exact (horder p).trans (inWindow_iff_of_listed h hw)
      · intro hwhole sid hw
        have horder : ∀ p, p ∈ (d.registry.windowPanes w).dedup ↔ d.registry.Has sid p w :=
          fun p => List.mem_dedup.trans (mem_windowPanes h hw)
        refine (takes_closeWindow_iff h hw hunkilled horder).mp
          (hwhole (Stored.findWindow_isSome hw) _ (List.nodup_dedup _) fun p => ?_) sid hw
        exact (horder p).trans (inWindow_iff_of_listed h hw).symm
    · simp
  | closeSession sid =>
    refine iff_of_true (fun _ => trivial) ?_
    rintro e hstep order - horder
    obtain rfl := Option.some.inj hstep
    exact takes_closeSession h sid fun p hp => (inSession_iff h).mp ((horder p).mp hp)
  | _ => exact iff_of_true (fun _ => trivial) fun _ _ => trivial

end DaemonState

end Pyre.Session
