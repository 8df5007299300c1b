import Pyre.Session.WindowOrder
import Pyre.Supervisor.WindowCache

/-!
The order of a session's windows where calls to make and to close them overlap. Each
call takes its locks one at a time, and between two of its steps others take theirs.
-/

set_option autoImplicit false

namespace Pyre.Supervisor
open Base

/-- A call on its way, with what it holds. `new_window` counts the windows, writes the
row, then the table of windows, then the list; `close_window` closes the panes, reads the
session, leaves the table, then the list, and deletes the row. -/
inductive Running where
  | counted (name : Option String) (w : WindowId) (position : UInt32)
  | stored (name : String) (w : WindowId) (position : UInt32)
  | known (w : WindowId)
  | closing (w : WindowId) (panes : List PaneId)
  | looked (w : WindowId) (session : Option SessionKey)
  | forgotten (w : WindowId) (session : Option SessionKey)
  | dropped (w : WindowId)
  deriving DecidableEq, Repr

namespace Running

def window : Running → WindowId
  | counted _ w _ | stored _ w _ | known w | closing w _ | looked w _ | forgotten w _
  | dropped w => w

/-- The call is a `new_window`. -/
def Makes : Running → Prop
  | counted .. | stored .. | known _ => True
  | _ => False

/-- The window has left the list, or is not yet in it, and its row is there. -/
def HasRow : Running → Prop
  | stored .. | known _ | dropped _ => True
  | _ => False

/-- The call will take the window from the list of the session. -/
def Drops (session : SessionKey) : Running → Prop
  | looked _ found | forgotten _ found => found = some session
  | _ => False

/-- The call will delete the row and leave the list of the session as it is. -/
def Astray (session : SessionKey) : Running → Prop
  | looked _ found | forgotten _ found => found ≠ some session
  | dropped _ => True
  | _ => False

end Running

/-- The tables and the calls on their way. -/
structure Overlapping where
  impl : SupervisorImpl
  running : List Running

inductive CallStep where
  | newWindow (name : Option String) (w : WindowId)
  | closeWindow (w : WindowId)
  | resume (call : Running) (written : Bool)
  deriving DecidableEq, Repr

namespace SupervisorImpl

def forgetWindow (s : SupervisorImpl) (w : WindowId) : SupervisorImpl :=
  { s with windowStore := s.windowStore.erase w }

def retainWindows (s : SupervisorImpl) (w : WindowId) : Option SessionKey → SupervisorImpl
  | none => s
  | some session =>
    match s.sessionWindows.lookup session with
    | none => s
    | some ws =>
      { s with sessionWindows := s.sessionWindows.insert session (ws.filter (· ≠ w)) }

/-- The next step of a call of the session; a write that fails ends the call. -/
def resume (session : SessionKey) (s : SupervisorImpl) (written : Bool) :
    Running → SupervisorImpl × Option Running
  | .counted name w position =>
    let name := name.getD (toString (position+1))
    if written then (s.upsertWindow w session name position,some (.stored name w position))
    else (s,none)
  | .stored name w position => (s.setMeta w ⟨session,name,position,none⟩,some (.known w))
  | .known w => (s.pushWindow session w,none)
  | .closing w (pane :: panes) => ((s.closeOnWorker pane).unassign pane,some (.closing w panes))
  | .closing w [] => (s,some (.looked w (s.sessionOf w)))
  | .looked w found => (s.forgetWindow w,some (.forgotten w found))
  | .forgotten w found => (s.retainWindows w found,some (.dropped w))
  | .dropped w => (if written then s.deleteWindow w else s,none)

def rowsOf (s : SupervisorImpl) (session : SessionKey) : List WindowRow :=
  s.windowRows.filter fun r => r.session = session

/-- No two windows are stored at one position, and sorted by it they come as in memory. -/
def InOrder (session : SessionKey) (s : SupervisorImpl) : Prop :=
  ((s.rowsOf session).map WindowRow.position).Nodup ∧
    (s.listWindows session).map WindowRow.id = s.windowsOf session

end SupervisorImpl

namespace Overlapping

def step (session : SessionKey) (s : Overlapping) : CallStep → Option Overlapping
  | .newWindow name w =>
    if s.impl.UnusedWindow w ∧ ∀ c ∈ s.running, c.window ≠ w then
      let position : UInt32 := .ofNat (s.impl.windowsOf session).length
      some { s with running := .counted name w position :: s.running }
    else none
  | .closeWindow w =>
    some { s with running := .closing w (s.impl.listPanesForWindow w) :: s.running }
  | .resume c written =>
    if c ∈ s.running then
      let (impl,next) := s.impl.resume session written c
      some ⟨impl,next.toList ++ s.running.erase c⟩
    else none

/-- No window is closed that is still being made, none is entered in the list unless its
position is beyond those of all others there, and no row stays. -/
def KeepsOrder (session : SessionKey) (s : Overlapping) : CallStep → Prop
  | .closeWindow w => ∀ c ∈ s.running, c.window = w → ¬c.Makes
  | .resume (.known w) _ => ∀ r ∈ s.impl.rowsOf session, r.id = w →
    ∀ r' ∈ s.impl.rowsOf session, r'.id ∈ s.impl.windowsOf session → r'.position < r.position
  | .resume (.dropped _) written => written = true
  | _ => True

/-- The windows are in order when all calls have returned. -/
def Settles (session : SessionKey) (s : Overlapping) : Prop :=
  s.running = [] → s.impl.InOrder session

end Overlapping

namespace SupervisorImpl

variable {s t : SupervisorImpl} {session : SessionKey} {v w : WindowId} {c : Running}
  {cs calls : List Running}

/-! A call by itself. -/

theorem dropWindow_eq (s : SupervisorImpl) (w : WindowId) :
    s.dropWindow w = (s.forgetWindow w).retainWindows w (s.sessionOf w) := rfl

theorem exec_closing (session : SessionKey) (s : SupervisorImpl) (w : WindowId)
    (panes : List PaneId) :
    ∃ steps, exec (Overlapping.step session) ⟨s,[.closing w panes]⟩ steps =
      some ⟨panes.foldl (fun s pane => (s.closeOnWorker pane).unassign pane) s,
        [.closing w []]⟩ := by
  induction panes generalizing s with
  | nil => exact ⟨[],rfl⟩
  | cons pane panes ih =>
    obtain ⟨steps,hsteps⟩ := ih ((s.closeOnWorker pane).unassign pane)
    refine ⟨.resume (.closing w (pane :: panes)) true :: steps,?_⟩
    rw [exec_cons,Overlapping.step,if_pos (List.mem_singleton_self _)]
    simpa [resume] using hsteps

/-- With no other call between its steps a call does what it does as one operation. -/
theorem exec_newWindow (hw : s.UnusedWindow w) (name : Option String) :
    ∃ steps, exec (Overlapping.step session) ⟨s,[]⟩ (.newWindow name w :: steps) =
      some ⟨s.newWindow session name w,[]⟩ := by
  let position : UInt32 := .ofNat (s.windowsOf session).length
  refine ⟨[.resume (.counted name w position) true,
    .resume (.stored (name.getD (toString (position+1))) w position) true,
    .resume (.known w) true],?_⟩
  simp [Overlapping.step,hw,resume,newWindow,position]

theorem exec_closeWindow (s : SupervisorImpl) (w : WindowId) :
    ∃ steps, exec (Overlapping.step session) ⟨s,[]⟩ (.closeWindow w :: steps) =
      some ⟨s.closeWindow w,[]⟩ := by
  obtain ⟨steps,hsteps⟩ := exec_closing session s w (s.listPanesForWindow w)
  let u := s.closePanesOf w
  refine ⟨steps ++ [.resume (.closing w []) true,.resume (.looked w (u.sessionOf w)) true,
    .resume (.forgotten w (u.sessionOf w)) true,.resume (.dropped w) true],?_⟩
  rw [exec_cons,Overlapping.step,Option.bind_some,exec_append,hsteps]
  simp [Overlapping.step,resume,closeWindow,dropWindow_eq,u,closePanesOf]

/-! What holds between the steps. -/

/-- A call that makes the window is alone with it, and has written what it says. -/
def Sound (session : SessionKey) (s : SupervisorImpl) (v : WindowId) : Running → Prop
  | .counted .. => v ∉ s.windowRows.map WindowRow.id
  | .stored .. => s.Stored session v
  | .known _ => s.Stored session v ∧ s.sessionOf v = some session
  | _ => True

/-- A window and the calls on their way for it. -/
structure Consistent (session : SessionKey) (s : SupervisorImpl) (v : WindowId)
    (cs : List Running) : Prop where
  listed : s.Stored session v → v ∈ s.windowsOf session ∨ ∃ c ∈ cs, c.HasRow
  kept : v ∈ s.windowsOf session → (∃ c ∈ cs, c.Drops session) ∨
    s.Stored session v ∧ s.sessionOf v = some session ∧ ∀ c ∈ cs, ¬c.Astray session
  made : ∀ c ∈ cs, c.Makes → cs = [c] ∧ v ∉ s.windowsOf session ∧ s.Sound session v c

def StoredAt (s : SupervisorImpl) (session : SessionKey) (v : WindowId) (p : UInt32) : Prop :=
  ∃ r ∈ s.windowRows, r.session = session ∧ r.id = v ∧ r.position = p

/-- All windows with the calls on their way; in the list the positions ascend. -/
structure Ordered (session : SessionKey) (s : SupervisorImpl) (calls : List Running) : Prop where
  keyed : (s.windowRows.map WindowRow.id).Nodup
  nodup : (s.windowsOf session).Nodup
  ascending : (s.windowsOf session).Pairwise fun v w =>
    ∀ p q, s.StoredAt session v p → s.StoredAt session w q → p < q
  each : ∀ v, s.Consistent session v (calls.filter fun c => c.window = v)

theorem Consistent.perm {cs' : List Running} (h : s.Consistent session v cs)
    (hperm : cs.Perm cs') : s.Consistent session v cs' where
  listed hstored := by
    rcases h.listed hstored with hv | ⟨c,hc,hrow⟩
    · exact Or.inl hv
    · exact Or.inr ⟨c,hperm.mem_iff.mp hc,hrow⟩
  kept hv := by
    rcases h.kept hv with ⟨c,hc,hdrops⟩ | ⟨hstored,hsession,hstray⟩
    · exact Or.inl ⟨c,hperm.mem_iff.mp hc,hdrops⟩
    · exact Or.inr ⟨hstored,hsession,fun c hc => hstray c (hperm.mem_iff.mpr hc)⟩
  made c hc hmakes := by
    obtain ⟨rfl,hrest⟩ := h.made c (hperm.mem_iff.mpr hc) hmakes
    exact ⟨List.perm_singleton.mp hperm.symm,hrest⟩

theorem Ordered.perm {calls' : List Running} (h : s.Ordered session calls)
    (hperm : calls.Perm calls') : s.Ordered session calls' :=
  ⟨h.keyed,h.nodup,h.ascending,fun v => (h.each v).perm (hperm.filter _)⟩

/-- What a step for another window leaves of this one. -/
structure SameAt (session : SessionKey) (s t : SupervisorImpl) (v : WindowId) : Prop where
  listed : v ∈ t.windowsOf session ↔ v ∈ s.windowsOf session
  stored : t.Stored session v ↔ s.Stored session v
  sessionOf : t.sessionOf v = s.sessionOf v
  ids : v ∈ t.windowRows.map WindowRow.id ↔ v ∈ s.windowRows.map WindowRow.id

theorem Consistent.congr (h : s.Consistent session v cs) (hsame : SameAt session s t v) :
    t.Consistent session v cs where
  listed hstored := (h.listed (hsame.stored.mp hstored)).imp_left hsame.listed.mpr
  kept hv := by
    rcases h.kept (hsame.listed.mp hv) with hdrops | ⟨hstored,hsession,hstray⟩
    · exact Or.inl hdrops
    · exact Or.inr ⟨hsame.stored.mpr hstored,hsame.sessionOf.trans hsession,hstray⟩
  made c hc hmakes := by
    obtain ⟨hone,hnot,hsound⟩ := h.made c hc hmakes
    refine ⟨hone,fun hv => hnot (hsame.listed.mp hv),?_⟩
    cases c with
    | counted => exact fun hid => hsound (hsame.ids.mp hid)
    | stored => exact hsame.stored.mpr hsound
    | known => exact ⟨hsame.stored.mpr hsound.1,hsame.sessionOf.trans hsound.2⟩
    | _ => trivial

theorem SameWindows.sameAt (h : s.SameWindows t) (session : SessionKey) (v : WindowId) :
    SameAt session s t v where
  listed := by rw [windowsOf,windowsOf,h.sessionWindows]
  stored := h.stored session v
  sessionOf := h.sessionOf v
  ids := by rw [h.ids]

theorem SameAt.refl (s : SupervisorImpl) (session : SessionKey) (v : WindowId) :
    SameAt session s s v := ⟨Iff.rfl,Iff.rfl,rfl,Iff.rfl⟩

theorem filter_window {o : Option Running} (h : ∀ c ∈ o, c.window = w) (v : WindowId) :
    o.toList.filter (fun c => c.window = v) = if w = v then o.toList else [] := by
  cases o with
  | none => simp
  | some c =>
    obtain rfl := h c rfl
    by_cases heq : c.window = v <;> simp [heq]

theorem ascending_mono (h : s.Ordered session calls)
    (hsub : (t.windowsOf session).Sublist (s.windowsOf session))
    (hstored : ∀ v ∈ t.windowsOf session, ∀ p, t.StoredAt session v p → s.StoredAt session v p) :
    (t.windowsOf session).Pairwise fun v w =>
      ∀ p q, t.StoredAt session v p → t.StoredAt session w q → p < q :=
  (h.ascending.sublist hsub).imp_of_mem fun {v w} hv hw hlt p q hp hq =>
    hlt p q (hstored v hv p hp) (hstored w hw q hq)

theorem Ordered.own (old : Option Running) (w : WindowId)
    (h : s.Ordered session (old.toList ++ calls))
    (hold : ∀ c ∈ old, c.window = w) :
    s.Consistent session w (old.toList ++ calls.filter fun c => c.window = w) := by
  have hw := h.each w
  rwa [List.filter_append,filter_window hold,if_pos rfl] at hw

/-- A step for the window `w` takes its call from `old` to `next`. -/
theorem Ordered.advance (old next : Option Running) (w : WindowId)
    (h : s.Ordered session (old.toList ++ calls))
    (hold : ∀ c ∈ old, c.window = w) (hnext : ∀ c ∈ next, c.window = w)
    (hkeyed : (t.windowRows.map WindowRow.id).Nodup) (hnodup : (t.windowsOf session).Nodup)
    (hascending : (t.windowsOf session).Pairwise fun v w =>
      ∀ p q, t.StoredAt session v p → t.StoredAt session w q → p < q)
    (hothers : ∀ v, v ≠ w → SameAt session s t v)
    (hown : t.Consistent session w (next.toList ++ calls.filter fun c => c.window = w)) :
    t.Ordered session (next.toList ++ calls) := by
  refine ⟨hkeyed,hnodup,hascending,fun v => ?_⟩
  have hv := h.each v
  rw [List.filter_append,filter_window hold] at hv
  rw [List.filter_append,filter_window hnext]
  by_cases heq : w = v
  · subst heq
    rwa [if_pos rfl]
  · rw [if_neg heq] at hv ⊢
    exact hv.congr (hothers v (Ne.symm heq))

/-! The steps. -/

theorem stored_iff_id (session : SessionKey) {r : WindowRow}
    (hrows : t.windowRows = s.windowRows ++ [r])
    (hv : v ≠ r.id) :
    (t.Stored session v ↔ s.Stored session v) ∧
      (∀ p, t.StoredAt session v p → s.StoredAt session v p) ∧
      (v ∈ t.windowRows.map WindowRow.id ↔ v ∈ s.windowRows.map WindowRow.id) := by
  have hne : ¬r.id = v := Ne.symm hv
  simp only [Stored,StoredAt,hrows,List.mem_append,List.mem_singleton,List.map_append,
    List.map_cons,List.map_nil]
  refine ⟨?_,?_,or_iff_left (by simpa using hv)⟩
  · constructor
    · rintro ⟨r',hr' | rfl,hsession,hid⟩
      · exact ⟨r',hr',hsession,hid⟩
      · exact absurd hid hne
    · rintro ⟨r',hr',hrest⟩
      exact ⟨r',Or.inl hr',hrest⟩
  · rintro p ⟨r',hr' | rfl,hsession,hid,hp⟩
    · exact ⟨r',hr',hsession,hid,hp⟩
    · exact absurd hid hne

/-- A call that makes a window is the only one for it. -/
theorem Ordered.made (h : s.Ordered session (c :: calls)) (hc : c.Makes) (hw : c.window = w) :
    calls.filter (fun d => d.window = w) = [] ∧ w ∉ s.windowsOf session ∧ s.Sound session w c := by
  have hown := Ordered.own (some c) w h (by simp [hw])
  obtain ⟨hone,hrest⟩ := hown.made c (by simp) hc
  exact ⟨(List.cons.inj hone).2,hrest⟩

theorem ordered_counted (name : Option String) (w : WindowId) (position : UInt32)
    (h : s.Ordered session (.counted name w position :: calls)) (written : Bool) :
    let after := s.resume session written (.counted name w position)
    after.1.Ordered session (after.2.toList ++ calls) := by
  obtain ⟨halone,hnot,hunused⟩ := h.made (w := w) trivial rfl
  have hold : ∀ c ∈ some (Running.counted name w position), c.window = w := by simp [Running.window]
  cases written with
  | false =>
    refine Ordered.advance (some _) none w h hold (by simp) h.keyed h.nodup h.ascending
      (fun v _ => .refl s session v) ?_
    rw [halone]
    refine ⟨?_,fun hw => absurd hw hnot,by simp⟩
    rintro ⟨r,hr,-,hid⟩
    exact absurd (List.mem_map.mpr ⟨r,hr,hid⟩) hunused
  | true =>
    let row : WindowRow := ⟨w,session,name.getD (toString (position+1)),position,none⟩
    have hrows : (s.resume session true (.counted name w position)).1.windowRows =
        s.windowRows ++ [row] := rfl
    refine Ordered.advance (some _) (some (.stored _ w _)) w h hold
      (by simp [Running.window]) ?_ h.nodup ?_ (fun v hv => ?_) ?_
    · rw [hrows,List.map_append]
      exact h.keyed.append (List.nodup_singleton w) (List.disjoint_singleton.mpr hunused)
    · refine ascending_mono h (.refl _) fun v hv p hp => ?_
      refine (stored_iff_id session hrows ?_).2.1 p hp
      rintro rfl
      exact hnot hv
    · obtain ⟨hstored,-,hids⟩ := stored_iff_id session hrows hv
      exact ⟨Iff.rfl,hstored,rfl,hids⟩
    · rw [halone]
      have hstored : (s.resume session true (.counted name w position)).1.Stored session w :=
        ⟨row,by simp [hrows],rfl,rfl⟩
      refine ⟨fun _ => Or.inr ⟨_,List.mem_singleton_self _,trivial⟩,fun hw => absurd hw hnot,?_⟩
      rintro c hc -
      obtain rfl := List.mem_singleton.mp hc
      exact ⟨rfl,hnot,hstored⟩

theorem ordered_stored (name : String) (w : WindowId) (position : UInt32)
    (h : s.Ordered session (.stored name w position :: calls)) :
    (s.setMeta w ⟨session,name,position,none⟩).Ordered session (.known w :: calls) := by
  obtain ⟨halone,hnot,hstored⟩ := h.made (w := w) trivial rfl
  refine Ordered.advance (some (.stored name w position)) (some (.known w)) w
    h (by simp [Running.window]) (by simp [Running.window]) h.keyed h.nodup h.ascending
    (fun v hv => ⟨Iff.rfl,Iff.rfl,?_,Iff.rfl⟩) ?_
  · rw [sessionOf,lookup_setMeta_ne hv,sessionOf]
  · rw [halone]
    refine ⟨fun _ => Or.inr ⟨_,List.mem_singleton_self _,trivial⟩,fun hw => absurd hw hnot,?_⟩
    rintro c hc -
    obtain rfl := List.mem_singleton.mp hc
    refine ⟨rfl,hnot,hstored,?_⟩
    rw [sessionOf,lookup_setMeta_self]
    rfl

/-- The window enters the list behind all others. -/
theorem ordered_known (w : WindowId) (h : s.Ordered session (.known w :: calls))
    (hlast : ∀ v ∈ s.windowsOf session, ∀ p q, s.StoredAt session v p →
      s.StoredAt session w q → p < q) :
    (s.pushWindow session w).Ordered session calls := by
  obtain ⟨halone,hnot,hstored,hsession⟩ := h.made (w := w) trivial rfl
  have hpushed := windowsOf_pushWindow s session w
  refine Ordered.advance (some (.known w)) none w h
    (by simp [Running.window]) (by simp) h.keyed ?_ ?_ (fun v hv => ⟨?_,Iff.rfl,rfl,Iff.rfl⟩) ?_
  · rw [hpushed]
    exact h.nodup.append (List.nodup_singleton w) (List.disjoint_singleton.mpr hnot)
  · rw [hpushed]
    refine List.pairwise_append.mpr ⟨h.ascending,List.pairwise_singleton _ _,?_⟩
    intro v hv w' hw'
    obtain rfl := List.mem_singleton.mp hw'
    exact hlast v hv
  · rw [hpushed,List.mem_append,List.mem_singleton]
    exact or_iff_left hv
  · rw [halone]
    exact ⟨fun _ => Or.inl (by simp [hpushed]),fun _ => Or.inr ⟨hstored,hsession,by simp⟩,by simp⟩

/-- Beside a call that closes the window none makes it. -/
theorem Consistent.closes (h : s.Consistent session v (c :: cs)) (hc : ¬c.Makes) :
    ∀ d ∈ cs, ¬d.Makes := by
  intro d hd hmakes
  obtain ⟨hone,-⟩ := h.made d (List.mem_cons_of_mem _ hd) hmakes
  obtain rfl := (List.cons.inj hone).1
  exact hc hmakes

theorem no_maker (hc : ¬c.Makes) (hclear : ∀ d ∈ cs, ¬d.Makes) : ∀ d ∈ c :: cs, ¬d.Makes :=
  List.forall_mem_cons.mpr ⟨hc,hclear⟩

/-- A call has taken note of what it closes. -/
theorem Consistent.begin (h : s.Consistent session v cs) (hclear : ∀ d ∈ cs, ¬d.Makes)
    (panes : List PaneId) : s.Consistent session v (.closing w panes :: cs) where
  listed hstored := by
    rcases h.listed hstored with hv | ⟨d,hd,hrow⟩
    · exact Or.inl hv
    · exact Or.inr ⟨d,List.mem_cons_of_mem _ hd,hrow⟩
  kept hv := by
    rcases h.kept hv with ⟨d,hd,hdrops⟩ | ⟨hstored,hsession,hstray⟩
    · exact Or.inl ⟨d,List.mem_cons_of_mem _ hd,hdrops⟩
    · exact Or.inr ⟨hstored,hsession,List.forall_mem_cons.mpr ⟨id,hstray⟩⟩
  made d hd hmakes := by
    exact absurd hmakes (no_maker id hclear d hd)

theorem Consistent.forget_closing {panes : List PaneId}
    (h : s.Consistent session v (.closing w panes :: cs)) : s.Consistent session v cs where
  listed hstored := by
    rcases h.listed hstored with hv | ⟨d,hd,hrow⟩
    · exact Or.inl hv
    · rcases List.mem_cons.mp hd with rfl | hd
      · exact absurd hrow id
      · exact Or.inr ⟨d,hd,hrow⟩
  kept hv := by
    rcases h.kept hv with ⟨d,hd,hdrops⟩ | ⟨hstored,hsession,hstray⟩
    · rcases List.mem_cons.mp hd with rfl | hd
      · exact absurd hdrops id
      · exact Or.inl ⟨d,hd,hdrops⟩
    · exact Or.inr ⟨hstored,hsession,(List.forall_mem_cons.mp hstray).2⟩
  made d hd hmakes := absurd hmakes (h.closes id d hd)

theorem ordered_begin (w : WindowId) (h : s.Ordered session calls)
    (hclear : ∀ c ∈ calls, c.window = w → ¬c.Makes) (panes : List PaneId) :
    s.Ordered session (.closing w panes :: calls) := by
  refine Ordered.advance none (some (.closing w panes)) w h (by simp)
    (by simp [Running.window]) h.keyed h.nodup h.ascending (fun v _ => .refl s session v) ?_
  refine Consistent.begin (h.each w) (fun c hc => ?_) panes
  obtain ⟨hmem,hw⟩ := List.mem_filter.mp hc
  exact hclear c hmem (by simpa using hw)

/-- The panes of the window are closed, by which no window changes. -/
theorem ordered_closing (w : WindowId) {panes rest : List PaneId} (hsame : s.SameWindows t)
    (h : s.Ordered session (.closing w panes :: calls)) :
    t.Ordered session (.closing w rest :: calls) := by
  have hlist : t.windowsOf session = s.windowsOf session := by
    rw [windowsOf,windowsOf,hsame.sessionWindows]
  have hown := Ordered.own (some (.closing w panes)) w h (by simp [Running.window])
  refine Ordered.advance (some (.closing w panes)) (some (.closing w rest)) w
    h (by simp [Running.window]) (by simp [Running.window]) (hsame.ids ▸ h.keyed)
    (hlist ▸ h.nodup) ?_ (fun v _ => hsame.sameAt session v) ?_
  · refine ascending_mono h (hlist ▸ .refl _) fun v _ p hp => ?_
    exact (hsame.stored_at session v p).mp hp
  · exact (hown.forget_closing.begin (hown.closes id) rest).congr (hsame.sameAt session w)

/-- The session of the window is read: whoever does not find it is not the first. -/
theorem ordered_look (w : WindowId) (h : s.Ordered session (.closing w [] :: calls)) :
    s.Ordered session (.looked w (s.sessionOf w) :: calls) := by
  have hown := Ordered.own (some (.closing w [])) w h (by simp [Running.window])
  refine Ordered.advance (some (.closing w [])) (some (.looked w (s.sessionOf w))) w h
    (by simp [Running.window]) (by simp [Running.window]) h.keyed h.nodup h.ascending
    (fun v _ => .refl s session v) ?_
  have hclear := hown.closes id
  replace hown := hown.forget_closing
  set cs := calls.filter fun c => c.window = w
  refine ⟨fun hstored => ?_,fun hw => ?_,fun d hd hmakes => ?_⟩
  · rcases hown.listed hstored with hw | ⟨d,hd,hrow⟩
    · exact Or.inl hw
    · exact Or.inr ⟨d,List.mem_cons_of_mem _ hd,hrow⟩
  · left
    rcases hown.kept hw with ⟨d,hd,hdrops⟩ | ⟨-,hsession,-⟩
    · exact ⟨d,List.mem_cons_of_mem _ hd,hdrops⟩
    · exact ⟨_,List.mem_cons_self,hsession⟩
  · exact absurd hmakes (no_maker id hclear d hd)

/-- Where the window stays in the list, another call takes it from there. -/
theorem Consistent.another (h : s.Consistent session v (c :: cs)) (hc : c.Astray session)
    (hdrops : ¬c.Drops session) (hv : v ∈ s.windowsOf session) : ∃ d ∈ cs, d.Drops session := by
  rcases h.kept hv with ⟨d,hd,hd'⟩ | ⟨-,-,hstray⟩
  · rcases List.mem_cons.mp hd with rfl | hd
    · exact absurd hd' hdrops
    · exact ⟨d,hd,hd'⟩
  · exact absurd hc (hstray c List.mem_cons_self)

theorem ordered_looked (w : WindowId) (found : Option SessionKey)
    (h : s.Ordered session (.looked w found :: calls)) :
    (s.forgetWindow w).Ordered session (.forgotten w found :: calls) := by
  have hown := Ordered.own (some (.looked w found)) w h (by simp [Running.window])
  refine Ordered.advance (some (.looked w found)) (some (.forgotten w found)) w h
    (by simp [Running.window]) (by simp [Running.window]) h.keyed h.nodup h.ascending
    (fun v hv => ⟨Iff.rfl,Iff.rfl,?_,Iff.rfl⟩) ?_
  · rw [sessionOf,forgetWindow,AList.lookup_erase_ne hv,sessionOf]
  have hclear := hown.closes id
  set cs := calls.filter fun c => c.window = w
  refine ⟨fun hstored => ?_,fun hw => ?_,fun d hd hmakes => ?_⟩
  · rcases hown.listed hstored with hw | ⟨d,hd,hrow⟩
    · exact Or.inl hw
    · rcases List.mem_cons.mp hd with rfl | hd
      · exact absurd hrow id
      · exact Or.inr ⟨d,List.mem_cons_of_mem _ hd,hrow⟩
  · left
    by_cases hfound : found = some session
    · exact ⟨_,List.mem_cons_self,hfound⟩
    · obtain ⟨d,hd,hdrops⟩ := hown.another hfound hfound hw
      exact ⟨d,List.mem_cons_of_mem _ hd,hdrops⟩
  · exact absurd hmakes (no_maker id hclear d hd)

theorem windowsOf_retainWindows (s : SupervisorImpl) (session : SessionKey) (w : WindowId) :
    (s.retainWindows w (some session)).windowsOf session =
      (s.windowsOf session).filter (· ≠ w) := by
  cases hws : s.sessionWindows.lookup session with
  | none => simp [retainWindows,hws,windowsOf]
  | some ws => simp [retainWindows,hws,windowsOf]

theorem windowsOf_retainWindows_ne {found : Option SessionKey} (h : found ≠ some session)
    (s : SupervisorImpl) (w : WindowId) :
    (s.retainWindows w found).windowsOf session = s.windowsOf session := by
  cases found with
  | none => rfl
  | some other =>
    have hne : session ≠ other := fun heq => h (heq ▸ rfl)
    simp only [retainWindows]
    split
    · rfl
    · rw [windowsOf,windowsOf,AList.lookup_insert_ne hne]

theorem retainWindows_fields (s : SupervisorImpl) (w : WindowId) (found : Option SessionKey) :
    (s.retainWindows w found).windowRows = s.windowRows ∧
      (s.retainWindows w found).windowStore = s.windowStore := by
  cases found with
  | none => exact ⟨rfl,rfl⟩
  | some other =>
    simp only [retainWindows]
    split <;> exact ⟨rfl,rfl⟩

theorem ordered_forgotten (w : WindowId) (found : Option SessionKey)
    (h : s.Ordered session (.forgotten w found :: calls)) :
    (s.retainWindows w found).Ordered session (.dropped w :: calls) := by
  have hown := Ordered.own (some (.forgotten w found)) w h (by simp [Running.window])
  obtain ⟨hrows,hstore⟩ := retainWindows_fields s w found
  have hlist : found = some session ∧ (s.retainWindows w found).windowsOf session =
      (s.windowsOf session).filter (· ≠ w) ∨
      found ≠ some session ∧ (s.retainWindows w found).windowsOf session = s.windowsOf session := by
    by_cases hfound : found = some session
    · exact Or.inl ⟨hfound,hfound ▸ windowsOf_retainWindows s session w⟩
    · exact Or.inr ⟨hfound,windowsOf_retainWindows_ne hfound s w⟩
  have hsub : ((s.retainWindows w found).windowsOf session).Sublist (s.windowsOf session) := by
    rcases hlist with ⟨-,hlist⟩ | ⟨-,hlist⟩
    · exact hlist ▸ List.filter_sublist
    · rw [hlist]
  have hstored : ∀ v, (s.retainWindows w found).Stored session v ↔ s.Stored session v := by
    intro v
    rw [Stored,Stored,hrows]
  refine Ordered.advance (some (.forgotten w found)) (some (.dropped w)) w
    h (by simp [Running.window]) (by simp [Running.window]) (hrows ▸ h.keyed) (h.nodup.sublist hsub)
    (ascending_mono h hsub fun v _ p hp => by rwa [StoredAt,hrows] at hp)
    (fun v hv => ⟨?_,hstored v,by rw [sessionOf,sessionOf,hstore],by rw [hrows]⟩) ?_
  · rcases hlist with ⟨-,hlist⟩ | ⟨-,hlist⟩
    · simp [hlist,hv]
    · rw [hlist]
  have hclear := hown.closes id
  set cs := calls.filter fun c => c.window = w
  refine ⟨fun _ => Or.inr ⟨_,List.mem_cons_self,trivial⟩,fun hw => ?_,fun d hd hmakes => ?_⟩
  · left
    rcases hlist with ⟨-,hlist⟩ | ⟨hfound,hlist⟩ <;> rw [hlist] at hw
    · simp at hw
    · obtain ⟨d,hd,hdrops⟩ := hown.another hfound hfound hw
      exact ⟨d,List.mem_cons_of_mem _ hd,hdrops⟩
  · exact absurd hmakes (no_maker id hclear d hd)

theorem ordered_dropped (w : WindowId) (h : s.Ordered session (.dropped w :: calls)) :
    (s.deleteWindow w).Ordered session calls := by
  have hown := Ordered.own (some (.dropped w)) w h (by simp [Running.window])
  have hrows : ∀ r, r ∈ (s.deleteWindow w).windowRows ↔ r ∈ s.windowRows ∧ r.id ≠ w := by
    simp [deleteWindow]
  have hgone : ¬(s.deleteWindow w).Stored session w := by
    rintro ⟨r,hr,-,hid⟩
    exact ((hrows r).mp hr).2 hid
  refine Ordered.advance (some (.dropped w)) none w h
    (by simp [Running.window]) (by simp) (h.keyed.sublist (List.filter_sublist.map _)) h.nodup
    (ascending_mono h (.refl _) ?_) (fun v hv => ⟨Iff.rfl,?_,rfl,?_⟩) ?_
  · rintro v - p ⟨r,hr,hrest⟩
    exact ⟨r,((hrows r).mp hr).1,hrest⟩
  · constructor
    · rintro ⟨r,hr,hrest⟩
      exact ⟨r,((hrows r).mp hr).1,hrest⟩
    · rintro ⟨r,hr,hsession,hid⟩
      exact ⟨r,(hrows r).mpr ⟨hr,hid.trans_ne hv⟩,hsession,hid⟩
  · simp only [List.mem_map]
    constructor
    · rintro ⟨r,hr,hid⟩
      exact ⟨r,((hrows r).mp hr).1,hid⟩
    · rintro ⟨r,hr,hid⟩
      exact ⟨r,(hrows r).mpr ⟨hr,hid.trans_ne hv⟩,hid⟩
  have hclear := hown.closes id
  refine ⟨fun hstored => absurd hstored hgone,fun hw => Or.inl ?_,fun d hd hmakes => ?_⟩
  · exact hown.another trivial id hw
  · exact absurd hmakes (hclear d hd)

theorem mem_rowsOf {r : WindowRow} :
    r ∈ s.rowsOf session ↔ r ∈ s.windowRows ∧ r.session = session := by simp [rowsOf]

theorem inOrder_iff : s.InOrder session ↔
    Ranked WindowRow.position WindowRow.id (s.rowsOf session) (s.windowsOf session) :=
  (ranked_iff fun _ _ => UInt32.le_antisymm).symm

/-- An id stands for one row, and the windows of the session are known to be its own. -/
structure Tracked (session : SessionKey) (s : SupervisorImpl) : Prop where
  keyed : (s.windowRows.map WindowRow.id).Nodup
  known : ∀ v ∈ s.windowsOf session, s.sessionOf v = some session

theorem stored_iff_rowsOf : s.Stored session v ↔ ∃ r ∈ s.rowsOf session, r.id = v := by
  simp only [Stored,mem_rowsOf,and_assoc]

theorem nodup_rowsOf (h : (s.windowRows.map WindowRow.id).Nodup) (session : SessionKey) :
    ((s.rowsOf session).map WindowRow.id).Nodup := h.sublist (List.filter_sublist.map _)

theorem storedAt_pairwise {ws : List WindowId} :
    (ws.Pairwise fun v w => ∀ p q, s.StoredAt session v p → s.StoredAt session w q → p < q) ↔
      ws.Pairwise fun v w => ∀ a ∈ s.rowsOf session, a.id = v → ∀ b ∈ s.rowsOf session, b.id = w →
        ¬b.position ≤ a.position := by
  refine List.Pairwise.iff fun v w => ?_
  simp only [StoredAt,mem_rowsOf,UInt32.not_le]
  constructor
  · rintro h a ⟨ha,hsession⟩ hv b ⟨hb,hsession'⟩ hw
    exact h _ _ ⟨a,ha,hsession,hv,rfl⟩ ⟨b,hb,hsession',hw,rfl⟩
  · rintro h p q ⟨a,ha,hsession,hv,rfl⟩ ⟨b,hb,hsession',hw,rfl⟩
    exact h a ⟨ha,hsession⟩ hv b ⟨hb,hsession'⟩ hw

theorem Tracked.ordered (h : s.Tracked session) (hs : s.InOrder session) :
    s.Ordered session [] := by
  rw [inOrder_iff] at hs
  have hrows := nodup_rowsOf h.keyed session
  refine ⟨h.keyed,hs.perm_labels.nodup_iff.mp hrows,storedAt_pairwise.mpr (hs.pairwise hrows),
    fun v => ⟨fun hstored => Or.inl ?_,fun hv => Or.inr ⟨?_,h.known v hv,by simp⟩,by simp⟩⟩
  · exact hs.mem_labels.mpr (stored_iff_rowsOf.mp hstored)
  · exact stored_iff_rowsOf.mpr (hs.mem_labels.mp hv)

/-- With no call on its way what is stored is what is listed. -/
theorem Ordered.inOrder (h : s.Ordered session []) : s.InOrder session := by
  rw [inOrder_iff]
  refine .of_pairwise (nodup_rowsOf h.keyed session) h.nodup (fun v => ?_)
    (storedAt_pairwise.mp h.ascending)
  rw [← stored_iff_rowsOf]
  constructor
  · intro hv
    rcases (h.each v).kept hv with ⟨c,hc,-⟩ | ⟨hstored,-⟩
    · exact absurd hc (by simp)
    · exact hstored
  · intro hstored
    rcases (h.each v).listed hstored with hv | ⟨c,hc,-⟩
    · exact hv
    · exact absurd hc (by simp)

end SupervisorImpl

namespace Overlapping
open SupervisorImpl

variable {s t : Overlapping} {session : SessionKey}

/-- Every step that meets the condition keeps the windows ordered. -/
theorem ordered_step {a : CallStep} (h : s.impl.Ordered session s.running)
    (hkeeps : s.KeepsOrder session a) (ht : s.step session a = some t) :
    t.impl.Ordered session t.running := by
  cases a with
  | newWindow name w =>
    simp only [step,Option.ite_none_right_eq_some,Option.some.injEq] at ht
    obtain ⟨⟨⟨hunknown,hunused⟩,hfree⟩,rfl⟩ := ht
    have hnone : s.running.filter (fun c => c.window = w) = [] := by
      refine List.filter_eq_nil_iff.mpr fun c hc => ?_
      simpa using hfree c hc
    have hw := h.each w
    rw [hnone] at hw
    have hnot : w ∉ s.impl.windowsOf session := by
      intro hmem
      rcases hw.kept hmem with ⟨c,hc,-⟩ | ⟨-,hsession,-⟩
      · cases hc
      · simp [sessionOf,hunknown] at hsession
    have hnorow : w ∉ s.impl.windowRows.map WindowRow.id := by
      intro hmem
      obtain ⟨r,hr,hid⟩ := List.mem_map.mp hmem
      exact hunused r hr hid
    refine Ordered.advance none (some (.counted name w _)) w h (by simp)
      (by simp [Running.window]) h.keyed h.nodup h.ascending (fun v _ => .refl s.impl session v) ?_
    rw [hnone]
    refine ⟨?_,fun hmem => absurd hmem hnot,?_⟩
    · rintro ⟨r,hr,-,hid⟩
      exact absurd hid (hunused r hr)
    · rintro c hc -
      obtain rfl := List.mem_singleton.mp hc
      exact ⟨rfl,hnot,hnorow⟩
  | closeWindow w =>
    obtain rfl := Option.some.inj ht
    exact ordered_begin w h hkeeps _
  | resume c written =>
    simp only [step,Option.ite_none_right_eq_some] at ht
    obtain ⟨hc,ht⟩ := ht
    obtain rfl := Option.some.inj ht
    replace h := h.perm (List.perm_cons_erase hc)
    cases c with
    | counted name w position => exact ordered_counted name w position h written
    | stored name w position => exact ordered_stored name w position h
    | known w =>
      refine ordered_known w h ?_
      rintro v hv p q ⟨a,ha,hsession,rfl,rfl⟩ ⟨b,hb,hsession',hw,rfl⟩
      exact hkeeps b (mem_rowsOf.mpr ⟨hb,hsession'⟩) hw a (mem_rowsOf.mpr ⟨ha,hsession⟩) hv
    | closing w panes =>
      cases panes with
      | nil => exact ordered_look w h
      | cons pane panes =>
        have hunassign : (s.impl.closeOnWorker pane).SameWindows
            ((s.impl.closeOnWorker pane).unassign pane) := .of_panes rfl rfl rfl
        exact ordered_closing w ((SameWindows.closeOnWorker s.impl pane).trans hunassign) h
    | looked w found => exact ordered_looked w found h
    | forgotten w found => exact ordered_forgotten w found h
    | dropped w =>
      obtain rfl : written = true := hkeeps
      exact ordered_dropped w h

/-- Calls overlap, and once none is on its way the windows are in order. -/
theorem settles_always {s : SupervisorImpl} (h : s.Tracked session) (hs : s.InOrder session)
    {steps : List CallStep} (hall : Along (step session) (KeepsOrder session) ⟨s,[]⟩ steps) :
    Always (step session) (Settles session) ⟨s,[]⟩ steps := by
  refine (hall.invariant (I := fun s => s.impl.Ordered session s.running)
    (fun s a t hI hkeeps ht => ordered_step hI hkeeps ht) (h.ordered hs)).mono ?_
  intro t ht hidle
  rw [hidle] at ht
  exact ht.inOrder

/-- In either mode the order of the windows in the store is that in memory as long as no
window is entered unless its position is beyond all others, no row is left behind, and
no window is closed before it is made. -/
theorem window_order_kept {sid : SessionId} {stored : Session.Stored} (hkeyed : stored.Keyed)
    (hstored : stored.InOrder sid) (calls : List Session.WindowCall) {s : SupervisorImpl}
    (h : s.Tracked session) (hs : s.InOrder session) (steps : List CallStep) :
    (Along (Session.Stored.step sid)
      (fun s a => (s.step sid a).isSome → s.KeepsOrder sid a) stored calls ↔
        Always (Session.Stored.step sid) (Session.Stored.InOrder sid) stored calls) ∧
      (Along (step session) (KeepsOrder session) ⟨s,[]⟩ steps →
        Always (step session) (Settles session) ⟨s,[]⟩ steps) :=
  ⟨Session.Stored.inOrder_always_iff hkeyed hstored calls,settles_always h hs⟩

/-- A session with its default window, in the supervisor. -/
def oneWindow : SupervisorImpl where
  index := .empty
  workers := ∅
  windowStore := AList.singleton ⟨1⟩ ⟨"s","1",0,none⟩
  sessionWindows := AList.singleton "s" [⟨1⟩]
  paneWindowMap := ∅
  windowRows := [⟨⟨1⟩,"s","1",0,none⟩]
  paneRows := ∅

theorem inOrder_oneWindow : oneWindow.Tracked "s" ∧ oneWindow.InOrder "s" := by
  refine ⟨⟨by decide,fun v hv => ?_⟩,by decide,by decide⟩
  obtain rfl := List.mem_singleton.mp hv
  rfl

theorem window_order_kept_oneWindow :
    Always (Session.Stored.step ⟨1⟩) (Session.Stored.InOrder ⟨1⟩) Session.Stored.oneSession
        [.newWindow none ⟨2⟩ true] ∧
      Always (step "s") (Settles "s") ⟨oneWindow,[]⟩
        [.newWindow none ⟨2⟩,.closeWindow ⟨1⟩,.resume (.closing ⟨1⟩ []) true] := by
  have hone := Session.Stored.inOrder_oneSession
  obtain ⟨hsingle,hhybrid⟩ := window_order_kept hone.1 hone.2 [.newWindow none ⟨2⟩ true]
    inOrder_oneWindow.1 inOrder_oneWindow.2
    [.newWindow none ⟨2⟩,.closeWindow ⟨1⟩,.resume (.closing ⟨1⟩ []) true]
  refine ⟨hsingle.mp ⟨fun _ _ => ⟨rfl,by decide⟩,fun _ _ => trivial⟩,?_⟩
  refine hhybrid ⟨trivial,fun s hs => ⟨?_,fun t _ => ⟨trivial,fun _ _ => trivial⟩⟩⟩
  obtain rfl := Option.some.inj hs
  intro c hc hw
  obtain rfl := List.mem_singleton.mp hc
  exact absurd hw (by decide)

/-- The first of two windows is closed and the next gets the position of the second; or
two are made at once, and both get the same. -/
theorem windows_share_position :
    (¬∀ (sid : SessionId) (s : Session.Stored), s.Keyed → s.InOrder sid →
      ∀ calls : List Session.WindowCall,
        Always (Session.Stored.step sid) (Session.Stored.InOrder sid) s calls) ∧
      ¬∀ (session : SessionKey) (s : SupervisorImpl), s.Tracked session → s.InOrder session →
        ∀ steps : List CallStep, Always (step session) (Settles session) ⟨s,[]⟩ steps := by
  constructor
  · intro h
    have hone := Session.Stored.inOrder_oneSession
    have hrun := h ⟨1⟩ _ hone.1 hone.2
      [.newWindow none ⟨2⟩ true,.closeWindow ⟨1⟩ [] true,.newWindow none ⟨3⟩ true]
    have hlast := hrun.last rfl
    exact absurd hlast.1 (by decide)
  · intro h
    have hrun := h "s" _ inOrder_oneWindow.1 inOrder_oneWindow.2
      [.newWindow none ⟨2⟩,.newWindow none ⟨3⟩,
        .resume (.counted none ⟨2⟩ 1) true,.resume (.counted none ⟨3⟩ 1) true,
        .resume (.stored "2" ⟨2⟩ 1) true,.resume (.stored "2" ⟨3⟩ 1) true,
        .resume (.known ⟨2⟩) true,.resume (.known ⟨3⟩) true]
    have hlast := hrun.last rfl rfl
    exact absurd hlast.1 (by decide)

end Overlapping

end Pyre.Supervisor
