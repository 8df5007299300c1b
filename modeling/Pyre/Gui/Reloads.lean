import Mathlib.Data.Finset.Lattice.Basic
import Pyre.Base.Run
import Pyre.Gui.Store

/-!
Reloads of the store of the GUI that overlap. A call runs from its start or from a reply to its
next request; between the two the daemon changes and other calls write. Each session has
windows of its own.
-/

set_option autoImplicit false

namespace Pyre.Gui
open Base

/-- What the daemon has of a session: its windows in their order, with the tree of each. -/
structure DaemonSession where
  paneCount : Nat
  windows : Table WindowId (Option LayoutNode)

inductive Reply (α : Type) where
  | awaited
  | failed
  | answered (value : α)

def Reply.ok {α : Type} : Reply α → Bool
  | .failed => false
  | _ => true

/-- A call at one of its awaits. `layouts` is `reloadSession` in its loop: its copy of the map,
the window it asks for and those to come; `whole` is that no request of it has failed. -/
inductive ReloadPhase where
  | sessions (reply : Reply (List SessionInfo))
  | windows (session : SessionId) (trees : Bool) (reply : Reply (List WindowId))
  | layouts (session : SessionId) (copy : Table WindowId LayoutNode) (window : WindowId)
      (todo : List WindowId) (whole : Bool) (reply : Reply (Option LayoutNode))
  | closingSession (session : SessionId) (windows : List WindowId)
  | closingWindow (session : Option SessionId) (window : WindowId)

/-- The session that a reload is of. -/
def ReloadPhase.session? : ReloadPhase → Option SessionId
  | .windows session _ _ => some session
  | .layouts session _ _ _ _ _ => some session
  | _ => none

/-- What can be removed from the store: a session of the list, the windows of a session, one of
them, and a tree. -/
inductive StoreEntry where
  | session (session : SessionId)
  | windows (session : SessionId)
  | window (window : WindowId)
  | layout (window : WindowId)
  deriving DecidableEq

def Store.entries (s : Store) : Finset StoreEntry :=
  (s.sessions.map fun info => StoreEntry.session info.id).toFinset ∪
    (s.windows.keys.map StoreEntry.windows).toFinset ∪
    (s.windows.values.flatten.map StoreEntry.window).toFinset ∪
    (s.layouts.keys.map StoreEntry.layout).toFinset

/-- `fresh`: the session of the reload has not changed since it began. `gone` has what was
removed from the store since. -/
structure Reload where
  phase : ReloadPhase
  fresh : Bool
  gone : Finset StoreEntry

def Reload.new (phase : ReloadPhase) : Reload := ⟨phase,true,∅⟩

/-- `listed` and `reloaded` have the sessions whose windows, and whose trees too, were written
by a reload that began after their last change. `broughtBack`: a call has written something that
was removed after it began. -/
structure ReloadState where
  daemon : Table SessionId DaemonSession
  store : Store
  calls : Table Nat Reload
  listed : Finset SessionId
  reloaded : Finset SessionId
  broughtBack : Bool

/-- `change` is the daemon's, and `activate` any action that sets the active session. `serve` is
the daemon's answer to the request of a call, which then waits for its turn. -/
inductive ReloadStep where
  | change (session : SessionId) (view : Option DaemonSession)
  | activate (session : Option SessionId)
  | reloadSessions (call : Nat)
  | reloadWindows (call : Nat) (session : SessionId)
  | reloadSession (call : Nat) (session : SessionId)
  | removeSessionNow (session : SessionId)
  | closeSessionAction (call : Nat) (session : SessionId)
  | closeWindowAction (call : Nat) (window : WindowId)
  | serve (call : Nat) (ok : Bool)
  | resume (call : Nat)
  | refused (call : Nat)

namespace ReloadState

def start : ReloadState := ⟨∅,.start,∅,∅,∅,false⟩

/-- The session has changed, on the daemon or by being dropped from the store: a reload that
began before does not count. -/
def outdate (s : ReloadState) (session : SessionId) : ReloadState :=
  { s with
    calls := s.calls.mapValues fun c =>
      { c with fresh := c.fresh && c.phase.session? ≠ some session }
    listed := s.listed.erase session
    reloaded := s.reloaded.erase session }

/-- A write, by a call since whose beginning `gone` was removed. -/
def write (s : ReloadState) (gone : Finset StoreEntry) (store : Store) : ReloadState :=
  { s with
    store
    calls := s.calls.mapValues fun c =>
      { c with gone := c.gone ∪ (s.store.entries \ store.entries) }
    broughtBack := s.broughtBack || decide (((store.entries \ s.store.entries) ∩ gone).Nonempty) }

def setCall (s : ReloadState) (i : Nat) (c : Reload) : ReloadState :=
  { s with calls := s.calls.insert i c }

def begin (s : ReloadState) (i : Nat) (phase : ReloadPhase) : Option ReloadState :=
  if i ∈ s.calls then none else some (s.setCall i (.new phase))

def endCall (s : ReloadState) (i : Nat) : ReloadState := { s with calls := s.calls.erase i }

variable (home : WindowId → SessionId)

/-- `get_window_layout` -/
def layoutOf (s : ReloadState) (w : WindowId) : Option LayoutNode :=
  (s.daemon.lookup (home w)).bind fun v => (v.windows.lookup w).join

def answer {α : Type} : Bool → Option α → Reply α
  | true, some value => .answered value
  | _, _ => .failed

/-- The daemon's answer, from what it has now. -/
def served (s : ReloadState) (ok : Bool) : ReloadPhase → Option ReloadPhase
  | .sessions .awaited => some (.sessions (answer ok
      (some (s.daemon.entries.map fun e => ⟨e.1,e.2.paneCount⟩))))
  | .windows session trees .awaited => some (.windows session trees (answer ok
      ((s.daemon.lookup session).map (·.windows.keys))))
  | .layouts session copy w todo whole .awaited => some
      (.layouts session copy w todo whole (answer ok (some (s.layoutOf home w))))
  | _ => none

/-- `reloadSession` has a reply to one of its requests, or none: what it has copied stays. -/
def fetched (copy : Table WindowId LayoutNode) (w : WindowId) :
    Reply (Option LayoutNode) → Table WindowId LayoutNode
  | .answered (some tree) => copy.insert w tree
  | _ => copy

/-- The windows, or the trees, have been written by a reload that began after the last change. -/
def markListed (s : ReloadState) (fresh : Bool) (session : SessionId) : ReloadState :=
  if fresh then { s with listed := insert session s.listed } else s

def markReloaded (s : ReloadState) (fresh : Bool) (session : SessionId) : ReloadState :=
  if fresh then { s with reloaded := insert session s.reloaded } else s

/-- `reloadSession` writes its copy, and is done with the store. -/
def writeLayouts (s : ReloadState) (i : Nat) (c : Reload) (session : SessionId) (whole : Bool)
    (copy : Table WindowId LayoutNode) : ReloadState :=
  ((s.write c.gone { s.store with layouts := copy }).markReloaded (c.fresh && whole)
    session).endCall i

/-- The windows are written, and `reloadSession` goes on with a copy of the trees. -/
def writeWindows (s : ReloadState) (i : Nat) (c : Reload) (session : SessionId) (trees : Bool)
    (windows : List WindowId) : ReloadState :=
  let t := (s.write c.gone (s.store.reloadWindows session windows)).markListed c.fresh session
  match trees, windows with
  | true, w :: todo => t.setCall i
      ⟨.layouts session t.store.layouts w todo true .awaited,c.fresh,c.gone⟩
  | true, [] => t.writeLayouts i c session true t.store.layouts
  | false, _ => t.endCall i

def resume (s : ReloadState) (i : Nat) (c : Reload) : Option ReloadState :=
  match c.phase with
  | .sessions (.answered sessions) =>
    some ((s.write c.gone (s.store.reloadSessions sessions)).endCall i)
  | .sessions .failed => some (s.endCall i)
  | .windows session trees (.answered windows) => some (s.writeWindows i c session trees windows)
  | .windows _ _ .failed => some (s.endCall i)
  | .layouts _ _ _ _ _ .awaited => none
  | .layouts session copy w [] whole reply =>
    some (s.writeLayouts i c session (whole && reply.ok) (fetched copy w reply))
  | .layouts session copy w (next :: todo) whole reply => some (s.setCall i
      { c with
        phase := .layouts session (fetched copy w reply) next todo (whole && reply.ok) .awaited })
  | .closingSession session windows =>
    some ((((s.write c.gone (s.store.closeSessionAction session windows)).outdate
      session)).setCall i (.new (.sessions .awaited)))
  | .closingWindow session w =>
    let t := (s.write c.gone (s.store.closeWindowAction session w)).outdate (home w)
    some ((session.elim t t.outdate).setCall i (.new (.sessions .awaited)))
  | _ => none

/-- A request that is refused: the session is not closed, and the window is dropped all the
same. -/
def refused (s : ReloadState) (i : Nat) (c : Reload) : Option ReloadState :=
  match c.phase with
  | .closingSession _ _ => some (s.endCall i)
  | .closingWindow _ _ => s.resume home i c
  | _ => none

/-- The windows are the session's own. -/
def Owned (session : SessionId) (windows : List WindowId) : Prop := ∀ w ∈ windows, home w = session

instance (session : SessionId) (windows : List WindowId) : Decidable (Owned home session windows) :=
  inferInstanceAs (Decidable (∀ w ∈ windows, home w = session))

def change (s : ReloadState) (session : SessionId) : Option DaemonSession → Option ReloadState
  | some view =>
    if Owned home session view.windows.keys then
      some { s.outdate session with daemon := s.daemon.insert session view }
    else none
  | none => some { s.outdate session with daemon := s.daemon.erase session }

def step (s : ReloadState) : ReloadStep → Option ReloadState
  | .change session view => s.change home session view
  | .activate session => some { s with store := { s.store with activeSession := session } }
  | .reloadSessions i => s.begin i (.sessions .awaited)
  | .reloadWindows i session => s.begin i (.windows session false .awaited)
  | .reloadSession i session => s.begin i (.windows session true .awaited)
  | .removeSessionNow session =>
    some ((s.write ∅ (s.store.removeSessionNow session)).outdate session)
  | .closeSessionAction i session =>
    s.begin i (.closingSession session (s.store.windowTabs session))
  | .closeWindowAction i w => s.begin i (.closingWindow s.store.activeSession w)
  | .serve i ok => (s.calls.lookup i).bind fun c =>
      (s.served home ok c.phase).map fun phase => s.setCall i { c with phase }
  | .resume i => (s.calls.lookup i).bind (s.resume home i)
  | .refused i => (s.calls.lookup i).bind (s.refused home i)

/-- The windows of the session are those of the daemon, and the active one is among them. -/
def Listed (s : ReloadState) (session : SessionId) : Prop :=
  ∀ v ∈ s.daemon.lookup session, s.store.windows.lookup session = some v.windows.keys ∧
    match s.store.activeWindow.lookup session with
    | some w => w ∈ v.windows.keys
    | none => v.windows.keys = []

/-- The trees of its windows are those of the daemon. -/
def Drawn (s : ReloadState) (session : SessionId) : Prop :=
  ∀ v ∈ s.daemon.lookup session, ∀ w tree, v.windows.lookup w = some (some tree) →
    s.store.layouts.lookup w = some tree

/-- The store has of each session what a reload that began after its last change has written,
and nothing that was removed is back. -/
structure Kept (s : ReloadState) : Prop where
  windows : ∀ session ∈ s.listed, s.Listed session
  layouts : ∀ session ∈ s.reloaded, s.Drawn session
  removed : s.broughtBack = false

/-- A list of sessions leaves out none whose windows a later reload has written, a list of windows
is the one in the store if a later reload has written that, and a map that is written back has
the trees of the sessions that a later reload has written as they are in the store. What the
store lacks and the write has was not removed since the call began. -/
def Careful (s : ReloadState) (c : Reload) : Prop :=
  match c.phase with
  | .sessions (.answered sessions) =>
    (∀ session ∈ s.listed, session ∈ sessions.map (·.id)) ∧
      ∀ info ∈ sessions, .session info.id ∈ c.gone → .session info.id ∈ s.store.entries
  | .windows session _ (.answered windows) =>
    (c.fresh = false → session ∈ s.listed → s.store.windows.lookup session = some windows) ∧
      (.windows session ∈ c.gone → .windows session ∈ s.store.entries) ∧
      ∀ w ∈ windows, .window w ∈ c.gone → .window w ∈ s.store.entries
  | .layouts _ _ _ _ _ .awaited => True
  | .layouts _ copy w [] _ reply =>
    (∀ session ∈ s.reloaded, ∀ v ∈ s.daemon.lookup session, ∀ w' tree,
      v.windows.lookup w' = some (some tree) →
        (fetched copy w reply).lookup w' = s.store.layouts.lookup w') ∧
      ∀ w' ∈ fetched copy w reply, .layout w' ∈ c.gone → .layout w' ∈ s.store.entries
  | _ => True

/-- Each reply is taken with care. -/
def Ordered (s : ReloadState) : ReloadStep → Prop
  | .resume i => ∀ c ∈ s.calls.lookup i, s.Careful c
  | _ => True

/-! Entries of the store, and what a write adds. -/

variable {home} {s t : ReloadState} {st : Store} {i : Nat} {c : Reload} {session : SessionId}
  {w : WindowId}

theorem session_mem_entries {σ : SessionId} :
    .session σ ∈ st.entries ↔ ∃ info ∈ st.sessions, info.id = σ := by
  simp [Store.entries]

theorem windows_mem_entries {σ : SessionId} : .windows σ ∈ st.entries ↔ σ ∈ st.windows := by
  simp [Store.entries,AList.mem_keys]

theorem window_mem_entries :
    .window w ∈ st.entries ↔ ∃ σ windows, st.windows.lookup σ = some windows ∧ w ∈ windows := by
  simp only [Store.entries,Table.values,Finset.mem_union,List.mem_toFinset,List.mem_map,
    List.mem_flatten,Table.lookup_eq_some]
  constructor
  · rintro (((⟨_,_,h⟩ | ⟨_,_,h⟩) | ⟨w',⟨windows,⟨e,he,rfl⟩,hw⟩,heq⟩) | ⟨_,_,h⟩)
    · cases h
    · cases h
    · obtain rfl := StoreEntry.window.inj heq
      exact ⟨e.1,e.2,he,hw⟩
    · cases h
  · rintro ⟨σ,windows,he,hw⟩
    exact .inl (.inr ⟨w,⟨windows,⟨_,he,rfl⟩,hw⟩,rfl⟩)

theorem layout_mem_entries : .layout w ∈ st.entries ↔ w ∈ st.layouts := by
  simp [Store.entries,AList.mem_keys]

/-- A write brings something back if it adds an entry that is gone. -/
theorem broughtBack_write {gone : Finset StoreEntry} (h : s.broughtBack = false) :
    (s.write gone st).broughtBack = false ↔
      ∀ e ∈ gone, e ∈ st.entries → e ∈ s.store.entries := by
  simp only [write,h,Bool.false_or,decide_eq_false_iff_not,Finset.not_nonempty_iff_eq_empty,
    Finset.eq_empty_iff_forall_notMem,Finset.mem_inter,Finset.mem_sdiff]
  constructor
  · intro hno e hgone hnew
    by_contra hold
    exact hno e ⟨⟨hnew,hold⟩,hgone⟩
  · rintro hall e ⟨⟨hnew,hold⟩,hgone⟩
    exact hold (hall e hgone hnew)

/-- Nothing is brought back by a write that only removes. -/
theorem removes_write {gone : Finset StoreEntry} (h : s.broughtBack = false)
    (hsub : st.entries ⊆ s.store.entries) : (s.write gone st).broughtBack = false :=
  (broughtBack_write h).mpr fun _ _ hnew => hsub hnew

theorem entries_subset {u v : Store} (hsessions : v.sessions ⊆ u.sessions)
    (hwindows : ∀ σ windows, v.windows.lookup σ = some windows →
      u.windows.lookup σ = some windows) (hlayouts : ∀ w ∈ v.layouts, w ∈ u.layouts) :
    v.entries ⊆ u.entries := by
  intro e he
  cases e with
  | session σ =>
    obtain ⟨info,hinfo,heq⟩ := session_mem_entries.mp he
    exact session_mem_entries.mpr ⟨info,hsessions hinfo,heq⟩
  | windows σ =>
    have hmem := windows_mem_entries.mp he
    obtain ⟨windows,hl⟩ := Option.isSome_iff_exists.mp (AList.lookup_isSome.mpr hmem)
    exact windows_mem_entries.mpr
      (AList.lookup_isSome.mp (Option.isSome_of_eq_some (hwindows σ windows hl)))
  | window w =>
    obtain ⟨σ,windows,hl,hw⟩ := window_mem_entries.mp he
    exact window_mem_entries.mpr ⟨σ,windows,hwindows σ windows hl,hw⟩
  | layout w => exact layout_mem_entries.mpr (hlayouts w (layout_mem_entries.mp he))

theorem entries_removeSessionNow : (st.removeSessionNow session).entries ⊆ st.entries := by
  refine entries_subset (fun _ h => List.mem_of_mem_filter h) (fun σ windows hl => ?_)
    fun w hw => ?_
  · exact (Table.lookup_erase_eq_some.mp hl).2
  · exact Store.mem_of_dropLayouts hw

theorem entries_closeSessionAction {windows : List WindowId} :
    (st.closeSessionAction session windows).entries ⊆ st.entries := by
  refine entries_subset (List.Subset.refl _) (fun σ windows hl => ?_) fun w hw => ?_
  · exact (Table.lookup_erase_eq_some.mp hl).2
  · exact Store.mem_of_dropLayouts hw

theorem entries_closeWindowAction {active : Option SessionId} :
    (st.closeWindowAction active w).entries ⊆ st.entries := by
  refine entries_subset (List.Subset.refl _) (fun σ windows hl => hl) fun w' hw => ?_
  exact (AList.mem_erase.mp hw).2

/-! What holds in every run: windows are the session's own, and what a fresh call has read is
what the daemon has. -/

variable (home) in
def CallOk (s : ReloadState) (c : Reload) : Prop :=
  match c.phase with
  | .windows session _ (.answered windows) => (∀ w ∈ windows, home w = session) ∧
    (c.fresh = true → ∃ v, s.daemon.lookup session = some v ∧ windows = v.windows.keys)
  | .layouts session copy w todo whole reply => (∀ w' ∈ w :: todo, home w' = session) ∧
    (c.fresh = true → session ∈ s.listed ∧
      (∀ tree, reply = .answered tree → tree = s.layoutOf home w) ∧
      (whole = true → ∀ v ∈ s.daemon.lookup session, ∀ w' tree,
        v.windows.lookup w' = some (some tree) → w' ∈ w :: todo ∨ copy.lookup w' = some tree))
  | .closingSession session windows => ∀ w ∈ windows, home w = session
  | _ => True

/-- Before its first reply a reload has read nothing. -/
theorem callOk_sessions : s.CallOk home (.new (.sessions .awaited)) := trivial

theorem callOk_windows {trees : Bool} :
    s.CallOk home (.new (.windows session trees .awaited)) := trivial

variable (home) in
structure Inv (s : ReloadState) : Prop where
  store : s.store.Owned home
  daemon : ∀ session v, s.daemon.lookup session = some v → ∀ w ∈ v.windows.keys, home w = session
  listed : ∀ session ∈ s.listed, ∃ v, s.daemon.lookup session = some v
  reloaded : s.reloaded ⊆ s.listed
  calls : ∀ i c, s.calls.lookup i = some c → s.CallOk home c

/-- A call reads of its own session only. -/
theorem CallOk.mono {d : Reload} (h : s.CallOk home c) (hphase : d.phase = c.phase)
    (hfresh : d.fresh = true → c.fresh = true ∧ ∀ σ, c.phase.session? = some σ →
      t.daemon.lookup σ = s.daemon.lookup σ ∧ (σ ∈ s.listed → σ ∈ t.listed)) :
    t.CallOk home d := by
  unfold CallOk at h ⊢
  rw [hphase]
  split
  · rename_i σ _ windows heq
    rw [heq] at h
    refine ⟨h.1,fun hd => ?_⟩
    obtain ⟨hc,hsame⟩ := hfresh hd
    rw [(hsame σ (by rw [heq]; rfl)).1]
    exact h.2 hc
  · rename_i σ copy w todo whole reply heq
    rw [heq] at h
    refine ⟨h.1,fun hd => ?_⟩
    obtain ⟨hc,hsame⟩ := hfresh hd
    obtain ⟨hdaemon,hlisted⟩ := hsame σ (by rw [heq]; rfl)
    obtain ⟨hin,hreply,hcopy⟩ := h.2 hc
    have hhome : home w = σ := h.1 w List.mem_cons_self
    refine ⟨hlisted hin,fun tree htree => ?_,fun hw v hv => ?_⟩
    · rw [hreply tree htree,layoutOf,layoutOf,hhome,hdaemon]
    · rw [hdaemon] at hv
      exact hcopy hw v hv
  · rename_i σ windows heq
    rw [heq] at h
    exact h
  · trivial

theorem CallOk.same (h : s.CallOk home c) (hdaemon : t.daemon = s.daemon)
    (hlisted : t.listed = s.listed) : t.CallOk home c :=
  h.mono rfl fun hc => ⟨hc,fun _ _ => ⟨by rw [hdaemon],fun hin => hlisted ▸ hin⟩⟩

theorem Inv.write (h : s.Inv home) (hst : st.Owned home) (gone : Finset StoreEntry) :
    (s.write gone st).Inv home := by
  refine ⟨hst,h.daemon,h.listed,h.reloaded,fun i c hc => ?_⟩
  rw [ReloadState.write,Table.lookup_mapValues] at hc
  obtain ⟨d,hd,rfl⟩ := Option.map_eq_some_iff.mp hc
  exact (h.calls i d hd).mono rfl fun hf => ⟨hf,fun _ _ => ⟨rfl,id⟩⟩

theorem Inv.outdate (h : s.Inv home) (session : SessionId) : (s.outdate session).Inv home := by
  refine ⟨h.store,h.daemon,fun σ hσ => h.listed σ (Finset.mem_of_mem_erase hσ),
    Finset.erase_subset_erase session h.reloaded,fun i c hc => ?_⟩
  rw [ReloadState.outdate,Table.lookup_mapValues] at hc
  obtain ⟨d,hd,rfl⟩ := Option.map_eq_some_iff.mp hc
  refine (h.calls i d hd).mono rfl fun hf => ?_
  rw [Bool.and_eq_true,decide_eq_true_eq] at hf
  refine ⟨hf.1,fun σ hσ => ⟨rfl,fun hin => Finset.mem_erase.mpr ⟨?_,hin⟩⟩⟩
  rintro rfl
  exact hf.2 hσ

theorem Inv.setCall (h : s.Inv home) (hc : s.CallOk home c) (i : Nat) :
    (s.setCall i c).Inv home := by
  refine ⟨h.store,h.daemon,h.listed,h.reloaded,fun j d hd => ?_⟩
  rcases Table.lookup_insert_eq_some.mp hd with ⟨-,rfl⟩ | ⟨-,hd⟩
  · exact hc.same rfl rfl
  · exact (h.calls j d hd).same rfl rfl

theorem Inv.endCall (h : s.Inv home) (i : Nat) : (s.endCall i).Inv home := by
  refine ⟨h.store,h.daemon,h.listed,h.reloaded,fun j d hd => ?_⟩
  exact (h.calls j d (Table.lookup_erase_eq_some.mp hd).2).same rfl rfl

theorem Inv.markListed (h : s.Inv home) {fresh : Bool}
    (hv : fresh = true → ∃ v, s.daemon.lookup session = some v) :
    (s.markListed fresh session).Inv home := by
  unfold ReloadState.markListed
  split
  · rename_i hf
    refine ⟨h.store,h.daemon,fun σ hσ => ?_,h.reloaded.trans (Finset.subset_insert _ _),
      fun i c hc => ?_⟩
    · rcases Finset.mem_insert.mp hσ with rfl | hσ
      · exact hv hf
      · exact h.listed σ hσ
    · exact (h.calls i c hc).mono rfl
        fun hf => ⟨hf,fun _ _ => ⟨rfl,fun hin => Finset.mem_insert_of_mem hin⟩⟩
  · exact h

theorem Inv.markReloaded (h : s.Inv home) {fresh : Bool}
    (hin : fresh = true → session ∈ s.listed) : (s.markReloaded fresh session).Inv home := by
  unfold ReloadState.markReloaded
  split
  · rename_i hf
    exact ⟨h.store,h.daemon,h.listed,Finset.insert_subset (hin hf) h.reloaded,
      fun i c hc => (h.calls i c hc).same rfl rfl⟩
  · exact h

theorem Inv.begin (h : s.Inv home) {phase : ReloadPhase} (hc : s.CallOk home (.new phase))
    (ht : s.begin i phase = some t) : t.Inv home := by
  rw [ReloadState.begin,Option.ite_none_left_eq_some,Option.some.injEq] at ht
  exact ht.2 ▸ h.setCall hc i

theorem Inv.change (h : s.Inv home) {view : Option DaemonSession}
    (ht : s.change home session view = some t) : t.Inv home := by
  have hout := h.outdate session
  have hcalls : ∀ {u : ReloadState}, u.calls = (s.outdate session).calls →
      u.listed = (s.outdate session).listed →
      (∀ σ, σ ≠ session → u.daemon.lookup σ = s.daemon.lookup σ) →
      ∀ i c, u.calls.lookup i = some c → u.CallOk home c := by
    intro u hu hl hd i c hc
    rw [hu] at hc
    refine (hout.calls i c hc).mono rfl fun hf => ⟨hf,fun σ hσ => ⟨hd σ ?_,fun hin => hl ▸ hin⟩⟩
    rintro rfl
    rw [ReloadState.outdate,Table.lookup_mapValues] at hc
    obtain ⟨d,hd,rfl⟩ := Option.map_eq_some_iff.mp hc
    rw [Bool.and_eq_true,decide_eq_true_eq] at hf
    exact hf.2 hσ
  have hlisted : ∀ σ ∈ (s.outdate session).listed, σ ≠ session ∧ ∃ v, s.daemon.lookup σ = some v :=
    fun σ hσ => ⟨Finset.ne_of_mem_erase hσ,h.listed σ (Finset.mem_of_mem_erase hσ)⟩
  cases view with
  | none =>
    obtain rfl := Option.some.inj ht
    refine ⟨h.store,fun σ v hv => ?_,fun σ hσ => ?_,hout.reloaded,
      hcalls rfl rfl fun σ hne => AList.lookup_erase_ne hne⟩
    · exact h.daemon σ v (Table.lookup_erase_eq_some.mp hv).2
    · obtain ⟨hne,v,hv⟩ := hlisted σ hσ
      exact ⟨v,Table.lookup_erase_eq_some.mpr ⟨hne,hv⟩⟩
  | some view =>
    rw [ReloadState.change,Option.ite_none_right_eq_some,Option.some.injEq] at ht
    obtain ⟨howned,rfl⟩ := ht
    refine ⟨h.store,fun σ v hv => ?_,fun σ hσ => ?_,hout.reloaded,
      hcalls rfl rfl fun σ hne => AList.lookup_insert_ne hne⟩
    · rcases Table.lookup_insert_eq_some.mp hv with ⟨rfl,rfl⟩ | ⟨-,hv⟩
      · exact howned
      · exact h.daemon σ v hv
    · obtain ⟨hne,v,hv⟩ := hlisted σ hσ
      exact ⟨v,Table.lookup_insert_eq_some.mpr (.inr ⟨hne,hv⟩)⟩

theorem layoutOf_eq {v : DaemonSession} (hv : s.daemon.lookup session = some v)
    (hw : home w = session) : s.layoutOf home w = (v.windows.lookup w).join := by
  rw [layoutOf,hw,hv,Option.bind_some]

theorem CallOk.served (h : s.Inv home) (hc : s.CallOk home c) {ok : Bool} {phase : ReloadPhase}
    (hs : s.served home ok c.phase = some phase) : s.CallOk home { c with phase } := by
  unfold ReloadState.served at hs
  split at hs
  · obtain rfl := Option.some.inj hs
    trivial
  · rename_i session trees heq
    obtain rfl := Option.some.inj hs
    unfold CallOk
    cases ok with
    | false => trivial
    | true =>
      cases hv : s.daemon.lookup session with
      | none => trivial
      | some v => exact ⟨h.daemon session v hv,fun _ => ⟨v,hv,rfl⟩⟩
  · rename_i session copy w todo whole heq
    obtain rfl := Option.some.inj hs
    unfold CallOk at hc ⊢
    rw [heq] at hc
    refine ⟨hc.1,fun hf => ?_⟩
    obtain ⟨hin,-,hcopy⟩ := hc.2 hf
    refine ⟨hin,fun tree htree => ?_,hcopy⟩
    cases ok with
    | false => cases htree
    | true => exact (Reply.answered.inj htree).symm
  · cases hs

/-- What a fresh call has copied, with the tree it has now been given. -/
theorem lookup_fetched {v : DaemonSession} {copy : Table WindowId LayoutNode}
    {reply : Reply (Option LayoutNode)} {todo : List WindowId} {whole : Bool}
    (hv : s.daemon.lookup session = some v) (hw : home w = session) (hne : reply ≠ .awaited)
    (hreply : ∀ tree, reply = .answered tree → tree = s.layoutOf home w)
    (hcopy : whole = true → ∀ w' tree, v.windows.lookup w' = some (some tree) →
      w' ∈ w :: todo ∨ copy.lookup w' = some tree)
    (hwhole : (whole && reply.ok) = true) (w' : WindowId) (tree : LayoutNode)
    (hl : v.windows.lookup w' = some (some tree)) :
    w' ∈ todo ∨ (fetched copy w reply).lookup w' = some tree := by
  rw [Bool.and_eq_true] at hwhole
  obtain ⟨got,rfl⟩ : ∃ got, reply = .answered got := by
    cases reply with
    | awaited => exact absurd rfl hne
    | failed => cases hwhole.2
    | answered got => exact ⟨got,rfl⟩
  have hlayout := hreply got rfl
  rw [layoutOf_eq hv hw] at hlayout
  by_cases heq : w' = w
  · rw [heq] at hl ⊢
    rw [hl] at hlayout
    obtain rfl : got = some tree := hlayout
    exact .inr (AList.lookup_insert _)
  · rcases hcopy hwhole.1 w' tree hl with hmem | hcopied
    · exact .inl ((List.mem_cons.mp hmem).resolve_left heq)
    · refine .inr ?_
      cases got with
      | none => exact hcopied
      | some _ => exact (AList.lookup_insert_ne heq).trans hcopied

theorem Inv.writeLayouts (h : s.Inv home) {whole : Bool} {copy : Table WindowId LayoutNode}
    (hin : (c.fresh && whole) = true → session ∈ s.listed) :
    (s.writeLayouts i c session whole copy).Inv home := by
  have howned : ({ s.store with layouts := copy } : Store).Owned home := h.store
  exact ((h.write howned c.gone).markReloaded hin).endCall i

theorem Inv.writeWindows (h : s.Inv home) {windows : List WindowId} {trees : Bool}
    (howned : ∀ w ∈ windows, home w = session)
    (hfresh : c.fresh = true → ∃ v, s.daemon.lookup session = some v ∧ windows = v.windows.keys) :
    (s.writeWindows i c session trees windows).Inv home := by
  have hwrite := h.write (Store.owned_reloadWindows h.store howned) c.gone
  have hmark := hwrite.markListed fun hf : c.fresh = true => (hfresh hf).imp fun _ hv => hv.1
  have hlisted : ∀ {u : ReloadState}, c.fresh = true →
      session ∈ (u.markListed c.fresh session).listed := by
    intro u hf
    simp [ReloadState.markListed,hf]
  have hdaemon : ∀ {u : ReloadState}, (u.markListed c.fresh session).daemon = u.daemon := by
    intro u
    unfold ReloadState.markListed
    split <;> rfl
  unfold ReloadState.writeWindows
  split
  · rename_i w todo
    refine hmark.setCall ?_ i
    refine ⟨howned,fun hf => ⟨hlisted hf,fun _ hno => (by cases hno),fun _ v hv w' tree hl => ?_⟩⟩
    obtain ⟨v',hv',hkeys⟩ := hfresh hf
    rw [hdaemon] at hv
    obtain rfl := Option.some.inj (hv'.symm.trans hv)
    rw [hkeys]
    exact .inl (AList.mem_keys.mp (AList.lookup_isSome.mp (Option.isSome_of_eq_some hl)))
  · exact hmark.writeLayouts fun hf => hlisted (by simpa using hf)
  · exact hmark.endCall i

/-- One phase, one case: what a call does when its reply has come. -/
theorem Inv.resume (h : s.Inv home) (hc : s.CallOk home c) (ht : s.resume home i c = some t) :
    t.Inv home := by
  unfold ReloadState.resume at ht
  unfold CallOk at hc
  split at ht
  · rename_i sessions heq
    obtain rfl := Option.some.inj ht
    exact (h.write (Store.owned_reloadSessions h.store sessions) c.gone).endCall i
  · obtain rfl := Option.some.inj ht
    exact h.endCall i
  · rename_i session trees windows heq
    obtain rfl := Option.some.inj ht
    rw [heq] at hc
    exact h.writeWindows hc.1 hc.2
  · obtain rfl := Option.some.inj ht
    exact h.endCall i
  · cases ht
  · rename_i session copy w whole reply hne heq
    obtain rfl := Option.some.inj ht
    rw [heq] at hc
    refine h.writeLayouts fun hf => ?_
    rw [Bool.and_eq_true] at hf
    exact (hc.2 hf.1).1
  · rename_i session copy w next todo whole reply hne heq
    obtain rfl := Option.some.inj ht
    rw [heq] at hc
    refine h.setCall ?_ i
    refine ⟨fun w' hw' => hc.1 w' (List.mem_cons_of_mem _ hw'),fun hf => ?_⟩
    obtain ⟨hin,hreply,hcopy⟩ := hc.2 hf
    refine ⟨hin,fun _ hno => (by cases hno),fun hwhole v hv w' tree hl => ?_⟩
    exact lookup_fetched hv (hc.1 w List.mem_cons_self) (by rintro rfl; exact hne rfl)
      hreply (fun hw => hcopy hw v hv) hwhole w' tree hl
  · rename_i session windows heq
    obtain rfl := Option.some.inj ht
    have howned : (s.store.closeSessionAction session windows).Owned home :=
      Store.owned_erase h.store rfl
    exact ((h.write howned c.gone).outdate session).setCall callOk_sessions i
  · rename_i session w heq
    obtain rfl := Option.some.inj ht
    have hdrop : (s.store.closeWindowAction session w).Owned home := h.store
    have hout := (h.write hdrop c.gone).outdate (home w)
    cases session with
    | none => exact hout.setCall callOk_sessions i
    | some session => exact (hout.outdate session).setCall callOk_sessions i
  · cases ht

theorem inv_step (h : s.Inv home) {e : ReloadStep} (ht : s.step home e = some t) : t.Inv home := by
  cases e with
  | change session view => exact h.change ht
  | activate session =>
    obtain rfl := Option.some.inj ht
    exact ⟨h.store,h.daemon,h.listed,h.reloaded,fun i c hc => (h.calls i c hc).same rfl rfl⟩
  | reloadSessions i => exact h.begin callOk_sessions ht
  | reloadWindows i session => exact h.begin callOk_windows ht
  | reloadSession i session => exact h.begin callOk_windows ht
  | removeSessionNow session =>
    obtain rfl := Option.some.inj ht
    exact (h.write (Store.owned_erase h.store rfl) ∅).outdate session
  | closeSessionAction i session =>
    refine h.begin ?_ ht
    exact fun w hw => Store.mem_windowTabs h.store hw
  | closeWindowAction i w =>
    refine h.begin ?_ ht
    trivial
  | serve i ok =>
    obtain ⟨c,hc,hs⟩ := Option.bind_eq_some_iff.mp ht
    obtain ⟨phase,hphase,rfl⟩ := Option.map_eq_some_iff.mp hs
    exact h.setCall (CallOk.served h (h.calls i c hc) hphase) i
  | resume i =>
    obtain ⟨c,hc,hs⟩ := Option.bind_eq_some_iff.mp ht
    exact h.resume (h.calls i c hc) hs
  | refused i =>
    obtain ⟨c,hc,hs⟩ := Option.bind_eq_some_iff.mp ht
    unfold refused at hs
    split at hs
    · obtain rfl := Option.some.inj hs
      exact h.endCall i
    · exact h.resume (h.calls i c hc) hs
    · cases hs

/-! The store against the daemon. -/

theorem Listed.congr (h : s.Listed session) (hdaemon : t.daemon.lookup session =
    s.daemon.lookup session) (hsame : Store.SameOn home s.store t.store session) :
    t.Listed session := by
  unfold Listed at h ⊢
  rw [hdaemon,hsame.windows,hsame.activeWindow]
  exact h

theorem Drawn.congr (h : s.Drawn session) (hi : s.Inv home) (hdaemon : t.daemon.lookup session =
    s.daemon.lookup session) (hsame : Store.SameOn home s.store t.store session) :
    t.Drawn session := by
  intro v hv w tree hl
  rw [hdaemon] at hv
  have hmem := AList.mem_keys.mp (AList.lookup_isSome.mp (Option.isSome_of_eq_some hl))
  rw [hsame.layouts w (hi.daemon session v hv w hmem)]
  exact h v hv w tree hl

/-- A session that has changed does not count. -/
theorem Kept.of_sameOn (hi : s.Inv home) (h : s.Kept) {u : ReloadState}
    (hlisted : ∀ σ ∈ u.listed, σ ∈ s.listed ∧ u.daemon.lookup σ = s.daemon.lookup σ ∧
      Store.SameOn home s.store u.store σ)
    (hreloaded : u.reloaded ⊆ s.reloaded) (hsub : u.reloaded ⊆ u.listed)
    (hback : u.broughtBack = false) : u.Kept := by
  refine ⟨fun σ hσ => ?_,fun σ hσ => ?_,hback⟩
  · obtain ⟨hin,hd,hsame⟩ := hlisted σ hσ
    exact (h.windows σ hin).congr hd hsame
  · obtain ⟨-,hd,hsame⟩ := hlisted σ (hsub hσ)
    exact (h.layouts σ (hreloaded hσ)).congr hi hd hsame

theorem sameOn_refl (st : Store) (σ : SessionId) : Store.SameOn home st st σ :=
  ⟨rfl,rfl,fun _ _ => rfl⟩

theorem kept_outdate (hi : s.Inv home) (h : s.Kept) {gone : Finset StoreEntry}
    (hsub : st.entries ⊆ s.store.entries)
    (hsame : ∀ σ, σ ≠ session → Store.SameOn home s.store st σ) :
    ((s.write gone st).outdate session).Kept := by
  refine Kept.of_sameOn hi h (fun σ hσ => ?_) (Finset.erase_subset _ _)
    (Finset.erase_subset_erase session hi.reloaded) (removes_write h.removed hsub)
  obtain ⟨hne,hin⟩ := Finset.mem_erase.mp hσ
  exact ⟨hin,rfl,hsame σ hne⟩

theorem kept_change (hi : s.Inv home) (h : s.Kept) {view : Option DaemonSession}
    (ht : s.change home session view = some t) : t.Kept := by
  have hcase : ∀ {u : ReloadState}, u.listed = s.listed.erase session →
      u.reloaded = s.reloaded.erase session → u.store = s.store →
      (∀ σ, σ ≠ session → u.daemon.lookup σ = s.daemon.lookup σ) →
      u.broughtBack = s.broughtBack → u.Kept := by
    intro u hl hr hst hd hb
    refine Kept.of_sameOn hi h (fun σ hσ => ?_) ?_ ?_ (hb.trans h.removed)
    · rw [hl] at hσ
      obtain ⟨hne,hin⟩ := Finset.mem_erase.mp hσ
      exact ⟨hin,hd σ hne,by rw [hst]; exact sameOn_refl s.store σ⟩
    · exact hr ▸ Finset.erase_subset _ _
    · rw [hr,hl]
      exact Finset.erase_subset_erase session hi.reloaded
  cases view with
  | none =>
    obtain rfl := Option.some.inj ht
    exact hcase rfl rfl rfl (fun σ hne => AList.lookup_erase_ne hne) rfl
  | some view =>
    rw [change,Option.ite_none_right_eq_some,Option.some.injEq] at ht
    obtain ⟨-,rfl⟩ := ht
    exact hcase rfl rfl rfl (fun σ hne => AList.lookup_insert_ne hne) rfl

@[simp] theorem kept_setCall : (s.setCall i c).Kept ↔ s.Kept :=
  ⟨fun h => ⟨h.windows,h.layouts,h.removed⟩,fun h => ⟨h.windows,h.layouts,h.removed⟩⟩

@[simp] theorem kept_endCall : (s.endCall i).Kept ↔ s.Kept :=
  ⟨fun h => ⟨h.windows,h.layouts,h.removed⟩,fun h => ⟨h.windows,h.layouts,h.removed⟩⟩

/-- A list leaves out no session that was reloaded later, and has none that was removed. -/
theorem kept_sessions_iff (hi : s.Inv home) (h : s.Kept) {sessions : List SessionInfo}
    {gone : Finset StoreEntry} : (s.write gone (s.store.reloadSessions sessions)).Kept ↔
      (∀ session ∈ s.listed, session ∈ sessions.map (·.id)) ∧
        ∀ info ∈ sessions, .session info.id ∈ gone → .session info.id ∈ s.store.entries := by
  constructor
  · intro hk
    refine ⟨fun σ hσ => ?_,fun info hinfo hgone => ?_⟩
    · obtain ⟨v,hv⟩ := hi.listed σ hσ
      have hl := (hk.windows σ hσ v hv).1
      exact of_decide_eq_true (Table.lookup_retain_eq_some.mp hl).2
    · exact (broughtBack_write h.removed).mp hk.removed _ hgone
        (session_mem_entries.mpr ⟨info,hinfo,rfl⟩)
  · rintro ⟨hlive,hback⟩
    refine ⟨fun σ hσ => ?_,fun σ hσ => ?_,(broughtBack_write h.removed).mpr fun e hgone he => ?_⟩
    · exact (h.windows σ hσ).congr rfl (Store.sameOn_reloadSessions hi.store (hlive σ hσ))
    · exact (h.layouts σ hσ).congr hi rfl
        (Store.sameOn_reloadSessions hi.store (hlive σ (hi.reloaded hσ)))
    · cases e with
      | session σ =>
        obtain ⟨info,hinfo,rfl⟩ := session_mem_entries.mp he
        exact hback info hinfo hgone
      | windows σ =>
        obtain ⟨windows,hl⟩ :=
          Option.isSome_iff_exists.mp (AList.lookup_isSome.mpr (windows_mem_entries.mp he))
        exact windows_mem_entries.mpr (AList.lookup_isSome.mp
          (Option.isSome_of_eq_some (Table.lookup_retain_eq_some.mp hl).1))
      | window w =>
        obtain ⟨σ,windows,hl,hw⟩ := window_mem_entries.mp he
        exact window_mem_entries.mpr ⟨σ,windows,(Table.lookup_retain_eq_some.mp hl).1,hw⟩
      | layout w =>
        exact layout_mem_entries.mpr (Store.mem_of_dropLayouts (layout_mem_entries.mp he))

/-- A list of windows is that of a later reload, if there was one. -/
theorem kept_windows_iff (hi : s.Inv home) (h : s.Kept) {windows : List WindowId} {fresh : Bool}
    {gone : Finset StoreEntry}
    (hfresh : fresh = true → ∃ v, s.daemon.lookup session = some v ∧ windows = v.windows.keys) :
    ((s.write gone (s.store.reloadWindows session windows)).markListed fresh session).Kept ↔
      (fresh = false → session ∈ s.listed → s.store.windows.lookup session = some windows) ∧
        (.windows session ∈ gone → .windows session ∈ s.store.entries) ∧
        ∀ w ∈ windows, .window w ∈ gone → .window w ∈ s.store.entries := by
  set u := (s.write gone (s.store.reloadWindows session windows)).markListed fresh session with hu
  have hstore : u.store = s.store.reloadWindows session windows := by
    rw [hu,markListed]
    split <;> rfl
  have hdaemon : u.daemon = s.daemon := by
    rw [hu,markListed]
    split <;> rfl
  have hreloaded : u.reloaded = s.reloaded := by
    rw [hu,markListed]
    split <;> rfl
  have hback : u.broughtBack =
      (s.write gone (s.store.reloadWindows session windows)).broughtBack := by
    rw [hu,markListed]
    split <;> rfl
  have hlisted : ∀ σ, σ ∈ u.listed ↔ (fresh = true ∧ σ = session) ∨ σ ∈ s.listed := by
    intro σ
    rw [hu,markListed]
    split
    · rename_i hf
      simp [hf,write]
    · rename_i hf
      simp [hf,write]
  constructor
  · intro hk
    have hremoved := (broughtBack_write h.removed).mp (hback ▸ hk.removed)
    refine ⟨fun hf hin => ?_,fun hgone => ?_,fun w hw hgone => ?_⟩
    · obtain ⟨v,hv⟩ := hi.listed session hin
      have hnew := (hk.windows session ((hlisted session).mpr (.inr hin)) v (hdaemon ▸ hv)).1
      rw [hstore,Store.lookup_reloadWindows] at hnew
      rw [(h.windows session hin v hv).1,hnew]
    · exact hremoved _ hgone (windows_mem_entries.mpr ((AList.mem_insert _).mpr (.inl rfl)))
    · exact hremoved _ hgone (window_mem_entries.mpr
        ⟨session,windows,Store.lookup_reloadWindows _ _ _,hw⟩)
  · rintro ⟨hsame,htabs,hwin⟩
    refine ⟨fun σ hσ => ?_,fun σ hσ => ?_,?_⟩
    · by_cases heq : σ = session
      · subst heq
        intro v hv
        rw [hdaemon] at hv
        have hkeys : windows = v.windows.keys := by
          rcases (hlisted σ).mp hσ with ⟨hf,-⟩ | hin
          · obtain ⟨v',hv',hkeys⟩ := hfresh hf
            obtain rfl := Option.some.inj (hv'.symm.trans hv)
            exact hkeys
          · cases hf : fresh with
            | true =>
              obtain ⟨v',hv',hkeys⟩ := hfresh hf
              obtain rfl := Option.some.inj (hv'.symm.trans hv)
              exact hkeys
            | false =>
              exact Option.some.inj ((hsame hf hin).symm.trans (h.windows σ hin v hv).1)
        rw [hstore,← hkeys]
        exact ⟨Store.lookup_reloadWindows _ _ _,Store.activeWindow_reloadWindows _ _ _⟩
      · have hin := ((hlisted σ).mp hσ).resolve_left fun hno => heq hno.2
        have hon : Store.SameOn home s.store u.store σ :=
          hstore ▸ Store.sameOn_reloadWindows heq
        exact (h.windows σ hin).congr (by rw [hdaemon]) hon
    · rw [hreloaded] at hσ
      intro v hv
      rw [hdaemon] at hv
      rw [hstore]
      exact h.layouts σ hσ v hv
    · rw [hback,broughtBack_write h.removed]
      intro e hgone he
      cases e with
      | session σ =>
        have hmem := session_mem_entries.mp he
        exact session_mem_entries.mpr hmem
      | windows σ =>
        rcases (AList.mem_insert _).mp (windows_mem_entries.mp he) with rfl | hmem
        · exact htabs hgone
        · exact windows_mem_entries.mpr hmem
      | window w =>
        obtain ⟨σ,windows',hl,hw⟩ := window_mem_entries.mp he
        rcases Table.lookup_insert_eq_some.mp hl with ⟨rfl,rfl⟩ | ⟨-,hl⟩
        · exact hwin w hw hgone
        · exact window_mem_entries.mpr ⟨σ,windows',hl,hw⟩
      | layout w =>
        have hmem := layout_mem_entries.mp he
        exact layout_mem_entries.mpr hmem

/-- A map that is written back leaves the trees as they are of the sessions reloaded since. -/
theorem kept_layouts_iff (h : s.Kept) {copy : Table WindowId LayoutNode} {fresh : Bool}
    {gone : Finset StoreEntry} (hfresh : fresh = true → ∀ v ∈ s.daemon.lookup session, ∀ w tree,
      v.windows.lookup w = some (some tree) → copy.lookup w = some tree) :
    ((s.write gone { s.store with layouts := copy }).markReloaded fresh session).Kept ↔
      (∀ σ ∈ s.reloaded, ∀ v ∈ s.daemon.lookup σ, ∀ w tree,
        v.windows.lookup w = some (some tree) → copy.lookup w = s.store.layouts.lookup w) ∧
        ∀ w ∈ copy, .layout w ∈ gone → .layout w ∈ s.store.entries := by
  set u := (s.write gone { s.store with layouts := copy }).markReloaded fresh session with hu
  have hsame : u.store = { s.store with layouts := copy } ∧ u.daemon = s.daemon ∧
      u.listed = s.listed ∧
      u.broughtBack = (s.write gone { s.store with layouts := copy }).broughtBack := by
    rw [hu,markReloaded]
    split <;> exact ⟨rfl,rfl,rfl,rfl⟩
  obtain ⟨hstore,hdaemon,hlisted,hback⟩ := hsame
  have hreloaded : ∀ σ, σ ∈ u.reloaded ↔ (fresh = true ∧ σ = session) ∨ σ ∈ s.reloaded := by
    intro σ
    rw [hu,markReloaded]
    split
    · rename_i hf
      simp [hf,write]
    · rename_i hf
      simp [hf,write]
  constructor
  · intro hk
    refine ⟨fun σ hσ v hv w tree hl => ?_,fun w hw hgone => ?_⟩
    · have hnew := hk.layouts σ ((hreloaded σ).mpr (.inr hσ)) v (hdaemon ▸ hv) w tree hl
      rw [hstore] at hnew
      rw [h.layouts σ hσ v hv w tree hl]
      exact hnew
    · exact (broughtBack_write h.removed).mp (hback ▸ hk.removed) _ hgone
        (layout_mem_entries.mpr hw)
  · rintro ⟨hcopy,hgone⟩
    refine ⟨fun σ hσ => ?_,fun σ hσ v hv w tree hl => ?_,?_⟩
    · rw [hlisted] at hσ
      intro v hv
      rw [hdaemon] at hv
      rw [hstore]
      exact h.windows σ hσ v hv
    · rw [hdaemon] at hv
      rw [hstore]
      rcases (hreloaded σ).mp hσ with ⟨hf,rfl⟩ | hin
      · exact hfresh hf v hv w tree hl
      · exact (hcopy σ hin v hv w tree hl).trans (h.layouts σ hin v hv w tree hl)
    · rw [hback,broughtBack_write h.removed]
      intro e he hnew
      cases e with
      | session σ =>
        have hmem := session_mem_entries.mp hnew
        exact session_mem_entries.mpr hmem
      | windows σ =>
        have hmem := windows_mem_entries.mp hnew
        exact windows_mem_entries.mpr hmem
      | window w =>
        have hmem := window_mem_entries.mp hnew
        exact window_mem_entries.mpr hmem
      | layout w => exact hgone w (layout_mem_entries.mp hnew) he

/-- To write the store as it is changes nothing. -/
theorem kept_rewrite (u : ReloadState) (gone : Finset StoreEntry) :
    (u.write gone u.store).Kept ↔ u.Kept := by
  have hback : (u.write gone u.store).broughtBack = u.broughtBack := by simp [write]
  constructor
  · exact fun h => ⟨h.windows,h.layouts,hback ▸ h.removed⟩
  · exact fun h => ⟨h.windows,h.layouts,hback.trans h.removed⟩

/-- A session without windows has no trees. -/
theorem kept_markReloaded {u : ReloadState} {fresh : Bool}
    (hempty : fresh = true → ∀ v ∈ u.daemon.lookup session, v.windows.keys = []) :
    (u.markReloaded fresh session).Kept ↔ u.Kept := by
  unfold markReloaded
  split
  · rename_i hf
    constructor
    · exact fun h => ⟨h.windows,fun σ hσ => h.layouts σ (Finset.mem_insert_of_mem hσ),h.removed⟩
    · refine fun h => ⟨h.windows,fun σ hσ => ?_,h.removed⟩
      rcases Finset.mem_insert.mp hσ with rfl | hσ
      · intro v hv w tree hl
        have hmem := AList.mem_keys.mp (AList.lookup_isSome.mp (Option.isSome_of_eq_some hl))
        rw [hempty hf v hv] at hmem
        cases hmem
      · exact h.layouts σ hσ
  · exact Iff.rfl

theorem kept_writeWindows {windows : List WindowId} {trees : Bool}
    (hfresh : c.fresh = true → ∃ v, s.daemon.lookup session = some v ∧ windows = v.windows.keys) :
    (s.writeWindows i c session trees windows).Kept ↔
      ((s.write c.gone (s.store.reloadWindows session windows)).markListed c.fresh
        session).Kept := by
  unfold writeWindows
  split
  · exact kept_setCall
  · rw [writeLayouts,kept_endCall,kept_markReloaded fun hf v hv => ?_]
    · exact kept_rewrite _ _
    · rw [Bool.and_true] at hf
      obtain ⟨v',hv',hkeys⟩ := hfresh hf
      have hdaemon : ((s.write c.gone (s.store.reloadWindows session [])).markListed c.fresh
          session).daemon = s.daemon := by
        unfold markListed
        split <;> rfl
      have hv : s.daemon.lookup session = some v := hdaemon ▸ hv
      obtain rfl := Option.some.inj (hv'.symm.trans hv)
      exact hkeys.symm
  · exact kept_endCall

/-- Each reply keeps the store as it should be just if it is taken with care. -/
theorem careful_iff (hi : s.Inv home) (h : s.Kept) (hc : s.CallOk home c) :
    s.Careful c ↔ ∀ t, s.resume home i c = some t → t.Kept := by
  obtain ⟨phase,fresh,gone⟩ := c
  cases phase with
  | sessions reply =>
    cases reply with
    | awaited => simp [Careful,resume]
    | failed => simpa [Careful,resume] using h
    | answered sessions =>
      simp only [resume,Option.some.injEq,forall_eq',kept_endCall,kept_sessions_iff hi h]
      exact Iff.rfl
  | windows session trees reply =>
    cases reply with
    | awaited => simp [Careful,resume]
    | failed => simpa [Careful,resume] using h
    | answered windows =>
      simp only [resume,Option.some.injEq,forall_eq',kept_writeWindows hc.2,
        kept_windows_iff hi h hc.2]
      exact Iff.rfl
  | layouts session copy w todo whole reply =>
    cases todo with
    | nil =>
      by_cases hreply : reply = .awaited
      · simp [hreply,Careful,resume]
      · have hfresh : (fresh && (whole && reply.ok)) = true → ∀ v ∈ s.daemon.lookup session,
            ∀ w' tree, v.windows.lookup w' = some (some tree) →
              (fetched copy w reply).lookup w' = some tree := by
          intro hf v hv w' tree hl
          rw [Bool.and_eq_true] at hf
          obtain ⟨-,hgot,hcopy⟩ := hc.2 hf.1
          have hfound := lookup_fetched hv (hc.1 w List.mem_cons_self) hreply hgot
            (fun hw => hcopy hw v hv) hf.2 w' tree hl
          exact hfound.resolve_left (by simp)
        have hresume : s.resume home i ⟨.layouts session copy w [] whole reply,fresh,gone⟩ =
            some (s.writeLayouts i ⟨.layouts session copy w [] whole reply,fresh,gone⟩ session
              (whole && reply.ok) (fetched copy w reply)) := by
          cases reply with
          | awaited => exact absurd rfl hreply
          | failed => rfl
          | answered tree => rfl
        simp only [hresume,Option.some.injEq,forall_eq',writeLayouts,kept_endCall,
          kept_layouts_iff h hfresh]
        cases reply with
        | awaited => exact absurd rfl hreply
        | failed => exact Iff.rfl
        | answered tree => exact Iff.rfl
    | cons next todo =>
      cases reply with
      | awaited => simp [Careful,resume]
      | failed => simpa [Careful,resume] using h
      | answered tree => simpa [Careful,resume] using h
  | closingSession session windows =>
    refine iff_of_true trivial fun t ht => ?_
    obtain rfl := Option.some.inj ht
    rw [kept_setCall]
    exact kept_outdate hi h entries_closeSessionAction
      fun σ hne => Store.sameOn_closeSessionAction hc hne
  | closingWindow session w =>
    refine iff_of_true trivial fun t ht => ?_
    obtain rfl := Option.some.inj ht
    rw [kept_setCall]
    cases session with
    | none =>
      exact kept_outdate hi h entries_closeWindowAction
        fun σ hne => Store.sameOn_closeWindowAction hne (by simp)
    | some session =>
      have hentries : (s.store.closeWindowAction (some session) w).entries ⊆ s.store.entries :=
        entries_closeWindowAction
      refine Kept.of_sameOn hi h (fun σ hσ => ?_) ?_ ?_ (removes_write h.removed hentries)
      · obtain ⟨hne,hin⟩ := Finset.mem_erase.mp hσ
        obtain ⟨hhome,hin⟩ := Finset.mem_erase.mp hin
        exact ⟨hin,rfl,Store.sameOn_closeWindowAction hhome
          fun heq => hne (Option.some.inj heq).symm⟩
      · exact (Finset.erase_subset _ _).trans (Finset.erase_subset _ _)
      · exact Finset.erase_subset_erase _ (Finset.erase_subset_erase _ hi.reloaded)

theorem kept_begin (h : s.Kept) {phase : ReloadPhase} (ht : s.begin i phase = some t) :
    t.Kept := by
  rw [begin,Option.ite_none_left_eq_some,Option.some.injEq] at ht
  exact ht.2 ▸ kept_setCall.mpr h

theorem ordered_iff (hi : s.Inv home) (h : s.Kept) (e : ReloadStep) :
    s.Ordered e ↔ ∀ t, s.step home e = some t → t.Kept := by
  cases e with
  | change session view => exact iff_of_true trivial fun t ht => kept_change hi h ht
  | activate session =>
    refine iff_of_true trivial fun t ht => ?_
    obtain rfl := Option.some.inj ht
    exact ⟨h.windows,h.layouts,h.removed⟩
  | reloadSessions i => exact iff_of_true trivial fun t ht => kept_begin h ht
  | reloadWindows i session => exact iff_of_true trivial fun t ht => kept_begin h ht
  | reloadSession i session => exact iff_of_true trivial fun t ht => kept_begin h ht
  | removeSessionNow session =>
    refine iff_of_true trivial fun t ht => ?_
    obtain rfl := Option.some.inj ht
    exact kept_outdate hi h entries_removeSessionNow
      fun σ hne => Store.sameOn_removeSessionNow hi.store hne
  | closeSessionAction i session => exact iff_of_true trivial fun t ht => kept_begin h ht
  | closeWindowAction i w => exact iff_of_true trivial fun t ht => kept_begin h ht
  | serve i ok =>
    refine iff_of_true trivial fun t ht => ?_
    obtain ⟨c,-,hs⟩ := Option.bind_eq_some_iff.mp ht
    obtain ⟨phase,-,rfl⟩ := Option.map_eq_some_iff.mp hs
    exact kept_setCall.mpr h
  | resume i =>
    simp only [step,Ordered,Option.bind_eq_some_iff]
    constructor
    · rintro hall t ⟨c,hc,ht⟩
      exact (careful_iff hi h (hi.calls i c hc)).mp (hall c hc) t ht
    · exact fun hall c hc => (careful_iff hi h (hi.calls i c hc)).mpr
        fun t ht => hall t ⟨c,hc,ht⟩
  | refused i =>
    refine iff_of_true trivial fun t ht => ?_
    obtain ⟨c,hc,hs⟩ := Option.bind_eq_some_iff.mp ht
    unfold refused at hs
    split at hs
    · obtain rfl := Option.some.inj hs
      exact kept_endCall.mpr h
    · rename_i session w heq
      refine (careful_iff hi h (hi.calls i c hc)).mp ?_ t hs
      rw [Careful,heq]
      trivial
    · cases hs

variable (home) in
/-- The store has what the latest reloads have written, in every state of a run, exactly when each
reply is taken with care. -/
theorem reloads_kept_iff (steps : List ReloadStep) :
    Along (step home) Ordered start steps ↔ Always (step home) Kept start steps := by
  have hinv : start.Inv home := by
    refine ⟨fun σ windows hl => ?_,fun σ v hv => ?_,fun σ hσ => ?_,Finset.Subset.refl _,
      fun i c hc => ?_⟩
    · simp [start,Store.start] at hl
    · simp [start] at hv
    · simp [start] at hσ
    · simp [start] at hc
  have hkept : start.Kept :=
    ⟨fun σ hσ => absurd hσ (by simp [start]),fun σ hσ => absurd hσ (by simp [start]),rfl⟩
  exact along_iff_always (fun _ _ _ h ht => inv_step h ht)
    (fun _ e hi h => ordered_iff hi h e) hinv hkept

/-- Two sessions of one window each. The reload of the first has copied the map before that of the
second writes its tree, and writes the copy back. -/
def overlapped : List ReloadStep :=
  [.change ⟨1⟩ (some ⟨1,AList.insert ⟨1⟩ (some (.leaf ⟨1⟩)) ∅⟩),
    .change ⟨2⟩ (some ⟨1,AList.insert ⟨2⟩ (some (.leaf ⟨2⟩)) ∅⟩),
    .reloadSession 1 ⟨1⟩,.serve 1 true,.resume 1,
    .reloadSession 2 ⟨2⟩,.serve 2 true,.resume 2,.serve 2 true,.resume 2,
    .serve 1 true,.resume 1]

theorem second_reload_lost : ¬Always (step fun w => ⟨w.uuid⟩) Kept start overlapped := by
  intro hall
  have hkept : Kept _ := hall _ (List.prefix_refl _) _ rfl
  have htree := hkept.layouts ⟨2⟩ (by decide) _ rfl ⟨2⟩ (.leaf ⟨2⟩) rfl
  cases htree

end ReloadState
end Pyre.Gui
