import Pyre.Base.Instances
import Pyre.Gui.Actions

/-!
The close actions where the daemon's call fails and the daemon stays as it is. Only that of a
session stops at the error; those of panes and windows take down terminals and streams and reload.
-/

set_option autoImplicit false

namespace Pyre.Gui
open Base

/-- What the daemon replies while its state stays the same, `none` being a failure. -/
structure Replies where
  sessions : Option (List SessionInfo)
  windows : SessionId → Option (List WindowId)
  layout : WindowId → Option LayoutNode

/-- `spawned` is the session that comes of `spawn_session` where none is left, with the replies
from then on; `connects` tells of which panes a stream can be attached. -/
structure Daemon where
  replies : Replies
  spawned : Option (SessionId × Replies)
  connects : PaneId → Bool

namespace Store

def loadSessions (s : Store) (r : Replies) : Store := r.sessions.elim s s.reloadSessions

/-- The trees that come replace those in the copy. -/
def loadLayouts (r : Replies) (copy : Table WindowId LayoutNode) (windows : List WindowId) :
    Table WindowId LayoutNode :=
  windows.foldl (fun copy w => (r.layout w).elim copy (copy.insert w)) copy

def loadSession (s : Store) (r : Replies) (session : SessionId) (windows : List WindowId) : Store :=
  let t := s.reloadWindows session windows
  { t with layouts := loadLayouts r t.layouts windows }

/-- The close actions after the daemon's reply, up to the session they show in the end. -/
def settle (s : Store) (d : Daemon) (session : Option SessionId) :
    Store × Option (SessionId × Replies) :=
  let s := s.loadSessions d.replies
  match session with
  | none => (s,none)
  | some session =>
    if s.listed session then (s,some (session,d.replies))
    else
      match s.activateFirst.activeSession with
      | some first => (s.activateFirst,some (first,d.replies))
      | none =>
        match d.spawned with
        | some (new,r) => ((s.activateFirst.loadSessions r).adopt new,some (new,r))
        | none => (s.activateFirst,none)

/-- The session is shown: reloaded, if its windows come, and its first leaf focused. -/
def showSession (s : Store) (session : SessionId) (r : Replies) : Store :=
  focusFirstLeaf ((r.windows session).elim s (s.loadSession r session)) session

/-- The leaves of the windows a session is reloaded with. -/
def reloadedPanes (s : Store) (session : SessionId) (r : Replies) : List PaneId :=
  (r.windows session).elim [] fun windows =>
    windows.flatMap fun w => leafPanes ((s.loadSession r session windows).layouts.lookup w)

end Store

/-- The store with the terminals that are mounted and the output pumps that run. -/
structure Desk where
  store : Store
  terms : Instances PaneId
  pumps : Instances PaneId

namespace Desk

def dispose (g : Desk) (panes : List PaneId) : Desk :=
  { g with terms := g.terms.renewAll (panes.map fun pane => (pane,false)) }

def detach (g : Desk) (panes : List PaneId) : Desk :=
  { g with pumps := g.pumps.renewAll (panes.map fun pane => (pane,false)) }

/-- Renders have mounted terminals. -/
def mount (g : Desk) (drawn : List PaneId) : Desk := { g with terms := g.terms.ensureAll drawn }

/-- A stream is asked for anew for each pane without a terminal. -/
def ensureStreams (g : Desk) (d : Daemon) (panes : List PaneId) : Desk :=
  let missing := panes.dedup.filter fun pane => pane ∉ g.terms.table
  { g with pumps := g.pumps.renewAll (missing.map fun pane => (pane,d.connects pane)) }

/-- `drawn` are mounted by the time the streams are asked for, and `later` by the end. -/
def reload (g : Desk) (d : Daemon) (session : Option SessionId) (drawn later : List PaneId) :
    Desk :=
  match g.store.settle d session with
  | (store,none) => mount { g with store } (drawn ++ later)
  | (store,some (session,r)) =>
    (ensureStreams { g.mount drawn with store := store.showSession session r } d
      (store.reloadedPanes session r)).mount later

def closePaneAction (g : Desk) (d : Daemon) (pane : Option PaneId) (drawn later : List PaneId) :
    Desk :=
  match pane <|> g.store.focusedPane with
  | none => g
  | some target =>
    reload { g.dispose [target] with
        store := if g.store.zoomedPane = some target then g.store.unzoom else g.store }
      d g.store.activeSession drawn later

def closeWindowAction (g : Desk) (d : Daemon) (window : WindowId) (drawn later : List PaneId) :
    Desk :=
  let leaves := leafPanes (g.store.layouts.lookup window)
  reload { (g.detach leaves).dispose leaves with
      store := g.store.closeWindowAction g.store.activeSession window }
    d g.store.activeSession drawn later

/-- The function returns at the error. -/
def closeSessionAction (g : Desk) (session : SessionId) (later : List PaneId) : Desk :=
  mount { g with store := (g.store.act (.closeSessionAction session)).1 } later

/-- The terminals and pumps there were are all there, and layouts, active windows and focus as
before. -/
structure Unchanged (g t : Desk) : Prop where
  terms : g.terms.Keeps t.terms
  pumps : g.pumps.Keeps t.pumps
  layouts : ∀ w, t.store.layouts.lookup w = g.store.layouts.lookup w
  activeWindow : ∀ session,
    t.store.activeWindow.lookup session = g.store.activeWindow.lookup session
  focus : t.store.focusedPane = g.store.focusedPane

end Desk

/-! The conditions, on the store before the action and the replies. -/

namespace Store

/-- The sessions the store lists once it has asked. -/
def sessionsRead (s : Store) (d : Daemon) : List SessionInfo :=
  d.replies.sessions.getD s.sessions

/-- The session shown in the end is the active one, or else the first, or one spawned. -/
def shownAfter (s : Store) (d : Daemon) : Option (SessionId × Replies) :=
  s.activeSession.bind fun session =>
    if (s.sessionsRead d).any (·.id = session) then some (session,d.replies)
    else match (s.sessionsRead d).head? with
      | some first => some (first.id,d.replies)
      | none => d.spawned

/-- The windows that session is reloaded with. -/
def windowsRead (s : Store) (d : Daemon) (session : SessionId) : Option (List WindowId) :=
  (s.shownAfter d).bind fun p => if p.1 = session then p.2.windows session else none

def layoutRead (s : Store) (d : Daemon) (w : WindowId) : Option LayoutNode :=
  (s.shownAfter d).bind fun p =>
    (p.2.windows p.1).bind fun windows => if w ∈ windows then p.2.layout w else none

/-- A list of sessions has come without this one. -/
def Gone (s : Store) (d : Daemon) (session : SessionId) : Prop :=
  (∃ l ∈ d.replies.sessions, session ∉ l.map (·.id)) ∨
    s.activeSession ≠ none ∧ s.sessionsRead d = [] ∧
      ∃ p ∈ d.spawned, ∃ l ∈ p.2.sessions, session ∉ l.map (·.id)

/-- The layout is dropped, of the window that was to be closed or of a session that is gone. -/
def DropsLayout (s : Store) (d : Daemon) (closed : Option WindowId) (w : WindowId) : Prop :=
  closed = some w ∨ ∃ session, s.Gone d session ∧ w ∈ s.windowTabs session

def DropsActiveWindow (s : Store) (d : Daemon) (closed : Option WindowId) (session : SessionId) :
    Prop :=
  s.activeSession = some session ∧ closed ≠ none ∧ s.activeWindow.lookup session = closed ∨
    s.Gone d session ∧ s.windows.lookup session ≠ none

def firstPane (s : Store) (w : Option WindowId) : Option PaneId :=
  (leafPanes (w.bind s.layouts.lookup)).head?

/-- What the daemon replies is what the store has, and what is dropped was not there or is in the
replies; the focus is on the first leaf. -/
structure Reproduced (s : Store) (d : Daemon) (closed : Option WindowId) : Prop where
  layouts : ∀ w, match s.layoutRead d w with
    | some tree => s.layouts.lookup w = some tree
    | none => s.DropsLayout d closed w → s.layouts.lookup w = none
  activeWindow : ∀ session, match s.windowsRead d session with
    | some [] => s.activeWindow.lookup session = none
    | some (first :: rest) => s.activeWindow.lookup session = some first ∨
      ¬ s.DropsActiveWindow d closed session ∧ ∃ w ∈ s.activeWindow.lookup session, w ∈ rest
    | none => s.DropsActiveWindow d closed session → s.activeWindow.lookup session = none
  focus : match s.shownAfter d with
    | some (session,r) => match r.windows session with
      | some _ => s.focusedPane = s.firstPane (s.activeWindow.lookup session)
      | none => (s.Gone d session → s.focusedPane = none) ∧
        (¬ s.Gone d session → s.focusedPane = s.firstPane (s.activeWindowOf session))
    | none => s.activeSession ≠ none → s.focusedPane = none

/-- The panes that may be asked a stream for. -/
def panesRead (s : Store) (d : Daemon) : List PaneId :=
  (s.shownAfter d).elim [] fun p => (p.2.windows p.1).elim [] fun windows =>
    windows.flatMap fun w => leafPanes (s.layouts.lookup w)

/-! What the parts of a reload take away and bring. -/

/-- Nothing but what the store had of the sessions that are gone is missing. -/
structure Shed (gone : SessionId → Prop) (s t : Store) : Prop where
  windows : ∀ session windows, t.windows.lookup session = some windows ↔
    ¬ gone session ∧ s.windows.lookup session = some windows
  activeWindow : ∀ session w, t.activeWindow.lookup session = some w ↔
    ¬ (gone session ∧ s.windows.lookup session ≠ none) ∧ s.activeWindow.lookup session = some w
  layouts : ∀ w tree, t.layouts.lookup w = some tree ↔
    ¬ (∃ session, gone session ∧ w ∈ s.windowTabs session) ∧ s.layouts.lookup w = some tree

variable {s t u : Store} {d : Daemon} {r : Replies} {session : SessionId} {w : WindowId}
  {gone gone' : SessionId → Prop}

theorem shed_refl (s : Store) (h : ∀ session, ¬ gone session) : Shed gone s s := by
  constructor <;> simp [h]

theorem Shed.congr (h : Shed gone s t) (hgone : ∀ session, gone session ↔ gone' session) :
    Shed gone' s t := by
  obtain rfl : gone = gone' := funext fun session => propext (hgone session)
  exact h

theorem Shed.of_eq (h : Shed gone s t) (hw : u.windows = t.windows)
    (ha : u.activeWindow = t.activeWindow) (hl : u.layouts = t.layouts) : Shed gone s u := by
  refine ⟨?_,?_,?_⟩
  · rw [hw]
    exact h.windows
  · rw [ha]
    exact h.activeWindow
  · rw [hl]
    exact h.layouts

theorem Shed.windows_ne_none (h : Shed gone s t) (session : SessionId) :
    t.windows.lookup session ≠ none ↔ ¬ gone session ∧ s.windows.lookup session ≠ none := by
  simp only [Option.ne_none_iff_exists',h.windows]
  tauto

theorem mem_windowTabs_iff : w ∈ s.windowTabs session ↔
    ∃ windows, s.windows.lookup session = some windows ∧ w ∈ windows := by
  unfold windowTabs
  cases s.windows.lookup session <;> simp

theorem Shed.mem_windowTabs (h : Shed gone s t) (session : SessionId) (w : WindowId) :
    w ∈ t.windowTabs session ↔ ¬ gone session ∧ w ∈ s.windowTabs session := by
  simp only [mem_windowTabs_iff,h.windows]
  tauto

theorem Shed.trans (h : Shed gone s t) (h' : Shed gone' t u) :
    Shed (fun session => gone session ∨ gone' session) s u where
  windows session windows := by
    rw [h'.windows,h.windows]
    tauto
  activeWindow session w := by
    rw [h'.activeWindow,h.activeWindow,h.windows_ne_none]
    tauto
  layouts w tree := by
    have hsome : (∃ session, gone' session ∧ w ∈ t.windowTabs session) ↔
        ∃ session, gone' session ∧ ¬ gone session ∧ w ∈ s.windowTabs session := by
      simp only [h.mem_windowTabs]
    rw [h'.layouts,h.layouts,hsome,← and_assoc,← not_or,← exists_or]
    refine and_congr_left fun _ => not_congr (exists_congr fun session => ?_)
    tauto

theorem shed_reloadSessions (s : Store) (l : List SessionInfo) :
    Shed (fun session => session ∉ l.map (·.id)) s (s.reloadSessions l) where
  windows session windows := by
    rw [reloadSessions,Table.lookup_retain_eq_some,decide_eq_true_iff,not_not,and_comm]
  activeWindow session w := by
    have hkey : session ∈ s.windows.keys ↔ s.windows.lookup session ≠ none := by
      rw [← AList.mem_keys,← AList.lookup_isSome,Option.isSome_iff_ne_none]
    rw [reloadSessions,Table.lookup_retain_eq_some]
    simp only [Bool.decide_or,Bool.or_eq_true,decide_eq_true_iff,hkey]
    tauto
  layouts w tree := by
    have hmem : (∃ session, session ∉ l.map (·.id) ∧ w ∈ s.windowTabs session) ↔
        w ∈ (s.windows.entries.filter fun e => e.1 ∉ l.map (·.id)).flatMap (·.2) := by
      simp only [List.mem_flatMap,List.mem_filter,decide_eq_true_iff,mem_windowTabs_iff,
        Table.lookup_eq_some]
      constructor
      · rintro ⟨session,hgone,windows,he,hw⟩
        exact ⟨_,⟨he,hgone⟩,hw⟩
      · rintro ⟨⟨session,windows⟩,⟨he,hgone⟩,hw⟩
        exact ⟨session,hgone,windows,he,hw⟩
    rw [hmem]
    change (dropLayouts _ _).lookup w = some tree ↔ _
    rw [dropLayouts,Table.lookup_retain_eq_some,decide_eq_true_iff,and_comm]

theorem shed_loadSessions (s : Store) (r : Replies) :
    Shed (fun session => ∃ l ∈ r.sessions, session ∉ l.map (·.id)) s (s.loadSessions r) := by
  unfold loadSessions
  cases r.sessions with
  | none => exact shed_refl s (by simp)
  | some l => exact (shed_reloadSessions s l).congr (by simp)

theorem sessions_loadSessions (s : Store) (d : Daemon) :
    (s.loadSessions d.replies).sessions = s.sessionsRead d := by
  unfold loadSessions sessionsRead
  cases d.replies.sessions <;> rfl

theorem listed_loadSessions_iff :
    (s.loadSessions d.replies).listed session = true ↔
      (s.sessionsRead d).any (·.id = session) = true := by
  rw [listed,sessions_loadSessions]

/-- What the store has lost once it knows which session to show, which is `shownAfter`. -/
theorem settle_spec (s : Store) (d : Daemon) :
    (s.settle d s.activeSession).2 = s.shownAfter d ∧
      Shed (s.Gone d) s (s.settle d s.activeSession).1 := by
  have hload := shed_loadSessions s d.replies
  have hlisted : ∀ session, s.activeSession = some session →
      (s.sessionsRead d).any (·.id = session) = true →
        Shed (s.Gone d) s (s.loadSessions d.replies) := by
    intro session hactive hany
    refine hload.congr fun other => (or_iff_left ?_).symm
    rintro ⟨-,hnone,-⟩
    rw [hnone] at hany
    cases hany
  unfold settle shownAfter
  cases hactive : s.activeSession with
  | none =>
    refine ⟨rfl,hload.congr fun session => ?_⟩
    simp [Gone,hactive]
  | some session =>
    by_cases hany : (s.sessionsRead d).any (·.id = session) = true
    · have hlist := listed_loadSessions_iff.mpr hany
      simp only [hlist,if_true,Option.bind_some,hany]
      exact ⟨trivial,hlisted session hactive hany⟩
    · have hlist : ¬ (s.loadSessions d.replies).listed session = true :=
        fun h => hany (listed_loadSessions_iff.mp h)
      simp only [hlist,Option.bind_some,hany]
      have hfirst : (s.loadSessions d.replies).activateFirst.activeSession =
          (s.sessionsRead d).head?.map (·.id) := by rw [activateFirst,sessions_loadSessions]
      have hactivate : Shed (fun other => ∃ l ∈ d.replies.sessions, other ∉ l.map (·.id)) s
          (s.loadSessions d.replies).activateFirst := hload.of_eq rfl rfl rfl
      cases hread : s.sessionsRead d with
      | cons first rest =>
        simp only [hread,List.head?_cons,Option.map_some] at hfirst ⊢
        rw [hfirst]
        refine ⟨rfl,hactivate.congr fun other => ?_⟩
        simp [Gone,hread]
      | nil =>
        simp only [hread,List.head?_nil,Option.map_none] at hfirst ⊢
        rw [hfirst]
        cases hspawned : d.spawned with
        | none =>
          refine ⟨rfl,hactivate.congr fun other => ?_⟩
          simp [Gone,hspawned]
        | some p =>
          have hagain := hactivate.trans (shed_loadSessions _ p.2)
          have hadopt : Shed _ s
              (((s.loadSessions d.replies).activateFirst.loadSessions p.2).adopt p.1) :=
            hagain.of_eq rfl rfl rfl
          refine ⟨rfl,hadopt.congr fun other => ?_⟩
          simp [Gone,hactive,hread,hspawned]

theorem focus_loadSessions (h : s.activeSession = none) :
    (s.loadSessions r).focusedPane = s.focusedPane := by
  unfold loadSessions
  cases r.sessions with
  | none => rfl
  | some l => simp [reloadSessions,h]

/-- With no session to show the focus stays where no session was active, and else is gone. -/
theorem focus_settle (h : s.shownAfter d = none) :
    (s.settle d s.activeSession).1.focusedPane =
      if s.activeSession = none then s.focusedPane else none := by
  rw [← (settle_spec s d).1] at h
  unfold settle at h ⊢
  cases hactive : s.activeSession with
  | none => exact focus_loadSessions hactive
  | some session =>
    simp only [hactive] at h ⊢
    split at h
    · cases h
    · rename_i hlisted
      rw [if_neg hlisted]
      split at h
      · cases h
      · split at h
        · cases h
        · rfl

/-- A close action wrote to the store that it had `closed` a window, or no window. -/
structure ClosedFrom (closed : Option WindowId) (s t : Store) : Prop where
  sessions : t.sessions = s.sessions
  activeSession : t.activeSession = s.activeSession
  focusedPane : t.focusedPane = s.focusedPane
  windows : t.windows = s.windows
  activeWindow : ∀ session w, t.activeWindow.lookup session = some w ↔
    ¬ (s.activeSession = some session ∧ closed ≠ none ∧
      s.activeWindow.lookup session = closed) ∧ s.activeWindow.lookup session = some w
  layouts : ∀ w tree, t.layouts.lookup w = some tree ↔
    closed ≠ some w ∧ s.layouts.lookup w = some tree

theorem closedFrom_unzoom (s : Store) (zoomed : Prop) [Decidable zoomed] :
    ClosedFrom none s (if zoomed then s.unzoom else s) := by
  split <;> constructor <;> simp [unzoom]

theorem closedFrom_closeWindowAction (s : Store) (w : WindowId) :
    ClosedFrom (some w) s (s.closeWindowAction s.activeSession w) where
  sessions := rfl
  activeSession := rfl
  focusedPane := rfl
  windows := rfl
  activeWindow session v := by
    unfold closeWindowAction
    cases hactive : s.activeSession with
    | none => simp
    | some sid =>
      simp only [Option.some.injEq]
      split
      · rename_i hw
        rw [Table.lookup_erase_eq_some]
        constructor
        · rintro ⟨hne,hv⟩
          exact ⟨fun h => hne h.1.symm,hv⟩
        · rintro ⟨hne,hv⟩
          refine ⟨?_,hv⟩
          rintro rfl
          exact hne ⟨rfl,by simp,hw⟩
      · rename_i hw
        refine ⟨fun hv => ⟨?_,hv⟩,fun h => h.2⟩
        rintro ⟨rfl,-,h⟩
        exact hw h
  layouts v tree := by
    change (s.layouts.erase w).lookup v = some tree ↔ _
    rw [Table.lookup_erase_eq_some]
    exact and_congr_left fun _ => ⟨fun h h' => h (Option.some.inj h').symm,fun h h' => h (h' ▸ rfl)⟩

section settled

variable {closed : Option WindowId}

theorem ClosedFrom.sessionsRead (h : ClosedFrom closed s t) (d : Daemon) :
    t.sessionsRead d = s.sessionsRead d := by
  unfold Store.sessionsRead
  rw [h.sessions]

theorem ClosedFrom.shownAfter (h : ClosedFrom closed s t) (d : Daemon) :
    t.shownAfter d = s.shownAfter d := by
  unfold Store.shownAfter
  rw [h.activeSession,h.sessionsRead]

theorem ClosedFrom.gone_iff (h : ClosedFrom closed s t) (d : Daemon) (session : SessionId) :
    t.Gone d session ↔ s.Gone d session := by
  unfold Gone
  rw [h.activeSession,h.sessionsRead]

/-- The store before the session is shown, as against the one before the action. -/
structure LeftOf (s : Store) (d : Daemon) (closed : Option WindowId) (u : Store) : Prop where
  windows : ∀ session windows, u.windows.lookup session = some windows ↔
    ¬ s.Gone d session ∧ s.windows.lookup session = some windows
  activeWindow : ∀ session w, u.activeWindow.lookup session = some w ↔
    ¬ s.DropsActiveWindow d closed session ∧ s.activeWindow.lookup session = some w
  layouts : ∀ w tree, u.layouts.lookup w = some tree ↔
    ¬ s.DropsLayout d closed w ∧ s.layouts.lookup w = some tree

theorem ClosedFrom.leftOf (h : ClosedFrom closed s t) (d : Daemon) :
    LeftOf s d closed (t.settle d s.activeSession).1 := by
  have hshed := (settle_spec t d).2
  rw [h.activeSession] at hshed
  have hshed := hshed.congr (h.gone_iff d)
  refine ⟨?_,fun session w => ?_,fun w tree => ?_⟩
  · rw [← h.windows]
    exact hshed.windows
  · rw [hshed.activeWindow,h.activeWindow,h.windows,DropsActiveWindow]
    tauto
  · have hmem : ∀ session, w ∈ t.windowTabs session ↔ w ∈ s.windowTabs session := by
      simp only [mem_windowTabs_iff,h.windows,implies_true]
    simp only [hshed.layouts,h.layouts,hmem,DropsLayout,ne_eq,not_or]
    constructor
    · rintro ⟨hkept,hopen,htree⟩
      exact ⟨⟨hopen,hkept⟩,htree⟩
    · rintro ⟨⟨hopen,hkept⟩,htree⟩
      exact ⟨hkept,hopen,htree⟩

end settled

theorem lookup_loadLayouts (r : Replies) (copy : Table WindowId LayoutNode)
    (windows : List WindowId) (w : WindowId) :
    (loadLayouts r copy windows).lookup w =
      (if w ∈ windows then r.layout w else none).or (copy.lookup w) := by
  induction windows generalizing copy with
  | nil => simp [loadLayouts]
  | cons v windows ih =>
    change (loadLayouts r ((r.layout v).elim copy (copy.insert v)) windows).lookup w = _
    rw [ih]
    by_cases hv : w = v
    · subst hv
      cases hw : r.layout w with
      | none => simp
      | some tree =>
        by_cases hin : w ∈ windows <;> simp [hin]
    · have hcopy : ((r.layout v).elim copy (copy.insert v)).lookup w = copy.lookup w := by
        cases r.layout v with
        | none => rfl
        | some tree => exact AList.lookup_insert_ne hv
      rw [hcopy]
      simp [hv]

section finished

variable {closed : Option WindowId} {p : SessionId × Replies}

theorem eq_iff_of_lost {α : Type} {a b : Option α} {P : Prop}
    (h : ∀ x, a = some x ↔ ¬ P ∧ b = some x) : a = b ↔ (P → b = none) := by
  cases b with
  | none =>
    have ha : a = none := by
      refine Option.eq_none_iff_forall_ne_some.mpr fun x hx => ?_
      cases ((h x).mp hx).2
    simp [ha]
  | some x =>
    rw [h x]
    simp

/-- The store in the end. -/
def finish (s : Store) (p : Option (SessionId × Replies)) : Store :=
  p.elim s fun p => s.showSession p.1 p.2

theorem lookup_layouts_finish (s : Store) (d : Daemon) (u : Store) (w : WindowId) :
    (u.finish (s.shownAfter d)).layouts.lookup w =
      (s.layoutRead d w).or (u.layouts.lookup w) := by
  unfold finish layoutRead
  cases s.shownAfter d with
  | none => rfl
  | some p =>
    simp only [Option.elim_some,Option.bind_some,showSession,focusFirstLeaf]
    cases p.2.windows p.1 with
    | none => rfl
    | some windows => exact lookup_loadLayouts _ _ _ _

theorem layouts_iff (h : LeftOf s d closed u) (w : WindowId) :
    (u.finish (s.shownAfter d)).layouts.lookup w = s.layouts.lookup w ↔
      match s.layoutRead d w with
      | some tree => s.layouts.lookup w = some tree
      | none => s.DropsLayout d closed w → s.layouts.lookup w = none := by
  rw [lookup_layouts_finish]
  cases s.layoutRead d w with
  | some tree => exact eq_comm
  | none => exact eq_iff_of_lost (h.layouts w)

theorem lookup_activeWindow_finish (s : Store) (d : Daemon) (u : Store) (session : SessionId) :
    (u.finish (s.shownAfter d)).activeWindow.lookup session =
      match s.windowsRead d session with
      | some [] => none
      | some (first :: rest) =>
        if (u.activeWindow.lookup session).any (· ∈ first :: rest) then
          u.activeWindow.lookup session
        else some first
      | none => u.activeWindow.lookup session := by
  unfold finish windowsRead
  cases s.shownAfter d with
  | none => rfl
  | some p =>
    simp only [Option.elim_some,Option.bind_some,showSession,focusFirstLeaf]
    by_cases hp : p.1 = session
    · subst hp
      rw [if_pos rfl]
      cases p.2.windows p.1 with
      | none => rfl
      | some windows =>
        cases windows with
        | nil => exact AList.lookup_erase _ _
        | cons first rest =>
          change (if _ then _ else _ : Table SessionId WindowId).lookup p.1 = _
          simp only
          split
          · rfl
          · exact AList.lookup_insert _
    · rw [if_neg hp]
      cases p.2.windows p.1 with
      | none => rfl
      | some windows =>
        cases windows with
        | nil => exact AList.lookup_erase_ne (Ne.symm hp)
        | cons first rest =>
          change (if _ then _ else _ : Table SessionId WindowId).lookup session = _
          split
          · rfl
          · exact AList.lookup_insert_ne (Ne.symm hp)

theorem activeWindow_iff (h : LeftOf s d closed u) (session : SessionId) :
    (u.finish (s.shownAfter d)).activeWindow.lookup session = s.activeWindow.lookup session ↔
      match s.windowsRead d session with
      | some [] => s.activeWindow.lookup session = none
      | some (first :: rest) => s.activeWindow.lookup session = some first ∨
        ¬ s.DropsActiveWindow d closed session ∧ ∃ w ∈ s.activeWindow.lookup session, w ∈ rest
      | none => s.DropsActiveWindow d closed session →
        s.activeWindow.lookup session = none := by
  rw [lookup_activeWindow_finish]
  have hlost := h.activeWindow session
  cases hread : s.windowsRead d session with
  | none => exact eq_iff_of_lost hlost
  | some windows =>
    cases windows with
    | nil => exact eq_comm
    | cons first rest =>
      simp only
      generalize u.activeWindow.lookup session = a at hlost
      generalize s.activeWindow.lookup session = b at hlost
      by_cases hP : s.DropsActiveWindow d closed session
      · have ha : a = none := by
          refine Option.eq_none_iff_forall_ne_some.mpr fun x hx => ?_
          exact ((hlost x).mp hx).1 hP
        simp [ha,hP,eq_comm]
      · have ha : a = b := (eq_iff_of_lost hlost).mpr fun h => absurd h hP
        subst ha
        cases a with
        | none => simp
        | some w =>
          by_cases hw : w = first
          · simp [hw]
          · by_cases hin : w ∈ rest
            · simp [hin,hP]
            · simp [hin,hP,eq_comm]

theorem activeWindowOf_loadSession (u : Store) (r : Replies) (session : SessionId)
    (windows : List WindowId) :
    (u.loadSession r session windows).activeWindowOf session =
      (u.loadSession r session windows).activeWindow.lookup session := by
  have hactive := activeWindow_reloadWindows u session windows
  have htabs : (u.loadSession r session windows).windowTabs session = windows :=
    congrArg (·.getD []) (lookup_reloadWindows u session windows)
  have hload : (u.loadSession r session windows).activeWindow =
      (u.reloadWindows session windows).activeWindow := rfl
  unfold activeWindowOf
  rw [htabs,hload]
  cases hw : (u.reloadWindows session windows).activeWindow.lookup session with
  | none =>
    rw [hw] at hactive
    simp only at hactive
    rw [hactive]
    rfl
  | some w =>
    rw [hw] at hactive
    exact if_pos hactive

theorem LeftOf.activeWindowOf_gone (h : LeftOf s d closed u) {session : SessionId}
    (hgone : s.Gone d session) : u.activeWindowOf session = none := by
  have hnone : u.windows.lookup session = none := by
    refine Option.eq_none_iff_forall_ne_some.mpr fun windows hw => ?_
    exact ((h.windows session windows).mp hw).1 hgone
  unfold activeWindowOf windowTabs
  rw [hnone]
  split <;> simp

theorem LeftOf.activeWindowOf (h : LeftOf s d closed u) {session : SessionId}
    (hgone : ¬ s.Gone d session)
    (hactive : u.activeWindow.lookup session = s.activeWindow.lookup session) :
    u.activeWindowOf session = s.activeWindowOf session := by
  have hsame : u.windows.lookup session = s.windows.lookup session :=
    (eq_iff_of_lost (h.windows session)).mpr fun hg => absurd hg hgone
  unfold Store.activeWindowOf windowTabs
  rw [hsame,hactive]

theorem focus_iff (h : LeftOf s d closed u)
    (hnone : s.shownAfter d = none →
      u.focusedPane = if s.activeSession = none then s.focusedPane else none)
    (hl : ∀ w, (u.finish (s.shownAfter d)).layouts.lookup w = s.layouts.lookup w)
    (ha : ∀ session, (u.finish (s.shownAfter d)).activeWindow.lookup session =
      s.activeWindow.lookup session) :
    (u.finish (s.shownAfter d)).focusedPane = s.focusedPane ↔
      match s.shownAfter d with
      | some (session,r) => match r.windows session with
        | some _ => s.focusedPane = s.firstPane (s.activeWindow.lookup session)
        | none => (s.Gone d session → s.focusedPane = none) ∧
          (¬ s.Gone d session → s.focusedPane = s.firstPane (s.activeWindowOf session))
      | none => s.activeSession ≠ none → s.focusedPane = none := by
  cases hshown : s.shownAfter d with
  | none =>
    change u.focusedPane = s.focusedPane ↔ _
    rw [hnone hshown]
    split_ifs with hactive
    · simp [hactive]
    · simp [hactive,eq_comm]
  | some p =>
    obtain ⟨session,r⟩ := p
    rw [hshown] at hl ha
    unfold finish showSession at hl ha ⊢
    simp only [Option.elim_some] at hl ha ⊢
    have hlookup := funext hl
    cases hw : r.windows session with
    | some windows =>
      rw [hw] at hlookup ha
      change (leafPanes (((u.loadSession r session windows).activeWindowOf session).bind
        (u.loadSession r session windows).layouts.lookup)).head? = s.focusedPane ↔ _
      have hactive : (u.loadSession r session windows).activeWindow.lookup session =
        s.activeWindow.lookup session := ha session
      have hlayouts : (u.loadSession r session windows).layouts.lookup = s.layouts.lookup := hlookup
      rw [activeWindowOf_loadSession,hactive,hlayouts]
      exact eq_comm
    | none =>
      rw [hw] at hlookup ha
      change (leafPanes ((u.activeWindowOf session).bind u.layouts.lookup)).head? =
        s.focusedPane ↔ _
      have hlayouts : u.layouts.lookup = s.layouts.lookup := hlookup
      rw [hlayouts]
      by_cases hgone : s.Gone d session
      · rw [h.activeWindowOf_gone hgone]
        simp [hgone,leafPanes,eq_comm]
      · rw [h.activeWindowOf hgone (ha session)]
        simp [hgone,firstPane,eq_comm]

/-- The store is as before just where the reload brings what it had. -/
theorem reproduced_iff (h : LeftOf s d closed u)
    (hnone : s.shownAfter d = none →
      u.focusedPane = if s.activeSession = none then s.focusedPane else none) :
    s.Reproduced d closed ↔
      (∀ w, (u.finish (s.shownAfter d)).layouts.lookup w = s.layouts.lookup w) ∧
      (∀ session, (u.finish (s.shownAfter d)).activeWindow.lookup session =
        s.activeWindow.lookup session) ∧
      (u.finish (s.shownAfter d)).focusedPane = s.focusedPane := by
  constructor
  · intro hr
    have hl := fun w => (layouts_iff h w).mpr (hr.layouts w)
    have ha := fun session => (activeWindow_iff h session).mpr (hr.activeWindow session)
    exact ⟨hl,ha,(focus_iff h hnone hl ha).mpr hr.focus⟩
  · rintro ⟨hl,ha,hf⟩
    exact ⟨fun w => (layouts_iff h w).mp (hl w),
      fun session => (activeWindow_iff h session).mp (ha session),
      (focus_iff h hnone hl ha).mp hf⟩

end finished

end Store

namespace Desk

variable {g : Desk} {d : Daemon} {t : Store} {closed : Option WindowId}
  {disposed detached drawn later : List PaneId}

/-- What the close actions have in common: terminals are disposed of, streams detached, and the
sessions and the active one reloaded. -/
def closeTail (g : Desk) (d : Daemon) (t : Store) (disposed detached drawn later : List PaneId) :
    Desk :=
  reload { (g.detach detached).dispose disposed with store := t } d g.store.activeSession drawn later

theorem store_closeTail (h : g.store.ClosedFrom closed t) :
    (g.closeTail d t disposed detached drawn later).store =
      (t.settle d g.store.activeSession).1.finish (g.store.shownAfter d) := by
  have hshown := (Store.settle_spec t d).1
  rw [h.activeSession,h.shownAfter] at hshown
  unfold closeTail reload
  rw [← hshown]
  simp only
  generalize t.settle d g.store.activeSession = p
  obtain ⟨u,_ | ⟨session,r⟩⟩ := p <;> rfl

theorem terms_closeTail :
    (g.closeTail d t disposed detached drawn later).terms =
      (g.terms.renewAll (disposed.map fun pane => (pane,false))).ensureAll (drawn ++ later) := by
  unfold closeTail reload
  simp only
  generalize t.settle d g.store.activeSession = p
  obtain ⟨u,_ | ⟨session,r⟩⟩ := p
  · rfl
  · exact (List.foldl_append (f := Instances.ensure)).symm

/-- The panes a stream is asked for, as the store lists them in the end. -/
def wanted (u : Store) (p : Option (SessionId × Replies)) : List PaneId :=
  p.elim [] fun p => u.reloadedPanes p.1 p.2

theorem pumps_closeTail (h : g.store.ClosedFrom closed t) :
    (g.closeTail d t disposed detached drawn later).pumps =
      g.pumps.renewAll (detached.map (fun pane => (pane,false)) ++
        ((wanted (t.settle d g.store.activeSession).1 (g.store.shownAfter d)).dedup.filter fun pane =>
          pane ∉ ((g.terms.renewAll (disposed.map fun pane => (pane,false))).ensureAll
            drawn).table).map fun pane => (pane,d.connects pane)) := by
  have hshown := (Store.settle_spec t d).1
  rw [h.activeSession,h.shownAfter] at hshown
  unfold closeTail reload
  rw [← hshown,Instances.renewAll_append]
  simp only
  generalize t.settle d g.store.activeSession = p
  obtain ⟨u,_ | ⟨session,r⟩⟩ := p <;> rfl

/-- With the layouts as before, these are the leaves of the windows that are read. -/
theorem wanted_eq {s u : Store}
    (hl : ∀ w, (u.finish (s.shownAfter d)).layouts.lookup w = s.layouts.lookup w) :
    wanted u (s.shownAfter d) = s.panesRead d := by
  unfold wanted Store.panesRead Store.reloadedPanes
  cases hshown : s.shownAfter d with
  | none => rfl
  | some p =>
    rw [hshown] at hl
    simp only [Option.elim_some]
    cases hw : p.2.windows p.1 with
    | none => rfl
    | some windows =>
      have hlayouts : ∀ w, (u.loadSession p.2 p.1 windows).layouts.lookup w =
          s.layouts.lookup w := by
        intro w
        have hlw := hl w
        unfold Store.finish Store.showSession at hlw
        simp only [Option.elim_some,hw] at hlw
        exact hlw
      simp only [Option.elim_some,hlayouts]

/-- No terminal and no stream that is taken down, or asked for anew, was there; and the store is
what the reload brings. -/
structure Untouched (g : Desk) (d : Daemon) (closed : Option WindowId)
    (disposed detached : List PaneId) : Prop where
  terms : ∀ pane ∈ disposed, pane ∉ g.terms.table
  detached : ∀ pane ∈ detached, pane ∉ g.pumps.table
  streams : ∀ pane ∈ g.store.panesRead d, pane ∉ g.terms.table → pane ∉ g.pumps.table
  store : g.store.Reproduced d closed

theorem keeps_terms_iff :
    g.terms.Keeps (g.closeTail d t disposed detached drawn later).terms ↔
      ∀ pane ∈ disposed, pane ∉ g.terms.table := by
  rw [terms_closeTail,Instances.keeps_renewAll_iff (Instances.keeps_ensureAll _ _)
    (Instances.follows_ensureAll _ _)]
  simp

theorem keeps_pumps_iff (h : g.store.ClosedFrom closed t)
    (hl : ∀ w, ((t.settle d g.store.activeSession).1.finish
      (g.store.shownAfter d)).layouts.lookup w = g.store.layouts.lookup w) :
    g.pumps.Keeps (g.closeTail d t disposed detached drawn later).pumps ↔
      (∀ pane ∈ detached, pane ∉ g.pumps.table) ∧
        ∀ pane ∈ g.store.panesRead d,
          pane ∉ ((g.terms.renewAll (disposed.map fun pane => (pane,false))).ensureAll
            drawn).table → pane ∉ g.pumps.table := by
  rw [pumps_closeTail h,Instances.keeps_renewAll_iff (.refl _) (.refl _),wanted_eq hl]
  simp only [List.map_append,List.map_map,Function.comp_def,List.map_id',List.mem_append,
    List.mem_filter,List.mem_dedup,decide_eq_true_eq,or_imp,forall_and,and_imp]

/-- A pane of which no terminal was disposed has one in the end if it had one. -/
theorem notMem_ensureAll_iff (h : ∀ pane ∈ disposed, pane ∉ g.terms.table) {pane : PaneId} :
    (∃ drawn, pane ∉ ((g.terms.renewAll (disposed.map fun pane => (pane,false))).ensureAll
      drawn).table) ↔ pane ∉ g.terms.table := by
  have hmem : pane ∈ (g.terms.renewAll (disposed.map fun pane => (pane,false))).table ↔
      pane ∈ g.terms.table := by
    rw [Instances.mem_renewAll_false_iff]
    exact ⟨fun hp => hp.2,fun hp => ⟨fun hd => h pane hd hp,hp⟩⟩
  constructor
  · rintro ⟨drawn,hnone⟩ hp
    obtain ⟨n,hn⟩ := Option.isSome_iff_exists.mp (AList.lookup_isSome.mpr (hmem.mpr hp))
    exact Table.lookup_of_notMem hnone (Instances.keeps_ensureAll _ drawn pane n hn)
  · intro hp
    exact ⟨[],fun hnone => hp (hmem.mp hnone)⟩

theorem closeTail_unchanged_iff (h : g.store.ClosedFrom closed t) :
    (∀ drawn later, g.Unchanged (g.closeTail d t disposed detached drawn later)) ↔
      g.Untouched d closed disposed detached := by
  have hleft := h.leftOf d
  have hfocus : g.store.shownAfter d = none →
      (t.settle d g.store.activeSession).1.focusedPane =
        if g.store.activeSession = none then g.store.focusedPane else none := by
    intro hnone
    rw [← h.shownAfter] at hnone
    have hsettle := Store.focus_settle hnone
    rwa [h.activeSession,h.focusedPane] at hsettle
  have hstore := Store.reproduced_iff hleft hfocus
  constructor
  · intro hall
    have hfirst := hall [] []
    have hl := hfirst.layouts
    rw [store_closeTail h] at hl
    have hterms := keeps_terms_iff.mp hfirst.terms
    refine ⟨hterms,((keeps_pumps_iff h hl).mp hfirst.pumps).1,fun pane hpane hnone => ?_,?_⟩
    · obtain ⟨drawn,hdrawn⟩ := (notMem_ensureAll_iff hterms).mpr hnone
      exact ((keeps_pumps_iff h hl).mp (hall drawn []).pumps).2 pane hpane hdrawn
    · have ha := hfirst.activeWindow
      have hf := hfirst.focus
      rw [store_closeTail h] at ha hf
      exact hstore.mpr ⟨hl,ha,hf⟩
  · intro hu drawn later
    obtain ⟨hl,ha,hf⟩ := hstore.mp hu.store
    refine ⟨keeps_terms_iff.mpr hu.terms,(keeps_pumps_iff h hl).mpr ⟨hu.detached,?_⟩,?_,?_,?_⟩
    · intro pane hpane hnone
      exact hu.streams pane hpane ((notMem_ensureAll_iff hu.terms).mp ⟨drawn,hnone⟩)
    · rwa [store_closeTail h]
    · rwa [store_closeTail h]
    · rwa [store_closeTail h]

theorem Unchanged.refl (g : Desk) : g.Unchanged g :=
  ⟨.refl _,.refl _,fun _ => rfl,fun _ => rfl,rfl⟩

/-- A close that fails changes nothing just where there was no terminal and no stream to take down
and the reload brings what the store had; that of a session never does. -/
theorem failed_close_unchanged_iff (g : Desk) (d : Daemon) :
    (∀ pane, (∀ drawn later, g.Unchanged (g.closePaneAction d pane drawn later)) ↔
      ∀ target, (pane <|> g.store.focusedPane) = some target → g.Untouched d none [target] []) ∧
    (∀ w, (∀ drawn later, g.Unchanged (g.closeWindowAction d w drawn later)) ↔
      g.Untouched d (some w) (leafPanes (g.store.layouts.lookup w))
        (leafPanes (g.store.layouts.lookup w))) ∧
    ∀ session later, g.Unchanged (g.closeSessionAction session later) := by
  refine ⟨fun pane => ?_,fun w => ?_,fun session later => ?_⟩
  · cases htarget : pane <|> g.store.focusedPane with
    | none =>
      refine iff_of_true (fun drawn later => ?_) fun target h => by cases h
      simp only [closePaneAction,htarget]
      exact .refl g
    | some target =>
      have hiff : (∀ drawn later, g.Unchanged (g.closeTail d _ [target] [] drawn later)) ↔ _ :=
        closeTail_unchanged_iff
          (Store.closedFrom_unzoom g.store (g.store.zoomedPane = some target))
      simp only [Option.some.injEq,forall_eq']
      rw [← hiff]
      simp only [closePaneAction,htarget]
      rfl
  · exact closeTail_unchanged_iff (Store.closedFrom_closeWindowAction g.store w)
  · exact ⟨Instances.keeps_ensureAll _ _,.refl _,fun _ => rfl,fun _ => rfl,rfl⟩

/-- A session of one window of one pane, which is focused. -/
def onlyPane : Store where
  sessions := [⟨⟨1⟩,1⟩]
  activeSession := some ⟨1⟩
  focusedPane := some ⟨1⟩
  zoomedPane := none
  layouts := AList.insert ⟨1⟩ (.leaf ⟨1⟩) ∅
  windows := AList.insert ⟨1⟩ [⟨1⟩] ∅
  activeWindow := AList.insert ⟨1⟩ ⟨1⟩ ∅

def onlyPaneDesk : Desk := ⟨onlyPane,Instances.empty.start ⟨1⟩,Instances.empty.start ⟨1⟩⟩

/-- The daemon has the same session, window and tree. -/
def onlyPaneDaemon : Daemon :=
  ⟨⟨some [⟨⟨1⟩,1⟩],fun _ => some [⟨1⟩],fun _ => some (.leaf ⟨1⟩)⟩,none,fun _ => true⟩

/-- The terminal of a pane that could not be closed is gone. -/
theorem failed_close_disposes :
    ¬ onlyPaneDesk.Unchanged (onlyPaneDesk.closePaneAction onlyPaneDaemon none [] []) := by
  intro h
  have hterm := h.terms ⟨1⟩ 0 rfl
  cases hterm

end Desk

/-! The actions as they are cut at their awaits come to the same stores. -/

/-- What the daemon replies to the requests that a failed close is followed by. -/
def Daemon.answer (d : Daemon) : Awaiting → DaemonReply
  | .listSessions _ => d.replies.sessions.elim .failed .sessions
  | .listWindows session _ => (d.replies.windows session).elim .failed .windows
  | .windowLayout _ w _ _ => (d.replies.layout w).elim .failed .layout
  | .ensureStreams _ => .ok
  | _ => .failed

inductive Ends : Daemon → Stretch → Store → Prop where
  | done (d : Daemon) (s : Store) : Ends d (s,none) s
  | reply {d : Daemon} {s t : Store} {phase : Awaiting} {next : Stretch}
      (hphase : phase ≠ .spawnSession) (hnext : s.resume phase (d.answer phase) = some next)
      (hends : Ends d next t) : Ends d (s,some phase) t
  | spawn {d : Daemon} {s t : Store} {new : SessionId} {r : Replies}
      (hspawned : d.spawned = some (new,r))
      (hends : Ends ⟨r,none,d.connects⟩ (s,some (.listSessions (.newSession new))) t) :
      Ends d (s,some .spawnSession) t
  | spawnFails {d : Daemon} (s : Store) (hspawned : d.spawned = none) :
      Ends d (s,some .spawnSession) s

namespace Store

variable {s : Store} {d : Daemon}

theorem ends_layouts (s : Store) (d : Daemon) (session : SessionId)
    (copy : Table WindowId LayoutNode) (w : WindowId) (todo : List WindowId) :
    Ends d (s,some (.windowLayout copy w todo (.focusFirstLeaf session)))
      (focusFirstLeaf { s with layouts := loadLayouts d.replies copy (w :: todo) } session) := by
  have hstep : ∀ later, s.resume (.windowLayout copy w later (.focusFirstLeaf session))
      (d.answer (.windowLayout copy w later (.focusFirstLeaf session))) =
        some (s.afterLayout (loadLayouts d.replies copy [w]) later (.focusFirstLeaf session)) := by
    intro later
    cases hw : d.replies.layout w <;> simp [Daemon.answer,hw,resume,loadLayouts]
  induction todo generalizing copy w with
  | nil => exact .reply (by simp) (hstep []) (.reply (by simp) rfl (.done _ _))
  | cons v todo ih =>
    refine .reply (by simp) (hstep (v :: todo)) (ih _ v fun later => ?_)
    cases hv : d.replies.layout v <;> simp [Daemon.answer,hv,resume,loadLayouts]

theorem ends_show (s : Store) (d : Daemon) (session : SessionId) :
    Ends d (s,some (.show session)) (s.showSession session d.replies) := by
  unfold showSession
  cases hw : d.replies.windows session with
  | none =>
    have hstep : s.resume (.show session) (d.answer (.show session)) =
        some (s.afterReload (.focusFirstLeaf session)) := by
      simp [Daemon.answer,hw,Awaiting.show,resume]
    exact .reply (by simp [Awaiting.show]) hstep (.done _ _)
  | some windows =>
    have hstep : s.resume (.show session) (d.answer (.show session)) =
        some (s.afterWindows session (.focusFirstLeaf session) windows) := by
      simp [Daemon.answer,hw,Awaiting.show,resume]
    refine .reply (by simp [Awaiting.show]) hstep ?_
    cases windows with
    | nil => exact .reply (by simp) rfl (.done _ _)
    | cons w todo => exact ends_layouts _ d session _ w todo

/-- The reload of the close actions. -/
theorem ends_settle (s : Store) (d : Daemon) (session : Option SessionId) :
    Ends d (s,some (.listSessions (.closeAction session)))
      ((s.settle d session).1.finish (s.settle d session).2) := by
  have hstep : ∀ (s : Store) (d : Daemon) (next : AfterSessions),
      s.resume (.listSessions next) (d.answer (.listSessions next)) =
        some ((s.loadSessions d.replies).afterSessions next) := by
    intro s d next
    cases hl : d.replies.sessions <;> simp [Daemon.answer,hl,resume,loadSessions]
  refine .reply (by simp) (hstep s d _) ?_
  unfold settle
  cases session with
  | none => exact .done _ _
  | some session =>
    simp only [afterSessions]
    split
    · exact ends_show _ d session
    · unfold Awaiting.successor
      cases hfirst : (s.loadSessions d.replies).activateFirst.activeSession with
      | some first => exact ends_show _ d first
      | none =>
        cases hspawned : d.spawned with
        | none => exact .spawnFails _ hspawned
        | some p =>
          refine .spawn hspawned (.reply (by simp) (hstep _ _ _) ?_)
          exact ends_show _ ⟨p.2,none,d.connects⟩ p.1

end Store

theorem Desk.store_reload (g : Desk) (d : Daemon) (session : Option SessionId)
    (drawn later : List PaneId) :
    (g.reload d session drawn later).store =
      (g.store.settle d session).1.finish (g.store.settle d session).2 := by
  unfold reload
  generalize g.store.settle d session = p
  obtain ⟨u,_ | ⟨session,r⟩⟩ := p <;> rfl

/-- A failed close ends with the store that the actions end with, from await to await. -/
theorem ends_closePaneAction (g : Desk) (d : Daemon) (pane : Option PaneId)
    (drawn later : List PaneId) :
    Ends d (g.store.act (.closePaneAction pane)) (g.closePaneAction d pane drawn later).store := by
  change Ends d (g.store,(pane <|> g.store.focusedPane).map (.closePane g.store.activeSession)) _
  unfold Desk.closePaneAction
  cases pane <|> g.store.focusedPane with
  | none => exact .done _ _
  | some target =>
    rw [Desk.store_reload]
    exact .reply (by simp) rfl (Store.ends_settle _ d _)

theorem ends_closeWindowAction (g : Desk) (d : Daemon) (w : WindowId)
    (drawn later : List PaneId) :
    Ends d (g.store.act (.closeWindowAction w)) (g.closeWindowAction d w drawn later).store := by
  unfold Desk.closeWindowAction
  rw [Desk.store_reload]
  exact .reply (by simp) rfl (Store.ends_settle _ d _)

theorem ends_closeSessionAction (g : Desk) (d : Daemon) (session : SessionId)
    (later : List PaneId) :
    Ends d (g.store.act (.closeSessionAction session)) (g.closeSessionAction session later).store :=
  .reply (by simp) rfl (.done _ _)

end Pyre.Gui
