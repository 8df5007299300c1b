import Pyre.Base.Table
import Pyre.Layout

/-!
The store of the GUI, as far as its sessions, windows and panes go, and the parts of the
functions that load it which run without an await. A map is replaced as a whole: what a
function writes is the copy it has made.
-/

set_option autoImplicit false

namespace Pyre.Gui
open Base

structure SessionInfo where
  id : SessionId
  paneCount : Nat
  deriving DecidableEq, Repr

/-- `layouts` has the trees of all sessions, under their windows. -/
structure Store where
  sessions : List SessionInfo
  activeSession : Option SessionId
  focusedPane : Option PaneId
  zoomedPane : Option PaneId
  layouts : Table WindowId LayoutNode
  windows : Table SessionId (List WindowId)
  activeWindow : Table SessionId WindowId

def leafPanes (layout : Option LayoutNode) : List PaneId := layout.elim [] (·.allLeaves)

namespace Store

def start : Store := ⟨[],none,none,none,∅,∅,∅⟩

def windowTabs (s : Store) (session : SessionId) : List WindowId :=
  (s.windows.lookup session).getD []

/-- The window chosen while it is still listed, else the first. -/
def activeWindowOf (s : Store) (session : SessionId) : Option WindowId :=
  match s.activeWindow.lookup session with
  | some w => if w ∈ s.windowTabs session then some w else (s.windowTabs session).head?
  | none => (s.windowTabs session).head?

def dropLayouts (layouts : Table WindowId LayoutNode) (windows : List WindowId) :
    Table WindowId LayoutNode := layouts.retain fun w _ => w ∉ windows

/-- `reloadSessions` once the list has come: what the store has of sessions that are not listed
is evicted. -/
def reloadSessions (s : Store) (sessions : List SessionInfo) : Store :=
  let live := sessions.map (·.id)
  let gone := s.windows.entries.filter fun e => e.1 ∉ live
  let vanished := s.activeSession.any (· ∉ live)
  { sessions
    activeSession := if vanished then none else s.activeSession
    focusedPane := if vanished then none else s.focusedPane
    zoomedPane := if vanished then none else s.zoomedPane
    layouts := dropLayouts s.layouts (gone.flatMap (·.2))
    windows := s.windows.retain fun sid _ => sid ∈ live
    activeWindow := s.activeWindow.retain fun sid _ => sid ∈ live ∨ sid ∉ s.windows.keys }

/-- `reloadWindows` once the list has come. -/
def reloadWindows (s : Store) (session : SessionId) (windows : List WindowId) : Store :=
  { s with
    windows := s.windows.insert session windows
    activeWindow := match windows with
      | [] => s.activeWindow.erase session
      | first :: _ =>
        if (s.activeWindow.lookup session).any (· ∈ windows) then s.activeWindow
        else s.activeWindow.insert session first }

/-- `removeSessionNow` up to its first await: the successor of the active session is the first
that is left. -/
def removeSessionNow (s : Store) (session : SessionId) : Store :=
  let sessions := s.sessions.filter fun info => info.id ≠ session
  let wasActive := s.activeSession = some session
  { sessions
    activeSession := if wasActive then sessions.head?.map (·.id) else s.activeSession
    focusedPane := if wasActive then none else s.focusedPane
    zoomedPane := if wasActive then none else s.zoomedPane
    layouts := dropLayouts s.layouts (s.windowTabs session)
    windows := s.windows.erase session
    activeWindow := s.activeWindow.erase session }

/-- `closeSessionAction` once the daemon has closed the session: `windows` were read before. -/
def closeSessionAction (s : Store) (session : SessionId) (windows : List WindowId) : Store :=
  { s with
    layouts := dropLayouts s.layouts windows
    windows := s.windows.erase session
    activeWindow := s.activeWindow.erase session }

/-- `closeWindowAction` after the daemon's reply: `session` was active before. -/
def closeWindowAction (s : Store) (session : Option SessionId) (window : WindowId) : Store :=
  { s with
    layouts := s.layouts.erase window
    activeWindow := match session with
      | some sid =>
        if s.activeWindow.lookup sid = some window then s.activeWindow.erase sid
        else s.activeWindow
      | none => s.activeWindow }

def focusFirstLeaf (s : Store) (session : SessionId) : Store :=
  { s with focusedPane :=
      (leafPanes ((s.activeWindowOf session).bind s.layouts.lookup)).head? }

/-! What each part leaves as it is, and what it has in the end. -/

/-- The session has the same windows in both, with the same trees. -/
structure SameOn (home : WindowId → SessionId) (s t : Store) (session : SessionId) : Prop where
  windows : t.windows.lookup session = s.windows.lookup session
  activeWindow : t.activeWindow.lookup session = s.activeWindow.lookup session
  layouts : ∀ w, home w = session → t.layouts.lookup w = s.layouts.lookup w

/-- Every window listed is of the session it is listed for. -/
def Owned (home : WindowId → SessionId) (s : Store) : Prop :=
  ∀ session windows, s.windows.lookup session = some windows → ∀ w ∈ windows, home w = session

variable {home : WindowId → SessionId} {s : Store} {session other : SessionId} {w : WindowId}

theorem lookup_dropLayouts {layouts : Table WindowId LayoutNode} {windows : List WindowId}
    (h : w ∉ windows) : (dropLayouts layouts windows).lookup w = layouts.lookup w := by
  refine Option.ext fun tree => ?_
  rw [dropLayouts,Table.lookup_retain_eq_some]
  simp [h]

theorem mem_of_dropLayouts {layouts : Table WindowId LayoutNode} {windows : List WindowId}
    (h : w ∈ dropLayouts layouts windows) : w ∈ layouts := by
  obtain ⟨tree,htree⟩ := Option.isSome_iff_exists.mp (AList.lookup_isSome.mpr h)
  exact AList.lookup_isSome.mp
    (Option.isSome_of_eq_some (Table.lookup_retain_eq_some.mp htree).1)

theorem mem_windowTabs (h : s.Owned home) (hw : w ∈ s.windowTabs session) : home w = session := by
  cases hs : s.windows.lookup session with
  | none => simp [windowTabs,hs] at hw
  | some windows =>
    rw [windowTabs,hs,Option.getD_some] at hw
    exact h session windows hs w hw

theorem sameOn_reloadSessions (h : s.Owned home) {sessions : List SessionInfo}
    (hlive : session ∈ sessions.map (·.id)) :
    SameOn home s (s.reloadSessions sessions) session := by
  refine ⟨Option.ext fun windows => ?_,Option.ext fun w => ?_,fun w hw => ?_⟩
  · rw [reloadSessions,Table.lookup_retain_eq_some]
    simp only [hlive,decide_true,and_true]
  · rw [reloadSessions,Table.lookup_retain_eq_some]
    simp only [hlive,true_or,decide_true,and_true]
  · refine lookup_dropLayouts fun hmem => ?_
    obtain ⟨e,he,hwe⟩ := List.mem_flatMap.mp hmem
    obtain ⟨he,hgone⟩ := List.mem_filter.mp he
    have hhome := h e.1 e.2 (Table.lookup_eq_some.mpr he) w hwe
    rw [hw] at hhome
    exact of_decide_eq_true hgone (hhome ▸ hlive)

theorem sameOn_reloadWindows {windows : List WindowId} (hne : other ≠ session) :
    SameOn home s (s.reloadWindows session windows) other := by
  refine ⟨AList.lookup_insert_ne hne,?_,fun w _ => rfl⟩
  cases windows with
  | nil => exact AList.lookup_erase_ne hne
  | cons first rest =>
    simp only [reloadWindows]
    split
    · rfl
    · exact AList.lookup_insert_ne hne

theorem sameOn_removeSessionNow (h : s.Owned home) (hne : other ≠ session) :
    SameOn home s (s.removeSessionNow session) other := by
  refine ⟨AList.lookup_erase_ne hne,AList.lookup_erase_ne hne,fun w hw => ?_⟩
  exact lookup_dropLayouts fun hmem => hne (hw.symm.trans (mem_windowTabs h hmem))

theorem sameOn_closeSessionAction {windows : List WindowId} (h : ∀ w ∈ windows, home w = session)
    (hne : other ≠ session) : SameOn home s (s.closeSessionAction session windows) other := by
  refine ⟨AList.lookup_erase_ne hne,AList.lookup_erase_ne hne,fun w hw => ?_⟩
  exact lookup_dropLayouts fun hmem => hne (hw.symm.trans (h w hmem))

theorem sameOn_closeWindowAction {active : Option SessionId} (hne : other ≠ home w)
    (hactive : active ≠ some other) : SameOn home s (s.closeWindowAction active w) other := by
  refine ⟨rfl,?_,fun v hv => AList.lookup_erase_ne ?_⟩
  · cases active with
    | none => rfl
    | some sid =>
      simp only [closeWindowAction]
      split
      · exact AList.lookup_erase_ne fun heq => hactive (heq ▸ rfl)
      · rfl
  · rintro rfl
    exact hne hv.symm

theorem owned_reloadSessions (h : s.Owned home) (sessions : List SessionInfo) :
    (s.reloadSessions sessions).Owned home := by
  intro session windows hl
  rw [reloadSessions,Table.lookup_retain_eq_some] at hl
  exact h session windows hl.1

theorem owned_reloadWindows (h : s.Owned home) {windows : List WindowId}
    (hw : ∀ w ∈ windows, home w = session) : (s.reloadWindows session windows).Owned home := by
  intro session' windows' hl
  rcases Table.lookup_insert_eq_some.mp hl with ⟨rfl,rfl⟩ | ⟨-,hl⟩
  · exact hw
  · exact h session' windows' hl

theorem owned_erase (h : s.Owned home) {t : Store} (ht : t.windows = s.windows.erase session) :
    t.Owned home := by
  intro session' windows hl
  rw [ht] at hl
  exact h session' windows (Table.lookup_erase_eq_some.mp hl).2

theorem lookup_reloadWindows (s : Store) (session : SessionId) (windows : List WindowId) :
    (s.reloadWindows session windows).windows.lookup session = some windows :=
  AList.lookup_insert _

/-- The active window is one of those listed. -/
theorem activeWindow_reloadWindows (s : Store) (session : SessionId) (windows : List WindowId) :
    match (s.reloadWindows session windows).activeWindow.lookup session with
    | some w => w ∈ windows
    | none => windows = [] := by
  cases windows with
  | nil => simp [reloadWindows,AList.lookup_erase]
  | cons first rest =>
    by_cases hin : (s.activeWindow.lookup session).any (· ∈ first :: rest) = true
    · obtain ⟨w,hw,hmem⟩ := (Option.any_eq_true _ _).mp hin
      have hsame : (s.reloadWindows session (first :: rest)).activeWindow = s.activeWindow :=
        if_pos hin
      rw [hsame,hw]
      exact of_decide_eq_true hmem
    · have hfirst : (s.reloadWindows session (first :: rest)).activeWindow =
          s.activeWindow.insert session first := if_neg hin
      rw [hfirst,AList.lookup_insert]
      exact List.mem_cons_self

end Store
end Pyre.Gui
