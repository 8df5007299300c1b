import Mathlib.Data.List.Sort
import Mathlib.Data.Nat.Pairing
import Pyre.Layout

/-!
The backfill of the `windows` table when a store is opened that is older than it. Each session
gets a first window with the layout it had, each of its other panes one of its own. The writes
are statements of their own, with no transaction around them.
-/

set_option autoImplicit false

namespace Pyre.WindowBackfill

/-- A column with an id: that of a UUID, in the one spelling the store writes, or text that
`Uuid::parse_str` refuses. -/
inductive RowId (α : Type) where
  | uuid (id : α)
  | other (text : Text)
  deriving DecidableEq, Repr

structure SessionRow where
  id : RowId SessionId
  createdAt : Int
  layout : Option Text
  deriving DecidableEq, Repr

structure PaneRow where
  id : RowId PaneId
  session : RowId SessionId
  name : Option Text
  createdAt : Int
  window : Option WindowId
  deriving DecidableEq, Repr

structure WindowRow where
  id : WindowId
  session : SessionId
  name : Text
  layout : Option Text
  position : Nat
  createdAt : Int
  deriving DecidableEq, Repr

inductive Stmt where
  | insertWindow (id : WindowId) (session : SessionId) (name : Text) (position : Nat)
      (createdAt : Int)
  | setLayout (id : WindowId) (layout : Text)
  | assignTree (id : WindowId) (session : SessionId) (panes : List PaneId)
  | assignPane (id : WindowId) (pane : PaneId)
  deriving DecidableEq, Repr

namespace Stmt

/-- The window that it is about. -/
def target : Stmt → WindowId
  | .insertWindow id _ _ _ _ | .setLayout id _ | .assignTree id _ _ | .assignPane id _ => id

/-- The `WHERE` of an `UPDATE panes`. -/
def Assigns (stmt : Stmt) (row : PaneRow) : Prop :=
  match stmt with
  | .insertWindow _ _ _ _ _ | .setLayout _ _ => False
  | .assignTree _ session panes => row.session = .uuid session ∧ row.id ∈ panes.map RowId.uuid
  | .assignPane _ pane => row.id = .uuid pane

instance (stmt : Stmt) (row : PaneRow) : Decidable (stmt.Assigns row) :=
  match stmt with
  | .insertWindow _ _ _ _ _ | .setLayout _ _ => inferInstanceAs (Decidable False)
  | .assignTree _ _ _ => inferInstanceAs (Decidable (_ ∧ _))
  | .assignPane _ _ => inferInstanceAs (Decidable (_ = _))

def onPane (stmt : Stmt) (row : PaneRow) : PaneRow :=
  if stmt.Assigns row then { row with window := some stmt.target } else row

/-- The insertion of an id that is there sets the name. -/
def onWindows (stmt : Stmt) (rows : List WindowRow) : List WindowRow :=
  match stmt with
  | .insertWindow id session name position createdAt =>
    if id ∈ rows.map WindowRow.id then
      rows.map fun row => if row.id = id then { row with name := name } else row
    else rows ++ [⟨id,session,name,none,position,createdAt⟩]
  | .setLayout id layout =>
    rows.map fun row => if row.id = id then { row with layout := some layout } else row
  | .assignTree _ _ _ | .assignPane _ _ => rows

@[simp] theorem id_onPane (stmt : Stmt) (row : PaneRow) : (stmt.onPane row).id = row.id := by
  unfold onPane
  split <;> rfl

@[simp] theorem session_onPane (stmt : Stmt) (row : PaneRow) :
    (stmt.onPane row).session = row.session := by
  unfold onPane
  split <;> rfl

theorem ids_onWindows (stmt : Stmt) {rows : List WindowRow} (h : (rows.map WindowRow.id).Nodup) :
    ((stmt.onWindows rows).map WindowRow.id).Nodup := by
  have hkeep : ∀ f : WindowRow → WindowRow, (∀ row, (f row).id = row.id) →
      (rows.map f).map WindowRow.id = rows.map WindowRow.id := by
    intro f hf
    simp [Function.comp_def,hf]
  cases stmt with
  | insertWindow id session name position createdAt =>
    rw [onWindows]
    split
    · rwa [hkeep _ fun row => by split <;> rfl]
    · rename_i hnew
      simpa [List.nodup_append,h] using fun row hrow heq => hnew (by simpa using ⟨row,hrow,heq⟩)
  | setLayout id layout =>
    rw [onWindows]
    rwa [hkeep _ fun row => by split <;> rfl]
  | assignTree _ _ _ => exact h
  | assignPane _ _ => exact h

end Stmt

/-- The tables the backfill reads and writes, each with its primary key. -/
structure Db where
  sessions : List SessionRow
  panes : List PaneRow
  windows : List WindowRow
  sessions_nodup : (sessions.map SessionRow.id).Nodup
  panes_nodup : (panes.map PaneRow.id).Nodup
  windows_nodup : (windows.map WindowRow.id).Nodup

/-- What a run draws: `WindowId::new()` for the first window of a session and for each further
one, never one id twice, and `Utc::now()` for each session. -/
structure Draws where
  window : SessionId → Option PaneId → WindowId
  now : SessionId → Int
  window_inj : Function.Injective2 window

namespace Db

def exec (db : Db) (stmt : Stmt) : Db where
  sessions := db.sessions
  panes := db.panes.map stmt.onPane
  windows := stmt.onWindows db.windows
  sessions_nodup := db.sessions_nodup
  panes_nodup := by
    rw [List.map_map]
    simpa [Function.comp_def] using db.panes_nodup
  windows_nodup := stmt.ids_onWindows db.windows_nodup

def execAll (db : Db) (stmts : List Stmt) : Db := stmts.foldl exec db

/-- `SELECT id, name FROM panes WHERE session_id = ?1 AND window_id IS NULL ORDER BY created_at` -/
def standalone (db : Db) (sid : SessionId) : List PaneRow :=
  (db.panes.filter fun row => row.session = .uuid sid ∧ row.window = none).insertionSort
    fun a b => a.createdAt ≤ b.createdAt

/-- The window that the pane is assigned to. -/
def windowOf (db : Db) (pane : RowId PaneId) : Option WindowRow :=
  (db.panes.find? fun row => row.id = pane).bind fun row =>
    row.window.bind fun id => db.windows.find? fun w => w.id = id

/-- The store is as it was before there were windows. -/
structure PreWindow (db : Db) : Prop where
  windows : db.windows = []
  unassigned : ∀ row ∈ db.panes, row.window = none

end Db

section backfill

/-! Layouts are read and written as JSON text. -/

variable (readLayout : Text → Option LayoutNode) (writeLayout : LayoutNode → Text) (draws : Draws)

/-- No panes where the layout is missing or not readable. -/
def treePanes (layout : Option Text) : List PaneId :=
  ((layout.bind readLayout).map LayoutNode.allLeaves).getD []

/-- The first window of a session: the insertion, the layout and the panes of the tree. -/
def firstStmts (sid : SessionId) (layout : Option Text) : List Stmt :=
  let w0 := draws.window sid none
  let panes := treePanes readLayout layout
  [.insertWindow w0 sid ['1'] 0 (draws.now sid)] ++ (layout.toList.map (.setLayout w0)) ++
    (if panes = [] then [] else [.assignTree w0 sid panes])

/-- The body of the loop over the standalone panes. -/
def standaloneStmts (sid : SessionId) (k : Nat) (row : PaneRow) : List Stmt :=
  match row.id with
  | .other _ => []
  | .uuid pane =>
    let wk := draws.window sid (some pane)
    let name := (row.name.filter fun n => n ≠ []).getD (k+1).repr.toList
    [.insertWindow wk sid name (k+1) (draws.now sid),.setLayout wk (writeLayout (.leaf pane)),
      .assignPane wk pane]

/-- The body of the loop over the sessions. The standalone panes are read after the first writes. -/
def sessionStmts (db : Db) (row : SessionRow) : List Stmt :=
  match row.id with
  | .other _ => []
  | .uuid sid =>
    let first := firstStmts readLayout draws sid row.layout
    first ++ ((db.execAll first).standalone sid).zipIdx.flatMap fun e =>
      standaloneStmts writeLayout draws sid e.2 e.1

def sessionsStmts : Db → List SessionRow → List Stmt
  | _, [] => []
  | db, row :: rows =>
    let stmts := sessionStmts readLayout writeLayout draws db row
    stmts ++ sessionsStmts (db.execAll stmts) rows

/-- The statements of an uninterrupted run, each with what is read before it. -/
def backfillWindows (db : Db) : List Stmt :=
  if db.windows ≠ [] ∨ db.sessions = [] then []
  else sessionsStmts readLayout writeLayout draws db
    (db.sessions.insertionSort fun a b => a.createdAt ≤ b.createdAt)

def Db.backfilled (db : Db) : Db := db.execAll (backfillWindows readLayout writeLayout draws db)

end backfill

/-! What a run is for: a list of windows, each with the panes that go there. -/

/-- A window as it is in the end, and the statement that assigns panes to it, if there is one. -/
structure Home where
  window : WindowRow
  assign : Option Stmt
  about : ∀ stmt ∈ assign, stmt.target = window.id ∧ ∀ rows, stmt.onWindows rows = rows

namespace Home

def open_ (h : Home) : List Stmt :=
  .insertWindow h.window.id h.window.session h.window.name h.window.position h.window.createdAt ::
    h.window.layout.toList.map (.setLayout h.window.id)

def stmts (h : Home) : List Stmt := h.open_ ++ h.assign.toList

def Houses (h : Home) (row : PaneRow) : Prop := ∃ stmt ∈ h.assign, stmt.Assigns row

end Home

section homes

variable (readLayout : Text → Option LayoutNode) (writeLayout : LayoutNode → Text) (draws : Draws)

def firstHome (sid : SessionId) (layout : Option Text) : Home where
  window := ⟨draws.window sid none,sid,['1'],layout,0,draws.now sid⟩
  assign :=
    if treePanes readLayout layout = [] then none
    else some (.assignTree (draws.window sid none) sid (treePanes readLayout layout))
  about := by
    intro stmt hstmt
    obtain ⟨-,heq⟩ := Option.ite_none_left_eq_some.mp hstmt
    obtain rfl := Option.some.inj heq
    exact ⟨rfl,fun _ => rfl⟩

def ownHome (sid : SessionId) (k : Nat) (row : PaneRow) (pane : PaneId) : Home where
  window := ⟨draws.window sid (some pane),sid,
    (row.name.filter fun n => n ≠ []).getD (k+1).repr.toList,some (writeLayout (.leaf pane)),k+1,
    draws.now sid⟩
  assign := some (.assignPane (draws.window sid (some pane)) pane)
  about := by
    intro stmt hstmt
    obtain rfl := Option.some.inj hstmt
    exact ⟨rfl,fun _ => rfl⟩

def ownHomes (sid : SessionId) (k : Nat) (row : PaneRow) : List Home :=
  match row.id with
  | .other _ => []
  | .uuid pane => [ownHome writeLayout draws sid k row pane]

/-- The panes of the session that are not in its tree. -/
def strays (db : Db) (sid : SessionId) (layout : Option Text) : List PaneRow :=
  ((db.panes.filter fun row => row.session = .uuid sid).filter fun row =>
    row.id ∉ (treePanes readLayout layout).map RowId.uuid).insertionSort
      fun a b => a.createdAt ≤ b.createdAt

def sessionHomes (db : Db) (row : SessionRow) : List Home :=
  match row.id with
  | .other _ => []
  | .uuid sid => firstHome readLayout draws sid row.layout ::
    (strays readLayout db sid row.layout).zipIdx.flatMap fun e =>
      ownHomes writeLayout draws sid e.2 e.1

def homes (db : Db) : List Home :=
  (db.sessions.insertionSort fun a b => a.createdAt ≤ b.createdAt).flatMap
    (sessionHomes readLayout writeLayout draws db)

end homes

variable {readLayout : Text → Option LayoutNode} {writeLayout : LayoutNode → Text} {draws : Draws}
  {db : Db} {row : PaneRow} {sid : SessionId} {layout : Option Text} {stmts : List Stmt} {h : Home}

/-! The statements of a home. -/

theorem firstStmts_eq : firstStmts readLayout draws sid layout =
    (firstHome readLayout draws sid layout).stmts := by
  unfold firstStmts Home.stmts Home.open_ firstHome
  by_cases hnil : treePanes readLayout layout = [] <;> simp [hnil]

theorem standaloneStmts_eq (k : Nat) (row : PaneRow) :
    standaloneStmts writeLayout draws sid k row =
      (ownHomes writeLayout draws sid k row).flatMap Home.stmts := by
  unfold standaloneStmts ownHomes
  cases row.id with
  | other text => rfl
  | uuid pane => simp [Home.stmts,Home.open_,ownHome]

/-! What a list of statements makes of the tables. -/

def paneAfter (stmts : List Stmt) (row : PaneRow) : PaneRow :=
  stmts.foldl (fun r stmt => stmt.onPane r) row

def windowsAfter (stmts : List Stmt) (rows : List WindowRow) : List WindowRow :=
  stmts.foldl (fun rs stmt => stmt.onWindows rs) rows

@[simp] theorem sessions_execAll (db : Db) (stmts : List Stmt) :
    (db.execAll stmts).sessions = db.sessions := by
  induction stmts generalizing db with
  | nil => rfl
  | cons stmt stmts ih =>
    have hrest := ih (db.exec stmt)
    exact hrest

theorem panes_execAll (db : Db) (stmts : List Stmt) :
    (db.execAll stmts).panes = db.panes.map (paneAfter stmts) := by
  induction stmts generalizing db with
  | nil =>
    have hid := List.map_id db.panes
    exact hid.symm
  | cons stmt stmts ih =>
    have hrest := ih (db.exec stmt)
    rw [Db.exec,List.map_map] at hrest
    exact hrest

theorem windows_execAll (db : Db) (stmts : List Stmt) :
    (db.execAll stmts).windows = windowsAfter stmts db.windows := by
  induction stmts generalizing db with
  | nil => rfl
  | cons stmt stmts ih =>
    have hrest := ih (db.exec stmt)
    exact hrest

theorem paneAfter_append (front back : List Stmt) (row : PaneRow) :
    paneAfter (front ++ back) row = paneAfter back (paneAfter front row) := List.foldl_append

theorem windowsAfter_append (front back : List Stmt) (rows : List WindowRow) :
    windowsAfter (front ++ back) rows = windowsAfter back (windowsAfter front rows) :=
  List.foldl_append

@[simp] theorem id_paneAfter (stmts : List Stmt) (row : PaneRow) :
    (paneAfter stmts row).id = row.id := by
  induction stmts generalizing row with
  | nil => rfl
  | cons stmt stmts ih => simp [paneAfter] at ih ⊢; simp [ih]

@[simp] theorem session_paneAfter (stmts : List Stmt) (row : PaneRow) :
    (paneAfter stmts row).session = row.session := by
  induction stmts generalizing row with
  | nil => rfl
  | cons stmt stmts ih => simp [paneAfter] at ih ⊢; simp [ih]

/-- Whether a pane is assigned does not depend on where it is. -/
theorem assigns_window (stmt : Stmt) (row : PaneRow) (w : Option WindowId) :
    stmt.Assigns { row with window := w } ↔ stmt.Assigns row := by
  cases stmt <;> rfl

theorem paneAfter_of_not (h : ∀ stmt ∈ stmts, ¬stmt.Assigns row) : paneAfter stmts row = row := by
  induction stmts with
  | nil => rfl
  | cons stmt stmts ih =>
    rw [List.forall_mem_cons] at h
    have hstmt : stmt.onPane row = row := if_neg h.1
    have hrest := ih h.2
    simp [paneAfter,hstmt] at hrest ⊢
    exact hrest

/-! What the statements of a home make of them. -/

namespace Home

theorem not_assigns_open {stmt : Stmt} (hstmt : stmt ∈ h.open_) : ¬stmt.Assigns row := by
  rcases List.mem_cons.mp hstmt with rfl | hstmt
  · exact id
  · obtain ⟨layout,-,rfl⟩ := List.mem_map.mp hstmt
    exact id

theorem assigns_stmts : (∃ stmt ∈ h.stmts, stmt.Assigns row) ↔ h.Houses row := by
  constructor
  · rintro ⟨stmt,hstmt,hassigns⟩
    rcases List.mem_append.mp hstmt with hstmt | hstmt
    · exact absurd hassigns (not_assigns_open hstmt)
    · exact ⟨stmt,Option.mem_toList.mp hstmt,hassigns⟩
  · rintro ⟨stmt,hstmt,hassigns⟩
    exact ⟨stmt,List.mem_append_right _ (Option.mem_toList.mpr hstmt),hassigns⟩

theorem target_of_mem {stmt : Stmt} (hstmt : stmt ∈ h.stmts) : stmt.target = h.window.id := by
  rcases List.mem_append.mp hstmt with hstmt | hstmt
  · rcases List.mem_cons.mp hstmt with rfl | hstmt
    · rfl
    · obtain ⟨layout,-,rfl⟩ := List.mem_map.mp hstmt
      rfl
  · exact (h.about stmt (Option.mem_toList.mp hstmt)).1

instance (h : Home) (row : PaneRow) : Decidable (h.Houses row) :=
  inferInstanceAs (Decidable (∃ stmt ∈ h.assign, stmt.Assigns row))

theorem paneAfter_stmts (h : Home) (row : PaneRow) :
    paneAfter h.stmts row =
      if h.Houses row then { row with window := some h.window.id } else row := by
  have hopen : paneAfter h.open_ row = row := paneAfter_of_not fun _ => not_assigns_open
  rw [stmts,paneAfter_append,hopen]
  cases hassign : h.assign with
  | none => simp [Houses,hassign,paneAfter]
  | some stmt =>
    have htarget := (h.about stmt hassign).1
    by_cases hassigns : stmt.Assigns row <;>
      simp [Houses,hassign,paneAfter,Stmt.onPane,hassigns,htarget]

theorem onWindows_insert {rows : List WindowRow} (w : WindowRow)
    (hnew : w.id ∉ rows.map WindowRow.id) :
    (Stmt.insertWindow w.id w.session w.name w.position w.createdAt).onWindows rows =
      rows ++ [{ w with layout := none }] := if_neg hnew

theorem onWindows_setLayout {rows : List WindowRow} {w : WindowRow}
    (hnew : w.id ∉ rows.map WindowRow.id) (layout : Text) :
    (Stmt.setLayout w.id layout).onWindows (rows ++ [w]) =
      rows ++ [{ w with layout := some layout }] := by
  have hrows : rows.map (fun v => if v.id = w.id then { v with layout := some layout } else v) =
      rows.map id := by
    apply List.map_congr_left
    intro v hv
    exact if_neg fun heq => hnew (List.mem_map.mpr ⟨v,hv,heq⟩)
  simp [Stmt.onWindows,hrows]

/-- A window with a new id is put at the end, with its layout. -/
theorem windowsAfter_stmts {rows : List WindowRow} (hnew : h.window.id ∉ rows.map WindowRow.id) :
    windowsAfter h.stmts rows = rows ++ [h.window] := by
  have hassign : ∀ rs, windowsAfter h.assign.toList rs = rs := by
    intro rs
    cases hassign : h.assign with
    | none => rfl
    | some stmt =>
      have habout := (h.about stmt hassign).2 rs
      exact habout
  rw [stmts,windowsAfter_append,hassign,windowsAfter,open_,List.foldl_cons,onWindows_insert _ hnew]
  generalize h.window = w at hnew ⊢
  obtain ⟨id,session,name,layout,position,createdAt⟩ := w
  cases layout with
  | none => rfl
  | some layout =>
    have hset := onWindows_setLayout (w := ⟨id,session,name,none,position,createdAt⟩) hnew layout
    exact hset

end Home

/-! The homes of a session. -/

theorem houses_firstHome : (firstHome readLayout draws sid layout).Houses row ↔
    row.session = .uuid sid ∧ row.id ∈ (treePanes readLayout layout).map RowId.uuid := by
  by_cases hnil : treePanes readLayout layout = [] <;>
    simp [Home.Houses,firstHome,hnil,Stmt.Assigns]

theorem houses_ownHome {k : Nat} {stray : PaneRow} {pane : PaneId} :
    (ownHome writeLayout draws sid k stray pane).Houses row ↔ row.id = .uuid pane := by
  simp [Home.Houses,ownHome,Stmt.Assigns]

theorem mem_strays : row ∈ strays readLayout db sid layout ↔ row ∈ db.panes ∧
    row.session = .uuid sid ∧ row.id ∉ (treePanes readLayout layout).map RowId.uuid := by
  rw [strays,List.mem_insertionSort,List.mem_filter,List.mem_filter]
  simp only [decide_eq_true_eq,and_assoc]

theorem mem_ownHomes {k : Nat} : h ∈ ownHomes writeLayout draws sid k row ↔
    ∃ pane, row.id = .uuid pane ∧ h = ownHome writeLayout draws sid k row pane := by
  unfold ownHomes
  cases row.id <;> simp

theorem mem_sessionHomes {s : SessionRow} : h ∈ sessionHomes readLayout writeLayout draws db s ↔
    ∃ sid, s.id = .uuid sid ∧ (h = firstHome readLayout draws sid s.layout ∨
      ∃ r k pane, (r,k) ∈ (strays readLayout db sid s.layout).zipIdx ∧ r.id = .uuid pane ∧
        h = ownHome writeLayout draws sid k r pane) := by
  unfold sessionHomes
  cases s.id with
  | other text => simp
  | uuid sid =>
    simp only [List.mem_cons,List.mem_flatMap,mem_ownHomes,Prod.exists,RowId.uuid.injEq,
      exists_eq_left']
    grind

/-- Who is housed is a pane of the session, and in the tree or not. -/
theorem Home.Houses.of_session {s : SessionRow}
    (hmem : h ∈ sessionHomes readLayout writeLayout draws db s) (hrow : row ∈ db.panes)
    (hhouses : h.Houses row) :
    ∃ sid pane, s.id = .uuid sid ∧ row.session = .uuid sid ∧ row.id = .uuid pane ∧
      h.window.id = if pane ∈ treePanes readLayout s.layout then draws.window sid none
        else draws.window sid (some pane) := by
  obtain ⟨sid,hsid,rfl | ⟨r,k,pane,hr,hpane,rfl⟩⟩ := mem_sessionHomes.mp hmem
  · obtain ⟨hsession,hid⟩ := houses_firstHome.mp hhouses
    obtain ⟨pane,hpane,hid⟩ := List.mem_map.mp hid
    exact ⟨sid,pane,hsid,hsession,hid.symm,by simp [hpane,firstHome]⟩
  · have hid := houses_ownHome.mp hhouses
    obtain ⟨hr,hsession,hstray⟩ := mem_strays.mp (List.fst_mem_of_mem_zipIdx hr)
    obtain rfl : row = r := List.inj_on_of_nodup_map db.panes_nodup hrow hr (hid.trans hpane.symm)
    refine ⟨sid,pane,hsid,hsession,hid,?_⟩
    simp [hid] at hstray
    simp [hstray,ownHome]

/-! The statements that are written, from what is read on the way. -/

theorem paneAfter_firstHome (row : PaneRow) :
    paneAfter (firstHome readLayout draws sid layout).stmts row =
      if row.session = .uuid sid ∧ row.id ∈ (treePanes readLayout layout).map RowId.uuid then
        { row with window := some (draws.window sid none) } else row := by
  rw [Home.paneAfter_stmts]
  exact if_congr houses_firstHome rfl rfl

/-- What passes the test afterwards is what passed before, and is not changed. -/
theorem filter_map_eq {rows : List PaneRow} {f : PaneRow → PaneRow} {p q : PaneRow → Bool}
    (hp : ∀ row ∈ rows, p (f row) = q row) (hf : ∀ row ∈ rows, q row = true → f row = row) :
    (rows.map f).filter p = rows.filter q := by
  induction rows with
  | nil => rfl
  | cons row rows ih =>
    rw [List.forall_mem_cons] at hp hf
    rw [List.map_cons,List.filter_cons,List.filter_cons,ih hp.2 hf.2,hp.1]
    by_cases hq : q row = true
    · rw [if_pos hq,if_pos hq,hf.1 hq]
    · rw [if_neg hq,if_neg hq]

/-- After the first writes the standalone panes are those that are not in the tree. -/
theorem standalone_first
    (hnone : ∀ row ∈ db.panes, row.session = .uuid sid → row.window = none) :
    (db.execAll (firstHome readLayout draws sid layout).stmts).standalone sid =
      strays readLayout db sid layout := by
  rw [Db.standalone,strays,panes_execAll,List.filter_filter]
  congr 1
  apply filter_map_eq
  · intro row hrow
    rw [paneAfter_firstHome]
    by_cases hsession : row.session = .uuid sid
    · have hwindow := hnone row hrow hsession
      by_cases htree : row.id ∈ (treePanes readLayout layout).map RowId.uuid
      · simp [hsession,htree]
      · rw [if_neg fun hboth => htree hboth.2]
        simp [hsession,htree,hwindow]
    · rw [if_neg fun hboth => hsession hboth.1]
      simp [hsession]
  · intro row _ hstray
    rw [paneAfter_firstHome]
    refine if_neg fun hboth => ?_
    simp [hboth.2] at hstray

theorem strays_congr {db' : Db} (hsame : db.panes.filter (fun row => row.session = .uuid sid) =
    db'.panes.filter fun row => row.session = .uuid sid) :
    strays readLayout db sid layout = strays readLayout db' sid layout := by
  rw [strays,strays,hsame]

/-- The statements for a session are those of its homes. -/
theorem sessionStmts_eq {s : SessionRow}
    (hnone : ∀ row ∈ db.panes, row.session = s.id → row.window = none) :
    sessionStmts readLayout writeLayout draws db s =
      (sessionHomes readLayout writeLayout draws db s).flatMap Home.stmts := by
  unfold sessionStmts sessionHomes
  cases hsid : s.id with
  | other text => rfl
  | uuid sid =>
    rw [hsid] at hnone
    simp only [firstStmts_eq,standaloneStmts_eq,standalone_first hnone,List.flatMap_cons,
      List.flatMap_assoc]

theorem filter_execAll {session : RowId SessionId}
    (hno : ∀ row ∈ db.panes, row.session = session → ∀ stmt ∈ stmts, ¬stmt.Assigns row) :
    (db.execAll stmts).panes.filter (fun row => row.session = session) =
      db.panes.filter fun row => row.session = session := by
  rw [panes_execAll]
  apply filter_map_eq
  · intro row _
    rw [session_paneAfter]
  · intro row hrow hsession
    exact paneAfter_of_not (hno row hrow (by simpa using hsession))

/-- The loop leaves the panes of the sessions to come as they were. -/
theorem sessionsStmts_eq {db₀ : Db} (hnone : ∀ row ∈ db₀.panes, row.window = none)
    {rows : List SessionRow} (hnodup : (rows.map SessionRow.id).Nodup)
    (hsame : ∀ s ∈ rows, db.panes.filter (fun row => row.session = s.id) =
      db₀.panes.filter fun row => row.session = s.id) :
    sessionsStmts readLayout writeLayout draws db rows =
      (rows.flatMap (sessionHomes readLayout writeLayout draws db₀)).flatMap Home.stmts := by
  induction rows generalizing db with
  | nil => rfl
  | cons s rows ih =>
    obtain ⟨hs,hrest⟩ := List.forall_mem_cons.mp hsame
    rw [List.map_cons,List.nodup_cons] at hnodup
    have hmem : ∀ t ∈ s :: rows, ∀ row ∈ db.panes, row.session = t.id → row ∈ db₀.panes := by
      intro t ht row hrow hsession
      have hin : row ∈ db.panes.filter fun row => row.session = t.id :=
        List.mem_filter.mpr ⟨hrow,by simpa using hsession⟩
      rw [hsame t ht] at hin
      exact List.mem_of_mem_filter hin
    have hhomes : sessionHomes readLayout writeLayout draws db s =
        sessionHomes readLayout writeLayout draws db₀ s := by
      unfold sessionHomes
      cases hsid : s.id with
      | other text => rfl
      | uuid sid =>
        rw [hsid] at hs
        simp only [strays_congr hs]
    have hwindow : ∀ row ∈ db.panes, row.session = s.id → row.window = none :=
      fun row hrow hsession => hnone row (hmem s List.mem_cons_self row hrow hsession)
    simp only [sessionsStmts,sessionStmts_eq hwindow,hhomes]
    rw [ih hnodup.2 fun t ht => ?_,List.flatMap_cons,List.flatMap_append]
    rw [filter_execAll,hrest t ht]
    intro row hrow hsession stmt hstmt hassigns
    -- a pane of a session to come has no home with this one
    obtain ⟨h,hh,hstmt⟩ := List.mem_flatMap.mp hstmt
    have hhouses := Home.assigns_stmts.mp ⟨stmt,hstmt,hassigns⟩
    obtain ⟨sid,pane,hsid,hsession',-,-⟩ :=
      hhouses.of_session hh (hmem t (List.mem_cons_of_mem _ ht) row hrow hsession)
    refine hnodup.1 (List.mem_map.mpr ⟨t,ht,?_⟩)
    rw [hsid,← hsession',hsession]

theorem backfillWindows_eq (hpre : db.PreWindow) :
    backfillWindows readLayout writeLayout draws db =
      (homes readLayout writeLayout draws db).flatMap Home.stmts := by
  unfold backfillWindows homes
  by_cases hnil : db.sessions = []
  · simp [hnil]
  · rw [if_neg (by simp [hpre.windows,hnil])]
    refine sessionsStmts_eq hpre.unassigned ?_ fun _ _ => rfl
    exact ((List.perm_insertionSort _ db.sessions).map SessionRow.id).nodup_iff.mpr
      db.sessions_nodup

/-! No two homes are one, nor have the windows of a session one position. -/

def Home.Differs (g h : Home) : Prop :=
  g.window.id ≠ h.window.id ∧
    (g.window.session = h.window.session → g.window.position ≠ h.window.position)

theorem pairwise_zipIdx {rows : List PaneRow} (hnodup : (rows.map PaneRow.id).Nodup) :
    rows.zipIdx.Pairwise fun a b => a.1.id ≠ b.1.id ∧ a.2 < b.2 := by
  rw [List.pairwise_iff_getElem]
  intro i j hi hj hij
  rw [List.length_zipIdx] at hi hj
  have hne := List.pairwise_iff_getElem.mp hnodup i j (by simpa using hi) (by simpa using hj) hij
  simp at hne ⊢
  exact ⟨hne,hij⟩

theorem strays_nodup : ((strays readLayout db sid layout).map PaneRow.id).Nodup := by
  have hsub : ((db.panes.filter fun row => row.session = .uuid sid).filter fun row =>
      row.id ∉ (treePanes readLayout layout).map RowId.uuid).Sublist db.panes :=
    List.filter_sublist.trans List.filter_sublist
  rw [strays,((List.perm_insertionSort _ _).map PaneRow.id).nodup_iff]
  exact db.panes_nodup.sublist (hsub.map PaneRow.id)

theorem pairwise_sessionHomes (s : SessionRow) :
    (sessionHomes readLayout writeLayout draws db s).Pairwise Home.Differs := by
  unfold sessionHomes
  cases s.id with
  | other text => exact .nil
  | uuid sid =>
    have hinj : ∀ k k', draws.window sid k = draws.window sid k' → k = k' :=
      fun k k' heq => (draws.window_inj heq).2
    rw [List.pairwise_cons,List.pairwise_flatMap]
    refine ⟨fun h hh => ?_,fun e he => ?_,(pairwise_zipIdx strays_nodup).imp ?_⟩
    · obtain ⟨e,-,hh⟩ := List.mem_flatMap.mp hh
      obtain ⟨pane,-,rfl⟩ := mem_ownHomes.mp hh
      exact ⟨fun heq => Option.some_ne_none _ (hinj _ _ heq).symm,fun _ => (Nat.succ_ne_zero _).symm⟩
    · unfold ownHomes
      cases e.1.id <;> simp
    · rintro ⟨r,k⟩ ⟨r',k'⟩ ⟨hne,hlt⟩ g hg h hh
      obtain ⟨pane,hpane,rfl⟩ := mem_ownHomes.mp hg
      obtain ⟨pane',hpane',rfl⟩ := mem_ownHomes.mp hh
      refine ⟨fun heq => hne ?_,fun _ => ?_⟩
      · rw [hpane,hpane',Option.some.inj (hinj _ _ heq)]
      · simp only [ownHome]
        omega

/-- The windows of a session are those drawn for it. -/
theorem window_of_sessionHomes {s : SessionRow}
    (hh : h ∈ sessionHomes readLayout writeLayout draws db s) :
    s.id = .uuid h.window.session ∧ ∃ key, h.window.id = draws.window h.window.session key := by
  obtain ⟨sid,hsid,rfl | ⟨r,k,pane,-,-,rfl⟩⟩ := mem_sessionHomes.mp hh
  · exact ⟨hsid,none,rfl⟩
  · exact ⟨hsid,some pane,rfl⟩

theorem pairwise_homes (db : Db) :
    (homes readLayout writeLayout draws db).Pairwise Home.Differs := by
  rw [homes,List.pairwise_flatMap]
  refine ⟨fun s _ => pairwise_sessionHomes s,?_⟩
  have hnodup : ((db.sessions.insertionSort fun a b => a.createdAt ≤ b.createdAt).map
      SessionRow.id).Nodup :=
    ((List.perm_insertionSort _ db.sessions).map SessionRow.id).nodup_iff.mpr db.sessions_nodup
  refine (List.pairwise_map.mp hnodup).imp fun {s t} hne g hg h hh => ?_
  obtain ⟨hs,key,hkey⟩ := window_of_sessionHomes hg
  obtain ⟨ht,key',hkey'⟩ := window_of_sessionHomes hh
  have hsession : g.window.session ≠ h.window.session := by
    intro heq
    exact hne (by rw [hs,ht,heq])
  refine ⟨fun heq => hsession ?_,fun heq => absurd heq hsession⟩
  rw [hkey,hkey'] at heq
  exact (draws.window_inj heq).1

theorem ids_homes_nodup (db : Db) :
    ((homes readLayout writeLayout draws db).map fun h => h.window.id).Nodup :=
  List.pairwise_map.mpr ((pairwise_homes db).imp And.left)

theorem mem_homes : h ∈ homes readLayout writeLayout draws db ↔
    ∃ s ∈ db.sessions, h ∈ sessionHomes readLayout writeLayout draws db s := by
  simp only [homes,List.mem_flatMap,List.mem_insertionSort]

/-! What a run makes of the tables. -/

theorem windowsAfter_homes {hs : List Home} {rows : List WindowRow}
    (hnodup : (rows.map WindowRow.id ++ hs.map fun h => h.window.id).Nodup) :
    windowsAfter (hs.flatMap Home.stmts) rows = rows ++ hs.map Home.window := by
  induction hs generalizing rows with
  | nil => simp [windowsAfter]
  | cons h hs ih =>
    have hnew : h.window.id ∉ rows.map WindowRow.id := by
      intro hmem
      rw [List.nodup_append] at hnodup
      exact hnodup.2.2 _ hmem _ List.mem_cons_self rfl
    rw [List.flatMap_cons,windowsAfter_append,Home.windowsAfter_stmts hnew,ih]
    · simp
    · simpa using hnodup

/-- A statement leaves the rows of other windows as they are. -/
theorem onWindows_find? {stmt : Stmt} {id : WindowId} (hne : stmt.target ≠ id)
    (rows : List WindowRow) :
    (stmt.onWindows rows).find? (fun w => w.id = id) = rows.find? fun w => w.id = id := by
  have hkeep : ∀ f : WindowRow → WindowRow, (∀ w, (f w).id = w.id) →
      (rows.map fun w => if w.id = stmt.target then f w else w).find? (fun w => w.id = id) =
        rows.find? fun w => w.id = id := by
    intro f hf
    induction rows with
    | nil => rfl
    | cons w rows ih =>
      rw [List.map_cons,List.find?_cons,List.find?_cons,ih]
      by_cases htarget : w.id = stmt.target
      · have hother : w.id ≠ id := htarget ▸ hne
        simp [htarget,hf,hne]
      · simp [htarget]
  cases stmt with
  | insertWindow w session name position createdAt =>
    simp only [Stmt.target] at hne hkeep
    rw [Stmt.onWindows]
    split
    · exact hkeep (fun row => { row with name := name }) fun _ => rfl
    · simp [List.find?_append,hne]
  | setLayout w layout => exact hkeep (fun row => { row with layout := some layout }) fun _ => rfl
  | assignTree _ _ _ => rfl
  | assignPane _ _ => rfl

theorem windowsAfter_find? {id : WindowId} (hne : ∀ stmt ∈ stmts, stmt.target ≠ id)
    (rows : List WindowRow) :
    (windowsAfter stmts rows).find? (fun w => w.id = id) = rows.find? fun w => w.id = id := by
  induction stmts generalizing rows with
  | nil => rfl
  | cons stmt stmts ih =>
    rw [List.forall_mem_cons] at hne
    have hrest := ih hne.2 (stmt.onWindows rows)
    rw [onWindows_find? hne.1] at hrest
    exact hrest

theorem find_pane (hrow : row ∈ db.panes) :
    db.panes.find? (fun r => r.id = row.id) = some row := by
  cases hfind : db.panes.find? fun r => r.id = row.id with
  | none =>
    have hno := List.find?_eq_none.mp hfind row hrow
    simp at hno
  | some r =>
    have hid := List.find?_some hfind
    rw [List.inj_on_of_nodup_map db.panes_nodup (List.mem_of_find?_eq_some hfind) hrow
      (by simpa using hid)]

theorem windowOf_execAll (hrow : row ∈ db.panes) (stmts : List Stmt) :
    (db.execAll stmts).windowOf row.id = (paneAfter stmts row).window.bind fun id =>
      (windowsAfter stmts db.windows).find? fun w => w.id = id := by
  have hmem : paneAfter stmts row ∈ (db.execAll stmts).panes := by
    rw [panes_execAll]
    exact List.mem_map_of_mem hrow
  have hfind := find_pane hmem
  rw [id_paneAfter] at hfind
  rw [Db.windowOf,hfind,windows_execAll,Option.bind_some]

/-! Where a pane is in the end. -/

theorem houses_homes (hmem : h ∈ homes readLayout writeLayout draws db) (hrow : row ∈ db.panes)
    (hhouses : h.Houses row) :
    ∃ s ∈ db.sessions, ∃ sid pane, s.id = .uuid sid ∧ row.session = .uuid sid ∧
      row.id = .uuid pane ∧ h.window.id = if pane ∈ treePanes readLayout s.layout then
        draws.window sid none else draws.window sid (some pane) := by
  obtain ⟨s,hs,hmem⟩ := mem_homes.mp hmem
  obtain ⟨sid,pane,hall⟩ := hhouses.of_session hmem hrow
  exact ⟨s,hs,sid,pane,hall⟩

theorem homes_unique {g : Home} (hg : g ∈ homes readLayout writeLayout draws db)
    (hh : h ∈ homes readLayout writeLayout draws db) (hrow : row ∈ db.panes)
    (hgrow : g.Houses row) (hhrow : h.Houses row) : g = h := by
  obtain ⟨s,hs,sid,pane,hsid,hsession,hpane,hgid⟩ := houses_homes hg hrow hgrow
  obtain ⟨t,ht,tid,pane',htid,hsession',hpane',hhid⟩ := houses_homes hh hrow hhrow
  obtain rfl : sid = tid := RowId.uuid.inj (hsession.symm.trans hsession')
  obtain rfl : pane = pane' := RowId.uuid.inj (hpane.symm.trans hpane')
  obtain rfl : s = t := List.inj_on_of_nodup_map db.sessions_nodup hs ht (hsid.trans htid.symm)
  exact List.inj_on_of_nodup_map (ids_homes_nodup db) hg hh (hgid.trans hhid.symm)

/-- The statements that are not of a pane's home do not touch the pane, and those after do not
touch its window either. -/
theorem home_split (hmem : h ∈ homes readLayout writeLayout draws db) (hrow : row ∈ db.panes)
    (hhouses : h.Houses row) :
    ∃ front back, homes readLayout writeLayout draws db = front ++ h :: back ∧
      (∀ stmt ∈ front.flatMap Home.stmts, ¬stmt.Assigns row) ∧
      ∀ stmt ∈ back.flatMap Home.stmts, ¬stmt.Assigns row ∧ stmt.target ≠ h.window.id := by
  obtain ⟨front,back,hsplit⟩ := List.append_of_mem hmem
  have hids : ((front ++ h :: back).map fun g => g.window.id).Nodup := hsplit ▸ ids_homes_nodup db
  rw [List.map_append,List.map_cons,List.nodup_append,List.nodup_cons] at hids
  obtain ⟨-,⟨hback,-⟩,hfront⟩ := hids
  have hother : ∀ g ∈ front ++ back, g.window.id ≠ h.window.id := by
    intro g hg
    rcases List.mem_append.mp hg with hg | hg
    · exact hfront _ (List.mem_map_of_mem hg) _ List.mem_cons_self
    · exact fun heq => hback (List.mem_map.mpr ⟨g,hg,heq⟩)
  have hnot : ∀ g ∈ front ++ back, ∀ stmt ∈ g.stmts,
      ¬stmt.Assigns row ∧ stmt.target ≠ h.window.id := by
    intro g hg stmt hstmt
    have hne := hother g hg
    have hin : g ∈ homes readLayout writeLayout draws db := by
      rw [hsplit]
      rcases List.mem_append.mp hg with hg | hg <;> simp [hg]
    refine ⟨fun hassigns => hne ?_,Home.target_of_mem hstmt ▸ hne⟩
    rw [homes_unique hin hmem hrow (Home.assigns_stmts.mp ⟨stmt,hstmt,hassigns⟩) hhouses]
  refine ⟨front,back,hsplit,fun stmt hstmt => ?_,fun stmt hstmt => ?_⟩
  · obtain ⟨g,hg,hstmt⟩ := List.mem_flatMap.mp hstmt
    exact (hnot g (List.mem_append_left _ hg) stmt hstmt).1
  · obtain ⟨g,hg,hstmt⟩ := List.mem_flatMap.mp hstmt
    exact hnot g (List.mem_append_right _ hg) stmt hstmt

/-- Once the statements of its home are through, the pane is there for good. -/
theorem windowOf_home (hpre : db.PreWindow) {front back : List Home}
    (hsplit : homes readLayout writeLayout draws db = front ++ h :: back)
    (hrow : row ∈ db.panes) (hhouses : h.Houses row)
    (hfront : ∀ stmt ∈ front.flatMap Home.stmts, ¬stmt.Assigns row) {rest : List Stmt}
    (hrest : ∀ stmt ∈ rest, ¬stmt.Assigns row ∧ stmt.target ≠ h.window.id) :
    (db.execAll (front.flatMap Home.stmts ++ h.stmts ++ rest)).windowOf row.id =
      some h.window := by
  have hids : ((front ++ h :: back).map fun g => g.window.id).Nodup := hsplit ▸ ids_homes_nodup db
  rw [List.map_append,List.map_cons,List.nodup_append] at hids
  obtain ⟨hfrontIds,-,hdisj⟩ := hids
  have hnew : h.window.id ∉ (front.map Home.window).map WindowRow.id := by
    intro hmem
    rw [List.map_map] at hmem
    exact hdisj _ hmem _ List.mem_cons_self rfl
  have hassigned : ∀ stmt ∈ rest,
      ¬stmt.Assigns { row with window := some h.window.id } := by
    intro stmt hstmt
    rw [assigns_window]
    exact (hrest stmt hstmt).1
  have hpane : paneAfter (front.flatMap Home.stmts ++ h.stmts ++ rest) row =
      { row with window := some h.window.id } := by
    rw [paneAfter_append,paneAfter_append,paneAfter_of_not hfront,Home.paneAfter_stmts,
      if_pos hhouses,paneAfter_of_not hassigned]
  rw [windowOf_execAll hrow,hpane,Option.bind_some,windowsAfter_append,windowsAfter_append,
    windowsAfter_find? fun stmt hstmt => (hrest stmt hstmt).2,hpre.windows,
    windowsAfter_homes (by simpa using hfrontIds),List.nil_append,Home.windowsAfter_stmts hnew,
    List.find?_append]
  have hnone : (front.map Home.window).find? (fun w => w.id = h.window.id) = none := by
    rw [List.find?_eq_none]
    intro w hw heq
    exact hnew (List.mem_map.mpr ⟨w,hw,by simpa using heq⟩)
  rw [hnone]
  simp

theorem windowOf_backfilled (hpre : db.PreWindow) (hmem : h ∈ homes readLayout writeLayout draws db)
    (hrow : row ∈ db.panes) (hhouses : h.Houses row) :
    (db.backfilled readLayout writeLayout draws).windowOf row.id = some h.window := by
  obtain ⟨front,back,hsplit,hfront,hback⟩ := home_split hmem hrow hhouses
  have hwindow := windowOf_home hpre hsplit hrow hhouses hfront hback
  rw [Db.backfilled,backfillWindows_eq hpre,hsplit,List.flatMap_append,List.flatMap_cons,
    ← List.append_assoc,hwindow]

theorem windows_backfilled (hpre : db.PreWindow) :
    (db.backfilled readLayout writeLayout draws).windows =
      (homes readLayout writeLayout draws db).map Home.window := by
  rw [Db.backfilled,backfillWindows_eq hpre,windows_execAll,hpre.windows,
    windowsAfter_homes (by simpa using ids_homes_nodup db),List.nil_append]

/-- A pane of a session whose ids are both good has a home. -/
theorem exists_home (readLayout : Text → Option LayoutNode) (writeLayout : LayoutNode → Text)
    (draws : Draws) {s : SessionRow} {pane : PaneId} (hs : s ∈ db.sessions) (hsid : s.id = .uuid sid)
    (hrow : row ∈ db.panes) (hsession : row.session = .uuid sid) (hpane : row.id = .uuid pane) :
    ∃ h ∈ homes readLayout writeLayout draws db, h.Houses row ∧
      if pane ∈ treePanes readLayout s.layout then h = firstHome readLayout draws sid s.layout
      else ∃ k, h = ownHome writeLayout draws sid k row pane := by
  by_cases htree : pane ∈ treePanes readLayout s.layout
  · refine ⟨firstHome readLayout draws sid s.layout,?_,?_,by rw [if_pos htree]⟩
    · exact mem_homes.mpr ⟨s,hs,mem_sessionHomes.mpr ⟨sid,hsid,Or.inl rfl⟩⟩
    · exact houses_firstHome.mpr ⟨hsession,by simpa [hpane] using htree⟩
  · have hstray : row ∈ strays readLayout db sid s.layout :=
      mem_strays.mpr ⟨hrow,hsession,by simpa [hpane] using htree⟩
    obtain ⟨k,hk⟩ := List.mem_iff_getElem?.mp hstray
    replace hk : (row,k) ∈ (strays readLayout db sid s.layout).zipIdx :=
      List.mem_zipIdx_iff_getElem?.mpr hk
    refine ⟨ownHome writeLayout draws sid k row pane,?_,?_,?_⟩
    · exact mem_homes.mpr ⟨s,hs,mem_sessionHomes.mpr
        ⟨sid,hsid,Or.inr ⟨row,k,pane,hk,hpane,rfl⟩⟩⟩
    · exact houses_ownHome.mpr hpane
    · rw [if_neg htree]
      exact ⟨k,rfl⟩

/-- A pane that no statement assigns is in no window. -/
theorem windowOf_eq_none (hpre : db.PreWindow) (hrow : row ∈ db.panes)
    (hno : ∀ stmt ∈ stmts, ¬stmt.Assigns row) : (db.execAll stmts).windowOf row.id = none := by
  rw [windowOf_execAll hrow,paneAfter_of_not hno,hpre.unassigned row hrow,Option.bind_none]

theorem homes_eq_nil : homes readLayout writeLayout draws db = [] ↔
    ∀ s ∈ db.sessions, ∀ sid, s.id ≠ .uuid sid := by
  rw [List.eq_nil_iff_forall_not_mem]
  constructor
  · intro hno s hs sid hsid
    exact hno _ (mem_homes.mpr ⟨s,hs,mem_sessionHomes.mpr ⟨sid,hsid,Or.inl rfl⟩⟩)
  · intro hno h hh
    obtain ⟨s,hs,hh⟩ := mem_homes.mp hh
    obtain ⟨sid,hsid,-⟩ := mem_sessionHomes.mp hh
    exact hno s hs sid hsid

theorem backfilled_of_windows (hwindows : db.windows ≠ []) :
    db.backfilled readLayout writeLayout draws = db := by
  rw [Db.backfilled,backfillWindows,if_pos (Or.inl hwindows)]
  rfl

theorem backfilled_twice (hpre : db.PreWindow) (draws' : Draws) :
    (db.backfilled readLayout writeLayout draws).backfilled readLayout writeLayout draws' =
      db.backfilled readLayout writeLayout draws := by
  by_cases hnil : homes readLayout writeLayout draws db = []
  · have hnone : ∀ d : Draws, db.backfilled readLayout writeLayout d = db := by
      intro d
      have hd : homes readLayout writeLayout d db = [] := homes_eq_nil.mpr (homes_eq_nil.mp hnil)
      rw [Db.backfilled,backfillWindows_eq hpre,hd]
      rfl
    rw [hnone,hnone]
  · apply backfilled_of_windows
    rw [windows_backfilled hpre]
    simpa using hnil

/-- A pane with the window of a home has that home. -/
theorem houses_of_windowOf {h : Home} {r : PaneRow} (hpre : db.PreWindow)
    (hmem : h ∈ homes readLayout writeLayout draws db) (hr : r ∈ db.panes)
    (hw : (db.backfilled readLayout writeLayout draws).windowOf r.id = some h.window) :
    h.Houses r := by
  by_cases hsome : ∃ g ∈ homes readLayout writeLayout draws db, g.Houses r
  · obtain ⟨g,hg,hgr⟩ := hsome
    rw [windowOf_backfilled hpre hg hr hgr,Option.some.injEq] at hw
    obtain rfl := List.inj_on_of_nodup_map (ids_homes_nodup db) hg hmem (congrArg WindowRow.id hw)
    exact hgr
  · have hno : ∀ stmt ∈ (homes readLayout writeLayout draws db).flatMap Home.stmts,
        ¬stmt.Assigns r := by
      intro stmt hstmt hassigns
      obtain ⟨g,hg,hstmt⟩ := List.mem_flatMap.mp hstmt
      exact hsome ⟨g,hg,Home.assigns_stmts.mp ⟨stmt,hstmt,hassigns⟩⟩
    rw [Db.backfilled,backfillWindows_eq hpre,windowOf_eq_none hpre hr hno] at hw
    cases hw

/-- Each pane of a session, with good ids, gets a window of the session: those of its tree the
first one, with the layout as it was, and each other one of its own. -/
theorem backfill_homes (readLayout : Text → Option LayoutNode) (writeLayout : LayoutNode → Text)
    (draws : Draws) (hpre : db.PreWindow) :
    (∀ s ∈ db.sessions, ∀ sid, s.id = .uuid sid →
      ∃ first ∈ (db.backfilled readLayout writeLayout draws).windows,
        first.session = sid ∧ first.position = 0 ∧ first.layout = s.layout ∧
        ∀ row ∈ db.panes, ∀ pane, row.session = .uuid sid → row.id = .uuid pane →
          ∃ w, (db.backfilled readLayout writeLayout draws).windowOf row.id = some w ∧
            w.session = sid ∧
            if pane ∈ treePanes readLayout s.layout then w = first
            else w.layout = some (writeLayout (.leaf pane)) ∧ ∀ r ∈ db.panes,
              (db.backfilled readLayout writeLayout draws).windowOf r.id = some w → r = row) ∧
    (db.backfilled readLayout writeLayout draws).windows.Pairwise
      (fun v w => v.session = w.session → v.position ≠ w.position) ∧
    ∀ draws', (db.backfilled readLayout writeLayout draws).backfilled readLayout writeLayout
      draws' = db.backfilled readLayout writeLayout draws := by
  refine ⟨fun s hs sid hsid => ?_,?_,backfilled_twice hpre⟩
  · have hfirst : firstHome readLayout draws sid s.layout ∈
        homes readLayout writeLayout draws db :=
      mem_homes.mpr ⟨s,hs,mem_sessionHomes.mpr ⟨sid,hsid,Or.inl rfl⟩⟩
    refine ⟨(firstHome readLayout draws sid s.layout).window,?_,rfl,rfl,rfl,?_⟩
    · rw [windows_backfilled hpre]
      exact List.mem_map_of_mem hfirst
    intro row hrow pane hsession hpane
    obtain ⟨h,hmem,hhouses,hshape⟩ :=
      exists_home readLayout writeLayout draws hs hsid hrow hsession hpane
    refine ⟨h.window,windowOf_backfilled hpre hmem hrow hhouses,?_⟩
    by_cases htree : pane ∈ treePanes readLayout s.layout
    · rw [if_pos htree] at hshape ⊢
      subst hshape
      exact ⟨rfl,rfl⟩
    · rw [if_neg htree] at hshape ⊢
      obtain ⟨k,rfl⟩ := hshape
      refine ⟨rfl,rfl,fun r hr hw => ?_⟩
      have hgr := houses_of_windowOf hpre hmem hr hw
      exact List.inj_on_of_nodup_map db.panes_nodup hr hrow
        ((houses_ownHome.mp hgr).trans hpane.symm)
  · rw [windows_backfilled hpre,List.pairwise_map]
    exact (pairwise_homes db).imp And.right

/-- A leaf as it is stored, for ids of one digit. -/
def leafJson (pane : PaneId) : Text :=
  "\x7b\"Leaf\":\"00000000-0000-0000-0000-00000000000".toList ++ pane.uuid.repr.toList ++
    "\"\x7d".toList

def readLeaf (text : Text) : Option LayoutNode :=
  if text = leafJson ⟨1⟩ then some (.leaf ⟨1⟩) else none

def writeLeaf : LayoutNode → Text
  | .leaf pane => leafJson pane
  | .split _ _ => []

def pairDraws : Draws where
  window sid key := ⟨Nat.pair sid.uuid (key.elim 0 fun pane => pane.uuid+1)⟩
  now _ := 0
  window_inj := by
    rintro ⟨a⟩ ⟨b⟩ k l heq
    obtain ⟨rfl,hkey⟩ := Nat.pair_eq_pair.mp (WindowId.mk.inj heq)
    cases k with
    | none => cases l <;> simp_all
    | some k =>
      cases l with
      | none => simp at hkey
      | some l =>
        cases k
        cases l
        simp_all

/-- A session with one pane in its tree and one beside it, and a session with no id. -/
def aged : Db where
  sessions := [⟨.uuid ⟨1⟩,10,some (leafJson ⟨1⟩)⟩,⟨.other ['x'],20,none⟩]
  panes := [⟨.uuid ⟨1⟩,.uuid ⟨1⟩,none,11,none⟩,⟨.uuid ⟨2⟩,.uuid ⟨1⟩,none,12,none⟩]
  windows := []
  sessions_nodup := by decide
  panes_nodup := by decide
  windows_nodup := by decide

theorem preWindow_aged : aged.PreWindow := ⟨rfl,by decide⟩

theorem backfill_homes_aged :
    ∃ w, (aged.backfilled readLeaf writeLeaf pairDraws).windowOf (.uuid ⟨2⟩) = some w ∧
      w.session = ⟨1⟩ ∧ w.layout = some (leafJson ⟨2⟩) := by
  obtain ⟨hhomes,-,-⟩ := backfill_homes readLeaf writeLeaf pairDraws preWindow_aged
  obtain ⟨first,-,-,-,-,hpanes⟩ := hhomes _ List.mem_cons_self ⟨1⟩ rfl
  obtain ⟨w,hw,hsession,hlayout⟩ :=
    hpanes _ (List.mem_cons_of_mem _ List.mem_cons_self) ⟨2⟩ rfl rfl
  rw [if_neg (by decide)] at hlayout
  exact ⟨w,hw,hsession,hlayout.1⟩

end Pyre.WindowBackfill
