import Pyre.Migration.WindowBackfill

/-!
The backfill stopped at some statement and begun again when the store is next opened. The check at
its start finds the windows of the first attempt and takes it for done.
-/

set_option autoImplicit false

namespace Pyre.WindowBackfill

section restart

variable (readLayout : Text → Option LayoutNode) (writeLayout : LayoutNode → Text) (draws : Draws)

/-- The store after so many statements of a run. -/
def Db.stopped (db : Db) (n : Nat) : Db :=
  db.execAll ((backfillWindows readLayout writeLayout draws db).take n)

/-- Every pane that an uninterrupted run gives a window of its session has that window. -/
def Recovered (db result : Db) : Prop :=
  ∃ draws, ∀ s ∈ db.sessions, ∀ sid, s.id = .uuid sid → ∀ row ∈ db.panes, ∀ pane,
    row.session = .uuid sid → row.id = .uuid pane → ∃ w, w.session = sid ∧
      result.windowOf row.id = some w ∧
      (db.backfilled readLayout writeLayout draws).windowOf row.id = some w

end restart

variable {readLayout : Text → Option LayoutNode} {writeLayout : LayoutNode → Text} {draws : Draws}
  {db : Db} {row : PaneRow} {stmts : List Stmt} {h : Home} {n : Nat}

/-- Windows are not taken out. -/
theorem onWindows_ne_nil (stmt : Stmt) {rows : List WindowRow} (hrows : rows ≠ []) :
    stmt.onWindows rows ≠ [] := by
  cases stmt with
  | insertWindow w session name position createdAt =>
    rw [Stmt.onWindows]
    split <;> simp [hrows]
  | setLayout w layout => simpa [Stmt.onWindows] using hrows
  | assignTree _ _ _ => exact hrows
  | assignPane _ _ => exact hrows

theorem windowsAfter_ne_nil {rows : List WindowRow} (hrows : rows ≠ []) :
    windowsAfter stmts rows ≠ [] := by
  induction stmts generalizing rows with
  | nil => exact hrows
  | cons stmt stmts ih => exact ih (onWindows_ne_nil stmt hrows)

/-- The first statement of a run puts a window in. -/
theorem windows_stopped (hpre : db.PreWindow) (hn : n ≠ 0)
    (hsome : homes readLayout writeLayout draws db ≠ []) :
    (db.stopped readLayout writeLayout draws n).windows ≠ [] := by
  obtain ⟨g,gs,hgs⟩ := List.exists_cons_of_ne_nil hsome
  obtain ⟨m,rfl⟩ := Nat.exists_eq_succ_of_ne_zero hn
  have hfirst : (Stmt.insertWindow g.window.id g.window.session g.window.name g.window.position
      g.window.createdAt).onWindows [] ≠ [] := by simp [Stmt.onWindows]
  rw [Db.stopped,backfillWindows_eq hpre,hgs,windows_execAll,hpre.windows,List.flatMap_cons,
    Home.stmts,Home.open_,List.cons_append,List.cons_append,List.take_succ_cons,windowsAfter,
    List.foldl_cons]
  exact windowsAfter_ne_nil hfirst

/-- When a run stops, a pane is in its window for good or has its assignment still to come. -/
theorem stopped_cases (hpre : db.PreWindow) (hmem : h ∈ homes readLayout writeLayout draws db)
    (hrow : row ∈ db.panes) (hhouses : h.Houses row) (n : Nat) :
    ((∃ stmt ∈ (backfillWindows readLayout writeLayout draws db).drop n, stmt.Assigns row) ∧
      (db.stopped readLayout writeLayout draws n).windowOf row.id = none) ∨
    (∀ stmt ∈ (backfillWindows readLayout writeLayout draws db).drop n, ¬stmt.Assigns row) ∧
      (db.stopped readLayout writeLayout draws n).windowOf row.id = some h.window := by
  obtain ⟨front,back,hsplit,hfront,hback⟩ := home_split hmem hrow hhouses
  obtain ⟨last,hlast,hassigns⟩ := hhouses
  have hstmts : h.stmts = h.open_ ++ [last] := by
    rw [Home.stmts,show h.assign = some last from hlast,Option.toList_some]
  have hall : backfillWindows readLayout writeLayout draws db =
      (front.flatMap Home.stmts ++ h.open_) ++ last :: back.flatMap Home.stmts := by
    rw [backfillWindows_eq hpre,hsplit,List.flatMap_append,List.flatMap_cons,hstmts]
    simp
  have hbefore : ∀ stmt ∈ front.flatMap Home.stmts ++ h.open_, ¬stmt.Assigns row := by
    intro stmt hstmt
    rcases List.mem_append.mp hstmt with hstmt | hstmt
    · exact hfront stmt hstmt
    · exact Home.not_assigns_open hstmt
  rcases Nat.lt_or_ge (front.flatMap Home.stmts ++ h.open_).length n with hlt | hle
  · right
    have hfirst : front.flatMap Home.stmts ++ h.open_ ++ last :: back.flatMap Home.stmts =
        (front.flatMap Home.stmts ++ h.stmts) ++ back.flatMap Home.stmts := by
      rw [hstmts]
      simp
    have hle : (front.flatMap Home.stmts ++ h.stmts).length ≤ n := by
      rw [hstmts]
      simp at hlt ⊢
      omega
    obtain ⟨m,rfl⟩ := Nat.exists_eq_add_of_le hle
    rw [Db.stopped,hall,hfirst,List.drop_length_add_append,List.take_length_add_append]
    refine ⟨fun stmt hstmt => (hback stmt (List.mem_of_mem_drop hstmt)).1,?_⟩
    exact windowOf_home hpre hsplit hrow ⟨last,hlast,hassigns⟩ hfront
      fun stmt hstmt => hback stmt (List.mem_of_mem_take hstmt)
  · left
    rw [Db.stopped,hall,List.drop_append_of_le_length hle,List.take_append_of_le_length hle]
    refine ⟨⟨last,by simp,hassigns⟩,windowOf_eq_none hpre hrow fun stmt hstmt => ?_⟩
    exact hbefore stmt (List.mem_of_mem_take hstmt)

theorem session_of_houses (hmem : h ∈ homes readLayout writeLayout draws db)
    (hrow : row ∈ db.panes) (hhouses : h.Houses row) : row.session = .uuid h.window.session := by
  obtain ⟨s,hs,hmem⟩ := mem_homes.mp hmem
  obtain ⟨sid,pane,hsid,hsession,-⟩ := hhouses.of_session hmem hrow
  rw [hsession,← hsid,(window_of_sessionHomes hmem).1]

/-- The store is put right by the next attempt just where the first one wrote nothing, or was
through with the panes. -/
theorem restart_recovers (readLayout : Text → Option LayoutNode) (writeLayout : LayoutNode → Text)
    (draws draws' : Draws) (hpre : db.PreWindow) (n : Nat) :
    Recovered readLayout writeLayout db
      ((db.stopped readLayout writeLayout draws n).backfilled readLayout writeLayout draws') ↔
    n = 0 ∨ ∀ stmt ∈ (backfillWindows readLayout writeLayout draws db).drop n,
      ∀ row ∈ db.panes, ¬stmt.Assigns row := by
  have hwhole : Recovered readLayout writeLayout db
      (db.backfilled readLayout writeLayout draws') := by
    refine ⟨draws',fun s hs sid hsid row hrow pane hsession hpane => ?_⟩
    obtain ⟨h,hmem,hhouses,-⟩ :=
      exists_home readLayout writeLayout draws' hs hsid hrow hsession hpane
    have hwindow := windowOf_backfilled hpre hmem hrow hhouses
    have hsid' := session_of_houses hmem hrow hhouses
    exact ⟨h.window,RowId.uuid.inj (hsid'.symm.trans hsession),hwindow,hwindow⟩
  have hnothing : n = 0 ∨ homes readLayout writeLayout draws db = [] →
      db.stopped readLayout writeLayout draws n = db := by
    rintro (rfl | hnil)
    · rfl
    · rw [Db.stopped,backfillWindows_eq hpre,hnil,List.flatMap_nil,List.take_nil]
      rfl
  by_cases hstart : n = 0 ∨ homes readLayout writeLayout draws db = []
  · rw [hnothing hstart]
    refine iff_of_true hwhole (hstart.imp_right fun hnil stmt hstmt => ?_)
    rw [backfillWindows_eq hpre,hnil,List.flatMap_nil,List.drop_nil] at hstmt
    cases hstmt
  obtain ⟨hn,hsome⟩ := not_or.mp hstart
  rw [or_iff_right hn,backfilled_of_windows (windows_stopped hpre hn hsome)]
  constructor
  · rintro ⟨_,hall⟩ stmt hstmt row hrow hassigns
    have hin := List.mem_of_mem_drop hstmt
    rw [backfillWindows_eq hpre] at hin
    obtain ⟨h,hmem,hin⟩ := List.mem_flatMap.mp hin
    have hhouses := Home.assigns_stmts.mp ⟨stmt,hin,hassigns⟩
    obtain ⟨s,hs,sid,pane,hsid,hsession,hpane,-⟩ := houses_homes hmem hrow hhouses
    obtain ⟨w,-,hw,-⟩ := hall s hs sid hsid row hrow pane hsession hpane
    rcases stopped_cases hpre hmem hrow hhouses n with ⟨-,hnone⟩ | ⟨hno,-⟩
    · rw [hnone] at hw
      cases hw
    · exact hno stmt hstmt hassigns
  · intro hno
    refine ⟨draws,fun s hs sid hsid row hrow pane hsession hpane => ?_⟩
    obtain ⟨h,hmem,hhouses,-⟩ :=
      exists_home readLayout writeLayout draws hs hsid hrow hsession hpane
    have hsid' := session_of_houses hmem hrow hhouses
    refine ⟨h.window,RowId.uuid.inj (hsid'.symm.trans hsession),?_,
      windowOf_backfilled hpre hmem hrow hhouses⟩
    rcases stopped_cases hpre hmem hrow hhouses n with ⟨⟨stmt,hstmt,hassigns⟩,-⟩ | ⟨-,hwindow⟩
    · exact absurd hassigns (hno stmt hstmt row hrow)
    · exact hwindow

theorem restart_recovers_aged :
    Recovered readLeaf writeLeaf aged
      ((aged.stopped readLeaf writeLeaf pairDraws 3).backfilled readLeaf writeLeaf pairDraws) ↔
    3 = 0 ∨ ∀ stmt ∈ (backfillWindows readLeaf writeLeaf pairDraws aged).drop 3,
      ∀ row ∈ aged.panes, ¬stmt.Assigns row :=
  restart_recovers readLeaf writeLeaf pairDraws pairDraws preWindow_aged 3

/-- A crash right after the first window is in: its pane is never assigned. -/
theorem stopped_aged :
    ¬∀ (readLayout : Text → Option LayoutNode) (writeLayout : LayoutNode → Text)
      (draws draws' : Draws) (db : Db), db.PreWindow → ∀ n, Recovered readLayout writeLayout db
        ((db.stopped readLayout writeLayout draws n).backfilled readLayout writeLayout draws') := by
  intro hall
  obtain ⟨_,hpanes⟩ := hall readLeaf writeLeaf pairDraws pairDraws aged preWindow_aged 1
  obtain ⟨w,-,hw,-⟩ :=
    hpanes _ List.mem_cons_self ⟨1⟩ rfl _ List.mem_cons_self ⟨1⟩ rfl rfl
  have hnone : ((aged.stopped readLeaf writeLeaf pairDraws 1).backfilled readLeaf writeLeaf
      pairDraws).windowOf (.uuid ⟨1⟩) = none := by decide
  rw [hnone] at hw
  cases hw

end Pyre.WindowBackfill
