import Pyre.Supervisor.Handlers

/-!
Which handlers take a lock while they hold another. Two do, when the windows of a session
are not in memory, and in opposite orders; all others take one lock at a time.
-/

set_option autoImplicit false

namespace Pyre.Supervisor
open Base Code WorkerRegistry

/-- What a handler may wait for with which lock in hand. -/
def HandlerCall.nesting : HandlerCall → Lock → Lock → Prop
  | .listWindows _ => fun h l => h = .windowStore ∧ l = .sessionWindows
  | .openPane _ _ => fun h l => h = .sessionWindows ∧ l = .windowStore
  | _ => fun _ _ => False

/-- It holds no lock where it starts and takes them as `R` says. -/
def Code.Free (R : Lock → Lock → Prop) (c : Code) : Prop := c.Nests R []

namespace Code

variable {α : Type} {R : Lock → Lock → Prop} {l : Lock} {next failed : Code}

theorem free_done : Free R .done := rfl

theorem free_ask {next : Reply → Code} (h : ∀ r, (next r).Free R) : Free R (.ask next) :=
  fun r => ⟨Or.inl rfl,h r⟩

theorem free_act {write : SupervisorImpl → SupervisorImpl} {next : SupervisorImpl → Code}
    (h : ∀ s, (next s).Free R) : Free R (.act write next) := h

theorem free_locked {m : LockMode} {f : SupervisorImpl → SupervisorImpl × α} {next : α → Code}
    (h : ∀ a, (next a).Free R) : Free R (locked l m f next) := by
  refine ⟨by simp,fun s => ⟨by simp,?_⟩⟩
  simpa [Free] using h (f s).2

theorem free_read {f : SupervisorImpl → α} {next : α → Code} (h : ∀ a, (next a).Free R) :
    Free R (read l f next) := free_locked h

theorem free_look {f : SupervisorImpl → α} {next : α → Code} (h : ∀ a, (next a).Free R) :
    Free R (look l f next) := free_locked h

theorem free_mutex {f : SupervisorImpl → SupervisorImpl × α} {next : α → Code}
    (h : ∀ a, (next a).Free R) : Free R (mutex l f next) := free_locked h

theorem free_update {f : SupervisorImpl → SupervisorImpl} (h : next.Free R) :
    Free R (update l f next) := free_locked fun _ => h

theorem free_attempt (h : next.Free R) (hfailed : failed.Free R) :
    Free R (attempt next failed) := by
  refine free_ask fun r => ?_
  split
  · exact h
  · exact hfailed

theorem free_query {f : SupervisorImpl → α} {next : Option α → Code}
    (h : ∀ a, (next a).Free R) : Free R (query f next) :=
  free_attempt (free_act fun _ => h _) (h none)

theorem free_store {f : SupervisorImpl → SupervisorImpl} (h : next.Free R)
    (hfailed : failed.Free R) : Free R (store f next failed) :=
  free_attempt (free_act fun _ => h) hfailed

theorem free_storeOrWarn {f : SupervisorImpl → SupervisorImpl} (h : next.Free R) :
    Free R (storeOrWarn f next) := free_store h h

theorem free_forEach {xs : List α} {body : α → Code → Code}
    (hbody : ∀ x next, next.Free R → (body x next).Free R) (h : next.Free R) :
    Free R (forEach xs body next) := by
  induction xs with
  | nil => exact h
  | cons x xs ih => exact hbody x _ ih

theorem free_remove {session : SessionKey} {next : Bool → Code} (h : ∀ a, (next a).Free R) :
    Free R (remove session next) := free_update (free_locked h)

theorem free_getCtrlClient {session : SessionKey} {next : Bool → Code}
    (h : ∀ a, (next a).Free R) : Free R (getCtrlClient session next) := free_locked h

theorem free_lookupPane {pane : PaneId} {next : Option SlotKey → Code}
    (h : ∀ a, (next a).Free R) : Free R (lookupPane pane next) := free_locked h

theorem free_sessions {next : List SessionKey → Code} (h : ∀ a, (next a).Free R) :
    Free R (sessions next) := free_locked h

theorem free_allocPane {session : SessionKey} {next : PaneId → Code} (h : ∀ a, (next a).Free R) :
    Free R (allocPane session next) := free_ask fun r => free_update (h r.pane)

theorem free_getOrAllocPaneBySlot {session : SessionKey} {slot : UInt32}
    {next : Option PaneId → Code} (h : ∀ a, (next a).Free R) :
    Free R (getOrAllocPaneBySlot session slot next) := by
  unfold getOrAllocPaneBySlot
  refine free_read fun e => ?_
  split
  · exact h _
  · split
    · exact h none
    · exact free_ask fun r => free_update (h (some r.pane))

theorem free_callWorker {pane : PaneId} {next : SlotKey → Code} (h : ∀ a, (next a).Free R) :
    Free R (callWorker pane next) := by
  unfold callWorker
  refine free_lookupPane fun key => ?_
  cases key with
  | none => exact free_done
  | some key =>
    refine free_getCtrlClient fun found => ?_
    split
    · exact free_attempt (h key) free_done
    · exact free_done

theorem free_windowSingleLeafFallback (session : SessionKey) :
    Free R (windowSingleLeafFallback session) := by
  unfold windowSingleLeafFallback
  refine free_getCtrlClient fun found => ?_
  split
  · refine free_ask fun r => ?_
    split
    · exact free_getOrAllocPaneBySlot fun _ => free_done
    · exact free_done
  · exact free_done

theorem free_warm {w : WindowId} {info : WindowMeta} {list : SupervisorImpl → SupervisorImpl}
    (h : next.Free R) : Free R (warm w info list next) := free_update (free_update h)

theorem free_getOrCreateDefaultWindow {session : SessionKey} {next : Option WindowId → Code}
    (h : ∀ a, (next a).Free R) : Free R (getOrCreateDefaultWindow session next) := by
  unfold getOrCreateDefaultWindow
  refine free_look fun first => ?_
  cases first with
  | some w => exact h (some w)
  | none =>
    refine free_query fun rows => ?_
    split
    · exact free_warm (h _)
    · exact free_ask fun r => free_store (free_update (free_update (h (some r.window)))) (h none)

theorem free_storeLayout {w : WindowId} {tree : Option LayoutNode} (h : next.Free R) :
    Free R (storeLayout w tree next) := by
  cases tree with
  | none => exact h
  | some tree => exact free_storeOrWarn h

end Code

/-! The handlers that hold one lock at a time. -/

section Handlers

open Handler

variable {R : Lock → Lock → Prop}

theorem free_spawn : spawn.Free R := by
  refine free_ask fun r => free_allocPane fun pane => free_attempt (free_attempt ?_ free_done) free_done
  refine free_getCtrlClient fun found => ?_
  split
  · refine free_attempt ?_ free_done
    exact free_storeOrWarn (free_storeOrWarn (free_update (free_update (free_update free_done))))
  · exact free_done

theorem free_listPanes (session : SessionKey) : (listPanes session).Free R := by
  unfold listPanes
  refine free_getCtrlClient fun found => ?_
  split
  · refine free_ask fun r => ?_
    split
    · refine free_forEach (fun slot next h => free_getOrAllocPaneBySlot fun pane => ?_) free_done
      cases pane with
      | none => exact h
      | some pane =>
        refine free_attempt (free_look fun assigned => ?_) h
        cases assigned with
        | some w => exact h
        | none =>
          refine free_getOrCreateDefaultWindow fun w => ?_
          cases w with
          | some w => exact free_storeOrWarn (free_update h)
          | none => exact h
    · exact free_done
  · exact free_done

theorem free_closePane (pane : PaneId) : (closePane pane).Free R := by
  refine free_callWorker fun key => free_look fun w => ?_
  cases w with
  | none => exact free_update free_done
  | some w => exact free_mutex fun tree => free_update (free_storeLayout free_done)

theorem free_closeSession (session : SessionKey) : (closeSession session).Free R := by
  unfold closeSession
  refine free_look fun windows => free_remove fun found => ?_
  have htear : Free R (forEach windows (fun w next =>
      query (fun s => s.listPanesForWindow w) fun panes =>
        update .paneWindowMap (fun s => (panes.getD []).foldl SupervisorImpl.unassign s)
          (update .windowStore (fun s => { s with windowStore := s.windowStore.erase w })
            (storeOrWarn (·.deleteWindow w) next)))
      (update .sessionWindows
        (fun s => { s with sessionWindows := s.sessionWindows.erase session }) .done)) := by
    refine free_forEach (fun w next h => free_query fun panes => ?_) (free_update free_done)
    exact free_update (free_update (free_storeOrWarn h))
  cases found with
  | true => exact free_attempt htear htear
  | false => exact htear

theorem free_listAllPanes {next : Code} (h : next.Free R) : (listAllPanes next).Free R := by
  refine free_sessions fun ids => free_forEach (fun session next h => free_ask fun r => ?_) h
  refine free_forEach (fun slot next h => free_getOrAllocPaneBySlot fun pane => ?_) h
  cases pane with
  | none => exact h
  | some pane => exact free_attempt (free_attempt h h) h

theorem free_waitPaneState (rounds : Nat) : (waitPaneState rounds).Free R := by
  induction rounds with
  | zero => exact free_done
  | succ rounds ih => exact free_listAllPanes (free_attempt free_done ih)

/-- The registry is held while the workers are asked, and nothing is taken meanwhile. -/
theorem free_gcStaleSessions : gcStaleSessions.Free R := by
  have hpoll : ∀ (ids : List SessionKey) (next : List SessionKey → Code),
      (∀ stale, (next stale).wants = none ∧ (next stale).Nests R [(.registry,.shared)]) →
        (pollPanes ids next).wants = none ∧ (pollPanes ids next).Nests R [(.registry,.shared)] := by
    intro ids
    induction ids with
    | nil => exact fun next h => h []
    | cons id ids ih =>
      intro next h
      refine ⟨rfl,fun r => ?_⟩
      obtain ⟨hwants,hnests⟩ := ih
        (fun stale => next (if r.ok ∧ r.slots = [] then id :: stale else stale)) fun stale => h _
      exact ⟨Or.inr hwants,hnests⟩
  have hevict : ∀ stale : List SessionKey, Free R (forEach stale (fun session next =>
      remove session fun found => if found then attempt next next else next) .done) := by
    refine fun stale => free_forEach (fun session next h => free_remove fun found => ?_) free_done
    cases found with
    | true => exact free_attempt h h
    | false => exact h
  refine ⟨by simp,fun s => (hpoll s.workers.keys _ fun stale => ⟨rfl,?_⟩).2⟩
  exact ⟨by simp,by simpa [Free] using hevict stale⟩

theorem free_describeWindows (windows : List WindowId) : (describeWindows windows).Free R := by
  refine free_forEach (fun w next h => free_look fun known => ?_) free_done
  split
  · exact free_attempt (free_look fun _ => h) (free_look fun _ => h)
  · exact h

theorem free_closeWindow (w : WindowId) : (closeWindow w).Free R := by
  unfold closeWindow
  refine free_query fun panes => ?_
  cases panes with
  | none => exact free_done
  | some panes =>
    refine free_forEach (fun pane next h => free_lookupPane fun key => ?_) ?_
    · have hdrop : Free R (update .paneWindowMap (·.unassign pane) next) := free_update h
      cases key with
      | none => exact hdrop
      | some key =>
        refine free_getCtrlClient fun found => ?_
        cases found with
        | true => exact free_attempt hdrop hdrop
        | false => exact hdrop
    · refine free_look fun session => free_update ?_
      have hfinish : Free R (store (·.deleteWindow w) .done .done) := free_store free_done free_done
      cases session with
      | none => exact hfinish
      | some session => exact free_update hfinish

theorem free_reconcile (session : SessionKey) (w : WindowId) (tree : LayoutNode) :
    (reconcile session w tree).Free R := by
  unfold reconcile livePaneIds
  refine free_read fun all => free_look fun live => ?_
  simp only
  split
  · exact free_done
  · exact free_update (free_storeOrWarn free_done)

theorem free_getWindowLayout (w : WindowId) : (getWindowLayout w).Free R := by
  unfold getWindowLayout
  refine free_look fun session => ?_
  cases session with
  | none => exact free_done
  | some session =>
    refine free_look fun tree => ?_
    cases tree with
    | some tree => exact free_reconcile session w tree
    | none =>
      refine free_query fun json => ?_
      split
      · exact free_update (free_reconcile session w _)
      · exact free_windowSingleLeafFallback session

theorem free_openPaneSplit (parent : PaneId) (orient : Orient) :
    (openPaneSplit parent orient).Free R := by
  unfold openPaneSplit
  refine free_lookupPane fun key => ?_
  cases key with
  | none => exact free_done
  | some key =>
    refine free_getCtrlClient fun found => ?_
    split
    · refine free_allocPane fun pane => free_attempt (free_look fun assigned => ?_) free_done
      cases assigned with
      | some w =>
        exact free_mutex fun tree => free_storeOrWarn (free_storeOrWarn (free_update free_done))
      | none =>
        refine free_ask fun r => free_getOrCreateDefaultWindow fun w => ?_
        exact free_mutex fun tree => free_storeOrWarn (free_storeOrWarn (free_update free_done))
    · exact free_done

theorem free_setPaneWeight (pane : PaneId) (setWeight : LayoutNode → LayoutNode) :
    (setPaneWeight pane setWeight).Free R := by
  unfold setPaneWeight
  refine free_look fun w => ?_
  cases w with
  | none => exact free_done
  | some w =>
    refine free_mutex fun tree => ?_
    cases tree with
    | none => exact free_done
    | some tree => exact free_store free_done free_done

theorem free_getSessionLayout (session : SessionKey) : (getSessionLayout session).Free R := by
  unfold getSessionLayout
  refine free_look fun first => ?_
  cases first with
  | some w => exact free_getWindowLayout w
  | none =>
    refine free_query fun rows => ?_
    split
    · exact free_done
    · exact free_windowSingleLeafFallback session
    · exact free_warm (free_getWindowLayout _)

theorem free_paneClosed (session : SessionKey) (slot : UInt32) : (paneClosed session slot).Free R := by
  unfold paneClosed removePaneSlot
  refine free_getOrAllocPaneBySlot fun pane => free_mutex fun remaining => ?_
  simp only
  split
  on_goal 1 => refine free_remove fun _ => ?_
  -- what follows is the same whether or not the session is dropped
  all_goals
    cases pane with
    | none => exact free_done
    | some pane =>
      refine free_mutex fun w => ?_
      cases w with
      | none => exact free_done
      | some w => exact free_mutex fun tree => free_storeLayout free_done

theorem free_callOnce {session : SessionKey} {next : Code} (h : next.Free R) :
    Free R (getCtrlClient session fun found => if found then attempt next .done else .done) := by
  refine free_getCtrlClient fun found => ?_
  split
  · exact free_attempt h free_done
  · exact free_done

theorem free_kill (session : SessionKey) : (kill session).Free R := by
  refine free_remove fun found => ?_
  cases found with
  | true => exact free_attempt free_done free_done
  | false => exact free_done

theorem free_listSessions : listSessions.Free R := by
  refine free_sessions fun ids => free_forEach (fun _ next h => ?_) free_done
  exact free_attempt (free_attempt h h) (free_attempt h h)

theorem free_inspectPid (pane : PaneId) : (inspectPid pane).Free R := by
  refine free_lookupPane fun key => ?_
  cases key with
  | none => exact free_done
  | some key => exact free_read fun _ => free_done

theorem free_renamePane (pane : PaneId) : (renamePane pane).Free R := by
  refine free_lookupPane fun key => ?_
  cases key with
  | none => exact free_done
  | some key => exact free_attempt free_done free_done

theorem free_newWindow (session : SessionKey) (name : Option String) :
    (newWindow session name).Free R :=
  free_look fun _ => free_ask fun _ => free_store (free_update (free_update free_done)) free_done

theorem free_registerWorker (session : SessionKey) : (registerWorker session).Free R := by
  refine free_ask fun r => ?_
  split
  · exact free_update free_done
  · exact free_done

theorem free_heartbeatMonitor : heartbeatMonitor.Free R := by
  refine free_ask fun r => free_read fun stale => ?_
  exact free_forEach (fun session next h => free_remove fun _ => free_attempt h h) free_done

theorem free_sigchld : sigchld.Free R := by
  refine free_ask fun r => free_read fun session => ?_
  cases session with
  | none => exact free_done
  | some session =>
    refine free_read fun remaining => free_remove fun _ => ?_
    split
    · exact free_done
    · exact free_attempt free_done free_done

theorem free_proxyStreamToWorker (pane : PaneId) : (proxyStreamToWorker pane).Free R := by
  refine free_lookupPane fun key => ?_
  cases key with
  | none => exact free_done
  | some key => exact free_read fun _ => free_done

/-! The two that take a second lock. -/

theorem free_warmWindows (hR : R .windowStore .sessionWindows) (session : SessionKey)
    (rows : List WindowRow) {next : Code} (h : next.Free R) :
    (warmWindows session rows next).Free R := by
  refine ⟨by simp,?_,fun s => ⟨Or.inr rfl,by simp,?_⟩⟩
  · simpa using hR
  · simpa [Free] using h

theorem free_listWindows (hR : R .windowStore .sessionWindows) (session : SessionKey) :
    (listWindows session).Free R := by
  unfold listWindows
  refine free_look fun windows => ?_
  split
  · refine free_query fun rows => ?_
    cases rows with
    | none => exact free_done
    | some rows => exact free_warmWindows hR session rows (free_describeWindows _)
  · exact free_describeWindows windows

theorem free_listOpened (hR : R .sessionWindows .windowStore) (session : SessionKey)
    (pane : PaneId) (w : WindowId) : (listOpened session pane w).Free R := by
  refine ⟨by simp,fun s => ?_⟩
  beta_reduce
  split
  · exact ⟨by simp,by simp [Prog.Nests]⟩
  · refine ⟨?_,fun s => ⟨Or.inr rfl,by simp,?_⟩⟩
    · simpa using hR
    · simp [Prog.Nests]

theorem free_openPane (hR : R .sessionWindows .windowStore) (session : SessionKey)
    (asked : Option WindowId) : (openPane session asked).Free R := by
  unfold openPane
  refine free_getCtrlClient fun found => ?_
  split
  · refine free_allocPane fun pane => free_attempt ?_ free_done
    cases asked with
    | some w => exact free_storeOrWarn (free_update (free_listOpened hR session pane w))
    | none =>
      refine free_ask fun r => free_getOrCreateDefaultWindow fun w => ?_
      exact free_storeOrWarn (free_update (free_listOpened hR session pane _))
  · exact free_done

end Handlers

theorem HandlerCall.body_free (c : HandlerCall) : c.body.Free c.nesting := by
  cases c with
  | spawn => exact free_spawn
  | attach => exact free_callOnce free_done
  | kill session => exact free_kill session
  | listSessions => exact free_listSessions
  | listPanes session => exact free_listPanes session
  | openPane session asked => exact free_openPane ⟨rfl,rfl⟩ session asked
  | closePane pane => exact free_closePane pane
  | capturePane | setPaneState | markPaneSeen | sendKeys | resizePane =>
    exact free_callWorker fun _ => free_done
  | closeSession session => exact free_closeSession session
  | listAllPanes => exact free_listAllPanes free_done
  | waitPaneState rounds => exact free_waitPaneState rounds
  | inspectPid pane => exact free_inspectPid pane
  | renamePane pane => exact free_renamePane pane
  | gcStaleSessions => exact free_gcStaleSessions
  | listWindows session => exact free_listWindows ⟨rfl,rfl⟩ session
  | newWindow session name => exact free_newWindow session name
  | renameWindow => exact free_update (free_store free_done free_done)
  | closeWindow w => exact free_closeWindow w
  | getWindowLayout w => exact free_getWindowLayout w
  | openPaneSplit parent orient => exact free_openPaneSplit parent orient
  | setPaneWeight pane setWeight => exact free_setPaneWeight pane setWeight
  | getSessionLayout session => exact free_getSessionLayout session
  | gitStatus => exact free_callOnce (free_attempt free_done free_done)
  | registerWorker session => exact free_registerWorker session
  | paneClosed session slot => exact free_paneClosed session slot
  | paneStateChanged | processRawEvent => exact free_getOrAllocPaneBySlot fun _ => free_done
  | heartbeat => exact free_update free_done
  | heartbeatMonitor => exact free_heartbeatMonitor
  | sigchld => exact free_sigchld
  | reattach => exact free_getCtrlClient fun _ => free_done
  | proxyStreamToWorker pane => exact free_proxyStreamToWorker pane
  | detach | listBlocks | searchBlocks | replay | getBlockStdout | lastBlockForPane | renameSession
  | requestFocus | takeFocusRequest | nextPaneEvent | blockEvent =>
    exact free_ask fun _ => free_done

theorem HandlerCall.nesting_pair (c : HandlerCall) (h l : Lock) (hn : c.nesting h l) :
    Threads.Pair .windowStore .sessionWindows h l := by
  cases c with
  | listWindows => exact Or.inl hn
  | openPane => exact Or.inr hn
  | _ => exact hn.elim

theorem HandlerCall.body_nests (c : HandlerCall) :
    c.body.Nests (Threads.Pair .windowStore .sessionWindows) [] := c.body_free.mono c.nesting_pair

theorem nesting_start (tables : SupervisorImpl) :
    (⟨tables,[]⟩ : Threads Lock SupervisorImpl Reply).Nesting
      (Threads.Pair .windowStore .sessionWindows) := by
  intro th hth
  cases hth

theorem not_deadlocked_start (tables : SupervisorImpl) :
    ¬(⟨tables,[]⟩ : Threads Lock SupervisorImpl Reply).Deadlocked := by
  rw [Threads.deadlocked_iff_crossed (by decide) (nesting_start tables)]
  rintro ⟨⟨th,hth,-⟩,-⟩
  cases hth

/-- Whatever is in the tables and whatever is called, handlers wait for one another in a
circle just if one comes to wait for `window_store` or `session_windows` with the other of
them in hand, and finds one that waits for the latter with the former in hand. -/
theorem no_lock_cycle_iff (tables : SupervisorImpl) (steps : List (ThreadStep HandlerCall Reply)) :
    Always (Threads.step HandlerCall.body) (fun t => ¬t.Deadlocked) ⟨tables,[]⟩ steps ↔
      Along (Threads.step HandlerCall.body) Threads.Orderly ⟨tables,[]⟩ steps :=
  (Threads.along_orderly_iff (by decide) HandlerCall.body_nests (nesting_start tables)
    (not_deadlocked_start tables) steps).symm

def plainReply : Reply := ⟨true,[],[],"s",⟨1⟩,⟨2⟩⟩

/-- A worker is registered and a pane opened in a window that is not listed yet. Meanwhile
the windows of the session are listed for the first time. -/
def coldCalls : List (ThreadStep HandlerCall Reply) :=
  [.call (.registerWorker "s"),.reply 0 plainReply,.go 0,.go 0,.go 0,
    .call (.openPane "s" (some ⟨2⟩)),.go 1,.go 1,.go 1,.reply 1 plainReply,.go 1,.go 1,.go 1,
    .reply 1 plainReply,.reply 1 plainReply,.go 1,.go 1,.go 1,.go 1,
    .call (.listWindows "s"),.go 2,.go 2,.go 2,.reply 2 plainReply,.go 2,
    .go 1,.go 1,.go 2]

/-- Each of the two holds the lock the other waits for. -/
theorem list_windows_open_pane_deadlock :
    ¬∀ steps, Always (Threads.step HandlerCall.body) (fun t => ¬t.Deadlocked) ⟨.empty,[]⟩
      steps := by
  intro h
  have hrun : (exec (Threads.step HandlerCall.body) ⟨.empty,[]⟩ coldCalls).any fun t =>
      t.Crossed .windowStore .sessionWindows := by decide
  obtain ⟨t,ht,hcross⟩ := (Option.any_eq_true _ _).mp hrun
  have hnesting := (Always.of_invariant (fun s a u hs hu => hs.step HandlerCall.body_nests hu)
    (nesting_start .empty) coldCalls).last ht
  exact (h coldCalls).last ht
    ((Threads.deadlocked_iff_crossed (by decide) hnesting).mpr (of_decide_eq_true hcross))

end Pyre.Supervisor
