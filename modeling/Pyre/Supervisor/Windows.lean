import Mathlib.Data.List.Sort
import Pyre.Layout
import Pyre.Supervisor.PaneIndex

/-!
The supervisor's windows: the layout and the order of the windows of each session
and the window of each pane, in memory and in the store. Workers know nothing of
windows; of a worker there is only which slots it has open.
-/

set_option autoImplicit false

namespace Pyre.Supervisor
open Base

structure WindowMeta where
  session : SessionKey
  name : String
  position : UInt32
  layout : Option LayoutNode

/-- A row of the store's table `windows`; `layout` is decoded. -/
structure WindowRow where
  id : WindowId
  session : SessionKey
  name : String
  position : UInt32
  layout : Option LayoutNode

/-- `workers` has the registered workers with their open slots, `windowRows` and
`paneRows` are the store's, the latter as the window of each pane. -/
structure SupervisorImpl where
  index : PaneIndex
  workers : Table SessionKey (List UInt32)
  windowStore : Table WindowId WindowMeta
  sessionWindows : Table SessionKey (List WindowId)
  paneWindowMap : Table PaneId WindowId
  windowRows : List WindowRow
  paneRows : Table PaneId WindowId

namespace SupervisorImpl

def empty : SupervisorImpl := ⟨.empty,∅,∅,∅,∅,[],∅⟩

/-! The store. -/

def upsertWindow (s : SupervisorImpl) (w : WindowId) (session : SessionKey) (name : String)
    (position : UInt32) : SupervisorImpl :=
  { s with windowRows := s.windowRows ++ [⟨w,session,name,position,none⟩] }

def upsertWindowLayout (s : SupervisorImpl) (w : WindowId) (tree : LayoutNode) : SupervisorImpl :=
  { s with windowRows := s.windowRows.map fun r =>
      if r.id = w then { r with layout := some tree } else r }

def windowLayoutJson (s : SupervisorImpl) (w : WindowId) : Option LayoutNode :=
  (s.windowRows.find? fun r => r.id = w).bind WindowRow.layout

def listWindows (s : SupervisorImpl) (session : SessionKey) : List WindowRow :=
  (s.windowRows.filter fun r => r.session = session).insertionSort fun a b =>
    a.position ≤ b.position

def assignPaneWindow (s : SupervisorImpl) (pane : PaneId) (w : WindowId) : SupervisorImpl :=
  { s with paneRows := s.paneRows.insert pane w }

def listPanesForWindow (s : SupervisorImpl) (w : WindowId) : List PaneId :=
  (s.paneRows.entries.filter fun e => e.2 = w).map Sigma.fst

def renameRow (s : SupervisorImpl) (w : WindowId) (name : String) : SupervisorImpl :=
  { s with windowRows := s.windowRows.map fun r =>
      if r.id = w then { r with name := name } else r }

def deleteWindow (s : SupervisorImpl) (w : WindowId) : SupervisorImpl :=
  { s with windowRows := s.windowRows.filter fun r => r.id ≠ w }

/-! The tables in memory. -/

def windowsOf (s : SupervisorImpl) (session : SessionKey) : List WindowId :=
  (s.sessionWindows.lookup session).getD []

def pushWindow (s : SupervisorImpl) (session : SessionKey) (w : WindowId) : SupervisorImpl :=
  { s with sessionWindows := s.sessionWindows.insert session (s.windowsOf session ++ [w]) }

def setMeta (s : SupervisorImpl) (w : WindowId) (info : WindowMeta) : SupervisorImpl :=
  { s with windowStore := s.windowStore.insert w info }

/-- `entry(w).or_insert(info)`. -/
def orInsertMeta (s : SupervisorImpl) (w : WindowId) (info : WindowMeta) : SupervisorImpl :=
  match s.windowStore.lookup w with
  | some _ => s
  | none => s.setMeta w info

def setLayout (s : SupervisorImpl) (w : WindowId) (tree : LayoutNode) : SupervisorImpl :=
  match s.windowStore.lookup w with
  | some info => s.setMeta w { info with layout := some tree }
  | none => s

/-- Into the store and the map. -/
def assign (s : SupervisorImpl) (pane : PaneId) (w : WindowId) : SupervisorImpl :=
  { s.assignPaneWindow pane w with paneWindowMap := s.paneWindowMap.insert pane w }

def unassign (s : SupervisorImpl) (pane : PaneId) : SupervisorImpl :=
  { s with paneWindowMap := s.paneWindowMap.erase pane }

/-- `WorkerRegistry::remove`. -/
def removeSession (s : SupervisorImpl) (session : SessionKey) : SupervisorImpl :=
  { s with index := s.index.removeSession session, workers := s.workers.erase session }

/-- The slots at which the worker of the session has a PTY. -/
def slots (s : SupervisorImpl) (session : SessionKey) : List UInt32 :=
  (s.workers.lookup session).getD []

/-- `WorkerRegistry::insert`, for a worker that has recovered these slots. -/
def registerWorker (s : SupervisorImpl) (session : SessionKey) (slots : List UInt32) :
    SupervisorImpl :=
  { s with workers := s.workers.insert session slots }

def openSlot (s : SupervisorImpl) (session : SessionKey) (slot : UInt32) : SupervisorImpl :=
  { s with workers := s.workers.insert session ((s.slots session).insert slot) }

def closeSlot (s : SupervisorImpl) (session : SessionKey) (slot : UInt32) : SupervisorImpl :=
  { s with workers := s.workers.insert session ((s.slots session).filter (· ≠ slot)) }

/-- `WorkerRegistry::alloc_pane`. -/
def allocPane (s : SupervisorImpl) (session : SessionKey) (pane : PaneId) :
    SupervisorImpl × UInt32 :=
  let (index,slot) := s.index.allocPane session pane
  ({ s with index := index },slot)

def getOrAllocPaneBySlot (s : SupervisorImpl) (session : SessionKey) (slot : UInt32)
    (pane : PaneId) : SupervisorImpl × Option PaneId :=
  let (index,found) := s.index.getOrAllocPaneBySlot session slot pane
  ({ s with index := index },found)

/-- `fresh` is the id a new window would get. -/
def getOrCreateDefaultWindow (s : SupervisorImpl) (session : SessionKey) (fresh : WindowId) :
    SupervisorImpl × WindowId :=
  match (s.windowsOf session).head? with
  | some w => (s,w)
  | none =>
    match (s.listWindows session).head? with
    | some row =>
      ((s.orInsertMeta row.id ⟨session,row.name,row.position,none⟩).pushWindow session row.id,row.id)
    | none =>
      (((s.upsertWindow fresh session "1" 0).setMeta fresh ⟨session,"1",0,none⟩).pushWindow
        session fresh,fresh)

theorem default_of_head {s : SupervisorImpl} {session : SessionKey} {w : WindowId}
    (hhead : (s.windowsOf session).head? = some w) (fresh : WindowId) :
    s.getOrCreateDefaultWindow session fresh = (s,w) := by
  rw [getOrCreateDefaultWindow,hhead]

theorem default_of_warm {s : SupervisorImpl} {session : SessionKey}
    (hwarm : s.windowsOf session ≠ []) (fresh : WindowId) :
    ∃ w, (s.windowsOf session).head? = some w ∧
      s.getOrCreateDefaultWindow session fresh = (s,w) := by
  obtain ⟨w,ws,hws⟩ := List.exists_cons_of_ne_nil hwarm
  have hhead : (s.windowsOf session).head? = some w := by rw [hws,List.head?_cons]
  exact ⟨w,hhead,default_of_head hhead fresh⟩

/-! The handlers, from the point where nothing can fail any more. -/

/-- `spawn`, once the worker has opened the pane. -/
def placeSpawned (s : SupervisorImpl) (session : SessionKey) (pane : PaneId) (w : WindowId) :
    SupervisorImpl :=
  let stored := (s.upsertWindow w session "1" 0).assign pane w
  (stored.setMeta w ⟨session,"1",0,some (.leaf pane)⟩).pushWindow session w

/-- The window `open_pane` opens into: the one asked for or else the default. -/
def resolveWindow (s : SupervisorImpl) (session : SessionKey) (asked : Option WindowId)
    (fresh : WindowId) : SupervisorImpl × WindowId :=
  match asked with
  | some w => (s,w)
  | none => s.getOrCreateDefaultWindow session fresh

/-- `open_pane`, once the worker has opened the pane and the window is resolved. -/
def placeOpened (s : SupervisorImpl) (session : SessionKey) (pane : PaneId) (w : WindowId) :
    SupervisorImpl :=
  let s := s.assign pane w
  if w ∈ s.windowsOf session then s
  else
    let position : UInt32 := .ofNat (s.windowsOf session).length
    (s.pushWindow session w).orInsertMeta w
      ⟨session,toString (position+1),position,some (.leaf pane)⟩

/-- The window whose tree `open_pane_split` changes: the parent's or else the default. -/
def parentWindow (s : SupervisorImpl) (session : SessionKey) (parent : PaneId)
    (fresh : WindowId) : SupervisorImpl × WindowId :=
  match s.paneWindowMap.lookup parent with
  | some w => (s,w)
  | none => s.getOrCreateDefaultWindow session fresh

/-- `open_pane_split`, once the worker has opened the pane and the window is resolved. -/
def placeSplit (s : SupervisorImpl) (session : SessionKey) (parent pane : PaneId)
    (orient : Orient) (w : WindowId) : SupervisorImpl :=
  let s := s.orInsertMeta w ⟨session,"1",0,some (.leaf parent)⟩
  match s.windowStore.lookup w with
  | none => s
  | some info =>
    let tree := (info.layout.getD (.leaf parent)).splitFocused parent pane orient
    ((s.setLayout w tree).upsertWindowLayout w tree).assign pane w

/-- Take a closed pane out of the layout of its window and out of the map. -/
def prunePane (s : SupervisorImpl) (pane : PaneId) : SupervisorImpl :=
  match s.paneWindowMap.lookup pane with
  | none => s
  | some w =>
    let s := s.unassign pane
    match (s.windowStore.lookup w).bind WindowMeta.layout with
    | none => s
    | some tree =>
      let tree := (tree.close pane).1
      (s.setLayout w tree).upsertWindowLayout w tree

/-- The callback of a worker that has closed the slot; `fresh` is the id an unknown
slot would get. -/
def paneClosed (s : SupervisorImpl) (session : SessionKey) (slot : UInt32) (fresh : PaneId) :
    SupervisorImpl :=
  let (s,pane) := s.getOrAllocPaneBySlot session slot fresh
  let (index,remaining) := s.index.removePaneSlot session slot
  let s := { s with index := index }
  let s := if remaining = 0 then s.removeSession session else s
  match pane with
  | none => s
  | some pane => s.prunePane pane

/-- One round of the loop of `list_panes`. -/
def listPane (s : SupervisorImpl) (session : SessionKey) (slot : UInt32) (pane : PaneId)
    (fresh : WindowId) : SupervisorImpl :=
  let (s,found) := s.getOrAllocPaneBySlot session slot pane
  match found with
  | none => s
  | some pane =>
    match s.paneWindowMap.lookup pane with
    | some _ => s
    | none =>
      let (s,w) := s.getOrCreateDefaultWindow session fresh
      s.assign pane w

/-- `close_window` takes the window out of memory once its panes are closed. -/
def dropWindow (s : SupervisorImpl) (w : WindowId) : SupervisorImpl :=
  let session := (s.windowStore.lookup w).map WindowMeta.session
  let s := { s with windowStore := s.windowStore.erase w }
  match session with
  | none => s
  | some session =>
    match s.sessionWindows.lookup session with
    | none => s
    | some ws =>
      { s with sessionWindows := s.sessionWindows.insert session (ws.filter (· ≠ w)) }

/-! Reading a layout. -/

/-- The live panes of the window, as `get_window_layout` finds them. -/
def isLive (s : SupervisorImpl) (session : SessionKey) (w : WindowId) (pane : PaneId) : Bool :=
  decide ((s.index.lookup pane).map Prod.fst = some session ∧
    s.paneWindowMap.lookup pane = some w)

def livePanes (s : SupervisorImpl) (session : SessionKey) (w : WindowId) : List PaneId :=
  (s.index.paneToSlot.entries.map Sigma.fst).filter (s.isLive session w)

/-- The window's tree, from memory or else from the store. -/
def treeOf (s : SupervisorImpl) (w : WindowId) : Option LayoutNode :=
  (s.windowStore.lookup w).bind fun info => info.layout.or (s.windowLayoutJson w)

theorem treeOf_of_layout {s : SupervisorImpl} {w : WindowId} {tree : LayoutNode}
    (h : (s.windowStore.lookup w).bind WindowMeta.layout = some tree) :
    s.treeOf w = some tree := by
  obtain ⟨info,hinfo,hlayout⟩ := Option.bind_eq_some_iff.mp h
  rw [treeOf,hinfo,Option.bind_some,hlayout]
  rfl

def pruneGhosts (s : SupervisorImpl) (session : SessionKey) (w : WindowId) (tree : LayoutNode) :
    LayoutNode :=
  (tree.allLeaves.filter fun p => !s.isLive session w p).foldl (fun t p => (t.close p).1) tree

/-- `get_window_layout`: the result, if there is one, and the state after it. The
fallback takes the first slot the worker lists, which may be any of them. -/
def getWindowLayout (s : SupervisorImpl) (w : WindowId) (first : UInt32) (fresh : PaneId) :
    SupervisorImpl × Option LayoutNode :=
  match s.windowStore.lookup w with
  | none => (s,none)
  | some info =>
    match s.treeOf w with
    | none =>
      if first ∈ s.slots info.session then
        let (s,pane) := s.getOrAllocPaneBySlot info.session first fresh
        (s,pane.map .leaf)
      else (s,none)
    | some tree =>
      let s := s.setLayout w tree
      if s.livePanes info.session w = [] then (s,some tree)
      else if tree.allLeaves.all (s.isLive info.session w) then (s,some tree)
      else
        let tree := s.pruneGhosts info.session w tree
        ((s.setLayout w tree).upsertWindowLayout w tree,some tree)

/-! The effect of each operation on the session and the tree of a window. -/

def sessionOf (s : SupervisorImpl) (w : WindowId) : Option SessionKey :=
  (s.windowStore.lookup w).map WindowMeta.session

section effects

variable {s t : SupervisorImpl} {session : SessionKey} {v w : WindowId} {pane : PaneId}

theorem treeOf_congr (hmeta : t.windowStore.lookup v = s.windowStore.lookup v)
    (hjson : t.windowLayoutJson v = s.windowLayoutJson v) : t.treeOf v = s.treeOf v := by
  rw [treeOf,treeOf,hmeta,hjson]

theorem sessionOf_of_treeOf {tree : LayoutNode} (h : s.treeOf v = some tree) :
    ∃ session, s.sessionOf v = some session := by
  obtain ⟨info,hinfo,-⟩ := Option.bind_eq_some_iff.mp h
  exact ⟨info.session,by rw [sessionOf,hinfo]; rfl⟩

@[simp] theorem windowLayoutJson_upsertWindow (s : SupervisorImpl) (w : WindowId)
    (session : SessionKey) (name : String) (position : UInt32) (v : WindowId) :
    (s.upsertWindow w session name position).windowLayoutJson v = s.windowLayoutJson v := by
  simp only [windowLayoutJson,upsertWindow,List.find?_append]
  cases s.windowRows.find? fun r => r.id = v with
  | some r => rfl
  | none => by_cases h : w = v <;> simp [h]

theorem windowLayoutJson_upsertWindowLayout (h : v ≠ w) (s : SupervisorImpl)
    (tree : LayoutNode) :
    (s.upsertWindowLayout w tree).windowLayoutJson v = s.windowLayoutJson v := by
  simp only [windowLayoutJson,upsertWindowLayout,List.find?_map]
  have hid : ((fun r : WindowRow => decide (r.id = v)) ∘ fun r : WindowRow =>
      if r.id = w then { r with layout := some tree } else r) = fun r => decide (r.id = v) := by
    funext r
    simp only [Function.comp_apply]
    split <;> rfl
  rw [hid]
  cases hr : s.windowRows.find? fun r => r.id = v with
  | none => rfl
  | some r =>
    have hrv : r.id = v := by simpa using List.find?_some hr
    simp [hrv,h]

theorem windowLayoutJson_deleteWindow (h : v ≠ w) (s : SupervisorImpl) :
    (s.deleteWindow w).windowLayoutJson v = s.windowLayoutJson v := by
  simp only [windowLayoutJson,deleteWindow,List.find?_filter]
  have hp : (fun r : WindowRow => decide (decide (r.id ≠ w) = true ∧ decide (r.id = v) = true)) =
      fun r => decide (r.id = v) := by
    funext r
    by_cases hr : r.id = v
    · simp [hr,h]
    · simp [hr]
  rw [hp]

theorem lookup_setMeta_self (s : SupervisorImpl) (w : WindowId) (info : WindowMeta) :
    (s.setMeta w info).windowStore.lookup w = some info := AList.lookup_insert _

theorem lookup_setMeta_ne (h : v ≠ w) (s : SupervisorImpl) (info : WindowMeta) :
    (s.setMeta w info).windowStore.lookup v = s.windowStore.lookup v := AList.lookup_insert_ne h

theorem sessionOf_setMeta_self (s : SupervisorImpl) (w : WindowId) (info : WindowMeta) :
    (s.setMeta w info).sessionOf w = some info.session := by
  rw [sessionOf,lookup_setMeta_self]
  rfl

theorem sessionOf_setMeta_ne (h : v ≠ w) (s : SupervisorImpl) (info : WindowMeta) :
    (s.setMeta w info).sessionOf v = s.sessionOf v := by
  rw [sessionOf,lookup_setMeta_ne h,sessionOf]

theorem treeOf_setMeta_ne (h : v ≠ w) (s : SupervisorImpl) (info : WindowMeta) :
    (s.setMeta w info).treeOf v = s.treeOf v := treeOf_congr (lookup_setMeta_ne h s info) rfl

theorem treeOf_setMeta_some (s : SupervisorImpl) (w : WindowId) (session : SessionKey)
    (name : String) (position : UInt32) (tree : LayoutNode) :
    (s.setMeta w ⟨session,name,position,some tree⟩).treeOf w = some tree := by
  rw [treeOf,lookup_setMeta_self]
  rfl

theorem orInsertMeta_known (h : s.sessionOf w ≠ none) (info : WindowMeta) :
    s.orInsertMeta w info = s := by
  unfold orInsertMeta
  split
  · rfl
  · rename_i hw
    simp [sessionOf,hw] at h

theorem orInsertMeta_unknown (h : s.sessionOf w = none) (info : WindowMeta) :
    s.orInsertMeta w info = s.setMeta w info := by
  rw [sessionOf,Option.map_eq_none_iff] at h
  rw [orInsertMeta,h]

theorem sessionOf_setLayout (s : SupervisorImpl) (w v : WindowId) (tree : LayoutNode) :
    (s.setLayout w tree).sessionOf v = s.sessionOf v := by
  unfold setLayout
  cases hw : s.windowStore.lookup w with
  | none => rfl
  | some info =>
    by_cases h : v = w
    · subst h
      rw [sessionOf_setMeta_self,sessionOf,hw]
      rfl
    · exact sessionOf_setMeta_ne h s _

theorem windowRows_setLayout (s : SupervisorImpl) (w : WindowId) (tree : LayoutNode) :
    (s.setLayout w tree).windowRows = s.windowRows := by unfold setLayout; split <;> rfl

theorem treeOf_setLayout_ne (h : v ≠ w) (s : SupervisorImpl) (tree : LayoutNode) :
    (s.setLayout w tree).treeOf v = s.treeOf v := by
  unfold setLayout
  split
  · exact treeOf_setMeta_ne h s _
  · rfl

theorem treeOf_setLayout_self (h : s.sessionOf w ≠ none) (tree : LayoutNode) :
    (s.setLayout w tree).treeOf w = some tree := by
  unfold setLayout
  cases hw : s.windowStore.lookup w with
  | none => simp [sessionOf,hw] at h
  | some info => exact treeOf_setMeta_some s w info.session info.name info.position tree

/-- The tree is put into both places. -/
theorem treeOf_storeLayout_self (h : s.sessionOf w ≠ none) (tree : LayoutNode) :
    ((s.setLayout w tree).upsertWindowLayout w tree).treeOf w = some tree := by
  have hcached : ((s.setLayout w tree).windowStore.lookup w).bind WindowMeta.layout =
      some tree := by
    unfold setLayout
    cases hw : s.windowStore.lookup w with
    | none => simp [sessionOf,hw] at h
    | some info => rw [lookup_setMeta_self]; rfl
  obtain ⟨info,hinfo,hlayout⟩ := Option.bind_eq_some_iff.mp hcached
  have hsame : ((s.setLayout w tree).upsertWindowLayout w tree).windowStore.lookup w =
      some info := hinfo
  rw [treeOf,hsame,Option.bind_some,hlayout]
  rfl

theorem treeOf_storeLayout_ne (h : v ≠ w) (s : SupervisorImpl) (tree : LayoutNode) :
    ((s.setLayout w tree).upsertWindowLayout w tree).treeOf v = s.treeOf v := by
  have hrows : ((s.setLayout w tree).upsertWindowLayout w tree).treeOf v =
      (s.setLayout w tree).treeOf v :=
    treeOf_congr rfl (windowLayoutJson_upsertWindowLayout h _ tree)
  rw [hrows,treeOf_setLayout_ne h]

/-- Nothing differs but the windows' metadata and their rows. -/
structure SamePanes (s t : SupervisorImpl) : Prop where
  index : t.index = s.index
  workers : t.workers = s.workers
  sessionWindows : t.sessionWindows = s.sessionWindows
  paneWindowMap : t.paneWindowMap = s.paneWindowMap
  paneRows : t.paneRows = s.paneRows

theorem SamePanes.refl (s : SupervisorImpl) : s.SamePanes s := ⟨rfl,rfl,rfl,rfl,rfl⟩

theorem SamePanes.trans {u : SupervisorImpl} (h : s.SamePanes t) (h' : t.SamePanes u) :
    s.SamePanes u :=
  ⟨h'.index.trans h.index,h'.workers.trans h.workers,h'.sessionWindows.trans h.sessionWindows,
    h'.paneWindowMap.trans h.paneWindowMap,h'.paneRows.trans h.paneRows⟩

theorem windowRows_orInsertMeta (s : SupervisorImpl) (w : WindowId) (info : WindowMeta) :
    (s.orInsertMeta w info).windowRows = s.windowRows := by
  unfold orInsertMeta
  split <;> rfl

theorem samePanes_orInsertMeta (s : SupervisorImpl) (w : WindowId) (info : WindowMeta) :
    s.SamePanes (s.orInsertMeta w info) := by
  unfold orInsertMeta
  split
  · exact .refl s
  · exact ⟨rfl,rfl,rfl,rfl,rfl⟩

theorem samePanes_setLayout (s : SupervisorImpl) (w : WindowId) (tree : LayoutNode) :
    s.SamePanes (s.setLayout w tree) := by
  unfold setLayout
  split <;> exact ⟨rfl,rfl,rfl,rfl,rfl⟩

theorem samePanes_storeLayout (s : SupervisorImpl) (w : WindowId) (tree : LayoutNode) :
    s.SamePanes ((s.setLayout w tree).upsertWindowLayout w tree) :=
  (samePanes_setLayout s w tree).trans ⟨rfl,rfl,rfl,rfl,rfl⟩

end effects

end SupervisorImpl

end Pyre.Supervisor
