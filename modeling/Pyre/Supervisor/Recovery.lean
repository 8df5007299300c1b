import Mathlib.Data.Set.Function
import Pyre.Supervisor.Orderly

/-!
A restart of the supervisor while its workers live on or are started again with the slots
they had. Identifiers of panes are drawn anew as the slots are reported or listed, while the
store has the layouts, the windows and the names under the old ones.
-/

set_option autoImplicit false

namespace Pyre

namespace LayoutNode

mutual

/-- The tree with other panes for leaves. -/
def mapPanes (f : PaneId → PaneId) : LayoutNode → LayoutNode
  | .leaf pane => .leaf (f pane)
  | .split orient children => .split orient (mapChildren f children)

def mapChildren (f : PaneId → PaneId) :
    List (LayoutNode × UInt16) → List (LayoutNode × UInt16)
  | [] => []
  | (child,weight) :: rest => (child.mapPanes f,weight) :: mapChildren f rest

end

mutual

theorem leaves_mapPanes (f : PaneId → PaneId) : ∀ tree : LayoutNode,
    (tree.mapPanes f).allLeaves = tree.allLeaves.map f
  | .leaf _ => rfl
  | .split _ children => leaves_mapChildren f children

theorem leaves_mapChildren (f : PaneId → PaneId) : ∀ children : List (LayoutNode × UInt16),
    leavesOf (mapChildren f children) = (leavesOf children).map f
  | [] => rfl
  | (child,weight) :: rest => by
    rw [mapChildren,leavesOf,leavesOf,List.map_append,leaves_mapPanes f child,
      leaves_mapChildren f rest]

end

theorem Tiled.ne_nil {tree : LayoutNode} (h : tree.Tiled) : tree.allLeaves ≠ [] := by
  induction h with
  | leaf pane => simp [allLeaves]
  | split orient _ _ _ iha _ => simp [allLeaves,leavesOf,iha]

end LayoutNode

namespace Supervisor
open Base

/-- What workers and clients do once the supervisor is up again, with the identifiers that
new panes and a new window would get. -/
inductive RecoveryCall where
  | registerWorker (session : SessionKey) (slots : List UInt32)
  | callback (session : SessionKey) (slot : UInt32) (fresh : PaneId)
  | listPanes (session : SessionKey) (listed : List (UInt32 × PaneId)) (fresh : WindowId)
  | listWindows (session : SessionKey)
  | getSessionLayout (session : SessionKey) (first : UInt32) (fresh : PaneId)
  | getWindowLayout (w : WindowId) (first : UInt32) (fresh : PaneId)
  deriving DecidableEq, Repr

def RecoveryCall.drawn : RecoveryCall → List PaneId
  | .callback _ _ fresh | .getSessionLayout _ _ fresh | .getWindowLayout _ _ fresh => [fresh]
  | .listPanes _ listed _ => listed.map Prod.snd
  | .registerWorker _ _ | .listWindows _ => []

namespace NamedSupervisor

open SupervisorImpl

/-- Only the store outlives the process. -/
def restart (d : NamedSupervisor) : NamedSupervisor := ⟨d.impl.restart,d.names⟩

/-- A worker comes back with the slots that it had, in any order, and reports of these. -/
def resume (d : NamedSupervisor) (s : SupervisorImpl) : RecoveryCall → Option SupervisorImpl
  | .registerWorker session slots =>
    (d.impl.workers.lookup session).bind fun opened =>
      if slots.Perm opened then s.step (.registerWorker session slots) else none
  | .callback session slot fresh =>
    if slot ∈ d.impl.slots session then s.step (.callback session slot fresh) else none
  | .listPanes session listed fresh => s.step (.listPanes session listed fresh)
  | .listWindows session => some (s.loadWindows session)
  | .getSessionLayout session first fresh => s.serve session (.getSessionLayout first fresh)
  | .getWindowLayout w first fresh => s.step (.getWindowLayout w first fresh)

def recover (d e : NamedSupervisor) (a : RecoveryCall) : Option NamedSupervisor :=
  if ∀ p ∈ a.drawn, e.Unseen p then (d.resume e.impl a).map fun s => ⟨s,e.names⟩ else none

/-- The pane is at the slot of the session. -/
def At (d : NamedSupervisor) (session : SessionKey) (slot : UInt32) (p : PaneId) : Prop :=
  d.impl.index.lookup p = some (session,slot)

/-- Each pane of the session has become one at the same slot, in the same window and with the
same name, and the layouts are the same but for that. -/
structure Carries (d e : NamedSupervisor) (session : SessionKey) (f : PaneId → PaneId) :
    Prop where
  bij : Set.BijOn f {p | ∃ slot, d.At session slot p} {p | ∃ slot, e.At session slot p}
  slot : ∀ p slot, d.At session slot p → e.At session slot (f p)
  layout : ∀ v ∈ d.impl.windowsOf session, ∀ first ∈ d.impl.slots session, ∀ fresh tree,
    (d.impl.getWindowLayout v first fresh).2 = some tree →
      (∀ p ∈ tree.allLeaves, ∃ slot, d.At session slot p) ∧
        ∀ first ∈ e.impl.slots session, ∀ fresh,
          (e.impl.getWindowLayout v first fresh).2 = some (tree.mapPanes f)
  window : ∀ p slot, d.At session slot p →
    e.impl.paneWindowMap.lookup (f p) = d.impl.paneWindowMap.lookup p
  name : ∀ p slot, d.At session slot p → e.paneName (f p) = d.paneName p

/-- Whatever comes before, the session is as it was once its panes are listed. -/
def Survives (d : NamedSupervisor) (session : SessionKey) : Prop :=
  ∀ calls listed fresh e,
    exec (recover d) d.restart (calls ++ [.listPanes session listed fresh]) = some e →
      ∃ f, d.Carries e session f

/-- One pane in one window, of which the store has no layout, with the pane for its leaf if
it has a tree; and the pane has no name. -/
structure Bare (d : NamedSupervisor) (session : SessionKey) : Prop where
  pane : ∀ p q slot slot', d.At session slot p → d.At session slot' q → p = q
  window : ∀ v ∈ d.impl.windowsOf session, ∀ w ∈ d.impl.windowsOf session, v = w
  unsaved : ∀ w ∈ d.impl.windowsOf session, d.impl.windowLayoutJson w = none
  leaf : ∀ w ∈ d.impl.windowsOf session, ∀ tree, d.impl.treeOf w = some tree →
    ∀ p ∈ tree.allLeaves, ∃ slot, d.At session slot p
  unnamed : ∀ p slot, d.At session slot p → d.paneName p = none

/-! One slot, and one window that is in the store without a layout. -/

/-- What is known of the session while it comes back. -/
structure Recovering (d : NamedSupervisor) (session : SessionKey) (slot : UInt32) (w : WindowId)
    (s : SupervisorImpl) : Prop where
  worker : ∀ opened, s.workers.lookup session = some opened → opened = [slot]
  row : ∃ r, s.windowRows.filter (fun r => r.session = session) = [r] ∧ r.id = w
  own : ∀ r ∈ s.windowRows, r.id = w → r.session = session
  unsaved : s.windowLayoutJson w = none
  cached : s.windowsOf session = [] ∨ s.windowsOf session = [w] ∧ s.sessionOf w ≠ none
  info : ∀ info, s.windowStore.lookup w = some info → info.session = session ∧ info.layout = none
  index : ∀ q k, s.index.lookup q = some k → k.1 = session → k.2 = slot ∧
    d.paneName q = none ∧ ∀ v, s.paneWindowMap.lookup q = some v →
      v = w ∧ s.windowsOf session = [w]
  unique : ∀ q q' k k', s.index.lookup q = some k → s.index.lookup q' = some k' →
    k.1 = session → k'.1 = session → q = q'
  alive : s.index.deadSlots = ∅

variable {d e : NamedSupervisor} {s t : SupervisorImpl} {session session' : SessionKey}
  {slot : UInt32} {v w : WindowId} {p q : PaneId}

theorem Recovering.treeOf (h : d.Recovering session slot w s) : s.treeOf w = none := by
  rw [SupervisorImpl.treeOf]
  cases hw : s.windowStore.lookup w with
  | none => rfl
  | some info => simp [(h.info info hw).2,h.unsaved]

theorem Recovering.mem_slots (h : d.Recovering session slot w s) {x : UInt32}
    (hx : x ∈ s.slots session) : x = slot := by
  rw [slots] at hx
  cases hl : s.workers.lookup session with
  | none => simp [hl] at hx
  | some opened => simpa [hl,h.worker opened hl] using hx

/-- Of the session only its own slot is registered. -/
theorem Recovering.getOrAlloc (h : d.Recovering session slot w s) {x : UInt32}
    (hx : session' = session → x = slot) (hp : s.paneWindowMap.lookup p = none)
    (hname : d.paneName p = none) :
    d.Recovering session slot w (s.getOrAllocPaneBySlot session' x p).1 := by
  by_cases hr : s.index.Registers session' x
  · have hstate : (s.getOrAllocPaneBySlot session' x p).1 =
        { s with index := s.index.register p session' x } := by
      simp only [getOrAllocPaneBySlot,PaneIndex.getOrAlloc_registers hr]
    rw [hstate]
    have hlookup : ∀ q k, (s.index.register p session' x).lookup q = some k ↔
        q = p ∧ k = (session',x) ∨ q ≠ p ∧ s.index.lookup q = some k :=
      fun q k => PaneIndex.lookup_register
    -- the session's slot has no pane yet
    have hnone : session' = session → ∀ q k, s.index.lookup q = some k → k.1 ≠ session := by
      rintro rfl q ⟨session₁,slot₁⟩ hq rfl
      obtain rfl := hx rfl
      have hslot : slot₁ = x := (h.index q _ hq rfl).1
      exact (registers_iff.mp hr).1 q (hslot ▸ hq)
    exact { h with
      index := fun q k hq hk => by
        rcases (hlookup q k).mp hq with ⟨rfl,rfl⟩ | ⟨-,hold⟩
        · refine ⟨hx hk,hname,fun v hv => ?_⟩
          exact absurd (hp.symm.trans hv) (by simp)
        · exact h.index q k hold hk
      unique := fun q q' k k' hq hq' hk hk' => by
        rcases (hlookup q k).mp hq with ⟨rfl,rfl⟩ | ⟨-,hold⟩
        · rcases (hlookup q' k').mp hq' with ⟨rfl,-⟩ | ⟨-,hold'⟩
          · rfl
          · exact absurd hk' (hnone hk q' k' hold')
        · rcases (hlookup q' k').mp hq' with ⟨rfl,rfl⟩ | ⟨-,hold'⟩
          · exact absurd hk (hnone hk' q k hold)
          · exact h.unique q q' k k' hold hold' hk hk' }
  · have hstate : (s.getOrAllocPaneBySlot session' x p).1 = s := by
      simp only [getOrAllocPaneBySlot,PaneIndex.getOrAlloc_keeps hr]
    rwa [hstate]

/-- A pane is put into a window, one of the session into the session's. -/
theorem Recovering.assign (h : d.Recovering session slot w s) {k : SlotKey}
    (hp : s.index.lookup p = some k)
    (hv : k.1 = session → v = w ∧ s.windowsOf session = [w]) :
    d.Recovering session slot w (s.assign p v) :=
  { h with
    index := fun q k' hq hk' => by
      obtain ⟨hslot,hname,hmap⟩ := h.index q k' hq hk'
      refine ⟨hslot,hname,fun u hu => ?_⟩
      rcases Table.lookup_insert_eq_some.mp hu with ⟨rfl,rfl⟩ | ⟨-,hold⟩
      · obtain rfl := Option.some.inj (hp.symm.trans hq)
        exact hv hk'
      · exact hmap u hold }

/-- In the store the session has one window. -/
theorem Recovering.listWindows (h : d.Recovering session slot w s) :
    ∃ r, s.listWindows session = [r] ∧ r.id = w ∧ r ∈ s.windowRows ∧ r.session = session := by
  obtain ⟨r,hr,hid⟩ := h.row
  have hlist : s.listWindows session = [r] := by
    rw [SupervisorImpl.listWindows,hr]
    rfl
  have hmem : r ∈ s.listWindows session := hlist ▸ List.mem_singleton_self r
  exact ⟨r,hlist,hid,mem_listWindows_iff.mp hmem⟩

theorem windowsOf_orInsertMeta (s : SupervisorImpl) (v : WindowId) (info : WindowMeta) :
    (s.orInsertMeta v info).windowsOf session = s.windowsOf session := by
  rw [windowsOf,windowsOf,(samePanes_orInsertMeta s v info).sessionWindows]

theorem sessionOf_orInsertMeta (s : SupervisorImpl) (v : WindowId) (info : WindowMeta)
    {u : WindowId} (hu : s.sessionOf u ≠ none ∨ u = v) :
    (s.orInsertMeta v info).sessionOf u ≠ none := by
  by_cases hw : s.sessionOf v = none
  · rw [orInsertMeta_unknown hw]
    by_cases huv : u = v
    · rw [huv,sessionOf_setMeta_self]
      simp
    · rw [sessionOf_setMeta_ne huv]
      exact hu.resolve_right huv
  · rw [orInsertMeta_known hw]
    rcases hu with hu | rfl
    · exact hu
    · exact hw

/-- Tables of windows change; of the session's one there is still no tree. -/
theorem Recovering.of_samePanes (h : d.Recovering session slot w s) (hsame : s.SamePanes t)
    (hrows : t.windowRows = s.windowRows) (hknown : s.sessionOf w ≠ none → t.sessionOf w ≠ none)
    (hinfo : ∀ info, t.windowStore.lookup w = some info →
      info.session = session ∧ info.layout = none) : d.Recovering session slot w t := by
  have hlist : t.windowsOf session = s.windowsOf session := by
    rw [windowsOf,windowsOf,hsame.sessionWindows]
  exact
    { worker := fun opened ho => h.worker opened (hsame.workers ▸ ho)
      row := hrows ▸ h.row
      own := hrows ▸ h.own
      unsaved := by
        rw [windowLayoutJson,hrows]
        exact h.unsaved
      cached := by
        rw [hlist]
        exact h.cached.imp_right fun hc => ⟨hc.1,hknown hc.2⟩
      info := hinfo
      index := by
        rw [hsame.index,hsame.paneWindowMap,hlist]
        exact h.index
      unique := hsame.index ▸ h.unique
      alive := hsame.index ▸ h.alive }

/-- A row of the store is known in memory, without a tree. -/
theorem Recovering.orInsertMeta (h : d.Recovering session slot w s) (info : WindowMeta)
    (hlayout : info.layout = none) (hv : v = w → info.session = session) :
    d.Recovering session slot w (s.orInsertMeta v info) := by
  refine h.of_samePanes (samePanes_orInsertMeta s v info) (windowRows_orInsertMeta s v info)
    (fun hw => sessionOf_orInsertMeta s v info (Or.inl hw)) fun info' hu => ?_
  unfold SupervisorImpl.orInsertMeta at hu
  split at hu
  · exact h.info info' hu
  · rcases Table.lookup_insert_eq_some.mp hu with ⟨rfl,rfl⟩ | ⟨-,hold⟩
    · exact ⟨hv rfl,hlayout⟩
    · exact h.info info' hold

/-- A known window is listed; of the session it is the first. -/
theorem Recovering.pushWindow (h : d.Recovering session slot w s)
    (hv : session' = session → v = w ∧ s.windowsOf session = [] ∧ s.sessionOf w ≠ none) :
    d.Recovering session slot w (s.pushWindow session' v) := by
  have hlist : (s.pushWindow session' v).windowsOf session =
      if session' = session then [w] else s.windowsOf session := by
    by_cases heq : session' = session
    · subst heq
      obtain ⟨rfl,hcold,-⟩ := hv rfl
      rw [if_pos rfl,windowsOf_pushWindow,hcold]
      rfl
    · rw [if_neg heq]
      simp only [SupervisorImpl.pushWindow,windowsOf,AList.lookup_insert_ne (Ne.symm heq)]
  exact { h with
    cached := by
      rw [hlist]
      split
      · rename_i heq
        exact Or.inr ⟨rfl,(hv heq).2.2⟩
      · exact h.cached
    index := fun q k hq hk => by
      obtain ⟨hslot,hname,hmap⟩ := h.index q k hq hk
      refine ⟨hslot,hname,fun u hu => ?_⟩
      obtain ⟨rfl,hwarm⟩ := hmap u hu
      refine ⟨rfl,?_⟩
      rw [hlist]
      split
      · rfl
      · exact hwarm }

/-- A row is the window's if and only if it is the session's. -/
theorem Recovering.row_iff (h : d.Recovering session slot w s) {row : WindowRow}
    (hrow : row ∈ s.windowRows) (hs : row.session = session') :
    row.id = w ↔ session' = session := by
  constructor
  · intro hid
    exact hs.symm.trans (h.own row hrow hid)
  · rintro rfl
    obtain ⟨r,hr,hid,-⟩ := h.listWindows
    have hmem : row ∈ s.listWindows session' := mem_listWindows_iff.mpr ⟨hrow,hs⟩
    rw [hr,List.mem_singleton] at hmem
    exact hmem ▸ hid

theorem Recovering.enter (h : d.Recovering session slot w s) {row : WindowRow}
    (hrow : row ∈ s.windowRows) (hs : row.session = session')
    (hcold : session' = session → s.windowsOf session = []) :
    d.Recovering session slot w
      (s.orInsertMeta row.id ⟨session',row.name,row.position,none⟩) ∧
    d.Recovering session slot w
      ((s.orInsertMeta row.id ⟨session',row.name,row.position,none⟩).pushWindow session'
        row.id) := by
  have hiff := h.row_iff hrow hs
  have hknown := h.orInsertMeta (v := row.id) ⟨session',row.name,row.position,none⟩ rfl hiff.mp
  refine ⟨hknown,hknown.pushWindow fun heq => ⟨hiff.mpr heq,?_,?_⟩⟩
  · rw [windowsOf_orInsertMeta]
    exact hcold heq
  · exact sessionOf_orInsertMeta s row.id _ (Or.inr (hiff.mpr heq).symm)

theorem Recovering.warm (h : d.Recovering session slot w s) {row : WindowRow}
    (hrow : row ∈ s.windowRows) (hs : row.session = session')
    (hcold : session' = session → s.windowsOf session = []) :
    d.Recovering session slot w (s.warm session' row) := by
  obtain ⟨hknown,hpushed⟩ := h.enter hrow hs hcold
  simp only [SupervisorImpl.warm]
  split
  · exact hknown
  · exact hpushed

theorem windowRows_warm (s : SupervisorImpl) (session : SessionKey) (row : WindowRow) :
    (s.warm session row).windowRows = s.windowRows := by
  simp only [SupervisorImpl.warm]
  split <;> exact windowRows_orInsertMeta s row.id _

theorem Recovering.loadWindows (h : d.Recovering session slot w s) (session' : SessionKey) :
    d.Recovering session slot w (s.loadWindows session') := by
  unfold SupervisorImpl.loadWindows
  split
  · rename_i hcold
    by_cases heq : session' = session
    · subst heq
      obtain ⟨r,hr,-,hrow,hs⟩ := h.listWindows
      rw [hr]
      exact h.warm hrow hs fun _ => hcold
    · have hrows : ∀ r ∈ s.listWindows session', r ∈ s.windowRows ∧ r.session = session' :=
        fun r hr => mem_listWindows_iff.mp hr
      generalize s.listWindows session' = rows at hrows ⊢
      clear hcold
      induction rows generalizing s with
      | nil => exact h
      | cons r rows ih =>
        obtain ⟨hr,hrest⟩ := List.forall_mem_cons.mp hrows
        refine ih (h.warm hr.1 hr.2 fun h' => absurd h' heq) fun r' hr' => ?_
        rw [windowRows_warm]
        exact hrest r' hr'
  · exact h

/-- A tree is written for another window. -/
theorem Recovering.setLayout (h : d.Recovering session slot w s) (hv : v ≠ w)
    (tree : LayoutNode) : d.Recovering session slot w (s.setLayout v tree) := by
  refine h.of_samePanes (samePanes_setLayout s v tree) (windowRows_setLayout s v tree)
    (fun hw => by rwa [sessionOf_setLayout]) fun info hu => ?_
  rcases lookup_setLayout hu with ⟨heq,-⟩ | hold
  · exact absurd heq.symm hv
  · exact h.info info hold

theorem Recovering.upsertWindowLayout (h : d.Recovering session slot w s) (hv : v ≠ w)
    (tree : LayoutNode) : d.Recovering session slot w (s.upsertWindowLayout v tree) := by
  have hsession : ∀ r : WindowRow,
      (if r.id = v then { r with layout := some tree } else r).session = r.session := by
    intro r
    split <;> rfl
  have hid : ∀ r : WindowRow,
      (if r.id = v then { r with layout := some tree } else r).id = r.id := by
    intro r
    split <;> rfl
  exact { h with
    row := by
      obtain ⟨r,hr,hrw⟩ := h.row
      refine ⟨if r.id = v then { r with layout := some tree } else r,?_,(hid r).trans hrw⟩
      have hcomp : ((fun r : WindowRow => decide (r.session = session)) ∘ fun r : WindowRow =>
          if r.id = v then { r with layout := some tree } else r) =
            fun r => decide (r.session = session) := by
        funext r
        rw [Function.comp_apply,hsession]
      rw [SupervisorImpl.upsertWindowLayout,List.filter_map,hcomp,hr]
      rfl
    own := fun r hr hrw => by
      obtain ⟨r₀,hr₀,rfl⟩ := List.mem_map.mp hr
      rw [hsession]
      exact h.own r₀ hr₀ ((hid r₀).symm.trans hrw)
    unsaved := by
      rw [windowLayoutJson_upsertWindowLayout (Ne.symm hv)]
      exact h.unsaved }

/-- A new window goes to another session. -/
theorem Recovering.create (h : d.Recovering session slot w s) {fresh : WindowId}
    (hsession : session' ≠ session) (hfresh : s.UnusedWindow fresh) (name : String)
    (position : UInt32) (info : WindowMeta) :
    d.Recovering session slot w (((s.upsertWindow fresh session' name position).setMeta fresh
      info).pushWindow session' fresh) := by
  have hne : fresh ≠ w := by
    rintro rfl
    obtain ⟨r,-,hid,hr,-⟩ := h.listWindows
    exact hfresh.2 r hr hid
  have hrow : d.Recovering session slot w (s.upsertWindow fresh session' name position) :=
    { h with
      row := by
        obtain ⟨r,hr,hid⟩ := h.row
        refine ⟨r,?_,hid⟩
        rw [upsertWindow,List.filter_append,hr]
        simp [hsession]
      own := fun r hr hid => by
        rcases List.mem_append.mp hr with hr | hr
        · exact h.own r hr hid
        · obtain rfl := List.mem_singleton.mp hr
          exact absurd hid hne
      unsaved := by
        rw [windowLayoutJson_upsertWindow]
        exact h.unsaved }
  have hmeta : d.Recovering session slot w
      ((s.upsertWindow fresh session' name position).setMeta fresh info) := by
    refine hrow.of_samePanes ⟨rfl,rfl,rfl,rfl,rfl⟩ rfl (fun hw => ?_) fun info' hu => ?_
    · rwa [sessionOf_setMeta_ne hne.symm]
    · rw [lookup_setMeta_ne hne.symm] at hu
      exact hrow.info info' hu
  exact hmeta.pushWindow fun heq => absurd heq hsession

theorem Recovering.default (h : d.Recovering session slot w s) {fresh : WindowId}
    (hfresh : s.UnusedWindow fresh) :
    d.Recovering session slot w (s.getOrCreateDefaultWindow session' fresh).1 ∧
      (session' = session → (s.getOrCreateDefaultWindow session' fresh).2 = w ∧
        (s.getOrCreateDefaultWindow session' fresh).1.windowsOf session = [w]) := by
  unfold SupervisorImpl.getOrCreateDefaultWindow
  cases hhead : (s.windowsOf session').head? with
  | some v =>
    refine ⟨h,?_⟩
    rintro rfl
    rcases h.cached with hcold | ⟨hwarm,-⟩
    · rw [hcold] at hhead
      cases hhead
    · rw [hwarm] at hhead
      exact ⟨(Option.some.inj hhead).symm,hwarm⟩
  | none =>
    have hcold : s.windowsOf session' = [] := by simpa using hhead
    cases hrow : (s.listWindows session').head? with
    | some row =>
      obtain ⟨hmem,hs⟩ := mem_listWindows (List.mem_of_head? hrow)
      have hpushed := (h.enter hmem hs fun heq => heq ▸ hcold).2
      refine ⟨hpushed,?_⟩
      rintro rfl
      have hid := (h.row_iff hmem hs).mpr rfl
      refine ⟨hid,?_⟩
      simp only
      rw [windowsOf_pushWindow,windowsOf_orInsertMeta,hcold,hid]
      rfl
    | none =>
      have hne : session' ≠ session := by
        rintro rfl
        obtain ⟨r,hr,-⟩ := h.listWindows
        rw [hr] at hrow
        cases hrow
      exact ⟨h.create hne hfresh "1" 0 _,fun heq => absurd heq hne⟩

/-- A pane that is neither registered nor in a window. -/
def Spare (s : SupervisorImpl) (p : PaneId) : Prop :=
  s.index.lookup p = none ∧ s.paneWindowMap.lookup p = none

theorem spare_getOrAlloc {x : UInt32} (hne : q ≠ p) (hq : Spare s q) :
    Spare (s.getOrAllocPaneBySlot session x p).1 q := by
  refine ⟨?_,hq.2⟩
  rw [Option.eq_none_iff_forall_ne_some]
  intro k hk
  rcases PaneIndex.lookup_of_getOrAlloc hk with heq | hold
  · exact hne heq.symm
  · exact absurd (hq.1.symm.trans hold) (by simp)

/-- No slot is dead, so that one that is listed has a pane. -/
theorem Recovering.found (h : d.Recovering session slot w s) (session' : SessionKey) (x : UInt32)
    (p : PaneId) : ∃ q, (s.getOrAllocPaneBySlot session' x p).2 = some q ∧
      (s.getOrAllocPaneBySlot session' x p).1.index.lookup q = some (session',x) := by
  cases hfound : (s.index.getOrAllocPaneBySlot session' x p).2 with
  | some q => exact ⟨q,hfound,PaneIndex.lookup_getOrAlloc_some hfound⟩
  | none =>
    unfold PaneIndex.getOrAllocPaneBySlot at hfound
    split at hfound
    · cases hfound
    · split at hfound
      · rename_i hdead
        simp [PaneIndex.isDead,h.alive] at hdead
      · cases hfound

/-- One round of `list_panes`: the pane of the slot has a window then. -/
theorem Recovering.listPane (h : d.Recovering session slot w s) {x : UInt32} {fresh : WindowId}
    (hx : session' = session → x = slot) (hp : Spare s p) (hname : d.paneName p = none)
    (hfresh : s.windowsOf session' ≠ [] ∨ s.UnusedWindow fresh) :
    d.Recovering session slot w (s.listPane session' x p fresh) ∧
      ((s.listPane session' x p fresh).windowsOf session' ≠ [] ∨
        (s.listPane session' x p fresh).UnusedWindow fresh) ∧
      (∀ q, q ≠ p → Spare s q → Spare (s.listPane session' x p fresh) q) ∧
      (s.listPane session' x p fresh).workers = s.workers ∧
      ∃ q, (s.listPane session' x p fresh).index.lookup q = some (session',x) ∧
        (s.listPane session' x p fresh).paneWindowMap.lookup q ≠ none := by
  have halloc := h.getOrAlloc hx hp.2 hname
  obtain ⟨r,hfound,hr⟩ := h.found session' x p
  set u := (s.getOrAllocPaneBySlot session' x p).1 with hu
  have hlist : u.windowsOf session' = s.windowsOf session' := rfl
  have hstate : s.getOrAllocPaneBySlot session' x p = (u,some r) := by rw [← hfound]
  simp only [SupervisorImpl.listPane,hstate]
  cases hmap : u.paneWindowMap.lookup r with
  | some v => exact ⟨halloc,hfresh,fun q hne hq => spare_getOrAlloc hne hq,rfl,r,hr,by simp [hmap]⟩
  | none =>
    -- the default window may be new only where the session has none
    have hdefault : d.Recovering session slot w (u.getOrCreateDefaultWindow session' fresh).1 ∧
        (session' = session → (u.getOrCreateDefaultWindow session' fresh).2 = w ∧
          (u.getOrCreateDefaultWindow session' fresh).1.windowsOf session = [w]) := by
      rcases hfresh with hwarm | hunused
      · have hwarm' : u.windowsOf session' ≠ [] := hlist ▸ hwarm
        obtain ⟨v,hhead,hsame⟩ := SupervisorImpl.default_of_warm hwarm' fresh
        rw [hsame]
        refine ⟨halloc,?_⟩
        rintro rfl
        rcases halloc.cached with hcold | ⟨hwarm',-⟩
        · exact absurd (hlist ▸ hcold) hwarm
        · rw [hwarm'] at hhead
          exact ⟨(Option.some.inj hhead).symm,hwarm'⟩
      · exact halloc.default hunused
    obtain ⟨hnext,hown⟩ := hdefault
    obtain ⟨hindex,hworkers⟩ := panes_default u session' fresh
    have hmapped : (u.getOrCreateDefaultWindow session' fresh).1.paneWindowMap =
        u.paneWindowMap := by
      unfold SupervisorImpl.getOrCreateDefaultWindow
      split
      · rfl
      · split
        · exact (samePanes_orInsertMeta u _ _).paneWindowMap
        · rfl
    set t := (u.getOrCreateDefaultWindow session' fresh).1 with ht
    have hr' : t.index.lookup r = some (session',x) := by rwa [hindex]
    refine ⟨hnext.assign hr' hown,Or.inl ?_,fun q hne hq => ?_,hworkers,r,hr',?_⟩
    · have hhead := head_default u session' fresh
      intro hnil
      have hnil' : t.windowsOf session' = [] := hnil
      rw [← ht,hnil'] at hhead
      cases hhead
    · have hspare : Spare u q := spare_getOrAlloc hne hq
      refine ⟨?_,?_⟩
      · have hq' : t.index.lookup q = none := by
          rw [hindex]
          exact hspare.1
        exact hq'
      · have hqr : q ≠ r := by
          rintro rfl
          exact absurd (hspare.1.symm.trans hr) (by simp)
        have hother : (t.assign r
            (u.getOrCreateDefaultWindow session' fresh).2).paneWindowMap.lookup q =
              t.paneWindowMap.lookup q := AList.lookup_insert_ne hqr
        rw [hother,hmapped]
        exact hspare.2
    · have hself : (t.assign r (u.getOrCreateDefaultWindow session' fresh).2).paneWindowMap.lookup
          r = some _ := AList.lookup_insert _
      simp [hself]

theorem Recovering.listPanes {listed : List (UInt32 × PaneId)} {fresh : WindowId}
    (h : d.Recovering session slot w s) (hx : ∀ e ∈ listed, session' = session → e.1 = slot)
    (hnodup : (listed.map Prod.snd).Nodup)
    (hp : ∀ e ∈ listed, Spare s e.2 ∧ d.paneName e.2 = none)
    (hfresh : s.windowsOf session' ≠ [] ∨ s.UnusedWindow fresh) :
    d.Recovering session slot w (s.listPanes session' listed fresh) := by
  induction listed generalizing s with
  | nil => exact h
  | cons e listed ih =>
    rw [List.map_cons,List.nodup_cons] at hnodup
    obtain ⟨⟨hspare,hname⟩,hrest⟩ := List.forall_mem_cons.mp hp
    obtain ⟨hnext,hfresh',hkept,-,-⟩ := h.listPane (hx e List.mem_cons_self) hspare hname hfresh
    rw [listPanes_cons]
    refine ih hnext (fun e' he' => hx e' (List.mem_cons_of_mem _ he')) hnodup.2 (fun e' he' => ?_)
      hfresh'
    have hne : e'.2 ≠ e.2 := by
      intro heq
      exact hnodup.1 (heq ▸ List.mem_map_of_mem he')
    exact ⟨hkept _ hne (hrest e' he').1,(hrest e' he').2⟩

theorem Recovering.getWindowLayout (h : d.Recovering session slot w s) (v : WindowId)
    (first : UInt32) (hp : Spare s p) (hname : d.paneName p = none) :
    d.Recovering session slot w (s.getWindowLayout v first p).1 := by
  cases hv : s.windowStore.lookup v with
  | none => simpa only [SupervisorImpl.getWindowLayout,hv] using h
  | some info =>
    cases ht : s.treeOf v with
    | none =>
      by_cases hfirst : first ∈ s.slots info.session
      · have hslot : info.session = session → first = slot := fun heq =>
          h.mem_slots (heq ▸ hfirst)
        have halloc := h.getOrAlloc hslot hp.2 hname
        simpa only [SupervisorImpl.getWindowLayout,hv,ht,if_pos hfirst] using halloc
      · simpa only [SupervisorImpl.getWindowLayout,hv,ht,if_neg hfirst] using h
    | some tree =>
      have hne : v ≠ w := by
        rintro rfl
        rw [h.treeOf] at ht
        cases ht
      have hset := h.setLayout hne tree
      obtain ⟨tree',-,⟨-,-,hstate⟩ | ⟨-,-,hstate⟩⟩ := getWindowLayout_of_tree hv ht first p
      · exact hstate ▸ hset
      · rw [hstate]
        exact (hset.setLayout hne tree').upsertWindowLayout hne tree'

theorem Recovering.getSessionLayout (h : d.Recovering session slot w s) (session' : SessionKey)
    (first : UInt32) (hp : Spare s p) (hname : d.paneName p = none) :
    d.Recovering session slot w (s.getSessionLayout session' first p).1 := by
  unfold SupervisorImpl.getSessionLayout
  cases hhead : (s.windowsOf session').head? with
  | some v => exact h.getWindowLayout v first hp hname
  | none =>
    have hcold : s.windowsOf session' = [] := by simpa using hhead
    cases hrow : (s.listWindows session').head? with
    | some row =>
      obtain ⟨hmem,hs⟩ := mem_listWindows (List.mem_of_head? hrow)
      have hwarm := h.warm hmem hs fun heq => heq ▸ hcold
      refine hwarm.getWindowLayout row.id first ?_ hname
      have hsame := samePanes_orInsertMeta s row.id ⟨session',row.name,row.position,none⟩
      unfold Spare
      simp only [SupervisorImpl.warm]
      split
      · rw [hsame.index,hsame.paneWindowMap]
        exact hp
      · simp only [SupervisorImpl.pushWindow]
        rw [hsame.index,hsame.paneWindowMap]
        exact hp
    | none =>
      by_cases hfirst : first ∈ s.slots session'
      · have hslot : session' = session → first = slot := fun heq =>
          h.mem_slots (heq ▸ hfirst)
        have halloc := h.getOrAlloc hslot hp.2 hname
        simpa only [if_pos hfirst] using halloc
      · simpa only [if_neg hfirst] using h

theorem Recovering.registerWorker (h : d.Recovering session slot w s) {slots : List UInt32}
    (hslots : session' = session → slots = [slot]) :
    d.Recovering session slot w (s.registerWorker session' slots) :=
  { h with
    worker := fun opened ho => by
      rcases Table.lookup_insert_eq_some.mp ho with ⟨heq,rfl⟩ | ⟨-,hold⟩
      · exact hslots heq.symm
      · exact h.worker opened hold }

theorem spare_of_unseen (h : e.Unseen p) : Spare e.impl p ∧ e.paneName p = none :=
  ⟨⟨h.1.1,h.1.2.1⟩,by rw [paneName,h.2.1]; rfl⟩

theorem recover_recovering (hslots : d.impl.slots session = [slot]) {a : RecoveryCall}
    {e' : NamedSupervisor} (h : d.Recovering session slot w e.impl) (hnames : e.names = d.names)
    (hstep : recover d e a = some e') :
    d.Recovering session slot w e'.impl ∧ e'.names = d.names := by
  simp only [recover,Option.ite_none_right_eq_some,Option.map_eq_some_iff] at hstep
  obtain ⟨hdrawn,t,hresume,rfl⟩ := hstep
  refine ⟨?_,hnames⟩
  have hunseen : ∀ p ∈ a.drawn, Spare e.impl p ∧ d.paneName p = none := by
    intro p hp
    obtain ⟨hspare,hname⟩ := spare_of_unseen (hdrawn p hp)
    refine ⟨hspare,?_⟩
    rwa [paneName,hnames] at hname
  cases a with
  | registerWorker session' slots =>
    obtain ⟨opened,hopened,hresume⟩ := Option.bind_eq_some_iff.mp hresume
    simp only [SupervisorImpl.step,Option.ite_none_right_eq_some,Option.some.injEq] at hresume
    obtain ⟨hperm,-,rfl⟩ := hresume
    refine h.registerWorker ?_
    rintro rfl
    have hone : opened = [slot] := by simpa [SupervisorImpl.slots,hopened] using hslots
    rw [hone] at hperm
    exact List.perm_singleton.mp hperm
  | callback session' x fresh =>
    simp only [resume,SupervisorImpl.step,Option.ite_none_right_eq_some,Option.some.injEq]
      at hresume
    obtain ⟨hx,-,rfl⟩ := hresume
    obtain ⟨hspare,hname⟩ := hunseen fresh List.mem_cons_self
    refine h.getOrAlloc ?_ hspare.2 hname
    rintro rfl
    rw [hslots] at hx
    exact List.mem_singleton.mp hx
  | listPanes session' listed fresh =>
    simp only [resume,SupervisorImpl.step,Option.ite_none_right_eq_some,Option.some.injEq]
      at hresume
    obtain ⟨⟨-,hperm,hnodup,-,hfresh⟩,rfl⟩ := hresume
    refine h.listPanes (fun e' he' heq => ?_) hnodup (fun e' he' => ?_) (Or.inr hfresh)
    · subst heq
      exact h.mem_slots (hperm.mem_iff.mp (List.mem_map_of_mem he'))
    · exact hunseen e'.2 (List.mem_map_of_mem he')
  | listWindows session' =>
    obtain rfl := Option.some.inj hresume
    exact h.loadWindows session'
  | getSessionLayout session' first fresh =>
    simp only [resume,SupervisorImpl.serve,Option.ite_none_right_eq_some,Option.some.injEq]
      at hresume
    obtain ⟨-,rfl⟩ := hresume
    obtain ⟨hspare,hname⟩ := hunseen fresh List.mem_cons_self
    exact h.getSessionLayout session' first hspare hname
  | getWindowLayout v first fresh =>
    simp only [resume,SupervisorImpl.step,Option.ite_none_right_eq_some,Option.some.injEq]
      at hresume
    obtain ⟨-,rfl⟩ := hresume
    obtain ⟨hspare,hname⟩ := hunseen fresh List.mem_cons_self
    exact h.getWindowLayout v first hspare hname

end NamedSupervisor

end Supervisor

end Pyre
