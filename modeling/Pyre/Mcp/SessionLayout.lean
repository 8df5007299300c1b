import Pyre.Session.Opening
import Pyre.Session.Splits

/-!
The `session_layout` tool with a layout given: it spawns a session and splits the pane it opened
last, once for each further entry. Other clients call the daemon in between.
-/

set_option autoImplicit false

namespace Pyre

/-- Each pane has halved the space of those after it. -/
def LayoutNode.chain (orient : Orient) : PaneId → List PaneId → LayoutNode
  | p, [] => .leaf p
  | p, q :: qs => .split orient [(.leaf p,50),(chain orient q qs,50)]

theorem LayoutNode.allLeaves_chain (orient : Orient) (p : PaneId) (ps : List PaneId) :
    (chain orient p ps).allLeaves = p :: ps := by
  induction ps generalizing p with
  | nil => rfl
  | cons q ps ih => simp [chain,allLeaves,leavesOf,ih]

theorem LayoutNode.splitFocused_chain {orient : Orient} {p fresh : PaneId} {ps : List PaneId}
    (h : (p :: ps).Nodup) :
    (chain orient p ps).splitFocused ((p :: ps).getLast (List.cons_ne_nil _ _)) fresh orient =
      chain orient p (ps ++ [fresh]) := by
  have hinner : (chain orient p ps).splitFocusedInner
      ((p :: ps).getLast (List.cons_ne_nil _ _)) fresh orient =
        some (chain orient p (ps ++ [fresh])) := by
    induction ps generalizing p with
    | nil => simp [chain,splitFocusedInner]
    | cons q ps ih =>
      obtain ⟨hp,hrest⟩ := List.nodup_cons.mp h
      have hne : p ≠ (q :: ps).getLast (List.cons_ne_nil _ _) :=
        fun heq => hp (heq ▸ List.getLast_mem _)
      rw [List.getLast_cons (List.cons_ne_nil _ _)]
      simp only [chain,splitFocusedInner,splitFirst,if_neg hne,ih hrest]
      rfl
  rw [splitFocused,hinner,Option.getD_some]

namespace Session.Registry
open Base

/-- What another client does that is not about this session. -/
def Spares (sid : SessionId) (s : Registry) : Action → Prop
  | .newSession _ _ => True
  | .newWindow sid' _ | .openPane sid' _ _ | .killSession sid' => sid' ≠ sid
  | .openPaneSplit pane _ _ | .closePane pane | .removePane pane =>
    ∀ found ∈ s.getPane pane, found.1 ≠ sid
  | .closeWindow w _ => ∀ se ∈ s.sessions.lookup sid, se.findWindow w = none

instance (sid : SessionId) (s : Registry) : DecidablePred (Spares sid s)
  | .newSession _ _ => isTrue trivial
  | .newWindow _ _ | .openPane _ _ _ | .killSession _ => inferInstanceAs (Decidable (_ ≠ _))
  | .openPaneSplit _ _ _ | .closePane _ | .removePane _ =>
    inferInstanceAs (Decidable (∀ _ ∈ _, _ ≠ _))
  | .closeWindow w _ =>
    inferInstanceAs (Decidable (∀ se ∈ s.sessions.lookup sid, se.findWindow w = none))

theorem lookup_update_ne (s : Registry) {sid sid' : SessionId} (h : sid' ≠ sid)
    (se : SessionState) : (s.update sid' se).sessions.lookup sid = s.sessions.lookup sid :=
  AList.lookup_insert_ne h.symm

theorem lookup_settle_ne (s : Registry) {sid sid' : SessionId} (h : sid' ≠ sid)
    (se : SessionState) : (s.settle sid' se).sessions.lookup sid = s.sessions.lookup sid := by
  unfold settle
  split
  · exact AList.lookup_erase_ne h.symm
  · exact lookup_update_ne s h se

theorem lookup_closePane_ne {s : Registry} {sid : SessionId} {pane : PaneId}
    (h : ∀ sid' w, s.Has sid' pane w → sid' ≠ sid) :
    (s.closePane pane).sessions.lookup sid = s.sessions.lookup sid := by
  unfold closePane
  split
  · rfl
  · rename_i sid' se w hget
    obtain ⟨hse,hpane⟩ := getPane_eq_some hget
    exact lookup_settle_ne s (h sid' w ⟨se,hse,hpane⟩) _

theorem lookup_closePanes_ne {sid : SessionId} (panes : List PaneId) {s : Registry}
    (h : ∀ p ∈ panes, ∀ sid' w, s.Has sid' p w → sid' ≠ sid) :
    (panes.foldl closePane s).sessions.lookup sid = s.sessions.lookup sid := by
  induction panes generalizing s with
  | nil => rfl
  | cons p panes ih =>
    rw [List.foldl_cons,ih,lookup_closePane_ne (h p List.mem_cons_self)]
    intro q hq sid' w hhas
    exact h q (List.mem_cons_of_mem _ hq) sid' w ((fewer_closePane s p).has _ _ _ hhas)

theorem lookup_closeWindow_ne {s : Registry} (hi : s.Inv) {sid : SessionId} {w : WindowId}
    (h : ∀ se ∈ s.sessions.lookup sid, se.findWindow w = none) (unkilled : List PaneId) :
    (s.closeWindow w unkilled).sessions.lookup sid = s.sessions.lookup sid := by
  unfold closeWindow
  split
  · rfl
  · rename_i sid' se hfind
    have hse : s.sessions.lookup sid' = some se :=
      Table.lookup_eq_some.mpr (List.mem_of_find?_eq_some hfind)
    have hne : sid' ≠ sid := by
      rintro rfl
      have hwin := List.find?_some hfind
      rw [h se hse] at hwin
      cases hwin
    have hpanes : ∀ p ∈ (se.panesIn w).filter fun pane => pane ∉ unkilled,
        ∀ sid'' w', s.Has sid'' p w' → sid'' ≠ sid := by
      intro p hp sid'' w' hhas
      have hpane := SessionState.mem_panesIn.mp (List.mem_of_mem_filter hp)
      rwa [hi.pane_home sid'' sid' p w' w hhas ⟨se,hse,hpane⟩]
    have hclosed := lookup_closePanes_ne _ hpanes
    simp only
    split
    · exact hclosed
    · split
      · exact (AList.lookup_erase_ne hne.symm).trans hclosed
      · exact (lookup_update_ne _ hne _).trans hclosed

/-- The session stays as it is while other clients see to other sessions. -/
theorem lookup_of_spares {s t : Registry} (hi : s.Inv) {sid : SessionId} {se : SessionState}
    {a : Action} (hspares : Spares sid s a) (hstep : s.step a = some t)
    (hse : s.sessions.lookup sid = some se) : t.sessions.lookup sid = some se := by
  rw [← hse]
  have hhas : ∀ pane, (∀ found ∈ s.getPane pane, found.1 ≠ sid) →
      ∀ sid' w, s.Has sid' pane w → sid' ≠ sid := by
    intro pane h sid' w hhas
    obtain ⟨found,hfound⟩ := Option.isSome_iff_exists.mp (isSome_getPane hhas)
    obtain ⟨hse',hpane⟩ := getPane_eq_some hfound
    rw [hi.pane_home sid' found.1 pane w found.2.2 hhas ⟨_,hse',hpane⟩]
    exact h found hfound
  cases a with
  | newSession sid' w =>
    simp only [step,Option.ite_none_right_eq_some,Option.some.injEq] at hstep
    obtain ⟨⟨hnone,-⟩,rfl⟩ := hstep
    refine lookup_update_ne s (fun heq => ?_) _
    rw [heq,hse] at hnone
    cases hnone
  | newWindow sid' w =>
    obtain ⟨se',-,-,rfl⟩ := of_newWindow hstep
    exact lookup_update_ne s hspares _
  | openPane sid' w pane =>
    obtain ⟨se',-,win,-,-,rfl⟩ := of_openPane hstep
    exact lookup_update_ne s hspares _
  | openPaneSplit parent orient pane =>
    obtain ⟨sid',se',w,hget,win,-,-,rfl⟩ := of_openPaneSplit hstep
    have hne : sid' ≠ sid := hspares _ hget
    rw [update_openPane]
    exact lookup_update_ne s hne _
  | closePane pane =>
    obtain rfl := Option.some.inj hstep
    exact lookup_closePane_ne (hhas pane hspares)
  | removePane pane =>
    obtain rfl := Option.some.inj hstep
    unfold removePane
    split
    · rfl
    · rename_i sid' se' w hget
      exact lookup_settle_ne s (hspares _ hget) _
  | closeWindow w unkilled =>
    obtain rfl := Option.some.inj hstep
    exact lookup_closeWindow_ne hi hspares unkilled
  | killSession sid' =>
    obtain rfl := Option.some.inj hstep
    exact AList.lookup_erase_ne (Ne.symm hspares)

end Session.Registry

namespace Mcp
open Base Session

/-- An entry of `layout.panes`; the name is empty where it has none. -/
structure PaneSpec where
  name : Text
  cwd : Option Text
  cmd : Option Text
  deriving DecidableEq, Repr

structure OpenPaneSplitReq where
  parentPane : PaneId
  orient : Orient
  name : Option Text
  cwd : Option Text
  cmd : Option Text
  deriving DecidableEq, Repr

/-- The tool between two of its calls. `opened` is the pane of the entry that it is at, whose
command has not been sent yet. -/
structure LayoutCall where
  daemon : Registry
  orient : Orient
  lastPane : PaneId
  opened : Option (PaneId × PaneSpec)
  todo : List PaneSpec
  resultPanes : List (PaneId × PaneSpec)
  requests : List OpenPaneSplitReq
  keys : List (PaneId × Text)
  failed : Bool

/-- `refuse` is a call of the tool that the daemon refuses. -/
inductive LayoutMove where
  | split (pane : PaneId)
  | send
  | refuse
  | other (a : Action)
  deriving DecidableEq, Repr

def splitReq (orient : Orient) (parent : PaneId) (spec : PaneSpec) : OpenPaneSplitReq where
  parentPane := parent
  orient := orient
  name := if spec.name = [] then none else some spec.name
  cwd := spec.cwd
  cmd := none

namespace LayoutCall

/-- The session is spawned with its window and its first pane, for the first entry. -/
def start (daemon : Registry) (orient : Orient) (sid : SessionId) (w : WindowId) (pane : PaneId) :
    List PaneSpec → Option LayoutCall
  | [] => none
  | spec :: specs =>
    (exec Registry.step daemon [.newSession sid w,.openPane sid w pane]).map fun daemon =>
      ⟨daemon,orient,pane,some (pane,spec),specs,[],[],[],false⟩

def step (c : LayoutCall) : LayoutMove → Option LayoutCall
  | .split pane =>
    match c.failed, c.opened, c.todo with
    | false, none, spec :: todo =>
      (c.daemon.step (.openPaneSplit c.lastPane c.orient pane)).map fun daemon =>
        { c with
          daemon := daemon
          lastPane := pane
          opened := some (pane,spec)
          todo := todo
          requests := c.requests ++ [splitReq c.orient c.lastPane spec] }
    | _, _, _ => none
  | .send =>
    match c.failed, c.opened with
    | false, some (pane,spec) => some { c with
        opened := none
        resultPanes := c.resultPanes ++ [(pane,spec)]
        keys := c.keys ++ (spec.cmd.map fun cmd => (pane,cmd ++ ['\n'])).toList }
    | _, _ => none
  | .refuse => some { c with failed := true }
  | .other a => (c.daemon.step a).map fun daemon => { c with daemon := daemon }

/-- What the tool replies: the id, the name and the path of each pane. -/
def result (c : LayoutCall) : Option (List (PaneId × Text × List Nat)) :=
  if c.failed ∨ c.opened.isSome ∨ c.todo ≠ [] then none
  else some (c.resultPanes.mapIdx fun idx e => (e.1,e.2.name,[idx]))

/-- The entries that have a pane, in the order they were given. -/
def entries (c : LayoutCall) : List (PaneId × PaneSpec) := c.resultPanes ++ c.opened.toList

/-- Each entry after the first has split the pane of the one before it. -/
def splitReqs (orient : Orient) : List (PaneId × PaneSpec) → List OpenPaneSplitReq
  | a :: b :: rest => splitReq orient a.1 b.2 :: splitReqs orient (b :: rest)
  | _ => []

def keysOf (done : List (PaneId × PaneSpec)) : List (PaneId × Text) :=
  done.flatMap fun e => (e.2.cmd.map fun cmd => (e.1,cmd ++ ['\n'])).toList

/-- What holds of the session while the tool works on it. -/
structure Built (sid : SessionId) (w : WindowId) (specs : List PaneSpec) (c : LayoutCall) :
    Prop where
  inv : c.daemon.Inv
  session : ∃ se p ps, c.daemon.sessions.lookup sid = some se ∧ c.entries.map Prod.fst = p :: ps ∧
    se.layoutOf w = some (.chain c.orient p ps) ∧ (∀ q ∈ p :: ps, se.panes.lookup q = some w)
  nodup : (c.entries.map Prod.fst).Nodup
  last : (c.entries.map Prod.fst).getLast? = some c.lastPane
  specs : c.entries.map Prod.snd ++ c.todo = specs
  requests : c.requests = splitReqs c.orient c.entries
  keys : c.keys = keysOf c.resultPanes

variable {c c' : LayoutCall} {sid : SessionId} {w : WindowId} {specs : List PaneSpec}
  {orient : Orient}

theorem splitReqs_concat (l : List (PaneId × PaneSpec)) (a b : PaneId × PaneSpec) :
    splitReqs orient (l ++ [a] ++ [b]) =
      splitReqs orient (l ++ [a]) ++ [splitReq orient a.1 b.2] := by
  induction l with
  | nil => rfl
  | cons x l ih =>
    cases l with
    | nil => rfl
    | cons y l => simpa [splitReqs] using ih

theorem Built.split (h : c.Built sid w specs) {pane : PaneId} {spec : PaneSpec}
    {todo : List PaneSpec} {daemon : Registry} (hopened : c.opened = none)
    (htodo : c.todo = spec :: todo)
    (hstep : c.daemon.step (.openPaneSplit c.lastPane c.orient pane) = some daemon) :
    Built sid w specs { c with
      daemon := daemon
      lastPane := pane
      opened := some (pane,spec)
      todo := todo
      requests := c.requests ++ [splitReq c.orient c.lastPane spec] } := by
  obtain ⟨se,p,ps,hse,hentries,hlayout,hpanes⟩ := h.session
  have hresult : c.entries = c.resultPanes := by simp [entries,hopened]
  have hlast := h.last
  rw [hentries] at hlast
  have hlast' : (p :: ps).getLast (List.cons_ne_nil _ _) = c.lastPane :=
    (List.getLast_eq_iff_getLast?_eq_some _).mpr hlast
  have hmem : c.lastPane ∈ p :: ps := hlast' ▸ List.getLast_mem _
  obtain ⟨sid',se',w',hget,win,hwin,hfresh,rfl⟩ := Registry.of_openPaneSplit hstep
  obtain ⟨hse',hpane'⟩ := Registry.getPane_eq_some hget
  obtain rfl := h.inv.pane_home sid' sid c.lastPane w' w ⟨se',hse',hpane'⟩ ⟨se,hse,hpanes _ hmem⟩
  obtain rfl := Option.some.inj (hse'.symm.trans hse)
  obtain rfl := Option.some.inj (hpane'.symm.trans (hpanes _ hmem))
  have hid := SessionState.id_of_findWindow hwin
  have hopen : (se'.openPane w' pane).layoutOf w' = some (.chain c.orient p ps) := by
    rw [SessionState.layoutOf_openPane hwin,if_pos rfl,hlayout,Option.getD_some]
  have hnew : pane ∉ p :: ps := fun hp =>
    hfresh ((h.inv.ok _ _ hse).panes_drawn pane w' (hpanes pane hp))
  have hnodup := h.nodup
  rw [hentries] at hnodup
  have hsnoc : (c.resultPanes ++ [(pane,spec)]).map Prod.fst = p :: (ps ++ [pane]) := by
    rw [List.map_append,← hresult,hentries]
    rfl
  rw [hid]
  refine ⟨?_,⟨_,p,ps ++ [pane],AList.lookup_insert _,hsnoc,?_,?_⟩,?_,?_,?_,?_,h.keys⟩
  · exact Registry.inv_split h.inv hse hwin hpane' hfresh c.orient
  · rw [SessionState.layoutOf_placeSplit _ hopen,if_pos rfl,← hlast',
      LayoutNode.splitFocused_chain hnodup]
  · intro q hq
    rw [← List.cons_append,List.mem_append,List.mem_singleton] at hq
    refine SessionState.lookup_openPane.mpr ?_
    obtain hq | rfl := hq
    · exact .inr ⟨fun heq => hnew (heq ▸ hq),hpanes q hq⟩
    · exact .inl ⟨rfl,rfl⟩
  · refine (congrArg List.Nodup hsnoc).mpr ?_
    rw [← List.cons_append,List.nodup_append]
    refine ⟨hnodup,List.nodup_singleton _,fun a ha b hb heq => hnew ?_⟩
    rw [List.mem_singleton.mp hb] at heq
    exact heq ▸ ha
  · exact (congrArg List.getLast? hsnoc).trans (by rw [← List.cons_append,List.getLast?_concat])
  · have hspecs := h.specs
    rw [hresult,htodo] at hspecs
    simpa [entries] using hspecs
  · obtain ⟨l,a,hl⟩ : ∃ l a, c.resultPanes = l ++ [a] := by
      refine (List.eq_nil_or_concat' c.resultPanes).resolve_left fun hnil => ?_
      rw [hresult,hnil] at hentries
      cases hentries
    have ha : a.1 = c.lastPane := by
      have hlast := h.last
      rw [hresult,hl,List.map_append,List.map_singleton,List.getLast?_concat] at hlast
      exact Option.some.inj hlast
    have hreq := h.requests
    rw [hresult,hl] at hreq
    refine (congrArg (· ++ _) hreq).trans ?_
    simp only [entries,Option.toList_some,hl]
    rw [splitReqs_concat,ha]

theorem Built.send (h : c.Built sid w specs) {pane : PaneId} {spec : PaneSpec}
    (hopened : c.opened = some (pane,spec)) : Built sid w specs { c with
      opened := none
      resultPanes := c.resultPanes ++ [(pane,spec)]
      keys := c.keys ++ (spec.cmd.map fun cmd => (pane,cmd ++ ['\n'])).toList } := by
  have hsame : c.entries = c.resultPanes ++ [(pane,spec)] ++ (none : Option _).toList := by
    simp [entries,hopened]
  obtain ⟨hinv,hsession,hnodup,hlast,hspecs,hreq,hkeys⟩ := h
  rw [hsame] at hsession hnodup hlast hspecs hreq
  refine ⟨hinv,hsession,hnodup,hlast,hspecs,hreq,?_⟩
  rw [hkeys]
  simp [keysOf]

/-- The calls of the tool, in any order, and those of others about other sessions. -/
def OthersSpare (sid : SessionId) (c : LayoutCall) : LayoutMove → Prop
  | .other a => Registry.Spares sid c.daemon a
  | _ => True

instance (sid : SessionId) (c : LayoutCall) : DecidablePred (OthersSpare sid c)
  | .other a => inferInstanceAs (Decidable (Registry.Spares sid c.daemon a))
  | .split _ | .send | .refuse => isTrue trivial

theorem Built.step (h : c.Built sid w specs) {m : LayoutMove} (hm : OthersSpare sid c m)
    (hstep : c.step m = some c') : c'.Built sid w specs := by
  cases m with
  | split pane =>
    simp only [LayoutCall.step] at hstep
    split at hstep
    · rename_i spec todo _ hopened htodo
      obtain ⟨daemon,hd,rfl⟩ := Option.map_eq_some_iff.mp hstep
      exact h.split hopened htodo hd
    · cases hstep
  | send =>
    simp only [LayoutCall.step] at hstep
    split at hstep
    · rename_i pane spec _ hopened
      exact Option.some.inj hstep ▸ h.send hopened
    · cases hstep
  | refuse => exact Option.some.inj hstep ▸ { h with }
  | other a =>
    obtain ⟨daemon,hd,rfl⟩ := Option.map_eq_some_iff.mp hstep
    obtain ⟨se,p,ps,hse,hrest⟩ := h.session
    exact { h with
      inv := Registry.step_inv c.daemon a daemon h.inv hd
      session := ⟨se,p,ps,Registry.lookup_of_spares h.inv hm hd hse,hrest⟩ }

theorem built_start {d : Registry} (hd : d.Inv) {pane : PaneId}
    (hstart : start d orient sid w pane specs = some c) :
    c.Built sid w specs ∧ c.orient = orient := by
  cases specs with
  | nil => cases hstart
  | cons spec specs =>
    obtain ⟨daemon,hexec,rfl⟩ := Option.map_eq_some_iff.mp hstart
    simp only [exec_cons,exec_nil,Option.bind_eq_some_iff,Option.some.injEq] at hexec
    obtain ⟨e,he,f,hf,rfl⟩ := hexec
    have hinv := Registry.step_inv d _ e hd he
    have hinv' := Registry.step_inv e _ f hinv hf
    obtain ⟨se,hse,win,hwin,-,rfl⟩ := Registry.of_openPane hf
    simp only [Registry.step,Option.ite_none_right_eq_some,Option.some.injEq] at he
    obtain ⟨-,rfl⟩ := he
    obtain rfl : (⟨∅,[⟨w,none⟩]⟩ : SessionState) = se :=
      Option.some.inj ((AList.lookup_insert _).symm.trans hse)
    have hw : SessionState.findWindow ⟨∅,[⟨w,none⟩]⟩ w = some ⟨w,none⟩ := by
      simp [SessionState.findWindow]
    obtain rfl : win = ⟨w,none⟩ := by
      have htarget : SessionState.target ⟨∅,[⟨w,none⟩]⟩ w = some ⟨w,none⟩ := by
        rw [SessionState.target,hw]
        rfl
      exact Option.some.inj (hwin.symm.trans htarget)
    refine ⟨⟨hinv',⟨_,pane,[],AList.lookup_insert _,rfl,?_,?_⟩,List.nodup_singleton _,rfl,rfl,rfl,
      rfl⟩,rfl⟩
    · rw [SessionState.layoutOf_openPane hw,if_pos rfl]
      simp [SessionState.layoutOf,SessionState.findWindow,LayoutNode.chain]
    · intro q hq
      obtain rfl := List.mem_singleton.mp hq
      exact SessionState.lookup_openPane.mpr (.inl ⟨rfl,rfl⟩)

theorem step_orient {m : LayoutMove} (hstep : c.step m = some c') : c'.orient = c.orient := by
  cases m with
  | split pane =>
    simp only [LayoutCall.step] at hstep
    split at hstep
    · obtain ⟨daemon,-,rfl⟩ := Option.map_eq_some_iff.mp hstep
      rfl
    · cases hstep
  | send =>
    simp only [LayoutCall.step] at hstep
    split at hstep
    · exact Option.some.inj hstep ▸ rfl
    · cases hstep
  | refuse => exact Option.some.inj hstep ▸ rfl
  | other a =>
    obtain ⟨daemon,-,rfl⟩ := Option.map_eq_some_iff.mp hstep
    rfl

/-- What the tool has made: the panes of the entries so far halve the window in their order, and a
reply lists them so. -/
structure Laid (orient : Orient) (w : WindowId) (specs : List PaneSpec) (c : LayoutCall) :
    Prop where
  layout : ∃ p ps, c.entries.map Prod.fst = p :: ps ∧
    c.daemon.windowLayouts w = [.chain orient p ps]
  given : c.entries.map Prod.snd ++ c.todo = specs
  requests : c.requests = splitReqs orient c.entries
  keys : c.keys = keysOf c.resultPanes
  reply : ∀ r, c.result = some r → ∀ tree ∈ c.daemon.windowLayouts w,
    r.map Prod.fst = tree.allLeaves ∧ r.map (fun e => e.2.1) = specs.map PaneSpec.name ∧
      ∀ e ∈ r, ∃ idx, e.2.2 = [idx] ∧ tree.allLeaves[idx]? = some e.1

theorem Built.laid (h : c.Built sid w specs) (horient : c.orient = orient) :
    Laid orient w specs c := by
  subst horient
  obtain ⟨se,p,ps,hse,hentries,hlayout,hpanes⟩ := h.session
  obtain ⟨win,hwin,-⟩ := Option.bind_eq_some_iff.mp hlayout
  have hwindow : c.daemon.windowLayouts w = [.chain c.orient p ps] := by
    rw [Registry.windowLayouts_eq h.inv hse hwin,hlayout]
    rfl
  refine ⟨⟨p,ps,hentries,hwindow⟩,h.specs,h.requests,h.keys,fun r hr tree htree => ?_⟩
  rw [hwindow,List.mem_singleton] at htree
  rw [result,Option.ite_none_left_eq_some,Option.some.injEq] at hr
  obtain ⟨hdone,rfl⟩ := hr
  push Not at hdone
  obtain ⟨-,hopened,htodo⟩ := hdone
  have hall : c.entries = c.resultPanes := by
    simp [entries,Option.not_isSome_iff_eq_none.mp hopened]
  have hspecs := h.specs
  rw [hall,htodo,List.append_nil] at hspecs
  rw [hall] at hentries
  rw [htree,LayoutNode.allLeaves_chain,← hentries,← hspecs]
  refine ⟨?_,?_,fun e he => ?_⟩
  · exact List.ext_getElem (by simp) fun i _ _ => by simp
  · exact List.ext_getElem (by simp) fun i _ _ => by simp
  · obtain ⟨i,hi,rfl⟩ := List.mem_mapIdx.mp he
    exact ⟨i,rfl,by simp [hi]⟩

/-- From any daemon a run may reach, and whatever other clients do to other sessions meanwhile, the
tool builds the chain of its entries, up to the one that was refused. -/
theorem session_layout_chain {before : List Session.Action} {d : Registry}
    (hd : exec Registry.step .empty before = some d) {pane : PaneId}
    (hstart : start d orient sid w pane specs = some c) (moves : List LayoutMove)
    (h : Along step (OthersSpare sid) c moves) : Always step (Laid orient w specs) c moves := by
  have hinv : d.Inv :=
    (Always.of_invariant Registry.step_inv Registry.inv_empty before).last hd
  obtain ⟨hbuilt,horient⟩ := built_start hinv hstart
  have hall := h.invariant (I := fun b => b.Built sid w specs ∧ b.orient = orient)
    (fun b m b' hb hm hstep => ⟨hb.1.step hm hstep,(step_orient hstep).trans hb.2⟩)
    ⟨hbuilt,horient⟩
  exact hall.mono fun b hb => hb.1.laid hb.2

def otherSession : Registry :=
  (exec Registry.step .empty [.newSession ⟨0⟩ ⟨0⟩,.openPane ⟨0⟩ ⟨0⟩ ⟨0⟩]).get rfl

def threeSpecs : List PaneSpec :=
  [⟨"edit".toList,none,some "vim".toList⟩,⟨[],none,none⟩,⟨"log".toList,none,some "tail".toList⟩]

def threeStarted : LayoutCall :=
  (start otherSession .vertical ⟨1⟩ ⟨1⟩ ⟨1⟩ threeSpecs).get rfl

def threeMoves : List LayoutMove :=
  [.send,.split ⟨2⟩,.other (.openPaneSplit ⟨0⟩ .vertical ⟨3⟩),.send,.split ⟨4⟩,.send]

theorem session_layout_three :
    Always step (Laid .vertical ⟨1⟩ threeSpecs) threeStarted threeMoves :=
  session_layout_chain (Option.some_get rfl).symm (Option.some_get rfl).symm threeMoves
    (by decide +kernel)

example : ((exec step threeStarted threeMoves).bind result).map (List.map Prod.fst) =
    some [⟨1⟩,⟨2⟩,⟨4⟩] := by
  decide +kernel

end LayoutCall
end Mcp
end Pyre
