import Pyre.Base.Collect
import Pyre.Session.WholeCalls

/-!
`gc_stale_sessions` of a daemon of its own beside `spawn` and the other calls. A session is
registered before its first pane is opened, and one that the collection has counted without
panes it takes from the registry later.
-/

set_option autoImplicit false

namespace Pyre.Session
open Base

namespace Shells

variable {s t u : Tables} {sid : SessionId} {pane : PaneId} {c d : Call}
  {new : Option (SessionId × PaneId)}

/-- The session in which the call is opening a pane. -/
def Call.opens : Call → Option SessionId
  | .found sid _ | .targeted sid _ | .spawned sid _ _ => some sid
  | _ => none

def Move.inserts : Move → Option (SessionId × PaneId)
  | .resume c _ _ => c.inserts
  | _ => none

def Move.drawn : Move → Option PaneId
  | .resume _ pane _ => some pane
  | _ => none

/-- No session is registered, and none has got a pane but `new`. -/
structure Tables.Adds (s t : Tables) (new : Option (SessionId × PaneId)) : Prop where
  registered : ∀ sid ∈ t.registered, sid ∈ s.registered
  inMap : ∀ sid p, t.InMap sid p → s.InMap sid p ∨ new = some (sid,p)

namespace Tables.Adds

theorem refl (s : Tables) : s.Adds s new := ⟨fun _ h => h,fun _ _ h => Or.inl h⟩

theorem kill (s : Tables) (pane : PaneId) : s.Adds (s.kill pane) new :=
  ⟨fun _ h => h,fun _ _ h => Or.inl h⟩

theorem evict (s : Tables) (sid : SessionId) : s.Adds (s.evict sid) new :=
  ⟨fun _ h => (List.mem_filter.mp h).1,fun _ _ h => Or.inl h⟩

theorem modify {f : SessionState → SessionState}
    (hf : ∀ se p w, (f se).panes.lookup p = some w →
      (∃ w', se.panes.lookup p = some w') ∨ new = some (sid,p)) :
    s.Adds (s.modify sid f) new := by
  unfold Tables.modify
  split
  · exact refl s
  · rename_i se hse
    refine ⟨fun _ h => h,fun sid' p hmap => ?_⟩
    obtain ⟨se',w,hse',hw⟩ := hmap
    rcases Table.lookup_insert_eq_some.mp hse' with ⟨rfl,rfl⟩ | ⟨-,hse'⟩
    · refine (hf se p w hw).imp_left fun hmem => ?_
      obtain ⟨w',hw'⟩ := hmem
      exact ⟨se,w',hse,hw'⟩
    · exact Or.inl ⟨se',w,hse',hw⟩

end Tables.Adds

theorem closeStep_adds (s : Tables) (ok : Bool) (c : PaneClosing) :
    s.Adds (s.closeStep ok c).1 new := by
  cases c with
  | asked pane => exact .refl s
  | got sid w pane =>
    simp only [Tables.closeStep]
    split
    · exact .kill s pane
    · exact .refl s
  | killed sid w pane =>
    exact .modify fun se p w' hw => Or.inl ⟨w',(SessionState.lookup_closePane.mp hw).2⟩
  | removed sid => exact .refl s
  | emptied sid => exact .evict s sid

/-- What the steps of a call put into the sessions. -/
theorem resume_adds (s : Tables) (pane : PaneId) (ok : Bool) (c : Call) :
    s.Adds (s.resume pane ok c).1 c.inserts := by
  cases c with
  | targeted sid w =>
    cases ok with
    | true => exact ⟨fun _ h => h,fun _ _ h => Or.inl h⟩
    | false => exact .refl s
  | spawned sid w p =>
    refine .modify fun se q w' hw => ?_
    rcases SessionState.lookup_openPane.mp hw with ⟨rfl,-⟩ | ⟨-,hw⟩
    · exact Or.inr rfl
    · exact Or.inl ⟨w',hw⟩
  | closing c => exact closeStep_adds s ok c
  | closingWindow sid w panes c =>
    cases c with
    | some c => exact closeStep_adds s ok c
    | none => cases panes <;> exact .refl s
  | retaining sid w => exact .modify fun se p w' hw => Or.inl ⟨w',hw⟩
  | windowless sid => exact .evict s sid
  | exited p =>
    simp only [Tables.resume]
    split
    · exact .refl s
    · exact .modify fun se q w' hw => Or.inl ⟨w',(SessionState.lookup_removePane.mp hw).2⟩
  | deserted sid => exact .evict s sid
  | signalling panes =>
    cases panes with
    | nil => exact .refl s
    | cons p panes => exact .kill s p
  | found sid asked => exact .refl s
  | checking sid => exact .refl s
  | killing sid => exact .refl s

/-- A call goes on in the session it has begun in. -/
theorem opens_resume (ok : Bool) (h : d ∈ (s.resume pane ok c).2) (hd : d.opens = some sid) :
    c.opens = some sid := by
  cases c with
  | found sid' asked =>
    obtain ⟨se,-,h⟩ := Option.bind_eq_some_iff.mp h
    obtain ⟨win,-,rfl⟩ := Option.map_eq_some_iff.mp h
    exact hd
  | targeted sid' w =>
    cases ok with
    | true =>
      obtain rfl := Option.some.inj h
      exact hd
    | false => cases h
  | closing c =>
    obtain ⟨c',-,rfl⟩ := Option.map_eq_some_iff.mp h
    cases hd
  | closingWindow sid' w panes c =>
    cases c with
    | some c =>
      obtain rfl := Option.some.inj h
      cases hd
    | none =>
      cases panes with
      | nil =>
        obtain ⟨-,h⟩ := Option.ite_none_right_eq_some.mp h
        obtain rfl := Option.some.inj h
        cases hd
      | cons p panes =>
        obtain rfl := Option.some.inj h
        cases hd
  | checking sid' =>
    obtain ⟨-,h⟩ := Option.ite_none_right_eq_some.mp h
    obtain rfl := Option.some.inj h
    cases hd
  | exited p =>
    simp only [Tables.resume] at h
    split at h
    · cases h
    · obtain ⟨-,h⟩ := Option.ite_none_right_eq_some.mp h
      obtain rfl := Option.some.inj h
      cases hd
  | signalling panes =>
    cases panes with
    | nil => cases h
    | cons p panes =>
      obtain rfl := Option.some.inj h
      cases hd
  | retaining sid' w =>
    obtain rfl := Option.some.inj h
    cases hd
  | killing sid' =>
    obtain rfl := Option.some.inj h
    cases hd
  | spawned sid' w p => cases h
  | windowless sid' => cases h
  | deserted sid' => cases h

theorem step_adds {s t : Shells} {m : Move} (ht : s.step m = some t) :
    s.tables.Adds t.tables m.inserts := by
  cases m with
  | openPane sid asked =>
    simp only [step] at ht
    split at ht <;> obtain rfl := Option.some.inj ht <;> exact .refl _
  | closePane pane =>
    obtain rfl := Option.some.inj ht
    exact .refl _
  | closeWindow w =>
    simp only [step] at ht
    split at ht <;> obtain rfl := Option.some.inj ht <;> exact .refl _
  | killSession sid =>
    simp only [step] at ht
    split at ht <;> obtain rfl := Option.some.inj ht
    · exact .evict _ sid
    · exact .refl _
  | exit pane =>
    simp only [step,Option.ite_none_right_eq_some,Option.some.injEq] at ht
    obtain ⟨-,rfl⟩ := ht
    exact .kill _ pane
  | reap pane =>
    simp only [step,Option.ite_none_right_eq_some,Option.some.injEq] at ht
    obtain ⟨-,rfl⟩ := ht
    exact ⟨fun _ h => h,fun _ _ h => Or.inl h⟩
  | resume c pane ok =>
    simp only [step,Option.ite_none_right_eq_some] at ht
    obtain ⟨-,ht⟩ := ht
    obtain rfl := Option.some.inj ht
    exact resume_adds _ pane ok c

end Shells

/-- `spawn` on its way: its session is `made`, then the pane is opened in it. -/
inductive Spawning where
  | made (sid : SessionId) (w : WindowId)
  | opening (c : Shells.Call)
  deriving DecidableEq, Repr

/-- `gc_stale_sessions` on its way: `todo` has what `list_sessions` has yet to count, `stale`
what is left to kill. -/
inductive Sweep where
  | listing (todo stale : List SessionId)
  | evicting (stale : List SessionId)
  | killing (sid : SessionId) (stale : List SessionId)
  | signalling (panes : List PaneId) (stale : List SessionId)
  deriving DecidableEq, Repr

def Spawning.named : Spawning → List PaneId
  | .made _ _ => []
  | .opening c => c.named

/-- The session in which the `spawn` is opening its pane. -/
def Spawning.opens : Spawning → Option SessionId
  | .made _ _ => none
  | .opening c => c.opens

def Sweep.stale : Sweep → List SessionId
  | .listing _ stale | .evicting stale | .killing _ stale | .signalling _ stale => stale

/-- `log` has what the collections have taken and which calls of `spawn` have returned a
session. -/
structure Collecting where
  shells : Shells
  spawns : List Spawning
  sweeps : List Sweep
  log : List (CollectEvent SessionId)

namespace Collecting

inductive Move where
  | spawn (sid : SessionId) (w : WindowId)
  | resumeSpawn (call : Spawning) (pane : PaneId) (ok : Bool)
  | gcStaleSessions
  | resumeGc (sweep : Sweep)
  | other (m : Shells.Move)
  deriving DecidableEq, Repr

def tables (s : Collecting) : Shells.Tables := s.shells.tables

def setTables (s : Collecting) (tables : Shells.Tables) : Collecting :=
  { s with shells := { s.shells with tables := tables } }

/-- The sessions that a collection has counted without panes and not come to yet. -/
def listed (s : Collecting) : List SessionId := s.sweeps.flatMap Sweep.stale

def Live (s : Collecting) (sid : SessionId) : Prop :=
  ∃ pane ∈ s.tables.panesOf sid, pane ∈ s.tables.running

instance (s : Collecting) (sid : SessionId) : Decidable (s.Live sid) :=
  inferInstanceAs (Decidable (∃ pane ∈ s.tables.panesOf sid, pane ∈ s.tables.running))

/-- Identifiers that have just been drawn are nowhere. -/
def FreshSession (s : Collecting) (sid : SessionId) (w : WindowId) : Prop :=
  (s.tables.objects.lookup sid = none ∧ sid ∉ s.tables.registered ∧ sid ∉ s.listed ∧
    ∀ b, .taken sid b ∉ s.log) ∧ ∀ e ∈ s.tables.objects.entries, (e.2.findWindow w).isNone

def FreshPane (s : Collecting) (pane : PaneId) : Prop :=
  s.shells.Fresh pane ∧ ∀ c ∈ s.spawns, pane ∉ c.named

instance (s : Collecting) (sid : SessionId) (w : WindowId) : Decidable (s.FreshSession sid w) :=
  inferInstanceAs (Decidable ((_ ∧ _ ∧ _ ∧ _) ∧ _))

instance (s : Collecting) (pane : PaneId) : Decidable (s.FreshPane pane) :=
  inferInstanceAs (Decidable (_ ∧ _))

/-- The next step of `gc_stale_sessions`. `list_sessions` counts the sessions one after the
other, and `kill_session` fails for one that is not registered. -/
def stepGc (s : Collecting) : Sweep → Collecting × Option Sweep
  | .listing (sid :: todo) stale =>
    (s,some (.listing todo (if s.tables.panesOf sid = [] then stale ++ [sid] else stale)))
  | .listing [] stale => (s,some (.evicting stale))
  | .evicting (sid :: stale) =>
    if sid ∈ s.tables.registered then
      ({ s.setTables (s.tables.evict sid) with log := .taken sid (s.Live sid) :: s.log },
        some (.killing sid stale))
    else (s,some (.evicting stale))
  | .evicting [] => (s,none)
  | .killing sid stale => (s,some (.signalling (s.tables.panesOf sid) stale))
  | .signalling (pane :: panes) stale =>
    (s.setTables (s.tables.kill pane),some (.signalling panes stale))
  | .signalling [] stale => (s,some (.evicting stale))

/-- The next step of `spawn`, which returns its session once the pane is put into it. -/
def stepSpawn (s : Collecting) (pane : PaneId) (ok : Bool) : Spawning → Collecting × Option Spawning
  | .made sid w =>
    (s,if sid ∈ s.tables.registered then some (.opening (.found sid w)) else none)
  | .opening c =>
    let (tables,next) := s.tables.resume pane ok c
    ({ s.setTables tables with log := (c.inserts.map fun k => .returned k.1).toList ++ s.log },
      next.map .opening)

/-- `new_session`: the session is registered with its default window. -/
def newSession (s : Collecting) (sid : SessionId) (w : WindowId) : Collecting :=
  s.setTables { s.tables with
    objects := s.tables.objects.insert sid ⟨∅,[⟨w,none⟩]⟩
    registered := sid :: s.tables.registered }

def step (s : Collecting) : Move → Option Collecting
  | .spawn sid w =>
    if s.FreshSession sid w then
      some { s.newSession sid w with spawns := .made sid w :: s.spawns }
    else none
  | .resumeSpawn call pane ok =>
    if call ∈ s.spawns ∧ s.FreshPane pane then
      let (t,next) := s.stepSpawn pane ok call
      some { t with spawns := next.toList ++ s.spawns.erase call }
    else none
  | .gcStaleSessions => some { s with sweeps := .listing s.tables.registered [] :: s.sweeps }
  | .resumeGc sweep =>
    if sweep ∈ s.sweeps then
      let (t,next) := s.stepGc sweep
      some { t with sweeps := next.toList ++ s.sweeps.erase sweep }
    else none
  | .other m =>
    if ∀ pane ∈ m.drawn, s.FreshPane pane then
      (s.shells.step m).map fun shells => { s with shells := shells }
    else none

/-- No pane is put into a session that a collection has counted without any and not come to
yet, and none is taken in which a `spawn` is opening its pane. -/
def Keeps (s : Collecting) : Move → Prop
  | .resumeSpawn (.opening c) _ _ | .other (.resume c _ _) => ∀ k ∈ c.inserts, k.1 ∉ s.listed
  | .resumeGc (.evicting (sid :: _)) =>
    sid ∈ s.tables.registered → ∀ call ∈ s.spawns, call.opens ≠ some sid
  | _ => True

instance (s : Collecting) : ∀ m, Decidable (s.Keeps m)
  | .resumeSpawn (.opening c) _ _ | .other (.resume c _ _) =>
    inferInstanceAs (Decidable (∀ k ∈ c.inserts, k.1 ∉ s.listed))
  | .resumeGc (.evicting (sid :: _)) =>
    inferInstanceAs (Decidable (_ → ∀ call ∈ s.spawns, call.opens ≠ some sid))
  | .spawn _ _ | .resumeSpawn (.made _ _) _ _ | .gcStaleSessions | .resumeGc (.listing _ _)
  | .resumeGc (.evicting []) | .resumeGc (.killing _ _) | .resumeGc (.signalling _ _)
  | .other (.openPane _ _) | .other (.closePane _) | .other (.closeWindow _)
  | .other (.killSession _) | .other (.exit _) | .other (.reap _) => isTrue trivial

/-- No `spawn` and no collection is on its way. -/
def start (shells : Shells) : Collecting := ⟨shells,[],[],[]⟩

/-- A session is registered, or a `spawn` is opening its pane in it. -/
def InUse (s : Collecting) (sid : SessionId) : Prop :=
  sid ∈ s.tables.registered ∨ ∃ call ∈ s.spawns, call.opens = some sid

def Inv (s : Collecting) : Prop :=
  Clear (fun sid => s.tables.panesOf sid ≠ []) s.InUse s.listed s.log

variable {s t : Collecting} {sid : SessionId} {pane : PaneId} {c : Shells.Call}
  {new : Option (SessionId × PaneId)} {log : List (CollectEvent SessionId)} {m : Move}

/-- What `new_session` does to the registry. -/
theorem shows_newSession {r : Registry} (h : s.tables.Shows r) (sid : SessionId) (w : WindowId) :
    (s.newSession sid w).tables.Shows (r.update sid ⟨∅,[⟨w,none⟩]⟩) := by
  intro sid'
  by_cases heq : sid' = sid
  · subst heq
    simp [Registry.update,newSession,setTables,tables]
  · simp only [Registry.update,newSession,setTables,tables,AList.lookup_insert_ne heq,
      List.mem_cons,heq,false_or]
    exact h sid'

theorem panesOf_ne_nil {s : Shells.Tables} : s.panesOf sid ≠ [] ↔ ∃ pane, s.InMap sid pane := by
  simp only [← Shells.Tables.mem_panesOf]
  refine ⟨List.exists_mem_of_ne_nil _,fun hpane => ?_⟩
  obtain ⟨pane,hpane⟩ := hpane
  exact List.ne_nil_of_mem hpane

theorem panesOf_ne_nil_of_live (h : s.Live sid) : s.tables.panesOf sid ≠ [] := by
  obtain ⟨pane,hpane,-⟩ := h
  exact List.ne_nil_of_mem hpane

/-- A step that registers no session, and puts a pane into none that is listed. -/
theorem advance (h : Clear (fun sid => s.tables.panesOf sid ≠ []) s.InUse s.listed log)
    (hadds : s.tables.Adds t.tables new) (hnew : ∀ k ∈ new, k.1 ∉ s.listed)
    (hspawns : ∀ call ∈ t.spawns, ∀ sid, call.opens = some sid → s.InUse sid) :
    Clear (fun sid => t.tables.panesOf sid ≠ []) t.InUse s.listed log := by
  refine h.mono (fun sid hsid hlive => ?_) fun sid huse => Or.inl ?_
  · obtain ⟨pane,hmap⟩ := panesOf_ne_nil.mp hlive
    rcases hadds.inMap sid pane hmap with hmap | rfl
    · exact panesOf_ne_nil.mpr ⟨pane,hmap⟩
    · exact absurd hsid (hnew (sid,pane) rfl)
  · rcases huse with hreg | ⟨c,hc,hopens⟩
    · exact Or.inl (hadds.registered sid hreg)
    · exact hspawns c hc sid hopens

theorem Inv.spawn {w : WindowId} (h : s.Inv) (hfresh : s.FreshSession sid w) :
    Inv { s.newSession sid w with spawns := .made sid w :: s.spawns } := by
  obtain ⟨⟨-,-,-,hlog⟩,-⟩ := hfresh
  refine h.mono (fun sid' _ hlive => ?_) fun sid' huse => ?_
  · obtain ⟨pane,se,w',hse,hw⟩ := panesOf_ne_nil.mp hlive
    rcases Table.lookup_insert_eq_some.mp hse with ⟨rfl,rfl⟩ | ⟨-,hse⟩
    · cases hw
    · exact panesOf_ne_nil.mpr ⟨pane,se,w',hse,hw⟩
  · rcases huse with hreg | ⟨c,hc,hopens⟩
    · rcases List.mem_cons.mp hreg with rfl | hreg
      · exact Or.inr hlog
      · exact Or.inl (Or.inl hreg)
    · refine Or.inl (Or.inr ⟨c,(List.mem_cons.mp hc).resolve_left ?_,hopens⟩)
      rintro rfl
      cases hopens

theorem Inv.resumeSpawn {call : Spawning} {ok : Bool} (h : s.Inv) (hcall : call ∈ s.spawns)
    (hkeeps : s.Keeps (.resumeSpawn call pane ok)) :
    Inv { (s.stepSpawn pane ok call).1 with
      spawns := (s.stepSpawn pane ok call).2.toList ++ s.spawns.erase call } := by
  have hrest : ∀ c ∈ s.spawns.erase call, ∀ sid, c.opens = some sid → s.InUse sid :=
    fun c hc sid hopens => Or.inr ⟨c,List.mem_of_mem_erase hc,hopens⟩
  cases call with
  | made sid w =>
    have hadds : s.tables.Adds s.tables none := .refl s.tables
    refine advance (s := s) h hadds (fun k hk => by cases hk) fun c hc sid' hopens => ?_
    rcases List.mem_append.mp hc with hc | hc
    · obtain ⟨hreg,heq⟩ := Option.ite_none_right_eq_some.mp (Option.mem_toList.mp hc)
      cases heq
      cases hopens
      exact Or.inl hreg
    · exact hrest c hc sid' hopens
  | opening c =>
    have hlog : Clear (fun sid => s.tables.panesOf sid ≠ []) s.InUse s.listed
        (s.stepSpawn pane ok (.opening c)).1.log := by
      cases c with
      | spawned sid w p => exact h.complete (Or.inr ⟨_,hcall,rfl⟩)
      | _ => exact h
    have hadds := Shells.resume_adds s.tables pane ok c
    refine advance (s := s) hlog hadds hkeeps fun d hd sid hopens => ?_
    rcases List.mem_append.mp hd with hd | hd
    · obtain ⟨d',hd',heq⟩ := Option.map_eq_some_iff.mp (Option.mem_toList.mp hd)
      cases heq
      exact Or.inr ⟨_,hcall,Shells.opens_resume ok hd' hopens⟩
    · exact hrest d hd sid hopens

/-- Nothing but the lists of the collections changes. -/
theorem Inv.relist {sweeps : List Sweep} (h : s.Inv)
    (hlisted : ∀ sid ∈ sweeps.flatMap Sweep.stale, sid ∈ s.listed ∨ s.tables.panesOf sid = []) :
    Inv { s with sweeps := sweeps } :=
  Clear.relist h fun sid hsid => (hlisted sid hsid).imp_right fun heq hne => hne heq

theorem Inv.resumeGc {sweep : Sweep} (h : s.Inv) (hsweep : sweep ∈ s.sweeps)
    (hkeeps : s.Keeps (.resumeGc sweep)) :
    Inv { (s.stepGc sweep).1 with
      sweeps := (s.stepGc sweep).2.toList ++ s.sweeps.erase sweep } := by
  have hrest : ∀ sid ∈ (s.sweeps.erase sweep).flatMap Sweep.stale, sid ∈ s.listed := by
    intro sid hsid
    obtain ⟨g,hg,hsid⟩ := List.mem_flatMap.mp hsid
    exact List.mem_flatMap.mpr ⟨g,List.mem_of_mem_erase hg,hsid⟩
  have hown : ∀ sid ∈ sweep.stale, sid ∈ s.listed :=
    fun sid hsid => List.mem_flatMap.mpr ⟨sweep,hsweep,hsid⟩
  have hnext : ∀ g : Sweep, (∀ sid ∈ g.stale, sid ∈ sweep.stale ∨ s.tables.panesOf sid = []) →
      ∀ sid ∈ (g :: s.sweeps.erase sweep).flatMap Sweep.stale,
        sid ∈ s.listed ∨ s.tables.panesOf sid = [] := by
    intro g hg sid hsid
    rcases List.mem_append.mp (List.flatMap_cons ▸ hsid) with hsid | hsid
    · exact (hg sid hsid).imp_left (hown sid)
    · exact Or.inl (hrest sid hsid)
  cases sweep with
  | listing todo stale =>
    cases todo with
    | nil => exact h.relist (hnext _ fun sid hsid => Or.inl hsid)
    | cons sid todo =>
      refine h.relist (hnext _ fun sid' hsid => ?_)
      by_cases hempty : s.tables.panesOf sid = []
      · simp only [Sweep.stale,hempty,if_true,List.mem_append,List.mem_singleton] at hsid
        rcases hsid with hsid | rfl
        · exact Or.inl hsid
        · exact Or.inr hempty
      · simp only [Sweep.stale,hempty,if_false] at hsid
        exact Or.inl hsid
  | evicting stale =>
    cases stale with
    | nil => exact h.relist fun sid hsid => Or.inl (hrest sid hsid)
    | cons sid stale =>
      by_cases hreg : sid ∈ s.tables.registered
      · have hadds : s.tables.Adds (s.tables.evict sid) none := .evict s.tables sid
        have hevict : Clear (fun sid => s.tables.panesOf sid ≠ [])
            (s.setTables (s.tables.evict sid)).InUse s.listed s.log :=
          advance (s := s) (t := s.setTables (s.tables.evict sid)) h hadds
            (fun k hk => by cases hk) fun c hc sid' hopens => Or.inr ⟨c,hc,hopens⟩
        have huse : ¬(s.setTables (s.tables.evict sid)).InUse sid := by
          rintro (hmem | ⟨c,hc,hopens⟩)
          · exact absurd rfl (of_decide_eq_true (List.mem_filter.mp hmem).2)
          · exact hkeeps hreg c hc hopens
        have htaken := hevict.take (hown sid List.mem_cons_self)
          (fun hlive => panesOf_ne_nil_of_live (of_decide_eq_true hlive)) huse
        simp only [stepGc,hreg,if_true]
        refine htaken.relist fun sid' hsid => ?_
        refine (hnext (.killing sid stale) (fun sid' hsid => Or.inl ?_) sid' hsid).imp_right
          fun heq hne => hne heq
        exact List.mem_cons_of_mem _ hsid
      · simp only [stepGc,hreg,if_false]
        exact h.relist (hnext _ fun sid hsid => Or.inl (List.mem_cons_of_mem _ hsid))
  | killing sid stale => exact h.relist (hnext _ fun sid hsid => Or.inl hsid)
  | signalling panes stale =>
    cases panes with
    | nil => exact h.relist (hnext _ fun sid hsid => Or.inl hsid)
    | cons pane panes =>
      have hadds : s.tables.Adds (s.tables.kill pane) none := .kill s.tables pane
      have hkill := advance (s := s) (t := s.setTables (s.tables.kill pane)) h hadds
        (fun k hk => by cases hk) fun c hc sid hopens => Or.inr ⟨c,hc,hopens⟩
      exact Inv.relist hkill (hnext _ fun sid hsid => Or.inl hsid)

theorem inv_step (h : s.Inv) (hkeeps : s.Keeps m) (ht : s.step m = some t) : t.Inv := by
  cases m with
  | spawn sid w =>
    obtain ⟨hfresh,ht⟩ := Option.ite_none_right_eq_some.mp ht
    obtain rfl := Option.some.inj ht
    exact h.spawn hfresh
  | resumeSpawn call pane ok =>
    obtain ⟨⟨hcall,-⟩,ht⟩ := Option.ite_none_right_eq_some.mp ht
    obtain rfl := Option.some.inj ht
    exact h.resumeSpawn hcall hkeeps
  | gcStaleSessions =>
    obtain rfl := Option.some.inj ht
    exact h.relist fun sid hsid => Or.inl hsid
  | resumeGc sweep =>
    obtain ⟨hsweep,ht⟩ := Option.ite_none_right_eq_some.mp ht
    obtain rfl := Option.some.inj ht
    exact h.resumeGc hsweep hkeeps
  | other m =>
    obtain ⟨-,ht⟩ := Option.ite_none_right_eq_some.mp ht
    obtain ⟨shells,hm,rfl⟩ := Option.map_eq_some_iff.mp ht
    refine advance (s := s) h (Shells.step_adds hm) (fun k hk => ?_)
      fun c hc sid hopens => Or.inr ⟨c,hc,hopens⟩
    cases m with
    | resume c pane ok => exact hkeeps k hk
    | _ => cases hk

/-- As long as no pane is put into a session on the list of a collection, and none is taken
from under a `spawn`, the collections spare every session in use. -/
theorem spares_always (shells : Shells) (moves : List Move)
    (hall : Along step Keeps (start shells) moves) :
    Always step (fun s => Spares s.log) (start shells) moves :=
  (hall.invariant (I := Inv) (fun _ _ _ h hkeeps ht => inv_step h hkeeps ht) Clear.start).mono
    fun _ h => h.spares

/-- No session. -/
def noSession : Shells := ⟨⟨∅,[],[],[]⟩,[]⟩

/-- A collection counts the session that a `spawn` has registered, and takes it while the pane
is opened. -/
def spawnCollected : List Move :=
  [.spawn ⟨1⟩ ⟨1⟩,.gcStaleSessions,.resumeGc (.listing [⟨1⟩] []),.resumeGc (.listing [] [⟨1⟩]),
    .resumeSpawn (.made ⟨1⟩ ⟨1⟩) ⟨1⟩ true,.resumeSpawn (.opening (.found ⟨1⟩ ⟨1⟩)) ⟨1⟩ true,
    .resumeGc (.evicting [⟨1⟩]),.resumeSpawn (.opening (.targeted ⟨1⟩ ⟨1⟩)) ⟨1⟩ true,
    .resumeSpawn (.opening (.spawned ⟨1⟩ ⟨1⟩ ⟨1⟩)) ⟨2⟩ true]

end Collecting

end Pyre.Session
