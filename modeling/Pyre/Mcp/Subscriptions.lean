import Pyre.Mcp.Server

/-!
The subscriptions of the MCP server: a task for each, that tells of what it polled, and that tells
of it no more once it is aborted.
-/

set_option autoImplicit false

namespace Pyre.Mcp
open Base

section subscriptions

variable {V : Type} {J : Json V} {s t : Server V} {op : ServerOp V} {uri : String}

/-! What a task has seen and what it has told of. -/

def Line.updates (uri : String) : Line V → Bool
  | .updated u => u = uri
  | .response _ => false

def Watch.ending (uri : String) (w : Watch) : Bool :=
  w.uri = uri && w.aborted && w.stage ≠ .over

theorem Watch.ending_goOn (uri : String) (w : Watch) : w.goOn.ending uri = false := by
  cases haborted : w.aborted <;> simp [Watch.ending,Watch.goOn,haborted]

namespace Server

/-! Subscriptions and the tasks that poll for them. -/

/-- The task polls for the URI and was not aborted. -/
def Watches (s : Server V) (uri : String) (h : Nat) : Prop :=
  ∃ w, s.watches[h]? = some w ∧ w.uri = uri ∧ w.aborted = false

/-- A URI has a task that polls for it just while it is subscribed to, and only one. -/
def Watched (s : Server V) : Prop :=
  ∀ uri h, s.subscriptions.lookup uri = some h ↔ s.Watches uri h

theorem watched_start : (start : Server V).Watched := by
  intro uri h
  simp [start,Watches]

theorem watched_congr (h : s.Watched) (hsub : t.subscriptions = s.subscriptions)
    (hwatches : t.watches = s.watches) : t.Watched := by
  intro uri w
  rw [hsub,h uri w,Watches,Watches,hwatches]

/-- A step of one task that leaves it its URI. -/
theorem watched_set {n : Nat} {w w' : Watch} (h : s.Watched) (hw : s.watches[n]? = some w)
    (hset : t.watches = s.watches.set n w') (hsub : t.subscriptions = s.subscriptions)
    (huri : w'.uri = w.uri) (haborted : w'.aborted = w.aborted) : t.Watched := by
  intro uri m
  rw [hsub,h uri m,Watches,Watches,hset]
  rcases eq_or_ne n m with rfl | hne
  · obtain ⟨hlt,-⟩ := List.getElem?_eq_some_iff.mp hw
    simp only [List.getElem?_set_self hlt,hw,Option.some.injEq,exists_eq_left',huri,haborted]
  · rw [List.getElem?_set_ne hne]

theorem watched_subscribe (h : s.Watched) (uri : String) : (s.subscribe uri).Watched := by
  unfold subscribe
  split
  · exact h
  · rename_i hnone
    intro uri' m
    have hold := h uri' m
    simp only [Watches] at hold ⊢
    rw [Table.lookup_insert_eq_some,hold]
    rcases lt_trichotomy m s.watches.length with hlt | rfl | hgt
    · rw [List.getElem?_append_left hlt,← hold]
      constructor
      · rintro (⟨-,rfl⟩ | ⟨-,hm⟩)
        · exact absurd hlt (lt_irrefl _)
        · exact hm
      · intro hm
        refine .inr ⟨?_,hm⟩
        rintro rfl
        rw [hnone] at hm
        cases hm
    · rw [List.getElem?_append_right (le_refl _),Nat.sub_self]
      constructor
      · rintro (⟨rfl,-⟩ | ⟨-,w,hw,-⟩)
        · exact ⟨_,rfl,rfl,rfl⟩
        · rw [List.getElem?_eq_none (le_refl _)] at hw
          cases hw
      · rintro ⟨w,hw,rfl,-⟩
        obtain rfl := Option.some.inj hw
        exact .inl ⟨rfl,rfl⟩
    · have hout : (s.watches ++ [⟨uri,0,.polling,false⟩])[m]? = none :=
        List.getElem?_eq_none (by simp; omega)
      simp [hgt.ne',List.getElem?_eq_none hgt.le,hout]

theorem watched_unsubscribe (h : s.Watched) (uri : String) : (s.unsubscribe uri).Watched := by
  unfold unsubscribe
  split
  · rename_i n hn
    intro uri' m
    have hold := h uri' m
    rw [Table.lookup_erase_eq_some,hold]
    simp only [Watches,List.getElem?_modify] at hold ⊢
    rcases eq_or_ne n m with rfl | hne
    · -- the task that is aborted polls for the URI
      obtain ⟨w,hw,huri,-⟩ := (h uri n).mp hn
      simp only [hw,huri,if_true,Option.map_eq_map,Option.map_some,abort]
      constructor
      · rintro ⟨hne,_,hw',rfl,-⟩
        obtain rfl := Option.some.inj hw'
        exact absurd huri hne
      · rintro ⟨_,hw',-,haborted⟩
        obtain rfl := Option.some.inj hw'
        cases haborted
    · simp only [hne,if_false,id_map']
      rw [← hold]
      refine and_iff_right_of_imp fun hm heq => hne ?_
      rw [heq,hn] at hm
      exact Option.some.inj hm
  · exact h

theorem watched_dispatch (h : s.Watched) (r : Request V) (answer : Except Failure V) :
    (dispatch J s r answer).1.Watched := by
  obtain heq | ⟨uri,-,⟨-,heq⟩ | ⟨-,heq⟩⟩ := dispatch_cases J s r answer
  · rwa [heq]
  · rw [heq]
    exact watched_subscribe h uri
  · rw [heq]
    exact watched_unsubscribe h uri

theorem watched_step (h : s.Watched) (hstep : s.step J op = some t) : t.Watched := by
  cases step_moves hstep with
  | blank line hline => exact h
  | request line r hline hr => exact watched_congr h rfl rfl
  | malformed line e hline he => exact watched_congr h rfl rfl
  | dispatched i answer request r hi hr =>
    exact watched_congr (watched_dispatch h request answer) rfl rfl
  | silent i answer request hi hr =>
    exact watched_congr (watched_dispatch h request answer) rfl rfl
  | replied i request r hi hid => exact watched_congr h rfl rfl
  | dropped i request r hi hid => exact watched_congr h rfl rfl
  | polled n events w last hw hstage hlast => exact watched_set h hw rfl rfl rfl rfl
  | waited n events w hw hstage hlast => exact watched_set h hw rfl rfl rfl rfl
  | notified n w hw hstage => exact watched_set h hw rfl rfl rfl rfl
  | cancelled n w hw haborted => exact watched_set h hw rfl rfl rfl rfl
  | written line rest hchannel => exact watched_congr h rfl rfl

/-- How often the client was told that the resource changed. -/
def updates (s : Server V) (uri : String) : Nat := s.lines.countP (Line.updates uri)

/-- What the task saw between two states it told of in between: where it polls with nothing told,
it has seen nothing. -/
def Told (s t : Server V) (w w' : Watch) : Prop :=
  s.updates w.uri ≤ t.updates w.uri ∧ (w'.stage = .polling →
    s.updates w.uri < t.updates w.uri ∨ w.stage = .polling ∧ w'.seq = w.seq)

def Tells (s t : Server V) : Prop :=
  ∀ (h : Nat) (w : Watch), s.watches[h]? = some w →
    ∃ w', t.watches[h]? = some w' ∧ w'.uri = w.uri ∧ s.Told t w w'

theorem tells_refl (s : Server V) : s.Tells s :=
  fun _ w hw => ⟨w,hw,rfl,Nat.le_refl _,fun hstage => .inr ⟨hstage,rfl⟩⟩

theorem Tells.trans {u : Server V} (hst : s.Tells t) (htu : t.Tells u) : s.Tells u := by
  intro h w hw
  obtain ⟨w',hw',huri,hle,hseen⟩ := hst h w hw
  obtain ⟨w'',hw'',huri',hle',hseen'⟩ := htu h w' hw'
  rw [huri] at hle' hseen'
  refine ⟨w'',hw'',huri'.trans huri,hle.trans hle',fun hstage => ?_⟩
  obtain hlt | ⟨hpolls,hseq⟩ := hseen' hstage
  · exact .inl (hle.trans_lt hlt)
  · obtain hlt | ⟨hpolls',hseq'⟩ := hseen hpolls
    · exact .inl (hlt.trans_le hle')
    · exact .inr ⟨hpolls',hseq.trans hseq'⟩

theorem updates_congr (hlines : t.lines = s.lines) : t.updates uri = s.updates uri := by
  rw [updates,updates,hlines]

theorem updates_append (uri : String) {line : Line V} (hlines : t.lines = s.lines ++ [line]) :
    t.updates uri = s.updates uri + if line.updates uri then 1 else 0 := by
  rw [updates,updates,hlines,List.countP_append,List.countP_singleton]

/-- A step that no task of a subscription takes: they are where they were, but that one may be
aborted and one may be new. -/
theorem tells_of_keeps (hle : ∀ uri, s.updates uri ≤ t.updates uri)
    (hkeeps : ∀ (h : Nat) (w : Watch), s.watches[h]? = some w → ∃ w', t.watches[h]? = some w' ∧
      w'.uri = w.uri ∧ w'.stage = w.stage ∧ w'.seq = w.seq) : s.Tells t := by
  intro h w hw
  obtain ⟨w',hw',huri,hstage,hseq⟩ := hkeeps h w hw
  exact ⟨w',hw',huri,hle _,fun hpolls => .inr ⟨hstage ▸ hpolls,hseq⟩⟩

theorem keeps_subscribe (s : Server V) (uri : String) {h : Nat} {w : Watch}
    (hw : s.watches[h]? = some w) : (s.subscribe uri).watches[h]? = some w := by
  unfold subscribe
  split
  · exact hw
  · obtain ⟨hlt,-⟩ := List.getElem?_eq_some_iff.mp hw
    exact (List.getElem?_append_left hlt).trans hw

theorem keeps_unsubscribe (s : Server V) (uri : String) {h : Nat} {w : Watch}
    (hw : s.watches[h]? = some w) : ∃ w', (s.unsubscribe uri).watches[h]? = some w' ∧
      w'.uri = w.uri ∧ w'.stage = w.stage ∧ w'.seq = w.seq := by
  unfold unsubscribe
  split
  · rename_i n hn
    rw [List.getElem?_modify,hw]
    rcases eq_or_ne n h with rfl | hne
    · exact ⟨abort w,by simp,rfl,rfl,rfl⟩
    · exact ⟨w,by simp [hne],rfl,rfl,rfl⟩
  · exact ⟨w,hw,rfl,rfl,rfl⟩

theorem tells_dispatch (s : Server V) (r : Request V) (answer : Except Failure V) :
    s.Tells (dispatch J s r answer).1 := by
  refine tells_of_keeps (fun uri => (updates_congr (lines_dispatch J s r answer)).ge) ?_
  intro h w hw
  obtain heq | ⟨uri,-,⟨-,heq⟩ | ⟨-,heq⟩⟩ := dispatch_cases J s r answer
  · rw [heq]
    exact ⟨w,hw,rfl,rfl,rfl⟩
  · rw [heq]
    exact ⟨w,keeps_subscribe s uri hw,rfl,rfl,rfl⟩
  · rw [heq]
    exact keeps_unsubscribe s uri hw

/-- A step of one of these tasks. -/
theorem tells_set {n : Nat} {w w' : Watch} (hw : s.watches[n]? = some w)
    (hset : t.watches = s.watches.set n w') (hle : ∀ uri, s.updates uri ≤ t.updates uri)
    (huri : w'.uri = w.uri) (htold : s.Told t w w') : s.Tells t := by
  intro m v hv
  rw [hset]
  rcases eq_or_ne n m with rfl | hne
  · obtain ⟨hlt,-⟩ := List.getElem?_eq_some_iff.mp hw
    obtain rfl := Option.some.inj (hw.symm.trans hv)
    exact ⟨w',List.getElem?_set_self hlt,huri,htold⟩
  · exact ⟨v,by rwa [List.getElem?_set_ne hne],rfl,hle _,fun hstage => .inr ⟨hstage,rfl⟩⟩

theorem tells_step (hstep : s.step J op = some t) : s.Tells t := by
  have hframe : ∀ u : Server V, u.lines = s.lines → u.watches = s.watches → s.Tells u :=
    fun u hlines hwatches => tells_of_keeps (fun uri => (updates_congr hlines).ge)
      fun h w hw => ⟨w,hwatches ▸ hw,rfl,rfl,rfl⟩
  have hmore : ∀ (u : Server V) line, u.lines = s.lines ++ [line] →
      ∀ uri, s.updates uri ≤ u.updates uri := by
    intro u line hlines uri
    rw [updates_append uri hlines]
    exact Nat.le_add_right _ _
  cases step_moves hstep with
  | blank line hline => exact tells_refl s
  | request line r hline hr => exact hframe _ rfl rfl
  | malformed line e hline he =>
    refine tells_of_keeps (hmore _ _ (List.append_assoc _ _ _).symm) fun h w hw => ?_
    exact ⟨w,hw,rfl,rfl,rfl⟩
  | dispatched i answer request r hi hr => exact tells_dispatch s request answer
  | silent i answer request hi hr => exact tells_dispatch s request answer
  | replied i request r hi hid =>
    refine tells_of_keeps (hmore _ _ (List.append_assoc _ _ _).symm) fun h w hw => ?_
    exact ⟨w,hw,rfl,rfl,rfl⟩
  | dropped i request r hi hid => exact hframe _ rfl rfl
  | polled n events w last hw hstage hlast =>
    refine tells_set hw rfl (fun uri => Nat.le_refl _) rfl ⟨Nat.le_refl _,fun hpolls => ?_⟩
    cases hpolls
  | waited n events w hw hstage hlast =>
    exact tells_set hw rfl (fun uri => Nat.le_refl _) rfl
      ⟨Nat.le_refl _,fun _ => .inr ⟨hstage,rfl⟩⟩
  | notified n w hw hstage =>
    generalize hu : ({ s with
      watches := s.watches.set n w.goOn
      channel := s.channel ++ [.updated w.uri] } : Server V) = u
    have hlines : u.lines = s.lines ++ [.updated w.uri] := by simp [← hu,lines]
    have hset : u.watches = s.watches.set n w.goOn := by rw [← hu]
    refine tells_set hw hset (hmore u _ hlines) rfl ⟨hmore u _ hlines _,fun _ => .inl ?_⟩
    rw [updates_append w.uri hlines]
    simp [Line.updates]
  | cancelled n w hw haborted =>
    refine tells_set hw rfl (fun uri => Nat.le_refl _) rfl ⟨Nat.le_refl _,fun hpolls => ?_⟩
    cases hpolls
  | written line rest hchannel => exact hframe _ (by simp [lines,hchannel]) rfl

/-! An aborted task tells of at most one more change. -/

/-- The tasks for the URI that were aborted and have not ended. -/
def ending (s : Server V) (uri : String) : Nat := s.watches.countP (Watch.ending uri)

theorem ending_set (uri : String) {n : Nat} {w w' : Watch} (hw : s.watches[n]? = some w)
    (hset : t.watches = s.watches.set n w') : t.ending uri + (if w.ending uri then 1 else 0) =
      s.ending uri + if w'.ending uri then 1 else 0 := by
  obtain ⟨hlt,rfl⟩ := List.getElem?_eq_some_iff.mp hw
  rw [ending,ending,hset,List.countP_set hlt]
  split
  · rename_i hold
    have hpos : 0 < s.watches.countP (Watch.ending uri) :=
      List.countP_pos_iff.mpr ⟨_,List.getElem_mem hlt,hold⟩
    omega
  · omega

theorem ending_subscribe (s : Server V) (uri uri' : String) :
    (s.subscribe uri').ending uri = s.ending uri := by
  unfold subscribe
  split
  · rfl
  · simp [ending,Watch.ending]

theorem modify_eq_set {α : Type} {l : List α} {n : Nat} {a : α} (h : l[n]? = some a) (f : α → α) :
    l.modify n f = l.set n (f a) := by
  obtain ⟨hlt,rfl⟩ := List.getElem?_eq_some_iff.mp h
  refine List.ext_getElem? fun m => ?_
  rw [List.getElem?_modify,List.getElem?_set]
  split
  · rename_i heq
    subst heq
    simp [hlt]
  · simp

/-- To unsubscribe from another URI ends no task of this one. -/
theorem ending_unsubscribe (h : s.Watched) {uri uri' : String} (hne : uri' ≠ uri) :
    (s.unsubscribe uri').ending uri = s.ending uri := by
  unfold unsubscribe
  split
  · rename_i n hn
    obtain ⟨w,hw,huri,-⟩ := (h uri' n).mp hn
    have hset := ending_set uri (t := { s with
      subscriptions := s.subscriptions.erase uri'
      watches := s.watches.modify n abort }) hw (modify_eq_set hw abort)
    simpa [Watch.ending,abort,huri,hne] using hset
  · rfl

theorem ending_dispatch (h : s.Watched) (r : Request V) (answer : Except Failure V)
    (hnone : s.subscriptions.lookup uri = none)
    (hnone' : (dispatch J s r answer).1.subscriptions.lookup uri = none) :
    (dispatch J s r answer).1.ending uri = s.ending uri := by
  obtain heq | ⟨uri',-,⟨-,heq⟩ | ⟨-,heq⟩⟩ := dispatch_cases J s r answer
  · rw [heq]
  · rw [heq,ending_subscribe]
  · rw [heq]
    rcases eq_or_ne uri' uri with rfl | hne
    · simp only [unsubscribe,hnone]
    · exact ending_unsubscribe h hne

theorem ending_step (h : s.Watched) (hnone : s.subscriptions.lookup uri = none)
    (hnone' : t.subscriptions.lookup uri = none) (hstep : s.step J op = some t) :
    t.updates uri + t.ending uri ≤ s.updates uri + s.ending uri := by
  have hanswer : ∀ (u : Server V) r, u.lines = s.lines ++ [.response r] →
      u.updates uri = s.updates uri := by
    intro u r hlines
    simp [updates_append uri hlines,Line.updates]
  cases step_moves hstep with
  | blank line hline => exact Nat.le_refl _
  | request line r hline hr => exact Nat.le_refl _
  | malformed line e hline he =>
    rw [hanswer _ _ (List.append_assoc _ _ _).symm]
    exact Nat.le_refl _
  | dispatched i answer request r hi hr =>
    exact (congrArg₂ (· + ·) (updates_congr (lines_dispatch J s request answer))
      (ending_dispatch h request answer hnone hnone')).le
  | silent i answer request hi hr =>
    exact (congrArg₂ (· + ·) (updates_congr (lines_dispatch J s request answer))
      (ending_dispatch h request answer hnone hnone')).le
  | replied i request r hi hid =>
    rw [hanswer _ _ (List.append_assoc _ _ _).symm]
    exact Nat.le_refl _
  | dropped i request r hi hid => exact Nat.le_refl _
  | polled n events w last hw hstage hlast =>
    have hsame : Watch.ending uri { w with seq := last, stage := .notifying } = w.ending uri := by
      simp [Watch.ending,hstage]
    generalize hu : ({ s with
      watches := s.watches.set n { w with seq := last, stage := .notifying } } : Server V) = u
    have hset := ending_set uri hw (congrArg Server.watches hu.symm)
    have hlines : u.updates uri = s.updates uri := updates_congr (by rw [← hu]; rfl)
    rw [hsame] at hset
    omega
  | waited n events w hw hstage hlast =>
    generalize hu : ({ s with watches := s.watches.set n w.goOn } : Server V) = u
    have hset := ending_set uri hw (congrArg Server.watches hu.symm)
    have hlines : u.updates uri = s.updates uri := updates_congr (by rw [← hu]; rfl)
    rw [Watch.ending_goOn] at hset
    simp only [Bool.false_eq_true,if_false] at hset
    omega
  | notified n w hw hstage =>
    generalize hu : ({ s with
      watches := s.watches.set n w.goOn
      channel := s.channel ++ [.updated w.uri] } : Server V) = u
    have hset := ending_set uri hw (congrArg Server.watches hu.symm)
    have hlines : u.lines = s.lines ++ [.updated w.uri] := by simp [← hu,lines]
    have hupdates := updates_append uri hlines
    rw [Watch.ending_goOn] at hset
    simp only [Line.updates,decide_eq_true_eq,Bool.false_eq_true,if_false] at hset hupdates
    by_cases huri : w.uri = uri
    · -- the task was aborted, and tells for the last time
      have haborted : w.aborted = true := by
        by_contra hlive
        have hsome := (h uri n).mpr ⟨w,hw,huri,by simpa using hlive⟩
        rw [hnone] at hsome
        cases hsome
      have hending : w.ending uri = true := by simp [Watch.ending,huri,haborted,hstage]
      rw [hending,if_pos rfl] at hset
      rw [if_pos huri] at hupdates
      omega
    · rw [if_neg huri] at hupdates
      omega
  | cancelled n w hw haborted =>
    generalize hu : ({ s with
      watches := s.watches.set n { w with stage := .over } } : Server V) = u
    have hset := ending_set uri hw (congrArg Server.watches hu.symm)
    have hlines : u.updates uri = s.updates uri := updates_congr (by rw [← hu]; rfl)
    have hover : Watch.ending uri { w with stage := .over } = false := by simp [Watch.ending]
    rw [hover] at hset
    simp only [Bool.false_eq_true,if_false] at hset
    omega
  | written line rest hchannel =>
    rw [updates_congr (s := s) (by simp [lines,hchannel])]
    exact Nat.le_refl _

theorem updates_le_of_unsubscribed {ops : List (ServerOp V)} (h : s.Watched)
    (hnone : Always (step J) (fun u => u.subscriptions.lookup uri = none) s ops)
    (hrun : exec (step J) s ops = some t) :
    t.updates uri + t.ending uri ≤ s.updates uri + s.ending uri := by
  induction ops generalizing s with
  | nil =>
    obtain rfl := Option.some.inj hrun
    exact Nat.le_refl _
  | cons op ops ih =>
    rw [exec_cons,Option.bind_eq_some_iff] at hrun
    obtain ⟨u,hu,hrun⟩ := hrun
    have hafter : ∀ pre, pre <+: ops → ∀ v, exec (step J) u pre = some v →
        v.subscriptions.lookup uri = none := by
      intro pre hpre v hv
      refine hnone (op :: pre) (List.cons_prefix_cons.mpr ⟨rfl,hpre⟩) v ?_
      rw [exec_cons,hu]
      exact hv
    have hstep := ending_step h (hnone [] List.nil_prefix s rfl)
      (hafter [] List.nil_prefix u rfl) hu
    exact (ih (watched_step h hu) hafter hrun).trans hstep

end Server

/-- In every run: a URI is subscribed to just while a task that was not aborted polls for it, and
that is one alone; a task that is back at its poll and has seen something since told of it since;
and for a URI that is not subscribed to all the time, the client is told at most once by each task
that was aborted before. -/
theorem subscriptions_told {ops ops' : List (ServerOp V)}
    (hs : exec (Server.step J) .start ops = some s) (ht : exec (Server.step J) s ops' = some t) :
    (∀ uri h, s.subscriptions.lookup uri = some h ↔ s.Watches uri h) ∧
    (∀ (h : Nat) (w : Watch), s.watches[h]? = some w →
      ∃ w', t.watches[h]? = some w' ∧ w'.uri = w.uri ∧
        (w'.stage = .polling → w'.seq ≠ w.seq → s.updates w.uri < t.updates w.uri)) ∧
    ∀ uri, Always (Server.step J) (fun u => u.subscriptions.lookup uri = none) s ops' →
      t.updates uri ≤ s.updates uri + s.ending uri := by
  have hwatched := (Always.of_invariant
    (fun (s : Server V) op t hs hstep => Server.watched_step hs hstep)
    Server.watched_start ops).last hs
  have htells : s.Tells t := exec_rel Server.tells_refl (fun s t u => Server.Tells.trans)
    (fun s op t hstep => Server.tells_step hstep) ht
  refine ⟨hwatched,fun h w hw => ?_,fun uri hnone => ?_⟩
  · obtain ⟨w',hw',huri,-,hseen⟩ := htells h w hw
    refine ⟨w',hw',huri,fun hpolls hseq => ?_⟩
    obtain hlt | ⟨-,heq⟩ := hseen hpolls
    · exact hlt
    · exact absurd heq hseq
  · have hle := Server.updates_le_of_unsubscribed hwatched hnone ht
    omega

end subscriptions

/-- The run of `answered_once` goes on: an event comes, and the client unsubscribes while it is
told. -/
def unsubscribing : List (ServerOp String) :=
  [.poll 0 [1,2],.readLine ['u'],.dispatch 0 (.ok ""),.notify 0,.reply 0]

theorem subscriptions_told_aborted : ∃ s t,
    exec (Server.step textJson) .start subscribing = some s ∧
    exec (Server.step textJson) s unsubscribing = some t ∧
    ∀ uri h, s.subscriptions.lookup uri = some h ↔ s.Watches uri h := by
  obtain ⟨s,hs⟩ := Option.isSome_iff_exists.mp
    (show (exec (Server.step textJson) .start subscribing).isSome by decide)
  obtain ⟨t,ht⟩ := Option.isSome_iff_exists.mp
    (show ((exec (Server.step textJson) .start subscribing).bind fun s =>
      exec (Server.step textJson) s unsubscribing).isSome by decide)
  rw [hs,Option.bind_some] at ht
  exact ⟨s,t,hs,ht,(subscriptions_told hs ht).1⟩

end Pyre.Mcp
