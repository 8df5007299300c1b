import Pyre.Gui.Successor

/-!
How often a session is spawned in the place of the last one that had panes: once, unless another
comes first.
-/

set_option autoImplicit false

namespace Pyre.Gui
open Base

namespace Succession

variable {s t : Succession} {i : Nat} {c : PendingCall} {next : Stretch} {session : SessionId}

structure Counted (s : Succession) : Prop where
  alone : ∀ i j c d, s.calls.lookup i = some c → s.calls.lookup j = some d →
    c.inFlight = true → d.inFlight = true → i = j
  waiting : ∀ i c, s.calls.lookup i = some c → c.inFlight = true → s.fresh = 0
  vacant : Vacant s.daemon → s.fresh = 0
  once : s.fresh ≤ 1
  filled : s.ended = true → s.fresh = 0 → s.others = false → Vacant s.daemon

theorem vacant_iff {daemon : Table SessionId Nat} :
    Vacant daemon ↔ ∀ session n, daemon.lookup session = some n → n = 0 :=
  ⟨fun h session n hn => h ⟨session,n⟩ (Table.lookup_eq_some.mp hn),
    fun h e he => h e.1 e.2 (Table.lookup_eq_some.mpr he)⟩

theorem inFlight_cases (h : c.inFlight = true) :
    c.awaiting = .spawnSession ∧ c.reply = none ∧ c.inPlace = true := by
  unfold PendingCall.inFlight at h
  split at h
  · exact ⟨rfl,rfl,h⟩
  · cases h

theorem inFlight_of (hphase : c.awaiting = .spawnSession) (hreply : c.reply = none)
    (hplace : c.inPlace = true) : c.inFlight = true := by
  obtain ⟨phase,reply,inPlace⟩ := c
  subst hphase hreply hplace
  rfl

/-- A function goes on, and spawns a session in place only if it may. -/
theorem counted_proceed {inPlace : Bool} (h : s.Counted)
    (hspawns : inPlace = true → next.2 = some .spawnSession → s.MaySpawn i) :
    (s.proceed i inPlace next).Counted := by
  have hold : ∀ j c, (s.proceed i inPlace next).calls.lookup j = some c → c.inFlight = true →
      (j = i ∧ s.MaySpawn i) ∨ (j ≠ i ∧ s.calls.lookup j = some c) := by
    intro j c hc hflight
    simp only [proceed] at hc
    split at hc
    · rename_i phase hphase
      rcases Table.lookup_insert_eq_some.mp hc with ⟨rfl,rfl⟩ | ⟨hne,hc⟩
      · obtain ⟨hspawn,-,hplace⟩ := inFlight_cases hflight
        rw [hphase] at hspawns
        exact .inl ⟨rfl,hspawns hplace (congrArg some hspawn)⟩
      · exact .inr ⟨hne,hc⟩
    · exact .inr (Table.lookup_erase_eq_some.mp hc)
  refine ⟨fun j k c d hc hd hcf hdf => ?_,fun j c hc hcf => ?_,h.vacant,h.once,h.filled⟩
  · rcases hold j c hc hcf with ⟨hj,hmay⟩ | ⟨hj,hold_c⟩
    · rcases hold k d hd hdf with ⟨hk,-⟩ | ⟨hk,hold_d⟩
      · exact hj.trans hk.symm
      · have hno := hmay.2 k d hk hold_d
        rw [hdf] at hno
        cases hno
    · rcases hold k d hd hdf with ⟨-,hmay⟩ | ⟨-,hold_d⟩
      · have hno := hmay.2 j c hj hold_c
        rw [hcf] at hno
        cases hno
      · exact h.alone j k c d hold_c hold_d hcf hdf
  · rcases hold j c hc hcf with ⟨-,hmay⟩ | ⟨-,hc⟩
    · exact h.vacant hmay.1
    · exact h.waiting j c hc hcf

/-- A session is spawned where the list has no successor. -/
theorem spawns_afterSessions {store : Store} {after : AfterSessions}
    (hin : s.SessionsInTime i store after)
    (hspawns : (store.afterSessions after).2 = some .spawnSession) : s.MaySpawn i := by
  cases hcandidates : store.candidates after with
  | some sessions =>
    obtain ⟨hfirst,-⟩ := Store.afterSessions_of_candidates hcandidates
    have hmay := hin.1 sessions hcandidates
    unfold MayChoose at hmay
    split at hmay
    · rename_i first hhead
      rw [(hfirst first hhead).2] at hspawns
      cases hspawns
    · exact hmay
  | none =>
    by_cases hnew : ∃ session, after = .newSession session
    · obtain ⟨session,rfl⟩ := hnew
      cases hspawns
    · exact absurd hspawns (Store.afterSessions_of_none hcandidates
        fun session heq => hnew ⟨session,heq⟩).2

theorem adoptIfNone_spawns (store : Store) (session : SessionId) :
    (store.adoptIfNone session).2 ≠ some .spawnSession := by
  unfold Store.adoptIfNone
  split <;> simp [Awaiting.show]

theorem afterReload_spawns (store : Store) (after : AfterReload) :
    (store.afterReload after).2 ≠ some .spawnSession := by
  cases after with
  | adopt session => exact adoptIfNone_spawns store session
  | _ => simp [Store.afterReload]

theorem afterStates_spawns (store : Store) (after : AfterStates) :
    (store.afterStates after).2 ≠ some .spawnSession := by
  cases after with
  | newPaneAction session window => simp [Store.afterStates]
  | spawned session =>
    rw [Store.afterStates]
    split
    · split
      · simp
      · exact adoptIfNone_spawns store _
    · simp
  | closed session pane =>
    rw [Store.afterStates]
    split <;> simp

theorem spawns_resume {phase : Awaiting} {reply : DaemonReply}
    (hs : s.store.resume phase reply = some next) (hin : s.RepliesInTime i phase reply)
    (hspawns : next.2 = some .spawnSession) : s.MaySpawn i := by
  cases phase with
  | listSessions after =>
    cases reply with
    | sessions sessions =>
      obtain rfl := Option.some.inj hs
      exact spawns_afterSessions hin.1 hspawns
    | failed =>
      obtain rfl := Option.some.inj hs
      exact spawns_afterSessions hin hspawns
    | _ => cases hs
  | paneStates after =>
    cases reply <;> cases hs <;> exact absurd hspawns (afterStates_spawns s.store after)
  | listWindows session after =>
    cases reply with
    | windows windows =>
      obtain rfl := Option.some.inj hs
      cases windows <;> cases hspawns
    | failed =>
      obtain rfl := Option.some.inj hs
      exact absurd hspawns (afterReload_spawns s.store after)
    | _ => cases hs
  | windowLayout copy w todo after =>
    cases reply <;> cases hs <;> cases todo <;> cases hspawns
  | ensureStreams after =>
    cases reply <;> cases hs
    exact absurd hspawns (afterReload_spawns s.store after)
  | _ => cases reply <;> cases hs <;> cases hspawns

theorem not_vacant_of_lookup {daemon : Table SessionId Nat} {n : Nat}
    (hn : daemon.lookup session = some n) (hpos : 0 < n) : ¬Vacant daemon := fun h =>
  hpos.ne' (vacant_iff.mp h session n hn)

theorem counted_served {reply : DaemonReply} (h : s.Counted) (hc : s.calls.lookup i = some c)
    (hreply : c.reply = none) : (s.served i c reply).Counted := by
  have hold : ∀ j d, (s.calls.insert i { c with reply := some reply }).lookup j = some d →
      d.inFlight = true → j ≠ i ∧ s.calls.lookup j = some d := by
    intro j d hd hflight
    rcases Table.lookup_insert_eq_some.mp hd with ⟨-,rfl⟩ | hd
    · cases (inFlight_cases hflight).2.1
    · exact hd
  have halone : ∀ j k d e, (s.calls.insert i { c with reply := some reply }).lookup j = some d →
      (s.calls.insert i { c with reply := some reply }).lookup k = some e →
        d.inFlight = true → e.inFlight = true → j = k := fun j k d e hd he hdf hef =>
    h.alone j k d e (hold j d hd hdf).2 (hold k e he hef).2 hdf hef
  unfold served
  simp only
  split
  · rename_i session hphase
    have hlive : ¬Vacant (s.daemon.insert session 1) :=
      not_vacant_of_lookup (AList.lookup_insert _) Nat.one_pos
    by_cases hplace : c.inPlace = true
    · have hflight : c.inFlight = true := inFlight_of hphase hreply hplace
      have hzero : s.fresh = 0 := h.waiting i c hc hflight
      refine ⟨halone,fun j d hd hdf => ?_,fun hvacant => absurd hvacant hlive,?_,fun _ hf _ => ?_⟩
      · obtain ⟨hne,hd⟩ := hold j d hd hdf
        exact absurd (h.alone j i d c hd hc hdf hflight) hne
      · simp [hplace,hzero]
      · simp [hplace] at hf
    · refine ⟨halone,fun j d hd hdf => ?_,fun hvacant => absurd hvacant hlive,?_,fun _ _ ho => ?_⟩
      · simpa [hplace] using h.waiting j d (hold j d hd hdf).2 hdf
      · simpa [hplace] using h.once
      · simp [hplace] at ho
  · exact ⟨halone,fun j d hd hdf => h.waiting j d (hold j d hd hdf).2 hdf,h.vacant,h.once,h.filled⟩

theorem counted_paneEnds {pane : PaneId} {known listed : Bool} {n : Nat} (h : s.Counted)
    (hlive : ¬Vacant s.daemon) : (s.paneEnds session pane known listed n).Counted := by
  unfold paneEnds
  simp only
  split
  · rename_i hvacant
    exact ⟨h.alone,fun _ _ _ _ => rfl,fun _ => rfl,Nat.zero_le 1,fun _ _ _ => hvacant⟩
  · rename_i hnot
    exact ⟨h.alone,h.waiting,fun hvacant => absurd hvacant hnot,h.once,
      fun he hf ho => absurd (h.filled he hf ho) hlive⟩

theorem vacant_erase {daemon : Table SessionId Nat} (hn : daemon.lookup session = some 0) :
    Vacant (daemon.erase session) ↔ Vacant daemon := by
  rw [vacant_iff,vacant_iff]
  constructor
  · intro h other n hother
    by_cases hne : other = session
    · rw [hne,hn] at hother
      exact (Option.some.inj hother).symm
    · exact h other n ((AList.lookup_erase_ne hne).trans hother)
  · intro h other n hother
    exact h other n (Table.lookup_erase_eq_some.mp hother).2

theorem counted_step (h : s.Counted) {e : SuccessionStep} (hin : s.InTime e)
    (ht : s.step e = some t) : t.Counted := by
  cases e with
  | act i action =>
    rw [step,Option.ite_none_right_eq_some,Option.some.injEq] at ht
    obtain ⟨-,rfl⟩ := ht
    exact counted_proceed h fun hplace => absurd hplace Bool.false_ne_true
  | applyEvent =>
    obtain ⟨event,events,-,-,rfl⟩ := of_applyEvent ht
    have hrest : Counted { s with events } := ⟨h.alone,h.waiting,h.vacant,h.once,h.filled⟩
    exact counted_proceed hrest fun hplace => absurd hplace Bool.false_ne_true
  | serve i reply =>
    obtain ⟨c,hc,ht⟩ := Option.bind_eq_some_iff.mp ht
    rw [Option.ite_none_right_eq_some,Option.some.injEq] at ht
    obtain ⟨⟨hnone,-⟩,rfl⟩ := ht
    exact counted_served h hc (Option.isNone_iff_eq_none.mp hnone)
  | resume i =>
    obtain ⟨c,hc,ht⟩ := Option.bind_eq_some_iff.mp ht
    obtain ⟨reply,hreply,ht⟩ := Option.bind_eq_some_iff.mp ht
    obtain ⟨next,hnext,rfl⟩ := Option.map_eq_some_iff.mp ht
    exact counted_proceed h fun _ hspawns => spawns_resume hnext (hin c hc reply hreply) hspawns
  | emit event =>
    obtain rfl := Option.some.inj ht
    exact ⟨h.alone,h.waiting,h.vacant,h.once,h.filled⟩
  | spawned session =>
    rw [step,Option.ite_none_right_eq_some,Option.some.injEq] at ht
    obtain ⟨-,rfl⟩ := ht
    have hlive : ¬Vacant (s.daemon.insert session 1) :=
      not_vacant_of_lookup (AList.lookup_insert _) Nat.one_pos
    exact ⟨h.alone,h.waiting,fun hvacant => absurd hvacant hlive,h.once,fun _ _ ho => by cases ho⟩
  | paneOpened session =>
    obtain ⟨n,hn,rfl⟩ := Option.map_eq_some_iff.mp ht
    have hlive : ¬Vacant (s.daemon.insert session (n+1)) :=
      not_vacant_of_lookup (AList.lookup_insert _) (Nat.succ_pos n)
    refine ⟨h.alone,h.waiting,fun hvacant => absurd hvacant hlive,h.once,fun he hf ho => ?_⟩
    obtain ⟨ho,hpos⟩ := Bool.or_eq_false_iff.mp ho
    have hne : 0 < n := Nat.pos_of_ne_zero (of_decide_eq_false hpos)
    exact absurd (h.filled he hf ho) (not_vacant_of_lookup hn hne)
  | paneEnds session pane known listed =>
    obtain ⟨n,hn,ht⟩ := Option.bind_eq_some_iff.mp ht
    rw [Option.ite_none_left_eq_some,Option.some.injEq] at ht
    obtain ⟨hpos,rfl⟩ := ht
    exact counted_paneEnds h (not_vacant_of_lookup hn (Nat.pos_of_ne_zero hpos))
  | forget session =>
    obtain ⟨n,hn,ht⟩ := Option.bind_eq_some_iff.mp ht
    rw [Option.ite_none_right_eq_some,Option.some.injEq] at ht
    obtain ⟨rfl,rfl⟩ := ht
    exact ⟨h.alone,h.waiting,fun hvacant => h.vacant ((vacant_erase hn).mp hvacant),h.once,
      fun he hf ho => (vacant_erase hn).mpr (h.filled he hf ho)⟩

/-- Once nothing is in progress, nothing else will choose. -/
theorem Attended.sound (h : s.Attended) (hcounted : s.Counted) : s.Sound := by
  have hactive : s.Quiescent → s.ActiveLive := by
    rintro ⟨hevents,hcalls⟩
    rcases h with hlive | ⟨i,c,hc,-⟩ | ⟨event,hevent,-⟩
    · exact hlive
    · exact absurd hc (hcalls i c)
    · rw [hevents] at hevent
      cases hevent
  refine ⟨hcounted.once,hactive,fun hquiet hended => ?_⟩
  obtain ⟨session,-,n,hn,hpos⟩ := hactive hquiet
  cases ho : s.others with
  | true => exact .inr rfl
  | false =>
    have hfresh : s.fresh ≠ 0 := fun hf =>
      not_vacant_of_lookup hn hpos (hcounted.filled hended hf ho)
    exact .inl (Nat.le_antisymm hcounted.once (Nat.one_le_iff_ne_zero.mpr hfresh))

/-- While each choice and each end of the active session is in time, the active session is live
whenever nothing is in progress, and one session is spawned in the place of the last. -/
theorem succession_sound (daemon : Table SessionId Nat) (steps : List SuccessionStep)
    (hin : Along step InTime (start daemon) steps) : Always step Sound (start daemon) steps := by
  have hattended : (start daemon).Attended :=
    .inr (.inl ⟨1,_,AList.lookup_insert _,trivial⟩)
  have hnone : ∀ i c, (start daemon).calls.lookup i = some c → c.inFlight = false := by
    intro i c hc
    rcases Table.lookup_insert_eq_some.mp hc with ⟨-,rfl⟩ | ⟨-,hc⟩
    · rfl
    · cases hc
  have hcounted : (start daemon).Counted := by
    refine ⟨fun i j c d hc _ hcf => ?_,fun i c hc _ => rfl,fun _ => rfl,Nat.zero_le 1,fun he => ?_⟩
    · rw [hnone i c hc] at hcf
      cases hcf
    · cases he
  have hall := hin.invariant (I := fun s => s.Attended ∧ s.Counted)
    (fun s e t h hin ht => ⟨attended_step h.1 hin ht,counted_step h.2 hin ht⟩)
    ⟨hattended,hcounted⟩
  exact hall.mono fun s h => h.1.sound h.2

theorem inTime_resume {phase : Awaiting} {reply : DaemonReply} {inPlace : Bool}
    (hc : s.calls.lookup i = some ⟨phase,some reply,inPlace⟩)
    (h : s.RepliesInTime i phase reply) : s.InTime (.resume i) := by
  intro c hc' reply' hreply
  obtain rfl := Option.some.inj (hc.symm.trans hc')
  obtain rfl := Option.some.inj hreply
  exact h

/-- The last pane ends of the only session, which is still listed when that is applied: another is
spawned in its place. -/
theorem succession_sound_replaced :
    Always step Sound (start (AList.insert ⟨1⟩ 1 ∅)) [.serve 1 (.sessions [⟨⟨1⟩,1⟩]),.resume 1,
      .serve 1 .failed,.resume 1,.paneEnds ⟨1⟩ ⟨1⟩ true true,.applyEvent,
      .serve 0 (.sessions [⟨⟨1⟩,0⟩]),.resume 0,.serve 0 (.session ⟨2⟩),.resume 0] := by
  refine succession_sound _ _ ⟨trivial,fun s₁ h₁ => ?_⟩
  obtain rfl := Option.some.inj h₁
  have hfirst : Live (AList.insert ⟨1⟩ 1 ∅ : Table SessionId Nat) ⟨1⟩ := ⟨1,rfl,Nat.one_pos⟩
  refine ⟨inTime_resume rfl ⟨⟨?_,?_⟩,?_⟩,fun s₂ h₂ => ?_⟩
  · intro sessions hsessions
    obtain rfl := Option.some.inj hsessions
    exact .inl hfirst
  · intro session heq
    cases heq
  · intro hvanished
    cases hvanished
  obtain rfl := Option.some.inj h₂
  refine ⟨fun c hc => .inl ⟨⟨1⟩,rfl,hfirst⟩,fun s₃ h₃ => ?_⟩
  obtain rfl := Option.some.inj h₃
  refine ⟨inTime_resume rfl trivial,fun s₄ h₄ => ?_⟩
  obtain rfl := Option.some.inj h₄
  refine ⟨fun _ _ => .inl ⟨rfl,rfl⟩,fun s₅ h₅ => ?_⟩
  obtain rfl := Option.some.inj h₅
  refine ⟨trivial,fun s₆ h₆ => ?_⟩
  obtain rfl := Option.some.inj h₆
  refine ⟨trivial,fun s₇ h₇ => ?_⟩
  obtain rfl := Option.some.inj h₇
  refine ⟨inTime_resume rfl ⟨⟨?_,?_⟩,?_⟩,fun s₈ h₈ => ?_⟩
  · intro sessions hsessions
    obtain rfl := Option.some.inj hsessions
    refine ⟨by decide,fun j c hj hc => ?_⟩
    have hmem : j ∈ [0] :=
      AList.mem_keys.mp (AList.lookup_isSome.mp (Option.isSome_of_eq_some hc))
    exact absurd (List.mem_singleton.mp hmem) hj
  · intro session heq
    cases heq
  · intro hvanished
    cases hvanished
  obtain rfl := Option.some.inj h₈
  refine ⟨trivial,fun s₉ h₉ => ?_⟩
  obtain rfl := Option.some.inj h₉
  exact ⟨inTime_resume rfl trivial,fun _ _ => trivial⟩

/-- Of two sessions the active one ends and is no longer listed when that is applied. -/
def endedUnlisted : List SuccessionStep :=
  [.serve 1 (.sessions [⟨⟨1⟩,1⟩,⟨⟨2⟩,1⟩]),.resume 1,.serve 1 .failed,.resume 1,
    .paneEnds ⟨1⟩ ⟨1⟩ true false,.applyEvent,.serve 0 (.sessions [⟨⟨2⟩,1⟩]),.resume 0]

/-- The reload has cleared the active session, so that its removal chooses no other. -/
theorem no_successor :
    ¬Always step Sound (start (AList.insert ⟨1⟩ 1 (AList.insert ⟨2⟩ 1 ∅))) endedUnlisted := by
  intro hall
  have hsound : Sound _ := hall _ (List.prefix_refl _) _ rfl
  obtain ⟨session,hactive,-⟩ := hsound.active ⟨rfl,fun i c hc => by cases hc⟩
  cases hactive

end Succession
end Pyre.Gui
