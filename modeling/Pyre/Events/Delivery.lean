import Pyre.Base.Consecutive
import Pyre.Events.Bus

/-!
What a client of the event bus gets. The bus delivers every event once and in
order as long as the emitters store and broadcast in the order of their numbers;
nothing in the code makes them.
-/

set_option autoImplicit false

namespace Pyre.Events
open Base

/-- The emitter whose turn it is goes first, and a lagged client re-reads only
events that were broadcast before its new receiver existed. -/
def InOrder (s : System) : Action → Prop
  | .push e => ∀ e' ∈ s.bus.taken, e.seq ≤ e'.seq
  | .broadcast e => ∀ e' ∈ s.bus.stored, e.seq ≤ e'.seq
  | .reread =>
    match s.client.poll with
    | .resubscribed rx => ∀ e ∈ s.bus.history s.client.cursor, e ∈ s.bus.sent.take rx
    | _ => True
  | _ => True

/-- At most as many events as the ring holds are stored between two reads of it. -/
def WithinRing (s : System) : Action → Prop
  | .read | .reread => s.bus.published.length - s.client.seen ≤ eventRingCap
  | _ => True

instance (s : System) : DecidablePred (InOrder s) := fun a => by
  cases a with
  | reread =>
    unfold InOrder
    cases s.client.poll <;> infer_instance
  | _ => unfold InOrder; infer_instance

instance (s : System) : DecidablePred (WithinRing s) := fun a => by
  cases a <;> unfold WithinRing <;> infer_instance

/-- What has reached the client is in strictly increasing order and was emitted, and
after a poll everything the poll found stored has reached it. -/
structure ExactlyOnce (s : System) : Prop where
  increasing : (s.client.delivered.map PaneEvent.seq).Pairwise (· < ·)
  emitted : ∀ e ∈ s.client.delivered, e ∈ s.bus.issued
  complete : s.client.poll = .idle →
    ∀ e ∈ s.bus.published.take s.client.seen, e ∈ s.client.delivered

/-- How far the poll has come, in the order of the events. -/
def PollSteady (bus : PaneEventBus) (c : Client) : Prop :=
  match c.poll with
  | .idle => c.seen ≤ c.cursor
  | .subscribed rx => rx ≤ bus.sent.length ∧ c.seen ≤ c.cursor
  | .waiting rx => rx ≤ bus.sent.length ∧ rx ≤ c.cursor ∧ c.seen ≤ c.cursor
  | .resubscribed rx => rx ≤ bus.sent.length ∧ c.seen ≤ c.cursor
  | .coalescing rx collected =>
    rx ≤ bus.sent.length ∧ c.cursor < rx ∧ collected = (bus.sent.take rx).drop c.cursor ∧
      c.seen ≤ rx

/-- The state of a run in order, for a client that started with the cursor `base`. -/
structure Steady (base : Nat) (s : System) : Prop where
  numbered : Consecutive PaneEvent.seq 1 s.bus.issued
  seq : s.bus.seq = s.bus.issued.length
  taken : s.bus.published ++ s.bus.taken = s.bus.issued
  stored : s.bus.sent ++ s.bus.stored = s.bus.published
  ring : s.bus.ring = s.bus.published.drop (s.bus.published.length - eventRingCap)
  low : base ≤ s.client.cursor
  cursor : s.client.cursor ≤ s.bus.published.length ∨ s.client.cursor = base
  delivered : s.client.delivered = (s.bus.published.take s.client.cursor).drop base
  seen : s.client.seen ≤ s.bus.published.length
  poll : PollSteady s.bus s.client

namespace Steady

variable {base : Nat} {s t : System}

theorem published (h : Steady base s) : Consecutive PaneEvent.seq 1 s.bus.published := by
  have hn := h.numbered
  rw [← h.taken] at hn
  exact (Consecutive.append_iff.mp hn).1

theorem sent (h : Steady base s) : Consecutive PaneEvent.seq 1 s.bus.sent := by
  have hn := h.published
  rw [← h.stored] at hn
  exact (Consecutive.append_iff.mp hn).1

theorem issued_le (h : Steady base s) {e : PaneEvent} (he : e ∈ s.bus.issued) :
    e.seq ≤ s.bus.seq := by
  obtain ⟨i,hi⟩ := List.mem_iff_getElem?.mp he
  have hkey := h.numbered.key_getElem? hi
  have hlen := (List.getElem?_eq_some_iff.mp hi).1
  have hseq := h.seq
  omega

theorem sent_le (h : Steady base s) : s.bus.sent.length ≤ s.bus.published.length := by
  rw [← h.stored,List.length_append]
  omega

theorem take_sent (h : Steady base s) {rx : Nat} (hrx : rx ≤ s.bus.sent.length) :
    s.bus.sent.take rx = s.bus.published.take rx := by
  rw [← h.stored,List.take_append_of_le_length hrx]

theorem mem_take_sent (h : Steady base s) {rx : Nat} {e : PaneEvent}
    (he : e ∈ s.bus.sent.take rx) : e.seq ≤ rx := by
  obtain ⟨i,hi⟩ := List.mem_iff_getElem?.mp he
  have hkey := (h.sent.take rx).key_getElem? hi
  have hlen := (List.getElem?_eq_some_iff.mp hi).1
  rw [List.length_take] at hlen
  omega

/-- Read in time, the ring still has all that the client lacks. -/
theorem history (h : Steady base s) (hseen : s.client.seen ≤ s.client.cursor)
    (hring : s.bus.published.length - s.client.seen ≤ eventRingCap) :
    s.bus.history s.client.cursor = s.bus.published.drop s.client.cursor := by
  obtain ⟨k,hk⟩ : ∃ k, k = s.bus.published.length - eventRingCap := ⟨_,rfl⟩
  have hlen : k ≤ s.bus.published.length := by omega
  have hindex : k + (s.client.cursor + 1 - (1 + k)) = s.client.cursor := by omega
  have hring' := h.ring
  rw [← hk] at hring'
  rw [PaneEventBus.history,hring',(h.published.drop k hlen).filter_lt,List.drop_drop,hindex]

theorem pushRing_eq {ring published : List PaneEvent} (e : PaneEvent)
    (h : ring = published.drop (published.length - eventRingCap)) :
    PaneEventBus.pushRing ring e =
      (published ++ [e]).drop ((published ++ [e]).length - eventRingCap) := by
  have hlen : ring.length = published.length - (published.length - eventRingCap) := by
    rw [h,List.length_drop]
  have hcap : 0 < eventRingCap := by decide
  rw [PaneEventBus.pushRing,List.length_append,List.length_singleton]
  by_cases hfull : eventRingCap ≤ ring.length
  · have hindex : published.length + 1 - eventRingCap = published.length - eventRingCap + 1 := by
      omega
    rw [if_pos hfull,h,List.tail_drop,hindex,List.drop_append_of_le_length (by omega)]
  · have hindex : published.length + 1 - eventRingCap = 0 := by omega
    have hzero : published.length - eventRingCap = 0 := by omega
    rw [if_neg hfull,h,hindex,hzero]
    rfl

/-- What the client holds depends on the stored events up to its cursor. -/
theorem delivered_append {published more delivered : List PaneEvent} {cursor : Nat}
    (hd : delivered = (published.take cursor).drop base)
    (hc : cursor ≤ published.length ∨ cursor = base) :
    delivered = ((published ++ more).take cursor).drop base := by
  rcases hc with hc | rfl
  · rw [hd,List.take_append_of_le_length hc]
  · have hnil : ∀ l : List PaneEvent, (l.take cursor).drop cursor = [] := by
      intro l
      rw [List.drop_eq_nil_iff,List.length_take]
      omega
    rw [hd,hnil,hnil]

theorem push (h : Steady base s) {e : PaneEvent} (he : e ∈ s.bus.taken)
    (hfirst : ∀ e' ∈ s.bus.taken, e.seq ≤ e'.seq) :
    Steady base { s with bus := s.bus.push e } := by
  have hn := h.numbered
  rw [← h.taken,Consecutive.append_iff] at hn
  have hturn := hn.2.cons_erase he hfirst
  have hlen : (s.bus.published ++ [e]).length = s.bus.published.length + 1 := by simp
  refine ⟨h.numbered,h.seq,?_,?_,pushRing_eq e h.ring,h.low,?_,?_,?_,h.poll⟩
  · have htaken := h.taken
    rw [← hturn] at htaken
    simpa [PaneEventBus.push] using htaken
  · simp [PaneEventBus.push,← h.stored]
  · rcases h.cursor with hc | hc
    · exact Or.inl (by simp only [PaneEventBus.push,hlen]; omega)
    · exact Or.inr hc
  · exact delivered_append h.delivered h.cursor
  · have hs := h.seen
    simp only [PaneEventBus.push,hlen]
    omega

theorem broadcast (h : Steady base s) {e : PaneEvent} (he : e ∈ s.bus.stored)
    (hfirst : ∀ e' ∈ s.bus.stored, e.seq ≤ e'.seq) :
    Steady base { s with bus := s.bus.broadcast e } := by
  have hn := h.published
  rw [← h.stored,Consecutive.append_iff] at hn
  have hturn := hn.2.cons_erase he hfirst
  have hlen : (s.bus.sent ++ [e]).length = s.bus.sent.length + 1 := by simp
  refine ⟨h.numbered,h.seq,h.taken,?_,h.ring,h.low,h.cursor,h.delivered,h.seen,?_⟩
  · have hstored := h.stored
    rw [← hturn] at hstored
    simpa [PaneEventBus.broadcast] using hstored
  · have hp := h.poll
    unfold PollSteady at hp ⊢
    simp only [PaneEventBus.broadcast,hlen]
    cases hpoll : s.client.poll with
    | idle => simpa only [hpoll] using hp
    | subscribed rx => simp only [hpoll] at hp ⊢; omega
    | waiting rx => simp only [hpoll] at hp ⊢; omega
    | resubscribed rx => simp only [hpoll] at hp ⊢; omega
    | coalescing rx collected =>
      simp only [hpoll] at hp ⊢
      obtain ⟨hrx,hc,hcol,hs⟩ := hp
      rw [List.take_append_of_le_length hrx]
      exact ⟨by omega,hc,hcol,hs⟩

theorem takeNumber (h : Steady base s) (pane : PaneId) (kind : PaneEventKind)
    (state : Option PaneStateKind) (agent : Option AgentKind) :
    Steady base { s with bus := s.bus.take pane kind state agent } := by
  have hseq := h.seq
  refine ⟨?_,?_,?_,h.stored,h.ring,h.low,h.cursor,h.delivered,h.seen,h.poll⟩
  · have hkey : s.bus.seq + 1 = 1 + s.bus.issued.length := by omega
    exact h.numbered.snoc hkey
  · simp [PaneEventBus.take,hseq]
  · simp [PaneEventBus.take,← h.taken]

/-- A reply with the events up to the `k`-th moves the cursor there. -/
theorem reply (h : Steady base s) {k : Nat} {events : List PaneEvent} (c : Client)
    (hc : c.cursor = s.client.cursor) (hd : c.delivered = s.client.delivered)
    (hk : k ≤ s.bus.published.length) (hcursor : c.cursor < k) (hseen : c.seen ≤ k)
    (hevents : events = (s.bus.published.take k).drop c.cursor) :
    Steady base { s with client := c.reply events } := by
  have hlen : events.length = k - c.cursor := by
    rw [hevents,List.length_drop,List.length_take]
    omega
  have hlast : (events.getLast?.map PaneEvent.seq).getD c.cursor = k := by
    have hget : events.getLast? = s.bus.published[k-1]? := by
      rw [List.getLast?_eq_getElem?,hlen,hevents,List.getElem?_drop,List.getElem?_take]
      have hi : c.cursor + (k - c.cursor - 1) = k-1 := by omega
      rw [hi,if_pos (by omega)]
    have hin : k-1 < s.bus.published.length := by omega
    have hsome := List.getElem?_eq_getElem hin
    have hkey := h.published.key_getElem? hsome
    rw [hget,hsome]
    simp only [Option.map_some,Option.getD_some,hkey]
    omega
  have hlow := h.low
  refine ⟨h.numbered,h.seq,h.taken,h.stored,h.ring,?_,?_,?_,?_,?_⟩
  · simp only [Client.reply,hlast]; omega
  · exact Or.inl (by simp only [Client.reply,hlast]; exact hk)
  · simp only [Client.reply,hlast,hd,h.delivered]
    rw [hevents,hc]
    exact take_drop_append_take_drop h.low (by omega)
  · simp only [Client.reply]; omega
  · simp only [Client.reply,PollSteady,hlast]; omega

/-- The poll moves on without a reply. -/
theorem move (h : Steady base s) (c : Client) (hc : c.cursor = s.client.cursor)
    (hd : c.delivered = s.client.delivered) (hseen : c.seen ≤ s.bus.published.length)
    (hpoll : PollSteady s.bus c) : Steady base { s with client := c } :=
  ⟨h.numbered,h.seq,h.taken,h.stored,h.ring,by rw [hc]; exact h.low,by rw [hc]; exact h.cursor,
    by rw [hd,hc]; exact h.delivered,hseen,hpoll⟩

theorem read (h : Steady base s) {rx : Nat} (hp : s.client.poll = .subscribed rx)
    (hring : s.bus.published.length - s.client.seen ≤ eventRingCap)
    (hstep : s.step .read = some t) : Steady base t := by
  have hpoll := h.poll
  rw [PollSteady,hp] at hpoll
  have hsent := h.sent_le
  have hhist := h.history hpoll.2 hring
  simp only [System.step,hp,hhist] at hstep
  by_cases hnew : s.bus.published.drop s.client.cursor = []
  · have hall : s.bus.published.length ≤ s.client.cursor := List.drop_eq_nil_iff.mp hnew
    simp only [hnew,ne_eq,not_true_eq_false,if_false,Option.some.injEq] at hstep
    subst hstep
    exact h.move _ rfl rfl le_rfl ⟨hpoll.1,by simp only; omega,by simp only; omega⟩
  · have hless : s.client.cursor < s.bus.published.length := by
      rw [List.drop_eq_nil_iff] at hnew
      omega
    simp only [hnew,ne_eq,not_false_eq_true,if_true,Option.some.injEq] at hstep
    subst hstep
    exact h.reply _ rfl rfl le_rfl hless le_rfl (by rw [List.take_length])

theorem reread (h : Steady base s) {rx : Nat} (hp : s.client.poll = .resubscribed rx)
    (hring : s.bus.published.length - s.client.seen ≤ eventRingCap)
    (hold : ∀ e ∈ s.bus.history s.client.cursor, e ∈ s.bus.sent.take rx)
    (hstep : s.step .reread = some t) : Steady base t := by
  have hpoll := h.poll
  rw [PollSteady,hp] at hpoll
  have hsent := h.sent_le
  have hhist := h.history hpoll.2 hring
  rw [hhist] at hold
  simp only [System.step,hp,hhist] at hstep
  by_cases hnew : s.bus.published.drop s.client.cursor = []
  · have hall : s.bus.published.length ≤ s.client.cursor := List.drop_eq_nil_iff.mp hnew
    simp only [hnew,ne_eq,not_true_eq_false,if_false,Option.some.injEq] at hstep
    subst hstep
    exact h.move _ rfl rfl le_rfl ⟨hpoll.1,by simp only; omega,by simp only; omega⟩
  · have hless : s.client.cursor < s.bus.published.length := by
      rw [List.drop_eq_nil_iff] at hnew
      omega
    have hrx : rx = s.bus.published.length := by
      -- The last stored event is re-read, so the receiver is behind nothing.
      have hin : s.bus.published.length - 1 < s.bus.published.length := by omega
      have hsome := List.getElem?_eq_getElem hin
      have hlast := h.published.key_getElem? hsome
      have hmem : s.bus.published[s.bus.published.length - 1] ∈
          s.bus.published.drop s.client.cursor := by
        refine List.mem_of_getElem? (i := s.bus.published.length - 1 - s.client.cursor) ?_
        rw [List.getElem?_drop,Nat.add_sub_cancel' (by omega)]
        exact hsome
      have hrx := h.mem_take_sent (hold _ hmem)
      omega
    simp only [hnew,ne_eq,not_false_eq_true,if_true,Option.some.injEq] at hstep
    subst hstep
    refine h.move _ rfl rfl le_rfl ⟨hpoll.1,by simp only; omega,?_,hrx.ge⟩
    rw [h.take_sent hpoll.1,hrx,List.take_length]

theorem recv (h : Steady base s) {rx : Nat} (hp : s.client.poll = .waiting rx)
    (hstep : s.step .recv = some t) : Steady base t := by
  have hpoll := h.poll
  rw [PollSteady,hp] at hpoll
  have hsent := h.sent_le
  simp only [System.step,hp] at hstep
  by_cases hlag : s.bus.lagged rx = true
  · simp only [hlag,if_true,Option.some.injEq] at hstep
    subst hstep
    exact h.move _ rfl rfl h.seen ⟨le_rfl,hpoll.2.2⟩
  · rw [Bool.not_eq_true] at hlag
    simp only [hlag,Bool.false_eq_true,if_false,Option.map_eq_some_iff] at hstep
    obtain ⟨e,he,hstep⟩ := hstep
    have hkey := h.sent.key_getElem? he
    have hlen := (List.getElem?_eq_some_iff.mp he).1
    by_cases hnew : s.client.cursor < e.seq
    · have hcursor : rx = s.client.cursor := by omega
      rw [if_pos hnew] at hstep
      subst hstep
      refine h.move _ rfl rfl h.seen ⟨hlen,by simp only; omega,?_,by simp only; omega⟩
      have hone : (s.bus.sent.take (rx+1)).drop rx = [e] := by
        rw [List.take_add_one,he,List.drop_append_of_le_length (by simp; omega)]
        simp
      rw [← hcursor,hone]
    · rw [if_neg hnew] at hstep
      subst hstep
      exact h.move _ rfl rfl h.seen ⟨hlen,by simp only; omega,hpoll.2.2⟩

theorem collected (h : Steady base s) {rx : Nat} {events : List PaneEvent}
    (hp : s.client.poll = .coalescing rx events) :
    Steady base { s with client := s.client.reply events } := by
  have hpoll := h.poll
  rw [PollSteady,hp] at hpoll
  obtain ⟨hrx,hcursor,hevents,hseen⟩ := hpoll
  have hsent := h.sent_le
  rw [h.take_sent hrx] at hevents
  exact h.reply s.client rfl rfl (by omega) hcursor hseen hevents

theorem coalesce (h : Steady base s) {rx : Nat} {events : List PaneEvent}
    (hp : s.client.poll = .coalescing rx events) (hstep : s.step .coalesce = some t) :
    Steady base t := by
  have hpoll := h.poll
  rw [PollSteady,hp] at hpoll
  obtain ⟨hrx,hcursor,hevents,hseen⟩ := hpoll
  simp only [System.step,hp] at hstep
  by_cases hlag : s.bus.lagged rx = true
  · simp only [hlag,if_true,Option.some.injEq] at hstep
    exact hstep ▸ h.collected hp
  · rw [Bool.not_eq_true] at hlag
    simp only [hlag,Bool.false_eq_true,if_false,Option.map_eq_some_iff] at hstep
    obtain ⟨e,he,hstep⟩ := hstep
    have hkey := h.sent.key_getElem? he
    have hlen := (List.getElem?_eq_some_iff.mp he).1
    rw [if_pos (by omega)] at hstep
    subst hstep
    have htake : (s.bus.sent.take rx).length = rx := by rw [List.length_take]; omega
    refine h.move _ rfl rfl h.seen ⟨hlen,by simp only; omega,?_,by simp only; omega⟩
    rw [List.take_add_one,he,List.drop_append_of_le_length (by rw [htake]; exact hcursor.le),
      hevents]
    rfl

theorem step (h : Steady base s) {a : Action} (hc : InOrder s a ∧ WithinRing s a)
    (hstep : s.step a = some t) : Steady base t := by
  obtain ⟨horder,hring⟩ := hc
  cases a with
  | take pane kind state agent =>
    simp only [System.step,Option.some.injEq] at hstep
    exact hstep ▸ h.takeNumber pane kind state agent
  | push e =>
    simp only [System.step,Option.ite_none_right_eq_some,Option.some.injEq] at hstep
    exact hstep.2 ▸ h.push hstep.1 horder
  | broadcast e =>
    simp only [System.step,Option.ite_none_right_eq_some,Option.some.injEq] at hstep
    exact hstep.2 ▸ h.broadcast hstep.1 horder
  | poll =>
    cases hp : s.client.poll with
    | idle =>
      have hpoll := h.poll
      rw [PollSteady,hp] at hpoll
      simp only [System.step,hp,Option.some.injEq] at hstep
      exact hstep ▸ h.move _ rfl rfl h.seen ⟨le_rfl,hpoll⟩
    | _ => simp [System.step,hp] at hstep
  | read =>
    cases hp : s.client.poll with
    | subscribed rx => exact h.read hp hring hstep
    | _ => simp [System.step,hp] at hstep
  | recv =>
    cases hp : s.client.poll with
    | waiting rx => exact h.recv hp hstep
    | _ => simp [System.step,hp] at hstep
  | reread =>
    cases hp : s.client.poll with
    | resubscribed rx =>
      simp only [InOrder,hp] at horder
      exact h.reread hp hring horder hstep
    | _ => simp [System.step,hp] at hstep
  | timeout =>
    cases hp : s.client.poll with
    | waiting rx =>
      have hpoll := h.poll
      rw [PollSteady,hp] at hpoll
      simp only [System.step,hp,Option.some.injEq] at hstep
      exact hstep ▸ h.move _ rfl (List.append_nil _) h.seen hpoll.2.2
    | _ => simp [System.step,hp] at hstep
  | coalesce =>
    cases hp : s.client.poll with
    | coalescing rx events => exact h.coalesce hp hstep
    | _ => simp [System.step,hp] at hstep
  | finish =>
    cases hp : s.client.poll with
    | coalescing rx events =>
      simp only [System.step,hp,Option.some.injEq] at hstep
      exact hstep ▸ h.collected hp
    | _ => simp [System.step,hp] at hstep

theorem start (cursor : Nat) : Steady cursor (.start cursor) :=
  ⟨trivial,rfl,rfl,rfl,List.drop_nil.symm,le_rfl,Or.inr rfl,by simp [System.start],le_rfl,
    Nat.zero_le _⟩

/-- Once a poll is over, all that it found stored is behind the cursor. -/
theorem complete (h : Steady base s) (hidle : s.client.poll = .idle) {e : PaneEvent}
    (he : e ∈ s.bus.published.take s.client.seen) (hbase : base < e.seq) :
    e ∈ s.client.delivered := by
  have hseen := h.poll
  rw [PollSteady,hidle] at hseen
  obtain ⟨i,hi⟩ := List.mem_iff_getElem?.mp he
  have hlen := (List.getElem?_eq_some_iff.mp hi).1
  rw [List.length_take] at hlen
  rw [List.getElem?_take_of_lt (by omega)] at hi
  have hkey := h.published.key_getElem? hi
  rw [h.delivered]
  refine List.mem_of_getElem? (i := i - base) ?_
  rw [List.getElem?_drop,Nat.add_sub_cancel' (by omega),List.getElem?_take_of_lt (by omega)]
  exact hi

theorem exactlyOnce (h : Steady 0 s) : ExactlyOnce s := by
  have hdelivered := h.delivered
  rw [List.drop_zero] at hdelivered
  refine ⟨?_,?_,?_⟩
  · rw [hdelivered]
    exact (h.published.take _).pairwise
  · intro e he
    rw [hdelivered] at he
    rw [← h.taken]
    exact List.mem_append_left _ (List.mem_of_mem_take he)
  · intro hidle e he
    have hlow := h.published.lower e (List.mem_of_mem_take he)
    exact h.complete hidle he (by omega)

end Steady

/-- The client gets every event once and in order in the runs that store and
broadcast in the order of the numbers. -/
theorem exactlyOnce_of_inOrder (actions : List Action)
    (h : Along System.step (fun s a => InOrder s a ∧ WithinRing s a) (.start 0) actions) :
    Always System.step ExactlyOnce (.start 0) actions := by
  have hsteady := h.invariant (fun _ _ _ hs hc hstep => Steady.step hs hc hstep) (Steady.start 0)
  exact hsteady.mono fun _ hs => hs.exactlyOnce

/-- One event waits for a poll, the next goes to a poll that waits. -/
theorem exactlyOnce_two_events :
    Always System.step ExactlyOnce (.start 0)
      [.take ⟨1⟩ .spawned none none,.push ⟨1,⟨1⟩,.spawned,none,none⟩,
        .broadcast ⟨1,⟨1⟩,.spawned,none,none⟩,.poll,.read,.poll,.read,
        .take ⟨1⟩ .closed none none,.push ⟨2,⟨1⟩,.closed,none,none⟩,
        .broadcast ⟨2,⟨1⟩,.closed,none,none⟩,.recv,.finish] :=
  exactlyOnce_of_inOrder _ (by decide)

/-- Two emitters: the second event is stored first and a poll takes it, so the first
one is behind the cursor when it is stored. -/
theorem event_behind_cursor_lost :
    ¬∀ actions, Along System.step WithinRing (.start 0) actions →
      Always System.step ExactlyOnce (.start 0) actions := by
  intro h
  let first : PaneEvent := ⟨1,⟨1⟩,.spawned,none,none⟩
  let second : PaneEvent := ⟨2,⟨2⟩,.spawned,none,none⟩
  have hrun := h [.take ⟨1⟩ .spawned none none,.take ⟨2⟩ .spawned none none,
    .push second,.broadcast second,.poll,.read,.push first,.broadcast first,
    .poll,.read,.timeout] (by decide)
  have hlost := (hrun.last rfl).complete rfl first (by decide)
  exact absurd hlost (by decide)

end Pyre.Events
