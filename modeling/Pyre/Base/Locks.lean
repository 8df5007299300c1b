import Mathlib.Logic.Relation
import Pyre.Base.Run

/-!
Threads that take and release locks over shared data, in any number and any order, and
when some of them wait for one another in a circle.
-/

set_option autoImplicit false

namespace Pyre.Base

inductive LockMode where
  | shared
  | exclusive
  deriving DecidableEq, Repr

def LockMode.Excludes (m m' : LockMode) : Prop := m = .exclusive ∨ m' = .exclusive

instance (m m' : LockMode) : Decidable (m.Excludes m') := inferInstanceAs (Decidable (_ ∨ _))

/-- A program over locks `L`, data `σ` and answers `ρ` from outside. `act` goes on with the
data as it was before. -/
inductive Prog (L σ ρ : Type) where
  | done
  | acquire (l : L) (m : LockMode) (next : Prog L σ ρ)
  | release (l : L) (next : Prog L σ ρ)
  | act (write : σ → σ) (next : σ → Prog L σ ρ)
  | ask (next : ρ → Prog L σ ρ)

structure Thread (L σ ρ : Type) where
  prog : Prog L σ ρ
  held : List (L × LockMode)

structure Threads (L σ ρ : Type) where
  data : σ
  threads : List (Thread L σ ρ)

/-- `abort` ends a thread where it stands, and its locks are free then. -/
inductive ThreadStep (H ρ : Type) where
  | call (h : H)
  | go (i : Nat)
  | reply (i : Nat) (r : ρ)
  | abort (i : Nat)

variable {L σ ρ H : Type} [DecidableEq L]

/-- The lock the program takes next. -/
def Prog.wants : Prog L σ ρ → Option L
  | .acquire l _ _ => some l
  | .done | .release _ _ | .act _ _ | .ask _ => none

/-- Every lock is taken while locks related to it by `R` are held, none is held in the end.
Where a lock is held, others are taken exclusively, and right after it or a look at the
data. -/
def Prog.Nests (R : L → L → Prop) : Prog L σ ρ → List (L × LockMode) → Prop
  | .done, held => held = []
  | .acquire l m next, held =>
    (∀ e ∈ held, R e.1 l ∧ m = .exclusive) ∧ next.Nests R ((l,m) :: held)
  | .release l next, held =>
    (held.filter (·.1 ≠ l) = [] ∨ next.wants = none) ∧ next.Nests R (held.filter (·.1 ≠ l))
  | .act _ next, held => ∀ s, (next s).Nests R held
  | .ask next, held => ∀ r, (held = [] ∨ (next r).wants = none) ∧ (next r).Nests R held

theorem Prog.Nests.mono {R R' : L → L → Prop} {prog : Prog L σ ρ} {held : List (L × LockMode)}
    (h : prog.Nests R held) (hR : ∀ k l, R k l → R' k l) : prog.Nests R' held := by
  induction prog generalizing held with
  | done => exact h
  | acquire l m next ih => exact ⟨fun e he => ⟨hR _ _ (h.1 e he).1,(h.1 e he).2⟩,ih h.2⟩
  | release l next ih => exact ⟨h.1,ih h.2⟩
  | act write next ih => exact fun s => ih s (h s)
  | ask next ih => exact fun r => ⟨(h r).1,ih r (h r).2⟩

theorem Prog.Nests.wants {R : L → L → Prop} {prog : Prog L σ ρ} {held : List (L × LockMode)}
    (h : prog.Nests R held) : ∀ l ∈ prog.wants, ∀ e ∈ held, R e.1 l := by
  intro l hl e he
  cases prog with
  | acquire l' m next =>
    obtain rfl := Option.some.inj hl
    exact (h.1 e he).1
  | done | release | act | ask => cases hl

namespace Thread

def Blocks (th : Thread L σ ρ) (l : L) (m : LockMode) : Prop := ∃ e ∈ th.held, e.1 = l ∧ m.Excludes e.2

/-- It waits for `l` while it holds `h`. -/
def Nested (th : Thread L σ ρ) (h l : L) : Prop := (∃ e ∈ th.held, e.1 = h) ∧ th.prog.wants = some l

instance (th : Thread L σ ρ) (l : L) (m : LockMode) : Decidable (th.Blocks l m) :=
  inferInstanceAs (Decidable (∃ _ ∈ _, _))

instance (th : Thread L σ ρ) (h l : L) : Decidable (th.Nested h l) :=
  inferInstanceAs (Decidable (_ ∧ _))

end Thread

namespace Threads

def Available (s : Threads L σ ρ) (l : L) (m : LockMode) : Prop := ∀ th ∈ s.threads, ¬th.Blocks l m

instance (s : Threads L σ ρ) (l : L) (m : LockMode) : Decidable (s.Available l m) :=
  inferInstanceAs (Decidable (∀ _ ∈ _, _))

def setThread (s : Threads L σ ρ) (i : Nat) (th : Thread L σ ρ) : Threads L σ ρ :=
  { s with threads := s.threads.set i th }

/-- What a thread does without an answer from outside. -/
def goThread (s : Threads L σ ρ) (i : Nat) (th : Thread L σ ρ) : Option (Threads L σ ρ) :=
  match th.prog with
  | .acquire l m next =>
    if s.Available l m then some (s.setThread i ⟨next,(l,m) :: th.held⟩) else none
  | .release l next => some (s.setThread i ⟨next,th.held.filter (·.1 ≠ l)⟩)
  | .act write next => some { s.setThread i ⟨next s.data,th.held⟩ with data := write s.data }
  | .done | .ask _ => none

def replyThread (s : Threads L σ ρ) (i : Nat) (th : Thread L σ ρ) (r : ρ) :
    Option (Threads L σ ρ) :=
  match th.prog with
  | .ask next => some (s.setThread i ⟨next r,th.held⟩)
  | .done | .acquire _ _ _ | .release _ _ | .act _ _ => none

def step (body : H → Prog L σ ρ) (s : Threads L σ ρ) : ThreadStep H ρ → Option (Threads L σ ρ)
  | .call h => some { s with threads := s.threads ++ [⟨body h,[]⟩] }
  | .go i => s.threads[i]?.bind (s.goThread i)
  | .reply i r => s.threads[i]?.bind fun th => s.replyThread i th r
  | .abort i => s.threads[i]?.map fun _ => s.setThread i ⟨.done,[]⟩

/-- The one waits for a lock that the other holds. -/
def WaitsFor (s : Threads L σ ρ) (i j : Nat) : Prop :=
  ∃ th ∈ s.threads[i]?, ∃ th' ∈ s.threads[j]?, ∃ l m next,
    th.prog = .acquire l m next ∧ th'.Blocks l m

def Deadlocked (s : Threads L σ ρ) : Prop := ∃ i, Relation.TransGen s.WaitsFor i i

/-- All threads nest their locks as `R` says. -/
def Nesting (R : L → L → Prop) (s : Threads L σ ρ) : Prop :=
  ∀ th ∈ s.threads, th.prog.Nests R th.held

variable {body : H → Prog L σ ρ} {R : L → L → Prop} {s t : Threads L σ ρ} {th : Thread L σ ρ}
  {i : Nat}

omit [DecidableEq L] in
/-- What the thread came to in a step. -/
theorem mem_setThread {new x : Thread L σ ρ} (h : x ∈ (s.setThread i new).threads) :
    x ∈ s.threads ∨ x = new := List.mem_or_eq_of_mem_set h

theorem Nesting.setThread (h : s.Nesting R) {prog : Prog L σ ρ} {held : List (L × LockMode)}
    (hth : prog.Nests R held) (i : Nat) : (s.setThread i ⟨prog,held⟩).Nesting R := by
  intro x hx
  rcases mem_setThread hx with hold | rfl
  · exact h x hold
  · exact hth

theorem Nesting.step (hbody : ∀ h, (body h).Nests R []) (hs : s.Nesting R) {a : ThreadStep H ρ}
    (ht : s.step body a = some t) : t.Nesting R := by
  cases a with
  | call h =>
    obtain rfl := Option.some.inj ht
    intro x hx
    rcases List.mem_append.mp hx with hold | hnew
    · exact hs x hold
    · obtain rfl := List.mem_singleton.mp hnew
      exact hbody h
  | go i =>
    obtain ⟨th,hth,ht⟩ := Option.bind_eq_some_iff.mp ht
    have hnest := hs th (List.mem_of_getElem? hth)
    unfold goThread at ht
    split at ht
    · rename_i l m next hprog
      rw [hprog] at hnest
      obtain ⟨-,ht⟩ := Option.ite_none_right_eq_some.mp ht
      obtain rfl := Option.some.inj ht
      exact hs.setThread hnest.2 i
    · rename_i l next hprog
      rw [hprog] at hnest
      obtain rfl := Option.some.inj ht
      exact hs.setThread hnest.2 i
    · rename_i write next hprog
      rw [hprog] at hnest
      obtain rfl := Option.some.inj ht
      exact hs.setThread (hnest s.data) i
    · cases ht
    · cases ht
  | reply i r =>
    obtain ⟨th,hth,ht⟩ := Option.bind_eq_some_iff.mp ht
    have hnest := hs th (List.mem_of_getElem? hth)
    unfold replyThread at ht
    split at ht
    · rename_i next hprog
      rw [hprog] at hnest
      obtain rfl := Option.some.inj ht
      exact hs.setThread (hnest r).2 i
    all_goals cases ht
  | abort i =>
    obtain ⟨th,-,rfl⟩ := Option.map_eq_some_iff.mp ht
    have hdone : (Prog.done : Prog L σ ρ).Nests R [] := rfl
    exact hs.setThread hdone i

omit [DecidableEq L] in
/-- Where locks are taken in the order of a rank, no one waits in a circle. -/
theorem not_deadlocked_of_rank (rank : L → Nat)
    (h : ∀ th ∈ s.threads, ∀ k l, th.Nested k l → rank k < rank l) : ¬s.Deadlocked := by
  have hpath : ∀ i j, Relation.TransGen s.WaitsFor i j →
      ∀ th ∈ s.threads[i]?, ∀ th' ∈ s.threads[j]?, ∀ l l', th.prog.wants = some l →
        th'.prog.wants = some l' → rank l < rank l' := by
    have hedge : ∀ i j, s.WaitsFor i j →
        ∀ th ∈ s.threads[i]?, ∀ th' ∈ s.threads[j]?, ∀ l l', th.prog.wants = some l →
          th'.prog.wants = some l' → rank l < rank l' := by
      rintro i j ⟨x,hx,y,hy,l₀,m,next,hprog,e,he,rfl,-⟩ th hth th' hth' l l' hl hl'
      obtain rfl := Option.some.inj (hx.symm.trans hth)
      obtain rfl := Option.some.inj (hy.symm.trans hth')
      rw [hprog] at hl
      obtain rfl := Option.some.inj hl
      exact h y (List.mem_of_getElem? hy) _ _ ⟨⟨e,he,rfl⟩,hl'⟩
    intro i j hij
    induction hij with
    | single hij => exact hedge i _ hij
    | @tail k j hik hkj ih =>
      intro th hth th' hth' l l' hl hl'
      obtain ⟨x,hx,y,hy,l₀,m,next,hprog,-⟩ := id hkj
      have hx' : x.prog.wants = some l₀ := by rw [hprog]; rfl
      exact (ih th hth x hx l l₀ hl hx').trans (hedge k j hkj x hx th' hth' l₀ l' hx' hl')
  rintro ⟨i,hi⟩
  obtain ⟨j,⟨th,hth,-,-,l,m,next,hprog,-⟩,-⟩ := Relation.TransGen.head'_iff.mp hi
  have hwants : th.prog.wants = some l := by rw [hprog]; rfl
  exact lt_irrefl _ (hpath i i hi th hth th hth l l hwants hwants)

/-! Two locks that are taken in both orders, and none else while another is held. -/

def Pair (a b h l : L) : Prop := h = a ∧ l = b ∨ h = b ∧ l = a

/-- No thread holds what the program wants, and waits for what is held with it. -/
def Clear (s : Threads L σ ρ) (held : List (L × LockMode)) (prog : Prog L σ ρ) : Prop :=
  ∀ e ∈ held, ∀ l ∈ prog.wants, ∀ th ∈ s.threads, ¬th.Nested l e.1

/-- A thread that comes to wait for a lock with another in hand finds no thread that waits
for the latter with the former in hand. -/
def Orderly (s : Threads L σ ρ) : ThreadStep H ρ → Prop
  | .go i => ∀ th ∈ s.threads[i]?, match th.prog with
    | .acquire l m next => s.Available l m → s.Clear ((l,m) :: th.held) next
    | .act _ next => s.Clear th.held (next s.data)
    | .done | .release _ _ | .ask _ => True
  | .call _ | .reply _ _ | .abort _ => True

/-- Two threads each hold the lock the other waits for. -/
def Crossed (a b : L) (s : Threads L σ ρ) : Prop :=
  (∃ th ∈ s.threads, th.Nested a b) ∧ ∃ th ∈ s.threads, th.Nested b a

instance (a b : L) (s : Threads L σ ρ) : Decidable (s.Crossed a b) :=
  inferInstanceAs (Decidable ((∃ _ ∈ _, _) ∧ ∃ _ ∈ _, _))

section TwoLocks

variable {a b : L}

theorem Nesting.pair (hs : s.Nesting (Pair a b)) (hth : th ∈ s.threads) {h l : L}
    (hn : th.Nested h l) : Pair a b h l ∧ ∃ next, th.prog = .acquire l .exclusive next := by
  obtain ⟨⟨e,he,rfl⟩,hwants⟩ := hn
  have hnest := hs th hth
  cases hprog : th.prog with
  | acquire l' m next =>
    rw [hprog] at hnest hwants
    obtain rfl := Option.some.inj hwants
    obtain ⟨hpair,rfl⟩ := hnest.1 e he
    exact ⟨hpair,next,rfl⟩
  | done | release | act | ask =>
    rw [hprog] at hwants
    cases hwants

theorem deadlocked_iff_crossed (hab : a ≠ b) (hs : s.Nesting (Pair a b)) :
    s.Deadlocked ↔ s.Crossed a b := by
  constructor
  · intro hdead
    by_contra hcross
    rcases not_and_or.mp hcross with hnone | hnone
    · refine not_deadlocked_of_rank (fun l => if l = b then 0 else 1) (fun th hth k l hn => ?_) hdead
      rcases (hs.pair hth hn).1 with ⟨rfl,rfl⟩ | ⟨rfl,rfl⟩
      · exact absurd ⟨th,hth,hn⟩ hnone
      · simp [hab]
    · refine not_deadlocked_of_rank (fun l => if l = a then 0 else 1) (fun th hth k l hn => ?_) hdead
      rcases (hs.pair hth hn).1 with ⟨rfl,rfl⟩ | ⟨rfl,rfl⟩
      · simp [hab.symm]
      · exact absurd ⟨th,hth,hn⟩ hnone
  · rintro ⟨⟨x,hx,hnx⟩,⟨y,hy,hny⟩⟩
    obtain ⟨-,nextx,hprogx⟩ := hs.pair hx hnx
    obtain ⟨-,nexty,hprogy⟩ := hs.pair hy hny
    obtain ⟨i,hi⟩ := List.mem_iff_getElem?.mp hx
    obtain ⟨j,hj⟩ := List.mem_iff_getElem?.mp hy
    obtain ⟨e,he,hea⟩ := hnx.1
    obtain ⟨f,hf,hfb⟩ := hny.1
    have hij : s.WaitsFor i j := ⟨x,hi,y,hj,b,_,nextx,hprogx,f,hf,hfb,Or.inl rfl⟩
    have hji : s.WaitsFor j i := ⟨y,hj,x,hi,a,_,nexty,hprogy,e,he,hea,Or.inl rfl⟩
    exact ⟨i,.tail (.single hij) hji⟩

/-- One thread has moved. The two locks are crossed then just if it has come across another. -/
theorem crossed_setThread_iff (hs : s.Nesting (Pair a b)) (hcross : ¬s.Crossed a b)
    {new : Thread L σ ρ} (hold : s.threads[i]? = some th) (hidle : ∀ h l, ¬th.Nested h l)
    (hnew : new.prog.Nests (Pair a b) new.held) (hab : a ≠ b) :
    ¬(s.setThread i new).Crossed a b ↔ s.Clear new.held new.prog := by
  have hlt : i < s.threads.length := (List.getElem?_eq_some_iff.mp hold).1
  have hmem : new ∈ (s.setThread i new).threads := List.mem_set hlt new
  have hkeep : ∀ x ∈ s.threads, ∀ h l, x.Nested h l → x ∈ (s.setThread i new).threads := by
    intro x hx h l hn
    obtain ⟨j,hj⟩ := List.mem_iff_getElem?.mp hx
    have hij : i ≠ j := by
      rintro rfl
      obtain rfl := Option.some.inj (hold.symm.trans hj)
      exact hidle h l hn
    exact List.mem_iff_getElem?.mpr ⟨j,by rw [setThread,List.getElem?_set_ne hij,hj]⟩
  constructor
  · intro hno e he l hl x hx hn
    have hnest : new.Nested e.1 l := ⟨⟨e,he,rfl⟩,hl⟩
    have hx' := hkeep x hx _ _ hn
    rcases ((hs.setThread hnew i).pair hmem hnest).1 with ⟨ha,rfl⟩ | ⟨hb,rfl⟩
    · exact hno ⟨⟨new,hmem,ha ▸ hnest⟩,⟨x,hx',ha ▸ hn⟩⟩
    · exact hno ⟨⟨x,hx',hb ▸ hn⟩,⟨new,hmem,hb ▸ hnest⟩⟩
  · rintro hclear ⟨⟨x,hx,hnx⟩,⟨y,hy,hny⟩⟩
    obtain ⟨e,he,hea⟩ := hnx.1
    obtain ⟨f,hf,hfb⟩ := hny.1
    rcases mem_setThread hx with hxs | rfl
    · rcases mem_setThread hy with hys | rfl
      · exact hcross ⟨⟨x,hxs,hnx⟩,⟨y,hys,hny⟩⟩
      · exact hclear f hf a hny.2 x hxs (hfb ▸ hnx)
    · rcases mem_setThread hy with hys | rfl
      · exact hclear e he b hnx.2 y hys (hea ▸ hny)
      · exact hab (Option.some.inj (hny.2.symm.trans hnx.2))

omit [DecidableEq L] in
/-- One thread has moved and does not wait with a lock in hand. -/
theorem not_crossed_setThread (hcross : ¬s.Crossed a b) {new : Thread L σ ρ}
    (hnew : new.held = [] ∨ new.prog.wants = none) (i : Nat) : ¬(s.setThread i new).Crossed a b := by
  have hold : ∀ x ∈ (s.setThread i new).threads, ∀ k l, x.Nested k l → x ∈ s.threads := by
    rintro x hx k l ⟨⟨e,he,-⟩,hwants⟩
    rcases mem_setThread hx with hold | rfl
    · exact hold
    · rcases hnew with hnil | hnone
      · rw [hnil] at he
        cases he
      · rw [hnone] at hwants
        cases hwants
  rintro ⟨⟨x,hx,hnx⟩,⟨y,hy,hny⟩⟩
  exact hcross ⟨⟨x,hold x hx _ _ hnx,hnx⟩,⟨y,hold y hy _ _ hny,hny⟩⟩

omit [DecidableEq L] in
theorem clear_of_not_wants {held : List (L × LockMode)} {prog : Prog L σ ρ}
    (h : held = [] ∨ prog.wants = none) : s.Clear held prog := by
  intro e he l hl
  rcases h with rfl | hnone
  · cases he
  · rw [hnone] at hl
    cases hl

/-- A thread with both locks wants no other. -/
theorem wants_of_two {l : L} {m : LockMode} {next : Prog L σ ρ} {held : List (L × LockMode)}
    (hab : a ≠ b) (hheld : held ≠ [])
    (hnest : (Prog.acquire l m next).Nests (Pair a b) held) : next.wants = none := by
  obtain ⟨e,he⟩ := List.exists_mem_of_ne_nil held hheld
  cases hw : next.wants with
  | none => rfl
  | some l' =>
    have hfirst := (hnest.1 e he).1
    have hsecond := hnest.2.wants l' hw (l,m) List.mem_cons_self
    have hboth := hnest.2.wants l' hw e (List.mem_cons_of_mem _ he)
    simp only [Pair] at hfirst hsecond hboth
    grind

theorem orderly_iff (body : H → Prog L σ ρ) (hab : a ≠ b) (hs : s.Nesting (Pair a b))
    (hcross : ¬s.Crossed a b) (e : ThreadStep H ρ) :
    s.Orderly e ↔ ∀ t, s.step body e = some t → ¬t.Crossed a b := by
  cases e with
  | call h =>
    refine iff_of_true trivial fun t ht => ?_
    obtain rfl := Option.some.inj ht
    have hold : ∀ x ∈ s.threads ++ [⟨body h,[]⟩], ∀ k l, x.Nested k l → x ∈ s.threads := by
      intro x hx k l hn
      rcases List.mem_append.mp hx with hold | hnew
      · exact hold
      · obtain rfl := List.mem_singleton.mp hnew
        obtain ⟨f,hf,-⟩ := hn.1
        cases hf
    rintro ⟨⟨x,hx,hnx⟩,⟨y,hy,hny⟩⟩
    exact hcross ⟨⟨x,hold x hx _ _ hnx,hnx⟩,⟨y,hold y hy _ _ hny,hny⟩⟩
  | go i =>
    cases hth : s.threads[i]? with
    | none => simp [Orderly,step,hth]
    | some th =>
      have hnest := hs th (List.mem_of_getElem? hth)
      simp only [Orderly,step,hth,Option.mem_def,Option.some.injEq,forall_eq',Option.bind_some]
      cases hprog : th.prog with
      | done | ask => simp [goThread,hprog]
      | acquire l m next =>
        rw [hprog] at hnest
        by_cases hfree : s.Available l m
        · simp only [goThread,hprog,hfree,if_true,forall_const,Option.some.injEq,forall_eq']
          by_cases hheld : th.held = []
          · have hidle : ∀ h k, ¬th.Nested h k := by simp [Thread.Nested,hheld]
            have hnew : (⟨next,(l,m) :: th.held⟩ : Thread L σ ρ).prog.Nests (Pair a b)
                ((l,m) :: th.held) := hnest.2
            exact (crossed_setThread_iff hs hcross hth hidle hnew hab).symm
          · have hnone : next.wants = none := wants_of_two hab hheld hnest
            exact iff_of_true (clear_of_not_wants (Or.inr hnone))
              (not_crossed_setThread hcross (Or.inr hnone) i)
        · simp [goThread,hprog,hfree]
      | release l next =>
        rw [hprog] at hnest
        simp only [goThread,hprog,Option.some.injEq,forall_eq',true_iff]
        exact not_crossed_setThread hcross hnest.1 i
      | act write next =>
        rw [hprog] at hnest
        simp only [goThread,hprog,Option.some.injEq,forall_eq']
        have hidle : ∀ h k, ¬th.Nested h k := by simp [Thread.Nested,hprog,Prog.wants]
        have hnew : (⟨next s.data,th.held⟩ : Thread L σ ρ).prog.Nests (Pair a b) th.held :=
          hnest s.data
        exact (crossed_setThread_iff hs hcross hth hidle hnew hab).symm
  | reply i r =>
    refine iff_of_true trivial fun t ht => ?_
    obtain ⟨th,hth,ht⟩ := Option.bind_eq_some_iff.mp ht
    have hnest := hs th (List.mem_of_getElem? hth)
    cases hprog : th.prog with
    | ask next =>
      rw [hprog] at hnest
      simp only [replyThread,hprog,Option.some.injEq] at ht
      subst ht
      exact not_crossed_setThread hcross (hnest r).1 i
    | done | acquire | release | act => simp [replyThread,hprog] at ht
  | abort i =>
    refine iff_of_true trivial fun t ht => ?_
    obtain ⟨th,hth,rfl⟩ := Option.map_eq_some_iff.mp ht
    exact not_crossed_setThread hcross (Or.inl rfl) i

/-- The runs without a deadlock are those in which no thread comes across another. -/
theorem along_orderly_iff (hab : a ≠ b) (hbody : ∀ h, (body h).Nests (Pair a b) [])
    (hs : s.Nesting (Pair a b)) (hdead : ¬s.Deadlocked) (steps : List (ThreadStep H ρ)) :
    Along (Threads.step body) Orderly s steps ↔
      Always (Threads.step body) (fun t => ¬t.Deadlocked) s steps := by
  refine along_iff_always (I := Nesting (Pair a b))
    (fun s e t hs ht => hs.step hbody ht) (fun s e hs hdead => ?_) hs hdead
  rw [deadlocked_iff_crossed hab hs] at hdead
  rw [orderly_iff body hab hs hdead]
  refine forall₂_congr fun t ht => ?_
  rw [deadlocked_iff_crossed hab (hs.step hbody ht)]

end TwoLocks

end Threads

end Pyre.Base
