import Mathlib.Data.List.Infix
import Mathlib.Data.List.Perm.Basic

/-!
Finite runs of a labelled transition function. An action that is not enabled in
a state has no successor, so a run is a list of actions that all find one.
-/

set_option autoImplicit false

namespace Pyre.Base

variable {σ α : Type*}

def exec (step : σ → α → Option σ) : σ → List α → Option σ
  | s, [] => some s
  | s, a :: as => (step s a).bind fun t => exec step t as

@[simp] theorem exec_nil (step : σ → α → Option σ) (s : σ) : exec step s [] = some s := rfl

@[simp] theorem exec_cons (step : σ → α → Option σ) (s : σ) (a : α) (as : List α) :
    exec step s (a :: as) = (step s a).bind fun t => exec step t as := rfl

theorem exec_append (step : σ → α → Option σ) (s : σ) (as bs : List α) :
    exec step s (as ++ bs) = (exec step s as).bind fun t => exec step t bs := by
  induction as generalizing s with
  | nil => simp
  | cons a as ih =>
    simp only [List.cons_append,exec_cons]
    cases step s a with
    | none => rfl
    | some t => exact ih t

theorem exec_snoc {step : σ → α → Option σ} {s t : σ} {as : List α}
    (h : exec step s as = some t) (a : α) : exec step s (as ++ [a]) = step t a := by
  rw [exec_append,h]
  cases hs : step t a <;> simp [hs]

theorem exec_map {β : Type*} (step : σ → α → Option σ) (f : β → α) (s : σ) (bs : List β) :
    exec step s (bs.map f) = exec (fun t b => step t (f b)) s bs := by
  induction bs generalizing s with
  | nil => rfl
  | cons b bs ih => simp only [List.map_cons,exec_cons,ih]

/-- Every action of the run meets `C` in the state it is taken in. -/
def Along (step : σ → α → Option σ) (C : σ → α → Prop) : σ → List α → Prop
  | _, [] => True
  | s, a :: as => C s a ∧ ∀ t, step s a = some t → Along step C t as

/-- `P` holds in every state the run passes through, both ends included. -/
def Always (step : σ → α → Option σ) (P : σ → Prop) (s : σ) (as : List α) : Prop :=
  ∀ pre, pre <+: as → ∀ t, exec step s pre = some t → P t

theorem Always.last {step : σ → α → Option σ} {P : σ → Prop} {s t : σ} {as : List α}
    (h : Always step P s as) (ht : exec step s as = some t) : P t :=
  h as (List.prefix_refl as) t ht

theorem Always.mono {step : σ → α → Option σ} {P Q : σ → Prop} {s : σ} {as : List α}
    (h : Always step P s as) (hPQ : ∀ t, P t → Q t) : Always step Q s as :=
  fun pre hpre t ht => hPQ t (h pre hpre t ht)

instance Along.decidable {step : σ → α → Option σ} {C : σ → α → Prop}
    [∀ s, DecidablePred (C s)] : ∀ s as, Decidable (Along step C s as)
  | _, [] => isTrue trivial
  | s, a :: as =>
    have : Decidable (∀ t, step s a = some t → Along step C t as) :=
      match step s a with
      | none => isTrue (by simp)
      | some t =>
        have : Decidable (Along step C t as) := Along.decidable t as
        decidable_of_iff (Along step C t as) (by simp)
    inferInstanceAs (Decidable (_ ∧ _))

theorem Along.and {step : σ → α → Option σ} {C D : σ → α → Prop} {s : σ} {as : List α}
    (hC : Along step C s as) (hD : Along step D s as) :
    Along step (fun s a => C s a ∧ D s a) s as := by
  induction as generalizing s with
  | nil => trivial
  | cons a as ih => exact ⟨⟨hC.1,hD.1⟩,fun t ht => ih (hC.2 t ht) (hD.2 t ht)⟩

theorem Along.of_append {step : σ → α → Option σ} {C : σ → α → Prop} {s : σ} {as bs : List α}
    (h : Along step C s (as ++ bs)) : Along step C s as := by
  induction as generalizing s with
  | nil => trivial
  | cons a as ih => exact ⟨h.1, fun t ht => ih (h.2 t ht)⟩

theorem Along.drop {step : σ → α → Option σ} {C : σ → α → Prop} {s t : σ} {as bs : List α}
    (h : Along step C s (as ++ bs)) (ht : exec step s as = some t) : Along step C t bs := by
  induction as generalizing s with
  | nil =>
    rw [exec_nil,Option.some.injEq] at ht
    exact ht ▸ h
  | cons a as ih =>
    rw [exec_cons,Option.bind_eq_some_iff] at ht
    obtain ⟨u,hu,ht⟩ := ht
    exact ih (h.2 u hu) ht

theorem Along.of_prefix {step : σ → α → Option σ} {C : σ → α → Prop} {s : σ} {as bs : List α}
    (h : Along step C s bs) (hp : as <+: bs) : Along step C s as := by
  obtain ⟨cs,rfl⟩ := hp
  exact h.of_append

/-- The condition is one on each action and the state before it, so it fails at
a first action or not at all. -/
theorem along_iff {step : σ → α → Option σ} {C : σ → α → Prop} {s : σ} {as : List α} :
    Along step C s as ↔
      ∀ pre a, pre ++ [a] <+: as → ∀ t, exec step s pre = some t → C t a := by
  induction as generalizing s with
  | nil => simp [Along]
  | cons b as ih =>
    constructor
    · intro h pre a hp t ht
      cases pre with
      | nil =>
        obtain rfl : a = b := by simpa using hp
        rw [exec_nil,Option.some.injEq] at ht
        exact ht ▸ h.1
      | cons c pre =>
        obtain ⟨rfl,hq⟩ := List.cons_prefix_cons.mp hp
        rw [exec_cons,Option.bind_eq_some_iff] at ht
        obtain ⟨u,hu,ht⟩ := ht
        exact ih.mp (h.2 u hu) pre a hq t ht
    · intro h
      refine ⟨h [] b (by simp) s rfl, fun u hu => ih.mpr fun pre a hp t ht => ?_⟩
      exact h (b :: pre) a (by simpa using hp) t (by simp [hu,ht])

/-- Conditions that agree wherever an invariant holds agree along a run. -/
theorem along_congr {step : σ → α → Option σ} {C D : σ → α → Prop} {I : σ → Prop}
    (hinv : ∀ s a t, I s → step s a = some t → I t) (h : ∀ s a, I s → (C s a ↔ D s a))
    {s : σ} (hI : I s) (as : List α) : Along step C s as ↔ Along step D s as := by
  induction as generalizing s with
  | nil => exact Iff.rfl
  | cons a as ih => exact and_congr (h s a hI) (forall₂_congr fun t ht => ih (hinv s a t hI ht))

/-- The run rule: what holds at the start and is kept by every step that meets
`C` holds all along a run whose steps all meet it. -/
theorem Along.invariant {step : σ → α → Option σ} {C : σ → α → Prop} {I : σ → Prop}
    (hstep : ∀ s a t, I s → C s a → step s a = some t → I t)
    {s : σ} {as : List α} (h : Along step C s as) (h0 : I s) : Always step I s as := by
  intro pre hpre t ht
  replace h := h.of_prefix hpre
  clear hpre
  induction pre generalizing s with
  | nil =>
    rw [exec_nil,Option.some.injEq] at ht
    exact ht ▸ h0
  | cons a pre ih =>
    rw [exec_cons,Option.bind_eq_some_iff] at ht
    obtain ⟨u,hu,ht⟩ := ht
    exact ih (hstep s a u h0 h.1 hu) ht (h.2 u hu)

theorem Always.of_invariant {step : σ → α → Option σ} {I : σ → Prop}
    (hstep : ∀ s a t, I s → step s a = some t → I t) {s : σ} (h0 : I s) (as : List α) :
    Always step I s as := by
  have hall : Along step (fun _ _ => True) s as := along_iff.mpr fun _ _ _ _ _ => trivial
  exact hall.invariant (fun s a t hi _ h => hstep s a t hi h) h0

/-- A run keeps a relation that its steps keep, between its states. -/
theorem exec_rel {step : σ → α → Option σ} {R : σ → σ → Prop} (hrefl : ∀ s, R s s)
    (htrans : ∀ s t u, R s t → R t u → R s u) (hstep : ∀ s a t, step s a = some t → R s t)
    {s t : σ} {as : List α} (h : exec step s as = some t) : R s t := by
  induction as generalizing s with
  | nil =>
    rw [exec_nil,Option.some.injEq] at h
    exact h ▸ hrefl s
  | cons a as ih =>
    rw [exec_cons,Option.bind_eq_some_iff] at h
    obtain ⟨u,hu,h⟩ := h
    exact htrans s u t (hstep s a u hu) (ih h)

/-- What a run brings in is what its steps bring in. -/
theorem exec_perm {β : Type*} {step : σ → α → Option σ} {I : σ → Prop} {f : σ → List β}
    {g : α → List β} (hinv : ∀ s a t, I s → step s a = some t → I t)
    (hstep : ∀ s a t, I s → step s a = some t → (f t).Perm (f s ++ g a))
    {s t : σ} {as : List α} (hI : I s) (h : exec step s as = some t) :
    (f t).Perm (f s ++ as.flatMap g) := by
  induction as generalizing s with
  | nil =>
    rw [exec_nil,Option.some.injEq] at h
    simp [h]
  | cons a as ih =>
    rw [exec_cons,Option.bind_eq_some_iff] at h
    obtain ⟨u,hu,h⟩ := h
    have hrest := ih (hinv s a u hI hu) h
    rw [List.flatMap_cons,← List.append_assoc]
    exact hrest.trans ((hstep s a u hI hu).append_right _)

/-- The exact run rule: where `C` tells of each step whether it keeps `P`, the runs
that keep `P` are those whose steps all meet `C`. -/
theorem along_iff_always {step : σ → α → Option σ} {C : σ → α → Prop} {I P : σ → Prop}
    (hinv : ∀ s a t, I s → step s a = some t → I t)
    (hC : ∀ s a, I s → P s → (C s a ↔ ∀ t, step s a = some t → P t))
    {s : σ} (hI : I s) (hP : P s) {as : List α} :
    Along step C s as ↔ Always step P s as := by
  constructor
  · intro h
    have hall := h.invariant (I := fun s => I s ∧ P s)
      (fun s a t hs hc ht => ⟨hinv s a t hs.1 ht,(hC s a hs.1 hs.2).mp hc t ht⟩) ⟨hI,hP⟩
    exact hall.mono fun t ht => ht.2
  · intro h
    refine along_iff.mpr fun pre a hpre t ht => ?_
    have hIt := (Always.of_invariant hinv hI pre).last ht
    have hPt := h pre ((List.prefix_append pre [a]).trans hpre) t ht
    refine (hC t a hIt hPt).mpr fun u hu => ?_
    exact h _ hpre u ((exec_snoc ht a).trans hu)

end Pyre.Base
