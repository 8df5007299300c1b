import Mathlib.Data.List.Pairwise
import Pyre.Base.Run

/-!
Collection in two steps: what is found without a use is put on a list, and what is on the
list is taken later. Users may come in between.
-/

set_option autoImplicit false

namespace Pyre.Base

/-- `taken` tells if what was taken was live, `returned` is a use that has come to a good end. -/
inductive CollectEvent (ι : Type*) where
  | taken (id : ι) (live : Bool)
  | returned (id : ι)
  deriving DecidableEq, Repr

variable {ι : Type*}

/-- Nothing live was taken, and nothing whose use has come to a good end since. The latest
event is the first. -/
def Spares (log : List (CollectEvent ι)) : Prop :=
  (∀ id live, .taken id live ∈ log → live = false) ∧
    log.Pairwise fun new old => ∀ id live, old = .taken id live → new ≠ .returned id

/-- What is on a list is not live, and what was taken has no user left. -/
structure Clear (live inUse : ι → Prop) (listed : List ι) (log : List (CollectEvent ι)) :
    Prop where
  listed : ∀ id ∈ listed, ¬live id
  taken : ∀ id b, .taken id b ∈ log → ¬inUse id
  spares : Spares log

variable {live live' inUse inUse' : ι → Prop} {listed listed' : List ι}
  {log : List (CollectEvent ι)} {id : ι} {b : Bool}

theorem Spares.nil : Spares ([] : List (CollectEvent ι)) :=
  ⟨fun _ _ h => absurd h List.not_mem_nil,List.Pairwise.nil⟩

/-- A run does not spare what it takes before the use of it has come to a good end. -/
theorem not_always_spares {σ α : Type*} {step : σ → α → Option σ}
    {history : σ → List (CollectEvent ι)} {s : σ} {as : List α} (id : ι) (b : Bool)
    (h : (exec step s as).map history = some [.returned id,.taken id b]) :
    ¬Always step (fun s => Spares (history s)) s as := by
  intro hall
  obtain ⟨t,ht,hlog⟩ := Option.map_eq_some_iff.mp h
  have hspares : Spares (history t) := hall.last ht
  rw [hlog] at hspares
  exact (List.pairwise_cons.mp hspares.2).1 _ List.mem_cons_self id b rfl rfl

namespace Clear

theorem start : Clear live inUse [] [] :=
  ⟨fun _ h => absurd h List.not_mem_nil,fun _ _ h => absurd h List.not_mem_nil,Spares.nil⟩

theorem mono (h : Clear live inUse listed log) (hlive : ∀ id ∈ listed, live' id → live id)
    (huse : ∀ id, inUse' id → inUse id ∨ ∀ b, .taken id b ∉ log) :
    Clear live' inUse' listed log where
  listed id hid hl := h.listed id hid (hlive id hid hl)
  taken id b hmem hu := (huse id hu).elim (h.taken id b hmem) fun hnot => hnot b hmem
  spares := h.spares

theorem relist (h : Clear live inUse listed log)
    (hlisted : ∀ id ∈ listed', id ∈ listed ∨ ¬live id) : Clear live inUse listed' log where
  listed id hid := (hlisted id hid).elim (h.listed id) fun hnot => hnot
  taken := h.taken
  spares := h.spares

/-- What is on a list and has no user may be taken. -/
theorem take (h : Clear live inUse listed log) (hid : id ∈ listed) (hlive : b = true → live id)
    (huse : ¬inUse id) : Clear live inUse listed (.taken id b :: log) where
  listed := h.listed
  taken id' b' hmem := by
    rcases List.mem_cons.mp hmem with heq | hmem
    · obtain ⟨rfl,-⟩ := CollectEvent.taken.inj heq
      exact huse
    · exact h.taken id' b' hmem
  spares := by
    refine ⟨fun id' b' hmem => ?_,List.pairwise_cons.mpr ⟨fun _ _ _ _ _ heq => ?_,h.spares.2⟩⟩
    · rcases List.mem_cons.mp hmem with heq | hmem
      · obtain ⟨-,rfl⟩ := CollectEvent.taken.inj heq
        exact Bool.eq_false_iff.mpr fun hb => h.listed id hid (hlive hb)
      · exact h.spares.1 id' b' hmem
    · cases heq

/-- A user may come to a good end. -/
theorem complete (h : Clear live inUse listed log) (huse : inUse id) :
    Clear live inUse listed (.returned id :: log) where
  listed := h.listed
  taken id' b' hmem := h.taken id' b' ((List.mem_cons.mp hmem).resolve_left fun heq => by cases heq)
  spares := by
    refine ⟨fun id' b' hmem => h.spares.1 id' b' ?_,List.pairwise_cons.mpr ⟨?_,h.spares.2⟩⟩
    · exact (List.mem_cons.mp hmem).resolve_left fun heq => by cases heq
    · rintro old hold id' b' rfl heq
      obtain rfl := CollectEvent.returned.inj heq
      exact h.taken id b' hold huse

end Clear

end Pyre.Base
