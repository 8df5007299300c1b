import Mathlib.Logic.Basic

/-!
What is held of panes and windows in several tables, and what it is to take a part out of all
of them and nothing else.
-/

set_option autoImplicit false

namespace Pyre.Base

/-- Panes run at places of `κ`, have identifiers of `π` and are in windows of `ω`; `σ` are the
sessions that list windows, `μ` and `ρ` is what memory and the store have of a window. -/
structure Holdings (κ π ω σ μ ρ : Type) where
  running : κ → Prop
  listed : κ → Prop
  index : π → Option κ
  home : π → Option ω
  memory : ω → Option μ
  store : ω → List ρ
  lists : σ → ω → Prop
  announced : π → Prop
  closed : π → Prop

structure Part (κ π ω : Type) where
  place : κ → Prop
  pane : π → Prop
  window : ω → Prop

namespace Holdings

variable {κ π ω σ μ ρ : Type}

/-- The first three tell what goes and `named` which panes are reported as closed; the others
tell what stays. -/
structure Takes (s t : Holdings κ π ω σ μ ρ) (part : Part κ π ω) : Prop where
  stopped : ∀ k, part.place k → ¬t.running k ∧ ¬t.listed k
  forgotten : ∀ p, part.pane p → t.index p = none ∧ t.home p = none
  removed : ∀ w, part.window w → t.memory w = none ∧ t.store w = [] ∧ ∀ x, ¬t.lists x w
  named : ∀ p, t.closed p → s.closed p ∨ t.announced p
  places : ∀ k, ¬part.place k → (t.running k ↔ s.running k) ∧ (t.listed k ↔ s.listed k)
  panes : ∀ p, ¬part.pane p → t.index p = s.index p ∧ (s.index p ≠ none → t.home p = s.home p)
  windows : ∀ w, ¬part.window w → t.memory w = s.memory w ∧ t.store w = s.store w ∧
    (s.memory w ≠ none → ∀ x, t.lists x w ↔ s.lists x w)

end Holdings

end Pyre.Base
