import Mathlib.Data.Option.Basic

/-!
Views that are drawn again only where a key of the state has changed. What has changed without the
key may be patched into the view that is there.
-/

set_option autoImplicit false

namespace Pyre.Base

variable {σ κ ν : Type*}

/-- A view that is not drawn at all where the state has it closed, and forgets the key then. -/
structure Guard (σ κ ν : Type*) where
  key : σ → κ
  view : σ → ν
  patch : σ → ν → ν
  closed : σ → Bool
  reset : κ

structure Drawn (κ ν : Type*) where
  last : κ
  shown : Option ν
  deriving DecidableEq, Repr

namespace Guard

variable (g : Guard σ κ ν)

/-- The view as it is without any guard. -/
def plain (s : σ) : Option ν := if g.closed s then none else some (g.view s)

def render [DecidableEq κ] (d : Drawn κ ν) (s : σ) : Drawn κ ν :=
  if g.closed s then ⟨g.reset,none⟩
  else if g.key s = d.last ∧ d.shown.isSome then d
  else ⟨g.key s,some (g.view s)⟩

def patched (d : Drawn κ ν) (s : σ) : Drawn κ ν := { d with shown := d.shown.map (g.patch s) }

/-- On the states in `D`, what the key leaves out is what the patch puts right. -/
structure Determined (D : σ → Prop) : Prop where
  view : ∀ s t u, D s → D t → g.closed s = false → g.closed t = false → g.key s = g.key t →
    g.patch u (g.view s) = g.patch u (g.view t)
  again : ∀ s t v, g.patch t (g.patch s v) = g.patch t v
  fresh : ∀ s, g.patch s (g.view s) = g.view s

/-- What is shown is the view of some state with the key that is kept, but for a patch. -/
def Valid (D : σ → Prop) (d : Drawn κ ν) : Prop :=
  ∀ v, d.shown = some v → ∃ s, D s ∧ g.closed s = false ∧ d.last = g.key s ∧
    ∀ u, g.patch u v = g.patch u (g.view s)

variable {g} {D : σ → Prop} {d : Drawn κ ν} {s : σ}

theorem Valid.blank {last : κ} : g.Valid D ⟨last,none⟩ := fun _ h => by cases h

theorem Valid.render [DecidableEq κ] (h : g.Valid D d) (hs : D s) : g.Valid D (g.render d s) := by
  unfold Guard.render
  split
  · exact Valid.blank
  · rename_i hopen
    split
    · exact h
    · rintro v ⟨⟩
      exact ⟨s,hs,Bool.eq_false_iff.mpr hopen,rfl,fun u => rfl⟩

theorem Valid.patched (hg : g.Determined D) (h : g.Valid D d) (s : σ) :
    g.Valid D (g.patched d s) := by
  intro v hv
  obtain ⟨w,hw,rfl⟩ := Option.map_eq_some_iff.mp hv
  obtain ⟨t,ht,hopen,hlast,hview⟩ := h w hw
  exact ⟨t,ht,hopen,hlast,fun u => (hg.again s u w).trans (hview u)⟩

/-- A guarded view that is drawn and patched is the plain one. -/
theorem Valid.shown [DecidableEq κ] (hg : g.Determined D) (h : g.Valid D d) (hs : D s) :
    (g.patched (g.render d s) s).shown = g.plain s := by
  unfold Guard.render Guard.plain
  split
  · rfl
  · rename_i hopen
    split
    · rename_i hskip
      obtain ⟨hkey,hsome⟩ := hskip
      obtain ⟨v,hv⟩ := Option.isSome_iff_exists.mp hsome
      obtain ⟨t,ht,htopen,hlast,hview⟩ := h v hv
      have hsame := hg.view t s s ht hs htopen (Bool.eq_false_iff.mpr hopen)
        (hlast.symm.trans hkey.symm)
      simp only [Guard.patched,hv,Option.map_some]
      rw [hview,hsame,hg.fresh]
    · simp only [Guard.patched,Option.map_some,hg.fresh]

theorem Valid.shown_of_patch [DecidableEq κ] (hg : g.Determined D) (hpatch : ∀ s v, g.patch s v = v)
    (h : g.Valid D d) (hs : D s) : (g.render d s).shown = g.plain s := by
  rw [← h.shown hg hs,Guard.patched,funext (hpatch s)]
  exact Option.map_id.symm ▸ rfl

/-- Without a patch the key alone has to determine the view. -/
theorem Determined.of_key (hpatch : ∀ s v, g.patch s v = v)
    (h : ∀ s t, D s → D t → g.closed s = false → g.closed t = false → g.key s = g.key t →
      g.view s = g.view t) : g.Determined D where
  view s t u hs ht hcs hct hkey := by rw [h s t hs ht hcs hct hkey]
  again s t v := by rw [hpatch s v]
  fresh s := hpatch s (g.view s)

end Guard

end Pyre.Base
