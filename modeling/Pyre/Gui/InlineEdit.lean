import Pyre.Base.Run
import Pyre.Search.BlockSearch

/-!
The editor that a label turns into for a rename. Surfaces with labels are not drawn again while an
editor is open, which is counted; an editor settles once, by a commit or a cancel.
-/

set_option autoImplicit false

namespace Pyre.Gui.InlineEdit
open Base

/-- `behind` is the editor that stands in the place of the label. -/
structure Label where
  textContent : Text
  editing : Bool
  behind : Option Nat
  attached : Bool
  deriving DecidableEq, Repr

structure Editor where
  label : Nat
  value : Text
  input : Text
  settled : Bool
  deriving DecidableEq, Repr

/-- `focus` is the editor that has the keyboard, and `committed` what was called back for. -/
structure Page where
  labels : List Label
  editors : List Editor
  activeEditors : Nat
  focus : Option Nat
  committed : List (Nat × Text)
  deriving DecidableEq, Repr

/-- `renderAll` comes with the labels whose surfaces have changed and those that are drawn. -/
inductive Event where
  | dblclick (label : Nat) (value : Text)
  | typed (text : Text)
  | enter (editor : Nat)
  | escape (editor : Nat)
  | blur (editor : Nat)
  | renderAll (torn : List Nat) (drawn : List Text)
  deriving DecidableEq, Repr

namespace Page

def empty : Page := ⟨[],[],0,none,[]⟩

variable (p : Page)

def isInlineEditing : Bool := 0 < p.activeEditors

/-- The editor as it was, if it is settled only now. -/
def unsettled (e : Nat) : Option Editor := (p.editors[e]?).filter fun ed => !ed.settled

def markSettled (e : Nat) (ed : Editor) : Page :=
  { p with
    editors := p.editors.set e { ed with settled := true }
    activeEditors := p.activeEditors - 1 }

/-- The editor that leaves the page has the keyboard no more. -/
def restoreLabel (e : Nat) (ed : Editor) : Page :=
  { p with
    labels := p.labels.modify ed.label fun l =>
      { l with editing := false, behind := l.behind.filter fun i => decide (i ≠ e) }
    focus := p.focus.filter fun i => decide (i ≠ e) }

def cancel (e : Nat) : Page :=
  (p.unsettled e).elim p fun ed => (p.markSettled e ed).restoreLabel e ed

/-- A name that is empty or the old one is not called back for. -/
def commit (e : Nat) : Page :=
  (p.unsettled e).elim p fun ed =>
    let next := Search.scriptTrim ed.input
    let q := p.markSettled e ed
    if next = [] ∨ next = Search.scriptTrim ed.value then q.restoreLabel e ed
    else
      let named := { q with
        labels := q.labels.modify ed.label fun l => { l with textContent := next } }
      { named.restoreLabel e ed with committed := p.committed ++ [(e,next)] }

/-- The page with one more editor, which stands in the place of the label. -/
def mounted (label : Nat) (value : Text) : Page :=
  { p with
    labels := p.labels.modify label fun l =>
      { l with editing := true, behind := some p.editors.length }
    editors := p.editors ++ [⟨label,value,value,false⟩]
    activeEditors := p.activeEditors+1 }

/-- The editor that had the keyboard loses it to the new one, and so commits. -/
def beginInlineEdit (label : Nat) (value : Text) : Page :=
  match p.labels[label]? with
  | none => p
  | some l =>
    if l.behind.isSome ∨ l.editing then p
    else
      let q := p.mounted label value
      { p.focus.elim q q.commit with focus := some p.editors.length }

def renderAll (torn : List Nat) (drawn : List Text) : Page :=
  if p.isInlineEditing then p
  else { p with
    labels := (p.labels.mapIdx fun i l => { l with attached := l.attached && decide (i ∉ torn) }) ++
      drawn.map fun t => ⟨t,false,none,true⟩ }

/-- A click reaches only what is on the page, and typing only what has the keyboard. -/
def step : Event → Option Page
  | .dblclick label value =>
    if (p.labels[label]?).any Label.attached then some (p.beginInlineEdit label value) else none
  | .typed text => p.focus.map fun e =>
      { p with editors := p.editors.modify e fun ed => { ed with input := text } }
  | .enter e => some (p.commit e)
  | .escape e => some (p.cancel e)
  | .blur e => some { p.commit e with focus := p.focus.filter fun i => decide (i ≠ e) }
  | .renderAll torn drawn => some (p.renderAll torn drawn)

/-- The editor has not settled. -/
def Open (e : Nat) : Prop := (p.unsettled e).isSome

/-- What holds while editors come and go, of which those in `O` may be open. -/
structure Sound (O : Nat → Prop) : Prop where
  counted : p.activeEditors = p.editors.countP fun ed => !ed.settled
  only : ∀ e, p.Open e → O e
  behind : ∀ (i : Nat) l e, p.labels[i]? = some l →
    (l.behind = some e ↔ ∃ ed, p.unsettled e = some ed ∧ ed.label = i)
  editing : ∀ (i : Nat) l, p.labels[i]? = some l → l.editing = l.behind.isSome
  kept : ∀ e ed, p.unsettled e = some ed → ∃ l, p.labels[ed.label]? = some l ∧ l.attached
  focused : ∀ e, p.focus = some e → p.Open e
  once : (p.committed.map Prod.fst).Nodup
  named : ∀ c ∈ p.committed, ∃ ed, p.editors[c.1]? = some ed ∧ ed.settled ∧
    c.2 = Search.scriptTrim ed.input ∧ c.2 ≠ [] ∧ c.2 ≠ Search.scriptTrim ed.value

/-- What a commit and a cancel do to an editor that is open. -/
structure Settles (q : Page) (e : Nat) (ed : Editor) (f : Label → Label) : Prop where
  editors : q.editors = p.editors.set e { ed with settled := true }
  active : q.activeEditors = p.activeEditors - 1
  labels : q.labels = p.labels.modify ed.label f
  editing : ∀ l, (f l).editing = false
  behind : ∀ l, (f l).behind = l.behind.filter fun i => decide (i ≠ e)
  attached : ∀ l, (f l).attached = l.attached
  focus : q.focus = p.focus.filter fun i => decide (i ≠ e)
  committed : q.committed = p.committed ∨ ∃ next, q.committed = p.committed ++ [(e,next)] ∧
    next = Search.scriptTrim ed.input ∧ next ≠ [] ∧ next ≠ Search.scriptTrim ed.value

variable {p} {q : Page} {e e' : Nat} {ed ed' : Editor} {O : Nat → Prop}

theorem unsettled_eq_some :
    p.unsettled e = some ed ↔ p.editors[e]? = some ed ∧ ed.settled = false := by
  simp [unsettled,Option.filter_eq_some_iff]

theorem settles_cancel (h : p.unsettled e = some ed) : ∃ f, p.Settles (p.cancel e) e ed f := by
  rw [cancel,h]
  exact ⟨_,rfl,rfl,rfl,fun _ => rfl,fun _ => rfl,fun _ => rfl,rfl,.inl rfl⟩

theorem settles_commit (h : p.unsettled e = some ed) : ∃ f, p.Settles (p.commit e) e ed f := by
  simp only [commit,h,Option.elim_some]
  split
  · exact ⟨_,rfl,rfl,rfl,fun _ => rfl,fun _ => rfl,fun _ => rfl,rfl,.inl rfl⟩
  · rename_i hnext
    obtain ⟨hne,hnew⟩ := not_or.mp hnext
    exact ⟨_,rfl,rfl,List.modify_modify_eq _ _ _ _,fun _ => rfl,fun _ => rfl,fun _ => rfl,rfl,
      .inr ⟨_,rfl,rfl,hne,hnew⟩⟩

theorem cancel_of_settled (h : ¬ p.Open e) : p.cancel e = p := by
  rw [cancel,Option.not_isSome_iff_eq_none.mp h,Option.elim_none]

theorem commit_of_settled (h : ¬ p.Open e) : p.commit e = p := by
  rw [commit,Option.not_isSome_iff_eq_none.mp h,Option.elim_none]

section settles

variable {f : Label → Label}

theorem Settles.unsettled_self (hs : p.Settles q e ed f) (hed : p.unsettled e = some ed) :
    q.unsettled e = none := by
  have hlt := (List.getElem?_eq_some_iff.mp (unsettled_eq_some.mp hed).1).1
  rw [unsettled,hs.editors,List.getElem?_set_self hlt]
  rfl

theorem Settles.unsettled_of_ne (hs : p.Settles q e ed f) (h : e' ≠ e) :
    q.unsettled e' = p.unsettled e' := by
  rw [unsettled,hs.editors,List.getElem?_set_ne h.symm]
  rfl

theorem Settles.unsettled_iff (hs : p.Settles q e ed f) (hed : p.unsettled e = some ed) :
    q.unsettled e' = some ed' ↔ e' ≠ e ∧ p.unsettled e' = some ed' := by
  by_cases he : e' = e
  · subst he
    simp [hs.unsettled_self hed]
  · simp [he,hs.unsettled_of_ne he]

/-- A label of the page after is the one before, changed if it is the one edited. -/
theorem Settles.label (hs : p.Settles q e ed f) {i : Nat} {l : Label} (hl : q.labels[i]? = some l) :
    ∃ m, p.labels[i]? = some m ∧ l = if ed.label = i then f m else m := by
  rw [hs.labels,List.getElem?_modify] at hl
  obtain ⟨m,hm,rfl⟩ := Option.map_eq_some_iff.mp hl
  exact ⟨m,hm,by split <;> simp_all⟩

theorem Settles.sound (hs : p.Settles q e ed f) (hed : p.unsettled e = some ed) (h : p.Sound O) :
    q.Sound fun i => O i ∧ i ≠ e := by
  obtain ⟨hmem,hopen⟩ := unsettled_eq_some.mp hed
  obtain ⟨hlt,hget⟩ := List.getElem?_eq_some_iff.mp hmem
  refine ⟨?_,fun i hi => ?_,fun i l j hl => ?_,fun i l hl => ?_,fun j k hj => ?_,fun i hi => ?_,
    ?_,?_⟩
  · rw [hs.active,hs.editors,List.countP_set hlt,hget,hopen,h.counted]
    simp
  · obtain ⟨k,hk⟩ := Option.isSome_iff_exists.mp hi
    obtain ⟨hne,hk⟩ := (hs.unsettled_iff hed).mp hk
    exact ⟨h.only i (Option.isSome_iff_exists.mpr ⟨k,hk⟩),hne⟩
  · obtain ⟨m,hm,rfl⟩ := hs.label hl
    have hbehind := h.behind i m j hm
    simp only [hs.unsettled_iff hed]
    split
    · rename_i hi
      rw [hs.behind,Option.filter_eq_some_iff,hbehind,decide_eq_true_eq]
      exact ⟨fun ⟨⟨k,hk,hki⟩,hj⟩ => ⟨k,⟨hj,hk⟩,hki⟩,fun ⟨k,⟨hj,hk⟩,hki⟩ => ⟨⟨k,hk,hki⟩,hj⟩⟩
    · rename_i hi
      rw [hbehind]
      refine ⟨fun ⟨k,hk,hki⟩ => ⟨k,⟨?_,hk⟩,hki⟩,fun ⟨k,⟨_,hk⟩,hki⟩ => ⟨k,hk,hki⟩⟩
      rintro rfl
      obtain rfl : ed = k := Option.some.inj (hed.symm.trans hk)
      exact hi hki
  · obtain ⟨m,hm,rfl⟩ := hs.label hl
    have hediting := h.editing i m hm
    split
    · rename_i hi
      have hbehind := (h.behind i m e hm).mpr ⟨ed,hed,hi⟩
      rw [hs.editing,hs.behind,hbehind]
      simp
    · exact hediting
  · obtain ⟨-,hj⟩ := (hs.unsettled_iff hed).mp hj
    obtain ⟨l,hl,hattached⟩ := h.kept j k hj
    refine ⟨if ed.label = k.label then f l else l,?_,?_⟩
    · rw [hs.labels,List.getElem?_modify,hl]
      split <;> rfl
    · split
      · exact (hs.attached l).trans hattached
      · exact hattached
  · rw [hs.focus,Option.filter_eq_some_iff,decide_eq_true_eq] at hi
    rw [Open,hs.unsettled_of_ne hi.2]
    exact h.focused i hi.1
  · obtain heq | ⟨next,heq,-⟩ := hs.committed
    · exact heq ▸ h.once
    · rw [heq,List.map_append,List.map_cons,List.map_nil,List.nodup_append]
      refine ⟨h.once,List.nodup_singleton _,?_⟩
      rintro i hi j hj rfl
      obtain ⟨c,hc,rfl⟩ := List.mem_map.mp hi
      obtain ⟨k,hk,hsettled,-⟩ := h.named c hc
      obtain rfl := List.mem_singleton.mp hj
      rw [hmem,Option.some.injEq] at hk
      subst hk
      rw [hopen] at hsettled
      cases hsettled
  · have hold : ∀ c ∈ p.committed, ∃ k, q.editors[c.1]? = some k ∧ k.settled ∧
        c.2 = Search.scriptTrim k.input ∧ c.2 ≠ [] ∧ c.2 ≠ Search.scriptTrim k.value := by
      intro c hc
      obtain ⟨k,hk,hsettled,hname⟩ := h.named c hc
      refine ⟨k,?_,hsettled,hname⟩
      rw [hs.editors,List.getElem?_set_ne,hk]
      rintro rfl
      rw [hmem,Option.some.injEq] at hk
      subst hk
      rw [hopen] at hsettled
      cases hsettled
    obtain heq | ⟨next,heq,hname⟩ := hs.committed
    · exact heq ▸ hold
    · rw [heq]
      intro c hc
      obtain hc | hc := List.mem_append.mp hc
      · exact hold c hc
      · obtain rfl := List.mem_singleton.mp hc
        exact ⟨{ ed with settled := true },by rw [hs.editors,List.getElem?_set_self hlt],rfl,hname⟩

end settles

section mounts

variable {label : Nat} {value : Text}

theorem unsettled_mounted : (p.mounted label value).unsettled e =
    if e = p.editors.length then some ⟨label,value,value,false⟩ else p.unsettled e := by
  unfold unsettled mounted
  split
  · rename_i he
    rw [he,List.getElem?_concat_length]
    rfl
  · rename_i he
    by_cases hlt : e < p.editors.length
    · rw [List.getElem?_append_left hlt]
    · rw [List.getElem?_eq_none (by simpa using by omega),List.getElem?_eq_none (by omega)]

theorem lt_of_open (h : p.Open e) : e < p.editors.length := by
  obtain ⟨ed,hed⟩ := Option.isSome_iff_exists.mp h
  exact (List.getElem?_eq_some_iff.mp (unsettled_eq_some.mp hed).1).1

theorem open_mounted : (p.mounted label value).Open e ↔ e = p.editors.length ∨ p.Open e := by
  rw [Open,unsettled_mounted]
  split
  · simp_all
  · simp_all [Open]

/-- An editor is mounted in the place of a label that is shown. -/
theorem Sound.mounted (h : p.Sound O) {l : Label} (hl : p.labels[label]? = some l)
    (hshown : l.behind = none) (hattached : l.attached) :
    (p.mounted label value).Sound fun i => i = p.editors.length ∨ O i := by
  have hlabel : ∀ i m, (p.mounted label value).labels[i]? = some m → ∃ k, p.labels[i]? = some k ∧
      m = if label = i then { k with editing := true, behind := some p.editors.length } else k := by
    intro i m hm
    simp only [Page.mounted,List.getElem?_modify] at hm
    obtain ⟨k,hk,rfl⟩ := Option.map_eq_some_iff.mp hm
    exact ⟨k,hk,by split <;> simp_all⟩
  have hnone : ¬ p.Open p.editors.length := fun hopen => (lt_of_open hopen).false
  refine ⟨?_,fun i hi => (open_mounted.mp hi).imp_right (h.only i),fun i m e hm => ?_,
    fun i m hm => ?_,fun e ed hed => ?_,fun i hi => open_mounted.mpr (.inr (h.focused i hi)),
    h.once,fun c hc => ?_⟩
  · simp [Page.mounted,h.counted]
  · obtain ⟨k,hk,rfl⟩ := hlabel i m hm
    rw [unsettled_mounted]
    split
    · rename_i hi
      subst hi
      obtain rfl := Option.some.inj (hl.symm.trans hk)
      have hidle : ∀ ed, p.unsettled e = some ed → ed.label ≠ label := fun ed hed hlab => by
        have := (h.behind label l e hl).mpr ⟨ed,hed,hlab⟩
        rw [hshown] at this
        cases this
      split
      · rename_i he
        simp [he]
      · rename_i he
        refine ⟨fun heq => absurd (Option.some.inj heq).symm he,?_⟩
        rintro ⟨ed,hed,hlab⟩
        exact absurd hlab (hidle ed hed)
    · rename_i hi
      rw [h.behind i k e hk]
      split
      · rename_i he
        subst he
        refine ⟨?_,fun ⟨ed,hed,hlab⟩ => ?_⟩
        · rintro ⟨ed,hed,-⟩
          exact absurd (Option.isSome_iff_exists.mpr ⟨ed,hed⟩) hnone
        · obtain rfl := Option.some.inj hed
          exact absurd hlab hi
      · rfl
  · obtain ⟨k,hk,rfl⟩ := hlabel i m hm
    split
    · rfl
    · exact h.editing i k hk
  · have hmounted : ∀ (i : Nat) (m : Label), p.labels[i]? = some m → m.attached →
        ∃ m' : Label, (p.mounted label value).labels[i]? = some m' ∧ m'.attached := by
      intro i m hm hatt
      simp only [Page.mounted,List.getElem?_modify,hm]
      exact ⟨_,rfl,by split <;> exact hatt⟩
    rw [unsettled_mounted] at hed
    split at hed
    · obtain rfl := Option.some.inj hed
      exact hmounted label l hl hattached
    · obtain ⟨m,hm,hatt⟩ := h.kept e ed hed
      exact hmounted ed.label m hm hatt
  · obtain ⟨ed,hed,hrest⟩ := h.named c hc
    have hlt := (List.getElem?_eq_some_iff.mp hed).1
    exact ⟨ed,by rw [Page.mounted,List.getElem?_append_left hlt,hed],hrest⟩

end mounts

/-- Only the editor that has the keyboard is open. -/
def Steady (p : Page) : Prop := p.Sound fun e => p.focus = some e

theorem Sound.focusOn (h : q.Sound O) (honly : ∀ i, O i → i = e) (hopen : q.Open e) :
    Steady { q with focus := some e } :=
  { h with
    only := fun i hi => congrArg some (honly i (h.only i hi)).symm
    focused := fun _ hi => Option.some.inj hi ▸ hopen }

theorem Steady.beginInlineEdit (h : p.Steady) {label : Nat} {value : Text}
    (hattached : (p.labels[label]?).any Label.attached) :
    (p.beginInlineEdit label value).Steady := by
  unfold Page.beginInlineEdit
  split
  · exact h
  · rename_i l hl
    rw [hl] at hattached
    split
    · exact h
    · rename_i hidle
      have hshown : l.behind = none := Option.not_isSome_iff_eq_none.mp (not_or.mp hidle).1
      have hm : (p.mounted label value).Sound _ := h.mounted hl hshown hattached
      have hnew : (p.mounted label value).Open p.editors.length := open_mounted.mpr (.inl rfl)
      cases hfocus : p.focus with
      | none =>
        refine hm.focusOn (fun _ hi => hi.resolve_right ?_) hnew
        rw [hfocus]
        exact (Option.some_ne_none _).symm
      | some f =>
        have hlt := lt_of_open (h.focused f hfocus)
        have hopen : (p.mounted label value).Open f := open_mounted.mpr (.inr (h.focused f hfocus))
        obtain ⟨ed,hed⟩ := Option.isSome_iff_exists.mp hopen
        obtain ⟨g,hs⟩ := settles_commit hed
        refine (hs.sound hed hm).focusOn (fun _ hi => hi.1.resolve_right fun hf => hi.2 ?_) ?_
        · exact Option.some.inj (hf.symm.trans hfocus)
        · rw [Open,hs.unsettled_of_ne hlt.ne']
          exact hnew

theorem Steady.settles {f : Label → Label} (h : p.Steady) (hs : p.Settles q e ed f)
    (hed : p.unsettled e = some ed) : q.Steady := by
  refine { hs.sound hed h with only := fun i hi => ?_ }
  obtain ⟨hfocus,hne⟩ := (hs.sound hed h).only i hi
  rw [hs.focus,hfocus]
  simpa using hne

theorem Steady.commit (h : p.Steady) (e : Nat) : (p.commit e).Steady := by
  by_cases hopen : p.Open e
  · obtain ⟨ed,hed⟩ := Option.isSome_iff_exists.mp hopen
    obtain ⟨f,hs⟩ := settles_commit hed
    exact h.settles hs hed
  · exact (commit_of_settled hopen).symm ▸ h

theorem Steady.cancel (h : p.Steady) (e : Nat) : (p.cancel e).Steady := by
  by_cases hopen : p.Open e
  · obtain ⟨ed,hed⟩ := Option.isSome_iff_exists.mp hopen
    obtain ⟨f,hs⟩ := settles_cancel hed
    exact h.settles hs hed
  · exact (cancel_of_settled hopen).symm ▸ h

theorem not_open_commit : ¬ (p.commit e).Open e := by
  by_cases hopen : p.Open e
  · obtain ⟨ed,hed⟩ := Option.isSome_iff_exists.mp hopen
    obtain ⟨f,hs⟩ := settles_commit hed
    rw [Open,hs.unsettled_self hed]
    exact Bool.false_ne_true
  · exact (commit_of_settled hopen).symm ▸ hopen

theorem Steady.blur (h : p.Steady) (e : Nat) :
    Steady { p.commit e with focus := p.focus.filter fun i => decide (i ≠ e) } := by
  have hfocus : (p.commit e).focus = some e ∨
      (p.commit e).focus = p.focus.filter fun i => decide (i ≠ e) := by
    by_cases hopen : p.Open e
    · obtain ⟨ed,hed⟩ := Option.isSome_iff_exists.mp hopen
      obtain ⟨f,hs⟩ := settles_commit hed
      exact .inr hs.focus
    · rw [commit_of_settled hopen]
      right
      cases hf : p.focus with
      | none => simp
      | some i =>
        have hne : i ≠ e := fun he => hopen (he ▸ h.focused i hf)
        rw [Option.filter_some,if_pos (decide_eq_true hne)]
  obtain hf | hf := hfocus
  · exact absurd ((h.commit e).focused e hf) not_open_commit
  · rw [← hf]
    exact h.commit e

theorem unsettled_of_idle (h : p.Sound O) (hidle : p.isInlineEditing = false) :
    p.unsettled e = none := by
  have hzero : p.activeEditors = 0 := by simpa [isInlineEditing] using hidle
  rw [h.counted,List.countP_eq_zero] at hzero
  refine Option.eq_none_iff_forall_not_mem.mpr fun ed hed => ?_
  obtain ⟨hmem,hopen⟩ := unsettled_eq_some.mp hed
  exact hzero ed (List.mem_of_getElem? hmem) (by simp [hopen])

theorem Steady.renderAll (h : p.Steady) (torn : List Nat) (drawn : List Text) :
    (p.renderAll torn drawn).Steady := by
  unfold Page.renderAll
  split
  · exact h
  · rename_i hidle
    have hnone : ∀ e, p.unsettled e = none :=
      fun e => unsettled_of_idle h (Bool.eq_false_iff.mpr hidle)
    have hlabel : ∀ (i : Nat) (l : Label),
        (((p.labels.mapIdx fun i l => { l with attached := l.attached && decide (i ∉ torn) }) ++
          drawn.map fun t => ⟨t,false,none,true⟩ : List Label)[i]?) = some l →
        l.behind = none ∧ l.editing = false := by
      intro i l hl
      obtain hmem | hmem := List.mem_append.mp (List.mem_of_getElem? hl)
      · obtain ⟨j,hj,rfl⟩ := List.mem_mapIdx.mp hmem
        have hget : p.labels[j]? = some p.labels[j] := List.getElem?_eq_getElem hj
        have hbehind : p.labels[j].behind = none := by
          refine Option.eq_none_iff_forall_not_mem.mpr fun e he => ?_
          obtain ⟨ed,hed,-⟩ := (h.behind j _ e hget).mp he
          rw [hnone e] at hed
          cases hed
        exact ⟨hbehind,by rw [h.editing j _ hget,hbehind]; rfl⟩
      · obtain ⟨t,-,rfl⟩ := List.mem_map.mp hmem
        exact ⟨rfl,rfl⟩
    refine { h with behind := fun i l e hl => ?_, editing := fun i l hl => ?_,
                    kept := fun e ed hed => ?_ }
    · refine iff_of_false ?_ ?_
      · rw [(hlabel i l hl).1]
        exact (Option.some_ne_none e).symm
      · rintro ⟨ed,hed,-⟩
        exact absurd ((hnone e).symm.trans hed) (Option.some_ne_none ed).symm
    · rw [(hlabel i l hl).1,(hlabel i l hl).2]
      rfl
    · exact absurd ((hnone e).symm.trans hed) (Option.some_ne_none ed).symm

theorem Steady.typed (h : p.Steady) (text : Text) (hf : p.focus = some e) :
    Steady { p with editors := p.editors.modify e fun ed => { ed with input := text } } := by
  set q : Page := { p with editors := p.editors.modify e fun ed => { ed with input := text } }
  have hget : ∀ i, q.editors[i]? =
      (p.editors[i]?).map fun ed => if e = i then { ed with input := text } else ed := fun i => by
    rw [List.getElem?_modify]
    split <;> simp_all
  have hof : ∀ i ed', q.unsettled i = some ed' →
      ∃ ed, p.unsettled i = some ed ∧ ed'.label = ed.label := by
    intro i ed' hed
    obtain ⟨hmem,hopen⟩ := unsettled_eq_some.mp hed
    obtain ⟨ed,hmem',rfl⟩ := Option.map_eq_some_iff.mp ((hget i).symm.trans hmem)
    exact ⟨ed,unsettled_eq_some.mpr ⟨hmem',by split at hopen <;> exact hopen⟩,by split <;> rfl⟩
  have hto : ∀ i ed, p.unsettled i = some ed →
      ∃ ed', q.unsettled i = some ed' ∧ ed'.label = ed.label := by
    intro i ed hed
    obtain ⟨hmem,hopen⟩ := unsettled_eq_some.mp hed
    refine ⟨_,unsettled_eq_some.mpr ⟨(hget i).trans (congrArg _ hmem),?_⟩,?_⟩ <;> split <;> trivial
  have hopen : ∀ i, q.Open i ↔ p.Open i := fun i => by
    simp only [Open,Option.isSome_iff_exists]
    exact ⟨fun ⟨ed,hed⟩ => (hof i ed hed).imp fun _ => And.left,
      fun ⟨ed,hed⟩ => (hto i ed hed).imp fun _ => And.left⟩
  refine { h with counted := ?_, only := fun i hi => h.only i ((hopen i).mp hi),
                  behind := fun i l j hl => (h.behind i l j hl).trans ?_
                  kept := fun j ed hed => ?_
                  focused := fun i hi => (hopen i).mpr (h.focused i hi), named := fun c hc => ?_ }
  · have hmap : (q.editors.map fun ed => !ed.settled) = p.editors.map fun ed => !ed.settled := by
      refine List.ext_getElem? fun i => ?_
      rw [List.getElem?_map,List.getElem?_map,hget,Option.map_map]
      refine Option.map_congr fun ed _ => ?_
      simp only [Function.comp_apply]
      split <;> rfl
    have hcount : ∀ l : List Editor, (l.countP fun ed => !ed.settled) =
        (l.map fun ed => !ed.settled).countP id := fun l =>
      (List.countP_map (p := id)).symm
    rw [hcount,hmap,← hcount]
    exact h.counted
  · exact ⟨fun ⟨ed,hed,hlab⟩ => (hto j ed hed).imp fun _ h => ⟨h.1,h.2.trans hlab⟩,
      fun ⟨ed,hed,hlab⟩ => (hof j ed hed).imp fun _ h => ⟨h.1,h.2.symm.trans hlab⟩⟩
  · obtain ⟨ed',hed',hlab⟩ := hof j ed hed
    exact hlab ▸ h.kept j ed' hed'
  · obtain ⟨ed,hed,hsettled,hname⟩ := h.named c hc
    have hne : e ≠ c.1 := fun he => by
      obtain ⟨ed',hed'⟩ := Option.isSome_iff_exists.mp (h.focused e hf)
      obtain ⟨hmem,hopen⟩ := unsettled_eq_some.mp hed'
      rw [he,hed,Option.some.injEq] at hmem
      rw [hmem,hopen] at hsettled
      cases hsettled
    exact ⟨ed,by rw [hget,hed,Option.map_some,if_neg hne],hsettled,hname⟩

theorem Steady.step (h : p.Steady) (a : Event) (hstep : p.step a = some q) : q.Steady := by
  cases a with
  | dblclick label value =>
    simp only [Page.step,Option.ite_none_right_eq_some] at hstep
    obtain ⟨hattached,heq⟩ := hstep
    exact Option.some.inj heq ▸ h.beginInlineEdit hattached
  | typed text =>
    obtain ⟨e,he,rfl⟩ := Option.map_eq_some_iff.mp hstep
    exact h.typed text he
  | enter e => exact Option.some.inj hstep ▸ h.commit e
  | escape e => exact Option.some.inj hstep ▸ h.cancel e
  | blur e => exact Option.some.inj hstep ▸ h.blur e
  | renderAll torn drawn => exact Option.some.inj hstep ▸ h.renderAll torn drawn

/-- An editor that has settled, and is called back for only as it was in `before`. -/
structure Final (p : Page) (e : Nat) (before : List (Nat × Text)) : Prop where
  there : e < p.editors.length
  settled : ¬ p.Open e
  committed : ∀ name, (e,name) ∈ p.committed → (e,name) ∈ before

variable {before : List (Nat × Text)}

theorem Settles.final {f : Label → Label} (hs : p.Settles q e' ed f)
    (hed : p.unsettled e' = some ed) (h : p.Final e before) : q.Final e before := by
  have hne : e ≠ e' := fun he => h.settled (he ▸ Option.isSome_iff_exists.mpr ⟨ed,hed⟩)
  refine ⟨by rw [hs.editors,List.length_set]; exact h.there,?_,
    fun name hname => h.committed name ?_⟩
  · rw [Open,hs.unsettled_of_ne hne]
    exact h.settled
  · obtain heq | ⟨next,heq,-⟩ := hs.committed
    · exact heq ▸ hname
    · rw [heq,List.mem_append,List.mem_singleton,Prod.mk.injEq] at hname
      exact hname.resolve_right fun hlast => hne hlast.1

theorem Final.commit (h : p.Final e before) (e' : Nat) : (p.commit e').Final e before := by
  by_cases hopen : p.Open e'
  · obtain ⟨ed,hed⟩ := Option.isSome_iff_exists.mp hopen
    obtain ⟨f,hs⟩ := settles_commit hed
    exact hs.final hed h
  · exact (commit_of_settled hopen).symm ▸ h

theorem Final.cancel (h : p.Final e before) (e' : Nat) : (p.cancel e').Final e before := by
  by_cases hopen : p.Open e'
  · obtain ⟨ed,hed⟩ := Option.isSome_iff_exists.mp hopen
    obtain ⟨f,hs⟩ := settles_cancel hed
    exact hs.final hed h
  · exact (cancel_of_settled hopen).symm ▸ h

theorem Final.mounted (h : p.Final e before) (label : Nat) (value : Text) :
    (p.mounted label value).Final e before where
  there := by
    rw [Page.mounted,List.length_append]
    exact Nat.lt_add_right _ h.there
  settled hopen := (open_mounted.mp hopen).elim h.there.ne h.settled
  committed := h.committed

theorem Final.step (h : p.Final e before) (a : Event) (hstep : p.step a = some q) :
    q.Final e before := by
  cases a with
  | dblclick label value =>
    simp only [Page.step,Option.ite_none_right_eq_some] at hstep
    obtain ⟨-,rfl⟩ := And.imp_right Option.some.inj hstep
    unfold beginInlineEdit
    split
    · exact h
    · split
      · exact h
      · have hm := h.mounted label value
        cases p.focus with
        | none => exact { hm with }
        | some f => exact { hm.commit f with }
  | typed text =>
    obtain ⟨i,-,rfl⟩ := Option.map_eq_some_iff.mp hstep
    refine ⟨by simpa using h.there,fun hopen => h.settled ?_,h.committed⟩
    obtain ⟨ed',hed⟩ := Option.isSome_iff_exists.mp hopen
    obtain ⟨hmem,hset⟩ := unsettled_eq_some.mp hed
    rw [List.getElem?_modify] at hmem
    obtain ⟨ed,hget,rfl⟩ := Option.map_eq_some_iff.mp hmem
    have hopen : ed.settled = false := by split at hset <;> exact hset
    exact Option.isSome_iff_exists.mpr ⟨ed,unsettled_eq_some.mpr ⟨hget,hopen⟩⟩
  | enter i => exact Option.some.inj hstep ▸ h.commit i
  | escape i => exact Option.some.inj hstep ▸ h.cancel i
  | blur i => exact Option.some.inj hstep ▸ { h.commit i with }
  | renderAll torn drawn =>
    obtain rfl := Option.some.inj hstep
    unfold Page.renderAll
    split
    · exact h
    · exact { h with }

theorem steady_empty : empty.Steady :=
  ⟨rfl,by simp [empty,Open,unsettled],by simp [empty],by simp [empty],by simp [empty,unsettled],
    by simp [empty],List.nodup_nil,by simp [empty]⟩

/-- Nothing is called back for an editor after its Escape that was not before. -/
def EscapeFinal (p : Page) : Prop := ∀ e < p.editors.length, ∀ after,
  Always step (fun q => ∀ name, (e,name) ∈ q.committed → (e,name) ∈ p.committed) (p.cancel e) after

theorem final_cancel (he : e < p.editors.length) : (p.cancel e).Final e p.committed := by
  by_cases hopen : p.Open e
  · obtain ⟨ed,hed⟩ := Option.isSome_iff_exists.mp hopen
    obtain ⟨f,hs⟩ := settles_cancel hed
    refine ⟨by rw [hs.editors,List.length_set]; exact he,?_,fun name hname => ?_⟩
    · rw [Open,hs.unsettled_self hed]
      exact Bool.false_ne_true
    · rwa [Page.cancel,hed] at hname
  · rw [cancel_of_settled hopen]
    exact ⟨he,hopen,fun _ => id⟩

theorem escapeFinal (p : Page) : p.EscapeFinal := fun _ he after =>
  (Always.of_invariant (fun _ a _ hq hstep => Final.step hq a hstep) (final_cancel he) after).mono
    fun _ hq => hq.committed

/-- Whatever is clicked, typed and rendered, one editor at most is open and keeps its label on the
page; each commits once at most, a new name, and never after its Escape. -/
theorem rename_sound (actions : List Event) :
    Always step (fun p => p.Steady ∧ p.EscapeFinal) empty actions :=
  (Always.of_invariant (fun _ a _ hp hstep => Steady.step hp a hstep) steady_empty actions).mono
    fun p hp => ⟨hp,p.escapeFinal⟩

/-- The click on a second label commits the first, and a poll meanwhile draws nothing. -/
example : (exec step empty [.renderAll [] ["a".toList,"b".toList],.dblclick 0 "a".toList,
    .typed " c ".toList,.renderAll [0,1] [],.dblclick 1 "b".toList,.typed "d".toList,.escape 1,
    .blur 1]).map (fun p => (p.committed,p.activeEditors)) = some ([(0,"c".toList)],0) := by
  decide +kernel

end Page
end Pyre.Gui.InlineEdit
