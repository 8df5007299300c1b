import Mathlib.Data.List.Sort
import Pyre.Gui.Focus

/-!
The blocks of the inspector. A poll reads the focused pane before it asks for the blocks, and
stores what has come in reply; polls overlap, and the focus moves in between.
-/

set_option autoImplicit false

namespace Pyre.Gui
open Base

/-- Times are numbers, of which a later one is larger. -/
structure Block where
  id : BlockId
  pane : PaneId
  command : Text
  startedAt : Nat
  endedAt : Option Nat
  exitCode : Option Int
  running : Bool
  deriving DecidableEq, Repr

def Block.sameStable (x y : Block) : Bool :=
  x.id = y.id ∧ x.running = y.running ∧ x.exitCode = y.exitCode ∧ x.endedAt = y.endedAt ∧
    x.command = y.command ∧ x.startedAt = y.startedAt

def blocksStableEqual : List Block → List Block → Bool
  | [], [] => true
  | x :: xs, y :: ys => x.sameStable y && blocksStableEqual xs ys
  | _, _ => false

def hasRunningBlock (blocks : List Block) : Bool :=
  blocks.any fun b => b.exitCode.isNone && b.endedAt.isNone

def sortNewestFirst (blocks : List Block) : List Block :=
  blocks.insertionSort fun a b => b.startedAt ≤ a.startedAt

/-! What empties the list: the first write of `switchSession`, and `focusFirstLeaf`. -/

def AfterReload.clearsBlocks (s : Store) : AfterReload → Bool
  | .focusFirstLeaf _ | .gotoPane _ _ => true
  | .switchWindow _ => s.activeSession.isSome
  | .refocusClosed _ pane => pane.isSome ∧ s.focusedPane = pane
  | .done | .focusSplit _ | .adopt _ => false

def Awaiting.clearsBlocks (s : Store) : Awaiting → DaemonReply → Bool
  | .listWindows _ next, .failed | .ensureStreams next, .ok => next.clearsBlocks s
  | _, _ => false

def GuiAction.clearsBlocks (s : Store) : GuiAction → Bool
  | .switchSession _ => true
  | .gotoPane session _ => s.activeSession ≠ some session
  | .switchWindow _ => s.activeSession.isSome
  | _ => false

def Screen.clearsBlocks (s : Screen) : ScreenStep → Bool
  | .act _ action => action.clearsBlocks s.store
  | .resume i reply => (s.calls.lookup i).any fun phase => phase.clearsBlocks s.store reply
  | .emit _ | .applyEvent => false

/-- A call of `list_blocks`. They are numbered in the order in which they are made. -/
structure BlocksCall where
  number : Nat
  pane : PaneId
  deriving DecidableEq, Repr

/-- `shownFrom` is the latest call the list is the reply to, and `overtaken` whether an older
reply for a pane has replaced a newer one. -/
structure Inspector where
  screen : Screen
  blocks : List Block
  asked : Nat
  calls : List BlocksCall
  shownFrom : Option BlocksCall
  overtaken : Bool

/-- `reply` and `fail` end the call at the place in the list of calls. -/
inductive InspectorStep where
  | screen (a : ScreenStep)
  | reloadFocusedBlocks
  | reply (i : Nat) (blocks : List Block)
  | fail (i : Nat)

namespace Inspector

def start : Inspector := ⟨.start,[],0,[],none,false⟩

def focusedPane (s : Inspector) : Option PaneId := s.screen.store.focusedPane

def clear (s : Inspector) : Inspector := { s with blocks := [], shownFrom := none }

def reloadFocusedBlocks (s : Inspector) : Inspector :=
  match s.focusedPane with
  | none => s.clear
  | some pane => { s with asked := s.asked+1, calls := s.calls ++ [⟨s.asked,pane⟩] }

/-- The list is the reply to a later call for the same pane. -/
def ShowsNewer (s : Inspector) (call : BlocksCall) : Prop :=
  ∃ shown ∈ s.shownFrom, shown.pane = call.pane ∧ call.number < shown.number

instance (s : Inspector) (call : BlocksCall) : Decidable (s.ShowsNewer call) :=
  inferInstanceAs (Decidable (∃ shown ∈ s.shownFrom, _))

/-- The list is left as it is when nothing in it has changed and nothing runs. -/
def gated (s : Inspector) (blocks : List Block) : Bool :=
  blocksStableEqual s.blocks blocks && !hasRunningBlock blocks

/-- A list that stays is the reply to the later of the two calls. -/
def laterOf (s : Inspector) (call : BlocksCall) : Option BlocksCall :=
  if s.ShowsNewer call then s.shownFrom else some call

def storeBlocks (s : Inspector) (call : BlocksCall) (blocks : List Block) : Inspector :=
  if s.gated blocks then { s with shownFrom := s.laterOf call }
  else
    { s with
      blocks, shownFrom := some call
      overtaken := s.overtaken || decide (s.ShowsNewer call) }

def endCall (s : Inspector) (i : Nat) : Inspector := { s with calls := s.calls.eraseIdx i }

/-- The bridge lists blocks of the pane it is asked for. -/
def step (home : Homes) (s : Inspector) : InspectorStep → Option Inspector
  | .screen a => (s.screen.step home a).map fun screen =>
    if s.screen.clearsBlocks a then clear { s with screen } else { s with screen }
  | .reloadFocusedBlocks => some s.reloadFocusedBlocks
  | .reply i blocks => s.calls[i]?.bind fun call =>
    if ∀ b ∈ blocks, b.pane = call.pane then
      some ((s.endCall i).storeBlocks call (sortNewestFirst blocks))
    else none
  | .fail i => s.calls[i]?.map fun _ => s.endCall i

/-- The blocks are those of the focused pane, or none, and no older reply has replaced a newer
one. -/
structure Right (s : Inspector) : Prop where
  focused : ∀ b ∈ s.blocks, some b.pane = s.focusedPane
  inOrder : s.overtaken = false

/-- The focus moves while the list is empty, or the list is emptied with it. A reply that is
stored is one for the focused pane, or an empty one, and of no older call than the list is. -/
def InTime (home : Homes) (s : Inspector) : InspectorStep → Prop
  | .screen a => s.blocks = [] ∨ s.screen.clearsBlocks a ∨
    ∀ t, s.screen.step home a = some t → t.store.focusedPane = s.focusedPane
  | .reloadFocusedBlocks | .fail _ => True
  | .reply i blocks => ∀ call ∈ s.calls[i]?, (∀ b ∈ blocks, b.pane = call.pane) →
    s.gated (sortNewestFirst blocks) ∨
      (blocks = [] ∨ s.focusedPane = some call.pane) ∧ ¬ s.ShowsNewer call

variable {home : Homes} {s : Inspector} {blocks : List Block} {call : BlocksCall}

theorem right_start : start.Right := ⟨by decide,rfl⟩

theorem Right.clear (h : s.overtaken = false) : s.clear.Right where
  focused _ hb := by cases hb
  inOrder := h

theorem mem_sortNewestFirst {b : Block} : b ∈ sortNewestFirst blocks ↔ b ∈ blocks :=
  (List.perm_insertionSort _ blocks).mem_iff

/-- The focus moves, and the list stays: as long as the focus does, or with no blocks in it. -/
theorem right_screen_iff (h : s.Right) (screen : Screen) :
    Right { s with screen } ↔ s.blocks = [] ∨ screen.store.focusedPane = s.focusedPane := by
  constructor
  · intro hright
    cases hblocks : s.blocks with
    | nil => exact .inl rfl
    | cons b rest =>
      have hb : b ∈ s.blocks := hblocks ▸ List.mem_cons_self
      exact .inr ((hright.focused b hb).symm.trans (h.focused b hb))
  · rintro (hnone | hsame)
    · refine ⟨fun b hb => ?_,h.inOrder⟩
      rw [hnone] at hb
      cases hb
    · exact ⟨fun b hb => (h.focused b hb).trans hsame.symm,h.inOrder⟩

theorem right_storeBlocks_iff (h : s.Right) (hpane : ∀ b ∈ blocks, b.pane = call.pane) (i : Nat) :
    ((s.endCall i).storeBlocks call (sortNewestFirst blocks)).Right ↔
      s.gated (sortNewestFirst blocks) ∨
        (blocks = [] ∨ s.focusedPane = some call.pane) ∧ ¬ s.ShowsNewer call := by
  have hgated : (s.endCall i).gated (sortNewestFirst blocks) =
    s.gated (sortNewestFirst blocks) := rfl
  unfold storeBlocks
  rw [hgated]
  split_ifs with hskip
  · exact iff_of_true ⟨h.focused,h.inOrder⟩ (.inl hskip)
  · constructor
    · intro hright
      have horder : (s.overtaken || decide (s.ShowsNewer call)) = false := hright.inOrder
      rw [Bool.or_eq_false_iff,decide_eq_false_iff_not] at horder
      refine .inr ⟨?_,horder.2⟩
      cases hblocks : blocks with
      | nil => exact .inl rfl
      | cons b rest =>
        have hb : b ∈ blocks := hblocks ▸ List.mem_cons_self
        have hfocus := hright.focused b (mem_sortNewestFirst.mpr hb)
        rw [hpane b hb] at hfocus
        exact .inr hfocus.symm
    · rintro (hskip' | ⟨hfits,hnewest⟩)
      · exact absurd hskip' hskip
      · refine ⟨fun b hb => ?_,?_⟩
        · have hb := mem_sortNewestFirst.mp hb
          rcases hfits with rfl | hfocus
          · cases hb
          · rw [hpane b hb]
            exact hfocus.symm
        · change (s.overtaken || decide (s.ShowsNewer call)) = false
          rw [Bool.or_eq_false_iff,decide_eq_false_iff_not]
          exact ⟨h.inOrder,hnewest⟩

theorem right_step_iff (a : InspectorStep) (h : s.Right) :
    s.InTime home a ↔ ∀ t, s.step home a = some t → t.Right := by
  cases a with
  | screen a =>
    change (_ ∨ _ ∨ _) ↔ ∀ t : Inspector, (s.screen.step home a).map _ = some t → t.Right
    by_cases hclears : s.screen.clearsBlocks a = true
    · refine iff_of_true (.inr (.inl hclears)) fun t ht => ?_
      obtain ⟨screen,-,rfl⟩ := Option.map_eq_some_iff.mp ht
      rw [if_pos hclears]
      exact .clear h.inOrder
    · cases hstep : s.screen.step home a with
      | none => simp
      | some screen => simpa [hclears] using (right_screen_iff h screen).symm
  | reloadFocusedBlocks =>
    refine iff_of_true trivial ?_
    rintro t ⟨⟩
    unfold reloadFocusedBlocks
    split
    · exact .clear h.inOrder
    · exact ⟨h.focused,h.inOrder⟩
  | reply i blocks =>
    change (∀ call ∈ s.calls[i]?, _) ↔
      ∀ t : Inspector, s.calls[i]?.bind _ = some t → t.Right
    cases hcall : s.calls[i]? with
    | none => simp
    | some call =>
      by_cases hpane : ∀ b ∈ blocks, b.pane = call.pane
      · simp only [Option.bind_some,if_pos hpane,Option.some.injEq,forall_eq']
        rw [right_storeBlocks_iff h hpane i]
        exact ⟨fun hin => hin call rfl hpane,fun hin _ hcall' _ => Option.some.inj hcall' ▸ hin⟩
      · refine iff_of_true ?_ fun t ht => ?_
        · rintro _ ⟨⟩ hall
          exact absurd hall hpane
        · simp [if_neg hpane] at ht
  | fail i =>
    refine iff_of_true trivial fun t ht => ?_
    obtain ⟨call,-,rfl⟩ := Option.map_eq_some_iff.mp ht
    exact ⟨h.focused,h.inOrder⟩

/-- The inspector shows the focused pane in just those runs in which the focus moves over an empty
list, and a reply finds the pane it is for focused, and no newer reply in its place. -/
theorem inspector_right_iff (home : Homes) (steps : List InspectorStep) :
    Always (step home) Right start steps ↔ Along (step home) (InTime home) start steps :=
  (along_iff_always (I := fun _ => True) (fun _ _ _ _ _ => trivial)
    (fun _ a _ hs => right_step_iff a hs) trivial right_start).symm

/-- A window of two panes; the blocks of the first are in the list when the second is focused. -/
def refocused : List InspectorStep :=
  [.screen (.act 1 .loadInitial),.screen (.resume 1 (.sessions [⟨⟨1⟩,2⟩])),
    .screen (.resume 1 (.windows [⟨1⟩])),
    .screen (.resume 1 (.layout (.split .vertical [(.leaf ⟨1⟩,50),(.leaf ⟨2⟩,50)]))),
    .screen (.resume 1 .ok),.reloadFocusedBlocks,.reply 0 [⟨⟨1⟩,⟨1⟩,[],0,some 1,some 0,false⟩],
    .screen (.act 2 (.focusPane ⟨2⟩))]

theorem previous_pane_shown :
    ¬Always (step ⟨fun _ => ⟨1⟩,fun _ => ⟨1⟩⟩) Right start refocused := by
  intro hall
  have hright : Right _ := hall.last rfl
  have hshown := hright.focused ⟨⟨1⟩,⟨1⟩,[],0,some 1,some 0,false⟩ (by decide)
  revert hshown
  decide

end Inspector
end Pyre.Gui
