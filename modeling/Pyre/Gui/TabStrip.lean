import Pyre.Base.Guarded
import Pyre.Gui.Chrome

/-!
The strip of the windows of the active session. The fingerprint leaves the active window out, so
the highlight is moved in place; and while a rename is open the strip is not drawn at all.
-/

set_option autoImplicit false

namespace Pyre.Gui.Chrome
open Base

/-- The title and the label are one text; only one of several windows can be closed. -/
structure Pill where
  window : Text
  label : Text
  active : Bool
  closeable : Bool
  deriving DecidableEq, Repr

namespace AppState

variable (s : AppState)

def stripSession : Option Text := (truthy s.activeSession).filter fun _ => s.connected

def windowField (w : WindowInfo) : Text := w.id ++ ':' :: (w.name ++ ':' :: decimal w.position)

def tabsFingerprint : Text :=
  match s.stripSession with
  | none => "__none__".toList
  | some session =>
    session ++ '|' :: '[' :: (join ',' ((s.windowTabs session).map windowField) ++ [']'])

/-- The pills of the windows; the button for a new window is always there. -/
def pills : List Pill :=
  let windows := s.windowTabs s.activeSession
  windows.map fun w =>
    ⟨w.id,windowLabel w,decide (some w.id = s.activeWindowOf s.activeSession),
      decide (1 < windows.length)⟩

def applyActiveWindowInPlace (strip : List Pill) : List Pill :=
  strip.map fun p =>
    { p with active := decide (some p.window = s.activeWindowOf s.activeSession) }

/-- The fingerprint can be read: ids are without its punctuation, and names without a comma. -/
structure TabsPlain : Prop where
  session : ∀ id, s.activeSession = some id → '|' ∉ id
  windows : ∀ w ∈ s.windowTabs s.activeSession, ':' ∉ w.id ∧ ',' ∉ w.id ∧ ',' ∉ w.name

end AppState

/-- `renderTabs`, with the pass over the highlight that follows every render. -/
def tabsGuard : Guard AppState Text (List Pill) where
  key := AppState.tabsFingerprint
  view := AppState.pills
  patch := AppState.applyActiveWindowInPlace
  closed s := s.stripSession.isNone
  reset := "__none__".toList

/-- What `renderAll` does to the strip; `editing` is whether a rename is open. -/
def renderStrip (d : Drawn Text (List Pill)) (editing : Bool) (s : AppState) :
    Drawn Text (List Pill) :=
  tabsGuard.patched (if editing then d else tabsGuard.render d s) s

/-- The strip after renders from the start. -/
def drawnStrip (renders : List (Bool × AppState)) : Drawn Text (List Pill) :=
  renders.foldl (fun d r => renderStrip d r.1 r.2) ⟨[],none⟩

section strip

variable {s t : AppState} {id : Text} {w w' : WindowInfo} {d : Drawn Text (List Pill)}

theorem stripSession_eq (h : s.stripSession = some id) :
    s.activeSession = some id ∧ s.windowTabs s.activeSession = s.windowTabs (some id) := by
  obtain ⟨htruthy,-⟩ := Option.filter_eq_some_iff.mp h
  obtain ⟨hactive,-⟩ := Option.filter_eq_some_iff.mp htruthy
  exact ⟨hactive,congrArg _ hactive⟩

theorem windowField_inj (h : ':' ∉ w.id) (h' : ':' ∉ w'.id)
    (heq : AppState.windowField w = AppState.windowField w') : w = w' := by
  obtain ⟨hid,hrest⟩ := cut_first h h' heq
  obtain ⟨hname,hposition⟩ :=
    cut_last (notMem_decimal (by decide)) (notMem_decimal (by decide)) hrest
  cases w
  cases w'
  obtain rfl := decimal_injective hposition
  exact congrArg₂ (WindowInfo.mk · · _) hid hname

theorem notMem_windowField (hid : ',' ∉ w.id) (hname : ',' ∉ w.name) :
    ',' ∉ AppState.windowField w := by
  have hposition : ',' ∉ decimal w.position := notMem_decimal (by decide)
  simp only [AppState.windowField,List.mem_append,List.mem_cons,not_or]
  exact ⟨hid,by decide,hname,by decide,hposition⟩

theorem windowField_ne_nil : AppState.windowField w ≠ [] :=
  List.append_ne_nil_of_right_ne_nil _ (List.cons_ne_nil _ _)

/-- Stores with one fingerprint have the same windows in the strip. -/
theorem windowTabs_eq (hs : s.TabsPlain) (ht : t.TabsPlain) {id' : Text}
    (hid : s.stripSession = some id) (hid' : t.stripSession = some id')
    (h : s.tabsFingerprint = t.tabsFingerprint) :
    s.windowTabs s.activeSession = t.windowTabs t.activeSession := by
  obtain ⟨hactive,htabs⟩ := stripSession_eq hid
  obtain ⟨hactive',htabs'⟩ := stripSession_eq hid'
  have hws := hs.windows
  have hwt := ht.windows
  rw [htabs] at hws ⊢
  rw [htabs'] at hwt ⊢
  simp only [AppState.tabsFingerprint,hid,hid'] at h
  obtain ⟨-,hbrackets⟩ := cut_first (hs.session id hactive) (ht.session id' hactive') h
  have hjoined := List.append_cancel_right (List.cons.inj hbrackets).2
  have hne : ∀ ws : List WindowInfo, [] ∉ ws.map AppState.windowField := fun ws hmem => by
    obtain ⟨w,-,hw⟩ := List.mem_map.mp hmem
    exact windowField_ne_nil hw
  have hcomma : ∀ ws : List WindowInfo, (∀ w ∈ ws, ':' ∉ w.id ∧ ',' ∉ w.id ∧ ',' ∉ w.name) →
      ∀ x ∈ ws.map AppState.windowField, ',' ∉ x := by
    intro ws hws x hx
    obtain ⟨w,hw,rfl⟩ := List.mem_map.mp hx
    exact notMem_windowField (hws w hw).2.1 (hws w hw).2.2
  have hfields := (join_inj_of_ne_nil (hcomma _ hws) (hcomma _ hwt) (hne _) (hne _)).mp hjoined
  have hinj : ∀ w ∈ s.windowTabs (some id), ∀ w' ∈ t.windowTabs (some id'),
      AppState.windowField w = AppState.windowField w' → w = w' :=
    fun w hw w' hw' => windowField_inj (hws w hw).1 (hwt w' hw').1
  simpa using map_eq_of_map_eq (g := fun w => w) hinj hfields

theorem applyActive_again (strip : List Pill) : t.applyActiveWindowInPlace
    (s.applyActiveWindowInPlace strip) = t.applyActiveWindowInPlace strip := by
  simp only [AppState.applyActiveWindowInPlace,List.map_map]
  rfl

theorem applyActive_pills : s.applyActiveWindowInPlace s.pills = s.pills := by
  simp only [AppState.applyActiveWindowInPlace,AppState.pills,List.map_map]
  rfl

theorem tabs_determined : tabsGuard.Determined AppState.TabsPlain where
  view s t u hs ht hcs hct hkey := by
    obtain ⟨id,hid⟩ := Option.isSome_iff_exists.mp (Option.isNone_eq_false_iff.mp hcs)
    obtain ⟨id',hid'⟩ := Option.isSome_iff_exists.mp (Option.isNone_eq_false_iff.mp hct)
    have htabs := windowTabs_eq hs ht hid hid' hkey
    simp only [tabsGuard,AppState.applyActiveWindowInPlace,AppState.pills,List.map_map,htabs]
    rfl
  again _ _ v := applyActive_again v
  fresh _ := applyActive_pills

theorem renderStrip_valid (h : tabsGuard.Valid AppState.TabsPlain d) (hs : s.TabsPlain)
    (editing : Bool) : tabsGuard.Valid AppState.TabsPlain (renderStrip d editing s) := by
  cases editing with
  | true => exact h.patched tabs_determined s
  | false => exact (h.render hs).patched tabs_determined s

theorem fold_valid (renders : List (Bool × AppState)) (h : ∀ r ∈ renders, r.2.TabsPlain) :
    tabsGuard.Valid AppState.TabsPlain (drawnStrip renders) := by
  induction renders using List.reverseRecOn with
  | nil => exact Guard.Valid.blank
  | append_singleton renders r ih =>
    rw [drawnStrip,List.foldl_concat]
    exact renderStrip_valid (ih fun r hr => h r (List.mem_append_left _ hr))
      (h r (List.mem_append_right _ List.mem_cons_self)) r.1

/-- While a rename is open only the highlight moves. -/
theorem held_shown {v : Option (List Pill)} (hd : d.shown = v.map (tabsGuard.patch s))
    (held : List AppState) : (held.foldl (fun d t => renderStrip d true t) d).shown =
      v.map (tabsGuard.patch (held.getLast?.getD s)) := by
  induction held using List.reverseRecOn with
  | nil => exact hd
  | append_singleton held t ih =>
    rw [List.foldl_concat,List.getLast?_concat,Option.getD_some,renderStrip,if_pos rfl,
      Guard.patched]
    simp only [ih,Option.map_map]
    exact congrArg (v.map ·) (funext fun v => applyActive_again v)

end strip

def twoWindows (name active : Text) : AppState := { AppState.initial with
  connected := true
  activeSession := some "s".toList
  windows := AList.insert "s".toList [⟨"w".toList,name,0⟩,⟨"v".toList,[],1⟩] ∅
  activeWindow := AList.insert "s".toList active ∅ }

example : (tabsGuard.plain (twoWindows "a:1".toList "v".toList)).map (List.map Pill.label) =
    some ["a:1".toList,"2".toList] := by
  decide +kernel

end Pyre.Gui.Chrome
