import Pyre.Base.Sole
import Pyre.Proto

/-!
How the commands of `pyrec` find the session or the pane that a prefix is given for. The text of
a UUID is the UUID library's, and a parameter here.
-/

set_option autoImplicit false

namespace Pyre.Pyrec
open Base

/-- A pane as `list_all_panes` has it. -/
structure PaneEntry where
  session : SessionId
  id : PaneId
  deriving DecidableEq, Repr

/-- What the daemon answers while a command or a read runs, each list in any order: a pane is of
one session, and the listings agree. -/
structure Directory where
  /-- `list_sessions` -/
  sessions : List SessionId
  /-- `list_panes` -/
  panes : SessionId → List PaneId
  /-- `list_all_panes` -/
  all : List PaneEntry
  /-- `list_blocks` with a limit of 100 -/
  recent : List BlockId
  /-- `get_block_stdout` -/
  stdout : BlockId → Except String Bytes
  sessions_nodup : sessions.Nodup
  panes_nodup : ∀ s, (panes s).Nodup
  all_nodup : (all.map PaneEntry.id).Nodup
  mem_panes : ∀ s ∈ sessions, ∀ q, q ∈ panes s ↔ ⟨s,q⟩ ∈ all
  all_listed : ∀ e ∈ all, e.session ∈ sessions

namespace Directory

def paneIds (d : Directory) : List PaneId := d.all.map PaneEntry.id

theorem mem_flatMap_panes (d : Directory) (q : PaneId) :
    q ∈ d.sessions.flatMap d.panes ↔ q ∈ d.paneIds := by
  simp only [List.mem_flatMap,paneIds,List.mem_map]
  constructor
  · rintro ⟨s,hs,hq⟩
    exact ⟨⟨s,q⟩,(d.mem_panes s hs q).mp hq,rfl⟩
  · rintro ⟨e,he,rfl⟩
    have hs := d.all_listed e he
    exact ⟨e.session,hs,(d.mem_panes e.session hs e.id).mpr he⟩

end Directory

/-- A session or a pane that a command goes on with. -/
inductive Target where
  | session (s : SessionId)
  | pane (q : PaneId)
  deriving DecidableEq, Repr

/-- What a command is given to find its target by. -/
inductive Address where
  | session (pfx : Text)
  /-- The first pane of a session. -/
  | firstPane (pfx : Text)
  | pane (pfx : Text)
  | paneOf (sessionPrefix panePrefix : Text)

section

variable (text : Nat → Text)

/-- `to_string().starts_with(prefix)` on a UUID -/
def startsWith (pfx : Text) (uuid : Nat) : Bool := pfx.isPrefixOf (text uuid)

def sessionMatches (pfx : Text) (s : SessionId) : Bool := startsWith text pfx s.uuid

def paneMatches (pfx : Text) (q : PaneId) : Bool := startsWith text pfx q.uuid

/-- The target is the only one that the prefixes match. -/
def Address.Singles (d : Directory) : Address → Target → Prop
  | .session pfx, .session s => Sole (sessionMatches text pfx) d.sessions s
  | .firstPane pfx, .pane q =>
    ∃ s, Sole (sessionMatches text pfx) d.sessions s ∧ (d.panes s).head? = some q
  | .pane pfx, .pane q => Sole (paneMatches text pfx) d.paneIds q
  | .paneOf sessionPrefix panePrefix, .pane q =>
    ∃ s, Sole (sessionMatches text sessionPrefix) d.sessions s ∧
      Sole (paneMatches text panePrefix) (d.panes s) q
  | _, _ => False

/-- The one that matches. What none or several give is told of the kind of thing. -/
def resolveOne {α : Type} (noun : String) (pfx : Text) : List α → Except String α
  | [] => .error s!"no {noun} matches prefix '{String.ofList pfx}'"
  | [x] => .ok x
  | matched => .error
    s!"{matched.length} {noun}s match prefix '{String.ofList pfx}'; provide a longer prefix"

def resolveSession (d : Directory) (pfx : Text) : Except String SessionId :=
  resolveOne "session" pfx (d.sessions.filter (sessionMatches text pfx))

def resolvePane (d : Directory) (s : SessionId) (pfx : Text) : Except String PaneId :=
  resolveOne "pane" pfx ((d.panes s).filter (paneMatches text pfx))

def resolvePaneGlobal (d : Directory) (pfx : Text) : Except String PaneId :=
  (resolveOne "pane" pfx (d.all.filter fun p => paneMatches text pfx p.id)).map PaneEntry.id

def firstPane (d : Directory) (s : SessionId) : Except String PaneId :=
  match (d.panes s).head? with
  | some q => .ok q
  | none => .error "session has no panes"

/-- The scan of `run_send_keys`, and of `run_capture_pane` where no session is given: the first
pane that matches, over the sessions and their panes in the order they are listed. -/
def scanPanes (d : Directory) (pfx : Text) : Except String PaneId :=
  match d.sessions.findSome? fun s => (d.panes s).find? (paneMatches text pfx) with
  | some q => .ok q
  | none => .error s!"no pane matches prefix '{String.ofList pfx}'"

/-- The commands that take a prefix, with their prefixes. -/
inductive Sub where
  | panes (session : Text)
  | attach (session : Text) (pane : Option Text)
  | newPane (session : Text)
  | capturePane (pane : Text) (session : Option Text)
  | listPanes (target : Text)
  | listWindows (target : Text)
  | killSession (target : Text)
  | sendKeys (target : Text)
  | splitWindow (target : Text)
  | selectPane (target : Text)
  | waitPane (pane : Text)
  | paneRead (pane : Text) (session : Option Text)
  | paneRun (session : Text)

namespace Sub

def address : Sub → Address
  | .panes s | .newPane s | .listPanes s | .listWindows s | .killSession s | .splitWindow s =>
    .session s
  | .attach s (some p) | .capturePane p (some s) | .paneRead p (some s) => .paneOf s p
  | .attach s none | .paneRun s => .firstPane s
  | .capturePane p none | .sendKeys p | .selectPane p | .waitPane p | .paneRead p none => .pane p

/-- What a command goes on with. -/
def target (d : Directory) : Sub → Except String Target
  | .panes s | .newPane s | .listPanes s | .listWindows s | .killSession s | .splitWindow s =>
    (resolveSession text d s).map .session
  | .attach s (some p) | .capturePane p (some s) | .paneRead p (some s) => do
    let session ← resolveSession text d s
    let pane ← resolvePane text d session p
    return .pane pane
  | .attach s none | .paneRun s => do
    let session ← resolveSession text d s
    let pane ← firstPane d session
    return .pane pane
  | .capturePane p none | .sendKeys p => (scanPanes text d p).map .pane
  | .selectPane p | .waitPane p | .paneRead p none => (resolvePaneGlobal text d p).map .pane

/-- A command goes on with what its prefixes single out, and with nothing else. -/
def Unguessed (d : Directory) (c : Sub) : Prop :=
  ∀ t, c.target text d = .ok t → c.address.Singles text d t

/-- The prefix of a command that takes the first pane that matches fits no two panes. -/
def Unambiguous (d : Directory) : Sub → Prop
  | .capturePane p none | .sendKeys p => AtMostOne (paneMatches text p) d.paneIds
  | _ => True

end Sub

variable {text} {d : Directory} {pfx : Text} {s : SessionId} {q : PaneId}

theorem map_eq_ok {ε α β : Type} {x : Except ε α} {f : α → β} {b : β} :
    x.map f = .ok b ↔ ∃ a, x = .ok a ∧ f a = b := by
  cases x <;> simp [Except.map]

theorem bind_eq_ok {ε α β : Type} {x : Except ε α} {f : α → Except ε β} {b : β} :
    x >>= f = .ok b ↔ ∃ a, x = .ok a ∧ f a = .ok b := by
  cases x <;> simp [bind,Except.bind]

theorem resolveOne_eq_ok {α : Type} {noun : String} {l : List α} {x : α} :
    resolveOne noun pfx l = .ok x ↔ l = [x] := by
  match l with
  | [] => simp [resolveOne]
  | [y] => simp [resolveOne]
  | y :: z :: l => simp [resolveOne]

theorem resolveSession_eq_ok :
    resolveSession text d pfx = .ok s ↔ Sole (sessionMatches text pfx) d.sessions s :=
  resolveOne_eq_ok.trans (filter_eq_singleton_iff d.sessions_nodup)

theorem resolvePane_eq_ok :
    resolvePane text d s pfx = .ok q ↔ Sole (paneMatches text pfx) (d.panes s) q :=
  resolveOne_eq_ok.trans (filter_eq_singleton_iff (d.panes_nodup s))

/-- The only entry of `list_all_panes` that matches is of the only pane that does. -/
theorem sole_of_filter_all {e : PaneEntry}
    (h : (d.all.filter fun p => paneMatches text pfx p.id) = [e]) :
    Sole (paneMatches text pfx) d.paneIds e.id := by
  have hall : d.paneIds.Nodup := d.all_nodup
  rw [← filter_eq_singleton_iff hall,Directory.paneIds,List.filter_map]
  change (d.all.filter fun p => paneMatches text pfx p.id).map PaneEntry.id = [e.id]
  rw [h,List.map_singleton]

theorem resolvePaneGlobal_sole (h : resolvePaneGlobal text d pfx = .ok q) :
    Sole (paneMatches text pfx) d.paneIds q := by
  obtain ⟨e,he,rfl⟩ := map_eq_ok.mp h
  exact sole_of_filter_all (resolveOne_eq_ok.mp he)

theorem scanPanes_eq_ok : scanPanes text d pfx = .ok q ↔
    (d.sessions.flatMap d.panes).find? (paneMatches text pfx) = some q := by
  rw [scanPanes,List.find?_flatMap]
  cases d.sessions.findSome? fun s => (d.panes s).find? (paneMatches text pfx) <;> simp

theorem scanPanes_sole_iff :
    (∀ q, scanPanes text d pfx = .ok q → Sole (paneMatches text pfx) d.paneIds q) ↔
      AtMostOne (paneMatches text pfx) d.paneIds := by
  simp only [scanPanes_eq_ok,← Sole.of_mem_iff d.mem_flatMap_panes,find?_sole_iff,
    AtMostOne.of_mem_iff d.mem_flatMap_panes]

theorem firstPane_eq_ok : firstPane d s = .ok q ↔ (d.panes s).head? = some q := by
  rw [firstPane]
  cases (d.panes s).head? <;> simp

theorem resolveSession_singles {t : Target}
    (h : (resolveSession text d pfx).map .session = .ok t) :
    (Address.session pfx).Singles text d t := by
  obtain ⟨s,hs,rfl⟩ := map_eq_ok.mp h
  exact resolveSession_eq_ok.mp hs

theorem resolvePaneGlobal_singles {t : Target}
    (h : (resolvePaneGlobal text d pfx).map .pane = .ok t) :
    (Address.pane pfx).Singles text d t := by
  obtain ⟨q,hq,rfl⟩ := map_eq_ok.mp h
  exact resolvePaneGlobal_sole hq

theorem resolvePane_singles {sessionPrefix : Text} {t : Target}
    (h : (do
      let session ← resolveSession text d sessionPrefix
      let pane ← resolvePane text d session pfx
      return .pane pane) = Except.ok t) :
    (Address.paneOf sessionPrefix pfx).Singles text d t := by
  obtain ⟨s,hs,h⟩ := bind_eq_ok.mp h
  obtain ⟨q,hq,h⟩ := bind_eq_ok.mp h
  obtain rfl := Except.ok.inj h
  exact ⟨s,resolveSession_eq_ok.mp hs,resolvePane_eq_ok.mp hq⟩

theorem firstPane_singles {t : Target}
    (h : (do
      let session ← resolveSession text d pfx
      let pane ← firstPane d session
      return .pane pane) = Except.ok t) :
    (Address.firstPane pfx).Singles text d t := by
  obtain ⟨s,hs,h⟩ := bind_eq_ok.mp h
  obtain ⟨q,hq,h⟩ := bind_eq_ok.mp h
  obtain rfl := Except.ok.inj h
  exact ⟨s,resolveSession_eq_ok.mp hs,firstPane_eq_ok.mp hq⟩

theorem scanPanes_singles_iff :
    (∀ t, (scanPanes text d pfx).map .pane = .ok t → (Address.pane pfx).Singles text d t) ↔
      AtMostOne (paneMatches text pfx) d.paneIds := by
  rw [← scanPanes_sole_iff]
  constructor
  · intro h q hq
    exact h (.pane q) (map_eq_ok.mpr ⟨q,hq,rfl⟩)
  · intro h t ht
    obtain ⟨q,hq,rfl⟩ := map_eq_ok.mp ht
    exact h q hq

/-- The commands that take the first pane that matches guess where two match, and no command
guesses otherwise. -/
theorem Sub.unguessed_iff (c : Sub) : c.Unguessed text d ↔ c.Unambiguous text d := by
  cases c with
  | panes _ | newPane _ | listPanes _ | listWindows _ | killSession _ | splitWindow _ =>
    exact iff_of_true (fun _ => resolveSession_singles) trivial
  | attach _ pane =>
    cases pane with
    | none => exact iff_of_true (fun _ => firstPane_singles) trivial
    | some _ => exact iff_of_true (fun _ => resolvePane_singles) trivial
  | capturePane _ session =>
    cases session with
    | none => exact scanPanes_singles_iff
    | some _ => exact iff_of_true (fun _ => resolvePane_singles) trivial
  | paneRead _ session =>
    cases session with
    | none => exact iff_of_true (fun _ => resolvePaneGlobal_singles) trivial
    | some _ => exact iff_of_true (fun _ => resolvePane_singles) trivial
  | sendKeys _ => exact scanPanes_singles_iff
  | selectPane _ | waitPane _ => exact iff_of_true (fun _ => resolvePaneGlobal_singles) trivial
  | paneRun _ => exact iff_of_true (fun _ => firstPane_singles) trivial

end

end Pyre.Pyrec
