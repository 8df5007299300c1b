import Pyre.Base.Find
import Pyre.Pyrec.Targets

/-!
How the MCP server finds what a prefix or a URI is given for: its tools, and the resources that it
lists and reads.
-/

set_option autoImplicit false

namespace Pyre.Mcp
open Base Pyrec

/-- An error with its code and hint for an agent. -/
structure StructuredError where
  message : String
  code : String
  hint : String
  deriving DecidableEq, Repr

section

variable (text : Nat → Text)

/-- The one that matches. What none or several give is told of the kind of thing. -/
def resolveId {α : Type} (noun : String) (pfx : Text) : List α → Except StructuredError α
  | [] => .error ⟨s!"no {noun} matches prefix '{String.ofList pfx}'",s!"no_such_{noun}",
    s!"No {noun} matches prefix '{String.ofList pfx}'. Call list_{noun}s to see active {noun} IDs."⟩
  | [x] => .ok x
  | matched => .error
    ⟨s!"{matched.length} {noun}s match prefix '{String.ofList pfx}'; provide a longer prefix",
    s!"ambiguous_{noun}_id",
    s!"{matched.length} {noun}s match prefix '{String.ofList pfx}'. Provide a longer prefix (≥12 chars)."⟩

def resolvePaneId (d : Directory) (pfx : Text) : Except StructuredError PaneId :=
  (resolveId "pane" pfx (d.all.filter fun p => paneMatches text pfx p.id)).map PaneEntry.id

def resolveSessionId (d : Directory) (pfx : Text) : Except StructuredError SessionId :=
  resolveId "session" pfx (d.sessions.filter (sessionMatches text pfx))

/-- The tools that act on what a prefix is given for, with their prefixes. -/
inductive Tool where
  | paneSendKeys (pane : Text)
  | paneCapture (pane : Text)
  | waitPaneState (pane : Text)
  | paneSetState (pane : Text)
  | blockSearch (session pane : Option Text)
  | sessionClose (session : Text)
  | setPaneWeight (paneId : Text)
  | getSessionLayout (sessionId : Text)
  | paneOpen (session : Text)
  | openPaneSplit (parentPaneId : Text)
  | paneLastBlock (pane : Text)
  | paneRunCommand (pane : Text)

namespace Tool

def addresses : Tool → List Address
  | .paneSendKeys p | .paneCapture p | .waitPaneState p | .paneSetState p | .setPaneWeight p
  | .openPaneSplit p | .paneLastBlock p | .paneRunCommand p => [.pane p]
  | .sessionClose s | .getSessionLayout s | .paneOpen s => [.session s]
  | .blockSearch session pane =>
    (session.map Address.session).toList ++ (pane.map Address.pane).toList

/-- What a tool goes on with. -/
def targets (d : Directory) : Tool → Except StructuredError (List Target)
  | .paneSendKeys p | .paneCapture p | .waitPaneState p | .paneSetState p | .setPaneWeight p
  | .openPaneSplit p | .paneLastBlock p | .paneRunCommand p =>
    (resolvePaneId text d p).map fun q => [.pane q]
  | .sessionClose s | .getSessionLayout s | .paneOpen s =>
    (resolveSessionId text d s).map fun s => [.session s]
  | .blockSearch session pane => do
    let session ← session.mapM (resolveSessionId text d)
    let pane ← pane.mapM (resolvePaneId text d)
    return (session.map Target.session).toList ++ (pane.map Target.pane).toList

/-- A tool goes on with what its prefixes single out, and with nothing else. -/
def Unguessed (d : Directory) (c : Tool) : Prop :=
  ∀ ts, c.targets text d = .ok ts → List.Forall₂ (Address.Singles text d) c.addresses ts

end Tool

/-- `list_panes`, whose `session_id` is a filter. -/
def toolListPanes (d : Directory) (sessionFilter : Option Text) : List PaneEntry :=
  d.all.filter fun p => (sessionFilter.map fun f => sessionMatches text f p.session).getD true

/-- The filter singles a session out, and its panes are listed. -/
def ListsOne (d : Directory) (sessionFilter : Text) : Prop :=
  ∃ s, Sole (sessionMatches text sessionFilter) d.sessions s ∧
    toolListPanes text d (some sessionFilter) = d.all.filter fun p => p.session = s

variable {text} {d : Directory} {pfx : Text} {s : SessionId} {q : PaneId}

theorem resolveId_eq_ok {α : Type} {noun : String} {l : List α} {x : α} :
    resolveId noun pfx l = .ok x ↔ l = [x] := by
  match l with
  | [] => simp [resolveId]
  | [y] => simp [resolveId]
  | y :: z :: l => simp [resolveId]

theorem resolveSessionId_eq_ok :
    resolveSessionId text d pfx = .ok s ↔ Sole (sessionMatches text pfx) d.sessions s :=
  resolveId_eq_ok.trans (filter_eq_singleton_iff d.sessions_nodup)

theorem resolvePaneId_sole (h : resolvePaneId text d pfx = .ok q) :
    Sole (paneMatches text pfx) d.paneIds q := by
  obtain ⟨e,he,rfl⟩ := map_eq_ok.mp h
  exact sole_of_filter_all (resolveId_eq_ok.mp he)

theorem resolvePaneId_singles {ts : List Target}
    (h : (resolvePaneId text d pfx).map (fun q => [Target.pane q]) = .ok ts) :
    List.Forall₂ (Address.Singles text d) [.pane pfx] ts := by
  obtain ⟨q,hq,rfl⟩ := map_eq_ok.mp h
  exact .cons (resolvePaneId_sole hq) .nil

theorem resolveSessionId_singles {ts : List Target}
    (h : (resolveSessionId text d pfx).map (fun s => [Target.session s]) = .ok ts) :
    List.Forall₂ (Address.Singles text d) [.session pfx] ts := by
  obtain ⟨s,hs,rfl⟩ := map_eq_ok.mp h
  exact .cons (resolveSessionId_eq_ok.mp hs) .nil

/-- An optional prefix gives nothing or what it singles out. -/
theorem mapM_singles {ι : Type} (address : Text → Address) (target : ι → Target)
    {resolve : Text → Except StructuredError ι}
    (h : ∀ pfx x, resolve pfx = .ok x → (address pfx).Singles text d (target x))
    {given : Option Text} {found : Option ι} (hfound : given.mapM resolve = .ok found) :
    List.Forall₂ (Address.Singles text d) (given.map address).toList (found.map target).toList := by
  cases given with
  | none =>
    obtain rfl := Except.ok.inj hfound
    exact .nil
  | some pfx =>
    obtain ⟨x,hx,hfound⟩ := bind_eq_ok.mp hfound
    obtain rfl := Except.ok.inj hfound
    exact .cons (h pfx x hx) .nil

theorem Tool.unguessed (c : Tool) : c.Unguessed text d := by
  intro ts hts
  cases c with
  | paneSendKeys _ | paneCapture _ | waitPaneState _ | paneSetState _ | setPaneWeight _
  | openPaneSplit _ | paneLastBlock _ | paneRunCommand _ => exact resolvePaneId_singles hts
  | sessionClose _ | getSessionLayout _ | paneOpen _ => exact resolveSessionId_singles hts
  | blockSearch session pane =>
    obtain ⟨s,hs,hts⟩ := bind_eq_ok.mp hts
    obtain ⟨q,hq,hts⟩ := bind_eq_ok.mp hts
    obtain rfl := Except.ok.inj hts
    have hsession := mapM_singles Address.session Target.session
      (fun _ _ h => resolveSessionId_eq_ok.mp h) hs
    have hpane := mapM_singles Address.pane Target.pane
      (fun _ _ h => resolvePaneId_sole h) hq
    exact List.rel_append hsession hpane

theorem listsOne_iff {sessionFilter : Text} : ListsOne text d sessionFilter ↔
    ∃ s, Sole (sessionMatches text sessionFilter) d.sessions s := by
  constructor
  · rintro ⟨s,hs,-⟩
    exact ⟨s,hs⟩
  · rintro ⟨s,hs⟩
    refine ⟨s,hs,List.filter_congr fun e he => ?_⟩
    have hsession := hs.2.2 e.session (d.all_listed e he)
    simp only [Option.map_some,Option.getD_some]
    rw [Bool.eq_iff_iff,decide_eq_true_iff]
    exact ⟨hsession,fun heq => heq ▸ hs.2.1⟩

end

/-- What a resource URI is read as. -/
inductive Resource where
  | panes
  | session (s : SessionId)
  | pane (p : PaneEntry)
  | output (p : PaneEntry)
  | block (b : BlockId)
  deriving DecidableEq, Repr

section

variable (text : Nat → Text) (parse : Text → Option Nat)

/-- The first eight characters of a UUID. -/
def short (uuid : Nat) : Text := (text uuid).take 8

namespace Resource

def uri : Resource → Text
  | .panes => "state://panes".toList
  | .session s => "session://".toList ++ short text s.uuid
  | .pane p => "pane://".toList ++ (short text p.session.uuid ++ '/' :: short text p.id.uuid)
  | .output p => "pane://".toList ++
    (short text p.session.uuid ++ '/' :: (short text p.id.uuid ++ '/' :: "output".toList))
  | .block b => "block://".toList ++ text b.uuid

/-- The resource is there. -/
def Exists (d : Directory) : Resource → Prop
  | .panes => True
  | .session s => s ∈ d.sessions
  | .pane p | .output p => p ∈ d.all
  | .block b => ∃ bytes, d.stdout b = .ok bytes

end Resource

def handleResourcesList (d : Directory) : List Resource :=
  .panes :: d.sessions.flatMap (fun s =>
    .session s :: (d.panes s).flatMap fun q => [.pane ⟨s,q⟩,.output ⟨s,q⟩]) ++
  d.recent.map .block

/-- `str::splitn` at slashes, with so many cuts at most -/
def splitn : Nat → Text → List Text
  | 0, t => [t]
  | n+1, t =>
    match t.dropWhile (· ≠ '/') with
    | [] => [t]
    | _ :: rest => t.takeWhile (· ≠ '/') :: splitn n rest

def entryMatches (sessPrefix panePrefix : Text) (p : PaneEntry) : Bool :=
  sessionMatches text sessPrefix p.session && paneMatches text panePrefix p.id

/-- `read_uri` after `session://` -/
def readSession (d : Directory) (rest : Text) : Except String Resource :=
  match d.sessions.find? (sessionMatches text rest) with
  | some s => .ok (.session s)
  | none => .error s!"no session matches '{String.ofList rest}'"

/-- `read_uri` after `pane://`, with the whole URI for its errors -/
def readPane (d : Directory) (uri rest : Text) : Except String Resource :=
  match splitn 2 rest with
  | sessPrefix :: panePrefix :: more =>
    match d.all.find? (entryMatches text sessPrefix panePrefix) with
    | some p => .ok (if more = ["output".toList] then .output p else .pane p)
    | none => .error s!"no pane matches '{String.ofList uri}'"
  | _ => .error s!"invalid pane URI: {String.ofList uri}"

/-- `read_uri` after `block://` -/
def readBlock (d : Directory) (rest : Text) : Except String Resource :=
  match parse rest with
  | some uuid => (d.stdout ⟨uuid⟩).map fun _ => .block ⟨uuid⟩
  | none => .error s!"invalid block UUID: {String.ofList rest}"

def readUri (d : Directory) (uri : Text) : Except String Resource :=
  if uri = "state://panes".toList then .ok .panes
  else if let some rest := strip "session://".toList uri then readSession text d rest
  else if let some rest := strip "pane://".toList uri then readPane text d uri rest
  else if let some rest := strip "block://".toList uri then readBlock parse d rest
  else .error s!"unknown URI scheme: {String.ofList uri}"

/-- What a URI with prefixes is read as is the only thing that they match. -/
def ReadsOnly (d : Directory) (uri : Text) : Resource → Prop
  | .session s => ∀ rest, uri = "session://".toList ++ rest →
    Sole (sessionMatches text rest) d.sessions s
  | .pane p | .output p => ∀ rest sessPrefix panePrefix more, uri = "pane://".toList ++ rest →
    splitn 2 rest = sessPrefix :: panePrefix :: more →
      Sole (entryMatches text sessPrefix panePrefix) d.all p
  | _ => True

/-- No two sessions or panes match a URI's prefixes. -/
def UriUnambiguous (d : Directory) (uri : Text) : Prop :=
  (∀ rest, uri = "session://".toList ++ rest → AtMostOne (sessionMatches text rest) d.sessions) ∧
  ∀ rest sessPrefix panePrefix more, uri = "pane://".toList ++ rest →
    splitn 2 rest = sessPrefix :: panePrefix :: more →
      AtMostOne (entryMatches text sessPrefix panePrefix) d.all

/-- No session or pane that the daemon lists before the resource's shares its first eight
characters, for a pane with its session's. -/
def Leads (d : Directory) : Resource → Prop
  | .session s => Foremost (fun s' => short text s'.uuid = short text s.uuid) d.sessions s
  | .pane p | .output p =>
    Foremost (fun p' => short text p'.session.uuid = short text p.session.uuid ∧
      short text p'.id.uuid = short text p.id.uuid) d.all p
  | _ => True

variable {text parse} {d d' : Directory} {pfx rest t uri : Text} {s : SessionId} {p : PaneEntry}

theorem session_ne_pane (a b : Text) : "session://".toList ++ a ≠ "pane://".toList ++ b := by simp

theorem readUri_session (d : Directory) (rest : Text) :
    readUri text parse d ("session://".toList ++ rest) = readSession text d rest := by
  have hstate : "session://".toList ++ rest ≠ "state://panes".toList := by simp
  rw [readUri,if_neg hstate,strip_eq_some.mpr rfl]

theorem readUri_pane (d : Directory) (rest : Text) :
    readUri text parse d ("pane://".toList ++ rest) =
      readPane text d ("pane://".toList ++ rest) rest := by
  have hstate : "pane://".toList ++ rest ≠ "state://panes".toList := by simp
  rw [readUri,if_neg hstate,strip_eq_none (by simp),strip_eq_some.mpr rfl]

theorem readUri_block (d : Directory) (rest : Text) :
    readUri text parse d ("block://".toList ++ rest) = readBlock parse d rest := by
  have hstate : "block://".toList ++ rest ≠ "state://panes".toList := by simp
  rw [readUri,if_neg hstate,strip_eq_none (by simp),strip_eq_none (by simp),
    strip_eq_some.mpr rfl]

theorem readSession_eq_ok {r : Resource} : readSession text d rest = .ok r ↔
    ∃ s, d.sessions.find? (sessionMatches text rest) = some s ∧ r = .session s := by
  rw [readSession]
  cases d.sessions.find? (sessionMatches text rest) with
  | none => simp
  | some s => simp [eq_comm]

theorem readPane_eq_ok {sessPrefix panePrefix : Text} {more : List Text} {r : Resource}
    (hcut : splitn 2 rest = sessPrefix :: panePrefix :: more) :
    readPane text d uri rest = .ok r ↔
      ∃ p, d.all.find? (entryMatches text sessPrefix panePrefix) = some p ∧
        r = if more = ["output".toList] then .output p else .pane p := by
  simp only [readPane,hcut]
  generalize ["output".toList] = tail
  cases d.all.find? (entryMatches text sessPrefix panePrefix) with
  | none => simp
  | some p => simp [eq_comm]

/-- A pane is read only of a URI with two prefixes. -/
theorem readPane_cut {r : Resource} (h : readPane text d uri rest = .ok r) :
    ∃ sessPrefix panePrefix more, splitn 2 rest = sessPrefix :: panePrefix :: more := by
  rw [readPane] at h
  split at h
  case h_1 sessPrefix panePrefix more hcut => exact ⟨sessPrefix,panePrefix,more,hcut⟩
  case h_2 => cases h

theorem readUri_session_only :
    (∀ r, readUri text parse d ("session://".toList ++ rest) = .ok r →
        ReadsOnly text d ("session://".toList ++ rest) r) ↔
      AtMostOne (sessionMatches text rest) d.sessions := by
  rw [← find?_sole_iff,readUri_session]
  constructor
  · intro h s hs
    exact h (.session s) (readSession_eq_ok.mpr ⟨s,hs,rfl⟩) rest rfl
  · intro h r hr
    obtain ⟨s,hs,rfl⟩ := readSession_eq_ok.mp hr
    intro rest' heq
    rw [← List.append_cancel_left heq]
    exact h s hs

theorem readUri_pane_only :
    (∀ r, readUri text parse d ("pane://".toList ++ rest) = .ok r →
        ReadsOnly text d ("pane://".toList ++ rest) r) ↔
      ∀ sessPrefix panePrefix more, splitn 2 rest = sessPrefix :: panePrefix :: more →
        AtMostOne (entryMatches text sessPrefix panePrefix) d.all := by
  rw [readUri_pane]
  constructor
  · intro h sessPrefix panePrefix more hcut
    refine find?_sole_iff.mp fun p hp => ?_
    have hread := h _ ((readPane_eq_ok hcut).mpr ⟨p,hp,rfl⟩)
    split at hread
    · exact hread rest _ _ more rfl hcut
    · exact hread rest _ _ more rfl hcut
  · intro h r hr
    obtain ⟨sessPrefix,panePrefix,more,hcut⟩ := readPane_cut hr
    obtain ⟨p,hp,rfl⟩ := (readPane_eq_ok hcut).mp hr
    have hsole := find?_sole_iff.mpr (h _ _ _ hcut) p hp
    have hall : ∀ rest' sessPrefix' panePrefix' more',
        "pane://".toList ++ rest = "pane://".toList ++ rest' →
        splitn 2 rest' = sessPrefix' :: panePrefix' :: more' →
          Sole (entryMatches text sessPrefix' panePrefix') d.all p := by
      intro rest' sessPrefix' panePrefix' more' heq hcut'
      rw [← List.append_cancel_left heq,hcut] at hcut'
      simp only [List.cons.injEq] at hcut'
      obtain ⟨rfl,rfl,rfl⟩ := hcut'
      exact hsole
    split
    · exact hall
    · exact hall

/-- A read guesses where several match the prefixes of its URI, and only there. -/
theorem readUri_only_iff :
    (∀ r, readUri text parse d uri = .ok r → ReadsOnly text d uri r) ↔
      UriUnambiguous text d uri := by
  by_cases hs : ∃ rest, uri = "session://".toList ++ rest
  · obtain ⟨rest,rfl⟩ := hs
    rw [readUri_session_only,UriUnambiguous]
    constructor
    · intro h
      refine ⟨fun rest' heq => ?_,fun rest' _ _ _ heq => absurd heq (session_ne_pane rest rest')⟩
      rw [← List.append_cancel_left heq]
      exact h
    · intro h
      exact h.1 rest rfl
  · by_cases hp : ∃ rest, uri = "pane://".toList ++ rest
    · obtain ⟨rest,rfl⟩ := hp
      rw [readUri_pane_only,UriUnambiguous]
      constructor
      · intro h
        refine ⟨fun rest' heq => absurd heq.symm (session_ne_pane rest' rest),?_⟩
        intro rest' sessPrefix panePrefix more heq hcut
        rw [← List.append_cancel_left heq] at hcut
        exact h _ _ more hcut
      · intro h sessPrefix panePrefix more hcut
        exact h.2 rest _ _ more rfl hcut
    · have hnone : ∀ r, ReadsOnly text d uri r := by
        intro r
        cases r with
        | session s => exact fun rest heq => absurd ⟨rest,heq⟩ hs
        | pane p | output p => exact fun rest _ _ _ heq => absurd ⟨rest,heq⟩ hp
        | panes | block _ => trivial
      refine iff_of_true (fun r _ => hnone r) ⟨fun rest heq => absurd ⟨rest,heq⟩ hs,?_⟩
      exact fun rest _ _ _ heq => absurd ⟨rest,heq⟩ hp

theorem splitn_cut {a : Text} (h : '/' ∉ a) (n : Nat) (t : Text) :
    splitn (n+1) (a ++ '/' :: t) = a :: splitn n t := by
  have hall : ∀ c ∈ a, decide (c ≠ '/') := fun c hc => decide_eq_true fun heq => h (heq ▸ hc)
  have hdrop : (a ++ '/' :: t).dropWhile (· ≠ '/') = '/' :: t := by
    rw [List.dropWhile_append_of_pos hall]
    simp
  have htake : (a ++ '/' :: t).takeWhile (· ≠ '/') = a := by
    rw [List.takeWhile_append_of_pos hall]
    simp
  rw [splitn,hdrop,htake]

theorem splitn_whole {a : Text} (h : '/' ∉ a) (n : Nat) : splitn n a = [a] := by
  cases n with
  | zero => rfl
  | succ n =>
    have hall : ∀ c ∈ a, decide (c ≠ '/') := fun c hc => decide_eq_true fun heq => h (heq ▸ hc)
    have hdrop : a.dropWhile (· ≠ '/') = [] := List.dropWhile_eq_nil_iff.mpr hall
    rw [splitn,hdrop]

section

variable (hlen : ∀ u, 8 ≤ (text u).length)

include hlen

theorem startsWith_short (u v : Nat) :
    startsWith text (short text u) v ↔ short text v = short text u :=
  (take_isPrefixOf_iff (hlen u)).trans eq_comm

theorem sessionMatches_short (s : SessionId) : sessionMatches text (short text s.uuid) =
    fun s' => decide (short text s'.uuid = short text s.uuid) := by
  funext s'
  rw [Bool.eq_iff_iff,decide_eq_true_iff]
  exact startsWith_short hlen s.uuid s'.uuid

theorem entryMatches_short (p : PaneEntry) :
    entryMatches text (short text p.session.uuid) (short text p.id.uuid) =
      fun p' => decide (short text p'.session.uuid = short text p.session.uuid ∧
        short text p'.id.uuid = short text p.id.uuid) := by
  funext p'
  rw [Bool.eq_iff_iff,decide_eq_true_iff,entryMatches,Bool.and_eq_true]
  exact and_congr (startsWith_short hlen _ _) (startsWith_short hlen _ _)

theorem find?_session_iff : d.sessions.find? (sessionMatches text (short text s.uuid)) = some s ↔
    Leads text d (.session s) := by
  rw [sessionMatches_short hlen,find?_eq_some_iff_foremost]
  rfl

theorem find?_pane_iff :
    d.all.find? (entryMatches text (short text p.session.uuid) (short text p.id.uuid)) = some p ↔
      Leads text d (.pane p) := by
  rw [entryMatches_short hlen,find?_eq_some_iff_foremost]
  rfl

theorem readUri_pane_uri (hslash : ∀ u, '/' ∉ text u) :
    readUri text parse d ((Resource.pane p).uri text) = .ok (.pane p) ↔ Leads text d (.pane p) := by
  have hshort : ∀ u, '/' ∉ short text u := fun u h => hslash u (List.mem_of_mem_take h)
  have hcut := splitn_cut (hshort p.session.uuid) 1 (short text p.id.uuid)
  rw [splitn_whole (hshort _)] at hcut
  change readUri text parse d ("pane://".toList ++ _) = _ ↔ _
  rw [readUri_pane,readPane_eq_ok hcut,← find?_pane_iff hlen]
  simp

theorem readUri_output_uri (hslash : ∀ u, '/' ∉ text u) :
    readUri text parse d ((Resource.output p).uri text) = .ok (.output p) ↔
      Leads text d (.output p) := by
  have hshort : ∀ u, '/' ∉ short text u := fun u h => hslash u (List.mem_of_mem_take h)
  have hcut := splitn_cut (hshort p.session.uuid) 1
    (short text p.id.uuid ++ '/' :: "output".toList)
  have hoff := splitn_cut (hshort p.id.uuid) 0 "output".toList
  rw [hoff,splitn] at hcut
  have hpane := find?_pane_iff (d := d) (p := p) hlen
  change readUri text parse d ("pane://".toList ++ _) = _ ↔ Leads text d (.pane p)
  rw [readUri_pane,readPane_eq_ok hcut,← hpane]
  simp

/-- A listed resource that is there is read where it leads those with its URI. -/
theorem readUri_uri_iff (hslash : ∀ u, '/' ∉ text u) (hparse : ∀ u, parse (text u) = some u)
    {r : Resource} (h : r.Exists d) :
    readUri text parse d (r.uri text) = .ok r ↔ Leads text d r := by
  cases r with
  | panes => exact iff_of_true rfl trivial
  | session s =>
    change readUri text parse d ("session://".toList ++ _) = _ ↔ _
    rw [readUri_session,readSession_eq_ok,← find?_session_iff hlen]
    simp
  | pane p => exact readUri_pane_uri hlen hslash
  | output p => exact readUri_output_uri hlen hslash
  | block b =>
    obtain ⟨bytes,hbytes⟩ := h
    refine iff_of_true ?_ trivial
    change readUri text parse d ("block://".toList ++ _) = _
    rw [readUri_block,readBlock,hparse]
    simp only [hbytes]
    rfl

end

/-- Of the commands and tools that take a prefix `send-keys`, `capture-pane` without a session and
`list_panes` guess, where several match; so do the reads of the URIs with prefixes. A listed URI
reads its resource where no other that comes before shares its first characters. -/
theorem prefixes_single_out_iff (text : Nat → Text) (parse : Text → Option Nat)
    (hlen : ∀ u, 8 ≤ (text u).length) (hslash : ∀ u, '/' ∉ text u)
    (hparse : ∀ u, parse (text u) = some u) :
    (∀ d (c : Sub), c.Unguessed text d ↔ c.Unambiguous text d) ∧
      (∀ d (c : Tool), c.Unguessed text d) ∧
      (∀ d sessionFilter, ListsOne text d sessionFilter ↔
        ∃ s, Sole (sessionMatches text sessionFilter) d.sessions s) ∧
      (∀ d uri, (∀ r, readUri text parse d uri = .ok r → ReadsOnly text d uri r) ↔
        UriUnambiguous text d uri) ∧
      ∀ (d d' : Directory), ∀ r ∈ handleResourcesList d, r.Exists d' →
        (readUri text parse d' (r.uri text) = .ok r ↔ Leads text d' r) :=
  ⟨fun _ => Sub.unguessed_iff,fun _ => Tool.unguessed,fun _ _ => listsOne_iff,
    fun _ _ => readUri_only_iff,fun _ _ _ _ h => readUri_uri_iff hlen hslash hparse h⟩

/-! UUIDs of 128 bits as their library prints them, with longer texts for the numbers past those. -/

def hexDigit (n : Nat) : Char := "0123456789abcdef".toList.getD n '0'

def hexValue (c : Char) : Nat := "0123456789abcdef".toList.idxOf c

def hexDigits : Nat → Nat → Text
  | 0, _ => []
  | k+1, n => hexDigits k (n/16) ++ [hexDigit (n%16)]

def hyphenated (n : Nat) : Text :=
  let digits := hexDigits 32 n
  digits.take 8 ++ '-' :: ((digits.drop 8).take 4 ++ '-' :: ((digits.drop 12).take 4 ++
    '-' :: ((digits.drop 16).take 4 ++ '-' :: digits.drop 20))) ++ List.replicate (n/16^32) '~'

def unhyphenated (t : Text) : Option Nat :=
  let digits := t.filter fun c => c ≠ '-' ∧ c ≠ '~'
  some (digits.foldl (fun n c => n*16+hexValue c) 0 + 16^32*t.count '~')

theorem hexValue_hexDigit : ∀ n < 16, hexValue (hexDigit n) = n := by decide

theorem mem_hexDigits {c : Char} {k n : Nat} (h : c ∈ hexDigits k n) :
    ∃ m < 16, c = hexDigit m := by
  induction k generalizing n with
  | zero => cases h
  | succ k ih =>
    rw [hexDigits,List.mem_append,List.mem_singleton] at h
    exact h.elim ih fun h => ⟨n%16,Nat.mod_lt n (by decide),h⟩

theorem length_hexDigits (k n : Nat) : (hexDigits k n).length = k := by
  induction k generalizing n with
  | zero => rfl
  | succ k ih => simp [hexDigits,ih]

theorem foldl_hexDigits (k n : Nat) :
    (hexDigits k n).foldl (fun n c => n*16+hexValue c) 0 = n % 16^k := by
  induction k generalizing n with
  | zero => simp [hexDigits,Nat.mod_one]
  | succ k ih =>
    rw [hexDigits,List.foldl_append,ih,List.foldl_cons,List.foldl_nil,
      hexValue_hexDigit _ (Nat.mod_lt n (by decide)),Nat.pow_succ,Nat.mul_comm (16^k),Nat.mod_mul,
      Nat.mul_comm 16,Nat.add_comm]

theorem mem_hyphenated {c : Char} {n : Nat} (h : c ∈ hyphenated n) :
    c ∈ hexDigits 32 n ∨ c = '-' ∨ c = '~' := by
  simp only [hyphenated,List.mem_append,List.mem_cons] at h
  obtain ((h | rfl | h | rfl | h | rfl | h | rfl | h) | h) := h
  · exact Or.inl (List.mem_of_mem_take h)
  · exact Or.inr (Or.inl rfl)
  · exact Or.inl (List.mem_of_mem_drop (List.mem_of_mem_take h))
  · exact Or.inr (Or.inl rfl)
  · exact Or.inl (List.mem_of_mem_drop (List.mem_of_mem_take h))
  · exact Or.inr (Or.inl rfl)
  · exact Or.inl (List.mem_of_mem_drop (List.mem_of_mem_take h))
  · exact Or.inr (Or.inl rfl)
  · exact Or.inl (List.mem_of_mem_drop h)
  · exact Or.inr (Or.inr (List.eq_of_mem_replicate h))

theorem slash_not_mem_hyphenated (n : Nat) : '/' ∉ hyphenated n := by
  intro h
  obtain h | h | h := mem_hyphenated h
  · obtain ⟨m,hm,heq⟩ := mem_hexDigits h
    exact absurd heq.symm ((by decide : ∀ m < 16, hexDigit m ≠ '/') m hm)
  · exact absurd h (by decide)
  · exact absurd h (by decide)

theorem eight_le_length_hyphenated (n : Nat) : 8 ≤ (hyphenated n).length := by
  have htake : ((hexDigits 32 n).take 8).length = 8 := by simp [length_hexDigits]
  simp only [hyphenated,List.length_append]
  omega

/-- The hyphens cut the digits into groups. -/
theorem groups (l : Text) : l.take 8 ++ ((l.drop 8).take 4 ++ ((l.drop 12).take 4 ++
    ((l.drop 16).take 4 ++ l.drop 20))) = l := by
  have hcut : ∀ k, (l.drop k).take 4 ++ l.drop (k+4) = l.drop k := by
    intro k
    rw [← List.drop_drop,List.take_append_drop]
  rw [hcut 16,hcut 12,hcut 8,List.take_append_drop]

theorem unhyphenated_hyphenated (n : Nat) : unhyphenated (hyphenated n) = some n := by
  set digits := hexDigits 32 n with hdigits
  have hplain : ∀ c ∈ digits, c ≠ '-' ∧ c ≠ '~' := by
    intro c hc
    obtain ⟨m,hm,rfl⟩ := mem_hexDigits hc
    exact (by decide : ∀ m < 16, hexDigit m ≠ '-' ∧ hexDigit m ≠ '~') m hm
  have hkept : ∀ l, l ⊆ digits → l.filter (fun c => c ≠ '-' ∧ c ≠ '~') = l := fun l hl =>
    List.filter_eq_self.mpr fun c hc => decide_eq_true (hplain c (hl hc))
  have hnone : ∀ l, l ⊆ digits → l.count '~' = 0 := fun l hl =>
    List.count_eq_zero.mpr fun hc => (hplain _ (hl hc)).2 rfl
  have hmid : ∀ k, (digits.drop k).take 4 ⊆ digits := fun k =>
    fun _ hc => List.mem_of_mem_drop (List.mem_of_mem_take hc)
  have hfilter : (hyphenated n).filter (fun c => c ≠ '-' ∧ c ≠ '~') = digits := by
    rw [hyphenated,← hdigits]
    simp only [List.filter_append,List.filter_cons,hkept _ (List.take_subset 8 digits),
      hkept _ (hmid _),hkept _ (List.drop_subset 20 digits)]
    simp [groups]
  have hcount : (hyphenated n).count '~' = n/16^32 := by
    rw [hyphenated,← hdigits]
    simp only [List.count_append,List.count_cons,hnone _ (List.take_subset 8 digits),
      hnone _ (hmid _),hnone _ (List.drop_subset 20 digits),List.count_replicate_self]
    simp
  rw [unhyphenated,hfilter,hcount,foldl_hexDigits,Nat.mod_add_div]

/-- Two panes of a session whose UUIDs share their first characters. -/
def twins : Directory where
  sessions := [⟨7⟩]
  panes s := if s = ⟨7⟩ then [⟨1⟩,⟨2⟩] else []
  all := [⟨⟨7⟩,⟨1⟩⟩,⟨⟨7⟩,⟨2⟩⟩]
  recent := [⟨3⟩]
  stdout _ := .ok []
  sessions_nodup := by decide
  panes_nodup s := by
    split <;> decide
  all_nodup := by decide
  mem_panes := by simp
  all_listed := by simp

theorem prefixes_single_out_iff_hyphenated :
    (¬(Sub.sendKeys "00000000".toList).Unguessed hyphenated twins) ∧
      readUri hyphenated unhyphenated twins (("pane://".toList ++ "00000000/00000000".toList)) =
        .ok (.pane ⟨⟨7⟩,⟨1⟩⟩) := by
  have hall := prefixes_single_out_iff hyphenated unhyphenated eight_le_length_hyphenated
    slash_not_mem_hyphenated unhyphenated_hyphenated
  refine ⟨fun h => ?_,?_⟩
  · have hone := (hall.1 twins (.sendKeys "00000000".toList)).mp h
    exact absurd (hone ⟨1⟩ (by decide) (by decide) ⟨2⟩ (by decide) (by decide)) (by decide)
  · have hexists : (Resource.pane ⟨⟨7⟩,⟨1⟩⟩).Exists twins := by simp [Resource.Exists,twins]
    exact (hall.2.2.2.2 twins twins (.pane ⟨⟨7⟩,⟨1⟩⟩) (by decide) hexists).mpr
      ⟨by decide,[],_,rfl,by simp⟩

/-- The keys go to the first of two panes. -/
theorem keys_to_first : ¬∀ d (c : Sub), c.Unguessed hyphenated d := by
  intro hall
  have hsole := hall twins (.sendKeys "00000000".toList) (.pane ⟨1⟩) (by decide)
  exact absurd (hsole.2.2 ⟨2⟩ (by decide) (by decide)) (by decide)

end

end Pyre.Mcp
