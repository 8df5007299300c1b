import Pyre.Base.Joined
import Pyre.Base.Reader
import Pyre.Proto

/-!
The first bytes of a connection: what the clients write before their first frame, and what the
daemons and a worker read of it. The daemons' `handle_conn` and `handle_public_conn` read the
same header; what comes after it belongs to the frames.
-/

set_option autoImplicit false

namespace Pyre.Stream
open Base

def protoVersion : Nat := 7

def modeControl : UInt8 := 0x01
def modeStream : UInt8 := 0x02

/-- A UUID as it is sent. -/
abbrev Uuid := List.Vector UInt8 16

/-- What a connection is for, once its header is read. -/
inductive Greeting where
  | control
  | stream (session pane : Uuid)
  deriving DecidableEq

inductive Refusal where
  | expectedControl (tag : UInt8)
  | versionMismatch (client : Nat)
  | unknownMode (tag : UInt8)
  deriving DecidableEq

/-- `{:#04x}` of a byte. -/
def hexByte (b : UInt8) : Text :=
  "0x".toList ++ [Nat.digitChar (b.toNat / 16),Nat.digitChar (b.toNat % 16)]

namespace Refusal

def text : Refusal → Text
  | expectedControl tag =>
    "expected control mode tag ".toList ++ hexByte modeControl ++ ", got ".toList ++ hexByte tag
  | versionMismatch client =>
    "proto version mismatch: client=".toList ++ decimal client ++ ", server=".toList ++
      decimal protoVersion
  | unknownMode tag => "unknown mode tag ".toList ++ hexByte tag

end Refusal

/-! ### The clients -/

/-- The buffers of the calls of `write_all`. -/
def writeControlClient : List Bytes := [[modeControl],toLeBytes 4 protoVersion]

def attachStream (session pane : Uuid) : List Bytes :=
  [[modeStream],session.toList,pane.toList]

/-- The supervisor to the worker, before the frames of a pane. -/
def writeSlot (slot : Nat) : List Bytes := [toLeBytes 4 slot]

/-- All that a client writes for this. -/
def Greeting.header : Greeting → Bytes
  | control => writeControlClient.flatten
  | stream session pane => (attachStream session pane).flatten

/-! ### The daemons -/

def readControlVersionAfterTag : Reader UInt8 (Except Refusal Unit) :=
  .readExact 4 fun ver =>
    if fromLeBytes ver.toList ≠ protoVersion then
      .done (.error (.versionMismatch (fromLeBytes ver.toList)))
    else .done (.ok ())

def readControlServer : Reader UInt8 (Except Refusal Unit) :=
  .readExact 1 fun tag =>
    if tag.head ≠ modeControl then .done (.error (.expectedControl tag.head))
    else readControlVersionAfterTag

/-- The header `handle_stream` and `proxy_stream_to_worker` read. -/
def readStreamHeader : Reader UInt8 Greeting :=
  .readExact 16 fun session => .readExact 16 fun pane => .done (.stream session pane)

def handleConn : Reader UInt8 (Except Refusal Greeting) :=
  .readExact 1 fun tag =>
    if tag.head = modeControl then
      readControlVersionAfterTag.bind fun read => .done (read.map fun _ => .control)
    else if tag.head = modeStream then readStreamHeader.bind fun greeting => .done (.ok greeting)
    else .done (.error (.unknownMode tag.head))

/-- The worker's `handle_stream_conn`. -/
def readSlot : Reader UInt8 Nat :=
  .readExact 4 fun slot => .done (fromLeBytes slot.toList)

/-! ### What they make of it -/

theorem version_iff {ver : List.Vector UInt8 4} :
    fromLeBytes ver.toList = protoVersion ↔ ver.toList = toLeBytes 4 protoVersion := by
  rw [fromLeBytes_eq_iff (by rw [ver.toList_length]; decide),ver.toList_length]

/-- The answer to a version. -/
def versionRead (ver : List.Vector UInt8 4) : Except Refusal Unit :=
  if fromLeBytes ver.toList ≠ protoVersion then
    .error (.versionMismatch (fromLeBytes ver.toList))
  else .ok ()

theorem reads_version_iff {l : Bytes} {e : Except Refusal Unit} :
    readControlVersionAfterTag.Reads l e ↔ ∃ ver, l = ver.toList ∧ e = versionRead ver := by
  rw [readControlVersionAfterTag,Reader.reads_readExact_iff]
  refine exists_congr fun ver => ?_
  have hnext : (if fromLeBytes ver.toList ≠ protoVersion then
      (.done (.error (.versionMismatch (fromLeBytes ver.toList))) :
        Reader UInt8 (Except Refusal Unit))
      else .done (.ok ())) = .done (versionRead ver) := by
    rw [versionRead]
    split <;> rfl
  simp only [hnext,Reader.reads_done_iff]
  constructor
  · rintro ⟨m,⟨rfl,rfl⟩,rfl⟩
    exact ⟨List.append_nil _,rfl⟩
  · rintro ⟨rfl,rfl⟩
    exact ⟨[],⟨rfl,rfl⟩,(List.append_nil _).symm⟩

theorem reads_streamHeader_iff {l : Bytes} {g : Greeting} :
    readStreamHeader.Reads l g ↔
      ∃ session pane : Uuid, l = session.toList ++ pane.toList ∧ g = .stream session pane := by
  simp only [readStreamHeader,Reader.reads_readExact_iff,Reader.reads_done_iff]
  constructor
  · rintro ⟨session,m,⟨pane,m',⟨rfl,rfl⟩,rfl⟩,rfl⟩
    exact ⟨session,pane,by rw [List.append_nil],rfl⟩
  · rintro ⟨session,pane,rfl,rfl⟩
    exact ⟨session,pane.toList,⟨pane,[],⟨rfl,rfl⟩,by rw [List.append_nil]⟩,rfl⟩

/-- What `handle_conn` reads and what it makes of that. -/
inductive Header : Bytes → Except Refusal Greeting → Prop where
  | control (ver : List.Vector UInt8 4) :
      Header (modeControl :: ver.toList) ((versionRead ver).map fun _ => .control)
  | stream (session pane : Uuid) :
      Header (modeStream :: (session.toList ++ pane.toList)) (.ok (.stream session pane))
  | unknown (tag : UInt8) (hcontrol : tag ≠ modeControl) (hstream : tag ≠ modeStream) :
      Header [tag] (.error (.unknownMode tag))

theorem reads_handleConn_iff {l : Bytes} {e : Except Refusal Greeting} :
    handleConn.Reads l e ↔ Header l e := by
  constructor
  · intro h
    obtain ⟨tag,m,hm,rfl⟩ := Reader.reads_readExact_iff.mp h
    rw [tag.toList_singleton]
    split at hm
    · rename_i hcontrol
      obtain ⟨read,l₁,l₂,h₁,h₂,rfl⟩ := Reader.reads_bind_iff.mp hm
      obtain ⟨ver,rfl,rfl⟩ := reads_version_iff.mp h₁
      obtain ⟨rfl,rfl⟩ := Reader.reads_done_iff.mp h₂
      rw [hcontrol,List.append_nil]
      exact .control ver
    · rename_i hcontrol
      split at hm
      · rename_i hstream
        obtain ⟨greeting,l₁,l₂,h₁,h₂,rfl⟩ := Reader.reads_bind_iff.mp hm
        obtain ⟨session,pane,rfl,rfl⟩ := reads_streamHeader_iff.mp h₁
        obtain ⟨rfl,rfl⟩ := Reader.reads_done_iff.mp h₂
        rw [hstream,List.append_nil]
        exact .stream session pane
      · rename_i hstream
        obtain ⟨rfl,rfl⟩ := Reader.reads_done_iff.mp hm
        exact .unknown _ hcontrol hstream
  · intro h
    cases h with
    | control ver =>
      refine .readExact (⟨[modeControl],rfl⟩ : List.Vector UInt8 1) ?_
      exact Reader.reads_bind_iff.mpr
        ⟨_,_,[],reads_version_iff.mpr ⟨ver,rfl,rfl⟩,.done _,(List.append_nil _).symm⟩
    | stream session pane =>
      refine .readExact (⟨[modeStream],rfl⟩ : List.Vector UInt8 1) ?_
      exact Reader.reads_bind_iff.mpr
        ⟨_,_,[],reads_streamHeader_iff.mpr ⟨session,pane,rfl,rfl⟩,.done _,
          (List.append_nil _).symm⟩
    | unknown tag hcontrol hstream =>
      refine .readExact (⟨[tag],rfl⟩ : List.Vector UInt8 1) ?_
      have hnext (r s t : Reader UInt8 (Except Refusal Greeting)) :
          (if tag = modeControl then r else if tag = modeStream then s else t) = t := by
        rw [if_neg hcontrol,if_neg hstream]
      exact (hnext _ _ _).symm ▸ Reader.Reads.done _

theorem versionRead_ok_iff {ver : List.Vector UInt8 4} :
    versionRead ver = .ok () ↔ ver.toList = toLeBytes 4 protoVersion := by
  rw [← version_iff,versionRead]
  split <;> simp_all

theorem versionRead_protoVersion : versionRead ⟨toLeBytes 4 protoVersion,rfl⟩ = .ok () :=
  versionRead_ok_iff.mpr rfl

theorem versionRead_error_iff {ver : List.Vector UInt8 4} {e : Refusal} :
    versionRead ver = .error e ↔ ver.toList ≠ toLeBytes 4 protoVersion ∧
      e = .versionMismatch (fromLeBytes ver.toList) := by
  rw [Ne,← version_iff,versionRead]
  split <;> simp_all [eq_comm]

theorem header_ok_iff {l : Bytes} {g : Greeting} : Header l (.ok g) ↔ l = g.header := by
  constructor
  · intro h
    generalize he : Except.ok g = e at h
    cases h with
    | control ver =>
      cases hver : versionRead ver with
      | error e => rw [hver] at he; cases he
      | ok u =>
        rw [hver] at he
        cases he
        rw [versionRead_ok_iff.mp hver]
        rfl
    | stream session pane =>
      cases he
      simp [Greeting.header,attachStream]
    | unknown tag hcontrol hstream => cases he
  · rintro rfl
    cases g with
    | control =>
      have h := Header.control ⟨toLeBytes 4 protoVersion,rfl⟩
      rw [versionRead_protoVersion] at h
      exact h
    | stream session pane =>
      have h := Header.stream session pane
      simpa [Greeting.header,attachStream] using h

theorem header_error_iff {l : Bytes} {e : Refusal} :
    Header l (.error e) ↔
      (∃ ver : List.Vector UInt8 4, l = modeControl :: ver.toList ∧
        ver.toList ≠ toLeBytes 4 protoVersion ∧ e = .versionMismatch (fromLeBytes ver.toList)) ∨
      ∃ tag, l = [tag] ∧ tag ≠ modeControl ∧ tag ≠ modeStream ∧ e = .unknownMode tag := by
  constructor
  · intro h
    generalize he : Except.error e = r at h
    cases h with
    | control ver =>
      cases hver : versionRead ver with
      | error e' =>
        rw [hver] at he
        cases he
        exact .inl ⟨ver,rfl,versionRead_error_iff.mp hver⟩
      | ok u => rw [hver] at he; cases he
    | stream session pane => cases he
    | unknown tag hcontrol hstream =>
      cases he
      exact .inr ⟨tag,rfl,hcontrol,hstream,rfl⟩
  · rintro (⟨ver,rfl,hne,rfl⟩ | ⟨tag,rfl,hcontrol,hstream,rfl⟩)
    · have h := Header.control ver
      rw [versionRead_error_iff.mpr ⟨hne,rfl⟩] at h
      exact h
    · exact .unknown tag hcontrol hstream

/-- The server that takes control connections only admits what `handle_conn` admits as one. -/
theorem controlServer_iff (l rest : Bytes) :
    readControlServer.run l = (.done (.ok ()),rest) ↔
      handleConn.run l = (.done (.ok .control),rest) := by
  have hreads (head : Bytes) :
      readControlServer.Reads head (.ok ()) ↔ head = Greeting.control.header := by
    rw [readControlServer,Reader.reads_readExact_iff]
    constructor
    · rintro ⟨tag,m,hm,rfl⟩
      split at hm
      · cases hm
      · rename_i hcontrol
        obtain ⟨ver,rfl,hver⟩ := reads_version_iff.mp hm
        rw [tag.toList_singleton,not_not.mp hcontrol,versionRead_ok_iff.mp hver.symm]
        rfl
    · rintro rfl
      refine ⟨⟨[modeControl],rfl⟩,_,?_,rfl⟩
      exact reads_version_iff.mpr ⟨⟨toLeBytes 4 protoVersion,rfl⟩,rfl,versionRead_protoVersion.symm⟩
  simp only [Reader.run_eq_done_iff,hreads,reads_handleConn_iff,header_ok_iff]

/-- How much `handle_conn` reads of a connection that begins with these bytes. -/
def headerLength : Bytes → Nat
  | [] => 1
  | tag :: _ => if tag = modeControl then 5 else if tag = modeStream then 33 else 1

theorem Header.length_eq {l : Bytes} {e : Except Refusal Greeting} (h : Header l e)
    (rest : Bytes) : headerLength (l ++ rest) = l.length := by
  cases h with
  | control ver => simp [headerLength]
  | stream session pane => simp [headerLength,modeStream,modeControl]
  | unknown tag hcontrol hstream => simp [headerLength,hcontrol,hstream]

theorem exists_header {l : Bytes} (h : headerLength l ≤ l.length) :
    ∃ head e rest, Header head e ∧ l = head ++ rest := by
  cases l with
  | nil => simp [headerLength] at h
  | cons tag l =>
    by_cases hcontrol : tag = modeControl
    · subst hcontrol
      simp [headerLength] at h
      obtain ⟨ver,m,rfl⟩ | hshort := Reader.long_or_short 4 l
      · exact ⟨_,_,m,.control ver,rfl⟩
      · omega
    · by_cases hstream : tag = modeStream
      · subst hstream
        simp [headerLength,hcontrol] at h
        obtain ⟨session,m,rfl⟩ | hshort := Reader.long_or_short 16 l
        · obtain ⟨pane,m,rfl⟩ | hshort := Reader.long_or_short 16 m
          · exact ⟨_,_,m,.stream session pane,by simp⟩
          · simp at h
            omega
        · omega
      · exact ⟨[tag],_,l,.unknown tag hcontrol hstream,rfl⟩

theorem reads_slot_iff {l : Bytes} {slot : Nat} :
    readSlot.Reads l slot ↔ slot < 2 ^ 32 ∧ l = (writeSlot slot).flatten := by
  simp only [readSlot,Reader.reads_readExact_iff,Reader.reads_done_iff,writeSlot,
    List.flatten_singleton]
  constructor
  · rintro ⟨v,m,⟨rfl,rfl⟩,rfl⟩
    have hlen : v.toList.length = 4 := v.toList_length
    have hback := toLeBytes_fromLeBytes v.toList
    rw [hlen] at hback
    exact ⟨by simpa [hlen] using fromLeBytes_lt v.toList,by rw [List.append_nil,hback]⟩
  · rintro ⟨hlt,rfl⟩
    refine ⟨⟨toLeBytes 4 slot,length_toLeBytes 4 slot⟩,[],⟨rfl,?_⟩,(List.append_nil _).symm⟩
    exact (fromLeBytes_toLeBytes 4 slot).trans (Nat.mod_eq_of_lt hlt)

/-- However the bytes of a connection arrive, and whatever part of them has: the daemons admit
what the clients write and leave what follows to the frames, refuse other versions and other
tags, and wait for the rest of a header until then. A worker reads the slot it was sent. -/
theorem front_door (pieces : List Bytes) :
    (∀ g rest, pieces.foldl Reader.push (handleConn.run []) = (.done (.ok g),rest) ↔
      pieces.flatten = g.header ++ rest) ∧
    (∀ e rest, pieces.foldl Reader.push (handleConn.run []) = (.done (.error e),rest) ↔
      (∃ ver : List.Vector UInt8 4, pieces.flatten = modeControl :: ver.toList ++ rest ∧
        ver.toList ≠ toLeBytes 4 protoVersion ∧ e = .versionMismatch (fromLeBytes ver.toList)) ∨
      ∃ tag, pieces.flatten = tag :: rest ∧ tag ≠ modeControl ∧ tag ≠ modeStream ∧
        e = .unknownMode tag) ∧
    ((∃ n next rest, pieces.foldl Reader.push (handleConn.run []) = (.readExact n next,rest)) ↔
      pieces.flatten.length < headerLength pieces.flatten) ∧
    (∀ slot rest, pieces.foldl Reader.push (readSlot.run []) = (.done slot,rest) ↔
      slot < 2 ^ 32 ∧ pieces.flatten = (writeSlot slot).flatten ++ rest) := by
  refine ⟨fun g rest => ?_,fun e rest => ?_,?_,fun slot rest => ?_⟩
  · simp only [Reader.run_pieces_eq_done_iff,reads_handleConn_iff,header_ok_iff,exists_eq_left]
  · rw [Reader.run_pieces_eq_done_iff]
    simp only [reads_handleConn_iff,header_error_iff]
    constructor
    · rintro ⟨head,⟨ver,rfl,hver⟩ | ⟨tag,rfl,htag⟩,hbytes⟩
      · exact .inl ⟨ver,hbytes,hver⟩
      · exact .inr ⟨tag,hbytes,htag⟩
    · rintro (⟨ver,hbytes,hver⟩ | ⟨tag,hbytes,htag⟩)
      · exact ⟨_,.inl ⟨ver,rfl,hver⟩,hbytes⟩
      · exact ⟨_,.inr ⟨tag,rfl,htag⟩,hbytes⟩
  · rw [Reader.waits_iff,← Nat.not_le]
    refine not_congr ⟨?_,fun h => ?_⟩
    · rintro ⟨e,rest,hdone⟩
      obtain ⟨head,hreads,hbytes⟩ := Reader.run_pieces_eq_done_iff.mp hdone
      rw [hbytes,(reads_handleConn_iff.mp hreads).length_eq,List.length_append]
      exact Nat.le_add_right _ _
    · obtain ⟨head,e,rest,hheader,hbytes⟩ := exists_header h
      exact ⟨e,rest,Reader.run_pieces_eq_done_iff.mpr
        ⟨head,reads_handleConn_iff.mpr hheader,hbytes⟩⟩
  · rw [Reader.run_pieces_eq_done_iff]
    simp only [reads_slot_iff]
    constructor
    · rintro ⟨head,⟨hlt,rfl⟩,hbytes⟩
      exact ⟨hlt,hbytes⟩
    · rintro ⟨hlt,hbytes⟩
      exact ⟨_,⟨hlt,rfl⟩,hbytes⟩

end Pyre.Stream
