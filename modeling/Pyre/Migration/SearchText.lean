import Pyre.Migration.StartUp
import Pyre.Supervisor.Batcher

/-!
The text of a block's output in the search index. What goes in when the block ends is the
beginning of the output, if that is UTF-8; the backfill decodes all of it, with replacement
characters; and the migration of the schema takes a character for each byte.
-/

set_option autoImplicit false

namespace Pyre.SearchText
open Base Blocks

/-- The output of the block among the events. -/
def outputOf (b : BlockId) (events : List BlockEvent) : Bytes :=
  events.flatMap fun event =>
    match event with
    | .outputChunk c data => if c = b then data else []
    | .promptStart _ | .commandStart _ _ _ _ | .blockEnd _ _ => []

/-- The event neither starts nor ends the block. -/
def Within (b : BlockId) (event : BlockEvent) : Prop :=
  match event with
  | .commandStart _ c _ _ | .blockEnd c _ => c ≠ b
  | .promptStart _ | .outputChunk _ _ => True

instance (b : BlockId) (event : BlockEvent) : Decidable (Within b event) :=
  match event with
  | .commandStart _ _ _ _ | .blockEnd _ _ => inferInstanceAs (Decidable (_ ≠ _))
  | .promptStart _ | .outputChunk _ _ => inferInstanceAs (Decidable True)

/-- What `stdout_snippet` makes of a byte. -/
def flatByte (byte : UInt8) : Char :=
  if byte = 10 ∨ byte = 13 ∨ byte = 9 then ' ' else Char.ofNat byte.toNat

/-- ASCII, and no tab or end of line. -/
def Plain (byte : UInt8) : Prop := byte.toNat < 0x80 ∧ byte ≠ 10 ∧ byte ≠ 13 ∧ byte ≠ 9

section live

variable {σ : Type} (w : World) (pane : PaneId) (session : SessionId)

/-- A block from its start to its end, by the parser task or the batcher, and the text that is
indexed with the last document. -/
def live (mode : Mode) (s : Archive × PaneParserState σ) (b : BlockId) (command : Text)
    (cwd : Option Text) (events : List BlockEvent) (exit : Option Int) : Option Text :=
  let events := [.commandStart session b command cwd] ++ events ++ [.blockEnd b exit]
  let s := events.foldl (PaneParserState.handle w mode pane session) s
  s.1.documents.getLast?.map Blocks.Document.stdout

end live

variable {σ : Type} {w : World} {pane : PaneId} {session : SessionId} {mode : Mode}
  {s : Archive × PaneParserState σ} {b : BlockId} {output : Bytes} {events : List BlockEvent}

/-! The beginning of the output is kept. -/

/-- The buffer of a block that is running. -/
structure Buffers (b : BlockId) (output : Bytes) (s : Archive × PaneParserState σ) : Prop where
  buffer : s.2.stdoutBufs.lookup b = some (output.take indexCap)
  running : (s.2.blockMeta.lookup b).isSome

theorem take_append_take (output data : Bytes) (cap : Nat) :
    output.take cap ++ data.take (cap-(output.take cap).length) = (output ++ data).take cap := by
  rw [List.take_append,List.length_take]
  congr 2
  omega

theorem buffers_start (hnew : s.1.rows.lookup b = none) (command : Text) (cwd : Option Text) :
    Buffers b [] (PaneParserState.handle w mode pane session s
      (.commandStart session b command cwd)) := by
  simp only [PaneParserState.handle,PaneParserState.commandStart,Archive.createBlock,hnew]
  exact ⟨by simp,by simp⟩

theorem Buffers.step (h : Buffers b output s) {event : BlockEvent} (hwithin : Within b event) :
    Buffers b (output ++ outputOf b [event])
      (PaneParserState.handle w mode pane session s event) := by
  obtain ⟨hbuffer,hrunning⟩ := h
  cases event with
  | promptStart _ => simpa [outputOf] using ⟨hbuffer,hrunning⟩
  | commandStart _ c command cwd =>
    simp only [outputOf,List.flatMap_cons,List.flatMap_nil,List.append_nil]
    simp only [PaneParserState.handle,PaneParserState.commandStart]
    split
    · exact ⟨hbuffer,hrunning⟩
    · constructor
      · rw [AList.lookup_insert_ne (Ne.symm hwithin),hbuffer]
      · rwa [AList.lookup_insert_ne (Ne.symm hwithin)]
  | outputChunk c data =>
    refine ⟨?_,hrunning⟩
    by_cases hc : c = b
    · subst hc
      simp only [PaneParserState.handle,PaneParserState.outputChunk,hbuffer,take_append_take]
      simp [outputOf]
    · simp only [outputOf,List.flatMap_cons,List.flatMap_nil,List.append_nil,if_neg hc]
      simp only [PaneParserState.handle,PaneParserState.outputChunk]
      split
      · rw [AList.lookup_insert_ne (Ne.symm hc),hbuffer]
      · exact hbuffer
  | blockEnd c exit =>
    simp only [outputOf,List.flatMap_cons,List.flatMap_nil,List.append_nil]
    simp only [PaneParserState.handle,PaneParserState.blockEnd]
    constructor
    · rw [AList.lookup_erase_ne (Ne.symm hwithin),hbuffer]
    · rwa [AList.lookup_erase_ne (Ne.symm hwithin)]

theorem outputOf_cons (b : BlockId) (event : BlockEvent) (events : List BlockEvent) :
    outputOf b (event :: events) = outputOf b [event] ++ outputOf b events := by
  simp [outputOf]

theorem Buffers.run (h : Buffers b output s) (hwithin : ∀ event ∈ events, Within b event) :
    Buffers b (output ++ outputOf b events)
      (events.foldl (PaneParserState.handle w mode pane session) s) := by
  induction events generalizing output s with
  | nil => simpa [outputOf] using h
  | cons event events ih =>
    obtain ⟨hevent,hevents⟩ := List.forall_mem_cons.mp hwithin
    have hstep : Buffers b (output ++ outputOf b [event])
      (PaneParserState.handle w mode pane session s event) := h.step hevent
    have hrest := ih hstep hevents
    rw [List.append_assoc,← outputOf_cons] at hrest
    exact hrest

/-- Both ways of running a block index what is kept of its output, if that is UTF-8. -/
theorem live_eq (hnew : s.1.rows.lookup b = none) (hwithin : ∀ event ∈ events, Within b event)
    (mode : Mode) (command : Text) (cwd : Option Text) (exit : Option Int) :
    live w pane session mode s b command cwd events exit =
      some ((fromUtf8 ((outputOf b events).take indexCap)).getD []) := by
  have hstart : Buffers b [] (PaneParserState.handle w mode pane session s
      (.commandStart session b command cwd)) := buffers_start hnew command cwd
  obtain ⟨hbuffer,hrunning⟩ := hstart.run hwithin (w := w)
  simp only [live,List.foldl_append,List.foldl_cons,List.foldl_nil]
  generalize events.foldl _ _ = t at hbuffer hrunning ⊢
  obtain ⟨info,hinfo⟩ := Option.isSome_iff_exists.mp hrunning
  rw [List.nil_append] at hbuffer
  simp only [PaneParserState.handle,PaneParserState.blockEnd,hbuffer,hinfo,Archive.turn,
    Archive.addBlock,List.getLast?_concat,Option.map_some,Option.bind_some]

/-! The three decodings. -/

theorem stdoutSnippet_eq {st : Migration.BlockStore} (hblob : st.blob b = some output) (n : Nat) :
    st.stdoutSnippet b n = (output.map flatByte).take n := by
  rw [Migration.BlockStore.stdoutSnippet,hblob,Option.getD_some]
  rfl

theorem toNat_byte (byte : UInt8) : (Char.ofNat byte.toNat).toNat = byte.toNat := by
  have hlt := byte.toNat_lt
  have hvalid : byte.toNat.isValidChar := Or.inl (by omega)
  rw [Char.ofNat,dif_pos hvalid]
  rfl

theorem encode_plain (h : ∀ byte ∈ output, Plain byte) : encode (output.map flatByte) = output := by
  induction output with
  | nil => rfl
  | cons byte output ih =>
    obtain ⟨hbyte,hrest⟩ := List.forall_mem_cons.mp h
    obtain ⟨hascii,hlf,hcr,htab⟩ := hbyte
    have hflat : flatByte byte = Char.ofNat byte.toNat := by simp [flatByte,hlf,hcr,htab]
    have hnat : (Char.ofNat byte.toNat).toNat = byte.toNat := toNat_byte byte
    rw [List.map_cons,encode_cons,ih hrest,hflat,utf8EncodeChar_of_ascii (by omega),hnat]
    simp

theorem flatByte_ne_replacement (byte : UInt8) : flatByte byte ≠ '\uFFFD' := by
  intro heq
  have hcode := congrArg Char.toNat heq
  have hlt := byte.toNat_lt
  have hother : ('\uFFFD').toNat = 65533 := rfl
  have hspace : (' ').toNat = 32 := rfl
  rw [hother,flatByte] at hcode
  split at hcode
  · omega
  · rw [toNat_byte] at hcode
    omega

/-- A byte that is a character alone, and the one that the snippet has for it. -/
theorem plain_of_single {c : Char} {byte : UInt8} (hone : c.utf8Size = 1)
    (hbyte : c.val.toUInt8 = byte) (hflat : c = flatByte byte) : Plain byte := by
  have hsmall : c.val.toNat ≤ 127 := Char.utf8Size_eq_one_iff.mp hone
  have hnat : byte.toNat = c.toNat := by
    rw [← hbyte,UInt32.toNat_toUInt8]
    exact Nat.mod_eq_of_lt (by omega)
  by_cases hblank : byte = 10 ∨ byte = 13 ∨ byte = 9
  · -- a blank would have been decoded as itself
    rw [flatByte,if_pos hblank] at hflat
    rw [hflat] at hnat
    rcases hblank with rfl | rfl | rfl <;> cases hnat
  · rw [not_or,not_or] at hblank
    exact ⟨by rw [hnat]; exact Nat.lt_succ_of_le hsmall,hblank⟩

/-- Where decoding gives a character for each byte, and the same as the snippet has, the bytes
are plain. -/
theorem plain_of_decodeFuel (n : Nat) {bs : Bytes} (hn : bs.length ≤ n)
    (heq : (decodeFuel n bs).map (fun c => c.getD '\uFFFD') = bs.map flatByte) :
    ∀ byte ∈ bs, Plain byte := by
  induction n generalizing bs with
  | zero =>
    obtain rfl : bs = [] := by simpa using hn
    simp
  | succ n ih =>
    cases bs with
    | nil => simp
    | cons b bs =>
      simp only [decodeFuel] at heq
      split at heq
      · rename_i c hc
        rw [List.map_cons,List.map_cons,List.cons.injEq,Option.getD_some] at heq
        obtain ⟨hhead,htail⟩ := heq
        -- the lengths leave one byte to the character
        have hbytes := append_of_nextScalar hc
        have hlen := congrArg List.length htail
        have hle := decodeFuel_length n ((b :: bs).drop c.utf8Size)
        have hpos := c.utf8Size_pos
        have hwhole := congrArg List.length hbytes
        simp only [List.length_map,List.length_append,List.length_drop,List.length_cons,
          String.length_utf8EncodeChar] at hlen hle hwhole
        have hone : c.utf8Size = 1 := by omega
        rw [hone,String.utf8EncodeChar_eq_singleton hone] at hbytes
        rw [hone] at htail
        have hb : c.val.toUInt8 = b := by simpa using congrArg List.head? hbytes
        exact List.forall_mem_cons.mpr
          ⟨plain_of_single hone hb hhead,ih (by simpa using hn) (by simpa using htail)⟩
      · rw [List.map_cons,List.map_cons,List.cons.injEq,Option.getD_none] at heq
        exact absurd heq.1.symm (flatByte_ne_replacement b)

theorem decodings_agree_iff (output : Bytes) :
    (fromUtf8 output).getD [] = fromUtf8Lossy output ∧
      (fromUtf8 output).getD [] = output.map flatByte ↔ ∀ byte ∈ output, Plain byte := by
  constructor
  · rintro ⟨hlossy,hflat⟩
    rw [hlossy] at hflat
    exact plain_of_decodeFuel _ (Nat.le_refl _) hflat
  · intro hplain
    have hencode := encode_plain hplain
    have hstrict := fromUtf8_eq_some.mpr hencode
    have hlossy := fromUtf8Lossy_encode (output.map flatByte)
    rw [hencode] at hlossy
    simp [hstrict,hlossy]

theorem fromUtf8Lossy_ne_nil (h : output ≠ []) : fromUtf8Lossy output ≠ [] := by
  obtain ⟨b,bs,rfl⟩ := List.exists_cons_of_ne_nil h
  rw [fromUtf8Lossy,decode,List.length_cons]
  simp only [decodeFuel]
  split <;> simp

/-- Taken as UTF-8 or as nothing, bytes come to some text just where they are UTF-8. -/
theorem fromUtf8_ne_nil_iff (h : output ≠ []) :
    (fromUtf8 output).getD [] ≠ [] ↔ ∃ text, encode text = output := by
  constructor
  · intro htext
    cases hstrict : fromUtf8 output with
    | none => exact absurd (by rw [hstrict]; rfl) htext
    | some text => exact ⟨text,fromUtf8_eq_some.mp hstrict⟩
  · rintro ⟨text,hencode⟩ hnil
    rw [fromUtf8_eq_some.mpr hencode,Option.getD_some] at hnil
    rw [hnil,encode_nil] at hencode
    exact h hencode.symm

/-- The four ways agree on an output that is kept whole just where it is plain; and none makes an
empty text of an output just where the part that is kept is UTF-8. -/
theorem searchText_iff {st : Migration.BlockStore} {row : Migration.BlockRow}
    (hnew : s.1.rows.lookup row.id = none) (hwithin : ∀ event ∈ events, Within row.id event)
    (hblob : st.blob row.id = some (outputOf row.id events)) (command : Text) (cwd : Option Text)
    (exit : Option Int) :
    ((outputOf row.id events).length ≤ indexCap →
      ((∀ mode, live w pane session mode s row.id command cwd events exit =
            some (st.document row).stdout ∧
          live w pane session mode s row.id command cwd events exit =
            some (st.stdoutSnippet row.id Migration.usizeMax)) ↔
        ∀ byte ∈ outputOf row.id events, Plain byte)) ∧
    (outputOf row.id events ≠ [] →
      ((∀ mode, live w pane session mode s row.id command cwd events exit ≠ some []) ∧
          (st.document row).stdout ≠ [] ∧ st.stdoutSnippet row.id Migration.usizeMax ≠ [] ↔
        ∃ text, encode text = (outputOf row.id events).take indexCap)) := by
  have hlive : ∀ mode, live w pane session mode s row.id command cwd events exit =
      some ((fromUtf8 ((outputOf row.id events).take indexCap)).getD []) := fun mode =>
    live_eq hnew hwithin mode command cwd exit
  have hdocument : (st.document row).stdout = fromUtf8Lossy (outputOf row.id events) := by
    simp [Migration.BlockStore.document,Migration.BlockRow.document,hblob]
  simp only [hlive,hdocument,stdoutSnippet_eq hblob,Option.some.injEq,ne_eq]
  generalize outputOf row.id events = output
  constructor
  · intro hlen
    have hsnippet : (output.map flatByte).take Migration.usizeMax = output.map flatByte := by
      apply List.take_of_length_le
      have hcap : indexCap ≤ Migration.usizeMax := by decide
      rw [List.length_map]
      omega
    rw [List.take_of_length_le hlen,hsnippet,← decodings_agree_iff]
    exact ⟨fun hsame => hsame .single,fun hsame _ => hsame⟩
  · intro hsome
    have hkept : output.take indexCap ≠ [] := by
      rw [Ne,List.take_eq_nil_iff,not_or]
      exact ⟨by decide,hsome⟩
    have hsnippet : (output.map flatByte).take Migration.usizeMax ≠ [] := by
      rw [Ne,List.take_eq_nil_iff,List.map_eq_nil_iff,not_or]
      exact ⟨by decide,hsome⟩
    rw [← fromUtf8_ne_nil_iff hkept]
    exact ⟨fun h => h.1 .single,fun h => ⟨fun _ => h,fromUtf8Lossy_ne_nil hsome,hsnippet⟩⟩

/-- The store after a block with this output. -/
def stored (output : Bytes) : Migration.BlockStore where
  rows := [⟨⟨1⟩,⟨1⟩,⟨1⟩,[],0,some 0⟩]
  blob _ := some output
  ids_nodup := by decide

def storedRow : Migration.BlockRow := ⟨⟨1⟩,⟨1⟩,⟨1⟩,[],0,some 0⟩

def idle : Archive × PaneParserState PlainState := (.empty,.new plainVte ⟨1⟩)

theorem searchText_iff_hi :
    ((∀ mode, live Supervisor.Batcher.plainWorld ⟨1⟩ ⟨1⟩ mode idle ⟨1⟩ [] none
            [.outputChunk ⟨1⟩ [104,105]] (some 0) =
              some ((stored [104,105]).document storedRow).stdout ∧
          live Supervisor.Batcher.plainWorld ⟨1⟩ ⟨1⟩ mode idle ⟨1⟩ [] none
            [.outputChunk ⟨1⟩ [104,105]] (some 0) =
              some ((stored [104,105]).stdoutSnippet ⟨1⟩ Migration.usizeMax)) ↔
        ∀ byte ∈ outputOf ⟨1⟩ [.outputChunk ⟨1⟩ [104,105]], Plain byte) ∧
      ((∀ mode, live Supervisor.Batcher.plainWorld ⟨1⟩ ⟨1⟩ mode idle ⟨1⟩ [] none
            [.outputChunk ⟨1⟩ [104,105]] (some 0) ≠ some []) ∧
          ((stored [104,105]).document storedRow).stdout ≠ [] ∧
          (stored [104,105]).stdoutSnippet ⟨1⟩ Migration.usizeMax ≠ [] ↔
        ∃ text, encode text = (outputOf ⟨1⟩ [.outputChunk ⟨1⟩ [104,105]]).take indexCap) :=
  have hwithin : ∀ event ∈ [BlockEvent.outputChunk ⟨1⟩ [104,105]], Within storedRow.id event := by
    decide
  ⟨(searchText_iff rfl hwithin rfl [] none (some 0)).1 (by decide),
    (searchText_iff rfl hwithin rfl [] none (some 0)).2 (by decide)⟩

/-- One byte that is not UTF-8, and nothing of the output is found when the block ends. -/
theorem emptied :
    ¬∀ (mode : Mode) (output : Bytes), output.length ≤ indexCap →
      live Supervisor.Batcher.plainWorld ⟨1⟩ ⟨1⟩ mode idle ⟨1⟩ [] none [.outputChunk ⟨1⟩ output] (some 0) =
        some ((stored output).document storedRow).stdout := by
  intro hall
  have hsame := hall .single [104,255] (by decide)
  have hlive : live Supervisor.Batcher.plainWorld ⟨1⟩ ⟨1⟩ .single idle ⟨1⟩ [] none
      [.outputChunk ⟨1⟩ [104,255]] (some 0) = some [] := by
    rw [live_eq rfl (by decide)]
    decide
  rw [hlive] at hsame
  revert hsame
  decide

end Pyre.SearchText
