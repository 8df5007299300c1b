import Pyre.Blocks.Unbuffered

/-!
When the events of a stream do not depend on how it was cut. The one obstacle is
a C mark in the middle of a line of output: how much of that line was handed out
before the mark depends on the cuts, and the rest goes to the new block.
-/

set_option autoImplicit false

namespace Pyre.Blocks
open Base

def rename (ρ : BlockId → BlockId) : BlockEvent → BlockEvent
  | .promptStart session => .promptStart session
  | .commandStart session block command cwd => .commandStart session (ρ block) command cwd
  | .outputChunk block data => .outputChunk (ρ block) data
  | .blockEnd block exit => .blockEnd (ρ block) exit

/-- Each list is the other with its blocks renamed, up to the cuts in the output. -/
def SameUpToIds (es fs : List BlockEvent) : Prop :=
  (∃ ρ, bytewise (es.map (rename ρ)) = bytewise fs) ∧
    ∃ ρ, bytewise (fs.map (rename ρ)) = bytewise es

/-- The bytes of output before the n-th start of a block, counted from 0. -/
def outputBefore : Nat → List BlockEvent → Nat
  | _, [] => 0
  | n, .outputChunk _ data :: events => data.length + outputBefore n events
  | 0, .commandStart _ _ _ _ :: _ => 0
  | n+1, .commandStart _ _ _ _ :: events => outputBefore n events
  | n, .promptStart _ :: events => outputBefore n events
  | n, .blockEnd _ _ :: events => outputBefore n events

def outputSize : List BlockEvent → Nat
  | [] => 0
  | .outputChunk _ data :: events => data.length + outputSize events
  | _ :: events => outputSize events

theorem outputBefore_rename (ρ : BlockId → BlockId) (n : Nat) (events : List BlockEvent) :
    outputBefore n (events.map (rename ρ)) = outputBefore n events := by
  induction events generalizing n with
  | nil => rfl
  | cons e events ih =>
    cases e with
    | commandStart _ _ _ _ => cases n <;> simp [rename,outputBefore,ih]
    | _ => simp [rename,outputBefore,ih]

theorem outputBefore_bytes (n : Nat) (block : BlockId) (data : Bytes) (events : List BlockEvent) :
    outputBefore n (bytes (.outputChunk block data) ++ events) =
      data.length + outputBefore n events := by
  induction data with
  | nil => simp [bytes]
  | cons b data ih =>
    simp only [bytes] at ih
    simp only [bytes,List.map_cons,List.cons_append,outputBefore,ih,List.length_cons,
      List.length_nil]
    omega

theorem outputBefore_bytewise (n : Nat) (events : List BlockEvent) :
    outputBefore n (bytewise events) = outputBefore n events := by
  induction events generalizing n with
  | nil => rfl
  | cons e events ih =>
    have hc : bytewise (e :: events) = bytes e ++ bytewise events := rfl
    rw [hc]
    cases e with
    | outputChunk block data => rw [outputBefore_bytes,ih,outputBefore]
    | commandStart _ _ _ _ => cases n <;> simp [bytes,outputBefore,ih]
    | _ => simp [bytes,outputBefore,ih]

theorem SameUpToIds.outputBefore {es fs : List BlockEvent} (h : SameUpToIds es fs) (n : Nat) :
    outputBefore n es = outputBefore n fs := by
  obtain ⟨⟨ρ,h⟩,-⟩ := h
  rw [← outputBefore_rename ρ,← outputBefore_bytewise,h,outputBefore_bytewise]

theorem outputBefore_start (session : SessionId) (block : BlockId) (command : Text)
    (cwd : Option Text) (es fs : List BlockEvent) :
    outputBefore (startedBlocks es).length (es ++ .commandStart session block command cwd :: fs) =
      outputSize es := by
  induction es with
  | nil => rfl
  | cons e es ih =>
    cases e with
    | _ => simpa [startedBlocks,outputBefore,outputSize] using ih

namespace BlockMachine

def rename (ρ : BlockId → BlockId) (m : BlockMachine) : BlockMachine :=
  { m with
    currentBlock := m.currentBlock.map ρ
    pending := m.pending.map (Blocks.rename ρ) }

variable {draw : Nat → BlockId} {m : BlockMachine} (ρ : BlockId → BlockId)

theorem rename_flushOutput (m : BlockMachine) :
    (m.rename ρ).flushOutput = m.flushOutput.rename ρ := by
  cases h : m.currentBlock with
  | none => rw [flushOutput_of_none h,flushOutput_of_none (by simp [rename,h])]
  | some b =>
    rw [flushOutput_of_some h,flushOutput_of_some (b := ρ b) (by simp [rename,h])]
    by_cases ho : m.outBuf = [] <;> simp [rename,ho,Blocks.rename]

theorem rename_pushByte (m : BlockMachine) (b : UInt8) :
    (m.rename ρ).pushByte b = (m.pushByte b).rename ρ := by
  cases h : m.currentBlock with
  | some block =>
    have hr : (m.rename ρ).currentBlock = some (ρ block) := by simp [rename,h]
    have hf := rename_flushOutput ρ (m.buffer b)
    rw [pushByte_of_some h,pushByte_of_some hr]
    by_cases hb : outputFlushBytes ≤ m.outBuf.length + 1 ∨ b = 0x0A
    · simpa [rename,buffer,hb] using hf
    · simp [rename,buffer,hb]
  | none =>
    have hr : (m.rename ρ).currentBlock = none := by simp [rename,h]
    rw [pushByte_of_none h,pushByte_of_none hr]
    rfl

theorem rename_pushBytes (bs : Bytes) (m : BlockMachine) :
    bs.foldl pushByte (m.rename ρ) = (bs.foldl pushByte m).rename ρ := by
  induction bs generalizing m with
  | nil => rfl
  | cons b bs ih => rw [List.foldl_cons,List.foldl_cons,rename_pushByte,ih]

theorem rename_advance (m : BlockMachine) (op : Option Callback) :
    (m.rename ρ).advance (ρ ∘ draw) op = (m.advance draw op).rename ρ := by
  cases op with
  | none => exact rename_flushOutput ρ m
  | some cb =>
    simp only [advance,react_eq]
    split
    · simp only [atPrompt,rename_flushOutput]
      simp [rename,Blocks.rename]
    · simp [atCommand,rename,Blocks.rename]
    · simp only [atEnd,rename_flushOutput]
      cases h : m.currentBlock <;> simp [rename,Blocks.rename,h]
    · exact rename_pushBytes ρ _ m

theorem rename_advanceAll (ops : List (Option Callback)) (m : BlockMachine) :
    ops.foldl (advance (ρ ∘ draw)) (m.rename ρ) = (ops.foldl (advance draw) m).rename ρ := by
  induction ops generalizing m with
  | nil => rfl
  | cons op ops ih => rw [List.foldl_cons,List.foldl_cons,rename_advance,ih]

theorem pushByte_outBuf_length (m : BlockMachine) (b : UInt8) :
    (m.pushByte b).outBuf.length ≤ m.outBuf.length + 1 := by
  cases h : m.currentBlock with
  | some block =>
    have hf := flushOutput_outBuf (m := m.buffer b) h
    rw [pushByte_of_some h]
    split
    · simp [hf]
    · simp [buffer]
  | none => rw [pushByte_of_none h]; simp

theorem pushBytes_outBuf_length (bs : Bytes) (m : BlockMachine) :
    (bs.foldl pushByte m).outBuf.length ≤ m.outBuf.length + bs.length := by
  induction bs generalizing m with
  | nil => simp
  | cons b bs ih =>
    have hb := pushByte_outBuf_length m b
    have hbs := ih (m.pushByte b)
    simp only [List.foldl_cons,List.length_cons]
    omega

theorem react_outBuf_length (draw : Nat → BlockId) (m : BlockMachine) (cb : Callback) :
    (m.react draw cb).outBuf.length ≤ m.outBuf.length + cb.bytes.length := by
  rw [react_eq]
  split
  · cases h : m.currentBlock with
    | none => simp [atPrompt,flushOutput_of_none h]
    | some b => simp [atPrompt,flushOutput_outBuf h]
  · simp [atCommand]
  · cases h : m.currentBlock with
    | none => simp [atEnd,h]
    | some b => simp [atEnd,h,flushOutput_outBuf h]
  · exact pushBytes_outBuf_length _ m

/-- Text that fits the buffer and does not end a line stays in it. -/
theorem pushBytes_midLine {bs : Bytes} {b : UInt8} (h : m.currentBlock.isSome)
    (hb : bs.getLast? = some b) (hne : b ≠ 0x0A)
    (hlen : m.outBuf.length + bs.length < outputFlushBytes) :
    (bs.foldl pushByte m).outBuf ≠ [] := by
  obtain ⟨bs,rfl⟩ := List.getLast?_eq_some_iff.mp hb
  obtain ⟨block,hc⟩ := Option.isSome_iff_exists.mp h
  have hc' : (bs.foldl pushByte m).currentBlock = some block := by
    rw [pushBytes_currentBlock,hc]
  have hroom := pushBytes_outBuf_length bs m
  rw [List.length_append,List.length_singleton] at hlen
  have hfull : ¬ (outputFlushBytes ≤ (bs.foldl pushByte m).outBuf.length + 1 ∨ b = 0x0A) := by
    intro hf
    rcases hf with hf | hf
    · omega
    · exact hne hf
  rw [List.foldl_append,List.foldl_cons,List.foldl_nil,pushByte_of_some hc',if_neg hfull]
  simp [buffer]

end BlockMachine

/-- A callback that does nothing to the machine, whatever its state. -/
def Callback.Neutral (cb : Callback) : Prop :=
  cb.bytes = [] ∧ (cb.mark = none ∨ cb.mark = some .B)

namespace BlockMachine

variable (draw : Nat → BlockId) {m : BlockMachine}

theorem react_neutral {cb : Callback} (h : cb.Neutral) : m.react draw cb = m := by
  rw [react_eq]
  obtain ⟨hb,hk | hk⟩ := h <;> simp [hb,hk]

theorem reacts_neutral {cbs : List Callback} (h : ∀ cb ∈ cbs, cb.Neutral) :
    cbs.foldl (react draw) m = m := by
  induction cbs with
  | nil => rfl
  | cons cb cbs ih =>
    have hcb := react_neutral draw (m := m) (h cb (by simp))
    have hcbs := ih fun c hc => h c (by simp [hc])
    rw [List.foldl_cons,hcb,hcbs]

theorem lineStep_neutral {l : Line} {cb : Callback} (h : cb.Neutral) :
    lineStep l cb = some l := by
  obtain ⟨hb,hk | hk⟩ := h <;> cases l <;> simp [lineStep,hb,hk,Line.text]

theorem outBuf_of_text {l : Line} {bs : Bytes} (h : Tracks l m) (hl : l.text bs = .midLine)
    (hbs : bs ≠ []) (hlen : m.outBuf.length + bs.length < outputFlushBytes) :
    (bs.foldl pushByte m).outBuf ≠ [] := by
  cases hb : bs.getLast? with
  | none => exact absurd (List.getLast?_eq_none_iff.mp hb) hbs
  | some b =>
    cases l with
    | idle => simp [Line.text] at hl
    | atStart =>
      have hne : b ≠ 0x0A := by intro hn; simp [Line.text,hb,hn] at hl
      exact pushBytes_midLine h.1 hb hne hlen
    | midLine =>
      have hne : b ≠ 0x0A := by intro hn; simp [Line.text,hb,hn] at hl
      exact pushBytes_midLine h hb hne hlen

/-- A step into the middle of a line that is not neutral leaves output in the buffer. -/
theorem outBuf_of_midLine {l : Line} {cb : Callback} (h : Tracks l m)
    (hl : lineStep l cb = some .midLine) (hcb : ¬ cb.Neutral)
    (hlen : m.outBuf.length + cb.bytes.length < outputFlushBytes) :
    (m.react draw cb).outBuf ≠ [] := by
  rw [react_eq]
  unfold lineStep at hl
  cases hk : cb.mark with
  | none =>
    have hbs : cb.bytes ≠ [] := fun hb => hcb ⟨hb,Or.inl hk⟩
    simp only [hk,Option.some.injEq] at hl
    exact outBuf_of_text h hl hbs hlen
  | some k =>
    cases k with
    | A => simp [hk] at hl
    | B => exact absurd ⟨bytes_of_mark hk,Or.inr hk⟩ hcb
    | C => by_cases hm : l = .midLine <;> simp [hk,hm] at hl
    | D => simp [hk] at hl

/-- A short stretch of callbacks that ends in the middle of a line did nothing or
leaves output in the buffer. -/
theorem neutral_or_outBuf {l : Line} {cbs : List Callback} (h : Tracks l m)
    (hl : exec lineStep l cbs = some .midLine)
    (hlen : m.outBuf.length + (cbs.flatMap Callback.bytes).length < outputFlushBytes) :
    (l = .midLine ∧ ∀ cb ∈ cbs, cb.Neutral) ∨ (cbs.foldl (react draw) m).outBuf ≠ [] := by
  induction cbs generalizing l m with
  | nil =>
    rw [exec_nil,Option.some.injEq] at hl
    exact Or.inl ⟨hl,by simp⟩
  | cons cb cbs ih =>
    rw [exec_cons,Option.bind_eq_some_iff] at hl
    obtain ⟨k,hk,hl⟩ := hl
    rw [List.flatMap_cons,List.length_append] at hlen
    have hgrow := react_outBuf_length draw m cb
    rcases ih (h.react draw hk) hl (by omega) with ⟨rfl,hn⟩ | hout
    · by_cases hcb : cb.Neutral
      · rw [lineStep_neutral hcb,Option.some.injEq] at hk
        exact Or.inl ⟨hk, by simpa [hcb] using hn⟩
      · have ho := outBuf_of_midLine draw h hk hcb (by omega)
        rw [List.foldl_cons,reacts_neutral draw hn]
        exact Or.inr ho
    · exact Or.inr hout

end BlockMachine

variable {σ : Type} {vte : Vte σ} {draw : Nat → BlockId}

/-- Of the callbacks one byte makes, only the first can be a mark, and together they
carry less text than the machine buffers. -/
def Ordinary (vte : Vte σ) : Prop :=
  ∀ s b, (∀ cb ∈ (vte.next s b).2.tail, cb.mark = none) ∧
    ((vte.next s b).2.flatMap Callback.bytes).length < outputFlushBytes

/-! The condition is enough. -/

theorem flushed_steps (session : SessionId) (pieces : List (List Callback)) :
    bytewise ((steps pieces).foldl (BlockMachine.advance draw) (.new session)).pending =
      ((steps pieces).foldl (BlockMachine.advance draw) (.new session)).unbuffer.pending := by
  rcases List.eq_nil_or_concat pieces with rfl | ⟨front,last,rfl⟩
  · rfl
  · have hs : steps (front ++ [last]) = (steps front ++ last.map some) ++ [none] := by
      simp [steps]
    rw [List.concat_eq_append,hs,List.foldl_append,List.foldl_cons,List.foldl_nil]
    have hf := BlockMachine.unbuffer_pending_of_flushed
      ((steps front ++ last.map some).foldl (BlockMachine.advance draw) (.new session))
    rw [← BlockMachine.unbuffer_flushOutput] at hf
    exact hf

/-- Where no C mark comes in the middle of a line, the bytes decide what is reported. -/
theorem bytewise_feedAll (session : SessionId) {chunks chunks' : List Bytes}
    (hc : chunks.flatten = chunks'.flatten)
    (hl : (exec lineStep .idle (vte.run vte.start chunks.flatten).2).isSome) :
    bytewise ((BlockParser.new vte session).feedAll vte draw chunks).2 =
      bytewise ((BlockParser.new vte session).feedAll vte draw chunks').2 := by
  obtain ⟨l,hl⟩ := Option.isSome_iff_exists.mp hl
  have hnew : BlockMachine.Tracks .idle (.new session) := ⟨rfl,rfl⟩
  have hrun : ∀ cs : List Bytes, cs.flatten = chunks.flatten →
      bytewise ((BlockParser.new vte session).feedAll vte draw cs).2 =
        ((BlockMachine.new session).shown draw (vte.run vte.start chunks.flatten).2).pending := by
    intro cs hcs
    have hops := BlockParser.callbacks_of_steps vte cs
    rw [hcs] at hops
    rw [BlockParser.feedAll_steps,flushed_steps,
      BlockMachine.unbuffer_advanceAll hnew _ (hops ▸ hl),hops]
  rw [hrun chunks rfl,hrun chunks' hc.symm]

theorem rename_feedAll (ρ : BlockId → BlockId) (session : SessionId) (chunks : List Bytes) :
    ((BlockParser.new vte session).feedAll vte (ρ ∘ draw) chunks).2 =
      ((BlockParser.new vte session).feedAll vte draw chunks).2.map (rename ρ) := by
  rw [BlockParser.feedAll_steps,BlockParser.feedAll_steps]
  exact congrArg BlockMachine.pending (BlockMachine.rename_advanceAll ρ _ (.new session))

theorem redraw (draw' : Nat → BlockId) {draw : Nat → BlockId} (h : Function.Injective draw) :
    ∃ ρ, ρ ∘ draw = draw' :=
  ⟨draw' ∘ Function.invFun draw,
    funext fun n => congrArg draw' (Function.leftInverse_invFun h n)⟩

/-! The condition is needed: of two cuts before such a C mark, one flushes the
line in time and the other does not. -/

/-- What adds up over a list of events, and is the same for an event cut into bytes, is the same
for the list cut into bytes. -/
theorem eq_bytewise {β : Type*} {add : β → β → β} {total : List BlockEvent → β}
    (happend : ∀ es fs, total (es ++ fs) = add (total es) (total fs))
    (hbytes : ∀ e, total (bytes e) = total [e]) (events : List BlockEvent) :
    total (bytewise events) = total events := by
  induction events with
  | nil => rfl
  | cons e events ih =>
    have hc : bytewise (e :: events) = bytes e ++ bytewise events := rfl
    have he : e :: events = [e] ++ events := rfl
    rw [hc,happend,hbytes,ih,he,happend]

theorem outputSize_append (es fs : List BlockEvent) :
    outputSize (es ++ fs) = outputSize es + outputSize fs := by
  induction es with
  | nil => simp [outputSize]
  | cons e es ih =>
    cases e with
    | outputChunk block data => simp only [List.cons_append,outputSize,ih]; omega
    | _ => exact ih

theorem outputSize_bytes (e : BlockEvent) : outputSize (bytes e) = outputSize [e] := by
  cases e with
  | outputChunk block data =>
    induction data with
    | nil => rfl
    | cons b data ih =>
      simp only [bytes,outputSize] at ih
      simp only [bytes,List.map_cons,outputSize,ih,List.length_cons,List.length_nil]
      omega
  | _ => rfl

theorem outputSize_bytewise (events : List BlockEvent) :
    outputSize (bytewise events) = outputSize events :=
  eq_bytewise outputSize_append outputSize_bytes events

theorem startedBlocks_bytes (e : BlockEvent) : startedBlocks (bytes e) = startedBlocks [e] := by
  cases e with
  | outputChunk block data =>
    induction data with
    | nil => rfl
    | cons b data ih => exact ih
  | _ => rfl

theorem startedBlocks_append (es fs : List BlockEvent) :
    startedBlocks (es ++ fs) = startedBlocks es ++ startedBlocks fs := by
  simp [startedBlocks]

theorem startedBlocks_bytewise (events : List BlockEvent) :
    startedBlocks (bytewise events) = startedBlocks events :=
  eq_bytewise startedBlocks_append startedBlocks_bytes events

namespace BlockMachine

theorem outputSize_unbuffer {m : BlockMachine} (h : m.currentBlock.isSome) :
    outputSize m.unbuffer.pending = outputSize m.pending + m.outBuf.length := by
  obtain ⟨b,hb⟩ := Option.isSome_iff_exists.mp h
  have hbuf : m.buffered = bytes (.outputChunk b m.outBuf) := by simp [buffered,hb]
  simp [unbuffer,hbuf,outputSize_append,outputSize_bytewise,outputSize_bytes,outputSize]

theorem startedBlocks_unbuffer (m : BlockMachine) :
    startedBlocks m.unbuffer.pending = startedBlocks m.pending := by
  have hbuf : startedBlocks m.buffered = [] := by
    unfold buffered
    cases m.currentBlock with
    | none => rfl
    | some b => exact startedBlocks_bytes _
  simp [unbuffer,hbuf,startedBlocks_append,startedBlocks_bytewise]

end BlockMachine

theorem outputBefore_command (ops ops' : List (Option Callback)) {cb : Callback}
    (hcb : cb.mark = some .C) (m : BlockMachine) :
    outputBefore (startedBlocks (ops.foldl (BlockMachine.advance draw) m).pending).length
        ((ops ++ some cb :: ops').foldl (BlockMachine.advance draw) m).pending =
      outputSize (ops.foldl (BlockMachine.advance draw) m).pending := by
  set n := ops.foldl (BlockMachine.advance draw) m with hn
  have hC : n.advance draw (some cb) = n.atCommand draw := by
    rw [BlockMachine.advance,BlockMachine.react_eq,hcb]
  obtain ⟨rest,hrest⟩ := BlockMachine.pending_prefix draw ops' (n.atCommand draw)
  rw [List.foldl_append,List.foldl_cons,← hn,hC,← hrest]
  simp only [BlockMachine.atCommand,List.append_assoc,List.singleton_append]
  exact outputBefore_start _ _ _ _ _ _

theorem lineStep_refused {l : Line} {cb : Callback} (h : lineStep l cb = none) :
    l = .midLine ∧ cb.mark = some .C := by
  unfold lineStep at h
  cases hk : cb.mark with
  | none => simp [hk] at h
  | some k =>
    cases k with
    | C => by_cases hm : l = .midLine <;> simp_all
    | _ => simp [hk] at h

theorem exec_unmarked {cbs : List Callback} (h : ∀ cb ∈ cbs, cb.mark = none) (l : Line) :
    exec lineStep l cbs ≠ none := by
  induction cbs generalizing l with
  | nil => simp
  | cons cb cbs ih =>
    have hcb := h cb (by simp)
    have hrest := ih (fun c hc => h c (by simp [hc])) (l.text cb.bytes)
    simpa [lineStep,hcb] using hrest

theorem exec_refused {cb : Callback} {cbs : List Callback}
    (h : ∀ c ∈ (cb :: cbs).tail, c.mark = none) {l : Line}
    (hl : exec lineStep l (cb :: cbs) = none) : lineStep l cb = none := by
  cases hk : lineStep l cb with
  | none => rfl
  | some k =>
    rw [exec_cons,hk] at hl
    exact absurd hl (exec_unmarked h k)

/-- A refused C mark is the first callback of a byte. -/
theorem refused_command (hvte : Ordinary vte) {s : σ} {l : Line} {bytes : Bytes}
    (h : exec lineStep l (vte.run s bytes).2 = none) :
    ∃ front b rest cb cbs, bytes = front ++ b :: rest ∧
      exec lineStep l (vte.run s front).2 = some .midLine ∧
      (vte.next (vte.run s front).1 b).2 = cb :: cbs ∧ cb.mark = some .C := by
  induction bytes generalizing s l with
  | nil => simp at h
  | cons b bytes ih =>
    rw [Transducer.run_cons,exec_append] at h
    cases hb : exec lineStep l (vte.next s b).2 with
    | none =>
      have hmarks := (hvte s b).1
      cases hcbs : (vte.next s b).2 with
      | nil => simp [hcbs] at hb
      | cons cb cbs =>
        rw [hcbs] at hb hmarks
        obtain ⟨rfl,hC⟩ := lineStep_refused (exec_refused hmarks hb)
        exact ⟨[],b,bytes,cb,cbs,rfl,rfl,hcbs,hC⟩
    | some k =>
      rw [hb] at h
      obtain ⟨front,c,rest,cb,cbs,rfl,hf,hn,hC⟩ := ih h
      refine ⟨b :: front,c,rest,cb,cbs,rfl,?_,hn,hC⟩
      rw [Transducer.run_cons,exec_append,hb]
      exact hf

theorem tracks_piece (draw : Nat → BlockId) (session : SessionId) {cbs : List Callback} {l : Line}
    (hl : exec lineStep .idle cbs = some l) :
    BlockMachine.Tracks l ((steps [cbs]).foldl (BlockMachine.advance draw) (.new session)) ∧
      ((steps [cbs]).foldl (BlockMachine.advance draw) (.new session)).outBuf = [] := by
  have hnew : BlockMachine.Tracks .idle (.new session) := ⟨rfl,rfl⟩
  have htrack := hnew.advanceAll draw (cbs.map some) (by simpa [List.reduceOption] using hl)
  have hsteps : (steps [cbs]).foldl (BlockMachine.advance draw) (.new session) =
      ((cbs.map some).foldl (BlockMachine.advance draw) (.new session)).flushOutput := by
    simp [steps,BlockMachine.advance]
  rw [hsteps]
  exact ⟨htrack.flushOutput,htrack.flushed⟩

/-- Bytes that end in the middle of a line can be cut so that some of it is still
buffered at their end. -/
theorem cut_in_line (draw : Nat → BlockId) (hvte : Ordinary vte) (session : SessionId) (bytes : Bytes)
    (h : exec lineStep .idle (vte.run vte.start bytes).2 = some .midLine) :
    ∃ front back, bytes = front ++ back ∧
      ((steps [(vte.run vte.start front).2] ++
        (vte.run (vte.run vte.start front).1 back).2.map some).foldl
          (BlockMachine.advance draw) (.new session)).outBuf ≠ [] := by
  induction bytes using List.reverseRecOn with
  | nil => simp at h
  | append_singleton bytes b ih =>
    rw [Transducer.run_append,Transducer.run_singleton,exec_append,Option.bind_eq_some_iff] at h
    obtain ⟨l,hl,hb⟩ := h
    set cbs := (vte.run vte.start bytes).2 with hcbs
    obtain ⟨htrack,hflush⟩ := tracks_piece draw session hl
    have hshort := (hvte (vte.run vte.start bytes).1 b).2
    rcases BlockMachine.neutral_or_outBuf draw htrack hb (by rw [hflush]; simpa using hshort)
      with ⟨rfl,hneutral⟩ | hout
    · obtain ⟨front,back,rfl,hout⟩ := ih hl
      refine ⟨front,back ++ [b],by simp,?_⟩
      have hrun : (vte.run (vte.run vte.start front).1 back).1 =
          (vte.run vte.start (front ++ back)).1 := by rw [Transducer.run_append]
      have hid := BlockMachine.reacts_neutral draw
        (m := (steps [(vte.run vte.start front).2] ++
          (vte.run (vte.run vte.start front).1 back).2.map some).foldl
            (BlockMachine.advance draw) (.new session)) hneutral
      rw [Transducer.run_append vte _ back,Transducer.run_singleton,hrun,List.map_append,
        ← List.append_assoc,List.foldl_append,List.foldl_map]
      simp only [BlockMachine.advance]
      rw [hid]
      exact hout
    · refine ⟨bytes,[b],rfl,?_⟩
      rw [Transducer.run_singleton,List.foldl_append,List.foldl_map]
      exact hout

/-- The output reported before the refused mark, and what is still buffered then,
make up all the output so far. -/
theorem outputBefore_cut (draw : Nat → BlockId) (session : SessionId) {f g : Bytes} (rest : Bytes)
    {b : UInt8} {cb : Callback} {cbs : List Callback}
    (hl : exec lineStep .idle (vte.run vte.start (f ++ g)).2 = some .midLine)
    (hb : (vte.next (vte.run vte.start (f ++ g)).1 b).2 = cb :: cbs) (hcb : cb.mark = some .C) :
    outputBefore
        (startedBlocks ((BlockMachine.new session).shown draw (vte.run vte.start (f ++ g)).2).pending).length
        ((BlockParser.new vte session).feedAll vte draw [f,g ++ b :: rest]).2 +
      ((steps [(vte.run vte.start f).2] ++ (vte.run (vte.run vte.start f).1 g).2.map some).foldl
        (BlockMachine.advance draw) (.new session)).outBuf.length =
          outputSize ((BlockMachine.new session).shown draw (vte.run vte.start (f ++ g)).2).pending := by
  set ops := steps [(vte.run vte.start f).2] ++ (vte.run (vte.run vte.start f).1 g).2.map some
    with hops
  have hreduce : ops.reduceOption = (vte.run vte.start (f ++ g)).2 := by
    rw [hops,List.reduceOption_append,reduceOption_steps,Transducer.run_append]
    simp [List.reduceOption]
  have hsplit : ∃ ops', steps (vte.runPieces vte.start [f,g ++ b :: rest]) = ops ++ some cb :: ops' := by
    rw [Transducer.run_append] at hb
    refine ⟨(cbs ++ (vte.run (vte.next (vte.run (vte.run vte.start f).1 g).1 b).1 rest).2).map some
      ++ [none],?_⟩
    simp [Transducer.runPieces,Transducer.run_append,Transducer.run_cons,hb,hops,steps]
  obtain ⟨ops',hsplit⟩ := hsplit
  rw [← hreduce] at hl ⊢
  have hnew : BlockMachine.Tracks .idle (.new session) := ⟨rfl,rfl⟩
  have hopen : (ops.foldl (BlockMachine.advance draw) (.new session)).currentBlock.isSome :=
    hnew.advanceAll draw ops hl
  rw [BlockParser.feedAll_steps,hsplit,← BlockMachine.unbuffer_advanceAll hnew ops hl,
    BlockMachine.startedBlocks_unbuffer,outputBefore_command ops ops' hcb,
    BlockMachine.outputSize_unbuffer hopen]

/-- The events are the same for every cut exactly when no C mark comes in the
middle of a line of output of an open block. -/
theorem cuts_agree_iff (hvte : Ordinary vte) {draw draw' : Nat → BlockId}
    (hdraw : Function.Injective draw) (hdraw' : Function.Injective draw')
    (session : SessionId) (bytes : Bytes) :
    (∀ chunks : List Bytes, chunks.flatten = bytes →
      SameUpToIds ((BlockParser.new vte session).feedAll vte draw chunks).2
        ((BlockParser.new vte session).feedAll vte draw' [bytes]).2) ↔
      (exec lineStep .idle (vte.run vte.start bytes).2).isSome := by
  constructor
  · intro hsame
    by_contra hn
    rw [Option.not_isSome_iff_eq_none] at hn
    obtain ⟨front,b,rest,cb,cbs,rfl,hline,hb,hC⟩ := refused_command hvte hn
    obtain ⟨f,g,rfl,hout⟩ := cut_in_line draw hvte session front hline
    have hlate := outputBefore_cut draw session rest hline hb hC
    have hearly := outputBefore_cut draw session (f := f ++ g) (g := []) rest
      (by simpa using hline) (by simpa using hb) hC
    have hlength := List.length_pos_iff.mpr hout
    have hsame₁ := (hsame [f,g ++ b :: rest] (by simp)).outputBefore
    have hsame₂ := (hsame [f ++ g,b :: rest] (by simp)).outputBefore
    have hflush := (tracks_piece draw session hline).2
    simp only [List.append_nil,Transducer.run_nil,List.map_nil,List.nil_append,hflush,
      List.length_nil,Nat.add_zero] at hearly
    rw [hsame₁] at hlate
    rw [hsame₂] at hearly
    omega
  · intro hl chunks hchunks
    subst hchunks
    obtain ⟨ρ,hρ⟩ := redraw draw' hdraw
    obtain ⟨ρ',hρ'⟩ := redraw draw hdraw'
    refine ⟨⟨ρ,?_⟩,⟨ρ',?_⟩⟩
    · rw [← rename_feedAll,hρ]
      exact bytewise_feedAll session (by simp) hl
    · rw [← rename_feedAll,hρ']
      exact bytewise_feedAll session (by simp) (by simpa using hl)

theorem plainVte_ordinary : Ordinary plainVte := by
  have hone : ∀ c : Callback, (∀ cb ∈ [c].tail, cb.mark = none) ∧
      ([c].flatMap Callback.bytes).length < outputFlushBytes := by
    intro c
    cases c with
    | print c =>
      have hc := c.utf8Size_le_four
      simp [Callback.bytes,String.length_utf8EncodeChar,outputFlushBytes]
      omega
    | _ => simp [Callback.bytes,outputFlushBytes]
  have hnone : (∀ cb ∈ ([] : List Callback).tail, cb.mark = none) ∧
      (([] : List Callback).flatMap Callback.bytes).length < outputFlushBytes := by
    simp [outputFlushBytes]
  intro s b
  cases s <;> simp only [plainVte] <;> split_ifs <;> first | exact hnone | exact hone _

theorem cuts_agree_two_starts :
    SameUpToIds
      ((BlockParser.new plainVte ⟨0⟩).feedAll plainVte BlockId.mk
        [osc133Bytes "C" ++ [0x61],[0x0A] ++ osc133Bytes "C"]).2
      ((BlockParser.new plainVte ⟨0⟩).feedAll plainVte BlockId.mk
        [osc133Bytes "C" ++ [0x61,0x0A] ++ osc133Bytes "C"]).2 :=
  (cuts_agree_iff plainVte_ordinary (fun _ _ h => BlockId.mk.inj h)
    (fun _ _ h => BlockId.mk.inj h) ⟨0⟩ _).mpr (by decide) _ (by decide)

/-- Output in front of a second C goes to the first block or to the second. -/
theorem cuts_differ_in_line :
    ¬ SameUpToIds
      ((BlockParser.new plainVte ⟨0⟩).feedAll plainVte BlockId.mk
        [osc133Bytes "C" ++ [0x61],osc133Bytes "C"]).2
      ((BlockParser.new plainVte ⟨0⟩).feedAll plainVte BlockId.mk
        [osc133Bytes "C" ++ [0x61] ++ osc133Bytes "C"]).2 := by
  intro h
  have hbefore := h.outputBefore 1
  revert hbefore
  decide

end Pyre.Blocks
