import Pyre.Blocks.Log

/-!
The command text of a block. Everything drawn between A and C is taken for the
command, and the B mark that ends the prompt is skipped.
-/

set_option autoImplicit false

namespace Pyre.Blocks
open Base

def Printable (c : Char) : Prop := 0x20 ≤ c.toNat ∧ ¬ (0x7F ≤ c.toNat ∧ c.toNat ≤ 0x9F)

instance : DecidablePred Printable := fun _ => inferInstanceAs (Decidable (_ ∧ _))

/-- The callback a drawn character makes: controls are executed, the rest is printed. -/
def drawnChar (c : Char) : Callback :=
  if c.toNat < 0x20 then .execute (UInt8.ofNat c.toNat) else .print c

def drawn (t : Text) : List Callback := t.map drawnChar

/-- The callback of the OSC 133 sequence of one letter, ended by BEL. -/
def osc133Callback (letter : Char) : Callback :=
  .oscDispatch [BlockMachine.osc133,encode [letter]] true

/-- What a prompt cycle draws: A, the prompt, possibly B, the line, its end, C. -/
def promptCycle (prompt : Text) (withB : Bool) (line lineEnd : Text) : List Callback :=
  osc133Callback 'A' :: (drawn prompt ++ (if withB then [osc133Callback 'B'] else []) ++
    drawn (line ++ lineEnd) ++ [osc133Callback 'C'])

def commands (events : List BlockEvent) : List Text :=
  events.filterMap fun
    | .commandStart _ _ command _ => some command
    | _ => none

theorem bytes_drawnChar (c : Char) : (drawnChar c).bytes = String.utf8EncodeChar c := by
  by_cases h : c.toNat < 0x20
  · rw [utf8EncodeChar_of_ascii (by omega)]
    simp [drawnChar,h,Callback.bytes]
  · simp [drawnChar,h,Callback.bytes]

theorem mark_A : (osc133Callback 'A').mark = some .A := by decide

theorem mark_B : (osc133Callback 'B').mark = some .B := by decide

theorem mark_C : (osc133Callback 'C').mark = some .C := by decide

theorem mark_drawnChar (c : Char) : (drawnChar c).mark = none := by
  by_cases h : c.toNat < 0x20 <;> simp [drawnChar,h,Callback.mark]

theorem bytes_drawn (t : Text) : (drawn t).flatMap Callback.bytes = encode t := by
  induction t with
  | nil => rfl
  | cons c t ih =>
    rw [encode_cons,← ih,← bytes_drawnChar]
    rfl

theorem commands_append (es fs : List BlockEvent) :
    commands (es ++ fs) = commands es ++ commands fs := by simp [commands]

namespace BlockMachine

variable {draw : Nat → BlockId} {m : BlockMachine}

def gather (m : BlockMachine) (bs : Bytes) : BlockMachine := { m with cmdBuf := m.cmdBuf ++ bs }

/-- The machine takes in the command. -/
def Gathering (m : BlockMachine) : Prop := m.currentBlock = none ∧ m.capturingCmd = true

theorem pushBytes_gather (h : m.Gathering) (bs : Bytes) (h0 : 0 ∉ bs) :
    bs.foldl pushByte m = m.gather bs := by
  induction bs generalizing m with
  | nil => simp [gather]
  | cons b bs ih =>
    have hne : b ≠ 0 := fun hb => h0 (by simp [hb])
    have hbs : 0 ∉ bs := fun hb => h0 (by simp [hb])
    have hpush : m.pushByte b = m.gather [b] := by
      rw [pushByte_of_none h.1]
      simp [gather,h.2,hne]
    have hg : (m.gather [b]).Gathering := h
    rw [List.foldl_cons,hpush,ih hg hbs]
    simp [gather]

/-- Text and B marks only grow the command. -/
theorem react_gather (h : m.Gathering) {cb : Callback}
    (hk : cb.mark = none ∨ cb.mark = some .B) (h0 : 0 ∉ cb.bytes) :
    m.react draw cb = m.gather cb.bytes := by
  rw [react_eq]
  obtain hk | hk := hk <;> simp only [hk] <;> exact pushBytes_gather h _ h0

theorem advanceAll_gather (draw : Nat → BlockId) (h : m.Gathering) (ops : List (Option Callback))
    (hops : ∀ cb ∈ ops.reduceOption, (cb.mark = none ∨ cb.mark = some .B) ∧ 0 ∉ cb.bytes) :
    ops.foldl (advance draw) m = m.gather (ops.reduceOption.flatMap Callback.bytes) := by
  induction ops generalizing m with
  | nil => simp [gather]
  | cons op ops ih =>
    cases op with
    | none =>
      rw [List.reduceOption_cons_of_none] at hops ⊢
      rw [List.foldl_cons,advance,flushOutput_of_none h.1,ih h hops]
    | some cb =>
      rw [List.reduceOption_cons_of_some] at hops ⊢
      have hcb := hops cb (by simp)
      have hg : (m.gather cb.bytes).Gathering := h
      rw [List.foldl_cons,advance,react_gather h hcb.1 hcb.2,ih hg fun c hc => hops c (by simp [hc])]
      simp [gather]

theorem commands_flushOutput (m : BlockMachine) :
    commands m.flushOutput.pending = commands m.pending := by
  cases h : m.currentBlock with
  | none => rw [flushOutput_of_none h]
  | some b =>
    rw [flushOutput_of_some h]
    by_cases ho : m.outBuf = [] <;> simp [commands,ho]

theorem commands_flushes {ops : List (Option Callback)} (h : ∀ op ∈ ops, op = none)
    (m : BlockMachine) :
    commands (ops.foldl (advance draw) m).pending = commands m.pending := by
  induction ops generalizing m with
  | nil => rfl
  | cons op ops ih =>
    obtain rfl := h op (by simp)
    rw [List.foldl_cons,ih fun o ho => h o (by simp [ho])]
    exact commands_flushOutput m

end BlockMachine

variable {σ : Type} (vte : Vte σ) (draw : Nat → BlockId)

/-- The command a prompt cycle reports is all that was drawn between its ends. -/
theorem commands_feedAll (p : BlockParser σ) (hp : p.machine.pending = []) (chunks : List Bytes)
    {text : List Callback}
    (htext : ∀ cb ∈ text, (cb.mark = none ∨ cb.mark = some .B) ∧ 0 ∉ cb.bytes)
    (h : (vte.run p.parser chunks.flatten).2 =
      osc133Callback 'A' :: (text ++ [osc133Callback 'C'])) :
    commands (p.feedAll vte draw chunks).2 =
      [trimEnd (fromUtf8Lossy (text.flatMap Callback.bytes))] := by
  rw [← Transducer.runPieces_flatten,← reduceOption_steps,List.reduceOption,
    List.filterMap_eq_cons_iff] at h
  obtain ⟨before,a,rest,hsteps,hbefore,ha,hrest⟩ := h
  rw [List.filterMap_eq_append_iff] at hrest
  obtain ⟨middle,last,rfl,hmiddle,hlast⟩ := hrest
  rw [List.filterMap_eq_cons_iff] at hlast
  obtain ⟨idle,c,after,rfl,hidle,hc,hafter⟩ := hlast
  obtain rfl : a = some (osc133Callback 'A') := ha
  obtain rfl : c = some (osc133Callback 'C') := hc
  set m₁ := before.foldl (BlockMachine.advance draw) p.machine with hm₁
  have hstart : commands m₁.pending = [] := by
    rw [hm₁,BlockMachine.commands_flushes hbefore,hp]
    rfl
  have hA : m₁.advance draw (some (osc133Callback 'A')) = m₁.atPrompt := by
    rw [BlockMachine.advance,BlockMachine.react_eq,mark_A]
  have hprompt : commands m₁.atPrompt.pending = [] := by
    rw [BlockMachine.atPrompt,commands_append,BlockMachine.commands_flushOutput,hstart]
    rfl
  have hmid : (middle ++ idle).reduceOption = text := by
    rw [List.reduceOption_append,← hmiddle]
    have hnone : idle.reduceOption = [] := List.filterMap_eq_nil_iff.mpr hidle
    rw [hnone,List.append_nil]
    rfl
  have hgather := BlockMachine.advanceAll_gather draw (m := m₁.atPrompt) ⟨rfl,rfl⟩
    (middle ++ idle) (by rw [hmid]; exact htext)
  have hC : ∀ m : BlockMachine, m.advance draw (some (osc133Callback 'C')) = m.atCommand draw := by
    intro m
    rw [BlockMachine.advance,BlockMachine.react_eq,mark_C]
  rw [BlockParser.feedAll_log vte draw p hp,hsteps,List.foldl_append,← hm₁,List.foldl_cons,hA,
    ← List.append_assoc,List.foldl_append,hgather,hmid,List.foldl_cons,hC,
    BlockMachine.commands_flushes (List.filterMap_eq_nil_iff.mp hafter)]
  simp only [BlockMachine.atCommand,BlockMachine.gather,commands_append,hprompt]
  rfl

/-- The command is the line that was entered exactly when the prompt is empty, or
prompt and line are both blank. -/
theorem command_is_line_iff (p : BlockParser σ) (hp : p.machine.pending = [])
    (chunks : List Bytes) (prompt : Text) (withB : Bool) (line lineEnd : Text)
    (hprompt : ∀ c ∈ prompt, Printable c ∨ c ∈ ['\t','\n','\r'])
    (hline : ∀ c ∈ line, Printable c) (hend : ∀ c ∈ lineEnd, c ∈ ['\n','\r'])
    (hvte : (vte.run p.parser chunks.flatten).2 = promptCycle prompt withB line lineEnd) :
    commands (p.feedAll vte draw chunks).2 = [trimEnd line] ↔
      prompt = [] ∨ (trimEnd prompt = [] ∧ trimEnd line = []) := by
  have hchar : ∀ c : Char, Printable c ∨ c ∈ ['\t','\n','\r'] →
      ((drawnChar c).mark = none ∨ (drawnChar c).mark = some .B) ∧ 0 ∉ (drawnChar c).bytes := by
    intro c hc
    have h0 : c ≠ '\x00' := by
      rintro rfl
      revert hc
      decide
    rw [bytes_drawnChar]
    exact ⟨Or.inl (mark_drawnChar c),zero_notMem_utf8EncodeChar h0⟩
  have htext : ∀ cb ∈ drawn prompt ++ (if withB then [osc133Callback 'B'] else []) ++
      drawn (line ++ lineEnd), (cb.mark = none ∨ cb.mark = some .B) ∧ 0 ∉ cb.bytes := by
    intro cb hcb
    simp only [drawn,List.map_append,List.mem_append,List.mem_map] at hcb
    rcases hcb with (⟨c,hc,rfl⟩ | hb) | ⟨c,hc,rfl⟩ | ⟨c,hc,rfl⟩
    · exact hchar c (hprompt c hc)
    · cases withB with
      | false => simp at hb
      | true =>
        obtain rfl : cb = osc133Callback 'B' := by simpa using hb
        exact ⟨Or.inr mark_B,by decide⟩
    · exact hchar c (Or.inl (hline c hc))
    · have hce := hend c hc
      exact hchar c (Or.inr (List.mem_cons_of_mem _ hce))
  have hbytes : (drawn prompt ++ (if withB then [osc133Callback 'B'] else []) ++
      drawn (line ++ lineEnd)).flatMap Callback.bytes = encode (prompt ++ (line ++ lineEnd)) := by
    have hB : (if withB then [osc133Callback 'B'] else []).flatMap Callback.bytes = [] := by
      cases withB <;> rfl
    simp only [List.flatMap_append,bytes_drawn,hB,List.append_nil,encode_append]
  have hblank : ∀ c ∈ lineEnd, isWhitespace c = true := by
    intro c hc
    have hce := hend c hc
    simp only [List.mem_cons,List.not_mem_nil,or_false] at hce
    rcases hce with rfl | rfl <;> decide
  rw [commands_feedAll vte draw p hp chunks htext hvte,hbytes,fromUtf8Lossy_encode,
    ← List.append_assoc,trimEnd_append_blank hblank,List.cons.injEq,and_iff_left rfl]
  exact trimEnd_append_eq_iff

theorem command_of_empty_prompt :
    commands ((BlockParser.new plainVte ⟨0⟩).feedAll plainVte BlockId.mk
      [osc133Bytes "A",encode ['p','w'],encode ['d','\r','\n'] ++ osc133Bytes "C"]).2 =
        [trimEnd ['p','w','d']] :=
  (command_is_line_iff plainVte BlockId.mk (.new plainVte ⟨0⟩) rfl _ [] false ['p','w','d']
    ['\r','\n'] (by simp) (by simp [Printable]) (by simp) (by decide)).mpr (Or.inl rfl)

/-- With a prompt in front the command is the prompt and the line, B or no B. -/
theorem command_of_dollar_prompt :
    commands ((BlockParser.new plainVte ⟨0⟩).feedAll plainVte BlockId.mk
      [osc133Bytes "A" ++ encode ['$',' '] ++ osc133Bytes "B" ++ encode ['l','s','\n'] ++
        osc133Bytes "C"]).2 ≠ [trimEnd ['l','s']] := by
  decide

end Pyre.Blocks
