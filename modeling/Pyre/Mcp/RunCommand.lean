import Pyre.Base.Run
import Pyre.Base.Table
import Pyre.Proto

/-!
`pane_run_command` on one pane: the call notes the last block, sends its command line and
polls for a finished block with another id. The shell takes the lines as they were submitted,
and the rows of its blocks are written some time after.
-/

set_option autoImplicit false

namespace Pyre.Mcp
open Base

/-- A line that was submitted, by a call or by the user. -/
structure TypedLine where
  author : Option Nat
  text : Text
  deriving DecidableEq, Repr

/-- A block the shell has started; `ended` has the exit code, where the shell told one. -/
structure ShellBlock where
  line : TypedLine
  startedAt : Nat
  ended : Option (Option Int)
  deriving DecidableEq, Repr

structure BlockRow where
  id : BlockId
  startedAt : Nat
  ended : Bool
  exitCode : Option Int
  deriving DecidableEq, Repr

/-- A reply with `completed = true` is the row it was made from. -/
inductive RunPhase where
  | called
  | noted (baseline : Option BlockId)
  | polling (baseline : Option BlockId)
  | completed (row : BlockRow)
  | notCompleted
  deriving DecidableEq, Repr

structure RunCall where
  command : Text
  phase : RunPhase
  deriving DecidableEq, Repr

/-- `typed` is the line at the prompt, `input` are those submitted and not read yet; `rows`
are in the order of their insertion. -/
structure Pane where
  typed : Text
  input : List TypedLine
  running : Option BlockId
  blocks : Table BlockId ShellBlock
  rows : List BlockRow
  calls : Table Nat RunCall

/-- `consume` reads a line and starts no block: a program that is running may read it, an
empty line runs nothing, a shell may not tell of its commands. -/
inductive PaneStep where
  | userKeys (keys : Text)
  | call (n : Nat) (command : Text)
  | note (n : Nat)
  | sendKeys (n : Nat)
  | poll (n : Nat)
  | giveUp (n : Nat)
  | readLine (block : BlockId) (now : Nat)
  | consume
  | finish (exit : Option Int)
  | insertRow (block : BlockId)
  | finalizeRow (block : BlockId)
  deriving DecidableEq, Repr

/-- The lines that the keys submit and what is left at the prompt. -/
def typeKeys (author : Option Nat) : Text → Text → List TypedLine × Text
  | [], typed => ([],typed)
  | key :: keys, typed =>
    if key = '\n' ∨ key = '\r' then
      (⟨author,typed⟩ :: (typeKeys author keys []).1,(typeKeys author keys []).2)
    else typeKeys author keys (typed ++ [key])

/-- The command with Enter. -/
def payload (command : Text) : Text := command ++ ['\n']

/-- What the call's own command submits at an empty prompt. -/
def linesOf (n : Nat) (command : Text) : List TypedLine :=
  (typeKeys (some n) (payload command) []).1

def newer (best : Option BlockRow) (row : BlockRow) : Option BlockRow :=
  match best with
  | none => some row
  | some b => if b.startedAt < row.startedAt then some row else some b

/-- `ORDER BY started_at DESC LIMIT 1`; of rows that are equal the sorter keeps the first. -/
def lastBlock (rows : List BlockRow) : Option BlockRow := rows.foldl newer none

def RunPhase.baseline : RunPhase → Option (Option BlockId)
  | .noted b | .polling b => some b
  | .called | .completed _ | .notCompleted => none

namespace Pane

def start : Pane := ⟨[],[],none,∅,[],∅⟩

def setCall (s : Pane) (n : Nat) (c : RunCall) (phase : RunPhase) : Pane :=
  { s with calls := s.calls.insert n { c with phase } }

def stepCall (s : Pane) (n : Nat) (f : RunCall → Option Pane) : Option Pane :=
  (s.calls.lookup n).bind f

def submit (s : Pane) (author : Option Nat) (keys : Text) : Pane :=
  { s with
    input := s.input ++ (typeKeys author keys s.typed).1
    typed := (typeKeys author keys s.typed).2 }

def step (s : Pane) : PaneStep → Option Pane
  | .userKeys keys => some (s.submit none keys)
  | .call n command =>
    if s.calls.lookup n = none then
      some { s with calls := s.calls.insert n ⟨command,.called⟩ }
    else none
  | .note n => s.stepCall n fun c =>
    match c.phase with
    | .called => some (s.setCall n c (.noted ((lastBlock s.rows).map BlockRow.id)))
    | _ => none
  | .sendKeys n => s.stepCall n fun c =>
    match c.phase with
    | .noted b => some ((s.submit (some n) (payload c.command)).setCall n c (.polling b))
    | _ => none
  | .poll n => s.stepCall n fun c =>
    match c.phase with
    | .polling b =>
      match lastBlock s.rows with
      | some row =>
        if some row.id ≠ b ∧ row.ended ∧ row.exitCode.isSome then
          some (s.setCall n c (.completed row))
        else some s
      | none => some s
    | _ => none
  | .giveUp n => s.stepCall n fun c =>
    match c.phase with
    | .completed _ => none
    | _ => some (s.setCall n c .notCompleted)
  | .readLine b now =>
    match s.running, s.input with
    | none, line :: input =>
      if s.blocks.lookup b = none then
        some { s with
          input := input
          running := some b
          blocks := s.blocks.insert b ⟨line,now,none⟩ }
      else none
    | _, _ => none
  | .consume =>
    match s.input with
    | _ :: input => some { s with input := input }
    | [] => none
  | .finish exit => s.running.bind fun b => (s.blocks.lookup b).map fun block =>
    { s with running := none, blocks := s.blocks.insert b { block with ended := some exit } }
  | .insertRow b => (s.blocks.lookup b).bind fun block =>
    if ∀ row ∈ s.rows, row.id ≠ b then
      some { s with rows := s.rows ++ [⟨b,block.startedAt,false,none⟩] }
    else none
  | .finalizeRow b => (s.blocks.lookup b).bind fun block => block.ended.map fun exit =>
    { s with rows := s.rows.map fun row =>
        if row.id = b then { row with ended := true, exitCode := exit } else row }

/-- The block is one the call has started. -/
def StartedBy (s : Pane) (n : Nat) (b : BlockId) : Prop :=
  ∃ block, s.blocks.lookup b = some block ∧ block.line.author = some n

/-- A reply carries the exit code of a finished block which the call's own command line has
started, and no two calls report one block. -/
structure ReportsOwn (s : Pane) : Prop where
  own : ∀ n c row, s.calls.lookup n = some c → c.phase = .completed row →
    ∃ block exit, s.blocks.lookup row.id = some block ∧ block.line ∈ linesOf n c.command ∧
      block.line.author = some n ∧ block.ended = some (some exit) ∧ row.exitCode = some exit
  apart : ∀ n m c d row row', s.calls.lookup n = some c → s.calls.lookup m = some d →
    c.phase = .completed row → d.phase = .completed row' → row.id = row'.id → n = m

/-- A command is sent at an empty prompt, and while a call waits no row is written but that of
a block it has started itself. -/
def Undisturbed (s : Pane) : PaneStep → Prop
  | .sendKeys _ => s.typed = []
  | .insertRow b => ∀ e ∈ s.calls.entries, e.2.phase.baseline.isSome →
    ∀ block ∈ s.blocks.lookup b, block.line.author = some e.1
  | _ => True

instance (s : Pane) : DecidablePred s.Undisturbed
  | .sendKeys _ => inferInstanceAs (Decidable (_ = _))
  | .insertRow _ => inferInstanceAs (Decidable (∀ _ ∈ _, _ → ∀ _ ∈ _, _))
  | .userKeys _ | .call _ _ | .note _ | .poll _ | .giveUp _ | .readLine _ _ | .consume
  | .finish _ | .finalizeRow _ => isTrue trivial

end Pane

/-! The lines and the last row. -/

theorem author_typeKeys (author : Option Nat) (keys typed : Text) :
    ∀ line ∈ (typeKeys author keys typed).1, line.author = author := by
  induction keys generalizing typed with
  | nil => simp [typeKeys]
  | cons key keys ih =>
    simp only [typeKeys]
    split
    · simpa using ih []
    · exact ih (typed ++ [key])

theorem lastBlock_append (rows : List BlockRow) (row : BlockRow) :
    lastBlock (rows ++ [row]) = lastBlock rows ∨ lastBlock (rows ++ [row]) = some row := by
  rw [lastBlock,lastBlock,List.foldl_append,List.foldl_cons,List.foldl_nil]
  cases rows.foldl newer none with
  | none => exact Or.inr rfl
  | some best =>
    simp only [newer]
    split
    · exact Or.inr rfl
    · exact Or.inl rfl

theorem mem_of_lastBlock {rows : List BlockRow} {row : BlockRow} (h : lastBlock rows = some row) :
    row ∈ rows := by
  induction rows using List.reverseRecOn generalizing row with
  | nil => cases h
  | append_singleton rows last ih =>
    rcases lastBlock_append rows last with hlast | hlast
    · exact List.mem_append_left _ (ih (hlast.symm.trans h))
    · obtain rfl := Option.some.inj (hlast.symm.trans h)
      exact List.mem_append_right _ (List.mem_singleton.mpr rfl)

/-- A change of rows that leaves their start as it was. -/
theorem lastBlock_map {f : BlockRow → BlockRow} (hf : ∀ row, (f row).startedAt = row.startedAt)
    (rows : List BlockRow) : lastBlock (rows.map f) = (lastBlock rows).map f := by
  induction rows using List.reverseRecOn with
  | nil => rfl
  | append_singleton rows last ih =>
    rw [List.map_append,lastBlock,lastBlock,List.foldl_append,List.foldl_append]
    simp only [lastBlock] at ih
    rw [ih]
    cases rows.foldl newer none with
    | none => rfl
    | some best =>
      simp only [List.map_cons,List.map_nil,List.foldl_cons,List.foldl_nil,Option.map_some,newer,hf]
      split <;> rfl

/-! What holds in every state of a run. -/

namespace Pane

/-- A line of a call is one its command submits. -/
def Accounted (calls : Table Nat RunCall) (line : TypedLine) : Prop :=
  ∀ n, line.author = some n → ∃ c, calls.lookup n = some c ∧ line ∈ linesOf n c.command

structure Inv (s : Pane) : Prop where
  lines : ∀ line ∈ s.input, Accounted s.calls line
  blocks : ∀ b block, s.blocks.lookup b = some block → Accounted s.calls block.line
  running : ∀ b block, s.running = some b → s.blocks.lookup b = some block → block.ended = none
  rows : ∀ row ∈ s.rows, ∃ block, s.blocks.lookup row.id = some block ∧
    ∀ exit, row.exitCode = some exit → block.ended = some (some exit)
  waiting : ∀ n c b, s.calls.lookup n = some c → c.phase.baseline = some b →
    ∀ row, lastBlock s.rows = some row → some row.id = b ∨ s.StartedBy n row.id
  completed : ∀ n c row, s.calls.lookup n = some c → c.phase = .completed row →
    s.StartedBy n row.id ∧ ∃ block exit, s.blocks.lookup row.id = some block ∧
      block.ended = some (some exit) ∧ row.exitCode = some exit

theorem inv_start : start.Inv where
  lines line h := by cases h
  blocks b block h := by cases h
  running b block h := by cases h
  rows row h := by cases h
  waiting n c b h := by cases h
  completed n c row h := by cases h

variable {s t : Pane} {n : Nat} {c : RunCall}

/-- A block keeps its line, and its end once it has one. -/
def Grows (blocks blocks' : Table BlockId ShellBlock) : Prop :=
  ∀ b block, blocks.lookup b = some block → ∃ block', blocks'.lookup b = some block' ∧
    block'.line = block.line ∧ ∀ exit, block.ended = some exit → block'.ended = some exit

theorem StartedBy.grows {b : BlockId} (h : s.StartedBy n b) (hg : Grows s.blocks t.blocks) :
    t.StartedBy n b := by
  obtain ⟨block,hb,hauthor⟩ := h
  obtain ⟨block',hb',hline,-⟩ := hg b block hb
  exact ⟨block',hb',hline ▸ hauthor⟩

/-- A step of the shell: rows and calls stay. -/
theorem Inv.of_grows (h : s.Inv) (hg : Grows s.blocks t.blocks) (hcalls : t.calls = s.calls)
    (hrows : t.rows = s.rows) (hinput : ∀ line ∈ t.input, line ∈ s.input)
    (hblocks : ∀ b block, t.blocks.lookup b = some block → Accounted s.calls block.line)
    (hrunning : ∀ b block, t.running = some b → t.blocks.lookup b = some block →
      block.ended = none) : t.Inv where
  lines line hline := hcalls ▸ h.lines line (hinput line hline)
  blocks := by rwa [hcalls]
  running := hrunning
  rows row hrow := by
    obtain ⟨block,hb,hend⟩ := h.rows row (hrows ▸ hrow)
    obtain ⟨block',hb',-,hend'⟩ := hg row.id block hb
    exact ⟨block',hb',fun exit he => hend' _ (hend exit he)⟩
  waiting n c b hc hbase row hrow := by
    rw [hcalls] at hc
    rw [hrows] at hrow
    exact (h.waiting n c b hc hbase row hrow).imp id fun hstart => hstart.grows hg
  completed n c row hc hphase := by
    rw [hcalls] at hc
    obtain ⟨hstart,block,exit,hb,hend,hexit⟩ := h.completed n c row hc hphase
    obtain ⟨block',hb',-,hend'⟩ := hg row.id block hb
    exact ⟨hstart.grows hg,block',exit,hb',hend' _ hend,hexit⟩

theorem Accounted.setCall {line : TypedLine} {phase : RunPhase} (h : Accounted s.calls line)
    (hc : s.calls.lookup n = some c) : Accounted (s.setCall n c phase).calls line := by
  intro m hm
  obtain ⟨d,hd,hline⟩ := h m hm
  by_cases hmn : m = n
  · subst hmn
    obtain rfl := Option.some.inj (hc.symm.trans hd)
    exact ⟨_,AList.lookup_insert _,hline⟩
  · exact ⟨d,(AList.lookup_insert_ne hmn).trans hd,hline⟩

/-- A call goes on to a phase that is right for it. -/
theorem Inv.setCall {phase : RunPhase} (h : s.Inv) (hc : s.calls.lookup n = some c)
    (hwait : ∀ b, phase.baseline = some b → ∀ row, lastBlock s.rows = some row →
      some row.id = b ∨ s.StartedBy n row.id)
    (hdone : ∀ row, phase = .completed row → s.StartedBy n row.id ∧ ∃ block exit,
      s.blocks.lookup row.id = some block ∧ block.ended = some (some exit) ∧
        row.exitCode = some exit) : (s.setCall n c phase).Inv where
  lines line hline := (h.lines line hline).setCall hc
  blocks b block hb := (h.blocks b block hb).setCall hc
  running := h.running
  rows := h.rows
  waiting m d b hd hbase := by
    rcases Table.lookup_insert_eq_some.mp hd with ⟨rfl,rfl⟩ | ⟨-,hd⟩
    · exact hwait b hbase
    · exact h.waiting m d b hd hbase
  completed m d row hd hphase := by
    rcases Table.lookup_insert_eq_some.mp hd with ⟨rfl,rfl⟩ | ⟨-,hd⟩
    · exact hdone row hphase
    · exact h.completed m d row hd hphase

/-- Keys that submit lines which are accounted for. -/
theorem Inv.submit (h : s.Inv) (author : Option Nat) (keys : Text)
    (hlines : ∀ line ∈ (typeKeys author keys s.typed).1, Accounted s.calls line) :
    (s.submit author keys).Inv where
  lines line hline := by
    rcases List.mem_append.mp hline with hline | hline
    · exact h.lines line hline
    · exact hlines line hline
  blocks := h.blocks
  running := h.running
  rows := h.rows
  waiting := h.waiting
  completed := h.completed

theorem accounted_user (keys : Text) :
    ∀ line ∈ (typeKeys none keys s.typed).1, Accounted s.calls line := by
  intro line hline n hn
  rw [author_typeKeys none keys s.typed line hline] at hn
  cases hn

theorem Inv.call (h : s.Inv) (hnew : s.calls.lookup n = none) (command : Text) :
    ({ s with calls := s.calls.insert n ⟨command,.called⟩ } : Pane).Inv := by
  have hkeep : ∀ {m d}, s.calls.lookup m = some d →
      (s.calls.insert n ⟨command,.called⟩).lookup m = some d := by
    intro m d hd
    have hmn : m ≠ n := by
      rintro rfl
      rw [hnew] at hd
      cases hd
    exact (AList.lookup_insert_ne hmn).trans hd
  have hline : ∀ {line}, Accounted s.calls line →
      Accounted (s.calls.insert n ⟨command,.called⟩) line := by
    intro line hacc m hm
    obtain ⟨d,hd,hmem⟩ := hacc m hm
    exact ⟨d,hkeep hd,hmem⟩
  refine ⟨fun line hl => hline (h.lines line hl),fun b block hb => hline (h.blocks b block hb),
    h.running,h.rows,fun m d b hd hbase => ?_,fun m d row hd hphase => ?_⟩
  · rcases Table.lookup_insert_eq_some.mp hd with ⟨-,rfl⟩ | ⟨-,hd⟩
    · cases hbase
    · exact h.waiting m d b hd hbase
  · rcases Table.lookup_insert_eq_some.mp hd with ⟨-,rfl⟩ | ⟨-,hd⟩
    · cases hphase
    · exact h.completed m d row hd hphase

theorem Inv.insertRow {b : BlockId} {block : ShellBlock} (h : s.Inv)
    (hb : s.blocks.lookup b = some block)
    (hown : ∀ e ∈ s.calls.entries, e.2.phase.baseline.isSome → block.line.author = some e.1) :
    ({ s with rows := s.rows ++ [⟨b,block.startedAt,false,none⟩] } : Pane).Inv where
  lines := h.lines
  blocks := h.blocks
  running := h.running
  rows row hrow := by
    rcases List.mem_append.mp hrow with hrow | hrow
    · exact h.rows row hrow
    · obtain rfl := List.mem_singleton.mp hrow
      exact ⟨block,hb,fun exit he => by cases he⟩
  waiting n c base hc hbase row hrow := by
    rcases lastBlock_append s.rows ⟨b,block.startedAt,false,none⟩ with hlast | hlast
    · exact h.waiting n c base hc hbase row (hlast.symm.trans hrow)
    · obtain rfl := Option.some.inj (hlast.symm.trans hrow)
      have hauthor := hown ⟨n,c⟩ (Table.lookup_eq_some.mp hc) (by rw [hbase]; rfl)
      exact Or.inr ⟨block,hb,hauthor⟩
  completed := h.completed

theorem Inv.finalizeRow {b : BlockId} {block : ShellBlock} {exit : Option Int} (h : s.Inv)
    (hb : s.blocks.lookup b = some block) (hend : block.ended = some exit) :
    ({ s with rows := s.rows.map fun row =>
      if row.id = b then { row with ended := true, exitCode := exit } else row } : Pane).Inv where
  lines := h.lines
  blocks := h.blocks
  running := h.running
  rows row hrow := by
    obtain ⟨old,hold,rfl⟩ := List.mem_map.mp hrow
    by_cases hid : old.id = b
    · rw [if_pos hid]
      refine ⟨block,by rwa [← hid] at hb,fun e he => ?_⟩
      rw [hend]
      exact congrArg some he
    · rw [if_neg hid]
      exact h.rows old hold
  waiting n c base hc hbase row hrow := by
    rw [lastBlock_map (fun row => by split <;> rfl)] at hrow
    obtain ⟨old,hold,rfl⟩ := Option.map_eq_some_iff.mp hrow
    have hid : (if old.id = b then { old with ended := true, exitCode := exit } else old).id =
        old.id := by split <;> rfl
    rw [hid]
    exact h.waiting n c base hc hbase old hold
  completed := h.completed

theorem step_inv {e : PaneStep} (h : s.Inv) (hund : s.Undisturbed e)
    (hstep : s.step e = some t) : t.Inv := by
  cases e with
  | userKeys keys =>
    obtain rfl := Option.some.inj hstep
    exact h.submit none keys (accounted_user keys)
  | call n command =>
    simp only [step,Option.ite_none_right_eq_some,Option.some.injEq] at hstep
    obtain ⟨hnew,rfl⟩ := hstep
    exact h.call hnew command
  | note n =>
    obtain ⟨c,hc,hstep⟩ := Option.bind_eq_some_iff.mp hstep
    split at hstep
    · obtain rfl := Option.some.inj hstep
      refine h.setCall hc (fun b hb row hrow => Or.inl ?_) (fun row hphase => by cases hphase)
      obtain rfl := Option.some.inj hb
      rw [hrow]
      rfl
    · cases hstep
  | sendKeys n =>
    obtain ⟨c,hc,hstep⟩ := Option.bind_eq_some_iff.mp hstep
    split at hstep
    · rename_i b hphase
      obtain rfl := Option.some.inj hstep
      have hsubmit : (s.submit (some n) (payload c.command)).Inv := by
        refine h.submit (some n) (payload c.command) fun line hline m hm => ?_
        have hauthor := author_typeKeys (some n) (payload c.command) s.typed line hline
        obtain rfl : n = m := Option.some.inj (hauthor.symm.trans hm)
        rw [show s.typed = [] from hund] at hline
        exact ⟨c,hc,hline⟩
      refine hsubmit.setCall hc (fun b' hb' => ?_) (fun row hdone => by cases hdone)
      obtain rfl := Option.some.inj hb'
      exact h.waiting n c b hc (by rw [hphase]; rfl)
    · cases hstep
  | poll n =>
    obtain ⟨c,hc,hstep⟩ := Option.bind_eq_some_iff.mp hstep
    split at hstep
    · rename_i b hphase
      split at hstep
      · rename_i row hrow
        split at hstep
        · rename_i hfound
          obtain rfl := Option.some.inj hstep
          refine h.setCall hc (fun b' hb' => by cases hb') (fun row' hdone => ?_)
          obtain rfl : row = row' := by simpa using hdone
          have hown := h.waiting n c b hc (by rw [hphase]; rfl) row hrow
          obtain ⟨exit,hexit⟩ := Option.isSome_iff_exists.mp hfound.2.2
          obtain ⟨block,hb,hend⟩ := h.rows row (mem_of_lastBlock hrow)
          exact ⟨hown.resolve_left hfound.1,block,exit,hb,hend exit hexit,hexit⟩
        · exact Option.some.inj hstep ▸ h
      · exact Option.some.inj hstep ▸ h
    · cases hstep
  | giveUp n =>
    obtain ⟨c,hc,hstep⟩ := Option.bind_eq_some_iff.mp hstep
    split at hstep
    · cases hstep
    · obtain rfl := Option.some.inj hstep
      exact h.setCall hc (fun b hb => by cases hb) (fun row hdone => by cases hdone)
  | readLine b now =>
    simp only [step] at hstep
    split at hstep
    · rename_i line input hrun hinput
      simp only [Option.ite_none_right_eq_some,Option.some.injEq] at hstep
      obtain ⟨hnew,rfl⟩ := hstep
      have hmem : ∀ line' ∈ line :: input, line' ∈ s.input := by
        rw [hinput]
        exact fun _ hline => hline
      refine h.of_grows ?_ rfl rfl (fun line' hline => hmem line' (List.mem_cons_of_mem _ hline))
        ?_ ?_
      · intro b' block hb'
        have hne : b' ≠ b := by
          rintro rfl
          rw [hnew] at hb'
          cases hb'
        exact ⟨block,(AList.lookup_insert_ne hne).trans hb',rfl,fun _ he => he⟩
      · intro b' block hb'
        rcases Table.lookup_insert_eq_some.mp hb' with ⟨-,rfl⟩ | ⟨-,hb'⟩
        · exact h.lines line (hmem line List.mem_cons_self)
        · exact h.blocks b' block hb'
      · intro b' block hrun hb'
        obtain rfl := Option.some.inj hrun
        obtain rfl := Option.some.inj ((AList.lookup_insert _).symm.trans hb')
        rfl
    · cases hstep
  | consume =>
    simp only [step] at hstep
    split at hstep
    · rename_i line input hinput
      obtain rfl := Option.some.inj hstep
      refine h.of_grows (fun b block hb => ⟨block,hb,rfl,fun _ he => he⟩) rfl rfl ?_ h.blocks
        h.running
      intro line' hline
      rw [hinput]
      exact List.mem_cons_of_mem _ hline
    · cases hstep
  | finish exit =>
    obtain ⟨b,hrun,hstep⟩ := Option.bind_eq_some_iff.mp hstep
    obtain ⟨block,hb,rfl⟩ := Option.map_eq_some_iff.mp hstep
    have hopen := h.running b block hrun hb
    refine h.of_grows ?_ rfl rfl (fun _ hline => hline) ?_ (fun b' block' hnone => by cases hnone)
    · intro b' block' hb'
      by_cases hne : b' = b
      · subst hne
        obtain rfl := Option.some.inj (hb.symm.trans hb')
        refine ⟨_,AList.lookup_insert _,rfl,fun e he => ?_⟩
        rw [hopen] at he
        cases he
      · exact ⟨block',(AList.lookup_insert_ne hne).trans hb',rfl,fun _ he => he⟩
    · intro b' block' hb'
      rcases Table.lookup_insert_eq_some.mp hb' with ⟨-,rfl⟩ | ⟨-,hb'⟩
      · exact h.blocks b block hb
      · exact h.blocks b' block' hb'
  | insertRow b =>
    obtain ⟨block,hb,hstep⟩ := Option.bind_eq_some_iff.mp hstep
    simp only [Option.ite_none_right_eq_some,Option.some.injEq] at hstep
    obtain ⟨-,rfl⟩ := hstep
    exact h.insertRow hb fun e he hbase => hund e he hbase block hb
  | finalizeRow b =>
    obtain ⟨block,hb,hstep⟩ := Option.bind_eq_some_iff.mp hstep
    obtain ⟨exit,hend,rfl⟩ := Option.map_eq_some_iff.mp hstep
    exact h.finalizeRow hb hend

theorem Inv.reportsOwn (h : s.Inv) : s.ReportsOwn where
  own n c row hc hphase := by
    obtain ⟨⟨block,hb,hauthor⟩,block',exit,hb',hend,hexit⟩ := h.completed n c row hc hphase
    obtain rfl := Option.some.inj (hb.symm.trans hb')
    obtain ⟨d,hd,hline⟩ := h.blocks row.id block hb n hauthor
    obtain rfl := Option.some.inj (hc.symm.trans hd)
    exact ⟨block,exit,hb,hline,hauthor,hend,hexit⟩
  apart n m c d row row' hc hd hphase hphase' hid := by
    obtain ⟨⟨block,hb,hauthor⟩,-⟩ := h.completed n c row hc hphase
    obtain ⟨⟨block',hb',hauthor'⟩,-⟩ := h.completed m d row' hd hphase'
    rw [hid,hb'] at hb
    obtain rfl := Option.some.inj hb
    exact Option.some.inj (hauthor.symm.trans hauthor')

end Pane

/-- In a run where each call sends at an empty prompt and no row but its own blocks' is written
while it waits, a reply is about the call's own command. -/
theorem run_command_reports_own {es : List PaneStep}
    (h : Along Pane.step Pane.Undisturbed .start es) :
    Always Pane.step Pane.ReportsOwn .start es := by
  have hinv := h.invariant (fun s e t hs hund hstep => Pane.step_inv hs hund hstep) Pane.inv_start
  exact hinv.mono fun s hs => hs.reportsOwn

/-- A command of the user's, and then two calls one after the other. -/
theorem run_command_after_another : Always Pane.step Pane.ReportsOwn .start
    [.userKeys ['l','s','\n'],.readLine ⟨1⟩ 1,.insertRow ⟨1⟩,.finish (some 0),.finalizeRow ⟨1⟩,
      .call 0 ['m'],.note 0,.sendKeys 0,.readLine ⟨2⟩ 2,.poll 0,.insertRow ⟨2⟩,.finish (some 1),
      .finalizeRow ⟨2⟩,.poll 0,.call 1 ['m'],.note 1,.sendKeys 1,.readLine ⟨3⟩ 3,.insertRow ⟨3⟩,
      .finish (some 0),.finalizeRow ⟨3⟩,.poll 1] :=
  run_command_reports_own (by decide)

/-- Two calls note the same last block; the first one's command finishes. -/
def overlappingCalls : List PaneStep :=
  [.call 0 ['a'],.call 1 ['b'],.note 0,.note 1,.sendKeys 0,.sendKeys 1,.readLine ⟨1⟩ 1,
    .insertRow ⟨1⟩,.finish (some 0),.finalizeRow ⟨1⟩,.poll 0,.poll 1]

/-- Both report the block of the first. -/
theorem overlapping_calls_one_block : ¬∀ es, Always Pane.step Pane.ReportsOwn .start es := by
  intro h
  obtain ⟨t,ht⟩ := Option.isSome_iff_exists.mp
    (show (exec Pane.step .start overlappingCalls).isSome by decide)
  have hown := (h overlappingCalls).last ht
  have hfirst : (exec Pane.step .start overlappingCalls).bind (fun t => t.calls.lookup 0) =
      some ⟨['a'],.completed ⟨⟨1⟩,1,true,some 0⟩⟩ := by decide
  have hsecond : (exec Pane.step .start overlappingCalls).bind (fun t => t.calls.lookup 1) =
      some ⟨['b'],.completed ⟨⟨1⟩,1,true,some 0⟩⟩ := by decide
  rw [ht,Option.bind_some] at hfirst hsecond
  exact absurd (hown.apart 0 1 _ _ _ _ hfirst hsecond rfl rfl rfl) (by decide)

end Pyre.Mcp
