import Mathlib.Data.List.Perm.Basic
import Pyre.Base.Run
import Pyre.Base.Table
import Pyre.Mcp.Prefixes

/-!
The MCP server as a whole: its main loop reads a request from each line and gives it to a task of
its own, all of them write into one channel, and each subscription has a task that polls the daemon
until it is aborted.
-/

set_option autoImplicit false

namespace Pyre.Mcp
open Base

variable {V : Type}

/-- `id` is `none` where the line has none or `null`. -/
structure Request (V : Type) where
  id : Option V
  method : String
  params : V

structure RpcError where
  code : Int
  message : String
  data : Option (String × String)
  deriving DecidableEq

structure Response (V : Type) where
  id : Option V
  outcome : Except RpcError V

inductive Failure where
  | plain (message : String)
  | structured (e : StructuredError)

/-- What the JSON library makes of a line, a field as a text, and the values that are always the
same. -/
structure Json (V : Type) where
  fromStr : Text → Except String (Request V)
  asStr : V → String → Option String
  empty : V
  handleInitialize : V
  handleToolsList : V

/-- What goes to the client. -/
inductive Line (V : Type) where
  | response (r : Response V)
  | updated (uri : String)

inductive Stage (V : Type) where
  | dispatching
  | replying (r : Response V)

structure Task (V : Type) where
  request : Request V
  stage : Stage V

inductive WatchStage where
  | polling
  | notifying
  | over
  deriving DecidableEq

/-- The task of a subscription. An aborted one ends where it next has to wait. -/
structure Watch where
  uri : String
  seq : Nat
  stage : WatchStage
  aborted : Bool
  deriving DecidableEq

/-- Around the loop, unless the task was aborted. -/
def Watch.goOn (w : Watch) : Watch := { w with stage := if w.aborted then .over else .polling }

/-- A task of a subscription is told by its place among all that were spawned. -/
structure Server (V : Type) where
  tasks : List (Task V)
  subscriptions : Table String Nat
  watches : List Watch
  channel : List (Line V)
  stdout : List (Line V)

/-- `dispatch` has what the daemon makes of a request that asks it, `poll` the numbers of the
events that come back: none where the wait was in vain or failed. -/
inductive ServerOp (V : Type) where
  | readLine (line : Text)
  | dispatch (task : Nat) (answer : Except Failure V)
  | reply (task : Nat)
  | poll (watch : Nat) (events : List Nat)
  | notify (watch : Nat)
  | cancel (watch : Nat)
  | write

def channelCap : Nat := 256

def toolNames : List String :=
  ["pane_send_keys","pane_capture","pane_set_state","block_search","session_spawn",
    "session_close","pane_open","wait_pane_state","list_sessions","list_panes","session_layout",
    "gc_stale_sessions","set_pane_weight","get_session_layout","open_pane_split",
    "pane_last_block","pane_run_command"]

namespace Response

def ok (id : Option V) (result : V) : Response V := ⟨id,.ok result⟩

def err (id : Option V) (code : Int) (message : String) : Response V :=
  ⟨id,.error ⟨code,message,none⟩⟩

end Response

namespace Server

def start : Server V := ⟨[],∅,[],[],[]⟩

def send (s : Server V) (line : Line V) : Option (Server V) :=
  if s.channel.length < channelCap then some { s with channel := s.channel ++ [line] } else none

def subscribe (s : Server V) (uri : String) : Server V :=
  match s.subscriptions.lookup uri with
  | some _ => s
  | none => { s with
      subscriptions := s.subscriptions.insert uri s.watches.length
      watches := s.watches ++ [⟨uri,0,.polling,false⟩] }

def abort (w : Watch) : Watch := { w with aborted := true }

def unsubscribe (s : Server V) (uri : String) : Server V :=
  match s.subscriptions.lookup uri with
  | some h => { s with
      subscriptions := s.subscriptions.erase uri
      watches := s.watches.modify h abort }
  | none => s

end Server

section steps

variable (J : Json V)

/-- The result of a method, `none` where no response is due. -/
def dispatch (s : Server V) (r : Request V) (answer : Except Failure V) :
    Server V × Except Failure (Option V) :=
  match r.method with
  | "initialize" => (s,.ok (some J.handleInitialize))
  | "initialized" => (s,.ok none)
  | "resources/list" => (s,answer.map some)
  | "resources/read" =>
    match J.asStr r.params "uri" with
    | none => (s,.error (.plain "missing uri"))
    | some _ => (s,answer.map some)
  | "resources/subscribe" =>
    match J.asStr r.params "uri" with
    | none => (s,.error (.plain "missing uri"))
    | some uri => (s.subscribe uri,.ok (some J.empty))
  | "resources/unsubscribe" =>
    match J.asStr r.params "uri" with
    | none => (s,.error (.plain "missing uri"))
    | some uri => (s.unsubscribe uri,.ok (some J.empty))
  | "tools/list" => (s,.ok (some J.handleToolsList))
  | "tools/call" =>
    match J.asStr r.params "name" with
    | none => (s,.error (.plain "missing name"))
    | some name =>
      if name ∈ toolNames then (s,answer.map some)
      else (s,.error (.plain s!"unknown tool: {name}"))
  | method => (s,.error (.plain s!"method not found: {method}"))

/-- `Server::handle`, behind the dispatch. -/
def handle (id : Option V) : Except Failure (Option V) → Option (Response V)
  | .ok (some val) => some (.ok id val)
  | .ok none => none
  | .error (.structured e) => some ⟨id,.error ⟨-32000,e.message,some (e.code,e.hint)⟩⟩
  | .error (.plain message) => some (.err id (-32000) message)

namespace Server

/-- The main loop takes a line. -/
def readLine (s : Server V) (line : Text) : Option (Server V) :=
  let line := trim line
  if line = [] then some s
  else
    match J.fromStr line with
    | .ok r => some { s with tasks := s.tasks ++ [⟨r,.dispatching⟩] }
    | .error e => s.send (.response (.err none (-32700) s!"parse error: {e}"))

def finishTask (s : Server V) (i : Nat) : Server V := { s with tasks := s.tasks.eraseIdx i }

def step (s : Server V) : ServerOp V → Option (Server V)
  | .readLine line => s.readLine J line
  | .dispatch i answer =>
    match s.tasks[i]? with
    | some ⟨request,.dispatching⟩ =>
      let (s,result) := dispatch J s request answer
      match handle request.id result with
      | some r => some { s with tasks := s.tasks.set i ⟨request,.replying r⟩ }
      | none => some (s.finishTask i)
    | _ => none
  | .reply i =>
    match s.tasks[i]? with
    | some ⟨request,.replying r⟩ =>
      if request.id.isSome then (s.finishTask i).send (.response r) else some (s.finishTask i)
    | _ => none
  | .poll h events =>
    match s.watches[h]? with
    | some ⟨uri,seq,.polling,aborted⟩ =>
      match events.getLast? with
      | some last => some { s with watches := s.watches.set h ⟨uri,last,.notifying,aborted⟩ }
      | none => some { s with watches := s.watches.set h (.goOn ⟨uri,seq,.polling,aborted⟩) }
    | _ => none
  | .notify h =>
    match s.watches[h]? with
    | some ⟨uri,seq,.notifying,aborted⟩ =>
      ({ s with watches := s.watches.set h (.goOn ⟨uri,seq,.notifying,aborted⟩) } : Server V).send
        (.updated uri)
    | _ => none
  | .cancel h =>
    match s.watches[h]? with
    | some ⟨uri,seq,_,true⟩ => some { s with watches := s.watches.set h ⟨uri,seq,.over,true⟩ }
    | _ => none
  | .write =>
    match s.channel with
    | line :: rest => some { s with channel := rest, stdout := s.stdout ++ [line] }
    | [] => none

end Server

end steps

/-! What is due, and what was answered. -/

/-- The identifier that a response is due under. -/
def Request.due (r : Request V) : Option V := if r.method = "initialized" then none else r.id

def Task.owed (t : Task V) : Option V :=
  match t.stage with
  | .dispatching => t.request.due
  | .replying _ => t.request.id

def Line.answers : Line V → Option V
  | .response r => r.id
  | .updated _ => none

namespace Server

/-- All lines for the client so far, written or still in the channel. -/
def lines (s : Server V) : List (Line V) := s.stdout ++ s.channel

/-- What was answered, and what is to be. -/
def accounted (s : Server V) : List V :=
  s.lines.filterMap Line.answers ++ s.tasks.filterMap Task.owed

/-- A response has the identifier of its request, and one without an identifier tells of a line that
could not be read. -/
structure Answering (s : Server V) : Prop where
  tasks : ∀ task ∈ s.tasks, ∀ r, task.stage = .replying r → r.id = task.request.id
  lines : ∀ r, .response r ∈ s.lines → r.id = none →
    ∃ e : RpcError, r.outcome = .error e ∧ e.code = -32700

end Server

section answers

variable {J : Json V} {s t : Server V} {r : Request V} {answer : Except Failure V}

namespace Server

@[simp] theorem tasks_subscribe (s : Server V) (uri : String) :
    (s.subscribe uri).tasks = s.tasks := by
  unfold subscribe
  split <;> rfl

@[simp] theorem lines_subscribe (s : Server V) (uri : String) :
    (s.subscribe uri).lines = s.lines := by
  unfold subscribe
  split <;> rfl

@[simp] theorem tasks_unsubscribe (s : Server V) (uri : String) :
    (s.unsubscribe uri).tasks = s.tasks := by
  unfold unsubscribe
  split <;> rfl

@[simp] theorem lines_unsubscribe (s : Server V) (uri : String) :
    (s.unsubscribe uri).lines = s.lines := by
  unfold unsubscribe
  split <;> rfl

theorem send_eq_some {line : Line V} (h : s.send line = some t) :
    t = { s with channel := s.channel ++ [line] } := by
  rw [send,Option.ite_none_right_eq_some,Option.some.injEq] at h
  exact h.2.symm

end Server

/-- What a dispatch does to the server. -/
theorem dispatch_cases (J : Json V) (s : Server V) (r : Request V) (answer : Except Failure V) :
    (dispatch J s r answer).1 = s ∨ ∃ uri, J.asStr r.params "uri" = some uri ∧
      (r.method = "resources/subscribe" ∧ (dispatch J s r answer).1 = s.subscribe uri ∨
        r.method = "resources/unsubscribe" ∧ (dispatch J s r answer).1 = s.unsubscribe uri) := by
  unfold dispatch
  split
  · exact .inl rfl
  · exact .inl rfl
  · exact .inl rfl
  · split <;> exact .inl rfl
  · rename_i hmethod
    split
    · exact .inl rfl
    · rename_i uri huri
      exact .inr ⟨uri,huri,.inl ⟨hmethod,rfl⟩⟩
  · rename_i hmethod
    split
    · exact .inl rfl
    · rename_i uri huri
      exact .inr ⟨uri,huri,.inr ⟨hmethod,rfl⟩⟩
  · exact .inl rfl
  · split
    · exact .inl rfl
    · split <;> exact .inl rfl
  · exact .inl rfl

theorem tasks_dispatch (J : Json V) (s : Server V) (r : Request V) (answer : Except Failure V) :
    (dispatch J s r answer).1.tasks = s.tasks := by
  obtain heq | ⟨uri,-,⟨-,heq⟩ | ⟨-,heq⟩⟩ := dispatch_cases J s r answer <;> simp [heq]

theorem lines_dispatch (J : Json V) (s : Server V) (r : Request V) (answer : Except Failure V) :
    (dispatch J s r answer).1.lines = s.lines := by
  obtain heq | ⟨uri,-,⟨-,heq⟩ | ⟨-,heq⟩⟩ := dispatch_cases J s r answer <;> simp [heq]

/-- Only `initialized` is not answered. -/
theorem dispatch_result (J : Json V) (s : Server V) (r : Request V) (answer : Except Failure V) :
    r.method = "initialized" ∧ (dispatch J s r answer).2 = .ok none ∨
      r.method ≠ "initialized" ∧ (dispatch J s r answer).2 ≠ .ok none := by
  have hmap : answer.map some ≠ .ok none := by cases answer <;> simp [Except.map]
  unfold dispatch
  split
  · rename_i hmethod
    exact .inr ⟨by simp [hmethod],by simp⟩
  · rename_i hmethod
    exact .inl ⟨hmethod,rfl⟩
  · rename_i hmethod
    exact .inr ⟨by simp [hmethod],hmap⟩
  · rename_i hmethod
    refine .inr ⟨by simp [hmethod],?_⟩
    split
    · simp
    · exact hmap
  · rename_i hmethod
    refine .inr ⟨by simp [hmethod],?_⟩
    split <;> simp
  · rename_i hmethod
    refine .inr ⟨by simp [hmethod],?_⟩
    split <;> simp
  · rename_i hmethod
    exact .inr ⟨by simp [hmethod],by simp⟩
  · rename_i hmethod
    refine .inr ⟨by simp [hmethod],?_⟩
    split
    · simp
    · split
      · exact hmap
      · simp
  · exact .inr ⟨by assumption,by simp⟩

theorem handle_eq_none {id : Option V} {result : Except Failure (Option V)} :
    handle id result = none ↔ result = .ok none := by
  rcases result with (e | e) | (_ | val) <;> simp [handle]

theorem id_of_handle {id : Option V} {result : Except Failure (Option V)} {response : Response V}
    (h : handle id result = some response) : response.id = id := by
  rcases result with (e | e) | (_ | val) <;>
    simp only [handle,Option.some.injEq,reduceCtorEq] at h <;> rw [← h] <;> rfl

end answers

section accounts

variable {α β : Type} {f : α → Option β} {l : List α} {i : Nat} {a : α}

theorem filterMap_eraseIdx (h : l[i]? = some a) :
    (l.filterMap f).Perm ((f a).toList ++ (l.eraseIdx i).filterMap f) := by
  obtain ⟨hi,rfl⟩ := List.getElem?_eq_some_iff.mp h
  have hperm := (List.getElem_cons_eraseIdx_perm hi).symm.filterMap f
  rw [List.filterMap_cons] at hperm
  cases hf : f l[i] with
  | none => simpa [hf] using hperm
  | some b => simpa [hf] using hperm

theorem filterMap_set (h : l[i]? = some a) {b : α} (hb : f b = f a) :
    ((l.set i b).filterMap f).Perm (l.filterMap f) := by
  obtain ⟨hi,-⟩ := List.getElem?_eq_some_iff.mp h
  have hperm := (List.set_perm_cons_eraseIdx hi b).filterMap f
  have hold := filterMap_eraseIdx (f := f) h
  rw [List.filterMap_cons,hb] at hperm
  refine hperm.trans (List.Perm.trans ?_ hold.symm)
  cases f a <;> simp

end accounts

section runs

variable (J : Json V)

/-- The identifiers under which an answer is due to a line. -/
def asked : ServerOp V → List V
  | .readLine line =>
    if trim line = [] then []
    else
      match J.fromStr (trim line) with
      | .ok r => r.due.toList
      | .error _ => []
  | _ => []

variable {J} {s t : Server V} {op : ServerOp V}

namespace Server

/-- What each step does, and when. -/
inductive Moves (J : Json V) (s : Server V) : ServerOp V → Server V → Prop where
  | blank (line : Text) (hline : trim line = []) : Moves J s (.readLine line) s
  | request (line : Text) (r : Request V) (hline : trim line ≠ [])
      (hr : J.fromStr (trim line) = .ok r) :
      Moves J s (.readLine line) { s with tasks := s.tasks ++ [⟨r,.dispatching⟩] }
  | malformed (line : Text) (e : String) (hline : trim line ≠ [])
      (he : J.fromStr (trim line) = .error e) :
      Moves J s (.readLine line)
        { s with channel := s.channel ++ [.response (.err none (-32700) s!"parse error: {e}")] }
  | dispatched (i : Nat) (answer : Except Failure V) (request : Request V) (r : Response V)
      (hi : s.tasks[i]? = some ⟨request,.dispatching⟩)
      (hr : handle request.id (dispatch J s request answer).2 = some r) :
      Moves J s (.dispatch i answer)
        { (dispatch J s request answer).1 with tasks := s.tasks.set i ⟨request,.replying r⟩ }
  | silent (i : Nat) (answer : Except Failure V) (request : Request V)
      (hi : s.tasks[i]? = some ⟨request,.dispatching⟩)
      (hr : handle request.id (dispatch J s request answer).2 = none) :
      Moves J s (.dispatch i answer)
        { (dispatch J s request answer).1 with tasks := s.tasks.eraseIdx i }
  | replied (i : Nat) (request : Request V) (r : Response V)
      (hi : s.tasks[i]? = some ⟨request,.replying r⟩) (hid : request.id.isSome) :
      Moves J s (.reply i)
        { s with tasks := s.tasks.eraseIdx i, channel := s.channel ++ [.response r] }
  | dropped (i : Nat) (request : Request V) (r : Response V)
      (hi : s.tasks[i]? = some ⟨request,.replying r⟩) (hid : request.id = none) :
      Moves J s (.reply i) { s with tasks := s.tasks.eraseIdx i }
  | polled (h : Nat) (events : List Nat) (w : Watch) (last : Nat) (hw : s.watches[h]? = some w)
      (hstage : w.stage = .polling) (hlast : events.getLast? = some last) :
      Moves J s (.poll h events)
        { s with watches := s.watches.set h { w with seq := last, stage := .notifying } }
  | waited (h : Nat) (events : List Nat) (w : Watch) (hw : s.watches[h]? = some w)
      (hstage : w.stage = .polling) (hlast : events.getLast? = none) :
      Moves J s (.poll h events) { s with watches := s.watches.set h w.goOn }
  | notified (h : Nat) (w : Watch) (hw : s.watches[h]? = some w) (hstage : w.stage = .notifying) :
      Moves J s (.notify h)
        { s with watches := s.watches.set h w.goOn, channel := s.channel ++ [.updated w.uri] }
  | cancelled (h : Nat) (w : Watch) (hw : s.watches[h]? = some w) (haborted : w.aborted = true) :
      Moves J s (.cancel h) { s with watches := s.watches.set h { w with stage := .over } }
  | written (line : Line V) (rest : List (Line V)) (hchannel : s.channel = line :: rest) :
      Moves J s .write { s with channel := rest, stdout := s.stdout ++ [line] }

theorem step_moves (hstep : s.step J op = some t) : Moves J s op t := by
  cases op with
  | readLine line =>
    simp only [step,readLine] at hstep
    split at hstep
    · rename_i hline
      obtain rfl := Option.some.inj hstep
      exact .blank line hline
    · rename_i hline
      split at hstep
      · rename_i r hr
        obtain rfl := Option.some.inj hstep
        exact .request line r hline hr
      · rename_i e he
        obtain rfl := send_eq_some hstep
        exact .malformed line e hline he
  | dispatch i answer =>
    simp only [step] at hstep
    split at hstep
    · rename_i request hi
      have htasks := tasks_dispatch J s request answer
      split at hstep
      · rename_i r hr
        obtain rfl := Option.some.inj hstep
        rw [htasks]
        exact .dispatched i answer request r hi hr
      · rename_i hr
        obtain rfl := Option.some.inj hstep
        rw [finishTask,htasks]
        exact .silent i answer request hi hr
    · cases hstep
  | reply i =>
    simp only [step] at hstep
    split at hstep
    · rename_i request r hi
      split at hstep
      · rename_i hid
        obtain rfl := send_eq_some hstep
        exact .replied i request r hi hid
      · rename_i hid
        obtain rfl := Option.some.inj hstep
        exact .dropped i request r hi (by simpa using hid)
    · cases hstep
  | poll h events =>
    simp only [step] at hstep
    split at hstep
    · rename_i uri seq aborted hw
      split at hstep
      · rename_i last hlast
        obtain rfl := Option.some.inj hstep
        exact .polled h events _ last hw rfl hlast
      · rename_i hlast
        obtain rfl := Option.some.inj hstep
        exact .waited h events _ hw rfl hlast
    · cases hstep
  | notify h =>
    simp only [step] at hstep
    split at hstep
    · rename_i uri seq aborted hw
      obtain rfl := send_eq_some hstep
      exact .notified h _ hw rfl
    · cases hstep
  | cancel h =>
    simp only [step] at hstep
    split at hstep
    · rename_i uri seq stage hw
      obtain rfl := Option.some.inj hstep
      exact .cancelled h _ hw rfl
    · cases hstep
  | write =>
    simp only [step] at hstep
    split at hstep
    · rename_i line rest hchannel
      obtain rfl := Option.some.inj hstep
      exact .written line rest hchannel
    · cases hstep

/-! Every identifier is answered once. -/

theorem accounted_eq (htasks : t.tasks = s.tasks)
    (hlines : t.lines.filterMap Line.answers = s.lines.filterMap Line.answers) :
    t.accounted = s.accounted := by
  rw [accounted,accounted,htasks,hlines]

theorem accounted_perm (h : s.Answering) (hstep : s.step J op = some t) :
    t.accounted.Perm (s.accounted ++ asked J op) := by
  cases step_moves hstep with
  | blank line hline => simp [asked,hline]
  | request line r hline hr =>
    simp only [asked,hline,hr,if_false,accounted,List.filterMap_append,List.append_assoc]
    refine (List.Perm.refl _).append ((List.Perm.refl _).append ?_)
    cases hdue : r.due <;> simp [Task.owed,hdue]
  | malformed line e hline he =>
    simp only [asked,hline,he,if_false,List.append_nil]
    exact .of_eq (accounted_eq rfl (by simp [lines,Line.answers,Response.err]))
  | dispatched i answer request r hi hr =>
    -- the task owes the same before and after the dispatch
    have hdue : request.due = request.id := by
      obtain ⟨-,hnone⟩ | ⟨hmethod,-⟩ := dispatch_result J s request answer
      · rw [handle_eq_none.mpr hnone] at hr
        cases hr
      · rw [Request.due,if_neg hmethod]
    have hlines := lines_dispatch J s request answer
    simp only [asked,List.append_nil,accounted]
    refine List.Perm.append (.of_eq ?_) (filterMap_set hi hdue.symm)
    exact congrArg (List.filterMap Line.answers) hlines
  | silent i answer request hi hr =>
    have hdue : request.due = none := by
      obtain ⟨hmethod,-⟩ | ⟨-,hsome⟩ := dispatch_result J s request answer
      · rw [Request.due,if_pos hmethod]
      · exact absurd (handle_eq_none.mp hr) hsome
    have hlines := lines_dispatch J s request answer
    have hperm := filterMap_eraseIdx (f := Task.owed) hi
    simp only [Task.owed,hdue,Option.toList_none,List.nil_append] at hperm
    simp only [asked,List.append_nil,accounted]
    refine List.Perm.append (.of_eq ?_) hperm.symm
    exact congrArg (List.filterMap Line.answers) hlines
  | replied i request r hi hid =>
    have hr := h.tasks _ (List.mem_of_getElem? hi) r rfl
    obtain ⟨id,hid⟩ := Option.isSome_iff_exists.mp hid
    have hperm := filterMap_eraseIdx (f := Task.owed) hi
    simp only [Task.owed,hid,Option.toList_some,List.singleton_append] at hperm
    simp only [asked,List.append_nil,accounted,lines,← List.append_assoc,List.filterMap_append]
    simp only [List.filterMap_cons,Line.answers,hr,hid,List.filterMap_nil,List.append_assoc]
    refine (List.Perm.refl _).append ((List.Perm.refl _).append ?_)
    exact hperm.symm
  | dropped i request r hi hid =>
    have hperm := filterMap_eraseIdx (f := Task.owed) hi
    simp only [Task.owed,hid,Option.toList_none,List.nil_append] at hperm
    simp only [asked,List.append_nil,accounted]
    exact (List.Perm.refl _).append hperm.symm
  | polled w events watch last hw hstage hlast => simp [asked,accounted,lines]
  | waited w events watch hw hstage hlast => simp [asked,accounted,lines]
  | notified w watch hw hstage =>
    simp only [asked,List.append_nil]
    exact .of_eq (accounted_eq rfl (by simp [lines,Line.answers]))
  | cancelled w watch hw haborted => simp [asked,accounted,lines]
  | written line rest hchannel =>
    simp only [asked,List.append_nil]
    exact .of_eq (accounted_eq rfl (by simp [lines,hchannel]))

theorem answering_start : (start : Server V).Answering where
  tasks task h := by simp [start] at h
  lines r h := by simp [start,lines] at h

theorem answering_step (h : s.Answering) (hstep : s.step J op = some t) : t.Answering := by
  have hframe : ∀ u : Server V, u.lines = s.lines → (∀ task ∈ u.tasks, task ∈ s.tasks) →
      u.Answering := fun u hlines htasks =>
    ⟨fun task hmem => h.tasks task (htasks task hmem),fun r hmem => h.lines r (hlines ▸ hmem)⟩
  cases step_moves hstep with
  | blank line hline => exact h
  | request line r hline hr =>
    refine ⟨fun task hmem => ?_,h.lines⟩
    rcases List.mem_append.mp hmem with hmem | hmem
    · exact h.tasks task hmem
    · obtain rfl := List.mem_singleton.mp hmem
      intro r hr
      cases hr
  | malformed line e hline he =>
    refine ⟨h.tasks,fun r hmem hid => ?_⟩
    simp only [lines,← List.append_assoc] at hmem
    rcases List.mem_append.mp hmem with hmem | hmem
    · exact h.lines r hmem hid
    · obtain rfl := Line.response.inj (List.mem_singleton.mp hmem)
      exact ⟨_,rfl,rfl⟩
  | dispatched i answer request r hi hr =>
    have hlines := lines_dispatch J s request answer
    refine ⟨fun task hmem => ?_,fun r hmem => h.lines r (hlines ▸ hmem)⟩
    rcases List.mem_or_eq_of_mem_set hmem with hmem | rfl
    · exact h.tasks task hmem
    · intro r' hr'
      obtain rfl := Stage.replying.inj hr'
      exact id_of_handle hr
  | silent i answer request hi hr =>
    exact hframe _ (lines_dispatch J s request answer) fun task => List.mem_of_mem_eraseIdx
  | replied i request r hi hid =>
    have hr := h.tasks _ (List.mem_of_getElem? hi) r rfl
    refine ⟨fun task hmem => h.tasks task (List.mem_of_mem_eraseIdx hmem),fun r' hmem hnone => ?_⟩
    simp only [lines,← List.append_assoc] at hmem
    rcases List.mem_append.mp hmem with hmem | hmem
    · exact h.lines r' hmem hnone
    · obtain rfl := Line.response.inj (List.mem_singleton.mp hmem)
      rw [← hr,hnone] at hid
      cases hid
  | dropped i request r hi hid => exact hframe _ rfl fun task => List.mem_of_mem_eraseIdx
  | polled w events watch last hw hstage hlast => exact hframe _ rfl fun task => id
  | waited w events watch hw hstage hlast => exact hframe _ rfl fun task => id
  | notified w watch hw hstage =>
    refine ⟨h.tasks,fun r hmem => ?_⟩
    simp only [lines,← List.append_assoc] at hmem
    rcases List.mem_append.mp hmem with hmem | hmem
    · exact h.lines r hmem
    · cases List.mem_singleton.mp hmem
  | cancelled w watch hw haborted => exact hframe _ rfl fun task => id
  | written line rest hchannel => exact hframe _ (by simp [lines,hchannel]) fun task => id

/-! No task is stuck: the channel can be emptied, and then a task can go on. -/

theorem exec_drain (J : Json V) (s : Server V) : ∃ ops t, exec (step J) s ops = some t ∧
    t.tasks = s.tasks ∧ t.channel = [] ∧ ops.flatMap (asked J) = [] := by
  obtain ⟨tasks,subscriptions,watches,channel,stdout⟩ := s
  induction channel generalizing stdout with
  | nil => exact ⟨[],_,rfl,rfl,rfl,rfl⟩
  | cons line rest ih =>
    obtain ⟨ops,t,hrun,htasks,hchannel,hasked⟩ := ih (stdout ++ [line])
    refine ⟨.write :: ops,t,?_,htasks,hchannel,by simpa [asked] using hasked⟩
    rw [exec_cons]
    exact hrun

theorem exec_finish (J : Json V) (s : Server V) : ∃ ops t, exec (step J) s ops = some t ∧
    t.tasks = [] ∧ ops.flatMap (asked J) = [] := by
  obtain ⟨n,hn⟩ : ∃ n, s.tasks.length = n := ⟨_,rfl⟩
  induction n generalizing s with
  | zero => exact ⟨[],s,rfl,List.length_eq_zero_iff.mp hn,rfl⟩
  | succ n ih =>
    -- a response goes out through the empty channel
    have hreply : ∀ s : Server V, s.tasks.length = n+1 →
        (∃ request r, s.tasks[0]? = some ⟨request,.replying r⟩) →
        ∃ ops t, exec (step J) s ops = some t ∧ t.tasks = [] ∧ ops.flatMap (asked J) = [] := by
      rintro s hn ⟨request,r,h0⟩
      obtain ⟨ops,t,hrun,htasks,hchannel,hasked⟩ := exec_drain J s
      have hstep : ∃ u, t.step J (.reply 0) = some u ∧ u.tasks = s.tasks.eraseIdx 0 := by
        simp only [step,htasks,h0]
        split
        · refine ⟨_,if_pos ?_,?_⟩
          · simp [finishTask,hchannel,channelCap]
          · simp [finishTask,htasks]
        · exact ⟨_,rfl,by simp [finishTask,htasks]⟩
      obtain ⟨u,hu,huTasks⟩ := hstep
      obtain ⟨ops',v,hrun',hv,hasked'⟩ := ih u (by
        rw [huTasks,List.length_eraseIdx_of_lt (by omega),hn]
        rfl)
      refine ⟨ops ++ .reply 0 :: ops',v,?_,hv,by simp [hasked,hasked',asked]⟩
      rw [exec_append,hrun,Option.bind_some,exec_cons,hu,Option.bind_some,hrun']
    obtain ⟨⟨request,stage⟩,h0⟩ : ∃ task, s.tasks[0]? = some task :=
      ⟨_,List.getElem?_eq_getElem (by omega)⟩
    cases stage with
    | replying r => exact hreply s hn ⟨request,r,h0⟩
    | dispatching =>
      have htasks := tasks_dispatch J s request (.error (.plain ""))
      cases hr : handle request.id (dispatch J s request (.error (.plain ""))).2 with
      | some r =>
        obtain ⟨ops,t,hrun,ht,hasked⟩ := hreply
          { (dispatch J s request (.error (.plain ""))).1 with
            tasks := s.tasks.set 0 ⟨request,.replying r⟩ } (by simpa using hn)
          ⟨request,r,by simp [show 0 < s.tasks.length by omega]⟩
        refine ⟨.dispatch 0 (.error (.plain "")) :: ops,t,?_,ht,by simpa [asked] using hasked⟩
        simp only [exec_cons,step,h0,hr,htasks,Option.bind_some]
        exact hrun
      | none =>
        obtain ⟨ops,t,hrun,ht,hasked⟩ := ih
          { (dispatch J s request (.error (.plain ""))).1 with tasks := s.tasks.eraseIdx 0 } (by
            rw [List.length_eraseIdx_of_lt (by omega),hn]
            rfl)
        refine ⟨.dispatch 0 (.error (.plain "")) :: ops,t,?_,ht,by simpa [asked] using hasked⟩
        simp only [exec_cons,step,h0,hr,finishTask,htasks,Option.bind_some]
        exact hrun

end Server

end runs

/-- A client that subscribes and unsubscribes; each value stands for itself as a text. -/
def textJson : Json String where
  fromStr
    | ['s'] => .ok ⟨some "1","resources/subscribe","state://panes"⟩
    | ['u'] => .ok ⟨some "2","resources/unsubscribe","state://panes"⟩
    | _ => .error "expected value"
  asStr v _ := some v
  empty := ""
  handleInitialize := ""
  handleToolsList := ""

def subscribing : List (ServerOp String) := [.readLine ['s'],.dispatch 0 (.ok ""),.reply 0]

end Pyre.Mcp
