import Pyre.Base.Run
import Pyre.Proto

/-!
The bus of pane events: emitters that number, store and broadcast an event in
three steps, and a client that polls `next_pane_event` with the number of the last
event it got. The bus of the supervisor and that of a daemon of its own are the same.
-/

set_option autoImplicit false

namespace Pyre.Events
open Base

inductive PaneEventKind where
  | spawned
  | stateChanged
  | closed
  | layoutChanged
  deriving DecidableEq, Repr

inductive PaneStateKind where
  | running
  | waitingInput
  | idle
  | interactive
  | crashed
  | done
  deriving DecidableEq, Repr

inductive AgentKind where
  | unknown
  | shell
  | claudeCode
  | codex
  | pi
  | openCode
  | cursorAgent
  | droid
  | amp
  deriving DecidableEq, Repr

structure PaneEvent where
  seq : Nat
  pane : PaneId
  kind : PaneEventKind
  state : Option PaneStateKind
  agent : Option AgentKind
  deriving DecidableEq, Repr

def eventRingCap : Nat := 256

/-- The bus and its emitters: `taken` have a number and are still to be stored,
`stored` are still to be broadcast. `sent` is all that was broadcast, of which a
receiver holds a position. `issued` and `published` log the events numbered and stored. -/
structure PaneEventBus where
  seq : Nat
  ring : List PaneEvent
  sent : List PaneEvent
  taken : List PaneEvent
  stored : List PaneEvent
  issued : List PaneEvent
  published : List PaneEvent
  deriving DecidableEq, Repr

/-- Where a call of `next_pane_event` stands; `rx` is the position of its receiver. -/
inductive Poll where
  | idle
  | subscribed (rx : Nat)
  | waiting (rx : Nat)
  | resubscribed (rx : Nat)
  | coalescing (rx : Nat) (collected : List PaneEvent)
  deriving DecidableEq, Repr

/-- `seen` counts the events stored when the client last read the ring. -/
structure Client where
  cursor : Nat
  poll : Poll
  delivered : List PaneEvent
  seen : Nat
  deriving DecidableEq, Repr

structure System where
  bus : PaneEventBus
  client : Client
  deriving DecidableEq, Repr

namespace PaneEventBus

def empty : PaneEventBus := ⟨0,[],[],[],[],[],[]⟩

def pushRing (ring : List PaneEvent) (e : PaneEvent) : List PaneEvent :=
  (if eventRingCap ≤ ring.length then ring.tail else ring) ++ [e]

def take (bus : PaneEventBus) (pane : PaneId) (kind : PaneEventKind)
    (state : Option PaneStateKind) (agent : Option AgentKind) : PaneEventBus :=
  let e : PaneEvent := ⟨bus.seq+1,pane,kind,state,agent⟩
  { bus with seq := bus.seq+1, taken := bus.taken ++ [e], issued := bus.issued ++ [e] }

def push (bus : PaneEventBus) (e : PaneEvent) : PaneEventBus :=
  { bus with
    ring := pushRing bus.ring e
    taken := bus.taken.erase e
    stored := bus.stored ++ [e]
    published := bus.published ++ [e] }

def broadcast (bus : PaneEventBus) (e : PaneEvent) : PaneEventBus :=
  { bus with stored := bus.stored.erase e, sent := bus.sent ++ [e] }

def history (bus : PaneEventBus) (afterSeq : Nat) : List PaneEvent :=
  bus.ring.filter fun e => afterSeq < e.seq

/-- A receiver that is more than the capacity behind gets `Lagged`. -/
def lagged (bus : PaneEventBus) (rx : Nat) : Bool := eventRingCap < bus.sent.length - rx

end PaneEventBus

/-- The reply reaches the client, which moves its cursor to the last event of it. -/
def Client.reply (c : Client) (events : List PaneEvent) : Client :=
  { c with
    cursor := (events.getLast?.map PaneEvent.seq).getD c.cursor
    poll := .idle
    delivered := c.delivered ++ events }

inductive Action where
  | take (pane : PaneId) (kind : PaneEventKind) (state : Option PaneStateKind)
    (agent : Option AgentKind)
  | push (e : PaneEvent)
  | broadcast (e : PaneEvent)
  | poll
  | read
  | recv
  | reread
  | timeout
  | coalesce
  | finish
  deriving DecidableEq, Repr

namespace System

def start (cursor : Nat) : System := ⟨.empty,⟨cursor,.idle,[],0⟩⟩

/-- One step of an emitter or of the poll. -/
def step (s : System) : Action → Option System
  | .take pane kind state agent => some { s with bus := s.bus.take pane kind state agent }
  | .push e => if e ∈ s.bus.taken then some { s with bus := s.bus.push e } else none
  | .broadcast e => if e ∈ s.bus.stored then some { s with bus := s.bus.broadcast e } else none
  | .poll =>
    match s.client.poll with
    | .idle => some { s with client := { s.client with poll := .subscribed s.bus.sent.length } }
    | _ => none
  | .read =>
    match s.client.poll with
    | .subscribed rx =>
      let c := { s.client with seen := s.bus.published.length }
      let history := s.bus.history c.cursor
      if history ≠ [] then some { s with client := c.reply history }
      else some { s with client := { c with poll := .waiting rx } }
    | _ => none
  | .recv =>
    match s.client.poll with
    | .waiting rx =>
      if s.bus.lagged rx then
        some { s with client := { s.client with poll := .resubscribed s.bus.sent.length } }
      else
        s.bus.sent[rx]?.map fun e =>
          if s.client.cursor < e.seq then
            { s with client := { s.client with poll := .coalescing (rx+1) [e] } }
          else { s with client := { s.client with poll := .waiting (rx+1) } }
    | _ => none
  | .reread =>
    match s.client.poll with
    | .resubscribed rx =>
      let c := { s.client with seen := s.bus.published.length }
      let missed := s.bus.history c.cursor
      if missed ≠ [] then some { s with client := { c with poll := .coalescing rx missed } }
      else some { s with client := { c with poll := .waiting rx } }
    | _ => none
  | .timeout =>
    match s.client.poll with
    | .waiting _ => some { s with client := s.client.reply [] }
    | _ => none
  | .coalesce =>
    match s.client.poll with
    | .coalescing rx collected =>
      if s.bus.lagged rx then some { s with client := s.client.reply collected }
      else
        s.bus.sent[rx]?.map fun e =>
          if s.client.cursor < e.seq then
            { s with client := { s.client with poll := .coalescing (rx+1) (collected ++ [e]) } }
          else { s with client := s.client.reply collected }
    | _ => none
  | .finish =>
    match s.client.poll with
    | .coalescing _ collected => some { s with client := s.client.reply collected }
    | _ => none

end System

end Pyre.Events
