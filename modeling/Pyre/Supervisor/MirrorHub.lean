import Pyre.Base.Run
import Pyre.Base.Table
import Pyre.Proto

/-!
The mirror hubs of the supervisor: `proxy_stream_to_worker`, one frame for each client, and
the task of each hub that reads from the worker. A hub is looked up, made and entered in the
registry in steps of their own, and taken out of it by the id of its pane.
-/

set_option autoImplicit false

namespace Pyre.Supervisor
open Base

/-- A hub is made, entered in the registry, read for by its task until the worker's
connection ends, and taken out of the registry as the last thing the task does. -/
inductive HubPhase where
  | made
  | listed
  | running
  | removing
  | ended
  deriving DecidableEq, Repr

/-- `maker` is the client that has connected to the worker for it. `draining` tells whether
the task still runs that writes the input of all clients to the worker. -/
structure PaneMirrorHub where
  pane : PaneId
  maker : Nat
  phase : HubPhase
  draining : Bool
  deriving DecidableEq, Repr

/-- Where the frame of a client stands. `serving` has its two tasks: of the output task, while
it runs, how many chunks wait in its receiver, and whether the input task runs. -/
inductive FramePhase where
  | getting
  | connecting
  | inserting (hub : Nat)
  | starting (hub : Nat)
  | holding (hub : Nat)
  | serving (hub : Nat) (output : Option Nat) (input : Bool)
  | gone
  deriving DecidableEq, Repr

structure ClientFrame where
  pane : PaneId
  phase : FramePhase
  deriving DecidableEq, Repr

/-- Hubs and clients have numbers of their own, `registry` is the `PaneMirrorRegistry`. -/
structure MirrorHubs where
  registry : Table PaneId Nat
  hubs : Table Nat PaneMirrorHub
  clients : Table Nat ClientFrame

/-- `frame` is output of the worker, `close` the end of its connection. `writeFails` is the
client's end gone when the output task writes to it, `hangUp` when the input task reads. -/
inductive MirrorStep where
  | attach (client : Nat) (pane : PaneId)
  | get (client : Nat)
  | connect (client hub : Nat) (ok : Bool)
  | insert (client : Nat)
  | start (client : Nat)
  | subscribe (client : Nat) (sent : Bool)
  | frame (hub : Nat)
  | close (hub : Nat)
  | remove (hub : Nat)
  | drainerEnds (hub : Nat)
  | recv (client : Nat)
  | writeFails (client : Nat)
  | closed (client : Nat)
  | hangUp (client : Nat)
  | inputFails (client : Nat)
  | leave (client : Nat)
  deriving DecidableEq, Repr

/-- The capacity of the output channel of a hub. -/
def hubChannelCap : Nat := 256

/-- The hub that the frame holds: an `Arc` of it, the sender of its output channel inside. -/
def FramePhase.hub : FramePhase → Option Nat
  | .inserting h | .starting h | .holding h | .serving h _ _ => some h
  | .getting | .connecting | .gone => none

namespace MirrorHubs

def start : MirrorHubs := ⟨∅,∅,∅⟩

def setClient (s : MirrorHubs) (i : Nat) (c : ClientFrame) (phase : FramePhase) : MirrorHubs :=
  { s with clients := s.clients.insert i { c with phase := phase } }

def setHub (s : MirrorHubs) (h : Nat) (x : PaneMirrorHub) : MirrorHubs :=
  { s with hubs := s.hubs.insert h x }

/-- A chunk for each receiver of the hub; a receiver that lags loses its oldest one. -/
def deliver (h : Nat) (c : ClientFrame) : ClientFrame :=
  match c.phase with
  | .serving h' (some n) input =>
    if h' = h then { c with phase := .serving h' (some (min (n+1) hubChannelCap)) input } else c
  | _ => c

/-- Someone has an `Arc` of the hub. -/
def Held (s : MirrorHubs) (h : Nat) : Prop :=
  h ∈ s.registry.values ∨ ∃ c ∈ s.clients.values, c.phase.hub = some h

instance (s : MirrorHubs) (h : Nat) : Decidable (s.Held h) :=
  inferInstanceAs (Decidable (_ ∨ ∃ _ ∈ _, _))

/-- The live senders of the hub's output channel: `out_tx`, which the frame of the maker has
and then the task of the hub, and the one inside the hub. -/
def senders (s : MirrorHubs) (h : Nat) : Nat :=
  (if ∃ x ∈ s.hubs.lookup h, x.phase ≠ .ended then 1 else 0) + if s.Held h then 1 else 0

def stepClient (s : MirrorHubs) (i : Nat) (f : ClientFrame → Option MirrorHubs) :
    Option MirrorHubs := (s.clients.lookup i).bind f

def stepHub (s : MirrorHubs) (h : Nat) (f : PaneMirrorHub → Option MirrorHubs) :
    Option MirrorHubs := (s.hubs.lookup h).bind f

def step (s : MirrorHubs) : MirrorStep → Option MirrorHubs
  | .attach i pane =>
    if s.clients.lookup i = none then
      some { s with clients := s.clients.insert i ⟨pane,.getting⟩ }
    else none
  | .get i => s.stepClient i fun c =>
    match c.phase with
    | .getting =>
      match s.registry.lookup c.pane with
      | some h => some (s.setClient i c (.holding h))
      | none => some (s.setClient i c .connecting)
    | _ => none
  | .connect i h ok => s.stepClient i fun c =>
    if c.phase = .connecting ∧ s.hubs.lookup h = none then
      if ok then
        some ((s.setClient i c (.inserting h)).setHub h ⟨c.pane,i,.made,true⟩)
      else some (s.setClient i c .gone)
    else none
  | .insert i => s.stepClient i fun c =>
    match c.phase with
    | .inserting h => s.stepHub h fun x =>
      some { (s.setClient i c (.starting h)).setHub h { x with phase := .listed } with
        registry := s.registry.insert c.pane h }
    | _ => none
  | .start i => s.stepClient i fun c =>
    match c.phase with
    | .starting h => s.stepHub h fun x =>
      some ((s.setClient i c (.holding h)).setHub h { x with phase := .running })
    | _ => none
  | .subscribe i sent => s.stepClient i fun c =>
    match c.phase with
    | .holding h => some (s.setClient i c (.serving h (if sent then some 0 else none) true))
    | _ => none
  | .frame h => s.stepHub h fun x =>
    if x.phase = .running then some { s with clients := s.clients.mapValues (deliver h) } else none
  | .close h => s.stepHub h fun x =>
    if x.phase = .running then some (s.setHub h { x with phase := .removing }) else none
  | .remove h => s.stepHub h fun x =>
    if x.phase = .removing then
      some { s.setHub h { x with phase := .ended } with registry := s.registry.erase x.pane }
    else none
  | .drainerEnds h => s.stepHub h fun x =>
    if x.draining then some (s.setHub h { x with draining := false }) else none
  | .recv i => s.stepClient i fun c =>
    match c.phase with
    | .serving h (some (n+1)) input => some (s.setClient i c (.serving h (some n) input))
    | _ => none
  | .writeFails i => s.stepClient i fun c =>
    match c.phase with
    | .serving h (some (_+1)) input => some (s.setClient i c (.serving h none input))
    | _ => none
  | .closed i => s.stepClient i fun c =>
    match c.phase with
    | .serving h (some 0) input =>
      if s.senders h = 0 then some (s.setClient i c (.serving h none input)) else none
    | _ => none
  | .hangUp i => s.stepClient i fun c =>
    match c.phase with
    | .serving h output true => some (s.setClient i c (.serving h output false))
    | _ => none
  | .inputFails i => s.stepClient i fun c =>
    match c.phase with
    | .serving h output true => s.stepHub h fun x =>
      if x.draining then none else some (s.setClient i c (.serving h output false))
    | _ => none
  | .leave i => s.stepClient i fun c =>
    match c.phase with
    | .serving _ none false => some (s.setClient i c .gone)
    | _ => none

end MirrorHubs

namespace PaneMirrorHub

/-- Its connection to the worker is open. -/
def Open (x : PaneMirrorHub) : Prop := x.phase = .made ∨ x.phase = .listed ∨ x.phase = .running

/-- Its task has not taken it out of the registry yet. -/
def Alive (x : PaneMirrorHub) : Prop := x.phase ≠ .ended

/-- It has been entered in the registry and not been taken out. -/
def Listed (x : PaneMirrorHub) : Prop :=
  x.phase = .listed ∨ x.phase = .running ∨ x.phase = .removing

instance : DecidablePred Open := fun _ => inferInstanceAs (Decidable (_ ∨ _))

instance : DecidablePred Alive := fun _ => inferInstanceAs (Decidable (_ ≠ _))

theorem Listed.alive {x : PaneMirrorHub} (h : x.Listed) : x.Alive := by
  rcases h with h | h | h <;> simp [Alive,h]

theorem Open.alive {x : PaneMirrorHub} (h : x.Open) : x.Alive := by
  rcases h with h | h | h <;> simp [Alive,h]

theorem Alive.open_or_listed {x : PaneMirrorHub} (h : x.Alive) : x.Open ∨ x.Listed := by
  obtain ⟨pane,maker,phase,draining⟩ := x
  cases phase <;> simp_all [Alive,Open,Listed]

end PaneMirrorHub

namespace MirrorHubs

/-- A pane has at most one hub whose connection is open. -/
def OneOpen (s : MirrorHubs) : Prop :=
  ∀ h h' x y, s.hubs.lookup h = some x → s.hubs.lookup h' = some y → x.pane = y.pane →
    x.Open → y.Open → h = h'

/-- A client subscribes to the hub of its pane that is registered, and a hub that is taken
out of the registry is the one it has there. -/
def InOrder (s : MirrorHubs) : MirrorStep → Prop
  | .subscribe i _ => ∀ c ∈ s.clients.lookup i, ∀ h, c.phase = .holding h →
    s.registry.lookup c.pane = some h
  | .remove h => ∀ x ∈ s.hubs.lookup h, x.phase = .removing →
    ∀ h' ∈ s.registry.lookup x.pane, h' = h
  | _ => True

/-- Between its look at the registry and now no other client has registered or made a hub of
the pane that is still there; and the hub a client subscribes to has not been taken out of
the registry since the client got it. -/
def Undisturbed (s : MirrorHubs) : MirrorStep → Prop
  | .connect i _ ok => ok → ∀ c ∈ s.clients.lookup i, s.registry.lookup c.pane = none ∧
    ∀ e ∈ s.hubs.entries, e.2.pane = c.pane → ¬e.2.Open
  | .subscribe i _ => ∀ c ∈ s.clients.lookup i, ∀ h ∈ c.phase.hub, ∀ x ∈ s.hubs.lookup h, x.Alive
  | _ => True

instance (s : MirrorHubs) : DecidablePred s.Undisturbed
  | .connect _ _ ok => inferInstanceAs (Decidable (ok = true → ∀ _ ∈ _, _ ∧ ∀ _ ∈ _, _ → _))
  | .subscribe _ _ => inferInstanceAs (Decidable (∀ _ ∈ _, ∀ _ ∈ _, ∀ _ ∈ _, _))
  | .attach _ _ | .get _ | .insert _ | .start _ | .frame _ | .close _ | .remove _ | .drainerEnds _
  | .recv _ | .writeFails _ | .closed _ | .hangUp _ | .inputFails _ | .leave _ => isTrue trivial

/-- What is known of the hub that a frame has. -/
def Placed (s : MirrorHubs) (i : Nat) (c : ClientFrame) : Prop :=
  match c.phase with
  | .inserting h => ∃ x, s.hubs.lookup h = some x ∧ x.pane = c.pane ∧ x.maker = i ∧ x.phase = .made
  | .starting h => ∃ x, s.hubs.lookup h = some x ∧ x.pane = c.pane ∧ x.maker = i ∧ x.phase = .listed
  | .holding h | .serving h _ _ =>
    ∃ x, s.hubs.lookup h = some x ∧ x.pane = c.pane ∧ x.phase ≠ .made
  | .getting | .connecting | .gone => True

/-- The registry has the hubs that are listed, and a pane has but one that is alive. -/
structure Inv (s : MirrorHubs) : Prop where
  listed : ∀ pane h, s.registry.lookup pane = some h ↔
    ∃ x, s.hubs.lookup h = some x ∧ x.pane = pane ∧ x.Listed
  alone : ∀ h h' x y, s.hubs.lookup h = some x → s.hubs.lookup h' = some y → x.pane = y.pane →
    x.Alive → y.Alive → h = h'
  placed : ∀ i c, s.clients.lookup i = some c → s.Placed i c

variable {s t : MirrorHubs} {i h : Nat} {c : ClientFrame} {x y : PaneMirrorHub}

theorem inv_start : start.Inv := by
  refine ⟨fun pane h => ⟨fun hl => ?_,?_⟩,fun h h' x y hx => ?_,fun i c hc => ?_⟩
  · cases hl
  · rintro ⟨x,hx,-⟩
    cases hx
  · cases hx
  · cases hc

theorem Inv.oneOpen (hs : s.Inv) : s.OneOpen := fun h h' x y hx hy hpane hxo hyo =>
  hs.alone h h' x y hx hy hpane hxo.alive hyo.alive

/-- Only a frame moves on. -/
theorem Inv.setClient (hs : s.Inv) {phase : FramePhase}
    (hplaced : s.Placed i { c with phase := phase }) :
    (s.setClient i c phase).Inv := by
  refine ⟨hs.listed,hs.alone,fun j d hd => ?_⟩
  rcases Table.lookup_insert_eq_some.mp hd with ⟨rfl,rfl⟩ | ⟨-,hd⟩
  · exact hplaced
  · exact hs.placed j d hd

/-- A hub changes, or moves on where its maker is not busy with it. -/
theorem Placed.setHub (hp : s.Placed i c) (hx : s.hubs.lookup h = some x) (hpane : y.pane = x.pane)
    (hmaker : y.maker = x.maker)
    (hphase : y.phase = x.phase ∨
      y.phase ≠ .made ∧ (x.maker = i → x.phase ≠ .made ∧ x.phase ≠ .listed)) :
    (s.setHub h y).Placed i c := by
  obtain ⟨pane,p⟩ := c
  cases p with
  | inserting k =>
    obtain ⟨z,hz,hzp,hzm,hmade⟩ := hp
    by_cases hk : k = h
    · subst hk
      obtain rfl := Option.some.inj (hx.symm.trans hz)
      rcases hphase with hsame | ⟨-,hbusy⟩
      · exact ⟨y,AList.lookup_insert _,hpane.trans hzp,hmaker.trans hzm,hsame.trans hmade⟩
      · exact absurd hmade (hbusy hzm).1
    · exact ⟨z,(AList.lookup_insert_ne hk).trans hz,hzp,hzm,hmade⟩
  | starting k =>
    obtain ⟨z,hz,hzp,hzm,hlisted⟩ := hp
    by_cases hk : k = h
    · subst hk
      obtain rfl := Option.some.inj (hx.symm.trans hz)
      rcases hphase with hsame | ⟨-,hbusy⟩
      · exact ⟨y,AList.lookup_insert _,hpane.trans hzp,hmaker.trans hzm,hsame.trans hlisted⟩
      · exact absurd hlisted (hbusy hzm).2
    · exact ⟨z,(AList.lookup_insert_ne hk).trans hz,hzp,hzm,hlisted⟩
  | holding k | serving k =>
    obtain ⟨z,hz,hzp,hmade⟩ := hp
    by_cases hk : k = h
    · subst hk
      obtain rfl := Option.some.inj (hx.symm.trans hz)
      refine ⟨y,AList.lookup_insert _,hpane.trans hzp,?_⟩
      rcases hphase with hsame | ⟨hmoved,-⟩
      · rwa [hsame]
      · exact hmoved
    · exact ⟨z,(AList.lookup_insert_ne hk).trans hz,hzp,hmade⟩
  | getting | connecting | gone => trivial

theorem Inv.alone_setHub (hs : s.Inv) (hx : s.hubs.lookup h = some x) (hpane : y.pane = x.pane)
    (halive : x.Alive) {k k' : Nat} {z z' : PaneMirrorHub} (hz : (s.setHub h y).hubs.lookup k = some z)
    (hz' : (s.setHub h y).hubs.lookup k' = some z') (heq : z.pane = z'.pane) (hza : z.Alive)
    (hza' : z'.Alive) : k = k' := by
  rcases Table.lookup_insert_eq_some.mp hz with ⟨rfl,rfl⟩ | ⟨-,hzs⟩
  · rcases Table.lookup_insert_eq_some.mp hz' with ⟨rfl,-⟩ | ⟨-,hzs'⟩
    · rfl
    · exact hs.alone k k' x z' hx hzs' (hpane.symm.trans heq) halive hza'
  · rcases Table.lookup_insert_eq_some.mp hz' with ⟨rfl,rfl⟩ | ⟨-,hzs'⟩
    · exact hs.alone k k' z x hzs hx (heq.trans hpane) hza halive
    · exact hs.alone k k' z z' hzs hzs' heq hza hza'

/-- A hub changes that is registered, and stays so, or that is not. -/
theorem Inv.listed_setHub (hs : s.Inv) (hx : s.hubs.lookup h = some x) (hpane : y.pane = x.pane)
    (hl : y.Listed ↔ x.Listed) (pane : PaneId) (k : Nat) :
    s.registry.lookup pane = some k ↔
      ∃ z, (s.setHub h y).hubs.lookup k = some z ∧ z.pane = pane ∧ z.Listed := by
  rw [hs.listed]
  constructor
  · rintro ⟨z,hz,hzp,hzl⟩
    by_cases hk : k = h
    · subst hk
      obtain rfl := Option.some.inj (hx.symm.trans hz)
      exact ⟨y,AList.lookup_insert _,hpane.trans hzp,hl.mpr hzl⟩
    · exact ⟨z,(AList.lookup_insert_ne hk).trans hz,hzp,hzl⟩
  · rintro ⟨z,hz,hzp,hzl⟩
    rcases Table.lookup_insert_eq_some.mp hz with ⟨rfl,rfl⟩ | ⟨-,hzs⟩
    · exact ⟨x,hx,hpane.symm.trans hzp,hl.mp hzl⟩
    · exact ⟨z,hzs,hzp,hzl⟩

/-- A hub changes by itself. -/
theorem Inv.setHub (hs : s.Inv) (hx : s.hubs.lookup h = some x) (hpane : y.pane = x.pane)
    (hmaker : y.maker = x.maker) (hl : y.Listed ↔ x.Listed) (halive : y.Alive → x.Alive)
    (hphase : y.phase = x.phase ∨ y.phase ≠ .made ∧ x.phase ≠ .made ∧ x.phase ≠ .listed) :
    (s.setHub h y).Inv := by
  refine ⟨hs.listed_setHub hx hpane hl,fun k k' z z' hz hz' heq hza hza' => ?_,fun j d hd => ?_⟩
  · by_cases hxa : x.Alive
    · exact hs.alone_setHub hx hpane hxa hz hz' heq hza hza'
    · rcases Table.lookup_insert_eq_some.mp hz with ⟨rfl,rfl⟩ | ⟨-,hzs⟩
      · exact absurd (halive hza) hxa
      · rcases Table.lookup_insert_eq_some.mp hz' with ⟨rfl,rfl⟩ | ⟨-,hzs'⟩
        · exact absurd (halive hza') hxa
        · exact hs.alone k k' z z' hzs hzs' heq hza hza'
  · exact (hs.placed j d hd).setHub hx hpane hmaker (hphase.imp_right fun h => ⟨h.1,fun _ => h.2⟩)

theorem inv_get (hs : s.Inv) :
    (∀ k, s.registry.lookup c.pane = some k → (s.setClient i c (.holding k)).Inv) ∧
      (s.setClient i c .connecting).Inv := by
  refine ⟨fun k hk => hs.setClient ?_,hs.setClient trivial⟩
  obtain ⟨x,hx,hpane,hl⟩ := (hs.listed c.pane k).mp hk
  exact ⟨x,hx,hpane,fun hmade => by simp [PaneMirrorHub.Listed,hmade] at hl⟩

/-- A client makes a hub where none is alive. -/
theorem inv_connect (hs : s.Inv) (hc : s.clients.lookup i = some c) (hfresh : s.hubs.lookup h = none)
    (hnone : s.registry.lookup c.pane = none)
    (hclosed : ∀ k x, s.hubs.lookup k = some x → x.pane = c.pane → ¬x.Open) :
    ((s.setClient i c (.inserting h)).setHub h ⟨c.pane,i,.made,true⟩).Inv := by
  have hdead : ∀ k x, s.hubs.lookup k = some x → x.pane = c.pane → ¬x.Alive := by
    intro k x hx hpane halive
    rcases halive.open_or_listed with hopen | hl
    · exact hclosed k x hx hpane hopen
    · rw [(hs.listed c.pane k).mpr ⟨x,hx,hpane,hl⟩] at hnone
      cases hnone
  have hold : ∀ k x, s.hubs.lookup k = some x →
      (s.hubs.insert h ⟨c.pane,i,.made,true⟩).lookup k = some x := by
    intro k x hx
    refine Table.lookup_insert_eq_some.mpr (Or.inr ⟨?_,hx⟩)
    rintro rfl
    rw [hfresh] at hx
    cases hx
  refine ⟨fun pane k => ?_,fun k k' y z hy hz hpane hya hza => ?_,fun j d hd => ?_⟩
  · refine (hs.listed pane k).trans ⟨fun ⟨y,hy,hyl⟩ => ⟨y,hold k y hy,hyl⟩,?_⟩
    rintro ⟨y,hy,hpane,hyl⟩
    rcases Table.lookup_insert_eq_some.mp hy with ⟨rfl,rfl⟩ | ⟨-,hy⟩
    · simp [PaneMirrorHub.Listed] at hyl
    · exact ⟨y,hy,hpane,hyl⟩
  · rcases Table.lookup_insert_eq_some.mp hy with ⟨rfl,rfl⟩ | ⟨-,hys⟩
    · rcases Table.lookup_insert_eq_some.mp hz with ⟨rfl,-⟩ | ⟨-,hzs⟩
      · rfl
      · exact absurd hza (hdead k' z hzs hpane.symm)
    · rcases Table.lookup_insert_eq_some.mp hz with ⟨rfl,rfl⟩ | ⟨-,hzs⟩
      · exact absurd hya (hdead k y hys hpane)
      · exact hs.alone k k' y z hys hzs hpane hya hza
  · rcases Table.lookup_insert_eq_some.mp hd with ⟨rfl,rfl⟩ | ⟨-,hd⟩
    · exact ⟨_,AList.lookup_insert _,rfl,rfl,rfl⟩
    · have hp := hs.placed j d hd
      obtain ⟨pane,p⟩ := d
      cases p with
      | inserting k | starting k =>
        obtain ⟨y,hy,hrest⟩ := hp
        exact ⟨y,hold k y hy,hrest⟩
      | holding k | serving k =>
        obtain ⟨y,hy,hrest⟩ := hp
        exact ⟨y,hold k y hy,hrest⟩
      | getting | connecting | gone => trivial

/-- The client whose hub it is puts it into the registry, where there is none. -/
theorem inv_insert (hs : s.Inv) (hc : s.clients.lookup i = some c) (hphase : c.phase = .inserting h)
    (hx : s.hubs.lookup h = some x) :
    ({ (s.setClient i c (.starting h)).setHub h { x with phase := .listed } with
      registry := s.registry.insert c.pane h } : MirrorHubs).Inv := by
  have hp := hs.placed i c hc
  simp only [Placed,hphase] at hp
  obtain ⟨y,hy,hpane,hmaker,hmade⟩ := hp
  obtain rfl := Option.some.inj (hx.symm.trans hy)
  have halive : x.Alive := by simp [PaneMirrorHub.Alive,hmade]
  refine ⟨fun pane k => ?_,fun k k' y z hy hz =>
    hs.alone_setHub (y := { x with phase := .listed }) hx rfl halive hy hz,fun j d hd => ?_⟩
  · constructor
    · intro hk
      rcases Table.lookup_insert_eq_some.mp hk with ⟨rfl,rfl⟩ | ⟨hne,hk⟩
      · exact ⟨_,AList.lookup_insert _,hpane,Or.inl rfl⟩
      · obtain ⟨z,hz,hzp,hzl⟩ := (hs.listed pane k).mp hk
        have hkh : k ≠ h := by
          intro heq
          rw [heq,hx] at hz
          obtain rfl := Option.some.inj hz
          exact hne (hzp.symm.trans hpane)
        exact ⟨z,(AList.lookup_insert_ne hkh).trans hz,hzp,hzl⟩
    · rintro ⟨y,hy,hyp,hyl⟩
      rcases Table.lookup_insert_eq_some.mp hy with ⟨rfl,rfl⟩ | ⟨hkh,hy⟩
      · exact Table.lookup_insert_eq_some.mpr (Or.inl ⟨hyp.symm.trans hpane,rfl⟩)
      · refine Table.lookup_insert_eq_some.mpr (Or.inr ⟨?_,(hs.listed pane k).mpr ⟨y,hy,hyp,hyl⟩⟩)
        rintro rfl
        exact hkh (hs.alone k h y x hy hx (hyp.trans hpane.symm) hyl.alive halive)
  · rcases Table.lookup_insert_eq_some.mp hd with ⟨rfl,rfl⟩ | ⟨hne,hd⟩
    · exact ⟨_,AList.lookup_insert _,hpane,hmaker,rfl⟩
    · exact (hs.placed j d hd).setHub hx rfl rfl
        (Or.inr ⟨by simp,fun heq => absurd (heq.symm.trans hmaker) hne⟩)

/-- The task of a hub starts, and its maker holds it as other clients do. -/
theorem inv_running (hs : s.Inv) (hc : s.clients.lookup i = some c) (hphase : c.phase = .starting h)
    (hx : s.hubs.lookup h = some x) :
    ((s.setClient i c (.holding h)).setHub h { x with phase := .running }).Inv := by
  have hp := hs.placed i c hc
  simp only [Placed,hphase] at hp
  obtain ⟨y,hy,hpane,hmaker,hlisted⟩ := hp
  obtain rfl := Option.some.inj (hx.symm.trans hy)
  have halive : x.Alive := by simp [PaneMirrorHub.Alive,hlisted]
  refine ⟨hs.listed_setHub hx rfl ?_,fun k k' y z hy hz =>
    hs.alone_setHub (y := { x with phase := .running }) hx rfl halive hy hz,
    fun j d hd => ?_⟩
  · simp [PaneMirrorHub.Listed,hlisted]
  · rcases Table.lookup_insert_eq_some.mp hd with ⟨rfl,rfl⟩ | ⟨hne,hd⟩
    · exact ⟨_,AList.lookup_insert _,hpane,by simp⟩
    · exact (hs.placed j d hd).setHub hx rfl rfl
        (Or.inr ⟨by simp,fun heq => absurd (heq.symm.trans hmaker) hne⟩)

/-- The task takes its hub out of the registry. -/
theorem inv_remove (hs : s.Inv) (hx : s.hubs.lookup h = some x) (hphase : x.phase = .removing) :
    ({ s.setHub h { x with phase := .ended } with
      registry := s.registry.erase x.pane } : MirrorHubs).Inv := by
  have halive : x.Alive := by simp [PaneMirrorHub.Alive,hphase]
  refine ⟨fun pane k => ?_,fun k k' y z hy hz =>
    hs.alone_setHub (y := { x with phase := .ended }) hx rfl halive hy hz,
    fun j d hd => (hs.placed j d hd).setHub hx rfl rfl (Or.inr ?_)⟩
  · rw [Table.lookup_erase_eq_some,hs.listed]
    constructor
    · rintro ⟨hne,z,hz,hzp,hzl⟩
      have hkh : k ≠ h := by
        intro heq
        rw [heq,hx] at hz
        obtain rfl := Option.some.inj hz
        exact hne hzp.symm
      exact ⟨z,(AList.lookup_insert_ne hkh).trans hz,hzp,hzl⟩
    · rintro ⟨z,hz,hzp,hzl⟩
      rcases Table.lookup_insert_eq_some.mp hz with ⟨rfl,rfl⟩ | ⟨hkh,hzs⟩
      · simp [PaneMirrorHub.Listed] at hzl
      · refine ⟨?_,z,hzs,hzp,hzl⟩
        rintro rfl
        exact hkh (hs.alone k h z x hzs hx hzp hzl.alive halive)
  · simp [hphase]

theorem inv_frame (hs : s.Inv) :
    ({ s with clients := s.clients.mapValues (deliver h) } : MirrorHubs).Inv := by
  refine ⟨hs.listed,hs.alone,fun i d hd => ?_⟩
  change (s.clients.mapValues (deliver h)).lookup i = some d at hd
  rw [Table.lookup_mapValues,Option.map_eq_some_iff] at hd
  obtain ⟨c,hc,rfl⟩ := hd
  have hp := hs.placed i c hc
  unfold deliver
  split
  · rename_i k n input hphase
    split
    · simp only [Placed,hphase] at hp
      exact hp
    · exact hp
  · exact hp

/-- Every other step of a frame leaves its hub as it was. -/
theorem Inv.serving (hs : s.Inv) (hc : s.clients.lookup i = some c) (hheld : c.phase.hub = some h)
    (hmade : ∀ k, c.phase ≠ .inserting k ∧ c.phase ≠ .starting k) (output : Option Nat)
    (input : Bool) : (s.setClient i c (.serving h output input)).Inv := by
  have hp := hs.placed i c hc
  refine hs.setClient ?_
  obtain ⟨pane,p⟩ := c
  cases p with
  | inserting k => exact absurd rfl (hmade k).1
  | starting k => exact absurd rfl (hmade k).2
  | holding k | serving k =>
    obtain rfl := Option.some.inj hheld
    exact hp
  | getting | connecting | gone => cases hheld

theorem Inv.step {a : MirrorStep} (hs : s.Inv) (ha : s.Undisturbed a) (ht : s.step a = some t) :
    t.Inv := by
  cases a with
  | attach i pane =>
    obtain ⟨hfresh,ht⟩ := Option.ite_none_right_eq_some.mp ht
    obtain rfl := Option.some.inj ht
    refine ⟨hs.listed,hs.alone,fun j d hd => ?_⟩
    rcases Table.lookup_insert_eq_some.mp hd with ⟨rfl,rfl⟩ | ⟨-,hd⟩
    · trivial
    · exact hs.placed j d hd
  | get i =>
    obtain ⟨c,hc,ht⟩ := Option.bind_eq_some_iff.mp ht
    split at ht
    · split at ht
      · rename_i k hk
        obtain rfl := Option.some.inj ht
        exact (inv_get hs).1 k hk
      · obtain rfl := Option.some.inj ht
        exact (inv_get hs).2
    · cases ht
  | connect i h ok =>
    obtain ⟨c,hc,ht⟩ := Option.bind_eq_some_iff.mp ht
    obtain ⟨⟨-,hfresh⟩,ht⟩ := Option.ite_none_right_eq_some.mp ht
    cases ok with
    | true =>
      obtain rfl := Option.some.inj ht
      obtain ⟨hnone,hclosed⟩ := ha rfl c hc
      exact inv_connect hs hc hfresh hnone fun k x hx => hclosed ⟨k,x⟩ (Table.lookup_eq_some.mp hx)
    | false =>
      obtain rfl := Option.some.inj ht
      exact hs.setClient trivial
  | insert i =>
    obtain ⟨c,hc,ht⟩ := Option.bind_eq_some_iff.mp ht
    split at ht
    · rename_i h hphase
      obtain ⟨x,hx,ht⟩ := Option.bind_eq_some_iff.mp ht
      obtain rfl := Option.some.inj ht
      exact inv_insert hs hc hphase hx
    · cases ht
  | start i =>
    obtain ⟨c,hc,ht⟩ := Option.bind_eq_some_iff.mp ht
    split at ht
    · rename_i h hphase
      obtain ⟨x,hx,ht⟩ := Option.bind_eq_some_iff.mp ht
      obtain rfl := Option.some.inj ht
      exact inv_running hs hc hphase hx
    · cases ht
  | frame h =>
    obtain ⟨x,hx,ht⟩ := Option.bind_eq_some_iff.mp ht
    obtain ⟨-,ht⟩ := Option.ite_none_right_eq_some.mp ht
    obtain rfl := Option.some.inj ht
    exact inv_frame hs
  | close h =>
    obtain ⟨x,hx,ht⟩ := Option.bind_eq_some_iff.mp ht
    obtain ⟨hphase,ht⟩ := Option.ite_none_right_eq_some.mp ht
    obtain rfl := Option.some.inj ht
    refine hs.setHub hx rfl rfl ?_ ?_ (Or.inr ?_) <;>
      simp [PaneMirrorHub.Listed,PaneMirrorHub.Alive,hphase]
  | remove h =>
    obtain ⟨x,hx,ht⟩ := Option.bind_eq_some_iff.mp ht
    obtain ⟨hphase,ht⟩ := Option.ite_none_right_eq_some.mp ht
    obtain rfl := Option.some.inj ht
    exact inv_remove hs hx hphase
  | drainerEnds h =>
    obtain ⟨x,hx,ht⟩ := Option.bind_eq_some_iff.mp ht
    obtain ⟨-,ht⟩ := Option.ite_none_right_eq_some.mp ht
    obtain rfl := Option.some.inj ht
    exact hs.setHub hx rfl rfl Iff.rfl id (Or.inl rfl)
  | subscribe i sent =>
    obtain ⟨c,hc,ht⟩ := Option.bind_eq_some_iff.mp ht
    split at ht
    · rename_i h hphase
      obtain rfl := Option.some.inj ht
      exact hs.serving hc (by rw [hphase]; rfl) (by simp [hphase]) _ _
    · cases ht
  | recv i | writeFails i | hangUp i =>
    obtain ⟨c,hc,ht⟩ := Option.bind_eq_some_iff.mp ht
    split at ht
    · rename_i hphase
      obtain rfl := Option.some.inj ht
      exact hs.serving hc (by rw [hphase]; rfl) (by simp [hphase]) _ _
    · cases ht
  | closed i =>
    obtain ⟨c,hc,ht⟩ := Option.bind_eq_some_iff.mp ht
    split at ht
    · rename_i hphase
      obtain ⟨-,ht⟩ := Option.ite_none_right_eq_some.mp ht
      obtain rfl := Option.some.inj ht
      exact hs.serving hc (by rw [hphase]; rfl) (by simp [hphase]) _ _
    · cases ht
  | inputFails i =>
    obtain ⟨c,hc,ht⟩ := Option.bind_eq_some_iff.mp ht
    split at ht
    · rename_i hphase
      obtain ⟨x,-,ht⟩ := Option.bind_eq_some_iff.mp ht
      obtain ⟨-,ht⟩ := Option.ite_none_left_eq_some.mp ht
      obtain rfl := Option.some.inj ht
      exact hs.serving hc (by rw [hphase]; rfl) (by simp [hphase]) _ _
    · cases ht
  | leave i =>
    obtain ⟨c,hc,ht⟩ := Option.bind_eq_some_iff.mp ht
    split at ht
    · obtain rfl := Option.some.inj ht
      exact hs.setClient trivial
    · cases ht

/-- What a client has got from the registry, or made, is still in the registry while its task
has not taken it out. -/
theorem inOrder_of_undisturbed {a : MirrorStep} (hs : s.Inv) (ha : s.Undisturbed a) :
    s.InOrder a := by
  cases a with
  | subscribe i sent =>
    intro c hc h hphase
    have hp := hs.placed i c hc
    simp only [Placed,hphase] at hp
    obtain ⟨x,hx,hpane,hmade⟩ := hp
    have halive : x.Alive := ha c hc h (by rw [hphase]; rfl) x hx
    refine (hs.listed c.pane h).mpr ⟨x,hx,hpane,?_⟩
    rcases halive.open_or_listed with hopen | hl
    · exact hopen.elim (fun hm => absurd hm hmade) fun ho => ho.elim Or.inl fun hr => Or.inr (Or.inl hr)
    · exact hl
  | remove h =>
    intro x hx hphase h' hh'
    have hl : x.Listed := Or.inr (Or.inr hphase)
    exact Option.some.inj (hh'.symm.trans ((hs.listed x.pane h).mpr ⟨x,hx,rfl,hl⟩))
  | _ => trivial

end MirrorHubs

open MirrorHubs

/-- Where no two attaches of a pane come between each other's look at the registry and their
entry in it, nor the end of a hub between a look and a subscription, a pane has one open hub
at a time, clients subscribe to it, and each hub's task takes out its own. -/
theorem one_hub_per_pane {steps : List MirrorStep}
    (h : Along MirrorHubs.step Undisturbed .start steps) :
    Always MirrorHubs.step OneOpen .start steps ∧ Along MirrorHubs.step InOrder .start steps := by
  have hinv := h.invariant (fun s a t hs ha ht => Inv.step hs ha ht) inv_start
  refine ⟨hinv.mono fun s hs => hs.oneOpen,?_⟩
  rw [along_iff] at h ⊢
  intro pre a hpre t ht
  exact inOrder_of_undisturbed (hinv pre ((List.prefix_append _ _).trans hpre) t ht)
    (h pre a hpre t ht)

/-- The second client finds the hub of the first. The worker closes, and the hub goes. -/
theorem one_hub_per_pane_two_clients :
    ∃ t, exec MirrorHubs.step .start [.attach 0 ⟨1⟩,.get 0,.connect 0 0 true,.insert 0,.start 0,
        .subscribe 0 true,.attach 1 ⟨1⟩,.get 1,.subscribe 1 true,.close 0,.remove 0] = some t ∧
      t.OneOpen := by
  have hrun : (exec MirrorHubs.step .start [.attach 0 ⟨1⟩,.get 0,.connect 0 0 true,.insert 0,
      .start 0,.subscribe 0 true,.attach 1 ⟨1⟩,.get 1,.subscribe 1 true,.close 0,
      .remove 0]).isSome := by decide
  obtain ⟨t,ht⟩ := Option.isSome_iff_exists.mp hrun
  exact ⟨t,ht,(one_hub_per_pane (by decide)).1.last ht⟩

/-- Two clients attach together and make a hub each; the second is registered in place of the
first, whose task takes it out when its own connection ends. -/
theorem two_hubs_for_a_pane :
    (¬∀ steps, Always MirrorHubs.step OneOpen .start steps) ∧
      ¬∀ steps, Along MirrorHubs.step InOrder .start steps := by
  refine ⟨fun h => ?_,fun h => ?_⟩
  · have hrun : (exec MirrorHubs.step .start [.attach 0 ⟨1⟩,.attach 1 ⟨1⟩,.get 0,.get 1,
        .connect 0 0 true,.connect 1 1 true]).any fun t =>
        t.hubs.lookup 0 = some ⟨⟨1⟩,0,.made,true⟩ ∧ t.hubs.lookup 1 = some ⟨⟨1⟩,1,.made,true⟩ := by
      decide
    obtain ⟨t,ht,hrun⟩ := (Option.any_eq_true _ _).mp hrun
    obtain ⟨hfirst,hsecond⟩ := of_decide_eq_true hrun
    have heq := (h _).last ht 0 1 _ _ hfirst hsecond rfl (Or.inl rfl) (Or.inl rfl)
    exact absurd heq (by decide)
  · have hrun : (exec MirrorHubs.step .start [.attach 0 ⟨1⟩,.attach 1 ⟨1⟩,.get 0,.get 1,
        .connect 0 0 true,.connect 1 1 true,.insert 0,.start 0,.insert 1,.start 1,
        .close 0]).any fun t =>
        t.hubs.lookup 0 = some ⟨⟨1⟩,0,.removing,true⟩ ∧ t.registry.lookup ⟨1⟩ = some 1 := by decide
    obtain ⟨t,ht,hrun⟩ := (Option.any_eq_true _ _).mp hrun
    obtain ⟨hhub,hreg⟩ := of_decide_eq_true hrun
    have hone := along_iff.mp (h _) _ (.remove 0) (List.prefix_refl _) t ht _ hhub rfl 1 hreg
    exact absurd hone (by decide)

end Pyre.Supervisor
