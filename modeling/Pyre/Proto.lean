import Mathlib.Data.Fintype.EquivFin

/-!
The identifiers and wire types the daemon and its clients share.

A UUID is opaque to the code: it is drawn, stored and compared. It is a number
here, so that a run of any length finds unused ones.
-/

set_option autoImplicit false

namespace Pyre

structure SessionId where
  uuid : Nat
  deriving DecidableEq, Repr

structure PaneId where
  uuid : Nat
  deriving DecidableEq, Repr

structure WindowId where
  uuid : Nat
  deriving DecidableEq, Repr

structure BlockId where
  uuid : Nat
  deriving DecidableEq, Repr

instance : Infinite PaneId := Infinite.of_injective PaneId.mk fun _ _ h => PaneId.mk.inj h

instance : Infinite WindowId :=
  Infinite.of_injective WindowId.mk fun _ _ h => WindowId.mk.inj h

/-- The text of a session's UUID, under which the supervisor files it. -/
abbrev SessionKey := String

abbrev Bytes := List UInt8

/-- Text as its characters; file paths are text too. -/
abbrev Text := List Char

/-- What the block parser reports, in stream order. -/
inductive BlockEvent where
  | promptStart (session : SessionId)
  | commandStart (session : SessionId) (block : BlockId) (command : Text) (cwd : Option Text)
  | outputChunk (block : BlockId) (data : Bytes)
  | blockEnd (block : BlockId) (exitCode : Option Int)
  deriving DecidableEq, Repr

end Pyre
