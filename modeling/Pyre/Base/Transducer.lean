import Mathlib.Data.List.Basic

/-!
Deterministic transducers that read one symbol at a time and write any number.
Their output is the same however the input is cut.
-/

set_option autoImplicit false

namespace Pyre.Base

structure Transducer (σ ι ο : Type) where
  start : σ
  next : σ → ι → σ × List ο

namespace Transducer

variable {σ ι ο : Type} (T : Transducer σ ι ο)

def run : σ → List ι → σ × List ο
  | s, [] => (s,[])
  | s, x :: xs => ((run (T.next s x).1 xs).1, (T.next s x).2 ++ (run (T.next s x).1 xs).2)

@[simp] theorem run_nil (s : σ) : T.run s [] = (s,[]) := rfl

theorem run_cons (s : σ) (x : ι) (xs : List ι) :
    T.run s (x :: xs) =
      ((T.run (T.next s x).1 xs).1, (T.next s x).2 ++ (T.run (T.next s x).1 xs).2) := rfl

theorem run_append (s : σ) (xs ys : List ι) :
    T.run s (xs ++ ys) =
      ((T.run (T.run s xs).1 ys).1, (T.run s xs).2 ++ (T.run (T.run s xs).1 ys).2) := by
  induction xs generalizing s with
  | nil => simp
  | cons x xs ih => simp [run_cons,ih]

theorem run_singleton (s : σ) (x : ι) : T.run s [x] = T.next s x := by
  simp [run_cons]

/-- The pieces of output the pieces of a cut input give, one list for each. -/
def runPieces : σ → List (List ι) → List (List ο)
  | _, [] => []
  | s, xs :: xss => (T.run s xs).2 :: runPieces (T.run s xs).1 xss

theorem runPieces_flatten (s : σ) (xss : List (List ι)) :
    (T.runPieces s xss).flatten = (T.run s xss.flatten).2 := by
  induction xss generalizing s with
  | nil => rfl
  | cons xs xss ih => simp [runPieces,run_append,ih]

end Transducer

end Pyre.Base
