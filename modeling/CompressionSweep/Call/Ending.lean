import CompressionSweep.Text.Blank

/-! How a call of the benchmark tool ends, and the words for it. -/

namespace CompressionSweep

/-- Why a call of the tool could not be seen to its end. -/
inductive RunnerError where
  | spawn (program : String) (cause : String)
  | input (cause : String)
  | timedOut (nanoseconds : Nat)
  | interrupted
  deriving DecidableEq, Repr

/-- `n` without the zeros at its end, as the digits after a point; `width` digits in all. -/
def fractionDigits (width n : Nat) : List Char :=
  let ds := Nat.toDigits 10 n
  Text.trimEndList (· == '0') (List.replicate (width - ds.length) '0' ++ ds)

/-- A time in the largest unit in which it is at least one. -/
def durationText (nanoseconds : Nat) : String :=
  let inUnit (places : Nat) (unit : String) : String :=
    let one := Nat.pow 10 places
    let fraction := fractionDigits places (nanoseconds % one)
    toString (nanoseconds / one)
      ++ (if fraction.isEmpty then "" else "." ++ String.ofList fraction) ++ unit
  if 1000000000 ≤ nanoseconds then inUnit 9 "s"
  else if 1000000 ≤ nanoseconds then inUnit 6 "ms"
  else if 1000 ≤ nanoseconds then inUnit 3 "µs"
  else toString nanoseconds ++ "ns"

def RunnerError.message : RunnerError → String
  | .spawn program cause => "failed to start " ++ program ++ ": " ++ cause
  | .input cause => "i/o error while running benchmark: " ++ cause
  | .timedOut n => "benchmark timed out after " ++ durationText n
  | .interrupted => "interrupted"

/-- How a call ended: with an exit code, by a signal if there is none, or not at all. -/
inductive Ending where
  | exited (code : Option Int)
  | failed (error : RunnerError)
  deriving DecidableEq, Repr

/-- The lines of a call, in order of arrival, and its ending. -/
structure Response where
  lines : List String
  ending : Ending
  deriving DecidableEq, Repr

end CompressionSweep
