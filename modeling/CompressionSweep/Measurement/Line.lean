import CompressionSweep.Decimal.Shortest
import CompressionSweep.Measurement
import CompressionSweep.Text.Blank
import CompressionSweep.Text.DecimalDigit
import CompressionSweep.Text.WordCharacter

/-! The line the benchmark tool prints for a measured file,
`Benchmarked <file>.jfr with <configuration> in <seconds>s, size: <bytes> bytes`,
anywhere in a line of its output. The leftmost place where the form fits decides; if the
numbers there have no value, the line holds no measurement. -/

namespace CompressionSweep.Line

/-- A number of seconds as it is written. -/
structure Seconds where
  whole : List Char
  fraction : List Char
  negativeExponent : Bool
  exponent : List Char
  deriving DecidableEq, Repr

/-- The parts of a line of the form. -/
structure Fields where
  file : List Char
  configuration : List Char
  seconds : Seconds
  bytes : List Char
  deriving DecidableEq, Repr

def isNameChar (c : Char) : Bool :=
  Text.isAsciiLetter c || Text.isAsciiDigit c || c == '_' || c == '.' || c == '-'

def isConfigurationChar (c : Char) : Bool :=
  Text.isWord c || c == '-'

/-- The text after `expected`, if it begins with that. -/
def after : List Char → List Char → Option (List Char)
  | [], s => some s
  | _ :: _, [] => none
  | e :: es, c :: s => if c = e then after es s else none

/-- The longest piece in front whose characters all satisfy `p`, if there is any, and the rest. -/
def run (p : Char → Bool) (s : List Char) : Option (List Char × List Char) :=
  match s.takeWhile p with
  | [] => none
  | piece => some (piece, s.dropWhile p)

def exponentAt (s : List Char) : Option (Bool × List Char × List Char) :=
  match s with
  | 'e' :: r | 'E' :: r =>
    let (negative, r) :=
      match r with
      | '+' :: t => (false, t)
      | '-' :: t => (true, t)
      | _ => (false, r)
    (run Text.isDecimalDigit r).map (fun (ds, rest) => (negative, ds, rest))
  | _ => some (false, [], s)

def secondsAt (s : List Char) : Option (Seconds × List Char) := do
  let (whole, s) ← run Text.isDecimalDigit s
  let (fraction, s) ←
    match s with
    | '.' :: r => run Text.isDecimalDigit r
    | _ => some ([], s)
  let (negative, exponent, s) ← exponentAt s
  return (⟨whole, fraction, negative, exponent⟩, s)

def fileSuffix : List Char := ['.', 'j', 'f', 'r']

/-- A file name: at least one character, and the suffix. -/
def isFileName (name : List Char) : Bool :=
  fileSuffix.length < name.length && fileSuffix.isSuffixOf name

def fieldsAt (s : List Char) : Option Fields := do
  let s ← after "Benchmarked ".toList s
  let (file, s) ← run isNameChar s
  if !isFileName file then none
  let s ← after " with ".toList s
  let (configuration, s) ← run isConfigurationChar s
  let s ← after " in ".toList s
  let (seconds, s) ← secondsAt s
  let s ← after "s, size: ".toList s
  let (bytes, s) ← run Text.isDecimalDigit s
  let _ ← after " bytes".toList s
  return ⟨file, configuration, seconds, bytes⟩

def leftmost : List Char → Option Fields
  | [] => none
  | c :: s =>
    match fieldsAt (c :: s) with
    | some f => some f
    | none => leftmost s

def digitsValue? (ds : List Char) : Option Nat :=
  if ds.all Text.isAsciiDigit then
    some (ds.foldl (fun n d => n * 10 + (d.toNat - 48)) 0)
  else none

def Seconds.decimal? (s : Seconds) : Option Decimal := do
  let coefficient ← digitsValue? (s.whole ++ s.fraction)
  let exponent ← digitsValue? s.exponent
  let exponent : Int := if s.negativeExponent then -exponent else exponent
  return ⟨coefficient, exponent - s.fraction.length⟩

def Seconds.value? (s : Seconds) : Option Float := do
  let x := (← s.decimal?).toFloat
  if x.isInf then none else some x

def bytesValue? (ds : List Char) : Option UInt64 := do
  let n ← digitsValue? ds
  if n < UInt64.size then some n.toUInt64 else none

def Fields.measurement? (f : Fields) : Option Measurement := do
  return ⟨String.ofList f.file, ← f.seconds.value?, ← bytesValue? f.bytes⟩

def isLineEnd (c : Char) : Bool :=
  c == '\r' || c == '\n'

def measurement? (line : String) : Option Measurement := do
  (← leftmost (Text.trimEndList isLineEnd line.toList)).measurement?

end CompressionSweep.Line
