import CompressionSweep.Comparison
import CompressionSweep.Decimal.Notation

/-! The cells of the report tables: texts padded to a width that counts characters, seconds,
sizes and percentages. -/

namespace CompressionSweep.Report

def left (width : Nat) (s : String) : String :=
  s ++ String.ofList (List.replicate (width - s.length) ' ')

def right (width : Nat) (s : String) : String :=
  String.ofList (List.replicate (width - s.length) ' ') ++ s

def rule (c : Char) (width : Nat) : String :=
  String.ofList (List.replicate width c)

def secondsCell (x : Float) : String :=
  Decimal.fixed 2 x

/-- A size in groups of three digits; one that is negative or not finite stands as it is. -/
def bytesCell (x : Float) : String :=
  if x.isFinite && 0.0 ≤ x then Decimal.groupThousands (Decimal.roundUp64 x)
  else Decimal.fixed 0 x

def percentCell : Percentage → String
  | .ok p => Decimal.fixed 1 p ++ "%"
  | .error _ => "n/a"

end CompressionSweep.Report
