/-! Sets of code points as sorted, disjoint intervals, searched by bisection. Each property
of characters that the library asks about beyond ASCII is one such table. -/

namespace CompressionSweep.Text

/-- Closed intervals of code points, increasing and disjoint. -/
abbrev Ranges := Array (Nat × Nat)

/-- Looks for `n` among the intervals with index at least `lo` and below `hi`. -/
def Ranges.covers (r : Ranges) (n lo hi : Nat) : Bool :=
  if lo < hi then
    let mid := (lo + hi) / 2
    match r[mid]? with
    | none => false
    | some (first, last) =>
      if n < first then r.covers n lo mid
      else if last < n then r.covers n (mid + 1) hi
      else true
  else false
termination_by hi - lo

def Ranges.holds (r : Ranges) (c : Char) : Bool :=
  r.covers c.toNat 0 r.size

def isAsciiLetter (c : Char) : Bool :=
  'a' ≤ c && c ≤ 'z' || 'A' ≤ c && c ≤ 'Z'

def isAsciiDigit (c : Char) : Bool :=
  '0' ≤ c && c ≤ '9'

end CompressionSweep.Text
