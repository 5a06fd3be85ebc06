import CompressionSweep.Text.CodePoints

/-! White space, and texts with the white space at their ends taken off. -/

namespace CompressionSweep.Text

def blankRanges : Ranges :=
  #[(0x9, 0xD), (0x20, 0x20), (0x85, 0x85), (0xA0, 0xA0), (0x1680, 0x1680), (0x2000, 0x200A),
    (0x2028, 0x2029), (0x202F, 0x202F), (0x205F, 0x205F), (0x3000, 0x3000)]

def isBlank (c : Char) : Bool :=
  blankRanges.holds c

/-- Drops every trailing character that satisfies `p`. -/
def trimEndList (p : Char → Bool) (s : List Char) : List Char :=
  (s.reverse.dropWhile p).reverse

def trim (p : Char → Bool) (s : String) : String :=
  String.ofList (trimEndList p (s.toList.dropWhile p))

end CompressionSweep.Text
