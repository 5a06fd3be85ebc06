import CompressionSweep.Text.Blank
import CompressionSweep.Text.Utf8

/-! The lines of a stream of bytes. A line end belongs to the line it ends; the last line may
have none. -/

namespace CompressionSweep.Call

def lineFeed : UInt8 := 0x0A

/-- The first line of a stream with its line end and what follows it, once it is there as a
whole. -/
def firstLine? (b : Bytes) : Option (Bytes × Bytes) :=
  match b.dropWhile (· != lineFeed) with
  | [] => none
  | c :: rest => some (b.takeWhile (· != lineFeed) ++ [c], rest)

def isLineEnd (c : Char) : Bool :=
  c == '\n' || c == '\r'

/-- A line as it is handed on: as characters, and without the line ends behind it. -/
def lineText (b : Bytes) : String :=
  String.ofList (Text.trimEndList isLineEnd (Text.lossyChars b))

end CompressionSweep.Call
