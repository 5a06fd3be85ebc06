import CompressionSweep.Decimal.Notation
import CompressionSweep.Document
import CompressionSweep.Json.Value

/-! Writing a document as JSON. A duration that is no finite number is written `null`. -/

namespace CompressionSweep

open Json (Value Layout)

def naturalValue (n : Nat) : Value :=
  .number (Decimal.digitsOf n)

def secondsValue (x : Float) : Value :=
  if x.isFinite then .number (Decimal.finiteChars x) else .null

def Measurement.value (m : Measurement) : Value :=
  .object [("file", .text m.file), ("duration_seconds", secondsValue m.seconds),
    ("size_bytes", naturalValue m.bytes.toNat)]

def RunEntry.value (e : RunEntry) : Value :=
  .object [("run", naturalValue e.run.toNat), ("results", .list (e.results.map (·.value)))]

def AlgorithmEntry.value (e : AlgorithmEntry) : Value :=
  .list (e.runs.map (·.value))

namespace Document

def value (d : Document) : Value :=
  .object [("timestamp", .text d.timestamp), ("configuration", .text d.configuration),
    ("runs", naturalValue d.runs.toNat),
    ("regexp", match d.filter with | none => .null | some f => .text f),
    ("baseline", .text d.baseline),
    ("compressions", .object (d.compressions.map (fun e => (e.algorithm, e.value))))]

def compact (d : Document) : Bytes :=
  d.value.bytes .compact 0

def pretty (d : Document) : Bytes :=
  d.value.bytes .pretty 0

/-- What the document's file holds: the document over several lines, and a line end. -/
def encode (d : Document) : Bytes :=
  d.pretty ++ [0x0A]

end Document

end CompressionSweep
