/-! One measurement: a file, the seconds its compression took and the bytes that came out. -/

namespace CompressionSweep

structure Measurement where
  file : String
  seconds : Float
  bytes : UInt64
  deriving DecidableEq

/-- What turns a line of the tool's output into at most one measurement. -/
abbrev Extractor := String → Option Measurement

end CompressionSweep
