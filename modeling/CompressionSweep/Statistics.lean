import CompressionSweep.Decimal.Nearest
import CompressionSweep.Document

/-! Averages, spreads and totals of the measurements of an algorithm and of its files. Values
are sorted before they are added, so no statistic depends on the order of arrival. -/

namespace CompressionSweep

/-- The statistics of all measurements of an algorithm. -/
structure Aggregate where
  averageSeconds : Float
  spreadSeconds : Float
  averageBytes : Float
  spreadBytes : Float
  totalSeconds : Float
  totalBytes : UInt64
  samples : Nat
  runs : Nat
  deriving DecidableEq

/-- The statistics of one file under an algorithm. -/
structure FileStatistics where
  averageSeconds : Float
  spreadSeconds : Float
  averageBytes : Float
  spreadBytes : Float
  samples : Nat
  runs : Nat
  deriving DecidableEq

/-- The totals of one run. -/
structure RunSummary where
  files : Nat
  totalBytes : UInt64
  totalSeconds : Float
  deriving DecidableEq

namespace Statistics

/-- The sum of two sizes, at most the largest size. -/
def addClamped (a b : UInt64) : UInt64 :=
  if a.toNat + b.toNat < UInt64.size then a + b else UInt64.ofNat (UInt64.size - 1)

def totalBytes (sizes : List UInt64) : UInt64 :=
  sizes.foldl addClamped 0

def sorted (xs : List Float) : List Float :=
  xs.mergeSort (fun x y => Decimal.orderKey x ≤ Decimal.orderKey y)

/-- Adds from the left, starting at the neutral element of addition. -/
def sum (xs : List Float) : Float :=
  xs.foldl (· + ·) (-0.0)

def count (n : Nat) : Float :=
  n.toUInt64.toFloat

def mean (xs : List Float) : Float :=
  if xs.isEmpty then 0.0 else sum xs / count xs.length

/-- The standard deviation of a sample, over one less than its size. -/
def sampleDeviation (xs : List Float) : Float :=
  if xs.length < 2 then 0.0
  else
    let m := mean xs
    (sum (xs.map (fun x => (x - m) * (x - m))) / count (xs.length - 1)).sqrt

/-- Only repeated runs have a spread. -/
def spread (xs : List Float) (runs : Nat) : Float :=
  if 1 < runs ∧ 1 < xs.length then sampleDeviation xs else 0.0

def seconds (ms : List Measurement) : List Float :=
  sorted (ms.map (·.seconds))

def sizes (ms : List Measurement) : List Float :=
  sorted (ms.map (·.bytes.toFloat))

end Statistics

open Statistics

def RunSummary.ofRecords (ms : List Measurement) : RunSummary :=
  ⟨ms.length, Statistics.totalBytes (ms.map (·.bytes)), sum (ms.map (·.seconds))⟩

def AlgorithmEntry.aggregate? (e : AlgorithmEntry) : Option Aggregate :=
  let ms := e.records
  if ms.isEmpty then none
  else
    some {
      averageSeconds := mean (seconds ms)
      spreadSeconds := spread (seconds ms) e.runs.length
      averageBytes := mean (sizes ms)
      spreadBytes := spread (sizes ms) e.runs.length
      totalSeconds := sum (seconds ms)
      totalBytes := Statistics.totalBytes (ms.map (·.bytes))
      samples := ms.length
      runs := e.runs.length }

/-- The statistics of an algorithm; it has none without measurements. -/
def Document.aggregate? (d : Document) (name : String) : Option Aggregate :=
  (d.algorithm? name).bind (·.aggregate?)

abbrev Sample := UInt32 × Measurement

def AlgorithmEntry.samples (e : AlgorithmEntry) : List Sample :=
  e.runs.flatMap (fun r => r.results.map (fun m => (r.run, m)))

def distinct {α : Type} [BEq α] : List α → List α
  | [] => []
  | a :: as => if as.contains a then distinct as else a :: distinct as

def FileStatistics.ofSamples (ss : List Sample) : FileStatistics :=
  let ms := ss.map (·.2)
  let runs := (distinct (ss.map (·.1))).length
  { averageSeconds := mean (seconds ms)
    spreadSeconds := spread (seconds ms) runs
    averageBytes := mean (sizes ms)
    spreadBytes := spread (sizes ms) runs
    samples := ms.length
    runs := runs }

/-- Adds a sample to the group of its file; the groups stay sorted by file. -/
def insertSample (s : Sample) : List (String × List Sample) → List (String × List Sample)
  | [] => [(s.2.file, [s])]
  | (file, ss) :: groups =>
    if s.2.file == file then (file, ss ++ [s]) :: groups
    else if s.2.file < file then (s.2.file, [s]) :: (file, ss) :: groups
    else (file, ss) :: insertSample s groups

def groupByFile (ss : List Sample) : List (String × List Sample) :=
  ss.foldl (fun groups s => insertSample s groups) []

/-- The statistics of every file of an algorithm, sorted by the bytes of the file's name. -/
def Document.perFile (d : Document) (name : String) : List (String × FileStatistics) :=
  match d.algorithm? name with
  | none => []
  | some e => (groupByFile e.samples).map (fun g => (g.1, .ofSamples g.2))

def Document.fileStatistics? (d : Document) (name file : String) : Option FileStatistics :=
  (d.algorithm? name).bind fun e =>
    let ss := e.samples.filter (·.2.file == file)
    if ss.isEmpty then none else some (.ofSamples ss)

end CompressionSweep
