import CompressionSweep.Statistics

/-! Every algorithm of a document expressed relative to one baseline algorithm. -/

namespace CompressionSweep

/-- A percentage, or the name of the baseline that cannot be compared with; the name is empty
when no algorithm was asked about. -/
abbrev Percentage := Except String Float

def missingBaselineMessage (name : String) : String :=
  "baseline " ++ (if name.isEmpty then "value" else name) ++ " has no results"

/-- `subject` in percent of `baseline`, which must be finite and greater than zero. -/
def relative (subject baseline : Float) : Percentage :=
  if baseline.isFinite && 0.0 < baseline then .ok (subject / baseline * 100.0) else .error ""

/-- The two percentages of a subject; each is there or missing on its own. -/
structure Relative where
  seconds : Percentage
  bytes : Percentage

/-- The averages that percentages are computed against. -/
structure Baseline where
  name : String
  seconds : Option Float
  bytes : Option Float

namespace Baseline

def column (b : Baseline) (subject : Float) (base : Option Float) : Percentage :=
  match base with
  | none => .error b.name
  | some x =>
    match relative subject x with
    | .ok p => .ok p
    | .error _ => .error b.name

def apply (b : Baseline) (seconds bytes : Float) : Relative :=
  ⟨b.column seconds b.seconds, b.column bytes b.bytes⟩

/-- Whether at least one of the two columns can be computed. -/
def isUsable (b : Baseline) : Bool :=
  (b.column 1.0 b.seconds).isOk || (b.column 1.0 b.bytes).isOk

end Baseline

structure FileComparison where
  file : String
  statistics : FileStatistics
  relative : Relative

/-- An algorithm with measurements in a comparison. -/
structure Measured where
  statistics : Aggregate
  relative : Relative
  files : List FileComparison

structure ComparisonRow where
  algorithm : String
  isBaseline : Bool
  result : Option Measured

structure Comparison where
  baseline : String
  isUsable : Bool
  rows : List ComparisonRow

namespace Comparison

/-- The algorithms of a comparison: the expected ones and all others of the document, in sweep
order. -/
def names (d : Document) (expected : List Algorithm) : List String :=
  let known := expected.map (·.name)
  let others := (d.compressions.map (·.algorithm)).foldl
    (fun ns n => if ns.contains n then ns else ns ++ [n]) known
  others.mergeSort (fun a b => Algorithm.rank a ≤ Algorithm.rank b)

def baselineOf (d : Document) (name : String) : Baseline :=
  let stats := d.aggregate? name
  ⟨name, stats.map (·.averageSeconds), stats.map (·.averageBytes)⟩

def fileBaseline (name : String) (files : List (String × FileStatistics)) (file : String) :
    Baseline :=
  let stats := (files.find? (·.1 == file)).map (·.2)
  ⟨name, stats.map (·.averageSeconds), stats.map (·.averageBytes)⟩

/-- A file of an algorithm against the same file of the baseline, whose files are `files`. -/
def fileRow (baseline : String) (files : List (String × FileStatistics))
    (f : String × FileStatistics) : FileComparison :=
  ⟨f.1, f.2, (fileBaseline baseline files f.1).apply f.2.averageSeconds f.2.averageBytes⟩

def measured? (d : Document) (baseline name : String) : Option Measured :=
  (d.aggregate? name).map fun s =>
    let files := d.perFile baseline
    ⟨s, (baselineOf d baseline).apply s.averageSeconds s.averageBytes,
      (d.perFile name).map (fileRow baseline files)⟩

def row (d : Document) (baseline name : String) : ComparisonRow :=
  ⟨name, name == baseline, measured? d baseline name⟩

def build (d : Document) (baseline : String) (expected : List Algorithm) : Comparison :=
  ⟨baseline, (baselineOf d baseline).isUsable, (names d expected).map (row d baseline)⟩

def row? (c : Comparison) (name : String) : Option ComparisonRow :=
  c.rows.find? (·.algorithm == name)

end Comparison

end CompressionSweep
