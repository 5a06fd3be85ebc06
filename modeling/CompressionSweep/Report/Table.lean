import CompressionSweep.Report.Cell

/-! The three tables of a report, line by line: every measurement, the summary of the
algorithms, and the comparison of the files. -/

namespace CompressionSweep.Report

def recordLine (run : UInt32) (m : Measurement) : String :=
  left 40 m.file ++ " " ++ right 12 (secondsCell m.seconds) ++ " "
    ++ right 15 (Decimal.groupThousands m.bytes.toNat) ++ " " ++ right 8 (toString run.toNat)

def recordHeader : String :=
  left 40 "File" ++ " " ++ right 12 "Duration (s)" ++ " " ++ right 15 "Size (bytes)" ++ " "
    ++ right 8 "Run"

def individualSection (e : AlgorithmEntry) : List String :=
  ["", e.algorithm ++ " Results:", rule '-' 80, recordHeader, rule '-' 80]
    ++ e.samples.map (fun s => recordLine s.1 s.2)

def individual (d : Document) : List String :=
  [rule '=' 80, "INDIVIDUAL BENCHMARK RESULTS", rule '=' 80]
    ++ (d.compressions.filter (0 < ·.sampleCount)).flatMap individualSection

/-- The spread is shown when the document asked for more than one run. -/
def showsSpread (d : Document) : Bool :=
  1 < d.runs.toNat

def summaryWidth (spread : Bool) : Nat :=
  if spread then 100 else 75

def summaryHeader (spread : Bool) : String :=
  if spread then
    "  " ++ left 12 "Algorithm" ++ " " ++ right 12 "Avg Duration" ++ " " ++ right 10 "±StdDev"
      ++ " " ++ right 8 "Rel%" ++ " " ++ right 15 "Avg Size" ++ " " ++ right 12 "±StdDev" ++ " "
      ++ right 8 "Rel%" ++ " " ++ right 8 "Files"
  else
    "  " ++ left 12 "Algorithm" ++ " " ++ right 12 "Avg Duration" ++ " " ++ right 8 "Rel%" ++ " "
      ++ right 15 "Avg Size" ++ " " ++ right 8 "Rel%" ++ " " ++ right 8 "Files"

def marker (r : ComparisonRow) : String :=
  if r.isBaseline then "→ " else "  "

def summaryLine (spread : Bool) (r : ComparisonRow) : String :=
  match r.result with
  | none => marker r ++ left 12 r.algorithm ++ " " ++ left 70 "No results"
  | some m =>
    let s := m.statistics
    if spread then
      marker r ++ left 12 r.algorithm ++ " " ++ right 11 (secondsCell s.averageSeconds) ++ "s ±"
        ++ right 8 (secondsCell s.spreadSeconds) ++ "s " ++ right 8 (percentCell m.relative.seconds)
        ++ " " ++ right 14 (bytesCell s.averageBytes) ++ " ±" ++ right 10 (bytesCell s.spreadBytes)
        ++ " " ++ right 8 (percentCell m.relative.bytes) ++ " " ++ right 8 (toString s.samples)
    else
      marker r ++ left 12 r.algorithm ++ " " ++ right 11 (secondsCell s.averageSeconds) ++ "s "
        ++ right 8 (percentCell m.relative.seconds) ++ " "
        ++ right 14 (bytesCell s.averageBytes) ++ " " ++ right 8 (percentCell m.relative.bytes)
        ++ " " ++ right 8 (toString s.samples)

def filterLine (d : Document) : List String :=
  match d.filter with
  | none => []
  | some f => ["(Filter: " ++ f ++ ")"]

def baselineNote (c : Comparison) : String :=
  if c.isUsable then "- Baseline (" ++ c.baseline ++ ") is marked with →"
  else "- Baseline unavailable: " ++ missingBaselineMessage c.baseline ++ "; Rel% not computed"

def spreadNote (spread : Bool) : String :=
  if spread then "- StdDev: Sample standard deviation across multiple runs"
  else "- Standard deviation not shown (single run mode)"

def summary (d : Document) (c : Comparison) : List String :=
  let spread := showsSpread d
  let width := summaryWidth spread
  ["", rule '=' width, "COMPREHENSIVE SUMMARY"] ++ filterLine d
    ++ ["Baseline: " ++ c.baseline, rule '=' width, summaryHeader spread, rule '-' width]
    ++ c.rows.map (summaryLine spread)
    ++ ["", rule '=' width, "NOTES:", baselineNote c,
      "- Rel% = Relative percentage compared to baseline (lower is better)",
      "- Duration: Time to compress one file, averaged over files and runs",
      "- Size: Compressed file size, averaged over files and runs",
      "- Files: Total number of benchmark results across runs",
      spreadNote spread]

def fileHeader : String :=
  "  " ++ left 40 "File" ++ " " ++ right 12 "Avg Duration" ++ " " ++ right 8 "Rel%" ++ " "
    ++ right 15 "Avg Size" ++ " " ++ right 8 "Rel%" ++ " " ++ right 8 "Samples"

def fileLine (f : FileComparison) : String :=
  "  " ++ left 40 f.file ++ " " ++ right 11 (secondsCell f.statistics.averageSeconds) ++ "s "
    ++ right 8 (percentCell f.relative.seconds) ++ " "
    ++ right 15 (bytesCell f.statistics.averageBytes) ++ " "
    ++ right 8 (percentCell f.relative.bytes) ++ " " ++ right 8 (toString f.statistics.samples)

def fileSection (r : ComparisonRow) : List String :=
  match r.result with
  | none => []
  | some m => ["", r.algorithm ++ ":", fileHeader] ++ m.files.map fileLine

def perFile (c : Comparison) : List String :=
  ["", rule '=' 100, "PER-FILE COMPARISON (Baseline: " ++ c.baseline ++ ")", rule '=' 100]
    ++ c.rows.flatMap fileSection

/-- The lines of a report: the summary, and before and after it the tables that are asked for. -/
def lines (d : Document) (c : Comparison) (withIndividual withFiles : Bool) : List String :=
  (if withIndividual then individual d else []) ++ summary d c
    ++ (if withFiles then perFile c else [])

def text (ls : List String) : String :=
  String.join (ls.map (· ++ "\n"))

end CompressionSweep.Report
