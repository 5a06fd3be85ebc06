import CompressionSweep.Algorithm
import CompressionSweep.Measurement

/-! The result document of a sweep: its metadata, and under each algorithm, in order of first
appearance, the runs with the measurements that arrived in them. -/

namespace CompressionSweep

/-- The measurements of one run of one algorithm, in order of arrival. -/
structure RunEntry where
  run : UInt32
  results : List Measurement
  deriving DecidableEq

structure AlgorithmEntry where
  algorithm : String
  runs : List RunEntry
  deriving DecidableEq

structure Document where
  timestamp : String
  configuration : String
  runs : UInt32
  filter : Option String
  baseline : String
  compressions : List AlgorithmEntry
  deriving DecidableEq

/-- Applies `f` to the first member that satisfies `p`, or to `new` put at the end if none does. -/
def modifyOrAppend {α : Type} (p : α → Bool) (new : α) (f : α → α) : List α → List α
  | [] => [f new]
  | a :: as => if p a then f a :: as else a :: modifyOrAppend p new f as

namespace AlgorithmEntry

def run? (e : AlgorithmEntry) (run : UInt32) : Option RunEntry :=
  e.runs.find? (·.run == run)

/-- Changes the entry of a run, which is created at the end on first use. -/
def modifyRun (run : UInt32) (f : RunEntry → RunEntry) (e : AlgorithmEntry) : AlgorithmEntry :=
  { e with runs := modifyOrAppend (·.run == run) ⟨run, []⟩ f e.runs }

def records (e : AlgorithmEntry) : List Measurement :=
  e.runs.flatMap (·.results)

def sampleCount (e : AlgorithmEntry) : Nat :=
  e.runs.foldr (fun r n => r.results.length + n) 0

end AlgorithmEntry

def RunEntry.extend (ms : List Measurement) (e : RunEntry) : RunEntry :=
  { e with results := e.results ++ ms }

namespace Document

def new (timestamp configuration : String) (runs : UInt32) (filter : Option String)
    (baseline : Algorithm) : Document :=
  ⟨timestamp, configuration, runs, filter, baseline.name, []⟩

def algorithm? (d : Document) (name : String) : Option AlgorithmEntry :=
  d.compressions.find? (·.algorithm == name)

/-- Changes the entry of an algorithm, which is created at the end on first use. -/
def modifyAlgorithm (name : String) (f : AlgorithmEntry → AlgorithmEntry) (d : Document) :
    Document :=
  { d with compressions := modifyOrAppend (·.algorithm == name) ⟨name, []⟩ f d.compressions }

def modifyRun (name : String) (run : UInt32) (f : RunEntry → RunEntry) (d : Document) : Document :=
  d.modifyAlgorithm name (·.modifyRun run f)

def append (name : String) (run : UInt32) (m : Measurement) (d : Document) : Document :=
  d.modifyRun name run (·.extend [m])

def recordsFor (d : Document) (name : String) : List Measurement :=
  match d.algorithm? name with
  | none => []
  | some e => e.records

end Document

end CompressionSweep
