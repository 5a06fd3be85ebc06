import CompressionSweep.Algorithm
import CompressionSweep.Document
import CompressionSweep.FileTree.Basic
import CompressionSweep.Pattern.Valid
import CompressionSweep.Text.Quoted

/-! What a sweep is to do, the command line it gives to the benchmark tool, and the checks that
come before anything is run or written. -/

namespace CompressionSweep

structure Invocation where
  program : String
  arguments : List String
  deriving DecidableEq, Repr

def Invocation.display (i : Invocation) : String :=
  String.intercalate " " (i.program :: i.arguments)

structure Setup where
  tool : String
  configuration : String
  runs : UInt32
  filter : Option String
  baseline : Algorithm
  algorithms : List Algorithm
  output : String
  /-- The time limit of one run in nanoseconds. -/
  limit : Option Nat
  deriving DecidableEq, Repr

namespace Setup

def standardTool : String := "./cjfr"

def standardConfiguration : String := "reasonable-default"

def standardRuns : UInt32 := 3

def standardOutput : String := "compression_benchmark_results.json"

def smallFilter : String := "(.*dotty.*|.*all.*).*G1.*"

def standard : Setup :=
  { tool := standardTool
    configuration := standardConfiguration
    runs := standardRuns
    filter := none
    baseline := .standard
    algorithms := Algorithm.all
    output := standardOutput
    limit := none }

def invocation (s : Setup) (a : Algorithm) : Invocation :=
  ⟨s.tool, ["benchmark", "--configuration", s.configuration, "--compression", a.name]
    ++ (match s.filter with | none => [] | some f => ["--regexp", f])⟩

/-- The document of a sweep that has not begun. -/
def document (s : Setup) (timestamp : String) : Document :=
  Document.new timestamp s.configuration s.runs s.filter s.baseline

end Setup

/-- Why an output path cannot be used. -/
inductive OutputProblem where
  | empty
  | directory
  | noFileName
  | noParent
  deriving DecidableEq, Repr

def OutputProblem.reason : OutputProblem → String
  | .empty => "path is empty"
  | .directory => "path is a directory"
  | .noFileName => "path has no file name"
  | .noParent => "parent directory does not exist"

inductive SetupError where
  | runs (n : UInt32)
  | noAlgorithms
  | filter (pattern : String)
  | output (path : String) (problem : OutputProblem)
  | tool (path : String)
  deriving DecidableEq, Repr

/-- The text of the error; what is wrong inside a pattern is not part of it. -/
def SetupError.message : SetupError → String
  | .runs n => "--runs must be at least 1 (got " ++ toString n.toNat ++ ")"
  | .noAlgorithms => "no algorithms selected"
  | .filter pattern => "invalid file filter " ++ Text.quoted pattern
  | .output path problem => "cannot use output path " ++ path ++ ": " ++ problem.reason
  | .tool path => "benchmark tool not found: " ++ path

namespace Setup

def checkOutput (t : Tree) (path : String) : Except OutputProblem Unit :=
  if path.isEmpty then .error .empty
  else if t.isDirectory path then .error .directory
  else if (Path.fileName? path).isNone then .error .noFileName
  else
    match Path.parent? path with
    | some p => if !p.isEmpty && !t.isDirectory p then .error .noParent else .ok ()
    | none => .ok ()

def filterIsValid (s : Setup) : Bool :=
  match s.filter with
  | none => true
  | some f => Pattern.isValid f

/-- The checks in their order. A tool named without a separator is not looked for. -/
def validate (s : Setup) (t : Tree) : Except SetupError Unit :=
  if s.runs == 0 then .error (.runs s.runs)
  else if s.algorithms.isEmpty then .error .noAlgorithms
  else if !s.filterIsValid then .error (.filter (s.filter.getD ""))
  else
    match checkOutput t s.output with
    | .error p => .error (.output s.output p)
    | .ok () =>
      if Path.hasSeparator s.tool && !t.isFile s.tool then .error (.tool s.tool) else .ok ()

end Setup

end CompressionSweep
