import CompressionSweep.CommandLine.Options
import CompressionSweep.Setup

/-! The two commands, `sweep` and `report`, as they are given on the command line. -/

namespace CompressionSweep

/-- Runs the benchmark tool and files what it measures. -/
structure SweepOptions where
  runs : UInt32
  output : String
  filter : Option String
  small : Bool
  baseline : Algorithm
  algorithms : List Algorithm
  tool : String
  configuration : String
  timeoutSeconds : Option UInt64
  noReport : Bool
  deriving DecidableEq, Repr

/-- Prints the tables of a document that is there already. -/
structure ReportOptions where
  input : String
  baseline : Option Algorithm
  perFile : Bool
  individual : Bool
  deriving DecidableEq, Repr

inductive Command where
  | sweep (options : SweepOptions)
  | report (options : ReportOptions)
  deriving DecidableEq, Repr

namespace CommandLine

inductive Key where
  | runs
  | output
  | filter
  | small
  | baseline
  | algorithm
  | tool
  | configuration
  | timeout
  | noReport
  | input
  | perFile
  | individual
  | help
  deriving DecidableEq, Repr

/-- The value of a run of ASCII digits, at least one. -/
def digits? (cs : List Char) : Option Nat :=
  if cs.isEmpty || !cs.all Text.isAsciiDigit then none
  else some (cs.foldl (fun n c => n * 10 + (c.toNat - 48)) 0)

/-- A number below `2 ^ 32`. A sign may stand before it, so that zero may be written `-0`. -/
def u32? (s : String) : Option UInt32 :=
  let n :=
    match s.toList with
    | '-' :: cs => (digits? cs).filter (· = 0)
    | '+' :: cs => digits? cs
    | cs => digits? cs
  (n.filter (· < UInt32.size)).map (·.toUInt32)

/-- A number below `2 ^ 64`. A plus sign may stand before it. -/
def u64? (s : String) : Option UInt64 :=
  let n :=
    match s.toList with
    | '+' :: cs => digits? cs
    | cs => digits? cs
  (n.filter (· < UInt64.size)).map (·.toUInt64)

def require {α : Type} (e : UsageError) : Option α → Except UsageError Unit
  | some _ => .ok ()
  | none => .error e

def anyText (_ : String) : Except UsageError Unit := .ok ()

def path (s : String) : Except UsageError Unit :=
  if s.isEmpty then .error .invalidValue else .ok ()

def algorithmName (s : String) : Except UsageError Unit :=
  require .invalidValue (Algorithm.ofName? s)

def flag (key : Key) (letter : Option Char) (name : String) : OptionForm Key :=
  ⟨key, letter, name, false, .refused, anyText⟩

def single (key : Key) (letter : Option Char) (name : String)
    (check : String → Except UsageError Unit) : OptionForm Key :=
  ⟨key, letter, name, true, .refused, check⟩

def helpFlag : OptionForm Key :=
  ⟨.help, some 'h', "help", false, .collected, fun _ => .error .help⟩

def sweepForms : List (OptionForm Key) :=
  [single .runs (some 'r') "runs" (fun s => require .invalidNumber (u32? s)),
    single .output (some 'o') "output" path,
    single .filter (some 'f') "filter-regex" anyText,
    flag .small (some 's') "small",
    single .baseline (some 'b') "baseline" algorithmName,
    { single .algorithm (some 'a') "algorithm" algorithmName with repeats := .collected },
    single .tool none "tool" path,
    single .configuration none "configuration" anyText,
    single .timeout none "timeout-secs" (fun s => require .invalidNumber (u64? s)),
    flag .noReport none "no-report",
    helpFlag]

def reportForms : List (OptionForm Key) :=
  [single .input (some 'i') "input" path,
    single .baseline (some 'b') "baseline" algorithmName,
    flag .perFile none "per-file",
    flag .individual none "individual",
    helpFlag]

def value? (given : List (Key × String)) (key : Key) : Option String :=
  (given.find? (·.1 == key)).map (·.2)

def isGiven (given : List (Key × String)) (key : Key) : Bool :=
  (value? given key).isSome

def algorithm? (given : List (Key × String)) (key : Key) : Option Algorithm :=
  (value? given key).bind Algorithm.ofName?

def sweepOptions (given : List (Key × String)) : SweepOptions :=
  { runs := ((value? given .runs).bind u32?).getD Setup.standardRuns
    output := (value? given .output).getD Setup.standardOutput
    filter := value? given .filter
    small := isGiven given .small
    baseline := (algorithm? given .baseline).getD .standard
    algorithms := (given.filter (·.1 == .algorithm)).filterMap (Algorithm.ofName? ·.2)
    tool := (value? given .tool).getD Setup.standardTool
    configuration := (value? given .configuration).getD Setup.standardConfiguration
    timeoutSeconds := (value? given .timeout).bind u64?
    noReport := isGiven given .noReport }

def reportOptions (given : List (Key × String)) : ReportOptions :=
  { input := (value? given .input).getD Setup.standardOutput
    baseline := algorithm? given .baseline
    perFile := isGiven given .perFile
    individual := isGiven given .individual }

/-- A filter is either given or the one for the small files. -/
def readSweep (arguments : List String) : Except UsageError Command := do
  let given ← Options.read sweepForms arguments
  if isGiven given .small && isGiven given .filter then throw .conflict
  return .sweep (sweepOptions given)

def readReport (arguments : List String) : Except UsageError Command := do
  return .report (reportOptions (← Options.read reportForms arguments))

def isCommandName (s : String) : Bool :=
  s == "sweep" || s == "report" || s == "help"

/-- Help on a command, or on the help itself. -/
def readHelp : List String → UsageError
  | [] => .help
  | [name] => if isCommandName name then .help else .unknownCommand
  | _ => .unknownCommand

/-- What is wrong with a command line that does not begin with a command. -/
def withoutCommand (argument : String) (rest : List String) : UsageError :=
  match argument.toList with
  | ['-', '-'] =>
    match rest with
    | [] => .noCommand
    | next :: _ => if isCommandName next then .unknownArgument else .unknownCommand
  | '-' :: '-' :: cs =>
    match Options.splitValue cs with
    | (name, value) =>
      if name != "help".toList then .unknownArgument
      else if value.isSome then .unwantedValue
      else .help
  | '-' :: c :: _ => if c == 'h' then .help else .unknownArgument
  | _ => .unknownCommand

end CommandLine

def Command.ofArguments : List String → Except UsageError Command
  | [] => .error .noCommand
  | "sweep" :: arguments => CommandLine.readSweep arguments
  | "report" :: arguments => CommandLine.readReport arguments
  | "help" :: arguments => .error (CommandLine.readHelp arguments)
  | argument :: rest => .error (CommandLine.withoutCommand argument rest)

end CompressionSweep
