import CompressionSweep.Call.Launch
import CompressionSweep.CommandLine.Command
import CompressionSweep.Measurement.Line
import CompressionSweep.Report.Table
import CompressionSweep.Store
import CompressionSweep.Sweep

/-! The program from its command line to its exit code. Only a setup that is refused makes a
sweep fail; whatever happens afterwards, the measurements that have been made are kept. A line
of the tool that cannot be shown any more is the exception: it ends the program at once. -/

namespace CompressionSweep

/-- What a program reports when it fails: what it could not do, and why. -/
structure Failure where
  message : String
  causes : List String
  /-- Whether the causes are shown with numbers, because there are more of them. -/
  numbered : Bool
  deriving DecidableEq, Repr

namespace Failure

def causeLine (numbered : Bool) (index : Nat) (cause : String) : String :=
  if numbered then "    " ++ toString index ++ ": " ++ cause else "    " ++ cause

def lines (f : Failure) : List String :=
  ("Error: " ++ f.message) ::
    if f.causes.isEmpty then []
    else ["", "Caused by:"] ++ f.causes.mapIdx (causeLine f.numbered)

/-- A setup that is refused; what is wrong inside a pattern would be a further cause. -/
def ofSetup (e : SetupError) : Failure :=
  ⟨"invalid sweep setup", [e.message], match e with | .filter _ => true | _ => false⟩

def ofLoad (e : LoadError) : Failure :=
  ⟨e.message, [e.cause], false⟩

def notFound (path : String) : Failure :=
  ⟨"results file not found: " ++ path, [], false⟩

def output (e : FileError) : Failure :=
  ⟨e.message, [], false⟩

end Failure

/-- How the program ends: as it should, with a failure, because of its command line, or by a
line that could not be shown. -/
inductive Exit where
  | success
  | failure (f : Failure)
  | usage (e : UsageError)
  | crash
  deriving DecidableEq, Repr

def Exit.code : Exit → Nat
  | .success | .usage .help => 0
  | .failure _ => 1
  | .usage _ => 2
  | .crash => 101

/-- The outside of the program: what a call of a tool answers and does to the files, which steps
of the next write fail, and whether the next line can be shown. -/
structure Outside (ω : Type) where
  call : Invocation → Option Nat → Tree → ω → Response × Tree × ω
  faults : ω → Faults × ω
  show? : ω → Bool × ω

namespace Program

variable {ω : Type}

/-- What has become of the files and of the standard output. -/
structure Scene (ω : Type) where
  tree : Tree
  outside : ω
  /-- The lines that have been shown, the last one first. -/
  shown : List String
  /-- After a line that could not be shown: how many measurements in front of it are still to be
  written. -/
  crashed : Option Nat

/-- Shows lines up to one that cannot be shown; tells how many could. -/
def showLines (o : Outside ω) : List String → Scene ω → Nat × Scene ω
  | [], s => (0, s)
  | line :: lines, s =>
    match o.show? s.outside with
    | (true, outside) =>
      let (n, s) := showLines o lines { s with outside, shown := line :: s.shown }
      (n + 1, s)
    | (false, outside) => (0, { s with outside })

/-- What is heard of a call of whose lines `n` could be shown: all of it, or nothing after them. -/
def heard (response : Response) (n : Nat) (s : Scene ω) : Response × Scene ω :=
  if n = response.lines.length then (response, s)
  else
    let lines := response.lines.take n
    (⟨lines, .failed .interrupted⟩,
      { s with crashed := some (lines.filterMap Line.measurement?).length })

/-- A call of the tool with its lines shown. After a crash nothing is called any more. -/
def answer (o : Outside ω) (limit : Option Nat) (i : Invocation) (s : Scene ω) :
    Response × Scene ω :=
  if s.crashed.isSome then (⟨[], .failed .interrupted⟩, s)
  else
    let (response, tree, outside) := o.call i limit s.tree s.outside
    let (n, s) := showLines o response.lines { s with tree, outside }
    heard response n s

def write (o : Outside ω) (path : String) (d : Document) (s : Scene ω) : Bool × Scene ω :=
  let (faults, outside) := o.faults s.outside
  let (result, tree) := (⟨d, some path⟩ : Store).flush faults s.tree
  (result.toBool, { s with tree, outside })

/-- Writes the document, unless the program has crashed before it would have got to this. -/
def persist (o : Outside ω) (path : String) (d : Document) (s : Scene ω) : Bool × Scene ω :=
  match s.crashed with
  | none => write o path d s
  | some 0 => (true, s)
  | some (n + 1) => write o path d { s with crashed := some n }

def setup (c : SweepOptions) : Setup :=
  { tool := c.tool
    configuration := c.configuration
    runs := c.runs
    filter := if c.small then some Setup.smallFilter else c.filter
    baseline := c.baseline
    algorithms := if c.algorithms.isEmpty then Algorithm.all else c.algorithms
    output := c.output
    limit := c.timeoutSeconds.map (·.toNat * 1000000000) }

def surroundings (o : Outside ω) (s : Setup) : Surroundings (Scene ω) where
  answer := answer o s.limit
  persist := persist o s.output
  extract := Line.measurement?

/-- The end of a program whose sweep is over, with a report that may come to nothing. -/
def conclude (o : Outside ω) (s : Setup) (withReport : Bool) (outcome : Outcome) (d : Document)
    (w : Scene ω) : Exit × Scene ω :=
  if w.crashed.isSome then (.crash, w)
  else if withReport && !outcome.interrupted then
    let c := Comparison.build d s.baseline.name s.algorithms
    (.success, (showLines o (Report.lines d c true false) w).2)
  else (.success, w)

/-- A sweep that has been accepted. -/
def sweep (o : Outside ω) (timestamp : String) (s : Setup) (withReport : Bool) (w : Scene ω) :
    Exit × Scene ω :=
  let (outcome, d, w) := Sweep.run (surroundings o s) s (s.document timestamp) w
  conclude o s withReport outcome d w

def report (o : Outside ω) (c : ReportOptions) (w : Scene ω) : Exit × Scene ω :=
  match Store.load w.tree c.input with
  | .error e => (.failure (Failure.ofLoad e), w)
  | .ok none => (.failure (Failure.notFound c.input), w)
  | .ok (some d) =>
    let baseline := match c.baseline with | some b => b.name | none => d.baseline
    let lines := Report.lines d (Comparison.build d baseline Algorithm.all) c.individual c.perFile
    let (n, w) := showLines o lines w
    if n = lines.length then (.success, w)
    else (.failure (Failure.output .brokenPipe), w)

def run (o : Outside ω) (timestamp : String) (arguments : List String) (t : Tree) (outside : ω) :
    Exit × Scene ω :=
  let w : Scene ω := ⟨t, outside, [], none⟩
  match Command.ofArguments arguments with
  | .error e => (.usage e, w)
  | .ok (.report c) => report o c w
  | .ok (.sweep c) =>
    match (setup c).validate t with
    | .error e => (.failure (Failure.ofSetup e), w)
    | .ok () => sweep o timestamp (setup c) (!c.noReport) w

end Program

/-- The outside as far as the files decide it: nothing fails for other reasons, apart from lines that
have nowhere to go. Of the time that calls take, `pass` tells what becomes. -/
def Outside.ofFilesFrom {ω : Type} (owner? : Option Shell.Owner) (canShow : Bool)
    (pass : Nat → ω → ω) : Outside ω where
  call := fun i limit t w =>
    let (response, t, duration) := Call.callFrom owner? t i limit .never
    (response, t, pass duration w)
  faults := fun w => (Faults.none, w)
  show? := fun w => (canShow, w)

/-- The program as the tools that it calls can call it in turn, up to a depth. -/
def Program.owner? (timestamp : String) : Nat → Option Shell.Owner
  | 0 => none
  | depth + 1 => some fun arguments canShow t =>
    let o := Outside.ofFilesFrom (owner? timestamp depth) canShow (· + ·)
    let (exit, w) := Program.run o timestamp arguments t 0
    { status := exit.code
      shown := w.shown.reverse
      complaints := match exit with | .failure f => f.lines | _ => []
      tree := w.tree
      duration := w.outside }

/-- How often a program may call itself before that counts as a program that is not there. -/
def Program.maxDepth : Nat := 4

def Outside.ofFilesAt (timestamp : String) : Outside Unit :=
  .ofFilesFrom (Program.owner? timestamp Program.maxDepth) true (fun _ w => w)

/-- The outside when it does not matter at what time programs begin that are called inside. -/
def Outside.ofFiles : Outside Unit :=
  .ofFilesAt "2025-01-01T00:00:00.000000+00:00"

end CompressionSweep
