import CompressionSweep.Shell.Program
import CompressionSweep.Shell.Redirect

/-! Running commands of the shell. Each function here runs one form of command and leaves what
is inside it to `go`, which is the whole shell one level deeper. -/

namespace CompressionSweep.Shell

open Script

variable (go : Work → Script Unit)

/-- Ends the process after a failure that nothing looks at, if it is to. -/
def checkFailure : Script Unit := do
  let p ← process
  if p.failsOnError && !p.isTested && p.status != 0 then stop .exit

def runTested (c : Command) : Script Unit := do
  let before := (← process).isTested
  modifyProcess fun p => { p with isTested := true }
  go (.command c)
  modifyProcess fun p => { p with isTested := before }

/-! Simple commands. -/

/-- Runs one of the commands that belong to the shell itself, if it is one. -/
def special? (name : String) (arguments : List String) : Script (Option Nat) := do
  match name with
  | ":" | "true" | "umask" | "ulimit" | "hash" | "alias" => return some 0
  | "false" => return some 1
  | "echo" => return some (← Utility.echo arguments)
  | "cd" => return some (← changeDirectory arguments)
  | "export" => return some (← exportAll arguments)
  | "local" | "readonly" => return some (← declare arguments)
  | "unset" => return some (← unset arguments)
  | "set" => return some (← setOptions (arguments.length + 1) arguments)
  | "shift" => return some (← shift arguments)
  | "read" => return some (← readVariables arguments)
  | "wait" => return some (← wait arguments)
  | "trap" => return some (← setTraps arguments)
  | "type" => return some (← describe true arguments)
  | "kill" => return some (← kill go arguments)
  | "break" => stop (.leave (← numberArgument "break" 1 arguments))
  | "continue" => stop (.again (← numberArgument "continue" 1 arguments))
  | "return" =>
    setStatus ((← numberArgument "return" (← process).status arguments) % 256)
    stop .back
  | "exit" =>
    setStatus ((← numberArgument "exit" (← process).status arguments) % 256)
    stop .exit
  | "eval" =>
    go (.text (String.intercalate " " arguments))
    return some (← process).status
  | "." =>
    match (← treeHere).read (toText (arguments.headD "")) with
    | .error _ => fatal (".: cannot open " ++ arguments.headD "" ++ ": No such file")
    | .ok b =>
      go (.text (ofBytes b))
      return some (← process).status
  | "exec" =>
    match arguments with
    | [] => return some 0
    | name :: r =>
      modifyProcess fun p => { p with isHeld := false }
      setStatus (← runProgram go name r)
      modifyProcess fun p => { p with traps := [] }
      stop .exit
  | _ => return none

def runNamed (name : String) (arguments : List String) : Script Nat := do
  match ← special? go name arguments with
  | some status => return status
  | none => runProgram go name arguments

def callFunction (body : Command) (arguments : List String) : Script Unit := do
  let outer := (← process).arguments
  modifyProcess fun p => { p with arguments }
  let ending ← attempt (go (.command body))
  modifyProcess fun p => { p with arguments := outer }
  match ending with
  | some .back | none => return
  | some e => stop e

def isPersistent (name : String) : Bool :=
  [":", ".", "break", "continue", "eval", "exec", "exit", "export", "readonly", "return", "set",
    "shift", "trap", "unset"].contains name

/-- Runs a command with its arguments after the given variables have been set for it. -/
def runSimple (assignments : List (String × Word)) (words : List Word) : Script Unit := do
  if words.isEmpty then setStatus 0
  let fields ← expandAll go words
  let outer ← process
  let values ← assignments.mapM fun (name, w) => do
    let value ← expandText go w
    setVariable name value
    return name ++ "=" ++ value
  if outer.traces then complain ("+ " ++ String.intercalate " " (values ++ fields))
  match fields with
  | [] => return
  | name :: arguments =>
    if !assignments.isEmpty then
      modifyProcess fun p => { p with exported := assignments.map (·.1) ++ p.exported }
    match outer.functions.find? (·.1 == name) with
    | some (_, body) => callFunction go body arguments
    | none =>
      match name, arguments with
      | "command", [] => setStatus 0
      | "command", "-v" :: names => setStatus (← describe false names)
      | "command", name :: r => setStatus (← runNamed go name r)
      | _, _ => setStatus (← runNamed go name arguments)
    if !assignments.isEmpty && !isPersistent name then
      modifyProcess fun p => { p with parameters := outer.parameters, exported := outer.exported }

def isExec (c : Command) : Bool :=
  match c with
  | .simple _ _ ([.text "exec" false] :: _) => true
  | _ => false

/-- Runs a command with files opened for it, or for good with `exec`. -/
def runRedirected (c : Command) (rs : List Redirection) : Script Unit := do
  let outer ← process
  if isExec c then
    if ← redirect go rs then go (.command c)
    else
      setStatus 2
      stop .exit
  else
    modifyProcess fun p => { p with isHeld := holds p }
    let restore : Script Unit :=
      modifyProcess fun p => { p with files := outer.files, isHeld := outer.isHeld }
    if ← redirect go rs then
      let ending ← attempt (go (.command c))
      restore
      match ending with
      | some e => stop e
      | none => return
    else
      restore
      setStatus 2
      checkFailure

/-! Compound commands. -/

def runAll (cs : List Command) : Script Unit :=
  cs.forM fun c => go (.command c)

def runBranches (otherwise : Option Command) : List (Command × Command) → Script Unit
  | [] =>
    match otherwise with
    | some c => go (.command c)
    | none => setStatus 0
  | (condition, body) :: r => do
    runTested go condition
    if (← process).status == 0 then go (.command body) else runBranches otherwise r

/-- How a round of a loop goes on. -/
inductive Round where
  | next
  | over

/-- Runs a part of a loop; a jump that means an outer loop goes on to there. -/
def inRound (c : Script Unit) (ended : Script Round) : Script Round := do
  match ← attempt c with
  | none => ended
  | some (.leave n) =>
    if 1 < n then stop (.leave (n - 1))
    else
      setStatus 0
      return .over
  | some (.again n) =>
    if 1 < n then stop (.again (n - 1))
    else
      setStatus 0
      return .next
  | some e => stop e

/-- Repeats a body until the condition comes out as `endsOn`; `last` is the status of the body
before. -/
def runLoop (fuel : Nat) (endsOn : Bool) (condition body : Command) (last : Nat) :
    Script Unit := do
  match fuel with
  | 0 => stop .stuck
  | fuel + 1 =>
    let round ← inRound (runTested go condition) (do
      if ((← process).status == 0) == endsOn then
        setStatus last
        return .over
      else inRound (go (.command body)) (return .next))
    match round with
    | .over => return
    | .next => runLoop fuel endsOn condition body (← process).status

def runForEach (name : String) (body : Command) : List String → Script Unit
  | [] => return
  | w :: r => do
    spend 1
    setVariable name w
    match ← inRound (go (.command body)) (return .next) with
    | .over => return
    | .next => runForEach name body r

def fitsAny (s : List Char) : List Word → Script Bool
  | [] => return false
  | w :: r => do
    let f := Item.characters (← expand go w)
    if Glob.fits (Glob.ofChars (f.length + 1) f) s then return true else fitsAny s r

def runChoice (s : List Char) : List (List Word × Command) → Script Unit
  | [] => setStatus 0
  | (patterns, body) :: r => do
    if ← fitsAny go s patterns then go (.command body) else runChoice s r

/-! Commands side by side. -/

/-- What the shell may still spend after a part of it has come to nothing. -/
def reserve : Nat := 20000

def readFrom : Option Target → Script Unit
  | some t => modifyProcess (setFile 0 (some t))
  | none => pure ()

/-- Runs commands that read each other's output. All begin at `start`, the ones before have ended
at `latest`, and the last one gives the status. -/
def runPipeline (start latest : Nat) (input : Option Target) : List Command → Script Unit
  | [] => return
  | [c] => do
    modifyWorld fun w => { w with now := start }
    setStatus (← inSubshell go (do
      readFrom input
      go (.command c)))
    passTo latest
  | c :: r => do
    modifyWorld fun w => { w with now := start }
    let id ← newCollector
    let outer ← process
    let ending ← attempt (do
      let _ ← inSubshell go (do
        readFrom input
        modifyProcess (setFile 1 (some (.collector id)))
        go (.command c)))
    modifyProcess fun _ => outer
    let now := (← world).now
    let pieces ← takeCollector id
    match ending with
    | none => runPipeline start (max latest now) (some (← newSource ⟨pieces, some now⟩)) r
    | some .stuck =>
      modifyWorld fun w => { w with budget := max w.budget reserve }
      runPipeline start latest (some (← newSource ⟨pieces, none⟩)) r
      if pieces.isEmpty then stop .stuck
    | some e => stop e

/-- Starts a command and goes on without waiting for it. -/
def runBeside (c : Command) : Script Unit := do
  let outer ← get
  let id ← newProcessId
  let input ← newSource ⟨[], some outer.world.now⟩
  modifyProcess fun p => setFile 0 (some input) { p with isHeld := false }
  modifyWorld fun w => { w with held := w.now }
  let ending ← attempt (do
    setStatus (← inSubshell go (do
      modifyProcess fun p => { p with isHeld := false }
      match c with
      | .redirected _ c rs => if ← redirect go rs then go (.command c) else setStatus 2
      | c => go (.command c))))
  let s ← get
  let isOver := ending.isNone
  let job : Job :=
    { id
      ends := if isOver then some s.world.now else none
      status := s.process.status
      holds :=
        if isOver then some s.world.held
        else if holds { outer.process with isHeld := false } then none
        else some outer.world.now }
  modify fun s => { s with process := { outer.process with lastJob := id, status := 0 } }
  modifyWorld fun w =>
    { w with now := outer.world.now, held := outer.world.held, jobs := job :: w.jobs
             doom :=
               match ending with
               | some (.killed process signal) => some (s.world.now, process, signal)
               | _ => w.doom
             budget := if ending == some .stuck then max w.budget reserve else w.budget }

/-! The shell. -/

/-- The most rounds of a loop. -/
def maxRounds : Nat := 10000000

def runCommand (c : Command) : Script Unit := do
  spend 1
  match c with
  | .simple line assignments words =>
    modifyProcess fun p => { p with line }
    runSimple go assignments words
    checkFailure
  | .redirected line c rs =>
    modifyProcess fun p => { p with line }
    runRedirected go c rs
  | .sequence cs => if cs.isEmpty then setStatus 0 else runAll go cs
  | .both a b =>
    runTested go a
    if (← process).status == 0 then go (.command b)
  | .either a b =>
    runTested go a
    if (← process).status != 0 then go (.command b)
  | .pipeline negated parts =>
    match negated, parts with
    | true, [c] => runTested go c
    | _, parts =>
      let now := (← world).now
      runPipeline go now now none parts
    if negated then
      modifyProcess fun p => { p with status := if p.status == 0 then 1 else 0 }
    else checkFailure
  | .background c => runBeside go c
  | .subshell c =>
    setStatus (← inSubshell go (go (.command c)))
    checkFailure
  | .conditional branches otherwise => runBranches go otherwise branches
  | .loop endsOn condition body => runLoop go maxRounds endsOn condition body 0
  | .forEach name words body =>
    let ws ←
      match words with
      | some ws => expandAll go ws
      | none => pure (← process).arguments
    setStatus 0
    runForEach go name body ws
  | .choice w clauses => runChoice go (← expandText go w).toList clauses
  | .define name body =>
    modifyProcess fun p =>
      { p with functions := (name, body) :: p.functions.filter (·.1 != name), status := 0 }

/-- Reads a script and runs it, line by line up to where it is malformed. -/
def runText (script : String) : Script Unit := do
  let (lines, failure) := readScript script
  lines.forM (runAll go)
  match failure with
  | none => return
  | some e =>
    modifyProcess fun p => { p with line := e.line }
    fatal e.message

/-- Runs a piece of work. Commands may stand within each other up to a depth. -/
def perform : Nat → Work → Script Unit
  | 0, _ => stop .stuck
  | depth + 1, .command c => runCommand (perform depth) c
  | depth + 1, .text s => runText (perform depth) s

def depthLimit : Nat := 600

end CompressionSweep.Shell
