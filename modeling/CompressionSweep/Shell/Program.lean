import CompressionSweep.Shell.Builtin

/-! Running programs as processes of their own: installed programs, and shells with a script. -/

namespace CompressionSweep.Shell

open Script

variable (go : Work → Script Unit)

def inheritable (p : Process) : List (String × String) :=
  p.parameters.filter (p.exported.contains ·.1)

/-- The number of the process that starts the first one. -/
def callerId : Nat := Tree.ownerId

def runShell (name : String) (options : List Char) (script : String) (arguments : List String) :
    Script Nat := do
  let outer ← process
  let id ← newProcessId
  modifyProcess fun p =>
    options.foldl (fun p c => applyOption true c p)
      { p with id, parent := outer.id, name, arguments, parameters := inheritable p, functions := []
               status := 0, line := 1, failsOnError := false, failsOnUnset := false
               expandsPatterns := true, traces := false, isTested := false
               traps := p.traps.filter (·.2 == ""), lastJob := 0
               isHeld := p.id != callerId && holds p }
  match ← attempt (go (.text script)) with
  | some (.killed process signal) =>
    modifyProcess fun _ => outer
    if process == id && outer.id != callerId then
      (signalText signal).forM complain
      return 128 + signal
    else stop (.killed process signal)
  | some .stuck =>
    modifyProcess fun _ => outer
    stop .stuck
  | _ =>
    runExitTrap go
    noteHeld
    let status := (← process).status
    modifyProcess fun _ => outer
    return status

/-- Starts a shell on what its arguments name: a text, a file or the standard input. -/
def startShell (name : String) (options : List Char) : List String → Script Nat
  | [] => do
    if options.contains 'c' then
      complain (name ++ ": 0: -c requires an argument")
      return 2
    else runShell go name options (ofBytes (← readAll Utility.maxPieces 0 [])) []
  | a :: r => do
    match a.toList with
    | ['-'] => runFirst r
    | '-' :: c :: cs =>
      if c != '-' then return ← startShell name (options ++ c :: cs) r
      else if cs.isEmpty then return ← runFirst r
      else
        complain (name ++ ": 0: Illegal option --")
        return 2
    | _ => runFirst (a :: r)
where
  /-- The arguments behind the options. -/
  runFirst (arguments : List String) : Script Nat := do
    match arguments with
    | [] => runShell go name options (ofBytes (← readAll Utility.maxPieces 0 [])) []
    | first :: r =>
      if options.contains 'c' then runShell go (r.headD name) options first (r.drop 1)
      else
        match (← treeHere).read (toText first) with
        | .error e =>
          let reason := if e == .notFound then "No such file" else e.reason
          complain (name ++ ": 0: cannot open " ++ first ++ ": " ++ reason)
          return 2
        | .ok b => runShell go first options (ofBytes b) r

def takeVariables : List String → Script (List String)
  | [] => return []
  | a :: r => do
    if a.toList.contains '=' then
      let (name, value) := splitAssignment a
      setVariable name (value.getD "")
      modifyProcess fun p => { p with exported := name :: p.exported }
      takeVariables r
    else if a == "-i" then
      modifyProcess fun p => { p with parameters := [] }
      takeVariables r
    else return a :: r

/-- Calls the program that has started the first process. What it prints comes when it ends. -/
def runOwner (owner : Owner) (arguments : List String) : Script Nat := do
  let canShow := target? (← process) 1 != some .full
  let visit := owner (arguments.map toText) canShow (← treeHere)
  pass visit.duration
  setTree visit.tree
  visit.shown.forM fun line => out (ofText (line ++ "\n"))
  visit.complaints.forM fun line => complain (ofText line)
  noteHeld
  return visit.status

def maxStarters : Nat := 20

def runExecutable (fuel : Nat) (e : Executable) : Script Nat := do
  match fuel with
  | 0 => stop .stuck
  | fuel + 1 =>
    let arguments := e.arguments.drop 1
    match e.program with
    | "sh" | "dash" | "bash" => startShell go (e.arguments.headD "sh") [] arguments
    | "env" =>
      let outer ← process
      let status ←
        match ← takeVariables arguments with
        | [] => do
          let p ← process
          out (String.join ((inheritable p).map fun (n, v) => n ++ "=" ++ v ++ "\n"))
          pure 0
        | name :: r =>
          match (← treeHere).executable (← directoriesHere) name r with
          | .ok e => runExecutable fuel e
          | .error e => do
            complain ("env: " ++ Utility.inQuotes name ++ ": " ++ e.reason)
            pure (if e == .notFound || e == .notADirectory then 127 else 126)
      modifyProcess fun p => { p with parameters := outer.parameters, exported := outer.exported }
      return status
    | name =>
      match Utility.find? name with
      | some f =>
        let status ← f arguments
        noteHeld
        return status
      | none =>
        match (← world).owner? with
        | some owner => runOwner owner arguments
        | none => return 127

/-- Runs a program and gives its status. A file that is no program is taken for a script. -/
def runProgram (name : String) (arguments : List String) : Script Nat := do
  let directories ← directoriesHere
  match (← treeHere).executable directories name arguments with
  | .ok e => runExecutable go maxStarters e
  | .error .notExecutableFormat =>
    let path := ((← treeHere).resolve directories name arguments).toOption.getD name
    match (← treeHere).read (toText path) with
    | .ok b => runShell go path [] (ofBytes b) arguments
    | .error _ => return 126
  | .error .notFound =>
    complainHere (name ++ ": not found")
    return 127
  | .error e =>
    complainHere (name ++ ": " ++ e.reason)
    return if e == .notADirectory then 127 else 126

end CompressionSweep.Shell
