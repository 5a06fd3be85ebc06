import CompressionSweep.Shell.Expansion

/-! Commands that change the shell itself: its variables, options and traps, and the signals
that it sends. -/

namespace CompressionSweep.Shell

open Script

def signals : List (String × Nat) :=
  [("EXIT", 0), ("HUP", 1), ("INT", 2), ("QUIT", 3), ("ILL", 4), ("TRAP", 5), ("ABRT", 6),
    ("BUS", 7), ("FPE", 8), ("KILL", 9), ("USR1", 10), ("SEGV", 11), ("USR2", 12), ("PIPE", 13),
    ("ALRM", 14), ("TERM", 15), ("CHLD", 17), ("CONT", 18), ("STOP", 19), ("TSTP", 20),
    ("WINCH", 28)]

def signal? (s : String) : Option Nat :=
  match Utility.number? s with
  | some n => if n < 65 then some n else none
  | none =>
    let name := if s.startsWith "SIG" then (s.drop 3).toString else s
    (signals.find? (·.1 == name)).map (·.2)

/-- What a shell prints when a command of it was ended by a signal. -/
def signalText (signal : Nat) : Option String :=
  match signal with
  | 1 => some "Hangup"
  | 3 => some "Quit"
  | 4 => some "Illegal instruction"
  | 6 => some "Aborted"
  | 7 => some "Bus error"
  | 8 => some "Floating point exception"
  | 9 => some "Killed"
  | 10 => some "User defined signal 1"
  | 11 => some "Segmentation fault"
  | 12 => some "User defined signal 2"
  | 14 => some "Alarm clock"
  | 15 => some "Terminated"
  | _ => none

def isHarmless (signal : Nat) : Bool :=
  signal == 0 || signal == 17 || signal == 18 || signal == 28

/-- Ends a job now. -/
def endJob (id signal : Nat) : Script Unit :=
  modifyWorld fun w =>
    { w with jobs := w.jobs.map fun j =>
        let isOver := match j.ends with | some t => t ≤ w.now | none => false
        if j.id == id && !isOver then
          { j with ends := some w.now, status := 128 + signal
                   holds := some (match j.holds with | some t => min t w.now | none => w.now) }
        else j }

def numberArgument (program : String) (standard : Nat) (arguments : List String) : Script Nat := do
  match arguments with
  | [] => return standard
  | a :: _ =>
    match Utility.number? a with
    | some n => return n
    | none => fatal (program ++ ": Illegal number: " ++ a)

def changeDirectory (arguments : List String) : Script Nat := do
  let path := match arguments.filter (· != "--") with | [] => "/" | a :: _ => a
  match (← treeHere).stat (toText path) with
  | .ok (p, .directory) =>
    modifyProcess fun q => { q with home := p }
    return 0
  | _ =>
    complainHere ("cd: can't cd to " ++ path)
    return 2

def splitAssignment (s : String) : String × Option String :=
  let name := String.ofList (s.toList.takeWhile (· != '='))
  (name, if name.length < s.length then some (s.drop (name.length + 1)).toString else none)

def exportAll (arguments : List String) : Script Nat := do
  for a in arguments do
    if !a.startsWith "-" then
      let (name, value) := splitAssignment a
      match value with
      | some v => setVariable name v
      | none => pure ()
      modifyProcess fun p => { p with exported := name :: p.exported.filter (· != name) }
  return 0

def declare (arguments : List String) : Script Nat := do
  for a in arguments do
    let (name, value) := splitAssignment a
    match value with
    | some v => setVariable name v
    | none => pure ()
  return 0

def unset (arguments : List String) : Script Nat := do
  for a in arguments do
    modifyProcess fun p =>
      { p with parameters := p.parameters.filter (·.1 != a)
               functions := if arguments.contains "-f" then p.functions.filter (·.1 != a)
                 else p.functions }
  return 0

def applyOption (on : Bool) (letter : Char) (p : Process) : Process :=
  match letter with
  | 'e' => { p with failsOnError := on }
  | 'u' => { p with failsOnUnset := on }
  | 'f' => { p with expandsPatterns := !on }
  | 'x' => { p with traces := on }
  | _ => p

def setOptions (fuel : Nat) (arguments : List String) : Script Nat := do
  match fuel, arguments with
  | 0, _ | _, [] => return 0
  | _, "--" :: r =>
    modifyProcess fun p => { p with arguments := r }
    return 0
  | fuel + 1, a :: r =>
    match a.toList with
    | '-' :: c :: cs =>
      modifyProcess fun p => (c :: cs).foldl (fun p c => applyOption true c p) p
      setOptions fuel r
    | '+' :: c :: cs =>
      modifyProcess fun p => (c :: cs).foldl (fun p c => applyOption false c p) p
      setOptions fuel r
    | _ =>
      modifyProcess fun p => { p with arguments := a :: r }
      return 0

def shift (arguments : List String) : Script Nat := do
  let n ← numberArgument "shift" 1 arguments
  if (← process).arguments.length < n then fatal "shift: can't shift that many"
  modifyProcess fun p => { p with arguments := p.arguments.drop n }
  return 0

/-- Resolves backslashes in a line; one in front of the line end joins the next line. -/
def dropBackslashes : List Char → List Char
  | '\\' :: c :: r => c :: dropBackslashes r
  | c :: r => c :: dropBackslashes r
  | [] => []

/-- Gives the fields of a line to variables, the last of which gets all that is left. -/
def assignFields (isSeparator : Char → Bool) : List String → List Char → Script Unit
  | [], _ => return
  | [name], cs => setVariable name (String.ofList (Text.trimEndList isSeparator cs))
  | name :: names, cs => do
    let field := cs.takeWhile (!isSeparator ·)
    setVariable name (String.ofList field)
    assignFields isSeparator names ((cs.drop field.length).dropWhile isSeparator)

def readVariables (arguments : List String) : Script Nat := do
  let raw := arguments.contains "-r"
  let names := arguments.filter (!·.startsWith "-")
  let line := ofBytes (← readLine Utility.maxPieces 0 [])
  let complete := line.endsWith "\n"
  let cs := (if complete then (line.dropEnd 1).toString else line).toList
  let cs := if raw then cs else dropBackslashes cs
  let seps ← separators
  assignFields (seps.contains ·) (if names.isEmpty then ["REPLY"] else names)
    (cs.dropWhile (seps.contains ·))
  return if complete then 0 else 1

def wait (arguments : List String) : Script Nat := do
  let jobs := (← world).jobs
  let ids := arguments.filterMap Utility.number?
  let chosen := if arguments.isEmpty then jobs else jobs.filter (ids.contains ·.id)
  for j in chosen do
    match j.ends with
    | some t => passTo t
    | none =>
      passTo (((← world).deadline).getD (← world).now)
      stop .stuck
  if arguments.isEmpty then return 0
  match chosen.getLast? with
  | some j => return j.status
  | none => return 127

def setTraps (arguments : List String) : Script Nat := do
  match arguments.filter (· != "--") with
  | [] => return 0
  | action :: names =>
    for name in names do
      match signal? name with
      | none => complainHere ("trap: " ++ name ++ ": bad trap")
      | some n =>
        modifyProcess fun p =>
          let others := p.traps.filter (·.1 != n)
          { p with traps := if action == "-" then others else (n, action) :: others }
    return 0

/-- The signal of a `kill`, and the processes it goes to. -/
def killArguments (arguments : List String) : Option Nat × List String :=
  match arguments with
  | "-s" :: name :: r => (signal? name, if r.head? == some "--" then r.tail else r)
  | "--" :: r => (some 15, r)
  | a :: r =>
    match a.toList with
    | '-' :: cs => (signal? (String.ofList cs), if r.head? == some "--" then r.tail else r)
    | _ => (some 15, a :: r)
  | [] => (some 15, [])

def describe (verbose : Bool) (names : List String) : Script Nat := do
  let t ← treeHere
  let directories ← directoriesHere
  let mut status := 0
  for name in names do
    match t.resolve directories name [], t.executable directories name [] with
    | .ok path, .ok _ => out ((if verbose then name ++ " is " else "") ++ path ++ "\n")
    | _, _ =>
      if verbose then out (name ++ ": not found\n")
      status := 127
  return status

def killSelf (go : Work → Script Unit) (signal : Nat) : Script Unit := do
  let p ← process
  if signal == 9 then stop (.killed p.id signal)
  else
    match p.traps.find? (·.1 == signal) with
    | some (_, action) =>
      go (.text action)
      setStatus p.status
    | none =>
      if signal == 19 then
        passTo (((← world).deadline).getD (← world).now)
        stop .stuck
      else if !isHarmless signal then stop (.killed p.id signal)

/-- Sends a signal to a process; tells whether that is there. -/
def killOne (go : Work → Script Unit) (signal : Nat) (target : String) : Script Bool := do
  let p ← process
  let own := toString p.id
  if target == own || target == "0" || target == "-" ++ own then
    killSelf go signal
    return true
  else if target == toString p.parent then
    if signal == 2 then
      modifyWorld fun w => { w with interruptAt := some (w.interruptAt.getD w.now) }
    return true
  else if (← world).jobs.any (fun j => toString j.id == target) then
    if signal != 0 then endJob ((Utility.number? target).getD 0) signal
    return true
  else
    complainHere "kill: No such process\n"
    return false

def kill (go : Work → Script Unit) (arguments : List String) : Script Nat := do
  if arguments.head? == some "-l" then return 0
  match killArguments arguments with
  | (none, _) => fatal "kill: bad signal"
  | (some signal, targets) =>
    let found ← targets.mapM (killOne go signal)
    return if found.all id then 0 else 1

end CompressionSweep.Shell
