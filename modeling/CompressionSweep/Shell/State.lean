import CompressionSweep.FileTree.Save
import CompressionSweep.Shell.Command

/-! The state in which commands are run: the process with its variables and open files, and the
world that all processes share, with its files, its clock and what has been written to whoever
started the first process. Time passes only where a command waits. -/

namespace CompressionSweep.Shell

def ofBytes (b : Bytes) : String :=
  String.ofList (b.map fun x => Char.ofNat x.toNat)

def toBytes (s : String) : Bytes :=
  s.toList.map fun c => c.toNat.toUInt8

def ofText (s : String) : String := ofBytes (Text.utf8 s)

def toText (s : String) : String := Text.lossy (toBytes s)

/-- Where an open file leads. -/
inductive Target where
  | outside
  | nothing
  | zeros
  /-- Takes nothing, for want of room. -/
  | full
  | file (place : Place)
  /-- Collects what is written. -/
  | collector (id : Nat)
  /-- Gives what is there to be read. -/
  | source (id : Nat)
  deriving DecidableEq, Repr

/-- Something to be read: pieces with the times at which they come, and the time of its end, if
it has one. -/
structure Source where
  pieces : List (Nat × Bytes)
  ends : Option Nat

/-- What belongs to one process. -/
structure Process where
  id : Nat
  parent : Nat
  name : String
  arguments : List String
  parameters : List (String × String)
  exported : List String
  functions : List (String × Command)
  files : List (Nat × Target)
  home : Place
  status : Nat
  line : Nat
  failsOnError : Bool
  failsOnUnset : Bool
  expandsPatterns : Bool
  traces : Bool
  /-- Whether the failure of a command is looked at by the command around it. -/
  isTested : Bool
  traps : List (Nat × String)
  lastJob : Nat
  /-- Whether another process that waits for this one has the way outside open. -/
  isHeld : Bool

/-- A process that runs beside the one that started it. -/
structure Job where
  id : Nat
  ends : Option Nat
  status : Nat
  /-- How long it keeps the way outside open, if not forever. -/
  holds : Option Nat

/-- A call of the program that has started the first process: how it ends, what it prints, the files
it leaves behind and how long it takes. -/
structure Visit where
  status : Nat
  shown : List String
  complaints : List String
  tree : Tree
  duration : Nat

/-- That program, with its arguments, and whether what it shows can be written. -/
abbrev Owner := List String → Bool → Tree → Visit

structure World where
  tree : Tree
  owner? : Option Owner
  now : Nat
  deadline : Option Nat
  /-- A process that will get a signal at a later time. -/
  doom : Option (Nat × Nat × Nat)
  /-- What has been written outside, the last piece first. -/
  written : List (Nat × Bytes)
  /-- Until when the way outside is open, apart from jobs. -/
  held : Nat
  collectors : List (Nat × List (Nat × Bytes))
  sources : List (Nat × Source)
  jobs : List Job
  nextId : Nat
  interruptAt : Option Nat
  budget : Nat

structure State where
  process : Process
  world : World

/-- Why the rest of a command is not run. -/
inductive Stop where
  | leave (loops : Nat)
  | again (loops : Nat)
  | back
  | exit
  | killed (process signal : Nat)
  /-- Stopped from outside, or it never ends. -/
  | stuck
  deriving DecidableEq, Repr

abbrev Script := ExceptT Stop (StateM State)

namespace Script

def process : Script Process := return (← get).process

def world : Script World := return (← get).world

def modifyProcess (f : Process → Process) : Script Unit :=
  modify fun s => { s with process := f s.process }

def modifyWorld (f : World → World) : Script Unit :=
  modify fun s => { s with world := f s.world }

def setStatus (n : Nat) : Script Unit :=
  modifyProcess fun p => { p with status := n }

def stop {α : Type} (s : Stop) : Script α := throw s

/-- Runs a command and tells how it stopped, if it did. -/
def attempt (c : Script Unit) : Script (Option Stop) := fun s =>
  match c s with
  | (.ok (), s) => (.ok none, s)
  | (.error e, s) => (.ok (some e), s)

def spend (n : Nat) : Script Unit := do
  let w ← world
  if w.budget < n then stop .stuck
  else modifyWorld fun w => { w with budget := w.budget - n }

def target? (p : Process) (file : Nat) : Option Target :=
  (p.files.find? (·.1 == file)).map (·.2)

/-- Whether a process has the way outside open. -/
def holds (p : Process) : Bool :=
  p.isHeld || p.files.any (·.2 == .outside)

/-- Notes that the process keeps the way outside open up to now. -/
def noteHeld : Script Unit := do
  if holds (← process) then modifyWorld fun w => { w with held := max w.held w.now }

/-- Lets time pass up to `time`, unless something stops the process before. -/
def passTo (time : Nat) : Script Unit := do
  let w ← world
  if w.now < time then
    let p ← process
    let limit (t : Nat) : Nat := match w.deadline with | some d => min t d | none => t
    let (reached, ending) : Nat × Option Stop :=
      match w.doom with
      | some (t, id, signal) =>
        if t ≤ time && t ≤ limit time then (max t w.now, some (.killed id signal))
        else (limit time, if limit time < time then some .stuck else none)
      | none => (limit time, if limit time < time then some .stuck else none)
    modifyWorld fun w =>
      { w with now := reached, held := if holds p then max w.held reached else w.held }
    match ending with
    | some e => stop e
    | none => return

def pass (duration : Nat) : Script Unit := do
  passTo ((← world).now + duration)

def collect (id : Nat) (piece : Nat × Bytes) :
    List (Nat × List (Nat × Bytes)) → List (Nat × List (Nat × Bytes))
  | [] => []
  | (i, pieces) :: r =>
    if i == id then (i, piece :: pieces) :: r else (i, pieces) :: collect id piece r

/-- Writes bytes to an open file; tells whether that was possible. -/
def writeBytes (file : Nat) (b : Bytes) : Script Bool := do
  if b.isEmpty then return true
  spend (1 + b.length / 64)
  match target? (← process) file with
  | none | some (.source _) | some .full => return false
  | some .nothing | some .zeros => return true
  | some .outside =>
    modifyWorld fun w => { w with written := (w.now, b) :: w.written }
    return true
  | some (.file p) =>
    modifyWorld fun w => { w with tree := w.tree.appendTo p b }
    return true
  | some (.collector id) =>
    modifyWorld fun w => { w with collectors := collect id (w.now, b) w.collectors }
    return true

def write (file : Nat) (s : String) : Script Bool :=
  writeBytes file (toBytes s)

def out (s : String) : Script Unit := do
  let _ ← write 1 s

def complain (s : String) : Script Unit := do
  let _ ← write 2 (s ++ "\n")

def complainHere (message : String) : Script Unit := do
  let p ← process
  complain (p.name ++ ": " ++ toString p.line ++ ": " ++ message)

def source? (file : Nat) : Script (Option (Nat × Source)) := do
  match target? (← process) file with
  | some (.source id) =>
    return (((← world).sources.find? (·.1 == id)).map fun s => (id, s.2))
  | _ => return none

def setSource (id : Nat) (s : Source) : Script Unit :=
  modifyWorld fun w =>
    { w with sources := w.sources.map fun (i, old) => if i == id then (i, s) else (i, old) }

/-- The next piece of a file that is read; `none` at its end. -/
def readPiece (file : Nat) : Script (Option Bytes) := do
  spend 1
  match ← source? file with
  | none => return none
  | some (id, s) =>
    match s.pieces with
    | (t, b) :: rest =>
      passTo t
      setSource id { s with pieces := rest }
      return some b
    | [] =>
      match s.ends with
      | some t =>
        passTo t
        return none
      | none => stop .stuck

def readAll (fuel : Nat) (file : Nat) (acc : List Bytes) : Script Bytes := do
  match fuel with
  | 0 => stop .stuck
  | fuel + 1 =>
    match ← readPiece file with
    | none => return acc.reverse.flatten
    | some b => readAll fuel file (b :: acc)

/-- The next line of a file with its line end; empty at the end of the file. -/
def readLine (fuel : Nat) (file : Nat) (acc : List Bytes) : Script Bytes := do
  match fuel with
  | 0 => stop .stuck
  | fuel + 1 =>
    match ← readPiece file with
    | none => return acc.reverse.flatten
    | some b =>
      let rest := b.dropWhile (· != 0x0A)
      match rest with
      | [] => readLine fuel file (b :: acc)
      | _ :: rest =>
        match ← source? file with
        | some (id, s) =>
          if !rest.isEmpty then
            setSource id { s with pieces := ((← world).now, rest) :: s.pieces }
        | none => pure ()
        return (b.take (b.length - rest.length) :: acc).reverse.flatten

def newSource (s : Source) : Script Target := do
  let id := (← world).nextId
  modifyWorld fun w => { w with nextId := id + 1, sources := (id, s) :: w.sources }
  return .source id

def newCollector : Script Nat := do
  let id := (← world).nextId
  modifyWorld fun w => { w with nextId := id + 1, collectors := (id, []) :: w.collectors }
  return id

def takeCollector (id : Nat) : Script (List (Nat × Bytes)) := do
  let found := ((← world).collectors.find? (·.1 == id)).map (·.2)
  modifyWorld fun w => { w with collectors := w.collectors.filter (·.1 != id) }
  return (found.getD []).reverse

def newProcessId : Script Nat := do
  let id := (← world).nextId
  modifyWorld fun w => { w with nextId := id + 1 }
  return id

def setFile (file : Nat) (t : Option Target) (p : Process) : Process :=
  let others := p.files.filter (·.1 != file)
  { p with files := match t with | some t => (file, t) :: others | none => others }

/-- The tree as the process sees it, from its own working directory. -/
def treeHere : Script Tree := do
  let s ← get
  return { s.world.tree with home := s.process.home }

def setTree (t : Tree) : Script Unit :=
  modifyWorld fun w => { w with tree := { t with home := w.tree.home } }

def lookup (p : Process) (name : String) : Option String :=
  (p.parameters.find? (·.1 == name)).map (·.2)

def setVariable (name value : String) : Script Unit :=
  modifyProcess fun p =>
    { p with parameters := (name, value) :: p.parameters.filter (·.1 != name) }

end Script

end CompressionSweep.Shell
