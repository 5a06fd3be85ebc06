import CompressionSweep.FileTree.Basic

/-! Replacing a file as a whole: the new content goes to a temporary file in the same directory,
which then takes the name of the old one. Each step may fail, a write also after a part of it; the
temporary file is then taken away, and the target is as it was. -/

namespace CompressionSweep

namespace Tree

/-- The names that come after `p` in the places of the tree. -/
def namesAfter (t : Tree) (p : Place) : List String :=
  (t.entries.filter (fun e => p.isPrefixOf e.1)).filterMap (fun e => e.1[p.length]?)

def temporaryName (n : Nat) : String :=
  ".tmp" ++ String.ofList (List.replicate n 'x')

/-- A name in `p` that is not taken. -/
def freeName (t : Tree) (p : Place) : String :=
  let taken := t.namesAfter p
  temporaryName (((List.range (taken.length + 1)).find?
    (fun n => !taken.contains (temporaryName n))).getD (taken.length + 1))

/-- The whole path of a temporary file in `directory`, whose own name always has ten bytes. -/
def temporaryPath (t : Tree) (directory : String) : String :=
  let home := String.join (t.home.map ("/" ++ ·)) ++ "/"
  (if Path.isAbsolute directory then "" else home) ++ directory ++ "/.tmpxxxxxx"

def createTemporary (t : Tree) (directory : String) : Except FileError (Tree × Place) := do
  checkPath (t.temporaryPath directory)
  let (p, e) ← t.stat directory
  if e == .directory then
    let q := p ++ [t.freeName p]
    .ok (t.put q (.file [] false), q)
  else .error .notADirectory

def appendTo (t : Tree) (p : Place) (more : Bytes) : Tree :=
  match t.entry? p with
  | some (.file content x) => t.put p (.file (content ++ more) x)
  | _ => t

/-- Gives the file at `p` the name `path`, in place of a file that has it. -/
def moveTo (t : Tree) (p : Place) (path : String) : Except FileError Tree := do
  match ← t.locate path with
  | (_, none) => .error .busy
  | (directory, some name) =>
    let q := directory ++ [name]
    if maxNameBytes < name.utf8ByteSize then .error .nameTooLong
    else if Path.endsInSeparator path then .error .notADirectory
    else
      match t.entry? q, t.entry? p with
      | some .directory, _ => .error .isADirectory
      | _, some e => .ok ((t.remove p).put q e)
      | _, none => .error .notFound

end Tree

/-- The steps of a save, in their order. -/
inductive SaveStep where
  | create
  | writeText
  | writeEnd
  | sync
  | rename
  deriving DecidableEq, Repr

def SaveStep.all : List SaveStep := [.create, .writeText, .writeEnd, .sync, .rename]

/-- What a step writes to the temporary file. -/
def SaveStep.bytes (body : Bytes) : SaveStep → Bytes
  | .writeText => body
  | .writeEnd => [0x0A]
  | _ => []

/-- The failure of a step, and how many bytes it has written by then. -/
structure Fault where
  cause : FileError
  written : Nat
  deriving DecidableEq, Repr

/-- Which steps of a save fail for reasons outside the tree. -/
abbrev Faults := SaveStep → Option Fault

def Faults.none : Faults := fun _ => .none

/-- The same, except that one step goes no further than this. Nobody is left to see the error. -/
def Faults.cutOff (faults : Faults) (s : SaveStep) (written : Nat) : Faults :=
  fun s' => if s' = s then some ⟨.busy, written⟩ else faults s'

/-- A part of a save. When it fails, the files stay as they are by then. -/
abbrev Saving := ExceptT FileError (StateM Tree)

namespace Saving

def check (faults : Faults) (s : SaveStep) : Saving Unit :=
  match faults s with
  | none => pure ()
  | some f => throw f.cause

def create (faults : Faults) (directory : String) : Saving Place := do
  check faults .create
  let (t, p) ← ofExcept ((← get).createTemporary directory)
  set t
  return p

/-- Writes all that the step writes, or the part of it that comes before its failure. -/
def write (faults : Faults) (p : Place) (body : Bytes) (s : SaveStep) : Saving Unit := do
  let more := s.bytes body
  let written := (faults s).elim more (fun f => more.take f.written)
  modify (·.appendTo p written)
  check faults s

/-- The steps after the temporary file is there. -/
def fillAndMove (faults : Faults) (path : String) (body : Bytes) (p : Place) : Saving Unit := do
  write faults p body .writeText
  write faults p body .writeEnd
  check faults .sync
  check faults .rename
  set (← ofExcept ((← get).moveTo p path))

/-- A save up to its end or its failure, without taking the temporary file away. -/
def attempt (faults : Faults) (path : String) (body : Bytes) : Saving Unit := do
  let p ← create faults (Path.directoryOf path)
  fillAndMove faults path body p

def replace (faults : Faults) (path : String) (body : Bytes) : Saving Unit := do
  let p ← create faults (Path.directoryOf path)
  try fillAndMove faults path body p
  catch e =>
    modify (·.remove p)
    throw e

def runOn {α : Type} (x : Saving α) (t : Tree) : Except FileError α × Tree := x.run.run t

end Saving

namespace Tree

/-- Replaces the file at `path` by `body` and a line end. -/
def save (t : Tree) (faults : Faults) (path : String) (body : Bytes) :
    Except FileError Unit × Tree :=
  (Saving.replace faults path body).runOn t

/-- The trees a save passes through until it ends or is cut off: those in which one of its steps has
come some way, and the one it leaves behind. -/
def saveStates (t : Tree) (faults : Faults) (path : String) (body : Bytes) : List Tree :=
  let cutOff (s : SaveStep) (n : Nat) : Tree :=
    ((Saving.attempt (faults.cutOff s n) path body).runOn t).2
  SaveStep.all.flatMap (fun s => (List.range ((s.bytes body).length + 1)).map (cutOff s)) ++
    [(t.save faults path body).2]

end Tree

end CompressionSweep
