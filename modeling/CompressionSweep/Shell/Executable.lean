import CompressionSweep.Shell.State
import CompressionSweep.Text.Blank

/-! What is run when a file is started: an installed program, or the interpreter that the first
line of a script names. A name without a separator is looked for in the directories of a search
path. -/

namespace CompressionSweep

/-- An installed program and its arguments, the name it is called by first. -/
structure Executable where
  program : String
  arguments : List String
  deriving DecidableEq, Repr

namespace Tree

/-- The interpreter in the first line of a script, and the one argument it may be given. -/
def interpreter? (content : Bytes) : Option (String × Option String) :=
  match content with
  | 0x23 :: 0x21 :: r =>
    let isSpace (c : Char) : Bool := c == ' ' || c == '\t'
    let line := (Shell.ofBytes (r.takeWhile (· != 0x0A))).toList.dropWhile isSpace
    let name := line.takeWhile (!isSpace ·)
    let argument := Text.trimEndList isSpace ((line.drop name.length).dropWhile isSpace)
    if name.isEmpty then none
    else
      some (String.ofList name, if argument.isEmpty then none else some (String.ofList argument))
  | _ => none

def maxInterpreters : Nat := 5

/-- Finds out what is run for a path under a name it is called by. The texts stand for bytes. -/
def executableAt (t : Tree) (fuel : Nat) (path name : String) (arguments : List String) :
    Except FileError Executable := do
  match fuel with
  | 0 => .error .tooManyLinks
  | fuel + 1 =>
    match ← t.stat (Shell.toText path) with
    | (p, .program) => .ok ⟨p.getLastD "", name :: arguments⟩
    | (_, .file content true) =>
      match interpreter? content with
      | none => .error .notExecutableFormat
      | some (interpreter, argument) =>
        t.executableAt fuel interpreter interpreter (argument.toList ++ path :: arguments)
    | _ => .error .permissionDenied

/-- The usual directories of installed programs. -/
def searchPath : List String :=
  ["/usr/local/sbin", "/usr/local/bin", "/usr/sbin", "/usr/bin", "/sbin", "/bin"]

/-- The path of a name in a directory; an empty text is the working directory. -/
def pathIn (directory name : String) : String :=
  if directory.isEmpty then name else directory ++ "/" ++ name

/-- Finds out what is run for a name in a directory. -/
def executableIn (t : Tree) (name : String) (arguments : List String) (directory : String) :
    Except FileError Executable :=
  t.executableAt maxInterpreters (pathIn directory name) name arguments

/-- The first path to a name that can be run, or that fails for another reason than that nothing is
there or may be run. `e` is what is wrong if there is none. -/
def search (t : Tree) (name : String) (arguments : List String) (e : FileError) :
    List String → Except FileError String
  | [] => .error e
  | directory :: directories =>
    match t.executableIn name arguments directory with
    | .error .notFound | .error .notADirectory => t.search name arguments e directories
    | .error .permissionDenied => t.search name arguments .permissionDenied directories
    | _ => .ok (pathIn directory name)

/-- The path that is run for a name: the name itself if it has a separator. -/
def resolve (t : Tree) (directories : List String) (name : String) (arguments : List String) :
    Except FileError String :=
  if name.toList.contains '/' then .ok name
  else if name.isEmpty then .error .notFound
  else if maxNameBytes < name.length then .error .nameTooLong
  else t.search name arguments .notFound directories

/-- Finds out what is run for a name. -/
def executable (t : Tree) (directories : List String) (name : String) (arguments : List String) :
    Except FileError Executable := do
  t.executableAt maxInterpreters (← t.resolve directories name arguments) name arguments

end Tree

/-- The search path of the process. -/
def Shell.directoriesHere : Shell.Script (List String) := do
  match Shell.Script.lookup (← Shell.Script.process) "PATH" with
  | none => return Tree.searchPath
  | some text => return (Path.splitChars ':' text.toList).map String.ofList

end CompressionSweep
