import CompressionSweep.FileTree.Error
import CompressionSweep.FileTree.Path
import CompressionSweep.Text.Utf8

/-! A tree of files: what stands under each absolute name, and the directory that relative
paths start from. Paths are followed one name after the other, and each name but the last must
lead to a directory. -/

namespace CompressionSweep

inductive Entry where
  | directory
  | file (content : Bytes) (executable : Bool)
  /-- An installed program, whose content is of no concern. -/
  | program
  /-- A device that takes everything and gives nothing. -/
  | device
  deriving DecidableEq, Repr

/-- The names on the way from the root. -/
abbrev Place := List String

structure Tree where
  entries : List (Place × Entry)
  home : Place
  deriving Repr

namespace Tree

def entry? (t : Tree) (p : Place) : Option Entry :=
  if p = [] then some .directory else (t.entries.find? (·.1 == p)).map (·.2)

def remove (t : Tree) (p : Place) : Tree :=
  { t with entries := t.entries.filter (fun e => !(p.isPrefixOf e.1)) }

def put (t : Tree) (p : Place) (e : Entry) : Tree :=
  { t with entries := t.entries.filter (·.1 != p) ++ [(p, e)] }

def namesIn (t : Tree) (p : Place) : List String :=
  (t.entries.filter (fun e => e.1.dropLast == p)).filterMap (·.1.getLast?)

def maxNameBytes : Nat := 255

def maxPathBytes : Nat := 4096

/-- Whether a text can be handed over as a path at all. -/
def checkPath (path : String) : Except FileError Unit :=
  if path.toList.contains '\x00' then .error .nulInPath
  else if path.isEmpty then .error .notFound
  else if maxPathBytes ≤ path.utf8ByteSize then .error .nameTooLong
  else .ok ()

def start (t : Tree) (path : String) : Place :=
  if Path.isAbsolute path then [] else t.home

/-- Follows one name from a place that must be a directory. -/
def follow (t : Tree) (p : Place) (name : String) : Except FileError Place :=
  match t.entry? p with
  | some .directory =>
    if name == "." then .ok p
    else if name == ".." then .ok p.dropLast
    else if maxNameBytes < name.utf8ByteSize then .error .nameTooLong
    else if (t.entry? (p ++ [name])).isSome then .ok (p ++ [name])
    else .error .notFound
  | some _ => .error .notADirectory
  | none => .error .notFound

def followAll (t : Tree) : Place → List String → Except FileError Place
  | p, [] => .ok p
  | p, name :: names =>
    match t.follow p name with
    | .error e => .error e
    | .ok q => t.followAll q names

/-- The place a path leads to, and what stands there. A separator at the end asks for a
directory. -/
def stat (t : Tree) (path : String) : Except FileError (Place × Entry) := do
  checkPath path
  let p ← t.followAll (t.start path) (Path.pieces path)
  match t.entry? p with
  | none => .error .notFound
  | some e =>
    if Path.endsInSeparator path && e != .directory then .error .notADirectory else .ok (p, e)

def isDirectory (t : Tree) (path : String) : Bool :=
  match t.stat path with
  | .ok (_, .directory) => true
  | _ => false

def isFile (t : Tree) (path : String) : Bool :=
  match t.stat path with
  | .ok (_, .file _ _) | .ok (_, .program) => true
  | _ => false

def read (t : Tree) (path : String) : Except FileError Bytes := do
  match ← t.stat path with
  | (_, .file content _) => .ok content
  | (_, .directory) => .error .isADirectory
  | (_, .device) | (_, .program) => .ok []

/-- The directory and the last name of a path; `none` for the name if it is `.`, `..` or the
root. -/
def locate (t : Tree) (path : String) : Except FileError (Place × Option String) := do
  checkPath path
  match (Path.pieces path).getLast? with
  | none => .ok ([], none)
  | some last =>
    let p ← t.followAll (t.start path) (Path.pieces path).dropLast
    match t.entry? p with
    | some .directory => .ok (p, if last == "." || last == ".." then none else some last)
    | some _ => .error .notADirectory
    | none => .error .notFound

/-- Writes a file in place, creating it if it is not there. -/
def write (t : Tree) (path : String) (content : Bytes) (executable : Bool) :
    Except FileError Tree := do
  match ← t.locate path with
  | (_, none) => .error .isADirectory
  | (p, some name) =>
    let q := p ++ [name]
    if Path.endsInSeparator path then .error .isADirectory
    else if maxNameBytes < name.utf8ByteSize then .error .nameTooLong
    else
      match t.entry? q with
      | some .directory => .error .isADirectory
      | some .device | some .program => .ok t
      | some (.file _ old) => .ok (t.put q (.file content (executable || old)))
      | none => .ok (t.put q (.file content executable))

/-- Creates a directory, and those on the way to it. -/
def makeDirectories (t : Tree) (path : String) : Tree :=
  ((Path.pieces path).foldl
    (fun (t, p) name =>
      if name == "." then (t, p)
      else if name == ".." then (t, p.dropLast)
      else
        let q := p ++ [name]
        (if (t.entry? q).isSome then t else t.put q .directory, q))
    (t, t.start path)).1

/-- Removes a file, or a directory with all that is in it. -/
def delete (t : Tree) (path : String) : Except FileError Tree := do
  let (p, _) ← t.stat path
  if p = [] then .error .busy else .ok (t.remove p)

def installed : List String :=
  ["basename", "bash", "cat", "chmod", "cp", "dash", "dirname", "echo", "env", "false", "head",
    "ls", "mkdir", "mv", "printf", "pwd", "rm", "rmdir", "seq", "sh", "sleep", "sort", "tail",
    "tee", "test", "touch", "tr", "true", "uniq", "wc", "yes", "["]

/-- The number of the process that the tree is there for. -/
def ownerId : Nat := 1000

/-- Where this process finds its own program. -/
def ownProgram : Place := ["proc", toString ownerId, "exe"]

/-- A tree with the usual directories at its root and an empty working directory. -/
def fresh : Tree :=
  let home := ["tmp", "work"]
  let top := ["bin", "dev", "etc", "home", "lib", "opt", "proc", "root", "run", "sbin", "sys",
    "tmp", "usr", "var"]
  { entries := (home, .directory) :: top.map (fun name => ([name], .directory))
      ++ [(["usr", "bin"], .directory), (["dev", "null"], .device), (["dev", "zero"], .device),
          (["dev", "full"], .device), (ownProgram.dropLast, .directory), (ownProgram, .program)]
      ++ installed.flatMap (fun name =>
        [(["bin", name], .program), (["usr", "bin", name], .program)])
    home }

end Tree

end CompressionSweep
