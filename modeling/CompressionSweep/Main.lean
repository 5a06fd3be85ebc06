import CompressionSweep.Program
import Std.Time

/-! The program on the files of its working directory. The tree of files is read before the
run and what has changed in it is written back afterwards. Everything else is `Program.run`. -/

namespace CompressionSweep

/-- A script, which names the program that runs it in its first line. -/
def isScript : Bytes → Bool
  | 35 :: 33 :: _ => true
  | _ => false

def absolute (p : Place) : String :=
  "/" ++ String.intercalate "/" p

/-- Reads what stands in a directory, and in the directories below it. -/
partial def readBelow (t : Tree) (p : Place) (found : IO.FS.DirEntry) : IO Tree := do
  let q := p ++ [found.fileName]
  if ← found.path.isDir then
    let mut below := t.put q .directory
    for next in ← found.path.readDir do
      below ← readBelow below q next
    return below
  let content := (← IO.FS.readBinFile found.path).data.toList
  return t.put q (.file content (isScript content))

def readTree : IO Tree := do
  let here ← IO.currentDir
  let home := here.components.filter (!·.isEmpty)
  let mut t := { Tree.fresh with home }.makeDirectories (absolute home)
  for found in ← here.readDir do
    t ← readBelow t home found
  return t

def writeChanges (old new : Tree) : IO Unit := do
  for (p, e) in old.entries do
    if (new.entry? p).isNone && (new.entry? p.dropLast).isSome then
      if e == .directory then IO.FS.removeDirAll (absolute p) else IO.FS.removeFile (absolute p)
  for (p, e) in new.entries do
    if old.entry? p != some e then
      match e with
      | .directory => IO.FS.createDirAll (absolute p)
      | .file content _ => IO.FS.writeBinFile (absolute p) ⟨content.toArray⟩
      | .program | .device => pure ()

/-- The time in its form with microseconds and the distance from universal time. -/
def now : IO String := do
  return (← Std.Time.DateTime.now).format "uuuu-MM-dd'T'HH:mm:ss.SSSSSSxxx"

def complaint : Exit → List String
  | .failure f => f.lines
  | .usage .help => ["usage: (sweep | report) [options]"]
  | .usage _ => ["error: unusable command line; see --help"]
  | .success | .crash => []

end CompressionSweep

open CompressionSweep in
def main (arguments : List String) : IO UInt32 := do
  let tree ← readTree
  let timestamp ← now
  let (exit, scene) := Program.run (Outside.ofFilesAt timestamp) timestamp arguments tree ()
  for line in scene.shown.reverse do
    IO.println line
  for line in complaint exit do
    IO.eprintln line
  writeChanges tree scene.tree
  return exit.code.toUInt32
