import CompressionSweep.Document.Decoder
import CompressionSweep.Document.Printer
import CompressionSweep.FileTree.Save

/-! A document together with its copy in a file, which is written anew after every measurement.
The document in memory counts; a failed write only leaves the file behind. -/

namespace CompressionSweep

/-- Why a document could not be loaded. -/
inductive LoadError where
  | unreadable (path : String) (cause : FileError)
  | malformed (path : String) (cause : Json.Problem)
  deriving DecidableEq

/-- The text of the error without that of its cause, and the cause. -/
def LoadError.context : LoadError → String
  | .unreadable path _ => "failed to read " ++ path
  | .malformed path _ => "malformed result document " ++ path

def LoadError.cause : LoadError → String
  | .unreadable _ e => e.message
  | .malformed _ p => p.message

def LoadError.message (e : LoadError) : String :=
  e.context ++ ": " ++ e.cause

/-- A write of the document that failed. -/
structure SaveError where
  path : String
  cause : FileError
  deriving DecidableEq, Repr

def SaveError.context (e : SaveError) : String :=
  "failed to write " ++ e.path

structure Store where
  document : Document
  path : Option String

namespace Store

/-- Reads the document in a file; there is none if the file is not there. -/
def load (t : Tree) (path : String) : Except LoadError (Option Document) :=
  match t.read path with
  | .error .notFound => .ok none
  | .error e => .error (.unreadable path e)
  | .ok b =>
    match Document.decode b with
    | .ok d => .ok (some d)
    | .error p => .error (.malformed path p)

/-- Writes the document to its file, if it has one. -/
def flush (s : Store) (faults : Faults) (t : Tree) : Except SaveError Unit × Tree :=
  match s.path with
  | none => (.ok (), t)
  | some path =>
    match t.save faults path s.document.pretty with
    | (.ok (), t) => (.ok (), t)
    | (.error e, t) => (.error ⟨path, e⟩, t)

def record (s : Store) (a : Algorithm) (run : UInt32) (m : Measurement) : Store :=
  { s with document := s.document.append a.name run m }

/-- Files a measurement and writes the document. The measurement stays when the write fails. -/
def append (s : Store) (faults : Faults) (a : Algorithm) (run : UInt32) (m : Measurement)
    (t : Tree) : Store × Except SaveError Unit × Tree :=
  let s := s.record a run m
  (s, s.flush faults t)

end Store

end CompressionSweep
