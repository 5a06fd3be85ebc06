/-! Paths as texts. The parts of a path are its names; repeated separators, a separator at the
end and a `.` that does not come first are no parts. -/

namespace CompressionSweep.Path

/-- One part of a path. -/
inductive Part where
  | root
  | here
  | up
  | name (s : String)
  deriving DecidableEq, Repr

/-- The pieces of a text between separators, at least one. -/
def splitChars (sep : Char) : List Char → List (List Char)
  | [] => [[]]
  | c :: cs =>
    if c == sep then [] :: splitChars sep cs
    else
      match splitChars sep cs with
      | [] => [[c]]
      | piece :: pieces => (c :: piece) :: pieces

/-- The pieces between separators that are not empty. -/
def pieces (path : String) : List String :=
  ((splitChars '/' path.toList).filter (!·.isEmpty)).map String.ofList

def isAbsolute (path : String) : Bool :=
  path.toList.head? == some '/'

def endsInSeparator (path : String) : Bool :=
  path.toList.getLast? == some '/'

def partOf (piece : String) : Part :=
  if piece == ".." then .up else if piece == "." then .here else .name piece

def parts (path : String) : List Part :=
  if isAbsolute path then .root :: ((pieces path).map partOf).filter (· != .here)
  else
    match (pieces path).map partOf with
    | [] => []
    | p :: ps => p :: ps.filter (· != .here)

def Part.text : Part → String
  | .root => ""
  | .here => "."
  | .up => ".."
  | .name s => s

def ofParts (ps : List Part) : String :=
  match ps with
  | [.root] => "/"
  | ps => String.intercalate "/" (ps.map Part.text)

/-- The path without its last part; a root alone and an empty path have none. -/
def parent? (path : String) : Option String :=
  match parts path with
  | [] | [.root] => none
  | ps => some (ofParts ps.dropLast)

/-- The last part, if it is a name. -/
def fileName? (path : String) : Option String :=
  match (parts path).getLast? with
  | some (.name s) => some s
  | _ => none

/-- The directory a new file beside `path` goes to. -/
def directoryOf (path : String) : String :=
  match parent? path with
  | some p => if p.isEmpty then "." else p
  | none => "."

/-- Whether a path says where it leads, so that it is not looked for in a search path. -/
def hasSeparator (path : String) : Bool :=
  1 < (parts path).length || isAbsolute path

end CompressionSweep.Path
