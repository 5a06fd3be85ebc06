import CompressionSweep.Shell.Expansion

/-! Redirections: files that are opened for a command. -/

namespace CompressionSweep.Shell

open Script

def cannot (verb path reason : String) : Script Bool := do
  complainHere ("cannot " ++ verb ++ " " ++ path ++ ": " ++ reason)
  return false

/-- The open file that a path under `/dev` stands for, if it does. -/
def openFileAt? (path : String) : Option Nat :=
  match path with
  | "/dev/stdin" => some 0
  | "/dev/stdout" => some 1
  | "/dev/stderr" => some 2
  | _ => if path.startsWith "/dev/fd/" then Utility.number? (path.drop 8).toString else none

def openForReading (file : Nat) (path : String) : Script Bool := do
  let t ← treeHere
  match t.stat (toText path) with
  | .error .notFound => cannot "open" path "No such file"
  | .error e => cannot "open" path e.reason
  | .ok (p, e) =>
    let now := (← world).now
    let content := match e with | .file c _ => c | _ => []
    let source ← newSource ⟨if content.isEmpty then [] else [(now, content)], some now⟩
    let isEndless := p == ["dev", "zero"] || p == ["dev", "full"]
    modifyProcess (setFile file (some (if isEndless then .zeros else source)))
    return true

def openForWriting (file : Nat) (path : String) (appends : Bool) : Script Bool := do
  let t ← treeHere
  let isThere := (t.stat (toText path)).isOk
  match if appends && isThere && !t.isDirectory (toText path) then .ok t
      else t.write (toText path) [] false with
  | .error .notFound => cannot "create" path "Directory nonexistent"
  | .error e => cannot "create" path e.reason
  | .ok t =>
    match t.stat (toText path) with
    | .error e => cannot "create" path e.reason
    | .ok (p, e) =>
      setTree t
      let target : Target :=
        if p == ["dev", "full"] then .full else if e == .device then .nothing else .file p
      modifyProcess (setFile file (some target))
      return true

def duplicate (file : Nat) (word : String) : Script Bool := do
  if word == "-" then
    modifyProcess (setFile file none)
    return true
  else
    match Utility.number? word with
    | none => fatal "Syntax error: Bad fd number"
    | some n =>
      match target? (← process) n with
      | none =>
        complainHere (word ++ ": Bad file descriptor")
        return false
      | some t =>
        modifyProcess (setFile file (some t))
        return true

/-- Opens the file of a redirection; tells whether it could be opened. -/
def redirectOne (go : Work → Script Unit) (r : Redirection) : Script Bool := do
  let word ← expandText go r.word
  let now := (← world).now
  match r.opening, openFileAt? word with
  | .duplicate, _ => duplicate r.number word
  | .here, _ =>
    let b := toBytes word
    let source ← newSource ⟨if b.isEmpty then [] else [(now, b)], some now⟩
    modifyProcess (setFile r.number (some source))
    return true
  | _, some n => duplicate r.number (toString n)
  | .read, none => openForReading r.number word
  | .write, none => openForWriting r.number word false
  | .append, none => openForWriting r.number word true

/-- Opens files one after the other, up to one that cannot be opened. -/
def redirect (go : Work → Script Unit) : List Redirection → Script Bool
  | [] => return true
  | r :: more => do
    if ← redirectOne go r then redirect go more else return false

end CompressionSweep.Shell
