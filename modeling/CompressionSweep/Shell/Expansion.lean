import CompressionSweep.Shell.Executable
import CompressionSweep.Shell.Glob
import CompressionSweep.Shell.Grammar
import CompressionSweep.Shell.Utility

/-! Expansion of words: parameters, the output of commands and arithmetic are put in, the result
is split into fields, and a field that is a pattern is replaced by the paths that it fits. -/

namespace CompressionSweep.Shell

open Script

/-- What a command may ask the shell to run: another command, or a whole script. -/
inductive Work where
  | command (c : Command)
  | text (script : String)

/-- A part of an expanded word. -/
inductive Item where
  | char (c : Char) (quoted : Bool)
  /-- White space between fields. -/
  | gap (c : Char)
  /-- A separator behind a field that may be empty. -/
  | cut (c : Char)
  /-- Shows that a field is there even if it is empty. -/
  | mark
  deriving DecidableEq, Repr

abbrev Field := List (Char × Bool)

def Item.fieldsAfter (fields : List Field) (current : Field) (isThere : Bool) :
    List Item → List Field
  | [] => (if isThere then current.reverse :: fields else fields).reverse
  | .char c q :: r => fieldsAfter fields ((c, q) :: current) true r
  | .mark :: r => fieldsAfter fields current true r
  | .cut _ :: r => fieldsAfter (current.reverse :: fields) [] false r
  | .gap _ :: r =>
    if isThere then fieldsAfter (current.reverse :: fields) [] false r
    else fieldsAfter fields [] false r

def Item.fields (items : List Item) : List Field :=
  fieldsAfter [] [] false items

/-- The characters of an expanded word that is not split. -/
def Item.characters (items : List Item) : Field :=
  items.filterMap fun
    | .char c q => some (c, q)
    | .gap c | .cut c => some (c, false)
    | .mark => none

def Field.text (f : Field) : String :=
  String.ofList (f.map (·.1))

def quotedItems (s : String) : List Item :=
  .mark :: s.toList.map (.char · true)

/-- A value that is split at the separators, which are `separators`. -/
def splitItems (separators : List Char) (s : String) : List Item :=
  s.toList.map fun c =>
    if separators.contains c then
      if c == ' ' || c == '\t' || c == '\n' then .gap c else .cut c
    else .char c false

def separators : Script (List Char) := do
  return ((lookup (← process) "IFS").getD " \t\n").toList

/-- The value of a parameter; `@` and `*` are all arguments in one. -/
def parameter? (name : String) : Script (Option String) := do
  let p ← process
  match name with
  | "#" => return some (toString p.arguments.length)
  | "?" => return some (toString p.status)
  | "$" => return some (toString p.id)
  | "!" => return if p.lastJob = 0 then none else some (toString p.lastJob)
  | "-" => return some ""
  | "0" => return some p.name
  | "@" | "*" =>
    return if p.arguments.isEmpty then none else some (String.intercalate " " p.arguments)
  | "PPID" => return some (toString p.parent)
  | _ =>
    match Utility.number? name with
    | some n => return p.arguments[n - 1]?
    | none => return lookup p name

def fatal {α : Type} (message : String) : Script α := do
  complainHere message
  setStatus 2
  stop .exit

/-- The paths that fit a pattern, part by part. -/
def pathsFor (t : Tree) (path : String) : List (List Glob × String) → List String
  | [] => [path]
  | (pattern, text) :: r =>
    let directory := if path.isEmpty then "." else path
    let isHidden (name : String) : Bool := name.startsWith "." && !text.startsWith "."
    let names := match t.stat (toText directory) with
      | .ok (p, .directory) =>
        ((t.namesIn p).map ofText).filter fun n => !isHidden n && Glob.fits pattern n.toList
      | _ => []
    let names := if pattern.all (fun g => match g with | .one _ => true | _ => false) then
        [text] else names
    (names.mergeSort (fun a b => a ≤ b)).flatMap fun n =>
      let q := if path.isEmpty then n else if path.endsWith "/" then path ++ n else path ++ "/" ++ n
      if (t.stat (toText q)).isOk then pathsFor t q r else []

def splitField (f : Field) : List Field :=
  let (done, last) := f.foldl
    (fun (done, current) c =>
      if c.1 == '/' then (current.reverse :: done, []) else (done, c :: current))
    (([], []) : List Field × Field)
  ((last.reverse :: done).reverse).filter (!·.isEmpty)

/-- A field as it is, or the paths that it fits as a pattern. -/
def pathsOf (f : Field) : Script (List String) := do
  if isPattern f && (← process).expandsPatterns then
    let parts := (splitField f).map fun g => (Glob.ofChars (g.length + 1) g, Field.text g)
    let start := if f.head?.map (·.1) == some '/' then "/" else ""
    match pathsFor (← treeHere) start parts with
    | [] => return [f.text]
    | ps => return ps
  else return [f.text]


/-! Subshells. -/

variable (go : Work → Script Unit)

/-- Runs what is to be run when the process exits. -/
def runExitTrap : Script Unit := do
  let p ← process
  match p.traps.find? (·.1 == 0) with
  | none => return
  | some (_, action) =>
    modifyProcess fun p => { p with traps := p.traps.filter (·.1 != 0) }
    match ← attempt (go (.text action)) with
    | some .exit => return
    | some e => stop e
    | none => setStatus p.status

def inSubshell (c : Script Unit) : Script Nat := do
  let outer ← process
  modifyProcess fun p => { p with isHeld := holds p, traps := p.traps.filter (·.2 == "") }
  match ← attempt c with
  | some (.killed id signal) => stop (.killed id signal)
  | some .stuck =>
    modifyProcess fun _ => outer
    stop .stuck
  | _ =>
    runExitTrap go
    noteHeld
    let status := (← process).status
    modifyProcess fun _ => outer
    return status

/-- What a script prints, without the line ends behind it. -/
def outputOf (script : String) : Script String := do
  let id ← newCollector
  let status ← inSubshell go (do
    modifyProcess (setFile 1 (some (.collector id)))
    go (.text script))
  let pieces ← takeCollector id
  setStatus status
  let cs := (ofBytes ((pieces.map (·.2)).flatten)).toList.filter (· != '\x00')
  return String.ofList (Text.trimEndList (· == '\n') cs)

/-! Words. -/

def wholeItems (quoted : Bool) (s : String) : Script (List Item) := do
  if quoted then return quotedItems s else return splitItems (← separators) s

def valueItems (name value : String) (quoted : Bool) : Script (List Item) := do
  let arguments := (← process).arguments
  if name == "@" && quoted then
    return (List.intersperse [.gap ' '] (arguments.map quotedItems)).flatten
  else if (name == "@" || name == "*") && !quoted then
    let seps ← separators
    return (List.intersperse [.gap ' '] (arguments.map (splitItems seps))).flatten
  else wholeItems quoted value

def alternativeItems (quoted : Bool) (items : List Item) : Script (List Item) := do
  if quoted then return .mark :: items
  else
    let seps ← separators
    return items.flatMap fun
      | .char c false => splitItems seps (String.singleton c)
      | i => [i]

def operatorItems (name : String) (operator : Operator) (hasWord quoted : Bool)
    (word : Script (List Item)) : Script (List Item) := do
  let p ← process
  let value ← parameter? name
  let isNone (orEmpty : Bool) : Bool := value.isNone || (orEmpty && value == some "")
  let own := valueItems name (value.getD "") quoted
  match operator with
  | .value =>
    if value.isNone && p.failsOnUnset && name != "@" && name != "*" && name != "!" then
      fatal (name ++ ": parameter not set")
    else own
  | .length => wholeItems quoted (toString (value.getD "").length)
  | .orDefault e => if isNone e then alternativeItems quoted (← word) else own
  | .ifSet e => if isNone e then wholeItems quoted "" else alternativeItems quoted (← word)
  | .orAssign e =>
    if isNone e then
      let s := Field.text (Item.characters (← word))
      setVariable name s
      wholeItems quoted s
    else own
  | .orFail e =>
    if isNone e then
      let s := Field.text (Item.characters (← word))
      let standard := if e then "parameter not set or null" else "parameter not set"
      fatal (name ++ ": " ++ if hasWord then s else standard)
    else own
  | .dropFront longest =>
    let f := Item.characters (← word)
    let cs := (value.getD "").toList
    let found := Glob.frontLengths (Glob.ofChars (f.length + 1) f) cs
    let n := (if longest then found.getLast? else found.head?).getD 0
    wholeItems quoted (String.ofList (cs.drop n))
  | .dropBack longest =>
    let f := Item.characters (← word)
    let cs := (value.getD "").toList
    let found := Glob.backStarts (Glob.ofChars (f.length + 1) f) cs
    let n := (if longest then found.head? else found.getLast?).getD cs.length
    wholeItems quoted (String.ofList (cs.take n))

def arithmeticItems (quoted : Bool) (text : String) : Script (List Item) := do
  let p ← process
  match Arithmetic.evaluate (lookup p) text with
  | .ok (n, assigned) =>
    assigned.forM fun (name, n) => setVariable name (toString n)
    wholeItems quoted (toString n)
  | .error .divisionByZero => fatal ("arithmetic expression: division by zero: \"" ++ text ++ "\"")
  | .error .malformed => fatal ("arithmetic expression: expecting primary: \"" ++ text ++ "\"")

def maxDepth : Nat := 200

mutual

def expandFrom (fuel : Nat) (w : Word) : Script (List Item) := do
  match fuel, w with
  | 0, _ => stop .stuck
  | _, [] => return []
  | fuel + 1, piece :: r => return (← expandPiece fuel piece) ++ (← expandFrom (fuel + 1) r)
termination_by (fuel, w.length + 1)

def expandPiece (fuel : Nat) (piece : Piece) : Script (List Item) := do
  match piece with
  | .text s true => return quotedItems s
  | .text s false => return s.toList.map (.char · false)
  | .command source quoted => wholeItems quoted (← outputOf go source)
  | .arithmetic w quoted =>
    arithmeticItems quoted (Field.text (Item.characters (← expandFrom fuel w)))
  | .parameter name operator w quoted =>
    operatorItems name operator (!w.isEmpty) quoted (expandFrom fuel w)
termination_by (fuel + 1, 0)

end

/-- The items of a word; all arguments in quotation marks are nothing if there are none. -/
def expand (w : Word) : Script (List Item) := do
  match w with
  | [.text "" true, .parameter "@" .value [] true] =>
    if (← process).arguments.isEmpty then return []
    else valueItems "@" "" true
  | w => expandFrom go maxDepth w

def expandText (w : Word) : Script String := do
  return Field.text (Item.characters (← expand go w))

/-- Words as fields, with patterns replaced by the paths they fit. -/
def expandAll (ws : List Word) : Script (List String) := do
  let parts ← ws.mapM fun w => do
    let found ← (Item.fields (← expand go w)).mapM pathsOf
    return found.flatten
  return parts.flatten

end CompressionSweep.Shell
