import CompressionSweep.Pattern.Ast
import CompressionSweep.Pattern.Property
import CompressionSweep.Text.Blank
import CompressionSweep.Text.Letter

/-! Reading a pattern. Groups are opened and closed on a stack, classes on a stack of their own,
and every step takes at least one character, so the length of the text bounds the steps. -/

namespace CompressionSweep.Pattern

/-- With the flag for blanks, drops blanks and comments, which run from `#` to the end of the
line. -/
def skipFrom (inComment : Bool) : List Char → List Char
  | [] => []
  | c :: cs =>
    if inComment then skipFrom (c != '\n') cs
    else if Text.isBlank c then skipFrom false cs
    else if c == '#' then skipFrom true cs
    else c :: cs

def skip (x : Bool) (s : List Char) : List Char :=
  if x then skipFrom false s else s

/-- The longest piece in front whose characters satisfy `p`, without the blanks and comments in
it that `x` says to pass over. -/
def takeSpaced (x : Bool) (p : Char → Bool) (inComment : Bool) :
    List Char → List Char × List Char
  | [] => ([], [])
  | c :: cs =>
    if inComment then takeSpaced x p (c != '\n') cs
    else if x && Text.isBlank c then takeSpaced x p false cs
    else if x && c == '#' then takeSpaced x p true cs
    else if p c then
      let (piece, rest) := takeSpaced x p false cs
      (c :: piece, rest)
    else ([], c :: cs)

def isHex (c : Char) : Bool :=
  Text.isAsciiDigit c || 'a' ≤ c && c ≤ 'f' || 'A' ≤ c && c ≤ 'F'

def hexDigitValue (c : Char) : Nat :=
  if Text.isAsciiDigit c then c.toNat - 48
  else if 'a' ≤ c then c.toNat - 87
  else c.toNat - 55

def charOfHex? (ds : List Char) : Option Char :=
  let n := ds.foldl (fun n d => n * 16 + hexDigitValue d) 0
  if n < 0xD800 || 0xDFFF < n && n < 0x110000 then some (Char.ofNat n) else none

def decimalOf? (ds : List Char) : Option Nat :=
  let n := ds.foldl (fun n d => n * 10 + (d.toNat - 48)) 0
  if ds.isEmpty || UInt32.size ≤ n then none else some n

def hexFixed (x inComment : Bool) : Nat → List Char → Option (List Char × List Char)
  | 0, s => some ([], skip x s)
  | _ + 1, [] => none
  | n + 1, c :: cs =>
    if inComment then hexFixed x (c != '\n') (n + 1) cs
    else if x && Text.isBlank c then hexFixed x false (n + 1) cs
    else if x && c == '#' then hexFixed x true (n + 1) cs
    else if isHex c then (hexFixed x false n cs).map (fun (ds, rest) => (c :: ds, rest))
    else none
termination_by _ s => s.length

/-- What an escape or a single character stands for. -/
inductive Primitive where
  | literal (l : Literal)
  | assertion
  | dot
  | perl (kind : PerlClass) (negated : Bool)
  | property (query : PropertyQuery)

def verbatim (c : Char) : Primitive := .literal ⟨c, false⟩

/-- The character after `\x`, `\u` or `\U`. -/
def hexEscape (x : Bool) (kind : Char) (s : List Char) : Option (Primitive × List Char) :=
  match skip x s with
  | [] => none
  | '\x7b' :: r =>
    match takeSpaced x (· != '\x7d') false r with
    | (_, []) => none
    | (ds, _ :: rest) =>
      if ds.isEmpty || !ds.all isHex then none
      else (charOfHex? ds).map (fun c => (verbatim c, skip x rest))
  | s => do
    let width := if kind == 'x' then 2 else if kind == 'u' then 4 else 8
    let (ds, rest) ← hexFixed x false width s
    let c ← charOfHex? ds
    return (.literal ⟨c, kind == 'x'⟩, rest)

/-- The two sides of the first place where `sep` stands. -/
def splitAt? (sep : List Char) : List Char → Option (List Char × List Char)
  | [] => none
  | c :: cs =>
    if sep.isPrefixOf (c :: cs) then some ([], (c :: cs).drop sep.length)
    else (splitAt? sep cs).map (fun (l, r) => (c :: l, r))

def queryOf (name : List Char) : PropertyQuery :=
  match splitAt? ['!', '='] name with
  | some (l, r) => .value l r
  | none =>
    match splitAt? [':'] name with
    | some (l, r) => .value l r
    | none =>
      match splitAt? ['='] name with
      | some (l, r) => .value l r
      | none => .name name

/-- The property after `\p` or `\P`. -/
def propertyEscape (x : Bool) (s : List Char) : Option (Primitive × List Char) :=
  match skip x s with
  | [] => none
  | '\x7b' :: r =>
    match takeSpaced x (· != '\x7d') false r with
    | (_, []) => none
    | (name, _ :: rest) => some (.property (queryOf name), rest)
  | c :: r => if c == '\\' then none else some (.property (.name [c]), skip x r)

def isMeta (c : Char) : Bool :=
  "\\.+*?()|[]\x7b\x7d^$#&-~".toList.contains c

/-- ASCII characters other than letters, digits and angle brackets may be escaped for nothing. -/
def isEscapable (c : Char) : Bool :=
  isMeta c || c.toNat < 128 && !Text.isAsciiLetter c && !Text.isAsciiDigit c && c != '<' && c != '>'

def isBoundaryNameChar (c : Char) : Bool :=
  Text.isAsciiLetter c || c == '-'

def boundaryNames : List String := ["start", "end", "start-half", "end-half"]

/-- A word boundary, with a kind in braces if a name follows the brace. -/
def boundaryEscape (x : Bool) (s : List Char) : Option (Primitive × List Char) :=
  match s with
  | '\x7b' :: r =>
    match skip x r with
    | [] => none
    | c :: r' =>
      if isBoundaryNameChar c then
        match takeSpaced x isBoundaryNameChar false (c :: r') with
        | (name, '\x7d' :: rest) =>
          if boundaryNames.contains (String.ofList name) then some (.assertion, rest) else none
        | _ => none
      else some (.assertion, s)
  | _ => some (.assertion, s)

def escape (x : Bool) : List Char → Option (Primitive × List Char)
  | [] => none
  | c :: r =>
    if Text.isAsciiDigit c then none
    else if c == 'x' || c == 'u' || c == 'U' then hexEscape x c r
    else if c == 'p' || c == 'P' then propertyEscape x r
    else if isEscapable c then some (verbatim c, r)
    else
      match c with
      | 'd' => some (.perl .digit false, r)
      | 'D' => some (.perl .digit true, r)
      | 's' => some (.perl .space false, r)
      | 'S' => some (.perl .space true, r)
      | 'w' => some (.perl .word false, r)
      | 'W' => some (.perl .word true, r)
      | 'a' => some (verbatim '\x07', r)
      | 'f' => some (verbatim '\x0C', r)
      | 't' => some (verbatim '\t', r)
      | 'n' => some (verbatim '\n', r)
      | 'r' => some (verbatim '\r', r)
      | 'v' => some (verbatim '\x0B', r)
      | 'b' => boundaryEscape x r
      | 'A' | 'z' | 'B' | '<' | '>' => some (.assertion, r)
      | _ => none

/-! Classes. -/

/-- A class that is open: its items so far, and the operand and the operation before them. -/
structure OpenClass where
  negated : Bool
  left : Option (SetOperation × ClassSet)
  items : List ClassItem

def OpenClass.content (c : OpenClass) : ClassSet :=
  let items := ClassSet.union c.items.reverse
  match c.left with
  | none => items
  | some (op, l) => .binary op l items

def OpenClass.add (c : OpenClass) (i : ClassItem) : OpenClass :=
  { c with items := i :: c.items }

/-- The hyphens and the bracket that stand for themselves at the start of a class. -/
def literalStart (x : Bool) (items : List ClassItem) (inComment : Bool) :
    List Char → Option (List ClassItem × List Char)
  | [] => none
  | c :: cs =>
    if inComment then literalStart x items (c != '\n') cs
    else if x && Text.isBlank c then literalStart x items false cs
    else if x && c == '#' then literalStart x items true cs
    else if c == '-' then literalStart x (.literal ⟨'-', false⟩ :: items) false cs
    else if c == ']' && items.isEmpty then
      match skip x cs with
      | [] => none
      | rest => some ([.literal ⟨']', false⟩], rest)
    else some (items, c :: cs)

def openClass (x : Bool) (s : List Char) : Option (OpenClass × List Char) :=
  match skip x s with
  | [] => none
  | c :: r =>
    let negated := c == '^'
    (literalStart x [] false (if negated then r else c :: r)).map
      (fun (items, rest) => (⟨negated, none, items⟩, rest))

def asciiClass? (name : List Char) : Option AsciiClass :=
  match String.ofList name with
  | "alnum" => some .alnum
  | "alpha" => some .alpha
  | "ascii" => some .ascii
  | "blank" => some .blank
  | "cntrl" => some .cntrl
  | "digit" => some .digit
  | "graph" => some .graph
  | "lower" => some .lower
  | "print" => some .print
  | "punct" => some .punct
  | "space" => some .space
  | "upper" => some .upper
  | "word" => some .word
  | "xdigit" => some .xdigit
  | _ => none

/-- A named class after its bracket; if the text is none, the bracket opens a class. -/
def namedClass? (s : List Char) : Option (ClassItem × List Char) :=
  match s with
  | ':' :: r =>
    let (negated, r) :=
      match r with
      | '^' :: t => (true, t)
      | _ => (false, r)
    match r.dropWhile (· != ':') with
    | ':' :: ']' :: rest =>
      (asciiClass? (r.takeWhile (· != ':'))).map (fun k => (.ascii k negated, rest))
    | _ => none
  | _ => none

def classPrimitive (x : Bool) : List Char → Option (Primitive × List Char)
  | [] => none
  | c :: r => if c == '\\' then escape x r else some (verbatim c, r)

def Primitive.item? : Primitive → Option ClassItem
  | .literal l => some (.literal l)
  | .perl k n => some (.perl k n)
  | .property q => some (.property q)
  | .assertion | .dot => none

def Primitive.literal? : Primitive → Option Literal
  | .literal l => some l
  | _ => none

/-- An item of a class, or a range of two characters. -/
def classRange (x : Bool) (s : List Char) : Option (ClassItem × List Char) := do
  let (first, r) ← classPrimitive x s
  match skip x r with
  | [] => none
  | c :: r' =>
    let next := (skip x r').head?
    if c != '-' || next == some ']' || next == some '-' then return (← first.item?, c :: r')
    else
      let (last, rest) ← classPrimitive x (skip x r')
      let a ← first.literal?
      let b ← last.literal?
      if a.char ≤ b.char then return (.range a b, rest) else none

def setOperation? (c d : Char) : Option SetOperation :=
  if c != d then none
  else if c == '&' then some .intersection
  else if c == '-' then some .difference
  else if c == '~' then some .symmetricDifference
  else none

/-- Ends the operand in front of an operation. -/
def OpenClass.operate (c : OpenClass) (op : SetOperation) : OpenClass :=
  ⟨c.negated, some (op, c.content), []⟩

/-- Reads on inside the class `top`, which lies inside the classes `below`. -/
def classLoop (x : Bool) : Nat → OpenClass → List OpenClass → List Char →
    Option (Bool × ClassSet × List Char)
  | 0, _, _, _ => none
  | fuel + 1, top, below, s =>
    match skip x s with
    | [] => none
    | c :: r =>
      if c == '[' then
        match namedClass? r with
        | some (item, rest) => classLoop x fuel (top.add item) below rest
        | none =>
          match openClass x r with
          | none => none
          | some (inner, rest) => classLoop x fuel inner (top :: below) rest
      else if c == ']' then
        match below with
        | [] => some (top.negated, top.content, r)
        | outer :: below => classLoop x fuel (outer.add (.set top.negated top.content)) below r
      else
        match r.head?.bind (setOperation? c) with
        | some op => classLoop x fuel (top.operate op) below r.tail
        | none =>
          match classRange x (c :: r) with
          | none => none
          | some (item, rest) => classLoop x fuel (top.add item) below rest

def bracketed (x : Bool) (s : List Char) : Option (Ast × List Char) := do
  let (top, rest) ← openClass x s
  let (negated, content, rest) ← classLoop x (s.length + 1) top [] rest
  return (.set negated content, rest)

/-! Groups, repetitions and sequences. -/

def flag? : Char → Option Flag
  | 'i' => some .caseInsensitive
  | 'm' => some .multiLine
  | 's' => some .dotMatchesNewLine
  | 'U' => some .swapGreed
  | 'u' => some .unicode
  | 'R' => some .crlf
  | 'x' => some .ignoreBlank
  | _ => none

/-- Flags up to a colon or a closing bracket, which stays. No flag may occur twice, and a
negation needs a flag. -/
def flagItems (seen : List FlagItem) : List Char → Option (List FlagItem × List Char)
  | [] => none
  | c :: r =>
    if c == ':' || c == ')' then
      if seen.head? == some .negation then none else some (seen.reverse, c :: r)
    else if c == '-' then
      if seen.contains .negation then none else flagItems (.negation :: seen) r
    else
      match flag? c with
      | none => none
      | some f =>
        if seen.contains (.flag f) then none else flagItems (.flag f :: seen) r

def isNameStart (c : Char) : Bool :=
  c == '_' || Text.isLetter c

def isNameChar (c : Char) : Bool :=
  c == '_' || c == '.' || c == '[' || c == ']' || Text.isLetterOrNumeral c

/-- The name of a group up to its angle bracket. -/
def groupName (s : List Char) : Option (List Char × List Char) :=
  match s.dropWhile (· != '>') with
  | [] => none
  | _ :: rest =>
    match s.takeWhile (· != '>') with
    | [] => none
    | c :: cs => if isNameStart c && cs.all isNameChar then some (c :: cs, rest) else none

/-- The branches of a group that are complete and the parts of the one that is not, the last
first. -/
structure Level where
  branches : List Ast
  parts : List Ast

def Level.start : Level := ⟨[], []⟩

def Level.branch (l : Level) : Level :=
  ⟨Ast.ofParts l.parts.reverse :: l.branches, []⟩

def Level.close (l : Level) : Ast :=
  Ast.ofBranches l.branch.branches.reverse

def Level.add (l : Level) (a : Ast) : Level :=
  { l with parts := a :: l.parts }

/-- A group that is open: what stood before it, its kind and the setting of the flag for blanks
outside it. -/
structure OpenGroup where
  outer : Level
  captures : Bool
  items : List FlagItem
  extended : Bool

structure Machine where
  level : Level
  opened : List OpenGroup
  extended : Bool
  names : List (List Char)

def Machine.start : Machine := ⟨.start, [], false, []⟩

def Machine.add (m : Machine) (a : Ast) : Machine :=
  { m with level := m.level.add a }

def Machine.enter (m : Machine) (captures : Bool) (items : List FlagItem) : Machine :=
  { m with
    level := .start
    opened := ⟨m.level, captures, items, m.extended⟩ :: m.opened
    extended := (flagState .ignoreBlank items false).getD m.extended }

def Machine.enterNamed (m : Machine) (s : List Char) : Option (Machine × List Char) := do
  let (name, rest) ← groupName s
  if m.names.contains name then none
  else return ({ m.enter true [] with names := name :: m.names }, rest)

def Machine.openGroup (m : Machine) (s : List Char) : Option (Machine × List Char) :=
  match skip m.extended s with
  | '?' :: '=' :: _ | '?' :: '!' :: _ | '?' :: '<' :: '=' :: _ | '?' :: '<' :: '!' :: _ => none
  | '?' :: 'P' :: '<' :: r => m.enterNamed r
  | '?' :: '<' :: r => m.enterNamed r
  | '?' :: r =>
    match flagItems [] r with
    | some (items, ':' :: rest) => some (m.enter false items, rest)
    | some (items, ')' :: rest) =>
      if items.isEmpty then none
      else
        some ({ m.add (.flags items) with
          extended := (flagState .ignoreBlank items false).getD m.extended }, rest)
    | _ => none
  | r => some (m.enter true [], r)

def Machine.closeGroup (m : Machine) : Option Machine :=
  match m.opened with
  | [] => none
  | g :: opened =>
    some { m with
      level := g.outer.add (.group g.captures g.items m.level.close)
      opened
      extended := g.extended }

/-- Repeats the last part; there must be one that is not a mere setting of flags. -/
def Machine.repeatLast (m : Machine) (least : Nat) (most : Option Nat) : Option Machine :=
  match m.level.parts with
  | [] | .flags _ :: _ | .empty :: _ => none
  | a :: parts =>
    some { m with level := { m.level with parts := .repetition a least most :: parts } }

def dropLazy : List Char → List Char
  | '?' :: r => r
  | r => r

def countAt (x : Bool) (s : List Char) : Option Nat × List Char :=
  let (ds, rest) := takeSpaced x Text.isAsciiDigit false (s.dropWhile Text.isBlank)
  (decimalOf? ds, rest.dropWhile Text.isBlank)

/-- The bounds of a repetition after its brace, and the text after the closing brace. -/
def boundsAt (x : Bool) (s : List Char) : Option (Nat × Option Nat × List Char) :=
  match skip x s with
  | [] => none
  | s =>
    match countAt x s with
    | (some n, '\x7d' :: rest) => some (n, some n, rest)
    | (some n, ',' :: r) =>
      match skip x r with
      | '\x7d' :: rest => some (n, none, rest)
      | r =>
        match countAt x r with
        | (some k, '\x7d' :: rest) => if n ≤ k then some (n, some k, rest) else none
        | _ => none
    | _ => none

def Primitive.ast : Primitive → Ast
  | .literal l => .literal l
  | .assertion => .assertion
  | .dot => .dot
  | .perl k n => .perl k n
  | .property q => .property q

/-- Takes the character `c` and what belongs to it. -/
def Machine.step (m : Machine) (c : Char) (r : List Char) : Option (Machine × List Char) :=
  match c with
  | '(' => m.openGroup r
  | ')' => m.closeGroup.map (·, r)
  | '|' => some ({ m with level := m.level.branch }, r)
  | '[' => (bracketed m.extended r).map (fun (a, rest) => (m.add a, rest))
  | '?' => (m.repeatLast 0 (some 1)).map (·, dropLazy r)
  | '*' => (m.repeatLast 0 none).map (·, dropLazy r)
  | '+' => (m.repeatLast 1 none).map (·, dropLazy r)
  | '\x7b' => do
    let (least, most, rest) ← boundsAt m.extended r
    let m ← m.repeatLast least most
    return (m, dropLazy (skip m.extended rest))
  | '\\' => (escape m.extended r).map (fun (p, rest) => (m.add p.ast, rest))
  | '.' => some (m.add .dot, r)
  | '^' | '$' => some (m.add .assertion, r)
  | c => some (m.add (.literal ⟨c, false⟩), r)

def Machine.run : Nat → Machine → List Char → Option Ast
  | 0, _, _ => none
  | fuel + 1, m, s =>
    match skip m.extended s with
    | [] => if m.opened.isEmpty then some m.level.close else none
    | c :: r =>
      match m.step c r with
      | none => none
      | some (m, rest) => m.run fuel rest

def parse? (s : List Char) : Option Ast :=
  Machine.start.run (s.length + 1) s

end CompressionSweep.Pattern
