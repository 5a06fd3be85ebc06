import CompressionSweep.Shell.Command
import CompressionSweep.Text.CodePoints

/-! Cutting the text of a script into words, operators and line ends. -/

namespace CompressionSweep.Shell

inductive Token where
  | word (w : Word) (line : Nat)
  | operator (s : String) (line : Nat)
  /-- The file number in front of a redirection. -/
  | number (n : Nat) (line : Nat)
  | newline (line : Nat)
  deriving Repr

/-- A text that begins behind the next line end and lasts until a line is `delimiter`. -/
structure HereText where
  delimiter : String
  dropsTabs : Bool
  literal : Bool
  deriving Repr

/-- The place in a script up to which it has been cut. -/
structure Cursor where
  rest : List Char
  line : Nat
  awaited : List HereText
  /-- The texts that have been read so far, the last one first. -/
  texts : List Word

abbrev Lexer := StateT Cursor (Except SyntaxError)

namespace Lexer

def refuse {α : Type} (message : String) : Lexer α := do
  throw ⟨(← get).line, message⟩

def rest : Lexer (List Char) := return (← get).rest

def skip (count : Nat) : Lexer Unit :=
  modify fun c =>
    { c with rest := c.rest.drop count
             line := c.line + (c.rest.take count).count '\n' }

/-- Goes forward over the characters in front that satisfy `p`. -/
def takeWhile (p : Char → Bool) : Lexer (List Char) := do
  let piece := (← rest).takeWhile p
  skip piece.length
  return piece

def isNameStart (c : Char) : Bool :=
  Text.isAsciiLetter c || c == '_'

def isNameChar (c : Char) : Bool :=
  isNameStart c || Text.isAsciiDigit c

def isSpecialName (c : Char) : Bool :=
  Text.isAsciiDigit c || "*@#?$!-".toList.contains c

def enclosed (fuel depth : Nat) (acc : List Char) : Lexer (List Char) := do
  match fuel with
  | 0 => refuse "Syntax error: end of file unexpected"
  | fuel + 1 =>
    match ← rest with
    | [] => refuse "Syntax error: end of file unexpected (expecting \")\")"
    | '\\' :: c :: _ =>
      skip 2
      enclosed fuel depth (c :: '\\' :: acc)
    | '\'' :: r =>
      let piece := r.takeWhile (· != '\'')
      skip (piece.length + 2)
      enclosed fuel depth ('\'' :: piece.reverse ++ '\'' :: acc)
    | '(' :: _ =>
      skip 1
      enclosed fuel (depth + 1) ('(' :: acc)
    | ')' :: _ =>
      skip 1
      match depth with
      | 0 => return acc.reverse
      | depth + 1 => enclosed fuel depth (')' :: acc)
    | c :: _ =>
      skip 1
      enclosed fuel depth (c :: acc)

def backquoted (fuel : Nat) (acc : List Char) : Lexer (List Char) := do
  match fuel with
  | 0 => refuse "Syntax error: EOF in backquote substitution"
  | fuel + 1 =>
    match ← rest with
    | [] => refuse "Syntax error: EOF in backquote substitution"
    | '`' :: _ =>
      skip 1
      return acc.reverse
    | '\\' :: c :: _ =>
      skip 2
      backquoted fuel (if c == '`' || c == '\\' || c == '$' then c :: acc else c :: '\\' :: acc)
    | c :: _ =>
      skip 1
      backquoted fuel (c :: acc)

/-- What surrounds the pieces of a word. -/
inductive Mode where
  | bare
  | quoted
  | braces
  | quotedBraces
  | text
  deriving DecidableEq, Repr

def Mode.isQuoted : Mode → Bool
  | .bare | .braces => false
  | .quoted | .quotedBraces | .text => true

def isBreak (c : Char) : Bool :=
  " \t\n;&|<>()".toList.contains c

/-- Whether the pieces end in front of a character. -/
def Mode.endsAt : Mode → Char → Bool
  | .bare, c => isBreak c
  | .quoted, c => c == '"'
  | .braces, c | .quotedBraces, c => c == '}'
  | .text, _ => false

/-- Puts a character behind the pieces, the last of which comes first. -/
def pushChar (quoted : Bool) (c : Char) : List Piece → List Piece
  | .text s q :: ps => if q == quoted then .text (s.push c) q :: ps
      else .text (String.singleton c) quoted :: .text s q :: ps
  | ps => .text (String.singleton c) quoted :: ps

def operatorOf (longest : Bool) (orEmpty : Bool) : Char → Option Operator
  | '-' => some (.orDefault orEmpty)
  | '=' => some (.orAssign orEmpty)
  | '?' => some (.orFail orEmpty)
  | '+' => some (.ifSet orEmpty)
  | '#' => if orEmpty then none else some (.dropFront longest)
  | '%' => if orEmpty then none else some (.dropBack longest)
  | _ => none

def parameterOperator : Lexer Operator := do
  match ← rest with
  | '}' :: _ => return .value
  | ':' :: c :: _ =>
    match operatorOf false true c with
    | some o =>
      skip 2
      return o
    | none => refuse "Bad substitution"
  | c :: d :: _ =>
    let twice := c == d && (c == '#' || c == '%')
    match operatorOf twice false c with
    | some o =>
      skip (if twice then 2 else 1)
      return o
    | none => refuse "Bad substitution"
  | _ => refuse "Syntax error: Missing '\x7d'"

def parameterName : Lexer String := do
  match ← rest with
  | c :: _ =>
    if isNameStart c then return String.ofList (← takeWhile isNameChar)
    else if Text.isAsciiDigit c then return String.ofList (← takeWhile Text.isAsciiDigit)
    else if isSpecialName c then
      skip 1
      return String.singleton c
    else refuse "Bad substitution"
  | [] => refuse "Syntax error: Missing '\x7d'"

mutual

/-- The pieces up to where the mode ends, behind those in `acc`, the last one first. -/
def pieces (fuel : Nat) (mode : Mode) (acc : List Piece) : Lexer (List Piece) := do
  match fuel with
  | 0 => return acc
  | fuel + 1 =>
    let q := mode.isQuoted
    match ← rest with
    | [] =>
      match mode with
      | .bare | .text => return acc
      | .quoted => refuse "Syntax error: Unterminated quoted string"
      | .braces | .quotedBraces => refuse "Syntax error: Missing '\x7d'"
    | c :: r =>
      if mode.endsAt c then return acc
      else if c == '\\' then
        match r with
        | [] =>
          skip 1
          pieces fuel mode (pushChar q '\\' acc)
        | d :: _ =>
          skip 2
          if d == '\n' then pieces fuel mode acc
          else if !q || d == '$' || d == '`' || d == '\\' || (d == '"' && mode != .text)
              || (d == '}' && mode == .quotedBraces) then
            pieces fuel mode (pushChar true d acc)
          else pieces fuel mode (pushChar q d (pushChar q '\\' acc))
      else if c == '\'' && !q then
        let inner := r.takeWhile (· != '\'')
        if inner.length == r.length then refuse "Syntax error: Unterminated quoted string"
        else
          skip (inner.length + 2)
          pieces fuel mode (.text (String.ofList inner) true :: acc)
      else if c == '"' && mode != .text then
        skip 1
        let acc ← pieces fuel .quoted (.text "" true :: acc)
        skip 1
        pieces fuel mode acc
      else if c == '`' then
        skip 1
        let source ← backquoted fuel []
        pieces fuel mode (.command (String.ofList source) q :: acc)
      else if c == '$' then
        skip 1
        pieces fuel mode (← dollar fuel q acc)
      else
        skip 1
        pieces fuel mode (pushChar q c acc)

def dollar (fuel : Nat) (quoted : Bool) (acc : List Piece) : Lexer (List Piece) := do
  match fuel with
  | 0 => return acc
  | fuel + 1 =>
    match ← rest with
    | '(' :: '(' :: _ =>
      skip 2
      let inner ← enclosed fuel 0 []
      match ← rest with
      | ')' :: _ =>
        skip 1
        let outer ← get
        set { outer with rest := inner }
        let word ← pieces fuel .text []
        set outer
        return .arithmetic word.reverse quoted :: acc
      | _ =>
        let more ← enclosed fuel 0 []
        return .command (String.ofList ('(' :: inner ++ ')' :: more)) quoted :: acc
    | '(' :: _ =>
      skip 1
      let source ← enclosed fuel 0 []
      return .command (String.ofList source) quoted :: acc
    | '{' :: '#' :: c :: _ =>
      if c == '}' then
        skip 3
        return .parameter "#" .value [] quoted :: acc
      else
        skip 2
        let name ← parameterName
        match ← rest with
        | '}' :: _ =>
          skip 1
          return .parameter name .length [] quoted :: acc
        | _ => refuse "Bad substitution"
    | '{' :: _ =>
      skip 1
      let name ← parameterName
      let operator ← parameterOperator
      let word ← pieces fuel (if quoted then .quotedBraces else .braces) []
      skip 1
      return .parameter name operator word.reverse quoted :: acc
    | c :: _ =>
      if isNameStart c then
        let name ← takeWhile isNameChar
        return .parameter (String.ofList name) .value [] quoted :: acc
      else if isSpecialName c then
        skip 1
        return .parameter (String.singleton c) .value [] quoted :: acc
      else return pushChar quoted '$' acc
    | [] => return pushChar quoted '$' acc

end

def word (fuel : Nat) : Lexer Word :=
  return (← pieces fuel .bare []).reverse

/-- The text of a word without its quotation marks. -/
def plainText (w : Word) : String :=
  String.join (w.map fun p => match p with | .text s _ => s | _ => "")

def isLiteral (w : Word) : Bool :=
  w.any fun p => match p with | .text _ q => q | _ => false

def skipBlanks (fuel : Nat) : Lexer Unit := do
  match fuel with
  | 0 => return
  | fuel + 1 =>
    match ← rest with
    | ' ' :: _ | '\t' :: _ =>
      skip 1
      skipBlanks fuel
    | '\\' :: '\n' :: _ =>
      skip 2
      skipBlanks fuel
    | '#' :: _ =>
      let _ ← takeWhile (· != '\n')
    | _ => return

/-- The lines in front up to the delimiter. -/
def hereLines (fuel : Nat) (h : HereText) (acc : List Char) : Lexer (List Char) := do
  match fuel with
  | 0 => return acc
  | fuel + 1 =>
    if (← rest).isEmpty then return acc
    else
      if h.dropsTabs then
        let _ ← takeWhile (· == '\t')
      let line ← takeWhile (· != '\n')
      skip 1
      if String.ofList line == h.delimiter then return acc
      else hereLines fuel h (acc ++ line ++ ['\n'])

def readHereTexts (fuel : Nat) : List HereText → Lexer Unit
  | [] => return
  | h :: hs => do
    let lines ← hereLines fuel h []
    let w : Word ←
      if h.literal then pure [.text (String.ofList lines) true]
      else do
        let outer ← get
        set { outer with rest := lines }
        let w ← pieces fuel .text []
        set outer
        pure w.reverse
    modify fun c => { c with texts := w :: c.texts, awaited := [] }
    readHereTexts fuel hs

def operators : List String :=
  ["<<-", "&&", "||", ";;", "<<", "<&", ">&", ">>", ">|", "<>", "&", ";", "|", "<", ">", "(", ")"]

/-- The next token, unless the text is over. -/
def token? (fuel : Nat) : Lexer (Option (List Token)) := do
  skipBlanks fuel
  let line := (← get).line
  match ← rest with
  | [] => return none
  | '\n' :: _ =>
    skip 1
    readHereTexts fuel (← get).awaited
    return some [.newline line]
  | cs =>
    match operators.find? (fun o => o.toList.isPrefixOf cs) with
    | some o =>
      skip o.length
      if o == "<<" || o == "<<-" then
        skipBlanks fuel
        let w ← word fuel
        modify fun c =>
          { c with awaited := c.awaited ++ [⟨plainText w, o == "<<-", isLiteral w⟩] }
        return some [.operator "<<" line, .word w line]
      else return some [.operator o line]
    | none =>
      let digits := cs.takeWhile Text.isAsciiDigit
      let next := cs.drop digits.length
      if !digits.isEmpty && (next.head? == some '<' || next.head? == some '>') then
        skip digits.length
        return some [.number (digits.foldl (fun n d => n * 10 + (d.toNat - 48)) 0) line]
      else return some [.word (← word fuel) line]

/-- The tokens of a script up to where it is malformed. -/
def tokens : Nat → Cursor → List Token → List Token × List Word × Option SyntaxError
  | 0, c, acc => (acc.reverse, c.texts.reverse, none)
  | fuel + 1, c, acc =>
    match (token? (fuel + 1)).run c with
    | .error e => (acc.reverse, c.texts.reverse, some e)
    | .ok (none, c) =>
      match (readHereTexts (fuel + 1) c.awaited).run c with
      | .ok (_, c) => (acc.reverse, c.texts.reverse, none)
      | .error e => (acc.reverse, c.texts.reverse, some e)
    | .ok (some ts, c) => tokens fuel c (ts.reverse ++ acc)

end Lexer

/-- Cuts a script into tokens and the texts that stand behind line ends. -/
def tokensOf (script : String) : List Token × List Word × Option SyntaxError :=
  let cs := script.toList
  Lexer.tokens (cs.length + 2) ⟨cs, 1, [], []⟩ []

end CompressionSweep.Shell
