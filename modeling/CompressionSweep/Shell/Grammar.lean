import CompressionSweep.Shell.Token

/-! The grammar of the shell language: tokens are put together to commands, one complete line
after the other, so that the lines in front of a malformed one can still be run. -/

namespace CompressionSweep.Shell

/-- What is left of a script, and how its text went wrong, if it did. -/
structure Remainder where
  tokens : List Token
  texts : List Word
  failure : Option SyntaxError
  line : Nat

abbrev Parser := StateT Remainder (Except SyntaxError)

def Token.line : Token → Nat
  | .word _ l | .operator _ l | .number _ l | .newline l => l

def Token.name : Token → String
  | .word _ _ => "word"
  | .operator s _ => "\"" ++ s ++ "\""
  | .number _ _ => "redirection"
  | .newline _ => "newline"

def plainWord? : Token → Option String
  | .word [.text s false] _ => some s
  | _ => none

def reserved : List String :=
  ["if", "then", "else", "elif", "fi", "while", "until", "for", "do", "done", "case", "esac",
    "\x7b", "\x7d", "!", "in"]

def closing : List String :=
  ["then", "else", "elif", "fi", "do", "done", "esac", "\x7d"]

namespace Parser

def peek : Parser (Option Token) := do
  let s ← get
  match s.tokens, s.failure with
  | [], some e => throw e
  | ts, _ => return ts.head?

def advance : Parser Unit :=
  modify fun s => { s with tokens := s.tokens.tail }

def unexpected {α : Type} (expecting : Option String) : Parser α := do
  let wanted := match expecting with
    | some e => " (expecting \"" ++ e ++ "\")"
    | none => ""
  match ← peek with
  | none => throw ⟨(← get).line, "Syntax error: end of file unexpected" ++ wanted⟩
  | some t =>
    let name := match plainWord? t with
      | some s => if reserved.contains s then "\"" ++ s ++ "\"" else t.name
      | none => t.name
    throw ⟨t.line, "Syntax error: " ++ name ++ " unexpected" ++ wanted⟩

/-- Whether the next token is the given reserved word. -/
def isAt (s : String) : Parser Bool := do
  return ((← peek).bind plainWord?) == some s

def isAtOperator (s : String) : Parser Bool := do
  match ← peek with
  | some (.operator o _) => return o == s
  | _ => return false

def expectWord (s : String) : Parser Unit := do
  if ← isAt s then advance else unexpected (some s)

def expectOperator (s : String) : Parser Unit := do
  if ← isAtOperator s then advance else unexpected (some s)

def skipNewlines (fuel : Nat) : Parser Unit := do
  match fuel with
  | 0 => return
  | fuel + 1 =>
    match ← peek with
    | some (.newline _) =>
      advance
      skipNewlines fuel
    | _ => return

def openingOf : String → Option (Nat × Opening)
  | "<" | "<>" => some (0, .read)
  | ">" | ">|" => some (1, .write)
  | ">>" => some (1, .append)
  | "<&" => some (0, .duplicate)
  | ">&" => some (1, .duplicate)
  | "<<" => some (0, .here)
  | _ => none

/-- A redirection, if one comes next. -/
def redirection? : Parser (Option Redirection) := do
  let number ←
    match ← peek with
    | some (.number n _) =>
      advance
      pure (some n)
    | _ => pure none
  match ← peek with
  | some (.operator o _) =>
    match openingOf o with
    | none => return none
    | some (standard, opening) =>
      advance
      match ← peek with
      | some (.word w _) =>
        advance
        let w ←
          if opening = .here then
            let s ← get
            set { s with texts := s.texts.tail }
            pure (s.texts.headD [])
          else pure w
        return some ⟨number.getD standard, opening, w⟩
      | _ => unexpected none
  | _ => return none

def redirections (fuel : Nat) : Parser (List Redirection) := do
  match fuel with
  | 0 => return []
  | fuel + 1 =>
    match ← redirection? with
    | none => return []
    | some r => return r :: (← redirections fuel)

/-- A word of the form `name=value` in parts. -/
def assignment? : Word → Option (String × Word)
  | .text s false :: ps =>
    let name := s.toList.takeWhile Lexer.isNameChar
    let rest := s.toList.drop name.length
    match name, rest with
    | c :: _, '=' :: value =>
      if Lexer.isNameStart c then
        some (String.ofList name,
          if value.isEmpty then ps else .text (String.ofList value) false :: ps)
      else none
    | _, _ => none
  | _ => none

/-- The parts of a simple command that have been read, the last of each first. -/
structure Simple where
  assignments : List (String × Word)
  words : List Word
  redirections : List Redirection

def simpleParts (fuel : Nat) (c : Simple) : Parser Simple := do
  match fuel with
  | 0 => return c
  | fuel + 1 =>
    match ← peek with
    | some (.word w _) =>
      advance
      match assignment? w, c.words with
      | some a, [] => simpleParts fuel { c with assignments := a :: c.assignments }
      | _, _ => simpleParts fuel { c with words := w :: c.words }
    | _ =>
      match ← redirection? with
      | some r => simpleParts fuel { c with redirections := r :: c.redirections }
      | none => return c

def withRedirections (line : Nat) (c : Command) : List Redirection → Command
  | [] => c
  | rs => .redirected line c rs

def simple (fuel line : Nat) : Parser Command := do
  let c ← simpleParts fuel ⟨[], [], []⟩
  if c.assignments.isEmpty && c.words.isEmpty && c.redirections.isEmpty then unexpected none
  else
    return withRedirections line (.simple line c.assignments.reverse c.words.reverse)
      c.redirections.reverse

/-- The words after `in`. -/
def wordsToEnd (fuel : Nat) : Parser (List Word) := do
  match fuel with
  | 0 => return []
  | fuel + 1 =>
    match ← peek with
    | some (.word w _) =>
      advance
      return w :: (← wordsToEnd fuel)
    | _ => return []

/-- The patterns of a clause up to its parenthesis. -/
def patterns (fuel : Nat) : Parser (List Word) := do
  match fuel with
  | 0 => return []
  | fuel + 1 =>
    match ← peek with
    | some (.word w _) =>
      advance
      if ← isAtOperator "|" then
        advance
        return w :: (← patterns fuel)
      else
        expectOperator ")"
        return [w]
    | _ => unexpected none

mutual

/-- Commands up to a word or an operator that cannot begin one. -/
def commandList (fuel : Nat) : Parser (List Command) := do
  match fuel with
  | 0 => return []
  | fuel + 1 =>
    skipNewlines (fuel + 1)
    match ← peek with
    | none => return []
    | some t =>
      if (plainWord? t).any (closing.contains ·) then return []
      else if (← isAtOperator ")") || (← isAtOperator ";;") then return []
      else
        let c ← andOr fuel
        match ← peek with
        | some (.operator "&" _) =>
          advance
          return .background c :: (← commandList fuel)
        | some (.operator ";" _) | some (.newline _) =>
          advance
          return c :: (← commandList fuel)
        | _ => return [c]

/-- A list of at least one command, unless the script ends. -/
def compoundList (fuel : Nat) : Parser Command := do
  match fuel with
  | 0 => return .sequence []
  | fuel + 1 =>
    match ← commandList fuel with
    | [] => if (← peek).isSome then unexpected none else return .sequence []
    | [c] => return c
    | cs => return .sequence cs

def andOr (fuel : Nat) : Parser Command := do
  match fuel with
  | 0 => return .sequence []
  | fuel + 1 => andOrAfter fuel (← pipeline fuel)

def andOrAfter (fuel : Nat) (c : Command) : Parser Command := do
  match fuel with
  | 0 => return c
  | fuel + 1 =>
    if ← isAtOperator "&&" then
      advance
      skipNewlines (fuel + 1)
      andOrAfter fuel (.both c (← pipeline fuel))
    else if ← isAtOperator "||" then
      advance
      skipNewlines (fuel + 1)
      andOrAfter fuel (.either c (← pipeline fuel))
    else return c

def pipeline (fuel : Nat) : Parser Command := do
  match fuel with
  | 0 => return .sequence []
  | fuel + 1 =>
    let negated ← isAt "!"
    if negated then advance
    match negated, ← pipelineParts fuel with
    | false, [c] => return c
    | negated, cs => return .pipeline negated cs

def pipelineParts (fuel : Nat) : Parser (List Command) := do
  match fuel with
  | 0 => return []
  | fuel + 1 =>
    let c ← command fuel
    if ← isAtOperator "|" then
      advance
      skipNewlines (fuel + 1)
      return c :: (← pipelineParts fuel)
    else return [c]

def command (fuel : Nat) : Parser Command := do
  match fuel with
  | 0 => return .sequence []
  | fuel + 1 =>
    match ← peek with
    | none => unexpected none
    | some t =>
      let compound (c : Command) : Parser Command :=
        return withRedirections t.line c (← redirections (fuel + 1))
      match t, plainWord? t with
      | .operator "(" _, _ =>
        advance
        let body ← compoundList fuel
        expectOperator ")"
        compound (.subshell body)
      | _, some "\x7b" =>
        advance
        let body ← compoundList fuel
        expectWord "\x7d"
        compound body
      | _, some "if" =>
        advance
        compound (← conditional fuel [])
      | _, some "while" =>
        advance
        compound (← loop fuel false)
      | _, some "until" =>
        advance
        compound (← loop fuel true)
      | _, some "for" =>
        advance
        compound (← forEach fuel)
      | _, some "case" =>
        advance
        compound (← choice fuel)
      | .newline _, _ | .operator _ _, _ =>
        match t with
        | .operator o _ =>
          if (openingOf o).isSome then simple (fuel + 1) t.line else unexpected none
        | _ => unexpected none
      | _, some name =>
        if reserved.contains name && name != "in" then unexpected none
        else
          match (← get).tokens with
          | _ :: .operator "(" _ :: .operator ")" _ :: _ =>
            advance
            advance
            advance
            skipNewlines (fuel + 1)
            return .define name (← command fuel)
          | _ => simple (fuel + 1) t.line
      | _, none => simple (fuel + 1) t.line

/-- The branches after an `if` or `elif`, behind those in `acc`. -/
def conditional (fuel : Nat) (acc : List (Command × Command)) : Parser Command := do
  match fuel with
  | 0 => return .conditional acc.reverse none
  | fuel + 1 =>
    let condition ← compoundList fuel
    expectWord "then"
    let body ← compoundList fuel
    let acc := (condition, body) :: acc
    if ← isAt "elif" then
      advance
      conditional fuel acc
    else if ← isAt "else" then
      advance
      let otherwise ← compoundList fuel
      expectWord "fi"
      return .conditional acc.reverse (some otherwise)
    else
      expectWord "fi"
      return .conditional acc.reverse none

def loop (fuel : Nat) (endsOn : Bool) : Parser Command := do
  match fuel with
  | 0 => return .sequence []
  | fuel + 1 =>
    let condition ← compoundList fuel
    return .loop endsOn condition (← doGroup fuel)

def doGroup (fuel : Nat) : Parser Command := do
  match fuel with
  | 0 => return .sequence []
  | fuel + 1 =>
    expectWord "do"
    let body ← compoundList fuel
    expectWord "done"
    return body

def forEach (fuel : Nat) : Parser Command := do
  match fuel with
  | 0 => return .sequence []
  | fuel + 1 =>
    match (← peek).bind plainWord? with
    | none => throw ⟨(← get).line, "Syntax error: Bad for loop variable"⟩
    | some name =>
      advance
      skipNewlines (fuel + 1)
      let words ←
        if ← isAt "in" then
          advance
          let ws ← wordsToEnd (fuel + 1)
          pure (some ws)
        else pure none
      if ← isAtOperator ";" then advance
      skipNewlines (fuel + 1)
      return .forEach name words (← doGroup fuel)

def choice (fuel : Nat) : Parser Command := do
  match fuel with
  | 0 => return .sequence []
  | fuel + 1 =>
    match ← peek with
    | some (.word w _) =>
      advance
      skipNewlines (fuel + 1)
      expectWord "in"
      return .choice w (← clauses fuel)
    | _ => unexpected none

def clauses (fuel : Nat) : Parser (List (List Word × Command)) := do
  match fuel with
  | 0 => return []
  | fuel + 1 =>
    skipNewlines (fuel + 1)
    if ← isAt "esac" then
      advance
      return []
    else
      if ← isAtOperator "(" then advance
      let ps ← patterns (fuel + 1)
      let body := Command.sequence (← commandList fuel)
      if ← isAtOperator ";;" then
        advance
        return (ps, body) :: (← clauses fuel)
      else
        skipNewlines (fuel + 1)
        expectWord "esac"
        return [(ps, body)]

end

/-- One complete line of commands; `none` at the end of the script. -/
def lineOfCommands? (fuel : Nat) : Parser (Option (List Command)) := do
  match fuel with
  | 0 => return none
  | fuel + 1 =>
    skipNewlines (fuel + 1)
    match ← peek with
    | none => return none
    | some _ =>
      let c ← andOr fuel
      match ← peek with
      | some (.operator "&" _) =>
        advance
        return some (.background c :: (← restOfLine fuel))
      | some (.operator ";" _) =>
        advance
        return some (c :: (← restOfLine fuel))
      | some (.newline _) | none => return some [c]
      | some _ => unexpected none
where
  restOfLine (fuel : Nat) : Parser (List Command) := do
    match ← peek with
    | none | some (.newline _) => return []
    | some _ => return (← lineOfCommands? fuel).getD []

end Parser

/-- The complete lines of a script, and how it goes wrong after them, if it does. -/
def linesOf (fuel : Nat) (s : Remainder) : List (List Command) × Option SyntaxError :=
  match fuel with
  | 0 => ([], none)
  | fuel + 1 =>
    match (Parser.lineOfCommands? (s.tokens.length * 8 + 64)).run s with
    | .error e => ([], some e)
    | .ok (none, _) => ([], none)
    | .ok (some cs, s) =>
      let (more, failure) := linesOf fuel s
      (cs :: more, failure)

def readScript (script : String) : List (List Command) × Option SyntaxError :=
  let (tokens, texts, failure) := tokensOf script
  linesOf (tokens.length + 1) ⟨tokens, texts, failure, script.toList.count '\n' + 1⟩

end CompressionSweep.Shell
