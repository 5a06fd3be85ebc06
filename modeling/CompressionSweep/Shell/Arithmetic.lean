import CompressionSweep.Text.CodePoints

/-! Arithmetic on whole numbers of 64 bits with sign. A name stands for the number it holds, and
may be assigned to. -/

namespace CompressionSweep.Shell.Arithmetic

inductive Token where
  | number (n : Int)
  | name (s : String)
  | operator (s : String)
  deriving DecidableEq, Repr

def operators : List String :=
  ["<<=", ">>=", "||", "&&", "==", "!=", "<=", ">=", "<<", ">>", "+=", "-=", "*=", "/=", "%=",
    "&=", "|=", "^=", "<", ">", "|", "^", "&", "+", "-", "*", "/", "%", "!", "~", "(", ")", "?",
    ":", "="]

def digitValue (c : Char) : Nat :=
  if Text.isAsciiDigit c then c.toNat - 48
  else if 'a' ≤ c ∧ c ≤ 'f' then c.toNat - 87
  else if 'A' ≤ c ∧ c ≤ 'F' then c.toNat - 55
  else 16

/-- The value of digits in a base, if they all belong to it. -/
def inBase? (base : Nat) (ds : List Char) : Option Int :=
  if ds.isEmpty || ds.any (fun d => base ≤ digitValue d) then none
  else some (ds.foldl (fun n d => n * base + digitValue d) 0 : Nat)

/-- A number as it is written: decimal, octal after `0`, hexadecimal after `0x`. -/
def literal? : List Char → Option Int
  | '0' :: 'x' :: ds | '0' :: 'X' :: ds => inBase? 16 ds
  | '0' :: d :: ds => inBase? 8 (d :: ds)
  | ds => inBase? 10 ds

def signed? (s : String) : Option Int :=
  let isSpace (c : Char) : Bool := c == ' ' || c == '\t' || c == '\n'
  match s.toList.dropWhile isSpace with
  | '-' :: ds => (literal? ds).map (- ·)
  | '+' :: ds => literal? ds
  | ds => literal? ds

def isNameChar (c : Char) : Bool :=
  Text.isAsciiLetter c || Text.isAsciiDigit c || c == '_'

def tokens? (fuel : Nat) (cs : List Char) : Option (List Token) :=
  match fuel, cs with
  | _, [] => some []
  | 0, _ => none
  | fuel + 1, c :: r =>
    if c == ' ' || c == '\t' || c == '\n' then tokens? fuel r
    else if isNameChar c then do
      let piece := cs.takeWhile isNameChar
      let rest ← tokens? fuel (cs.drop piece.length)
      if Text.isAsciiDigit c then return .number (← literal? piece) :: rest
      else return .name (String.ofList piece) :: rest
    else do
      let o ← operators.find? (fun o => o.toList.isPrefixOf cs)
      return .operator o :: (← tokens? fuel (cs.drop o.length))

/-- The tokens still to be read, and the assignments so far, the last one first. -/
structure State where
  tokens : List Token
  value : String → Option String
  assigned : List (String × Int)

inductive Problem where
  | malformed
  | divisionByZero
  deriving DecidableEq, Repr

abbrev Evaluator := StateT State (Except Problem)

def wrap (n : Int) : Int := n.bmod UInt64.size

def ofBool (b : Bool) : Int := if b then 1 else 0

def bitwise (f : Nat → Nat → Nat) (a b : Int) : Int :=
  wrap (f (a.emod UInt64.size).toNat (b.emod UInt64.size).toNat)

def apply (o : String) (a b : Int) : Evaluator Int :=
  match o with
  | "||" => return ofBool (a != 0 || b != 0)
  | "&&" => return ofBool (a != 0 && b != 0)
  | "|" => return bitwise (· ||| ·) a b
  | "^" => return bitwise (· ^^^ ·) a b
  | "&" => return bitwise (· &&& ·) a b
  | "==" => return ofBool (a == b)
  | "!=" => return ofBool (a != b)
  | "<" => return ofBool (a < b)
  | ">" => return ofBool (b < a)
  | "<=" => return ofBool (a ≤ b)
  | ">=" => return ofBool (b ≤ a)
  | "<<" => return wrap (a * (1 <<< (b.emod 64).toNat : Nat))
  | ">>" => return a / (1 <<< (b.emod 64).toNat : Nat)
  | "+" => return wrap (a + b)
  | "-" => return wrap (a - b)
  | "*" => return wrap (a * b)
  | "/" => if b = 0 then throw .divisionByZero else return wrap (a.tdiv b)
  | "%" => if b = 0 then throw .divisionByZero else return a.tmod b
  | _ => throw .malformed

/-- The binary operators, those that bind least first. -/
def levels : List (List String) :=
  [["||"], ["&&"], ["|"], ["^"], ["&"], ["==", "!="], ["<", ">", "<=", ">="], ["<<", ">>"],
    ["+", "-"], ["*", "/", "%"]]

def peek : Evaluator (Option Token) := return (← get).tokens.head?

def advance : Evaluator Unit := modify fun s => { s with tokens := s.tokens.tail }

def lookup (name : String) : Evaluator Int := do
  let s ← get
  match s.assigned.find? (·.1 == name) with
  | some (_, n) => return n
  | none =>
    match s.value name with
    | none | some "" => return 0
    | some text =>
      match signed? text with
      | some n => return wrap n
      | none => throw .malformed

def assign (name : String) (n : Int) : Evaluator Int := do
  modify fun s => { s with assigned := (name, n) :: s.assigned }
  return n

def assigning : List String :=
  ["=", "+=", "-=", "*=", "/=", "%=", "&=", "|=", "^=", "<<=", ">>="]

mutual

def expression (fuel : Nat) : Evaluator Int := do
  match fuel with
  | 0 => throw .malformed
  | fuel + 1 =>
    match (← get).tokens with
    | .name x :: .operator o :: _ =>
      if assigning.contains o then
        advance
        advance
        let n ← expression fuel
        if o == "=" then assign x n
        else assign x (← apply (o.dropEnd 1).toString (← lookup x) n)
      else conditional fuel
    | _ => conditional fuel

def conditional (fuel : Nat) : Evaluator Int := do
  match fuel with
  | 0 => throw .malformed
  | fuel + 1 =>
    let c ← binary fuel levels
    if (← peek) == some (.operator "?") then
      advance
      let a ← expression fuel
      if (← peek) != some (.operator ":") then throw .malformed
      advance
      let b ← conditional fuel
      return if c = 0 then b else a
    else return c

def binary (fuel : Nat) (ls : List (List String)) : Evaluator Int := do
  match fuel, ls with
  | 0, _ => throw .malformed
  | fuel + 1, [] => unary fuel
  | fuel + 1, l :: ls => binaryAfter fuel l ls (← binary fuel ls)

def binaryAfter (fuel : Nat) (l : List String) (ls : List (List String)) (a : Int) :
    Evaluator Int := do
  match fuel with
  | 0 => throw .malformed
  | fuel + 1 =>
    match ← peek with
    | some (.operator o) =>
      if l.contains o then
        advance
        let b ← binary fuel ls
        binaryAfter fuel l ls (← apply o a b)
      else return a
    | _ => return a

def unary (fuel : Nat) : Evaluator Int := do
  match fuel with
  | 0 => throw .malformed
  | fuel + 1 =>
    match ← peek with
    | some (.number n) =>
      advance
      return wrap n
    | some (.name x) =>
      advance
      lookup x
    | some (.operator "-") =>
      advance
      return wrap (- (← unary fuel))
    | some (.operator "+") =>
      advance
      unary fuel
    | some (.operator "!") =>
      advance
      return ofBool ((← unary fuel) == 0)
    | some (.operator "~") =>
      advance
      return wrap (-1 - (← unary fuel))
    | some (.operator "(") =>
      advance
      let n ← expression fuel
      if (← peek) != some (.operator ")") then throw .malformed
      advance
      return n
    | _ => throw .malformed

end

/-- The value of an expression and its assignments in order; an empty one is zero. -/
def evaluate (value : String → Option String) (text : String) :
    Except Problem (Int × List (String × Int)) :=
  let cs := text.toList
  match tokens? (cs.length + 1) cs with
  | none => .error .malformed
  | some [] => .ok (0, [])
  | some ts =>
    match (expression (ts.length * 16 + 32)).run ⟨ts, value, []⟩ with
    | .error e => .error e
    | .ok (n, s) => if s.tokens.isEmpty then .ok (n, s.assigned.reverse) else .error .malformed

end CompressionSweep.Shell.Arithmetic
