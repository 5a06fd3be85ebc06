import CompressionSweep.Decimal.Notation
import CompressionSweep.Shell.Arithmetic

/-! Escapes in texts, and texts with places for arguments. -/

namespace CompressionSweep.Shell.Format

def isOctal (c : Char) : Bool := '0' ≤ c && c ≤ '7'

/-- The byte that up to `limit` octal digits in front stand for, and what follows them. -/
def octal (limit : Nat) (cs : List Char) : Char × List Char :=
  let ds := (cs.take limit).takeWhile isOctal
  let n := ds.foldl (fun n d => n * 8 + (d.toNat - 48)) 0
  (Char.ofNat (n % 256), cs.drop ds.length)

/-- What a backslash with the characters after it stands for, and what follows. -/
def escape : List Char → List Char × List Char
  | [] => (['\\'], [])
  | c :: r =>
    if isOctal c then
      let (b, rest) := octal 3 (c :: r)
      ([b], rest)
    else
      match c with
      | '\\' => (['\\'], r)
      | 'a' => (['\x07'], r)
      | 'b' => (['\x08'], r)
      | 'f' => (['\x0c'], r)
      | 'n' => (['\n'], r)
      | 'r' => (['\x0d'], r)
      | 't' => (['\t'], r)
      | 'v' => (['\x0b'], r)
      | _ => (['\\'], c :: r)

/-- A text with its escapes resolved, behind the characters of `acc` in reverse, and whether `\c`
has cut it off. An octal escape begins with a zero. -/
def unescape (fuel : Nat) (acc : List Char) (cs : List Char) : List Char × Bool :=
  match fuel, cs with
  | 0, _ | _, [] => (acc.reverse, false)
  | _ + 1, '\\' :: 'c' :: _ => (acc.reverse, true)
  | fuel + 1, '\\' :: '0' :: r =>
    let (b, rest) := octal 3 r
    unescape fuel (b :: acc) rest
  | fuel + 1, '\\' :: r =>
    let (piece, rest) := escape r
    unescape fuel (piece.reverse ++ acc) rest
  | fuel + 1, c :: r => unescape fuel (c :: acc) r

/-- How an argument is put into its place. -/
structure Place where
  left : Bool
  plus : Bool
  space : Bool
  alternate : Bool
  zeros : Bool
  width : Nat
  precision : Option Nat
  deriving DecidableEq, Repr

def pad (p : Place) (s : List Char) : List Char :=
  let fill := List.replicate (p.width - s.length) ' '
  if p.left then s ++ fill else fill ++ s

/-- A number in its place, as sign and digits. -/
def padNumber (p : Place) (sign digits : List Char) : List Char :=
  let digits := List.replicate (p.precision.getD 1 - digits.length) '0' ++ digits
  let digits := if p.precision = some 0 ∧ digits = ['0'] then [] else digits
  let zeros :=
    if p.zeros && !p.left && p.precision.isNone then
      List.replicate (p.width - (sign.length + digits.length)) '0'
    else []
  pad p (sign ++ zeros ++ digits)

def signOf (p : Place) (negative : Bool) : List Char :=
  if negative then ['-'] else if p.plus then ['+'] else if p.space then [' '] else []

def integer (p : Place) (n : Int) : List Char :=
  padNumber p (signOf p (n < 0)) (Nat.toDigits 10 n.natAbs)

def unsigned (p : Place) (base : Nat) (upper : Bool) (n : Int) : List Char :=
  let m := (n.emod UInt64.size).toNat
  let ds := Nat.toDigits base m
  let ds := if upper then ds.map Char.toUpper else ds
  let mark :=
    if p.alternate && m != 0 then
      if base = 16 then (if upper then ['0', 'X'] else ['0', 'x'])
      else if base = 8 then ['0']
      else []
    else []
  padNumber p mark ds

def fraction? (s : String) : Option (Bool × Decimal) :=
  let (negative, cs) :=
    match s.toList with
    | '-' :: r => (true, r)
    | '+' :: r => (false, r)
    | r => (false, r)
  let whole := cs.takeWhile Text.isAsciiDigit
  let rest := cs.drop whole.length
  let (digits, rest) :=
    match rest with
    | '.' :: r => (r.takeWhile Text.isAsciiDigit, r.dropWhile Text.isAsciiDigit)
    | _ => ([], rest)
  let value (ds : List Char) : Nat := ds.foldl (fun n d => n * 10 + (d.toNat - 48)) 0
  let exponent : Option Int :=
    match rest with
    | [] => some 0
    | e :: r =>
      if e == 'e' || e == 'E' then Arithmetic.signed? (String.ofList r) else none
  if whole.isEmpty && digits.isEmpty then none
  else exponent.map fun e => (negative, ⟨value (whole ++ digits), e - digits.length⟩)

def fractional (p : Place) (negative : Bool) (x : Float) : List Char :=
  padNumber { p with precision := none } (signOf p negative)
    (Decimal.fixed (p.precision.getD 6) x).toList

/-- What has been written, how much is left of the arguments, and the complaints. -/
structure Output where
  /-- The characters, the last one first. -/
  written : List Char
  arguments : List String
  used : Bool
  stopped : Bool
  complaints : List String

def next (o : Output) : String × Output :=
  match o.arguments with
  | [] => ("", o)
  | a :: r => (a, { o with arguments := r, used := true })

def nextNumber (o : Output) : Int × Output :=
  let missing := o.arguments.isEmpty
  let (a, o) := next o
  if missing then (0, o)
  else
    match a.toList with
    | '"' :: c :: _ | '\'' :: c :: _ => (c.toNat, o)
    | cs =>
      match Arithmetic.signed? a with
      | some n => (n, o)
      | none =>
        let sign : Int := if cs.head? == some '-' then -1 else 1
        let cs := if cs.head? == some '-' || cs.head? == some '+' then cs.tail else cs
        let ds := cs.takeWhile Text.isAsciiDigit
        let complaint :=
          a ++ (if ds.isEmpty then ": expected numeric value" else ": not completely converted")
        (sign * (Arithmetic.inBase? 10 ds).getD 0,
          { o with complaints := complaint :: o.complaints })

def write (o : Output) (s : List Char) : Output :=
  { o with written := s.reverse ++ o.written }

/-- Puts the next argument into a place for the given kind. -/
def convert (p : Place) (kind : Char) (o : Output) : Output :=
  match kind with
  | '%' => write o ['%']
  | 's' =>
    let (a, o) := next o
    write o (pad p (match p.precision with | some n => a.toList.take n | none => a.toList))
  | 'b' =>
    let (a, o) := next o
    let (s, stopped) := unescape (a.length + 1) [] a.toList
    let o := write o (pad p (match p.precision with | some n => s.take n | none => s))
    { o with stopped }
  | 'c' =>
    let (a, o) := next o
    write o (pad p (a.toList.take 1))
  | 'd' | 'i' =>
    let (n, o) := nextNumber o
    write o (integer p n)
  | 'u' =>
    let (n, o) := nextNumber o
    write o (unsigned p 10 false n)
  | 'o' =>
    let (n, o) := nextNumber o
    write o (unsigned p 8 false n)
  | 'x' =>
    let (n, o) := nextNumber o
    write o (unsigned p 16 false n)
  | 'X' =>
    let (n, o) := nextNumber o
    write o (unsigned p 16 true n)
  | 'f' | 'F' =>
    let (a, o) := next o
    let (negative, d) := (fraction? a).getD (false, ⟨0, 0⟩)
    write o (fractional p negative d.toFloat)
  | c => { o with complaints := ("%" ++ String.singleton c ++ ": invalid directive") :: o.complaints
                  stopped := true }

def isFlag (c : Char) : Bool :=
  c == '-' || c == '+' || c == ' ' || c == '#' || c == '0'

/-- A width or a precision: digits, or a star for an argument. -/
def measure (o : Output) : List Char → Nat × Output × List Char
  | '*' :: r =>
    let (n, o) := nextNumber o
    (n.toNat, o, r)
  | cs =>
    let ds := cs.takeWhile Text.isAsciiDigit
    (ds.foldl (fun n d => n * 10 + (d.toNat - 48)) 0, o, cs.drop ds.length)

/-- The place behind a percent sign, with the kind of the argument. -/
def place (o : Output) (cs : List Char) : Place × Output × List Char :=
  let flags := cs.takeWhile isFlag
  let (width, o, cs) := measure o (cs.drop flags.length)
  let (precision, o, cs) :=
    match cs with
    | '.' :: r =>
      let (n, o, cs) := measure o r
      (some n, o, cs)
    | _ => (none, o, cs)
  (⟨flags.contains '-', flags.contains '+', flags.contains ' ', flags.contains '#',
    flags.contains '0', width, precision⟩, o, cs)

/-- Goes through a format once. -/
def once (fuel : Nat) (o : Output) (cs : List Char) : Output :=
  match fuel, cs with
  | 0, _ | _, [] => o
  | fuel + 1, '\\' :: r =>
    let (piece, rest) := escape r
    once fuel (write o piece) rest
  | fuel + 1, '%' :: r =>
    let (p, o, r) := place o r
    match r with
    | [] => { o with complaints := "missing conversion" :: o.complaints, stopped := true }
    | kind :: r =>
      let o := convert p kind o
      if o.stopped then o else once fuel o r
  | fuel + 1, c :: r => once fuel { o with written := c :: o.written } r

def again (fuel : Nat) (format : List Char) (o : Output) : Output :=
  match fuel with
  | 0 => o
  | fuel + 1 =>
    let o := once (format.length + 1) { o with used := false } format
    if o.arguments.isEmpty || !o.used || o.stopped then o else again fuel format o

/-- A format filled in with its arguments, and what is wrong with them. -/
def fill (format : String) (arguments : List String) : List Char × List String :=
  let o := again (arguments.length + 1) format.toList ⟨[], arguments, false, false, []⟩
  (o.written.reverse, o.complaints.reverse)

end CompressionSweep.Shell.Format
