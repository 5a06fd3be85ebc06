import CompressionSweep.Decimal.Shortest

/-! How numbers are written: the shortest digits with a point or an exponent, a fixed number of
places, and whole numbers in groups of three digits. -/

namespace CompressionSweep.Decimal

def digitsOf (n : Nat) : List Char :=
  Nat.toDigits 10 n

/-- The digits of a positive number whose point stands after `point` of them: positional with
at least one digit on both sides of the point while `-4 ≤ point ≤ 16`, otherwise one digit
before the point and a signed exponent. -/
def pointed (digits : List Char) (point : Int) : List Char :=
  if 0 < point ∧ point ≤ 16 then
    let whole := point.toNat
    if digits.length ≤ whole then
      digits ++ List.replicate (whole - digits.length) '0' ++ ['.', '0']
    else digits.take whole ++ '.' :: digits.drop whole
  else if -5 < point ∧ point ≤ 0 then
    '0' :: '.' :: List.replicate (-point).toNat '0' ++ digits
  else
    let exponent := point - 1
    let power := (if 0 ≤ exponent then '+' else '-') :: digitsOf exponent.natAbs
    match digits with
    | [] => power
    | [d] => d :: 'e' :: power
    | d :: ds => d :: '.' :: ds ++ 'e' :: power

def magnitudeChars (x : Float) : List Char :=
  let d := stripZeros 400 (shortest x)
  let digits := digitsOf d.coefficient
  pointed digits (digits.length + d.exponent)

def withSign (x : Float) (s : List Char) : List Char :=
  if isNegative x then '-' :: s else s

def magnitude (x : Float) : Float :=
  Float.ofBits (magnitudeBits x).toUInt64

def finiteChars (x : Float) : List Char :=
  withSign x (if magnitudeBits x = 0 then ['0', '.', '0'] else magnitudeChars (magnitude x))

def text (x : Float) : String :=
  if x.isNaN then "NaN"
  else if x.isInf then String.ofList (withSign x ['i', 'n', 'f'])
  else String.ofList (finiteChars x)

/-- The digits of `n` with a point before the last `places` of them. -/
def placed (places n : Nat) : List Char :=
  let ds := digitsOf n
  let ds := List.replicate (places + 1 - ds.length) '0' ++ ds
  if places = 0 then ds
  else ds.take (ds.length - places) ++ '.' :: ds.drop (ds.length - places)

/-- A double to a fixed number of places, its exact value rounded half to even. -/
def fixed (places : Nat) (x : Float) : String :=
  if x.isNaN then "NaN"
  else if x.isInf then String.ofList (withSign x ['i', 'n', 'f'])
  else String.ofList (withSign x (placed places (roundEven (scaledValue x * Nat.pow 10 places) scale)))

/-- A non-negative finite double to the nearest whole number, a half upwards, at most the
largest number of 64 bits. -/
def roundUp64 (x : Float) : Nat :=
  min ((2 * scaledValue x + scale) / (2 * scale)) (UInt64.size - 1)

/-- Puts a comma before every group of three digits that has digits before it. -/
def groupDigits : List Char → List Char
  | [] => []
  | c :: cs =>
    if cs.length % 3 = 0 ∧ cs ≠ [] then c :: ',' :: groupDigits cs else c :: groupDigits cs

def groupThousands (n : Nat) : String :=
  String.ofList (groupDigits (digitsOf n))

end CompressionSweep.Decimal
