import CompressionSweep.Decimal.Nearest

/-! Decimals, their reading as doubles, and the shortest decimal that reads back to a given
double. -/

namespace CompressionSweep

/-- The number `coefficient * 10 ^ exponent`. -/
structure Decimal where
  coefficient : Nat
  exponent : Int
  deriving DecidableEq, Repr

namespace Decimal

def digitCount (n : Nat) : Nat :=
  (Nat.toDigits 10 n).length

/-- No finite positive double is `10 ^ reach` or more, and none is less than its inverse. -/
def reach : Int := 400

/-- The double nearest to a decimal. Far out of range it is infinite or zero, without a power
of ten being computed. -/
def toFloat (d : Decimal) : Float :=
  if d.coefficient = 0 then 0.0
  else
    let size := digitCount d.coefficient + d.exponent
    if reach < size then Float.ofBits infinityBits.toUInt64
    else if size < -reach then 0.0
    else if 0 ≤ d.exponent then nearest (d.coefficient * Nat.pow 10 d.exponent.toNat) 1
    else nearest d.coefficient (Nat.pow 10 (-d.exponent).toNat)

/-- Where the decimal point stands in the expansion of a positive double: the number of digits
before it, negative for zeros that follow it. -/
def pointPosition (x : Float) : Int :=
  (digitCount (scaledValue x * Nat.pow 10 343 / scale) : Int) - 343

/-- `x / 10 ^ e` as a quotient. -/
def inUnitsOf (x : Float) (e : Int) : Nat × Nat :=
  if 0 ≤ e then (scaledValue x, scale * Nat.pow 10 e.toNat)
  else (scaledValue x * Nat.pow 10 (-e).toNat, scale)

/-- The neighbours of `x` among the multiples of `10 ^ e`, the nearer one first, and of two as
near the one with the even coefficient. -/
def neighbours (x : Float) (e : Int) : List Decimal :=
  let (n, d) := inUnitsOf x e
  let low : Decimal := ⟨n / d, e⟩
  let high : Decimal := ⟨n / d + 1, e⟩
  if 2 * (n % d) < d ∨ 2 * (n % d) = d ∧ (n / d) % 2 = 0 then [low, high] else [high, low]

def exact (x : Float) : Decimal :=
  ⟨scaledValue x * Nat.pow 5 1074, -1074⟩

/-- The first decimal that reads back to `x`, over `1, 2, …` digits up to `limit`, the nearer of
two; the exact value if there is none. -/
def shortestFrom (x : Float) (point : Int) (digits : Nat) : Nat → Decimal
  | 0 => exact x
  | more + 1 =>
    match (neighbours x (point - digits)).find? (fun d => d.toFloat.toBits == x.toBits) with
    | some d => d
    | none => shortestFrom x point (digits + 1) more

/-- The shortest decimal that reads back to the positive finite double `x`. -/
def shortest (x : Float) : Decimal :=
  shortestFrom x (pointPosition x) 1 17

/-- Drops the factors of ten that `fuel` allows from the coefficient. -/
def stripZeros : Nat → Decimal → Decimal
  | 0, d => d
  | fuel + 1, d =>
    if d.coefficient % 10 = 0 ∧ d.coefficient ≠ 0 then
      stripZeros fuel ⟨d.coefficient / 10, d.exponent + 1⟩
    else d

end Decimal

end CompressionSweep
