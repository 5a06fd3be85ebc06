/-! The double nearest to a quotient of natural numbers, and the exact value of a double.
A finite double is its scaled value divided by `2 ^ 1074`; the scaled value is a natural number
of at most 53 significant bits, and the bit patterns of the doubles from zero upwards count
these values in order. -/

namespace CompressionSweep.Decimal

/-- `n / d` to the nearest whole number, a half to the even one. -/
def roundEven (n d : Nat) : Nat :=
  let q := n / d
  let r := n % d
  if 2 * r < d then q else if d < 2 * r then q + 1 else q + q % 2

/-- The number of units in the last place of the double at or below `t / 2 ^ 1074`, as an
exponent of two. -/
def unitExponent (t : Nat) : Nat :=
  Nat.log2 t - 52

def infinityBits : Nat := 0x7FF0000000000000

/-- The bits of the double nearest to `n / d`, a tie going to the even one. -/
def nearestBits (n d : Nat) : Nat :=
  let scaled := n <<< 1074
  let e := unitExponent (scaled / d)
  min ((e <<< 52) + roundEven scaled (d <<< e)) infinityBits

def nearest (n d : Nat) : Float :=
  Float.ofBits (nearestBits n d).toUInt64

def isNegative (x : Float) : Bool :=
  1 <<< 63 ≤ x.toBits.toNat

def magnitudeBits (x : Float) : Nat :=
  x.toBits.toNat % (1 <<< 63)

/-- The magnitude of a finite double times `2 ^ 1074`. -/
def scaledValue (x : Float) : Nat :=
  let b := magnitudeBits x
  if b < 1 <<< 52 then b else ((1 <<< 52) + b % (1 <<< 52)) <<< ((b >>> 52) - 1)

def scale : Nat := 1 <<< 1074

/-- Order key of the total order on doubles: negative values downwards, then positive values
upwards, and the two zeros apart. -/
def orderKey (x : Float) : Nat :=
  if isNegative x then (1 <<< 63) - 1 - magnitudeBits x else (1 <<< 63) + magnitudeBits x

end CompressionSweep.Decimal
