import CompressionSweep.Json.Problem
import CompressionSweep.Text.Utf8

/-! Reading JSON text in one pass, byte by byte, so that the first problem in the text is the
one that is reported. -/

namespace CompressionSweep.Json

/-- Takes something from the front of the text, or says what is wrong there. -/
abbrev Reader := StateT Bytes (Except Problem)

def fail {α : Type} (p : Problem) : Reader α := throw p

def isBlankByte (b : UInt8) : Bool :=
  b == 0x20 || b == 0x0A || b == 0x09 || b == 0x0D

def isDigitByte (b : UInt8) : Bool :=
  0x30 ≤ b && b ≤ 0x39

def dropBlank (s : Bytes) : Bytes :=
  s.dropWhile isBlankByte

/-- The next byte that is not white space; it stays in the text. -/
def peek : Reader (Option UInt8) := fun s =>
  let s := dropBlank s
  .ok (s.head?, s)

def skipByte : Reader Unit := fun s => .ok ((), s.tail)

/-! Strings. -/

def hexValue (b : UInt8) : Option Nat :=
  if isDigitByte b then some (b.toNat - 0x30)
  else if 0x61 ≤ b && b ≤ 0x66 then some (b.toNat - 0x57)
  else if 0x41 ≤ b && b ≤ 0x46 then some (b.toNat - 0x37)
  else none

def hexValue4 (a b c d : UInt8) : Option Nat := do
  let a ← hexValue a
  let b ← hexValue b
  let c ← hexValue c
  let d ← hexValue d
  return a * 4096 + b * 256 + c * 16 + d

def shortEscape (b : UInt8) : Option UInt8 :=
  if b == 0x22 || b == 0x5C || b == 0x2F then some b
  else if b == 0x62 then some 0x08
  else if b == 0x66 then some 0x0C
  else if b == 0x6E then some 0x0A
  else if b == 0x72 then some 0x0D
  else if b == 0x74 then some 0x09
  else none

def isLeadSurrogate (n : Nat) : Bool := 0xD800 ≤ n && n < 0xDC00

def isTrailSurrogate (n : Nat) : Bool := 0xDC00 ≤ n && n < 0xE000

def charBytes (n : Nat) : Bytes :=
  Text.utf8 (String.singleton (Char.ofNat n))

def consBytes (b : Bytes) : Except Problem (Bytes × Bytes) → Except Problem (Bytes × Bytes)
  | .error p => .error p
  | .ok (text, rest) => .ok (b ++ text, rest)

/-- The bytes of a string up to its closing quotation mark, with the escapes resolved, and the
text after it. -/
def stringBytes : Bytes → Except Problem (Bytes × Bytes)
  | [] => .error .endInString
  | b :: r =>
    if b == 0x22 then .ok ([], r)
    else if b == 0x5C then
      match r with
      | [] => .error .endInString
      | e :: r =>
        match shortEscape e with
        | some c => consBytes [c] (stringBytes r)
        | none =>
          if e == 0x75 then
            match r with
            | h₁ :: h₂ :: h₃ :: h₄ :: r =>
              match hexValue4 h₁ h₂ h₃ h₄ with
              | none => .error .invalidEscape
              | some n =>
                if isTrailSurrogate n then .error .loneSurrogate
                else if isLeadSurrogate n then
                  match r with
                  | [] => .error .endInString
                  | b :: r =>
                    if b == 0x5C then
                      match r with
                      | [] => .error .endInString
                      | e :: r =>
                        if e == 0x75 then
                          match r with
                          | k₁ :: k₂ :: k₃ :: k₄ :: r =>
                            match hexValue4 k₁ k₂ k₃ k₄ with
                            | none => .error .invalidEscape
                            | some m =>
                              if isTrailSurrogate m then
                                consBytes
                                  (charBytes ((n - 0xD800) * 1024 + (m - 0xDC00) + 0x10000))
                                  (stringBytes r)
                              else .error .loneSurrogate
                          | _ => .error .endInString
                        else .error .unfinishedPair
                    else .error .unfinishedPair
                else consBytes (charBytes n) (stringBytes r)
            | _ => .error .endInString
          else .error .invalidEscape
    else if b < 0x20 then .error .controlCharacter
    else consBytes [b] (stringBytes r)

def stringRest : Reader String := fun s =>
  match stringBytes s with
  | .error p => .error p
  | .ok (b, rest) =>
    match Text.ofUtf8? b with
    | none => .error .invalidUnicode
    | some text => .ok (text, rest)

/-- The text after a string whose content does not matter. -/
def afterString : Bytes → Except Problem Bytes
  | [] => .error .endInString
  | b :: r =>
    if b == 0x22 then .ok r
    else if b == 0x5C then
      match r with
      | [] => .error .endInString
      | e :: r =>
        if (shortEscape e).isSome then afterString r
        else if e == 0x75 then
          match r with
          | h₁ :: h₂ :: h₃ :: h₄ :: r =>
            if (hexValue4 h₁ h₂ h₃ h₄).isSome then afterString r else .error .invalidEscape
          | _ => .error .endInString
        else .error .invalidEscape
    else if b < 0x20 then .error .controlCharacter
    else afterString r

/-! Numbers. -/

inductive Number where
  | integer (n : Int)
  | float (x : Float)
  deriving DecidableEq

def digitsValue (ds : Bytes) : Nat :=
  ds.foldl (fun n d => n * 10 + (d.toNat - 0x30)) 0

def takeDigits (s : Bytes) : Bytes × Bytes :=
  (s.takeWhile isDigitByte, s.dropWhile isDigitByte)

def signed (negative : Bool) (x : Float) : Float :=
  if negative then -x else x

def floatNumber (negative : Bool) (d : Decimal) : Except Problem Number :=
  let x := d.toFloat
  if x.isInf then .error .numberOutOfRange else .ok (.float (signed negative x))

/-- A number without point and exponent: an integer if it fits 64 bits (a negative one 63), and
otherwise, as for a negative zero, a double. -/
def wholeNumber (negative : Bool) (n : Nat) : Except Problem Number :=
  if negative then
    if 0 < n ∧ n ≤ 1 <<< 63 then .ok (.integer (-n)) else floatNumber true ⟨n, 0⟩
  else if n < UInt64.size then .ok (.integer n)
  else floatNumber false ⟨n, 0⟩

/-- An exponent after its letter: its value and the rest of the text. -/
def exponentPart (s : Bytes) : Except Problem (Int × Bytes) :=
  let (negative, s) :=
    match s with
    | b :: r => if b == 0x2B then (false, r) else if b == 0x2D then (true, r) else (false, s)
    | [] => (false, [])
  match s with
  | [] => .error .endInValue
  | b :: _ =>
    if isDigitByte b then
      let (ds, rest) := takeDigits s
      let n : Int := digitsValue ds
      .ok (if negative then -n else n, rest)
    else .error .invalidNumber

def isExponentLetter (b : UInt8) : Bool := b == 0x65 || b == 0x45

/-- The rest of a number after its digits `whole` and the digits `fraction` after its point. -/
def scaledNumber (negative : Bool) (whole fraction : Bytes) (pointed : Bool) (s : Bytes) :
    Except Problem (Number × Bytes) := do
  let n := digitsValue (whole ++ fraction)
  let places : Int := fraction.length
  match s with
  | b :: r =>
    if isExponentLetter b then
      let (e, rest) ← exponentPart r
      return (← floatNumber negative ⟨n, e - places⟩, rest)
    else if pointed then return (← floatNumber negative ⟨n, -places⟩, s)
    else return (← wholeNumber negative n, s)
  | [] =>
    if pointed then return (← floatNumber negative ⟨n, -places⟩, s)
    else return (← wholeNumber negative n, s)

def unsignedNumber (negative : Bool) : Reader Number := fun s =>
  let (whole, rest) := takeDigits s
  match whole with
  | [] => .error (if s.isEmpty then .endInValue else .invalidNumber)
  | d :: more =>
    if d == 0x30 ∧ more ≠ [] then .error .invalidNumber
    else
      match rest with
      | 0x2E :: after =>
        let (fraction, rest) := takeDigits after
        if fraction.isEmpty then
          .error (if rest.isEmpty then .endInValue else .invalidNumber)
        else scaledNumber negative whole fraction true rest
      | _ => scaledNumber negative whole [] false rest

/-- The text after the digits, the fraction and the exponent of a number that does not matter. -/
def afterNumber (s : Bytes) : Except Problem Bytes :=
  let (whole, rest) := takeDigits s
  match whole with
  | [] => .error .invalidNumber
  | d :: more =>
    if d == 0x30 ∧ more ≠ [] then .error .invalidNumber
    else do
      let rest ←
        match rest with
        | 0x2E :: after =>
          let (fraction, rest) := takeDigits after
          if fraction.isEmpty then .error .invalidNumber else .ok rest
        | _ => .ok rest
      match rest with
      | b :: r =>
        if isExponentLetter b then
          let r :=
            match r with
            | c :: t => if c == 0x2B || c == 0x2D then t else r
            | [] => r
          let (digits, rest) := takeDigits r
          if digits.isEmpty then .error .invalidNumber else .ok rest
        else .ok rest
      | [] => .ok rest

/-! Words, and values that do not matter. -/

/-- Takes the rest of `null`, `true` or `false`. -/
def word : Bytes → Bytes → Except Problem Bytes
  | [], s => .ok s
  | _ :: _, [] => .error .endInValue
  | w :: ws, b :: s => if b == w then word ws s else .error .expectedIdent

def nullRest : Bytes := [0x75, 0x6C, 0x6C]

def trueRest : Bytes := [0x72, 0x75, 0x65]

def falseRest : Bytes := [0x61, 0x6C, 0x73, 0x65]

/-- A list or an object that is open around a value. -/
inductive Frame where
  | list
  | object
  deriving DecidableEq, Repr

def Frame.close : Frame → UInt8
  | .list => 0x5D
  | .object => 0x7D

def Frame.ended : Frame → Problem
  | .list => .endInList
  | .object => .endInObject

def Frame.expectedEnd : Frame → Problem
  | .list => .expectedListEnd
  | .object => .expectedObjectEnd

def Frame.beforeValue : Frame → Bytes → Except Problem Bytes
  | .list, s => .ok s
  | .object, s =>
    match dropBlank s with
    | [] => .error .endInObject
    | b :: r =>
      if b == 0x22 then do
        let r ← afterString r
        match dropBlank r with
        | [] => .error .endInObject
        | c :: t => if c == 0x3A then .ok t else .error .expectedColon
      else .error .keyNotText

/-- After a value inside `frames`: the text after the outermost frame if that was the last value
of them all, else the frames and the text in front of the next value. -/
def afterValue : List Frame → Bytes → Except Problem (List Frame × Bytes)
  | [], s => .ok ([], s)
  | f :: fs, s =>
    match dropBlank s with
    | [] => .error f.ended
    | b :: r =>
      if b == 0x2C then
        match f.beforeValue r with
        | .error p => .error p
        | .ok t => .ok (f :: fs, t)
      else if b == f.close then afterValue fs r
      else .error f.expectedEnd

/-- After the opening bracket of `f`, inside `frames`. -/
def afterOpening (f : Frame) (fs : List Frame) (s : Bytes) : Except Problem (List Frame × Bytes) :=
  match dropBlank s with
  | [] => .error f.ended
  | b :: r =>
    if b == f.close then afterValue fs r
    else
      match f.beforeValue (b :: r) with
      | .error p => .error p
      | .ok t => .ok (f :: fs, t)

/-- One step over a value inside `frames`: a scalar is passed with all brackets that close after
it, and of a list or an object the opening bracket. -/
def skipStep (frames : List Frame) (s : Bytes) : Except Problem (List Frame × Bytes) :=
  match dropBlank s with
  | [] => .error .endInValue
  | b :: r =>
    let scalar (rest : Except Problem Bytes) : Except Problem (List Frame × Bytes) :=
      match rest with
      | .error p => .error p
      | .ok t => afterValue frames t
    if b == 0x6E then scalar (word nullRest r)
    else if b == 0x74 then scalar (word trueRest r)
    else if b == 0x66 then scalar (word falseRest r)
    else if b == 0x2D then scalar (afterNumber r)
    else if isDigitByte b then scalar (afterNumber (b :: r))
    else if b == 0x22 then scalar (afterString r)
    else if b == 0x5B then afterOpening .list frames r
    else if b == 0x7B then afterOpening .object frames r
    else .error .expectedValue

/-- Repeats `skipStep` until every frame is closed. A step takes at least one byte, so the
length of the text is fuel enough. -/
def skipLoop : Nat → List Frame → Bytes → Except Problem Bytes
  | 0, _, _ => .error .endInValue
  | fuel + 1, frames, s =>
    match skipStep frames s with
    | .error p => .error p
    | .ok ([], t) => .ok t
    | .ok (frames, t) => skipLoop fuel frames t

def skipValue : Reader Unit := fun s =>
  match skipLoop (s.length + 1) [] s with
  | .error p => .error p
  | .ok rest => .ok ((), rest)

def mismatch {α : Type} (wanted : Wanted) : Reader α := fun s =>
  let report (found : Found) : Except Problem (α × Bytes) := .error (.wrongType found wanted)
  let number (r : Except Problem (Number × Bytes)) : Except Problem (α × Bytes) :=
    match r with
    | .error p => .error p
    | .ok (.integer n, _) => report (.integer n)
    | .ok (.float x, _) => report (.float x)
  let afterWord (r : Except Problem Bytes) (found : Found) : Except Problem (α × Bytes) :=
    match r with
    | .error p => .error p
    | .ok _ => report found
  match dropBlank s with
  | [] => .error .expectedValue
  | b :: r =>
    if b == 0x6E then afterWord (word nullRest r) .null
    else if b == 0x74 then afterWord (word trueRest r) (.boolean true)
    else if b == 0x66 then afterWord (word falseRest r) (.boolean false)
    else if b == 0x2D then number (unsignedNumber true r)
    else if isDigitByte b then number (unsignedNumber false (b :: r))
    else if b == 0x22 then
      match stringRest r with
      | .error p => .error p
      | .ok (text, _) => report (.text text)
    else if b == 0x5B then report .sequence
    else if b == 0x7B then report .map
    else .error .expectedValue

/-! Typed values. -/

/-- The next byte that is not white space where a value must stand. -/
def peekValue : Reader UInt8 := do
  match ← peek with
  | none => fail .endInValue
  | some b => return b

def text : Reader String := do
  let b ← peekValue
  if b == 0x22 then
    skipByte
    stringRest
  else mismatch .text

/-- `null`, or a string. -/
def optionalText : Reader (Option String) := do
  match ← peek with
  | some 0x6E =>
    skipByte
    fun s => (word nullRest s).map (fun rest => (none, rest))
  | _ => return some (← text)

def number (wanted : Wanted) : Reader Number := do
  let b ← peekValue
  if b == 0x2D then
    skipByte
    unsignedNumber true
  else if isDigitByte b then unsignedNumber false
  else mismatch wanted

/-- A number that must be an integer from zero to below `bound`. -/
def natural (wanted : Wanted) (bound : Nat) : Reader Nat := do
  match ← number wanted with
  | .float x => fail (.wrongType (.float x) wanted)
  | .integer n => if 0 ≤ n ∧ n < bound then return n.toNat else fail (.wrongValue n wanted)

def u32 : Reader UInt32 := return (← natural .u32 UInt32.size).toUInt32

def u64 : Reader UInt64 := return (← natural .u64 UInt64.size).toUInt64

/-- The double nearest to an integer. -/
def ofInteger (n : Int) : Float :=
  signed (n < 0) (Decimal.toFloat ⟨n.natAbs, 0⟩)

def f64 : Reader Float := do
  match ← number .f64 with
  | .float x => return x
  | .integer n => return ofInteger n

/-! Lists and objects. -/

/-- Whether another item of a list stands in front; takes the comma before it. -/
def moreItems (first : Bool) : Reader Bool := do
  match ← peek with
  | none => fail .endInList
  | some b =>
    if b == 0x5D then return false
    else if first then return true
    else if b == 0x2C then
      skipByte
      match ← peek with
      | none => fail .endInValue
      | some c => if c == 0x5D then fail .trailingComma else return true
    else fail .expectedListEnd

def itemsLoop {α : Type} (item : Reader α) : Nat → Bool → Reader (List α)
  | 0, _ => fail .endInList
  | fuel + 1, first => do
    if ← moreItems first then
      let a ← item
      return a :: (← itemsLoop item fuel false)
    else return []

/-- The items of a list whose opening bracket has been taken. An item takes at least one byte,
so the length of the text bounds their number. -/
def items {α : Type} (item : Reader α) : Reader (List α) := fun s =>
  itemsLoop item (s.length + 1) true s

def endList : Reader Unit := do
  match ← peek with
  | none => fail .endInList
  | some b =>
    if b == 0x5D then skipByte
    else if b == 0x2C then
      skipByte
      match ← peek with
      | some 0x5D => fail .trailingComma
      | _ => fail .trailingCharacters
    else fail .trailingCharacters

def list {α : Type} (item : Reader α) : Reader (List α) := do
  let b ← peekValue
  if b == 0x5B then
    skipByte
    let as ← items item
    endList
    return as
  else mismatch .sequence

/-- The key of the next member of an object and the colon after it, if there is one. -/
def nextKey (first : Bool) : Reader (Option String) := do
  let key : Reader (Option String) := do
    skipByte
    return some (← stringRest)
  match ← peek with
  | none => fail .endInObject
  | some b =>
    if b == 0x7D then return none
    else if first then
      if b == 0x22 then key else fail .keyNotText
    else if b == 0x2C then
      skipByte
      match ← peek with
      | none => fail .endInValue
      | some c =>
        if c == 0x22 then key
        else if c == 0x7D then fail .trailingComma
        else fail .keyNotText
    else fail .expectedObjectEnd

def colon : Reader Unit := do
  match ← peek with
  | none => fail .endInObject
  | some b => if b == 0x3A then skipByte else fail .expectedColon

def membersLoop {σ : Type} (member : String → σ → Reader σ) : Nat → Bool → σ → Reader σ
  | 0, _, _ => fail .endInObject
  | fuel + 1, first, state => do
    match ← nextKey first with
    | none => return state
    | some key => membersLoop member fuel false (← member key state)

/-- Hands the members of an object whose opening bracket has been taken to `member`, which reads
the colon and the value, and takes the closing bracket. -/
def members {σ : Type} (member : String → σ → Reader σ) (state : σ) : Reader σ := do
  let state ← fun s => membersLoop member (s.length + 1) true state s
  skipByte
  return state

def finish : Reader Unit := do
  match ← peek with
  | none => return ()
  | some _ => fail .trailingCharacters

end CompressionSweep.Json
