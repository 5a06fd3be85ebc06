/-! Bytes and characters. A text has one byte form; bytes that are no text are read with a
replacement character for every longest piece that could have begun a character. -/

namespace CompressionSweep

abbrev Bytes := List UInt8

namespace Text

def utf8 (s : String) : Bytes :=
  s.toUTF8.data.toList

def ofUtf8? (b : Bytes) : Option String :=
  String.fromUTF8? ⟨b.toArray⟩

def replacement : Char := '\uFFFD'

def isContinuation (b : UInt8) : Bool :=
  0x80 ≤ b && b < 0xC0

/-- Whether `b` may follow the first byte `a` of a character of three bytes. -/
def mayFollow3 (a b : UInt8) : Bool :=
  if a == 0xE0 then 0xA0 ≤ b && b < 0xC0
  else if a == 0xED then 0x80 ≤ b && b < 0xA0
  else isContinuation b

/-- Whether `b` may follow the first byte `a` of a character of four bytes. -/
def mayFollow4 (a b : UInt8) : Bool :=
  if a == 0xF0 then 0x90 ≤ b && b < 0xC0
  else if a == 0xF4 then 0x80 ≤ b && b < 0x90
  else isContinuation b

def low6 (b : UInt8) : Nat := b.toNat % 64

/-- The character that begins with byte `a`, and how many of the bytes after `a` belong to it.
An incomplete character takes the bytes that fit it. -/
def leading (a : UInt8) (r : Bytes) : Char × Nat :=
  if a < 0x80 then (Char.ofNat a.toNat, 0)
  else if 0xC2 ≤ a && a < 0xE0 then
    match r with
    | b :: _ =>
      if isContinuation b then (Char.ofNat (a.toNat % 32 * 64 + low6 b), 1) else (replacement, 0)
    | [] => (replacement, 0)
  else if 0xE0 ≤ a && a < 0xF0 then
    match r with
    | b :: r =>
      if mayFollow3 a b then
        match r with
        | c :: _ =>
          if isContinuation c then
            (Char.ofNat (a.toNat % 16 * 4096 + low6 b * 64 + low6 c), 2)
          else (replacement, 1)
        | [] => (replacement, 1)
      else (replacement, 0)
    | [] => (replacement, 0)
  else if 0xF0 ≤ a && a < 0xF5 then
    match r with
    | b :: r =>
      if mayFollow4 a b then
        match r with
        | c :: r =>
          if isContinuation c then
            match r with
            | d :: _ =>
              if isContinuation d then
                (Char.ofNat (a.toNat % 8 * 262144 + low6 b * 4096 + low6 c * 64 + low6 d), 3)
              else (replacement, 2)
            | [] => (replacement, 2)
          else (replacement, 1)
        | [] => (replacement, 1)
      else (replacement, 0)
    | [] => (replacement, 0)
  else (replacement, 0)

def lossyChars : Bytes → List Char
  | [] => []
  | a :: r =>
    let (c, taken) := leading a r
    c :: lossyChars (r.drop taken)
termination_by b => b.length
decreasing_by simp only [List.length_drop, List.length_cons]; omega

def lossy (b : Bytes) : String :=
  String.ofList (lossyChars b)

end Text

end CompressionSweep
