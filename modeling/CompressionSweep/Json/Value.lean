import CompressionSweep.Text.Utf8

/-! JSON values and their two printed forms: on one line without spaces, and over several lines
with two spaces for each level. -/

namespace CompressionSweep.Json

/-- A value whose numbers stand as they are written. -/
inductive Value where
  | null
  | number (digits : List Char)
  | text (s : String)
  | list (items : List Value)
  | object (members : List (String × Value))

def hexByte (n : Nat) : UInt8 :=
  if n < 10 then (0x30 + n).toUInt8 else (0x57 + n).toUInt8

def escapeByte (b : UInt8) : Bytes :=
  if b == 0x22 || b == 0x5C then [0x5C, b]
  else if b == 0x08 then [0x5C, 0x62]
  else if b == 0x09 then [0x5C, 0x74]
  else if b == 0x0A then [0x5C, 0x6E]
  else if b == 0x0C then [0x5C, 0x66]
  else if b == 0x0D then [0x5C, 0x72]
  else if b < 0x20 then
    [0x5C, 0x75, 0x30, 0x30, hexByte (b.toNat / 16), hexByte (b.toNat % 16)]
  else [b]

def textBytes (s : String) : Bytes :=
  0x22 :: (Text.utf8 s).flatMap escapeByte ++ [0x22]

def nullBytes : Bytes := [0x6E, 0x75, 0x6C, 0x6C]

def asciiBytes (s : List Char) : Bytes :=
  s.map (fun c => c.toNat.toUInt8)

/-- How values are laid out: what stands in front of a member at a level, and after a colon. -/
structure Layout where
  lineStart : Nat → Bytes
  afterColon : Bytes

def Layout.compact : Layout :=
  ⟨fun _ => [], []⟩

def Layout.pretty : Layout :=
  ⟨fun level => 0x0A :: List.replicate (2 * level) 0x20, [0x20]⟩

mutual

def Value.bytes (l : Layout) (level : Nat) : Value → Bytes
  | .null => nullBytes
  | .number digits => asciiBytes digits
  | .text s => textBytes s
  | .list [] => [0x5B, 0x5D]
  | .list (v :: vs) =>
    0x5B :: l.lineStart (level + 1) ++ v.bytes l (level + 1) ++ Value.itemsBytes l (level + 1) vs
      ++ l.lineStart level ++ [0x5D]
  | .object [] => [0x7B, 0x7D]
  | .object ((k, v) :: ms) =>
    0x7B :: l.lineStart (level + 1) ++ textBytes k ++ 0x3A :: l.afterColon
      ++ v.bytes l (level + 1) ++ Value.membersBytes l (level + 1) ms
      ++ l.lineStart level ++ [0x7D]

def Value.itemsBytes (l : Layout) (level : Nat) : List Value → Bytes
  | [] => []
  | v :: vs => 0x2C :: l.lineStart level ++ v.bytes l level ++ Value.itemsBytes l level vs

def Value.membersBytes (l : Layout) (level : Nat) : List (String × Value) → Bytes
  | [] => []
  | (k, v) :: ms =>
    0x2C :: l.lineStart level ++ textBytes k ++ 0x3A :: l.afterColon ++ v.bytes l level
      ++ Value.membersBytes l level ms

end

end CompressionSweep.Json
