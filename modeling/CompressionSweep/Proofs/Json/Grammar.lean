import CompressionSweep.Proofs.Json.Takes

/-! The grammar of JSON texts, said apart from how they are read: strings and the ways to write
their characters, lists and objects with white space between their parts, and from these all
values. -/

namespace CompressionSweep.Json

/-! Strings. -/

/-- `b` is the hexadecimal digit `n`, in either case. -/
def HexDigit (b : UInt8) (n : Nat) : Prop :=
  n < 16 ∧ (b = hexByte n ∨ 10 ≤ n ∧ b = hexByte n - 0x20)

/-- Four hexadecimal digits and the number they stand for. -/
inductive CodeText : Bytes → Nat → Prop where
  | mk {a b c d : UInt8} {k l m n : Nat} (ha : HexDigit a k) (hb : HexDigit b l)
    (hc : HexDigit c m) (hd : HexDigit d n) :
    CodeText [a, b, c, d] (k * 4096 + l * 256 + m * 16 + n)

/-- The letters that may stand behind a backslash, and the characters they stand for. -/
def shortEscapes : List (UInt8 × Char) :=
  [(0x22, '"'), (0x5C, '\\'), (0x2F, '/'), (0x62, '\x08'), (0x66, '\x0C'), (0x6E, '\n'),
    (0x72, '\r'), (0x74, '\t')]

/-- The ways to write a character in a string: as it is, by a letter, by its code, and by the codes
of two surrogates. -/
inductive CharText : Bytes → Char → Prop where
  | plain {c : Char} (hcontrol : 0x20 ≤ c.toNat) (hquote : c ≠ '"') (hslash : c ≠ '\\') :
    CharText (String.utf8EncodeChar c) c
  | short {b : UInt8} {c : Char} (h : (b, c) ∈ shortEscapes) : CharText [0x5C, b] c
  | code {hex : Bytes} {c : Char} (h : CodeText hex c.toNat) : CharText (0x5C :: 0x75 :: hex) c
  | pair {lead trail : Bytes} {m n : Nat} {c : Char} (hlead : CodeText lead (0xD800 + m))
    (htrail : CodeText trail (0xDC00 + n)) (hm : m < 0x400) (hn : n < 0x400)
    (hc : c.toNat = 0x10000 + m * 0x400 + n) :
    CharText (0x5C :: 0x75 :: (lead ++ 0x5C :: 0x75 :: trail)) c

inductive CharsText : Bytes → List Char → Prop where
  | nil : CharsText [] []
  | cons {b s : Bytes} {c : Char} {cs : List Char} (head : CharText b c) (tail : CharsText s cs) :
    CharsText (b ++ s) (c :: cs)

/-- The ways to write a string. -/
def StringText (b : Bytes) (s : String) : Prop :=
  ∃ inside, CharsText inside s.toList ∧ b = 0x22 :: (inside ++ [0x22])

/-- What stands in a well-formed string. Its bytes and its escapes need not make up characters. -/
inductive InsideText : Bytes → Prop where
  | nil : InsideText []
  | plain {b : UInt8} {s : Bytes} (hcontrol : 0x20 ≤ b.toNat) (hquote : b ≠ 0x22)
    (hslash : b ≠ 0x5C) (tail : InsideText s) : InsideText (b :: s)
  | short {b : UInt8} {c : Char} {s : Bytes} (h : (b, c) ∈ shortEscapes) (tail : InsideText s) :
    InsideText (0x5C :: b :: s)
  | code {hex s : Bytes} {n : Nat} (h : CodeText hex n) (tail : InsideText s) :
    InsideText (0x5C :: 0x75 :: (hex ++ s))

def QuotedText (b : Bytes) : Prop :=
  ∃ inside, InsideText inside ∧ b = 0x22 :: (inside ++ [0x22])

/-! Numbers. -/

def Digits (b : Bytes) : Prop :=
  b ≠ [] ∧ ∀ d ∈ b, isDigitByte d = true

inductive FractionText : Bytes → Prop where
  | none : FractionText []
  | digits {ds : Bytes} (h : Digits ds) : FractionText (0x2E :: ds)

inductive ExponentText : Bytes → Prop where
  | none : ExponentText []
  | digits {letter : UInt8} {sign ds : Bytes} (hletter : letter = 0x65 ∨ letter = 0x45)
    (hsign : sign = [] ∨ sign = [0x2B] ∨ sign = [0x2D]) (h : Digits ds) :
    ExponentText (letter :: (sign ++ ds))

/-- A number without its sign. -/
inductive MagnitudeText : Bytes → Prop where
  | mk {whole fraction exponent : Bytes} (hwhole : Digits whole)
    (hzero : whole.head? = some 0x30 → whole = [0x30]) (hfraction : FractionText fraction)
    (hexponent : ExponentText exponent) : MagnitudeText (whole ++ (fraction ++ exponent))

/-! Lists and objects. -/

/-- What stands behind an opening bracket (`true`) or behind an item (`false`): the items to come,
with commas between them and white space anywhere, and the closing bracket. -/
inductive ItemsText (close : UInt8) : Bool → List Bytes → Bytes → Prop where
  | close {first : Bool} {blank : Bytes} (hblank : IsBlank blank) :
    ItemsText close first [] (blank ++ [close])
  | first {blank p s : Bytes} {ps : List Bytes} (hblank : IsBlank blank)
    (tail : ItemsText close false ps s) : ItemsText close true (p :: ps) (blank ++ (p ++ s))
  | next {blank blank' p s : Bytes} {ps : List Bytes} (hblank : IsBlank blank)
    (hblank' : IsBlank blank') (tail : ItemsText close false ps s) :
    ItemsText close false (p :: ps) (blank ++ 0x2C :: (blank' ++ (p ++ s)))

/-- Items between brackets. -/
def Enclosed (opening close : UInt8) (ps : List Bytes) (b : Bytes) : Prop :=
  ∃ s, ItemsText close true ps s ∧ b = opening :: s

/-- A member of an object: its key and its value, with white space around the colon. -/
def KeyedText (key value b : Bytes) : Prop :=
  ∃ blank blank', IsBlank blank ∧ IsBlank blank' ∧
    b = key ++ (blank ++ 0x3A :: (blank' ++ value))

/-- The text of any well-formed value. -/
inductive ValueText : Bytes → Prop where
  | null : ValueText nullBytes
  | true : ValueText (asciiBytes ['t', 'r', 'u', 'e'])
  | false : ValueText (asciiBytes ['f', 'a', 'l', 's', 'e'])
  | number {b : Bytes} (h : MagnitudeText b) : ValueText b
  | minus {b : Bytes} (h : MagnitudeText b) : ValueText (0x2D :: b)
  | string {b : Bytes} (h : QuotedText b) : ValueText b
  | list {ps : List Bytes} {b : Bytes} (values : ∀ p ∈ ps, ValueText p)
    (h : Enclosed 0x5B 0x5D ps b) : ValueText b
  | object {ms : List (Bytes × Bytes)} {ps : List Bytes} {b : Bytes}
    (keys : ∀ m ∈ ms, QuotedText m.1) (values : ∀ m ∈ ms, ValueText m.2)
    (members : List.Forall₂ (fun m p => KeyedText m.1 m.2 p) ms ps)
    (h : Enclosed 0x7B 0x7D ps b) : ValueText b

end CompressionSweep.Json
