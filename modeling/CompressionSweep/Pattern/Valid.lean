import CompressionSweep.Pattern.Reader

/-! Which patterns can be used: those that can be read, are not nested too deeply, match only
whole characters, ask for properties that exist and do not grow too large. -/

namespace CompressionSweep.Pattern

/-! Depth. -/

def maxDepth : Nat := 250

mutual

def ClassItem.depth : ClassItem → Nat
  | .set _ s => 1 + s.depth
  | _ => 0

def ClassSet.depth : ClassSet → Nat
  | .union items => (if 1 < items.length then 1 else 0) + ClassItem.depthAll items
  | .binary _ l r => 1 + max l.depth r.depth

def ClassItem.depthAll : List ClassItem → Nat
  | [] => 0
  | i :: is => max i.depth (ClassItem.depthAll is)

end

mutual

def Ast.depth : Ast → Nat
  | .set _ s => 1 + s.depth
  | .repetition a _ _ => 1 + a.depth
  | .group _ _ a => 1 + a.depth
  | .alternation as => 1 + Ast.depthAll as
  | .concat as => 1 + Ast.depthAll as
  | _ => 0

def Ast.depthAll : List Ast → Nat
  | [] => 0
  | a :: as => max a.depth (Ast.depthAll as)

end

/-! Bytes. With the flag for whole characters off, a class is a set of bytes, and those beyond
ASCII would match parts of characters. -/

/-- A set of bytes as the number with a binary one for each member. -/
abbrev ByteSet := Nat

def ByteSet.range (first last : Nat) : ByteSet :=
  if first ≤ last then (1 <<< (last + 1)) - (1 <<< first) else 0

def ByteSet.all : ByteSet := ByteSet.range 0 255

def ByteSet.negate (s : ByteSet) : ByteSet := ByteSet.all - s

def ByteSet.negateIf (negated : Bool) (s : ByteSet) : ByteSet :=
  if negated then s.negate else s

def ByteSet.isAscii (s : ByteSet) : Bool := s < 1 <<< 128

def ByteSet.ofRanges (rs : List (Nat × Nat)) : ByteSet :=
  rs.foldl (fun s r => s ||| ByteSet.range r.1 r.2) 0

def PerlClass.bytes : PerlClass → ByteSet
  | .digit => .ofRanges [(48, 57)]
  | .space => .ofRanges [(9, 13), (32, 32)]
  | .word => .ofRanges [(48, 57), (65, 90), (95, 95), (97, 122)]

def AsciiClass.bytes : AsciiClass → ByteSet
  | .alnum => .ofRanges [(48, 57), (65, 90), (97, 122)]
  | .alpha => .ofRanges [(65, 90), (97, 122)]
  | .ascii => .ofRanges [(0, 127)]
  | .blank => .ofRanges [(9, 9), (32, 32)]
  | .cntrl => .ofRanges [(0, 31), (127, 127)]
  | .digit => .ofRanges [(48, 57)]
  | .graph => .ofRanges [(33, 126)]
  | .lower => .ofRanges [(97, 122)]
  | .print => .ofRanges [(32, 126)]
  | .punct => .ofRanges [(33, 47), (58, 64), (91, 96), (123, 126)]
  | .space => .ofRanges [(9, 13), (32, 32)]
  | .upper => .ofRanges [(65, 90)]
  | .word => .ofRanges [(48, 57), (65, 90), (95, 95), (97, 122)]
  | .xdigit => .ofRanges [(48, 57), (65, 70), (97, 102)]

def asciiOnly (s : ByteSet) : Option ByteSet :=
  if s.isAscii then some s else none

def Literal.byte? (l : Literal) : Option Nat :=
  if l.char.toNat < 128 then some l.char.toNat else none

def SetOperation.apply (op : SetOperation) (a b : ByteSet) : ByteSet :=
  match op with
  | .intersection => a &&& b
  | .difference => a &&& b.negate
  | .symmetricDifference => a ^^^ b

mutual

def ClassItem.bytes? : ClassItem → Option ByteSet
  | .literal l => l.byte?.map (fun b => ByteSet.range b b)
  | .range a b => do return ByteSet.range (← a.byte?) (← b.byte?)
  | .ascii k negated => asciiOnly (k.bytes.negateIf negated)
  | .perl k negated => asciiOnly (k.bytes.negateIf negated)
  | .property _ => none
  | .set negated s => do asciiOnly (ByteSet.negateIf negated (← s.bytes?))

def ClassSet.bytes? : ClassSet → Option ByteSet
  | .union items => ClassItem.unionBytes? items
  | .binary op l r => do return op.apply (← l.bytes?) (← r.bytes?)

def ClassItem.unionBytes? : List ClassItem → Option ByteSet
  | [] => some 0
  | i :: is => do return (← i.bytes?) ||| (← ClassItem.unionBytes? is)

end

/-! Properties. -/

def PropertyQuery.isKnown : PropertyQuery → Bool
  | .name s => isProperty s
  | .value p v => isPropertyValue p v

mutual

def ClassItem.isKnown : ClassItem → Bool
  | .property q => q.isKnown
  | .set _ s => s.isKnown
  | _ => true

def ClassSet.isKnown : ClassSet → Bool
  | .union items => ClassItem.areKnown items
  | .binary _ l r => l.isKnown && r.isKnown

def ClassItem.areKnown : List ClassItem → Bool
  | [] => true
  | i :: is => i.isKnown && ClassItem.areKnown is

end

/-! Meaning. A setting of flags holds to the end of its group, across the branches; the state
that is carried along is the flag for whole characters. -/

def unicodeAfter (items : List FlagItem) (unicode : Bool) : Bool :=
  (flagState .unicode items false).getD unicode

mutual

/-- Checks a part under the flag for whole characters and gives the flag after it. -/
def Ast.check (unicode : Bool) : Ast → Option Bool
  | .empty | .assertion => some unicode
  | .flags items => some (unicodeAfter items unicode)
  | .literal l => if !unicode && l.isByte && 128 ≤ l.char.toNat then none else some unicode
  | .dot => if unicode then some unicode else none
  | .perl _ negated => if unicode || !negated then some unicode else none
  | .property q => if unicode && q.isKnown then some unicode else none
  | .set negated s =>
    if unicode then if s.isKnown then some unicode else none
    else (s.bytes?.bind (fun b => asciiOnly (ByteSet.negateIf negated b))).map (fun _ => unicode)
  | .repetition a _ _ => a.check unicode
  | .group _ items a => (a.check (unicodeAfter items unicode)).map (fun _ => unicode)
  | .alternation as => Ast.checkAll unicode as
  | .concat as => Ast.checkAll unicode as

def Ast.checkAll (unicode : Bool) : List Ast → Option Bool
  | [] => some unicode
  | a :: as => (a.check unicode).bind (fun u => Ast.checkAll u as)

end

/-! Size. The automaton of a pattern takes about as many bytes as `Ast.size` says; it may not
grow beyond a limit. -/

def sizeLimit : Nat := 10 <<< 20

def stateSize : Nat := 32

def PerlClass.size : PerlClass → Nat
  | .digit => 4000
  | .space => 800
  | .word => 52000

def propertySize : Nat := 20000

def dotSize : Nat := 600

mutual

def ClassItem.size : ClassItem → Nat
  | .literal _ | .range _ _ => 40
  | .ascii _ _ => 60
  | .perl k _ => k.size
  | .property _ => propertySize
  | .set negated s => (if negated then dotSize else 0) + s.size

def ClassSet.size : ClassSet → Nat
  | .union items => ClassItem.sizes items
  | .binary _ l r => l.size + r.size

def ClassItem.sizes : List ClassItem → Nat
  | [] => 0
  | i :: is => i.size + ClassItem.sizes is

end

mutual

/-- Whether a part can match a text that is not empty. -/
def Ast.consumes : Ast → Bool
  | .empty | .flags _ | .assertion => false
  | .repetition a _ most => most != some 0 && a.consumes
  | .group _ _ a => a.consumes
  | .alternation as => Ast.anyConsumes as
  | .concat as => Ast.anyConsumes as
  | _ => true

def Ast.anyConsumes : List Ast → Bool
  | [] => false
  | a :: as => a.consumes || Ast.anyConsumes as

end

/-- The copies of a body that a repetition needs. -/
def copies (consumes : Bool) (least : Nat) (most : Option Nat) : Nat :=
  let n :=
    match most with
    | some k => k
    | none => max least 1
  if consumes then n else min n 1

mutual

def Ast.size : Ast → Nat
  | .empty | .flags _ => 0
  | .literal l => stateSize * l.char.utf8Size
  | .dot => dotSize
  | .assertion => stateSize
  | .perl k _ => k.size
  | .property _ => propertySize
  | .set negated s => (if negated then dotSize else stateSize) + s.size
  | .repetition a least most => stateSize + copies a.consumes least most * a.size
  | .group captures _ a => (if captures then 2 * stateSize else 0) + a.size
  | .alternation as => 2 * stateSize + Ast.sizes as
  | .concat as => Ast.sizes as

def Ast.sizes : List Ast → Nat
  | [] => 0
  | a :: as => a.size + Ast.sizes as

end

def Ast.isUsable (a : Ast) : Bool :=
  a.depth ≤ maxDepth && (a.check true).isSome && a.size ≤ sizeLimit

def isValid (pattern : String) : Bool :=
  match parse? pattern.toList with
  | none => false
  | some a => a.isUsable

end CompressionSweep.Pattern
