import CompressionSweep.Decimal.Notation
import CompressionSweep.Text.Quoted

/-! What can be wrong with a document's text: it ends too early, it is malformed, or it is well
formed and describes something else. -/

namespace CompressionSweep.Json

/-- What a decoder wants at a place of the text. -/
inductive Wanted where
  | text
  | u32
  | u64
  | f64
  | sequence
  | document
  | runEntry
  | record
  | algorithms
  deriving DecidableEq, Repr

def Wanted.description : Wanted → String
  | .text => "a string"
  | .u32 => "u32"
  | .u64 => "u64"
  | .f64 => "f64"
  | .sequence => "a sequence"
  | .document => "struct ResultsDocument"
  | .runEntry => "struct RunEntry"
  | .record => "struct MeasurementRecord"
  | .algorithms => "a map of algorithm name to run list"

/-- The number of members of a struct. -/
def Wanted.width : Wanted → Nat
  | .document => 6
  | .runEntry => 2
  | .record => 3
  | _ => 0

/-- What stands at a place of the text. -/
inductive Found where
  | null
  | boolean (b : Bool)
  | integer (n : Int)
  | float (x : Float)
  | text (s : String)
  | sequence
  | map
  deriving DecidableEq

def Found.description : Found → String
  | .null => "null"
  | .boolean b => "boolean `" ++ (if b then "true" else "false") ++ "`"
  | .integer n => "integer `" ++ toString n ++ "`"
  | .float x => "floating point `" ++ Decimal.text x ++ "`"
  | .text s => "string " ++ Text.quoted s
  | .sequence => "sequence"
  | .map => "map"

inductive Problem where
  | endInValue
  | endInList
  | endInObject
  | endInString
  | expectedValue
  | expectedIdent
  | expectedColon
  | expectedListEnd
  | expectedObjectEnd
  | keyNotText
  | trailingComma
  | trailingCharacters
  | invalidNumber
  | numberOutOfRange
  | invalidEscape
  | loneSurrogate
  | unfinishedPair
  | controlCharacter
  | invalidUnicode
  | missingField (name : String)
  | duplicateField (name : String)
  | wrongType (found : Found) (wanted : Wanted)
  | wrongValue (n : Int) (wanted : Wanted)
  | wrongLength (length : Nat) (wanted : Wanted)
  deriving DecidableEq

inductive Problem.Category where
  | ended
  | malformed
  | other
  deriving DecidableEq, Repr

def Problem.category : Problem → Problem.Category
  | .endInValue | .endInList | .endInObject | .endInString => .ended
  | .missingField _ | .duplicateField _ | .wrongType .. | .wrongValue .. | .wrongLength .. =>
    .other
  | _ => .malformed

def Problem.message : Problem → String
  | .endInValue => "EOF while parsing a value"
  | .endInList => "EOF while parsing a list"
  | .endInObject => "EOF while parsing an object"
  | .endInString => "EOF while parsing a string"
  | .expectedValue => "expected value"
  | .expectedIdent => "expected ident"
  | .expectedColon => "expected `:`"
  | .expectedListEnd => "expected `,` or `]`"
  | .expectedObjectEnd => "expected `,` or `\x7d`"
  | .keyNotText => "key must be a string"
  | .trailingComma => "trailing comma"
  | .trailingCharacters => "trailing characters"
  | .invalidNumber => "invalid number"
  | .numberOutOfRange => "number out of range"
  | .invalidEscape => "invalid escape"
  | .loneSurrogate => "lone leading surrogate in hex escape"
  | .unfinishedPair => "unexpected end of hex escape"
  | .controlCharacter => "control character (\\u0000-\\u001F) found while parsing a string"
  | .invalidUnicode => "invalid unicode code point"
  | .missingField name => "missing field `" ++ name ++ "`"
  | .duplicateField name => "duplicate field `" ++ name ++ "`"
  | .wrongType found wanted =>
    "invalid type: " ++ found.description ++ ", expected " ++ wanted.description
  | .wrongValue n wanted =>
    "invalid value: integer `" ++ toString n ++ "`, expected " ++ wanted.description
  | .wrongLength length wanted =>
    "invalid length " ++ toString length ++ ", expected " ++ wanted.description ++ " with "
      ++ toString wanted.width ++ " elements"

end CompressionSweep.Json
