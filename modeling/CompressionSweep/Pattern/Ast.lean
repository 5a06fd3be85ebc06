/-! The structure of a file filter: a regular expression with groups, flags, repetitions and
character classes. -/

namespace CompressionSweep.Pattern

inductive PerlClass where
  | digit
  | space
  | word
  deriving DecidableEq, Repr

/-- A property of characters as it is asked for. -/
inductive PropertyQuery where
  | name (s : List Char)
  | value (property value : List Char)
  deriving DecidableEq, Repr

/-- A character that stands for itself; `isByte` if it is given as a byte in two hexadecimal
digits. -/
structure Literal where
  char : Char
  isByte : Bool
  deriving DecidableEq, Repr

inductive AsciiClass where
  | alnum
  | alpha
  | ascii
  | blank
  | cntrl
  | digit
  | graph
  | lower
  | print
  | punct
  | space
  | upper
  | word
  | xdigit
  deriving DecidableEq, Repr

inductive Flag where
  | caseInsensitive
  | multiLine
  | dotMatchesNewLine
  | swapGreed
  | unicode
  | crlf
  | ignoreBlank
  deriving DecidableEq, Repr

inductive FlagItem where
  | negation
  | flag (f : Flag)
  deriving DecidableEq, Repr

/-- What a list of flag items says about a flag. -/
def flagState (f : Flag) : List FlagItem → Bool → Option Bool
  | [], _ => none
  | .negation :: items, _ => flagState f items true
  | .flag g :: items, negated => if g = f then some (!negated) else flagState f items negated

inductive SetOperation where
  | intersection
  | difference
  | symmetricDifference
  deriving DecidableEq, Repr

mutual

inductive ClassItem where
  | literal (l : Literal)
  | range (first last : Literal)
  | ascii (kind : AsciiClass) (negated : Bool)
  | perl (kind : PerlClass) (negated : Bool)
  | property (query : PropertyQuery)
  | set (negated : Bool) (content : ClassSet)

inductive ClassSet where
  | union (items : List ClassItem)
  | binary (op : SetOperation) (left right : ClassSet)

end

inductive Ast where
  | empty
  | flags (items : List FlagItem)
  | literal (l : Literal)
  | dot
  | assertion
  | perl (kind : PerlClass) (negated : Bool)
  | property (query : PropertyQuery)
  | set (negated : Bool) (content : ClassSet)
  | repetition (body : Ast) (least : Nat) (most : Option Nat)
  | group (captures : Bool) (items : List FlagItem) (body : Ast)
  | alternation (branches : List Ast)
  | concat (parts : List Ast)

/-- A sequence; one of no part is empty and one of a single part is that part. -/
def Ast.ofParts : List Ast → Ast
  | [] => .empty
  | [a] => a
  | as => .concat as

def Ast.ofBranches : List Ast → Ast
  | [] => .empty
  | [a] => a
  | as => .alternation as

end CompressionSweep.Pattern
