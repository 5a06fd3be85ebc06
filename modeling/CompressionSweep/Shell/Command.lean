/-! Commands of the shell language. A word is made of pieces that are expanded when the command
is run; a piece in quotation marks is not split into several words. All texts stand for bytes:
each character is one byte. -/

namespace CompressionSweep.Shell

/-- What is done with the value of a parameter. With `orEmpty` an empty value counts as none. -/
inductive Operator where
  | value
  | length
  | orDefault (orEmpty : Bool)
  | orAssign (orEmpty : Bool)
  | orFail (orEmpty : Bool)
  | ifSet (orEmpty : Bool)
  | dropFront (longest : Bool)
  | dropBack (longest : Bool)
  deriving DecidableEq, Repr

inductive Piece where
  | text (s : String) (quoted : Bool)
  | parameter (name : String) (operator : Operator) (word : List Piece) (quoted : Bool)
  /-- The output of a command, whose text is read when it is run. -/
  | command (source : String) (quoted : Bool)
  | arithmetic (word : List Piece) (quoted : Bool)
  deriving Repr

abbrev Word := List Piece

/-- How a redirection opens its file. -/
inductive Opening where
  | read
  | write
  | append
  | duplicate
  | here
  deriving DecidableEq, Repr

/-- A redirection of a numbered file; the word is a path, a number, or the text itself. -/
structure Redirection where
  number : Nat
  opening : Opening
  word : Word
  deriving Repr

inductive Command where
  | simple (line : Nat) (assignments : List (String × Word)) (words : List Word)
  | redirected (line : Nat) (command : Command) (redirections : List Redirection)
  | pipeline (negated : Bool) (parts : List Command)
  | both (first second : Command)
  | either (first second : Command)
  | sequence (commands : List Command)
  | background (command : Command)
  | subshell (command : Command)
  | conditional (branches : List (Command × Command)) (otherwise : Option Command)
  | loop (endsOn : Bool) (condition body : Command)
  | forEach (name : String) (words : Option (List Word)) (body : Command)
  | choice (word : Word) (clauses : List (List Word × Command))
  | define (name : String) (body : Command)
  deriving Repr

/-- What is wrong with the text of a script, and in which line. -/
structure SyntaxError where
  line : Nat
  message : String
  deriving DecidableEq, Repr

end CompressionSweep.Shell
