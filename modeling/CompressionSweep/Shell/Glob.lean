/-! Patterns with `*`, `?` and sets of characters in brackets. A quoted character stands for
itself. -/

namespace CompressionSweep.Shell

/-- A part of a pattern, which stands for one character or, `many`, for any number of them. -/
inductive Glob where
  | one (c : Char)
  | any
  | many
  | oneOf (negated : Bool) (ranges : List (Char × Char))
  deriving DecidableEq, Repr

namespace Glob

def ranges : List (Char × Bool) → List (Char × Char)
  | (a, _) :: ('-', false) :: (b, _) :: r => (a, b) :: ranges r
  | (a, _) :: r => (a, a) :: ranges r
  | [] => []

/-- The inside of brackets and what follows them; a bracket that comes first closes nothing. -/
def bracket? (r : List (Char × Bool)) : Option (List (Char × Bool) × List (Char × Bool)) :=
  let isClosing (c : Char × Bool) : Bool := c == (']', false)
  let inner := r.take 1 ++ (r.drop 1).takeWhile (!isClosing ·)
  match r.drop inner.length with
  | _ :: rest => if inner.isEmpty then none else some (inner, rest)
  | [] => none

/-- Reads a pattern whose characters are marked as quoted or not. -/
def ofChars (fuel : Nat) (cs : List (Char × Bool)) : List Glob :=
  match fuel, cs with
  | 0, _ | _, [] => []
  | fuel + 1, (c, quoted) :: r =>
    if quoted then .one c :: ofChars fuel r
    else if c == '*' then .many :: ofChars fuel r
    else if c == '?' then .any :: ofChars fuel r
    else if c == '[' then
      let (negated, inside) :=
        match r with
        | ('!', false) :: s | ('^', false) :: s => (true, s)
        | s => (false, s)
      match bracket? inside with
      | some (inner, rest) => .oneOf negated (ranges inner) :: ofChars fuel rest
      | none => .one c :: ofChars fuel r
    else .one c :: ofChars fuel r

def accepts : Glob → Char → Bool
  | .one a, c => a == c
  | .any, _ | .many, _ => true
  | .oneOf negated rs, c => rs.any (fun (a, b) => a ≤ c && c ≤ b) != negated

/-- Whether a pattern fits a whole text. -/
def fits : List Glob → List Char → Bool
  | [], s => s.isEmpty
  | .many :: p, [] => fits p []
  | .many :: p, c :: s => fits p (c :: s) || fits (.many :: p) s
  | _ :: _, [] => false
  | g :: p, c :: s => g.accepts c && fits p s
termination_by p s => p.length + s.length

/-- The lengths of the pieces in front of a text that a pattern fits, the shortest first. -/
def frontLengths (p : List Glob) (s : List Char) : List Nat :=
  (List.range (s.length + 1)).filter (fun n => fits p (s.take n))

/-- The number of characters in front of each piece at the end that a pattern fits, the longest
piece first. -/
def backStarts (p : List Glob) (s : List Char) : List Nat :=
  (List.range (s.length + 1)).filter (fun n => fits p (s.drop n))

end Glob

/-- Whether a text would be taken for a pattern. -/
def isPattern (cs : List (Char × Bool)) : Bool :=
  cs.any fun (c, quoted) => !quoted && (c == '*' || c == '?' || c == '[')

end CompressionSweep.Shell
