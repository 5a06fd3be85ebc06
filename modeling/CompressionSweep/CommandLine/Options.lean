import CompressionSweep.CommandLine.Usage

/-! Options of a command. An option has a long name behind `--` or a letter behind `-`; letters
may be joined, and a value follows as the next argument, after `=`, or directly after the
letter. A value that stands alone is only looked at when the next option or the end comes. -/

namespace CompressionSweep

/-- What becomes of an option that is given again. -/
inductive Repeats where
  | refused
  | collected
  deriving DecidableEq, Repr

/-- An option and how it is written. `check` says what is wrong with a value. -/
structure OptionForm (κ : Type) where
  key : κ
  letter : Option Char
  name : String
  takesValue : Bool
  repeats : Repeats
  check : String → Except UsageError Unit

namespace Options

variable {κ : Type}

/-- The options that have been read with their values, and one that still waits for its value. -/
structure Reading (κ : Type) where
  given : List (κ × String)
  open? : Option (OptionForm κ)
  pending : Option (OptionForm κ × Option String)

def Reading.start : Reading κ := ⟨[], none, none⟩

variable [DecidableEq κ]

def accept (r : Reading κ) (o : OptionForm κ) (value : String) : Except UsageError (Reading κ) :=
  if o.repeats = .refused ∧ (r.given.any (·.1 == o.key)) then .error .conflict
  else do
    o.check value
    return { r with given := r.given ++ [(o.key, value)] }

/-- Takes the option that waits, which must have got its value by now. -/
def settle (r : Reading κ) : Except UsageError (Reading κ) :=
  match r.pending with
  | none => .ok r
  | some (_, none) => .error .invalidValue
  | some (o, some value) => accept { r with pending := none } o value

/-- An option that takes no value. -/
def readFlag (r : Reading κ) (o : OptionForm κ) : Except UsageError (Reading κ) := do
  accept { ← settle r with open? := none } o ""

/-- An option that takes a value, which stands with it or is the next argument. -/
def readOption (r : Reading κ) (o : OptionForm κ) (value : Option String) :
    Except UsageError (Reading κ) := do
  let r ← settle r
  match value with
  | some v => accept { r with open? := none } o v
  | none => return { r with open? := some o, pending := some (o, none) }

/-- A text up to the first `=`, and what follows that. -/
def splitValue : List Char → List Char × Option (List Char)
  | [] => ([], none)
  | '=' :: cs => ([], some cs)
  | c :: cs =>
    let (name, value) := splitValue cs
    (c :: name, value)

/-- An argument behind `--`. -/
def readLong (forms : List (OptionForm κ)) (r : Reading κ) (argument : List Char) :
    Except UsageError (Reading κ) :=
  let (name, value) := splitValue argument
  match forms.find? (·.name == String.ofList name) with
  | none => .error .unknownArgument
  | some o =>
    if o.takesValue then readOption r o (value.map String.ofList)
    else if value.isSome then .error .unwantedValue
    else readFlag r o

/-- An argument of letters behind `-`. -/
def readLetters (forms : List (OptionForm κ)) (r : Reading κ) :
    List Char → Except UsageError (Reading κ)
  | [] => .ok r
  | c :: cs =>
    match forms.find? (·.letter == some c) with
    | none => .error .unknownArgument
    | some o =>
      if o.takesValue then
        match cs with
        | [] => readOption r o none
        | '=' :: v => readOption r o (some (String.ofList v))
        | v => readOption r o (some (String.ofList v))
      else do
        readLetters forms (← readFlag r o) cs

/-- An argument that is no option: the value of the option in front of it. -/
def readValue (r : Reading κ) (argument : String) : Except UsageError (Reading κ) :=
  match r.open? with
  | some o => .ok { r with open? := none, pending := some (o, some argument) }
  | none => .error .unknownArgument

/-- Reads the arguments of a command. After `--` nothing is expected. -/
def readAll (forms : List (OptionForm κ)) (r : Reading κ) :
    List String → Except UsageError (Reading κ)
  | [] => settle r
  | argument :: rest => do
    let r ←
      match argument.toList with
      | ['-', '-'] => if rest.isEmpty then return ← settle r else .error .unknownArgument
      | '-' :: '-' :: cs => readLong forms r cs
      | '-' :: c :: cs => readLetters forms r (c :: cs)
      | _ => readValue r argument
    readAll forms r rest

/-- The options of a command in order, each with its value. -/
def read (forms : List (OptionForm κ)) (arguments : List String) :
    Except UsageError (List (κ × String)) := do
  return (← readAll forms Reading.start arguments).given

end Options

end CompressionSweep
