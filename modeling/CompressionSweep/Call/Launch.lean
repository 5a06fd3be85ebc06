import CompressionSweep.Setup
import CompressionSweep.Shell.Behaviour

/-! Calling a program that stands in a file tree. -/

namespace CompressionSweep.Call

/-- The most bytes of one argument. -/
def maxArgumentBytes : Nat := 131072

/-- What is run for an invocation, or why it cannot be started. -/
def executableFor (t : Tree) (i : Invocation) : Except String Executable :=
  let texts := i.program :: i.arguments
  if texts.any (·.toList.contains '\x00') then .error "nul byte found in provided data"
  else if texts.any (maxArgumentBytes ≤ ·.utf8ByteSize) then
    .error FileError.argumentsTooLong.message
  else
    match t.executable Tree.searchPath (Shell.ofText i.program) (i.arguments.map Shell.ofText) with
    | .ok e => .ok e
    | .error e => .error e.message

/-- An interrupt from outside, or the one that the program itself sends. -/
def interruptOf (outside : Interrupt) (sent : Option Nat) : Interrupt :=
  match outside, sent with
  | .never, some t => .atTime t
  | outside, _ => outside

/-- Calls a program, which may call its caller as it is given here, and tells how long that takes.
A program that is stopped does nothing to the files from then on. -/
def callFrom (owner? : Option Shell.Owner) (t : Tree) (i : Invocation) (limit : Option Nat)
    (interrupt : Interrupt) : Response × Tree × Nat :=
  match executableFor t i with
  | .error cause => (⟨[], .failed (.spawn i.program cause)⟩, t, 0)
  | .ok e =>
    let b := Shell.behaviour owner? t none e
    let m := run b.timetable limit (interruptOf interrupt b.interruptAt)
    (m.response,
      match m.stoppedAt? with
      | some time => (Shell.behaviour owner? t (some time) e).tree
      | none => b.tree,
      m.now - m.started)

/-- Calls a program from one of which nothing is known. -/
def call (t : Tree) (i : Invocation) (limit : Option Nat) (interrupt : Interrupt) :
    Response × Tree :=
  let (response, t, _) := callFrom none t i limit interrupt
  (response, t)

end CompressionSweep.Call
