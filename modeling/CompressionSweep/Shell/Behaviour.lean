import CompressionSweep.Call.Schedule
import CompressionSweep.Shell.Evaluation

/-! What a program does from its start to its end: the bytes it writes and when, when it ends and
how, and the files it leaves behind. -/

namespace CompressionSweep.Shell

open Call (Timetable Deed ExitStatus)

structure Behaviour where
  timetable : Timetable
  tree : Tree
  interruptAt : Option Nat

/-- How many commands are run before a program counts as one that never ends. -/
def budget : Nat := 400000

/-- The process that starts the program. -/
def caller (t : Tree) : Process :=
  { id := callerId, parent := 1, name := "sh", arguments := []
    parameters := [("PATH", String.intercalate ":" Tree.searchPath),
      ("PWD", "/" ++ ofText (String.intercalate "/" t.home))]
    exported := ["PATH", "PWD"], functions := []
    files := [(0, .nothing), (1, .outside), (2, .outside)], home := t.home, status := 0, line := 0
    failsOnError := false, failsOnUnset := false, expandsPatterns := true, traces := false
    isTested := false, traps := [], lastJob := 0, isHeld := false }

def start (owner? : Option Owner) (t : Tree) (deadline : Option Nat) : State :=
  ⟨caller t,
    { tree := t, owner?, now := 0, deadline, doom := none, written := [], held := 0, collectors := []
      sources := [], jobs := [], nextId := callerId + 1, interruptAt := none, budget }⟩

/-- When nobody has the way outside open any more, if that time comes. -/
def closedAt? (w : World) : Option Nat :=
  w.jobs.foldl (fun t j =>
    match t, j.holds with
    | some t, some h => some (max t h)
    | _, _ => none) (some w.held)

def timetable (w : World) (ending : Option ExitStatus) : Timetable :=
  let writes := w.written.reverse.map fun (t, b) => (t, Deed.write b)
  let ends :=
    match ending with
    | some status => (w.now, Deed.exit status) :: ((closedAt? w).map (·, Deed.close)).toList
    | none => []
  (writes ++ ends).mergeSort (fun a b => a.1 ≤ b.1)

/-- Runs a program, at most up to the deadline. It may call the one that has started it. -/
def behaviour (owner? : Option Owner) (t : Tree) (deadline : Option Nat) (e : Executable) :
    Behaviour :=
  let run : Script Unit := do
    Script.setStatus (← runExecutable (perform depthLimit) maxStarters e)
  let (result, s) := run (start owner? t deadline)
  let ending : Option ExitStatus :=
    match result with
    | .ok () => some (some s.process.status)
    | .error (.killed _ _) => some none
    | .error .stuck => none
    | .error _ => some (some s.process.status)
  ⟨timetable s.world ending, s.world.tree, s.world.interruptAt⟩

end CompressionSweep.Shell
