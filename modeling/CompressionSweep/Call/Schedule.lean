import CompressionSweep.Call.Machine

/-! A call whose child does what a timetable says, with a reader and a consumer that act at
once. Time passes only while nobody can act. -/

namespace CompressionSweep.Call

/-- What a child does at a time of its own. -/
inductive Deed where
  | write (bytes : Bytes)
  | close
  | exit (status : ExitStatus)
  deriving DecidableEq, Repr

def Deed.action : Deed → Action
  | .write b => .write b
  | .close => .close
  | .exit status => .exit status

/-- The deeds of a child with their times from its start, in order of time. -/
abbrev Timetable := List (Nat × Deed)

/-- When the interrupt flag is raised. -/
inductive Interrupt where
  | never
  | before
  | atLine (n : Nat)
  | atTime (time : Nat)
  deriving DecidableEq, Repr

namespace Interrupt

def isDue (i : Interrupt) (m : Machine) : Bool :=
  match i with
  | .never => false
  | .before => true
  | .atLine n => n ≤ m.count
  | .atTime t => m.started + t ≤ m.now

def time? : Interrupt → Option Nat
  | .atTime t => some t
  | _ => none

end Interrupt

/-- A call under way: the machine and what is still to come from outside. -/
structure Course where
  machine : Machine
  timetable : Timetable
  interrupt : Interrupt

namespace Course

/-- The action of the reader that is possible, if there is one. -/
def readerAction? (m : Machine) : Option Action :=
  if !m.hasSender then none
  else if m.nextMessage?.isSome then
    if m.channel.length < capacity then some .send else none
  else if !m.pipe.isEmpty then some (.read m.pipe.length)
  else if m.hasWriter then none
  else if m.sawEnd then some .hangUp
  else some .seeEnd

/-- The action of the consumer that is possible, if there is one. -/
def consumerAction? (m : Machine) : Option Action :=
  match m.phase with
  | .checking => some .check
  | .receiving t =>
    if !m.channel.isEmpty then some .receive
    else if !m.hasSender then some .disconnect
    else if t ≤ m.now then some .wake
    else none
  | .waiting => if m.child = .running then none else some .reap
  | .concluding _ => some .conclude
  | .returned _ => none

def nextTime? (c : Course) : Option Nat :=
  let m := c.machine
  let deed := c.timetable.head?.map fun d => m.started + d.1
  let wake := match m.phase with | .receiving t => some t | _ => none
  let flag := if m.interrupted then none else c.interrupt.time?.map (m.started + ·)
  ([deed, wake, flag].filterMap id).min?

def isOver (c : Course) : Bool :=
  match c.machine.phase with
  | .returned _ => true
  | _ => false

/-- The next action and what is left of the timetable: first the flag, then the reader, the
consumer and the child, and at last the clock. -/
def next? (c : Course) : Option (Action × Timetable) :=
  let m := c.machine
  if !m.interrupted && c.interrupt.isDue m then some (.raise, c.timetable)
  else
    match (readerAction? m).or (consumerAction? m) with
    | some a => some (a, c.timetable)
    | none =>
      let clock := c.nextTime?.map fun t => (Action.pass (t - m.now), c.timetable)
      match c.timetable with
      | (t, deed) :: rest => if m.started + t ≤ m.now then some (deed.action, rest) else clock
      | [] => clock

/-- Follows the course for at most `fuel` actions. -/
def follow : Nat → Course → Course
  | 0, c => c
  | fuel + 1, c =>
    if c.isOver then c
    else
      match c.next? with
      | none => c
      | some (action, timetable) =>
        match c.machine.step action with
        | none => { c with timetable }
        | some machine => follow fuel { c with machine, timetable }

/-- Enough actions for every line of a timetable, and for a long time without any. -/
def fuelFor (timetable : Timetable) : Nat :=
  let actions (d : Deed) : Nat :=
    match d with
    | .write b => 6 * b.length + 6
    | _ => 6
  timetable.foldr (fun d n => actions d.2 + n) 100000

end Course

/-- The machine at the end of a call. -/
def run (timetable : Timetable) (limit : Option Nat) (interrupt : Interrupt) : Machine :=
  (Course.follow (Course.fuelFor timetable)
    ⟨Machine.start 0 limit (interrupt == .before), timetable, interrupt⟩).machine

namespace Machine

/-- The answer of a call. One that has not come to its end counts as interrupted. -/
def response (m : Machine) : Response :=
  ⟨m.lines, match m.phase with
    | .returned e => e
    | _ => .failed .interrupted⟩

/-- When the child was stopped by force, if it was. -/
def stoppedAt? (m : Machine) : Option Nat :=
  match m.phase with
  | .returned (.exited _) => none
  | _ => some (m.now - m.started)

end Machine

end CompressionSweep.Call
