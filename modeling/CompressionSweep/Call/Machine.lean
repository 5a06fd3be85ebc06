import CompressionSweep.Call.Ending
import CompressionSweep.Call.Lines

/-! One call of the tool as a machine of four parts that take their steps in any order: the child
with the pipe it writes to, the reader that cuts the bytes of the pipe into lines, the bounded
channel, and the consumer, which alone decides how the call ends. The consumer looks at the
interrupt flag and at the deadline before it waits for a line, and wakes up to look again at
least once in every poll interval. -/

namespace CompressionSweep.Call

/-- How a child came to its end: with an exit code, or by a signal if there is none. -/
abbrev ExitStatus := Option Int

inductive Child where
  | running
  | ended (status : ExitStatus)
  | reaped (status : ExitStatus)
  deriving DecidableEq, Repr

/-- What the reader hands to the consumer. -/
inductive Message where
  | line (bytes : Bytes)
  | failure (cause : String)
  deriving DecidableEq, Repr

/-- What the consumer does next. -/
inductive Phase where
  /-- Looks at the flag and at the deadline. -/
  | checking
  /-- Waits for a message, until it wakes up by itself. -/
  | receiving (wakesAt : Nat)
  /-- Has seen the end of the output and waits for the child. -/
  | waiting
  /-- Looks at the flag once more. -/
  | concluding (status : ExitStatus)
  | returned (ending : Ending)
  deriving DecidableEq, Repr

/-- The state of a call. All times are in nanoseconds. -/
structure Machine where
  now : Nat
  started : Nat
  limit : Option Nat
  interrupted : Bool
  child : Child
  /-- How often the child has been waited for. -/
  waits : Nat
  pipe : Bytes
  /-- Whether anybody still holds the writing end of the pipe. -/
  hasWriter : Bool
  /-- What the reader has taken from the pipe and not passed on. -/
  buffer : Bytes
  sawEnd : Bool
  /-- Whether the reader still holds the sending end of the channel. -/
  hasSender : Bool
  channel : List Message
  /-- The lines that have been handed on, the last one first, and their number. -/
  received : List String
  count : Nat
  phase : Phase
  deriving Repr

def capacity : Nat := 256

/-- A tenth of a second. -/
def pollInterval : Nat := 100000000

inductive Action where
  | write (bytes : Bytes)
  | close
  | exit (status : ExitStatus)
  | read (count : Nat)
  | readFailure (cause : String)
  | seeEnd
  | send
  | hangUp
  | check
  | receive
  | wake
  | disconnect
  | reap
  | conclude
  | raise
  | pass (time : Nat)
  deriving DecidableEq, Repr

namespace Machine

def lines (m : Machine) : List String := m.received.reverse

/-- A child has just been started. -/
def start (now : Nat) (limit : Option Nat) (interrupted : Bool) : Machine :=
  { now, started := now, limit, interrupted, child := .running, waits := 0, pipe := []
    hasWriter := true, buffer := [], sawEnd := false, hasSender := true, channel := []
    received := [], count := 0, phase := .checking }

def killed : Child → Child
  | .running => .reaped none
  | .ended status | .reaped status => .reaped status

/-- Kills the child and its group, and waits for the child. What it has started and has left the
group may still hold the pipe. -/
def abandon (m : Machine) (e : RunnerError) : Machine :=
  { m with child := killed m.child, waits := m.waits + 1, phase := .returned (.failed e) }

/-- The message that the reader can send: a whole line, or at the end what is left. -/
def nextMessage? (m : Machine) : Option (Bytes × Bytes) :=
  match firstLine? m.buffer with
  | some p => some p
  | none => if m.sawEnd && !m.buffer.isEmpty then some (m.buffer, []) else none

def isDue (m : Machine) : Bool :=
  match m.limit with
  | some limit => limit ≤ m.now - m.started
  | none => false

def wakesAt (m : Machine) : Nat :=
  match m.limit with
  | some limit => m.now + min (limit - (m.now - m.started)) pollInterval
  | none => m.now + pollInterval

def check (m : Machine) : Machine :=
  if m.interrupted then m.abandon .interrupted
  else if m.isDue then m.abandon (.timedOut (m.limit.getD 0))
  else { m with phase := .receiving m.wakesAt }

def take (m : Machine) : Message → Machine
  | .line b =>
    { m with received := lineText b :: m.received, count := m.count + 1, phase := .checking }
  | .failure cause => m.abandon (.input cause)

/-- The state after an action, if the action is possible. -/
def step (m : Machine) : Action → Option Machine
  | .write b => if m.hasWriter then some { m with pipe := m.pipe ++ b } else none
  | .close => some { m with hasWriter := false }
  | .exit status =>
    if m.child = .running then some { m with child := .ended status } else none
  | .read count =>
    if m.pipe.isEmpty || count = 0 || !m.hasSender then none
    else some { m with buffer := m.buffer ++ m.pipe.take count, pipe := m.pipe.drop count }
  | .readFailure cause =>
    if m.hasSender && m.channel.length < capacity then
      some { m with channel := m.channel ++ [.failure cause], hasSender := false }
    else none
  | .seeEnd => if m.pipe.isEmpty && !m.hasWriter then some { m with sawEnd := true } else none
  | .send =>
    if m.hasSender && m.channel.length < capacity then
      m.nextMessage?.map fun (line, rest) =>
        { m with channel := m.channel ++ [.line line], buffer := rest }
    else none
  | .hangUp =>
    if m.sawEnd && m.buffer.isEmpty then some { m with hasSender := false } else none
  | .check => if m.phase = .checking then some m.check else none
  | .receive =>
    match m.phase, m.channel with
    | .receiving _, message :: rest => some (({ m with channel := rest } : Machine).take message)
    | _, _ => none
  | .wake =>
    match m.phase with
    | .receiving t => if t ≤ m.now then some { m with phase := .checking } else none
    | _ => none
  | .disconnect =>
    match m.phase, m.channel with
    | .receiving _, [] => if m.hasSender then none else some { m with phase := .waiting }
    | _, _ => none
  | .reap =>
    match m.phase, m.child with
    | .waiting, .ended status =>
      some { m with
        child := .reaped status
        waits := m.waits + 1
        phase := .concluding status }
    | _, _ => none
  | .conclude =>
    match m.phase with
    | .concluding status =>
      let ending : Ending := if m.interrupted then .failed .interrupted else .exited status
      some { m with phase := .returned ending }
    | _ => none
  | .raise => some { m with interrupted := true }
  | .pass time => some { m with now := m.now + time }

end Machine

end CompressionSweep.Call
