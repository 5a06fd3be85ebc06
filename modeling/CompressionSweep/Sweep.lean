import CompressionSweep.Call.Ending
import CompressionSweep.Document
import CompressionSweep.Setup
import CompressionSweep.Statistics

/-! The sweep: every algorithm in turn, and of each every run, until a run of it fails. The
lines of a call are handed to an extractor, and each measurement is filed and written at once.
The sweep knows the outside only through functions on a world of any kind: one that answers an
invocation, one that writes the document, and one that is told what goes on. -/

namespace CompressionSweep

inductive PairFailure where
  | exit (code : Option Int)
  | runner (message : String)
  | interrupted
  deriving DecidableEq, Repr

def PairFailure.message : PairFailure → String
  | .exit (some code) => "exited with code " ++ toString code
  | .exit none => "terminated by signal"
  | .runner message => message
  | .interrupted => "interrupted"

inductive PairState where
  | pending
  | running
  | completed
  | failed (reason : PairFailure)
  deriving DecidableEq, Repr

def Ending.state : Ending → PairState
  | .exited (some 0) => .completed
  | .exited code => .failed (.exit code)
  | .failed .interrupted => .failed .interrupted
  | .failed e => .failed (.runner e.message)

/-- One run of one algorithm in a sweep. -/
structure Pair where
  algorithm : Algorithm
  run : UInt32
  state : PairState
  records : Nat
  deriving DecidableEq, Repr

namespace Pair

def pending (a : Algorithm) (run : UInt32) : Pair :=
  ⟨a, run, .pending, 0⟩

def start (p : Pair) : Pair := { p with state := .running }

def finish (state : PairState) (records : Nat) (p : Pair) : Pair := { p with state, records }

end Pair

/-- What becomes of a sweep. The pairs are in the order of their runs, those of the first
algorithm first. -/
structure Outcome where
  pairs : List Pair
  persistFailures : Nat
  interrupted : Bool
  deriving DecidableEq, Repr

namespace Outcome

def pair? (o : Outcome) (a : Algorithm) (run : UInt32) : Option Pair :=
  o.pairs.find? (fun p => p.algorithm == a && p.run == run)

def completed (o : Outcome) : Nat :=
  o.pairs.countP (fun p => p.state == .completed)

def failed (o : Outcome) : Nat :=
  o.pairs.countP (fun p => match p.state with | .failed _ => true | _ => false)

end Outcome

/-- What a sweep tells about itself while it is under way. -/
inductive Event where
  /-- A run of the algorithm at `index` is about to be called. -/
  | calling (index : Nat) (a : Algorithm) (run : UInt32)
  /-- A line held a measurement, which is about to be filed. -/
  | parsed (a : Algorithm) (run : UInt32) (m : Measurement)
  | called (a : Algorithm) (run : UInt32) (state : PairState) (summary : RunSummary)

/-- What a sweep is given: the answers of the tool, the writes of the document, the extractor, and
who is told of events, with the document and the pairs as they stand. A write tells whether it
succeeded. -/
structure Surroundings (ω : Type) where
  answer : Invocation → ω → Response × ω
  persist : Document → ω → Bool × ω
  extract : Extractor
  note : Event → Document → List Pair → ω → ω := fun _ _ _ w => w

/-- What a sweep carries from call to call. -/
structure Progress (ω : Type) where
  document : Document
  world : ω
  outcome : Outcome

/-- What a call carries from line to line. -/
structure Hearing (ω : Type) where
  document : Document
  world : ω
  accepted : List Measurement
  persistFailures : Nat

namespace Sweep

variable {ω : Type}

def countFailure (ok : Bool) (n : Nat) : Nat :=
  if ok then n else n + 1

def flush (env : Surroundings ω) (p : Progress ω) : Progress ω :=
  let r := env.persist p.document p.world
  { p with
    world := r.2
    outcome.persistFailures := countFailure r.1 p.outcome.persistFailures }

/-- Files the measurement of a line, if it holds one, and writes the document. -/
def hear (env : Surroundings ω) (a : Algorithm) (run : UInt32) (pairs : List Pair)
    (h : Hearing ω) (line : String) : Hearing ω :=
  match env.extract line with
  | none => h
  | some m =>
    let world := env.note (.parsed a run m) h.document pairs h.world
    let document := h.document.append a.name run m
    let r := env.persist document world
    { document
      world := r.2
      accepted := h.accepted ++ [m]
      persistFailures := countFailure r.1 h.persistFailures }

/-- One call of the tool: how it ended, and what was heard of it. -/
def runPair (env : Surroundings ω) (s : Setup) (a : Algorithm) (run : UInt32) (pairs : List Pair)
    (d : Document) (world : ω) : PairState × Hearing ω :=
  let r := env.answer (s.invocation a) world
  (r.1.ending.state, r.1.lines.foldl (hear env a run pairs) ⟨d, r.2, [], 0⟩)

def slot (s : Setup) (index : Nat) (run : UInt32) : Nat :=
  index * s.runs.toNat + (run.toNat - 1)

/-- A call with its pair kept up to date. -/
def callPair (env : Surroundings ω) (s : Setup) (index : Nat) (a : Algorithm) (run : UInt32)
    (p : Progress ω) : PairState × Progress ω :=
  let pairs := p.outcome.pairs.modify (slot s index run) Pair.start
  let world := env.note (.calling index a run) p.document pairs p.world
  let r := runPair env s a run pairs p.document world
  let summary := RunSummary.ofRecords r.2.accepted
  let pairs := pairs.modify (slot s index run) (Pair.finish r.1 summary.files)
  (r.1,
    { document := r.2.document
      world := env.note (.called a run r.1 summary) r.2.document pairs r.2.world
      outcome := { p.outcome with
        pairs, persistFailures := p.outcome.persistFailures + r.2.persistFailures } })

/-- The given runs of the algorithm at `index`, until one of them fails. -/
def runAlgorithm (env : Surroundings ω) (s : Setup) (index : Nat) (a : Algorithm) :
    List UInt32 → Progress ω → Progress ω
  | [], p => p
  | run :: runs, p =>
    let r := callPair env s index a run p
    match r.1 with
    | .failed .interrupted => { r.2 with outcome.interrupted := true }
    | .failed _ => r.2
    | _ => runAlgorithm env s index a runs r.2

/-- The numbers of the runs, from one upwards. -/
def runNumbers (n : UInt32) : List UInt32 :=
  (List.range n.toNat).map (fun i => (i + 1).toUInt32)

/-- The algorithms from `index` on, until the sweep is interrupted. -/
def runAlgorithms (env : Surroundings ω) (s : Setup) :
    Nat → List Algorithm → Progress ω → Progress ω
  | _, [], p => p
  | index, a :: as, p =>
    let p := runAlgorithm env s index a (runNumbers s.runs) p
    if p.outcome.interrupted then p else runAlgorithms env s (index + 1) as p

def schedule (s : Setup) : List Pair :=
  s.algorithms.flatMap (fun a => (runNumbers s.runs).map (Pair.pending a))

/-- The whole sweep. The document is written before the first call and after the last. -/
def run (env : Surroundings ω) (s : Setup) (d : Document) (world : ω) :
    Outcome × Document × ω :=
  let p := flush env ⟨d, world, ⟨schedule s, 0, false⟩⟩
  let p := flush env (runAlgorithms env s 0 s.algorithms p)
  (p.outcome, p.document, p.world)

end Sweep

end CompressionSweep
