import CompressionSweep.Document
import CompressionSweep.Json.Reader

/-! Reading a document from its JSON text. A struct may be an object with its members in any
order, among unknown ones, or an array of its members in their order. Entries of one algorithm
or one run that appear again are merged into the first. -/

namespace CompressionSweep

open Json (Reader Wanted)

namespace Json

/-- The value of a member that may occur once. -/
def onceOnly {α : Type} (name : String) (seen : Option α) (value : Reader α) : Reader α := do
  if seen.isSome then fail (.duplicateField name)
  colon
  value

def required {α : Type} (name : String) (seen : Option α) : Reader α :=
  match seen with
  | some a => return a
  | none => fail (.missingField name)

def skipMember : Reader Unit := do
  colon
  skipValue

/-- The item at position `index` of a struct that is given as an array. -/
def itemAt {α : Type} (wanted : Wanted) (index : Nat) (value : Reader α) : Reader α := do
  if ← moreItems (index == 0) then value else fail (.wrongLength index wanted)

def itemOr {α : Type} (index : Nat) (default : α) (value : Reader α) : Reader α := do
  if ← moreItems (index == 0) then value else return default

def struct {α : Type} (wanted : Wanted) (ofMembers ofItems : Reader α) : Reader α := do
  let b ← peekValue
  if b == 0x5B then
    skipByte
    let a ← ofItems
    endList
    return a
  else if b == 0x7B then
    skipByte
    ofMembers
  else mismatch wanted

end Json

namespace Measurement

open Json

/-- The members of a record seen so far. -/
structure Seen where
  file : Option String
  seconds : Option Float
  bytes : Option UInt64

def member (key : String) (p : Seen) : Reader Seen := do
  if key == "file" then return { p with file := ← onceOnly key p.file text }
  else if key == "duration_seconds" then
    return { p with seconds := ← onceOnly key p.seconds f64 }
  else if key == "size_bytes" then return { p with bytes := ← onceOnly key p.bytes u64 }
  else
    skipMember
    return p

def ofMembers : Reader Measurement := do
  let p ← members member ⟨none, none, none⟩
  return ⟨← required "file" p.file, ← required "duration_seconds" p.seconds,
    ← required "size_bytes" p.bytes⟩

def ofItems : Reader Measurement := do
  let file ← itemAt .record 0 text
  let seconds ← itemAt .record 1 f64
  let bytes ← itemAt .record 2 u64
  return ⟨file, seconds, bytes⟩

def reader : Reader Measurement := struct .record ofMembers ofItems

end Measurement

namespace RunEntry

open Json

structure Seen where
  run : Option UInt32
  results : Option (List Measurement)

def member (key : String) (p : Seen) : Reader Seen := do
  if key == "run" then return { p with run := ← onceOnly key p.run u32 }
  else if key == "results" then
    return { p with results := ← onceOnly key p.results (list Measurement.reader) }
  else
    skipMember
    return p

def ofMembers : Reader RunEntry := do
  let p ← members member ⟨none, none⟩
  return ⟨← required "run" p.run, ← required "results" p.results⟩

def ofItems : Reader RunEntry := do
  let run ← itemAt .runEntry 0 u32
  let results ← itemAt .runEntry 1 (list Measurement.reader)
  return ⟨run, results⟩

def reader : Reader RunEntry := struct .runEntry ofMembers ofItems

end RunEntry

/-- Adds run entries to an algorithm's, those of a run that is already there to its records. -/
def AlgorithmEntry.merge (runs : List RunEntry) (e : AlgorithmEntry) : AlgorithmEntry :=
  runs.foldl (fun e r => e.modifyRun r.run (·.extend r.results)) e

/-- Adds a member of the `compressions` object. -/
def mergeMember (name : String) (runs : List RunEntry) (es : List AlgorithmEntry) :
    List AlgorithmEntry :=
  modifyOrAppend (·.algorithm == name) ⟨name, []⟩ (·.merge runs) es

namespace Document

open Json

def algorithmMember (key : String) (es : List AlgorithmEntry) : Reader (List AlgorithmEntry) := do
  colon
  let runs ← list RunEntry.reader
  return mergeMember key runs es

def algorithms : Reader (List AlgorithmEntry) := do
  let b ← peekValue
  if b == 0x7B then
    skipByte
    members algorithmMember []
  else mismatch .algorithms

structure Seen where
  timestamp : Option String
  configuration : Option String
  runs : Option UInt32
  filter : Option (Option String)
  baseline : Option String
  compressions : Option (List AlgorithmEntry)

def member (key : String) (p : Seen) : Reader Seen := do
  if key == "timestamp" then return { p with timestamp := ← onceOnly key p.timestamp text }
  else if key == "configuration" then
    return { p with configuration := ← onceOnly key p.configuration text }
  else if key == "runs" then return { p with runs := ← onceOnly key p.runs u32 }
  else if key == "regexp" then
    return { p with filter := some (← onceOnly key p.filter optionalText) }
  else if key == "baseline" then return { p with baseline := ← onceOnly key p.baseline text }
  else if key == "compressions" then
    return { p with compressions := ← onceOnly key p.compressions algorithms }
  else
    skipMember
    return p

def standardBaseline : String := Algorithm.standard.name

def ofMembers : Reader Document := do
  let p ← members member ⟨none, none, none, none, none, none⟩
  let timestamp ← required "timestamp" p.timestamp
  let configuration ← required "configuration" p.configuration
  let runs ← required "runs" p.runs
  return ⟨timestamp, configuration, runs, p.filter.getD none, p.baseline.getD standardBaseline,
    p.compressions.getD []⟩

def ofItems : Reader Document := do
  let timestamp ← itemAt .document 0 text
  let configuration ← itemAt .document 1 text
  let runs ← itemAt .document 2 u32
  let filter ← itemAt .document 3 optionalText
  let baseline ← itemOr 4 standardBaseline text
  let compressions ← itemOr 5 [] algorithms
  return ⟨timestamp, configuration, runs, filter, baseline, compressions⟩

def reader : Reader Document := struct .document ofMembers ofItems

def decode (b : Bytes) : Except Problem Document := do
  let (d, _) ← (do
    let d ← reader
    finish
    return d : Reader Document).run b
  return d

end Document

end CompressionSweep
