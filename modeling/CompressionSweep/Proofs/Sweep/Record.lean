import CompressionSweep.Proofs.Sweep.Projection
import Mathlib.Algebra.GroupWithZero.Nat

/-! A record of the calls and of the writes of a sweep, kept by its surroundings. All that becomes
of the sweep can be told from it. -/

namespace CompressionSweep

open Sweep

variable {ω : Type}

/-- A call of the tool as the surroundings see it: the run it is for, the pairs as it begins, the
command line and the answer. -/
structure Attempt where
  index : Nat
  algorithm : Algorithm
  run : UInt32
  pairs : List Pair
  invocation : Invocation
  response : Response

/-- The calls and whether each write succeeded; in front of a call, the run it is for. -/
structure Log where
  index : Nat
  algorithm : Algorithm
  run : UInt32
  pairs : List Pair
  calls : List Attempt
  writes : List Bool

namespace Log

def empty : Log := ⟨0, .standard, 0, [], [], []⟩

def hearing (log : Log) : Event → List Pair → Log
  | .calling index algorithm run, pairs => { log with index, algorithm, run, pairs }
  | _, _ => log

def called (log : Log) (i : Invocation) (r : Response) : Log :=
  { log with calls := log.calls ++ [⟨log.index, log.algorithm, log.run, log.pairs, i, r⟩] }

def wrote (log : Log) (ok : Bool) : Log :=
  { log with writes := log.writes ++ [ok] }

end Log

def Surroundings.recorded (env : Surroundings ω) : Surroundings (ω × Log) where
  answer i w := ((env.answer i w.1).1, (env.answer i w.1).2, w.2.called i (env.answer i w.1).1)
  persist d w := ((env.persist d w.1).1, (env.persist d w.1).2, w.2.wrote (env.persist d w.1).1)
  extract := env.extract
  note e d pairs w := (env.note e d pairs w.1, w.2.hearing e pairs)

theorem Surroundings.projects_recorded (env : Surroundings ω) :
    env.recorded.Projects Prod.fst env :=
  ⟨fun _ _ => ⟨rfl, rfl⟩, fun _ _ => ⟨rfl, rfl⟩, rfl, fun _ _ _ _ => rfl⟩

namespace Attempt

def state (c : Attempt) : PairState := c.response.ending.state

def records (extract : Extractor) (c : Attempt) : List Measurement :=
  c.response.lines.filterMap extract

def file (extract : Extractor) (d : Document) (c : Attempt) : Document :=
  (c.records extract).foldl (fun d m => d.append c.algorithm.name c.run m) d

def slot (s : Setup) (c : Attempt) : Nat := Sweep.slot s c.index c.run

def mark (s : Setup) (extract : Extractor) (pairs : List Pair) (c : Attempt) : List Pair :=
  pairs.modify (c.slot s) (Pair.finish c.state (c.records extract).length)

end Attempt

/-- The pairs that the calls begin with, if the first begins with `pairs` and its own one under
way. -/
def Starts (s : Setup) (extract : Extractor) : List Pair → List Attempt → Prop
  | _, [] => True
  | pairs, c :: cs =>
    c.pairs = pairs.modify (c.slot s) Pair.start ∧ Starts s extract (c.mark s extract pairs) cs

/-- From `p` to `p'` the calls `cs` have been made, and their measurements filed and written. -/
structure Made (env : Surroundings ω) (s : Setup) (p p' : Progress (ω × Log)) (cs : List Attempt) :
    Prop where
  calls : p'.world.2.calls = p.world.2.calls ++ cs
  document : p'.document = cs.foldl (Attempt.file env.extract) p.document
  pairs : p'.outcome.pairs = cs.foldl (Attempt.mark s env.extract) p.outcome.pairs
  starts : Starts s env.extract p.outcome.pairs cs
  writes : ∃ oks, p'.world.2.writes = p.world.2.writes ++ oks ∧
    oks.length = (cs.map (fun c => (c.records env.extract).length)).sum ∧
    p'.outcome.persistFailures = p.outcome.persistFailures + oks.count false

theorem starts_append {s : Setup} {extract : Extractor} {pairs : List Pair}
    {cs cs' : List Attempt} :
    Starts s extract pairs (cs ++ cs') ↔ Starts s extract pairs cs ∧
      Starts s extract (cs.foldl (Attempt.mark s extract) pairs) cs' := by
  induction cs generalizing pairs with
  | nil => exact ⟨fun h => ⟨trivial, h⟩, fun h => h.2⟩
  | cons c cs ih => rw [List.cons_append, Starts, Starts, ih, List.foldl_cons, and_assoc]

variable {env : Surroundings ω} {s : Setup} {p p' p'' : Progress (ω × Log)} {cs cs' : List Attempt}

theorem Made.nil (p : Progress (ω × Log)) : Made env s p p [] :=
  ⟨(List.append_nil _).symm, rfl, rfl, trivial, [], (List.append_nil _).symm, rfl, rfl⟩

theorem Made.append (h : Made env s p p' cs) (h' : Made env s p' p'' cs') :
    Made env s p p'' (cs ++ cs') where
  calls := by rw [h'.calls, h.calls, List.append_assoc]
  document := by rw [h'.document, h.document, List.foldl_append]
  pairs := by rw [h'.pairs, h.pairs, List.foldl_append]
  starts := starts_append.mpr ⟨h.starts, h.pairs ▸ h'.starts⟩
  writes := by
    obtain ⟨oks, hw, hlen, hfail⟩ := h.writes
    obtain ⟨oks', hw', hlen', hfail'⟩ := h'.writes
    refine ⟨oks ++ oks', by rw [hw', hw, List.append_assoc], ?_, ?_⟩
    · rw [List.length_append, hlen, hlen', List.map_append, List.sum_append]
    · rw [hfail', hfail, List.count_append, Nat.add_assoc]

theorem countFailure_eq (ok : Bool) (n : Nat) : countFailure ok n = n + [ok].count false := by
  cases ok <;> rfl

theorem hear_of_none {env : Surroundings ω} {line : String} (hm : env.extract line = none)
    (a : Algorithm) (run : UInt32) (pairs : List Pair) (h : Hearing ω) :
    hear env a run pairs h line = h := by
  rw [hear, hm]

theorem hear_of_some {env : Surroundings ω} {line : String} {m : Measurement}
    (hm : env.extract line = some m) (a : Algorithm) (run : UInt32) (pairs : List Pair)
    (h : Hearing ω) :
    let r := env.persist (h.document.append a.name run m)
      (env.note (.parsed a run m) h.document pairs h.world)
    hear env a run pairs h line =
      ⟨h.document.append a.name run m, r.2, h.accepted ++ [m],
        countFailure r.1 h.persistFailures⟩ := by
  rw [hear, hm]

theorem hear_recorded (env : Surroundings ω) (a : Algorithm) (run : UInt32) (pairs : List Pair)
    (lines : List String) (h : Hearing (ω × Log)) :
    let h' := lines.foldl (hear env.recorded a run pairs) h
    h'.document =
        (lines.filterMap env.extract).foldl (fun d m => d.append a.name run m) h.document ∧
      h'.accepted = h.accepted ++ lines.filterMap env.extract ∧
      h'.world.2.calls = h.world.2.calls ∧
      ∃ oks, h'.world.2.writes = h.world.2.writes ++ oks ∧
        oks.length = (lines.filterMap env.extract).length ∧
        h'.persistFailures = h.persistFailures + oks.count false := by
  induction lines generalizing h with
  | nil => exact ⟨rfl, (List.append_nil _).symm, rfl, [], (List.append_nil _).symm, rfl, rfl⟩
  | cons line lines ih =>
    cases hm : env.extract line with
    | none =>
      have hnone : env.recorded.extract line = none := hm
      rw [List.foldl_cons, hear_of_none hnone, List.filterMap_cons_none hm]
      exact ih h
    | some m =>
      have hsome : env.recorded.extract line = some m := hm
      rw [List.foldl_cons, hear_of_some hsome, List.filterMap_cons_some hm]
      obtain ⟨hdoc, hacc, hcalls, oks, hwrites, hlen, hfail⟩ := ih _
      let ok := (env.persist (h.document.append a.name run m)
        (env.note (.parsed a run m) h.document pairs h.world.1)).1
      refine ⟨hdoc, ?_, hcalls, ok :: oks, ?_, ?_, ?_⟩
      · rw [hacc, List.append_assoc, List.singleton_append]
      · exact hwrites.trans (List.append_assoc _ _ _)
      · rw [List.length_cons, hlen, List.length_cons]
      · rw [hfail, countFailure_eq, Nat.add_assoc, ← List.count_append]
        rfl

theorem callPair_recorded (env : Surroundings ω) (s : Setup) (index : Nat) (a : Algorithm)
    (run : UInt32) (p : Progress (ω × Log)) :
    ∃ c, c.index = index ∧ c.algorithm = a ∧ c.run = run ∧ c.invocation = s.invocation a ∧
      (callPair env.recorded s index a run p).1 = c.state ∧
      (callPair env.recorded s index a run p).2.outcome.interrupted = p.outcome.interrupted ∧
      Made env s p (callPair env.recorded s index a run p).2 [c] := by
  let pairs := p.outcome.pairs.modify (slot s index run) Pair.start
  let w := env.recorded.note (.calling index a run) p.document pairs p.world
  let c : Attempt := ⟨index, a, run, pairs, s.invocation a, (env.answer (s.invocation a) w.1).1⟩
  obtain ⟨hdoc, hacc, hcalls, oks, hwrites, hlen, hfail⟩ := hear_recorded env a run pairs
    c.response.lines ⟨p.document, (env.recorded.answer (s.invocation a) w).2, [], 0⟩
  refine ⟨c, rfl, rfl, rfl, rfl, rfl, rfl, hcalls, hdoc, ?_, ⟨rfl, trivial⟩, oks, hwrites, ?_, ?_⟩
  · have hfiles : (RunSummary.ofRecords (c.response.lines.foldl (hear env.recorded a run pairs)
        ⟨p.document, (env.recorded.answer (s.invocation a) w).2, [], 0⟩).accepted).files =
        (c.records env.extract).length := congrArg List.length hacc
    refine (List.modify_modify_eq _ _ _ _).trans ?_
    exact congrArg
      (fun n => p.outcome.pairs.modify (slot s index run) (Pair.finish c.state n)) hfiles
  · rw [hlen, List.map_singleton, List.sum_singleton]
    rfl
  · rw [Nat.zero_add] at hfail
    exact congrArg (p.outcome.persistFailures + ·) hfail

end CompressionSweep
