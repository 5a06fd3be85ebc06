import CompressionSweep.Proofs.Sweep.Control
import CompressionSweep.Report.Table

/-! A sweep does not depend on the outcomes of its writes. -/

namespace CompressionSweep

open Sweep

/-- A tool and a file that do not know of each other: what the tool answers depends on the calls
made so far, and whether a write succeeds on anything else. -/
def Surroundings.apart {α β : Type} (answer : Invocation → α → Response × α)
    (persist : Document → β → Bool × β) (extract : Extractor) : Surroundings (α × β) where
  answer i w := ((answer i w.1).1, (answer i w.1).2, w.2)
  persist d w := ((persist d w.2).1, w.1, (persist d w.2).2)
  extract := extract

namespace Log

def withoutWrites (log : Log) : Log := { log with writes := [] }

theorem withoutWrites_hearing (log : Log) (e : Event) (pairs : List Pair) :
    (log.hearing e pairs).withoutWrites = log.withoutWrites.hearing e pairs := by
  cases e <;> rfl

end Log

/-- The tool is in the same state and has been called alike. -/
def SameCalls {α β β' : Type} (w : (α × β) × Log) (w' : (α × β') × Log) : Prop :=
  w.1.1 = w'.1.1 ∧ w.2.withoutWrites = w'.2.withoutWrites

theorem agree_apart {α β β' : Type} (answer : Invocation → α → Response × α)
    (persist : Document → β → Bool × β) (persist' : Document → β' → Bool × β')
    (extract : Extractor) :
    (Surroundings.apart answer persist extract).recorded.Agree SameCalls False
      (Surroundings.apart answer persist' extract).recorded where
  answer i := by
    rintro ⟨⟨a, b⟩, log⟩ ⟨⟨_, b'⟩, log'⟩ ⟨rfl, hlog⟩
    exact ⟨rfl, rfl, congrArg (·.called i (answer i a).1) hlog⟩
  persist d := by
    rintro w w' ⟨ha, hlog⟩
    exact ⟨False.elim, ha, hlog⟩
  extract := rfl
  note e d pairs := by
    rintro w w' ⟨ha, hlog⟩
    refine ⟨ha, ?_⟩
    calc (w.2.hearing e pairs).withoutWrites
        = w.2.withoutWrites.hearing e pairs := Log.withoutWrites_hearing _ _ _
      _ = w'.2.withoutWrites.hearing e pairs := by rw [hlog]
      _ = (w'.2.hearing e pairs).withoutWrites := (Log.withoutWrites_hearing _ _ _).symm

/-- Two sweeps with the same tool, of which each has writes of its own that succeed or fail in any
pattern; a document that is kept in memory only is one whose writes all succeed. The sweeps make the
same calls and get the same answers, they end with the same document and the same outcome up to the
number of failed writes, and so give the same report. -/
theorem sweep_independent_of_writes {α β β' : Type} (answer : Invocation → α → Response × α)
    (extract : Extractor) (persist : Document → β → Bool × β)
    (persist' : Document → β' → Bool × β') (s : Setup) (d : Document) (tool : α) (file : β)
    (file' : β') :
    let env := Surroundings.apart answer persist extract
    let env' := Surroundings.apart answer persist' extract
    let r := run env.recorded s d ((tool, file), Log.empty)
    let r' := run env'.recorded s d ((tool, file'), Log.empty)
    run env s d (tool, file) = (r.1, r.2.1, r.2.2.1) ∧
    run env' s d (tool, file') = (r'.1, r'.2.1, r'.2.2.1) ∧
    r.2.2.2.calls = r'.2.2.2.calls ∧
    r.2.2.1.1 = r'.2.2.1.1 ∧
    r.1.pairs = r'.1.pairs ∧
    r.1.interrupted = r'.1.interrupted ∧
    r.2.1 = r'.2.1 ∧
    ∀ baseline expected withIndividual withFiles,
      Report.lines r.2.1 (Comparison.build r.2.1 baseline expected) withIndividual withFiles =
        Report.lines r'.2.1 (Comparison.build r'.2.1 baseline expected) withIndividual
          withFiles := by
  intro env env' r r'
  have hstart : SameCalls ((tool, file), Log.empty) ((tool, file'), Log.empty) := ⟨rfl, rfl⟩
  have h := (agree_apart answer persist persist' extract).run s d hstart
  have hcalls := congrArg Log.calls h.world.2
  have hdocument : r.2.1 = r'.2.1 := h.document
  refine ⟨run_mapWorld env.projects_recorded s d ((tool, file), Log.empty),
    run_mapWorld env'.projects_recorded s d ((tool, file'), Log.empty),
    hcalls, h.world.1, h.pairs, h.interrupted, hdocument, ?_⟩
  intro baseline expected withIndividual withFiles
  rw [hdocument]

end CompressionSweep
