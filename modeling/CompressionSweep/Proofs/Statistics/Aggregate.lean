import CompressionSweep.Proofs.Document.Arrivals
import CompressionSweep.Proofs.Statistics.Order

/-! The statistics of an algorithm, told from its entry. -/

namespace CompressionSweep

open Statistics

/-- The average seconds of measurements. -/
def averageSeconds (ms : List Measurement) : Float := mean (seconds ms)

def averageBytes (ms : List Measurement) : Float := mean (sizes ms)

theorem Statistics.length_sorted (xs : List Float) : (sorted xs).length = xs.length := by
  simp [sorted]

theorem Statistics.length_seconds (ms : List Measurement) : (seconds ms).length = ms.length := by
  simp [seconds, length_sorted]

theorem Statistics.length_sizes (ms : List Measurement) : (sizes ms).length = ms.length := by
  simp [sizes, length_sorted]

namespace AlgorithmEntry

theorem length_samples (e : AlgorithmEntry) : e.samples.length = e.records.length := by
  simp [e.records_eq]

theorem samples_ne_nil {e : AlgorithmEntry} (h : e.records ≠ []) : e.samples ≠ [] := by
  intro hnone
  exact h (by rw [e.records_eq, hnone, List.map_nil])

theorem length_records (e : AlgorithmEntry) :
    e.records.length = (e.runs.map (·.results.length)).sum := by
  simp [records, List.length_flatMap]

/-- An entry has statistics exactly if it has a measurement. -/
theorem aggregate?_eq_some_iff {e : AlgorithmEntry} {s : Aggregate} :
    e.aggregate? = some s ↔ e.records ≠ [] ∧
      s = ⟨averageSeconds e.records, spread (seconds e.records) e.runs.length,
        averageBytes e.records, spread (sizes e.records) e.runs.length, sum (seconds e.records),
        totalBytes (e.records.map (·.bytes)), e.records.length, e.runs.length⟩ := by
  by_cases hnone : e.records = []
  · simp [aggregate?, hnone]
  · have hsome : e.records.isEmpty = false := by simp [hnone]
    simp only [aggregate?, hsome, Bool.false_eq_true, if_false, Option.some.injEq, ne_eq, hnone,
      not_false_eq_true, true_and]
    exact eq_comm

end AlgorithmEntry

namespace Document

theorem aggregate?_eq_none_iff (d : Document) (name : String) :
    d.aggregate? name = none ↔ d.recordsFor name = [] := by
  cases h : d.algorithm? name with
  | none => simp [aggregate?, recordsFor, h]
  | some e => by_cases hnone : e.records = [] <;>
      simp [aggregate?, recordsFor, h, AlgorithmEntry.aggregate?, hnone]

theorem exists_of_aggregate? {d : Document} {name : String} {s : Aggregate}
    (h : d.aggregate? name = some s) :
    ∃ e, d.algorithm? name = some e ∧ d.recordsFor name = e.records ∧ e.aggregate? = some s := by
  obtain ⟨e, he, hs⟩ := Option.bind_eq_some_iff.mp h
  exact ⟨e, he, by rw [recordsFor, he], hs⟩

end Document

end CompressionSweep
