import CompressionSweep.Proofs.Comparison.Percentages
import CompressionSweep.Proofs.Decimal.Quotient

/-! The baseline in percent of itself. Its averages are taken once for the reference and once more
for its own row and for each of its files; they are the same doubles, so the quotient is one. -/

namespace CompressionSweep

open Comparison

/-- What an average is in percent of itself, where it can be compared with. -/
def percentOfItself (name : String) (average : Float) : Percentage :=
  if average.isFinite = true ∧ 0.0 < average then .ok 100.0 else .error name

theorem percentOfItself_of_ne (name : String) (average : List Measurement → Float)
    {ms : List Measurement} (h : ms ≠ []) :
    (if Comparable average ms then .ok (average ms / average ms * 100.0) else .error name) =
      percentOfItself name (average ms) := by
  by_cases husable : (average ms).isFinite = true ∧ 0.0 < average ms
  · have hone : average ms / average ms * 100.0 = 100.0 := by
      rw [Decimal.div_self_eq_one husable.1 husable.2]
      decide +kernel
    have hcomparable : Comparable average ms := ⟨h, husable⟩
    rw [if_pos hcomparable, percentOfItself, if_pos husable, hone]
  · have hno : ¬ Comparable average ms := fun hcomparable => husable hcomparable.2
    rw [if_neg hno, percentOfItself, if_neg husable]

theorem Relative.Resolved.eq_ofItself {baseline : String} {ms : List Measurement} {r : Relative}
    (h : r.Resolved baseline ms (averageSeconds ms) (averageBytes ms)) (hne : ms ≠ []) :
    r = ⟨percentOfItself baseline (averageSeconds ms),
      percentOfItself baseline (averageBytes ms)⟩ := by
  rw [← percentOfItself_of_ne baseline averageSeconds hne,
    ← percentOfItself_of_ne baseline averageBytes hne, ← h.seconds, ← h.bytes]

namespace Document

theorem averages_of_aggregate? {d : Document} {name : String} {s : Aggregate}
    (h : d.aggregate? name = some s) : d.recordsFor name ≠ [] ∧
      s.averageSeconds = averageSeconds (d.recordsFor name) ∧
      s.averageBytes = averageBytes (d.recordsFor name) := by
  obtain ⟨e, -, hrecords, hs⟩ := exists_of_aggregate? h
  obtain ⟨hne, rfl⟩ := AlgorithmEntry.aggregate?_eq_some_iff.mp hs
  rw [hrecords]
  exact ⟨hne, rfl, rfl⟩

/-- The averages of a file are those of its measurements, of which there are some. -/
theorem averages_of_mem_perFile {d : Document} {name : String} {f : String × FileStatistics}
    (h : f ∈ d.perFile name) :
    let ms := (d.recordsFor name).filter (·.file == f.1)
    ms ≠ [] ∧ f.2.averageSeconds = averageSeconds ms ∧ f.2.averageBytes = averageBytes ms := by
  cases he : d.algorithm? name with
  | none => simp [perFile, he] at h
  | some e =>
    rw [perFile_of_algorithm? he] at h
    obtain ⟨file, hfile, rfl⟩ := List.mem_map.mp h
    have hrecords : (d.recordsFor name).filter (·.file == file) =
        (e.samples.filter (·.2.file == file)).map (·.2) := by
      rw [recordsFor, he]
      dsimp only
      rw [e.records_eq, List.filter_map]
      rfl
    have hne := (e.mem_files_iff_samples file).mp hfile
    dsimp only
    rw [hrecords]
    exact ⟨fun hnone => hne (List.map_eq_nil_iff.mp hnone), rfl, rfl⟩

end Document

namespace Comparison

/-- The row of the baseline in a comparison of any document. Each of its two columns shows exactly
100 percent if the average in it is finite and greater than zero, and otherwise that the baseline
cannot be compared with; so does each column of each of its files, by the average of the file. -/
theorem baseline_of_itself {d : Document} {baseline : String} {expected : List Algorithm}
    {r : ComparisonRow} (hr : r ∈ (build d baseline expected).rows)
    (hbaseline : r.isBaseline = true) {m : Measured} (hm : r.result = some m) :
    m.relative = ⟨percentOfItself baseline m.statistics.averageSeconds,
      percentOfItself baseline m.statistics.averageBytes⟩ ∧
    ∀ f ∈ m.files, f.relative = ⟨percentOfItself baseline f.statistics.averageSeconds,
      percentOfItself baseline f.statistics.averageBytes⟩ := by
  have hresolved := resolved_of_row hr hm
  rw [(isBaseline_iff hr).mp hbaseline] at hresolved
  constructor
  · obtain ⟨hne, hseconds, hbytes⟩ := Document.averages_of_aggregate? hresolved.statistics
    have hown := hresolved.relative
    rw [hseconds, hbytes] at hown ⊢
    exact hown.eq_ofItself hne
  · intro f hf
    have hmem : (f.file, f.statistics) ∈ d.perFile baseline := by
      rw [← hresolved.files]
      exact List.mem_map_of_mem hf
    obtain ⟨hne, hseconds, hbytes⟩ := Document.averages_of_mem_perFile hmem
    have hown := hresolved.fileRelative f hf
    dsimp only at hseconds hbytes
    rw [hseconds, hbytes] at hown ⊢
    exact hown.eq_ofItself hne

theorem baseline_of_itself_sample :
    ∃ r ∈ (build zeroSizeDocument "GZIP" [.xz]).rows, r.isBaseline = true ∧
      ∃ m, r.result = some m ∧ m.relative = ⟨.ok 100.0, .error "GZIP"⟩ ∧
        m.files.map (·.relative) = [⟨.ok 100.0, .error "GZIP"⟩] := by
  let r := row zeroSizeDocument "GZIP" "GZIP"
  have hr : r ∈ (build zeroSizeDocument "GZIP" [.xz]).rows :=
    List.mem_map_of_mem (mem_names.mpr (by decide))
  obtain ⟨hrow, hfiles⟩ := baseline_of_itself hr rfl (rfl : r.result = some _)
  have hseconds : averageSeconds [⟨"a.jfr", 2.0, 0⟩] = 2.0 := by
    simp only [averageSeconds, Statistics.seconds, Statistics.sorted, List.map_cons, List.map_nil,
      List.mergeSort_singleton]
    decide +kernel
  have hbytes : averageBytes [⟨"a.jfr", 2.0, 0⟩] = 0.0 := by
    simp only [averageBytes, Statistics.sizes, Statistics.sorted, List.map_cons, List.map_nil,
      List.mergeSort_singleton]
    decide +kernel
  have hfull : percentOfItself "GZIP" 2.0 = .ok 100.0 := if_pos (by decide +kernel)
  have hnone : percentOfItself "GZIP" 0.0 = .error "GZIP" := if_neg (by decide +kernel)
  have hpercent : (⟨percentOfItself "GZIP" (averageSeconds [⟨"a.jfr", 2.0, 0⟩]),
      percentOfItself "GZIP" (averageBytes [⟨"a.jfr", 2.0, 0⟩])⟩ : Relative) =
        ⟨.ok 100.0, .error "GZIP"⟩ := by
    rw [hseconds, hbytes, hfull, hnone]
  refine ⟨r, hr, rfl, _, rfl, hrow.trans hpercent, ?_⟩
  exact congrArg (fun x => [x]) ((hfiles _ (List.mem_cons_self)).trans hpercent)

end Comparison

end CompressionSweep
