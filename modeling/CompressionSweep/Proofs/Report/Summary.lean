import CompressionSweep.Report.Table
import Mathlib.Data.String.Basic

/-! The summary of a report: a heading, one line for each row of the comparison, and notes. The line
of an algorithm with measurements has one cell under each column. -/

namespace CompressionSweep.Report

def heading (d : Document) (c : Comparison) : List String :=
  let spread := showsSpread d
  let width := summaryWidth spread
  ["", rule '=' width, "COMPREHENSIVE SUMMARY"] ++ filterLine d
    ++ ["Baseline: " ++ c.baseline, rule '=' width, summaryHeader spread, rule '-' width]

def notes (d : Document) (c : Comparison) : List String :=
  ["", rule '=' (summaryWidth (showsSpread d)), "NOTES:", baselineNote c,
    "- Rel% = Relative percentage compared to baseline (lower is better)",
    "- Duration: Time to compress one file, averaged over files and runs",
    "- Size: Compressed file size, averaged over files and runs",
    "- Files: Total number of benchmark results across runs",
    spreadNote (showsSpread d)]

theorem summary_eq (d : Document) (c : Comparison) :
    summary d c = heading d c ++ c.rows.map (summaryLine (showsSpread d)) ++ notes d c := by
  simp [summary, heading, notes]

/-- A column of the summary: its name, and how a text is set in it. -/
structure Column where
  name : String
  set : String → String

def columns (spread : Bool) : List Column :=
  if spread then
    [⟨"Algorithm", left 12⟩, ⟨"Avg Duration", right 12⟩, ⟨"±StdDev", right 10⟩, ⟨"Rel%", right 8⟩,
      ⟨"Avg Size", right 15⟩, ⟨"±StdDev", right 12⟩, ⟨"Rel%", right 8⟩, ⟨"Files", right 8⟩]
  else
    [⟨"Algorithm", left 12⟩, ⟨"Avg Duration", right 12⟩, ⟨"Rel%", right 8⟩,
      ⟨"Avg Size", right 15⟩, ⟨"Rel%", right 8⟩, ⟨"Files", right 8⟩]

theorem summaryHeader_eq (spread : Bool) :
    summaryHeader spread =
      "  " ++ " ".intercalate ((columns spread).map (fun x => x.set x.name)) := by
  apply String.toList_inj.mp
  cases spread <;> simp [summaryHeader, columns]

def cells (spread : Bool) (algorithm : String) (m : Measured) : List String :=
  let s := m.statistics
  if spread then
    [left 12 algorithm, right 11 (secondsCell s.averageSeconds) ++ "s",
      "±" ++ right 8 (secondsCell s.spreadSeconds) ++ "s", right 8 (percentCell m.relative.seconds),
      right 14 (bytesCell s.averageBytes), "±" ++ right 10 (bytesCell s.spreadBytes),
      right 8 (percentCell m.relative.bytes), right 8 (toString s.samples)]
  else
    [left 12 algorithm, right 11 (secondsCell s.averageSeconds) ++ "s",
      right 8 (percentCell m.relative.seconds), right 14 (bytesCell s.averageBytes),
      right 8 (percentCell m.relative.bytes), right 8 (toString s.samples)]

theorem summaryLine_of_measured (spread : Bool) {r : ComparisonRow} {m : Measured}
    (h : r.result = some m) :
    summaryLine spread r = marker r ++ " ".intercalate (cells spread r.algorithm m) := by
  apply String.toList_inj.mp
  rw [summaryLine, h]
  cases spread <;> simp [cells]

/-- Without percentages both columns for them say so. -/
theorem relative_cells (spread : Bool) (algorithm : String) {m : Measured} {e e' : String}
    (hseconds : m.relative.seconds = .error e) (hbytes : m.relative.bytes = .error e') :
    (cells spread algorithm m).length = (columns spread).length ∧
      ∀ x ∈ (columns spread).zip (cells spread algorithm m),
        x.1.name = "Rel%" → x.2 = x.1.set "n/a" := by
  cases spread <;> simp [cells, columns, hseconds, hbytes, percentCell]

def unavailableNote (baseline : String) : String :=
  "- Baseline unavailable: " ++ missingBaselineMessage baseline ++ "; Rel% not computed"

theorem baselineNote_eq (c : Comparison) :
    baselineNote c = if c.isUsable then "- Baseline (" ++ c.baseline ++ ") is marked with →"
      else unavailableNote c.baseline := rfl

/-- The line does not start as the note on an unavailable baseline does. -/
def StartsApart (line : String) : Prop :=
  line.toList.take 12 ≠ "- Baseline u".toList

theorem unavailableNote_starts (baseline : String) : ¬ StartsApart (unavailableNote baseline) := by
  have hstart : ∀ cause : String, ("- Baseline unavailable: " ++ cause ++
      "; Rel% not computed").toList.take 12 = "- Baseline u".toList := by simp
  exact fun h => h (hstart _)

theorem heading_startsApart (d : Document) (c : Comparison) :
    ∀ line ∈ heading d c, StartsApart line := by
  have hfilter : ∀ line ∈ filterLine d, StartsApart line := by
    unfold filterLine
    split <;> simp [StartsApart]
  intro line hline
  rw [heading] at hline
  generalize showsSpread d = spread at hline
  simp only [List.mem_append] at hline
  rcases hline with (hline | hline) | hline
  · cases spread <;> revert line <;> simp [StartsApart, rule, summaryWidth]
  · exact hfilter line hline
  · cases spread <;> revert line <;> simp [StartsApart, rule, summaryWidth, summaryHeader]

theorem summaryLine_startsApart (spread : Bool) (r : ComparisonRow) :
    StartsApart (summaryLine spread r) := by
  have hline : ∃ rest, summaryLine spread r = marker r ++ rest := by
    cases h : r.result with
    | none => exact ⟨_, by rw [summaryLine, h, String.append_assoc, String.append_assoc]⟩
    | some m => exact ⟨_, summaryLine_of_measured spread h⟩
  obtain ⟨rest, hline⟩ := hline
  rw [hline, marker]
  split_ifs <;> simp [StartsApart]

theorem unavailableNote_mem_summary (d : Document) (c : Comparison) :
    unavailableNote c.baseline ∈ summary d c ↔ c.isUsable = false := by
  have hstarts := unavailableNote_starts c.baseline
  have hbefore : unavailableNote c.baseline ∉ heading d c ++
      c.rows.map (summaryLine (showsSpread d)) := by
    intro hmem
    rcases List.mem_append.mp hmem with hmem | hmem
    · exact hstarts (heading_startsApart d c _ hmem)
    · obtain ⟨r, -, hline⟩ := List.mem_map.mp hmem
      exact hstarts (hline ▸ summaryLine_startsApart _ r)
  rw [summary_eq, List.mem_append, or_iff_right hbefore]
  constructor
  · intro hmem
    by_contra husable
    have hmarked : baselineNote c = "- Baseline (" ++ c.baseline ++ ") is marked with →" := by
      simp [baselineNote_eq, husable]
    have hapart : ∀ line ∈ notes d c, StartsApart line := by
      rw [notes, hmarked]
      generalize showsSpread d = spread
      cases spread <;> simp [StartsApart, rule, summaryWidth, spreadNote]
    exact hstarts (hapart _ hmem)
  · intro h
    simp [notes, baselineNote_eq, h]

end CompressionSweep.Report
