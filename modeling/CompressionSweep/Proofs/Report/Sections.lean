import CompressionSweep.Proofs.Report.Lines

/-! What the three tables of a report show of one algorithm: the sections under its name, and the
lines of its rows. It is read off the printed text and told from what the tables are made of. -/

namespace CompressionSweep

namespace AlgorithmEntry

/-- The lines of the records of an algorithm, in stored order, each with the number of its run. -/
def recordLines (e : AlgorithmEntry) : List String :=
  e.runs.flatMap (fun r => r.results.map (Report.recordLine r.run))

theorem length_recordLines (e : AlgorithmEntry) : e.recordLines.length = e.records.length := by
  simp [recordLines, records, List.length_flatMap]

theorem map_lastNumber?_recordLines (e : AlgorithmEntry) : e.recordLines.map Report.lastNumber? =
    e.runs.flatMap (fun r => r.results.map (fun _ => some r.run.toNat)) := by
  simp [recordLines, List.map_flatMap, Function.comp_def, Report.lastNumber?_recordLine]

end AlgorithmEntry

/-- The names in a document hold no newline. -/
structure Document.HasPlainNames (d : Document) : Prop where
  algorithms : ∀ e ∈ d.compressions, Report.IsLine e.algorithm
  files : ∀ e ∈ d.compressions, ∀ m ∈ e.records, Report.IsLine m.file

/-- The names in a row hold no newline. -/
structure ComparisonRow.IsPlain (r : ComparisonRow) : Prop where
  algorithm : Report.IsLine r.algorithm
  files : ∀ m, r.result = some m → ∀ f ∈ m.files, Report.IsLine f.file

namespace Report

/-! ## Tables as their sections -/

def individualHeading : List String :=
  [rule '=' 80, "INDIVIDUAL BENCHMARK RESULTS", rule '=' 80]

def individualHead : List String :=
  [rule '-' 80, recordHeader, rule '-' 80]

def recordTables (d : Document) : List (String × List String) :=
  (d.compressions.filter (0 < ·.sampleCount)).map (fun e => (e.algorithm, e.recordLines))

theorem individual_eq (d : Document) :
    individual d = individualHeading ++ titled " Results:" individualHead (recordTables d) := by
  have hsection : ∀ e : AlgorithmEntry, individualSection e =
      "" :: (e.algorithm ++ " Results:") :: individualHead ++ e.recordLines := fun e => by
    simp [individualSection, individualHead, AlgorithmEntry.samples, AlgorithmEntry.recordLines,
      List.map_flatMap, Function.comp_def]
  rw [individual, titled, recordTables, List.flatMap_map, funext hsection]
  rfl

def perFileHeading (c : Comparison) : List String :=
  ["", rule '=' 100, "PER-FILE COMPARISON (Baseline: " ++ c.baseline ++ ")", rule '=' 100]

def fileTables (rows : List ComparisonRow) : List (String × List String) :=
  rows.filterMap (fun r => r.result.map (fun m => (r.algorithm, m.files.map fileLine)))

theorem perFile_eq (c : Comparison) :
    perFile c = perFileHeading c ++ titled ":" [fileHeader] (fileTables c.rows) := by
  have hsections : ∀ rows : List ComparisonRow, rows.flatMap fileSection =
      titled ":" [fileHeader] (fileTables rows) := by
    intro rows
    induction rows with
    | nil => rfl
    | cons r rows ih =>
      rw [List.flatMap_cons, ih, fileSection]
      cases hr : r.result <;> simp [titled, fileTables, hr]
  rw [perFile, hsections]
  rfl

/-! ## What is read -/

/-- The record lines in the sections of an algorithm, in the table of all measurements. -/
def individualSections (d : Document) (name : String) : List (List String) :=
  sectionsUnder ((name ++ " Results:") :: individualHead) (behind individualHeading (individual d))

/-- The lines of an algorithm in the summary, which has one line for each row. -/
def summaryLines (d : Document) (c : Comparison) (name : String) : List String :=
  ((c.rows.zip (behind (heading d c) (summary d c))).filter (·.1.algorithm == name)).map (·.2)

/-- The lines of the files in the sections of an algorithm, in the comparison of the files. -/
def fileSections (c : Comparison) (name : String) : List (List String) :=
  sectionsUnder [name ++ ":", fileHeader] (behind (perFileHeading c) (perFile c))

theorem isLine_titled {suffix : String} (hsuffix : IsLine suffix) {head : List String}
    (hhead : ∀ l ∈ head, IsLine l) {tables : List (String × List String)}
    (h : ∀ t ∈ tables, IsLine t.1 ∧ ∀ l ∈ t.2, IsLine l) :
    ∀ l ∈ titled suffix head tables, IsLine l := by
  intro l hl
  obtain ⟨t, ht, hl⟩ := List.mem_flatMap.mp hl
  obtain ⟨hname, hrows⟩ := h t ht
  rcases List.mem_append.mp hl with hl | hl
  · rcases List.mem_cons.mp hl with rfl | hl
    · decide
    · rcases List.mem_cons.mp hl with rfl | hl
      · exact isLine_append.mpr ⟨hname, hsuffix⟩
      · exact hhead l hl
  · exact hrows l hl

/-- The sections of a table behind its heading, if what they hold are lines with numbers. -/
theorem sectionsUnder_behind {suffix : String} (hsuffix : suffix ≠ "" ∧ IsLine suffix)
    {head : List String} (hhead : "" ∉ head ∧ ∀ l ∈ head, IsLine l)
    {tables : List (String × List String)}
    (h : ∀ t ∈ tables, IsLine t.1 ∧ ∀ l ∈ t.2, IsLine l ∧ ∃ n, lastNumber? l = some n)
    (heading : List String) (name : String) :
    sectionsUnder ((name ++ suffix) :: head)
        (behind heading (heading ++ titled suffix head tables)) =
      (tables.filter (·.1 == name)).map (·.2) := by
  have hlines := isLine_titled hsuffix.2 hhead.2
    (fun t ht => ⟨(h t ht).1, fun l hl => ((h t ht).2 l hl).1⟩)
  -- A line with a number is not empty, so no section begins at it.
  have hne : ∀ t ∈ tables, "" ∉ t.2 := by
    intro t ht hmem
    obtain ⟨n, hn⟩ := ((h t ht).2 "" hmem).2
    exact ne_empty_of_lastNumber? hn rfl
  rw [behind_eq hlines, sectionsUnder_titled hsuffix.1 hhead.1 hne]

theorem zip_map_append {α β : Type} (f : α → β) (as : List α) (more : List β) :
    as.zip (as.map f ++ more) = as.map (fun a => (a, f a)) := by
  induction as with
  | nil => rfl
  | cons a as ih => rw [List.map_cons, List.cons_append, List.zip_cons_cons, ih, List.map_cons]

theorem summaryLines_eq (d : Document) {c : Comparison} (hc : ∀ r ∈ c.rows, IsLine r.algorithm)
    (name : String) : summaryLines d c name =
      (c.rows.filter (·.algorithm == name)).map (summaryLine (showsSpread d)) := by
  have hlines : ∀ l ∈ c.rows.map (summaryLine (showsSpread d)), IsLine l := by
    intro l hl
    obtain ⟨r, hr, rfl⟩ := List.mem_map.mp hl
    exact isLine_summaryLine _ (hc r hr)
  rw [summaryLines, summary_eq, behind_append hlines, zip_map_append, List.filter_map,
    List.map_map]
  rfl

theorem individualSections_eq {d : Document} (hd : d.HasPlainNames) (name : String) :
    individualSections d name = ((d.compressions.filter (0 < ·.sampleCount)).filter
      (·.algorithm == name)).map (·.recordLines) := by
  rw [individualSections, individual_eq, sectionsUnder_behind (by decide) (by decide),
    recordTables, List.filter_map, List.map_map]
  · rfl
  intro t ht
  obtain ⟨e, he, rfl⟩ := List.mem_map.mp ht
  have he := (List.mem_filter.mp he).1
  refine ⟨hd.algorithms e he, fun l hl => ?_⟩
  obtain ⟨r, hr, hl⟩ := List.mem_flatMap.mp hl
  obtain ⟨m, hm, rfl⟩ := List.mem_map.mp hl
  have hm := List.mem_flatMap.mpr ⟨r, hr, hm⟩
  exact ⟨isLine_recordLine r.run (hd.files e he m hm), _, lastNumber?_recordLine r.run m⟩

theorem filter_fileTables (rows : List ComparisonRow) (name : String) :
    ((fileTables rows).filter (·.1 == name)).map (·.2) =
      (rows.filter (·.algorithm == name)).filterMap
        (fun r => r.result.map (fun m => m.files.map fileLine)) := by
  induction rows with
  | nil => rfl
  | cons r rows ih =>
    rw [fileTables] at ih ⊢
    rw [List.filterMap_cons]
    cases hr : r.result <;> by_cases hname : r.algorithm = name <;> simp [hr, hname, ih]

theorem fileSections_eq {c : Comparison} (hc : ∀ r ∈ c.rows, r.IsPlain) (name : String) :
    fileSections c name = (c.rows.filter (·.algorithm == name)).filterMap
      (fun r => r.result.map (fun m => m.files.map fileLine)) := by
  rw [fileSections, perFile_eq, sectionsUnder_behind (by decide) (by decide +kernel),
    filter_fileTables]
  intro t ht
  obtain ⟨r, hr, ht⟩ := List.mem_filterMap.mp ht
  obtain ⟨m, hm, rfl⟩ := Option.map_eq_some_iff.mp ht
  refine ⟨(hc r hr).algorithm, fun l hl => ?_⟩
  obtain ⟨f, hf, rfl⟩ := List.mem_map.mp hl
  exact ⟨isLine_fileLine ((hc r hr).files m hm f hf), _, lastNumber?_fileLine f⟩

end Report

end CompressionSweep
