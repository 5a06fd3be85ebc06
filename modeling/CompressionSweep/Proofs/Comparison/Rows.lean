import CompressionSweep.Proofs.Comparison.Names
import CompressionSweep.Proofs.Statistics.Aggregate

/-! The rows of a comparison: one for each algorithm that is expected or in the document, those with
a place in the sweep order by it, the others behind them as the document has them. -/

namespace CompressionSweep

theorem find?_eq_some_iff_of_nodup {α κ : Type} [BEq κ] [LawfulBEq κ] {key : α → κ} {as : List α}
    (hnd : (as.map key).Nodup) {k : κ} {a : α} :
    as.find? (key · == k) = some a ↔ a ∈ as ∧ key a = k := by
  constructor
  · intro h
    exact ⟨List.mem_of_find?_eq_some h, by simpa using List.find?_some h⟩
  · rintro ⟨ha, rfl⟩
    obtain ⟨b, hb⟩ : ∃ b, as.find? (key · == key a) = some b := by
      rw [← Option.isSome_iff_exists, List.find?_isSome]
      exact ⟨a, ha, beq_self_eq_true _⟩
    have hkey : key b = key a := by simpa using List.find?_some hb
    rw [hb, List.inj_on_of_nodup_map hnd (List.mem_of_find?_eq_some hb) ha hkey]

namespace Algorithm

def names : List String := all.map (·.name)

def isKnown (name : String) : Bool := names.contains name

@[simp] theorem isKnown_iff {name : String} : isKnown name = true ↔ name ∈ names :=
  List.contains_iff_mem

@[simp] theorem isKnown_eq_false_iff {name : String} : isKnown name = false ↔ name ∉ names := by
  rw [← isKnown_iff, Bool.not_eq_true]

theorem mem_names (a : Algorithm) : a.name ∈ names := by
  cases a <;> decide

theorem rank_lt_iff {name : String} : rank name < all.length ↔ name ∈ names := by
  rw [rank, List.findIdx_lt_length]
  simp [names]

theorem rank_of_not_mem {name : String} (h : name ∉ names) : rank name = all.length := by
  have hle : rank name ≤ all.length := List.findIdx_le_length
  exact le_antisymm hle (not_lt.mp (fun hlt => h (rank_lt_iff.mp hlt)))

theorem names_sorted : names.Pairwise (fun a b => rank a ≤ rank b) := by
  decide

theorem nodup_names : names.Nodup := by
  decide

theorem eq_of_rank_eq {a b : String} (ha : a ∈ names) (hb : b ∈ names) (h : rank a = rank b) :
    a = b := by
  obtain ⟨x, -, rfl⟩ := List.mem_map.mp ha
  obtain ⟨y, -, rfl⟩ := List.mem_map.mp hb
  exact congrArg name (rank_injective h)

end Algorithm

namespace Document

def algorithmNames (d : Document) : List String := d.compressions.map (·.algorithm)

theorem recordsFor_eq_nil_iff {d : Document} (hd : d.algorithmNames.Nodup) (name : String) :
    d.recordsFor name = [] ↔ ∀ e ∈ d.compressions, e.algorithm = name → e.records = [] := by
  have hfind : ∀ e, d.algorithm? name = some e ↔ e ∈ d.compressions ∧ e.algorithm = name :=
    fun _ => find?_eq_some_iff_of_nodup hd
  cases h : d.algorithm? name with
  | none =>
    have hno : ∀ e ∈ d.compressions, e.algorithm ≠ name := by simpa [algorithm?] using h
    simpa [recordsFor, h] using fun e he heq => absurd heq (hno e he)
  | some e =>
    simp only [recordsFor, h]
    constructor
    · intro hnone e' he' hname
      have heq := (hfind e').mpr ⟨he', hname⟩
      rw [h] at heq
      rwa [← Option.some.inj heq]
    · exact fun hall => hall e ((hfind e).mp h).1 ((hfind e).mp h).2

theorem mem_algorithmNames {d : Document} {name : String} (h : d.recordsFor name ≠ []) :
    name ∈ d.algorithmNames := by
  cases he : d.algorithm? name with
  | none => exact absurd (by rw [recordsFor, he]) h
  | some e =>
    have hname : e.algorithm = name := by simpa using List.find?_some he
    rw [← hname]
    exact List.mem_map_of_mem (List.mem_of_find?_eq_some he)

end Document

namespace Comparison

/-- All names that are expected or stored. -/
def listed (d : Document) (expected : List Algorithm) : List String :=
  expected.map (·.name) ++ d.algorithmNames

def merged (d : Document) (expected : List Algorithm) : List String :=
  expected.map (·.name) ++ d.algorithmNames.filter (fun n => !(expected.map (·.name)).contains n)

/-- The expected algorithms are known, so all others come from the document. -/
theorem filter_merged (d : Document) (expected : List Algorithm) :
    (merged d expected).filter (!Algorithm.isKnown ·) =
      d.algorithmNames.filter (!Algorithm.isKnown ·) := by
  have hknown : (expected.map (·.name)).filter (!Algorithm.isKnown ·) = [] := by
    refine List.filter_eq_nil_iff.mpr (fun n hn => ?_)
    obtain ⟨a, -, rfl⟩ := List.mem_map.mp hn
    simp [Algorithm.isKnown_iff.mpr a.mem_names]
  rw [merged, List.filter_append, hknown, List.nil_append, List.filter_filter]
  refine List.filter_congr (fun n _ => ?_)
  by_cases hn : n ∈ Algorithm.names
  · simp [Algorithm.isKnown_iff.mpr hn]
  · have hother : n ∉ expected.map (·.name) := by
      intro hmem
      obtain ⟨a, -, rfl⟩ := List.mem_map.mp hmem
      exact hn a.mem_names
    simp [hother]

theorem mem_names {d : Document} {expected : List Algorithm} {name : String} :
    name ∈ names d expected ↔ name ∈ listed d expected := by
  rw [names, List.mem_mergeSort, mem_foldl_addMissing, listed, List.mem_append]
  rfl

section Names

variable {d : Document} {expected : List Algorithm} (hd : d.algorithmNames.Nodup)

include hd

theorem names_eq_mergeSort : names d expected =
    (merged d expected).mergeSort (fun a b => Algorithm.rank a ≤ Algorithm.rank b) :=
  congrArg (List.mergeSort · _) (foldl_addMissing hd _)

theorem nodup_names (hexpected : expected.Nodup) : (names d expected).Nodup := by
  have hknown : (expected.map (·.name)).Nodup :=
    hexpected.map (fun _ _ => Algorithm.name_injective)
  rw [names_eq_mergeSort hd, (List.mergeSort_perm _ _).nodup_iff, merged, List.nodup_append]
  refine ⟨hknown, hd.filter _, fun a ha b hb heq => ?_⟩
  subst heq
  have hother := (List.mem_filter.mp hb).2
  simp only [Bool.not_eq_true', List.contains_eq_mem, decide_eq_false_iff_not] at hother
  exact hother ha

/-- The algorithms of a comparison are those with a place in the sweep order, in that order, and
behind them the others, in the order of the document. -/
theorem names_eq (hexpected : expected.Nodup) : names d expected =
    Algorithm.names.filter (· ∈ listed d expected) ++
      d.algorithmNames.filter (!Algorithm.isKnown ·) := by
  have hsort : names d expected = (merged d expected).mergeSort
      (fun a b => Algorithm.rank a ≤ Algorithm.rank b) := names_eq_mergeSort hd
  have hsorted := pairwise_mergeSort_key Algorithm.rank (merged d expected)
  rw [← hsort] at hsorted
  have hsplit := filter_append_filter_of_sorted (p := Algorithm.isKnown) hsorted
    (by
      intro a b hab hb
      simp only [Algorithm.isKnown_iff, ← Algorithm.rank_lt_iff] at hb ⊢
      omega)
  have hknown : (names d expected).filter Algorithm.isKnown =
      Algorithm.names.filter (· ∈ listed d expected) := by
    refine List.Perm.eq_of_pairwise (fun a b ha hb hab hba => ?_)
      (hsorted.sublist List.filter_sublist) (Algorithm.names_sorted.sublist List.filter_sublist) ?_
    · have ha := (List.mem_filter.mp ha).2
      exact Algorithm.eq_of_rank_eq (Algorithm.isKnown_iff.mp ha) (List.mem_filter.mp hb).1
        (le_antisymm hab hba)
    · refine (List.perm_ext_iff_of_nodup ((nodup_names hd hexpected).filter _)
        (Algorithm.nodup_names.filter _)).mpr (fun name => ?_)
      simp only [List.mem_filter, Algorithm.isKnown_iff, decide_eq_true_eq, mem_names]
      exact and_comm
  have hunknown : (names d expected).filter (!Algorithm.isKnown ·) =
      d.algorithmNames.filter (!Algorithm.isKnown ·) := by
    -- One rank for all unknown names: only the stability of the sort tells their order.
    have htied : ∀ name, (!Algorithm.isKnown name) = true →
        Algorithm.rank name = Algorithm.all.length :=
      fun name h => Algorithm.rank_of_not_mem (by simpa using h)
    rw [hsort, filter_mergeSort_of_tie htied, filter_merged]
  rw [← hsplit, hknown, hunknown]

end Names

theorem row?_eq_some_iff {c : Comparison} (hrows : (c.rows.map (·.algorithm)).Nodup) {name : String}
    {r : ComparisonRow} : c.row? name = some r ↔ r ∈ c.rows ∧ r.algorithm = name :=
  find?_eq_some_iff_of_nodup hrows

theorem algorithms_rows (d : Document) (baseline : String) (expected : List Algorithm) :
    (build d baseline expected).rows.map (·.algorithm) = names d expected := by
  rw [build, List.map_map]
  exact List.map_id _

theorem result_eq_none_iff {d : Document} {baseline : String} {expected : List Algorithm}
    {r : ComparisonRow} (hr : r ∈ (build d baseline expected).rows) :
    r.result = none ↔ d.recordsFor r.algorithm = [] := by
  obtain ⟨name, -, rfl⟩ := List.mem_map.mp hr
  simp [row, measured?, Document.aggregate?_eq_none_iff]

/-- A row has a result exactly if a record is stored under its name, and each such name has a row. -/
theorem exists_result_iff (d : Document) (baseline : String) (expected : List Algorithm)
    (name : String) : (∃ r ∈ (build d baseline expected).rows, r.algorithm = name ∧
      r.result ≠ none) ↔ d.recordsFor name ≠ [] := by
  constructor
  · rintro ⟨r, hr, rfl, hresult⟩
    exact mt (result_eq_none_iff hr).mpr hresult
  · intro h
    have hlisted : name ∈ names d expected :=
      mem_names.mpr (List.mem_append_right _ (Document.mem_algorithmNames h))
    have hr := List.mem_map_of_mem (f := row d baseline) hlisted
    exact ⟨_, hr, rfl, mt (result_eq_none_iff hr).mp h⟩

theorem isBaseline_iff {d : Document} {baseline : String} {expected : List Algorithm}
    {r : ComparisonRow} (hr : r ∈ (build d baseline expected).rows) :
    r.isBaseline = true ↔ r.algorithm = baseline := by
  obtain ⟨name, -, rfl⟩ := List.mem_map.mp hr
  simp [row]

theorem countP_isBaseline (d : Document) (baseline : String) (expected : List Algorithm) :
    (build d baseline expected).rows.countP (·.isBaseline) = (names d expected).count baseline :=
  List.countP_map

theorem countP_algorithm (d : Document) (baseline : String) (expected : List Algorithm)
    (name : String) : (build d baseline expected).rows.countP (·.algorithm == name) =
      (names d expected).count name :=
  List.countP_map

theorem count_names {d : Document} (hd : d.algorithmNames.Nodup) {expected : List Algorithm}
    (hexpected : expected.Nodup) (name : String) :
    (names d expected).count name = if name ∈ listed d expected then 1 else 0 := by
  rw [(nodup_names hd hexpected).count]
  simp only [mem_names]

/-- An algorithm that is expected more than once has as many rows. -/
theorem filter_rows (d : Document) (baseline : String) (expected : List Algorithm)
    (name : String) : (build d baseline expected).rows.filter (·.algorithm == name) =
      List.replicate ((names d expected).count name) (row d baseline name) := by
  rw [build, List.filter_map]
  exact (congrArg (List.map _) (List.filter_beq name)).trans List.map_replicate

theorem filter_rows_of_mem {d : Document} (hd : d.algorithmNames.Nodup)
    {expected : List Algorithm} (hexpected : expected.Nodup) {e : AlgorithmEntry}
    (he : e ∈ d.compressions) (baseline : String) :
    (build d baseline expected).rows.filter (·.algorithm == e.algorithm) =
      [row d baseline e.algorithm] := by
  have hlisted : e.algorithm ∈ listed d expected :=
    List.mem_append_right _ (List.mem_map_of_mem he)
  rw [filter_rows, count_names hd hexpected, if_pos hlisted]
  rfl

/-- A comparison of a document that has no algorithm twice, with any baseline and any expected
algorithms that are not repeated. It has one row for each algorithm that is expected or stored and no
other: first those of the sweep order, in that order, then the unknown ones, in the order of the
document. A look-up finds the row of an algorithm if there is one. The baseline's row, where there is
one, is marked and no other, and a row is without a result exactly if no record is stored under its
name. -/
theorem rows_complete {d : Document} (hd : (d.compressions.map (·.algorithm)).Nodup)
    {expected : List Algorithm} (hexpected : expected.Nodup) (baseline : String) :
    let c := build d baseline expected
    let stored := d.compressions.map (·.algorithm)
    let listed := expected.map (·.name) ++ stored
    let inOrder := Algorithm.all.map (·.name)
    (∀ name, c.rows.countP (·.algorithm == name) = if name ∈ listed then 1 else 0) ∧
    c.rows.map (·.algorithm) =
      inOrder.filter (· ∈ listed) ++ stored.filter (· ∉ inOrder) ∧
    (∀ name r, c.row? name = some r ↔ r ∈ c.rows ∧ r.algorithm = name) ∧
    (∀ r ∈ c.rows, r.isBaseline = true ↔ r.algorithm = baseline) ∧
    c.rows.countP (·.isBaseline) = (if baseline ∈ listed then 1 else 0) ∧
    ∀ r ∈ c.rows, r.result = none ↔
      ∀ e ∈ d.compressions, e.algorithm = r.algorithm → e.records = [] := by
  intro c stored listed inOrder
  have hrows : (c.rows.map (·.algorithm)).Nodup := by
    rw [algorithms_rows]
    exact nodup_names hd hexpected
  have horder : stored.filter (!Algorithm.isKnown ·) = stored.filter (· ∉ inOrder) :=
    List.filter_congr (fun n _ => by rw [Bool.eq_iff_iff]; simp [inOrder, Algorithm.names])
  refine ⟨fun name => ?_, ?_, fun _ _ => row?_eq_some_iff hrows, fun _ => isBaseline_iff, ?_,
    fun r hr => ?_⟩
  · rw [countP_algorithm, count_names hd hexpected]
    rfl
  · rw [algorithms_rows, names_eq hd hexpected, ← horder]
    rfl
  · rw [countP_isBaseline, count_names hd hexpected]
    rfl
  · rw [result_eq_none_iff hr, Document.recordsFor_eq_nil_iff hd]

/-- An unknown algorithm before and behind known ones, one without records, and the baseline among
the expected only. -/
def sampleStored : Document :=
  ⟨"t", "default", 1, none, "XZ",
    [⟨"brotli", [⟨1, [⟨"a.jfr", 1.5, 10⟩]⟩]⟩, ⟨"ZSTD", [⟨1, [⟨"a.jfr", 2.5, 20⟩]⟩]⟩,
      ⟨"GZIP", [⟨1, []⟩]⟩, ⟨"Zstd", []⟩]⟩

theorem rows_complete_sample :
    let c := build sampleStored "XZ" [.zstd, .xz]
    c.rows.map (·.algorithm) = ["GZIP", "XZ", "ZSTD", "brotli", "Zstd"] ∧
    c.rows.countP (·.isBaseline) = 1 ∧ (∃ r ∈ c.rows, c.row? "brotli" = some r) ∧
    ∀ r ∈ c.rows, r.algorithm = "GZIP" → r.result = none := by
  intro c
  have hd : (sampleStored.compressions.map (·.algorithm)).Nodup := by decide
  have hexpected : [Algorithm.zstd, .xz].Nodup := by decide
  obtain ⟨hcount, hnames, hrow, -, hbaseline, hnone⟩ := rows_complete hd hexpected "XZ"
  have horder := hnames.trans (by decide +kernel :
    _ = ["GZIP", "XZ", "ZSTD", "brotli", "Zstd"])
  refine ⟨horder, hbaseline.trans (by decide), ?_, fun r hr hname => (hnone r hr).mpr ?_⟩
  · have hmem : "brotli" ∈ c.rows.map (·.algorithm) := by
      rw [horder]
      decide
    obtain ⟨r, hr, hname⟩ := List.mem_map.mp hmem
    exact ⟨r, hr, (hrow "brotli" r).mpr ⟨hr, hname⟩⟩
  · rw [hname]
    decide

end Comparison

end CompressionSweep
