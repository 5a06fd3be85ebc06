import CompressionSweep.Proofs.Document.Members
import CompressionSweep.Proofs.Sweep.Control

/-! What a sweep files: every measurement of every call, under the run of that call, and nothing
else. -/

namespace CompressionSweep

open Sweep

variable {ω : Type}

/-! The documents that come about. -/

namespace Attempt

def recordsOf (extract : Extractor) (cs : List Attempt) (name : String) (run : UInt32) :
    List Measurement :=
  (cs.filter (fun c => c.algorithm.name == name && c.run == run)).flatMap (·.records extract)

theorem resultsOf_file (extract : Extractor) (c : Attempt) (d : Document) (name : String)
    (run : UInt32) : (file extract d c).resultsOf name run =
      d.resultsOf name run ++ recordsOf extract [c] name run := by
  have hfold : ∀ ms : List Measurement,
      (ms.foldl (fun d m => d.append c.algorithm.name c.run m) d).resultsOf name run =
        d.resultsOf name run ++ if c.algorithm.name = name ∧ c.run = run then ms else [] := by
    intro ms
    induction ms generalizing d with
    | nil => simp
    | cons m ms ih =>
      rw [List.foldl_cons, ih, Document.resultsOf_append, List.append_assoc]
      split <;> rfl
  rw [file, hfold, recordsOf, List.filter_singleton]
  by_cases h : c.algorithm.name = name ∧ c.run = run
  · simp [h]
  · have hno : (c.algorithm.name == name && c.run == run) = false := by
      rw [Bool.and_eq_false_iff, beq_eq_false_iff_ne, beq_eq_false_iff_ne]
      exact not_and_or.mp h
    rw [if_neg h, hno]
    rfl

theorem recordsOf_cons (extract : Extractor) (c : Attempt) (cs : List Attempt) (name : String)
    (run : UInt32) : recordsOf extract (c :: cs) name run =
      recordsOf extract [c] name run ++ recordsOf extract cs name run := by
  rw [recordsOf, recordsOf, recordsOf, ← List.flatMap_append, ← List.filter_append]
  rfl

theorem resultsOf_files (extract : Extractor) (cs : List Attempt) (d : Document) (name : String)
    (run : UInt32) : (cs.foldl (file extract) d).resultsOf name run =
      d.resultsOf name run ++ recordsOf extract cs name run := by
  induction cs generalizing d with
  | nil => exact (List.append_nil _).symm
  | cons c cs ih =>
    rw [List.foldl_cons, ih, resultsOf_file, List.append_assoc, ← recordsOf_cons]

end Attempt

def Document.metadata (d : Document) : String × String × UInt32 × Option String × String :=
  (d.timestamp, d.configuration, d.runs, d.filter, d.baseline)

theorem metadata_files (extract : Extractor) (cs : List Attempt) (d : Document) :
    (cs.foldl (Attempt.file extract) d).metadata = d.metadata := by
  have hfile : ∀ (c : Attempt) (ms : List Measurement) (d : Document),
      (ms.foldl (fun d m => d.append c.algorithm.name c.run m) d).metadata = d.metadata := by
    intro c ms
    induction ms with
    | nil => exact fun _ => rfl
    | cons m ms ih => exact fun d => ih _
  induction cs generalizing d with
  | nil => rfl
  | cons c cs ih => exact (ih _).trans (hfile c _ d)

/-- The algorithms of `d` come in the order of `names` and are among the first ones up to `index`,
the runs of each are in order, and those of the algorithm at `index` go up to `run`. -/
structure UpTo (names : List String) (index : Nat) (run : UInt32) (d : Document) : Prop where
  algorithms : (d.compressions.map (·.algorithm)).Sublist (names.take (index + 1))
  runs : ∀ e ∈ d.compressions, (e.runs.map (·.run)).Pairwise (· < ·)
  last : ∀ e ∈ d.compressions, names[index]? = some e.algorithm → ∀ r ∈ e.runs, r.run ≤ run

theorem UpTo.mono {names : List String} {index index' : Nat} {run run' : UInt32} {d : Document}
    (hnd : names.Nodup) (h : UpTo names index run d)
    (hle : index < index' ∨ index = index' ∧ run ≤ run') : UpTo names index' run' d := by
  rcases hle with hless | ⟨rfl, hle⟩
  · refine ⟨h.algorithms.trans (List.take_sublist_take_left (by omega)), h.runs,
      fun e he hname => ?_⟩
    -- An algorithm that comes later has no entry yet.
    have hmem : e.algorithm ∈ names.take (index + 1) :=
      h.algorithms.subset (List.mem_map_of_mem he)
    obtain ⟨j, hj, hje⟩ := List.mem_take_iff_getElem.mp hmem
    obtain ⟨hlt, heq⟩ := List.getElem?_eq_some_iff.mp hname
    have hsame : j = index' := (hnd.getElem_inj_iff).mp (hje.trans heq.symm)
    omega
  · exact ⟨h.algorithms, h.runs, fun e he hname r hr =>
      UInt32.le_trans (h.last e he hname r hr) hle⟩

theorem sublist_of_append_singleton {l l' : List String} {x : String}
    (h : l.Sublist (l' ++ [x])) (hx : x ∉ l) : l.Sublist l' := by
  obtain ⟨l₁, l₂, rfl, h₁, h₂⟩ := List.sublist_append_iff.mp h
  have hnil : l₂ = [] := by
    rw [List.eq_nil_iff_forall_not_mem]
    intro y hy
    obtain rfl := List.mem_singleton.mp (h₂.subset hy)
    exact hx (List.mem_append_right l₁ hy)
  rwa [hnil, List.append_nil]

theorem AlgorithmEntry.modifyRun_last {e : AlgorithmEntry} {run : UInt32} {f : RunEntry → RunEntry}
    (hf : ∀ r, (f r).run = r.run) (hruns : (e.runs.map (·.run)).Pairwise (· < ·))
    (hle : ∀ r ∈ e.runs, r.run ≤ run) :
    ((e.modifyRun run f).runs.map (·.run)).Pairwise (· < ·) ∧
      ∀ r ∈ (e.modifyRun run f).runs, r.run ≤ run := by
  have hmap : (e.modifyRun run f).runs.map (·.run) =
      if run ∈ e.runs.map (·.run) then e.runs.map (·.run) else e.runs.map (·.run) ++ [run] :=
    map_modifyOrAppend RunEntry.run (k := run) hf rfl
  constructor
  · rw [hmap]
    split
    · exact hruns
    · rename_i hno
      refine List.pairwise_append.mpr ⟨hruns, List.pairwise_singleton _ _, fun r hr r' hr' => ?_⟩
      obtain rfl := List.mem_singleton.mp hr'
      obtain ⟨x, hx, rfl⟩ := List.mem_map.mp hr
      exact UInt32.lt_of_le_of_ne (hle x hx) (fun he => hno (he ▸ hr))
  · have hnew : (f ⟨run, []⟩).run ≤ run := by rw [hf]; exact UInt32.le_refl run
    exact forall_modifyOrAppend hle hnew (fun r _ hr => by rwa [hf])

theorem UpTo.append {names : List String} {index : Nat} {run : UInt32} {d : Document}
    {name : String} (h : UpTo names index run d) (hname : names[index]? = some name)
    (m : Measurement) : UpTo names index run (d.append name run m) := by
  have htake : names.take (index + 1) = names.take index ++ [name] := by
    rw [List.take_add_one, hname]
    rfl
  have hall : ∀ e ∈ (d.append name run m).compressions, (e.runs.map (·.run)).Pairwise (· < ·) ∧
      (names[index]? = some e.algorithm → ∀ r ∈ e.runs, r.run ≤ run) := by
    refine forall_modifyOrAppend (fun e he => ⟨h.runs e he, h.last e he⟩) ?_ (fun e hp he => ?_)
    · have hnew := @AlgorithmEntry.modifyRun_last ⟨name, []⟩ run (·.extend [m]) (fun _ => rfl)
        List.Pairwise.nil (fun _ hr => absurd hr List.not_mem_nil)
      exact ⟨hnew.1, fun _ => hnew.2⟩
    · obtain rfl := eq_of_beq hp
      have hchanged := AlgorithmEntry.modifyRun_last (f := (·.extend [m])) (fun _ => rfl) he.1
        (he.2 hname)
      exact ⟨hchanged.1, fun _ => hchanged.2⟩
  refine ⟨?_, fun e he => (hall e he).1, fun e he => (hall e he).2⟩
  have hmap : (d.append name run m).compressions.map (·.algorithm) =
      if name ∈ d.compressions.map (·.algorithm) then d.compressions.map (·.algorithm)
      else d.compressions.map (·.algorithm) ++ [name] :=
    map_modifyOrAppend AlgorithmEntry.algorithm (k := name) (fun _ => rfl) rfl
  have halg := h.algorithms
  rw [hmap]
  split
  · exact halg
  · rename_i hno
    rw [htake] at halg ⊢
    exact (sublist_of_append_singleton halg hno).append_right [name]

theorem UpTo.files {names : List String} (hnd : names.Nodup) (extract : Extractor)
    {cs : List Attempt} (hcs : ∀ c ∈ cs, names[c.index]? = some c.algorithm.name)
    (hordered : cs.Pairwise (fun c c' => c.Before c'.index c'.run)) {index : Nat} {run : UInt32}
    {d : Document} (h : UpTo names index run d)
    (hfirst : ∀ c ∈ cs, index < c.index ∨ index = c.index ∧ run ≤ c.run) :
    ∃ index' run', UpTo names index' run' (cs.foldl (Attempt.file extract) d) := by
  induction cs generalizing index run d with
  | nil => exact ⟨index, run, h⟩
  | cons c cs ih =>
    obtain ⟨hname, hcs⟩ := List.forall_mem_cons.mp hcs
    obtain ⟨hbefore, hordered⟩ := List.pairwise_cons.mp hordered
    have hfile : ∀ (ms : List Measurement) (d : Document), UpTo names c.index c.run d →
        UpTo names c.index c.run
          (ms.foldl (fun d m => d.append c.algorithm.name c.run m) d) := by
      intro ms
      induction ms with
      | nil => exact fun _ h => h
      | cons m ms ihms => exact fun d h => ihms _ (h.append hname m)
    have hc := h.mono hnd (hfirst c List.mem_cons_self)
    refine ih hcs hordered (hfile (c.records extract) d hc) (fun c' hc' => ?_)
    exact (hbefore c' hc').imp_right (fun hb => ⟨hb.1, UInt32.le_of_lt hb.2⟩)

/-- What a sweep leaves behind, whatever the tool, the extractor and the writes do. Its document is
the one it began with and, in the order of the calls and of their lines, every measurement of every
call at the end of the run that was called, however the call ended. The number of measurements of a
pair is that of its own call, and the failed writes are counted among the first, the last and one
for each measurement. If the algorithms are distinct and the document was empty, its algorithms come
in their order, and so do the runs of each. -/
theorem sweep_filing (env : Surroundings ω) (s : Setup) (d : Document) (w : ω) :
    let r := run env.recorded s d (w, Log.empty)
    let calls := r.2.2.2.calls
    let writes := r.2.2.2.writes
    run env s d w = (r.1, r.2.1, r.2.2.1) ∧
    r.2.1 = calls.foldl (fun d c =>
      (c.response.lines.filterMap env.extract).foldl
        (fun d m => d.append c.algorithm.name c.run m) d) d ∧
    (∀ name run, r.2.1.resultsOf name run = d.resultsOf name run ++
      (calls.filter (fun c => c.algorithm.name == name && c.run == run)).flatMap
        (fun c => c.response.lines.filterMap env.extract)) ∧
    r.2.1.metadata = d.metadata ∧
    (∀ c ∈ calls, ∃ p, r.1.pairs[c.slot s]? = some p ∧ p.algorithm = c.algorithm ∧
      p.run = c.run ∧ p.records = (c.response.lines.filterMap env.extract).length) ∧
    writes.length =
      2 + (calls.map (fun c => (c.response.lines.filterMap env.extract).length)).sum ∧
    r.1.persistFailures = writes.count false ∧
    (d.compressions = [] → s.algorithms.Nodup →
      (r.2.1.compressions.map (·.algorithm)).Sublist (s.algorithms.map (·.name)) ∧
      ∀ e ∈ r.2.1.compressions, (e.runs.map (·.run)).Pairwise (· < ·)) := by
  intro r calls writes
  have h : Recorded env s d r := run_recorded env s d w
  refine ⟨run_mapWorld env.projects_recorded s d (w, Log.empty), h.document, fun name run => ?_,
    ?_, fun c hc => ⟨_, h.called_pair c hc, rfl, rfl, rfl⟩, h.writes, h.failures, fun hd hnd => ?_⟩
  · rw [h.document]
    exact Attempt.resultsOf_files env.extract calls d name run
  · rw [h.document]
    exact metadata_files env.extract calls d
  · have hnames : (s.algorithms.map (·.name)).Nodup :=
      hnd.map (fun _ _ => Algorithm.name_injective)
    have hempty : UpTo (s.algorithms.map (·.name)) 0 0 d :=
      ⟨by rw [hd]; exact List.nil_sublist _,
        by rw [hd]; exact fun _ he => absurd he List.not_mem_nil,
        by rw [hd]; exact fun _ he => absurd he List.not_mem_nil⟩
    obtain ⟨index, run, hup⟩ := hempty.files hnames env.extract
      (fun c hc => by rw [List.getElem?_map, (h.place c hc).1]; rfl)
      (h.called.ordered (runNumbers_increasing s.runs))
      (fun c _ => (Nat.eq_zero_or_pos c.index).elim
        (fun hz => .inr ⟨hz.symm, UInt32.le_iff_toNat_le.mpr (Nat.zero_le _)⟩) .inl)
    rw [← h.document] at hup
    exact ⟨hup.algorithms.trans (List.take_sublist _ _), hup.runs⟩

theorem sweep_filing_sample :
    let r := run sampleSurroundings.recorded sampleSetup (sampleSetup.document "t")
      ((0, 0), Log.empty)
    r.2.1.compressions = [⟨"GZIP", [⟨1, [⟨"a.jfr", 1.5, 3⟩]⟩, ⟨2, [⟨"a.jfr", 1.5, 3⟩]⟩]⟩,
      ⟨"XZ", [⟨1, [⟨"a.jfr", 1.5, 3⟩]⟩, ⟨2, [⟨"a.jfr", 1.5, 3⟩]⟩]⟩] ∧
    r.1.persistFailures = 1 ∧
    (r.2.1.compressions.map (·.algorithm)).Sublist (sampleSetup.algorithms.map (·.name)) ∧
    ∀ e ∈ r.2.1.compressions, (e.runs.map (·.run)).Pairwise (· < ·) := by
  obtain ⟨-, hdocument, -, -, -, -, hfailures, horder⟩ :=
    sweep_filing sampleSurroundings sampleSetup (sampleSetup.document "t") (0, 0)
  exact ⟨hdocument ▸ by decide +kernel, hfailures.trans (by decide +kernel),
    horder rfl (by decide)⟩

end CompressionSweep
