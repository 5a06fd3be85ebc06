import CompressionSweep.Proofs.Document.Members
import CompressionSweep.Statistics

/-! Documents that measurements arrive in. What is stored for one algorithm depends on its own
arrivals only, and holds each of them once. -/

namespace CompressionSweep

/-- A measurement on its way into a document, with the algorithm and the run it belongs to. -/
abbrev Arrival := Algorithm × Sample

def Document.appendAll (d : Document) (as : List Arrival) : Document :=
  as.foldl (fun d a => d.append a.1.name a.2.1 a.2.2) d

def AlgorithmEntry.extendAll (e : AlgorithmEntry) (ss : List Sample) : AlgorithmEntry :=
  ss.foldl (fun e s => e.modifyRun s.1 (·.extend [s.2])) e

def samplesOf (name : String) (as : List Arrival) : List Sample :=
  (as.filter (·.1.name == name)).map (·.2)

theorem Document.appendAll_eq (d : Document) (as : List Arrival) :
    ∃ es, d.appendAll as = { d with compressions := es } := by
  induction as generalizing d with
  | nil => exact ⟨d.compressions, rfl⟩
  | cons a as ih =>
    obtain ⟨es, hes⟩ := ih (d.append a.1.name a.2.1 a.2.2)
    exact ⟨es, hes⟩

theorem Document.algorithm?_append (d : Document) (name : String) (run : UInt32) (m : Measurement)
    (name' : String) : (d.append name run m).algorithm? name' =
      if name = name' then
        some (((d.algorithm? name).getD ⟨name, []⟩).modifyRun run (·.extend [m]))
      else d.algorithm? name' :=
  d.algorithm?_modifyAlgorithm name
    (fun e => (rfl : (e.modifyRun run (·.extend [m])).algorithm = e.algorithm)) name'

theorem Document.algorithm?_appendAll (d : Document) (as : List Arrival) (name : String) :
    (d.appendAll as).algorithm? name =
      if samplesOf name as = [] then d.algorithm? name
      else some (((d.algorithm? name).getD ⟨name, []⟩).extendAll (samplesOf name as)) := by
  induction as generalizing d with
  | nil => rfl
  | cons a as ih =>
    have hstep : (d.appendAll (a :: as)).algorithm? name =
        ((d.append a.1.name a.2.1 a.2.2).appendAll as).algorithm? name := rfl
    rw [hstep, ih, algorithm?_append]
    by_cases hname : a.1.name = name
    · subst hname
      have hcons : samplesOf a.1.name (a :: as) = a.2 :: samplesOf a.1.name as := by
        simp [samplesOf]
      rw [if_pos rfl, hcons, if_neg (List.cons_ne_nil _ _)]
      split
      · rename_i hnone
        rw [hnone]
        rfl
      · rfl
    · have hcons : samplesOf name (a :: as) = samplesOf name as := by
        simp [samplesOf, hname]
      rw [if_neg hname, hcons]

/-! The samples of an algorithm, and the numbers of its runs. -/

namespace AlgorithmEntry

theorem records_eq (e : AlgorithmEntry) : e.records = e.samples.map (·.2) := by
  rw [records, samples, List.map_flatMap]
  simp only [List.map_map]
  exact List.flatMap_congr (fun r _ => (List.map_id _).symm)

theorem samples_modifyRun (e : AlgorithmEntry) (run : UInt32) (m : Measurement) :
    (e.modifyRun run (·.extend [m])).samples.Perm (e.samples ++ [(run, m)]) := by
  have hruns : ∀ runs : List RunEntry,
      ((modifyOrAppend (·.run == run) ⟨run, []⟩ (RunEntry.extend [m]) runs).flatMap
        (fun r => r.results.map (fun m => (r.run, m)))).Perm
      (runs.flatMap (fun r => r.results.map (fun m => (r.run, m))) ++ [(run, m)]) := by
    intro runs
    induction runs with
    | nil => exact List.Perm.refl _
    | cons r runs ih =>
      rw [modifyOrAppend]
      split
      · rename_i heq
        obtain rfl := eq_of_beq heq
        -- The new sample comes before those of later runs.
        rw [List.flatMap_cons, List.flatMap_cons, RunEntry.extend, List.map_append,
          List.append_assoc, List.append_assoc]
        exact List.perm_append_comm.append_left _
      · rw [List.flatMap_cons, List.flatMap_cons, List.append_assoc]
        exact ih.append_left _
  exact hruns e.runs

theorem samples_extendAll (e : AlgorithmEntry) (ss : List Sample) :
    (e.extendAll ss).samples.Perm (e.samples ++ ss) := by
  induction ss generalizing e with
  | nil => exact List.Perm.of_eq (List.append_nil _).symm
  | cons s ss ih =>
    refine (ih _).trans (((e.samples_modifyRun s.1 s.2).append_right ss).trans ?_)
    rw [List.append_assoc]
    rfl

theorem mem_runs_extendAll (e : AlgorithmEntry) (ss : List Sample) (run : UInt32) :
    run ∈ (e.extendAll ss).runs.map (·.run) ↔
      run ∈ e.runs.map (·.run) ∨ run ∈ ss.map (·.1) := by
  induction ss generalizing e with
  | nil => exact (or_iff_left List.not_mem_nil).symm
  | cons s ss ih =>
    refine (ih (e.modifyRun s.1 (·.extend [s.2]))).trans ?_
    rw [List.map_cons, List.mem_cons, ← or_assoc]
    exact or_congr_left (mem_map_modifyOrAppend RunEntry.run
      (fun r => (rfl : (r.extend [s.2]).run = r.run)) (k := s.1) rfl run)

theorem nodup_runs_extendAll {e : AlgorithmEntry} (h : (e.runs.map (·.run)).Nodup)
    (ss : List Sample) : ((e.extendAll ss).runs.map (·.run)).Nodup := by
  induction ss generalizing e with
  | nil => exact h
  | cons s ss ih => exact ih (nodup_modifyOrAppend RunEntry.run (fun _ => rfl) rfl h)

end AlgorithmEntry

namespace Document

theorem mem_algorithms_appendAll (d : Document) (as : List Arrival) (name : String) :
    name ∈ (d.appendAll as).compressions.map (·.algorithm) ↔
      name ∈ d.compressions.map (·.algorithm) ∨ name ∈ as.map (·.1.name) := by
  induction as generalizing d with
  | nil => exact (or_iff_left List.not_mem_nil).symm
  | cons a as ih =>
    refine (ih (d.append a.1.name a.2.1 a.2.2)).trans ?_
    rw [List.map_cons, List.mem_cons, ← or_assoc]
    exact or_congr_left (mem_map_modifyOrAppend AlgorithmEntry.algorithm
      (fun e => (rfl : (e.modifyRun a.2.1 (·.extend [a.2.2])).algorithm = e.algorithm))
      (k := a.1.name) rfl name)

theorem nodup_algorithms_appendAll {d : Document} (h : (d.compressions.map (·.algorithm)).Nodup)
    (as : List Arrival) : ((d.appendAll as).compressions.map (·.algorithm)).Nodup := by
  induction as generalizing d with
  | nil => exact h
  | cons a as ih => exact ih (nodup_modifyOrAppend AlgorithmEntry.algorithm (fun _ => rfl) rfl h)

end Document

end CompressionSweep
