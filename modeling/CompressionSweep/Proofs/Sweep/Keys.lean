import CompressionSweep.Proofs.Comparison.Names
import CompressionSweep.Proofs.Document.Grouping
import CompressionSweep.Proofs.Sweep.Filing
import CompressionSweep.Proofs.Sweep.Isolation

/-! The pairs of a sweep, the runs of its document and the rows of its comparison are all looked up
by algorithm and run. They correspond to the calls one to one exactly if no algorithm is listed
twice; what is listed twice is measured twice, and filed under one run. -/

namespace CompressionSweep

open Sweep

variable {ω : Type}

/-! Keys of pairs and of calls. -/

def Pair.key (p : Pair) : Algorithm × UInt32 := (p.algorithm, p.run)

def Attempt.key (c : Attempt) : Algorithm × UInt32 := (c.algorithm, c.run)

theorem map_key_schedule (s : Setup) :
    (schedule s).map Pair.key = s.algorithms.flatMap (fun a => (runNumbers s.runs).map (a, ·)) := by
  simp only [schedule, List.map_flatMap, List.map_map]
  rfl

theorem nodup_keys_schedule {s : Setup} (hruns : s.runs ≠ 0) :
    ((schedule s).map Pair.key).Nodup ↔ s.algorithms.Nodup := by
  have hone : 1 ∈ runNumbers s.runs := by
    refine mem_runNumbers.mpr ⟨UInt32.le_refl 1, ?_⟩
    rw [UInt32.le_iff_toNat_le]
    exact Nat.one_le_iff_ne_zero.mpr (fun h => hruns (UInt32.toNat_inj.mp h))
  have hdistinct : (runNumbers s.runs).Nodup := (runNumbers_increasing s.runs).imp UInt32.ne_of_lt
  have hnd : ∀ a : Algorithm, ((runNumbers s.runs).map (a, ·)).Nodup := fun a =>
    hdistinct.map (Prod.mk_right_injective a)
  rw [map_key_schedule, List.nodup_flatMap]
  constructor
  · rintro ⟨-, hdisjoint⟩
    refine hdisjoint.imp (fun hab heq => ?_)
    exact hab (List.mem_map_of_mem hone) (heq ▸ List.mem_map_of_mem hone)
  · intro halgorithms
    refine ⟨fun a _ => hnd a, halgorithms.imp (fun hab k hk hk' => ?_)⟩
    obtain ⟨run, -, rfl⟩ := List.mem_map.mp hk
    obtain ⟨run', -, heq⟩ := List.mem_map.mp hk'
    exact hab (Prod.mk.inj heq).1.symm

/-- The measurements of all pairs of one algorithm and run. -/
def recordsUnder (k : Algorithm × UInt32) (pairs : List Pair) : Nat :=
  ((pairs.filter (·.key == k)).map (·.records)).sum

theorem recordsUnder_finish {pairs : List Pair} {i : Nat} {p : Pair} (hp : pairs[i]? = some p)
    (hzero : p.records = 0) (state : PairState) (n : Nat) (k : Algorithm × UInt32) :
    recordsUnder k (pairs.modify i (Pair.finish state n)) =
      recordsUnder k pairs + if p.key = k then n else 0 := by
  induction pairs generalizing i with
  | nil => simp at hp
  | cons q pairs ih =>
    have hcons : ∀ (q : Pair) (pairs : List Pair), recordsUnder k (q :: pairs) =
        (if q.key = k then q.records else 0) + recordsUnder k pairs := by
      intro q pairs
      by_cases hq : q.key = k <;> simp [recordsUnder, hq]
    cases i with
    | zero =>
      obtain rfl : q = p := by simpa using hp
      have hkey : (Pair.finish state n q).key = q.key := rfl
      rw [List.modify_zero_cons, hcons, hcons, hkey, hzero]
      split <;> simp [Pair.finish, Nat.add_comm]
    | succ i =>
      rw [List.modify_succ_cons, hcons, hcons, ih (by simpa using hp), Nat.add_assoc]

namespace Attempt

theorem recordsOf_eq (extract : Extractor) (cs : List Attempt) (k : Algorithm × UInt32) :
    recordsOf extract cs k.1.name k.2 = (cs.filter (·.key == k)).flatMap (·.records extract) := by
  have hkey : ∀ c : Attempt, (c.algorithm.name == k.1.name && c.run == k.2) = (c.key == k) := by
    intro c
    rw [Bool.eq_iff_iff]
    simp only [Bool.and_eq_true, beq_iff_eq, key, Prod.ext_iff]
    exact and_congr_left' ⟨Algorithm.name_injective, congrArg Algorithm.name⟩
  rw [recordsOf, List.filter_congr (fun c _ => hkey c)]

theorem exists_of_recordsOf_ne_nil {extract : Extractor} {cs : List Attempt} {name : String}
    {run : UInt32} (h : recordsOf extract cs name run ≠ []) :
    ∃ c ∈ cs, c.algorithm.name = name ∧ c.run = run := by
  obtain ⟨m, hm⟩ := List.exists_mem_of_ne_nil _ h
  obtain ⟨c, hc, -⟩ := List.mem_flatMap.mp hm
  obtain ⟨hc, hkey⟩ := List.mem_filter.mp hc
  exact ⟨c, hc, by simpa using hkey⟩

theorem recordsUnder_marks {s : Setup} (extract : Extractor) {cs : List Attempt}
    (hslots : cs.Pairwise (fun c c' => c.slot s < c'.slot s)) {pairs : List Pair}
    (hpending : ∀ c ∈ cs, pairs[c.slot s]? = some (.pending c.algorithm c.run))
    (k : Algorithm × UInt32) : recordsUnder k (cs.foldl (mark s extract) pairs) =
      recordsUnder k pairs + (recordsOf extract cs k.1.name k.2).length := by
  induction cs generalizing pairs with
  | nil => rfl
  | cons c cs ih =>
    obtain ⟨hfirst, hslots⟩ := List.pairwise_cons.mp hslots
    obtain ⟨hc, hcs⟩ := List.forall_mem_cons.mp hpending
    have hrest : ∀ c' ∈ cs, (c.mark s extract pairs)[c'.slot s]? =
        some (.pending c'.algorithm c'.run) := by
      intro c' hc'
      rw [mark, List.getElem?_modify_ne _ _ (Nat.ne_of_lt (hfirst c' hc')), hcs c' hc']
    have hkey : (Pair.pending c.algorithm c.run).key = c.key := rfl
    rw [List.foldl_cons, ih hslots hrest, mark, recordsUnder_finish hc rfl, hkey, Nat.add_assoc,
      recordsOf_eq, recordsOf_eq, List.filter_cons]
    by_cases hk : c.key = k <;> simp [hk]

theorem measurementsOf_arrivals (extract : Extractor) (cs : List Attempt) (name : String)
    (run : UInt32) : measurementsOf name run (cs.flatMap (arrivals extract)) =
      recordsOf extract cs name run := by
  induction cs with
  | nil => rfl
  | cons c cs ih =>
    have hone : measurementsOf name run (c.arrivals extract) = recordsOf extract [c] name run := by
      by_cases hc : (c.algorithm.name == name && c.run == run) = true <;>
        simp [measurementsOf, arrivals, recordsOf, List.filter_map, Function.comp_def, hc]
    rw [recordsOf_cons, ← ih, ← hone, measurementsOf, measurementsOf, measurementsOf,
      List.flatMap_cons, List.filter_append, List.map_append]

end Attempt

namespace Recorded

variable {env : Surroundings ω} {s : Setup} {d : Document} {r : Outcome × Document × ω × Log}
  (h : Recorded env s d r)

include h

theorem map_key_pairs : r.1.pairs.map Pair.key = (schedule s).map Pair.key := by
  rw [h.pairs]
  exact map_marks Pair.key (fun _ _ _ => rfl) env.extract _ _

theorem nodup_keys_calls (hnd : s.algorithms.Nodup) :
    (r.2.2.2.calls.map Attempt.key).Nodup := by
  refine List.pairwise_map.mpr (h.slots.imp_of_mem (fun {c c'} hc hc' hslot hkey => ?_))
  obtain ⟨ha, -⟩ := h.place c hc
  obtain ⟨ha', -⟩ := h.place c' hc'
  obtain ⟨halgorithm, hrun⟩ := Prod.mk.inj hkey
  rw [← halgorithm] at ha'
  obtain ⟨hlt, hget⟩ := List.getElem?_eq_some_iff.mp ha
  obtain ⟨hlt', hget'⟩ := List.getElem?_eq_some_iff.mp ha'
  have hindex : c.index = c'.index := (hnd.getElem_inj_iff).mp (hget.trans hget'.symm)
  rw [Attempt.slot, Attempt.slot, hindex, hrun] at hslot
  exact Nat.lt_irrefl _ hslot

theorem document_eq : r.2.1 = d.appendAll (r.2.2.2.calls.flatMap (Attempt.arrivals env.extract)) :=
  h.document.trans (Attempt.files_eq_appendAll env.extract _ d)

theorem rows_perm (hd : d.compressions = []) (baseline : String) :
    ((Comparison.build r.2.1 baseline s.algorithms).rows.map (·.algorithm)).Perm
      (s.algorithms.map (·.name)) := by
  have hnil : (d.compressions.map (·.algorithm)).Nodup := by rw [hd]; exact List.nodup_nil
  have hexpected : ∀ name ∈ r.2.1.compressions.map (·.algorithm),
      name ∈ s.algorithms.map (·.name) := by
    intro name hname
    rw [h.document_eq, Document.mem_algorithms_appendAll, hd] at hname
    obtain ⟨x, hx, rfl⟩ := List.mem_map.mp (hname.resolve_left List.not_mem_nil)
    obtain ⟨c, hc, hx⟩ := List.mem_flatMap.mp hx
    obtain ⟨m, -, rfl⟩ := List.mem_map.mp hx
    exact List.mem_map_of_mem (List.mem_of_getElem? (h.place c hc).1)
  have hnd : (r.2.1.compressions.map (·.algorithm)).Nodup := by
    rw [h.document_eq]
    exact Document.nodup_algorithms_appendAll hnil _
  have hnone : (r.2.1.compressions.map (·.algorithm)).filter
      (fun n => !(s.algorithms.map (·.name)).contains n) = [] := by
    refine List.filter_eq_nil_iff.mpr (fun name hname => ?_)
    simpa using hexpected name hname
  have hrows : (Comparison.build r.2.1 baseline s.algorithms).rows.map (·.algorithm) =
      Comparison.names r.2.1 s.algorithms := by
    simp [Comparison.build, Comparison.row, Function.comp_def]
  rw [hrows]
  unfold Comparison.names
  dsimp only
  rw [Comparison.foldl_addMissing hnd, hnone, List.append_nil]
  exact List.mergeSort_perm _ _

theorem resultsOf_eq (hd : d.compressions = []) (name : String) (run : UInt32) :
    r.2.1.resultsOf name run = Attempt.recordsOf env.extract r.2.2.2.calls name run := by
  have hnone : d.resultsOf name run = [] := by
    rw [Document.resultsOf, Document.algorithm?, hd]
    rfl
  rw [h.document, Attempt.resultsOf_files, hnone, List.nil_append]

theorem length_resultsOf (hd : d.compressions = []) (k : Algorithm × UInt32) :
    (r.2.1.resultsOf k.1.name k.2).length = recordsUnder k r.1.pairs := by
  have hzero : recordsUnder k (schedule s) = 0 := by
    refine List.sum_eq_zero (fun n hn => ?_)
    obtain ⟨p, hp, rfl⟩ := List.mem_map.mp hn
    obtain ⟨a, -, hp⟩ := List.mem_flatMap.mp (List.mem_filter.mp hp).1
    obtain ⟨run, -, rfl⟩ := List.mem_map.mp hp
    rfl
  rw [h.resultsOf_eq hd, h.pairs, Attempt.recordsUnder_marks env.extract h.slots h.pending, hzero,
    Nat.zero_add]

theorem results_of_entry (hd : d.compressions = []) {e : AlgorithmEntry}
    (he : e ∈ r.2.1.compressions) {entry : RunEntry} (hentry : entry ∈ e.runs) :
    entry.results ≠ [] ∧
      entry.results = Attempt.recordsOf env.extract r.2.2.2.calls e.algorithm entry.run := by
  rw [h.document_eq, compressions_appendAll hd] at he
  obtain ⟨heq, -⟩ := mem_entriesOf he
  rw [heq] at hentry
  obtain ⟨hsamples, hne⟩ := mem_runsOf hentry
  refine ⟨hne, ?_⟩
  rw [← Attempt.measurementsOf_arrivals, measurementsOf_eq, hsamples]
  rfl

end Recorded

/-- What a sweep of checked settings that begins with an empty document leaves under the keys that
pairs, runs and rows are looked up by. There is one row for each listed algorithm, and what is stored
for a run are the measurements of all calls for it, as many as its pairs tell together. The keys of
the pairs are distinct exactly if the algorithms are; then each stored run holds the measurements of
one call, a pair is found by its key and tells how many are stored there, and no two rows have one
algorithm. -/
theorem sweep_keys (env : Surroundings ω) {s : Setup} {t : Tree} {d : Document} (w : ω)
    (hvalid : s.validate t = .ok ()) (hd : d.compressions = []) :
    let r := run env.recorded s d (w, Log.empty)
    let calls := r.2.2.2.calls
    let rows := fun baseline =>
      (Comparison.build r.2.1 baseline s.algorithms).rows.map (·.algorithm)
    run env s d w = (r.1, r.2.1, r.2.2.1) ∧
    (∀ baseline, (rows baseline).Perm (s.algorithms.map (·.name))) ∧
    (∀ a run, r.2.1.resultsOf a.name run = (calls.filter (·.key == (a, run))).flatMap
      (fun c => c.response.lines.filterMap env.extract)) ∧
    (∀ a run, (r.2.1.resultsOf a.name run).length =
      ((r.1.pairs.filter (·.key == (a, run))).map (·.records)).sum) ∧
    ((r.1.pairs.map Pair.key).Nodup ↔ s.algorithms.Nodup) ∧
    (s.algorithms.Nodup →
      (∀ e ∈ r.2.1.compressions, ∀ entry ∈ e.runs, ∃ c ∈ calls, e.algorithm = c.algorithm.name ∧
        entry.run = c.run ∧ calls.filter (·.key == c.key) = [c] ∧
        entry.results = c.response.lines.filterMap env.extract) ∧
      (∀ p ∈ r.1.pairs, r.1.pair? p.algorithm p.run = some p ∧
        p.records = (r.2.1.resultsOf p.algorithm.name p.run).length) ∧
      ∀ baseline, (rows baseline).Nodup) := by
  intro r calls rows
  have h : Recorded env s d r := run_recorded env s d w
  have hruns : s.runs ≠ 0 := by
    intro hzero
    simp [Setup.validate, hzero] at hvalid
  have hrows : ∀ baseline, (rows baseline).Perm (s.algorithms.map (·.name)) :=
    h.rows_perm hd
  have hkeys : (r.1.pairs.map Pair.key).Nodup ↔ s.algorithms.Nodup := by
    rw [h.map_key_pairs, nodup_keys_schedule hruns]
  refine ⟨run_mapWorld env.projects_recorded s d (w, Log.empty), hrows, fun a run => ?_,
    fun a run => h.length_resultsOf hd (a, run), hkeys,
    fun hnd => ⟨fun e he entry hentry => ?_, fun p hp => ?_, fun baseline => ?_⟩⟩
  · rw [h.resultsOf_eq hd]
    exact Attempt.recordsOf_eq env.extract calls (a, run)
  · obtain ⟨hne, hresults⟩ := h.results_of_entry hd he hentry
    obtain ⟨c, hc, hname, hrun⟩ := Attempt.exists_of_recordsOf_ne_nil (hresults ▸ hne)
    have hone := filter_eq_singleton_of_nodup (h.nodup_keys_calls hnd) hc
    refine ⟨c, hc, hname.symm, hrun.symm, hone, ?_⟩
    rw [hresults, ← hname, ← hrun]
    refine (Attempt.recordsOf_eq env.extract calls c.key).trans ?_
    rw [hone]
    exact List.flatMap_singleton _ _
  · have hone : r.1.pairs.filter (·.key == p.key) = [p] :=
      filter_eq_singleton_of_nodup (hkeys.mpr hnd) hp
    constructor
    · have hfind : r.1.pair? p.algorithm p.run = r.1.pairs.find? (·.key == p.key) := by
        unfold Outcome.pair?
        congr 1
      rw [hfind, ← List.head?_filter, hone]
      rfl
    · have hlen := h.length_resultsOf hd p.key
      rw [recordsUnder, hone] at hlen
      exact List.sum_singleton.symm.trans hlen.symm
  · rw [(hrows baseline).nodup_iff]
    exact hnd.map (fun _ _ => Algorithm.name_injective)

theorem sweep_keys_sample :
    let s : Setup := { sampleSetup with tool := "cjfr" }
    let r := run sampleSurroundings.recorded s (s.document "t") ((0, 0), Log.empty)
    (r.1.pairs.map Pair.key).Nodup ∧
    (∀ e ∈ r.2.1.compressions, ∀ entry ∈ e.runs, ∃ c ∈ r.2.2.2.calls,
      e.algorithm = c.algorithm.name ∧ entry.run = c.run ∧
      r.2.2.2.calls.filter (·.key == c.key) = [c] ∧
      entry.results = c.response.lines.filterMap sampleSurroundings.extract) ∧
    r.1.pair? .xz 2 = some ⟨.xz, 2, .failed .interrupted, 1⟩ ∧
    ∀ baseline, ((Comparison.build r.2.1 baseline s.algorithms).rows.map (·.algorithm)).Nodup := by
  intro s r
  have hvalid : s.validate ⟨[], []⟩ = .ok () := by decide +kernel
  obtain ⟨-, -, -, -, hkeys, hdistinct⟩ :=
    sweep_keys sampleSurroundings (0, 0) hvalid (rfl : (s.document "t").compressions = [])
  obtain ⟨hentries, hpairs, hrows⟩ := hdistinct (by decide)
  refine ⟨hkeys.mpr (by decide), hentries, ?_, hrows⟩
  exact (hpairs ⟨.xz, 2, .failed .interrupted, 1⟩ (by decide +kernel)).1

/-- Settings that list an algorithm twice pass the checks. -/
theorem sweep_keys_repeated :
    let s : Setup := { sampleSetup with tool := "cjfr", runs := 1, algorithms := [.gzip, .gzip] }
    let r := run sampleSurroundings.recorded s (s.document "t") ((0, 0), Log.empty)
    s.validate ⟨[], []⟩ = .ok () ∧
    ¬ (r.1.pairs.map Pair.key).Nodup ∧
    r.1.pair? .gzip 1 = some ⟨.gzip, 1, .completed, 1⟩ ∧
    r.2.1.resultsOf "GZIP" 1 = [⟨"a.jfr", 1.5, 3⟩, ⟨"a.jfr", 1.5, 3⟩] ∧
    (Comparison.build r.2.1 "GZIP" s.algorithms).rows.map (·.algorithm) = ["GZIP", "GZIP"] := by
  intro s r
  have hrows := (run_recorded sampleSurroundings s (s.document "t") (0, 0)).rows_perm rfl "GZIP"
  refine ⟨by decide +kernel, by decide +kernel, by decide +kernel, by decide +kernel, ?_⟩
  exact (List.perm_replicate (n := 2)).mp hrows

end CompressionSweep
