import CompressionSweep.Proofs.Document.Arrivals
import CompressionSweep.Proofs.Persistence

/-! A document that measurements are appended to holds them in groups: one entry for each
algorithm, under it one for each run, both in the order of their first measurements, and in each the
measurements that belong there, in the order in which they came. -/

namespace CompressionSweep

section Groups

variable {β κ ε : Type} [DecidableEq κ]

theorem eraseDups_concat (ks : List κ) (k : κ) :
    (ks ++ [k]).eraseDups = if k ∈ ks then ks.eraseDups else ks.eraseDups ++ [k] := by
  rw [List.eraseDups_append]
  by_cases hk : k ∈ ks
  · simp [hk, List.removeAll]
  · simp [hk, List.removeAll, List.eraseDups_cons]

theorem nodup_eraseDups (ks : List κ) : ks.eraseDups.Nodup := by
  induction ks using List.reverseRecOn with
  | nil => simp
  | append_singleton ks k ih =>
    rw [eraseDups_concat]
    split
    · exact ih
    · rename_i hk
      refine List.nodup_append.mpr ⟨ih, List.nodup_singleton k, fun a ha b hb hab => ?_⟩
      obtain rfl := List.mem_singleton.mp hb
      exact hk (List.mem_eraseDups.mp (hab ▸ ha))

variable (keyOf : ε → κ)

theorem find?_map_of_key {e : κ → ε} (hkey : ∀ k, keyOf (e k) = k) (ks : List κ) (k : κ) :
    (ks.map e).find? (keyOf · == k) = if k ∈ ks then some (e k) else none := by
  induction ks with
  | nil => simp
  | cons k' ks ih =>
    by_cases hk : k' = k
    · simp [hk, hkey]
    · simp [hk, hkey, ih, Ne.symm hk]

theorem modifyOrAppend_map_of_key {e : κ → ε} (hkey : ∀ k, keyOf (e k) = k) {ks : List κ}
    (hnd : ks.Nodup) (k : κ) (new : ε) (f : ε → ε) :
    modifyOrAppend (keyOf · == k) new f (ks.map e) =
      if k ∈ ks then ks.map (fun k' => if k' = k then f (e k) else e k')
      else ks.map e ++ [f new] := by
  induction ks with
  | nil => simp [modifyOrAppend]
  | cons k' ks ih =>
    obtain ⟨hno, hnd⟩ := List.nodup_cons.mp hnd
    by_cases hk : k' = k
    · subst hk
      have hrest : ks.map (fun j => if j = k' then f (e k') else e j) = ks.map e := by
        refine List.map_congr_left (fun j hj => if_neg ?_)
        rintro rfl
        exact hno hj
      simp [modifyOrAppend, hkey, hrest]
    · have hbeq : (keyOf (e k') == k) = false := by simp [hkey, hk]
      rw [List.map_cons, modifyOrAppend, hbeq, if_neg Bool.false_ne_true, ih hnd]
      by_cases hmem : k ∈ ks <;> simp [hmem, hk, Ne.symm hk]

/-- The members of a list by their keys: one entry for each key, in the order of first appearance,
made of the members that have it. -/
def groups (key : β → κ) (entry : κ → List β → ε) (xs : List β) : List ε :=
  (xs.map key).eraseDups.map (fun k => entry k (xs.filter (key · == k)))

variable (key : β → κ) (entry : κ → List β → ε) (hkey : ∀ k xs, keyOf (entry k xs) = k)

include hkey

theorem map_groups (xs : List β) : (groups key entry xs).map keyOf = (xs.map key).eraseDups := by
  simp [groups, Function.comp_def, hkey]

theorem find?_groups (xs : List β) (k : κ) :
    (groups key entry xs).find? (keyOf · == k) =
      if xs.filter (key · == k) = [] then none else some (entry k (xs.filter (key · == k))) := by
  have hempty : xs.filter (key · == k) = [] ↔ ¬ k ∈ (xs.map key).eraseDups := by
    simp [List.filter_eq_nil_iff]
  rw [groups, find?_map_of_key keyOf (fun k => hkey k _), ite_cond_congr (propext hempty), ite_not]

/-- A further member goes to the end of its own group, which is new if its key is. -/
theorem groups_concat {f : ε → ε} {x : β}
    (hf : ∀ ys, f (entry (key x) ys) = entry (key x) (ys ++ [x])) (xs : List β) :
    modifyOrAppend (keyOf · == key x) (entry (key x) []) f (groups key entry xs) =
      groups key entry (xs ++ [x]) := by
  have hentry : ∀ k, entry k ((xs ++ [x]).filter (key · == k)) =
      if k = key x then f (entry (key x) (xs.filter (key · == key x)))
      else entry k (xs.filter (key · == k)) := by
    intro k
    by_cases hk : k = key x
    · subst hk
      simp [hf]
    · simp [hk, Ne.symm hk]
  have hkeys : (xs ++ [x]).map key = xs.map key ++ [key x] := by simp
  rw [groups, modifyOrAppend_map_of_key keyOf (fun k => hkey k _) (nodup_eraseDups _), groups,
    hkeys, eraseDups_concat, funext hentry]
  by_cases hx : key x ∈ xs.map key
  · rw [if_pos hx, if_pos (List.mem_eraseDups.mpr hx)]
  · have hnone : xs.filter (key · == key x) = [] := by
      refine List.filter_eq_nil_iff.mpr (fun y hy heq => hx ?_)
      exact List.mem_map.mpr ⟨y, hy, eq_of_beq heq⟩
    have hold : (xs.map key).eraseDups.map (fun k =>
        if k = key x then f (entry (key x) (xs.filter (key · == key x)))
        else entry k (xs.filter (key · == k))) =
        (xs.map key).eraseDups.map (fun k => entry k (xs.filter (key · == k))) := by
      refine List.map_congr_left (fun k hk => if_neg ?_)
      rintro rfl
      exact hx (List.mem_eraseDups.mp hk)
    rw [if_neg hx, if_neg (fun h => hx (List.mem_eraseDups.mp h)), List.map_append, hold]
    simp [hnone]

end Groups

def RunEntry.ofSamples (run : UInt32) (ss : List Sample) : RunEntry :=
  ⟨run, ss.map (·.2)⟩

/-- The runs that samples belong to, each with its own. -/
def runsOf : List Sample → List RunEntry :=
  groups (·.1) RunEntry.ofSamples

def AlgorithmEntry.ofArrivals (name : String) (as : List Arrival) : AlgorithmEntry :=
  ⟨name, runsOf (as.map (·.2))⟩

/-- The algorithms that measurements arrive for, each with its runs. -/
def entriesOf : List Arrival → List AlgorithmEntry :=
  groups (·.1.name) AlgorithmEntry.ofArrivals

def measurementsOf (name : String) (run : UInt32) (as : List Arrival) : List Measurement :=
  (as.filter (fun a => a.1.name == name && a.2.1 == run)).map (·.2.2)

theorem measurementsOf_eq (name : String) (run : UInt32) (as : List Arrival) :
    measurementsOf name run as = ((samplesOf name as).filter (·.1 == run)).map (·.2) := by
  simp only [measurementsOf, samplesOf, List.filter_map, List.map_map, List.filter_filter,
    Function.comp_def, Bool.and_comm]

theorem modifyRun_runsOf (name : String) (ss : List Sample) (s : Sample) :
    (⟨name, runsOf ss⟩ : AlgorithmEntry).modifyRun s.1 (·.extend [s.2]) =
      ⟨name, runsOf (ss ++ [s])⟩ := by
  have hf : ∀ ss, (RunEntry.ofSamples s.1 ss).extend [s.2] = .ofSamples s.1 (ss ++ [s]) := by
    intro ss
    simp [RunEntry.ofSamples, RunEntry.extend]
  exact congrArg (AlgorithmEntry.mk name)
    (groups_concat RunEntry.run (·.1) RunEntry.ofSamples (fun _ _ => rfl) hf ss)

theorem compressions_appendAll {d : Document} (hd : d.compressions = []) (as : List Arrival) :
    (d.appendAll as).compressions = entriesOf as := by
  induction as using List.reverseRecOn with
  | nil => exact hd
  | append_singleton as a ih =>
    have hstep : d.appendAll (as ++ [a]) = (d.appendAll as).append a.1.name a.2.1 a.2.2 := by
      simp [Document.appendAll]
    have hf : ∀ as, (AlgorithmEntry.ofArrivals a.1.name as).modifyRun a.2.1 (·.extend [a.2.2]) =
        .ofArrivals a.1.name (as ++ [a]) := by
      intro as
      rw [AlgorithmEntry.ofArrivals, modifyRun_runsOf, AlgorithmEntry.ofArrivals, List.map_append]
      rfl
    rw [hstep, Document.append, Document.modifyRun, Document.modifyAlgorithm, ih]
    exact groups_concat AlgorithmEntry.algorithm (·.1.name) AlgorithmEntry.ofArrivals
      (fun _ _ => rfl) hf as

/-! What a document of groups answers. -/

theorem ne_nil_of_groups {β κ ε : Type} [DecidableEq κ] {key : β → κ} {entry : κ → List β → ε}
    {xs : List β} (hxs : xs ≠ []) : groups key entry xs ≠ [] := by
  obtain ⟨x, xs, rfl⟩ := List.exists_cons_of_ne_nil hxs
  simp [groups, List.eraseDups_cons]

theorem run?_runsOf (name : String) (ss : List Sample) (run : UInt32) :
    (⟨name, runsOf ss⟩ : AlgorithmEntry).run? run =
      if ss.filter (·.1 == run) = [] then none
      else some (RunEntry.ofSamples run (ss.filter (·.1 == run))) :=
  find?_groups RunEntry.run (fun s : Sample => s.1) RunEntry.ofSamples (fun _ _ => rfl) ss run

theorem mem_runsOf {ss : List Sample} {r : RunEntry} (h : r ∈ runsOf ss) :
    r = .ofSamples r.run (ss.filter (·.1 == r.run)) ∧ r.results ≠ [] := by
  obtain ⟨run, hrun, rfl⟩ := List.mem_map.mp h
  obtain ⟨s, hs, rfl⟩ := List.mem_map.mp (List.mem_eraseDups.mp hrun)
  refine ⟨rfl, List.ne_nil_of_mem (a := s.2) ?_⟩
  exact List.mem_map_of_mem (List.mem_filter.mpr ⟨hs, beq_self_eq_true s.1⟩)

theorem runsOf_eq_extendAll (name : String) (ss : List Sample) :
    (⟨name, runsOf ss⟩ : AlgorithmEntry) = (⟨name, []⟩ : AlgorithmEntry).extendAll ss := by
  induction ss using List.reverseRecOn with
  | nil => rfl
  | append_singleton ss s ih =>
    rw [← modifyRun_runsOf, ih, AlgorithmEntry.extendAll, AlgorithmEntry.extendAll,
      List.foldl_append]
    rfl

theorem AlgorithmEntry.sampleCount_eq (e : AlgorithmEntry) : e.sampleCount = e.records.length := by
  rw [sampleCount, records]
  induction e.runs with
  | nil => rfl
  | cons r runs ih => rw [List.foldr_cons, ih, List.flatMap_cons, List.length_append]

theorem sampleCount_runsOf (name : String) (ss : List Sample) :
    (⟨name, runsOf ss⟩ : AlgorithmEntry).sampleCount = ss.length := by
  rw [AlgorithmEntry.sampleCount_eq, AlgorithmEntry.records_eq, List.length_map,
    runsOf_eq_extendAll]
  exact (AlgorithmEntry.samples_extendAll _ ss).length_eq

theorem records_runsOf (name : String) (ss : List Sample) :
    (⟨name, runsOf ss⟩ : AlgorithmEntry).records =
      (ss.map (·.1)).eraseDups.flatMap (fun run => (ss.filter (·.1 == run)).map (·.2)) := by
  rw [AlgorithmEntry.records, runsOf, groups, List.flatMap_map]
  rfl

theorem mem_entriesOf {as : List Arrival} {e : AlgorithmEntry} (h : e ∈ entriesOf as) :
    e = ⟨e.algorithm, runsOf (samplesOf e.algorithm as)⟩ ∧ samplesOf e.algorithm as ≠ [] := by
  obtain ⟨name, hname, rfl⟩ := List.mem_map.mp h
  obtain ⟨a, ha, rfl⟩ := List.mem_map.mp (List.mem_eraseDups.mp hname)
  refine ⟨rfl, List.ne_nil_of_mem (a := a.2) ?_⟩
  exact List.mem_map_of_mem (List.mem_filter.mpr ⟨ha, beq_self_eq_true a.1.name⟩)

theorem algorithm?_of_entriesOf {d : Document} {as : List Arrival}
    (h : d.compressions = entriesOf as) (name : String) :
    d.algorithm? name = if samplesOf name as = [] then none
      else some ⟨name, runsOf (samplesOf name as)⟩ := by
  have hempty : samplesOf name as = [] ↔ as.filter (·.1.name == name) = [] := List.map_eq_nil_iff
  rw [Document.algorithm?, h, ite_cond_congr (propext hempty)]
  exact find?_groups AlgorithmEntry.algorithm (·.1.name) AlgorithmEntry.ofArrivals
    (fun _ _ => rfl) as name

namespace Store

def Request.ofArrival (x : Arrival × Faults) : Request × Faults :=
  (.append x.1.1 x.1.2.1 x.1.2.2, x.2)

theorem document_reached (s : Store) (t : Tree) (as : List (Arrival × Faults)) :
    (reached (s, t) (history (s, t) (as.map Request.ofArrival))).1.document =
      s.document.appendAll (as.map (·.1)) := by
  rw [reached_store, List.map_map, List.foldl_map, Document.appendAll, List.foldl_map]
  rfl

/-- Measurements that are appended one after the other to a store with an empty document, whichever
of the writes fail. The document has one entry for each algorithm that a measurement came for, in the
order of their first measurements, and under it one for each run, in the order of theirs; none is
empty, and a run holds the measurements that came for it, as they came. Its metadata are as they
were. A look-up finds exactly these entries, and the records of an algorithm are those of its runs one
after the other. -/
theorem appends_grouped {s : Store} (hs : s.document.compressions = []) (t : Tree)
    (as : List (Arrival × Faults)) :
    let d := (reached (s, t) (history (s, t) (as.map Request.ofArrival))).1.document
    let arrivals := as.map (·.1)
    d = { s.document with compressions := d.compressions } ∧
    d.compressions.map (·.algorithm) = (arrivals.map (·.1.name)).eraseDups ∧
    (∀ e ∈ d.compressions, e.runs ≠ [] ∧
      e.runs.map (·.run) = ((samplesOf e.algorithm arrivals).map (·.1)).eraseDups ∧
      ∀ r ∈ e.runs, r.results ≠ [] ∧ r.results = measurementsOf e.algorithm r.run arrivals) ∧
    (∀ name, d.algorithm? name = none ↔ samplesOf name arrivals = []) ∧
    (∀ name e, d.algorithm? name = some e → e ∈ d.compressions ∧ e.algorithm = name ∧
      e.sampleCount = (samplesOf name arrivals).length ∧
      ∀ run, e.run? run = if measurementsOf name run arrivals = [] then none
        else some ⟨run, measurementsOf name run arrivals⟩) ∧
    ∀ name, d.recordsFor name = ((samplesOf name arrivals).map (·.1)).eraseDups.flatMap
      (fun run => measurementsOf name run arrivals) := by
  intro d arrivals
  have hd : d = s.document.appendAll arrivals := document_reached s t as
  have hentries : d.compressions = entriesOf arrivals := by
    rw [hd]
    exact compressions_appendAll hs arrivals
  have hfind := algorithm?_of_entriesOf hentries
  refine ⟨?_, ?_, fun e he => ?_, fun name => ?_, fun name e he => ?_, fun name => ?_⟩
  · obtain ⟨es, hes⟩ := s.document.appendAll_eq arrivals
    rw [hd, hes]
  · rw [hentries]
    exact map_groups AlgorithmEntry.algorithm (·.1.name) AlgorithmEntry.ofArrivals (fun _ _ => rfl) _
  · rw [hentries] at he
    obtain ⟨heq, hne⟩ := mem_entriesOf he
    have hruns : e.runs = runsOf (samplesOf e.algorithm arrivals) := congrArg (·.runs) heq
    rw [hruns]
    refine ⟨ne_nil_of_groups hne, ?_, fun r hr => ?_⟩
    · exact map_groups RunEntry.run (·.1) RunEntry.ofSamples (fun _ _ => rfl) _
    · obtain ⟨hr, hne⟩ := mem_runsOf hr
      refine ⟨hne, ?_⟩
      rw [hr, measurementsOf_eq]
      rfl
  · rw [hfind]
    split_ifs with hnone
    · exact ⟨fun _ => hnone, fun _ => rfl⟩
    · exact ⟨nofun, fun h => absurd h hnone⟩
  · have hmem : e ∈ d.compressions := List.mem_of_find?_eq_some he
    rw [hfind] at he
    split_ifs at he with hnone
    obtain rfl := Option.some.inj he
    refine ⟨hmem, rfl, sampleCount_runsOf name _, fun run => ?_⟩
    rw [run?_runsOf, measurementsOf_eq, ite_cond_congr (propext List.map_eq_nil_iff)]
    rfl
  · rw [Document.recordsFor, hfind]
    split_ifs with hnone
    · rw [hnone]
      rfl
    · simp only [records_runsOf, measurementsOf_eq]

/-- Two algorithms and their runs by turns; the third write fails. -/
def sampleAppends : List (Arrival × Faults) :=
  [((.zstd, 2, ⟨"b.jfr", 0.5, 1⟩), Faults.none), ((.gzip, 1, ⟨"a.jfr", 1.5, 2⟩), Faults.none),
    ((.zstd, 1, ⟨"a.jfr", 2.5, 3⟩), fun _ => some ⟨.permissionDenied, 0⟩),
    ((.zstd, 2, ⟨"a.jfr", 3.5, 4⟩), Faults.none)]

theorem appends_grouped_sample :
    let s : Store := ⟨Document.new "t" "default" 2 none .gzip, some "r.json"⟩
    let d := (reached (s, ⟨[], []⟩)
      (history (s, ⟨[], []⟩) (sampleAppends.map Request.ofArrival))).1.document
    d.compressions.map (·.algorithm) = ["ZSTD", "GZIP"] ∧
    (∀ e ∈ d.compressions, e.runs ≠ []) ∧ d.algorithm? "XZ" = none ∧
    d.recordsFor "ZSTD" =
      [⟨"b.jfr", 0.5, 1⟩, ⟨"a.jfr", 3.5, 4⟩, ⟨"a.jfr", 2.5, 3⟩] := by
  intro s d
  obtain ⟨-, hnames, hentries, hnone, -, hrecords⟩ :=
    appends_grouped (rfl : s.document.compressions = []) ⟨[], []⟩ sampleAppends
  exact ⟨hnames.trans (by decide +kernel), fun e he => (hentries e he).1,
    (hnone "XZ").mpr (by decide +kernel), (hrecords "ZSTD").trans (by decide +kernel)⟩

end Store

end CompressionSweep
