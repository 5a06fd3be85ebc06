import CompressionSweep.Proofs.Document.Grouping
import CompressionSweep.Proofs.Json.ObjectText

/-! Reading the algorithms of a document. Members and run entries that repeat a name or a number go
to the first with it, and nothing of them is lost. -/

namespace CompressionSweep

open Json

/-- Members taken by their keys are all members, each once. -/
theorem flatMap_filter_perm {β κ : Type} [DecidableEq κ] (key : β → κ) (xs : List β) :
    ((xs.map key).eraseDups.flatMap (fun k => xs.filter (key · == k))).Perm xs := by
  induction hn : xs.length using Nat.strong_induction_on generalizing xs with
  | _ n ih =>
    cases xs with
    | nil => exact .nil
    | cons x xs =>
      let others := xs.filter (fun y => !(key y == key x))
      have hkeys : ((x :: xs).map key).eraseDups = key x :: (others.map key).eraseDups := by
        rw [List.map_cons, List.eraseDups_cons, List.filter_map]
        rfl
      have hlater : ∀ k ∈ (others.map key).eraseDups,
          (x :: xs).filter (key · == k) = others.filter (key · == k) := by
        intro k hk
        obtain ⟨y, hy, rfl⟩ := List.mem_map.mp (List.mem_eraseDups.mp hk)
        have hne : key y ≠ key x := by simpa using (List.mem_filter.mp hy).2
        rw [List.filter_cons_of_neg (by simpa using hne.symm), List.filter_filter]
        refine List.filter_congr (fun z _ => ?_)
        by_cases hz : key z = key y <;> simp [hz, hne]
      have hothers : others.length < n := by
        have hle := List.length_filter_le (fun y => !(key y == key x)) xs
        rw [← hn, List.length_cons]
        exact Nat.lt_succ_of_le hle
      have hfirst : (x :: xs).filter (key · == key x) = x :: xs.filter (key · == key x) :=
        List.filter_cons_of_pos (beq_self_eq_true (key x))
      rw [hkeys, List.flatMap_cons, List.flatMap_congr hlater, hfirst, List.cons_append]
      exact .cons x (((ih _ hothers others rfl).append_left _).trans
        (List.filter_append_perm (key · == key x) xs))

/-- The run entries of all members with a name, one after the other. -/
def runsUnder (name : String) (ms : List (String × List RunEntry)) : List RunEntry :=
  (ms.filter (·.1 == name)).flatMap (·.2)

/-- The measurements of all entries with a number, one after the other. -/
def resultsUnder (run : UInt32) (rs : List RunEntry) : List Measurement :=
  (rs.filter (·.run == run)).flatMap (·.results)

/-- The entries `es` hold what the members `ms` say: one entry for each name, under it one for each
number, both in the order of first appearance, and under a number all measurements with it, in their
order. -/
structure Merged (ms : List (String × List RunEntry)) (es : List AlgorithmEntry) : Prop where
  names : es.map (·.algorithm) = (ms.map (·.1)).eraseDups
  runs : ∀ e ∈ es, e.runs.map (·.run) = ((runsUnder e.algorithm ms).map (·.run)).eraseDups
  results : ∀ e ∈ es, ∀ r ∈ e.runs, r.results = resultsUnder r.run (runsUnder e.algorithm ms)

def RunEntry.ofParts (run : UInt32) (rs : List RunEntry) : RunEntry :=
  ⟨run, rs.flatMap (·.results)⟩

def mergedRuns : List RunEntry → List RunEntry :=
  groups (·.run) RunEntry.ofParts

def AlgorithmEntry.ofMembers (name : String) (ms : List (String × List RunEntry)) :
    AlgorithmEntry :=
  ⟨name, mergedRuns (ms.flatMap (·.2))⟩

def mergedMembers : List (String × List RunEntry) → List AlgorithmEntry :=
  groups (·.1) AlgorithmEntry.ofMembers

theorem merge_mergedRuns (name : String) (rs rs' : List RunEntry) :
    (⟨name, mergedRuns rs⟩ : AlgorithmEntry).merge rs' = ⟨name, mergedRuns (rs ++ rs')⟩ := by
  induction rs' generalizing rs with
  | nil =>
    rw [List.append_nil]
    rfl
  | cons r rs' ih =>
    have hf : ∀ rs, (RunEntry.ofParts r.run rs).extend r.results = .ofParts r.run (rs ++ [r]) := by
      intro rs
      simp [RunEntry.ofParts, RunEntry.extend]
    have hone : (⟨name, mergedRuns rs⟩ : AlgorithmEntry).modifyRun r.run (·.extend r.results) =
        ⟨name, mergedRuns (rs ++ [r])⟩ :=
      congrArg (AlgorithmEntry.mk name)
        (groups_concat RunEntry.run (·.run) RunEntry.ofParts (fun _ _ => rfl) hf rs)
    have hstep : (⟨name, mergedRuns rs⟩ : AlgorithmEntry).merge (r :: rs') =
        (⟨name, mergedRuns (rs ++ [r])⟩ : AlgorithmEntry).merge rs' :=
      congrArg (AlgorithmEntry.merge rs') hone
    rw [hstep, ih, List.append_assoc, List.singleton_append]

theorem foldl_mergeMember (ms : List (String × List RunEntry)) :
    ms.foldl (fun es m => mergeMember m.1 m.2 es) [] = mergedMembers ms := by
  induction ms using List.reverseRecOn with
  | nil => rfl
  | append_singleton ms m ih =>
    have hf : ∀ ms, (AlgorithmEntry.ofMembers m.1 ms).merge m.2 = .ofMembers m.1 (ms ++ [m]) := by
      intro ms
      rw [AlgorithmEntry.ofMembers, merge_mergedRuns]
      simp [AlgorithmEntry.ofMembers]
    rw [List.foldl_append, ih]
    exact groups_concat AlgorithmEntry.algorithm (·.1) AlgorithmEntry.ofMembers
      (fun _ _ => rfl) hf ms

theorem merged_mergedMembers (ms : List (String × List RunEntry)) :
    Merged ms (mergedMembers ms) where
  names := map_groups AlgorithmEntry.algorithm (fun m : String × List RunEntry => m.1)
    AlgorithmEntry.ofMembers (fun _ _ => rfl) ms
  runs e he := by
    obtain ⟨name, -, rfl⟩ := List.mem_map.mp he
    exact map_groups RunEntry.run (·.run) RunEntry.ofParts (fun _ _ => rfl) _
  results e he r hr := by
    obtain ⟨name, -, rfl⟩ := List.mem_map.mp he
    obtain ⟨run, -, rfl⟩ := List.mem_map.mp hr
    rfl

theorem records_ofMembers (name : String) (ms : List (String × List RunEntry)) :
    (AlgorithmEntry.ofMembers name ms).records.Perm ((ms.flatMap (·.2)).flatMap (·.results)) := by
  have hgroups : (AlgorithmEntry.ofMembers name ms).records =
      (((ms.flatMap (·.2)).map (·.run)).eraseDups.flatMap
        (fun run => (ms.flatMap (·.2)).filter (·.run == run))).flatMap (·.results) := by
    rw [List.flatMap_assoc]
    exact List.flatMap_map _ _ _
  rw [hgroups]
  exact (flatMap_filter_perm (·.run) (ms.flatMap (·.2))).flatMap_right _

theorem records_mergedMembers (ms : List (String × List RunEntry)) :
    ((mergedMembers ms).flatMap (·.records)).Perm ((ms.flatMap (·.2)).flatMap (·.results)) := by
  have hgroups := (flatMap_filter_perm (·.1) ms).flatMap_right (fun m => m.2.flatMap (·.results))
  rw [mergedMembers, groups, List.flatMap_map, List.flatMap_assoc]
  rw [List.flatMap_assoc] at hgroups
  refine List.Perm.trans (List.Perm.flatMap_left _ (fun name _ => ?_)) hgroups
  rw [← List.flatMap_assoc]
  exact records_ofMembers name _

theorem Merged.distinct {ms : List (String × List RunEntry)} {es : List AlgorithmEntry}
    (h : Merged ms es) : (es.map (·.algorithm)).Nodup ∧ ∀ e ∈ es, (e.runs.map (·.run)).Nodup := by
  refine ⟨?_, fun e he => ?_⟩
  · rw [h.names]
    exact nodup_eraseDups _
  · rw [h.runs e he]
    exact nodup_eraseDups _

/-! What the readers of a document's parts leave. -/

theorem takesFront_measurement : TakesFront Measurement.reader := by
  refine takesFront_struct ?_ ?_
  · have hmember : ∀ key p, TakesFront (Measurement.member key p) := by
      intro key p
      unfold Measurement.member
      split_ifs
      · exact (takesFront_onceOnly _ _ takesFront_text).map _
      · exact (takesFront_onceOnly _ _ takesFront_f64).map _
      · exact (takesFront_onceOnly _ _ ((takesFront_natural _ _).map _)).map _
      · exact takesFront_skipMember.bind (fun _ => takesFront_pure p)
    exact (takesFront_members hmember _).bind (fun p => (takesFront_required _ _).bind (fun file =>
      (takesFront_required _ _).bind (fun x => (takesFront_required _ _).map _)))
  · exact (takesFront_itemAt _ _ takesFront_text).bind (fun file =>
      (takesFront_itemAt _ _ takesFront_f64).bind (fun x =>
        (takesFront_itemAt _ _ ((takesFront_natural _ _).map _)).map _))

theorem takesFront_runEntry : TakesFront RunEntry.reader := by
  have hlist := takesFront_list takesFront_measurement
  have hu32 : TakesFront u32 := (takesFront_natural _ _).map _
  refine takesFront_struct ?_ ?_
  · have hmember : ∀ key p, TakesFront (RunEntry.member key p) := by
      intro key p
      unfold RunEntry.member
      split_ifs
      · exact (takesFront_onceOnly _ _ hu32).map _
      · exact (takesFront_onceOnly _ _ hlist).map _
      · exact takesFront_skipMember.bind (fun _ => takesFront_pure p)
    exact (takesFront_members hmember _).bind (fun p =>
      (takesFront_required _ _).bind (fun run => (takesFront_required _ _).map _))
  · exact (takesFront_itemAt _ _ hu32).bind (fun run => (takesFront_itemAt _ _ hlist).map _)

theorem takesFront_runs : TakesFront (list RunEntry.reader) :=
  takesFront_list takesFront_runEntry

namespace Document

theorem algorithms_eq_ok_iff {s rest : Bytes} {es : List AlgorithmEntry} :
    algorithms s = .ok (es, rest) ↔
      ∃ ms, ObjectText (list RunEntry.reader) s ms rest ∧ es = mergedMembers ms := by
  have hobject : algorithms =
      objectOf .algorithms (list RunEntry.reader) (fun m es => mergeMember m.1 m.2 es) [] := rfl
  rw [hobject, objectOf_eq_ok_iff takesFront_runs]
  simp only [foldl_mergeMember]

/-- An object of lists of run entries, with whatever repetitions of names in it and of numbers
within its members and across them, is read as algorithms: one entry for each name and under it one
for each number, in the order of first appearance, each with all measurements under its name and
number in the order of the text. No measurement is lost or made up. -/
theorem repeated_members_merged {s rest : Bytes} {ms : List (String × List RunEntry)}
    (h : ObjectText (list RunEntry.reader) s ms rest) :
    ∃ es, algorithms s = .ok (es, rest) ∧ Merged ms es ∧
      (es.flatMap (·.records)).Perm ((ms.flatMap (·.2)).flatMap (·.results)) ∧
      (es.map (·.algorithm)).Nodup ∧ ∀ e ∈ es, (e.runs.map (·.run)).Nodup :=
  ⟨mergedMembers ms, algorithms_eq_ok_iff.mpr ⟨ms, h, rfl⟩, merged_mergedMembers ms,
    records_mergedMembers ms, (merged_mergedMembers ms).distinct⟩

/-- A name three times, once in escaped form, and a number twice in one member and again in
another. -/
def sampleMembers : Bytes :=
  Text.utf8 "\x7b\"A\":[\x7b\"run\":1,\"results\":[[\"x\",1.5,2]]\x7d,[2,[]]],\"B\":[] ,
    \"\\u0041\":[[1,[[\"y\",2,3]]],[1,[[\"z\",4,5]]]], \"A\":[[3,[]],[2,[[\"x\",0,1]]]]\x7d"

def sampleEntries : List (String × List RunEntry) :=
  [("A", [⟨1, [⟨"x", 1.5, 2⟩]⟩, ⟨2, []⟩]), ("B", []),
    ("A", [⟨1, [⟨"y", 2.0, 3⟩]⟩, ⟨1, [⟨"z", 4.0, 5⟩]⟩]), ("A", [⟨3, []⟩, ⟨2, [⟨"x", 0.0, 1⟩]⟩])]

theorem sampleMembers_text : ObjectText (list RunEntry.reader) sampleMembers sampleEntries [] := by
  refine (objectText_iff takesFront_runs .algorithms).mpr ?_
  have hread : (objectOf .algorithms (list RunEntry.reader) (fun m ms => ms ++ [m]) []
      sampleMembers).toOption = some (sampleEntries, []) := by decide +kernel
  generalize objectOf .algorithms (list RunEntry.reader) (fun m ms => ms ++ [m]) []
    sampleMembers = result at hread
  cases result with
  | ok a => exact congrArg _ (Option.some.inj hread)
  | error e => cases hread

theorem repeated_members_merged_sample :
    ObjectText (list RunEntry.reader) sampleMembers sampleEntries [] ∧
    ∃ es, algorithms sampleMembers = .ok (es, []) ∧ es.map (·.algorithm) = ["A", "B"] ∧
      ∀ e ∈ es, e.algorithm = "A" → e.runs.map (·.run) = [1, 2, 3] ∧
        ∀ r ∈ e.runs, r.run = 1 →
          r.results = [⟨"x", 1.5, 2⟩, ⟨"y", 2.0, 3⟩, ⟨"z", 4.0, 5⟩] := by
  obtain ⟨es, hread, hmerged, -⟩ := repeated_members_merged sampleMembers_text
  refine ⟨sampleMembers_text, es, hread, hmerged.names.trans (by decide +kernel),
    fun e he hname => ?_⟩
  have hruns := hmerged.runs e he
  have hresults := hmerged.results e he
  rw [hname] at hruns hresults
  refine ⟨hruns.trans (by decide +kernel), fun r hr hrun => (hresults r hr).trans ?_⟩
  rw [hrun]
  decide +kernel

end Document

end CompressionSweep
