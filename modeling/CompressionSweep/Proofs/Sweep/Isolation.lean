import CompressionSweep.Proofs.Document.Arrivals
import CompressionSweep.Proofs.Sweep.Control

/-! What a sweep has of one algorithm depends on the answers to the runs of this algorithm only: not
on the other algorithms, nor on their order, their failures or their measurements. -/

namespace CompressionSweep

open Sweep

variable {ω : Type}

/-! The answers that an algorithm gets, and what they make of its entry and of its pairs. -/

/-- The answers to the given runs, up to the first that fails. -/
def answersTo (respond : UInt32 → Response) : List UInt32 → List (UInt32 × Response)
  | [] => []
  | run :: runs =>
    (run, respond run) ::
      if (respond run).ending.state = .completed then answersTo respond runs else []

def samplesIn (extract : Extractor) (answers : List (UInt32 × Response)) : List Sample :=
  answers.flatMap (fun x => (x.2.lines.filterMap extract).map (Prod.mk x.1))

def pairOf (extract : Extractor) (a : Algorithm) (answers : List (UInt32 × Response))
    (run : UInt32) : Pair :=
  match answers.find? (·.1 == run) with
  | none => .pending a run
  | some x => ⟨a, run, x.2.ending.state, (x.2.lines.filterMap extract).length⟩

theorem pairOf_algorithm (extract : Extractor) (a : Algorithm) (answers : List (UInt32 × Response))
    (run : UInt32) : (pairOf extract a answers run).algorithm = a := by
  unfold pairOf
  split <;> rfl

namespace Attempt

/-- The answers to the calls that are for the algorithm. -/
def answers (a : Algorithm) (cs : List Attempt) : List (UInt32 × Response) :=
  (cs.filter (·.algorithm == a)).map (fun c => (c.run, c.response))

def arrivals (extract : Extractor) (c : Attempt) : List Arrival :=
  (c.records extract).map (fun m => (c.algorithm, c.run, m))

theorem files_eq_appendAll (extract : Extractor) (cs : List Attempt) (d : Document) :
    cs.foldl (file extract) d = d.appendAll (cs.flatMap (arrivals extract)) := by
  rw [Document.appendAll, List.foldl_flatMap]
  simp only [arrivals, List.foldl_map]
  rfl

theorem samplesOf_arrivals (extract : Extractor) (cs : List Attempt) (a : Algorithm) :
    samplesOf a.name (cs.flatMap (arrivals extract)) = samplesIn extract (answers a cs) := by
  induction cs with
  | nil => rfl
  | cons c cs ih =>
    have hsplit : samplesOf a.name ((c :: cs).flatMap (arrivals extract)) =
        samplesOf a.name (c.arrivals extract) ++
          samplesOf a.name (cs.flatMap (arrivals extract)) := by
      simp only [samplesOf, List.flatMap_cons, List.filter_append, List.map_append]
    rw [hsplit, ih]
    by_cases hc : c.algorithm = a
    · have hcons : answers a (c :: cs) = (c.run, c.response) :: answers a cs := by
        simp [answers, hc]
      have hall : samplesOf a.name (c.arrivals extract) =
          (c.response.lines.filterMap extract).map (Prod.mk c.run) := by
        simp [samplesOf, arrivals, records, hc, List.filter_map, Function.comp_def]
      rw [hcons, hall]
      rfl
    · have hcons : answers a (c :: cs) = answers a cs := by
        simp [answers, hc]
      have hname : c.algorithm.name ≠ a.name := fun h => hc (Algorithm.name_injective h)
      have hnone : samplesOf a.name (c.arrivals extract) = [] := by
        simp [samplesOf, arrivals, hname]
      rw [hcons, hnone, List.nil_append]

end Attempt

theorem answersTo_congr {respond respond' : UInt32 → Response} {runs : List UInt32}
    (h : ∀ run ∈ runs, respond run = respond' run) :
    answersTo respond runs = answersTo respond' runs := by
  induction runs with
  | nil => rfl
  | cons run runs ih =>
    obtain ⟨hrun, hruns⟩ := List.forall_mem_cons.mp h
    rw [answersTo, answersTo, hrun, ih hruns]

theorem RunsCalled.answers_eq {s : Setup} {index : Nat} {a : Algorithm} {runs : List UInt32}
    {cs : List Attempt} {respond : UInt32 → Response} (h : RunsCalled s index a runs cs)
    (hanswers : ∀ c ∈ cs, c.response = respond c.run) :
    cs.map (fun c => (c.run, c.response)) = answersTo respond runs := by
  induction h with
  | nil => rfl
  | @goOn run runs c cs call ok more ih =>
    obtain ⟨hc, hcs⟩ := List.forall_mem_cons.mp hanswers
    rw [call.run] at hc
    have hok : (respond run).ending.state = .completed := hc ▸ ok
    rw [List.map_cons, ih hcs, call.run, hc, answersTo, if_pos hok]
  | @stop run runs c call bad =>
    have hc := hanswers c (List.mem_singleton_self c)
    rw [call.run] at hc
    have hbad : (respond run).ending.state ≠ .completed := hc ▸ bad
    rw [List.map_singleton, call.run, hc, answersTo, if_neg hbad]

/-- In a sweep that is not interrupted all runs of an algorithm have their turn. -/
theorem SweepCalled.of_algorithm {s : Setup} {runs : List UInt32} {index : Nat}
    {as : List Algorithm} {cs : List Attempt} (h : SweepCalled s runs index as cs)
    (hnd : as.Nodup) (hquiet : ∀ c ∈ cs, ¬ c.Interrupted) {a : Algorithm} (ha : a ∈ as) :
    ∃ i, RunsCalled s i a runs (cs.filter (·.algorithm == a)) := by
  induction h with
  | nil => exact absurd ha List.not_mem_nil
  | @goOn index b as cs cs' calls ok more ih =>
    obtain ⟨hb, hnd⟩ := List.nodup_cons.mp hnd
    have hfirst : ∀ c ∈ cs, c.algorithm = b := by
      intro c hc
      obtain ⟨run, -, hcall⟩ := calls.is c hc
      exact hcall.algorithm
    have hrest : ∀ c ∈ cs', c.algorithm ∈ as := by
      intro c hc
      obtain ⟨k, a', run, hk, -, hcall⟩ := more.is c hc
      exact hcall.algorithm ▸ List.mem_of_getElem? hk
    rw [List.filter_append]
    by_cases hab : a = b
    · subst hab
      have hall : cs.filter (·.algorithm == a) = cs :=
        List.filter_eq_self.mpr (fun c hc => beq_iff_eq.mpr (hfirst c hc))
      have hnone : cs'.filter (·.algorithm == a) = [] :=
        List.filter_eq_nil_iff.mpr (fun c hc hca => hb (eq_of_beq hca ▸ hrest c hc))
      rw [hall, hnone, List.append_nil]
      exact ⟨index, calls⟩
    · have hnone : cs.filter (·.algorithm == a) = [] :=
        List.filter_eq_nil_iff.mpr (fun c hc hca => hab ((eq_of_beq hca).symm.trans (hfirst c hc)))
      rw [hnone, List.nil_append]
      exact ih hnd (fun c hc => hquiet c (List.mem_append_right cs hc))
        ((List.mem_cons.mp ha).resolve_left hab)
  | stop calls bad =>
    obtain ⟨c, hc, hi⟩ := bad
    exact absurd hi (hquiet c hc)

theorem schedule_slot {s : Setup} {k : Nat} {p : Pair} (h : (schedule s)[k]? = some p) :
    ∃ i a run, s.algorithms[i]? = some a ∧ 1 ≤ run ∧ run ≤ s.runs ∧ k = slot s i run ∧
      p = .pending a run := by
  have hlen : ∀ a, ((runNumbers s.runs).map (Pair.pending a)).length = s.runs.toNat := fun a => by
    rw [List.length_map, length_runNumbers]
  have hpos : 0 < s.runs.toNat := by
    obtain ⟨a, -, hp⟩ := List.mem_flatMap.mp (List.mem_of_getElem? h)
    rw [← hlen a]
    exact List.length_pos_of_mem hp
  have hk : k = k / s.runs.toNat * s.runs.toNat + k % s.runs.toNat := by
    rw [Nat.mul_comm, Nat.div_add_mod]
  have hmod := Nat.mod_lt k hpos
  rw [hk, schedule, getElem?_flatMap_of_length hlen hmod] at h
  obtain ⟨a, ha, hrun⟩ := Option.bind_eq_some_iff.mp h
  rw [List.getElem?_map, runNumbers, List.getElem?_map, List.getElem?_range hmod] at hrun
  have hto := toNat_runNumber hmod
  refine ⟨_, a, (k % s.runs.toNat + 1).toUInt32, ha, ?_, ?_, ?_, (Option.some.inj hrun).symm⟩
  · rw [UInt32.le_iff_toNat_le, hto]
    exact Nat.le_add_left 1 _
  · rw [UInt32.le_iff_toNat_le, hto]
    exact hmod
  · rw [slot, hto, Nat.add_sub_cancel]
    exact hk

theorem filter_flatMap_of_nodup {as : List Algorithm} (hnd : as.Nodup) {a : Algorithm}
    (ha : a ∈ as) {f : Algorithm → List Pair} (hf : ∀ b, ∀ p ∈ f b, p.algorithm = b) :
    (as.flatMap f).filter (·.algorithm == a) = f a := by
  have hnone : ∀ {b}, b ≠ a → (f b).filter (·.algorithm == a) = [] := fun hb =>
    List.filter_eq_nil_iff.mpr (fun p hp hpa => hb ((hf _ p hp).symm.trans (eq_of_beq hpa)))
  induction as with
  | nil => exact absurd ha List.not_mem_nil
  | cons b as ih =>
    obtain ⟨hb, hnd⟩ := List.nodup_cons.mp hnd
    rw [List.flatMap_cons, List.filter_append]
    by_cases hab : b = a
    · subst hab
      have hall : (f b).filter (·.algorithm == b) = f b :=
        List.filter_eq_self.mpr (fun p hp => beq_iff_eq.mpr (hf b p hp))
      rw [hall, List.filter_flatMap, List.flatMap_eq_nil_iff.mpr, List.append_nil]
      exact fun b' hb' => hnone (fun h => hb (h ▸ hb'))
    · rw [hnone hab, List.nil_append]
      exact ih hnd ((List.mem_cons.mp ha).resolve_left (Ne.symm hab))

namespace Recorded

variable {env : Surroundings ω} {s : Setup} {d : Document} {r : Outcome × Document × ω × Log}
  (h : Recorded env s d r)

include h

theorem pairs_eq (hnd : s.algorithms.Nodup) :
    r.1.pairs = (schedule s).map (fun p =>
      pairOf env.extract p.algorithm (Attempt.answers p.algorithm r.2.2.2.calls) p.run) := by
  refine List.ext_getElem? (fun k => ?_)
  obtain ⟨hmark, hother⟩ := getElem?_marks env.extract h.slots (schedule s) k
  rw [List.getElem?_map, h.pairs]
  cases hp : (schedule s)[k]? with
  | none =>
    rw [hp] at hmark hother
    by_cases hcalled : ∃ c ∈ r.2.2.2.calls, c.slot s = k
    · obtain ⟨c, hc, hslot⟩ := hcalled
      exact hmark c hc hslot
    · exact hother (fun c hc hslot => hcalled ⟨c, hc, hslot⟩)
  | some p =>
    obtain ⟨i, a, run, ha, h₁, h₂, rfl, rfl⟩ := schedule_slot hp
    rw [hp] at hmark hother
    -- A call has this slot exactly if it is for this algorithm and this run.
    have hindex : ∀ c ∈ r.2.2.2.calls, c.slot s = slot s i run ↔ c.algorithm = a ∧ c.run = run := by
      intro c hc
      obtain ⟨hca, h₁', h₂', -⟩ := h.place c hc
      constructor
      · intro hslot
        obtain ⟨hi, hrun⟩ := slot_injective ⟨h₁', h₂'⟩ ⟨h₁, h₂⟩ hslot
        rw [hi, ha] at hca
        exact ⟨(Option.some.inj hca).symm, hrun⟩
      · rintro ⟨rfl, rfl⟩
        obtain ⟨hlt, hget⟩ := List.getElem?_eq_some_iff.mp hca
        obtain ⟨hlt', hget'⟩ := List.getElem?_eq_some_iff.mp ha
        rw [Attempt.slot, (hnd.getElem_inj_iff).mp (hget.trans hget'.symm)]
    rw [Option.map_some]
    unfold pairOf
    dsimp only [Pair.pending]
    split
    · rename_i hnone
      rw [hother (fun c hc hslot => ?_)]
      · rfl
      · obtain ⟨hca, hrun⟩ := (hindex c hc).mp hslot
        have hmem : (c.run, c.response) ∈ Attempt.answers a r.2.2.2.calls :=
          List.mem_map_of_mem (List.mem_filter.mpr ⟨hc, beq_iff_eq.mpr hca⟩)
        exact List.find?_eq_none.mp hnone _ hmem (beq_iff_eq.mpr hrun)
    · rename_i x hx
      obtain ⟨c, hc, rfl⟩ := List.mem_map.mp (List.mem_of_find?_eq_some hx)
      obtain ⟨hc, hca⟩ := List.mem_filter.mp hc
      have hrun := List.find?_some hx
      exact hmark c hc ((hindex c hc).mpr ⟨eq_of_beq hca, eq_of_beq hrun⟩)

theorem pairs_of (hnd : s.algorithms.Nodup) {a : Algorithm} (ha : a ∈ s.algorithms) :
    r.1.pairs.filter (·.algorithm == a) =
      (runNumbers s.runs).map (pairOf env.extract a (Attempt.answers a r.2.2.2.calls)) := by
  rw [h.pairs_eq hnd, schedule, List.map_flatMap]
  simp only [List.map_map]
  refine filter_flatMap_of_nodup hnd ha (fun b p hp => ?_)
  obtain ⟨run, -, rfl⟩ := List.mem_map.mp hp
  exact pairOf_algorithm _ _ _ _

theorem algorithm?_of (hd : d.compressions = []) (a : Algorithm) :
    r.2.1.algorithm? a.name =
      let ss := samplesIn env.extract (Attempt.answers a r.2.2.2.calls)
      if ss = [] then none else some ((⟨a.name, []⟩ : AlgorithmEntry).extendAll ss) := by
  have hnone : d.algorithm? a.name = none := by rw [Document.algorithm?, hd]; rfl
  rw [h.document, Attempt.files_eq_appendAll, Document.algorithm?_appendAll, hnone,
    Attempt.samplesOf_arrivals]
  rfl

end Recorded

/-- In the sweep of `s` that begins with `d` and `w`, a call for a run of an algorithm gets the
answer that `respond` has for them, and none is interrupted. -/
structure Surroundings.Answers (env : Surroundings ω) (s : Setup) (d : Document) (w : ω)
    (respond : Algorithm → UInt32 → Response) : Prop where
  calls : ∀ c ∈ (run env.recorded s d (w, Log.empty)).2.2.2.calls,
    c.response = respond c.algorithm c.run
  quiet : ∀ a run, (respond a run).ending ≠ .failed .interrupted

theorem Surroundings.Answers.answers_eq {env : Surroundings ω} {s : Setup} {d : Document} {w : ω}
    {respond : Algorithm → UInt32 → Response} (h : env.Answers s d w respond)
    (hnd : s.algorithms.Nodup) {a : Algorithm} (ha : a ∈ s.algorithms) :
    Attempt.answers a (run env.recorded s d (w, Log.empty)).2.2.2.calls =
      answersTo (respond a) (runNumbers s.runs) := by
  have hquiet : ∀ c ∈ (run env.recorded s d (w, Log.empty)).2.2.2.calls, ¬ c.Interrupted := by
    intro c hc hi
    have hending := Ending.state_eq_interrupted.mp hi
    rw [h.calls c hc] at hending
    exact h.quiet _ _ hending
  obtain ⟨i, hruns⟩ := (run_recorded env s d w).called.of_algorithm hnd hquiet ha
  refine hruns.answers_eq (fun c hc => ?_)
  obtain ⟨hc, hca⟩ := List.mem_filter.mp hc
  rw [h.calls c hc, eq_of_beq hca]

/-- Two sweeps of as many runs, each from an empty document and over distinct algorithms, with tools
whose answers depend on the algorithm and the run and are never interrupted. If both tools answer
alike for one of the algorithms, both sweeps end with the same entry of it, the same pairs and the
same statistics, whatever the other algorithms are, how their calls end and what they print, and
whichever writes fail. -/
theorem algorithm_isolated {ω ω' : Type} {env : Surroundings ω} {env' : Surroundings ω'}
    {s s' : Setup} {d d' : Document} {w : ω} {w' : ω'}
    {respond respond' : Algorithm → UInt32 → Response} {a : Algorithm}
    (h : env.Answers s d w respond) (h' : env'.Answers s' d' w' respond')
    (hd : d.compressions = []) (hd' : d'.compressions = [])
    (hextract : env.extract = env'.extract) (hruns : s.runs = s'.runs)
    (hnd : s.algorithms.Nodup) (hnd' : s'.algorithms.Nodup) (ha : a ∈ s.algorithms)
    (ha' : a ∈ s'.algorithms)
    (halike : ∀ run, 1 ≤ run → run ≤ s.runs → respond a run = respond' a run) :
    let r := run env s d w
    let r' := run env' s' d' w'
    r.2.1.algorithm? a.name = r'.2.1.algorithm? a.name ∧
    r.1.pairs.filter (·.algorithm == a) = r'.1.pairs.filter (·.algorithm == a) ∧
    r.2.1.aggregate? a.name = r'.2.1.aggregate? a.name ∧
    r.2.1.perFile a.name = r'.2.1.perFile a.name := by
  intro r r'
  have hr : r = _ := run_mapWorld env.projects_recorded s d (w, Log.empty)
  have hr' : r' = _ := run_mapWorld env'.projects_recorded s' d' (w', Log.empty)
  have hanswers : Attempt.answers a (run env.recorded s d (w, Log.empty)).2.2.2.calls =
      Attempt.answers a (run env'.recorded s' d' (w', Log.empty)).2.2.2.calls := by
    rw [h.answers_eq hnd ha, h'.answers_eq hnd' ha', ← hruns]
    exact answersTo_congr (fun run hrun =>
      halike run (mem_runNumbers.mp hrun).1 (mem_runNumbers.mp hrun).2)
  have hentry : r.2.1.algorithm? a.name = r'.2.1.algorithm? a.name := by
    rw [hr, hr']
    dsimp only
    rw [(run_recorded env s d w).algorithm?_of hd, (run_recorded env' s' d' w').algorithm?_of hd',
      hanswers, hextract]
  refine ⟨hentry, ?_, ?_, ?_⟩
  · rw [hr, hr']
    dsimp only
    rw [(run_recorded env s d w).pairs_of hnd ha, (run_recorded env' s' d' w').pairs_of hnd' ha',
      hanswers, hextract, hruns]
  · rw [Document.aggregate?, Document.aggregate?, hentry]
  · rw [Document.perFile, Document.perFile, hentry]

/-- The second run of `xz` fails; all calls of other algorithms end as `others` says. -/
def sampleRespond (others : Ending) (a : Algorithm) (run : UInt32) : Response :=
  if a = .xz then ⟨["a.jfr"], if run = 2 then .exited (some 1) else .exited (some 0)⟩
  else ⟨["b.jfr", "c.jfr"], others⟩

/-- A tool that knows the run of a call by counting, with a file that cannot be written. -/
def countingSurroundings (s : Setup) (respond : Algorithm → UInt32 → Response) :
    Surroundings (List Invocation) where
  answer i made :=
    ((s.algorithms.find? (fun a => s.invocation a == i)).elim ⟨[], .exited none⟩
      (fun a => respond a (made.count i + 1).toUInt32), i :: made)
  persist _ made := (false, made)
  extract line := some ⟨line, 1.5, 3⟩

theorem algorithm_isolated_sample :
    let s : Setup := { Setup.standard with algorithms := [.gzip, .xz] }
    let s' : Setup := { Setup.standard with algorithms := [.xz, .zstd, .none] }
    let env := countingSurroundings s (sampleRespond (.exited (some 3)))
    let env' := countingSurroundings s' (sampleRespond (.exited (some 0)))
    let r := run env s (s.document "t") []
    let r' := run env' s' (s'.document "u") []
    r.1.completed = 1 ∧ r'.1.completed = 7 ∧
    r.1.pairs.filter (·.algorithm == .xz) = r'.1.pairs.filter (·.algorithm == .xz) ∧
    r.2.1.algorithm? "XZ" = r'.2.1.algorithm? "XZ" := by
  intro s s' env env' r r'
  have hquiet : ∀ code a run,
      (sampleRespond (.exited code) a run).ending ≠ .failed .interrupted := by
    intro code a run
    unfold sampleRespond
    split_ifs <;> exact nofun
  have h : env.Answers s (s.document "t") [] (sampleRespond (.exited (some 3))) :=
    ⟨by decide +kernel, hquiet _⟩
  have h' : env'.Answers s' (s'.document "u") [] (sampleRespond (.exited (some 0))) :=
    ⟨by decide +kernel, hquiet _⟩
  obtain ⟨hentry, hpairs, -, -⟩ := algorithm_isolated (a := .xz) h h' rfl rfl rfl rfl
    (by decide) (by decide) (by decide) (by decide) (fun _ _ _ => rfl)
  exact ⟨by decide +kernel, by decide +kernel, hpairs, hentry⟩

end CompressionSweep
