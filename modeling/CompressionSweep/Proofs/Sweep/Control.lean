import CompressionSweep.Proofs.Sweep.Order

/-! How a sweep is controlled: which runs are called, in which order, and what their pairs say in
the end. -/

namespace CompressionSweep

open Sweep

variable {ω : Type}

theorem length_runNumbers (n : UInt32) : (runNumbers n).length = n.toNat := by
  rw [runNumbers, List.length_map, List.length_range]

theorem toNat_runNumber {n : UInt32} {j : Nat} (h : j < n.toNat) :
    ((j + 1).toUInt32).toNat = j + 1 := by
  have hn := n.toNat_lt
  exact Nat.mod_eq_of_lt (by omega)

theorem getElem?_runNumbers {n run : UInt32} (h : 1 ≤ run) (hn : run ≤ n) :
    (runNumbers n)[run.toNat - 1]? = some run := by
  rw [UInt32.le_iff_toNat_le] at h hn
  have hpos : 1 ≤ run.toNat := h
  rw [runNumbers, List.getElem?_map, List.getElem?_range (by omega), Option.map_some,
    Nat.sub_add_cancel hpos]
  exact congrArg some UInt32.ofNat_toNat

theorem mem_runNumbers {n run : UInt32} : run ∈ runNumbers n ↔ 1 ≤ run ∧ run ≤ n := by
  constructor
  · intro h
    obtain ⟨j, hj, rfl⟩ := List.mem_map.mp h
    have hto := toNat_runNumber (List.mem_range.mp hj)
    have hlt := List.mem_range.mp hj
    rw [UInt32.le_iff_toNat_le, UInt32.le_iff_toNat_le, hto]
    exact ⟨Nat.le_add_left 1 j, hlt⟩
  · rintro ⟨h, hn⟩
    exact List.mem_of_getElem? (getElem?_runNumbers h hn)

theorem runNumbers_increasing (n : UInt32) : (runNumbers n).Pairwise (· < ·) := by
  refine List.pairwise_map.mpr (List.pairwise_lt_range.imp_of_mem ?_)
  intro i j hi hj hless
  rw [UInt32.lt_iff_toNat_lt, toNat_runNumber (List.mem_range.mp hi),
    toNat_runNumber (List.mem_range.mp hj)]
  omega

theorem getElem?_flatMap_of_length {α β : Type} {f : α → List β} {n j : Nat}
    (hf : ∀ a, (f a).length = n) (hj : j < n) (as : List α) (i : Nat) :
    (as.flatMap f)[i * n + j]? = as[i]?.bind (fun a => (f a)[j]?) := by
  induction as generalizing i with
  | nil => rfl
  | cons a as ih =>
    rw [List.flatMap_cons]
    cases i with
    | zero =>
      rw [Nat.zero_mul, Nat.zero_add, List.getElem?_append_left (by rw [hf]; exact hj)]
      rfl
    | succ i =>
      have hindex : (i + 1) * n + j = (f a).length + (i * n + j) := by
        rw [hf, Nat.succ_mul]
        omega
      rw [hindex, List.getElem?_append_right (Nat.le_add_right _ _), Nat.add_sub_cancel_left]
      exact ih i

section Slots

variable {s : Setup}

theorem getElem?_schedule {i : Nat} {a : Algorithm} {run : UInt32}
    (ha : s.algorithms[i]? = some a) (h : 1 ≤ run) (hn : run ≤ s.runs) :
    (schedule s)[slot s i run]? = some (.pending a run) := by
  have hlen : ∀ a, ((runNumbers s.runs).map (Pair.pending a)).length = s.runs.toNat := fun a => by
    rw [List.length_map, length_runNumbers]
  have hpos : 1 ≤ run.toNat := h
  have hle : run.toNat ≤ s.runs.toNat := hn
  refine (getElem?_flatMap_of_length hlen (by omega) _ _).trans ?_
  rw [ha, Option.bind_some, List.getElem?_map, getElem?_runNumbers h hn]
  rfl

theorem slot_lt_slot {i i' : Nat} {run run' : UInt32} (hrun : 1 ≤ run) (hle : run ≤ s.runs)
    (hrun' : 1 ≤ run') (h : i < i' ∨ i = i' ∧ run < run') : slot s i run < slot s i' run' := by
  have h₁ : 1 ≤ run.toNat := hrun
  have h₂ : run.toNat ≤ s.runs.toNat := hle
  have h₃ : 1 ≤ run'.toNat := hrun'
  unfold slot
  rcases h with h | ⟨rfl, hless⟩
  · have hrow : (i + 1) * s.runs.toNat ≤ i' * s.runs.toNat := Nat.mul_le_mul_right _ h
    rw [Nat.succ_mul] at hrow
    omega
  · have hless' : run.toNat < run'.toNat := hless
    omega

theorem slot_injective {i i' : Nat} {run run' : UInt32} (hrun : 1 ≤ run ∧ run ≤ s.runs)
    (hrun' : 1 ≤ run' ∧ run' ≤ s.runs) (h : slot s i run = slot s i' run') :
    i = i' ∧ run = run' := by
  have hright := fun hb => Nat.ne_of_lt (slot_lt_slot hrun.1 hrun.2 hrun'.1 hb) h
  have hleft := fun hb => Nat.ne_of_gt (slot_lt_slot hrun'.1 hrun'.2 hrun.1 hb) h
  obtain hi | rfl | hi := Nat.lt_trichotomy i i'
  · exact absurd (.inl hi) hright
  · obtain hr | hr | hr := Nat.lt_trichotomy run.toNat run'.toNat
    · exact absurd (.inr ⟨rfl, hr⟩) hright
    · exact ⟨rfl, UInt32.toNat_inj.mp hr⟩
    · exact absurd (.inr ⟨rfl, hr⟩) hleft
  · exact absurd (.inl hi) hleft

theorem getElem?_marks (extract : Extractor) {cs : List Attempt}
    (hslots : cs.Pairwise (fun c c' => c.slot s < c'.slot s)) (pairs : List Pair) (k : Nat) :
    (∀ c ∈ cs, c.slot s = k → (cs.foldl (Attempt.mark s extract) pairs)[k]? =
        pairs[k]?.map (Pair.finish c.state (c.records extract).length)) ∧
      ((∀ c ∈ cs, c.slot s ≠ k) →
        (cs.foldl (Attempt.mark s extract) pairs)[k]? = pairs[k]?) := by
  induction cs generalizing pairs with
  | nil => exact ⟨fun _ hc => absurd hc List.not_mem_nil, fun _ => rfl⟩
  | cons c cs ih =>
    obtain ⟨hfirst, hslots⟩ := List.pairwise_cons.mp hslots
    obtain ⟨hmark, hother⟩ := ih hslots (c.mark s extract pairs)
    rw [List.foldl_cons]
    constructor
    · refine List.forall_mem_cons.mpr ⟨fun hk => ?_, fun c' hc' hk => ?_⟩
      · rw [hother (fun c' hc' => by have := hfirst c' hc'; omega), Attempt.mark, hk,
          List.getElem?_modify_eq, Option.map_eq_map]
      · rw [hmark c' hc' hk, Attempt.mark,
          List.getElem?_modify_ne _ _ (by have := hfirst c' hc'; omega)]
    · intro hne
      obtain ⟨hc, hcs⟩ := List.forall_mem_cons.mp hne
      rw [hother hcs, Attempt.mark, List.getElem?_modify_ne _ _ hc]

theorem Starts.getElem? {extract : Extractor} {cs : List Attempt} {pairs : List Pair}
    (h : Starts s extract pairs cs) (hslots : cs.Pairwise (fun c c' => c.slot s < c'.slot s)) :
    ∀ c ∈ cs, c.pairs[c.slot s]? = pairs[c.slot s]?.map Pair.start := by
  induction cs generalizing pairs with
  | nil => exact fun _ hc => absurd hc List.not_mem_nil
  | cons c cs ih =>
    obtain ⟨hfirst, hslots⟩ := List.pairwise_cons.mp hslots
    refine List.forall_mem_cons.mpr ⟨?_, fun c' hc' => ?_⟩
    · rw [h.1, List.getElem?_modify_eq, Option.map_eq_map]
    · rw [ih h.2 hslots c' hc', Attempt.mark,
        List.getElem?_modify_ne _ _ (Nat.ne_of_lt (hfirst c' hc'))]

theorem map_marks {β : Type} (f : Pair → β) (hf : ∀ state n p, f (Pair.finish state n p) = f p)
    (extract : Extractor) (cs : List Attempt) (pairs : List Pair) :
    (cs.foldl (Attempt.mark s extract) pairs).map f = pairs.map f := by
  induction cs generalizing pairs with
  | nil => rfl
  | cons c cs ih =>
    rw [List.foldl_cons, ih, Attempt.mark]
    refine List.ext_getElem? (fun k => ?_)
    rw [List.getElem?_map, List.getElem?_map, List.getElem?_modify, Option.map_eq_map,
      Option.map_map]
    congr 1
    funext p
    simp only [Function.comp_apply]
    split
    · exact hf _ _ p
    · rfl

end Slots

namespace Recorded

variable {env : Surroundings ω} {s : Setup} {d : Document} {r : Outcome × Document × ω × Log}
  (h : Recorded env s d r)

include h

theorem place : ∀ c ∈ r.2.2.2.calls, s.algorithms[c.index]? = some c.algorithm ∧ 1 ≤ c.run ∧
    c.run ≤ s.runs ∧ c.invocation = s.invocation c.algorithm := by
  intro c hc
  obtain ⟨k, a, run, hk, hrun, hcall⟩ := h.called.is c hc
  rw [hcall.index, hcall.algorithm, hcall.run, hcall.invocation, Nat.zero_add]
  exact ⟨hk, (mem_runNumbers.mp hrun).1, (mem_runNumbers.mp hrun).2, rfl⟩

theorem slots : r.2.2.2.calls.Pairwise (fun c c' => c.slot s < c'.slot s) := by
  refine (h.called.ordered (runNumbers_increasing s.runs)).imp_of_mem ?_
  intro c c' hc hc' hbefore
  obtain ⟨-, h₁, h₂, -⟩ := h.place c hc
  obtain ⟨-, h₁', -, -⟩ := h.place c' hc'
  exact slot_lt_slot h₁ h₂ h₁' hbefore

theorem pending : ∀ c ∈ r.2.2.2.calls,
    (schedule s)[c.slot s]? = some (.pending c.algorithm c.run) := by
  intro c hc
  obtain ⟨ha, h₁, h₂, -⟩ := h.place c hc
  exact getElem?_schedule ha h₁ h₂

theorem called_pair : ∀ c ∈ r.2.2.2.calls, r.1.pairs[c.slot s]? =
    some ⟨c.algorithm, c.run, c.response.ending.state, (c.records env.extract).length⟩ := by
  intro c hc
  rw [h.pairs, (getElem?_marks env.extract h.slots _ _).1 c hc rfl, h.pending c hc]
  rfl

theorem uncalled_pair {i : Nat} {a : Algorithm} {run : UInt32} (ha : s.algorithms[i]? = some a)
    (h₁ : 1 ≤ run) (h₂ : run ≤ s.runs)
    (hno : ∀ c ∈ r.2.2.2.calls, ¬ (c.index = i ∧ c.run = run)) :
    r.1.pairs[slot s i run]? = some (.pending a run) := by
  have hne : ∀ c ∈ r.2.2.2.calls, c.slot s ≠ slot s i run := by
    intro c hc he
    obtain ⟨-, h₁', h₂', -⟩ := h.place c hc
    exact hno c hc (slot_injective ⟨h₁', h₂'⟩ ⟨h₁, h₂⟩ he)
  rw [h.pairs, (getElem?_marks env.extract h.slots _ _).2 hne]
  exact getElem?_schedule ha h₁ h₂

theorem not_running : ∀ p ∈ r.1.pairs, p.state ≠ .running := by
  intro p hp
  have hscheduled : ∀ q ∈ schedule s, q.state = .pending := by
    intro q hq
    obtain ⟨a, -, hq⟩ := List.mem_flatMap.mp hq
    obtain ⟨run, -, rfl⟩ := List.mem_map.mp hq
    rfl
  obtain ⟨k, hk⟩ := List.mem_iff_getElem?.mp hp
  obtain ⟨hmark, hother⟩ := getElem?_marks env.extract h.slots (schedule s) k
  rw [h.pairs] at hk
  by_cases hcalled : ∃ c ∈ r.2.2.2.calls, c.slot s = k
  · obtain ⟨c, hc, hslot⟩ := hcalled
    rw [hmark c hc hslot] at hk
    obtain ⟨q, -, rfl⟩ := Option.map_eq_some_iff.mp hk
    change c.response.ending.state ≠ .running
    rcases c.response.ending.state_cases with hs | ⟨reason, hs⟩ <;> rw [hs] <;> exact nofun
  · rw [hother (fun c hc he => hcalled ⟨c, hc, he⟩)] at hk
    rw [hscheduled p (List.mem_of_getElem? hk)]
    exact nofun

theorem called_iff {i : Nat} {run : UInt32} (hi : i < s.algorithms.length) (h₁ : 1 ≤ run)
    (h₂ : run ≤ s.runs) :
    (∃ c ∈ r.2.2.2.calls, c.index = i ∧ c.run = run) ↔
      (∀ run', 1 ≤ run' → run' < run → ∃ c ∈ r.2.2.2.calls,
        c.index = i ∧ c.run = run' ∧ c.response.ending = .exited (some 0)) ∧
      ∀ c ∈ r.2.2.2.calls, c.Before i run → c.response.ending ≠ .failed .interrupted := by
  have hiff := h.called.called_iff (runNumbers_increasing s.runs) hi (mem_runNumbers.mpr ⟨h₁, h₂⟩)
  rw [Nat.zero_add] at hiff
  rw [hiff]
  simp only [Attempt.Succeeds, Attempt.Interrupted, Attempt.state, Ending.state_eq_completed,
    Ending.state_eq_interrupted, mem_runNumbers]
  refine and_congr_left' ⟨fun hall run' h₁' hless => ?_, fun hall run' hrun' => hall run' hrun'.1⟩
  exact hall run' ⟨h₁', UInt32.le_of_lt (UInt32.lt_of_lt_of_le hless h₂)⟩ hless

end Recorded

/-- What a sweep does, whatever the tool answers. The runs are called in their order, each with
the command line of its algorithm and while its own pair is under way. A run is called exactly if
the runs of its algorithm before it have all ended with code zero and no call before it has been
interrupted. In the end a pair that was called tells how its own call ended, and how many
measurements that call gave; all others are pending, and none is under way. The sweep has been
interrupted exactly if its last call was. -/
theorem sweep_control (env : Surroundings ω) (s : Setup) (d : Document) (w : ω) :
    let r := run env.recorded s d (w, Log.empty)
    let calls := r.2.2.2.calls
    run env s d w = (r.1, r.2.1, r.2.2.1) ∧
    calls.Pairwise (fun c c' => c.Before c'.index c'.run) ∧
    (∀ c ∈ calls, s.algorithms[c.index]? = some c.algorithm ∧ 1 ≤ c.run ∧ c.run ≤ s.runs ∧
      c.invocation = s.invocation c.algorithm ∧
      c.pairs[c.slot s]? = some ⟨c.algorithm, c.run, .running, 0⟩) ∧
    (∀ i run, i < s.algorithms.length → 1 ≤ run → run ≤ s.runs →
      ((∃ c ∈ calls, c.index = i ∧ c.run = run) ↔
        (∀ run', 1 ≤ run' → run' < run →
          ∃ c ∈ calls, c.index = i ∧ c.run = run' ∧ c.response.ending = .exited (some 0)) ∧
        ∀ c ∈ calls, c.Before i run → c.response.ending ≠ .failed .interrupted)) ∧
    r.1.pairs.map (fun p => (p.algorithm, p.run)) =
      s.algorithms.flatMap (fun a => (runNumbers s.runs).map (fun run => (a, run))) ∧
    (∀ c ∈ calls, ∃ state, r.1.pairs[c.slot s]? =
        some ⟨c.algorithm, c.run, state, (c.records env.extract).length⟩ ∧
      (state = .completed ↔ c.response.ending = .exited (some 0)) ∧
      (∀ code, c.response.ending = .exited code → code ≠ some 0 →
        state = .failed (.exit code)) ∧
      ∀ e, c.response.ending = .failed e →
        state = .failed (if e = .interrupted then .interrupted else .runner e.message)) ∧
    (∀ i a run, s.algorithms[i]? = some a → 1 ≤ run → run ≤ s.runs →
      (∀ c ∈ calls, ¬ (c.index = i ∧ c.run = run)) →
      r.1.pairs[slot s i run]? = some (.pending a run)) ∧
    (∀ p ∈ r.1.pairs, p.state ≠ .running) ∧
    (r.1.interrupted = true ↔
      ∃ c, calls.getLast? = some c ∧ c.response.ending = .failed .interrupted) := by
  intro r calls
  have h : Recorded env s d r := run_recorded env s d w
  refine ⟨run_mapWorld env.projects_recorded s d (w, Log.empty),
    h.called.ordered (runNumbers_increasing s.runs), fun c hc => ?_,
    fun i run hi h₁ h₂ => h.called_iff hi h₁ h₂, ?_,
    fun c hc => ⟨c.response.ending.state, h.called_pair c hc, Ending.state_eq_completed,
      fun code he hcode => ?_, fun e he => ?_⟩,
    fun i a run ha h₁ h₂ hno => h.uncalled_pair ha h₁ h₂ hno, h.not_running, ?_⟩
  · obtain ⟨ha, h₁, h₂, hinv⟩ := h.place c hc
    refine ⟨ha, h₁, h₂, hinv, ?_⟩
    rw [h.starts.getElem? h.slots c hc, h.pending c hc]
    rfl
  · rw [h.pairs, map_marks _ (fun _ _ _ => rfl), schedule, List.map_flatMap]
    simp only [List.map_map]
    rfl
  · rw [he, Ending.state_exited hcode]
  · rw [he, Ending.state_failed]
  · rw [h.interrupted, h.called.interrupted_iff (runNumbers_increasing s.runs)]
    simp only [Attempt.Interrupted, Attempt.state, Ending.state_eq_interrupted]
    exact Iff.rfl

/-- The second call fails and the fourth is interrupted; each gives one measurement, and the third
write fails. -/
def sampleSurroundings : Surroundings (Nat × Nat) where
  answer _ w :=
    (⟨["a.jfr"], match w.1 with
      | 1 => .exited (some 3)
      | 3 => .failed .interrupted
      | _ => .exited (some 0)⟩, w.1 + 1, w.2)
  persist _ w := (w.2 != 2, w.1, w.2 + 1)
  extract line := some ⟨line, 1.5, 3⟩

def sampleSetup : Setup := { Setup.standard with algorithms := [.gzip, .xz, .zstd] }

theorem sweep_control_sample :
    let r := run sampleSurroundings.recorded sampleSetup (sampleSetup.document "t")
      ((0, 0), Log.empty)
    r.1.pairs[slot sampleSetup 0 3]? = some (.pending .gzip 3) ∧
    (∃ c ∈ r.2.2.2.calls, c.index = 1 ∧ c.run = 2) ∧
    r.1.interrupted = true := by
  obtain ⟨-, -, -, hcalled, -, -, huncalled, -, hinterrupted⟩ :=
    sweep_control sampleSurroundings sampleSetup (sampleSetup.document "t") (0, 0)
  refine ⟨huncalled 0 .gzip 3 rfl (by decide) (by decide) (by decide +kernel),
    (hcalled 1 2 (by decide) (by decide) (by decide)).mpr ⟨fun run h₁ hless => ?_, ?_⟩,
    hinterrupted.mpr (by decide +kernel)⟩
  · have h₁' : 1 ≤ run.toNat := h₁
    have hless' : run.toNat < 2 := hless
    obtain rfl : run = 1 := UInt32.toNat_inj.mp (by change run.toNat = 1; omega)
    decide +kernel
  · unfold Attempt.Before
    decide +kernel

end CompressionSweep
