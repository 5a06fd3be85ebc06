import CompressionSweep.Proofs.Sweep.Record

/-! Which calls a sweep makes, and in which order. The calls of one algorithm go on until one of
them fails, and those of all algorithms until one is interrupted. -/

namespace CompressionSweep

open Sweep

variable {ω : Type}

namespace Attempt

structure Is (s : Setup) (index : Nat) (a : Algorithm) (run : UInt32) (c : Attempt) : Prop where
  index : c.index = index
  algorithm : c.algorithm = a
  run : c.run = run
  invocation : c.invocation = s.invocation a

def Succeeds (c : Attempt) : Prop := c.state = .completed

def Interrupted (c : Attempt) : Prop := c.state = .failed .interrupted

/-- The call is for an algorithm before the one at `index`, or for it and an earlier run. -/
def Before (c : Attempt) (index : Nat) (run : UInt32) : Prop :=
  c.index < index ∨ c.index = index ∧ c.run < run

end Attempt

/-- The calls for the given runs of the algorithm at `index`, until one of them fails. -/
inductive RunsCalled (s : Setup) (index : Nat) (a : Algorithm) :
    List UInt32 → List Attempt → Prop where
  | nil : RunsCalled s index a [] []
  | goOn {run : UInt32} {runs : List UInt32} {c : Attempt} {cs : List Attempt}
    (call : c.Is s index a run) (ok : c.Succeeds) (more : RunsCalled s index a runs cs) :
    RunsCalled s index a (run :: runs) (c :: cs)
  | stop {run : UInt32} {runs : List UInt32} {c : Attempt} (call : c.Is s index a run)
    (bad : ¬ c.Succeeds) : RunsCalled s index a (run :: runs) [c]

/-- The calls for the algorithms from `index` on, until one of them is interrupted. -/
inductive SweepCalled (s : Setup) (runs : List UInt32) :
    Nat → List Algorithm → List Attempt → Prop where
  | nil {index : Nat} : SweepCalled s runs index [] []
  | goOn {index : Nat} {a : Algorithm} {as : List Algorithm} {cs cs' : List Attempt}
    (calls : RunsCalled s index a runs cs) (ok : ∀ c ∈ cs, ¬ c.Interrupted)
    (more : SweepCalled s runs (index + 1) as cs') :
    SweepCalled s runs index (a :: as) (cs ++ cs')
  | stop {index : Nat} {a : Algorithm} {as : List Algorithm} {cs : List Attempt}
    (calls : RunsCalled s index a runs cs) (bad : ∃ c ∈ cs, c.Interrupted) :
    SweepCalled s runs index (a :: as) cs

theorem Ending.state_eq_completed {e : Ending} : e.state = .completed ↔ e = .exited (some 0) := by
  constructor
  · intro h
    unfold Ending.state at h
    split at h
    · rfl
    all_goals cases h
  · rintro rfl
    rfl

theorem Ending.state_cases (e : Ending) : e.state = .completed ∨ ∃ r, e.state = .failed r := by
  unfold Ending.state
  split
  · exact .inl rfl
  all_goals exact .inr ⟨_, rfl⟩

theorem Ending.state_exited {code : Option Int} (h : code ≠ some 0) :
    (Ending.exited code).state = .failed (.exit code) := by
  unfold Ending.state
  split
  · rename_i he
    exact absurd (Ending.exited.inj he) h
  · rename_i he
    rw [Ending.exited.inj he]
  all_goals rename_i he; cases he

theorem Ending.state_failed (e : RunnerError) :
    (Ending.failed e).state =
      .failed (if e = .interrupted then .interrupted else .runner e.message) := by
  cases e <;> rfl

theorem Ending.state_eq_interrupted {e : Ending} :
    e.state = .failed .interrupted ↔ e = .failed .interrupted := by
  constructor
  · intro h
    unfold Ending.state at h
    split at h
    · cases h
    · cases h
    · rfl
    · cases h
  · rintro rfl
    rfl

theorem exists_mem_append {α : Type} {p : α → Prop} {as bs : List α} :
    (∃ a ∈ as ++ bs, p a) ↔ (∃ a ∈ as, p a) ∨ ∃ a ∈ bs, p a := by
  simp only [List.mem_append, or_and_right, exists_or]

section Loops

variable (env : Surroundings ω) (s : Setup)

theorem Made.interrupt {env : Surroundings ω} {s : Setup} {p p' : Progress (ω × Log)}
    {cs : List Attempt} (h : Made env s p p' cs) :
    Made env s p { p' with outcome.interrupted := true } cs :=
  ⟨h.calls, h.document, h.pairs, h.starts, h.writes⟩

theorem runAlgorithm_recorded (index : Nat) (a : Algorithm) (runs : List UInt32)
    (p : Progress (ω × Log)) (hp : p.outcome.interrupted = false) :
    let p' := runAlgorithm env.recorded s index a runs p
    ∃ cs, RunsCalled s index a runs cs ∧ Made env s p p' cs ∧
      (p'.outcome.interrupted = true ↔ ∃ c ∈ cs, c.Interrupted) := by
  induction runs generalizing p with
  | nil =>
    refine ⟨[], .nil, .nil p, ?_⟩
    simp [runAlgorithm, hp]
  | cons run runs ih =>
    obtain ⟨c, hi, ha, hr, hinv, hstate, hint, hmade⟩ := callPair_recorded env s index a run p
    have hcall : c.Is s index a run := ⟨hi, ha, hr, hinv⟩
    rw [runAlgorithm]
    dsimp only
    rw [hstate]
    rcases c.response.ending.state_cases with hok | ⟨reason, hbad⟩
    · obtain ⟨cs, hcs, hmore, hiff⟩ := ih _ (hint.trans hp)
      have hstate' : c.state = .completed := hok
      rw [hstate']
      refine ⟨c :: cs, .goOn hcall hok hcs, hmade.append hmore, hiff.trans ?_⟩
      have hc : ¬ c.Interrupted := fun h => by cases hok.symm.trans h
      simp only [List.mem_cons, exists_eq_or_imp, or_iff_right hc]
    · have hstate' : c.state = .failed reason := hbad
      have hstop : RunsCalled s index a (run :: runs) [c] :=
        .stop hcall (fun h => by cases hstate'.symm.trans h)
      rw [hstate']
      cases reason with
      | interrupted => exact ⟨[c], hstop, hmade.interrupt, by simp [Attempt.Interrupted, hstate']⟩
      | exit code =>
        exact ⟨[c], hstop, hmade, by simp [Attempt.Interrupted, hstate', hint, hp]⟩
      | runner message =>
        exact ⟨[c], hstop, hmade, by simp [Attempt.Interrupted, hstate', hint, hp]⟩

theorem runAlgorithms_recorded (index : Nat) (as : List Algorithm) (p : Progress (ω × Log))
    (hp : p.outcome.interrupted = false) :
    let p' := runAlgorithms env.recorded s index as p
    ∃ cs, SweepCalled s (runNumbers s.runs) index as cs ∧ Made env s p p' cs ∧
      (p'.outcome.interrupted = true ↔ ∃ c ∈ cs, c.Interrupted) := by
  induction as generalizing index p with
  | nil =>
    refine ⟨[], .nil, .nil p, ?_⟩
    simp [runAlgorithms, hp]
  | cons a as ih =>
    obtain ⟨cs, hcs, hmade, hiff⟩ := runAlgorithm_recorded env s index a (runNumbers s.runs) p hp
    rw [runAlgorithms]
    dsimp only
    split
    · rename_i hint
      exact ⟨cs, .stop hcs (hiff.mp hint), hmade, hiff⟩
    · rename_i hint
      have hnone : ¬ ∃ c ∈ cs, c.Interrupted := fun h => hint (hiff.mpr h)
      have hok : ∀ c ∈ cs, ¬ c.Interrupted := fun c hc h => hnone ⟨c, hc, h⟩
      obtain ⟨cs', hcs', hmade', hiff'⟩ := ih (index + 1) _ (Bool.eq_false_iff.mpr hint)
      refine ⟨cs ++ cs', .goOn hcs hok hcs', hmade.append hmade', hiff'.trans ?_⟩
      rw [exists_mem_append, or_iff_right hnone]

theorem flush_recorded (env : Surroundings ω) (p : Progress (ω × Log)) :
    let p' := flush env.recorded p
    p'.document = p.document ∧ p'.outcome.pairs = p.outcome.pairs ∧
      p'.outcome.interrupted = p.outcome.interrupted ∧ p'.world.2.calls = p.world.2.calls ∧
      ∃ ok, p'.world.2.writes = p.world.2.writes ++ [ok] ∧
        p'.outcome.persistFailures = p.outcome.persistFailures + [ok].count false :=
  ⟨rfl, rfl, rfl, rfl, _, rfl, countFailure_eq _ _⟩

/-- What becomes of a whole sweep, told from the record of it. -/
structure Recorded (env : Surroundings ω) (s : Setup) (d : Document)
    (r : Outcome × Document × ω × Log) : Prop where
  called : SweepCalled s (runNumbers s.runs) 0 s.algorithms r.2.2.2.calls
  pairs : r.1.pairs = r.2.2.2.calls.foldl (Attempt.mark s env.extract) (schedule s)
  starts : Starts s env.extract (schedule s) r.2.2.2.calls
  document : r.2.1 = r.2.2.2.calls.foldl (Attempt.file env.extract) d
  writes : r.2.2.2.writes.length =
    2 + (r.2.2.2.calls.map (fun c => (c.records env.extract).length)).sum
  failures : r.1.persistFailures = r.2.2.2.writes.count false
  interrupted : r.1.interrupted = true ↔ ∃ c ∈ r.2.2.2.calls, c.Interrupted

theorem run_recorded (env : Surroundings ω) (s : Setup) (d : Document) (w : ω) :
    Recorded env s d (run env.recorded s d (w, Log.empty)) := by
  let p : Progress (ω × Log) := ⟨d, (w, Log.empty), ⟨schedule s, 0, false⟩⟩
  obtain ⟨hd, hpairs, hint, hcalls, ok, hwrites, hfail⟩ := flush_recorded env p
  obtain ⟨cs, hcs, hmade, hiff⟩ := runAlgorithms_recorded env s 0 s.algorithms
    (flush env.recorded p) hint
  obtain ⟨hd', hpairs', hint', hcalls', ok', hwrites', hfail'⟩ := flush_recorded env
    (runAlgorithms env.recorded s 0 s.algorithms (flush env.recorded p))
  obtain ⟨oks, hoks, hlen, hcount⟩ := hmade.writes
  have hlog : (run env.recorded s d (w, Log.empty)).2.2.2.calls = cs :=
    hcalls'.trans (hmade.calls.trans (by rw [hcalls]; exact List.nil_append cs))
  have hall : (run env.recorded s d (w, Log.empty)).2.2.2.writes = [ok] ++ oks ++ [ok'] :=
    hwrites'.trans (by rw [hoks, hwrites]; rfl)
  constructor
  · rw [hlog]
    exact hcs
  · rw [hlog]
    exact hpairs'.trans (hmade.pairs.trans (by rw [hpairs]))
  · rw [hlog]
    have hstarts := hmade.starts
    rwa [hpairs] at hstarts
  · rw [hlog]
    exact hd'.trans (hmade.document.trans (by rw [hd]))
  · rw [hlog, hall, List.length_append, List.length_append, hlen, List.length_singleton,
      List.length_singleton]
    omega
  · rw [hall, List.count_append, List.count_append]
    exact hfail'.trans (by rw [hcount, hfail, Nat.zero_add])
  · rw [hlog]
    exact (Bool.eq_iff_iff.mp hint').trans hiff

end Loops

/-! The calls of one algorithm. -/

section RunsCalled

variable {s : Setup} {index : Nat} {a : Algorithm} {runs : List UInt32} {cs : List Attempt}

theorem not_lt_head {run : UInt32} (h : (run :: runs).Pairwise (· < ·)) :
    ∀ run' ∈ run :: runs, ¬ run' < run :=
  List.forall_mem_cons.mpr ⟨UInt32.lt_irrefl run,
    fun run' hrun' => UInt32.lt_asymm ((List.pairwise_cons.mp h).1 run' hrun')⟩

theorem RunsCalled.is (h : RunsCalled s index a runs cs) :
    ∀ c ∈ cs, ∃ run ∈ runs, c.Is s index a run := by
  induction h with
  | nil => exact fun _ hc => absurd hc List.not_mem_nil
  | @goOn run runs c cs call ok more ih =>
    refine List.forall_mem_cons.mpr ⟨⟨run, List.mem_cons_self, call⟩, fun c' hc' => ?_⟩
    obtain ⟨run', hrun', hcall'⟩ := ih c' hc'
    exact ⟨run', List.mem_cons_of_mem run hrun', hcall'⟩
  | @stop run runs c call bad =>
    intro c' hc'
    rw [List.mem_singleton.mp hc']
    exact ⟨run, List.mem_cons_self, call⟩

theorem RunsCalled.runs_eq (h : RunsCalled s index a runs cs) : cs.map (·.run) <+: runs := by
  induction h with
  | nil => exact List.prefix_refl []
  | goOn call ok more ih =>
    rw [List.map_cons, call.run]
    exact List.cons_prefix_cons.mpr ⟨rfl, ih⟩
  | stop call bad =>
    rw [List.map_singleton, call.run]
    exact List.cons_prefix_cons.mpr ⟨rfl, List.nil_prefix⟩

variable (hlt : runs.Pairwise (· < ·))

include hlt

theorem RunsCalled.increasing (h : RunsCalled s index a runs cs) :
    cs.Pairwise (fun c c' => c.run < c'.run) :=
  List.pairwise_map.mp (hlt.sublist h.runs_eq.sublist)

theorem RunsCalled.succeeds_of_lt (h : RunsCalled s index a runs cs) :
    ∀ c ∈ cs, ∀ c' ∈ cs, c.run < c'.run → c.Succeeds := by
  induction h with
  | nil => exact fun _ hc => absurd hc List.not_mem_nil
  | @goOn run runs c cs call ok more ih =>
    obtain ⟨hfirst, hlt⟩ := List.pairwise_cons.mp hlt
    refine List.forall_mem_cons.mpr ⟨fun _ _ _ => ok, fun c₁ h₁ => List.forall_mem_cons.mpr
      ⟨fun hless => ?_, fun c₂ h₂ => ih hlt c₁ h₁ c₂ h₂⟩⟩
    obtain ⟨run', hrun', hcall'⟩ := more.is c₁ h₁
    rw [hcall'.run, call.run] at hless
    exact absurd hless (UInt32.lt_asymm (hfirst run' hrun'))
  | @stop run runs c call bad =>
    intro c₁ h₁ c₂ h₂ hless
    rw [List.mem_singleton.mp h₁, List.mem_singleton.mp h₂] at hless
    exact absurd hless (UInt32.lt_irrefl _)

theorem RunsCalled.called_iff (h : RunsCalled s index a runs cs) : ∀ run ∈ runs,
    (∃ c ∈ cs, c.run = run) ↔ ∀ run' ∈ runs, run' < run → ∃ c ∈ cs, c.run = run' ∧ c.Succeeds := by
  induction h with
  | nil => exact fun _ hr => absurd hr List.not_mem_nil
  | @goOn run₀ runs c₀ cs call ok more ih =>
    obtain ⟨hfirst, hmore⟩ := List.pairwise_cons.mp hlt
    refine List.forall_mem_cons.mpr
      ⟨⟨fun _ run' hrun' hless => ?_, fun _ => ?_⟩, fun run hrun => ?_⟩
    · exact absurd hless (not_lt_head hlt run' hrun')
    · exact ⟨c₀, List.mem_cons_self, call.run⟩
    have hne : ∀ run' ∈ runs, c₀.run ≠ run' := fun run' hrun' he =>
      UInt32.ne_of_lt (hfirst run' hrun') (call.run ▸ he)
    simp only [List.mem_cons, exists_eq_or_imp, forall_eq_or_imp]
    rw [or_iff_right (hne run hrun), ih hmore run hrun,
      and_iff_right (fun _ => .inl ⟨call.run, ok⟩)]
    refine forall₂_congr (fun run' hrun' => imp_congr_right (fun _ => ?_))
    rw [or_iff_right (fun h => hne run' hrun' h.1)]
  | @stop run₀ runs c₀ call bad =>
    refine List.forall_mem_cons.mpr
      ⟨⟨fun _ run' hrun' hless => ?_, fun _ => ?_⟩, fun run hrun => ?_⟩
    · exact absurd hless (not_lt_head hlt run' hrun')
    · exact ⟨c₀, List.mem_singleton_self c₀, call.run⟩
    have hless : run₀ < run := (List.pairwise_cons.mp hlt).1 run hrun
    constructor
    · rintro ⟨c, hc, hr⟩
      rw [List.mem_singleton.mp hc, call.run] at hr
      exact absurd hr (UInt32.ne_of_lt hless)
    · intro hall
      obtain ⟨c, hc, -, hs⟩ := hall run₀ List.mem_cons_self hless
      exact absurd (List.mem_singleton.mp hc ▸ hs) bad

end RunsCalled

/-! The calls of all algorithms. -/

section SweepCalled

variable {s : Setup} {runs : List UInt32} {index : Nat} {as : List Algorithm} {cs : List Attempt}

theorem SweepCalled.is (h : SweepCalled s runs index as cs) :
    ∀ c ∈ cs, ∃ k a run, as[k]? = some a ∧ run ∈ runs ∧ c.Is s (index + k) a run := by
  have hfirst : ∀ {index a as cs}, RunsCalled s index a runs cs → ∀ c ∈ cs,
      ∃ k a' run, (a :: as)[k]? = some a' ∧ run ∈ runs ∧ c.Is s (index + k) a' run := by
    intro index a as cs calls c hc
    obtain ⟨run, hrun, hcall⟩ := calls.is c hc
    exact ⟨0, a, run, rfl, hrun, hcall⟩
  induction h with
  | nil => exact fun _ hc => absurd hc List.not_mem_nil
  | goOn calls ok more ih =>
    intro c hc
    rcases List.mem_append.mp hc with hc | hc
    · exact hfirst calls c hc
    · obtain ⟨k, a', run, hk, hrun, hcall⟩ := ih c hc
      refine ⟨k + 1, a', run, hk, hrun, ?_⟩
      rwa [Nat.add_assoc, Nat.add_comm 1] at hcall
  | stop calls bad => exact hfirst calls

theorem SweepCalled.le_index (h : SweepCalled s runs index as cs) :
    ∀ c ∈ cs, index ≤ c.index := by
  intro c hc
  obtain ⟨k, a, run, -, -, hcall⟩ := h.is c hc
  rw [hcall.index]
  exact Nat.le_add_right index k

theorem RunsCalled.index_eq {a : Algorithm} (h : RunsCalled s index a runs cs) :
    ∀ c ∈ cs, c.index = index := by
  intro c hc
  obtain ⟨run, -, hcall⟩ := h.is c hc
  exact hcall.index

variable (hlt : runs.Pairwise (· < ·))

include hlt

theorem RunsCalled.ordered {a : Algorithm} (h : RunsCalled s index a runs cs) :
    cs.Pairwise (fun c c' => c.Before c'.index c'.run) :=
  (h.increasing hlt).imp_of_mem (fun hc hc' hless =>
    .inr ⟨(h.index_eq _ hc).trans (h.index_eq _ hc').symm, hless⟩)

theorem SweepCalled.ordered (h : SweepCalled s runs index as cs) :
    cs.Pairwise (fun c c' => c.Before c'.index c'.run) := by
  induction h with
  | nil => exact List.Pairwise.nil
  | goOn calls ok more ih =>
    refine List.pairwise_append.mpr ⟨calls.ordered hlt, ih, fun c hc c' hc' => .inl ?_⟩
    rw [calls.index_eq c hc]
    exact more.le_index c' hc'
  | stop calls bad => exact calls.ordered hlt

theorem RunsCalled.last_interrupted {a : Algorithm} (h : RunsCalled s index a runs cs)
    {c : Attempt} (hc : c ∈ cs) (hi : c.Interrupted) : cs.getLast? = some c := by
  obtain ⟨before, after, rfl⟩ := List.append_of_mem hc
  cases after with
  | nil => exact List.getLast?_concat
  | cons c' after =>
    have hless : c.run < c'.run := by
      have hinc := (List.pairwise_append.mp (h.increasing hlt)).2.1
      exact (List.pairwise_cons.mp hinc).1 c' List.mem_cons_self
    have hok := h.succeeds_of_lt hlt c hc c' (by simp) hless
    cases hok.symm.trans hi

theorem SweepCalled.interrupted_iff (h : SweepCalled s runs index as cs) :
    (∃ c ∈ cs, c.Interrupted) ↔ ∃ c, cs.getLast? = some c ∧ c.Interrupted := by
  constructor
  · rintro ⟨c, hc, hi⟩
    induction h with
    | nil => exact absurd hc List.not_mem_nil
    | @goOn index a as cs cs' calls ok more ih =>
      rcases List.mem_append.mp hc with hc | hc
      · exact absurd hi (ok c hc)
      · obtain ⟨c', hlast, hi'⟩ := ih hc
        exact ⟨c', by rw [List.getLast?_append, hlast]; rfl, hi'⟩
    | stop calls bad => exact ⟨c, calls.last_interrupted hlt hc hi, hi⟩
  · rintro ⟨c, hlast, hi⟩
    exact ⟨c, List.mem_of_getLast? hlast, hi⟩

theorem RunsCalled.called_at_iff {a : Algorithm} (h : RunsCalled s index a runs cs) {run : UInt32}
    (hrun : run ∈ runs) :
    (∃ c ∈ cs, c.index = index ∧ c.run = run) ↔
      ∀ run' ∈ runs, run' < run → ∃ c ∈ cs, c.index = index ∧ c.run = run' ∧ c.Succeeds := by
  have hiff := h.called_iff hlt run hrun
  constructor
  · rintro ⟨c, hc, -, hr⟩ run' hrun' hless
    obtain ⟨c', hc', h'⟩ := hiff.mp ⟨c, hc, hr⟩ run' hrun' hless
    exact ⟨c', hc', h.index_eq c' hc', h'⟩
  · intro hall
    obtain ⟨c, hc, hr⟩ := hiff.mpr (fun run' hrun' hless => by
      obtain ⟨c, hc, -, h'⟩ := hall run' hrun' hless
      exact ⟨c, hc, h'⟩)
    exact ⟨c, hc, h.index_eq c hc, hr⟩

/-- A run is called exactly if the runs of its algorithm before it have been called and have
succeeded, and no call before it has been interrupted. -/
theorem SweepCalled.called_iff (h : SweepCalled s runs index as cs) {k : Nat}
    (hk : k < as.length) {run : UInt32} (hrun : run ∈ runs) :
    (∃ c ∈ cs, c.index = index + k ∧ c.run = run) ↔
      (∀ run' ∈ runs, run' < run →
        ∃ c ∈ cs, c.index = index + k ∧ c.run = run' ∧ c.Succeeds) ∧
      ∀ c ∈ cs, c.Before (index + k) run → ¬ c.Interrupted := by
  induction h generalizing k with
  | nil => exact absurd hk (Nat.not_lt_zero k)
  | @goOn index a as cs cs' calls ok more ih =>
    cases k with
    | zero =>
      rw [Nat.add_zero]
      -- Only calls of `cs` are for this algorithm.
      have hnone : ∀ P : Attempt → Prop, ¬ ∃ c ∈ cs', c.index = index ∧ P c := by
        rintro P ⟨c, hc, hi, -⟩
        have := more.le_index c hc
        omega
      have hquiet : ∀ c ∈ cs ++ cs', c.Before index run → ¬ c.Interrupted := by
        refine List.forall_mem_append.mpr ⟨fun c hc _ => ok c hc, fun c hc hbefore => ?_⟩
        have := more.le_index c hc
        exact absurd hbefore (by unfold Attempt.Before; omega)
      rw [and_iff_left hquiet]
      simp only [exists_mem_append, or_iff_left (hnone _)]
      exact calls.called_at_iff hlt hrun
    | succ k =>
      have hindex : index + (k + 1) = index + 1 + k := by omega
      rw [hindex]
      -- Only calls of `cs'` are for this algorithm.
      have hnone : ∀ P : Attempt → Prop, ¬ ∃ c ∈ cs, c.index = index + 1 + k ∧ P c := by
        rintro P ⟨c, hc, hi, -⟩
        have := calls.index_eq c hc
        omega
      simp only [exists_mem_append, or_iff_right (hnone _), List.forall_mem_append]
      rw [and_iff_right (fun c hc _ => ok c hc)]
      exact ih (Nat.lt_of_succ_lt_succ hk)
  | @stop index a as cs calls bad =>
    cases k with
    | zero =>
      have hiff := calls.called_at_iff hlt hrun
      refine ⟨fun hcalled => ⟨hiff.mp hcalled, fun c hc hbefore => ?_⟩, fun h => hiff.mpr h.1⟩
      obtain ⟨c', hc', -, hr⟩ := hcalled
      have hless : c.run < c'.run := by
        rw [hr]
        exact hbefore.elim (fun h => absurd (calls.index_eq c hc) (Nat.ne_of_lt h)) (·.2)
      intro hi
      cases (calls.succeeds_of_lt hlt c hc c' hc' hless).symm.trans hi
    | succ k =>
      obtain ⟨c₀, hc₀, hi₀⟩ := bad
      have hindex := calls.index_eq c₀ hc₀
      refine ⟨fun ⟨c, hc, hi, _⟩ => ?_, fun h => absurd hi₀ (h.2 c₀ hc₀ (.inl (by omega)))⟩
      have := calls.index_eq c hc
      omega

end SweepCalled

end CompressionSweep
