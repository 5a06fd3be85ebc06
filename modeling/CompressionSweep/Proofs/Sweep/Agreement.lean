import CompressionSweep.Sweep

/-! Two sweeps side by side, in worlds that may be different. As long as the tool answers alike in
both, they make the same calls and have the same document and the same pairs; only the number of
failed writes depends on the writes. -/

namespace CompressionSweep

open Sweep

variable {ω ω' : Type}

/-- In worlds that are related by `R` the tool answers alike, and whatever happens the worlds stay
related. If `alike` holds, a write succeeds in both or in none. -/
structure Surroundings.Agree (R : ω → ω' → Prop) (alike : Prop) (env : Surroundings ω)
    (env' : Surroundings ω') : Prop where
  answer : ∀ i w w', R w w' → (env.answer i w).1 = (env'.answer i w').1 ∧
    R (env.answer i w).2 (env'.answer i w').2
  persist : ∀ d w w', R w w' → (alike → (env.persist d w).1 = (env'.persist d w').1) ∧
    R (env.persist d w).2 (env'.persist d w').2
  extract : env.extract = env'.extract
  note : ∀ e d pairs w w', R w w' → R (env.note e d pairs w) (env'.note e d pairs w')

structure Hearing.Agree (R : ω → ω' → Prop) (alike : Prop) (h : Hearing ω) (h' : Hearing ω') :
    Prop where
  document : h.document = h'.document
  world : R h.world h'.world
  accepted : h.accepted = h'.accepted
  failures : alike → h.persistFailures = h'.persistFailures

structure Progress.Agree (R : ω → ω' → Prop) (alike : Prop) (p : Progress ω) (p' : Progress ω') :
    Prop where
  document : p.document = p'.document
  world : R p.world p'.world
  pairs : p.outcome.pairs = p'.outcome.pairs
  interrupted : p.outcome.interrupted = p'.outcome.interrupted
  failures : alike → p.outcome.persistFailures = p'.outcome.persistFailures

theorem Progress.Agree.outcome {R : ω → ω' → Prop} {alike : Prop} {p : Progress ω}
    {p' : Progress ω'} (h : p.Agree R alike p') (ha : alike) : p.outcome = p'.outcome := by
  obtain ⟨d, w, pairs, failures, interrupted⟩ := p
  obtain ⟨d', w', pairs', failures', interrupted'⟩ := p'
  obtain rfl : pairs = pairs' := h.pairs
  obtain rfl : failures = failures' := h.failures ha
  obtain rfl : interrupted = interrupted' := h.interrupted
  rfl

namespace Surroundings.Agree

variable {R : ω → ω' → Prop} {alike : Prop} {env : Surroundings ω} {env' : Surroundings ω'}
  (he : env.Agree R alike env')

include he

theorem flush {p : Progress ω} {p' : Progress ω'} (h : p.Agree R alike p') :
    (Sweep.flush env p).Agree R alike (Sweep.flush env' p') := by
  obtain ⟨hok, hworld⟩ := he.persist p'.document p.world p'.world h.world
  unfold Sweep.flush
  rw [h.document]
  refine ⟨rfl, hworld, h.pairs, h.interrupted, fun ha => ?_⟩
  simp only [hok ha, h.failures ha]

theorem hear (a : Algorithm) (run : UInt32) (pairs : List Pair) {h : Hearing ω} {h' : Hearing ω'}
    (hh : h.Agree R alike h') (line : String) :
    (Sweep.hear env a run pairs h line).Agree R alike (Sweep.hear env' a run pairs h' line) := by
  unfold Sweep.hear
  rw [he.extract]
  cases env'.extract line with
  | none => exact hh
  | some m =>
    have hnote := he.note (.parsed a run m) h'.document pairs _ _ hh.world
    obtain ⟨hok, hworld⟩ := he.persist (h'.document.append a.name run m) _ _ hnote
    dsimp only
    rw [hh.document, hh.accepted]
    refine ⟨rfl, hworld, rfl, fun ha => ?_⟩
    simp only [hok ha, hh.failures ha]

theorem runPair (s : Setup) (a : Algorithm) (run : UInt32) (pairs : List Pair) (d : Document)
    {w : ω} {w' : ω'} (hw : R w w') :
    (Sweep.runPair env s a run pairs d w).1 = (Sweep.runPair env' s a run pairs d w').1 ∧
      (Sweep.runPair env s a run pairs d w).2.Agree R alike
        (Sweep.runPair env' s a run pairs d w').2 := by
  obtain ⟨hresponse, hworld⟩ := he.answer (s.invocation a) w w' hw
  have hlines : ∀ (lines : List String) {h : Hearing ω} {h' : Hearing ω'}, h.Agree R alike h' →
      (lines.foldl (Sweep.hear env a run pairs) h).Agree R alike
        (lines.foldl (Sweep.hear env' a run pairs) h') := by
    intro lines
    induction lines with
    | nil => exact id
    | cons line lines ih => exact fun hh => ih (he.hear a run pairs hh line)
  unfold Sweep.runPair
  dsimp only
  rw [hresponse]
  exact ⟨rfl, hlines _ ⟨rfl, hworld, rfl, fun _ => rfl⟩⟩

theorem callPair (s : Setup) (index : Nat) (a : Algorithm) (run : UInt32) {p : Progress ω}
    {p' : Progress ω'} (h : p.Agree R alike p') :
    (Sweep.callPair env s index a run p).1 = (Sweep.callPair env' s index a run p').1 ∧
      (Sweep.callPair env s index a run p).2.Agree R alike
        (Sweep.callPair env' s index a run p').2 := by
  have hnote := he.note (.calling index a run) p'.document
    (p'.outcome.pairs.modify (slot s index run) Pair.start) _ _ h.world
  obtain ⟨hstate, hheard⟩ := he.runPair s a run
    (p'.outcome.pairs.modify (slot s index run) Pair.start) p'.document hnote
  unfold Sweep.callPair
  dsimp only
  rw [h.document, h.pairs, hstate, hheard.accepted, hheard.document]
  exact ⟨rfl, rfl, he.note _ _ _ _ _ hheard.world, rfl, h.interrupted,
    fun ha => by rw [h.failures ha, hheard.failures ha]⟩

theorem runAlgorithm (s : Setup) (index : Nat) (a : Algorithm) (runs : List UInt32)
    {p : Progress ω} {p' : Progress ω'} (h : p.Agree R alike p') :
    (Sweep.runAlgorithm env s index a runs p).Agree R alike
      (Sweep.runAlgorithm env' s index a runs p') := by
  induction runs generalizing p p' with
  | nil => exact h
  | cons run runs ih =>
    obtain ⟨hstate, hcall⟩ := he.callPair s index a run h
    rw [Sweep.runAlgorithm, Sweep.runAlgorithm]
    dsimp only
    rw [hstate]
    split
    · exact ⟨hcall.document, hcall.world, hcall.pairs, rfl, hcall.failures⟩
    · exact hcall
    · exact ih hcall

theorem runAlgorithms (s : Setup) (index : Nat) (as : List Algorithm) {p : Progress ω}
    {p' : Progress ω'} (h : p.Agree R alike p') :
    (Sweep.runAlgorithms env s index as p).Agree R alike
      (Sweep.runAlgorithms env' s index as p') := by
  induction as generalizing index p p' with
  | nil => exact h
  | cons a as ih =>
    have hruns := he.runAlgorithm s index a (runNumbers s.runs) h
    rw [Sweep.runAlgorithms, Sweep.runAlgorithms, hruns.interrupted]
    split
    · exact hruns
    · exact ih (index + 1) hruns

/-- The sweeps end with the same document, the same pairs and the same word on an interrupt, in
worlds that are still related. -/
theorem run (s : Setup) (d : Document) {w : ω} {w' : ω'} (hw : R w w') :
    let r := Sweep.run env s d w
    let r' := Sweep.run env' s d w'
    Progress.Agree R alike ⟨r.2.1, r.2.2, r.1⟩ ⟨r'.2.1, r'.2.2, r'.1⟩ := by
  have hstart : Progress.Agree R alike ⟨d, w, ⟨schedule s, 0, false⟩⟩
      ⟨d, w', ⟨schedule s, 0, false⟩⟩ := ⟨rfl, hw, rfl, rfl, fun _ => rfl⟩
  exact he.flush (he.runAlgorithms s 0 s.algorithms (he.flush hstart))

end Surroundings.Agree

end CompressionSweep
