import CompressionSweep.Proofs.Sweep.Record

/-! What a sweep keeps true of its document and its world, from the events, the answers and the
writes of single measurements to all of its calls. -/

namespace CompressionSweep

open Sweep

variable {ω : Type}

/-- A property of the document and the world that no step between two flushes breaks. -/
structure Sweep.Keeps (env : Surroundings ω) (P : Document → ω → Prop) : Prop where
  calling : ∀ index a run d pairs w, P d w → P d (env.note (.calling index a run) d pairs w)
  called : ∀ a run state summary d pairs w, P d w →
    P d (env.note (.called a run state summary) d pairs w)
  answer : ∀ i d w, P d w → P d (env.answer i w).2
  accept : ∀ line m a run d pairs w, env.extract line = some m → P d w →
    P (d.append a.name run m)
      (env.persist (d.append a.name run m) (env.note (.parsed a run m) d pairs w)).2

namespace Sweep.Keeps

variable {env : Surroundings ω} {P : Document → ω → Prop} (h : Keeps env P)

include h

theorem hear (a : Algorithm) (run : UInt32) (pairs : List Pair) (lines : List String)
    {g : Hearing ω} (hg : P g.document g.world) :
    let g' := lines.foldl (Sweep.hear env a run pairs) g
    P g'.document g'.world := by
  induction lines generalizing g with
  | nil => exact hg
  | cons line lines ih =>
    rw [List.foldl_cons]
    apply ih
    cases hm : env.extract line with
    | none => rwa [hear_of_none hm]
    | some m =>
      rw [hear_of_some hm]
      exact h.accept line m a run g.document pairs g.world hm hg

theorem callPair (s : Setup) (index : Nat) (a : Algorithm) (run : UInt32) {p : Progress ω}
    (hp : P p.document p.world) :
    let p' := (Sweep.callPair env s index a run p).2
    P p'.document p'.world := by
  apply h.called
  apply h.hear
  apply h.answer
  exact h.calling _ _ _ _ _ _ hp

theorem runAlgorithm (s : Setup) (index : Nat) (a : Algorithm) (runs : List UInt32)
    {p : Progress ω} (hp : P p.document p.world) :
    let p' := Sweep.runAlgorithm env s index a runs p
    P p'.document p'.world := by
  induction runs generalizing p with
  | nil => exact hp
  | cons run runs ih =>
    have hcall := h.callPair s index a run hp
    rw [Sweep.runAlgorithm]
    dsimp only
    split
    · exact hcall
    · exact hcall
    · exact ih hcall

theorem runAlgorithms (s : Setup) (index : Nat) (as : List Algorithm) {p : Progress ω}
    (hp : P p.document p.world) :
    let p' := Sweep.runAlgorithms env s index as p
    P p'.document p'.world := by
  induction as generalizing index p with
  | nil => exact hp
  | cons a as ih =>
    have hruns := h.runAlgorithm s index a (runNumbers s.runs) hp
    rw [Sweep.runAlgorithms]
    dsimp only
    split
    · exact hruns
    · exact ih (index + 1) hruns

theorem run (flush : ∀ d w, P d w → P d (env.persist d w).2) (s : Setup) {d : Document} {w : ω}
    (hw : P d w) :
    let r := Sweep.run env s d w
    P r.2.1 r.2.2 := by
  apply flush
  apply h.runAlgorithms
  exact flush d w hw

end Sweep.Keeps

end CompressionSweep
