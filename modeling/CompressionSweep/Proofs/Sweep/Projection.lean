import CompressionSweep.Proofs.Sweep.Agreement

/-! Surroundings that remember more make for the same sweep. -/

namespace CompressionSweep

open Sweep

variable {ω ω' : Type}

/-- The surroundings `env'` do what `env` do to the part of the world that `f` keeps. -/
structure Surroundings.Projects (f : ω' → ω) (env' : Surroundings ω') (env : Surroundings ω) :
    Prop where
  answer : ∀ i w, (env'.answer i w).1 = (env.answer i (f w)).1 ∧
    f (env'.answer i w).2 = (env.answer i (f w)).2
  persist : ∀ d w, (env'.persist d w).1 = (env.persist d (f w)).1 ∧
    f (env'.persist d w).2 = (env.persist d (f w)).2
  extract : env'.extract = env.extract
  note : ∀ e d pairs w, f (env'.note e d pairs w) = env.note e d pairs (f w)

theorem Surroundings.Projects.agree {f : ω' → ω} {env' : Surroundings ω'} {env : Surroundings ω}
    (hp : env'.Projects f env) : env'.Agree (fun w' w => f w' = w) True env where
  answer i w' _ hw := hw ▸ hp.answer i w'
  persist d w' _ hw := hw ▸ ⟨fun _ => (hp.persist d w').1, (hp.persist d w').2⟩
  extract := hp.extract
  note e d pairs w' _ hw := hw ▸ hp.note e d pairs w'

theorem run_mapWorld {f : ω' → ω} {env' : Surroundings ω'} {env : Surroundings ω}
    (hp : env'.Projects f env) (s : Setup) (d : Document) (w : ω') :
    run env s d (f w) = ((run env' s d w).1, (run env' s d w).2.1, f (run env' s d w).2.2) := by
  have h := hp.agree.run s d (Eq.refl (f w))
  have houtcome := h.outcome trivial
  obtain ⟨hdocument, hworld, -, -, -⟩ := h
  dsimp only at houtcome hdocument hworld
  rw [houtcome, hdocument, hworld]

end CompressionSweep
