import CompressionSweep.Proofs.Call.Execution

/-! What has become of the child of a call. It is waited for once, at the very end, and no call
returns before. -/

namespace CompressionSweep.Call

/-- The child has not been waited for yet. -/
def Phase.IsBeforeWait : Phase → Prop
  | .checking | .receiving _ | .waiting => True
  | .concluding _ | .returned _ => False

namespace Machine

def IsReaped (m : Machine) : Prop :=
  m.waits = 1 ∧ ∃ status, m.child = .reaped status

structure Attended (m : Machine) : Prop where
  before : m.phase.IsBeforeWait → m.waits = 0 ∧ ∀ status, m.child ≠ .reaped status
  behind : ¬ m.phase.IsBeforeWait → m.IsReaped
  /-- The status that is told is the one of the child. -/
  told : ∀ status, m.phase = .concluding status ∨ m.phase = .returned (.exited status) →
    m.child = .reaped status

theorem attended_start (now : Nat) (limit : Option Nat) (interrupted : Bool) :
    (start now limit interrupted).Attended :=
  ⟨fun _ => ⟨rfl, nofun⟩, fun h => absurd trivial h, fun _ h => h.elim nofun nofun⟩

variable {m m' : Machine} {a : Action}

theorem Attended.abandon (h : m.Attended) (hphase : m.phase.IsBeforeWait) (e : RunnerError) :
    (m.abandon e).Attended := by
  obtain ⟨hwaits, hchild⟩ := h.before hphase
  refine ⟨False.elim, fun _ => ⟨congrArg (· + 1) hwaits, ?_⟩, fun _ h => h.elim nofun nofun⟩
  unfold Machine.abandon
  dsimp only
  cases hc : m.child with
  | running => exact ⟨none, rfl⟩
  | ended status => exact ⟨status, rfl⟩
  | reaped status => exact absurd hc (hchild status)

theorem Attended.goOn (h : m.Attended) (hphase : m.phase.IsBeforeWait)
    (hphase' : m'.phase.IsBeforeWait) (hwaits : m'.waits = m.waits) (hchild : m'.child = m.child) :
    m'.Attended := by
  refine ⟨fun _ => hwaits ▸ hchild ▸ h.before hphase, fun hno => absurd hphase' hno, ?_⟩
  rintro status (hs | hs) <;> rw [hs] at hphase' <;> exact hphase'.elim

theorem Moves.attended (hm : Moves m a m') (h : m.Attended) : m'.Attended := by
  cases hm with
  | exit running =>
    -- A child that has been waited for does not run any more.
    refine ⟨fun hphase => ⟨(h.before hphase).1, nofun⟩, fun hphase => ?_, fun status hs => ?_⟩
    · obtain ⟨-, status, hchild⟩ := h.behind hphase
      cases running.symm.trans hchild
    · cases running.symm.trans (h.told status hs)
  | interrupt checking => exact h.abandon (by rw [checking]; trivial) _
  | expire checking => exact h.abandon (by rw [checking]; trivial) _
  | @fail t cause rest receiving first =>
    have hrest : ({ m with channel := rest } : Machine).Attended := ⟨h.before, h.behind, h.told⟩
    exact hrest.abandon (by rw [receiving]; trivial) _
  | listen checking => exact h.goOn (by rw [checking]; trivial) trivial rfl rfl
  | hear receiving => exact h.goOn (by rw [receiving]; trivial) trivial rfl rfl
  | wake receiving => exact h.goOn (by rw [receiving]; trivial) trivial rfl rfl
  | disconnect receiving => exact h.goOn (by rw [receiving]; trivial) trivial rfl rfl
  | @reap status waiting =>
    have hphase : m.phase.IsBeforeWait := by rw [waiting]; trivial
    refine ⟨False.elim, fun _ => ⟨congrArg (· + 1) (h.before hphase).1, status, rfl⟩, ?_⟩
    rintro status' (hs | hs) <;> cases hs
    rfl
  | @stop status concluding =>
    have hphase : ¬ m.phase.IsBeforeWait := by rw [concluding]; exact id
    exact ⟨False.elim, fun _ => h.behind hphase, fun _ h => h.elim nofun nofun⟩
  | @succeed status concluding =>
    have hphase : ¬ m.phase.IsBeforeWait := by rw [concluding]; exact id
    refine ⟨False.elim, fun _ => h.behind hphase, ?_⟩
    rintro status' (hs | hs) <;> cases hs
    exact h.told status (.inl concluding)
  | _ => exact ⟨h.before, h.behind, h.told⟩

theorem attended_after {as : List Action} (h : m.after as = some m') (hm : m.Attended) :
    m'.Attended :=
  after_keeps h hm (fun _ _ _ h hm => hm.attended h)

/-- The call has returned, and its child is left as it should be. -/
structure IsDone (m : Machine) : Prop where
  attended : m.Attended
  returned : ∃ e, m.phase = .returned e

theorem IsDone.after {as : List Action} (hm : m.IsDone) (h : m.after as = some m') :
    m'.IsDone := by
  obtain ⟨e, he⟩ := hm.returned
  exact ⟨attended_after h hm.attended, e, (returned_after h he).1⟩

theorem IsDone.isReaped (h : m.IsDone) : m.IsReaped := by
  obtain ⟨e, he⟩ := h.returned
  exact h.attended.behind (by rw [he]; exact id)

theorem isDone_of_returned {now : Nat} {limit : Option Nat} {interrupted : Bool}
    {as : List Action} {e : Ending} (h : (start now limit interrupted).after as = some m)
    (hphase : m.phase = .returned e) : m.IsDone :=
  ⟨attended_after h (attended_start now limit interrupted), e, hphase⟩

end Machine

end CompressionSweep.Call
