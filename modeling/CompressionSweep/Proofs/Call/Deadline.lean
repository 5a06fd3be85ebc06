import CompressionSweep.Proofs.Call.Child
import CompressionSweep.Proofs.Call.Course
import CompressionSweep.Proofs.Call.Delivery

/-! How far the limit of a call binds its child. It is looked at only between the lines, so it
binds a child as long as somebody holds the pipe, and no longer. -/

namespace CompressionSweep.Call.Machine

variable {limit : Nat} {m m' : Machine} {a : Action}

/-- A call whose child has let go of the pipe at once and is still running. -/
def silent (limit now : Nat) : Machine :=
  { start now (some limit) false with
    started := 0, hasWriter := false, sawEnd := true, hasSender := false, phase := .waiting }

theorem silent_reached (hlimit : 0 < limit) (t : Nat) :
    (start 0 (some limit) false).after
      [.check, .close, .seeEnd, .hangUp, .disconnect, .pass t] = some (silent limit t) := by
  have hearly : ¬ limit = 0 := Nat.ne_of_gt hlimit
  simp [after, step, check, isDue, start, silent, hearly]

theorem run_silent {t : Nat} (hlimit : 0 < limit) (ht : 0 < t) (status : ExitStatus) :
    run [(0, .close), (t, .exit status)] (some limit) .never =
      { silent limit t with
        child := .reaped status, waits := 1, phase := .returned (.exited status) } := by
  have hearly : ¬ limit = 0 := Nat.ne_of_gt hlimit
  have hsleeps : ¬ min limit pollInterval ≤ 0 := by
    simp only [pollInterval]
    omega
  have hlater : ¬ t = 0 := Nat.ne_of_gt ht
  have hfuel : 10 ≤ Course.fuelFor [(0, .close), (t, .exit status)] :=
    Nat.le_trans (by decide) (Course.le_fuelFor _)
  obtain ⟨n, hn⟩ := Nat.exists_eq_add_of_le' hfuel
  rw [run, hn]
  simp [Course.follow, Course.isOver, Course.next?, Course.readerAction?, Course.consumerAction?,
    Course.nextTime?, Interrupt.isDue, Interrupt.time?, Deed.action, step, check, isDue, wakesAt,
    nextMessage?, firstLine?, start, silent, hearly, hsleeps, hlater]

/-- Once the output has ended nobody looks at the limit: a child that lets go of the pipe at once
and exits at any later time is waited for, whatever the limit is. -/
theorem run_outlasts_limit (limit t : Nat) (hlimit : 0 < limit) (ht : 0 < t)
    (status : ExitStatus) :
    let m := run [(0, .close), (t, .exit status)] (some limit) .never
    m.phase = .returned (.exited status) ∧
    ∃ as₁ m₁ as₂, (start 0 (some limit) false).after as₁ = some m₁ ∧ m₁.child = .running ∧
      m₁.started = 0 ∧ m₁.now = t ∧ m₁.after as₂ = some m := by
  rw [run_silent hlimit ht status]
  exact ⟨rfl, _, _, [.exit status, .reap, .conclude], silent_reached hlimit t, rfl, rfl, rfl, rfl⟩

/-- The child of a call with a limit of two tenths of a second exits after a second, and the call
tells its exit code. -/
theorem run_outlasts_limit_sample :
    let m := run [(0, .close), (1000000000, .exit (some 0))] (some 200000000) .never
    m.phase = .returned (.exited (some 0)) ∧
    ∃ as₁ m₁ as₂, (start 0 (some 200000000) false).after as₁ = some m₁ ∧
      m₁.child = .running ∧ m₁.started + 200000000 + pollInterval < m₁.now ∧
      m₁.after as₂ = some m := by
  obtain ⟨hphase, as₁, m₁, as₂, h₁, hrunning, hstarted, hnow, h₂⟩ :=
    run_outlasts_limit 200000000 1000000000 (by decide) (by decide) (some 0)
  refine ⟨hphase, as₁, m₁, as₂, h₁, hrunning, ?_, h₂⟩
  rw [hstarted, hnow]
  decide

structure Timed (limit : Nat) (m : Machine) : Prop where
  limited : m.limit = some limit
  started : m.started ≤ m.now
  /-- The consumer never means to sleep beyond the limit. -/
  wakes : ∀ t, m.phase = .receiving t → t ≤ m.started + limit

theorem timed_start (now : Nat) (interrupted : Bool) :
    (start now (some limit) interrupted).Timed limit :=
  ⟨rfl, Nat.le_refl now, nofun⟩

theorem wakesAt_le (h : m.Timed limit) (hearly : m.isDue = false) :
    m.wakesAt ≤ m.started + limit := by
  have hstarted := h.started
  simp only [isDue, h.limited, decide_eq_false_iff_not, not_le] at hearly
  simp only [wakesAt, h.limited]
  omega

theorem Moves.timed (hm : Moves m a m') (h : m.Timed limit) : m'.Timed limit := by
  cases hm with
  | listen checking down early =>
    refine ⟨h.limited, h.started, fun t ht => ?_⟩
    obtain rfl := Phase.receiving.inj ht
    exact wakesAt_le h early
  | pass => exact ⟨h.limited, Nat.le_add_right_of_le h.started, h.wakes⟩
  | interrupt => exact ⟨h.limited, h.started, nofun⟩
  | expire => exact ⟨h.limited, h.started, nofun⟩
  | hear => exact ⟨h.limited, h.started, nofun⟩
  | fail => exact ⟨h.limited, h.started, nofun⟩
  | wake => exact ⟨h.limited, h.started, nofun⟩
  | disconnect => exact ⟨h.limited, h.started, nofun⟩
  | reap => exact ⟨h.limited, h.started, nofun⟩
  | stop => exact ⟨h.limited, h.started, nofun⟩
  | succeed => exact ⟨h.limited, h.started, nofun⟩
  | _ => exact ⟨h.limited, h.started, h.wakes⟩

theorem timed_after {as : List Action} (h : m.after as = some m') (hm : m.Timed limit) :
    m'.Timed limit :=
  after_keeps h hm (fun _ _ _ hm h => h.timed hm)

/-- The call has failed, or the next look at the clock makes it fail. -/
def GivesUp (m : Machine) : Prop :=
  (∃ e, m.phase = .returned (.failed e)) ∨ m.phase = .checking ∧ m.isDue = true

theorem Moves.isDue (hm : Moves m a m') (h : m.isDue = true) : m'.isDue = true := by
  cases hm with
  | pass =>
    unfold Machine.isDue at h ⊢
    split
    · rename_i limit hlimit
      rw [hlimit, decide_eq_true_eq] at h
      simp only [decide_eq_true_eq]
      omega
    · rename_i hlimit
      rw [hlimit] at h
      cases h
  | _ => exact h

theorem Moves.givesUp (hm : Moves m a m') (h : m.GivesUp) : m'.GivesUp := by
  rcases h with ⟨e, hphase⟩ | ⟨hphase, hdue⟩
  · exact .inl ⟨e, (hm.returned hphase).1⟩
  · rcases hm.checking hphase with rfl | ⟨hphase', -⟩
    · cases hm with
      | interrupt => exact .inl ⟨_, rfl⟩
      | expire => exact .inl ⟨_, rfl⟩
      | listen checking down early => cases hdue.symm.trans early
    · exact .inr ⟨hphase', hm.isDue hdue⟩

theorem givesUp_after {as : List Action} (h : m.after as = some m') (hm : m.GivesUp) :
    m'.GivesUp :=
  after_keeps h hm (fun _ _ _ hm h => h.givesUp hm)

/-- What the limit of a call does, in any order of actions. If the child is still running when more
than the limit has passed, and more than the consumer has overslept, and the call then tells how
the child ended, the consumer was at that moment waiting for the child: nobody held the pipe any
more and all lines of the output had been handed on. -/
theorem overrun_is_past_output {now slack : Nat} {interrupted : Bool} {as₁ as₂ : List Action}
    {m₁ : Machine} {status : ExitStatus}
    (h₁ : (start now (some limit) interrupted).after as₁ = some m₁)
    (hrunning : m₁.child = .running) (hlate : m₁.started + limit + slack < m₁.now)
    (hwakes : ∀ t, m₁.phase = .receiving t → m₁.now ≤ t + slack)
    (h₂ : m₁.after as₂ = some m) (hexited : m.phase = .returned (.exited status)) :
    m₁.phase = .waiting ∧ m₁.hasWriter = false ∧
      m₁.lines = (linesOf (output as₁)).map lineText := by
  have htimed := timed_after h₁ (timed_start now interrupted)
  have hattended := attended_after h₁ (attended_start now (some limit) interrupted)
  have hflow := flow_after h₁
  have hreaped : ¬ m₁.phase.IsBeforeWait → False := fun hno => by
    obtain ⟨-, status, hchild⟩ := hattended.behind hno
    cases hrunning.symm.trans hchild
  have hwaiting : m₁.phase = .waiting := by
    cases hphase : m₁.phase with
    | checking =>
      have hdue : m₁.isDue = true := by
        simp only [isDue, htimed.limited, decide_eq_true_eq]
        omega
      rcases givesUp_after h₂ (.inr ⟨hphase, hdue⟩) with ⟨e, he⟩ | ⟨he, -⟩ <;>
        cases hexited.symm.trans he
    | receiving t =>
      -- It meant to wake up by the limit and has not overslept so much.
      have hmeant := htimed.wakes t hphase
      have hslept := hwakes t hphase
      omega
    | waiting => rfl
    | concluding status => exact (hreaped (by rw [hphase]; exact id)).elim
    | returned e => exact (hreaped (by rw [hphase]; exact id)).elim
  have hpast : m₁.phase.IsPastOutput := by rw [hwaiting]; trivial
  exact ⟨hwaiting, (hflow.ended (hflow.drained hpast).2.2.1).2, hflow.lines_eq hpast⟩

theorem overrun_is_past_output_sample :
    (silent 200000000 1000000000).started + 200000000 + pollInterval <
        (silent 200000000 1000000000).now ∧
      (silent 200000000 1000000000).hasWriter = false := by
  have hlate : (silent 200000000 1000000000).started + 200000000 + pollInterval <
    (silent 200000000 1000000000).now := by decide
  have h₂ : (silent 200000000 1000000000).after [.exit (some 0), .reap, .conclude] = some _ := rfl
  exact ⟨hlate, (overrun_is_past_output (silent_reached (by decide) 1000000000) rfl hlate nofun h₂
    rfl).2.1⟩

end CompressionSweep.Call.Machine
