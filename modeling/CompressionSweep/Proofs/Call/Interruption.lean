import CompressionSweep.Proofs.Call.Execution

/-! What a call does once the interrupt flag is up. -/

namespace CompressionSweep.Call.Machine

/-- The call has returned because of the flag, or this is all that the consumer can still do. -/
def StopsNext (m : Machine) : Prop :=
  m.phase = .returned (.failed .interrupted) ∨
    m.phase = .checking ∧ ∃ m', m.step .check = some m' ∧
      m'.phase = .returned (.failed .interrupted)

variable {m m' : Machine} {a : Action}

theorem stopsNext_iff : m.StopsNext ↔
    m.phase = .returned (.failed .interrupted) ∨ m.phase = .checking ∧ m.interrupted = true := by
  refine or_congr_right (and_congr_right (fun hphase => ⟨?_, fun hup => ?_⟩))
  · rintro ⟨m', hstep, hphase'⟩
    have hm := moves_of_step hstep
    cases hm with
    | interrupt checking up => exact up
    | expire => cases hphase'
    | listen => cases hphase'
  · exact ⟨m.abandon .interrupted, by rw [step, if_pos hphase, check, if_pos hup], rfl⟩

theorem Moves.stopsNext (hm : Moves m a m') (h : m.StopsNext) :
    m'.StopsNext ∧ m'.lines = m.lines := by
  rw [stopsNext_iff] at h ⊢
  rcases h with hphase | ⟨hphase, hup⟩
  · obtain ⟨hphase', hlines⟩ := hm.returned hphase
    exact ⟨.inl hphase', hlines⟩
  · rcases hm.checking hphase with rfl | ⟨hphase', hlines⟩
    · cases hm with
      | interrupt => exact ⟨.inl rfl, rfl⟩
      | expire checking down => cases hup.symm.trans down
      | listen checking down => cases hup.symm.trans down
    · exact ⟨.inr ⟨hphase', hm.interrupted hup⟩, hlines⟩

theorem stopsNext_after {as : List Action} (h : m.after as = some m') (hm : m.StopsNext) :
    m'.StopsNext ∧ m'.lines = m.lines :=
  after_keeps (P := fun m₁ => m₁.StopsNext ∧ m₁.lines = m.lines) h ⟨hm, rfl⟩
    (fun _ _ _ hkept hm => ⟨(hm.stopsNext hkept.1).1, (hm.stopsNext hkept.1).2.trans hkept.2⟩)

theorem stopsNext_of_raised {now : Nat} {limit : Option Nat} {as : List Action}
    (h : (start now limit true).after as = some m) : m.lines = [] ∧ m.StopsNext :=
  (stopsNext_after h (stopsNext_iff.mpr (.inr ⟨rfl, rfl⟩))).symm

theorem interrupted_after {as : List Action} (h : m.after as = some m')
    (hup : m.interrupted = true) : m'.interrupted = true :=
  after_keeps h hup (fun _ _ _ hup hm => hm.interrupted hup)

theorem checking_after {as : List Action} (h : m.after as = some m') (hphase : m.phase = .checking)
    (has : .check ∉ as) : m'.phase = .checking ∧ m'.lines = m.lines := by
  refine after_induction
    (P := fun as m₁ => .check ∉ as → m₁.phase = .checking ∧ m₁.lines = m.lines) h
    (fun _ => ⟨hphase, rfl⟩) (fun as m₁ a m₂ hkept hm hno => ?_) has
  simp only [List.mem_append, List.mem_singleton, not_or] at hno
  obtain ⟨hchecking, hlines⟩ := hkept hno.1
  obtain ⟨hchecking', hlines'⟩ := (hm.checking hchecking).resolve_left (fun ha => hno.2 ha.symm)
  exact ⟨hchecking', hlines'.trans hlines⟩

theorem raised_in_handling {m₀ m₁ : Machine} {line : String} {as as' : List Action}
    (hstep : m₀.step .receive = some m₁) (hline : m₁.lines = m₀.lines ++ [line])
    (has : .check ∉ as) (h : m₁.after (as ++ .raise :: as') = some m) :
    m.lines = m₁.lines ∧ m.StopsNext := by
  have hchecking : m₁.phase = .checking := by
    have hm := moves_of_step hstep
    cases hm with
    | hear => rfl
    | fail =>
      -- A failure hands on no line.
      have hlength := congrArg List.length hline
      simp [lines, abandon] at hlength
  obtain ⟨m₂, h₂, h₃⟩ := after_append.mp h
  obtain ⟨hchecking₂, hlines₂⟩ := checking_after h₂ hchecking has
  obtain ⟨m₃, hraise, h₄⟩ := after_append.mp (List.singleton_append ▸ h₃)
  have hup : m₃.phase = .checking ∧ m₃.interrupted = true ∧ m₃.lines = m₂.lines := by
    obtain rfl := Option.some.inj (after_singleton.mp hraise)
    exact ⟨hchecking₂, rfl, rfl⟩
  obtain ⟨hstops, hlines⟩ := stopsNext_after h₄ (stopsNext_iff.mpr (.inr ⟨hup.1, hup.2.1⟩))
  exact ⟨hlines.trans (hup.2.2.trans hlines₂), hstops⟩

theorem Moves.exited (hm : Moves m a m') {status : ExitStatus}
    (h : m'.phase = .returned (.exited status)) :
    m.phase = .returned (.exited status) ∨ a = .conclude ∧ m.interrupted = false := by
  cases hm with
  | succeed concluding down => exact .inr ⟨rfl, down⟩
  | interrupt => cases h
  | expire => cases h
  | listen => cases h
  | hear => cases h
  | fail => cases h
  | wake => cases h
  | disconnect => cases h
  | reap => cases h
  | stop => cases h
  | _ => exact .inl h

theorem Moves.down (hm : Moves m a m') (h : m'.interrupted = false) :
    m.interrupted = false ∧ a ≠ .raise := by
  cases hm with
  | raise => cases h
  | _ => exact ⟨h, nofun⟩

theorem raise_not_mem {as : List Action} (h : m.after as = some m')
    (hdown : m'.interrupted = false) : m.interrupted = false ∧ .raise ∉ as := by
  refine after_induction
    (P := fun as m₁ => m₁.interrupted = false → m.interrupted = false ∧ .raise ∉ as) h
    (fun hdown => ⟨hdown, List.not_mem_nil⟩) (fun as m₁ a m₂ hkept hm hdown => ?_) hdown
  obtain ⟨hdown₁, hne⟩ := hm.down hdown
  obtain ⟨hstart, has⟩ := hkept hdown₁
  refine ⟨hstart, fun hmem => ?_⟩
  rcases List.mem_append.mp hmem with hmem | hmem
  · exact has hmem
  · exact hne (List.mem_singleton.mp hmem).symm

/-- A call tells how the child ended only if its last look at the flag came before the raise. -/
theorem concluded_before_raise {now : Nat} {limit : Option Nat} {interrupted : Bool}
    {as : List Action} {status : ExitStatus}
    (h : (start now limit interrupted).after as = some m)
    (hphase : m.phase = .returned (.exited status)) :
    interrupted = false ∧ ∃ as₁ as₂, as = as₁ ++ .conclude :: as₂ ∧ .raise ∉ as₁ := by
  induction as using List.reverseRecOn generalizing m with
  | nil => cases Option.some.inj h ▸ hphase
  | append_singleton as a ih =>
    obtain ⟨m₁, has, ha⟩ := after_append.mp h
    rcases (moves_of_step (after_singleton.mp ha)).exited hphase with hphase₁ | ⟨rfl, hdown⟩
    · obtain ⟨hstart, as₁, as₂, rfl, hno⟩ := ih has hphase₁
      exact ⟨hstart, as₁, as₂ ++ [a], by rw [List.append_assoc, List.cons_append], hno⟩
    · obtain ⟨hstart, hno⟩ := raise_not_mem has hdown
      exact ⟨hstart, as, [], rfl, hno⟩

end CompressionSweep.Call.Machine
