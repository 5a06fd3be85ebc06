import CompressionSweep.Call.Machine
import Mathlib.Data.List.Induction

/-! Executions of a call: any sequence of actions of the child, the reader and the consumer, of
which each is possible when its turn comes. `Moves` says once what every action asks for and does;
what holds of all executions is proved from it. -/

namespace CompressionSweep.Call.Machine

/-- An action with its result. A look at the flag and the deadline, a message and the last look at
the flag have more than one. -/
inductive Moves (m : Machine) : Action → Machine → Prop where
  | write {b : Bytes} (held : m.hasWriter = true) :
    Moves m (.write b) { m with pipe := m.pipe ++ b }
  | close : Moves m .close { m with hasWriter := false }
  | exit {status : ExitStatus} (running : m.child = .running) :
    Moves m (.exit status) { m with child := .ended status }
  | read {count : Nat} (sender : m.hasSender = true) :
    Moves m (.read count)
      { m with buffer := m.buffer ++ m.pipe.take count, pipe := m.pipe.drop count }
  | readFailure {cause : String} (sender : m.hasSender = true)
    (room : m.channel.length < capacity) :
    Moves m (.readFailure cause)
      { m with channel := m.channel ++ [.failure cause], hasSender := false }
  | seeEnd (empty : m.pipe = []) (released : m.hasWriter = false) :
    Moves m .seeEnd { m with sawEnd := true }
  | send {line rest : Bytes} (sender : m.hasSender = true) (room : m.channel.length < capacity)
    (next : m.nextMessage? = some (line, rest)) :
    Moves m .send { m with channel := m.channel ++ [.line line], buffer := rest }
  | hangUp (sawEnd : m.sawEnd = true) (nothing : m.buffer = []) :
    Moves m .hangUp { m with hasSender := false }
  | interrupt (checking : m.phase = .checking) (up : m.interrupted = true) :
    Moves m .check (m.abandon .interrupted)
  | expire {limit : Nat} (checking : m.phase = .checking) (down : m.interrupted = false)
    (limited : m.limit = some limit) (due : limit ≤ m.now - m.started) :
    Moves m .check (m.abandon (.timedOut limit))
  | listen (checking : m.phase = .checking) (down : m.interrupted = false)
    (early : m.isDue = false) :
    Moves m .check { m with phase := .receiving m.wakesAt }
  | hear {t : Nat} {b : Bytes} {rest : List Message} (receiving : m.phase = .receiving t)
    (first : m.channel = .line b :: rest) :
    Moves m .receive
      { m with
        channel := rest
        received := lineText b :: m.received
        count := m.count + 1
        phase := .checking }
  | fail {t : Nat} {cause : String} {rest : List Message} (receiving : m.phase = .receiving t)
    (first : m.channel = .failure cause :: rest) :
    Moves m .receive (({ m with channel := rest } : Machine).abandon (.input cause))
  | wake {t : Nat} (receiving : m.phase = .receiving t) (time : t ≤ m.now) :
    Moves m .wake { m with phase := .checking }
  | disconnect {t : Nat} (receiving : m.phase = .receiving t) (empty : m.channel = [])
    (gone : m.hasSender = false) :
    Moves m .disconnect { m with phase := .waiting }
  | reap {status : ExitStatus} (waiting : m.phase = .waiting)
    (ended : m.child = .ended status) :
    Moves m .reap
      { m with child := .reaped status, waits := m.waits + 1, phase := .concluding status }
  | stop {status : ExitStatus} (concluding : m.phase = .concluding status)
    (up : m.interrupted = true) :
    Moves m .conclude { m with phase := .returned (.failed .interrupted) }
  | succeed {status : ExitStatus} (concluding : m.phase = .concluding status)
    (down : m.interrupted = false) :
    Moves m .conclude { m with phase := .returned (.exited status) }
  | raise : Moves m .raise { m with interrupted := true }
  | pass {time : Nat} : Moves m (.pass time) { m with now := m.now + time }

theorem moves_of_check {m : Machine} (h : m.phase = .checking) : Moves m .check m.check := by
  unfold check
  split
  · rename_i hup
    exact .interrupt h hup
  · rename_i hup
    have hdown := Bool.eq_false_iff.mpr hup
    split
    · rename_i hdue
      cases hlimit : m.limit with
      | none => simp [isDue, hlimit] at hdue
      | some limit => exact .expire h hdown hlimit (by simpa [isDue, hlimit] using hdue)
    · rename_i hdue
      exact .listen h hdown (Bool.eq_false_iff.mpr hdue)

theorem moves_of_step {m m' : Machine} {a : Action} (h : m.step a = some m') : Moves m a m' := by
  cases a <;> rw [step] at h
  case close | raise | pass =>
    obtain rfl := Option.some.inj h
    constructor
  case write =>
    split at h
    · rename_i held
      obtain rfl := Option.some.inj h
      exact .write held
    · cases h
  case exit =>
    split at h
    · rename_i running
      obtain rfl := Option.some.inj h
      exact .exit running
    · cases h
  case read =>
    split at h
    · cases h
    · rename_i hno
      obtain rfl := Option.some.inj h
      simp only [Bool.or_eq_true, Bool.not_eq_true', not_or, Bool.not_eq_false] at hno
      exact .read hno.2
  case readFailure =>
    split at h
    · rename_i hroom
      rw [Bool.and_eq_true, decide_eq_true_eq] at hroom
      obtain rfl := Option.some.inj h
      exact .readFailure hroom.1 hroom.2
    · cases h
  case seeEnd =>
    split at h
    · rename_i hend
      rw [Bool.and_eq_true, List.isEmpty_iff, Bool.not_eq_true'] at hend
      obtain rfl := Option.some.inj h
      exact .seeEnd hend.1 hend.2
    · cases h
  case send =>
    split at h
    · rename_i hroom
      rw [Bool.and_eq_true, decide_eq_true_eq] at hroom
      obtain ⟨⟨line, rest⟩, hnext, rfl⟩ := Option.map_eq_some_iff.mp h
      exact .send hroom.1 hroom.2 hnext
    · cases h
  case hangUp =>
    split at h
    · rename_i hend
      rw [Bool.and_eq_true, List.isEmpty_iff] at hend
      obtain rfl := Option.some.inj h
      exact .hangUp hend.1 hend.2
    · cases h
  case check =>
    split at h
    · rename_i hchecking
      obtain rfl := Option.some.inj h
      exact moves_of_check hchecking
    · cases h
  case receive =>
    split at h
    · rename_i hreceiving hfirst
      rename_i message rest
      obtain rfl := Option.some.inj h
      cases message with
      | line b => exact .hear hreceiving hfirst
      | failure cause => exact .fail hreceiving hfirst
    · cases h
  case wake =>
    split at h
    · rename_i hreceiving
      split at h
      · rename_i htime
        obtain rfl := Option.some.inj h
        exact .wake hreceiving htime
      · cases h
    · cases h
  case disconnect =>
    split at h
    · rename_i hreceiving hempty
      split at h
      · cases h
      · rename_i hgone
        obtain rfl := Option.some.inj h
        exact .disconnect hreceiving hempty (Bool.eq_false_iff.mpr hgone)
    · cases h
  case reap =>
    split at h
    · rename_i hwaiting hended
      obtain rfl := Option.some.inj h
      exact .reap hwaiting hended
    · cases h
  case conclude =>
    split at h
    · rename_i hconcluding
      obtain rfl := Option.some.inj h
      by_cases hup : m.interrupted = true
      · rw [if_pos hup]
        exact .stop hconcluding hup
      · rw [if_neg hup]
        exact .succeed hconcluding (Bool.eq_false_iff.mpr hup)
    · cases h

/-- The state after some actions, if they are possible in this order. -/
def after (m : Machine) (as : List Action) : Option Machine :=
  as.foldlM step m

theorem after_append {m m' : Machine} {as bs : List Action} :
    m.after (as ++ bs) = some m' ↔ ∃ m₁, m.after as = some m₁ ∧ m₁.after bs = some m' := by
  unfold after
  rw [List.foldlM_append]
  exact Option.bind_eq_some_iff

theorem after_singleton {m m' : Machine} {a : Action} :
    m.after [a] = some m' ↔ m.step a = some m' := by
  simp only [after, List.foldlM_cons, List.foldlM_nil, bind_pure]

/-- What holds at the start, and after a further action if it held before it, holds of every
execution. -/
theorem after_induction {P : List Action → Machine → Prop} {m m' : Machine} {as : List Action}
    (h : m.after as = some m') (start : P [] m)
    (moves : ∀ as m₁ a m₂, P as m₁ → Moves m₁ a m₂ → P (as ++ [a]) m₂) : P as m' := by
  induction as using List.reverseRecOn generalizing m' with
  | nil => exact Option.some.inj h ▸ start
  | append_singleton as a ih =>
    obtain ⟨m₁, has, ha⟩ := after_append.mp h
    exact moves as m₁ a m' (ih has) (moves_of_step (after_singleton.mp ha))

theorem after_keeps {P : Machine → Prop} {m m' : Machine} {as : List Action}
    (h : m.after as = some m') (start : P m)
    (moves : ∀ m₁ a m₂, P m₁ → Moves m₁ a m₂ → P m₂) : P m' :=
  after_induction h start (fun _ m₁ a m₂ => moves m₁ a m₂)

theorem Moves.interrupted {m m' : Machine} {a : Action} (h : Moves m a m')
    (hup : m.interrupted = true) : m'.interrupted = true := by
  cases h with
  | raise => rfl
  | _ => exact hup

theorem Moves.checking {m m' : Machine} {a : Action} (h : Moves m a m')
    (hphase : m.phase = .checking) : a = .check ∨ m'.phase = .checking ∧ m'.lines = m.lines := by
  cases h with
  | interrupt => exact .inl rfl
  | expire => exact .inl rfl
  | listen => exact .inl rfl
  | hear receiving => cases hphase.symm.trans receiving
  | fail receiving => cases hphase.symm.trans receiving
  | wake receiving => cases hphase.symm.trans receiving
  | disconnect receiving => cases hphase.symm.trans receiving
  | reap waiting => cases hphase.symm.trans waiting
  | stop concluding => cases hphase.symm.trans concluding
  | succeed concluding => cases hphase.symm.trans concluding
  | _ => exact .inr ⟨hphase, rfl⟩

theorem Moves.returned {m m' : Machine} {a : Action} {e : Ending} (h : Moves m a m')
    (hphase : m.phase = .returned e) : m'.phase = .returned e ∧ m'.lines = m.lines := by
  cases h with
  | interrupt checking => cases hphase.symm.trans checking
  | expire checking => cases hphase.symm.trans checking
  | listen checking => cases hphase.symm.trans checking
  | hear receiving => cases hphase.symm.trans receiving
  | fail receiving => cases hphase.symm.trans receiving
  | wake receiving => cases hphase.symm.trans receiving
  | disconnect receiving => cases hphase.symm.trans receiving
  | reap waiting => cases hphase.symm.trans waiting
  | stop concluding => cases hphase.symm.trans concluding
  | succeed concluding => cases hphase.symm.trans concluding
  | _ => exact ⟨hphase, rfl⟩

theorem returned_after {m m' : Machine} {as : List Action} {e : Ending}
    (h : m.after as = some m') (hphase : m.phase = .returned e) :
    m'.phase = .returned e ∧ m'.lines = m.lines :=
  after_keeps (P := fun m₁ => m₁.phase = .returned e ∧ m₁.lines = m.lines) h ⟨hphase, rfl⟩
    (fun _ _ _ hkept hm =>
      ⟨(hm.returned hkept.1).1, (hm.returned hkept.1).2.trans hkept.2⟩)

theorem Moves.lines_prefix {m m' : Machine} {a : Action} (h : Moves m a m') :
    m.lines <+: m'.lines := by
  cases h with
  | @hear t b =>
    refine ⟨[lineText b], ?_⟩
    exact List.reverse_cons.symm
  | _ => exact List.prefix_refl _

end CompressionSweep.Call.Machine
