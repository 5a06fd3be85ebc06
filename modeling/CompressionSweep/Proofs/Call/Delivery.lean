import CompressionSweep.Proofs.Call.Execution
import CompressionSweep.Proofs.Call.Lines

/-! Which lines of the output of a child a call hands on, and when it has handed on all of them. -/

namespace CompressionSweep.Call

def Action.output : Action → Bytes
  | .write b => b
  | _ => []

/-- What is written in the course of some actions, by whoever holds the pipe. -/
def output (as : List Action) : Bytes :=
  as.flatMap Action.output

theorem output_append (as bs : List Action) : output (as ++ bs) = output as ++ output bs :=
  List.flatMap_append

def Message.line? : Message → Option Bytes
  | .line b => some b
  | .failure _ => none

namespace Phase

def IsListening : Phase → Prop
  | .checking | .receiving _ => True
  | _ => False

/-- The consumer has seen the end of the output, and no reason to give up. -/
def IsPastOutput : Phase → Prop
  | .waiting | .concluding _ | .returned (.exited _) => True
  | _ => False

end Phase

namespace Machine

/-- The reader has seen the end of the output only if nothing more can come. -/
def EndIsFinal (m : Machine) : Prop :=
  m.sawEnd = true → m.pipe = [] ∧ m.hasWriter = false

/-- However the output `out` goes on, its lines are those that have been handed on, those in the
channel, and those of what is left in the reader and in the pipe. -/
def Accounts (out : Bytes) (m : Machine) : Prop :=
  ∀ more, (m.sawEnd = true → more = []) →
    (linesOf (out ++ more)).map lineText = m.lines ++
      (m.channel.filterMap Message.line? ++ linesOf (m.buffer ++ m.pipe ++ more)).map lineText

/-- A reader that is gone has passed on everything, or a failure that is still to be received. -/
def PassesOn (m : Machine) : Prop :=
  m.phase.IsListening → m.hasSender = false →
    m.sawEnd = true ∧ m.buffer = [] ∨ ∃ cause, .failure cause ∈ m.channel

def IsDrained (m : Machine) : Prop :=
  m.phase.IsPastOutput →
    m.channel = [] ∧ m.hasSender = false ∧ m.sawEnd = true ∧ m.buffer = []

variable {out : Bytes} {m m' : Machine} {a : Action}

theorem Moves.endIsFinal (hm : Moves m a m') (h : m.EndIsFinal) : m'.EndIsFinal := by
  cases hm with
  | write held =>
    intro hend
    rw [(h hend).2] at held
    cases held
  | close => exact fun hend => ⟨(h hend).1, rfl⟩
  | @read count sender =>
    intro hend
    obtain ⟨hpipe, hheld⟩ := h hend
    exact ⟨by simp only [hpipe, List.drop_nil], hheld⟩
  | seeEnd empty released => exact fun _ => ⟨empty, released⟩
  | _ => exact h

theorem linesOf_nextMessage? {line rest : Bytes} (h : m.nextMessage? = some (line, rest))
    (hend : m.EndIsFinal) (more : Bytes) (hmore : m.sawEnd = true → more = []) :
    linesOf (m.buffer ++ m.pipe ++ more) = line :: linesOf (rest ++ m.pipe ++ more) := by
  unfold nextMessage? at h
  split at h
  · rename_i p hfirst
    obtain rfl := Option.some.inj h
    obtain ⟨text, htext, rfl, hbuffer⟩ := firstLine?_eq_some hfirst
    simp only [hbuffer, List.append_assoc, List.cons_append, linesOf_line htext]
  · rename_i hnone
    split at h
    · rename_i hlast
      obtain ⟨rfl, rfl⟩ := Prod.mk.inj (Option.some.inj h)
      simp only [Bool.and_eq_true, Bool.not_eq_true', List.isEmpty_eq_false_iff] at hlast
      rw [(hend hlast.1).1, hmore hlast.1, List.append_nil, List.append_nil,
        linesOf_unended (firstLine?_eq_none hnone) hlast.2]
      rfl
    · cases h

theorem Moves.accounts (hm : Moves m a m') (hend : m.EndIsFinal) (h : m.Accounts out) :
    m'.Accounts (out ++ a.output) := by
  cases hm with
  | @write b held =>
    intro more _
    -- Somebody holds the pipe, so its end cannot have been seen.
    have hopen : m.sawEnd = true → b ++ more = [] := fun hsaw => by
      rw [(hend hsaw).2] at held
      cases held
    simpa only [Action.output, lines, List.append_assoc] using h (b ++ more) hopen
  | @read count sender =>
    intro more hmore
    have hlines := h more hmore
    rw [← List.take_append_drop count m.pipe, ← List.append_assoc] at hlines
    simpa only [Action.output, lines, List.append_nil] using hlines
  | seeEnd empty released =>
    intro more hmore
    simpa only [Action.output, lines, List.append_nil] using h more (fun _ => hmore rfl)
  | @send line rest sender room next =>
    intro more hmore
    have hlines := h more hmore
    rw [linesOf_nextMessage? next hend more hmore] at hlines
    simpa [Action.output, lines, Message.line?] using hlines
  | @readFailure cause =>
    intro more hmore
    simpa [Action.output, lines, List.filterMap_cons, Message.line?] using h more hmore
  | hear receiving first =>
    intro more hmore
    have hlines := h more hmore
    rw [first] at hlines
    simpa [Action.output, lines, Message.line?] using hlines
  | fail receiving first =>
    intro more hmore
    have hlines := h more hmore
    rw [first] at hlines
    simpa [Action.output, abandon, lines, List.filterMap_cons, Message.line?] using hlines
  | _ =>
    simp only [Action.output, List.append_nil]
    exact h

theorem Moves.passesOn (hm : Moves m a m') (h : m.PassesOn) : m'.PassesOn := by
  cases hm with
  | read sender => exact fun _ hgone => nomatch sender.symm.trans hgone
  | send sender => exact fun _ hgone => nomatch sender.symm.trans hgone
  | @readFailure cause =>
    exact fun _ _ => .inr ⟨cause, List.mem_append_right _ (List.mem_singleton_self _)⟩
  | seeEnd => exact fun hphase hgone => (h hphase hgone).imp_left (fun hend => ⟨rfl, hend.2⟩)
  | hangUp sawEnd nothing => exact fun _ _ => .inl ⟨sawEnd, nothing⟩
  | listen checking =>
    have hphase : m.phase.IsListening := by rw [checking]; trivial
    exact fun _ hgone => h hphase hgone
  | wake receiving =>
    have hphase : m.phase.IsListening := by rw [receiving]; trivial
    exact fun _ hgone => h hphase hgone
  | hear receiving first =>
    have hphase : m.phase.IsListening := by rw [receiving]; trivial
    refine fun _ hgone => (h hphase hgone).imp_right (fun ⟨cause, hcause⟩ => ⟨cause, ?_⟩)
    rw [first] at hcause
    exact (List.mem_cons.mp hcause).resolve_left nofun
  | interrupt => exact False.elim
  | expire => exact False.elim
  | fail => exact False.elim
  | disconnect => exact False.elim
  | reap => exact False.elim
  | stop => exact False.elim
  | succeed => exact False.elim
  | _ => exact h

theorem Moves.isDrained (hm : Moves m a m') (hpass : m.PassesOn) (h : m.IsDrained) :
    m'.IsDrained := by
  cases hm with
  | read sender => exact fun hpast => nomatch sender.symm.trans (h hpast).2.1
  | send sender => exact fun hpast => nomatch sender.symm.trans (h hpast).2.1
  | readFailure sender => exact fun hpast => nomatch sender.symm.trans (h hpast).2.1
  | seeEnd =>
    intro hpast
    obtain ⟨hchannel, hgone, -, hbuffer⟩ := h hpast
    exact ⟨hchannel, hgone, rfl, hbuffer⟩
  | hangUp sawEnd nothing => exact fun hpast => ⟨(h hpast).1, rfl, sawEnd, nothing⟩
  | disconnect receiving empty gone =>
    intro _
    have hphase : m.phase.IsListening := by rw [receiving]; trivial
    -- A failure that had been passed on would still be in the channel.
    rcases hpass hphase gone with hend | ⟨cause, hcause⟩
    · exact ⟨empty, gone, hend⟩
    · rw [empty] at hcause
      exact absurd hcause List.not_mem_nil
  | reap waiting =>
    have hpast : m.phase.IsPastOutput := by rw [waiting]; trivial
    exact fun _ => h hpast
  | succeed concluding =>
    have hpast : m.phase.IsPastOutput := by rw [concluding]; trivial
    exact fun _ => h hpast
  | interrupt => exact False.elim
  | expire => exact False.elim
  | listen => exact False.elim
  | hear => exact False.elim
  | fail => exact False.elim
  | wake => exact False.elim
  | stop => exact False.elim
  | _ => exact h

theorem Moves.counted (hm : Moves m a m') (h : m.count = m.lines.length) :
    m'.count = m'.lines.length := by
  cases hm with
  | hear => simpa [lines] using h
  | _ => exact h

structure Flow (out : Bytes) (m : Machine) : Prop where
  ended : m.EndIsFinal
  accounts : m.Accounts out
  passesOn : m.PassesOn
  drained : m.IsDrained
  counted : m.count = m.lines.length

theorem flow_start (now : Nat) (limit : Option Nat) (interrupted : Bool) :
    (start now limit interrupted).Flow [] :=
  ⟨nofun, fun _ _ => rfl, nofun, nofun, rfl⟩

theorem Moves.flow (hm : Moves m a m') (h : m.Flow out) : m'.Flow (out ++ a.output) :=
  ⟨hm.endIsFinal h.ended, hm.accounts h.ended h.accounts, hm.passesOn h.passesOn,
    hm.isDrained h.passesOn h.drained, hm.counted h.counted⟩

theorem flow_after {now : Nat} {limit : Option Nat} {interrupted : Bool} {as : List Action}
    (h : (start now limit interrupted).after as = some m) : m.Flow (output as) := by
  refine after_induction (P := fun as m => m.Flow (output as)) h
    (flow_start now limit interrupted) (fun as m₁ a m₂ hflow hm => ?_)
  rw [output_append]
  simpa [output] using hm.flow hflow

theorem Flow.lines_prefix (h : m.Flow out) : m.lines <+: (linesOf out).map lineText := by
  have hlines := h.accounts [] (fun _ => rfl)
  rw [List.append_nil] at hlines
  exact ⟨_, hlines.symm⟩

theorem Flow.lines_eq (h : m.Flow out) (hpast : m.phase.IsPastOutput) :
    m.lines = (linesOf out).map lineText := by
  obtain ⟨hchannel, -, hend, hbuffer⟩ := h.drained hpast
  have hlines := h.accounts [] (fun _ => rfl)
  rw [hchannel, hbuffer, (h.ended hend).1, List.append_nil] at hlines
  exact (hlines.trans (List.append_nil _)).symm

theorem lines_prefix_after {as : List Action} (h : m.after as = some m') :
    m.lines <+: m'.lines :=
  after_keeps (P := fun m₁ => m.lines <+: m₁.lines) h (List.prefix_refl _)
    (fun _ _ _ hpre hm => hpre.trans hm.lines_prefix)

/-- What a call hands on of the output of its child, whatever the child writes and in whichever
order it, the reader and the consumer act, time passes and the flag is raised. At every moment the
lines that have been handed on are the first ones of the output as it is in the end, each once and
in order, and their number is kept. If the call tells how the child ended, they are all of them. -/
theorem lines_delivered (now : Nat) (limit : Option Nat) (interrupted : Bool) (as : List Action)
    (h : (start now limit interrupted).after as = some m) :
    m.count = m.lines.length ∧
    ∀ as' m', m.after as' = some m' →
      m.lines <+: (linesOf (output (as ++ as'))).map lineText ∧
      ∀ status, m.phase = .returned (.exited status) →
        m.lines = (linesOf (output (as ++ as'))).map lineText ∧
        m.count = (linesOf (output (as ++ as'))).length := by
  have hflow := flow_after h
  refine ⟨hflow.counted, fun as' m' h' => ?_⟩
  have hwhole := flow_after (after_append.mpr ⟨m, h, h'⟩)
  refine ⟨(lines_prefix_after h').trans hwhole.lines_prefix, fun status hphase => ?_⟩
  obtain ⟨hphase', hlines'⟩ := returned_after h' hphase
  have hpast : m'.phase.IsPastOutput := by rw [hphase']; trivial
  have hlines := hlines'.symm.trans (hwhole.lines_eq hpast)
  refine ⟨hlines, ?_⟩
  rw [hflow.counted, hlines, List.length_map]

/-- A child writes two lines, the first in two pieces and the second without a line end, and exits
with code three. -/
def deliverySample : List Action :=
  [.write [97, 13], .check, .read 1, .write [10, 98], .read 9, .send, .pass 100000000, .wake,
    .check, .receive, .close, .exit (some 3), .seeEnd, .send, .check, .receive, .hangUp, .check,
    .disconnect, .reap, .conclude]

theorem lines_delivered_sample :
    ∃ m, (start 0 none false).after deliverySample = some m ∧
      m.phase = .returned (.exited (some 3)) ∧ m.lines = ["a", "b"] ∧ m.count = 2 := by
  have hphase : ((start 0 none false).after deliverySample).map phase =
      some (.returned (.exited (some 3))) := by decide +kernel
  obtain ⟨m, h, hm⟩ := Option.map_eq_some_iff.mp hphase
  obtain ⟨hlines, hcount⟩ :=
    ((lines_delivered 0 none false deliverySample h).2 [] m rfl).2 (some 3) hm
  exact ⟨m, h, hm, hlines.trans (by decide +kernel), hcount.trans (by decide)⟩

end Machine

end CompressionSweep.Call
