import CompressionSweep.Call.Schedule
import CompressionSweep.Proofs.Call.Execution

/-! A call that follows a timetable is one of the executions of its machine. -/

namespace CompressionSweep.Call

namespace Course

theorem le_fuelFor (timetable : Timetable) : 100000 ≤ fuelFor timetable := by
  unfold fuelFor
  induction timetable with
  | nil => exact Nat.le_refl _
  | cons d timetable ih => exact Nat.le_add_left_of_le ih

theorem follow_after (n : Nat) (c : Course) :
    ∃ as, c.machine.after as = some (follow n c).machine := by
  induction n generalizing c with
  | zero => exact ⟨[], rfl⟩
  | succ n ih =>
    rw [follow]
    split
    · exact ⟨[], rfl⟩
    split
    · exact ⟨[], rfl⟩
    rename_i a timetable hnext
    split
    · exact ⟨[], rfl⟩
    rename_i m hstep
    obtain ⟨as, has⟩ := ih { c with machine := m, timetable }
    exact ⟨a :: as, Machine.after_append.mpr ⟨m, Machine.after_singleton.mpr hstep, has⟩⟩

end Course

theorem run_after (timetable : Timetable) (limit : Option Nat) (interrupt : Interrupt) :
    ∃ as, (Machine.start 0 limit (interrupt == .before)).after as =
      some (run timetable limit interrupt) :=
  Course.follow_after (Course.fuelFor timetable)
    ⟨Machine.start 0 limit (interrupt == .before), timetable, interrupt⟩

end CompressionSweep.Call
