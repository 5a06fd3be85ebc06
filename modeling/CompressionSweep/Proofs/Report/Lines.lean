import CompressionSweep.Proofs.Report.Printed
import CompressionSweep.Proofs.Report.Summary

/-! The lines of the three tables. Each is one line if the names in it are, and ends with a number:
that of its run, or of the measurements it stands for. -/

namespace CompressionSweep

namespace Report

instance (s : String) : Decidable (IsLine s) :=
  inferInstanceAs (Decidable (¬ _))

@[simp] theorem isLine_append {s s' : String} : IsLine (s ++ s') ↔ IsLine s ∧ IsLine s' := by
  simp [IsLine]

@[simp] theorem isLine_ofList {cs : List Char} : IsLine (String.ofList cs) ↔ '\n' ∉ cs := by
  simp [IsLine]

@[simp] theorem isLine_left {width : Nat} {s : String} : IsLine (left width s) ↔ IsLine s := by
  simp [left]

@[simp] theorem isLine_right {width : Nat} {s : String} : IsLine (right width s) ↔ IsLine s := by
  simp [right]

@[simp] theorem isLine_repr (n : Nat) : IsLine n.repr := by
  rw [← Nat.toString_eq_repr]
  exact fun h => absurd (isDigit_of_mem_toString h) (by decide)

end Report

namespace Decimal

theorem newline_not_mem_digitsOf (n : Nat) : '\n' ∉ digitsOf n :=
  fun h => absurd (Nat.isDigit_of_mem_toDigits (by decide) (by decide) h) (by decide)

theorem newline_not_mem_placed (places n : Nat) : '\n' ∉ placed places n := by
  intro h
  have hdigits : '\n' ∈ List.replicate (places + 1 - (digitsOf n).length) '0' ++ digitsOf n := by
    unfold placed at h
    split_ifs at h
    · exact h
    · rcases List.mem_append.mp h with h | h
      · exact List.mem_of_mem_take h
      · exact List.mem_of_mem_drop ((List.mem_cons.mp h).resolve_left (by decide))
  rcases List.mem_append.mp hdigits with h | h
  · exact absurd (List.eq_of_mem_replicate h) (by decide)
  · exact newline_not_mem_digitsOf n h

theorem newline_not_mem_withSign (x : Float) {cs : List Char} (h : '\n' ∉ cs) :
    '\n' ∉ withSign x cs := by
  unfold withSign
  split_ifs
  · simpa using h
  · exact h

theorem mem_groupDigits {c : Char} {cs : List Char} (h : c ∈ groupDigits cs) :
    c = ',' ∨ c ∈ cs := by
  induction cs with
  | nil => exact absurd h List.not_mem_nil
  | cons d cs ih =>
    rw [groupDigits] at h
    split_ifs at h <;> simp only [List.mem_cons] at h ⊢ <;> tauto

end Decimal

namespace Report

@[simp] theorem isLine_fixed (places : Nat) (x : Float) : IsLine (Decimal.fixed places x) := by
  unfold Decimal.fixed
  split_ifs
  · decide
  · exact isLine_ofList.mpr (Decimal.newline_not_mem_withSign x (by decide))
  · exact isLine_ofList.mpr
      (Decimal.newline_not_mem_withSign x (Decimal.newline_not_mem_placed places _))

@[simp] theorem isLine_groupThousands (n : Nat) : IsLine (Decimal.groupThousands n) :=
  isLine_ofList.mpr fun h => (Decimal.mem_groupDigits h).elim (by decide)
    (Decimal.newline_not_mem_digitsOf n)

@[simp] theorem isLine_secondsCell (x : Float) : IsLine (secondsCell x) :=
  isLine_fixed 2 x

@[simp] theorem isLine_bytesCell (x : Float) : IsLine (bytesCell x) := by
  unfold bytesCell
  split_ifs <;> simp

@[simp] theorem isLine_percentCell (p : Percentage) : IsLine (percentCell p) := by
  cases p <;> simp +decide [percentCell]

def SaysNoResults (line : String) : Prop :=
  ∃ before, line = before ++ left 70 "No results"

theorem lastNumber?_of_saysNoResults {line : String} (h : SaysNoResults line) :
    lastNumber? line = none := by
  obtain ⟨before, rfl⟩ := h
  have hleft : left 70 "No results" =
      "No results" ++ String.ofList (List.replicate 59 ' ') ++ " " := by
    decide
  have hcell : (before ++ left 70 "No results").toList.rtakeWhile (· != ' ') = [] := by
    simp [hleft]
  rw [lastNumber?, hcell]
  rfl

theorem ne_empty_of_lastNumber? {line : String} {n : Nat} (h : lastNumber? line = some n) :
    line ≠ "" := by
  rintro rfl
  cases h

theorem lastNumber?_recordLine (run : UInt32) (m : Measurement) :
    lastNumber? (recordLine run m) = some run.toNat :=
  lastNumber?_cell _ 8 _

theorem isLine_recordLine (run : UInt32) {m : Measurement} (h : IsLine m.file) :
    IsLine (recordLine run m) := by
  simp +decide [recordLine, h]

theorem lastNumber?_fileLine (f : FileComparison) :
    lastNumber? (fileLine f) = some f.statistics.samples :=
  lastNumber?_cell _ 8 _

theorem isLine_fileLine {f : FileComparison} (h : IsLine f.file) : IsLine (fileLine f) := by
  simp +decide [fileLine, h]

theorem saysNoResults_summaryLine (spread : Bool) {r : ComparisonRow} (h : r.result = none) :
    SaysNoResults (summaryLine spread r) :=
  ⟨marker r ++ left 12 r.algorithm ++ " ", by rw [summaryLine, h]⟩

theorem lastNumber?_summaryLine (spread : Bool) {r : ComparisonRow} {m : Measured}
    (h : r.result = some m) :
    lastNumber? (summaryLine spread r) = some m.statistics.samples := by
  rw [summaryLine, h]
  cases spread <;> exact lastNumber?_cell _ 8 _

theorem saysNoResults_summaryLine_iff (spread : Bool) (r : ComparisonRow) :
    SaysNoResults (summaryLine spread r) ↔ r.result = none := by
  refine ⟨fun h => ?_, saysNoResults_summaryLine spread⟩
  cases hresult : r.result with
  | none => rfl
  | some m =>
    have hnumber := lastNumber?_summaryLine spread hresult
    rw [lastNumber?_of_saysNoResults h] at hnumber
    cases hnumber

theorem isLine_summaryLine (spread : Bool) {r : ComparisonRow} (h : IsLine r.algorithm) :
    IsLine (summaryLine spread r) := by
  have hmarker : IsLine (marker r) := by
    unfold marker
    split_ifs <;> decide
  unfold summaryLine
  split
  · simp +decide [h, hmarker]
  · cases spread <;> simp +decide [h, hmarker]

end Report

end CompressionSweep
