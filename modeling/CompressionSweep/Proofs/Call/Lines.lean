import CompressionSweep.Call.Lines
import Mathlib.Data.List.TakeWhile

/-! The lines of a stream as a whole, and that the first line of a stream is the first of them. -/

namespace CompressionSweep.Call

/-- All lines of a stream that has ended, each with its line end; the last one may have none. -/
def linesOf : Bytes → List Bytes
  | [] => []
  | c :: b =>
    if c = lineFeed then [c] :: linesOf b
    else
      match linesOf b with
      | [] => [[c]]
      | line :: lines => (c :: line) :: lines

/-- A line has no line end but the one behind it, and holds something. -/
theorem of_mem_linesOf {b line : Bytes} (h : line ∈ linesOf b) :
    ∃ text, lineFeed ∉ text ∧ (line = text ++ [lineFeed] ∨ line = text ∧ text ≠ []) := by
  induction b generalizing line with
  | nil => exact absurd h List.not_mem_nil
  | cons c b ih =>
    rw [linesOf] at h
    split at h
    · rename_i hc
      rcases List.mem_cons.mp h with rfl | h
      · exact ⟨[], List.not_mem_nil, .inl (congrArg (fun c => [c]) hc)⟩
      · exact ih h
    · rename_i hc
      have hc' : ∀ text, lineFeed ∉ text → lineFeed ∉ c :: text := fun text htext hmem =>
        (List.mem_cons.mp hmem).elim (fun h => hc h.symm) htext
      split at h
      · obtain rfl := List.mem_singleton.mp h
        exact ⟨[c], hc' [] List.not_mem_nil, .inr ⟨rfl, List.cons_ne_nil c []⟩⟩
      · rename_i first lines hb
        rcases List.mem_cons.mp h with rfl | h
        · obtain ⟨text, htext, he⟩ := ih (hb ▸ List.mem_cons_self)
          refine ⟨c :: text, hc' text htext, ?_⟩
          rcases he with rfl | ⟨rfl, -⟩
          · exact .inl rfl
          · exact .inr ⟨rfl, List.cons_ne_nil _ _⟩
        · exact ih (hb ▸ List.mem_cons_of_mem first h)

theorem linesOf_line {text : Bytes} (h : lineFeed ∉ text) (rest : Bytes) :
    linesOf (text ++ lineFeed :: rest) = (text ++ [lineFeed]) :: linesOf rest := by
  induction text with
  | nil => exact if_pos rfl
  | cons c text ih =>
    obtain ⟨hc, htext⟩ := List.ne_and_not_mem_of_not_mem_cons h
    rw [List.cons_append, linesOf, if_neg hc.symm, ih htext]
    rfl

theorem linesOf_unended {b : Bytes} (h : lineFeed ∉ b) (hb : b ≠ []) : linesOf b = [b] := by
  induction b with
  | nil => exact absurd rfl hb
  | cons c b ih =>
    obtain ⟨hc, hrest⟩ := List.ne_and_not_mem_of_not_mem_cons h
    rw [linesOf, if_neg hc.symm]
    cases b with
    | nil => rfl
    | cons d b => rw [ih hrest (List.cons_ne_nil d b)]

theorem firstLine?_eq_some {b line rest : Bytes} (h : firstLine? b = some (line, rest)) :
    ∃ text, lineFeed ∉ text ∧ line = text ++ [lineFeed] ∧ b = text ++ lineFeed :: rest := by
  unfold firstLine? at h
  split at h
  · cases h
  · rename_i c rest' hdrop
    obtain ⟨rfl, rfl⟩ := Prod.mk.inj (Option.some.inj h)
    have hc : c = lineFeed := by
      have hhead := List.head?_dropWhile_not (· != lineFeed) b
      rw [hdrop] at hhead
      simpa using hhead
    subst hc
    refine ⟨b.takeWhile (· != lineFeed), fun hmem => ?_, rfl, ?_⟩
    · have hne := List.mem_takeWhile_imp hmem
      simp at hne
    · rw [← hdrop, List.takeWhile_append_dropWhile]

theorem firstLine?_eq_none {b : Bytes} (h : firstLine? b = none) : lineFeed ∉ b := by
  unfold firstLine? at h
  split at h
  · rename_i hdrop
    intro hmem
    have hne := List.dropWhile_eq_nil_iff.mp hdrop lineFeed hmem
    simp at hne
  · cases h

end CompressionSweep.Call
