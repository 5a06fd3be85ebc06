import CompressionSweep.Proofs.Call.Lines
import CompressionSweep.Proofs.Text.Decoding
import Mathlib.Data.List.DropRight

/-! The lines of a stream and the lines of the text it stands for. Cutting a stream at its line ends
and decoding what lies between comes to the same as decoding the stream and cutting the text. -/

namespace CompressionSweep.Call

/-- What the line ends of a stream cut off, and what is left behind the last one if it is not
empty. -/
def segments (b : Bytes) : List Bytes :=
  let pieces := b.splitOn lineFeed
  pieces.dropLast.map (· ++ [lineFeed]) ++ [pieces.getLastD []].filter (!·.isEmpty)

/-- A text split at its newlines, without an empty last piece and without the carriage returns at
the end of each piece. -/
def textLines (s : String) : List String :=
  let pieces := s.toList.splitOn '\n'
  (pieces.dropLast ++ [pieces.getLastD []].filter (!·.isEmpty)).map
    (fun p => String.ofList (p.rdropWhile (· == '\r')))

/-- Induction on what is left when the first line has been taken. -/
theorem by_firstLine {P : Bytes → Prop} (unended : ∀ b, firstLine? b = none → P b)
    (next : ∀ b line rest, firstLine? b = some (line, rest) → P rest → P b) (b : Bytes) : P b := by
  induction h : b.length using Nat.strong_induction_on generalizing b with
  | h n ih =>
    cases hfirst : firstLine? b with
    | none => exact unended b hfirst
    | some p =>
      obtain ⟨line, rest⟩ := p
      obtain ⟨text, -, -, hb⟩ := firstLine?_eq_some hfirst
      refine next b line rest hfirst (ih rest.length ?_ rest rfl)
      rw [← h, hb, List.length_append, List.length_cons]
      omega

/-- A stream is one line without an end, or a line with its end and another stream. -/
theorem by_lines {P : Bytes → Prop} (unended : ∀ b, lineFeed ∉ b → P b)
    (line : ∀ text rest, lineFeed ∉ text → P rest → P (text ++ lineFeed :: rest)) (b : Bytes) :
    P b := by
  induction b using by_firstLine with
  | unended b h => exact unended b (firstLine?_eq_none h)
  | next b _ rest h hrest =>
    obtain ⟨text, htext, -, rfl⟩ := firstLine?_eq_some h
    exact line text rest htext hrest

theorem segments_line {text : Bytes} (h : lineFeed ∉ text) (rest : Bytes) :
    segments (text ++ lineFeed :: rest) = (text ++ [lineFeed]) :: segments rest := by
  obtain ⟨p, ps, hps⟩ := List.exists_cons_of_ne_nil (List.splitOn_ne_nil lineFeed rest)
  simp [segments, List.splitOn_append_cons_self_of_not_mem h, hps]

theorem linesOf_eq_segments (b : Bytes) : linesOf b = segments b := by
  induction b using by_lines with
  | unended b h =>
    by_cases hb : b = []
    · subst hb
      rfl
    · simp [linesOf_unended h hb, segments, List.splitOn_eq_singleton h, hb]
  | line text rest h ih => rw [linesOf_line h, segments_line h, ih]

theorem rdropWhile_congr {α : Type} {p q : α → Bool} {as : List α} (h : ∀ a ∈ as, p a = q a) :
    as.rdropWhile p = as.rdropWhile q := by
  induction as using List.reverseRecOn with
  | nil => rfl
  | append_singleton as a ih =>
    have ha := h a (by simp)
    rw [List.rdropWhile_concat, List.rdropWhile_concat, ha, ih (fun x hx => h x (by simp [hx]))]

theorem textLines_line {cs : List Char} (h : '\n' ∉ cs) (rest : List Char) :
    textLines (String.ofList (cs ++ '\n' :: rest)) =
      String.ofList (cs.rdropWhile (· == '\r')) :: textLines (String.ofList rest) := by
  obtain ⟨p, ps, hps⟩ := List.exists_cons_of_ne_nil (List.splitOn_ne_nil '\n' rest)
  simp [textLines, List.splitOn_append_cons_self_of_not_mem h, hps]

theorem textLines_unended {cs : List Char} (h : '\n' ∉ cs) (hcs : cs ≠ []) :
    textLines (String.ofList cs) = [String.ofList (cs.rdropWhile (· == '\r'))] := by
  simp [textLines, List.splitOn_eq_singleton h, hcs]

theorem lineText_of_not_mem {b : Bytes} (h : lineFeed ∉ b) :
    lineText b = String.ofList ((Text.lossyChars b).rdropWhile (· == '\r')) := by
  refine congrArg String.ofList (rdropWhile_congr (fun c hc => ?_))
  have hne : c ≠ '\n' := fun heq => Text.lineEnd_not_mem_lossyChars h (heq ▸ hc)
  simp [isLineEnd, hne]

theorem lineText_ended {text : Bytes} : lineText (text ++ [lineFeed]) = lineText text := by
  rw [lineText, lineText, lineFeed, Text.lossyChars_append_lineEnd, Text.lossyChars_nil]
  exact congrArg String.ofList (List.rdropWhile_concat_pos _ _ _ rfl)

theorem map_lineText_linesOf (b : Bytes) :
    (linesOf b).map lineText = textLines (Text.lossy b) := by
  induction b using by_lines with
  | unended b h =>
    by_cases hb : b = []
    · subst hb
      simp [linesOf, Text.lossy]
      rfl
    · have hne : Text.lossyChars b ≠ [] := mt Text.lossyChars_eq_nil_iff.mp hb
      rw [linesOf_unended h hb, List.map_singleton, lineText_of_not_mem h, Text.lossy,
        textLines_unended (Text.lineEnd_not_mem_lossyChars h) hne]
  | line text rest h ih =>
    rw [linesOf_line h, List.map_cons, lineText_ended, lineText_of_not_mem h, ih, Text.lossy,
      Text.lossy, lineFeed, Text.lossyChars_append_lineEnd,
      textLines_line (Text.lineEnd_not_mem_lossyChars h)]

theorem lineEnd_not_mem_lineText {b line : Bytes} (h : line ∈ linesOf b) :
    '\n' ∉ (lineText line).toList := by
  obtain ⟨text, htext, hline⟩ := of_mem_linesOf h
  have hsame : lineText line = lineText text := by
    rcases hline with rfl | ⟨rfl, -⟩
    · exact lineText_ended
    · rfl
  rw [hsame, lineText_of_not_mem htext, String.toList_ofList]
  exact fun hmem => Text.lineEnd_not_mem_lossyChars htext
    ((List.rdropWhile_prefix _ _).subset hmem)

end CompressionSweep.Call
