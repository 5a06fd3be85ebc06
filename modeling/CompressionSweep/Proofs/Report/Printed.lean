import CompressionSweep.Report.Table
import Mathlib.Data.List.DropRight
import Mathlib.Data.String.Basic

/-! Printed tables read back. A text has its lines again if none of them holds a newline, a table
its sections, each behind an empty line, and a line its last number. -/

namespace CompressionSweep.Report

/-- The lines of a text in which each has its newline. -/
def printedLines (s : String) : List String :=
  (s.toList.splitOn '\n').dropLast.map String.ofList

/-- What is printed behind a heading. The heading may hold newlines of its own. -/
def behind (heading table : List String) : List String :=
  printedLines (String.ofList ((text table).toList.drop (text heading).length))

/-- The groups of lines behind each empty line. -/
def sections (ls : List String) : List (List String) :=
  (ls.splitOn "").tail

/-- The sections that start with the lines `head`, without these. -/
def sectionsUnder (head ls : List String) : List (List String) :=
  (sections ls).filterMap (·.dropPrefix? head)

/-- The number that ends a line, behind a blank. -/
def lastNumber? (line : String) : Option Nat :=
  let cell := line.toList.rtakeWhile (· != ' ')
  if cell ≠ [] ∧ cell.all Char.isDigit then some (Nat.ofDigitChars 10 cell 0) else none

/-! ## Lines -/

def IsLine (s : String) : Prop :=
  '\n' ∉ s.toList

theorem text_append (ls ls' : List String) : text (ls ++ ls') = text ls ++ text ls' := by
  apply String.toList_inj.mp
  simp [text]

theorem printedLines_text_append {ls : List String} (h : ∀ l ∈ ls, IsLine l) (more : String) :
    printedLines (text ls ++ more) = ls ++ printedLines more := by
  induction ls with
  | nil => simp [text]
  | cons l ls ih =>
    obtain ⟨hl, hls⟩ := List.forall_mem_cons.mp h
    have htext : (text (l :: ls) ++ more).toList =
        l.toList ++ '\n' :: (text ls ++ more).toList := by
      simp [text]
    have hne := List.splitOn_ne_nil '\n' (text ls ++ more).toList
    rw [printedLines, htext, List.splitOn_append_cons_self_of_not_mem hl,
      List.dropLast_cons_of_ne_nil hne, List.map_cons, String.ofList_toList, List.cons_append,
      ← ih hls]
    rfl

theorem behind_append {ls : List String} (h : ∀ l ∈ ls, IsLine l) (heading rest : List String) :
    behind heading (heading ++ ls ++ rest) = ls ++ printedLines (text rest) := by
  have htext : String.ofList ((text (heading ++ ls ++ rest)).toList.drop (text heading).length) =
      text ls ++ text rest := by
    apply String.toList_inj.mp
    simp [List.append_assoc, text_append, ← String.length_toList]
  rw [behind, htext, printedLines_text_append h]

theorem behind_eq {ls : List String} (h : ∀ l ∈ ls, IsLine l) (heading : List String) :
    behind heading (heading ++ ls) = ls := by
  have hlines := behind_append h heading []
  simpa [text, printedLines] using hlines

/-! ## Sections -/

theorem splitOn_sections {head : List String} (hhead : "" ∉ head) {gs : List (List String)}
    (h : ∀ g ∈ gs, "" ∉ g) : (head ++ gs.flatMap ("" :: ·)).splitOn "" = head :: gs := by
  induction gs generalizing head with
  | nil => simpa using List.splitOn_eq_singleton hhead
  | cons g gs ih =>
    obtain ⟨hg, hgs⟩ := List.forall_mem_cons.mp h
    rw [List.flatMap_cons, List.cons_append, List.splitOn_append_cons_self_of_not_mem hhead,
      ih hg hgs]

theorem sections_flatMap {gs : List (List String)} (h : ∀ g ∈ gs, "" ∉ g) :
    sections (gs.flatMap ("" :: ·)) = gs :=
  congrArg List.tail (splitOn_sections List.not_mem_nil h)

/-- The lines of a table of which each section has a name. -/
def titled (suffix : String) (head : List String) (tables : List (String × List String)) :
    List String :=
  tables.flatMap (fun t => "" :: (t.1 ++ suffix) :: head ++ t.2)

theorem dropPrefix?_titled (suffix : String) (head : List String) (t : String × List String)
    (name : String) : ((t.1 ++ suffix) :: head ++ t.2).dropPrefix? ((name ++ suffix) :: head) =
      if t.1 == name then some t.2 else none := by
  split_ifs with hname
  · obtain rfl := eq_of_beq hname
    exact List.dropPrefix?_eq_some_iff.mpr ⟨_, rfl, beq_self_eq_true _⟩
  · refine Option.eq_none_iff_forall_not_mem.mpr (fun rows hrows => hname ?_)
    obtain ⟨p, hp, hhead⟩ := List.dropPrefix?_eq_some_iff.mp hrows
    obtain rfl := eq_of_beq hhead
    rw [List.cons_append, List.cons_append] at hp
    exact beq_iff_eq.mpr ((String.append_left_inj suffix).mp (List.cons.inj hp).1)

theorem sectionsUnder_titled {suffix : String} (hsuffix : suffix ≠ "") {head : List String}
    (hhead : "" ∉ head) {tables : List (String × List String)} (h : ∀ t ∈ tables, "" ∉ t.2)
    (name : String) : sectionsUnder ((name ++ suffix) :: head) (titled suffix head tables) =
      (tables.filter (·.1 == name)).map (·.2) := by
  have hgroups : titled suffix head tables =
      (tables.map (fun t => (t.1 ++ suffix) :: head ++ t.2)).flatMap ("" :: ·) := by
    rw [titled, List.flatMap_map]
    rfl
  have hnone : ∀ g ∈ tables.map (fun t => (t.1 ++ suffix) :: head ++ t.2), "" ∉ g := by
    intro g hg hmem
    obtain ⟨t, ht, rfl⟩ := List.mem_map.mp hg
    rcases List.mem_append.mp hmem with hmem | hmem
    · rcases List.mem_cons.mp hmem with htitle | hmem
      · exact hsuffix (String.append_eq_empty_iff.mp htitle.symm).2
      · exact hhead hmem
    · exact h t ht hmem
  rw [sectionsUnder, hgroups, sections_flatMap hnone, List.filterMap_map]
  simp only [Function.comp_def, dropPrefix?_titled]
  rw [← List.filterMap_filter, List.filterMap_eq_map']

/-! ## Numbers -/

theorem isDigit_of_mem_toString {n : Nat} {c : Char} (h : c ∈ (toString n).toList) :
    c.isDigit = true := by
  rw [Nat.toString_eq_repr, Nat.toList_repr] at h
  exact Nat.isDigit_of_mem_toDigits (by decide) (by decide) h

theorem lastNumber?_cell (before : String) (width n : Nat) :
    lastNumber? (before ++ " " ++ right width (toString n)) = some n := by
  have hblank : ∀ c ∈ (toString n).toList.reverse, (c != ' ') = true := by
    intro c hc
    have hdigit := isDigit_of_mem_toString (List.mem_reverse.mp hc)
    exact bne_iff_ne.mpr (fun h => absurd (h ▸ hdigit) (by decide))
  -- Read from its end, the line is digits, at least one blank, and what stands before.
  have hline : (before ++ " " ++ right width (toString n)).toList.reverse =
      (toString n).toList.reverse ++
        (List.replicate (width - (toString n).length + 1) ' ' ++ before.toList.reverse) := by
    simp [right, List.replicate_succ']
  have hcell : (before ++ " " ++ right width (toString n)).toList.rtakeWhile (· != ' ') =
      (toString n).toList := by
    rw [List.rtakeWhile, hline, List.takeWhile_append_of_pos hblank, List.replicate_succ]
    simp
  have hne : (toString n).toList ≠ [] := by
    rw [Nat.toString_eq_repr, Nat.toList_repr]
    exact Nat.toDigits_ne_nil
  have hdigits : (toString n).toList.all Char.isDigit := List.all_eq_true.mpr (fun _ =>
    isDigit_of_mem_toString)
  rw [lastNumber?, hcell, if_pos ⟨hne, hdigits⟩, Nat.toString_eq_repr, Nat.toList_repr,
    Nat.ofDigitChars_ten_toDigits]

end CompressionSweep.Report
