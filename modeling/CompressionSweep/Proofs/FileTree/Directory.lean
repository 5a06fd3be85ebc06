import CompressionSweep.Proofs.FileTree.Entries

/-! The directory that a path lies in. It is told from the parts of the path, among which a `.` and
a separator at the end do not count, while the system follows all the pieces that the path has; as
long as the last of them is a name, both lead to the same place. -/

namespace CompressionSweep

namespace Path

/-! The pieces of a text that is put together from names. -/

theorem splitChars_eq_splitOn (sep : Char) (cs : List Char) :
    splitChars sep cs = cs.splitOn sep := by
  induction cs with
  | nil => rfl
  | cons c cs ih =>
    simp only [splitChars, ih, List.splitOn, List.splitOnP_cons_eq_if_modifyHead]
    cases h : List.splitOnP (· == sep) cs with
    | nil => exact absurd h (List.splitOnP_ne_nil _ cs)
    | cons piece pieces => rfl

theorem not_mem_of_mem_splitChars {sep : Char} {cs piece : List Char}
    (h : piece ∈ splitChars sep cs) : sep ∉ piece := by
  induction cs generalizing piece with
  | nil =>
    obtain rfl := List.mem_singleton.mp h
    exact List.not_mem_nil
  | cons c cs ih =>
    rw [splitChars] at h
    split at h
    · rcases List.mem_cons.mp h with rfl | h
      · exact List.not_mem_nil
      · exact ih h
    · rename_i hc
      have hne : sep ≠ c := fun heq => hc (beq_iff_eq.mpr heq.symm)
      split at h
      · obtain rfl := List.mem_singleton.mp h
        simpa using hne
      · rename_i first rest hsplit
        rcases List.mem_cons.mp h with rfl | h
        · have hfirst := ih (hsplit ▸ List.mem_cons_self)
          simp [hne, hfirst]
        · exact ih (hsplit ▸ List.mem_cons_of_mem first h)

theorem mem_pieces {path piece : String} (h : piece ∈ pieces path) :
    piece ≠ "" ∧ '/' ∉ piece.toList := by
  obtain ⟨cs, hcs, rfl⟩ := List.mem_map.mp h
  obtain ⟨hcs, hne⟩ := List.mem_filter.mp hcs
  rw [String.toList_ofList]
  refine ⟨fun heq => ?_, not_mem_of_mem_splitChars hcs⟩
  have hnil := congrArg String.toList heq
  simp_all

theorem pieces_intercalate {texts : List String} (h : ∀ s ∈ texts, '/' ∉ s.toList) :
    pieces (String.intercalate "/" texts) = texts.filter (· ≠ "") := by
  by_cases hnil : texts = []
  · rw [hnil]
    rfl
  have hsplit : splitChars '/' (String.intercalate "/" texts).toList =
      texts.map String.toList := by
    rw [splitChars_eq_splitOn, String.toList_intercalate]
    refine List.splitOn_intercalate '/' (fun l hl => ?_) (by simpa using hnil)
    obtain ⟨s, hs, rfl⟩ := List.mem_map.mp hl
    exact h s hs
  have hempty : ∀ s : String, s.toList.isEmpty = decide (s = "") := by
    intro s
    rw [Bool.eq_iff_iff]
    simp
  rw [pieces, hsplit, List.filter_map, List.map_map]
  simp [Function.comp_def, hempty]

/-! Which texts are absolute. -/

theorem isAbsolute_iff {text : String} : isAbsolute text = true ↔ text.toList.head? = some '/' :=
  beq_iff_eq

theorem isAbsolute_intercalate {first : String} (hfirst : first ≠ "") (rest : List String) :
    isAbsolute (String.intercalate "/" (first :: rest)) = isAbsolute first := by
  obtain ⟨c, cs, hcs⟩ := List.exists_cons_of_ne_nil (l := first.toList) (by simpa using hfirst)
  unfold isAbsolute
  rw [String.toList_intercalate, List.map_cons, hcs]
  cases rest <;> simp

theorem isAbsolute_of_not_mem {text : String} (h : '/' ∉ text.toList) :
    isAbsolute text = false := by
  rw [← Bool.not_eq_true, isAbsolute_iff]
  exact fun hhead => h (List.mem_of_mem_head? (Option.mem_def.mpr hhead))

/-! The parts of a path. -/

theorem text_partOf (piece : String) : (partOf piece).text = piece := by
  unfold partOf
  split_ifs with hup hhere
  · exact (eq_of_beq hup).symm
  · exact (eq_of_beq hhere).symm
  · rfl

theorem partOf_eq_here {piece : String} : partOf piece = .here ↔ piece = "." := by
  constructor
  · intro h
    rw [← text_partOf piece, h]
    rfl
  · rintro rfl
    rfl

theorem partOf_eq_name {piece s : String} (h : partOf piece = .name s) :
    s = piece ∧ piece ≠ "." ∧ piece ≠ ".." := by
  unfold partOf at h
  split_ifs at h with hup hhere
  exact ⟨(Part.name.inj h).symm, fun heq => hhere (by simp [heq]), fun heq => hup (by simp [heq])⟩

theorem mem_parts {path : String} {p : Part} (h : p ∈ parts path) :
    p = .root ∧ isAbsolute path = true ∨ ∃ piece ∈ pieces path, p = partOf piece := by
  unfold parts at h
  split at h
  · rename_i habs
    rcases List.mem_cons.mp h with rfl | h
    · exact .inl ⟨rfl, habs⟩
    · obtain ⟨piece, hpiece, rfl⟩ := List.mem_map.mp (List.mem_filter.mp h).1
      exact .inr ⟨piece, hpiece, rfl⟩
  · refine .inr ?_
    split at h
    · cases h
    · rename_i q qs hparts
      have hmem : p ∈ (pieces path).map partOf := by
        rw [hparts]
        exact (List.filter_sublist.cons_cons q).subset h
      obtain ⟨piece, hpiece, rfl⟩ := List.mem_map.mp hmem
      exact ⟨piece, hpiece, rfl⟩

theorem partOf_ne_root (piece : String) : partOf piece ≠ .root := by
  unfold partOf
  split_ifs <;> exact nofun

theorem head?_parts (path : String) : (parts path).head? = some .root ↔ isAbsolute path = true := by
  constructor
  · intro h
    rcases mem_parts (List.mem_of_mem_head? (Option.mem_def.mpr h)) with ⟨-, habs⟩ | hpiece
    · exact habs
    · obtain ⟨piece, -, hroot⟩ := hpiece
      exact absurd hroot.symm (partOf_ne_root piece)
  · intro habs
    rw [parts, if_pos habs]
    rfl

theorem texts_of_parts {pieces : List String} :
    ((pieces.map partOf).filter (· != .here)).map Part.text = pieces.filter (· ≠ ".") := by
  have hhere : ∀ piece, (partOf piece != .here) = decide (piece ≠ ".") := by
    intro piece
    rw [Bool.eq_iff_iff]
    simp [partOf_eq_here]
  rw [List.filter_map, List.map_map]
  simp [Function.comp_def, text_partOf, hhere]

/-- The names that count on the way through a path. -/
def names (texts : List String) : List String :=
  texts.filter (fun s => s ≠ "" ∧ s ≠ ".")

theorem names_append (texts texts' : List String) :
    names (texts ++ texts') = names texts ++ names texts' := List.filter_append _ _

theorem names_parts (path : String) : names ((parts path).map Part.text) =
    names (pieces path) := by
  have hfilter : ∀ texts : List String, names (texts.filter (· ≠ ".")) = names texts := by
    intro texts
    simp [names, List.filter_filter]
  unfold parts
  split
  · rw [List.map_cons, texts_of_parts]
    exact hfilter _
  · cases hpieces : pieces path with
    | nil => rfl
    | cons piece rest =>
      simp only [List.map_cons, texts_of_parts, text_partOf]
      simp [names, List.filter_cons, List.filter_filter]

theorem names_eq_filter {path : String} {texts : List String} (h : texts ⊆ pieces path) :
    names texts = texts.filter (· ≠ ".") := by
  refine List.filter_congr (fun s hs => ?_)
  simp [(mem_pieces (h hs)).1]

/-! The directory of a path with a file name. -/

section FileName

variable {path s : String} (h : fileName? path = some s)

include h

theorem parts_of_fileName : ∃ ps, parts path = ps ++ [.name s] := by
  unfold fileName? at h
  split at h
  · rename_i last hlast
    obtain rfl := Option.some.inj h
    exact List.getLast?_eq_some_iff.mp hlast
  · cases h

theorem fileName_mem : s ∈ pieces path ∧ s ≠ "." ∧ s ≠ ".." := by
  obtain ⟨ps, hps⟩ := parts_of_fileName h
  rcases mem_parts (hps ▸ List.mem_append_right ps List.mem_cons_self) with ⟨hroot, -⟩ | hpiece
  · cases hroot
  · obtain ⟨piece, hmem, hname⟩ := hpiece
    obtain ⟨rfl, hdot, hdots⟩ := partOf_eq_name hname.symm
    exact ⟨hmem, hdot, hdots⟩

end FileName

section Directory

variable {path s : String} {ps : List Part} (hps : parts path = ps ++ [.name s])

include hps

theorem parent?_of_parts : parent? path = some (ofParts ps) := by
  unfold parent?
  split
  · rename_i hnil
    simp [hps] at hnil
  · rename_i hroot
    rw [hps, List.append_eq_singleton_iff] at hroot
    simp at hroot
  · rw [hps, List.dropLast_concat]

theorem directoryOf_of_parts :
    directoryOf path = if (ofParts ps).isEmpty then "." else ofParts ps := by
  rw [directoryOf, parent?_of_parts hps]

theorem names_directoryOf : names (pieces (directoryOf path)) = names (ps.map Part.text) := by
  have hfree : ∀ text ∈ ps.map Part.text, '/' ∉ text.toList := by
    intro text htext
    obtain ⟨p, hp, rfl⟩ := List.mem_map.mp htext
    rcases mem_parts (hps ▸ List.mem_append_left [Part.name s] hp) with ⟨rfl, -⟩ | hpiece
    · exact List.not_mem_nil
    · obtain ⟨piece, hmem, rfl⟩ := hpiece
      rw [text_partOf]
      exact (mem_pieces hmem).2
  have hparts : names (pieces (ofParts ps)) = names (ps.map Part.text) := by
    unfold ofParts
    split
    · rfl
    · rw [pieces_intercalate hfree]
      simp only [names, List.filter_filter]
      exact List.filter_congr (fun text _ => by by_cases htext : text = "" <;> simp [htext])
  rw [directoryOf_of_parts hps, ← hparts]
  split
  · rename_i hempty
    rw [String.isEmpty_iff.mp hempty]
    rfl
  · rfl

theorem isAbsolute_directoryOf : isAbsolute (directoryOf path) = isAbsolute path := by
  have hdot : ∀ text : String, isAbsolute (if text.isEmpty then "." else text) =
      isAbsolute text := by
    intro text
    split
    · rename_i hempty
      rw [String.isEmpty_iff.mp hempty]
      rfl
    · rfl
  have habs := head?_parts path
  rw [directoryOf_of_parts hps, hdot, Bool.eq_iff_iff, ← habs, hps]
  cases ps with
  | nil => exact ⟨nofun, nofun⟩
  | cons q qs =>
    have hq : q ∈ parts path := by simp [hps]
    rcases mem_parts hq with ⟨rfl, -⟩ | hpiece
    · have hroot : isAbsolute (ofParts (.root :: qs)) = true := by
        cases qs with
        | nil => rfl
        | cons r rs => simp [isAbsolute_iff, ofParts, String.toList_intercalate, Part.text]
      simp [hroot]
    · obtain ⟨piece, hmem, rfl⟩ := hpiece
      obtain ⟨hne, hfree⟩ := mem_pieces hmem
      have hjoin : ofParts (partOf piece :: qs) =
          String.intercalate "/" (piece :: qs.map Part.text) := by
        unfold ofParts
        split
        · rename_i hroot
          exact absurd (List.cons.inj hroot).1 (partOf_ne_root piece)
        · rw [List.map_cons, text_partOf]
      rw [hjoin, isAbsolute_intercalate hne, isAbsolute_of_not_mem hfree]
      simp [partOf_ne_root]

end Directory

/-- A path whose last piece is a name goes through the same names as its directory, and then on to
its file. -/
theorem pieces_of_fileName {path s : String} (h : fileName? path = some s)
    (hlast : (pieces path).getLast? ≠ some ".") :
    ∃ texts, pieces path = texts ++ [s] ∧ names texts = names (pieces (directoryOf path)) := by
  obtain ⟨ps, hps⟩ := parts_of_fileName h
  obtain ⟨hmem, hdot, -⟩ := fileName_mem h
  obtain ⟨texts, last, hpieces⟩ : ∃ texts last, pieces path = texts ++ [last] :=
    ⟨_, _, (List.dropLast_append_getLast (List.ne_nil_of_mem hmem)).symm⟩
  have hone : ∀ {text}, text ∈ pieces path → text ≠ "." → names [text] = [text] := by
    intro text htext hne
    simp [names, (mem_pieces htext).1, hne]
  have hlast' : last ≠ "." := fun heq => hlast (by rw [hpieces, List.getLast?_concat, heq])
  have hboth := names_parts path
  rw [hps, hpieces, List.map_append, names_append, names_append] at hboth
  have hsplit : names (ps.map Part.text) ++ [s] = names texts ++ [last] := by
    rw [← hone hmem hdot, ← hone (hpieces ▸ List.mem_append_right texts List.mem_cons_self) hlast']
    exact hboth
  obtain ⟨hnames, hs⟩ := List.append_inj' hsplit rfl
  refine ⟨texts, by rw [hpieces, hs], ?_⟩
  rw [names_directoryOf hps, hnames]

end Path

namespace Tree

variable {t : Tree}

theorem directory_of_followAll {p q : Place} {texts : List String}
    (h : t.followAll p texts = .ok q) (hq : t.entry? q = some .directory) :
    t.entry? p = some .directory := by
  cases texts with
  | nil =>
    obtain rfl := Except.ok.inj h
    exact hq
  | cons text texts =>
    obtain ⟨_, hfollow, -⟩ := followAll_cons h
    exact directory_of_follow hfollow

theorem follow_here {p : Place} (hp : t.entry? p = some .directory) : t.follow p "." = .ok p := by
  simp [follow, hp]

/-- On the way to a directory a `.` makes no difference. -/
theorem followAll_skip {q : Place} (hq : t.entry? q = some .directory) (texts : List String)
    (p : Place) : t.followAll p (texts.filter (· ≠ ".")) = .ok q ↔ t.followAll p texts = .ok q := by
  induction texts generalizing p with
  | nil => rfl
  | cons text texts ih =>
    by_cases htext : text = "."
    · subst htext
      have hskip : ("." :: texts).filter (· ≠ ".") = texts.filter (· ≠ ".") := by simp
      rw [hskip, ih]
      constructor
      · intro h
        rw [followAll, follow_here (directory_of_followAll h hq)]
        exact h
      · intro h
        obtain ⟨p', hfollow, hall⟩ := followAll_cons h
        rw [follow_here (directory_of_follow hfollow)] at hfollow
        rwa [← Except.ok.inj hfollow] at hall
    · have hkeep : (text :: texts).filter (· ≠ ".") = text :: texts.filter (· ≠ ".") := by
        simp [htext]
      rw [hkeep, followAll, followAll]
      cases t.follow p text with
      | error e => simp
      | ok p' => exact ih p'

theorem followAll_names {path : String} {texts : List String} (h : texts ⊆ Path.pieces path)
    {q : Place} (hq : t.entry? q = some .directory) (p : Place) :
    t.followAll p (Path.names texts) = .ok q ↔ t.followAll p texts = .ok q := by
  rw [Path.names_eq_filter h]
  exact followAll_skip hq texts p

/-- What leads to the directory of a path leads through the path up to its last piece. -/
theorem followAll_of_directoryOf {path s : String} (h : Path.fileName? path = some s)
    (hlast : (Path.pieces path).getLast? ≠ some ".") {p : Place}
    (hdir : t.stat (Path.directoryOf path) = .ok (p, .directory)) :
    ∃ texts, Path.pieces path = texts ++ [s] ∧ t.followAll (t.start path) texts = .ok p := by
  obtain ⟨texts, hpieces, hnames⟩ := Path.pieces_of_fileName h hlast
  obtain ⟨ps, hps⟩ := Path.parts_of_fileName h
  obtain ⟨-, hfollow, hp, -⟩ := stat_eq_ok.mp hdir
  have hsub : texts ⊆ Path.pieces path := hpieces ▸ List.subset_append_left texts [s]
  refine ⟨texts, hpieces, ?_⟩
  rw [start, Path.isAbsolute_directoryOf hps] at hfollow
  rw [← followAll_names hsub hp, hnames, followAll_names (List.Subset.refl _) hp]
  exact hfollow

end Tree

end CompressionSweep
