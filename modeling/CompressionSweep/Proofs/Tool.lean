import CompressionSweep.Proofs.Program.Exit
import CompressionSweep.Proofs.Text.ByteOrder
import CompressionSweep.Proofs.Text.Decoding
import CompressionSweep.Proofs.FileTree.Admission

/-! Whether a tool that the checks of a sweep do not look for is one that is looked for in the
search path. The checks count the parts of its path, while the system asks for a separator in its
text. They differ on a path of one part that goes on behind it. -/

namespace CompressionSweep

namespace Path

/-- A relative path that goes on behind its first piece, with separators and `.` alone. -/
def trailsOff (path : String) : Bool :=
  path.toList.contains '/' && !isAbsolute path && (pieces path).tail.all (· == ".")

theorem pieces_of_not_mem {path : String} (h : '/' ∉ path.toList) : (pieces path).tail = [] := by
  have hone : pieces path = [path].filter (· ≠ "") := by
    have hjoin : String.intercalate "/" [path] = path := by simp
    rw [← pieces_intercalate (by simpa using h), hjoin]
  rw [hone]
  by_cases hpath : path = "" <;> simp [hpath]

theorem length_parts {path : String} (h : isAbsolute path = false) :
    1 < (parts path).length ↔ (pieces path).tail.all (· == ".") = false := by
  unfold parts
  rw [if_neg (by simp [h])]
  cases hpieces : pieces path with
  | nil => simp
  | cons piece more =>
    have hhere : ∀ piece, partOf piece ≠ .here ↔ piece ≠ "." := fun p => not_congr partOf_eq_here
    simp [List.length_pos_iff_exists_mem, hhere]

/-- The checks see a separator wherever one is, unless the path trails off. -/
theorem hasSeparator_iff {path : String} :
    hasSeparator path = true ↔ '/' ∈ path.toList ∧ trailsOff path = false := by
  by_cases habs : isAbsolute path = true
  · have hmem : '/' ∈ path.toList :=
      List.mem_of_mem_head? (Option.mem_def.mpr (isAbsolute_iff.mp habs))
    simp [hasSeparator, trailsOff, habs, hmem]
  · have hrel : isAbsolute path = false := by simpa using habs
    by_cases hmem : '/' ∈ path.toList
    · simp [hasSeparator, trailsOff, hrel, hmem, length_parts hrel]
    · simp [hasSeparator, hrel, hmem, length_parts hrel, pieces_of_not_mem hmem]

theorem mem_of_trailsOff {path : String} (h : trailsOff path = true) : '/' ∈ path.toList := by
  simp only [trailsOff, Bool.and_eq_true, List.contains_iff_mem] at h
  exact h.1.1

theorem forall_eq_of_splitChars {cs : List Char}
    (h : (splitChars '/' cs).filter (!·.isEmpty) = []) : ∀ c ∈ cs, c = '/' := by
  induction cs with
  | nil => simp
  | cons c cs ih =>
    rw [splitChars] at h
    by_cases hc : c = '/'
    · subst hc
      exact List.forall_mem_cons.mpr ⟨rfl, ih (by simpa using h)⟩
    · have hne : (c == '/') = false := by simpa using hc
      rw [hne] at h
      exfalso
      revert h
      cases splitChars '/' cs <;> simp

/-- What trails off has a separator or a `.` at its end. -/
theorem endsInName_of_trailsOff {path : String} (h : trailsOff path = true) :
    endsInName path = false := by
  simp only [trailsOff, Bool.and_eq_true, List.contains_iff_mem, Bool.not_eq_true'] at h
  obtain ⟨⟨hmem, hrel⟩, hdots⟩ := h
  obtain ⟨first, more, hsplit, hfirst⟩ := List.eq_append_cons_of_mem hmem
  have hpieces : pieces path = String.ofList first ::
      ((splitChars '/' more).filter (!·.isEmpty)).map String.ofList := by
    have hne : first ≠ [] := by
      intro hnil
      have hhead : path.toList.head? = some '/' := by simp [hsplit, hnil]
      rw [isAbsolute_iff.mpr hhead] at hrel
      cases hrel
    rw [pieces, hsplit, splitChars_eq_splitOn, List.splitOn_append_cons_self_of_not_mem hfirst,
      ← splitChars_eq_splitOn]
    simp [hne]
  by_cases hnil : (splitChars '/' more).filter (!·.isEmpty) = []
  · have hall := forall_eq_of_splitChars hnil
    have hlast : path.toList.getLast? = some '/' := by
      rw [hsplit, List.getLast?_append_of_ne_nil first (List.cons_ne_nil '/' more),
        List.getLast?_cons]
      cases hmore : more.getLast? with
      | none => rfl
      | some c => exact congrArg some (hall c (List.mem_of_mem_getLast? hmore))
    simp [endsInName, endsInSeparator, hlast]
  · rw [hpieces, List.tail_cons, List.all_eq_true] at hdots
    have hlast : (pieces path).getLast? = some "." := by
      have hne : ((splitChars '/' more).filter (!·.isEmpty)).map String.ofList ≠ [] := by
        simpa using hnil
      rw [hpieces, List.getLast?_cons_of_ne_nil hne, List.getLast?_eq_some_getLast hne]
      exact congrArg some (eq_of_beq (hdots _ (List.getLast_mem hne)))
    simp [endsInName, hlast]

end Path

namespace Tree

variable {t : Tree}

theorem directory_of_followAll_here {p q : Place} {texts : List String}
    (h : t.followAll p (texts ++ ["."]) = .ok q) : t.entry? q = some .directory := by
  induction texts generalizing p with
  | nil =>
    obtain ⟨p', hfollow, hall⟩ := followAll_cons h
    have hp := directory_of_follow hfollow
    rw [follow_here hp] at hfollow
    obtain rfl := Except.ok.inj hfollow
    obtain rfl := Except.ok.inj hall
    exact hp
  | cons text texts ih =>
    obtain ⟨p', -, hall⟩ := followAll_cons h
    exact ih hall

/-- Without a name at its end a path leads to directories only. -/
theorem directory_of_stat {path : String} (h : Path.endsInName path = false) {p : Place}
    {e : Entry} (hs : t.stat path = .ok (p, e)) : e = .directory := by
  obtain ⟨-, hfollow, hentry, hsep⟩ := stat_eq_ok.mp hs
  by_cases hends : Path.endsInSeparator path = true
  · simpa [hends] using hsep
  · have hlast : (Path.pieces path).getLast? = some "." := by
      simpa [Path.endsInName, hends] using h
    obtain ⟨texts, hpieces⟩ := List.getLast?_eq_some_iff.mp hlast
    rw [hpieces] at hfollow
    have hdir := directory_of_followAll_here hfollow
    rw [hdir] at hentry
    exact (Option.some.inj hentry).symm

theorem isFile_of_not_endsInName {path : String} (h : Path.endsInName path = false) :
    t.isFile path = false := by
  unfold isFile
  split
  · rename_i hs
    cases directory_of_stat h hs
  · rename_i hs
    cases directory_of_stat h hs
  · rfl

/-- The errors after which the search for a program goes on. -/
def passedOver : List (Except FileError Executable) :=
  [.error .notFound, .error .notADirectory, .error .permissionDenied]

section Search

variable {name : String} {arguments : List String} {directory : String}

theorem search_of_passedOver (h : t.executableIn name arguments directory ∈ passedOver)
    (e : FileError) (directories : List String) : ∃ e',
      t.search name arguments e (directory :: directories) =
        t.search name arguments e' directories := by
  simp only [passedOver, List.mem_cons, List.not_mem_nil, or_false] at h
  rcases h with h | h | h
  · exact ⟨e, by rw [search, h]⟩
  · exact ⟨e, by rw [search, h]⟩
  · exact ⟨.permissionDenied, by rw [search, h]⟩

theorem search_of_not_passedOver (h : t.executableIn name arguments directory ∉ passedOver)
    (e : FileError) (directories : List String) :
    t.search name arguments e (directory :: directories) = .ok (pathIn directory name) := by
  rw [search]
  split
  case h_4 => rfl
  all_goals simp_all [passedOver]

theorem search_eq_ok {cause : FileError} {directories : List String} {path : String} :
    t.search name arguments cause directories = .ok path ↔ ∃ directory,
      directories.find? (t.executableIn name arguments · ∉ passedOver) = some directory ∧
        path = pathIn directory name := by
  induction directories generalizing cause with
  | nil => simp [search]
  | cons directory directories ih =>
    by_cases hover : t.executableIn name arguments directory ∈ passedOver
    · obtain ⟨cause', hnext⟩ := search_of_passedOver hover cause directories
      rw [hnext, ih, List.find?_cons_of_neg (by simpa using hover)]
    · rw [search_of_not_passedOver hover, List.find?_cons_of_pos (by simpa using hover)]
      simp [eq_comm]

theorem executable_eq_ok {directories : List String} {e : Executable} :
    t.executable directories name arguments = .ok e ↔ ∃ path,
      t.resolve directories name arguments = .ok path ∧
        t.executableAt maxInterpreters path name arguments = .ok e := by
  rw [executable]
  cases t.resolve directories name arguments with
  | error cause => exact ⟨nofun, nofun⟩
  | ok path =>
    constructor
    · exact fun h => ⟨path, rfl, h⟩
    · rintro ⟨path, hpath, h⟩
      obtain rfl := Except.ok.inj hpath
      exact h

end Search

/-- Whatever interpreters there are on the way, an installed program is run in the end. -/
theorem program_of_executableAt {fuel : Nat} {path name : String} {arguments : List String}
    {e : Executable} (h : t.executableAt fuel path name arguments = .ok e) :
    ∃ p, t.entry? p = some .program ∧ p.getLast? = some e.program := by
  induction fuel generalizing path name arguments with
  | zero => cases h
  | succ fuel ih =>
    rw [executableAt] at h
    cases hs : t.stat (Shell.toText path) with
    | error cause => rw [hs] at h; cases h
    | ok x =>
      obtain ⟨p, entry⟩ := x
      rw [hs] at h
      cases entry with
      | program =>
        obtain rfl := Except.ok.inj h
        have hp := (stat_eq_ok.mp hs).2.2.1
        cases hlast : p.getLast? with
        | none =>
          obtain rfl := List.getLast?_eq_none_iff.mp hlast
          cases hp
        | some last => exact ⟨p, hp, by rw [hlast, List.getLastD_eq_getLast?, hlast]; rfl⟩
      | file content executable =>
        cases executable with
        | false => cases h
        | true =>
          simp only [bind, Except.bind] at h
          split at h
          · cases h
          · exact ih h
      | directory => cases h
      | device => cases h

end Tree

/-! Starting a program by its path. -/

namespace Shell

theorem toNat_ofByte (b : UInt8) : (Char.ofNat b.toNat).toNat = b.toNat := by
  have hb := b.toNat_lt
  have hvalid : b.toNat.isValidChar := .inl (by omega)
  rw [Char.ofNat, dif_pos hvalid]
  rfl

theorem toText_ofText (s : String) : toText (ofText s) = s := by
  have hbytes : toBytes (ofText s) = Text.utf8 s := by
    simp [toBytes, ofText, ofBytes, Function.comp_def, toNat_ofByte]
  rw [toText, hbytes, Text.lossy_utf8]

theorem length_ofText (s : String) : (ofText s).length = s.utf8ByteSize := by
  simp [ofText, ofBytes, Text.utf8]

theorem ofText_eq_empty {s : String} : ofText s = "" ↔ s = "" := by
  rw [← String.length_eq_zero_iff, length_ofText, String.utf8ByteSize_eq_zero_iff]

theorem separator_mem_ofText {s : String} : '/' ∈ (ofText s).toList ↔ '/' ∈ s.toList := by
  have hbyte : ∀ b : UInt8, Char.ofNat b.toNat = '/' ↔ b = 0x2F := by
    intro b
    rw [← Char.toNat_inj, toNat_ofByte, ← UInt8.toNat_inj]
    rfl
  have hchar : ∀ c : Char, (0x2F : UInt8) ∈ String.utf8EncodeChar c ↔ c = '/' := by
    intro c
    constructor
    · intro h
      rcases Text.mem_utf8EncodeChar h with ⟨-, hcode⟩ | hhigh
      · exact Char.toNat_inj.mp (hcode.symm : c.toNat = '/'.toNat)
      · exact absurd hhigh (by decide)
    · rintro rfl
      decide
  simp [ofText, ofBytes, Text.utf8_eq_flatMap, hbyte, hchar]

end Shell

namespace Call

/-- What a program and its arguments have to be like to be started. -/
structure Passable (i : Invocation) : Prop where
  named : i.program ≠ ""
  short : i.program.utf8ByteSize ≤ Tree.maxNameBytes
  whole : ∀ text ∈ i.program :: i.arguments, '\x00' ∉ text.toList
  small : ∀ text ∈ i.program :: i.arguments, text.utf8ByteSize < maxArgumentBytes

theorem executableFor_eq_ok {t : Tree} {i : Invocation} {e : Executable} :
    executableFor t i = .ok e ↔ (∀ text ∈ i.program :: i.arguments, '\x00' ∉ text.toList) ∧
      (∀ text ∈ i.program :: i.arguments, text.utf8ByteSize < maxArgumentBytes) ∧
      t.executable Tree.searchPath (Shell.ofText i.program) (i.arguments.map Shell.ofText) =
        .ok e := by
  have hwhole : (∀ text ∈ i.program :: i.arguments, '\x00' ∉ text.toList) ↔
      ¬ (i.program :: i.arguments).any (·.toList.contains '\x00') = true := by simp
  have hsmall : (∀ text ∈ i.program :: i.arguments, text.utf8ByteSize < maxArgumentBytes) ↔
      ¬ (i.program :: i.arguments).any (maxArgumentBytes ≤ ·.utf8ByteSize) = true := by simp
  rw [hwhole, hsmall]
  unfold executableFor
  dsimp only
  split_ifs with hnul hlong
  · exact ⟨nofun, fun h => absurd hnul h.1⟩
  · exact ⟨nofun, fun h => absurd hlong h.2.1⟩
  · cases t.executable Tree.searchPath (Shell.ofText i.program) (i.arguments.map Shell.ofText) with
    | error cause => exact ⟨nofun, fun h => nomatch h.2.2⟩
    | ok found =>
      refine ⟨fun h => ⟨hnul, hlong, congrArg Except.ok (Except.ok.inj h)⟩, fun h => ?_⟩
      exact congrArg Except.ok (Except.ok.inj h.2.2)

/-- A name without a separator is looked for in the directories of the search path: what is run for
it stands in the first of them that is not passed over. -/
theorem executableFor_of_bare {i : Invocation} (h : '/' ∉ i.program.toList) (t : Tree)
    (e : Executable) :
    let there := t.executableIn (Shell.ofText i.program) (i.arguments.map Shell.ofText)
    executableFor t i = .ok e ↔ Passable i ∧ ∃ directory,
      Tree.searchPath.find? (there · ∉ Tree.passedOver) = some directory ∧
        there directory = .ok e := by
  intro there
  have hsep : (Shell.ofText i.program).toList.contains '/' = false := by
    simpa using mt Shell.separator_mem_ofText.mp h
  have hempty : (Shell.ofText i.program).isEmpty = true ↔ i.program = "" := by
    rw [String.isEmpty_iff, Shell.ofText_eq_empty]
  rw [executableFor_eq_ok, Tree.executable_eq_ok, Tree.resolve,
    if_neg (Bool.eq_false_iff.mp hsep), Shell.length_ofText]
  split_ifs with hname hlong
  · refine ⟨fun h => ?_, fun h => absurd (hempty.mp hname) h.1.named⟩
    obtain ⟨-, -, path, hpath, -⟩ := h
    cases hpath
  · refine ⟨fun h => ?_, fun h => absurd h.1.short (Nat.not_le.mpr hlong)⟩
    obtain ⟨-, -, path, hpath, -⟩ := h
    cases hpath
  · constructor
    · rintro ⟨hwhole, hsmall, path, hpath, hfound⟩
      obtain ⟨directory, hfirst, rfl⟩ := Tree.search_eq_ok.mp hpath
      exact ⟨⟨mt hempty.mpr hname, Nat.not_lt.mp hlong, hwhole, hsmall⟩, directory, hfirst, hfound⟩
    · rintro ⟨hpassable, directory, hfirst, hfound⟩
      exact ⟨hpassable.whole, hpassable.small, _, Tree.search_eq_ok.mpr ⟨directory, hfirst, rfl⟩,
        hfound⟩

-- The same name in a tree with programs, and where nothing stands in any directory.
example : executableFor Tree.fresh ⟨"sh", ["-c"]⟩ = .ok ⟨"sh", ["sh", "-c"]⟩ ∧
    executableFor ⟨[(["sh"], .program)], []⟩ ⟨"sh", ["-c"]⟩ =
      .error FileError.notFound.message := by
  decide +kernel

theorem program_of_executableFor {t : Tree} {i : Invocation} {e : Executable}
    (h : executableFor t i = .ok e) :
    ∃ p, t.entry? p = some .program ∧ p.getLast? = some e.program := by
  obtain ⟨-, -, hfound⟩ := executableFor_eq_ok.mp h
  obtain ⟨path, -, hpath⟩ := Tree.executable_eq_ok.mp hfound
  exact Tree.program_of_executableAt hpath

/-- A path with a separator and without a name at its end is never started. -/
theorem executableFor_of_not_endsInName {i : Invocation} (hmem : '/' ∈ i.program.toList)
    (h : Path.endsInName i.program = false) (t : Tree) :
    ∃ cause, executableFor t i = .error cause := by
  have hsep : (Shell.ofText i.program).toList.contains '/' = true := by
    simpa using Shell.separator_mem_ofText.mpr hmem
  have hrefused : ∃ e, t.executable Tree.searchPath (Shell.ofText i.program)
      (i.arguments.map Shell.ofText) = .error e := by
    rw [Tree.executable, Tree.resolve, if_pos hsep]
    change ∃ e, t.executableAt Tree.maxInterpreters _ _ _ = .error e
    rw [Tree.maxInterpreters, Tree.executableAt, Shell.toText_ofText]
    cases hs : t.stat i.program with
    | error e => exact ⟨e, rfl⟩
    | ok x =>
      obtain ⟨p, e⟩ := x
      obtain rfl := Tree.directory_of_stat h hs
      exact ⟨.permissionDenied, rfl⟩
  obtain ⟨e, he⟩ := hrefused
  unfold executableFor
  dsimp only
  split_ifs
  · exact ⟨_, rfl⟩
  · exact ⟨_, rfl⟩
  · exact ⟨e.message, by rw [he]⟩

theorem callFrom_of_error {t : Tree} {i : Invocation} {cause : String}
    (h : executableFor t i = .error cause) (owner? : Option Shell.Owner) (limit : Option Nat)
    (interrupt : Interrupt) : callFrom owner? t i limit interrupt =
      (⟨[], .failed (.spawn i.program cause)⟩, t, 0) := by
  rw [callFrom, h]

end Call

namespace Setup

/-- A setup passes all checks that come before that of its tool. -/
structure PassesToTool (s : Setup) (t : Tree) : Prop where
  runs : s.runs ≠ 0
  algorithms : s.algorithms ≠ []
  filter : s.filterIsValid = true
  output : checkOutput t s.output = .ok ()

theorem validate_of_passesToTool {s : Setup} {t : Tree} (h : s.PassesToTool t) : s.validate t =
    if Path.hasSeparator s.tool && !t.isFile s.tool then .error (.tool s.tool) else .ok () := by
  simp [validate, h.runs, h.algorithms, h.filter, h.output]

theorem passesToTool_or (s : Setup) (t : Tree) :
    s.PassesToTool t ∨ ∃ e, s.validate t = .error e ∧ ∀ p, e ≠ .tool p := by
  by_cases hruns : s.runs = 0
  · exact .inr ⟨.runs s.runs, by simp [validate, hruns], nofun⟩
  by_cases halgorithms : s.algorithms = []
  · exact .inr ⟨.noAlgorithms, by simp [validate, hruns, halgorithms], nofun⟩
  cases hfilter : s.filterIsValid with
  | false =>
    exact .inr ⟨.filter (s.filter.getD ""), by simp [validate, hruns, halgorithms, hfilter], nofun⟩
  | true =>
    cases houtput : checkOutput t s.output with
    | error e =>
      refine .inr ⟨.output s.output e, ?_, nofun⟩
      simp [validate, hruns, halgorithms, hfilter, houtput]
    | ok u => exact .inl ⟨hruns, halgorithms, hfilter, houtput⟩

theorem validate_eq_ok_iff {s : Setup} {t : Tree} : s.validate t = .ok () ↔ s.PassesToTool t ∧
    (t.isFile s.tool = true ∨ '/' ∉ s.tool.toList ∨ Path.trailsOff s.tool = true) := by
  have hseparator : Path.hasSeparator s.tool = true ↔
      ¬ ('/' ∉ s.tool.toList ∨ Path.trailsOff s.tool = true) := by
    rw [Path.hasSeparator_iff, not_or, not_not, Bool.not_eq_true]
  by_cases hpasses : s.PassesToTool t
  · rw [validate_of_passesToTool hpasses]
    by_cases hfile : t.isFile s.tool = true
    · simp [hfile, hpasses]
    · by_cases hsep : Path.hasSeparator s.tool = true
      · have hno := hseparator.mp hsep
        simp [hfile, hsep, hno]
      · have hyes := not_not.mp (mt hseparator.mpr hsep)
        simp [hsep, hpasses, hyes]
  · obtain ⟨e, he, -⟩ := (s.passesToTool_or t).resolve_left hpasses
    simp [he, hpasses]

/-- What becomes of a tool, by its path. A setup that passes the other checks is accepted if the
path leads to a file, has no separator, or trails off. A path without a separator is looked for in
the directories of the search path and nowhere else: it is run as what stands in the first of them
that is not passed over, which comes down to an installed program. One that trails off leads to no
file, and no run is ever started for it. Any other that leads to no file is refused, and nothing has
been run then. -/
theorem accepted_tool (s : Setup) (t : Tree) :
    (s.validate t = .ok () ↔ s.PassesToTool t ∧
      (t.isFile s.tool = true ∨ '/' ∉ s.tool.toList ∨ Path.trailsOff s.tool = true)) ∧
    ('/' ∉ s.tool.toList → ∀ (a : Algorithm) (t' : Tree) (e : Executable),
      let there := t'.executableIn (Shell.ofText s.tool)
        ((s.invocation a).arguments.map Shell.ofText)
      (Call.executableFor t' (s.invocation a) = .ok e ↔ Call.Passable (s.invocation a) ∧
        ∃ directory, Tree.searchPath.find? (there · ∉ Tree.passedOver) = some directory ∧
          there directory = .ok e) ∧
      (Call.executableFor t' (s.invocation a) = .ok e →
        ∃ p, t'.entry? p = some .program ∧ p.getLast? = some e.program)) ∧
    (Path.trailsOff s.tool = true → t.isFile s.tool = false ∧
      ∀ (a : Algorithm) (t' : Tree), ∃ cause, ∀ owner? limit interrupt,
        Call.callFrom owner? t' (s.invocation a) limit interrupt =
          (⟨[], .failed (.spawn s.tool cause)⟩, t', 0)) ∧
    ('/' ∈ s.tool.toList → Path.trailsOff s.tool = false → t.isFile s.tool = false →
      s.PassesToTool t → s.validate t = .error (.tool s.tool) ∧
      ∀ (ω : Type) (o : Outside ω) (timestamp : String) (arguments : List String)
        (options : SweepOptions) (w : ω),
        Command.ofArguments arguments = .ok (.sweep options) → Program.setup options = s →
        Program.run o timestamp arguments t w =
          (.failure (.ofSetup (.tool s.tool)), ⟨t, w, [], none⟩)) := by
  refine ⟨validate_eq_ok_iff, fun hbare a t' e => ?_, fun hoff => ?_,
    fun hmem hoff hfile hpasses => ?_⟩
  · have hbare' : '/' ∉ (s.invocation a).program.toList := hbare
    exact ⟨Call.executableFor_of_bare hbare' t' e, Call.program_of_executableFor⟩
  · have hends := Path.endsInName_of_trailsOff hoff
    refine ⟨Tree.isFile_of_not_endsInName hends, fun a t' => ?_⟩
    obtain ⟨cause, hcause⟩ := Call.executableFor_of_not_endsInName (i := s.invocation a)
      (Path.mem_of_trailsOff hoff) hends t'
    exact ⟨cause, Call.callFrom_of_error hcause⟩
  · have hrefused : s.validate t = .error (.tool s.tool) := by
      rw [validate_of_passesToTool hpasses, Path.hasSeparator_iff.mpr ⟨hmem, hoff⟩, hfile]
      rfl
    refine ⟨hrefused, ?_⟩
    rintro ω o timestamp arguments options w hc rfl
    exact Program.run_refused o timestamp hc hrefused w

theorem separator_unseen :
    ({ standard with tool := "cjfr/" } : Setup).validate Tree.fresh = .ok () ∧
      '/' ∈ "cjfr/".toList ∧ Tree.fresh.isFile "cjfr/" = false := by
  decide +kernel

end Setup

end CompressionSweep
