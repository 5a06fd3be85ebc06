import CompressionSweep.Proofs.FileTree.Admission
import CompressionSweep.Proofs.Persistence
import CompressionSweep.Setup

/-! Whether a document can be written where the checks of a sweep accept it. It can if the path ends
in a name. A path that goes on after its last name, with a separator or a `.`, is accepted as well,
since these are no parts of it; but the system takes them to ask for a directory, and no write ever
succeeds. -/

namespace CompressionSweep

namespace Setup

theorem checkOutput_eq_ok {t : Tree} {path : String} (h : checkOutput t path = .ok ()) :
    t.isDirectory path = false ∧ ∃ s, Path.fileName? path = some s ∧
      ∀ p, Path.parent? path = some p → p = "" ∨ t.isDirectory p = true := by
  unfold checkOutput at h
  split_ifs at h with hempty hdir hname
  obtain ⟨s, hs⟩ := Option.ne_none_iff_exists'.mp (by simpa using hname)
  refine ⟨Bool.eq_false_iff.mpr hdir, s, hs, fun p hp => ?_⟩
  rw [hp] at h
  dsimp only at h
  split at h
  · cases h
  · rename_i hparent
    by_cases hp : p = ""
    · exact .inl hp
    · exact .inr (by simpa [hp] using hparent)

section Accepted

variable {t : Tree} {path : String}

theorem directory_of_checkOutput (hhome : t.entry? t.home = some .directory)
    (h : checkOutput t path = .ok ()) :
    ∃ p, t.stat (Path.directoryOf path) = .ok (p, .directory) := by
  obtain ⟨-, s, hs, hparent⟩ := checkOutput_eq_ok h
  obtain ⟨ps, hps⟩ := Path.parts_of_fileName hs
  rw [Path.directoryOf_of_parts hps]
  split
  · exact Tree.isDirectory_iff.mp (Tree.isDirectory_here hhome)
  · rename_i hne
    refine Tree.isDirectory_iff.mp ((hparent _ (Path.parent?_of_parts hps)).resolve_left ?_)
    simpa using hne

theorem admits_of_checkOutput (hhome : t.entry? t.home = some .directory)
    (hpath : t.Nameable path) (h : checkOutput t path = .ok ())
    (hends : Path.endsInName path = true) : ∃ p name, t.Admits path p name := by
  obtain ⟨hnodir, s, hs, -⟩ := checkOutput_eq_ok h
  obtain ⟨p, hdir⟩ := directory_of_checkOutput hhome h
  obtain ⟨hsep, hlast⟩ := (Bool.and_eq_true _ _).mp hends
  obtain ⟨texts, hpieces, hfollow⟩ :=
    Tree.followAll_of_directoryOf hs (bne_iff_ne.mp hlast) hdir
  obtain ⟨hmem, hdot, hdots⟩ := Path.fileName_mem hs
  obtain ⟨-, -, hp, -⟩ := Tree.stat_eq_ok.mp hdir
  have hshort := hpath.names s hmem
  refine ⟨p, s, hdir, hpath.temporary,
    Tree.locate_of_followAll hpath.whole hpieces hfollow hp hdot hdots, by simpa using hsep, hshort,
    fun htarget => ?_⟩
  have hfollow' : t.followAll (t.start path) (Path.pieces path) = .ok (p ++ [s]) := by
    rw [hpieces, Tree.followAll_append_singleton hfollow]
    simp [Tree.follow, hp, hdot, hdots, Nat.not_lt.mpr hshort, htarget]
  have htaken : t.isDirectory path = true := by
    refine Tree.isDirectory_iff.mpr ⟨p ++ [s], Tree.stat_eq_ok.mpr ?_⟩
    exact ⟨hpath.whole, hfollow', htarget, by simp⟩
  rw [hnodir] at htaken
  cases htaken

end Accepted

end Setup

namespace Store

section History

variable {path : String} {x : Store × Tree} (hx : x.1.path = some path)

include hx

/-- A step keeps what the writes ask for: if it puts a file anywhere, it does at their target. -/
theorem step_of_admits {p : Place} {name : String} (h : x.2.Admits path p name) (r : Request)
    (faults : Faults) :
    let step := r.step faults x
    step.after.2.Admits path p name ∧ ((∀ s, faults s = none) → step.result = .ok () ∧
      step.after.2.read path = .ok step.after.1.document.encode) := by
  intro step
  have hdone : (∀ s, faults s = none) → step.result = .ok () ∧
      step.after.2 = x.2.put (p ++ [name]) (.file step.after.1.document.encode false) := by
    intro hf
    have hflush : ∀ d : Document, (⟨d, some path⟩ : Store).flush faults x.2 =
        (.ok (), x.2.put (p ++ [name]) (.file d.encode false)) := by
      intro d
      rw [flush]
      dsimp only
      rw [h.save hf]
      rfl
    simp only [step, Request.step, perform_eq, hx, hflush, true_and]
  rcases step_cases hx r faults with ⟨e, he, htree⟩ | ⟨-, hno, hread, -⟩
  · refine ⟨htree ▸ h, fun hf => ?_⟩
    cases he.symm.trans (hdone hf).1
  · obtain ⟨hok, hput⟩ := hdone hno
    exact ⟨hput ▸ h.put _ _, fun _ => ⟨hok, hread⟩⟩

theorem history_of_admits {p : Place} {name : String} (h : x.2.Admits path p name)
    (rs : List (Request × Faults)) : ∀ step ∈ history x rs, (∀ s, step.faults s = none) →
      step.result = .ok () ∧ step.after.2.read path = .ok step.after.1.document.encode := by
  induction rs generalizing x with
  | nil => exact fun _ hstep => absurd hstep List.not_mem_nil
  | cons r rs ih =>
    obtain ⟨hafter, hok⟩ := step_of_admits hx h r.1 r.2
    exact List.forall_mem_cons.mpr ⟨hok, ih (by rw [step_store]; exact hx) hafter⟩

theorem history_of_not_endsInName (hends : Path.endsInName path = false)
    (rs : List (Request × Faults)) : ∀ step ∈ history x rs,
      (∃ e, step.result = .error ⟨path, e⟩) ∧ step.after.2 = x.2 := by
  induction rs generalizing x with
  | nil => exact fun _ hstep => absurd hstep List.not_mem_nil
  | cons r rs ih =>
    have hfirst : (∃ e, (r.1.step r.2 x).result = .error ⟨path, e⟩) ∧
        (r.1.step r.2 x).after.2 = x.2 := by
      simp only [Request.step, perform_eq, hx, flush]
      split
      · rename_i t' hsave
        rw [Tree.endsInName_of_save hsave] at hends
        cases hends
      · rename_i e t' hsave
        exact ⟨⟨e, rfl⟩, Tree.eq_of_save_error hsave⟩
    refine List.forall_mem_cons.mpr ⟨hfirst, ?_⟩
    rw [← hfirst.2]
    exact ih (by rw [step_store]; exact hx)

end History

/-- A store whose path the checks of a sweep have accepted, in the tree that they have looked at, and
however it is used from there. If the path ends in a name, every request succeeds in which no step
fails for reasons outside the tree, and leaves a file from which the whole document is read and,
unless it cannot be stored at all, loaded. If it does not, every request fails and no file is ever
changed. -/
theorem accepted_output_written {t : Tree} {path : String}
    (hhome : t.entry? t.home = some .directory) (hpath : t.Nameable path)
    (haccepted : Setup.checkOutput t path = .ok ()) (d : Document)
    (requests : List (Request × Faults)) :
    let steps := history (⟨d, some path⟩, t) requests
    (Path.endsInName path = true → ∀ step ∈ steps, (∀ s, step.faults s = none) →
      step.result = .ok () ∧ step.after.2.read path = .ok step.after.1.document.encode ∧
      (step.after.1.document.Storable →
        load step.after.2 path = .ok (some step.after.1.document))) ∧
    (Path.endsInName path = false → ∀ step ∈ steps,
      (∃ e, step.result = .error ⟨path, e⟩) ∧ step.after.2 = t) := by
  intro steps
  constructor
  · intro hends step hstep hf
    obtain ⟨p, name, hadmits⟩ := Setup.admits_of_checkOutput hhome hpath haccepted hends
    obtain ⟨hok, hread⟩ := history_of_admits rfl hadmits requests step hstep hf
    exact ⟨hok, hread, load_of_read hread⟩
  · exact fun hends => history_of_not_endsInName rfl hends requests

def unwrittenStore (path : String) : Store :=
  ⟨Document.new "t" "default" 2 none .gzip, some path⟩

def onceWithoutFaults : List (Request × Faults) := [(.append .gzip 1 ⟨"a.jfr", 1.5, 3⟩, Faults.none)]

theorem accepted_output_written_sample :
    (∀ step ∈ history (unwrittenStore "./out.json", ⟨[], []⟩) onceWithoutFaults,
      step.result = .ok ()) ∧
    ∀ step ∈ history (unwrittenStore "out.json/.", ⟨[], []⟩) onceWithoutFaults,
      step.after.2 = ⟨[], []⟩ := by
  have hname : Tree.Nameable ⟨[], []⟩ "./out.json" :=
    ⟨by decide +kernel, by decide +kernel, by decide +kernel⟩
  have hdot : Tree.Nameable ⟨[], []⟩ "out.json/." :=
    ⟨by decide +kernel, by decide +kernel, by decide +kernel⟩
  constructor
  · intro step hstep
    have hfaults : step.faults = Faults.none := by
      obtain rfl := List.mem_singleton.mp hstep
      rfl
    refine ((accepted_output_written (rfl : Tree.entry? ⟨[], []⟩ [] = _) hname (by decide +kernel)
      _ onceWithoutFaults).1 (by decide +kernel) step hstep (fun s => ?_)).1
    rw [hfaults]
    rfl
  · exact fun step hstep => ((accepted_output_written (rfl : Tree.entry? ⟨[], []⟩ [] = _) hdot
      (by decide +kernel) _ onceWithoutFaults).2 (by decide +kernel) step hstep).2

/-- A separator at the end of an output path is no part of it, so that the path is accepted. -/
theorem accepted_output_unwritable :
    Setup.checkOutput ⟨[], []⟩ "out.json/" = .ok () ∧ Tree.Nameable ⟨[], []⟩ "out.json/" ∧
    (unwrittenStore "out.json/").flush Faults.none ⟨[], []⟩ =
      (.error ⟨"out.json/", .notADirectory⟩, ⟨[], []⟩) := by
  refine ⟨by decide +kernel, ⟨by decide +kernel, by decide +kernel, by decide +kernel⟩, ?_⟩
  rfl

end Store

end CompressionSweep
