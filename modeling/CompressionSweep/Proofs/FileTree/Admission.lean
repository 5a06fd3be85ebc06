import CompressionSweep.Proofs.FileTree.Directory
import CompressionSweep.Proofs.FileTree.Save

/-! What a save asks of the tree and of its path. Where it is met, a save succeeds unless one of its
steps fails for other reasons, and the next one finds it met again. -/

namespace CompressionSweep

/-- Whether nothing comes after the last name of a path. -/
def Path.endsInName (path : String) : Bool :=
  !endsInSeparator path && (pieces path).getLast? != some "."

namespace Tree

theorem locate_of_followAll {t : Tree} {path name : String} {texts : List String} {p : Place}
    (hcheck : checkPath path = .ok ()) (hpieces : Path.pieces path = texts ++ [name])
    (hfollow : t.followAll (t.start path) texts = .ok p) (hp : t.entry? p = some .directory)
    (hdot : name ≠ ".") (hdots : name ≠ "..") : t.locate path = .ok (p, some name) := by
  simp [locate, hcheck, hpieces, hfollow, hp, hdot, hdots, bind, Except.bind]

theorem locate_of_directories {t t' : Tree}
    (hdirs : ∀ p, t.entry? p = some .directory → t'.entry? p = some .directory)
    (hhome : t'.home = t.home) {path name : String} {p : Place}
    (h : t.locate path = .ok (p, some name)) : t'.locate path = .ok (p, some name) := by
  obtain ⟨hcheck, ⟨texts, hpieces, hfollow⟩, hp, hdot, hdots⟩ := locate_eq_ok h
  have hfollow' := followAll_of_directories hdirs hfollow (by rw [hdirs p hp]; rfl)
  rw [← start_eq hhome] at hfollow'
  exact locate_of_followAll hcheck hpieces hfollow' (hdirs p hp) (by simpa using hdot)
    (by simpa using hdots)

theorem moveTo_of_locate {t : Tree} {p directory : Place} {path name : String} {e : Entry}
    (hlocate : t.locate path = .ok (directory, some name))
    (hshort : name.utf8ByteSize ≤ maxNameBytes) (hends : Path.endsInSeparator path = false)
    (htarget : t.entry? (directory ++ [name]) ≠ some .directory) (he : t.entry? p = some e) :
    t.moveTo p path = .ok ((t.remove p).put (directory ++ [name]) e) := by
  simp only [moveTo, hlocate, bind, Except.bind, Nat.not_lt.mpr hshort, hends, he]
  split
  · contradiction
  · rfl

/-- A path that the system takes: it has no NUL, and neither it nor a name in it nor the path of a
temporary file beside it is too long. -/
structure Nameable (t : Tree) (path : String) : Prop where
  whole : checkPath path = .ok ()
  temporary : checkPath (t.temporaryPath (Path.directoryOf path)) = .ok ()
  names : ∀ name ∈ Path.pieces path, name.utf8ByteSize ≤ maxNameBytes

/-- What a save to `path` asks of a tree: a directory that takes the temporary file, and in it a
name that is the last of the path and that no directory has. -/
structure Admits (t : Tree) (path : String) (p : Place) (name : String) : Prop where
  directory : t.stat (Path.directoryOf path) = .ok (p, .directory)
  temporary : checkPath (t.temporaryPath (Path.directoryOf path)) = .ok ()
  located : t.locate path = .ok (p, some name)
  ends : Path.endsInSeparator path = false
  short : name.utf8ByteSize ≤ maxNameBytes
  free : t.entry? (p ++ [name]) ≠ some .directory

section Admits

variable {t : Tree} {path : String} {p : Place} {name : String}

theorem Admits.moveTo (h : t.Admits path p name) {q : Place} (hfree : t.Free q)
    (content : Bytes) : (t.put q (.file content false)).moveTo q path =
      .ok (t.put (p ++ [name]) (.file content false)) := by
  let full := t.put q (.file content false)
  have hentry : ∀ q', full.entry? q' = if q' = q then some (.file content false)
      else t.entry? q' := entry?_put t _ hfree.ne_nil
  have hwithin : t.Within full := (filled_put hfree content).within hfree
  have hlocate : full.locate path = .ok (p, some name) :=
    locate_of_directories (fun q' => hwithin.entries q' _) hwithin.home h.located
  -- The temporary file is no directory, so it is not in the way either.
  have htarget : full.entry? (p ++ [name]) ≠ some .directory := by
    rw [hentry]
    split
    · exact nofun
    · exact h.free
  have hmoved := moveTo_of_locate hlocate h.short h.ends htarget ((hentry q).trans (if_pos rfl))
  rwa [remove_put hfree] at hmoved

theorem Admits.save (h : t.Admits path p name) {faults : Faults} (hf : ∀ s, faults s = none)
    (body : Bytes) : t.save faults path body =
      (.ok (), t.put (p ++ [name]) (.file (body ++ [0x0A]) false)) := by
  let q := p ++ [t.freeName p]
  have hfree : t.Free q := t.free_freeName p
  have hcreate : t.createTemporary (Path.directoryOf path) = .ok (t.put q (.file [] false), q) := by
    simp [createTemporary, h.temporary, h.directory, bind, Except.bind, q]
  exact Saving.save_of_none hf hfree.ne_nil hcreate (h.moveTo hfree _)

theorem Admits.put (h : t.Admits path p name) (content : Bytes) (executable : Bool) :
    (t.put (p ++ [name]) (.file content executable)).Admits path p name := by
  have hne : p ++ [name] ≠ [] := by simp
  have hdirs : ∀ q, t.entry? q = some .directory →
      Tree.entry? (t.put (p ++ [name]) (.file content executable)) q = some .directory := by
    intro q hq
    have hqn : q ≠ p ++ [name] := fun heq => h.free (heq ▸ hq)
    rw [entry?_put _ _ hne, if_neg hqn, hq]
  obtain ⟨hcheck, hfollow, hp, hsep⟩ := stat_eq_ok.mp h.directory
  have hfollow' := followAll_of_directories hdirs hfollow (by rw [hdirs p hp]; rfl)
  refine ⟨stat_eq_ok.mpr ⟨hcheck, hfollow', hdirs p hp, hsep⟩, h.temporary,
    locate_of_directories hdirs rfl h.located, h.ends, h.short, ?_⟩
  rw [entry?_put _ _ hne, if_pos rfl]
  exact nofun

end Admits

/-- Without a name at its end no path is ever moved to. -/
theorem endsInName_of_save {t t' : Tree} {faults : Faults} {path : String} {body : Bytes}
    (h : t.save faults path body = (.ok (), t')) : Path.endsInName path = true := by
  obtain ⟨-, p, -, hmove⟩ := save_eq_ok h
  obtain ⟨directory, name, e, hlocate, -, hsep, -⟩ := moveTo_eq_ok hmove
  obtain ⟨-, ⟨texts, hpieces, -⟩, -, hdot, -⟩ := locate_eq_ok hlocate
  have hlast : (Path.pieces path).getLast? ≠ some "." := by
    rw [hpieces, List.getLast?_concat]
    simpa using hdot
  simp [Path.endsInName, hsep, hlast]

theorem isDirectory_iff {t : Tree} {path : String} :
    t.isDirectory path = true ↔ ∃ p, t.stat path = .ok (p, .directory) := by
  unfold isDirectory
  split
  · rename_i p hp
    simp [hp]
  · rename_i hno
    exact ⟨nofun, fun ⟨p, hp⟩ => absurd hp (hno p)⟩

theorem isDirectory_here {t : Tree} (hhome : t.entry? t.home = some .directory) :
    t.isDirectory "." = true := by
  have hpieces : Path.pieces "." = ["."] := by decide
  have hstart : t.start "." = t.home := rfl
  refine isDirectory_iff.mpr ⟨t.home, stat_eq_ok.mpr ⟨by decide, ?_, hhome, by decide⟩⟩
  rw [hpieces, hstart, followAll, follow_here hhome]
  rfl

end Tree

end CompressionSweep
