import CompressionSweep.Proofs.FileTree.Entries
import Mathlib.Data.List.Nodup

/-! A save replaces the content of a file in one step. Cut off anywhere, it leaves the old content
or the new one, and when it fails it leaves the old one. -/

namespace CompressionSweep.Tree

/-! The temporary file stands where nothing has stood. -/

theorem temporaryName_injective {m n : Nat} (h : temporaryName m = temporaryName n) : m = n := by
  have hlen := congrArg String.length h
  simpa [temporaryName] using hlen

theorem freeName_not_mem (t : Tree) (p : Place) : t.freeName p ∉ t.namesAfter p := by
  unfold freeName
  dsimp only
  cases hfind : (List.range ((t.namesAfter p).length + 1)).find?
      (fun n => !(t.namesAfter p).contains (temporaryName n)) with
  | some n =>
    have hfree := List.find?_some hfind
    simpa using hfree
  | none =>
    -- More names have been tried than can be taken.
    have hall : ((List.range ((t.namesAfter p).length + 1)).map temporaryName) ⊆
        t.namesAfter p := by
      intro name hname
      obtain ⟨n, hn, rfl⟩ := List.mem_map.mp hname
      simpa using List.find?_eq_none.mp hfind n hn
    have hnd : ((List.range ((t.namesAfter p).length + 1)).map temporaryName).Nodup :=
      List.Nodup.map (fun _ _ h => temporaryName_injective h) List.nodup_range
    have hlen := (hnd.subperm hall).length_le
    rw [List.length_map, List.length_range] at hlen
    omega

theorem free_freeName (t : Tree) (p : Place) : t.Free (p ++ [t.freeName p]) := by
  intro q hq
  have hne : q ≠ [] := by
    rintro rfl
    simp at hq
  rw [entry?_of_ne hne, Option.map_eq_none_iff, List.find?_eq_none]
  intro e he heq
  obtain rfl := eq_of_beq heq
  refine t.freeName_not_mem p ?_
  have hp : p <+: e.1 := (List.prefix_append p _).trans hq
  refine List.mem_filterMap.mpr ⟨e, List.mem_filter.mpr ⟨he, ?_⟩, ?_⟩
  · exact List.isPrefixOf_iff_prefix.mpr hp
  · obtain ⟨rest, hrest⟩ := hq
    rw [← hrest]
    simp

/-- `t'` is `t` with a file of some content at `p`. -/
structure Filled (t : Tree) (p : Place) (content : Bytes) (t' : Tree) : Prop where
  file : t'.entry? p = some (.file content false)
  others : ∀ q, q ≠ p → t'.entry? q = t.entry? q
  home : t'.home = t.home

theorem createTemporary_eq_put {t t' : Tree} {directory : String} {p : Place}
    (h : t.createTemporary directory = .ok (t', p)) :
    t' = t.put p (.file [] false) ∧ t.Free p := by
  unfold createTemporary at h
  cases hc : checkPath (t.temporaryPath directory) with
  | error e => rw [hc] at h; cases h
  | ok u =>
    rw [hc] at h
    cases hs : t.stat directory with
    | error e => rw [hs] at h; cases h
    | ok x =>
      rw [hs] at h
      simp only [bind, Except.bind] at h
      split at h
      · obtain ⟨rfl, rfl⟩ := Prod.mk.inj (Except.ok.inj h)
        exact ⟨rfl, t.free_freeName x.1⟩
      · cases h

theorem appendTo_put (t : Tree) {p : Place} (hp : p ≠ []) (content more : Bytes) :
    Tree.appendTo (t.put p (.file content false)) p more =
      t.put p (.file (content ++ more) false) := by
  rw [Tree.appendTo, entry?_put _ _ hp, if_pos rfl]
  exact put_put t p _ _

theorem remove_put {t : Tree} {p : Place} (h : t.Free p) (e : Entry) :
    Tree.remove (t.put p e) p = t := by
  have hall : ∀ x ∈ t.entries, ¬ p <+: x.1 := by
    intro x hx hpx
    have hne : x.1 ≠ [] := fun hnil => h.ne_nil (List.prefix_nil.mp (hnil ▸ hpx))
    have hnone := h x.1 hpx
    rw [entry?_of_ne hne, Option.map_eq_none_iff, List.find?_eq_none] at hnone
    exact hnone x hx (beq_self_eq_true x.1)
  have hput : t.entries.filter (·.1 != p) = t.entries :=
    List.filter_eq_self.mpr (fun x hx => bne_iff_ne.mpr
      (fun hp => hall x hx (hp ▸ List.prefix_refl _)))
  have hremove : (t.entries ++ [(p, e)]).filter (fun x => !(p.isPrefixOf x.1)) = t.entries := by
    rw [List.filter_append, List.filter_eq_self.mpr, List.filter_singleton,
      List.isPrefixOf_iff_prefix.mpr (List.prefix_refl p)]
    · exact List.append_nil _
    · intro x hx
      rw [Bool.not_eq_true', ← Bool.not_eq_true, List.isPrefixOf_iff_prefix]
      exact hall x hx
  simp only [put, remove, hput, hremove]

theorem filled_put {t : Tree} {p : Place} (hfree : t.Free p) (content : Bytes) :
    t.Filled p content (t.put p (.file content false)) where
  file := by rw [entry?_put _ _ hfree.ne_nil, if_pos rfl]
  others q hq := by rw [entry?_put _ _ hfree.ne_nil, if_neg hq]
  home := rfl

theorem Filled.within {t t' : Tree} {p : Place} {content : Bytes} (hfree : t.Free p)
    (h : t.Filled p content t') : Within t t' where
  entries q e he := by
    have hq : q ≠ p := by
      rintro rfl
      exact hfree.not_prefix he (List.prefix_refl _)
    rw [h.others q hq, he]
  home := h.home

theorem moveTo_eq_ok {t t' : Tree} {p : Place} {path : String} (h : t.moveTo p path = .ok t') :
    ∃ directory name e, t.locate path = .ok (directory, some name) ∧
      ¬ maxNameBytes < name.utf8ByteSize ∧ Path.endsInSeparator path = false ∧
      t.entry? (directory ++ [name]) ≠ some .directory ∧ t.entry? p = some e ∧
      t' = (t.remove p).put (directory ++ [name]) e := by
  unfold moveTo at h
  cases hl : t.locate path with
  | error e => rw [hl] at h; cases h
  | ok x =>
    obtain ⟨directory, name⟩ := x
    rw [hl] at h
    cases name with
    | none => cases h
    | some name =>
      simp only [bind, Except.bind] at h
      split at h
      · cases h
      · rename_i hlong
        split at h
        · cases h
        · rename_i hsep
          split at h
          · cases h
          · rename_i e he hdir
            exact ⟨directory, name, e, rfl, hlong, Bool.eq_false_iff.mpr hsep, hdir, he,
              (Except.ok.inj h).symm⟩
          · cases h

theorem Filled.read_moveTo {t t₁ t₂ : Tree} {p : Place} {content : Bytes} {path : String}
    (hfree : t.Free p) (h : t.Filled p content t₁) (hmove : t₁.moveTo p path = .ok t₂) :
    t₂.read path = .ok content := by
  obtain ⟨directory, name, e, hlocate, hlong, hsep, hnodir, he, rfl⟩ := moveTo_eq_ok hmove
  obtain ⟨hcheck, ⟨names, hpieces, hfollow⟩, hdir, hdot, hdots⟩ := locate_eq_ok hlocate
  obtain rfl : Entry.file content false = e := Option.some.inj (h.file.symm.trans he)
  have hne : directory ++ [name] ≠ [] := by simp
  -- No directory is in the way of the move, so the path still leads where it led.
  have hdirs : ∀ q, t₁.entry? q = some .directory →
      Tree.entry? ((t₁.remove p).put (directory ++ [name]) (.file content false)) q =
        some .directory := by
    intro q hq
    have hpq : ¬ p <+: q := by
      intro hpq
      by_cases hqp : q = p
      · subst hqp
        rw [h.file] at hq
        cases hq
      · rw [h.others q hqp, hfree q hpq] at hq
        cases hq
    have hqn : q ≠ directory ++ [name] := by
      rintro rfl
      exact hnodir hq
    rw [entry?_put _ _ hne, if_neg hqn, entry?_remove_of_not_below hpq, hq]
  have hfile : Tree.entry? ((t₁.remove p).put (directory ++ [name]) (.file content false))
      (directory ++ [name]) = some (.file content false) := by
    rw [entry?_put _ _ hne, if_pos rfl]
  have hall := followAll_of_directories hdirs hfollow (by rw [hdirs _ hdir]; rfl)
  have hstat : ((t₁.remove p).put (directory ++ [name]) (.file content false)).stat path =
      .ok (directory ++ [name], .file content false) := by
    refine stat_eq_ok.mpr ⟨hcheck, ?_, hfile, by rw [hsep]; rfl⟩
    rw [hpieces]
    refine (followAll_append_singleton hall).trans ?_
    simp only [follow, hdirs _ hdir, hdot, hdots, Bool.false_eq_true, if_false, if_neg hlong, hfile,
      Option.isSome_some, if_true]
  rw [Tree.read, hstat]
  rfl

/-! The whole save. -/

end Tree

namespace Saving

variable {t t' : Tree} {faults : Faults} {p : Place} {path : String} {body : Bytes}

section Bind

variable {α β : Type} {x : Saving α}

theorem runOn_bind_ok {a : α} (h : x.runOn t = (.ok a, t')) (f : α → Saving β) :
    (x >>= f).runOn t = (f a).runOn t' := by
  change ExceptT.bindCont f (x.runOn t).1 (x.runOn t).2 = _
  rw [h]
  rfl

theorem runOn_bind_error {e : FileError} (h : x.runOn t = (.error e, t')) (f : α → Saving β) :
    (x >>= f).runOn t = (.error e, t') := by
  change ExceptT.bindCont f (x.runOn t).1 (x.runOn t).2 = _
  rw [h]
  rfl

theorem runOn_tryCatch_ok {a : α} (h : x.runOn t = (.ok a, t')) (f : FileError → Saving α) :
    (tryCatch x f).runOn t = (.ok a, t') := by
  have hx : StateT.run x t = _ := h
  simp only [runOn, tryCatch, tryCatchThe, MonadExceptOf.tryCatch, ExceptT.tryCatch,
    ExceptT.run_mk, StateT.run_bind, hx]
  rfl

theorem runOn_tryCatch_error {e : FileError} (h : x.runOn t = (.error e, t'))
    (f : FileError → Saving α) : (tryCatch x f).runOn t = (f e).runOn t' := by
  have hx : StateT.run x t = _ := h
  simp only [runOn, tryCatch, tryCatchThe, MonadExceptOf.tryCatch, ExceptT.tryCatch,
    ExceptT.run_mk, StateT.run_bind, hx]
  rfl

end Bind

theorem runOn_get (t : Tree) : (get : Saving Tree).runOn t = (.ok t, t) := rfl

theorem check_of_none {s : SaveStep} (h : faults s = none) :
    (check faults s).runOn t = (.ok (), t) := by
  rw [check, h]
  rfl

theorem check_cases (t : Tree) (faults : Faults) (s : SaveStep) :
    (∃ e, (check faults s).runOn t = (.error e, t)) ∨ faults s = none := by
  rw [check]
  cases faults s with
  | some f => exact .inl ⟨f.cause, rfl⟩
  | none => exact .inr rfl

theorem create_of_none {directory : String} (h : faults .create = none)
    (hc : t.createTemporary directory = .ok (t', p)) :
    (create faults directory).runOn t = (.ok p, t') := by
  rw [create, runOn_bind_ok (check_of_none h), runOn_bind_ok (runOn_get t), hc]
  rfl

/-- The temporary file is made where nothing has stood, or there is none. -/
theorem create_cases (t : Tree) (faults : Faults) (directory : String) :
    (∃ e, (create faults directory).runOn t = (.error e, t)) ∨
      faults .create = none ∧ ∃ p, t.Free p ∧
        t.createTemporary directory = .ok (t.put p (.file [] false), p) := by
  rcases check_cases t faults .create with ⟨e, h⟩ | hno
  · exact .inl ⟨e, runOn_bind_error h _⟩
  cases hc : t.createTemporary directory with
  | error e =>
    rw [create, runOn_bind_ok (check_of_none hno), runOn_bind_ok (runOn_get t), hc]
    exact .inl ⟨e, rfl⟩
  | ok x =>
    obtain ⟨t', p⟩ := x
    obtain ⟨rfl, hfree⟩ := Tree.createTemporary_eq_put hc
    exact .inr ⟨hno, p, hfree, rfl⟩

theorem write_eq (hp : p ≠ []) (content : Bytes) (faults : Faults) (body : Bytes) (s : SaveStep) :
    (write faults p body s).runOn (t.put p (.file content false)) =
      (check faults s).runOn (t.put p (.file (content ++ (faults s).elim (s.bytes body)
        (fun f => (s.bytes body).take f.written)) false)) := by
  rw [← Tree.appendTo_put t hp]
  rfl

theorem write_of_none (hp : p ≠ []) (content : Bytes) {s : SaveStep} (h : faults s = none) :
    (write faults p body s).runOn (t.put p (.file content false)) =
      (.ok (), t.put p (.file (content ++ s.bytes body) false)) := by
  rw [write_eq hp, check_of_none h, h, Option.elim_none]

theorem write_cases (t : Tree) (hp : p ≠ []) (content : Bytes) (faults : Faults) (body : Bytes)
    (s : SaveStep) :
    (∃ e part, (write faults p body s).runOn (t.put p (.file content false)) =
      (.error e, t.put p (.file part false))) ∨ faults s = none := by
  rw [write_eq hp]
  exact (check_cases _ faults s).imp_left (fun ⟨e, h⟩ => ⟨e, _, h⟩)

theorem writes_of_none (hp : p ≠ []) (htext : faults .writeText = none)
    (hend : faults .writeEnd = none) (rest : Saving Unit) :
    (do write faults p body .writeText; write faults p body .writeEnd; rest : Saving Unit).runOn
      (t.put p (.file [] false)) = rest.runOn (t.put p (.file (body ++ [0x0A]) false)) :=
  (runOn_bind_ok (write_of_none hp [] htext) _).trans
    (runOn_bind_ok (write_of_none hp body hend) _)

theorem fillAndMove_of_none (hp : p ≠ []) (hno : ∀ s, s ≠ .create → faults s = none)
    (hmove : (t.put p (.file (body ++ [0x0A]) false)).moveTo p path = .ok t') :
    (fillAndMove faults path body p).runOn (t.put p (.file [] false)) = (.ok (), t') := by
  rw [fillAndMove, writes_of_none hp (hno .writeText nofun) (hno .writeEnd nofun),
    runOn_bind_ok (check_of_none (hno .sync nofun)),
    runOn_bind_ok (check_of_none (hno .rename nofun)), runOn_bind_ok (runOn_get _), hmove]
  rfl

/-- Wherever the steps after the first one fail, nothing but the temporary file is different. -/
theorem fillAndMove_cases (t : Tree) (faults : Faults) (hp : p ≠ []) (path : String)
    (body : Bytes) :
    (∃ e part, (fillAndMove faults path body p).runOn (t.put p (.file [] false)) =
      (.error e, t.put p (.file part false))) ∨
    (∀ s, s ≠ .create → faults s = none) ∧
      ∃ t', (t.put p (.file (body ++ [0x0A]) false)).moveTo p path = .ok t' := by
  rcases write_cases t hp [] faults body .writeText with ⟨e, part, h⟩ | htext
  · exact .inl ⟨e, part, runOn_bind_error h _⟩
  rcases write_cases t hp body faults body .writeEnd with ⟨e, part, h⟩ | hend
  · refine .inl ⟨e, part, ?_⟩
    exact (runOn_bind_ok (write_of_none hp [] htext) _).trans (runOn_bind_error h _)
  rw [fillAndMove, writes_of_none hp htext hend]
  let full := t.put p (.file (body ++ [0x0A]) false)
  rcases check_cases full faults .sync with ⟨e, h⟩ | hsync
  · exact .inl ⟨e, _, runOn_bind_error h _⟩
  rw [runOn_bind_ok (check_of_none hsync)]
  rcases check_cases full faults .rename with ⟨e, h⟩ | hrename
  · exact .inl ⟨e, _, runOn_bind_error h _⟩
  rw [runOn_bind_ok (check_of_none hrename), runOn_bind_ok (runOn_get full)]
  cases hmove : full.moveTo p path with
  | error e => exact .inl ⟨e, _, rfl⟩
  | ok t' =>
    refine .inr ⟨fun s hs => ?_, t', rfl⟩
    cases s with
    | create => exact absurd rfl hs
    | writeText => exact htext
    | writeEnd => exact hend
    | sync => exact hsync
    | rename => exact hrename

theorem save_of_none (hno : ∀ s, faults s = none) (hp : p ≠ [])
    (hc : t.createTemporary (Path.directoryOf path) = .ok (t.put p (.file [] false), p))
    (hmove : (t.put p (.file (body ++ [0x0A]) false)).moveTo p path = .ok t') :
    t.save faults path body = (.ok (), t') :=
  (runOn_bind_ok (create_of_none (hno .create) hc) _).trans
    (runOn_tryCatch_ok (fillAndMove_of_none hp (fun s _ => hno s) hmove) _)

/-- How a save ends, and what it leaves if it is cut off where it would fail. Either nothing has
happened, or the temporary file is all that is different, which is then taken away, or no step has
failed. -/
theorem save_cases (t : Tree) (faults : Faults) (path : String) (body : Bytes) :
    (∃ e t', (attempt faults path body).runOn t = (.error e, t') ∧
      t.save faults path body = (.error e, t) ∧
      (t' = t ∨ ∃ p part, t.Free p ∧ t' = t.put p (.file part false))) ∨
    (∀ s, faults s = none) ∧ ∃ p t', t.Free p ∧
      t.createTemporary (Path.directoryOf path) = .ok (t.put p (.file [] false), p) ∧
      (t.put p (.file (body ++ [0x0A]) false)).moveTo p path = .ok t' := by
  rcases create_cases t faults (Path.directoryOf path) with ⟨e, h⟩ | ⟨hno, p, hfree, hc⟩
  · exact .inl ⟨e, t, runOn_bind_error h _, runOn_bind_error h _, .inl rfl⟩
  have hcreate := create_of_none hno hc
  rcases fillAndMove_cases t faults hfree.ne_nil path body with ⟨e, part, h⟩ | ⟨hothers, t', hmove⟩
  · refine .inl ⟨e, _, (runOn_bind_ok hcreate _).trans h, ?_, .inr ⟨p, part, hfree, rfl⟩⟩
    refine ((runOn_bind_ok hcreate _).trans (runOn_tryCatch_error h _)).trans ?_
    exact congrArg (Prod.mk (Except.error e)) (Tree.remove_put hfree _)
  · refine .inr ⟨fun s => ?_, p, t', hfree, hc, hmove⟩
    by_cases hs : s = .create
    · rw [hs, hno]
    · exact hothers s hs

end Saving

namespace Tree

variable {t t' : Tree} {faults : Faults} {path : String} {body : Bytes}

theorem save_eq_ok (h : t.save faults path body = (.ok (), t')) : (∀ s, faults s = none) ∧
    ∃ p, t.Free p ∧ (t.put p (.file (body ++ [0x0A]) false)).moveTo p path = .ok t' := by
  rcases Saving.save_cases t faults path body with ⟨e, t'', -, he, -⟩ |
    ⟨hno, p, t'', hfree, hc, hmove⟩
  · cases h.symm.trans he
  · have hok := Saving.save_of_none hno hfree.ne_nil hc hmove
    obtain rfl := congrArg Prod.snd (h.symm.trans hok)
    exact ⟨hno, p, hfree, hmove⟩

/-- A save in which a step fails does not succeed. -/
theorem no_fault_of_save (h : t.save faults path body = (.ok (), t')) (s : SaveStep) :
    faults s = none := (save_eq_ok h).1 s

theorem read_of_save (h : t.save faults path body = (.ok (), t')) :
    t'.read path = .ok (body ++ [0x0A]) := by
  obtain ⟨-, p, hfree, hmove⟩ := save_eq_ok h
  exact (filled_put hfree _).read_moveTo hfree hmove

/-- A save that succeeds puts a file at one place and changes nothing else. -/
theorem eq_put_of_save (h : t.save faults path body = (.ok (), t')) :
    ∃ q, t' = t.put q (.file (body ++ [0x0A]) false) := by
  obtain ⟨-, p, hfree, hmove⟩ := save_eq_ok h
  obtain ⟨directory, name, e, -, -, -, -, he, rfl⟩ := moveTo_eq_ok hmove
  rw [entry?_put _ _ hfree.ne_nil, if_pos rfl] at he
  rw [remove_put hfree, ← Option.some.inj he]
  exact ⟨_, rfl⟩

/-- A save that fails changes nothing: the temporary file is gone, whatever it held. -/
theorem eq_of_save_error {e : FileError} (h : t.save faults path body = (.error e, t')) :
    t' = t := by
  rcases Saving.save_cases t faults path body with ⟨e, t'', -, he, -⟩ |
    ⟨hno, p, t'', hfree, hc, hmove⟩
  · exact congrArg Prod.snd (h.symm.trans he)
  · cases h.symm.trans (Saving.save_of_none hno hfree.ne_nil hc hmove)

/-- A save that is cut off in one of its steps leaves at most a temporary file behind. -/
theorem of_cutOff {s : SaveStep} {n : Nat}
    (h : ((Saving.attempt (faults.cutOff s n) path body).runOn t).2 = t') :
    t' = t ∨ ∃ p part, t.Free p ∧ t' = t.put p (.file part false) := by
  rcases Saving.save_cases t (faults.cutOff s n) path body with ⟨e, left, hleft, -, hcases⟩ |
    ⟨hno, -⟩
  · obtain rfl : left = t' := (congrArg Prod.snd hleft).symm.trans h
    exact hcases
  · have hs := hno s
    rw [Faults.cutOff, if_pos rfl] at hs
    cases hs

/-- Wherever a save is cut off, a file that was there is as it was, or it has the new content. -/
theorem read_of_mem_saveStates {content : Bytes} (hr : t.read path = .ok content)
    (h : t' ∈ t.saveStates faults path body) :
    t'.read path = .ok content ∨ t'.read path = .ok (body ++ [0x0A]) := by
  rcases List.mem_append.mp h with hmem | hmem
  · obtain ⟨s, -, hmem⟩ := List.mem_flatMap.mp hmem
    obtain ⟨n, -, hcut⟩ := List.mem_map.mp hmem
    rcases of_cutOff hcut with rfl | ⟨p, part, hfree, rfl⟩
    · exact .inl hr
    · exact .inl (((filled_put hfree part).within hfree).read hr)
  · obtain rfl := List.mem_singleton.mp hmem
    cases hs : t.save faults path body with
    | mk result t' =>
      cases result with
      | ok u => exact .inr (read_of_save hs)
      | error e =>
        obtain rfl := eq_of_save_error hs
        exact .inl hr

end Tree

end CompressionSweep
