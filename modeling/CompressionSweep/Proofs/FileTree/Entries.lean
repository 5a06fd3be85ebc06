import CompressionSweep.FileTree.Save
import Mathlib.Data.List.Perm.Subperm

/-! What stands where after an entry is put or removed, and paths that lead to the same place in
a tree with more entries. -/

namespace CompressionSweep.Tree

theorem find?_filter_of_imp {α : Type} {p keep : α → Bool} (h : ∀ a, p a = true → keep a = true)
    (as : List α) : (as.filter keep).find? p = as.find? p := by
  rw [List.find?_filter]
  congr 1
  funext a
  cases hp : p a
  · simp
  · simp [h a hp]

theorem entry?_of_ne {t : Tree} {p : Place} (hp : p ≠ []) :
    t.entry? p = (t.entries.find? (·.1 == p)).map (·.2) := if_neg hp

theorem entry?_put (t : Tree) {p : Place} (e : Entry) (hp : p ≠ []) (q : Place) :
    Tree.entry? (t.put p e) q = if q = p then some e else t.entry? q := by
  by_cases hq : q = []
  · subst hq
    rw [if_neg (Ne.symm hp)]
    rfl
  rw [entry?_of_ne hq, entry?_of_ne hq, put, List.find?_append]
  by_cases hqp : q = p
  · subst hqp
    have hnone : (t.entries.filter (·.1 != q)).find? (·.1 == q) = none := by
      rw [List.find?_eq_none]
      intro x hx
      simpa using (List.mem_filter.mp hx).2
    rw [hnone, if_pos rfl, Option.none_or, List.find?_singleton, if_pos (beq_self_eq_true q)]
    rfl
  · have hkeep : (t.entries.filter (·.1 != p)).find? (·.1 == q) = t.entries.find? (·.1 == q) :=
      find?_filter_of_imp (fun x hx => by rw [eq_of_beq hx]; exact bne_iff_ne.mpr hqp) _
    have hlast : [(p, e)].find? (·.1 == q) = none := by
      rw [List.find?_singleton]
      exact if_neg (by simpa using Ne.symm hqp)
    rw [if_neg hqp, hkeep, hlast, Option.or_none]

theorem put_put (t : Tree) (p : Place) (e e' : Entry) :
    Tree.put (t.put p e) p e' = t.put p e' := by
  have hkeep : (t.entries.filter (·.1 != p) ++ [(p, e)]).filter (·.1 != p) =
      t.entries.filter (·.1 != p) := by
    rw [List.filter_append, List.filter_filter, List.filter_singleton, bne_self_eq_false]
    simp
  simp only [put, hkeep]

theorem entry?_remove_of_not_below {t : Tree} {p q : Place} (h : ¬ p <+: q) :
    Tree.entry? (t.remove p) q = t.entry? q := by
  by_cases hq : q = []
  · subst hq
    rfl
  rw [entry?_of_ne hq, entry?_of_ne hq, remove, find?_filter_of_imp]
  intro x hx
  rw [eq_of_beq hx, Bool.not_eq_true', ← Bool.not_eq_true, List.isPrefixOf_iff_prefix]
  exact h

/-- Everything that stands in `t` stands at the same place in `t'`. -/
structure Within (t t' : Tree) : Prop where
  entries : ∀ p e, t.entry? p = some e → t'.entry? p = some e
  home : t'.home = t.home

/-- No place of the tree begins with `p`. -/
def Free (t : Tree) (p : Place) : Prop := ∀ q, p <+: q → t.entry? q = none

theorem Free.not_prefix {t : Tree} {p q : Place} (h : t.Free p) {e : Entry}
    (he : t.entry? q = some e) : ¬ p <+: q := by
  intro hpq
  rw [h q hpq] at he
  cases he

theorem Free.ne_nil {t : Tree} {p : Place} (h : t.Free p) : p ≠ [] := by
  rintro rfl
  have hroot := h [] (List.prefix_refl [])
  cases hroot

section Paths

variable {t t' : Tree}

theorem directory_of_follow {p q : Place} {name : String} (h : t.follow p name = .ok q) :
    t.entry? p = some .directory := by
  unfold follow at h
  split at h
  · assumption
  · cases h
  · cases h

theorem follow_of_directory {p q : Place} {name : String} (hp : t'.entry? p = some .directory)
    (hq : (t'.entry? q).isSome) (h : t.follow p name = .ok q) : t'.follow p name = .ok q := by
  have hdir := directory_of_follow h
  unfold follow at h ⊢
  rw [hdir] at h
  rw [hp]
  dsimp only at h ⊢
  split_ifs at h ⊢ with _ _ _ hsome
  · exact h
  · exact h
  · exact h
  · obtain rfl := Except.ok.inj h
    exact absurd hq hsome

theorem followAll_cons {p q : Place} {name : String} {names : List String}
    (h : t.followAll p (name :: names) = .ok q) :
    ∃ p', t.follow p name = .ok p' ∧ t.followAll p' names = .ok q := by
  rw [followAll] at h
  split at h
  · cases h
  · rename_i p' hp'
    exact ⟨p', hp', h⟩

theorem followAll_of_directories
    (hdirs : ∀ p, t.entry? p = some .directory → t'.entry? p = some .directory) {p q : Place}
    {names : List String} (h : t.followAll p names = .ok q) (hq : (t'.entry? q).isSome) :
    t'.followAll p names = .ok q := by
  induction names generalizing p with
  | nil => exact h
  | cons name names ih =>
    obtain ⟨p', hp', hall⟩ := followAll_cons h
    have hsome : (t'.entry? p').isSome := by
      cases names with
      | nil =>
        obtain rfl := Except.ok.inj hall
        exact hq
      | cons next names =>
        obtain ⟨_, hnext, _⟩ := followAll_cons hall
        rw [hdirs p' (directory_of_follow hnext)]
        rfl
    rw [followAll, follow_of_directory (hdirs p (directory_of_follow hp')) hsome hp']
    exact ih hall

theorem followAll_append_singleton {p q : Place} {names : List String} {name : String}
    (h : t.followAll p names = .ok q) :
    t.followAll p (names ++ [name]) = t.follow q name := by
  induction names generalizing p with
  | nil =>
    obtain rfl := Except.ok.inj h
    rw [List.nil_append, followAll]
    cases t.follow p name with
    | error e => rfl
    | ok q => rfl
  | cons n names ih =>
    obtain ⟨p', hp', hall⟩ := followAll_cons h
    rw [List.cons_append, followAll, hp']
    exact ih hall

theorem stat_eq_ok {path : String} {q : Place} {e : Entry} :
    t.stat path = .ok (q, e) ↔ checkPath path = .ok () ∧
      t.followAll (t.start path) (Path.pieces path) = .ok q ∧ t.entry? q = some e ∧
      (Path.endsInSeparator path && e != .directory) = false := by
  constructor
  · intro h
    unfold stat at h
    cases hc : checkPath path with
    | error e => rw [hc] at h; cases h
    | ok u =>
      rw [hc] at h
      cases hf : t.followAll (t.start path) (Path.pieces path) with
      | error e => rw [hf] at h; cases h
      | ok p =>
        rw [hf] at h
        simp only [bind, Except.bind] at h
        split at h
        · cases h
        · rename_i e' he
          split at h
          · cases h
          · rename_i hsep
            cases h
            exact ⟨rfl, rfl, he, Bool.eq_false_iff.mpr hsep⟩
  · rintro ⟨hc, hf, he, hsep⟩
    simp only [stat, hc, hf, bind, Except.bind, he, hsep]
    rfl

theorem start_eq (h : t'.home = t.home) (path : String) : t'.start path = t.start path := by
  rw [start, start, h]

theorem Within.stat (h : Within t t') {path : String} {q : Place} {e : Entry}
    (hs : t.stat path = .ok (q, e)) : t'.stat path = .ok (q, e) := by
  obtain ⟨hcheck, hfollow, hentry, hsep⟩ := stat_eq_ok.mp hs
  refine stat_eq_ok.mpr ⟨hcheck, ?_, h.entries q e hentry, hsep⟩
  rw [start_eq h.home]
  refine followAll_of_directories (fun p hp => h.entries p _ hp) hfollow ?_
  rw [h.entries q e hentry]
  rfl

theorem Within.read (h : Within t t') {path : String} {content : Bytes}
    (hr : t.read path = .ok content) : t'.read path = .ok content := by
  unfold Tree.read at hr ⊢
  cases hs : t.stat path with
  | error e =>
    rw [hs] at hr
    cases hr
  | ok x =>
    rw [hs] at hr
    rw [h.stat hs]
    exact hr

theorem locate_eq_ok {path : String} {p : Place} {name : String}
    (h : t.locate path = .ok (p, some name)) : checkPath path = .ok () ∧
      (∃ names, Path.pieces path = names ++ [name] ∧ t.followAll (t.start path) names = .ok p) ∧
      t.entry? p = some .directory ∧ (name == ".") = false ∧ (name == "..") = false := by
  unfold locate at h
  cases hc : checkPath path with
  | error e => rw [hc] at h; cases h
  | ok u =>
    rw [hc] at h
    simp only [bind, Except.bind] at h
    split at h
    · cases h
    · rename_i last hlast
      split at h
      · cases h
      · rename_i p' hfollow
        split at h
        · rename_i hdir
          obtain ⟨rfl, hname⟩ := Prod.mk.inj (Except.ok.inj h)
          split at hname
          · cases hname
          · rename_i hdots
            cases hname
            obtain ⟨hdot, hdots⟩ := Bool.or_eq_false_iff.mp (Bool.eq_false_iff.mpr hdots)
            obtain ⟨names, hnames⟩ := List.getLast?_eq_some_iff.mp hlast
            rw [hnames, List.dropLast_concat] at hfollow
            exact ⟨rfl, ⟨names, hnames, hfollow⟩, hdir, hdot, hdots⟩
        · cases h
        · cases h

end Paths

end CompressionSweep.Tree
