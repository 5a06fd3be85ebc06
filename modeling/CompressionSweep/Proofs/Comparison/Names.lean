import CompressionSweep.Comparison
import CompressionSweep.Proofs.Statistics.Order

/-! The algorithms that a comparison lists: the expected ones and all others of the document, sorted
by their rank, which tells all known algorithms apart. -/

namespace CompressionSweep

theorem filter_eq_singleton_of_nodup {α κ : Type} [BEq κ] [LawfulBEq κ] {key : α → κ}
    {as : List α} (hnd : (as.map key).Nodup) {a : α} (ha : a ∈ as) :
    as.filter (key · == key a) = [a] := by
  induction as with
  | nil => exact absurd ha List.not_mem_nil
  | cons b as ih =>
    obtain ⟨hb, hnd⟩ := List.nodup_cons.mp hnd
    rcases List.mem_cons.mp ha with rfl | ha
    · have hnone : as.filter (key · == key a) = [] := by
        refine List.filter_eq_nil_iff.mpr (fun x hx heq => hb ?_)
        exact List.mem_map.mpr ⟨x, hx, eq_of_beq heq⟩
      simp [hnone]
    · have hne : key b ≠ key a := fun heq => hb (heq ▸ List.mem_map_of_mem ha)
      simp [hne, ih hnd ha]

namespace Comparison

theorem foldl_addMissing {ns : List String} (hnd : ns.Nodup) (known : List String) :
    ns.foldl (fun ns n => if ns.contains n then ns else ns ++ [n]) known =
      known ++ ns.filter (fun n => !known.contains n) := by
  induction ns generalizing known with
  | nil => exact (List.append_nil known).symm
  | cons n ns ih =>
    obtain ⟨hn, hnd⟩ := List.nodup_cons.mp hnd
    rw [List.foldl_cons, ih hnd, List.filter_cons]
    by_cases hk : known.contains n = true
    · rw [if_pos hk, hk]
      rfl
    · have hmore : ns.filter (fun m => !(known ++ [n]).contains m) =
          ns.filter (fun m => !known.contains m) := by
        refine List.filter_congr (fun m hm => ?_)
        have hmn : m ≠ n := fun h => hn (h ▸ hm)
        simp [hmn]
      rw [if_neg hk, Bool.eq_false_iff.mpr hk, hmore, List.append_assoc]
      rfl

theorem mem_foldl_addMissing (ns known : List String) (name : String) :
    name ∈ ns.foldl (fun ns n => if ns.contains n then ns else ns ++ [n]) known ↔
      name ∈ known ∨ name ∈ ns := by
  induction ns generalizing known with
  | nil => simp
  | cons n ns ih =>
    rw [List.foldl_cons, ih]
    by_cases hk : n ∈ known
    · have hstored : name = n → name ∈ known := fun h => h ▸ hk
      simp only [List.contains_iff_mem, hk, if_true, List.mem_cons]
      tauto
    · simp [hk, or_assoc]

/-- The order of the algorithms in a document does not show if all of them are known. -/
theorem names_eq_of_perm {d d' : Document} (hd : (d.compressions.map (·.algorithm)).Nodup)
    (h : (d.compressions.map (·.algorithm)).Perm (d'.compressions.map (·.algorithm)))
    (hknown : ∀ name ∈ d.compressions.map (·.algorithm), ∃ a : Algorithm, name = a.name)
    (expected : List Algorithm) : names d expected = names d' expected := by
  unfold names
  dsimp only
  rw [foldl_addMissing hd, foldl_addMissing (h.nodup_iff.mp hd)]
  have hall : ∀ name ∈ expected.map (·.name) ++ (d.compressions.map (·.algorithm)).filter
      (fun n => !(expected.map (·.name)).contains n), ∃ a : Algorithm, name = a.name := by
    intro name hname
    rcases List.mem_append.mp hname with hname | hname
    · obtain ⟨a, -, rfl⟩ := List.mem_map.mp hname
      exact ⟨a, rfl⟩
    · exact hknown name (List.mem_filter.mp hname).1
  refine mergeSort_eq_of_perm ((h.filter _).append_left _) (fun n hn n' hn' hrank => ?_)
  obtain ⟨a, rfl⟩ := hall n hn
  obtain ⟨a', rfl⟩ := hall n' hn'
  exact congrArg Algorithm.name (Algorithm.rank_injective hrank)

end Comparison

end CompressionSweep
