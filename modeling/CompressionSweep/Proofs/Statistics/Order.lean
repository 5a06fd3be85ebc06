import CompressionSweep.Proofs.Decimal.Bits
import CompressionSweep.Statistics

/-! Statistics of measurements in another order. The total order on doubles tells all of them apart,
so a sorted list is determined by its members; a total of sizes is their sum, cut at the largest
size. -/

namespace CompressionSweep

section SortByKey

variable {α : Type}

theorem key_trans (key : α → Nat) (a b c : α) (hab : decide (key a ≤ key b) = true)
    (hbc : decide (key b ≤ key c) = true) : decide (key a ≤ key c) = true := by
  simp only [decide_eq_true_eq] at *
  omega

theorem key_total (key : α → Nat) (a b : α) :
    (decide (key a ≤ key b) || decide (key b ≤ key a)) = true := by
  simp only [Bool.or_eq_true, decide_eq_true_eq]
  omega

theorem pairwise_mergeSort_key (key : α → Nat) (as : List α) :
    (as.mergeSort (fun a b => key a ≤ key b)).Pairwise (fun a b => key a ≤ key b) :=
  (List.pairwise_mergeSort (key_trans key) (key_total key) as).imp of_decide_eq_true

/-- Sorting by a key that tells the members apart forgets their order. -/
theorem mergeSort_eq_of_perm {key : α → Nat} {as bs : List α} (h : as.Perm bs)
    (hkey : ∀ a ∈ as, ∀ b ∈ as, key a = key b → a = b) :
    as.mergeSort (fun a b => key a ≤ key b) = bs.mergeSort (fun a b => key a ≤ key b) := by
  have hperm : ∀ cs : List α, (cs.mergeSort (fun a b => key a ≤ key b)).Perm cs :=
    fun cs => List.mergeSort_perm cs _
  refine List.Perm.eq_of_pairwise (fun a b ha hb hab hba => ?_) (pairwise_mergeSort_key key as)
    (pairwise_mergeSort_key key bs) ((hperm as).trans (h.trans (hperm bs).symm))
  refine hkey a ((hperm as).mem_iff.mp ha) b (h.mem_iff.mpr ((hperm bs).mem_iff.mp hb)) ?_
  exact Nat.le_antisymm hab hba

/-- Sorting by a key keeps the order of members that it ties. -/
theorem filter_mergeSort_of_tie {key : α → Nat} {p : α → Bool} {n : Nat}
    (hp : ∀ a, p a = true → key a = n) (as : List α) :
    (as.mergeSort (fun a b => key a ≤ key b)).filter p = as.filter p := by
  have htied : (as.filter p).Pairwise (fun a b => decide (key a ≤ key b) = true) := by
    refine List.pairwise_of_forall_mem_list (fun a ha b hb => ?_)
    simp [hp a (List.mem_filter.mp ha).2, hp b (List.mem_filter.mp hb).2]
  have hsub := (List.sublist_mergeSort (key_trans key) (key_total key) htied
    List.filter_sublist).filter p
  simp only [List.filter_filter, Bool.and_self] at hsub
  exact (hsub.eq_of_length ((List.mergeSort_perm as _).filter p).length_eq.symm).symm

/-- Members that come first by their key come first in a sorted list. -/
theorem filter_append_filter_of_sorted {key : α → Nat} {p : α → Bool} {as : List α}
    (h : as.Pairwise (fun a b => key a ≤ key b))
    (hp : ∀ a b, key a ≤ key b → p b = true → p a = true) :
    as.filter p ++ as.filter (!p ·) = as := by
  induction as with
  | nil => rfl
  | cons a as ih =>
    obtain ⟨ha, hrest⟩ := List.pairwise_cons.mp h
    by_cases hfirst : p a = true
    · simp [hfirst, ih hrest]
    · have hlater : ∀ b ∈ as, ¬ p b = true := fun b hb hpb => hfirst (hp a b (ha b hb) hpb)
      have hnone : as.filter p = [] := List.filter_eq_nil_iff.mpr hlater
      have hall : as.filter (!p ·) = as := List.filter_eq_self.mpr (by simpa using hlater)
      simp [hfirst, hnone, hall]

end SortByKey

theorem Decimal.orderKey_injective {x y : Float} (h : orderKey x = orderKey y) : x = y := by
  have hx := x.toBits.toNat_lt
  have hy := y.toBits.toNat_lt
  have hmx : magnitudeBits x = x.toBits.toNat % 2 ^ 63 := rfl
  have hmy : magnitudeBits y = y.toBits.toNat % 2 ^ 63 := rfl
  apply Float.toBits_inj.mp
  apply UInt64.toNat_inj.mp
  unfold orderKey at h
  rw [hmx, hmy] at h
  split_ifs at h with hneg hneg' hneg' <;> rw [isNegative_iff] at hneg hneg' <;> omega

namespace Statistics

theorem sorted_eq_of_perm {xs ys : List Float} (h : xs.Perm ys) : sorted xs = sorted ys :=
  mergeSort_eq_of_perm h (fun _ _ _ _ => Decimal.orderKey_injective)

theorem toNat_addClamped (a b : UInt64) :
    (addClamped a b).toNat = min (a.toNat + b.toNat) (UInt64.size - 1) := by
  have hsize : UInt64.size = 2 ^ 64 := rfl
  unfold addClamped
  split
  · rw [UInt64.toNat_add, Nat.mod_eq_of_lt (by omega)]
    omega
  · rw [Nat.min_eq_right (by omega)]
    rfl

/-- A total is the exact sum, or the largest size if the sum is larger. -/
theorem toNat_totalBytes (sizes : List UInt64) :
    (totalBytes sizes).toNat = min (sizes.map (·.toNat)).sum (UInt64.size - 1) := by
  have hsize : UInt64.size = 2 ^ 64 := rfl
  have hfold : ∀ (sizes : List UInt64) (a : UInt64), (sizes.foldl addClamped a).toNat =
      min (a.toNat + (sizes.map (·.toNat)).sum) (UInt64.size - 1) := by
    intro sizes
    induction sizes with
    | nil =>
      intro a
      have ha := a.toNat_lt
      simp only [List.foldl_nil, List.map_nil, List.sum_nil, Nat.add_zero]
      omega
    | cons size sizes ih =>
      intro a
      rw [List.foldl_cons, ih, toNat_addClamped, List.map_cons, List.sum_cons]
      omega
  rw [totalBytes, hfold]
  exact congrArg (min · (UInt64.size - 1)) (Nat.zero_add _)

theorem totalBytes_eq_of_perm {sizes sizes' : List UInt64} (h : sizes.Perm sizes') :
    totalBytes sizes = totalBytes sizes' := by
  apply UInt64.toNat_inj.mp
  rw [toNat_totalBytes, toNat_totalBytes, (h.map _).sum_nat]

theorem seconds_eq_of_perm {ms ms' : List Measurement} (h : ms.Perm ms') :
    seconds ms = seconds ms' :=
  sorted_eq_of_perm (h.map _)

theorem sizes_eq_of_perm {ms ms' : List Measurement} (h : ms.Perm ms') : sizes ms = sizes ms' :=
  sorted_eq_of_perm (h.map _)

end Statistics

section Distinct

variable {α : Type} [BEq α] [LawfulBEq α] {a : α} {as bs : List α}

theorem mem_distinct : a ∈ distinct as ↔ a ∈ as := by
  induction as with
  | nil => exact Iff.rfl
  | cons b as ih =>
    rw [distinct]
    split
    · rename_i hb
      rw [ih, List.mem_cons]
      exact ⟨.inr, fun h => h.elim (fun hab => hab ▸ List.contains_iff_mem.mp hb) id⟩
    · rw [List.mem_cons, List.mem_cons, ih]

theorem nodup_distinct (as : List α) : (distinct as).Nodup := by
  induction as with
  | nil => exact List.nodup_nil
  | cons b as ih =>
    rw [distinct]
    split
    · exact ih
    · rename_i hb
      refine List.nodup_cons.mpr ⟨fun h => hb ?_, ih⟩
      exact List.contains_iff_mem.mpr (mem_distinct.mp h)

theorem length_distinct_eq_of_perm (h : as.Perm bs) :
    (distinct as).length = (distinct bs).length := by
  refine List.Perm.length_eq ?_
  refine (List.perm_ext_iff_of_nodup (nodup_distinct as) (nodup_distinct bs)).mpr (fun a => ?_)
  rw [mem_distinct, mem_distinct, h.mem_iff]

end Distinct

theorem FileStatistics.ofSamples_eq_of_perm {ss ss' : List Sample} (h : ss.Perm ss') :
    ofSamples ss = ofSamples ss' := by
  have hms := h.map (·.2)
  have hruns := length_distinct_eq_of_perm (h.map (·.1))
  simp only [ofSamples, Statistics.seconds_eq_of_perm hms, Statistics.sizes_eq_of_perm hms, hruns,
    hms.length_eq]

end CompressionSweep
