import CompressionSweep.Proofs.Json.Number

/-! Whole numbers in groups of three digits. The groups are what stands between the commas, and
without the commas the text is the number. -/

namespace CompressionSweep.Decimal

/-- The scan stands in front of the digits `ds`: what it writes for them is a first group of one to
three digits and groups of three behind it. -/
theorem exists_groups {ds : List Char} (h : ds ≠ []) :
    ∃ first more, groupDigits ds = [','].intercalate (first :: more) ∧
      first ++ more.flatten = ds ∧ 1 ≤ first.length ∧ first.length ≤ 3 ∧
      ∀ g ∈ more, g.length = 3 := by
  induction ds with
  | nil => exact absurd rfl h
  | cons d ds ih =>
    by_cases hds : ds = []
    · subst hds
      exact ⟨[d], [], rfl, rfl, by simp, by simp, by simp⟩
    · obtain ⟨first, more, hgroups, hflat, hpos, hle, hmore⟩ := ih hds
      have hsum : (more.map List.length).sum = 3 * more.length := by
        rw [List.map_congr_left hmore, List.map_const', List.sum_replicate, smul_eq_mul,
          Nat.mul_comm]
      have hlen : ds.length = first.length + 3 * more.length := by
        rw [← hsum, ← List.length_flatten, ← List.length_append, hflat]
      by_cases hmod : ds.length % 3 = 0
      · -- The digits that remain begin with a full group, so `d` is a group of its own.
        have hthree : first.length = 3 := by omega
        refine ⟨[d], first :: more, ?_, by simp [hflat], by simp, by simp, ?_⟩
        · rw [groupDigits, if_pos ⟨hmod, hds⟩, hgroups, List.intercalate_cons_cons]
          rfl
        · exact List.forall_mem_cons.mpr ⟨hthree, hmore⟩
      · refine ⟨d :: first, more, ?_, by simp [hflat], by simp, ?_, hmore⟩
        · rw [groupDigits, if_neg (fun hh => hmod hh.1), hgroups]
          cases more <;> simp
        · simp only [List.length_cons]
          omega

theorem filter_groupDigits {ds : List Char} (h : ',' ∉ ds) :
    (groupDigits ds).filter (· != ',') = ds := by
  induction ds with
  | nil => rfl
  | cons d ds ih =>
    obtain ⟨hd, hds⟩ := not_or.mp (mt List.mem_cons.mpr h)
    have hne : (d != ',') = true := bne_iff_ne.mpr (Ne.symm hd)
    rw [groupDigits]
    split_ifs <;> simp [hne, ih hds]

theorem head?_groupDigits (ds : List Char) : (groupDigits ds).head? = ds.head? := by
  cases ds with
  | nil => rfl
  | cons d ds =>
    rw [groupDigits]
    split_ifs <;> rfl

theorem getLast?_groupDigits (ds : List Char) : (groupDigits ds).getLast? = ds.getLast? := by
  induction ds with
  | nil => rfl
  | cons d ds ih =>
    cases ds with
    | nil => rfl
    | cons e ds =>
      have hne : groupDigits (e :: ds) ≠ [] := by
        intro hh
        have hhead := head?_groupDigits (e :: ds)
        simp [hh] at hhead
      rw [groupDigits]
      split_ifs <;> simp [List.getLast?_cons, ← ih, List.getLast?_eq_some_getLast hne]

theorem comma_not_mem_digitsOf (n : Nat) : ',' ∉ digitsOf n :=
  fun h => absurd (Json.allDigits_digitsOf n ',' h) (by decide)

theorem filter_groupThousands (n : Nat) :
    String.ofList ((groupThousands n).toList.filter (· != ',')) = toString n := by
  rw [groupThousands, String.toList_ofList, filter_groupDigits (comma_not_mem_digitsOf n)]
  rfl

/-- A number in thousands is groups of digits with single commas between them, one to three digits
in the first and three in each other, and without the commas it is the number's decimal form. -/
theorem thousands_exact (n : Nat) :
    (∃ first more, (groupThousands n).toList = [','].intercalate (first :: more) ∧
      (groupThousands n).toList.splitOn ',' = first :: more ∧
      1 ≤ first.length ∧ first.length ≤ 3 ∧ (∀ g ∈ more, g.length = 3) ∧
      ∀ g ∈ first :: more, ∀ c ∈ g, c.isDigit = true) ∧
    String.ofList ((groupThousands n).toList.filter (· != ',')) = toString n ∧
    ((groupThousands n).toList.head? = some '0' → n = 0) ∧
    (groupThousands n).toList.head? ≠ some ',' ∧
    (groupThousands n).toList.getLast? ≠ some ',' ∧
    ∀ m, groupThousands m = groupThousands n → m = n := by
  have htext : (groupThousands n).toList = groupDigits (digitsOf n) := String.toList_ofList
  have hcomma := comma_not_mem_digitsOf n
  have hne : digitsOf n ≠ [] := Nat.toDigits_ne_nil
  obtain ⟨first, more, hgroups, hflat, hpos, hle, hmore⟩ := exists_groups hne
  have hdigits : ∀ g ∈ first :: more, ∀ c ∈ g, c.isDigit = true := by
    intro g hg c hc
    have hmem : c ∈ (first :: more).flatten := List.mem_flatten_of_mem hg hc
    rw [List.flatten_cons, hflat] at hmem
    exact Json.allDigits_digitsOf n c hmem
  have hfree : ∀ g ∈ first :: more, ',' ∉ g :=
    fun g hg hc => absurd (hdigits g hg ',' hc) (by decide)
  refine ⟨⟨first, more, htext.trans hgroups, ?_, hpos, hle, hmore, hdigits⟩,
    filter_groupThousands n, ?_, ?_, ?_, ?_⟩
  · rw [htext, hgroups]
    exact List.splitOn_intercalate ',' hfree (List.cons_ne_nil first more)
  · rw [htext, head?_groupDigits]
    intro hzero
    by_contra hn
    exact Json.head?_digitsOf hn hzero
  · rw [htext, head?_groupDigits]
    exact fun hh => hcomma (List.mem_of_mem_head? hh)
  · rw [htext, getLast?_groupDigits]
    exact fun hh => hcomma (List.mem_of_mem_getLast? hh)
  · intro m hm
    have hrepr : toString m = toString n := by
      rw [← filter_groupThousands m, ← filter_groupThousands n, hm]
    exact Nat.repr_inj.mp hrepr

example : groupThousands 1234567 = "1,234,567" := by decide

end CompressionSweep.Decimal
