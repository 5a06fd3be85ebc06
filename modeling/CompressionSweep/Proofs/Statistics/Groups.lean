import CompressionSweep.Proofs.Statistics.Order

/-! Samples grouped by file. Each file has one group, which holds its samples in their order, and
the groups are sorted by file. -/

namespace CompressionSweep

/-- The samples `ss` in groups. -/
structure Grouped (ss : List Sample) (groups : List (String × List Sample)) : Prop where
  sorted : (groups.map (·.1)).Pairwise (· < ·)
  covers : ∀ file, file ∈ groups.map (·.1) ↔ file ∈ ss.map (·.2.file)
  holds : ∀ g ∈ groups, g.2 = ss.filter (·.2.file == g.1)

theorem mem_keys_insertSample (s : Sample) (groups : List (String × List Sample)) (file : String) :
    file ∈ (insertSample s groups).map (·.1) ↔ file = s.2.file ∨ file ∈ groups.map (·.1) := by
  induction groups with
  | nil => simp [insertSample]
  | cons g groups ih =>
    rw [insertSample]
    split
    · rename_i heq
      simp [eq_of_beq heq]
    · split
      · simp
      · rw [List.map_cons, List.mem_cons, ih, List.map_cons, List.mem_cons]
        exact or_left_comm

theorem sorted_insertSample (s : Sample) {groups : List (String × List Sample)}
    (h : (groups.map (·.1)).Pairwise (· < ·)) :
    ((insertSample s groups).map (·.1)).Pairwise (· < ·) := by
  induction groups with
  | nil => exact List.pairwise_singleton _ _
  | cons g groups ih =>
    obtain ⟨hg, hrest⟩ := List.pairwise_cons.mp h
    rw [insertSample]
    split
    · exact h
    · rename_i hne
      split
      · rename_i hless
        refine List.pairwise_cons.mpr ⟨List.forall_mem_cons.mpr ⟨hless, fun file hfile => ?_⟩, h⟩
        exact String.lt_trans hless (hg file hfile)
      · rename_i hge
        refine List.pairwise_cons.mpr ⟨fun file hfile => ?_, ih hrest⟩
        rcases (mem_keys_insertSample s groups file).mp hfile with rfl | hfile
        · exact lt_of_le_of_ne (String.not_lt.mp hge) (fun heq => hne (beq_iff_eq.mpr heq.symm))
        · exact hg file hfile

/-- What holds of the groups after an insertion: the group of the sample's file has grown or is new,
all others are as they were. -/
theorem forall_insertSample {s : Sample} {P Q : String × List Sample → Prop}
    {groups : List (String × List Sample)} (hsorted : (groups.map (·.1)).Pairwise (· < ·))
    (h : ∀ g ∈ groups, P g) (hother : ∀ g, P g → g.1 ≠ s.2.file → Q g)
    (hgrown : ∀ ss, P (s.2.file, ss) → Q (s.2.file, ss ++ [s]))
    (hnew : s.2.file ∉ groups.map (·.1) → Q (s.2.file, [s])) :
    ∀ g ∈ insertSample s groups, Q g := by
  induction groups with
  | nil => exact List.forall_mem_singleton.mpr (hnew List.not_mem_nil)
  | cons g groups ih =>
    obtain ⟨hg, hrest⟩ := List.pairwise_cons.mp hsorted
    obtain ⟨hfirst, hgroups⟩ := List.forall_mem_cons.mp h
    have hlater : ∀ g' ∈ groups, g.1 < g'.1 := fun g' hg' => hg _ (List.mem_map_of_mem hg')
    obtain ⟨file, ss⟩ := g
    rw [insertSample]
    split
    · rename_i heq
      obtain rfl := eq_of_beq heq
      refine List.forall_mem_cons.mpr ⟨hgrown ss hfirst, fun g' hg' => ?_⟩
      exact hother g' (hgroups g' hg') (ne_of_gt (hlater g' hg'))
    · rename_i hne
      have hfile : file ≠ s.2.file := fun heq => hne (beq_iff_eq.mpr heq.symm)
      split
      · rename_i hless
        have habove : ∀ g' ∈ (file, ss) :: groups, s.2.file < g'.1 :=
          List.forall_mem_cons.mpr ⟨hless, fun g' hg' => String.lt_trans hless (hlater g' hg')⟩
        refine List.forall_mem_cons.mpr ⟨hnew (fun hmem => ?_), fun g' hg' => ?_⟩
        · obtain ⟨g', hg', heq⟩ := List.mem_map.mp hmem
          exact ne_of_gt (habove g' hg') heq
        · exact hother g' (h g' hg') (ne_of_gt (habove g' hg'))
      · refine List.forall_mem_cons.mpr ⟨hother _ hfirst hfile, ih hrest hgroups (fun hno => ?_)⟩
        exact hnew (fun hmem => (List.mem_cons.mp hmem).elim (fun heq => hfile heq.symm) hno)

theorem Grouped.insert {ss : List Sample} {groups : List (String × List Sample)}
    (h : Grouped ss groups) (s : Sample) : Grouped (ss ++ [s]) (insertSample s groups) where
  sorted := sorted_insertSample s h.sorted
  covers file := by
    rw [mem_keys_insertSample, h.covers, List.map_append, List.mem_append, List.map_singleton,
      List.mem_singleton, or_comm]
  holds := by
    refine forall_insertSample h.sorted h.holds (fun g hg hne => ?_) (fun ss' hss' => ?_)
      (fun hno => ?_)
    · have hkeep : [s].filter (·.2.file == g.1) = [] := by simp [Ne.symm hne]
      rw [List.filter_append, hkeep, List.append_nil, hg]
    · have hkeep : [s].filter (·.2.file == s.2.file) = [s] := by simp
      rw [List.filter_append, hkeep, ← hss']
    · have hnone : ss.filter (·.2.file == s.2.file) = [] := by
        rw [List.filter_eq_nil_iff]
        intro s' hs' heq
        exact hno ((h.covers _).mpr (List.mem_map.mpr ⟨s', hs', eq_of_beq heq⟩))
      have hkeep : [s].filter (·.2.file == s.2.file) = [s] := by simp
      rw [List.filter_append, hnone, hkeep, List.nil_append]

theorem grouped_groupByFile (ss : List Sample) : Grouped ss (groupByFile ss) := by
  have hfold : ∀ (ss before : List Sample) (groups : List (String × List Sample)),
      Grouped before groups →
      Grouped (before ++ ss) (ss.foldl (fun groups s => insertSample s groups) groups) := by
    intro ss
    induction ss with
    | nil =>
      intro before groups h
      rwa [List.append_nil]
    | cons s ss ih =>
      intro before groups h
      have hall := ih (before ++ [s]) (insertSample s groups) (h.insert s)
      rwa [List.append_assoc] at hall
  exact hfold ss [] [] ⟨List.Pairwise.nil, fun _ => Iff.rfl, fun _ hg => absurd hg List.not_mem_nil⟩

theorem map_groupByFile {α : Type} (f : List Sample → α) (ss : List Sample) :
    (groupByFile ss).map (fun g => (g.1, f g.2)) =
      ((groupByFile ss).map (·.1)).map (fun file => (file, f (ss.filter (·.2.file == file)))) := by
  rw [List.map_map]
  refine List.map_congr_left (fun g hg => ?_)
  exact congrArg (fun ss' => (g.1, f ss')) ((grouped_groupByFile ss).holds g hg)

/-- The files of samples in another order are the same, in the same order. -/
theorem keys_groupByFile_eq_of_perm {ss ss' : List Sample} (h : ss.Perm ss') :
    (groupByFile ss).map (·.1) = (groupByFile ss').map (·.1) := by
  have hg := grouped_groupByFile ss
  have hg' := grouped_groupByFile ss'
  have hperm : ((groupByFile ss).map (·.1)).Perm ((groupByFile ss').map (·.1)) := by
    refine (List.perm_ext_iff_of_nodup (hg.sorted.imp ne_of_lt) (hg'.sorted.imp ne_of_lt)).mpr ?_
    intro file
    rw [hg.covers, hg'.covers, (h.map _).mem_iff]
  exact hperm.eq_of_pairwise (fun _ _ _ _ hless hgt => absurd hgt (String.lt_asymm hless))
    hg.sorted hg'.sorted

theorem fileStatistics_eq_of_perm {ss ss' : List Sample} (h : ss.Perm ss') :
    (groupByFile ss).map (fun g => (g.1, FileStatistics.ofSamples g.2)) =
      (groupByFile ss').map (fun g => (g.1, FileStatistics.ofSamples g.2)) := by
  rw [map_groupByFile, map_groupByFile, keys_groupByFile_eq_of_perm h]
  refine List.map_congr_left (fun file _ => ?_)
  exact congrArg (Prod.mk file) (FileStatistics.ofSamples_eq_of_perm (h.filter _))

end CompressionSweep
