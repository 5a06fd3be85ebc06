import CompressionSweep.Document
import Mathlib.Data.List.Nodup

/-! Finding or creating a member of a list by its key, and what a document then holds for a run. -/

namespace CompressionSweep

variable {α κ : Type}

section ModifyOrAppend

variable (key : α → κ) [BEq κ] [LawfulBEq κ] {k : κ} {new : α} {f : α → α} {as : List α}

theorem modifyOrAppend_absent (h : k ∉ as.map key) :
    modifyOrAppend (key · == k) new f as = as ++ [f new] := by
  induction as with
  | nil => rfl
  | cons a as ih =>
    obtain ⟨hne, has⟩ := not_or.mp (mt List.mem_cons.mpr h)
    have hk : (key a == k) = false := beq_eq_false_iff_ne.mpr (Ne.symm hne)
    rw [modifyOrAppend, hk, ih has]
    rfl

omit [BEq κ] [LawfulBEq κ] in
theorem absent_of_nodup {before : List α} {a : α} (h : ((before ++ a :: as).map key).Nodup) :
    key a ∉ before.map key := by
  intro hmem
  rw [List.map_append, List.nodup_append] at h
  exact h.2.2 _ hmem _ List.mem_cons_self rfl

theorem map_modifyOrAppend [DecidableEq κ] (hf : ∀ a, key (f a) = key a) (hnew : key new = k) :
    (modifyOrAppend (key · == k) new f as).map key =
      if k ∈ as.map key then as.map key else as.map key ++ [k] := by
  induction as with
  | nil => simp [modifyOrAppend, hf, hnew]
  | cons a as ih =>
    rw [modifyOrAppend]
    by_cases hk : key a = k
    · simp [hk, hf]
    · have hbeq : (key a == k) = false := beq_eq_false_iff_ne.mpr hk
      simp only [hbeq, Bool.false_eq_true, if_false, List.map_cons, ih, List.mem_cons,
        Ne.symm hk, false_or]
      split <;> rfl

theorem mem_map_modifyOrAppend [DecidableEq κ] (hf : ∀ a, key (f a) = key a) (hnew : key new = k)
    (k' : κ) : k' ∈ (modifyOrAppend (key · == k) new f as).map key ↔ k' ∈ as.map key ∨ k' = k := by
  rw [map_modifyOrAppend key hf hnew]
  split
  · rename_i hk
    exact ⟨.inl, fun h => h.elim id (fun heq => heq ▸ hk)⟩
  · rw [List.mem_append, List.mem_singleton]

theorem nodup_modifyOrAppend (hf : ∀ a, key (f a) = key a) (hnew : key new = k)
    (h : (as.map key).Nodup) : ((modifyOrAppend (key · == k) new f as).map key).Nodup := by
  classical
  rw [map_modifyOrAppend key hf hnew]
  split
  · exact h
  · rename_i hk
    exact List.nodup_append.mpr ⟨h, List.nodup_singleton k, fun a ha b hb => by
      obtain rfl := List.mem_singleton.mp hb
      exact fun hab => hk (hab ▸ ha)⟩

omit [BEq κ] [LawfulBEq κ] in
theorem forall_modifyOrAppend {p : α → Bool} {P : α → Prop} (has : ∀ a ∈ as, P a)
    (hnew : P (f new)) (hf : ∀ a, p a = true → P a → P (f a)) :
    ∀ a ∈ modifyOrAppend p new f as, P a := by
  induction as with
  | nil =>
    intro a ha
    obtain rfl := List.mem_singleton.mp ha
    exact hnew
  | cons b as ih =>
    obtain ⟨hb, has⟩ := List.forall_mem_cons.mp has
    rw [modifyOrAppend]
    split
    · rename_i hp
      exact List.forall_mem_cons.mpr ⟨hf b hp hb, has⟩
    · exact List.forall_mem_cons.mpr ⟨hb, ih has⟩

theorem find?_modifyOrAppend [DecidableEq κ] (hf : ∀ a, key (f a) = key a) (hnew : key new = k)
    (k' : κ) :
    (modifyOrAppend (key · == k) new f as).find? (key · == k') =
      if k = k' then some (f ((as.find? (key · == k)).getD new))
      else as.find? (key · == k') := by
  induction as with
  | nil =>
    by_cases hk : k = k'
    · simp [modifyOrAppend, hf, hnew, hk]
    · simp [modifyOrAppend, hf, hnew, hk]
  | cons a as ih =>
    rw [modifyOrAppend]
    by_cases ha : key a = k
    · have hbeq : (key a == k) = true := beq_iff_eq.mpr ha
      by_cases hk : k = k'
      · subst hk
        simp [hbeq, hf]
      · have hne : (key a == k') = false := beq_eq_false_iff_ne.mpr (fun h => hk (ha.symm.trans h))
        simp [hbeq, hf, hk, hne]
    · have hbeq : (key a == k) = false := beq_eq_false_iff_ne.mpr ha
      rw [hbeq, if_neg Bool.false_ne_true, List.find?_cons, ih]
      by_cases hk : k = k'
      · subst hk
        simp [hbeq]
      · simp only [if_neg hk, List.find?_cons]

end ModifyOrAppend

theorem AlgorithmEntry.run?_modifyRun (e : AlgorithmEntry) (run : UInt32) {f : RunEntry → RunEntry}
    (hf : ∀ r, (f r).run = r.run) (run' : UInt32) :
    (e.modifyRun run f).run? run' =
      if run = run' then some (f ((e.run? run).getD ⟨run, []⟩)) else e.run? run' :=
  find?_modifyOrAppend RunEntry.run (k := run) hf rfl run'

namespace Document

/-- The measurements of a run; none if it has no entry. -/
def resultsOf (d : Document) (name : String) (run : UInt32) : List Measurement :=
  match (d.algorithm? name).bind (·.run? run) with
  | none => []
  | some e => e.results

theorem algorithm?_modifyAlgorithm (d : Document) (name : String)
    {f : AlgorithmEntry → AlgorithmEntry} (hf : ∀ e, (f e).algorithm = e.algorithm)
    (name' : String) :
    (d.modifyAlgorithm name f).algorithm? name' =
      if name = name' then some (f ((d.algorithm? name).getD ⟨name, []⟩))
      else d.algorithm? name' :=
  find?_modifyOrAppend AlgorithmEntry.algorithm (k := name) hf rfl name'

theorem resultsOf_append (d : Document) (name : String) (run : UInt32) (m : Measurement)
    (name' : String) (run' : UInt32) :
    (d.append name run m).resultsOf name' run' =
      d.resultsOf name' run' ++ if name = name' ∧ run = run' then [m] else [] := by
  have halg := d.algorithm?_modifyAlgorithm name
    (fun e : AlgorithmEntry => (rfl : (e.modifyRun run (·.extend [m])).algorithm = _)) name'
  unfold resultsOf
  rw [append, modifyRun, halg]
  by_cases hname : name = name'
  · subst hname
    rw [if_pos rfl, Option.bind_some,
      AlgorithmEntry.run?_modifyRun _ run (fun r => (rfl : (r.extend [m]).run = r.run)) run']
    by_cases hr : run = run'
    · subst hr
      rw [if_pos rfl, if_pos ⟨rfl, rfl⟩]
      cases ha : d.algorithm? name with
      | none => rfl
      | some e =>
        cases he : e.run? run with
        | none => simp [he, RunEntry.extend]
        | some r => simp [he, RunEntry.extend]
    · rw [if_neg hr, if_neg (fun h => hr h.2), List.append_nil]
      cases ha : d.algorithm? name with
      | none => rfl
      | some e => rfl
  · simp [hname]

end Document

end CompressionSweep
