import CompressionSweep.Document.Decoder
import CompressionSweep.Proofs.Document.Members

/-! Documents that a file can hold: each algorithm, and under it each run, has one entry, and all
durations are finite. Filing a finite measurement and merging finite runs keep this. -/

namespace CompressionSweep

def Measurement.Finite (m : Measurement) : Prop := m.seconds.isFinite = true

def RunEntry.Finite (e : RunEntry) : Prop := ∀ m ∈ e.results, m.Finite

structure AlgorithmEntry.Storable (e : AlgorithmEntry) : Prop where
  distinct : (e.runs.map (·.run)).Nodup
  finite : ∀ r ∈ e.runs, r.Finite

structure StorableEntries (es : List AlgorithmEntry) : Prop where
  distinct : (es.map (·.algorithm)).Nodup
  entries : ∀ e ∈ es, e.Storable

/-- Each algorithm and each run of it has one entry, and all durations are finite. -/
def Document.Storable (d : Document) : Prop := StorableEntries d.compressions

instance (m : Measurement) : Decidable m.Finite := inferInstanceAs (Decidable (_ = true))

instance (e : RunEntry) : Decidable e.Finite :=
  inferInstanceAs (Decidable (∀ m ∈ e.results, m.Finite))

instance (e : AlgorithmEntry) : Decidable e.Storable :=
  decidable_of_iff ((e.runs.map (·.run)).Nodup ∧ ∀ r ∈ e.runs, r.Finite)
    ⟨fun h => ⟨h.1, h.2⟩, fun h => ⟨h.distinct, h.finite⟩⟩

instance (d : Document) : Decidable d.Storable :=
  decidable_of_iff
    ((d.compressions.map (·.algorithm)).Nodup ∧ ∀ e ∈ d.compressions, e.Storable)
    ⟨fun h => ⟨h.1, h.2⟩, fun h => ⟨h.distinct, h.entries⟩⟩

theorem storableEntries_nil : StorableEntries [] :=
  ⟨List.nodup_nil, fun _ h => absurd h List.not_mem_nil⟩

theorem RunEntry.Finite.extend {e : RunEntry} {ms : List Measurement} (he : e.Finite)
    (hms : ∀ m ∈ ms, m.Finite) : (e.extend ms).Finite :=
  fun m hm => (List.mem_append.mp hm).elim (he m) (hms m)

namespace AlgorithmEntry

theorem storable_empty (name : String) : (⟨name, []⟩ : AlgorithmEntry).Storable :=
  ⟨List.nodup_nil, fun _ h => absurd h List.not_mem_nil⟩

theorem Storable.modifyRun {e : AlgorithmEntry} (he : e.Storable) (run : UInt32)
    {f : RunEntry → RunEntry} (hrun : ∀ r, (f r).run = r.run)
    (hf : ∀ r, r.Finite → (f r).Finite) : (e.modifyRun run f).Storable where
  distinct := nodup_modifyOrAppend RunEntry.run hrun rfl he.distinct
  finite := forall_modifyOrAppend he.finite (hf _ (fun _ h => absurd h List.not_mem_nil))
    (fun r _ => hf r)

theorem Storable.merge {e : AlgorithmEntry} (he : e.Storable) {runs : List RunEntry}
    (hruns : ∀ r ∈ runs, r.Finite) : (e.merge runs).Storable := by
  induction runs generalizing e with
  | nil => exact he
  | cons r runs ih =>
    obtain ⟨hr, hruns⟩ := List.forall_mem_cons.mp hruns
    exact ih (he.modifyRun r.run (fun _ => rfl) (fun _ hs => hs.extend hr)) hruns

theorem modifyRun_algorithm (e : AlgorithmEntry) (run : UInt32) (f : RunEntry → RunEntry) :
    (e.modifyRun run f).algorithm = e.algorithm := rfl

theorem merge_algorithm (e : AlgorithmEntry) (runs : List RunEntry) :
    (e.merge runs).algorithm = e.algorithm := by
  induction runs generalizing e with
  | nil => rfl
  | cons r runs ih => exact ih _

theorem merge_absent {name : String} {before runs : List RunEntry}
    (h : ((before ++ runs).map (·.run)).Nodup) :
    (⟨name, before⟩ : AlgorithmEntry).merge runs = ⟨name, before ++ runs⟩ := by
  induction runs generalizing before with
  | nil => rw [List.append_nil]; rfl
  | cons r runs ih =>
    have hr := absent_of_nodup RunEntry.run h
    have hone : (⟨name, before⟩ : AlgorithmEntry).modifyRun r.run (·.extend r.results) =
        ⟨name, before ++ [r]⟩ :=
      congrArg (AlgorithmEntry.mk name) (modifyOrAppend_absent RunEntry.run hr)
    have happend : before ++ r :: runs = before ++ [r] ++ runs := by
      rw [List.append_assoc, List.singleton_append]
    rw [happend] at h ⊢
    rw [← ih h, ← hone]
    rfl

end AlgorithmEntry

theorem StorableEntries.mergeMember {es : List AlgorithmEntry} {runs : List RunEntry}
    (hes : StorableEntries es) (name : String) (hruns : ∀ r ∈ runs, r.Finite) :
    StorableEntries (mergeMember name runs es) where
  distinct := nodup_modifyOrAppend AlgorithmEntry.algorithm (fun e => e.merge_algorithm runs) rfl
    hes.distinct
  entries := forall_modifyOrAppend hes.entries
    ((AlgorithmEntry.storable_empty name).merge hruns) (fun _ _ he => he.merge hruns)

theorem mergeMember_absent {es : List AlgorithmEntry} {e : AlgorithmEntry}
    (h : e.algorithm ∉ es.map (·.algorithm)) (he : e.Storable) :
    mergeMember e.algorithm e.runs es = es ++ [e] := by
  have hmerge : (⟨e.algorithm, []⟩ : AlgorithmEntry).merge e.runs = e :=
    AlgorithmEntry.merge_absent he.distinct
  refine (modifyOrAppend_absent AlgorithmEntry.algorithm h).trans ?_
  rw [hmerge]

namespace Document

theorem storable_new (timestamp configuration : String) (runs : UInt32) (filter : Option String)
    (baseline : Algorithm) : (new timestamp configuration runs filter baseline).Storable :=
  storableEntries_nil

theorem Storable.append {d : Document} (hd : d.Storable) (name : String) (run : UInt32)
    {m : Measurement} (hm : m.Finite) : (d.append name run m).Storable := by
  have hentry : ∀ e : AlgorithmEntry, e.Storable → (e.modifyRun run (·.extend [m])).Storable :=
    fun e he => he.modifyRun run (fun _ => rfl)
      (fun _ hr => hr.extend (fun x hx => by rwa [List.mem_singleton.mp hx]))
  exact ⟨nodup_modifyOrAppend AlgorithmEntry.algorithm (fun e => e.modifyRun_algorithm run _) rfl
      hd.distinct,
    forall_modifyOrAppend hd.entries (hentry _ (AlgorithmEntry.storable_empty name))
      (fun e _ => hentry e)⟩

end Document

end CompressionSweep
