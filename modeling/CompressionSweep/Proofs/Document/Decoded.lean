import CompressionSweep.Proofs.Document.Storable
import CompressionSweep.Proofs.Json.Yields

/-! Every document that can be decoded is storable, whatever its text repeats or leaves out. -/

namespace CompressionSweep

open Json

theorem yields_measurement : Yields Measurement.Finite Measurement.reader := by
  refine yields_struct ?_ ?_
  · have hmember : ∀ key (p : Measurement.Seen), (∀ x, p.seconds = some x → x.isFinite = true) →
        Yields (fun p => ∀ x, p.seconds = some x → x.isFinite = true)
          (Measurement.member key p) := by
      intro key p hp
      unfold Measurement.member
      split
      · exact Yields.after (fun _ => yields_pure hp)
      · split
        · refine (yields_onceOnly _ _ yields_f64).bind (fun x hx => yields_pure ?_)
          rintro y ⟨⟩
          exact hx
        · split
          · exact Yields.after (fun _ => yields_pure hp)
          · exact Yields.after (fun _ => yields_pure hp)
    refine (yields_members hmember (fun _ h => by cases h)).bind (fun p hp => ?_)
    refine Yields.after (fun file => (yields_required hp).bind (fun x hx => ?_))
    exact Yields.after (fun bytes => yields_pure hx)
  · refine Yields.after (fun file => (yields_itemAt _ _ yields_f64).bind (fun x hx => ?_))
    exact Yields.after (fun bytes => yields_pure hx)

theorem yields_runEntry : Yields RunEntry.Finite RunEntry.reader := by
  have hlist := yields_list yields_measurement
  refine yields_struct ?_ ?_
  · have hmember : ∀ key (p : RunEntry.Seen),
        (∀ ms, p.results = some ms → ∀ m ∈ ms, m.Finite) →
        Yields (fun p => ∀ ms, p.results = some ms → ∀ m ∈ ms, Measurement.Finite m)
          (RunEntry.member key p) := by
      intro key p hp
      unfold RunEntry.member
      split
      · exact Yields.after (fun _ => yields_pure hp)
      · split
        · refine (yields_onceOnly _ _ hlist).bind (fun ms hms => yields_pure ?_)
          rintro ms' ⟨⟩
          exact hms
        · exact Yields.after (fun _ => yields_pure hp)
    refine (yields_members hmember (fun _ h => by cases h)).bind (fun p hp => ?_)
    exact Yields.after (fun run => (yields_required hp).bind (fun ms hms => yields_pure hms))
  · exact Yields.after (fun run => (yields_itemAt _ _ hlist).bind (fun ms hms => yields_pure hms))

namespace Document

theorem yields_algorithms : Yields StorableEntries algorithms := by
  refine Yields.after (fun b => ?_)
  split
  · refine Yields.after (fun _ => yields_members (fun name es hes => ?_) storableEntries_nil)
    refine Yields.after (fun _ => (yields_list yields_runEntry).bind (fun runs hruns => ?_))
    exact yields_pure (hes.mergeMember name hruns)
  · exact yields_mismatch _

theorem yields_storable : Yields Storable reader := by
  refine yields_struct ?_ ?_
  · have hmember : ∀ key (p : Seen), (∀ es, p.compressions = some es → StorableEntries es) →
        Yields (fun p => ∀ es, p.compressions = some es → StorableEntries es) (member key p) := by
      intro key p hp
      unfold member
      repeat' split
      all_goals first
        | exact Yields.after (fun _ => yields_pure hp)
        | refine (yields_onceOnly _ _ yields_algorithms).bind (fun es hes => yields_pure ?_)
          rintro es' ⟨⟩
          exact hes
    refine (yields_members hmember (fun _ h => by cases h)).bind (fun p hp => ?_)
    refine Yields.after (fun _ => Yields.after (fun _ => Yields.after (fun _ => ?_)))
    have hes : StorableEntries (p.compressions.getD []) := by
      cases hc : p.compressions with
      | none => exact storableEntries_nil
      | some es => exact hp es hc
    exact yields_pure hes
  · refine Yields.after (fun _ => Yields.after (fun _ => Yields.after (fun _ =>
      Yields.after (fun _ => Yields.after (fun _ => ?_)))))
    refine (yields_itemOr _ storableEntries_nil yields_algorithms).bind (fun es hes => ?_)
    exact yields_pure hes

theorem storable_of_decode {b : Bytes} {d : Document} (h : decode b = .ok d) : d.Storable := by
  have hall : Yields Storable (do let d ← reader; finish; return d) :=
    yields_storable.bind (fun _ hd => Yields.after (fun _ => yields_pure hd))
  unfold decode at h
  generalize hr : (do let d ← reader; finish; return d : Reader Document).run b = x at h
  cases x with
  | error p => cases h
  | ok p =>
    obtain rfl := Except.ok.inj h
    exact hall b p.1 p.2 hr

end Document

end CompressionSweep
