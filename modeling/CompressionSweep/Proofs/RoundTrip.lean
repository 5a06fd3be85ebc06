import CompressionSweep.Proofs.Document.Codec
import CompressionSweep.Proofs.Document.Decoded
import CompressionSweep.Proofs.FileTree.Save
import CompressionSweep.Store

/-! A document and its file. What is written is read back as the document it was written from,
and every document that can be loaded is one that can be written. -/

namespace CompressionSweep.Store

theorem load_of_decode {t : Tree} {path : String} {b : Bytes} {d : Document}
    (h : t.read path = .ok b) (hb : Document.decode b = .ok d) : load t path = .ok (some d) := by
  rw [load, h]
  dsimp only
  rw [hb]

theorem load_of_read {t : Tree} {path : String} {d : Document}
    (h : t.read path = .ok d.encode) (hd : d.Storable) : load t path = .ok (some d) :=
  load_of_decode h (Document.decode_encode hd)

theorem storable_of_load {t : Tree} {path : String} {d : Document}
    (h : load t path = .ok (some d)) : d.Storable := by
  unfold load at h
  split at h
  · cases h
  · cases h
  · split at h
    · rename_i d' hdecode
      cases h
      exact Document.storable_of_decode hdecode
    · cases h

theorem read_of_flush {t t' : Tree} {path : String} {d : Document} {faults : Faults}
    (h : (⟨d, some path⟩ : Store).flush faults t = (.ok (), t')) :
    t'.read path = .ok d.encode := by
  unfold flush at h
  dsimp only at h
  split at h
  · rename_i t'' hsave
    cases h
    exact Tree.read_of_save hsave
  · cases h

/-- Writing and loading are inverse to each other. A document is decoded from its own text exactly
if it is storable, and nothing else is ever decoded. Written to a file it is loaded from there; and
what has been loaded stays the same when it is written and loaded again, and is written as the same
bytes from then on. -/
theorem document_roundtrip :
    (∀ d : Document, Document.decode d.encode = .ok d ↔ d.Storable) ∧
    (∀ (b : Bytes) (d : Document), Document.decode b = .ok d → d.Storable) ∧
    (∀ (d : Document) (path : String) (faults : Faults) (t t' : Tree), d.Storable →
      (⟨d, some path⟩ : Store).flush faults t = (.ok (), t') →
      t'.read path = .ok d.encode ∧ load t' path = .ok (some d)) ∧
    (∀ (d : Document) (source : String) (s : Tree), load s source = .ok (some d) → d.Storable ∧
      ∀ (path : String) (faults : Faults) (t t' : Tree),
        (⟨d, some path⟩ : Store).flush faults t = (.ok (), t') →
        load t' path = .ok (some d) ∧
        ∀ (d' : Document) (faults' : Faults) (t'' : Tree), load t' path = .ok (some d') →
          (⟨d', some path⟩ : Store).flush faults' t' = (.ok (), t'') →
          t''.read path = t'.read path) := by
  refine ⟨fun d => ⟨Document.storable_of_decode, Document.decode_encode⟩,
    fun b d => Document.storable_of_decode, fun d path faults t t' hd h => ?_,
    fun d source s h => ?_⟩
  · have hread := read_of_flush h
    exact ⟨hread, load_of_read hread hd⟩
  · have hd := storable_of_load h
    refine ⟨hd, fun path faults t t' ht' => ?_⟩
    have hread := read_of_flush ht'
    have hload := load_of_read hread hd
    refine ⟨hload, fun d' faults' t'' hd' ht'' => ?_⟩
    obtain rfl : d = d' := by
      rw [hload] at hd'
      cases hd'
      rfl
    rw [hread]
    exact read_of_flush ht''

/-- An algorithm without runs, a run without records, and durations that are hard to write. -/
def sampleDocument : Document :=
  ⟨"2025-01-01T00:00:00Z", "default", 3, some "a\"b", "DEFAULT",
    [⟨"LZ4", [⟨2, [⟨"a.jfr", 0.1, 10⟩, ⟨"b.jfr", -0.0, 0⟩]⟩, ⟨1, []⟩]⟩, ⟨"GZIP", []⟩]⟩

def sampleTree : Tree :=
  ((⟨sampleDocument, some "r.json"⟩ : Store).flush Faults.none ⟨[], []⟩).2

theorem document_roundtrip_sample :
    Document.decode sampleDocument.encode = .ok sampleDocument ∧
    (⟨sampleDocument, some "r.json"⟩ : Store).flush Faults.none ⟨[], []⟩ = (.ok (), sampleTree) ∧
    load sampleTree "r.json" = .ok (some sampleDocument) ∧
    ((⟨sampleDocument, some "r.json"⟩ : Store).flush Faults.none sampleTree).2.read "r.json" =
      sampleTree.read "r.json" := by
  obtain ⟨hdecode, hstorable, hwrite, hload⟩ := document_roundtrip
  have hd : sampleDocument.Storable :=
    hstorable _ _ ((hdecode sampleDocument).mpr (by decide))
  have hsave : (⟨sampleDocument, some "r.json"⟩ : Store).flush Faults.none ⟨[], []⟩ =
      (.ok (), sampleTree) := Prod.ext (by decide +kernel) rfl
  have hfirst := (hwrite sampleDocument "r.json" Faults.none ⟨[], []⟩ sampleTree hd hsave).2
  have hagain := (hload sampleDocument "r.json" sampleTree hfirst).2 "r.json" Faults.none ⟨[], []⟩
    sampleTree hsave
  exact ⟨(hdecode sampleDocument).mpr hd, hsave, hfirst,
    hagain.2 sampleDocument Faults.none _ hagain.1 (Prod.ext (by decide +kernel) rfl)⟩

end CompressionSweep.Store
