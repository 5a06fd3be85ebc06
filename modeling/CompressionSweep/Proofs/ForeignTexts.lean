import CompressionSweep.Proofs.RoundTrip

/-! Files that some other program wrote, or an older one. Whichever of its texts stands in a file,
the document is loaded from it. -/

namespace CompressionSweep.Store

open Json

/-- Both printed forms of a document are among its texts, and from each of its texts, as the content
of a file, the document is loaded. -/
theorem forms_loaded {d : Document} (hd : d.Storable) :
    d.Form d.encode ∧ d.Form d.compact ∧
      ∀ b, d.Form b → Document.decode b = .ok d ∧
        ∀ (t : Tree) (path : String), t.read path = .ok b → load t path = .ok (some d) := by
  refine ⟨Document.form_encode hd, Document.form_compact hd, fun b hb => ?_⟩
  have hdecode := Document.decode_form hd hb
  exact ⟨hdecode, fun t path hread => load_of_decode hread hdecode⟩

def foreignRecord : Value :=
  .object [("size_bytes", .number ['3']), ("host", .list [.null]), ("file", .text "a.jfr"),
    ("duration_seconds", .number ['1', '.', '5'])]

def foreignRuns : Value :=
  .list [.list [.number ['1'], .list [foreignRecord]]]

/-- A text that leaves out the members with a default, with unknown members among the others, and
with an array for the run. -/
def foreignText : Bytes :=
  (Value.object [("compressions", .object [("GZIP", foreignRuns)]), ("note", .null),
    ("runs", .number ['2']), ("configuration", .text "default"), ("timestamp", .text "t")]).bytes
      .pretty 0

def foreignMeasurement : Measurement := ⟨"a.jfr", 1.5, 3⟩

def foreignDocument : Document :=
  ⟨"t", "default", 2, none, "LZ4FRAMED", [⟨"GZIP", [⟨1, [foreignMeasurement]⟩]⟩]⟩

theorem form_foreignRecord : foreignMeasurement.Form (foreignRecord.bytes .pretty 5) := by
  have hseconds : asciiBytes ['1', '.', '5'] = asciiBytes (Decimal.finiteChars 1.5) := by
    decide +kernel
  have hkept : Kept foreignMeasurement.fields [("file", textBytes "a.jfr"),
      ("duration_seconds", asciiBytes ['1', '.', '5']), ("size_bytes", asciiBytes ['3'])] :=
    .keep (stringText_textBytes "a.jfr") (.keep hseconds (.keep rfl .nil))
  have hhost : ValueText ((Value.list [.null]).bytes .pretty 6) := by
    refine .list (fun p hp => ?_) (enclosed_list Layout.pretty_blank 6 [.null])
    obtain rfl : p = nullBytes := by simpa [Value.bytes] using hp
    exact .null
  have hforeign : ∀ m ∈ [("host", (Value.list [.null]).bytes .pretty 6)],
      m.1 ∉ foreignMeasurement.fields.map (·.name) ∧ ValueText m.2 :=
    List.forall_mem_singleton.mpr ⟨by simp [Measurement.fields], hhost⟩
  exact .object hkept hforeign (by decide +kernel) (objectForm_object Layout.pretty_blank 5 _)

theorem form_foreignRuns :
    ListText RunEntry.Form [⟨1, [foreignMeasurement]⟩] (foreignRuns.bytes .pretty 2) := by
  have hrecords := enclosed_list Layout.pretty_blank 4 [foreignRecord]
  have hresults : ListText Measurement.Form [foreignMeasurement]
      ((Value.list [foreignRecord]).bytes .pretty 4) := ⟨_, .cons form_foreignRecord .nil, hrecords⟩
  have hnumber : (Value.number ['1']).bytes .pretty 4 = asciiBytes (Decimal.digitsOf 1) := by
    rw [Value.bytes]
    rfl
  have hrun := enclosed_list Layout.pretty_blank 3 [.number ['1'], .list [foreignRecord]]
  have hruns := enclosed_list Layout.pretty_blank 2 [.list [.number ['1'], .list [foreignRecord]]]
  exact ⟨_, .cons (.array (.cons hnumber (.cons hresults .nil)) hrun) .nil, hruns⟩

theorem form_foreignText : foreignDocument.Form foreignText := by
  have hobject := objectForm_object Layout.pretty_blank 1 [("GZIP", foreignRuns)]
  have halgorithms : Document.AlgorithmsForm foreignDocument.compressions
      ((Value.object [("GZIP", foreignRuns)]).bytes .pretty 1) :=
    ⟨_, .cons ⟨rfl, form_foreignRuns⟩ .nil, hobject⟩
  have hkept : Kept foreignDocument.fields [("timestamp", textBytes "t"),
      ("configuration", textBytes "default"), ("runs", asciiBytes ['2']),
      ("compressions", (Value.object [("GZIP", foreignRuns)]).bytes .pretty 1)] :=
    .keep (stringText_textBytes "t") (.keep (stringText_textBytes "default")
      (.keep rfl (.leaveOut rfl (.leaveOut rfl (.keep halgorithms .nil)))))
  have hforeign : ∀ m ∈ [("note", nullBytes)],
      m.1 ∉ foreignDocument.fields.map (·.name) ∧ ValueText m.2 :=
    List.forall_mem_singleton.mpr ⟨by simp [Document.fields], .null⟩
  refine ⟨[], foreignText, [], isBlank_nil, ?_, isBlank_nil, (List.append_nil foreignText).symm⟩
  exact .object hkept hforeign (by decide +kernel) (objectForm_object Layout.pretty_blank 0 _)

theorem forms_loaded_sample :
    foreignDocument.Form foreignText ∧
    load (Tree.fresh.put ["tmp", "work", "r.json"] (.file foreignText false)) "r.json" =
      .ok (some foreignDocument) := by
  have hd : foreignDocument.Storable := by decide
  obtain ⟨-, -, hforms⟩ := forms_loaded hd
  exact ⟨form_foreignText, (hforms foreignText form_foreignText).2 _ _ (by decide +kernel)⟩

end CompressionSweep.Store
