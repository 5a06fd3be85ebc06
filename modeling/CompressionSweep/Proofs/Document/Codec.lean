import CompressionSweep.Document.Printer
import CompressionSweep.Proofs.Document.Forms
import CompressionSweep.Proofs.Json.Printed

/-! What is printed of a document, under any layout, is one of its texts, so the document is read
back from it. -/

namespace CompressionSweep

open Json

theorem naturalValue_bytes (l : Layout) (level n : Nat) :
    (naturalValue n).bytes l level = asciiBytes (Decimal.digitsOf n) := by
  rw [naturalValue, Value.bytes]

theorem secondsValue_bytes {x : Float} (h : x.isFinite = true) (l : Layout) (level : Nat) :
    (secondsValue x).bytes l level = asciiBytes (Decimal.finiteChars x) := by
  rw [secondsValue, if_pos h, Value.bytes]

theorem stringText_value (l : Layout) (level : Nat) (s : String) :
    StringText ((Value.text s).bytes l level) s := by
  rw [Value.bytes]
  exact stringText_textBytes s

theorem optionalText_value (l : Layout) (level : Nat) (filter : Option String) :
    OptionalText filter
      ((match filter with | none => Value.null | some f => .text f).bytes l level) := by
  cases filter with
  | none => rw [Value.bytes]; exact .none
  | some f => exact .some (stringText_value l level f)

section Layouts

variable {l : Layout} (hl : l.Blank)

include hl

theorem structText_object {fields : List Field} {ms : List (String × Value)} {level : Nat}
    (h : Kept fields (ms.map (fun m => (m.1, m.2.bytes l (level + 1))))) :
    StructText fields ((Value.object ms).bytes l level) :=
  .object h (List.forall_mem_nil _) (by rw [List.append_nil]) (objectForm_object hl level ms)

theorem form_measurement {m : Measurement} (hm : m.Finite) (level : Nat) :
    m.Form (m.value.bytes l level) := by
  refine structText_object hl ?_
  refine .keep (stringText_value l _ m.file) (.keep ?_ (.keep ?_ .nil))
  · exact secondsValue_bytes hm l _
  · exact naturalValue_bytes l _ m.bytes.toNat

theorem form_runEntry {e : RunEntry} (he : e.Finite) (level : Nat) :
    e.Form (e.value.bytes l level) := by
  refine structText_object hl ?_
  refine .keep (naturalValue_bytes l _ e.run.toNat) (.keep ?_ .nil)
  exact listText_list hl (fun m hm => form_measurement hl (he m hm) _)

theorem form_algorithms {es : List AlgorithmEntry} (hes : ∀ e ∈ es, e.Storable) (level : Nat) :
    Document.AlgorithmsForm es
      ((Value.object (es.map (fun e => (e.algorithm, e.value)))).bytes l level) := by
  refine ⟨_, ?_, objectForm_object hl level _⟩
  rw [List.map_map, List.forall₂_map_right_iff, List.forall₂_same]
  intro e he
  exact ⟨rfl, listText_list hl (fun r hr => form_runEntry hl ((hes e he).finite r hr) _)⟩

theorem structText_document {d : Document} (hd : d.Storable) (level : Nat) :
    StructText d.fields (d.value.bytes l level) := by
  refine structText_object hl ?_
  refine .keep (stringText_value l _ d.timestamp) (.keep (stringText_value l _ d.configuration) ?_)
  refine .keep (naturalValue_bytes l _ d.runs.toNat) (.keep (optionalText_value l _ d.filter) ?_)
  refine .keep (stringText_value l _ d.baseline) (.keep ?_ .nil)
  exact form_algorithms hl hd.entries _

end Layouts

namespace Document

theorem form_compact {d : Document} (hd : d.Storable) : d.Form d.compact :=
  ⟨[], d.compact, [], isBlank_nil, structText_document Layout.compact_blank hd 0, isBlank_nil,
    (List.append_nil d.compact).symm⟩

theorem form_encode {d : Document} (hd : d.Storable) : d.Form d.encode := by
  have hblank : IsBlank [0x0A] := by
    intro b hb
    obtain rfl := List.mem_singleton.mp hb
    rfl
  have hpretty := structText_document Layout.pretty_blank hd 0
  exact ⟨[], d.pretty, [0x0A], isBlank_nil, hpretty, hblank, rfl⟩

/-- What stands in a document's file gives the document. -/
theorem decode_encode {d : Document} (hd : d.Storable) : decode d.encode = .ok d :=
  decode_form hd (form_encode hd)

end Document

end CompressionSweep
