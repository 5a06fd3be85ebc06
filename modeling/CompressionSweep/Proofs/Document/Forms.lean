import CompressionSweep.Proofs.Document.Storable
import CompressionSweep.Proofs.Json.Structs

/-! The texts of a document, and how it is read from each of them. In all its structs members may
come in any order among unknown ones, or as an array; the algorithms and what is under them keep
their order. -/

namespace CompressionSweep

open Json

/-! The members of a struct that have been read. -/

namespace Json

variable {α β : Type} {a : α} {name : String} {names : List String}

/-- The member `name`, of which the value is `a`, once it is among those that have been read. -/
def taken (name : String) (a : α) (names : List String) : Option α :=
  if name ∈ names then some a else none

theorem taken_new (a : α) (h : name ∉ names) : taken name a names = none := if_neg h

@[simp] theorem taken_self (name : String) (a : α) (names : List String) :
    taken name a (name :: names) = some a := by
  simp [taken]

theorem taken_other {name' : String} (a : α) (names : List String) (h : name' ≠ name) :
    taken name a (name' :: names) = taken name a names := by
  simp [taken, Ne.symm h]

theorem required_taken (a : α) (h : name ∈ names) :
    required name (taken name a names) = pure a := by
  simp [taken, required, h]

theorem getD_taken {default : α} (h : name ∈ names ∨ a = default) :
    (taken name a names).getD default = a := by
  rcases h with h | rfl
  · simp [taken, h]
  · by_cases h : name ∈ names <;> simp [taken, h]

/-- A member that is new is read, and `f` puts its value into the state. -/
theorem takes_once {value : Reader α} {blank v : Bytes} {f : α → β} {st : β}
    (h : Takes value v a) (hnew : name ∉ names) (hst : st = f a) (hblank : IsBlank blank) :
    Takes (onceOnly name (taken name a names) value >>= fun a => pure (f a))
      (0x3A :: (blank ++ v)) st := by
  rw [taken_new a hnew, hst]
  exact (takes_colon h hblank).bind_pure f

inductive OptionalText : Option String → Bytes → Prop where
  | none : OptionalText none nullBytes
  | some {s : String} {b : Bytes} (h : StringText b s) : OptionalText (some s) b

theorem takes_optional {o : Option String} {b : Bytes} (h : OptionalText o b) :
    Takes optionalText b o := by
  cases h with
  | none => exact takes_optionalText_none
  | some h =>
    have htext := takes_stringText h
    obtain ⟨inside, -, rfl⟩ := h
    refine ⟨htext.opens, fun blank rest hs hr => ?_⟩
    rw [List.append_assoc]
    refine (bind_of_ok (peek_of_blank hs (by decide) _)).trans ?_
    exact bind_of_ok (htext.after hr)

end Json

/-! Records. -/

namespace Measurement

variable (m : Measurement)

def fields : List Field :=
  [⟨"file", (StringText · m.file), False⟩,
    ⟨"duration_seconds", (· = asciiBytes (Decimal.finiteChars m.seconds)), False⟩,
    ⟨"size_bytes", (· = asciiBytes (Decimal.digitsOf m.bytes.toNat)), False⟩]

def Form (b : Bytes) : Prop := StructText m.fields b

def seen (names : List String) : Seen :=
  ⟨taken "file" m.file names, taken "duration_seconds" m.seconds names,
    taken "size_bytes" m.bytes names⟩

variable {m}

theorem readsFields (hm : m.Finite) : ReadsFields m.fields member m.seen where
  known := by
    simp only [fields, List.forall_mem_cons]
    refine ⟨fun v hv names hnew blank hblank => ?_, fun v hv names hnew blank hblank => ?_,
      fun v hv names hnew blank hblank => ?_, by simp⟩
    · exact takes_once (takes_stringText hv) hnew (by simp [seen, taken_other]) hblank
    · rw [hv]
      exact takes_once (takes_f64 hm) hnew (by simp [seen, taken_other]) hblank
    · rw [hv]
      exact takes_once (takes_u64 m.bytes) hnew (by simp [seen, taken_other]) hblank
  foreign := by
    intro name hname names
    simp only [fields, List.map_cons, List.map_nil, List.mem_cons, List.not_mem_nil, or_false,
      not_or] at hname
    obtain ⟨hfile, hseconds, hbytes⟩ := hname
    simp [member, seen, taken_other, hfile, hseconds, hbytes]

theorem readsItems (hm : m.Finite) : ReadsItems m.fields ofItems m := by
  intro ps s hps hs
  obtain _ | ⟨hfile, _ | ⟨rfl, _ | ⟨rfl, _ | _⟩⟩⟩ := hps
  obtain ⟨s₁, hs₁, hread₁⟩ := itemAt_cons .record 0 hs (takes_stringText hfile)
  obtain ⟨s₂, hs₂, hread₂⟩ := itemAt_cons .record 1 hs₁ (takes_f64 hm)
  obtain ⟨s₃, hs₃, hread₃⟩ := itemAt_cons .record 2 hs₂ (takes_u64 m.bytes)
  refine ⟨s₃, hs₃, fun rest => (bind_of_ok (hread₁ rest)).trans ?_⟩
  exact (bind_of_ok (hread₂ rest)).trans (bind_of_ok (hread₃ rest))

theorem takes_form (hm : m.Finite) {b : Bytes} (h : m.Form b) : Takes reader b m := by
  refine takes_structText (by simp [fields]) (readsFields hm) rfl (fun names hnames => ?_)
    (readsItems hm) h
  simp only [fields, List.forall_mem_cons, or_false] at hnames
  obtain ⟨hfile, hseconds, hbytes, -⟩ := hnames
  simp [seen, required_taken, hfile, hseconds, hbytes]

end Measurement

/-! Run entries. -/

namespace RunEntry

variable (e : RunEntry)

def fields : List Field :=
  [⟨"run", (· = asciiBytes (Decimal.digitsOf e.run.toNat)), False⟩,
    ⟨"results", ListText Measurement.Form e.results, False⟩]

def Form (b : Bytes) : Prop := StructText e.fields b

def seen (names : List String) : Seen :=
  ⟨taken "run" e.run names, taken "results" e.results names⟩

variable {e}

theorem takes_results (he : e.Finite) {b : Bytes} (h : ListText Measurement.Form e.results b) :
    Takes (list Measurement.reader) b e.results :=
  takes_listText (fun m hm _ => Measurement.takes_form (he m hm)) h

theorem readsFields (he : e.Finite) : ReadsFields e.fields member e.seen where
  known := by
    simp only [fields, List.forall_mem_cons]
    refine ⟨fun v hv names hnew blank hblank => ?_, fun v hv names hnew blank hblank => ?_, by simp⟩
    · rw [hv]
      exact takes_once (takes_u32 e.run) hnew (by simp [seen, taken_other]) hblank
    · exact takes_once (takes_results he hv) hnew (by simp [seen, taken_other]) hblank
  foreign := by
    intro name hname names
    simp only [fields, List.map_cons, List.map_nil, List.mem_cons, List.not_mem_nil, or_false,
      not_or] at hname
    obtain ⟨hrun, hresults⟩ := hname
    simp [member, seen, taken_other, hrun, hresults]

theorem readsItems (he : e.Finite) : ReadsItems e.fields ofItems e := by
  intro ps s hps hs
  obtain _ | ⟨rfl, _ | ⟨hresults, _ | _⟩⟩ := hps
  obtain ⟨s₁, hs₁, hread₁⟩ := itemAt_cons .runEntry 0 hs (takes_u32 e.run)
  obtain ⟨s₂, hs₂, hread₂⟩ := itemAt_cons .runEntry 1 hs₁ (takes_results he hresults)
  exact ⟨s₂, hs₂, fun rest => (bind_of_ok (hread₁ rest)).trans (bind_of_ok (hread₂ rest))⟩

theorem takes_form (he : e.Finite) {b : Bytes} (h : e.Form b) : Takes reader b e := by
  refine takes_structText (by simp [fields]) (readsFields he) rfl (fun names hnames => ?_)
    (readsItems he) h
  simp only [fields, List.forall_mem_cons, or_false] at hnames
  obtain ⟨hrun, hresults, -⟩ := hnames
  simp [seen, required_taken, hrun, hresults]

end RunEntry

/-! Documents. -/

/-- The members an algorithm may be in a document, by name and text. -/
def AlgorithmEntry.Form (e : AlgorithmEntry) (m : String × Bytes) : Prop :=
  m.1 = e.algorithm ∧ ListText RunEntry.Form e.runs m.2

namespace Document

/-- The texts of the algorithms of a document. -/
def AlgorithmsForm (es : List AlgorithmEntry) (b : Bytes) : Prop :=
  ∃ ms, List.Forall₂ AlgorithmEntry.Form es ms ∧ ObjectForm ms b

/-- Algorithms that are read one after another are merged behind those that are there. -/
theorem takesAll_algorithms (before : List AlgorithmEntry) {es : List AlgorithmEntry}
    {ms : List (String × Bytes)} (hnd : ((before ++ es).map (·.algorithm)).Nodup)
    (hes : ∀ e ∈ es, e.Storable) (hms : List.Forall₂ AlgorithmEntry.Form es ms) :
    TakesAll algorithmMember ms before (before ++ es) := by
  induction hms generalizing before with
  | nil =>
    rw [List.append_nil]
    exact .nil
  | @cons e m es ms hm _ ih =>
    obtain ⟨hname, htext⟩ := hm
    obtain ⟨he, hes⟩ := List.forall_mem_cons.mp hes
    have habsent := absent_of_nodup AlgorithmEntry.algorithm hnd
    have hruns : Takes (list RunEntry.reader) m.2 e.runs :=
      takes_listText (fun r hr _ => RunEntry.takes_form (he.finite r hr)) htext
    have hhead : ∀ blank, IsBlank blank →
        Takes (algorithmMember m.1 before) (0x3A :: (blank ++ m.2)) (before ++ [e]) := by
      intro blank hblank
      rw [← mergeMember_absent habsent he, hname]
      exact takes_colon (hruns.bind_pure (fun runs => mergeMember e.algorithm runs before)) hblank
    have happend : before ++ e :: es = before ++ [e] ++ es := by
      rw [List.append_assoc, List.singleton_append]
    rw [happend] at hnd ⊢
    exact .cons hhead (ih _ hnd hes)

theorem takes_algorithms {es : List AlgorithmEntry} (hes : StorableEntries es) {b : Bytes}
    (h : AlgorithmsForm es b) : Takes algorithms b es := by
  obtain ⟨ms, hms, hform⟩ := h
  have hall : TakesAll algorithmMember ms [] es :=
    takesAll_algorithms [] hes.distinct hes.entries hms
  obtain ⟨s, rfl, hmembers⟩ := members_objectForm hall hform
  refine ⟨⟨_, _, rfl, rfl, rfl⟩, fun blank rest hblank _ => ?_⟩
  rw [List.append_assoc]
  refine (bind_of_ok (peekValue_of_blank hblank (by decide) (s ++ rest))).trans ?_
  exact (bind_of_ok (skipByte_cons _ _)).trans (hmembers rest)

variable (d : Document)

def fields : List Field :=
  [⟨"timestamp", (StringText · d.timestamp), False⟩,
    ⟨"configuration", (StringText · d.configuration), False⟩,
    ⟨"runs", (· = asciiBytes (Decimal.digitsOf d.runs.toNat)), False⟩,
    ⟨"regexp", OptionalText d.filter, d.filter = none⟩,
    ⟨"baseline", (StringText · d.baseline), d.baseline = "LZ4FRAMED"⟩,
    ⟨"compressions", AlgorithmsForm d.compressions, d.compressions = []⟩]

/-- The texts of a document. -/
def Form (b : Bytes) : Prop :=
  ∃ before value after, IsBlank before ∧ StructText d.fields value ∧ IsBlank after ∧
    b = before ++ (value ++ after)

def seen (names : List String) : Seen :=
  ⟨taken "timestamp" d.timestamp names, taken "configuration" d.configuration names,
    taken "runs" d.runs names, taken "regexp" d.filter names, taken "baseline" d.baseline names,
    taken "compressions" d.compressions names⟩

variable {d}

theorem readsFields (hd : d.Storable) : ReadsFields d.fields member d.seen where
  known := by
    simp only [fields, List.forall_mem_cons]
    refine ⟨fun v hv names hnew blank hblank => ?_, fun v hv names hnew blank hblank => ?_,
      fun v hv names hnew blank hblank => ?_, fun v hv names hnew blank hblank => ?_,
      fun v hv names hnew blank hblank => ?_, fun v hv names hnew blank hblank => ?_, by simp⟩
    · exact takes_once (takes_stringText hv) hnew (by simp [seen, taken_other]) hblank
    · exact takes_once (takes_stringText hv) hnew (by simp [seen, taken_other]) hblank
    · rw [hv]
      exact takes_once (takes_u32 d.runs) hnew (by simp [seen, taken_other]) hblank
    · exact takes_once (takes_optional hv) hnew (by simp [seen, taken_other]) hblank
    · exact takes_once (takes_stringText hv) hnew (by simp [seen, taken_other]) hblank
    · exact takes_once (takes_algorithms hd hv) hnew (by simp [seen, taken_other]) hblank
  foreign := by
    intro name hname names
    simp only [fields, List.map_cons, List.map_nil, List.mem_cons, List.not_mem_nil, or_false,
      not_or] at hname
    obtain ⟨htimestamp, hconfiguration, hruns, hfilter, hbaseline, hcompressions⟩ := hname
    simp [member, seen, taken_other, htimestamp, hconfiguration, hruns, hfilter, hbaseline,
      hcompressions]

theorem readsItems (hd : d.Storable) : ReadsItems d.fields ofItems d := by
  intro ps s hps hs
  obtain _ | ⟨htimestamp, _ | ⟨hconfiguration, _ | ⟨rfl, _ | ⟨hfilter, _ | ⟨hbaseline,
    _ | ⟨hcompressions, _ | _⟩⟩⟩⟩⟩⟩ := hps
  obtain ⟨s₁, hs₁, hread₁⟩ := itemAt_cons .document 0 hs (takes_stringText htimestamp)
  obtain ⟨s₂, hs₂, hread₂⟩ := itemAt_cons .document 1 hs₁ (takes_stringText hconfiguration)
  obtain ⟨s₃, hs₃, hread₃⟩ := itemAt_cons .document 2 hs₂ (takes_u32 d.runs)
  obtain ⟨s₄, hs₄, hread₄⟩ := itemAt_cons .document 3 hs₃ (takes_optional hfilter)
  obtain ⟨s₅, hs₅, hread₅⟩ := itemOr_cons standardBaseline 4 hs₄ (takes_stringText hbaseline)
  obtain ⟨s₆, hs₆, hread₆⟩ := itemOr_cons [] 5 hs₅ (takes_algorithms hd hcompressions)
  refine ⟨s₆, hs₆, fun rest => ?_⟩
  refine (bind_of_ok (hread₁ rest)).trans ((bind_of_ok (hread₂ rest)).trans ?_)
  refine (bind_of_ok (hread₃ rest)).trans ((bind_of_ok (hread₄ rest)).trans ?_)
  exact (bind_of_ok (hread₅ rest)).trans (bind_of_ok (hread₆ rest))

theorem takes_document (hd : d.Storable) {b : Bytes} (h : StructText d.fields b) :
    Takes reader b d := by
  refine takes_structText (by simp [fields]) (readsFields hd) rfl (fun names hnames => ?_)
    (readsItems hd) h
  simp only [fields, List.forall_mem_cons, or_false] at hnames
  obtain ⟨htimestamp, hconfiguration, hruns, hfilter, hbaseline, hcompressions, -⟩ := hnames
  have hstandard : standardBaseline = "LZ4FRAMED" := rfl
  simp [seen, required_taken, getD_taken, hstandard, htimestamp, hconfiguration, hruns, hfilter,
    hbaseline, hcompressions]

/-- A document is decoded from each of its texts. -/
theorem decode_form (hd : d.Storable) {b : Bytes} (h : d.Form b) : decode b = .ok d := by
  obtain ⟨before, value, after, hbefore, hvalue, hafter, rfl⟩ := h
  have hends : EndsNumber after := by
    have hh := endsNumber_of_blank hafter endsNumber_nil
    rwa [List.append_nil] at hh
  have hread : reader (before ++ (value ++ after)) = .ok (d, after) := by
    rw [← List.append_assoc]
    exact (takes_document hd hvalue).reads before after hbefore hends
  have hpeek : peek after = .ok (none, []) := by
    have hdrop : dropBlank after = [] := by
      rw [← List.append_nil after, dropBlank_append hafter]
      rfl
    unfold peek
    rw [hdrop]
    rfl
  have hfinish : finish after = .ok ((), []) := bind_of_ok hpeek
  have hall : (do let d ← reader; finish; return d : Reader Document).run
      (before ++ (value ++ after)) = .ok (d, []) :=
    (bind_of_ok hread).trans (bind_of_ok hfinish)
  rw [decode, hall]
  rfl

end Document

end CompressionSweep
