import CompressionSweep.Proofs.Json.Items
import Mathlib.Data.List.Forall2

/-! Structs in all their forms: an object with its members in any order among unknown ones, in which
members that have a default may be missing, or an array of all of them in their order. -/

namespace CompressionSweep.Json

variable {α σ : Type}

/-- A field of a struct: its name, the texts of its value, and whether it may be left out. -/
structure Field where
  name : String
  text : Bytes → Prop
  optional : Prop

/-- A choice of members for the fields, in their order. -/
inductive Kept : List Field → List (String × Bytes) → Prop where
  | nil : Kept [] []
  | keep {f : Field} {fs : List Field} {v : Bytes} {ms : List (String × Bytes)} (h : f.text v)
    (tail : Kept fs ms) : Kept (f :: fs) ((f.name, v) :: ms)
  | leaveOut {f : Field} {fs : List Field} {ms : List (String × Bytes)} (h : f.optional)
    (tail : Kept fs ms) : Kept (f :: fs) ms

/-- The texts of a struct. -/
inductive StructText (fields : List Field) : Bytes → Prop where
  | array {ps : List Bytes} {b : Bytes} (values : List.Forall₂ (fun f p => f.text p) fields ps)
    (h : Enclosed 0x5B 0x5D ps b) : StructText fields b
  | object {kept foreign ms : List (String × Bytes)} {b : Bytes} (hkept : Kept fields kept)
    (hforeign : ∀ m ∈ foreign, m.1 ∉ fields.map (·.name) ∧ ValueText m.2)
    (hperm : ms.Perm (kept ++ foreign)) (h : ObjectForm ms b) : StructText fields b

namespace Kept

variable {fields : List Field} {ms : List (String × Bytes)}

theorem sublist (h : Kept fields ms) : (ms.map (·.1)).Sublist (fields.map (·.name)) := by
  induction h with
  | nil => exact .slnil
  | keep _ _ ih => exact ih.cons_cons _
  | leaveOut _ _ ih => exact ih.cons _

theorem exists_field (h : Kept fields ms) :
    ∀ m ∈ ms, ∃ f ∈ fields, f.name = m.1 ∧ f.text m.2 := by
  induction h with
  | nil => simp
  | @keep f fs v ms hv _ ih =>
    refine List.forall_mem_cons.mpr ⟨⟨f, List.mem_cons_self, rfl, hv⟩, fun m hm => ?_⟩
    obtain ⟨g, hg, hh⟩ := ih m hm
    exact ⟨g, List.mem_cons_of_mem f hg, hh⟩
  | @leaveOut f fs ms _ _ ih =>
    intro m hm
    obtain ⟨g, hg, hh⟩ := ih m hm
    exact ⟨g, List.mem_cons_of_mem f hg, hh⟩

theorem mem_or_optional (h : Kept fields ms) :
    ∀ f ∈ fields, f.name ∈ ms.map (·.1) ∨ f.optional := by
  induction h with
  | nil => simp
  | @keep f fs v ms _ _ ih =>
    refine List.forall_mem_cons.mpr ⟨.inl (by simp), fun g hg => ?_⟩
    exact (ih g hg).imp_left (List.mem_cons_of_mem f.name)
  | leaveOut hf _ ih => exact List.forall_mem_cons.mpr ⟨.inr hf, ih⟩

end Kept

/-! Reading the members. -/

/-- How members are read: `seen names` is the state in which the members `names` have been read, and
the value of a field is then taken from any of its texts, that of an unknown member passed over. -/
structure ReadsFields (fields : List Field) (member : String → σ → Reader σ)
    (seen : List String → σ) : Prop where
  known : ∀ f ∈ fields, ∀ v, f.text v → ∀ names, f.name ∉ names → ∀ blank, IsBlank blank →
    Takes (member f.name (seen names)) (0x3A :: (blank ++ v)) (seen (f.name :: names))
  foreign : ∀ name, name ∉ fields.map (·.name) → ∀ names,
    member name (seen names) = skipMember >>= fun _ => pure (seen (name :: names))

section Fields

variable {fields : List Field} {member : String → σ → Reader σ} {seen : List String → σ}

/-- Members are read in whatever order they come, as long as none of a field comes twice. -/
theorem ReadsFields.takesAll (h : ReadsFields fields member seen) {ms : List (String × Bytes)}
    (hms : ∀ m ∈ ms, (∃ f ∈ fields, f.name = m.1 ∧ f.text m.2) ∨
      m.1 ∉ fields.map (·.name) ∧ ValueText m.2)
    (hapart : ms.Pairwise (fun m m' => m.1 = m'.1 → m.1 ∉ fields.map (·.name)))
    {names : List String} (hnew : ∀ m ∈ ms, m.1 ∈ fields.map (·.name) → m.1 ∉ names) :
    TakesAll member ms (seen names) (seen ((ms.map (·.1)).reverse ++ names)) := by
  induction ms generalizing names with
  | nil => exact .nil
  | cons m ms ih =>
    obtain ⟨hm, hrest⟩ := List.forall_mem_cons.mp hms
    obtain ⟨hfirst, hlater⟩ := List.pairwise_cons.mp hapart
    obtain ⟨hnewm, hnewrest⟩ := List.forall_mem_cons.mp hnew
    have hhead : ∀ blank, IsBlank blank →
        Takes (member m.1 (seen names)) (0x3A :: (blank ++ m.2)) (seen (m.1 :: names)) := by
      intro blank hblank
      rcases hm with ⟨f, hf, hname, htext⟩ | ⟨hunknown, hvalue⟩
      · have hmem : m.1 ∈ fields.map (·.name) := hname ▸ List.mem_map_of_mem hf
        have hread := h.known f hf m.2 htext names (by rw [hname]; exact hnewm hmem) blank hblank
        rwa [hname] at hread
      · rw [h.foreign m.1 hunknown]
        exact (takes_colon (takes_skipValue hvalue) hblank).bind_pure (fun _ => _)
    have hnext : ∀ m' ∈ ms, m'.1 ∈ fields.map (·.name) → m'.1 ∉ m.1 :: names := by
      intro m' hm' hfield hmem
      rcases List.mem_cons.mp hmem with heq | hmem
      · exact hfirst m' hm' heq.symm (heq ▸ hfield)
      · exact hnewrest m' hm' hfield hmem
    rw [List.map_cons, List.reverse_cons, List.append_assoc, List.singleton_append]
    exact .cons hhead (ih hrest hlater hnext)

/-- A permutation of a choice of members and of unknown ones is read, and no field that must be
there is missed. -/
theorem ReadsFields.takesAll_of_perm (h : ReadsFields fields member seen)
    (hnames : (fields.map (·.name)).Nodup) {kept foreign ms : List (String × Bytes)}
    (hkept : Kept fields kept)
    (hforeign : ∀ m ∈ foreign, m.1 ∉ fields.map (·.name) ∧ ValueText m.2)
    (hperm : ms.Perm (kept ++ foreign)) :
    ∃ names, TakesAll member ms (seen []) (seen names) ∧
      ∀ f ∈ fields, f.name ∈ names ∨ f.optional := by
  have hms : ∀ m ∈ ms, (∃ f ∈ fields, f.name = m.1 ∧ f.text m.2) ∨
      m.1 ∉ fields.map (·.name) ∧ ValueText m.2 := by
    intro m hm
    exact (List.mem_append.mp (hperm.subset hm)).imp (hkept.exists_field m) (hforeign m)
  have hdistinct : kept.Pairwise (fun m m' => m.1 ≠ m'.1) :=
    List.pairwise_map.mp (hnames.sublist hkept.sublist)
  have hboth : (kept ++ foreign).Pairwise
      (fun m m' => m.1 = m'.1 → m.1 ∉ fields.map (·.name)) := by
    refine List.pairwise_append.mpr ⟨?_, ?_, ?_⟩
    · exact hdistinct.imp (fun hne heq => absurd heq hne)
    · exact List.pairwise_of_forall_mem_list (fun m hm _ _ _ => (hforeign m hm).1)
    · intro m _ m' hm' heq
      rw [heq]
      exact (hforeign m' hm').1
  have hapart : ms.Pairwise (fun m m' => m.1 = m'.1 → m.1 ∉ fields.map (·.name)) :=
    hperm.symm.pairwise hboth (fun hh heq => heq ▸ hh heq.symm)
  refine ⟨_, h.takesAll hms hapart (fun m _ _ => List.not_mem_nil), fun f hf => ?_⟩
  refine (hkept.mem_or_optional f hf).imp_left (fun hmem => ?_)
  have hboth : f.name ∈ (kept ++ foreign).map (·.1) := by
    rw [List.map_append]
    exact List.mem_append_left _ hmem
  rw [List.append_nil, List.mem_reverse]
  exact (hperm.map (·.1)).symm.subset hboth

/-! Reading the items. -/

theorem item_cons {value other : Reader α} {first : Bool} {p s : Bytes} {ps : List Bytes} {a : α}
    (hs : ItemsText 0x5D first (p :: ps) s) (hp : Takes value p a) :
    ∃ t, ItemsText 0x5D false ps t ∧ ∀ rest,
      (moreItems first >>= fun more => if more then value else other) (s ++ rest) =
        .ok (a, t ++ rest) := by
  obtain ⟨t, htail, hmore⟩ := moreItems_cons hs hp.opens
  have hends := endsNumber_items (.inl rfl) htail
  exact ⟨t, htail, fun rest => (bind_of_ok (hmore rest)).trans (hp.after (hends rest))⟩

theorem itemAt_cons {value : Reader α} (wanted : Wanted) {p s : Bytes} {ps : List Bytes} {a : α}
    (index : Nat) (hs : ItemsText 0x5D (index == 0) (p :: ps) s) (hp : Takes value p a) :
    ∃ t, ItemsText 0x5D false ps t ∧
      ∀ rest, itemAt wanted index value (s ++ rest) = .ok (a, t ++ rest) :=
  item_cons hs hp

theorem itemOr_cons {value : Reader α} (default : α) {p s : Bytes} {ps : List Bytes} {a : α}
    (index : Nat) (hs : ItemsText 0x5D (index == 0) (p :: ps) s) (hp : Takes value p a) :
    ∃ t, ItemsText 0x5D false ps t ∧
      ∀ rest, itemOr index default value (s ++ rest) = .ok (a, t ++ rest) :=
  item_cons hs hp

/-- The items of a struct in their order are read as `a`, and the closing bracket is left. -/
def ReadsItems (fields : List Field) (ofItems : Reader α) (a : α) : Prop :=
  ∀ ps s, List.Forall₂ (fun f p => f.text p) fields ps → ItemsText 0x5D true ps s →
    ∃ t, ItemsText 0x5D false [] t ∧ ∀ rest, ofItems (s ++ rest) = .ok (a, t ++ rest)

theorem endList_items {t : Bytes} (h : ItemsText 0x5D false [] t) (rest : Bytes) :
    endList (t ++ rest) = .ok ((), rest) := by
  cases h with
  | close hblank =>
    rw [List.append_assoc]
    exact bind_of_ok (peek_of_blank hblank rfl rest)

/-- A struct is taken from any of its texts, if its fields can be read one by one, `finish` gives it
once none that must be there is missing, and its items can be read in their order. -/
theorem takes_structText {wanted : Wanted} {ofMembers ofItems : Reader α} {finish : σ → Reader α}
    {a : α} (hnames : (fields.map (·.name)).Nodup) (hfields : ReadsFields fields member seen)
    (hof : ofMembers = members member (seen []) >>= finish)
    (hfinish : ∀ names, (∀ f ∈ fields, f.name ∈ names ∨ f.optional) →
      finish (seen names) = pure a)
    (hitems : ReadsItems fields ofItems a) {b : Bytes} (hb : StructText fields b) :
    Takes (struct wanted ofMembers ofItems) b a := by
  cases hb with
  | array values h =>
    obtain ⟨s, hs, rfl⟩ := h
    obtain ⟨t, ht, hread⟩ := hitems _ s values hs
    refine ⟨⟨_, _, rfl, rfl, rfl⟩, fun blank rest hblank _ => ?_⟩
    rw [List.append_assoc]
    refine (bind_of_ok (peekValue_of_blank hblank (by decide) (s ++ rest))).trans ?_
    refine (bind_of_ok (skipByte_cons _ _)).trans ?_
    exact (bind_of_ok (hread rest)).trans (bind_of_ok (endList_items ht rest))
  | object hkept hforeign hperm h =>
    obtain ⟨names, htakes, hread⟩ := hfields.takesAll_of_perm hnames hkept hforeign hperm
    obtain ⟨s, rfl, hmembers⟩ := members_objectForm htakes h
    refine ⟨⟨_, _, rfl, rfl, rfl⟩, fun blank rest hblank _ => ?_⟩
    rw [List.append_assoc, hof]
    refine (bind_of_ok (peekValue_of_blank hblank (by decide) (s ++ rest))).trans ?_
    refine (bind_of_ok (skipByte_cons _ _)).trans ?_
    refine (bind_of_ok (hmembers rest)).trans ?_
    rw [hfinish names hread]
    rfl

end Fields

end CompressionSweep.Json
