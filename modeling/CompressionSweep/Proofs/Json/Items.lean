import CompressionSweep.Proofs.Json.Skip

/-! Lists and objects are read item by item, however their text is laid out. -/

namespace CompressionSweep.Json

variable {α β σ : Type}

theorem moreItems_nil {first : Bool} {s : Bytes} (h : ItemsText 0x5D first [] s) (rest : Bytes) :
    moreItems first (s ++ rest) = .ok (false, 0x5D :: rest) := by
  cases h with
  | close hblank =>
    rw [List.append_assoc]
    exact moreItems_close first hblank rest

theorem moreItems_cons {first : Bool} {p s : Bytes} {ps : List Bytes}
    (h : ItemsText 0x5D first (p :: ps) s) (hp : Opens p) :
    ∃ t, ItemsText 0x5D false ps t ∧
      ∀ rest, moreItems first (s ++ rest) = .ok (true, p ++ (t ++ rest)) := by
  cases h with
  | @first blank _ t _ hblank tail =>
    refine ⟨t, tail, fun rest => ?_⟩
    simp only [List.append_assoc]
    exact moreItems_first hblank (hp.append _)
  | @next blank blank' _ t _ hblank hblank' tail =>
    refine ⟨t, tail, fun rest => ?_⟩
    obtain ⟨b, r, rfl, hb, hclose⟩ := hp
    simp only [List.append_assoc, List.cons_append]
    refine (bind_of_ok (peek_of_blank hblank rfl _)).trans ?_
    refine (bind_of_ok (skipByte_cons 0x2C _)).trans ?_
    refine (bind_of_ok (peek_of_blank hblank' hb _)).trans ?_
    simp only [hclose]
    rfl

/-- Every item but the first has a comma in front of it, and the last a bracket behind it. -/
theorem length_le_items {close : UInt8} {first : Bool} {ps : List Bytes} {s : Bytes}
    (h : ItemsText close first ps s) :
    ps.length ≤ s.length ∧ (first = false → ps.length < s.length) := by
  induction h with
  | close => simp
  | first _ _ ih =>
    have hlt := ih.2 rfl
    refine ⟨?_, nofun⟩
    simp only [List.length_cons, List.length_append]
    omega
  | next _ _ _ ih =>
    have hlt := ih.2 rfl
    simp only [List.length_cons, List.length_append]
    omega

/-! Lists. -/

/-- The texts of a list of things that have texts. -/
def ListText (text : α → Bytes → Prop) (as : List α) (b : Bytes) : Prop :=
  ∃ ps, List.Forall₂ text as ps ∧ Enclosed 0x5B 0x5D ps b

theorem itemsLoop_items {item : Reader α} {as : List α} {ps : List Bytes}
    (h : List.Forall₂ (fun a p => Takes item p a) as ps) {first : Bool} {s : Bytes}
    (hs : ItemsText 0x5D first ps s) (rest : Bytes) {fuel : Nat} (hfuel : as.length < fuel) :
    itemsLoop item fuel first (s ++ rest) = .ok (as, 0x5D :: rest) := by
  induction h generalizing first s fuel with
  | nil =>
    obtain ⟨fuel, rfl⟩ := Nat.exists_eq_add_one.mpr (Nat.zero_lt_of_lt hfuel)
    exact bind_of_ok (moreItems_nil hs rest)
  | cons ha _ ih =>
    obtain ⟨fuel, rfl⟩ := Nat.exists_eq_add_one.mpr (Nat.zero_lt_of_lt hfuel)
    obtain ⟨t, htail, hmore⟩ := moreItems_cons hs ha.opens
    have hends := endsNumber_items (.inl rfl) htail rest
    refine (bind_of_ok (hmore rest)).trans ?_
    refine (bind_of_ok (ha.after hends)).trans ?_
    exact bind_of_ok (ih htail (Nat.lt_of_succ_lt_succ hfuel))

theorem takes_listText {item : Reader α} {text : α → Bytes → Prop} {as : List α} {b : Bytes}
    (h : ∀ a ∈ as, ∀ p, text a p → Takes item p a) (hb : ListText text as b) :
    Takes (list item) b as := by
  obtain ⟨ps, hps, s, hs, rfl⟩ := hb
  have htakes : List.Forall₂ (fun a p => Takes item p a) as ps := by
    clear hs
    induction hps with
    | nil => exact .nil
    | cons ha _ ih =>
      obtain ⟨hhead, htail⟩ := List.forall_mem_cons.mp h
      exact .cons (hhead _ ha) (ih htail)
  refine ⟨⟨_, _, rfl, rfl, rfl⟩, fun blank rest hblank _ => ?_⟩
  rw [List.append_assoc]
  refine (bind_of_ok (peekValue_of_blank hblank (by decide) (s ++ rest))).trans ?_
  refine (bind_of_ok (skipByte_cons _ _)).trans ?_
  have hitems : items item (s ++ rest) = .ok (as, 0x5D :: rest) := by
    -- The fuel is the length of the text.
    refine itemsLoop_items htakes hs rest ?_
    have hlen := (length_le_items hs).1
    rw [htakes.length_eq, List.length_append]
    omega
  exact (bind_of_ok hitems).trans (bind_of_ok (endList_close rest))

/-! Objects. -/

/-- The texts of an object with the members `ms`, of which the names may be written in any way. -/
def ObjectForm (ms : List (String × Bytes)) (b : Bytes) : Prop :=
  ∃ ps, List.Forall₂ (fun m p => ∃ key, StringText key m.1 ∧ KeyedText key m.2 p) ms ps ∧
    Enclosed 0x7B 0x7D ps b

theorem nextKey_nil {first : Bool} {s : Bytes} (h : ItemsText 0x7D first [] s) (rest : Bytes) :
    nextKey first (s ++ rest) = .ok (none, 0x7D :: rest) := by
  cases h with
  | close hblank =>
    rw [List.append_assoc]
    exact nextKey_close first hblank rest

theorem nextKey_cons {first : Bool} {key p s : Bytes} {ps : List Bytes} {name : String}
    (h : ItemsText 0x7D first ((key ++ p) :: ps) s) (hkey : StringText key name) :
    ∃ t, ItemsText 0x7D false ps t ∧
      ∀ rest, nextKey first (s ++ rest) = .ok (some name, p ++ (t ++ rest)) := by
  obtain ⟨inside, hinside, rfl⟩ := hkey
  cases h with
  | @first blank _ t _ hblank tail =>
    refine ⟨t, tail, fun rest => ?_⟩
    simp only [List.append_assoc, List.cons_append, List.nil_append]
    refine (bind_of_ok (peek_of_blank hblank rfl _)).trans ?_
    refine (bind_of_ok (skipByte_cons _ _)).trans ?_
    exact bind_of_ok (stringRest_charsText hinside _)
  | @next blank blank' _ t _ hblank hblank' tail =>
    refine ⟨t, tail, fun rest => ?_⟩
    simp only [List.append_assoc, List.cons_append, List.nil_append]
    refine (bind_of_ok (peek_of_blank hblank rfl _)).trans ?_
    refine (bind_of_ok (skipByte_cons _ _)).trans ?_
    refine (bind_of_ok (peek_of_blank hblank' rfl _)).trans ?_
    refine (bind_of_ok (skipByte_cons _ _)).trans ?_
    exact bind_of_ok (stringRest_charsText hinside _)

/-- Reading the values of `ms` under their names, one after another, takes the state from the first
to the last. -/
inductive TakesAll (member : String → σ → Reader σ) : List (String × Bytes) → σ → σ → Prop where
  | nil {st : σ} : TakesAll member [] st st
  | cons {m : String × Bytes} {ms : List (String × Bytes)} {st st₁ st₂ : σ}
    (head : ∀ blank, IsBlank blank → Takes (member m.1 st) (0x3A :: (blank ++ m.2)) st₁)
    (tail : TakesAll member ms st₁ st₂) : TakesAll member (m :: ms) st st₂

theorem membersLoop_items {member : String → σ → Reader σ} {ms : List (String × Bytes)}
    {ps : List Bytes} {st st' : σ} (h : TakesAll member ms st st')
    (hps : List.Forall₂ (fun m p => ∃ key, StringText key m.1 ∧ KeyedText key m.2 p) ms ps)
    {first : Bool} {s : Bytes} (hs : ItemsText 0x7D first ps s) (rest : Bytes) {fuel : Nat}
    (hfuel : ms.length < fuel) :
    membersLoop member fuel first st (s ++ rest) = .ok (st', 0x7D :: rest) := by
  induction h generalizing ps first s fuel with
  | nil =>
    obtain ⟨fuel, rfl⟩ := Nat.exists_eq_add_one.mpr (Nat.zero_lt_of_lt hfuel)
    cases hps
    exact bind_of_ok (nextKey_nil hs rest)
  | @cons m ms st st₁ st₂ head tail ih =>
    obtain ⟨fuel, rfl⟩ := Nat.exists_eq_add_one.mpr (Nat.zero_lt_of_lt hfuel)
    obtain ⟨p, ps, ⟨key, hkey, hp⟩, htexts, rfl⟩ := List.forall₂_cons_left_iff.mp hps
    obtain ⟨blank, blank', hblank, hblank', rfl⟩ := hp
    obtain ⟨t, htail, hnext⟩ := nextKey_cons hs hkey
    have hends := endsNumber_items (.inr rfl) htail rest
    have hvalue : member m.1 st (blank ++ 0x3A :: (blank' ++ m.2) ++ (t ++ rest)) =
        .ok (st₁, t ++ rest) := (head blank' hblank').reads blank (t ++ rest) hblank hends
    refine (bind_of_ok (hnext rest)).trans ((bind_of_ok hvalue).trans ?_)
    exact ih htexts htail (Nat.lt_of_succ_lt_succ hfuel)

theorem members_objectForm {member : String → σ → Reader σ} {ms : List (String × Bytes)} {b : Bytes}
    {st st' : σ} (h : TakesAll member ms st st') (hb : ObjectForm ms b) :
    ∃ s, b = 0x7B :: s ∧ ∀ rest, members member st (s ++ rest) = .ok (st', rest) := by
  obtain ⟨ps, hps, s, hs, rfl⟩ := hb
  refine ⟨s, rfl, fun rest => ?_⟩
  refine (bind_of_ok ?_).trans (bind_of_ok (skipByte_cons 0x7D rest))
  have hlen := (length_le_items hs).1
  refine membersLoop_items h hps hs rest ?_
  rw [hps.length_eq, List.length_append]
  omega

end CompressionSweep.Json
