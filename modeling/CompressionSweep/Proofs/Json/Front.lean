import CompressionSweep.Proofs.Json.Yields

/-! A reader takes something from the front of the text: what it leaves is the end of the text. -/

namespace CompressionSweep.Json

variable {α β σ : Type}

/-- What the reader leaves is an end of what it was given. -/
def TakesFront (r : Reader α) : Prop :=
  ∀ s a t, r s = .ok (a, t) → t <:+ s

section Rules

variable {r : Reader α}

theorem takesFront_pure (a : α) : TakesFront (pure a : Reader α) := by
  rintro s b t ⟨⟩
  exact List.suffix_refl s

theorem takesFront_fail (p : Problem) : TakesFront (fail p : Reader α) := by
  rintro s a t ⟨⟩

theorem TakesFront.bind {f : α → Reader β} (hr : TakesFront r) (hf : ∀ a, TakesFront (f a)) :
    TakesFront (r >>= f) := by
  intro s b t h
  obtain ⟨a, u, ha, hb⟩ := bind_eq_ok h
  exact (hf a u b t hb).trans (hr s a u ha)

theorem TakesFront.map (hr : TakesFront r) (f : α → β) :
    TakesFront (r >>= fun a => pure (f a)) :=
  hr.bind (fun a => takesFront_pure (f a))

theorem takesFront_peek : TakesFront peek := by
  rintro s a t ⟨⟩
  exact List.dropWhile_suffix _

theorem takesFront_skipByte : TakesFront skipByte := by
  rintro s a t ⟨⟩
  exact List.tail_suffix s

theorem takesFront_peekValue : TakesFront peekValue := by
  refine takesFront_peek.bind (fun b => ?_)
  cases b with
  | none => exact takesFront_fail _
  | some b => exact takesFront_pure b

theorem takesFront_mismatch (wanted : Wanted) : TakesFront (mismatch wanted : Reader α) :=
  fun s a t h => (yields_mismatch (P := fun _ => False) wanted s a t h).elim

end Rules

/-! Strings. -/

theorem suffix_of_consBytes {b s : Bytes} {x : Except Problem (Bytes × Bytes)} {p : Bytes × Bytes}
    (hx : ∀ {q : Bytes × Bytes}, x = .ok q → q.2 <:+ s) (h : consBytes b x = .ok p) :
    p.2 <:+ s := by
  cases x with
  | error e => cases h
  | ok q =>
    obtain rfl := Except.ok.inj h
    exact @hx q rfl

theorem suffix_of_stringBytes {s : Bytes} {p : Bytes × Bytes} (h : stringBytes s = .ok p) :
    p.2 <:+ s := by
  fun_induction stringBytes s generalizing p with
  | case2 b r =>
    obtain rfl := Except.ok.inj h
    exact List.suffix_cons b r
  | case4 b _ _ e r _ _ ih => exact (suffix_of_consBytes ih h).trans ⟨[b, e], rfl⟩
  | case10 b _ _ e _ _ k₁ k₂ k₃ k₄ _ _ _ _ c _ d _ l₁ l₂ l₃ l₄ r _ _ _ ih =>
    exact (suffix_of_consBytes ih h).trans ⟨[b, e, k₁, k₂, k₃, k₄, c, d, l₁, l₂, l₃, l₄], rfl⟩
  | case15 b _ _ e _ _ k₁ k₂ k₃ k₄ r _ _ _ _ ih =>
    exact (suffix_of_consBytes ih h).trans ⟨[b, e, k₁, k₂, k₃, k₄], rfl⟩
  | case19 b r _ _ _ ih => exact (suffix_of_consBytes ih h).trans (List.suffix_cons b r)
  | _ => cases h

theorem takesFront_stringRest : TakesFront stringRest := by
  intro s a t h
  unfold stringRest at h
  split at h
  · cases h
  · rename_i b rest hb
    split at h
    · cases h
    · obtain ⟨-, rfl⟩ := Prod.mk.inj (Except.ok.inj h)
      exact suffix_of_stringBytes hb

theorem suffix_of_afterString {s t : Bytes} (h : afterString s = .ok t) : t <:+ s := by
  fun_induction afterString s with
  | case2 b r =>
    obtain rfl := Except.ok.inj h
    exact List.suffix_cons b _
  | case4 b _ _ e r _ ih => exact (ih h).trans ⟨[b, e], rfl⟩
  | case5 b _ _ e _ _ k₁ k₂ k₃ k₄ r _ ih => exact (ih h).trans ⟨[b, e, k₁, k₂, k₃, k₄], rfl⟩
  | case10 b r _ _ _ ih => exact (ih h).trans (List.suffix_cons b r)
  | _ => cases h

/-! Numbers and words. -/

theorem suffix_takeDigits (s : Bytes) : (takeDigits s).2 <:+ s :=
  List.dropWhile_suffix _

theorem takesFront_exponentPart : TakesFront exponentPart := by
  intro s n t h
  have hsign : ∃ u, u <:+ s ∧ t = (takeDigits u).2 := by
    unfold exponentPart at h
    dsimp only at h
    split at h
    · cases h
    · split at h
      · obtain ⟨-, rfl⟩ := Prod.mk.inj (Except.ok.inj h)
        refine ⟨_, ?_, rfl⟩
        cases s with
        | nil => exact List.suffix_refl []
        | cons b r =>
          dsimp only
          split_ifs
          · exact List.suffix_cons b r
          · exact List.suffix_cons b r
          · exact List.suffix_refl _
      · cases h
  obtain ⟨u, hu, rfl⟩ := hsign
  exact (suffix_takeDigits u).trans hu

theorem takesFront_scaledNumber (negative : Bool) (whole fraction : Bytes) (pointed : Bool) :
    TakesFront (scaledNumber negative whole fraction pointed) := by
  intro s n t h
  unfold scaledNumber at h
  have hkeep : ∀ {x : Except Problem Number} {u : Bytes} {p : Number × Bytes},
      (do return (← x, u)) = Except.ok p → p.2 = u := by
    intro x u p hx
    cases x with
    | error e => cases hx
    | ok n =>
      obtain rfl := Except.ok.inj hx
      rfl
  dsimp only at h
  split at h
  · rename_i b r
    split at h
    · cases he : exponentPart r with
      | error e => rw [he] at h; cases h
      | ok e =>
        rw [he] at h
        obtain rfl : t = e.2 := hkeep h
        exact (takesFront_exponentPart r e.1 e.2 he).trans (List.suffix_cons b r)
    · split at h
      · rw [show t = _ from hkeep h]
      · rw [show t = _ from hkeep h]
  · split at h
    · rw [show t = _ from hkeep h]
    · rw [show t = _ from hkeep h]

theorem takesFront_unsignedNumber (negative : Bool) : TakesFront (unsignedNumber negative) := by
  intro s n t h
  unfold unsignedNumber at h
  have hdigits := suffix_takeDigits s
  generalize takeDigits s = p at h hdigits
  dsimp only at h
  split at h
  · cases h
  · split at h
    · cases h
    · split at h
      · rename_i after hrest
        have hafter : after <:+ s := (List.suffix_cons _ after).trans (hrest ▸ hdigits)
        split at h
        · cases h
        · exact (takesFront_scaledNumber _ _ _ _ _ _ _ h).trans
            ((suffix_takeDigits after).trans hafter)
      · exact (takesFront_scaledNumber _ _ _ _ _ _ _ h).trans hdigits

theorem takesFront_number (wanted : Wanted) : TakesFront (number wanted) := by
  refine takesFront_peekValue.bind (fun b => ?_)
  split
  · exact takesFront_skipByte.bind (fun _ => takesFront_unsignedNumber true)
  · split
    · exact takesFront_unsignedNumber false
    · exact takesFront_mismatch wanted

theorem takesFront_natural (wanted : Wanted) (bound : Nat) : TakesFront (natural wanted bound) := by
  refine (takesFront_number wanted).bind (fun n => ?_)
  cases n with
  | float x => exact takesFront_fail _
  | integer n =>
    dsimp only
    split
    · exact takesFront_pure _
    · exact takesFront_fail _

theorem takesFront_f64 : TakesFront f64 := by
  refine (takesFront_number .f64).bind (fun n => ?_)
  cases n with
  | float x => exact takesFront_pure x
  | integer n => exact takesFront_pure _

theorem suffix_of_word {w s t : Bytes} (h : word w s = .ok t) : t <:+ s := by
  induction w generalizing s with
  | nil =>
    obtain rfl := Except.ok.inj h
    exact List.suffix_refl _
  | cons c w ih =>
    cases s with
    | nil => cases h
    | cons b s =>
      rw [word] at h
      split at h
      · exact (ih h).trans (List.suffix_cons b s)
      · cases h

theorem takesFront_text : TakesFront text := by
  refine takesFront_peekValue.bind (fun b => ?_)
  split
  · exact takesFront_skipByte.bind (fun _ => takesFront_stringRest)
  · exact takesFront_mismatch _

/-! Values that do not matter. -/

theorem suffix_dropBlank (s : Bytes) : dropBlank s <:+ s :=
  List.dropWhile_suffix _

theorem suffix_of_dropBlank {s r : Bytes} {b : UInt8} (h : dropBlank s = b :: r) : r <:+ s :=
  (List.suffix_cons b r).trans (h ▸ suffix_dropBlank s)

theorem exists_of_bind {ε X Y : Type} {x : Except ε X} {f : X → Except ε Y} {y : Y}
    (h : (x >>= f) = .ok y) : ∃ a, x = .ok a ∧ f a = .ok y := by
  cases x with
  | error e => cases h
  | ok a => exact ⟨a, rfl, h⟩

theorem suffix_of_afterNumber {s t : Bytes} (h : afterNumber s = .ok t) : t <:+ s := by
  unfold afterNumber at h
  have hdigits := suffix_takeDigits s
  generalize takeDigits s = p at h hdigits
  dsimp only at h
  split at h
  · cases h
  split at h
  · cases h
  split at h
  case' h_1 after hrest =>
    split at h
    · cases h
    have hafter : after <:+ s := (List.suffix_cons _ after).trans (hrest ▸ hdigits)
    obtain ⟨u, heq, h⟩ := exists_of_bind h
    have hu : u <:+ s := Except.ok.inj heq ▸ (suffix_takeDigits after).trans hafter
  case' h_2 =>
    obtain ⟨u, heq, h⟩ := exists_of_bind h
    have hu : u <:+ s := Except.ok.inj heq ▸ hdigits
  -- An exponent may follow, with a fraction before it or without.
  all_goals
    refine List.IsSuffix.trans ?_ hu
    split at h
    · rename_i b r
      split at h
      · cases r with
        | nil => cases h
        | cons c r =>
          dsimp only at h
          split_ifs at h
          · obtain rfl := Except.ok.inj h
            exact (suffix_takeDigits r).trans ⟨[b, c], rfl⟩
          · obtain rfl := Except.ok.inj h
            exact (suffix_takeDigits _).trans (List.suffix_cons b _)
      · obtain rfl := Except.ok.inj h
        exact List.suffix_refl _
    · obtain rfl := Except.ok.inj h
      exact List.suffix_refl _

theorem suffix_of_beforeValue {f : Frame} {s t : Bytes} (h : f.beforeValue s = .ok t) :
    t <:+ s := by
  cases f with
  | list =>
    obtain rfl := Except.ok.inj h
    exact List.suffix_refl _
  | object =>
    rw [Frame.beforeValue] at h
    split at h
    · cases h
    · rename_i b r hs
      split at h
      · obtain ⟨u, hu, h⟩ := exists_of_bind h
        refine List.IsSuffix.trans ?_ ((suffix_of_afterString hu).trans (suffix_of_dropBlank hs))
        split at h
        · cases h
        · rename_i c v hu
          split at h
          · obtain rfl := Except.ok.inj h
            exact suffix_of_dropBlank hu
          · cases h
      · cases h

theorem suffix_of_afterValue {fs : List Frame} {s : Bytes} {p : List Frame × Bytes}
    (h : afterValue fs s = .ok p) : p.2 <:+ s := by
  fun_induction afterValue fs s with
  | case1 s =>
    obtain rfl := Except.ok.inj h
    exact List.suffix_refl _
  | case4 f fs s b r hs _ t ht =>
    obtain rfl := Except.ok.inj h
    exact (suffix_of_beforeValue ht).trans (suffix_of_dropBlank hs)
  | case5 f fs s b r hs _ _ ih => exact (ih h).trans (suffix_of_dropBlank hs)
  | _ => cases h

theorem suffix_of_afterOpening {f : Frame} {fs : List Frame} {s : Bytes} {p : List Frame × Bytes}
    (h : afterOpening f fs s = .ok p) : p.2 <:+ s := by
  unfold afterOpening at h
  split at h
  · cases h
  · rename_i b r hs
    split at h
    · exact (suffix_of_afterValue h).trans (suffix_of_dropBlank hs)
    · split at h
      · cases h
      · rename_i t ht
        obtain rfl := Except.ok.inj h
        exact (suffix_of_beforeValue ht).trans (hs ▸ suffix_dropBlank s)

theorem suffix_of_skipStep {fs : List Frame} {s : Bytes} {p : List Frame × Bytes}
    (h : skipStep fs s = .ok p) : p.2 <:+ s := by
  unfold skipStep at h
  split at h
  · cases h
  · rename_i b r hs
    extract_lets scalar at h
    have hscalar : ∀ {x : Except Problem Bytes}, (∀ {t}, x = .ok t → t <:+ s) →
        scalar x = .ok p → p.2 <:+ s := by
      intro x hx hp
      cases x with
      | error e => cases hp
      | ok t => exact (suffix_of_afterValue hp).trans (hx rfl)
    have hr := suffix_of_dropBlank hs
    split_ifs at h
    · exact hscalar (fun ht => (suffix_of_word ht).trans hr) h
    · exact hscalar (fun ht => (suffix_of_word ht).trans hr) h
    · exact hscalar (fun ht => (suffix_of_word ht).trans hr) h
    · exact hscalar (fun ht => (suffix_of_afterNumber ht).trans hr) h
    · exact hscalar (fun ht => (suffix_of_afterNumber ht).trans (hs ▸ suffix_dropBlank s)) h
    · exact hscalar (fun ht => (suffix_of_afterString ht).trans hr) h
    · exact (suffix_of_afterOpening h).trans hr
    · exact (suffix_of_afterOpening h).trans hr

theorem suffix_of_skipLoop {fuel : Nat} {fs : List Frame} {s t : Bytes}
    (h : skipLoop fuel fs s = .ok t) : t <:+ s := by
  induction fuel generalizing fs s with
  | zero => cases h
  | succ fuel ih =>
    rw [skipLoop] at h
    split at h
    · cases h
    · rename_i u hu
      obtain rfl := Except.ok.inj h
      exact suffix_of_skipStep hu
    · rename_i fs' u _ hu
      exact (ih h).trans (suffix_of_skipStep hu)

theorem takesFront_skipValue : TakesFront skipValue := by
  intro s a t h
  unfold skipValue at h
  split at h
  · cases h
  · rename_i rest hrest
    obtain ⟨-, rfl⟩ := Prod.mk.inj (Except.ok.inj h)
    exact suffix_of_skipLoop hrest

/-! Lists, objects and structs. -/

section Rules

variable {r : Reader α}

theorem takesFront_moreItems (first : Bool) : TakesFront (moreItems first) := by
  refine takesFront_peek.bind (fun b => ?_)
  cases b with
  | none => exact takesFront_fail _
  | some b =>
    dsimp only
    split_ifs
    · exact takesFront_pure _
    · exact takesFront_pure _
    · refine takesFront_skipByte.bind (fun _ => takesFront_peek.bind (fun c => ?_))
      cases c with
      | none => exact takesFront_fail _
      | some c =>
        dsimp only
        split_ifs
        · exact takesFront_fail _
        · exact takesFront_pure _
    · exact takesFront_fail _

theorem takesFront_itemsLoop (hr : TakesFront r) (fuel : Nat) (first : Bool) :
    TakesFront (itemsLoop r fuel first) := by
  induction fuel generalizing first with
  | zero => exact takesFront_fail _
  | succ fuel ih =>
    refine (takesFront_moreItems first).bind (fun more => ?_)
    split
    · exact hr.bind (fun a => (ih false).map _)
    · exact takesFront_pure _

theorem takesFront_endList : TakesFront endList := by
  refine takesFront_peek.bind (fun b => ?_)
  cases b with
  | none => exact takesFront_fail _
  | some b =>
    dsimp only
    split_ifs
    · exact takesFront_skipByte
    · refine takesFront_skipByte.bind (fun _ => takesFront_peek.bind (fun c => ?_))
      split
      · exact takesFront_fail _
      · exact takesFront_fail _
    · exact takesFront_fail _

theorem takesFront_list (hr : TakesFront r) : TakesFront (list r) := by
  refine takesFront_peekValue.bind (fun b => ?_)
  split
  · have hitems : TakesFront (items r) := fun s => takesFront_itemsLoop hr _ true s
    exact takesFront_skipByte.bind (fun _ => hitems.bind (fun as => takesFront_endList.map _))
  · exact takesFront_mismatch _

theorem takesFront_nextKey (first : Bool) : TakesFront (nextKey first) := by
  have hkey : TakesFront (do skipByte; return some (← stringRest) : Reader (Option String)) :=
    takesFront_skipByte.bind (fun _ => takesFront_stringRest.map _)
  refine takesFront_peek.bind (fun b => ?_)
  cases b with
  | none => exact takesFront_fail _
  | some b =>
    dsimp only
    split_ifs
    · exact takesFront_pure _
    · exact hkey
    · exact takesFront_fail _
    · refine takesFront_skipByte.bind (fun _ => takesFront_peek.bind (fun c => ?_))
      cases c with
      | none => exact takesFront_fail _
      | some c =>
        dsimp only
        split_ifs
        · exact hkey
        · exact takesFront_fail _
        · exact takesFront_fail _
    · exact takesFront_fail _

theorem takesFront_colon : TakesFront colon := by
  refine takesFront_peek.bind (fun b => ?_)
  cases b with
  | none => exact takesFront_fail _
  | some b =>
    dsimp only
    split_ifs
    · exact takesFront_skipByte
    · exact takesFront_fail _

theorem takesFront_membersLoop {member : String → σ → Reader σ}
    (h : ∀ key st, TakesFront (member key st)) (fuel : Nat) (first : Bool) (st : σ) :
    TakesFront (membersLoop member fuel first st) := by
  induction fuel generalizing first st with
  | zero => exact takesFront_fail _
  | succ fuel ih =>
    refine (takesFront_nextKey first).bind (fun key => ?_)
    cases key with
    | none => exact takesFront_pure st
    | some key => exact (h key st).bind (fun st' => ih false st')

theorem takesFront_members {member : String → σ → Reader σ}
    (h : ∀ key st, TakesFront (member key st)) (st : σ) : TakesFront (members member st) := by
  have hloop : TakesFront (fun s => membersLoop member (s.length + 1) true st s) :=
    fun s => takesFront_membersLoop h _ true st s
  exact hloop.bind (fun st' => takesFront_skipByte.map _)

theorem takesFront_onceOnly (name : String) (seen : Option α) (hr : TakesFront r) :
    TakesFront (onceOnly name seen r) := by
  unfold onceOnly
  split
  · exact (takesFront_fail _).bind (fun _ => takesFront_colon.bind (fun _ => hr))
  · exact takesFront_colon.bind (fun _ => hr)

theorem takesFront_required (name : String) (seen : Option α) :
    TakesFront (required name seen) := by
  cases seen with
  | none => exact takesFront_fail _
  | some a => exact takesFront_pure a

theorem takesFront_skipMember : TakesFront skipMember :=
  takesFront_colon.bind (fun _ => takesFront_skipValue)

theorem takesFront_itemAt (wanted : Wanted) (index : Nat) (hr : TakesFront r) :
    TakesFront (itemAt wanted index r) := by
  refine (takesFront_moreItems _).bind (fun more => ?_)
  split
  · exact hr
  · exact takesFront_fail _

theorem takesFront_struct {wanted : Wanted} {ofMembers ofItems : Reader α}
    (hm : TakesFront ofMembers) (hi : TakesFront ofItems) :
    TakesFront (struct wanted ofMembers ofItems) := by
  refine takesFront_peekValue.bind (fun b => ?_)
  split
  · exact takesFront_skipByte.bind (fun _ => hi.bind (fun a => takesFront_endList.map _))
  · split
    · exact takesFront_skipByte.bind (fun _ => hm)
    · exact takesFront_mismatch _

end Rules

end CompressionSweep.Json
