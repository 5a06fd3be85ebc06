import CompressionSweep.Document.Decoder
import CompressionSweep.Proofs.Decimal.Finite

/-! What holds of every value that a reader can give. A double is always finite. -/

namespace CompressionSweep.Json

variable {α β σ : Type}

/-- Every value that the reader gives has the property. -/
def Yields (P : α → Prop) (r : Reader α) : Prop :=
  ∀ s a t, r s = .ok (a, t) → P a

theorem bind_eq_ok {r : Reader α} {f : α → Reader β} {s t : Bytes} {b : β}
    (h : (r >>= f) s = .ok (b, t)) : ∃ a u, r s = .ok (a, u) ∧ f a u = .ok (b, t) := by
  change (r s >>= fun p => f p.1 p.2) = _ at h
  cases hr : r s with
  | error p => rw [hr] at h; cases h
  | ok p => exact ⟨p.1, p.2, rfl, by rw [hr] at h; exact h⟩

section Rules

variable {P : α → Prop} {Q : β → Prop} {I : σ → Prop} {r : Reader α}

theorem yields_pure {a : α} (h : P a) : Yields P (pure a) := by
  rintro s b t ⟨⟩
  exact h

theorem yields_fail (p : Problem) : Yields P (fail p) := by
  rintro s b t ⟨⟩

theorem yields_any (r : Reader α) : Yields (fun _ => True) r := fun _ _ _ _ => trivial

theorem Yields.bind {f : α → Reader β} (hr : Yields P r) (hf : ∀ a, P a → Yields Q (f a)) :
    Yields Q (r >>= f) := by
  intro s b t h
  obtain ⟨a, u, ha, hb⟩ := bind_eq_ok h
  exact hf a (hr s a u ha) u b t hb

theorem Yields.after {f : α → Reader β} (hf : ∀ a, Yields Q (f a)) : Yields Q (r >>= f) :=
  (yields_any r).bind (fun a _ => hf a)

theorem yields_mismatch (wanted : Wanted) : Yields P (mismatch wanted) := by
  intro s a t h
  unfold mismatch at h
  dsimp only at h
  split at h
  · cases h
  · repeat' split at h
    all_goals cases h

theorem yields_itemsLoop (hr : Yields P r) (fuel : Nat) (first : Bool) :
    Yields (fun as => ∀ a ∈ as, P a) (itemsLoop r fuel first) := by
  induction fuel generalizing first with
  | zero => exact yields_fail _
  | succ fuel ih =>
    refine Yields.after (fun more => ?_)
    split
    · refine hr.bind (fun a ha => (ih false).bind (fun as has => ?_))
      exact yields_pure (List.forall_mem_cons.mpr ⟨ha, has⟩)
    · exact yields_pure (fun _ h => absurd h List.not_mem_nil)

theorem yields_list (hr : Yields P r) : Yields (fun as => ∀ a ∈ as, P a) (list r) := by
  refine Yields.after (fun b => ?_)
  split
  · have hitems : Yields (fun as => ∀ a ∈ as, P a) (items r) :=
      fun s => yields_itemsLoop hr _ true s
    refine Yields.after (fun _ => hitems.bind (fun as has => ?_))
    exact Yields.after (fun _ => yields_pure has)
  · exact yields_mismatch _

theorem yields_membersLoop {member : String → σ → Reader σ}
    (h : ∀ key st, I st → Yields I (member key st)) (fuel : Nat) (first : Bool) {st : σ}
    (hst : I st) : Yields I (membersLoop member fuel first st) := by
  induction fuel generalizing first st with
  | zero => exact yields_fail _
  | succ fuel ih =>
    refine Yields.after (fun key => ?_)
    cases key with
    | none => exact yields_pure hst
    | some key => exact (h key st hst).bind (fun st' hst' => ih false hst')

theorem yields_members {member : String → σ → Reader σ}
    (h : ∀ key st, I st → Yields I (member key st)) {st : σ} (hst : I st) :
    Yields I (members member st) := by
  have hloop : Yields I (fun s => membersLoop member (s.length + 1) true st s) :=
    fun s => yields_membersLoop h _ true hst s
  exact hloop.bind (fun st' hst' => Yields.after (fun _ => yields_pure hst'))

theorem yields_onceOnly (name : String) (seen : Option α) (hr : Yields P r) :
    Yields P (onceOnly name seen r) := by
  unfold onceOnly
  split
  · exact Yields.after (fun _ => Yields.after (fun _ => hr))
  · exact Yields.after (fun _ => hr)

theorem yields_required {name : String} {seen : Option α} (h : ∀ a, seen = some a → P a) :
    Yields P (required name seen) := by
  cases seen with
  | none => exact yields_fail _
  | some a => exact yields_pure (h a rfl)

theorem yields_itemAt (wanted : Wanted) (index : Nat) (hr : Yields P r) :
    Yields P (itemAt wanted index r) := by
  refine Yields.after (fun more => ?_)
  split
  · exact hr
  · exact yields_fail _

theorem yields_itemOr (index : Nat) {default : α} (hd : P default) (hr : Yields P r) :
    Yields P (itemOr index default r) := by
  refine Yields.after (fun more => ?_)
  split
  · exact hr
  · exact yields_pure hd

theorem yields_struct {wanted : Wanted} {ofMembers ofItems : Reader α} (hm : Yields P ofMembers)
    (hi : Yields P ofItems) : Yields P (struct wanted ofMembers ofItems) := by
  refine Yields.after (fun b => ?_)
  split
  · exact Yields.after (fun _ => hi.bind (fun a ha => Yields.after (fun _ => yields_pure ha)))
  · split
    · exact Yields.after (fun _ => hm)
    · exact yields_mismatch _

end Rules

/-! Doubles. -/

def Number.Finite : Number → Prop
  | .integer n => n.natAbs < 2 ^ 65
  | .float x => x.isFinite = true

theorem isFinite_signed {x : Float} (negative : Bool) (h : x.isFinite = true) :
    (signed negative x).isFinite = true := by
  cases negative with
  | false => exact h
  | true => exact Decimal.isFinite_neg h

theorem finite_floatNumber {negative : Bool} {d : Decimal} {n : Number}
    (h : floatNumber negative d = .ok n) : n.Finite := by
  unfold floatNumber at h
  dsimp only at h
  split at h
  · cases h
  · rename_i hinf
    obtain rfl := Except.ok.inj h
    exact isFinite_signed negative (Decimal.isFinite_toFloat (Bool.eq_false_iff.mpr hinf))

theorem finite_wholeNumber {negative : Bool} {m : Nat} {n : Number}
    (h : wholeNumber negative m = .ok n) : n.Finite := by
  unfold wholeNumber at h
  split at h
  · split at h
    · rename_i hm
      obtain rfl := Except.ok.inj h
      have hle : m ≤ 2 ^ 63 := hm.2
      change (-(m : Int)).natAbs < 2 ^ 65
      omega
    · exact finite_floatNumber h
  · split at h
    · rename_i hm
      obtain rfl := Except.ok.inj h
      have hlt : m < 2 ^ 64 := hm
      change (m : Int).natAbs < 2 ^ 65
      omega
    · exact finite_floatNumber h

theorem finite_of_pair {x : Except Problem Number} {rest : Bytes} {p : Number × Bytes}
    (hx : ∀ n, x = .ok n → n.Finite) (h : (do return (← x, rest)) = Except.ok p) :
    p.1.Finite := by
  cases x with
  | error e => cases h
  | ok n =>
    obtain rfl := Except.ok.inj h
    exact hx n rfl

theorem finite_scaledNumber {negative pointed : Bool} {whole fraction s : Bytes}
    {p : Number × Bytes} (h : scaledNumber negative whole fraction pointed s = .ok p) :
    p.1.Finite := by
  unfold scaledNumber at h
  dsimp only at h
  split at h
  · rename_i b r
    split at h
    · cases he : exponentPart r with
      | error e => rw [he] at h; cases h
      | ok e =>
        rw [he] at h
        exact finite_of_pair (fun _ => finite_floatNumber) h
    · split at h
      · exact finite_of_pair (fun _ => finite_floatNumber) h
      · exact finite_of_pair (fun _ => finite_wholeNumber) h
  · split at h
    · exact finite_of_pair (fun _ => finite_floatNumber) h
    · exact finite_of_pair (fun _ => finite_wholeNumber) h

theorem yields_unsignedNumber (negative : Bool) :
    Yields Number.Finite (unsignedNumber negative) := by
  intro s n t h
  unfold unsignedNumber at h
  dsimp only at h
  split at h
  · cases h
  · split at h
    · cases h
    · split at h
      · split at h
        · cases h
        · exact finite_scaledNumber h
      · exact finite_scaledNumber h

theorem yields_number (wanted : Wanted) : Yields Number.Finite (number wanted) := by
  refine Yields.after (fun b => ?_)
  split
  · exact Yields.after (fun _ => yields_unsignedNumber true)
  · split
    · exact yields_unsignedNumber false
    · exact yields_mismatch _

theorem yields_f64 : Yields (fun x => x.isFinite = true) f64 := by
  refine (yields_number .f64).bind (fun n hn => ?_)
  cases n with
  | float x => exact yields_pure hn
  | integer n => exact yields_pure (isFinite_signed _ (Decimal.isFinite_toFloat_whole hn))

end CompressionSweep.Json
