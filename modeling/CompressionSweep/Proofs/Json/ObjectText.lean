import CompressionSweep.Proofs.Json.Front
import CompressionSweep.Proofs.Json.Takes

/-! The text of an object whose members are all of one kind. Reading such an object goes through its
members from the first to the last. -/

namespace CompressionSweep.Json

variable {α σ : Type}

/-- The text of one member, from its key to behind what `value` reads. -/
inductive MemberText (value : Reader α) : Bytes → String × α → Bytes → Prop where
  | mk {blank key blank' s rest : Bytes} {name : String} {a : α}
    (hblank : IsBlank blank) (hkey : stringRest key = .ok (name, blank' ++ 0x3A :: s))
    (hblank' : IsBlank blank') (hvalue : value s = .ok (a, rest)) :
    MemberText value (blank ++ 0x22 :: key) (name, a) rest

/-- The text behind a member: the closing bracket, or a comma and further members. -/
inductive FurtherText (value : Reader α) : Bytes → List (String × α) → Bytes → Prop where
  | close {blank rest : Bytes} (hblank : IsBlank blank) :
    FurtherText value (blank ++ 0x7D :: rest) [] rest
  | comma {blank s t rest : Bytes} {m : String × α} {ms : List (String × α)}
    (hblank : IsBlank blank) (head : MemberText value s m t) (tail : FurtherText value t ms rest) :
    FurtherText value (blank ++ 0x2C :: s) (m :: ms) rest

/-- The text of the members of an object, behind its opening bracket. -/
inductive MembersText (value : Reader α) : Bytes → List (String × α) → Bytes → Prop where
  | empty {blank rest : Bytes} (hblank : IsBlank blank) :
    MembersText value (blank ++ 0x7D :: rest) [] rest
  | cons {s t rest : Bytes} {m : String × α} {ms : List (String × α)}
    (head : MemberText value s m t) (tail : FurtherText value t ms rest) :
    MembersText value s (m :: ms) rest

/-- A text that begins with an object whose values are read by `value`: its members in their order,
and what stands behind it. -/
inductive ObjectText (value : Reader α) : Bytes → List (String × α) → Bytes → Prop where
  | mk {blank s rest : Bytes} {ms : List (String × α)} (hblank : IsBlank blank)
    (members : MembersText value s ms rest) : ObjectText value (blank ++ 0x7B :: s) ms rest

/-- Reads the value of a member and hands the member on. -/
def memberOf (value : Reader α) (f : String × α → σ → σ) (key : String) (st : σ) : Reader σ := do
  colon
  let a ← value
  return f (key, a) st

theorem peek_eq_some {s t : Bytes} {b : UInt8} (h : peek s = .ok (some b, t)) :
    ∃ blank r, IsBlank blank ∧ s = blank ++ b :: r ∧ t = b :: r := by
  obtain ⟨hhead, rfl⟩ := Prod.mk.inj (Except.ok.inj h)
  obtain ⟨r, hr⟩ := List.head?_eq_some_iff.mp hhead
  refine ⟨s.takeWhile isBlankByte, r, fun c hc => List.mem_takeWhile_imp hc, ?_, hr⟩
  rw [← hr, dropBlank, List.takeWhile_append_dropWhile]

theorem colon_eq_ok {s t : Bytes} (h : colon s = .ok ((), t)) :
    ∃ blank, IsBlank blank ∧ s = blank ++ 0x3A :: t := by
  obtain ⟨o, u, ho, h⟩ := bind_eq_ok h
  cases o with
  | none => cases h
  | some b =>
    obtain ⟨blank, r, hblank, rfl, rfl⟩ := peek_eq_some ho
    dsimp only at h
    split at h
    · rename_i hb
      obtain rfl := eq_of_beq hb
      obtain ⟨-, rfl⟩ := Prod.mk.inj (Except.ok.inj h)
      exact ⟨blank, hblank, rfl⟩
    · cases h

theorem memberText_of_memberOf {value : Reader α} {f : String × α → σ → σ} {name : String}
    {blank key s rest : Bytes} {st st' : σ} (hblank : IsBlank blank)
    (hkey : stringRest key = .ok (name, s)) (h : memberOf value f name st s = .ok (st', rest)) :
    ∃ a, MemberText value (blank ++ 0x22 :: key) (name, a) rest ∧ st' = f (name, a) st := by
  obtain ⟨⟨⟩, u, hcolon, h⟩ := bind_eq_ok h
  obtain ⟨a, v, ha, h⟩ := bind_eq_ok h
  obtain ⟨rfl, rfl⟩ := Prod.mk.inj (Except.ok.inj h)
  obtain ⟨blank', hblank', rfl⟩ := colon_eq_ok hcolon
  exact ⟨a, .mk hblank hkey hblank' ha, rfl⟩

/-- What `nextKey` finds: the closing bracket, or a key, and a comma before it unless it is the
first. -/
theorem nextKey_eq_ok {first : Bool} {s t : Bytes} {o : Option String}
    (h : nextKey first s = .ok (o, t)) :
    (∃ blank rest, o = none ∧ IsBlank blank ∧ s = blank ++ 0x7D :: rest ∧ t = 0x7D :: rest) ∨
    ∃ name blank key, o = some name ∧ IsBlank blank ∧ stringRest key = .ok (name, t) ∧
      (first = true ∧ s = blank ++ 0x22 :: key ∨
        ∃ blank', first = false ∧ IsBlank blank' ∧
          s = blank' ++ 0x2C :: (blank ++ 0x22 :: key)) := by
  have hread : ∀ {key : Bytes}, (do skipByte; return some (← stringRest) : Reader (Option String))
      (0x22 :: key) = .ok (o, t) → ∃ name, o = some name ∧ stringRest key = .ok (name, t) := by
    intro key hk
    obtain ⟨⟨⟩, v, hskip, hk⟩ := bind_eq_ok hk
    obtain ⟨-, rfl⟩ := Prod.mk.inj (Except.ok.inj hskip)
    obtain ⟨name, u, hname, hk⟩ := bind_eq_ok hk
    obtain ⟨rfl, rfl⟩ := Prod.mk.inj (Except.ok.inj hk)
    exact ⟨name, rfl, hname⟩
  obtain ⟨c, u, hc, h⟩ := bind_eq_ok h
  cases c with
  | none => cases h
  | some b =>
    obtain ⟨blank, r, hblank, rfl, rfl⟩ := peek_eq_some hc
    dsimp only at h
    split_ifs at h with hclose hfirst hquote hcomma
    · obtain rfl := eq_of_beq hclose
      obtain ⟨rfl, rfl⟩ := Prod.mk.inj (Except.ok.inj h)
      exact .inl ⟨blank, r, rfl, hblank, rfl, rfl⟩
    · obtain rfl := eq_of_beq hquote
      obtain ⟨name, hname, hkey⟩ := hread h
      exact .inr ⟨name, blank, r, hname, hblank, hkey, .inl ⟨hfirst, rfl⟩⟩
    · cases h
    · obtain rfl := eq_of_beq hcomma
      obtain ⟨⟨⟩, v, hskip, h⟩ := bind_eq_ok h
      obtain ⟨-, rfl⟩ := Prod.mk.inj (Except.ok.inj hskip)
      obtain ⟨d, v, hd, h⟩ := bind_eq_ok h
      cases d with
      | none => cases h
      | some d =>
        obtain ⟨blank', r', hblank', rfl, rfl⟩ := peek_eq_some hd
        dsimp only at h
        split_ifs at h with hquote
        · obtain rfl := eq_of_beq hquote
          obtain ⟨name, hname, hkey⟩ := hread h
          refine .inr ⟨name, blank', r', hname, hblank', hkey, .inr ⟨blank, ?_, hblank, rfl⟩⟩
          exact Bool.eq_false_iff.mpr hfirst
        · cases h
        · cases h
    · cases h

section Members

variable {value : Reader α} {f : String × α → σ → σ}

/-- What is read behind a member stands there as text. -/
theorem furtherText_of_membersLoop {fuel : Nat} {s t : Bytes} {st st' : σ}
    (h : membersLoop (memberOf value f) fuel false st s = .ok (st', t)) :
    ∃ ms rest, t = 0x7D :: rest ∧ FurtherText value s ms rest ∧
      st' = ms.foldl (fun st m => f m st) st := by
  induction fuel generalizing s st with
  | zero => cases h
  | succ fuel ih =>
    obtain ⟨o, u, ho, hstep⟩ := bind_eq_ok h
    rcases nextKey_eq_ok ho with ⟨blank, rest, rfl, hblank, rfl, rfl⟩ |
      ⟨name, blank, key, rfl, hblank, hkey, ⟨hfirst, -⟩ | ⟨blank', -, hblank', rfl⟩⟩
    · obtain ⟨rfl, rfl⟩ := Prod.mk.inj (Except.ok.inj hstep)
      exact ⟨[], rest, rfl, .close hblank, rfl⟩
    · cases hfirst
    · obtain ⟨st₁, v, hmember, hrest⟩ := bind_eq_ok hstep
      obtain ⟨a, hhead, rfl⟩ := memberText_of_memberOf hblank hkey hmember
      obtain ⟨ms, rest, rfl, htail, rfl⟩ := ih hrest
      exact ⟨(name, a) :: ms, rest, rfl, .comma hblank' hhead htail, rfl⟩

theorem membersText_of_members {s rest : Bytes} {st st' : σ}
    (h : members (memberOf value f) st s = .ok (st', rest)) :
    ∃ ms, MembersText value s ms rest ∧ st' = ms.foldl (fun st m => f m st) st := by
  obtain ⟨st₁, t, hloop, h⟩ := bind_eq_ok h
  obtain ⟨⟨⟩, v, hskip, h⟩ := bind_eq_ok h
  obtain ⟨rfl, rfl⟩ := Prod.mk.inj (Except.ok.inj h)
  obtain ⟨-, rfl⟩ := Prod.mk.inj (Except.ok.inj hskip)
  obtain ⟨o, u, ho, hloop⟩ := bind_eq_ok hloop
  rcases nextKey_eq_ok ho with ⟨blank, rest, rfl, hblank, rfl, rfl⟩ |
    ⟨name, blank, key, rfl, hblank, hkey, ⟨-, rfl⟩ | ⟨-, hfirst, -⟩⟩
  · obtain ⟨rfl, rfl⟩ := Prod.mk.inj (Except.ok.inj hloop)
    exact ⟨[], .empty hblank, rfl⟩
  · obtain ⟨st₂, v, hmember, hloop⟩ := bind_eq_ok hloop
    obtain ⟨a, hhead, rfl⟩ := memberText_of_memberOf hblank hkey hmember
    obtain ⟨ms, rest, rfl, htail, rfl⟩ := furtherText_of_membersLoop hloop
    exact ⟨(name, a) :: ms, .cons hhead htail, rfl⟩
  · cases hfirst

theorem memberOf_of_memberText (f : String × α → σ → σ) {s t : Bytes} {m : String × α}
    (h : MemberText value s m t) :
    ∃ blank key u, s = blank ++ 0x22 :: key ∧ IsBlank blank ∧ stringRest key = .ok (m.1, u) ∧
      ∀ st, memberOf value f m.1 st u = .ok (f m st, t) := by
  cases h with
  | @mk blank key blank' u _ name a hblank hkey hblank' hvalue =>
    refine ⟨blank, key, _, rfl, hblank, hkey, fun st => ?_⟩
    have hcolon : colon (blank' ++ 0x3A :: u) = .ok ((), u) :=
      bind_of_ok (peek_of_blank hblank' rfl u)
    exact (bind_of_ok hcolon).trans (bind_of_ok hvalue)

theorem membersLoop_of_furtherText {s rest : Bytes} {ms : List (String × α)}
    (h : FurtherText value s ms rest) {fuel : Nat} (hfuel : ms.length < fuel) (st : σ) :
    membersLoop (memberOf value f) fuel false st s =
      .ok (ms.foldl (fun st m => f m st) st, 0x7D :: rest) := by
  induction h generalizing fuel st with
  | close hblank =>
    obtain ⟨fuel, rfl⟩ := Nat.exists_eq_add_one.mpr (Nat.zero_lt_of_lt hfuel)
    exact bind_of_ok (nextKey_close false hblank _)
  | @comma blank s t rest m ms hblank head tail ih =>
    obtain ⟨fuel, rfl⟩ := Nat.exists_eq_add_one.mpr (Nat.zero_lt_of_lt hfuel)
    obtain ⟨blank', key, u, rfl, hblank', hkey, hmember⟩ := memberOf_of_memberText f head
    have hnext : nextKey false (blank ++ 0x2C :: (blank' ++ 0x22 :: key)) = .ok (some m.1, u) := by
      refine (bind_of_ok (peek_of_blank hblank rfl _)).trans ?_
      refine (bind_of_ok (skipByte_cons _ _)).trans ?_
      refine (bind_of_ok (peek_of_blank hblank' rfl _)).trans ?_
      refine (bind_of_ok (skipByte_cons _ _)).trans ?_
      exact bind_of_ok hkey
    refine (bind_of_ok hnext).trans ((bind_of_ok (hmember st)).trans ?_)
    exact ih (Nat.lt_of_succ_lt_succ hfuel) _

theorem MemberText.length_lt (hv : TakesFront value) {s t : Bytes} {m : String × α}
    (h : MemberText value s m t) : t.length < s.length := by
  cases h with
  | @mk blank key blank' u _ name a hblank hkey hblank' hvalue =>
    have hrest := (hv _ _ _ hvalue).length_le
    have hstring := (takesFront_stringRest _ _ _ hkey).length_le
    simp only [List.length_append, List.length_cons] at hstring ⊢
    omega

theorem FurtherText.length_lt (hv : TakesFront value) {s rest : Bytes} {ms : List (String × α)}
    (h : FurtherText value s ms rest) : ms.length < s.length := by
  induction h with
  | close hblank => simp
  | comma hblank head tail ih =>
    have hhead := head.length_lt hv
    simp only [List.length_append, List.length_cons]
    omega

theorem members_of_membersText (hv : TakesFront value) {s rest : Bytes} {ms : List (String × α)}
    (h : MembersText value s ms rest) (st : σ) :
    members (memberOf value f) st s = .ok (ms.foldl (fun st m => f m st) st, rest) := by
  refine (bind_of_ok ?_).trans (bind_of_ok (skipByte_cons 0x7D rest))
  cases h with
  | empty hblank => exact bind_of_ok (nextKey_close true hblank rest)
  | @cons _ t _ m ms head tail =>
    have hhead := head.length_lt hv
    have htail := tail.length_lt hv
    obtain ⟨blank, key, u, rfl, hblank, hkey, hmember⟩ := memberOf_of_memberText f head
    have hnext : nextKey true (blank ++ 0x22 :: key) = .ok (some m.1, u) := by
      refine (bind_of_ok (peek_of_blank hblank rfl _)).trans ?_
      refine (bind_of_ok (skipByte_cons _ _)).trans ?_
      exact bind_of_ok hkey
    refine (bind_of_ok hnext).trans ((bind_of_ok (hmember st)).trans ?_)
    -- The fuel is the length of the text, and every member takes some of it.
    exact membersLoop_of_furtherText tail (Nat.lt_trans htail hhead) _

def objectOf (wanted : Wanted) (value : Reader α) (f : String × α → σ → σ) (st : σ) : Reader σ := do
  let b ← peekValue
  if b == 0x7B then
    skipByte
    members (memberOf value f) st
  else mismatch wanted

/-- An object is read exactly where the text is one, and its members are handed on in their
order. -/
theorem objectOf_eq_ok_iff (hv : TakesFront value) {wanted : Wanted} {s rest : Bytes} {st st' : σ} :
    objectOf wanted value f st s = .ok (st', rest) ↔
      ∃ ms, ObjectText value s ms rest ∧ st' = ms.foldl (fun st m => f m st) st := by
  constructor
  · intro h
    obtain ⟨b, t, hb, h⟩ := bind_eq_ok h
    obtain ⟨o, u, ho, hb⟩ := bind_eq_ok hb
    cases o with
    | none => cases hb
    | some c =>
      obtain ⟨rfl, rfl⟩ := Prod.mk.inj (Except.ok.inj hb)
      obtain ⟨blank, r, hblank, rfl, rfl⟩ := peek_eq_some ho
      split at h
      · rename_i hopen
        obtain rfl := eq_of_beq hopen
        obtain ⟨⟨⟩, v, hskip, h⟩ := bind_eq_ok h
        obtain ⟨-, rfl⟩ := Prod.mk.inj (Except.ok.inj hskip)
        obtain ⟨ms, hms, rfl⟩ := membersText_of_members h
        exact ⟨ms, .mk hblank hms, rfl⟩
      · exact (yields_mismatch (P := fun _ => False) wanted _ _ _ h).elim
  · rintro ⟨ms, ⟨hblank, hms⟩, rfl⟩
    refine (bind_of_ok (peekValue_of_blank hblank rfl _)).trans ?_
    exact (bind_of_ok (skipByte_cons _ _)).trans (members_of_membersText hv hms st)

theorem objectText_iff (hv : TakesFront value) (wanted : Wanted) {s rest : Bytes}
    {ms : List (String × α)} :
    ObjectText value s ms rest ↔
      objectOf wanted value (fun m ms => ms ++ [m]) [] s = .ok (ms, rest) := by
  have hall : ∀ ms : List (String × α), ms.foldl (fun ms m => ms ++ [m]) [] = ms := fun ms => by
    rw [List.foldl_append_eq_append, List.nil_append, ← List.flatMap_def, List.flatMap_singleton']
  rw [objectOf_eq_ok_iff hv]
  refine ⟨fun h => ⟨ms, h, (hall ms).symm⟩, fun ⟨ms', h, heq⟩ => ?_⟩
  rwa [heq, hall]

end Members

end CompressionSweep.Json
