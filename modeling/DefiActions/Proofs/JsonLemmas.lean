import DefiActions.Json.Reader
import DefiActions.Proofs.ExceptLemmas
import DefiActions.Proofs.HexLemmas
import DefiActions.Proofs.NumeralLemmas
import Mathlib.Data.List.TakeWhile

/-!
# Values of documents

What is true of the values that hold no others, and passes from the values inside
a list or a record to the list or record, is true of whatever a document holds.
Two things are: there are no octets in it, and it has a text.
-/

namespace DefiActions

variable {P : Value → Prop}

/-! ## Members -/

theorem Members.forall_put {ms : Members} {name : String} {v : Value} (h : ∀ m ∈ ms, P m.2) (hv : P v) :
    ∀ m ∈ ms.put name v, P m.2 := by
  induction ms with
  | nil =>
    intro m hm
    rw [Members.put, List.mem_singleton] at hm
    rw [hm]
    exact hv
  | cons p ms ih =>
    obtain ⟨k, w⟩ := p
    rw [List.forall_mem_cons] at h
    rw [Members.put]
    split
    · exact List.forall_mem_cons.mpr ⟨hv, h.2⟩
    · exact List.forall_mem_cons.mpr ⟨h.1, ih h.2⟩

theorem Members.forall_ofPairs {pairs : List (String × Value)} (h : ∀ p ∈ pairs, P p.2) :
    ∀ m ∈ Members.ofPairs pairs, P m.2 := by
  have hfold : ∀ ms : Members, (∀ m ∈ ms, P m.2) →
      ∀ m ∈ pairs.foldl (fun ms p => Members.put ms p.1 p.2) ms, P m.2 := by
    induction pairs with
    | nil => exact fun ms hms => hms
    | cons p pairs ih =>
      rw [List.forall_mem_cons] at h
      exact fun ms hms => ih h.2 _ (forall_put hms h.1)
  exact hfold [] (by simp)

theorem Value.member_record {ms : Members} (h : ∀ m ∈ ms, P m.2) (hnull : P .null) (name : String) :
    P ((Value.record ms).member name) := by
  simp only [Value.member, Members.get?]
  cases hl : ms.lookup name with
  | none => exact hnull
  | some w =>
    obtain ⟨before, after, rfl, -⟩ := List.lookup_eq_some_iff.mp hl
    exact h (name, w) (List.mem_append_right _ List.mem_cons_self)

/-! ## Reading -/

namespace Json

/-- A value has the property when the values inside it have it; of the integers, those that keep the limit. -/
structure Inherited (P : Value → Prop) : Prop where
  null : P .null
  bool : ∀ b, P (.bool b)
  int : ∀ n, Text.isWritable n = true → P (.int n)
  float : ∀ x, P (.float x)
  text : ∀ s, P (.text s)
  list : ∀ items, (∀ v ∈ items, P v) → P (.list items)
  record : ∀ ms : Members, (∀ m ∈ ms, P m.2) → P (.record ms)

theorem isAsciiDigit_of_wholePart {cs : List Char} : ∀ c ∈ (wholePart cs).1, Decimal.isAsciiDigit c = true := by
  intro c hc
  unfold wholePart at hc
  split at hc
  · rw [List.mem_singleton.mp hc]
    rfl
  · exact List.mem_takeWhile_imp hc

theorem digitsValue_lt {cs : List Char} (h : ∀ c ∈ cs, Decimal.isAsciiDigit c = true) :
    Decimal.digitsValue cs < tenPow cs.length := by
  have hdigits : ∀ d ∈ cs.map (·.toNat - 48), d < 10 := by
    intro d hd
    obtain ⟨c, hc, rfl⟩ := List.mem_map.mp hd
    have hle := h c hc
    simp only [Decimal.isAsciiDigit, Bool.and_eq_true, decide_eq_true_eq, char_le_iff, Char.reduceToNat] at hle
    omega
  have hlt := Text.ofDigits_lt hdigits
  rwa [List.length_map] at hlt

namespace Inherited

variable (hP : Inherited P)

include hP

theorem number {negative : Bool} {cs rest : List Char} {v : Value} (h : number negative cs = .ok (v, rest)) :
    P v := by
  unfold Json.number at h
  dsimp only at h
  split at h
  · cases h
  split at h
  · split at h
    · cases h
    · rename_i hlimit
      cases h
      refine hP.int _ (decide_eq_true (Nat.lt_of_lt_of_le ?_ (Text.tenPow_le_tenPow (Nat.not_lt.mp hlimit))))
      have hlt := digitsValue_lt (@isAsciiDigit_of_wholePart cs)
      cases negative with
      | true => simpa using hlt
      | false => simpa using hlt
  · cases h
    exact hP.float _

theorem keyword {cs rest : List Char} {v : Value} (h : keyword? cs = some (v, rest)) : P v := by
  simp only [keyword?, Option.or_eq_some_iff, Option.map_eq_some_iff, Prod.mk.injEq] at h
  rcases h with ⟨_, -, rfl, -⟩ | ⟨-, ⟨_, -, rfl, -⟩ | ⟨-, ⟨_, -, rfl, -⟩ | ⟨-, ⟨_, -, rfl, -⟩ |
    ⟨-, ⟨_, -, rfl, -⟩ | ⟨-, ⟨_, -, rfl, -⟩⟩⟩⟩⟩⟩
  · exact hP.null
  · exact hP.bool true
  · exact hP.bool false
  · exact hP.float _
  · exact hP.float _
  · exact hP.float _

theorem scalar {cs rest : List Char} {v : Value} (h : scalar cs = .ok (v, rest)) : P v := by
  unfold Json.scalar at h
  split at h
  · obtain ⟨_, -, h⟩ := map_eq_ok.mp h
    cases h
    exact hP.text _
  split at h
  · cases h
    exact hP.keyword (by assumption)
  split at h
  · exact hP.number h
  · exact hP.number h

/-- The induction is on the nesting that the readers still allow, for all three of them at once. -/
theorem values (fuel : Nat) :
    (∀ cs v rest, value fuel cs = .ok (v, rest) → P v) ∧
    (∀ cs vs rest, items fuel cs = .ok (vs, rest) → ∀ v ∈ vs, P v) ∧
    (∀ cs ps rest, pairs fuel cs = .ok (ps, rest) → ∀ p ∈ ps, P p.2) := by
  induction fuel with
  | zero =>
    refine ⟨fun cs v rest h => ?_, fun cs vs rest h => ?_, fun cs ps rest h => ?_⟩
    · cases h
    · cases h
    · cases h
  | succ fuel ih =>
    obtain ⟨hvalue, hitems, hpairs⟩ := ih
    refine ⟨fun cs v rest h => ?_, fun cs vs rest h => ?_, fun cs ps rest h => ?_⟩
    · unfold value at h
      split at h
      · split at h
        · cases h
          exact hP.list _ (by simp)
        · obtain ⟨⟨vs, rest'⟩, hi, h⟩ := map_eq_ok.mp h
          cases h
          exact hP.list _ (hitems _ _ _ hi)
      · split at h
        · cases h
          exact hP.record _ (by simp)
        · obtain ⟨⟨ps, rest'⟩, hp, h⟩ := map_eq_ok.mp h
          cases h
          exact hP.record _ (Members.forall_ofPairs (hpairs _ _ _ hp))
      · exact hP.scalar h
    · unfold items at h
      obtain ⟨⟨v, rest'⟩, hv, h⟩ := bind_eq_ok.mp h
      dsimp only at h
      split at h
      · cases h
        exact List.forall_mem_singleton.mpr (hvalue _ _ _ hv)
      · obtain ⟨⟨vs', rest''⟩, hi, h⟩ := map_eq_ok.mp h
        cases h
        exact List.forall_mem_cons.mpr ⟨hvalue _ _ _ hv, hitems _ _ _ hi⟩
      · cases h
    · unfold pairs at h
      split at h
      · obtain ⟨⟨name, rest₁⟩, -, h⟩ := bind_eq_ok.mp h
        dsimp only at h
        split at h
        · obtain ⟨⟨v, rest₂⟩, hv, h⟩ := bind_eq_ok.mp h
          dsimp only at h
          split at h
          · cases h
            exact List.forall_mem_singleton.mpr (hvalue _ _ _ hv)
          · obtain ⟨⟨ps', rest₃⟩, hp, h⟩ := map_eq_ok.mp h
            cases h
            exact List.forall_mem_cons.mpr ⟨hvalue _ _ _ hv, hpairs _ _ _ hp⟩
          · cases h
        · cases h
      · cases h

theorem of_document {cs : List Char} {v : Value} (h : document cs = .ok v) : P v := by
  unfold document at h
  cases hr : read cs with
  | error fault =>
    rw [hr] at h
    cases h
  | ok w =>
    rw [hr] at h
    cases h
    obtain ⟨⟨w, rest⟩, hv, h⟩ := bind_eq_ok.mp hr
    dsimp only at h
    split at h
    · cases h
      exact (hP.values _).1 _ _ _ hv
    · cases h

end Inherited

end Json

/-! ## Plain values -/

inductive Value.Plain : Value → Prop
  | null : Plain .null
  | bool (b : Bool) : Plain (.bool b)
  | int (n : Int) : Plain (.int n)
  | float (x : Binary64) : Plain (.float x)
  | text (s : String) : Plain (.text s)
  | list {items : List Value} (h : ∀ v ∈ items, Plain v) : Plain (.list items)
  | record {ms : Members} (h : ∀ m ∈ ms, Plain m.2) : Plain (.record ms)

theorem Value.Plain.member {v : Value} (h : v.Plain) (name : String) : (v.member name).Plain := by
  cases h with
  | record h => exact Value.member_record h .null name
  | _ => exact .null

theorem Json.inherited_plain : Inherited Value.Plain where
  null := .null
  bool := .bool
  int n _ := .int n
  float := .float
  text := .text
  list _ := .list
  record _ := .record

theorem Json.plain_of_document {cs : List Char} {v : Value} (h : document cs = .ok v) : v.Plain :=
  inherited_plain.of_document h

/-! ## Values with a text -/

def Value.HasText (v : Value) : Prop := v.quoted?.isSome = true

theorem isSome_bind_some {α β : Type} {o : Option α} {f : α → β} :
    (o.bind fun a => some (f a)).isSome = o.isSome := by
  cases o <;> rfl

theorem Value.isSome_quotedItems? {items : List Value} :
    (Value.quotedItems? items).isSome = true ↔ ∀ v ∈ items, v.HasText := by
  induction items with
  | nil => simp [Value.quotedItems?]
  | cons v items ih =>
    rw [List.forall_mem_cons, ← ih]
    cases hv : v.quoted? with
    | none => cases items <;> simp [Value.quotedItems?, Value.HasText, hv]
    | some _ => cases items <;> simp [Value.quotedItems?, Value.HasText, hv, isSome_bind_some]

theorem Value.isSome_quotedMembers? {ms : Members} :
    (Value.quotedMembers? ms).isSome = true ↔ ∀ m ∈ ms, m.2.HasText := by
  induction ms with
  | nil => simp [Value.quotedMembers?]
  | cons m ms ih =>
    rw [List.forall_mem_cons, ← ih]
    cases hv : m.2.quoted? with
    | none => cases ms <;> simp [Value.quotedMembers?, Value.HasText, hv]
    | some _ => cases ms <;> simp [Value.quotedMembers?, Value.HasText, hv, isSome_bind_some]

theorem Value.hasText_list {items : List Value} : (Value.list items).HasText ↔ ∀ v ∈ items, v.HasText := by
  rw [← isSome_quotedItems?, HasText, quoted?, Option.isSome_map]

theorem Value.hasText_record {ms : Members} : (Value.record ms).HasText ↔ ∀ m ∈ ms, m.2.HasText := by
  rw [← isSome_quotedMembers?, HasText, quoted?, Option.isSome_map]

theorem Value.HasText.member {v : Value} (h : v.HasText) (name : String) : (v.member name).HasText := by
  cases v with
  | record ms => exact Value.member_record (Value.hasText_record.mp h) rfl name
  | _ => rfl

theorem Value.HasText.exists_display {v : Value} (h : v.HasText) : ∃ s, v.display? = some s := by
  cases v with
  | text s => exact ⟨s, rfl⟩
  | _ =>
    obtain ⟨cs, hcs⟩ := Option.isSome_iff_exists.mp h
    exact ⟨String.ofList cs, by simp only [Value.display?, hcs, Option.map_some]⟩

theorem Json.inherited_hasText : Inherited Value.HasText where
  null := rfl
  bool _ := rfl
  int n h := by
    rw [Value.HasText, Value.quoted?, if_pos h]
    rfl
  float _ := rfl
  text _ := rfl
  list _ := Value.hasText_list.mpr
  record _ := Value.hasText_record.mpr

theorem Json.hasText_of_document {cs : List Char} {v : Value} (h : document cs = .ok v) : v.HasText :=
  inherited_hasText.of_document h

/-! ## Octets of documents -/

theorem Json.documentOfBytes_eq_ok {bs : Bytes} {v : Value} :
    documentOfBytes bs = .ok v ↔ ∃ cs, Utf8.decode? bs = some cs ∧ read cs = .ok v := by
  unfold documentOfBytes
  cases Utf8.decode? bs with
  | none => exact ⟨nofun, nofun⟩
  | some cs => simp only [document, mapError_eq_ok, Option.some.injEq, exists_eq_left']

theorem Json.documentOfBytes_eq_error {bs : Bytes} {f : Failure} : documentOfBytes bs = .error f ↔
    (Utf8.decode? bs = none ∧ f = .notUtf8) ∨
      ∃ cs fault, Utf8.decode? bs = some cs ∧ read cs = .error fault ∧ fault.toFailure = f := by
  unfold documentOfBytes
  cases Utf8.decode? bs with
  | none =>
    constructor
    · intro h
      cases h
      exact .inl ⟨rfl, rfl⟩
    · rintro (⟨-, rfl⟩ | ⟨_, _, hcs, -⟩)
      · rfl
      · cases hcs
  | some cs => simp only [document, mapError_eq_error, reduceCtorEq, false_and, false_or, Option.some.injEq,
      exists_and_left, exists_eq_left']

/-! ## Long integers -/

theorem Json.read_ones {n : Nat} (h : Text.numeralLimit < n) :
    read (List.replicate n '1') = .error (.integerTooLong n) := by
  obtain ⟨m, rfl⟩ : ∃ m, n = m + 1 := ⟨n - 1, by omega⟩
  have hones : ∀ c ∈ List.replicate (m + 1) '1', Decimal.isAsciiDigit c = true := by
    intro c hc
    rw [List.eq_of_mem_replicate hc]
    decide
  have hwhole : wholePart (List.replicate (m + 1) '1') = (List.replicate (m + 1) '1', []) :=
    Prod.ext (List.takeWhile_eq_self_iff.mpr hones) (List.dropWhile_eq_nil_iff.mpr hones)
  have hnumber : number false (List.replicate (m + 1) '1') = .error (.integerTooLong (m + 1)) := by
    simp only [number, hwhole]
    rw [if_neg (by simp), if_pos ⟨rfl, rfl⟩, List.length_replicate, if_pos h]
  have hkeyword : keyword? (List.replicate (m + 1) '1') = none := by
    rw [List.replicate_succ]
    rfl
  have hscalar : scalar (List.replicate (m + 1) '1') = .error (.integerTooLong (m + 1)) := by
    rw [List.replicate_succ] at hkeyword hnumber ⊢
    simp only [scalar, hkeyword]
    exact hnumber
  have hblank : skipBlanks (List.replicate (m + 1) '1') = List.replicate (m + 1) '1' := by
    rw [skipBlanks, List.replicate_succ, List.dropWhile_cons_of_neg (by decide)]
  have hvalue (fuel : Nat) : value (fuel + 1) (List.replicate (m + 1) '1') = .error (.integerTooLong (m + 1)) := by
    rw [← hscalar, List.replicate_succ, value]
    · simp
    · simp
  rw [read, hblank, hvalue]
  rfl

end DefiActions
