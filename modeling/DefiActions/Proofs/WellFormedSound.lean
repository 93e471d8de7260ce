import DefiActions.Proofs.AbiStrict
import DefiActions.Proofs.ReportLemmas
import DefiActions.Proofs.SpellingSound

/-!
# Reports that can be encoded

A report is encoded exactly when every field is set that has no default, and
every field that is set holds a value of its own kind that fits. Otherwise the
first field in order decides the failure that is left out without a default or
has no octets for an address. What is encoded of an address is its octets.
-/

namespace DefiActions.Report

open Descriptor (normalField resolveField)

/-! ## Values of their kind -/

def admits : Abi.Kind → Value → Bool
  | .word (.uint bits), .int n => 0 ≤ n ∧ n < twoPow bits
  | .word (.int bits), .int n => -(twoPow (bits - 1) : Int) ≤ n ∧ n < twoPow (bits - 1)
  | .word .bool, .bool _ => true
  | .word .address, .text s => Address.isPlain (Address.normalize s)
  | .word .octets32, .bytes bs => bs.length = 32
  | .bytes, .bytes bs => bs.length < twoPow 256
  | _, _ => false

/-- No field without a default is left out, and every other one holds a value of its kind. -/
structure WellFormed (d : Descriptor) : Prop where
  required : ∀ f ∈ schema d.kind, f.default?.isSome = false → (d.get f.name).isNull = false
  admitted : ∀ f ∈ schema d.kind, (d.get f.name).isNull = false → admits f.kind (d.get f.name) = true

theorem admits_default (kind : Kind) : ∀ f ∈ schema kind, f.default?.all (admits f.kind) = true := by
  have hzero : Address.isPlain (Address.normalize Address.zero) = true := by
    rw [Address.zero_eq_literal]
    exact Address.isPlain_normalize_literal rfl
  have hpos : ∀ bits, 0 < twoPow bits := fun bits => Nat.pow_pos (by decide)
  have hrate : 0 ≤ variableRate ∧ variableRate < (twoPow 256 : Int) := by decide
  cases kind <;>
    simp [schema, zeroAddress, zeroNumber, admits, Abi.Kind.uint, Abi.Kind.address, hzero, hpos, hrate]

theorem admits_iff_writes {k : Abi.Kind} (hp : plain k = true) (ha : k ≠ .address) {v : Value} :
    admits k v = true ↔ ∃ p, k.Writes v p := by
  cases k with
  | word w =>
    rw [Abi.Kind.exists_writes_word]
    cases w with
    | uint bits => rw [Abi.WordKind.exists_writes_uint]; cases v <;> simp [admits]
    | int bits => rw [Abi.WordKind.exists_writes_int]; cases v <;> simp [admits]
    | bool =>
      constructor
      · intro h
        cases v with
        | bool b => exact ⟨_, .bool b⟩
        | _ => cases h
      · rintro ⟨_, h⟩
        cases h
        rfl
    | address => exact absurd rfl ha
    | octets32 =>
      constructor
      · intro h
        cases v with
        | bytes bs => exact ⟨_, .octets32 (of_decide_eq_true h)⟩
        | _ => cases h
      · rintro ⟨_, h⟩
        cases h with
        | octets32 hl => exact decide_eq_true hl
  | bytes => rw [Abi.Kind.exists_writes_bytes]; cases v <;> simp [admits]
  | _ => cases hp

/-- A field that is set is written exactly when it holds a value of its kind. -/
theorem admits_iff_wire {f : Field} (hp : plain f.kind = true) {v : Value} (hn : f.IsNormal v)
    (hs : v.isNull = false) : admits f.kind v = true ↔ ∃ r p, wire f v = .ok r ∧ f.kind.Writes r p := by
  by_cases ha : f.kind = .address
  · obtain ⟨s, rfl, -⟩ := hn.exists_text ha hs
    have htext : admits f.kind (.text s) = Address.isPlain (Address.normalize s) := by rw [ha]; rfl
    rw [htext, Address.isPlain_normalize_iff, ha]
    simp only [wire_address ha, map_eq_ok]
    constructor
    · rintro ⟨bs, hl, hb⟩
      exact ⟨_, _, ⟨bs, hb, rfl⟩, .word (.address hl)⟩
    · rintro ⟨_, p, ⟨bs, hb, rfl⟩, hw⟩
      exact ⟨bs, Abi.WordKind.exists_writes_address.mp (Abi.Kind.exists_writes_word.mp ⟨p, hw⟩), hb⟩
  · rw [admits_iff_writes hp ha]
    simp only [wire_of_ne ha, Except.ok.injEq]
    exact ⟨fun ⟨p, h⟩ => ⟨v, p, rfl, h⟩, fun ⟨_, p, he, h⟩ => ⟨p, he ▸ h⟩⟩

theorem exists_resolved_iff {kind : Kind} {f : Field} (hf : f ∈ schema kind) {v : Value} (hn : f.IsNormal v) :
    (∃ r p, resolveField kind f v = .ok r ∧ f.kind.Writes r p) ↔
      (f.default?.isSome = false → v.isNull = false) ∧ (v.isNull = false → admits f.kind v = true) := by
  have hsound := sound_of_mem_schema kind f hf
  simp only [resolveField_eq_ok]
  by_cases hv : v.isNull = true
  · simp only [hv, Bool.true_eq_false, imp_false, false_imp_iff, and_true, true_imp_iff, Bool.not_eq_false]
    refine ⟨fun ⟨_, _, ⟨hd, _⟩, _⟩ => hd, fun hd => ?_⟩
    obtain ⟨hfill, hset⟩ := isNormal_fill hsound hn fun _ => hd
    obtain ⟨u, hu⟩ := Option.isSome_iff_exists.mp hd
    have hdef := admits_default kind f hf
    have he : f.fill v = u := by rw [Field.fill, if_pos hv, hu, Option.getD_some]
    rw [hu, Option.all_some, ← he] at hdef
    obtain ⟨r, p, hw, hk⟩ := (admits_iff_wire hsound.plain hfill hset).mp hdef
    exact ⟨r, p, ⟨hd, hw⟩, hk⟩
  · have hset : v.isNull = false := by simpa using hv
    have he : f.fill v = v := by rw [Field.fill, if_neg hv]
    simp only [hset, he, Bool.false_eq_true, false_imp_iff, true_and, true_imp_iff, imp_true_iff]
    exact (admits_iff_wire hsound.plain hn hset).symm

theorem exists_encode_iff {d : Descriptor} (hn : List.Forall₂ Field.IsNormal (schema d.kind) d.values) :
    (∃ p, encode d = .ok p) ↔ WellFormed d := by
  have hiff := @Abi.exists_encode_iff _ (hasOneOffset_kinds d.kind) (headSize_kinds_lt d.kind)
  have hparts : (∃ p, encode d = .ok p) ↔
      ∃ vs ps, d.resolve = .ok vs ∧ Abi.encodeParts ((schema d.kind).map (·.kind)) vs = .ok ps := by
    simp only [encode_eq_ok]
    rw [exists_comm]
    exact exists_congr fun vs => by rw [exists_and_left, hiff, exists_and_left, kinds]
  rw [hparts, resolve_eq_mapM hn.length_eq, Abi.exists_encodeParts_mapM]
  constructor
  · intro h
    have hfield := fun f hf => (exists_resolved_iff hf (get_of_forall₂ hn hf)).mp (h f hf)
    exact ⟨fun f hf => (hfield f hf).1, fun f hf => (hfield f hf).2⟩
  · intro h f hf
    exact (exists_resolved_iff hf (get_of_forall₂ hn hf)).mpr ⟨h.required f hf, h.admitted f hf⟩

/-! ## The first refusal -/

inductive Refuses (kind : Kind) (f : Field) : Value → Failure → Prop
  | unset (hd : f.default?.isSome = false) :
    Refuses kind f .null (.missing f.wireName s!"no default for {kind.wireName} field")
  | address {s : String} {e : Failure} (ha : f.kind = .address) (h : Address.toBytes s = .error e) :
    Refuses kind f (.text s) e

theorem resolveField_eq_error {kind : Kind} {f : Field} (hf : f ∈ schema kind) {v : Value} (hn : f.IsNormal v)
    {e : Failure} : resolveField kind f v = .error e ↔ Refuses kind f v e := by
  constructor
  · intro h
    by_cases hv : v.isNull = true
    · cases v with
      | null =>
        cases hd : f.default? with
        | none =>
          rw [resolveField_of_required kind rfl hd] at h
          rw [← Except.error.inj h]
          exact .unset (by rw [hd]; rfl)
        | some u =>
          obtain ⟨r, _, hr, -⟩ := (exists_resolved_iff hf hn).mpr ⟨by rw [hd]; nofun, nofun⟩
          rw [hr] at h
          cases h
      | _ => cases hv
    · have hset : v.isNull = false := by simpa using hv
      rw [resolveField_of_set kind f hset] at h
      by_cases ha : f.kind = .address
      · obtain ⟨s, rfl, -⟩ := hn.exists_text ha hset
        rw [wire_address ha] at h
        cases hb : Address.toBytes s with
        | error e' =>
          rw [hb] at h
          rw [← Except.error.inj h]
          exact .address ha hb
        | ok bs =>
          rw [hb] at h
          cases h
      · rw [wire_of_ne ha] at h
        cases h
  · intro h
    cases h with
    | unset hd => exact resolveField_of_required kind rfl (by simpa using hd)
    | address ha hb => rw [resolveField_address ha, hb]; rfl

theorem encode_of_refuses {d : Descriptor} (hn : List.Forall₂ Field.IsNormal (schema d.kind) d.values)
    {before behind : List Field} {f : Field} {e : Failure} (hs : schema d.kind = before ++ f :: behind)
    (hr : Refuses d.kind f (d.get f.name) e)
    (hb : ∀ g ∈ before, ∀ e', ¬ Refuses d.kind g (d.get g.name) e') : encode d = .error e := by
  have hnormal : ∀ g ∈ schema d.kind, g.IsNormal (d.get g.name) := fun g hg => get_of_forall₂ hn hg
  have hmem : ∀ g ∈ before, g ∈ schema d.kind := fun g hg => by rw [hs]; exact List.mem_append_left _ hg
  have hf : f ∈ schema d.kind := by rw [hs]; simp
  refine bind_eq_error.mpr (.inl ?_)
  rw [resolve_eq_mapM hn.length_eq, mapM_eq_error]
  refine ⟨before, f, behind, hs, fun g hg => ?_, (resolveField_eq_error hf (hnormal f hf)).mpr hr⟩
  cases hg' : resolveField d.kind g (d.get g.name) with
  | ok r => exact ⟨r, rfl⟩
  | error e' => exact absurd ((resolveField_eq_error (hmem g hg) (hnormal g (hmem g hg))).mp hg') (hb g hg e')

/-! ## Octets of addresses -/

/-- One value, or two texts that denote the same octets of an address. -/
inductive Same (f : Field) : Value → Value → Prop
  | refl (v : Value) : Same f v v
  | address {s t : String} {bs : Bytes} (ha : f.kind = .address) (hs : Address.toBytes s = .ok bs)
    (ht : Address.toBytes t = .ok bs) : Same f (.text s) (.text t)

theorem resolveField_congr {kind : Kind} {f : Field} {u v m n : Value} (h : Same f u v)
    (hu : normalField f u = .ok m) (hv : normalField f v = .ok n) :
    resolveField kind f m = resolveField kind f n := by
  cases h with
  | refl => rw [Except.ok.inj (hu.symm.trans hv)]
  | address ha hs ht =>
    rw [normalField_text ha] at hu hv
    obtain rfl := Except.ok.inj hu
    obtain rfl := Except.ok.inj hv
    rw [resolveField_address ha, resolveField_address ha, Address.toBytes_normalize.mpr hs,
      Address.toBytes_normalize.mpr ht]

theorem encode_congr {kind : Kind} {given given' : Members} {d d' : Descriptor}
    (hd : Descriptor.make kind given = .ok d) (hd' : Descriptor.make kind given' = .ok d')
    (h : ∀ f ∈ schema kind, Same f ((given.get? f.name).getD .null) ((given'.get? f.name).getD .null)) :
    encode d' = encode d := by
  obtain ⟨hk, hn⟩ := isNormal_of_make hd
  obtain ⟨hk', hn'⟩ := isNormal_of_make hd'
  have hresolve : d'.resolve = d.resolve := by
    rw [← hk] at hn
    rw [← hk'] at hn'
    rw [resolve_eq_mapM hn.length_eq, resolve_eq_mapM hn'.length_eq, hk, hk']
    exact mapM_congr fun f hf => (resolveField_congr (h f hf) (get_of_make hd hf) (get_of_make hd' hf)).symm
  rw [encode, encode, hresolve, hk, hk']

/-- **Exactly the well-formed reports are encoded.** Of a report that is not, the first field that refuses
decides the failure, and an address counts only by its octets. -/
theorem encodes_iff_wellFormed {kind : Kind} {given : Members} {d : Descriptor}
    (hd : Descriptor.make kind given = .ok d) :
    ((∃ p, encode d = .ok p) ↔ WellFormed d) ∧
      (∀ before f behind e, schema kind = before ++ f :: behind → Refuses kind f (d.get f.name) e →
        (∀ g ∈ before, ∀ e', ¬ Refuses kind g (d.get g.name) e') → encode d = .error e) ∧
      ∀ given' d', Descriptor.make kind given' = .ok d' →
        (∀ f ∈ schema kind, Same f ((given.get? f.name).getD .null) ((given'.get? f.name).getD .null)) →
          encode d' = encode d := by
  obtain ⟨rfl, hn⟩ := isNormal_of_make hd
  exact ⟨exists_encode_iff hn, fun _ _ _ _ hs hr hb => encode_of_refuses hn hs hr hb,
    fun _ _ hd' h => encode_congr hd hd' h⟩

/-! ## A call in two spellings -/

def callMembers (target : Value) (amount : Int) : Members :=
  [("target", target), ("call_data", .bytes [1, 2, 3]), ("amount_in", .int amount), ("recipient", someAddress)]

def callOf (target : Value) (amount : Int) : Descriptor :=
  ⟨.genericCall, [target, .bytes [1, 2, 3], .null, .null, .int amount, someAddress]⟩

theorem isNormal_someAddress {f : Field} (hf : f.kind = .address) : f.IsNormal someAddress := by
  rw [Field.IsNormal, someAddress, normalField_text hf, Address.normalize_literal]

theorem make_call {target n : Value} (h : normalField ⟨"target", .address, "target", none⟩ target = .ok n)
    (amount : Int) : Descriptor.make .genericCall (callMembers target amount) = .ok (callOf n amount) := by
  refine make_eq_ok.mpr ⟨by simp [callMembers, schema], _, ?_, rfl⟩
  exact .cons h (.cons rfl (.cons rfl (.cons rfl (.cons rfl (.cons (isNormal_someAddress rfl) .nil)))))

theorem wellFormed_call {bs : Bytes} (hl : bs.length = 20) {amount : Int} (lo : 0 ≤ amount)
    (hi : amount < twoPow 256) : WellFormed (callOf (.text (Hex.literal bs)) amount) where
  required := by
    simp only [callOf, schema, List.forall_mem_cons, List.not_mem_nil, false_imp_iff, implies_true, and_true]
    exact ⟨fun _ => rfl, fun _ => rfl, Bool.noConfusion, Bool.noConfusion, fun _ => rfl, fun _ => rfl⟩
  admitted := by
    have hdata : ([1, 2, 3] : Bytes).length < twoPow 256 := by decide
    simp only [callOf, schema, List.forall_mem_cons, List.not_mem_nil, false_imp_iff, implies_true, and_true]
    exact ⟨fun _ => Address.isPlain_normalize_literal hl, fun _ => decide_eq_true hdata, Bool.noConfusion,
      Bool.noConfusion, fun _ => decide_eq_true ⟨lo, hi⟩, fun _ => Address.isPlain_normalize_literal rfl⟩

def upperTarget : String := "0X00000000000000000000000000000000000000AB"

def bareTarget : String := "00000000000000000000000000000000000000aB"

/-- A call is encoded alike in both spellings of its target, and without a target it is not. -/
theorem some_wellFormed : ∃ d d' p, Descriptor.make .genericCall (callMembers (.text upperTarget) 5) = .ok d ∧
    Descriptor.make .genericCall (callMembers (.text bareTarget) 5) = .ok d' ∧
      encode d = .ok p ∧ encode d' = .ok p ∧
      Descriptor.make .genericCall (callMembers .null 5) = .ok (callOf .null 5) ∧
        encode (callOf .null 5) = .error (.missing "target" "no default for generic_call_report field") := by
  have hu := make_call (normalField_text rfl upperTarget) 5
  have hb := make_call (normalField_text rfl bareTarget) 5
  have hn := make_call (isNormal_null _) 5
  have hs : Address.Spells upperTarget (Bytes.zeros 19 ++ [0xab]) ∧
      Address.Spells bareTarget (Bytes.zeros 19 ++ [0xab]) := by decide
  have hwell : WellFormed (callOf (.text (Address.normalize upperTarget)) 5) := by
    rw [Address.normalize_eq_literal_iff.mpr hs.1]
    exact wellFormed_call rfl (by decide) (by decide)
  obtain ⟨hiff, -, hsame⟩ := encodes_iff_wellFormed hu
  obtain ⟨p, hp⟩ := hiff.mpr hwell
  refine ⟨_, _, p, hu, hb, hp, ?_, hn, ?_⟩
  · rw [hsame _ _ hb ?_, hp]
    simp only [schema, List.forall_mem_cons, List.not_mem_nil, false_imp_iff, implies_true, and_true]
    have htarget := Address.toBytes_of_spells hs.2 rfl
    exact ⟨.address rfl (Address.toBytes_of_spells hs.1 rfl) htarget, .refl _, .refl _, .refl _, .refl _, .refl _⟩
  · obtain ⟨-, hfirst, -⟩ := encodes_iff_wellFormed hn
    exact hfirst [] _ _ _ rfl (.unset rfl) fun _ hg => absurd hg List.not_mem_nil

end DefiActions.Report
