import DefiActions.Proofs.AbiStrict
import DefiActions.Proofs.AddressSound
import DefiActions.Report.Payload

/-!
# Reports are read back

A report field is an address, a blob or a plain word. For each of them the
normal form of a value, the value that is encoded and the value that is read
fit together, and so they do for all fields of a schema at once.
-/

namespace DefiActions.Report

/-! ## Values of one field -/

def plain : Abi.Kind → Bool
  | .word w => w.sized
  | .bytes => true
  | _ => false

namespace Field

def fill (f : Field) (v : Value) : Value := if v.isNull then f.default?.getD .null else v

def IsNormal (f : Field) (v : Value) : Prop := Descriptor.normalField f v = .ok v

structure Sound (f : Field) : Prop where
  plain : plain f.kind = true
  isNull_default : ∀ v, f.default? = some v → v.isNull = false
  isNormal_default : ∀ v, f.default? = some v → f.IsNormal v

end Field

open Descriptor (normalField normalAddress resolveField)

theorem isNormal_null (f : Field) : f.IsNormal .null := rfl

theorem isNormal_of_normalField {f : Field} {v n : Value} (h : normalField f v = .ok n) : f.IsNormal n := by
  unfold normalField at h
  by_cases hn : v.isNull = true
  · rw [if_pos hn] at h
    rw [← Except.ok.inj h]
    exact isNormal_null f
  rw [if_neg hn] at h
  by_cases ha : f.kind = .address
  · rw [if_pos ha] at h
    cases v with
    | text s =>
      rw [← Except.ok.inj h]
      simp [Field.IsNormal, normalField, ha, Value.isNull, normalAddress]
    | _ => cases h
  rw [if_neg ha] at h
  by_cases hb : f.kind = .bytes
  · rw [if_pos hb] at h
    obtain ⟨bs, -, rfl⟩ := map_eq_ok.mp h
    simp only [Field.IsNormal, normalField, hb, Value.isNull, Blob.ofValue]
    rfl
  · rw [if_neg hb] at h
    rw [← Except.ok.inj h]
    simp [Field.IsNormal, normalField, ha, hb, hn]

theorem Field.IsNormal.exists_text {f : Field} (hf : f.kind = .address) {v : Value} (h : f.IsNormal v)
    (hn : v.isNull = false) : ∃ s, v = .text s ∧ Address.normalize s = s := by
  unfold Field.IsNormal normalField at h
  rw [if_neg (by simp [hn]), if_pos hf] at h
  cases v with
  | text s => exact ⟨s, rfl, Value.text.inj (Except.ok.inj h)⟩
  | _ => cases h

def wire (f : Field) (v : Value) : Except Failure Value :=
  match f.kind, v with
  | .word .address, .text s => (Address.toBytes s).map .bytes
  | _, v => .ok v

theorem wire_address {f : Field} (hf : f.kind = .address) (s : String) :
    wire f (.text s) = (Address.toBytes s).map .bytes := by
  unfold wire
  rw [hf]
  rfl

theorem wire_of_ne {f : Field} (hf : f.kind ≠ .address) (v : Value) : wire f v = .ok v := by
  unfold wire
  split
  · rename_i hk
    exact absurd hk hf
  · rfl

theorem match_eq_wire (f : Field) (u : Value) : (match f.kind, u with
      | .word .address, .text s => do return .bytes (← Address.toBytes s)
      | _, v => return v : Except Failure Value) = wire f u := by
  unfold wire
  split
  · cases Address.toBytes _ <;> rfl
  · rfl

theorem resolveField_of_set (kind : Kind) (f : Field) {v : Value} (hn : v.isNull = false) :
    resolveField kind f v = wire f v := by
  unfold resolveField
  simp only [hn, Bool.false_eq_true, ite_false, pure_bind]
  exact match_eq_wire f v

theorem resolveField_address {kind : Kind} {f : Field} (hf : f.kind = .address) {s : String} :
    resolveField kind f (.text s) = (Address.toBytes s).map .bytes :=
  (resolveField_of_set kind f rfl).trans (wire_address hf s)

theorem resolveField_of_default (kind : Kind) {f : Field} {v d : Value} (hn : v.isNull = true)
    (hd : f.default? = some d) : resolveField kind f v = wire f d := by
  unfold resolveField
  simp only [hn, ite_true, hd, pure_bind]
  exact match_eq_wire f d

theorem resolveField_of_required (kind : Kind) {f : Field} {v : Value} (hn : v.isNull = true)
    (hd : f.default? = none) :
    resolveField kind f v = throw (.missing f.wireName s!"no default for {kind.wireName} field") := by
  unfold resolveField
  simp only [hn, ite_true, hd]
  rfl

theorem resolveField_eq_ok {kind : Kind} {f : Field} {v r : Value} :
    resolveField kind f v = .ok r ↔ (v.isNull = true → f.default?.isSome = true) ∧ wire f (f.fill v) = .ok r := by
  unfold Field.fill
  by_cases hn : v.isNull = true
  · cases hd : f.default? with
    | none => simp [resolveField_of_required kind hn hd, hn]
    | some d => simp [resolveField_of_default kind hn hd, hn]
  · have hset : v.isNull = false := by simpa using hn
    simp [resolveField_of_set kind f hset, hset]

theorem readBack_of_ne {f : Field} (hp : plain f.kind = true) (hf : f.kind ≠ .address) (v : Value) :
    f.kind.readBack v = v := by
  cases hk : f.kind with
  | word w =>
    rw [Abi.Kind.readBack]
    cases w with
    | address => exact absurd hk hf
    | _ => rfl
  | bytes => rfl
  | _ =>
    rw [hk] at hp
    cases hp

theorem isNull_of_writes {k : Abi.Kind} {v : Value} {p : Abi.Part} (h : k.Writes v p) : v.isNull = false := by
  cases h with
  | word h => cases h <;> rfl
  | words | bytes | text | bytesList => rfl

theorem exists_bytes_of_writes {v : Value} {p : Abi.Part} (h : Abi.Kind.bytes.Writes v p) :
    ∃ bs, v = .bytes bs := by
  cases h with
  | bytes hl => exact ⟨_, rfl⟩

theorem isNormal_fill {f : Field} (hf : f.Sound) {v : Value} (hv : f.IsNormal v)
    (hd : v.isNull = true → f.default?.isSome = true) : f.IsNormal (f.fill v) ∧ (f.fill v).isNull = false := by
  unfold Field.fill
  by_cases hn : v.isNull = true
  · obtain ⟨d, he⟩ := Option.isSome_iff_exists.mp (hd hn)
    rw [if_pos hn, he, Option.getD_some]
    exact ⟨hf.isNormal_default d he, hf.isNull_default d he⟩
  · rw [if_neg hn]
    exact ⟨hv, by simpa using hn⟩

theorem readBack_of_wire {f : Field} (hp : plain f.kind = true) {u r : Value} (hu : f.IsNormal u)
    (hn : u.isNull = false) (hw : wire f u = .ok r) {p : Abi.Part} (hk : f.kind.Writes r p) :
    f.kind.readBack r = u := by
  by_cases ha : f.kind = .address
  · obtain ⟨s, rfl, hs⟩ := hu.exists_text ha hn
    rw [ha] at hk ⊢
    rw [wire_address ha, map_eq_ok] at hw
    obtain ⟨bs, hb, rfl⟩ := hw
    obtain ⟨_, hk, -⟩ := hk.exists_word
    obtain ⟨xs, he, hl⟩ := hk.exists_bytes
    rw [← Value.bytes.inj he] at hl
    rw [Address.toBytes_iff hl, hs] at hb
    rw [hb]
    rfl
  · rw [wire_of_ne ha] at hw
    obtain rfl := Except.ok.inj hw
    exact readBack_of_ne hp ha u

/-- What is read for a field is in normal form, and goes on the wire as what was written. -/
theorem wire_readBack {f : Field} (hp : plain f.kind = true) {v : Value} {p : Abi.Part} (hk : f.kind.Writes v p) :
    f.IsNormal (f.kind.readBack v) ∧ (f.kind.readBack v).isNull = false ∧ wire f (f.kind.readBack v) = .ok v := by
  by_cases ha : f.kind = .address
  · rw [ha] at hk
    obtain ⟨_, hk, -⟩ := hk.exists_word
    obtain ⟨bs, rfl, hl⟩ := hk.exists_bytes
    have e : f.kind.readBack (.bytes bs) = .text (Hex.literal bs) := by rw [ha]; rfl
    rw [e]
    refine ⟨?_, rfl, ?_⟩
    · simp [Field.IsNormal, normalField, ha, Value.isNull, normalAddress]
    · rw [wire_address ha, Address.toBytes_literal hl, Except.map]
  · rw [readBack_of_ne hp ha, wire_of_ne ha]
    refine ⟨?_, isNull_of_writes hk, rfl⟩
    unfold Field.IsNormal normalField
    rw [if_neg (by simp [isNull_of_writes hk]), if_neg ha]
    by_cases hb : f.kind = .bytes
    · rw [hb] at hk
      obtain ⟨bs, rfl⟩ := exists_bytes_of_writes hk
      rw [if_pos hb, Blob.ofValue, Except.map]
    · rw [if_neg hb]

/-! ## All fields -/

theorem nodup_names (kind : Kind) : ((schema kind).map (·.name)).Nodup := by
  cases kind <;> decide

theorem get?_zip {fs : List Field} (hf : (fs.map (·.name)).Nodup) {us : List Value} (hl : fs.length = us.length) :
    List.Forall₂ (fun f u => Members.get? ((fs.map (·.name)).zip us) f.name = some u) fs us := by
  induction fs generalizing us with
  | nil =>
    cases us with
    | nil => exact .nil
    | cons u us => cases hl
  | cons f fs ih =>
    cases us with
    | nil => cases hl
    | cons u us =>
      rw [List.map_cons, List.nodup_cons] at hf
      have hne : ∀ g ∈ fs, g.name ≠ f.name := fun g hg he => hf.1 (he ▸ List.mem_map_of_mem hg)
      rw [List.map_cons, List.zip_cons_cons]
      refine .cons (by simp [Members.get?]) ?_
      refine List.Forall₂.imp ?_ ((List.forall₂_and_left _ _).mpr ⟨hne, ih hf.2 (by simpa using hl)⟩)
      rintro g v ⟨hg, hv⟩
      rw [Members.get?, List.lookup_cons, beq_false_of_ne hg]
      exact hv

theorem make_eq_ok {kind : Kind} {given : Members} {d : Descriptor} :
    Descriptor.make kind given = .ok d ↔ (given.any fun m => !(schema kind).any (·.name = m.1)) = false ∧
      ∃ vs, List.Forall₂ (fun f v => normalField f ((given.get? f.name).getD .null) = .ok v) (schema kind) vs ∧
        ⟨kind, vs⟩ = d := by
  unfold Descriptor.make
  simp only [throw_ite_eq_ok, bind_eq_ok, pure_eq_ok, mapM_eq_ok, Bool.not_eq_true]

theorem isNormal_of_make {kind : Kind} {given : Members} {d : Descriptor} (h : Descriptor.make kind given = .ok d) :
    d.kind = kind ∧ List.Forall₂ Field.IsNormal (schema kind) d.values := by
  obtain ⟨-, vs, hvs, rfl⟩ := make_eq_ok.mp h
  exact ⟨rfl, hvs.imp fun _ _ => isNormal_of_normalField⟩

theorem make_zip {kind : Kind} {us : List Value} (h : List.Forall₂ Field.IsNormal (schema kind) us) :
    Descriptor.make kind (((schema kind).map (·.name)).zip us) = .ok ⟨kind, us⟩ := by
  rw [make_eq_ok]
  refine ⟨?_, us, ?_, rfl⟩
  · rw [List.any_eq_false]
    intro m hm
    obtain ⟨f, hf, he⟩ := List.mem_map.mp (List.of_mem_zip hm).1
    simp only [Bool.not_eq_true', Bool.not_eq_false, List.any_eq_true, decide_eq_true_eq]
    exact ⟨f, hf, he⟩
  · refine List.Forall₂.mp ?_ (get?_zip (nodup_names kind) h.length_eq) h
    intro f u hg hu
    rw [hg, Option.getD_some]
    exact hu

def Descriptor.filled (d : Descriptor) : Descriptor := ⟨d.kind, d.entries.map fun e => e.1.fill e.2⟩

/-- The values that are read for the fields of a descriptor are those it was filled up with. -/
theorem readBackAll_of_resolve {kind : Kind} {fs : List Field} (hf : ∀ f ∈ fs, f.Sound) {ds : List Value}
    (hd : List.Forall₂ Field.IsNormal fs ds) {rs : List Value}
    (hr : (fs.zip ds).mapM (fun e => resolveField kind e.1 e.2) = .ok rs) {ps : List Abi.Part}
    (hp : Abi.encodeParts (fs.map (·.kind)) rs = .ok ps) :
    Abi.readBackAll (fs.map (·.kind)) rs = (fs.zip ds).map (fun e => e.1.fill e.2) ∧
      List.Forall₂ Field.IsNormal fs ((fs.zip ds).map fun e => e.1.fill e.2) := by
  induction hd generalizing rs ps with
  | nil => exact ⟨rfl, .nil⟩
  | @cons f d fs ds hd _ ih =>
    rw [List.zip_cons_cons, List.mapM_cons] at hr
    simp only [bind_eq_ok, pure_eq_ok] at hr
    obtain ⟨r, hr, rs, hrs, rfl⟩ := hr
    obtain ⟨p, ps, hk, hps, rfl⟩ := Abi.encodeParts_cons_eq_ok.mp hp
    have hs := hf f (List.mem_cons_self ..)
    obtain ⟨hdef, hw⟩ := resolveField_eq_ok.mp hr
    obtain ⟨hn, hnull⟩ := isNormal_fill hs hd hdef
    obtain ⟨ihr, ihn⟩ := ih (fun g hg => hf g (List.mem_cons_of_mem _ hg)) hrs hps
    rw [List.zip_cons_cons, List.map_cons, List.map_cons, Abi.readBackAll, List.headD_cons, List.tail_cons, ihr,
      readBack_of_wire hs.plain hn hnull hw hk]
    exact ⟨rfl, .cons hn ihn⟩

/-- The values that are read for fields are in normal form, and are resolved to those that were written. -/
theorem resolve_readBackAll {kind : Kind} {fs : List Field} (hf : ∀ f ∈ fs, plain f.kind = true) {vs : List Value}
    (hl : vs.length = fs.length) {ps : List Abi.Part} (hp : Abi.encodeParts (fs.map (·.kind)) vs = .ok ps) :
    List.Forall₂ (fun f u => f.IsNormal u ∧ u.isNull = false) fs (Abi.readBackAll (fs.map (·.kind)) vs) ∧
      (fs.zip (Abi.readBackAll (fs.map (·.kind)) vs)).mapM (fun e => resolveField kind e.1 e.2) = .ok vs := by
  induction fs generalizing vs ps with
  | nil =>
    obtain rfl := List.eq_nil_of_length_eq_zero hl
    exact ⟨.nil, rfl⟩
  | cons f fs ih =>
    cases vs with
    | nil => cases hl
    | cons v vs =>
      obtain ⟨p, ps, hk, hps, rfl⟩ := Abi.encodeParts_cons_eq_ok.mp hp
      rw [List.headD_cons] at hk
      obtain ⟨hn, hnull, hw⟩ := wire_readBack (hf f (List.mem_cons_self ..)) hk
      obtain ⟨ihn, ihr⟩ := ih (fun g hg => hf g (List.mem_cons_of_mem _ hg)) (by simpa using hl) hps
      rw [List.tail_cons] at ihn ihr
      have hfill : f.fill (f.kind.readBack v) = f.kind.readBack v := by
        rw [Field.fill, if_neg (by simp [hnull])]
      have hres : resolveField kind f (f.kind.readBack v) = .ok v := by
        rw [resolveField_eq_ok, hfill]
        exact ⟨fun h => absurd h (by simp [hnull]), hw⟩
      rw [List.map_cons, Abi.readBackAll, List.headD_cons, List.tail_cons, List.zip_cons_cons, List.mapM_cons, hres,
        ok_bind, ihr]
      exact ⟨.cons ⟨hn, hnull⟩ ihn, rfl⟩

/-! ## Schemas -/

theorem sound_of_required {name wireName : String} {k : Abi.Kind} (hk : plain k = true) :
    Field.Sound ⟨name, k, wireName, none⟩ := ⟨hk, nofun, nofun⟩

theorem sound_of_number {name wireName : String} {bits : Nat} (hk : plain (.uint bits) = true) (n : Int) :
    Field.Sound ⟨name, .uint bits, wireName, some (.int n)⟩ := by
  refine ⟨hk, fun v hv => ?_, fun v hv => ?_⟩
  · rw [← Option.some.inj hv]
    rfl
  · rw [← Option.some.inj hv]
    rfl

theorem sound_of_zeroAddress {name wireName : String} :
    Field.Sound ⟨name, .address, wireName, zeroAddress⟩ := by
  refine ⟨rfl, fun v hv => ?_, fun v hv => ?_⟩
  · rw [← Option.some.inj hv]
    rfl
  · rw [← Option.some.inj hv, Address.zero_eq_literal]
    simp [Field.IsNormal, normalField, Value.isNull, normalAddress]

theorem sound_of_noBytes {name wireName : String} : Field.Sound ⟨name, .bytes, wireName, some (.bytes [])⟩ := by
  refine ⟨rfl, fun v hv => ?_, fun v hv => ?_⟩
  · rw [← Option.some.inj hv]
    rfl
  · rw [← Option.some.inj hv]
    rfl

/-- Every default is a value in normal form of its own field. -/
theorem sound_of_mem_schema (kind : Kind) : ∀ f ∈ schema kind, f.Sound := by
  cases kind with
  | lending =>
    simp only [schema, List.forall_mem_cons]
    exact ⟨sound_of_required rfl, sound_of_required rfl, sound_of_required rfl, sound_of_required rfl,
      sound_of_required rfl, sound_of_required rfl, sound_of_number rfl _, sound_of_number rfl _,
      sound_of_zeroAddress, nofun⟩
  | swap =>
    simp only [schema, List.forall_mem_cons]
    exact ⟨sound_of_required rfl, sound_of_required rfl, sound_of_required rfl, sound_of_required rfl,
      sound_of_zeroAddress, sound_of_required rfl, sound_of_required rfl, sound_of_number rfl _, sound_of_noBytes,
      sound_of_required rfl, sound_of_required rfl, sound_of_required rfl, sound_of_required rfl,
      sound_of_required rfl, nofun⟩
  | genericCall =>
    simp only [schema, List.forall_mem_cons]
    exact ⟨sound_of_required rfl, sound_of_required rfl, sound_of_number rfl _, sound_of_zeroAddress,
      sound_of_required rfl, sound_of_required rfl, nofun⟩

theorem plain_of_mem_kinds (kind : Kind) : ∀ k ∈ kinds kind, plain k = true := by
  intro k hk
  obtain ⟨f, hf, rfl⟩ := List.mem_map.mp hk
  exact (sound_of_mem_schema kind f hf).plain

theorem sized_of_mem_kinds (kind : Kind) : ∀ k ∈ kinds kind, k.sized = true := by
  intro k hk
  have hp := plain_of_mem_kinds kind k hk
  cases k with
  | word w => exact hp
  | words ws => cases hp
  | _ => rfl

theorem hasOneOffset_kinds (kind : Kind) : Abi.hasOneOffset (kinds kind) = true := by cases kind <;> decide

theorem headSize_kinds_lt (kind : Kind) : Abi.headSize (kinds kind) < twoPow 256 := by cases kind <;> decide

/-! ## Payloads -/

theorem encode_eq_ok {d : Descriptor} {p : Bytes} :
    encode d = .ok p ↔ ∃ vs, d.resolve = .ok vs ∧ Abi.encode (kinds d.kind) vs = .ok p := bind_eq_ok

theorem decode_eq_ok {kind : Kind} {data : Bytes} {d : Descriptor} :
    decode kind data = .ok d ↔ ∃ us, Abi.decode (kinds kind) data = .ok us ∧
      Descriptor.make kind (((schema kind).map (·.name)).zip us) = .ok d := bind_eq_ok

theorem decode_encode {kind : Kind} {given : Members} {d : Descriptor} (hd : Descriptor.make kind given = .ok d)
    {p : Bytes} (hp : encode d = .ok p) (trailing : Bytes) : decode kind (p ++ trailing) = .ok d.filled := by
  obtain ⟨hkind, hn⟩ := isNormal_of_make hd
  obtain ⟨vs, hr, he⟩ := encode_eq_ok.mp hp
  rw [hkind] at he
  obtain ⟨ps, hps, -⟩ := bind_eq_ok.mp he
  unfold Descriptor.resolve Descriptor.entries at hr
  rw [hkind] at hr
  obtain ⟨hread, hfilled⟩ := readBackAll_of_resolve (sound_of_mem_schema kind) hn hr hps
  have hdec := Abi.decode_encode (sized_of_mem_kinds kind) he trailing
  have hf : d.filled = ⟨kind, Abi.readBackAll (kinds kind) vs⟩ := by
    rw [kinds, hread, Descriptor.filled, Descriptor.entries, hkind]
  rw [← hread] at hfilled
  rw [decode_eq_ok, hf]
  exact ⟨_, hdec, make_zip hfilled⟩

/-- Values that can be written are those of the report that they are read as. -/
theorem encode_readBackAll {kind : Kind} {vs : List Value} {p : Bytes} (he : Abi.encode (kinds kind) vs = .ok p)
    (hl : vs.length = (schema kind).length) :
    Descriptor.make kind (((schema kind).map (·.name)).zip (Abi.readBackAll (kinds kind) vs)) =
        .ok ⟨kind, Abi.readBackAll (kinds kind) vs⟩ ∧
      List.Forall₂ (fun f u => f.IsNormal u ∧ u.isNull = false) (schema kind) (Abi.readBackAll (kinds kind) vs) ∧
      encode ⟨kind, Abi.readBackAll (kinds kind) vs⟩ = .ok p := by
  obtain ⟨ps, hps, -⟩ := bind_eq_ok.mp he
  have hplain : ∀ f ∈ schema kind, plain f.kind = true := fun f hf => (sound_of_mem_schema kind f hf).plain
  obtain ⟨hn, hres⟩ := @resolve_readBackAll kind _ hplain _ hl _ hps
  exact ⟨make_zip (hn.imp fun _ _ h => h.1), hn, encode_eq_ok.mpr ⟨vs, hres, he⟩⟩

theorem encode_of_decode {kind : Kind} {data : Bytes} {d : Descriptor} (h : decode kind data = .ok d) :
    d.kind = kind ∧ List.Forall₂ (fun f u => f.IsNormal u ∧ u.isNull = false) (schema kind) d.values ∧
      ∃ p, encode d = .ok p ∧ decode kind p = .ok d ∧
        ((kinds kind).all Abi.Kind.isStatic = true →
          p = data.take (Abi.headSize (kinds kind)) ∧ p.length = Abi.headSize (kinds kind)) := by
  obtain ⟨us, hus, hmake⟩ := decode_eq_ok.mp h
  obtain ⟨vs, p, he, hl, rfl, hstatic⟩ :=
    Abi.encode_of_decode (hasOneOffset_kinds kind) (headSize_kinds_lt kind) hus
  rw [kinds, List.length_map] at hl
  obtain ⟨hmake', hn, hp⟩ := encode_readBackAll he hl
  obtain rfl : ⟨kind, Abi.readBackAll (kinds kind) vs⟩ = d := Except.ok.inj (hmake'.symm.trans hmake)
  have hdec := Abi.decode_encode (sized_of_mem_kinds kind) he []
  rw [List.append_nil] at hdec
  exact ⟨rfl, hn, p, hp, decode_eq_ok.mpr ⟨_, hdec, hmake⟩, hstatic⟩

theorem forall₂_get {d : Descriptor} (hl : (schema d.kind).length = d.values.length) :
    List.Forall₂ (fun f v => d.get f.name = v) (schema d.kind) d.values := by
  have hg := get?_zip (nodup_names d.kind) hl
  have hz : d.toRecord = ((schema d.kind).map (·.name)).zip d.values := by
    rw [Descriptor.toRecord, Descriptor.entries, List.zip_map_left]
    rfl
  rw [← hz] at hg
  refine hg.imp fun f v h => ?_
  rw [Descriptor.get, h, Option.getD_some]

theorem get_of_forall₂ {d : Descriptor} {P : Field → Value → Prop} (h : List.Forall₂ P (schema d.kind) d.values)
    {f : Field} (hf : f ∈ schema d.kind) : P f (d.get f.name) := by
  have hall : List.Forall₂ (fun f _ => P f (d.get f.name) ∧ True) (schema d.kind) d.values := by
    refine List.Forall₂.mp (fun f v hv hp => ⟨?_, True.intro⟩) (forall₂_get h.length_eq) h
    rw [hv]
    exact hp
  exact ((List.forall₂_and_left _ _).mp hall).1 f hf

/-- **Reports are read back**, and what is read of any octets is the report of a payload. -/
theorem report_round_trip (kind : Kind) :
    (∀ given d p, Descriptor.make kind given = .ok d → encode d = .ok p →
      ∀ trailing, decode kind (p ++ trailing) = .ok d.filled) ∧
    (∀ given₁ given₂ d₁ d₂ p, Descriptor.make kind given₁ = .ok d₁ → Descriptor.make kind given₂ = .ok d₂ →
      encode d₁ = .ok p → encode d₂ = .ok p → d₁.filled = d₂.filled) ∧
    (∀ data d, decode kind data = .ok d → (∀ f ∈ schema kind, (d.get f.name).isNull = false) ∧
      ∃ p, encode d = .ok p ∧ decode kind p = .ok d ∧ (kind = .lending → p = data.take 288 ∧ p.length = 288)) := by
  refine ⟨fun given d p hd hp trailing => decode_encode hd hp trailing, ?_, ?_⟩
  · intro given₁ given₂ d₁ d₂ p hd₁ hd₂ hp₁ hp₂
    exact Except.ok.inj ((decode_encode hd₁ hp₁ []).symm.trans (decode_encode hd₂ hp₂ []))
  · intro data d h
    obtain ⟨rfl, hn, p, hp, hdec, hstatic⟩ := encode_of_decode h
    refine ⟨fun f hf => (get_of_forall₂ hn hf).2, p, hp, hdec, fun hk => ?_⟩
    rw [hk] at hstatic
    exact hstatic (by decide)

def someAddress : Value := .text (Hex.literal (Bytes.zeros 20))

def loan (terms : List Value) : Descriptor :=
  ⟨.lending, [.int 1, someAddress, someAddress, .int 5, someAddress, someAddress] ++ terms⟩

def defaultTerms : List Value := [.int variableRate, .int 0, someAddress]

def loanWire : List Value :=
  let address := Value.bytes (Bytes.zeros 20)
  [.int 1, address, address, .int 5, address, address, .int 2, .int 0, address]

def loanPayload : Bytes := [1, 0, 0, 5, 0, 0, 2, 0, 0].flatMap Bytes.word

theorem encode_loan {terms : List Value} (h : terms = [.null, .null, .null] ∨ terms = defaultTerms) :
    encode (loan terms) = .ok loanPayload := by
  have hr : (loan terms).resolve = .ok loanWire := by
    rcases h with rfl | rfl <;>
      simp [loan, loanWire, defaultTerms, Descriptor.resolve, Descriptor.entries, schema, resolveField, someAddress,
        Value.isNull, Abi.Kind.uint, Abi.Kind.address, variableRate, zeroNumber, zeroAddress,
        Address.zero_eq_literal]
  have hw : Abi.encode (kinds .lending) loanWire = .ok loanPayload := eq_ok_of_isOk (by decide +kernel)
  exact encode_eq_ok.mpr ⟨loanWire, hr, hw⟩

theorem make_loan {terms : List Value} (h : terms = [.null, .null, .null] ∨ terms = defaultTerms) :
    Descriptor.make .lending (((schema .lending).map (·.name)).zip (loan terms).values) = .ok (loan terms) := by
  refine @make_zip .lending (loan terms).values ?_
  rcases h with rfl | rfl <;>
    simp [loan, defaultTerms, schema, Field.IsNormal, normalField, normalAddress, someAddress, Value.isNull,
      Abi.Kind.uint, Abi.Kind.address]

/-- A loan with its terms left out and one with the default terms are read back as one report. -/
theorem loan_round_trip : decode .lending (loanPayload ++ [1]) = .ok (loan [.null, .null, .null]).filled ∧
    (loan [.null, .null, .null]).filled = (loan defaultTerms).filled ∧
    ((loan [.null, .null, .null]).filled.get "referral_code").isNull = false ∧
    encode (loan [.null, .null, .null]).filled = .ok ((loanPayload ++ [1]).take 288) := by
  obtain ⟨hread, hinj, hagain⟩ := report_round_trip .lending
  have hm₁ := make_loan (.inl rfl)
  have hm₂ := make_loan (.inr rfl)
  have hp₁ := encode_loan (.inl rfl)
  have hp₂ := encode_loan (.inr rfl)
  have hdec := hread _ _ _ hm₁ hp₁ [1]
  obtain ⟨hset, p, hp, -, hsame⟩ := hagain _ _ hdec
  rw [(hsame rfl).1] at hp
  refine ⟨hdec, hinj _ _ _ _ _ hm₁ hm₂ hp₁ hp₂, ?_, hp⟩
  exact hset ⟨"referral_code", .uint 16, "referralCode", zeroNumber⟩ (by simp [schema])

end DefiActions.Report
