import DefiActions.Proofs.ReportSound

/-!
# Fields of reports

What a report holds under a name, and what is known of it once the report was
encoded.
-/

namespace DefiActions.Report

open Descriptor (normalField resolveField)

/-! ## Fields by name -/

theorem get_of_make {kind : Kind} {given : Members} {d : Descriptor} (h : Descriptor.make kind given = .ok d)
    {f : Field} (hf : f ∈ schema kind) : normalField f ((given.get? f.name).getD .null) = .ok (d.get f.name) := by
  obtain ⟨-, vs, hvs, rfl⟩ := make_eq_ok.mp h
  exact @get_of_forall₂ ⟨kind, vs⟩ _ hvs f hf

theorem normalField_text {f : Field} (hf : f.kind = .address) (s : String) :
    normalField f (.text s) = .ok (.text (Address.normalize s)) := by
  simp only [normalField, hf, Value.isNull, Bool.false_eq_true, ite_true, ite_false, Descriptor.normalAddress]

theorem normalField_word {f : Field} (ha : f.kind ≠ .address) (hb : f.kind ≠ .bytes) {v : Value}
    (hv : v.isNull = false) : normalField f v = .ok v := by
  simp only [normalField, ha, hb, hv, Bool.false_eq_true, ite_false]

theorem forall₂_fill {fs : List Field} {vs : List Value} {P : Field → Value → Prop} (h : List.Forall₂ P fs vs) :
    List.Forall₂ (fun f u => ∃ v, P f v ∧ f.fill v = u) fs ((fs.zip vs).map fun e => e.1.fill e.2) := by
  induction h with
  | nil => exact .nil
  | cons hp _ ih => exact .cons ⟨_, hp, rfl⟩ ih

theorem get_filled {d : Descriptor} (hl : (schema d.kind).length = d.values.length) {f : Field}
    (hf : f ∈ schema d.kind) : d.filled.get f.name = f.fill (d.get f.name) := by
  obtain ⟨v, hv, hu⟩ := @get_of_forall₂ d.filled _ (forall₂_fill (forall₂_get hl)) f hf
  rw [hv, hu]

/-- A field that was given is held in its normal form. -/
theorem get_filled_of_given {kind : Kind} {given : Members} {d : Descriptor}
    (h : Descriptor.make kind given = .ok d) {f : Field} (hf : f ∈ schema kind) {v n : Value}
    (hg : given.get? f.name = some v) (hv : normalField f v = .ok n) (hn : n.isNull = false) :
    d.filled.get f.name = n := by
  have hget := get_of_make h hf
  rw [hg, Option.getD_some, hv] at hget
  obtain ⟨rfl, hnormal⟩ := isNormal_of_make h
  rw [get_filled hnormal.length_eq hf, ← Except.ok.inj hget, Field.fill, if_neg (by simp [hn])]

/-- A field that was given alike is held alike. -/
theorem get_filled_congr {kind : Kind} {given given' : Members} {d d' : Descriptor}
    (h : Descriptor.make kind given = .ok d) (h' : Descriptor.make kind given' = .ok d') {f : Field}
    (hf : f ∈ schema kind) (hg : given.get? f.name = given'.get? f.name) :
    d.filled.get f.name = d'.filled.get f.name := by
  have hget := get_of_make h hf
  rw [hg, get_of_make h' hf] at hget
  obtain ⟨rfl, hn⟩ := isNormal_of_make h
  obtain ⟨hk, hn'⟩ := isNormal_of_make h'
  rw [← hk] at hf hn'
  rw [get_filled hn'.length_eq hf, Except.ok.inj hget, get_filled hn.length_eq (hk ▸ hf)]

/-- What is read from a payload is the report with its defaults filled in. -/
theorem decode_payload {kind : Kind} {given : Members} {d : Descriptor} (h : Descriptor.make kind given = .ok d)
    {p : Bytes} (hp : encode d = .ok p) : decode kind p = .ok d.filled := by
  have hdec := decode_encode h hp []
  rwa [List.append_nil] at hdec

/-- The values of a descriptor are those of its fields by name. -/
theorem resolve_eq_mapM {d : Descriptor} (hl : (schema d.kind).length = d.values.length) :
    d.resolve = (schema d.kind).mapM fun f => resolveField d.kind f (d.get f.name) := by
  have hzip : ∀ {fs : List Field} {vs : List Value}, List.Forall₂ (fun f v => d.get f.name = v) fs vs →
      fs.zip vs = fs.map fun f => (f, d.get f.name) := by
    intro fs vs h
    induction h with
    | nil => rfl
    | cons hv _ ih => rw [List.zip_cons_cons, List.map_cons, ih, hv]
  rw [Descriptor.resolve, Descriptor.entries, hzip (forall₂_get hl), List.mapM_map]
  rfl

/-! ## Fields of an encoded report -/

def Written (f : Field) (v : Value) : Prop := ∃ r part, wire f v = .ok r ∧ f.kind.Writes r part

theorem written_of_resolve {kind : Kind} {fs : List Field} {ds rs : List Value} (hl : fs.length = ds.length)
    (hr : (fs.zip ds).mapM (fun e => resolveField kind e.1 e.2) = .ok rs) {ps : List Abi.Part}
    (hp : Abi.encodeParts (fs.map (·.kind)) rs = .ok ps) :
    List.Forall₂ (fun f v => Written f (f.fill v)) fs ds := by
  induction fs generalizing ds rs ps with
  | nil =>
    cases ds with
    | nil => exact .nil
    | cons d ds => cases hl
  | cons f fs ih =>
    cases ds with
    | nil => cases hl
    | cons d ds =>
      rw [List.zip_cons_cons, List.mapM_cons] at hr
      simp only [bind_eq_ok, pure_eq_ok] at hr
      obtain ⟨r, hr, rs, hrs, rfl⟩ := hr
      obtain ⟨p, ps, hk, hps, rfl⟩ := Abi.encodeParts_cons_eq_ok.mp hp
      exact .cons ⟨r, p, (resolveField_eq_ok.mp hr).2, hk⟩ (ih (by simpa using hl) hrs hps)

variable {kind : Kind} {given : Members} {d : Descriptor} {p : Bytes}

theorem written_of_encode (hd : Descriptor.make kind given = .ok d) (hp : encode d = .ok p) {f : Field}
    (hf : f ∈ schema kind) : Written f (d.filled.get f.name) := by
  obtain ⟨rfl, hn⟩ := isNormal_of_make hd
  obtain ⟨vs, hr, he⟩ := encode_eq_ok.mp hp
  obtain ⟨ps, hps, -⟩ := bind_eq_ok.mp he
  have h := get_of_forall₂ (written_of_resolve hn.length_eq hr hps) hf
  rwa [get_filled hn.length_eq hf]

/-- An address field of an encoded report is the literal of 20 octets. -/
theorem address_of_encode (hd : Descriptor.make kind given = .ok d) (hp : encode d = .ok p) {f : Field}
    (hf : f ∈ schema kind) (hk : f.kind = .address) {s : String} (hs : d.filled.get f.name = .text s) :
    ∃ bs, bs.length = 20 ∧ Address.normalize s = Hex.literal bs := by
  obtain ⟨r, part, hw, hr⟩ := written_of_encode hd hp hf
  rw [hs, wire_address hk, map_eq_ok] at hw
  obtain ⟨bs, hb, rfl⟩ := hw
  rw [hk] at hr
  obtain ⟨_, hr, -⟩ := hr.exists_word
  obtain ⟨xs, he, hl⟩ := hr.exists_bytes
  rw [← Value.bytes.inj he] at hl
  exact ⟨bs, hl, (Address.toBytes_iff hl).mp hb⟩

end DefiActions.Report
