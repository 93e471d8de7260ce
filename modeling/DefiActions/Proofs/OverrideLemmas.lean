import DefiActions.Proofs.ShapeLemmas

/-!
# Overrides field by field

Bringing the keys of an override to their wire names, laying it over a
configuration and validating the result comes to one thing: each field by itself
keeps its value or takes the one that the override gives last for it.
-/

namespace DefiActions.Config

/-! ## What an override gives for a field -/

namespace Label

def last (l : Label) : Members → Option Value
  | [] => none
  | (key, v) :: rest => (l.last rest).or (if l.Names key then some v else none)

def lastGiven (l : Label) (ms : Members) : Value := (l.last ms).getD .null

end Label

namespace Fields

variable {fields : Fields} {e : Label × Shape}

theorem get?_toWire (ha : fields.Apart) (he : e ∈ fields.toList) (acc : Members) (ms : List (String × Value)) :
    (fields.toWire acc ms).get? e.1.wire = ((e.1.last ms).map e.2.toWire).or (acc.get? e.1.wire) := by
  induction ms generalizing acc with
  | nil =>
    rw [toWire]
    rfl
  | cons m ms ih =>
    obtain ⟨key, v⟩ := m
    rw [toWire, Label.last]
    cases hf : fields.find? key with
    | none =>
      have hn : ¬ e.1.Names key := not_names_of_find? hf e he
      have hne : e.1.wire ≠ key := fun h => hn (Or.inl h)
      rw [ih, Members.get?_put, if_neg hne, if_neg hn, Option.or_none]
    | some f =>
      obtain ⟨hf, hk⟩ := find?_eq_some hf
      rw [ih, Members.get?_put]
      by_cases hn : e.1.Names key
      · obtain rfl := ha.eq_of_names he hf hn hk
        rw [if_pos rfl, if_pos hn]
        cases e.1.last ms <;> rfl
      · have hne : e.1.wire ≠ f.1.wire := by
          intro h
          obtain rfl := ha.eq_of_names he hf (Or.inl h) (Or.inl rfl)
          exact hn hk
        rw [if_neg hne, if_neg hn, Option.or_none]

/-- No known field is left under a name of its own. -/
theorem get?_toWire_of_ne (ha : fields.Apart) (he : e ∈ fields.toList) {name : String} (hn : e.1.Names name)
    (hne : name ≠ e.1.wire) (acc : Members) (ms : List (String × Value)) :
    (fields.toWire acc ms).get? name = acc.get? name := by
  induction ms generalizing acc with
  | nil => rw [toWire]
  | cons m ms ih =>
    obtain ⟨key, v⟩ := m
    rw [toWire]
    cases hf : fields.find? key with
    | none =>
      have hk : name ≠ key := fun h => not_names_of_find? hf e he (h ▸ hn)
      rw [ih, Members.get?_put, if_neg hk]
    | some f =>
      obtain ⟨hf, -⟩ := find?_eq_some hf
      have hk : name ≠ f.1.wire := by
        rintro rfl
        obtain rfl := ha.eq_of_names he hf hn (Or.inl rfl)
        exact hne rfl
      rw [ih, Members.get?_put, if_neg hk]

theorem nodup_toWire {acc : Members} (h : acc.names.Nodup) (ms : List (String × Value)) :
    (fields.toWire acc ms).names.Nodup := by
  induction ms generalizing acc with
  | nil => rwa [toWire]
  | cons m ms ih =>
    obtain ⟨key, v⟩ := m
    rw [toWire]
    split
    · exact ih (Members.nodup_put h _ _)
    · exact ih (Members.nodup_put h _ _)

theorem nodup_names_toWire (fields : Fields) (ms : Members) : (fields.toWire [] ms).names.Nodup :=
  @nodup_toWire fields [] List.nodup_nil ms

end Fields

theorem isNull_toWire (s : Shape) (v : Value) : (s.toWire v).isNull = v.isNull := by
  cases s <;> cases v <;> simp [Shape.toWire, Value.isNull]

theorem overlay_record (base ms : Members) :
    overlay (some (.record base)) (.record ms) = .record (overlayMembers base ms) := by
  rw [overlay]

theorem overlay_of_ne_record {current : Option Value} (h : ∀ base, current ≠ some (.record base)) (v : Value) :
    overlay current v = v := by
  cases v with
  | record ms =>
    rw [overlay]
    exact h
  | _ => simp only [overlay]

theorem overlay_null (v : Value) : overlay (some .null) v = v := overlay_of_ne_record (fun _ h => by cases h) v

theorem isNull_overlay (current : Option Value) (v : Value) : (overlay current v).isNull = v.isNull := by
  by_cases h : ∃ base, current = some (.record base)
  · obtain ⟨base, rfl⟩ := h
    cases v with
    | record ms =>
      rw [overlay_record]
      rfl
    | _ => simp only [overlay]
  · rw [overlay_of_ne_record fun base hb => h ⟨base, hb⟩]

/-! ## Field by field -/

mutual

/-- A value with another one put over it, field by field; `null` leaves what stands there. -/
def Shape.override : Shape → Value → Value → Checked Value
  | .object _ fields, base, given =>
    match given with
    | .null => .ok base
    | .record ms => (fields.override base ms).map .record
    | _ => issue .objectType
  | s, base, given => if given.isNull then .ok base else s.check given

def Fields.override : Fields → Value → Members → Checked Members
  | .nil, _, _ => .ok []
  | .cons l s rest, base, ms =>
    both (fun v vs => (l.wire, v) :: vs)
      (under (.name l.wire) (s.override (base.member l.wire) (l.lastGiven ms))) (rest.override base ms)

end

theorem Fields.override_eq_collect (fields : Fields) (base : Value) (ms : Members) :
    fields.override base ms = fields.collect fun l s => s.override (base.member l.wire) (l.lastGiven ms) := by
  induction fields using Fields.induction with
  | nil => rfl
  | cons l s rest ih => rw [Fields.override, collect, ih]

theorem Shape.override_null (s : Shape) (base : Value) : s.override base .null = .ok base := by
  cases s <;> rfl

/-- What may stand where an override is laid: a normal form, or `null` for an object that asks for nothing. -/
def Shape.Admits (s : Shape) (v : Value) : Prop := s.check v = .ok v ∨ v = .null ∧ s.Lenient

theorem FieldSound.admits {e : Label × Shape} (he : FieldSound e) {v : Value}
    (h : checkGiven e.1 e.2.check (some v) = .ok v) : e.2.Admits v := by
  rw [checkGiven] at h
  split at h
  · rename_i hn
    rw [Bool.and_eq_true] at hn
    exact Or.inr ⟨(Except.ok.inj h).symm, he.lenient hn.1⟩
  · exact Or.inl h

/-- The values of the fields of a normal form. -/
theorem Fields.exists_member {fields : Fields} (ha : fields.Apart) {ms : Members} (h : fields.check ms = .ok ms)
    {e : Label × Shape} (he : e ∈ fields.toList) :
    ∃ v, ms.get? e.1.wire = some v ∧ checkGiven e.1 e.2.check (some v) = .ok v := by
  rw [check_eq_collect] at h
  obtain ⟨v, hv, hget⟩ := get?_collect ha h he
  rw [given, hget] at hv
  exact ⟨v, hget, hv⟩

theorem checkGiven_of_given {l : Label} {check : Value → Checked Value} {v : Value} (h : v.isNull = false) :
    checkGiven l check (some v) = check v := by
  rw [checkGiven, if_neg (by simp [h])]

/-! ### Leaves -/

def Shape.IsLeaf (s : Shape) : Prop := ∀ title fields, s ≠ .object title fields

namespace Shape.IsLeaf

variable {s : Shape}

theorem toWire (h : s.IsLeaf) (v : Value) : s.toWire v = v := by
  rw [Shape.toWire]
  intro title fields ms hs
  exact absurd hs (h title fields)

theorem override (h : s.IsLeaf) (base given : Value) :
    s.override base given = if given.isNull then .ok base else s.check given := by
  rw [Shape.override]
  exact h

theorem check_record_ne_ok (h : s.IsLeaf) (ms : Members) (v : Value) : s.check (.record ms) ≠ .ok v := by
  cases s with
  | object title fields => exact absurd rfl (h title fields)
  | _ => nofun

theorem overlay (h : s.IsLeaf) {base : Value} (hb : s.Admits base) (given : Value) :
    Config.overlay (some base) given = given := by
  refine overlay_of_ne_record (fun ms he => ?_) given
  obtain rfl := Option.some.inj he
  rcases hb with hb | ⟨hb, -⟩
  · exact h.check_record_ne_ok ms _ hb
  · cases hb

theorem check_overlay (h : s.IsLeaf) {base given : Value} (hb : s.Admits base) (hg : given.isNull = false) :
    s.check (Config.overlay (some base) (s.toWire given)) = s.override base given := by
  rw [h.toWire, h.overlay hb, h.override, hg]
  rfl

end Shape.IsLeaf

/-! ### Objects -/

section

variable {fields : Fields} {e : Label × Shape}

/-- A field of a normal form that was laid over. -/
theorem checkGiven_overlayMembers (ha : fields.Apart) (hf : FieldSound e) (he : e ∈ fields.toList)
    {base ms : Members} (hb : fields.check base = .ok base)
    (ih : ∀ {base given : Value}, e.2.Admits base → given.isNull = false →
      e.2.check (overlay (some base) (e.2.toWire given)) = e.2.override base given) :
    checkGiven e.1 e.2.check (given e.1 (overlayMembers base (fields.toWire [] ms))) =
      e.2.override ((Value.record base).member e.1.wire) (e.1.lastGiven ms) := by
  obtain ⟨b, hget, hcheck⟩ := Fields.exists_member ha hb he
  have hlaid := get?_overlayMembers (fields.nodup_names_toWire ms) base e.1.wire
  rw [Fields.get?_toWire ha he, Members.get?_nil, Option.or_none, hget] at hlaid
  rw [given, hlaid, Value.member, hget, Option.getD_some, Label.lastGiven]
  cases e.1.last ms with
  | none => exact hcheck.trans (Shape.override_null _ _).symm
  | some v =>
    rw [Option.map_some, laid, isNull_toWire, Option.getD_some]
    by_cases hv : v.isNull = true
    · cases v with
      | null => exact hcheck.trans (Shape.override_null _ _).symm
      | _ => cases hv
    · rw [if_neg hv, Option.some_or, checkGiven_of_given (by simpa [isNull_overlay, isNull_toWire] using hv)]
      exact ih (hf.admits hcheck) (by simpa using hv)

/-- A field of an object that stands where there was none. -/
theorem checkGiven_toWire (ha : fields.Apart) (hf : FieldSound e) (he : e ∈ fields.toList)
    (hl : e.1.absent? = some .null ∧ e.1.nullable = true) {ms : Members}
    (ih : ∀ {base given : Value}, e.2.Admits base → given.isNull = false →
      e.2.check (overlay (some base) (e.2.toWire given)) = e.2.override base given) :
    checkGiven e.1 e.2.check (given e.1 (fields.toWire [] ms)) =
      e.2.override (Value.null.member e.1.wire) (e.1.lastGiven ms) := by
  have hwire := Fields.get?_toWire ha he [] ms
  rw [Members.get?_nil, Option.or_none] at hwire
  rw [Label.lastGiven]
  cases hlast : e.1.last ms with
  | none =>
    rw [hlast, Option.map_none] at hwire
    have hname : (fields.toWire [] ms).get? e.1.name = none := by
      by_cases h : e.1.name = e.1.wire
      · rw [h, hwire]
      · rw [Fields.get?_toWire_of_ne ha he (Or.inr rfl) h, Members.get?_nil]
    rw [given, hwire, hname, Option.or_none, checkGiven, hl.1]
    exact (Shape.override_null _ _).symm
  | some v =>
    rw [hlast, Option.map_some] at hwire
    rw [given, hwire, Option.some_or, Option.getD_some]
    by_cases hv : v.isNull = true
    · rw [checkGiven, isNull_toWire, hv, hl.2]
      cases v with
      | null => exact (Shape.override_null _ _).symm
      | _ => cases hv
    · rw [checkGiven_of_given (by simpa [isNull_toWire] using hv)]
      have h := ih (Or.inr ⟨rfl, hf.lenient hl.2⟩) (by simpa using hv)
      rwa [overlay_null] at h

end

/-- The check of what was laid over a value takes it field by field. -/
theorem Shape.Sound.check_overlay {s : Shape} (hs : s.Sound) {base given : Value} (hb : s.Admits base)
    (hg : given.isNull = false) : s.check (overlay (some base) (s.toWire given)) = s.override base given := by
  induction hs generalizing base given with
  | @object title fields ha hf _ ih =>
    cases given with
    | record ms =>
      rw [Shape.toWire, Shape.override, Fields.override_eq_collect]
      rcases hb with hb | ⟨rfl, hl⟩
      · cases base with
        | record bs =>
          obtain ⟨bs', hbs, he⟩ := map_eq_ok.mp hb
          obtain rfl := Value.record.inj he
          rw [overlay_record, Shape.check, Fields.check_eq_collect]
          refine congrArg _ (Fields.collect_congr fun e he => ?_)
          exact checkGiven_overlayMembers ha (hf e he) he hbs (ih e he)
        | _ => cases hb
      · rw [overlay_null, Shape.check, Fields.check_eq_collect]
        refine congrArg _ (Fields.collect_congr fun e he => ?_)
        exact checkGiven_toWire ha (hf e he) he (hl e he) (ih e he)
    | null => cases hg
    | _ => simp only [Shape.toWire, overlay, Shape.check, Shape.override]
  | _ => exact Shape.IsLeaf.check_overlay (fun _ _ => Shape.noConfusion) hb hg

/-- **Merging takes an override field by field.** -/
theorem merge_record {title : String} {fields : Fields} (hs : (Shape.object title fields).Sound) {base : Value}
    (hb : (Shape.object title fields).check base = .ok base) (ov : Members) :
    merge (.object title fields) base (.record ov) =
      ((Shape.object title fields).override base (.record ov)).mapError (Failure.invalid title) := by
  rw [← hs.check_overlay (Or.inl hb) rfl, Shape.toWire]
  cases base with
  | record bs =>
    rw [overlay_record, merge]
    cases ov with
    | nil =>
      rw [Fields.toWire, overlayMembers, hb]
      rfl
    | cons m ms =>
      rw [overridden, Shape.toWire]
      rfl
  | _ => cases hb

end DefiActions.Config
