import DefiActions.Config.Models
import DefiActions.Proofs.ExceptLemmas
import DefiActions.Proofs.MembersLemmas

/-!
# Sound shapes

The checks of all fields of an object are made at once, and their values stand
under the wire names. In a sound shape no two fields share a name and a default
is accepted as it is, so that a normal form is its own normal form. The shapes
of all configurations are sound.
-/

namespace DefiActions.Config

variable {α β γ : Type}

/-! ## Checks -/

theorem under_eq_ok {step : Step} {c : Checked α} {a : α} : under step c = .ok a ↔ c = .ok a := by
  cases c with
  | error e => exact ⟨nofun, nofun⟩
  | ok b => rfl

theorem under_eq_error {step : Step} {c : Checked α} : (∃ e, under step c = .error e) ↔ ∃ e, c = .error e := by
  cases c with
  | error e => exact ⟨fun _ => ⟨e, rfl⟩, fun _ => ⟨_, rfl⟩⟩
  | ok b => exact ⟨nofun, nofun⟩

theorem both_eq_ok {f : α → β → γ} {a : Checked α} {b : Checked β} {c : γ} :
    both f a b = .ok c ↔ ∃ x y, a = .ok x ∧ b = .ok y ∧ f x y = c := by
  cases a <;> cases b <;> simp [both, throw, throwThe, MonadExceptOf.throw]

theorem both_eq_error {f : α → β → γ} {a : Checked α} {b : Checked β} :
    (∃ e, both f a b = .error e) ↔ (∃ e, a = .error e) ∨ ∃ e, b = .error e := by
  cases a <;> cases b <;> simp [both, throw, throwThe, MonadExceptOf.throw]

theorem map_eq_error {f : α → β} {c : Checked α} : (∃ e, c.map f = .error e) ↔ ∃ e, c = .error e := by
  cases c with
  | error e => exact ⟨fun _ => ⟨e, rfl⟩, fun _ => ⟨e, rfl⟩⟩
  | ok a => exact ⟨nofun, nofun⟩

/-! ## Fields -/

namespace Label

def Names (l : Label) (key : String) : Prop := l.wire = key ∨ l.name = key

instance (l : Label) (key : String) : Decidable (l.Names key) := inferInstanceAs (Decidable (_ ∨ _))

def Apart (l m : Label) : Prop := (l.wire ≠ m.wire ∧ l.wire ≠ m.name) ∧ l.name ≠ m.wire ∧ l.name ≠ m.name

instance (l m : Label) : Decidable (l.Apart m) := inferInstanceAs (Decidable (_ ∧ _))

theorem Apart.not_names {l m : Label} (h : l.Apart m) {key : String} (hl : l.Names key) : ¬ m.Names key := by
  rintro (hm | hm) <;> rcases hl with hl | hl
  · exact h.1.1 (hl.trans hm.symm)
  · exact h.2.1 (hl.trans hm.symm)
  · exact h.1.2 (hl.trans hm.symm)
  · exact h.2.2 (hl.trans hm.symm)

end Label

namespace Fields

@[elab_as_elim]
theorem induction {P : Fields → Prop} (nil : P nil) (cons : ∀ l s rest, P rest → P (cons l s rest)) :
    ∀ fields, P fields
  | .nil => nil
  | .cons l s rest => cons l s rest (induction nil cons rest)

def toList : Fields → List (Label × Shape)
  | nil => []
  | cons l s rest => (l, s) :: rest.toList

@[simp] theorem toList_ofList (fs : List (Label × Shape)) : (ofList fs).toList = fs := by
  induction fs with
  | nil => rfl
  | cons e fs ih => rw [ofList, toList, ih]

def Apart (fields : Fields) : Prop := fields.toList.Pairwise fun e f => e.1.Apart f.1

variable {fields : Fields} {e f : Label × Shape} {key : String}

theorem find?_eq_some (h : fields.find? key = some e) : e ∈ fields.toList ∧ e.1.Names key := by
  induction fields using Fields.induction with
  | nil => cases h
  | cons l s rest ih =>
    rw [find?] at h
    split at h
    · rename_i hl
      obtain rfl := Option.some.inj h
      exact ⟨List.mem_cons_self, hl⟩
    · exact ⟨List.mem_cons_of_mem _ (ih h).1, (ih h).2⟩

theorem not_names_of_find? (h : fields.find? key = none) : ∀ e ∈ fields.toList, ¬ e.1.Names key := by
  induction fields using Fields.induction with
  | nil => nofun
  | cons l s rest ih =>
    rw [find?] at h
    split at h
    · cases h
    · rename_i hl
      exact List.forall_mem_cons.mpr ⟨hl, ih h⟩

theorem Apart.eq_of_names (h : fields.Apart) (he : e ∈ fields.toList) (hf : f ∈ fields.toList) (hek : e.1.Names key)
    (hfk : f.1.Names key) : e = f := by
  unfold Apart at h
  induction fields using Fields.induction with
  | nil => cases he
  | cons l s rest ih =>
    obtain ⟨hl, hrest⟩ := List.pairwise_cons.mp h
    rcases List.mem_cons.mp he with rfl | he <;> rcases List.mem_cons.mp hf with rfl | hf
    · rfl
    · exact absurd hfk ((hl f hf).not_names hek)
    · exact absurd hek ((hl e he).not_names hfk)
    · exact ih hrest he hf

/-! ## The values of all fields -/

/-- The values of all fields under their wire names, or the issues of all of them. -/
def collect (check : Label → Shape → Checked Value) : Fields → Checked Members
  | nil => .ok []
  | cons l s rest => both (fun v vs => (l.wire, v) :: vs) (under (.name l.wire) (check l s)) (rest.collect check)

variable {check other : Label → Shape → Checked Value} {vs : Members}

theorem check_eq_collect (fields : Fields) (ms : Members) :
    fields.check ms = fields.collect fun l s => checkGiven l s.check (given l ms) := by
  induction fields using Fields.induction with
  | nil => rfl
  | cons l s rest ih => rw [Fields.check, collect, ih]

theorem collect_congr (h : ∀ e ∈ fields.toList, check e.1 e.2 = other e.1 e.2) :
    fields.collect check = fields.collect other := by
  induction fields using Fields.induction with
  | nil => rfl
  | cons l s rest ih =>
    rw [toList, List.forall_mem_cons] at h
    rw [collect, collect, h.1, ih h.2]

theorem collect_eq_ok : fields.collect check = .ok vs ↔
    List.Forall₂ (fun e m => m.1 = e.1.wire ∧ check e.1 e.2 = .ok m.2) fields.toList vs := by
  induction fields using Fields.induction generalizing vs with
  | nil => cases vs <;> simp [collect, toList]
  | cons l s rest ih =>
    simp only [collect, toList, both_eq_ok, under_eq_ok, ih]
    constructor
    · rintro ⟨v, rest', hv, hrest, rfl⟩
      exact .cons ⟨rfl, hv⟩ hrest
    · rintro (_ | ⟨⟨hk, hv⟩, hrest⟩)
      exact ⟨_, _, hv, hrest, by rw [← hk]⟩

theorem collect_eq_error : (∃ is, fields.collect check = .error is) ↔
    ∃ e ∈ fields.toList, ∃ is, check e.1 e.2 = .error is := by
  induction fields using Fields.induction with
  | nil => simp [collect, toList]
  | cons l s rest ih =>
    rw [collect, both_eq_error, under_eq_error, ih, toList]
    simp only [List.mem_cons, exists_eq_or_imp]

theorem names_collect (h : fields.collect check = .ok vs) : vs.names = fields.toList.map (·.1.wire) := by
  have hf := collect_eq_ok.mp h
  clear h
  generalize fields.toList = es at hf ⊢
  induction hf with
  | nil => rfl
  | cons hm _ ih => exact congrArg₂ List.cons hm.1 ih

theorem get?_collect (ha : fields.Apart) (h : fields.collect check = .ok vs) (he : e ∈ fields.toList) :
    ∃ v, check e.1 e.2 = .ok v ∧ vs.get? e.1.wire = some v := by
  induction fields using Fields.induction generalizing vs with
  | nil => cases he
  | cons l s rest ih =>
    obtain ⟨v, rest', hv, hrest, rfl⟩ := both_eq_ok.mp h
    rw [Members.get?_cons]
    obtain ⟨hl, ha⟩ := List.pairwise_cons.mp ha
    rcases List.mem_cons.mp he with rfl | he
    · rw [if_pos rfl]
      exact ⟨v, under_eq_ok.mp hv, rfl⟩
    · rw [if_neg (hl e he).1.1.symm]
      exact ih ha hrest he

end Fields

/-! ## Sound shapes -/

/-- All that an object of the shape holds may be left out, and is `null` then. -/
def Shape.Lenient : Shape → Prop
  | .object _ fields => ∀ e ∈ fields.toList, e.1.absent? = some .null ∧ e.1.nullable = true
  | _ => True

structure FieldSound (e : Label × Shape) : Prop where
  default : ∀ v, e.1.absent? = some v → checkGiven e.1 e.2.check (some v) = .ok v
  lenient : e.1.nullable = true → e.2.Lenient

inductive Shape.Sound : Shape → Prop
  | text : Sound .text
  | integer : Sound .integer
  | positive : Sound .positive
  | number : Sound .number
  | choice (options : List String) : Sound (.choice options)
  | list {item : Shape} (h : item.Sound) : Sound (.list item)
  | object {title : String} {fields : Fields} (apart : fields.Apart)
    (fieldSound : ∀ e ∈ fields.toList, FieldSound e)
    (sound : ∀ e ∈ fields.toList, e.2.Sound) : Sound (.object title fields)

/-! ## Normal forms -/

theorem checkGiven_checkGiven {e : Label × Shape} (he : FieldSound e)
    (h : ∀ v n, e.2.check v = .ok n → e.2.check n = .ok n) {given : Option Value} {n : Value}
    (hn : checkGiven e.1 e.2.check given = .ok n) : checkGiven e.1 e.2.check (some n) = .ok n := by
  have hnull : ∀ {n : Value}, (e.1.nullable && n.isNull) = true → checkGiven e.1 e.2.check (some n) = .ok n := by
    intro n hn
    rw [checkGiven, if_pos hn]
    cases n with
    | null => rfl
    | _ => simp [Value.isNull] at hn
  cases given with
  | none =>
    rw [checkGiven] at hn
    split at hn
    · rename_i d hd
      obtain rfl := Except.ok.inj hn
      exact he.default d hd
    · cases hn
  | some v =>
    rw [checkGiven] at hn
    split at hn
    · rename_i hv
      obtain rfl := Except.ok.inj hn
      exact hnull (by simp_all [Value.isNull])
    · by_cases hnn : (e.1.nullable && n.isNull) = true
      · exact hnull hnn
      · rw [checkGiven, if_neg hnn]
        exact h v n hn

theorem checkItems_checkItems {check : Value → Checked Value} (h : ∀ v n, check v = .ok n → check n = .ok n)
    {i : Nat} {vs ns : List Value} (hns : checkItems check i vs = .ok ns) : checkItems check i ns = .ok ns := by
  induction vs generalizing i ns with
  | nil =>
    obtain rfl := Except.ok.inj hns
    rfl
  | cons v vs ih =>
    obtain ⟨n, ns', hn, hns', rfl⟩ := both_eq_ok.mp hns
    exact both_eq_ok.mpr ⟨n, ns', under_eq_ok.mpr (h v n (under_eq_ok.mp hn)), ih hns', rfl⟩

/-- **A normal form is its own normal form.** -/
theorem Shape.Sound.check_check {s : Shape} (hs : s.Sound) {v n : Value} (h : s.check v = .ok n) :
    s.check n = .ok n := by
  induction hs generalizing v n with
  | text =>
    obtain ⟨t, -, rfl⟩ := map_eq_ok.mp h
    rfl
  | integer =>
    obtain ⟨t, -, rfl⟩ := map_eq_ok.mp h
    rfl
  | number =>
    obtain ⟨t, -, rfl⟩ := map_eq_ok.mp h
    rfl
  | positive =>
    obtain ⟨m, -, h⟩ := bind_eq_ok.mp h
    by_cases hm : 0 < m
    · rw [if_pos hm] at h
      obtain rfl := Except.ok.inj h
      exact bind_eq_ok.mpr ⟨m, rfl, if_pos hm⟩
    · rw [if_neg hm] at h
      cases h
  | choice options =>
    cases v with
    | text t =>
      rw [Shape.check, checkChoice] at h
      by_cases ht : options.contains t = true
      · rw [if_pos ht] at h
        obtain rfl := Except.ok.inj h
        exact if_pos ht
      · rw [if_neg ht] at h
        cases h
    | _ => cases h
  | list _ ih =>
    cases v with
    | list vs =>
      obtain ⟨ns, hns, rfl⟩ := map_eq_ok.mp h
      exact map_eq_ok.mpr ⟨ns, checkItems_checkItems (fun v n => ih) hns, rfl⟩
    | _ => cases h
  | @object title fields apart fieldSound _ ih =>
    cases v with
    | record ms =>
      obtain ⟨ns, hns, rfl⟩ := map_eq_ok.mp h
      refine map_eq_ok.mpr ⟨ns, ?_, rfl⟩
      rw [Fields.check_eq_collect] at hns ⊢
      rw [← hns]
      refine Fields.collect_congr fun e he => ?_
      obtain ⟨n, hn, hget⟩ := Fields.get?_collect apart hns he
      rw [hn, given, hget]
      exact checkGiven_checkGiven (fieldSound e he) (fun v n => ih e he) hn
    | _ => cases h

/-! ## The shapes of configurations -/

theorem sound_object {title : String} {fs : List (Label × Shape)} (ha : fs.Pairwise fun e f => e.1.Apart f.1)
    (h : ∀ e ∈ fs, FieldSound e ∧ e.2.Sound) : (Shape.object title (.ofList fs)).Sound := by
  refine .object ?_ (fun e he => (h e ?_).1) fun e he => (h e ?_).2
  · rwa [Fields.Apart, Fields.toList_ofList]
  · rwa [Fields.toList_ofList] at he
  · rwa [Fields.toList_ofList] at he

/-- What stands for a field in a normal form was checked from what is given for it. -/
theorem checkGiven_of_object {title : String} {fs : List (Label × Shape)}
    (ha : fs.Pairwise fun e f => e.1.Apart f.1)
    {v n : Value} (h : (Shape.object title (.ofList fs)).check v = .ok n) {e : Label × Shape} (he : e ∈ fs) :
    checkGiven e.1 e.2.check (given e.1 v.members) = .ok (n.member e.1.wire) := by
  cases v with
  | record ms =>
    obtain ⟨ns, hns, rfl⟩ := map_eq_ok.mp h
    rw [Fields.check_eq_collect] at hns
    have happart : (Fields.ofList fs).Apart := by rwa [Fields.Apart, Fields.toList_ofList]
    obtain ⟨m, hm, hget⟩ := Fields.get?_collect happart hns ((Fields.toList_ofList fs).symm ▸ he)
    have hmember : (Value.record ns).member e.1.wire = m := congrArg (·.getD .null) hget
    rw [hmember]
    exact hm
  | _ => cases h

variable {wire name : String} {s : Shape}

theorem sound_required (hs : s.Sound) : FieldSound (required wire name s) ∧ (required wire name s).2.Sound :=
  ⟨⟨nofun, nofun⟩, hs⟩

theorem sound_optional (hs : s.Sound) (hl : s.Lenient) :
    FieldSound (optional wire name s) ∧ (optional wire name s).2.Sound := by
  refine ⟨⟨fun v hv => ?_, fun _ => hl⟩, hs⟩
  rw [← Option.some.inj hv]
  rfl

theorem sound_withDefault (hs : s.Sound) {v : Value} (hv : s.check v = .ok v) :
    FieldSound (withDefault wire name s v) ∧ (withDefault wire name s v).2.Sound := by
  refine ⟨⟨fun d hd => ?_, nofun⟩, hs⟩
  rw [← Option.some.inj hd]
  exact hv

theorem sound_textOr (fallback : String) :
    FieldSound (textOr wire name fallback) ∧ (textOr wire name fallback).2.Sound := sound_withDefault .text rfl

theorem sound_tokenShape : tokenShape.Sound := by
  refine sound_object (by decide) ?_
  simp only [List.forall_mem_cons]
  exact ⟨sound_required .text, sound_optional .text trivial, sound_optional .integer trivial,
    sound_optional .text trivial, nofun⟩

theorem sound_feedShape : feedShape.Sound := by
  refine sound_object (by decide) ?_
  simp only [List.forall_mem_cons]
  exact ⟨sound_required .text, sound_required .text, nofun⟩

theorem sound_poolShape : poolShape.Sound := by
  refine sound_object (by decide) ?_
  simp only [List.forall_mem_cons]
  exact ⟨sound_optional .integer trivial, sound_optional .integer trivial, sound_optional .text trivial, nofun⟩

theorem lenient_poolShape : poolShape.Lenient := by
  rw [poolShape, Shape.Lenient, Fields.toList_ofList]
  simp [optional]

theorem sound_swapInputShape : swapInputShape.Sound := by
  refine sound_object (by decide) ?_
  simp only [List.forall_mem_cons]
  exact ⟨sound_required sound_tokenShape, sound_required sound_tokenShape, sound_required .text,
    sound_required (.choice _), sound_required .text, sound_optional .number trivial,
    sound_optional .integer trivial,
    sound_optional .text trivial, nofun⟩

theorem sound_lendingInputShape : lendingInputShape.Sound := by
  refine sound_object (by decide) ?_
  simp only [List.forall_mem_cons]
  exact ⟨sound_required (.choice _), sound_required sound_tokenShape, sound_required .text, sound_required .text,
    sound_optional (.choice _) trivial, sound_optional .text trivial, sound_optional .integer trivial, nofun⟩

theorem sound_provider (name : String) : FieldSound (provider name) ∧ (provider name).2.Sound :=
  sound_withDefault (.choice _) (if_pos (by simp))

theorem sound_readFeedsShape : readFeedsShape.Sound := by
  refine sound_object (by decide) ?_
  simp only [List.forall_mem_cons]
  exact ⟨sound_textOr _, sound_required .text, sound_required (.list sound_feedShape),
    sound_optional .positive trivial, nofun⟩

theorem sound_uniswapSwapShape : uniswapSwapShape.Sound := by
  refine sound_object (by decide) ?_
  simp only [List.forall_mem_cons]
  exact ⟨sound_textOr _, sound_required .text, sound_required .text, sound_provider _, sound_textOr _,
    sound_textOr _, sound_textOr _, sound_optional .text trivial, sound_required .text,
    sound_required sound_swapInputShape, sound_optional sound_poolShape lenient_poolShape,
    sound_optional .integer trivial, nofun⟩

theorem sound_aaveLendingShape : aaveLendingShape.Sound := by
  refine sound_object (by decide) ?_
  simp only [List.forall_mem_cons]
  exact ⟨sound_textOr _, sound_required .text, sound_required .text, sound_provider _, sound_textOr _,
    sound_textOr _, sound_required .text, sound_required sound_lendingInputShape, nofun⟩

theorem sound_lifiSwapShape : lifiSwapShape.Sound := by
  refine sound_object (by decide) ?_
  simp only [List.forall_mem_cons]
  exact ⟨sound_textOr _, sound_required .text, sound_required .text, sound_provider _, sound_textOr _,
    sound_required .text, sound_required sound_swapInputShape, nofun⟩

theorem sound_ostiumTradeShape : ostiumTradeShape.Sound := by
  refine sound_object (by decide) ?_
  simp only [List.forall_mem_cons]
  exact ⟨sound_textOr _, sound_required (.choice _), sound_required .text, sound_required (.choice _),
    sound_required .number, sound_required .number, sound_required .text, sound_required .text,
    sound_optional .number trivial, sound_optional .number trivial, nofun⟩

theorem sound_liquidityPositionShape : liquidityPositionShape.Sound := by
  refine sound_object (by decide) ?_
  simp only [List.forall_mem_cons]
  exact ⟨sound_textOr _, sound_required sound_tokenShape, sound_required sound_tokenShape, sound_required .text,
    sound_required .text, sound_required .integer, sound_required .integer, sound_textOr _,
    sound_optional sound_poolShape lenient_poolShape, sound_optional .text trivial, nofun⟩

end DefiActions.Config
