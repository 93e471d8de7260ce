import DefiActions.Proofs.RequestSound
import DefiActions.Proofs.ShapeLemmas
import DefiActions.Proofs.StandardSound
import DefiActions.Workflow.Catalog

/-!
# Bodies of requests for positions

A configuration takes any floating point number as it is given, and a text for
the number that it writes. So a number that is not finite comes through, and the
body of the request is then no standard JSON. Integers and booleans never lead there.
-/

namespace DefiActions

/-! ## Numbers that are given -/

namespace Config

inductive NonFinite : Value → Prop
  | float {x : Binary64} (h : x.isFinite = false) : NonFinite (.float x)
  | text {s : String} {x : Binary64} (hs : numberOfText s = .ok x) (h : x.isFinite = false) : NonFinite (.text s)
  | octets {bs : Bytes} {s : String} {x : Binary64} (hb : Utf8.text? bs = some s) (hs : numberOfText s = .ok x)
    (h : x.isFinite = false) : NonFinite (.bytes bs)

theorem isFinite_ofInt? {n : Int} {x : Binary64} (h : Binary64.ofInt? n = some x) : x.isFinite = true := by
  unfold Binary64.ofInt? at h
  split at h
  · rw [← Option.some.inj h]
    rfl
  · cases h

theorem isFinite_boolInt (b : Bool) : (Binary64.ofRatio false (boolInt b).natAbs 1).isFinite = true := by
  cases b <;> decide +kernel

/-- Only a floating point number or a text is taken as a number that is not finite. -/
theorem nonFinite_iff {v : Value} {x : Binary64} (h : number v = .ok x) : NonFinite v ↔ x.isFinite = false := by
  cases v with
  | null | list | record => cases h
  | float y =>
    cases h
    constructor
    · rintro ⟨h⟩
      exact h
    · exact .float
  | int n =>
    have hfinite : x.isFinite = true := by
      rw [number] at h
      split at h
      · rename_i y hy
        cases h
        exact isFinite_ofInt? hy
      · cases h
    rw [hfinite]
    exact ⟨nofun, nofun⟩
  | bool b =>
    cases h
    rw [isFinite_boolInt]
    exact ⟨nofun, nofun⟩
  | text s =>
    rw [number] at h
    constructor
    · rintro (_ | ⟨hs, hx⟩)
      rw [hs] at h
      cases h
      exact hx
    · exact .text h
  | bytes bs =>
    rw [number] at h
    constructor
    · rintro (_ | _ | ⟨hb, hs, hx⟩)
      rw [hb, Option.map_some, Option.getD_some, hs] at h
      cases h
      exact hx
    · intro hx
      cases hb : Utf8.text? bs with
      | none =>
        rw [hb] at h
        cases h
      | some s =>
        rw [hb, Option.map_some, Option.getD_some] at h
        exact .octets hb h hx

/-- A field for a number holds the number that is given for it, or nothing where nothing is. -/
theorem checkGiven_number {l : Label} (ha : ∀ d, l.absent? = some d → d = .null) {given : Option Value} {c : Value}
    (h : checkGiven l Shape.number.check given = .ok c) :
    (∃ g x, given = some g ∧ number g = .ok x ∧ c = .float x) ∨ (given = none ∨ given = some .null) ∧
      c = .null := by
  cases given with
  | none =>
    rw [checkGiven] at h
    split at h
    · rename_i d hd
      cases h
      exact .inr ⟨.inl rfl, ha _ hd⟩
    · cases h
  | some g =>
    rw [checkGiven] at h
    split at h
    · rename_i hg
      cases h
      cases g with
      | null => exact .inr ⟨.inr rfl, rfl⟩
      | _ => simp [Value.isNull] at hg
    · obtain ⟨x, hx, rfl⟩ := map_eq_ok.mp h
      exact .inl ⟨g, x, rfl, mapError_eq_ok.mp hx, rfl⟩

end Config

/-! ## Finite numbers in values -/

namespace Json

theorem isFinite_eq (x : Binary64) : isFinite x = x.isFinite := by cases x <;> rfl

theorem membersAreStandard_iff {ms : Members} : membersAreStandard ms = true ↔ ∀ m ∈ ms, isStandard m.2 = true := by
  induction ms with
  | nil => exact ⟨fun _ => nofun, fun _ => rfl⟩
  | cons m ms ih => rw [membersAreStandard, Bool.and_eq_true, ih, List.forall_mem_cons]

end Json

namespace Workflow.Trade

open Config (TradeConfig Label NonFinite given required optional)
open Json (NumberText StandardText isStandard)

theorem isStandard_numberValue (x : Binary64) : isStandard (numberValue x) = x.isFinite := by
  unfold numberValue
  cases hw : x.whole? with
  | none => exact Json.isFinite_eq x
  | some n =>
    cases x with
    | finite => rfl
    | nan | infinite => cases hw

/-- What the body holds for a number is a number of JSON exactly if it is finite. -/
theorem numberText_numberValue_iff {x : Binary64} :
    NumberText (Json.print .ascii 1 (numberValue x)) ↔ x.isFinite = true := by
  unfold numberValue
  cases hw : x.whole? with
  | none =>
    rw [← Json.isFinite_eq]
    exact Json.numberText_float_iff
  | some n =>
    cases x with
    | finite => exact iff_of_true (Json.numberText_intDigits n) rfl
    | nan | infinite => cases hw

/-! ## The numbers of a position -/

structure NumberField where
  label : Label
  read : TradeConfig → Option Binary64

def numberFields : List NumberField :=
  [⟨(required "collateral" "collateral" .number).1, fun config => some config.collateral⟩,
    ⟨(required "leverage" "leverage" .number).1, fun config => some config.leverage⟩,
    ⟨(optional "slPrice" "sl_price" .number).1, TradeConfig.stopLoss⟩,
    ⟨(optional "tpPrice" "tp_price" .number).1, TradeConfig.takeProfit⟩]

theorem forall_numberFields {P : NumberField → Prop} : (∀ f ∈ numberFields, P f) ↔
    P ⟨(required "collateral" "collateral" .number).1, fun config => some config.collateral⟩ ∧
    P ⟨(required "leverage" "leverage" .number).1, fun config => some config.leverage⟩ ∧
    P ⟨(optional "slPrice" "sl_price" .number).1, TradeConfig.stopLoss⟩ ∧
    P ⟨(optional "tpPrice" "tp_price" .number).1, TradeConfig.takeProfit⟩ := by
  simp only [numberFields, List.forall_mem_cons, List.not_mem_nil, false_implies, implies_true, and_true]

section Bodies

variable {config : TradeConfig}

theorem get?_number {f : NumberField} (hf : f ∈ numberFields) {x : Binary64} (hx : f.read config = some x) :
    (bodyValue config).members.get? f.label.wire = some (numberValue x) := by
  revert f
  rw [forall_numberFields]
  refine ⟨?_, ?_, get?_stopLoss, get?_takeProfit⟩
  · rintro ⟨⟩
    rfl
  · rintro ⟨⟩
    rfl

theorem forall_toList_map {name : String} {y : Option Binary64} :
    (∀ m ∈ (y.map fun x => (name, numberValue x)).toList, isStandard m.2 = true) ↔
      ∀ x, y = some x → x.isFinite = true := by
  cases y with
  | none => exact ⟨nofun, nofun⟩
  | some x => simp [isStandard_numberValue]

theorem isStandard_bodyValue_iff :
    isStandard (bodyValue config) = true ↔ ∀ f ∈ numberFields, ∀ x, f.read config = some x → x.isFinite = true := by
  rw [bodyValue, isStandard, Json.membersAreStandard_iff, List.forall_mem_append, List.forall_mem_append,
    forall_toList_map, forall_toList_map, forall_numberFields]
  simp [isStandard, isStandard_numberValue, and_assoc]

theorem standardText_body_iff : StandardText (body config).toList ↔
    ∀ f ∈ numberFields, ∀ x, f.read config = some x → x.isFinite = true := by
  rw [body, Json.write, String.toList_ofList, Json.standardText_print_iff Json.Layout.sound_ascii,
    isStandard_bodyValue_iff]

end Bodies

/-! ## Validated positions -/

theorem absent_numberFields : ∀ f ∈ numberFields, ∀ d, f.label.absent? = some d → d = .null := by
  rw [forall_numberFields]
  exact ⟨nofun, nofun, fun d hd => (Option.some.inj hd).symm, fun d hd => (Option.some.inj hd).symm⟩

theorem numberAt_eq_iff {config : Value} {name : String} {x : Binary64} (hx : x.isFinite = false) :
    some (Config.numberAt config name) = some x ↔ Config.number? (config.member name) = some x := by
  rw [Config.numberAt, Option.some.injEq]
  cases Config.number? (config.member name) with
  | none =>
    refine iff_of_false ?_ nofun
    rintro rfl
    cases hx
  | some y => rw [Option.getD_some, Option.some.injEq]

/-- A number that is not finite is none that stands in for a missing one. -/
theorem read_ofValue {config : Value} {x : Binary64} (hx : x.isFinite = false) : ∀ f ∈ numberFields,
    f.read (.ofValue config) = some x ↔ Config.number? (config.member f.label.wire) = some x := by
  rw [forall_numberFields]
  exact ⟨numberAt_eq_iff hx, numberAt_eq_iff hx, Iff.rfl, Iff.rfl⟩

section Validated

variable {v config : Value} (h : ostiumTrading.configure v = .ok config)
include h

theorem checked_numberFields : ∀ f ∈ numberFields, Config.checkGiven f.label Config.Shape.number.check
    (given f.label v.members) = .ok (config.member f.label.wire) := by
  have hchecked := @Config.checkGiven_of_object _ _ (by decide) _ _ (mapError_eq_ok.mp h)
  rw [forall_numberFields]
  exact ⟨@hchecked (required "collateral" "collateral" .number) (by simp),
    @hchecked (required "leverage" "leverage" .number) (by simp),
    @hchecked (optional "slPrice" "sl_price" .number) (by simp),
    @hchecked (optional "tpPrice" "tp_price" .number) (by simp)⟩

/-- A position has a number that is not finite exactly where one is given. -/
theorem exists_not_finite_iff {f : NumberField} (hf : f ∈ numberFields) :
    (∃ x, f.read (.ofValue config) = some x ∧ x.isFinite = false) ↔
      ∃ g, given f.label v.members = some g ∧ NonFinite g := by
  have hread {x : Binary64} (hx : x.isFinite = false) := @read_ofValue config x hx f hf
  rcases Config.checkGiven_number (absent_numberFields f hf) (checked_numberFields h f hf) with
    ⟨g, x, hg, hx, hmember⟩ | ⟨hg, hmember⟩
  · constructor
    · rintro ⟨y, hy, hfin⟩
      rw [hread hfin, hmember] at hy
      cases hy
      exact ⟨g, hg, (Config.nonFinite_iff hx).mpr hfin⟩
    · rintro ⟨g', hg', hnonfinite⟩
      rw [hg] at hg'
      cases hg'
      have hfin := (Config.nonFinite_iff hx).mp hnonfinite
      exact ⟨x, (hread hfin).mpr (by rw [hmember]; rfl), hfin⟩
  · refine iff_of_false ?_ ?_
    · rintro ⟨y, hy, hfin⟩
      rw [hread hfin, hmember] at hy
      cases hy
    · rintro ⟨g, hg', hnonfinite⟩
      rcases hg with hg | hg
      · rw [hg] at hg'
        cases hg'
      · rw [hg] at hg'
        cases hg'
        cases hnonfinite

theorem standardText_body_ofValue_iff : StandardText (body (.ofValue config)).toList ↔
    ∀ f ∈ numberFields, ∀ g, given f.label v.members = some g → ¬ NonFinite g := by
  rw [standardText_body_iff]
  refine forall₂_congr fun f hf => ?_
  have hiff := not_congr (exists_not_finite_iff h hf)
  simpa using hiff

/-- **The body of a request is standard JSON exactly if every number of the position is given as a finite one.**
Each stands in the body under its name, and is a number of JSON there exactly if it is finite. -/
theorem body_standard_iff :
    (∀ f ∈ numberFields, ∀ x, f.read (.ofValue config) = some x →
      (bodyValue (.ofValue config)).members.get? f.label.wire = some (numberValue x) ∧
      (NumberText (Json.print .ascii 1 (numberValue x)) ↔ x.isFinite = true)) ∧
    (StandardText (body (.ofValue config)).toList ↔
      ∀ f ∈ numberFields, ∀ g, given f.label v.members = some g → ¬ NonFinite g) :=
  ⟨fun _ hf _ hx => ⟨get?_number hf hx, numberText_numberValue_iff⟩, standardText_body_ofValue_iff h⟩

end Validated

def tradeWith (collateral : Value) : Value := .record [("network", .text "testnet"), ("market", .text "BTC-USD"),
  ("side", .text "long"), ("collateral", collateral), ("leverage", .int 5),
  ("traderAddress", .text "0x4444444444444444444444444444444444444444"),
  ("serviceUrl", .text "https://ostium.example.com"), ("sl_price", .bool true)]

theorem some_body_standard : ∃ config, ostiumTrading.configure (tradeWith (.text "0.5")) = .ok config ∧
    StandardText (body (.ofValue config)).toList := by
  have hvalid : (ostiumTrading.configure (tradeWith (.text "0.5"))).toBool = true := by decide +kernel
  obtain ⟨config, hconfig⟩ := exists_eq_ok hvalid
  refine ⟨config, hconfig, (body_standard_iff hconfig).2.mpr ?_⟩
  have hread : Config.number (.text "0.5") = .ok (.ofRatio false 1 2) := eq_ok_of_isOk (by decide +kernel)
  have hhalf : ¬ NonFinite (.text "0.5") := by
    rw [Config.nonFinite_iff hread]
    decide +kernel
  rw [forall_numberFields]
  refine ⟨?_, ?_, ?_, nofun⟩
  · rintro _ ⟨⟩
    exact hhalf
  · rintro _ ⟨⟩
    exact nofun
  · rintro _ ⟨⟩
    exact nofun

/-- A collateral that is no number comes through validation and is sent as a word that JSON does not have. -/
theorem nan_collateral_sent : ∃ config, ostiumTrading.configure (tradeWith (.text "nan")) = .ok config ∧
    ¬ StandardText (body (.ofValue config)).toList := by
  have hvalid : (ostiumTrading.configure (tradeWith (.text "nan"))).toBool = true := by decide +kernel
  obtain ⟨config, hconfig⟩ := exists_eq_ok hvalid
  refine ⟨config, hconfig, fun hbody => ?_⟩
  have hread : Config.numberOfText "nan" = .ok .nan := eq_ok_of_isOk (by decide +kernel)
  have hgiven := (standardText_body_ofValue_iff hconfig).mp hbody
  rw [forall_numberFields] at hgiven
  exact hgiven.1 (.text "nan") rfl (.text hread rfl)

end Workflow.Trade

end DefiActions
