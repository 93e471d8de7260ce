import DefiActions.Proofs.OverrideLemmas
import DefiActions.Workflow.Catalog

/-!
# Overrides path by path

Along every path through nested objects the result of an override is decided by
what the override gives at that path, and otherwise it is what stood there.
-/

namespace DefiActions.Config

/-! ## Paths -/

/-- A path of fields leads from an object through nested ones to a value of the shape. -/
inductive Reaches : Shape → List Label → Shape → Prop
  | here (s : Shape) : Reaches s [] s
  | field {title : String} {fields : Fields} {e : Label × Shape} {path : List Label} {s : Shape}
    (he : e ∈ fields.toList) (h : Reaches e.2 path s) : Reaches (.object title fields) (e.1 :: path) s

def standingAt : List Label → Value → Value
  | [], v => v
  | l :: path, v => standingAt path (v.member l.wire)

def givenAt : List Label → Value → Value
  | [], v => v
  | l :: path, v => givenAt path ((given l v.members).getD .null)

/-- What an override gives last at a path, of all that it gives for a field. -/
def lastGivenAt : List Label → Value → Value
  | [], v => v
  | l :: path, v => lastGivenAt path (l.lastGiven v.members)

theorem exists_reaches_leaf {s : Shape} (hs : s.IsLeaf) {P : List Label → Shape → Prop} :
    (∃ path t, Reaches s path t ∧ P path t) ↔ P [] s := by
  constructor
  · rintro ⟨path, t, h, hp⟩
    cases h with
    | here => exact hp
    | field he h => exact absurd rfl (hs _ _)
  · exact fun hp => ⟨[], s, .here s, hp⟩

theorem exists_reaches_object {title : String} {fields : Fields} {P : List Label → Shape → Prop} :
    (∃ path t, Reaches (.object title fields) path t ∧ P path t) ↔
      P [] (.object title fields) ∨ ∃ e ∈ fields.toList, ∃ path t, Reaches e.2 path t ∧ P (e.1 :: path) t := by
  constructor
  · rintro ⟨path, t, h, hp⟩
    cases h with
    | here => exact Or.inl hp
    | field he h => exact Or.inr ⟨_, he, _, _, h, hp⟩
  · rintro (hp | ⟨e, he, path, t, h, hp⟩)
    · exact ⟨[], _, .here _, hp⟩
    · exact ⟨e.1 :: path, t, .field he h, hp⟩

/-! ## What stands after an override -/

namespace Shape

/-- What is given stands in its normal form, and where `null` is given what stood there. Of an object only its
fields are given. -/
def Stands (s : Shape) (base given result : Value) : Prop :=
  if given.isNull then result = base
  else
    match s with
    | .object _ fields => (∃ ms, given = .record ms) ∧
      ∃ vs, result = .record vs ∧ Members.names vs = fields.toList.map (·.1.wire)
    | s => s.check given = .ok result

def Refuses (s : Shape) (v : Value) : Prop :=
  match s with
  | .object _ _ => ∀ ms, v ≠ .record ms
  | s => ∃ issues, s.check v = .error issues

variable {s : Shape} {base given result : Value}

theorem stands_of_override (h : s.override base given = .ok result) : s.Stands base given result := by
  unfold Stands
  split
  · rename_i hg
    cases given with
    | null => exact (Except.ok.inj ((s.override_null base).symm.trans h)).symm
    | _ => cases hg
  · rename_i hg
    cases s with
    | object title fields =>
      cases given with
      | record ms =>
        obtain ⟨vs, hvs, rfl⟩ := map_eq_ok.mp h
        rw [Fields.override_eq_collect] at hvs
        exact ⟨⟨ms, rfl⟩, vs, rfl, Fields.names_collect hvs⟩
      | null => exact absurd rfl hg
      | _ => cases h
    | _ =>
      rw [IsLeaf.override (fun _ _ => Shape.noConfusion), if_neg hg] at h
      exact h

theorem IsLeaf.refuses (hs : s.IsLeaf) (v : Value) : s.Refuses v ↔ ∃ issues, s.check v = .error issues := by
  cases s with
  | object title fields => exact absurd rfl (hs title fields)
  | _ => exact Iff.rfl

theorem override_at {t : Shape} {path : List Label} (h : Reaches s path t) (hs : s.Sound)
    (ho : s.override base given = .ok result) :
    t.override (standingAt path base) (lastGivenAt path given) = .ok (standingAt path result) := by
  induction h generalizing base given result with
  | here => exact ho
  | @field title fields e path t he _ ih =>
    cases hs with
    | object ha _ hs =>
      cases given with
      | record ms =>
        obtain ⟨vs, hvs, rfl⟩ := map_eq_ok.mp ho
        rw [Fields.override_eq_collect] at hvs
        obtain ⟨v, hv, hget⟩ := Fields.get?_collect ha hvs he
        have hmember : (Value.record vs).member e.1.wire = v := by
          rw [Value.member, hget]
          rfl
        exact ih (hs e he) (by rw [hmember]; exact hv)
      | null =>
        obtain rfl := Except.ok.inj ho
        exact ih (hs e he) (override_null _ _)
      | _ => cases ho

theorem lastGivenAt_null (path : List Label) : lastGivenAt path .null = .null := by
  induction path with
  | nil => rfl
  | cons l path ih => exact ih

theorem override_eq_error (hs : s.Sound) : (∃ issues, s.override base given = .error issues) ↔
    ∃ path t, Reaches s path t ∧ (lastGivenAt path given).isNull = false ∧ t.Refuses (lastGivenAt path given) := by
  induction hs generalizing base given with
  | @object title fields ha _ _ ih =>
    rw [exists_reaches_object]
    cases given with
    | record ms =>
      have hnot : ¬ ((lastGivenAt [] (.record ms)).isNull = false ∧
          (object title fields).Refuses (lastGivenAt [] (.record ms))) := fun h => h.2 ms rfl
      rw [or_iff_right hnot, override, map_eq_error, Fields.override_eq_collect, Fields.collect_eq_error]
      exact exists_congr fun e => and_congr_right fun he => ih e he
    | null =>
      simp only [lastGivenAt_null, override_null]
      simp [Value.isNull]
    | _ => exact ⟨fun _ => Or.inl ⟨rfl, fun _ => Value.noConfusion⟩, fun _ => ⟨_, rfl⟩⟩
  | _ =>
    rw [exists_reaches_leaf (fun _ _ => Shape.noConfusion), IsLeaf.override (fun _ _ => Shape.noConfusion),
      IsLeaf.refuses (fun _ _ => Shape.noConfusion)]
    cases given <;> simp [lastGivenAt, Value.isNull]

end Shape

/-! ## Overrides that give a field once -/

namespace Label

def occurrences (l : Label) (ms : Members) : Nat := ms.countP fun m => l.Names m.1

variable {l : Label} {ms : List (String × Value)} {key : String}

theorem occurrences_cons_of_names (h : l.Names key) (v : Value) :
    l.occurrences ((key, v) :: ms) = l.occurrences ms + 1 := List.countP_cons_of_pos (decide_eq_true h)

theorem occurrences_cons_of_not_names (h : ¬ l.Names key) (v : Value) :
    l.occurrences ((key, v) :: ms) = l.occurrences ms := List.countP_cons_of_neg (by simpa using h)

theorem last_cons_of_not_names (h : ¬ l.Names key) (v : Value) : l.last ((key, v) :: ms) = l.last ms := by
  rw [last, if_neg h, Option.or_none]

theorem given_cons_of_not_names (h : ¬ l.Names key) (v : Value) : given l ((key, v) :: ms) = given l ms := by
  have hwire : l.wire ≠ key := fun he => h (Or.inl he)
  have hname : l.name ≠ key := fun he => h (Or.inr he)
  rw [given, Members.get?_cons, Members.get?_cons, if_neg hwire, if_neg hname, given]

theorem last_eq_none (h : l.occurrences ms = 0) : l.last ms = none := by
  induction ms with
  | nil => rfl
  | cons m ms ih =>
    obtain ⟨key, v⟩ := m
    by_cases hk : l.Names key
    · rw [occurrences_cons_of_names hk] at h
      cases h
    · rw [occurrences_cons_of_not_names hk] at h
      rw [last_cons_of_not_names hk, ih h]

theorem last_cons_of_names (h : l.Names key) (hms : l.occurrences ms = 0) (v : Value) :
    l.last ((key, v) :: ms) = some v := by
  rw [last, last_eq_none hms, if_pos h]
  rfl

theorem given_cons_of_names (h : l.Names key) (hms : l.occurrences ms = 0) (v : Value) :
    given l ((key, v) :: ms) = some v := by
  have hnone : ∀ name, l.Names name → Members.get? ms name = none := by
    intro name hn
    rw [Members.get?_eq_none, Members.names, List.mem_map]
    rintro ⟨m, hm, rfl⟩
    exact absurd (decide_eq_true hn) (List.countP_eq_zero.mp hms m hm)
  rw [given, Members.get?_cons, Members.get?_cons, hnone _ (Or.inl rfl), hnone _ (Or.inr rfl)]
  rcases h with rfl | rfl
  · rw [if_pos rfl]
    rfl
  · rw [if_pos rfl]
    split <;> rfl

/-- A field that is given under one key only is given there last. -/
theorem last_eq_given (h : l.occurrences ms ≤ 1) : l.last ms = given l ms := by
  induction ms with
  | nil => rfl
  | cons m ms ih =>
    obtain ⟨key, v⟩ := m
    by_cases hk : l.Names key
    · rw [occurrences_cons_of_names hk] at h
      have hzero : l.occurrences ms = 0 := by omega
      rw [last_cons_of_names hk hzero, given_cons_of_names hk hzero]
    · rw [occurrences_cons_of_not_names hk] at h
      rw [last_cons_of_not_names hk, given_cons_of_not_names hk, ih h]

end Label

mutual

def Shape.givesOnce : Shape → Value → Bool
  | .object _ fields, .record ms => fields.givesOnce ms
  | _, _ => true

def Fields.givesOnce : Fields → Members → Bool
  | .nil, _ => true
  | .cons l s rest, ms =>
    decide (l.occurrences ms ≤ 1) && s.givesOnce ((given l ms).getD .null) && rest.givesOnce ms

end

namespace Shape

variable {s t : Shape} {title : String} {fields : Fields} {path : List Label} {v v' : Value}

theorem givesOnce_null (s : Shape) : s.givesOnce .null = true := by
  cases s <;> rfl

theorem givesOnce_object {ms : Members} : (object title fields).givesOnce (.record ms) = true ↔
    ∀ e ∈ fields.toList, e.1.occurrences ms ≤ 1 ∧ e.2.givesOnce (e.1.lastGiven ms) = true := by
  rw [givesOnce]
  induction fields using Fields.induction with
  | nil => exact ⟨fun _ => nofun, fun _ => rfl⟩
  | cons l s rest ih =>
    rw [Fields.givesOnce, Bool.and_eq_true, Bool.and_eq_true, decide_eq_true_eq, ih, Fields.toList,
      List.forall_mem_cons, and_congr_left_iff]
    refine fun _ => and_congr_right fun h => ?_
    rw [Label.lastGiven, Label.last_eq_given h]

theorem lastGivenAt_eq_givenAt (h : Reaches s path t) (hv : s.givesOnce v = true) :
    lastGivenAt path v = givenAt path v := by
  induction h generalizing v with
  | here => rfl
  | @field title fields e path t he _ ih =>
    cases v with
    | record ms =>
      obtain ⟨hcount, hrest⟩ := givesOnce_object.mp hv e he
      rw [Label.lastGiven, Label.last_eq_given hcount] at hrest
      rw [lastGivenAt, givenAt, Value.members, Label.lastGiven, Label.last_eq_given hcount]
      exact ih hrest
    | _ => exact ih (givesOnce_null _)

theorem givesOnce_tail {m : String × Value} {ms : List (String × Value)}
    (h : (object title fields).givesOnce (.record (m :: ms)) = true) :
    (object title fields).givesOnce (.record ms) = true := by
  rw [givesOnce_object] at h ⊢
  intro e he
  obtain ⟨hcount, hrest⟩ := h e he
  by_cases hk : e.1.Names m.1
  · rw [Label.occurrences_cons_of_names hk] at hcount
    rw [Label.lastGiven, Label.last_eq_none (by omega)]
    exact ⟨by omega, givesOnce_null _⟩
  · rw [Label.lastGiven, Label.last_cons_of_not_names hk] at hrest
    rw [Label.occurrences_cons_of_not_names hk] at hcount
    exact ⟨hcount, hrest⟩

end Shape

/-! ## Overrides that give the same -/

/-- A member that overrides nothing: a `null`, or one under a key that no field has. -/
def Fields.Idle (fields : Fields) (m : String × Value) : Prop :=
  m.2.isNull = true ∨ ∀ e ∈ fields.toList, ¬ e.1.Names m.1

/-- One override is the other with keys respelled and idle members added, at any depth. In a list the items may
differ as far as they are validated alike. -/
inductive Alike : Shape → Value → Value → Prop
  | same (s : Shape) (v : Value) : Alike s v v
  | symm {s : Shape} {v w : Value} (h : Alike s v w) : Alike s w v
  | items {item : Shape} {vs ws : List Value} (h : List.Forall₂ (fun v w => item.check v = item.check w) vs ws) :
    Alike (.list item) (.list vs) (.list ws)
  | idle {title : String} {fields : Fields} {m : String × Value} {ms ns : List (String × Value)}
    (hm : fields.Idle m)
    (h : Alike (.object title fields) (.record ms) (.record ns)) :
    Alike (.object title fields) (.record ms) (.record (m :: ns))
  | field {title : String} {fields : Fields} {e : Label × Shape} {key other : String} {v w : Value}
    {ms ns : List (String × Value)} (he : e ∈ fields.toList) (hk : e.1.Names key) (ho : e.1.Names other)
    (hv : Alike e.2 v w) (h : Alike (.object title fields) (.record ms) (.record ns)) :
    Alike (.object title fields) (.record ((key, v) :: ms)) (.record ((other, w) :: ns))

structure SameOver (s : Shape) (v w : Value) : Prop where
  value : ∀ base, s.override base v = s.override base w
  fields : ∀ {title fields ms ns}, s = .object title fields → v = .record ms → w = .record ns →
    ∀ e ∈ fields.toList, ∀ base, e.2.override base (e.1.lastGiven ms) = e.2.override base (e.1.lastGiven ns)

theorem sameOver_of_eq (s : Shape) (v : Value) : SameOver s v v where
  value _ := rfl
  fields := by
    rintro title fields ms ns - rfl hn e - base
    rw [Value.record.inj hn]

theorem sameOver_of_fields {title : String} {fields : Fields} {ms ns : Members}
    (h : ∀ e ∈ fields.toList, ∀ base, e.2.override base (e.1.lastGiven ms) = e.2.override base (e.1.lastGiven ns)) :
    SameOver (.object title fields) (.record ms) (.record ns) where
  value base := by
    rw [Shape.override, Shape.override, Fields.override_eq_collect, Fields.override_eq_collect]
    exact congrArg _ (Fields.collect_congr fun e he => h e he _)
  fields := by
    rintro _ _ _ _ hs hv hw
    cases hs
    cases hv
    cases hw
    exact h

theorem checkItems_congr {check : Value → Checked Value} {vs ws : List Value}
    (h : List.Forall₂ (fun v w => check v = check w) vs ws) (i : Nat) :
    checkItems check i vs = checkItems check i ws := by
  induction h generalizing i with
  | nil => rfl
  | cons hv _ ih => rw [checkItems, checkItems, hv, ih]

theorem Alike.sameOver {s : Shape} {v w : Value} (h : Alike s v w) (hs : s.Sound) (hv : s.givesOnce v = true)
    (hw : s.givesOnce w = true) : SameOver s v w := by
  induction h with
  | same s v => exact sameOver_of_eq s v
  | symm _ ih =>
    obtain ⟨hvalue, hfields⟩ := ih hs hw hv
    exact ⟨fun base => (hvalue base).symm, fun hs hv hw e he base => (hfields hs hw hv e he base).symm⟩
  | items h =>
    have hleaf : ∀ item, (Shape.list item).IsLeaf := fun _ _ _ => Shape.noConfusion
    refine ⟨fun base => ?_, nofun⟩
    rw [(hleaf _).override, (hleaf _).override, Shape.check, Shape.check, checkItems_congr h]
    rfl
  | @idle title fields m ms ns hm _ ih =>
    refine sameOver_of_fields fun e he base => ?_
    have h := (ih hs hv (Shape.givesOnce_tail hw)).fields rfl rfl rfl e he base
    by_cases hk : e.1.Names m.1
    · have hcount := (Shape.givesOnce_object.mp hw e he).1
      rw [Label.occurrences_cons_of_names hk] at hcount
      have hnull : m.2 = .null := by
        rcases hm with hm | hm
        · cases hm' : m.2 <;> simp_all [Value.isNull]
        · exact absurd hk (hm e he)
      rw [h, Label.lastGiven, Label.lastGiven, Label.last_eq_none (by omega),
        Label.last_cons_of_names hk (by omega), hnull]
      rfl
    · rw [h, Label.lastGiven, Label.lastGiven, Label.last_cons_of_not_names hk]
  | @field title fields e key other v w ms ns he hk ho _ _ ihv ih =>
    cases hs with
    | object ha hf hs =>
      refine sameOver_of_fields fun f hf' base => ?_
      have h := (ih (.object ha hf hs) (Shape.givesOnce_tail hv)
        (Shape.givesOnce_tail hw)).fields rfl rfl rfl f hf' base
      by_cases hfk : f.1.Names key
      · obtain rfl := ha.eq_of_names he hf' hk hfk
        obtain ⟨hcount, hv⟩ := Shape.givesOnce_object.mp hv e he
        obtain ⟨hcount', hw⟩ := Shape.givesOnce_object.mp hw e he
        rw [Label.occurrences_cons_of_names hk] at hcount
        rw [Label.occurrences_cons_of_names ho] at hcount'
        rw [Label.lastGiven, Label.last_cons_of_names hk (by omega)] at hv ⊢
        rw [Label.lastGiven, Label.last_cons_of_names ho (by omega)] at hw ⊢
        exact (ihv (hs e he) hv hw).value base
      · have hfo : ¬ f.1.Names other := fun hfo => by
          obtain rfl := ha.eq_of_names he hf' ho hfo
          exact hfk hk
        rwa [Label.lastGiven, Label.lastGiven, Label.last_cons_of_not_names hfk, Label.last_cons_of_not_names hfo]

end DefiActions.Config

namespace DefiActions.Workflow

open Config

/-! ## Configurations of workflows -/

theorem sound_shape (w : Workflow) : w.shape.Sound := by
  cases w with
  | readFeeds => exact sound_readFeedsShape
  | uniswapSwap => exact sound_uniswapSwapShape
  | aaveLending => exact sound_aaveLendingShape
  | lifiSwap => exact sound_lifiSwapShape
  | ostiumTrading => exact sound_ostiumTradeShape
  | liquidityPosition => exact sound_liquidityPositionShape

theorem exists_fields (w : Workflow) : ∃ title fields, w.shape = .object title fields := by
  cases w <;> exact ⟨_, _, rfl⟩

variable {w : Workflow} {wire base : Value}

theorem check_of_configure (h : w.configure wire = .ok base) : w.shape.check base = .ok base :=
  w.sound_shape.check_check (mapError_eq_ok.mp h)

theorem override_record (h : w.configure wire = .ok base) (ov : Members) :
    w.override base (.record ov) =
      (w.shape.override base (.record ov)).mapError (Failure.invalid w.shape.title) := by
  have hb := check_of_configure h
  have hs := w.sound_shape
  obtain ⟨title, fields, hshape⟩ := w.exists_fields
  rw [hshape] at hb hs
  rw [override, hshape, merge_record hs hb]
  rfl

theorem override_eq_ok (h : w.configure wire = .ok base) {ov : Members} {r : Value} :
    w.override base (.record ov) = .ok r ↔ w.shape.override base (.record ov) = .ok r := by
  rw [override_record h, mapError_eq_ok]

/-- What stands at a path after an override was laid over a configuration. -/
theorem stands_of_override (h : w.configure wire = .ok base) {ov : Members} {r : Value}
    (hr : w.override base (.record ov) = .ok r) {path : List Label} {s : Shape} (hp : Reaches w.shape path s) :
    s.Stands (standingAt path base) (lastGivenAt path (.record ov)) (standingAt path r) :=
  Shape.stands_of_override (Shape.override_at hp w.sound_shape ((override_eq_ok h).mp hr))

/-- An override fails as an invalid configuration, where a value that it gives last is refused. -/
theorem override_eq_error (h : w.configure wire = .ok base) (ov : Members) :
    (∀ f, w.override base (.record ov) = .error f → ∃ issues, f = .invalid w.shape.title issues) ∧
      ((∃ f, w.override base (.record ov) = .error f) ↔ ∃ path s, Reaches w.shape path s ∧
        (lastGivenAt path (.record ov)).isNull = false ∧ s.Refuses (lastGivenAt path (.record ov))) := by
  rw [← @Shape.override_eq_error w.shape base _ w.sound_shape, override_record h]
  refine ⟨fun f hf => ?_, fun ⟨f, hf⟩ => ?_, fun ⟨issues, he⟩ => ?_⟩
  · obtain ⟨issues, -, rfl⟩ := mapError_eq_error.mp hf
    exact ⟨issues, rfl⟩
  · obtain ⟨issues, he, -⟩ := mapError_eq_error.mp hf
    exact ⟨issues, he⟩
  · exact ⟨_, mapError_eq_error.mpr ⟨issues, he, rfl⟩⟩

/-- **An override is taken path by path.** -/
theorem overridden_pathwise (h : w.configure wire = .ok base) {ov : Members}
    (ho : w.shape.givesOnce (.record ov) = true) :
    (∀ r, w.override base (.record ov) = .ok r → ∀ path s, Reaches w.shape path s →
      s.Stands (standingAt path base) (givenAt path (.record ov)) (standingAt path r)) ∧
    (∀ ov', w.shape.givesOnce (.record ov') = true → Alike w.shape (.record ov) (.record ov') →
      w.override base (.record ov') = w.override base (.record ov)) ∧
    (∀ f, w.override base (.record ov) = .error f → ∃ issues, f = .invalid w.shape.title issues) ∧
    ((∃ f, w.override base (.record ov) = .error f) ↔ ∃ path s, Reaches w.shape path s ∧
      (givenAt path (.record ov)).isNull = false ∧ s.Refuses (givenAt path (.record ov))) := by
  obtain ⟨hinvalid, herror⟩ := override_eq_error h ov
  refine ⟨fun r hr path s hp => ?_, fun ov' ho' ha => ?_, hinvalid, ?_⟩
  · rw [← Shape.lastGivenAt_eq_givenAt hp ho]
    exact stands_of_override h hr hp
  · rw [override_record h, override_record h, (ha.sameOver w.sound_shape ho ho').value]
  · rw [herror]
    refine exists_congr fun path => exists_congr fun s => and_congr_right fun hp => ?_
    rw [Shape.lastGivenAt_eq_givenAt hp ho]

/-! ### A position -/

def tokenForm (address : String) : Value := .record [("address", .text address), ("symbol", .null),
  ("decimals", .null), ("aTokenAddress", .null)]

def somePosition : Value := .record [("token_a", .record [("address", .text "0xa")]),
  ("tokenB", .record [("address", .text "0xb")]), ("amountA", .text "1"), ("amountB", .text "2"),
  ("tickLower", .int (-60)), ("tickUpper", .int 60)]

def positionForm (pool : Value) : Value := .record [("chain", .text ""), ("tokenA", tokenForm "0xa"),
  ("tokenB", tokenForm "0xb"), ("amountA", .text "1"), ("amountB", .text "2"), ("tickLower", .int (-60)),
  ("tickUpper", .int 60), ("recipient", .text ""), ("poolConfig", pool), ("stateViewAddress", .null)]

def someSpacing : Members := [("poolConfig", .record [("tickSpacing", .int 10)])]

def someSpacingRespelled : Members := [("note", .int 1),
  ("pool_config", .record [("fee", .null), ("tick_spacing", .int 10)]), ("tickLower", .null)]

def poolField : Label × Shape := Config.optional "poolConfig" "pool_config" poolShape

def spacingField : Label × Shape := Config.optional "tickSpacing" "tick_spacing" .integer

theorem configure_somePosition : liquidityPosition.configure somePosition = .ok (positionForm .null) := rfl

theorem reaches_spacing : Reaches liquidityPosition.shape [poolField.1, spacingField.1] .integer := by
  refine @Reaches.field _ _ poolField _ _ ?_ (@Reaches.field _ _ spacingField _ _ ?_ (.here _))
  · simp [poolField]
  · simp [spacingField]

theorem alike_someSpacing : Alike liquidityPosition.shape (.record someSpacing) (.record someSpacingRespelled) := by
  have hpool : Alike poolShape (.record [("tickSpacing", .int 10)])
      (.record [("fee", .null), ("tick_spacing", .int 10)]) := by
    refine .idle (Or.inl rfl) (.field (e := spacingField) ?_ (Or.inl rfl) (Or.inr rfl) (.same _ _) (.same _ _))
    simp [spacingField]
  refine .idle (Or.inr (by decide)) (.field (e := poolField) ?_ (Or.inl rfl) (Or.inr rfl) hpool ?_)
  · simp [poolField]
  · exact .idle (Or.inl rfl) (.same _ _)

/-- Pool settings that were `null` take the spacing of an override in any spelling. -/
theorem some_overridden_pathwise : liquidityPosition.configure somePosition = .ok (positionForm .null) ∧
    liquidityPosition.shape.givesOnce (.record someSpacing) = true ∧
    liquidityPosition.shape.givesOnce (.record someSpacingRespelled) = true ∧
    Alike liquidityPosition.shape (.record someSpacing) (.record someSpacingRespelled) ∧
    Reaches liquidityPosition.shape [poolField.1, spacingField.1] .integer ∧
    ∃ r, liquidityPosition.override (positionForm .null) (.record someSpacing) = .ok r ∧
      Shape.integer.Stands .null (.int 10) (standingAt [poolField.1, spacingField.1] r) ∧
      liquidityPosition.override (positionForm .null) (.record someSpacingRespelled) =
        liquidityPosition.override (positionForm .null) (.record someSpacing) := by
  obtain ⟨hstands, halike, -⟩ := @overridden_pathwise liquidityPosition _ _ configure_somePosition someSpacing rfl
  exact ⟨rfl, rfl, rfl, alike_someSpacing, reaches_spacing, _, rfl, hstands _ rfl _ _ reaches_spacing,
    halike someSpacingRespelled rfl alike_someSpacing⟩

/-! ## A field under two keys -/

theorem lastGivenAt_snoc (path : List Label) (l : Label) (v : Value) :
    lastGivenAt (path ++ [l]) v = l.lastGiven (lastGivenAt path v).members := by
  induction path generalizing v with
  | nil => rfl
  | cons m path ih => exact ih _

theorem last_append_cons {l : Label} {key : String} (hk : l.Names key) {after : List (String × Value)}
    (ha : ∀ m ∈ after, ¬ l.Names m.1) (before : List (String × Value)) (v : Value) :
    l.last (before ++ (key, v) :: after) = some v := by
  induction before with
  | nil =>
    refine Label.last_cons_of_names hk (List.countP_eq_zero.mpr fun m hm => ?_) v
    simpa using ha m hm
  | cons m before ih =>
    rw [List.cons_append, Label.last, ih]
    rfl

/-- **Of all that an override gives for a field the last counts**, and a `null` that stands last keeps what stood
there, whatever was given before it. -/
theorem last_given_decides (h : w.configure wire = .ok base) (ov : Members) :
    (∀ r, w.override base (.record ov) = .ok r → ∀ path s, Reaches w.shape path s →
      s.Stands (standingAt path base) (lastGivenAt path (.record ov)) (standingAt path r)) ∧
    ((∃ f, w.override base (.record ov) = .error f) ↔ ∃ path s, Reaches w.shape path s ∧
      (lastGivenAt path (.record ov)).isNull = false ∧ s.Refuses (lastGivenAt path (.record ov))) ∧
    ∀ path l before key v after, lastGivenAt path (.record ov) = .record (before ++ (key, v) :: after) →
      l.Names key → (∀ m ∈ after, ¬ l.Names m.1) → lastGivenAt (path ++ [l]) (.record ov) = v := by
  refine ⟨fun r hr path s hp => stands_of_override h hr hp, (override_eq_error h ov).2, ?_⟩
  intro path l before key v after hobject hk hafter
  rw [lastGivenAt_snoc, hobject, Value.members, Label.lastGiven, last_append_cons hk hafter]
  rfl

/-! ### Feeds -/

def someFeeds : Value := .record [("chainName", .text "ETHEREUM"), ("feeds", .list [])]

def someFeedsForm : Value := .record [("schedule", .text ""), ("chainName", .text "ETHEREUM"), ("feeds", .list []),
  ("staleAfterSeconds", .null)]

def windowField : Label × Shape := Config.optional "staleAfterSeconds" "stale_after_seconds" .positive

def someWindow : Members := [("staleAfterSeconds", .int 60), ("stale_after_seconds", .null)]

theorem configure_someFeeds : readFeeds.configure someFeeds = .ok someFeedsForm := rfl

/-- A window of time is given, and dropped since a `null` follows it under the other name. -/
theorem override_someWindow : readFeeds.configure someFeeds = .ok someFeedsForm ∧
    Members.get? someWindow windowField.1.wire = some (.int 60) ∧
    readFeeds.override someFeedsForm (.record someWindow) = .ok someFeedsForm ∧
    standingAt [windowField.1] someFeedsForm = .null := ⟨rfl, rfl, rfl, rfl⟩

theorem reaches_window : Reaches readFeeds.shape [windowField.1] .positive := by
  refine @Reaches.field _ _ windowField _ _ ?_ (.here _)
  simp [windowField]

/-- The same window stands where it comes after the `null`. -/
theorem some_last_given_decides : readFeeds.configure someFeeds = .ok someFeedsForm ∧
    ∃ r, readFeeds.override someFeedsForm (.record someWindow.reverse) = .ok r ∧
      Reaches readFeeds.shape [windowField.1] .positive ∧
      Shape.positive.Stands .null (.int 60) (standingAt [windowField.1] r) ∧
      lastGivenAt [windowField.1] (.record someWindow.reverse) = .int 60 := by
  obtain ⟨hstands, -, hlast⟩ := last_given_decides configure_someFeeds someWindow.reverse
  refine ⟨rfl, _, rfl, reaches_window, hstands _ rfl _ _ reaches_window, ?_⟩
  exact hlast [] windowField.1 [("stale_after_seconds", .null)] "staleAfterSeconds" (.int 60) [] rfl
    (Or.inl rfl) nofun

end DefiActions.Workflow
