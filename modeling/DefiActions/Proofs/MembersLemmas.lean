import DefiActions.Config.Validation
import DefiActions.Value
import Mathlib.Data.List.Nodup

/-!
# Values and members of records

Values are compared member by member, so that a statement about a value that is
written out is settled by evaluation. Names stand in a record once, and what
stands under a name is followed through putting a member and laying one record
over another.
-/

namespace DefiActions

/-! ## Equality of values -/

namespace Value

mutual

def same : Value → Value → Bool
  | null, null => true
  | bool a, bool b => a == b
  | int m, int n => m == n
  | float x, float y => x == y
  | text s, text t => s == t
  | bytes xs, bytes ys => xs == ys
  | list vs, list ws => sameItems vs ws
  | record ms, record ns => sameMembers ms ns
  | _, _ => false

def sameItems : List Value → List Value → Bool
  | [], [] => true
  | v :: vs, w :: ws => same v w && sameItems vs ws
  | _, _ => false

def sameMembers : List (String × Value) → List (String × Value) → Bool
  | [], [] => true
  | (k, v) :: ms, (l, w) :: ns => k == l && same v w && sameMembers ms ns
  | _, _ => false

end

mutual

theorem same_iff : ∀ {v w : Value}, same v w = true ↔ v = w
  | null, w => by cases w <;> simp [same]
  | bool a, w => by cases w <;> simp [same]
  | int m, w => by cases w <;> simp [same]
  | float x, w => by cases w <;> simp [same]
  | text s, w => by cases w <;> simp [same]
  | bytes xs, w => by cases w <;> simp [same]
  | list vs, w => by cases w <;> simp [same, sameItems_iff]
  | record ms, w => by cases w <;> simp [same, sameMembers_iff]

theorem sameItems_iff : ∀ {vs ws : List Value}, sameItems vs ws = true ↔ vs = ws
  | [], ws => by cases ws <;> simp [sameItems]
  | v :: vs, ws => by cases ws <;> simp [sameItems, @same_iff v, @sameItems_iff vs]

theorem sameMembers_iff : ∀ {ms ns : List (String × Value)}, sameMembers ms ns = true ↔ ms = ns
  | [], ns => by cases ns <;> simp [sameMembers]
  | (k, v) :: ms, ns => by
    cases ns <;> simp [sameMembers, @same_iff v, @sameMembers_iff ms, Prod.ext_iff]

end

instance : DecidableEq Value := fun _ _ => decidable_of_iff _ same_iff

end Value
/-! ## Members of records -/

namespace Members

variable {ms : Members} {key name : String} {v : Value}

@[simp] theorem get?_nil (name : String) : Members.get? [] name = none := rfl

theorem get?_cons (key : String) (v : Value) (ms : Members) (name : String) :
    Members.get? ((key, v) :: ms) name = if name = key then some v else ms.get? name := by
  by_cases h : name = key
  · simp [Members.get?, h]
  · rw [Members.get?, List.lookup_cons, beq_false_of_ne h, if_neg h]
    rfl

theorem get?_append_of_ne (h : name ≠ key) (ms : Members) (v : Value) :
    Members.get? (ms ++ [(key, v)]) name = ms.get? name := by
  rw [Members.get?, List.lookup_append, List.lookup_cons, beq_false_of_ne h]
  exact Option.or_none

theorem get?_put (ms : Members) (key : String) (v : Value) (name : String) :
    (ms.put key v).get? name = if name = key then some v else ms.get? name := by
  induction ms with
  | nil => rw [put, get?_cons]
  | cons m ms ih =>
    obtain ⟨k, w⟩ := m
    rw [put]
    by_cases hk : k = key
    · rw [if_pos hk, get?_cons, get?_cons, hk]
      split <;> rfl
    · rw [if_neg hk, get?_cons, get?_cons, ih]
      by_cases hn : name = k
      · rw [if_pos hn, if_pos hn, if_neg (hn ▸ hk)]
      · rw [if_neg hn, if_neg hn]

def names (ms : Members) : List String := ms.map (·.1)

theorem get?_eq_none : ms.get? name = none ↔ name ∉ ms.names := by
  induction ms with
  | nil => simp [names]
  | cons m ms ih =>
    rw [get?_cons, names, List.map_cons, List.mem_cons, not_or, ← names, ← ih]
    by_cases h : name = m.1
    · simp [h]
    · simp [h]

theorem names_put (ms : Members) (key : String) (v : Value) :
    (ms.put key v).names = if key ∈ ms.names then ms.names else ms.names ++ [key] := by
  induction ms with
  | nil => rfl
  | cons m ms ih =>
    obtain ⟨k, w⟩ := m
    rw [put]
    by_cases hk : k = key
    · simp [names, hk]
    · have hm : key ∈ names ((k, w) :: ms) ↔ key ∈ names ms := by simp [names, Ne.symm hk]
      rw [if_neg hk, names, List.map_cons, ← names, ih]
      by_cases h : key ∈ names ms
      · rw [if_pos h, if_pos (hm.mpr h)]
        rfl
      · rw [if_neg h, if_neg (mt hm.mp h)]
        rfl

theorem nodup_put (h : ms.names.Nodup) (key : String) (v : Value) : (ms.put key v).names.Nodup := by
  rw [names_put]
  split
  · exact h
  · rename_i hkey
    refine List.nodup_append.mpr ⟨h, List.nodup_singleton _, fun a ha b hb => ?_⟩
    rw [List.mem_singleton.mp hb]
    exact fun he => hkey (he ▸ ha)

end Members

namespace Config

/-! ## Laying one record over another -/

def laid (base given : Option Value) : Option Value :=
  match given with
  | none => base
  | some v => if v.isNull then base else some (overlay base v)

theorem get?_overlayMembers {ms : Members} (h : ms.names.Nodup) (base : Members) (name : String) :
    (overlayMembers base ms).get? name = laid (base.get? name) (ms.get? name) := by
  induction ms generalizing base with
  | nil => rw [overlayMembers]; rfl
  | cons m ms ih =>
    obtain ⟨key, v⟩ := m
    obtain ⟨hkey, hms⟩ : key ∉ Members.names ms ∧ (Members.names ms).Nodup := List.nodup_cons.mp h
    have hput : (if v.isNull then base else base.put key (overlay (base.get? key) v)).get? name =
        if name = key then laid (base.get? name) (some v) else base.get? name := by
      by_cases hn : name = key
      · rw [if_pos hn, laid]
        by_cases hv : v.isNull = true
        · rw [if_pos hv, if_pos hv]
        · rw [if_neg hv, if_neg hv, Members.get?_put, if_pos hn, hn]
      · rw [if_neg hn]
        split
        · rfl
        · rw [Members.get?_put, if_neg hn]
    rw [overlayMembers, ih hms, hput, Members.get?_cons]
    by_cases hn : name = key
    · rw [if_pos hn, if_pos hn, hn, Members.get?_eq_none.mpr hkey]
      rfl
    · rw [if_neg hn, if_neg hn]

end Config

end DefiActions
