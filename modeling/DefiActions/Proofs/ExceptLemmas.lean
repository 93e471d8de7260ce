import DefiActions.Error
import Mathlib.Data.List.Forall2

/-!
# Steps that may fail

A chain of steps gives a value exactly when every step does, and a chain over a
list when the step for each item does. What all steps of a chain fail with, the
chain fails with.
-/

namespace DefiActions

variable {ε α β : Type}

@[simp] theorem ok_bind {a : α} {f : α → Except ε β} : ((Except.ok a : Except ε α) >>= f) = f a := rfl

@[simp] theorem error_bind {e : ε} {f : α → Except ε β} : (Except.error e >>= f) = Except.error e := rfl

@[simp] theorem throw_bind {e : ε} {f : α → Except ε β} : ((throw e : Except ε α) >>= f) = throw e := rfl

theorem bind_eq_ok {x : Except ε α} {f : α → Except ε β} {b : β} :
    (x >>= f) = .ok b ↔ ∃ a, x = .ok a ∧ f a = .ok b := by
  cases x with
  | error e => simp
  | ok a => simp

/-- A chain of two steps fails where one of them does, the second after the first. -/
theorem bind_eq_error {x : Except ε α} {f : α → Except ε β} {e : ε} :
    (x >>= f) = .error e ↔ x = .error e ∨ ∃ a, x = .ok a ∧ f a = .error e := by
  cases x with
  | error e' => simp
  | ok a => simp

theorem map_eq_ok {x : Except ε α} {f : α → β} {b : β} : x.map f = .ok b ↔ ∃ a, x = .ok a ∧ f a = b := by
  cases x with
  | error e => simp [Except.map]
  | ok a => simp [Except.map]

theorem map_bind {γ : Type} {x : Except ε α} {f : α → Except ε β} {g : β → γ} :
    (x >>= f).map g = (x >>= fun a => (f a).map g) := by
  cases x with
  | error e => rfl
  | ok a => rfl

theorem mapError_eq_ok {ε' : Type} {x : Except ε α} {f : ε → ε'} {a : α} : x.mapError f = .ok a ↔ x = .ok a := by
  cases x with
  | error e => exact ⟨nofun, nofun⟩
  | ok b => exact ⟨congrArg _ ∘ Except.ok.inj, congrArg _ ∘ Except.ok.inj⟩

theorem mapError_eq_error {ε' : Type} {x : Except ε α} {f : ε → ε'} {e' : ε'} :
    x.mapError f = .error e' ↔ ∃ e, x = .error e ∧ f e = e' := by
  cases x with
  | error e => simp [Except.mapError]
  | ok a => simp [Except.mapError]

theorem pure_eq_ok {a b : α} : (pure a : Except ε α) = .ok b ↔ a = b := by simp [pure, Except.pure]

@[simp] theorem throw_ne_ok {e : ε} {a : α} : (throw e : Except ε α) ≠ .ok a := by
  intro h
  cases h

@[simp] theorem refuse_ne_ok {r : Rejection} {a : α} : (refuse r : Except Failure α) ≠ .ok a := by
  intro h
  cases h

@[simp] theorem fail_ne_ok {e : ActionError} {a : α} : (fail e : Except Failure α) ≠ .ok a := by
  intro h
  cases h

theorem ite_throw_eq_ok {p : Prop} [Decidable p] {x : Except ε α} {e : ε} {a : α} :
    (if p then x else throw e) = .ok a ↔ p ∧ x = .ok a := by
  by_cases hp : p
  · simp [hp]
  · simp [hp]

theorem throw_ite_eq_ok {p : Prop} [Decidable p] {x : Except ε α} {e : ε} {a : α} :
    (if p then throw e else x) = .ok a ↔ ¬ p ∧ x = .ok a := by
  by_cases hp : p
  · simp [hp]
  · simp [hp]

/-- A step over a list succeeds with the results of its items, in order. -/
theorem mapM_eq_ok {f : α → Except ε β} {xs : List α} {ys : List β} :
    xs.mapM f = .ok ys ↔ List.Forall₂ (fun x y => f x = .ok y) xs ys := by
  induction xs generalizing ys with
  | nil =>
    rw [List.mapM_nil, pure_eq_ok]
    cases ys with
    | nil => simp
    | cons y ys => simp
  | cons x xs ih =>
    rw [List.mapM_cons, bind_eq_ok]
    simp only [bind_eq_ok, pure_eq_ok, ih]
    cases ys with
    | nil => simp
    | cons y ys => simp

theorem mapM_congr {f g : α → Except ε β} {xs : List α} (h : ∀ x ∈ xs, f x = g x) : xs.mapM f = xs.mapM g := by
  induction xs with
  | nil => rfl
  | cons x xs ih =>
    rw [List.mapM_cons, List.mapM_cons, h x (List.mem_cons_self ..), ih fun y hy => h y (List.mem_cons_of_mem _ hy)]

theorem mapM_append_cons_eq_ok {f : α → Except ε β} {xs zs : List α} {x : α} {ys : List β} :
    (xs ++ x :: zs).mapM f = .ok ys ↔
      ∃ as b cs, xs.mapM f = .ok as ∧ f x = .ok b ∧ zs.mapM f = .ok cs ∧ as ++ b :: cs = ys := by
  simp only [List.mapM_append, List.mapM_cons, bind_eq_ok, pure_eq_ok]
  constructor
  · rintro ⟨as, has, _, ⟨b, hb, cs, hcs, rfl⟩, rfl⟩
    exact ⟨as, b, cs, has, hb, hcs, rfl⟩
  · rintro ⟨as, b, cs, has, hb, hcs, rfl⟩
    exact ⟨as, has, _, ⟨b, hb, cs, hcs, rfl⟩, rfl⟩

/-- A step over a list fails with the first of its items that fails. -/
theorem mapM_eq_error {f : α → Except ε β} {xs : List α} {e : ε} : xs.mapM f = .error e ↔
    ∃ ys x zs, xs = ys ++ x :: zs ∧ (∀ y ∈ ys, ∃ b, f y = .ok b) ∧ f x = .error e := by
  induction xs with
  | nil => simp [pure, Except.pure]
  | cons x xs ih =>
    simp only [List.mapM_cons, bind_eq_error, ih]
    constructor
    · rintro (h | ⟨b, hb, ⟨ys, y, zs, rfl, hys, hy⟩ | ⟨_, -, h⟩⟩)
      · exact ⟨[], x, xs, rfl, nofun, h⟩
      · exact ⟨x :: ys, y, zs, rfl, List.forall_mem_cons.mpr ⟨⟨b, hb⟩, hys⟩, hy⟩
      · cases h
    · rintro ⟨ys, y, zs, he, hys, hy⟩
      cases ys with
      | nil =>
        obtain ⟨rfl, rfl⟩ := List.cons.inj he
        exact .inl hy
      | cons x' ys =>
        obtain ⟨rfl, rfl⟩ := List.cons.inj he
        obtain ⟨⟨b, hb⟩, hys⟩ := List.forall_mem_cons.mp hys
        exact .inr ⟨b, hb, .inl ⟨ys, y, zs, rfl, hys, hy⟩⟩

/-- A test for a value, where failures cannot be compared. -/
def isOk [DecidableEq α] (x : Except ε α) (a : α) : Bool :=
  match x with
  | .ok b => b = a
  | .error _ => false

theorem eq_ok_of_isOk [DecidableEq α] {x : Except ε α} {a : α} (h : isOk x a = true) : x = .ok a := by
  cases x with
  | error e => cases h
  | ok b => exact congrArg Except.ok (of_decide_eq_true h)

theorem exists_eq_ok {x : Except ε α} (h : x.toBool = true) : ∃ a, x = .ok a := by
  cases x with
  | error e => cases h
  | ok a => exact ⟨a, rfl⟩

/-! ## What a step fails with -/

variable {ε' : Type} {P : ε → Prop}

def FailsAs (P : ε → Prop) (x : Except ε α) : Prop := ∀ e, x = .error e → P e

theorem failsAs_ok {a : α} : FailsAs P (.ok a : Except ε α) := by
  intro e h
  cases h

theorem failsAs_pure {a : α} : FailsAs P (pure a : Except ε α) := failsAs_ok

theorem failsAs_throw {e : ε} (h : P e) : FailsAs P (throw e : Except ε α) := by
  intro e' he
  cases he
  exact h

theorem failsAs_throw_ite {p : Prop} [Decidable p] {e : ε} {x : Except ε α} (h : P e) (hx : FailsAs P x) :
    FailsAs P (if p then throw e else x) := by
  split
  · exact failsAs_throw h
  · exact hx

theorem failsAs_bind {x : Except ε α} {f : α → Except ε β} (hx : FailsAs P x) (hf : ∀ a, FailsAs P (f a)) :
    FailsAs P (x >>= f) := by
  intro e he
  cases x with
  | error e' =>
    cases he
    exact hx e rfl
  | ok a => exact hf a e he

theorem failsAs_map {x : Except ε α} {f : α → β} (hx : FailsAs P x) : FailsAs P (x.map f) := by
  intro e he
  cases x with
  | error e' =>
    cases he
    exact hx e rfl
  | ok a => cases he

theorem failsAs_mapError {Q : ε' → Prop} {x : Except ε' α} {f : ε' → ε} (hx : FailsAs Q x)
    (hf : ∀ e, Q e → P (f e)) : FailsAs P (x.mapError f) := by
  intro e he
  cases x with
  | error e' =>
    cases he
    exact hf e' (hx e' rfl)
  | ok a => cases he

theorem failsAs_mapM {f : α → Except ε β} (hf : ∀ a, FailsAs P (f a)) (xs : List α) : FailsAs P (xs.mapM f) := by
  induction xs with
  | nil =>
    rw [List.mapM_nil]
    exact failsAs_pure
  | cons x xs ih =>
    rw [List.mapM_cons]
    exact failsAs_bind (hf x) fun _ => failsAs_bind ih fun _ => failsAs_pure

end DefiActions
