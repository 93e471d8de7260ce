import DefiActions.Text.Numeral
import Mathlib.Algebra.Order.Ring.Nat
import Mathlib.Data.List.Basic
import Mathlib.Data.List.TakeWhile
import Mathlib.Tactic.Ring

/-!
# Digits

The digits of a number are decimal digits that give the number back, and the
first of them is a zero for zero only. A digit of any script has a value below
ten and is no blank. Trimming takes away the blanks at both ends of a text, and
nothing of a text without blanks.
-/

namespace DefiActions.Text

/-! ## Digits of numerals -/

theorem isDigit_of_mem_natDigits {n : Nat} {c : Char} (h : c ∈ natDigits n) : c.isDigit = true :=
  Nat.isDigit_of_mem_toDigits (by decide) (by decide) h

theorem natDigits_ne_nil (n : Nat) : natDigits n ≠ [] := Nat.toDigits_ne_nil

theorem ofDigitChars_natDigits (n : Nat) : Nat.ofDigitChars 10 (natDigits n) 0 = n :=
  Nat.ofDigitChars_toDigits (by decide) (by decide)

theorem natDigits_of_lt {n : Nat} (h : n < 10) : natDigits n = [n.digitChar] := Nat.toDigits_of_lt_base h

theorem natDigits_of_le {n : Nat} (h : 10 ≤ n) : natDigits n = natDigits (n / 10) ++ [(n % 10).digitChar] := by
  unfold natDigits
  rw [Nat.toDigits_eq_if (by decide), if_neg (Nat.not_lt.mpr h)]

theorem digitChar_eq_zero {n : Nat} (h : n < 10) (hz : n.digitChar = '0') : n = 0 := by
  have hall : ∀ n < 10, Nat.digitChar n = '0' → n = 0 := by decide
  exact hall n h hz

/-- No number but zero has a zero in front. -/
theorem eq_zero_of_head?_natDigits {n : Nat} (h : (natDigits n).head? = some '0') : n = 0 := by
  induction n using Nat.strongRecOn with
  | ind n ih =>
    by_cases hn : n < 10
    · rw [natDigits_of_lt hn] at h
      exact digitChar_eq_zero hn (Option.some.inj h)
    · have hle := Nat.not_lt.mp hn
      rw [natDigits_of_le hle, List.head?_append_of_ne_nil _ (natDigits_ne_nil _)] at h
      have := ih (n / 10) (by omega) h
      omega

/-- The induction is over the digits that follow, with the number that stands in front of them. -/
theorem foldl_digits_lt {base : Nat} {ds : List Nat} (h : ∀ d ∈ ds, d < base) (n : Nat) :
    ds.foldl (fun n d => base * n + d) n < Nat.pow base ds.length * (n + 1) := by
  induction ds generalizing n with
  | nil => exact Nat.lt_of_lt_of_eq (Nat.lt_succ_self n) (Nat.one_mul _).symm
  | cons d ds ih =>
    rw [List.forall_mem_cons] at h
    have hstep : base * n + d + 1 ≤ base * (n + 1) := by
      rw [Nat.mul_add, Nat.mul_one]
      omega
    calc ds.foldl (fun n d => base * n + d) (base * n + d)
        < Nat.pow base ds.length * (base * n + d + 1) := ih h.2 _
      _ ≤ Nat.pow base ds.length * (base * (n + 1)) := Nat.mul_le_mul_left _ hstep
      _ = Nat.pow base (d :: ds).length * (n + 1) := (Nat.mul_assoc _ _ _).symm

theorem ofDigits_lt {base : Nat} {ds : List Nat} (h : ∀ d ∈ ds, d < base) :
    ofDigits base ds < Nat.pow base ds.length := by
  have := foldl_digits_lt h 0
  rwa [Nat.zero_add, Nat.mul_one] at this

/-! ## The limit -/

theorem tenPow_lt_tenPow {m n : Nat} (h : m < n) : tenPow m < tenPow n := Nat.pow_lt_pow_right (by decide) h

theorem tenPow_le_tenPow {m n : Nat} (h : m ≤ n) : tenPow m ≤ tenPow n := Nat.pow_le_pow_right (by decide) h

theorem length_natDigits_le_iff {n k : Nat} (hk : 0 < k) : (natDigits n).length ≤ k ↔ n < tenPow k :=
  Nat.length_toDigits_le_iff (by decide) hk

theorem isWritable_iff {n : Int} : isWritable n = true ↔ (natDigits n.natAbs).length ≤ numeralLimit := by
  rw [length_natDigits_le_iff (by decide), isWritable, decide_eq_true_eq]

theorem isWritable_natAbs (n : Int) : isWritable n.natAbs = isWritable n := by
  simp only [isWritable, Int.natAbs_natCast]

theorem isWritable_of_natAbs_le {n : Int} (h : n.natAbs ≤ twoPow 256) : isWritable n = true := by
  have hbase : twoPow 256 ≤ tenPow 256 := Nat.pow_le_pow_left (by decide) 256
  have hlimit : 256 < numeralLimit := by decide
  exact decide_eq_true (Nat.lt_of_le_of_lt h (Nat.lt_of_le_of_lt hbase (tenPow_lt_tenPow hlimit)))

/-! ## Digits of any script -/

theorem digitValue?_eq_some {c : Char} {d : Nat} (h : digitValue? c = some d) :
    ∃ z ∈ zeros, z ≤ c.toNat ∧ c.toNat < z + 10 ∧ c.toNat - z = d := by
  obtain ⟨z, hz, hd⟩ := Option.map_eq_some_iff.mp h
  have hrun := List.find?_some hz
  simp only [Bool.and_eq_true, decide_eq_true_eq] at hrun
  exact ⟨z, List.mem_of_find?_eq_some hz, hrun.1, hrun.2, hd⟩

theorem digitValue?_lt {c : Char} {d : Nat} (h : digitValue? c = some d) : d < 10 := by
  obtain ⟨z, -, -, hlt, hd⟩ := digitValue?_eq_some h
  omega

/-- No run of digits meets a range of blanks. -/
theorem zeros_apart_spaces : ∀ z ∈ zeros, ∀ r ∈ (0x1C, 0x1F) :: spaces, z + 10 ≤ r.1 ∨ r.2 < z := by decide

theorem isBlank_iff {c : Char} : isBlank c = true ↔
    ∃ r ∈ (0x1C, 0x1F) :: spaces, r.1 ≤ c.toNat ∧ c.toNat ≤ r.2 := by
  simp only [isBlank, isSpace, CharSet.contains, Bool.or_eq_true, List.any_eq_true, Bool.and_eq_true,
    decide_eq_true_eq, List.exists_mem_cons_iff]
  exact or_comm

theorem isBlank_of_isDigit {c : Char} (h : isDigit c = true) : isBlank c = false := by
  obtain ⟨d, hd⟩ := Option.isSome_iff_exists.mp h
  obtain ⟨z, hz, hle, hlt, -⟩ := digitValue?_eq_some hd
  rw [Bool.eq_false_iff]
  intro hblank
  obtain ⟨r, hr, hlow, hhigh⟩ := isBlank_iff.mp hblank
  rcases zeros_apart_spaces z hz r hr with happart | happart
  · omega
  · omega

theorem digitValue?_of_ascii {c : Char} (h : c.isDigit = true) : digitValue? c = some (c.toNat - 48) := by
  obtain ⟨hlow, hhigh⟩ : 48 ≤ c.toNat ∧ c.toNat ≤ 57 := Char.isDigit_iff_toNat.mp h
  rw [digitValue?, zeros, List.find?_cons_of_pos]
  · rfl
  · simp only [Bool.and_eq_true, decide_eq_true_eq]
    omega

/-! ## Numbers

The first places of digits behind a point are a quotient of what all of them
write. -/

theorem foldl_digits_eq (base : Nat) (ds : List Nat) (n : Nat) :
    ds.foldl (fun n d => base * n + d) n = n * base ^ ds.length + ofDigits base ds := by
  induction ds generalizing n with
  | nil => simp [ofDigits]
  | cons d ds ih =>
    rw [ofDigits, List.foldl_cons, List.foldl_cons, ih, ih (base * 0 + d), List.length_cons]
    ring

theorem ofDigits_append (base : Nat) (xs ys : List Nat) :
    ofDigits base (xs ++ ys) = ofDigits base xs * base ^ ys.length + ofDigits base ys := by
  rw [ofDigits, List.foldl_append, foldl_digits_eq base ys]
  rfl

theorem ofDigits_zeros (base n : Nat) : ofDigits base (List.replicate n 0) = 0 := by
  induction n with
  | zero => rfl
  | succ n ih => rw [List.replicate_succ', ofDigits_append, ih, Nat.zero_mul]; rfl

theorem ofDigits_ascii (cs : List Char) : ofDigits 10 (cs.map (·.toNat - 48)) = Nat.ofDigitChars 10 cs 0 := by
  rw [ofDigits, List.foldl_map, Nat.ofDigitChars_eq_foldl]
  rfl

/-- The digits behind a point, cut or filled with zeros up to a number of places. -/
def fitted (places : Nat) (fs : List Nat) : List Nat :=
  fs.take places ++ List.replicate (places - (fs.take places).length) 0

theorem ofDigits_fitted_of_le {fs : List Nat} (h : ∀ d ∈ fs, d < 10) (ws : List Nat) {places : Nat}
    (hle : places ≤ fs.length) :
    ofDigits 10 (ws ++ fitted places fs) = ofDigits 10 (ws ++ fs) / 10 ^ (fs.length - places) := by
  have hcut : ofDigits 10 (ws ++ fs) =
      ofDigits 10 (ws ++ fs.take places) * 10 ^ (fs.length - places) + ofDigits 10 (fs.drop places) := by
    rw [← List.length_drop, ← ofDigits_append, List.append_assoc, List.take_append_drop]
  have hlt : ofDigits 10 (fs.drop places) < 10 ^ (fs.length - places) := by
    rw [← List.length_drop]
    exact ofDigits_lt fun d hd => h d (List.mem_of_mem_drop hd)
  rw [fitted, List.length_take_of_le hle, Nat.sub_self, List.replicate_zero, List.append_nil, hcut,
    Nat.mul_comm, Nat.mul_add_div (Nat.pow_pos (by decide)), Nat.div_eq_of_lt hlt, Nat.add_zero]

theorem ofDigits_fitted_of_ge (ws : List Nat) {fs : List Nat} {places : Nat} (hle : fs.length ≤ places) :
    ofDigits 10 (ws ++ fitted places fs) = ofDigits 10 (ws ++ fs) * 10 ^ (places - fs.length) := by
  rw [fitted, List.take_of_length_le hle, ← List.append_assoc, ofDigits_append, ofDigits_zeros,
    List.length_replicate, Nat.add_zero]

/-- The number is taken to the places, and what is left of it is dropped. -/
theorem ofDigits_fitted {fs : List Nat} (h : ∀ d ∈ fs, d < 10) (ws : List Nat) (places : Nat) :
    ofDigits 10 (ws ++ fitted places fs) = ofDigits 10 (ws ++ fs) * 10 ^ places / 10 ^ fs.length := by
  rcases Nat.le_total places fs.length with hle | hle
  · rw [ofDigits_fitted_of_le h ws hle, ← Nat.mul_div_mul_right _ _ (Nat.pow_pos (by decide) : 0 < 10 ^ places),
      ← pow_add, Nat.sub_add_cancel hle]
  · rw [ofDigits_fitted_of_ge ws hle, ← Nat.sub_add_cancel hle, pow_add, ← Nat.mul_assoc,
      Nat.mul_div_cancel _ (Nat.pow_pos (by decide)), Nat.add_sub_cancel]

/-! ## Trimming -/

variable {p : Char → Bool}

theorem exists_dropRightWhile (p : Char → Bool) (cs : List Char) :
    ∃ ws, cs = dropRightWhile p cs ++ ws ∧ ∀ c ∈ ws, p c = true := by
  refine ⟨(cs.reverse.takeWhile p).reverse, ?_, fun c hc => List.mem_takeWhile_imp (List.mem_reverse.mp hc)⟩
  rw [dropRightWhile, ← List.reverse_append, List.takeWhile_append_dropWhile, List.reverse_reverse]

theorem exists_trimBy (p : Char → Bool) (cs : List Char) :
    ∃ before after, cs = before ++ trimBy p cs ++ after ∧ ∀ c ∈ before ++ after, p c = true := by
  obtain ⟨after, hsplit, hafter⟩ := exists_dropRightWhile p (cs.dropWhile p)
  refine ⟨cs.takeWhile p, after, ?_, ?_⟩
  · rw [List.append_assoc, trimBy, ← hsplit, List.takeWhile_append_dropWhile]
  · exact List.forall_mem_append.mpr ⟨fun c hc => List.mem_takeWhile_imp hc, hafter⟩

theorem dropWhile_eq_self {cs : List Char} (h : ∀ c ∈ cs, p c = false) : cs.dropWhile p = cs := by
  cases cs with
  | nil => rfl
  | cons c cs => exact List.dropWhile_cons_of_neg (by rw [h c (List.mem_cons_self ..)]; decide)

theorem dropRightWhile_append {cs after : List Char} (h : ∀ c ∈ cs, p c = false) (ha : ∀ c ∈ after, p c = true) :
    dropRightWhile p (cs ++ after) = cs := by
  rw [dropRightWhile, List.reverse_append, List.dropWhile_append_of_pos fun c hc => ha c (List.mem_reverse.mp hc),
    dropWhile_eq_self fun c hc => h c (List.mem_reverse.mp hc), List.reverse_reverse]

theorem trimBy_append {before cs after : List Char} (h : ∀ c ∈ cs, p c = false)
    (hblank : ∀ c ∈ before ++ after, p c = true) : trimBy p (before ++ cs ++ after) = cs := by
  obtain ⟨hbefore, hafter⟩ := List.forall_mem_append.mp hblank
  rw [trimBy, List.append_assoc, List.dropWhile_append_of_pos hbefore]
  cases cs with
  | nil =>
    rw [List.nil_append, List.dropWhile_eq_nil_iff.mpr hafter]
    rfl
  | cons c cs =>
    rw [List.cons_append, List.dropWhile_cons_of_neg (by rw [h c (List.mem_cons_self ..)]; decide),
      ← List.cons_append]
    exact dropRightWhile_append h hafter

end DefiActions.Text
