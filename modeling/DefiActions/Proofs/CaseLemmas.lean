import DefiActions.Proofs.HexLemmas
import DefiActions.Text.Case

/-!
# Lowercase text

Lowering a text twice is lowering it once: no image of the lowercase mapping is
mapped any further. The table is looked at run by run; images of one run lie
outside every other run, or fall between its code points.
-/

namespace DefiActions.Text

namespace CaseRun

def last (r : CaseRun) : Nat := r.first + (r.count - 1) * r.step

/-- No image of `r` is a code point of `q`: they lie before or behind it, or between its code points. -/
def misses (r q : CaseRun) : Bool :=
  match r.shift with
  | .ofNat k =>
    (r.last + k).blt q.first || q.last.blt (r.first + k) ||
      (q.step == 2 && (r.step == 2 || r.count == 1) && (r.first + k + q.first) % 2 == 1)
  | .negSucc k =>
    r.last.blt (q.first + (k + 1)) || (q.last + (k + 1)).blt r.first ||
      (q.step == 2 && (r.step == 2 || r.count == 1) && (r.first + q.first + (k + 1)) % 2 == 1)

def missesExpansion (r : CaseRun) : Bool :=
  decide ((r.last : Int) + r.shift < 0x130) || decide ((0x130 : Int) < r.first + r.shift)

def hasSmallStep (r : CaseRun) : Bool := decide (r.step = 1) || decide (r.step = 2)

theorem of_contains {r : CaseRun} {n : Nat} (hs : r.hasSmallStep = true) (h : r.contains n = true) :
    r.first ≤ n ∧ n ≤ r.last ∧ (r.step = 2 → (n - r.first) % 2 = 0) ∧ (r.count = 1 → n = r.first) := by
  simp only [contains, hasSmallStep, Bool.and_eq_true, Bool.or_eq_true, decide_eq_true_eq, beq_iff_eq] at h hs
  obtain ⟨⟨hf, hm⟩, hc⟩ := h
  unfold last
  rcases hs with hs | hs <;> rw [hs] at hm hc ⊢ <;> omega

theorem misses_sound {r q : CaseRun} {n m : Nat} (hr : r.hasSmallStep = true) (hq : q.hasSmallStep = true)
    (h : r.misses q = true) (hn : r.contains n = true) (hm : (m : Int) = n + r.shift) : q.contains m = false := by
  rw [Bool.eq_false_iff]
  intro hc
  obtain ⟨r1, r2, r3, r4⟩ := of_contains hr hn
  obtain ⟨q1, q2, q3, -⟩ := of_contains hq hc
  -- The image lies before the run, behind it, or on the other parity.
  cases hk : r.shift
  all_goals
    simp only [misses, hk, Bool.or_eq_true, Bool.and_eq_true, beq_iff_eq, Nat.blt_eq] at h
    simp only [hk, Int.ofNat_eq_natCast, Int.negSucc_eq] at hm
    rcases h with (h | h) | ⟨⟨h2, h3 | h3⟩, h4⟩
    · omega
    · omega
    · have := r3 h3
      have := q3 h2
      omega
    · have := r4 h3
      have := q3 h2
      omega

theorem missesExpansion_sound {r : CaseRun} {n : Nat} (hr : r.hasSmallStep = true) (h : r.missesExpansion = true)
    (hn : r.contains n = true) : (n : Int) + r.shift ≠ 0x130 := by
  obtain ⟨r1, r2, -, -⟩ := of_contains hr hn
  simp only [missesExpansion, Bool.or_eq_true, decide_eq_true_eq] at h
  omega

end CaseRun

/-! ## The lowercase table -/

theorem lowerRuns_hasSmallStep : ∀ r ∈ lowerRuns, r.hasSmallStep = true := by decide +kernel

theorem lowerRuns_first_pos : ∀ r ∈ lowerRuns, 0 < r.first := by decide +kernel

theorem lowerRuns_missesExpansion : ∀ r ∈ lowerRuns, r.missesExpansion = true := by decide +kernel

theorem lowerRuns_all_misses : (lowerRuns.all fun r => lowerRuns.all r.misses) = true := by decide +kernel

theorem lowerRuns_misses {r q : CaseRun} (hr : r ∈ lowerRuns) (hq : q ∈ lowerRuns) : r.misses q = true :=
  List.all_eq_true.mp (List.all_eq_true.mp lowerRuns_all_misses r hr) q hq

def IsLow (c : Char) : Prop := c.toNat ≠ 0x130 ∧ ∀ r ∈ lowerRuns, r.contains c.toNat = false

/-- The same as one test, which goes through the table without a proof for each run. -/
def isLow (c : Char) : Bool := c.toNat != 0x130 && lowerRuns.all fun r => !r.contains c.toNat

theorem isLow_eq_true {c : Char} : isLow c = true ↔ IsLow c := by
  simp [isLow, IsLow]

instance (c : Char) : Decidable (IsLow c) := decidable_of_iff _ isLow_eq_true

theorem lookup_lowerExpansions {n : Nat} (h : n ≠ 0x130) : lowerExpansions.lookup n = none := by
  have : (n == 0x130) = false := by simpa using h
  simp [lowerExpansions, List.lookup_cons, this]

theorem apply_of_isLow {c : Char} (h : IsLow c) : CaseRun.apply lowerRuns c = c := by
  have : lowerRuns.find? (·.contains c.toNat) = none := by
    rw [List.find?_eq_none]
    intro r hr
    simp [h.2 r hr]
  simp only [CaseRun.apply, this]

theorem lowerChar_of_isLow {c : Char} (h : IsLow c) : lowerChar c = [c] := by
  simp only [lowerChar, lookup_lowerExpansions h.1, apply_of_isLow h]

theorem toNat_ofNat (n : Nat) : (Char.ofNat n).toNat = n ∨ (Char.ofNat n).toNat = 0 := by
  by_cases h : n.isValidChar
  · rw [Char.ofNat, dif_pos h]
    exact Or.inl rfl
  · rw [Char.ofNat, dif_neg h]
    exact Or.inr rfl

theorem exists_of_ascii {c : Char} (h : c.toNat < 128) : ∃ n < 128, Char.ofNat n = c := ⟨_, h, c.ofNat_toNat⟩

theorem isLow_of_toNat_eq_zero {c : Char} (h : c.toNat = 0) : IsLow c := by
  rw [IsLow, h]
  refine ⟨by decide, fun q hq => ?_⟩
  have := lowerRuns_first_pos q hq
  simp only [CaseRun.contains, Bool.and_eq_false_iff, decide_eq_false_iff_not]
  left; left; omega

theorem isLow_apply {c : Char} (hc : c.toNat ≠ 0x130) : IsLow (CaseRun.apply lowerRuns c) := by
  unfold CaseRun.apply
  split
  · rename_i r hf
    have hr := List.mem_of_find?_eq_some hf
    have hn : r.contains c.toNat = true := by simpa using List.find?_some hf
    have hs := lowerRuns_hasSmallStep r hr
    rcases toNat_ofNat ((c.toNat : Int) + r.shift).toNat with e | e
    · by_cases h0 : 0 ≤ (c.toNat : Int) + r.shift
      · rw [IsLow, e]
        have := CaseRun.missesExpansion_sound hs (lowerRuns_missesExpansion r hr) hn
        exact ⟨by omega, fun q hq =>
          CaseRun.misses_sound hs (lowerRuns_hasSmallStep q hq) (lowerRuns_misses hr hq) hn (by omega)⟩
      · exact isLow_of_toNat_eq_zero (by omega)
    · exact isLow_of_toNat_eq_zero e
  · rename_i hf
    refine ⟨hc, fun r hr => ?_⟩
    simpa using List.find?_eq_none.mp hf r hr

theorem not_isLow_sigma : ¬ IsLow 'Σ' := by decide

theorem not_capital_of_isLow {c : Char} (h : IsLow c) : ¬ ('A' ≤ c ∧ c ≤ 'Z') := by
  rintro ⟨h1, h2⟩
  rw [char_le_iff] at h1 h2
  have := h.2 ⟨0x41, 26, 1, 32⟩ (List.mem_cons_self ..)
  simp only [CaseRun.contains, Char.reduceToNat] at this h1 h2
  simp [Nat.mod_one] at this
  omega

theorem isLow_lowerChar {c : Char} {d : Char} (h : d ∈ lowerChar c) : IsLow d := by
  unfold lowerChar at h
  by_cases hc : c.toNat = 0x130
  · have hfirst : IsLow (Char.ofNat 0x69) := by decide
    have hsecond : IsLow (Char.ofNat 0x307) := by decide
    rw [hc] at h
    have h : d ∈ [Char.ofNat 0x69, Char.ofNat 0x307] := h
    simp only [List.mem_cons, List.not_mem_nil, or_false] at h
    rcases h with rfl | rfl
    · exact hfirst
    · exact hsecond
  · rw [lookup_lowerExpansions hc] at h
    rw [List.mem_singleton.mp h]
    exact isLow_apply hc

theorem isLow_lowerSigma (before after : List Char) : IsLow (lowerSigma before after) := by
  unfold lowerSigma
  split <;> decide

theorem isLow_lowerFrom {before cs : List Char} {d : Char} (h : d ∈ lowerFrom before cs) : IsLow d := by
  induction cs generalizing before with
  | nil => cases h
  | cons c cs ih =>
    rw [lowerFrom, List.mem_append] at h
    rcases h with h | h
    · split at h
      · rw [List.mem_singleton.mp h]; exact isLow_lowerSigma _ _
      · exact isLow_lowerChar h
    · exact ih h

theorem isLow_lower {cs : List Char} {d : Char} (h : d ∈ lower cs) : IsLow d := isLow_lowerFrom h

theorem lowerFrom_of_isLow (before : List Char) {cs : List Char} (h : ∀ c ∈ cs, IsLow c) :
    lowerFrom before cs = cs := by
  induction cs generalizing before with
  | nil => rfl
  | cons c cs ih =>
    have hc := h c (List.mem_cons_self ..)
    have hs : c ≠ 'Σ' := by rintro rfl; exact not_isLow_sigma hc
    rw [lowerFrom, if_neg hs, lowerChar_of_isLow hc, ih _ fun d hd => h d (List.mem_cons_of_mem _ hd)]
    rfl

theorem lower_of_isLow {cs : List Char} (h : ∀ c ∈ cs, IsLow c) : lower cs = cs := lowerFrom_of_isLow [] h

/-! ## Hexadecimal digits -/

theorem isLow_digit : ∀ n < 16, IsLow (Hex.digit n) := by decide

theorem isLow_ofBytes {bs : Bytes} {c : Char} (h : c ∈ Hex.ofBytes bs) : IsLow c := by
  obtain ⟨n, hn, rfl⟩ := Hex.mem_ofBytes h
  exact isLow_digit n hn

end DefiActions.Text
