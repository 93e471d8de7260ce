import DefiActions.Bytes
import DefiActions.Proofs.BytesLemmas
import DefiActions.Proofs.ExceptLemmas

/-!
# Hexadecimal text

Octets are read back from the digits that write them. In the other direction,
a text with twice as many characters as it writes octets has no gaps, so its
digits are the written ones up to letter case. Digits of one length compare as
the numbers they write do.
-/

namespace DefiActions

theorem char_le_iff (a b : Char) : a ≤ b ↔ a.toNat ≤ b.toNat := by
  rw [Char.le_def, UInt32.le_iff_toNat_le]
  rfl

theorem string_lt_iff (s t : String) : s < t ↔ s.toList < t.toList := Iff.rfl

namespace Hex

/-! ## Digits -/

theorem digitValue?_digit : ∀ n < 16, digitValue? (digit n) = some n := by decide

theorem digit_lt_iff : ∀ m < 16, ∀ n < 16, (digit m < digit n ↔ m < n) := by decide

theorem isGap_digit : ∀ n < 16, isGap (digit n) = false := by decide

theorem digit_toNat_lt : ∀ n < 16, (digit n).toNat < 128 := by decide

theorem digit_inj {m n : Nat} (hm : m < 16) (hn : n < 16) (h : digit m = digit n) : m = n := by
  have := digitValue?_digit m hm
  rw [h, digitValue?_digit n hn] at this
  exact (Option.some.inj this).symm

theorem digitValue?_lt {c : Char} {n : Nat} (h : digitValue? c = some n) : n < 16 := by
  simp only [digitValue?, char_le_iff, Char.reduceToNat] at h
  split at h
  · simp only [Option.some.injEq] at h; omega
  split at h
  · simp only [Option.some.injEq] at h; omega
  split at h
  · simp only [Option.some.injEq] at h; omega
  · cases h

theorem digit_of_digitValue? {c : Char} {n : Nat} (h : digitValue? c = some n) (hc : ¬ ('A' ≤ c ∧ c ≤ 'Z')) :
    digit n = c := by
  simp only [digitValue?, char_le_iff, Char.reduceToNat] at h hc
  unfold digit
  split at h
  · simp only [Option.some.injEq] at h
    rw [if_pos (by omega), show 48 + n = c.toNat by omega, Char.ofNat_toNat]
  split at h
  · simp only [Option.some.injEq] at h
    rw [if_neg (by omega), show 87 + n = c.toNat by omega, Char.ofNat_toNat]
  split at h
  · omega
  · cases h

def lowerDigit (c : Char) : Char := digit ((digitValue? c).getD 0)

theorem lowerDigit_of_not_capital {c : Char} (hd : isDigit c = true) (hc : ¬ ('A' ≤ c ∧ c ≤ 'Z')) :
    lowerDigit c = c := by
  obtain ⟨n, hn⟩ := Option.isSome_iff_exists.mp hd
  rw [lowerDigit, hn, Option.getD_some, digit_of_digitValue? hn hc]

/-! ## Octets -/

theorem octet_halves (b : UInt8) : b.toNat / 16 < 16 ∧ b.toNat % 16 < 16 := by
  have := b.toNat_lt
  omega

@[simp] theorem ofBytes_nil : ofBytes [] = [] := rfl

theorem ofBytes_cons (b : UInt8) (bs : Bytes) :
    ofBytes (b :: bs) = digit (b.toNat / 16) :: digit (b.toNat % 16) :: ofBytes bs := rfl

@[simp] theorem length_ofBytes (bs : Bytes) : (ofBytes bs).length = 2 * bs.length := by
  induction bs with
  | nil => rfl
  | cons b bs ih => rw [ofBytes_cons, List.length_cons, List.length_cons, ih, List.length_cons]; omega

theorem mem_ofBytes {bs : Bytes} {c : Char} (h : c ∈ ofBytes bs) : ∃ n < 16, c = digit n := by
  obtain ⟨b, -, hc⟩ := List.mem_flatMap.mp h
  have hb := octet_halves b
  simp only [octet, List.mem_cons, List.not_mem_nil, or_false] at hc
  rcases hc with rfl | rfl
  · exact ⟨_, hb.1, rfl⟩
  · exact ⟨_, hb.2, rfl⟩

theorem ofNat_halves (b : UInt8) : UInt8.ofNat (16 * (b.toNat / 16) + b.toNat % 16) = b := by
  rw [Nat.div_add_mod, UInt8.ofNat_toNat]

theorem pairs_of_isGap {ws : List Char} (h : ∀ c ∈ ws, isGap c = true) (pos : Nat) : pairs pos ws = .ok [] := by
  induction ws generalizing pos with
  | nil => rfl
  | cons c ws ih =>
    rw [List.forall_mem_cons] at h
    unfold pairs
    rw [if_pos h.1, ih h.2]

/-- Blanks behind the digits are not read. -/
theorem pairs_ofBytes_append (bs : Bytes) {ws : List Char} (h : ∀ c ∈ ws, isGap c = true) (pos : Nat) :
    pairs pos (ofBytes bs ++ ws) = .ok bs := by
  induction bs generalizing pos with
  | nil => exact pairs_of_isGap h pos
  | cons b bs ih =>
    obtain ⟨hi, lo⟩ := octet_halves b
    rw [ofBytes_cons]
    unfold pairs
    simp only [List.cons_append, isGap_digit _ hi, digitValue?_digit _ hi, digitValue?_digit _ lo, ih, ofNat_halves,
      Except.map, Bool.false_eq_true, ite_false]

theorem toNat_of_isGap {c : Char} (h : isGap c = true) : c.toNat < 128 := by
  simp only [isGap, Bool.or_eq_true, beq_iff_eq, Bool.and_eq_true, decide_eq_true_eq, char_le_iff,
    Char.reduceToNat] at h
  rcases h with rfl | h
  · decide
  · omega

theorem toBytes?_ofBytes_append (bs : Bytes) {ws : List Char} (h : ∀ c ∈ ws, isGap c = true) :
    toBytes? (ofBytes bs ++ ws) = .ok bs := by
  have hascii : (ofBytes bs ++ ws).findIdx? (128 ≤ ·.toNat) = none := by
    rw [List.findIdx?_eq_none_iff]
    intro c hc
    rcases List.mem_append.mp hc with hc | hc
    · obtain ⟨n, hn, rfl⟩ := mem_ofBytes hc
      simpa using digit_toNat_lt n hn
    · simpa using toNat_of_isGap (h c hc)
  simp only [toBytes?, hascii, pairs_ofBytes_append bs h]

theorem toBytes?_ofBytes (bs : Bytes) : toBytes? (ofBytes bs) = .ok bs := by
  simpa using @toBytes?_ofBytes_append bs [] nofun

theorem ofBytes_inj {xs ys : Bytes} (h : ofBytes xs = ofBytes ys) : xs = ys := by
  have := toBytes?_ofBytes xs
  rw [h, toBytes?_ofBytes] at this
  exact (Except.ok.inj this).symm

/-- Every octet takes up two digits; where nothing else stands, they are its digits. -/
theorem pairs_eq_ok {cs : List Char} {pos : Nat} {bs : Bytes} (h : pairs pos cs = .ok bs) :
    2 * bs.length ≤ cs.length ∧
      (cs.length = 2 * bs.length → (∀ c ∈ cs, isDigit c = true) ∧ cs.map lowerDigit = ofBytes bs) := by
  fun_induction pairs pos cs generalizing bs with
  | case1 => cases h; simp
  | case2 pos c rest hg ih =>
    -- A gap takes up a character, so that the digits are too few for the length.
    obtain ⟨hle, -⟩ := ih h
    rw [List.length_cons]
    exact ⟨by omega, fun e => absurd e (by omega)⟩
  | case3 | case4 | case5 => cases h
  | case6 pos c hg hi d rest hc lo hd ih =>
    obtain ⟨tail, ht, rfl⟩ : ∃ tail, pairs (pos + 2) rest = .ok tail ∧ UInt8.ofNat (16 * hi + lo) :: tail = bs := by
      cases hp : pairs (pos + 2) rest with
      | error _ => rw [hp] at h; cases h
      | ok tail => rw [hp] at h; exact ⟨tail, rfl, Except.ok.inj h⟩
    obtain ⟨hle, hall⟩ := ih ht
    have hi' := digitValue?_lt hc
    have lo' := digitValue?_lt hd
    have hb : (UInt8.ofNat (16 * hi + lo)).toNat = 16 * hi + lo := by
      rw [UInt8.toNat_ofNat']; omega
    simp only [List.length_cons]
    refine ⟨by omega, fun e => ?_⟩
    obtain ⟨hdig, heq⟩ := hall (by omega)
    refine ⟨?_, ?_⟩
    · intro x hx
      simp only [List.mem_cons] at hx
      rcases hx with rfl | rfl | hx
      · simp [isDigit, hc]
      · simp [isDigit, hd]
      · exact hdig x hx
    · rw [ofBytes_cons, hb, show (16 * hi + lo) / 16 = hi by omega, show (16 * hi + lo) % 16 = lo by omega]
      simp only [List.map_cons, heq, lowerDigit, hc, hd, Option.getD_some]

theorem pairs_of_toBytes? {cs : List Char} {bs : Bytes} (h : toBytes? cs = .ok bs) : pairs 0 cs = .ok bs := by
  unfold toBytes? at h
  split at h
  · cases h
  · exact h

/-- Digits without capitals and gaps are the written ones. -/
theorem eq_ofBytes {cs : List Char} {pos : Nat} {bs : Bytes} (h : pairs pos cs = .ok bs)
    (hl : cs.length = 2 * bs.length) (hc : ∀ c ∈ cs, ¬ ('A' ≤ c ∧ c ≤ 'Z')) : cs = ofBytes bs := by
  obtain ⟨hdig, heq⟩ := (pairs_eq_ok h).2 hl
  rw [← heq, List.map_congr_left fun c hm => lowerDigit_of_not_capital (hdig c hm) (hc c hm), List.map_id']

theorem isGap_of_pairs {ws : List Char} {pos : Nat} {bs : Bytes} (h : pairs pos ws = .ok bs)
    (hw : ∀ c ∈ ws, digitValue? c = none) : bs = [] ∧ ∀ c ∈ ws, isGap c = true := by
  induction ws generalizing pos with
  | nil =>
    cases h
    exact ⟨rfl, nofun⟩
  | cons c ws ih =>
    rw [List.forall_mem_cons] at hw
    unfold pairs at h
    split at h
    · rename_i hg
      obtain ⟨hbs, hall⟩ := ih h hw.2
      exact ⟨hbs, List.forall_mem_cons.mpr ⟨hg, hall⟩⟩
    · simp only [hw.1, reduceCtorEq] at h

/-- Where the text has no gap at first and then no digit, the octets are in its first part. -/
theorem pairs_append_eq_ok {ws : List Char} (hw : ∀ c ∈ ws, digitValue? c = none) : ∀ {xs : List Char} {pos : Nat}
    {bs : Bytes}, (∀ c ∈ xs, isGap c = false) → pairs pos (xs ++ ws) = .ok bs →
    (pairs pos xs = .ok bs ∧ xs.length = 2 * bs.length) ∧ ∀ c ∈ ws, isGap c = true
  | [], pos, bs, _, h => by
    obtain ⟨rfl, hg⟩ := isGap_of_pairs h hw
    exact ⟨⟨rfl, rfl⟩, hg⟩
  | [c], pos, bs, hx, h => by
    have hc := hx c (List.mem_singleton_self c)
    unfold pairs at h
    cases ws with
    | nil => cases hd : digitValue? c <;> simp [hc, hd] at h
    | cons d ws =>
      have hnone := hw d (List.mem_cons_self ..)
      cases hd : digitValue? c <;> simp [hc, hd, hnone] at h
  | c :: d :: xs, pos, bs, hx, h => by
    simp only [List.forall_mem_cons] at hx
    unfold pairs at h ⊢
    cases hc : digitValue? c with
    | none => simp [hx.1, hc] at h
    | some hi =>
      cases hd : digitValue? d with
      | none => simp [hx.1, hc, hd] at h
      | some lo =>
        simp only [List.cons_append, hx.1, hc, hd, Bool.false_eq_true, ite_false] at h ⊢
        obtain ⟨tail, ht, rfl⟩ := map_eq_ok.mp h
        obtain ⟨⟨hp, hl⟩, hg⟩ := pairs_append_eq_ok hw hx.2.2 ht
        exact ⟨⟨map_eq_ok.mpr ⟨tail, hp, rfl⟩, by simp only [List.length_cons, hl]; omega⟩, hg⟩

theorem toNat_of_isDigit {c : Char} (h : isDigit c = true) : 48 ≤ c.toNat ∧ c.toNat < 128 := by
  obtain ⟨n, hn⟩ := Option.isSome_iff_exists.mp h
  simp only [digitValue?, char_le_iff, Char.reduceToNat] at hn
  split at hn
  · omega
  split at hn
  · omega
  split at hn
  · omega
  · cases hn

theorem isGap_of_isDigit {c : Char} (h : isDigit c = true) : isGap c = false := by
  have := (toNat_of_isDigit h).1
  rw [Bool.eq_false_iff]
  intro hg
  simp only [isGap, Bool.or_eq_true, beq_iff_eq, Bool.and_eq_true, decide_eq_true_eq, char_le_iff,
    Char.reduceToNat] at hg
  rcases hg with rfl | hg
  · simp only [Char.reduceToNat] at this; omega
  · omega

theorem pairs_of_isDigit {n : Nat} : ∀ {cs : List Char} (pos : Nat), cs.length = 2 * n →
    (∀ c ∈ cs, isDigit c = true) → ∃ bs, pairs pos cs = .ok bs ∧ bs.length = n := by
  induction n with
  | zero =>
    intro cs pos hl _
    rw [List.length_eq_zero_iff.mp hl]
    exact ⟨[], rfl, rfl⟩
  | succ n ih =>
    intro cs pos hl h
    match cs, hl with
    | c :: d :: cs, hl =>
      simp only [List.mem_cons, forall_eq_or_imp] at h
      obtain ⟨hc, hd, h⟩ := h
      obtain ⟨bs, hbs, hlen⟩ := ih (pos + 2) (by simp only [List.length_cons] at hl; omega) h
      obtain ⟨hi, hhi⟩ := Option.isSome_iff_exists.mp hc
      obtain ⟨lo, hlo⟩ := Option.isSome_iff_exists.mp hd
      refine ⟨UInt8.ofNat (16 * hi + lo) :: bs, ?_, by rw [List.length_cons, hlen]⟩
      unfold pairs
      simp only [isGap_of_isDigit hc, hhi, hlo, hbs, Except.map, Bool.false_eq_true, ite_false]

/-- A text of twice as many characters writes octets without a gap where all of it is digits. -/
theorem exists_toBytes?_iff {cs : List Char} {n : Nat} (hl : cs.length = 2 * n) :
    (∃ bs, toBytes? cs = .ok bs ∧ bs.length = n) ↔ ∀ c ∈ cs, isDigit c = true := by
  constructor
  · rintro ⟨bs, h, rfl⟩
    exact ((pairs_eq_ok (pairs_of_toBytes? h)).2 hl).1
  · intro h
    have hascii : cs.findIdx? (128 ≤ ·.toNat) = none :=
      List.findIdx?_eq_none_iff.mpr fun c hc => by simpa using (toNat_of_isDigit (h c hc)).2
    simp only [toBytes?, hascii]
    exact pairs_of_isDigit 0 hl h

/-! ## Order -/

theorem ofBytes_lt_iff : ∀ {xs ys : Bytes}, xs.length = ys.length → (ofBytes xs < ofBytes ys ↔ xs < ys)
  | [], [], _ => by simp
  | x :: xs, y :: ys, h => by
    obtain ⟨hx, hx'⟩ := octet_halves x
    obtain ⟨hy, hy'⟩ := octet_halves y
    rw [ofBytes_cons, ofBytes_cons, List.cons_lt_cons_iff, List.cons_lt_cons_iff, List.cons_lt_cons_iff,
      ofBytes_lt_iff (by simpa using h), digit_lt_iff _ hx _ hy, digit_lt_iff _ hx' _ hy', UInt8.lt_iff_toNat_lt]
    constructor
    · rintro (h1 | ⟨h1, h2 | ⟨h2, h3⟩⟩)
      · left; omega
      · have := digit_inj hx hy h1
        left; omega
      · have := digit_inj hx hy h1
        have := digit_inj hx' hy' h2
        exact Or.inr ⟨UInt8.toNat_inj.mp (by omega), h3⟩
    · rintro (h1 | ⟨rfl, h2⟩)
      · rcases Nat.lt_or_ge (x.toNat / 16) (y.toNat / 16) with h2 | h2
        · exact Or.inl h2
        · have e : x.toNat / 16 = y.toNat / 16 := by omega
          exact Or.inr ⟨by rw [e], Or.inl (by omega)⟩
      · exact Or.inr ⟨rfl, Or.inr ⟨rfl, h2⟩⟩

/-! ## Literals -/

theorem toList_literal (bs : Bytes) : (literal bs).toList = '0' :: 'x' :: ofBytes bs := by
  simp [literal, text]

theorem literal_inj {xs ys : Bytes} (h : literal xs = literal ys) : xs = ys := by
  have := congrArg String.toList h
  rw [toList_literal, toList_literal] at this
  exact ofBytes_inj (by simpa using this)

theorem literal_lt_iff {xs ys : Bytes} (h : xs.length = ys.length) :
    literal xs < literal ys ↔ Bytes.toNat xs < Bytes.toNat ys := by
  rw [string_lt_iff, toList_literal, toList_literal, Bytes.toNat_lt_iff h, ← ofBytes_lt_iff h]
  simp

end Hex

end DefiActions
