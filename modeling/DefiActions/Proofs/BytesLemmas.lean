import DefiActions.Bytes
import DefiActions.Hash

/-!
# Numbers in base 256

`Bytes.ofNat` and `Bytes.toNat` are inverse to each other on numbers that fit
and on octets of one length, and so are the two's complement readings.
Numbers of one length compare as their octets do, from the front.
-/

namespace DefiActions.Bytes

@[simp] theorem capacity_zero : capacity 0 = 1 := rfl

theorem capacity_succ (n : Nat) : capacity (n + 1) = 256 * capacity n := by
  unfold capacity
  rw [Nat.pow_eq, Nat.pow_eq, Nat.pow_succ, Nat.mul_comm]

theorem capacity_pos (n : Nat) : 0 < capacity n := by
  induction n with
  | zero => exact Nat.one_pos
  | succ n ih => rw [capacity_succ]; omega

/-! ## Reading -/

@[simp] theorem toNat_nil : toNat [] = 0 := rfl

theorem toNat_snoc (bs : Bytes) (b : UInt8) : toNat (bs ++ [b]) = 256 * toNat bs + b.toNat := by
  unfold toNat
  rw [List.foldl_append]
  rfl

theorem foldl_toNat (bs : Bytes) (n : Nat) :
    bs.foldl (fun n b => 256 * n + b.toNat) n = n * capacity bs.length + toNat bs := by
  induction bs generalizing n with
  | nil => simp
  | cons b bs ih =>
    have e : toNat (b :: bs) = bs.foldl (fun n b => 256 * n + b.toNat) (256 * 0 + b.toNat) := rfl
    rw [List.foldl_cons, e, ih, ih, List.length_cons, capacity_succ, Nat.mul_zero, Nat.zero_add, Nat.add_mul,
      Nat.mul_comm 256 n, Nat.mul_assoc, Nat.add_assoc]

theorem toNat_cons (b : UInt8) (bs : Bytes) : toNat (b :: bs) = b.toNat * capacity bs.length + toNat bs := by
  have h := foldl_toNat bs (256 * 0 + b.toNat)
  rw [Nat.mul_zero, Nat.zero_add] at h
  unfold toNat at h ⊢
  rw [List.foldl_cons, Nat.mul_zero, Nat.zero_add, h]

theorem toNat_append (xs ys : Bytes) : toNat (xs ++ ys) = toNat xs * capacity ys.length + toNat ys := by
  unfold toNat
  rw [List.foldl_append, foldl_toNat]
  rfl

theorem toNat_lt (bs : Bytes) : toNat bs < capacity bs.length := by
  induction bs with
  | nil => exact Nat.one_pos
  | cons b bs ih =>
    have hb := b.toNat_lt
    rw [toNat_cons, List.length_cons, capacity_succ]
    have h : (b.toNat + 1) * capacity bs.length ≤ 256 * capacity bs.length := Nat.mul_le_mul_right _ (by omega)
    rw [Nat.add_mul] at h
    omega

@[simp] theorem toNat_zeros (n : Nat) : toNat (zeros n) = 0 := by
  induction n with
  | zero => rfl
  | succ n ih =>
    have e : zeros (n + 1) = 0 :: zeros n := List.replicate_succ
    rw [e, toNat_cons, ih]
    simp

@[simp] theorem length_zeros (n : Nat) : (zeros n).length = n := List.length_replicate

/-! ## Writing -/

theorem toNat_ofNat (width n : Nat) : toNat (ofNat width n) = n % capacity width := by
  induction width generalizing n with
  | zero => simp [ofNat, Nat.mod_one]
  | succ width ih =>
    have hb : (UInt8.ofNat (n % 256)).toNat = n % 256 := by
      rw [UInt8.toNat_ofNat']
      omega
    rw [ofNat, toNat_snoc, ih, hb, capacity_succ, Nat.mod_mul]
    omega

theorem toNat_ofNat_of_lt {width n : Nat} (h : n < capacity width) : toNat (ofNat width n) = n := by
  rw [toNat_ofNat, Nat.mod_eq_of_lt h]

theorem ofNat_toNat_of_length : ∀ (width : Nat) (bs : Bytes), bs.length = width → ofNat width (toNat bs) = bs
  | 0, bs, h => by rw [List.eq_nil_of_length_eq_zero h]; rfl
  | width + 1, bs, h => by
    rcases List.eq_nil_or_concat bs with h0 | ⟨xs, b, rfl⟩
    · rw [h0] at h; cases h
    have hb := b.toNat_lt
    rw [List.concat_eq_append] at h ⊢
    have hx : xs.length = width := by simpa using h
    rw [ofNat, toNat_snoc, show (256 * toNat xs + b.toNat) / 256 = toNat xs by omega,
      show (256 * toNat xs + b.toNat) % 256 = b.toNat by omega, ofNat_toNat_of_length width xs hx,
      UInt8.ofNat_toNat]

@[simp] theorem ofNat_toNat (bs : Bytes) : ofNat bs.length (toNat bs) = bs := ofNat_toNat_of_length _ bs rfl

theorem toNat_inj {xs ys : Bytes} (hl : xs.length = ys.length) (h : toNat xs = toNat ys) : xs = ys := by
  rw [← ofNat_toNat xs, ← ofNat_toNat ys, hl, h]

/-- A number that needs fewer octets is written with zeros in front. -/
theorem eq_zeros_append {k : Nat} {bs : Bytes} (hk : k ≤ bs.length) (h : toNat bs < capacity (bs.length - k)) :
    bs = zeros k ++ bs.drop k := by
  apply toNat_inj
  · simp; omega
  have e : toNat bs = toNat (bs.take k) * capacity (bs.drop k).length + toNat (bs.drop k) := by
    rw [← toNat_append, List.take_append_drop]
  rw [List.length_drop] at e
  have hz : toNat (bs.take k) = 0 := by
    rcases Nat.eq_zero_or_pos (toNat (bs.take k)) with h0 | h0
    · exact h0
    have := Nat.le_mul_of_pos_left (capacity (bs.length - k)) h0
    omega
  rw [toNat_append, toNat_zeros, e, hz]
  simp

/-! ## Two's complement -/

theorem toInt_ofInt {width : Nat} {n : Int} (lo : -(capacity width : Int) ≤ 2 * n) (hi : 2 * n < capacity width) :
    toInt (ofInt width n) = n := by
  have hc := capacity_pos width
  unfold toInt ofInt
  rw [length_ofNat, toNat_ofNat]
  by_cases h : 0 ≤ n
  · have e : n % (capacity width : Int) = n := Int.emod_eq_of_lt h (by omega)
    rw [e, Nat.mod_eq_of_lt (by omega), if_pos (by omega)]
    omega
  · have e : n % (capacity width : Int) = n + capacity width := by
      rw [← Int.add_emod_right, Int.emod_eq_of_lt (by omega) (by omega)]
    rw [e, Nat.mod_eq_of_lt (by omega), if_neg (by omega)]
    omega

theorem toInt_bounds (bs : Bytes) :
    -(capacity bs.length : Int) ≤ 2 * toInt bs ∧ 2 * toInt bs < capacity bs.length := by
  have := toNat_lt bs
  unfold toInt
  split <;> omega

@[simp] theorem ofInt_toInt (bs : Bytes) : ofInt bs.length (toInt bs) = bs := by
  have hlt := toNat_lt bs
  have e : (toInt bs % (capacity bs.length : Int)).toNat = toNat bs := by
    unfold toInt
    split
    · rw [Int.emod_eq_of_lt (by omega) (by omega)]; omega
    · rw [Int.sub_emod_right, Int.emod_eq_of_lt (by omega) (by omega)]; omega
  rw [ofInt, e, ofNat_toNat]

theorem ofInt_natCast {width n : Nat} (h : n < capacity width) : ofInt width (n : Int) = ofNat width n := by
  have e : ((n : Int) % (capacity width : Int)).toNat = n := by
    rw [Int.emod_eq_of_lt (by omega) (by omega), Int.toNat_natCast]
  rw [ofInt, e]

theorem ofInt_toNat (bs : Bytes) : ofInt bs.length (toNat bs : Int) = bs := by
  rw [ofInt_natCast (toNat_lt bs), ofNat_toNat]

/-! ## Words -/

@[simp] theorem length_word (n : Nat) : (word n).length = wordSize := length_ofNat _ _

theorem toNat_word {n : Nat} (h : n < capacity wordSize) : toNat (word n) = n := toNat_ofNat_of_lt h

theorem word_toNat {w : Bytes} (h : w.length = wordSize) : word (toNat w) = w := ofNat_toNat_of_length _ w h

theorem le_ceilWord (n : Nat) : n ≤ ceilWord n := by
  unfold ceilWord; omega

@[simp] theorem length_padded (bs : Bytes) : (padded bs).length = ceilWord bs.length := by
  have := le_ceilWord bs.length
  simp [padded]
  omega

/-! ## Order -/

theorem toNat_lt_iff : ∀ {xs ys : Bytes}, xs.length = ys.length → (toNat xs < toNat ys ↔ xs < ys)
  | [], [], _ => by simp
  | x :: xs, y :: ys, h => by
    have hl : xs.length = ys.length := by simpa using h
    have ih := toNat_lt_iff hl
    have hx := toNat_lt xs
    have hy := toNat_lt ys
    rw [hl] at hx
    rw [List.cons_lt_cons_iff, ← ih, toNat_cons, toNat_cons, hl, UInt8.lt_iff_toNat_lt]
    rcases Nat.lt_trichotomy x.toNat y.toNat with hlt | heq | hgt
    · have : (x.toNat + 1) * capacity ys.length ≤ y.toNat * capacity ys.length := Nat.mul_le_mul_right _ hlt
      rw [Nat.add_mul] at this
      exact ⟨fun _ => Or.inl hlt, fun _ => by omega⟩
    · have e : x = y := UInt8.toNat_inj.mp heq
      subst e
      simp
    · have : (y.toNat + 1) * capacity ys.length ≤ x.toNat * capacity ys.length := Nat.mul_le_mul_right _ hgt
      rw [Nat.add_mul] at this
      refine ⟨fun _ => by omega, ?_⟩
      rintro (h1 | ⟨rfl, -⟩)
      · omega
      · omega

end DefiActions.Bytes

namespace DefiActions.Keccak

/-! ## Lengths of hashes

Every step of the permutation keeps the 25 lanes, so that the first four of them
are always there to be written. -/

theorem size_build (f : Nat → Nat → UInt64) : (build f).size = 25 := by simp [build]

theorem size_iota (s : Lanes) (c : UInt64) : (iota s c).size = s.size := by simp [iota]

/-- No round changes the number of lanes. -/
theorem size_permute {s : Lanes} (h : s.size = 25) : (permute s).size = 25 := by
  have hround : ∀ cs : List UInt64, ∀ s : Lanes, s.size = 25 →
      (cs.foldl (fun s c => iota (chi (rhoPi (theta s))) c) s).size = 25 := by
    intro cs
    induction cs with
    | nil => exact fun s h => h
    | cons c cs ih => exact fun s _ => ih _ ((size_iota _ _).trans (size_build _))
  exact hround roundConstants s h

theorem size_absorb {s : Lanes} (h : s.size = 25) (block : Bytes) : (absorb s block).size = 25 :=
  size_permute (by rw [Array.size_mapIdx, h])

theorem size_absorbAll (count : Nat) (bs : Bytes) {s : Lanes} (h : s.size = 25) :
    (absorbAll count bs s).size = 25 := by
  induction count generalizing bs s with
  | zero => exact h
  | succ count ih => exact ih _ (size_absorb h _)

@[simp] theorem length_toOctets (w : UInt64) : (toOctets w).length = 8 := by simp [toOctets]

@[simp] theorem length_hash (bs : Bytes) : (hash bs).length = 32 := by
  have hs : (absorbAll ((pad bs).length / rate) (pad bs) (Array.replicate 25 0)).size = 25 :=
    size_absorbAll _ _ Array.size_replicate
  simp [hash, List.length_flatMap, List.map_const', hs]

end DefiActions.Keccak
