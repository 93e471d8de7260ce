import DefiActions.Proofs.AddressSound
import DefiActions.Proofs.AbiStrict
import DefiActions.Proofs.AnswerSound

/-!
# Extended words

The value of a word takes up its last octets, and those in front of it only
extend it: with zeros, or with ones in front of a negative number. The words
that are read are the extended ones, so an answer of words is read exactly when
it starts with as many of them, and what is read is written as it stood there.
-/

namespace DefiActions

/-! ## Octets in front -/

namespace Bytes

def ones (n : Nat) : Bytes := List.replicate n 0xFF

@[simp] theorem length_ones (n : Nat) : (ones n).length = n := List.length_replicate

theorem toNat_ones (n : Nat) : toNat (ones n) + 1 = capacity n := by
  induction n with
  | zero => rfl
  | succ n ih =>
    have e : ones (n + 1) = 0xFF :: ones n := List.replicate_succ
    have h255 : (0xFF : UInt8).toNat = 255 := rfl
    rw [e, toNat_cons, length_ones, capacity_succ, h255]
    omega

theorem capacity_add (m n : Nat) : capacity (m + n) = capacity m * capacity n := Nat.pow_add 256 m n

def signs (n : Int) (k : Nat) : Bytes := if n < 0 then ones k else zeros k

@[simp] theorem length_signs (n : Int) (k : Nat) : (signs n k).length = k := by
  unfold signs
  split <;> simp

theorem signs_of_nonneg {n : Int} (h : 0 ≤ n) (k : Nat) : signs n k = zeros k := if_neg (by omega)

theorem signs_of_neg {n : Int} (h : n < 0) (k : Nat) : signs n k = ones k := if_pos h

/-- The number stays the same when its sign is repeated in front of it. -/
theorem toInt_signs_append (bs : Bytes) (k : Nat) : toInt (signs (toInt bs) k ++ bs) = toInt bs := by
  have hc := capacity_pos k
  have hl := toNat_lt bs
  have hones := toNat_ones k
  by_cases h : 2 * toNat bs < capacity bs.length
  · have hbs : toInt bs = toNat bs := if_pos h
    have hle : capacity bs.length ≤ capacity k * capacity bs.length := Nat.le_mul_of_pos_left _ hc
    rw [signs_of_nonneg (by omega), hbs, toInt, toNat_append, toNat_zeros, List.length_append, length_zeros,
      capacity_add, Nat.zero_mul, Nat.zero_add, if_pos (by omega)]
  · have hbs : toInt bs = (toNat bs : Int) - capacity bs.length := if_neg h
    have htotal : capacity k * capacity bs.length = toNat (ones k) * capacity bs.length + capacity bs.length := by
      rw [← hones, Nat.add_mul, Nat.one_mul]
    rw [signs_of_neg (by omega), hbs, toInt, toNat_append, List.length_append, length_ones, capacity_add,
      if_neg (by omega)]
    omega

/-- What stands in front of a number that fits into the octets behind it repeats the sign. -/
theorem eq_signs_of_bounds {xs ys : Bytes} (lo : -(capacity ys.length : Int) ≤ 2 * toInt (xs ++ ys))
    (hi : 2 * toInt (xs ++ ys) < capacity ys.length) : xs = signs (toInt ys) xs.length := by
  have hx := toNat_lt xs
  have hy := toNat_lt ys
  have hones := toNat_ones xs.length
  have htotal := toNat_append xs ys
  have hcapacity : capacity (xs ++ ys).length = capacity xs.length * capacity ys.length := by
    rw [List.length_append, capacity_add]
  apply toNat_inj (length_signs _ _).symm
  by_cases h : 2 * toNat (xs ++ ys) < capacity (xs ++ ys).length
  · have hvalue : toInt (xs ++ ys) = toNat (xs ++ ys) := if_pos h
    have hzero : toNat xs = 0 := by
      rcases Nat.eq_zero_or_pos (toNat xs) with h0 | h0
      · exact h0
      have := Nat.le_mul_of_pos_left (capacity ys.length) h0
      omega
    rw [hzero, Nat.zero_mul, Nat.zero_add] at htotal
    have hsign : toInt ys = toNat ys := if_pos (by omega)
    rw [signs_of_nonneg (by omega), toNat_zeros, hzero]
  · have hvalue : toInt (xs ++ ys) = (toNat (xs ++ ys) : Int) - capacity (xs ++ ys).length := if_neg h
    have hlast : toNat xs + 1 = capacity xs.length := by
      by_contra hne
      have := Nat.mul_le_mul_right (capacity ys.length) (show toNat xs + 2 ≤ capacity xs.length by omega)
      rw [Nat.add_mul] at this
      omega
    rw [← hlast, Nat.add_mul, Nat.one_mul] at hcapacity
    have hsign : toInt ys = (toNat ys : Int) - capacity ys.length := if_neg (by omega)
    rw [signs_of_neg (by omega)]
    omega

/-! ### In front of the last octets -/

theorem toNat_drop_of_take {k : Nat} {bs : Bytes} (h : bs.take k = zeros k) : toNat (bs.drop k) = toNat bs := by
  have e := toNat_append (bs.take k) (bs.drop k)
  rw [List.take_append_drop, h, toNat_zeros, Nat.zero_mul, Nat.zero_add] at e
  exact e.symm

theorem take_eq_zeros_iff {k : Nat} {bs : Bytes} (hk : k ≤ bs.length) :
    bs.take k = zeros k ↔ toNat bs < capacity (bs.length - k) := by
  constructor
  · intro h
    rw [← toNat_drop_of_take h, ← List.length_drop]
    exact toNat_lt _
  · intro h
    rw [eq_zeros_append hk h]
    exact List.take_left' (length_zeros k)

theorem toInt_drop_of_take {k : Nat} {bs : Bytes} (h : bs.take k = signs (toInt (bs.drop k)) k) :
    toInt (bs.drop k) = toInt bs := by
  have e := toInt_signs_append (bs.drop k) k
  rw [← h, List.take_append_drop] at e
  exact e.symm

theorem take_eq_signs_iff {k : Nat} {bs : Bytes} (hk : k ≤ bs.length) : bs.take k = signs (toInt (bs.drop k)) k ↔
    -(capacity (bs.length - k) : Int) ≤ 2 * toInt bs ∧ 2 * toInt bs < capacity (bs.length - k) := by
  rw [← List.length_drop]
  constructor
  · intro h
    rw [← toInt_drop_of_take h]
    exact toInt_bounds _
  · rintro ⟨lo, hi⟩
    have happend : bs.take k ++ bs.drop k = bs := List.take_append_drop k bs
    have hlength : (bs.take k).length = k := List.length_take_of_le hk
    rw [← happend] at lo hi
    rw [List.drop_left' hlength] at lo hi
    have h := eq_signs_of_bounds lo hi
    rwa [hlength] at h

end Bytes

/-! ## Extended words -/

namespace Abi

open Bytes (wordSize capacity zeros signs toNat toInt)

namespace WordKind

def size : WordKind → Nat
  | uint bits => bits / 8
  | int bits => bits / 8
  | bool => 1
  | address => 20
  | octets32 => 32

/-- The values are all that the octets can hold; a boolean does not use all of its one. -/
def isWhole : WordKind → Bool
  | uint bits => bits % 8 = 0 ∧ bits ≤ 256
  | int bits => bits % 8 = 0 ∧ 0 < bits ∧ bits ≤ 256
  | bool => false
  | address => true
  | octets32 => true

def gap (w : WordKind) : Nat := wordSize - w.size

def low (w : WordKind) (bs : Bytes) : Bytes := bs.drop w.gap

def extension (w : WordKind) (bs : Bytes) : Bytes :=
  match w with
  | int _ => signs (toInt (w.low bs)) w.gap
  | _ => zeros w.gap

structure IsExtended (w : WordKind) (bs : Bytes) : Prop where
  length : bs.length = wordSize
  front : bs.take w.gap = w.extension bs

def value (w : WordKind) (bs : Bytes) : Value :=
  match w with
  | uint _ => .int (toNat (w.low bs))
  | int _ => .int (toInt (w.low bs))
  | _ => .bytes (w.low bs)

theorem sized_of_isWhole {w : WordKind} (h : w.isWhole = true) : w.sized = true := by
  cases w with
  | uint => exact decide_eq_true (of_decide_eq_true h).2
  | int => exact decide_eq_true (of_decide_eq_true h).2.2
  | bool | address | octets32 => rfl

theorem capacity_bits {bits : Nat} (h : bits % 8 = 0) : capacity (bits / 8) = twoPow bits := by
  have e : bits = 8 * (bits / 8) := by omega
  calc capacity (bits / 8) = 256 ^ (bits / 8) := rfl
    _ = 2 ^ (8 * (bits / 8)) := by rw [show (256 : Nat) = 2 ^ 8 from rfl, Nat.pow_mul]
    _ = twoPow bits := by rw [← e]; rfl

theorem isExtended_uint {bits : Nat} (hw : (uint bits).isWhole = true) {bs : Bytes} (hl : bs.length = wordSize) :
    (uint bits).IsExtended bs ↔ toNat bs < twoPow bits := by
  obtain ⟨h8, h256⟩ := of_decide_eq_true hw
  have hle : bits / 8 ≤ wordSize := show bits / 8 ≤ 32 by omega
  have hgap : bs.length - (uint bits).gap = bits / 8 := by rw [hl]; exact Nat.sub_sub_self hle
  have hfront := Bytes.take_eq_zeros_iff (k := (uint bits).gap) (by rw [hl]; exact Nat.sub_le ..)
  rw [hgap, capacity_bits h8] at hfront
  exact ⟨fun h => hfront.mp h.front, fun h => ⟨hl, hfront.mpr h⟩⟩

theorem isExtended_int {bits : Nat} (hw : (int bits).isWhole = true) {bs : Bytes} (hl : bs.length = wordSize) :
    (int bits).IsExtended bs ↔ -(twoPow (bits - 1) : Int) ≤ toInt bs ∧ toInt bs < twoPow (bits - 1) := by
  obtain ⟨h8, h0, h256⟩ := of_decide_eq_true hw
  have hle : bits / 8 ≤ wordSize := show bits / 8 ≤ 32 by omega
  have hgap : bs.length - (int bits).gap = bits / 8 := by rw [hl]; exact Nat.sub_sub_self hle
  have hhalf : twoPow bits = 2 * twoPow (bits - 1) := by
    obtain ⟨n, rfl⟩ : ∃ n, bits = n + 1 := ⟨bits - 1, by omega⟩
    exact Nat.pow_succ'
  have hfront := Bytes.take_eq_signs_iff (k := (int bits).gap) (by rw [hl]; exact Nat.sub_le ..)
  rw [hgap, capacity_bits h8, hhalf] at hfront
  constructor
  · intro h
    have := hfront.mp h.front
    omega
  · intro h
    exact ⟨hl, hfront.mpr (by omega)⟩

theorem isExtended_of_writes {w : WordKind} (hw : w.isWhole = true) {v : Value} {bs : Bytes} (h : w.Writes v bs) :
    w.IsExtended bs ∧ w.value bs = v := by
  have hl := h.length
  have hc := capacity_wordSize
  have hh := capacity_wordSize_half
  cases h with
  | @uint bits n lo hi =>
    have hb : twoPow bits ≤ twoPow 256 := twoPow_mono (of_decide_eq_true hw).2
    have hn : toNat (Bytes.word n.toNat) = n.toNat := Bytes.toNat_word (by omega)
    have he := (isExtended_uint hw hl).mpr (by omega)
    have hv : toNat ((uint bits).low (Bytes.word n.toNat)) = n.toNat := (Bytes.toNat_drop_of_take he.front).trans hn
    refine ⟨he, ?_⟩
    rw [value, hv, Int.toNat_of_nonneg lo]
  | @int bits n lo hi =>
    obtain ⟨-, h0, h256⟩ := of_decide_eq_true hw
    have hb : twoPow (bits - 1) ≤ twoPow 255 := twoPow_mono (by omega)
    have hn : toInt (Bytes.ofInt wordSize n) = n := Bytes.toInt_ofInt (by omega) (by omega)
    have he := (isExtended_int hw hl).mpr (by omega)
    have hv : toInt ((int bits).low (Bytes.ofInt wordSize n)) = n := (Bytes.toInt_drop_of_take he.front).trans hn
    exact ⟨he, congrArg Value.int hv⟩
  | bool => cases hw
  | address h =>
    have hzeros := Bytes.length_zeros 12
    exact ⟨⟨hl, List.take_left' hzeros⟩, congrArg Value.bytes (List.drop_left' hzeros)⟩
  | octets32 h => exact ⟨⟨hl, rfl⟩, rfl⟩

theorem writes_of_isExtended {w : WordKind} (hw : w.isWhole = true) {bs : Bytes} (h : w.IsExtended bs) :
    w.Writes (w.value bs) bs := by
  have hl := h.length
  cases w with
  | uint bits =>
    have hv : (toNat ((uint bits).low bs) : Int) = toNat bs := congrArg Nat.cast (Bytes.toNat_drop_of_take h.front)
    have hlt := (isExtended_uint hw hl).mp h
    have hwrites := @Writes.uint bits (toNat bs) (by omega) (by omega)
    rw [Int.toNat_natCast, Bytes.word_toNat hl, ← hv] at hwrites
    exact hwrites
  | int bits =>
    have hv : toInt ((int bits).low bs) = toInt bs := Bytes.toInt_drop_of_take h.front
    obtain ⟨lo, hi⟩ := (isExtended_int hw hl).mp h
    have hwrites := Writes.int lo hi
    rw [← hl, Bytes.ofInt_toInt, ← hv] at hwrites
    exact hwrites
  | bool => cases hw
  | address =>
    have happend : zeros 12 ++ bs.drop 12 = bs := by
      rw [← show bs.take 12 = zeros 12 from h.front, List.take_append_drop]
    have hwrites := @Writes.address (bs.drop 12) (by rw [List.length_drop, hl]; rfl)
    rwa [happend] at hwrites
  | octets32 => exact .octets32 hl

/-- A word is read as what its last octets hold when the others only extend them, and is not read otherwise. -/
theorem ofWord_eq_ok {w : WordKind} (hw : w.isWhole = true) {bs : Bytes} (hl : bs.length = wordSize) {u : Value} :
    w.ofWord bs = .ok u ↔ w.IsExtended bs ∧ w.readBack (w.value bs) = u := by
  constructor
  · intro h
    obtain ⟨v, hv, rfl⟩ := writes_of_ofWord hl h
    obtain ⟨he, rfl⟩ := isExtended_of_writes hw hv
    exact ⟨he, rfl⟩
  · rintro ⟨he, rfl⟩
    exact ofWord_of_writes (sized_of_isWhole hw) (writes_of_isExtended hw he)

end WordKind

/-! ## Words of an answer -/

def wordOf (data : Bytes) (i : Nat) : Bytes := (data.drop (wordSize * i)).take wordSize

theorem wordAt_eq_wordOf {data : Bytes} {i : Nat} {bs : Bytes} :
    wordAt data (wordSize * i) = .ok bs ↔ bs.length = wordSize ∧ wordOf data i = bs := by
  rw [wordAt, ite_throw_eq_ok, Except.ok.injEq]
  constructor
  · rintro ⟨hl, rfl⟩
    exact ⟨hl, rfl⟩
  · rintro ⟨hl, rfl⟩
    exact ⟨hl, rfl⟩

def ExtendedFrom (start : Nat) (ws : List WordKind) (data : Bytes) : Prop :=
  ∀ (i : Nat) (w : WordKind), ws[i]? = some w → w.IsExtended (wordOf data (start + i))

def valuesFrom (start : Nat) (ws : List WordKind) (data : Bytes) : List Value :=
  match ws with
  | [] => []
  | w :: ws => w.value (wordOf data start) :: valuesFrom (start + 1) ws data

theorem length_valuesFrom (start : Nat) (ws : List WordKind) (data : Bytes) :
    (valuesFrom start ws data).length = ws.length := by
  induction ws generalizing start with
  | nil => rfl
  | cons w ws ih => rw [valuesFrom, List.length_cons, List.length_cons, ih]

theorem extendedFrom_cons {start : Nat} {w : WordKind} {ws : List WordKind} {data : Bytes} :
    ExtendedFrom start (w :: ws) data ↔ w.IsExtended (wordOf data start) ∧ ExtendedFrom (start + 1) ws data := by
  constructor
  · intro h
    refine ⟨h 0 w rfl, fun i x hx => ?_⟩
    rw [Nat.add_assoc, Nat.add_comm 1]
    exact h (i + 1) x hx
  · rintro ⟨hw, h⟩ i x hx
    cases i with
    | zero =>
      cases hx
      exact hw
    | succ i =>
      have := h i x hx
      rwa [Nat.add_assoc, Nat.add_comm 1] at this

theorem decodeWord_eq_wordOf {w : WordKind} (hw : w.isWhole = true) {data : Bytes} {i : Nat} {u : Value} :
    decodeWord data (wordSize * i) w = .ok u ↔
      w.IsExtended (wordOf data i) ∧ w.readBack (w.value (wordOf data i)) = u := by
  simp only [decodeWord, bind_eq_ok, wordAt_eq_wordOf]
  constructor
  · rintro ⟨bs, ⟨hl, rfl⟩, h⟩
    exact (WordKind.ofWord_eq_ok hw hl).mp h
  · intro h
    exact ⟨_, ⟨h.1.length, rfl⟩, (WordKind.ofWord_eq_ok hw h.1.length).mpr h⟩

theorem decodeWords_eq_wordOf {ws : List WordKind} (hws : ∀ w ∈ ws, w.isWhole = true) {data : Bytes} {start : Nat}
    {us : List Value} : decodeWords data (wordSize * start) ws = .ok us ↔
      ExtendedFrom start ws data ∧ WordKind.readBackAll ws (valuesFrom start ws data) = us := by
  induction ws generalizing start us with
  | nil =>
    constructor
    · intro h
      cases h
      exact ⟨nofun, rfl⟩
    · rintro ⟨-, rfl⟩
      rfl
  | cons w ws ih =>
    obtain ⟨hw, hws⟩ := List.forall_mem_cons.mp hws
    rw [extendedFrom_cons, valuesFrom]
    simp only [decodeWords, bind_eq_ok, pure_eq_ok, decodeWord_eq_wordOf hw]
    rw [← Nat.mul_succ]
    simp only [ih hws]
    constructor
    · rintro ⟨_, ⟨h, rfl⟩, _, ⟨hs, rfl⟩, rfl⟩
      exact ⟨⟨h, hs⟩, rfl⟩
    · rintro ⟨⟨h, hs⟩, rfl⟩
      exact ⟨_, ⟨h, rfl⟩, _, ⟨hs, rfl⟩, rfl⟩

theorem encodeAll_valuesFrom {ws : List WordKind} (hws : ∀ w ∈ ws, w.isWhole = true) {data : Bytes} {start : Nat}
    (h : ExtendedFrom start ws data) : WordKind.encodeAll ws (valuesFrom start ws data) =
      .ok ((data.drop (wordSize * start)).take (wordSize * ws.length)) := by
  induction ws generalizing start with
  | nil => rfl
  | cons w ws ih =>
    obtain ⟨hw, hws⟩ := List.forall_mem_cons.mp hws
    obtain ⟨hextended, h⟩ := extendedFrom_cons.mp h
    rw [valuesFrom]
    refine WordKind.encodeAll_cons_eq_ok.mpr ⟨_, _, WordKind.writes_of_isExtended hw hextended, ih hws h, ?_⟩
    rw [List.length_cons, Nat.mul_succ, Nat.mul_succ, Nat.add_comm (wordSize * ws.length), List.take_add,
      List.drop_drop]
    rfl

/-- The data starts with a word for every kind, and each of them is an extended value. -/
structure StartsWith (ws : List WordKind) (data : Bytes) : Prop where
  room : wordSize * ws.length ≤ data.length
  words : ∀ (i : Nat) (w : WordKind), ws[i]? = some w → w.IsExtended (wordOf data i)

def values (ws : List WordKind) (data : Bytes) : List Value := valuesFrom 0 ws data

theorem extendedFrom_zero_iff {ws : List WordKind} {data : Bytes} : ExtendedFrom 0 ws data ↔
    StartsWith ws data := by
  simp only [ExtendedFrom, Nat.zero_add]
  refine ⟨fun h => ⟨?_, h⟩, StartsWith.words⟩
  -- The last word is whole, so that there is room for all of them.
  rcases List.eq_nil_or_concat ws with rfl | ⟨ws, w, rfl⟩
  · exact Nat.zero_le _
  have hlast := (h ws.length w (by simp)).length
  simp only [wordOf, List.length_take, List.length_drop, wordSize] at hlast
  simp only [List.length_concat, wordSize]
  omega

/-- **Words in a row are read exactly when the data starts with extended ones**, and as their values. -/
theorem decodeWords_eq_values {ws : List WordKind} (hws : ∀ w ∈ ws, w.isWhole = true) {data : Bytes}
    {us : List Value} :
    decodeWords data 0 ws = .ok us ↔ StartsWith ws data ∧ WordKind.readBackAll ws (values ws data) = us := by
  rw [← extendedFrom_zero_iff]
  exact @decodeWords_eq_wordOf ws hws data 0 us

theorem encodeAll_values {ws : List WordKind} (hws : ∀ w ∈ ws, w.isWhole = true) {data : Bytes}
    (h : StartsWith ws data) : WordKind.encodeAll ws (values ws data) = .ok (data.take (wordSize * ws.length)) :=
  encodeAll_valuesFrom hws (extendedFrom_zero_iff.mpr h)

theorem decode_words_eq_values {ws : List WordKind} (hws : ∀ w ∈ ws, w.isWhole = true) {data : Bytes}
    {us : List Value} : decode (ws.map .word) data = .ok us ↔
      StartsWith ws data ∧ WordKind.readBackAll ws (values ws data) = us := by
  rw [decode_words]
  exact decodeWords_eq_values hws

theorem encode_words_values {ws : List WordKind} (hws : ∀ w ∈ ws, w.isWhole = true) {data : Bytes}
    (h : StartsWith ws data) : encode (ws.map .word) (values ws data) = .ok (data.take (wordSize * ws.length)) :=
  encode_of_encodeAll (encodeAll_values hws h)

/-! ### A row as one parameter -/

theorem decode_row (ws : List WordKind) (data : Bytes) :
    decode [.words ws] data = (decodeWords data 0 ws).map fun vs => [.list vs] := by
  simp only [decode, checkHeads, decodeFrom, Kind.decodeAt]
  cases decodeWords data 0 ws <;> rfl

theorem decode_row_eq_values {ws : List WordKind} (hws : ∀ w ∈ ws, w.isWhole = true) {data : Bytes}
    {us : List Value} :
    decode [.words ws] data = .ok us ↔
      StartsWith ws data ∧ [.list (WordKind.readBackAll ws (values ws data))] = us := by
  rw [decode_row, map_eq_ok]
  simp only [decodeWords_eq_values hws]
  constructor
  · rintro ⟨_, ⟨h, rfl⟩, rfl⟩
    exact ⟨h, rfl⟩
  · rintro ⟨h, rfl⟩
    exact ⟨_, ⟨h, rfl⟩, rfl⟩

theorem encode_row_values {ws : List WordKind} (hws : ∀ w ∈ ws, w.isWhole = true) {data : Bytes}
    (h : StartsWith ws data) :
    encode [.words ws] [.list (values ws data)] = .ok (data.take (wordSize * ws.length)) := by
  have hl : (values ws data).length = ws.length := length_valuesFrom ..
  have hparts : encodeParts [.words ws] [.list (values ws data)] =
      .ok [.inPlace (data.take (wordSize * ws.length))] :=
    encodeParts_cons_eq_ok.mpr ⟨_, [], .words hl (encodeAll_values hws h), rfl, rfl⟩
  refine bind_eq_ok.mpr ⟨_, hparts, Part.assemble_eq_ok.mpr ⟨rfl, ?_⟩⟩
  simp only [Part.heads, Part.tails, List.append_nil]

end Abi

/-! ## Answers -/

namespace ContractCall

open Abi (StartsWith values)

def Settled {α : Type} (answer : Except Failure α) : Prop :=
  (∃ a, answer = .ok a) ∨ ∃ text, answer = .error (.badResponse text)

theorem settled_decodeAnswer {α : Type} (what : String) (kinds : List Abi.Kind) (data : Bytes)
    (f : List Value → α) :
    Settled ((decodeAnswer what kinds data).map f) := by
  cases h : decodeAnswer what kinds data with
  | ok vs => exact .inl ⟨_, rfl⟩
  | error e =>
    obtain ⟨text, rfl⟩ := badResponse_of_decodeAnswer h
    exact .inr ⟨text, rfl⟩

/-- What comes of an answer that is a row of words, which are also the values `vs` of parameters. -/
structure ReadsWords {α : Type} (ws : List Abi.WordKind) (kinds : List Abi.Kind) (vs : List Value) (data : Bytes)
    (answer : Except Failure α) (shown : α → Prop) : Prop where
  settled : Settled answer
  returns : (∃ a, answer = .ok a) ↔ StartsWith ws data
  shows : ∀ a, answer = .ok a → shown a
  again : StartsWith ws data → Abi.encode kinds vs = .ok (data.take (Bytes.wordSize * ws.length))

theorem ReadsWords.of_decode {α : Type} {ws : List Abi.WordKind} {kinds : List Abi.Kind} {vs us : List Value}
    {data : Bytes} {f : List Value → α} {shown : α → Prop} (what : String)
    (hdecode : ∀ xs, Abi.decode kinds data = .ok xs ↔ StartsWith ws data ∧ us = xs)
    (hshown : StartsWith ws data → shown (f us))
    (hagain : StartsWith ws data → Abi.encode kinds vs = .ok (data.take (Bytes.wordSize * ws.length))) :
    ReadsWords ws kinds vs data ((decodeAnswer what kinds data).map f) shown := by
  refine ⟨settled_decodeAnswer .., ⟨?_, fun h => ?_⟩, fun a ha => ?_, hagain⟩
  · rintro ⟨a, ha⟩
    obtain ⟨xs, hxs, -⟩ := map_eq_ok.mp ha
    exact ((hdecode xs).mp (decodeAnswer_eq_ok.mp hxs)).1
  · exact ⟨f us, map_eq_ok.mpr ⟨us, decodeAnswer_eq_ok.mpr ((hdecode us).mpr ⟨h, rfl⟩), rfl⟩⟩
  · obtain ⟨xs, hxs, rfl⟩ := map_eq_ok.mp ha
    obtain ⟨h, rfl⟩ := (hdecode xs).mp (decodeAnswer_eq_ok.mp hxs)
    exact hshown h

def slot0Words : List Abi.WordKind := [.uint 160, .int 24, .uint 24, .uint 24]

def Slot0.numbers (slot0 : Slot0) : List Int := [slot0.sqrtPrice, slot0.tick, slot0.protocolFee, slot0.lpFee]

section

variable {ws : List Abi.WordKind} (hws : ∀ w ∈ ws, w.isWhole = true) (what : String) (data : Bytes)
include hws

theorem readsWords_of_words {α : Type} {f : List Value → α} {shown : α → Prop}
    (hshown : StartsWith ws data → shown (f (Abi.WordKind.readBackAll ws (values ws data)))) :
    ReadsWords ws (ws.map .word) (values ws data) data ((decodeAnswer what (ws.map .word) data).map f) shown :=
  .of_decode what (fun _ => Abi.decode_words_eq_values hws) hshown (Abi.encode_words_values hws)

theorem readsWords_of_row {α : Type} {f : List Value → α} {shown : α → Prop}
    (hshown : StartsWith ws data → shown (f [.list (Abi.WordKind.readBackAll ws (values ws data))])) :
    ReadsWords ws [.words ws] [.list (values ws data)] data ((decodeAnswer what [.words ws] data).map f) shown :=
  .of_decode what (fun _ => Abi.decode_row_eq_values hws) hshown (Abi.encode_row_values hws)

end

theorem decodeDecimals_readsWords (data : Bytes) :
    ReadsWords decimalsWords [.uint 8] (values decimalsWords data) data
    (decodeDecimals data) fun n => values decimalsWords data = [.int n] :=
  @readsWords_of_words decimalsWords (by decide) _ data _ _ _ fun _ => rfl

theorem decodeRound_readsWords (data : Bytes) : ReadsWords roundWords roundKinds (values roundWords data) data
    (decodeRound data) fun round => values roundWords data = round.numbers.map .int :=
  @readsWords_of_words roundWords (by decide) _ data _ _ _ fun _ => rfl

theorem decodeSlot0_readsWords (data : Bytes) : ReadsWords slot0Words slot0Kinds (values slot0Words data) data
    (decodeSlot0 data) fun slot0 => values slot0Words data = slot0.numbers.map .int :=
  @readsWords_of_words slot0Words (by decide) _ data _ _ _ fun _ => rfl

theorem decodeReserveAToken_readsWords (data : Bytes) :
    ReadsWords reserveWords [.words reserveWords] [.list (values reserveWords data)] data (decodeReserveAToken data)
      fun token => ∃ octets : Bytes, octets.length = 20 ∧
        (values reserveWords data)[aTokenIndex]? = some (.bytes octets) ∧ token = Hex.literal octets := by
  refine @readsWords_of_row reserveWords (by decide) _ data _ _ _ fun h => ?_
  have hword := (h.words aTokenIndex .address rfl).length
  refine ⟨(Abi.wordOf data aTokenIndex).drop 12, by rw [List.length_drop, hword]; rfl, rfl, ?_⟩
  exact Address.normalize_literal _

/-! ### Descriptions -/

theorem exists_encode_text {s : String} :
    (∃ encoded, Abi.encode [.text] [.text s] = .ok encoded) ↔ (Utf8.ofText s).length < twoPow 256 := by
  rw [Abi.exists_encode_iff rfl (by decide), Abi.exists_encodeParts_cons]
  constructor
  · rintro ⟨⟨p, hp⟩, -⟩
    cases hp with
    | text hl => exact hl
  · intro hl
    exact ⟨⟨_, .text hl⟩, [], rfl⟩

theorem decodeDescription_encode {s : String} {encoded : Bytes} (h : Abi.encode [.text] [.text s] = .ok encoded)
    (rest : Bytes) : decodeDescription (encoded ++ rest) = .ok s := by
  have hread := Abi.decode_encode (by decide) h rest
  exact map_eq_ok.mpr ⟨_, decodeAnswer_eq_ok.mpr hread, rfl⟩

/-- **Answers are read strictly and in full.** Any octets settle a reading. A row of words is read exactly when
the octets start with extended values of the kinds, and those are what is shown and what is written again; the
address of a token is in lowercase. A text is read from its encoding. -/
theorem answers_strict (data : Bytes) :
    (ReadsWords decimalsWords [.uint 8] (values decimalsWords data) data (decodeDecimals data)
      fun n => values decimalsWords data = [.int n]) ∧
    (ReadsWords roundWords roundKinds (values roundWords data) data (decodeRound data)
      fun round => values roundWords data = round.numbers.map .int) ∧
    (ReadsWords slot0Words slot0Kinds (values slot0Words data) data (decodeSlot0 data)
      fun slot0 => values slot0Words data = slot0.numbers.map .int) ∧
    (ReadsWords reserveWords [.words reserveWords] [.list (values reserveWords data)] data
      (decodeReserveAToken data) fun token => ∃ octets : Bytes, octets.length = 20 ∧
        (values reserveWords data)[aTokenIndex]? = some (.bytes octets) ∧ token = Hex.literal octets) ∧
    Settled (decodeDescription data) ∧
    ∀ s, (Utf8.ofText s).length < twoPow 256 → ∃ encoded, Abi.encode [.text] [.text s] = .ok encoded ∧
      decodeDescription encoded = .ok s ∧ ∀ rest, decodeDescription (encoded ++ rest) = .ok s := by
  refine ⟨decodeDecimals_readsWords data, decodeRound_readsWords data, decodeSlot0_readsWords data,
    decodeReserveAToken_readsWords data, settled_decodeAnswer .., fun s hs => ?_⟩
  obtain ⟨encoded, h⟩ := exists_encode_text.mpr hs
  have hread := decodeDescription_encode h
  refine ⟨encoded, h, ?_, hread⟩
  rw [← hread [], List.append_nil]

theorem description_of_ethUsd : (Utf8.ofText "ETH / USD").length < twoPow 256 ∧
    ∃ encoded, Abi.encode [.text] [.text "ETH / USD"] = .ok encoded ∧
      decodeDescription encoded = .ok "ETH / USD" ∧ ∀ rest, decodeDescription (encoded ++ rest) = .ok "ETH / USD" :=
  have hlt : (Utf8.ofText "ETH / USD").length < twoPow 256 := by decide
  ⟨hlt, (answers_strict []).2.2.2.2.2 "ETH / USD" hlt⟩

end ContractCall

end DefiActions
