import DefiActions.ContractCall
import DefiActions.Proofs.AbiStrict

/-!
# Answers of contracts

Where every parameter is a word, both passes of the reader read the same words,
so an answer is read exactly when it starts with them. A word has one value, and
what stands behind the last word is not looked at. Whatever the reader cannot
read is a bad answer: it fails in no other way.
-/

namespace DefiActions

/-! ## Words in a row -/

namespace Abi

open Bytes (wordSize)

theorem checkHeads_words (data : Bytes) (headEnd pos : Nat) (ws : List WordKind) :
    checkHeads data headEnd pos (ws.map .word) = (decodeWords data pos ws).map fun _ => () := by
  induction ws generalizing pos with
  | nil => rfl
  | cons w ws ih =>
    rw [List.map_cons, checkHeads_cons, checkHead, ih, decodeWords]
    cases decodeWord data pos w with
    | error f => rfl
    | ok v =>
      have hsize : (Kind.word w).headSize = wordSize := rfl
      rw [hsize]
      cases decodeWords data (pos + wordSize) ws <;> rfl

theorem decodeFrom_words (data : Bytes) (pos : Nat) (ws : List WordKind) :
    decodeFrom data pos (ws.map .word) = decodeWords data pos ws := by
  induction ws generalizing pos with
  | nil => rfl
  | cons w ws ih =>
    rw [List.map_cons, decodeFrom, ih, decodeWords]
    rfl

theorem decode_words (ws : List WordKind) (data : Bytes) : decode (ws.map .word) data = decodeWords data 0 ws := by
  rw [decode, checkHeads_words, decodeFrom_words]
  cases decodeWords data 0 ws <;> rfl

def NumberAt (data : Bytes) (pos : Nat) (w : WordKind) (n : Int) : Prop :=
  ∃ bs, w.Writes (.int n) bs ∧ Holds data pos bs

theorem NumberAt.uint_bounds {data : Bytes} {pos bits : Nat} {n : Int} (h : NumberAt data pos (.uint bits) n) :
    0 ≤ n ∧ n < twoPow bits := by
  obtain ⟨bs, hw, -⟩ := h
  cases hw with
  | uint lo hi => exact ⟨lo, hi⟩

theorem NumberAt.int_bounds {data : Bytes} {pos bits : Nat} {n : Int} (h : NumberAt data pos (.int bits) n) :
    -(twoPow (bits - 1) : Int) ≤ n ∧ n < twoPow (bits - 1) := by
  obtain ⟨bs, hw, -⟩ := h
  cases hw with
  | int lo hi => exact ⟨lo, hi⟩

/-- The words from the position on are the ones that the numbers are written as. -/
inductive NumbersAt (data : Bytes) : Nat → List WordKind → List Int → Prop
  | nil (pos : Nat) : NumbersAt data pos [] []
  | cons {pos : Nat} {w : WordKind} {n : Int} {ws : List WordKind} {ns : List Int} (head : NumberAt data pos w n)
    (tail : NumbersAt data (pos + wordSize) ws ns) : NumbersAt data pos (w :: ws) (n :: ns)

def WordKind.isNumber : WordKind → Bool
  | uint bits => bits ≤ 256
  | int bits => bits ≤ 256
  | _ => false

theorem decodeWord_eq_ok {w : WordKind} (hw : w.isNumber = true) {data : Bytes} {pos : Nat} {u : Value} :
    decodeWord data pos w = .ok u ↔ ∃ n, .int n = u ∧ NumberAt data pos w n := by
  constructor
  · intro h
    obtain ⟨v, bs, hv, rfl, hd⟩ := writes_of_decodeWord h
    cases hv with
    | uint lo hi => exact ⟨_, rfl, _, .uint lo hi, hd⟩
    | int lo hi => exact ⟨_, rfl, _, .int lo hi, hd⟩
    | bool | address | octets32 => cases hw
  · rintro ⟨n, rfl, bs, hn, hd⟩
    cases w with
    | uint bits => exact @decodeWord_of_writes (.uint bits) hw _ _ _ _ hn hd
    | int bits => exact @decodeWord_of_writes (.int bits) hw _ _ _ _ hn hd
    | bool | address | octets32 => cases hw

theorem decodeWords_eq_ok {ws : List WordKind} (hws : ∀ w ∈ ws, w.isNumber = true) {data : Bytes} {pos : Nat}
    {us : List Value} : decodeWords data pos ws = .ok us ↔ ∃ ns, ns.map .int = us ∧ NumbersAt data pos ws ns := by
  induction ws generalizing pos us with
  | nil =>
    constructor
    · intro h
      cases h
      exact ⟨[], rfl, .nil pos⟩
    · rintro ⟨ns, rfl, hn⟩
      cases hn
      rfl
  | cons w ws ih =>
    obtain ⟨hw, hws⟩ := List.forall_mem_cons.mp hws
    simp only [decodeWords, bind_eq_ok, pure_eq_ok, decodeWord_eq_ok hw, ih hws]
    constructor
    · rintro ⟨_, ⟨n, rfl, hn⟩, _, ⟨ns, rfl, hns⟩, rfl⟩
      exact ⟨n :: ns, rfl, .cons hn hns⟩
    · rintro ⟨ns, rfl, hn⟩
      cases hn with
      | cons head tail => exact ⟨_, ⟨_, rfl, head⟩, _, ⟨_, rfl, tail⟩, rfl⟩

/-- **Words are read as numbers exactly when the data starts with the words of the numbers.** -/
theorem decode_numbers {ws : List WordKind} (hws : ∀ w ∈ ws, w.isNumber = true) {data : Bytes} {us : List Value} :
    decode (ws.map .word) data = .ok us ↔ ∃ ns, ns.map .int = us ∧ NumbersAt data 0 ws ns := by
  rw [decode_words]
  exact decodeWords_eq_ok hws

end Abi

/-! ## Bad answers -/

namespace Abi

open Bytes (wordSize)

variable {α : Type}

abbrev Faulty (x : Except Failure α) : Prop := FailsAs (fun f => ContractCall.isBadAnswer f = true) x

theorem faulty_wordAt (data : Bytes) (pos : Nat) : Faulty (wordAt data pos) := by
  unfold wordAt
  dsimp only
  split
  · exact failsAs_ok
  · exact failsAs_throw rfl

theorem faulty_ofWord (w : WordKind) (bs : Bytes) : Faulty (w.ofWord bs) := by
  cases w with
  | octets32 => exact failsAs_ok
  | uint | int | bool | address =>
    simp only [WordKind.ofWord]
    split
    · exact failsAs_ok
    · exact failsAs_throw rfl

theorem faulty_decodeWord (data : Bytes) (pos : Nat) (w : WordKind) : Faulty (decodeWord data pos w) :=
  failsAs_bind (faulty_wordAt data pos) (faulty_ofWord w)

theorem faulty_decodeWords (data : Bytes) (pos : Nat) (ws : List WordKind) : Faulty (decodeWords data pos ws) := by
  induction ws generalizing pos with
  | nil => exact failsAs_ok
  | cons w ws ih =>
    exact failsAs_bind (faulty_decodeWord data pos w) fun _ => failsAs_bind (ih _) fun _ => failsAs_pure

theorem faulty_natAt (data : Bytes) (pos : Nat) : Faulty (natAt data pos) := failsAs_map (faulty_wordAt data pos)

theorem faulty_blobAt (data : Bytes) (pos : Nat) : Faulty (blobAt data pos) := by
  refine failsAs_bind (faulty_natAt data pos) fun size => ?_
  simp only [throw_bind]
  refine failsAs_throw_ite ?_ (failsAs_throw_ite rfl failsAs_pure)
  -- too few octets, or more than can be asked for
  split
  · rfl
  · rfl

theorem faulty_offsetAt (data : Bytes) (headEnd pos : Nat) : Faulty (offsetAt data headEnd pos) := by
  refine failsAs_bind (faulty_natAt data pos) fun offset => ?_
  simp only [throw_bind]
  exact failsAs_throw_ite rfl failsAs_pure

theorem faulty_offsetsAt (data : Bytes) (headEnd count pos : Nat) : Faulty (offsetsAt data headEnd count pos) := by
  induction count generalizing pos with
  | zero => exact failsAs_ok
  | succ count ih =>
    exact failsAs_bind (faulty_offsetAt data headEnd pos) fun _ => failsAs_bind (ih _) fun _ => failsAs_pure

theorem faulty_blobsAt (data : Bytes) (pos : Nat) : Faulty (blobsAt data pos) := by
  refine failsAs_bind (faulty_natAt data pos) fun count => ?_
  simp only [throw_bind]
  exact failsAs_throw_ite rfl (failsAs_bind (faulty_offsetsAt _ _ _ _) (failsAs_mapM (faulty_blobAt _)))

theorem faulty_checkHead (data : Bytes) (headEnd pos : Nat) (k : Kind) : Faulty (checkHead data headEnd pos k) := by
  cases k with
  | word w => exact failsAs_map (faulty_decodeWord data pos w)
  | words ws => exact failsAs_map (faulty_decodeWords data pos ws)
  | bytes | text | bytesList => exact failsAs_map (faulty_offsetAt data headEnd pos)

theorem faulty_checkHeads (data : Bytes) (headEnd pos : Nat) (ks : List Kind) :
    Faulty (checkHeads data headEnd pos ks) := by
  induction ks generalizing pos with
  | nil => exact failsAs_ok
  | cons k ks ih =>
    rw [checkHeads_cons]
    exact failsAs_bind (faulty_checkHead data headEnd pos k) fun _ => ih _

theorem faulty_decodeAt (data : Bytes) (pos : Nat) (k : Kind) : Faulty (k.decodeAt data pos) := by
  cases k with
  | word w => exact faulty_decodeWord data pos w
  | words ws => exact failsAs_bind (faulty_decodeWords data pos ws) fun _ => failsAs_pure
  | bytes =>
    exact failsAs_bind (faulty_natAt data pos) fun _ => failsAs_bind (faulty_blobAt data _) fun _ => failsAs_pure
  | text =>
    refine failsAs_bind (faulty_natAt data pos) fun _ => failsAs_bind (faulty_blobAt data _) fun bs => ?_
    split
    · exact failsAs_pure
    · exact failsAs_throw rfl
  | bytesList =>
    exact failsAs_bind (faulty_natAt data pos) fun _ => failsAs_bind (faulty_blobsAt data _) fun _ => failsAs_pure

theorem faulty_decodeFrom (data : Bytes) (pos : Nat) (ks : List Kind) : Faulty (decodeFrom data pos ks) := by
  induction ks generalizing pos with
  | nil => exact failsAs_ok
  | cons k ks ih =>
    exact failsAs_bind (faulty_decodeAt data pos k) fun _ => failsAs_bind (ih _) fun _ => failsAs_pure

/-- **Parameters are read, or make a bad answer.** -/
theorem faulty_decode (ks : List Kind) (data : Bytes) : Faulty (decode ks data) :=
  failsAs_bind (faulty_checkHeads data _ 0 ks) fun _ => faulty_decodeFrom data 0 ks

end Abi

/-! ## Answers of a feed -/

namespace ContractCall

open Abi (NumbersAt)

def decimalsWords : List Abi.WordKind := [.uint 8]

def roundWords : List Abi.WordKind := [.uint 80, .int 256, .uint 256, .uint 256, .uint 80]

def Round.numbers (round : Round) : List Int :=
  [round.roundId, round.answer, round.startedAt, round.updatedAt, round.answeredInRound]

theorem decodeAnswer_eq_ok {what : String} {kinds : List Abi.Kind} {data : Bytes} {vs : List Value} :
    decodeAnswer what kinds data = .ok vs ↔ Abi.decode kinds data = .ok vs := by
  unfold decodeAnswer
  cases Abi.decode kinds data with
  | ok us => exact Iff.rfl
  | error f => exact ⟨nofun, nofun⟩

theorem badResponse_of_decodeAnswer {what : String} {kinds : List Abi.Kind} {data : Bytes} {f : Failure}
    (h : decodeAnswer what kinds data = .error f) : ∃ text, f = .badResponse text := by
  unfold decodeAnswer at h
  split at h
  · cases h
  rename_i fault hfault
  rw [if_pos (Abi.faulty_decode kinds data fault hfault)] at h
  exact ⟨_, (Except.error.inj h).symm⟩

theorem decodeDecimals_eq_ok {data : Bytes} {n : Int} :
    decodeDecimals data = .ok n ↔ NumbersAt data 0 decimalsWords [n] := by
  have hread := @Abi.decode_numbers decimalsWords (by decide) data
  unfold decodeDecimals
  rw [map_eq_ok]
  constructor
  · rintro ⟨vs, hd, rfl⟩
    obtain ⟨ns, rfl, hn⟩ := hread.mp (decodeAnswer_eq_ok.mp hd)
    obtain _ | ⟨h, _ | _⟩ := hn
    exact .cons h (.nil _)
  · intro hn
    exact ⟨_, decodeAnswer_eq_ok.mpr (hread.mpr ⟨[n], rfl, hn⟩), rfl⟩

theorem decodeRound_eq_ok {data : Bytes} {round : Round} :
    decodeRound data = .ok round ↔ NumbersAt data 0 roundWords round.numbers := by
  have hread := @Abi.decode_numbers roundWords (by decide) data
  unfold decodeRound
  rw [map_eq_ok]
  constructor
  · rintro ⟨vs, hd, rfl⟩
    obtain ⟨ns, rfl, hn⟩ := hread.mp (decodeAnswer_eq_ok.mp hd)
    -- There are as many numbers as words, so that every field is one of them.
    obtain _ | ⟨h₀, _ | ⟨h₁, _ | ⟨h₂, _ | ⟨h₃, _ | ⟨h₄, _ | _⟩⟩⟩⟩⟩ := hn
    exact .cons h₀ (.cons h₁ (.cons h₂ (.cons h₃ (.cons h₄ (.nil _)))))
  · intro hn
    exact ⟨_, decodeAnswer_eq_ok.mpr (hread.mpr ⟨round.numbers, rfl, hn⟩), rfl⟩

end ContractCall

end DefiActions
