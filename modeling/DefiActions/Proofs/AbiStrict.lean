import DefiActions.Proofs.AbiSound

/-!
# What is read was written

Every value that the reader accepts is the value of something that can be
written, and what is written for it can be read again. The octets need not be
the same, since data may stand anywhere behind the words; where all parameters
stand in place they are.
-/

namespace DefiActions.Abi

open Bytes (wordSize)

/-! ## Words -/

theorem writes_of_decodeWord {data : Bytes} {pos : Nat} {w : WordKind} {u : Value}
    (h : decodeWord data pos w = .ok u) : ∃ v bs, w.Writes v bs ∧ w.readBack v = u ∧ Holds data pos bs := by
  obtain ⟨bs, hb, hw⟩ := bind_eq_ok.mp h
  obtain ⟨hl, hd⟩ := wordAt_eq_ok.mp hb
  obtain ⟨v, hv, hu⟩ := WordKind.writes_of_ofWord hl hw
  exact ⟨v, bs, hv, hu, hd⟩

theorem encodeAll_of_decodeWords {data : Bytes} {pos : Nat} {ws : List WordKind} {us : List Value}
    (h : decodeWords data pos ws = .ok us) :
    ∃ vs bs, vs.length = ws.length ∧ WordKind.encodeAll ws vs = .ok bs ∧ WordKind.readBackAll ws vs = us ∧
      Holds data pos bs := by
  induction ws generalizing pos us with
  | nil =>
    obtain rfl := Except.ok.inj h
    exact ⟨[], [], rfl, rfl, rfl, List.nil_prefix⟩
  | cons w ws ih =>
    simp only [decodeWords, bind_eq_ok, pure_eq_ok] at h
    obtain ⟨u, hu, us, hus, rfl⟩ := h
    obtain ⟨v, head, hw, rfl, hhead⟩ := writes_of_decodeWord hu
    obtain ⟨vs, rest, hl, hr, rfl, hrest⟩ := ih hus
    rw [← hw.length] at hrest
    refine ⟨v :: vs, head ++ rest, by rw [List.length_cons, hl, List.length_cons], ?_, rfl,
      holds_append.mpr ⟨hhead, hrest⟩⟩
    exact WordKind.encodeAll_cons_eq_ok.mpr ⟨head, rest, hw, hr, rfl⟩

/-! ## Octets of their own length -/

theorem natAt_lt {data : Bytes} {pos n : Nat} (h : natAt data pos = .ok n) : n < twoPow 256 := by
  obtain ⟨w, hw, rfl⟩ := map_eq_ok.mp h
  have hlt := Bytes.toNat_lt w
  rwa [(wordAt_eq_ok.mp hw).1, capacity_wordSize] at hlt

theorem length_of_blobAt {data bs : Bytes} {pos : Nat} (h : blobAt data pos = .ok bs) : bs.length < twoPow 256 := by
  simp only [blobAt, bind_eq_ok, throw_bind, throw_ite_eq_ok, pure_eq_ok] at h
  obtain ⟨size, hsize, -, -, rfl⟩ := h
  exact Nat.lt_of_le_of_lt (List.length_take_le ..) (natAt_lt hsize)

/-! ## Parameters -/

def Kind.isStatic : Kind → Bool
  | word _ => true
  | words _ => true
  | _ => false

/-- At most one parameter stands behind the words, and none holds offsets of its own. -/
def hasOneOffset : List Kind → Bool
  | [] => true
  | .bytesList :: _ => false
  | k :: ks => if k.isStatic then hasOneOffset ks else ks.all Kind.isStatic

theorem Kind.Writes.exists_inPlace {k : Kind} {v : Value} {p : Part} (h : k.Writes v p) (hs : k.isStatic = true) :
    ∃ words, p = .inPlace words := by
  cases h with
  | word | words => exact ⟨_, rfl⟩
  | bytes | text | bytesList => cases hs

theorem hasOneOffset_of_isStatic {ks : List Kind} (h : ks.all Kind.isStatic = true) : hasOneOffset ks = true := by
  induction ks with
  | nil => rfl
  | cons k ks ih =>
    rw [List.all_cons, Bool.and_eq_true] at h
    cases k with
    | word | words => exact ih h.2
    | bytes | text | bytesList => cases h.1

theorem ne_bytesList_of_hasOneOffset {k : Kind} {ks : List Kind} (h : hasOneOffset (k :: ks) = true) :
    k ≠ .bytesList ∧ hasOneOffset ks = true := by
  cases k with
  | word | words => exact ⟨nofun, h⟩
  | bytes | text => exact ⟨nofun, hasOneOffset_of_isStatic h⟩
  | bytesList => cases h

theorem inReach_of_isStatic {ks : List Kind} {vs : List Value} {ps : List Part} (h : encodeParts ks vs = .ok ps)
    (hs : ks.all Kind.isStatic = true) (offset : Nat) : Part.inReach offset ps = true := by
  induction ks generalizing vs ps with
  | nil => cases h; rfl
  | cons k ks ih =>
    rw [List.all_cons, Bool.and_eq_true] at hs
    obtain ⟨p, rest, hk, hrest, rfl⟩ := encodeParts_cons_eq_ok.mp h
    obtain ⟨words, rfl⟩ := hk.exists_inPlace hs.1
    rw [Part.inReach]
    exact ih hrest hs.2

theorem inReach_of_hasOneOffset {ks : List Kind} (ho : hasOneOffset ks = true) {vs : List Value} {ps : List Part}
    (h : encodeParts ks vs = .ok ps) {offset : Nat} (hlt : offset < twoPow 256) :
    Part.inReach offset ps = true := by
  induction ks generalizing vs ps with
  | nil => cases h; rfl
  | cons k ks ih =>
    obtain ⟨p, rest, hk, hrest, rfl⟩ := encodeParts_cons_eq_ok.mp h
    cases p with
    | inPlace words =>
      rw [Part.inReach]
      exact ih (ne_bytesList_of_hasOneOffset ho).2 hrest
    | behind data =>
      have hs : ks.all Kind.isStatic = true := by
        cases k with
        | word | words =>
          obtain ⟨_, hp⟩ := hk.exists_inPlace rfl
          cases hp
        | bytes | text => exact ho
        | bytesList => cases ho
      exact Part.inReach_behind.mpr ⟨hlt, inReach_of_isStatic hrest hs _⟩

/-- Where only one offset is written, it is the size of the words. -/
theorem encode_of_encodeParts {ks : List Kind} (ho : hasOneOffset ks = true) (hlt : headSize ks < twoPow 256)
    {vs : List Value} {ps : List Part} (h : encodeParts ks vs = .ok ps) : ∃ bs, encode ks vs = .ok bs := by
  have hin := inReach_of_hasOneOffset ho h hlt
  rw [← headsSize_of_encodeParts h] at hin
  exact ⟨_, bind_eq_ok.mpr ⟨ps, h, Part.assemble_eq_ok.mpr ⟨hin, rfl⟩⟩⟩

/-- The part that a value was read from could have been written; a part in place was read as it stands. -/
theorem writes_of_decodeAt {data : Bytes} {pos : Nat} {k : Kind} {u : Value} (h : k.decodeAt data pos = .ok u)
    (hk : k ≠ .bytesList) : ∃ v p, k.Writes v p ∧ k.readBack v = u ∧
      (k.isStatic = true → ∃ bs, p = .inPlace bs ∧ Holds data pos bs) := by
  cases k with
  | word w =>
    obtain ⟨v, bs, hw, hu, hd⟩ := writes_of_decodeWord h
    exact ⟨v, .inPlace bs, .word hw, hu, fun _ => ⟨bs, rfl, hd⟩⟩
  | words ws =>
    simp only [Kind.decodeAt, bind_eq_ok, pure_eq_ok] at h
    obtain ⟨us, hus, rfl⟩ := h
    obtain ⟨vs, bs, hl, hw, hu, hd⟩ := encodeAll_of_decodeWords hus
    exact ⟨.list vs, .inPlace bs, .words hl hw, congrArg Value.list hu, fun _ => ⟨bs, rfl, hd⟩⟩
  | bytes =>
    simp only [Kind.decodeAt, bind_eq_ok, pure_eq_ok] at h
    obtain ⟨offset, -, bs, hb, rfl⟩ := h
    exact ⟨.bytes bs, _, .bytes (length_of_blobAt hb), rfl, fun hs => by cases hs⟩
  | text =>
    simp only [Kind.decodeAt, bind_eq_ok] at h
    obtain ⟨offset, -, bs, hb, h⟩ := h
    cases ht : Utf8.text? bs with
    | none => simp [ht] at h
    | some s =>
      rw [ht] at h
      obtain rfl := pure_eq_ok.mp h
      have hl := length_of_blobAt hb
      rw [← Utf8.ofText_of_text? ht] at hl
      exact ⟨.text s, _, .text hl, rfl, fun hs => by cases hs⟩
  | bytesList => exact absurd rfl hk

theorem encodeParts_of_decodeFrom {data : Bytes} {pos : Nat} {ks : List Kind} (ho : hasOneOffset ks = true)
    {us : List Value} (h : decodeFrom data pos ks = .ok us) :
    ∃ vs ps, encodeParts ks vs = .ok ps ∧ vs.length = ks.length ∧ readBackAll ks vs = us ∧
      (ks.all Kind.isStatic = true → ∀ offset, Holds data pos (Part.heads offset ps) ∧ Part.tails ps = []) := by
  induction ks generalizing pos us with
  | nil =>
    obtain rfl := Except.ok.inj h
    exact ⟨[], [], rfl, rfl, rfl, fun _ _ => ⟨List.nil_prefix, rfl⟩⟩
  | cons k ks ih =>
    simp only [decodeFrom, bind_eq_ok, pure_eq_ok] at h
    obtain ⟨u, hu, us, hus, rfl⟩ := h
    obtain ⟨hne, ho⟩ := ne_bytesList_of_hasOneOffset ho
    obtain ⟨v, p, hk, rfl, hstatic⟩ := writes_of_decodeAt hu hne
    obtain ⟨vs, ps, hps, hl, rfl, hrest⟩ := ih ho hus
    refine ⟨v :: vs, p :: ps, encodeParts_cons_eq_ok.mpr ⟨p, ps, hk, hps, rfl⟩, ?_, rfl, fun hs offset => ?_⟩
    · rw [List.length_cons, List.length_cons, hl]
    · rw [List.all_cons, Bool.and_eq_true] at hs
      obtain ⟨bs, rfl, hd⟩ := hstatic hs.1
      obtain ⟨hw, ht⟩ := hrest hs.2 offset
      have hsize : bs.length = k.headSize := hk.headSize
      rw [← hsize] at hw
      exact ⟨holds_append.mpr ⟨hd, hw⟩, ht⟩

/-- **Parameters that are read can be written.** Where all
of them stand in place, they are written as they stand. -/
theorem encode_of_decode {ks : List Kind} (ho : hasOneOffset ks = true) (hlt : headSize ks < twoPow 256)
    {data : Bytes} {us : List Value} (h : decode ks data = .ok us) :
    ∃ vs again, encode ks vs = .ok again ∧ vs.length = ks.length ∧ readBackAll ks vs = us ∧
      (ks.all Kind.isStatic = true → again = data.take (headSize ks) ∧ again.length = headSize ks) := by
  obtain ⟨-, -, h⟩ := bind_eq_ok.mp h
  obtain ⟨vs, ps, hps, hl, hu, hstatic⟩ := encodeParts_of_decodeFrom ho h
  have hsize := headsSize_of_encodeParts hps
  have hin := inReach_of_hasOneOffset ho hps hlt
  rw [← hsize] at hin
  have ha := Part.assemble_eq_ok.mpr ⟨hin, rfl⟩
  refine ⟨vs, _, bind_eq_ok.mpr ⟨ps, hps, ha⟩, hl, hu, fun hs => ?_⟩
  obtain ⟨hw, ht⟩ := hstatic hs (Part.headsSize ps)
  have htake := hw.take_eq
  rw [Part.length_heads, hsize, List.drop_zero] at htake
  rw [ht, List.append_nil, Part.length_heads, hsize]
  exact ⟨htake.symm, rfl⟩

/-! ## Parameters that can be encoded

Parameters are encoded when each of them fits its kind and all offsets fit a
word. The only offset of a list is the size of its words, so that it always
fits there; the items of a list of octets have offsets that grow with the
lengths of the items before them. -/

namespace Kind

theorem exists_writes_word {w : WordKind} {v : Value} : (∃ p, (word w).Writes v p) ↔ ∃ bs, w.Writes v bs := by
  constructor
  · rintro ⟨p, h⟩
    obtain ⟨bs, hw, -⟩ := h.exists_word
    exact ⟨bs, hw⟩
  · rintro ⟨bs, h⟩
    exact ⟨_, .word h⟩

theorem exists_writes_words {ws : List WordKind} {vs : List Value} :
    (∃ p, (words ws).Writes (.list vs) p) ↔ vs.length = ws.length ∧ ∃ bs, WordKind.encodeAll ws vs = .ok bs := by
  constructor
  · rintro ⟨_, h⟩
    cases h with
    | words hl h => exact ⟨hl, _, h⟩
  · rintro ⟨hl, bs, h⟩
    exact ⟨_, .words hl h⟩

theorem exists_writes_bytes {v : Value} : (∃ p, bytes.Writes v p) ↔
    ∃ bs, v = .bytes bs ∧ bs.length < twoPow 256 := by
  constructor
  · rintro ⟨p, h⟩
    cases h with
    | bytes hl => exact ⟨_, rfl, hl⟩
  · rintro ⟨bs, rfl, hl⟩
    exact ⟨_, .bytes hl⟩

theorem exists_writes_bytesList {bss : List Bytes} : (∃ p, bytesList.Writes (.list (bss.map .bytes)) p) ↔
    (∀ bs ∈ bss, bs.length < twoPow 256) ∧ Part.inReach (wordSize * bss.length) (Part.ofBlobs bss) = true := by
  constructor
  · rintro ⟨p, h⟩
    generalize hv : Value.list (bss.map .bytes) = v at h
    cases h with
    | @bytesList bss' frame hl hf =>
      obtain rfl := List.map_injective_iff.mpr (fun _ _ => Value.bytes.inj) (Value.list.inj hv)
      rw [← Part.headsSize_ofBlobs]
      exact ⟨hl, (Part.assemble_eq_ok.mp hf).1⟩
  · rintro ⟨hl, hin⟩
    rw [← Part.headsSize_ofBlobs] at hin
    exact ⟨_, .bytesList hl (Part.assemble_eq_ok.mpr ⟨hin, rfl⟩)⟩

end Kind

theorem exists_encodeParts_cons {k : Kind} {ks : List Kind} {vs : List Value} :
    (∃ ps, encodeParts (k :: ks) vs = .ok ps) ↔
      (∃ p, k.Writes (vs.headD .null) p) ∧ ∃ ps, encodeParts ks vs.tail = .ok ps := by
  simp only [encodeParts_cons_eq_ok]
  constructor
  · rintro ⟨_, p, rest, hk, hrest, -⟩
    exact ⟨⟨p, hk⟩, rest, hrest⟩
  · rintro ⟨⟨p, hk⟩, rest, hrest⟩
    exact ⟨_, p, rest, hk, hrest, rfl⟩

theorem exists_encode_iff {ks : List Kind} (ho : hasOneOffset ks = true) (hlt : headSize ks < twoPow 256)
    {vs : List Value} : (∃ data, encode ks vs = .ok data) ↔ ∃ ps, encodeParts ks vs = .ok ps := by
  constructor
  · rintro ⟨data, h⟩
    obtain ⟨ps, hps, -⟩ := bind_eq_ok.mp h
    exact ⟨ps, hps⟩
  · rintro ⟨ps, hps⟩
    exact encode_of_encodeParts ho hlt hps

/-- Fields are written one by one, each for what becomes of it. -/
theorem exists_encodeParts_mapM {α : Type} {kind : α → Kind} {g : α → Except Failure Value} {xs : List α} :
    (∃ vs ps, xs.mapM g = .ok vs ∧ encodeParts (xs.map kind) vs = .ok ps) ↔
      ∀ x ∈ xs, ∃ v p, g x = .ok v ∧ (kind x).Writes v p := by
  induction xs with
  | nil => exact ⟨fun _ => nofun, fun _ => ⟨[], [], rfl, rfl⟩⟩
  | cons x xs ih =>
    simp only [List.forall_mem_cons, ← ih, List.mapM_cons, List.map_cons, bind_eq_ok, pure_eq_ok,
      encodeParts_cons_eq_ok]
    constructor
    · rintro ⟨_, _, ⟨v, hv, vs, hvs, rfl⟩, p, ps, hp, hps, rfl⟩
      exact ⟨⟨v, p, hv, hp⟩, vs, ps, hvs, hps⟩
    · rintro ⟨⟨v, p, hv, hp⟩, vs, ps, hvs, hps⟩
      exact ⟨_, _, ⟨v, hv, vs, hvs, rfl⟩, p, ps, hp, hps, rfl⟩

/-! ## Words only -/

theorem exists_encodeParts_words {ws : List WordKind} {vs : List Value} :
    (∃ ps, encodeParts (ws.map .word) vs = .ok ps) ↔ ∃ bs, WordKind.encodeAll ws vs = .ok bs := by
  induction ws generalizing vs with
  | nil => exact ⟨fun _ => ⟨[], rfl⟩, fun _ => ⟨[], rfl⟩⟩
  | cons w ws ih =>
    rw [List.map_cons, exists_encodeParts_cons, WordKind.exists_encodeAll_cons, Kind.exists_writes_word, ih]

/-- Words are encoded as they stand in a row. -/
theorem encode_words_eq_ok {ws : List WordKind} {vs : List Value} {bs : Bytes} :
    encode (ws.map .word) vs = .ok bs ↔ WordKind.encodeAll ws vs = .ok bs := by
  refine ⟨fun h => ?_, encode_of_encodeAll⟩
  obtain ⟨ps, hps, -⟩ := bind_eq_ok.mp h
  obtain ⟨bs', hw⟩ := exists_encodeParts_words.mp ⟨ps, hps⟩
  rw [hw, ← encode_of_encodeAll hw, h]

end DefiActions.Abi
