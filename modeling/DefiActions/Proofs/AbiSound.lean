import DefiActions.Proofs.AbiWordSound
import DefiActions.Proofs.ExceptLemmas
import DefiActions.Proofs.Utf8Sound

/-!
# Encoded parameters are read back

`Kind.Writes` says which part a value of each kind is written as, and
`Kind.readBack` what is read for it. The reader goes along with the writer: at
every parameter the words of the remaining parts stand at the position, and
their data at the offset that the next of them names.
-/

namespace DefiActions.Abi

open Bytes (wordSize ceilWord)

/-! ## Octets at a position -/

def Holds (data : Bytes) (pos : Nat) (bs : Bytes) : Prop := bs <+: data.drop pos

theorem holds_append {data : Bytes} {pos : Nat} {xs ys : Bytes} :
    Holds data pos (xs ++ ys) ↔ Holds data pos xs ∧ Holds data (pos + xs.length) ys := by
  unfold Holds
  rw [← List.drop_drop]
  constructor
  · rintro ⟨t, ht⟩
    rw [← ht, List.append_assoc]
    refine ⟨List.prefix_append .., ?_⟩
    rw [List.drop_left]
    exact List.prefix_append ..
  · rintro ⟨⟨t, ht⟩, h⟩
    rw [← ht] at h ⊢
    rw [List.drop_left] at h
    exact (List.prefix_append_right_inj xs).mpr h

theorem Holds.take_eq {data : Bytes} {pos : Nat} {bs : Bytes} (h : Holds data pos bs) :
    (data.drop pos).take bs.length = bs := (List.prefix_iff_eq_take.mp h).symm

theorem Holds.length_le {data : Bytes} {pos : Nat} {bs : Bytes} (h : Holds data pos bs) :
    bs.length ≤ data.length - pos := by
  have := List.IsPrefix.length_le h
  rwa [List.length_drop] at this

theorem Holds.drop {data : Bytes} {start pos : Nat} {bs : Bytes} (h : Holds data (start + pos) bs) :
    Holds (data.drop start) pos bs := by
  unfold Holds at h ⊢
  rwa [List.drop_drop]

theorem holds_zero (bs rest : Bytes) : Holds (bs ++ rest) 0 bs := List.prefix_append ..

theorem wordAt_eq_ok {data w : Bytes} {pos : Nat} :
    wordAt data pos = .ok w ↔ w.length = wordSize ∧ Holds data pos w := by
  simp only [wordAt, ite_throw_eq_ok, Except.ok.injEq]
  constructor
  · rintro ⟨hl, rfl⟩
    exact ⟨hl, List.take_prefix ..⟩
  · rintro ⟨hl, hw⟩
    have := hw.take_eq
    rw [hl] at this
    rw [this]
    exact ⟨hl, rfl⟩

theorem natAt_of_holds {data : Bytes} {pos n : Nat} (hn : n < twoPow 256) (h : Holds data pos (Bytes.word n)) :
    natAt data pos = .ok n := by
  rw [← capacity_wordSize] at hn
  rw [natAt, wordAt_eq_ok.mpr ⟨Bytes.length_word n, h⟩, Except.map, Bytes.toNat_word hn]

/-! ## Words in a row -/

namespace WordKind

theorem encodeAll_cons_eq_ok {w : WordKind} {ws : List WordKind} {vs : List Value} {bs : Bytes} :
    encodeAll (w :: ws) vs = .ok bs ↔
      ∃ head rest, w.Writes (vs.headD .null) head ∧ encodeAll ws vs.tail = .ok rest ∧ head ++ rest = bs := by
  simp only [encodeAll, bind_eq_ok, pure_eq_ok, encode_eq_ok]
  constructor
  · rintro ⟨head, hw, rest, hr, h⟩
    exact ⟨head, rest, hw, hr, h⟩
  · rintro ⟨head, rest, hw, hr, h⟩
    exact ⟨head, hw, rest, hr, h⟩

theorem exists_encodeAll_cons {w : WordKind} {ws : List WordKind} {vs : List Value} :
    (∃ bs, encodeAll (w :: ws) vs = .ok bs) ↔
      (∃ head, w.Writes (vs.headD .null) head) ∧ ∃ rest, encodeAll ws vs.tail = .ok rest := by
  simp only [encodeAll_cons_eq_ok]
  constructor
  · rintro ⟨_, head, rest, hw, hr, -⟩
    exact ⟨⟨head, hw⟩, rest, hr⟩
  · rintro ⟨⟨head, hw⟩, rest, hr⟩
    exact ⟨_, head, rest, hw, hr, rfl⟩

def readBackAll : List WordKind → List Value → List Value
  | [], _ => []
  | w :: ws, vs => w.readBack (vs.headD .null) :: readBackAll ws vs.tail

theorem length_encodeAll {ws : List WordKind} {vs : List Value} {bs : Bytes} (h : encodeAll ws vs = .ok bs) :
    bs.length = wordSize * ws.length := by
  induction ws generalizing vs bs with
  | nil => cases h; rfl
  | cons w ws ih =>
    obtain ⟨head, rest, hw, hr, rfl⟩ := encodeAll_cons_eq_ok.mp h
    rw [List.length_append, hw.length, ih hr, List.length_cons, Nat.mul_succ, Nat.add_comm]

end WordKind

theorem decodeWord_of_writes {w : WordKind} (hs : w.sized = true) {v : Value} {data bs : Bytes} {pos : Nat}
    (hw : w.Writes v bs) (hd : Holds data pos bs) : decodeWord data pos w = .ok (w.readBack v) := by
  rw [decodeWord, wordAt_eq_ok.mpr ⟨hw.length, hd⟩, ok_bind]
  exact WordKind.ofWord_of_writes hs hw

theorem decodeWords_of_encodeAll {ws : List WordKind} (hs : ∀ w ∈ ws, w.sized = true) {vs : List Value}
    {data bs : Bytes} {pos : Nat} (h : WordKind.encodeAll ws vs = .ok bs) (hd : Holds data pos bs) :
    decodeWords data pos ws = .ok (WordKind.readBackAll ws vs) := by
  induction ws generalizing vs bs pos with
  | nil => rfl
  | cons w ws ih =>
    obtain ⟨head, rest, hw, hr, rfl⟩ := WordKind.encodeAll_cons_eq_ok.mp h
    obtain ⟨hhead, hrest⟩ := holds_append.mp hd
    rw [hw.length] at hrest
    rw [decodeWords, decodeWord_of_writes (hs w (List.mem_cons_self ..)) hw hhead, ok_bind,
      ih (fun x hx => hs x (List.mem_cons_of_mem _ hx)) hr hrest]
    rfl

/-! ## Octets of their own length -/

theorem length_blob (bs : Bytes) : (blob bs).length = wordSize + ceilWord bs.length := by simp [blob]

theorem blobPart_eq_ok {bs : Bytes} {p : Part} :
    blobPart bs = .ok p ↔ bs.length < twoPow 256 ∧ Part.behind (blob bs) = p := by
  simp only [blobPart, ite_throw_eq_ok, Except.ok.injEq]

theorem blobAt_of_holds {data bs : Bytes} {pos : Nat} (hl : bs.length < twoPow 256) (h : Holds data pos (blob bs)) :
    blobAt data pos = .ok bs := by
  obtain ⟨hsize, hfield⟩ := holds_append.mp h
  rw [Bytes.length_word] at hfield
  have hfield := hfield.take_eq
  rw [Bytes.length_padded] at hfield
  have hzero : ((Bytes.padded bs).drop bs.length).any (· ≠ 0) = false := by
    simp [Bytes.padded, Bytes.zeros]
  rw [blobAt, natAt_of_holds hl hsize, ok_bind]
  simp only [hfield, Bytes.length_padded, Nat.lt_irrefl, hzero, ite_false, Bool.false_eq_true]
  rw [Bytes.padded, List.take_left]
  rfl

/-! ## Parts -/

namespace Part

theorem length_heads (offset : Nat) (ps : List Part) : (heads offset ps).length = headsSize ps := by
  induction ps generalizing offset with
  | nil => rfl
  | cons p ps ih =>
    cases p with
    | inPlace words => rw [heads, List.length_append, ih]; rfl
    | behind data => rw [heads, List.length_append, ih, Bytes.length_word]; rfl

def ofBlobs (bss : List Bytes) : List Part := bss.map fun bs => behind (blob bs)

theorem headsSize_ofBlobs (bss : List Bytes) : headsSize (ofBlobs bss) = wordSize * bss.length := by
  induction bss with
  | nil => rfl
  | cons bs bss ih =>
    have e : headsSize (ofBlobs (bs :: bss)) = wordSize + headsSize (ofBlobs bss) := rfl
    rw [e, ih, List.length_cons, Nat.mul_succ, Nat.add_comm]

theorem assemble_eq_ok {ps : List Part} {data : Bytes} : assemble ps = .ok data ↔
    inReach (headsSize ps) ps = true ∧ heads (headsSize ps) ps ++ tails ps = data := by
  simp only [assemble, ite_throw_eq_ok, Except.ok.injEq]

theorem inReach_behind {offset : Nat} {data : Bytes} {ps : List Part} :
    inReach offset (behind data :: ps) = true ↔ offset < twoPow 256 ∧ inReach (offset + data.length) ps = true := by
  rw [inReach, Bool.and_eq_true, decide_eq_true_eq]

/-- The first item stands behind an offset for every item, so that their number fits a word. -/
theorem length_lt_of_inReach {bss : List Bytes} (h : inReach (headsSize (ofBlobs bss)) (ofBlobs bss) = true) :
    bss.length < twoPow 256 := by
  cases bss with
  | nil => decide
  | cons bs bss =>
    have hlt := (inReach_behind.mp h).1
    have hle : (bs :: bss).length ≤ wordSize * (bs :: bss).length := Nat.le_mul_of_pos_left _ (by decide)
    rw [headsSize_ofBlobs] at hlt
    exact Nat.lt_of_le_of_lt hle hlt

end Part

namespace Kind

inductive Writes : Kind → Value → Part → Prop
  | word {w : WordKind} {v : Value} {bs : Bytes} (h : w.Writes v bs) : Writes (word w) v (.inPlace bs)
  | words {ws : List WordKind} {vs : List Value} {bs : Bytes} (hl : vs.length = ws.length)
    (h : WordKind.encodeAll ws vs = .ok bs) : Writes (words ws) (.list vs) (.inPlace bs)
  | bytes {bs : Bytes} (hl : bs.length < twoPow 256) : Writes bytes (.bytes bs) (.behind (blob bs))
  | text {s : String} (hl : (Utf8.ofText s).length < twoPow 256) :
    Writes text (.text s) (.behind (blob (Utf8.ofText s)))
  | bytesList {bss : List Bytes} {frame : Bytes} (hl : ∀ bs ∈ bss, bs.length < twoPow 256)
    (h : Part.assemble (Part.ofBlobs bss) = .ok frame) :
    Writes bytesList (.list (bss.map .bytes)) (.behind (Bytes.word bss.length ++ frame))

theorem Writes.exists_word {w : WordKind} {v : Value} {p : Part} (h : (Kind.word w).Writes v p) :
    ∃ bs, w.Writes v bs ∧ p = .inPlace bs := by
  cases h with
  | word h => exact ⟨_, h, rfl⟩

theorem Writes.exists_words {ws : List WordKind} {vs : List Value} {p : Part}
    (h : (Kind.words ws).Writes (.list vs) p) : ∃ bs, WordKind.encodeAll ws vs = .ok bs := by
  cases h with
  | words hl h => exact ⟨_, h⟩

theorem octetsOf_eq_ok {v : Value} {bs : Bytes} : octetsOf v = .ok bs ↔ v = .bytes bs := by
  cases v <;> simp [octetsOf]

theorem mapM_blobPart_eq_ok {vs : List Value} {ps : List Part} :
    (vs.mapM fun v => octetsOf v >>= blobPart) = .ok ps ↔
      ∃ bss, vs = bss.map .bytes ∧ (∀ bs ∈ bss, bs.length < twoPow 256) ∧ ps = Part.ofBlobs bss := by
  rw [mapM_eq_ok]
  constructor
  · intro h
    induction h with
    | nil => exact ⟨[], rfl, nofun, rfl⟩
    | cons hv _ ih =>
      obtain ⟨bs, hb, hp⟩ := bind_eq_ok.mp hv
      obtain ⟨hl, rfl⟩ := blobPart_eq_ok.mp hp
      obtain ⟨bss, rfl, hls, rfl⟩ := ih
      rw [octetsOf_eq_ok.mp hb]
      exact ⟨bs :: bss, rfl, List.forall_mem_cons.mpr ⟨hl, hls⟩, rfl⟩
  · rintro ⟨bss, rfl, hl, rfl⟩
    induction bss with
    | nil => exact .nil
    | cons bs bss ih =>
      obtain ⟨hl, hls⟩ := List.forall_mem_cons.mp hl
      exact .cons (bind_eq_ok.mpr ⟨bs, rfl, blobPart_eq_ok.mpr ⟨hl, rfl⟩⟩) (ih hls)

theorem encode_eq_ok {k : Kind} {v : Value} {p : Part} : k.encode v = .ok p ↔ k.Writes v p := by
  constructor
  · intro h
    cases k with
    | word w =>
      obtain ⟨bs, hw, rfl⟩ := map_eq_ok.mp h
      exact .word (WordKind.encode_eq_ok.mp hw)
    | words ws =>
      cases v with
      | list vs =>
        simp only [encode, ite_throw_eq_ok, map_eq_ok] at h
        obtain ⟨hl, bs, hw, rfl⟩ := h
        exact .words hl hw
      | _ => cases h
    | bytes =>
      obtain ⟨bs, hw, hp⟩ := bind_eq_ok.mp h
      obtain rfl := octetsOf_eq_ok.mp hw
      obtain ⟨hl, rfl⟩ := blobPart_eq_ok.mp hp
      exact .bytes hl
    | text =>
      cases v with
      | text s =>
        obtain ⟨hl, rfl⟩ := blobPart_eq_ok.mp h
        exact .text hl
      | _ => cases h
    | bytesList =>
      cases v with
      | list vs =>
        simp only [encode, bind_eq_ok, pure_eq_ok, mapM_blobPart_eq_ok] at h
        obtain ⟨_, ⟨bss, rfl, hl, rfl⟩, frame, hf, rfl⟩ := h
        rw [List.length_map]
        exact .bytesList hl hf
      | _ => cases h
  · intro h
    cases h with
    | word h => rw [encode, WordKind.encode_of_writes h]; rfl
    | words hl h => rw [encode, if_pos hl, h]; rfl
    | bytes hl => exact bind_eq_ok.mpr ⟨_, rfl, blobPart_eq_ok.mpr ⟨hl, rfl⟩⟩
    | text hl => exact blobPart_eq_ok.mpr ⟨hl, rfl⟩
    | @bytesList bss frame hl hf =>
      simp only [encode, mapM_blobPart_eq_ok.mpr ⟨bss, rfl, hl, rfl⟩, hf, ok_bind, List.length_map]
      rfl

theorem Writes.headSize {k : Kind} {v : Value} {p : Part} (h : k.Writes v p) : p.headSize = k.headSize := by
  cases h with
  | word h => exact h.length
  | words hl h => exact WordKind.length_encodeAll h
  | bytes | text | bytesList => rfl

theorem Writes.le_length {k : Kind} {v : Value} {p : Part} (h : k.Writes v p) {data : Bytes}
    (hp : p = .behind data) :
    wordSize ≤ data.length := by
  cases h with
  | word h => cases hp
  | words hl h => cases hp
  | bytes | text =>
    rw [← Part.behind.inj hp, length_blob]
    omega
  | bytesList =>
    rw [← Part.behind.inj hp, List.length_append, Bytes.length_word]
    omega

def sized : Kind → Bool
  | word w => w.sized
  | words ws => ws.all WordKind.sized
  | _ => true

def readBack : Kind → Value → Value
  | word w, v => w.readBack v
  | words ws, .list vs => .list (WordKind.readBackAll ws vs)
  | _, v => v

end Kind

/-! ## Reading along -/

theorem offsetAt_of_holds {data bs : Bytes} {headEnd pos offset : Nat} (hw : Holds data pos (Bytes.word offset))
    (hd : Holds data offset bs) (hb : wordSize ≤ bs.length) (he : headEnd ≤ offset)
    (hlt : offset < twoPow 256) : offsetAt data headEnd pos = .ok offset := by
  have hle := hd.length_le
  have hpos : 0 < wordSize := by decide
  rw [offsetAt, natAt_of_holds hlt hw, ok_bind, if_neg (by omega)]
  rfl

theorem offsetsAt_of_holds {frame : Bytes} {headEnd : Nat} {bss : List Bytes}
    (hl : ∀ bs ∈ bss, bs.length < twoPow 256) {pos offset : Nat}
    (hw : Holds frame pos (Part.heads offset (Part.ofBlobs bss)))
    (ht : Holds frame offset (Part.tails (Part.ofBlobs bss))) (he : headEnd ≤ offset)
    (hin : Part.inReach offset (Part.ofBlobs bss) = true) :
    ∃ offsets, offsetsAt frame headEnd bss.length pos = .ok offsets ∧ offsets.mapM (blobAt frame) = .ok bss := by
  induction bss generalizing pos offset with
  | nil => exact ⟨[], rfl, rfl⟩
  | cons bs bss ih =>
    obtain ⟨hl, hls⟩ := List.forall_mem_cons.mp hl
    obtain ⟨hlt, hin⟩ := Part.inReach_behind.mp hin
    obtain ⟨hw, hws⟩ := holds_append.mp hw
    obtain ⟨ht, hts⟩ := holds_append.mp ht
    rw [Bytes.length_word] at hws
    have hsize := length_blob bs
    obtain ⟨offsets, ho, hm⟩ := ih hls hws hts (by omega) hin
    refine ⟨offset :: offsets, ?_, ?_⟩
    · rw [List.length_cons, offsetsAt, offsetAt_of_holds hw ht (by omega) he hlt, ok_bind, ho]
      rfl
    · rw [List.mapM_cons, blobAt_of_holds hl ht, ok_bind, hm]
      rfl

theorem blobsAt_of_holds {data frame : Bytes} {pos : Nat} {bss : List Bytes}
    (hl : ∀ bs ∈ bss, bs.length < twoPow 256)
    (h : Part.assemble (Part.ofBlobs bss) = .ok frame) (hd : Holds data pos (Bytes.word bss.length ++ frame)) :
    blobsAt data pos = .ok bss := by
  obtain ⟨hin, rfl⟩ := Part.assemble_eq_ok.mp h
  obtain ⟨hcount, hframe⟩ := holds_append.mp hd
  rw [Bytes.length_word] at hframe
  have hframe : Holds (data.drop (pos + wordSize)) 0 _ := Holds.drop hframe
  obtain ⟨hw, ht⟩ := holds_append.mp hframe
  have hle := hw.length_le
  have hlt := Part.length_lt_of_inReach hin
  rw [Part.length_heads, Part.headsSize_ofBlobs, Nat.sub_zero] at hle
  rw [Part.length_heads, Nat.zero_add, Part.headsSize_ofBlobs] at ht
  rw [Part.headsSize_ofBlobs] at hw hin
  obtain ⟨offsets, ho, hm⟩ := offsetsAt_of_holds hl hw ht (Nat.le_refl _) hin
  rw [blobsAt, natAt_of_holds hlt hcount, ok_bind]
  simp only
  rw [if_neg (by omega), ho]
  exact hm

def checkHead (data : Bytes) (headEnd pos : Nat) : Kind → Except Failure Unit
  | .word w => (decodeWord data pos w).map fun _ => ()
  | .words ws => (decodeWords data pos ws).map fun _ => ()
  | _ => (offsetAt data headEnd pos).map fun _ => ()

theorem checkHeads_cons (data : Bytes) (headEnd pos : Nat) (k : Kind) (ks : List Kind) :
    checkHeads data headEnd pos (k :: ks) =
      (checkHead data headEnd pos k >>= fun _ => checkHeads data headEnd (pos + k.headSize) ks) := by
  cases k with
  | word w =>
    rw [checkHeads, checkHead]
    cases decodeWord data pos w <;> rfl
  | words ws =>
    rw [checkHeads, checkHead]
    cases decodeWords data pos ws <;> rfl
  | _ =>
    simp only [checkHeads, checkHead]
    cases offsetAt data headEnd pos <;> rfl

theorem decodeAt_of_inPlace {k : Kind} (hs : k.sized = true) {v : Value} {data bs : Bytes} {pos : Nat}
    (hk : k.Writes v (.inPlace bs)) (hd : Holds data pos bs) (headEnd : Nat) :
    checkHead data headEnd pos k = .ok () ∧ k.decodeAt data pos = .ok (k.readBack v) := by
  cases hk with
  | @word w _ _ hw =>
    have hv := decodeWord_of_writes hs hw hd
    rw [checkHead, Kind.decodeAt, hv]
    exact ⟨rfl, rfl⟩
  | @words ws vs _ hl hw =>
    have hv := decodeWords_of_encodeAll (List.all_eq_true.mp hs) hw hd
    rw [checkHead, Kind.decodeAt, hv]
    exact ⟨rfl, rfl⟩

theorem decodeAt_of_behind {k : Kind} {v : Value} {p : Part} {data bs : Bytes} {pos offset headEnd : Nat}
    (hk : k.Writes v p) (hp : p = .behind bs) (hw : Holds data pos (Bytes.word offset)) (hd : Holds data offset bs)
    (he : headEnd ≤ offset) (hlt : offset < twoPow 256) :
    checkHead data headEnd pos k = .ok () ∧ k.decodeAt data pos = .ok (k.readBack v) := by
  have ho := offsetAt_of_holds hw hd (hk.le_length hp) he hlt
  have hn := natAt_of_holds hlt hw
  cases hk with
  | word h => cases hp
  | words hl h => cases hp
  | bytes hl =>
    obtain rfl := Part.behind.inj hp
    simp only [checkHead, ho]
    rw [Kind.decodeAt, hn, ok_bind, blobAt_of_holds hl hd]
    exact ⟨rfl, rfl⟩
  | text hl =>
    obtain rfl := Part.behind.inj hp
    simp only [checkHead, ho]
    rw [Kind.decodeAt, hn, ok_bind, blobAt_of_holds hl hd, ok_bind]
    simp only [Utf8.text?_ofText]
    exact ⟨rfl, rfl⟩
  | bytesList hl h =>
    obtain rfl := Part.behind.inj hp
    simp only [checkHead, ho]
    rw [Kind.decodeAt, hn, ok_bind, blobsAt_of_holds hl h hd]
    exact ⟨rfl, rfl⟩

theorem encodeParts_cons_eq_ok {k : Kind} {ks : List Kind} {vs : List Value} {ps : List Part} :
    encodeParts (k :: ks) vs = .ok ps ↔
      ∃ p rest, k.Writes (vs.headD .null) p ∧ encodeParts ks vs.tail = .ok rest ∧ p :: rest = ps := by
  simp only [encodeParts, bind_eq_ok, pure_eq_ok, Kind.encode_eq_ok]
  constructor
  · rintro ⟨p, hk, rest, hr, h⟩
    exact ⟨p, rest, hk, hr, h⟩
  · rintro ⟨p, rest, hk, hr, h⟩
    exact ⟨p, hk, rest, hr, h⟩

theorem encodeParts_cons_eq_error {k : Kind} {ks : List Kind} {vs : List Value} {f : Failure} :
    encodeParts (k :: ks) vs = .error f ↔ k.encode (vs.headD .null) = .error f ∨
      ∃ p, k.Writes (vs.headD .null) p ∧ encodeParts ks vs.tail = .error f := by
  simp only [encodeParts, bind_eq_error, Kind.encode_eq_ok]
  constructor
  · rintro (h | ⟨p, hk, h | ⟨_, -, h⟩⟩)
    · exact .inl h
    · exact .inr ⟨p, hk, h⟩
    · cases h
  · rintro (h | ⟨p, hk, h⟩)
    · exact .inl h
    · exact .inr ⟨p, hk, .inl h⟩

def readBackAll : List Kind → List Value → List Value
  | [], _ => []
  | k :: ks, vs => k.readBack (vs.headD .null) :: readBackAll ks vs.tail

theorem headsSize_of_encodeParts {ks : List Kind} {vs : List Value} {ps : List Part}
    (h : encodeParts ks vs = .ok ps) : Part.headsSize ps = headSize ks := by
  induction ks generalizing vs ps with
  | nil => cases h; rfl
  | cons k ks ih =>
    obtain ⟨p, rest, hk, hr, rfl⟩ := encodeParts_cons_eq_ok.mp h
    rw [Part.headsSize, headSize, hk.headSize, ih hr]

/-- Both passes succeed where the words stand at the position and the data at the offset. -/
theorem decodeFrom_of_holds {ks : List Kind} (hs : ∀ k ∈ ks, k.sized = true) {vs : List Value} {ps : List Part}
    (h : encodeParts ks vs = .ok ps) {data : Bytes} {headEnd pos offset : Nat}
    (hw : Holds data pos (Part.heads offset ps)) (ht : Holds data offset (Part.tails ps)) (he : headEnd ≤ offset)
    (hin : Part.inReach offset ps = true) :
    checkHeads data headEnd pos ks = .ok () ∧ decodeFrom data pos ks = .ok (readBackAll ks vs) := by
  -- Every parameter moves the position past its head, and the offset past its data.
  induction ks generalizing vs ps pos offset with
  | nil => exact ⟨rfl, rfl⟩
  | cons k ks ih =>
    obtain ⟨p, rest, hk, hrest, rfl⟩ := encodeParts_cons_eq_ok.mp h
    have hks : ∀ x ∈ ks, x.sized = true := fun x hx => hs x (List.mem_cons_of_mem _ hx)
    have hsize := hk.headSize
    rw [checkHeads_cons, decodeFrom]
    cases p with
    | inPlace words =>
      obtain ⟨hw, hws⟩ := holds_append.mp hw
      have hsize : words.length = k.headSize := hsize
      rw [hsize] at hws
      obtain ⟨hc, hv⟩ := decodeAt_of_inPlace (hs k (List.mem_cons_self ..)) hk hw headEnd
      obtain ⟨hcs, hvs⟩ := ih hks hrest hws ht he hin
      rw [hc, hv, ok_bind, ok_bind, hvs]
      exact ⟨hcs, rfl⟩
    | behind bs =>
      obtain ⟨hw, hws⟩ := holds_append.mp hw
      obtain ⟨ht, hts⟩ := holds_append.mp ht
      obtain ⟨hlt, hin⟩ := Part.inReach_behind.mp hin
      have hsize : wordSize = k.headSize := hsize
      rw [Bytes.length_word, hsize] at hws
      obtain ⟨hc, hv⟩ := decodeAt_of_behind hk rfl hw ht he hlt
      obtain ⟨hcs, hvs⟩ := ih hks hrest hws hts (by omega) hin
      rw [hc, hv, ok_bind, ok_bind, hvs]
      exact ⟨hcs, rfl⟩

/-- **Encoded parameters are read back**, whatever follows them. -/
theorem decode_encode {ks : List Kind} (hs : ∀ k ∈ ks, k.sized = true) {vs : List Value} {data : Bytes}
    (h : encode ks vs = .ok data) (rest : Bytes) : decode ks (data ++ rest) = .ok (readBackAll ks vs) := by
  obtain ⟨ps, hp, ha⟩ := bind_eq_ok.mp h
  obtain ⟨hin, rfl⟩ := Part.assemble_eq_ok.mp ha
  obtain ⟨hw, ht⟩ := holds_append.mp (holds_zero (Part.heads (Part.headsSize ps) ps ++ Part.tails ps) rest)
  rw [Part.length_heads, Nat.zero_add] at ht
  obtain ⟨hc, hv⟩ := decodeFrom_of_holds hs hp hw ht (Nat.le_refl _) hin
  rw [decode, ← headsSize_of_encodeParts hp, hc, ok_bind]
  exact hv

/-! ## Words only -/

theorem encodeParts_of_encodeAll {ws : List WordKind} {vs : List Value} {bs : Bytes}
    (h : WordKind.encodeAll ws vs = .ok bs) : ∃ ps, encodeParts (ws.map .word) vs = .ok ps ∧
      (∀ offset, Part.heads offset ps = bs ∧ Part.inReach offset ps = true) ∧ Part.tails ps = [] := by
  induction ws generalizing vs bs with
  | nil =>
    obtain rfl := Except.ok.inj h
    exact ⟨[], rfl, fun _ => ⟨rfl, rfl⟩, rfl⟩
  | cons w ws ih =>
    obtain ⟨head, rest, hw, hr, rfl⟩ := WordKind.encodeAll_cons_eq_ok.mp h
    obtain ⟨ps, hps, hheads, htails⟩ := ih hr
    refine ⟨.inPlace head :: ps, encodeParts_cons_eq_ok.mpr ⟨_, ps, .word hw, hps, rfl⟩, fun offset => ?_, htails⟩
    rw [Part.heads, (hheads offset).1]
    exact ⟨rfl, (hheads offset).2⟩

theorem encode_of_encodeAll {ws : List WordKind} {vs : List Value} {bs : Bytes}
    (h : WordKind.encodeAll ws vs = .ok bs) : encode (ws.map .word) vs = .ok bs := by
  obtain ⟨ps, hps, hheads, htails⟩ := encodeParts_of_encodeAll h
  obtain ⟨hh, hin⟩ := hheads (Part.headsSize ps)
  refine bind_eq_ok.mpr ⟨ps, hps, Part.assemble_eq_ok.mpr ⟨hin, ?_⟩⟩
  rw [hh, htails, List.append_nil]

end DefiActions.Abi
