import DefiActions.Proofs.AbiStrict

/-!
# Where parameters stand

Encoded parameters can be cut at any one of them. The heads of those before it
come first and then its own, and its data stands behind the data of those
before it. A parameter that stands in place moves none of the others, so that
another value of it changes nothing but its own words.
-/

namespace DefiActions.Abi

open Bytes (wordSize capacity)

/-! ## Words as numbers -/

def integer? : Value → Option Int
  | .int n => some n
  | .bool b => some b.toNat
  | .bytes bs => some (Bytes.toNat bs)
  | _ => none

/-- Every word is the two's complement of the integer that it is written for. -/
theorem WordKind.Writes.eq_ofInt {w : WordKind} (hs : w.sized = true) {v : Value} {bs : Bytes} (h : w.Writes v bs) :
    ∃ n, integer? v = some n ∧ bs = Bytes.ofInt wordSize n := by
  have hc := capacity_wordSize
  cases h with
  | @uint bits n lo hi =>
    have hb : twoPow bits ≤ twoPow 256 := twoPow_mono (by simpa [sized] using hs)
    have hn : Bytes.ofInt wordSize (n.toNat : Int) = Bytes.word n.toNat := Bytes.ofInt_natCast (by omega)
    exact ⟨n, rfl, by rw [← hn, Int.toNat_of_nonneg lo]⟩
  | int lo hi => exact ⟨_, rfl, rfl⟩
  | bool b =>
    have hlt : b.toNat < capacity wordSize := Nat.lt_of_le_of_lt (Bool.toNat_le b) (by decide)
    exact ⟨b.toNat, rfl, (Bytes.ofInt_natCast hlt).symm⟩
  | @address bs hl =>
    have hlen : (Bytes.zeros 12 ++ bs).length = wordSize := by simp [hl, wordSize]
    have he : Bytes.toNat (Bytes.zeros 12 ++ bs) = Bytes.toNat bs := by simp [Bytes.toNat_append]
    refine ⟨Bytes.toNat bs, rfl, ?_⟩
    rw [← he, ← hlen, Bytes.ofInt_toNat]
  | @octets32 bs hl =>
    have hlen : bs.length = wordSize := hl
    exact ⟨Bytes.toNat bs, rfl, by rw [← hlen, Bytes.ofInt_toNat]⟩

/-! ## Cutting -/

namespace Part

def head (offset : Nat) : Part → Bytes
  | inPlace words => words
  | behind _ => Bytes.word offset

def tail : Part → Bytes
  | inPlace _ => []
  | behind data => data

theorem heads_cons (offset : Nat) (p : Part) (ps : List Part) :
    heads offset (p :: ps) = p.head offset ++ heads (offset + p.tail.length) ps := by
  cases p with
  | inPlace words => rfl
  | behind data => rfl

theorem tails_cons (p : Part) (ps : List Part) : tails (p :: ps) = p.tail ++ tails ps := by
  cases p with
  | inPlace words => rfl
  | behind data => rfl

theorem heads_append (offset : Nat) (ps qs : List Part) :
    heads offset (ps ++ qs) = heads offset ps ++ heads (offset + (tails ps).length) qs := by
  induction ps generalizing offset with
  | nil => rfl
  | cons p ps ih =>
    rw [List.cons_append, heads_cons, ih, heads_cons, tails_cons, List.append_assoc, List.length_append,
      Nat.add_assoc]

theorem tails_append (ps qs : List Part) : tails (ps ++ qs) = tails ps ++ tails qs := by
  induction ps with
  | nil => rfl
  | cons p ps ih => rw [List.cons_append, tails_cons, ih, tails_cons, List.append_assoc]

end Part

theorem headSize_append (ks ls : List Kind) : headSize (ks ++ ls) = headSize ks + headSize ls := by
  induction ks with
  | nil => rw [List.nil_append, headSize, Nat.zero_add]
  | cons k ks ih => rw [List.cons_append, headSize, headSize, ih, Nat.add_assoc]

theorem encodeParts_append_eq_ok {ks ls : List Kind} {vs ws : List Value} (hl : vs.length = ks.length)
    {ps : List Part} (h : encodeParts (ks ++ ls) (vs ++ ws) = .ok ps) :
    ∃ qs rs, encodeParts ks vs = .ok qs ∧ encodeParts ls ws = .ok rs ∧ qs ++ rs = ps := by
  induction ks generalizing vs ps with
  | nil =>
    obtain rfl := List.eq_nil_of_length_eq_zero hl
    exact ⟨[], ps, rfl, h, rfl⟩
  | cons k ks ih =>
    cases vs with
    | nil => cases hl
    | cons v vs =>
      obtain ⟨p, _, hk, hrest, rfl⟩ := encodeParts_cons_eq_ok.mp h
      obtain ⟨qs, rs, hqs, hrs, rfl⟩ := ih (by simpa using hl) hrest
      exact ⟨p :: qs, rs, encodeParts_cons_eq_ok.mpr ⟨p, qs, hk, hqs, rfl⟩, hrs, rfl⟩

theorem encode_eq_ok {ks : List Kind} {vs : List Value} {data : Bytes} : encode ks vs = .ok data ↔
    ∃ ps, encodeParts ks vs = .ok ps ∧ Part.inReach (headSize ks) ps = true ∧
      Part.heads (headSize ks) ps ++ Part.tails ps = data := by
  simp only [encode, bind_eq_ok, Part.assemble_eq_ok]
  constructor
  · rintro ⟨ps, hps, h⟩
    rw [headsSize_of_encodeParts hps] at h
    exact ⟨ps, hps, h⟩
  · rintro ⟨ps, hps, h⟩
    rw [← headsSize_of_encodeParts hps] at h
    exact ⟨ps, hps, h⟩

section
variable {ks ls : List Kind} {k : Kind} {vs ws : List Value} {v v' : Value} {data data' : Bytes}

theorem encode_cut (hl : vs.length = ks.length) (h : encode (ks ++ k :: ls) (vs ++ v :: ws) = .ok data) :
    ∃ qs p rs, encodeParts ks vs = .ok qs ∧ k.Writes v p ∧ encodeParts ls ws = .ok rs ∧
      data = Part.heads (headSize (ks ++ k :: ls)) (qs ++ p :: rs) ++ Part.tails (qs ++ p :: rs) := by
  obtain ⟨_, hps, -, rfl⟩ := encode_eq_ok.mp h
  obtain ⟨qs, _, hqs, hrest, rfl⟩ := encodeParts_append_eq_ok hl hps
  obtain ⟨p, rs, hk, hrs, rfl⟩ := encodeParts_cons_eq_ok.mp hrest
  exact ⟨qs, p, rs, hqs, hk, hrs, rfl⟩

/-- Another value of a parameter in place changes its words and nothing else. -/
theorem encode_frame (hl : vs.length = ks.length) (hk : k.isStatic = true)
    (h : encode (ks ++ k :: ls) (vs ++ v :: ws) = .ok data)
    (h' : encode (ks ++ k :: ls) (vs ++ v' :: ws) = .ok data') :
    ∃ before words words' after, before.length = headSize ks ∧ k.Writes v (.inPlace words) ∧
      k.Writes v' (.inPlace words') ∧ data = before ++ (words ++ after) ∧ data' = before ++ (words' ++ after) := by
  obtain ⟨qs, p, rs, hqs, hp, hrs, rfl⟩ := encode_cut hl h
  obtain ⟨qs', p', rs', hqs', hp', hrs', rfl⟩ := encode_cut hl h'
  obtain rfl := Except.ok.inj (hqs.symm.trans hqs')
  obtain rfl := Except.ok.inj (hrs.symm.trans hrs')
  obtain ⟨words, rfl⟩ := hp.exists_inPlace hk
  obtain ⟨words', rfl⟩ := hp'.exists_inPlace hk
  let offset := headSize (ks ++ k :: ls)
  have hcut : ∀ words, Part.heads offset (qs ++ .inPlace words :: rs) ++ Part.tails (qs ++ .inPlace words :: rs) =
      Part.heads offset qs ++ (words ++ (Part.heads (offset + (Part.tails qs).length) rs ++
        (Part.tails qs ++ Part.tails rs))) := by
    intro words
    rw [Part.heads_append, Part.heads, Part.tails_append, Part.tails, List.append_assoc, List.append_assoc]
  exact ⟨_, words, words', _, by rw [Part.length_heads, headsSize_of_encodeParts hqs], hp, hp', hcut words,
    hcut words'⟩

/-! ## One parameter behind the words -/

theorem tails_of_isStatic {ps : List Part} (h : encodeParts ks vs = .ok ps) (hs : ks.all Kind.isStatic = true) :
    Part.tails ps = [] := by
  induction ks generalizing vs ps with
  | nil => cases h; rfl
  | cons k ks ih =>
    rw [List.all_cons, Bool.and_eq_true] at hs
    obtain ⟨_, rest, hk, hrest, rfl⟩ := encodeParts_cons_eq_ok.mp h
    obtain ⟨words, rfl⟩ := hk.exists_inPlace hs.1
    rw [Part.tails]
    exact ih hrest hs.2

theorem length_encode_of_isStatic (hs : ks.all Kind.isStatic = true) (h : encode ks vs = .ok data) :
    data.length = headSize ks := by
  obtain ⟨ps, hps, -, rfl⟩ := encode_eq_ok.mp h
  rw [tails_of_isStatic hps hs, List.append_nil, Part.length_heads, headsSize_of_encodeParts hps]

/-- Among parameters in place, octets of their own length stand behind all words, which their head counts. -/
theorem encode_octets (hl : vs.length = ks.length) (hks : ks.all Kind.isStatic = true)
    (hls : ls.all Kind.isStatic = true) (h : encode (ks ++ .bytes :: ls) (vs ++ v :: ws) = .ok data) :
    ∃ bs before after, v = .bytes bs ∧ bs.length < twoPow 256 ∧ before.length = headSize ks ∧
      after.length = headSize ls ∧
      data = before ++ (Bytes.word (headSize (ks ++ .bytes :: ls)) ++ (after ++ blob bs)) := by
  obtain ⟨qs, _, rs, hqs, hp, hrs, rfl⟩ := encode_cut hl h
  have hq := tails_of_isStatic hqs hks
  have hr := tails_of_isStatic hrs hls
  cases hp with
  | @bytes bs hbs =>
    refine ⟨bs, Part.heads (headSize (ks ++ .bytes :: ls)) qs,
      Part.heads (headSize (ks ++ .bytes :: ls) + (blob bs).length) rs, rfl, hbs, ?_, ?_, ?_⟩
    · rw [Part.length_heads, headsSize_of_encodeParts hqs]
    · rw [Part.length_heads, headsSize_of_encodeParts hrs]
    · rw [Part.heads_append, Part.tails_append, Part.heads, Part.tails, hq, hr, List.append_nil, List.nil_append,
        List.length_nil, Nat.add_zero, List.append_assoc, List.append_assoc]

end

theorem isStatic_around {ks ls : List Kind} (h : hasOneOffset (ks ++ .bytes :: ls) = true) :
    ks.all Kind.isStatic = true ∧ ls.all Kind.isStatic = true := by
  induction ks with
  | nil => exact ⟨rfl, h⟩
  | cons k ks ih =>
    cases k with
    | word | words => exact ih h
    | bytes | text =>
      have hall : (ks ++ .bytes :: ls).all Kind.isStatic = true := h
      rw [List.all_append, List.all_cons, Bool.and_eq_true] at hall
      cases hall.2
    | bytesList => cases h

end DefiActions.Abi
