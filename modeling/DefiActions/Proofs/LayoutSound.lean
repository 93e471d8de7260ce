import DefiActions.Proofs.AbiLayout
import DefiActions.Proofs.WellFormedSound

/-!
# The layout of payloads

A receiver finds every field of a report at a fixed word. The word is that of
the value of the field and of nothing else. The octets of the only field of its
own length stand behind all words, so that no field moves another.
-/

namespace DefiActions.Abi

open Bytes (wordSize)

theorem wordAt_append {xs w ys : Bytes} (h : w.length = wordSize) : wordAt (xs ++ (w ++ ys)) xs.length = .ok w := by
  refine wordAt_eq_ok.mpr ⟨h, ?_⟩
  rw [Holds, List.drop_left]
  exact List.prefix_append ..

end DefiActions.Abi

namespace DefiActions.Report

open Bytes (wordSize)
open Descriptor (resolveField)

/-! ## Words of fields -/

theorem exists_word_of_plain {k : Abi.Kind} (hp : plain k = true) (hb : k ≠ .bytes) :
    ∃ w, k = .word w ∧ w.sized = true := by
  cases k with
  | word w => exact ⟨w, rfl, hp⟩
  | bytes => exact absurd rfl hb
  | _ => cases hp

theorem headSize_of_plain {ks : List Abi.Kind} (h : ∀ k ∈ ks, plain k = true) :
    Abi.headSize ks = wordSize * ks.length := by
  induction ks with
  | nil => rfl
  | cons k ks ih =>
    rw [List.forall_mem_cons] at h
    have hk : k.headSize = wordSize := by
      cases k with
      | words ws => cases h.1
      | _ => rfl
    rw [Abi.headSize, hk, ih h.2, List.length_cons, Nat.mul_succ, Nat.add_comm]

theorem headSize_of_sound {fs : List Field} (h : ∀ f ∈ fs, f.Sound) :
    Abi.headSize (fs.map (·.kind)) = wordSize * fs.length := by
  rw [headSize_of_plain fun k hk => ?_, List.length_map]
  obtain ⟨f, hf, rfl⟩ := List.mem_map.mp hk
  exact (h f hf).plain

section
variable {kind : Kind} {before behind : List Field} {f : Field}

theorem kinds_of_cut (hs : schema kind = before ++ f :: behind) :
    kinds kind = before.map (·.kind) ++ f.kind :: behind.map (·.kind) := by
  rw [kinds, hs, List.map_append, List.map_cons]

theorem sound_of_cut (hs : schema kind = before ++ f :: behind) :
    (∀ g ∈ before, g.Sound) ∧ f.Sound ∧ ∀ g ∈ behind, g.Sound := by
  have h := sound_of_mem_schema kind
  rwa [hs, List.forall_mem_append, List.forall_mem_cons] at h

/-- A payload is encoded from the values before a field, its own and those behind it. -/
theorem encode_at {d : Descriptor} (hn : List.Forall₂ Field.IsNormal (schema d.kind) d.values) {p : Bytes}
    (hp : encode d = .ok p) (hs : schema d.kind = before ++ f :: behind) :
    ∃ us v ws, before.mapM (fun g => resolveField d.kind g (d.get g.name)) = .ok us ∧
      resolveField d.kind f (d.get f.name) = .ok v ∧
      behind.mapM (fun g => resolveField d.kind g (d.get g.name)) = .ok ws ∧
      us.length = (before.map (·.kind)).length ∧
      Abi.encode (before.map (·.kind) ++ f.kind :: behind.map (·.kind)) (us ++ v :: ws) = .ok p := by
  obtain ⟨vs, hvs, he⟩ := encode_eq_ok.mp hp
  rw [resolve_eq_mapM hn.length_eq, hs] at hvs
  obtain ⟨us, v, ws, hus, hv, hws, rfl⟩ := mapM_append_cons_eq_ok.mp hvs
  rw [kinds_of_cut hs] at he
  exact ⟨us, v, ws, hus, hv, hws, by rw [List.length_map, (mapM_eq_ok.mp hus).length_eq], he⟩

end

/-! ## Layout -/

/-- Where the fields of a report stand in its payload. -/
structure Layout (kind : Kind) (d : Descriptor) (p : Bytes) : Prop where
  word : ∀ before f behind, schema kind = before ++ f :: behind → f.kind ≠ .bytes →
    ∃ v n, resolveField kind f (d.get f.name) = .ok v ∧ Abi.integer? v = some n ∧
      Abi.wordAt p (wordSize * before.length) = .ok (Bytes.ofInt wordSize n)
  octets : ∀ before f behind, schema kind = before ++ f :: behind → f.kind = .bytes →
    ∃ bs, resolveField kind f (d.get f.name) = .ok (.bytes bs) ∧
      Abi.wordAt p (wordSize * before.length) = .ok (Bytes.word (wordSize * (schema kind).length)) ∧
      p.drop (wordSize * (schema kind).length) = Bytes.word bs.length ++ Bytes.padded bs
  length : (∀ f ∈ schema kind, f.kind ≠ .bytes) → p.length = wordSize * (schema kind).length

/-- Octets that may differ in the word at the position and nowhere else. -/
structure DifferAt (pos : Nat) (p p' : Bytes) : Prop where
  length : p.length = p'.length
  before : p.take pos = p'.take pos
  behind : p.drop (pos + wordSize) = p'.drop (pos + wordSize)

theorem differAt_append {xs w w' ys : Bytes} (h : w.length = wordSize) (h' : w'.length = wordSize) :
    DifferAt xs.length (xs ++ (w ++ ys)) (xs ++ (w' ++ ys)) where
  length := by simp [h, h']
  before := by rw [List.take_left, List.take_left]
  behind := by
    rw [← List.drop_drop, ← List.drop_drop, List.drop_left, List.drop_left, List.drop_left' h, List.drop_left' h']

section
variable {d : Descriptor} (hn : List.Forall₂ Field.IsNormal (schema d.kind) d.values) {p : Bytes}
  (hp : encode d = .ok p) {before behind : List Field} {f : Field} (hs : schema d.kind = before ++ f :: behind)
include hn hp hs

theorem word_of_encode (hb : f.kind ≠ .bytes) : ∃ v n, resolveField d.kind f (d.get f.name) = .ok v ∧
    Abi.integer? v = some n ∧ Abi.wordAt p (wordSize * before.length) = .ok (Bytes.ofInt wordSize n) := by
  obtain ⟨hbefore, hf, -⟩ := sound_of_cut hs
  obtain ⟨w, hw, hsized⟩ := exists_word_of_plain hf.plain hb
  obtain ⟨us, v, ws, -, hv, -, hl, he⟩ := encode_at hn hp hs
  rw [hw] at he
  -- Framed against itself, a payload is cut around the word.
  obtain ⟨xs, words, _, ys, hxs, hk, -, rfl, -⟩ := Abi.encode_frame hl rfl he he
  obtain ⟨bs, hwrites, hbs⟩ := hk.exists_word
  obtain ⟨n, hint, hword⟩ := hwrites.eq_ofInt hsized
  refine ⟨v, n, hv, hint, ?_⟩
  rw [← headSize_of_sound hbefore, ← hxs, Abi.Part.inPlace.inj hbs, hword]
  exact Abi.wordAt_append (Bytes.length_ofInt _ _)

theorem octets_of_encode (hb : f.kind = .bytes) : ∃ bs, resolveField d.kind f (d.get f.name) = .ok (.bytes bs) ∧
    Abi.wordAt p (wordSize * before.length) = .ok (Bytes.word (wordSize * (schema d.kind).length)) ∧
      p.drop (wordSize * (schema d.kind).length) = Bytes.word bs.length ++ Bytes.padded bs := by
  obtain ⟨hbefore, -, hbehind⟩ := sound_of_cut hs
  have hone := hasOneOffset_kinds d.kind
  have hall := headSize_of_sound (sound_of_mem_schema d.kind)
  have hcut := kinds_of_cut hs
  rw [hb] at hcut
  rw [hcut] at hone
  rw [← kinds, hcut] at hall
  obtain ⟨hstatic, hstatic'⟩ := Abi.isStatic_around hone
  obtain ⟨us, v, ws, -, hv, -, hl, he⟩ := encode_at hn hp hs
  rw [hb] at he
  obtain ⟨bs, xs, ys, rfl, -, hxs, hys, rfl⟩ := Abi.encode_octets hl hstatic hstatic' he
  refine ⟨bs, hv, ?_, ?_⟩
  · rw [← headSize_of_sound hbefore, ← hxs, hall]
    exact Abi.wordAt_append (Bytes.length_word _)
  · have hlen : (xs ++ (Bytes.word (wordSize * (schema d.kind).length) ++ ys)).length =
        wordSize * (schema d.kind).length := by
      rw [← hall, Abi.headSize_append, Abi.headSize, List.length_append, List.length_append, Bytes.length_word, hxs,
        hys]
      rfl
    rw [hall, ← List.append_assoc, ← List.append_assoc, List.append_assoc xs, List.drop_left' hlen]
    rfl

theorem differAt_of_encode (hb : f.kind ≠ .bytes) {d' : Descriptor} (hk : d'.kind = d.kind)
    (hn' : List.Forall₂ Field.IsNormal (schema d'.kind) d'.values) {p' : Bytes} (hp' : encode d' = .ok p')
    (h : ∀ g ∈ before ++ behind, d.get g.name = d'.get g.name) : DifferAt (wordSize * before.length) p p' := by
  obtain ⟨hbefore, hf, -⟩ := sound_of_cut hs
  obtain ⟨hsame, hsame'⟩ := List.forall_mem_append.mp h
  obtain ⟨w, hw, -⟩ := exists_word_of_plain hf.plain hb
  obtain ⟨us, v, ws, hus, -, hws, hl, he⟩ := encode_at hn hp hs
  obtain ⟨us', v', ws', hus', -, hws', -, he'⟩ := encode_at hn' hp' (hk ▸ hs)
  have heq := mapM_congr fun g hg => congrArg (resolveField d.kind g) (hsame g hg)
  have heq' := mapM_congr fun g hg => congrArg (resolveField d.kind g) (hsame' g hg)
  rw [hk, ← heq, hus] at hus'
  rw [hk, ← heq', hws] at hws'
  obtain rfl := Except.ok.inj hus'
  obtain rfl := Except.ok.inj hws'
  rw [hw] at he he'
  obtain ⟨xs, words, words', ys, hxs, hv, hv', rfl, rfl⟩ := Abi.encode_frame hl rfl he he'
  rw [← headSize_of_sound hbefore, ← hxs]
  exact differAt_append hv.headSize hv'.headSize

end

theorem layout_of_encode {d : Descriptor} (hn : List.Forall₂ Field.IsNormal (schema d.kind) d.values) {p : Bytes}
    (hp : encode d = .ok p) : Layout d.kind d p where
  word _ _ _ hs hb := word_of_encode hn hp hs hb
  octets _ _ _ hs hb := octets_of_encode hn hp hs hb
  length hb := by
    obtain ⟨vs, -, he⟩ := encode_eq_ok.mp hp
    rw [Abi.length_encode_of_isStatic ?_ he, kinds, headSize_of_sound (sound_of_mem_schema d.kind)]
    rw [List.all_eq_true]
    intro k hk
    obtain ⟨f, hf, rfl⟩ := List.mem_map.mp hk
    obtain ⟨w, hw, -⟩ := exists_word_of_plain (sound_of_mem_schema d.kind f hf).plain (hb f hf)
    rw [hw]
    rfl

/-- **Every field has its place in a payload**, and a field of one word changes nothing but its word. -/
theorem fixed_layout (kind : Kind) :
    (schema kind).countP (·.kind = .bytes) ≤ 1 ∧
      (∀ given d p, Descriptor.make kind given = .ok d → encode d = .ok p → Layout kind d p) ∧
      ∀ given given' d d' p p' before f behind, Descriptor.make kind given = .ok d →
        Descriptor.make kind given' = .ok d' → encode d = .ok p → encode d' = .ok p' →
        schema kind = before ++ f :: behind → f.kind ≠ .bytes →
        (∀ g ∈ before ++ behind, d.get g.name = d'.get g.name) → DifferAt (wordSize * before.length) p p' := by
  refine ⟨by cases kind <;> decide, ?_, ?_⟩
  · intro given d p hd hp
    obtain ⟨rfl, hn⟩ := isNormal_of_make hd
    exact layout_of_encode hn hp
  · intro given given' d d' p p' before f behind hd hd' hp hp' hs hb h
    obtain ⟨rfl, hn⟩ := isNormal_of_make hd
    obtain ⟨hk, hn'⟩ := isNormal_of_make hd'
    exact differAt_of_encode hn hp hs hb hk (hk ▸ hn') hp' h

/-- Two calls of different amounts differ in the word of the amount, and their data stands behind six words. -/
theorem some_layout : ∃ p p', encode (callOf someAddress 5) = .ok p ∧ encode (callOf someAddress 6) = .ok p' ∧
    Abi.wordAt p 32 = .ok (Bytes.word 192) ∧ p.drop 192 = Bytes.word 3 ++ Bytes.padded [1, 2, 3] ∧
      Abi.wordAt p 128 = .ok (Bytes.ofInt 32 5) ∧ DifferAt 128 p p' := by
  have hmake := make_call (isNormal_someAddress rfl)
  have hencode : ∀ amount, WellFormed (callOf someAddress amount) →
      ∃ p, encode (callOf someAddress amount) = .ok p :=
    fun amount => (exists_encode_iff (isNormal_of_make (hmake amount)).2).mpr
  obtain ⟨p, hp⟩ := hencode 5 (wellFormed_call rfl (by decide) (by decide))
  obtain ⟨p', hp'⟩ := hencode 6 (wellFormed_call rfl (by decide) (by decide))
  obtain ⟨-, hlayout, hdiffer⟩ := fixed_layout .genericCall
  obtain ⟨hword, hoctets, -⟩ := hlayout _ _ _ (hmake 5) hp
  obtain ⟨_, hdata, hoffset, hbehind⟩ := hoctets ((schema .genericCall).take 1) _ _ rfl rfl
  obtain rfl := Value.bytes.inj (Except.ok.inj hdata)
  obtain ⟨_, _, hamount, hint, hat⟩ := hword ((schema .genericCall).take 4) _ _ rfl (by decide)
  obtain rfl := Except.ok.inj hamount
  obtain rfl := Option.some.inj hint
  refine ⟨p, p', hp, hp', hoffset, hbehind, hat, ?_⟩
  refine hdiffer _ _ _ _ _ _ ((schema .genericCall).take 4) _ _ (hmake 5) (hmake 6) hp hp' rfl (by decide) ?_
  simp only [schema, List.take, List.cons_append, List.nil_append, List.forall_mem_cons, List.not_mem_nil,
    false_imp_iff, implies_true, and_true]
  exact ⟨rfl, rfl, rfl, rfl, rfl⟩

end DefiActions.Report
