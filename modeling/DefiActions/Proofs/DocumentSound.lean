import DefiActions.Json.Reader
import DefiActions.Proofs.LiteralSound
import DefiActions.Proofs.MembersLemmas

/-!
# Documents read back

What any layout writes for a value is read as the value, if the value is of the
kind that a document can hold. Layouts differ only in blanks, which the readers
skip, and in which characters they write as they are.
-/

namespace DefiActions

open Decimal (isAsciiDigit)

/-! ## Records -/

theorem Members.put_of_not_mem {ms : Members} {name : String} (h : name ∉ ms.names) (v : Value) :
    ms.put name v = ms ++ [(name, v)] := by
  induction ms with
  | nil => rfl
  | cons m ms ih =>
    obtain ⟨k, w⟩ := m
    simp only [names, List.map_cons, List.mem_cons, not_or] at h
    simp [put, Ne.symm h.1, ih h.2]

theorem Members.ofPairs_of_nodup {ms : Members} (h : ms.names.Nodup) : Members.ofPairs ms = ms := by
  have hfold : ∀ front : Members, (front ++ ms).names.Nodup →
      ms.foldl (fun ms p => Members.put ms p.1 p.2) front = front ++ ms := by
    clear h
    induction ms with
    | nil => simp
    | cons m ms ih =>
      intro front hn
      have hnew : m.1 ∉ front.names := by
        simp only [names, List.map_append, List.map_cons, List.nodup_append] at hn
        exact fun hm => hn.2.2 m.1 hm m.1 List.mem_cons_self rfl
      rw [List.foldl_cons, put_of_not_mem hnew]
      simpa using ih (front ++ [m]) (by simpa using hn)
  exact hfold [] h

/-- A value that a document can hold: no octets, integers that keep
the numeral limit, numbers of 64 bits, and every name once. -/
inductive Value.Writable : Value → Prop
  | null : Writable .null
  | bool (b : Bool) : Writable (.bool b)
  | int {n : Int} (h : Text.isWritable n = true) : Writable (.int n)
  | float {x : Binary64} (h : x.IsDouble) : Writable (.float x)
  | text (s : String) : Writable (.text s)
  | list {items : List Value} (h : ∀ v ∈ items, Writable v) : Writable (.list items)
  | record {ms : Members} (hn : ms.names.Nodup) (h : ∀ m ∈ ms, Writable m.2) : Writable (.record ms)

namespace Json

/-! ## Blanks -/

def Blanks (bs : List Char) : Prop := ∀ b ∈ bs, isBlank b = true

theorem skipBlanks_append {bs : List Char} (h : Blanks bs) {c : Char} (hc : isBlank c = false) (cs : List Char) :
    skipBlanks (bs ++ c :: cs) = c :: cs := by
  rw [skipBlanks, List.dropWhile_append_of_pos h]
  simp [hc]

theorem not_digit_of_isBlank {c : Char} (h : isBlank c = true) :
    isAsciiDigit c = false ∧ c ≠ '.' ∧ c ≠ 'e' ∧ c ≠ 'E' := by
  simp only [isBlank, Bool.or_eq_true, decide_eq_true_eq] at h
  rcases h with ((rfl | rfl) | rfl) | rfl <;> decide

theorem Ends.append_blanks {bs rest : List Char} (hb : Blanks bs) (h : Ends rest) : Ends (bs ++ rest) := by
  cases bs with
  | nil => exact h
  | cons b bs =>
    intro c hc
    obtain rfl : b = c := by simpa using hc
    exact not_digit_of_isBlank (hb b List.mem_cons_self)

theorem ends_cons {c : Char} (h : c ∈ [',', ']', '\x7d']) (rest : List Char) : Ends (c :: rest) := by
  intro d hd
  obtain rfl : c = d := by simpa using hd
  simp only [List.mem_cons, List.not_mem_nil, or_false] at h
  rcases h with rfl | rfl | rfl <;> decide

/-! ## Layouts -/

structure Layout.Sound (l : Layout) : Prop where
  keep : KeepsAllowed l.keep
  colon : ∃ bs, l.colon = ':' :: bs ∧ Blanks bs
  comma : ∀ d, ∃ bs, l.comma d = ',' :: bs ∧ Blanks bs
  opening : ∀ d, Blanks (l.opening d)
  closing : ∀ d, Blanks (l.closing d)

theorem keepsAllowed_isPrintableAscii : KeepsAllowed isPrintableAscii := by
  intro c hc
  simp only [isPrintableAscii, Bool.and_eq_true, decide_eq_true_eq, char_le_iff] at hc
  exact hc.1

theorem blanks_nil : Blanks [] := by simp [Blanks]

namespace Layout

theorem sound_tight {keep : Char → Bool} (h : KeepsAllowed keep) : (tight keep).Sound :=
  ⟨h, ⟨[], rfl, blanks_nil⟩, fun _ => ⟨[], rfl, blanks_nil⟩, fun _ => blanks_nil, fun _ => blanks_nil⟩

theorem sound_ascii : ascii.Sound := sound_tight keepsAllowed_isPrintableAscii

end Layout

/-! ## What the readers do -/

def Begins (cs : List Char) : Prop := ∃ c tail, cs = c :: tail ∧ isBlank c = false ∧ c ≠ ']' ∧ c ≠ '\x7d'

theorem Begins.skipBlanks_append {cs : List Char} (h : Begins cs) {bs : List Char} (hb : Blanks bs)
    (rest : List Char) :
    skipBlanks (bs ++ (cs ++ rest)) = cs ++ rest := by
  obtain ⟨c, tail, rfl, hc, -⟩ := h
  exact Json.skipBlanks_append hb hc _

section Readers

variable {fuel : Nat} {cs bs rest rest' : List Char} {v : Value}

theorem value_of_scalar (h : WritesScalar cs v) (hr : Ends rest) :
    value (fuel + 1) (cs ++ rest) = .ok (v, rest) := by
  obtain ⟨c, tail, rfl, -, hc⟩ := h.first
  rw [← h.read rest hr]
  simp only [List.mem_cons, List.not_mem_nil, or_false, not_or] at hc
  simp [value, hc]

theorem value_of_items {vs : List Value} (hb : Blanks bs) (hcs : Begins cs)
    (h : items fuel (cs ++ rest) = .ok (vs, rest')) :
    value (fuel + 1) ('[' :: (bs ++ (cs ++ rest))) = .ok (.list vs, rest') := by
  have hskip := hcs.skipBlanks_append hb rest
  obtain ⟨c, tail, rfl, -, hc, -⟩ := hcs
  rw [List.cons_append] at h hskip
  simp [value, hskip, hc, h, Except.map]

theorem value_of_pairs {ms : Members} (hb : Blanks bs) (hcs : Begins cs) (hn : ms.names.Nodup)
    (h : pairs fuel (cs ++ rest) = .ok (ms, rest')) :
    value (fuel + 1) ('\x7b' :: (bs ++ (cs ++ rest))) = .ok (.record ms, rest') := by
  have hskip := hcs.skipBlanks_append hb rest
  obtain ⟨c, tail, rfl, -, -, hc⟩ := hcs
  rw [List.cons_append] at h hskip
  simp [value, hskip, hc, h, Except.map, Members.ofPairs_of_nodup hn]

theorem items_of_last (hb : Blanks bs) (h : value fuel cs = .ok (v, bs ++ ']' :: rest)) :
    items (fuel + 1) cs = .ok ([v], rest) := by
  have hskip := skipBlanks_append hb (c := ']') rfl rest
  simp [items, h, ok_bind, hskip]

theorem items_of_comma {vs : List Value} {cs' : List Char} (hb : Blanks bs) (hcs : Begins cs')
    (h : value fuel cs = .ok (v, ',' :: (bs ++ (cs' ++ rest)))) (hvs : items fuel (cs' ++ rest) = .ok (vs, rest')) :
    items (fuel + 1) cs = .ok (v :: vs, rest') := by
  have hcomma := skipBlanks_append blanks_nil (c := ',') rfl (bs ++ (cs' ++ rest))
  rw [List.nil_append] at hcomma
  simp [items, h, ok_bind, hcomma, hcs.skipBlanks_append hb rest, hvs, Except.map]

variable {keep : Char → Bool} {colon : List Char}

theorem pairs_of_last (hk : KeepsAllowed keep) (k : String) (hcolon : Blanks colon) (hb : Blanks bs)
    (hcs : Begins cs) (h : value fuel (cs ++ rest) = .ok (v, bs ++ '\x7d' :: rest')) :
    pairs (fuel + 1) (textLiteral keep k ++ ':' :: (colon ++ (cs ++ rest))) = .ok ([(k, v)], rest') := by
  have hend := skipBlanks_append hb (c := '\x7d') rfl rest'
  have hmark := skipBlanks_append blanks_nil (c := ':') rfl (colon ++ (cs ++ rest))
  rw [List.nil_append] at hmark
  simp [pairs, textLiteral, textBody_escaped hk, ok_bind, hmark, hcs.skipBlanks_append hcolon rest, h, hend]

theorem pairs_of_comma {ms : Members} {cs' tail : List Char} (hk : KeepsAllowed keep) (k : String)
    (hcolon : Blanks colon)
    (hb : Blanks bs) (hcs : Begins cs) (hcs' : Begins cs')
    (h : value fuel (cs ++ rest) = .ok (v, ',' :: (bs ++ (cs' ++ tail))))
    (hms : pairs fuel (cs' ++ tail) = .ok (ms, rest')) :
    pairs (fuel + 1) (textLiteral keep k ++ ':' :: (colon ++ (cs ++ rest))) = .ok ((k, v) :: ms, rest') := by
  have hcomma := skipBlanks_append blanks_nil (c := ',') rfl (bs ++ (cs' ++ tail))
  have hmark := skipBlanks_append blanks_nil (c := ':') rfl (colon ++ (cs ++ rest))
  rw [List.nil_append] at hmark hcomma
  simp [pairs, textLiteral, textBody_escaped hk, ok_bind, hmark, hcs.skipBlanks_append hcolon rest, h, hcomma,
    hcs'.skipBlanks_append hb tail, hms, Except.map]

end Readers

/-! ## What the layouts write -/

variable {l : Layout}

theorem WritesScalar.begins {cs : List Char} {v : Value} (h : WritesScalar cs v) : Begins cs := by
  obtain ⟨c, tail, hcs, hblank, hc⟩ := h.first
  simp only [List.mem_cons, List.not_mem_nil, or_false, not_or] at hc
  exact ⟨c, tail, hcs, hblank, hc.2.1, hc.2.2.2⟩

theorem writesScalar_print (hl : l.Sound) {v : Value} (h : v.Writable) (hlist : ∀ vs, v ≠ .list vs)
    (hrecord : ∀ ms, v ≠ .record ms) (d : Nat) : WritesScalar (print l d v) v := by
  cases h with
  | null => exact writesScalar_null
  | bool b => exact writesScalar_bool b
  | int h => exact writesScalar_int h
  | float h => exact writesScalar_float h
  | text s => exact writesScalar_text hl.keep s
  | list h => exact absurd rfl (hlist _)
  | record hn h => exact absurd rfl (hrecord _)

theorem begins_print (hl : l.Sound) {v : Value} (h : v.Writable) (d : Nat) : Begins (print l d v) := by
  by_cases hlist : ∃ vs, v = .list vs
  · obtain ⟨vs, rfl⟩ := hlist
    cases vs <;> exact ⟨'[', _, rfl, rfl, by decide, by decide⟩
  by_cases hrecord : ∃ ms, v = .record ms
  · obtain ⟨ms, rfl⟩ := hrecord
    cases ms <;> exact ⟨'\x7b', _, rfl, rfl, by decide, by decide⟩
  · exact (writesScalar_print hl h (not_exists.mp hlist) (not_exists.mp hrecord) d).begins

theorem Begins.append {cs : List Char} (h : Begins cs) (rest : List Char) : Begins (cs ++ rest) := by
  obtain ⟨c, tail, rfl, hc⟩ := h
  exact ⟨c, tail ++ rest, rfl, hc⟩

theorem begins_printItems (hl : l.Sound) {v : Value} (h : v.Writable) (vs : List Value) (d : Nat) :
    Begins (printItems l d (v :: vs)) := by
  cases vs with
  | nil => exact begins_print hl h d
  | cons w vs =>
    simp only [printItems, List.append_assoc]
    exact (begins_print hl h d).append _

theorem begins_printMembers (m : String × Value) (ms : Members) (d : Nat) :
    Begins (printMembers l d (m :: ms)) := by
  cases ms <;> exact ⟨'"', _, rfl, rfl, by decide, by decide⟩

/-! ## Reading what was written -/

def ReadsValues (l : Layout) (fuel : Nat) : Prop :=
  ∀ (v : Value) d rest, v.Writable → (print l d v).length < fuel → Ends rest →
    value fuel (print l d v ++ rest) = .ok (v, rest)

def ReadsItems (l : Layout) (fuel : Nat) : Prop :=
  ∀ v vs d bs rest, (∀ w ∈ v :: vs, w.Writable) → Blanks bs → (printItems l d (v :: vs)).length + 1 < fuel →
    items fuel (printItems l d (v :: vs) ++ (bs ++ ']' :: rest)) = .ok (v :: vs, rest)

def ReadsMembers (l : Layout) (fuel : Nat) : Prop :=
  ∀ (m : String × Value) ms d bs rest, (∀ w ∈ m :: ms, w.2.Writable) → Blanks bs →
    (printMembers l d (m :: ms)).length + 1 < fuel →
      pairs fuel (printMembers l d (m :: ms) ++ (bs ++ '\x7d' :: rest)) = .ok (m :: ms, rest)

variable {fuel : Nat}

theorem readsValues_succ (hl : l.Sound) (hi : ReadsItems l fuel) (hm : ReadsMembers l fuel) :
    ReadsValues l (fuel + 1) := by
  intro v d rest h hfuel hr
  by_cases hlist : ∃ vs, v = .list vs
  · obtain ⟨vs, rfl⟩ := hlist
    cases h with
    | list h =>
      cases vs with
      | nil => simp [print, value, skipBlanks, isBlank]
      | cons v vs =>
        simp only [print, List.length_append, List.length_cons] at hfuel
        have hitems := hi v vs (d + 1) (l.closing d) rest h (hl.closing d) (by omega)
        simpa [print] using value_of_items (hl.opening (d + 1))
          (begins_printItems hl (h v List.mem_cons_self) vs (d + 1)) hitems
  by_cases hrecord : ∃ ms, v = .record ms
  · obtain ⟨ms, rfl⟩ := hrecord
    cases h with
    | record hn h =>
      cases ms with
      | nil => simp [print, value, skipBlanks, isBlank]
      | cons m ms =>
        simp only [print, List.length_append, List.length_cons] at hfuel
        have hmembers := hm m ms (d + 1) (l.closing d) rest h (hl.closing d) (by omega)
        simpa [print] using value_of_pairs (hl.opening (d + 1)) (begins_printMembers m ms (d + 1)) hn hmembers
  · exact value_of_scalar (writesScalar_print hl h (not_exists.mp hlist) (not_exists.mp hrecord) d) hr

theorem readsItems_succ (hl : l.Sound) (hv : ReadsValues l fuel) (hi : ReadsItems l fuel) :
    ReadsItems l (fuel + 1) := by
  intro v vs d bs rest h hb hfuel
  rw [List.forall_mem_cons] at h
  cases vs with
  | nil =>
    rw [printItems] at hfuel ⊢
    exact items_of_last hb (hv v d _ h.1 (by omega) ((ends_cons (by decide) rest).append_blanks hb))
  | cons w vs =>
    obtain ⟨gap, hcomma, hgap⟩ := hl.comma d
    simp only [printItems, hcomma, List.length_append, List.length_cons] at hfuel
    have hvalue := hv v d (',' :: (gap ++ (printItems l d (w :: vs) ++ (bs ++ ']' :: rest)))) h.1 (by omega)
      (ends_cons (by decide) _)
    have hitems := hi w vs d bs rest h.2 hb (by omega)
    have hread := items_of_comma hgap (begins_printItems hl (h.2 w List.mem_cons_self) vs d) hvalue hitems
    simpa [printItems, hcomma] using hread

theorem readsMembers_succ (hl : l.Sound) (hv : ReadsValues l fuel) (hm : ReadsMembers l fuel) :
    ReadsMembers l (fuel + 1) := by
  intro m ms d bs rest h hb hfuel
  obtain ⟨k, v⟩ := m
  rw [List.forall_mem_cons] at h
  obtain ⟨space, hcolon, hspace⟩ := hl.colon
  cases ms with
  | nil =>
    simp only [printMembers, hcolon, List.length_append, List.length_cons] at hfuel
    have hvalue := hv v d (bs ++ '\x7d' :: rest) h.1 (by omega) ((ends_cons (by decide) rest).append_blanks hb)
    have hread := pairs_of_last hl.keep k hspace hb (begins_print hl h.1 d) hvalue
    simpa [printMembers, hcolon] using hread
  | cons m ms =>
    obtain ⟨gap, hcomma, hgap⟩ := hl.comma d
    simp only [printMembers, hcolon, hcomma, List.length_append, List.length_cons] at hfuel
    have hvalue := hv v d (',' :: (gap ++ (printMembers l d (m :: ms) ++ (bs ++ '\x7d' :: rest)))) h.1 (by omega)
      (ends_cons (by decide) _)
    have hmembers := hm m ms d bs rest h.2 hb (by omega)
    have hread := pairs_of_comma hl.keep k hspace hgap (begins_print hl h.1 d)
      (begins_printMembers m ms d) hvalue hmembers
    simpa [printMembers, hcolon, hcomma] using hread

/-- The induction is on the nesting that the readers still allow, for all three of them at once. -/
theorem readers_print (hl : l.Sound) (fuel : Nat) :
    ReadsValues l fuel ∧ ReadsItems l fuel ∧ ReadsMembers l fuel := by
  induction fuel with
  | zero =>
    refine ⟨?_, ?_, ?_⟩
    · intro v d rest _ h
      exact absurd h (Nat.not_lt_zero _)
    · intro v vs d bs rest _ _ h
      exact absurd h (Nat.not_lt_zero _)
    · intro m ms d bs rest _ _ h
      exact absurd h (Nat.not_lt_zero _)
  | succ fuel ih =>
    obtain ⟨hv, hi, hm⟩ := ih
    exact ⟨readsValues_succ hl hi hm, readsItems_succ hl hv hi, readsMembers_succ hl hv hm⟩

theorem read_print (hl : l.Sound) {v : Value} (h : v.Writable) (d : Nat) : read (print l d v) = .ok v := by
  have hvalue := (readers_print hl ((print l d v).length + 1)).1 v d [] h (Nat.lt_succ_self _) (by simp [Ends])
  have hskip := (begins_print hl h d).skipBlanks_append blanks_nil []
  rw [List.append_nil] at hvalue hskip
  rw [List.nil_append] at hskip
  rw [read, hskip, hvalue, ok_bind]
  rfl

/-- **What is written for a value is read as the value**, in every layout. -/
theorem document_write (hl : l.Sound) {v : Value} (h : v.Writable) : document (write l v).toList = .ok v := by
  rw [document, write, String.toList_ofList, read_print hl h]
  rfl

end Json

end DefiActions
