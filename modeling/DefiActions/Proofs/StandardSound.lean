import DefiActions.Json.Printer
import DefiActions.Proofs.DocumentSound

/-!
# Standard texts

The grammar of standard JSON has no words for numbers that are not finite. A
layout writes a text of the grammar exactly for the values without such numbers:
the words for them begin with a capital letter that no text of the grammar has
outside its text literals.
-/

namespace DefiActions.Json

open Decimal (isAsciiDigit)

/-! ## The grammar -/

def Digits (ds : List Char) : Prop := ds ≠ [] ∧ ∀ c ∈ ds, isAsciiDigit c = true

inductive Fraction : List Char → Prop
  | none : Fraction []
  | point {ds : List Char} (h : Digits ds) : Fraction ('.' :: ds)

inductive Exponent : List Char → Prop
  | none : Exponent []
  | mark {c : Char} {sign ds : List Char} (hc : c ∈ ['e', 'E']) (hs : sign ∈ [[], ['+'], ['-']]) (h : Digits ds) :
    Exponent (c :: (sign ++ ds))

inductive NumberText : List Char → Prop
  | intro {sign whole fraction exponent : List Char} (hs : sign ∈ [[], ['-']]) (hw : Digits whole)
    (hz : whole.head? = some '0' → whole = ['0']) (hf : Fraction fraction) (he : Exponent exponent) :
    NumberText (sign ++ (whole ++ (fraction ++ exponent)))

inductive Quotable : List Char → Prop
  | nil : Quotable []
  | char {c : Char} {cs : List Char} (hc : 0x20 ≤ c.toNat ∧ c ≠ '"' ∧ c ≠ '\\') (h : Quotable cs) :
      Quotable (c :: cs)
  | escape {c : Char} {cs : List Char} (hc : c ∈ ['"', '\\', '/', 'b', 'f', 'n', 'r', 't']) (h : Quotable cs) :
    Quotable ('\\' :: c :: cs)
  | unit {ds cs : List Char} (hl : ds.length = 4) (hd : ∀ c ∈ ds, Hex.isDigit c = true) (h : Quotable cs) :
    Quotable ('\\' :: 'u' :: (ds ++ cs))

inductive Rule
  | value
  | element
  | elements
  | members

inductive Derives : Rule → List Char → Prop
  | null : Derives .value "null".toList
  | bool (b : Bool) : Derives .value (if b then "true" else "false").toList
  | number {cs : List Char} (h : NumberText cs) : Derives .value cs
  | text {cs : List Char} (h : Quotable cs) : Derives .value ('"' :: (cs ++ ['"']))
  | emptyList {bs : List Char} (hb : Blanks bs) : Derives .value ('[' :: (bs ++ [']']))
  | list {cs : List Char} (h : Derives .elements cs) : Derives .value ('[' :: (cs ++ [']']))
  | emptyRecord {bs : List Char} (hb : Blanks bs) : Derives .value ('\x7b' :: (bs ++ ['\x7d']))
  | record {cs : List Char} (h : Derives .members cs) : Derives .value ('\x7b' :: (cs ++ ['\x7d']))
  | element {bs cs bs' : List Char} (hb : Blanks bs) (h : Derives .value cs) (hb' : Blanks bs') :
    Derives .element (bs ++ (cs ++ bs'))
  | lastElement {cs : List Char} (h : Derives .element cs) : Derives .elements cs
  | elements {cs cs' : List Char} (h : Derives .element cs) (h' : Derives .elements cs') :
    Derives .elements (cs ++ ',' :: cs')
  | lastMember {bs name bs' cs : List Char} (hb : Blanks bs) (hn : Quotable name) (hb' : Blanks bs')
    (h : Derives .element cs) : Derives .members (bs ++ '"' :: (name ++ '"' :: (bs' ++ ':' :: cs)))
  | members {cs cs' : List Char} (h : Derives .members cs) (h' : Derives .members cs') :
    Derives .members (cs ++ ',' :: cs')

def StandardText (cs : List Char) : Prop := Derives .element cs

theorem standardText_of_value {cs : List Char} (h : Derives .value cs) : StandardText cs := by
  have helement := Derives.element blanks_nil h blanks_nil
  rwa [List.nil_append, List.append_nil] at helement

/-! ## Numbers -/

theorem exponent_exponentText (x : Int) : Exponent ('e' :: Binary64.exponentText x) := by
  obtain ⟨ds, hds, hne, hdigits, -⟩ := exponentText_eq x
  rw [hds]
  by_cases hx : x < 0
  · rw [if_pos hx]
    exact @Exponent.mark 'e' ['-'] ds (by decide) (by decide) ⟨hne, hdigits⟩
  · rw [if_neg hx]
    exact @Exponent.mark 'e' ['+'] ds (by decide) (by decide) ⟨hne, hdigits⟩

theorem NumberLiteral.numberText (n : NumberLiteral) : NumberText n.chars ∧ NumberText ('-' :: n.chars) := by
  have hw : Digits n.whole := ⟨n.whole_ne_nil, fun c hc => n.isDigit c (List.mem_append_left _ hc)⟩
  have hf : Fraction n.fractionChars := by
    unfold fractionChars
    by_cases h : n.fraction = []
    · rw [if_pos h]
      exact .none
    · rw [if_neg h]
      exact .point ⟨h, fun c hc => n.isDigit c (List.mem_append_right _ hc)⟩
  have he : Exponent n.exponentChars := by
    unfold exponentChars
    cases n.exponent with
    | none => exact .none
    | some x => exact exponent_exponentText x
  rw [chars, List.append_assoc]
  exact ⟨@NumberText.intro [] _ _ _ (by decide) hw n.whole_of_zero hf he,
    @NumberText.intro ['-'] _ _ _ (by decide) hw n.whole_of_zero hf he⟩

theorem numberText_intDigits (n : Int) : NumberText (Text.intDigits n) := by
  cases n with
  | ofNat n =>
    have h := (NumberLiteral.ofNat n).numberText.1
    rwa [NumberLiteral.chars_ofNat] at h
  | negSucc n =>
    have h := (NumberLiteral.ofNat (n + 1)).numberText.2
    rwa [NumberLiteral.chars_ofNat] at h

/-- The search for the shortest decimal ends at one that reads back, or at nothing. -/
theorem shortestFrom_cases {m : Nat} {e k : Int} (tries : Nat) :
    Binary64.readsBack m e (Binary64.shortestFrom m e k tries) = true ∨
      Binary64.shortestFrom m e k tries = ⟨0, 0⟩ := by
  induction tries with
  | zero => exact .inr rfl
  | succ tries ih =>
    unfold Binary64.shortestFrom
    cases hfind : (Binary64.gridNeighbours m e (k - (17 - tries))).find? (Binary64.readsBack m e) with
    | some p => exact .inl (List.find?_some hfind)
    | none => exact ih

theorem exists_literal_digitsText (m : Nat) (e : Int) :
    ∃ n : NumberLiteral, n.chars = (Binary64.finite false m e).digitsText := by
  by_cases hm : m = 0
  · exact ⟨.zero, by rw [Binary64.digitsText, if_pos hm]; rfl⟩
  have htext : (Binary64.finite false m e).digitsText =
      Binary64.layout (Binary64.shortest m e).spread.1 (Binary64.shortest m e).spread.2 := by
    simp [Binary64.digitsText, hm]
  have hpos := Nat.pos_of_ne_zero hm
  rcases @shortestFrom_cases m e (Binary64.decimalExponent m e) 17 with hback | hzero
  · have hrounds := (Binary64.readsBack_iff hpos).mp hback
    obtain ⟨n, hchars, -⟩ := writesFloat_spread (Binary64.digits_ne_zero_of_rounds hpos hrounds)
    exact ⟨n, hchars.trans htext.symm⟩
  -- Nothing is written as zero, which is a literal as well.
  · refine ⟨.zero, ?_⟩
    rw [htext, Binary64.shortest, hzero]
    decide

theorem numberText_float {x : Binary64} (h : isFinite x = true) : NumberText (floatLiteral x) := by
  cases x with
  | nan => cases h
  | infinite => cases h
  | finite negative m e =>
    obtain ⟨n, hn⟩ := exists_literal_digitsText m e
    rw [floatLiteral_finite, ← hn]
    cases negative with
    | false => exact n.numberText.1
    | true => exact n.numberText.2

/-! ## Texts -/

theorem isDigit_of_mem_hexDigits {width n : Nat} {c : Char} (h : c ∈ Text.hexDigits width n) :
    Hex.isDigit c = true := by
  induction width generalizing n with
  | zero => cases h
  | succ width ih =>
    rw [Text.hexDigits, List.mem_append, List.mem_singleton] at h
    rcases h with h | rfl
    · exact ih h
    · rw [Hex.isDigit, Hex.digitValue?_digit _ (Nat.mod_lt n (by decide))]
      rfl

theorem Quotable.append_unitEscape (n : Nat) {cs : List Char} (h : Quotable cs) : Quotable (unitEscape n ++ cs) :=
  .unit rfl (fun _ => isDigit_of_mem_hexDigits) h

theorem mem_of_shortEscape? {c e : Char} (h : shortEscape? c = some e) :
    e ∈ ['"', '\\', '/', 'b', 'f', 'n', 'r', 't'] := by
  unfold shortEscape? at h
  split at h <;> cases h <;> decide

theorem Quotable.append_escaped {keep : Char → Bool} (hk : KeepsAllowed keep) (c : Char) {cs : List Char}
    (h : Quotable cs) : Quotable (escaped keep c ++ cs) := by
  unfold escaped
  cases hs : shortEscape? c with
  | some e => exact .escape (mem_of_shortEscape? hs) h
  | none =>
    obtain ⟨hquote, hback⟩ := ne_of_shortEscape? hs
    by_cases hkeep : keep c = true
    · rw [if_pos hkeep]
      exact .char ⟨hk c hkeep, hquote, hback⟩ h
    rw [if_neg hkeep, unitEscapes]
    by_cases hsmall : c.toNat < 0x10000
    · rw [if_pos hsmall]
      exact h.append_unitEscape _
    · rw [if_neg hsmall, List.append_assoc]
      exact (h.append_unitEscape _).append_unitEscape _

theorem quotable_text {keep : Char → Bool} (hk : KeepsAllowed keep) (cs : List Char) :
    Quotable (cs.flatMap (escaped keep)) := by
  induction cs with
  | nil => exact .nil
  | cons c cs ih =>
    rw [List.flatMap_cons]
    exact ih.append_escaped hk c

theorem derives_textLiteral {keep : Char → Bool} (hk : KeepsAllowed keep) (s : String) :
    Derives .value (textLiteral keep s) := .text (quotable_text hk s.toList)

/-! ## What the layouts write -/

section Layouts

variable {l : Layout}

mutual

theorem derives_print (hl : l.Sound) : ∀ (v : Value) (d : Nat), isStandard v = true → Derives .value (print l d v)
  | .null, _, _ => .null
  | .bool b, _, _ => .bool b
  | .int n, _, _ => .number (numberText_intDigits n)
  | .float x, _, h => .number (numberText_float h)
  | .text s, _, _ => derives_textLiteral hl.keep s
  | .bytes bs, _, _ => derives_textLiteral hl.keep (Hex.text bs)
  | .list [], _, _ => .emptyList blanks_nil
  | .list (v :: vs), d, h => by
    have hitems := derives_printItems hl (v :: vs) (d + 1) (List.cons_ne_nil v vs) h (hl.opening (d + 1))
      (hl.closing d)
    simpa [print] using Derives.list hitems
  | .record [], _, _ => .emptyRecord blanks_nil
  | .record (m :: ms), d, h => by
    have hmembers := derives_printMembers hl (m :: ms) (d + 1) (List.cons_ne_nil m ms) h (hl.opening (d + 1))
      (hl.closing d)
    simpa [print] using Derives.record hmembers

/-- Blanks around a row of elements are blanks around its first and its last one. -/
theorem derives_printItems (hl : l.Sound) : ∀ (vs : List Value) (d : Nat) {bs bs' : List Char}, vs ≠ [] →
    areStandard vs = true → Blanks bs → Blanks bs' → Derives .elements (bs ++ (printItems l d vs ++ bs'))
  | [], _, _, _, hne, _, _, _ => absurd rfl hne
  | [v], d, _, _, _, h, hb, hb' => by
    rw [areStandard, Bool.and_eq_true] at h
    exact .lastElement (.element hb (derives_print hl v d h.1) hb')
  | v :: w :: vs, d, bs, bs', _, h, hb, hb' => by
    rw [areStandard, Bool.and_eq_true] at h
    obtain ⟨gap, hcomma, hgap⟩ := hl.comma d
    have hfirst := Derives.element hb (derives_print hl v d h.1) blanks_nil
    have hrest := derives_printItems hl (w :: vs) d (List.cons_ne_nil w vs) h.2 hgap hb'
    simpa [printItems, hcomma] using Derives.elements hfirst hrest

theorem derives_printMembers (hl : l.Sound) :
    ∀ (ms : List (String × Value)) (d : Nat) {bs bs' : List Char}, ms ≠ [] →
    membersAreStandard ms = true → Blanks bs → Blanks bs' → Derives .members (bs ++ (printMembers l d ms ++ bs'))
  | [], _, _, _, hne, _, _, _ => absurd rfl hne
  | [(k, v)], d, _, _, _, h, hb, hb' => by
    rw [membersAreStandard, Bool.and_eq_true] at h
    obtain ⟨space, hcolon, hspace⟩ := hl.colon
    have hmember := Derives.lastMember hb (quotable_text hl.keep k.toList) blanks_nil
      (.element hspace (derives_print hl v d h.1) hb')
    simpa [printMembers, textLiteral, hcolon] using hmember
  | (k, v) :: m :: ms, d, _, _, _, h, hb, hb' => by
    rw [membersAreStandard, Bool.and_eq_true] at h
    obtain ⟨gap, hcomma, hgap⟩ := hl.comma d
    obtain ⟨space, hcolon, hspace⟩ := hl.colon
    have hfirst := Derives.lastMember hb (quotable_text hl.keep k.toList) blanks_nil
      (.element hspace (derives_print hl v d h.1) blanks_nil)
    have hrest := derives_printMembers hl (m :: ms) d (List.cons_ne_nil m ms) h.2 hgap hb'
    simpa [printMembers, textLiteral, hcolon, hcomma] using Derives.members hfirst hrest

end

end Layouts

/-! ## Words outside the texts -/

/-- Where a reader stands that tells texts from what is around them. -/
inductive Place
  | outside
  | inside
  | escaped
  deriving DecidableEq

namespace Place

def next (p : Place) (c : Char) : Place :=
  match p with
  | outside => if c = '"' then inside else outside
  | inside => if c = '"' then outside else if c = '\\' then escaped else inside
  | escaped => inside

def marks (p : Place) (c : Char) : Bool := p = outside ∧ (c = 'N' ∨ c = 'I')

def scan (p : Place) (cs : List Char) : Place × Bool :=
  match cs with
  | [] => (p, false)
  | c :: cs => ((scan (p.next c) cs).1, p.marks c || (scan (p.next c) cs).2)

theorem scan_append (p : Place) (xs ys : List Char) :
    p.scan (xs ++ ys) = (((p.scan xs).1.scan ys).1, (p.scan xs).2 || ((p.scan xs).1.scan ys).2) := by
  induction xs generalizing p with
  | nil => simp [scan]
  | cons c xs ih => simp [scan, ih, Bool.or_assoc]

end Place

open Place (outside inside)

theorem Quotable.scan {cs : List Char} (h : Quotable cs) : inside.scan cs = (inside, false) := by
  have hdigits : ∀ ds : List Char, (∀ c ∈ ds, Hex.isDigit c = true) → inside.scan ds = (inside, false) := by
    intro ds hd
    induction ds with
    | nil => rfl
    | cons c ds ih =>
      rw [List.forall_mem_cons] at hd
      have hquote : c ≠ '"' := by
        rintro rfl
        exact absurd hd.1 (by decide)
      have hback : c ≠ '\\' := by
        rintro rfl
        exact absurd hd.1 (by decide)
      simp [Place.scan, Place.next, Place.marks, hquote, hback, ih hd.2]
  induction h with
  | nil => rfl
  | char hc _ ih => simp [Place.scan, Place.next, Place.marks, hc.2.1, hc.2.2, ih]
  | escape _ _ ih => simp [Place.scan, Place.next, Place.marks, ih]
  | @unit ds cs _ hd _ ih => simp [Place.scan, Place.next, Place.marks, Place.scan_append, hdigits ds hd, ih]

/-- No text is left open, and `word` says whether one of the letters stands outside the texts. -/
def Worded (cs : List Char) (word : Bool) : Prop := outside.scan cs = (outside, word)

namespace Worded

variable {cs ds : List Char} {a b : Bool}

theorem nil : Worded [] false := rfl

theorem append (h : Worded cs a) (h' : Worded ds b) : Worded (cs ++ ds) (a || b) := by
  unfold Worded at *
  rw [Place.scan_append, h, h']

theorem cons {c : Char} (hc : c ≠ '"' ∧ c ≠ 'N' ∧ c ≠ 'I') (h : Worded cs a) : Worded (c :: cs) a := by
  unfold Worded at *
  simp [Place.scan, Place.next, Place.marks, hc, h]

theorem between {first last : Char} (hfirst : first ≠ '"' ∧ first ≠ 'N' ∧ first ≠ 'I')
    (hlast : last ≠ '"' ∧ last ≠ 'N' ∧ last ≠ 'I') (h : Worded cs a) : Worded (first :: (cs ++ [last])) a := by
  have htail := h.append (nil.cons hlast)
  rw [Bool.or_false] at htail
  exact htail.cons hfirst

theorem of_plain (h : ∀ c ∈ cs, c ≠ '"' ∧ c ≠ 'N' ∧ c ≠ 'I') : Worded cs false := by
  induction cs with
  | nil => exact nil
  | cons c cs ih =>
    rw [List.forall_mem_cons] at h
    exact .cons h.1 (ih h.2)

theorem quoted (h : Quotable cs) : Worded ('"' :: (cs ++ ['"'])) false := by
  unfold Worded
  simp [Place.scan, Place.next, Place.marks, Place.scan_append, h.scan]

end Worded

theorem worded_blanks {bs : List Char} (hb : Blanks bs) : Worded bs false := by
  refine .of_plain fun c hc => ?_
  have h := hb c hc
  simp only [isBlank, Bool.or_eq_true, decide_eq_true_eq] at h
  rcases h with ((rfl | rfl) | rfl) | rfl <;> decide

theorem plain_of_isAsciiDigit {c : Char} (h : isAsciiDigit c = true) : c ≠ '"' ∧ c ≠ 'N' ∧ c ≠ 'I' := by
  refine ⟨?_, ?_, ?_⟩ <;> (rintro rfl; exact absurd h (by decide))

theorem Digits.worded {ds : List Char} (h : Digits ds) : Worded ds false :=
  .of_plain fun c hc => plain_of_isAsciiDigit (h.2 c hc)

theorem worded_sign {sign : List Char} (h : sign ∈ [[], ['+'], ['-']]) : Worded sign false := by
  simp only [List.mem_cons, List.not_mem_nil, or_false] at h
  rcases h with rfl | rfl | rfl <;> rfl

theorem Fraction.worded {cs : List Char} (h : Fraction cs) : Worded cs false := by
  cases h with
  | none => exact .nil
  | point h => exact h.worded.cons (by decide)

theorem Exponent.worded {cs : List Char} (h : Exponent cs) : Worded cs false := by
  cases h with
  | none => exact .nil
  | mark hc hs h =>
    refine ((worded_sign hs).append h.worded).cons ?_
    simp only [List.mem_cons, List.not_mem_nil, or_false] at hc
    rcases hc with rfl | rfl <;> decide

theorem NumberText.worded {cs : List Char} (h : NumberText cs) : Worded cs false := by
  obtain ⟨hs, hw, -, hf, he⟩ := h
  have hsign : ∀ {sign : List Char}, sign ∈ [[], ['-']] → sign ∈ [[], ['+'], ['-']] := by
    intro sign hs
    simp only [List.mem_cons, List.not_mem_nil, or_false] at hs ⊢
    exact hs.imp_right .inr
  exact (worded_sign (hsign hs)).append (hw.worded.append (hf.worded.append he.worded))

/-- No text of the grammar has such a letter outside its text literals. -/
theorem Derives.worded {r : Rule} {cs : List Char} (h : Derives r cs) : Worded cs false := by
  induction h with
  | null => rfl
  | bool b => cases b <;> rfl
  | number h => exact h.worded
  | text h => exact .quoted h
  | emptyList hb => exact (worded_blanks hb).between (by decide) (by decide)
  | list _ ih => exact ih.between (by decide) (by decide)
  | emptyRecord hb => exact (worded_blanks hb).between (by decide) (by decide)
  | record _ ih => exact ih.between (by decide) (by decide)
  | element hb _ hb' ih => exact (worded_blanks hb).append (ih.append (worded_blanks hb'))
  | lastElement _ ih => exact ih
  | elements _ _ ih ih' => exact ih.append (ih'.cons (by decide))
  | @lastMember bs name bs' cs hb hn hb' _ ih =>
    have hname := (Worded.quoted hn).append ((worded_blanks hb').append (ih.cons (c := ':') (by decide)))
    have hmember := (worded_blanks hb).append hname
    simpa using hmember
  | members _ _ ih ih' => exact ih.append (ih'.cons (by decide))

section Layouts

variable {l : Layout}

theorem worded_float (x : Binary64) : Worded (floatLiteral x) (!isFinite x) := by
  cases x with
  | nan => rfl
  | infinite negative => cases negative <;> rfl
  | finite => exact (numberText_float rfl).worded

theorem worded_textLiteral (hl : l.Sound) (s : String) : Worded (textLiteral l.keep s) false :=
  (derives_textLiteral hl.keep s).worded

theorem worded_comma (hl : l.Sound) (d : Nat) : Worded (l.comma d) false := by
  obtain ⟨gap, hcomma, hgap⟩ := hl.comma d
  rw [hcomma]
  exact (worded_blanks hgap).cons (by decide)

theorem worded_colon (hl : l.Sound) : Worded l.colon false := by
  obtain ⟨space, hcolon, hspace⟩ := hl.colon
  rw [hcolon]
  exact (worded_blanks hspace).cons (by decide)

theorem Worded.enclosed {cs : List Char} {b : Bool} (hl : l.Sound) (d : Nat) {first last : Char}
    (hfirst : first ≠ '"' ∧ first ≠ 'N' ∧ first ≠ 'I') (hlast : last ≠ '"' ∧ last ≠ 'N' ∧ last ≠ 'I')
    (h : Worded cs b) : Worded (first :: l.opening (d + 1) ++ cs ++ l.closing d ++ [last]) b := by
  have hbody := ((worded_blanks (hl.opening (d + 1))).append h).append (worded_blanks (hl.closing d))
  simpa using hbody.between hfirst hlast

mutual

theorem worded_print (hl : l.Sound) : ∀ (v : Value) (d : Nat), Worded (print l d v) (!isStandard v)
  | .null, _ => rfl
  | .bool b, _ => by cases b <;> rfl
  | .int n, _ => (numberText_intDigits n).worded
  | .float x, _ => worded_float x
  | .text s, _ => worded_textLiteral hl s
  | .bytes bs, _ => worded_textLiteral hl (Hex.text bs)
  | .list [], _ => rfl
  | .list (v :: vs), d => (worded_printItems hl (v :: vs) (d + 1)).enclosed hl d (by decide) (by decide)
  | .record [], _ => rfl
  | .record (m :: ms), d => (worded_printMembers hl (m :: ms) (d + 1)).enclosed hl d (by decide) (by decide)

theorem worded_printItems (hl : l.Sound) :
    ∀ (vs : List Value) (d : Nat), Worded (printItems l d vs) (!areStandard vs)
  | [], _ => rfl
  | [v], d => by
    have hv := worded_print hl v d
    simpa [printItems, areStandard] using hv
  | v :: w :: vs, d => by
    have hv := (worded_print hl v d).append (worded_comma hl d)
    have hrest := worded_printItems hl (w :: vs) d
    rw [printItems, areStandard, Bool.not_and]
    · simpa using hv.append hrest
    · simp

theorem worded_printMembers (hl : l.Sound) : ∀ (ms : List (String × Value)) (d : Nat),
    Worded (printMembers l d ms) (!membersAreStandard ms)
  | [], _ => rfl
  | [(k, v)], d => by
    have hname := (worded_textLiteral hl k).append (worded_colon hl)
    have hv := hname.append (worded_print hl v d)
    simpa [printMembers, membersAreStandard] using hv
  | (k, v) :: m :: ms, d => by
    have hname := (worded_textLiteral hl k).append (worded_colon hl)
    have hv := (hname.append (worded_print hl v d)).append (worded_comma hl d)
    have hrest := worded_printMembers hl (m :: ms) d
    rw [printMembers, membersAreStandard, Bool.not_and]
    · simpa using hv.append hrest
    · simp

end

/-- **A layout writes standard JSON exactly for the values that have a form in it.** -/
theorem standardText_print_iff (hl : l.Sound) {v : Value} {d : Nat} :
    StandardText (print l d v) ↔ isStandard v = true := by
  refine ⟨fun h => ?_, fun h => standardText_of_value (derives_print hl v d h)⟩
  have hscan : outside.scan (print l d v) = (outside, !isStandard v) := worded_print hl v d
  have hplain : outside.scan (print l d v) = (outside, false) := h.worded
  rw [hscan] at hplain
  simpa using hplain

theorem numberText_float_iff {x : Binary64} : NumberText (floatLiteral x) ↔ isFinite x = true := by
  refine ⟨fun h => ?_, numberText_float⟩
  have hscan : outside.scan (floatLiteral x) = (outside, !isFinite x) := worded_float x
  have hplain : outside.scan (floatLiteral x) = (outside, false) := h.worded
  rw [hscan] at hplain
  simpa using hplain

end Layouts

end DefiActions.Json
