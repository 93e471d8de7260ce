import DefiActions.Proofs.CaseLemmas
import DefiActions.Proofs.NumeralLemmas
import DefiActions.Proofs.ExceptLemmas

/-!
# Integers as texts

A numeral is a run of digits with single underscores between them. What is read
as an integer is such a numeral behind one sign or none, with blanks around it,
and the integer is the one that it writes. Of the texts that write a number one
is plain: it has no sign, no blanks, no underscores and no superfluous zero.
-/

namespace DefiActions.Text

/-! ## Runs of digits -/

/-- Digits with at most one underscore in front of each, and the values of the digits. -/
inductive DigitRun (base : Base) : List Char → List Nat → Prop
  | nil : DigitRun base [] []
  | digit {c d cs ds} (hd : base.digitValue? c = some d) (h : DigitRun base cs ds) :
      DigitRun base (c :: cs) (d :: ds)
  | parted {c d cs ds} (hd : base.digitValue? c = some d) (h : DigitRun base cs ds) :
      DigitRun base ('_' :: c :: cs) (d :: ds)

def Ends (base : Base) (cs : List Char) : Prop := ∀ c ∈ cs.head?, c ≠ '_' ∧ base.digitValue? c = none

variable {base : Base} {c : Char} {d : Nat} {cs run rest : List Char} {ds : List Nat}

theorem digitValue?_underscore (base : Base) : base.digitValue? '_' = none := by
  cases base with
  | ten => decide
  | sixteen => decide

theorem ne_underscore (hd : base.digitValue? c = some d) : c ≠ '_' := by
  intro e
  rw [e, digitValue?_underscore] at hd
  cases hd

theorem digitRun_map {f : Char → Nat} (h : ∀ c ∈ cs, base.digitValue? c = some (f c)) :
    DigitRun base cs (cs.map f) := by
  induction cs with
  | nil => exact .nil
  | cons c cs ih =>
    obtain ⟨hc, hcs⟩ := List.forall_mem_cons.mp h
    exact .digit hc (ih hcs)

theorem DigitRun.mem (h : DigitRun base cs ds) : ∀ c ∈ cs, c = '_' ∨ (base.digitValue? c).isSome := by
  induction h with
  | nil => nofun
  | digit hd _ ih => exact List.forall_mem_cons.mpr ⟨.inr (by rw [hd]; rfl), ih⟩
  | parted hd _ ih =>
    exact List.forall_mem_cons.mpr ⟨.inl rfl, List.forall_mem_cons.mpr ⟨.inr (by rw [hd]; rfl), ih⟩⟩

theorem digitRun_digit (hd : base.digitValue? c = some d) (cs : List Char) :
    digitRun base (c :: cs) = (digitRun base cs).map fun r => (d :: r.1, r.2) := by
  rw [digitRun, hd]
  · cases digitRun base cs with
    | none => rfl
    | some r => rfl
  · exact fun _ _ e _ => ne_underscore hd e

theorem digitRun_parted (hd : base.digitValue? c = some d) (cs : List Char) :
    digitRun base ('_' :: c :: cs) = (digitRun base cs).map fun r => (d :: r.1, r.2) := by
  rw [digitRun, hd]
  cases digitRun base cs with
  | none => rfl
  | some r => rfl

theorem digitRun_of_ends (h : Ends base rest) : digitRun base rest = some ([], rest) := by
  cases rest with
  | nil => rfl
  | cons c cs =>
    obtain ⟨hc, hd⟩ := h c rfl
    rw [digitRun, hd]
    · exact if_neg hc
    · exact fun _ _ e _ => hc e

theorem DigitRun.digitRun_append (h : DigitRun base run ds) (he : Ends base rest) :
    Text.digitRun base (run ++ rest) = some (ds, rest) := by
  induction h with
  | nil => exact digitRun_of_ends he
  | digit hd _ ih => rw [List.cons_append, digitRun_digit hd, ih, Option.map_some]
  | parted hd _ ih => rw [List.cons_append, List.cons_append, digitRun_parted hd, ih, Option.map_some]

theorem run_of_digitRun (h : digitRun base cs = some (ds, rest)) :
    ∃ run, cs = run ++ rest ∧ DigitRun base run ds := by
  -- along the reader, which ends at whatever is no digit and refuses an underscore with none behind it
  fun_induction digitRun base cs generalizing ds rest with
  | case1 =>
    cases h
    exact ⟨[], rfl, .nil⟩
  | case2 c cs ih =>
    simp only [Option.bind_eq_bind, Option.bind_eq_some_iff, Option.some.injEq, Prod.mk.injEq] at h
    obtain ⟨d, hd, ⟨ds', rest'⟩, hr, rfl, rfl⟩ := h
    obtain ⟨run, rfl, hrun⟩ := ih hr
    exact ⟨'_' :: c :: run, rfl, .parted hd hrun⟩
  | case3 => cases h
  | case4 =>
    cases h
    exact ⟨[], rfl, .nil⟩
  | case5 c cs _ d hd ih =>
    simp only [Option.bind_eq_bind, Option.bind_eq_some_iff, Option.some.injEq, Prod.mk.injEq] at h
    obtain ⟨⟨ds', rest'⟩, hr, rfl, rfl⟩ := h
    obtain ⟨run, rfl, hrun⟩ := ih hr
    exact ⟨c :: run, rfl, .digit hd hrun⟩

/-! ## Blanks behind a run -/

theorem isSpace_of_isDigit (h : isDigit c = true) : isSpace c = false := by
  have hblank := isBlank_of_isDigit h
  rw [isBlank, Bool.or_eq_false_iff] at hblank
  exact hblank.1

theorem digitValue?_of_isSpace (h : isSpace c = true) : digitValue? c = none := by
  by_cases hd : isDigit c = true
  · rw [isSpace_of_isDigit hd] at h
    cases h
  · exact Option.not_isSome_iff_eq_none.mp hd

theorem hexDigitValue?_of_ascii :
    ∀ n < 128, isSpace (Char.ofNat n) = true → Hex.digitValue? (Char.ofNat n) = none := by
  decide

theorem hexDigitValue?_of_isSpace (h : isSpace c = true) : Hex.digitValue? c = none := by
  by_cases hd : Hex.isDigit c = true
  · obtain ⟨n, hn, rfl⟩ := exists_of_ascii (Hex.toNat_of_isDigit hd).2
    exact hexDigitValue?_of_ascii n hn h
  · exact Option.not_isSome_iff_eq_none.mp hd

theorem ends_of_isSpace (base : Base) (h : ∀ c ∈ rest, isSpace c = true) : Ends base rest := by
  intro c hc
  have hspace := h c (List.mem_of_mem_head? hc)
  refine ⟨fun e => ?_, ?_⟩
  · rw [e] at hspace
    exact absurd hspace (by decide)
  · cases base with
    | ten => exact digitValue?_of_isSpace hspace
    | sixteen =>
      rw [Base.digitValue?, digitValue?_of_isSpace hspace, hexDigitValue?_of_isSpace hspace]
      rfl

/-! ## Numerals -/

/-- At least one digit, no underscore in front of the first, and in base 10 no more digits than the limit. -/
structure Digits (base : Base) (cs : List Char) (ds : List Nat) : Prop where
  run : DigitRun base cs ds
  first : cs.head? ≠ some '_'
  ne_nil : ds ≠ []
  limit : base = .ten → ds.length ≤ numeralLimit

theorem Digits.exists_cons (h : Digits base cs ds) : ∃ c rest d, cs = c :: rest ∧ base.digitValue? c = some d := by
  cases h.run with
  | nil => exact absurd rfl h.ne_nil
  | digit hd => exact ⟨_, _, _, rfl, hd⟩
  | parted => exact absurd rfl h.first

theorem Digits.chars_ne_nil (h : Digits base cs ds) : cs ≠ [] := by
  obtain ⟨_, _, _, rfl, -⟩ := h.exists_cons
  exact List.cons_ne_nil _ _

theorem digits_map {f : Char → Nat} (hne : cs ≠ []) (h : ∀ c ∈ cs, base.digitValue? c = some (f c))
    (hl : base = .ten → cs.length ≤ numeralLimit) : Digits base cs (cs.map f) where
  run := digitRun_map h
  first hhead := absurd rfl (ne_underscore (h '_' (List.mem_of_mem_head? hhead)))
  ne_nil hnil := hne (List.map_eq_nil_iff.mp hnil)
  limit hten := by
    rw [List.length_map]
    exact hl hten

theorem exists_digits (hne : cs ≠ []) (h : ∀ c ∈ cs, (base.digitValue? c).isSome)
    (hl : base = .ten → cs.length ≤ numeralLimit) : ∃ ds, Digits base cs ds := by
  refine ⟨cs.map fun c => (base.digitValue? c).getD 0, digits_map hne (fun c hc => ?_) hl⟩
  obtain ⟨d, hd⟩ := Option.isSome_iff_exists.mp (h c hc)
  rw [hd, Option.getD_some]

theorem readNat_of_digits (h : Digits base run ds) (hblank : ∀ c ∈ rest, isSpace c = true) :
    readNat base (run ++ rest) = .ok (ofDigits base.size ds) := by
  have hlimit : ¬ (base = .ten ∧ ds.length > numeralLimit) := fun hlong => Nat.not_lt.mpr (h.limit hlong.1) hlong.2
  have hrest : ¬ (ds = [] ∨ rest.any (!isSpace ·) = true) := by
    rw [not_or, Bool.not_eq_true, List.any_eq_false]
    exact ⟨h.ne_nil, fun c hc => by rw [hblank c hc]; decide⟩
  unfold readNat
  split
  · rename_i hcs
    obtain ⟨c, cs, d, rfl, -⟩ := h.exists_cons
    rw [List.cons_append] at hcs
    exact absurd (congrArg some (List.cons.inj hcs).1) h.first
  · rw [h.run.digitRun_append (ends_of_isSpace base hblank)]
    dsimp only
    rw [if_neg hlimit, if_neg hrest]

theorem digits_of_readNat {n : Nat} (h : readNat base cs = .ok n) : ∃ run blanks ds, cs = run ++ blanks ∧
    Digits base run ds ∧ (∀ c ∈ blanks, isSpace c = true) ∧ ofDigits base.size ds = n := by
  unfold readNat at h
  split at h
  · cases h
  rename_i hfirst
  split at h
  · cases h
  rename_i ds blanks hread
  obtain ⟨run, rfl, hrun⟩ := run_of_digitRun hread
  split at h
  · cases h
  rename_i hlimit
  split at h
  · cases h
  rename_i hrest
  rw [not_or] at hrest
  refine ⟨run, blanks, ds, rfl, ⟨hrun, fun hhead => ?_, hrest.1, fun hten => ?_⟩, by simpa using hrest.2,
    Except.ok.inj h⟩
  · obtain ⟨cs, rfl⟩ := List.head?_eq_some_iff.mp hhead
    exact hfirst _ rfl
  · exact Nat.not_lt.mp fun hlong => hlimit ⟨hten, hlong⟩

/-! ## Integers -/

inductive Signed : List Char → Int → Prop
  | bare {cs : List Char} {ds : List Nat} (h : Digits .ten cs ds) : Signed cs (ofDigits 10 ds)
  | plus {cs : List Char} {ds : List Nat} (h : Digits .ten cs ds) : Signed ('+' :: cs) (ofDigits 10 ds)
  | minus {cs : List Char} {ds : List Nat} (h : Digits .ten cs ds) : Signed ('-' :: cs) (-(ofDigits 10 ds : Nat))

def WritesInt (cs : List Char) (n : Int) : Prop :=
  ∃ before text after, cs = before ++ text ++ after ∧ (∀ c ∈ before ++ after, isSpace c = true) ∧ Signed text n

variable {n : Int} {negative : Bool}

theorem Digits.exists_digit (h : Digits .ten cs ds) : ∃ c rest, cs = c :: rest ∧ isDigit c = true := by
  obtain ⟨c, rest, d, rfl, hd⟩ := h.exists_cons
  exact ⟨c, rest, rfl, Option.isSome_iff_exists.mpr ⟨d, hd⟩⟩

theorem splitSign_of_isDigit (h : isDigit c = true) (cs : List Char) : splitSign (c :: cs) = (false, c :: cs) := by
  have hsign : ∀ s, isDigit s = false → ∀ rest, c :: cs ≠ s :: rest := by
    intro s hs rest e
    rw [← (List.cons.inj e).1, h] at hs
    cases hs
  unfold splitSign
  split
  · rename_i e
    exact absurd e (hsign '-' (by decide) _)
  · rename_i e
    exact absurd e (hsign '+' (by decide) _)
  · rfl

theorem Signed.exists_digits (h : Signed cs n) : ∃ negative run ds, Digits .ten run ds ∧
    (∀ after, splitSign (cs ++ after) = (negative, run ++ after)) ∧
      (if negative then -(ofDigits 10 ds : Int) else ofDigits 10 ds) = n := by
  cases h with
  | bare h =>
    obtain ⟨c, rest, rfl, hc⟩ := h.exists_digit
    exact ⟨false, _, _, h, fun after => splitSign_of_isDigit hc (rest ++ after), rfl⟩
  | plus h => exact ⟨false, _, _, h, fun after => rfl, rfl⟩
  | minus h => exact ⟨true, _, _, h, fun after => rfl, rfl⟩

theorem Signed.exists_cons (h : Signed cs n) : ∃ c rest, cs = c :: rest ∧ isSpace c = false := by
  cases h with
  | bare h =>
    obtain ⟨c, rest, rfl, hc⟩ := h.exists_digit
    exact ⟨c, rest, rfl, isSpace_of_isDigit hc⟩
  | plus => exact ⟨_, _, rfl, by decide⟩
  | minus => exact ⟨_, _, rfl, by decide⟩

theorem signed_of_splitSign (h : splitSign cs = (negative, run ++ rest)) (hrun : Digits .ten run ds) :
    ∃ text, cs = text ++ rest ∧ Signed text (if negative then -(ofDigits 10 ds : Int) else ofDigits 10 ds) := by
  unfold splitSign at h
  split at h
  · obtain ⟨rfl, rfl⟩ := Prod.mk.inj h
    exact ⟨_, rfl, .minus hrun⟩
  · obtain ⟨rfl, rfl⟩ := Prod.mk.inj h
    exact ⟨_, rfl, .plus hrun⟩
  · obtain ⟨rfl, rfl⟩ := Prod.mk.inj h
    exact ⟨_, rfl, .bare hrun⟩

theorem readInt_of_splitSign {body : List Char} (h : splitSign (cs.dropWhile isSpace) = (negative, body)) :
    readInt base cs = .ok n ↔
      ∃ m, readNat base (dropBaseMark base body) = .ok m ∧ (if negative then -(m : Int) else m) = n := by
  simp only [readInt, h, map_eq_ok, bind_eq_ok, pure_eq_ok]
  refine ⟨fun h => ?_, fun h => ?_⟩
  · obtain ⟨_, ⟨m, hm, rfl⟩, hn⟩ := h
    exact ⟨m, hm, hn⟩
  · obtain ⟨m, hm, hn⟩ := h
    exact ⟨_, ⟨m, hm, rfl⟩, hn⟩

theorem writesInt_of_readInt (h : readInt .ten cs = .ok n) : WritesInt cs n := by
  obtain ⟨m, hm, rfl⟩ := (readInt_of_splitSign rfl).mp h
  obtain ⟨run, after, ds, hcs, hdigits, hafter, rfl⟩ := digits_of_readNat hm
  obtain ⟨text, htext, hsigned⟩ := signed_of_splitSign (Prod.ext rfl hcs) hdigits
  refine ⟨cs.takeWhile isSpace, text, after, ?_, ?_, hsigned⟩
  · rw [List.append_assoc, ← htext, List.takeWhile_append_dropWhile]
  · exact List.forall_mem_append.mpr ⟨fun c hc => List.mem_takeWhile_imp hc, hafter⟩

theorem WritesInt.readInt_eq (h : WritesInt cs n) : readInt .ten cs = .ok n := by
  obtain ⟨before, text, after, rfl, hblank, hsigned⟩ := h
  obtain ⟨hbefore, hafter⟩ := List.forall_mem_append.mp hblank
  obtain ⟨negative, run, ds, hdigits, hsplit, hn⟩ := hsigned.exists_digits
  -- The text starts with a sign or a digit, so that only the blanks before it are dropped.
  have hdrop : (before ++ text ++ after).dropWhile isSpace = text ++ after := by
    obtain ⟨c, rest, rfl, hc⟩ := hsigned.exists_cons
    rw [List.append_assoc, List.dropWhile_append_of_pos hbefore, List.cons_append,
      List.dropWhile_cons_of_neg (by rw [hc]; decide)]
  exact (readInt_of_splitSign (by rw [hdrop, hsplit])).mpr ⟨_, readNat_of_digits hdigits hafter, hn⟩

/-- **What is read as an integer is the text of one.** -/
theorem readInt_eq_ok_iff : readInt .ten cs = .ok n ↔ WritesInt cs n := ⟨writesInt_of_readInt, WritesInt.readInt_eq⟩

theorem WritesInt.unique {m : Int} (h : WritesInt cs n) (h' : WritesInt cs m) : n = m :=
  Except.ok.inj (h.readInt_eq.symm.trans h'.readInt_eq)

/-! ## Plain numerals -/

structure IsNumeral (cs : List Char) (n : Nat) : Prop where
  isDigit : ∀ c ∈ cs, c.isDigit = true
  ne_nil : cs ≠ []
  of_zero : cs.head? = some '0' → cs = ['0']
  value : Nat.ofDigitChars 10 cs 0 = n

theorem isNumeral_natDigits (n : Nat) : IsNumeral (natDigits n) n where
  isDigit _ := isDigit_of_mem_natDigits
  ne_nil := natDigits_ne_nil n
  of_zero h := by
    rw [eq_zero_of_head?_natDigits h]
    rfl
  value := ofDigitChars_natDigits n

theorem bounds_of_isDigit (h : c.isDigit = true) : 48 ≤ c.toNat ∧ c.toNat ≤ 57 := Char.isDigit_iff_toNat.mp h

theorem natDigits_of_isDigit (h : c.isDigit = true) : natDigits (c.toNat - 48) = [c] := by
  obtain ⟨hlow, hhigh⟩ := bounds_of_isDigit h
  have hc : (c.toNat - 48).digitChar.toNat = c.toNat := by
    rw [Nat.toNat_digitChar_of_lt_ten (by omega)]
    omega
  rw [natDigits_of_lt (by omega), Char.toNat_inj.mp hc]

theorem natDigits_append {m : Nat} (hm : 0 < m) (h : ∀ c ∈ cs, c.isDigit = true) :
    natDigits m ++ cs = natDigits (Nat.ofDigitChars 10 cs m) := by
  -- over the digits that follow, with the number in front of them, which stays positive
  induction cs generalizing m with
  | nil => rw [List.append_nil, Nat.ofDigitChars_nil]
  | cons c cs ih =>
    obtain ⟨hc, hcs⟩ := List.forall_mem_cons.mp h
    have hlt : c.toNat - 48 < 10 := by
      have := bounds_of_isDigit hc
      omega
    have hstep : natDigits m ++ [c] = natDigits (10 * m + (c.toNat - 48)) := by
      rw [← natDigits_of_isDigit hc]
      exact Nat.toDigits_append_toDigits (by decide) hm hlt
    rw [List.append_cons, hstep, ih (by omega) hcs, Nat.ofDigitChars_cons]
    rfl

theorem IsNumeral.eq_natDigits {n : Nat} (h : IsNumeral cs n) : cs = natDigits n := by
  obtain ⟨c, cs, rfl⟩ := List.exists_cons_of_ne_nil h.ne_nil
  obtain ⟨hc, hcs⟩ := List.forall_mem_cons.mp h.isDigit
  by_cases hz : c = '0'
  · have hcs := h.of_zero (congrArg some hz)
    rw [hcs, ← h.value, hcs]
    rfl
  · have hpos : 0 < c.toNat - 48 := by
      have := bounds_of_isDigit hc
      have hne : c.toNat ≠ 48 := fun e => hz (Char.toNat_inj.mp e)
      omega
    calc c :: cs = natDigits (c.toNat - 48) ++ cs := by rw [natDigits_of_isDigit hc]; rfl
      _ = natDigits (Nat.ofDigitChars 10 cs (c.toNat - 48)) := natDigits_append hpos hcs
      _ = natDigits n := by rw [← h.value, Nat.ofDigitChars_cons, Nat.mul_zero, Nat.zero_add]; rfl

/-- **A number has one numeral.** -/
theorem isNumeral_iff {n : Nat} : IsNumeral cs n ↔ cs = natDigits n :=
  ⟨IsNumeral.eq_natDigits, fun h => h ▸ isNumeral_natDigits n⟩

theorem writesInt_natDigits {n : Nat} (h : (natDigits n).length ≤ numeralLimit) : WritesInt (natDigits n) n := by
  have hsigned := Signed.bare (digits_map (natDigits_ne_nil n)
    (fun c hc => digitValue?_of_ascii (isDigit_of_mem_natDigits hc)) fun _ => h)
  rw [ofDigits_ascii, ofDigitChars_natDigits] at hsigned
  exact ⟨[], natDigits n, [], by rw [List.nil_append, List.append_nil], nofun, hsigned⟩

end DefiActions.Text
