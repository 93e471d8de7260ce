import DefiActions.Proofs.ExceptLemmas
import DefiActions.Proofs.NumeralLemmas
import DefiActions.Proofs.RunLemmas
import DefiActions.Workflow.Guard

/-!
# Outcomes and results

The only status that reads `SUCCESS` is the text itself, and the outcomes with
it are the ones that become successful results.
-/

namespace DefiActions

/-! ## Numerals have no letters -/

namespace Text

theorem not_mem_natDigits {n : Nat} : 'S' ∉ natDigits n := fun h => by
  have := isDigit_of_mem_natDigits h
  cases this

theorem not_mem_intDigits {n : Int} : 'S' ∉ intDigits n := by
  cases n with
  | ofNat n => exact not_mem_natDigits
  | negSucc n => simpa [intDigits] using not_mem_natDigits

end Text

namespace Binary64

theorem not_mem_exponentText {x : Int} : 'S' ∉ exponentText x := by
  have := @Text.not_mem_natDigits x.natAbs
  unfold exponentText
  simp only [List.mem_cons, not_or]
  constructor
  · split <;> decide
  · split
    · simpa using this
    · exact this

theorem not_mem_layout {ds : List Char} (h : 'S' ∉ ds) (k : Int) : 'S' ∉ layout ds k := by
  have ht : ∀ n, 'S' ∉ ds.take n := fun n hm => h (List.mem_of_mem_take hm)
  have hd : ∀ n, 'S' ∉ ds.drop n := fun n hm => h (List.mem_of_mem_drop hm)
  have hz : ∀ n, 'S' ∉ List.replicate n '0' := fun n hm => by simp [List.mem_replicate] at hm
  have he := @not_mem_exponentText (k - 1)
  unfold layout
  split
  · have htail : 'S' ∉ (if ds.drop 1 = [] then [] else '.' :: ds.drop 1) := by
      split
      · exact List.not_mem_nil
      · simpa using hd 1
    simp only [List.mem_append, List.mem_cons, not_or]
    exact ⟨⟨ht 1, htail⟩, by decide, he⟩
  split
  · simp [h]
  split
  · simp [h]
  · simp [ht, hd]

theorem not_mem_digitsText (x : Binary64) : 'S' ∉ x.digitsText := by
  cases x with
  | nan => decide
  | infinite negative => cases negative <;> decide
  | finite negative m e =>
    have hspread : 'S' ∉ (shortest m e).spread.1 := by
      intro hm
      have hm := List.mem_reverse.mp hm
      have hm := List.mem_reverse.mp ((List.dropWhile_sublist _).subset hm)
      exact Text.not_mem_natDigits hm
    have hbody : 'S' ∉
        (if m = 0 then "0.0".toList else layout (shortest m e).spread.1 (shortest m e).spread.2) := by
      split
      · decide
      · exact not_mem_layout hspread _
    unfold digitsText
    simp only
    split
    · simpa using hbody
    · exact hbody

end Binary64

/-! ## Status -/

/-- No value is quoted as the text `SUCCESS`: numerals have no letters, and the rest starts in another way. -/
theorem quoted?_ne_success {v : Value} : v.quoted? ≠ some "SUCCESS".toList := by
  intro h
  cases v with
  | null => exact absurd h (by decide)
  | bool b => cases b <;> exact absurd h (by decide)
  | int n =>
    simp only [Value.quoted?] at h
    split at h
    · have hn := @Text.not_mem_intDigits n
      rw [Option.some.inj h] at hn
      exact hn (by decide)
    · cases h
  | float x =>
    simp only [Value.quoted?] at h
    have hx := Binary64.not_mem_digitsText x
    rw [Option.some.inj h] at hx
    exact hx (by decide)
  | text s =>
    simp only [Value.quoted?, Text.quoted] at h
    -- A quoted text starts with its mark, which is no letter.
    have hq : Text.quoteFor s.toList = 'S' := by
      have := congrArg (Option.map List.head?) h
      simpa using this
    unfold Text.quoteFor at hq
    split at hq <;> exact absurd hq (by decide)
  | bytes bs =>
    simp only [Value.quoted?, Text.quotedBytes] at h
    have := congrArg (Option.map List.head?) h
    exact absurd this (by simp)
  | list items =>
    simp only [Value.quoted?, Option.map_eq_some_iff] at h
    obtain ⟨body, -, h⟩ := h
    exact absurd (congrArg List.head? h) (by simp)
  | record ms =>
    simp only [Value.quoted?, Option.map_eq_some_iff] at h
    obtain ⟨body, -, h⟩ := h
    exact absurd (congrArg List.head? h) (by simp)

theorem display?_eq_success {v : Value} : v.display? = some "SUCCESS" ↔ v = .text "SUCCESS" := by
  constructor
  · intro h
    have hq : ∀ l, v.quoted? = some l → String.ofList l ≠ "SUCCESS" := by
      rintro l hl he
      have : l = "SUCCESS".toList := by rw [← he, String.toList_ofList]
      exact quoted?_ne_success (this ▸ hl)
    unfold Value.display? at h
    split at h
    · rw [← Option.some.inj h]
    · obtain ⟨l, hl, he⟩ := Option.map_eq_some_iff.mp h
      exact absurd he (hq l hl)
  · rintro rfl
    rfl

namespace Outcome

def IsSuccess (o : Outcome) : Prop := o.status = .text "SUCCESS"

theorem succeeded_eq_true {o : Outcome} : o.succeeded = .ok true ↔ o.IsSuccess := by
  unfold succeeded statusName IsSuccess
  rw [← display?_eq_success]
  cases o.status.display? with
  | none => simp [refuse, throw, throwThe, MonadExceptOf.throw, Except.map]
  | some s => simp [Except.map]

end Outcome

/-! ## Results -/

namespace Settlement

open Run

theorem exec_classify_of_success {o : Outcome} (h : o.IsSuccess) (amountIn amountOut operation : Option String)
    (t : Trace) :
    exec (classify o amountIn amountOut operation) t =
      (.ok { success := true, txHash := o.hash?, operation, amountIn, amountOut },
        { t with events := t.events ++ [⟨.info, "settlement_succeeded"⟩] }) := by
  unfold classify
  rw [exec_bind, exec_lift, Outcome.succeeded_eq_true.mpr h]
  rfl

theorem success_of_exec_classify {o : Outcome} {amountIn amountOut operation : Option String} {t t' : Trace}
    {r : ActionResult} (h : exec (classify o amountIn amountOut operation) t = (.ok r, t')) :
    r.success = true → o.IsSuccess := by
  intro hr
  unfold classify at h
  rw [exec_bind, exec_lift] at h
  cases hs : o.succeeded with
  | error e => rw [hs] at h; cases h
  | ok b =>
    cases b with
    | true => exact Outcome.succeeded_eq_true.mp hs
    | false =>
      rw [hs] at h
      simp only [Bool.false_eq_true, ite_false] at h
      rw [exec_bind, exec_lift] at h
      cases hm : o.failureMessage with
      | error e => rw [hm] at h; cases h
      | ok message =>
        rw [hm] at h
        cases h
        cases hr

theorem keeps_classify (o : Outcome) (amountIn amountOut operation : Option String) :
    Keeps eventsOnly (classify o amountIn amountOut operation) := by
  unfold classify
  refine keeps_bind (keeps_lift _) fun b => ?_
  cases b with
  | true => exact keeps_bind (keeps_report (by decide)) fun _ => keeps_pure _
  | false => exact keeps_bind (keeps_lift _) fun _ => keeps_bind (keeps_report (by decide)) fun _ => keeps_pure _

end Settlement

end DefiActions
