import DefiActions.Proofs.HexLemmas
import DefiActions.Proofs.Utf8Sound
import DefiActions.Workflow.Route
import Mathlib.Data.List.TakeWhile

/-!
# Queries are read back

An encoded text has no mark that parts a query, and its octets are those of the
text. A query is therefore read back pair by pair, whatever the texts are, and
the query of a quote tells the configured values.
-/

namespace DefiActions

/-! ## Octets of an encoded text -/

namespace Percent

def isEncoded (c : Char) : Bool := isUnreserved c || c = '+' || c = '%'

theorem isEncoded_upperDigit : ∀ n < 16, isEncoded (upperDigit n) = true := by decide

theorem digitValue?_upperDigit : ∀ n < 16, Hex.digitValue? (upperDigit n) = some n := by decide

/-- A plus of a query stands for a space. -/
def plain (c : Char) : Char := if c = '+' then ' ' else c

theorem plain_upperDigit : ∀ n < 16, plain (upperDigit n) = upperDigit n := by decide

theorem isEncoded_of_mem_encodeOctet {b : UInt8} {c : Char} (h : c ∈ encodeOctet b) : isEncoded c = true := by
  obtain ⟨hi, lo⟩ := Hex.octet_halves b
  unfold encodeOctet at h
  dsimp only at h
  split at h
  · rename_i hkept
    obtain rfl := List.mem_singleton.mp h
    simp [isEncoded, hkept.2]
  split at h
  · obtain rfl := List.mem_singleton.mp h
    decide
  · simp only [List.mem_cons, List.not_mem_nil, or_false] at h
    rcases h with rfl | rfl | rfl
    · decide
    · exact isEncoded_upperDigit _ hi
    · exact isEncoded_upperDigit _ lo

theorem isEncoded_of_mem_encode {cs : List Char} {c : Char} (h : c ∈ encode cs) : isEncoded c = true := by
  obtain ⟨b, -, hc⟩ := List.mem_flatMap.mp h
  exact isEncoded_of_mem_encodeOctet hc

theorem octets_cons {c : Char} (h : c ≠ '%') (rest : List Char) :
    octets (c :: rest) = Utf8.encodeChar c ++ octets rest := by
  rw [octets.eq_def]
  split
  · rename_i heq
    exact absurd (List.cons.inj heq).1 h
  · rename_i heq
    obtain ⟨rfl, rfl⟩ := List.cons.inj heq
    rfl
  · rename_i heq
    cases heq

theorem octets_triplet {hi lo : Nat} (hhi : hi < 16) (hlo : lo < 16) (rest : List Char) :
    octets ('%' :: upperDigit hi :: upperDigit lo :: rest) = UInt8.ofNat (16 * hi + lo) :: octets rest := by
  rw [octets.eq_def]
  simp [digitValue?_upperDigit hi hhi, digitValue?_upperDigit lo hlo]

/-- What is kept is ASCII, and neither of the marks that stand for something else. -/
theorem unreserved_ascii : ∀ n < 128, isUnreserved (Char.ofNat n) = true →
    Char.ofNat n ≠ '%' ∧ plain (Char.ofNat n) = Char.ofNat n ∧
      Utf8.encodeChar (Char.ofNat n) = [UInt8.ofNat n] := by
  decide +kernel

theorem space_ascii : ∀ n < 256, Char.ofNat n = ' ' → n = 32 := by decide +kernel

/-- An octet is read back from what is written for it. -/
theorem octets_encodeOctet (b : UInt8) (rest : List Char) :
    octets ((encodeOctet b).map plain ++ rest) = b :: octets rest := by
  obtain ⟨hi, lo⟩ := Hex.octet_halves b
  unfold encodeOctet
  dsimp only
  split
  · rename_i hkept
    obtain ⟨hmark, hplain, hchar⟩ := unreserved_ascii b.toNat hkept.1 hkept.2
    rw [List.map_singleton, hplain, List.singleton_append, octets_cons hmark, hchar, UInt8.ofNat_toNat]
    rfl
  split
  · rename_i hspace
    have hb : b = 32 := UInt8.toNat_inj.mp (space_ascii b.toNat b.toNat_lt hspace)
    rw [hb]
    exact octets_cons (by decide) rest
  · have hmark : plain '%' = '%' := rfl
    simp only [List.map_cons, List.map_nil, hmark, plain_upperDigit _ hi, plain_upperDigit _ lo, List.cons_append,
      List.nil_append]
    rw [octets_triplet hi lo, Hex.ofNat_halves]

theorem octets_encode (bs : Bytes) : octets ((bs.flatMap encodeOctet).map plain) = bs := by
  induction bs with
  | nil => rfl
  | cons b bs ih => rw [List.flatMap_cons, List.map_append, octets_encodeOctet, ih]

/-! ## Pairs of a query -/

def part? (cs : List Char) : Option String := Utf8.text? (octets (cs.map plain))

def pair? (cs : List Char) : Option (String × String) :=
  match cs.splitOn '=' with
  | [name, value] => do return (← part? name, ← part? value)
  | _ => none

def pairs? (cs : List Char) : Option (List (String × String)) := (cs.splitOn '&').mapM pair?

theorem part?_encode (s : String) : part? (encode s.toList) = some s := by
  rw [part?, encode, octets_encode]
  exact Utf8.text?_ofText s

theorem not_mem_encode {c : Char} (h : isEncoded c = false) (cs : List Char) : c ∉ encode cs := by
  intro hc
  rw [isEncoded_of_mem_encode hc] at h
  cases h

def pairChars (p : String × String) : List Char := encode p.1.toList ++ '=' :: encode p.2.toList

theorem splitOn_pairChars (p : String × String) :
    (pairChars p).splitOn '=' = [encode p.1.toList, encode p.2.toList] := by
  have hparts : ∀ part ∈ [encode p.1.toList, encode p.2.toList], '=' ∉ part := by
    simp [not_mem_encode (c := '=') (by decide)]
  have hsplit := List.splitOn_intercalate '=' hparts (by simp)
  simpa [pairChars, List.intercalate] using hsplit

theorem pair?_pairChars (p : String × String) : pair? (pairChars p) = some p := by
  rw [pair?, splitOn_pairChars]
  simp [part?_encode]

theorem mem_pairChars {p : String × String} {c : Char} (h : c ∈ pairChars p) : isEncoded c = true ∨ c = '=' := by
  rw [pairChars, List.mem_append, List.mem_cons] at h
  rcases h with h | h | h
  · exact Or.inl (isEncoded_of_mem_encode h)
  · exact Or.inr h
  · exact Or.inl (isEncoded_of_mem_encode h)

theorem toList_query (ps : List (String × String)) : (query ps).toList = ['&'].intercalate (ps.map pairChars) := by
  rw [query, String.toList_intercalate, List.map_map]
  simp only [Function.comp_def, String.toList_ofList]
  rfl

theorem mapM_pair? (ps : List (String × String)) : (ps.map pairChars).mapM pair? = some ps := by
  induction ps with
  | nil => rfl
  | cons p ps ih => simp [pair?_pairChars, ih]

/-- **A query is read back as its pairs**, with every name and value as it was. -/
theorem pairs?_query {ps : List (String × String)} (h : ps ≠ []) : pairs? (query ps).toList = some ps := by
  have hparts : ∀ part ∈ ps.map pairChars, '&' ∉ part := by
    intro part hpart hmark
    obtain ⟨p, -, rfl⟩ := List.mem_map.mp hpart
    have hc := mem_pairChars hmark
    revert hc
    decide
  rw [pairs?, toList_query, List.splitOn_intercalate '&' hparts (by simpa using h), mapM_pair?]

theorem not_mem_intercalate {c : Char} {sep : List Char} (hsep : c ∉ sep) {parts : List (List Char)}
    (h : ∀ part ∈ parts, c ∉ part) : c ∉ sep.intercalate parts := by
  induction parts with
  | nil => exact List.not_mem_nil
  | cons part parts ih =>
    rw [List.forall_mem_cons] at h
    cases parts with
    | nil => simpa [List.intercalate] using h.1
    | cons next parts =>
      rw [List.intercalate_cons_cons, List.mem_append, List.mem_append]
      exact not_or.mpr ⟨not_or.mpr ⟨h.1, hsep⟩, ih h.2⟩

/-- No text can end a query. -/
theorem not_mem_query (ps : List (String × String)) : '#' ∉ (query ps).toList := by
  rw [toList_query]
  refine not_mem_intercalate (by decide) fun part hpart hmark => ?_
  obtain ⟨p, -, rfl⟩ := List.mem_map.mp hpart
  have hc := mem_pairChars hmark
  revert hc
  decide

def queryOf (url : String) : List Char := ((url.toList.dropWhile (· ≠ '?')).drop 1).takeWhile (· ≠ '#')

theorem queryOf_append {base : String} (h : '?' ∉ base.toList) {q : String} (hq : '#' ∉ q.toList) :
    queryOf (base ++ "?" ++ q) = q.toList := by
  have hbase : ∀ c ∈ base.toList, decide (c ≠ '?') = true := by
    intro c hc
    rw [decide_eq_true_eq]
    rintro rfl
    exact h hc
  have htoList : (base ++ "?" ++ q).toList = base.toList ++ '?' :: q.toList := by simp
  rw [queryOf, htoList, List.dropWhile_append_of_pos hbase, List.dropWhile_cons_of_neg (by decide), List.drop_one,
    List.tail_cons, List.takeWhile_eq_self_iff]
  intro c hc
  rw [decide_eq_true_eq]
  rintro rfl
  exact hq hc

end Percent

/-! ## The query of a quote -/

namespace Workflow.Route

open Config (RouteConfig)

def pairsWith (config : RouteConfig) (percent : Binary64) : List (String × String) :=
  [("fromChain", Text.numeral (Network.routeChain config.chain)),
    ("toChain", Text.numeral (Network.routeChain config.chain)),
    ("fromToken", config.input.source.address),
    ("toToken", config.input.destination.address),
    ("fromAmount", config.input.amount),
    ("fromAddress", config.input.wallet),
    ("slippage", (percent.divNat 100).text),
    ("integrator", "flowforge-cre-template")]

def configuredPercent (config : RouteConfig) : Binary64 := config.input.slippage.getD (.ofRatio false 1 2)

/-- The slippage that is asked for: a zero counts as none. -/
def askedPercent (config : RouteConfig) : Binary64 :=
  if (configuredPercent config).isZero then .ofRatio false 1 2 else configuredPercent config

theorem quotePairs_eq (config : RouteConfig) : quotePairs config = pairsWith config (askedPercent config) := by
  have hslippage : slippage config = (askedPercent config).divNat 100 := by
    unfold slippage askedPercent configuredPercent
    cases config.input.slippage with
    | none => rfl
    | some x => cases hx : x.isZero <;> simp [Option.filter, hx, defaultSlippage]
  rw [quotePairs, hslippage]
  rfl

theorem pairs?_quoteRequest (config : RouteConfig) :
    Percent.pairs? (Percent.queryOf (quoteRequest config).url) = some (quotePairs config) := by
  have hurl : (quoteRequest config).url = quoteUrl ++ "?" ++ Percent.query (quotePairs config) := rfl
  rw [hurl, Percent.queryOf_append (by decide) (Percent.not_mem_query _)]
  exact Percent.pairs?_query (by simp [quotePairs])

/-- No hundredth of a zero is written as the one of the default is. -/
theorem text_of_isZero {x : Binary64} (h : x.isZero = true) :
    (x.divNat 100).text ≠ ((Binary64.ofRatio false 1 2).divNat 100).text := by
  have hdefault : ((Binary64.ofRatio false 1 2).divNat 100).text = "0.005" := by decide +kernel
  rw [hdefault]
  cases x with
  | finite negative m e =>
    obtain rfl : m = 0 := by simpa [Binary64.isZero] using h
    have hzero : (Binary64.finite negative 0 e).divNat 100 = .finite negative 0 Binary64.leastExponent := by
      simp [Binary64.divNat, Binary64.ofRatio]
    rw [hzero]
    cases negative <;> decide
  | nan => cases h
  | infinite negative => cases h

/-- **The query of a quote tells the eight values of its configuration**, whatever characters are in them. Only a
slippage of zero is not the configured one, since it counts as none. -/
theorem quote_query_read_back (config : RouteConfig) :
    Percent.pairs? (Percent.queryOf (quoteRequest config).url) = some (pairsWith config (askedPercent config)) ∧
      (Percent.pairs? (Percent.queryOf (quoteRequest config).url) =
        some (pairsWith config (configuredPercent config)) ↔
        (configuredPercent config).isZero = false) := by
  rw [pairs?_quoteRequest, quotePairs_eq]
  refine ⟨rfl, ?_⟩
  unfold askedPercent
  cases h : (configuredPercent config).isZero with
  | false => simp
  | true =>
    have hne := text_of_isZero h
    simpa [pairsWith] using fun heq => hne heq.symm

def zeroSlippage : RouteConfig where
  chain := "ARBITRUM"
  receiver := "receiver"
  gasLimit := "500000"
  input := ⟨⟨"a&fromToken=b", none⟩, ⟨"c#d", none⟩, "1 %26", .exactInput, "é+𝄞", some .zero, none, none⟩

/-- No slippage is configured to be allowed, and half a percent is asked for. -/
theorem zero_slippage_raised :
    ∃ pairs, Percent.pairs? (Percent.queryOf (quoteRequest zeroSlippage).url) = some pairs ∧
    pairs ≠ pairsWith zeroSlippage (configuredPercent zeroSlippage) ∧ pairs.lookup "slippage" = some "0.005" ∧
    (pairsWith zeroSlippage (configuredPercent zeroSlippage)).lookup "slippage" = some "0.0" := by
  refine ⟨_, pairs?_quoteRequest zeroSlippage, ?_, ?_, ?_⟩
  · decide +kernel
  · decide +kernel
  · decide +kernel

end Workflow.Route

end DefiActions
