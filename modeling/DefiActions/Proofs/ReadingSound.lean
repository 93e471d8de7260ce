import DefiActions.PriceFeed
import DefiActions.Proofs.AmountSound
import DefiActions.Proofs.AnswerSound
import DefiActions.Proofs.RunLemmas

/-!
# Readings of a feed

A reading is made of the answers to the calls for the decimals and for the latest
round, and of the description. The description comes between the two, so another
description may only change a later answer by what the reader makes of it.
-/

namespace DefiActions.PriceFeed

open Config (Feed)
open Abi (NumbersAt)
open ContractCall (Round)
open Run (exec exec_bind)

variable {chain : String} {feed : Feed} {now : Int} {window : Option Int}

/-! ## What a feed is asked -/

def asking (address : String) (call : Bytes) (t : Trace) : Trace := { t with reads := t.reads ++ [⟨address, call⟩] }

def decimalsAnswer (reader : Reader) (address : String) (t : Trace) : Except Failure Bytes :=
  reader t address ContractCall.decimals

def descriptionAnswer (reader : Reader) (address : String) (t : Trace) : Except Failure Bytes :=
  reader (asking address ContractCall.decimals t) address ContractCall.description

def descriptionOf (answer : Except Failure Bytes) : Option String :=
  (answer >>= ContractCall.decodeDescription).toOption

def afterDescription (address : String) (answer : Except Failure Bytes) (t : Trace) : Trace :=
  let asked := asking address ContractCall.description t
  match descriptionOf answer with
  | some _ => asked
  | none => { asked with events := asked.events ++ [⟨.debug, "feed_description_unavailable"⟩] }

def roundAnswer (reader : Reader) (address : String) (t : Trace) : Except Failure Bytes :=
  reader (afterDescription address (descriptionAnswer reader address t)
    (asking address ContractCall.decimals t)) address
    ContractCall.latestRoundData

theorem exec_readContract (reader : Reader) (address : String) (call : Bytes) (t : Trace) :
    exec (Run.readContract reader address call) t = (reader t address call, asking address call t) :=
  Run.exec_answer _ _ _

theorem exec_readDescription (reader : Reader) (address : String) (t : Trace) :
    exec (readDescription reader address) t = (.ok (descriptionOf (reader t address ContractCall.description)),
      afterDescription address (reader t address ContractCall.description) t) := by
  unfold readDescription descriptionOf afterDescription descriptionOf
  rw [Run.exec_tryCatch, exec_bind, exec_readContract]
  cases reader t address ContractCall.description with
  | error f => rfl
  | ok data =>
    simp only [ok_bind]
    rw [exec_bind, Run.exec_lift]
    cases ContractCall.decodeDescription data with
    | error f => rfl
    | ok description => rfl

/-! ## What a reading is made of -/

def readingOf (chain : String) (feed : Feed) (now : Int) (window : Option Int)
    (decimals round : Except Failure Bytes) (description : Option String) : Except Failure Reading := do
  let decimals ← ContractCall.decodeDecimals (← decimals)
  let round ← ContractCall.decodeRound (← round)
  checkAge round.updatedAt now window feed.name feed.address
  let formatted ← Amount.formatSigned round.answer decimals
  return {
    chain, aggregator := feed.address, description, decimals
    roundId := Text.numeral round.roundId
    answeredInRound := Text.numeral round.answeredInRound
    startedAt := round.startedAt
    updatedAt := round.updatedAt
    answer := Text.numeral round.answer
    formatted }

theorem exec_read (reader : Reader) (chain : String) (feed : Feed) (now : Int) (window : Option Int) (t : Trace) :
    (exec (read reader chain feed now window) t).1 =
      readingOf chain feed now window (decimalsAnswer reader feed.address t) (roundAnswer reader feed.address t)
        (descriptionOf (descriptionAnswer reader feed.address t)) := by
  simp only [read, readingOf, decimalsAnswer, roundAnswer, descriptionAnswer, Run.fst_exec_bind, exec_readContract,
    exec_readDescription, Run.exec_lift, Run.exec_report, Run.exec_pure, ok_bind]
  rfl

/-- The description goes into its field and nowhere else. -/
theorem readingOf_description (chain : String) (feed : Feed) (now : Int) (window : Option Int)
    (decimals round : Except Failure Bytes) (description other : Option String) :
    readingOf chain feed now window decimals round description =
      (readingOf chain feed now window decimals round other).map fun r => { r with description } := by
  unfold readingOf
  simp only [map_bind]
  rfl

/-! ## When there is a reading -/

def Recent (updatedAt now : Int) (window : Option Int) : Prop :=
  ∀ maxAge, window = some maxAge → updatedAt ≠ 0 ∧ now - updatedAt ≤ maxAge

theorem checkAge_eq_ok {updatedAt : Int} {name address : String} :
    checkAge updatedAt now window name address = .ok () ↔ Recent updatedAt now window := by
  unfold checkAge Recent
  cases window with
  | none => exact ⟨fun _ _ h => (nomatch h), fun _ => rfl⟩
  | some maxAge =>
    dsimp only
    split
    · rename_i hold
      refine ⟨fun h => absurd h fail_ne_ok, fun h => ?_⟩
      obtain ⟨hzero, hage⟩ := h maxAge rfl
      omega
    · rename_i hrecent
      refine ⟨fun _ age hage => ?_, fun _ => rfl⟩
      cases hage
      omega

structure Answers (decimals round : Except Failure Bytes) (places : Nat) (r : Round) : Prop where
  decimals : ∃ data, decimals = .ok data ∧ NumbersAt data 0 [.uint 8] [(places : Int)]
  round : ∃ data, round = .ok data ∧ NumbersAt data 0 [.uint 80, .int 256, .uint 256, .uint 256, .uint 80]
    [r.roundId, r.answer, r.startedAt, r.updatedAt, r.answeredInRound]

structure States (reading : Reading) (chain : String) (feed : Feed) (places : Nat) (r : Round) : Prop where
  chain : reading.chain = chain
  aggregator : reading.aggregator = feed.address
  decimals : reading.decimals = places
  roundId : reading.roundId = Text.numeral r.roundId
  answeredInRound : reading.answeredInRound = Text.numeral r.answeredInRound
  startedAt : reading.startedAt = r.startedAt
  updatedAt : reading.updatedAt = r.updatedAt
  answer : reading.answer = Text.numeral r.answer
  formatted : Amount.Denotes reading.formatted (r.answer / 10 ^ places) places

section

variable {decimals round : Except Failure Bytes} {places : Nat} {r : Round} {description : Option String}

/-- Every answer of a round has a text with every number of decimals that fits an octet. -/
theorem Answers.formatted (h : Answers decimals round places r) : ∃ text,
    Amount.formatSigned r.answer places = .ok text ∧ Amount.Denotes text (r.answer / 10 ^ places) places := by
  obtain ⟨data, -, _ | ⟨hplaces, -⟩⟩ := h.decimals
  obtain ⟨data', -, _ | ⟨-, _ | ⟨hanswer, -⟩⟩⟩ := h.round
  have hlt := hplaces.uint_bounds.2
  have hbounds := hanswer.int_bounds
  have hbound : twoPow (256 - 1) ≤ twoPow 256 := Abi.twoPow_mono (by decide)
  have hwidth : ((twoPow 8 : Nat) : Int) < Amount.widthBound := by decide
  refine Amount.formatSigned_denotes (Text.isWritable_of_natAbs_le ?_) (Int.lt_trans hlt hwidth)
  omega

theorem exists_readingOf (h : Answers decimals round places r) (hr : Recent r.updatedAt now window) :
    ∃ reading, readingOf chain feed now window decimals round description = .ok reading := by
  obtain ⟨text, htext, -⟩ := h.formatted
  obtain ⟨data, rfl, hplaces⟩ := h.decimals
  obtain ⟨data', rfl, hround⟩ := h.round
  have hplaces := ContractCall.decodeDecimals_eq_ok.mpr hplaces
  have hround := ContractCall.decodeRound_eq_ok.mpr hround
  unfold readingOf
  simp only [ok_bind, hplaces, hround, checkAge_eq_ok.mpr hr, htext]
  exact ⟨_, rfl⟩

theorem states_of_readingOf {reading : Reading}
    (h : readingOf chain feed now window decimals round description = .ok reading) :
    (∃ places r, Answers decimals round places r ∧ Recent r.updatedAt now window ∧
      States reading chain feed places r) ∧ reading.description = description := by
  unfold readingOf at h
  obtain ⟨data, hdata, h⟩ := bind_eq_ok.mp h
  obtain ⟨n, hn, h⟩ := bind_eq_ok.mp h
  obtain ⟨data', hdata', h⟩ := bind_eq_ok.mp h
  obtain ⟨r, hr, h⟩ := bind_eq_ok.mp h
  obtain ⟨_, hage, h⟩ := bind_eq_ok.mp h
  obtain ⟨text, htext, h⟩ := bind_eq_ok.mp h
  obtain rfl := pure_eq_ok.mp h
  have hn := ContractCall.decodeDecimals_eq_ok.mp hn
  have hr := ContractCall.decodeRound_eq_ok.mp hr
  have hage := checkAge_eq_ok.mp hage
  have hnonneg : 0 ≤ n := by
    obtain _ | ⟨hn, -⟩ := hn
    exact hn.uint_bounds.1
  obtain ⟨places, rfl⟩ := Int.eq_ofNat_of_zero_le hnonneg
  have hanswers : Answers decimals round places r := ⟨⟨data, hdata, hn⟩, ⟨data', hdata', hr⟩⟩
  obtain ⟨text', htext', hdenotes⟩ := hanswers.formatted
  obtain rfl := Except.ok.inj (htext.symm.trans htext')
  exact ⟨⟨places, r, hanswers, hage, rfl, rfl, rfl, rfl, rfl, rfl, rfl, rfl, hdenotes⟩, rfl⟩

end

/-- **A reading is what the two answers decode to**, and there is one whenever they decode and are recent. The
description is what is had for it, and no other field depends on it. -/
theorem read_sound (reader : Reader) (chain : String) (feed : Feed) (now : Int) (window : Option Int) (t : Trace) :
    ((∃ reading, (exec (read reader chain feed now window) t).1 = .ok reading) ↔
      ∃ places r, Answers (decimalsAnswer reader feed.address t) (roundAnswer reader feed.address t) places r ∧
        Recent r.updatedAt now window) ∧
    (∀ reading, (exec (read reader chain feed now window) t).1 = .ok reading →
      (∃ places r, Answers (decimalsAnswer reader feed.address t) (roundAnswer reader feed.address t) places r ∧
        Recent r.updatedAt now window ∧ States reading chain feed places r) ∧
      reading.description = descriptionOf (descriptionAnswer reader feed.address t)) ∧
    (∀ reader' t', decimalsAnswer reader' feed.address t' = decimalsAnswer reader feed.address t →
      roundAnswer reader' feed.address t' = roundAnswer reader feed.address t →
      (exec (read reader' chain feed now window) t').1 =
        (exec (read reader chain feed now window) t).1.map fun reading =>
        { reading with description := descriptionOf (descriptionAnswer reader' feed.address t') }) := by
  rw [exec_read]
  refine ⟨⟨?_, ?_⟩, fun _ => states_of_readingOf, ?_⟩
  · rintro ⟨reading, h⟩
    obtain ⟨⟨places, r, hanswers, hrecent, -⟩, -⟩ := states_of_readingOf h
    exact ⟨places, r, hanswers, hrecent⟩
  · rintro ⟨places, r, hanswers, hrecent⟩
    exact exists_readingOf hanswers hrecent
  · intro reader' t' hdecimals hround
    rw [exec_read, hdecimals, hround]
    exact readingOf_description _ _ _ _ _ _ _ _

/-- A round that is read as the number of decimals as well, since only its first word is looked at for that. -/
def someRound : Bytes := Bytes.word 2 ++ Bytes.ofInt 32 (-5) ++ Bytes.word 60 ++ Bytes.word 70 ++ Bytes.word 2

def someFeed : Feed := ⟨"ETH/USD", "0x639fe6ab55c921f74e7fac1ee960c0b6293ba612"⟩

def plainReader : Reader := fun _ _ _ => .ok someRound

def describingReader : Reader := fun t _ _ =>
  if t.reads.length = 1 then Abi.encode [.text] [.text "ETH / USD"] else .ok someRound

theorem answers_someRound : Answers (.ok someRound) (.ok someRound) 2 ⟨2, -5, 60, 70, 2⟩ :=
  ⟨⟨someRound, rfl, ContractCall.decodeDecimals_eq_ok.mp (eq_ok_of_isOk (by decide))⟩,
    ⟨someRound, rfl, ContractCall.decodeRound_eq_ok.mp (eq_ok_of_isOk (by decide))⟩⟩

theorem reads_afterDescription (address : String) (answer : Except Failure Bytes) (t : Trace) :
    (afterDescription address answer t).reads = t.reads ++ [⟨address, ContractCall.description⟩] := by
  unfold afterDescription
  dsimp only
  split
  · rfl
  · rfl

theorem roundAnswer_describingReader (address : String) :
    roundAnswer describingReader address {} = .ok someRound := by
  unfold roundAnswer
  rw [describingReader, reads_afterDescription]
  exact if_neg (Nat.succ_ne_self 1)

/-- Thirty seconds after the round there is a reading, and a description that is had changes nothing else. -/
theorem some_read_sound :
    (∃ reading, (exec (read plainReader "ETHEREUM" someFeed 100 (some 30)) {}).1 = .ok reading) ∧
    (exec (read describingReader "ETHEREUM" someFeed 100 (some 30)) {}).1 =
      (exec (read plainReader "ETHEREUM" someFeed 100 (some 30)) {}).1.map fun reading =>
        { reading with description := descriptionOf (Abi.encode [.text] [.text "ETH / USD"]) } := by
  obtain ⟨hreading, -, hdescription⟩ := read_sound plainReader "ETHEREUM" someFeed 100 (some 30) {}
  have hrecent : Recent 70 100 (some 30) := by
    intro maxAge h
    cases h
    decide
  exact ⟨hreading.mpr ⟨2, _, answers_someRound, hrecent⟩,
    hdescription describingReader {} rfl (roundAnswer_describingReader someFeed.address)⟩

example : ((exec (read plainReader "ETHEREUM" someFeed 100 (some 30)) {}).1.map (·.formatted)).toOption =
    some "-0.05" := by decide +kernel

example : (exec (read plainReader "ETHEREUM" someFeed 101 (some 30)) {}).1.toBool = false := by decide

end DefiActions.PriceFeed
