import DefiActions.Proofs.ContainmentSound

/-!
# Feeds are read apart

Where contracts answer a call in the same way whenever it is made, what a feed
adds to the result depends on the feed and on the answers of its own aggregator.
The result of several feeds is what they add, one after the other.
-/

namespace DefiActions

/-! ## Entries of a result -/

namespace FeedsResult

/-- The result with these entries: each is on the list of its sort, in order. -/
def ofEntries (es : List (Reading ⊕ FeedFailure)) : FeedsResult :=
  ⟨es.filterMap Sum.getLeft?, es.filterMap Sum.getRight?⟩

theorem ofEntries_append (es fs : List (Reading ⊕ FeedFailure)) :
    ofEntries (es ++ fs) =
      ⟨(ofEntries es).readings ++ (ofEntries fs).readings, (ofEntries es).failures ++ (ofEntries fs).failures⟩ := by
  unfold ofEntries
  rw [List.filterMap_append, List.filterMap_append]

theorem ofEntries_inl (r : Reading) (es : List (Reading ⊕ FeedFailure)) :
    ofEntries (.inl r :: es) = { ofEntries es with readings := r :: (ofEntries es).readings } := rfl

theorem ofEntries_inr (f : FeedFailure) (es : List (Reading ⊕ FeedFailure)) :
    ofEntries (.inr f :: es) = { ofEntries es with failures := f :: (ofEntries es).failures } := rfl

theorem ofEntries_failures (fs : List FeedFailure) : ofEntries (fs.map .inr) = { failures := fs } := by
  induction fs with
  | nil => rfl
  | cons f fs ih => rw [List.map_cons, ofEntries_inr, ih]

theorem success_ofEntries {es : List (Reading ⊕ FeedFailure)} :
    (ofEntries es).success = true ↔ ∀ e ∈ es, e.isLeft = true := by
  unfold ofEntries success
  rw [List.isEmpty_iff, List.filterMap_eq_nil_iff]
  constructor
  · intro h e he
    cases e with
    | inl reading => rfl
    | inr failure => cases h _ he
  · intro h e he
    cases e with
    | inl reading => rfl
    | inr failure => cases h _ he

end FeedsResult

namespace PriceFeed

open Config (Feed)
open Run (exec)

/-! ## Contracts that answer in the same way -/

abbrev Contracts := String → Bytes → Except Failure Bytes

def Contracts.reader (contracts : Contracts) : Reader := fun _ => contracts

def Contracts.Classified (contracts : Contracts) : Prop :=
  ∀ address call, DefiActions.Classified (contracts address call)

def readWith (contracts : Option Contracts) (chain : String) (window : Option Int) (now : Int) (feeds : List Feed) :
    Except Failure FeedsResult :=
  (Run.start (readAll ⟨chain, feeds, window⟩ { reader := contracts.map Contracts.reader, now })).1

/-! ## One feed -/

variable {contracts : Contracts} {chain : String} {window : Option Int} {now : Int} {feed : Feed}

def Contracts.reading (contracts : Contracts) (chain : String) (window : Option Int) (now : Int) (feed : Feed) :
    Except Failure Reading :=
  readingOf chain feed now window (contracts feed.address ContractCall.decimals)
    (contracts feed.address ContractCall.latestRoundData)
    (descriptionOf (contracts feed.address ContractCall.description))

theorem fst_exec_read (contracts : Contracts) (chain : String) (window : Option Int) (now : Int) (feed : Feed)
    (t : Trace) :
    (exec (read contracts.reader chain feed now window) t).1 = contracts.reading chain window now feed :=
  exec_read _ _ _ _ _ _

def entryOf (contracts : Option Contracts) (chain : String) (window : Option Int) (now : Int) (feed : Feed) :
    Reading ⊕ FeedFailure :=
  match contracts with
  | none => .inr (failureFor feed (.action noReader))
  | some contracts =>
    match contracts.reading chain window now feed with
    | .ok reading => .inl reading
    | .error f => .inr (failureFor feed f)

theorem classified_reading (h : contracts.Classified) : Classified (contracts.reading chain window now feed) := by
  unfold Contracts.reading readingOf
  refine failsAs_bind (h _ _) fun _ => failsAs_bind (ContractCall.classified_decodeDecimals _) fun _ => ?_
  refine failsAs_bind (h _ _) fun _ => failsAs_bind (ContractCall.classified_decodeRound _) fun _ => ?_
  exact failsAs_bind (classified_checkAge _ _ _ _ _) fun _ =>
    failsAs_bind (classified_formatSigned _ _) fun _ => failsAs_pure

theorem fst_exec_attempt (h : contracts.Classified) (feeds : List Feed) (feed : Feed) (t : Trace) :
    (exec (attempt contracts.reader ⟨chain, feeds, window⟩ now feed) t).1 =
      .ok (entryOf (some contracts) chain window now feed) := by
  have hread := fst_exec_read contracts chain window now feed t
  unfold attempt entryOf
  dsimp only
  rw [Run.exec_tryCatch, ← hread]
  cases hx : exec (read contracts.reader chain feed now window) t with
  | mk x t' =>
    rw [hx] at hread
    cases x with
    | ok reading =>
      rw [Run.exec_bind_of_ok hx]
      rfl
    | error f =>
      have hf := classified_reading h f hread.symm
      rw [Run.exec_bind_of_error hx]
      dsimp only
      rw [Run.fst_exec_bind, fst_exec_failureOf hf]
      rfl

theorem entryOf_eq_inl {reading : Reading} {t : Trace} :
    entryOf (some contracts) chain window now feed = .inl reading ↔
    (exec (read contracts.reader chain feed now window) t).1 = .ok reading := by
  rw [fst_exec_read]
  unfold entryOf
  dsimp only
  cases contracts.reading chain window now feed with
  | ok r => rw [Sum.inl.injEq, Except.ok.injEq]
  | error f => exact ⟨nofun, nofun⟩

/-! ## All feeds -/

theorem fst_exec_readEach (h : contracts.Classified) (all feeds : List Feed) (t : Trace) :
    (exec (readEach contracts.reader ⟨chain, all, window⟩ now feeds) t).1 =
      .ok (.ofEntries (feeds.map (entryOf (some contracts) chain window now))) := by
  induction feeds generalizing t with
  | nil => rfl
  | cons feed feeds ih =>
    rw [readEach, Run.fst_exec_bind, fst_exec_attempt h, ok_bind, Run.fst_exec_bind, ih, ok_bind, List.map_cons]
    cases entryOf (some contracts) chain window now feed with
    | inl reading =>
      rw [FeedsResult.ofEntries_inl]
      rfl
    | inr failure =>
      rw [FeedsResult.ofEntries_inr]
      rfl

theorem readWith_eq {contracts : Option Contracts} (h : ∀ c ∈ contracts, Contracts.Classified c)
    (feeds : List Feed) :
    readWith contracts chain window now feeds =
      .ok (.ofEntries (feeds.map (entryOf contracts chain window now))) := by
  unfold readWith
  rw [Run.start_eq]
  cases contracts with
  | none =>
    have hmap : feeds.map (entryOf none chain window now) =
        (feeds.map fun feed => failureFor feed (.action noReader)).map .inr := by
      rw [List.map_map]
      rfl
    rw [hmap, FeedsResult.ofEntries_failures]
    rfl
  | some contracts => exact fst_exec_readEach (h contracts rfl) feeds feeds {}

/-! ## Isolation -/

def OfFeed (chain : String) (feed : Feed) : Reading ⊕ FeedFailure → Prop
  | .inl reading => reading.chain = chain ∧ reading.aggregator = feed.address
  | .inr failure => failure.name = feed.name ∧ failure.address = feed.address

theorem ofFeed_entryOf (contracts : Option Contracts) (chain : String) (window : Option Int) (now : Int)
    (feed : Feed) :
    OfFeed chain feed (entryOf contracts chain window now feed) := by
  have hfailure : ∀ f, OfFeed chain feed (.inr (failureFor feed f)) := by
    intro f
    cases f <;> exact ⟨rfl, rfl⟩
  unfold entryOf
  split
  · exact hfailure _
  split
  · rename_i reading hreading
    obtain ⟨⟨places, r, -, -, hstates⟩, -⟩ := states_of_readingOf hreading
    exact ⟨hstates.chain, hstates.aggregator⟩
  · exact hfailure _

/-- Both answer every call to the address in the same way, or there are no contracts to read in either. -/
def AgreeAt (address : String) (contracts others : Option Contracts) : Prop :=
  contracts.map (· address) = others.map (· address)

theorem entryOf_of_agreeAt {contracts others : Option Contracts} (h : AgreeAt feed.address contracts others) :
    entryOf others chain window now feed = entryOf contracts chain window now feed := by
  unfold AgreeAt at h
  cases contracts with
  | none =>
    cases others with
    | none => rfl
    | some others => cases h
  | some contracts =>
    cases others with
    | none => cases h
    | some others =>
      have h : contracts feed.address = others feed.address := Option.some.inj h
      have hreading : others.reading chain window now feed = contracts.reading chain window now feed := by
        unfold Contracts.reading
        rw [h]
      unfold entryOf
      dsimp only
      rw [hreading]

/-- **Feeds are read apart.** Every feed has an entry of its own, on one of the two lists and in its turn, which
only the answers of its own aggregator bear on. -/
theorem feeds_read_apart (chain : String) (window : Option Int) (now : Int) :
    ∃ entry : Option Contracts → Feed → Reading ⊕ FeedFailure,
      (∀ contracts others feed, AgreeAt feed.address contracts others → entry others feed = entry contracts feed) ∧
      (∀ contracts feed, OfFeed chain feed (entry contracts feed)) ∧
      (∀ (contracts : Contracts) feed reading t, entry (some contracts) feed = .inl reading ↔
        (exec (read contracts.reader chain feed now window) t).1 = .ok reading) ∧
      ∀ contracts, (∀ c ∈ contracts, Contracts.Classified c) →
        (∀ feeds, readWith contracts chain window now feeds = .ok (.ofEntries (feeds.map (entry contracts)))) ∧
        (∀ xs ys, ∃ r s, readWith contracts chain window now xs = .ok r ∧
          readWith contracts chain window now ys = .ok s ∧
          readWith contracts chain window now (xs ++ ys) =
            .ok ⟨r.readings ++ s.readings, r.failures ++ s.failures⟩) ∧
        (∀ feeds r, readWith contracts chain window now feeds = .ok r →
          (r.success = true ↔ ∀ feed ∈ feeds, (entry contracts feed).isLeft = true)) := by
  refine ⟨fun contracts => entryOf contracts chain window now, fun _ _ _ => entryOf_of_agreeAt,
    fun contracts feed => ofFeed_entryOf contracts chain window now feed, fun _ _ _ _ => entryOf_eq_inl,
    fun contracts h => ⟨?_, ?_, ?_⟩⟩
  · exact readWith_eq h
  · intro xs ys
    refine ⟨_, _, readWith_eq h xs, readWith_eq h ys, ?_⟩
    rw [readWith_eq h, List.map_append, FeedsResult.ofEntries_append]
  · intro feeds r hr
    rw [readWith_eq h] at hr
    obtain rfl := Except.ok.inj hr
    rw [FeedsResult.success_ofEntries, List.forall_mem_map]

def someContracts : Contracts := fun address _ =>
  if address = someFeed.address then .ok someRound else .error (.foreign .runtime "execution reverted")

def revertingFeed : Feed := ⟨"BTC/USD", "0x6ce185860a4963106506c203335a2910413708e9"⟩

theorem some_feeds_read_apart : someContracts.Classified ∧
    ∃ r s, readWith (some someContracts) "ETHEREUM" none 100 [revertingFeed] = .ok r ∧
      readWith (some someContracts) "ETHEREUM" none 100 [someFeed] = .ok s ∧
      readWith (some someContracts) "ETHEREUM" none 100 [revertingFeed, someFeed] =
        .ok ⟨r.readings ++ s.readings, r.failures ++ s.failures⟩ := by
  have hc : someContracts.Classified := by
    intro address call f h
    unfold someContracts at h
    split at h
    · cases h
    · cases h
      trivial
  obtain ⟨entry, -, -, -, h⟩ := feeds_read_apart "ETHEREUM" none 100
  obtain ⟨-, happend, -⟩ := h (some someContracts) fun c hm => by
    cases hm
    exact hc
  exact ⟨hc, happend [revertingFeed] [someFeed]⟩

end PriceFeed

end DefiActions
