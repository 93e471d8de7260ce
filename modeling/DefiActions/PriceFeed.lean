import DefiActions.Amount
import DefiActions.Collaborator
import DefiActions.Config.Records
import DefiActions.ContractCall
import DefiActions.Result

/-!
# Price feeds

A feed is read by three calls: its decimals, its description, which it need not
have, and its latest answer. With a window of staleness an answer must have been
given, and no longer ago than the window. Failures stay with their feed.
-/

namespace DefiActions.PriceFeed

open Config (Feed FeedsConfig)

/-- Accepts an answer of a time that lies within the window, if there is one. -/
def checkAge (updatedAt now : Int) (window : Option Int) (feed address : String) :
    Except Failure Unit :=
  match window with
  | none => .ok ()
  | some maxAge =>
    if updatedAt = 0 ∨ maxAge < now - updatedAt then
      fail (.staleReading feed address updatedAt now maxAge)
    else .ok ()

/-- The description of a feed, or none if it cannot be had. -/
def readDescription (reader : Reader) (address : String) : Run (Option String) :=
  tryCatch
    (do return some (← ContractCall.decodeDescription
      (← Run.readContract reader address ContractCall.description)))
    fun _ => do
      Run.report .debug "feed_description_unavailable"
      return none

def read (reader : Reader) (chain : String) (feed : Feed) (now : Int) (window : Option Int) :
    Run Reading := do
  let decimals ← ContractCall.decodeDecimals
    (← Run.readContract reader feed.address ContractCall.decimals)
  let description ← readDescription reader feed.address
  let round ← ContractCall.decodeRound
    (← Run.readContract reader feed.address ContractCall.latestRoundData)
  checkAge round.updatedAt now window feed.name feed.address
  let formatted ← Amount.formatSigned round.answer decimals
  Run.report .info "price_feed_read"
  return {
    chain, aggregator := feed.address, description, decimals
    roundId := Text.numeral round.roundId
    answeredInRound := Text.numeral round.answeredInRound
    startedAt := round.startedAt
    updatedAt := round.updatedAt
    answer := Text.numeral round.answer
    formatted }

/-- What a failed read of a feed leaves behind. An action error without a category is passed on. -/
def failureOf (feed : Feed) (f : Failure) : Run FeedFailure := do
  match f with
  | .action e =>
    Run.report .warning "price_feed_rejected"
    match e.kind? with
    | some kind => return ⟨feed.name, feed.address, e.message, some kind⟩
    | none => throw .missingMember
  | f =>
    Run.report .error "price_feed_read_failed"
    return ⟨feed.name, feed.address, "Failed to read feed: " ++ f.description,
      some .invalidCollaboratorResponse⟩

def attempt (reader : Reader) (config : FeedsConfig) (now : Int) (feed : Feed) :
    Run (Reading ⊕ FeedFailure) :=
  tryCatch
    (do return .inl (← read reader config.chain feed now config.staleAfter))
    fun f => do return .inr (← failureOf feed f)

/-- Feeds in order; a failed one does not keep the others from being read. -/
def readEach (reader : Reader) (config : FeedsConfig) (now : Int) : List Feed → Run FeedsResult
  | [] => return {}
  | feed :: feeds => do
    let entry ← attempt reader config now feed
    let rest ← readEach reader config now feeds
    match entry with
    | .inl reading => return { rest with readings := reading :: rest.readings }
    | .inr failure => return { rest with failures := failure :: rest.failures }

def noReader : ActionError :=
  .missingConfiguration "reader" (some "a contract reader is needed to read feeds")

def readAll (config : FeedsConfig) (c : Collaborators) : Run FeedsResult :=
  match c.reader with
  | none => return { failures := config.feeds.map fun f => ⟨f.name, f.address, noReader.message, noReader.kind?⟩ }
  | some reader => readEach reader config c.now config.feeds

end DefiActions.PriceFeed
