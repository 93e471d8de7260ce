import DefiActions.Abi
import DefiActions.Address
import DefiActions.Amount
import DefiActions.Bytes
import DefiActions.Collaborator
import DefiActions.CommandLine.Arguments
import DefiActions.CommandLine.Command
import DefiActions.CommandLine.Execution
import DefiActions.Config.Format
import DefiActions.Config.Models
import DefiActions.Config.Records
import DefiActions.Config.Shape
import DefiActions.Config.Validation
import DefiActions.ContractCall
import DefiActions.Decimal
import DefiActions.Error
import DefiActions.Files
import DefiActions.Hash
import DefiActions.Host
import DefiActions.Json.Printer
import DefiActions.Json.Reader
import DefiActions.Liquidity
import DefiActions.Main
import DefiActions.Network
import DefiActions.Pool.Key
import DefiActions.Pool.Mint
import DefiActions.Pool.PriceLimit
import DefiActions.PriceFeed
import DefiActions.Proofs.AbiLayout
import DefiActions.Proofs.AbiSound
import DefiActions.Proofs.AbiStrict
import DefiActions.Proofs.AbiWordSound
import DefiActions.Proofs.AddressSound
import DefiActions.Proofs.AmountSound
import DefiActions.Proofs.AnswerSound
import DefiActions.Proofs.BlameLemmas
import DefiActions.Proofs.BodySound
import DefiActions.Proofs.BytesLemmas
import DefiActions.Proofs.CaseLemmas
import DefiActions.Proofs.ConfinementSound
import DefiActions.Proofs.ContainmentSound
import DefiActions.Proofs.DepositSound
import DefiActions.Proofs.DocumentSound
import DefiActions.Proofs.EncodableSound
import DefiActions.Proofs.ExtensionSound
import DefiActions.Proofs.FeedsSound
import DefiActions.Proofs.GuardLemmas
import DefiActions.Proofs.HexLemmas
import DefiActions.Proofs.HoldingSound
import DefiActions.Proofs.IntegerLemmas
import DefiActions.Proofs.JsonLemmas
import DefiActions.Proofs.LayoutSound
import DefiActions.Proofs.LendingSound
import DefiActions.Proofs.LiquiditySound
import DefiActions.Proofs.LiteralSound
import DefiActions.Proofs.LoadingSound
import DefiActions.Proofs.MembersLemmas
import DefiActions.Proofs.MintSound
import DefiActions.Proofs.NotionsSound
import DefiActions.Proofs.NumeralLemmas
import DefiActions.Proofs.OrderSound
import DefiActions.Proofs.OverrideLemmas
import DefiActions.Proofs.OverrideSound
import DefiActions.Proofs.PairSound
import DefiActions.Proofs.PlanSound
import DefiActions.Proofs.PoolIdSound
import DefiActions.Proofs.PoolSound
import DefiActions.Proofs.PrecisionSound
import DefiActions.Proofs.PriceLimitSound
import DefiActions.Proofs.QuerySound
import DefiActions.Proofs.QuoteSound
import DefiActions.Proofs.ReadingSound
import DefiActions.Proofs.ReportLemmas
import DefiActions.Proofs.ReportSound
import DefiActions.Proofs.RequestSound
import DefiActions.Proofs.ResultSound
import DefiActions.Proofs.RoundingSound
import DefiActions.Proofs.RouteSound
import DefiActions.Proofs.RunLemmas
import DefiActions.Proofs.ScalingSound
import DefiActions.Proofs.SettlementSound
import DefiActions.Proofs.ShapeLemmas
import DefiActions.Proofs.ShortestSound
import DefiActions.Proofs.SigningSound
import DefiActions.Proofs.SizingSound
import DefiActions.Proofs.SpacingSound
import DefiActions.Proofs.SpellingSound
import DefiActions.Proofs.StagesSound
import DefiActions.Proofs.StandardSound
import DefiActions.Proofs.SubmissionSound
import DefiActions.Proofs.SwapSound
import DefiActions.Proofs.TickPriceSound
import DefiActions.Proofs.TickRatioSound
import DefiActions.Proofs.TickSound
import DefiActions.Proofs.TradeSound
import DefiActions.Proofs.Uint256Sound
import DefiActions.Proofs.UnlockSound
import DefiActions.Proofs.Utf8Sound
import DefiActions.Proofs.WellFormedSound
import DefiActions.Proofs.WithdrawalSound
import DefiActions.Report.Payload
import DefiActions.Report.Schema
import DefiActions.Result
import DefiActions.Service.Handling
import DefiActions.Service.Message
import DefiActions.Signing
import DefiActions.Text.Case
import DefiActions.Text.Character
import DefiActions.Text.Numeral
import DefiActions.Text.Quoted
import DefiActions.Tick
import DefiActions.Uint256
import DefiActions.Value
import DefiActions.Workflow.Catalog
import DefiActions.Workflow.Guard
import DefiActions.Workflow.Lending
import DefiActions.Workflow.Position
import DefiActions.Workflow.Route
import DefiActions.Workflow.Swap
import DefiActions.Workflow.Trade
