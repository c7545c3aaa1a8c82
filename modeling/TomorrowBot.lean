import TomorrowBot.PortfolioReset
import TomorrowBot.PortfolioPeak
import TomorrowBot.MarginReservation
import TomorrowBot.RecoveredFills
import TomorrowBot.OrderWatchdog
import TomorrowBot.OrderReconciliation
import TomorrowBot.BreakerRecovery
import TomorrowBot.HedgeBudget
import TomorrowBot.LegBookkeeping
import TomorrowBot.VerifiedBrackets
import TomorrowBot.BracketCalls
import TomorrowBot.BracketTeardown
import TomorrowBot.BracketReentry
import TomorrowBot.BookFeed
import TomorrowBot.KillSwitch
import TomorrowBot.LossCooldown
import TomorrowBot.RiskVerdicts
import TomorrowBot.ShutdownRequests
import TomorrowBot.StrategyPositions
import TomorrowBot.StrategyEntries
import TomorrowBot.LeverageMonotone
import TomorrowBot.SeenTrades
import TomorrowBot.CancelReplies
import TomorrowBot.Hysteresis
import TomorrowBot.MirroredStops
import TomorrowBot.LeftoverOrders
import TomorrowBot.ReturnedEntries
import TomorrowBot.SnapshotRaces
import TomorrowBot.BasketSelection
import TomorrowBot.GarbageInputs
import TomorrowBot.StaleStreams
import TomorrowBot.BookedPnl
import TomorrowBot.LegIsolation
import TomorrowBot.MarginDownsizing
import TomorrowBot.ExchangeIdIndex
import TomorrowBot.CumulativeUpdates
import TomorrowBot.RemainderPolicy
import TomorrowBot.TwapPlans
import TomorrowBot.TwapRuns
import TomorrowBot.WalReadback
import TomorrowBot.MismatchAccounts
import TomorrowBot.BookEventLog
import TomorrowBot.SnapshotRefusals
import TomorrowBot.FullRecovery
import TomorrowBot.CandlePeriods
import TomorrowBot.PairMirror
import TomorrowBot.GuardEscalation
import TomorrowBot.IdempotencyManager
import TomorrowBot.EnlargedSizes
import TomorrowBot.ExitChain
import TomorrowBot.VpinRuns
import TomorrowBot.CusumDetector
import TomorrowBot.RateWaits
import TomorrowBot.StagnantPositions
import TomorrowBot.LinkedAssets
import TomorrowBot.LeverageMirror
import TomorrowBot.BayesianAdapter
import TomorrowBot.MakerPrices
import TomorrowBot.WellFormedSetups
import TomorrowBot.MirroredSetups
import TomorrowBot.CommitteeDecision
import TomorrowBot.ScaledIndicators
import TomorrowBot.LogRotation
import TomorrowBot.WorkerPoolRuns
import TomorrowBot.SupervisorStops
import TomorrowBot.RingRuns
import TomorrowBot.CascadeObservers
import TomorrowBot.OpportunityCost
import TomorrowBot.ThompsonSampler
import TomorrowBot.RedactionTraces
