import Vizor.Sync.SweepCoverage
import Vizor.Keystone.SigningRounds
import Vizor.Store.StageGraph
import Vizor.Anchor.ProofReadiness
import Vizor.Proposal.ReservedNotes
import Vizor.Resubmit.Pass
import Vizor.Sync.TransparentRefresh
import Vizor.Sync.ScanBatches
import Vizor.Keystone.CompactSigs
import Vizor.Store.InitialRebase
import Vizor.Store.RebuildGeneration
import Vizor.Store.PreparationHeights
import Vizor.Store.PlannedSchedule
import Vizor.Anchor.Readiness
import Vizor.Anchor.Candidates
import Vizor.Planner.DenominationPlans
import Vizor.Planner.Refinement
import Vizor.Planner.SplitExact
import Vizor.Coordinator.LeasesBalance
import Vizor.AddressBook.NoLostUpdate
import Vizor.Coordinator.NoLostRefresh
import Vizor.Planner.Residual
import Vizor.Coordinator.RevocationBarrier
import Vizor.Keychain.MigrationRuns
import Vizor.Mempool.Observer
import Vizor.Keys.LeavesOthers
import Vizor.Voting.NeverForgets
import Vizor.Network.FailsClosed
import Vizor.Outbox.Attempts
import Vizor.Outbox.Submission
import Vizor.Outbox.Announcements
import Vizor.Planner.Status
import Vizor.Store.Crash
import Vizor.Store.WalletLocks
import Vizor.Store.Receipt
import Vizor.Anchor.Retention
import Vizor.Anchor.Survival
import Vizor.Store.ActiveRuns
import Vizor.Store.OnOpen
import Vizor.Store.Stages
import Vizor.Store.SharedOrigin
import Vizor.Store.StoredFirst
import Vizor.Store.StopSafe
import Vizor.Sync.CompletionPolicy
import Vizor.Sync.ReceiveCache
import Vizor.Sync.SummaryCache
import Vizor.Proposal.Recovery
import Vizor.Proposal.Safety
import Vizor.Address.Exact
import Vizor.Lib.Placement
import Vizor.Store.Dated
import Vizor.Store.PartStatus
import Vizor.Sync.OrphanedRanges
import Vizor.Outbox.Recordable
import Vizor.Lib.Representatives
import Vizor.Activity.GiftCards
import Vizor.Lib.InOrderMatching
import Vizor.History.Rows
import Vizor.History.Details
import Vizor.History.Assembly
import Vizor.Lib.Decimals
import Vizor.Swap.AmountText
import Vizor.Swap.ExactAmounts
import Vizor.Swap.TrimmedAmounts
import Vizor.Swap.Quotes
import Vizor.Swap.BoundQuotes
import Vizor.Lib.Hex
import Vizor.Sync.PaymentLink
import Vizor.Sync.SpendEvidence
import Vizor.Lib.Base64
import Vizor.Lib.Utf16
import Vizor.Zip321.PaymentRequest
import Vizor.Zip321.Builder
import Vizor.Zip321.RoundTrip
import Vizor.Swap.DepositEvidence
import Vizor.Swap.LastingEvidence
import Vizor.Store.FailedCreation
