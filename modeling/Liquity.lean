import Liquity.Subgraph
import Liquity.Events
import Liquity.Influence.Steps
import Liquity.Properties.Authority
import Liquity.Properties.Withdrawals
import Liquity.Lib.FixedPoint
import Liquity.Properties.BadEntries
import Liquity.Properties.OracleRounds
import Liquity.Properties.OracleArithmetic
import Liquity.Properties.InsertPositions
import Liquity.Properties.RedemptionRate
import Liquity.FeeBounds
import Liquity.Properties.Redemptions
import Liquity.Properties.RedemptionLots
import Liquity.Properties.PendingRewards
import Liquity.Properties.BaseRate
import Liquity.Properties.Issuance
import Liquity.Properties.LQTYGains
import Liquity.Properties.Staking
import Liquity.Properties.CollSurplus
import Liquity.Reserves.Steps
import Liquity.Reserves
import Liquity.Frame
import Liquity.DevFrontend.Adjusting
import Liquity.DevFrontend.Opening
import Liquity.DevFrontend.Predictions
import Liquity.Properties.TroveValidation
import Liquity.Requirements
import Liquity.DevFrontend.ValidateTroveChange
import Liquity.Properties.PolledStore
import Liquity.LibEthers.BlockPolledLiquityStore
import Liquity.LibBase.LiquityStore
import Liquity.Properties.SdkFees
import Liquity.LibEthers.EthersLiquity
import Liquity.Properties.SdkTrove
import Liquity.LibBase.Fees
import Liquity.LibBase.Trove
import Liquity.LibBase.Decimal
import Liquity.Properties.Unipool
import Liquity.Properties.PriceFeed
import Liquity.Properties.FrontEnds
import Liquity.Properties.Stakes
import Liquity.Properties.Sorting
import Liquity.Properties.RunningTotals
import Liquity.Properties.SystemRatio
import Liquity.Properties.Batches
import Liquity.Properties.RedemptionHints
import Liquity.Properties.SortedTrovePages
import Liquity.Properties.CallBatching
import Liquity.Properties.DecimalStrings
import Liquity.Properties.TroveChanges
import Liquity.Properties.InsertHints
import Liquity.Properties.Recycling
import Liquity.Properties.TroveCounters
import Liquity.Properties.SubgraphTotals
import Liquity.Properties.Permits
import Liquity.Properties.Lockups
import Liquity.Properties.OracleRoles
import Liquity.Properties.Epochs
import Liquity.Properties.Closing
