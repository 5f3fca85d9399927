import BigfleetDashboard.PromHandlers
import BigfleetDashboard.SamplePlacement
import BigfleetDashboard.TrendAlignment
import BigfleetDashboard.FinOps
import BigfleetDashboard.FiniteBodies
import BigfleetDashboard.ScriptValues
import BigfleetDashboard.AvailableCapacity
import BigfleetDashboard.ShardReports
import BigfleetDashboard.ConditionalSums
import BigfleetDashboard.FinOpsReconcile
import BigfleetDashboard.FinOpsAxes
import BigfleetDashboard.NeedsPage
import BigfleetDashboard.NeedsWalk
import BigfleetDashboard.WalkComplete
import BigfleetDashboard.WalkOrder
import BigfleetDashboard.NeedsDelivery
import BigfleetDashboard.BoundedFanOut
import BigfleetDashboard.Clusters
import BigfleetDashboard.BucketOrder
import BigfleetDashboard.WalkCutline
import BigfleetDashboard.NeedsLimit
import BigfleetDashboard.TopologyOrder
import BigfleetDashboard.AnchoredRegex
import BigfleetDashboard.ClusterCounts
import BigfleetDashboard.PodQueries
import BigfleetDashboard.Competitors
import BigfleetDashboard.ScriptNumbers
import BigfleetDashboard.Coverage
import BigfleetDashboard.ArrivalOrder
import BigfleetDashboard.ConsistentComparators
import BigfleetDashboard.DecimalNumerals
import BigfleetDashboard.NeedsFilters
import BigfleetDashboard.ShortfallOrder
import BigfleetDashboard.TimeAxis
import BigfleetDashboard.ShortfallKeys
import BigfleetDashboard.KubeQuantity
import BigfleetDashboard.FirstMaximum
import BigfleetDashboard.ChunkEstimate
import BigfleetDashboard.ChunkMeter
import BigfleetDashboard.NumberTexts
import BigfleetDashboard.DurationLabels
import BigfleetDashboard.MagnitudeLabels
import BigfleetDashboard.BacktrackingRegex
import BigfleetDashboard.TrimmedZeros
import BigfleetDashboard.BinaryRounding
import BigfleetDashboard.ScriptArithmetic
import BigfleetDashboard.PenaltyLabels
import BigfleetDashboard.BuildOnce
import BigfleetDashboard.ClientCache
import BigfleetDashboard.CapacityListing
import BigfleetDashboard.PathPatterns
import BigfleetDashboard.PercentEncoding
import BigfleetDashboard.Routes
import BigfleetDashboard.Dashboard
import BigfleetDashboard.Mounts
import BigfleetDashboard.ApiCalls
import BigfleetDashboard.Wiring
import BigfleetDashboard.FleetCounts
import BigfleetDashboard.Documents
import BigfleetDashboard.Wire
import BigfleetDashboard.Received
import BigfleetDashboard.FormParams
import BigfleetDashboard.SearchParamState
import BigfleetDashboard.NeedsSelection
import BigfleetDashboard.Channels
import BigfleetDashboard.Lifecycle
