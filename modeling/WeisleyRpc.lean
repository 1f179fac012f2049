import WeisleyRpc.Machine
import WeisleyRpc.OrderedMap
import WeisleyRpc.Histories
import WeisleyRpc.ListChoices
import WeisleyRpc.Framing
import WeisleyRpc.FramingErrors
import WeisleyRpc.Packet
import WeisleyRpc.ProtobufRoundTrip
import WeisleyRpc.SerializerAgreement
import WeisleyRpc.DecodedMessages
import WeisleyRpc.Serializers
import WeisleyRpc.Codec
import WeisleyRpc.CodecFailures
import WeisleyRpc.CodecLimits
import WeisleyRpc.CodecPeers
import WeisleyRpc.CodecStream
import WeisleyRpc.Connection
import WeisleyRpc.ConnectionOps
import WeisleyRpc.ConnectionInvariant
import WeisleyRpc.ConnectionPending
import WeisleyRpc.ConnectionStreams
import WeisleyRpc.ConnectionAttempts
import WeisleyRpc.ConnectionSockets
import WeisleyRpc.ConnectionClose
import WeisleyRpc.HeartbeatRuns
import WeisleyRpc.CircuitBreaker
import WeisleyRpc.BreakerHistories
import WeisleyRpc.BreakerProbes
import WeisleyRpc.LoadBalancers
import WeisleyRpc.BalancerHistories
import WeisleyRpc.Failover
import WeisleyRpc.FailoverRuns
import WeisleyRpc.MethodInvoker
import WeisleyRpc.Server
import WeisleyRpc.ServerOps
import WeisleyRpc.ConnectionRecords
import WeisleyRpc.Correlation
import WeisleyRpc.ServerClose
import WeisleyRpc.ServerShutdown
import WeisleyRpc.ServerDispatch
import WeisleyRpc.ServerIsolation
import WeisleyRpc.ServerResponses
import WeisleyRpc.RateLimiterRuns
import WeisleyRpc.BalancerShares
import WeisleyRpc.FailoverResults
import WeisleyRpc.ActiveCounts
import WeisleyRpc.CallAccounting
import WeisleyRpc.CallIsolation
import WeisleyRpc.BreakerFailover
import WeisleyRpc.PacketRoundTrip
import WeisleyRpc.QueueRefinement
import WeisleyRpc.PacketBoundaries
import WeisleyRpc.DrainWaiters
import WeisleyRpc.DeclaredMethods
import WeisleyRpc.ConnectionPool
import WeisleyRpc.ReconnectState
import WeisleyRpc.ReconnectDelays
import WeisleyRpc.OptionGuards
import WeisleyRpc.OrdinaryNumbers
import WeisleyRpc.BreakerSemantics
import WeisleyRpc.LimiterSemantics
import WeisleyRpc.ConnectWaits
import WeisleyRpc.CallAttempts
import WeisleyRpc.AttemptSteps
import WeisleyRpc.AttemptRuns
import WeisleyRpc.AttemptOutcomes
import WeisleyRpc.AttemptWrites
import WeisleyRpc.EndpointPools
import WeisleyRpc.NetworkedClient
import WeisleyRpc.NetworkedRuns
import WeisleyRpc.NetworkedResults
import WeisleyRpc.NetworkedRefinement
import WeisleyRpc.BreakerSends
import WeisleyRpc.DirectClient
import WeisleyRpc.DirectResults
import WeisleyRpc.ListCounts
import WeisleyRpc.Deployment
import WeisleyRpc.DeploymentRuns
import WeisleyRpc.DeploymentResults
import WeisleyRpc.NetworkedDeployment
import WeisleyRpc.DirectDeployment
import WeisleyRpc.AdmittedCalls
import WeisleyRpc.LimitedSends
import WeisleyRpc.LimitedExecutions
import WeisleyRpc.CallFates
import WeisleyRpc.DeliveredResponses
