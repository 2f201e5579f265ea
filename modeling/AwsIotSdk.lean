import AwsIotSdk.SortedMap
import AwsIotSdk.Transition
import AwsIotSdk.WaitGraph
import AwsIotSdk.LockedProgram
import AwsIotSdk.LinkThreads
import AwsIotSdk.ResponseCode
import AwsIotSdk.Utf8String
import AwsIotSdk.Utf8Validity
import AwsIotSdk.EcmaRegex
import AwsIotSdk.EcmaPattern
import AwsIotSdk.NetworkConnection
import AwsIotSdk.PartialWrites
import AwsIotSdk.StreamConnection
import AwsIotSdk.Packet
import AwsIotSdk.Utf8Iterators
import AwsIotSdk.Subscription
import AwsIotSdk.TopicLevels
import AwsIotSdk.Packets
import AwsIotSdk.ClientState
import AwsIotSdk.SubscriptionSearch
import AwsIotSdk.SubscriptionView
import AwsIotSdk.SubscribeAcks
import AwsIotSdk.ResubscribeLoop
import AwsIotSdk.ResubscribeAcks
import AwsIotSdk.KeepaliveLoop
import AwsIotSdk.SubscriptionTags
import AwsIotSdk.UnsubscribeAcks
import AwsIotSdk.SubackCodes
import AwsIotSdk.JsonValue
import AwsIotSdk.JsonParser
import AwsIotSdk.JsonDiff
import AwsIotSdk.MergeOfDiff
import AwsIotSdk.MergeLaws
import AwsIotSdk.Shadow
import AwsIotSdk.ShadowVersions
import AwsIotSdk.ShadowDocument
import AwsIotSdk.RejectedResponses
import AwsIotSdk.DeviceShadow
import AwsIotSdk.UpdateRequests
import AwsIotSdk.TopicDispatch
import AwsIotSdk.ShadowShapes
import AwsIotSdk.PendingAcks
import AwsIotSdk.ResponseCorrelation
import AwsIotSdk.LockOrder
import AwsIotSdk.ManualDisconnect
import AwsIotSdk.AnsweredPings
import AwsIotSdk.Resubscription
import AwsIotSdk.TopicMatching
import AwsIotSdk.Actions
import AwsIotSdk.ActionEffects
import AwsIotSdk.AckScripts
import AwsIotSdk.CoreThreads
import AwsIotSdk.NetworkRead
import AwsIotSdk.StreamReads
import AwsIotSdk.LengthBytes
import AwsIotSdk.LengthCodec
import AwsIotSdk.FatalRead
import AwsIotSdk.Framing
import AwsIotSdk.OutboundFrames
import AwsIotSdk.InboundPackets
import AwsIotSdk.PublishRoundTrip
import AwsIotSdk.PublishReencode
import AwsIotSdk.ConnectGrammar
import AwsIotSdk.ConnectRoundTrip
import AwsIotSdk.Delivery
import AwsIotSdk.QueuedActions
import AwsIotSdk.ConnackResults
import AwsIotSdk.FailedRequests
import AwsIotSdk.FailedSubscriptions
import AwsIotSdk.SubscribeFrames
import AwsIotSdk.QueueRuns
import AwsIotSdk.DisconnectCallbacks
import AwsIotSdk.ReconnectBackoff
import AwsIotSdk.WebSocketConnection
import AwsIotSdk.WebSocketStream
import AwsIotSdk.Jobs
import AwsIotSdk.JobTopics
import AwsIotSdk.UrlEncoding
import AwsIotSdk.WebSocketWrites
import AwsIotSdk.OpenSSLReads
import AwsIotSdk.ExpiredAcks
import AwsIotSdk.ActionRegistry
import AwsIotSdk.DiscoveryResponse
import AwsIotSdk.DiscoveredRows
import AwsIotSdk.JobRequests
import AwsIotSdk.DiscoveryBody
import AwsIotSdk.MbedTLSWrites
import AwsIotSdk.WebSocketSession
import AwsIotSdk.IdSequences
import AwsIotSdk.BigEndian
import AwsIotSdk.Keystream
import AwsIotSdk.WebSocketFrame
import AwsIotSdk.Wslay
import AwsIotSdk.WslayReceive
import AwsIotSdk.WslaySend
import AwsIotSdk.WslayLink
import AwsIotSdk.WebSocketDelivery
import AwsIotSdk.Ledger
import AwsIotSdk.OpenSSLConnect
import AwsIotSdk.OpenSSLSockets
import AwsIotSdk.WebSocketCertificates
import AwsIotSdk.ShadowConvergence
import AwsIotSdk.ControlPackets
import AwsIotSdk.ClientStream
import AwsIotSdk.ShadowSession
import AwsIotSdk.ShadowSubscriptions
import AwsIotSdk.ShadowHandlers
import AwsIotSdk.OpenSSLWrites
import AwsIotSdk.WebSocketUpstream
import AwsIotSdk.JobDelivery
import AwsIotSdk.Base64
import AwsIotSdk.CanonicalQuery
import AwsIotSdk.HttpHead
import AwsIotSdk.WebSocketHandshake
