import TntPub.Runs
import TntPub.Framing
import TntPub.LittleEndian
import TntPub.Registry
import TntPub.StreamDecoding
import TntPub.Factories
import TntPub.Structured
import TntPub.OldFormat
import TntPub.FrameLimits
import TntPub.Relay
import TntPub.OutputLimit
import TntPub.Loops
import TntPub.Progress
import TntPub.SubscriptionTable
import TntPub.SubscriptionRequest
import TntPub.Closing
import TntPub.ConnectionOutput
import TntPub.ConnectionInput
import TntPub.EndToEnd
import TntPub.BlockingRead
import TntPub.HandlerCalls
import TntPub.CachedObject
import TntPub.Isolation
import TntPub.CollectedSize
import TntPub.AdvanceErrors
import TntPub.AdvanceCount
import TntPub.Checksum
import TntPub.OwnedRuns
import TntPub.Publication
import TntPub.Agreement
import TntPub.Delivery
import TntPub.Callbacks
import TntPub.Forwarding
import TntPub.Generation
import TntPub.NoGaps
import TntPub.Broker
import TntPub.HubRefinement
import TntPub.Lines
import TntPub.PrintedLines
