import RespClient.Timespan
import RespClient.Blank
import RespClient.Bytes
import RespClient.Crc32
import RespClient.Decimal
import RespClient.Numeral
import RespClient.Utf8
import RespClient.Fault
import RespClient.Wire.Reading
import RespClient.Wire.Replies
import RespClient.Wire.Requests
import RespClient.Command
import RespClient.KeyPrefix
import RespClient.Catalogue
import RespClient.Ring
import RespClient.Endpoint
import RespClient.Endpoint.Settings
import RespClient.Document
import RespClient.Endpoint.Config
import RespClient.Endpoint.Uri
import RespClient.Cluster
import RespClient.Replication
import RespClient.Client
import RespClient.Client.TypedCommands
import RespClient.Main
import RespClient.Proofs.Session
import RespClient.Proofs.ReplicaRouting
import RespClient.Proofs.RingDisruption
import RespClient.Proofs.RingHistory
import RespClient.Proofs.RingLookup
import RespClient.Proofs.ReplicaRegistry
import RespClient.Proofs.ClusterRouting
import RespClient.Proofs.SamePlace
import RespClient.Proofs.OpenState
import RespClient.Proofs.ReplicaPromotion
import RespClient.Proofs.SlaveTurns
import RespClient.Proofs.Attempts
import RespClient.Proofs.Places
import RespClient.Proofs.ClientRuns
import RespClient.Proofs.Dispatch
import RespClient.Proofs.CountedKeys
import RespClient.Proofs.ScriptFallback
import RespClient.Proofs.Truncation
import RespClient.Proofs.Presentation
import RespClient.Proofs.Collections
import RespClient.Proofs.ReadTraffic
import RespClient.Proofs.ReplicaFailures
import RespClient.Proofs.Halves
import RespClient.Proofs.AllOrNothing
import RespClient.Proofs.UriRoundTrip
import RespClient.Proofs.IntegerTexts
import RespClient.Proofs.TimeoutRounding
import RespClient.Proofs.Addressing
import RespClient.Proofs.Namespaces
import RespClient.Proofs.KeyTags
import RespClient.Proofs.NamespaceTags
import RespClient.Proofs.RememberedKeys
import RespClient.Proofs.UriParts
import RespClient.Proofs.QueryOptions
import RespClient.Proofs.DeclaredCounts
import RespClient.Proofs.DrawnKeys
