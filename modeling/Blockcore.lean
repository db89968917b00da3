import Blockcore.Lib.ByteStream
import Blockcore.Lib.Outcome
import Blockcore.Lib.Paths
import Blockcore.Lib.FileSystem
import Blockcore.Networking.MessageMaps
import Blockcore.Networking.MessageSerializer
import Blockcore.Networking.Messages
import Blockcore.Networking.Framing
import Blockcore.Networking.Datagrams
import Blockcore.Networking.Dispatch
import Blockcore.Networking.Hops
import Blockcore.Hub.ListenTCP
import Blockcore.Lib.Registry
import Blockcore.Networking.DottedText
import Blockcore.Networking.Entities
import Blockcore.Gateway.Manager
import Blockcore.Gateway.Handlers
import Blockcore.Gateway.Workers
import Blockcore.Gateway.Relay
import Blockcore.Gateway.Departure
import Blockcore.Gateway.ReceiveLoop
import Blockcore.Gateway.DeadPeers
import Blockcore.Gateway.Discovery
import Blockcore.Gateway.Registration
import Blockcore.Gateway.Sessions
import Blockcore.Lib.Runs
import Blockcore.Gateway.Concurrency
import Blockcore.Gateway.Enumeration
import Blockcore.Networking.ConnectionManager
import Blockcore.Hub.Manager
import Blockcore.Hub.Handlers
import Blockcore.Hub.Effects
import Blockcore.Hub.Reachability
import Blockcore.Hub.Learning
import Blockcore.Hub.Events
import Blockcore.Network.Origins
import Blockcore.Hub.NullSafety
import Blockcore.Hub.Listeners
import Blockcore.Hub.Concurrency
import Blockcore.Hub.Probing
import Blockcore.Lib.JsArray
import Blockcore.ClientApp.PeerService
import Blockcore.ClientApp.Polling
import Blockcore.Networking.Truncation
import Blockcore.Network.Rejections
import Blockcore.Network.Steps
import Blockcore.Network.Rendezvous
import Blockcore.Network.Links
import Blockcore.Network.Holdings
import Blockcore.Network.Departures
import Blockcore.Network.Senders
import Blockcore.Storage.DiskStorage
import Blockcore.Storage.Footprints
import Blockcore.Storage.Containment
import Blockcore.Storage.FailedSaves
import Blockcore.Network.Inbox
import Blockcore.Lib.JsString
import Blockcore.Lib.JsObject
import Blockcore.Networking.ConfigurationBuilder
import Blockcore.ClientApp.ApiService
import Blockcore.Lib.Chains
import Blockcore.ClientApp.Pager
import Blockcore.ClientApp.Scrolling
import Blockcore.ClientApp.RepeatedPages
import Blockcore.ClientApp.Explorer
import Blockcore.Lib.Delivery
import Blockcore.Hub.Service
import Blockcore.Hub.Shutdown
import Blockcore.Hub.WebSocketHub
import Blockcore.Network.Traffic
import Blockcore.Network.Broadcasts
import Blockcore.Network.Serving
import Blockcore.Network.Arrivals
import Blockcore.Network.Presence
import Blockcore.Network.Probes
import Blockcore.Network.Bytes
import Blockcore.ClientApp.PeerList
import Blockcore.Storage.RecoveryPhrase
import Blockcore.Gateway.Independence
import Blockcore.Lib.Ending
import Blockcore.Network.Work
import Blockcore.Network.Load
import Blockcore.Network.Routes
import Blockcore.Network.Rest
