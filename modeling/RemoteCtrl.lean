import RemoteCtrl.Foundation.Transition
import RemoteCtrl.Foundation.Inet
import RemoteCtrl.Foundation.BlockHash
import RemoteCtrl.Foundation.Radix64
import RemoteCtrl.Session.Isolation
import RemoteCtrl.Session.RoundTrip
import RemoteCtrl.Session.ResponseLaw
import RemoteCtrl.Session.Bounds
import RemoteCtrl.Session.Asserted
import RemoteCtrl.Session.Delivery
import RemoteCtrl.Service.Refusal
import RemoteCtrl.Service.Survival
import RemoteCtrl.Service.Descriptors
import RemoteCtrl.Service.Handler
import RemoteCtrl.Service.Single
import RemoteCtrl.Service.Listen
import RemoteCtrl.Service.Startup
import RemoteCtrl.Service.Holders
import RemoteCtrl.Service.Following
import RemoteCtrl.Service.Multicast
import RemoteCtrl.Service.Handle
import RemoteCtrl.Service.Discovery
import RemoteCtrl.Update.Args
import RemoteCtrl.Update.Exits
import RemoteCtrl.Update.Verified
import RemoteCtrl.Update.Report
import RemoteCtrl.Update.Missing
import RemoteCtrl.Update.Formatted
import RemoteCtrl.Update.Conversation
import RemoteCtrl.Daemon.Options
import RemoteCtrl.Daemon.Start
import RemoteCtrl.Daemon.Instances
import RemoteCtrl.Digest.Md5
import RemoteCtrl.Digest.Rounds
import RemoteCtrl.Digest.File
import RemoteCtrl.Codec.Base64
import RemoteCtrl.Codec.RoundTrip
import RemoteCtrl.UnixDomain.Sockets
import RemoteCtrl.UnixDomain.Peers
import RemoteCtrl.UnixDomain.Clients
