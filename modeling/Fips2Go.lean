import Fips2Go.DivertFlows
import Fips2Go.DnsQuestions
import Fips2Go.DnsReissue
import Fips2Go.DnsServfail
import Fips2Go.DnsUpstreams
import Fips2Go.EngineStartFailures
import Fips2Go.FilterCapacity
import Fips2Go.FilterRefinement
import Fips2Go.HostsFetch
import Fips2Go.HostsSyncSafety
import Fips2Go.HttpChunkEncoding
import Fips2Go.HttpCompletion
import Fips2Go.HttpExchangeExits
import Fips2Go.HttpRequest
import Fips2Go.MeshRelayUrl
import Fips2Go.MeshTcpBacklog
import Fips2Go.MeshRelayListener
import Fips2Go.MeshTcpClosing
import Fips2Go.MeshUdp
import Fips2Go.NamesOnline
import Fips2Go.PacketChecksum
import Fips2Go.PacketReaders
import Fips2Go.PinnedServers
import Fips2Go.PumpReplies
import Fips2Go.PumpWriter
import Fips2Go.VpnServiceSuperseded
import Fips2Go.VpnServiceFinality
import Fips2Go.VpnServiceRebind
import Fips2Go.VpnServiceSettings
import Fips2Go.UnderlayHandOvers
import Fips2Go.ConfigContract
import Fips2Go.HostsSchedule
import Fips2Go.NamesLookup
import Fips2Go.MeshFetch
import Fips2Go.MeshPing
import Fips2Go.HotspotStalls
