import Coold.Lib.Lts
import Coold.Lib.Dict
import Coold.Lib.DictDiff
import Coold.Lib.Ledger
import Coold.Lib.Str
import Coold.Lib.IpAddr
import Coold.Lib.Json
import Coold.Lib.Fs
import Coold.Lib.Pool
import Coold.Lib.Shell
import Coold.Lib.ShellFaults
import Coold.Lib.Netfilter
import Coold.Lib.BitStream
import Coold.Lib.Base64
import Coold.Lib.Lines
import Coold.Lib.Framing
import Coold.Lib.Percent
import Coold.Lib.Exchange
import Coold.Lib.Backoff
import Coold.Lib.UnixPath
import Coold.Lib.Sql
import Coold.Proto
import Coold.Agent.Model
import Coold.Agent.StatusSync
import Coold.Agent.Endpoints
import Coold.Agent.DesiredEndpoints
import Coold.Agent.ReconcileRuns
import Coold.Agent.HostJwt
import Coold.Agent.HostJwtRuns
import Coold.Agent.Base64Url
import Coold.Agent.Firewall
import Coold.Agent.FirewallRules
import Coold.Agent.FirewallCalls
import Coold.Agent.FirewallRuns
import Coold.Agent.Snapshots
import Coold.Agent.AllowAtomic
import Coold.Agent.OwnedRows
import Coold.Agent.CorrosionClient
import Coold.Agent.CorrosionTables
import Coold.Agent.Config
import Coold.Agent.Mounts
import Coold.Agent.PodmanClient
import Coold.Agent.ExecRuns
import Coold.Agent.Dial
import Coold.Agent.Reconnect
import Coold.Agent.Handlers
import Coold.Agent.Serve
import Coold.Agent.Events
import Coold.Agent.StatusPipeline
import Coold.Agent.Ingress
import Coold.Dns.Resolver
import Coold.Dns.Answers
import Coold.Dns.Server
import Coold.Flux.Auth
import Coold.Flux.Revocation
import Coold.Flux.RevocationRuns
import Coold.Flux.Streams
import Coold.Flux.Pending
import Coold.Flux.PendingRuns
import Coold.Flux.Occupancy
import Coold.Flux.Routing
import Coold.Flux.GrpcServer
import Coold.Flux.Publishing
import Coold.Flux.GrpcServerRuns
import Coold.Flux.StatusRuns
import Coold.Flux.Reachability
import Coold.Flux.UnixBridge
import Coold.Flux.HeartbeatRuns
import Coold.Flux.BridgeRuns
import Coold.Flux.BridgeCaps
import Coold.Flux.DropRuns
import Coold.Flux.Handshake
import Coold.Flux.Server
import Coold.Flux.Conformance
import Coold.Cli.Subnet
import Coold.Cli.State
import Coold.Cli.Intent
import Coold.Cli.Meshnet
import Coold.Cli.Capacity
import Coold.Cli.WgConfig
import Coold.Cli.Services
import Coold.Cli.Plan
import Coold.Cli.Apply
import Coold.Cli.AllowedIps
import Coold.Cli.Gateway
import Coold.Cli.PeerEndpoint
import Coold.Cli.Documents
import Coold.Cli.ConfigText
import Coold.Cli.Filtered
import Coold.Cli.WgDrift
import Coold.Cli.Machine
import Coold.Cli.Probe
import Coold.Cli.ProbedPlan
import Coold.Cli.Runs
import Coold.Cli.Identity
import Coold.Cli.Reprobe
import Coold.Cli.Restart
import Coold.Cli.Settled
import Coold.Cli.Carried
import Coold.Cli.Converge
import Coold.Cli.FluxPin
import Coold.Cli.FailClosed
import Coold.Node.Namespaces
import Coold.Node.FirewallUnit
import Coold.Node.DefaultDeny
import Coold.Node.Restore
import Coold.Node.Permissive
import Coold.Builder.StaticBuild
import Coold.Builder.Main
