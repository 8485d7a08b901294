import Pgprox.Cluster.Overlap
import Pgprox.Cluster.Partition
import Pgprox.Topology.BackendFor
import Pgprox.Serve.ReadYourWrites
import Pgprox.Route.Writes
import Pgprox.Serve.QuietPool
import Pgprox.Serve.CancelDelivery
import Pgprox.Sql.Visibility
import Pgprox.Serve.ReadyDiscipline
import Pgprox.Serve.CacheOrder
import Pgprox.Serve.UnnamedStatement
import Pgprox.Pool.TenantCap
import Pgprox.Session.Connect
import Pgprox.Proto.Options
import Pgprox.Proto.FrameRelay
import Pgprox.Serve.StartupEffect
import Pgprox.Auth.SingleFlight
import Pgprox.Auth.Invalidation
import Pgprox.Session.Upgrade
import Pgprox.Route.PerStatement
import Pgprox.Route.Consumed
import Pgprox.Route.Poller
import Pgprox.Serve.ReplayDenotes
import Pgprox.Serve.SwallowCount
import Pgprox.Serve.FlushAnswered
import Pgprox.Cluster.Digests
import Pgprox.Cluster.HomeNode
import Pgprox.Cluster.Shares
import Pgprox.Cluster.LostReplies
import Pgprox.Cluster.WireLease
import Pgprox.Pool.Draining
import Pgprox.Pool.Renewal
import Pgprox.Pool.Shares
