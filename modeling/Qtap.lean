import Qtap.Redis.Delivery
import Qtap.Mysql.Handshake
import Qtap.Http1.Persistence
import Qtap.Http2.Lifecycle
import Qtap.Kafka.Produce
import Qtap.Bpf.EventOrder
import Qtap.Bpf.Attribution
import Qtap.Bpf.FdReuse
import Qtap.Bpf.OriginalDst
import Qtap.Egress.Delivery
import Qtap.Egress.Opening
import Qtap.Tls.Versions
import Qtap.Tls.Exclusion
import Qtap.Tls.Attachments
import Qtap.JavaSsl.Delivery
import Qtap.Plugins.Isolation
import Qtap.Processes.Filtering
import Qtap.Services.Factories
import Qtap.Processes.Await
import Qtap.Processes.Observers
import Qtap.Plugins.Commands
import Qtap.Services.Reporter
import Qtap.Mysql.Ownership
import Qtap.Kafka.Ownership
import Qtap.Connection.Processors
import Qtap.Http2.Chunking
import Qtap.Http2.Interim
import Qtap.Bpf.BufRead
import Qtap.Mysql.Outcomes
import Qtap.Mysql.Capacity
import Qtap.Ca.Containers
import Qtap.Ca.Presence
import Qtap.Redis.Ownership
import Qtap.Synq.Queue
import Qtap.Synq.TTLCache
import Qtap.Plugins.Deployment
import Qtap.Tls.BuildInfo
import Qtap.Connection.Domain
import Qtap.Processes.EnvMask
import Qtap.Tls.ContainerScan
import Qtap.Egress.Upstreams
import Qtap.Ca.Scanning
