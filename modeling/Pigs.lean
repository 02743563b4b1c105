import Pigs.Lib.SwapRemove
import Pigs.Lib.FreeChain
import Pigs.Lib.Run
import Pigs.Lib.Recency
import Pigs.Lib.Delimited
import Pigs.Lib.Tally
import Pigs.Lib.Assoc
import Pigs.Lib.Channel
import Pigs.Lib.Radix
import Pigs.Lib.Base64
import Pigs.Lib.Search
import Pigs.Lib.Saturating
import Pigs.Lib.Rounding
import Pigs.Cache.C100k.Shard
import Pigs.Cache.C100k.Moves
import Pigs.Cache.C100k.Slab
import Pigs.Cache.C100k.Wheel
import Pigs.Cache.C100k.Periods
import Pigs.Cache.C100k.Expiry
import Pigs.Cache.C100k.Clock
import Pigs.Cache.C100k.Stamps
import Pigs.Cache.C100k.Ttl
import Pigs.Cache.C100k.Batches
import Pigs.Cache.C100k.Compaction
import Pigs.Cache.C100k.Routing
import Pigs.Cache.C100k.Sharded
import Pigs.Cache.Delay.Timers
import Pigs.Cache.Delay.Purge
import Pigs.Cache.Delay.Store
import Pigs.Cache.Delay.Moves
import Pigs.Cache.Delay.Links
import Pigs.Cache.Delay.Early
import Pigs.Cache.Delay.Agreement
import Pigs.Cache.Delay.Fates
import Pigs.Cache.Delay.Callbacks
import Pigs.Net.Rw.Registry
import Pigs.Net.Rw.WriterCalls
import Pigs.Net.Rw.Generations
import Pigs.Net.Rw.NoLeak
import Pigs.Net.Rw.Waiting
import Pigs.Net.Rw.ReadHandler
import Pigs.Net.Rw.Displaced
import Pigs.Net.Rw.Encoder
import Pigs.Net.Rw.WriteAll
import Pigs.Net.Rw.Frames
import Pigs.Net.Rw.DirectSink
import Pigs.Net.Rw.QueuedSink
import Pigs.Net.Rw.Vectored
import Pigs.Net.Rw.Sending
import Pigs.Net.Rw.Managed.Endpoint
import Pigs.Net.Rw.Managed.Accounting
import Pigs.Net.Rw.Managed.WriterClose
import Pigs.Net.Rw.Managed.SinkFates
import Pigs.Net.Rw.Managed.Connect
import Pigs.Net.Rw.Managed.Reservation
import Pigs.Net.Rw.Managed.Listener
import Pigs.Net.Rw.Managed.Counted
import Pigs.Daemon.Service
import Pigs.Macros.Constructor.Expand
import Pigs.Macros.Constructor.Meaning
import Pigs.Rpc.Supervisor
import Pigs.Rpc.Forward
import Pigs.Rpc.Lifecycle
import Pigs.Rpc.Retry
import Pigs.Rpc.Metadata
import Pigs.Utils.Rt.Tasks
import Pigs.Utils.Rt.Shutdown
import Pigs.Utils.Rt.Graceful
import Pigs.Utils.Rt.Order
import Pigs.Utils.Rt.Application
import Pigs.Utils.Token.Verify
import Pigs.Utils.Token.Forgery
import Pigs.Utils.Dig62.Groups
import Pigs.Utils.Dig62.RoundTrip
import Pigs.Utils.Dig62.Panics
import Pigs.Utils.Crypto
import Pigs.Utils.Encryption
import Pigs.Bus.Broadcast.Orphaned
import Pigs.Bus.Broadcast.Heard
import Pigs.Bus.Mpsc.Locks
import Pigs.Bus.Mpsc.Wedge
import Pigs.Bus.Mpsc.Delivery
import Pigs.Bus.Mpsc.Topics
import Pigs.Db.Migrations.Runner
import Pigs.Db.Migrations.Calls
import Pigs.Db.Migrations.Sqlite
import Pigs.Db.Migrations.Mysql
import Pigs.Db.Restore
import Pigs.Logger.Accounts
import Pigs.Logger.Rate
import Pigs.Logger.Gate
import Pigs.Logger.Source
import Pigs.SysMetrics.Sample
import Pigs.SysMetrics.Rate
import Pigs.SysMetrics.Cpu
import Pigs.SysMetrics.Disk
import Pigs.Macros.Conf.Attr
import Pigs.Macros.Conf.Startup
import Pigs.Net.Rw.Reading
import Pigs.Net.Rw.Delivered
import Pigs.SysMetrics.Collector
import Pigs.Net.Rw.Readers
