import NgxWasm.Lib.SearchTree
import NgxWasm.Lib.Run
import NgxWasm.Lib.Recency
import NgxWasm.Nginx
import NgxWasm.Shm.Cache
import NgxWasm.Shm.Zone
import NgxWasm.Shm.Steps
import NgxWasm.Shm.Lookup
import NgxWasm.Shm.Refine
import NgxWasm.Lib.Piece
import NgxWasm.Runtime.Exec
import NgxWasm.Runtime.Run
import NgxWasm.Runtime.Futures
import NgxWasm.Runtime.Fuel
import NgxWasm.Request.Ctx
import NgxWasm.Request.Phases
import NgxWasm.Runtime.Suspension
import NgxWasm.Request.Steps
import NgxWasm.Request.Count
import NgxWasm.Runtime.Reported
import NgxWasm.Runtime.Failure
import NgxWasm.Request.Returns
import NgxWasm.Request.Body
import NgxWasm.Metrics.Zone
import NgxWasm.Shm.Owned
import NgxWasm.Metrics.Map
import NgxWasm.Metrics.Reload
import NgxWasm.Zones
import NgxWasm.Abi.Ctx
import NgxWasm.Abi.Response
import NgxWasm.Abi.Subrequest
import NgxWasm.Abi.Calls
import NgxWasm.Abi.Imports
import NgxWasm.Abi.Described
import NgxWasm.Shm.Numeral
import NgxWasm.Shm.Overflow
import NgxWasm.Shm.Pressure
import NgxWasm.Shm.Single
import NgxWasm.Shm.Counter
import NgxWasm.Abi.Incr
import NgxWasm.Lib.Parts
import NgxWasm.Abi.SetGet
import NgxWasm.BodyFilter.Chain
import NgxWasm.BodyFilter.Tail
import NgxWasm.BodyFilter.Delivery
import NgxWasm.Runtime.Timeslice
import NgxWasm.BodyFilter.Succeeds
import NgxWasm.BodyFilter.File
import NgxWasm.BodyFilter.Sound
import NgxWasm.BodyFilter.Consumed
import NgxWasm.Abi.Slots
import NgxWasm.Abi.Setters
import NgxWasm.Abi.HalfBuilt
import NgxWasm.Abi.Reads
import NgxWasm.Lib.Store
import NgxWasm.Abi.Cloned
import NgxWasm.Abi.Staged
import NgxWasm.Request.Limit
import NgxWasm.Lib.Bitmap
import NgxWasm.Balancer.Peers
import NgxWasm.Metrics.Values
import NgxWasm.Metrics.Endpoint
import NgxWasm.Lib.Forest
import NgxWasm.Config.Blocks
import NgxWasm.Config.FuelLimit
import NgxWasm.Abi.Certificate
import NgxWasm.Shm.Expiry
import NgxWasm.Lib.Ledger
import NgxWasm.Lib.Fallible
import NgxWasm.Config.Loader
import NgxWasm.Config.Lifetime
import NgxWasm.Config.Cached
import NgxWasm.Runtime.Handles
import NgxWasm.Request.Contexts
import NgxWasm.Request.Released
import NgxWasm.Shm.History
import NgxWasm.Shm.Recent
import NgxWasm.BodyFilter.Conserved
import NgxWasm.Metrics.Scrape
import NgxWasm.Runtime.Completion
import NgxWasm.Tls.Handshake
import NgxWasm.Balancer.Connections
import NgxWasm.Lib.Footprint
import NgxWasm.Abi.Guests
import NgxWasm.Lib.Setting
import NgxWasm.Config.Innermost
import NgxWasm.Abi.Run
import NgxWasm.HeaderFilter.Handler
