import NgxWasm.Abi.Response
import NgxWasm.Abi.Subrequest
import NgxWasm.Metrics.Zone
import NgxWasm.Runtime.Exec
import NgxWasm.Shm.Zone

/-!
# The ABI functions (`src/ngx_http_wasm_abi.c`)

The host that the imports act on, and the function of the ABI behind each import, under its own name
and with its tests in the order of the source: the capability first, then what the arguments have to
be, then what has to be there.

## The host

`Host` is what a call can change: the two fields of the execution context that an import may set, the
ABI context, the request, the TLS connection, the two shared zones and the error log. Guest memory
(`Mem`) is what lies at the guest's base address, with its size; a call that reads or writes beyond the
size goes to what lies behind it, so a length that was not checked shows. A function that follows
`ctx->request` where there is none ends in `Outcome.nullRequest`, which stands for the crash of the
worker.

What the module takes from nginx and OpenSSL here is in `World`: the variables of a request and what
evaluating and setting them does, the TLS connection, the slab pool and the tree of the zones, the
hash, and `ngx_parse_http_time`. The clocks are arguments. A result of this part of the model is about
any of these.

## The calls

`AbiCall` is a call with its arguments, as an import hands it over (`Abi.Imports`), and `AbiCall.exec`
runs the function it is for. The functions on the store and on the metrics go on to those of
`Shm.Zone` and `Metrics.Zone`, those on subrequests to `Abi.Subrequest`, the setters of the response to
`Abi.Response`.

Left out are the choice of the log that a line goes to, and the log lines of the module itself: the
error log of the host has what guests write with `ngx_wasm_log`.
-/

namespace NgxWasm.Abi

/-! ## The host -/

/-- Guest memory, and what lies behind it in the address space of the host. -/
structure Mem where
  /-- The guest exports it as `NGX_HTTP_WASM_MEMORY_EXPORT`. -/
  exported : Bool
  size : Nat
  byte : Nat → UInt8

/-- A pointer of the guest, and the `size_t` that the host uses as its length. -/
structure Slice where
  ptr : UInt32
  len : UInt64
  deriving DecidableEq

/-- The bytes the host finds there. -/
def Mem.read (m : Mem) (s : Slice) : Bytes :=
  (List.range s.len.toNat).map fun i => m.byte (s.ptr.toNat + i)

/-- `ngx_memcpy` to a pointer of the guest. -/
def Mem.write (m : Mem) (ptr : UInt32) (data : Bytes) : Mem :=
  { m with byte := fun a => if ptr.toNat ≤ a then data.getD (a - ptr.toNat) (m.byte a) else m.byte a }

/-- A TLS connection: what OpenSSL does with it. -/
structure OpenSsl where
  Conn : Type
  /-- `SSL_get_servername`. -/
  servername : Conn → Option Bytes
  /-- `BIO_new_mem_buf` gets its memory. -/
  memBuf : Bytes → Bool
  /-- `PEM_read_bio_X509_AUX` finds a certificate. -/
  readX509 : Bytes → Bool
  /-- `PEM_read_bio_PrivateKey` finds a key. -/
  readPrivateKey : Bytes → Bool
  useCertificate : Bytes → Conn → Bool × Conn
  usePrivateKey : Bytes → Conn → Bool × Conn
  checkPrivateKey : Conn → Bool

/-- What lies outside the module. -/
structure World where
  vars : Variables
  ssl : OpenSsl
  slab : SlabPool
  rb : Rbtree
  crc32 : Bytes → UInt32
  parseHttpTime : Bytes → Int

/-- The clocks of nginx: `ngx_current_msec`, and `ngx_timeofday()` in milliseconds. -/
structure Clock where
  msec : UInt64
  unixMsec : UInt64

/-- What a call can change: the exec context, the ABI context, and what they point to. -/
structure Host (W : World) where
  yielded : Bool
  suspendKind : Runtime.SuspendKind
  abi : AbiCtx
  request : Option (Request W.vars)
  ssl : Option W.ssl.Conn
  shm : Option (Shm.Zone W.slab)
  metrics : Option (Metrics.Zone W.slab)
  errorLog : List (UInt64 × Bytes)

/-- How a call ends. -/
inductive Outcome where
  | ret (rc : Int32)
  | trap (message : String)
  | nullRequest
  deriving DecidableEq

/-- A call's end, and the host and the memory after it. -/
structure Result (W : World) where
  outcome : Outcome
  host : Host W
  mem : Mem

variable {W : World}

/-- A call that returns `rc`. -/
def Host.reply (h : Host W) (m : Mem) (rc : Int) : Result W := ⟨.ret (Int32.ofInt rc), h, m⟩

/-- `ctx->request`, followed without a test. -/
def Host.deref (h : Host W) (m : Mem) (f : Request W.vars → Result W) : Result W :=
  match h.request with
  | some r => f r
  | none => ⟨.nullRequest, h, m⟩

def Host.withRequest (h : Host W) (r : Request W.vars) : Host W := { h with request := some r }

def Host.withAbi (h : Host W) (abi : AbiCtx) : Host W := { h with abi := abi }

def Host.withSsl (h : Host W) (conn : W.ssl.Conn) : Host W := { h with ssl := some conn }

/-- A call on the request. -/
def Host.onRequest (h : Host W) (m : Mem) (f : Request W.vars → Int × Request W.vars) : Result W :=
  h.deref m fun r => (h.withRequest (f r).2).reply m (f r).1

/-- `ngx_http_wasm_abi_require` at the head of a function. -/
def Host.require (h : Host W) (m : Mem) (cap : UInt64) (body : Result W) : Result W :=
  if h.abi.capabilities &&& cap = 0 then h.reply m wasmError else body

/-- The end of a function that copies a value out. -/
def Host.copyOut (h : Host W) (m : Mem) (buf : Slice) (value : Bytes) : Result W :=
  h.reply (m.write buf.ptr (value.take buf.len.toNat)) value.length

/-! ## Logging, time and TLS -/

/-- `NGX_LOG_DEBUG` and `NGX_HTTP_WASM_LOG_MAX_MESSAGE_LEN`. -/
def logDebug : UInt64 := 8
def maxMessageLen : UInt64 := 1024

/-- `ngx_http_wasm_abi_log`. -/
def log (level : UInt64) (data : Slice) (h : Host W) (m : Mem) : Result W :=
  if level > logDebug then h.reply m wasmError
  else
    let data := { data with len := if data.len > maxMessageLen then maxMessageLen else data.len }
    { h with errorLog := h.errorLog ++ [(level, m.read data)] }.reply m wasmOk

/-- `ngx_http_wasm_abi_write_u64_le`. -/
def u64Le (value : UInt64) : Bytes :=
  (List.range 8).map fun i => (value >>> (8 * i.toUInt64) &&& 0xff).toUInt8

/-- The two clock functions differ in the clock. -/
def time (value : UInt64) (buf : Slice) (h : Host W) (m : Mem) : Result W :=
  h.require m capTime
    (if buf.len < 8 then h.reply m wasmError
    else h.reply (m.write buf.ptr (u64Le value)) wasmOk)

/-- `ngx_http_wasm_abi_time_unix_ms`. -/
def timeUnixMs (now : Clock) : Slice → Host W → Mem → Result W := time now.unixMsec

/-- `ngx_http_wasm_abi_time_monotonic_ms`. -/
def timeMonotonicMs (now : Clock) : Slice → Host W → Mem → Result W := time now.msec

/-- `ngx_http_wasm_abi_ssl_get_server_name`. -/
def sslGetServerName (buf : Slice) (h : Host W) (m : Mem) : Result W :=
  h.require m capSslServerNameGet
    (match h.ssl.bind W.ssl.servername with
    | none => h.reply m wasmNotFound
    | some name => h.copyOut m buf name)

/-- `ngx_http_wasm_abi_ssl_reject_handshake`. -/
def sslRejectHandshake (alert : Int) (h : Host W) (m : Mem) : Result W :=
  h.require m capSslHandshakeReject
    ((h.withAbi { h.abi with sslHandshakeRejected := true, sslHandshakeAlert := alert }).reply m wasmOk)

/-- `ngx_http_wasm_abi_ssl_set_certificate`. -/
def sslSetCertificate (cert key : Slice) (h : Host W) (m : Mem) : Result W :=
  h.require m capSslCertificateSet
    (match h.ssl with
    | none => h.reply m wasmError
    | some conn =>
      if cert.len = 0 ∨ key.len = 0 then h.reply m wasmError
      else if !W.ssl.memBuf (m.read cert) || !W.ssl.readX509 (m.read cert) then h.reply m wasmError
      else
        match W.ssl.useCertificate (m.read cert) conn with
        | (false, conn) => (h.withSsl conn).reply m wasmError
        | (true, conn) =>
          if !W.ssl.memBuf (m.read key) || !W.ssl.readPrivateKey (m.read key) then
            (h.withSsl conn).reply m wasmError
          else
            match W.ssl.usePrivateKey (m.read key) conn with
            | (false, conn) => (h.withSsl conn).reply m wasmError
            | (true, conn) =>
              (h.withSsl conn).reply m
                (if W.ssl.checkPrivateKey conn then wasmOk else wasmError))

/-! ## The request -/

/-- `ngx_http_wasm_abi_req_set_header`. -/
def reqSetHeader (name value : Slice) (h : Host W) (m : Mem) : Result W :=
  h.require m capReqHeadersRw
    (if name.len = 0 then h.reply m wasmError
    else h.onRequest m fun r =>
      match setHeaderIn (m.read name) (m.read value) r.headersIn r.pool with
      | (ok, headers, p) =>
        (if ok then wasmOk else wasmError, { r with headersIn := headers, pool := p }))

/-- `ngx_http_wasm_abi_req_get_header`. -/
def reqGetHeader (name buf : Slice) (h : Host W) (m : Mem) : Result W :=
  h.require m capReqHeadersRo
    (if name.len = 0 then h.reply m wasmError
    else h.deref m fun r =>
      match (findHeader (m.read name) r.headersIn).bind fun i => r.headersIn[i]? with
      | none => h.reply m wasmNotFound
      | some elt => h.copyOut m buf elt.value)

/-- `ngx_http_wasm_abi_req_get_body`. -/
def reqGetBody (buf : Slice) (h : Host W) (m : Mem) : Result W :=
  h.require m capReqBodyGet
    (if !h.abi.requestBodySet then h.reply m wasmNotFound
    else h.copyOut m buf h.abi.requestBody)

/-- `ngx_http_wasm_abi_var_get`. -/
def varGet (name buf : Slice) (h : Host W) (m : Mem) : Result W :=
  h.require m capVarGet
    (match h.request with
    | none => h.reply m wasmError
    | some r =>
      if name.len = 0 then h.reply m wasmError
      else
        match r.pool.alloc name.len.toNat with
        | (false, p) => (h.withRequest { r with pool := p }).reply m wasmError
        | (true, p) =>
          match W.vars.get ((m.read name).map toLower) r.vars with
          | (value, vars) =>
            let h := h.withRequest { r with pool := p, vars := vars }
            match value with
            | none => h.reply m wasmError
            | some none => h.reply m wasmNotFound
            | some (some value) => h.copyOut m buf value)

/-- `ngx_http_wasm_abi_find_variable`. -/
def findVariable (name : Bytes) (r : Request W.vars) : Option Variable × Request W.vars :=
  match r.pool.alloc name.length with
  | (false, p) => (none, { r with pool := p })
  | (true, p) => (W.vars.find (name.map toLower) r.vars, { r with pool := p })

/-- `ngx_http_wasm_abi_var_set`. -/
def varSet (name value : Slice) (h : Host W) (m : Mem) : Result W :=
  h.require m capVarSet
    (match h.request with
    | none => h.reply m wasmError
    | some r =>
      if name.len = 0 then h.reply m wasmError
      else
        match findVariable (m.read name) r with
        | (none, r) => (h.withRequest r).reply m wasmNotFound
        | (some var, r) =>
          if !var.changeable then (h.withRequest r).reply m wasmError
          else
            match r.pool.alloc value.len.toNat with
            | (false, p) => (h.withRequest { r with pool := p }).reply m wasmError
            | (true, p) =>
              let name := (m.read name).map toLower
              if var.hasSetHandler then
                (h.withRequest
                  { r with pool := p, vars := W.vars.setHandler name (m.read value) r.vars }).reply
                    m wasmOk
              else if !var.indexed then
                (h.withRequest { r with pool := p }).reply m wasmError
              else
                (h.withRequest
                  { r with pool := p, vars := W.vars.setIndexed name (m.read value) r.vars }).reply
                    m wasmOk)

/-- `ngx_http_wasm_abi_balancer_set_peer`. -/
def balancerSetPeer (index : UInt64) (h : Host W) (m : Mem) : Result W :=
  h.require m capBalancer
    (match h.request with
    | none => h.reply m wasmError
    | some r =>
      if !r.upstream then h.reply m wasmError
      else
        (h.withAbi { h.abi with balancerPeerSet := true, balancerPeerIndex := index }).reply m wasmOk)

/-! ## The response -/

/-- `ngx_http_wasm_abi_resp_set_status`. -/
def respSetStatus (status : Int) (h : Host W) (m : Mem) : Result W :=
  h.require m capRespStatusSet ((h.withAbi (h.abi.setStatus status)).reply m wasmOk)

/-- `ngx_http_wasm_abi_resp_get_status`. -/
def respGetStatus (h : Host W) (m : Mem) : Result W :=
  h.require m capRespStatusGet (h.deref m fun r => h.reply m r.headersOut.status)

/-- `ngx_http_wasm_abi_resp_set_header`. -/
def respSetHeader (name value : Slice) (h : Host W) (m : Mem) : Result W :=
  h.require m capRespHeadersRw
    (if name.len = 0 then h.reply m wasmError
    else h.onRequest m (setRespHeader W.parseHttpTime (m.read name) (m.read value)))

/-- `ngx_http_wasm_abi_resp_get_cached_header`, and the search of the list for other names. -/
def respHeaderValue (name : Bytes) (out : HeadersOut) : Option Bytes :=
  if headerEq name "content-type" then
    if out.contentType.length = 0 then none else some out.contentType
  else
    match respHeaderSlot name with
    | some slot => (out.slots slot).bind fun i => (out.headers[i]?).map TableElt.value
    | none => (findRespHeader name out.headers).bind fun i => (out.headers[i]?).map TableElt.value

/-- `ngx_http_wasm_abi_resp_get_header`. -/
def respGetHeader (name buf : Slice) (h : Host W) (m : Mem) : Result W :=
  h.require m capRespHeadersRw
    (if name.len = 0 then h.reply m wasmError
    else h.deref m fun r =>
      match respHeaderValue (m.read name) r.headersOut with
      | none => h.reply m wasmNotFound
      | some value => h.copyOut m buf value)

/-- `ngx_http_wasm_abi_resp_get_body_chunk`. -/
def respGetBodyChunk (buf : Slice) (h : Host W) (m : Mem) : Result W :=
  h.require m capRespBodyChunkRead
    (if !h.abi.respBodyChunkSet then h.reply m wasmNotFound
    else h.copyOut m buf h.abi.respBodyChunk)

/-- `ngx_http_wasm_abi_resp_get_body_chunk_eof`. -/
def respGetBodyChunkEof (h : Host W) (m : Mem) : Result W :=
  h.require m capRespBodyChunkRead
    (if !h.abi.respBodyChunkSet then h.reply m wasmNotFound
    else h.reply m (if h.abi.respBodyChunkEof then 1 else 0))

/-- `ngx_http_wasm_abi_resp_set_body_chunk`. -/
def respSetBodyChunk (data : Slice) (h : Host W) (m : Mem) : Result W :=
  h.require m capRespBodyChunkWrite
    (h.deref m fun r =>
      match setStr (m.read data) r with
      | (false, r) => (h.withRequest r).reply m wasmError
      | (true, r) =>
        ((h.withRequest r).withAbi
          { h.abi with respBodyChunkOutput := m.read data, respBodyChunkOutputSet := true }).reply
            m wasmOk)

/-- `ngx_http_wasm_abi_resp_write`. -/
def respWrite (data : Slice) (h : Host W) (m : Mem) : Result W :=
  h.require m capRespBodyWrite
    (h.deref m fun r =>
      match writeBody (m.read data) h.abi r with
      | (rc, abi, r) => ((h.withRequest r).withAbi abi).reply m rc)

/-! ## The shared store -/

/-- A call on the store, which may not be configured. -/
def onShm (op : Shm.Op) (buf : Slice) (now : Clock) (h : Host W) (m : Mem) : Result W :=
  h.require m capSharedKv
    (match h.shm with
    | none => h.reply m wasmError
    | some z =>
      match Shm.exec W.rb W.crc32 now.msec op z with
      | (reply, z) => { h with shm := some z }.reply (m.write buf.ptr reply.bytes) reply.rc)

/-- A call without a buffer. -/
def noSlice : Slice := ⟨0, 0⟩

/-- `ngx_http_wasm_abi_shm_get`. -/
def shmGet (now : Clock) (key buf : Slice) (h : Host W) (m : Mem) : Result W :=
  onShm (.get (m.read key) buf.len.toNat) buf now h m

/-- `ngx_http_wasm_abi_shm_exists`. -/
def shmExists (now : Clock) (key : Slice) (h : Host W) (m : Mem) : Result W :=
  onShm (.exists (m.read key)) noSlice now h m

/-- `ngx_http_wasm_abi_shm_incr`. -/
def shmIncr (now : Clock) (key : Slice) (delta : Int) (h : Host W) (m : Mem) : Result W :=
  onShm (.incr (m.read key) delta) noSlice now h m

/-- `ngx_http_wasm_abi_shm_set`. -/
def shmSet (now : Clock) (key value : Slice) (h : Host W) (m : Mem) : Result W :=
  onShm (.set (m.read key) (m.read value)) noSlice now h m

/-- `ngx_http_wasm_abi_shm_set_ex`. -/
def shmSetEx (now : Clock) (key value : Slice) (ttlMsec : UInt64) (h : Host W) (m : Mem) : Result W :=
  onShm (.setEx (m.read key) (m.read value) ttlMsec) noSlice now h m

/-- `ngx_http_wasm_abi_shm_add`. -/
def shmAdd (now : Clock) (key value : Slice) (h : Host W) (m : Mem) : Result W :=
  onShm (.add (m.read key) (m.read value)) noSlice now h m

/-- `ngx_http_wasm_abi_shm_replace`. -/
def shmReplace (now : Clock) (key value : Slice) (h : Host W) (m : Mem) : Result W :=
  onShm (.replace (m.read key) (m.read value)) noSlice now h m

/-- `ngx_http_wasm_abi_shm_delete`. -/
def shmDelete (now : Clock) (key : Slice) (h : Host W) (m : Mem) : Result W :=
  onShm (.delete (m.read key)) noSlice now h m

/-! ## Metrics -/

/-- A call on the metrics, which may not be configured. -/
def onMetrics (op : Metrics.Zone W.slab → Int × Metrics.Zone W.slab) (h : Host W) (m : Mem) :
    Result W :=
  h.require m capMetrics
    (match h.metrics with
    | none => h.reply m wasmError
    | some z => { h with metrics := some (op z).2 }.reply m (op z).1)

/-- `ngx_http_wasm_abi_metric_counter_inc`. -/
def metricCounterInc (name : Slice) (delta : Int64) (h : Host W) (m : Mem) : Result W :=
  onMetrics (Metrics.counterInc W.crc32 (m.read name) delta) h m

/-- `ngx_http_wasm_abi_metric_gauge_set`. -/
def metricGaugeSet (name : Slice) (value : Int64) (h : Host W) (m : Mem) : Result W :=
  onMetrics (Metrics.gaugeSet W.crc32 (m.read name) value) h m

/-- `ngx_http_wasm_abi_metric_gauge_add`. -/
def metricGaugeAdd (name : Slice) (delta : Int64) (h : Host W) (m : Mem) : Result W :=
  onMetrics (Metrics.gaugeAdd W.crc32 (m.read name) delta) h m

/-! ## Subrequests -/

/-- A call on the subrequest record. It needs the request and its module context. -/
def onSubrequest (f : Request W.vars → Int × Request W.vars) (h : Host W) (m : Mem) : Result W :=
  h.require m capSubrequest
    (match h.request with
    | none => h.reply m wasmError
    | some r => (h.withRequest (f r).2).reply m (f r).1)

/-- A reader of the subrequest record. -/
def readsSubrequest (f : Request W.vars → Int × Bytes) (buf : Slice) (h : Host W) (m : Mem) :
    Result W :=
  h.require m capSubrequest
    (match h.request with
    | none => h.reply m wasmError
    | some r => h.reply (m.write buf.ptr (f r).2) (f r).1)

/-- `ngx_http_wasm_abi_subrequest_set_header`. -/
def subreqSetHeader (name value : Slice) (h : Host W) (m : Mem) : Result W :=
  onSubrequest (subrequestSetHeader (m.read name) (m.read value)) h m

/-- `ngx_http_wasm_abi_subrequest`. -/
def subreq (uri args : Slice) (method options : UInt64) (h : Host W) (m : Mem) : Result W :=
  onSubrequest (subrequest (m.read uri) (m.read args) method options) h m

/-- `ngx_http_wasm_abi_subrequest_get_status`. -/
def subreqGetStatus (h : Host W) (m : Mem) : Result W :=
  readsSubrequest subrequestGetStatus noSlice h m

/-- `ngx_http_wasm_abi_subrequest_get_header`. -/
def subreqGetHeader (name buf : Slice) (h : Host W) (m : Mem) : Result W :=
  readsSubrequest (subrequestGetHeader (m.read name) buf.len.toNat) buf h m

/-- `ngx_http_wasm_abi_subrequest_get_body`. -/
def subreqGetBody (buf : Slice) (h : Host W) (m : Mem) : Result W :=
  readsSubrequest (subrequestGetBody buf.len.toNat) buf h m

/-- `ngx_http_wasm_abi_subrequest_get_body_len`. -/
def subreqGetBodyLen (h : Host W) (m : Mem) : Result W :=
  readsSubrequest subrequestGetBodyLen noSlice h m

/-! ## Calls -/

/-- A call of an import that has passed the import's checks, with its arguments converted. -/
inductive AbiCall where
  | log (level : UInt64) (data : Slice)
  | respSetStatus (status : Int)
  | respGetStatus
  | metricCounterInc (name : Slice) (delta : Int64)
  | metricGaugeSet (name : Slice) (value : Int64)
  | metricGaugeAdd (name : Slice) (delta : Int64)
  | balancerSetPeer (index : UInt64)
  | shmGet (key buf : Slice)
  | shmExists (key : Slice)
  | shmIncr (key : Slice) (delta : Int)
  | shmSet (key value : Slice)
  | shmSetEx (key value : Slice) (ttlMsec : UInt64)
  | shmAdd (key value : Slice)
  | shmReplace (key value : Slice)
  | shmDelete (key : Slice)
  | sslGetServerName (buf : Slice)
  | sslRejectHandshake (alert : Int)
  | sslSetCertificate (cert key : Slice)
  | reqSetHeader (name value : Slice)
  | reqGetHeader (name buf : Slice)
  | varGet (name buf : Slice)
  | varSet (name value : Slice)
  | timeUnixMs (buf : Slice)
  | timeMonotonicMs (buf : Slice)
  | respSetHeader (name value : Slice)
  | respGetHeader (name buf : Slice)
  | respGetBodyChunk (buf : Slice)
  | respGetBodyChunkEof
  | respSetBodyChunk (data : Slice)
  | reqGetBody (buf : Slice)
  | respWrite (data : Slice)
  | subreqSetHeader (name value : Slice)
  | subreq (uri args : Slice) (method options : UInt64)
  | subreqGetStatus
  | subreqGetHeader (name buf : Slice)
  | subreqGetBody (buf : Slice)
  | subreqGetBodyLen
  | yield
  deriving DecidableEq

/-- The call of the ABI function. `ngx_wasm_yield` has none: its import sets `yielded` itself. -/
def AbiCall.exec (now : Clock) (h : Host W) (m : Mem) : AbiCall → Result W
  | .log level data => Abi.log level data h m
  | .respSetStatus status => Abi.respSetStatus status h m
  | .respGetStatus => Abi.respGetStatus h m
  | .metricCounterInc name delta => Abi.metricCounterInc name delta h m
  | .metricGaugeSet name value => Abi.metricGaugeSet name value h m
  | .metricGaugeAdd name delta => Abi.metricGaugeAdd name delta h m
  | .balancerSetPeer index => Abi.balancerSetPeer index h m
  | .shmGet key buf => Abi.shmGet now key buf h m
  | .shmExists key => Abi.shmExists now key h m
  | .shmIncr key delta => Abi.shmIncr now key delta h m
  | .shmSet key value => Abi.shmSet now key value h m
  | .shmSetEx key value ttlMsec => Abi.shmSetEx now key value ttlMsec h m
  | .shmAdd key value => Abi.shmAdd now key value h m
  | .shmReplace key value => Abi.shmReplace now key value h m
  | .shmDelete key => Abi.shmDelete now key h m
  | .sslGetServerName buf => Abi.sslGetServerName buf h m
  | .sslRejectHandshake alert => Abi.sslRejectHandshake alert h m
  | .sslSetCertificate cert key => Abi.sslSetCertificate cert key h m
  | .reqSetHeader name value => Abi.reqSetHeader name value h m
  | .reqGetHeader name buf => Abi.reqGetHeader name buf h m
  | .varGet name buf => Abi.varGet name buf h m
  | .varSet name value => Abi.varSet name value h m
  | .timeUnixMs buf => Abi.timeUnixMs now buf h m
  | .timeMonotonicMs buf => Abi.timeMonotonicMs now buf h m
  | .respSetHeader name value => Abi.respSetHeader name value h m
  | .respGetHeader name buf => Abi.respGetHeader name buf h m
  | .respGetBodyChunk buf => Abi.respGetBodyChunk buf h m
  | .respGetBodyChunkEof => Abi.respGetBodyChunkEof h m
  | .respSetBodyChunk data => Abi.respSetBodyChunk data h m
  | .reqGetBody buf => Abi.reqGetBody buf h m
  | .respWrite data => Abi.respWrite data h m
  | .subreqSetHeader name value => Abi.subreqSetHeader name value h m
  | .subreq uri args method options => Abi.subreq uri args method options h m
  | .subreqGetStatus => Abi.subreqGetStatus h m
  | .subreqGetHeader name buf => Abi.subreqGetHeader name buf h m
  | .subreqGetBody buf => Abi.subreqGetBody buf h m
  | .subreqGetBodyLen => Abi.subreqGetBodyLen h m
  | .yield => { h with yielded := true }.reply m wasmOk

end NgxWasm.Abi
