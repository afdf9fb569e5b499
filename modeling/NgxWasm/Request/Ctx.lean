import NgxWasm.Runtime.Run

/-!
# A request and its phases

The part of `src/ngx_http_wasm_module.c` that runs the hooks of a request, and
`src/ngx_http_wasm_request_body.c`. Three parties may hold a request: nginx's phase engine, the
handler that a body read calls when the body has arrived, and the resume handler of a suspended
guest. A step of the model is one of them running until it gives the request up.

This module has the state and the functions on the request body; `Request.Phases` has the functions
that run the guest, and the steps.

## What is translated

* `prepare_request_body` with the read it starts (`prepareRequestBody`, `readRequestBody`),
  `store_request_body` with its loop over the buffers, and `request_body_handler`. The last is called
  at once or later; what it does in both cases is here, the rest in `bodyArrives`.
* The part of the two imports for the request body that is about its storage (`reqSetBody`,
  `reqGetBody`); what the guest's buffer gets is in `Abi.Reads`.

nginx is modelled as far as the module relies on it: the count of references, the list of posted
requests, the order of the phases and how a body is read or discarded. What it may decide either
way comes in with the `Input` of a step, together with what the guest does and whether memory is
granted.

Out of scope are the filters and the log phase (`BodyFilter`, `HeaderFilter`, `Request.Contexts`),
internal redirects and the processing of a subrequest by nginx itself: here a subrequest is active or
not. The names are those of the source without the prefix `ngx_http_wasm_`.
-/

namespace NgxWasm.Request

open Lib
open NgxWasm.Runtime (Machine RunInput SuspendKind Phase launches initExecCtx)

/-! ## Configuration -/

/-- The hooks that run on a request before its response, in their order. -/
inductive Hook where
  | serverRewrite
  | rewrite
  | content
  deriving Repr, DecidableEq

/-- The kind `get_or_create_ctx` initialises the execution context with. -/
def Hook.phaseKind : Hook → Phase
  | .serverRewrite => .serverRewrite
  | .rewrite => .rewrite
  | .content => .content

/-- What the functions here read of one `ngx_http_wasm_conf_t`. -/
structure LevelConf where
  bufferSize : Nat
  fuelLimit : Nat
  timesliceFuel : Nat

/-- The configuration of a request: of its server, of its location, and the hooks that are set. -/
structure Conf where
  /-- `wmcf->runtime` is there. -/
  runtimeSet : Bool
  /-- Its engine and its linker are there. -/
  runtimeReady : Bool
  set : Hook → Bool
  moduleLoaded : Hook → Bool
  srv : LevelConf
  loc : LevelConf

/-- The level whose configuration the handler of a hook passes to `run_phase`. -/
def Conf.level (conf : Conf) : Hook → LevelConf
  | .serverRewrite => conf.srv
  | .rewrite | .content => conf.loc

/-- The limit of `request_body_handler`: the location's, or the server's where that is zero. -/
def Conf.handlerLimit (conf : Conf) : Nat :=
  if conf.loc.bufferSize = 0 then conf.srv.bufferSize else conf.loc.bufferSize

/-! ## State -/

/-- What the client sends: the header fields that announce the body, and the body in the buffers
nginx reads it into, or in a temporary file. -/
structure Client where
  contentLengthN : Int
  chunked : Bool
  bufs : List Bytes
  tempFile : Bool

/-- The body as the client sent it. -/
def Client.body (client : Client) : Bytes := client.bufs.flatten

/-- A request without a body announces none. -/
def Client.WellFormed (client : Client) : Prop :=
  client.contentLengthN ≤ 0 → client.chunked = false → client.body = []

/-- The fields of `ngx_http_wasm_abi_ctx_t` that are used here. -/
structure Abi where
  /-- `request_body`, if `request_body_set`. -/
  requestBody : Option Bytes := none
  statusSet : Bool := false
  bodySet : Bool := false
  contentTypeSet : Bool := false
  responseSent : Bool := false

/-- `ctx->exec`: the hook it is bound to, what the imports work on, and the runtime's part. -/
structure Exec where
  conf : Option Hook
  abi : Abi
  machine : Machine

/-- `ngx_http_wasm_ctx_t`. -/
structure Ctx where
  exec : Exec
  execCompleted : Bool := false
  waiting : Bool := false
  bodyReading : Bool := false
  bodyReady : Bool := false
  bodyAsync : Bool := false
  bodyStatus : Rc := .ok
  /-- `subrequest.active`. -/
  subrequestActive : Bool := false

/-- The `write_event_handler` of a request. -/
inductive WriteHandler where
  | empty
  | runPhases
  | resume
  deriving Repr, DecidableEq

/-- An `ngx_http_request_t`. -/
structure Req where
  contentLengthN : Int
  chunked : Bool
  bufs : List Bytes
  tempFile : Bool
  /-- `main->count`. -/
  count : Int := 1
  /-- `request_body` has been allocated by a read. -/
  requestBody : Bool := false
  /-- `discard_body`: a body is still being thrown away. -/
  discardBody : Bool := false
  writeHandler : WriteHandler := .empty
  /-- How often the request stands in the list of posted requests. -/
  posted : Nat := 0
  /-- The phase engine is running, at the first of these hooks. -/
  engine : Bool := true
  position : List Hook := [.serverRewrite, .rewrite, .content]
  /-- nginx will call `request_body_handler` when the body has arrived. -/
  bodyPending : Bool := false
  /-- A guest is suspended: `resume_handler` is still to run. -/
  suspended : Bool := false
  /-- A final status has been passed to `ngx_http_finalize_request`. -/
  finalized : Bool := false
  /-- The last reference was dropped while a handler was still to run. -/
  freedEarly : Bool := false
  /-- The body each run of a guest found, latest first. -/
  views : List (Hook × Option Bytes) := []

/-- A request and its module context, if it has one. -/
structure State where
  req : Req
  ctx : Option Ctx

/-- The same while the module works on the context. -/
structure Frame where
  req : Req
  ctx : Ctx

def Frame.toState (f : Frame) : State := ⟨f.req, some f.ctx⟩

/-! ## What nginx and the guest decide -/

/-- How `ngx_http_read_client_request_body` goes: an error status, the body is there and the
handler is called at once, or it is called when the body has arrived. -/
inductive Read where
  | error (status : Nat)
  | inline
  | later
  deriving Repr, DecidableEq

/-- What `ngx_http_discard_request_body` does with a body: it fails, or leaves this much of
`content_length_n`, to be thrown away later or not. -/
inductive Discard where
  | error (status : Nat)
  | done (left : Int) (pending : Bool)
  deriving Repr, DecidableEq

/-- What `ngx_http_send_header` and the output filters return. -/
inductive Sent where
  | ok
  | again
  | error
  | http (status : Nat)
  deriving Repr, DecidableEq

def Sent.rc : Sent → Rc
  | .ok => .ok
  | .again => .again
  | .error => .error
  | .http status => .http status

/-- What is decided outside the module in one step. -/
structure Input where
  /-- The allocations of `get_or_create_ctx`. -/
  pcallocOk : Bool
  cleanupAddOk : Bool
  discard : Discard
  read : Read
  /-- The allocations of `store_request_body` and of `abi_req_set_body`. -/
  storeOk : Bool
  setBodyOk : Bool
  /-- What Wasmtime and the guest do in `runtime_run`. -/
  run : RunInput
  /-- The guest sets a status, a body, a content type. -/
  setsStatus : Bool
  setsBody : Bool
  setsContentType : Bool
  /-- `ngx_http_post_request` finds memory. -/
  postOk : Bool
  sendHeader : Sent
  headerOnly : Bool
  bufOk : Bool
  output : Sent

/-! ## References -/

/-- One reference is dropped; the last one frees the request. -/
def Req.drop (r : Req) : Req :=
  { r with
    count := r.count - 1
    freedEarly := r.freedEarly || (r.count ≤ 1 && (r.bodyPending || r.suspended)) }

/-- `ngx_http_finalize_request`. `NGX_DECLINED` passes the request on to the phase engine. -/
def Req.finalize (rc : Rc) (r : Req) : Req :=
  match rc with
  | .done => r.drop
  | .declined => { r with writeHandler := .runPhases, engine := true }
  | _ => { r.drop with finalized := true, engine := false }

/-! ## The request body -/

/-- `abi_req_set_body`, with the body as it is copied. -/
def reqSetBody (i : Input) (data : Bytes) (f : Frame) : Rc × Frame :=
  if !i.setBodyOk then (.internal, f)
  else (.ok, { f with ctx.exec.abi.requestBody := some data })

/-- `abi_req_get_body`: the status or length, and what is copied into the guest's buffer. -/
def reqGetBody (abi : Abi) (bufLen : Nat) : Int × Bytes :=
  match abi.requestBody with
  | none => (wasmNotFound, [])
  | some body => (body.length, body.take bufLen)

/-- The loop over the chain: the length added up, or `none` once it is above the limit. -/
def chainLength (limit : Nat) : List Bytes → Nat → Option Nat
  | [], len => some len
  | buf :: bufs, len =>
    if len + buf.length > limit then none else chainLength limit bufs (len + buf.length)

/-- `store_request_body`. -/
def storeRequestBody (limit : Nat) (i : Input) (f : Frame) : Rc × Frame :=
  if f.req.bufs.isEmpty then reqSetBody i [] f
  else if f.req.tempFile then (.internal, f)
  else
    match chainLength limit f.req.bufs 0 with
    | none => (.tooLarge, f)
    | some 0 => reqSetBody i [] f
    | some _ => if !i.storeOk then (.internal, f) else reqSetBody i f.req.bufs.flatten f

/-- The status `request_body_handler` comes to. -/
def handlerStatus (conf : Conf) (i : Input) (f : Frame) : Rc × Frame :=
  if conf.handlerLimit = 0 then (.internal, f) else storeRequestBody conf.handlerLimit i f

/-- `request_body_handler`, up to the test of `request_body_async`. -/
def requestBodyHandler (conf : Conf) (i : Input) (f : Frame) : Frame :=
  let r := handlerStatus conf i f
  { r.2 with ctx := { r.2.ctx with
      bodyStatus := r.1
      bodyReading := false
      bodyReady := r.1 = .ok } }

/-- `ngx_http_discard_request_body`: nothing to do without a body or where one has been read;
otherwise what has come in of it is gone. -/
def discardRequestBody (i : Input) (f : Frame) : Piece Frame Rc :=
  if f.req.requestBody || f.req.discardBody ||
      (f.req.contentLengthN ≤ 0 && !f.req.chunked) then .next f
  else
    match i.discard with
    | .error status => .ret (.http status) f
    | .done left pending =>
      .next { f with req := { f.req with
        contentLengthN := left
        discardBody := pending
        bufs := [] } }

/-- How a read goes that starts now: without a body left to read the handler is called at once. -/
def Req.read (r : Req) (i : Input) : Read :=
  if r.requestBody || r.discardBody then .inline else i.read

/-- `ngx_http_read_client_request_body`: it takes a reference, which an error gives back. -/
def readClientRequestBody (conf : Conf) (i : Input) (f : Frame) : Piece Frame Nat :=
  let read := f.req.read i
  let f := { f with req := { f.req with count := f.req.count + 1, requestBody := true } }
  match read with
  | .error status => .ret status { f with req.count := f.req.count - 1 }
  | .inline => .next (requestBodyHandler conf i f)
  | .later => .next { f with req := { f.req with bodyPending := true, writeHandler := .empty } }

/-- `prepare_request_body` from `request_body_reading = 1` on. -/
def readRequestBody (conf : Conf) (i : Input) (f : Frame) : Piece Frame Rc :=
  let f := { f with ctx := { f.ctx with bodyReading := true, bodyAsync := false, bodyStatus := .ok } }
  match readClientRequestBody conf i f with
  | .ret status f =>
    .ret (.http status) { f with ctx := { f.ctx with
      bodyReading := false
      bodyStatus := .http status } }
  | .next f =>
    let f := if !f.ctx.bodyReading then { f with req.count := f.req.count - 1 } else f
    if f.ctx.bodyStatus ≠ .ok then .ret f.ctx.bodyStatus f
    else if f.ctx.bodyReady then .next f
    else .ret .done { f with ctx.bodyAsync := true }

/-- `prepare_request_body`, which falls through where it returns `NGX_OK`. -/
def prepareRequestBody (conf : Conf) (hook : Hook) (i : Input) (f : Frame) : Piece Frame Rc :=
  let size := (conf.level hook).bufferSize
  if f.ctx.bodyStatus ≠ .ok then .ret f.ctx.bodyStatus f
  else if size = 0 then discardRequestBody i f
  else if f.ctx.bodyReady then .next f
  else if f.ctx.bodyReading then .ret .done f
  else if f.req.contentLengthN > size then .ret .tooLarge f
  else if f.req.contentLengthN ≤ 0 && !f.req.chunked then
    if (reqSetBody i [] f).1 ≠ .ok then .ret .internal f
    else .next { (reqSetBody i [] f).2 with ctx.bodyReady := true }
  else readRequestBody conf i f

end NgxWasm.Request
