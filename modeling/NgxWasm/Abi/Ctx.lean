import NgxWasm.Nginx

/-!
# The ABI context and the request (`src/ngx_http_wasm_abi.c`)

The data behind the guest's imports: the ABI context of a run, the header lists of the request with
the cached slots of `headers_out`, and the pool of the request. Which allocations succeed is up to
the pool (`Pool`), so every error path after one is part of the model.

* **Headers** are lists of `TableElt` in the order of the `ngx_list_t`; its parts are in `Lib.Parts`,
  and the addresses of a list that is copied in `Abi.Cloned`. A slot of `headers_out` holds the place
  of its header in the list, where the source holds a pointer.
* **Names** of headers are compared as nginx does: without case, up to the first zero byte
  (`sameName`). The lookup of a slot is the source's switch on the length of the name
  (`respHeaderSlot`), with the literals under the lengths where they stand there.
* **The subrequest record** of the module context is a field of the request (`SubrequestState`), and
  a subrequest is known by its place among those that nginx accepted.

Of the ABI context all fields are here but its version, which no function reads, and the pointers to
the request, the connection and the zones, which `Abi.Calls` has in the host.
-/

namespace NgxWasm.Abi

/-! ## Capabilities -/

def capReqHeadersRw : UInt64 := 0x0001
def capReqHeadersRo : UInt64 := 0x0002
def capReqBodyGet : UInt64 := 0x0004
def capRespStatusSet : UInt64 := 0x0008
def capRespHeadersRw : UInt64 := 0x0010
def capRespBodyWrite : UInt64 := 0x0020
def capYield : UInt64 := 0x0040
def capRespBodyChunkRead : UInt64 := 0x0080
def capRespBodyChunkWrite : UInt64 := 0x0100
def capRespStatusGet : UInt64 := 0x0200
def capSslServerNameGet : UInt64 := 0x0400
def capSslHandshakeReject : UInt64 := 0x0800
def capSslCertificateSet : UInt64 := 0x1000
def capSharedKv : UInt64 := 0x2000
def capMetrics : UInt64 := 0x4000
def capSubrequest : UInt64 := 0x8000
def capBalancer : UInt64 := 0x10000
def capVarGet : UInt64 := 0x20000
def capVarSet : UInt64 := 0x40000
def capTime : UInt64 := 0x80000

/-! ## The pool -/

/-- The pool of a request. Its `n`-th allocation of `size` bytes succeeds if `grants n size`.

A push onto a list or an array counts as one allocation of an element. nginx asks its pool only when
a part of the list or the array is full, and a second time when it makes an array. Nothing is assumed
of the answers, so a pool that grants where nginx does not ask, and refuses at the next push where
one of nginx's two requests fails, is among those a result is about. -/
structure Pool where
  grants : Nat → Nat → Bool
  next : Nat

/-- `ngx_pnalloc`. -/
def Pool.alloc (size : Nat) (p : Pool) : Bool × Pool :=
  (p.grants p.next size, { p with next := p.next + 1 })

/-- The pool `n` allocations later. -/
def Pool.after (n : Nat) (p : Pool) : Pool := ⟨p.grants, p.next + n⟩

theorem Pool.eq_after {p p' : Pool} {size : Nat} {ok : Bool} (h : p.alloc size = (ok, p')) :
    p' = p.after 1 := (congrArg Prod.snd h).symm

/-- A pool that grants allocations of these sizes, one after the other. -/
def Pool.grantsAll : List Nat → Pool → Bool
  | [], _ => true
  | size :: sizes, p => (p.alloc size).1 && (p.alloc size).2.grantsAll sizes

/-- `sizeof(ngx_table_elt_t)`. -/
def tableEltSize : Nat := 56

/-! ## Headers -/

/-- `ngx_tolower`. -/
def toLower (c : UInt8) : UInt8 := if 0x41 ≤ c ∧ c ≤ 0x5a then c ||| 0x20 else c

/-- What `ngx_strncasecmp` sees of a string. -/
def lowcase (s : Bytes) : Bytes := (s.map toLower).takeWhile (· ≠ 0)

/-- Two strings of one length that `ngx_strncasecmp` calls equal. -/
def sameName (a b : Bytes) : Bool := a.length == b.length && lowcase a == lowcase b

/-- The bytes of an ASCII literal. -/
def ascii (s : String) : Bytes := s.toList.map fun c => c.toNat.toUInt8

/-- `ngx_http_wasm_abi_header_eq`. -/
def headerEq (name : Bytes) (literal : String) : Bool := sameName name (ascii literal)

/-- `ngx_hash_strlow`. -/
def hashStrlow (s : Bytes) : UInt64 :=
  s.foldl (fun (key : UInt64) c => key * 31 + (toLower c).toUInt64) 0

/-- `ngx_table_elt_t`. -/
structure TableElt where
  hash : UInt64 := 0
  key : Bytes := []
  value : Bytes := []
  lowcaseKey : Bytes := []
  deriving DecidableEq

/-- The fields of `ngx_http_headers_out_t` that cache a header of the list. -/
inductive Slot where
  | date
  | etag
  | link
  | server
  | expires
  | refresh
  | location
  | cacheControl
  | contentLength
  | contentRange
  | lastModified
  | acceptRanges
  | contentEncoding
  | wwwAuthenticate
  | proxyAuthenticate
  deriving Repr, DecidableEq

/-- `ngx_http_headers_out_t`. A slot holds the place of its header in the list. -/
structure HeadersOut where
  status : Int := 0
  headers : List TableElt := []
  slots : Slot → Option Nat := fun _ => none
  contentType : Bytes := []
  contentTypeLen : Nat := 0
  contentLengthN : Int := -1
  dateTime : Int := -1
  lastModifiedTime : Int := -1

/-- `ngx_http_wasm_abi_resp_header_slot`. The switch is on the length of the name. -/
def respHeaderSlot (name : Bytes) : Option Slot :=
  match name.length with
  | 4 =>
    if headerEq name "date" then some .date
    else if headerEq name "etag" then some .etag
    else if headerEq name "link" then some .link
    else none
  | 6 => if headerEq name "server" then some .server else none
  | 7 =>
    if headerEq name "expires" then some .expires
    else if headerEq name "refresh" then some .refresh
    else none
  | 8 => if headerEq name "location" then some .location else none
  | 13 => if headerEq name "cache-control" then some .cacheControl else none
  | 14 =>
    if headerEq name "content-length" then some .contentLength
    else if headerEq name "content-range" then some .contentRange
    else if headerEq name "last-modified" then some .lastModified
    else none
  | 15 => if headerEq name "accept-ranges" then some .acceptRanges else none
  | 16 => if headerEq name "content-encoding" then some .contentEncoding else none
  | 17 => if headerEq name "www-authenticate" then some .wwwAuthenticate else none
  | 18 => if headerEq name "proxy-authenticate" then some .proxyAuthenticate else none
  | _ => none

/-- `ngx_http_wasm_abi_find_header`, in `headers_in`. -/
def findHeader (name : Bytes) (headers : List TableElt) : Option Nat :=
  headers.findIdx? fun h => sameName h.key name

/-- `ngx_http_wasm_abi_find_resp_header`, in `headers_out`. -/
def findRespHeader (name : Bytes) (headers : List TableElt) : Option Nat :=
  headers.findIdx? fun h => h.hash != 0 && sameName h.key name

/-- `ngx_http_wasm_abi_copy_bytes` into the value of a header. -/
def copyValue (i : Nat) (value : Bytes) (headers : List TableElt) (p : Pool) :
    Bool × List TableElt × Pool :=
  match p.alloc value.length with
  | (true, p) => (true, headers.modify i fun h => { h with value := value }, p)
  | (false, p) => (false, headers, p)

/-- A new header: `ngx_list_push`, `ngx_memzero` and `ngx_http_wasm_abi_copy_bytes` of its key. -/
def pushHeader (name : Bytes) (headers : List TableElt) (p : Pool) :
    Bool × List TableElt × Pool :=
  match p.alloc tableEltSize with
  | (false, p) => (false, headers, p)
  | (true, p) =>
    match p.alloc name.length with
    | (false, p) => (false, headers ++ [{}], p)
    | (true, p) => (true, headers ++ [{ key := name }], p)

/-- A header of `headers_in` is set: the body of `ngx_http_wasm_abi_req_set_header` and of
`ngx_http_wasm_abi_subrequest_set_runtime_header`. -/
def setHeaderIn (name value : Bytes) (headers : List TableElt) (p : Pool) :
    Bool × List TableElt × Pool :=
  match findHeader name headers with
  | some i => copyValue i value headers p
  | none =>
    match pushHeader name headers p with
    | (false, headers, p) => (false, headers, p)
    | (true, headers, p) =>
      match p.alloc name.length with
      | (false, p) => (false, headers, p)
      | (true, p) =>
        let i := headers.length - 1
        let headers := headers.modify i fun h =>
          { h with hash := hashStrlow name, lowcaseKey := name.map toLower }
        copyValue i value headers p

/-! ## The contexts -/

/-- `ngx_http_wasm_abi_ctx_t` without its pointers. -/
structure AbiCtx where
  capabilities : UInt64
  statusSet : Bool := false
  bodySet : Bool := false
  bodyIsBorrowed : Bool := false
  contentTypeSet : Bool := false
  responseSent : Bool := false
  requestBodySet : Bool := false
  respBodyChunkSet : Bool := false
  respBodyChunkOutputSet : Bool := false
  respBodyChunkEof : Bool := false
  sslHandshakeRejected : Bool := false
  balancerPeerSet : Bool := false
  balancerPeerIndex : UInt64 := 0
  /-- `NGX_HTTP_OK`. -/
  status : Int := 200
  /-- `SSL_AD_HANDSHAKE_FAILURE`. -/
  sslHandshakeAlert : Int := 40
  body : Bytes := []
  contentType : Bytes := []
  requestBody : Bytes := []
  respBodyChunk : Bytes := []
  respBodyChunkOutput : Bytes := []
  deriving DecidableEq

/-- `ngx_http_wasm_abi_init`. -/
def abiInit (capabilities : UInt64) : AbiCtx := { capabilities := capabilities }

/-! ## The request -/

/-- `ngx_http_wasm_subrequest_state_t` without its `request`. A subrequest is known by its place
among those that nginx accepted. -/
structure SubrequestState where
  subrequest : Option Nat := none
  pendingHeaders : Option (List (Bytes × Bytes)) := none
  captureBody : Bool := false
  active : Bool := false
  done : Bool := false
  rc : Int := 0
  bodyLimit : Nat := 0
  deriving DecidableEq

/-- A subrequest that nginx accepted: what the launch writes to it, and its response. -/
structure Subrequest where
  uri : Bytes
  args : Option Bytes
  method : UInt64
  methodName : String
  headerOnly : Bool
  inMemory : Bool
  headersIn : List TableElt
  headersOut : HeadersOut
  /-- The buffer of `out`. -/
  out : Option Bytes

/-- `ngx_http_variable_t`, as far as `ngx_http_wasm_abi_var_set` reads it. -/
structure Variable where
  changeable : Bool
  indexed : Bool
  hasSetHandler : Bool

/-- The variables of a request: what nginx and its modules do with them. -/
structure Variables where
  State : Type
  /-- `ngx_http_get_variable`: `NULL`, a variable that is not found, or a value. -/
  get : Bytes → State → Option (Option Bytes) × State
  /-- The variable in `variables_hash` or `prefix_variables`. -/
  find : Bytes → State → Option Variable
  /-- The variable's `set_handler`. -/
  setHandler : Bytes → Bytes → State → State
  /-- `r->variables[index] = vv`. -/
  setIndexed : Bytes → Bytes → State → State

/-- `ngx_http_request_t`, with the subrequest state of its module context, if it has one. -/
structure Request (V : Variables) where
  headersIn : List TableElt
  headersOut : HeadersOut
  vars : V.State
  pool : Pool
  headerOnly : Bool
  /-- `r == r->main`. -/
  isMain : Bool
  /-- `r->upstream != NULL`. -/
  upstream : Bool
  subrequestBufferSize : Nat
  state : Option SubrequestState
  accepted : List Subrequest

end NgxWasm.Abi
