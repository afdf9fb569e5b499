import NgxWasm.Abi.Ctx
import Mathlib.Logic.Function.Basic

/-!
# The response (`src/ngx_http_wasm_abi.c`)

The status and the body of a response wait in the ABI context; its headers go straight into
`headers_out`. `sendResponse` puts the two together and hands them to nginx.

* `setRespHeader` is the setter: `Content-Type` goes to its own field, a name with a slot by the slot
  (`respSetCachedHeader`, with the numbers that three of the slots bring along), any other by a search.
* `sendResponse` gives `headers_out` the status, the length and the content type, sends the header, and
  then hands on a buffer with the body or the special last buffer. What nginx returns for each is an
  argument; the filters behind it are not modelled.

`content_type_lowcase` and the hash of the content type are left out: no function here reads them.
-/

namespace NgxWasm.Abi

variable {V : Variables}

/-- The body of `ngx_http_wasm_abi_resp_set_status`. -/
def AbiCtx.setStatus (status : Int) (ctx : AbiCtx) : AbiCtx :=
  { ctx with status := status, statusSet := true }

/-- `ngx_http_wasm_abi_set_str`, with `copy`. -/
def setStr (data : Bytes) (r : Request V) : Bool × Request V :=
  ((r.pool.alloc data.length).1, { r with pool := (r.pool.alloc data.length).2 })

/-- The body of `ngx_http_wasm_abi_resp_write`, with `copy`, as the import calls it. -/
def writeBody (data : Bytes) (ctx : AbiCtx) (r : Request V) : Int × AbiCtx × Request V :=
  match setStr data r with
  | (false, r) => (wasmError, ctx, r)
  | (true, r) => (wasmOk, { ctx with body := data, bodySet := true, bodyIsBorrowed := false }, r)

/-! ## Headers -/

/-- A digit of `ngx_atoof`. -/
def atoofDigit (value : Nat) (c : UInt8) : Option Nat :=
  if 0x30 ≤ c ∧ c ≤ 0x39 then
    let next := value * 10 + (c.toNat - 0x30)
    if next < 2 ^ 63 then some next else none
  else none

/-- `ngx_atoof`: the number, or `NGX_ERROR`. -/
def atoof (line : Bytes) : Int :=
  if line = [] then -1
  else
    match line.foldlM atoofDigit 0 with
    | some n => n
    | none => -1

variable (parseHttpTime : Bytes → Int)

/-- The numbers that go with three of the slots. -/
def HeadersOut.derive (out : HeadersOut) (slot : Slot) (value : Bytes) : HeadersOut :=
  match slot with
  | .contentLength => { out with contentLengthN := if value ≠ [] then atoof value else -1 }
  | .date => { out with dateTime := if value ≠ [] then parseHttpTime value else -1 }
  | .lastModified => { out with lastModifiedTime := if value ≠ [] then parseHttpTime value else -1 }
  | _ => out

/-- The header of a slot, or a new one that the slot then points to. -/
def slotHeader (slot : Slot) (name : Bytes) (out : HeadersOut) (p : Pool) :
    Option Nat × HeadersOut × Pool :=
  match out.slots slot with
  | some i => (some i, out, p)
  | none =>
    match pushHeader name out.headers p with
    | (false, headers, p) => (none, { out with headers := headers }, p)
    | (true, headers, p) =>
      let i := headers.length - 1
      (some i, { out with headers := headers, slots := Function.update out.slots slot (some i) }, p)

/-- `ngx_http_wasm_abi_resp_set_cached_header`. -/
def respSetCachedHeader (name value : Bytes) (r : Request V) : Int × Request V :=
  if headerEq name "content-type" then
    match setStr value r with
    | (false, r) => (wasmError, r)
    | (true, r) =>
      (wasmOk, { r with
        headersOut := { r.headersOut with contentType := value, contentTypeLen := value.length } })
  else
    match respHeaderSlot name with
    | none => (wasmError, r)
    | some slot =>
      match slotHeader slot name r.headersOut r.pool with
      | (none, out, p) => (wasmError, { r with headersOut := out, pool := p })
      | (some i, out, p) =>
        let headers := out.headers.modify i fun h => { h with hash := 1 }
        match copyValue i value headers p with
        | (false, headers, p) =>
          (wasmError, { r with headersOut := { out with headers := headers }, pool := p })
        | (true, headers, p) =>
          (wasmOk, { r with
            headersOut := HeadersOut.derive parseHttpTime { out with headers := headers } slot value
            pool := p })

/-- The header with this name, or a new one. -/
def findOrPush (name : Bytes) (headers : List TableElt) (p : Pool) :
    Option Nat × List TableElt × Pool :=
  match findRespHeader name headers with
  | some i => (some i, headers, p)
  | none =>
    match pushHeader name headers p with
    | (false, headers, p) => (none, headers, p)
    | (true, headers, p) =>
      let i := headers.length - 1
      (some i, headers.modify i fun h => { h with hash := 1 }, p)

/-- The body of `ngx_http_wasm_abi_resp_set_header`. -/
def setRespHeader (name value : Bytes) (r : Request V) : Int × Request V :=
  if headerEq name "content-type" || (respHeaderSlot name).isSome then
    respSetCachedHeader parseHttpTime name value r
  else
    match findOrPush name r.headersOut.headers r.pool with
    | (none, headers, p) =>
      (wasmError, { r with headersOut := { r.headersOut with headers := headers }, pool := p })
    | (some i, headers, p) =>
      match copyValue i value headers p with
      | (ok, headers, p) =>
        (if ok then wasmOk else wasmError,
          { r with headersOut := { r.headersOut with headers := headers }, pool := p })

/-! ## Sending -/

/-- What nginx is handed. -/
inductive Handed where
  /-- `ngx_http_send_header`. -/
  | header (out : HeadersOut)
  /-- `ngx_http_send_special` with `NGX_HTTP_LAST`. -/
  | special
  /-- `ngx_http_output_filter` with one buffer. -/
  | output (body : Bytes) (lastBuf lastInChain : Bool)

/-- `sizeof(ngx_buf_t)`. -/
def bufSize : Nat := 80

/-- `ngx_http_wasm_abi_send_response`. `sendHeader` is what `ngx_http_send_header` returns, `send`
what the filters then return. -/
def sendResponse (sendHeader send : Int) (ctx : AbiCtx) (r : Request V) :
    Int × List Handed × AbiCtx × Request V :=
  if ctx.responseSent then (500, [], ctx, r)
  else
    let out := { r.headersOut with
      status := ctx.status
      contentLengthN := if ctx.bodySet then ctx.body.length else 0
      contentType := if ctx.contentTypeSet then ctx.contentType else ascii "text/plain" }
    let r := { r with headersOut := out }
    if sendHeader = -1 ∨ sendHeader > 0 ∨ r.headerOnly then (sendHeader, [.header out], ctx, r)
    else if !ctx.bodySet || ctx.body.length == 0 then
      (send, [.header out, .special], { ctx with responseSent := true }, r)
    else
      match r.pool.alloc bufSize with
      | (false, p) => (500, [.header out], ctx, { r with pool := p })
      | (true, p) =>
        (send, [.header out, .output ctx.body r.isMain true], { ctx with responseSent := true },
          { r with pool := p })

end NgxWasm.Abi
