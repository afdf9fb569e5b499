import NgxWasm.Abi.Headers
import NgxWasm.Abi.Imports
import NgxWasm.Lib.Run

/-!
# The response a guest describes (`src/ngx_http_wasm_abi.c`)

A guest describes its response by calls: the last status, the last body, and for each header the last
value. `Told` keeps just that, and `response_described_iff` compares it with what
`ngx_http_wasm_abi_send_response` hands to nginx, over any calls of any runs of the request.

`Content-Type` is the exception: a guest that sets it writes `headers_out.content_type`, which
the response then overwrites with `text/plain`. And a `Content-Length` of the guest stays in the list
next to the length of the body.

A run of the request is a list of events: a run of a guest begins, a guest calls, or something else
changes the host, which leaves the response alone (`Succeeds`; it also asks that the calls that describe
the response succeed). `AsTold` is what nginx is to be handed: the status, the last value wherever a
name that was set stands in the list, the length of the body, and, if nginx goes on after the header,
the whole body in one piece.

* `exec_keeps`: of all calls only three touch the response.
* `follows_run`: over any run the response follows what was said.
* `handed_eq`: what is handed to nginx, with the one allocation that may fail on the way.
* `response_described_iff`: it is what was told, exactly if no other `Content-Type` was set, a
  `Content-Length` is right, and there is memory for the buffer of a body that nginx wants.

The filters that nginx runs the response through are not modelled.
-/

namespace NgxWasm.Abi

open Lib

/-! ## What the guest says -/

/-- What happens to a request: a run begins, its guest calls, and in between anything else. -/
inductive Event (W : World) where
  | begin (phase : Runtime.Phase)
  | call (now : Clock) (m : Mem) (c : AbiCall)
  /-- nginx, other modules, and guests of other requests. -/
  | elsewhere (f : Host W → Host W)

/-- What the guest of a run has said, and which headers the guests of the request have set. -/
structure Told where
  status : Int := 200
  body : Bytes := []
  header : Bytes → Option Bytes := fun _ => none
  everHeader : Bytes → Option Bytes := fun _ => none

/-- A header is given a value. -/
def give (name value : Bytes) (header : Bytes → Option Bytes) (other : Bytes) : Option Bytes :=
  if sameName name other then some value else header other

variable {W : World}

def Told.hear (told : Told) : Event W → Told
  | .begin _ => { told with status := 200, body := [], header := fun _ => none }
  | .call _ _ (.respSetStatus status) => { told with status := status }
  | .call _ m (.respWrite data) => { told with body := m.read data }
  | .call _ m (.respSetHeader name value) =>
    { told with
      header := give (m.read name) (m.read value) told.header
      everHeader := give (m.read name) (m.read value) told.everHeader }
  | _ => told

/-- What the events said. -/
def heard (events : List (Event W)) : Told := events.foldl Told.hear {}

/-! ## What happens -/

def Host.step (h : Host W) : Event W → Host W
  | .begin phase => h.withAbi (abiInit (phaseCapabilities phase))
  | .call now m c => (c.exec now h m).host
  | .elsewhere f => f h

/-- What the response is made of. -/
structure Response where
  status : Int
  bodySet : Bool
  body : Bytes
  contentTypeSet : Bool
  responseSent : Bool
  out : Option HeadersOut

def Host.response (h : Host W) : Response :=
  ⟨h.abi.status, h.abi.bodySet, h.abi.body, h.abi.contentTypeSet, h.abi.responseSent,
    h.request.map Request.headersOut⟩

/-- The calls that describe a response. -/
def AbiCall.describes : AbiCall → Bool
  | .respSetStatus _ | .respSetHeader _ _ | .respWrite _ => true
  | _ => false

/-- Calls that describe the response succeed, and nothing but calls changes it. -/
def Succeeds (h : Host W) : Event W → Prop
  | .begin _ => True
  | .call now m c => c.describes = true → (c.exec now h m).outcome = .ret 0
  | .elsewhere f => (f h).response = h.response

/-- The host of a new request. -/
def Host.serving (h : Host W) (r : Request W.vars) (phase : Runtime.Phase) : Host W :=
  { h with abi := abiInit (phaseCapabilities phase), request := some { r with headersOut := {} } }

/-- What `ngx_http_wasm_abi_send_response` hands to nginx. -/
def Host.handed (sendHeader send : Int) (h : Host W) : List Handed :=
  match h.request with
  | some r => (sendResponse sendHeader send h.abi r).2.1
  | none => []

/-- nginx goes on after the header: it was sent, and the request wants more than a header. -/
def Host.goesOn (sendHeader : Int) (h : Host W) : Bool :=
  sendHeader != -1 && !decide (0 < sendHeader) && !h.request.any Request.headerOnly

/-- There is memory for the buffer of the body. -/
def Host.bufferFits (h : Host W) : Bool := h.request.any fun r => (r.pool.alloc bufSize).1

/-- The bytes of the body in what nginx is handed: the special buffer is an empty one. -/
def Handed.bytes : Handed → Option Bytes
  | .header _ => none
  | .special => some []
  | .output body _ _ => some body

/-- The response a guest described. If nginx goes on after the header, the whole body follows in one
piece, otherwise nothing does. -/
structure AsTold (told : Told) (goesOn : Bool) (out : HeadersOut) (rest : List Handed) : Prop where
  status : out.status = told.status
  body : if goesOn then ∃ e, rest = [e] ∧ e.bytes = some told.body else rest = []
  contentType : out.contentType = (told.header (ascii "content-type")).getD (ascii "text/plain")
  header : ∀ name value, told.header name = some value → headerEq name "content-type" = false →
    (∃ elt ∈ out.headers, elt.hash ≠ 0 ∧ sameName elt.key name = true ∧ elt.value = value) ∧
      ∀ elt ∈ out.headers, elt.hash ≠ 0 → sameName elt.key name = true → elt.value = value
  length : out.contentLengthN = told.body.length
  lengthHeader : ∀ elt ∈ out.headers, elt.hash ≠ 0 → headerEq elt.key "content-length" = true →
    atoof elt.value = told.body.length

/-! ## The other calls -/

/-- A call that keeps the response. -/
def Keeps (h : Host W) (r : Result W) : Prop := r.host.response = h.response

section Keeps

variable {h : Host W} {m : Mem}

theorem keeps_require {cap : UInt64} {body : Result W} (hb : Keeps h body) :
    Keeps h (h.require m cap body) := by
  unfold Host.require
  split
  · rfl
  · exact hb

theorem response_withRequest {r r' : Request W.vars} (hr : h.request = some r)
    (hout : r'.headersOut = r.headersOut) : (h.withRequest r').response = h.response := by
  unfold Host.response
  rw [hr]
  exact congrArg (fun out => (⟨h.abi.status, h.abi.bodySet, h.abi.body, h.abi.contentTypeSet,
    h.abi.responseSent, some out⟩ : Response)) hout

theorem keeps_deref {f : Request W.vars → Result W}
    (hf : ∀ r, h.request = some r → Keeps h (f r)) : Keeps h (h.deref m f) := by
  unfold Host.deref
  split
  · rename_i r hr
    exact hf r hr
  · rfl

theorem keeps_onRequest {f : Request W.vars → Int × Request W.vars}
    (hf : ∀ r, (f r).2.headersOut = r.headersOut) : Keeps h (h.onRequest m f) :=
  keeps_deref fun r hr => response_withRequest hr (hf r)

theorem keeps_onShm {op : Shm.Op} {buf : Slice} {now : Clock} : Keeps h (onShm op buf now h m) := by
  refine keeps_require ?_
  split <;> rfl

theorem keeps_onMetrics {op : Metrics.Zone W.slab → Int × Metrics.Zone W.slab} :
    Keeps h (onMetrics op h m) := by
  refine keeps_require ?_
  split <;> rfl

theorem keeps_onSubrequest {f : Request W.vars → Int × Request W.vars}
    (hf : ∀ r, (f r).2.headersOut = r.headersOut) : Keeps h (onSubrequest f h m) := by
  refine keeps_require ?_
  split
  · rfl
  · rename_i r hr
    exact response_withRequest hr (hf r)

theorem keeps_readsSubrequest {f : Request W.vars → Int × Bytes} {buf : Slice} :
    Keeps h (readsSubrequest f buf h m) := by
  refine keeps_require ?_
  split <;> rfl

theorem keeps_time {value : UInt64} {buf : Slice} : Keeps h (time value buf h m) := by
  refine keeps_require ?_
  split <;> rfl

theorem keeps_log {level : UInt64} {data : Slice} : Keeps h (Abi.log level data h m) := by
  unfold Abi.log
  split <;> rfl

theorem keeps_sslGetServerName {buf : Slice} : Keeps h (sslGetServerName buf h m) := by
  refine keeps_require ?_
  split <;> rfl

theorem keeps_sslSetCertificate {cert key : Slice} : Keeps h (sslSetCertificate cert key h m) := by
  refine keeps_require ?_
  split
  · rfl
  · split
    · rfl
    · split
      · rfl
      · split
        · rfl
        · split
          · rfl
          · split <;> rfl

theorem keeps_reqSetHeader {name value : Slice} : Keeps h (reqSetHeader name value h m) := by
  refine keeps_require ?_
  split
  · rfl
  · exact keeps_onRequest fun r => rfl

theorem keeps_reqGetHeader {name buf : Slice} : Keeps h (reqGetHeader name buf h m) := by
  refine keeps_require ?_
  split
  · rfl
  · refine keeps_deref fun r _ => ?_
    split <;> rfl

theorem keeps_reqGetBody {buf : Slice} : Keeps h (reqGetBody buf h m) := by
  refine keeps_require ?_
  split <;> rfl

theorem keeps_varGet {name buf : Slice} : Keeps h (varGet name buf h m) := by
  refine keeps_require ?_
  split
  · rfl
  · rename_i r hr
    split
    · rfl
    · split
      · exact response_withRequest hr rfl
      · dsimp only
        split
        · exact response_withRequest hr rfl
        · exact response_withRequest hr rfl
        · exact response_withRequest hr rfl

theorem findVariable_headersOut (name : Bytes) (r : Request W.vars) :
    (findVariable name r).2.headersOut = r.headersOut := by
  unfold findVariable
  split <;> rfl

theorem keeps_varSet {name value : Slice} : Keeps h (varSet name value h m) := by
  refine keeps_require ?_
  split
  · rfl
  · rename_i r hr
    split
    · rfl
    · have hfind := findVariable_headersOut (m.read name) r
      split
      · rename_i r' heq
        rw [heq] at hfind
        exact response_withRequest hr hfind
      · rename_i var r' heq
        rw [heq] at hfind
        have hout : r'.headersOut = r.headersOut := hfind
        split
        · exact response_withRequest hr hout
        · split
          · exact response_withRequest hr hout
          · dsimp only
            split
            · exact response_withRequest hr hout
            · split
              · exact response_withRequest hr hout
              · exact response_withRequest hr hout

theorem keeps_balancerSetPeer {index : UInt64} : Keeps h (balancerSetPeer index h m) := by
  refine keeps_require ?_
  split
  · rfl
  · split <;> rfl

theorem keeps_respGetStatus : Keeps h (respGetStatus h m) :=
  keeps_require (keeps_deref fun _ _ => rfl)

theorem keeps_respGetHeader {name buf : Slice} : Keeps h (respGetHeader name buf h m) := by
  refine keeps_require ?_
  split
  · rfl
  · refine keeps_deref fun r _ => ?_
    split <;> rfl

theorem keeps_respGetBodyChunk {buf : Slice} : Keeps h (respGetBodyChunk buf h m) := by
  refine keeps_require ?_
  split <;> rfl

theorem keeps_respGetBodyChunkEof : Keeps h (respGetBodyChunkEof h m) := by
  refine keeps_require ?_
  split <;> rfl

theorem keeps_respSetBodyChunk {data : Slice} : Keeps h (respSetBodyChunk data h m) := by
  refine keeps_require (keeps_deref fun r hr => ?_)
  unfold setStr
  split
  · rename_i heq
    obtain ⟨-, rfl⟩ := Prod.mk.inj heq
    exact response_withRequest hr rfl
  · rename_i heq
    obtain ⟨-, rfl⟩ := Prod.mk.inj heq
    exact response_withRequest hr rfl

theorem subrequestSetHeader_headersOut (name value : Bytes) (r : Request W.vars) :
    (subrequestSetHeader name value r).2.headersOut = r.headersOut := by
  unfold subrequestSetHeader
  split
  · rfl
  · split
    · rfl
    · split
      · rfl
      · dsimp only
        split
        · rfl
        · split
          · rfl
          · split
            · rfl
            · split <;> rfl

theorem launch_headersOut (st : SubrequestState) (sr : Subrequest) (r : Request W.vars) :
    (launch st sr r).2.headersOut = r.headersOut := by
  unfold launch
  split
  · rfl
  · dsimp only
    split
    · rfl
    · rfl
    · split <;> rfl

theorem subrequest_headersOut (uri args : Bytes) (method options : UInt64) (r : Request W.vars) :
    (subrequest uri args method options r).2.headersOut = r.headersOut := by
  unfold subrequest
  split
  · rfl
  · split
    · rfl
    · split
      · rfl
      · split
        · rfl
        · split
          · rfl
          · dsimp only
            split
            · rfl
            · split
              · rfl
              · exact launch_headersOut _ _ _

/-- **Only three calls touch the response.** -/
theorem exec_keeps {now : Clock} {c : AbiCall} (hc : c.describes = false) :
    Keeps h (c.exec now h m) := by
  cases c
  case respSetStatus | respSetHeader | respWrite => cases hc
  case log => exact keeps_log
  case sslGetServerName => exact keeps_sslGetServerName
  case sslRejectHandshake => exact keeps_require rfl
  case sslSetCertificate => exact keeps_sslSetCertificate
  case reqSetHeader => exact keeps_reqSetHeader
  case reqGetHeader => exact keeps_reqGetHeader
  case reqGetBody => exact keeps_reqGetBody
  case varGet => exact keeps_varGet
  case varSet => exact keeps_varSet
  case timeUnixMs | timeMonotonicMs => exact keeps_time
  case balancerSetPeer => exact keeps_balancerSetPeer
  case respGetStatus => exact keeps_respGetStatus
  case respGetHeader => exact keeps_respGetHeader
  case respGetBodyChunk => exact keeps_respGetBodyChunk
  case respGetBodyChunkEof => exact keeps_respGetBodyChunkEof
  case respSetBodyChunk => exact keeps_respSetBodyChunk
  case metricCounterInc | metricGaugeSet | metricGaugeAdd =>
    simp only [AbiCall.exec, metricCounterInc, metricGaugeSet, metricGaugeAdd]
    exact keeps_onMetrics
  case shmGet | shmExists | shmIncr | shmSet | shmSetEx | shmAdd | shmReplace | shmDelete =>
    simp only [AbiCall.exec, shmGet, shmExists, shmIncr, shmSet, shmSetEx, shmAdd, shmReplace,
      shmDelete]
    exact keeps_onShm
  case subreqSetHeader => exact keeps_onSubrequest fun r => subrequestSetHeader_headersOut _ _ r
  case subreq => exact keeps_onSubrequest fun r => subrequest_headersOut _ _ _ _ r
  case subreqGetStatus | subreqGetHeader | subreqGetBody | subreqGetBodyLen =>
    exact keeps_readsSubrequest
  case yield => rfl

end Keeps

/-! ## Calls and what they say -/

/-- The response so far is what the guests have said. -/
structure Follows (told : Told) (res : Response) : Prop where
  status : res.status = told.status
  body : (if res.bodySet then res.body else []) = told.body
  contentTypeSet : res.contentTypeSet = false
  responseSent : res.responseSent = false
  out : ∃ out, res.out = some out ∧ Tidy out ∧ ∀ name, headerEq name "content-type" = false →
    lookup name out.headers = told.everHeader name
  ever : ∀ name value, told.header name = some value → told.everHeader name = some value

theorem ofInt_wasmError : Int32.ofInt wasmError ≠ 0 := by decide

/-- A call that succeeds has its capability. -/
theorem require_ok {h : Host W} {m : Mem} {cap : UInt64} {body : Result W}
    (hok : (h.require m cap body).outcome = .ret 0) : h.require m cap body = body := by
  revert hok
  unfold Host.require
  split
  · intro hok
    exact absurd (Outcome.ret.inj hok) ofInt_wasmError
  · exact fun _ => rfl

theorem give_ever {name value : Bytes} {header ever : Bytes → Option Bytes}
    (h : ∀ n v, header n = some v → ever n = some v) :
    ∀ n v, give name value header n = some v → give name value ever n = some v := by
  intro n v hg
  unfold give at hg ⊢
  split
  · rwa [if_pos (by assumption)] at hg
  · rw [if_neg (by assumption)] at hg
    exact h n v hg

theorem respSetStatus_follows {told : Told} {h : Host W} {m : Mem} {status : Int}
    (hf : Follows told h.response) (hok : (respSetStatus status h m).outcome = .ret 0) :
    Follows { told with status := status } (respSetStatus status h m).host.response := by
  unfold respSetStatus at hok ⊢
  rw [require_ok hok]
  exact { hf with status := rfl }

theorem respWrite_follows {told : Told} {h : Host W} {m : Mem} {data : Slice}
    (hf : Follows told h.response) (hok : (respWrite data h m).outcome = .ret 0) :
    Follows { told with body := m.read data } (respWrite data h m).host.response := by
  unfold respWrite at hok ⊢
  rw [require_ok hok]
  rw [require_ok hok] at hok
  obtain ⟨out, hout, htidy⟩ := hf.out
  obtain ⟨r, hr, rfl⟩ := Option.map_eq_some_iff.mp hout
  revert hok
  unfold Host.deref
  rw [hr]
  dsimp only [writeBody, setStr]
  cases (r.pool.alloc (m.read data).length).1 with
  | false => exact fun hok => absurd (Outcome.ret.inj hok) ofInt_wasmError
  | true =>
    intro _
    exact { hf with
      body := rfl
      out := ⟨r.headersOut, rfl, htidy⟩ }

theorem respSetHeader_follows {told : Told} {h : Host W} {m : Mem} {name value : Slice}
    (hf : Follows told h.response) (hok : (respSetHeader name value h m).outcome = .ret 0) :
    Follows { told with
        header := give (m.read name) (m.read value) told.header
        everHeader := give (m.read name) (m.read value) told.everHeader }
      (respSetHeader name value h m).host.response := by
  unfold respSetHeader at hok ⊢
  rw [require_ok hok]
  rw [require_ok hok] at hok
  obtain ⟨out, hout, htidy, hlookup⟩ := hf.out
  obtain ⟨r, hr, rfl⟩ := Option.map_eq_some_iff.mp hout
  revert hok
  split
  · exact fun hok => absurd (Outcome.ret.inj hok) ofInt_wasmError
  · unfold Host.onRequest Host.deref
    rw [hr]
    intro hok
    have hrc : (setRespHeader W.parseHttpTime (m.read name) (m.read value) r).1 = wasmOk := by
      refine (setRespHeader_rc W.parseHttpTime (m.read name) (m.read value) r).resolve_right ?_
      intro herr
      have hret : Int32.ofInt
          (setRespHeader W.parseHttpTime (m.read name) (m.read value) r).1 = 0 := Outcome.ret.inj hok
      rw [herr] at hret
      exact ofInt_wasmError hret
    refine { hf with
      out := ⟨_, rfl, ?_⟩
      ever := give_ever hf.ever }
    cases hn : headerEq (m.read name) "content-type" with
    | true =>
      obtain ⟨hheaders, hslots⟩ := setRespHeader_type W.parseHttpTime (m.read value) r hn
      refine ⟨htidy.of_eq hheaders hslots, fun other ho => ?_⟩
      have hne : ¬ sameName (m.read name) other = true := by
        intro hs
        rw [headerEq, ← sameName_congr hs] at ho
        exact Bool.false_ne_true (ho.symm.trans hn)
      rw [hheaders, hlookup other ho]
      exact (if_neg hne).symm
    | false =>
      obtain ⟨hheaders, htidy'⟩ := setRespHeader_header htidy hn hrc
      refine ⟨htidy', fun other ho => ?_⟩
      rw [hheaders, lookup_upsert, hlookup other ho]
      rfl

/-- **One event**: the response follows what is said. -/
theorem follows_step {told : Told} {h : Host W} {e : Event W} (hf : Follows told h.response)
    (hok : Succeeds h e) : Follows (told.hear e) (h.step e).response := by
  cases e with
  | begin phase =>
    exact
      { status := rfl
        body := rfl
        contentTypeSet := rfl
        responseSent := rfl
        out := hf.out
        ever := nofun }
  | elsewhere f =>
    have hkeep : (f h).response = h.response := hok
    unfold Host.step Told.hear
    rwa [hkeep]
  | call now m c =>
    cases hc : c.describes with
    | false =>
      have hkeep : (h.step (.call now m c)).response = h.response := exec_keeps hc
      rw [hkeep]
      cases c
      case respSetStatus | respSetHeader | respWrite => cases hc
      all_goals exact hf
    | true =>
      have hret := hok hc
      cases c
      case respSetStatus status => exact respSetStatus_follows hf hret
      case respSetHeader name value => exact respSetHeader_follows hf hret
      case respWrite data => exact respWrite_follows hf hret
      all_goals cases hc

/-- **Any run**: the response follows all that was said. -/
theorem follows_run {told : Told} {h : Host W} {events : List (Event W)}
    (hok : Meets Host.step Succeeds h events) (hf : Follows told h.response) :
    Follows (events.foldl Told.hear told) (runFrom Host.step h events).response := by
  induction events generalizing told h with
  | nil => exact hf
  | cons e events ih => exact ih hok.2 (follows_step hf hok.1)

/-! ## The response -/

/-- The bytes of the last `ngx_wasm_resp_write`. -/
def AbiCtx.written (ctx : AbiCtx) : Bytes := if ctx.bodySet then ctx.body else []

/-- The headers a response is sent with. -/
def sentHeaders (ctx : AbiCtx) (out : HeadersOut) : HeadersOut :=
  { out with
    status := ctx.status
    contentLengthN := ctx.written.length
    contentType := ascii "text/plain" }

theorem written_length (ctx : AbiCtx) :
    (if ctx.bodySet then (ctx.body.length : Int) else 0) = ctx.written.length := by
  unfold AbiCtx.written
  split <;> rfl

/-- What is handed to nginx: the headers first, and then, if nginx goes on, the body, unless there is
no memory for its buffer. -/
theorem handed_eq (sendHeader send : Int) {h : Host W} {r : Request W.vars} (hr : h.request = some r)
    (hunsent : h.abi.responseSent = false) (htype : h.abi.contentTypeSet = false) :
    ∃ rest, h.handed sendHeader send = .header (sentHeaders h.abi r.headersOut) :: rest ∧
      ((if h.goesOn sendHeader then ∃ e, rest = [e] ∧ e.bytes = some h.abi.written else rest = []) ↔
        (h.goesOn sendHeader = true → h.abi.written ≠ [] → h.bufferFits = true)) := by
  unfold Host.handed Host.goesOn Host.bufferFits sendResponse
  rw [hr, Option.any_some, Option.any_some]
  dsimp only
  rw [hunsent, htype, written_length, if_neg nofun]
  split
  · rename_i hstop
    have hno : (sendHeader != -1 && !decide (0 < sendHeader) && !r.headerOnly) = false := by
      rcases hstop with hstop | hstop | hstop <;> simp [hstop]
    exact ⟨[], rfl, by simp [hno]⟩
  · rename_i hgo
    have hyes : (sendHeader != -1 && !decide (0 < sendHeader) && !r.headerOnly) = true := by
      simpa [not_or, and_assoc] using hgo
    rw [hyes]
    split
    · rename_i hempty
      have hwritten : h.abi.written = [] := by
        unfold AbiCtx.written
        cases hset : h.abi.bodySet with
        | false => rfl
        | true => simpa [hset] using hempty
      exact ⟨[.special], rfl, by simp [hwritten, Handed.bytes]⟩
    · rename_i hbody
      have hwritten : h.abi.written = h.abi.body ∧ h.abi.body ≠ [] := by
        unfold AbiCtx.written
        cases hset : h.abi.bodySet with
        | true => simpa [hset] using hbody
        | false => simp [hset] at hbody
      split <;> rename_i halloc
      · exact ⟨[], rfl, by simp [hwritten, halloc]⟩
      · exact ⟨[.output h.abi.body r.isMain true], rfl, by simp [hwritten, halloc, Handed.bytes]⟩

/-- Of a tidy list: the headers with a name are the one that is found. -/
theorem Tidy.forall_iff {out : HeadersOut} (ht : Tidy out) (name : Bytes) (p : Bytes → Prop) :
    (∀ elt ∈ out.headers, elt.hash ≠ 0 → sameName elt.key name = true → p elt.value) ↔
      ∀ value, lookup name out.headers = some value → p value := by
  constructor
  · intro h value hl
    obtain ⟨elt, hm, hn, rfl⟩ := exists_of_lookup hl
    exact h elt hm (by rw [ht.hash elt hm]; decide) hn
  · intro h elt hm _ hn
    exact h elt.value (lookup_of_mem ht.distinct hm hn)

/-- **What nginx is handed is what the guest described** exactly if no other `Content-Type` than
`text/plain` was set in this run, the `Content-Length` that was set, if one was, is the length of the
body, and there is memory for the buffer of a body that nginx wants. -/
theorem response_described_iff (W : World) (h : Host W) (r : Request W.vars) (phase : Runtime.Phase)
    (events : List (Event W)) (sendHeader send : Int)
    (hok : Meets Host.step Succeeds (h.serving r phase) events) :
    (∃ out rest,
        (runFrom Host.step (h.serving r phase) events).handed sendHeader send = .header out :: rest ∧
          AsTold (heard events)
            ((runFrom Host.step (h.serving r phase) events).goesOn sendHeader) out rest) ↔
      (∀ value, (heard events).header (ascii "content-type") = some value →
          value = ascii "text/plain") ∧
        (∀ value, (heard events).everHeader (ascii "content-length") = some value →
          atoof value = (heard events).body.length) ∧
        ((runFrom Host.step (h.serving r phase) events).goesOn sendHeader = true →
          (heard events).body ≠ [] →
          (runFrom Host.step (h.serving r phase) events).bufferFits = true) := by
  have hf : Follows (heard events) (runFrom Host.step (h.serving r phase) events).response := by
    refine follows_run hok
      { status := rfl
        body := rfl
        contentTypeSet := rfl
        responseSent := rfl
        out := ⟨{}, rfl, ⟨nofun, .nil, fun _ => rfl⟩, fun _ _ => rfl⟩
        ever := nofun }
  generalize runFrom Host.step (h.serving r phase) events = h' at hf
  generalize heard events = told at hf
  obtain ⟨out, hout, htidy, hlookup⟩ := hf.out
  obtain ⟨r', hr', rfl⟩ := Option.map_eq_some_iff.mp hout
  obtain ⟨rest, hall, hbody⟩ :=
    handed_eq sendHeader send hr' hf.responseSent hf.contentTypeSet
  have hwritten : h'.abi.written = told.body := hf.body
  rw [hwritten] at hbody
  rw [hall]
  constructor
  · rintro ⟨out, rest', heq, htold⟩
    obtain ⟨hhead, rfl⟩ := List.cons.inj heq
    obtain rfl := Handed.header.inj hhead
    refine ⟨fun value hv => ?_, fun value hv => ?_, hbody.mp htold.body⟩
    · have htype : ascii "text/plain" = _ := htold.contentType
      rw [hv] at htype
      exact htype.symm
    · refine (htidy.forall_iff (ascii "content-length") (fun v => atoof v = told.body.length)).mp
        htold.lengthHeader value ?_
      rw [hlookup _ (by decide), hv]
  · rintro ⟨htype, hlength, hfits⟩
    refine ⟨_, _, rfl, ?_⟩
    exact
      { status := hf.status
        body := hbody.mpr hfits
        contentType := by
          cases hv : told.header (ascii "content-type") with
          | none => rfl
          | some value => exact (htype value hv).symm
        header := fun name value hv hn => by
          have hl : lookup name r'.headersOut.headers = some value := by
            rw [hlookup name hn]
            exact hf.ever name value hv
          refine ⟨?_, (htidy.forall_iff name (· = value)).mpr fun v hvl => ?_⟩
          · obtain ⟨elt, hm, hname, heq⟩ := exists_of_lookup hl
            exact ⟨elt, hm, by rw [htidy.hash elt hm]; decide, hname, heq⟩
          · exact Option.some.inj (hvl.symm.trans hl)
        length := congrArg (fun b : Bytes => (b.length : Int)) hwritten
        lengthHeader := (htidy.forall_iff (ascii "content-length")
          (fun v => atoof v = told.body.length)).mpr fun v hv => by
            rw [hlookup _ (by decide)] at hv
            exact hlength v hv }

/-- A memory that holds a name of header and a value. -/
def headerMem (name value : Bytes) : Mem := ⟨true, 65536, fun a => (name ++ value).getD a 0⟩

/-- The guest sets a header with that name and value. -/
def sets (name value : String) : Event plainWorld :=
  .call ⟨0, 0⟩ (headerMem (ascii name) (ascii value))
    (.respSetHeader ⟨0, name.length.toUInt64⟩ ⟨name.length.toUInt32, value.length.toUInt64⟩)

/-- A request of the plain world, with a pool that grants everything. -/
def grantedRequest : Request plainWorld.vars := plainRequest fun _ => false

/-- A status, a header twice, and a body of one byte. -/
theorem response_described_iff_twice :
    let events : List (Event plainWorld) :=
      [.begin .content, sets "ETag" "a", .call ⟨0, 0⟩ ⟨true, 65536, fun _ => 98⟩ (.respSetStatus 404),
        .elsewhere id, sets "etag" "b", .call ⟨0, 0⟩ ⟨true, 65536, fun _ => 98⟩ (.respWrite ⟨0, 1⟩)]
    ∃ out rest,
      (runFrom Host.step ((plainHost 0).serving grantedRequest .content) events).handed 0 0 =
          .header out :: rest ∧
        AsTold (heard events) true out rest := by
  refine (response_described_iff plainWorld (plainHost 0) grantedRequest .content _ 0 0 ?_).mpr
    ⟨?_, ?_, ?_⟩
  · exact ⟨trivial, fun _ => by decide, fun _ => by decide, rfl, fun _ => by decide,
      fun _ => by decide, trivial⟩
  · decide
  · decide
  · decide

/-- A guest that answers in JSON. -/
theorem content_type_overwritten :
    let events : List (Event plainWorld) := [sets "Content-Type" "application/json"]
    Meets Host.step Succeeds ((plainHost 0).serving grantedRequest .content) events ∧
      ¬ ∃ out rest,
        (runFrom Host.step ((plainHost 0).serving grantedRequest .content) events).handed 0 0 =
            .header out :: rest ∧
          AsTold (heard events) true out rest := by
  refine ⟨⟨fun _ => by decide, trivial⟩, ?_⟩
  rintro ⟨out, rest, heq, htold⟩
  cases heq
  exact absurd htold.contentType (by decide)

end NgxWasm.Abi
