import NgxWasm.Abi.Imports
import NgxWasm.Lib.Footprint
import Mathlib.Data.List.Nodup

/-!
# What a guest can change

A guest acts on the host by its calls of host functions, in any order and with any arguments. Here the
host is taken apart (`Part`), and each host function may write some of the parts (`HostFn.writes`).
The pool is no part: nearly every call takes memory from it.

A call that returns writes its parts at most, and one that does not return writes none (`Changes`).
From there on the rules are those of `Lib.Footprint`. Parts that only one host function writes are
registers (`Sets`): what such a part holds after a guest is what was asked for last.

* `eq_of_parts`: the parts make up the host, but for the pool.
* `exec_changes`: a call of the ABI writes its own parts.
* `run_changes`: a host function changes only what it may write, and that only with its capability
  and if it returns.
* `guest_confined`: whatever a guest calls, what has changed has been changed by such a call, so that
  the guest of a hook changes only the parts its phase is for (`phaseParts`).

A guest is here the list of its calls, each with arguments of any number and type and with a memory of
its own (`ImportCall`). What it computes in between is left open, and so the results are about any
guest. A call that does not return is its last one (`callImports`). There is one lemma for each
function of the ABI (`changes_varSet`, `changes_respWrite` and so on), to which `run_changes` adds what
the import does around it; the confinement is read off that.

What the guest writes to its own memory is not a part of the host; `Abi.Reads` is about that.
-/

namespace NgxWasm.Abi

open Lib

/-! ## Calls of a guest -/

/-- A host function the guest calls, with the clocks and its memory as the call finds them. -/
structure ImportCall where
  fn : HostFn
  defined : fn ∈ hostFuncs
  now : Clock
  args : List Val
  nresults : Nat
  mem : Mem

/-- A call and how it ended. -/
abbrev Answer := ImportCall × Outcome

section Calls

variable {W : World}

/-- The call on a host. -/
def ImportCall.on (c : ImportCall) (h : Host W) : Result W :=
  c.fn.run c.now c.args c.nresults h c.mem

/-- The calls of a guest in their order, with what they answer. One that does not return is the
last. -/
def callImports : List ImportCall → Host W → List Answer × Host W
  | [], h => ([], h)
  | c :: cs, h =>
    let r := c.on h
    match r.outcome with
    | .ret _ => ((c, r.outcome) :: (callImports cs r.host).1, (callImports cs r.host).2)
    | .trap _ | .nullRequest => ([(c, r.outcome)], r.host)

end Calls

/-! ## The parts of a host -/

/-- A part of what a call can reach. -/
inductive Part where
  | capabilities
  /-- Which request it is. -/
  | request
  | requestHeaders
  | responseHeaders
  | vars
  | subrequests
  | suspension
  | status
  | body
  /-- Whether the response is sent, and the content type that goes with it. -/
  | sent
  | requestBody
  | chunk
  | chunkOutput
  | verdict
  | peer
  | ssl
  | store
  | metrics
  | errorLog
  deriving Repr, DecidableEq

/-- What a part holds. -/
def Part.Of (W : World) : Part → Type
  | .capabilities => UInt64
  | .request => Option (Bool × Bool × Bool × Nat)
  | .requestHeaders => Option (List TableElt)
  | .responseHeaders => Option HeadersOut
  | .vars => Option W.vars.State
  | .subrequests => Option (Option SubrequestState × List Subrequest)
  | .suspension => Bool × Runtime.SuspendKind
  | .status => Bool × Int
  | .body => Bool × Bool × Bytes
  | .sent => Bool × Bool × Bytes
  | .requestBody => Bool × Bytes
  | .chunk => Bool × Bool × Bytes
  | .chunkOutput => Bool × Bytes
  | .verdict => Bool × Int
  | .peer => Bool × UInt64
  | .ssl => Option W.ssl.Conn
  | .store => Option (Shm.Zone W.slab)
  | .metrics => Option (Metrics.Zone W.slab)
  | .errorLog => List (UInt64 × Bytes)

attribute [ext] AbiCtx Request Host

section Parts

variable {W : World}

/-- A part of a host. -/
def Host.part : (p : Part) → Host W → p.Of W
  | .capabilities, h => h.abi.capabilities
  | .request, h => h.request.map fun r => (r.headerOnly, r.isMain, r.upstream, r.subrequestBufferSize)
  | .requestHeaders, h => h.request.map Request.headersIn
  | .responseHeaders, h => h.request.map Request.headersOut
  | .vars, h => h.request.map Request.vars
  | .subrequests, h => h.request.map fun r => (r.state, r.accepted)
  | .suspension, h => (h.yielded, h.suspendKind)
  | .status, h => (h.abi.statusSet, h.abi.status)
  | .body, h => (h.abi.bodySet, h.abi.bodyIsBorrowed, h.abi.body)
  | .sent, h => (h.abi.responseSent, h.abi.contentTypeSet, h.abi.contentType)
  | .requestBody, h => (h.abi.requestBodySet, h.abi.requestBody)
  | .chunk, h => (h.abi.respBodyChunkSet, h.abi.respBodyChunkEof, h.abi.respBodyChunk)
  | .chunkOutput, h => (h.abi.respBodyChunkOutputSet, h.abi.respBodyChunkOutput)
  | .verdict, h => (h.abi.sslHandshakeRejected, h.abi.sslHandshakeAlert)
  | .peer, h => (h.abi.balancerPeerSet, h.abi.balancerPeerIndex)
  | .ssl, h => h.ssl
  | .store, h => h.shm
  | .metrics, h => h.metrics
  | .errorLog, h => h.errorLog

/-- **The parts make up the host**, but for the pool. -/
theorem eq_of_parts {h h' : Host W} (hparts : ∀ p, Host.part p h' = Host.part p h)
    (hpool : h'.request.map Request.pool = h.request.map Request.pool) : h' = h := by
  have habi : h'.abi = h.abi := by
    obtain ⟨hstatusSet, hstatus⟩ := Prod.mk.inj (hparts .status)
    obtain ⟨hbodySet, hbody⟩ := Prod.mk.inj (hparts .body)
    obtain ⟨hborrowed, hbody⟩ := Prod.mk.inj hbody
    obtain ⟨hsent, htype⟩ := Prod.mk.inj (hparts .sent)
    obtain ⟨htypeSet, htype⟩ := Prod.mk.inj htype
    obtain ⟨hrequestSet, hrequest⟩ := Prod.mk.inj (hparts .requestBody)
    obtain ⟨hchunkSet, hchunk⟩ := Prod.mk.inj (hparts .chunk)
    obtain ⟨heof, hchunk⟩ := Prod.mk.inj hchunk
    obtain ⟨houtputSet, houtput⟩ := Prod.mk.inj (hparts .chunkOutput)
    obtain ⟨hrejected, halert⟩ := Prod.mk.inj (hparts .verdict)
    obtain ⟨hpeerSet, hpeer⟩ := Prod.mk.inj (hparts .peer)
    exact AbiCtx.ext (hparts .capabilities) hstatusSet hbodySet hborrowed htypeSet hsent hrequestSet
      hchunkSet houtputSet heof hrejected hpeerSet hpeer hstatus halert hbody htype hrequest hchunk
      houtput
  have hrequest : h'.request = h.request := by
    have hfixed : h'.request.map _ = h.request.map _ := hparts .request
    have hin : h'.request.map _ = h.request.map _ := hparts .requestHeaders
    have hout : h'.request.map _ = h.request.map _ := hparts .responseHeaders
    have hvars : h'.request.map _ = h.request.map _ := hparts .vars
    have hsub : h'.request.map _ = h.request.map _ := hparts .subrequests
    cases hr : h.request with
    | none =>
      rw [hr, Option.map_none, Option.map_eq_none_iff] at hin
      exact hin
    | some r =>
      cases hr' : h'.request with
      | none =>
        rw [hr, hr'] at hin
        cases hin
      | some r' =>
        simp only [hr, hr', Option.map_some, Option.some.injEq] at hfixed hin hout hvars hsub hpool
        obtain ⟨hheader, hfixed⟩ := Prod.mk.inj hfixed
        obtain ⟨hmain, hfixed⟩ := Prod.mk.inj hfixed
        obtain ⟨hupstream, hsize⟩ := Prod.mk.inj hfixed
        obtain ⟨hstate, haccepted⟩ := Prod.mk.inj hsub
        exact congrArg some
          (Request.ext hin hout hvars hpool hheader hmain hupstream hsize hstate haccepted)
  obtain ⟨hyielded, hkind⟩ := Prod.mk.inj (hparts .suspension)
  exact Host.ext hyielded hkind habi hrequest (hparts .ssl) (hparts .store) (hparts .metrics)
    (hparts .errorLog)

end Parts

/-! ## What a call writes -/

/-- The parts that a call may write. A call of the store that only reads moves its entry to the front,
and a variable may be evaluated when it is read. -/
def AbiCall.writes : AbiCall → List Part
  | .log _ _ => [.errorLog]
  | .respSetStatus _ => [.status]
  | .metricCounterInc _ _ | .metricGaugeSet _ _ | .metricGaugeAdd _ _ => [.metrics]
  | .balancerSetPeer _ => [.peer]
  | .shmGet _ _ | .shmExists _ | .shmIncr _ _ | .shmSet _ _ | .shmSetEx _ _ _ | .shmAdd _ _
  | .shmReplace _ _ | .shmDelete _ => [.store]
  | .sslRejectHandshake _ => [.verdict]
  | .sslSetCertificate _ _ => [.ssl]
  | .reqSetHeader _ _ => [.requestHeaders]
  | .varGet _ _ | .varSet _ _ => [.vars]
  | .respSetHeader _ _ => [.responseHeaders]
  | .respSetBodyChunk _ => [.chunkOutput]
  | .respWrite _ => [.body]
  | .subreqSetHeader _ _ | .subreq _ _ _ _ => [.subrequests]
  | .yield => [.suspension]
  | .respGetStatus | .sslGetServerName _ | .reqGetHeader _ _ | .timeUnixMs _ | .timeMonotonicMs _
  | .respGetHeader _ _ | .respGetBodyChunk _ | .respGetBodyChunkEof | .reqGetBody _
  | .subreqGetStatus | .subreqGetHeader _ _ | .subreqGetBody _ | .subreqGetBodyLen => []

/-- The parts that a host function may write: a launch also suspends the guest. -/
def HostFn.writes (f : HostFn) : List Part :=
  (f.call fun _ => 0).writes ++ if f.waits then [.suspension] else []

theorem writes_call {f : HostFn} (hf : f ∈ hostFuncs) (a : Nat → Int32) :
    (f.call a).writes = (f.call fun _ => 0).writes := by
  revert hf f
  simp only [hostFuncs, List.forall_mem_cons]
  and_intros
  all_goals first
    | exact List.forall_mem_nil _
    | rfl

section Footprints

variable {W : World} {h : Host W} {m : Mem} {ps : List Part}

/-- A call returns and changes the parts `ps` at most, or does nothing to the host. -/
inductive Changes (ps : List Part) (h : Host W) (r : Result W) : Prop
  | returned (rc : Int32) (hrc : r.outcome = .ret rc)
      (hwithin : Within Host.part {p | p ∈ ps} h r.host)
  | nothing (hsame : r.host = h)

theorem changes_reply {h' : Host W} {rc : Int} (hw : Within Host.part {p | p ∈ ps} h h') :
    Changes ps h (h'.reply m rc) := .returned _ rfl hw

theorem changes_require {cap : UInt64} {body : Result W} (hb : Changes ps h body) :
    Changes ps h (h.require m cap body) := by
  unfold Host.require
  split
  · exact .nothing rfl
  · exact hb

theorem changes_deref {f : Request W.vars → Result W}
    (hf : ∀ r, h.request = some r → Changes ps h (f r)) : Changes ps h (h.deref m f) := by
  unfold Host.deref
  split
  · rename_i r hr
    exact hf r hr
  · exact .nothing rfl

/-- What an edit of a request leaves as it was. -/
structure Edited (ps : List Part) {V : Variables} (r r' : Request V) : Prop where
  fixed : r'.headerOnly = r.headerOnly ∧ r'.isMain = r.isMain ∧ r'.upstream = r.upstream ∧
    r'.subrequestBufferSize = r.subrequestBufferSize
  headersIn : .requestHeaders ∉ ps → r'.headersIn = r.headersIn
  headersOut : .responseHeaders ∉ ps → r'.headersOut = r.headersOut
  vars : .vars ∉ ps → r'.vars = r.vars
  subrequests : .subrequests ∉ ps → r'.state = r.state ∧ r'.accepted = r.accepted

theorem edited_pool (r : Request W.vars) (p : Pool) : Edited ps r { r with pool := p } :=
  ⟨⟨rfl, rfl, rfl, rfl⟩, fun _ => rfl, fun _ => rfl, fun _ => rfl, fun _ => ⟨rfl, rfl⟩⟩

theorem edited_headersIn (r : Request W.vars) (headers : List TableElt) (p : Pool) :
    Edited [.requestHeaders] r { r with headersIn := headers, pool := p } :=
  ⟨⟨rfl, rfl, rfl, rfl⟩, fun hno => absurd List.mem_cons_self hno, fun _ => rfl, fun _ => rfl,
    fun _ => ⟨rfl, rfl⟩⟩

theorem edited_headersOut (r : Request W.vars) (out : HeadersOut) (p : Pool) :
    Edited [.responseHeaders] r { r with headersOut := out, pool := p } :=
  ⟨⟨rfl, rfl, rfl, rfl⟩, fun _ => rfl, fun hno => absurd List.mem_cons_self hno, fun _ => rfl,
    fun _ => ⟨rfl, rfl⟩⟩

theorem edited_vars (r : Request W.vars) (vars : W.vars.State) (p : Pool) :
    Edited [.vars] r { r with pool := p, vars := vars } :=
  ⟨⟨rfl, rfl, rfl, rfl⟩, fun _ => rfl, fun _ => rfl, fun hno => absurd List.mem_cons_self hno,
    fun _ => ⟨rfl, rfl⟩⟩

theorem edited_subrequests (r : Request W.vars) (st : Option SubrequestState) (p : Pool)
    (accepted : List Subrequest) :
    Edited [.subrequests] r { r with state := st, pool := p, accepted := accepted } :=
  ⟨⟨rfl, rfl, rfl, rfl⟩, fun _ => rfl, fun _ => rfl, fun _ => rfl,
    fun hno => absurd List.mem_cons_self hno⟩

theorem Edited.within {r r' : Request W.vars} (he : Edited ps r r') (hr : h.request = some r) :
    Within Host.part {p | p ∈ ps} h (h.withRequest r') := by
  intro p hp
  have hmap : ∀ {β : Type} (f : Request W.vars → β), f r' = f r → some (f r') = h.request.map f := by
    intro β f heq
    rw [hr, heq, Option.map_some]
  cases p
  case request =>
    obtain ⟨hheader, hmain, hupstream, hsize⟩ := he.fixed
    exact hmap (fun r => (r.headerOnly, r.isMain, r.upstream, r.subrequestBufferSize))
      (by rw [hheader, hmain, hupstream, hsize])
  case requestHeaders => exact hmap _ (he.headersIn hp)
  case responseHeaders => exact hmap _ (he.headersOut hp)
  case vars => exact hmap _ (he.vars hp)
  case subrequests =>
    exact hmap (fun r => (r.state, r.accepted)) (Prod.ext (he.subrequests hp).1 (he.subrequests hp).2)
  all_goals rfl

theorem changes_edit {r r' : Request W.vars} (hr : h.request = some r) (he : Edited ps r r')
    {rc : Int} :
    Changes ps h ((h.withRequest r').reply m rc) := changes_reply (he.within hr)

theorem changes_onRequest {f : Request W.vars → Int × Request W.vars}
    (hf : ∀ r, Edited ps r (f r).2) : Changes ps h (h.onRequest m f) :=
  changes_deref fun r hr => changes_edit hr (hf r)

theorem changes_onSubrequest {f : Request W.vars → Int × Request W.vars}
    (hf : ∀ r, Edited ps r (f r).2) : Changes ps h (onSubrequest f h m) := by
  refine changes_require ?_
  split
  · exact .nothing rfl
  · rename_i r hr
    exact changes_edit hr (hf r)

theorem changes_readsSubrequest {f : Request W.vars → Int × Bytes} {buf : Slice} :
    Changes ps h (readsSubrequest f buf h m) := by
  refine changes_require ?_
  split <;> exact .nothing rfl

theorem changes_onShm {op : Shm.Op} {buf : Slice} {now : Clock} :
    Changes [.store] h (onShm op buf now h m) := by
  refine changes_require ?_
  split
  · exact .nothing rfl
  · refine changes_reply fun p hp => ?_
    cases p
    case store => exact absurd List.mem_cons_self hp
    all_goals rfl

theorem changes_onMetrics {op : Metrics.Zone W.slab → Int × Metrics.Zone W.slab} :
    Changes [.metrics] h (onMetrics op h m) := by
  refine changes_require ?_
  split
  · exact .nothing rfl
  · refine changes_reply fun p hp => ?_
    cases p
    case metrics => exact absurd List.mem_cons_self hp
    all_goals rfl

theorem changes_log {level : UInt64} {data : Slice} :
    Changes [.errorLog] h (Abi.log level data h m) := by
  unfold Abi.log
  split
  · exact .nothing rfl
  · refine changes_reply fun p hp => ?_
    cases p
    case errorLog => exact absurd List.mem_cons_self hp
    all_goals rfl

theorem changes_time {value : UInt64} {buf : Slice} : Changes ps h (time value buf h m) := by
  refine changes_require ?_
  split <;> exact .nothing rfl

theorem changes_sslGetServerName {buf : Slice} : Changes ps h (sslGetServerName buf h m) := by
  refine changes_require ?_
  split <;> exact .nothing rfl

theorem changes_sslRejectHandshake {alert : Int} :
    Changes [.verdict] h (sslRejectHandshake alert h m) := by
  refine changes_require (changes_reply fun p hp => ?_)
  cases p
  case verdict => exact absurd List.mem_cons_self hp
  all_goals rfl

theorem changes_withSsl {conn : W.ssl.Conn} {rc : Int} :
    Changes [.ssl] h ((h.withSsl conn).reply m rc) := by
  refine changes_reply fun p hp => ?_
  cases p
  case ssl => exact absurd List.mem_cons_self hp
  all_goals rfl

theorem changes_sslSetCertificate {cert key : Slice} :
    Changes [.ssl] h (sslSetCertificate cert key h m) := by
  refine changes_require ?_
  split
  · exact .nothing rfl
  · split
    · exact .nothing rfl
    · split
      · exact .nothing rfl
      · split
        · exact changes_withSsl
        · split
          · exact changes_withSsl
          · split <;> exact changes_withSsl

theorem changes_reqSetHeader {name value : Slice} :
    Changes [.requestHeaders] h (reqSetHeader name value h m) := by
  refine changes_require ?_
  split
  · exact .nothing rfl
  · exact changes_onRequest fun r => edited_headersIn r _ _

theorem changes_reqGetHeader {name buf : Slice} : Changes ps h (reqGetHeader name buf h m) := by
  refine changes_require ?_
  split
  · exact .nothing rfl
  · refine changes_deref fun r _ => ?_
    split <;> exact .nothing rfl

theorem changes_reqGetBody {buf : Slice} : Changes ps h (reqGetBody buf h m) := by
  refine changes_require ?_
  split <;> exact .nothing rfl

theorem changes_varGet {name buf : Slice} : Changes [.vars] h (varGet name buf h m) := by
  refine changes_require ?_
  split
  · exact .nothing rfl
  · rename_i r hr
    split
    · exact .nothing rfl
    · split
      · exact changes_edit hr (edited_pool r _)
      · dsimp only
        split
        · exact changes_edit hr (edited_vars r _ _)
        · exact changes_edit hr (edited_vars r _ _)
        · exact changes_edit hr (edited_vars r _ _)

theorem edited_findVariable (name : Bytes) (r : Request W.vars) :
    Edited [] r (findVariable name r).2 := by
  unfold findVariable
  split <;> exact edited_pool r _

theorem changes_varSet {name value : Slice} : Changes [.vars] h (varSet name value h m) := by
  refine changes_require ?_
  split
  · exact .nothing rfl
  · rename_i r hr
    split
    · exact .nothing rfl
    · have hfind := edited_findVariable (m.read name) r
      generalize findVariable (m.read name) r = found at hfind
      obtain ⟨var, r'⟩ := found
      have hedit : ∀ (p : Pool) (vars : W.vars.State),
          Edited [.vars] r { r' with pool := p, vars := vars } := fun p vars =>
        ⟨hfind.fixed, fun _ => hfind.headersIn List.not_mem_nil,
          fun _ => hfind.headersOut List.not_mem_nil, fun hno => absurd List.mem_cons_self hno,
          fun _ => hfind.subrequests List.not_mem_nil⟩
      cases var with
      | none => exact changes_edit hr (hedit _ _)
      | some var =>
        dsimp only
        split
        · exact changes_edit hr (hedit _ _)
        · split
          · exact changes_edit hr (hedit _ _)
          · split
            · exact changes_edit hr (hedit _ _)
            · split <;> exact changes_edit hr (hedit _ _)

theorem changes_balancerSetPeer {index : UInt64} : Changes [.peer] h (balancerSetPeer index h m) := by
  refine changes_require ?_
  split
  · exact .nothing rfl
  · split
    · exact .nothing rfl
    · refine changes_reply fun p hp => ?_
      cases p
      case peer => exact absurd List.mem_cons_self hp
      all_goals rfl

theorem changes_respSetStatus {status : Int} : Changes [.status] h (respSetStatus status h m) := by
  refine changes_require (changes_reply fun p hp => ?_)
  cases p
  case status => exact absurd List.mem_cons_self hp
  all_goals rfl

theorem changes_respGetStatus : Changes ps h (respGetStatus h m) :=
  changes_require (changes_deref fun _ _ => .nothing rfl)

theorem edited_setRespHeader (name value : Bytes) (r : Request W.vars) :
    Edited [.responseHeaders] r (setRespHeader W.parseHttpTime name value r).2 := by
  unfold setRespHeader
  split
  · unfold respSetCachedHeader
    split
    · unfold setStr
      split <;> rename_i heq <;> obtain ⟨-, rfl⟩ := Prod.mk.inj heq <;> exact edited_headersOut r _ _
    · split
      · exact edited_pool r _
      · split
        · exact edited_headersOut r _ _
        · dsimp only
          split <;> exact edited_headersOut r _ _
  · split <;> exact edited_headersOut r _ _

theorem changes_respSetHeader {name value : Slice} :
    Changes [.responseHeaders] h (respSetHeader name value h m) := by
  refine changes_require ?_
  split
  · exact .nothing rfl
  · exact changes_onRequest fun r => edited_setRespHeader _ _ r

theorem changes_respGetHeader {name buf : Slice} : Changes ps h (respGetHeader name buf h m) := by
  refine changes_require ?_
  split
  · exact .nothing rfl
  · refine changes_deref fun r _ => ?_
    split <;> exact .nothing rfl

theorem changes_respGetBodyChunk {buf : Slice} : Changes ps h (respGetBodyChunk buf h m) := by
  refine changes_require ?_
  split <;> exact .nothing rfl

theorem changes_respGetBodyChunkEof : Changes ps h (respGetBodyChunkEof h m) := by
  refine changes_require ?_
  split <;> exact .nothing rfl

/-- An edit of the request that comes with one of the ABI context. -/
theorem changes_withAbi {r r' : Request W.vars} {abi : AbiCtx} {rc : Int} (hr : h.request = some r)
    (he : Edited ps r r')
    (habi : Within Host.part {p | p ∈ ps} (h.withRequest r') ((h.withRequest r').withAbi abi)) :
    Changes ps h (((h.withRequest r').withAbi abi).reply m rc) :=
  changes_reply ((he.within hr).trans habi)

theorem changes_respSetBodyChunk {data : Slice} :
    Changes [.chunkOutput] h (respSetBodyChunk data h m) := by
  refine changes_require (changes_deref fun r hr => ?_)
  have hpool : Edited [.chunkOutput] r (setStr (m.read data) r).2 := edited_pool r _
  generalize setStr (m.read data) r = set at hpool
  obtain ⟨ok, r'⟩ := set
  cases ok with
  | false => exact changes_edit hr hpool
  | true =>
    refine changes_withAbi hr hpool fun p hp => ?_
    cases p
    case chunkOutput => exact absurd List.mem_cons_self hp
    all_goals rfl

theorem changes_respWrite {data : Slice} : Changes [.body] h (respWrite data h m) := by
  refine changes_require (changes_deref fun r hr => ?_)
  unfold writeBody
  have hpool : Edited [.body] r (setStr (m.read data) r).2 := edited_pool r _
  generalize setStr (m.read data) r = set at hpool
  obtain ⟨ok, r'⟩ := set
  cases ok with
  | false => exact changes_withAbi hr hpool fun _ _ => by cases ‹Part› <;> rfl
  | true =>
    refine changes_withAbi hr hpool fun p hp => ?_
    cases p
    case body => exact absurd List.mem_cons_self hp
    all_goals rfl

theorem edited_subrequestSetHeader (name value : Bytes) (r : Request W.vars) :
    Edited [.subrequests] r (subrequestSetHeader name value r).2 := by
  unfold subrequestSetHeader
  split
  · exact edited_pool r _
  · split
    · exact edited_pool r _
    · split
      · exact edited_pool r _
      · dsimp only
        split
        · exact edited_subrequests ..
        · split
          · exact edited_subrequests ..
          · split
            · exact edited_subrequests ..
            · split <;> exact edited_subrequests ..

theorem edited_launch (st : SubrequestState) (sr : Subrequest) (r : Request W.vars) :
    Edited [.subrequests] r (launch st sr r).2 := by
  unfold launch
  split
  · exact edited_subrequests ..
  · dsimp only
    split
    · exact edited_subrequests ..
    · exact edited_subrequests ..
    · split <;> exact edited_subrequests ..

theorem edited_subrequest (uri args : Bytes) (method options : UInt64) (r : Request W.vars) :
    Edited [.subrequests] r (subrequest uri args method options r).2 := by
  unfold subrequest
  split
  · exact edited_pool r _
  · split
    · exact edited_pool r _
    · split
      · exact edited_pool r _
      · split
        · exact edited_subrequests ..
        · split
          · exact edited_subrequests ..
          · dsimp only
            split
            · exact edited_subrequests ..
            · split
              · exact edited_subrequests ..
              · obtain ⟨hfixed, hin, hout, hvars, -⟩ := edited_launch _ _ { r with pool := _ }
                exact ⟨hfixed, hin, hout, hvars, fun hno => absurd List.mem_cons_self hno⟩

/-- **A call writes its own parts.** -/
theorem exec_changes {now : Clock} (c : AbiCall) : Changes c.writes h (c.exec now h m) := by
  cases c
  case log => exact changes_log
  case sslGetServerName => exact changes_sslGetServerName
  case sslRejectHandshake => exact changes_sslRejectHandshake
  case sslSetCertificate => exact changes_sslSetCertificate
  case reqSetHeader => exact changes_reqSetHeader
  case reqGetHeader => exact changes_reqGetHeader
  case reqGetBody => exact changes_reqGetBody
  case varGet => exact changes_varGet
  case varSet => exact changes_varSet
  case timeUnixMs | timeMonotonicMs => exact changes_time
  case balancerSetPeer => exact changes_balancerSetPeer
  case respSetStatus => exact changes_respSetStatus
  case respGetStatus => exact changes_respGetStatus
  case respSetHeader => exact changes_respSetHeader
  case respGetHeader => exact changes_respGetHeader
  case respGetBodyChunk => exact changes_respGetBodyChunk
  case respGetBodyChunkEof => exact changes_respGetBodyChunkEof
  case respSetBodyChunk => exact changes_respSetBodyChunk
  case respWrite => exact changes_respWrite
  case metricCounterInc | metricGaugeSet | metricGaugeAdd =>
    simp only [AbiCall.exec, metricCounterInc, metricGaugeSet, metricGaugeAdd]
    exact changes_onMetrics
  case shmGet | shmExists | shmIncr | shmSet | shmSetEx | shmAdd | shmReplace | shmDelete =>
    simp only [AbiCall.exec, shmGet, shmExists, shmIncr, shmSet, shmSetEx, shmAdd, shmReplace,
      shmDelete]
    exact changes_onShm
  case subreqSetHeader => exact changes_onSubrequest fun r => edited_subrequestSetHeader _ _ r
  case subreq => exact changes_onSubrequest fun r => edited_subrequest _ _ _ _ r
  case subreqGetStatus | subreqGetHeader | subreqGetBody | subreqGetBodyLen =>
    exact changes_readsSubrequest
  case yield =>
    refine changes_reply fun p hp => ?_
    cases p
    case suspension => exact absurd List.mem_cons_self hp
    all_goals rfl

/-- A host function has its capability, where it has one. -/
def HostFn.granted (f : HostFn) (capabilities : UInt64) : Bool :=
  f.capability.all fun cap => capabilities &&& cap != 0

/-- **A host function** writes its own parts, and only with its capability. -/
theorem run_changes {f : HostFn} (hf : f ∈ hostFuncs) {now : Clock} {args : List Val}
    {nresults : Nat} :
    Changes (if f.granted h.abi.capabilities then f.writes else []) h
      (f.run now args nresults h m) := by
  cases hgranted : f.granted h.abi.capabilities with
  | false =>
    obtain ⟨cap, hcap, hlack⟩ : ∃ cap, f.capability = some cap ∧ h.abi.capabilities &&& cap = 0 := by
      unfold HostFn.granted at hgranted
      cases hc : f.capability with
      | none => simp [hc] at hgranted
      | some cap => exact ⟨cap, rfl, by simpa [hc] using hgranted⟩
    exact .nothing (run_refused hf hcap hlack).host
  | true =>
    rw [if_pos rfl]
    unfold HostFn.run
    cases hd : f.decode h.abi.capabilities m args nresults with
    | inl outcome => exact .nothing rfl
    | inr call =>
      obtain ⟨rfl, -, -⟩ := decode_inr hd
      have hexec : Changes (f.call fun _ => 0).writes h ((f.call (argOf args)).exec now h m) :=
        writes_call hf (argOf args) ▸ exec_changes _
      have hwaits : f.waits = true → .suspension ∈ f.writes := by
        intro hw
        simp [HostFn.writes, hw]
      have hsub : {p | p ∈ (f.call fun _ => 0).writes} ⊆ {p | p ∈ f.writes} := fun p hp =>
        List.mem_append_left _ hp
      show Changes f.writes h (f.finish _)
      unfold HostFn.finish
      split
      · rename_i hok
        refine .returned _ hok.2 fun p hp => ?_
        have hbefore : Host.part p ((f.call (argOf args)).exec now h m).host = Host.part p h := by
          cases hexec with
          | returned rc hrc hwithin => exact hwithin.mono hsub p hp
          | nothing hsame => rw [hsame]
        cases p
        case suspension => exact absurd (hwaits hok.1) hp
        all_goals exact hbefore
      · cases hexec with
        | returned rc hrc hwithin => exact .returned rc hrc (hwithin.mono hsub)
        | nothing hsame => exact .nothing hsame

end Footprints

/-! ## What a guest writes -/

section Guests

variable {W : World} {h : Host W}

/-- The part may have been changed by this answer: the call is for it and had its capability, and it
returned. -/
def Answer.changes (capabilities : UInt64) (a : Answer) : Set Part :=
  {p | p ∈ a.1.fn.writes ∧ a.1.fn.granted capabilities = true ∧ ∃ rc, a.2 = .ret rc}

theorem on_within (c : ImportCall) :
    Within Host.part (Answer.changes h.abi.capabilities (c, (c.on h).outcome)) h (c.on h).host := by
  intro p hp
  have hdoes : Changes (if c.fn.granted h.abi.capabilities then c.fn.writes else []) h (c.on h) :=
    run_changes c.defined
  cases hdoes with
  | nothing hsame => rw [hsame]
  | returned rc hrc hwithin =>
    refine hwithin p fun hmem => hp ?_
    cases hgranted : c.fn.granted h.abi.capabilities with
    | false => simp [hgranted] at hmem
    | true => exact ⟨by simpa [hgranted] using hmem, hgranted, rc, hrc⟩

/-- No host function changes what the guest may do. -/
theorem capabilities_unwritten {f : HostFn} (hf : f ∈ hostFuncs) : .capabilities ∉ f.writes := by
  have hall : ∀ f ∈ hostFuncs, Part.capabilities ∉ f.writes := by decide +kernel
  exact hall f hf

/-- The host after an answer. -/
def Host.answer (h : Host W) (a : Answer) : Host W := (a.1.on h).host

/-- **The answers of a guest** are what its calls answer, and lead to the host it leaves. -/
theorem callImports_run (cs : List ImportCall) (h : Host W) :
    Meets Host.answer (fun h a => a.2 = (a.1.on h).outcome) h (callImports cs h).1 ∧
      runFrom Host.answer h (callImports cs h).1 = (callImports cs h).2 := by
  induction cs generalizing h with
  | nil => exact ⟨trivial, rfl⟩
  | cons c cs ih =>
    unfold callImports
    dsimp only
    split
    · exact ⟨⟨rfl, (ih _).1⟩, (ih _).2⟩
    · exact ⟨⟨rfl, trivial⟩, rfl⟩
    · exact ⟨⟨rfl, trivial⟩, rfl⟩

/-- **What has changed has been changed by a call.** -/
theorem callImports_within (cs : List ImportCall) (h : Host W) :
    Within Host.part {p | ∃ a ∈ (callImports cs h).1, p ∈ Answer.changes h.abi.capabilities a} h
      (callImports cs h).2 := by
  obtain ⟨hmeets, hrun⟩ := callImports_run cs h
  rw [← hrun]
  refine hmeets.within (fun h' => h'.abi.capabilities = h.abi.capabilities) rfl ?_
  rintro h' ⟨c, outcome⟩ hcaps hanswer
  have hwithin : Within Host.part _ h' (c.on h').host := on_within c
  rw [hcaps] at hwithin
  refine ⟨?_, fun p hp => hwithin p fun hmem => hp ?_⟩
  · exact (hwithin .capabilities fun hmem => capabilities_unwritten c.defined hmem.1).trans hcaps
  · obtain rfl : outcome = (c.on h').outcome := hanswer
    exact hmem

/-! ## Registers

A part that one host function sets, and no other writes. -/

/-- The arguments of a call of `f` that was accepted. -/
def Answer.asks (f : HostFn) (a : Answer) : Option (List Val) :=
  if a.1.fn.name = f.name ∧ a.2 = .ret 0 then some a.1.args else none

/-- What the accepted calls of `f` have asked for. -/
def asked (f : HostFn) (answers : List Answer) : List (List Val) := answers.filterMap (Answer.asks f)

/-- Only `f` writes the part, and sets it to this if it accepts. -/
structure Sets (f : HostFn) (p : Part) (value : List Val → p.Of W) : Prop where
  defined : f ∈ hostFuncs
  only : ∀ f' ∈ hostFuncs, p ∈ f'.writes → f'.name = f.name
  run : ∀ (now : Clock) (args : List Val) (nresults : Nat) (h : Host W) (m : Mem),
    (f.run now args nresults h m).outcome ≠ .ret 0 ∧ (f.run now args nresults h m).host = h ∨
      (f.run now args nresults h m).outcome = .ret 0 ∧
        Host.part p (f.run now args nresults h m).host = value args

/-- A host function is known by its name. -/
theorem eq_of_name {f f' : HostFn} (hf : f ∈ hostFuncs) (hf' : f' ∈ hostFuncs)
    (hname : f.name = f'.name) : f = f' := by
  have hnodup : (hostFuncs.map HostFn.name).Nodup := by decide +kernel
  exact List.inj_on_of_nodup_map hnodup hf hf' hname

/-- What a call leaves in a register. -/
theorem Sets.on {f : HostFn} {p : Part} {value : List Val → p.Of W} (hs : Sets f p value)
    (c : ImportCall) :
    Host.part p (c.on h).host =
      ((Answer.asks f (c, (c.on h).outcome)).map value).getD (Host.part p h) := by
  unfold Answer.asks
  by_cases hname : c.fn.name = f.name
  · have hrun : c.on h = f.run c.now c.args c.nresults h c.mem := by
      rw [ImportCall.on, eq_of_name c.defined hs.defined hname]
    rw [hrun]
    rcases hs.run c.now c.args c.nresults h c.mem with ⟨hno, hsame⟩ | ⟨hok, hset⟩
    · rw [if_neg fun hand => hno hand.2, hsame]
      rfl
    · rw [if_pos ⟨hname, hok⟩, hset]
      rfl
  · rw [if_neg fun hand => hname hand.1]
    exact on_within c p fun hmem => hname (hs.only _ c.defined hmem.1)

/-- An import that fails before its call of the ABI function does not return 0. -/
theorem decode_inl {f : HostFn} {capabilities : UInt64} {m : Mem} {args : List Val} {nresults : Nat}
    {outcome : Outcome} (hd : f.decode capabilities m args nresults = .inl outcome) :
    outcome ≠ .ret 0 := by
  unfold HostFn.decode at hd
  dsimp only at hd
  rintro rfl
  split at hd
  · cases hd
  · split at hd
    · exact absurd (Outcome.ret.inj (Sum.inl.inj hd)) (by decide)
    · split at hd
      · cases hd
      · split at hd <;> cases hd

/-- An import whose ABI function tests its capability and then leaves the host `h'`. -/
theorem run_setter {f : HostFn} {cap : UInt64} (h' : Host W) (hwaits : f.waits = false) {now : Clock}
    {args : List Val} {nresults : Nat} {m : Mem}
    (hexec : (f.call (argOf args)).exec now h m = h.require m cap (h'.reply m wasmOk)) :
    (f.run now args nresults h m).outcome ≠ .ret 0 ∧ (f.run now args nresults h m).host = h ∨
      (f.run now args nresults h m).outcome = .ret 0 ∧ (f.run now args nresults h m).host = h' := by
  have hrefused : Outcome.ret (Int32.ofInt wasmError) ≠ .ret 0 := by decide
  unfold HostFn.run
  cases hd : f.decode h.abi.capabilities m args nresults with
  | inl outcome => exact .inl ⟨decode_inl hd, rfl⟩
  | inr call =>
    obtain ⟨rfl, -, -⟩ := decode_inr hd
    have hfinish : ∀ r : Result W, f.finish r = r := by
      intro r
      unfold HostFn.finish
      rw [hwaits]
      rfl
    dsimp only
    rw [hfinish, hexec]
    unfold Host.require
    split
    · exact .inl ⟨hrefused, rfl⟩
    · exact .inr ⟨rfl, rfl⟩

/-- The status of the response. -/
theorem sets_status : Sets (W := W) hostRespSetStatus .status
    fun args => (true, (argOf args 0).toInt) where
  defined := by simp [hostFuncs]
  only := by decide +kernel
  run now args nresults h m :=
    (run_setter (h.withAbi (h.abi.setStatus (argOf args 0).toInt)) rfl rfl).imp id
      fun ⟨hok, hhost⟩ => ⟨hok, by rw [hhost]; rfl⟩

/-- The verdict on a handshake. -/
theorem sets_verdict : Sets (W := W) hostSslRejectHandshake .verdict
    fun args => (true, (argOf args 0).toInt) where
  defined := by simp [hostFuncs]
  only := by decide +kernel
  run now args nresults h m :=
    (run_setter (h.withAbi { h.abi with
        sslHandshakeRejected := true
        sslHandshakeAlert := (argOf args 0).toInt }) rfl rfl).imp id
      fun ⟨hok, hhost⟩ => ⟨hok, by rw [hhost]; rfl⟩

/-- The parts that the guest of a hook may change. -/
def phaseParts : Runtime.Phase → List Part
  | .content | .rewrite | .serverRewrite =>
    [.requestHeaders, .responseHeaders, .vars, .subrequests, .suspension, .status, .body, .store,
      .metrics, .errorLog]
  | .balancer => [.vars, .peer, .store, .metrics, .errorLog]
  | .headerFilter => [.responseHeaders, .vars, .status, .store, .metrics, .errorLog]
  | .bodyFilter => [.responseHeaders, .vars, .chunkOutput, .store, .metrics, .errorLog]
  | .log => [.vars, .store, .metrics, .errorLog]
  | .sslClientHello => [.verdict, .errorLog]
  | .sslCertificate => [.verdict, .ssl, .errorLog]

/-- What a phase has the capability for is one of its parts, and each of its parts is one of these. -/
theorem mem_phaseParts {phase : Runtime.Phase} {p : Part} :
    p ∈ phaseParts phase ↔
      ∃ f ∈ hostFuncs, f.granted (phaseCapabilities phase) = true ∧ p ∈ f.writes := by
  have hall : ∀ phase, (∀ f ∈ hostFuncs, f.granted (phaseCapabilities phase) = true →
      ∀ p ∈ f.writes, p ∈ phaseParts phase) ∧ ∀ p ∈ phaseParts phase,
        ∃ f ∈ hostFuncs, f.granted (phaseCapabilities phase) = true ∧ p ∈ f.writes := by
    intro phase
    cases phase <;> decide +kernel
  exact ⟨(hall phase).2 p, fun ⟨f, hf, hgranted, hp⟩ => (hall phase).1 f hf hgranted p hp⟩

theorem callImports_confined {phase : Runtime.Phase} (cs : List ImportCall)
    (hcaps : h.abi.capabilities = phaseCapabilities phase) {p : Part} (hp : p ∉ phaseParts phase) :
    Host.part p (callImports cs h).2 = Host.part p h := by
  refine callImports_within cs h p fun ⟨a, _, hmem⟩ => hp ?_
  rw [hcaps] at hmem
  exact mem_phaseParts.mpr ⟨a.1.fn, a.1.defined, hmem.2.1, hmem.1⟩

end Guests

/-- **A guest changes what its phase is for.** Whatever host functions it calls, in any order, with any
arguments and any memory: each part of the host that has changed was changed by a call that returned,
of a host function that is for this part and whose capability the guest has. So the guest of a hook
changes no part but those of its phase. -/
theorem guest_confined (W : World) (h : Host W) (calls : List ImportCall) :
    (∀ p, Host.part p (callImports calls h).2 ≠ Host.part p h →
      ∃ a ∈ (callImports calls h).1, p ∈ a.1.fn.writes ∧
        a.1.fn.granted h.abi.capabilities = true ∧ ∃ rc, a.2 = .ret rc) ∧
      ∀ phase, h.abi.capabilities = phaseCapabilities phase →
        ∀ p, p ∉ phaseParts phase → Host.part p (callImports calls h).2 = Host.part p h := by
  refine ⟨fun p hne => ?_, fun phase hcaps p hp => callImports_confined calls hcaps hp⟩
  by_contra hno
  exact hne (callImports_within calls h p hno)

/-- A guest of the header filter, which sets the status and then asks for a body. -/
def bodyWanted : List ImportCall :=
  [⟨hostRespSetStatus, by simp [hostFuncs], ⟨0, 0⟩, [.i32 204], 1, ⟨true, 65536, fun _ => 97⟩⟩,
    ⟨hostRespWrite, by simp [hostFuncs], ⟨0, 0⟩, [.i32 0, .i32 2], 1, ⟨true, 65536, fun _ => 97⟩⟩]

theorem guest_confined_header_filter :
    let h := plainHost (phaseCapabilities .headerFilter)
    Host.part .status (callImports bodyWanted h).2 = (true, 204) ∧
      Host.part .body (callImports bodyWanted h).2 = Host.part .body h :=
  ⟨rfl, (guest_confined plainWorld (plainHost (phaseCapabilities .headerFilter)) bodyWanted).2
    .headerFilter rfl .body (by decide)⟩

end NgxWasm.Abi
