import NgxWasm.Abi.Calls

/-!
# The imports (`src/ngx_http_wasm_runtime.c`)

The host functions of the guest all go the same way: the signature, a refusal of negative
arguments, the bounds of each pointer and length, the capability, then the call of the ABI function
with its arguments converted. `HostFn` is one of them, with the values in which they differ; each
has its definition under its own name, and `hostFuncs` is the list of all of them.

`HostFn.decode` is a host function up to the call of the ABI: a trap with its message, a result that
is returned at once, or the call. `HostFn.run` makes the call and returns what it returns. Arguments
are 32-bit numbers, or else the signature is bad. A pointer is read zero-extended; a length is read
twice, zero-extended for the bounds and sign-extended for the call.

* `slices_checked_iff`: the two are the same, and what the call uses lies in the guest's memory,
  exactly if no length is negative.
* `import_confined`: a call without its capability is refused and changes nothing, and the hooks of a
  TLS handshake never follow the request they do not have. The capabilities of each phase are those
  of `ngx_http_wasm_runtime_init_exec_ctx` (`phaseCapabilities`, `sslCapabilities`).

The linker has the types of an import as well (`Config.Loader`); the host's own test of the signature
is kept all the same.
-/

namespace NgxWasm.Abi

/-! ## The host functions -/

/-- `wasmtime_val_t`. -/
inductive Val where
  | i32 (v : Int32)
  | other
  deriving DecidableEq

/-- `args[i].of.i32`. -/
def argOf (args : List Val) (i : Nat) : Int32 :=
  match args[i]? with
  | some (.i32 v) => v
  | _ => 0

/-- A host function. -/
structure HostFn where
  /-- The name of the import, which also stands in its messages. -/
  name : String
  nargs : Nat
  /-- The arguments that are refused below zero. -/
  nonneg : List Nat := []
  /-- Pointer and length of each call of `ngx_http_wasm_runtime_get_memory` or
  `ngx_http_wasm_runtime_get_memory_mut`. -/
  ranges : List (Nat × Nat) := []
  /-- The capability the import tests itself. -/
  cap : Option UInt64 := none
  /-- A success sets `yielded`, and `suspend_kind` to waiting for I/O. -/
  waits : Bool := false
  /-- The call of the ABI function. -/
  call : (Nat → Int32) → AbiCall

/-- `(uint32_t)args[i].of.i32`. -/
def asU32 (v : Int32) : UInt32 := v.toUInt32

/-- `(size_t)args[i].of.i32`. -/
def asSize (v : Int32) : UInt64 := v.toInt64.toUInt64

/-- The pointer `args[i]` and the length `args[j]` as a call gets them. -/
def sliceArg (a : Nat → Int32) (i j : Nat) : Slice := ⟨asU32 (a i), asSize (a j)⟩

/-- `ngx_http_wasm_runtime_get_memory`: the message of its trap, if there is one. -/
def getMemory (m : Mem) (ptr len : UInt32) : Option String :=
  if !m.exported then some "guest memory export not found"
  else if ptr.toNat + len.toNat > m.size then some "guest memory access out of bounds"
  else none

/-- The first trap of the ranges. -/
def getMemories (m : Mem) (a : Nat → Int32) (ranges : List (Nat × Nat)) : Option String :=
  ranges.findSome? fun r => getMemory m (asU32 (a r.1)) (asU32 (a r.2))

/-- The signature is `nargs` numbers of 32 bits and one result. -/
def HostFn.signatureOk (f : HostFn) (args : List Val) (nresults : Nat) : Bool :=
  args.length == f.nargs && nresults == 1 && args.all fun v => v != .other

/-- A host function up to the call of the ABI. -/
def HostFn.decode (f : HostFn) (capabilities : UInt64) (m : Mem) (args : List Val) (nresults : Nat) :
    Outcome ⊕ AbiCall :=
  let a := argOf args
  if !f.signatureOk args nresults then .inl (.trap ("bad " ++ f.name ++ " signature"))
  else if f.nonneg.any fun i => decide (a i < 0) then .inl (.ret (Int32.ofInt wasmError))
  else
    match getMemories m a f.ranges with
    | some message => .inl (.trap message)
    | none =>
      if f.cap.any fun cap => capabilities &&& cap == 0 then
        .inl (.trap (f.name ++ " not allowed in this phase"))
      else .inr (f.call a)

/-- What an import does after its call. -/
def HostFn.finish {W : World} (f : HostFn) (r : Result W) : Result W :=
  if f.waits ∧ r.outcome = .ret (Int32.ofInt wasmOk) then
    { r with host := { r.host with yielded := true, suspendKind := .waitIo } }
  else r

/-- A host function. -/
def HostFn.run {W : World} (f : HostFn) (now : Clock) (args : List Val) (nresults : Nat) (h : Host W)
    (m : Mem) : Result W :=
  match f.decode h.abi.capabilities m args nresults with
  | .inl outcome => ⟨outcome, h, m⟩
  | .inr call => f.finish (call.exec now h m)

/-- `ngx_http_wasm_host_log`. -/
def hostLog : HostFn where
  name := "ngx_wasm_log"
  nargs := 3
  ranges := [(1, 2)]
  call a := .log (asSize (a 0)) (sliceArg a 1 2)

/-- `ngx_http_wasm_host_resp_set_status`. -/
def hostRespSetStatus : HostFn where
  name := "ngx_wasm_resp_set_status"
  nargs := 1
  cap := some capRespStatusSet
  call a := .respSetStatus (a 0).toInt

/-- `ngx_http_wasm_host_resp_get_status`. -/
def hostRespGetStatus : HostFn where
  name := "ngx_wasm_resp_get_status"
  nargs := 0
  cap := some capRespStatusGet
  call _ := .respGetStatus

/-- The three writers of metrics differ in their name and in the function they call. -/
def hostMetric (name : String) (call : Slice → Int64 → AbiCall) : HostFn where
  name := name
  nargs := 3
  nonneg := [0, 1]
  ranges := [(0, 1)]
  cap := some capMetrics
  call a := call (sliceArg a 0 1) (a 2).toInt64

/-- `ngx_http_wasm_host_metric_counter_inc`. -/
def hostMetricCounterInc : HostFn := hostMetric "ngx_wasm_metric_counter_inc" .metricCounterInc

/-- `ngx_http_wasm_host_metric_gauge_set`. -/
def hostMetricGaugeSet : HostFn := hostMetric "ngx_wasm_metric_gauge_set" .metricGaugeSet

/-- `ngx_http_wasm_host_metric_gauge_add`. -/
def hostMetricGaugeAdd : HostFn := hostMetric "ngx_wasm_metric_gauge_add" .metricGaugeAdd

/-- `ngx_http_wasm_host_balancer_set_peer`. -/
def hostBalancerSetPeer : HostFn where
  name := "ngx_wasm_balancer_set_peer"
  nargs := 1
  nonneg := [0]
  cap := some capBalancer
  call a := .balancerSetPeer (asSize (a 0))

/-- `ngx_http_wasm_host_shm_get`. -/
def hostShmGet : HostFn where
  name := "ngx_wasm_shm_get"
  nargs := 4
  nonneg := [0, 1, 2, 3]
  ranges := [(0, 1), (2, 3)]
  cap := some capSharedKv
  call a := .shmGet (sliceArg a 0 1) (sliceArg a 2 3)

/-- The two calls of the store on a key alone. -/
def hostShmKey (name : String) (call : Slice → AbiCall) : HostFn where
  name := name
  nargs := 2
  nonneg := [0, 1]
  ranges := [(0, 1)]
  cap := some capSharedKv
  call a := call (sliceArg a 0 1)

/-- `ngx_http_wasm_host_shm_exists`. -/
def hostShmExists : HostFn := hostShmKey "ngx_wasm_shm_exists" .shmExists

/-- `ngx_http_wasm_host_shm_delete`. -/
def hostShmDelete : HostFn := hostShmKey "ngx_wasm_shm_delete" .shmDelete

/-- `ngx_http_wasm_host_shm_incr`. -/
def hostShmIncr : HostFn where
  name := "ngx_wasm_shm_incr"
  nargs := 3
  nonneg := [0, 1]
  ranges := [(0, 1)]
  cap := some capSharedKv
  call a := .shmIncr (sliceArg a 0 1) (a 2).toInt

/-- The three calls of the store on a key and a value. -/
def hostShmWrite (name : String) (call : Slice → Slice → AbiCall) : HostFn where
  name := name
  nargs := 4
  nonneg := [0, 1, 2, 3]
  ranges := [(0, 1), (2, 3)]
  cap := some capSharedKv
  call a := call (sliceArg a 0 1) (sliceArg a 2 3)

/-- `ngx_http_wasm_host_shm_set`. -/
def hostShmSet : HostFn := hostShmWrite "ngx_wasm_shm_set" .shmSet

/-- `ngx_http_wasm_host_shm_add`. -/
def hostShmAdd : HostFn := hostShmWrite "ngx_wasm_shm_add" .shmAdd

/-- `ngx_http_wasm_host_shm_replace`. -/
def hostShmReplace : HostFn := hostShmWrite "ngx_wasm_shm_replace" .shmReplace

/-- `ngx_http_wasm_host_shm_set_ex`. -/
def hostShmSetEx : HostFn where
  name := "ngx_wasm_shm_set_ex"
  nargs := 5
  nonneg := [0, 1, 2, 3, 4]
  ranges := [(0, 1), (2, 3)]
  cap := some capSharedKv
  call a := .shmSetEx (sliceArg a 0 1) (sliceArg a 2 3) (asSize (a 4))

/-- `ngx_http_wasm_host_ssl_get_server_name`. -/
def hostSslGetServerName : HostFn where
  name := "ngx_wasm_ssl_get_server_name"
  nargs := 2
  ranges := [(0, 1)]
  call a := .sslGetServerName (sliceArg a 0 1)

/-- `ngx_http_wasm_host_ssl_reject_handshake`. -/
def hostSslRejectHandshake : HostFn where
  name := "ngx_wasm_ssl_reject_handshake"
  nargs := 1
  call a := .sslRejectHandshake (a 0).toInt

/-- `ngx_http_wasm_host_ssl_set_certificate`. -/
def hostSslSetCertificate : HostFn where
  name := "ngx_wasm_ssl_set_certificate"
  nargs := 4
  ranges := [(0, 1), (2, 3)]
  call a := .sslSetCertificate (sliceArg a 0 1) (sliceArg a 2 3)

/-- `ngx_http_wasm_host_req_set_header`. -/
def hostReqSetHeader : HostFn where
  name := "ngx_wasm_req_set_header"
  nargs := 4
  ranges := [(0, 1), (2, 3)]
  cap := some capReqHeadersRw
  call a := .reqSetHeader (sliceArg a 0 1) (sliceArg a 2 3)

/-- `ngx_http_wasm_host_req_get_header`. -/
def hostReqGetHeader : HostFn where
  name := "ngx_wasm_req_get_header"
  nargs := 4
  nonneg := [0, 1, 2, 3]
  ranges := [(0, 1), (2, 3)]
  call a := .reqGetHeader (sliceArg a 0 1) (sliceArg a 2 3)

/-- `ngx_http_wasm_host_var_get`. -/
def hostVarGet : HostFn where
  name := "ngx_wasm_var_get"
  nargs := 4
  nonneg := [0, 1, 2, 3]
  ranges := [(0, 1), (2, 3)]
  cap := some capVarGet
  call a := .varGet (sliceArg a 0 1) (sliceArg a 2 3)

/-- `ngx_http_wasm_host_var_set`. -/
def hostVarSet : HostFn where
  name := "ngx_wasm_var_set"
  nargs := 4
  nonneg := [0, 1, 2, 3]
  ranges := [(0, 1), (2, 3)]
  cap := some capVarSet
  call a := .varSet (sliceArg a 0 1) (sliceArg a 2 3)

/-- The functions that fill one buffer, and refuse a negative pointer or length. -/
def hostBuffer (name : String) (cap : UInt64) (call : Slice → AbiCall) : HostFn where
  name := name
  nargs := 2
  nonneg := [0, 1]
  ranges := [(0, 1)]
  cap := some cap
  call a := call (sliceArg a 0 1)

/-- `ngx_http_wasm_host_time_unix_ms`. -/
def hostTimeUnixMs : HostFn := hostBuffer "ngx_wasm_time_unix_ms" capTime .timeUnixMs

/-- `ngx_http_wasm_host_time_monotonic_ms`. -/
def hostTimeMonotonicMs : HostFn :=
  hostBuffer "ngx_wasm_time_monotonic_ms" capTime .timeMonotonicMs

/-- `ngx_http_wasm_host_resp_get_body_chunk`. -/
def hostRespGetBodyChunk : HostFn :=
  hostBuffer "ngx_wasm_resp_get_body_chunk" capRespBodyChunkRead .respGetBodyChunk

/-- `ngx_http_wasm_host_req_get_body`. -/
def hostReqGetBody : HostFn := hostBuffer "ngx_wasm_req_get_body" capReqBodyGet .reqGetBody

/-- `ngx_http_wasm_host_resp_set_header`. -/
def hostRespSetHeader : HostFn where
  name := "ngx_wasm_resp_set_header"
  nargs := 4
  ranges := [(0, 1), (2, 3)]
  cap := some capRespHeadersRw
  call a := .respSetHeader (sliceArg a 0 1) (sliceArg a 2 3)

/-- `ngx_http_wasm_host_resp_get_header`. -/
def hostRespGetHeader : HostFn where
  name := "ngx_wasm_resp_get_header"
  nargs := 4
  nonneg := [2, 3]
  ranges := [(0, 1), (2, 3)]
  cap := some capRespHeadersRw
  call a := .respGetHeader (sliceArg a 0 1) (sliceArg a 2 3)

/-- `ngx_http_wasm_host_resp_get_body_chunk_eof`. -/
def hostRespGetBodyChunkEof : HostFn where
  name := "ngx_wasm_resp_get_body_chunk_eof"
  nargs := 0
  cap := some capRespBodyChunkRead
  call _ := .respGetBodyChunkEof

/-- `ngx_http_wasm_host_resp_set_body_chunk`. -/
def hostRespSetBodyChunk : HostFn where
  name := "ngx_wasm_resp_set_body_chunk"
  nargs := 2
  ranges := [(0, 1)]
  cap := some capRespBodyChunkWrite
  call a := .respSetBodyChunk (sliceArg a 0 1)

/-- `ngx_http_wasm_host_resp_write`. -/
def hostRespWrite : HostFn where
  name := "ngx_wasm_resp_write"
  nargs := 2
  ranges := [(0, 1)]
  cap := some capRespBodyWrite
  call a := .respWrite (sliceArg a 0 1)

/-- `ngx_http_wasm_host_subreq_set_header`. -/
def hostSubreqSetHeader : HostFn where
  name := "ngx_wasm_subreq_set_header"
  nargs := 4
  ranges := [(0, 1), (2, 3)]
  cap := some capSubrequest
  call a := .subreqSetHeader (sliceArg a 0 1) (sliceArg a 2 3)

/-- `ngx_http_wasm_host_subreq`. -/
def hostSubreq : HostFn where
  name := "ngx_wasm_subreq"
  nargs := 6
  ranges := [(0, 1), (2, 3)]
  cap := some capSubrequest
  waits := true
  call a := .subreq (sliceArg a 0 1) (sliceArg a 2 3) (asSize (a 4)) (asSize (a 5))

/-- `ngx_http_wasm_host_subreq_get_status`. -/
def hostSubreqGetStatus : HostFn where
  name := "ngx_wasm_subreq_get_status"
  nargs := 0
  cap := some capSubrequest
  call _ := .subreqGetStatus

/-- `ngx_http_wasm_host_subreq_get_header`. -/
def hostSubreqGetHeader : HostFn where
  name := "ngx_wasm_subreq_get_header"
  nargs := 4
  ranges := [(0, 1), (2, 3)]
  cap := some capSubrequest
  call a := .subreqGetHeader (sliceArg a 0 1) (sliceArg a 2 3)

/-- `ngx_http_wasm_host_subreq_get_body`. -/
def hostSubreqGetBody : HostFn where
  name := "ngx_wasm_subreq_get_body"
  nargs := 2
  ranges := [(0, 1)]
  cap := some capSubrequest
  call a := .subreqGetBody (sliceArg a 0 1)

/-- `ngx_http_wasm_host_subreq_get_body_len`. -/
def hostSubreqGetBodyLen : HostFn where
  name := "ngx_wasm_subreq_get_body_len"
  nargs := 0
  cap := some capSubrequest
  call _ := .subreqGetBodyLen

/-- `ngx_http_wasm_host_yield`. -/
def hostYield : HostFn where
  name := "ngx_wasm_yield"
  nargs := 0
  cap := some capYield
  call _ := .yield

/-- The functions that `ngx_http_wasm_runtime_define_host_funcs` defines. -/
def hostFuncs : List HostFn :=
  [hostLog, hostRespSetStatus, hostRespGetStatus, hostMetricCounterInc, hostMetricGaugeSet,
    hostMetricGaugeAdd, hostBalancerSetPeer, hostShmGet, hostShmExists, hostShmIncr, hostShmSet,
    hostShmSetEx, hostShmAdd, hostShmReplace, hostShmDelete, hostSslGetServerName,
    hostSslRejectHandshake, hostSslSetCertificate, hostReqSetHeader, hostReqGetHeader, hostVarGet,
    hostVarSet, hostTimeUnixMs, hostTimeMonotonicMs, hostSubreqSetHeader, hostSubreq,
    hostSubreqGetStatus, hostSubreqGetHeader, hostSubreqGetBody, hostSubreqGetBodyLen,
    hostRespSetHeader, hostRespGetHeader, hostRespGetBodyChunk, hostRespGetBodyChunkEof,
    hostRespSetBodyChunk, hostReqGetBody, hostRespWrite, hostYield]

/-! ## Two readings of a length -/

/-- The ranges a call reads or writes. -/
def AbiCall.slices : AbiCall → List Slice
  | .log _ data => [data]
  | .metricCounterInc name _ | .metricGaugeSet name _ | .metricGaugeAdd name _ => [name]
  | .shmGet key buf => [key, buf]
  | .shmExists key | .shmIncr key _ | .shmDelete key => [key]
  | .shmSet key value | .shmSetEx key value _ | .shmAdd key value | .shmReplace key value =>
    [key, value]
  | .sslGetServerName buf => [buf]
  | .sslSetCertificate cert key => [cert, key]
  | .reqSetHeader name value | .varSet name value | .respSetHeader name value
  | .subreqSetHeader name value => [name, value]
  | .reqGetHeader name buf | .varGet name buf | .respGetHeader name buf
  | .subreqGetHeader name buf => [name, buf]
  | .timeUnixMs buf | .timeMonotonicMs buf | .respGetBodyChunk buf | .reqGetBody buf
  | .subreqGetBody buf => [buf]
  | .respSetBodyChunk data | .respWrite data => [data]
  | .subreq uri args _ _ => [uri, args]
  | .respSetStatus _ | .respGetStatus | .balancerSetPeer _ | .sslRejectHandshake _
  | .respGetBodyChunkEof | .subreqGetStatus | .subreqGetBodyLen | .yield => []

/-- The ranges whose bounds an import has checked. -/
def HostFn.checked (f : HostFn) (a : Nat → Int32) : List Slice :=
  f.ranges.map fun r => ⟨asU32 (a r.1), (asU32 (a r.2)).toUInt64⟩

/-- A call has the ranges of its import. -/
theorem slices_call {f : HostFn} (hf : f ∈ hostFuncs) (a : Nat → Int32) :
    (f.call a).slices = f.ranges.map fun r => sliceArg a r.1 r.2 := by
  revert hf f
  simp only [hostFuncs, List.forall_mem_cons]
  refine ⟨rfl, rfl, rfl, rfl, rfl, rfl, rfl, rfl, rfl, rfl, rfl, rfl, rfl, rfl, rfl, rfl, rfl, rfl,
    rfl, rfl, rfl, rfl, rfl, rfl, rfl, rfl, rfl, rfl, rfl, rfl, rfl, rfl, rfl, rfl, rfl, rfl, rfl,
    rfl, fun f hf => absurd hf List.not_mem_nil⟩

/-- **A length is read the same twice** if it is not negative, and only then. -/
theorem asSize_eq_iff (v : Int32) : asSize v = (asU32 v).toUInt64 ↔ 0 ≤ v := by
  have hsize : (asSize v).toNat = (v.toBitVec.signExtend 64).toNat := rfl
  have hu32 : (asU32 v).toUInt64.toNat = v.toBitVec.toNat := rfl
  have hint : v.toInt = v.toBitVec.toInt := rfl
  have hzero : (0 : Int32).toInt = 0 := rfl
  have hmsb := v.toBitVec.msb_eq_toInt
  have hlt := v.toBitVec.isLt
  rw [← UInt64.toNat_inj, hsize, hu32, BitVec.toNat_signExtend, Int32.le_iff_toInt_le, hzero, hint]
  cases hm : v.toBitVec.msb with
  | false =>
    have hnonneg : ¬ v.toBitVec.toInt < 0 := by simpa [hm] using hmsb
    simp
    omega
  | true =>
    have hneg : v.toBitVec.toInt < 0 := by simpa [hm] using hmsb
    simp
    omega

/-- What a call that reaches the ABI has passed. -/
theorem decode_inr {f : HostFn} {capabilities : UInt64} {m : Mem} {args : List Val} {nresults : Nat}
    {call : AbiCall} (h : f.decode capabilities m args nresults = .inr call) :
    call = f.call (argOf args) ∧ getMemories m (argOf args) f.ranges = none ∧
      ∀ cap, f.cap = some cap → capabilities &&& cap ≠ 0 := by
  unfold HostFn.decode at h
  dsimp only at h
  split at h
  · cases h
  · split at h
    · cases h
    · split at h
      · cases h
      · rename_i hmem
        split at h
        · cases h
        · rename_i hcap
          refine ⟨(Sum.inr.inj h).symm, hmem, fun cap hc => ?_⟩
          simpa [hc] using hcap

/-- **What a call uses is what its import checked**: every range is used with the length that was
checked, and lies in the memory of the guest, exactly if no length is negative as a number of 32
bits. -/
theorem slices_checked_iff {f : HostFn} (hf : f ∈ hostFuncs) {capabilities : UInt64} {m : Mem}
    {args : List Val} {nresults : Nat} {call : AbiCall}
    (hreach : f.decode capabilities m args nresults = .inr call) :
    (call.slices = f.checked (argOf args) ∧
      ∀ s ∈ call.slices, s.ptr.toNat + s.len.toNat ≤ m.size) ↔
      ∀ r ∈ f.ranges, 0 ≤ argOf args r.2 := by
  obtain ⟨rfl, hmem, -⟩ := decode_inr hreach
  have heq : (f.call (argOf args)).slices = f.checked (argOf args) ↔
      ∀ r ∈ f.ranges, 0 ≤ argOf args r.2 := by
    rw [slices_call hf, HostFn.checked, List.map_inj_left]
    refine forall₂_congr fun r _ => ?_
    rw [← asSize_eq_iff, sliceArg, Slice.mk.injEq]
    exact and_iff_right rfl
  rw [← heq]
  refine and_iff_left_of_imp fun hs s hsm => ?_
  rw [hs] at hsm
  obtain ⟨r, hr, rfl⟩ := List.mem_map.mp hsm
  have hin := List.findSome?_eq_none_iff.mp hmem r hr
  unfold getMemory at hin
  split at hin
  · cases hin
  · split at hin
    · cases hin
    · rename_i hle
      have hlen : (asU32 (argOf args r.2)).toUInt64.toNat = (asU32 (argOf args r.2)).toNat := rfl
      dsimp only
      omega

/-- A body of five bytes. -/
theorem slices_checked_iff_write :
    let m : Mem := ⟨true, 65536, fun _ => 0⟩
    hostRespWrite.decode capRespBodyWrite m [.i32 1024, .i32 5] 1 = .inr (.respWrite ⟨1024, 5⟩) ∧
      (((AbiCall.respWrite ⟨1024, 5⟩).slices = hostRespWrite.checked (argOf [.i32 1024, .i32 5]) ∧
        ∀ s ∈ (AbiCall.respWrite ⟨1024, 5⟩).slices, s.ptr.toNat + s.len.toNat ≤ m.size) ↔
      ∀ r ∈ hostRespWrite.ranges, 0 ≤ argOf [.i32 1024, .i32 5] r.2) := by
  have hreach : hostRespWrite.decode capRespBodyWrite ⟨true, 65536, fun _ => 0⟩
      [.i32 1024, .i32 5] 1 = .inr (.respWrite ⟨1024, 5⟩) := by decide
  exact ⟨hreach, slices_checked_iff (by simp [hostFuncs]) hreach⟩

/-- A body of 2 GiB, in a memory that is larger: it passes the bounds, and the call gets a length
near the end of the address space. -/
theorem long_body_sign_extended :
    let m : Mem := ⟨true, 0x80010000, fun _ => 0⟩
    hostRespWrite.decode capRespBodyWrite m [.i32 0, .i32 (-0x80000000)] 1 =
        .inr (.respWrite ⟨0, 0xffffffff80000000⟩) ∧
      hostRespWrite.checked (argOf [.i32 0, .i32 (-0x80000000)]) = [⟨0, 0x80000000⟩] ∧
      ¬ ((AbiCall.respWrite ⟨0, 0xffffffff80000000⟩).slices =
          hostRespWrite.checked (argOf [.i32 0, .i32 (-0x80000000)]) ∧
        ∀ s ∈ (AbiCall.respWrite ⟨0, 0xffffffff80000000⟩).slices,
          s.ptr.toNat + s.len.toNat ≤ m.size) := by
  decide

/-! ## Capabilities -/

/-- The capabilities `ngx_http_wasm_runtime_init_exec_ctx` gives to a phase. -/
def phaseCapabilities : Runtime.Phase → UInt64
  | .headerFilter =>
    capReqHeadersRo ||| capVarGet ||| capTime ||| capRespStatusSet ||| capRespHeadersRw |||
      capSharedKv ||| capMetrics
  | .balancer =>
    capReqHeadersRo ||| capVarGet ||| capVarSet ||| capTime ||| capSharedKv ||| capMetrics |||
      capBalancer
  | .bodyFilter =>
    capReqHeadersRo ||| capVarGet ||| capTime ||| capRespHeadersRw ||| capRespBodyChunkRead |||
      capRespBodyChunkWrite ||| capSharedKv ||| capMetrics
  | .log =>
    capReqHeadersRo ||| capVarGet ||| capTime ||| capRespStatusGet ||| capSharedKv ||| capMetrics
  | .sslClientHello => capSslServerNameGet ||| capSslHandshakeReject ||| capTime
  | .sslCertificate =>
    capSslServerNameGet ||| capSslHandshakeReject ||| capSslCertificateSet ||| capTime
  | .content | .rewrite | .serverRewrite =>
    capReqHeadersRo ||| capReqHeadersRw ||| capVarGet ||| capVarSet ||| capTime ||| capReqBodyGet |||
      capRespStatusSet ||| capRespStatusGet ||| capRespHeadersRw ||| capRespBodyWrite ||| capYield |||
      capSharedKv ||| capMetrics ||| capSubrequest

/-- The capabilities `ngx_http_wasm_runtime_init_ssl_exec_ctx` gives to a phase. -/
def sslCapabilities : Runtime.Phase → UInt64
  | .sslClientHello => capSslServerNameGet ||| capSslHandshakeReject ||| capTime
  | .sslCertificate =>
    capSslServerNameGet ||| capSslHandshakeReject ||| capSslCertificateSet ||| capTime
  | _ => capSslServerNameGet ||| capTime

/-- The capability that a call is for. Logging needs none. -/
def AbiCall.capability : AbiCall → Option UInt64
  | .log _ _ => none
  | .respSetStatus _ => some capRespStatusSet
  | .respGetStatus => some capRespStatusGet
  | .metricCounterInc _ _ | .metricGaugeSet _ _ | .metricGaugeAdd _ _ => some capMetrics
  | .balancerSetPeer _ => some capBalancer
  | .shmGet _ _ | .shmExists _ | .shmIncr _ _ | .shmSet _ _ | .shmSetEx _ _ _ | .shmAdd _ _
  | .shmReplace _ _ | .shmDelete _ => some capSharedKv
  | .sslGetServerName _ => some capSslServerNameGet
  | .sslRejectHandshake _ => some capSslHandshakeReject
  | .sslSetCertificate _ _ => some capSslCertificateSet
  | .reqSetHeader _ _ => some capReqHeadersRw
  | .reqGetHeader _ _ => some capReqHeadersRo
  | .varGet _ _ => some capVarGet
  | .varSet _ _ => some capVarSet
  | .timeUnixMs _ | .timeMonotonicMs _ => some capTime
  | .respSetHeader _ _ | .respGetHeader _ _ => some capRespHeadersRw
  | .respGetBodyChunk _ | .respGetBodyChunkEof => some capRespBodyChunkRead
  | .respSetBodyChunk _ => some capRespBodyChunkWrite
  | .reqGetBody _ => some capReqBodyGet
  | .respWrite _ => some capRespBodyWrite
  | .subreqSetHeader _ _ | .subreq _ _ _ _ | .subreqGetStatus | .subreqGetHeader _ _
  | .subreqGetBody _ | .subreqGetBodyLen => some capSubrequest
  | .yield => some capYield

/-- The capability of an import. -/
def HostFn.capability (f : HostFn) : Option UInt64 := (f.call fun _ => 0).capability

theorem capability_call {f : HostFn} (hf : f ∈ hostFuncs) (a : Nat → Int32) :
    (f.call a).capability = f.capability := by
  revert hf f
  simp only [hostFuncs, List.forall_mem_cons]
  refine ⟨rfl, rfl, rfl, rfl, rfl, rfl, rfl, rfl, rfl, rfl, rfl, rfl, rfl, rfl, rfl, rfl, rfl, rfl,
    rfl, rfl, rfl, rfl, rfl, rfl, rfl, rfl, rfl, rfl, rfl, rfl, rfl, rfl, rfl, rfl, rfl, rfl, rfl,
    rfl, fun f hf => absurd hf List.not_mem_nil⟩

/-- Yielding has no function of the ABI to test its capability: its import does. -/
theorem yield_call {f : HostFn} (hf : f ∈ hostFuncs) {a : Nat → Int32} (h : f.call a = .yield) :
    f.cap = some capYield := by
  revert h
  revert hf f
  simp only [hostFuncs, List.forall_mem_cons]
  refine ⟨nofun, nofun, nofun, nofun, nofun, nofun, nofun, nofun, nofun, nofun, nofun, nofun, nofun,
    nofun, nofun, nofun, nofun, nofun, nofun, nofun, nofun, nofun, nofun, nofun, nofun, nofun, nofun,
    nofun, nofun, nofun, nofun, nofun, nofun, nofun, nofun, nofun, nofun, fun _ => rfl,
    fun f hf => absurd hf List.not_mem_nil⟩

section Host

variable {W : World}

theorem Host.require_denied {h : Host W} {m : Mem} {cap : UInt64} {body : Result W}
    (hcap : h.abi.capabilities &&& cap = 0) : h.require m cap body = h.reply m wasmError :=
  if_pos hcap

/-- **Without its capability** a function of the ABI does nothing but return -2. -/
theorem exec_denied {now : Clock} {h : Host W} {m : Mem} {call : AbiCall} {cap : UInt64}
    (hcap : call.capability = some cap) (hlack : h.abi.capabilities &&& cap = 0)
    (hyield : call ≠ .yield) : call.exec now h m = h.reply m wasmError := by
  cases call
  case log => cases hcap
  case yield => exact absurd rfl hyield
  all_goals
    obtain rfl := Option.some.inj hcap
    exact Host.require_denied hlack

/-- What a refused call leaves. -/
structure Refused (h : Host W) (m : Mem) (r : Result W) : Prop where
  outcome : (∃ message, r.outcome = .trap message) ∨ r.outcome = .ret (-2)
  host : r.host = h
  mem : r.mem = m

theorem run_refused {f : HostFn} (hf : f ∈ hostFuncs) {now : Clock} {args : List Val}
    {nresults : Nat} {h : Host W} {m : Mem} {cap : UInt64} (hcap : f.capability = some cap)
    (hlack : h.abi.capabilities &&& cap = 0) : Refused h m (f.run now args nresults h m) := by
  unfold HostFn.run
  cases hd : f.decode h.abi.capabilities m args nresults with
  | inl outcome =>
    refine ⟨?_, rfl, rfl⟩
    unfold HostFn.decode at hd
    dsimp only at hd
    split at hd
    · exact .inl ⟨_, (Sum.inl.inj hd).symm⟩
    · split at hd
      · exact .inr (Sum.inl.inj hd).symm
      · split at hd
        · exact .inl ⟨_, (Sum.inl.inj hd).symm⟩
        · split at hd
          · exact .inl ⟨_, (Sum.inl.inj hd).symm⟩
          · cases hd
  | inr call =>
    obtain ⟨rfl, -, htest⟩ := decode_inr hd
    have hcall : (f.call (argOf args)).capability = some cap := (capability_call hf _).trans hcap
    have hyield : f.call (argOf args) ≠ .yield := by
      intro hy
      rw [hy] at hcall
      obtain rfl := Option.some.inj hcall
      exact htest capYield (yield_call hf hy) hlack
    have hexec : (f.call (argOf args)).exec now h m = h.reply m wasmError :=
      exec_denied hcall hlack hyield
    dsimp only
    rw [hexec]
    unfold HostFn.finish
    have hne : ¬ (f.waits ∧ (h.reply m wasmError).outcome = .ret (Int32.ofInt wasmOk)) := by
      rintro ⟨-, ho⟩
      exact absurd (Outcome.ret.inj ho) (by decide)
    rw [if_neg hne]
    exact ⟨.inr rfl, rfl, rfl⟩

theorem Host.require_ne_null {h : Host W} {m : Mem} {cap : UInt64} {body : Result W}
    (hb : body.outcome ≠ .nullRequest) : (h.require m cap body).outcome ≠ .nullRequest := by
  unfold Host.require
  split
  · exact nofun
  · exact hb

theorem sslSetCertificate_ne_null {cert key : Slice} {h : Host W} {m : Mem} :
    (sslSetCertificate cert key h m).outcome ≠ .nullRequest := by
  refine Host.require_ne_null ?_
  split
  · exact nofun
  · split
    · exact nofun
    · split
      · exact nofun
      · split
        · exact nofun
        · split
          · exact nofun
          · split <;> exact nofun

/-- **In a TLS handshake** no call follows the request: those that would lack their capability. -/
theorem exec_ssl {now : Clock} {h : Host W} {m : Mem} {call : AbiCall} {phase : Runtime.Phase}
    (hcaps : h.abi.capabilities = sslCapabilities phase) :
    (call.exec now h m).outcome ≠ .nullRequest := by
  have hdenied : ∀ cap, call.capability = some cap → (∀ p, sslCapabilities p &&& cap = 0) →
      call ≠ .yield → (call.exec now h m).outcome ≠ .nullRequest := by
    intro cap hcap hlack hyield
    rw [exec_denied hcap (hcaps ▸ hlack phase) hyield]
    exact nofun
  cases call
  case log level data =>
    simp only [AbiCall.exec, Abi.log]
    split <;> exact nofun
  case sslGetServerName buf =>
    simp only [AbiCall.exec, sslGetServerName]
    refine Host.require_ne_null ?_
    split <;> exact nofun
  case sslRejectHandshake alert => exact Host.require_ne_null nofun
  case sslSetCertificate cert key => exact sslSetCertificate_ne_null
  case timeUnixMs buf | timeMonotonicMs buf =>
    simp only [AbiCall.exec, timeUnixMs, timeMonotonicMs, time]
    refine Host.require_ne_null ?_
    split <;> exact nofun
  case yield => exact nofun
  all_goals exact hdenied _ rfl (by intro p; cases p <;> decide) (by intro hy; cases hy)

theorem run_ssl {f : HostFn} {now : Clock} {args : List Val} {nresults : Nat} {h : Host W} {m : Mem}
    {phase : Runtime.Phase} (hcaps : h.abi.capabilities = sslCapabilities phase) :
    (f.run now args nresults h m).outcome ≠ .nullRequest := by
  unfold HostFn.run
  cases hd : f.decode h.abi.capabilities m args nresults with
  | inl outcome =>
    unfold HostFn.decode at hd
    dsimp only at hd
    rintro rfl
    split at hd
    · cases hd
    · split at hd
      · cases hd
      · split at hd
        · cases hd
        · split at hd <;> cases hd
  | inr call =>
    dsimp only [HostFn.finish]
    split <;> exact exec_ssl hcaps

end Host

/-- **An import without its capability is refused and changes nothing**: it traps or returns -2. All
but `ngx_wasm_log` have one. And in a TLS handshake, where there is no request, none of them
follows it. -/
theorem import_confined (W : World) {f : HostFn} (hf : f ∈ hostFuncs) (now : Clock)
    (args : List Val) (nresults : Nat) (h : Host W) (m : Mem) :
    (f.capability = none → f.name = "ngx_wasm_log") ∧
      (∀ cap, f.capability = some cap → h.abi.capabilities &&& cap = 0 →
        Refused h m (f.run now args nresults h m)) ∧
      ∀ phase, h.abi.capabilities = sslCapabilities phase →
        (f.run now args nresults h m).outcome ≠ .nullRequest := by
  refine ⟨?_, fun cap hcap hlack => run_refused hf hcap hlack, fun phase hcaps => run_ssl hcaps⟩
  revert hf f
  simp only [hostFuncs, List.forall_mem_cons]
  refine ⟨fun _ => rfl, nofun, nofun, nofun, nofun, nofun, nofun, nofun, nofun, nofun, nofun, nofun,
    nofun, nofun, nofun, nofun, nofun, nofun, nofun, nofun, nofun, nofun, nofun, nofun, nofun, nofun,
    nofun, nofun, nofun, nofun, nofun, nofun, nofun, nofun, nofun, nofun, nofun, nofun,
    fun f hf => absurd hf List.not_mem_nil⟩

/-- A world of an empty TLS library, the unbalanced tree and a small pool. -/
def plainWorld : World where
  vars := ⟨Unit, fun _ s => (none, s), fun _ _ => none, fun _ _ s => s, fun _ _ s => s⟩
  ssl := ⟨Unit, fun _ => none, fun _ => true, fun _ => false, fun _ => false, fun _ c => (true, c),
    fun _ c => (true, c), fun _ => true⟩
  slab := .ofCapacity 2
  rb := .unbalanced
  crc32 := crc32Short
  parseHttpTime := fun _ => -1

/-- A host in a phase, without a request. -/
def plainHost (capabilities : UInt64) : Host plainWorld where
  yielded := false
  suspendKind := .none
  abi := abiInit capabilities
  request := none
  ssl := some ()
  shm := none
  metrics := none
  errorLog := []

/-- A header of the request is set while the response is logged, and read in a handshake. -/
theorem import_confined_header :
    Refused (plainHost (phaseCapabilities .log)) ⟨true, 65536, fun _ => 97⟩
        (hostReqSetHeader.run ⟨0, 0⟩ [.i32 0, .i32 1, .i32 2, .i32 1] 1
          (plainHost (phaseCapabilities .log)) ⟨true, 65536, fun _ => 97⟩) ∧
      (hostReqGetHeader.run ⟨0, 0⟩ [.i32 0, .i32 1, .i32 2, .i32 1] 1
        (plainHost (sslCapabilities .sslCertificate)) ⟨true, 65536, fun _ => 97⟩).outcome ≠
          .nullRequest :=
  ⟨(import_confined plainWorld (by simp [hostFuncs]) _ _ _ _ _).2.1 capReqHeadersRw rfl (by decide),
    (import_confined plainWorld (by simp [hostFuncs]) _ _ _ _ _).2.2 .sslCertificate rfl⟩

end NgxWasm.Abi
