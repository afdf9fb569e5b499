import NgxWasm.Abi.Slots

/-!
# The imports that read (`src/ngx_http_wasm_runtime.c`, `src/ngx_http_wasm_abi.c`)

Nine imports copy a value into a buffer of the guest, each with its own lines for it: at most the
buffer's length of bytes, and the length of the value as the result. `ReadImport.value` says which
value each of them reads, and `ReadImport.promised` the number that its document promises.

* `ReadImport.copies`: what the function behind each import does: a value is copied as far as the
  buffer goes, or there is none and nothing is written. There is a lemma for each function
  (`shmGet_copies`, `reqGetHeader_copies` and so on).
* `ReadImport.run_eq`: the run of an import is the call of its function, where it gets that far.
* `read_import_iff`: an import does what its document says (`ReadsRight`) exactly if the number it
  promises is the one that a result of 32 bits shows. `ngx_wasm_subreq_get_body` promises the length
  it copied, and returns that of the whole body.

The buffer is the one the guest names, at its full 32-bit length; where the host sign-extends that
length, no more than the value is copied all the same. Bytes outside of the buffer are part of the
statement, and so is a memory that ends inside of it, which the import refuses.
-/

namespace NgxWasm.Abi

/-! ## The imports -/

/-- The imports that copy a value out. -/
inductive ReadImport where
  | shmGet
  | reqGetHeader
  | respGetHeader
  | subreqGetHeader
  | varGet
  | reqGetBody
  | respGetBodyChunk
  | subreqGetBody
  | sslGetServerName
  deriving DecidableEq

namespace ReadImport

def fn : ReadImport → HostFn
  | shmGet => hostShmGet
  | reqGetHeader => hostReqGetHeader
  | respGetHeader => hostRespGetHeader
  | subreqGetHeader => hostSubreqGetHeader
  | varGet => hostVarGet
  | reqGetBody => hostReqGetBody
  | respGetBodyChunk => hostRespGetBodyChunk
  | subreqGetBody => hostSubreqGetBody
  | sslGetServerName => hostSslGetServerName

/-- The capability that the function of the ABI tests. -/
def cap : ReadImport → UInt64
  | shmGet => capSharedKv
  | reqGetHeader => capReqHeadersRo
  | respGetHeader => capRespHeadersRw
  | subreqGetHeader | subreqGetBody => capSubrequest
  | varGet => capVarGet
  | reqGetBody => capReqBodyGet
  | respGetBodyChunk => capRespBodyChunkRead
  | sslGetServerName => capSslServerNameGet

/-- The import takes a name or a key before its buffer. -/
def named : ReadImport → Bool
  | shmGet | reqGetHeader | respGetHeader | subreqGetHeader | varGet => true
  | reqGetBody | respGetBodyChunk | subreqGetBody | sslGetServerName => false

/-- Where the buffer stands among the arguments. -/
def bufArg (i : ReadImport) : Nat := if i.named then 2 else 0

variable {W : World}

/-- The value that there is to read, under this name where the import has one. -/
def value (now : Clock) (h : Host W) (name : Bytes) : ReadImport → Option Bytes
  | shmGet =>
    h.shm.bind fun z =>
      if Shm.keyValid name then
        (Shm.lookup name (W.crc32 name) z).bind fun a =>
          if Shm.isExpired (z.mem a) now.msec then none else some (z.mem a).value
      else none
  | reqGetHeader =>
    h.request.bind fun r =>
      ((findHeader name r.headersIn).bind fun i => r.headersIn[i]?).map TableElt.value
  | respGetHeader => h.request.bind fun r => respHeaderValue name r.headersOut
  | subreqGetHeader =>
    h.request.bind fun r => ((readable r).bind fun i => r.accepted[i]?).bind fun sr =>
      responseHeader name sr.headersOut
  | varGet =>
    h.request.bind fun r =>
      if (r.pool.alloc name.length).1 then (W.vars.get (name.map toLower) r.vars).1.join else none
  | reqGetBody => if h.abi.requestBodySet then some h.abi.requestBody else none
  | respGetBodyChunk => if h.abi.respBodyChunkSet then some h.abi.respBodyChunk else none
  | subreqGetBody =>
    h.request.bind fun r =>
      if captured r then
        ((readable r).bind fun i => r.accepted[i]?).map fun sr => sr.out.getD []
      else none
  | sslGetServerName => h.ssl.bind W.ssl.servername

/-- The value that a call of the ABI function reads: none where it refuses the call. -/
def answer (i : ReadImport) (now : Clock) (h : Host W) (m : Mem) (a : Nat → Int32) : Option Bytes :=
  let name := if i.named then m.read (sliceArg a 0 1) else []
  if h.abi.capabilities &&& i.cap = 0 ∨ (i.named = true ∧ name = []) then none
  else i.value now h name

/-- The number that the document promises for a value of `len` bytes and a buffer of `bufLen`: for
the body of a subrequest the length copied, else the full length. -/
def promised (i : ReadImport) (len bufLen : Nat) : Nat :=
  match i with
  | subreqGetBody => min len bufLen
  | _ => len

end ReadImport

/-! ## What each function does -/

variable {W : World}

theorem Mem.length_read (m : Mem) (s : Slice) : (m.read s).length = s.len.toNat := by
  rw [Mem.read, List.length_map, List.length_range]

/-- A value is copied out, as far as the buffer goes; or there is none, and nothing is written. -/
def CopiesOut (value : Option Bytes) (buf : Slice) (m : Mem) (res : Result W) : Prop :=
  match value with
  | some v =>
    res.outcome = .ret (Int32.ofInt v.length) ∧ res.mem = m.write buf.ptr (v.take buf.len.toNat)
  | none =>
    res.mem = m ∧ (res.outcome = .nullRequest ∨ res.outcome = .ret (Int32.ofInt wasmNotFound) ∨
      res.outcome = .ret (Int32.ofInt wasmError))

theorem copies_error (h : Host W) (m : Mem) (buf : Slice) :
    CopiesOut none buf m (h.reply m wasmError) := ⟨rfl, .inr (.inr rfl)⟩

theorem copies_notFound (h : Host W) (m : Mem) (buf : Slice) :
    CopiesOut none buf m (h.reply m wasmNotFound) := ⟨rfl, .inr (.inl rfl)⟩

theorem copies_value (h : Host W) (m : Mem) (buf : Slice) (v : Bytes) :
    CopiesOut (some v) buf m (h.copyOut m buf v) := ⟨rfl, rfl⟩

/-- What a reader of subrequests answers. -/
theorem copies_pair (h : Host W) (m : Mem) (buf : Slice) {x : Int × Bytes} {v : Option Bytes}
    (hx : match v with
      | some v => x = copyOut v buf.len.toNat
      | none => x = (wasmNotFound, []) ∨ x = (wasmError, [])) :
    CopiesOut v buf m (h.reply (m.write buf.ptr x.2) x.1) := by
  cases v with
  | some v =>
    obtain rfl := hx
    exact ⟨rfl, rfl⟩
  | none =>
    rcases hx with rfl | rfl
    · exact ⟨Mem.write_nil m buf.ptr, .inr (.inl rfl)⟩
    · exact ⟨Mem.write_nil m buf.ptr, .inr (.inr rfl)⟩

/-- The test of the capability, and of the name where there is one. -/
theorem copies_require {h : Host W} {m : Mem} {buf : Slice} {cap : UInt64} {v : Option Bytes}
    {body : Result W} (hbody : CopiesOut v buf m body) :
    CopiesOut (if h.abi.capabilities &&& cap = 0 then none else v) buf m (h.require m cap body) := by
  unfold Host.require
  split
  · exact copies_error h m buf
  · exact hbody

theorem copies_named {h : Host W} {m : Mem} {name buf : Slice} {cap : UInt64} {v : Option Bytes}
    {body : Result W} (hbody : m.read name ≠ [] → CopiesOut v buf m body) :
    CopiesOut (if h.abi.capabilities &&& cap = 0 ∨ m.read name = [] then none else v) buf m
      (h.require m cap (if name.len = 0 then h.reply m wasmError else body)) := by
  unfold Host.require
  by_cases hcap : h.abi.capabilities &&& cap = 0
  · rw [if_pos hcap, if_pos (.inl hcap)]
    exact copies_error h m buf
  · rw [if_neg hcap]
    by_cases hlen : name.len = 0
    · rw [if_pos hlen, if_pos (.inr (Mem.read_eq_nil.mpr hlen))]
      exact copies_error h m buf
    · have hname : m.read name ≠ [] := fun hnil => hlen (Mem.read_eq_nil.mp hnil)
      rw [if_neg hlen, if_neg (not_or.mpr ⟨hcap, hname⟩)]
      exact hbody hname

/-- An import with a name, by what it does once the call is allowed. -/
theorem answer_named (i : ReadImport) (hi : i.named = true) (now : Clock) (h : Host W) (m : Mem)
    (a : Nat → Int32) :
    i.answer now h m a =
      if h.abi.capabilities &&& i.cap = 0 ∨ m.read (sliceArg a 0 1) = [] then none
      else i.value now h (m.read (sliceArg a 0 1)) := by
  unfold ReadImport.answer
  rw [hi]
  simp only [if_true, true_and]

theorem answer_unnamed (i : ReadImport) (hi : i.named = false) (now : Clock) (h : Host W) (m : Mem)
    (a : Nat → Int32) :
    i.answer now h m a = if h.abi.capabilities &&& i.cap = 0 then none else i.value now h [] := by
  unfold ReadImport.answer
  rw [hi]
  simp only [Bool.false_eq_true, if_false, false_and, or_false]

/-- `ngx_http_wasm_abi_shm_get`. -/
theorem shmGet_copies (now : Clock) (key buf : Slice) (h : Host W) (m : Mem) :
    CopiesOut (if h.abi.capabilities &&& capSharedKv = 0 ∨ m.read key = [] then none
      else ReadImport.value now h (m.read key) .shmGet) buf m (shmGet now key buf h m) := by
  have hempty : m.read key = [] → ReadImport.value now h (m.read key) .shmGet = none := by
    intro hkey
    unfold ReadImport.value
    cases h.shm with
    | none => rfl
    | some z =>
      rw [hkey]
      rfl
  have hcopies : CopiesOut (if h.abi.capabilities &&& capSharedKv = 0 then none
      else ReadImport.value now h (m.read key) .shmGet) buf m (shmGet now key buf h m) := by
    refine copies_require ?_
    unfold ReadImport.value
    cases h.shm with
    | none => exact copies_error h m buf
    | some z =>
      dsimp only [Option.bind_some, Shm.exec, Shm.shmGet]
      cases hk : Shm.keyValid (m.read key) with
      | false => exact ⟨Mem.write_nil m buf.ptr, .inr (.inr rfl)⟩
      | true =>
        simp only [Bool.not_true, Bool.false_eq_true, if_false, if_true, Shm.lookupLive]
        cases Shm.lookup (m.read key) (W.crc32 (m.read key)) z with
        | none => exact ⟨Mem.write_nil m buf.ptr, .inr (.inl rfl)⟩
        | some x =>
          dsimp only [Option.bind_some]
          cases Shm.isExpired (z.mem x) now.msec with
          | true => exact ⟨Mem.write_nil m buf.ptr, .inr (.inl rfl)⟩
          | false => exact ⟨rfl, rfl⟩
  by_cases hkey : m.read key = []
  · rw [hempty hkey, ite_self] at hcopies
    rw [if_pos (.inr hkey)]
    exact hcopies
  · simp only [hkey, or_false]
    exact hcopies

/-- `ngx_http_wasm_abi_req_get_header`. -/
theorem reqGetHeader_copies (now : Clock) (name buf : Slice) (h : Host W) (m : Mem) :
    CopiesOut (if h.abi.capabilities &&& capReqHeadersRo = 0 ∨ m.read name = [] then none
      else ReadImport.value now h (m.read name) .reqGetHeader) buf m (reqGetHeader name buf h m) := by
  refine copies_named fun _ => ?_
  unfold ReadImport.value Host.deref
  cases h.request with
  | none => exact ⟨rfl, .inl rfl⟩
  | some r =>
    dsimp only [Option.bind_some]
    cases (findHeader (m.read name) r.headersIn).bind fun i => r.headersIn[i]? with
    | none => exact copies_notFound h m buf
    | some g => exact copies_value h m buf g.value

/-- `ngx_http_wasm_abi_resp_get_header`. -/
theorem respGetHeader_copies (now : Clock) (name buf : Slice) (h : Host W) (m : Mem) :
    CopiesOut (if h.abi.capabilities &&& capRespHeadersRw = 0 ∨ m.read name = [] then none
      else ReadImport.value now h (m.read name) .respGetHeader) buf m (respGetHeader name buf h m) := by
  refine copies_named fun _ => ?_
  unfold ReadImport.value Host.deref
  cases h.request with
  | none => exact ⟨rfl, .inl rfl⟩
  | some r =>
    dsimp only [Option.bind_some]
    cases respHeaderValue (m.read name) r.headersOut with
    | none => exact copies_notFound h m buf
    | some v => exact copies_value h m buf v

/-- A reader of the subrequest record, from what `f` finds in the request. -/
theorem readsSubrequest_copies {f : Request W.vars → Int × Bytes} {v : Request W.vars → Option Bytes}
    (buf : Slice) (h : Host W) (m : Mem)
    (hf : ∀ r, match v r with
      | some value => f r = copyOut value buf.len.toNat
      | none => f r = (wasmNotFound, []) ∨ f r = (wasmError, [])) :
    CopiesOut (if h.abi.capabilities &&& capSubrequest = 0 then none else h.request.bind v) buf m
      (readsSubrequest f buf h m) := by
  refine copies_require ?_
  cases h.request with
  | none => exact copies_error h m buf
  | some r => exact copies_pair h m buf (hf r)

/-- `ngx_http_wasm_abi_subrequest_get_header`. -/
theorem subreqGetHeader_copies (now : Clock) (name buf : Slice) (h : Host W) (m : Mem) :
    CopiesOut (if h.abi.capabilities &&& capSubrequest = 0 ∨ m.read name = [] then none
      else ReadImport.value now h (m.read name) .subreqGetHeader) buf m
        (subreqGetHeader name buf h m) := by
  by_cases hname : m.read name = []
  · rw [if_pos (.inr hname)]
    have hcopies := @readsSubrequest_copies _
      (subrequestGetHeader (m.read name) buf.len.toNat) (fun _ => none) buf h m fun r => by
        rw [subrequestGetHeader, if_pos hname]
        exact .inr rfl
    rw [Option.bind_fun_none, ite_self] at hcopies
    exact hcopies
  · simp only [hname, or_false]
    refine readsSubrequest_copies buf h m fun r => ?_
    rw [subrequestGetHeader, if_neg hname, readSubrequest]
    cases (readable r).bind fun i => r.accepted[i]? with
    | none => exact .inr rfl
    | some sr =>
      dsimp only [Option.bind_some, headerOf]
      cases responseHeader (m.read name) sr.headersOut with
      | none => exact .inl rfl
      | some v => rfl

/-- `ngx_http_wasm_abi_var_get`. -/
theorem varGet_copies (now : Clock) (name buf : Slice) (h : Host W) (m : Mem) :
    CopiesOut (if h.abi.capabilities &&& capVarGet = 0 ∨ m.read name = [] then none
      else ReadImport.value now h (m.read name) .varGet) buf m (varGet name buf h m) := by
  unfold varGet
  by_cases hcap : h.abi.capabilities &&& capVarGet = 0
  · rw [if_pos (.inl hcap), Host.require_denied hcap]
    exact copies_error h m buf
  · unfold Host.require
    rw [if_neg hcap]
    unfold ReadImport.value
    cases h.request with
    | none =>
      dsimp only [Option.bind_none]
      rw [ite_self]
      exact copies_error h m buf
    | some r =>
      dsimp only [Option.bind_some]
      by_cases hname : m.read name = []
      · rw [if_pos (.inr hname), if_pos (Mem.read_eq_nil.mp hname)]
        exact copies_error h m buf
      · have hlen : ¬ name.len = 0 := fun hlen => hname (Mem.read_eq_nil.mpr hlen)
        rw [if_neg (not_or.mpr ⟨hcap, hname⟩), if_neg hlen, Mem.length_read]
        cases r.pool.alloc name.len.toNat with
        | mk ok p =>
          cases ok with
          | false => exact copies_error _ m buf
          | true =>
            dsimp only
            rw [if_pos rfl]
            cases (W.vars.get ((m.read name).map toLower) r.vars).1 with
            | none => exact copies_error _ m buf
            | some found =>
              cases found with
              | none => exact copies_notFound _ m buf
              | some v => exact copies_value _ m buf v

/-- The functions without a name: a value of the contexts. -/
theorem copies_optional {h : Host W} {m : Mem} {buf : Slice} {cap : UInt64} {set : Bool} {v : Bytes} :
    CopiesOut (if h.abi.capabilities &&& cap = 0 then none else if set then some v else none) buf m
      (h.require m cap (if !set then h.reply m wasmNotFound else h.copyOut m buf v)) := by
  refine copies_require ?_
  cases set with
  | false => exact copies_notFound h m buf
  | true => exact copies_value h m buf v

/-- `ngx_http_wasm_abi_subrequest_get_body`. -/
theorem subreqGetBody_copies (now : Clock) (buf : Slice) (h : Host W) (m : Mem) :
    CopiesOut (if h.abi.capabilities &&& capSubrequest = 0 then none
      else ReadImport.value now h [] .subreqGetBody) buf m (subreqGetBody buf h m) := by
  refine readsSubrequest_copies buf h m fun r => ?_
  unfold subrequestGetBody
  cases captured r with
  | false => exact .inr rfl
  | true =>
    simp only [Bool.not_true, Bool.false_eq_true, if_false, if_true, readSubrequest]
    cases (readable r).bind fun i => r.accepted[i]? with
    | none => exact .inr rfl
    | some sr =>
      dsimp only [Option.map_some, bodyOf]
      cases sr.out with
      | none =>
        dsimp only [Option.getD_none, copyOut]
        rw [List.take_nil]
        rfl
      | some body => rfl

/-- `ngx_http_wasm_abi_ssl_get_server_name`. -/
theorem sslGetServerName_copies (now : Clock) (buf : Slice) (h : Host W) (m : Mem) :
    CopiesOut (if h.abi.capabilities &&& capSslServerNameGet = 0 then none
      else ReadImport.value now h [] .sslGetServerName) buf m (sslGetServerName buf h m) := by
  refine copies_require ?_
  unfold ReadImport.value
  cases h.ssl.bind W.ssl.servername with
  | none => exact copies_notFound h m buf
  | some name => exact copies_value h m buf name

/-- **What the function behind each import does.** -/
theorem ReadImport.copies (i : ReadImport) (now : Clock) (h : Host W) (m : Mem) (a : Nat → Int32) :
    CopiesOut (i.answer now h m a) (sliceArg a i.bufArg (i.bufArg + 1)) m
      ((i.fn.call a).exec now h m) := by
  cases i with
  | shmGet =>
    rw [answer_named .shmGet rfl]
    exact shmGet_copies now _ _ h m
  | reqGetHeader =>
    rw [answer_named .reqGetHeader rfl]
    exact reqGetHeader_copies now _ _ h m
  | respGetHeader =>
    rw [answer_named .respGetHeader rfl]
    exact respGetHeader_copies now _ _ h m
  | subreqGetHeader =>
    rw [answer_named .subreqGetHeader rfl]
    exact subreqGetHeader_copies now _ _ h m
  | varGet =>
    rw [answer_named .varGet rfl]
    exact varGet_copies now _ _ h m
  | reqGetBody =>
    rw [answer_unnamed .reqGetBody rfl]
    exact copies_optional
  | respGetBodyChunk =>
    rw [answer_unnamed .respGetBodyChunk rfl]
    exact copies_optional
  | subreqGetBody =>
    rw [answer_unnamed .subreqGetBody rfl]
    exact subreqGetBody_copies now _ h m
  | sslGetServerName =>
    rw [answer_unnamed .sslGetServerName rfl]
    exact sslGetServerName_copies now _ h m

/-! ## What each import does -/

/-- The value that a run of the import reads: none where the import refuses the arguments. -/
def ReadImport.reads (i : ReadImport) (now : Clock) (args : List Val) (nresults : Nat) (h : Host W)
    (m : Mem) : Option Bytes :=
  match i.fn.decode h.abi.capabilities m args nresults with
  | .inl _ => none
  | .inr _ => i.answer now h m (argOf args)

/-- **What the document says** of an import that reads `v?`, with the buffer at `ptr` of `bufLen`
bytes. A value is copied as far as the buffer goes, and nothing else is written; the number promised
is the result. Without a value the import fails; and where it fails it writes nothing. -/
structure ReadsRight (i : ReadImport) (v? : Option Bytes) (ptr bufLen : Nat) (m : Mem)
    (res : Result W) : Prop where
  result : ∀ v ∈ v?, ∃ rc, res.outcome = .ret rc ∧ rc.toInt = i.promised v.length bufLen
  bytes : ∀ v ∈ v?, ∀ x, res.mem.byte x =
    if ptr ≤ x ∧ x < ptr + min v.length bufLen then v.getD (x - ptr) 0 else m.byte x
  missing : v? = none → ∀ rc, res.outcome = .ret rc → rc.toInt < 0
  failure : (∀ rc, res.outcome = .ret rc → rc.toInt < 0) → res.mem = m

/-- A value whose promised number a result of 32 bits can show, and does: what was left out of it is a
multiple of 4 GiB, which is nothing for all but the longest. -/
def Shows (len promised : Nat) : Prop := promised < 2 ^ 31 ∧ 2 ^ 32 ∣ len - promised

theorem ofInt_toInt_iff {len promised : Nat} (h : promised ≤ len) :
    (Int32.ofInt len).toInt = promised ↔ Shows len promised := by
  rw [Int32.toInt_ofInt]
  unfold Shows Int32.size Int.bmod
  constructor
  · intro heq
    dsimp only at heq
    split at heq <;> omega
  · intro hs
    dsimp only
    split <;> omega

theorem ReadImport.promised_le (i : ReadImport) (len bufLen : Nat) : i.promised len bufLen ≤ len := by
  unfold promised
  split
  · exact Nat.min_le_left _ _
  · exact le_rfl

theorem ReadImport.le_promised (i : ReadImport) (len bufLen : Nat) :
    min len bufLen ≤ i.promised len bufLen := by
  unfold promised
  split
  · exact le_rfl
  · exact Nat.min_le_left _ _

/-- A length that is negative is long, and longer as the host reads it. -/
theorem asSize_ge (v : Int32) :
    (asSize v).toNat = (asU32 v).toNat ∨
      (2 ^ 31 ≤ (asU32 v).toNat ∧ (asU32 v).toNat ≤ (asSize v).toNat) := by
  have hsize : (asSize v).toNat = (v.toBitVec.signExtend 64).toNat := rfl
  have hu32 : (asU32 v).toNat = v.toBitVec.toNat := rfl
  have hmsb := BitVec.msb_eq_decide v.toBitVec
  rw [hsize, hu32, BitVec.toNat_signExtend]
  cases hm : v.toBitVec.msb with
  | false =>
    left
    have hlt := v.toBitVec.isLt
    simp
    omega
  | true =>
    right
    rw [hm] at hmsb
    have hge := of_decide_eq_true hmsb.symm
    simp
    omega

/-- The bytes of the guest after a copy: it stops at the end of the value or of the buffer. -/
theorem write_take_byte (m : Mem) (ptr : UInt32) (v : Bytes) (x : Nat) {n k : Nat}
    (hk : min v.length n = k) :
    (m.write ptr (v.take n)).byte x =
      if ptr.toNat ≤ x ∧ x < ptr.toNat + k then v.getD (x - ptr.toNat) 0 else m.byte x := by
  subst hk
  unfold Mem.write
  dsimp only
  by_cases hle : ptr.toNat ≤ x
  · rw [if_pos hle]
    by_cases hlt : x < ptr.toNat + min v.length n
    · have hv : x - ptr.toNat < v.length := by omega
      have hn : x - ptr.toNat < n := by omega
      rw [if_pos ⟨hle, hlt⟩, List.getD_eq_getElem?_getD, List.getD_eq_getElem?_getD,
        List.getElem?_take_of_lt hn, List.getElem?_eq_getElem hv]
      rfl
    · rw [if_neg fun hc => hlt hc.2, List.getD_eq_getElem?_getD, List.getElem?_eq_none, Option.getD_none]
      rw [List.length_take]
      omega
  · rw [if_neg hle, if_neg fun hc => hle hc.1]

/-- The run of an import is the call of its function, where it gets that far. -/
theorem ReadImport.run_eq (i : ReadImport) (now : Clock) (args : List Val) (nresults : Nat)
    (h : Host W) (m : Mem) :
    CopiesOut (i.reads now args nresults h m) (sliceArg (argOf args) i.bufArg (i.bufArg + 1)) m
        (i.fn.run now args nresults h m) ∨
      (i.reads now args nresults h m = none ∧ (i.fn.run now args nresults h m).mem = m ∧
        ∀ rc, (i.fn.run now args nresults h m).outcome = .ret rc → rc.toInt < 0) := by
  unfold ReadImport.reads HostFn.run
  cases hd : i.fn.decode h.abi.capabilities m args nresults with
  | inl outcome =>
    refine .inr ⟨rfl, rfl, ?_⟩
    rintro rc rfl
    unfold HostFn.decode at hd
    dsimp only at hd
    split at hd
    · cases hd
    · split at hd
      · cases hd
        decide
      · split at hd
        · cases hd
        · split at hd <;> cases hd
  | inr call =>
    obtain ⟨rfl, -, -⟩ := decode_inr hd
    have hcopies := i.copies now h m (argOf args)
    refine .inl ?_
    dsimp only
    have hwaits : ∀ res : Result W, i.fn.finish res = res := by
      intro res
      cases i <;> exact if_neg fun hc => Bool.false_ne_true hc.1
    rw [hwaits]
    exact hcopies

/-- **An import that reads does what its document says** exactly if a result of 32 bits can show the
number it promises. For all but the body of a subrequest that is the length of the value, below 2 GiB;
for the body it is the length of what was copied, and the body has to fit its buffer. -/
theorem read_import_iff (W : World) (i : ReadImport) (now : Clock) (args : List Val) (nresults : Nat)
    (h : Host W) (m : Mem) :
    let bufLen := (asU32 (argOf args (i.bufArg + 1))).toNat
    ReadsRight i (i.reads now args nresults h m) (asU32 (argOf args i.bufArg)).toNat bufLen m
        (i.fn.run now args nresults h m) ↔
      ∀ v ∈ i.reads now args nresults h m, Shows v.length (i.promised v.length bufLen) := by
  intro bufLen
  rcases i.run_eq now args nresults h m with hcopies | ⟨hnone, hmem, hneg⟩
  · cases hv : i.reads now args nresults h m with
    | none =>
      rw [hv] at hcopies
      obtain ⟨hmem, hout⟩ := hcopies
      refine iff_of_true ⟨nofun, nofun, fun _ rc hrc => ?_, fun _ => hmem⟩ nofun
      rcases hout with ho | ho | ho
      · cases ho.symm.trans hrc
      · cases ho.symm.trans hrc
        decide
      · cases ho.symm.trans hrc
        decide
    | some v =>
      rw [hv] at hcopies
      obtain ⟨hout, hmem⟩ := hcopies
      have hshows : (Int32.ofInt v.length).toInt = i.promised v.length bufLen ↔
          Shows v.length (i.promised v.length bufLen) := ofInt_toInt_iff (i.promised_le _ _)
      constructor
      · intro hright v' hv'
        obtain rfl := Option.some.inj hv'
        obtain ⟨rc, hrc, hpromised⟩ := hright.result v rfl
        cases hout.symm.trans hrc
        exact hshows.mp hpromised
      · intro hall
        have hs := hall v rfl
        have hresult := hshows.mpr hs
        have hcopied : min v.length (asSize (argOf args (i.bufArg + 1))).toNat = min v.length bufLen := by
          rcases asSize_ge (argOf args (i.bufArg + 1)) with heq | ⟨hlong, hle⟩
          · rw [heq]
          · have hpromised := i.le_promised v.length bufLen
            have hshort := hs.1
            omega
        refine ⟨fun v' hv' => ?_, fun v' hv' x => ?_, nofun, fun hneg => ?_⟩
        · obtain rfl := Option.some.inj hv'
          exact ⟨_, hout, hresult⟩
        · obtain rfl := Option.some.inj hv'
          rw [hmem]
          exact write_take_byte _ _ _ _ hcopied
        · have hlt := hneg _ hout
          rw [hresult] at hlt
          omega
  · rw [hnone]
    exact iff_of_true ⟨nofun, nofun, fun _ => hneg, fun _ => hmem⟩ nofun

/-- A guest whose subrequest has completed, with the five bytes `hello` captured. -/
def helloHost : Host plainWorld :=
  { plainHost (phaseCapabilities .content) with
    request := some { expiresRequest with
      state := some { captureBody := true, subrequest := some 0, done := true }
      accepted := [{
        uri := [47], args := none, method := 2, methodName := "GET", headerOnly := false,
        inMemory := true, headersIn := [], headersOut := {}, out := some (ascii "hello") }] } }

/-- A buffer of three bytes gets `hel`, and the guest gets 5, as if it held the whole body. -/
theorem body_length_not_copied :
    let res := hostSubreqGetBody.run ⟨0, 0⟩ [.i32 8, .i32 3] 1 helloHost ⟨true, 65536, fun _ => 0⟩
    res.outcome = .ret 5 ∧ ReadImport.subreqGetBody.promised 5 3 = 3 ∧
      [8, 9, 10, 11].map res.mem.byte = ascii "hel" ++ [0] := by decide +kernel

end NgxWasm.Abi
