import NgxWasm.Abi.SetGet

/-!
# The table of slots and its readers (`src/ngx_http_wasm_abi.c`)

`respHeaderSlot` looks a name up by its length first. `scanSlot` is the same table without the lengths.

* `header_slot_iff`: the two agree except on the four names that stand under the length of another.
* `readers_agree_iff`: the two readers of a response agree unless the name has a slot that is empty
  while the list holds the header. `respGetHeader_eq` and `subreqGetHeader_eq` tie them to the
  functions behind the imports.

One reader is for the response of the request itself, the other for that of a completed subrequest. A
slot is empty beside a header in the list where something other than these setters put it there, such
as another module.
-/

namespace NgxWasm.Abi

/-! ## The table -/

/-- The slots, in the order of the literals in `ngx_http_wasm_abi_resp_header_slot`. -/
def Slot.all : List Slot :=
  [.date, .etag, .link, .server, .expires, .refresh, .location, .cacheControl, .contentLength,
    .contentRange, .lastModified, .acceptRanges, .contentEncoding, .wwwAuthenticate,
    .proxyAuthenticate]

/-- The literal of a slot. -/
def Slot.literal (s : Slot) : Bytes := ascii s.header

instance (a b : Bytes) : Decidable (SameButCase a b) :=
  inferInstanceAs (Decidable (a.map toLower = b.map toLower))

/-- The plain scan: the first slot whose literal the name is, ignoring case. -/
def scanSlot (name : Bytes) : Option Slot := Slot.all.find? fun s => decide (SameButCase name s.literal)

theorem Slot.mem_all (s : Slot) : s ∈ Slot.all := by cases s <;> decide

/-- No literal holds a zero byte, at which the comparison would stop. -/
theorem Slot.zero_not_mem (s : Slot) : 0 ∉ s.literal := by cases s <;> decide

theorem Slot.literal_inj {s t : Slot} (h : SameButCase s.literal t.literal) : s = t := by
  revert h
  cases s <;> cases t <;> decide

theorem headerEq_iff {name : Bytes} {s : Slot} :
    headerEq name s.header = true ↔ SameButCase name s.literal :=
  sameName_iff_sameButCase s.zero_not_mem

/-- **The scan finds the slot of the literal that matches**, and nothing only if none does. -/
theorem scanSlot_iff {name : Bytes} {s : Slot} :
    scanSlot name = some s ↔ SameButCase name s.literal := by
  constructor
  · intro h
    unfold scanSlot at h
    exact of_decide_eq_true (List.find?_some h :)
  · intro h
    cases hf : scanSlot name with
    | none =>
      have hnone := List.find?_eq_none.mp hf s s.mem_all
      exact absurd (decide_eq_true h) hnone
    | some t =>
      unfold scanSlot at hf
      have ht : SameButCase name t.literal := of_decide_eq_true (List.find?_some hf :)
      have hst : SameButCase t.literal s.literal := ht.symm.trans h
      rw [Slot.literal_inj hst]

/-- The names that `ngx_http_wasm_abi_resp_header_slot` keeps under a length that is not theirs. -/
def misfiled : List Bytes :=
  [ascii "content-range", ascii "last-modified", ascii "accept-ranges", ascii "www-authenticate"]

theorem Slot.reached_iff (s : Slot) : s.reached = true ↔ s.literal ∉ misfiled := by
  cases s <;> decide

/-- **The lookup by length is the plain scan** exactly for the names that are not misfiled. -/
theorem header_slot_iff (name : Bytes) :
    respHeaderSlot name = scanSlot name ↔ ∀ literal ∈ misfiled, ¬ SameButCase name literal := by
  constructor
  · intro heq literal hlit hsame
    obtain ⟨s, rfl⟩ : ∃ s : Slot, s.literal = literal := by
      revert hlit
      unfold misfiled
      simp only [List.mem_cons, List.not_mem_nil, or_false]
      rintro (rfl | rfl | rfl | rfl)
      · exact ⟨.contentRange, rfl⟩
      · exact ⟨.lastModified, rfl⟩
      · exact ⟨.acceptRanges, rfl⟩
      · exact ⟨.wwwAuthenticate, rfl⟩
    have hfound : respHeaderSlot name = some s := heq.trans (scanSlot_iff.mpr hsame)
    exact s.reached_iff.mp (respHeaderSlot_iff.mp hfound).1 hlit
  · intro h
    refine Option.ext fun s => ?_
    rw [respHeaderSlot_iff, headerEq_iff, scanSlot_iff, s.reached_iff]
    constructor
    · exact fun hs => hs.2
    · exact fun hs => ⟨fun hlit => h _ hlit hs, hs⟩

/-- `Content-Range` has 13 bytes and stands among the names of 14. -/
theorem content_range_missed :
    respHeaderSlot (ascii "Content-Range") = none ∧
      scanSlot (ascii "Content-Range") = some .contentRange := by decide

/-! ## The two readers -/

variable {V : Variables} {W : World}

/-- What `ngx_http_wasm_abi_resp_get_header` returns and copies out for a name, once the call is
allowed. -/
def respGetHeaderOf (name : Bytes) (bufLen : Nat) (r : Request V) : Int × Bytes :=
  if name = [] then (wasmError, [])
  else
    match respHeaderValue name r.headersOut with
    | none => (wasmNotFound, [])
    | some value => copyOut value bufLen

theorem Mem.write_nil (m : Mem) (ptr : UInt32) : m.write ptr [] = m := by
  unfold Mem.write
  congr 1
  funext a
  split <;> rfl

theorem Mem.read_eq_nil {m : Mem} {s : Slice} : m.read s = [] ↔ s.len = 0 := by
  rw [← List.length_eq_zero_iff, Mem.read, List.length_map, List.length_range, ← UInt64.toNat_inj]
  rfl

/-- The import reads by `respGetHeaderOf`. -/
theorem respGetHeader_eq (name buf : Slice) (h : Host W) (m : Mem) (r : Request W.vars)
    (hr : h.request = some r) :
    respGetHeader name buf h m = h.require m capRespHeadersRw
      (h.reply (m.write buf.ptr (respGetHeaderOf (m.read name) buf.len.toNat r).2)
        (respGetHeaderOf (m.read name) buf.len.toNat r).1) := by
  unfold respGetHeader respGetHeaderOf
  congr 1
  by_cases hlen : name.len = 0
  · rw [if_pos hlen, if_pos (Mem.read_eq_nil.mpr hlen), Mem.write_nil]
  · rw [if_neg hlen, if_neg (fun hnil => hlen (Mem.read_eq_nil.mp hnil)), Host.deref, hr]
    dsimp only
    cases respHeaderValue (m.read name) r.headersOut with
    | none => exact congrArg (h.reply · wasmNotFound) (Mem.write_nil m buf.ptr).symm
    | some value => rfl

/-- And the one for subrequests by `subrequestGetHeader`. -/
theorem subreqGetHeader_eq (name buf : Slice) (h : Host W) (m : Mem) (r : Request W.vars)
    (hr : h.request = some r) :
    subreqGetHeader name buf h m = h.require m capSubrequest
      (h.reply (m.write buf.ptr (subrequestGetHeader (m.read name) buf.len.toNat r).2)
        (subrequestGetHeader (m.read name) buf.len.toNat r).1) := by
  unfold subreqGetHeader readsSubrequest
  rw [hr]

/-- A search that finds a header has its value. -/
theorem findRespHeader_value {name : Bytes} {hs : List TableElt} :
    ((findRespHeader name hs).bind fun i => (hs[i]?).map TableElt.value) = none ↔
      findRespHeader name hs = none := by
  constructor
  · intro h
    cases hf : findRespHeader name hs with
    | none => rfl
    | some i =>
      obtain ⟨g, hg, -⟩ := findRespHeader_some hf
      rw [hf, Option.bind_some, hg] at h
      cases h
  · intro h
    rw [h]
    rfl

/-- The name has a slot that is empty, while the list holds the header. -/
def Unslotted (name : Bytes) (out : HeadersOut) : Prop :=
  ∃ s, respHeaderSlot name = some s ∧ out.slots s = none ∧ findRespHeader name out.headers ≠ none

/-- A name with a slot is not `Content-Type`. -/
theorem not_contentType_of_slot {name : Bytes} {s : Slot} (hs : respHeaderSlot name = some s) :
    headerEq name "content-type" = false := by
  have hsame : sameName name s.literal = true := (respHeaderSlot_iff.mp hs).2
  rw [headerEq_congr hsame]
  cases s <;> decide

/-- Where the list is hidden, one lookup misses a header that the other finds. -/
theorem Unslotted.missed {name : Bytes} {out : HeadersOut} (h : Unslotted name out) :
    respHeaderValue name out = none ∧ ∃ value, responseHeader name out = some value := by
  obtain ⟨s, hs, hi, hfind⟩ := h
  have htype := not_contentType_of_slot hs
  constructor
  · unfold respHeaderValue
    rw [htype, if_neg Bool.false_ne_true, hs]
    dsimp only
    rw [hi]
    rfl
  · unfold responseHeader
    rw [htype, if_neg Bool.false_ne_true, hs, Option.bind_some, hi]
    exact Option.ne_none_iff_exists'.mp fun hnone => hfind (findRespHeader_value.mp hnone)

/-- And elsewhere the two are one. -/
theorem respHeaderValue_eq {name : Bytes} {out : HeadersOut} (h : ¬ Unslotted name out) :
    respHeaderValue name out = responseHeader name out := by
  unfold respHeaderValue responseHeader
  cases hs : respHeaderSlot name with
  | none => rfl
  | some s =>
    rw [not_contentType_of_slot hs, if_neg Bool.false_ne_true, if_neg Bool.false_ne_true]
    dsimp only
    rw [Option.bind_some]
    cases hi : out.slots s with
    | some i => rfl
    | none =>
      symm
      refine findRespHeader_value.mpr ?_
      by_contra hne
      exact h ⟨s, hs, hi, hne⟩

/-- **The two readers of response headers agree**, for a response that is the request's own and one
that is a completed subrequest's, exactly where no empty slot hides the list. -/
theorem readers_agree_iff (name : Bytes) (bufLen : Nat) (r r' : Request V) {i : Nat} {sr : Subrequest}
    (hread : readable r' = some i) (hsr : r'.accepted[i]? = some sr)
    (hout : sr.headersOut = r.headersOut) :
    respGetHeaderOf name bufLen r = subrequestGetHeader name bufLen r' ↔
      ¬ Unslotted name r.headersOut := by
  unfold respGetHeaderOf subrequestGetHeader readSubrequest
  by_cases hname : name = []
  · rw [if_pos hname, if_pos hname, hname]
    refine iff_of_true rfl ?_
    rintro ⟨s, hs, -⟩
    cases hs
  · rw [if_neg hname, if_neg hname, hread, Option.bind_some, hsr]
    dsimp only
    unfold headerOf
    rw [hout]
    constructor
    · intro heq hun
      obtain ⟨hnone, value, hvalue⟩ := hun.missed
      rw [hnone, hvalue] at heq
      -- a length is never the code of a missing header
      have hlen : -1 = (value.length : Int) := congrArg Prod.fst heq
      omega
    · intro h
      have hvalue := respHeaderValue_eq h
      generalize respHeaderValue name r.headersOut = value at hvalue ⊢
      subst hvalue
      cases responseHeader name r.headersOut <;> rfl

/-- A request whose guest has had a subrequest answered, with `expires: 0` in both responses, added by
a module that leaves the slot alone. -/
def expiresRequest : Request plainWorld.vars :=
  let out : HeadersOut := { headers := [⟨1, ascii "expires", [48], []⟩] }
  { headersIn := []
    headersOut := out
    vars := ()
    pool := ⟨fun _ _ => true, 0⟩
    headerOnly := false
    isMain := true
    upstream := false
    subrequestBufferSize := 0
    state := some { subrequest := some 0, done := true }
    accepted := [{
      uri := [47], args := none, method := 2, methodName := "GET", headerOnly := true,
      inMemory := false, headersIn := [], headersOut := out, out := none }] }

/-- Both read a name without a slot. -/
theorem readers_agree_iff_vary :
    respGetHeaderOf (ascii "vary") 8 expiresRequest =
      subrequestGetHeader (ascii "vary") 8 expiresRequest :=
  (readers_agree_iff (ascii "vary") 8 expiresRequest expiresRequest rfl rfl rfl).mpr fun ⟨s, hs, _⟩ =>
    Option.some_ne_none s (hs.symm.trans (by decide))

/-- The reader of the response misses the header that the other returns. -/
theorem expires_missed :
    respGetHeaderOf (ascii "Expires") 8 expiresRequest = (-1, []) ∧
      subrequestGetHeader (ascii "Expires") 8 expiresRequest = (1, [48]) := by decide

end NgxWasm.Abi
