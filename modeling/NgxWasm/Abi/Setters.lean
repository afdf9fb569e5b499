import NgxWasm.Abi.Slots

/-!
# What a setter changes (`src/ngx_http_wasm_abi.c`)

A setter changes one header: the first it finds, the one its slot points to, or a new one that it
pushes. `Rewrites` says what the list is afterwards. Nothing keeps a name from standing in a list more
than once: a client may send a header twice, and another module may add one.

* `Rewrites.allSet_iff`: one header is set, so all of the name have the value exactly if the others had.
* `CallsOn.ok`: what a successful call of a setter did, behind its tests.
* `set_reaches_all_iff`: after a success every header of the name has the value, if those that the
  setter does not look at had it already (`OthersSet`), and only then.

In the response only the headers that are live count (`hash` not 0). `Content-Type` stands in no list,
and is left to `Abi.Described`.

Nothing is asked of the list that a setter finds, nor of the pool: if the call succeeds, it had the
memory it needed. The two setters are told apart by what they count as a header (`live`) and by the
header they stop at, and the statement is made for both.
-/

namespace NgxWasm.Abi

variable {V : Variables} {W : World} {parseHttpTime : Bytes → Int}

/-! ## The header that is set -/

/-- The header `ngx_http_wasm_abi_resp_set_header` gives its value to, if it is there already.
`Content-Type` is none of the list. -/
def respTarget (name : Bytes) (out : HeadersOut) : Option Nat :=
  if headerEq name "content-type" then none
  else
    match respHeaderSlot name with
    | some s => out.slots s
    | none => findRespHeader name out.headers

theorem respTarget_slot {name : Bytes} {s : Slot} (hs : respHeaderSlot name = some s)
    (out : HeadersOut) : respTarget name out = out.slots s := by
  unfold respTarget
  rw [not_contentType_of_slot hs, if_neg Bool.false_ne_true, hs]

theorem respTarget_search {name : Bytes} (hn : headerEq name "content-type" = false)
    (hs : respHeaderSlot name = none) (out : HeadersOut) :
    respTarget name out = findRespHeader name out.headers := by
  unfold respTarget
  rw [hn, if_neg Bool.false_ne_true, hs]

/-- `hs'` is `hs` with `value` at `target`, and perhaps a new header with that value behind it. -/
structure Rewrites (target : Option Nat) (value : Bytes) (hs hs' : List TableElt) : Prop where
  new : ∀ (j : Nat) h, hs'[j]? = some h → h.value = value ∨ some j ≠ target ∧ hs[j]? = some h
  old : ∀ (j : Nat) h, some j ≠ target → hs[j]? = some h → hs'[j]? = some h

theorem Rewrites.refl (value : Bytes) (hs : List TableElt) : Rewrites none value hs hs where
  new _ _ h := .inr ⟨Option.some_ne_none _, h⟩
  old _ _ _ h := h

theorem Rewrites.modify {value : Bytes} {f : TableElt → TableElt} (hf : ∀ h, (f h).value = value)
    (i : Nat) (hs : List TableElt) : Rewrites (some i) value hs (hs.modify i f) where
  new j h hj := by
    by_cases hji : j = i
    · rw [hji, List.getElem?_modify_eq] at hj
      obtain ⟨g, -, rfl⟩ := Option.map_eq_some_iff.mp hj
      exact .inl (hf g)
    · rw [List.getElem?_modify_ne f hs (Ne.symm hji)] at hj
      exact .inr ⟨fun he => hji (Option.some.inj he), hj⟩
  old j h hne hj := by
    rw [List.getElem?_modify_ne f hs fun he => hne (congrArg some he.symm)]
    exact hj

theorem Rewrites.append {value : Bytes} {g : TableElt} (hg : g.value = value) (hs : List TableElt) :
    Rewrites none value hs (hs ++ [g]) where
  new j h hj := by
    rcases Nat.lt_or_ge j hs.length with hlt | hge
    · rw [List.getElem?_append_left hlt] at hj
      exact .inr ⟨Option.some_ne_none _, hj⟩
    · rw [List.getElem?_append_right hge] at hj
      obtain rfl : h = g := List.mem_singleton.mp (List.mem_of_getElem? hj)
      exact .inl hg
  old j h _ hj := by
    rw [List.getElem?_append_left (List.getElem?_eq_some_iff.mp hj).1]
    exact hj

/-- Every live header of this name has the value. -/
def AllSet (live : TableElt → Bool) (name value : Bytes) (hs : List TableElt) : Prop :=
  ∀ h ∈ hs, live h = true → SameButCase h.key name → h.value = value

/-- Every live header of this name but the one at `target` has the value. -/
def OthersSet (live : TableElt → Bool) (target : Option Nat) (name value : Bytes)
    (hs : List TableElt) : Prop :=
  ∀ (j : Nat) h, hs[j]? = some h → some j ≠ target → live h = true → SameButCase h.key name →
    h.value = value

/-- **One header is set**, so all are exactly if the others were. -/
theorem Rewrites.allSet_iff {target : Option Nat} {name value : Bytes} {hs hs' : List TableElt}
    (h : Rewrites target value hs hs') (live : TableElt → Bool) :
    AllSet live name value hs' ↔ OthersSet live target name value hs := by
  constructor
  · intro hall j g hj hne hlive hsame
    exact hall g (List.mem_of_getElem? (h.old j g hne hj)) hlive hsame
  · intro hothers g hg hlive hsame
    obtain ⟨j, hj⟩ := List.getElem?_of_mem hg
    rcases h.new j g hj with hv | ⟨hne, hold⟩
    · exact hv
    · exact hothers j g hold hne hlive hsame

theorem modify_pushed (hs : List TableElt) (g : TableElt) (f : TableElt → TableElt) :
    (hs ++ [g]).modify ((hs ++ [g]).length - 1) f = hs ++ [f g] := by
  rw [List.length_append, List.length_singleton, Nat.add_sub_cancel, modify_last]

/-! ## The setter of the request -/

theorem setHeaderIn_rewrites {name value : Bytes} {hs hs' : List TableElt} {p p' : Pool}
    (h : setHeaderIn name value hs p = (true, hs', p')) :
    Rewrites (findHeader name hs) value hs hs' := by
  unfold setHeaderIn at h
  split at h
  · rename_i i hfind
    rw [hfind, copyValue_true h]
    refine Rewrites.modify ?_ i hs
    exact fun _ => rfl
  · rename_i hfind
    rw [hfind]
    split at h
    · cases h
    · rename_i hpush
      obtain rfl := pushHeader_true hpush
      split at h
      · cases h
      · rw [copyValue_true h, modify_pushed, List.length_append, List.length_singleton,
          Nat.add_sub_cancel, modify_last]
        refine Rewrites.append ?_ hs
        rfl

/-! ## The setter of the response -/

theorem slotHeader_rewrites {name value : Bytes} {s : Slot} {out out' : HeadersOut} {p p' : Pool}
    {i : Nat} (h : slotHeader s name out p = (some i, out', p')) :
    Rewrites (out.slots s) value out.headers ((out'.headers.modify i fun h => { h with hash := 1 }).modify
      i fun h => { h with value := value }) := by
  unfold slotHeader at h
  split at h
  · rename_i j hj
    cases h
    rw [hj, List.modify_modify_eq]
    refine Rewrites.modify ?_ i out.headers
    exact fun _ => rfl
  · rename_i hj
    split at h
    · cases h
    · rename_i hpush
      obtain rfl := pushHeader_true hpush
      cases h
      rw [hj, modify_pushed, List.length_append, List.length_singleton, Nat.add_sub_cancel, modify_last]
      refine Rewrites.append ?_ out.headers
      rfl

theorem findOrPush_rewrites {name value : Bytes} {hs hs' : List TableElt} {p p' : Pool} {i : Nat}
    (h : findOrPush name hs p = (some i, hs', p')) :
    Rewrites (findRespHeader name hs) value hs (hs'.modify i fun h => { h with value := value }) := by
  unfold findOrPush at h
  split at h
  · rename_i j hfind
    cases h
    rw [hfind]
    refine Rewrites.modify ?_ i hs
    exact fun _ => rfl
  · rename_i hfind
    split at h
    · cases h
    · rename_i hpush
      obtain rfl := pushHeader_true hpush
      cases h
      rw [hfind, modify_pushed, List.length_append, List.length_singleton, Nat.add_sub_cancel,
        modify_last]
      refine Rewrites.append ?_ hs
      rfl

theorem setRespHeader_rewrites {name value : Bytes} {r : Request V}
    (hok : (setRespHeader parseHttpTime name value r).1 = wasmOk) :
    Rewrites (respTarget name r.headersOut) value r.headersOut.headers
      (setRespHeader parseHttpTime name value r).2.headersOut.headers := by
  cases hn : headerEq name "content-type" with
  | true =>
    unfold respTarget
    rw [(setRespHeader_type parseHttpTime value r hn).1, hn, if_pos rfl]
    exact .refl value _
  | false =>
    have hset := setRespHeader_ok hn hok
    generalize (setRespHeader parseHttpTime name value r).2.headersOut = out' at hset ⊢
    cases hset with
    | slot hs hslot =>
      rw [respTarget_slot hs, (derive_headers parseHttpTime _ _ value).1]
      exact slotHeader_rewrites hslot
    | search hs hfind =>
      rw [respTarget_search hn hs]
      exact findOrPush_rewrites hfind

/-! ## The calls -/

/-- How a setter's call goes: it changes nothing, because it is not allowed or has no name or no
request, or it is `f` on the request. -/
def CallsOn (f : Request W.vars → Int × Request W.vars) (cap : UInt64) (name : Bytes) (h : Host W)
    (m : Mem) (res : Result W) : Prop :=
  (res.host = h ∧ res.outcome ≠ .ret (Int32.ofInt wasmOk) ∧
    (h.abi.capabilities &&& cap = 0 ∨ name = [] ∨ h.request = none)) ∨
  (¬ h.abi.capabilities &&& cap = 0 ∧ name ≠ [] ∧ ∃ r, h.request = some r ∧
    res = (h.withRequest (f r).2).reply m (f r).1)

theorem reply_error_ne_ok (h : Host W) (m : Mem) :
    (h.reply m wasmError).outcome ≠ .ret (Int32.ofInt wasmOk) := by
  intro heq
  exact absurd (Outcome.ret.inj heq) (by decide)

theorem callsOn_require (f : Request W.vars → Int × Request W.vars) (cap : UInt64) (name : Slice)
    (h : Host W) (m : Mem) :
    CallsOn f cap (m.read name) h m
      (h.require m cap (if name.len = 0 then h.reply m wasmError else h.onRequest m f)) := by
  unfold Host.require
  split
  · rename_i hcap
    exact .inl ⟨rfl, reply_error_ne_ok h m, .inl hcap⟩
  · rename_i hcap
    split
    · rename_i hlen
      exact .inl ⟨rfl, reply_error_ne_ok h m, .inr (.inl (Mem.read_eq_nil.mpr hlen))⟩
    · rename_i hlen
      cases hr : h.request with
      | none =>
        unfold Host.onRequest Host.deref
        rw [hr]
        exact .inl ⟨rfl, Outcome.noConfusion, .inr (.inr hr)⟩
      | some r =>
        refine .inr ⟨hcap, fun hnil => hlen (Mem.read_eq_nil.mp hnil), r, hr, ?_⟩
        rw [Host.onRequest_some hr]

/-- The setter of the request. -/
def reqSet (name value : Bytes) (r : Request V) : Int × Request V :=
  (if (setHeaderIn name value r.headersIn r.pool).1 then wasmOk else wasmError,
    { r with
      headersIn := (setHeaderIn name value r.headersIn r.pool).2.1
      pool := (setHeaderIn name value r.headersIn r.pool).2.2 })

theorem reqSetHeader_calls (name value : Slice) (h : Host W) (m : Mem) :
    CallsOn (reqSet (m.read name) (m.read value)) capReqHeadersRw (m.read name) h m
      (reqSetHeader name value h m) := callsOn_require _ _ _ _ _

theorem respSetHeader_calls (name value : Slice) (h : Host W) (m : Mem) :
    CallsOn (setRespHeader W.parseHttpTime (m.read name) (m.read value)) capRespHeadersRw (m.read name)
      h m (respSetHeader name value h m) := callsOn_require _ _ _ _ _

theorem subreqSetHeader_calls (name value : Slice) (h : Host W) (m : Mem) :
    CallsOn (subrequestSetHeader (m.read name) (m.read value)) capSubrequest (m.read name) h m
      (subreqSetHeader name value h m) := by
  unfold subreqSetHeader onSubrequest Host.require
  split
  · rename_i hcap
    exact .inl ⟨rfl, reply_error_ne_ok h m, .inl hcap⟩
  · rename_i hcap
    cases hr : h.request with
    | none => exact .inl ⟨rfl, reply_error_ne_ok h m, .inr (.inr hr)⟩
    | some r =>
      by_cases hname : m.read name = []
      · have hempty : subrequestSetHeader (m.read name) (m.read value) r = (wasmError, r) := by
          rw [subrequestSetHeader, if_pos hname]
        dsimp only
        rw [hempty]
        refine .inl ⟨?_, reply_error_ne_ok _ m, .inr (.inl hname)⟩
        exact congrArg (fun req => { h with request := req }) hr.symm
      · exact .inr ⟨hcap, hname, r, hr, rfl⟩

theorem ofInt_inj {rc rc' : Int} (hrc : rc = wasmOk ∨ rc = wasmError)
    (hrc' : rc' = wasmOk ∨ rc' = wasmError) (h : Int32.ofInt rc = Int32.ofInt rc') : rc = rc' := by
  rcases hrc with rfl | rfl <;> rcases hrc' with rfl | rfl
  · rfl
  · exact absurd h (by decide)
  · exact absurd h (by decide)
  · rfl

theorem reqSet_rc (name value : Bytes) (r : Request V) :
    (reqSet name value r).1 = wasmOk ∨ (reqSet name value r).1 = wasmError := by
  unfold reqSet
  split
  · exact .inl rfl
  · exact .inr rfl

theorem subrequestSetHeader_rc (name value : Bytes) (r : Request V) :
    (subrequestSetHeader name value r).1 = wasmOk ∨
      (subrequestSetHeader name value r).1 = wasmError := by
  unfold subrequestSetHeader
  split
  · exact .inr rfl
  · split
    · exact .inr rfl
    · split
      · exact .inr rfl
      · dsimp only
        split
        · exact .inr rfl
        · split
          · exact .inr rfl
          · split
            · exact .inr rfl
            · split
              · exact .inr rfl
              · exact .inl rfl

/-- What a successful call of a setter did. -/
theorem CallsOn.ok {f : Request W.vars → Int × Request W.vars} {cap : UInt64} {name : Bytes}
    {h : Host W} {m : Mem} {res : Result W} (hc : CallsOn f cap name h m res)
    (hrc : ∀ r, (f r).1 = wasmOk ∨ (f r).1 = wasmError)
    (hok : res.outcome = .ret (Int32.ofInt wasmOk)) :
    ∃ r, h.request = some r ∧ (f r).1 = wasmOk ∧ res.host = h.withRequest (f r).2 := by
  rcases hc with ⟨-, hne, -⟩ | ⟨-, -, r, hr, rfl⟩
  · exact absurd hok hne
  · exact ⟨r, hr, ofInt_inj (hrc r) (.inl rfl) (Outcome.ret.inj hok), rfl⟩

/-! ## After a success -/

/-- **Every header of the name has the value** after a success, exactly if those that the setter does
not look at had it before. In the response only the live ones count. -/
theorem set_reaches_all_iff (W : World) (name value : Slice) (h : Host W) (m : Mem)
    (r : Request W.vars) (hr : h.request = some r) :
    ((reqSetHeader name value h m).outcome = .ret 0 →
      ((∀ r' ∈ (reqSetHeader name value h m).host.request,
          AllSet (fun _ => true) (m.read name) (m.read value) r'.headersIn) ↔
        OthersSet (fun _ => true) (findHeader (m.read name) r.headersIn) (m.read name) (m.read value)
          r.headersIn)) ∧
      ((respSetHeader name value h m).outcome = .ret 0 →
        ((∀ r' ∈ (respSetHeader name value h m).host.request,
            AllSet (fun g => g.hash != 0) (m.read name) (m.read value) r'.headersOut.headers) ↔
          OthersSet (fun g => g.hash != 0) (respTarget (m.read name) r.headersOut) (m.read name)
            (m.read value) r.headersOut.headers)) := by
  constructor
  · intro hok
    obtain ⟨r₀, hr₀, hrc, hhost⟩ := (reqSetHeader_calls name value h m).ok (reqSet_rc _ _) hok
    obtain rfl := Option.some.inj (hr.symm.trans hr₀)
    have hset : (setHeaderIn (m.read name) (m.read value) r.headersIn r.pool).1 = true := by
      by_contra hfalse
      unfold reqSet at hrc
      rw [if_neg hfalse] at hrc
      exact wasmError_ne_wasmOk hrc
    have hrewrites := setHeaderIn_rewrites (Prod.ext hset rfl :
      setHeaderIn (m.read name) (m.read value) r.headersIn r.pool = (true, _, _))
    rw [hhost, ← hrewrites.allSet_iff]
    exact ⟨fun hall => hall _ rfl, fun hall r' hr' => Option.some.inj hr' ▸ hall⟩
  · intro hok
    obtain ⟨r₀, hr₀, hrc, hhost⟩ :=
      (respSetHeader_calls name value h m).ok (setRespHeader_rc _ _ _) hok
    obtain rfl := Option.some.inj (hr.symm.trans hr₀)
    rw [hhost, ← (setRespHeader_rewrites hrc).allSet_iff]
    exact ⟨fun hall => hall _ rfl, fun hall r' hr' => Option.some.inj hr' ▸ hall⟩

/-- A request with the header `x: a` twice, and a response with the header `x: a`. -/
def twiceHost : Host plainWorld :=
  { plainHost (phaseCapabilities .content) with
    request := some {
      headersIn := [⟨1, [120], [97], [120]⟩, ⟨1, [120], [97], [120]⟩]
      headersOut := { headers := [⟨1, [120], [97], []⟩] }
      vars := ()
      pool := ⟨fun _ _ => true, 0⟩
      headerOnly := false
      isMain := true
      upstream := false
      subrequestBufferSize := 0
      state := none
      accepted := [] } }

/-- Guest memory with the text `Xvxa`. -/
def xMem : Mem := ⟨true, 65536, fun a => ([88, 118, 120, 97] : Bytes).getD a 0⟩

/-- `x: a` is set to what both headers hold, and `X: v` in the response, where it stands once. -/
theorem set_reaches_all_iff_once :
    (∀ r' ∈ (reqSetHeader ⟨2, 1⟩ ⟨3, 1⟩ twiceHost xMem).host.request,
        AllSet (fun _ => true) [120] [97] r'.headersIn) ∧
      ∀ r' ∈ (respSetHeader ⟨0, 1⟩ ⟨1, 1⟩ twiceHost xMem).host.request,
        AllSet (fun g => g.hash != 0) [88] [118] r'.headersOut.headers := by
  obtain ⟨hreq, -⟩ := set_reaches_all_iff plainWorld ⟨2, 1⟩ ⟨3, 1⟩ twiceHost xMem _ rfl
  obtain ⟨-, hresp⟩ := set_reaches_all_iff plainWorld ⟨0, 1⟩ ⟨1, 1⟩ twiceHost xMem _ rfl
  constructor
  · refine (hreq (by decide +kernel)).mpr fun j g hj _ _ _ => ?_
    have hall : ∀ g ∈ ([⟨1, [120], [97], [120]⟩, ⟨1, [120], [97], [120]⟩] : List TableElt),
        g.value = [97] := by decide
    exact hall g (List.mem_of_getElem? hj)
  · refine (hresp (by decide +kernel)).mpr fun j g hj hne _ _ => ?_
    obtain ⟨hlt, -⟩ := List.getElem?_eq_some_iff.mp hj
    obtain rfl : j = 0 := Nat.lt_one_iff.mp hlt
    exact absurd (by decide) hne

/-- A client sends a header twice; the guest sets it, and the second one is still there. -/
theorem duplicate_survives :
    (reqSetHeader ⟨0, 1⟩ ⟨1, 1⟩ twiceHost xMem).outcome = .ret 0 ∧
      ((reqSetHeader ⟨0, 1⟩ ⟨1, 1⟩ twiceHost xMem).host.request.map Request.headersIn) =
        some [⟨1, [120], [118], [120]⟩, ⟨1, [120], [97], [120]⟩] := by decide +kernel

end NgxWasm.Abi
