import NgxWasm.Abi.Ctx
import NgxWasm.Lib.Run

/-!
# Subrequests (`src/ngx_http_wasm_abi.c`)

A request has one record for all the subrequests its guest launches. `subrequest` writes it before
nginx accepts the launch and after, `subrequestDone` writes it whenever nginx runs the completion
callback, and the readers look the response up through it. The callback gets the record, and not the
launch it was given for.

## What is modelled

* The launch with each of its allocations: the URI, the arguments, the record for the callback, what
  nginx needs for the subrequest (`launchSizes`), and after nginx has accepted it the copy of the
  request's headers with the pending ones in it (`copyHeaders`). A push onto a list counts as one
  allocation of its element; nginx asks its pool only when a part of the list is full.
* The callback, and the readers of status, header, body and body length.
* nginx accepts a subrequest if it gets the memory for it. What it does to process one is left out: a
  response is there when the callback runs, and callbacks come in any order and any number.

## Results

* `accepts` and `headersFit` are read off the request before a launch, the second only where the first
  holds. `subrequest_spec`: nginx accepts just the launches that `accepts` names, and such a launch
  returns 0 just if there is memory for its headers.
* `results_match`: as long as no launch fails once nginx accepted it, and callbacks run for the latest
  launch only, at most one subrequest is outstanding and the readers return what the latest launch got.
-/

namespace NgxWasm.Abi

open Lib

variable {V : Variables}

/-! ## Launching -/

/-- `sizeof(ngx_http_wasm_subrequest_header_t)`. -/
def subrequestHeaderSize : Nat := 32

/-- `ngx_http_wasm_abi_subrequest_set_header`, with the capability. -/
def subrequestSetHeader (name value : Bytes) (r : Request V) : Int × Request V :=
  if name = [] then (wasmError, r)
  else
    match r.state with
    | none => (wasmError, r)
    | some st =>
      if st.active then (wasmError, r)
      else
        let created := match st.pendingHeaders with
          | some headers => (true, headers, r.pool)
          | none => ((r.pool.alloc (2 * subrequestHeaderSize)).1, [],
              (r.pool.alloc (2 * subrequestHeaderSize)).2)
        match created with
        | (false, _, p) => (wasmError, { r with pool := p })
        | (true, headers, p) =>
          let pending := fun hs => some { st with pendingHeaders := some hs }
          match p.alloc subrequestHeaderSize with
          | (false, p) => (wasmError, { r with state := pending headers, pool := p })
          | (true, p) =>
            match p.alloc name.length with
            | (false, p) => (wasmError, { r with state := pending (headers ++ [([], [])]), pool := p })
            | (true, p) =>
              match p.alloc value.length with
              | (false, p) =>
                (wasmError, { r with state := pending (headers ++ [(name, [])]), pool := p })
              | (true, p) =>
                (wasmOk, { r with state := pending (headers ++ [(name, value)]), pool := p })

/-- `ngx_http_wasm_abi_subrequest_method_name`. -/
def subrequestMethodName (method : UInt64) : Option String :=
  if method = 0x2 then some "GET"
  else if method = 0x4 then some "HEAD"
  else if method = 0x8 then some "POST"
  else if method = 0x10 then some "PUT"
  else if method = 0x20 then some "DELETE"
  else if method = 0x4000 then some "PATCH"
  else if method = 0x200 then some "OPTIONS"
  else none

/-- One header of `ngx_http_wasm_abi_subrequest_clone_headers`. -/
def cloneHeader (h : TableElt) (headers : List TableElt) (p : Pool) : Bool × List TableElt × Pool :=
  match p.alloc tableEltSize with
  | (false, p) => (false, headers, p)
  | (true, p) =>
    match p.alloc h.key.length with
    | (false, p) => (false, headers ++ [{ hash := h.hash }], p)
    | (true, p) =>
      match p.alloc h.value.length with
      | (false, p) => (false, headers ++ [{ hash := h.hash, key := h.key }], p)
      | (true, p) =>
        if h.lowcaseKey = [] then
          (true, headers ++ [{ hash := h.hash, key := h.key, value := h.value }], p)
        else
          match p.alloc h.key.length with
          | (false, p) =>
            (false, headers ++ [{ hash := h.hash, key := h.key, value := h.value }], p)
          | (true, p) => (true, headers ++ [h], p)

/-- A step for each element, up to one that fails. -/
def eachHeader {α : Type} (f : α → List TableElt → Pool → Bool × List TableElt × Pool) :
    List α → List TableElt → Pool → Bool × List TableElt × Pool
  | [], headers, p => (true, headers, p)
  | a :: as, headers, p =>
    match f a headers p with
    | (false, headers, p) => (false, headers, p)
    | (true, headers, p) => eachHeader f as headers p

/-- `ngx_http_wasm_abi_subrequest_clone_headers`. -/
def subrequestCloneHeaders (src : List TableElt) (p : Pool) : Bool × List TableElt × Pool :=
  match p.alloc (8 * tableEltSize) with
  | (false, p) => (false, [], p)
  | (true, p) => eachHeader cloneHeader src [] p

/-- `ngx_http_wasm_abi_subrequest_set_runtime_header`. -/
def subrequestSetRuntimeHeader (h : Bytes × Bytes) (headers : List TableElt) (p : Pool) :
    Bool × List TableElt × Pool := setHeaderIn h.1 h.2 headers p

/-- What a launch does with the pending headers: the subrequest gets a copy of the request's, and the
pending ones in it. -/
def copyHeaders (pending : List (Bytes × Bytes)) (src : List TableElt) (p : Pool) :
    Bool × List TableElt × Pool :=
  match subrequestCloneHeaders src p with
  | (false, headers, p) => (false, headers, p)
  | (true, headers, p) => eachHeader subrequestSetRuntimeHeader pending headers p

/-- The bit `NGX_HTTP_WASM_SUBREQ_CAPTURE_BODY`. -/
def captureBodyBit (options : UInt64) : Bool := options &&& 1 != 0

/-- `sizeof(ngx_http_post_subrequest_t)` and `sizeof(ngx_http_request_t)`. -/
def postSubrequestSize : Nat := 16
def requestSize : Nat := 1352

/-- `ngx_http_wasm_abi_subrequest` from the call of `ngx_http_subrequest` on. nginx accepts the
subrequest if it gets the memory for it. -/
def launch (st : SubrequestState) (sr : Subrequest) (r : Request V) : Int × Request V :=
  let st := { st with
    captureBody := sr.inMemory, done := false, active := true, rc := 0, subrequest := none,
    bodyLimit := r.subrequestBufferSize }
  match r.pool.alloc requestSize with
  | (false, p) => (wasmError, { r with state := some { st with active := false }, pool := p })
  | (true, p) =>
    let st := { st with subrequest := some r.accepted.length }
    match st.pendingHeaders with
    | none | some [] =>
      (wasmOk, { r with state := some st, pool := p, accepted := r.accepted ++ [sr] })
    | some (h :: hs) =>
      match copyHeaders (h :: hs) r.headersIn p with
      | (false, headers, p) =>
        (wasmError, { r with
          state := some { st with active := false }
          pool := p
          accepted := r.accepted ++ [{ sr with headersIn := headers }] })
      | (true, headers, p) =>
        (wasmOk, { r with
          state := some { st with pendingHeaders := some [] }
          pool := p
          accepted := r.accepted ++ [{ sr with headersIn := headers }] })

/-- `ngx_http_wasm_abi_subrequest`, with the capability. -/
def subrequest (uri args : Bytes) (method options : UInt64) (r : Request V) : Int × Request V :=
  if uri = [] then (wasmError, r)
  else
    match r.state with
    | none => (wasmError, r)
    | some st =>
      if st.active then (wasmError, r)
      else
        match r.pool.alloc uri.length with
        | (false, p) => (wasmError, { r with pool := p })
        | (true, p) =>
          match (if args = [] then (true, p) else p.alloc args.length) with
          | (false, p) => (wasmError, { r with pool := p })
          | (true, p) =>
            let method := if method = 0 then 0x2 else method
            match subrequestMethodName method with
            | none => (wasmError, { r with pool := p })
            | some methodName =>
              match p.alloc postSubrequestSize with
              | (false, p) => (wasmError, { r with pool := p })
              | (true, p) =>
                let capture := captureBodyBit options
                let sr : Subrequest :=
                  { uri, args := if args = [] then none else some args, method, methodName
                    headerOnly := !capture, inMemory := capture, headersIn := r.headersIn
                    headersOut := {}, out := none }
                launch st sr { r with pool := p }

/-! ## Completion -/

/-- `ngx_http_wasm_abi_subrequest_done` for the subrequest `i`, on the record `st`. -/
def subrequestDone (i : Nat) (rc : Int) (out : Option Bytes) (st : SubrequestState) :
    SubrequestState :=
  let st := { st with subrequest := some i, rc := rc, done := true, active := false }
  if !st.captureBody || st.bodyLimit == 0 then st
  else
    match out with
    | none => st
    | some body => if body.length > st.bodyLimit then { st with rc := -1 } else st

/-- nginx has a response for the subrequest `i`, and runs its callback. -/
def complete (i : Nat) (rc : Int) (headersOut : HeadersOut) (out : Option Bytes) (r : Request V) :
    Request V :=
  { r with
    accepted := r.accepted.modify i fun sr => { sr with headersOut := headersOut, out := out }
    state := r.state.map (subrequestDone i rc out) }

/-! ## Readers -/

/-- The subrequest whose response the readers return. -/
def readable (r : Request V) : Option Nat :=
  match r.state with
  | some st => if !st.done || st.rc != 0 then none else st.subrequest
  | none => none

/-- A reader: what it returns, and the bytes it copies out. -/
def readSubrequest (read : Subrequest → Int × Bytes) (r : Request V) : Int × Bytes :=
  match (readable r).bind fun i => r.accepted[i]? with
  | none => (wasmError, [])
  | some sr => read sr

/-- A value that a reader copies out, as far as its buffer goes. -/
def copyOut (value : Bytes) (bufLen : Nat) : Int × Bytes := (value.length, value.take bufLen)

/-- The header of a response: `headers_out` by content type, slot or list. -/
def responseHeader (name : Bytes) (out : HeadersOut) : Option Bytes :=
  if headerEq name "content-type" then
    if out.contentType.length = 0 then none else some out.contentType
  else
    match (respHeaderSlot name).bind out.slots with
    | some i => (out.headers[i]?).map TableElt.value
    | none => (findRespHeader name out.headers).bind fun i => (out.headers[i]?).map TableElt.value

/-! What each reader makes of a response. -/

def statusOf (sr : Subrequest) : Int × Bytes := (sr.headersOut.status, [])

def headerOf (name : Bytes) (bufLen : Nat) (sr : Subrequest) : Int × Bytes :=
  match responseHeader name sr.headersOut with
  | none => (wasmNotFound, [])
  | some value => copyOut value bufLen

def bodyOf (bufLen : Nat) (sr : Subrequest) : Int × Bytes :=
  match sr.out with
  | none => (0, [])
  | some body => copyOut body bufLen

def bodyLenOf (sr : Subrequest) : Int × Bytes :=
  match sr.out with
  | none => (0, [])
  | some body => (body.length, [])

/-- `ngx_http_wasm_abi_subrequest_get_status`. -/
def subrequestGetStatus (r : Request V) : Int × Bytes := readSubrequest statusOf r

/-- `ngx_http_wasm_abi_subrequest_get_header`. -/
def subrequestGetHeader (name : Bytes) (bufLen : Nat) (r : Request V) : Int × Bytes :=
  if name = [] then (wasmError, []) else readSubrequest (headerOf name bufLen) r

/-- `state->capture_body`. -/
def captured (r : Request V) : Bool := r.state.any SubrequestState.captureBody

/-- `ngx_http_wasm_abi_subrequest_get_body`. -/
def subrequestGetBody (bufLen : Nat) (r : Request V) : Int × Bytes :=
  if !captured r then (wasmError, []) else readSubrequest (bodyOf bufLen) r

/-- `ngx_http_wasm_abi_subrequest_get_body_len`. -/
def subrequestGetBodyLen (r : Request V) : Int × Bytes :=
  if !captured r then (wasmError, []) else readSubrequest bodyLenOf r

/-! ## Steps -/

/-- A guest's call, or the completion of a subrequest. -/
inductive SubrequestEvent where
  | setHeader (name value : Bytes)
  | launch (uri args : Bytes) (method options : UInt64)
  | done (i : Nat) (rc : Int) (headersOut : HeadersOut) (out : Option Bytes)

/-- A request, the latest launch that returned 0, and the subrequests whose callback has run. -/
structure Launches (V : Variables) where
  request : Request V
  last : Option Nat
  completed : List Nat

/-- A request whose module context is new. -/
def Launches.start (r : Request V) : Launches V :=
  ⟨{ r with state := some {}, accepted := [] }, none, []⟩

def Launches.step (s : Launches V) : SubrequestEvent → Launches V
  | .setHeader name value => { s with request := (subrequestSetHeader name value s.request).2 }
  | .launch uri args method options =>
    let res := subrequest uri args method options s.request
    { s with
      request := res.2
      last := if res.1 = wasmOk then some s.request.accepted.length else s.last }
  | .done i rc headersOut out =>
    { s with request := complete i rc headersOut out s.request, completed := i :: s.completed }

/-- The sizes that a launch asks the pool for before its headers: the URI, the arguments, the record
for the callback and the subrequest. -/
def launchSizes (uri args : Bytes) : List Nat :=
  [uri.length] ++ (if args = [] then [] else [args.length]) ++ [postSubrequestSize, requestSize]

/-- nginx accepts a launch: it has a URI and a method with a name, it finds the record idle, and
there is memory for all that comes before the headers. -/
def accepts (uri args : Bytes) (method : UInt64) (r : Request V) : Bool :=
  uri != [] && r.state.any (fun st => !st.active) &&
    (subrequestMethodName (if method = 0 then 0x2 else method)).isSome &&
    r.pool.grantsAll (launchSizes uri args)

/-- There is memory for the headers of an accepted launch: the pending ones and those of the
request. -/
def headersFit (uri args : Bytes) (r : Request V) : Bool :=
  match r.state.bind SubrequestState.pendingHeaders with
  | none | some [] => true
  | some (h :: hs) =>
    (copyHeaders (h :: hs) r.headersIn (r.pool.after (launchSizes uri args).length)).1

/-- Launches that nginx accepts have memory for their headers, and callbacks run for the latest
launch. -/
def Orderly (s : Launches V) : SubrequestEvent → Prop
  | .setHeader _ _ => True
  | .launch uri args method _ =>
    accepts uri args method s.request = true → headersFit uri args s.request = true
  | .done i _ _ _ => s.last = some i

instance (s : Launches V) (e : SubrequestEvent) : Decidable (Orderly s e) :=
  match e with
  | .setHeader _ _ => inferInstanceAs (Decidable True)
  | .launch uri args method _ => inferInstanceAs
      (Decidable (accepts uri args method s.request = true → headersFit uri args s.request = true))
  | .done i _ _ _ => inferInstanceAs (Decidable (s.last = some i))

/-! ## What each step does -/

/-- `state->active`. -/
def isActive (r : Request V) : Bool := r.state.any SubrequestState.active

theorem subrequestSetHeader_spec (name value : Bytes) (r : Request V) :
    (subrequestSetHeader name value r).2.accepted = r.accepted ∧
      readable (subrequestSetHeader name value r).2 = readable r ∧
      isActive (subrequestSetHeader name value r).2 = isActive r := by
  unfold subrequestSetHeader
  split
  · exact ⟨rfl, rfl, rfl⟩
  · split
    · exact ⟨rfl, rfl, rfl⟩
    · rename_i st hst
      split
      · exact ⟨rfl, rfl, rfl⟩
      · dsimp only
        split
        · exact ⟨rfl, rfl, rfl⟩
        · unfold readable isActive
          rw [hst]
          split
          · exact ⟨rfl, rfl, rfl⟩
          · split
            · exact ⟨rfl, rfl, rfl⟩
            · split <;> exact ⟨rfl, rfl, rfl⟩

/-- A launch that nginx did not accept, seen from outside: it fails, and there is nothing to read, or
what there was before. -/
structure NotAccepted (r : Request V) (res : Int × Request V) : Prop where
  rc : res.1 = wasmError
  accepted : res.2.accepted = r.accepted
  readable : readable res.2 = none ∨ readable res.2 = readable r
  active : isActive res.2 = isActive r

/-- A launch that nginx accepted. -/
structure Accepted (fits : Bool) (r : Request V) (res : Int × Request V) : Prop where
  idle : isActive r = false
  rc : res.1 = if fits then wasmOk else wasmError
  accepted : ∃ sr, res.2.accepted = r.accepted ++ [sr]
  readable : readable res.2 = none
  active : isActive res.2 = fits

theorem launch_refused {st : SubrequestState} {sr : Subrequest} {r r₀ : Request V}
    (hp : (r.pool.alloc requestSize).1 = false)
    (hr₀ : isActive r₀ = false ∧ r.accepted = r₀.accepted) : NotAccepted r₀ (launch st sr r) := by
  rcases h : r.pool.alloc requestSize with ⟨_ | _, p⟩
  · unfold launch
    rw [h]
    exact ⟨rfl, hr₀.2, .inl rfl, hr₀.1.symm⟩
  · rw [h] at hp
    cases hp

theorem launch_accepted {st : SubrequestState} {sr : Subrequest} {r r₀ : Request V}
    (hst : r.state = some st) {uri args : Bytes}
    (hr₀ : r.state = r₀.state ∧ r.accepted = r₀.accepted ∧ r.headersIn = r₀.headersIn)
    (hidle : isActive r₀ = false)
    (hp : r.pool.alloc requestSize = (true, r₀.pool.after (launchSizes uri args).length)) :
    Accepted (headersFit uri args r₀) r₀ (launch st sr r) := by
  have hfits : ∀ pending, st.pendingHeaders = pending → headersFit uri args r₀ =
      match pending with
      | none | some [] => true
      | some (h :: hs) =>
        (copyHeaders (h :: hs) r.headersIn (r₀.pool.after (launchSizes uri args).length)).1 := by
    intro pending hpend
    unfold headersFit
    rw [← hr₀.1, hst, ← hr₀.2.2]
    simp only [Option.bind_some, hpend]
  unfold launch
  rw [hp]
  dsimp only
  split
  · rename_i hpend
    rw [hfits _ hpend]
    exact ⟨hidle, rfl, ⟨_, congrArg (· ++ _) hr₀.2.1⟩, rfl, rfl⟩
  · rename_i hpend
    rw [hfits _ hpend]
    exact ⟨hidle, rfl, ⟨_, congrArg (· ++ _) hr₀.2.1⟩, rfl, rfl⟩
  · rename_i h hs hpend
    rw [hfits _ hpend]
    dsimp only
    split <;> rename_i hcopy
    · rw [hcopy]
      exact ⟨hidle, rfl, ⟨_, congrArg (· ++ _) hr₀.2.1⟩, rfl, rfl⟩
    · rw [hcopy]
      exact ⟨hidle, rfl, ⟨_, congrArg (· ++ _) hr₀.2.1⟩, rfl, rfl⟩

/-- nginx accepts the launches that `accepts` names, and no other. -/
theorem subrequest_spec (uri args : Bytes) (method options : UInt64) (r : Request V) :
    (accepts uri args method r = true ∧
        Accepted (headersFit uri args r) r (subrequest uri args method options r)) ∨
      (accepts uri args method r = false ∧ NotAccepted r (subrequest uri args method options r)) := by
  have hsame : ∀ p, NotAccepted r (wasmError, { r with pool := p }) := fun p =>
    ⟨rfl, rfl, .inr rfl, rfl⟩
  unfold subrequest
  split
  · rename_i huri
    exact .inr ⟨by simp [accepts, huri], hsame r.pool⟩
  · rename_i huri
    split
    · rename_i hst
      exact .inr ⟨by simp [accepts, hst], hsame r.pool⟩
    · rename_i st hst
      split
      · rename_i hactive
        exact .inr ⟨by simp [accepts, hst, hactive], hsame r.pool⟩
      · rename_i hidle
        -- what is left of `accepts` follows the allocations one by one
        split
        · rename_i p₁ h₁
          exact .inr ⟨by simp [accepts, launchSizes, Pool.grantsAll, h₁], hsame p₁⟩
        · rename_i p₁ h₁
          have hgrants : r.pool.grantsAll (launchSizes uri args) =
              ((if args = [] then (true, p₁) else p₁.alloc args.length).1 &&
                (if args = [] then (true, p₁) else p₁.alloc args.length).2.grantsAll
                  [postSubrequestSize, requestSize]) := by
            by_cases hargs : args = [] <;> simp [launchSizes, Pool.grantsAll, h₁, hargs]
          split
          · rename_i p₂ h₂
            rw [h₂] at hgrants
            exact .inr ⟨by simp [accepts, hgrants], hsame p₂⟩
          · rename_i p₂ h₂
            rw [h₂] at hgrants
            dsimp only
            split
            · rename_i hname
              exact .inr ⟨by simp [accepts, hname], hsame p₂⟩
            · rename_i name hname
              split
              · rename_i p₃ h₃
                exact .inr ⟨by simp [accepts, hgrants, Pool.grantsAll, h₃], hsame p₃⟩
              · rename_i p₃ h₃
                have hidle₀ : isActive r = false := by simpa [isActive, hst] using hidle
                rcases h₄ : p₃.alloc requestSize with ⟨_ | _, p₄⟩
                · exact .inr ⟨by simp [accepts, hgrants, Pool.grantsAll, h₃, h₄],
                    launch_refused (congrArg Prod.fst h₄) ⟨hidle₀, rfl⟩⟩
                · have hp₄ : p₄ = r.pool.after (launchSizes uri args).length := by
                    obtain rfl := Pool.eq_after h₁
                    obtain rfl := Pool.eq_after h₃
                    obtain rfl := Pool.eq_after h₄
                    split at h₂ <;> rename_i hargs
                    · cases h₂
                      simp [launchSizes, Pool.after, hargs]
                    · obtain rfl := Pool.eq_after h₂
                      simp [launchSizes, Pool.after, hargs]
                  refine .inl ⟨?_, launch_accepted (r := { r with pool := p₃ }) hst ⟨rfl, rfl, rfl⟩
                    hidle₀ (h₄.trans (congrArg _ hp₄))⟩
                  simp [accepts, huri, hst, hidle, hname, hgrants, Pool.grantsAll, h₃, h₄]

theorem readable_complete {i : Nat} {rc : Int} {headersOut : HeadersOut} {out : Option Bytes}
    {r : Request V} {j : Nat} (h : readable (complete i rc headersOut out r) = some j) : j = i := by
  unfold readable complete at h
  cases hst : r.state with
  | none =>
    rw [hst] at h
    cases h
  | some st =>
    rw [hst] at h
    simp only [Option.map_some] at h
    split at h
    · cases h
    · unfold subrequestDone at h
      dsimp only at h
      split at h
      · exact (Option.some.inj h).symm
      · split at h
        · exact (Option.some.inj h).symm
        · split at h <;> exact (Option.some.inj h).symm

/-! ## Runs -/

/-- The reader returns an error, or what the latest launch that returned 0 got, which has completed. -/
def FromLatest (s : Launches V) (reader : Request V → Int × Bytes)
    (read : Subrequest → Int × Bytes) : Prop :=
  reader s.request = (wasmError, []) ∨
    ∃ i sr, s.last = some i ∧ i ∈ s.completed ∧ s.request.accepted[i]? = some sr ∧
      reader s.request = read sr

/-- At most one subrequest is outstanding, and the readers see the latest launch. -/
structure ResultsMatch (s : Launches V) : Prop where
  one : ∀ i j, i < s.request.accepted.length → j < s.request.accepted.length →
    i ∉ s.completed → j ∉ s.completed → i = j
  status : FromLatest s subrequestGetStatus statusOf
  header : ∀ name bufLen, FromLatest s (subrequestGetHeader name bufLen) (headerOf name bufLen)
  body : ∀ bufLen, FromLatest s (subrequestGetBody bufLen) (bodyOf bufLen)
  bodyLen : FromLatest s subrequestGetBodyLen bodyLenOf

/-- The invariant: every launch but the latest has completed, an outstanding one keeps the record
active, and what can be read is the latest. -/
structure Launches.Inv (s : Launches V) : Prop where
  last : ∀ i, i + 1 = s.request.accepted.length → s.last = some i
  older : ∀ i, i + 1 < s.request.accepted.length → i ∈ s.completed
  latest : ∀ i, s.last = some i → i + 1 = s.request.accepted.length
  active : ∀ i, i + 1 = s.request.accepted.length → i ∉ s.completed → isActive s.request = true
  readable : ∀ i, readable s.request = some i → s.last = some i ∧ i ∈ s.completed

/-- A change of the request that accepts nothing, keeps the record active or idle, and makes nothing
new readable. -/
theorem Launches.Inv.unaccepted {s : Launches V} (h : s.Inv) {r : Request V}
    (hacc : r.accepted = s.request.accepted) (hact : isActive r = isActive s.request)
    (hread : ∀ i, Abi.readable r = some i → Abi.readable s.request = some i) :
    Launches.Inv { s with request := r } := by
  refine ⟨?_, ?_, ?_, ?_, fun i hi => h.readable i (hread i hi)⟩
  · rw [hacc]
    exact h.last
  · rw [hacc]
    exact h.older
  · rw [hacc]
    exact h.latest
  · rw [hacc, hact]
    exact h.active

/-- An accepted launch whose headers fit is the latest from then on. -/
theorem Launches.Inv.accepted {s : Launches V} (h : s.Inv) {res : Int × Request V}
    (ha : Accepted true s.request res) :
    Launches.Inv { s with request := res.2, last := some s.request.accepted.length } := by
  obtain ⟨sr, hacc⟩ := ha.accepted
  have hlen : res.2.accepted.length = s.request.accepted.length + 1 := by
    rw [hacc, List.length_append]
    rfl
  refine ⟨fun i hi => ?_, fun i hi => ?_, fun i hi => ?_, fun i hi hc => ?_, fun i hi => ?_⟩
  · simp only [hlen, Nat.add_right_cancel_iff] at hi
    rw [hi]
  · simp only [hlen, Nat.add_lt_add_iff_right] at hi
    -- the launch found the record idle, so the one before had completed
    by_contra hc
    rcases Nat.lt_or_eq_of_le (Nat.succ_le_of_lt hi) with hlt | heq
    · exact hc (h.older i hlt)
    · have hactive := h.active i heq hc
      rw [ha.idle] at hactive
      cases hactive
  · obtain rfl := Option.some.inj hi
    exact hlen.symm
  · exact ha.active
  · cases ha.readable.symm.trans hi

/-- The callback of the latest launch. -/
theorem Launches.Inv.done {s : Launches V} (h : s.Inv) {i : Nat} (hlast : s.last = some i)
    (rc : Int) (headersOut : HeadersOut) (out : Option Bytes) :
    (s.step (.done i rc headersOut out)).Inv := by
  have hlen : (complete i rc headersOut out s.request).accepted.length =
      s.request.accepted.length := List.length_modify ..
  unfold Launches.step
  dsimp only
  refine ⟨?_, fun j hj => ?_, ?_, fun j hj hc => ?_, fun j hj => ?_⟩
  · rw [hlen]
    exact h.last
  · rw [hlen] at hj
    exact List.mem_cons_of_mem _ (h.older j hj)
  · rw [hlen]
    exact h.latest
  · rw [hlen] at hj
    obtain rfl : i = j := Option.some.inj (hlast.symm.trans (h.last j hj))
    exact absurd List.mem_cons_self hc
  · obtain rfl := readable_complete hj
    exact ⟨hlast, List.mem_cons_self⟩

theorem Launches.Inv.step {s : Launches V} (h : s.Inv) {e : SubrequestEvent} (hok : Orderly s e) :
    (s.step e).Inv := by
  cases e with
  | setHeader name value =>
    obtain ⟨hacc, hread, hact⟩ := subrequestSetHeader_spec name value s.request
    refine h.unaccepted hacc hact ?_
    rw [hread]
    exact fun _ hi => hi
  | launch uri args method options =>
    unfold Launches.step
    dsimp only
    rcases subrequest_spec uri args method options s.request with ⟨hacc, ha⟩ | ⟨-, hn⟩
    · have hfits : headersFit uri args s.request = true := hok hacc
      rw [hfits] at ha
      rw [if_pos (by simpa using ha.rc)]
      exact h.accepted ha
    · have hrc : (subrequest uri args method options s.request).1 ≠ wasmOk := by
        rw [hn.rc]
        decide
      rw [if_neg hrc]
      refine h.unaccepted hn.accepted hn.active ?_
      intro i hi
      rcases hn.readable with hr | hr
      · cases hr.symm.trans hi
      · exact hr ▸ hi
  | done i rc headersOut out => exact h.done hok rc headersOut out

theorem Launches.Inv.fromLatest {s : Launches V} (h : s.Inv) (read : Subrequest → Int × Bytes) :
    FromLatest s (readSubrequest read) read := by
  unfold FromLatest readSubrequest
  cases hr : Abi.readable s.request with
  | none => exact .inl rfl
  | some i =>
    obtain ⟨hlast, hdone⟩ := h.readable i hr
    simp only [Option.bind_some]
    cases ha : s.request.accepted[i]? with
    | none => exact .inl rfl
    | some sr => exact .inr ⟨i, sr, hlast, hdone, ha, rfl⟩

theorem FromLatest.guard {s : Launches V} {reader : Request V → Int × Bytes}
    {read : Subrequest → Int × Bytes} (h : FromLatest s reader read) (c : Request V → Prop)
    [∀ r, Decidable (c r)] :
    FromLatest s (fun r => if c r then (wasmError, []) else reader r) read := by
  unfold FromLatest
  dsimp only
  split
  · exact .inl rfl
  · exact h

theorem Launches.Inv.resultsMatch {s : Launches V} (h : s.Inv) : ResultsMatch s where
  one i j hi hj hic hjc := by
    have hlast : ∀ k, k < s.request.accepted.length → k ∉ s.completed →
        k + 1 = s.request.accepted.length := fun k hk hkc =>
      (Nat.lt_or_eq_of_le (Nat.succ_le_of_lt hk)).resolve_left fun hlt => hkc (h.older k hlt)
    exact Nat.add_right_cancel ((hlast i hi hic).trans (hlast j hj hjc).symm)
  status := h.fromLatest statusOf
  header name bufLen := (h.fromLatest (headerOf name bufLen)).guard fun _ => name = []
  body bufLen := (h.fromLatest (bodyOf bufLen)).guard fun r => (!captured r) = true
  bodyLen := (h.fromLatest bodyLenOf).guard fun r => (!captured r) = true

/-- **The readers see the latest launch**, and at most one subrequest is outstanding, in every run
in which launches have memory for their headers and callbacks run for the latest launch. -/
theorem results_match (r : Request V) (events : List SubrequestEvent)
    (h : Meets Launches.step Orderly (.start r) events) :
    ResultsMatch (runFrom Launches.step (.start r) events) := by
  have h0 : (Launches.start r).Inv := by
    refine ⟨fun i hi => ?_, fun i hi => ?_, nofun, fun i hi => ?_, nofun⟩
    · cases hi
    · cases hi
    · cases hi
  exact (h.invariant h0 fun _ _ hi hok => hi.step hok).resultsMatch

/-- A request without variables whose pool refuses the allocations of which `refused` holds. -/
def plainRequest (refused : Nat → Bool) : Request ⟨Unit, fun _ s => (none, s), fun _ _ => none,
    fun _ _ s => s, fun _ _ s => s⟩ where
  headersIn := []
  headersOut := {}
  vars := ()
  pool := ⟨fun n _ => !refused n, 0⟩
  headerOnly := false
  isMain := true
  upstream := false
  subrequestBufferSize := 0
  state := none
  accepted := []

/-- Two launches one after the other, the first with a header; its callback runs twice. -/
theorem results_match_two_launches :
    let events : List SubrequestEvent :=
      [.setHeader [97] [98], .launch [47] [] 0 0, .done 0 0 { status := 404 } none,
        .done 0 0 { status := 200 } none, .launch [47] [99] 4 1, .done 1 0 {} (some [1])]
    ResultsMatch (runFrom Launches.step (.start (plainRequest fun _ => false)) events) :=
  results_match (plainRequest fun _ => false)
    [.setHeader [97] [98], .launch [47] [] 0 0, .done 0 0 { status := 404 } none,
      .done 0 0 { status := 200 } none, .launch [47] [99] 4 1, .done 1 0 {} (some [1])] (by decide)

/-- There is no memory for the headers of an accepted subrequest: its launch returns -2, a second
one is accepted while it runs, and its status is read once it completes. And a callback that runs
again during the second of two launches makes the first one's status readable. -/
theorem other_launch_visible :
    let launched := runFrom Launches.step (.start (plainRequest (· = 7)))
      [.setHeader [97] [98], .launch [47] [] 0 0]
    let completed := launched.step (.done 0 0 { status := 200 } none)
    let again := launched.step (.launch [47] [] 0 0)
    let late := runFrom Launches.step (.start (plainRequest fun _ => false))
      [.launch [47] [] 0 0, .done 0 0 { status := 200 } none, .launch [47] [] 0 0,
        .done 0 0 { status := 200 } none]
    launched.last = none ∧ completed.last = none ∧
      subrequestGetStatus completed.request = (200, []) ∧
      again.request.accepted.length = 2 ∧ again.completed = [] ∧
      late.last = some 1 ∧ 1 ∉ late.completed ∧ subrequestGetStatus late.request = (200, []) := by
  decide

end NgxWasm.Abi
