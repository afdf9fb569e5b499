import NgxWasm.Abi.Run
import NgxWasm.Abi.SetGet
import NgxWasm.Config.Blocks

/-!
# The header filter (`src/ngx_http_wasm_header_filter.c`)

nginx hands a response's header to `header_filter_handler`, which hands it to the next filter. Before
that it takes the length away from a response whose body the body filter is going to change, and runs
the guest of the hook, which may set the status and the headers.

The handler is translated with its tests in their order: the configuration and the runtime, whether
the body filter has a guest, the context with the allocations it may take, the run, and the status that
the guest has asked for. The run is that of `Abi.Run`, so what the guest does to the response are the
calls of its imports.

nginx's filters are a parameter, `next`. The registration of the cleanup handler is followed in
`Request.Contexts`, and log lines are left out.

A response has a length in two places: the number, and a header of the list with its slot. `SlotsBear`
and `LengthOwned` are what the length is shown to be gone under: each slot that is set has a header
with its name, and a live header with the length is the one in its slot. Both are assumed of the
response as it comes in.

* `clearContentLength_noLength`: under these a length that is cleared is gone.
* `setRespHeader_noLength`: only a header of that name brings the length back.
* `runGuest_cases`: the guest of the hook lets the header go on exactly if it is done.
* `headers_filtered`: the header goes on exactly if there is no guest or the guest returns 0; it has
  the status the guest asked for last, and a length only if the body is not to be changed or the
  guest gave it one.

The names are those of the source without the prefix `ngx_http_wasm_`.
-/

namespace NgxWasm.HeaderFilter

open Lib Abi
open NgxWasm.Runtime (Completes Machine Rests)

/-! ## The handler -/

/-- A header is taken out of the response: it is dead in the list, and its slot is empty. -/
def clearSlot (slot : Slot) (out : HeadersOut) : HeadersOut :=
  match out.slots slot with
  | none => out
  | some i => { out with
      headers := out.headers.modify i fun h => { h with hash := 0 }
      slots := Function.update out.slots slot none }

/-- `ngx_http_clear_content_length`. -/
def clearContentLength (out : HeadersOut) : HeadersOut :=
  clearSlot .contentLength { out with contentLengthN := -1 }

/-- `header_filter_exec`, with its ABI context. -/
structure Exec where
  machine : Machine
  abi : AbiCtx

/-- The module context. `headerFilterExec` is there if `header_filter_exec_set` is. -/
structure Ctx where
  headerFilterExec : Option Exec := none

/-- A request whose header is to be sent: the configuration of its location, whether `wmcf->runtime`,
where there is one, has an engine and a linker, and what the handler and the guest reach. -/
structure Exchange (W : World) where
  wcf : Option Config.Conf
  runtime : Option Bool
  request : Request W.vars
  /-- `r->allow_ranges`. -/
  allowRanges : Bool
  ctx : Option Ctx
  shm : Option (Shm.Zone W.slab)
  metrics : Option (Metrics.Zone W.slab)
  errorLog : List (UInt64 × Bytes)

/-- The allocations of a new context. -/
structure Alloc where
  pcallocOk : Bool
  cleanupAddOk : Bool

/-- `NGX_ERROR`. -/
def ngxError : Int := -1

namespace Exchange

variable {W : World} (x : Exchange W)

def withOut (out : HeadersOut) : Exchange W :=
  { x with request := { x.request with headersOut := out } }

/-- `ngx_http_clear_content_length` and `ngx_http_clear_accept_ranges`. -/
def clearLength : Exchange W :=
  { x.withOut (clearSlot .acceptRanges (clearContentLength x.request.headersOut)) with
    allowRanges := false }

/-- `init_exec_ctx` for the hook, with the fuel the handler sets. -/
def initExec (wcf : Config.Conf) (ready : Bool) : Exec where
  machine := Runtime.initExecCtx ready (wcf.phase .headerFilter).module.isSome .headerFilter
    wcf.fuelLimit wcf.timesliceFuel
  abi := abiInit (phaseCapabilities .headerFilter)

/-- The host that a guest finds. -/
def host (e : Exec) : Host W where
  yielded := e.machine.ctx.yielded
  suspendKind := e.machine.ctx.suspendKind
  abi := e.abi
  request := some x.request
  ssl := none
  shm := x.shm
  metrics := x.metrics
  errorLog := x.errorLog

/-- What a guest leaves. -/
def after (m : Machine) (h : Host W) : Exchange W := { x with
  request := h.request.getD x.request
  ctx := some { headerFilterExec := some ⟨m, h.abi⟩ }
  shm := h.shm
  metrics := h.metrics
  errorLog := h.errorLog }

/-- And with the status the guest has asked for, if it has. -/
def settled (m : Machine) (h : Host W) : Exchange W :=
  if h.abi.statusSet then
    (x.after m h).withOut { (x.after m h).request.headersOut with status := h.abi.status }
  else x.after m h

/-- The response loses its length if the body filter is going to change the body. -/
def prepare (wcf : Config.Conf) : Exchange W :=
  if (wcf.phase .bodyFilter).set = 1 ∧ x.request.headerOnly = false then x.clearLength else x

/-- The module context, or a new one. -/
def getCtx (alloc : Alloc) : Option Ctx × Exchange W :=
  match x.ctx with
  | some ctx => (some ctx, x)
  | none =>
    if !alloc.pcallocOk then (none, x)
    else if !alloc.cleanupAddOk then (none, { x with ctx := some {} })
    else (some {}, { x with ctx := some {} })

end Exchange

section Handler

variable {W : World} (next : Exchange W → Int × Exchange W) (alloc : Alloc) (g : Guest)

/-- The handler from the call of `runtime_run` on. -/
def runGuest (e : Exec) (x : Exchange W) : Int × Exchange W :=
  match g.run e.machine (x.host e) with
  | (rc, m, h) =>
    if rc ≠ .ok then (ngxError, x.after m h) else next (x.settled m h)

/-- `header_filter_handler`. -/
def headerFilterHandler (x : Exchange W) : Int × Exchange W :=
  match x.wcf, x.runtime with
  | some wcf, some ready =>
    let x := x.prepare wcf
    if (wcf.phase .headerFilter).set ≠ 1 then next x
    else
      match x.getCtx alloc with
      | (none, x) => (ngxError, x)
      | (some ctx, x) =>
        runGuest next g (ctx.headerFilterExec.getD (Exchange.initExec wcf ready)) x
  | _, _ => next x

end Handler

/-! ## The length of a response -/

section Length

variable {V : Variables} {parseHttpTime : Bytes → Int} {hs : List TableElt} {name : Bytes} {p : Pool}

/-- It is a header with the length. -/
def IsLength (name : Bytes) : Prop := headerEq name "content-length" = true

instance (name : Bytes) : Decidable (IsLength name) :=
  inferInstanceAs (Decidable (headerEq name "content-length" = true))

/-- The response goes out with a length: nginx writes the number if the slot is empty, and every live
header. -/
def Announces (out : HeadersOut) : Prop :=
  out.slots .contentLength = none ∧ 0 ≤ out.contentLengthN ∨
    ∃ h ∈ out.headers, h.hash ≠ 0 ∧ IsLength h.key

/-- The list has no live header with the length. -/
def Dead (hs : List TableElt) : Prop :=
  ∀ (i : Nat) (h : TableElt), hs[i]? = some h → IsLength h.key → h.hash = 0

/-- A header with the length is dead, or it is the one in the slot. -/
def LengthOwned (out : HeadersOut) : Prop :=
  ∀ (i : Nat) (h : TableElt), out.headers[i]? = some h → IsLength h.key →
    h.hash = 0 ∨ out.slots .contentLength = some i

/-- A response without a length, which its slots do not bring back. -/
structure NoLength (out : HeadersOut) : Prop where
  number : out.contentLengthN < 0
  slot : out.slots .contentLength = none
  dead : Dead out.headers
  bear : SlotsBear out

theorem NoLength.not_announces {out : HeadersOut} (h : NoLength out) : ¬ Announces out := by
  rintro (⟨-, hnumber⟩ | ⟨g, hg, hlive, hlength⟩)
  · exact absurd h.number (by omega)
  · obtain ⟨i, hi⟩ := List.mem_iff_getElem?.mp hg
    exact hlive (h.dead i g hi hlength)

theorem Dead.modify (h : Dead hs) {i : Nat} {f : TableElt → TableElt}
    (hf : ∀ g, hs[i]? = some g → IsLength (f g).key → (f g).hash = 0) : Dead (hs.modify i f) := by
  intro j g hj hlength
  rw [List.getElem?_modify] at hj
  split at hj
  · rename_i hij
    obtain ⟨g', hg', rfl⟩ := Option.map_eq_some_iff.mp hj
    exact hf g' (hij ▸ hg') hlength
  · rw [Option.map_eq_map, Option.map_id'] at hj
    exact h j g hj hlength

theorem Dead.copyValue (h : Dead hs) (i : Nat) (value : Bytes) (p : Pool) :
    Dead (copyValue i value hs p).2.1 := by
  unfold Abi.copyValue
  split
  · exact h.modify fun g hg hlength => h i g hg hlength
  · exact h

theorem Dead.append (h : Dead hs) {g : TableElt} (hg : ¬ IsLength g.key) : Dead (hs ++ [g]) := by
  intro i g' hi hlength
  rw [List.getElem?_append] at hi
  split at hi
  · exact h i g' hi hlength
  · obtain rfl := List.mem_singleton.mp (List.mem_of_getElem? hi)
    exact absurd hlength hg

theorem Dead.pushHeader (h : Dead hs) (hname : ¬ IsLength name) (p : Pool) :
    Dead (pushHeader name hs p).2.1 := by
  unfold Abi.pushHeader
  split
  · exact h
  · split
    · exact h.append (by decide)
    · exact h.append hname

theorem Dead.findOrPush (h : Dead hs) (hname : ¬ IsLength name) (p : Pool) :
    Dead (findOrPush name hs p).2.1 := by
  have hpush := h.pushHeader hname p
  unfold Abi.findOrPush
  split
  · exact h
  · split
    · rename_i heq
      rw [heq] at hpush
      exact hpush
    · rename_i heq
      obtain rfl := pushHeader_true heq
      dsimp only
      rw [List.length_append, List.length_singleton, Nat.add_sub_cancel, modify_last]
      exact h.append hname

/-- A name with another slot is not that of the length. -/
theorem not_isLength_of_slot {slot : Slot} (hslot : slot ≠ .contentLength)
    (hname : headerEq name slot.header = true) : ¬ IsLength name := by
  intro hlength
  have hboth : headerEq (ascii slot.header) "content-length" = true :=
    (headerEq_congr hname "content-length").symm.trans hlength
  revert hboth
  cases slot
  case contentLength => exact absurd rfl hslot
  all_goals decide

/-- What a name with another slot comes to there. -/
structure Slotted (slot : Slot) (out out' : HeadersOut) (found : Option Nat) : Prop where
  number : out'.contentLengthN = out.contentLengthN
  empty : out'.slots .contentLength = none
  dead : Dead out'.headers
  found : ∀ i ∈ found, out'.slots slot = some i

theorem NoLength.slotHeader {out : HeadersOut} (h : NoLength out) {slot : Slot}
    (hslot : slot ≠ .contentLength) (hname : ¬ IsLength name) (p : Pool) :
    Slotted slot out (slotHeader slot name out p).2.1 (slotHeader slot name out p).1 := by
  have hpush := h.dead.pushHeader hname p
  unfold Abi.slotHeader
  split
  · rename_i i hi
    exact ⟨rfl, h.slot, h.dead, fun j hj => Option.some.inj hj ▸ hi⟩
  · split
    · rename_i heq
      rw [heq] at hpush
      exact ⟨rfl, h.slot, hpush, fun j hj => by cases hj⟩
    · rename_i headers p' heq
      rw [heq] at hpush
      dsimp only
      refine ⟨rfl, ?_, hpush, fun j hj => ?_⟩
      · exact (Function.update_of_ne hslot.symm _ _).trans h.slot
      · exact (Function.update_self ..).trans hj

theorem derive_contentLengthN {slot : Slot} (hslot : slot ≠ .contentLength) (out : HeadersOut)
    (value : Bytes) : (out.derive parseHttpTime slot value).contentLengthN = out.contentLengthN := by
  cases slot
  case contentLength => exact absurd rfl hslot
  all_goals rfl

/-- A header with a slot of its own leaves the length away, if its name is another. -/
theorem respSetCachedHeader_noLength {r : Request V} (h : NoLength r.headersOut)
    (hname : ¬ IsLength name) (value : Bytes)
    (hbear : SlotsBear (respSetCachedHeader parseHttpTime name value r).2.headersOut) :
    NoLength (respSetCachedHeader parseHttpTime name value r).2.headersOut := by
  revert hbear
  unfold respSetCachedHeader
  split
  · unfold setStr
    split <;> rename_i heq <;> obtain ⟨-, rfl⟩ := Prod.mk.inj heq <;>
      exact fun hbear => ⟨h.number, h.slot, h.dead, hbear⟩
  · split
    · exact fun hbear => ⟨h.number, h.slot, h.dead, hbear⟩
    · rename_i slot hslot
      have hne : slot ≠ .contentLength := by
        rintro rfl
        exact hname (respHeaderSlot_iff.mp hslot).2
      have hslotted := h.slotHeader hne hname r.pool
      have hbears := h.bear.slotHeader hslot r.pool
      split
      · rename_i heq
        rw [heq] at hslotted
        exact fun hbear => ⟨hslotted.number ▸ h.number, hslotted.empty, hslotted.dead, hbear⟩
      · rename_i i out p heq
        rw [heq] at hslotted hbears
        -- the header that becomes live has the name of its slot
        have hlive : Dead (out.headers.modify i fun h => { h with hash := 1 }) := by
          refine hslotted.dead.modify fun g hg hlength => ?_
          obtain ⟨g', hg', hkey⟩ := hbears slot i (hslotted.found i rfl)
          obtain rfl := Option.some.inj (hg.symm.trans hg')
          exact absurd hlength (not_isLength_of_slot hne hkey)
        have hcopied := hlive.copyValue i value p
        dsimp only
        split
        · rename_i headers p' heq'
          rw [heq'] at hcopied
          exact fun hbear => ⟨hslotted.number ▸ h.number, hslotted.empty, hcopied, hbear⟩
        · rename_i headers p' heq'
          rw [heq'] at hcopied
          obtain ⟨hheaders, hslots⟩ :=
            derive_headers parseHttpTime { out with headers := headers } slot value
          refine fun hbear => ⟨?_, ?_, ?_, hbear⟩
          · rw [derive_contentLengthN hne]
            exact hslotted.number ▸ h.number
          · rw [hslots]
            exact hslotted.empty
          · rw [hheaders]
            exact hcopied

/-- **Only a header of that name brings the length back.** -/
theorem setRespHeader_noLength {r : Request V} (h : NoLength r.headersOut) (hname : ¬ IsLength name)
    (value : Bytes) : NoLength (setRespHeader parseHttpTime name value r).2.headersOut := by
  have hbear : SlotsBear (setRespHeader parseHttpTime name value r).2.headersOut :=
    h.bear.setRespHeader name value
  revert hbear
  unfold Abi.setRespHeader
  split
  · exact respSetCachedHeader_noLength h hname value
  · have hfind := h.dead.findOrPush hname r.pool
    split
    · rename_i heq
      rw [heq] at hfind
      exact fun hbear => ⟨h.number, h.slot, hfind, hbear⟩
    · rename_i i headers p heq
      rw [heq] at hfind
      dsimp only
      exact fun hbear => ⟨h.number, h.slot, hfind.copyValue i value p, hbear⟩

theorem update_none_self (slots : Slot → Option Nat) (slot : Slot) :
    Function.update slots slot none slot = none := Function.update_self slot none slots

theorem bear_clearSlot {out : HeadersOut} (h : SlotsBear out) (slot : Slot) :
    SlotsBear (clearSlot slot out) := by
  unfold clearSlot
  split
  · exact h
  · rename_i i _
    have hkeys : (out.headers.modify i fun h => { h with hash := 0 }).map TableElt.key =
        out.headers.map TableElt.key := by
      refine keys_modify ?_ _ _
      exact fun _ => rfl
    have hkept : SlotsBear
        { out with headers := out.headers.modify i fun h => { h with hash := 0 } } :=
      h.of_keys rfl (hkeys ▸ List.prefix_rfl)
    intro s j hj
    by_cases hs : s = slot
    · rw [hs] at hj
      exact absurd ((update_none_self _ _).symm.trans hj) (Option.some_ne_none j).symm
    · exact hkept s j ((Function.update_of_ne hs _ _).symm.trans hj)

/-- **A cleared length is gone.** -/
theorem clearContentLength_noLength {out : HeadersOut} (hbear : SlotsBear out)
    (howned : LengthOwned out) : NoLength (clearContentLength out) := by
  have hbear' : SlotsBear (clearContentLength out) := by
    have hnumber : SlotsBear { out with contentLengthN := -1 } := hbear
    exact bear_clearSlot hnumber .contentLength
  have hneg : (-1 : Int) < 0 := by decide
  revert hbear'
  unfold clearContentLength clearSlot
  dsimp only
  split
  · rename_i hnone
    refine fun hbear' => ⟨hneg, hnone, fun i g hi hlength => ?_, hbear'⟩
    exact (howned i g hi hlength).resolve_right (by rw [hnone]; nofun)
  · rename_i i hi
    refine fun hbear' => ⟨hneg, update_none_self out.slots .contentLength, fun j g hj hlength => ?_,
      hbear'⟩
    rw [List.getElem?_modify] at hj
    split at hj
    · obtain ⟨g', -, rfl⟩ := Option.map_eq_some_iff.mp hj
      rfl
    · rename_i hij
      rw [Option.map_eq_map, Option.map_id'] at hj
      refine (howned j g hj hlength).resolve_right fun hslot => hij ?_
      exact Option.some.inj (hi.symm.trans hslot)

theorem NoLength.clearSlot {out : HeadersOut} (h : NoLength out) (slot : Slot) :
    NoLength (clearSlot slot out) := by
  have hbear := bear_clearSlot h.bear slot
  revert hbear
  unfold HeaderFilter.clearSlot
  split
  · exact fun _ => h
  · refine fun hbear => ⟨h.number, ?_, h.dead.modify fun _ _ _ => rfl, hbear⟩
    by_cases hslot : slot = .contentLength
    · rw [hslot]
      exact update_none_self out.slots .contentLength
    · exact (Function.update_of_ne (Ne.symm hslot) _ _).trans h.slot

end Length

/-! ## The calls of a guest -/

section Calls

variable {W : World} {h : Host W}

/-- A call that sets a header with the length. -/
def SetsLength (c : ImportCall) : Prop :=
  c.fn.name = hostRespSetHeader.name ∧ IsLength (c.mem.read (sliceArg (argOf c.args) 0 1))

instance (c : ImportCall) : Decidable (SetsLength c) :=
  inferInstanceAs (Decidable (_ ∧ _))

/-- Only one import writes the headers of the response. -/
theorem name_of_responseHeaders {f : HostFn} (hf : f ∈ hostFuncs)
    (hwrites : .responseHeaders ∈ f.writes) : f.name = hostRespSetHeader.name := by
  have hall : ∀ f ∈ hostFuncs, Part.responseHeaders ∈ f.writes → f.name = hostRespSetHeader.name := by
    decide +kernel
  exact hall f hf hwrites

/-- The headers of the host's response are so. -/
def HeadersAre (Q : HeadersOut → Prop) (h : Host W) : Prop := ∀ r ∈ h.request, Q r.headersOut

/-- **A call keeps what the setter keeps** of the headers of the response. -/
theorem on_headersOut {Q : HeadersOut → Prop} {c : ImportCall}
    (hset : c.fn.name = hostRespSetHeader.name → ∀ (value : Bytes) (r : Request W.vars),
      Q r.headersOut → Q (setRespHeader W.parseHttpTime
        (c.mem.read (sliceArg (argOf c.args) 0 1)) value r).2.headersOut)
    (hq : HeadersAre Q h) : HeadersAre Q (c.on h).host := by
  by_cases hname : c.fn.name = hostRespSetHeader.name
  · have hfn : c.fn = hostRespSetHeader := eq_of_name c.defined (by simp [hostFuncs]) hname
    rw [ImportCall.on, hfn]
    unfold HostFn.run
    cases hd : hostRespSetHeader.decode h.abi.capabilities c.mem c.args c.nresults with
    | inl outcome => exact hq
    | inr call =>
      obtain ⟨rfl, -, -⟩ := decode_inr hd
      show HeadersAre Q (respSetHeader (sliceArg (argOf c.args) 0 1) (sliceArg (argOf c.args) 2 3) h
        c.mem).host
      rcases respSetHeader_host (sliceArg (argOf c.args) 0 1) (sliceArg (argOf c.args) 2 3) h c.mem
        with hsame | ⟨r, hr, hout⟩
      · rw [hsame]
        exact hq
      · rw [hout]
        intro r' hr'
        obtain rfl := Option.some.inj hr'
        exact hset hname _ r (hq r hr)
  · have hsame : (c.on h).host.request.map Request.headersOut = h.request.map Request.headersOut :=
      on_within c .responseHeaders fun hmem => hname (name_of_responseHeaders c.defined hmem.1)
    intro r' hr'
    rw [hr', Option.map_some] at hsame
    obtain ⟨r, hr, hout⟩ := Option.map_eq_some_iff.mp hsame.symm
    exact hout ▸ hq r hr

/-- And so do all calls of a guest. -/
theorem called_headersOut {Q : HeadersOut → Prop} {g : Guest} {m : Machine}
    (hset : ∀ a ∈ g.answers m h, a.1.fn.name = hostRespSetHeader.name →
      ∀ (value : Bytes) (r : Request W.vars), Q r.headersOut → Q (setRespHeader W.parseHttpTime
        (a.1.mem.read (sliceArg (argOf a.1.args) 0 1)) value r).2.headersOut)
    (hq : HeadersAre Q h) : HeadersAre Q (g.called m h).2 := by
  obtain ⟨hmeets, hrun⟩ := g.answers_run (m := m) (h := h)
  rw [← hrun]
  refine (hmeets.and_forall hset).invariant hq ?_
  rintro h' a hq' ⟨-, hkeeps⟩
  exact on_headersOut hkeeps hq'

end Calls

/-! ## The status of a response -/

theorem slotHeader_status (slot : Slot) (name : Bytes) (out : HeadersOut) (p : Pool) :
    (slotHeader slot name out p).2.1.status = out.status := by
  unfold slotHeader
  split
  · rfl
  · split <;> rfl

theorem derive_status (parseHttpTime : Bytes → Int) (out : HeadersOut) (slot : Slot) (value : Bytes) :
    (out.derive parseHttpTime slot value).status = out.status := by
  cases slot <;> rfl

/-- A header leaves the status alone. -/
theorem setRespHeader_status {V : Variables} (parseHttpTime : Bytes → Int) (name value : Bytes)
    (r : Request V) :
    (setRespHeader parseHttpTime name value r).2.headersOut.status = r.headersOut.status := by
  unfold setRespHeader
  split
  · unfold respSetCachedHeader
    split
    · unfold setStr
      split <;> rename_i heq <;> obtain ⟨-, rfl⟩ := Prod.mk.inj heq <;> rfl
    · split
      · rfl
      · rename_i slot _
        have hstatus := slotHeader_status slot name r.headersOut r.pool
        split
        · rename_i heq
          rw [heq] at hstatus
          exact hstatus
        · rename_i heq
          rw [heq] at hstatus
          dsimp only
          split
          · exact hstatus
          · exact (derive_status ..).trans hstatus
  · split <;> rfl

theorem clearSlot_status (slot : Slot) (out : HeadersOut) :
    (clearSlot slot out).status = out.status := by
  unfold clearSlot
  split <;> rfl

/-! ## What the filter comes to -/

section Filtered

variable {W : World} {alloc : Alloc} {g : Guest} {x : Exchange W}

namespace Exchange

variable (x)

/-- The configuration of the hook and whether the runtime is ready, if there is a guest to run. -/
def hooked : Option (Config.Conf × Bool) :=
  match x.wcf, x.runtime with
  | some wcf, some ready => if (wcf.phase .headerFilter).set = 1 then some (wcf, ready) else none
  | _, _ => none

/-- The execution context that the guest runs in. -/
def exec (p : Config.Conf × Bool) : Exec :=
  (x.ctx.bind Ctx.headerFilterExec).getD (initExec p.1 p.2)

/-- The host it finds. -/
def found (p : Config.Conf × Bool) : Host W := (x.prepare p.1).host (x.exec p)

/-- What its calls answer. -/
def answers (g : Guest) (p : Config.Conf × Bool) : List Answer :=
  g.answers (x.exec p).machine (x.found p)

/-- An execution context of the hook that has not run yet, or whose runs were all done. -/
def Rested : Prop := ∀ e ∈ x.ctx.bind Ctx.headerFilterExec,
  e.abi.capabilities = phaseCapabilities .headerFilter ∧ ∃ limit slice, Rests limit slice e.machine

/-- The body filter is going to change the body. -/
def Rewritten : Prop := ∃ wcf ready, x.wcf = some wcf ∧ x.runtime = some ready ∧
  (wcf.phase .bodyFilter).set = 1 ∧ x.request.headerOnly = false

/-- The status to go on with: the one that the guest asked for last, or that is there. -/
def statusAfter (g : Guest) : Int :=
  match x.hooked with
  | none => x.request.headersOut.status
  | some p =>
    ((asked hostRespSetStatus (x.answers g p)).getLast?.map fun args => (argOf args 0).toInt).getD
      (if (x.exec p).abi.statusSet then (x.exec p).abi.status else x.request.headersOut.status)

end Exchange

/-- The module context is there, or can be made. -/
def Alloc.Gives (alloc : Alloc) (x : Exchange W) : Prop :=
  x.ctx.isSome = true ∨ alloc.pcallocOk = true ∧ alloc.cleanupAddOk = true

/-- The header may go on: there is no guest to run, or it gets its context and returns 0. -/
def Passes (alloc : Alloc) (g : Guest) (x : Exchange W) : Prop :=
  ∀ p ∈ x.hooked, alloc.Gives x ∧
    Completes (g.env (x.exec p).machine (x.found p)) (x.exec p).machine

/-- How the header goes on. -/
structure PassedOn (g : Guest) (x x' : Exchange W) : Prop where
  status : x'.request.headersOut.status = x.statusAfter g
  length : x.Rewritten → SlotsBear x.request.headersOut → LengthOwned x.request.headersOut →
    (∀ p ∈ x.hooked, ∀ a ∈ x.answers g p, ¬ SetsLength a.1) → ¬ Announces x'.request.headersOut
  request : x'.request.headersIn = x.request.headersIn ∧ x'.request.accepted = x.request.accepted
  rested : x'.Rested

theorem initExec_rests (wcf : Config.Conf) (ready : Bool) :
    Rests wcf.fuelLimit wcf.timesliceFuel (Exchange.initExec wcf ready).machine :=
  .fresh rfl rfl rfl rfl rfl rfl

/-- What the guest finds but for the headers of the response is what the request came with. -/
structure Prepared (x y : Exchange W) : Prop where
  ctx : y.ctx = x.ctx
  status : y.request.headersOut.status = x.request.headersOut.status
  headersIn : y.request.headersIn = x.request.headersIn
  accepted : y.request.accepted = x.request.accepted

theorem prepare_prepared (wcf : Config.Conf) (x : Exchange W) : Prepared x (x.prepare wcf) := by
  unfold Exchange.prepare
  split
  · refine ⟨rfl, ?_, rfl, rfl⟩
    exact (clearSlot_status ..).trans (clearSlot_status ..)
  · exact ⟨rfl, rfl, rfl, rfl⟩

theorem prepare_noLength {wcf : Config.Conf} (hset : (wcf.phase .bodyFilter).set = 1)
    (hbody : x.request.headerOnly = false) (hbear : SlotsBear x.request.headersOut)
    (howned : LengthOwned x.request.headersOut) : NoLength (x.prepare wcf).request.headersOut := by
  unfold Exchange.prepare
  rw [if_pos ⟨hset, hbody⟩]
  exact (clearContentLength_noLength hbear howned).clearSlot .acceptRanges

/-- What a guest that is done leaves of a request. -/
structure Ran (g : Guest) (e : Exec) (y x' : Exchange W) : Prop where
  status : x'.request.headersOut.status =
    ((asked hostRespSetStatus (g.answers e.machine (y.host e))).getLast?.map
      fun args => (argOf args 0).toInt).getD
        (if e.abi.statusSet then e.abi.status else y.request.headersOut.status)
  length : NoLength y.request.headersOut →
    (∀ a ∈ g.answers e.machine (y.host e), ¬ SetsLength a.1) → NoLength x'.request.headersOut
  request : x'.request.headersIn = y.request.headersIn ∧ x'.request.accepted = y.request.accepted
  rested : x'.Rested

theorem after_headersOut {Q : HeadersOut → Prop} {y : Exchange W} {m : Machine} {h : Host W}
    (hq : HeadersAre Q h) (hy : Q y.request.headersOut) : Q (y.after m h).request.headersOut := by
  show Q (h.request.getD y.request).headersOut
  cases hr : h.request with
  | none => exact hy
  | some r => exact hq r hr

/-- The guest's status is all that `settled` adds to what the guest leaves. -/
theorem settled_eq (y : Exchange W) (m : Machine) (h : Host W) :
    y.settled m h = (y.after m h).withOut { (y.after m h).request.headersOut with
      status := if h.abi.statusSet then h.abi.status
        else (y.after m h).request.headersOut.status } := by
  unfold Exchange.settled
  split <;> rfl

section Settled

variable {e : Exec} {y : Exchange W}

/-- All calls of the guest of the hook. -/
theorem settled_ran {limit slice : Nat} (hcaps : e.abi.capabilities = phaseCapabilities .headerFilter)
    (hrests : Rests limit slice e.machine) (hok : (g.run e.machine (y.host e)).1 = .ok) :
    Ran g e y (y.settled (g.run e.machine (y.host e)).2.1 (g.run e.machine (y.host e)).2.2) := by
  have hcalled : (g.run e.machine (y.host e)).2.2 = (g.called e.machine (y.host e)).2 :=
    Guest.run_called hrests hok
  have hconfined : ∀ p, p ∉ phaseParts .headerFilter →
      Host.part p (g.run e.machine (y.host e)).2.2 = Host.part p (y.host e) := fun p hp =>
    Guest.run_confined hcaps hp
  have hmachine : Rests limit slice (g.run e.machine (y.host e)).2.1 := hrests.run_ok hok
  generalize (g.run e.machine (y.host e)).2.1 = m at hmachine ⊢
  generalize (g.run e.machine (y.host e)).2.2 = h at hcalled hconfined ⊢
  have hstatus : Host.part .status h =
      ((asked hostRespSetStatus (g.answers e.machine (y.host e))).getLast?.map
        fun args => (true, (argOf args 0).toInt)).getD (e.abi.statusSet, e.abi.status) :=
    hcalled ▸ sets_status.called g e.machine (y.host e)
  have hfound : ∀ {Q : HeadersOut → Prop}, Q y.request.headersOut → HeadersAre Q (y.host e) := by
    intro Q hq r hr
    obtain rfl := Option.some.inj hr
    exact hq
  constructor
  case status =>
    have hkept : (y.after m h).request.headersOut.status = y.request.headersOut.status := by
      refine after_headersOut (Q := fun out => out.status = y.request.headersOut.status) ?_ rfl
      rw [hcalled]
      exact called_headersOut (fun a _ _ value r hr => (setRespHeader_status ..).trans hr)
        (hfound rfl)
    rw [settled_eq]
    show (if h.abi.statusSet then h.abi.status else (y.after m h).request.headersOut.status) = _
    rw [hkept]
    cases hlast : (asked hostRespSetStatus (g.answers e.machine (y.host e))).getLast? with
    | none =>
      rw [hlast] at hstatus
      obtain ⟨hset, hvalue⟩ := Prod.mk.inj hstatus
      rw [hset, hvalue]
      rfl
    | some args =>
      rw [hlast] at hstatus
      obtain ⟨hset, hvalue⟩ := Prod.mk.inj hstatus
      rw [if_pos hset, hvalue]
      rfl
  case length =>
    intro hno hcalls
    have hkept : NoLength (y.after m h).request.headersOut := by
      refine after_headersOut ?_ hno
      rw [hcalled]
      exact called_headersOut (fun a ha hname value r hr =>
        setRespHeader_noLength hr (fun hlength => hcalls a ha ⟨hname, hlength⟩) value) (hfound hno)
    rw [settled_eq]
    exact ⟨hkept.number, hkept.slot, hkept.dead, hkept.bear⟩
  case request =>
    have hin : h.request.map Request.headersIn = some y.request.headersIn :=
      hconfined .requestHeaders (by decide)
    have hsub : h.request.map (fun r => (r.state, r.accepted)) =
        some (y.request.state, y.request.accepted) := hconfined .subrequests (by decide)
    obtain ⟨r, hr, hheaders⟩ := Option.map_eq_some_iff.mp hin
    rw [hr] at hsub
    have haccepted := (Prod.mk.inj (Option.some.inj hsub)).2
    have hafter : (y.after m h).request = r := congrArg (Option.getD · y.request) hr
    rw [settled_eq]
    exact ⟨(congrArg Request.headersIn hafter).trans hheaders,
      (congrArg Request.accepted hafter).trans haccepted⟩
  case rested =>
    intro e' he'
    rw [settled_eq] at he'
    obtain rfl := Option.some.inj he'
    exact ⟨(hconfined .capabilities (by decide)).trans hcaps, limit, slice, hmachine⟩

/-- **The guest of the hook** lets the header go on exactly if it is done. -/
theorem runGuest_cases (next : Exchange W → Int × Exchange W) (g : Guest) (y : Exchange W)
    {limit slice : Nat}
    (hcaps : e.abi.capabilities = phaseCapabilities .headerFilter)
    (hrests : Rests limit slice e.machine) :
    ∃ x', Completes (g.env e.machine (y.host e)) e.machine ∧ runGuest next g e y = next x' ∧
        Ran g e y x' ∨
      ¬ Completes (g.env e.machine (y.host e)) e.machine ∧ runGuest next g e y = (ngxError, x') := by
  have hiff : (g.run e.machine (y.host e)).1 = .ok ↔
      Completes (g.env e.machine (y.host e)) e.machine := hrests.run_ok_iff
  unfold runGuest
  dsimp only
  by_cases hok : (g.run e.machine (y.host e)).1 = .ok
  · refine ⟨_, .inl ⟨hiff.mp hok, ?_, settled_ran hcaps hrests hok⟩⟩
    rw [if_neg (by simp [hok])]
  · exact ⟨_, .inr ⟨fun h => hok (hiff.mpr h), if_pos hok⟩⟩

end Settled

/-- What `getCtx` gives: the module context, and the request with it. -/
structure Got (y : Exchange W) (ctx : Ctx) (y' : Exchange W) : Prop where
  exec : ctx.headerFilterExec = y.ctx.bind Ctx.headerFilterExec
  request : y'.request = y.request
  host : ∀ e, y'.host e = y.host e

theorem getCtx_cases (alloc : Alloc) (y : Exchange W) :
    (∃ ctx y', y.getCtx alloc = (some ctx, y') ∧ alloc.Gives y ∧ Got y ctx y') ∨
      ∃ y', y.getCtx alloc = (none, y') ∧ ¬ alloc.Gives y := by
  unfold Exchange.getCtx Alloc.Gives
  cases hctx : y.ctx with
  | some ctx => exact .inl ⟨ctx, y, rfl, .inl rfl, by rw [hctx]; rfl, rfl, fun _ => rfl⟩
  | none =>
    cases hpcalloc : alloc.pcallocOk with
    | false => exact .inr ⟨_, rfl, by simp⟩
    | true =>
      cases hcleanup : alloc.cleanupAddOk with
      | false => exact .inr ⟨_, rfl, by simp⟩
      | true => exact .inl ⟨_, _, rfl, .inr ⟨rfl, rfl⟩, by rw [hctx]; rfl, rfl, fun _ => rfl⟩

theorem exec_rested (hrested : x.Rested) (p : Config.Conf × Bool) :
    (x.exec p).abi.capabilities = phaseCapabilities .headerFilter ∧
      ∃ limit slice, Rests limit slice (x.exec p).machine := by
  unfold Exchange.exec
  cases he : x.ctx.bind Ctx.headerFilterExec with
  | none => exact ⟨rfl, _, _, initExec_rests p.1 p.2⟩
  | some e => exact hrested e he

theorem hooked_of {wcf : Config.Conf} {ready : Bool} (hwcf : x.wcf = some wcf)
    (hruntime : x.runtime = some ready) :
    x.hooked = if (wcf.phase .headerFilter).set = 1 then some (wcf, ready) else none := by
  unfold Exchange.hooked
  rw [hwcf, hruntime]

/-- **No configuration or no runtime**: the header goes on as it is. -/
theorem passedOn_absent (habsent : x.wcf = none ∨ x.runtime = none) (hrested : x.Rested) :
    x.hooked = none ∧ PassedOn g x x := by
  have hhooked : x.hooked = none := by
    unfold Exchange.hooked
    rcases habsent with hwcf | hruntime
    · rw [hwcf]
    · rw [hruntime]
      cases x.wcf <;> rfl
  refine ⟨hhooked, ?_, ?_, ⟨rfl, rfl⟩, hrested⟩
  · unfold Exchange.statusAfter
    rw [hhooked]
  · rintro ⟨wcf, ready, hwcf, hruntime, -⟩
    rcases habsent with hnone | hnone
    · cases hnone.symm.trans hwcf
    · cases hnone.symm.trans hruntime

/-- **No guest to run**: the header goes on. -/
theorem passedOn_unhooked {wcf : Config.Conf} {ready : Bool} (hwcf : x.wcf = some wcf)
    (hruntime : x.runtime = some ready) (hset : (wcf.phase .headerFilter).set ≠ 1)
    (hrested : x.Rested) : PassedOn g x (x.prepare wcf) := by
  have hprepared := prepare_prepared wcf x
  have hhooked : x.hooked = none := (hooked_of hwcf hruntime).trans (if_neg hset)
  refine ⟨?_, ?_, ⟨hprepared.headersIn, hprepared.accepted⟩, ?_⟩
  · unfold Exchange.statusAfter
    rw [hhooked]
    exact hprepared.status
  · rintro ⟨wcf', ready', hwcf', -, hbodySet, hbody⟩ hbear howned -
    obtain rfl := Option.some.inj (hwcf.symm.trans hwcf')
    exact (prepare_noLength hbodySet hbody hbear howned).not_announces
  · intro e he
    rw [hprepared.ctx] at he
    exact hrested e he

/-- **A guest that is done**: the header goes on as it has asked for. -/
theorem passedOn_hooked {wcf : Config.Conf} {ready : Bool} {x' y : Exchange W}
    (hwcf : x.wcf = some wcf) (hhooked : x.hooked = some (wcf, ready))
    (hrequest : y.request = (x.prepare wcf).request)
    (hhost : y.host (x.exec (wcf, ready)) = x.found (wcf, ready))
    (hran : Ran g (x.exec (wcf, ready)) y x') : PassedOn g x x' := by
  have hprepared := prepare_prepared wcf x
  obtain ⟨hstatus, hlength, ⟨hin, haccepted⟩, hrested⟩ := hran
  rw [hhost, hrequest] at hstatus
  rw [hhost, hrequest] at hlength
  rw [hrequest] at hin haccepted
  refine ⟨?_, ?_, ⟨hin.trans hprepared.headersIn, haccepted.trans hprepared.accepted⟩, hrested⟩
  · unfold Exchange.statusAfter
    rw [hhooked]
    dsimp only
    rw [← hprepared.status]
    exact hstatus
  · rintro ⟨wcf', ready', hwcf', -, hbodySet, hbody⟩ hbear howned hcalls
    obtain rfl := Option.some.inj (hwcf.symm.trans hwcf')
    have hno := prepare_noLength hbodySet hbody hbear howned
    exact (hlength hno (hcalls _ hhooked)).not_announces

end Filtered

/-- **A response goes on as it should, or not at all.** Whatever the guest of the hook does and whatever
fails around it, the next filter gets the header exactly if there is no guest to run or the guest is
run and returns 0. The response then has the status that the guest asked for last, or the one it had.
If the body filter is to change its body, it has no length but one that the guest has set: neither
the number nor a header of the list. That supposes that each slot that is set has a header with its
name (`SlotsBear`), and that a live header with the length is the one in its slot (`LengthOwned`). The
request and its subrequests are as they were. -/
theorem headers_filtered {W : World} (next : Exchange W → Int × Exchange W) (alloc : Alloc) (g : Guest)
    (x : Exchange W) (hrested : x.Rested) :
    ∃ x', Passes alloc g x ∧ headerFilterHandler next alloc g x = next x' ∧ PassedOn g x x' ∨
      ¬ Passes alloc g x ∧ headerFilterHandler next alloc g x = (ngxError, x') := by
  have hplain : x.hooked = none → Passes alloc g x := by
    intro hnone p hp
    rw [hnone] at hp
    cases hp
  unfold headerFilterHandler
  cases hwcf : x.wcf with
  | none =>
    obtain ⟨hnone, hpassed⟩ := passedOn_absent (g := g) (.inl hwcf) hrested
    exact ⟨x, .inl ⟨hplain hnone, rfl, hpassed⟩⟩
  | some wcf =>
    cases hruntime : x.runtime with
    | none =>
      obtain ⟨hnone, hpassed⟩ := passedOn_absent (g := g) (.inr hruntime) hrested
      exact ⟨x, .inl ⟨hplain hnone, rfl, hpassed⟩⟩
    | some ready =>
      dsimp only
      by_cases hset : (wcf.phase .headerFilter).set = 1
      · have hhooked : x.hooked = some (wcf, ready) :=
          (hooked_of hwcf hruntime).trans (if_pos hset)
        have hpasses : Passes alloc g x ↔ alloc.Gives x ∧ Completes
            (g.env (x.exec (wcf, ready)).machine (x.found (wcf, ready)))
            (x.exec (wcf, ready)).machine := by
          unfold Passes
          rw [hhooked]
          exact ⟨fun h => h _ rfl, fun h p hp => Option.some.inj hp ▸ h⟩
        have hctx := (prepare_prepared wcf x).ctx
        rw [if_neg (not_not.mpr hset), hpasses]
        rcases getCtx_cases alloc (x.prepare wcf) with
          ⟨ctx, y, hgot, hgives, hexec, hrequest, hhost⟩ | ⟨y, hgot, hno⟩
        · have hgives : alloc.Gives x := hgives.imp (hctx ▸ ·) id
          have hthis : ctx.headerFilterExec.getD (Exchange.initExec wcf ready) =
              x.exec (wcf, ready) := by
            rw [hexec, hctx]
            rfl
          obtain ⟨hcaps, limit, slice, hm⟩ := exec_rested hrested (wcf, ready)
          obtain ⟨x', hcases⟩ := runGuest_cases next g y hcaps hm
          have hfound : y.host (x.exec (wcf, ready)) = x.found (wcf, ready) := hhost _
          rw [hgot]
          dsimp only
          rw [hthis]
          rcases hcases with ⟨hdone, hgo, hran⟩ | ⟨hnot, hstop⟩
          · rw [hfound] at hdone
            exact ⟨x', .inl ⟨⟨hgives, hdone⟩, hgo,
              passedOn_hooked hwcf hhooked hrequest hfound hran⟩⟩
          · rw [hfound] at hnot
            exact ⟨x', .inr ⟨fun h => hnot h.2, hstop⟩⟩
        · rw [hgot]
          exact ⟨y, .inr ⟨fun h => hno (h.1.imp (hctx ▸ ·) id), rfl⟩⟩
      · have hunhooked : x.hooked = none := (hooked_of hwcf hruntime).trans (if_neg hset)
        exact ⟨_, .inl ⟨hplain hunhooked, if_pos hset, passedOn_unhooked hwcf hruntime hset hrested⟩⟩

/-- A response of 5 bytes, whose header and body both have a guest. -/
def sizedExchange : Exchange plainWorld where
  wcf := some { Config.createConf with
    fuelLimit := 1000
    timesliceFuel := 0
    phase := fun _ => { set := 1, module := some 0 } }
  runtime := some true
  request := {
    headersIn := []
    headersOut := {
      status := 200
      headers := [⟨1, ascii "content-length", [53], []⟩]
      slots := Function.update (fun _ => none) .contentLength (some 0)
      contentLengthN := 5 }
    vars := ()
    pool := ⟨fun _ _ => true, 0⟩
    headerOnly := false
    isMain := true
    upstream := false
    subrequestBufferSize := 0
    state := none
    accepted := [] }
  allowRanges := true
  ctx := none
  shm := none
  metrics := none
  errorLog := []

theorem hostRespSetStatus_mem : hostRespSetStatus ∈ hostFuncs := by simp [hostFuncs]

/-- A guest that sets the status 202. -/
def statusGuest : Guest where
  input := Runtime.smoothRun ⟨[], 1, some (.value (.i32 0)), true⟩
  startCalls := []
  exportCalls := [⟨hostRespSetStatus, hostRespSetStatus_mem, ⟨0, 0⟩, [.i32 202], 1,
    ⟨true, 65536, fun _ => 0⟩⟩]

/-- The response goes on with that status and without its length. -/
theorem headers_filtered_accepted :
    let r := headerFilterHandler (fun x => (0, x)) ⟨true, true⟩ statusGuest sizedExchange
    r.1 = 0 ∧ r.2.request.headersOut.status = 202 ∧ ¬ Announces r.2.request.headersOut := by
  intro r
  have hrc : r.1 = 0 := rfl
  have hrested : sizedExchange.Rested := fun e he => by cases he
  obtain ⟨x', ⟨-, hgo, hpassed⟩ | ⟨-, hstop⟩⟩ :=
    headers_filtered (fun x => (0, x)) ⟨true, true⟩ statusGuest sizedExchange hrested
  · have hr : r = (0, x') := hgo
    have hbear : SlotsBear sizedExchange.request.headersOut := by
      intro s i hi
      by_cases hs : s = .contentLength
      · subst hs
        obtain rfl : 0 = i := Option.some.inj hi
        exact ⟨_, rfl, by decide⟩
      · have hnone : Function.update (fun _ => none) Slot.contentLength (some 0) s = some i := hi
        rw [Function.update_of_ne hs] at hnone
        cases hnone
    have howned : LengthOwned sizedExchange.request.headersOut := by
      intro i h hi _
      cases i with
      | zero => exact .inr rfl
      | succ i => cases hi
    rw [hr]
    refine ⟨rfl, hpassed.status.trans rfl, hpassed.length ⟨_, _, rfl, rfl, rfl, rfl⟩ hbear howned ?_⟩
    intro p hp a ha
    obtain rfl := Option.some.inj hp
    obtain rfl := List.mem_singleton.mp ha
    exact fun hsets => absurd hsets.1 (by decide)
  · have hr : r = (ngxError, x') := hstop
    rw [hr] at hrc
    cases hrc

end NgxWasm.HeaderFilter
