import NgxWasm.Request.Body

/-!
# The limit on a request body (`src/ngx_http_wasm_request_body.c`)

The length of a body is tested in three places: the announced length before anything is read, the case
without a body, and the sum over the buffers. The result reaches the phase at once, or through the
handler that nginx calls when the body has arrived.

`ReadsBody` is the situation in which this happens: it is the turn of a hook of a location with a body
buffer, nothing of the body has been read or discarded, and nginx keeps it in memory. `Verdict` says
what becomes of the body, in terms of its length, the limit and the memory that is granted.

* `prepareRequestBody_settles`, `runPhase_settles`: at once, or the request waits.
* `Stopped.step`: nothing else happens to the request while it waits, whatever events come in.
* `arrival_verdict`: the body arrives, and it is the same verdict.
* `body_within_limit`: in the phase that reads the body, all of it agrees. The guest runs with the
  concatenation of the buffers if that is no longer than the limit and there is memory for it; a longer
  body ends the phase with 413, and missing memory with 500, and no guest sees anything of it.

A body in a temporary file, which the handler refuses, is not the subject here, and neither is a hook
that finds a body already looked at by another one (`Request.Body`).

What `body_within_limit` takes for granted: the body is framed in one of the three ways (`Framed`),
there is memory for the module context if it has to be created (`Creates`), and nginx reads the body
without an error of its own. The body may come in any number of buffers: the loop over the chain tests
the sum so far after each, and the sums only grow, so that it comes to the same as one test of the whole
length (`chainLength_eq_if`).
-/

namespace NgxWasm.Request

open Lib
open NgxWasm.Runtime (smoothRun)

/-! ## The body and the phase that reads it -/

/-- How the body is framed: in chunks, with its length announced, or not there. -/
def Client.Framed (client : Client) : Prop :=
  client.chunked = true ∧ client.contentLengthN ≤ 0 ∨
    client.chunked = false ∧ (client.contentLengthN = client.body.length ∨
      client.contentLengthN ≤ 0 ∧ client.body = [])

/-- Nothing of the body has been read or thrown away, and nginx keeps it in memory. -/
structure Unread (client : Client) (req : Req) : Prop where
  contentLengthN : req.contentLengthN = client.contentLengthN
  chunked : req.chunked = client.chunked
  bufs : req.bufs = client.bufs
  tempFile : req.tempFile = false
  requestBody : req.requestBody = false
  discardBody : req.discardBody = false

/-- No hook has prepared the body. -/
structure Unprepared (ctx : Ctx) : Prop where
  status : ctx.bodyStatus = .ok
  ready : ctx.bodyReady = false
  reading : ctx.bodyReading = false
  stored : ctx.exec.abi.requestBody = none

/-- It is the turn of this hook, in a location with a body buffer, and the hook is the first to look
at the body. -/
structure ReadsBody (conf : Conf) (client : Client) (hook : Hook) (s : State) : Prop where
  kind : hook = .rewrite ∨ hook = .content
  set : conf.set hook = true
  runtime : conf.runtimeSet = true
  limit : 1 ≤ conf.loc.bufferSize
  live : s.req.finalized = false
  engine : s.req.engine = true
  position : ∃ rest, s.req.position = hook :: rest
  unread : Unread client s.req
  ctx : ∀ ctx ∈ s.ctx, Unprepared ctx ∧
    (ctx.exec.conf = some hook ∧ ctx.execCompleted = false ∨
      ctx.exec.conf ≠ some hook ∧ ctx.execCompleted = true)

/-- There is memory for the module context, if it has to be created. -/
def Creates (i : Input) (s : State) : Prop :=
  s.ctx = none → i.pcallocOk = true ∧ i.cleanupAddOk = true

/-- There is memory for the body. -/
def stores (i : Input) (body : Bytes) : Bool := i.setBodyOk && (body.isEmpty || i.storeOk)

/-- The body has to be waited for: it is announced, not as too long, and nginx does not have it. -/
def Waits (conf : Conf) (client : Client) (i : Input) : Prop :=
  i.read = .later ∧ client.contentLengthN ≤ conf.loc.bufferSize ∧
    (0 < client.contentLengthN ∨ client.chunked = true)

/-! ## What becomes of it -/

/-- The phase is over, and no guest has seen anything of the body. -/
structure Refused (s s' : State) : Prop where
  finalized : s'.req.finalized = true
  views : s'.req.views = s.req.views
  stored : ∀ ctx ∈ s'.ctx, ctx.exec.abi.requestBody = none

/-- The guest has run with this body. -/
structure Delivered (hook : Hook) (body : Bytes) (s s' : State) : Prop where
  views : s'.req.views = (hook, some body) :: s.req.views
  stored : ∀ ctx ∈ s'.ctx, ctx.exec.abi.requestBody = some body

/-- What the phase does with a body, where it comes to the status `rc`. -/
def Verdict (limit : Nat) (hook : Hook) (body : Bytes) (granted : Bool) (rc : Rc) (s s' : State) :
    Prop :=
  if limit < body.length then rc = .tooLarge ∧ Refused s s'
  else if granted then Delivered hook body s s'
  else rc = .internal ∧ Refused s s'

/-- What the handler of the phase returns to the phase engine. -/
def phaseStatus (conf : Conf) (hook : Hook) (i : Input) (s : State) : Rc :=
  match hook with
  | .content => (runPhase conf .content i { s with req.writeHandler := .empty }).1
  | hook => (runPhase conf hook i s).1

/-- The status `request_body_handler` comes to when the body arrives. -/
def arrivalStatus (conf : Conf) (i : Input) (s : State) : Rc :=
  match s.ctx with
  | some ctx => (requestBodyHandler conf i ⟨{ s.req with bodyPending := false }, ctx⟩).ctx.bodyStatus
  | none => .ok

/-! ## Storing the body -/

section Store

variable {conf : Conf} {hook : Hook} {i : Input} {f : Frame} {client : Client}

/-- The loop over the chain tests the whole length, however it is split. -/
theorem chainLength_eq_if {limit : Nat} {bufs : List Bytes} {len : Nat} (hlen : len ≤ limit) :
    chainLength limit bufs len =
      if limit < len + bufs.flatten.length then none else some (len + bufs.flatten.length) := by
  induction bufs generalizing len with
  | nil =>
    rw [chainLength, List.flatten_nil, List.length_nil, Nat.add_zero, if_neg (Nat.not_lt.mpr hlen)]
  | cons buf bufs ih =>
    rw [chainLength, List.flatten_cons, List.length_append, ← Nat.add_assoc]
    by_cases hlarge : len + buf.length > limit
    · rw [if_pos hlarge, if_pos (Nat.lt_of_lt_of_le hlarge (Nat.le_add_right _ _))]
    · rw [if_neg hlarge, ih (Nat.not_lt.mp hlarge)]

theorem reqSetBody_eq_if (data : Bytes) :
    reqSetBody i data f = if i.setBodyOk then (.ok, f.store (some data)) else (.internal, f) := by
  unfold reqSetBody
  cases i.setBodyOk <;> rfl

/-- **`store_request_body`** in memory. -/
theorem storeRequestBody_eq_if {limit : Nat} (ht : f.req.tempFile = false) :
    storeRequestBody limit i f =
      if limit < f.req.bufs.flatten.length then (.tooLarge, f)
      else if stores i f.req.bufs.flatten then (.ok, f.store (some f.req.bufs.flatten))
      else (.internal, f) := by
  unfold storeRequestBody stores
  by_cases hempty : f.req.bufs.isEmpty = true
  · rw [if_pos hempty, List.isEmpty_iff.mp hempty, reqSetBody_eq_if]
    simp
  rw [if_neg hempty, ht, if_neg Bool.false_ne_true, chainLength_eq_if (Nat.zero_le limit), Nat.zero_add]
  by_cases hlarge : limit < f.req.bufs.flatten.length
  · rw [if_pos hlarge, if_pos hlarge]
  rw [if_neg hlarge, if_neg hlarge]
  cases hlen : f.req.bufs.flatten.length with
  | zero =>
    have hnil : f.req.bufs.flatten = [] := List.eq_nil_of_length_eq_zero hlen
    rw [hnil, reqSetBody_eq_if]
    simp
  | succ n =>
    have hne : f.req.bufs.flatten.isEmpty = false := by
      rw [List.isEmpty_eq_false_iff]
      exact List.ne_nil_of_length_eq_add_one hlen
    simp only [reqSetBody_eq_if, hne, Bool.false_or]
    cases i.storeOk <;> cases i.setBodyOk <;> rfl

/-- **`request_body_handler`** in memory: the status, and what is stored. -/
theorem requestBodyHandler_verdict (hlimit : conf.handlerLimit ≠ 0) (ht : f.req.tempFile = false) :
    let body := f.req.bufs.flatten
    let f' := requestBodyHandler conf i f
    f'.ctx.bodyStatus =
        (if conf.handlerLimit < body.length then .tooLarge
          else if stores i body then .ok else .internal) ∧
      f'.ctx.exec.abi.requestBody =
        (if f'.ctx.bodyStatus = .ok then some body else f.ctx.exec.abi.requestBody) := by
  intro body f'
  have hstatus : handlerStatus conf i f =
      if conf.handlerLimit < body.length then (.tooLarge, f)
      else if stores i body then (.ok, f.store (some body)) else (.internal, f) := by
    unfold handlerStatus
    rw [if_neg hlimit, storeRequestBody_eq_if ht]
  have hfst : f'.ctx.bodyStatus = (handlerStatus conf i f).1 := rfl
  have hsnd : f'.ctx.exec.abi.requestBody = (handlerStatus conf i f).2.ctx.exec.abi.requestBody := rfl
  rw [hfst, hsnd, hstatus]
  split
  · exact ⟨rfl, rfl⟩
  · split <;> exact ⟨rfl, rfl⟩

/-- What `prepare_request_body` leaves behind where it decides at once. -/
def Settles (limit : Nat) (body : Bytes) (granted : Bool) : Piece Frame Rc → Prop
  | .next f' => body.length ≤ limit ∧ granted = true ∧ f'.ctx.exec.abi.requestBody = some body
  | .ret rc f' =>
    f'.ctx.exec.abi.requestBody = none ∧
      (limit < body.length ∧ rc = .tooLarge ∨ body.length ≤ limit ∧ granted = false ∧ rc = .internal)

/-- A body that has to be waited for. -/
def SettlesLater (client : Client) : Piece Frame Rc → Prop
  | .next _ => False
  | .ret rc f' =>
    rc = .done ∧ f'.ctx.exec.abi.requestBody = none ∧ f'.req.bufs = client.bufs ∧
      f'.req.tempFile = false

theorem readRequestBody_settles (hlimit : conf.handlerLimit ≠ 0) (hu : Unread client f.req)
    (hp : Unprepared f.ctx) (hnow : i.read = .inline) :
    Settles conf.handlerLimit client.body (stores i client.body) (readRequestBody conf i f) := by
  have hread : f.req.read i = .inline := by
    unfold Req.read
    rw [hu.requestBody, hu.discardBody]
    exact hnow
  unfold readRequestBody readClientRequestBody
  simp only [hread]
  generalize hg : ({
    req := { f.req with count := f.req.count + 1, requestBody := true }
    ctx := { f.ctx with bodyReading := true, bodyAsync := false, bodyStatus := .ok } } : Frame) = g
  have hbufs : g.req.bufs.flatten = client.body := by
    rw [← hg]
    exact congrArg List.flatten hu.bufs
  have htemp : g.req.tempFile = false := by
    rw [← hg]
    exact hu.tempFile
  have hstored : g.ctx.exec.abi.requestBody = none := by
    rw [← hg]
    exact hp.stored
  obtain ⟨hstatus, hbody⟩ := requestBodyHandler_verdict (i := i) hlimit htemp
  have hreading : (requestBodyHandler conf i g).ctx.bodyReading = false := rfl
  have hready : (requestBodyHandler conf i g).ctx.bodyReady =
      decide ((requestBodyHandler conf i g).ctx.bodyStatus = .ok) := rfl
  rw [hbufs] at hstatus hbody
  simp only [hreading, Bool.not_false, if_true, hready, decide_eq_true_eq]
  rw [hstatus] at hbody ⊢
  by_cases hlarge : conf.handlerLimit < client.body.length
  · rw [if_pos hlarge] at hbody ⊢
    exact ⟨hbody.trans hstored, .inl ⟨hlarge, rfl⟩⟩
  · rw [if_neg hlarge] at hbody ⊢
    cases hgrant : stores i client.body with
    | true =>
      rw [hgrant] at hbody
      exact ⟨Nat.not_lt.mp hlarge, rfl, hbody⟩
    | false =>
      rw [hgrant] at hbody
      exact ⟨hbody.trans hstored, .inr ⟨Nat.not_lt.mp hlarge, rfl, rfl⟩⟩

theorem readRequestBody_settlesLater (hu : Unread client f.req) (hp : Unprepared f.ctx)
    (hlater : i.read = .later) : SettlesLater client (readRequestBody conf i f) := by
  have hread : f.req.read i = .later := by
    unfold Req.read
    rw [hu.requestBody, hu.discardBody]
    exact hlater
  unfold readRequestBody readClientRequestBody
  simp only [hread, hp.ready]
  exact ⟨rfl, hp.stored, hu.bufs, hu.tempFile⟩

/-- The level of the two hooks is the location, whose limit the handler takes too. -/
theorem limit_eq (hhook : hook = .rewrite ∨ hook = .content) (hlimit : 1 ≤ conf.loc.bufferSize) :
    (conf.level hook).bufferSize = conf.loc.bufferSize ∧ conf.handlerLimit = conf.loc.bufferSize := by
  refine ⟨?_, if_neg (Nat.ne_of_gt hlimit)⟩
  rcases hhook with rfl | rfl <;> rfl

/-- **`prepare_request_body`** on a body that nobody has looked at. -/
theorem prepareRequestBody_settles (hhook : hook = .rewrite ∨ hook = .content)
    (hlimit : 1 ≤ conf.loc.bufferSize) (hf : client.Framed) (hu : Unread client f.req)
    (hp : Unprepared f.ctx) (hread : ∀ status, i.read ≠ .error status) :
    (¬ Waits conf client i → Settles conf.loc.bufferSize client.body (stores i client.body)
        (prepareRequestBody conf hook i f)) ∧
      (Waits conf client i → SettlesLater client (prepareRequestBody conf hook i f)) := by
  obtain ⟨hlevel, hhandler⟩ := limit_eq hhook hlimit
  have hzero : (conf.level hook).bufferSize ≠ 0 := by
    rw [hlevel]
    exact Nat.ne_of_gt hlimit
  unfold prepareRequestBody
  dsimp only
  rw [if_neg (not_not.mpr hp.status), if_neg hzero, hp.ready, hp.reading, if_neg Bool.false_ne_true,
    if_neg Bool.false_ne_true, hlevel, hu.contentLengthN, hu.chunked]
  by_cases hlarge : client.contentLengthN > conf.loc.bufferSize
  · -- refused by the announced length
    rw [if_pos hlarge]
    refine ⟨fun _ => ⟨hp.stored, .inl ⟨?_, rfl⟩⟩, fun hw => absurd hw.2.1 (not_le.mpr hlarge)⟩
    rcases hf with ⟨-, hneg⟩ | ⟨-, hlen | ⟨hneg, -⟩⟩
    · omega
    · omega
    · omega
  rw [if_neg hlarge]
  by_cases hnone : (decide (client.contentLengthN ≤ 0) && !client.chunked) = true
  · -- no body is announced
    rw [if_pos hnone]
    rw [Bool.and_eq_true, decide_eq_true_eq, Bool.not_eq_true'] at hnone
    have hnil : client.body = [] := by
      rcases hf with ⟨hyes, -⟩ | ⟨-, hlen | ⟨-, hnil⟩⟩
      · rw [hnone.2] at hyes
        cases hyes
      · exact List.eq_nil_of_length_eq_zero (by omega)
      · exact hnil
    refine ⟨fun _ => ?_, fun hw => ?_⟩
    · rw [hnil, reqSetBody_eq_if]
      unfold stores
      cases i.setBodyOk with
      | true => exact ⟨Nat.zero_le _, rfl, rfl⟩
      | false => exact ⟨hp.stored, .inr ⟨Nat.zero_le _, rfl, rfl⟩⟩
    · rcases hw.2.2 with hpos | hyes
      · omega
      · rw [hnone.2] at hyes
        cases hyes
  · rw [if_neg hnone]
    rw [Bool.and_eq_true, not_and_or, decide_eq_true_eq, not_le] at hnone
    have hannounced : 0 < client.contentLengthN ∨ client.chunked = true :=
      hnone.imp id fun h => by simpa using h
    constructor
    · intro hw
      have hinline : i.read = .inline := by
        cases hr : i.read with
        | error status => exact absurd hr (hread status)
        | inline => rfl
        | later => exact absurd ⟨hr, not_lt.mp hlarge, hannounced⟩ hw
      rw [← hhandler]
      refine readRequestBody_settles ?_ hu hp hinline
      rw [hhandler]
      exact Nat.ne_of_gt hlimit
    · exact fun hw => readRequestBody_settlesLater hu hp hw.1

end Store

/-! ## The phase -/

section Phase

variable {conf : Conf} {client : Client} {hook : Hook} {i : Input} {s : State}

/-- The context the hook gets. -/
theorem getOrCreateCtx_fresh {slot : Option Ctx} (hset : conf.set hook = true)
    (hslot : ∀ ctx ∈ slot, Unprepared ctx ∧ (ctx.exec.conf = some hook ∧ ctx.execCompleted = false ∨
      ctx.exec.conf ≠ some hook ∧ ctx.execCompleted = true))
    (hc : slot = none → i.pcallocOk = true ∧ i.cleanupAddOk = true) :
    ∃ ctx, getOrCreateCtx conf hook i slot = .ok ctx ∧ Unprepared ctx ∧
      ctx.exec.conf = some hook ∧ ctx.execCompleted = false := by
  cases slot with
  | none =>
    obtain ⟨hp, ha⟩ := hc rfl
    refine ⟨initRequestExec conf hook newCtx, ?_, ⟨rfl, rfl, rfl, rfl⟩, rfl, rfl⟩
    simp [getOrCreateCtx, hp, ha, hset]
  | some ctx =>
    obtain ⟨hu, ⟨hconf, hnot⟩ | ⟨hconf, hdone⟩⟩ := hslot ctx rfl
    · refine ⟨ctx, ?_, hu, hconf, hnot⟩
      simp [getOrCreateCtx, hnot]
    · refine ⟨initRequestExec conf hook ctx, ?_, ⟨hu.status, hu.ready, hu.reading, rfl⟩, rfl, rfl⟩
      simp [getOrCreateCtx, hdone, hconf, hset]

/-- The guest runs with what is stored. -/
theorem runRequest_delivers {f : Frame} {body : Bytes} (hconf : f.ctx.exec.conf = some hook)
    (hstored : f.ctx.exec.abi.requestBody = some body) :
    (runRequest i f).2.req.views = (hook, some body) :: f.req.views ∧
      (runRequest i f).2.ctx.exec.abi.requestBody = some body := by
  have hran : (ranGuest i f).req.views = (hook, some body) :: f.req.views := by
    unfold ranGuest
    simp only [hconf, hstored]
  have hbody : (runRequest i f).2.ctx.exec.abi.requestBody = f.ctx.exec.abi.requestBody :=
    congrArg Body.stored runRequest_body
  refine ⟨Eq.trans ?_ hran, hbody.trans hstored⟩
  have hcases := runRequest_cases (i := i) (f := f)
  generalize runRequest i f = r at hcases
  obtain ⟨rc, f'⟩ := r
  cases hcases with
  | suspended _ hh => exact congrArg Hold.views hh
  | declined _ _ hh => exact congrArg Hold.views hh
  | ends _ _ hh _ => exact congrArg Hold.views hh

/-- What a phase that ends leaves behind. -/
structure Untouched (s s' : State) : Prop where
  finalized : s'.req.finalized = s.req.finalized
  views : s'.req.views = s.req.views
  stored : ∀ ctx ∈ s'.ctx, ctx.exec.abi.requestBody = none

/-- The phase has stopped, and nginx will call the handler of the body. -/
structure Waiting (client : Client) (hook : Hook) (views : List (Hook × Option Bytes)) (s : State) :
    Prop where
  finalized : s.req.finalized = false
  pending : s.req.bodyPending = true
  handler : s.req.writeHandler = .empty
  bufs : s.req.bufs = client.bufs
  tempFile : s.req.tempFile = false
  views : s.req.views = views
  ctx : ∃ ctx, s.ctx = some ctx ∧ ctx.bodyAsync = true ∧ ctx.exec.conf = some hook ∧
    ctx.exec.abi.requestBody = none

/-- And the phase engine has stopped. -/
def Stopped (client : Client) (hook : Hook) (views : List (Hook × Option Bytes)) (s : State) : Prop :=
  Waiting client hook views s ∧ s.req.engine = false

/-- **`run_phase`** decides at once, or waits. -/
theorem runPhase_settles (hf : client.Framed) (hr : ReadsBody conf client hook s) (hc : Creates i s)
    (hread : ∀ status, i.read ≠ .error status) :
    (¬ Waits conf client i →
      (conf.loc.bufferSize < client.body.length ∧ (runPhase conf hook i s).1 = .tooLarge ∧
        Untouched s (runPhase conf hook i s).2) ∨
      (client.body.length ≤ conf.loc.bufferSize ∧ stores i client.body = true ∧
        Delivered hook client.body s (runPhase conf hook i s).2) ∨
      (client.body.length ≤ conf.loc.bufferSize ∧ stores i client.body = false ∧
        (runPhase conf hook i s).1 = .internal ∧ Untouched s (runPhase conf hook i s).2)) ∧
    (Waits conf client i → (runPhase conf hook i s).1 = .done ∧
      Waiting client hook s.req.views (runPhase conf hook i s).2) := by
  obtain ⟨ctx, hget, hp, hconf, hnot⟩ := getOrCreateCtx_fresh hr.set hr.ctx hc
  obtain ⟨hnow, hlater⟩ :=
    prepareRequestBody_settles (f := ⟨s.req, ctx⟩) hr.kind hr.limit hf hr.unread hp hread
  have hcases : (prepareRequestBody conf hook i ⟨s.req, ctx⟩).Sat _ _ :=
    prepareRequestBody_cases hp.reading (.inl hp.status)
  have hcompleted : ¬ (ctx.execCompleted = true ∧ hook ≠ .content) := fun h => by
    rw [hnot] at h
    exact Bool.false_ne_true h.1
  unfold runPhase
  rw [hr.set, hr.runtime, hget]
  simp only [Bool.not_true, Bool.or_false, Bool.false_eq_true, if_false, hconf, ne_eq, not_true_eq_false]
  rw [if_neg hcompleted]
  cases hx : prepareRequestBody conf hook i ⟨s.req, ctx⟩ with
  | next f' =>
    rw [hx] at hnow hlater hcases
    refine ⟨fun hw => ?_, fun hw => (hlater hw).elim⟩
    obtain ⟨hlen, hgrant, hstored⟩ := hnow hw
    have hhold : f'.hold = Frame.hold ⟨s.req, ctx⟩ := hcases.hold
    have hsame : f'.ctx.exec.conf = some hook := (congrArg Hold.conf hhold).trans hconf
    obtain ⟨hviews, hkept⟩ := runRequest_delivers (i := i) hsame hstored
    refine .inr (.inl ⟨hlen, hgrant, ?_, ?_⟩)
    · exact hviews.trans (congrArg (_ :: ·) (congrArg Hold.views hhold))
    · exact fun c hc => Option.some.inj hc ▸ hkept
  | ret rc f' =>
    rw [hx] at hnow hlater hcases
    constructor
    · intro hw
      obtain ⟨hstored, hrc⟩ := hnow hw
      have hends : rc ≠ .done := by
        rcases hrc with ⟨-, rfl⟩ | ⟨-, -, rfl⟩ <;> exact Rc.noConfusion
      have hhold : f'.hold = Frame.hold ⟨s.req, ctx⟩ := by
        rcases hcases with ⟨-, hsettled⟩ | ⟨hdone, -⟩
        · exact hsettled.hold
        · exact absurd hdone hends
      have huntouched : Untouched s (finalizeAsync rc f').toState := by
        unfold finalizeAsync
        rw [if_neg fun h => hends h.1]
        refine ⟨congrArg Hold.finalized hhold, congrArg Hold.views hhold, fun c hc => ?_⟩
        exact Option.some.inj hc ▸ hstored
      rcases hrc with ⟨hlarge, hrc⟩ | ⟨hlen, hgrant, hrc⟩
      · exact .inl ⟨hlarge, hrc, huntouched⟩
      · exact .inr (.inr ⟨hlen, hgrant, hrc, huntouched⟩)
    · intro hw
      obtain ⟨rfl, hstored, hbufs, htemp⟩ := hlater hw
      rcases hcases with ⟨hends, -⟩ | ⟨-, hreading, -⟩
      · exact absurd rfl hends.1
      have hhold := hreading.hold
      refine ⟨rfl, ?_⟩
      unfold finalizeAsync
      dsimp only
      rw [if_pos ⟨rfl, hreading.async⟩]
      exact {
        finalized := (congrArg Hold.finalized hhold).trans hr.live
        pending := congrArg Hold.bodyPending hhold
        handler := congrArg Hold.writeHandler hhold
        bufs := hbufs
        tempFile := htemp
        views := congrArg Hold.views hhold
        ctx := ⟨f'.ctx, rfl, hreading.async, (congrArg Hold.conf hhold).trans hconf, hstored⟩ }

theorem finalize_views (rc : Rc) (r : Req) : (r.finalize rc).views = r.views := by
  cases rc <;> rfl

/-- The checker of a hook's phase. -/
def checked (hook : Hook) (rest : List Hook) (r : Rc × State) : State :=
  match hook with
  | .content => checkContent rest r
  | _ => checkRewrite rest r

/-- It leaves alone what the guest saw and what is stored. -/
theorem checked_kept (hook : Hook) (rest : List Hook) (r : Rc × State) :
    (checked hook rest r).req.views = r.2.req.views ∧ (checked hook rest r).ctx = r.2.ctx := by
  have hcontent :
      (checkContent rest r).req.views = r.2.req.views ∧ (checkContent rest r).ctx = r.2.ctx := by
    unfold checkContent
    split
    · exact ⟨finalize_views .declined _, rfl⟩
    · exact ⟨finalize_views _ _, rfl⟩
  have hrewrite :
      (checkRewrite rest r).req.views = r.2.req.views ∧ (checkRewrite rest r).ctx = r.2.ctx := by
    unfold checkRewrite
    split
    · exact ⟨rfl, rfl⟩
    · exact ⟨rfl, rfl⟩
    · exact ⟨finalize_views _ _, rfl⟩
  cases hook with
  | serverRewrite => exact hrewrite
  | rewrite => exact hrewrite
  | content => exact hcontent

/-- An error status ends the request. -/
theorem checked_http (hook : Hook) (rest : List Hook) {r : Rc × State} {status : Nat}
    (h : r.1 = .http status) : (checked hook rest r).req.finalized = true := by
  obtain ⟨rc, s⟩ := r
  obtain rfl : rc = .http status := h
  cases hook <;> rfl

/-- A phase that waits for the body stops the phase engine. -/
theorem checked_done {views : List (Hook × Option Bytes)} (rest : List Hook) {r : Rc × State}
    (hdone : r.1 = .done) (h : Waiting client hook views r.2) :
    Stopped client hook views (checked hook rest r) := by
  obtain ⟨rc, s⟩ := r
  obtain rfl : rc = .done := hdone
  have hsame : ∀ req : Req, req.finalized = s.req.finalized → req.bodyPending = s.req.bodyPending →
      req.writeHandler = s.req.writeHandler → req.bufs = s.req.bufs → req.tempFile = s.req.tempFile →
      req.views = s.req.views → Waiting client hook views ⟨req, s.ctx⟩ :=
    fun req h₁ h₂ h₃ h₄ h₅ h₆ => ⟨h₁.trans h.finalized, h₂.trans h.pending, h₃.trans h.handler,
      h₄.trans h.bufs, h₅.trans h.tempFile, h₆.trans h.views, h.ctx⟩
  cases hook with
  | serverRewrite => exact ⟨hsame _ rfl rfl rfl rfl rfl rfl, rfl⟩
  | rewrite => exact ⟨hsame _ rfl rfl rfl rfl rfl rfl, rfl⟩
  | content => exact ⟨hsame _ rfl rfl rfl rfl rfl rfl, rfl⟩

/-- The state in which the phase engine calls the hook. -/
def called (hook : Hook) (s : State) : State :=
  match hook with
  | .content => { s with req.writeHandler := .empty }
  | _ => s

/-- The phase engine calls the hook whose turn it is. -/
theorem step_phase {rest : List Hook} (hlive : s.req.finalized = false) (hengine : s.req.engine = true)
    (hposition : s.req.position = hook :: rest) :
    step conf s (.phase i) = checked hook rest (runPhase conf hook i (called hook s)) := by
  unfold step
  rw [hlive, if_neg Bool.false_ne_true]
  dsimp only
  rw [if_pos hengine]
  unfold runPhases
  rw [hposition]
  cases hook <;> rfl

theorem phaseStatus_eq (conf : Conf) (hook : Hook) (i : Input) (s : State) :
    phaseStatus conf hook i s = (runPhase conf hook i (called hook s)).1 := by
  cases hook <;> rfl

/-- **The phase that reads the body**: a verdict at once, or the request waits. -/
theorem phase_verdict (hf : client.Framed) (hr : ReadsBody conf client hook s) (hc : Creates i s)
    (hread : ∀ status, i.read ≠ .error status) :
    (¬ Waits conf client i → Verdict conf.loc.bufferSize hook client.body (stores i client.body)
        (phaseStatus conf hook i s) s (step conf s (.phase i))) ∧
      (Waits conf client i → Stopped client hook s.req.views (step conf s (.phase i))) := by
  obtain ⟨rest, hposition⟩ := hr.position
  have hr' : ReadsBody conf client hook (called hook s) := by
    obtain ⟨kind, set, runtime, limit, live, engine, position, unread, ctx⟩ := hr
    rcases kind with rfl | rfl
    · exact ⟨.inl rfl, set, runtime, limit, live, engine, position, unread, ctx⟩
    · exact ⟨.inr rfl, set, runtime, limit, live, engine, position, ⟨unread.1, unread.2, unread.3,
        unread.4, unread.5, unread.6⟩, ctx⟩
  have hviews : (called hook s).req.views = s.req.views := by cases hook <;> rfl
  have hc' : Creates i (called hook s) := by
    cases hook <;> exact hc
  obtain ⟨hnow, hlater⟩ := runPhase_settles hf hr' hc' hread
  rw [step_phase hr.live hr.engine hposition, phaseStatus_eq]
  obtain ⟨hsame, hctx⟩ := checked_kept hook rest (runPhase conf hook i (called hook s))
  constructor
  · intro hw
    have hrefused : ∀ status, (runPhase conf hook i (called hook s)).1 = .http status →
        Untouched (called hook s) (runPhase conf hook i (called hook s)).2 →
        Refused s (checked hook rest (runPhase conf hook i (called hook s))) :=
      fun status hrc hu => ⟨checked_http hook rest hrc, hsame.trans (hu.views.trans hviews), by
        rw [hctx]
        exact hu.stored⟩
    unfold Verdict
    rcases hnow hw with ⟨hlarge, hrc, hu⟩ | ⟨hlen, hgrant, hd⟩ | ⟨hlen, hgrant, hrc, hu⟩
    · rw [if_pos hlarge]
      exact ⟨hrc, hrefused 413 hrc hu⟩
    · rw [if_neg (Nat.not_lt.mpr hlen), if_pos hgrant]
      refine ⟨hsame.trans (hd.views.trans ?_), ?_⟩
      · rw [hviews]
      · rw [hctx]
        exact hd.stored
    · rw [if_neg (Nat.not_lt.mpr hlen), hgrant, if_neg Bool.false_ne_true]
      exact ⟨hrc, hrefused 500 hrc hu⟩
  · intro hw
    obtain ⟨hdone, hwaiting⟩ := hlater hw
    rw [hviews] at hwaiting
    exact checked_done rest hdone hwaiting

/-! ## The wait -/

/-- The event is the arrival of the body. -/
def Event.arrives : Event → Bool
  | .body _ => true
  | .phase _ | .resume _ | .io => false

/-- **Nothing else happens while the body is waited for.** -/
theorem Stopped.step {views : List (Hook × Option Bytes)} (h : Stopped client hook views s)
    {e : Event} (he : e.arrives = false) : Stopped client hook views (step conf s e) := by
  obtain ⟨hw, hengine⟩ := h
  obtain ⟨ctx, hctx, hasync, hconf, hstored⟩ := hw.ctx
  have hcase : Occurs conf s e (Request.step conf s e) := step_occurs conf s e
  generalize Request.step conf s e = s' at hcase ⊢
  cases hcase with
  | nothing => exact ⟨hw, hengine⟩
  | phase _ hrunning => exact absurd (hengine.symm.trans hrunning) Bool.false_ne_true
  | body => cases he
  | resume _ _ _ hhandler => exact absurd (hw.handler.symm.trans hhandler) WriteHandler.noConfusion
  | unused _ hctx' =>
    obtain rfl := Option.some.inj (hctx.symm.trans hctx')
    exact ⟨⟨hw.finalized, hw.pending, hw.handler, hw.bufs, hw.tempFile, hw.views,
      ctx, rfl, hasync, hconf, hstored⟩, hengine⟩
  | io _ hctx' =>
    obtain rfl := Option.some.inj (hctx.symm.trans hctx')
    exact ⟨⟨hw.finalized, hw.pending, hw.handler, hw.bufs, hw.tempFile, hw.views,
      _, rfl, hasync, hconf, hstored⟩, hengine⟩

theorem resumed_same (r : Rc × Frame) :
    (resumed r).req.views = r.2.req.views ∧ (resumed r).ctx = r.2.ctx := by
  unfold resumed
  split
  · exact ⟨rfl, rfl⟩
  · exact ⟨rfl, rfl⟩
  · exact ⟨finalize_views _ _, rfl⟩

/-- What `request_body_handler` leaves, when the body arrives that the request waits for. -/
theorem Waiting.handled {views : List (Hook × Option Bytes)} (hlimit : 1 ≤ conf.loc.bufferSize)
    (h : Waiting client hook views s) : ∃ ctx, s.ctx = some ctx ∧
      let f := requestBodyHandler conf i ⟨{ s.req with bodyPending := false }, ctx⟩
      f.req.views = views ∧ f.ctx.bodyAsync = true ∧ f.ctx.exec.conf = some hook ∧
        f.ctx.bodyStatus = (if conf.loc.bufferSize < client.body.length then .tooLarge
          else if stores i client.body then .ok else .internal) ∧
        f.ctx.exec.abi.requestBody = if f.ctx.bodyStatus = .ok then some client.body else none := by
  obtain ⟨ctx, hctx, hasync, hconf, hstored⟩ := h.ctx
  have hhandler : conf.handlerLimit = conf.loc.bufferSize := if_neg (Nat.ne_of_gt hlimit)
  refine ⟨ctx, hctx, ?_⟩
  generalize hg : (⟨{ s.req with bodyPending := false }, ctx⟩ : Frame) = g
  have hbufs : g.req.bufs.flatten = client.body := by
    rw [← hg]
    exact congrArg List.flatten h.bufs
  have htemp : g.req.tempFile = false := by
    rw [← hg]
    exact h.tempFile
  have hkept : (requestBodyHandler conf i g).req = g.req ∧ _ := requestBodyHandler_req
  obtain ⟨hreq, hsame, hasync'⟩ := hkept
  have hverdict : (requestBodyHandler conf i g).ctx.bodyStatus = _ ∧
      (requestBodyHandler conf i g).ctx.exec.abi.requestBody = _ :=
    requestBodyHandler_verdict (by rw [hhandler]; exact Nat.ne_of_gt hlimit) htemp
  rw [hbufs, hhandler] at hverdict
  refine ⟨?_, ?_, ?_, hverdict.1, hverdict.2.trans ?_⟩
  · rw [hreq, ← hg]
    exact h.views
  · rw [hasync', ← hg]
    exact hasync
  · rw [hsame, ← hg]
    exact hconf
  · have hnone : g.ctx.exec.abi.requestBody = none := by
      rw [← hg]
      exact hstored
    rw [hnone]

/-- **The body arrives**: the verdict. -/
theorem arrival_verdict {s₀ : State} (hlimit : 1 ≤ conf.loc.bufferSize)
    (h : Waiting client hook s₀.req.views s) :
    Verdict conf.loc.bufferSize hook client.body (stores i client.body) (arrivalStatus conf i s) s₀
      (step conf s (.body i)) := by
  obtain ⟨ctx, hctx, hviews, hasync, hconf, hstatus, hbody⟩ := h.handled (i := i) hlimit
  unfold step arrivalStatus
  rw [h.finalized, if_neg Bool.false_ne_true, hctx]
  dsimp only
  rw [if_pos h.pending]
  unfold bodyArrives
  dsimp only
  rw [hasync, Bool.not_true, if_neg Bool.false_ne_true]
  generalize requestBodyHandler conf i ⟨{ s.req with bodyPending := false }, ctx⟩ = f at *
  have hrefused : ∀ status, f.ctx.bodyStatus = .http status →
      Refused s₀ (Frame.toState { f with req := f.req.finalize f.ctx.bodyStatus }) := by
    intro status hrc
    refine ⟨?_, ?_, fun c hc => ?_⟩
    · rw [hrc]
      rfl
    · exact (finalize_views _ _).trans hviews
    · obtain rfl := Option.some.inj hc
      rw [hbody, if_neg (by rw [hrc]; exact Rc.noConfusion)]
  unfold Verdict
  by_cases hlarge : conf.loc.bufferSize < client.body.length
  · rw [if_pos hlarge] at hstatus ⊢
    rw [if_pos (by rw [hstatus]; exact Rc.noConfusion)]
    exact ⟨hstatus, hrefused 413 hstatus⟩
  rw [if_neg hlarge] at hstatus ⊢
  cases hgrant : stores i client.body with
  | false =>
    rw [hgrant, if_neg Bool.false_ne_true] at hstatus
    rw [if_neg Bool.false_ne_true, if_pos (by rw [hstatus]; exact Rc.noConfusion)]
    exact ⟨hstatus, hrefused 500 hstatus⟩
  | true =>
    rw [hgrant, if_pos rfl] at hstatus
    rw [hstatus, if_pos rfl] at hbody
    rw [if_pos rfl, if_neg (not_not.mpr hstatus)]
    unfold resumeHandler
    rw [if_neg (not_not.mpr hstatus)]
    obtain ⟨hran, hkept⟩ := runRequest_delivers (i := i) hconf hbody
    obtain ⟨hrviews, hrctx⟩ := resumed_same (runRequest i f)
    refine ⟨?_, fun c hc => ?_⟩
    · refine hrviews.trans (hran.trans ?_)
      rw [hviews]
    · obtain rfl := Option.some.inj hc
      rw [hrctx]
      exact hkept

end Phase

/-- **The limit**: in the phase that reads the body, the guest gets the concatenation of the buffers if
that is no longer than the limit and there is memory for it; otherwise the phase ends with 413 or 500
and nothing of the body is delivered. This is so whether nginx has the body at once or it arrives
after other events. -/
theorem body_within_limit (conf : Conf) (client : Client) (hook : Hook) (i : Input) (s : State)
    (hf : client.Framed) (hr : ReadsBody conf client hook s) (hc : Creates i s)
    (hread : ∀ status, i.read ≠ .error status) :
    (¬ Waits conf client i → Verdict conf.loc.bufferSize hook client.body (stores i client.body)
        (phaseStatus conf hook i s) s (step conf s (.phase i))) ∧
      (Waits conf client i → ∀ events, (∀ e ∈ events, e.arrives = false) → ∀ i',
        let s' := runFrom (step conf) (step conf s (.phase i)) events
        s'.req.views = s.req.views ∧ (∀ ctx ∈ s'.ctx, ctx.exec.abi.requestBody = none) ∧
          Verdict conf.loc.bufferSize hook client.body (stores i' client.body)
            (arrivalStatus conf i' s') s (step conf s' (.body i'))) := by
  obtain ⟨hnow, hlater⟩ := phase_verdict hf hr hc hread
  refine ⟨hnow, ?_⟩
  intro hw events hevents i' s'
  have hwaiting : Stopped client hook s.req.views s' :=
    (meets_of_forall hevents).invariant (hlater hw) fun _ _ h he => h.step he
  obtain ⟨ctx, hctx, -, -, hstored⟩ := hwaiting.1.ctx
  refine ⟨hwaiting.1.views, fun c hc => ?_, arrival_verdict hr.limit hwaiting.1⟩
  obtain rfl := Option.some.inj (hctx.symm.trans hc)
  exact hstored

/-- A location with a limit of three bytes and a rewrite hook. -/
def threeBytes : Conf := ⟨true, true, (· = .rewrite), fun _ => true, ⟨0, 9, 9⟩, ⟨3, 9, 9⟩⟩

/-- Three bytes in two buffers, in chunks, that arrive after a spurious event. -/
theorem body_within_limit_chunked :
    let client : Client := ⟨-1, true, [[1], [2, 3]], false⟩
    let i : Input := { smoothInput (smoothRun ⟨[], 1, some (.value (.i32 0)), true⟩) with
      read := .later }
    let s := step threeBytes (init client) (.phase i)
    let s' := runFrom (step threeBytes) (step threeBytes s (.phase i)) [.io]
    s'.req.views = [] ∧ Verdict 3 .rewrite [1, 2, 3] true (arrivalStatus threeBytes i s') s
      (step threeBytes s' (.body i)) := by
  intro client i s s'
  have hr : ReadsBody threeBytes client .rewrite s :=
    ⟨.inl rfl, rfl, rfl, by decide, rfl, rfl, ⟨[.content], rfl⟩, ⟨rfl, rfl, rfl, rfl, rfl, rfl⟩,
      fun _ hctx => absurd hctx (Option.not_mem_none _)⟩
  have hread : ∀ status, i.read ≠ .error status := fun _ => Read.noConfusion
  have h := (body_within_limit threeBytes client .rewrite i s (.inl ⟨rfl, by decide⟩) hr
    (fun _ => ⟨rfl, rfl⟩) hread).2 ⟨rfl, by decide, .inr rfl⟩ [.io] (by decide) i
  exact ⟨h.1, h.2.2⟩

/-- One byte, and no memory for it: the phase ends with 500, and the guest does not run. -/
theorem body_without_memory :
    let client : Client := ⟨1, false, [[1]], false⟩
    let i : Input := { smoothInput (smoothRun ⟨[], 1, some (.value (.i32 0)), true⟩) with
      storeOk := false }
    let s := step threeBytes (init client) (.phase i)
    client.body.length ≤ threeBytes.loc.bufferSize ∧
      phaseStatus threeBytes .rewrite i s = .internal ∧ (step threeBytes s (.phase i)).req.views = [] ∧
      (step threeBytes s (.phase i)).ctx.map (fun ctx => ctx.exec.abi.requestBody) = some none := by
  decide +kernel

end NgxWasm.Request
