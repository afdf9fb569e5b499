import NgxWasm.Lib.Run
import NgxWasm.Request.Ctx

/-!
# The phases of a request

`run_request` runs the guest and turns what the run returned into what the handler of a phase
returns: suspended, it installs the resume handler, and in the content phase takes a reference for it;
done, it sends the response, or declines. `run_phase` is called by the phase engine, `resume_handler`
by nginx for a posted request, and the second half of `request_body_handler` when a body has arrived.
All three end by passing on or finalizing the request, each in its own way.

`step` is one of these calls to its end; `io` is the completion of a subrequest, which posts the
request that waits for it. The phase engine's two checkers are part of a step: `checkRewrite` goes on
after `NGX_DECLINED`, `checkContent` finalizes with whatever the handler returned.

An event that nginx cannot produce in a state changes nothing, so that a run is any list of events,
and what is proved over runs needs no condition on their order.
-/

namespace NgxWasm.Request

open Lib
open NgxWasm.Runtime (RunInput SuspendKind launches initExecCtx run)

/-! ## The module context -/

/-- `init_request_exec`: the old execution context is cleaned up and its trace ends; nothing of
what the imports worked on is kept. -/
def initRequestExec (conf : Conf) (hook : Hook) (ctx : Ctx) : Ctx :=
  { ctx with
    exec := {
      conf := some hook
      abi := {}
      machine := initExecCtx conf.runtimeReady (conf.moduleLoaded hook) hook.phaseKind
        (conf.level hook).fuelLimit (conf.level hook).timesliceFuel }
    execCompleted := false }

/-- The zeroed memory of a new context. -/
def newCtx : Ctx where
  exec := {
    conf := none
    abi := {}
    machine := initExecCtx false false .content 0 0 }

/-- `get_or_create_ctx`: the context, or `NULL` and what the request is left with. -/
def getOrCreateCtx (conf : Conf) (hook : Hook) (i : Input) : Option Ctx → Except (Option Ctx) Ctx
  | some ctx =>
    if ctx.execCompleted ∧ ctx.exec.conf ≠ some hook ∧ conf.set hook then
      .ok (initRequestExec conf hook ctx)
    else .ok ctx
  | none =>
    if !i.pcallocOk then .error none
    else if !i.cleanupAddOk then .error (some newCtx)
    else if conf.set hook then .ok (initRequestExec conf hook newCtx)
    else .error (some newCtx)

/-! ## Running the guest -/

/-- `abi_send_response`. -/
def sendResponse (i : Input) (abi : Abi) : Rc × Abi :=
  if abi.responseSent then (.internal, abi)
  else if (i.sendHeader ≠ .ok ∧ i.sendHeader ≠ .again) ∨ i.headerOnly then
    (i.sendHeader.rc, abi)
  else if !abi.bodySet then (i.output.rc, { abi with responseSent := true })
  else if !i.bufOk then (.internal, abi)
  else (i.output.rc, { abi with responseSent := true })

/-- The guest has run: what the runtime and the imports left behind, and what the guest found. -/
def ranGuest (i : Input) (f : Frame) : Frame where
  req := { f.req with
    views := match f.ctx.exec.conf with
      | some hook => (hook, f.ctx.exec.abi.requestBody) :: f.req.views
      | none => f.req.views }
  ctx :=
    let machine := (run i.run f.ctx.exec.machine).2
    let abi := f.ctx.exec.abi
    { f.ctx with
      exec := { f.ctx.exec with
        machine := machine
        abi := { abi with
          statusSet := abi.statusSet || i.setsStatus
          bodySet := abi.bodySet || i.setsBody
          contentTypeSet := abi.contentTypeSet || i.setsContentType } }
      subrequestActive := f.ctx.subrequestActive ||
        decide (launches f.ctx.exec.machine.trace < launches machine.trace) }

/-- `run_request` after `NGX_AGAIN`. -/
def suspendRequest (i : Input) (f : Frame) : Rc × Frame :=
  let f := { f with req.writeHandler := .resume }
  let reschedule := f.ctx.exec.machine.ctx.suspendKind = .reschedule
  if reschedule ∧ !i.postOk then (.internal, f)
  else
    let first := !f.ctx.waiting && f.ctx.exec.machine.ctx.phaseKind = .content
    (.done, {
      req := { f.req with
        posted := if reschedule then f.req.posted + 1 else f.req.posted
        count := if first then f.req.count + 1 else f.req.count
        suspended := true }
      ctx := { f.ctx with waiting := true } })

/-- `run_request` after `NGX_OK`. -/
def completeRequest (i : Input) (f : Frame) : Rc × Frame :=
  let f := { f with ctx := { f.ctx with waiting := false, execCompleted := true } }
  let abi := f.ctx.exec.abi
  let phase := f.ctx.exec.machine.ctx.phaseKind
  if (phase = .rewrite ∨ phase = .serverRewrite) ∧ !abi.statusSet ∧ !abi.bodySet ∧
      !abi.contentTypeSet then (.declined, f)
  else
    let sent := sendResponse i abi
    (if sent.1 = .error then .internal else sent.1, { f with ctx.exec.abi := sent.2 })

/-- `run_request`. -/
def runRequest (i : Input) (f : Frame) : Rc × Frame :=
  let rc := (run i.run f.ctx.exec.machine).1
  if rc = .again then suspendRequest i (ranGuest i f)
  else if rc ≠ .ok then (.internal, ranGuest i f)
  else completeRequest i (ranGuest i f)

/-- `run_phase` where `prepare_request_body` did not return `NGX_OK`. -/
def finalizeAsync (rc : Rc) (f : Frame) : Frame :=
  if rc = .done ∧ f.ctx.bodyAsync then { f with req := f.req.finalize .done } else f

/-- `run_phase`. -/
def runPhase (conf : Conf) (hook : Hook) (i : Input) (s : State) : Rc × State :=
  if !conf.set hook || !conf.runtimeSet then (.declined, s)
  else
    match getOrCreateCtx conf hook i s.ctx with
    | .error ctx => (.internal, ⟨s.req, ctx⟩)
    | .ok ctx =>
      let f : Frame := ⟨s.req, ctx⟩
      if ctx.exec.conf ≠ some hook then (.internal, f.toState)
      else if ctx.execCompleted ∧ hook ≠ .content then (.declined, f.toState)
      else
        match prepareRequestBody conf hook i f with
        | .ret rc f => (rc, (finalizeAsync rc f).toState)
        | .next f => ((runRequest i f).1, (runRequest i f).2.toState)

/-! ## The three callers -/

/-- `resume_handler` after `run_request`. -/
def resumed (r : Rc × Frame) : Frame :=
  match r.1 with
  | .done => r.2
  | .declined => { r.2 with req := { r.2.req with writeHandler := .runPhases, engine := true } }
  | rc => { r.2 with req := r.2.req.finalize rc }

/-- `resume_handler` on the module context. -/
def resumeHandler (i : Input) (f : Frame) : Frame :=
  if f.ctx.bodyStatus ≠ .ok then { f with req := f.req.finalize f.ctx.bodyStatus }
  else resumed (runRequest i f)

/-- The whole of `request_body_handler` when the body arrives later. -/
def bodyArrives (conf : Conf) (i : Input) (f : Frame) : Frame :=
  let f := requestBodyHandler conf i f
  if !f.ctx.bodyAsync then f
  else if f.ctx.bodyStatus ≠ .ok then { f with req := f.req.finalize f.ctx.bodyStatus }
  else resumeHandler i f

/-- The checkers of the rewrite phases go on after `NGX_DECLINED` and do nothing on `NGX_DONE`. -/
def checkRewrite (rest : List Hook) (r : Rc × State) : State :=
  match r.1 with
  | .declined => { r.2 with req.position := rest }
  | .done => { r.2 with req.engine := false }
  | rc => { r.2 with req := r.2.req.finalize rc }

/-- The checker of the content phase finalizes with whatever the handler returned. -/
def checkContent (rest : List Hook) (r : Rc × State) : State :=
  if r.1 = .declined then { r.2 with req := { r.2.req.finalize .declined with position := rest } }
  else { r.2 with req := { r.2.req.finalize r.1 with engine := false } }

/-- The phase engine calls the handler of the next hook; after the last one the request is nginx's
own. -/
def runPhases (conf : Conf) (i : Input) (s : State) : State :=
  match s.req.position with
  | [] => { s with req := s.req.finalize .ok }
  | .content :: rest =>
    checkContent rest (runPhase conf .content i { s with req.writeHandler := .empty })
  | hook :: rest => checkRewrite rest (runPhase conf hook i s)

/-! ## Steps -/

/-- Who runs next. -/
inductive Event where
  /-- The phase engine. -/
  | phase (i : Input)
  /-- The body has arrived. -/
  | body (i : Input)
  /-- A posted request is run. -/
  | resume (i : Input)
  /-- A subrequest of this request is finished. -/
  | io

/-- The context's subrequest is finished: `abi_subrequest_done`, and nginx posts the request. -/
def subrequestDone (f : Frame) : Frame :=
  if f.ctx.subrequestActive then
    { f with ctx.subrequestActive := false, req.posted := f.req.posted + 1 }
  else f

/-- A posted request is run by its write event handler. -/
def runPosted (i : Input) (f : Frame) : Frame :=
  let f := { f with req.posted := f.req.posted - 1 }
  if f.req.writeHandler = .resume then resumeHandler i { f with req.suspended := false } else f

/-- One step. An event that nginx cannot produce in this state changes nothing; a request that has
been finalized is gone. -/
def step (conf : Conf) (s : State) (e : Event) : State :=
  if s.req.finalized then s
  else
    match e, s.ctx with
    | .phase i, _ => if s.req.engine then runPhases conf i s else s
    | .body i, some ctx =>
      if s.req.bodyPending then
        (bodyArrives conf i ⟨{ s.req with bodyPending := false }, ctx⟩).toState
      else s
    | .resume i, some ctx => if 0 < s.req.posted then (runPosted i ⟨s.req, ctx⟩).toState else s
    | .io, some ctx => (subrequestDone ⟨s.req, ctx⟩).toState
    | _, none => s

/-- Nothing fails, the body is there at once, and the guest does what `run` says. -/
def smoothInput (run : RunInput) : Input where
  pcallocOk := true
  cleanupAddOk := true
  discard := .done 0 false
  read := .inline
  storeOk := true
  setBodyOk := true
  run := run
  setsStatus := false
  setsBody := false
  setsContentType := false
  postOk := true
  sendHeader := .ok
  headerOnly := false
  bufOk := true
  output := .ok

/-- A request as it enters the phases. -/
def init (client : Client) : State where
  req := {
    contentLengthN := client.contentLengthN
    chunked := client.chunked
    bufs := client.bufs
    tempFile := client.tempFile }
  ctx := none

end NgxWasm.Request
