import NgxWasm.Lib.Run
import NgxWasm.Request.Ctx
import NgxWasm.Runtime.Handles

/-!
# The execution contexts of a request (`src/ngx_http_wasm_module.c` and the two filters)

A module context holds four execution contexts: `exec` for the phases, which is initialised again for
each of them, one for each of the two filters, and one for the log phase. A request has one module
context at a time, an internal redirect takes it away, and subrequests have their own; the memory of
all of them is that of the main request's pool, whose cleanup handlers run when the pool is
destroyed.

Only what is done to the execution contexts is followed here, with the branches that decide it:

* `get_or_create_ctx` and the way the filters create a context, with each allocation that may fail,
  and `init_request_exec`, which cleans up before it overwrites;
* the handlers of the phases, the resume handler, the two filters with the thread event of the body
  filter, and the log handler;
* `cleanup_ctx`, and `ngx_destroy_pool`, which calls it for the contexts that are registered.

Whether `prepare_request_body` lets a phase go on, and every answer of Wasmtime, come in with the
operations. Which configuration a request finds may change with every operation; `confs` gives each
of them an address. Operations come in any order, on any request: nothing is assumed of when nginx
calls which hook. The body, the buffers and the response are in `Request.Ctx`, `BodyFilter.Chain` and
`HeaderFilter.Handler`.

The names are those of the source without the prefix `ngx_http_wasm_`.
-/

namespace NgxWasm.Request.Contexts

open Lib
open NgxWasm.Runtime (Phase Machine RunInput initExecCtx cleanupExecCtx)

/-! ## Contexts -/

/-- What the hooks read of one `ngx_http_wasm_conf_t`. -/
structure WasmConf where
  set : Phase → Bool
  moduleLoaded : Phase → Bool
  fuelLimit : Nat
  timesliceFuel : Nat

/-- The address of a phase's configuration. -/
structure PhaseRef where
  wcf : Nat
  kind : Phase
  deriving Repr, DecidableEq

/-- The zeroed memory of an execution context. -/
def zeroExec : Machine := initExecCtx false false .content 0 0

/-- `ngx_http_wasm_ctx_t`, as far as its execution contexts go. -/
structure Ctx where
  exec : Machine := zeroExec
  /-- `exec.conf`. -/
  conf : Option PhaseRef := none
  headerFilterExec : Machine := zeroExec
  bodyFilterExec : Machine := zeroExec
  logExec : Machine := zeroExec
  execCompleted : Bool := false
  headerFilterExecSet : Bool := false
  bodyFilterExecSet : Bool := false
  logExecSet : Bool := false

/-- The pool of a request: its module contexts by their addresses, the contexts whose cleanup is
registered, and the context of each request, the main request being the first. -/
structure Pool where
  ctxs : List Ctx := []
  cleanups : List Nat := []
  slots : Nat → Option Nat := fun _ => none
  /-- The execution contexts that `init_exec_ctx` has overwritten, as they were then. -/
  overwritten : List Machine := []
  /-- The contexts for which `ngx_pool_cleanup_add` found no memory. -/
  unregistered : List Nat := []

/-- `r->main`'s own number. -/
def main : Nat := 0

/-- A change of one context, with what it overwrites. -/
def Pool.update (a : Nat) (g : Ctx → Ctx × List Machine) (p : Pool) : Pool :=
  match p.ctxs[a]? with
  | none => p
  | some ctx => { p with
      ctxs := p.ctxs.set a (g ctx).1
      overwritten := (g ctx).2 ++ p.overwritten }

/-- What the main configuration answers: `wmcf->runtime` is there, and its engine and its linker. -/
structure RuntimeEnv where
  set : Bool
  ready : Bool

/-- The allocations of a new context. -/
structure Alloc where
  pcallocOk : Bool
  cleanupAddOk : Bool

/-- The way `get_or_create_ctx` and the two filters create a context. -/
def createCtx (alloc : Alloc) (r : Nat) (p : Pool) : Option Nat × Pool :=
  if !alloc.pcallocOk then (none, p)
  else
    let a := p.ctxs.length
    let p := { p with ctxs := p.ctxs ++ [({} : Ctx)], slots := Function.update p.slots r (some a) }
    if !alloc.cleanupAddOk then (none, { p with unregistered := a :: p.unregistered })
    else (some a, { p with cleanups := a :: p.cleanups })

section Hooks

variable (confs : Nat → WasmConf) (rt : RuntimeEnv)

/-- `init_exec_ctx` for the phase `ref`, with the fuel its caller sets. -/
def initExec (ref : PhaseRef) (timesliceFuel : Nat) : Machine :=
  initExecCtx rt.ready ((confs ref.wcf).moduleLoaded ref.kind) ref.kind (confs ref.wcf).fuelLimit
    timesliceFuel

/-! ## The phases -/

/-- `init_request_exec`. -/
def initRequestExec (ref : PhaseRef) (ctx : Ctx) : Ctx × List Machine :=
  ({ ctx with
      exec := initExec confs rt ref (confs ref.wcf).timesliceFuel
      conf := some ref
      execCompleted := false },
    [cleanupExecCtx ctx.exec])

/-- The log phase's share in `get_or_create_ctx`. -/
def initLogExec (wcf : Nat) (ctx : Ctx) : Ctx × List Machine :=
  ({ ctx with logExec := initExec confs rt ⟨wcf, .log⟩ 0, logExecSet := true }, [ctx.logExec])

/-- The phases `init_request_exec` is called for. -/
def isRequestPhase : Phase → Bool
  | .rewrite | .serverRewrite | .content => true
  | _ => false

/-- `get_or_create_ctx` on a context that is there. -/
def reuseCtx (ref : PhaseRef) (ctx : Ctx) : Ctx × List Machine :=
  let log := if ref.kind = .log ∧ (confs ref.wcf).set .log ∧ !ctx.logExecSet then
    initLogExec confs rt ref.wcf ctx else (ctx, [])
  let ctx := log.1
  if ctx.execCompleted ∧ ctx.conf ≠ some ref ∧ isRequestPhase ref.kind ∧
      (confs ref.wcf).set ref.kind then
    ((initRequestExec confs rt ref ctx).1, (initRequestExec confs rt ref ctx).2 ++ log.2)
  else log

/-- `get_or_create_ctx`. -/
def getOrCreateCtx (alloc : Alloc) (r : Nat) (ref : PhaseRef) (p : Pool) : Option Nat × Pool :=
  match p.slots r with
  | some a => (some a, p.update a (reuseCtx confs rt ref))
  | none =>
    match createCtx alloc r p with
    | (none, p) => (none, p)
    | (some a, p) =>
      if isRequestPhase ref.kind ∧ (confs ref.wcf).set ref.kind then
        (some a, p.update a (initRequestExec confs rt ref))
      else if ref.kind = .log ∧ (confs ref.wcf).set .log then
        (some a, p.update a (initLogExec confs rt ref.wcf))
      else (none, p)

/-- `run_request`. -/
def runRequest (input : RunInput) (ctx : Ctx) : Ctx × List Machine :=
  let r := Runtime.run input ctx.exec
  ({ ctx with exec := r.2, execCompleted := ctx.execCompleted || r.1 = .ok }, [])

/-- `run_phase` once there is a context; `prepared` is whether `prepare_request_body` returns
`NGX_OK`. -/
def runBound (ref : PhaseRef) (prepared : Bool) (input : RunInput) (ctx : Ctx) :
    Ctx × List Machine :=
  if ctx.conf ≠ some ref then (ctx, [])
  else if ctx.execCompleted ∧ (ref.kind = .rewrite ∨ ref.kind = .serverRewrite) then (ctx, [])
  else if !prepared then (ctx, [])
  else runRequest input ctx

/-- `run_phase`. -/
def runPhase (alloc : Alloc) (r : Nat) (ref : PhaseRef) (prepared : Bool) (input : RunInput)
    (p : Pool) : Pool :=
  if !(confs ref.wcf).set ref.kind || !rt.set then p
  else
    match getOrCreateCtx confs rt alloc r ref p with
    | (none, p) => p
    | (some a, p) => p.update a (runBound ref prepared input)

/-- `resume_handler`; `bodyOk` is whether `request_body_status` is `NGX_OK`. -/
def resumeHandler (r : Nat) (bodyOk : Bool) (input : RunInput) (p : Pool) : Pool :=
  match p.slots r with
  | none => p
  | some a => if !bodyOk then p else p.update a (runRequest input)

/-! ## The filters -/

/-- The context of a request, created if there is none, as both filters ask for it. -/
def filterCtx (alloc : Alloc) (r : Nat) (p : Pool) : Option Nat × Pool :=
  match p.slots r with
  | some a => (some a, p)
  | none => createCtx alloc r p

/-- `header_filter_handler` once there is a context. -/
def runHeaderFilter (wcf : Nat) (input : RunInput) (ctx : Ctx) : Ctx × List Machine :=
  let ctx' := if !ctx.headerFilterExecSet then { ctx with
    headerFilterExec := initExec confs rt ⟨wcf, .headerFilter⟩ (confs wcf).timesliceFuel
    headerFilterExecSet := true } else ctx
  ({ ctx' with headerFilterExec := (Runtime.run input ctx'.headerFilterExec).2 },
    if !ctx.headerFilterExecSet then [ctx.headerFilterExec] else [])

/-- `header_filter_handler`. -/
def headerFilterHandler (alloc : Alloc) (r wcf : Nat) (input : RunInput) (p : Pool) : Pool :=
  if !rt.set || !(confs wcf).set .headerFilter then p
  else
    match filterCtx alloc r p with
    | (none, p) => p
    | (some a, p) => p.update a (runHeaderFilter confs rt wcf input)

/-- `body_filter_run_chunk`, with `body_filter_get_or_init_exec`. -/
def runChunk (wcf : Nat) (input : RunInput) (ctx : Ctx) : Rc × Ctx × List Machine :=
  let ctx' := if !ctx.bodyFilterExecSet then { ctx with
    bodyFilterExec := initExec confs rt ⟨wcf, .bodyFilter⟩ (confs wcf).timesliceFuel
    bodyFilterExecSet := true } else ctx
  let r := Runtime.run input ctx'.bodyFilterExec
  (r.1, { ctx' with bodyFilterExec := r.2 },
    if !ctx.bodyFilterExecSet then [ctx.bodyFilterExec] else [])

/-- The chunks of a chain, up to the first that fails. -/
def runChunks (wcf : Nat) : List RunInput → Ctx → Ctx × List Machine
  | [], ctx => (ctx, [])
  | input :: inputs, ctx =>
    let r := runChunk confs rt wcf input ctx
    if r.1 ≠ .ok then (r.2.1, r.2.2)
    else
      let rest := runChunks wcf inputs r.2.1
      (rest.1, rest.2 ++ r.2.2)

/-- `body_filter_handler`. -/
def bodyFilterHandler (alloc : Alloc) (r wcf : Nat) (headerOnly : Bool) (inputs : List RunInput)
    (p : Pool) : Pool :=
  if !rt.set || !(confs wcf).set .bodyFilter || headerOnly then p
  else
    match filterCtx alloc r p with
    | (none, p) => p
    | (some a, p) => p.update a (runChunks confs rt wcf inputs)

/-- `body_filter_thread_event_handler`: a part of a file has been read. -/
def bodyFilterThreadEvent (r wcf : Nat) (inputs : List RunInput) (p : Pool) : Pool :=
  match p.slots r with
  | none => p
  | some a => p.update a (runChunks confs rt wcf inputs)

/-! ## The log phase -/

/-- `log_handler` once there is a context. -/
def runLog (input : RunInput) (ctx : Ctx) : Ctx × List Machine :=
  if !ctx.logExecSet then (ctx, [])
  else ({ ctx with
    logExec := cleanupExecCtx (Runtime.run input ctx.logExec).2
    logExecSet := false }, [])

/-- `log_handler`, which leaves subrequests alone. -/
def logHandler (alloc : Alloc) (r wcf : Nat) (input : RunInput) (p : Pool) : Pool :=
  if r ≠ main then p
  else if !(confs wcf).set .log || !rt.set then p
  else
    match getOrCreateCtx confs rt alloc r ⟨wcf, .log⟩ p with
    | (none, p) => p
    | (some a, p) => p.update a (runLog input)

end Hooks

/-! ## A request -/

/-- What happens to a request and its subrequests. -/
inductive Op where
  | phase (rt : RuntimeEnv) (alloc : Alloc) (r wcf : Nat) (hook : Hook) (prepared : Bool)
      (input : RunInput)
  | resume (r : Nat) (bodyOk : Bool) (input : RunInput)
  | headerFilter (rt : RuntimeEnv) (alloc : Alloc) (r wcf : Nat) (input : RunInput)
  | bodyFilter (rt : RuntimeEnv) (alloc : Alloc) (r wcf : Nat) (headerOnly : Bool)
      (inputs : List RunInput)
  | threadEvent (rt : RuntimeEnv) (r wcf : Nat) (inputs : List RunInput)
  | log (rt : RuntimeEnv) (alloc : Alloc) (r wcf : Nat) (input : RunInput)
  /-- `ngx_http_internal_redirect` clears the contexts of all modules. -/
  | redirect (r : Nat)

/-- One of them. -/
def step (confs : Nat → WasmConf) (p : Pool) : Op → Pool
  | .phase rt alloc r wcf hook prepared input =>
    runPhase confs rt alloc r ⟨wcf, hook.phaseKind⟩ prepared input p
  | .resume r bodyOk input => resumeHandler r bodyOk input p
  | .headerFilter rt alloc r wcf input => headerFilterHandler confs rt alloc r wcf input p
  | .bodyFilter rt alloc r wcf headerOnly inputs =>
    bodyFilterHandler confs rt alloc r wcf headerOnly inputs p
  | .threadEvent rt r wcf inputs => bodyFilterThreadEvent confs rt r wcf inputs p
  | .log rt alloc r wcf input => logHandler confs rt alloc r wcf input p
  | .redirect r => { p with slots := Function.update p.slots r none }

/-- `cleanup_ctx`. -/
def cleanupCtx (ctx : Ctx) : Ctx × List Machine :=
  ({ ctx with
      exec := cleanupExecCtx ctx.exec
      headerFilterExec :=
        if ctx.headerFilterExecSet then cleanupExecCtx ctx.headerFilterExec else ctx.headerFilterExec
      bodyFilterExec :=
        if ctx.bodyFilterExecSet then cleanupExecCtx ctx.bodyFilterExec else ctx.bodyFilterExec },
    [])

/-- `ngx_destroy_pool`: the handlers run, the latest first. -/
def Pool.destroy (p : Pool) : Pool := p.cleanups.foldl (fun p a => p.update a cleanupCtx) p

end NgxWasm.Request.Contexts
