import NgxWasm.Lib.Piece
import NgxWasm.Nginx

/-!
# The execution context of a guest (`src/ngx_http_wasm_runtime.c`)

One execution context belongs to one hook of one request. It owns at most one Wasmtime store and
at most one future, and it outlives every call of `ngx_http_wasm_runtime_run`: a call that cannot
finish leaves the future for the next one.

## Wasmtime

Wasmtime is not part of this repository. What it does comes in as the inputs of the run: whether a
store can be made and given its fuel, what asking for a future gives (`Start`), and for each poll the
imports that the guest calls, the fuel it burns and the outcome (`Poll`). Nothing is assumed of these
answers here. Where a result needs more (a poll burns something, a guest stops at its yield interval),
its module says so.

Each call the code makes to Wasmtime, each import of the guest that takes effect and each return of
the run is recorded in `trace`, newest event first. A handle is a number that is given out once.

## The functions

A `Machine` is a context between two calls, a `Frame` the same while a run works on its resume
state. A function that may end the run is a `Piece`: it returns early, or goes on with a frame. The
names are those of the source without the prefix `ngx_http_wasm_runtime_`; the run itself is in
`Runtime.Run`.

Of the imports only the two that suspend the run are told apart (`HostCall`): what the others do to
the request, the store or the metrics leaves the execution context alone, and is in `Abi`. The
pointers of a context to its request, connection and configuration, and the numbers in log lines,
are left out.
-/

namespace NgxWasm.Runtime

/-- `ngx_http_wasm_phase_e`. -/
inductive Phase where
  | content
  | rewrite
  | serverRewrite
  | balancer
  | headerFilter
  | bodyFilter
  | log
  | sslClientHello
  | sslCertificate
  deriving Repr, DecidableEq

/-- The capabilities that the imports of this model ask for: `NGX_HTTP_WASM_ABI_CAP_YIELD` and
`NGX_HTTP_WASM_ABI_CAP_SUBREQUEST`. -/
inductive Capability where
  | yield
  | subrequest
  deriving Repr, DecidableEq

/-- The two capabilities in the set `ngx_http_wasm_runtime_init_exec_ctx` gives a phase. -/
def capabilities : Phase → List Capability
  | .content | .rewrite | .serverRewrite => [.yield, .subrequest]
  | .balancer | .headerFilter | .bodyFilter | .log | .sslClientHello | .sslCertificate => []

/-- `ngx_http_wasm_exec_state_e`. -/
inductive ExecState where
  | ready
  | running
  | suspended
  | done
  | error
  deriving Repr, DecidableEq

/-- `ngx_http_wasm_suspend_kind_e`. -/
inductive SuspendKind where
  | none
  | reschedule
  | waitIo
  deriving Repr, DecidableEq

/-- `future_kind`. -/
inductive FutureKind where
  | none
  | instantiate
  | call
  deriving Repr, DecidableEq

/-- A `wasm_trap_t`, by its code. -/
inductive Trap where
  | outOfFuel
  | interrupt
  | other
  deriving Repr, DecidableEq

/-- A `wasmtime_val_t`: an `i32`, or a value of another kind. -/
inductive Val where
  | i32 (v : Int)
  | other
  deriving Repr, DecidableEq

/-- A `wasmtime_store_t`, with the fuel its context counts. -/
structure Store where
  id : Nat
  fuel : Nat
  deriving Repr, DecidableEq

/-- `ngx_http_wasm_resume_state_s`. The instance and function handles are only ever copied. -/
structure Resume where
  futureKind : FutureKind := .none
  store : Option Store := none
  future : Option Nat := none
  result : Val := .i32 0
  trap : Option Trap := none
  error : Bool := false
  instanceReady : Bool := false
  funcReady : Bool := false
  deriving Repr, DecidableEq

/-- The fuel in the store. -/
def Resume.storeFuel (r : Resume) : Nat := (r.store.map Store.fuel).getD 0

/-- Execution in the store burns fuel. -/
def Resume.burn (n : Nat) (r : Resume) : Resume :=
  { r with store := r.store.map fun s => { s with fuel := s.fuel - n } }

/-- `ngx_http_wasm_exec_ctx_t`, without `resume_state`. -/
structure ExecCtx where
  /-- The runtime, its engine and its linker are there. -/
  runtimeReady : Bool
  /-- The module of the hook is loaded. -/
  moduleLoaded : Bool
  phaseKind : Phase
  fuelLimit : Nat
  timesliceFuel : Nat
  fuelRemaining : Nat
  state : ExecState := .ready
  suspendKind : SuspendKind := .none
  yielded : Bool := false
  deriving Repr, DecidableEq

/-! ## What Wasmtime does -/

/-- What a completed future gives: a result, a trap or an error. -/
inductive Outcome where
  | value (v : Val)
  | trap (t : Trap)
  | error
  deriving Repr, DecidableEq

/-- An import the guest calls: `ngx_wasm_yield`, `ngx_wasm_subreq` with what
`ngx_http_wasm_abi_subrequest` makes of it, or one that leaves the execution context alone. -/
inductive HostCall where
  | yield
  | subreq (rc : Int)
  | other
  deriving Repr, DecidableEq

/-- One `wasmtime_call_future_poll`: the imports called, the fuel burned, the outcome if the
future completed, and whether reading the fuel afterwards succeeds. -/
structure Poll where
  calls : List HostCall
  burn : Nat
  outcome : Option Outcome
  fuelReadOk : Bool
  deriving Repr

/-- What `wasmtime_linker_instantiate_async` and `wasmtime_func_call_async` return: a future, or
`NULL` with an error, with a trap or with neither. -/
inductive Start where
  | future
  | error
  | trap (t : Trap)
  | null
  deriving Repr, DecidableEq

/-- The answers to one stage: whether the yield interval can be set, what starting gives and
burns, and the poll. -/
structure Attempt where
  yieldOk : Bool
  start : Start
  startBurn : Nat
  poll : Poll
  deriving Repr

/-- The answers to one `ngx_http_wasm_runtime_run`. -/
structure RunInput where
  pcallocOk : Bool
  storeNewOk : Bool
  setFuelOk : Bool
  instantiate : Attempt
  exportFound : Bool
  call : Attempt
  deriving Repr

/-- What happens in a run. -/
inductive Event where
  | storeNew (id : Nat)
  | storeDelete (id : Nat)
  | setFuel (fuel : Nat)
  | yieldInterval (fuel : Nat)
  /-- A future is asked for, in this store, with this `fuel_remaining` while the store has
  `storeFuel`. -/
  | start (kind : FutureKind) (store : Option Nat) (fuelRemaining storeFuel : Nat)
  | futureNew (id : Nat)
  | futureDelete (id : Nat)
  | burn (fuel : Nat)
  /-- `ngx_wasm_yield` took effect. -/
  | yield
  /-- `ngx_wasm_subreq` returned 0. -/
  | subreq
  | log (text : String)
  | ret (rc : Rc) (state : ExecState) (suspendKind : SuspendKind)
  deriving Repr, DecidableEq

/-- How many subrequests have been launched. -/
def launches : List Event → Nat
  | [] => 0
  | .subreq :: t => launches t + 1
  | _ :: t => launches t

/-- An execution context between two calls. -/
structure Machine where
  ctx : ExecCtx
  resumeState : Option Resume
  nextId : Nat
  trace : List Event
  deriving Repr, DecidableEq

/-- The same while a run works on `resume`, which `ctx->resume_state` points to. -/
structure Frame where
  ctx : ExecCtx
  resume : Resume
  nextId : Nat
  trace : List Event
  deriving Repr, DecidableEq

def Frame.toMachine (f : Frame) : Machine := ⟨f.ctx, some f.resume, f.nextId, f.trace⟩

/-! ## The small functions -/

namespace Frame

def emit (e : Event) (f : Frame) : Frame := { f with trace := e :: f.trace }

/-- `ctx->state = NGX_HTTP_WASM_EXEC_ERROR`. -/
def setError (f : Frame) : Frame := { f with ctx := { f.ctx with state := .error } }

/-- The state is set, the text logged, and the run returns `NGX_ERROR`. -/
def fail (text : String) (f : Frame) : Lib.Piece Frame Rc :=
  .ret .error (f.setError.emit (.log text))

/-- The fuel in the store. -/
def storeFuel (f : Frame) : Nat := f.resume.storeFuel

/-- Execution burns fuel, down to zero at most. -/
def burn (n : Nat) (f : Frame) : Frame :=
  { f with resume := f.resume.burn n, trace := .burn (min n f.storeFuel) :: f.trace }

end Frame

/-- `update_fuel`. -/
def updateFuel (readOk : Bool) (phase : String) (f : Frame) : Lib.Piece Frame Rc :=
  if !readOk then .ret .error (f.emit (.log phase))
  else .next { f with ctx := { f.ctx with fuelRemaining := f.storeFuel } }

/-- `begin_run`. -/
def beginRun (f : Frame) : Frame :=
  { f with ctx := { f.ctx with state := .running, suspendKind := .none, yielded := false } }

/-- `suspend`. -/
def suspend (kind : SuspendKind) (reason : String) (f : Frame) : Rc × Frame :=
  (.again,
    { f with ctx := { f.ctx with state := .suspended, suspendKind := kind } }.emit (.log reason))

/-- `clear_async_future`. -/
def clearAsyncFuture (f : Frame) : Frame :=
  { f with
    resume := { f.resume with future := none, futureKind := .none }
    trace := match f.resume.future with
      | some id => .futureDelete id :: f.trace
      | none => f.trace }

/-- `clear_async_outputs`. -/
def clearAsyncOutputs (f : Frame) : Frame :=
  { f with resume := { f.resume with trap := none, error := false, result := .i32 0 } }

/-- `reset_resume_state`. -/
def resetResumeState (f : Frame) : Frame :=
  let f := clearAsyncOutputs (clearAsyncFuture f)
  { f with
    resume := { f.resume with store := none, instanceReady := false, funcReady := false }
    trace := match f.resume.store with
      | some s => .storeDelete s.id :: f.trace
      | none => f.trace }

/-- The text of the first consistency check of `prepare_async_op`. -/
def inconsistentFuture : String := "ngx_wasm: inconsistent async future state"

/-- The text of the second. -/
def futureStillAlive : String :=
  "ngx_wasm: attempted to start async work while another future is still alive"

/-- `prepare_async_op`. -/
def prepareAsyncOp (kind : FutureKind) (f : Frame) : Lib.Piece Frame Rc :=
  if f.resume.future.isNone != (f.resume.futureKind == .none) then f.fail inconsistentFuture
  else if f.resume.future.isSome then f.fail futureStillAlive
  else
    let f := clearAsyncOutputs f
    .next { f with resume := { f.resume with futureKind := kind } }

/-- The interval of `prepare_async_yield`: a timeslice, or all the fuel that is left. -/
def yieldInterval (ctx : ExecCtx) : Nat :=
  if ctx.timesliceFuel > 0 ∧ ctx.timesliceFuel < ctx.fuelRemaining then ctx.timesliceFuel
  else ctx.fuelRemaining

/-- `prepare_async_yield`. -/
def prepareAsyncYield (intervalOk : Bool) (f : Frame) : Lib.Piece Frame Rc :=
  if f.ctx.fuelRemaining = 0 then .ret .error f
  else if !intervalOk then
    .ret .error (f.emit (.log "failed to configure async fuel yield interval"))
  else .next (f.emit (.yieldInterval (yieldInterval f.ctx)))

/-- `ngx_http_wasm_host_yield`, `ngx_http_wasm_host_subreq` and the other imports. Without the
capability the first two trap. -/
def hostCall (f : Frame) : HostCall → Frame
  | .yield =>
    if .yield ∈ capabilities f.ctx.phaseKind then
      { f with ctx := { f.ctx with yielded := true } }.emit .yield
    else f
  | .subreq rc =>
    if .subrequest ∈ capabilities f.ctx.phaseKind ∧ rc = wasmOk then
      { f with ctx := { f.ctx with yielded := true, suspendKind := .waitIo } }.emit .subreq
    else f
  | .other => f

/-- What a completed future leaves in the storage it was given; one that is not complete leaves
it alone. -/
def Resume.complete (r : Resume) : Option Outcome → Resume
  | none => r
  | some (.value v) => if r.futureKind = .call then { r with result := v } else r
  | some (.trap t) => { r with trap := some t }
  | some .error => { r with error := true }

/-- `wasmtime_call_future_poll` on the live future. -/
def pollFuture (p : Poll) (f : Frame) : Frame :=
  let f := (p.calls.foldl hostCall f).burn p.burn
  { f with resume := f.resume.complete p.outcome }

/-! ## What they leave alone -/

section Fields

variable (r : Resume) (n : Nat) (o : Option Outcome)

@[simp] theorem Resume.burn_futureKind : (r.burn n).futureKind = r.futureKind := rfl

@[simp] theorem Resume.burn_store_id :
    (r.burn n).store.map Store.id = r.store.map Store.id := by
  unfold Resume.burn
  cases r.store <;> rfl

@[simp] theorem Resume.burn_storeFuel : (r.burn n).storeFuel = r.storeFuel - n := by
  unfold Resume.burn Resume.storeFuel
  cases r.store with
  | none => simp
  | some s => rfl

/-- A poll writes the outputs and nothing else. -/
theorem Resume.complete_eq : ∃ result trap error,
    r.complete o = { r with result := result, trap := trap, error := error } := by
  unfold Resume.complete
  split
  · exact ⟨_, _, _, rfl⟩
  · split <;> exact ⟨_, _, _, rfl⟩
  · exact ⟨_, _, _, rfl⟩
  · exact ⟨_, _, _, rfl⟩

theorem hostCall_resume (f : Frame) (c : HostCall) : (hostCall f c).resume = f.resume := by
  cases c with
  | yield => simp only [hostCall]; split <;> rfl
  | subreq rc => simp only [hostCall]; split <;> rfl
  | other => rfl

@[simp] theorem hostCalls_resume (f : Frame) (cs : List HostCall) :
    (cs.foldl hostCall f).resume = f.resume := by
  induction cs generalizing f with
  | nil => rfl
  | cons c cs ih => rw [List.foldl_cons, ih, hostCall_resume]

/-- After a poll the resume state differs in the fuel of its store and in the outputs. -/
theorem pollFuture_resume (p : Poll) (f : Frame) : ∃ result trap error,
    (pollFuture p f).resume =
      { f.resume.burn p.burn with result := result, trap := trap, error := error } := by
  have hr : ((p.calls.foldl hostCall f).burn p.burn).resume = f.resume.burn p.burn :=
    congrArg (Resume.burn p.burn) (hostCalls_resume f p.calls)
  obtain ⟨result, trap, error, h⟩ := (f.resume.burn p.burn).complete_eq p.outcome
  exact ⟨result, trap, error, by rw [← h, ← hr]; rfl⟩

end Fields

end NgxWasm.Runtime
