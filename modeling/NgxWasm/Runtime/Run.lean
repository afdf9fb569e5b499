import NgxWasm.Runtime.Exec

/-!
# `ngx_http_wasm_runtime_run`

The body of the source function in the order it is written: the checks and the store
(`prepareStore`), instantiation (`instantiateStage`), the lookup of the export (`funcStage`), the start
of the call (`callStart`) and its poll (`callPoll`). The two asynchronous stages share the way they
start a future (`startAsync`) and the way they give up when it is not complete (`pollIncomplete`);
they differ in their texts and in what they do with a completed future. After the poll of the call
come four tests (`callOutcome`), in the order of the source: a suspension, an error, a trap, the value.

`runUnlogged` is the function itself, `run` the same with its return on the trace, and `runStep` is a
caller that gives the request up after `NGX_ERROR`. `cleanupExecCtx` and `initExecCtx` are the
functions at both ends of a context's life.

What holds of a run is proved stage by stage: `instantiateStage_sat`, `callStart_sat` and
`callPoll_exit` say what has to be shown for each.
-/

namespace NgxWasm.Runtime

open Lib

/-- The three texts for a future that could not be created. -/
structure StartTexts where
  error : String
  trap : String
  null : String

/-- Wasmtime is asked for a future; the outputs of a failure are logged and deleted at once, so
they stay as `prepare_async_op` cleared them. -/
def askFuture (kind : FutureKind) (texts : StartTexts) (a : Attempt) (f : Frame) : Piece Frame Rc :=
  let f := (f.emit (.start kind (f.resume.store.map Store.id) f.ctx.fuelRemaining f.storeFuel)).burn
    a.startBurn
  match a.start with
  | .future =>
    .next { f with
      resume := { f.resume with future := some f.nextId }
      nextId := f.nextId + 1
      trace := .futureNew f.nextId :: f.trace }
  | .error => .ret .error (clearAsyncFuture (f.setError.emit (.log texts.error)))
  | .trap _ => .ret .error (clearAsyncFuture (f.setError.emit (.log texts.trap)))
  | .null => .ret .error (clearAsyncFuture (f.setError.emit (.log texts.null)))

/-- Starting a future of `kind`: the interval, the consistency checks, then Wasmtime. -/
def startAsync (kind : FutureKind) (texts : StartTexts) (a : Attempt) (f : Frame) : Piece Frame Rc :=
  ((prepareAsyncYield a.yieldOk f).onRet Frame.setError).andThen fun f =>
  (prepareAsyncOp kind f).andThen (askFuture kind texts a)

/-- The branch `if (!complete)`. -/
def pollIncomplete (fuelReadOk : Bool) (fuelText terminalText reason : String) (f : Frame) :
    Rc × Frame :=
  ((updateFuel fuelReadOk fuelText f).onRet Frame.setError).finish fun f =>
    if f.ctx.fuelRemaining = 0 then (.error, f.setError.emit (.log terminalText))
    else suspend .reschedule reason f

/-- A completed future is deleted, and the fuel read. -/
def pollComplete (fuelReadOk : Bool) (fuelText : String) (f : Frame) : Piece Frame Rc :=
  (updateFuel fuelReadOk fuelText (clearAsyncFuture f)).onRet Frame.setError

def instantiateTexts : StartTexts where
  error := "failed to start async instantiation"
  trap := "module start trap"
  null := "ngx_wasm: failed to create instantiation future"

/-- `if (!resume->instance_ready) { … }`. -/
def instantiateStage (a : Attempt) (f : Frame) : Piece Frame Rc :=
  if f.resume.instanceReady then .next f
  else
    (if f.resume.future.isNone then startAsync .instantiate instantiateTexts a f
      else .next f).andThen fun f =>
    let f := pollFuture a.poll f
    if a.poll.outcome.isNone then
      .ofReturn <| pollIncomplete a.poll.fuelReadOk
        "failed to read remaining fuel after async instantiate yield"
        "ngx_wasm: terminal guest interruption during instantiation"
        "timeslice fuel yield during instantiate" f
    else
      (pollComplete a.poll.fuelReadOk "failed to read remaining fuel after async instantiation"
        f).andThen fun f =>
      if f.resume.error then
        { f with resume := { f.resume with error := false } }.fail "failed to instantiate module"
      else if f.resume.trap.isSome then
        { f with resume := { f.resume with trap := none } }.fail "module start trap"
      else .next { f with resume := { f.resume with instanceReady := true } }

/-- `if (!resume->func_ready) { … }`. -/
def funcStage (exportFound : Bool) (f : Frame) : Piece Frame Rc :=
  if f.resume.funcReady then .next f
  else if !exportFound then f.fail "ngx_wasm: export not found or not a function"
  else .next { f with resume := { f.resume with funcReady := true } }

def callTexts : StartTexts where
  error := "failed to start async guest call"
  trap := "guest trapped before execution"
  null := "ngx_wasm: failed to create guest call future"

/-- `if (resume->future == NULL) { … }`. -/
def callStart (a : Attempt) (f : Frame) : Piece Frame Rc :=
  if f.resume.future.isNone then startAsync .call callTexts a f else .next f

/-- The outcome of a completed call: the four tests in the order of the source. -/
def callOutcome (f : Frame) : Rc × Frame :=
  if f.resume.error then
    (.error, { f with resume := { f.resume with error := false } }.setError.emit
      (.log "guest call failed"))
  else if f.ctx.yielded then
    suspend (if f.ctx.suspendKind = .none then .reschedule else f.ctx.suspendKind)
      (if f.ctx.suspendKind = .waitIo then "waiting for host I/O" else "manual yield") f
  else
    match f.resume.trap with
    | some t =>
      (.error, { f with resume := { f.resume with trap := none } }.setError.emit
        (.log (if t = Trap.outOfFuel ∨ t = Trap.interrupt then "ngx_wasm: terminal guest interruption"
          else "guest trapped")))
    | none =>
      if f.resume.result ≠ .i32 0 then
        (.error, f.setError.emit (.log "ngx_wasm: guest export returned a non-zero value"))
      else (.ok, { f with ctx := { f.ctx with state := .done } })

/-- The poll of the call, to the end of the function. -/
def callPoll (p : Poll) (f : Frame) : Rc × Frame :=
  let f := pollFuture p f
  if p.outcome.isNone then
    pollIncomplete p.fuelReadOk "failed to read remaining fuel after async call yield"
      "ngx_wasm: terminal guest interruption" "timeslice fuel yield" f
  else
    (pollComplete p.fuelReadOk "failed to read remaining fuel after async call" f).finish callOutcome

/-! ## The rules of the stages -/

section Rules

variable {post : Frame → Prop} {exit : Rc → Frame → Prop} {a : Attempt} {f : Frame}

/-- A future is started where there is none. -/
theorem start_sat {kind : FutureKind} {texts : StartTexts} (hheld : f.resume.future ≠ none → post f)
    (hstart : f.resume.future = none → (startAsync kind texts a f).Sat post exit) :
    (if f.resume.future.isNone then startAsync kind texts a f else .next f).Sat post exit := by
  split
  · rename_i hnone
    exact hstart (Option.isNone_iff_eq_none.mp hnone)
  · rename_i hsome
    exact hheld fun hnone => hsome (Option.isNone_iff_eq_none.mpr hnone)

/-- **The instantiation**: `started` holds before the poll, and `completed` once its future is
deleted. -/
theorem instantiateStage_sat (started completed : Frame → Prop)
    (hready : f.resume.instanceReady = true → post f)
    (hstart : f.resume.instanceReady = false →
      (if f.resume.future.isNone then startAsync .instantiate instantiateTexts a f
        else .next f).Sat started exit)
    (hincomplete : ∀ f₁, started f₁ → a.poll.outcome = none →
      (Piece.ofReturn (pollIncomplete a.poll.fuelReadOk
        "failed to read remaining fuel after async instantiate yield"
        "ngx_wasm: terminal guest interruption during instantiation"
        "timeslice fuel yield during instantiate" (pollFuture a.poll f₁))).Sat post exit)
    (hcomplete : ∀ f₁, started f₁ → a.poll.outcome ≠ none →
      (pollComplete a.poll.fuelReadOk "failed to read remaining fuel after async instantiation"
        (pollFuture a.poll f₁)).Sat completed exit)
    (herror : ∀ f₃, completed f₃ → f₃.resume.error = true →
      ({ f₃ with resume := { f₃.resume with error := false } }.fail
        "failed to instantiate module").Sat post exit)
    (htrap : ∀ f₃, completed f₃ → f₃.resume.trap.isSome = true →
      ({ f₃ with resume := { f₃.resume with trap := none } }.fail "module start trap").Sat post exit)
    (hdone : ∀ f₃, completed f₃ →
      post { f₃ with resume := { f₃.resume with instanceReady := true } }) :
    (instantiateStage a f).Sat post exit := by
  unfold instantiateStage
  by_cases hinstance : f.resume.instanceReady = true
  · rw [if_pos hinstance]
    exact hready hinstance
  rw [if_neg hinstance]
  refine (hstart (Bool.eq_false_iff.mpr hinstance)).andThen fun f₁ h₁ => ?_
  dsimp only
  split
  · rename_i hout
    exact hincomplete f₁ h₁ (Option.isNone_iff_eq_none.mp hout)
  · rename_i hout
    refine (hcomplete f₁ h₁ fun hnone => hout (Option.isNone_iff_eq_none.mpr hnone)).andThen
      fun f₃ h₃ => ?_
    split
    · rename_i hfailed
      exact herror f₃ h₃ hfailed
    · split
      · rename_i htrapped
        exact htrap f₃ h₃ htrapped
      · exact hdone f₃ h₃

theorem callStart_sat (hheld : f.resume.future ≠ none → post f)
    (hstart : f.resume.future = none → (startAsync .call callTexts a f).Sat post exit) :
    (callStart a f).Sat post exit := start_sat hheld hstart

/-- **The poll of the call**: `completed` holds once its future is deleted. -/
theorem callPoll_exit (exit : Rc → Frame → Prop) (completed : Frame → Prop) {p : Poll}
    (hincomplete : p.outcome = none →
      (Piece.ofReturn (pollIncomplete p.fuelReadOk "failed to read remaining fuel after async call yield"
        "ngx_wasm: terminal guest interruption" "timeslice fuel yield" (pollFuture p f))).Sat
        completed exit)
    (hcomplete : p.outcome ≠ none →
      (pollComplete p.fuelReadOk "failed to read remaining fuel after async call"
        (pollFuture p f)).Sat completed exit)
    (hout : ∀ f₁, completed f₁ → exit (callOutcome f₁).1 (callOutcome f₁).2) :
    exit (callPoll p f).1 (callPoll p f).2 := by
  unfold callPoll
  dsimp only
  split
  · rename_i hnone
    exact hincomplete (Option.isNone_iff_eq_none.mp hnone)
  · rename_i hsome
    exact (hcomplete fun hnone => hsome (Option.isNone_iff_eq_none.mpr hnone)).finish hout

end Rules

/-! ## A run -/

/-- The function from `begin_run` on. -/
def runBody (env : RunInput) (f : Frame) : Rc × Frame :=
  ((instantiateStage env.instantiate (beginRun f)).andThen fun f =>
    (funcStage env.exportFound f).andThen (callStart env.call)).finish (callPoll env.call.poll)

/-- The store, created and given its fuel if there was none. -/
def prepareStore (storeNewOk setFuelOk : Bool) (f : Frame) : Piece Frame Rc :=
  match f.resume.store with
  | some _ => .next f
  | none =>
    if !storeNewOk then f.fail "ngx_wasm: failed to create Wasmtime store"
    else
      let f : Frame := { f with
        resume := { f.resume with store := some ⟨f.nextId, 0⟩ }
        nextId := f.nextId + 1
        trace := .storeNew f.nextId :: f.trace }
      if f.ctx.fuelLimit = 0 then .next f
      else if !setFuelOk then f.fail "failed to set fuel"
      else
        .next { f with
          resume := { f.resume with
            store := f.resume.store.map fun s => { s with fuel := f.ctx.fuelLimit } }
          trace := .setFuel f.ctx.fuelLimit :: f.trace }

/-- The checks and the allocation of the resume state, then the rest on the frame. -/
def runUnlogged (env : RunInput) (m : Machine) : Rc × Machine :=
  let failed (text : List Event) : Rc × Machine :=
    (.error, { m with ctx := { m.ctx with state := .error }, trace := text ++ m.trace })
  if !m.ctx.runtimeReady then failed [.log "ngx_wasm: runtime not initialized"]
  else if !m.ctx.moduleLoaded then failed [.log "ngx_wasm: module not preloaded"]
  else if m.resumeState.isNone && !env.pcallocOk then failed []
  else
    let f : Frame := ⟨m.ctx, m.resumeState.getD {}, m.nextId, m.trace⟩
    let r := (prepareStore env.storeNewOk env.setFuelOk f).finish (runBody env)
    (r.1, r.2.toMachine)

/-- `ngx_http_wasm_runtime_run`, with its return on record. -/
def run (env : RunInput) (m : Machine) : Rc × Machine :=
  let r := runUnlogged env m
  (r.1, { r.2 with trace := .ret r.1 r.2.ctx.state r.2.ctx.suspendKind :: r.2.trace })

/-- Some run has returned `NGX_ERROR`; the callers give the request up then. -/
def failed (t : List Event) : Bool :=
  t.any fun e => match e with
    | .ret .error _ _ => true
    | _ => false

/-- One more run, unless one has failed. -/
def runStep (m : Machine) (env : RunInput) : Machine :=
  if failed m.trace then m else (run env m).2

/-- `cleanup_exec_ctx`. -/
def cleanupExecCtx (m : Machine) : Machine :=
  match m.resumeState with
  | none => m
  | some r =>
    let f := resetResumeState ⟨m.ctx, r, m.nextId, m.trace⟩
    ⟨f.ctx, none, f.nextId, f.trace⟩

/-- `init_exec_ctx`, then the fuel as `ngx_http_wasm_init_request_exec` and the other callers
set it. -/
def initExecCtx (runtimeReady moduleLoaded : Bool) (phaseKind : Phase)
    (fuelLimit timesliceFuel : Nat) : Machine where
  ctx := {
    runtimeReady := runtimeReady
    moduleLoaded := moduleLoaded
    phaseKind := phaseKind
    fuelLimit := fuelLimit
    timesliceFuel := timesliceFuel
    fuelRemaining := fuelLimit }
  resumeState := none
  nextId := 0
  trace := []

/-- Nothing fails, the module needs no start function, and the guest goes as `poll` says. -/
def smoothRun (poll : Poll) : RunInput where
  pcallocOk := true
  storeNewOk := true
  setFuelOk := true
  instantiate := ⟨true, .future, 1, ⟨[], 1, some (.value (.i32 0)), true⟩⟩
  exportFound := true
  call := ⟨true, .future, 1, poll⟩

end NgxWasm.Runtime
