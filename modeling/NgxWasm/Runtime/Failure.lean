import NgxWasm.Runtime.Futures
import NgxWasm.Runtime.Suspension

/-!
# A call that fails

`callFrame env m` is the frame in which a run polls its call, if it comes to that. In it the live
future is the call's (`Futures`), and no error is left over (`NoError`), so an outcome that comes in
now is what the tests after the poll find. They test `yielded` before the trap and the result.

* `callOutcome_fails_iff`: the order of the four tests.
* `callPoll_fails_iff`: a trap, or a result other than the `i32` 0, fails the run exactly if the
  guest has not asked for a suspension in it.
* `callStep_noError`: a run leaves no error behind a live future, so none of an earlier run is found.
* `run_fails_iff`: the same as `callPoll_fails_iff` for any run after any sequence of runs and
  cleanups.

Asking for a suspension includes what the guest did in the same run while its instance was made
(`AsksNothing`). A fuel counter that cannot be read after the poll fails the run in any case.

What the poll of the call gets is any trap, and any result but the `i32` 0. Nothing is assumed of the
other answers of Wasmtime in the same run, nor of those in the runs before.
-/

namespace NgxWasm.Runtime

open Lib

/-- A trap, or a result other than the `i32` 0. -/
def Outcome.Unsuccessful : Outcome → Prop
  | .trap _ => True
  | .value v => v ≠ .i32 0
  | .error => False

/-! ## The poll of the call -/

/-- What a trap or a result leaves in the resume state of a call. -/
theorem Resume.complete_unsuccessful {r : Resume} {o : Outcome} (ho : o.Unsuccessful)
    (hkind : r.futureKind = .call) (herr : r.error = false) :
    (r.complete (some o)).error = false ∧
      ((r.complete (some o)).trap = none → (r.complete (some o)).result ≠ .i32 0) := by
  cases o with
  | trap t => exact ⟨herr, nofun⟩
  | value v =>
    simp only [Resume.complete, hkind, if_true]
    exact ⟨herr, fun _ => ho⟩
  | error => exact absurd ho id

theorem pollFuture_complete (p : Poll) (f : Frame) :
    (pollFuture p f).resume = (f.resume.burn p.burn).complete p.outcome :=
  congrArg (fun r : Resume => (r.burn p.burn).complete p.outcome) (hostCalls_resume f p.calls)

/-- **The order of the tests**: a suspension is reported before a trap or a result is looked at. -/
theorem callOutcome_fails_iff {f : Frame} (herr : f.resume.error = false)
    (hbad : f.resume.trap = none → f.resume.result ≠ .i32 0) :
    ((callOutcome f).1 = .error ∧ (callOutcome f).2.ctx.state = .error) ↔ f.ctx.yielded = false := by
  unfold callOutcome
  rw [if_neg (by simp [herr])]
  by_cases hy : f.ctx.yielded = true
  · rw [if_pos hy, hy]
    exact ⟨fun h => absurd h.1 nofun, nofun⟩
  · rw [if_neg hy]
    refine ⟨fun _ => Bool.eq_false_iff.mpr hy, fun _ => ?_⟩
    cases ht : f.resume.trap with
    | some t => exact ⟨rfl, rfl⟩
    | none =>
      dsimp only
      rw [if_pos (hbad ht)]
      exact ⟨rfl, rfl⟩

theorem callPoll_fails_iff {p : Poll} {f : Frame} {o : Outcome} (hout : p.outcome = some o)
    (ho : o.Unsuccessful) (hkind : f.resume.futureKind = .call) (herr : f.resume.error = false) :
    ((callPoll p f).1 = .error ∧ (callPoll p f).2.ctx.state = .error) ↔
      p.fuelReadOk = false ∨
        (f.ctx.yielded || p.calls.any (HostCall.suspends f.ctx.phaseKind)) = false := by
  have hresume := pollFuture_complete p f
  obtain ⟨herr', hbad⟩ :=
    Resume.complete_unsuccessful (r := f.resume.burn p.burn) ho hkind herr
  rw [← hout, ← hresume] at herr' hbad
  have hcomplete : (pollComplete p.fuelReadOk "failed to read remaining fuel after async call"
      (pollFuture p f)).Sat _ _ := quiet_pollComplete (pollFuture p f)
  unfold callPoll
  simp only [hout, Option.isNone_some, Bool.false_eq_true, if_false]
  cases hx : pollComplete p.fuelReadOk "failed to read remaining fuel after async call"
      (pollFuture p f) with
  | ret rc f₁ =>
    rw [hx] at hcomplete
    obtain ⟨hread, hgives⟩ := hcomplete
    constructor
    · intro _
      exact Or.inl hread
    · intro _
      exact ⟨hgives.rc_eq, hgives.state⟩
  | next f₁ =>
    rw [hx] at hcomplete
    obtain ⟨hread, hquiet, hres⟩ := hcomplete
    have hyielded := ((called_pollFuture p f).quiet hquiet).yielded
    simp only [Piece.finish]
    rw [← hyielded, hread, callOutcome_fails_iff (by rw [hres]; exact herr')
      (by rw [hres]; exact hbad)]
    simp

/-! ## The frame of the call -/

/-- The stages of a run before the poll of the call. -/
def stages (env : RunInput) (f : Frame) : Piece Frame Rc :=
  (prepareStore env.storeNewOk env.setFuelOk f).andThen fun f =>
  (instantiateStage env.instantiate (beginRun f)).andThen fun f =>
  (funcStage env.exportFound f).andThen (callStart env.call)

theorem finish_stages (env : RunInput) (f : Frame) :
    (prepareStore env.storeNewOk env.setFuelOk f).finish (runBody env) =
      (stages env f).finish (callPoll env.call.poll) := (Piece.finish_andThen _ _ _).symm

/-- The checks of a run let it come to its stages. -/
def admitted (env : RunInput) (m : Machine) : Bool :=
  m.ctx.runtimeReady && m.ctx.moduleLoaded && (m.resumeState.isSome || env.pcallocOk)

theorem runUnlogged_cases (env : RunInput) (m : Machine) :
    (admitted env m = true ∧ ∃ f, f = (⟨m.ctx, m.resumeState.getD {}, m.nextId, m.trace⟩ : Frame) ∧
      runUnlogged env m = (((stages env f).finish (callPoll env.call.poll)).1,
        ((stages env f).finish (callPoll env.call.poll)).2.toMachine)) ∨
    (admitted env m = false ∧ (runUnlogged env m).1 = .error ∧
      (runUnlogged env m).2.resumeState = m.resumeState) := by
  unfold runUnlogged admitted
  by_cases hready : m.ctx.runtimeReady = true
  · by_cases hloaded : m.ctx.moduleLoaded = true
    · by_cases halloc : (m.resumeState.isSome || env.pcallocOk) = true
      · left
        have hno : ¬ (m.resumeState.isNone && !env.pcallocOk) = true := by
          cases hs : m.resumeState <;> simp_all
        refine ⟨by simp [hready, hloaded, halloc], _, rfl, ?_⟩
        simp only [hready, hloaded, hno, finish_stages]
        simp
      · right
        have hyes : (m.resumeState.isNone && !env.pcallocOk) = true := by
          cases hs : m.resumeState <;> simp_all
        simp [hready, hloaded, halloc, hyes]
    · exact Or.inr (by simp [hready, hloaded])
  · exact Or.inr (by simp [hready])

/-- The frame in which a run polls its call, if it comes to that. -/
def callFrame (env : RunInput) (m : Machine) : Option Frame :=
  if admitted env m then
    match stages env ⟨m.ctx, m.resumeState.getD {}, m.nextId, m.trace⟩ with
    | .next f => some f
    | .ret .. => none
  else none

/-! ## No error is left over -/

/-- While a future is alive it has not failed. -/
def NoError (r : Resume) : Prop := r.future ≠ none → r.error = false

section NoError

variable {f : Frame}

theorem startAsync_noError {kind : FutureKind} {texts : StartTexts} {a : Attempt}
    (h : NoError f.resume) :
    (startAsync kind texts a f).Sat
      (fun f' => NoError f'.resume ∧ f'.resume.future ≠ none) (fun _ f' => NoError f'.resume) := by
  have hyield : ((prepareAsyncYield a.yieldOk f).onRet Frame.setError).Sat
      (fun f' => f'.resume = f.resume) (fun _ f' => NoError f'.resume) := by
    unfold prepareAsyncYield
    split
    · exact h
    · split
      · exact h
      · rfl
  unfold startAsync
  refine hyield.andThen fun f₁ h₁ => ?_
  have hop : (prepareAsyncOp kind f₁).Sat (fun f' => f'.resume.error = false)
      (fun _ f' => NoError f'.resume) := by
    have h₁' : NoError f₁.resume := h₁ ▸ h
    unfold prepareAsyncOp
    split
    · exact h₁'
    · split
      · exact h₁'
      · rfl
  refine hop.andThen fun f₂ h₂ => ?_
  unfold askFuture
  cases a.start with
  | future => exact ⟨fun _ => h₂, nofun⟩
  | error | trap | null => exact fun hsome => absurd rfl hsome

theorem pollIncomplete_noError (h : NoError f.resume) {readOk : Bool}
    {fuelText terminalText reason : String} :
    NoError (pollIncomplete readOk fuelText terminalText reason f).2.resume := by
  have hfuel : ((updateFuel readOk fuelText f).onRet Frame.setError).Sat
      (fun f' => NoError f'.resume) (fun _ f' => NoError f'.resume) := by
    unfold updateFuel
    split <;> exact h
  unfold pollIncomplete
  exact hfuel.finish fun f₁ h₁ => by split <;> exact h₁

theorem NoError.of_future {r : Resume} (h : r.future = none) : NoError r :=
  fun hsome => absurd h hsome

theorem pollComplete_future {readOk : Bool} {text : String} :
    (pollComplete readOk text f).Sat (fun f' => f'.resume.future = none)
      (fun _ f' => NoError f'.resume) := by
  unfold pollComplete updateFuel
  split
  · exact .of_future rfl
  · rfl

theorem pollFuture_noError {p : Poll} (h : NoError f.resume) (hout : p.outcome = none) :
    NoError (pollFuture p f).resume := by
  rw [pollFuture_complete, hout]
  exact h

theorem instantiateStage_noError {a : Attempt} (h : NoError f.resume) :
    (instantiateStage a f).Sat (fun f' => NoError f'.resume) (fun _ f' => NoError f'.resume) := by
  refine instantiateStage_sat (fun f' => NoError f'.resume) (fun f' => f'.resume.future = none)
    (fun _ => h) (fun _ => start_sat (fun _ => h) fun _ => ?_) (fun f₁ h₁ hout => ?_)
    (fun f₁ _ _ => pollComplete_future) (fun f₃ hnone _ => ?_) (fun f₃ hnone _ => ?_)
    fun f₃ hnone => .of_future hnone
  · exact (startAsync_noError h).mono (fun _ h' => h'.1) fun _ _ h' => h'
  · exact pollIncomplete_noError (pollFuture_noError h₁ hout)
  · exact .of_future hnone
  · exact .of_future hnone

theorem callStart_noError {a : Attempt} (h : NoError f.resume) :
    (callStart a f).Sat (fun f' => NoError f'.resume ∧ f'.resume.future ≠ none)
      (fun _ f' => NoError f'.resume) :=
  callStart_sat (fun hsome => ⟨h, hsome⟩) fun _ => startAsync_noError h

theorem callPoll_noError {p : Poll} (h : NoError f.resume) :
    NoError (callPoll p f).2.resume := by
  refine callPoll_exit (fun _ f' => NoError f'.resume) (fun f' => f'.resume.future = none)
    (fun hout => ?_) (fun _ => pollComplete_future) fun f₁ hnone => ?_
  · exact pollIncomplete_noError (pollFuture_noError h hout)
  · unfold callOutcome
    split
    · exact .of_future hnone
    · split
      · exact .of_future hnone
      · split
        · exact .of_future hnone
        · split <;> exact .of_future hnone

theorem prepareStore_noError {storeNewOk setFuelOk : Bool} (h : NoError f.resume) :
    (prepareStore storeNewOk setFuelOk f).Sat (fun f' => NoError f'.resume)
      (fun _ f' => NoError f'.resume) := by
  refine (prepareStore_resume f storeNewOk setFuelOk).mono ?_ ?_
  · rintro f' ⟨_, hr⟩
    rw [hr]
    exact h
  · rintro _ f' ⟨_, hr⟩
    rw [hr]
    exact h

theorem stages_noError {env : RunInput} (h : NoError f.resume) :
    (stages env f).Sat (fun f' => NoError f'.resume ∧ f'.resume.future ≠ none)
      (fun _ f' => NoError f'.resume) := by
  unfold stages
  refine (prepareStore_noError h).andThen fun f₁ h₁ => ?_
  refine (instantiateStage_noError (f := beginRun f₁) h₁).andThen fun f₂ h₂ => ?_
  have hfunc : (funcStage env.exportFound f₂).Sat (fun f' => NoError f'.resume)
      (fun _ f' => NoError f'.resume) := by
    unfold funcStage
    split
    · exact h₂
    · split <;> exact h₂
  exact hfunc.andThen fun f₃ h₃ => callStart_noError h₃

/-- **A run leaves no error behind a live future**, and neither does a cleanup. -/
theorem callStep_noError {m : Machine} (h : NoError (m.resumeState.getD {})) (c : Call) :
    NoError ((callStep m c).resumeState.getD {}) := by
  cases c with
  | cleanup =>
    show NoError ((cleanupExecCtx m).resumeState.getD {})
    unfold cleanupExecCtx
    cases hr : m.resumeState with
    | none =>
      rw [hr] at h
      simp only [hr]
      exact h
    | some r => exact .of_future rfl
  | run env =>
    show NoError ((runUnlogged env m).2.resumeState.getD {})
    rcases runUnlogged_cases env m with ⟨-, f, rfl, hr⟩ | ⟨-, -, hr⟩
    · have hstages : (stages env ⟨m.ctx, m.resumeState.getD {}, m.nextId, m.trace⟩).Sat _ _ :=
        stages_noError h
      rw [hr]
      exact hstages.finish fun f' h' => callPoll_noError h'.1
    · rw [hr]
      exact h

end NoError

/-! ## Any run -/

/-- What holds in the frame of the call. -/
structure AtCall (env : RunInput) (m : Machine) (f : Frame) : Prop where
  phase : f.ctx.phaseKind = m.ctx.phaseKind
  yielded : f.ctx.yielded =
    (instantiateCalls (m.resumeState.getD {}) env).any (HostCall.suspends m.ctx.phaseKind)
  kind : f.resume.futureKind = .call
  error : f.resume.error = false

/-- The invariant of an execution context between two calls, with the outputs. -/
structure Machine.Sound (m : Machine) : Prop where
  futures : m.Ok
  noError : NoError (m.resumeState.getD {})

theorem runFrom_sound (runtimeReady moduleLoaded : Bool) (phaseKind : Phase)
    (fuelLimit timesliceFuel : Nat) (calls : List Call) :
    (runFrom callStep
      (initExecCtx runtimeReady moduleLoaded phaseKind fuelLimit timesliceFuel) calls).Sound := by
  refine run_invariant calls ⟨init_futures _ _ _ _ _, fun hsome => absurd rfl hsome⟩ ?_
  rintro m c ⟨hok, hno⟩
  exact ⟨callStep_futures hok c, callStep_noError hno c⟩

section Run

variable {env : RunInput} {f : Frame} {m : Machine}

theorem stages_futures (h : Ok f) :
    (stages env f).Sat (fun f' => Ok f' ∧ f'.resume.instanceReady = true) (fun _ f' => Ok f') := by
  refine (prepareStore_futures h).andThen fun f₁ ⟨h₁, hs₁⟩ => ?_
  refine (instantiateStage_futures (f := beginRun f₁) h₁ hs₁).andThen fun f₂ ⟨h₂, hi₂, hs₂⟩ => ?_
  exact (funcStage_futures h₂ hi₂ hs₂).andThen fun f₃ ⟨h₃, hr₃, hs₃⟩ => callStart_futures h₃ hr₃ hs₃

/-- `begin_run` has cleared `yielded`; only the instantiation may have set it since. -/
theorem stages_yielded (f : Frame) :
    (stages env f).Sat (fun f' => f'.ctx.phaseKind = f.ctx.phaseKind ∧ f'.ctx.yielded =
      (instantiateCalls f.resume env).any (HostCall.suspends f.ctx.phaseKind))
      (fun _ _ => True) := by
  have hstore := (quiet_prepareStore f env.storeNewOk env.setFuelOk).and
    (prepareStore_resume f env.storeNewOk env.setFuelOk)
  refine (hstore.mono (fun _ h => h) fun _ _ _ => trivial).andThen fun f₁ ⟨h₁, store, hr⟩ => ?_
  have hcalls : instantiateCalls (beginRun f₁).resume env = instantiateCalls f.resume env := by
    show instantiateCalls f₁.resume env = _
    rw [hr]
    rfl
  have hp : f₁.ctx.phaseKind = f.ctx.phaseKind := h₁.phase
  refine ((called_instantiateStage env (beginRun f₁)).mono (fun _ h => h)
    fun _ _ _ => trivial).andThen fun f₂ ⟨h₂, _⟩ => ?_
  refine ((quiet_funcStage f₂).mono (fun _ h => h) fun _ _ _ => trivial).andThen
    fun f₃ ⟨h₃, _⟩ => ?_
  refine (quiet_callStart f₃).mono (fun f₄ h₄ => ?_) fun _ _ _ => trivial
  have hcalled := (h₂.quiet h₃).quiet h₄
  refine ⟨hcalled.phase.trans hp, ?_⟩
  rw [hcalled.yielded, hcalls]
  show (false || (instantiateCalls f.resume env).any (HostCall.suspends f₁.ctx.phaseKind)) = _
  rw [hp, Bool.false_or]

theorem atCall_of_callFrame (hm : m.Sound) (h : callFrame env m = some f) : AtCall env m f := by
  have hfutures : (stages env ⟨m.ctx, m.resumeState.getD {}, m.nextId, m.trace⟩).Sat _ _ :=
    stages_futures hm.futures
  have hno : (stages env ⟨m.ctx, m.resumeState.getD {}, m.nextId, m.trace⟩).Sat _ _ :=
    stages_noError hm.noError
  have hyielded : (stages env ⟨m.ctx, m.resumeState.getD {}, m.nextId, m.trace⟩).Sat _ _ :=
    stages_yielded _
  unfold callFrame at h
  split at h
  · split at h
    · rename_i f' hx
      obtain rfl := Option.some.inj h
      rw [hx] at hfutures hno hyielded
      refine ⟨hyielded.1, hyielded.2, ?_, hno.1 hno.2⟩
      cases hk : f'.resume.futureKind with
      | call => rfl
      | none => exact absurd (hfutures.1.kind_iff.mpr hk) hno.2
      | instantiate => exact absurd (hfutures.2.symm.trans (hfutures.1.instantiate hk)) nofun
    · cases h
  · cases h

theorem run_of_callFrame (h : callFrame env m = some f) :
    (run env m).1 = (callPoll env.call.poll f).1 ∧
      (run env m).2.ctx = (callPoll env.call.poll f).2.ctx := by
  unfold callFrame at h
  split at h
  · rename_i hadmitted
    rcases runUnlogged_cases env m with ⟨-, f₀, rfl, hr⟩ | ⟨hno, -⟩
    · split at h
      · rename_i f' hx
        obtain rfl := Option.some.inj h
        unfold run
        rw [hr, hx]
        exact ⟨rfl, rfl⟩
      · cases h
    · exact absurd (hno.symm.trans hadmitted) nofun
  · cases h

/-- The guest has asked for no suspension in this run. -/
def AsksNothing (env : RunInput) (m : Machine) : Prop :=
  ∀ c ∈ instantiateCalls (m.resumeState.getD {}) env ++ env.call.poll.calls,
    HostCall.suspends m.ctx.phaseKind c = false

/-- **A trap or a failing result fails the run exactly if the guest has not asked for a suspension
in it**, or if the fuel cannot be read. -/
theorem run_fails_iff (hm : m.Sound) (h : callFrame env m = some f) {o : Outcome}
    (hout : env.call.poll.outcome = some o)
    (ho : o.Unsuccessful) :
    ((run env m).1 = .error ∧ (run env m).2.ctx.state = .error) ↔
      env.call.poll.fuelReadOk = false ∨ AsksNothing env m := by
  have hat := atCall_of_callFrame hm h
  obtain ⟨hrc, hctx⟩ := run_of_callFrame h
  rw [hrc, hctx, callPoll_fails_iff hout ho hat.kind hat.error, hat.yielded, hat.phase,
    ← List.any_append]
  refine or_congr Iff.rfl ?_
  simp only [List.any_eq_false, AsksNothing, Bool.not_eq_true]

end Run

end NgxWasm.Runtime
