import NgxWasm.Runtime.Suspension

/-!
# No suspension is lost on the way to `NGX_OK`

A call that is polled again finds what the guest asked for in an earlier poll only in what the run
returned then: `begin_run` has cleared `yielded` and `suspend_kind`. So the invariant between two
runs is about a live future of the call (`NothingHeld`): everything the guest has done in this
invocation has been reported. One branch breaks it. A poll that leaves the future incomplete is
reported as `NGX_HTTP_WASM_SUSPEND_RESCHEDULE`, also if the guest has launched a subrequest in it.

A suspension during the instantiation is another matter: the call has not been started then, so there
is no invocation that could still return `NGX_OK` with something unreported.

* `callPoll_reports`: what the poll of the call reports.
* `callStart_reported`: the call is started in this run, or the runs before it held nothing back.
* `runStep_reported`: a run keeps the invariant, unless that branch is taken (`NoneOverwritten`).

What the guest did is read off the trace (`unreportedIo`, `unreportedYield` of `Runtime.Suspension`),
and not off fields of the context, which a later run clears. A run that fails may leave something
unreported, since the request is given up after it.
-/

namespace NgxWasm.Runtime

open Lib

/-- Every suspension of this invocation has been reported. -/
def AllReported (t : List Event) : Prop := unreportedIo t = false ∧ unreportedYield t = false

/-- A call that can still complete has nothing left to report. -/
def NothingHeld (r : Resume) (t : List Event) : Prop :=
  r.future ≠ none → r.instanceReady = true → AllReported t

/-- No run so far has returned `NGX_OK` with a suspension unreported. -/
def OkReported (t : List Event) : Prop :=
  ∀ later state kind earlier, t = later ++ .ret .ok state kind :: earlier → AllReported earlier

section Trace

variable {t : List Event}

theorem OkReported.cons {e : Event} (h : OkReported t)
    (he : ∀ state kind, e = .ret .ok state kind → AllReported t) : OkReported (e :: t) := by
  rintro (_ | ⟨e', later⟩) state kind earlier ht
  · obtain ⟨rfl, rfl⟩ := List.cons.inj ht
    exact he state kind rfl
  · exact h later state kind earlier (List.cons.inj ht).2

theorem OkReported.append (h : OkReported t) {es : List Event}
    (hes : ∀ e ∈ es, e.isReturn = false) : OkReported (es ++ t) := by
  induction es with
  | nil => exact h
  | cons e es ih =>
    refine (ih fun e' he' => hes e' (List.mem_cons_of_mem e he')).cons ?_
    rintro state kind rfl
    exact absurd (hes _ List.mem_cons_self) (by simp [Event.isReturn])

/-- What was reported stays reported while the guest asks for nothing more. -/
theorem Logged.allReported {cs : List HostCall} {f f' : Frame} (h : Logged cs f f')
    (ht : AllReported f.trace) (hcs : cs.any (HostCall.suspends f.ctx.phaseKind) = false)
    (hio : cs.any (HostCall.launches f.ctx.phaseKind) = false) : AllReported f'.trace := by
  constructor
  · refine Bool.eq_false_iff.mpr fun hyes => ?_
    rcases h.io hyes with h' | h'
    · exact absurd (ht.1.symm.trans h') nofun
    · exact absurd (hio.symm.trans h') nofun
  · refine Bool.eq_false_iff.mpr fun hyes => ?_
    rcases h.yield hyes with h' | h'
    · exact absurd (ht.2.symm.trans h') nofun
    · exact absurd (hcs.symm.trans h') nofun

/-- What launches also suspends. -/
theorem any_launches_of_suspends {phase : Phase} {cs : List HostCall}
    (h : cs.any (HostCall.suspends phase) = false) : cs.any (HostCall.launches phase) = false := by
  rw [List.any_eq_false] at h ⊢
  intro c hc hl
  refine h c hc ?_
  cases c with
  | subreq rc => exact hl
  | yield | other => cases hl

end Trace

/-! ## The poll of the call -/

/-- What a run may return: `NGX_OK` with everything reported, `NGX_AGAIN` with nothing left for the
poll that comes next, or `NGX_ERROR`. -/
inductive Reports : Rc → Frame → Prop
  | error (f : Frame) : Reports .error f
  | ok {f : Frame} (h : AllReported f.trace) : Reports .ok f
  | again {f : Frame}
      (h : ∀ state, NothingHeld f.resume (.ret .again state f.ctx.suspendKind :: f.trace)) :
      Reports .again f

theorem GivesUp.reports {f f' : Frame} {rc : Rc} (h : GivesUp f rc f') : Reports rc f' := by
  rw [h.rc_eq]
  exact .error _

section Poll

variable {f f' : Frame} {cs : List HostCall}

/-- The kind is `NGX_HTTP_WASM_SUSPEND_RESCHEDULE`, which says nothing of a subrequest. -/
theorem pollIncomplete_reports (h : Called cs f f') (ht : AllReported f.trace)
    {readOk : Bool} (hio : readOk = true → cs.any (HostCall.launches f.ctx.phaseKind) = false)
    {fuelText terminalText reason : String} :
    Reports (pollIncomplete readOk fuelText terminalText reason f').1
      (pollIncomplete readOk fuelText terminalText reason f').2 := by
  have hfuel : ((updateFuel readOk fuelText f').onRet Frame.setError).Sat
      (fun f₁ => readOk = true ∧ Called cs f f₁) Reports :=
    (quiet_updateFuel f').mono (fun _ ⟨hread, hq, _⟩ => ⟨hread, h.quiet hq⟩)
      fun _ _ ⟨_, hg⟩ => hg.reports
  unfold Runtime.pollIncomplete
  refine hfuel.finish fun f₁ ⟨hread, h₁⟩ => ?_
  split
  · exact .error _
  · refine .again fun _ _ _ => ⟨Bool.eq_false_iff.mpr fun hyes => ?_, rfl⟩
    rcases h₁.io hyes with h' | h'
    · exact absurd (ht.1.symm.trans h') nofun
    · exact absurd ((hio hread).symm.trans h') nofun

/-- `NGX_OK` comes from the branch that `yielded` does not take. -/
theorem callOutcome_reports (h : Called cs f f') (ht : AllReported f.trace)
    (hnone : f'.resume.future = none) : Reports (callOutcome f').1 (callOutcome f').2 := by
  unfold Runtime.callOutcome
  split
  · exact .error _
  · split
    · exact .again fun _ hsome => absurd hnone hsome
    · rename_i hno
      have hcs : cs.any (HostCall.suspends f.ctx.phaseKind) = false := by
        have hyielded := h.yielded
        rw [Bool.eq_false_iff.mpr hno] at hyielded
        exact (Bool.or_eq_false_iff.mp hyielded.symm).2
      split
      · exact .error _
      · split
        · exact .error _
        · exact .ok (h.toLogged.allReported ht hcs (any_launches_of_suspends hcs))

/-- **What the poll of the call reports**: all of it, when the export has returned; and when it has
not, the guest may have yielded but must not have launched a subrequest. -/
theorem callPoll_reports {p : Poll} (ht : AllReported f.trace)
    (hno : p.outcome = none → p.fuelReadOk = true → .subreq wasmOk ∉ p.calls) :
    Reports (callPoll p f).1 (callPoll p f).2 := by
  have h₁ := called_pollFuture p f
  refine callPoll_exit Reports (fun f' => Called p.calls f f' ∧ f'.resume.future = none)
    (fun hout => ?_) (fun _ => ?_) fun f₂ ⟨h₂, hnone⟩ => callOutcome_reports h₂ ht hnone
  · exact pollIncomplete_reports h₁ ht fun hread => any_launches_eq_false (hno hout hread)
  · exact (quiet_pollComplete _).mono
      (fun _ ⟨_, hq, hr⟩ => ⟨h₁.quiet hq, congrArg Resume.future hr⟩)
      fun _ _ ⟨_, hg⟩ => hg.reports

end Poll

/-! ## The stages before it -/

section Stages

variable {f : Frame}

theorem startAsync_ready (f : Frame) {kind : FutureKind} {texts : StartTexts} {a : Attempt} :
    (startAsync kind texts a f).Sat
      (fun f' => f'.resume.instanceReady = f.resume.instanceReady ∧
        (kind = .call → AllReported f'.trace))
      (fun rc _ => rc = .error) := by
  have hyield : ((prepareAsyncYield a.yieldOk f).onRet Frame.setError).Sat
      (fun f' => f'.resume = f.resume) (fun rc _ => rc = .error) := by
    unfold prepareAsyncYield
    split
    · rfl
    · split <;> rfl
  unfold startAsync
  refine hyield.andThen fun f₁ h₁ => ?_
  have hop : (prepareAsyncOp kind f₁).Sat
      (fun f' => f'.resume.instanceReady = f₁.resume.instanceReady) (fun rc _ => rc = .error) := by
    unfold prepareAsyncOp
    split
    · rfl
    · split <;> rfl
  refine hop.andThen fun f₂ h₂ => ?_
  rw [← h₁, ← h₂]
  unfold askFuture
  cases a.start with
  | future =>
    refine ⟨rfl, ?_⟩
    rintro rfl
    -- a new invocation
    exact ⟨rfl, rfl⟩
  | error | trap | null => rfl

/-- A suspension while the instance is made leaves it unmade. -/
theorem pollIncomplete_unready (h : f.resume.instanceReady = false) {readOk : Bool}
    {fuelText terminalText reason : String} :
    Reports (pollIncomplete readOk fuelText terminalText reason f).1
      (pollIncomplete readOk fuelText terminalText reason f).2 := by
  have hfuel : ((updateFuel readOk fuelText f).onRet Frame.setError).Sat
      (fun f' => f'.resume = f.resume) Reports :=
    (quiet_updateFuel f).mono (fun _ h' => h'.2.2) fun _ _ ⟨_, hg⟩ => hg.reports
  unfold Runtime.pollIncomplete
  refine hfuel.finish fun f₁ h₁ => ?_
  split
  · exact .error _
  · refine .again fun _ _ hready => ?_
    have hready : f₁.resume.instanceReady = true := hready
    rw [h₁] at hready
    exact absurd (h.symm.trans hready) nofun

theorem instantiateStage_reports {a : Attempt} (hheld : NothingHeld f.resume f.trace) :
    (instantiateStage a f).Sat (fun f' => f'.resume.future ≠ none → AllReported f'.trace)
      Reports := by
  refine instantiateStage_sat (fun f' => f'.resume.instanceReady = false)
    (fun f' => f'.resume.future = none) (fun hready hsome => hheld hsome hready)
    (fun hready => start_sat (fun _ => hready) fun _ => ?_) (fun f₁ h₁ _ => ?_) (fun f₁ _ _ => ?_)
    (fun _ _ _ => .error _) (fun _ _ _ => .error _) fun f₃ hnone hsome => absurd hnone hsome
  · exact (startAsync_ready f).mono (fun _ h => h.1.trans hready) fun _ _ h => h ▸ .error _
  · refine pollIncomplete_unready ?_
    obtain ⟨result, trap, error, he⟩ := pollFuture_resume a.poll f₁
    rw [he]
    exact h₁
  · exact (quiet_pollComplete _).mono (fun _ ⟨_, _, hr⟩ => congrArg Resume.future hr)
      fun _ _ ⟨_, hg⟩ => hg.reports

end Stages

/-! ## A run -/

section Run

variable {env : RunInput} {f : Frame}

/-- The call is started in this run, or nothing was held back by the runs before it. -/
theorem callStart_reported {a : Attempt} (h : f.resume.future ≠ none → AllReported f.trace) :
    (callStart a f).Sat (fun f' => AllReported f'.trace) (fun rc _ => rc = .error) := by
  refine callStart_sat h fun _ => ?_
  exact (startAsync_ready f).mono (fun _ h' => h'.2 rfl) fun _ _ h' => h'

theorem runBody_reports (hheld : NothingHeld f.resume f.trace) (hno : NoneOverwritten env) :
    Reports (runBody env f).1 (runBody env f).2 := by
  have hstages : ((instantiateStage env.instantiate (beginRun f)).andThen fun f =>
      (funcStage env.exportFound f).andThen (callStart env.call)).Sat
        (fun f' => AllReported f'.trace) Reports := by
    refine (instantiateStage_reports (f := beginRun f) hheld).andThen fun f₁ h₁ => ?_
    refine ((quiet_funcStage f₁).mono (fun _ h => h) fun _ _ hg => hg.reports).andThen
      fun f₂ ⟨_, h₂⟩ => ?_
    refine (callStart_reported (f := f₂) ?_).mono (fun _ h => h) ?_
    · rw [h₂]
      exact h₁
    · rintro rc f' rfl
      exact .error _
  exact hstages.finish fun f₃ h₃ => callPoll_reports h₃ fun hnone hread => (hno.call hnone hread).2

/-- What a run adds to the trace before it returns. -/
theorem start_within (env : RunInput) (f : Frame) : ∃ es,
    ((prepareStore env.storeNewOk env.setFuelOk f).finish (runBody env)).2.trace = es ++ f.trace ∧
      ∀ e ∈ es, e.isReturn = false := by
  have hstore := quiet_prepareStore f env.storeNewOk env.setFuelOk
  cases hx : prepareStore env.storeNewOk env.setFuelOk f with
  | ret rc f₁ =>
    rw [hx] at hstore
    exact hstore.quiet.within
  | next f₁ =>
    rw [hx] at hstore
    obtain ⟨es, ht, hes⟩ := hstore.within
    obtain ⟨_, hlog, -⟩ := runBody_ends env f₁
    obtain ⟨es', ht', hes'⟩ := hlog.within
    refine ⟨es' ++ es, ?_, fun e he => (List.mem_append.mp he).elim (hes' e) (hes e)⟩
    rw [List.append_assoc, ← ht]
    exact ht'

theorem start_reports (hheld : NothingHeld f.resume f.trace) (hno : NoneOverwritten env) :
    Reports ((prepareStore env.storeNewOk env.setFuelOk f).finish (runBody env)).1
      ((prepareStore env.storeNewOk env.setFuelOk f).finish (runBody env)).2 := by
  have hstore := quiet_prepareStore f env.storeNewOk env.setFuelOk
  have hresume := prepareStore_resume f env.storeNewOk env.setFuelOk
  cases hx : prepareStore env.storeNewOk env.setFuelOk f with
  | ret rc f₁ =>
    rw [hx] at hstore
    exact hstore.reports
  | next f₁ =>
    rw [hx] at hstore hresume
    obtain ⟨store, hresume⟩ := hresume
    refine runBody_reports (fun hsome hready => ?_) hno
    rw [hresume] at hsome hready
    exact hstore.allReported (hheld hsome hready) rfl rfl

/-- The invariant between two runs: nothing is held back, unless a run has failed. -/
structure Machine.Reported (m : Machine) : Prop where
  ok : OkReported m.trace
  held : failed m.trace = false → ∀ r ∈ m.resumeState, NothingHeld r m.trace

/-- A run that fails before it has a resume state. -/
theorem reported_error {m : Machine} (h : m.Reported) {ctx : ExecCtx} (es : List Event)
    (hes : ∀ e ∈ es, e.isReturn = false) {state : ExecState} {kind : SuspendKind} :
    Machine.Reported { m with ctx := ctx, trace := .ret .error state kind :: (es ++ m.trace) } :=
  ⟨(h.ok.append hes).cons nofun, nofun⟩

/-- **A run keeps the invariant** if it does not overwrite the kind of a suspension. -/
theorem runStep_reported {m : Machine} (h : m.Reported) (hno : NoneOverwritten env) :
    (runStep m env).Reported := by
  unfold runStep
  by_cases hfailed : failed m.trace = true
  · rw [if_pos hfailed]
    exact h
  rw [if_neg hfailed]
  unfold run runUnlogged
  dsimp only
  split
  · exact reported_error h [_] (by simp [Event.isReturn])
  · split
    · exact reported_error h [_] (by simp [Event.isReturn])
    · split
      · exact reported_error h [] (by simp)
      · have hheld : NothingHeld (m.resumeState.getD {}) m.trace := by
          cases hr : m.resumeState with
          | none => exact fun hsome => absurd rfl hsome
          | some r => exact h.held (Bool.eq_false_iff.mpr hfailed) r hr
        obtain ⟨es, ht, hes⟩ := start_within env ⟨m.ctx, m.resumeState.getD {}, m.nextId, m.trace⟩
        have hreports := start_reports (f := ⟨m.ctx, m.resumeState.getD {}, m.nextId, m.trace⟩)
          hheld hno
        generalize (prepareStore env.storeNewOk env.setFuelOk
          ⟨m.ctx, m.resumeState.getD {}, m.nextId, m.trace⟩).finish (runBody env) = r at *
        obtain ⟨rc, f'⟩ := r
        refine ⟨OkReported.cons ?_ ?_, ?_⟩
        · show OkReported f'.trace
          rw [ht]
          exact h.ok.append hes
        · rintro state kind heq
          cases heq
          cases hreports with
          | ok hall => exact hall
        · rintro hok r hr
          obtain rfl := Option.mem_some_iff.mp hr
          cases hreports with
          | error => exact absurd hok.symm Bool.false_ne_true
          | ok hall => exact fun _ _ => hall
          | again hheld => exact hheld _

end Run

end NgxWasm.Runtime
