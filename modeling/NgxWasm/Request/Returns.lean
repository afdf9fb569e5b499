import NgxWasm.Request.Steps
import NgxWasm.Runtime.Failure
import NgxWasm.Runtime.Reported

/-!
# What a request makes of a run

* `suspensions_reported`: `runtime_run` does not return `NGX_OK` before it has reported what the
  guest asked for, and the request acts on the report: with an active subrequest it is left alone
  until the subrequest is done. Both rest on one condition, that no incomplete poll comes between
  the launch of a subrequest and the report of it (`NoneOverwritten`). The branch for an incomplete
  poll reports a timeslice, and the request is posted at once.
* `failed_call_fails_iff`: a call that traps or returns a non-zero value fails the request exactly
  if the guest has not asked for a suspension in the same run. A suspension is reported first, and
  what the call came to is never looked at again.

The run itself is the subject of `Runtime.Reported` and `Runtime.Failure`; here the two are joined
with the steps of a request. `Attended` is the invariant of the request: somebody holds it, and it
waits for what it is suspended for.
-/

namespace NgxWasm.Request

open Lib
open NgxWasm.Runtime (AsksNothing Call NoneOverwritten OkReported Outcome RunInput callFrame callStep
  initExecCtx run run_fails_iff runFrom_sound runStep smoothRun)

/-! ## Suspensions -/

/-- While its subrequest is active the request is neither posted to run again nor completed. -/
def LeftAlone (s : State) : Prop :=
  ∀ ctx ∈ s.ctx, ctx.subrequestActive = true → s.req.posted = 0 ∧ ctx.execCompleted = false

theorem Awaits.leftAlone {h : Holder} {s : State} (hs : HeldBy h s) (ha : Awaits h s) :
    LeftAlone s := by
  intro ctx hctx hactive
  cases h with
  | engine | bodyHandler => exact absurd ((ha.2 ctx hctx).symm.trans hactive) nofun
  | resumeHandler =>
    rcases ha ctx hctx with ⟨-, hno⟩ | ⟨hposted, -⟩
    · exact absurd (hno.symm.trans hactive) nofun
    · refine ⟨hposted, Bool.eq_false_iff.mpr fun hdone => ?_⟩
      exact absurd ((hs.ctx nofun ctx hctx).completed hdone).1 nofun
  | nobody => exact ha ctx hctx hactive

/-- Somebody holds the request, and it waits for what it is suspended for. -/
def Attended (s : State) : Prop := ∃ h, HeldBy h s ∧ Awaits h s

theorem Attended.leftAlone {s : State} (h : Attended s) : LeftAlone s := by
  obtain ⟨h, hs, ha⟩ := h
  exact ha.leftAlone hs

/-- **One step** keeps a request with an active subrequest from being posted. -/
theorem step_attended (conf : Conf) {s : State} {e : Event} (h : Attended s)
    (hno : ∀ env ∈ e.run?, NoneOverwritten env) : Attended (step conf s e) := by
  obtain ⟨h, hs, ha⟩ := h
  obtain ⟨h', hstep⟩ := step_held hs e
  exact ⟨h', hstep.held, hstep.awaits ha hno⟩

/-- **A suspension is reported before the export succeeds, and a request waits for its
subrequest**, if no poll that leaves its future incomplete follows the launch of a subrequest in
the same run. -/
theorem suspensions_reported (runtimeReady moduleLoaded : Bool) (phaseKind : Runtime.Phase)
    (fuelLimit timesliceFuel : Nat) (envs : List RunInput) (conf : Conf) (client : Client)
    (events : List Event) (henvs : ∀ env ∈ envs, NoneOverwritten env)
    (hevents : ∀ e ∈ events, ∀ env ∈ e.run?, NoneOverwritten env) :
    OkReported (runFrom runStep
      (initExecCtx runtimeReady moduleLoaded phaseKind fuelLimit timesliceFuel) envs).trace ∧
    LeftAlone (runFrom (step conf) (init client) events) := by
  constructor
  · have h0 : (initExecCtx runtimeReady moduleLoaded phaseKind fuelLimit timesliceFuel).Reported :=
      ⟨fun later _ _ _ ht => absurd ht.symm (by simp [initExecCtx]), fun _ _ hr =>
        absurd hr (Option.not_mem_none _)⟩
    exact ((meets_of_forall henvs).invariant h0 fun _ _ h hno =>
      Runtime.runStep_reported h hno).ok
  · have h0 : Attended (init client) :=
      ⟨.engine, held_init client, rfl, fun _ hctx => absurd hctx (Option.not_mem_none _)⟩
    have hmeets : Meets (step conf) (fun _ e => ∀ env ∈ e.run?, NoneOverwritten env) (init client)
        events := meets_of_forall hevents
    exact (hmeets.invariant h0 fun _ _ h hno => step_attended conf h hno).leftAlone

/-- A guest that launches a subrequest, is resumed when it is done, and returns. -/
theorem suspensions_reported_launch :
    let launch := smoothRun ⟨[.subreq 0], 1, some (.value (.i32 0)), true⟩
    let finish := smoothRun ⟨[], 1, some (.value (.i32 0)), true⟩
    let conf : Conf := ⟨true, true, (· = .content), fun _ => true, ⟨0, 9, 9⟩, ⟨8, 9, 9⟩⟩
    OkReported (runFrom runStep (initExecCtx true true .content 9 9) [launch, finish]).trace ∧
    LeftAlone (runFrom (step conf) (init ⟨0, false, [], false⟩)
      [.phase (smoothInput launch), .phase (smoothInput launch), .phase (smoothInput launch), .io,
        .resume (smoothInput finish)]) := by
  have hlaunch : NoneOverwritten (smoothRun ⟨[.subreq 0], 1, some (.value (.i32 0)), true⟩) :=
    ⟨nofun, nofun⟩
  have hfinish : NoneOverwritten (smoothRun ⟨[], 1, some (.value (.i32 0)), true⟩) :=
    ⟨nofun, nofun⟩
  refine suspensions_reported true true .content 9 9 _ _ _ _ ?_ ?_
  · simp [hlaunch, hfinish]
  · simp [Event.run?, smoothInput, hlaunch, hfinish]

/-- The guest launches a subrequest, and the timeslice runs out before the export returns: the
suspension that is reported is the timeslice's, the request is posted while the subrequest is
active, and the export succeeds without the subrequest ever having been reported. -/
theorem subrequest_unreported_after_timeslice :
    let launch := smoothRun ⟨[.subreq 0], 1, none, true⟩
    let finish := smoothRun ⟨[], 1, some (.value (.i32 0)), true⟩
    let conf : Conf := ⟨true, true, (· = .content), fun _ => true, ⟨0, 9, 9⟩, ⟨8, 9, 9⟩⟩
    ¬ (OkReported (runFrom runStep (initExecCtx true true .content 9 9) [launch, finish]).trace ∨
      LeftAlone (runFrom (step conf) (init ⟨0, false, [], false⟩)
        [.phase (smoothInput launch), .phase (smoothInput launch), .phase (smoothInput launch)])) := by
  intro launch finish conf
  rintro (hreported | halone)
  · have hret := hreported [] .done .none _ rfl
    exact absurd hret.1 (by decide)
  · have hposted := halone _ rfl rfl
    exact absurd hposted.1 (by decide)

/-! ## Failures -/

/-- The status of a failed run. -/
theorem runRequest_error {i : Input} {f : Frame} (h : (run i.run f.ctx.exec.machine).1 = .error) :
    (runRequest i f).1 = .internal := by
  unfold runRequest
  rw [h]
  rfl

/-- **A call that traps or returns a non-zero value fails the request exactly if the guest has not
asked for a suspension in the same run** (or the fuel cannot be read), at any point of any sequence
of runs and cleanups. -/
theorem failed_call_fails_iff (runtimeReady moduleLoaded : Bool) (phaseKind : Runtime.Phase)
    (fuelLimit timesliceFuel : Nat) (calls : List Call) (i : Input) (f : Frame)
    (g : Runtime.Frame) (o : Outcome)
    (hm : f.ctx.exec.machine = runFrom callStep
      (initExecCtx runtimeReady moduleLoaded phaseKind fuelLimit timesliceFuel) calls)
    (hg : callFrame i.run f.ctx.exec.machine = some g) (hout : i.run.call.poll.outcome = some o)
    (ho : o.Unsuccessful) :
    ((run i.run f.ctx.exec.machine).1 = .error ∧
      (run i.run f.ctx.exec.machine).2.ctx.state = .error ∧ (runRequest i f).1 = .internal) ↔
    i.run.call.poll.fuelReadOk = false ∨ AsksNothing i.run f.ctx.exec.machine := by
  have hsound : f.ctx.exec.machine.Sound := by
    rw [hm]
    exact runFrom_sound _ _ _ _ _ calls
  rw [← run_fails_iff hsound hg hout ho, ← and_assoc]
  exact ⟨And.left, fun h => ⟨h, runRequest_error h.1⟩⟩

/-- A guest that traps in the second run of a call that was suspended by its timeslice. -/
theorem failed_call_fails_iff_trap :
    let i := smoothInput (smoothRun ⟨[.other], 1, some (.trap .outOfFuel), true⟩)
    let m := runFrom callStep (initExecCtx true true .content 9 9)
      [.run (smoothRun ⟨[.yield], 1, none, true⟩)]
    (run i.run m).1 = .error ∧ (run i.run m).2.ctx.state = .error ∧
      (runRequest i ⟨(init ⟨0, false, [], false⟩).req, { newCtx with exec.machine := m }⟩).1 =
        .internal := by
  intro i m
  refine (failed_call_fails_iff true true .content 9 9 _ i ⟨_, { newCtx with exec.machine := m }⟩ _
    (.trap .outOfFuel) rfl rfl rfl trivial).mpr (Or.inr fun c hc => ?_)
  obtain rfl := List.mem_singleton.mp hc
  rfl

/-- The guest yields and then traps: the run suspends, and so does the request. -/
theorem trap_suspended_after_yield :
    let i := smoothInput (smoothRun ⟨[.yield], 1, some (.trap .other), true⟩)
    let m := initExecCtx true true .content 9 9
    ¬ ((run i.run m).1 = .error ∧ (run i.run m).2.ctx.state = .error ∧
      (runRequest i ⟨(init ⟨0, false, [], false⟩).req, { newCtx with exec.machine := m }⟩).1 =
        .internal) := by
  decide

end NgxWasm.Request
