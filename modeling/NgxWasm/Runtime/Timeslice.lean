import NgxWasm.Runtime.Stage

/-!
# Hooks that cannot be resumed

Six hooks call `ngx_http_wasm_runtime_run` in a phase without the yield capability, each with an
execution context it has set up by itself. None of them can come back to a guest that has been
suspended: the two filters, the balancer and the TLS callbacks fail on `NGX_AGAIN` as on
`NGX_ERROR`, and the log handler drops the context. So nothing may suspend them. Four of them set
`timeslice_fuel` to 0, which leaves the interval of `prepare_async_yield` at all the fuel there is;
the header filter and the body filter copy the configured timeslice.

Of each hook only the context is here (`Hook.execCtx`) and what it makes of the return code
(`Hook.fails`); the hooks themselves are in `HeaderFilter`, `BodyFilter`, `Balancer`, `Tls` and
`Request.Contexts`. Of Wasmtime it is assumed that a guest burns what it needs, one yield interval at
most, and that its future is incomplete exactly if it needs more (`Stage.Interrupted`).

* `Rests.cutOnlyBy_iff`: a run is cut short without a cause exactly if it is suspended.
* `Stage.suspends_iff`: with the interval the run has set, a stage is suspended exactly if it needs a
  whole timeslice while more fuel than that is left.
* `cut_only_by_iff`: both together, for each run of each hook.
-/

namespace NgxWasm.Runtime

open Lib

/-! ## The hooks -/

/-- The hooks whose phase has no capability to suspend. -/
inductive Hook where
  | headerFilter
  | bodyFilter
  | log
  | balancer
  | sslClientHello
  | sslCertificate
  deriving Repr, DecidableEq

/-- `NGX_HTTP_WASM_DEFAULT_FUEL_LIMIT`. -/
def defaultFuelLimit : Nat := 1000000

/-- The fuel of `ngx_http_wasm_conf_t`: of the location or the server after the merge, and of the
upstream block, where a limit may be unset. -/
structure FuelConf where
  fuelLimit : Nat
  timesliceFuel : Nat
  upstreamFuelLimit : Option Nat := none
  deriving Repr, DecidableEq

/-- The execution context as each hook sets it up. -/
def Hook.execCtx (runtimeReady moduleLoaded : Bool) (conf : FuelConf) : Hook → Machine
  | .headerFilter =>
    initExecCtx runtimeReady moduleLoaded .headerFilter conf.fuelLimit conf.timesliceFuel
  | .bodyFilter =>
    initExecCtx runtimeReady moduleLoaded .bodyFilter conf.fuelLimit conf.timesliceFuel
  | .log => initExecCtx runtimeReady moduleLoaded .log conf.fuelLimit 0
  | .balancer =>
    initExecCtx runtimeReady moduleLoaded .balancer (conf.upstreamFuelLimit.getD defaultFuelLimit) 0
  | .sslClientHello => initExecCtx runtimeReady moduleLoaded .sslClientHello conf.fuelLimit 0
  | .sslCertificate => initExecCtx runtimeReady moduleLoaded .sslCertificate conf.fuelLimit 0

/-- The hook fails on this return code: the filters and the balancer return `NGX_ERROR`, the client
hello callback `SSL_TLSEXT_ERR_ALERT_FATAL`, the certificate callback 0. The log handler returns
`NGX_OK` in any case. -/
def Hook.fails : Hook → Rc → Bool
  | .headerFilter, rc | .bodyFilter, rc | .balancer, rc | .sslClientHello, rc
  | .sslCertificate, rc => rc ≠ .ok
  | .log, _ => false

/-! ## What the timeslice may not do -/

/-- Why a run may be cut short: nginx or Wasmtime does not do its part, the fuel limit is burned, the
guest traps, or it returns another value than 0. -/
inductive Cause (env : RunInput) (m : Machine) : Prop
  | unserved (h : lastStage env m = none)
  | failed {s : Stage} (hs : s ∈ lastStage env m) (h : s.attempt.Failed)
  | exhausted (h : burned (run env m).2.trace = m.ctx.fuelLimit)
  | trapped {s : Stage} (hs : s ∈ lastStage env m) (h : s.attempt.Trapped)
  | nonzero {s : Stage} {v : Val} (hs : s ∈ lastStage env m)
      (h : s.attempt.poll.outcome = some (.value v)) (hv : v ≠ .i32 0)

/-- The run is cut short, and the hook fails, for a cause alone. -/
structure CutOnlyBy (hook : Hook) (env : RunInput) (m : Machine) : Prop where
  run : (Runtime.run env m).1 ≠ .ok → Cause env m
  hook : hook.fails (Runtime.run env m).1 = true → Cause env m

section Cause

variable {limit slice : Nat} {m : Machine} {env : RunInput}

theorem Rests.fuelLimit (h : Rests limit slice m) : m.ctx.fuelLimit = limit := by
  cases h with
  | fresh _ _ fuelLimit => exact fuelLimit
  | idle _ h => exact h.fuelLimit

/-- A suspension has no cause. -/
theorem Rests.not_cause (h : Rests limit slice m) (hrc : (run env m).1 = .again) :
    ¬ Cause env m := by
  obtain ⟨s, hlast, hs⟩ := h.run_again_iff.mp hrc
  obtain ⟨hfailed, htrapped⟩ := Attempt.answered_not_failed hs.1 hs.2.1
  have hmem : ∀ s' ∈ lastStage env m, s' = s := fun s' hs' =>
    Option.some.inj (hs'.symm.trans hlast)
  rintro (hnone | ⟨hs', h'⟩ | h' | ⟨hs', h'⟩ | ⟨hs', h', -⟩)
  · exact absurd (hlast.symm.trans hnone) nofun
  · exact hfailed (hmem _ hs' ▸ h')
  · rcases h.run_ends env with ⟨-, hrc'⟩ | ⟨s', f, -, ⟨hend, -, -⟩, hm⟩
    · exact absurd (hrc.symm.trans hrc') nofun
    · rw [hrc] at hend
      cases hend with
      | suspended _ hleft =>
        rw [hm, h.fuelLimit] at h'
        have hb : burned f.trace = limit := h'
        omega
  · exact htrapped (hmem _ hs' ▸ h')
  · rw [hmem _ hs', hs.2.1] at h'
    cases h'

/-- Any other run that is not done has one. -/
theorem Rests.cause (h : Rests limit slice m) (hok : (run env m).1 ≠ .ok)
    (hagain : (run env m).1 ≠ .again) : Cause env m := by
  rcases h.run_ends env with ⟨hlast, -⟩ | ⟨s, f, hlast, ⟨hend, -, -⟩, hm⟩
  · exact .unserved hlast
  · have hspent : burned f.trace = limit → Cause env m := by
      intro hb
      refine .exhausted ?_
      rw [hm, h.fuelLimit]
      exact hb
    generalize (run env m).1 = rc at hend hok hagain
    cases hend with
    | exhausted _ hb => exact hspent hb
    | failed h' => exact .failed hlast h'
    | trapped h' => exact .trapped hlast h'
    | nonzero h' hv => exact .nonzero hlast h' hv
    | suspended => exact absurd rfl hagain
    | completed => exact absurd rfl hok

/-- **Only a suspension is without a cause.** -/
theorem Rests.cutOnlyBy_iff (h : Rests limit slice m) (hook : Hook) :
    CutOnlyBy hook env m ↔ ¬ ∃ s ∈ lastStage env m, s.Suspends := by
  rw [← h.run_again_iff]
  constructor
  · intro hcut hrc
    exact h.not_cause hrc (hcut.run (by rw [hrc]; nofun))
  · intro hno
    refine ⟨fun hok => h.cause hok hno, fun hfails => h.cause ?_ hno⟩
    intro hok
    rw [hok] at hfails
    cases hook <;> cases hfails

end Cause

/-! ## The yield interval -/

/-- What a hook sets `timeslice_fuel` to. -/
def Hook.timeslice (conf : FuelConf) : Hook → Nat
  | .headerFilter | .bodyFilter => conf.timesliceFuel
  | .log | .balancer | .sslClientHello | .sslCertificate => 0

/-- The assumption on Wasmtime, for a stage that needs this much fuel to its end: the guest burns what
it needs, one yield interval at most, and the poll is incomplete exactly if it has burned one
interval and fuel remains beyond it. -/
structure Stage.Interrupted (interval need : Nat) (s : Stage) : Prop where
  burned : s.attempt.burned = min need interval
  incomplete : s.attempt.poll.outcome = none ↔ s.attempt.burned = interval ∧ interval < s.fuel

/-- The stage needs a whole timeslice while more fuel than that is left. -/
def Stage.Overruns (timeslice need : Nat) (s : Stage) : Prop :=
  s.attempt.answered = true ∧ 0 < timeslice ∧ timeslice < s.fuel ∧ timeslice ≤ need

/-- With the interval of `prepare_async_yield` a stage is suspended exactly if it overruns the
timeslice. -/
theorem Stage.suspends_iff {slice need : Nat} {s : Stage}
    (h : s.Interrupted (intervalOf slice s.fuel) need) :
    s.Suspends ↔ s.Overruns slice need := by
  obtain ⟨hburned, hincomplete⟩ := h
  unfold Stage.Suspends Stage.Overruns
  rw [hincomplete]
  unfold intervalOf at *
  split at hburned
  · rename_i hslice
    rw [if_pos hslice]
    constructor
    · rintro ⟨ha, ⟨hall, hmore⟩, hleft⟩
      exact ⟨ha, hslice.1, hslice.2, by omega⟩
    · rintro ⟨ha, hpos, hmore, hneed⟩
      exact ⟨ha, ⟨by omega, hmore⟩, by omega⟩
  · rename_i hslice
    rw [if_neg hslice]
    constructor
    · rintro ⟨ha, ⟨hall, hmore⟩, hleft⟩
      exact absurd hmore (Nat.lt_irrefl _)
    · rintro ⟨ha, hpos, hmore, hneed⟩
      exact absurd ⟨hpos, hmore⟩ hslice

section Interval

variable {limit slice : Nat} {m : Machine} {env : RunInput}

/-- A stage whose future is polled goes with the interval of `prepare_async_yield`. -/
theorem Rests.interval (h : Rests limit slice m) {s : Stage} (hs : s ∈ lastStage env m)
    (hpolled : s.Polled) : intervalSet (run env m).2.trace = intervalOf slice s.fuel := by
  rcases h.run_ends env with ⟨hnone, -⟩ | ⟨s', f, hlast, hend, hm⟩
  · exact absurd (hs.symm.trans hnone) nofun
  · obtain rfl : s' = s := Option.some.inj (hlast.symm.trans hs)
    rw [hm]
    exact hend.interval hpolled

theorem Stage.polled_of_answered {s : Stage} (h : s.attempt.answered = true) (hfuel : 0 < s.fuel) :
    s.Polled := by
  unfold Attempt.answered at h
  simp only [Bool.and_eq_true, decide_eq_true_eq] at h
  exact ⟨h.1.1, h.1.2, hfuel⟩

/-- A resting context that is run once more. -/
theorem Rests.cutOnlyBy_iff_overruns (h : Rests limit slice m) (hook : Hook)
    {need : FutureKind → Nat}
    (hpoll : ∀ s ∈ lastStage env m, s.Polled →
      s.Interrupted (intervalSet (run env m).2.trace) (need s.kind)) :
    CutOnlyBy hook env m ↔ ∀ s ∈ lastStage env m, ¬ s.Overruns slice (need s.kind) := by
  have hinterrupted : ∀ s ∈ lastStage env m, s.Polled →
      s.Interrupted (intervalOf slice s.fuel) (need s.kind) := by
    intro s hs hpolled
    rw [← h.interval hs hpolled]
    exact hpoll s hs hpolled
  rw [h.cutOnlyBy_iff]
  constructor
  · intro hno s hs hover
    have hpolled := Stage.polled_of_answered hover.1 (Nat.zero_lt_of_lt hover.2.2.1)
    exact hno ⟨s, hs, (Stage.suspends_iff (hinterrupted s hs hpolled)).mpr hover⟩
  · rintro hno ⟨s, hs, hsuspends⟩
    have hpolled := Stage.polled_of_answered hsuspends.1 (Nat.zero_lt_of_lt hsuspends.2.2)
    exact hno s hs ((Stage.suspends_iff (hinterrupted s hs hpolled)).mp hsuspends)

end Interval

/-! ## The hooks, run by run -/

/-- The next run of a hook that keeps its context: the body filter has one for each chunk. -/
def nextRun (m : Machine) (env : RunInput) : Machine := (run env m).2

/-- A hook starts with a context that has not run. -/
theorem Hook.execCtx_rests (runtimeReady moduleLoaded : Bool) (conf : FuelConf) (hook : Hook) :
    ∃ limit, Rests limit (hook.timeslice conf)
      (hook.execCtx runtimeReady moduleLoaded conf) := by
  cases hook <;> exact ⟨_, .fresh rfl rfl rfl rfl rfl rfl⟩

/-- **The timeslice cuts a run short exactly if the stage overruns it.** In a hook whose runs so far
have all been done, with a guest that needs so much fuel for a stage: the next run is cut short, and
the hook fails, for a cause alone, exactly if the last stage of the run does not need a whole
timeslice while more fuel than that is left. Where the hook sets no timeslice none does. -/
theorem cut_only_by_iff (hook : Hook) (runtimeReady moduleLoaded : Bool) (conf : FuelConf)
    (before : List RunInput) (env : RunInput) (need : FutureKind → Nat)
    (hbefore : Meets nextRun (fun m env => (run env m).1 = .ok)
      (hook.execCtx runtimeReady moduleLoaded conf) before)
    (hpoll : ∀ s ∈ lastStage env
        (runFrom nextRun (hook.execCtx runtimeReady moduleLoaded conf) before),
      s.Polled → s.Interrupted (intervalSet (run env
        (runFrom nextRun (hook.execCtx runtimeReady moduleLoaded conf) before)).2.trace)
        (need s.kind)) :
    CutOnlyBy hook env (runFrom nextRun (hook.execCtx runtimeReady moduleLoaded conf) before) ↔
      ∀ s ∈ lastStage env (runFrom nextRun (hook.execCtx runtimeReady moduleLoaded conf) before),
        ¬ s.Overruns (hook.timeslice conf) (need s.kind) := by
  obtain ⟨limit, hfresh⟩ := hook.execCtx_rests runtimeReady moduleLoaded conf
  have hrests : Rests limit (hook.timeslice conf)
      (runFrom nextRun (hook.execCtx runtimeReady moduleLoaded conf) before) :=
    hbefore.invariant hfresh fun m env h hok => h.run_ok hok
  exact hrests.cutOnlyBy_iff_overruns hook hpoll

/-- A guest that needs 60 units for each chunk stays within a timeslice of 100, though 938 are left
for the second. -/
theorem cut_only_by_iff_second_chunk :
    CutOnlyBy .bodyFilter (smoothRun ⟨[], 59, some (.value (.i32 0)), true⟩)
      (runFrom nextRun (Hook.bodyFilter.execCtx true true ⟨1000, 100, none⟩)
        [smoothRun ⟨[], 59, some (.value (.i32 0)), true⟩]) := by
  have hlast : lastStage (smoothRun ⟨[], 59, some (.value (.i32 0)), true⟩)
      (runFrom nextRun (Hook.bodyFilter.execCtx true true ⟨1000, 100, none⟩)
        [smoothRun ⟨[], 59, some (.value (.i32 0)), true⟩]) =
      some ⟨.call, ⟨true, .future, 1, ⟨[], 59, some (.value (.i32 0)), true⟩⟩, 938⟩ := rfl
  refine (cut_only_by_iff .bodyFilter true true ⟨1000, 100, none⟩
    [smoothRun ⟨[], 59, some (.value (.i32 0)), true⟩]
    (smoothRun ⟨[], 59, some (.value (.i32 0)), true⟩) (fun _ => 60) (by decide) ?_).mpr ?_
  · intro s hs _
    obtain rfl := Option.some.inj (hlast.symm.trans hs)
    exact ⟨by decide, by decide⟩
  · intro s hs hover
    obtain rfl := Option.some.inj (hlast.symm.trans hs)
    exact absurd hover.2.2.2 (by decide)

/-- A guest of the header filter needs 150 units of a limit of 1000, and the timeslice is 100: the
filter fails while 898 are left. -/
theorem cut_by_timeslice :
    let m := Hook.headerFilter.execCtx true true ⟨1000, 100, none⟩
    let env := smoothRun ⟨[], 99, none, true⟩
    (∀ s ∈ lastStage env m, s.Polled → s.Interrupted (intervalSet (run env m).2.trace) 150) ∧
      (run env m).1 = .again ∧ Hook.headerFilter.fails (run env m).1 = true ∧
      (run env m).2.ctx.fuelRemaining = 898 ∧ ¬ CutOnlyBy .headerFilter env m := by
  intro m env
  have hlast : lastStage env m =
      some ⟨.call, ⟨true, .future, 1, ⟨[], 99, none, true⟩⟩, 998⟩ := rfl
  refine ⟨?_, by decide, by decide, by decide, ?_⟩
  · intro s hs _
    obtain rfl := Option.some.inj (hlast.symm.trans hs)
    exact ⟨by decide, by decide⟩
  · obtain ⟨limit, hfresh⟩ := Hook.headerFilter.execCtx_rests true true ⟨1000, 100, none⟩
    rw [hfresh.cutOnlyBy_iff]
    exact fun hno => hno ⟨_, hlast, rfl, rfl, by decide⟩

end NgxWasm.Runtime
