import NgxWasm.Runtime.Stage

/-!
# When a run is done

`Stage.End` says how a run may end, and leaves open which of these it is where several could apply:
the fuel may run out with the last instruction of a guest that has done its work. Here the question
is only when a run returns `NGX_OK`. It takes the whole way: the store and its fuel, an instance,
the export, fuel left to start the call with, and the value 0.

* `startAsync_polled`, `instantiateStage_done`, `callPoll_ok_iff`: the steps of that way.
* `Rests.run_ok_iff`: in a phase without capabilities a run returns `NGX_OK` exactly if it comes to
  its call and the call returns 0 (`Completes`, which is read off the inputs of the run).
* `Rests.callFrame_of_ok`: and then it has polled its call.

The exact rules of the header filter and of the TLS callbacks rest on this.

As in `Runtime.Stage` the context is one whose earlier runs are done, in a phase without capabilities. A
run that returns `NGX_OK` may have left the guest no fuel; what counts is that there was some to start
the call with.
-/

namespace NgxWasm.Runtime

open Lib

/-- The stage is started, and its future completes with a value. -/
def Stage.Done (s : Stage) : Prop := 0 < s.fuel ∧ s.attempt.completes = true

/-- The call is started, and returns the `i32` 0. -/
def Stage.Returns (s : Stage) : Prop :=
  s.kind = .call ∧ s.Done ∧ s.attempt.poll.outcome = some (.value (.i32 0))

/-- The run comes to its call, and the call returns 0. -/
def Completes (env : RunInput) (m : Machine) : Prop := ∃ s ∈ lastStage env m, s.Returns

/-! ## The pieces -/

section Pieces

variable {limit slice fuel interval : Nat} {f : Frame} {env : RunInput}

theorem Attempt.completes_iff {a : Attempt} :
    a.completes = true ↔ a.answered = true ∧ ∃ v, a.poll.outcome = some (.value v) := by
  unfold Attempt.completes
  rcases a.poll.outcome with _ | ⟨v | t | _⟩ <;> simp

/-- No future is started without fuel. -/
theorem startAsync_fuel {kind : FutureKind} {texts : StartTexts} {a : Attempt} :
    (startAsync kind texts a f).Sat (fun _ => f.ctx.fuelRemaining ≠ 0) (fun _ _ => True) := by
  unfold startAsync
  have hyield : ((prepareAsyncYield a.yieldOk f).onRet Frame.setError).Sat
      (fun _ => f.ctx.fuelRemaining ≠ 0) (fun _ _ => True) := by
    unfold prepareAsyncYield
    split
    · trivial
    · rename_i hne
      split
      · trivial
      · exact hne
  refine hyield.andThen fun f₁ hne => ?_
  cases (prepareAsyncOp kind f₁).andThen (askFuture kind texts a) with
  | next f₂ => exact hne
  | ret rc f₂ => trivial

/-- **A future is started** if there is fuel, and Wasmtime gives one. -/
theorem startAsync_polled (h : Idle limit slice fuel f) {kind : FutureKind} {texts : StartTexts}
    {a : Attempt} :
    (startAsync kind texts a f).Sat
      (fun f' => Stage.Polled ⟨kind, a, fuel⟩ ∧
        Underway limit slice (fuel - a.startBurn) (intervalOf slice fuel) kind f')
      (fun rc _ => rc = .error ∧ ¬ Stage.Polled ⟨kind, a, fuel⟩) := by
  refine ((startAsync_ends h).and startAsync_fuel).mono ?_ ?_
  · rintro f' ⟨⟨⟨hyield, hstart⟩, hunder, -⟩, hne⟩
    rw [h.remaining] at hne
    exact ⟨⟨hyield, hstart, Nat.pos_of_ne_zero hne⟩, hunder⟩
  · rintro rc f' ⟨⟨hrc, hno, -⟩, -⟩
    exact ⟨hrc, hno⟩

theorem instantiateStage_fuel (hready : f.resume.instanceReady = false)
    (hfuture : f.resume.future = none) :
    (instantiateStage env.instantiate f).Sat (fun _ => f.ctx.fuelRemaining ≠ 0)
      (fun _ _ => True) := by
  unfold instantiateStage
  rw [if_neg (by simp [hready]), if_pos (by simp [hfuture])]
  refine startAsync_fuel.andThen fun f₁ hne => ?_
  dsimp only
  generalize (if env.instantiate.poll.outcome.isNone = true then _ else _ : Piece Frame Rc) = x
  cases x with
  | next f₂ => exact hne
  | ret rc f₂ => trivial

/-- **The instantiation is done**, or the run fails or is suspended in it. -/
theorem instantiateStage_done (h : Idle limit slice fuel f)
    (hready : f.resume.instanceReady = false) :
    (instantiateStage env.instantiate f).Sat
      (fun f' => Stage.Done ⟨.instantiate, env.instantiate, fuel⟩ ∧
        f'.resume.funcReady = f.resume.funcReady ∧
        Idle limit slice (fuel - env.instantiate.burned) f')
      (fun rc _ => rc ≠ .ok ∧ ¬ Stage.Done ⟨.instantiate, env.instantiate, fuel⟩) := by
  refine ((instantiateStage_ends h hready).and (instantiateStage_fuel hready h.future)).mono ?_ ?_
  · rintro f' ⟨⟨hfunc, hcompletes, hidle⟩, hne⟩
    rw [h.remaining] at hne
    exact ⟨⟨Nat.pos_of_ne_zero hne, hcompletes⟩, hfunc, hidle⟩
  · rintro rc f' ⟨⟨rfl, rfl, -⟩ | ⟨hno, hend⟩, -⟩
    · exact ⟨nofun, fun hdone => absurd hdone.1 (Nat.lt_irrefl 0)⟩
    · refine ⟨?_, fun hdone => absurd (hno.symm.trans hdone.2) nofun⟩
      rintro rfl
      cases hend.how with
      | completed hs => exact absurd (hno.symm.trans hs) nofun

/-- The four tests let a call pass that has left no error, no trap and the value 0. -/
theorem callOutcome_ok_iff (hyielded : f.ctx.yielded = false) :
    (callOutcome f).1 = .ok ↔
      f.resume.error = false ∧ f.resume.trap = none ∧ f.resume.result = .i32 0 := by
  unfold callOutcome
  cases herr : f.resume.error with
  | true => simp
  | false =>
    rw [if_neg nofun, if_neg (by simp [hyielded])]
    cases htrap : f.resume.trap with
    | some t => simp
    | none =>
      by_cases hzero : f.resume.result = .i32 0
      · simp [hzero]
      · simp [hzero]

/-- **The poll of the call returns `NGX_OK`** if the call returns 0. -/
theorem callPoll_ok_iff
    (h : Underway limit slice (fuel - env.call.startBurn) (intervalOf slice fuel) .call f)
    (hstart : env.call.yieldOk = true ∧ env.call.start = .future) :
    (callPoll env.call.poll f).1 = .ok ↔
      env.call.answered = true ∧ env.call.poll.outcome = some (.value (.i32 0)) := by
  obtain ⟨h₂, -, -, hres⟩ := h.poll
  have hanswered : env.call.answered = env.call.poll.fuelReadOk := by
    simp [Attempt.answered, hstart]
  unfold callPoll
  cases hout : env.call.poll.outcome with
  | none =>
    simp only [Option.isNone_none, if_true]
    refine ⟨fun hok => ?_, fun h' => by cases h'.2⟩
    cases hok ▸ (pollIncomplete_ends (s := ⟨.call, env.call, fuel⟩) h₂ hstart hout).1 with
    | completed hs =>
      obtain ⟨-, v, hv⟩ := Attempt.completes_iff.mp hs
      rw [hout] at hv
      cases hv
  | some o =>
    simp only [Option.isNone_some, Bool.false_eq_true, if_false]
    have hcomplete : (pollComplete env.call.poll.fuelReadOk
        "failed to read remaining fuel after async call" (pollFuture env.call.poll f)).Sat _ _ :=
      pollComplete_ends h₂
    cases hx : pollComplete env.call.poll.fuelReadOk
        "failed to read remaining fuel after async call" (pollFuture env.call.poll f) with
    | ret rc f₃ =>
      rw [hx] at hcomplete
      obtain ⟨hrc, hread, -⟩ := hcomplete
      show rc = .ok ↔ _
      rw [hanswered, hread, hrc]
      simp
    | next f₃ =>
      rw [hx] at hcomplete
      obtain ⟨hread, h₃, hr₃, -⟩ := hcomplete
      have hr : f₃.resume = { (f.resume.burn env.call.poll.burn).complete (some o) with
          future := none, futureKind := .none } := by
        rw [hr₃, ← hout, ← hres]
        rfl
      have hkind : (f.resume.burn env.call.poll.burn).futureKind = .call := h.kind
      have herror : (f.resume.burn env.call.poll.burn).error = false := h.error
      have htrap : (f.resume.burn env.call.poll.burn).trap = none := h.trap
      show (callOutcome f₃).1 = .ok ↔ _
      rw [callOutcome_ok_iff h₃.yielded, hanswered, hread, hr]
      cases o with
      | error => simp [Resume.complete]
      | trap t => simp [Resume.complete]
      | value v =>
        have hc : (f.resume.burn env.call.poll.burn).complete (some (.value v)) =
            { f.resume.burn env.call.poll.burn with result := v } := if_pos hkind
        rw [hc]
        simp [herror, htrap]

/-- What a run polls its call with, if the last stage is `s`. -/
structure Calls (limit slice : Nat) (env : RunInput) (s : Option Stage) (f : Frame) (fuel : Nat) :
    Prop where
  stage : s = some ⟨.call, env.call, fuel⟩
  polled : Stage.Polled ⟨.call, env.call, fuel⟩
  underway : Underway limit slice (fuel - env.call.startBurn) (intervalOf slice fuel) .call f

/-- A run that ends before its call is not done, and its last stage does not return 0. -/
def Misses (s : Option Stage) (rc : Rc) : Prop := rc ≠ .ok ∧ ∀ s' ∈ s, ¬ s'.Returns

theorem misses_none : Misses none .error := ⟨nofun, nofun⟩

theorem Stage.Returns.polled {s : Stage} (h : s.Returns) : s.Polled := by
  obtain ⟨-, ⟨hfuel, hcompletes⟩, -⟩ := h
  have hanswered := (Attempt.completes_iff.mp hcompletes).1
  simp only [Attempt.answered, Bool.and_eq_true, decide_eq_true_eq] at hanswered
  exact ⟨hanswered.1.1, hanswered.1.2, hfuel⟩

/-- The export is looked up, and its call started. -/
theorem callStart_calls (h : Idle limit slice fuel f) :
    ((funcStage env.exportFound f).andThen (callStart env.call)).Sat
      (fun f' => ∃ fuel', Calls limit slice env (callStage env f.resume.funcReady fuel) f' fuel')
      (fun rc _ => Misses (callStage env f.resume.funcReady fuel) rc) := by
  have hfunc : (funcStage env.exportFound f).Sat
      (fun f' => callStage env f.resume.funcReady fuel = some ⟨.call, env.call, fuel⟩ ∧
        Idle limit slice fuel f')
      (fun rc _ => Misses (callStage env f.resume.funcReady fuel) rc) := by
    unfold funcStage callStage
    by_cases hready : f.resume.funcReady = true
    · rw [if_pos hready, if_pos (by simp [hready])]
      exact ⟨rfl, h⟩
    · rw [if_neg hready]
      cases hexport : env.exportFound with
      | false =>
        rw [if_neg (by simp [hready]), if_pos (by simp)]
        exact misses_none
      | true =>
        rw [if_pos (by simp), if_neg (by simp)]
        exact ⟨rfl, { h with }⟩
  refine hfunc.andThen fun f₁ ⟨hstage, h₁⟩ => ?_
  unfold callStart
  rw [if_pos (by simp [h₁.future])]
  refine (startAsync_polled h₁).mono
    (fun f₂ ⟨hpolled, hunder⟩ => ⟨fuel, hstage, hpolled, hunder⟩) ?_
  rintro rc f₂ ⟨rfl, hno⟩
  refine ⟨nofun, fun s hs hreturns => hno ?_⟩
  rw [hstage] at hs
  obtain rfl := Option.some.inj hs
  exact hreturns.polled

/-- **From `begin_run` to the poll of the call.** -/
theorem beginRun_calls (h : Idle limit slice fuel (beginRun f)) :
    ((instantiateStage env.instantiate (beginRun f)).andThen fun f =>
        (funcStage env.exportFound f).andThen (callStart env.call)).Sat
      (fun f' => ∃ fuel', Calls limit slice env (stageOf env f.resume fuel) f' fuel')
      (fun rc _ => Misses (stageOf env f.resume fuel) rc) := by
  unfold stageOf
  by_cases hready : f.resume.instanceReady = true
  · have hbegun : (beginRun f).resume.instanceReady = true := hready
    have hskip : instantiateStage env.instantiate (beginRun f) = .next (beginRun f) := by
      unfold instantiateStage
      rw [if_pos hbegun]
    rw [if_pos hready, hskip]
    exact callStart_calls h
  · rw [if_neg hready]
    refine ((instantiateStage_done h (Bool.eq_false_iff.mpr hready)).mono (fun _ h' => h')
      ?_).andThen fun f₁ ⟨hdone, hfunc, hidle⟩ => ?_
    · rintro rc f₁ ⟨hrc, hno⟩
      refine ⟨hrc, fun s hs ⟨hkind, ⟨hfuel, _⟩, _⟩ => ?_⟩
      split at hs
      · -- the instance would have been made, so that the fuel was gone before
        rename_i hcompletes
        refine hno ⟨?_, hcompletes⟩
        unfold callStage at hs
        split at hs
        · obtain rfl := Option.some.inj hs
          have hleft : 0 < fuel - env.instantiate.burned := hfuel
          show 0 < fuel
          omega
        · cases hs
      · obtain rfl := Option.some.inj hs
        cases hkind
    · have hfunc : f₁.resume.funcReady = f.resume.funcReady := hfunc
      rw [if_pos hdone.2, ← hfunc]
      exact callStart_calls hidle

end Pieces

/-! ## A run -/

section Run

variable {limit slice : Nat} {m : Machine} {env : RunInput}

/-- The stages of a run, up to the poll of its call. -/
theorem Rests.stages_calls (h : Rests limit slice m) (hadmitted : admitted env m = true) :
    (stages env ⟨m.ctx, m.resumeState.getD {}, m.nextId, m.trace⟩).Sat
      (fun f => ∃ fuel, Calls limit slice env (lastStage env m) f fuel)
      (fun rc _ => Misses (lastStage env m) rc) := by
  refine (h.prepareStore.mono (fun _ h' => h') ?_).andThen fun f ⟨hstore, hidle, hready⟩ => ?_
  · rintro rc f ⟨hno, rfl⟩
    have hlast : lastStage env m = none := by
      unfold lastStage served
      rw [hadmitted, hno]
      rfl
    rw [hlast]
    exact misses_none
  · have hlast : lastStage env m = stageOf env f.resume m.ctx.fuelRemaining := by
      unfold lastStage served
      rw [hadmitted, hstore, stageOf_sameReady hready]
      rfl
    rw [hlast]
    exact beginRun_calls hidle

/-- **A run returns `NGX_OK` exactly if it comes to its call and the call returns 0.** -/
theorem Rests.run_ok_iff (h : Rests limit slice m) :
    (run env m).1 = .ok ↔ Completes env m := by
  show (runUnlogged env m).1 = .ok ↔ _
  unfold Completes
  rcases runUnlogged_cases env m with ⟨hadmitted, f, rfl, hrun⟩ | ⟨hno, hrc, -⟩
  · rw [hrun]
    have hcalls := h.stages_calls hadmitted
    cases hx : stages env ⟨m.ctx, m.resumeState.getD {}, m.nextId, m.trace⟩ with
    | ret rc f =>
      rw [hx] at hcalls
      exact ⟨fun hok => absurd hok hcalls.1, fun ⟨s, hs, hr⟩ => absurd hr (hcalls.2 s hs)⟩
    | next f =>
      rw [hx] at hcalls
      obtain ⟨fuel, hlast, hpolled, hunder⟩ := hcalls
      refine (callPoll_ok_iff hunder ⟨hpolled.1, hpolled.2.1⟩).trans ⟨fun ⟨ha, hv⟩ => ?_, ?_⟩
      · exact ⟨_, hlast, rfl, ⟨hpolled.2.2, Attempt.completes_iff.mpr ⟨ha, _, hv⟩⟩, hv⟩
      · rintro ⟨s, hs, -, ⟨-, hcompletes⟩, hv⟩
        rw [hlast] at hs
        obtain rfl := Option.some.inj hs
        exact ⟨(Attempt.completes_iff.mp hcompletes).1, hv⟩
  · rw [hrc]
    unfold lastStage served
    rw [hno]
    exact ⟨nofun, fun ⟨_, hs, _⟩ => nomatch hs⟩

/-- A run that is done has polled its call. -/
theorem Rests.callFrame_of_ok (h : Rests limit slice m) (hok : (run env m).1 = .ok) :
    (callFrame env m).isSome = true := by
  have hok : (runUnlogged env m).1 = .ok := hok
  unfold callFrame
  rcases runUnlogged_cases env m with ⟨hadmitted, f, rfl, hrun⟩ | ⟨-, hrc, -⟩
  · rw [if_pos hadmitted]
    have hcalls := h.stages_calls hadmitted
    rw [hrun] at hok
    cases hx : stages env ⟨m.ctx, m.resumeState.getD {}, m.nextId, m.trace⟩ with
    | ret rc f =>
      rw [hx] at hcalls hok
      exact absurd hok hcalls.1
    | next f => rfl
  · exact absurd (hok.symm.trans hrc) nofun

end Run

end NgxWasm.Runtime
