import NgxWasm.Runtime.Failure
import NgxWasm.Runtime.Fuel

/-!
# The stage a run ends in

In a phase without capabilities no import suspends a run, so that a run ends in one stage, the
instantiation or the call (`lastStage`), and `Stage.End` says how it may end there: the fuel is
exhausted, Wasmtime fails, the guest traps or returns another value than 0, its future is incomplete
with fuel left, or it is done. `Kept` is the account that every piece of the run carries: the
settings of the context, and the fuel burned and left.

`lastStage` is read off the context before the run and the answers of Wasmtime, without running
anything. So a statement about it is one about the inputs of a run, and the theorems here say that
the run comes to what it says.

* `instantiateStage_ends`, `callStart_ends`, `callOutcome_ends`: how each stage ends.
* `beginRun_ends`: how a run ends, from `begin_run` on.
* `Rests.run_ends`: the same for a context whose earlier runs are done, and `Rests.run_ok`: it can be
  run again after one more of these.
* `Rests.run_again_iff`: the run is suspended exactly if its last stage is.

Contexts whose earlier runs were suspended are left out: the hooks of these phases do not run them
again. `Runtime.Timeslice` and `Runtime.Completion` build on this.
-/

namespace NgxWasm.Runtime

open Lib

/-! ## The stage a run ends in -/

namespace Attempt

variable (a : Attempt)

/-- The fuel burned from the start of the future to the end of its poll. -/
def burned : Nat := a.startBurn + a.poll.burn

/-- Wasmtime gives a future, and the fuel can be read after its poll. -/
def answered : Bool := a.yieldOk && a.start = .future && a.poll.fuelReadOk

/-- The stage is done: its future has completed with a value. -/
def completes : Bool :=
  a.answered && match a.poll.outcome with
    | some (.value _) => true
    | some (.trap _) | some .error | none => false

/-- Wasmtime refuses, or reports an error that is no trap. -/
inductive Failed : Prop
  | interval (h : a.yieldOk = false)
  | startError (h : a.start = .error)
  | startNull (h : a.start = .null)
  | unread (h : a.poll.fuelReadOk = false)
  | error (h : a.poll.outcome = some .error)

/-- The guest traps. -/
inductive Trapped : Prop
  | start {t : Trap} (h : a.start = .trap t)
  | poll {t : Trap} (h : a.poll.outcome = some (.trap t))

end Attempt

/-- A stage a run comes to: the instantiation or the call, what Wasmtime answers in it, and the fuel
it starts with. -/
structure Stage where
  kind : FutureKind
  attempt : Attempt
  fuel : Nat
  deriving Repr

/-- The run has a store with its fuel in it. -/
def served (env : RunInput) (m : Machine) : Bool :=
  admitted env m &&
    (m.resumeState.isSome || (env.storeNewOk && (m.ctx.fuelLimit = 0 || env.setFuelOk)))

/-- The call, if the export is there. -/
def callStage (env : RunInput) (funcReady : Bool) (fuel : Nat) : Option Stage :=
  if funcReady || env.exportFound then some ⟨.call, env.call, fuel⟩ else none

/-- The stage a run ends in that finds `r`, with no future alive: the call once the instance is made,
or the instantiation. There is none without the export. -/
def stageOf (env : RunInput) (r : Resume) (fuel : Nat) : Option Stage :=
  if r.instanceReady then callStage env r.funcReady fuel
  else if env.instantiate.completes then
    callStage env r.funcReady (fuel - env.instantiate.burned)
  else some ⟨.instantiate, env.instantiate, fuel⟩

/-- The stage the run ends in, if it comes to one. -/
def lastStage (env : RunInput) (m : Machine) : Option Stage :=
  if served env m then stageOf env (m.resumeState.getD {}) m.ctx.fuelRemaining else none

/-- The stage is suspended: its future is incomplete, and fuel is left. -/
def Stage.Suspends (s : Stage) : Prop :=
  s.attempt.answered = true ∧ s.attempt.poll.outcome = none ∧ s.attempt.burned < s.fuel

/-- The future of the stage is started, so that it is polled. -/
def Stage.Polled (s : Stage) : Prop :=
  s.attempt.yieldOk = true ∧ s.attempt.start = .future ∧ 0 < s.fuel

/-- The yield interval set last. -/
def intervalSet : List Event → Nat
  | [] => 0
  | .yieldInterval interval :: _ => interval
  | _ :: t => intervalSet t

/-- A timeslice, or the fuel if that is not more. -/
def intervalOf (slice fuel : Nat) : Nat := if 0 < slice ∧ slice < fuel then slice else fuel

/-- How a run may end in the stage `s`. -/
inductive Stage.End (limit : Nat) (s : Stage) : Rc → Frame → Prop
  | exhausted {f : Frame} (hs : s.fuel ≤ s.attempt.burned) (h : burned f.trace = limit) :
      End limit s .error f
  | failed {f : Frame} (h : s.attempt.Failed) : End limit s .error f
  | trapped {f : Frame} (h : s.attempt.Trapped) : End limit s .error f
  | nonzero {f : Frame} {v : Val} (h : s.attempt.poll.outcome = some (.value v))
      (hv : v ≠ .i32 0) (hk : s.kind = .call) : End limit s .error f
  | suspended {f : Frame} (hs : s.Suspends) (h : burned f.trace < limit) : End limit s .again f
  | completed {f : Frame} (hs : s.attempt.completes = true) : End limit s .ok f

/-! ## The pieces of the run -/

/-- The settings of the context, which no run changes, and the account of its fuel. -/
structure Kept (limit slice fuel : Nat) (f : Frame) : Prop where
  phase : capabilities f.ctx.phaseKind = []
  fuelLimit : f.ctx.fuelLimit = limit
  timesliceFuel : f.ctx.timesliceFuel = slice
  yielded : f.ctx.yielded = false
  store : f.resume.store.isSome = true
  storeFuel : f.storeFuel = fuel
  balance : burned f.trace + fuel = limit

/-- No future is alive, and the context knows how much fuel the store has. -/
structure Idle (limit slice fuel : Nat) (f : Frame) : Prop extends Kept limit slice fuel f where
  future : f.resume.future = none
  kind : f.resume.futureKind = .none
  remaining : f.ctx.fuelRemaining = fuel

/-- A future of this kind is alive with this interval, and has left nothing in the outputs yet. -/
structure Underway (limit slice fuel interval : Nat) (kind : FutureKind) (f : Frame) : Prop
    extends Kept limit slice fuel f where
  interval : intervalSet f.trace = interval
  kind : f.resume.futureKind = kind
  trap : f.resume.trap = none
  error : f.resume.error = false

/-- The flags of the resume state are as they were. -/
def SameReady (f f' : Frame) : Prop :=
  f'.resume.instanceReady = f.resume.instanceReady ∧ f'.resume.funcReady = f.resume.funcReady

section Pieces

variable {limit slice fuel interval : Nat} {f : Frame}

/-- Without capabilities the imports leave the context alone. -/
theorem hostCalls_eq (h : capabilities f.ctx.phaseKind = []) (cs : List HostCall) :
    cs.foldl hostCall f = f := by
  induction cs with
  | nil => rfl
  | cons c cs ih =>
    have hc : hostCall f c = f := by
      cases c with
      | yield | subreq rc => simp [hostCall, h]
      | other => rfl
    rw [List.foldl_cons, hc, ih]

/-- An event that burns nothing goes on record. -/
theorem Kept.emit (h : Kept limit slice fuel f) {e : Event} (he : ∀ n, e ≠ .burn n) :
    Kept limit slice fuel (f.emit e) := by
  refine { h with balance := ?_ }
  have hb : burned (e :: f.trace) = burned f.trace := by
    cases e <;> first | rfl | exact absurd rfl (he _)
  show burned (e :: f.trace) + fuel = limit
  rw [hb]
  exact h.balance

theorem Kept.burn (h : Kept limit slice fuel f) (n : Nat) :
    Kept limit slice (fuel - n) (f.burn n) := by
  refine { h with store := ?_, storeFuel := ?_, balance := ?_ }
  · show ((f.resume.burn n).store).isSome = true
    rw [Resume.burn, Option.isSome_map]
    exact h.store
  · show (f.resume.burn n).storeFuel = fuel - n
    rw [Resume.burn_storeFuel]
    exact congrArg (· - n) h.storeFuel
  · have hb := h.balance
    show min n f.storeFuel + burned f.trace + (fuel - n) = limit
    rw [h.storeFuel]
    omega

/-- The trace, the context and the store carry it. -/
theorem Kept.congr (h : Kept limit slice fuel f) {f' : Frame} (hc : f'.ctx = f.ctx)
    (hs : f'.resume.store = f.resume.store) (ht : f'.trace = f.trace) :
    Kept limit slice fuel f' := by
  refine ⟨hc ▸ h.phase, hc ▸ h.fuelLimit, hc ▸ h.timesliceFuel, hc ▸ h.yielded, hs ▸ h.store, ?_,
    ht ▸ h.balance⟩
  rw [Frame.storeFuel, Resume.storeFuel, hs]
  exact h.storeFuel

/-- The interval can be set while there is fuel. -/
theorem prepareAsyncYield_ends (h : Idle limit slice fuel f) {kind : FutureKind} {a : Attempt} :
    ((prepareAsyncYield a.yieldOk f).onRet Frame.setError).Sat
      (fun f' => a.yieldOk = true ∧ Idle limit slice fuel f' ∧ f'.resume = f.resume ∧
        intervalSet f'.trace = intervalOf slice fuel)
      (fun rc f' => rc = .error ∧ ¬ Stage.Polled ⟨kind, a, fuel⟩ ∧
        ((fuel = 0 ∧ burned f'.trace = limit) ∨ a.Failed ∨ a.Trapped)) := by
  unfold prepareAsyncYield
  split
  · rename_i hzero
    have hfuel : fuel = 0 := h.remaining.symm.trans hzero
    have hb := h.balance
    rw [hfuel] at hb
    exact ⟨rfl, fun hp => absurd hp.2.2 (by simp [hfuel]), Or.inl ⟨hfuel, hb⟩⟩
  · split
    · rename_i hno
      have hno : a.yieldOk = false := by simpa using hno
      exact ⟨rfl, fun hp => absurd (hno.symm.trans hp.1) nofun, Or.inr (Or.inl (.interval hno))⟩
    · rename_i hyes
      refine ⟨by simpa using hyes, { h with toKept := h.toKept.emit nofun }, rfl, ?_⟩
      show yieldInterval f.ctx = intervalOf slice fuel
      unfold yieldInterval intervalOf
      rw [h.timesliceFuel, h.remaining]

/-- With no future alive the consistency checks pass, and the outputs are cleared. -/
theorem prepareAsyncOp_idle (h : Idle limit slice fuel f) (hi : intervalSet f.trace = interval)
    (kind : FutureKind) :
    ∃ f', prepareAsyncOp kind f = .next f' ∧ Underway limit slice fuel interval kind f' ∧
      SameReady f f' := by
  unfold prepareAsyncOp
  rw [if_neg (by simp [h.future, h.kind]), if_neg (by simp [h.future])]
  exact ⟨_, rfl, ⟨h.toKept.congr rfl rfl rfl, hi, rfl, rfl, rfl⟩, rfl, rfl⟩

theorem askFuture_ends {kind : FutureKind} (h : Underway limit slice fuel interval kind f)
    {texts : StartTexts} {a : Attempt} :
    (askFuture kind texts a f).Sat
      (fun f' => a.start = .future ∧
        Underway limit slice (fuel - a.startBurn) interval kind f' ∧ SameReady f f')
      (fun rc _ => rc = .error ∧ a.start ≠ .future ∧ (a.Failed ∨ a.Trapped)) := by
  have hasked := (h.toKept.emit (e := .start kind (f.resume.store.map Store.id)
    f.ctx.fuelRemaining f.storeFuel) nofun).burn a.startBurn
  unfold askFuture
  cases hstart : a.start with
  | future => exact ⟨rfl, ⟨{ hasked with }, h.interval, h.kind, h.trap, h.error⟩, rfl, rfl⟩
  | error => exact ⟨rfl, nofun, Or.inl (.startError hstart)⟩
  | trap t => exact ⟨rfl, nofun, Or.inr (.start hstart)⟩
  | null => exact ⟨rfl, nofun, Or.inl (.startNull hstart)⟩

/-- A future is started, or there is no fuel for it, or Wasmtime gives none. -/
theorem startAsync_ends (h : Idle limit slice fuel f) {kind : FutureKind} {texts : StartTexts}
    {a : Attempt} :
    (startAsync kind texts a f).Sat
      (fun f' => (a.yieldOk = true ∧ a.start = .future) ∧
        Underway limit slice (fuel - a.startBurn) (intervalOf slice fuel) kind f' ∧ SameReady f f')
      (fun rc f' => rc = .error ∧ ¬ Stage.Polled ⟨kind, a, fuel⟩ ∧
        ((fuel = 0 ∧ burned f'.trace = limit) ∨ a.Failed ∨ a.Trapped)) := by
  unfold startAsync
  refine (prepareAsyncYield_ends h).andThen fun f₁ ⟨hok, h₁, hr₁, hi₁⟩ => ?_
  obtain ⟨f₂, hop, h₂, hr₂⟩ := prepareAsyncOp_idle h₁ hi₁ kind
  rw [hop]
  refine (askFuture_ends h₂).mono (fun f₃ ⟨hstart, h₃, hr₃⟩ => ⟨⟨hok, hstart⟩, h₃, ?_⟩) ?_
  · exact ⟨by rw [hr₃.1, hr₂.1, hr₁], by rw [hr₃.2, hr₂.2, hr₁]⟩
  · rintro rc f' ⟨hrc, hstart, hno⟩
    exact ⟨hrc, fun hp => hstart hp.2.1, Or.inr hno⟩

/-- The poll burns, and leaves what has come in in the outputs. -/
theorem Underway.poll {kind : FutureKind} {a : Attempt}
    (h : Underway limit slice (fuel - a.startBurn) interval kind f) :
    Kept limit slice (fuel - a.burned) (pollFuture a.poll f) ∧
      intervalSet (pollFuture a.poll f).trace = interval ∧ SameReady f (pollFuture a.poll f) ∧
      (pollFuture a.poll f).resume = (f.resume.burn a.poll.burn).complete a.poll.outcome := by
  have hresume := pollFuture_complete a.poll f
  obtain ⟨result, trap, error, hc⟩ := (f.resume.burn a.poll.burn).complete_eq a.poll.outcome
  have hburn : Kept limit slice (fuel - a.burned) (f.burn a.poll.burn) := by
    have := h.toKept.burn a.poll.burn
    rwa [Nat.sub_sub] at this
  have hsame : pollFuture a.poll f = { f.burn a.poll.burn with
      resume := (f.burn a.poll.burn).resume.complete a.poll.outcome } := by
    simp only [pollFuture, hostCalls_eq h.phase]
  refine ⟨?_, ?_, ?_, hresume⟩
  · rw [hsame]
    exact hburn.congr rfl (Resume.complete_store _ _) rfl
  · rw [hsame]
    exact h.interval
  · rw [SameReady, hresume, hc]
    exact ⟨rfl, rfl⟩

/-- The fuel is read: the context knows again what the store has. -/
theorem updateFuel_ends (h : Kept limit slice fuel f) {readOk : Bool} {text : String} :
    ((updateFuel readOk text f).onRet Frame.setError).Sat
      (fun f' => readOk = true ∧ Kept limit slice fuel f' ∧ f'.ctx.fuelRemaining = fuel ∧
        f'.resume = f.resume ∧ f'.trace = f.trace)
      (fun rc f' => rc = .error ∧ readOk = false ∧
        intervalSet f'.trace = intervalSet f.trace) := by
  unfold updateFuel
  cases readOk with
  | false => exact ⟨rfl, rfl, rfl⟩
  | true => exact ⟨rfl, { h with }, h.storeFuel, rfl, rfl⟩

/-- **A future that is not complete** ends the run: suspended if there is fuel left. -/
theorem pollIncomplete_ends {s : Stage} (h : Kept limit slice (s.fuel - s.attempt.burned) f)
    (hstart : s.attempt.yieldOk = true ∧ s.attempt.start = .future)
    (hout : s.attempt.poll.outcome = none) {fuelText terminalText reason : String} :
    s.End limit
        (pollIncomplete s.attempt.poll.fuelReadOk fuelText terminalText reason f).1
        (pollIncomplete s.attempt.poll.fuelReadOk fuelText terminalText reason f).2 ∧
      intervalSet (pollIncomplete s.attempt.poll.fuelReadOk fuelText terminalText reason f).2.trace =
        intervalSet f.trace := by
  have hfuel : ((updateFuel s.attempt.poll.fuelReadOk fuelText f).onRet Frame.setError).Sat
      (fun f' => s.attempt.poll.fuelReadOk = true ∧
        Kept limit slice (s.fuel - s.attempt.burned) f' ∧
        f'.ctx.fuelRemaining = s.fuel - s.attempt.burned ∧ f'.trace = f.trace)
      (fun rc f' => s.End limit rc f' ∧ intervalSet f'.trace = intervalSet f.trace) := by
    refine (updateFuel_ends h).mono (fun _ ⟨hr, hk, hf, _, ht⟩ => ⟨hr, hk, hf, ht⟩) ?_
    rintro rc f' ⟨rfl, hno, hi⟩
    exact ⟨.failed (.unread hno), hi⟩
  unfold pollIncomplete
  refine hfuel.finish fun f₁ ⟨hread, h₁, hrem, ht⟩ => ?_
  have hb := h₁.balance
  have hi : intervalSet f₁.trace = intervalSet f.trace := congrArg _ ht
  by_cases hzero : f₁.ctx.fuelRemaining = 0
  · rw [if_pos hzero]
    refine ⟨.exhausted (by omega) ?_, hi⟩
    show burned f₁.trace = limit
    omega
  · rw [if_neg hzero]
    refine ⟨.suspended ⟨?_, hout, by omega⟩ ?_, hi⟩
    · simp [Attempt.answered, hstart, hread]
    · show burned f₁.trace < limit
      omega

/-- A future that is complete is deleted. -/
theorem pollComplete_ends (h : Kept limit slice fuel f) {readOk : Bool} {text : String} :
    (pollComplete readOk text f).Sat
      (fun f' => readOk = true ∧ Idle limit slice fuel f' ∧
        f'.resume = (clearAsyncFuture f).resume ∧ intervalSet f'.trace = intervalSet f.trace)
      (fun rc f' => rc = .error ∧ readOk = false ∧
        intervalSet f'.trace = intervalSet f.trace) := by
  have hclear : Kept limit slice fuel (clearAsyncFuture f) ∧
      intervalSet (clearAsyncFuture f).trace = intervalSet f.trace := by
    unfold clearAsyncFuture
    cases f.resume.future with
    | none => exact ⟨h.congr rfl rfl rfl, rfl⟩
    | some id => exact ⟨(h.emit (e := .futureDelete id) nofun).congr rfl rfl rfl, rfl⟩
  refine (updateFuel_ends hclear.1).mono (fun f' ⟨hr, hk, hf, hres, ht⟩ => ?_) ?_
  · refine ⟨hr, ⟨hk, ?_, ?_, hf⟩, hres, (congrArg _ ht).trans hclear.2⟩
    · rw [hres]
      rfl
    · rw [hres]
      rfl
  · rintro rc f' ⟨hrc, hno, hi⟩
    exact ⟨hrc, hno, hi.trans hclear.2⟩

end Pieces

/-! ## The stages -/

theorem Attempt.Failed.not_completes {a : Attempt} (h : a.Failed) : a.completes = false := by
  unfold Attempt.completes Attempt.answered
  cases h with
  | interval h | startError h | startNull h | unread h | error h => simp [h]

theorem Attempt.Trapped.not_completes {a : Attempt} (h : a.Trapped) : a.completes = false := by
  unfold Attempt.completes Attempt.answered
  cases h with
  | start h | poll h => simp [h]

/-- What a run returns that ends in the stage `s`; `NGX_OK` leaves an account that the next run starts
with. -/
structure Ended (limit slice : Nat) (s : Stage) (rc : Rc) (f : Frame) : Prop where
  how : s.End limit rc f
  rests : rc = .ok → ∃ fuel, Idle limit slice fuel f
  interval : s.Polled → intervalSet f.trace = intervalOf slice s.fuel

/-- What a run returns whose last stage is this one, if there is one. -/
def EndedIn (limit slice : Nat) : Option Stage → Rc → Frame → Prop
  | none, rc, _ => rc = .error
  | some s, rc, f => Ended limit slice s rc f

section Stages

variable {limit slice fuel : Nat} {f : Frame} {env : RunInput}

/-- A stage that is not done ends the run. -/
theorem Stage.End.ended {s : Stage} {rc : Rc} (h : s.End limit rc f)
    (hno : s.attempt.completes = false)
    (hi : s.Polled → intervalSet f.trace = intervalOf slice s.fuel) : Ended limit slice s rc f := by
  refine ⟨h, ?_, hi⟩
  rintro rfl
  cases h with
  | completed hs => exact absurd (hno.symm.trans hs) nofun

/-- The instantiation is done, or the run ends in it. -/
theorem instantiateStage_ends (h : Idle limit slice fuel f)
    (hready : f.resume.instanceReady = false) :
    (instantiateStage env.instantiate f).Sat
      (fun f' => f'.resume.funcReady = f.resume.funcReady ∧
        env.instantiate.completes = true ∧ Idle limit slice (fuel - env.instantiate.burned) f')
      (fun rc f' => (rc = .error ∧ fuel = 0 ∧ burned f'.trace = limit) ∨
        (env.instantiate.completes = false ∧
          Ended limit slice ⟨.instantiate, env.instantiate, fuel⟩ rc f')) := by
  unfold instantiateStage
  rw [if_neg (by simp [hready]), if_pos (by simp [h.future])]
  refine (startAsync_ends h).mono (fun _ h' => h') ?_ |>.andThen
    fun f₁ ⟨hstart, h₁, hr₁⟩ => ?_
  · rintro rc f' ⟨rfl, hno, hdry | hfailed | htrapped⟩
    · exact Or.inl ⟨rfl, hdry⟩
    · exact Or.inr ⟨hfailed.not_completes, .failed hfailed, nofun, fun hp => absurd hp hno⟩
    · exact Or.inr ⟨htrapped.not_completes, .trapped htrapped, nofun, fun hp => absurd hp hno⟩
  obtain ⟨h₂, hi₂, hr₂, hres⟩ := h₁.poll
  cases hout : env.instantiate.poll.outcome with
  | none =>
    simp only [Option.isNone_none, if_true]
    have hno : env.instantiate.completes = false := by simp [Attempt.completes, hout]
    obtain ⟨hend, hi⟩ := pollIncomplete_ends (s := ⟨.instantiate, env.instantiate, fuel⟩) h₂ hstart
      hout
    exact Or.inr ⟨hno, hend.ended hno fun _ => hi.trans hi₂⟩
  | some o =>
    simp only [Option.isNone_some, Bool.false_eq_true, if_false]
    refine (pollComplete_ends h₂).mono (fun _ h' => h') ?_ |>.andThen
      fun f₃ ⟨hread, h₃, hr₃, hi₃⟩ => ?_
    · rintro rc f' ⟨rfl, hno, hi⟩
      have hfailed : env.instantiate.Failed := .unread hno
      exact Or.inr ⟨hfailed.not_completes, .failed hfailed, nofun, fun _ => hi.trans hi₂⟩
    have hout₃ : f₃.resume.error = ((f₁.resume.burn env.instantiate.poll.burn).complete o).error ∧
        f₃.resume.trap = ((f₁.resume.burn env.instantiate.poll.burn).complete o).trap := by
      rw [hr₃, ← hout, ← hres]
      exact ⟨rfl, rfl⟩
    cases o with
    | error =>
      have hfailed : env.instantiate.Failed := .error hout
      have herr : f₃.resume.error = true := hout₃.1
      rw [if_pos herr]
      exact Or.inr ⟨hfailed.not_completes, .failed hfailed, nofun, fun _ => hi₃.trans hi₂⟩
    | trap t =>
      have htrapped : env.instantiate.Trapped := .poll hout
      have herr : f₃.resume.error = false := hout₃.1.trans h₁.error
      have htrap : f₃.resume.trap = some t := hout₃.2
      rw [if_neg (by simp [herr]), if_pos (by simp [htrap])]
      exact Or.inr ⟨htrapped.not_completes, .trapped htrapped, nofun, fun _ => hi₃.trans hi₂⟩
    | value v =>
      have hkind : (f₁.resume.burn env.instantiate.poll.burn).complete (some (.value v)) =
          f₁.resume.burn env.instantiate.poll.burn := by
        simp [Resume.complete, h₁.kind]
      rw [hkind] at hout₃
      have herr : f₃.resume.error = false := hout₃.1.trans h₁.error
      have htrap : f₃.resume.trap = none := hout₃.2.trans h₁.trap
      rw [if_neg (by simp [herr]), if_neg (by simp [htrap])]
      refine ⟨?_, by simp [Attempt.completes, Attempt.answered, hstart, hread, hout], ?_⟩
      · show f₃.resume.funcReady = f.resume.funcReady
        rw [hr₃, ← hr₁.2, ← hr₂.2]
        rfl
      · exact { h₃ with }

/-- The call is done, or the run ends in it another way; without suspending imports the outcome
decides. -/
theorem callOutcome_ends {s : Stage} (h : Idle limit slice fuel f) (hk : s.kind = .call)
    (hi : intervalSet f.trace = intervalOf slice s.fuel) (hanswered : s.attempt.answered = true)
    {o : Outcome} (hout : s.attempt.poll.outcome = some o) {r : Resume}
    (hkind : r.futureKind = .call) (herr : r.error = false) (htrap : r.trap = none)
    (hres : f.resume = { r.complete (some o) with future := none, futureKind := .none }) :
    Ended limit slice s (callOutcome f).1 (callOutcome f).2 := by
  have hne : Rc.error ≠ Rc.ok := fun h => Rc.noConfusion h
  unfold callOutcome
  cases o with
  | error =>
    rw [if_pos (by rw [hres]; rfl)]
    exact ⟨.failed (.error hout), fun h => absurd h hne, fun _ => hi⟩
  | trap t =>
    have hf : f.resume.trap = some t := by rw [hres]; rfl
    rw [if_neg (by rw [hres]; simpa [Resume.complete] using herr), if_neg (by simp [h.yielded])]
    simp only [hf]
    exact ⟨.trapped (.poll hout), fun h => absurd h hne, fun _ => hi⟩
  | value v =>
    have hc : r.complete (some (.value v)) = { r with result := v } := by
      simp [Resume.complete, hkind]
    rw [hc] at hres
    have hf : f.resume.trap = none := by rw [hres]; exact htrap
    have hv : f.resume.result = v := by rw [hres]
    rw [if_neg (by rw [hres]; simpa using herr), if_neg (by simp [h.yielded])]
    simp only [hf, hv]
    by_cases hzero : v = .i32 0
    · rw [if_neg (by simpa using hzero)]
      refine ⟨.completed ?_, fun _ => ⟨fuel, { h with }⟩, fun _ => hi⟩
      simp [Attempt.completes, hanswered, hout]
    · rw [if_pos hzero]
      exact ⟨.nonzero hout hzero hk, fun h => absurd h hne, fun _ => hi⟩

theorem callPoll_ends
    (h : Underway limit slice (fuel - env.call.startBurn) (intervalOf slice fuel) .call f)
    (hstart : env.call.yieldOk = true ∧ env.call.start = .future) :
    Ended limit slice ⟨.call, env.call, fuel⟩ (callPoll env.call.poll f).1
      (callPoll env.call.poll f).2 := by
  obtain ⟨h₂, hi₂, -, hres⟩ := h.poll
  unfold callPoll
  cases hout : env.call.poll.outcome with
  | none =>
    simp only [Option.isNone_none, if_true]
    obtain ⟨hend, hi⟩ := pollIncomplete_ends (s := ⟨.call, env.call, fuel⟩) h₂ hstart hout
    exact hend.ended (by simp [Attempt.completes, hout]) fun _ => hi.trans hi₂
  | some o =>
    simp only [Option.isNone_some, Bool.false_eq_true, if_false]
    refine ((pollComplete_ends h₂).mono (fun _ h' => h') ?_).finish
      fun f₃ ⟨hread, h₃, hr₃, hi₃⟩ => ?_
    · rintro rc f' ⟨rfl, hno, hi⟩
      exact ⟨.failed (.unread hno), nofun, fun _ => hi.trans hi₂⟩
    · refine callOutcome_ends (r := f.resume.burn env.call.poll.burn) h₃ rfl (hi₃.trans hi₂) ?_ hout
        h.kind h.error h.trap ?_
      · simp [Attempt.answered, hstart, hread]
      · rw [hr₃, ← hout, ← hres]
        rfl

/-- The export is looked up and called. -/
theorem callStart_ends (h : Idle limit slice fuel f) :
    EndedIn limit slice (callStage env f.resume.funcReady fuel)
      (((funcStage env.exportFound f).andThen (callStart env.call)).finish
        (callPoll env.call.poll)).1
      (((funcStage env.exportFound f).andThen (callStart env.call)).finish
        (callPoll env.call.poll)).2 := by
  rw [Piece.finish_andThen]
  have hfunc : (funcStage env.exportFound f).Sat
      (fun f' => (f.resume.funcReady || env.exportFound) = true ∧ Idle limit slice fuel f')
      (fun rc _ => (f.resume.funcReady || env.exportFound) = false ∧ rc = .error) := by
    unfold funcStage
    by_cases hready : f.resume.funcReady = true
    · rw [if_pos hready]
      exact ⟨by simp [hready], h⟩
    · rw [if_neg hready]
      cases hexport : env.exportFound with
      | false => exact ⟨by simpa using hready, rfl⟩
      | true => exact ⟨by simp, { h with }⟩
  refine (hfunc.mono (fun _ h' => h') ?_).finish fun f₁ ⟨hcalled, h₁⟩ => ?_
  · rintro rc f' ⟨hno, rfl⟩
    rw [callStage, if_neg (by simp [hno])]
    rfl
  rw [callStage, if_pos hcalled]
  unfold callStart
  rw [if_pos (by simp [h₁.future])]
  refine ((startAsync_ends h₁).mono (fun _ h' => h') ?_).finish
    fun f₂ ⟨hstart, h₂, _⟩ => callPoll_ends h₂ hstart
  rintro rc f' ⟨rfl, hno, ⟨hdry, hb⟩ | hfailed | htrapped⟩
  · exact ⟨.exhausted (by rw [hdry]; exact Nat.zero_le _) hb, nofun, fun hp => absurd hp hno⟩
  · exact ⟨.failed hfailed, nofun, fun hp => absurd hp hno⟩
  · exact ⟨.trapped htrapped, nofun, fun hp => absurd hp hno⟩

/-- **How a run ends**, from `begin_run` on. -/
theorem beginRun_ends (h : Idle limit slice fuel (beginRun f)) :
    EndedIn limit slice (stageOf env f.resume fuel) (runBody env f).1 (runBody env f).2 := by
  unfold runBody stageOf
  rw [Piece.finish_andThen]
  by_cases hready : f.resume.instanceReady = true
  · have hbegun : (beginRun f).resume.instanceReady = true := hready
    have hskip : instantiateStage env.instantiate (beginRun f) = .next (beginRun f) := by
      unfold instantiateStage
      rw [if_pos hbegun]
    rw [if_pos hready, hskip]
    exact callStart_ends h
  · rw [if_neg hready]
    refine ((instantiateStage_ends h (Bool.eq_false_iff.mpr hready)).mono (fun _ h' => h')
      ?_).finish fun f₁ ⟨hfunc, hcompletes, h₁⟩ => ?_
    · rintro rc f' (⟨rfl, rfl, hb⟩ | ⟨hno, hend⟩)
      · -- there was no fuel to begin with, whatever Wasmtime would have answered
        split
        · unfold callStage
          split
          · exact ⟨.exhausted (by simp) hb, nofun, fun hp => absurd hp.2.2 (by simp)⟩
          · rfl
        · exact ⟨.exhausted (Nat.zero_le _) hb, nofun, fun hp => absurd hp.2.2 (by simp)⟩
      · rw [if_neg (by simp [hno])]
        exact hend
    · rw [if_pos hcompletes]
      have hready₁ : f₁.resume.funcReady = f.resume.funcReady := hfunc
      rw [← hready₁]
      exact callStart_ends h₁

end Stages

/-! ## A run -/

/-- A context before a run: it has not run yet, or the runs before have returned `NGX_OK`. -/
inductive Rests (limit slice : Nat) (m : Machine) : Prop
  | fresh (resume : m.resumeState = none) (phase : capabilities m.ctx.phaseKind = [])
      (fuelLimit : m.ctx.fuelLimit = limit) (timesliceFuel : m.ctx.timesliceFuel = slice)
      (remaining : m.ctx.fuelRemaining = limit) (unburned : burned m.trace = 0)
  | idle {r : Resume} {fuel : Nat} (resume : m.resumeState = some r)
      (h : Idle limit slice fuel ⟨m.ctx, r, m.nextId, m.trace⟩)

section Run

variable {limit slice : Nat} {m : Machine} {env : RunInput}

/-- The store is there with its fuel, or the run ends before it has one. -/
theorem Rests.prepareStore (h : Rests limit slice m) :
    (Runtime.prepareStore env.storeNewOk env.setFuelOk
      ⟨m.ctx, m.resumeState.getD {}, m.nextId, m.trace⟩).Sat
      (fun f' => (m.resumeState.isSome ||
          (env.storeNewOk && (m.ctx.fuelLimit = 0 || env.setFuelOk))) = true ∧
        Idle limit slice m.ctx.fuelRemaining (beginRun f') ∧
        SameReady ⟨m.ctx, m.resumeState.getD {}, m.nextId, m.trace⟩ f')
      (fun rc _ => (m.resumeState.isSome ||
          (env.storeNewOk && (m.ctx.fuelLimit = 0 || env.setFuelOk))) = false ∧ rc = .error) := by
  cases h with
  | fresh resume phase fuelLimit timesliceFuel remaining unburned =>
    have hbalance : burned m.trace + limit = limit := by omega
    rw [resume, Option.getD_none]
    unfold Runtime.prepareStore
    cases hnew : env.storeNewOk with
    | false => exact ⟨rfl, rfl⟩
    | true =>
      by_cases hzero : m.ctx.fuelLimit = 0
      · simp only [Bool.not_true, Bool.false_eq_true, if_false, if_pos hzero]
        refine ⟨by simp [hzero], ⟨⟨phase, fuelLimit, timesliceFuel, rfl, rfl, ?_, ?_⟩, rfl, rfl, rfl⟩,
          rfl, rfl⟩
        · show 0 = m.ctx.fuelRemaining
          omega
        · show burned m.trace + m.ctx.fuelRemaining = limit
          omega
      · simp only [Bool.not_true, Bool.false_eq_true, if_false, if_neg hzero]
        cases hset : env.setFuelOk with
        | false => exact ⟨by simp [hzero], rfl⟩
        | true =>
          refine ⟨by simp, ⟨⟨phase, fuelLimit, timesliceFuel, rfl, rfl, ?_, ?_⟩, rfl, rfl, rfl⟩,
            rfl, rfl⟩
          · show m.ctx.fuelLimit = m.ctx.fuelRemaining
            omega
          · show burned m.trace + m.ctx.fuelRemaining = limit
            omega
  | idle resume h =>
    rename_i r fuel
    obtain ⟨store, hstore⟩ := Option.isSome_iff_exists.mp h.store
    have hs : r.store = some store := hstore
    rw [resume, Option.getD_some]
    unfold Runtime.prepareStore
    simp only [hs]
    have hrem : m.ctx.fuelRemaining = fuel := h.remaining
    rw [hrem]
    exact ⟨rfl, { h with yielded := rfl }, rfl, rfl⟩

theorem stageOf_sameReady {f f' : Frame} (h : SameReady f f') (env : RunInput) (fuel : Nat) :
    stageOf env f'.resume fuel = stageOf env f.resume fuel := by
  unfold stageOf
  rw [h.1, h.2]

/-- The run has passed its checks: the store, and then the stages. -/
theorem Rests.start_ends (h : Rests limit slice m) (hadmitted : admitted env m = true) :
    EndedIn limit slice (lastStage env m)
      ((Runtime.prepareStore env.storeNewOk env.setFuelOk
        ⟨m.ctx, m.resumeState.getD {}, m.nextId, m.trace⟩).finish (runBody env)).1
      ((Runtime.prepareStore env.storeNewOk env.setFuelOk
        ⟨m.ctx, m.resumeState.getD {}, m.nextId, m.trace⟩).finish (runBody env)).2 := by
  refine (h.prepareStore.mono (fun _ h' => h') ?_).finish fun f ⟨hstore, hf, hready⟩ => ?_
  · rintro rc f ⟨hno, rfl⟩
    have hlast : lastStage env m = none := by
      unfold lastStage served
      rw [hadmitted, hno]
      rfl
    rw [hlast]
    rfl
  · have hlast : lastStage env m = stageOf env f.resume m.ctx.fuelRemaining := by
      unfold lastStage served
      rw [hadmitted, hstore, stageOf_sameReady hready]
      rfl
    rw [hlast]
    exact beginRun_ends hf

/-- **A run of a resting context** ends without a stage, or in its last one. -/
theorem Rests.run_ends (h : Rests limit slice m) (env : RunInput) :
    (lastStage env m = none ∧ (run env m).1 = .error) ∨
    ∃ s f, lastStage env m = some s ∧ Ended limit slice s (run env m).1 f ∧
      (run env m).2 = { f.toMachine with
        trace := .ret (run env m).1 f.ctx.state f.ctx.suspendKind :: f.trace } := by
  rcases runUnlogged_cases env m with ⟨hadmitted, f, rfl, hrun⟩ | ⟨hno, hrc, -⟩
  · rw [← finish_stages] at hrun
    have hend := h.start_ends hadmitted
    have hlogged : run env m = _ := congrArg (fun r : Rc × Machine =>
      (r.1, { r.2 with trace := .ret r.1 r.2.ctx.state r.2.ctx.suspendKind :: r.2.trace })) hrun
    rw [hlogged]
    cases hlast : lastStage env m with
    | none =>
      rw [hlast] at hend
      exact Or.inl ⟨rfl, hend⟩
    | some s =>
      rw [hlast] at hend
      exact Or.inr ⟨s, _, rfl, hend, rfl⟩
  · refine Or.inl ⟨?_, hrc⟩
    unfold lastStage served
    rw [hno]
    rfl

/-- After a run that is done the context rests again. -/
theorem Rests.run_ok (h : Rests limit slice m) (hok : (run env m).1 = .ok) :
    Rests limit slice (run env m).2 := by
  rcases h.run_ends env with ⟨-, hrc⟩ | ⟨s, f, -, hend, hm⟩
  · exact absurd (hok.symm.trans hrc) nofun
  · obtain ⟨fuel, hf⟩ := hend.rests hok
    rw [hm]
    exact .idle rfl { hf with }

theorem Stage.Suspends.not_completes {s : Stage} (h : s.Suspends) :
    s.attempt.completes = false := by
  unfold Attempt.completes
  rw [h.2.1, Bool.and_false]

theorem Attempt.answered_not_failed {a : Attempt} (h : a.answered = true)
    (hout : a.poll.outcome = none) : ¬ a.Failed ∧ ¬ a.Trapped := by
  unfold Attempt.answered at h
  simp only [Bool.and_eq_true, decide_eq_true_eq] at h
  obtain ⟨⟨hyield, hstart⟩, hread⟩ := h
  constructor
  · rintro (h' | h' | h' | h' | h')
    · exact absurd (hyield.symm.trans h') nofun
    · exact absurd (hstart.symm.trans h') nofun
    · exact absurd (hstart.symm.trans h') nofun
    · exact absurd (hread.symm.trans h') nofun
    · exact absurd (hout.symm.trans h') nofun
  · rintro (h' | h')
    · exact absurd (hstart.symm.trans h') nofun
    · exact absurd (hout.symm.trans h') nofun

/-- **The run is suspended exactly if its last stage is.** -/
theorem Rests.run_again_iff (h : Rests limit slice m) :
    (run env m).1 = .again ↔ ∃ s ∈ lastStage env m, s.Suspends := by
  rcases h.run_ends env with ⟨hlast, hrc⟩ | ⟨s, f, hlast, ⟨hend, -, -⟩, -⟩
  · rw [hlast, hrc]
    constructor
    · nofun
    · rintro ⟨s, hs, -⟩
      cases hs
  · rw [hlast]
    constructor
    · intro hrc
      rw [hrc] at hend
      cases hend with
      | suspended hs => exact ⟨s, rfl, hs⟩
    · rintro ⟨s', hs', hs⟩
      obtain rfl := Option.some.inj hs'
      obtain ⟨hfailed, htrapped⟩ := Attempt.answered_not_failed hs.1 hs.2.1
      generalize (run env m).1 = rc at hend
      cases hend with
      | exhausted hspent => exact absurd hs.2.2 (by omega)
      | failed h' => exact absurd h' hfailed
      | trapped h' => exact absurd h' htrapped
      | nonzero h' => exact absurd (hs.2.1.symm.trans h') nofun
      | suspended => rfl
      | completed h' => exact absurd (hs.not_completes.symm.trans h') nofun

end Run

end NgxWasm.Runtime
