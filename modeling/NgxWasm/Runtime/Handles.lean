import NgxWasm.Lib.Ledger
import NgxWasm.Runtime.Run

/-!
# The handles of an execution context

The trace of an execution context, read as a ledger: a store or a future is acquired when Wasmtime
hands it out and released when it is deleted, and a future is started in a store. `Booked f` says
that the ledger is sound and that what is held is what the resume state points to, so a pointer is
neither overwritten nor followed after the deletion.

The ledger and its rules are those of `Lib.Ledger`; here is what each event of the trace is in it
(`Event.deal`), and that each piece of the run keeps the books. `Runtime.Futures` is about one future
at a time and the flags beside it; here it does not matter how many there are.

* `Booked.prepareStore`, `Booked.askFuture`, `Booked.clearAsyncFuture`: a store and a future are
  acquired where none is held, and a future is released with its pointer.
* `run_booked`, `cleanup_booked`: a run and the cleanup keep that, whatever Wasmtime does.
* `cleanup_settled`: after the cleanup nothing is held.

Error and trap objects, which the source deletes where it has logged them, are not in the ledger.
-/

namespace NgxWasm.Runtime

open Lib

/-- What an execution context owns. -/
inductive HandleKind where
  | store
  | future
  deriving Repr, DecidableEq

/-- What an event is in the ledger. -/
def Event.deal : Event → Option (Deal (Handle HandleKind))
  | .storeNew id => some (.acquire ⟨.store, id⟩)
  | .storeDelete id => some (.release ⟨.store, id⟩)
  | .futureNew id => some (.acquire ⟨.future, id⟩)
  | .futureDelete id => some (.release ⟨.future, id⟩)
  | .start _ (some id) _ _ => some (.use ⟨.store, id⟩)
  | _ => none

/-- The ledger of a trace. -/
def deals (t : List Event) : List (Deal (Handle HandleKind)) := t.filterMap Event.deal

/-- The handle of a kind, if there is one. -/
def handleOf (kind : HandleKind) : Option Nat → Multiset (Handle HandleKind)
  | none => 0
  | some id => {⟨kind, id⟩}

/-- The handles a resume state points to. -/
def Resume.handles (r : Resume) : Multiset (Handle HandleKind) :=
  handleOf .store (r.store.map Store.id) + handleOf .future r.future

/-- What is held is what the resume state points to. -/
def Held (r : Resume) (nextId : Nat) (t : List Event) : Prop :=
  ({ ledger := deals t, nextId := nextId } : Books HandleKind).Owns r.handles

/-- The invariant of a frame. -/
def Booked (f : Frame) : Prop := Held f.resume f.nextId f.trace

section Small

variable {f f' : Frame}

theorem Booked.congr (h : Booked f) (hr : f'.resume.handles = f.resume.handles)
    (hn : f'.nextId = f.nextId) (ht : deals f'.trace = deals f.trace) : Booked f' := by
  unfold Booked Held
  rw [hr, hn, ht]
  exact h

/-- An event that is no deal. -/
theorem Booked.emit (h : Booked f) {e : Event} (he : e.deal = none) : Booked (f.emit e) :=
  h.congr rfl rfl (List.filterMap_cons_none he)

theorem Booked.log (h : Booked f) {text : String} : Booked (f.emit (.log text)) := h.emit rfl

theorem handles_burn (r : Resume) (n : Nat) : (r.burn n).handles = r.handles := by
  unfold Resume.handles
  rw [Resume.burn_store_id]
  rfl

theorem Booked.burn (h : Booked f) (n : Nat) : Booked (f.burn n) :=
  h.congr (handles_burn f.resume n) rfl rfl

theorem Booked.hostCall (h : Booked f) (c : HostCall) : Booked (hostCall f c) := by
  cases c with
  | yield =>
    simp only [Runtime.hostCall]
    split
    · exact h.congr rfl rfl rfl
    · exact h
  | subreq rc =>
    simp only [Runtime.hostCall]
    split
    · exact h.congr rfl rfl rfl
    · exact h
  | other => exact h

theorem Booked.hostCalls (h : Booked f) (cs : List HostCall) :
    Booked (cs.foldl Runtime.hostCall f) := by
  induction cs generalizing f with
  | nil => exact h
  | cons c cs ih => exact ih (h.hostCall c)

theorem Booked.pollFuture (h : Booked f) (p : Poll) : Booked (pollFuture p f) := by
  have hpolled := (h.hostCalls p.calls).burn p.burn
  obtain ⟨result, trap, error, hr⟩ := Resume.complete_eq
    ((p.calls.foldl Runtime.hostCall f).burn p.burn).resume p.outcome
  refine hpolled.congr ?_ rfl rfl
  simp only [Runtime.pollFuture, hr]
  rfl

/-- A future is deleted, and its pointer cleared. -/
theorem Booked.clearAsyncFuture (h : Booked f) : Booked (clearAsyncFuture f) := by
  unfold Runtime.clearAsyncFuture Booked at *
  cases hfut : f.resume.future with
  | none =>
    refine Books.Owns.congr h ?_
    rw [Resume.handles, hfut]
    rfl
  | some id =>
    have hheld : f.resume.handles = ⟨.future, id⟩ ::ₘ
        ({ f.resume with future := none, futureKind := .none } : Resume).handles := by
      rw [Resume.handles, hfut, ← Multiset.singleton_add, Multiset.add_comm]
      simp [Resume.handles, handleOf]
    exact (Books.Owns.congr h hheld).release

theorem Booked.updateFuel (h : Booked f) {readOk : Bool} {text : String} :
    (updateFuel readOk text f).Sat Booked fun _ => Booked := by
  unfold Runtime.updateFuel
  split
  · exact h.log
  · exact h

theorem Booked.fail (h : Booked f) {text : String} {post : Frame → Prop} :
    (f.fail text).Sat post fun _ => Booked := Booked.log (f := f.setError) h

theorem Booked.prepareAsyncYield (h : Booked f) {intervalOk : Bool} :
    (prepareAsyncYield intervalOk f).Sat (fun f' => Booked f' ∧ f'.resume.future = f.resume.future)
      fun _ => Booked := by
  unfold Runtime.prepareAsyncYield
  split
  · exact h
  · split
    · exact h.log
    · exact ⟨h.emit rfl, rfl⟩

theorem Booked.prepareAsyncOp (h : Booked f) {kind : FutureKind} :
    (prepareAsyncOp kind f).Sat (fun f' => Booked f' ∧ f'.resume.future = f.resume.future)
      fun _ => Booked := by
  unfold Runtime.prepareAsyncOp
  split
  · exact h.fail
  · split
    · exact h.fail
    · exact ⟨h.congr rfl rfl rfl, rfl⟩

/-- A future is started where the pointer to it is free. -/
theorem Booked.askFuture (h : Booked f) (hnone : f.resume.future = none) {kind : FutureKind}
    {texts : StartTexts} {a : Attempt} :
    (askFuture kind texts a f).Sat Booked fun _ => Booked := by
  have hstarted : Booked ((f.emit (.start kind (f.resume.store.map Store.id) f.ctx.fuelRemaining
      f.storeFuel)).burn a.startBurn) := by
    refine Booked.burn ?_ a.startBurn
    cases hs : f.resume.store with
    | none => exact h.emit rfl
    | some s =>
      have hmem : (⟨.store, s.id⟩ : Handle HandleKind) ∈ f.resume.handles := by
        simp [Resume.handles, hs, handleOf]
      exact Books.Owns.use h hmem
  unfold Runtime.askFuture
  cases a.start with
  | future =>
    refine Books.Owns.congr (Books.Owns.acquire hstarted .future) ?_
    have hfree : (f.resume.burn a.startBurn).future = none := hnone
    simp only [Frame.burn, Frame.emit, Resume.handles, hfree, Books.fresh, handleOf]
    rw [Multiset.add_zero, Multiset.add_comm, Multiset.singleton_add]
  | error => exact Booked.clearAsyncFuture (hstarted.congr rfl rfl rfl)
  | trap t => exact Booked.clearAsyncFuture (hstarted.congr rfl rfl rfl)
  | null => exact Booked.clearAsyncFuture (hstarted.congr rfl rfl rfl)

theorem Booked.startAsync (h : Booked f) (hnone : f.resume.future = none) {kind : FutureKind}
    {texts : StartTexts} {a : Attempt} :
    (startAsync kind texts a f).Sat Booked fun _ => Booked := by
  unfold Runtime.startAsync
  refine ((h.prepareAsyncYield).onRet (g := Frame.setError) fun _ _ h' => h').andThen
    fun f₁ ⟨h₁, hr₁⟩ => ?_
  refine h₁.prepareAsyncOp.andThen fun f₂ ⟨h₂, hr₂⟩ => ?_
  exact h₂.askFuture (hr₂.trans (hr₁.trans hnone))

theorem Booked.pollIncomplete (h : Booked f) {fuelReadOk : Bool}
    {fuelText terminalText reason : String} :
    Booked (pollIncomplete fuelReadOk fuelText terminalText reason f).2 := by
  unfold Runtime.pollIncomplete
  have hfuel : ((Runtime.updateFuel fuelReadOk fuelText f).onRet Frame.setError).Sat Booked
      fun _ => Booked := h.updateFuel.onRet fun _ _ h' => h'
  refine hfuel.finish fun f₁ h₁ => ?_
  split
  · exact Booked.log (f := f₁.setError) h₁
  · exact h₁.congr rfl rfl rfl

theorem Booked.pollComplete (h : Booked f) {fuelReadOk : Bool} {fuelText : String} :
    (pollComplete fuelReadOk fuelText f).Sat Booked fun _ => Booked :=
  h.clearAsyncFuture.updateFuel.onRet fun _ _ h' => h'

end Small

/-! ## The stages -/

section Stages

variable {f : Frame}

theorem Booked.instantiateStage (h : Booked f) {a : Attempt} :
    (instantiateStage a f).Sat Booked fun _ => Booked := by
  refine instantiateStage_sat Booked Booked (fun _ => h)
    (fun _ => start_sat (fun _ => h) fun hnone => ?_)
    (fun f₁ h₁ _ => ?_) (fun f₁ h₁ _ => ?_) (fun f₃ h₃ _ => ?_) (fun f₃ h₃ _ => ?_) fun f₃ h₃ => ?_
  · exact h.startAsync hnone
  · exact (h₁.pollFuture a.poll).pollIncomplete
  · exact (h₁.pollFuture a.poll).pollComplete
  · exact Booked.fail (f := { f₃ with resume := { f₃.resume with error := false } })
      (h₃.congr rfl rfl rfl)
  · exact Booked.fail (f := { f₃ with resume := { f₃.resume with trap := none } })
      (h₃.congr rfl rfl rfl)
  · exact h₃.congr rfl rfl rfl

theorem Booked.funcStage (h : Booked f) {exportFound : Bool} :
    (funcStage exportFound f).Sat Booked fun _ => Booked := by
  unfold Runtime.funcStage
  split
  · exact h
  · split
    · exact h.fail
    · exact h.congr rfl rfl rfl

theorem Booked.callOutcome (h : Booked f) : Booked (callOutcome f).2 := by
  unfold Runtime.callOutcome
  split
  · exact h.congr rfl rfl rfl
  · split
    · exact h.congr rfl rfl rfl
    · split
      · exact h.congr rfl rfl rfl
      · split
        · exact h.congr rfl rfl rfl
        · exact h.congr rfl rfl rfl

theorem Booked.callPoll (h : Booked f) {p : Poll} : Booked (callPoll p f).2 := by
  have hpolled := h.pollFuture p
  exact callPoll_exit (fun _ => Booked) Booked (fun _ => hpolled.pollIncomplete)
    (fun _ => hpolled.pollComplete) fun f' h' => h'.callOutcome

theorem Booked.runBody (h : Booked f) {env : RunInput} : Booked (runBody env f).2 := by
  unfold Runtime.runBody
  have hbegun : Booked (beginRun f) := h
  have hstages : ((Runtime.instantiateStage env.instantiate (beginRun f)).andThen fun f =>
      (Runtime.funcStage env.exportFound f).andThen (callStart env.call)).Sat Booked
      fun _ => Booked :=
    hbegun.instantiateStage.andThen fun f₁ h₁ =>
      h₁.funcStage.andThen fun f₂ h₂ => callStart_sat (fun _ => h₂) fun hnone => h₂.startAsync hnone
  exact hstages.finish fun f₂ h₂ => h₂.callPoll

/-- A store is created where there is none. -/
theorem Booked.prepareStore (h : Booked f) {storeNewOk setFuelOk : Bool} :
    (prepareStore storeNewOk setFuelOk f).Sat Booked fun _ => Booked := by
  unfold Runtime.prepareStore
  cases hs : f.resume.store with
  | some s => exact h
  | none =>
    dsimp only
    split
    · exact h.fail
    have hnew : Booked { f with
        resume := { f.resume with store := some ⟨f.nextId, 0⟩ }
        nextId := f.nextId + 1
        trace := .storeNew f.nextId :: f.trace } := by
      refine Books.Owns.congr (Books.Owns.acquire h .store) ?_
      simp only [Resume.handles, hs, Books.fresh, Option.map_none, Option.map_some, handleOf]
      rw [Multiset.zero_add, Multiset.singleton_add]
    split
    · exact hnew
    · split
      · exact hnew.fail
      · exact hnew.congr rfl rfl rfl

end Stages

/-! ## Runs and cleanups -/

/-- The invariant of an execution context between two calls. -/
def Machine.Booked (m : Machine) : Prop := Held (m.resumeState.getD {}) m.nextId m.trace

theorem initExecCtx_booked (runtimeReady moduleLoaded : Bool) (phaseKind : Phase)
    (fuelLimit timesliceFuel : Nat) :
    (initExecCtx runtimeReady moduleLoaded phaseKind fuelLimit timesliceFuel).Booked :=
  Books.owns_empty

/-- **A run** keeps the books. -/
theorem run_booked {env : RunInput} {m : Machine} (h : m.Booked) : (run env m).2.Booked := by
  have hunlogged : (runUnlogged env m).2.Booked := by
    unfold runUnlogged
    split
    · exact h
    · split
      · exact h
      · split
        · exact h
        · have hf : Runtime.Booked ⟨m.ctx, m.resumeState.getD {}, m.nextId, m.trace⟩ := h
          exact hf.prepareStore.finish fun f' h' => h'.runBody
  exact hunlogged

/-- **The cleanup** keeps them too. -/
theorem cleanup_booked {m : Machine} (h : m.Booked) : (cleanupExecCtx m).Booked := by
  unfold cleanupExecCtx Machine.Booked at *
  cases hr : m.resumeState with
  | none =>
    simp only [hr] at h ⊢
    exact h
  | some r =>
    simp only [hr, Option.getD_some] at h ⊢
    have hf : Runtime.Booked ⟨m.ctx, r, m.nextId, m.trace⟩ := h
    have hcleared : Runtime.Booked
        (clearAsyncOutputs (clearAsyncFuture ⟨m.ctx, r, m.nextId, m.trace⟩)) :=
      hf.clearAsyncFuture.congr rfl rfl rfl
    have hnone : (clearAsyncOutputs (clearAsyncFuture
        ⟨m.ctx, r, m.nextId, m.trace⟩)).resume.future = none := rfl
    simp only [resetResumeState]
    generalize clearAsyncOutputs (clearAsyncFuture ⟨m.ctx, r, m.nextId, m.trace⟩) = f at *
    cases hs : f.resume.store with
    | none =>
      refine Books.Owns.congr hcleared ?_
      simp [Resume.handles, handleOf, hs, hnone]
    | some s =>
      refine Books.Owns.release (Books.Owns.congr hcleared ?_)
      simp [Resume.handles, handleOf, hs, hnone]

/-- **After the cleanup nothing is held**: every store and every future of the execution context has
been deleted once, and no future was started in a store that was gone. -/
theorem cleanup_settled {m : Machine} (h : m.Booked) :
    Ledger.Sound (deals (cleanupExecCtx m).trace) ∧
      Ledger.held (deals (cleanupExecCtx m).trace) = 0 := by
  have hbooked := cleanup_booked h
  refine ⟨hbooked.sound, hbooked.held.trans ?_⟩
  unfold cleanupExecCtx
  cases hr : m.resumeState with
  | none => simp [hr, Resume.handles, handleOf]
  | some r => simp [Resume.handles, handleOf]

end NgxWasm.Runtime
