import NgxWasm.Lib.Run
import NgxWasm.Runtime.Run

/-!
# One future at a time

`liveFutures` and `liveStores` read off a trace what Wasmtime has handed out and not been given
back. `Futures r t` relates the resume state to that: the one live future is the one `r` points to,
`future_kind` says which kind it is, the ready flags fit the kind, the one live store is `r`'s, and
no start so far found a future alive or its store gone.

The invariant holds between two stages, not inside of one: `prepare_async_op` sets the kind before
there is a future. `Prepared` is what holds in between, up to the answer of Wasmtime, which may be a
future or none.

* Each stage of the run keeps the invariant whichever way it is left (`instantiateStage_futures`,
  `callStart_futures`, `callPoll_futures`), and so does the cleanup (`cleanupExecCtx_futures`).
* `futures_consistent`: it holds after any sequence of runs and cleanups, and the two consistency
  errors of `prepare_async_op` never occur.

Nothing is assumed of Wasmtime, nor of the order in which the callers run and clean up.
-/

namespace NgxWasm.Runtime

open Lib

/-- The futures created and not deleted. -/
def liveFutures : List Event → List Nat
  | [] => []
  | .futureNew id :: t => id :: liveFutures t
  | .futureDelete id :: t => (liveFutures t).erase id
  | _ :: t => liveFutures t

/-- The stores created and not deleted. -/
def liveStores : List Event → List Nat
  | [] => []
  | .storeNew id :: t => id :: liveStores t
  | .storeDelete id :: t => (liveStores t).erase id
  | _ :: t => liveStores t

/-- What the ownership rules ask of an event after the trace `t`. -/
def Proper (t : List Event) : Event → Prop
  | .start _ store _ _ => liveFutures t = [] ∧ ∃ id, store = some id ∧ id ∈ liveStores t
  | .log text => text ≠ inconsistentFuture ∧ text ≠ futureStillAlive
  | _ => True

/-- Every event was proper when it happened. -/
def AllProper : List Event → Prop
  | [] => True
  | e :: t => Proper t e ∧ AllProper t

/-- The future and the store of a resume state are the live ones, and the flags fit. -/
structure Futures (r : Resume) (t : List Event) : Prop where
  kind_iff : r.future = none ↔ r.futureKind = .none
  instantiate : r.futureKind = .instantiate → r.instanceReady = false
  call : r.futureKind = .call → r.instanceReady = true ∧ r.funcReady = true
  futures : liveFutures t = r.future.toList
  stores : liveStores t = (r.store.map Store.id).toList
  proper : AllProper t

/-- An event that neither creates nor deletes nor starts, and is no consistency error. -/
def Neutral : Event → Prop
  | .setFuel _ | .yieldInterval _ | .burn _ | .yield | .subreq | .ret .. => True
  | .log text => text ≠ inconsistentFuture ∧ text ≠ futureStillAlive
  | .storeNew _ | .storeDelete _ | .start .. | .futureNew _ | .futureDelete _ => False

instance : DecidablePred Neutral
  | .setFuel _ | .yieldInterval _ | .burn _ | .yield | .subreq | .ret .. => .isTrue trivial
  | .log text => inferInstanceAs (Decidable (text ≠ inconsistentFuture ∧ text ≠ futureStillAlive))
  | .storeNew _ | .storeDelete _ | .start .. | .futureNew _ | .futureDelete _ => .isFalse id

/-- The invariant of a frame. -/
abbrev Ok (f : Frame) : Prop := Futures f.resume f.trace

theorem Futures.neutral {r : Resume} {t : List Event} {e : Event} (h : Futures r t)
    (he : Neutral e) : Futures r (e :: t) := by
  cases e <;> first
    | exact absurd he id
    | exact ⟨h.kind_iff, h.instantiate, h.call, h.futures, h.stores, trivial, h.proper⟩
    | exact ⟨h.kind_iff, h.instantiate, h.call, h.futures, h.stores, he, h.proper⟩

/-- The outputs and the fuel of the store are no part of the invariant. -/
theorem Futures.congr {r r' : Resume} {t : List Event} (h : Futures r t)
    (hf : r'.future = r.future) (hk : r'.futureKind = r.futureKind)
    (hs : r'.store.map Store.id = r.store.map Store.id) (hi : r'.instanceReady = r.instanceReady)
    (hc : r'.funcReady = r.funcReady) : Futures r' t :=
  ⟨by rw [hf, hk]; exact h.kind_iff, by rw [hk, hi]; exact h.instantiate,
    by rw [hk, hi, hc]; exact h.call, by rw [hf]; exact h.futures, by rw [hs]; exact h.stores,
    h.proper⟩

/-! ## The small functions -/

section Small

variable {f : Frame}

theorem ok_burn (h : Ok f) (n : Nat) : Ok (f.burn n) :=
  (h.neutral (e := .burn _) trivial).congr rfl rfl (f.resume.burn_store_id n) rfl rfl

theorem clearAsyncFuture_of_none (h : f.resume.future = none) :
    (clearAsyncFuture f).resume = { f.resume with future := none, futureKind := .none } ∧
      (clearAsyncFuture f).trace = f.trace := by
  unfold clearAsyncFuture
  rw [h]
  exact ⟨rfl, rfl⟩

/-- After `clear_async_future` no future is alive. -/
theorem ok_clearAsyncFuture (h : Ok f) : Ok (clearAsyncFuture f) := by
  have hfut := h.futures
  unfold clearAsyncFuture
  cases hr : f.resume.future with
  | none =>
    rw [hr] at hfut
    exact ⟨⟨fun _ => rfl, fun _ => rfl⟩, nofun, nofun, hfut, h.stores, h.proper⟩
  | some id =>
    rw [hr] at hfut
    refine ⟨⟨fun _ => rfl, fun _ => rfl⟩, nofun, nofun, ?_, h.stores, trivial, h.proper⟩
    show (liveFutures f.trace).erase id = []
    rw [hfut]
    simp

theorem ok_hostCall (h : Ok f) (c : HostCall) : Ok (hostCall f c) := by
  cases c with
  | yield =>
    simp only [hostCall]
    split
    · exact h.neutral (e := .yield) trivial
    · exact h
  | subreq rc =>
    simp only [hostCall]
    split
    · exact h.neutral (e := .subreq) trivial
    · exact h
  | other => exact h

theorem ok_hostCalls (h : Ok f) (cs : List HostCall) : Ok (cs.foldl hostCall f) := by
  induction cs generalizing f with
  | nil => exact h
  | cons c cs ih => exact ih (ok_hostCall h c)

theorem ok_pollFuture (h : Ok f) (p : Poll) : Ok (pollFuture p f) := by
  have hb := ok_burn (ok_hostCalls h p.calls) p.burn
  obtain ⟨result, trap, error, he⟩ := pollFuture_resume p f
  unfold Ok at *
  rw [he]
  exact hb.congr (by simp [Frame.burn]) (by simp [Frame.burn]) (by simp [Frame.burn])
    (by simp [Frame.burn]) (by simp [Frame.burn])

theorem ok_updateFuel (h : Ok f) {readOk : Bool} {text : String} (ht : Neutral (.log text)) :
    (updateFuel readOk text f).Sat (fun f' => Ok f' ∧ f'.resume = f.resume) fun _ f' => Ok f' := by
  unfold updateFuel
  split
  · exact h.neutral ht
  · exact ⟨h, rfl⟩

theorem ok_fail (h : Ok f) {text : String} (ht : Neutral (.log text)) {post : Frame → Prop} :
    (f.fail text).Sat post fun _ f' => Ok f' := h.neutral ht

theorem ok_prepareAsyncYield (h : Ok f) {intervalOk : Bool} :
    (prepareAsyncYield intervalOk f).Sat (fun f' => Ok f' ∧ f'.resume = f.resume)
      fun _ f' => Ok f' := by
  unfold prepareAsyncYield
  split
  · exact h
  · split
    · exact h.neutral (e := .log _) (by decide)
    · exact ⟨h.neutral (e := .yieldInterval _) trivial, rfl⟩

end Small

/-! ## The stages -/

/-- A future of this kind may be started: the ready flags fit. -/
def Startable (r : Resume) : FutureKind → Prop
  | .none => False
  | .instantiate => r.instanceReady = false
  | .call => r.instanceReady = true ∧ r.funcReady = true

/-- Between `prepare_async_op` and the call of Wasmtime: the kind is set, the future is not. -/
structure Prepared (kind : FutureKind) (r : Resume) (t : List Event) : Prop where
  future : r.future = none
  kind_eq : r.futureKind = kind
  startable : Startable r kind
  futures : liveFutures t = []
  stores : liveStores t = (r.store.map Store.id).toList
  store : r.store.isSome = true
  proper : AllProper t

/-- Without a future alive the two checks of `prepare_async_op` pass. -/
theorem prepareAsyncOp_prepared {f : Frame} (h : Ok f) (hnone : f.resume.future = none)
    (hstore : f.resume.store.isSome = true) {kind : FutureKind}
    (hstart : Startable f.resume kind) {exit : Rc → Frame → Prop} :
    (prepareAsyncOp kind f).Sat (fun f' => Prepared kind f'.resume f'.trace ∧
      f'.resume.instanceReady = f.resume.instanceReady ∧
      f'.resume.funcReady = f.resume.funcReady) exit := by
  have hk := h.kind_iff.mp hnone
  have hfut := h.futures
  unfold prepareAsyncOp
  rw [hnone] at hfut ⊢
  rw [hk]
  refine ⟨⟨hnone, rfl, ?_, hfut, h.stores, hstore, h.proper⟩, rfl, rfl⟩
  cases kind <;> exact hstart

/-- Starting a future where none is alive gives one of this kind, or leaves none. -/
theorem askFuture_futures {kind : FutureKind} {texts : StartTexts} {a : Attempt} {f : Frame}
    (h : Prepared kind f.resume f.trace) (he : Neutral (.log texts.error))
    (ht : Neutral (.log texts.trap)) (hn : Neutral (.log texts.null)) :
    (askFuture kind texts a f).Sat (fun f' => Ok f' ∧ f'.resume.store.isSome = true ∧
      f'.resume.instanceReady = f.resume.instanceReady ∧
      f'.resume.funcReady = f.resume.funcReady) fun _ f' => Ok f' := by
  obtain ⟨s, hs⟩ := Option.isSome_iff_exists.mp h.store
  have hproper : Proper f.trace
      (.start kind (f.resume.store.map Store.id) f.ctx.fuelRemaining f.storeFuel) := by
    refine ⟨h.futures, s.id, by rw [hs]; rfl, ?_⟩
    rw [h.stores, hs]
    exact List.mem_singleton_self _
  have hstores : liveStores f.trace = ((f.resume.burn a.startBurn).store.map Store.id).toList := by
    rw [Resume.burn_store_id]
    exact h.stores
  -- every failure clears the future, which was never set
  have hfailed : ∀ text : String, Neutral (.log text) → Ok (clearAsyncFuture (((f.emit
      (.start kind (f.resume.store.map Store.id) f.ctx.fuelRemaining f.storeFuel)).burn
        a.startBurn).setError.emit (.log text))) := by
    intro text htext
    obtain ⟨hr, htr⟩ := clearAsyncFuture_of_none (f := ((f.emit (.start kind
      (f.resume.store.map Store.id) f.ctx.fuelRemaining f.storeFuel)).burn
        a.startBurn).setError.emit (.log text)) h.future
    unfold Ok
    rw [hr, htr]
    exact ⟨⟨fun _ => rfl, fun _ => rfl⟩, nofun, nofun, h.futures, hstores, htext, trivial, hproper,
      h.proper⟩
  unfold askFuture
  cases a.start with
  | future =>
    have hkind : kind ≠ .none := fun hk => by
      have := h.startable
      rw [hk] at this
      exact this
    refine ⟨⟨⟨nofun, fun hk => absurd (h.kind_eq.symm.trans hk) hkind⟩, fun hk => ?_, fun hk => ?_,
      ?_, hstores, trivial, trivial, hproper, h.proper⟩, ?_, rfl, rfl⟩
    · have := h.startable
      rw [h.kind_eq.symm.trans hk] at this
      exact this
    · have := h.startable
      rw [h.kind_eq.symm.trans hk] at this
      exact this
    · show _ :: liveFutures f.trace = _
      rw [h.futures]
      rfl
    · show (f.resume.burn a.startBurn).store.isSome = true
      rw [Resume.burn, hs]
      rfl
  | error => exact hfailed _ he
  | trap t => exact hfailed _ ht
  | null => exact hfailed _ hn

theorem startAsync_futures {kind : FutureKind} {texts : StartTexts} {a : Attempt} {f : Frame}
    (h : Ok f) (hnone : f.resume.future = none) (hstore : f.resume.store.isSome = true)
    (hstart : Startable f.resume kind) (he : Neutral (.log texts.error))
    (ht : Neutral (.log texts.trap)) (hn : Neutral (.log texts.null)) :
    (startAsync kind texts a f).Sat (fun f' => Ok f' ∧ f'.resume.store.isSome = true ∧
      f'.resume.instanceReady = f.resume.instanceReady ∧
      f'.resume.funcReady = f.resume.funcReady) fun _ f' => Ok f' := by
  unfold startAsync
  refine ((ok_prepareAsyncYield h).onRet (g := Frame.setError) fun _ _ h' => h').andThen
    fun f₁ ⟨h₁, hr₁⟩ => ?_
  rw [← hr₁] at hnone hstore hstart ⊢
  refine (prepareAsyncOp_prepared h₁ hnone hstore hstart).andThen fun f₂ ⟨h₂, hi, hf⟩ => ?_
  rw [← hi, ← hf]
  exact askFuture_futures h₂ he ht hn

/-- Where no future is alive the ready flags are free to change. -/
theorem Futures.idle {r r' : Resume} {t : List Event} (h : Futures r t) (hnone : r.future = none)
    (hf : r'.future = r.future) (hk : r'.futureKind = r.futureKind) (hs : r'.store = r.store) :
    Futures r' t := by
  have hkind := h.kind_iff.mp hnone
  refine ⟨by rw [hf, hk]; exact h.kind_iff, fun hk' => ?_, fun hk' => ?_, by rw [hf]; exact h.futures,
    by rw [hs]; exact h.stores, h.proper⟩
  · rw [hk, hkind] at hk'
    exact absurd hk' (by simp)
  · rw [hk, hkind] at hk'
    exact absurd hk' (by simp)

theorem ok_suspend {f : Frame} (h : Ok f) {kind : SuspendKind} {reason : String}
    (hr : Neutral (.log reason)) : Ok (suspend kind reason f).2 := h.neutral hr

theorem ok_pollIncomplete {f : Frame} (h : Ok f) {fuelReadOk : Bool}
    {fuelText terminalText reason : String} (hf : Neutral (.log fuelText))
    (ht : Neutral (.log terminalText)) (hr : Neutral (.log reason)) :
    Ok (pollIncomplete fuelReadOk fuelText terminalText reason f).2 := by
  unfold pollIncomplete
  have hfuel : ((updateFuel fuelReadOk fuelText f).onRet Frame.setError).Sat
      (fun f' => Ok f' ∧ f'.resume = f.resume) fun _ f' => Ok f' :=
    (ok_updateFuel h hf).onRet fun _ _ h' => h'
  refine hfuel.finish fun f₁ ⟨h₁, _⟩ => ?_
  split
  · exact h₁.neutral ht
  · exact ok_suspend h₁ hr

/-- Once a completed future has been deleted nothing is alive. -/
theorem pollComplete_futures {f : Frame} (h : Ok f) {fuelReadOk : Bool} {fuelText : String}
    (ht : Neutral (.log fuelText)) :
    (pollComplete fuelReadOk fuelText f).Sat (fun f' => Ok f' ∧ f'.resume.future = none ∧
      f'.resume.instanceReady = f.resume.instanceReady ∧ f'.resume.funcReady = f.resume.funcReady ∧
      f'.resume.store = f.resume.store) fun _ f' => Ok f' := by
  unfold pollComplete
  refine ((ok_updateFuel (ok_clearAsyncFuture h) ht).onRet (g := Frame.setError)
    fun _ _ h' => h').mono (fun f₁ ⟨h₁, hr⟩ => ?_) fun _ _ h' => h'
  rw [hr]
  exact ⟨h₁, rfl, rfl, rfl, rfl⟩

theorem instantiateStage_futures {a : Attempt} {f : Frame} (h : Ok f)
    (hstore : f.resume.store.isSome = true) :
    (instantiateStage a f).Sat (fun f' => Ok f' ∧ f'.resume.instanceReady = true ∧
      f'.resume.store.isSome = true) fun _ f' => Ok f' := by
  refine instantiateStage_sat (fun f' => Ok f' ∧ f'.resume.store.isSome = true)
    (fun f' => Ok f' ∧ f'.resume.future = none ∧ f'.resume.store.isSome = true)
    (fun hready => ⟨h, hready, hstore⟩) (fun hready => start_sat (fun _ => ⟨h, hstore⟩) fun hnone => ?_)
    (fun f₁ ⟨h₁, _⟩ _ => ?_) (fun f₁ ⟨h₁, hs₁⟩ _ => ?_) (fun f₃ ⟨h₃, _⟩ _ => ?_)
    (fun f₃ ⟨h₃, _⟩ _ => ?_) fun f₃ ⟨h₃, hn₃, hs₃⟩ => ⟨h₃.idle hn₃ rfl rfl rfl, rfl, hs₃⟩
  · have hs : Startable f.resume .instantiate := hready
    exact (startAsync_futures h hnone hstore hs (by decide) (by decide) (by decide)).mono
      (fun _ h' => ⟨h'.1, h'.2.1⟩) fun _ _ h' => h'
  · exact ok_pollIncomplete (ok_pollFuture h₁ a.poll) (by decide) (by decide) (by decide)
  · refine (pollComplete_futures (ok_pollFuture h₁ a.poll) (by decide)).mono ?_ fun _ _ h' => h'
    rintro f₃ ⟨h₃, hn₃, -, -, hs₃⟩
    obtain ⟨result, trap, error, hr⟩ := pollFuture_resume a.poll f₁
    refine ⟨h₃, hn₃, ?_⟩
    rw [hs₃, hr]
    unfold Resume.burn
    rw [Option.isSome_map]
    exact hs₁
  · have h₄ : Ok { f₃ with resume := { f₃.resume with error := false } } :=
      h₃.congr rfl rfl rfl rfl rfl
    exact ok_fail h₄ (by decide)
  · have h₄ : Ok { f₃ with resume := { f₃.resume with trap := none } } :=
      h₃.congr rfl rfl rfl rfl rfl
    exact ok_fail h₄ (by decide)

theorem funcStage_futures {exportFound : Bool} {f : Frame} (h : Ok f)
    (hready : f.resume.instanceReady = true) (hstore : f.resume.store.isSome = true) :
    (funcStage exportFound f).Sat (fun f' => Ok f' ∧ Startable f'.resume .call ∧
      f'.resume.store.isSome = true) fun _ f' => Ok f' := by
  unfold funcStage
  by_cases hfunc : f.resume.funcReady = true
  · rw [if_pos hfunc]
    exact ⟨h, ⟨hready, hfunc⟩, hstore⟩
  rw [if_neg hfunc]
  split
  · exact ok_fail h (by decide)
  · refine ⟨⟨h.kind_iff, h.instantiate, fun hk => ?_, h.futures, h.stores, h.proper⟩,
      ⟨hready, rfl⟩, hstore⟩
    exact ⟨hready, rfl⟩

theorem callStart_futures {a : Attempt} {f : Frame} (h : Ok f) (hstart : Startable f.resume .call)
    (hstore : f.resume.store.isSome = true) :
    (callStart a f).Sat (fun f' => Ok f' ∧ f'.resume.instanceReady = true) fun _ f' => Ok f' := by
  refine callStart_sat (fun _ => ⟨h, hstart.1⟩) fun hnone => ?_
  exact (startAsync_futures h hnone hstore hstart (by decide) (by decide) (by decide)).mono
    (fun _ h' => ⟨h'.1, h'.2.2.1.trans hstart.1⟩) fun _ _ h' => h'

theorem ok_callOutcome {f : Frame} (h : Ok f) : Ok (callOutcome f).2 := by
  unfold callOutcome
  split
  · have h' : Ok { f with resume := { f.resume with error := false } } :=
      h.congr rfl rfl rfl rfl rfl
    exact h'.neutral (e := .log "guest call failed") (by decide)
  · split
    · refine ok_suspend h ?_
      split <;> decide
    · split
      · have h' : Ok { f with resume := { f.resume with trap := none } } :=
          h.congr rfl rfl rfl rfl rfl
        refine h'.neutral (e := .log _) ?_
        split <;> decide
      · split
        · exact h.neutral (e := .log _) (by decide)
        · exact h

theorem callPoll_futures {p : Poll} {f : Frame} (h : Ok f) : Ok (callPoll p f).2 := by
  have h₁ := ok_pollFuture h p
  refine callPoll_exit (fun _ f' => Ok f') Ok (fun _ => ?_) (fun _ => ?_) fun f' h' => ok_callOutcome h'
  · exact ok_pollIncomplete h₁ (by decide) (by decide) (by decide)
  · exact (pollComplete_futures h₁ (by decide)).mono (fun _ h' => h'.1) fun _ _ h' => h'

theorem runBody_futures {env : RunInput} {f : Frame} (h : Ok f)
    (hstore : f.resume.store.isSome = true) : Ok (runBody env f).2 := by
  unfold runBody
  have h₀ : Ok (beginRun f) := h
  have hstages : ((instantiateStage env.instantiate (beginRun f)).andThen fun f =>
      (funcStage env.exportFound f).andThen (callStart env.call)).Sat Ok fun _ f' => Ok f' := by
    refine (instantiateStage_futures h₀ hstore).andThen fun f₁ ⟨h₁, hi₁, hs₁⟩ => ?_
    exact (funcStage_futures h₁ hi₁ hs₁).andThen fun f₂ ⟨h₂, hr₂, hs₂⟩ =>
      (callStart_futures h₂ hr₂ hs₂).mono (fun _ h' => h'.1) fun _ _ h' => h'
  exact hstages.finish fun f₂ h₂ => callPoll_futures h₂

theorem prepareStore_futures {storeNewOk setFuelOk : Bool} {f : Frame} (h : Ok f) :
    (prepareStore storeNewOk setFuelOk f).Sat (fun f' => Ok f' ∧ f'.resume.store.isSome = true)
      fun _ f' => Ok f' := by
  unfold prepareStore
  cases hs : f.resume.store with
  | some s => exact ⟨h, by rw [hs]; rfl⟩
  | none =>
    by_cases hnew : storeNewOk = true
    · simp only [hnew, Bool.not_true, Bool.false_eq_true, if_false]
      have hstores : liveStores f.trace = [] := by rw [h.stores, hs]; rfl
      have h₁ : Futures { f.resume with store := some ⟨f.nextId, 0⟩ }
          (.storeNew f.nextId :: f.trace) :=
        ⟨h.kind_iff, h.instantiate, h.call, h.futures, congrArg _ hstores, trivial, h.proper⟩
      split
      · exact ⟨h₁, rfl⟩
      · split
        · exact h₁.neutral (e := .log _) (by decide)
        · exact ⟨(h₁.neutral (e := .setFuel _) trivial).congr rfl rfl rfl rfl rfl, rfl⟩
    · simp only [hnew]
      exact ok_fail h (by decide)

/-! ## Runs and cleanups -/

/-- The invariant of an execution context between two calls. Without a resume state nothing is
alive. -/
def Machine.Ok (m : Machine) : Prop := Futures (m.resumeState.getD {}) m.trace

theorem run_futures {env : RunInput} {m : Machine} (h : m.Ok) : (run env m).2.Ok := by
  have hunlogged : (runUnlogged env m).2.Ok := by
    unfold runUnlogged
    split
    · exact h.neutral (e := .log _) (by decide)
    · split
      · exact h.neutral (e := .log _) (by decide)
      · split
        · exact h
        · have hf : Runtime.Ok ⟨m.ctx, m.resumeState.getD {}, m.nextId, m.trace⟩ := h
          have hstore : (prepareStore env.storeNewOk env.setFuelOk _).Sat _ _ :=
            prepareStore_futures hf
          exact hstore.finish fun f' h' => runBody_futures h'.1 h'.2
  exact hunlogged.neutral (e := .ret ..) trivial

theorem cleanupExecCtx_futures {m : Machine} (h : m.Ok) : (cleanupExecCtx m).Ok := by
  unfold cleanupExecCtx Machine.Ok at *
  cases hr : m.resumeState with
  | none =>
    rw [hr] at h
    simp only [hr]
    exact h
  | some r =>
    rw [hr] at h
    have h₁ : Ok (clearAsyncFuture ⟨m.ctx, r, m.nextId, m.trace⟩) := ok_clearAsyncFuture h
    have hfut : liveFutures (clearAsyncFuture ⟨m.ctx, r, m.nextId, m.trace⟩).trace = [] :=
      h₁.futures
    have hstores := h₁.stores
    simp only [resetResumeState, clearAsyncOutputs]
    cases hs : (clearAsyncFuture ⟨m.ctx, r, m.nextId, m.trace⟩).resume.store with
    | none =>
      rw [hs] at hstores
      exact ⟨⟨fun _ => rfl, fun _ => rfl⟩, nofun, nofun, hfut, hstores, h₁.proper⟩
    | some s =>
      rw [hs] at hstores
      refine ⟨⟨fun _ => rfl, fun _ => rfl⟩, nofun, nofun, hfut, ?_, trivial, h₁.proper⟩
      show (liveStores (clearAsyncFuture ⟨m.ctx, r, m.nextId, m.trace⟩).trace).erase s.id = []
      rw [hstores]
      simp

/-- A call that takes the execution context. -/
inductive Call where
  | run (env : RunInput)
  | cleanup
  deriving Repr

def callStep (m : Machine) : Call → Machine
  | .run env => (run env m).2
  | .cleanup => cleanupExecCtx m

theorem init_futures (runtimeReady moduleLoaded : Bool) (phaseKind : Phase)
    (fuelLimit timesliceFuel : Nat) :
    (initExecCtx runtimeReady moduleLoaded phaseKind fuelLimit timesliceFuel).Ok :=
  ⟨⟨fun _ => rfl, fun _ => rfl⟩, nofun, nofun, rfl, rfl, trivial⟩

theorem callStep_futures {m : Machine} (h : m.Ok) (c : Call) : (callStep m c).Ok := by
  cases c with
  | run env => exact run_futures h
  | cleanup => exact cleanupExecCtx_futures h

/-- What the ownership rules of the resume state ask, in one state. -/
structure FuturesConsistent (m : Machine) : Prop where
  kind_iff : ∀ r ∈ m.resumeState, r.future = none ↔ r.futureKind = .none
  instantiate : ∀ r ∈ m.resumeState, r.future ≠ none → r.futureKind = .instantiate →
    r.instanceReady = false
  call : ∀ r ∈ m.resumeState, r.future ≠ none → r.futureKind = .call →
    r.instanceReady = true ∧ r.funcReady = true
  /-- No future is ever asked for while another one is alive, or in a store that is not. -/
  alone : ∀ later kind store fuelRemaining storeFuel earlier,
    m.trace = later ++ .start kind store fuelRemaining storeFuel :: earlier →
      liveFutures earlier = [] ∧ ∃ id, store = some id ∧ id ∈ liveStores earlier
  /-- The live future is the one the resume state points to, so none is lost. -/
  owned : liveFutures m.trace = (m.resumeState.bind Resume.future).toList
  unreachable : .log inconsistentFuture ∉ m.trace ∧ .log futureStillAlive ∉ m.trace

theorem AllProper.of_append {l t : List Event} (h : AllProper (l ++ t)) : AllProper t := by
  induction l with
  | nil => exact h
  | cons e l ih => exact ih h.2

theorem AllProper.log {t : List Event} (h : AllProper t) {text : String} (ht : .log text ∈ t) :
    text ≠ inconsistentFuture ∧ text ≠ futureStillAlive := by
  obtain ⟨l, l', rfl⟩ := List.append_of_mem ht
  exact h.of_append.1

theorem Machine.Ok.consistent {m : Machine} (h : m.Ok) : FuturesConsistent m := by
  have hsome : ∀ r ∈ m.resumeState, Futures r m.trace := fun r hr => by
    unfold Machine.Ok at h
    rwa [Option.mem_def.mp hr] at h
  refine ⟨fun r hr => (hsome r hr).kind_iff, fun r hr _ => (hsome r hr).instantiate,
    fun r hr _ => (hsome r hr).call, ?_, ?_, ?_⟩
  · intro later kind store fuelRemaining storeFuel earlier ht
    have hp := h.proper
    rw [ht] at hp
    exact hp.of_append.1
  · rw [h.futures]
    cases m.resumeState <;> rfl
  · constructor
    · intro hm
      exact (h.proper.log hm).1 rfl
    · intro hm
      exact (h.proper.log hm).2 rfl

/-- **One future at a time**: whatever Wasmtime does, and whatever the order of runs and cleanups,
the future and its kind agree, the ready flags fit the kind, no future is started beside another
one or in a deleted store, and the two consistency errors do not occur. -/
theorem futures_consistent (runtimeReady moduleLoaded : Bool) (phaseKind : Phase)
    (fuelLimit timesliceFuel : Nat) (calls : List Call) :
    FuturesConsistent (runFrom callStep
      (initExecCtx runtimeReady moduleLoaded phaseKind fuelLimit timesliceFuel) calls) := by
  have h0 : (initExecCtx runtimeReady moduleLoaded phaseKind fuelLimit timesliceFuel).Ok :=
    init_futures _ _ _ _ _
  exact (run_invariant calls h0 fun m c h => callStep_futures h c).consistent

end NgxWasm.Runtime
