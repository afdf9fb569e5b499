import NgxWasm.Lib.Run
import NgxWasm.Runtime.Run

/-!
# What the imports of a guest do to its run

Two imports suspend a run: `ngx_wasm_yield` sets `yielded`, and a successful `ngx_wasm_subreq` sets
`suspend_kind` as well. The rest of the run leaves both alone, from `begin_run`, which clears them,
to the end of the last poll, where the run decides by them. `Called cs f f'` says what lies between
two points of a run if the guest called `cs` there; it composes (`Called.trans`), so that what the
run decides by is a function of all the imports called since it began.

The kind of a suspension is one field for several reasons. A poll that leaves its future incomplete
sets it to `NGX_HTTP_WASM_SUSPEND_RESCHEDULE`, whatever the guest has set it to in the same run.
`NoneOverwritten` is the condition on the answers of Wasmtime under which that does not happen.

* `Called.callPoll`: how the poll of the call decides (`Decided`).
* `run_returned`: what a run may return, and what `suspend_kind` then says about the imports called.

What a request makes of it is in `Request.Returns`, and what is still to be reported after several
runs in `Runtime.Reported`.

An instance that is made calls imports too, from its start function; these count in the same run
(`instantiateCalls`). A run may be one of several that poll the same call: what an earlier poll was told
is not looked at here, since `begin_run` clears both fields.
-/

namespace NgxWasm.Runtime

open Lib

/-- The import takes effect, and sets `yielded`. -/
def HostCall.suspends (phase : Phase) : HostCall → Bool
  | .yield => .yield ∈ capabilities phase
  | .subreq rc => .subrequest ∈ capabilities phase && rc = wasmOk
  | .other => false

/-- The import launches a subrequest. -/
def HostCall.launches (phase : Phase) : HostCall → Bool
  | .subreq rc => .subrequest ∈ capabilities phase && rc = wasmOk
  | .yield | .other => false

/-- A subrequest was launched in this invocation of the export, and no return has said so since. -/
def unreportedIo : List Event → Bool
  | [] => false
  | .subreq :: _ => true
  | .start .call _ _ _ :: _ => false
  | .ret .again _ .waitIo :: _ => false
  | _ :: t => unreportedIo t

/-- The guest yielded in this invocation of the export, and no return has said so since. -/
def unreportedYield : List Event → Bool
  | [] => false
  | .yield :: _ => true
  | .start .call _ _ _ :: _ => false
  | .ret .again _ .reschedule :: _ => false
  | _ :: t => unreportedYield t

/-- A run has returned. -/
def Event.isReturn : Event → Bool
  | .ret .. => true
  | .storeNew _ | .storeDelete _ | .setFuel _ | .yieldInterval _ | .start .. | .futureNew _
  | .futureDelete _ | .burn _ | .yield | .subreq | .log _ => false

/-- The guest called `cs` between the two points of a run: what the trace says of it. -/
structure Logged (cs : List HostCall) (f f' : Frame) : Prop where
  phase : f'.ctx.phaseKind = f.ctx.phaseKind
  /-- No return lies between two points of one run. -/
  within : ∃ es, f'.trace = es ++ f.trace ∧ ∀ e ∈ es, e.isReturn = false
  launched : launches f'.trace = launches f.trace + cs.countP (HostCall.launches f.ctx.phaseKind)
  io : unreportedIo f'.trace = true →
    unreportedIo f.trace = true ∨ cs.any (HostCall.launches f.ctx.phaseKind) = true
  yield : unreportedYield f'.trace = true →
    unreportedYield f.trace = true ∨ cs.any (HostCall.suspends f.ctx.phaseKind) = true

/-- The same, with the two fields the imports set. -/
structure Called (cs : List HostCall) (f f' : Frame) : Prop extends Logged cs f f' where
  yielded : f'.ctx.yielded = (f.ctx.yielded || cs.any (HostCall.suspends f.ctx.phaseKind))
  suspendKind : f'.ctx.suspendKind =
    if cs.any (HostCall.launches f.ctx.phaseKind) then .waitIo else f.ctx.suspendKind

/-- Nothing was called. -/
abbrev Quiet (f f' : Frame) : Prop := Called [] f f'

section Called

variable {cs cs' : List HostCall} {f f' f'' : Frame}

theorem Called.refl (f : Frame) : Quiet f f :=
  ⟨⟨rfl, ⟨[], rfl, nofun⟩, rfl, Or.inl, Or.inl⟩, by simp, rfl⟩

theorem Logged.trans (h : Logged cs f f') (h' : Logged cs' f' f'') : Logged (cs ++ cs') f f'' := by
  have hp := h.phase
  refine ⟨h'.phase.trans hp, ?_, ?_, fun hio => ?_, fun hy => ?_⟩
  · obtain ⟨es, ht, hes⟩ := h.within
    obtain ⟨es', ht', hes'⟩ := h'.within
    refine ⟨es' ++ es, by rw [ht', ht, List.append_assoc], fun e he => ?_⟩
    exact (List.mem_append.mp he).elim (hes' e) (hes e)
  · rw [h'.launched, h.launched, hp, List.countP_append, Nat.add_assoc]
  · rw [List.any_append, Bool.or_eq_true]
    rcases h'.io hio with hio' | hcs
    · exact (h.io hio').imp id Or.inl
    · rw [hp] at hcs
      exact Or.inr (Or.inr hcs)
  · rw [List.any_append, Bool.or_eq_true]
    rcases h'.yield hy with hy' | hcs
    · exact (h.yield hy').imp id Or.inl
    · rw [hp] at hcs
      exact Or.inr (Or.inr hcs)

theorem Called.trans (h : Called cs f f') (h' : Called cs' f' f'') : Called (cs ++ cs') f f'' := by
  have hp := h.phase
  refine ⟨h.toLogged.trans h'.toLogged, ?_, ?_⟩
  · rw [h'.yielded, h.yielded, hp, List.any_append, Bool.or_assoc]
  · rw [h'.suspendKind, h.suspendKind, hp, List.any_append]
    cases cs.any (HostCall.launches f.ctx.phaseKind) <;>
      cases cs'.any (HostCall.launches f.ctx.phaseKind) <;> rfl

theorem Called.quiet (h : Called cs f f') (h' : Quiet f' f'') : Called cs f f'' := by
  have := h.trans h'
  rwa [List.append_nil] at this

theorem Logged.quiet (h : Logged cs f f') (h' : Logged [] f' f'') : Logged cs f f'' := by
  have := h.trans h'
  rwa [List.append_nil] at this

/-- The resume state is no part of it. -/
theorem Called.resume (h : Called cs f f') {r : Resume} : Called cs f { f' with resume := r } :=
  ⟨⟨h.phase, h.within, h.launched, h.io, h.yield⟩, h.yielded, h.suspendKind⟩

/-- Events that are no import and no return. -/
def Event.quiet : Event → Bool
  | .yield | .subreq | .ret .. => false
  | .storeNew _ | .storeDelete _ | .setFuel _ | .yieldInterval _ | .start .. | .futureNew _
  | .futureDelete _ | .burn _ | .log _ => true

theorem launches_quiet {e : Event} (he : e.quiet = true) (t : List Event) :
    launches (e :: t) = launches t := by
  cases e <;> first | rfl | cases he

theorem unreportedIo_quiet {e : Event} (he : e.quiet = true) {t : List Event}
    (h : unreportedIo (e :: t) = true) : unreportedIo t = true := by
  cases e with
  | start kind => cases kind <;> first | exact h | cases h
  | yield | subreq | ret => cases he
  | _ => exact h

theorem unreportedYield_quiet {e : Event} (he : e.quiet = true) {t : List Event}
    (h : unreportedYield (e :: t) = true) : unreportedYield t = true := by
  cases e with
  | start kind => cases kind <;> first | exact h | cases h
  | yield | subreq | ret => cases he
  | _ => exact h

theorem isReturn_quiet {e : Event} (he : e.quiet = true) : e.isReturn = false := by
  cases e <;> first | rfl | cases he

/-- A quiet event goes on record, whatever else happens. -/
theorem Logged.event {e : Event} (he : e.quiet = true) (ht : f'.trace = e :: f.trace)
    (hp : f'.ctx.phaseKind = f.ctx.phaseKind) : Logged [] f f' :=
  ⟨hp, ⟨[e], ht, fun _ he' => List.mem_singleton.mp he' ▸ isReturn_quiet he⟩,
    by rw [ht, launches_quiet he]; rfl, fun h => Or.inl (unreportedIo_quiet he (ht ▸ h)),
    fun h => Or.inl (unreportedYield_quiet he (ht ▸ h))⟩

/-- The two fields and the phase are as they were. -/
structure SameFlags (f f' : Frame) : Prop where
  phase : f'.ctx.phaseKind = f.ctx.phaseKind
  yielded : f'.ctx.yielded = f.ctx.yielded
  suspendKind : f'.ctx.suspendKind = f.ctx.suspendKind

theorem Quiet.event {e : Event} (he : e.quiet = true) (ht : f'.trace = e :: f.trace)
    (hc : SameFlags f f') : Quiet f f' :=
  ⟨.event he ht hc.phase, by simpa using hc.yielded, hc.suspendKind⟩

theorem Quiet.fields (ht : f'.trace = f.trace) (hc : SameFlags f f') : Quiet f f' :=
  ⟨⟨hc.phase, ⟨[], ht, nofun⟩, by rw [ht]; rfl, fun h => Or.inl (ht ▸ h), fun h => Or.inl (ht ▸ h)⟩,
    by simpa using hc.yielded, hc.suspendKind⟩

theorem quiet_emit (f : Frame) {e : Event} (he : e.quiet = true) : Quiet f (f.emit e) :=
  .event he rfl ⟨rfl, rfl, rfl⟩

theorem quiet_setError (f : Frame) (text : String) : Quiet f (f.setError.emit (.log text)) :=
  .event (e := .log text) rfl rfl ⟨rfl, rfl, rfl⟩

theorem quiet_burn (f : Frame) (n : Nat) : Quiet f (f.burn n) :=
  .event (e := .burn _) rfl rfl ⟨rfl, rfl, rfl⟩

/-- **What the imports do**, one at a time. -/
theorem called_hostCall (f : Frame) (c : HostCall) : Called [c] f (hostCall f c) := by
  cases c with
  | yield =>
    have hl : HostCall.launches f.ctx.phaseKind .yield = false := rfl
    simp only [hostCall]
    by_cases h : Capability.yield ∈ capabilities f.ctx.phaseKind
    · have hs : HostCall.suspends f.ctx.phaseKind .yield = true := by simp [HostCall.suspends, h]
      rw [if_pos h]
      exact ⟨⟨rfl, ⟨[.yield], rfl, by simp [Event.isReturn]⟩, by simp [hl, launches, Frame.emit],
        Or.inl, fun _ => Or.inr (by simp [hs])⟩,
        by simp [hs, Frame.emit], by simp [hl, Frame.emit]⟩
    · have hs : HostCall.suspends f.ctx.phaseKind .yield = false := by simp [HostCall.suspends, h]
      rw [if_neg h]
      exact ⟨⟨rfl, ⟨[], rfl, by simp⟩, by simp [hl], Or.inl, Or.inl⟩, by simp [hs], by simp [hl]⟩
  | subreq rc =>
    simp only [hostCall]
    by_cases h : Capability.subrequest ∈ capabilities f.ctx.phaseKind ∧ rc = wasmOk
    · have hl : HostCall.launches f.ctx.phaseKind (.subreq rc) = true := by
        simpa [HostCall.launches] using h
      have hs : HostCall.suspends f.ctx.phaseKind (.subreq rc) = true := hl
      rw [if_pos h]
      exact ⟨⟨rfl, ⟨[.subreq], rfl, by simp [Event.isReturn]⟩, by simp [hl, launches, Frame.emit],
        fun _ => Or.inr (by simp [hl]),
        fun _ => Or.inr (by simp [hs])⟩, by simp [hs, Frame.emit], by simp [hl, Frame.emit]⟩
    · have hl : HostCall.launches f.ctx.phaseKind (.subreq rc) = false := by
        simpa [HostCall.launches] using h
      have hs : HostCall.suspends f.ctx.phaseKind (.subreq rc) = false := hl
      rw [if_neg h]
      exact ⟨⟨rfl, ⟨[], rfl, by simp⟩, by simp [hl], Or.inl, Or.inl⟩, by simp [hs], by simp [hl]⟩
  | other =>
    have hl : HostCall.launches f.ctx.phaseKind .other = false := rfl
    have hs : HostCall.suspends f.ctx.phaseKind .other = false := rfl
    exact ⟨⟨rfl, ⟨[], rfl, by simp⟩, by simp [hl, hostCall], Or.inl, Or.inl⟩, by simp [hs, hostCall],
      by simp [hl, hostCall]⟩

theorem called_hostCalls (cs : List HostCall) (f : Frame) : Called cs f (cs.foldl hostCall f) := by
  induction cs generalizing f with
  | nil => exact .refl f
  | cons c cs ih => exact (called_hostCall f c).trans (ih _)

theorem called_pollFuture (p : Poll) (f : Frame) : Called p.calls f (pollFuture p f) := by
  have hburn : Quiet (p.calls.foldl hostCall f) (pollFuture p f) :=
    (quiet_burn (p.calls.foldl hostCall f) p.burn).quiet (.fields rfl ⟨rfl, rfl, rfl⟩)
  exact (called_hostCalls p.calls f).quiet hburn

end Called

/-! ## The rest of a run is quiet -/

/-- The run gives up: it returns `NGX_ERROR` and the state is `EXEC_ERROR`. -/
structure GivesUp (f : Frame) (rc : Rc) (f' : Frame) : Prop where
  rc_eq : rc = .error
  state : f'.ctx.state = .error
  quiet : Quiet f f'

section Pieces

variable {f : Frame} {post : Frame → Prop}

theorem GivesUp.of_quiet {f' f'' : Frame} {rc : Rc} (h : GivesUp f' rc f'') (h' : Quiet f f') :
    GivesUp f rc f'' := ⟨h.rc_eq, h.state, h'.quiet h.quiet⟩

theorem quiet_clearAsyncFuture (f : Frame) : Quiet f (clearAsyncFuture f) := by
  unfold clearAsyncFuture
  cases f.resume.future with
  | none => exact Quiet.fields rfl ⟨rfl, rfl, rfl⟩
  | some id => exact Quiet.event (e := .futureDelete id) rfl rfl ⟨rfl, rfl, rfl⟩

theorem quiet_fail (f : Frame) {text : String} : (f.fail text).Sat post (GivesUp f) :=
  ⟨rfl, rfl, quiet_setError f text⟩

/-- The fuel is read, or the run gives up. -/
theorem quiet_updateFuel (f : Frame) {readOk : Bool} {text : String} :
    ((updateFuel readOk text f).onRet Frame.setError).Sat
      (fun f' => readOk = true ∧ Quiet f f' ∧ f'.resume = f.resume)
      (fun rc f' => readOk = false ∧ GivesUp f rc f') := by
  unfold updateFuel
  cases readOk with
  | false => exact ⟨rfl, rfl, rfl, Quiet.event (e := .log text) rfl rfl ⟨rfl, rfl, rfl⟩⟩
  | true => exact ⟨rfl, Quiet.fields rfl ⟨rfl, rfl, rfl⟩, rfl⟩

theorem quiet_askFuture (f : Frame) {kind : FutureKind} {texts : StartTexts} {a : Attempt} :
    (askFuture kind texts a f).Sat (Quiet f) (GivesUp f) := by
  -- asking is on record, and burns
  have hasked : Quiet f ((f.emit (.start kind (f.resume.store.map Store.id) f.ctx.fuelRemaining
      f.storeFuel)).burn a.startBurn) :=
    (quiet_emit f rfl).quiet (quiet_burn _ _)
  have hfailed : ∀ text, GivesUp f .error (clearAsyncFuture (((f.emit (.start kind
      (f.resume.store.map Store.id) f.ctx.fuelRemaining f.storeFuel)).burn
        a.startBurn).setError.emit (.log text))) := fun text =>
    ⟨rfl, rfl, hasked.quiet ((quiet_setError _ text).quiet (quiet_clearAsyncFuture _))⟩
  unfold askFuture
  cases a.start with
  | future => exact hasked.quiet (Quiet.event (e := .futureNew _) rfl rfl ⟨rfl, rfl, rfl⟩)
  | error => exact hfailed _
  | trap t => exact hfailed _
  | null => exact hfailed _

theorem quiet_startAsync (f : Frame) {kind : FutureKind} {texts : StartTexts} {a : Attempt} :
    (startAsync kind texts a f).Sat (Quiet f) (GivesUp f) := by
  have hyield : ((prepareAsyncYield a.yieldOk f).onRet Frame.setError).Sat (Quiet f) (GivesUp f) := by
    unfold prepareAsyncYield
    split
    · exact ⟨rfl, rfl, Quiet.fields rfl ⟨rfl, rfl, rfl⟩⟩
    · split
      · exact ⟨rfl, rfl, Quiet.event (e := .log _) rfl rfl ⟨rfl, rfl, rfl⟩⟩
      · exact Quiet.event (e := .yieldInterval _) rfl rfl ⟨rfl, rfl, rfl⟩
  unfold startAsync
  refine hyield.andThen fun f₁ h₁ => ?_
  have hop : (prepareAsyncOp kind f₁).Sat (Quiet f₁) (GivesUp f₁) := by
    unfold prepareAsyncOp
    split
    · exact quiet_fail f₁
    · split
      · exact quiet_fail f₁
      · exact Quiet.fields rfl ⟨rfl, rfl, rfl⟩
  refine (hop.mono (fun _ h => h) fun _ _ h => h.of_quiet h₁).andThen fun f₂ h₂ => ?_
  exact (quiet_askFuture f₂).mono (fun _ h => (h₁.quiet h₂).quiet h)
    fun _ _ h => h.of_quiet (h₁.quiet h₂)

/-- A completed future is deleted and its fuel read, or the run gives up. -/
theorem quiet_pollComplete (f : Frame) {readOk : Bool} {text : String} :
    (pollComplete readOk text f).Sat
      (fun f' => readOk = true ∧ Quiet f f' ∧ f'.resume = (clearAsyncFuture f).resume)
      (fun rc f' => readOk = false ∧ GivesUp f rc f') :=
  (quiet_updateFuel (clearAsyncFuture f)).mono
    (fun _ ⟨hr, hq, he⟩ => ⟨hr, (quiet_clearAsyncFuture f).quiet hq, he⟩)
    fun _ _ ⟨hr, h⟩ => ⟨hr, h.of_quiet (quiet_clearAsyncFuture f)⟩

theorem quiet_funcStage (f : Frame) {exportFound : Bool} :
    (funcStage exportFound f).Sat
      (fun f' => Quiet f f' ∧ f' = { f with resume.funcReady := true }) (GivesUp f) := by
  unfold funcStage
  split
  · rename_i h
    refine ⟨.refl f, ?_⟩
    rw [← h]
  · split
    · exact quiet_fail f
    · exact ⟨Quiet.fields rfl ⟨rfl, rfl, rfl⟩, rfl⟩

theorem quiet_callStart (f : Frame) {a : Attempt} : (callStart a f).Sat (Quiet f) (GivesUp f) :=
  callStart_sat (fun _ => .refl f) fun _ => quiet_startAsync f

theorem quiet_prepareStore (f : Frame) (storeNewOk setFuelOk : Bool) :
    (prepareStore storeNewOk setFuelOk f).Sat (Quiet f) (GivesUp f) := by
  unfold prepareStore
  split
  · exact .refl f
  · split
    · exact quiet_fail f
    · have hnew : Quiet f { f with
          resume := { f.resume with store := some ⟨f.nextId, 0⟩ }
          nextId := f.nextId + 1
          trace := .storeNew f.nextId :: f.trace } :=
        Quiet.event (e := .storeNew _) rfl rfl ⟨rfl, rfl, rfl⟩
      dsimp only
      split
      · exact hnew
      · split
        · exact ⟨rfl, rfl, hnew.quiet (quiet_setError _ _)⟩
        · exact hnew.quiet (Quiet.event (e := .setFuel _) rfl rfl ⟨rfl, rfl, rfl⟩)

/-- Of the resume state it only sets the store. -/
theorem prepareStore_resume (f : Frame) (storeNewOk setFuelOk : Bool) :
    (prepareStore storeNewOk setFuelOk f).Sat
      (fun f' => ∃ store, f'.resume = { f.resume with store := store })
      (fun _ f' => ∃ store, f'.resume = { f.resume with store := store }) := by
  unfold prepareStore
  split
  · exact ⟨_, rfl⟩
  · split
    · exact ⟨_, rfl⟩
    · dsimp only
      split
      · exact ⟨_, rfl⟩
      · split
        · exact ⟨_, rfl⟩
        · exact ⟨_, rfl⟩

end Pieces

/-! ## How a run ends -/

/-- No poll that leaves its future incomplete, with fuel that can be read, comes after a subrequest
launched in the same run: the kind of such a suspension takes the place of
`NGX_HTTP_WASM_SUSPEND_WAIT_IO`. Where the fuel cannot be read the run fails, and nothing is reported. -/
structure NoneOverwritten (env : RunInput) : Prop where
  instantiate : env.instantiate.poll.outcome = none → env.instantiate.poll.fuelReadOk = true →
    .subreq wasmOk ∉ env.instantiate.poll.calls
  call : env.call.poll.outcome = none → env.call.poll.fuelReadOk = true →
    .subreq wasmOk ∉ env.instantiate.poll.calls ∧ .subreq wasmOk ∉ env.call.poll.calls

theorem any_launches_eq_false {phase : Phase} {cs : List HostCall} (h : .subreq wasmOk ∉ cs) :
    cs.any (HostCall.launches phase) = false := by
  rw [List.any_eq_false]
  intro c hc hl
  cases c with
  | yield => cases hl
  | other => cases hl
  | subreq rc =>
    simp only [HostCall.launches, Bool.and_eq_true, decide_eq_true_eq] at hl
    rw [hl.2] at hc
    exact h hc

/-- What a run returns that called `cs`, and how `suspend_kind` and `state` are left. -/
inductive Decided (env : RunInput) (cs : List HostCall) (phase : Phase) (ctx : ExecCtx) : Rc → Prop
  | error (h : ctx.state = .error) : Decided env cs phase ctx .error
  | incomplete (h : ctx.suspendKind = .reschedule)
      (hcs : NoneOverwritten env → cs.any (HostCall.launches phase) = false) :
      Decided env cs phase ctx .again
  | suspended (hs : cs.any (HostCall.suspends phase) = true)
      (h : ctx.suspendKind =
        if cs.any (HostCall.launches phase) then .waitIo else .reschedule) :
      Decided env cs phase ctx .again
  | ok (hs : cs.any (HostCall.suspends phase) = false) : Decided env cs phase ctx .ok

/-- A run that is at `f` after `begin_run` ends at `f'`. -/
def Ends (env : RunInput) (f : Frame) (rc : Rc) (f' : Frame) : Prop :=
  ∃ cs, Logged cs f f' ∧ Decided env cs f.ctx.phaseKind f'.ctx rc

section Ends

variable {env : RunInput} {cs : List HostCall} {f f' : Frame}

theorem Called.giveUp (h : Called cs f f') {rc : Rc} {f'' : Frame} (h' : GivesUp f' rc f'') :
    Ends env f rc f'' := by
  obtain ⟨rfl, hstate, hq⟩ := h'
  exact ⟨cs, h.toLogged.quiet hq.toLogged, .error hstate⟩

theorem GivesUp.ends {rc : Rc} (h : GivesUp f rc f') : Ends env f rc f' := (Called.refl f).giveUp h

/-- A suspension goes on record, and changes the fields of the context it is about. -/
theorem logged_suspend (f : Frame) (kind : SuspendKind) (reason : String) :
    Logged [] f (suspend kind reason f).2 := .event (e := .log reason) rfl rfl rfl

theorem Called.pollIncomplete (h : Called cs f f')
    {readOk : Bool}
    (hcs : NoneOverwritten env → readOk = true → cs.any (HostCall.launches f.ctx.phaseKind) = false)
    {fuelText terminalText reason : String} :
    Ends env f (pollIncomplete readOk fuelText terminalText reason f').1
      (pollIncomplete readOk fuelText terminalText reason f').2 := by
  have hfuel : ((updateFuel readOk fuelText f').onRet Frame.setError).Sat
      (fun f₁ => readOk = true ∧ Called cs f f₁) (Ends env f) :=
    (quiet_updateFuel f').mono (fun _ ⟨hread, hq, _⟩ => ⟨hread, h.quiet hq⟩)
      fun _ _ ⟨_, hg⟩ => h.giveUp hg
  unfold Runtime.pollIncomplete
  refine hfuel.finish fun f₁ ⟨hread, h₁⟩ => ?_
  split
  · exact ⟨cs, h₁.toLogged.quiet (quiet_setError f₁ terminalText).toLogged, .error rfl⟩
  · exact ⟨cs, h₁.toLogged.quiet (logged_suspend f₁ _ _),
      .incomplete rfl fun hno => hcs hno hread⟩

/-- **The decision**: after a completed call `yielded` comes before the trap and the result. -/
theorem Called.callOutcome (h : Called cs f f') (hy : f.ctx.yielded = false)
    (hk : f.ctx.suspendKind = .none) : Ends env f (callOutcome f').1 (callOutcome f').2 := by
  have hlog := h.toLogged
  have hyielded := h.yielded
  have hkind := h.suspendKind
  rw [hy, Bool.false_or] at hyielded
  rw [hk] at hkind
  unfold Runtime.callOutcome
  split
  · exact ⟨cs, hlog.quiet (.event (e := .log "guest call failed") rfl rfl rfl), .error rfl⟩
  · split
    · rename_i hyes
      refine ⟨cs, hlog.quiet (logged_suspend f' _ _), .suspended (hyielded ▸ hyes) ?_⟩
      show (if f'.ctx.suspendKind = .none then SuspendKind.reschedule else f'.ctx.suspendKind) = _
      rw [hkind]
      cases cs.any (HostCall.launches f.ctx.phaseKind) <;> rfl
    · rename_i hno
      have hnone : cs.any (HostCall.suspends f.ctx.phaseKind) = false := by
        rw [← hyielded]
        exact Bool.eq_false_iff.mpr hno
      split
      · exact ⟨cs, hlog.quiet (.event (e := .log _) rfl rfl rfl), .error rfl⟩
      · split
        · exact ⟨cs, hlog.quiet (.event (e := .log _) rfl rfl rfl), .error rfl⟩
        · exact ⟨cs, ⟨hlog.phase, hlog.within, hlog.launched, hlog.io, hlog.yield⟩, .ok hnone⟩

/-- The imports called while the instance is made, if it is not there yet. -/
def instantiateCalls (r : Resume) (env : RunInput) : List HostCall :=
  if r.instanceReady then [] else env.instantiate.poll.calls

theorem instantiateCalls_subset {r : Resume} (h : .subreq wasmOk ∉ env.instantiate.poll.calls) :
    .subreq wasmOk ∉ instantiateCalls r env := by
  unfold instantiateCalls
  split
  · exact List.not_mem_nil
  · exact h

theorem called_instantiateStage (env : RunInput) (f : Frame) :
    (instantiateStage env.instantiate f).Sat
      (fun f' => Called (instantiateCalls f.resume env) f f' ∧ (f'.resume.future = none ∨ f' = f))
      (Ends env f) := by
  unfold instantiateCalls
  by_cases hready : f.resume.instanceReady = true
  · have hskip : instantiateStage env.instantiate f = .next f := if_pos hready
    rw [if_pos hready, hskip]
    exact ⟨.refl f, Or.inr rfl⟩
  rw [if_neg hready]
  have hpoll : ∀ f₁, Quiet f f₁ →
      Called env.instantiate.poll.calls f (pollFuture env.instantiate.poll f₁) :=
    fun f₁ h₁ => Called.trans h₁ (called_pollFuture _ f₁)
  refine instantiateStage_sat (Quiet f)
    (fun f₃ => Called env.instantiate.poll.calls f f₃ ∧ f₃.resume.future = none)
    (fun hyes => absurd hyes hready) (fun _ => start_sat (fun _ => .refl f) fun _ => ?_)
    (fun f₁ h₁ hout => ?_) (fun f₁ h₁ _ => ?_) (fun f₃ ⟨h₃, _⟩ _ => ?_) (fun f₃ ⟨h₃, _⟩ _ => ?_)
    fun f₃ ⟨h₃, hnone⟩ => ⟨h₃.resume, Or.inl hnone⟩
  · exact (quiet_startAsync f).mono (fun _ h => h) fun _ _ h => h.ends
  · exact (hpoll f₁ h₁).pollIncomplete fun hno hread =>
      any_launches_eq_false (hno.instantiate hout hread)
  · refine (quiet_pollComplete _).mono (fun f₃ ⟨_, hq, hr⟩ => ⟨(hpoll f₁ h₁).quiet hq, ?_⟩)
      fun _ _ ⟨_, hg⟩ => (hpoll f₁ h₁).giveUp hg
    rw [hr]
    rfl
  · exact (quiet_fail _).mono (fun _ h => h) fun _ _ hg => h₃.resume.giveUp hg
  · exact (quiet_fail _).mono (fun _ h => h) fun _ _ hg => h₃.resume.giveUp hg

/-- **The poll of the call**, at `f'` where it is made. -/
theorem Called.callPoll (h : Called cs f f') (hy : f.ctx.yielded = false)
    (hk : f.ctx.suspendKind = .none)
    (hcs : NoneOverwritten env → env.call.poll.outcome = none → env.call.poll.fuelReadOk = true →
      cs.any (HostCall.launches f.ctx.phaseKind) = false) :
    Ends env f (callPoll env.call.poll f').1 (callPoll env.call.poll f').2 := by
  have h₁ : Called (cs ++ env.call.poll.calls) f (pollFuture env.call.poll f') :=
    h.trans (called_pollFuture _ f')
  refine callPoll_exit (Ends env f) (Called (cs ++ env.call.poll.calls) f) (fun hnone => ?_)
    (fun _ => ?_) fun f₂ h₂ => h₂.callOutcome hy hk
  · refine h₁.pollIncomplete fun hno hread => ?_
    rw [List.any_append, any_launches_eq_false (hno.call hnone hread).2, Bool.or_false]
    exact hcs hno hnone hread
  · exact (quiet_pollComplete _).mono (fun _ ⟨_, hq, _⟩ => h₁.quiet hq)
      fun _ _ ⟨_, hg⟩ => h₁.giveUp hg

theorem runBody_ends (env : RunInput) (f : Frame) :
    Ends env (beginRun f) (runBody env f).1 (runBody env f).2 := by
  have hstages : ((instantiateStage env.instantiate (beginRun f)).andThen fun f =>
      (funcStage env.exportFound f).andThen (callStart env.call)).Sat
        (Called (instantiateCalls f.resume env) (beginRun f)) (Ends env (beginRun f)) := by
    refine (called_instantiateStage env (beginRun f)).andThen fun f₁ ⟨h₁, _⟩ => ?_
    refine ((quiet_funcStage f₁).mono (fun _ h => h) fun _ _ hg => h₁.giveUp hg).andThen
      fun f₂ ⟨h₂, _⟩ => ?_
    exact (quiet_callStart f₂).mono (fun _ h₃ => (h₁.quiet h₂).quiet h₃)
      fun _ _ hg => (h₁.quiet h₂).giveUp hg
  refine hstages.finish fun f₃ h₃ => h₃.callPoll rfl rfl fun hno hnone hread => ?_
  exact any_launches_eq_false (instantiateCalls_subset (hno.call hnone hread).1)

end Ends

/-- What a run returns, and what that says about the subrequests launched in it. -/
structure Returned (env : RunInput) (m : Machine) (rc : Rc) (m' : Machine) : Prop where
  phase : m'.ctx.phaseKind = m.ctx.phaseKind
  rc_cases : rc = .ok ∨ rc = .again ∨ rc = .error
  error : rc = .error → m'.ctx.state = .error
  ok : rc = .ok → launches m'.trace = launches m.trace
  again : rc = .again → m'.ctx.suspendKind = .reschedule ∨ m'.ctx.suspendKind = .waitIo
  waitIo : rc = .again → m'.ctx.suspendKind = .waitIo → launches m.trace < launches m'.trace
  reschedule : NoneOverwritten env → rc = .again → m'.ctx.suspendKind = .reschedule →
    launches m'.trace = launches m.trace

theorem Ends.returned {env : RunInput} {m : Machine} {f f' : Frame} {rc : Rc}
    (h : Ends env f rc f') (hp : f.ctx.phaseKind = m.ctx.phaseKind)
    (hl : launches f.trace = launches m.trace) {state : ExecState} {kind : SuspendKind} :
    Returned env m rc { f'.toMachine with trace := .ret rc state kind :: f'.trace } := by
  obtain ⟨cs, hlog, hdec⟩ := h
  have hphase : f'.ctx.phaseKind = m.ctx.phaseKind := hlog.phase.trans hp
  have hlaunched : launches f'.trace =
      launches m.trace + cs.countP (HostCall.launches f.ctx.phaseKind) := by
    rw [hlog.launched, hl]
  have hzero : cs.any (HostCall.launches f.ctx.phaseKind) = false → launches f'.trace =
      launches m.trace := fun hno => by
    rw [hlaunched, List.countP_eq_zero.mpr fun c hc => List.any_eq_false.mp hno c hc]
    rfl
  cases hdec with
  | error hs => exact ⟨hphase, by simp, fun _ => hs, nofun, nofun, nofun, nofun⟩
  | incomplete hk hcs =>
    refine ⟨hphase, by simp, nofun, nofun, fun _ => Or.inl hk, fun _ hk' => ?_,
      fun hno _ _ => hzero (hcs hno)⟩
    exact absurd (hk.symm.trans hk') nofun
  | suspended hs hk =>
    cases hany : cs.any (HostCall.launches f.ctx.phaseKind) with
    | false =>
      rw [hany] at hk
      exact ⟨hphase, by simp, nofun, nofun, fun _ => Or.inl hk,
        fun _ hk' => absurd (hk.symm.trans hk') nofun, fun _ _ _ => hzero hany⟩
    | true =>
      rw [hany] at hk
      refine ⟨hphase, by simp, nofun, nofun, fun _ => Or.inr hk, fun _ _ => ?_,
        fun _ _ hk' => absurd (hk.symm.trans hk') nofun⟩
      obtain ⟨c, hc, hcl⟩ := List.any_eq_true.mp hany
      have hpos := List.countP_pos_iff.mpr ⟨c, hc, hcl⟩
      show launches m.trace < launches f'.trace
      omega
  | ok hs =>
    refine ⟨hphase, by simp, nofun, fun _ => hzero ?_, nofun, nofun, nofun⟩
    -- what launches also suspends
    rw [List.any_eq_false] at hs ⊢
    intro c hc hl
    refine hs c hc ?_
    cases c with
    | subreq rc => exact hl
    | yield | other => cases hl

/-- A run that fails before it has a resume state. -/
theorem returned_error {env : RunInput} {m m' : Machine} (hp : m'.ctx.phaseKind = m.ctx.phaseKind)
    (hs : m'.ctx.state = .error) : Returned env m .error m' :=
  ⟨hp, by simp, fun _ => hs, nofun, nofun, nofun, nofun⟩

/-- From the store on. -/
theorem start_ends (env : RunInput) (f : Frame) :
    ∃ f₀ : Frame, f₀.ctx.phaseKind = f.ctx.phaseKind ∧ launches f₀.trace = launches f.trace ∧
      Ends env f₀ ((prepareStore env.storeNewOk env.setFuelOk f).finish (runBody env)).1
        ((prepareStore env.storeNewOk env.setFuelOk f).finish (runBody env)).2 := by
  have hq := quiet_prepareStore f env.storeNewOk env.setFuelOk
  cases hx : prepareStore env.storeNewOk env.setFuelOk f with
  | next f₁ =>
    rw [hx] at hq
    exact ⟨beginRun f₁, hq.phase, hq.launched, runBody_ends env f₁⟩
  | ret rc f₁ =>
    rw [hx] at hq
    exact ⟨f, rfl, rfl, hq.ends⟩

/-- **What a run returns.** -/
theorem run_returned (env : RunInput) (m : Machine) :
    Returned env m (run env m).1 (run env m).2 := by
  unfold run runUnlogged
  split
  · exact returned_error rfl rfl
  · split
    · exact returned_error rfl rfl
    · split
      · exact returned_error rfl rfl
      · obtain ⟨f, hp, hl, he⟩ := start_ends env
          ⟨m.ctx, m.resumeState.getD {}, m.nextId, m.trace⟩
        exact he.returned hp hl

end NgxWasm.Runtime
