import NgxWasm.Request.Contexts

/-!
# The pool releases every store

Between two operations each execution context of a module context keeps its books
(`Runtime.Machine.Booked`), the log context and what has been overwritten hold nothing, and a context
whose cleanup is not registered is one for which there was no memory to register it (`Sound`).

A function of the model that changes a context says what it overwrites, and `Keeps` asks that this
holds nothing any more. It composes (`seq`), so that each hook is a chain of short lemmas.

* `step_sound`: every hook keeps `Sound`.
* `cleanups_cleanedUp`: the handlers of the pool clean up every context they are registered for, in
  whatever order.
* `stores_released`: when the pool is destroyed every store and every future that any hook of the
  request or of its subrequests has had is deleted once, none is used after that, and only a context
  that could not be registered still holds any.

The requests of one pool are a request and its subrequests, each with a module context of its own
(`Request.Contexts`), and an operation is a hook on one of them, with whatever fails in it. What a run
of a guest creates and deletes is not looked at again here: that a run, an initialisation and a cleanup
keep the books comes from `Runtime.Handles`.
-/

namespace NgxWasm.Request.Contexts

open Lib
open NgxWasm.Runtime (Phase Machine RunInput initExecCtx cleanupExecCtx deals run_booked
  cleanup_booked cleanup_settled initExecCtx_booked)

/-! ## Execution contexts -/

/-- Nothing is held. -/
def Settled (m : Machine) : Prop :=
  Ledger.Sound (deals m.trace) ∧ Ledger.held (deals m.trace) = 0

theorem settled_zeroExec : Settled zeroExec := ⟨trivial, rfl⟩

/-- The invariant of a module context between two operations. -/
structure Ctx.Rests (ctx : Ctx) : Prop where
  exec : ctx.exec.Booked
  headerFilter : ctx.headerFilterExec.Booked
  bodyFilter : ctx.bodyFilterExec.Booked
  headerFilterSet : ctx.headerFilterExecSet = false → Settled ctx.headerFilterExec
  bodyFilterSet : ctx.bodyFilterExecSet = false → Settled ctx.bodyFilterExec
  log : Settled ctx.logExec
  logSet : ctx.logExecSet = false

theorem booked_zeroExec : zeroExec.Booked := initExecCtx_booked _ _ _ _ _

theorem rests_new : ({} : Ctx).Rests :=
  ⟨booked_zeroExec, booked_zeroExec, booked_zeroExec, fun _ => settled_zeroExec,
    fun _ => settled_zeroExec, settled_zeroExec, rfl⟩

/-- A change that keeps the invariant, and overwrites nothing that holds anything. -/
def Keeps (g : Ctx → Ctx × List Machine) : Prop :=
  ∀ ctx, ctx.Rests → (g ctx).1.Rests ∧ ∀ m ∈ (g ctx).2, Settled m

section Changes

variable {confs : Nat → WasmConf} {rt : RuntimeEnv}

theorem keeps_skip : Keeps fun ctx => (ctx, []) := fun _ h => ⟨h, List.forall_mem_nil _⟩

theorem initExec_booked (ref : PhaseRef) (timesliceFuel : Nat) :
    (initExec confs rt ref timesliceFuel).Booked := initExecCtx_booked _ _ _ _ _

theorem keeps_initRequestExec (ref : PhaseRef) : Keeps (initRequestExec confs rt ref) := by
  intro ctx h
  refine ⟨⟨initExec_booked _ _, h.headerFilter, h.bodyFilter, h.headerFilterSet, h.bodyFilterSet,
    h.log, h.logSet⟩, fun m hm => ?_⟩
  rw [List.mem_singleton.mp hm]
  exact cleanup_settled h.exec

theorem keeps_reuseCtx (wcf : Nat) (hook : Hook) :
    Keeps (reuseCtx confs rt ⟨wcf, hook.phaseKind⟩) := by
  intro ctx h
  have hkind : hook.phaseKind ≠ .log := by cases hook <;> simp [Hook.phaseKind]
  unfold reuseCtx
  simp only [hkind, false_and, if_false, List.append_nil]
  split
  · exact keeps_initRequestExec _ ctx h
  · exact ⟨h, List.forall_mem_nil _⟩

theorem keeps_runRequest (input : RunInput) : Keeps (runRequest input) := by
  intro ctx h
  have hrun : (Runtime.run input ctx.exec).2.Booked := run_booked h.exec
  exact ⟨⟨hrun, h.headerFilter, h.bodyFilter, h.headerFilterSet, h.bodyFilterSet, h.log, h.logSet⟩,
    List.forall_mem_nil _⟩

theorem keeps_runBound (ref : PhaseRef) (prepared : Bool) (input : RunInput) :
    Keeps (runBound ref prepared input) := by
  intro ctx h
  unfold runBound
  split
  · exact keeps_skip ctx h
  · split
    · exact keeps_skip ctx h
    · split
      · exact keeps_skip ctx h
      · exact keeps_runRequest input ctx h

theorem keeps_runHeaderFilter (wcf : Nat) (input : RunInput) :
    Keeps (runHeaderFilter confs rt wcf input) := by
  intro ctx h
  unfold runHeaderFilter
  cases hset : ctx.headerFilterExecSet with
  | true =>
    have hrun : (Runtime.run input ctx.headerFilterExec).2.Booked := run_booked h.headerFilter
    simp only [hset, Bool.not_true, Bool.false_eq_true, if_false]
    exact ⟨⟨h.exec, hrun, h.bodyFilter, fun hno => Bool.noConfusion (show true = false from hno),
      h.bodyFilterSet, h.log, h.logSet⟩, List.forall_mem_nil _⟩
  | false =>
    have hrun : (Runtime.run input (initExec confs rt ⟨wcf, .headerFilter⟩
        (confs wcf).timesliceFuel)).2.Booked := run_booked (initExec_booked _ _)
    simp only [Bool.not_false, if_true]
    refine ⟨⟨h.exec, hrun, h.bodyFilter, fun hno => Bool.noConfusion (show true = false from hno),
      h.bodyFilterSet, h.log, h.logSet⟩, fun m hm => ?_⟩
    rw [List.mem_singleton.mp hm]
    exact h.headerFilterSet hset

theorem keeps_runChunk (wcf : Nat) (input : RunInput) :
    Keeps fun ctx => (runChunk confs rt wcf input ctx).2 := by
  intro ctx h
  unfold runChunk
  cases hset : ctx.bodyFilterExecSet with
  | true =>
    have hrun : (Runtime.run input ctx.bodyFilterExec).2.Booked := run_booked h.bodyFilter
    simp only [hset, Bool.not_true, Bool.false_eq_true, if_false]
    exact ⟨⟨h.exec, h.headerFilter, hrun, h.headerFilterSet,
      fun hno => Bool.noConfusion (show true = false from hno), h.log, h.logSet⟩, List.forall_mem_nil _⟩
  | false =>
    have hrun : (Runtime.run input (initExec confs rt ⟨wcf, .bodyFilter⟩
        (confs wcf).timesliceFuel)).2.Booked := run_booked (initExec_booked _ _)
    simp only [hset, Bool.not_false, if_true]
    refine ⟨⟨h.exec, h.headerFilter, hrun, h.headerFilterSet,
      fun hno => Bool.noConfusion (show true = false from hno), h.log, h.logSet⟩, fun m hm => ?_⟩
    rw [List.mem_singleton.mp hm]
    exact h.bodyFilterSet hset

theorem keeps_runChunks (wcf : Nat) (inputs : List RunInput) :
    Keeps (runChunks confs rt wcf inputs) := by
  induction inputs with
  | nil => exact keeps_skip
  | cons input inputs ih =>
    intro ctx h
    have hchunk : (runChunk confs rt wcf input ctx).2.1.Rests ∧
        ∀ m ∈ (runChunk confs rt wcf input ctx).2.2, Settled m :=
      keeps_runChunk wcf input ctx h
    unfold runChunks
    dsimp only
    split
    · exact hchunk
    · obtain ⟨hrests, hover⟩ := ih _ hchunk.1
      refine ⟨hrests, fun m hm => ?_⟩
      exact (List.mem_append.mp hm).elim (hover m) (hchunk.2 m)

/-- One change after another. -/
def seq (g k : Ctx → Ctx × List Machine) (ctx : Ctx) : Ctx × List Machine :=
  ((k (g ctx).1).1, (k (g ctx).1).2 ++ (g ctx).2)

/-- **The log phase** cleans up what it has initialised. -/
theorem keeps_initLogExec (wcf : Nat) (input : RunInput) :
    Keeps (seq (initLogExec confs rt wcf) (runLog input)) := by
  intro ctx h
  have hrun : (Runtime.run input (initExec confs rt ⟨wcf, .log⟩ 0)).2.Booked :=
    run_booked (initExec_booked _ _)
  have hlog : Settled (cleanupExecCtx (Runtime.run input (initExec confs rt ⟨wcf, .log⟩ 0)).2) :=
    cleanup_settled hrun
  refine ⟨⟨h.exec, h.headerFilter, h.bodyFilter, h.headerFilterSet, h.bodyFilterSet, hlog, rfl⟩,
    fun m hm => ?_⟩
  rw [List.mem_singleton.mp hm]
  exact h.log

theorem keeps_reuseLog (wcf : Nat) (hset : (confs wcf).set .log = true) (input : RunInput) :
    Keeps (seq (reuseCtx confs rt ⟨wcf, .log⟩) (runLog input)) := by
  intro ctx h
  have hreuse : reuseCtx confs rt ⟨wcf, .log⟩ ctx = initLogExec confs rt wcf ctx := by
    simp [reuseCtx, hset, h.logSet, isRequestPhase]
  have hkeeps := (keeps_initLogExec wcf input : Keeps (seq (initLogExec confs rt wcf) _)) ctx h
  unfold seq at hkeeps ⊢
  rwa [hreuse]

theorem keeps_cleanupCtx : Keeps cleanupCtx := by
  intro ctx h
  unfold cleanupCtx
  refine ⟨⟨cleanup_booked h.exec, ?_, ?_, fun hno => ?_, fun hno => ?_, h.log, h.logSet⟩,
    List.forall_mem_nil _⟩
  · dsimp only
    split
    · exact cleanup_booked h.headerFilter
    · exact h.headerFilter
  · dsimp only
    split
    · exact cleanup_booked h.bodyFilter
    · exact h.bodyFilter
  · have hunset : ctx.headerFilterExecSet = false := hno
    simpa [hunset] using h.headerFilterSet hunset
  · have hunset : ctx.bodyFilterExecSet = false := hno
    simpa [hunset] using h.bodyFilterSet hunset

end Changes

/-! ## The pool -/

/-- The invariant of the pool. -/
structure Sound (p : Pool) : Prop where
  ctxs : ∀ ctx ∈ p.ctxs, ctx.Rests
  overwritten : ∀ m ∈ p.overwritten, Settled m
  registered : ∀ a < p.ctxs.length, a ∈ p.cleanups ∨ a ∈ p.unregistered

variable {p : Pool} {g k : Ctx → Ctx × List Machine} {a : Nat}

theorem update_update (p : Pool) (a : Nat) (g k : Ctx → Ctx × List Machine) :
    (p.update a g).update a k = p.update a (seq g k) := by
  unfold Pool.update
  cases hctx : p.ctxs[a]? with
  | none => simp [hctx]
  | some ctx =>
    have hlt : a < p.ctxs.length := (List.getElem?_eq_some_iff.mp hctx).1
    simp [hlt, seq]

theorem Sound.update (h : Sound p) (hg : Keeps g) (a : Nat) : Sound (p.update a g) := by
  unfold Pool.update
  cases hctx : p.ctxs[a]? with
  | none => exact h
  | some ctx =>
    obtain ⟨hrests, hover⟩ := hg ctx (h.ctxs ctx (List.mem_of_getElem? hctx))
    refine ⟨fun c hc => ?_, fun m hm => ?_, fun b hb => h.registered b (by simpa using hb)⟩
    · rcases List.mem_or_eq_of_mem_set hc with hc | rfl
      · exact h.ctxs c hc
      · exact hrests
    · exact (List.mem_append.mp hm).elim (hover m) (h.overwritten m)

theorem Sound.createCtx (h : Sound p) (alloc : Alloc) (r : Nat) :
    Sound (createCtx alloc r p).2 := by
  unfold Contexts.createCtx
  have hctxs : ∀ ctx ∈ p.ctxs ++ [({} : Ctx)], ctx.Rests := by
    intro ctx hm
    rcases List.mem_append.mp hm with hm | hm
    · exact h.ctxs ctx hm
    · rw [List.mem_singleton.mp hm]
      exact rests_new
  have hlast : ∀ b < (p.ctxs ++ [({} : Ctx)]).length, b < p.ctxs.length ∨ b = p.ctxs.length := by
    intro b hb
    rw [List.length_append, List.length_singleton] at hb
    omega
  split
  · exact h
  dsimp only
  split
  · refine ⟨hctxs, h.overwritten, fun b hb => ?_⟩
    rcases hlast b hb with hold | rfl
    · exact (h.registered b hold).imp id (List.mem_cons_of_mem _)
    · exact .inr List.mem_cons_self
  · refine ⟨hctxs, h.overwritten, fun b hb => ?_⟩
    rcases hlast b hb with hold | rfl
    · exact (h.registered b hold).imp (List.mem_cons_of_mem _) id
    · exact .inl List.mem_cons_self

section Hooks

variable {confs : Nat → WasmConf} {rt : RuntimeEnv} {alloc : Alloc} {r wcf : Nat}

theorem Sound.filterCtx (h : Sound p) : Sound (filterCtx alloc r p).2 := by
  unfold Contexts.filterCtx
  cases p.slots r with
  | some a => exact h
  | none => exact h.createCtx alloc r

theorem Sound.getOrCreateCtx (h : Sound p) (hook : Hook) :
    Sound (getOrCreateCtx confs rt alloc r ⟨wcf, hook.phaseKind⟩ p).2 := by
  have hkind : hook.phaseKind ≠ .log := by cases hook <;> simp [Hook.phaseKind]
  unfold Contexts.getOrCreateCtx
  cases p.slots r with
  | some a => exact h.update (keeps_reuseCtx wcf hook) a
  | none =>
    have hcreated := h.createCtx alloc r
    dsimp only
    generalize Contexts.createCtx alloc r p = q at hcreated
    obtain ⟨o, q⟩ := q
    cases o with
    | none => exact hcreated
    | some a =>
      simp only [hkind, false_and, if_false]
      split
      · exact hcreated.update (keeps_initRequestExec _) a
      · exact hcreated

theorem Sound.runPhase (h : Sound p) (hook : Hook) (prepared : Bool) (input : RunInput) :
    Sound (runPhase confs rt alloc r ⟨wcf, hook.phaseKind⟩ prepared input p) := by
  unfold Contexts.runPhase
  split
  · exact h
  · have hctx : Sound (Contexts.getOrCreateCtx confs rt alloc r ⟨wcf, hook.phaseKind⟩ p).2 :=
      h.getOrCreateCtx hook
    split
    · rename_i heq
      rwa [heq] at hctx
    · rename_i a q heq
      rw [heq] at hctx
      exact hctx.update (keeps_runBound _ prepared input) a

theorem Sound.resumeHandler (h : Sound p) (bodyOk : Bool) (input : RunInput) :
    Sound (resumeHandler r bodyOk input p) := by
  unfold Contexts.resumeHandler
  split
  · exact h
  · split
    · exact h
    · exact h.update (keeps_runRequest input) _

theorem Sound.headerFilterHandler (h : Sound p) (input : RunInput) :
    Sound (headerFilterHandler confs rt alloc r wcf input p) := by
  unfold Contexts.headerFilterHandler
  have hctx : Sound (Contexts.filterCtx alloc r p).2 := h.filterCtx
  split
  · exact h
  · split
    · rename_i heq
      rwa [heq] at hctx
    · rename_i a q heq
      rw [heq] at hctx
      exact hctx.update (keeps_runHeaderFilter wcf input) a

theorem Sound.bodyFilterHandler (h : Sound p) (headerOnly : Bool) (inputs : List RunInput) :
    Sound (bodyFilterHandler confs rt alloc r wcf headerOnly inputs p) := by
  unfold Contexts.bodyFilterHandler
  have hctx : Sound (Contexts.filterCtx alloc r p).2 := h.filterCtx
  split
  · exact h
  · split
    · rename_i heq
      rwa [heq] at hctx
    · rename_i a q heq
      rw [heq] at hctx
      exact hctx.update (keeps_runChunks wcf inputs) a

theorem Sound.logHandler (h : Sound p) (input : RunInput) :
    Sound (logHandler confs rt alloc r wcf input p) := by
  unfold Contexts.logHandler
  split
  · exact h
  split
  · exact h
  rename_i hset
  have hlogset : (confs wcf).set .log = true := by
    simp only [Bool.or_eq_true, Bool.not_eq_true', not_or, Bool.not_eq_false] at hset
    exact hset.1
  unfold Contexts.getOrCreateCtx
  cases p.slots r with
  | some a =>
    dsimp only
    rw [update_update]
    exact h.update (keeps_reuseLog wcf hlogset input) a
  | none =>
    have hcreated := h.createCtx alloc r
    dsimp only
    generalize Contexts.createCtx alloc r p = q at hcreated
    obtain ⟨o, q⟩ := q
    cases o with
    | none => exact hcreated
    | some a =>
      simp only [isRequestPhase, Bool.false_eq_true, false_and, if_false, hlogset, and_self, if_true]
      rw [update_update]
      exact hcreated.update (keeps_initLogExec wcf input) a

end Hooks

/-- **Every hook** keeps the invariant. -/
theorem step_sound {confs : Nat → WasmConf} (h : Sound p) (op : Op) : Sound (step confs p op) := by
  cases op with
  | phase rt alloc r wcf hook prepared input => exact h.runPhase hook prepared input
  | resume r bodyOk input => exact h.resumeHandler bodyOk input
  | headerFilter rt alloc r wcf input => exact h.headerFilterHandler input
  | bodyFilter rt alloc r wcf headerOnly inputs => exact h.bodyFilterHandler headerOnly inputs
  | threadEvent rt r wcf inputs =>
    simp only [step, bodyFilterThreadEvent]
    split
    · exact h
    · exact h.update (keeps_runChunks wcf inputs) _
  | log rt alloc r wcf input => exact h.logHandler input
  | redirect r => exact ⟨h.ctxs, h.overwritten, h.registered⟩

/-! ## The end of the request -/

/-- What `cleanup_ctx` leaves. -/
def CleanedUp (ctx : Ctx) : Prop :=
  Settled ctx.exec ∧ Settled ctx.headerFilterExec ∧ Settled ctx.bodyFilterExec

theorem cleanedUp_cleanupCtx {ctx : Ctx} (h : ctx.Rests) : CleanedUp (cleanupCtx ctx).1 := by
  refine ⟨cleanup_settled h.exec, ?_, ?_⟩
  · simp only [cleanupCtx]
    split
    · exact cleanup_settled h.headerFilter
    · rename_i hunset
      exact h.headerFilterSet (Bool.eq_false_iff.mpr hunset)
  · simp only [cleanupCtx]
    split
    · exact cleanup_settled h.bodyFilter
    · rename_i hunset
      exact h.bodyFilterSet (Bool.eq_false_iff.mpr hunset)

theorem length_update (p : Pool) (a : Nat) (g : Ctx → Ctx × List Machine) :
    (p.update a g).ctxs.length = p.ctxs.length ∧ (p.update a g).unregistered = p.unregistered := by
  unfold Pool.update
  cases p.ctxs[a]? <;> simp

/-- The handler of a context cleans it up, and leaves those clean that are. -/
theorem update_cleanedUp (h : Sound p) (a : Nat) {b : Nat} {ctx : Ctx}
    (hb : (p.update a cleanupCtx).ctxs[b]? = some ctx)
    (hclean : b = a ∨ ∀ c, p.ctxs[b]? = some c → CleanedUp c) : CleanedUp ctx := by
  unfold Pool.update at hb
  cases hctx : p.ctxs[a]? with
  | none =>
    rw [hctx] at hb
    rcases hclean with rfl | hclean
    · cases hctx.symm.trans hb
    · exact hclean ctx hb
  | some c =>
    rw [hctx] at hb
    have hrests := h.ctxs c (List.mem_of_getElem? hctx)
    simp only [List.getElem?_set] at hb
    split at hb
    · split at hb
      · exact Option.some.inj hb ▸ cleanedUp_cleanupCtx hrests
      · cases hb
    · rename_i hne
      exact hclean.elim (fun heq => absurd heq.symm hne) fun hclean => hclean ctx hb

/-- **The handlers** clean up every context they are registered for. -/
theorem cleanups_cleanedUp (as : List Nat) (h : Sound p) :
    Sound (as.foldl (fun p a => p.update a cleanupCtx) p) ∧
      (as.foldl (fun p a => p.update a cleanupCtx) p).ctxs.length = p.ctxs.length ∧
      (as.foldl (fun p a => p.update a cleanupCtx) p).unregistered = p.unregistered ∧
      ∀ b ctx, (as.foldl (fun p a => p.update a cleanupCtx) p).ctxs[b]? = some ctx →
        (b ∈ as ∨ ∀ c, p.ctxs[b]? = some c → CleanedUp c) → CleanedUp ctx := by
  induction as generalizing p with
  | nil => exact ⟨h, rfl, rfl, fun b ctx hb hclean => (hclean.resolve_left (by simp)) ctx hb⟩
  | cons a as ih =>
    obtain ⟨hsound, hlength, hunreg, hclean⟩ := ih (h.update keeps_cleanupCtx a)
    obtain ⟨hlength', hunreg'⟩ := length_update p a cleanupCtx
    refine ⟨hsound, hlength.trans hlength', hunreg.trans hunreg', fun b ctx hb hor => ?_⟩
    refine hclean b ctx hb ?_
    rcases hor with hmem | hold
    · rcases List.mem_cons.mp hmem with rfl | hmem
      · exact .inr fun c hc => update_cleanedUp h b hc (.inl rfl)
      · exact .inl hmem
    · exact .inr fun c hc => update_cleanedUp h a hc (.inr hold)

theorem sound_empty : Sound {} :=
  ⟨List.forall_mem_nil _, List.forall_mem_nil _, fun a ha => absurd ha (Nat.not_lt_zero a)⟩

/-- Every store and future is deleted exactly as often as it was created, once at most, and no future
was started in a store before its creation or after its deletion. -/
structure ReleasedOnce (m : Machine) : Prop where
  once : ∀ h, (deals m.trace).count (.release h) = (deals m.trace).count (.acquire h) ∧
    (deals m.trace).count (.acquire h) ≤ 1
  between : ∀ later earlier h, deals m.trace = later ++ .use h :: earlier →
    .acquire h ∈ earlier ∧ .release h ∉ earlier

theorem Settled.releasedOnce {m : Machine} (h : Settled m) : ReleasedOnce m where
  once := h.1.settled h.2
  between later earlier k heq := by
    have hsound := h.1
    rw [heq] at hsound
    exact hsound.use_between

/-- **The pool releases every store**: after any operations on a request and its subrequests, each
execution context that was ever set up has released what it had, once, when the pool is destroyed.
Only a context for which `ngx_pool_cleanup_add` found no memory may still hold a store, and then not
for the log phase. -/
theorem stores_released (confs : Nat → WasmConf) (ops : List Op) :
    let p := (runFrom (step confs) {} ops).destroy
    (∀ m ∈ p.overwritten, ReleasedOnce m) ∧
      ∀ a ctx, p.ctxs[a]? = some ctx → ReleasedOnce ctx.logExec ∧
        (a ∈ p.unregistered ∨ ReleasedOnce ctx.exec ∧ ReleasedOnce ctx.headerFilterExec ∧
          ReleasedOnce ctx.bodyFilterExec) := by
  have h : Sound (runFrom (step confs) {} ops) :=
    run_invariant ops sound_empty fun p op hp => step_sound hp op
  intro p
  obtain ⟨hsound, hlength, hunreg, hclean⟩ :=
    cleanups_cleanedUp (runFrom (step confs) {} ops).cleanups h
  refine ⟨fun m hm => (hsound.overwritten m hm).releasedOnce, fun a ctx ha => ?_⟩
  refine ⟨(hsound.ctxs ctx (List.mem_of_getElem? ha)).log.releasedOnce, ?_⟩
  have hlt : a < (runFrom (step confs) {} ops).ctxs.length := by
    rw [← hlength]
    exact (List.getElem?_eq_some_iff.mp ha).1
  rcases h.registered a hlt with hregistered | hlost
  · obtain ⟨hexec, hheader, hbody⟩ := hclean a ctx ha (.inl hregistered)
    exact .inr ⟨hexec.releasedOnce, hheader.releasedOnce, hbody.releasedOnce⟩
  · exact .inl (by rw [← hunreg] at hlost; exact hlost)

end NgxWasm.Request.Contexts
