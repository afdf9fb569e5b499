import NgxWasm.Request.Holder

/-!
# What one step does

The phase engine runs the next phase (`runPhase_ran`), and its checkers pass the request on
(`runPhases_passed`). With the two handlers this makes up all steps (`step_occurs`): each passes the
request on from one holder to one holder, whatever nginx and the guest do (`step_held`).

`Stepped` is what one step is known for: the new holder, the references it keeps in balance, and that
a suspended request goes on waiting for what it is suspended for. The balance has one exception, which
is part of the statement: the content phase comes to a body that has to be waited for
(`EngineReadsLater`). What becomes of the references then is in `Request.Count`.

* `checkRewrite_passed`, `checkContent_passed`: the two checkers. The content phase drops one more
  reference than the others.
* `step_occurs`: what comes of an event, or that it changes nothing.
* `step_held`: one step passes the request on.

A step takes the request from its holder, runs one function of the source, and gives it to the next one
(`Passed`, from `Request.Holder`). The cases are those of the source: for the phase engine the ways in
which `run_phase` returns (`PhaseRan`), and for the events from outside whether the request still waits
for them. An event that nginx cannot produce in a state changes nothing there (`Occurs`).
-/

namespace NgxWasm.Request

/-! ## The phase engine -/

/-- How `run_phase` ends when the phase engine calls it. -/
inductive PhaseRan (conf : Conf) (hook : Hook) (i : Input) (s s' : State) : Rc → Prop
  /-- The guest was not run: the hook is not set, or it has run. -/
  | declined (hreq : s'.req = s.req) (hctx : ∀ ctx ∈ s'.ctx, CtxHeld .engine ctx)
      (ha : Awaits .engine s → Awaits .engine s') : PhaseRan conf hook i s s' .declined
  /-- It could not be run. -/
  | failed (rc : Rc) (hrc : Ends rc) (hcount : s'.req.count = s.req.count)
      (hfreed : s'.req.freedEarly = s.req.freedEarly) (hb : s'.req.bodyPending = false)
      (hs : s'.req.suspended = false) (ha : Awaits .engine s → Awaits .nobody s') :
      PhaseRan conf hook i s s' rc
  /-- It was run. -/
  | ran (rc : Rc) (f f' : Frame) (hf : Running .engine f)
      (hphase : f.ctx.exec.machine.ctx.phaseKind = hook.phaseKind)
      (hcount : f.req.count = s.req.count) (hfreed : f.req.freedEarly = s.req.freedEarly)
      (hidle : Awaits .engine s → Idle f) (hran : Ran .engine i f f' rc) (hs : s' = f'.toState) :
      PhaseRan conf hook i s s' rc
  /-- Its body has to be waited for. -/
  | waits (f f' : Frame) (hf : Running .engine f) (hset : conf.set hook = true ∧ conf.runtimeSet = true)
      (hctx : getOrCreateCtx conf hook i s.ctx = .ok f.ctx) (hconf : f.ctx.exec.conf = some hook)
      (hphase : f.ctx.exec.machine.ctx.phaseKind = hook.phaseKind) (hreq : f.req = s.req)
      (hidle : Awaits .engine s → Idle f) (hread : Reading f f') (hlater : ReadsLater conf hook i f)
      (hs : s' = (finalizeAsync .done f').toState) : PhaseRan conf hook i s s' .done

section Engine

variable {conf : Conf} {hook : Hook} {i : Input} {s : State}

theorem ctxHeld_newCtx : CtxHeld .engine newCtx :=
  ⟨rfl, rfl, nofun, Or.inl rfl, nofun, nofun⟩

theorem ctxHeld_initRequestExec {ctx : Ctx} (h : CtxHeld .engine ctx) :
    CtxHeld .engine (initRequestExec conf hook ctx) :=
  ⟨h.waiting, h.reading, nofun, h.status, fun _ hh => by cases hh; rfl, nofun⟩

/-- `get_or_create_ctx` gives the phase engine a context that nobody else works on. -/
theorem getOrCreateCtx_ok {slot : Option Ctx} (h : ∀ ctx ∈ slot, CtxHeld .engine ctx) {ctx : Ctx}
    (hget : getOrCreateCtx conf hook i slot = .ok ctx) : CtxHeld .engine ctx ∧
      ((∀ ctx ∈ slot, ctx.subrequestActive = false) → ctx.subrequestActive = false) := by
  cases slot with
  | some old =>
    have hold := h old rfl
    simp only [getOrCreateCtx] at hget
    split at hget
    · obtain rfl := Except.ok.inj hget
      exact ⟨ctxHeld_initRequestExec hold, fun ha => ha old rfl⟩
    · obtain rfl := Except.ok.inj hget
      exact ⟨hold, fun ha => ha old rfl⟩
  | none =>
    simp only [getOrCreateCtx] at hget
    split at hget
    · exact absurd hget nofun
    · split at hget
      · exact absurd hget nofun
      · split at hget
        · obtain rfl := Except.ok.inj hget
          exact ⟨ctxHeld_initRequestExec ctxHeld_newCtx, fun _ => rfl⟩
        · exact absurd hget nofun

/-- Where it gives none, the request is left without a context or with a new one. -/
theorem getOrCreateCtx_error {slot slot' : Option Ctx}
    (hget : getOrCreateCtx conf hook i slot = .error slot') : slot' = none ∨ slot' = some newCtx := by
  cases slot with
  | some old =>
    simp only [getOrCreateCtx] at hget
    split at hget <;> exact absurd hget nofun
  | none =>
    simp only [getOrCreateCtx] at hget
    split at hget
    · exact Or.inl (Except.error.inj hget).symm
    · split at hget
      · exact Or.inr (Except.error.inj hget).symm
      · split at hget
        · exact absurd hget nofun
        · exact Or.inr (Except.error.inj hget).symm

/-- The phase engine is not called by the resume handler. -/
theorem HeldBy.not_resume (hs : HeldBy .engine s) : s.req.writeHandler ≠ .resume := by
  intro h
  exact absurd ((hs.handler nofun).mp h) nofun

/-- A frame of the phase engine whose guest has not completed, with the body settled. -/
theorem Settled.running {ctx : Ctx} {g : Frame} (hg : Settled ⟨s.req, ctx⟩ g)
    (hs : HeldBy .engine s) (hctx : CtxHeld .engine ctx) (hcompleted : ctx.execCompleted = false) :
    Running .engine g := by
  have hh := hg.hold
  refine ⟨(congrArg Hold.engine hh).trans hs.engine, (congrArg Hold.bodyPending hh).trans
    hs.bodyPending, (congrArg Hold.suspended hh).trans hs.suspended,
    (congrArg Hold.finalized hh).trans hs.finalized, ?_,
    (congrArg Hold.waiting hh).trans hctx.waiting, hg.reading, hg.status, fun k hk => ?_,
    (congrArg Hold.execCompleted hh).trans hcompleted⟩
  · rw [show g.req.writeHandler = s.req.writeHandler from congrArg Hold.writeHandler hh]
    exact fun _ => hs.not_resume
  · rw [show g.ctx.exec.machine = ctx.exec.machine from congrArg Hold.machine hh]
    exact hctx.kind k ((congrArg Hold.conf hh).symm.trans hk)

theorem Settled.idle {f g : Frame} (hg : Settled f g) (hf : Idle f) : Idle g :=
  ⟨(congrArg Hold.posted hg.hold).trans hf.1, (congrArg Hold.subrequestActive hg.hold).trans hf.2⟩

/-- **`run_phase`.** -/
theorem runPhase_ran (hs : HeldBy .engine s) :
    PhaseRan conf hook i s (runPhase conf hook i s).2 (runPhase conf hook i s).1 := by
  unfold runPhase
  split
  · exact .declined rfl (hs.ctx nofun) id
  rename_i hset
  have hset : conf.set hook = true ∧ conf.runtimeSet = true := by simpa using hset
  cases hget : getOrCreateCtx conf hook i s.ctx with
  | error slot =>
    refine .failed _ (ends_http _) rfl rfl hs.bodyPending hs.suspended fun _ ctx hc hactive => ?_
    rcases getOrCreateCtx_error hget with rfl | rfl
    · exact absurd hc nofun
    · obtain rfl := Option.mem_some_iff.mp hc
      exact absurd hactive nofun
  | ok ctx =>
    obtain ⟨hctx, hactive⟩ := getOrCreateCtx_ok (hs.ctx nofun) hget
    dsimp only
    split
    · refine .failed _ (ends_http _) rfl rfl hs.bodyPending hs.suspended fun ha c hc hyes => ?_
      cases hc
      exact absurd ((hactive ha.2).symm.trans hyes) nofun
    rename_i hconf
    have hconf := not_not.mp hconf
    split
    · refine .declined rfl (fun c hc => ?_) fun ha => ⟨ha.1, fun c hc => ?_⟩
      · cases hc
        exact hctx
      · cases hc
        exact hactive ha.2
    rename_i hdone
    -- the guest has not completed: a completed content phase would have ended the request
    have hcompleted : ctx.execCompleted = false := by
      rw [Bool.eq_false_iff]
      intro hyes
      refine hdone ⟨hyes, fun hcontent => ?_⟩
      exact (hctx.completed hyes).2 (hconf.trans (congrArg some hcontent))
    have hphase : ctx.exec.machine.ctx.phaseKind = hook.phaseKind := hctx.kind hook hconf
    have hrunning : ∀ g : Frame, Settled ⟨s.req, ctx⟩ g → Running .engine g := fun g hg =>
      hg.running hs hctx hcompleted
    have hidle : ∀ g : Frame, Settled ⟨s.req, ctx⟩ g → Awaits .engine s → Idle g := fun g hg ha =>
      hg.idle ⟨ha.1, hactive ha.2⟩
    have hprep : (prepareRequestBody conf hook i ⟨s.req, ctx⟩).Sat _ _ :=
      prepareRequestBody_cases hctx.reading hctx.status
    have hself : Settled ⟨s.req, ctx⟩ ⟨s.req, ctx⟩ := ⟨rfl, hctx.reading, hctx.status⟩
    cases hx : prepareRequestBody conf hook i ⟨s.req, ctx⟩ with
    | next g =>
      rw [hx] at hprep
      have hg : Settled ⟨s.req, ctx⟩ g := hprep
      refine .ran _ g _ (hrunning g hg) ?_ (congrArg Hold.count hg.hold)
        (congrArg Hold.freedEarly hg.hold) (hidle g hg) (runRequest_ran (hrunning g hg)) rfl
      rw [show g.ctx.exec.machine = ctx.exec.machine from congrArg Hold.machine hg.hold]
      exact hphase
    | ret rc g =>
      rw [hx] at hprep
      rcases hprep with ⟨hends, hg⟩ | ⟨rfl, hread, hlater⟩
      · have hfin : finalizeAsync rc g = g := by
          unfold finalizeAsync
          rw [if_neg fun h => hends.1 h.1]
        dsimp only
        rw [hfin]
        refine .failed _ hends (congrArg Hold.count hg.hold) (congrArg Hold.freedEarly hg.hold)
          (hrunning g hg).bodyPending (hrunning g hg).suspended fun ha c hc hyes => ?_
        cases hc
        exact absurd ((hidle g hg ha).2.symm.trans hyes) nofun
      · exact .waits ⟨s.req, ctx⟩ g (hrunning _ hself) hset hget hconf hphase rfl (hidle _ hself)
          hread hlater rfl

/-- The handler of the content phase reads a body, and it does not come at once. -/
structure ContentReadsLater (conf : Conf) (s : State) (i : Input) : Prop where
  set : conf.set .content = true ∧ conf.runtimeSet = true
  reads : ∃ ctx, getOrCreateCtx conf .content i s.ctx = .ok ctx ∧
    ctx.exec.conf = some .content ∧ ReadsLater conf .content i ⟨s.req, ctx⟩

variable {nc idle : Prop} {f f' : Frame}

/-- A body that has to be waited for passes the request on to the body handler. -/
theorem passed_waits (hf : Running .engine f) (hread : Reading f f') {req : Req}
    (hreq : req = { f'.req with count := req.count, engine := false, freedEarly := req.freedEarly })
    (hb : nc → f.req.count = 1 → req.count = 1 ∧ req.freedEarly = f.req.freedEarly ∧
      f.ctx.exec.machine.ctx.phaseKind ≠ .content) (ha : idle → Idle f) :
    Passed nc idle i f.req .bodyHandler ⟨req, some f'.ctx⟩ := by
  have hh := hread.hold
  have hmachine : f'.ctx.exec.machine = f.ctx.exec.machine := congrArg Hold.machine hh
  have hcompleted : f'.ctx.execCompleted = f.ctx.execCompleted := congrArg Hold.execCompleted hh
  refine ⟨⟨by rw [hreq]; rfl, ?_, ?_, ?_, fun _ => ?_, fun _ ctx hctx => ?_⟩, fun hn hone => ?_,
    fun hi _ => ⟨?_, fun ctx hctx => ?_⟩⟩
  · rw [hreq]
    exact congrArg Hold.bodyPending hh
  · rw [hreq]
    exact (congrArg Hold.suspended hh).trans hf.suspended
  · rw [hreq]
    exact (congrArg Hold.finalized hh).trans hf.finalized
  · rw [hreq]
    have hw : f'.req.writeHandler = .empty := congrArg Hold.writeHandler hh
    exact ⟨fun h => absurd (hw.symm.trans h) nofun, nofun⟩
  · cases hctx
    refine ⟨(congrArg Hold.waiting hh).trans hf.waiting, hread.reading,
      fun _ => ⟨hread.async, hread.status⟩, Or.inl hread.status, fun k hk => ?_, fun hdone => ?_⟩
    · rw [hmachine]
      exact hf.kind k ((congrArg Hold.conf hh).symm.trans hk)
    · exact absurd ((hcompleted.trans hf.completed).symm.trans hdone) nofun
  · obtain ⟨h1, h2, h3⟩ := hb hn hone
    refine ⟨h1, h2, ?_⟩
    rintro ⟨-, ctx, hctx, hk⟩
    cases hctx
    rw [hmachine] at hk
    exact h3 hk
  · rw [hreq]
    exact (congrArg Hold.posted hh).trans (ha hi).1
  · cases hctx
    exact (congrArg Hold.subrequestActive hh).trans (ha hi).2

theorem finalizeAsync_done (h : f.ctx.bodyAsync = true) :
    finalizeAsync .done f = { f with req := f.req.drop } := by
  unfold finalizeAsync
  rw [if_pos ⟨rfl, h⟩]
  rfl

/-- One reference of two is dropped. -/
theorem drop_of_two {r : Req} (h : r.count = 2) :
    r.drop.count = 1 ∧ r.drop.freedEarly = r.freedEarly := by
  unfold Req.drop
  constructor
  · show r.count - 1 = 1
    omega
  · have : ¬ r.count ≤ 1 := by omega
    simp [this]

/-- A phase that did not run its guest leaves the request to the phase engine. -/
theorem held_next {s' : State} (hs : HeldBy .engine s) (hreq : s'.req = s.req)
    (hctx : ∀ ctx ∈ s'.ctx, CtxHeld .engine ctx) {req : Req}
    (hr : req = { s'.req with
      writeHandler := req.writeHandler, engine := true, position := req.position })
    (hh : req.writeHandler ≠ .resume) (ha : Awaits .engine s → Awaits .engine s') :
    Passed nc (Awaits .engine s) i s.req .engine { s' with req := req } := by
  have hb : req.bodyPending = false := by rw [hr, hreq]; exact hs.bodyPending
  refine ⟨⟨by rw [hr]; rfl, hb, by rw [hr, hreq]; exact hs.suspended, by rw [hr, hreq]; exact hs.finalized,
    fun _ => ⟨fun h => absurd h hh, nofun⟩, fun _ => hctx⟩, fun _ hone => ⟨?_, ?_, ?_⟩, fun hi _ => ?_⟩
  · rw [hr, hreq]
    exact hone
  · rw [hr, hreq]
  · exact not_waitsInContent hb
  · refine ⟨?_, (ha hi).2⟩
    rw [hr]
    exact (ha hi).1

/-- Where the guest has run, the two checkers pass the request on as `resume_handler` does; `req` is
what the checker makes of a suspended request. -/
theorem ran_passed {rc : Rc} (hf : Running .engine f) (hcount : f.req.count = s.req.count)
    (hfreed : f.req.freedEarly = s.req.freedEarly) (hidle : Awaits .engine s → Idle f)
    (hran : Ran .engine i f f' rc) {g : State} (rest : List Hook)
    (hdone : rc = .done → ∃ req, g = ⟨req, some f'.ctx⟩ ∧
      req = { f'.req with count := req.count, engine := false, freedEarly := req.freedEarly } ∧
      (f.req.count = 1 → req.count = 1 ∧ req.freedEarly = f'.req.freedEarly))
    (hdeclined : rc = .declined → ∃ req, g = ⟨req, some f'.ctx⟩ ∧ req = { f'.req with
      writeHandler := req.writeHandler, engine := true, position := rest } ∧
      (f'.req.writeHandler ≠ .resume → req.writeHandler ≠ .resume))
    (hends : Ends rc → g = ⟨f'.req.finalize rc, some f'.ctx⟩) :
    ∃ h', Passed nc (Awaits .engine s) i s.req h' g := by
  cases hran with
  | suspended hafter hs hw hwait hc hcount' ha =>
    obtain ⟨req, rfl, hreq, hone⟩ := hdone rfl
    refine ⟨.resumeHandler, (passed_suspended hafter hreq hs hw hwait hc (fun _ h1 => ?_)
      fun hi hno => ha (hidle hi) hno).congr hcount.symm hfreed.symm⟩
    obtain ⟨h2, h3⟩ := hone h1
    exact ⟨h2, h3.trans hafter.freedEarly⟩
  | declined hafter hs hw hwait hc hcount' ha =>
    obtain ⟨req, rfl, hreq, hh⟩ := hdeclined rfl
    refine ⟨.engine, (passed_declined hafter ?_ (hh ?_) hs hwait hc hcount' fun hi =>
      ha (hidle hi)).congr hcount.symm hfreed.symm⟩
    · rw [hreq]
    · rw [hw]
      exact hf.handler rfl
  | ends rc hrc hafter hs hcount' ha =>
    rw [hends hrc]
    refine ⟨.nobody, (passed_finalize hrc hafter.bodyPending hs fun hi hno ctx hctx => ?_).congr
      (hcount'.trans hcount).symm (hafter.freedEarly.trans hfreed).symm⟩
    cases hctx
    exact ha (hidle hi) hno

theorem checkRewrite_ends {rc : Rc} (hrc : Ends rc) (rest : List Hook) (g : State) :
    checkRewrite rest (rc, g) = { g with req := g.req.finalize rc } := by
  cases rc with
  | done => exact absurd rfl hrc.1
  | declined => exact absurd rfl hrc.2
  | _ => rfl

/-- **The rewrite phases.** -/
theorem checkRewrite_passed {rc : Rc} {s' : State} (hs : HeldBy .engine s) (rest : List Hook)
    (hhook : hook ≠ .content) (hran : PhaseRan conf hook i s s' rc) :
    ∃ h', Passed nc (Awaits .engine s) i s.req h' (checkRewrite rest (rc, s')) := by
  have hkind : hook.phaseKind ≠ .content := by
    cases hook with
    | content => exact absurd rfl hhook
    | serverRewrite | rewrite => exact nofun
  cases hran with
  | declined hreq hctx ha =>
    refine ⟨.engine, held_next hs hreq hctx ?_ ?_ ha⟩
    · rw [hreq, ← hs.engine.trans (decide_eq_true rfl)]
    · show s'.req.writeHandler ≠ .resume
      rw [hreq]
      exact hs.not_resume
  | failed rc hrc hcount hfreed hb hsus ha =>
    rw [checkRewrite_ends hrc]
    exact ⟨.nobody, (passed_finalize hrc hb hsus fun hi _ => ha hi).congr hcount.symm hfreed.symm⟩
  | ran rc f f' hf hphase hcount hfreed hidle hran hs' =>
    subst hs'
    refine ran_passed hf hcount hfreed hidle hran rest (fun hdone => ?_)
      (fun hdeclined => ?_) fun hends => checkRewrite_ends hends rest _
    · subst hdone
      refine ⟨_, rfl, rfl, fun hone => ⟨?_, rfl⟩⟩
      cases hran with
      | suspended _ _ _ _ _ hcount' =>
        show f'.req.count = 1
        rw [hcount', if_neg fun h => hkind (hphase ▸ h.2), hone]
      | ends _ hrc => exact absurd rfl hrc.1
    · subst hdeclined
      refine ⟨_, rfl, ?_, id⟩
      have hengine : f'.req.engine = true := by
        cases hran with
        | declined hafter => exact hafter.engine.trans hf.engine
        | ends _ hrc => exact absurd rfl hrc.2
      rw [← hengine]
      rfl
  | waits f f' hf hset hctx hconf hphase hreq hidle hread hlater hs' =>
    subst hs'
    rw [finalizeAsync_done hread.async]
    refine ⟨.bodyHandler, (passed_waits hf hread rfl (fun _ hone => ?_) hidle).congr
      (congrArg Req.count hreq).symm (congrArg Req.freedEarly hreq).symm⟩
    have hcount : f'.req.count = f.req.count + 1 := congrArg Hold.count hread.hold
    have hfreed : f'.req.freedEarly = f.req.freedEarly := congrArg Hold.freedEarly hread.hold
    obtain ⟨h1, h2⟩ := drop_of_two (r := f'.req) (by omega)
    exact ⟨h1, h2.trans hfreed, fun h => hkind (hphase ▸ h)⟩

theorem checkContent_ends {rc : Rc} (hrc : Ends rc) (rest : List Hook) (g : State) :
    checkContent rest (rc, g) = { g with req := g.req.finalize rc } := by
  unfold checkContent
  rw [if_neg hrc.2, finalize_ends hrc]

/-- **The content phase**, which drops one more reference than the others. -/
theorem checkContent_passed {rc : Rc} {s' : State} (hs : HeldBy .engine s) (rest : List Hook)
    (hran : PhaseRan conf .content i s s' rc) :
    ∃ h', Passed (¬ ContentReadsLater conf s i) (Awaits .engine s) i s.req h'
      (checkContent rest (rc, s')) := by
  cases hran with
  | declined hreq hctx ha => exact ⟨.engine, held_next hs hreq hctx rfl nofun ha⟩
  | failed rc hrc hcount hfreed hb hsus ha =>
    rw [checkContent_ends hrc]
    exact ⟨.nobody, (passed_finalize hrc hb hsus fun hi _ => ha hi).congr hcount.symm hfreed.symm⟩
  | ran rc f f' hf hphase hcount hfreed hidle hran hs' =>
    subst hs'
    refine ran_passed hf hcount hfreed hidle hran rest (fun hdone => ?_)
      (fun hdeclined => ?_) fun hends => checkContent_ends hends rest _
    · subst hdone
      refine ⟨_, rfl, rfl, fun hone => ?_⟩
      cases hran with
      | suspended _ _ _ _ _ hcount' =>
        rw [if_pos ⟨nofun, hphase⟩] at hcount'
        exact drop_of_two (r := f'.req) (by omega)
      | ends _ hrc => exact absurd rfl hrc.1
    · subst hdeclined
      exact ⟨_, rfl, rfl, fun _ => nofun⟩
  | waits f f' hf hset hctx hconf hphase hreq hidle hread hlater hs' =>
    subst hs'
    rw [finalizeAsync_done hread.async]
    refine ⟨.bodyHandler, (passed_waits hf hread rfl (fun hno _ => ?_) hidle).congr
      (congrArg Req.count hreq).symm (congrArg Req.freedEarly hreq).symm⟩
    refine absurd ⟨hset, f.ctx, hctx, hconf, ?_⟩ hno
    rw [← hreq]
    exact hlater

/-- **The phase engine passes the request on.** -/
theorem runPhases_passed (hs : HeldBy .engine s) :
    ∃ h', Passed (¬ ((∃ rest, s.req.position = .content :: rest) ∧ ContentReadsLater conf s i))
      (Awaits .engine s) i s.req h' (runPhases conf i s) := by
  unfold runPhases
  cases hposition : s.req.position with
  | nil =>
    refine ⟨.nobody, passed_finalize ⟨nofun, nofun⟩ hs.bodyPending hs.suspended
      fun ha _ ctx hctx hactive => ?_⟩
    exact absurd ((ha.2 ctx hctx).symm.trans hactive) nofun
  | cons hook rest =>
    cases hook with
    | content =>
      have hs' : HeldBy .engine { s with req.writeHandler := .empty } :=
        ⟨hs.engine, hs.bodyPending, hs.suspended, hs.finalized, fun _ => ⟨nofun, nofun⟩, hs.ctx⟩
      obtain ⟨h', hp⟩ := checkContent_passed hs' rest (runPhase_ran (i := i) hs')
      refine ⟨h', hp.held, fun hno hone => hp.balance ?_ hone, hp.awaits⟩
      rintro ⟨hset, ctx, hget, hconf, hlater⟩
      exact hno ⟨⟨rest, rfl⟩, hset, ctx, hget, hconf, hlater.status, hlater.buffered,
        hlater.ready, hlater.reading, hlater.fits, hlater.announced, hlater.later⟩
    | serverRewrite =>
      have hne : Hook.serverRewrite ≠ .content := nofun
      exact checkRewrite_passed hs rest hne (runPhase_ran hs)
    | rewrite =>
      have hne : Hook.rewrite ≠ .content := nofun
      exact checkRewrite_passed hs rest hne (runPhase_ran hs)

end Engine

/-! ## Steps -/

/-- The run of the guest an event may come with. -/
def Event.run? : Event → Option Runtime.RunInput
  | .phase i | .body i | .resume i => some i.run
  | .io => none

/-- The phase engine comes to the content phase, whose body is then still to come. -/
structure EngineReadsLater (conf : Conf) (s : State) (i : Input) : Prop where
  finalized : s.req.finalized = false
  engine : s.req.engine = true
  position : ∃ rest, s.req.position = .content :: rest
  reads : ContentReadsLater conf s i

/-- The event makes the request wait for its body in the content phase. -/
def Event.readsInContent (conf : Conf) (s : State) : Event → Prop
  | .phase i => EngineReadsLater conf s i
  | .body _ | .resume _ | .io => False

/-- The references and what they stand for are in balance while `h` holds the request. -/
structure Balanced (h : Holder) (s : State) : Prop where
  count : s.req.count = if h = .nobody then 0 else 1
  freedEarly : s.req.freedEarly = false
  waits : ¬ WaitsInContent s

/-- One step, from the hands of `h`. -/
structure Stepped (conf : Conf) (h : Holder) (s : State) (e : Event) (h' : Holder) : Prop where
  held : HeldBy h' (step conf s e)
  balance : Balanced h s → ¬ e.readsInContent conf s → Balanced h' (step conf s e)
  awaits : Awaits h s → (∀ env ∈ e.run?, Runtime.NoneOverwritten env) → Awaits h' (step conf s e)

section Step

variable {conf : Conf} {s : State} {h : Holder}

/-- What comes of an event. -/
inductive Occurs (conf : Conf) (s : State) : Event → State → Prop
  /-- Nginx cannot produce it in this state. -/
  | nothing (e : Event) : Occurs conf s e s
  | phase {i : Input} (hlive : s.req.finalized = false) (hengine : s.req.engine = true) :
      Occurs conf s (.phase i) (runPhases conf i s)
  | body {i : Input} {ctx : Ctx} (hlive : s.req.finalized = false) (hctx : s.ctx = some ctx)
      (hpending : s.req.bodyPending = true) :
      Occurs conf s (.body i) (bodyArrives conf i ⟨{ s.req with bodyPending := false }, ctx⟩).toState
  | resume {i : Input} {ctx : Ctx} (hlive : s.req.finalized = false) (hctx : s.ctx = some ctx)
      (hposted : 0 < s.req.posted) (hhandler : s.req.writeHandler = .resume) :
      Occurs conf s (.resume i)
        (resumeHandler i
          ⟨{ s.req with posted := s.req.posted - 1, suspended := false }, ctx⟩).toState
  /-- The entry in the list of posted requests is used up. -/
  | unused {i : Input} {ctx : Ctx} (hlive : s.req.finalized = false) (hctx : s.ctx = some ctx)
      (hposted : 0 < s.req.posted) (hhandler : s.req.writeHandler ≠ .resume) :
      Occurs conf s (.resume i) ⟨{ s.req with posted := s.req.posted - 1 }, some ctx⟩
  | io {ctx : Ctx} (hlive : s.req.finalized = false) (hctx : s.ctx = some ctx)
      (hactive : ctx.subrequestActive = true) :
      Occurs conf s .io
        ⟨{ s.req with posted := s.req.posted + 1 }, some { ctx with subrequestActive := false }⟩

/-- **What a step can be.** -/
theorem step_occurs (conf : Conf) (s : State) (e : Event) : Occurs conf s e (step conf s e) := by
  unfold step
  split
  · exact .nothing e
  rename_i hfin
  have hlive : s.req.finalized = false := Bool.eq_false_iff.mpr hfin
  cases e with
  | phase i =>
    dsimp only
    split
    · rename_i hengine
      exact .phase hlive hengine
    · exact .nothing _
  | body i =>
    cases hctx : s.ctx with
    | none => exact .nothing _
    | some ctx =>
      dsimp only
      split
      · rename_i hpending
        exact .body hlive hctx hpending
      · exact .nothing _
  | resume i =>
    cases hctx : s.ctx with
    | none => exact .nothing _
    | some ctx =>
      dsimp only
      split
      · rename_i hposted
        unfold runPosted
        dsimp only
        split
        · rename_i hhandler
          exact .resume hlive hctx hposted hhandler
        · rename_i hhandler
          exact .unused hlive hctx hposted hhandler
      · exact .nothing _
  | io =>
    cases hctx : s.ctx with
    | none => exact .nothing _
    | some ctx =>
      dsimp only
      unfold subrequestDone
      split
      · rename_i hactive
        exact .io hlive hctx hactive
      · have hsame : Frame.toState ⟨s.req, ctx⟩ = s := by
          unfold Frame.toState
          rw [← hctx]
        rw [hsame]
        exact .nothing _

theorem stepped_same {e : Event} (hs : HeldBy h s) (heq : step conf s e = s) :
    Stepped conf h s e h :=
  ⟨by rw [heq]; exact hs, fun hb _ => by rw [heq]; exact hb, fun ha _ => by rw [heq]; exact ha⟩

/-- What a holder that runs the guest does is a step. -/
theorem Passed.stepped {nc idle : Prop} {i : Input} {r : Req} {e : Event} {h' : Holder}
    (hp : Passed nc idle i r h' (step conf s e)) (hlive : h ≠ .nobody) (hc : r.count = s.req.count)
    (hf : r.freedEarly = s.req.freedEarly)
    (hnc : ¬ WaitsInContent s → ¬ e.readsInContent conf s → nc) (ha : Awaits h s → idle)
    (he : e.run? = some i.run) : Stepped conf h s e h' := by
  refine ⟨hp.held, fun hb hno => ?_, fun haw hover => hp.awaits (ha haw) (hover _ he)⟩
  have hone : r.count = 1 := by
    rw [hc, hb.count, if_neg hlive]
  obtain ⟨h1, h2, h3⟩ := hp.balance (hnc hb.waits hno) hone
  exact ⟨h1, by rw [h2, hf]; exact hb.freedEarly, h3⟩

/-- The token of a handler is taken before it runs; `request_body_handler` clears
`request_body_reading` as well. -/
theorem running_of_held (hs : HeldBy h s) (hh : h = .bodyHandler ∨ h = .resumeHandler) {ctx : Ctx}
    (hctx : s.ctx = some ctx) {req : Req}
    (hreq : req = { s.req with bodyPending := false, suspended := false, posted := req.posted }) :
    Running h ⟨req, { ctx with bodyReading := false }⟩ := by
  have hlive : h ≠ .nobody := by rcases hh with rfl | rfl <;> exact nofun
  have hheld := hs.ctx hlive ctx hctx
  have hengine : h ≠ .engine := by rcases hh with rfl | rfl <;> exact nofun
  refine ⟨by rw [hreq]; exact hs.engine, by rw [hreq], by rw [hreq], ?_, fun he => absurd he hengine,
    hheld.waiting, rfl, hheld.status, hheld.kind, Bool.eq_false_iff.mpr fun hdone => ?_⟩
  · rw [hreq]
    exact hs.finalized.trans (decide_eq_false hlive)
  · exact hengine (hheld.completed hdone).1

/-- The body arrives. -/
theorem stepped_body {i : Input} {ctx : Ctx} (hs : HeldBy h s) (hlive : h ≠ .nobody)
    (hctx : s.ctx = some ctx) (hpending : s.req.bodyPending = true)
    (heq : step conf s (.body i) =
      (bodyArrives conf i ⟨{ s.req with bodyPending := false }, ctx⟩).toState) :
    ∃ h', Stepped conf h s (.body i) h' := by
  have hbody : h = .bodyHandler := of_decide_eq_true (hs.bodyPending.symm.trans hpending)
  subst hbody
  have hreq : { s.req with bodyPending := false } =
      { s.req with bodyPending := false, suspended := false } := by
    rw [← show s.req.suspended = false from hs.suspended]
  obtain ⟨h', hp⟩ := bodyArrives_passed (i := i) (f := ⟨{ s.req with bodyPending := false }, ctx⟩)
    (running_of_held hs (Or.inl rfl) hctx hreq) ((hs.ctx hlive ctx hctx).async rfl).1
  rw [← heq] at hp
  exact ⟨h', hp.stepped hlive rfl rfl (fun hw _ _ hk => hw ⟨hpending, ctx, hctx, hk⟩)
    (fun ha => ⟨ha.1, ha.2 ctx hctx⟩) rfl⟩

/-- A posted request is resumed. -/
theorem stepped_resume {i : Input} {ctx : Ctx} (hs : HeldBy h s) (hlive : h ≠ .nobody)
    (hctx : s.ctx = some ctx) (hposted : 0 < s.req.posted)
    (hhandler : s.req.writeHandler = .resume)
    (heq : step conf s (.resume i) = (resumeHandler i
      ⟨{ s.req with posted := s.req.posted - 1, suspended := false }, ctx⟩).toState) :
    ∃ h', Stepped conf h s (.resume i) h' := by
  have hres : h = .resumeHandler := (hs.handler hlive).mp hhandler
  subst hres
  have hreq : { s.req with posted := s.req.posted - 1, suspended := false } =
      { s.req with bodyPending := false, suspended := false, posted := s.req.posted - 1 } := by
    rw [← show s.req.bodyPending = false from hs.bodyPending]
  have hrunning : Running .resumeHandler
      ⟨{ s.req with posted := s.req.posted - 1, suspended := false }, ctx⟩ := by
    have hself : { ctx with bodyReading := false } = ctx := by
      rw [← show ctx.bodyReading = false from (hs.ctx hlive ctx hctx).reading]
    rw [← hself]
    exact running_of_held hs (Or.inr rfl) hctx hreq
  obtain ⟨h', hp⟩ := resumeHandler_passed (i := i) hrunning (Or.inr rfl)
  rw [← heq] at hp
  refine ⟨h', hp.stepped hlive rfl rfl (fun _ _ hb => absurd hb nofun) (fun ha => ?_) rfl⟩
  -- it was posted, so it does not wait for a subrequest
  rcases ha ctx hctx with ⟨h1, h2⟩ | ⟨h1, _⟩
  · exact ⟨by show s.req.posted - 1 = 0; omega, h2⟩
  · omega

/-- A posted request has another write event handler: it keeps its holder. -/
theorem stepped_unused {i : Input} {ctx : Ctx} (hs : HeldBy h s) (hlive : h ≠ .nobody)
    (hctx : s.ctx = some ctx) (hposted : 0 < s.req.posted)
    (hhandler : s.req.writeHandler ≠ .resume)
    (heq : step conf s (.resume i) = ⟨{ s.req with posted := s.req.posted - 1 }, some ctx⟩) :
    Stepped conf h s (.resume i) h := by
  refine ⟨?_, fun hb _ => ?_, fun ha _ => ?_⟩
  · rw [heq]
    exact ⟨hs.engine, hs.bodyPending, hs.suspended, hs.finalized, hs.handler,
      fun hl c hc => hs.ctx hl c (hctx.trans hc)⟩
  · rw [heq]
    refine ⟨hb.count, hb.freedEarly, ?_⟩
    rintro ⟨hp, c, hc, hk⟩
    exact hb.waits ⟨hp, c, hctx.trans hc, hk⟩
  · cases h with
    | engine => exact absurd ha.1 (by omega)
    | bodyHandler => exact absurd ha.1 (by omega)
    | resumeHandler => exact absurd ((hs.handler hlive).mpr rfl) hhandler
    | nobody => exact absurd rfl hlive

/-- A subrequest is done. -/
theorem stepped_io {ctx : Ctx} (hs : HeldBy h s) (hlive : h ≠ .nobody) (hctx : s.ctx = some ctx)
    (hactive : ctx.subrequestActive = true)
    (heq : step conf s .io = ⟨{ s.req with posted := s.req.posted + 1 },
      some { ctx with subrequestActive := false }⟩) : Stepped conf h s .io h := by
  refine ⟨?_, fun hb _ => ?_, fun ha _ => ?_⟩
  · rw [heq]
    refine ⟨hs.engine, hs.bodyPending, hs.suspended, hs.finalized, hs.handler, fun hl c hc => ?_⟩
    obtain rfl := Option.mem_some_iff.mp hc
    have hheld := hs.ctx hl ctx hctx
    exact ⟨hheld.waiting, hheld.reading, hheld.async, hheld.status, hheld.kind, hheld.completed⟩
  · rw [heq]
    refine ⟨hb.count, hb.freedEarly, ?_⟩
    rintro ⟨hp, c, hc, hk⟩
    obtain rfl := Option.mem_some_iff.mp hc
    exact hb.waits ⟨hp, ctx, hctx, hk⟩
  · rw [heq]
    -- only a suspended request has an active subrequest
    cases h with
    | engine => exact absurd ((ha.2 ctx hctx).symm.trans hactive) nofun
    | bodyHandler => exact absurd ((ha.2 ctx hctx).symm.trans hactive) nofun
    | resumeHandler =>
      intro c hc
      obtain rfl := Option.mem_some_iff.mp hc
      rcases ha ctx hctx with ⟨_, hno⟩ | ⟨hp, _⟩
      · exact absurd (hno.symm.trans hactive) nofun
      · exact Or.inl ⟨by show s.req.posted + 1 = 1; omega, rfl⟩
    | nobody => exact absurd rfl hlive

/-- **One step passes the request on.** -/
theorem step_held (hs : HeldBy h s) (e : Event) : ∃ h', Stepped conf h s e h' := by
  have hholds : s.req.finalized = false → h ≠ .nobody := by
    rintro hfin rfl
    exact Bool.false_ne_true (hfin.symm.trans hs.finalized)
  have hcase : Occurs conf s e (step conf s e) := step_occurs conf s e
  generalize heq : step conf s e = s' at hcase
  cases hcase with
  | nothing => exact ⟨h, stepped_same hs heq⟩
  | @phase i hlive hengine =>
    have heng : h = .engine := of_decide_eq_true (hs.engine.symm.trans hengine)
    subst heng
    obtain ⟨h', hp⟩ : ∃ h', Passed (¬ (_ ∧ ContentReadsLater conf s i)) _ i s.req h' _ :=
      runPhases_passed hs
    rw [← heq] at hp
    exact ⟨h', hp.stepped nofun rfl rfl (fun _ hno hl => hno ⟨hlive, hengine, hl.1, hl.2⟩) id rfl⟩
  | body hlive hctx hpending => exact stepped_body hs (hholds hlive) hctx hpending heq
  | resume hlive hctx hposted hhandler =>
    exact stepped_resume hs (hholds hlive) hctx hposted hhandler heq
  | unused hlive hctx hposted hhandler =>
    exact ⟨h, stepped_unused hs (hholds hlive) hctx hposted hhandler heq⟩
  | io hlive hctx hactive => exact ⟨h, stepped_io hs (hholds hlive) hctx hactive heq⟩

theorem held_init (client : Client) : HeldBy .engine (init client) :=
  ⟨rfl, rfl, rfl, rfl, fun _ => ⟨nofun, nofun⟩, fun _ _ h => absurd h (Option.not_mem_none _)⟩

end Step

end NgxWasm.Request
