import NgxWasm.Request.Parts

/-!
# Who holds a request

A request is in the hands of the phase engine, of the handler that waits for its body, of the resume
handler, or of nobody any more (`HeldBy`). The source has no such field: it is read off the write
event handler, the flags of the context and what nginx has registered, and the invariant is that
these always agree on one holder.

Whoever holds the request may run the guest, and `run_request` says by what it returns who is next
(`runRequest_ran`). `Passed` collects what the handlers do to the request when they pass it on: the
references they keep, and what is posted or awaited.

* `passed_finalize`, `passed_suspended`, `passed_declined`: the three ways to pass a request on.
* `resumeHandler_passed`, `bodyArrives_passed`: the two handlers. The second keeps the references in
  balance only outside of the content phase (`NotInContent`).
-/

namespace NgxWasm.Request

open NgxWasm.Runtime (launches run run_returned)

/-! ## Who holds the request -/

inductive Holder where
  | engine
  | bodyHandler
  | resumeHandler
  | nobody
  deriving DecidableEq

/-- The module context while `h` holds the request. -/
structure CtxHeld (h : Holder) (ctx : Ctx) : Prop where
  waiting : ctx.waiting = decide (h = .resumeHandler)
  reading : ctx.bodyReading = decide (h = .bodyHandler)
  async : h = .bodyHandler → ctx.bodyAsync = true ∧ ctx.bodyStatus = .ok
  status : ctx.bodyStatus = .ok ∨ Ends ctx.bodyStatus
  kind : ∀ hook ∈ ctx.exec.conf, ctx.exec.machine.ctx.phaseKind = hook.phaseKind
  completed : ctx.execCompleted = true → h = .engine ∧ ctx.exec.conf ≠ some .content

/-- The request is in the hands of `h`, and of nobody else. -/
structure HeldBy (h : Holder) (s : State) : Prop where
  engine : s.req.engine = decide (h = .engine)
  bodyPending : s.req.bodyPending = decide (h = .bodyHandler)
  suspended : s.req.suspended = decide (h = .resumeHandler)
  finalized : s.req.finalized = decide (h = .nobody)
  handler : h ≠ .nobody → (s.req.writeHandler = .resume ↔ h = .resumeHandler)
  ctx : h ≠ .nobody → ∀ ctx ∈ s.ctx, CtxHeld h ctx

/-- The request waits for a body in the content phase: nginx has dropped the reference the body
handler stands for. -/
def WaitsInContent (s : State) : Prop :=
  s.req.bodyPending = true ∧ ∃ ctx ∈ s.ctx, ctx.exec.machine.ctx.phaseKind = .content

/-- Posted requests and the subrequest, while `h` holds the request: a suspended request waits for
one of the two, and no other request does. -/
def Awaits (h : Holder) (s : State) : Prop :=
  match h with
  | .engine | .bodyHandler => s.req.posted = 0 ∧ ∀ ctx ∈ s.ctx, ctx.subrequestActive = false
  | .resumeHandler => ∀ ctx ∈ s.ctx, s.req.posted = 1 ∧ ctx.subrequestActive = false ∨
      s.req.posted = 0 ∧ ctx.subrequestActive = true
  | .nobody => ∀ ctx ∈ s.ctx, ctx.subrequestActive = true →
      s.req.posted = 0 ∧ ctx.execCompleted = false

/-- `h` has the request in its hands, and is about to run the guest. -/
structure Running (h : Holder) (f : Frame) : Prop where
  engine : f.req.engine = decide (h = .engine)
  bodyPending : f.req.bodyPending = false
  suspended : f.req.suspended = false
  finalized : f.req.finalized = false
  handler : h = .engine → f.req.writeHandler ≠ .resume
  waiting : f.ctx.waiting = decide (h = .resumeHandler)
  reading : f.ctx.bodyReading = false
  status : f.ctx.bodyStatus = .ok ∨ Ends f.ctx.bodyStatus
  kind : ∀ hook ∈ f.ctx.exec.conf, f.ctx.exec.machine.ctx.phaseKind = hook.phaseKind
  completed : f.ctx.execCompleted = false

/-- Nothing is posted and no subrequest is active. -/
def Idle (f : Frame) : Prop := f.req.posted = 0 ∧ f.ctx.subrequestActive = false

/-- What is the same for every end of `run_request`. -/
structure After (f f' : Frame) : Prop where
  engine : f'.req.engine = f.req.engine
  bodyPending : f'.req.bodyPending = false
  finalized : f'.req.finalized = false
  freedEarly : f'.req.freedEarly = f.req.freedEarly
  reading : f'.ctx.bodyReading = false
  status : f'.ctx.bodyStatus = .ok ∨ Ends f'.ctx.bodyStatus
  phase : f'.ctx.exec.machine.ctx.phaseKind = f.ctx.exec.machine.ctx.phaseKind
  kind : ∀ hook ∈ f'.ctx.exec.conf, f'.ctx.exec.machine.ctx.phaseKind = hook.phaseKind

/-- `run_request` in the hands of `h`. -/
inductive Ran (h : Holder) (i : Input) (f f' : Frame) : Rc → Prop
  | suspended (after : After f f') (hs : f'.req.suspended = true)
      (hh : f'.req.writeHandler = .resume) (hw : f'.ctx.waiting = true)
      (hc : f'.ctx.execCompleted = false)
      (hcount : f'.req.count =
        if h ≠ .resumeHandler ∧ f.ctx.exec.machine.ctx.phaseKind = .content then f.req.count + 1
        else f.req.count)
      (hidle : Idle f → Runtime.NoneOverwritten i.run →
        f'.req.posted = 1 ∧ f'.ctx.subrequestActive = false ∨
          f'.req.posted = 0 ∧ f'.ctx.subrequestActive = true) : Ran h i f f' .done
  | declined (after : After f f') (hs : f'.req.suspended = false)
      (hh : f'.req.writeHandler = f.req.writeHandler) (hw : f'.ctx.waiting = false)
      (hc : f'.ctx.exec.conf ≠ some .content) (hcount : f'.req.count = f.req.count)
      (hidle : Idle f → Idle f') : Ran h i f f' .declined
  | ends (rc : Rc) (hrc : Ends rc) (after : After f f') (hs : f'.req.suspended = false)
      (hcount : f'.req.count = f.req.count)
      (hidle : Idle f → Runtime.NoneOverwritten i.run → f'.ctx.subrequestActive = true →
        f'.req.posted = 0 ∧ f'.ctx.execCompleted = false) : Ran h i f f' rc

section Ran

variable {h : Holder} {i : Input} {f f' : Frame}

theorem after_runRequest (hf : Running h f) (hm : f'.ctx.exec.machine = (run i.run f.ctx.exec.machine).2)
    (hconf : f'.ctx.exec.conf = f.ctx.exec.conf) (hb : f'.body = f.body)
    (he : f'.req.engine = f.req.engine) (hp : f'.req.bodyPending = f.req.bodyPending)
    (hz : f'.req.finalized = f.req.finalized) (hr : f'.req.freedEarly = f.req.freedEarly) :
    After f f' := by
  have hphase : f'.ctx.exec.machine.ctx.phaseKind = f.ctx.exec.machine.ctx.phaseKind := by
    rw [hm]
    exact (run_returned i.run f.ctx.exec.machine).phase
  have hreading : f'.ctx.bodyReading = f.ctx.bodyReading := congrArg Body.reading hb
  have hstatus : f'.ctx.bodyStatus = f.ctx.bodyStatus := congrArg Body.status hb
  refine ⟨he, hp.trans hf.bodyPending, hz.trans hf.finalized, hr, hreading.trans hf.reading, ?_,
    hphase, fun hook hh => ?_⟩
  · rw [hstatus]
    exact hf.status
  · rw [hphase]
    exact hf.kind hook (hconf ▸ hh)

/-- **`run_request`**, whoever calls it. -/
theorem runRequest_ran (hf : Running h f) :
    Ran h i f (runRequest i f).2 (runRequest i f).1 := by
  have hcases := runRequest_cases (i := i) (f := f)
  have hbody := runRequest_body (i := i) (f := f)
  have hret := run_returned i.run f.ctx.exec.machine
  generalize runRequest i f = r at hcases hbody
  obtain ⟨rc, f'⟩ := r
  -- what follows from the fields that all ends share
  have hafter : f'.hold.machine = (ranGuest i f).hold.machine →
      f'.hold.conf = (ranGuest i f).hold.conf → f'.hold.engine = (ranGuest i f).hold.engine →
      f'.hold.bodyPending = (ranGuest i f).hold.bodyPending →
      f'.hold.finalized = (ranGuest i f).hold.finalized →
      f'.hold.freedEarly = (ranGuest i f).hold.freedEarly → After f f' :=
    fun hm hc he hp hz hr => after_runRequest hf hm hc hbody he hp hz hr
  have hactive : f'.hold.subrequestActive = (ranGuest i f).hold.subrequestActive →
      f.ctx.subrequestActive = false → f'.ctx.subrequestActive = decide
        (launches f.ctx.exec.machine.trace < launches (run i.run f.ctx.exec.machine).2.trace) :=
    fun ha hno => by
      have ha' : f'.ctx.subrequestActive = (f.ctx.subrequestActive || decide
        (launches f.ctx.exec.machine.trace < launches (run i.run f.ctx.exec.machine).2.trace)) := ha
      rw [ha', hno, Bool.false_or]
  cases hcases with
  | suspended hrun hh =>
    have hm : f'.ctx.exec.machine = (run i.run f.ctx.exec.machine).2 := congrArg Hold.machine hh
    have haft := hafter (by rw [hh]) (by rw [hh]) (by rw [hh]) (by rw [hh]) (by rw [hh]) (by rw [hh])
    have hcompleted : f'.ctx.execCompleted = f.ctx.execCompleted := congrArg Hold.execCompleted hh
    refine .suspended haft (congrArg Hold.suspended hh) (congrArg Hold.writeHandler hh)
      (congrArg Hold.waiting hh) (hcompleted.trans hf.completed) ?_ fun ⟨hposted, hno⟩ hover => ?_
    · refine (congrArg Hold.count hh).trans ?_
      simp only [hf.waiting, haft.phase]
      by_cases hr : h = .resumeHandler <;> simp [hr]
    · have ha := hactive (by rw [hh]) hno
      have hp := congrArg Hold.posted hh
      rcases hret.again hrun with hk | hk
      · have hsame := hret.reschedule hover hrun hk
        refine Or.inl ⟨hp.trans ?_, ?_⟩
        · simp only [hm, hk, if_true, hposted]
        · rw [ha, hsame]
          simp
      · have hlt := hret.waitIo hrun hk
        refine Or.inr ⟨hp.trans ?_, ?_⟩
        · simp [hm, hk, hposted]
        · rw [ha]
          exact decide_eq_true hlt
  | declined hrun hphase hh =>
    have haft := hafter (by rw [hh]) (by rw [hh]) (by rw [hh]) (by rw [hh]) (by rw [hh]) (by rw [hh])
    have hs : f'.req.suspended = f.req.suspended := congrArg Hold.suspended hh
    refine .declined haft (hs.trans hf.suspended) (congrArg Hold.writeHandler hh)
      (congrArg Hold.waiting hh) (fun hc => ?_) (congrArg Hold.count hh) fun ⟨hposted, hno⟩ => ?_
    · exact hphase (haft.kind .content hc)
    · have hp : f'.req.posted = f.req.posted := congrArg Hold.posted hh
      refine ⟨hp.trans hposted, ?_⟩
      rw [hactive (by rw [hh]) hno, hret.ok hrun]
      simp
  | ends rc hrc hh hcompleted =>
    have haft := hafter (by rw [hh]) (by rw [hh]) (by rw [hh]) (by rw [hh]) (by rw [hh]) (by rw [hh])
    have hs : f'.req.suspended = f.req.suspended := congrArg Hold.suspended hh
    refine .ends rc hrc haft (hs.trans hf.suspended) (congrArg Hold.count hh)
      fun ⟨hposted, hno⟩ _ hyes => ?_
    have hp : f'.req.posted = f.req.posted := congrArg Hold.posted hh
    refine ⟨hp.trans hposted, Bool.eq_false_iff.mpr fun hdone => ?_⟩
    rw [hactive (by rw [hh]) hno] at hyes
    rcases hcompleted hdone with hc | hrun
    · rw [hf.completed] at hc
      cases hc
    · rw [hret.ok hrun] at hyes
      simp at hyes

end Ran

/-! ## Passing the request on -/

/-- The request has been passed on to `h`. Beside that: with one reference before, and if no body
is waited for in the content phase (`nc`), there is one reference while it is held and none
afterwards; and with nothing awaited before (`idle`), what is awaited is in order. -/
structure Passed (nc idle : Prop) (i : Input) (r : Req) (h : Holder) (s : State) : Prop where
  held : HeldBy h s
  balance : nc → r.count = 1 → s.req.count = (if h = .nobody then 0 else 1) ∧
    s.req.freedEarly = r.freedEarly ∧ ¬ WaitsInContent s
  awaits : idle → Runtime.NoneOverwritten i.run → Awaits h s

section Passed

variable {h : Holder} {i : Input} {f : Frame} {nc idle : Prop}

theorem finalize_ends {rc : Rc} (hrc : Ends rc) (r : Req) :
    r.finalize rc = { r.drop with finalized := true, engine := false } := by
  cases rc with
  | done => exact absurd rfl hrc.1
  | declined => exact absurd rfl hrc.2
  | _ => rfl

/-- A final status passes the request on to nobody. -/
theorem passed_finalize {r : Req} {ctx : Option Ctx} {rc : Rc} (hrc : Ends rc)
    (hb : r.bodyPending = false) (hs : r.suspended = false)
    (ha : idle → Runtime.NoneOverwritten i.run → Awaits .nobody ⟨r, ctx⟩) :
    Passed nc idle i r .nobody ⟨r.finalize rc, ctx⟩ := by
  rw [finalize_ends hrc]
  refine ⟨⟨rfl, hb, hs, rfl, fun hn => absurd rfl hn, fun hn => absurd rfl hn⟩,
    fun _ hone => ⟨?_, ?_, fun hw => ?_⟩, fun hi hno => ha hi hno⟩
  · show r.count - 1 = 0
    omega
  · simp [Req.drop, hb, hs]
  · have : r.bodyPending = true := hw.1
    rw [hb] at this
    cases this

theorem not_waitsInContent {s : State} (h : s.req.bodyPending = false) : ¬ WaitsInContent s :=
  fun hw => absurd (h.symm.trans hw.1) nofun

/-- A suspended guest passes the request on to the resume handler. -/
theorem passed_suspended {f' : Frame} (hafter : After f f') {req : Req}
    (hreq : req = { f'.req with count := req.count, engine := false, freedEarly := req.freedEarly })
    (hs : f'.req.suspended = true) (hh : f'.req.writeHandler = .resume) (hw : f'.ctx.waiting = true)
    (hc : f'.ctx.execCompleted = false)
    (hcount : nc → f.req.count = 1 → req.count = 1 ∧ req.freedEarly = f.req.freedEarly)
    (ha : idle → Runtime.NoneOverwritten i.run → f'.req.posted = 1 ∧ f'.ctx.subrequestActive = false ∨
      f'.req.posted = 0 ∧ f'.ctx.subrequestActive = true) :
    Passed nc idle i f.req .resumeHandler ⟨req, some f'.ctx⟩ := by
  have hpending : req.bodyPending = false := by rw [hreq]; exact hafter.bodyPending
  refine ⟨⟨by rw [hreq]; rfl, hpending, by rw [hreq]; exact hs, by rw [hreq]; exact hafter.finalized,
    fun _ => ?_, fun _ ctx hctx => ?_⟩, fun hn hone => ?_, fun hi hno ctx hctx => ?_⟩
  · rw [hreq]
    constructor
    · intro _
      exact rfl
    · intro _
      exact hh
  · cases hctx
    refine ⟨hw, hafter.reading, nofun, hafter.status, hafter.kind, fun hdone => ?_⟩
    rw [hc] at hdone
    cases hdone
  · obtain ⟨h1, h2⟩ := hcount hn hone
    exact ⟨h1, h2, not_waitsInContent hpending⟩
  · cases hctx
    rw [hreq]
    exact ha hi hno

/-- A guest that declines passes the request on to the phase engine. -/
theorem passed_declined {f' : Frame} (hafter : After f f') {req : Req}
    (hreq : req = { f'.req with
      writeHandler := req.writeHandler, engine := true, position := req.position })
    (hh : req.writeHandler ≠ .resume) (hs : f'.req.suspended = false) (hw : f'.ctx.waiting = false)
    (hc : f'.ctx.exec.conf ≠ some .content) (hcount : f'.req.count = f.req.count)
    (ha : idle → Idle f') : Passed nc idle i f.req .engine ⟨req, some f'.ctx⟩ := by
  have hpending : req.bodyPending = false := by rw [hreq]; exact hafter.bodyPending
  refine ⟨⟨by rw [hreq]; rfl, hpending, by rw [hreq]; exact hs, by rw [hreq]; exact hafter.finalized,
    fun _ => ⟨fun h => absurd h hh, nofun⟩, fun _ ctx hctx => ?_⟩, fun _ hone => ?_,
    fun hi _ => ?_⟩
  · cases hctx
    exact ⟨hw, hafter.reading, nofun, hafter.status, hafter.kind, fun _ => ⟨rfl, hc⟩⟩
  · refine ⟨?_, ?_, not_waitsInContent hpending⟩
    · rw [hreq]
      exact hcount.trans hone
    · rw [hreq]
      exact hafter.freedEarly
  · obtain ⟨hp, hactive⟩ := ha hi
    refine ⟨?_, fun ctx hctx => ?_⟩
    · rw [hreq]
      exact hp
    · cases hctx
      exact hactive

/-- The condition under which the two handlers keep the references in balance: no body handler runs
the guest in the content phase. -/
abbrev NotInContent (h : Holder) (f : Frame) : Prop :=
  h = .bodyHandler → f.ctx.exec.machine.ctx.phaseKind ≠ .content

theorem resumed_ends {rc : Rc} (hrc : Ends rc) (f : Frame) :
    resumed (rc, f) = { f with req := f.req.finalize rc } := by
  cases rc with
  | done => exact absurd rfl hrc.1
  | declined => exact absurd rfl hrc.2
  | _ => rfl

theorem Passed.congr {r r' : Req} {s : State} (hp : Passed nc idle i r h s)
    (hc : r'.count = r.count) (hf : r'.freedEarly = r.freedEarly) : Passed nc idle i r' h s :=
  ⟨hp.held, fun hn hone => by rw [hf]; exact hp.balance hn (hc ▸ hone), hp.awaits⟩

theorem resumed_passed (hf : Running h f) (hh : h = .bodyHandler ∨ h = .resumeHandler) :
    ∃ h', Passed (NotInContent h f) (Idle f) i f.req h' (resumed (runRequest i f)).toState := by
  have hran := runRequest_ran (i := i) hf
  have hengine := hf.engine
  have hne : h ≠ .engine := by rcases hh with rfl | rfl <;> exact nofun
  simp only [hne, decide_false] at hengine
  generalize runRequest i f = r at hran
  obtain ⟨rc, f'⟩ := r
  cases hran with
  | suspended hafter hs hw hwait hc hcount ha =>
    refine ⟨.resumeHandler, passed_suspended hafter ?_ hs hw hwait hc (fun hn hone => ?_) ha⟩
    · have heq : f'.req.engine = false := hafter.engine.trans hengine
      rw [← heq]
      rfl
    · refine ⟨?_, hafter.freedEarly⟩
      show f'.req.count = 1
      rw [hcount, if_neg ?_, hone]
      rintro ⟨hr, hcontent⟩
      rcases hh with hb | hb
      · exact hn hb hcontent
      · exact hr hb
  | declined hafter hs hw hwait hc hcount ha =>
    exact ⟨.engine, passed_declined hafter rfl nofun hs hwait hc hcount ha⟩
  | ends rc hrc hafter hs hcount ha =>
    rw [resumed_ends hrc]
    refine ⟨.nobody, (passed_finalize hrc hafter.bodyPending hs fun hi hno ctx hctx => ?_).congr
      hcount.symm hafter.freedEarly.symm⟩
    cases hctx
    exact ha hi hno

/-- **`resume_handler`.** -/
theorem resumeHandler_passed (hf : Running h f) (hh : h = .bodyHandler ∨ h = .resumeHandler) :
    ∃ h', Passed (NotInContent h f) (Idle f) i f.req h' (resumeHandler i f).toState := by
  unfold resumeHandler
  by_cases hok : f.ctx.bodyStatus = .ok
  · rw [if_neg (not_not.mpr hok)]
    exact resumed_passed hf hh
  · rw [if_pos hok]
    refine ⟨.nobody, passed_finalize (hf.status.resolve_left hok) hf.bodyPending hf.suspended
      fun hi _ ctx hctx hactive => ?_⟩
    cases hctx
    rw [hi.2] at hactive
    cases hactive

/-- **The body arrives.** -/
theorem bodyArrives_passed {conf : Conf}
    (hf : Running .bodyHandler { f with ctx.bodyReading := false }) (hasync : f.ctx.bodyAsync = true) :
    ∃ h', Passed (NotInContent .bodyHandler f) (Idle f) i f.req h'
      (bodyArrives conf i f).toState := by
  obtain ⟨stored, status, hends, hg⟩ := requestBodyHandler_eq (i := i) (f := f)
  unfold bodyArrives
  dsimp only
  rw [hg, if_neg (by rw [Bool.not_eq_true']; simp [Frame.store, hasync])]
  have hrunning : Running .bodyHandler
      { f.store stored with ctx := { (f.store stored).ctx with
        bodyStatus := status, bodyReading := false, bodyReady := status = .ok } } :=
    ⟨hf.engine, hf.bodyPending, hf.suspended, hf.finalized, nofun, hf.waiting, rfl, Or.inr hends,
      hf.kind, hf.completed⟩
  by_cases hok : status = .ok
  · rw [if_neg (not_not.mpr hok)]
    exact resumeHandler_passed hrunning (Or.inl rfl)
  · rw [if_pos hok]
    refine ⟨.nobody, passed_finalize hends hf.bodyPending hf.suspended
      fun hi _ ctx hctx hactive => ?_⟩
    cases hctx
    exact absurd (hi.2.symm.trans hactive) nofun

end Passed

end NgxWasm.Request
