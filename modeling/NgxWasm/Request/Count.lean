import NgxWasm.Request.Steps

/-!
# The references of a request

`ngx_http_read_client_request_body` takes a reference for the body handler, and `run_request` takes
one for the resume handler of the content phase, since the checker of that phase drops one whatever
the handler returns. Where both reasons meet, in a content phase whose body is still to come,
`run_phase` drops the reference of the read and the checker drops the last one: the request is freed
under the body handler.

The count is in balance (`ReferencesBalance`) if there is a reference while a handler is still to run,
there has been one all the time, and a request that has been finalized has none left.

* `step_readsLater`: in the content phase both references are dropped.
* `references_balance_iff`: this is the only way. A run keeps the references in balance in every state
  it passes through exactly if the content phase never has to wait for a body.
* `references_lost_in_content`: a location and a request where it has to.

A run is any list of events, since one that nginx cannot produce in a state changes nothing there
(`Request.Phases`). The references are those that the module and the two checkers take and drop; what
nginx takes for a subrequest, and drops when it is done, is not part of the count.
-/

namespace NgxWasm.Request

open Lib
open NgxWasm.Runtime (smoothRun)

/-- What the count of references has to be. -/
structure ReferencesBalance (s : State) : Prop where
  /-- There is a reference while a handler is still to run … -/
  held : s.req.bodyPending = true ∨ s.req.suspended = true → 0 < s.req.count
  /-- … and there has been one all the time. -/
  never : s.req.freedEarly = false
  freed : s.req.finalized = true → s.req.count = 0

variable {conf : Conf} {hook : Hook} {i : Input} {s : State} {h : Holder}

theorem Balanced.references (hs : HeldBy h s) (hb : Balanced h s) : ReferencesBalance s := by
  refine ⟨fun hp => ?_, hb.freedEarly, fun hf => ?_⟩
  · have hlive : h ≠ .nobody := by
      rintro rfl
      rcases hp with hp | hp
      · exact absurd (hs.bodyPending.symm.trans hp) nofun
      · exact absurd (hs.suspended.symm.trans hp) nofun
    rw [hb.count, if_neg hlive]
    decide
  · rw [hb.count, if_pos (of_decide_eq_true (hs.finalized.symm.trans hf))]

/-! ## The condition is exact -/

/-- The frame while nginx waits for the body. -/
def Frame.waits (f : Frame) : Frame where
  req := { f.req with
    count := f.req.count + 1
    requestBody := true
    bodyPending := true
    writeHandler := .empty }
  ctx := { f.ctx with bodyReading := true, bodyAsync := true, bodyStatus := .ok }

theorem prepareRequestBody_later {f : Frame} (hl : ReadsLater conf hook i f) :
    prepareRequestBody conf hook i f = .ret .done f.waits := by
  have hnone : ¬ (decide (f.req.contentLengthN ≤ 0) && !f.req.chunked) = true := by
    rw [Bool.and_eq_true, not_and_or, decide_eq_true_eq, not_le]
    exact hl.announced.imp id fun hc => by simp [hc]
  unfold prepareRequestBody
  dsimp only
  rw [if_neg (not_not.mpr hl.status), if_neg hl.buffered, if_neg (by simp [hl.ready]),
    if_neg (by simp [hl.reading]), if_neg (not_lt.mpr hl.fits), if_neg hnone]
  unfold readRequestBody readClientRequestBody
  dsimp only
  rw [show Req.read f.req i = .later from hl.later]
  simp [hl.ready, Frame.waits]

theorem runPhases_content {rest : List Hook} (hp : s.req.position = .content :: rest) :
    runPhases conf i s =
      checkContent rest (runPhase conf .content i { s with req.writeHandler := .empty }) := by
  unfold runPhases
  split
  · rename_i hnil
    exact absurd (hp.symm.trans hnil) nofun
  · rename_i hcons
    obtain ⟨-, rfl⟩ := List.cons.inj (hp.symm.trans hcons)
    rfl
  · rename_i hne hcons
    exact absurd (List.cons.inj (hp.symm.trans hcons)).1.symm hne

/-- In the content phase both references are dropped. -/
theorem step_readsLater (hb : Balanced .engine s) (hl : EngineReadsLater conf s i) :
    (step conf s (.phase i)).req.bodyPending = true ∧ (step conf s (.phase i)).req.count = 0 := by
  obtain ⟨hfin, hengine, ⟨rest, hposition⟩, ⟨hset, hruntime⟩, ctx, hget, hconf, hlater⟩ := hl
  have hlater' : ReadsLater conf .content i ⟨{ s.req with writeHandler := .empty }, ctx⟩ :=
    ⟨hlater.status, hlater.buffered, hlater.ready, hlater.reading, hlater.fits, hlater.announced,
      hlater.later⟩
  have hphase : runPhase conf .content i { s with req.writeHandler := .empty } =
      (.done, (finalizeAsync .done (Frame.waits ⟨{ s.req with writeHandler := .empty }, ctx⟩)).toState) := by
    unfold runPhase
    simp only [hset, hruntime, hget, hconf, prepareRequestBody_later hlater']
    simp
  have hstep : step conf s (.phase i) = checkContent rest
      (.done, (finalizeAsync .done (Frame.waits ⟨{ s.req with writeHandler := .empty }, ctx⟩)).toState) := by
    unfold step
    rw [if_neg (by rw [hfin]; simp)]
    dsimp only
    rw [if_pos hengine]
    rw [runPhases_content hposition]
    exact congrArg (checkContent rest) hphase
  rw [hstep]
  refine ⟨rfl, ?_⟩
  have hone : s.req.count = 1 := hb.count
  show s.req.count + 1 - 1 - 1 = 0
  omega

/-- **The references balance exactly as long as the content phase never waits for a body**: in
every state that a run passes through, whatever the hooks, nginx and the guests do. -/
theorem references_balance_iff (conf : Conf) (client : Client) (events : List Event) :
    (∀ earlier later, events = earlier ++ later →
      ReferencesBalance (runFrom (step conf) (init client) earlier)) ↔
    Meets (step conf) (fun s e => ¬ e.readsInContent conf s) (init client) events := by
  have h0 : ∃ h, HeldBy h (init client) ∧ Balanced h (init client) :=
    ⟨.engine, held_init client, rfl, rfl, fun hw => absurd hw.1 nofun⟩
  have hstep : ∀ s e, (∃ h, HeldBy h s ∧ Balanced h s) → ¬ e.readsInContent conf s →
      ∃ h, HeldBy h (step conf s e) ∧ Balanced h (step conf s e) := by
    rintro s e ⟨h, hs, hb⟩ hno
    obtain ⟨h', hstep⟩ := step_held hs e
    exact ⟨h', hstep.held, hstep.balance hb hno⟩
  constructor
  · generalize init client = s at h0
    induction events generalizing s with
    | nil => exact fun _ => trivial
    | cons e events ih =>
      intro hall
      have hok : ¬ e.readsInContent conf s := by
        intro hbad
        obtain ⟨h, hs, hb⟩ := h0
        have hafter := (hall [e] events rfl).held
        cases e with
        | phase i =>
          have hbad : EngineReadsLater conf s i := hbad
          have heng : h = .engine := of_decide_eq_true (hs.engine.symm.trans hbad.engine)
          subst heng
          obtain ⟨hp, hc⟩ := step_readsLater hb hbad
          have hpos : 0 < (step conf s (.phase i)).req.count := hafter (Or.inl hp)
          omega
        | body | resume | io => exact hbad
      refine ⟨hok, ih _ (hstep s e h0 hok) ?_⟩
      rintro earlier later rfl
      exact hall (e :: earlier) later rfl
  · rintro hmeets earlier later rfl
    obtain ⟨h, hs, hb⟩ := hmeets.append_left.invariant h0 hstep
    exact hb.references hs

/-- A location with a content hook and a body buffer, and a request with three bytes of body that
have not arrived yet. -/
theorem references_lost_in_content :
    let conf : Conf := ⟨true, true, (· = .content), fun _ => true, ⟨0, 9, 9⟩, ⟨8, 9, 9⟩⟩
    let client : Client := ⟨3, false, [[1, 2, 3]], false⟩
    let i : Input := { smoothInput (smoothRun ⟨[], 1, none, true⟩) with read := .later }
    ¬ ReferencesBalance
      (runFrom (step conf) (init client) [.phase i, .phase i, .phase i]) := by
  intro conf client i hbal
  have hpending : (runFrom (step conf) (init client)
      [.phase i, .phase i, .phase i]).req.bodyPending = true := rfl
  have hcount : (runFrom (step conf) (init client)
      [.phase i, .phase i, .phase i]).req.count = 0 := rfl
  have hpos := hbal.held (Or.inl hpending)
  omega

end NgxWasm.Request
