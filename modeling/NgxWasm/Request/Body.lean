import NgxWasm.Request.Steps

/-!
# The request body a guest sees

The body is kept by the execution context, and `request_body_ready` by the context around it, which
outlives the execution context. The two part where the execution context is initialised for another
hook while the flag is set: the flag stays and the body goes. And nothing is left to store where a
hook without a buffer has discarded the body before one with a buffer runs. `KeepsBody` is neither.

The invariant `BodyKept` says what is known of the body in the request, which nginx keeps until it is
discarded (`KeptReq`), and in its context (`KeptCtx`): the flag says that the body is stored, and what
is stored is the client's.

* `prepareRequestBody_kept`, `requestBodyHandler_kept`, `runRequest_kept`: each of the functions keeps
  it, the first two by storing the body where the hook has a buffer.
* `body_seen`: the two ways are the only ones. In every run that keeps clear of both, each guest with
  a body buffer finds the whole body of the client, and the flag is set only while the body is there.
* `body_lost_after_rewrite`: a location where the first one is taken.

A request that announces no body has none (`Client.WellFormed`). What a guest finds is what
`abi_req_get_body` reads, in a buffer of any size.
-/

namespace NgxWasm.Request

open Lib
open NgxWasm.Runtime (smoothRun)

/-- The hook runs with a body buffer. -/
def Buffered (conf : Conf) (hook : Hook) : Prop := (conf.level hook).bufferSize ≠ 0

/-- The guest the context is bound to finds the body it has to. -/
def Prepared (conf : Conf) (ctx : Ctx) : Prop :=
  ∀ hook ∈ ctx.exec.conf, Buffered conf hook → ctx.bodyReady = true

/-- What is known of the body in the request … -/
structure KeptReq (conf : Conf) (client : Client) (req : Req) : Prop where
  source : req.contentLengthN = client.contentLengthN ∧ req.bufs = client.bufs ∨ req.bufs = []
  chunked : req.chunked = client.chunked
  views : ∀ v ∈ req.views, Buffered conf v.1 → v.2 = some client.body
  pending : req.bodyPending = true → req.bufs.flatten = client.body

/-- … and in its context, with a guest suspended or not. -/
structure KeptCtx (conf : Conf) (client : Client) (suspended : Bool) (ctx : Ctx) : Prop where
  ready : ctx.bodyReady = true → ctx.exec.abi.requestBody = some client.body
  suspended : suspended = true → Prepared conf ctx

/-- Both. -/
structure Kept (conf : Conf) (client : Client) (f : Frame) : Prop where
  req : KeptReq conf client f.req
  ctx : KeptCtx conf client f.req.suspended f.ctx

/-- The invariant of a request. -/
structure BodyKept (conf : Conf) (client : Client) (s : State) : Prop where
  req : KeptReq conf client s.req
  ctx : ∀ ctx ∈ s.ctx, KeptCtx conf client s.req.suspended ctx

theorem Kept.toState {conf : Conf} {client : Client} {f : Frame} (h : Kept conf client f) :
    BodyKept conf client f.toState :=
  ⟨h.req, fun _ hctx => Option.mem_some_iff.mp hctx ▸ h.ctx⟩

/-! ## Storing the body -/

section Store

variable {conf : Conf} {hook : Hook} {i : Input} {f : Frame} {client : Client}

theorem chainLength_eq {limit : Nat} {bufs : List Bytes} {len n : Nat}
    (h : chainLength limit bufs len = some n) : n = len + bufs.flatten.length := by
  induction bufs generalizing len with
  | nil => exact (Option.some.inj h).symm
  | cons buf bufs ih =>
    rw [chainLength] at h
    split at h
    · cases h
    · rw [ih h, List.flatten_cons, List.length_append, Nat.add_assoc]

theorem reqSetBody_ok {data : Bytes} (h : (reqSetBody i data f).1 = .ok) :
    (reqSetBody i data f).2.ctx.exec.abi.requestBody = some data := by
  unfold reqSetBody at *
  split
  · rename_i hno
    rw [if_pos hno] at h
    cases h
  · rfl

/-- What is stored is what nginx has. -/
theorem storeRequestBody_ok {limit : Nat} (h : (storeRequestBody limit i f).1 = .ok) :
    (storeRequestBody limit i f).2.ctx.exec.abi.requestBody = some f.req.bufs.flatten := by
  unfold storeRequestBody at *
  by_cases hempty : f.req.bufs.isEmpty = true
  · rw [if_pos hempty] at h ⊢
    rw [reqSetBody_ok h, List.isEmpty_iff.mp hempty]
    rfl
  rw [if_neg hempty] at h ⊢
  by_cases htemp : f.req.tempFile = true
  · rw [if_pos htemp] at h
    cases h
  rw [if_neg htemp] at h ⊢
  cases hlen : chainLength limit f.req.bufs 0 with
  | none =>
    simp only [hlen] at h
    cases h
  | some len =>
    simp only [hlen] at h
    have hsum := chainLength_eq hlen
    cases len with
    | zero =>
      have hnil : f.req.bufs.flatten = [] := List.eq_nil_of_length_eq_zero (by omega)
      rw [hnil]
      exact reqSetBody_ok h
    | succ len =>
      by_cases halloc : i.storeOk = true
      · simp only [halloc] at h ⊢
        exact reqSetBody_ok h
      · simp only [halloc] at h
        cases h

/-- `request_body_handler` sets the flag only where it has stored the body. -/
theorem requestBodyHandler_ready (h : (requestBodyHandler conf i f).ctx.bodyReady = true) :
    (requestBodyHandler conf i f).ctx.exec.abi.requestBody = some f.req.bufs.flatten := by
  have hok : (handlerStatus conf i f).1 = .ok := of_decide_eq_true h
  show (handlerStatus conf i f).2.ctx.exec.abi.requestBody = _
  unfold handlerStatus at *
  split
  · rename_i hno
    rw [if_pos hno] at hok
    cases hok
  · rename_i hlimit
    rw [if_neg hlimit] at hok
    exact storeRequestBody_ok hok

/-- It leaves the request alone. -/
theorem requestBodyHandler_req : (requestBodyHandler conf i f).req = f.req ∧
    (requestBodyHandler conf i f).ctx.exec.conf = f.ctx.exec.conf ∧
    (requestBodyHandler conf i f).ctx.bodyAsync = f.ctx.bodyAsync := by
  obtain ⟨stored, status, -, h⟩ := requestBodyHandler_eq (i := i) (f := f)
  rw [h]
  exact ⟨rfl, rfl, rfl⟩

end Store

/-! ## The guest -/

section Guest

variable {conf : Conf} {client : Client} {i : Input} {f : Frame}

/-- **`run_request`** shows the guest what is stored, and leaves it stored. -/
theorem runRequest_kept (h : Kept conf client f) (hp : Prepared conf f.ctx) :
    Kept conf client (runRequest i f).2 := by
  have hbody := runRequest_body (i := i) (f := f)
  have hcases := runRequest_cases (i := i) (f := f)
  generalize runRequest i f = r at hbody hcases
  obtain ⟨rc, f'⟩ := r
  have hhold : f'.hold.views = (ranGuest i f).hold.views ∧ f'.hold.conf = f.hold.conf ∧
      f'.hold.bodyPending = f.hold.bodyPending := by
    cases hcases with
    | suspended _ hh => exact ⟨by rw [hh], by rw [hh]; rfl, by rw [hh]; rfl⟩
    | declined _ _ hh => exact ⟨by rw [hh], by rw [hh]; rfl, by rw [hh]; rfl⟩
    | ends _ _ hh => exact ⟨by rw [hh], by rw [hh]; rfl, by rw [hh]; rfl⟩
  obtain ⟨hviews, hconf, hpending⟩ := hhold
  have hbufs : f'.req.bufs = f.req.bufs := congrArg Body.bufs hbody
  have hlength : f'.req.contentLengthN = f.req.contentLengthN := congrArg Body.contentLengthN hbody
  have hready : f'.ctx.bodyReady = f.ctx.bodyReady := congrArg Body.ready hbody
  refine ⟨⟨?_, (congrArg Body.chunked hbody).trans h.req.chunked, fun v hv hbuffered => ?_,
    fun hyes => ?_⟩, ⟨fun hyes => ?_, fun _ hook hhook hbuffered => ?_⟩⟩
  · rw [hbufs, hlength]
    exact h.req.source
  · have hv : v ∈ f'.hold.views := hv
    rw [hviews] at hv
    unfold ranGuest Frame.hold at hv
    dsimp only at hv
    split at hv
    · rename_i hook hhook
      rcases List.mem_cons.mp hv with rfl | hold
      · exact h.ctx.ready (hp hook hhook hbuffered)
      · exact h.req.views v hold hbuffered
    · exact h.req.views v hv hbuffered
  · rw [hbufs]
    exact h.req.pending (hpending.symm.trans hyes)
  · exact (congrArg Body.stored hbody).trans (h.ctx.ready (hready.symm.trans hyes))
  · exact hready.trans (hp hook (hconf.symm.trans hhook) hbuffered)

/-- Finalizing the request leaves the body alone. -/
theorem keptReq_finalize {req : Req} (h : KeptReq conf client req) (rc : Rc) :
    KeptReq conf client (req.finalize rc) := by
  cases rc <;> exact ⟨h.source, h.chunked, h.views, h.pending⟩

@[simp] theorem finalize_suspended (req : Req) (rc : Rc) :
    (req.finalize rc).suspended = req.suspended := by
  cases rc <;> rfl

theorem kept_finalize (h : Kept conf client f) (rc : Rc) :
    Kept conf client { f with req := f.req.finalize rc } := by
  refine ⟨keptReq_finalize h.req rc, ?_⟩
  rw [finalize_suspended]
  exact h.ctx

theorem resumed_kept {r : Rc × Frame} (h : Kept conf client r.2) :
    Kept conf client (resumed r) := by
  unfold resumed
  split
  · exact h
  · exact ⟨⟨h.req.source, h.req.chunked, h.req.views, h.req.pending⟩, h.ctx⟩
  · exact kept_finalize h _

theorem resumeHandler_kept (h : Kept conf client f) (hp : Prepared conf f.ctx) :
    Kept conf client (resumeHandler i f) := by
  unfold resumeHandler
  split
  · exact kept_finalize h _
  · exact resumed_kept (runRequest_kept h hp)

/-- **`request_body_handler`**, where nothing has been discarded. -/
theorem requestBodyHandler_kept (h : KeptReq conf client f.req) (hsus : f.req.suspended = false)
    (hbufs : f.req.bufs.flatten = client.body) :
    Kept conf client (requestBodyHandler conf i f) := by
  have hreq : (requestBodyHandler conf i f).req = f.req := requestBodyHandler_req.1
  refine ⟨hreq ▸ h, ⟨fun hyes => ?_, fun hyes => ?_⟩⟩
  · rw [requestBodyHandler_ready hyes, hbufs]
  · rw [hreq, hsus] at hyes
    cases hyes

theorem bodyArrives_kept (h : KeptReq conf client f.req) (hsus : f.req.suspended = false)
    (hbufs : f.req.bufs.flatten = client.body) : Kept conf client (bodyArrives conf i f) := by
  have hkept := requestBodyHandler_kept (i := i) h hsus hbufs
  unfold bodyArrives
  dsimp only
  split
  · exact hkept
  · split
    · exact kept_finalize hkept _
    · rename_i hok
      refine resumeHandler_kept hkept fun _ _ _ => ?_
      have hok : (handlerStatus conf i f).1 = .ok := not_not.mp hok
      exact decide_eq_true hok

end Guest

/-! ## The phase engine -/

/-- The hook may be called: the body is not lost with the execution context it is in, and where the
hook has a buffer none of the body has been discarded. -/
structure KeepsBody (conf : Conf) (client : Client) (s : State) (hook : Hook) : Prop where
  ready : ∀ ctx ∈ s.ctx, ctx.execCompleted = true → ctx.exec.conf ≠ some hook →
    ctx.bodyReady = false
  bufs : Buffered conf hook → s.req.bufs.flatten = client.body

section Engine

variable {conf : Conf} {client : Client} {hook : Hook} {i : Input} {f : Frame} {s : State}

theorem discardRequestBody_kept (h : Kept conf client f) (hb : f.req.bodyPending = false) :
    (discardRequestBody i f).Sat
      (fun f' => Kept conf client f' ∧ f'.ctx.exec.conf = f.ctx.exec.conf)
      (fun _ f' => Kept conf client f') := by
  unfold discardRequestBody
  split
  · exact ⟨h, rfl⟩
  · split
    · exact h
    · refine ⟨⟨⟨Or.inr rfl, h.req.chunked, h.req.views, fun hyes => ?_⟩, h.ctx⟩, rfl⟩
      exact absurd (hb.symm.trans hyes) nofun

theorem readRequestBody_kept (h : Kept conf client f) (hsus : f.req.suspended = false)
    (hready : f.ctx.bodyReady = false) (hbufs : f.req.bufs.flatten = client.body) :
    (readRequestBody conf i f).Sat (fun f' => Kept conf client f' ∧ f'.ctx.bodyReady = true ∧
        f'.ctx.exec.conf = f.ctx.exec.conf)
      (fun _ f' => Kept conf client f') := by
  have hnone : ∀ ctx : Ctx, ctx.bodyReady = false → KeptCtx conf client f.req.suspended ctx :=
    fun ctx hno => ⟨fun hyes => absurd (hno.symm.trans hyes) nofun,
      fun hyes => absurd (hsus.symm.trans hyes) nofun⟩
  unfold readRequestBody readClientRequestBody
  cases hr : f.req.read i with
  | error status =>
    simp only [hr]
    exact ⟨⟨h.req.source, h.req.chunked, h.req.views, h.req.pending⟩, hnone _ hready⟩
  | inline =>
    simp only [hr]
    generalize hg : ({
      req := { f.req with count := f.req.count + 1, requestBody := true }
      ctx := { f.ctx with bodyReading := true, bodyAsync := false, bodyStatus := .ok } } :
        Frame) = g
    have hkept : Kept conf client (requestBodyHandler conf i g) := by
      rw [← hg]
      refine requestBodyHandler_kept ?_ hsus hbufs
      exact ⟨h.req.source, h.req.chunked, h.req.views, h.req.pending⟩
    have hconf : (requestBodyHandler conf i g).ctx.exec.conf = f.ctx.exec.conf := by
      rw [requestBodyHandler_req.2.1, ← hg]
    have hreading : (requestBodyHandler conf i g).ctx.bodyReading = false := rfl
    simp only [hreading, Bool.not_false, if_true]
    have hback : KeptReq conf client { (requestBodyHandler conf i g).req with
        count := (requestBodyHandler conf i g).req.count - 1 } :=
      ⟨hkept.req.source, hkept.req.chunked, hkept.req.views, hkept.req.pending⟩
    split
    · exact ⟨hback, hkept.ctx⟩
    · split
      · rename_i hyes
        exact ⟨⟨hback, hkept.ctx⟩, hyes, hconf⟩
      · exact ⟨hback, ⟨hkept.ctx.ready, hkept.ctx.suspended⟩⟩
  | later =>
    simp only [hr, hready]
    exact ⟨⟨h.req.source, h.req.chunked, h.req.views, fun _ => hbufs⟩, hnone _ rfl⟩

/-- **`prepare_request_body`** comes to an end with the body there, if the hook has a buffer. -/
theorem prepareRequestBody_kept (hw : client.WellFormed) (h : Kept conf client f)
    (hsus : f.req.suspended = false) (hb : f.req.bodyPending = false)
    (hbufs : Buffered conf hook → f.req.bufs.flatten = client.body) :
    (prepareRequestBody conf hook i f).Sat (fun f' => Kept conf client f' ∧
        (Buffered conf hook → f'.ctx.bodyReady = true) ∧ f'.ctx.exec.conf = f.ctx.exec.conf)
      (fun _ f' => Kept conf client f') := by
  unfold prepareRequestBody
  dsimp only
  split
  · exact h
  by_cases hsize : (conf.level hook).bufferSize = 0
  · rw [if_pos hsize]
    exact (discardRequestBody_kept h hb).mono
      (fun _ h' => ⟨h'.1, fun hbuffered => absurd hsize hbuffered, h'.2⟩) fun _ _ h' => h'
  rw [if_neg hsize]
  by_cases hready : f.ctx.bodyReady = true
  · rw [if_pos hready]
    exact ⟨h, fun _ => hready, rfl⟩
  rw [if_neg hready]
  split
  · exact h
  split
  · exact h
  by_cases hnone : (decide (f.req.contentLengthN ≤ 0) && !f.req.chunked) = true
  · rw [if_pos hnone]
    -- a request that announces no body has none
    have hempty : client.body = [] := by
      rcases h.req.source with ⟨hlength, -⟩ | hnil
      · rw [Bool.and_eq_true, decide_eq_true_eq, Bool.not_eq_true', hlength, h.req.chunked] at hnone
        exact hw hnone.1 hnone.2
      · rw [← hbufs hsize, hnil]
        rfl
    split
    · exact h
    · rename_i hok
      have hok := not_not.mp hok
      obtain ⟨stored, heq⟩ := reqSetBody_eq (i := i) (f := f) []
      have hstored := reqSetBody_ok hok
      rw [heq] at hstored ⊢
      have hstored : stored = some [] := hstored
      refine ⟨⟨h.req, ⟨fun _ => ?_, fun hyes => absurd (hsus.symm.trans hyes) nofun⟩⟩,
        fun _ => rfl, rfl⟩
      rw [hempty]
      exact hstored
  · rw [if_neg hnone]
    exact (readRequestBody_kept h hsus (Bool.eq_false_iff.mpr hready) (hbufs hsize)).mono
      (fun _ h' => ⟨h'.1, fun _ => h'.2.1, h'.2.2⟩) fun _ _ h' => h'

/-- `get_or_create_ctx` keeps the body where it keeps the execution context. -/
theorem getOrCreateCtx_kept {slot : Option Ctx}
    (h : ∀ ctx ∈ slot, KeptCtx conf client false ctx)
    (hready : ∀ ctx ∈ slot, ctx.execCompleted = true → ctx.exec.conf ≠ some hook →
      ctx.bodyReady = false) {ctx : Ctx}
    (hget : getOrCreateCtx conf hook i slot = .ok ctx) : KeptCtx conf client false ctx := by
  cases slot with
  | some old =>
    simp only [getOrCreateCtx] at hget
    split at hget
    · rename_i hagain
      obtain rfl := Except.ok.inj hget
      refine ⟨fun hyes => ?_, fun h => absurd h Bool.false_ne_true⟩
      exact absurd ((hready old rfl hagain.1 hagain.2.1).symm.trans hyes) Bool.false_ne_true
    · obtain rfl := Except.ok.inj hget
      exact h old rfl
  | none =>
    simp only [getOrCreateCtx] at hget
    split at hget
    · cases hget
    · split at hget
      · cases hget
      · split at hget
        · obtain rfl := Except.ok.inj hget
          exact ⟨fun h => absurd h Bool.false_ne_true, fun h => absurd h Bool.false_ne_true⟩
        · cases hget

theorem runPhase_kept (hw : client.WellFormed) (h : BodyKept conf client s)
    (hsus : s.req.suspended = false) (hb : s.req.bodyPending = false)
    (hk : conf.set hook = true → conf.runtimeSet = true → KeepsBody conf client s hook) :
    BodyKept conf client (runPhase conf hook i s).2 := by
  unfold runPhase
  split
  · exact h
  rename_i hset
  have hset : conf.set hook = true ∧ conf.runtimeSet = true := by simpa using hset
  have hk := hk hset.1 hset.2
  cases hget : getOrCreateCtx conf hook i s.ctx with
  | error slot =>
    refine ⟨h.req, fun ctx hctx => ?_⟩
    rcases getOrCreateCtx_error hget with rfl | rfl
    · exact absurd hctx nofun
    · obtain rfl := Option.mem_some_iff.mp hctx
      exact ⟨nofun, fun _ _ hconf => absurd hconf nofun⟩
  | ok ctx =>
    have hctx : KeptCtx conf client s.req.suspended ctx := by
      rw [hsus]
      exact getOrCreateCtx_kept (fun c hc => hsus ▸ h.ctx c hc) hk.ready hget
    have hkept : Kept conf client ⟨s.req, ctx⟩ := ⟨h.req, hctx⟩
    dsimp only
    split
    · exact hkept.toState
    rename_i hconf
    have hconf := not_not.mp hconf
    split
    · exact hkept.toState
    have hprepare := prepareRequestBody_kept (i := i) hw hkept hsus hb hk.bufs
    cases hx : prepareRequestBody conf hook i ⟨s.req, ctx⟩ with
    | ret rc f' =>
      rw [hx] at hprepare
      dsimp only
      unfold finalizeAsync
      split
      · exact (kept_finalize hprepare .done).toState
      · exact hprepare.toState
    | next f' =>
      rw [hx] at hprepare
      obtain ⟨hkept', hready, hconf'⟩ := hprepare
      refine (runRequest_kept hkept' fun k hk' hbuffered => hready ?_).toState
      have hsame : some k = some hook := (hconf'.symm.trans hk').symm.trans hconf
      obtain rfl := Option.some.inj hsame
      exact hbuffered

theorem bodyKept_finalize {req : Req} {ctx : Option Ctx} (h : BodyKept conf client ⟨req, ctx⟩)
    (rc : Rc) : BodyKept conf client ⟨req.finalize rc, ctx⟩ := by
  refine ⟨keptReq_finalize h.req rc, ?_⟩
  rw [finalize_suspended]
  exact h.ctx

theorem checkRewrite_kept {r : Rc × State} (h : BodyKept conf client r.2) (rest : List Hook) :
    BodyKept conf client (checkRewrite rest r) := by
  unfold checkRewrite
  split
  · exact ⟨⟨h.req.source, h.req.chunked, h.req.views, h.req.pending⟩, h.ctx⟩
  · exact ⟨⟨h.req.source, h.req.chunked, h.req.views, h.req.pending⟩, h.ctx⟩
  · exact bodyKept_finalize h _

theorem checkContent_kept {r : Rc × State} (h : BodyKept conf client r.2) (rest : List Hook) :
    BodyKept conf client (checkContent rest r) := by
  have hfin : ∀ rc, BodyKept conf client ⟨r.2.req.finalize rc, r.2.ctx⟩ := bodyKept_finalize h
  unfold checkContent
  split
  · exact ⟨⟨(hfin _).req.source, (hfin _).req.chunked, (hfin _).req.views, (hfin _).req.pending⟩,
      (hfin .declined).ctx⟩
  · exact ⟨⟨(hfin _).req.source, (hfin _).req.chunked, (hfin _).req.views, (hfin _).req.pending⟩,
      (hfin r.1).ctx⟩

theorem runPhases_kept (hw : client.WellFormed) (h : BodyKept conf client s)
    (hsus : s.req.suspended = false) (hb : s.req.bodyPending = false)
    (hk : ∀ hook rest, s.req.position = hook :: rest → conf.set hook = true →
      conf.runtimeSet = true → KeepsBody conf client s hook) :
    BodyKept conf client (runPhases conf i s) := by
  unfold runPhases
  split
  · exact bodyKept_finalize h _
  · rename_i rest hp
    have h' : BodyKept conf client { s with req.writeHandler := .empty } :=
      ⟨⟨h.req.source, h.req.chunked, h.req.views, h.req.pending⟩, h.ctx⟩
    refine checkContent_kept (runPhase_kept hw h' hsus hb fun hs hr => ?_) rest
    have hkeeps := hk .content rest hp hs hr
    exact ⟨hkeeps.ready, hkeeps.bufs⟩
  · rename_i hook rest _ hp
    exact checkRewrite_kept (runPhase_kept hw h hsus hb (hk hook rest hp)) rest

end Engine

/-! ## Runs -/

/-- The phase engine, if it is its turn, calls a hook that keeps the body. -/
def Event.keepsBody (conf : Conf) (client : Client) (s : State) : Event → Prop
  | .phase _ => s.req.finalized = false → s.req.engine = true → ∀ hook rest,
      s.req.position = hook :: rest → conf.set hook = true → conf.runtimeSet = true →
        KeepsBody conf client s hook
  | .body _ | .resume _ | .io => True

/-- What a guest gets from `abi_req_get_body` where the client's body is stored, in a buffer of any
size. -/
def SeesBody (client : Client) (stored : Option Bytes) : Prop :=
  ∀ abi : Abi, abi.requestBody = stored → ∀ bufLen : Nat,
    reqGetBody abi bufLen = ((client.body.length : Int), client.body.take bufLen)

/-- The guests that had a body buffer saw the body, and the flag says that it is there. -/
structure BodySeen (conf : Conf) (client : Client) (s : State) : Prop where
  views : ∀ v ∈ s.req.views, Buffered conf v.1 → SeesBody client v.2
  ready : ∀ ctx ∈ s.ctx, ctx.bodyReady = true → SeesBody client ctx.exec.abi.requestBody

theorem seesBody_some (client : Client) : SeesBody client (some client.body) := by
  intro abi habi bufLen
  unfold reqGetBody
  rw [habi]

theorem BodyKept.seen {conf : Conf} {client : Client} {s : State} (h : BodyKept conf client s) :
    BodySeen conf client s := by
  constructor
  · intro v hv hbuffered
    rw [h.req.views v hv hbuffered]
    exact seesBody_some client
  · intro ctx hctx hyes
    rw [(h.ctx ctx hctx).ready hyes]
    exact seesBody_some client

section Run

variable {conf : Conf} {client : Client} {s : State} {h : Holder}

/-- **One step** keeps the body. -/
theorem step_kept (hw : client.WellFormed) (hs : HeldBy h s) (hkept : BodyKept conf client s)
    (e : Event) (hk : e.keepsBody conf client s) : BodyKept conf client (step conf s e) := by
  have hcase : Occurs conf s e (step conf s e) := step_occurs conf s e
  generalize step conf s e = s' at hcase ⊢
  cases hcase with
  | nothing => exact hkept
  | phase hlive hengine =>
    have heng : h = .engine := of_decide_eq_true (hs.engine.symm.trans hengine)
    subst heng
    exact runPhases_kept hw hkept hs.suspended hs.bodyPending (hk hlive hengine)
  | body hlive hctx hpending =>
    have hsus : s.req.suspended = false := by
      have hbody : h = .bodyHandler := of_decide_eq_true (hs.bodyPending.symm.trans hpending)
      rw [hs.suspended, hbody]
      rfl
    have hreq : KeptReq conf client { s.req with bodyPending := false } :=
      ⟨hkept.req.source, hkept.req.chunked, hkept.req.views, nofun⟩
    exact (bodyArrives_kept (f := ⟨{ s.req with bodyPending := false }, _⟩) hreq hsus
      (hkept.req.pending hpending)).toState
  | @resume i ctx hlive hctx hposted hhandler =>
    have hheld := hkept.ctx ctx hctx
    have hholds : h ≠ .nobody := by
      rintro rfl
      exact Bool.false_ne_true (hlive.symm.trans hs.finalized)
    have hsus : s.req.suspended = true := by
      rw [hs.suspended, (hs.handler hholds).mp hhandler]
      rfl
    refine (resumeHandler_kept ?_ (hheld.suspended hsus)).toState
    exact ⟨⟨hkept.req.source, hkept.req.chunked, hkept.req.views, hkept.req.pending⟩,
      ⟨hheld.ready, nofun⟩⟩
  | @unused i ctx hlive hctx hposted hhandler =>
    have hsame : Kept conf client ⟨{ s.req with posted := s.req.posted - 1 }, ctx⟩ :=
      ⟨⟨hkept.req.source, hkept.req.chunked, hkept.req.views, hkept.req.pending⟩,
        hkept.ctx ctx hctx⟩
    exact hsame.toState
  | @io ctx hlive hctx hactive =>
    have hheld := hkept.ctx ctx hctx
    have hsame : Kept conf client
        ⟨{ s.req with posted := s.req.posted + 1 }, { ctx with subrequestActive := false }⟩ :=
      ⟨⟨hkept.req.source, hkept.req.chunked, hkept.req.views, hkept.req.pending⟩,
        ⟨hheld.ready, hheld.suspended⟩⟩
    exact hsame.toState

/-- **Every guest with a body buffer sees the whole body of the client**, and
`request_body_ready` says that the execution context holds it, in every state of a run in which no
execution context is initialised again while it holds the body, and no hook with a buffer comes
after one that has discarded a part of the body. -/
theorem body_seen (conf : Conf) (client : Client) (events : List Event) (hw : client.WellFormed)
    (hmeets : Meets (step conf) (fun s e => e.keepsBody conf client s) (init client) events) :
    BodySeen conf client (runFrom (step conf) (init client) events) := by
  have hinit : BodyKept conf client (init client) :=
    ⟨⟨Or.inl ⟨rfl, rfl⟩, rfl, fun _ hv => absurd hv List.not_mem_nil, fun hp => by cases hp⟩,
      fun _ hctx => absurd hctx (Option.not_mem_none _)⟩
  have h0 : (∃ h, HeldBy h (init client)) ∧ BodyKept conf client (init client) :=
    ⟨⟨.engine, held_init client⟩, hinit⟩
  have hstep : ∀ s e, (∃ h, HeldBy h s) ∧ BodyKept conf client s → e.keepsBody conf client s →
      (∃ h, HeldBy h (step conf s e)) ∧ BodyKept conf client (step conf s e) := by
    rintro s e ⟨⟨h, hs⟩, hkept⟩ hk
    obtain ⟨h', hstep⟩ : ∃ h', Stepped conf h s e h' := step_held hs e
    exact ⟨⟨h', hstep.held⟩, step_kept hw hs hkept e hk⟩
  exact (hmeets.invariant h0 hstep).2.seen

end Run

/-- A rewrite hook of a location with a body buffer, whose body arrives later. -/
theorem body_seen_rewrite :
    let conf : Conf := ⟨true, true, (· = .rewrite), fun _ => true, ⟨0, 9, 9⟩, ⟨8, 9, 9⟩⟩
    let client : Client := ⟨3, false, [[1, 2, 3]], false⟩
    let i : Input := { smoothInput (smoothRun ⟨[], 1, some (.value (.i32 0)), true⟩) with
      read := .later }
    BodySeen conf client (runFrom (step conf) (init client) [.phase i, .phase i, .body i]) := by
  intro conf client i
  refine body_seen conf client _ (fun hlength => absurd hlength (by decide)) ⟨?_, ?_, trivial, trivial⟩
  · rintro - - hook rest hp hset -
    obtain ⟨rfl, -⟩ := List.cons.inj hp
    exact absurd hset (by decide)
  · rintro - - hook rest hp - -
    obtain ⟨rfl, -⟩ := List.cons.inj hp
    constructor
    · intro _ hctx
      exact absurd hctx (Option.not_mem_none _)
    · intro _
      exact rfl

/-- A location with a body buffer, a rewrite hook that falls through and a content hook: the content
hook finds no body, although the flag says that it is there. -/
theorem body_lost_after_rewrite :
    let conf : Conf := ⟨true, true, (· ≠ .serverRewrite), fun _ => true, ⟨0, 9, 9⟩, ⟨8, 9, 9⟩⟩
    let client : Client := ⟨3, false, [[1, 2, 3]], false⟩
    let i := smoothInput (smoothRun ⟨[], 1, some (.value (.i32 0)), true⟩)
    ¬ BodySeen conf client (runFrom (step conf) (init client) [.phase i, .phase i, .phase i]) := by
  intro conf client i hseen
  have hbuffered : Buffered conf .content := by unfold Buffered; decide
  have hhead : (runFrom (step conf) (init client) [.phase i, .phase i, .phase i]).req.views.head? =
      some (.content, none) := by decide +kernel
  have hview := hseen.views (.content, none) (List.mem_of_mem_head? hhead) hbuffered
  exact absurd (hview {} rfl 3) (by decide)

end NgxWasm.Request
