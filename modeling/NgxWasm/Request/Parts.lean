import NgxWasm.Request.Phases
import NgxWasm.Runtime.Suspension

/-!
# The two parts of a frame

The functions on the request body and those that run the guest work on two parts of a frame that
have nothing in common: `Frame.hold`, which says who holds the request and what has run on it, and
`Frame.body`, the body and how far it has been read. Each function leaves one of the two alone,
apart from `prepare_request_body` when the body has to be waited for (`prepareRequestBody_cases`)
and `run_request`, which shows the guest what is stored (`runRequest_cases`).

These two lemmas say all that the two functions can do. Neither is unfolded again after them: the
results on who holds a request (`Request.Holder`, `Request.Steps`) look at the first part, those on
the body (`Request.Body`) at the second, and `Request.Limit` at both.
-/

namespace NgxWasm.Request

open Lib
open NgxWasm.Runtime (Machine Phase SuspendKind launches run run_returned Returned)

/-- A return code that ends the request: not one of the two the phase engine goes on with. -/
def Ends (rc : Rc) : Prop := rc ≠ .done ∧ rc ≠ .declined

theorem ends_http (status : Nat) : Ends (.http status) := ⟨nofun, nofun⟩

theorem Sent.ends (sent : Sent) : Ends sent.rc := by
  cases sent <;> exact ⟨nofun, nofun⟩

/-! ## The two parts of a frame -/

/-- Who holds the request, and what has run on it. -/
structure Hold where
  count : Int
  writeHandler : WriteHandler
  posted : Nat
  engine : Bool
  position : List Hook
  bodyPending : Bool
  suspended : Bool
  finalized : Bool
  freedEarly : Bool
  views : List (Hook × Option Bytes)
  waiting : Bool
  execCompleted : Bool
  subrequestActive : Bool
  conf : Option Hook
  machine : Machine

def Frame.hold (f : Frame) : Hold where
  count := f.req.count
  writeHandler := f.req.writeHandler
  posted := f.req.posted
  engine := f.req.engine
  position := f.req.position
  bodyPending := f.req.bodyPending
  suspended := f.req.suspended
  finalized := f.req.finalized
  freedEarly := f.req.freedEarly
  views := f.req.views
  waiting := f.ctx.waiting
  execCompleted := f.ctx.execCompleted
  subrequestActive := f.ctx.subrequestActive
  conf := f.ctx.exec.conf
  machine := f.ctx.exec.machine

/-- The request body, and how far it has been read. -/
structure Body where
  contentLengthN : Int
  chunked : Bool
  bufs : List Bytes
  tempFile : Bool
  requestBody : Bool
  discardBody : Bool
  stored : Option Bytes
  reading : Bool
  ready : Bool
  async : Bool
  status : Rc

def Frame.body (f : Frame) : Body where
  contentLengthN := f.req.contentLengthN
  chunked := f.req.chunked
  bufs := f.req.bufs
  tempFile := f.req.tempFile
  requestBody := f.req.requestBody
  discardBody := f.req.discardBody
  stored := f.ctx.exec.abi.requestBody
  reading := f.ctx.bodyReading
  ready := f.ctx.bodyReady
  async := f.ctx.bodyAsync
  status := f.ctx.bodyStatus

/-! ## The request body -/

section Body

variable {conf : Conf} {hook : Hook} {i : Input} {f : Frame}

/-- The frame with another body stored. -/
def Frame.store (stored : Option Bytes) (f : Frame) : Frame :=
  { f with ctx.exec.abi.requestBody := stored }

theorem reqSetBody_eq (data : Bytes) : ∃ stored, (reqSetBody i data f).2 = f.store stored := by
  unfold reqSetBody
  split
  · exact ⟨_, rfl⟩
  · exact ⟨some data, rfl⟩

theorem reqSetBody_ends (data : Bytes) : Ends (reqSetBody i data f).1 := by
  unfold reqSetBody
  split <;> exact ⟨nofun, nofun⟩

theorem storeRequestBody_eq (limit : Nat) :
    ∃ stored, (storeRequestBody limit i f).2 = f.store stored := by
  unfold storeRequestBody
  split
  · exact reqSetBody_eq _
  · split
    · exact ⟨_, rfl⟩
    · split
      · exact ⟨_, rfl⟩
      · exact reqSetBody_eq _
      · split
        · exact ⟨_, rfl⟩
        · exact reqSetBody_eq _

theorem storeRequestBody_ends (limit : Nat) : Ends (storeRequestBody limit i f).1 := by
  unfold storeRequestBody
  split
  · exact reqSetBody_ends _
  · split
    · exact ends_http _
    · split
      · exact ends_http _
      · exact reqSetBody_ends _
      · split
        · exact ends_http _
        · exact reqSetBody_ends _

theorem handlerStatus_eq : ∃ stored, (handlerStatus conf i f).2 = f.store stored := by
  unfold handlerStatus
  split
  · exact ⟨_, rfl⟩
  · exact storeRequestBody_eq _

theorem handlerStatus_ends : Ends (handlerStatus conf i f).1 := by
  unfold handlerStatus
  split
  · exact ends_http _
  · exact storeRequestBody_ends _

/-- `request_body_handler` stores a body and says so. -/
theorem requestBodyHandler_eq : ∃ stored status, Ends status ∧
    requestBodyHandler conf i f =
      { f.store stored with ctx := { (f.store stored).ctx with
        bodyStatus := status, bodyReading := false, bodyReady := status = .ok } } := by
  obtain ⟨stored, h⟩ := handlerStatus_eq (i := i) (f := f)
  refine ⟨stored, (handlerStatus conf i f).1, handlerStatus_ends, ?_⟩
  unfold requestBodyHandler
  dsimp only
  rw [h]

theorem requestBodyHandler_hold : (requestBodyHandler conf i f).hold = f.hold := by
  obtain ⟨stored, status, -, h⟩ := requestBodyHandler_eq (i := i) (f := f)
  rw [h]
  rfl

/-- The body has to be waited for: nginx has the handler and a reference. -/
structure Reading (f f' : Frame) : Prop where
  hold : f'.hold =
    { f.hold with count := f.hold.count + 1, bodyPending := true, writeHandler := .empty }
  reading : f'.ctx.bodyReading = true
  async : f'.ctx.bodyAsync = true
  status : f'.ctx.bodyStatus = .ok

/-- Nobody waits for the body; what is known of it is kept. -/
structure Settled (f f' : Frame) : Prop where
  hold : f'.hold = f.hold
  reading : f'.ctx.bodyReading = false
  status : f'.ctx.bodyStatus = .ok ∨ Ends f'.ctx.bodyStatus

theorem readRequestBody_cases (hready : f.ctx.bodyReady = false) :
    (readRequestBody conf i f).Sat (Settled f)
      (fun rc f' => Ends rc ∧ Settled f f' ∨
        rc = .done ∧ Reading f f' ∧ f.req.read i = .later) := by
  -- the reference that is taken is given back
  have hback : { f.hold with count := f.hold.count + 1 - 1 } = f.hold := by
    rw [Int.add_sub_cancel]
  unfold readRequestBody readClientRequestBody
  cases hr : f.req.read i with
  | error status =>
    simp only [hr]
    exact Or.inl ⟨ends_http status, hback, rfl, Or.inr (ends_http status)⟩
  | inline =>
    simp only [hr]
    generalize hg : ({
      req := { f.req with count := f.req.count + 1, requestBody := true }
      ctx := { f.ctx with bodyReading := true, bodyAsync := false, bodyStatus := .ok } } :
        Frame) = g
    have hhold : { (requestBodyHandler conf i g).hold with
        count := (requestBodyHandler conf i g).hold.count - 1 } = f.hold := by
      rw [requestBodyHandler_hold, ← hg]
      exact hback
    have hends : Ends (requestBodyHandler conf i g).ctx.bodyStatus := handlerStatus_ends
    have hreading : (requestBodyHandler conf i g).ctx.bodyReading = false := rfl
    simp only [hreading, Bool.not_false, if_true]
    split
    · exact Or.inl ⟨hends, hhold, hreading, Or.inr hends⟩
    · split
      · exact ⟨hhold, hreading, Or.inr hends⟩
      · rename_i hok hready
        refine absurd ?_ hready
        have : (requestBodyHandler conf i g).ctx.bodyStatus = .ok := not_not.mp hok
        show decide ((requestBodyHandler conf i g).ctx.bodyStatus = .ok) = true
        rw [this]
        rfl
  | later =>
    simp only [hr, hready]
    exact Or.inr ⟨rfl, ⟨rfl, rfl, rfl, rfl⟩, trivial⟩

/-- What lets `prepare_request_body` read the body, and nginx call the handler later. -/
structure ReadsLater (conf : Conf) (hook : Hook) (i : Input) (f : Frame) : Prop where
  status : f.ctx.bodyStatus = .ok
  buffered : (conf.level hook).bufferSize ≠ 0
  ready : f.ctx.bodyReady = false
  reading : f.ctx.bodyReading = false
  fits : f.req.contentLengthN ≤ (conf.level hook).bufferSize
  announced : 0 < f.req.contentLengthN ∨ f.req.chunked = true
  later : f.req.read i = .later

/-- **`prepare_request_body`** in the hands of the phase engine. -/
theorem prepareRequestBody_cases (hreading : f.ctx.bodyReading = false)
    (hstatus : f.ctx.bodyStatus = .ok ∨ Ends f.ctx.bodyStatus) :
    (prepareRequestBody conf hook i f).Sat (Settled f)
      (fun rc f' => Ends rc ∧ Settled f f' ∨
        rc = .done ∧ Reading f f' ∧ ReadsLater conf hook i f) := by
  have hsettled : Settled f f := ⟨rfl, hreading, hstatus⟩
  unfold prepareRequestBody
  dsimp only
  by_cases hok : f.ctx.bodyStatus = .ok
  swap
  · rw [if_pos hok]
    exact Or.inl ⟨hstatus.resolve_left hok, hsettled⟩
  rw [if_neg (not_not.mpr hok)]
  by_cases hsize : (conf.level hook).bufferSize = 0
  · rw [if_pos hsize]
    unfold discardRequestBody
    split
    · exact hsettled
    · split
      · exact Or.inl ⟨ends_http _, hsettled⟩
      · exact ⟨rfl, hreading, hstatus⟩
  rw [if_neg hsize]
  by_cases hready : f.ctx.bodyReady = true
  · rw [if_pos hready]
    exact hsettled
  rw [if_neg hready, if_neg (by rw [hreading]; simp)]
  by_cases hlarge : f.req.contentLengthN > (conf.level hook).bufferSize
  · rw [if_pos hlarge]
    exact Or.inl ⟨ends_http _, hsettled⟩
  rw [if_neg hlarge]
  by_cases hnone : (decide (f.req.contentLengthN ≤ 0) && !f.req.chunked) = true
  · rw [if_pos hnone]
    split
    · exact Or.inl ⟨ends_http _, hsettled⟩
    · obtain ⟨stored, hset⟩ := reqSetBody_eq (i := i) (f := f) []
      rw [hset]
      exact ⟨rfl, hreading, hstatus⟩
  · rw [if_neg hnone]
    have hfalse : f.ctx.bodyReady = false := Bool.eq_false_iff.mpr hready
    refine (readRequestBody_cases hfalse).mono (fun _ h => h) fun rc f' h => ?_
    rcases h with h | ⟨hrc, hr, hlater⟩
    · exact Or.inl h
    · refine Or.inr ⟨hrc, hr, hok, hsize, hfalse, hreading, not_lt.mp hlarge, ?_, hlater⟩
      rw [Bool.and_eq_true, not_and_or, decide_eq_true_eq, not_le] at hnone
      exact hnone.imp id fun h => by simpa using h

end Body

/-! ## Running the guest -/

section Guest

variable {i : Input} {f : Frame}

/-- How `run_request` ends, after what the guest did (`ranGuest`). -/
inductive RunCases (i : Input) (f f' : Frame) : Rc → Prop
  | suspended (hrun : (run i.run f.ctx.exec.machine).1 = .again)
      (h : f'.hold = { (ranGuest i f).hold with
        writeHandler := .resume
        posted := if f'.ctx.exec.machine.ctx.suspendKind = .reschedule then f.req.posted + 1
          else f.req.posted
        count := if !f.ctx.waiting && f'.ctx.exec.machine.ctx.phaseKind = .content then
          f.req.count + 1 else f.req.count
        suspended := true
        waiting := true }) : RunCases i f f' .done
  | declined (hrun : (run i.run f.ctx.exec.machine).1 = .ok)
      (hphase : f'.ctx.exec.machine.ctx.phaseKind ≠ .content)
      (h : f'.hold = { (ranGuest i f).hold with waiting := false, execCompleted := true }) :
      RunCases i f f' .declined
  | ends (rc : Rc) (hrc : Ends rc)
      (h : f'.hold = { (ranGuest i f).hold with
        writeHandler := f'.req.writeHandler
        waiting := f'.ctx.waiting
        execCompleted := f'.ctx.execCompleted })
      (hcompleted : f'.ctx.execCompleted = true →
        f.ctx.execCompleted = true ∨ (run i.run f.ctx.exec.machine).1 = .ok) :
      RunCases i f f' rc

theorem sendResponse_ends (abi : Abi) : Ends (sendResponse i abi).1 := by
  unfold sendResponse
  split
  · exact ends_http _
  · split
    · exact i.sendHeader.ends
    · split
      · exact i.output.ends
      · split
        · exact ends_http _
        · exact i.output.ends

theorem sendResponse_requestBody (abi : Abi) :
    (sendResponse i abi).2.requestBody = abi.requestBody := by
  unfold sendResponse
  split
  · rfl
  · split
    · rfl
    · split
      · rfl
      · split <;> rfl

theorem runRequest_body : (runRequest i f).2.body = f.body := by
  unfold runRequest
  dsimp only
  split
  · unfold suspendRequest
    dsimp only
    split <;> rfl
  · split
    · rfl
    · unfold completeRequest
      dsimp only
      split
      · rfl
      · exact congrArg (fun stored => { f.body with stored := stored })
          (sendResponse_requestBody (i := i) (ranGuest i f).ctx.exec.abi)

theorem runRequest_cases : RunCases i f (runRequest i f).2 (runRequest i f).1 := by
  unfold runRequest
  dsimp only
  split
  · rename_i hrun
    unfold suspendRequest
    dsimp only
    split
    · exact .ends _ (ends_http _) rfl Or.inl
    · exact .suspended hrun rfl
  · split
    · exact .ends _ (ends_http _) rfl Or.inl
    · rename_i hok
      have hrun := not_not.mp hok
      unfold completeRequest
      dsimp only
      split
      · rename_i hphase
        refine .declined hrun ?_ rfl
        rcases hphase.1 with h | h
        all_goals
          intro hc
          exact absurd (h.symm.trans hc) nofun
      · refine .ends _ ?_ rfl fun _ => Or.inr hrun
        split
        · exact ends_http _
        · exact sendResponse_ends _

end Guest

end NgxWasm.Request
