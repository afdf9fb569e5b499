import NgxWasm.Abi.Guests
import NgxWasm.Runtime.Completion

/-!
# A run of a guest (`src/ngx_http_wasm_runtime.c`)

`Runtime.run` is what `runtime_run` does with an execution context, and `callImports` what a guest does
to the host. A `Guest` is both: what Wasmtime answers, and the host functions the guest calls, from its
start function and from its export. One that traps in a host function has trapped.

The two sides meet in the answers of Wasmtime: a guest has called its host functions if its future was
polled, and a trap in one of them is the outcome of that poll. `run_called` is about the phases without
the capability to suspend, where a run polls each future once.

* `Guest.run_confined`: a run changes the parts of its phase.
* `Guest.run_called`: a run that returns `NGX_OK` has made all its guest's calls.
* `Sets.called`: what these leave in a register is what was asked for last.
-/

namespace NgxWasm.Abi

open Lib
open NgxWasm.Runtime (Attempt Machine Resume Rests RunInput)

/-- A host function has trapped. -/
def trapped (answers : List Answer) : Bool :=
  answers.any fun a => match a.2 with
    | .trap _ => true
    | .ret _ | .nullRequest => false

/-- A trap in a host function is one of the guest. -/
def trapIf (trapped : Bool) (a : Attempt) : Attempt :=
  if trapped then { a with poll := { a.poll with outcome := some (.trap .other) } } else a

/-- A guest: what Wasmtime does with it, and the host functions it calls. -/
structure Guest where
  input : RunInput
  startCalls : List ImportCall
  exportCalls : List ImportCall

namespace Guest

variable {W : World} (g : Guest) (m : Machine) (h : Host W)

/-- The calls of the start function, which runs as the instance is made. -/
def started : List Answer × Host W :=
  if m.resumeState.any Resume.instanceReady then ([], h) else callImports g.startCalls h

/-- The calls of the export, after these. -/
def called : List Answer × Host W := callImports g.exportCalls (g.started m h).2

/-- All answers of a guest that has come to the end of its export. -/
def answers : List Answer := (g.started m h).1 ++ (g.called m h).1

/-- What the run finds. -/
def env : RunInput := { g.input with
  instantiate := trapIf (trapped (g.started m h).1) g.input.instantiate
  call := trapIf (trapped (g.called m h).1) g.input.call }

/-- `runtime_run`. The guest has called host functions if it was polled. -/
def run : Rc × Machine × Host W :=
  let r := Runtime.run (g.env m h) m
  (r.1, r.2,
    if (Runtime.callFrame (g.env m h) m).isSome then (g.called m h).2
    else if r.2.trace.any fun e => match e with
      | .futureNew _ => true
      | _ => false then (g.started m h).2
    else h)

variable {g m h}

/-- What the calls of a guest keep, a run keeps. -/
theorem run_keeps {P : Host W → Prop} (h0 : P h)
    (hcalls : ∀ (cs : List ImportCall) (h : Host W), P h → P (callImports cs h).2) :
    P (g.run m h).2.2 := by
  have hstarted : P (g.started m h).2 := by
    unfold started
    split
    · exact h0
    · exact hcalls _ _ h0
  unfold run
  dsimp only
  split
  · exact hcalls _ _ hstarted
  · split
    · exact hstarted
    · exact h0

/-- **A run changes the parts of its phase.** -/
theorem run_confined {phase : Runtime.Phase} (hcaps : h.abi.capabilities = phaseCapabilities phase)
    {p : Part} (hp : p ∉ phaseParts phase) : Host.part p (g.run m h).2.2 = Host.part p h := by
  have hfixed : .capabilities ∉ phaseParts phase := by cases phase <;> decide
  refine (run_keeps (P := fun h' => h'.abi.capabilities = phaseCapabilities phase ∧
    Host.part p h' = Host.part p h) ⟨hcaps, rfl⟩ ?_).2
  rintro cs h' ⟨hcaps', hsame⟩
  exact ⟨(callImports_confined cs hcaps' hfixed).trans hcaps',
    (callImports_confined cs hcaps' hp).trans hsame⟩

/-- **A run that is done** has made all calls of its guest. -/
theorem run_called {limit slice : Nat} (hm : Rests limit slice m) (hok : (g.run m h).1 = .ok) :
    (g.run m h).2.2 = (g.called m h).2 := by
  unfold run
  dsimp only
  rw [if_pos (hm.callFrame_of_ok hok)]

/-- The answers lead to the host the guest leaves. -/
theorem answers_run :
    Meets Host.answer (fun h a => a.2 = (a.1.on h).outcome) h (g.answers m h) ∧
      runFrom Host.answer h (g.answers m h) = (g.called m h).2 := by
  have hstarted : Meets Host.answer (fun h a => a.2 = (a.1.on h).outcome) h (g.started m h).1 ∧
      runFrom Host.answer h (g.started m h).1 = (g.started m h).2 := by
    unfold started
    split
    · exact ⟨trivial, rfl⟩
    · exact callImports_run _ _
  obtain ⟨hmeets, hrun⟩ := callImports_run g.exportCalls (g.started m h).2
  unfold answers
  rw [runFrom_append, hstarted.2]
  exact ⟨hstarted.1.append (hstarted.2 ▸ hmeets), hrun⟩

end Guest

/-- **What all calls of a guest leave in a register** is what was asked for last. -/
theorem Sets.called {W : World} {f : HostFn} {p : Part} {value : List Val → p.Of W}
    (hs : Sets f p value) (g : Guest) (m : Machine) (h : Host W) :
    Host.part p (g.called m h).2 =
      ((asked f (g.answers m h)).getLast?.map value).getD (Host.part p h) := by
  obtain ⟨hmeets, hrun⟩ := g.answers_run (m := m) (h := h)
  rw [← hrun, asked, ← List.getLast?_map, List.map_filterMap]
  refine hmeets.last_written fun h a ha => ?_
  obtain ⟨c, outcome⟩ := a
  obtain rfl : outcome = (c.on h).outcome := ha
  exact hs.on c

end NgxWasm.Abi
