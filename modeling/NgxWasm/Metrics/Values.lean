import NgxWasm.Metrics.Reload
import NgxWasm.Shm.Overflow
import Mathlib.Algebra.Order.BigOperators.Group.List

/-!
# The values of the metrics

What a run makes of one metric depends on the calls on its name alone (`runFrom_value`), and so the
two writers that compute can be read off their arithmetic. They do it in `int64_t`, where an overflow
has no meaning in C. As for `shm_incr`, the signed operations are written out once more with their
exact results (`arith`).

A run is any list of calls, on any names and from any worker, on a zone that loads and calls have led
to. The calls that set a gauge are part of it: the value goes on from the last one.

* `toInt_saturatingAdd`, `saturatingAddOps_fits`: the guard of `counter_inc` saturates, and nothing in
  it overflows.
* `counter_sums_saturating`: what a run leaves of a counter is the sum up to `LLONG_MAX`, in whatever
  order the workers come.
* `gauge_exact_iff`: `gauge_add` has no guard. It is exact as long as every sum on the way is a value of
  `int64_t`, which `inRange_of_few_calls` gives for the first 2^32 calls.

The deltas of a counter are not negative, so that a value at the limit stays there: this is why the
saturated sum does not depend on the order. A gauge has no such stop. Past the range of `int64_t` the
model wraps, where C leaves the result open, and `InRange` says that no sum gets there.
-/

namespace NgxWasm.Metrics

open Lib
open Shm (SignedOp SignedType int32Min int32Max int64_bmod)

/-! ## The arithmetic -/

/-- The signed operations of `saturatingAdd`: what is left to `LLONG_MAX`, and the sum. -/
def saturatingAddOps (delta value : Int64) : Int64 × List SignedOp :=
  let room : SignedOp := ⟨.int64, Int64.maxValue.toInt - delta.toInt⟩
  if value.toInt > room.result then (Int64.maxValue, [room])
  else
    let next : SignedOp := ⟨.int64, value.toInt + delta.toInt⟩
    (.ofInt next.result, [room, next])

/-- And of `ngx_http_wasm_metrics_gauge_add`. -/
def gaugeAddOps (delta value : Int64) : Int64 × List SignedOp :=
  let sum : SignedOp := ⟨.int64, value.toInt + delta.toInt⟩
  (.ofInt sum.result, [sum])

theorem gaugeAddOps_fst (delta value : Int64) : (gaugeAddOps delta value).1 = value + delta := by
  show Int64.ofInt ((value.toInt + delta.toInt).bmod (2 ^ 64)) = value + delta
  rw [← Int64.toInt_add, Int64.ofInt_toInt]

/-- The room is what the guard compares with. -/
theorem room_result (delta : Int64) :
    SignedOp.result ⟨.int64, Int64.maxValue.toInt - delta.toInt⟩ = (Int64.maxValue - delta).toInt :=
  (Int64.toInt_sub _ _).symm

theorem saturatingAddOps_fst (delta value : Int64) :
    (saturatingAddOps delta value).1 = saturatingAdd delta value := by
  unfold saturatingAddOps saturatingAdd
  dsimp only
  rw [room_result]
  by_cases hfull : value > Int64.maxValue - delta
  · rw [if_pos hfull, if_pos (Int64.lt_iff_toInt_lt.mp hfull)]
  · rw [if_neg hfull, if_neg fun hlt => hfull (Int64.lt_iff_toInt_lt.mpr hlt)]
    exact gaugeAddOps_fst delta value

theorem toInt_nonneg {delta : Int64} (h : ¬ delta < 0) : 0 ≤ delta.toInt :=
  Int64.le_iff_toInt_le.mp (Int64.not_lt.mp h)

theorem toInt_room {delta : Int64} (h : ¬ delta < 0) :
    (Int64.maxValue - delta).toInt = 2 ^ 63 - 1 - delta.toInt := by
  have hpos := toInt_nonneg h
  have hlt := delta.toInt_lt
  rw [Int64.toInt_sub, Int64.toInt_maxValue]
  exact int64_bmod (by omega) (by omega)

/-- **The guard saturates**, whatever the value is. -/
theorem toInt_saturatingAdd {delta : Int64} (h : ¬ delta < 0) (value : Int64) :
    (saturatingAdd delta value).toInt = min (2 ^ 63 - 1) (value.toInt + delta.toInt) := by
  have hpos := toInt_nonneg h
  have hle := value.le_toInt
  have hroom := toInt_room h
  unfold saturatingAdd
  by_cases hfull : value > Int64.maxValue - delta
  · have hlt := Int64.lt_iff_toInt_lt.mp hfull
    rw [if_pos hfull, Int64.toInt_maxValue]
    omega
  · have hge := Int64.le_iff_toInt_le.mp (Int64.not_lt.mp hfull)
    have hsum : (value + delta).toInt = value.toInt + delta.toInt := by
      rw [Int64.toInt_add]
      exact int64_bmod (by omega) (by omega)
    rw [if_neg hfull]
    omega

/-- And nothing overflows. -/
theorem saturatingAddOps_fits {delta : Int64} (h : ¬ delta < 0) (value : Int64) :
    ∀ o ∈ (saturatingAddOps delta value).2, o.Fits := by
  have hpos := toInt_nonneg h
  have hlt := delta.toInt_lt
  have hle := value.le_toInt
  have hroom : SignedOp.Fits ⟨.int64, Int64.maxValue.toInt - delta.toInt⟩ := by
    rw [Int64.toInt_maxValue]
    exact ⟨by dsimp only; omega, by dsimp only; omega⟩
  unfold saturatingAddOps
  dsimp only
  rw [room_result, toInt_room h]
  intro o ho
  split at ho
  · obtain rfl := List.mem_singleton.mp ho
    exact hroom
  · rename_i hsum
    rcases List.mem_cons.mp ho with rfl | ho
    · exact hroom
    · obtain rfl := List.mem_singleton.mp ho
      exact ⟨by dsimp only; omega, by dsimp only; omega⟩

/-! ## One metric over a run -/

/-- What a call makes of the value of `name`. -/
def valueAfter (name : Bytes) (kind : Kind) (value : Int64) : Op → Int64
  | .counterInc n delta =>
    if n = name ∧ kind = .counter ∧ nameValid n ∧ ¬ delta < 0 then saturatingAdd delta value else value
  | .gaugeSet n x => if n = name ∧ kind = .gauge ∧ nameValid n then x else value
  | .gaugeAdd n delta => if n = name ∧ kind = .gauge ∧ nameValid n then value + delta else value
  | .load _ | .get _ => value

theorem MetricMap.write_apply {m : MetricMap} {name n : Bytes} {kind kind' : Kind} {value : Int64}
    {next : Int64 → Int64} (h : m name = some (kind, value)) :
    (m.write kind' next n).2 name =
      some (kind, if n = name ∧ kind = kind' then next value else value) := by
  unfold write
  by_cases hn : n = name
  · subst hn
    rw [h]
    dsimp only
    by_cases hk : kind = kind'
    · rw [if_neg (not_not.mpr hk), if_pos ⟨rfl, hk⟩]
      exact Function.update_self ..
    · rw [if_pos hk, if_neg fun hc => hk hc.2]
      exact h
  · rw [if_neg fun hc => hn hc.1]
    split
    · exact h
    · split
      · exact h
      · exact (Function.update_of_ne (Ne.symm hn) ..).trans h

theorem MetricMap.declareAll_some {m : MetricMap} {name : Bytes} {kv : Kind × Int64}
    (h : m name = some kv) (defs : List MetricDef) : m.declareAll defs name = some kv := by
  rw [declareAll_apply, h]
  rfl

/-- A writer that checks its arguments first. -/
theorem MetricMap.checked_apply {m : MetricMap} {name n : Bytes} {kind kind' : Kind} {value : Int64}
    {next : Int64 → Int64} (refused : Bool) (h : m name = some (kind, value)) :
    (if refused then (wasmError, m) else m.write kind' next n).2 name =
      some (kind, if n = name ∧ kind = kind' ∧ refused = false then next value else value) := by
  cases refused with
  | true =>
    rw [if_pos rfl, if_neg fun hc => Bool.noConfusion hc.2.2]
    exact h
  | false =>
    rw [if_neg Bool.false_ne_true, write_apply h]
    simp only [and_true]

/-- **One call**, seen from one name. -/
theorem Next.value {m m' : MetricMap} {o : Op × Reply} (h : Next m o m') {name : Bytes} {kind : Kind}
    {value : Int64} (hm : m name = some (kind, value)) :
    m' name = some (kind, valueAfter name kind value o.1) := by
  obtain ⟨op, reply⟩ := o
  cases op with
  | load defs =>
    rcases h with ⟨-, rfl, -⟩ | ⟨-, done, d, rest, -, rfl⟩
    · exact MetricMap.declareAll_some hm defs
    · exact MetricMap.declareAll_some hm done
  | counterInc n delta =>
    obtain ⟨-, rfl⟩ := h
    refine (MetricMap.checked_apply _ hm).trans ?_
    simp [valueAfter]
  | gaugeSet n x =>
    obtain ⟨-, rfl⟩ := h
    refine (MetricMap.checked_apply _ hm).trans ?_
    simp [valueAfter]
  | gaugeAdd n delta =>
    obtain ⟨-, rfl⟩ := h
    refine (MetricMap.checked_apply _ hm).trans ?_
    simp [valueAfter]
  | get n =>
    obtain ⟨rfl, -⟩ := h
    exact hm

section Runs

variable {S : SlabPool} {rb : Rbtree} {crc32 : Bytes → UInt32} {z : Zone S} {name : Bytes} {kind : Kind}
  {value : Int64}

theorem opStep_value (h : Inv crc32 z) (hm : z.map crc32 name = some (kind, value)) (op : Op) :
    (opStep rb crc32 z op).map crc32 name = some (kind, valueAfter name kind value op) := by
  have hstep : Inv crc32 (opStep rb crc32 z op) ∧ Next _ (op, (exec rb crc32 op z).1) _ :=
    exec_next h op
  exact hstep.2.value hm

/-- **A whole run**, seen from one name. -/
theorem runFrom_value (h : Inv crc32 z) (hm : z.map crc32 name = some (kind, value)) (ops : List Op) :
    (runFrom (opStep rb crc32) z ops).map crc32 name =
      some (kind, runFrom (valueAfter name kind) value ops) := by
  induction ops generalizing z value with
  | nil => exact hm
  | cons op ops ih => exact ih (exec_next h op).1 (opStep_value h hm op)

end Runs

/-! ## What the calls compute on the way -/

section Arith

variable {S : SlabPool} (crc32 : Bytes → UInt32)

/-- The operations of a writer, `ops` of the value it finds. -/
def updateOps (kind : Kind) (ops : Int64 → List SignedOp) (name : Bytes) (z : Zone S) : List SignedOp :=
  match lookup name (crc32 name) z with
  | none => []
  | some a => if (z.mem a).kind ≠ kind then [] else ops (z.mem a).value

/-- The signed operations of a call. -/
def arith (op : Op) (z : Zone S) : List SignedOp :=
  match op with
  | .counterInc name delta =>
    if !nameValid name || decide (delta < 0) then []
    else updateOps crc32 .counter (fun value => (saturatingAddOps delta value).2) name z
  | .gaugeAdd name delta =>
    if !nameValid name then []
    else updateOps crc32 .gauge (fun value => (gaugeAddOps delta value).2) name z
  | .load _ | .gaugeSet _ _ | .get _ => []

variable {crc32} {z : Zone S}

theorem mem_updateOps {kind : Kind} {ops : Int64 → List SignedOp} {name : Bytes} {o : SignedOp} :
    o ∈ updateOps crc32 kind ops name z ↔
      ∃ value, z.map crc32 name = some (kind, value) ∧ o ∈ ops value := by
  unfold updateOps Zone.map
  cases lookup name (crc32 name) z with
  | none => simp
  | some a =>
    by_cases hk : (z.mem a).kind = kind
    · simp [hk]
    · simp [hk]

/-- **The counters' arithmetic never overflows**, in any zone. -/
theorem counterInc_fits (name : Bytes) (delta : Int64) :
    ∀ o ∈ arith crc32 (.counterInc name delta) z, o.Fits := by
  intro o ho
  unfold arith at ho
  by_cases hd : delta < 0
  · simp [hd] at ho
  · dsimp only at ho
    split at ho
    · exact absurd ho List.not_mem_nil
    · obtain ⟨value, -, hmem⟩ := mem_updateOps.mp ho
      exact saturatingAddOps_fits hd value o hmem

end Arith

/-! ## Counters -/

section Counter

variable {S : SlabPool} (rb : Rbtree) (crc32 : Bytes → UInt32) (name : Bytes)

/-- The delta of a call that succeeds on the counter. -/
def earned (z : Zone S) : Op → Int
  | .counterInc n delta =>
    if n = name ∧ (counterInc crc32 n delta z).1 = wasmOk then delta.toInt else 0
  | .load _ | .gaugeSet _ _ | .gaugeAdd _ _ | .get _ => 0

/-- The delta of a call on a name and a number that `counter_inc` takes. -/
def gain : Op → Int
  | .counterInc n delta => if n = name ∧ nameValid n ∧ ¬ delta < 0 then delta.toInt else 0
  | .load _ | .gaugeSet _ _ | .gaugeAdd _ _ | .get _ => 0

variable {rb crc32 name} {z : Zone S} {value : Int64}

/-- With the counter declared, these are the same. -/
theorem earned_eq_gain (h : Inv crc32 z) (hm : z.map crc32 name = some (.counter, value)) (op : Op) :
    earned crc32 name z op = gain name op := by
  cases op with
  | counterInc n delta =>
    by_cases hn : n = name
    · subst hn
      have hkind : (z.map crc32).kind n = some .counter := by rw [MetricMap.kind, hm]; rfl
      have hrc : (counterInc crc32 n delta z).1 = if _ then wasmOk else wasmError :=
        (guestOp_run h (.counterInc n delta)).2.2
      simp only [GuestOp.needs, GuestOp.deltaValid, hkind] at hrc
      simp only [earned, gain, hrc, true_and]
      by_cases hv : nameValid n = true <;> by_cases hd : delta < 0 <;>
        simp [hv, hd, wasmError_ne_wasmOk]
    · simp only [earned, gain, hn, false_and, if_false]
  | load | gaugeSet | gaugeAdd | get => rfl

theorem shows_earned (h : Inv crc32 z) (hm : z.map crc32 name = some (.counter, value))
    (calls : List Op) :
    shows (opStep rb crc32) (earned crc32 name) z calls = calls.map (gain name) := by
  induction calls generalizing z value with
  | nil => rfl
  | cons op calls ih =>
    rw [shows, List.map_cons, earned_eq_gain h hm op]
    exact congrArg _ (ih (exec_next h op).1 (opStep_value h hm op))

theorem gain_nonneg (op : Op) : 0 ≤ gain name op := by
  cases op with
  | counterInc n delta =>
    unfold gain
    dsimp only
    split
    · rename_i hn
      exact toInt_nonneg hn.2.2
    · exact le_refl 0
  | load | gaugeSet | gaugeAdd | get => exact le_refl 0

theorem sum_gain_nonneg (calls : List Op) : 0 ≤ (calls.map (gain name)).sum := by
  refine List.sum_nonneg fun g hg => ?_
  obtain ⟨op, -, rfl⟩ := List.mem_map.mp hg
  exact gain_nonneg op

/-- One call adds its gain, up to the limit. -/
theorem toInt_valueAfter (op : Op) : (valueAfter name .counter value op).toInt =
    min (2 ^ 63 - 1) (value.toInt + gain name op) := by
  have hlt := value.toInt_lt
  cases op with
  | counterInc n delta =>
    unfold valueAfter gain
    dsimp only
    by_cases hn : n = name ∧ nameValid n = true ∧ ¬ delta < 0
    · rw [if_pos hn, if_pos ⟨hn.1, rfl, hn.2⟩]
      exact toInt_saturatingAdd hn.2.2 value
    · rw [if_neg hn, if_neg fun hc => hn ⟨hc.1, hc.2.2⟩]
      omega
  | gaugeSet n x =>
    unfold valueAfter gain
    dsimp only
    rw [if_neg fun hc => Kind.noConfusion hc.2.1]
    omega
  | gaugeAdd n delta =>
    unfold valueAfter gain
    dsimp only
    rw [if_neg fun hc => Kind.noConfusion hc.2.1]
    omega
  | load | get =>
    unfold valueAfter gain
    dsimp only
    omega

/-- A run adds the gains of its calls, up to the limit: no delta is negative, so what has reached the
limit stays there. -/
theorem toInt_run_valueAfter (calls : List Op) :
    (runFrom (valueAfter name .counter) value calls).toInt =
      min (2 ^ 63 - 1) (value.toInt + (calls.map (gain name)).sum) := by
  induction calls generalizing value with
  | nil =>
    have hlt := value.toInt_lt
    show value.toInt = min _ (value.toInt + 0)
    omega
  | cons op calls ih =>
    have hrest : 0 ≤ (calls.map (gain name)).sum := sum_gain_nonneg calls
    have hrun : runFrom (valueAfter name .counter) value (op :: calls) =
        runFrom (valueAfter name .counter) (valueAfter name .counter value op) calls := rfl
    rw [hrun, ih, toInt_valueAfter, List.map_cons, List.sum_cons]
    omega

end Counter

/-- **A counter is the sum of its increments**, up to `LLONG_MAX`: from any zone that a run reaches, over
any further calls of any workers. So it never decreases, the calls may come in any order, and in none of
them does signed arithmetic overflow. -/
theorem counter_sums_saturating (S : SlabPool) (rb : Rbtree) (crc32 : Bytes → UInt32)
    (mem : Addr → MetricNode) (pool : S.State) (name : Bytes) (value : Int64) (before calls : List Op)
    (h : (runFrom (opStep rb crc32) (emptyZone mem pool) before).map crc32 name =
      some (.counter, value)) :
    let z := runFrom (opStep rb crc32) (emptyZone mem pool : Zone S) before
    ∃ value', (runFrom (opStep rb crc32) z calls).map crc32 name = some (.counter, value') ∧
      value'.toInt = min (2 ^ 63 - 1)
        (value.toInt + (shows (opStep rb crc32) (earned crc32 name) z calls).sum) ∧
      value ≤ value' ∧
      (∀ calls', calls'.Perm calls →
        (runFrom (opStep rb crc32) z calls').map crc32 name = some (.counter, value')) ∧
      ∀ done n delta rest, calls = done ++ .counterInc n delta :: rest →
        ∀ o ∈ arith crc32 (.counterInc n delta) (runFrom (opStep rb crc32) z done), o.Fits := by
  intro z
  have hinv : Inv crc32 z := runFrom_inv (.emptyZone mem pool) before
  have hlt := value.toInt_lt
  have hrun : ∀ calls, (runFrom (valueAfter name .counter) value calls).toInt = _ :=
    toInt_run_valueAfter
  have hnonneg : 0 ≤ (calls.map (gain name)).sum := sum_gain_nonneg calls
  refine ⟨_, runFrom_value hinv h calls, ?_, ?_, ?_, ?_⟩
  · rw [shows_earned hinv h calls]
    exact hrun calls
  · rw [Int64.le_iff_toInt_le, hrun calls]
    omega
  · intro calls' hperm
    rw [runFrom_value hinv h calls']
    have hsame := hrun calls'
    rw [(hperm.map (gain name)).sum_eq, ← hrun calls] at hsame
    rw [Int64.toInt_inj.mp hsame]
  · intro done n delta rest _
    exact counterInc_fits n delta

/-- From 5, two workers add 3 and 4. -/
theorem counter_sums_saturating_two :
    let z : Zone (.ofCapacity 2) := runFrom (opStep .unbalanced crc32Short)
      (emptyZone (fun _ => ⟨0, [], .counter, 0⟩) []) [.load [⟨[99], .counter⟩], .counterInc [99] 5]
    ∃ value', value'.toInt = 12 ∧
      (runFrom (opStep .unbalanced crc32Short) z
        [.counterInc [99] 4, .counterInc [99] 3]).map crc32Short [99] = some (.counter, value') := by
  have h := counter_sums_saturating (.ofCapacity 2) .unbalanced crc32Short
    (fun _ => ⟨0, [], .counter, 0⟩) [] [99] 5 [.load [⟨[99], .counter⟩], .counterInc [99] 5]
    [.counterInc [99] 3, .counterInc [99] 4] (by decide +kernel)
  obtain ⟨value', -, hsum, -, hperm, -⟩ := h
  exact ⟨value', hsum.trans (by decide +kernel), hperm _ (.swap ..)⟩

/-! ## Gauges -/

/-- The integer that a call makes of a gauge. -/
def exactStep (name : Bytes) (x : Int) : Op → Int
  | .gaugeSet n value => if n = name ∧ nameValid n then value.toInt else x
  | .gaugeAdd n delta => if n = name ∧ nameValid n then x + delta.toInt else x
  | .load _ | .counterInc _ _ | .get _ => x

/-- Over the calls, every integer on the way is a value of `int64_t`. -/
def InRange (name : Bytes) (x : Int) (calls : List Op) : Prop :=
  ∀ done rest, calls = done ++ rest → SignedType.int64.Holds (runFrom (exactStep name) x done)

section Gauge

variable {S : SlabPool} {rb : Rbtree} {crc32 : Bytes → UInt32} {name : Bytes} {z : Zone S}

/-- The zone has the integer `x` in the gauge, and keeps up with it over the calls; no addition to the
gauge overflows. -/
structure GaugeExact (rb : Rbtree) (crc32 : Bytes → UInt32) (name : Bytes) (x : Int) (z : Zone S)
    (calls : List Op) : Prop where
  stored : ∀ done rest, calls = done ++ rest → ∃ value : Int64,
    (runFrom (opStep rb crc32) z done).map crc32 name = some (.gauge, value) ∧
      value.toInt = runFrom (exactStep name) x done
  fits : ∀ done delta rest, calls = done ++ .gaugeAdd name delta :: rest →
    ∀ o ∈ arith crc32 (.gaugeAdd name delta) (runFrom (opStep rb crc32) z done), o.Fits

theorem InRange.append_left {x : Int} {done rest : List Op} (h : InRange name x (done ++ rest)) :
    InRange name x done := by
  intro done' rest' he
  refine h done' (rest' ++ rest) ?_
  rw [he, List.append_assoc]

/-- One call in the range is exact. -/
theorem toInt_valueAfter_gauge {value : Int64} {op : Op}
    (h : SignedType.int64.Holds (exactStep name value.toInt op)) :
    (valueAfter name .gauge value op).toInt = exactStep name value.toInt op := by
  cases op with
  | gaugeAdd n delta =>
    unfold valueAfter exactStep at *
    dsimp only at *
    by_cases hn : n = name ∧ nameValid n = true
    · rw [if_pos hn] at h
      rw [if_pos hn, if_pos ⟨hn.1, rfl, hn.2⟩, Int64.toInt_add]
      exact int64_bmod h.1 h.2
    · rw [if_neg hn, if_neg fun hc => hn ⟨hc.1, hc.2.2⟩]
  | gaugeSet n x =>
    unfold valueAfter exactStep
    dsimp only
    by_cases hn : n = name ∧ nameValid n = true
    · rw [if_pos hn, if_pos ⟨hn.1, rfl, hn.2⟩]
    · rw [if_neg hn, if_neg fun hc => hn ⟨hc.1, hc.2.2⟩]
  | counterInc n delta =>
    unfold valueAfter exactStep
    dsimp only
    rw [if_neg fun hc => Kind.noConfusion hc.2.1]
  | load | get => rfl

/-- And so is a run. -/
theorem toInt_run_gauge {value : Int64} {calls : List Op} (h : InRange name value.toInt calls) :
    (runFrom (valueAfter name .gauge) value calls).toInt =
      runFrom (exactStep name) value.toInt calls := by
  induction calls generalizing value with
  | nil => rfl
  | cons op calls ih =>
    have hop : (valueAfter name .gauge value op).toInt = exactStep name value.toInt op :=
      toInt_valueAfter_gauge (h [op] calls rfl)
    have hrest : InRange name (valueAfter name .gauge value op).toInt calls := by
      intro done rest he
      rw [hop]
      exact h (op :: done) rest (congrArg _ he)
    have hrun : runFrom (exactStep name) value.toInt (op :: calls) =
        runFrom (exactStep name) (exactStep name value.toInt op) calls := rfl
    rw [hrun, ← hop]
    exact ih hrest

/-- The sum that `gauge_add` computes is the integer after the call. -/
theorem gaugeAdd_fits {value : Int64} {x : Int} {delta : Int64}
    (hm : z.map crc32 name = some (.gauge, value)) (hx : value.toInt = x)
    (h : SignedType.int64.Holds (exactStep name x (.gaugeAdd name delta))) :
    ∀ o ∈ arith crc32 (.gaugeAdd name delta) z, o.Fits := by
  intro o ho
  unfold arith at ho
  dsimp only at ho
  by_cases hv : nameValid name = true
  · rw [if_neg (by simp [hv])] at ho
    obtain ⟨value', hm', hmem⟩ := mem_updateOps.mp ho
    obtain rfl : value = value' := (Prod.mk.inj (Option.some.inj (hm.symm.trans hm'))).2
    obtain rfl := List.mem_singleton.mp hmem
    have hexact : exactStep name x (.gaugeAdd name delta) = value.toInt + delta.toInt := by
      rw [exactStep, if_pos ⟨rfl, hv⟩, hx]
    rw [hexact] at h
    exact h
  · rw [if_pos (by simp [hv])] at ho
    exact absurd ho List.not_mem_nil

end Gauge

/-- **When a gauge is exact**: from any zone that a run reaches, over any further calls of any workers,
it stores the exact result of the calls in their order, with no overflow, as long as that result is a
value of `int64_t` all the way. There is no guard as the counters have. -/
theorem gauge_exact_iff (S : SlabPool) (rb : Rbtree) (crc32 : Bytes → UInt32)
    (mem : Addr → MetricNode) (pool : S.State) (name : Bytes) (value : Int64) (before calls : List Op)
    (h : (runFrom (opStep rb crc32) (emptyZone mem pool) before).map crc32 name =
      some (.gauge, value)) :
    GaugeExact rb crc32 name value.toInt
        (runFrom (opStep rb crc32) (emptyZone mem pool : Zone S) before) calls ↔
      InRange name value.toInt calls := by
  have hinv : Inv crc32 (runFrom (opStep rb crc32) (emptyZone mem pool : Zone S) before) :=
    runFrom_inv (.emptyZone mem pool) before
  constructor
  · intro hexact done rest he
    obtain ⟨value', -, hvalue⟩ := hexact.stored done rest he
    rw [← hvalue]
    exact ⟨value'.le_toInt, value'.toInt_lt⟩
  · intro hrange
    have hstored : ∀ done rest, calls = done ++ rest →
        (runFrom (valueAfter name .gauge) value done).toInt =
          runFrom (exactStep name) value.toInt done := by
      intro done rest he
      rw [he] at hrange
      exact toInt_run_gauge hrange.append_left
    refine ⟨?_, ?_⟩
    · intro done rest he
      exact ⟨_, runFrom_value hinv h done, hstored done rest he⟩
    · intro done delta rest he
      refine gaugeAdd_fits (runFrom_value hinv h done) (hstored done _ he) ?_
      have hnext := hrange (done ++ [.gaugeAdd name delta]) rest (by rw [he, List.append_assoc]; rfl)
      rw [runFrom_append] at hnext
      exact hnext

/-- A gauge that is set, and drops. -/
theorem gauge_exact_iff_set :
    let z : Zone (.ofCapacity 2) := runFrom (opStep .unbalanced crc32Short)
      (emptyZone (fun _ => ⟨0, [], .counter, 0⟩) []) [.load [⟨[103], .gauge⟩]]
    let calls : List Op := [.gaugeSet [103] 10, .gaugeAdd [103] (-14)]
    GaugeExact .unbalanced crc32Short [103] 0 z calls ↔ InRange [103] 0 calls :=
  gauge_exact_iff (.ofCapacity 2) .unbalanced crc32Short (fun _ => ⟨0, [], .counter, 0⟩) [] [103] 0
    [.load [⟨[103], .gauge⟩]] [.gaugeSet [103] 10, .gaugeAdd [103] (-14)] (by decide +kernel)

/-! ## How many calls it takes -/

/-- What the host functions pass on: the guest's arguments are of 32 bits. -/
def FromGuest : Op → Prop
  | .gaugeSet _ x | .gaugeAdd _ x => int32Min ≤ x.toInt ∧ x.toInt ≤ int32Max
  | .load _ | .counterInc _ _ | .get _ => True

/-- Each call moves the gauge by at most 2^31. -/
theorem exactStep_bounds {name : Bytes} {x : Int} {op : Op} {n : Nat} (hop : FromGuest op)
    (hlo : int32Min * n ≤ x) (hhi : x ≤ int32Max * n) :
    int32Min * (n + 1 : Nat) ≤ exactStep name x op ∧
      exactStep name x op ≤ int32Max * (n + 1 : Nat) := by
  unfold int32Min int32Max at *
  cases op with
  | gaugeSet m value =>
    obtain ⟨hlo', hhi'⟩ : -2147483648 ≤ value.toInt ∧ value.toInt ≤ 2147483647 := hop
    unfold exactStep
    dsimp only
    split <;> constructor <;> omega
  | gaugeAdd m delta =>
    obtain ⟨hlo', hhi'⟩ : -2147483648 ≤ delta.toInt ∧ delta.toInt ≤ 2147483647 := hop
    unfold exactStep
    dsimp only
    split <;> constructor <;> omega
  | load | counterInc | get =>
    unfold exactStep
    dsimp only
    constructor <;> omega

theorem runFrom_exactStep_bounds {name : Bytes} {calls : List Op} {x : Int} {n : Nat}
    (hcalls : ∀ op ∈ calls, FromGuest op) (hlo : int32Min * n ≤ x) (hhi : x ≤ int32Max * n) :
    int32Min * (n + calls.length : Nat) ≤ runFrom (exactStep name) x calls ∧
      runFrom (exactStep name) x calls ≤ int32Max * (n + calls.length : Nat) := by
  induction calls generalizing x n with
  | nil => exact ⟨hlo, hhi⟩
  | cons op calls ih =>
    obtain ⟨hlo', hhi'⟩ := exactStep_bounds (hcalls op List.mem_cons_self) hlo hhi
    have hrest := ih (fun op' hop' => hcalls op' (List.mem_cons_of_mem _ hop')) hlo' hhi'
    have hlen : n + 1 + calls.length = n + (op :: calls).length := by
      rw [List.length_cons]
      omega
    rw [hlen] at hrest
    exact hrest

/-- **2^32 calls of guests are exact**, from a gauge that stands at 0. -/
theorem inRange_of_few_calls {name : Bytes} {calls : List Op} (hcalls : ∀ op ∈ calls, FromGuest op)
    (hlen : calls.length ≤ 2 ^ 32) : InRange name 0 calls := by
  rintro done rest rfl
  have hdone : ∀ op ∈ done, FromGuest op := fun op hop => hcalls op (List.mem_append_left _ hop)
  rw [List.length_append] at hlen
  have hbounds : int32Min * (0 + done.length : Nat) ≤ runFrom (exactStep name) 0 done ∧
      runFrom (exactStep name) 0 done ≤ int32Max * (0 + done.length : Nat) :=
    runFrom_exactStep_bounds hdone (by simp) (by simp)
  unfold int32Min int32Max at hbounds
  exact ⟨by omega, by omega⟩

theorem runFrom_replicate_gaugeAdd {name : Bytes} (hv : nameValid name = true) (delta : Int64)
    (n : Nat) (x : Int) :
    runFrom (exactStep name) x (List.replicate n (.gaugeAdd name delta)) = x + n * delta.toInt := by
  induction n generalizing x with
  | zero =>
    show x = x + (0 : Nat) * delta.toInt
    omega
  | succ n ih =>
    have hrun : runFrom (exactStep name) x (List.replicate (n + 1) (.gaugeAdd name delta)) =
        runFrom (exactStep name) (exactStep name x (.gaugeAdd name delta))
          (List.replicate n (.gaugeAdd name delta)) := rfl
    have hstep : exactStep name x (.gaugeAdd name delta) = x + delta.toInt := if_pos ⟨rfl, hv⟩
    rw [hrun, hstep, ih]
    push_cast
    ring

/-- One more call, with each of them taking off 2^31: the gauge would stand below the least value that it
can store. -/
theorem gauge_add_overflows :
    let z : Zone (.ofCapacity 2) := runFrom (opStep .unbalanced crc32Short)
      (emptyZone (fun _ => ⟨0, [], .counter, 0⟩) []) [.load [⟨[103], .gauge⟩]]
    z.map crc32Short [103] = some (.gauge, 0) ∧
      ¬ GaugeExact .unbalanced crc32Short [103] 0 z
        (List.replicate (2 ^ 32 + 1) (.gaugeAdd [103] (-2147483648))) := by
  intro z
  refine ⟨by decide +kernel, ?_⟩
  intro h
  obtain ⟨value, -, hvalue⟩ := h.stored _ [] (List.append_nil _).symm
  have hdelta : Int64.toInt (-2147483648) = -2147483648 := by decide
  have hle := value.le_toInt
  rw [hvalue, runFrom_replicate_gaugeAdd (by decide), hdelta] at hle
  omega

end NgxWasm.Metrics
