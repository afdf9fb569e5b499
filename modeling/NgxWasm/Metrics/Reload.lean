import NgxWasm.Metrics.Map

/-!
# Metrics across reloads

A new configuration whose metrics zone has the name and size of the running one is loaded onto the
memory the workers are using. `ensureDefinitions` adds to that memory and never takes back, so it
holds more than the running configuration says:

* what a rejected configuration declared before the definition it was rejected for
  (`failed_load_unchanged_iff`);
* what earlier configurations declared (`guest_op_declared_iff`).

`Definitions` are the metrics of one configuration, as `wasm_counter` and `wasm_gauge` collect them;
`metrics_declare` refuses a name it has seen, and compares names up to the first zero byte. A `Cycle`
is a server with its running configuration and its zone, over any history of configurations that use
the memory or not, and of calls. That a load is rejected for its metrics is read off the zone before it
(`firstMissing`, `StopsAtOnce`). The texts of configuration errors are left out.
-/

namespace NgxWasm.Metrics

open Lib

variable {S : SlabPool} {rb : Rbtree} {crc32 : Bytes → UInt32} {z : Zone S}

/-! ## Rejected configurations -/

/-- The first definition that the zone does not hold with its kind. -/
def firstMissing (m : MetricMap) (defs : List MetricDef) : Option MetricDef :=
  defs.find? fun d => m.kind d.name ≠ some d.kind

/-- The load ends at the first definition that is not there already: its name is taken by a metric of
the other kind, or there is no memory for it. -/
def StopsAtOnce (crc32 : Bytes → UInt32) (z : Zone S) (defs : List MetricDef) : Prop :=
  ∃ d, firstMissing (z.map crc32) defs = some d ∧
    (z.map crc32 d.name ≠ none ∨ (S.alloc z.pool (nodeDataOffset + d.name.length)).1 = none)

/-- A definition that is there already is passed over. -/
theorem ensureDefinitions_cons_found {d : MetricDef} {defs : List MetricDef}
    (hd : (z.map crc32).kind d.name = some d.kind) :
    ensureDefinitions rb crc32 (d :: defs) z = ensureDefinitions rb crc32 defs z := by
  obtain ⟨kv, hkv, hk⟩ := Option.map_eq_some_iff.mp hd
  obtain ⟨a, hl, rfl⟩ := Option.map_eq_some_iff.mp hkv
  have hkind : (z.mem a).kind = d.kind := hk
  rw [ensureDefinitions, hl]
  simp only [hkind, ne_eq, not_true_eq_false, if_false]

theorem allocNode_fst {name : Bytes} {kind : Kind} {hash : UInt32} :
    (allocNode name kind hash z).1 = (S.alloc z.pool (nodeDataOffset + name.length)).1 := by
  unfold allocNode
  split <;> rename_i halloc <;> rw [halloc]

/-- One that is there with the other kind ends the load. -/
theorem ensureDefinitions_cons_clash {d : MetricDef} {defs : List MetricDef} {a : Addr}
    (hl : lookup d.name (crc32 d.name) z = some a) (hk : (z.mem a).kind ≠ d.kind) :
    ensureDefinitions rb crc32 (d :: defs) z = (.error, z) := by
  rw [ensureDefinitions, hl]
  simp only [hk, ne_eq, not_false_eq_true, if_true]

theorem stopsAtOnce_cons_found {d : MetricDef} {defs : List MetricDef}
    (hd : (z.map crc32).kind d.name = some d.kind) :
    StopsAtOnce crc32 z (d :: defs) ↔ StopsAtOnce crc32 z defs := by
  have hfirst : firstMissing (z.map crc32) (d :: defs) = firstMissing (z.map crc32) defs := by
    simp [firstMissing, hd]
  unfold StopsAtOnce
  rw [hfirst]

theorem stopsAtOnce_cons_missing {d : MetricDef} {defs : List MetricDef}
    (hd : (z.map crc32).kind d.name ≠ some d.kind) :
    StopsAtOnce crc32 z (d :: defs) ↔ z.map crc32 d.name ≠ none ∨
      (S.alloc z.pool (nodeDataOffset + d.name.length)).1 = none := by
  have hfirst : firstMissing (z.map crc32) (d :: defs) = some d := by
    simp [firstMissing, hd]
  unfold StopsAtOnce
  rw [hfirst]
  constructor
  · rintro ⟨x, hx, hs⟩
    exact Option.some.inj hx ▸ hs
  · intro hs
    exact ⟨d, rfl, hs⟩

/-- A definition that gets a node is there at the end of the load, however that ends. -/
theorem Inv.ensureDefinitions_adds (h : Inv crc32 z) {d : MetricDef} {defs : List MetricDef}
    (hl : lookup d.name (crc32 d.name) z = none) {a : Addr} {z₁ : Zone S}
    (ha : allocNode d.name d.kind (crc32 d.name) z = (some a, z₁)) :
    ((ensureDefinitions rb crc32 (d :: defs) z).2.map crc32).kind d.name = some d.kind := by
  have hres : ensureDefinitions rb crc32 (d :: defs) z =
      ensureDefinitions rb crc32 defs (Metrics.link rb a z₁) := by
    rw [ensureDefinitions, hl]
    simp only [ha]
  obtain ⟨h₁, hmap⟩ : Inv crc32 (Metrics.link rb a z₁) ∧ _ := h.define hl ha
  have hkind : ((Metrics.link rb a z₁).map crc32).kind d.name = some d.kind := by
    rw [hmap, MetricMap.kind, Function.update_self]
    rfl
  have hnext : Inv crc32 (ensureDefinitions rb crc32 defs _).2 ∧ _ := ensureDefinitions_map defs h₁
  rw [hres]
  exact hnext.2.kind hkind

/-- **When a rejected load leaves no trace.** -/
theorem Inv.ensureDefinitions_error (h : Inv crc32 z) {defs : List MetricDef}
    (hfail : (ensureDefinitions rb crc32 defs z).1 = .error) :
    (ensureDefinitions rb crc32 defs z).2.map crc32 = z.map crc32 ↔ StopsAtOnce crc32 z defs := by
  induction defs with
  | nil =>
    rw [ensureDefinitions] at hfail
    cases hfail
  | cons d defs ih =>
    by_cases hd : (z.map crc32).kind d.name = some d.kind
    · rw [stopsAtOnce_cons_found hd]
      rw [ensureDefinitions_cons_found hd] at hfail ⊢
      exact ih hfail
    · rw [stopsAtOnce_cons_missing hd]
      cases hl : lookup d.name (crc32 d.name) z with
      | some a =>
        have hm : z.map crc32 d.name = some ((z.mem a).kind, (z.mem a).value) := by
          rw [Zone.map, hl]
          rfl
        have hk : (z.mem a).kind ≠ d.kind := by
          rintro hk
          exact hd (by rw [MetricMap.kind, hm, ← hk]; rfl)
        rw [ensureDefinitions_cons_clash hl hk, hm]
        constructor
        · intro _
          exact .inl (Option.some_ne_none _)
        · intro _
          exact rfl
      | none =>
        have hm : z.map crc32 d.name = none := map_eq_none.mpr hl
        cases ha : allocNode d.name d.kind (crc32 d.name) z with
        | mk r z₁ =>
          have halloc : (S.alloc z.pool (nodeDataOffset + d.name.length)).1 = r :=
            allocNode_fst.symm.trans (congrArg Prod.fst ha)
          rw [halloc]
          cases r with
          | none =>
            have hres : ensureDefinitions rb crc32 (d :: defs) z = (.error, z₁) := by
              rw [ensureDefinitions, hl]
              simp only [ha]
            rw [hres]
            constructor
            · intro _
              exact .inr rfl
            · intro _
              exact (h.allocNode_none ha).2
          | some a =>
            constructor
            · intro heq
              have hkept : ((ensureDefinitions rb crc32 (d :: defs) z).2.map crc32).kind d.name =
                some d.kind := h.ensureDefinitions_adds hl ha
              rw [heq, MetricMap.kind, hm] at hkept
              cases hkept
            · rintro (hx | hx)
              · exact absurd hm hx
              · cases hx

/-- **A rejected load keeps the metrics** of a zone, in any state that loads and operations lead to,
exactly when it stops at the first definition that is not there already. -/
theorem failed_load_unchanged_iff (S : SlabPool) (rb : Rbtree) (crc32 : Bytes → UInt32)
    (mem : Addr → MetricNode) (pool : S.State) (ops : List Op) (defs : List MetricDef)
    (hfail : (ensureDefinitions rb crc32 defs
      (runFrom (opStep rb crc32) (emptyZone mem pool : Zone S) ops)).1 = .error) :
    let z := runFrom (opStep rb crc32) (emptyZone mem pool : Zone S) ops
    (ensureDefinitions rb crc32 defs z).2.map crc32 = z.map crc32 ↔ StopsAtOnce crc32 z defs :=
  (runFrom_inv (.emptyZone mem pool) ops).ensureDefinitions_error hfail

/-- The definition that clashes comes first. -/
theorem failed_load_unchanged_iff_first :
    let z : Zone (.ofCapacity 2) := runFrom (opStep .unbalanced crc32Short)
      (emptyZone (fun _ => ⟨0, [], .counter, 0⟩) []) [.load [⟨[98], .counter⟩]]
    let defs := [⟨[98], .gauge⟩, ⟨[97], .counter⟩]
    (ensureDefinitions .unbalanced crc32Short defs z).1 = .error ∧
      ((ensureDefinitions .unbalanced crc32Short defs z).2.map crc32Short = z.map crc32Short ↔
        StopsAtOnce crc32Short z defs) :=
  ⟨by decide, failed_load_unchanged_iff (.ofCapacity 2) .unbalanced crc32Short
    (fun _ => ⟨0, [], .counter, 0⟩) [] [.load [⟨[98], .counter⟩]]
    [⟨[98], .gauge⟩, ⟨[97], .counter⟩] (by decide)⟩

/-- The definition that clashes comes second: the first one stays behind, and a configuration that
declares its name with the other kind, good before, is rejected from now on. -/
theorem failed_load_leaves_definition :
    let z : Zone (.ofCapacity 2) := runFrom (opStep .unbalanced crc32Short)
      (emptyZone (fun _ => ⟨0, [], .counter, 0⟩) []) [.load [⟨[98], .counter⟩]]
    let rejected := ensureDefinitions .unbalanced crc32Short
      [⟨[97], .counter⟩, ⟨[98], .gauge⟩] z
    let valid : List MetricDef := [⟨[97], .gauge⟩, ⟨[98], .counter⟩]
    rejected.1 = .error ∧
      rejected.2.map crc32Short [97] = some (.counter, 0) ∧ z.map crc32Short [97] = none ∧
      (ensureDefinitions .unbalanced crc32Short valid z).1 = .ok ∧
      (ensureDefinitions .unbalanced crc32Short valid rejected.2).1 = .error := by
  decide

/-! ## Declared metrics -/

/-- `ngx_http_wasm_metrics_declare`: two names of one length are compared by `ngx_strncmp`, which
stops at a zero byte. -/
def metricsDeclare (defs : List MetricDef) (name : Bytes) (kind : Kind) : Option (List MetricDef) :=
  if !nameValid name then none
  else if defs.any fun d => d.name.length == name.length &&
      d.name.takeWhile (· ≠ 0) == name.takeWhile (· ≠ 0) then none
  else some (defs ++ [⟨name, kind⟩])

/-- The definitions of one configuration. -/
structure Definitions where
  defs : List MetricDef
  valid : ∀ d ∈ defs, nameValid d.name = true
  nodup : (defs.map MetricDef.name).Nodup

/-- A configuration before its first `wasm_counter` or `wasm_gauge`. -/
def Definitions.none : Definitions := ⟨[], nofun, List.nodup_nil⟩

/-- `wasm_counter` and `wasm_gauge`. -/
def Definitions.declare (ds : Definitions) (name : Bytes) (kind : Kind) : Option Definitions :=
  match h : metricsDeclare ds.defs name kind with
  | Option.none => Option.none
  | some defs => some
    { defs
      valid := by
        unfold metricsDeclare at h
        split_ifs at h with hv
        obtain rfl := Option.some.inj h
        intro d hd
        rcases List.mem_append.mp hd with hd | hd
        · exact ds.valid d hd
        · rw [List.mem_singleton.mp hd]
          simpa using hv
      nodup := by
        unfold metricsDeclare at h
        split_ifs at h with hv hdup
        obtain rfl := Option.some.inj h
        rw [List.map_append, List.nodup_append]
        refine ⟨ds.nodup, by simp, ?_⟩
        rintro n hn m hm rfl
        obtain ⟨d, hd, rfl⟩ := List.mem_map.mp hn
        refine hdup (List.any_eq_true.mpr ⟨d, hd, ?_⟩)
        have hname : d.name = name := List.mem_singleton.mp hm
        simp [hname] }

/-- A metric call of a guest. -/
inductive GuestOp where
  | counterInc (name : Bytes) (delta : Int64)
  | gaugeSet (name : Bytes) (value : Int64)
  | gaugeAdd (name : Bytes) (delta : Int64)
  deriving DecidableEq

namespace GuestOp

def run (crc32 : Bytes → UInt32) : GuestOp → Zone S → Int × Zone S
  | .counterInc name delta => Metrics.counterInc crc32 name delta
  | .gaugeSet name value => Metrics.gaugeSet crc32 name value
  | .gaugeAdd name delta => Metrics.gaugeAdd crc32 name delta

/-- What a configuration must declare for the call: the name, with the kind it needs. -/
def needs : GuestOp → MetricDef
  | .counterInc name _ => ⟨name, .counter⟩
  | .gaugeSet name _ => ⟨name, .gauge⟩
  | .gaugeAdd name _ => ⟨name, .gauge⟩

/-- A counter is not decremented. -/
def deltaValid : GuestOp → Bool
  | .counterInc _ delta => !decide (delta < 0)
  | .gaugeSet _ _ => true
  | .gaugeAdd _ _ => true

end GuestOp

theorem MetricMap.write_fst {m : MetricMap} {kind : Kind} {next : Int64 → Int64} {name : Bytes} :
    (m.write kind next name).1 = if m.kind name = some kind then wasmOk else wasmError := by
  unfold write MetricMap.kind
  cases hm : m name with
  | none => rfl
  | some kv =>
    by_cases hk : kv.1 = kind <;> simp [hk]

/-- **When a guest's call succeeds.** -/
theorem guestOp_run (h : Inv crc32 z) (o : GuestOp) :
    Inv crc32 (o.run crc32 z).2 ∧
      (∀ name, ((o.run crc32 z).2.map crc32).kind name = (z.map crc32).kind name) ∧
      (o.run crc32 z).1 = if o.deltaValid && nameValid o.needs.name &&
        decide ((z.map crc32).kind o.needs.name = some o.needs.kind) then wasmOk else wasmError := by
  have hupdate : ∀ kind next name, Inv crc32 (update crc32 kind next name z).2 ∧
      (∀ n, ((update crc32 kind next name z).2.map crc32).kind n = (z.map crc32).kind n) ∧
      (update crc32 kind next name z).1 =
        if (z.map crc32).kind name = some kind then wasmOk else wasmError := by
    intro kind next name
    obtain ⟨hi, hw⟩ := h.update kind next name
    refine ⟨hi, fun n => ?_, ?_⟩
    · rw [show (update crc32 kind next name z).2.map crc32 = _ from congrArg Prod.snd hw]
      exact MetricMap.kind_write
    · exact (congrArg Prod.fst hw).trans MetricMap.write_fst
  cases o with
  | counterInc name delta =>
    unfold GuestOp.run GuestOp.needs GuestOp.deltaValid counterInc
    dsimp only
    by_cases hv : nameValid name = true <;> by_cases hd : delta < 0 <;>
      simp [hv, hd, h, hupdate .counter (saturatingAdd delta) name]
  | gaugeSet name value =>
    unfold GuestOp.run GuestOp.needs GuestOp.deltaValid gaugeSet
    dsimp only
    by_cases hv : nameValid name = true <;> simp [hv, h, hupdate .gauge (fun _ => value) name]
  | gaugeAdd name delta =>
    unfold GuestOp.run GuestOp.needs GuestOp.deltaValid gaugeAdd
    dsimp only
    by_cases hv : nameValid name = true <;> simp [hv, h, hupdate .gauge (· + delta) name]

/-! ## Configurations one after another -/

/-- The running configuration and the zone it uses. `earlier` are the definitions of the
configurations before it that used the same memory. -/
structure Cycle (S : SlabPool) where
  zone : Zone S
  current : List MetricDef
  earlier : List MetricDef

/-- What happens to the metrics of a server. -/
inductive Event (S : SlabPool) where
  /-- A configuration whose zone has the name and size of the running one. -/
  | reload (ds : Definitions)
  /-- A configuration whose zone is new. -/
  | renew (mem : Addr → MetricNode) (pool : S.State) (ds : Definitions)
  /-- A call of a guest, in any worker. -/
  | call (o : GuestOp)

/-- What the loads of an event report. -/
def Cycle.loadRc (rb : Rbtree) (crc32 : Bytes → UInt32) (c : Cycle S) : Event S → Rc
  | .reload ds => (ensureDefinitions rb crc32 ds.defs c.zone).1
  | .renew mem pool ds => (ensureDefinitions rb crc32 ds.defs (emptyZone mem pool : Zone S)).1
  | .call _ => .ok

/-- The server after an event. A configuration that is rejected is not run, and a zone that only it
would use is dropped. -/
def Cycle.step (rb : Rbtree) (crc32 : Bytes → UInt32) (c : Cycle S) (e : Event S) : Cycle S :=
  match e with
  | .reload ds =>
    let zone := (ensureDefinitions rb crc32 ds.defs c.zone).2
    if c.loadRc rb crc32 e = .ok then ⟨zone, ds.defs, c.current ++ c.earlier⟩
    else { c with zone := zone }
  | .renew mem pool ds =>
    if c.loadRc rb crc32 e = .ok then
      ⟨(ensureDefinitions rb crc32 ds.defs (emptyZone mem pool)).2, ds.defs, []⟩
    else c
  | .call o => { c with zone := (o.run crc32 c.zone).2 }

/-- The zone holds what the configurations on it have declared. -/
structure Cycle.Inv (crc32 : Bytes → UInt32) (c : Cycle S) : Prop where
  zone : Metrics.Inv crc32 c.zone
  kinds : ∀ d : MetricDef, (c.zone.map crc32).kind d.name = some d.kind ↔
    d ∈ c.current ∨ d ∈ c.earlier
  valid : ∀ d : MetricDef, d ∈ c.current ∨ d ∈ c.earlier → nameValid d.name = true

/-- A load that succeeds adds its definitions, each with its kind. -/
theorem Inv.ensureDefinitions_ok (h : Inv crc32 z) {defs : List MetricDef}
    (hok : (ensureDefinitions rb crc32 defs z).1 = .ok) :
    Inv crc32 (ensureDefinitions rb crc32 defs z).2 ∧ ∀ d : MetricDef,
      ((ensureDefinitions rb crc32 defs z).2.map crc32).kind d.name = some d.kind ↔
        d ∈ defs ∨ (z.map crc32).kind d.name = some d.kind := by
  obtain ⟨hinv, hnext⟩ : Inv crc32 (ensureDefinitions rb crc32 defs z).2 ∧ _ :=
    ensureDefinitions_map defs h
  refine ⟨hinv, fun d => ?_⟩
  have hkeep : (z.map crc32).kind d.name = some d.kind →
      ((ensureDefinitions rb crc32 defs z).2.map crc32).kind d.name = some d.kind := hnext.kind
  rcases hnext with ⟨-, hall, hkinds⟩ | ⟨herr, -⟩
  · constructor
    · rw [hall, MetricMap.kind, MetricMap.declareAll_apply]
      cases hm : z.map crc32 d.name with
      | some kv =>
        rw [MetricMap.kind, hm]
        exact .inr
      | none =>
        intro hk
        obtain ⟨kv, hkv, hkind⟩ := Option.map_eq_some_iff.mp hk
        obtain ⟨d', hd', rfl⟩ := Option.map_eq_some_iff.mp hkv
        have hname : d'.name = d.name := by simpa using List.find?_some hd'
        obtain rfl : d' = d := by
          cases d
          cases d'
          simp_all
        exact .inl (List.mem_of_find?_eq_some hd')
    · rintro (hd | hk)
      · exact hkinds d hd
      · exact hkeep hk
  · have herr' : (ensureDefinitions rb crc32 defs z).1 = .error := by simpa using herr
    rw [hok] at herr'
    cases herr'

theorem Cycle.Inv.step {c : Cycle S} (h : c.Inv crc32) {e : Event S}
    (hok : c.loadRc rb crc32 e = .ok) : (c.step rb crc32 e).Inv crc32 := by
  unfold Cycle.step
  cases e with
  | reload ds =>
    simp only [if_pos hok]
    obtain ⟨hinv, hkinds⟩ := h.zone.ensureDefinitions_ok hok
    refine ⟨hinv, fun d => ?_, fun d hd => ?_⟩
    · rw [hkinds, h.kinds, List.mem_append]
    · rw [List.mem_append] at hd
      exact hd.elim (ds.valid d) (h.valid d)
  | renew mem pool ds =>
    simp only [if_pos hok]
    obtain ⟨hinv, hkinds⟩ := (Inv.emptyZone mem pool).ensureDefinitions_ok hok
    refine ⟨hinv, fun d => ?_, fun d hd => ?_⟩
    · rw [hkinds, map_emptyZone]
      simp [MetricMap.kind]
    · exact hd.elim (ds.valid d) fun hd => absurd hd List.not_mem_nil
  | call o =>
    obtain ⟨hinv, hkinds, -⟩ := guestOp_run h.zone o
    refine ⟨hinv, fun d => ?_, h.valid⟩
    rw [hkinds, h.kinds]

/-- The server before its first configuration. -/
def Cycle.start (mem : Addr → MetricNode) (pool : S.State) : Cycle S :=
  ⟨emptyZone mem pool, [], []⟩

theorem Cycle.Inv.start (mem : Addr → MetricNode) (pool : S.State) :
    (Cycle.start mem pool).Inv crc32 := by
  refine ⟨.emptyZone mem pool, fun d => ?_, fun d hd => ?_⟩
  · simp [Cycle.start, map_emptyZone, MetricMap.kind]
  · simp [Cycle.start] at hd

theorem Cycle.Inv.run {mem : Addr → MetricNode} {pool : S.State} {events : List (Event S)}
    (h : Meets (Cycle.step rb crc32) (fun c e => c.loadRc rb crc32 e = .ok)
      (Cycle.start mem pool) events) :
    (runFrom (Cycle.step rb crc32) (Cycle.start mem pool) events).Inv crc32 :=
  h.invariant (.start mem pool) fun _ _ hi hok => hi.step hok

/-- **Which calls of a guest answer as the configuration says**: in every history of configurations
that load and of calls, a call with a valid delta whose metric the running configuration declares, or
no earlier one on this memory did; and a call with an invalid delta, which always fails, if its
metric is not declared. -/
theorem guest_op_declared_iff (S : SlabPool) (rb : Rbtree) (crc32 : Bytes → UInt32)
    (mem : Addr → MetricNode) (pool : S.State) (events : List (Event S))
    (h : Meets (Cycle.step rb crc32) (fun c e => c.loadRc rb crc32 e = .ok)
      (Cycle.start mem pool) events) (o : GuestOp) :
    let c := runFrom (Cycle.step rb crc32) (Cycle.start mem pool) events
    (o.run crc32 c.zone).1 = (if o.needs ∈ c.current then wasmOk else wasmError) ↔
      if o.deltaValid = true then o.needs ∈ c.current ∨ o.needs ∉ c.earlier
      else o.needs ∉ c.current := by
  intro c
  have hc : c.Inv crc32 := Cycle.Inv.run h
  obtain ⟨-, -, hrun⟩ := guestOp_run hc.zone o
  have hne : wasmOk ≠ wasmError := by decide
  rw [hrun]
  by_cases hcur : o.needs ∈ c.current
  · have hv := hc.valid _ (.inl hcur)
    have hk := (hc.kinds _).mpr (.inl hcur)
    cases hd : o.deltaValid <;> simp [hv, hk, hcur, hne.symm]
  · by_cases hear : o.needs ∈ c.earlier
    · have hv := hc.valid _ (.inr hear)
      have hk := (hc.kinds _).mpr (.inr hear)
      cases hd : o.deltaValid <;> simp [hv, hk, hcur, hear, hne]
    · have hk : (c.zone.map crc32).kind o.needs.name ≠ some o.needs.kind := fun hk =>
        ((hc.kinds _).mp hk).elim hcur hear
      cases hd : o.deltaValid <;> simp [hk, hcur, hear]

/-- A counter, then a configuration without it. -/
def dropCounter : List (Event (.ofCapacity 2)) :=
  [.reload ⟨[⟨[97], .counter⟩], by decide, by decide⟩, .call (.counterInc [97] 1),
    .reload ⟨[⟨[98], .gauge⟩], by decide, by decide⟩]

theorem guest_op_declared_iff_drop :
    let c := runFrom (Cycle.step .unbalanced crc32Short)
      (Cycle.start (fun _ => ⟨0, [], .counter, 0⟩) []) dropCounter
    let o : GuestOp := .gaugeAdd [98] 3
    (o.run crc32Short c.zone).1 = (if o.needs ∈ c.current then wasmOk else wasmError) ↔
      if o.deltaValid = true then o.needs ∈ c.current ∨ o.needs ∉ c.earlier
      else o.needs ∉ c.current :=
  guest_op_declared_iff (.ofCapacity 2) .unbalanced crc32Short (fun _ => ⟨0, [], .counter, 0⟩) []
    dropCounter (by decide) (.gaugeAdd [98] 3)

/-- The counter still counts. -/
theorem dropped_counter_counts :
    let c := runFrom (Cycle.step .unbalanced crc32Short)
      (Cycle.start (fun _ => ⟨0, [], .counter, 0⟩) []) dropCounter
    let o : GuestOp := .counterInc [97] 1
    Meets (Cycle.step .unbalanced crc32Short) (fun c e => c.loadRc .unbalanced crc32Short e = .ok)
        (Cycle.start (fun _ => ⟨0, [], .counter, 0⟩) []) dropCounter ∧
      o.needs ∉ c.current ∧ (o.run crc32Short c.zone).1 = wasmOk ∧
      (o.run crc32Short c.zone).2.map crc32Short [97] = some (.counter, 2) := by
  decide

end NgxWasm.Metrics
