import NgxWasm.Config.Blocks
import NgxWasm.Lib.Setting

/-!
# The innermost directive counts

`load` reads every block by itself and merges it with the one around it. `effective` says what this is
for: each value of a configuration is that of the innermost directive for it, or its default. A
directive writes one of the two configurations of its block (`writing`), so that the servers' one is
made of other directives than the locations' one.

The argument is made once, for a `Setting` of `Lib.Setting`, and each value of a configuration is one:
the numbers, the metrics flag, and the phase of each hook. A phase is set by one directive with all its
fields, and `merge_phase_conf` goes field by field, so that it takes a lemma to see that phases are
never mixed (`hook_lawful`).

* `write_of_set`: each handler of a directive does what `Conf.write` says.
* `block_write`, `block_reads`: so does a block.
* `loadServer_innermost`: the two configurations of a server.
* `confs_innermost`: in every configuration that is accepted, what a request finds for its server and
  its location is `effective` for the blocks around it, and the location has the content handler that
  goes with it.

Blocks are merged from the outside in, while `effective` looks from the inside out for the first block
that says something. The outermost block is never completed itself, which takes a rule of its own
(`Setting.Holds.first`); from there inwards each block is merged with one that is complete
(`Setting.Holds.merged`). What is left for this module is that the values of a configuration are lawful
settings and that the handlers write them.
-/

namespace NgxWasm.Config

open Lib
open NgxWasm.Runtime (Phase defaultFuelLimit)

/-! ## The settings -/

/-- The values that are numbers. -/
inductive NumberName where
  | fuelLimit
  | timesliceFuel
  | requestBodyBufferSize
  | bodyFilterFileChunkSize
  | subrequestBufferSize
  deriving Repr, DecidableEq

namespace NumberName

def command : NumberName → CommandName
  | fuelLimit => .wasmFuelLimit
  | timesliceFuel => .wasmTimesliceFuel
  | requestBodyBufferSize => .wasmRequestBodyBufferSize
  | bodyFilterFileChunkSize => .wasmBodyFilterFileChunkSize
  | subrequestBufferSize => .wasmSubrequestBufferSize

def parse : NumberName → Bytes → Option Nat
  | fuelLimit => ngxAtoi
  | timesliceFuel => fun value => (ngxAtoi value).filter (0 < ·)
  | requestBodyBufferSize | bodyFilterFileChunkSize | subrequestBufferSize => ngxParseSize

def default : NumberName → Nat
  | fuelLimit => defaultFuelLimit
  | timesliceFuel => defaultTimesliceFuel
  | requestBodyBufferSize => defaultRequestBodyBufferSize
  | bodyFilterFileChunkSize => defaultBodyFilterFileChunkSize
  | subrequestBufferSize => defaultSubrequestBufferSize

def get : NumberName → Conf → Nat
  | fuelLimit => Conf.fuelLimit
  | timesliceFuel => Conf.timesliceFuel
  | requestBodyBufferSize => Conf.requestBodyBufferSize
  | bodyFilterFileChunkSize => Conf.bodyFilterFileChunkSize
  | subrequestBufferSize => Conf.subrequestBufferSize

def put : NumberName → Nat → Conf → Conf
  | fuelLimit, n, wcf => { wcf with fuelLimit := n }
  | timesliceFuel, n, wcf => { wcf with timesliceFuel := n }
  | requestBodyBufferSize, n, wcf => { wcf with requestBodyBufferSize := n }
  | bodyFilterFileChunkSize, n, wcf => { wcf with bodyFilterFileChunkSize := n }
  | subrequestBufferSize, n, wcf => { wcf with subrequestBufferSize := n }

end NumberName

/-- The hook that a directive configures. -/
def CommandName.hook : CommandName → Option Phase
  | .contentByWasm => some .content
  | .rewriteByWasm => some .rewrite
  | .serverRewriteByWasm => some .serverRewrite
  | .headerFilterByWasm => some .headerFilter
  | .bodyFilterByWasm => some .bodyFilter
  | .logByWasm => some .log
  | .sslClientHelloByWasm => some .sslClientHello
  | .sslCertificateByWasm => some .sslCertificate
  | .wasmFuelLimit | .wasmMetrics | .wasmRequestBodyBufferSize | .wasmBodyFilterFileChunkSize
  | .wasmSubrequestBufferSize | .wasmTimesliceFuel => none

/-- The number a directive gives. -/
def Directive.number (n : NumberName) (d : Directive) : Option Nat :=
  match d.args with
  | [value] => if d.name = n.command then n.parse value else none
  | _ => none

/-- The hook a directive configures, with its module. -/
def Directive.hook (env : Env) (phase : Phase) (d : Directive) : Option PhaseConf :=
  match d.args with
  | [modulePath, exportName] =>
    if d.name.hook = some phase then
      (env.fullName modulePath).bind fun path =>
        (env.getOrLoad path).map fun module =>
          { set := 1, module := some module, modulePath := some path, exportName := some exportName }
    else none
  | _ => none

/-- `wasm_metrics`. -/
def Directive.endpoint (d : Directive) : Option Int :=
  if d.name = .wasmMetrics then some 1 else none

/-- The values of a configuration. -/
inductive ValueName where
  | number (n : NumberName)
  | hook (phase : Phase)
  | metricsEndpoint
  deriving Repr, DecidableEq

def ValueName.Of : ValueName → Type
  | number _ => Nat
  | hook _ => PhaseConf
  | metricsEndpoint => Int

/-- A value, as the directives give it and `create_conf` and `merge_conf` treat it. -/
def setting (env : Env) : (v : ValueName) → Setting Conf Directive v.Of
  | .number n => ⟨n.get, confUnsetUint, n.default, Directive.number n⟩
  | .hook phase => ⟨fun c => c.phase phase, ({ set := confUnset } : PhaseConf),
      ({ set := 0 } : PhaseConf), Directive.hook env phase⟩
  | .metricsEndpoint => ⟨Conf.metricsEndpoint, confUnset, (0 : Int), Directive.endpoint⟩

/-- A configuration from its values. -/
def Conf.ofValues (values : (v : ValueName) → v.Of) : Conf where
  fuelLimit := values (.number .fuelLimit)
  timesliceFuel := values (.number .timesliceFuel)
  requestBodyBufferSize := values (.number .requestBodyBufferSize)
  bodyFilterFileChunkSize := values (.number .bodyFilterFileChunkSize)
  subrequestBufferSize := values (.number .subrequestBufferSize)
  phase := fun phase => values (.hook phase)
  metricsEndpoint := values .metricsEndpoint

/-- What a directive makes of a configuration. -/
def Conf.write (env : Env) (c : Conf) (d : Directive) : Conf :=
  .ofValues fun v => ((setting env v).value d).getD ((setting env v).get c)

/-- **What blocks come to**, the innermost first: the innermost directive for each value, or the
default. -/
def effective (env : Env) (blocks : List (List Directive)) : Conf :=
  .ofValues fun v => ((setting env v).innermost blocks).getD (setting env v).default

variable {env : Env}

@[simp] theorem get_ofValues (env : Env) (values : (v : ValueName) → v.Of) (v : ValueName) :
    (setting env v).get (.ofValues values) = values v := by
  cases v with
  | number n => cases n <;> rfl
  | hook phase => rfl
  | metricsEndpoint => rfl

/-- The values make up the configuration. -/
theorem eq_ofValues (env : Env) (c : Conf) : c = .ofValues fun v => (setting env v).get c := rfl

theorem eq_of_get (env : Env) {c c' : Conf}
    (h : ∀ v, (setting env v).get c = (setting env v).get c') : c = c' := by
  rw [eq_ofValues env c, eq_ofValues env c']
  exact congrArg Conf.ofValues (funext h)

/-! ## What the merge makes of a value -/

theorem ngxAtoi_ne_unset {value : Bytes} {n : Nat} (h : ngxAtoi value = some n) :
    n ≠ confUnsetUint := by
  have : n ≤ ngxMaxInt := Shm.readNat_le h
  unfold ngxMaxInt at this
  unfold confUnsetUint
  omega

theorem ngxParseSize_ne_unset {line : Bytes} {n : Nat} (h : ngxParseSize line = some n) :
    n ≠ confUnsetUint := by
  have hscale : ∀ (size scale : Nat),
      (if size > ngxMaxInt / scale then none else some (size * scale)) = some n → n ≤ ngxMaxInt := by
    intro size scale h
    split at h
    · cases h
    · rename_i hle
      obtain rfl := Option.some.inj h
      exact (Nat.mul_le_mul_right _ (Nat.le_of_not_lt hle)).trans (Nat.div_mul_le_self ..)
  have hmax : n ≤ ngxMaxInt := by
    unfold ngxParseSize at h
    cases hunit : line.getLast? with
    | none =>
      rw [hunit] at h
      cases h
    | some unit =>
      rw [hunit] at h
      obtain ⟨size, -, h⟩ := Option.bind_eq_some_iff.mp h
      exact hscale _ _ h
  unfold ngxMaxInt at hmax
  unfold confUnsetUint
  omega

theorem NumberName.parse_ne_unset {n : NumberName} {line : Bytes} {k : Nat}
    (h : n.parse line = some k) : k ≠ confUnsetUint := by
  cases n with
  | fuelLimit => exact ngxAtoi_ne_unset h
  | timesliceFuel => exact ngxAtoi_ne_unset (Option.eq_some_of_filter_eq_some h)
  | requestBodyBufferSize | bodyFilterFileChunkSize | subrequestBufferSize =>
    exact ngxParseSize_ne_unset h

theorem NumberName.get_mergeConf (n : NumberName) (p c : Conf) :
    n.get (mergeConf p c) = mergeUintValue (n.get c) (n.get p) n.default := by
  cases n <;> rfl

theorem number_ne_unset {n : NumberName} {d : Directive} {k : Nat} (h : d.number n = some k) :
    k ≠ confUnsetUint := by
  unfold Directive.number at h
  split at h
  · split at h
    · exact n.parse_ne_unset h
    · cases h
  · cases h

theorem number_lawful (n : NumberName) : (setting env (.number n)).Lawful mergeConf where
  default_ne := by
    have hall : ∀ n : NumberName, n.default ≠ confUnsetUint := by
      intro n
      cases n <;> decide
    exact hall n
  value_ne := number_ne_unset
  own := fun hd => (n.get_mergeConf ..).trans (if_neg (number_ne_unset hd))
  inherited := fun _ hc hp => (n.get_mergeConf ..).trans ((if_pos hc).trans (if_neg hp))
  defaulted := fun hc hp => (n.get_mergeConf ..).trans ((if_pos hc).trans (if_pos hp))

theorem endpoint_ne_unset {d : Directive} {k : Int} (h : d.endpoint = some k) : k ≠ confUnset := by
  unfold Directive.endpoint at h
  split at h
  · obtain rfl := Option.some.inj h
    decide
  · cases h

theorem endpoint_lawful : (setting env .metricsEndpoint).Lawful mergeConf where
  default_ne := (by decide : (0 : Int) ≠ confUnset)
  value_ne := endpoint_ne_unset
  own := fun hd => if_neg (endpoint_ne_unset hd)
  inherited := fun _ hc hp => (if_pos hc).trans (if_neg hp)
  defaulted := fun hc hp => (if_pos hc).trans (if_pos hp)

/-- A phase that a directive has set has all its fields. -/
theorem hook_value {phase : Phase} {d : Directive} {pc : PhaseConf}
    (h : d.hook env phase = some pc) : pc.set = 1 ∧ pc.module.isSome ∧ pc.modulePath.isSome ∧
      pc.exportName.isSome := by
  unfold Directive.hook at h
  split at h
  · split at h
    · obtain ⟨path, -, h⟩ := Option.bind_eq_some_iff.mp h
      obtain ⟨module, -, rfl⟩ := Option.map_eq_some_iff.mp h
      exact ⟨rfl, rfl, rfl, rfl⟩
    · cases h
  · cases h

/-- **Phases are merged as a whole**, although `merge_phase_conf` goes by field: one that is set has
all its fields, and one that is not has none. -/
theorem hook_lawful (phase : Phase) : (setting env (.hook phase)).Lawful mergeConf where
  default_ne h := absurd (congrArg PhaseConf.set h) (by decide : (0 : Int) ≠ confUnset)
  value_ne := by
    rintro d pc hd rfl
    exact absurd (hook_value hd).1 (by decide : confUnset ≠ 1)
  own := by
    intro p c d hd
    change d.hook env phase = some (c.phase phase) at hd
    show mergePhaseConf (p.phase phase) (c.phase phase) = c.phase phase
    obtain ⟨hset, hmodule, hpath, hexport⟩ := hook_value hd
    unfold mergePhaseConf
    rw [Option.or_of_isSome hmodule, Option.or_of_isSome hpath, Option.or_of_isSome hexport,
      mergeValue, if_neg (by rw [hset]; decide)]
  inherited := by
    intro p c hknown hc hp
    change c.phase phase = { set := confUnset } at hc
    show mergePhaseConf (p.phase phase) (c.phase phase) = p.phase phase
    have hset : (p.phase phase).set ≠ confUnset := by
      rcases hknown with hunset | hdefault | ⟨d, hd⟩
      · exact absurd hunset hp
      · change p.phase phase = { set := 0 } at hdefault
        rw [hdefault]
        decide
      · change d.hook env phase = some (p.phase phase) at hd
        rw [(hook_value hd).1]
        decide
    rw [hc, mergePhaseConf, mergeValue, if_pos rfl, if_neg hset]
    rfl
  defaulted := by
    intro p c hc hp
    change c.phase phase = { set := confUnset } at hc
    change p.phase phase = { set := confUnset } at hp
    show mergePhaseConf (p.phase phase) (c.phase phase) = { set := 0 }
    rw [hc, hp]
    rfl

theorem setting_lawful (env : Env) (v : ValueName) : (setting env v).Lawful mergeConf := by
  cases v with
  | number n => exact number_lawful n
  | hook phase => exact hook_lawful phase
  | metricsEndpoint => exact endpoint_lawful

/-! ## What a directive writes -/

theorem phaseBy_write {phase : Phase} {name : CommandName} (hhook : name.hook = some phase)
    {args : List Bytes} {c c' : Conf} (h : phaseBy phase env args c = some c') :
    c' = c.write env ⟨name, args⟩ := by
  unfold phaseBy at h
  split at h
  · rename_i modulePath exportName
    obtain ⟨dst, hdst, rfl⟩ := Option.map_eq_some_iff.mp h
    unfold configurePhase at hdst
    split at hdst
    · cases hdst
    · obtain ⟨path, hpath, hdst⟩ := Option.bind_eq_some_iff.mp hdst
      obtain ⟨module, hmodule, rfl⟩ := Option.map_eq_some_iff.mp hdst
      refine eq_of_get env fun v => ?_
      rw [Conf.write, get_ofValues]
      cases v with
      | number n => cases n <;> rfl
      | metricsEndpoint =>
        have hmetrics : name ≠ .wasmMetrics := by
          rintro rfl
          cases hhook
        have hnone : Directive.endpoint ⟨name, [modulePath, exportName]⟩ = none := if_neg hmetrics
        show c.metricsEndpoint = (Directive.endpoint _).getD _
        rw [hnone]
        rfl
      | hook ph =>
        show Function.update c.phase phase _ ph =
          (Directive.hook env ph ⟨name, [modulePath, exportName]⟩).getD (c.phase ph)
        unfold Directive.hook
        dsimp only
        by_cases heq : ph = phase
        · subst heq
          rw [Function.update_self, if_pos hhook, hpath, Option.bind_some, hmodule]
          rfl
        · have hne : name.hook ≠ some ph := fun h' => heq (Option.some.inj (h'.symm.trans hhook))
          rw [Function.update_of_ne heq, if_neg hne]
          rfl
  · cases h

theorem numberBy_write (n : NumberName) {args : List Bytes} {c c' : Conf}
    (h : numberBy n.parse n.put env args c = some c') : c' = c.write env ⟨n.command, args⟩ := by
  unfold numberBy at h
  split at h
  · rename_i value
    obtain ⟨k, hk, rfl⟩ := Option.map_eq_some_iff.mp h
    refine eq_of_get env fun v => ?_
    rw [Conf.write, get_ofValues]
    cases v with
    | number n' =>
      show n'.get (n.put k c) = (Directive.number n' ⟨n.command, [value]⟩).getD (n'.get c)
      unfold Directive.number
      by_cases heq : n' = n
      · subst heq
        simp only [if_true, hk, Option.getD_some]
        cases n' <;> rfl
      · have hne : n.command ≠ n'.command := by
          cases n <;> cases n' <;> first | decide | exact absurd rfl heq
        simp only [hne, if_false, Option.getD_none]
        cases n <;> cases n' <;> first | rfl | exact absurd rfl heq
    | hook phase =>
      show (n.put k c).phase phase = (c.phase phase)
      cases n <;> rfl
    | metricsEndpoint =>
      have hmetrics : n.command ≠ .wasmMetrics := by cases n <;> decide
      have hnone : Directive.endpoint ⟨n.command, [value]⟩ = none := if_neg hmetrics
      show (n.put k c).metricsEndpoint = (Directive.endpoint _).getD c.metricsEndpoint
      rw [hnone]
      cases n <;> rfl
  · cases h

theorem metrics_write {c c' : Conf} (h : metrics env [] c = some c') :
    c' = c.write env ⟨.wasmMetrics, []⟩ := by
  unfold metrics at h
  split at h
  · cases h
  · obtain rfl := Option.some.inj h
    refine eq_of_get env fun v => ?_
    rw [Conf.write, get_ofValues]
    cases v with
    | number n => cases n <;> rfl
    | hook phase => rfl
    | metricsEndpoint => rfl

/-- **What the handler of a directive does**: it gives the configuration the directive's value. -/
theorem write_of_set {d : Directive} (hargs : d.args.length = (commands d.name).nargs) {c c' : Conf}
    (h : (commands d.name).set env d.args c = some c') : c' = c.write env d := by
  obtain ⟨name, args⟩ := d
  cases name with
  | contentByWasm | rewriteByWasm | serverRewriteByWasm | headerFilterByWasm | bodyFilterByWasm
  | logByWasm | sslClientHelloByWasm | sslCertificateByWasm => exact phaseBy_write rfl h
  | wasmFuelLimit => exact numberBy_write .fuelLimit h
  | wasmTimesliceFuel => exact numberBy_write .timesliceFuel h
  | wasmRequestBodyBufferSize => exact numberBy_write .requestBodyBufferSize h
  | wasmBodyFilterFileChunkSize => exact numberBy_write .bodyFilterFileChunkSize h
  | wasmSubrequestBufferSize => exact numberBy_write .subrequestBufferSize h
  | wasmMetrics =>
    obtain rfl : args = [] := List.length_eq_zero_iff.mp hargs
    exact metrics_write h

/-! ## Blocks -/

/-- The blocks around a hook of the server `s`, or of its location at `p`, the innermost first. -/
def HttpBlock.around (h : HttpBlock) (s : Nat) (p : List Nat) : Offset → Option (List (List Directive))
  | .srv => h.servers[s]?.map fun server => [server.directives, h.directives]
  | .loc => h.servers[s]?.bind fun server =>
      (server.locations.along p).map fun locs =>
        locs.reverse ++ [server.directives, h.directives]

/-- The configuration that directives of this offset write. -/
def ConfCtx.conf (ctx : ConfCtx) : Offset → Conf
  | .srv => ctx.srv
  | .loc => ctx.loc

/-- The directives that write it. -/
def writing (o : Offset) (ds : List Directive) : List Directive :=
  ds.filter fun d => (commands d.name).offset = o

theorem directive_write {block : Block} {ctx ctx' : ConfCtx} {d : Directive}
    (h : ctx.directive env block d = some ctx') (o : Offset) :
    ctx'.conf o = (writing o [d]).foldl (Conf.write env) (ctx.conf o) := by
  unfold ConfCtx.directive at h
  dsimp only at h
  split at h
  · cases h
  · rename_i hok
    have hargs : d.args.length = (commands d.name).nargs := by
      by_contra hne
      exact hok (.inr hne)
    split at h
    · rename_i hoffset
      obtain ⟨srv, hset, rfl⟩ := Option.map_eq_some_iff.mp h
      have hwrite := write_of_set hargs hset
      cases o with
      | srv => simpa [writing, hoffset, ConfCtx.conf] using hwrite
      | loc => simp [writing, hoffset, ConfCtx.conf]
    · rename_i hoffset
      obtain ⟨loc, hset, rfl⟩ := Option.map_eq_some_iff.mp h
      have hwrite := write_of_set hargs hset
      cases o with
      | srv => simp [writing, hoffset, ConfCtx.conf]
      | loc => simpa [writing, hoffset, ConfCtx.conf] using hwrite

/-- **A block** writes its directives one after the other. -/
theorem block_write {block : Block} {ctx ctx' : ConfCtx} (ds : List Directive)
    (h : ctx.block env block ds = some ctx') (o : Offset) :
    ctx'.conf o = (writing o ds).foldl (Conf.write env) (ctx.conf o) := by
  induction ds generalizing ctx with
  | nil =>
    obtain rfl := Option.some.inj h
    rfl
  | cons d ds ih =>
    unfold ConfCtx.block at h
    rw [List.foldlM_cons, Option.bind_eq_bind, Option.bind_eq_some_iff] at h
    obtain ⟨ctx₁, h₁, h₂⟩ := h
    have happend : writing o (d :: ds) = writing o [d] ++ writing o ds := List.filter_append [d] ds
    rw [happend, List.foldl_append, ← directive_write h₁]
    exact ih h₂

theorem get_createConf (env : Env) (v : ValueName) :
    (setting env v).get createConf = (setting env v).unset := by
  cases v with
  | number n => cases n <;> rfl
  | hook phase => rfl
  | metricsEndpoint => rfl

/-- A block that has been read into a new configuration. -/
theorem block_reads {block : Block} {ctx ctx' : ConfCtx} {ds : List Directive} {o : Offset}
    (hctx : ctx.conf o = createConf) (h : ctx.block env block ds = some ctx') (v : ValueName) :
    (setting env v).Reads (writing o ds) (ctx'.conf o) := by
  rw [block_write ds h o, hctx]
  refine Setting.Reads.write (fun c d => ?_) (get_createConf env v) _
  rw [Conf.write, get_ofValues]

/-! ## The merges -/

theorem eq_effective {blocks : List (List Directive)} {c : Conf}
    (h : ∀ v, (setting env v).Holds blocks c) : c = effective env blocks := by
  refine eq_of_get env fun v => ?_
  rw [effective, get_ofValues]
  exact h v

theorem mergeLocConf_conf {parent child : Conf} {loc : LocConf}
    (h : mergeLocConf parent child = some loc) : loc.conf = mergeConf parent child := by
  unfold mergeLocConf at h
  dsimp only at h
  split at h
  · cases h
  · obtain rfl := Option.some.inj h
    rfl

/-- The content handler of a location goes with its configuration, and there is no conflict about
it. -/
structure Handled (loc : LocConf) : Prop where
  metrics_iff : loc.handler = some .metrics ↔ loc.conf.metricsEndpoint = 1
  content_iff : loc.handler = some .content ↔ (loc.conf.phase .content).set = 1

theorem mergeLocConf_handled {parent child : Conf} {loc : LocConf}
    (h : mergeLocConf parent child = some loc) : Handled loc := by
  unfold mergeLocConf at h
  dsimp only at h
  split at h
  · cases h
  · rename_i hconflict
    obtain rfl := Option.some.inj h
    by_cases hmetrics : (mergeConf parent child).metricsEndpoint = 1
    · have hcontent : ((mergeConf parent child).phase .content).set ≠ 1 := fun hc =>
        hconflict ⟨hc, hmetrics⟩
      constructor <;> simp [hmetrics, hcontent]
    · constructor <;> simp [hmetrics]

theorem loadLocation_reads {srv : Conf} {parent loc : LocConf} {ds : List Directive}
    (h : loadLocation env srv parent ds = some loc) :
    ∃ c, (∀ v, (setting env v).Reads (writing .loc ds) c) ∧ loc.conf = mergeConf parent.conf c := by
  obtain ⟨ctx, hblock, hmerge⟩ := Option.bind_eq_some_iff.mp h
  exact ⟨ctx.loc, block_reads (o := .loc) rfl hblock, mergeLocConf_conf hmerge⟩

theorem loadLocation_handled {srv : Conf} {outer loc : LocConf} (ds : List (List Directive))
    (houter : Handled outer) (h : ds.foldlM (loadLocation env srv) outer = some loc) :
    Handled loc := by
  induction ds generalizing outer with
  | nil =>
    obtain rfl := Option.some.inj h
    exact houter
  | cons d ds ih =>
    rw [List.foldlM_cons, Option.bind_eq_bind, Option.bind_eq_some_iff] at h
    obtain ⟨inner, hinner, hrest⟩ := h
    obtain ⟨ctx, -, hmerge⟩ := Option.bind_eq_some_iff.mp hinner
    exact ih (mergeLocConf_handled hmerge) hrest

/-- **The two configurations of a server.** -/
theorem loadServer_innermost {h : HttpBlock} {http : ConfCtx} {s : ServerBlock} {server : Server}
    (hhttp : ConfCtx.block env .http ⟨createConf, createConf⟩ h.directives = some http)
    (hserver : loadServer env http s = some server) {p : List Nat} {locs : List LocConf}
    (hp : server.locations.along p = some locs) :
    server.srv = effective env ([s.directives, h.directives].map (writing .srv)) ∧
      ∃ blocks, s.locations.along p = some blocks ∧
        (locs.getLastD server.loc).conf = effective env
          ((blocks.reverse ++ [s.directives, h.directives]).map (writing .loc)) ∧
        Handled (locs.getLastD server.loc) := by
  obtain ⟨ctx, hctx, hserver⟩ := Option.bind_eq_some_iff.mp hserver
  obtain ⟨loc, hloc, hserver⟩ := Option.bind_eq_some_iff.mp hserver
  obtain ⟨locations, hlocations, rfl⟩ := Option.map_eq_some_iff.mp hserver
  obtain ⟨blocks, hblocks, hfold⟩ := Forest.along_inherit hlocations hp
  refine ⟨eq_effective fun v => ?_, blocks, hblocks, eq_effective fun v => ?_,
    loadLocation_handled blocks (mergeLocConf_handled hloc) hfold⟩
  · exact Setting.Holds.first (setting_lawful env v) (block_reads (o := .srv) rfl hhttp v)
      (block_reads (o := .srv) rfl hctx v)
  · have hfirst : (setting env v).Holds [writing .loc s.directives, writing .loc h.directives]
        loc.conf := by
      rw [mergeLocConf_conf hloc]
      exact Setting.Holds.first (setting_lawful env v) (block_reads (o := .loc) rfl hhttp v)
        (block_reads (o := .loc) rfl hctx v)
    rw [List.map_append, List.map_reverse]
    refine Setting.Holds.fold (setting_lawful env v) (fun b e b' hb => ?_) blocks hfirst hfold
    obtain ⟨c, hreads, hconf⟩ := loadLocation_reads hb
    exact ⟨c, hreads v, hconf⟩

/-- **The innermost directive counts.** In every configuration that is accepted, however its blocks are
nested, every value that a request or a connection finds for its server and its location is that of
the innermost directive for it around them, or the default; a hook comes with the module, the path
and the export of one directive. For a server the directives that write the configuration of servers
count, for a location those that write the one of locations: a `wasm_fuel_limit` writes only the
latter, so the guests of a server run with the default. A location has the metrics or the content
handler exactly if it is to serve the metrics or has a guest for its content, and never both. -/
theorem confs_innermost (env : Env) (h : HttpBlock) (servers : List Server)
    (hload : load env h = some servers) (s : Nat) (p : List Nat) (srv : Conf) (loc : LocConf)
    (hat : confsAt servers s p = some (srv, loc)) :
    ∃ outer inner, h.around s p .srv = some outer ∧ h.around s p .loc = some inner ∧
      srv = effective env (outer.map (writing .srv)) ∧
      loc.conf = effective env (inner.map (writing .loc)) ∧ Handled loc := by
  obtain ⟨http, hhttp, hservers⟩ := Option.bind_eq_some_iff.mp hload
  obtain ⟨server, hserver, hat⟩ := Option.bind_eq_some_iff.mp hat
  obtain ⟨locs, hp, hconfs⟩ := Option.map_eq_some_iff.mp hat
  obtain ⟨rfl, rfl⟩ := Prod.mk.inj hconfs
  obtain ⟨block, hblock, hloaded⟩ : ∃ block, h.servers[s]? = some block ∧
      loadServer env http block = some server := getElem?_mapM hservers hserver
  obtain ⟨hsrv, blocks, hblocks, hloc, hhandled⟩ := loadServer_innermost hhttp hloaded hp
  refine ⟨_, _, ?_, ?_, hsrv, hloc, hhandled⟩
  · unfold HttpBlock.around
    rw [hblock]
    rfl
  · unfold HttpBlock.around
    rw [hblock, Option.bind_some, hblocks]
    rfl

/-- A world where every module loads. -/
def plainEnv : Env := ⟨some, fun _ => some 1⟩

/-- `http { wasm_timeslice_fuel 7; rewrite_by_wasm m f; server { location { wasm_subrequest_buffer_size
5k; location { rewrite_by_wasm n g; } } } }`. -/
def nestedHooks : HttpBlock where
  directives := [⟨.wasmTimesliceFuel, [[55]]⟩, ⟨.rewriteByWasm, [[109], [102]]⟩]
  servers := [⟨[], .node [⟨.wasmSubrequestBufferSize, [[53, 107]]⟩]
    (.node [⟨.rewriteByWasm, [[110], [103]]⟩] .nil .nil) .nil⟩]

/-- The inner location has its own rewrite, and the numbers of the two blocks around it. -/
theorem confs_innermost_nested :
    ∃ servers srv loc, load plainEnv nestedHooks = some servers ∧
      confsAt servers 0 [0, 0] = some (srv, loc) ∧ loc.conf.timesliceFuel = 7 ∧
      loc.conf.subrequestBufferSize = 5120 ∧
      (loc.conf.phase .rewrite).modulePath = some [110] ∧ (srv.phase .rewrite).set = 0 := by
  refine ⟨_, _, _, rfl, rfl, ?_⟩
  obtain ⟨outer, inner, houter, hinner, hsrv, hloc, -⟩ :=
    confs_innermost plainEnv nestedHooks _ rfl 0 [0, 0] _ _ rfl
  obtain rfl := Option.some.inj houter
  obtain rfl := Option.some.inj hinner
  rw [hloc, hsrv]
  decide +kernel

end NgxWasm.Config
