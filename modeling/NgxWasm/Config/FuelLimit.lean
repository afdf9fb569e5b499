import NgxWasm.Config.Innermost

/-!
# The fuel limit of a hook

`wasm_fuel_limit` may stand in an `http`, a `server` or a `location` block, and writes the locations'
configuration (`NGX_HTTP_LOC_CONF_OFFSET`). Like every other value it is the innermost one around a
location that the hooks of the location work with (`Config.Innermost`). The hooks of a server, which are
the server rewrite and the two of the TLS handshake, take their limit from the servers' configuration.
`merge_conf` merges a limit there as well, and no directive ever sets one (`blockLimit_srv`).

The limit of some blocks is said here once more without the settings (`innermostLimit`: the last
`wasm_fuel_limit` of the innermost block that has one), and tied to them by `limit_eq_number` and
`innermostLimit_eq`. What a hook does with its limit is `Runtime.Exec`; here it ends with the context
that `hookExec` gives the hook.

* `fuel_limit_innermost_iff`: a hook gets the innermost limit around it exactly if it is one of a
  location, or no block around it sets one, or the innermost one is the default.
-/

namespace NgxWasm.Config

open Lib
open NgxWasm.Runtime (Phase Machine defaultFuelLimit)

/-! ## What the blocks say -/

/-- The value of a `wasm_fuel_limit`. -/
def Directive.limit (d : Directive) : Option Nat :=
  match d.name, d.args with
  | .wasmFuelLimit, [value] => ngxAtoi value
  | _, _ => none

/-- The limit a block sets: its last `wasm_fuel_limit` counts. -/
def blockLimit (ds : List Directive) : Option Nat := (ds.filterMap Directive.limit).getLast?

/-- The innermost limit of some blocks, the innermost block first. -/
def innermostLimit (blocks : List (List Directive)) : Option Nat := blocks.findSome? blockLimit

/-! ## The limit among the settings -/

theorem limit_eq_number (d : Directive) : d.limit = d.number .fuelLimit := by
  obtain ⟨name, args⟩ := d
  unfold Directive.limit Directive.number
  rcases args with _ | ⟨value, _ | ⟨_, _⟩⟩
  · cases name <;> rfl
  · cases name <;> rfl
  · cases name <;> rfl

theorem innermostLimit_eq (env : Env) (blocks : List (List Directive)) :
    innermostLimit blocks = (setting env (.number .fuelLimit)).innermost blocks := by
  have hlimit : Directive.limit = Directive.number .fuelLimit := funext limit_eq_number
  unfold innermostLimit blockLimit
  rw [hlimit]
  rfl

theorem effective_fuelLimit (env : Env) (blocks : List (List Directive)) :
    (effective env blocks).fuelLimit = (innermostLimit blocks).getD defaultFuelLimit := by
  rw [innermostLimit_eq env]
  rfl

/-- A limit is the locations' to have. -/
theorem offset_of_limit {d : Directive} (h : d.limit ≠ none) : (commands d.name).offset = .loc := by
  unfold Directive.limit at h
  split at h
  · rename_i hname _
    rw [hname]
    rfl
  · exact absurd rfl h

theorem blockLimit_loc (ds : List Directive) : blockLimit (writing .loc ds) = blockLimit ds := by
  unfold blockLimit writing
  rw [List.filterMap_filter]
  congr 1
  refine List.filterMap_congr fun d _ => ?_
  by_cases h : d.limit = none
  · rw [h, ite_self]
  · rw [if_pos (decide_eq_true (offset_of_limit h))]

/-- **No directive for servers sets a limit.** -/
theorem blockLimit_srv (ds : List Directive) : blockLimit (writing .srv ds) = none := by
  unfold blockLimit
  rw [List.getLast?_eq_none_iff, List.filterMap_eq_nil_iff]
  intro d hd
  by_contra h
  have hsrv : (commands d.name).offset = .srv := of_decide_eq_true (List.mem_filter.mp hd).2
  rw [offset_of_limit h] at hsrv
  cases hsrv

theorem innermostLimit_loc (blocks : List (List Directive)) :
    innermostLimit (blocks.map (writing .loc)) = innermostLimit blocks := by
  unfold innermostLimit
  rw [List.findSome?_map]
  exact congrArg (List.findSome? · blocks) (funext blockLimit_loc)

theorem innermostLimit_srv (blocks : List (List Directive)) :
    innermostLimit (blocks.map (writing .srv)) = none := by
  unfold innermostLimit
  rw [List.findSome?_map, List.findSome?_eq_none_iff]
  exact fun ds _ => blockLimit_srv ds

/-- **The two limits of a server**: no directive reaches the one, and the other is the innermost. -/
theorem loadServer_fuelLimit {env : Env} {h : HttpBlock} {http : ConfCtx} {s : ServerBlock}
    {server : Server} (hhttp : ConfCtx.block env .http ⟨createConf, createConf⟩ h.directives = some http)
    (hserver : loadServer env http s = some server) {p : List Nat} {locs : List LocConf}
    (hp : server.locations.along p = some locs) :
    server.srv.fuelLimit = defaultFuelLimit ∧ ∃ blocks, s.locations.along p = some blocks ∧
      (locs.getLastD server.loc).conf.fuelLimit =
        (innermostLimit (blocks.reverse ++ [s.directives, h.directives])).getD defaultFuelLimit := by
  obtain ⟨hsrv, blocks, hblocks, hloc, -⟩ := loadServer_innermost hhttp hserver hp
  refine ⟨?_, blocks, hblocks, ?_⟩
  · rw [hsrv, effective_fuelLimit, innermostLimit_srv]
    rfl
  · rw [hloc, effective_fuelLimit, innermostLimit_loc]

/-! ## Hooks -/

/-- The limit a hook gives its execution context. -/
theorem hookExec_fuelLimit {runtimeReady : Bool} {srv loc : Conf} {phase : Phase} {m : Machine}
    (h : hookExec runtimeReady srv loc phase = some m) :
    m.ctx.fuelLimit = (hookConf srv loc phase).fuelLimit := by
  unfold hookExec at h
  dsimp only at h
  split at h
  · cases h
  · cases phase <;> first | (obtain rfl := Option.some.inj h; rfl) | cases h

/-- **Which hooks get the innermost limit around them.** For every configuration that nginx accepts,
every server and location in it, and every hook that runs there: the hooks of a location always do.
The hooks of a server get the default, which is the innermost limit if no block around them sets one, or
sets just the default. -/
theorem fuel_limit_innermost_iff (env : Env) (h : HttpBlock) (servers : List Server)
    (hload : load env h = some servers) (s : Nat) (p : List Nat) (srv : Conf) (loc : LocConf)
    (hat : confsAt servers s p = some (srv, loc)) (runtimeReady : Bool) (phase : Phase) (m : Machine)
    (hrun : hookExec runtimeReady srv loc.conf phase = some m) :
    ∃ blocks, h.around s p (hookOffset phase) = some blocks ∧
      (m.ctx.fuelLimit = (innermostLimit blocks).getD defaultFuelLimit ↔
        hookOffset phase = .loc ∨ innermostLimit blocks = none ∨
          innermostLimit blocks = some defaultFuelLimit) := by
  obtain ⟨http, hhttp, hservers⟩ := Option.bind_eq_some_iff.mp hload
  obtain ⟨server, hserver, hat⟩ := Option.bind_eq_some_iff.mp hat
  obtain ⟨locs, hp, hconfs⟩ := Option.map_eq_some_iff.mp hat
  obtain ⟨rfl, rfl⟩ := Prod.mk.inj hconfs
  obtain ⟨block, hblock, hloaded⟩ : ∃ block, h.servers[s]? = some block ∧
      loadServer env http block = some server := getElem?_mapM hservers hserver
  obtain ⟨hsrv, blocks, hblocks, hholds⟩ := loadServer_fuelLimit hhttp hloaded hp
  rw [hookExec_fuelLimit hrun]
  unfold HttpBlock.around hookConf
  rw [hblock]
  cases hookOffset phase with
  | loc =>
    refine ⟨blocks.reverse ++ [block.directives, h.directives], ?_, ?_⟩
    · rw [Option.bind_some, hblocks]
      rfl
    · exact iff_of_true hholds (.inl rfl)
  | srv =>
    refine ⟨[block.directives, h.directives], rfl, ?_⟩
    dsimp only
    rw [hsrv]
    cases innermostLimit [block.directives, h.directives] with
    | none => exact iff_of_true rfl (.inr (.inl rfl))
    | some n =>
      constructor
      · intro hn
        exact .inr (.inr (congrArg some hn.symm))
      · rintro (hloc | hnone | hn)
        · cases hloc
        · cases hnone
        · exact (Option.some.inj hn).symm

/-- `http { wasm_fuel_limit 7; rewrite_by_wasm m f; server { location { wasm_fuel_limit 5;
location { } } } }`. -/
def nestedLimits : HttpBlock where
  directives := [⟨.wasmFuelLimit, [[55]]⟩, ⟨.rewriteByWasm, [[109], [102]]⟩]
  servers := [⟨[], .node [⟨.wasmFuelLimit, [[53]]⟩] (.node [] .nil .nil) .nil⟩]

/-- The inner location's rewrite gets the limit of the outer one. -/
theorem fuel_limit_innermost_iff_nested :
    ∃ servers srv loc m, load plainEnv nestedLimits = some servers ∧
      confsAt servers 0 [0, 0] = some (srv, loc) ∧
      hookExec true srv loc.conf .rewrite = some m ∧ m.ctx.fuelLimit = 5 := by
  refine ⟨_, _, _, _, rfl, rfl, rfl, ?_⟩
  obtain ⟨blocks, hblocks, hiff⟩ := fuel_limit_innermost_iff plainEnv nestedLimits _ rfl 0 [0, 0] _ _
    rfl true .rewrite _ rfl
  obtain rfl := Option.some.inj hblocks
  exact (hiff.mpr (.inl rfl)).trans (by decide)

/-- `http { server { wasm_fuel_limit 5; server_rewrite_by_wasm m f; } }`. -/
def serverLimit : HttpBlock where
  directives := []
  servers := [⟨[⟨.wasmFuelLimit, [[53]]⟩, ⟨.serverRewriteByWasm, [[109], [102]]⟩], .nil⟩]

/-- The server's own limit is 5, and its rewrite gets a million. -/
theorem server_rewrite_ignores_limit :
    ((load plainEnv serverLimit).bind fun servers =>
      (confsAt servers 0 []).bind fun confs =>
        (hookExec true confs.1 confs.2.conf .serverRewrite).map fun m => m.ctx.fuelLimit) =
        some 1000000 ∧
      (serverLimit.around 0 [] .srv).map innermostLimit = some (some 5) := by
  decide +kernel

end NgxWasm.Config
