import NgxWasm.Lib.Forest
import NgxWasm.Request.Phases
import NgxWasm.Runtime.Timeslice
import NgxWasm.Shm.DecimalText

/-!
# The configuration (`ngx_http_wasm_commands`, `ngx_http_wasm_merge_conf`)

nginx keeps two configurations of the module for each level: one for the servers and one for the
locations. An `http` or `server` block creates both, a `location` block the second alone, and the
`offset` of a directive says which of the two it writes. Once the file has been read, each server's
pair is merged with that of the `http` block, and each location's with that of the block around it.
A hook takes its values from the one or the other, as its handler asks for it.

* `create_conf` and `merge_conf`, by field, with what nginx's macros for merging do; a location also
  gets its content handler there (`mergeLocConf`).
* The setters of the directives, and the command table (`commands`) with the contexts, the number of
  arguments and the offset of each. Directives with one number share a body, and so do the phases.
* `load` reads and merges a tree of blocks, with locations in locations to any depth. `confsAt` is what
  a request finds for its server and location, `hookConf` what a hook works with, and `hookExec` the
  execution context it sets up.

Directives of the main configuration (the zones and the metrics) and of `upstream` blocks are no part
of this: they are in `Zones`, `Metrics.Reload` and `Balancer.Connections`. Nothing of nginx's parser is
modelled but the contexts and the number of arguments it checks for a directive. `none` is a
configuration that is rejected; the texts of the errors are left out. A path has one module here
(`Env`); where the modules come from is in `Config.Loader`.

The names are those of the source without the prefix `ngx_http_wasm_`.
-/

namespace NgxWasm.Config

open Lib
open NgxWasm.Runtime (Phase Machine defaultFuelLimit)

/-! ## Numbers -/

/-- `NGX_MAX_INT_T_VALUE` and `NGX_MAX_SIZE_T_VALUE` on a 64-bit platform. -/
def ngxMaxInt : Nat := 9223372036854775807

/-- `ngx_atoi`: decimal digits whose value is in range. -/
def ngxAtoi (line : Bytes) : Option Nat := Shm.readNat ngxMaxInt line

/-- `ngx_parse_size`: a number with a `k` or an `m` behind it, or without. -/
def ngxParseSize (line : Bytes) : Option Nat :=
  match line.getLast? with
  | none => none
  | some unit =>
    let scale :=
      if unit = 0x4b ∨ unit = 0x6b then 1024
      else if unit = 0x4d ∨ unit = 0x6d then 1048576
      else 1
    (ngxAtoi (if scale = 1 then line else line.dropLast)).bind fun size =>
      if size > ngxMaxInt / scale then none else some (size * scale)

/-! ## One configuration -/

/-- `NGX_CONF_UNSET`. -/
def confUnset : Int := -1

/-- `NGX_CONF_UNSET_UINT` and `NGX_CONF_UNSET_SIZE`. -/
def confUnsetUint : Nat := 18446744073709551615

/-- `NGX_HTTP_WASM_DEFAULT_TIMESLICE_FUEL`. -/
def defaultTimesliceFuel : Nat := 10000

/-- `NGX_HTTP_WASM_DEFAULT_REQUEST_BODY_BUFFER_SIZE`. -/
def defaultRequestBodyBufferSize : Nat := 0

/-- `NGX_HTTP_WASM_DEFAULT_BODY_FILTER_FILE_CHUNK_SIZE`. -/
def defaultBodyFilterFileChunkSize : Nat := 16384

/-- `NGX_HTTP_WASM_DEFAULT_SUBREQUEST_BUFFER_SIZE`. -/
def defaultSubrequestBufferSize : Nat := 65536

/-- `ngx_http_wasm_phase_conf_t`. -/
structure PhaseConf where
  set : Int
  module : Option Nat := none
  modulePath : Option Bytes := none
  exportName : Option Bytes := none

/-- `ngx_http_wasm_conf_t`, without what the balancer keeps of the upstream. -/
structure Conf where
  fuelLimit : Nat
  timesliceFuel : Nat
  requestBodyBufferSize : Nat
  bodyFilterFileChunkSize : Nat
  subrequestBufferSize : Nat
  phase : Phase → PhaseConf
  metricsEndpoint : Int

/-- `create_conf`. -/
def createConf : Conf where
  fuelLimit := confUnsetUint
  timesliceFuel := confUnsetUint
  requestBodyBufferSize := confUnsetUint
  bodyFilterFileChunkSize := confUnsetUint
  subrequestBufferSize := confUnsetUint
  phase := fun _ => { set := confUnset }
  metricsEndpoint := confUnset

/-- `ngx_conf_merge_value`. -/
def mergeValue (conf prev default : Int) : Int :=
  if conf = confUnset then (if prev = confUnset then default else prev) else conf

/-- `ngx_conf_merge_uint_value` and `ngx_conf_merge_size_value`. -/
def mergeUintValue (conf prev default : Nat) : Nat :=
  if conf = confUnsetUint then (if prev = confUnsetUint then default else prev) else conf

/-- `merge_phase_conf`. -/
def mergePhaseConf (parent child : PhaseConf) : PhaseConf where
  set := mergeValue child.set parent.set 0
  module := child.module.or parent.module
  modulePath := child.modulePath.or parent.modulePath
  exportName := child.exportName.or parent.exportName

/-- `merge_conf`. -/
def mergeConf (parent child : Conf) : Conf where
  fuelLimit := mergeUintValue child.fuelLimit parent.fuelLimit defaultFuelLimit
  timesliceFuel := mergeUintValue child.timesliceFuel parent.timesliceFuel defaultTimesliceFuel
  requestBodyBufferSize := mergeUintValue child.requestBodyBufferSize
    parent.requestBodyBufferSize defaultRequestBodyBufferSize
  bodyFilterFileChunkSize := mergeUintValue child.bodyFilterFileChunkSize
    parent.bodyFilterFileChunkSize defaultBodyFilterFileChunkSize
  subrequestBufferSize := mergeUintValue child.subrequestBufferSize
    parent.subrequestBufferSize defaultSubrequestBufferSize
  metricsEndpoint := mergeValue child.metricsEndpoint parent.metricsEndpoint 0
  phase := fun phase => mergePhaseConf (parent.phase phase) (child.phase phase)

/-- `merge_srv_conf`. -/
def mergeSrvConf : Conf → Conf → Conf := mergeConf

/-- What the module makes the `handler` of a location. -/
inductive Handler where
  | content
  | metrics
  deriving Repr, DecidableEq

/-- A location's configuration after the merge. -/
structure LocConf where
  conf : Conf
  handler : Option Handler

/-- `merge_loc_conf`: `content_by_wasm` conflicts with `wasm_metrics`. -/
def mergeLocConf (parent child : Conf) : Option LocConf :=
  let conf := mergeConf parent child
  if (conf.phase .content).set = 1 ∧ conf.metricsEndpoint = 1 then none
  else some {
    conf := conf
    handler :=
      if conf.metricsEndpoint = 1 then some .metrics
      else if (conf.phase .content).set = 1 then some .content
      else none }

/-! ## Directives -/

/-- What a configuration needs from outside: `ngx_conf_full_name`, and `runtime_get_or_load` with the
address of the module it gives. -/
structure Env where
  fullName : Bytes → Option Bytes
  getOrLoad : Bytes → Option Nat

/-- `configure_phase`. -/
def configurePhase (env : Env) (modulePath exportName : Bytes) (dst : PhaseConf) :
    Option PhaseConf :=
  if dst.set = 1 then none
  else
    (env.fullName modulePath).bind fun modulePath =>
      (env.getOrLoad modulePath).map fun module =>
        { set := 1, module := some module, modulePath := some modulePath,
          exportName := some exportName }

/-- The directives of the phases share this body. -/
def phaseBy (phase : Phase) (env : Env) (args : List Bytes) (wcf : Conf) : Option Conf :=
  match args with
  | [modulePath, exportName] =>
    (configurePhase env modulePath exportName (wcf.phase phase)).map fun dst =>
      { wcf with phase := Function.update wcf.phase phase dst }
  | _ => none

def contentBy : Env → List Bytes → Conf → Option Conf := phaseBy .content
def rewriteBy : Env → List Bytes → Conf → Option Conf := phaseBy .rewrite
def serverRewriteBy : Env → List Bytes → Conf → Option Conf := phaseBy .serverRewrite
def headerFilterBy : Env → List Bytes → Conf → Option Conf := phaseBy .headerFilter
def bodyFilterBy : Env → List Bytes → Conf → Option Conf := phaseBy .bodyFilter
def logBy : Env → List Bytes → Conf → Option Conf := phaseBy .log
def sslClientHelloBy : Env → List Bytes → Conf → Option Conf := phaseBy .sslClientHello
def sslCertificateBy : Env → List Bytes → Conf → Option Conf := phaseBy .sslCertificate

/-- The directives with one number share this body. -/
def numberBy (parse : Bytes → Option Nat) (put : Nat → Conf → Conf) (_ : Env) (args : List Bytes)
    (wcf : Conf) : Option Conf :=
  match args with
  | [value] => (parse value).map fun n => put n wcf
  | _ => none

def requestBodyBufferSize : Env → List Bytes → Conf → Option Conf :=
  numberBy ngxParseSize fun size wcf => { wcf with requestBodyBufferSize := size }

def bodyFilterFileChunkSize : Env → List Bytes → Conf → Option Conf :=
  numberBy ngxParseSize fun size wcf => { wcf with bodyFilterFileChunkSize := size }

def subrequestBufferSize : Env → List Bytes → Conf → Option Conf :=
  numberBy ngxParseSize fun size wcf => { wcf with subrequestBufferSize := size }

/-- `fuel_limit`, which may be zero. -/
def fuelLimit : Env → List Bytes → Conf → Option Conf :=
  numberBy ngxAtoi fun n wcf => { wcf with fuelLimit := n }

/-- `timeslice_fuel`, which may not. -/
def timesliceFuel : Env → List Bytes → Conf → Option Conf :=
  numberBy (fun value => (ngxAtoi value).filter (0 < ·)) fun n wcf => { wcf with timesliceFuel := n }

/-- `metrics`. -/
def metrics (_ : Env) (_ : List Bytes) (wcf : Conf) : Option Conf :=
  if wcf.metricsEndpoint = 1 then none else some { wcf with metricsEndpoint := 1 }

/-! ## Commands -/

/-- `NGX_HTTP_MAIN_CONF`, `NGX_HTTP_SRV_CONF` and `NGX_HTTP_LOC_CONF`. -/
inductive Block where
  | http
  | server
  | location
  deriving Repr, DecidableEq

/-- `NGX_HTTP_SRV_CONF_OFFSET` and `NGX_HTTP_LOC_CONF_OFFSET`. -/
inductive Offset where
  | srv
  | loc
  deriving Repr, DecidableEq

/-- An `ngx_command_t`. -/
structure Command where
  contexts : List Block
  nargs : Nat
  set : Env → List Bytes → Conf → Option Conf
  offset : Offset

inductive CommandName where
  | contentByWasm
  | rewriteByWasm
  | serverRewriteByWasm
  | headerFilterByWasm
  | bodyFilterByWasm
  | logByWasm
  | sslClientHelloByWasm
  | sslCertificateByWasm
  | wasmFuelLimit
  | wasmMetrics
  | wasmRequestBodyBufferSize
  | wasmBodyFilterFileChunkSize
  | wasmSubrequestBufferSize
  | wasmTimesliceFuel
  deriving Repr, DecidableEq

/-- `ngx_http_wasm_commands`. -/
def commands : CommandName → Command
  | .contentByWasm => ⟨[.http, .server, .location], 2, contentBy, .loc⟩
  | .rewriteByWasm => ⟨[.http, .server, .location], 2, rewriteBy, .loc⟩
  | .serverRewriteByWasm => ⟨[.http, .server], 2, serverRewriteBy, .srv⟩
  | .headerFilterByWasm => ⟨[.http, .server, .location], 2, headerFilterBy, .loc⟩
  | .bodyFilterByWasm => ⟨[.http, .server, .location], 2, bodyFilterBy, .loc⟩
  | .logByWasm => ⟨[.http, .server, .location], 2, logBy, .loc⟩
  | .sslClientHelloByWasm => ⟨[.http, .server], 2, sslClientHelloBy, .srv⟩
  | .sslCertificateByWasm => ⟨[.http, .server], 2, sslCertificateBy, .srv⟩
  | .wasmFuelLimit => ⟨[.http, .server, .location], 1, fuelLimit, .loc⟩
  | .wasmMetrics => ⟨[.location], 0, metrics, .loc⟩
  | .wasmRequestBodyBufferSize => ⟨[.http, .server, .location], 1, requestBodyBufferSize, .loc⟩
  | .wasmBodyFilterFileChunkSize => ⟨[.http, .server, .location], 1, bodyFilterFileChunkSize, .loc⟩
  | .wasmSubrequestBufferSize => ⟨[.http, .server, .location], 1, subrequestBufferSize, .loc⟩
  | .wasmTimesliceFuel => ⟨[.http, .server, .location], 1, timesliceFuel, .loc⟩

structure Directive where
  name : CommandName
  args : List Bytes

/-- What `ngx_http_conf_ctx_t` holds for the module in a block. -/
structure ConfCtx where
  srv : Conf
  loc : Conf

/-- One directive of a block. -/
def ConfCtx.directive (env : Env) (block : Block) (ctx : ConfCtx) (d : Directive) : Option ConfCtx :=
  let cmd := commands d.name
  if block ∉ cmd.contexts ∨ d.args.length ≠ cmd.nargs then none
  else
    match cmd.offset with
    | .srv => (cmd.set env d.args ctx.srv).map fun srv => { ctx with srv := srv }
    | .loc => (cmd.set env d.args ctx.loc).map fun loc => { ctx with loc := loc }

/-- The directives of a block, in their order. -/
def ConfCtx.block (env : Env) (block : Block) (ctx : ConfCtx) (ds : List Directive) :
    Option ConfCtx := ds.foldlM (ConfCtx.directive env block) ctx

/-! ## Blocks -/

/-- A `server` block: its directives, and the locations in it, each with its own. -/
structure ServerBlock where
  directives : List Directive
  locations : Forest (List Directive)

/-- The `http` block. -/
structure HttpBlock where
  directives : List Directive
  servers : List ServerBlock

/-- A server after the merge. -/
structure Server where
  srv : Conf
  loc : LocConf
  locations : Forest LocConf

/-- A `location` block: read, and merged with the block around it. The server's own configuration is
in its context, where no directive of a location reaches. -/
def loadLocation (env : Env) (srv : Conf) (parent : LocConf) (ds : List Directive) :
    Option LocConf :=
  (ConfCtx.block env .location ⟨srv, createConf⟩ ds).bind fun ctx => mergeLocConf parent.conf ctx.loc

/-- A `server` block: read, merged with the `http` block, and then its locations. -/
def loadServer (env : Env) (http : ConfCtx) (s : ServerBlock) : Option Server :=
  (ConfCtx.block env .server ⟨createConf, createConf⟩ s.directives).bind fun ctx =>
    (mergeLocConf http.loc ctx.loc).bind fun loc =>
      (s.locations.inherit (loadLocation env ctx.srv) loc).map fun locations =>
        ⟨mergeSrvConf http.srv ctx.srv, loc, locations⟩

/-- The whole configuration. -/
def load (env : Env) (h : HttpBlock) : Option (List Server) :=
  (ConfCtx.block env .http ⟨createConf, createConf⟩ h.directives).bind fun ctx =>
    h.servers.mapM (loadServer env ctx)

/-- What a request or a connection of the server `s` finds: `srv_conf`, and the `loc_conf` of the
location at the path `p`, which is the server's own before there is a location. -/
def confsAt (servers : List Server) (s : Nat) (p : List Nat) : Option (Conf × LocConf) :=
  servers[s]?.bind fun server =>
    (server.locations.along p).map fun locs => (server.srv, locs.getLastD server.loc)

/-! ## Hooks -/

/-- `ngx_http_get_module_srv_conf` or `ngx_http_get_module_loc_conf`: what the handler of a hook
asks for. -/
def hookOffset : Phase → Offset
  | .serverRewrite | .sslClientHello | .sslCertificate => .srv
  | .content | .rewrite | .headerFilter | .bodyFilter | .log | .balancer => .loc

/-- The configuration a hook works with. -/
def hookConf (srv loc : Conf) (phase : Phase) : Conf :=
  match hookOffset phase with
  | .srv => srv
  | .loc => loc

/-- What the hooks of a request before its response read. -/
def requestConf (runtimeReady : Bool) (srv loc : Conf) : Request.Conf where
  runtimeSet := true
  runtimeReady := runtimeReady
  set := fun hook => ((hookConf srv loc hook.phaseKind).phase hook.phaseKind).set = 1
  moduleLoaded := fun hook => ((hookConf srv loc hook.phaseKind).phase hook.phaseKind).module.isSome
  srv := ⟨srv.requestBodyBufferSize, srv.fuelLimit, srv.timesliceFuel⟩
  loc := ⟨loc.requestBodyBufferSize, loc.fuelLimit, loc.timesliceFuel⟩

/-- What the other hooks read. -/
def fuelConf (wcf : Conf) : Runtime.FuelConf := ⟨wcf.fuelLimit, wcf.timesliceFuel, none⟩

/-- The execution context of a hook, if it runs. The balancer works with the upstream block's
configuration. -/
def hookExec (runtimeReady : Bool) (srv loc : Conf) (phase : Phase) : Option Machine :=
  let wcf := hookConf srv loc phase
  let request (hook : Request.Hook) :=
    (Request.initRequestExec (requestConf runtimeReady srv loc) hook Request.newCtx).exec.machine
  let other (hook : Runtime.Hook) :=
    hook.execCtx runtimeReady (wcf.phase phase).module.isSome (fuelConf wcf)
  if (wcf.phase phase).set ≠ 1 then none
  else
    match phase with
    | .content => some (request .content)
    | .rewrite => some (request .rewrite)
    | .serverRewrite => some (request .serverRewrite)
    | .headerFilter => some (other .headerFilter)
    | .bodyFilter => some (other .bodyFilter)
    | .log => some (other .log)
    | .sslClientHello => some (other .sslClientHello)
    | .sslCertificate => some (other .sslCertificate)
    | .balancer => none

end NgxWasm.Config
