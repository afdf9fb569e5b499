import NgxWasm.Abi.Imports
import NgxWasm.Config.Blocks
import NgxWasm.Lib.Fallible
import NgxWasm.Lib.Ledger

/-!
# The runtime and the modules of a configuration (`src/ngx_http_wasm_runtime.c`)

The main configuration of a cycle owns Wasmtime's engine, the linker with the imports of the guests,
and the compiled modules. `create_main_conf` sets the runtime up, each phase directive of the
configuration file loads its module or finds it among those loaded before, and the end of the process
and of the configuration's pool both tear it down.

* **The runtime**: `init` with its two branches, `define_host_funcs` with the name and type of each
  import, in the order of the source, and `destroy`.
* **The modules**: `get_or_load` with `find_module`, `read_file` and `compile_module`, which takes a
  binary as it is and a text by way of its binary.
* **The phases**: `configure_phase`, which refuses a second directive for a phase, and the directives
  of a file one after the other.
* **A whole cycle** (`lifetime`): created, configured, used by hooks and by the end of the process in
  any order, and its pool destroyed.

What the code acquires from Wasmtime and from the system is on record in `books`, with each use of it
and its release. `NULL` handed to Wasmtime sets `faulted`. What Wasmtime and the system answer comes
in with the arguments; `Sys` holds the answers about files and their contents, and every allocation
may fail.

A hook's run is here only what it takes from the cycle: the engine, the linker and the module, as
`runtime_run` tests and uses them. The run is in `Runtime.Run`, and what is merged of the
configurations in `Config.Blocks`. The configuration flags of Wasmtime and the texts of system errors
are left out.

The names are those of the source without the prefixes `ngx_http_wasm_` and `ngx_http_wasm_runtime_`.
-/

namespace NgxWasm.Config.Loader

open Lib Lib.Fallible
open NgxWasm.Abi

/-! ## What a cycle owns -/

/-- What has to be given back: Wasmtime's objects, and file descriptors. -/
inductive Resource where
  | config
  | engine
  | linker
  | functype
  | module
  | binary
  | message
  | error
  | file
  deriving Repr, DecidableEq

/-- One of them. -/
abbrev Res := Handle Resource

/-- A call of `define_func`: a name, the number of parameters of its type, and the host function.
All parameters, and the one result, are numbers of 32 bits. -/
structure Definition where
  name : String
  params : Nat
  callback : HostFn

/-- `wasmtime_linker_t`, with what it defines. -/
structure Linker where
  handle : Res
  funcs : List Definition := []

/-- `ngx_http_wasm_runtime_state_t`. -/
structure RuntimeState where
  engine : Option Res := none
  linker : Option Linker := none

/-- `wasmtime_module_t`, with the binary it was compiled from. -/
structure Module where
  handle : Res
  binary : Bytes

/-- `ngx_http_wasm_cached_module_t`. -/
structure CachedModule where
  module : Option Module
  modulePath : Bytes

/-- `ngx_http_wasm_main_conf_t`, without the zones. The address of a cached module is its index. -/
structure MainConf where
  modules : List CachedModule := []
  runtime : Option RuntimeState := none

/-- A cycle. -/
structure Cycle where
  books : Books Resource := {}
  wmcf : MainConf := {}
  /-- nginx has got the main configuration from `create_main_conf`. -/
  installed : Bool := false
  /-- `cleanup_main_conf` is registered with the pool. -/
  cleanup : Bool := false
  /-- The configurations of the phases, by their addresses. -/
  phases : Nat → PhaseConf := fun _ => { set := confUnset }
  /-- `NULL` was handed to Wasmtime for an object that it needs. -/
  faulted : Bool := false
  /-- The messages, each with the string it quotes. -/
  log : List (String × Bytes) := []

/-- A function that may return an error. -/
abbrev Setup (α : Type) := Fallible Cycle α

/-! ## Handles -/

def Cycle.setRuntime (rt : Option RuntimeState) (c : Cycle) : Cycle :=
  { c with wmcf := { c.wmcf with runtime := rt } }

def acquire (r : Resource) : Setup Res := fun c =>
  (some (c.books.fresh r), { c with books := c.books.acquire r })

def use (h : Res) : Setup Unit := update fun c => { c with books := c.books.use h }

def release (h : Res) : Setup Unit := update fun c => { c with books := c.books.release h }

/-- A pointer that Wasmtime follows. -/
def Cycle.follow (h : Option Res) (c : Cycle) : Cycle :=
  match h with
  | some h => { c with books := c.books.use h }
  | none => { c with faulted := true }

/-- `rt->engine`. -/
def Cycle.engine? (c : Cycle) : Option Res := c.wmcf.runtime.bind RuntimeState.engine

/-- `rt->linker`. -/
def Cycle.linker? (c : Cycle) : Option Linker := c.wmcf.runtime.bind RuntimeState.linker

def useEngine : Setup Unit := update fun c => c.follow c.engine?

def useLinker : Setup Unit := update fun c => c.follow (c.linker?.map Linker.handle)

def logLine (text : String) (arg : Bytes) : Setup Unit :=
  update fun c => { c with log := (text, arg) :: c.log }

/-- `log_error`: the message is read off the error, and both are deleted. -/
def logError (context : String) (error : Res) : Setup Unit := do
  use error
  let message ← acquire .message
  use message
  logLine ("ngx_wasm: " ++ context) []
  release message
  release error

/-! ## The imports -/

/-- `wasmtime_linker_define_func` refuses a name that is defined; `ok` is whether it succeeds
otherwise. -/
def linkerDefineFunc (ok : Bool) (d : Definition) : Setup (Option Res) := do
  useLinker
  let c ← read
  if c.linker?.any (fun l => l.funcs.any (·.name == d.name)) || !ok then
    let error ← acquire .error
    return some error
  else
    update fun c => c.setRuntime <| c.wmcf.runtime.map fun rt => { rt with
      linker := rt.linker.map fun l => { l with funcs := l.funcs ++ [d] } }
    return none

/-- `define_func`. Its caller has made the type, which it deletes. -/
def defineFunc (ok : String → Bool) (d : Definition) : Setup Unit := do
  let ty ← acquire .functype
  use ty
  let error ← linkerDefineFunc (ok d.name) d
  release ty
  match error with
  | some error => do
    logError d.name error
    fail
  | none => pure ()

/-- The calls of `define_func` in `define_host_funcs`. -/
def definitions : List Definition :=
  [⟨"ngx_wasm_log", 3, hostLog⟩,
    ⟨"ngx_wasm_resp_set_status", 1, hostRespSetStatus⟩,
    ⟨"ngx_wasm_resp_get_status", 0, hostRespGetStatus⟩,
    ⟨"ngx_wasm_metric_counter_inc", 3, hostMetricCounterInc⟩,
    ⟨"ngx_wasm_metric_gauge_set", 3, hostMetricGaugeSet⟩,
    ⟨"ngx_wasm_metric_gauge_add", 3, hostMetricGaugeAdd⟩,
    ⟨"ngx_wasm_balancer_set_peer", 1, hostBalancerSetPeer⟩,
    ⟨"ngx_wasm_shm_get", 4, hostShmGet⟩,
    ⟨"ngx_wasm_shm_exists", 2, hostShmExists⟩,
    ⟨"ngx_wasm_shm_incr", 3, hostShmIncr⟩,
    ⟨"ngx_wasm_shm_set", 4, hostShmSet⟩,
    ⟨"ngx_wasm_shm_set_ex", 5, hostShmSetEx⟩,
    ⟨"ngx_wasm_shm_add", 4, hostShmAdd⟩,
    ⟨"ngx_wasm_shm_replace", 4, hostShmReplace⟩,
    ⟨"ngx_wasm_shm_delete", 2, hostShmDelete⟩,
    ⟨"ngx_wasm_ssl_get_server_name", 2, hostSslGetServerName⟩,
    ⟨"ngx_wasm_ssl_reject_handshake", 1, hostSslRejectHandshake⟩,
    ⟨"ngx_wasm_ssl_set_certificate", 4, hostSslSetCertificate⟩,
    ⟨"ngx_wasm_req_set_header", 4, hostReqSetHeader⟩,
    ⟨"ngx_wasm_req_get_header", 4, hostReqGetHeader⟩,
    ⟨"ngx_wasm_var_get", 4, hostVarGet⟩,
    ⟨"ngx_wasm_var_set", 4, hostVarSet⟩,
    ⟨"ngx_wasm_time_unix_ms", 2, hostTimeUnixMs⟩,
    ⟨"ngx_wasm_time_monotonic_ms", 2, hostTimeMonotonicMs⟩,
    ⟨"ngx_wasm_subreq_set_header", 4, hostSubreqSetHeader⟩,
    ⟨"ngx_wasm_subreq", 6, hostSubreq⟩,
    ⟨"ngx_wasm_subreq_get_status", 0, hostSubreqGetStatus⟩,
    ⟨"ngx_wasm_subreq_get_header", 4, hostSubreqGetHeader⟩,
    ⟨"ngx_wasm_subreq_get_body", 2, hostSubreqGetBody⟩,
    ⟨"ngx_wasm_subreq_get_body_len", 0, hostSubreqGetBodyLen⟩,
    ⟨"ngx_wasm_resp_set_header", 4, hostRespSetHeader⟩,
    ⟨"ngx_wasm_resp_get_header", 4, hostRespGetHeader⟩,
    ⟨"ngx_wasm_resp_get_body_chunk", 2, hostRespGetBodyChunk⟩,
    ⟨"ngx_wasm_resp_get_body_chunk_eof", 0, hostRespGetBodyChunkEof⟩,
    ⟨"ngx_wasm_resp_set_body_chunk", 2, hostRespSetBodyChunk⟩,
    ⟨"ngx_wasm_req_get_body", 2, hostReqGetBody⟩,
    ⟨"ngx_wasm_resp_write", 2, hostRespWrite⟩,
    ⟨"ngx_wasm_yield", 0, hostYield⟩]

/-- One call after the other, up to the first that fails. -/
def defineAll (ok : String → Bool) : List Definition → Setup Unit
  | [] => pure ()
  | d :: ds => do
    defineFunc ok d
    defineAll ok ds

/-- `define_host_funcs`. -/
def defineHostFuncs (ok : String → Bool) : Setup Unit := defineAll ok definitions

/-! ## The runtime -/

/-- A cached module's share in `destroy`. -/
def CachedModule.delete (m : CachedModule) (b : Books Resource) : Books Resource :=
  match m.module with
  | some module => b.release module.handle
  | none => b

/-- `destroy`: the modules, the linker, the engine, each set to `NULL`. -/
def Cycle.destroy (c : Cycle) : Cycle :=
  match c.wmcf.runtime with
  | none => c
  | some rt =>
    let b := c.wmcf.modules.foldl (fun b m => m.delete b) c.books
    let b := match rt.linker with
      | some l => b.release l.handle
      | none => b
    let b := match rt.engine with
      | some e => b.release e
      | none => b
    { c with
      books := b
      wmcf := ⟨c.wmcf.modules.map fun m => { m with module := none },
        some { engine := none, linker := none }⟩ }

/-- What Wasmtime and the allocator answer while the main configuration is created. -/
structure InitEnv where
  confOk : Bool
  modulesOk : Bool
  definitionsOk : Bool
  runtimeOk : Bool
  configOk : Bool
  engineOk : Bool
  linkerOk : Bool
  defineOk : String → Bool
  cleanupOk : Bool

/-- The branch of `init` that has an engine. -/
def initLinker (env : InitEnv) : Setup Unit := do
  useEngine
  if !env.linkerOk then
    logLine "ngx_wasm: failed to create Wasmtime linker" []
    update fun c => c.destroy.setRuntime none
    fail
  else
    let linker ← acquire .linker
    update fun c => c.setRuntime <| c.wmcf.runtime.map fun rt => { rt with linker := some ⟨linker, []⟩ }
    match ← attempt (defineHostFuncs env.defineOk) with
    | none => do
      update fun c => c.destroy.setRuntime none
      fail
    | some () => pure ()

/-- `init`. The engine takes the configuration over. -/
def init (env : InitEnv) : Setup Unit := do
  let c ← read
  if c.wmcf.runtime.isSome then return ()
  else if !env.runtimeOk then fail
  else
    update fun c => c.setRuntime (some {})
    if !env.configOk then
      logLine "ngx_wasm: failed to create Wasmtime config" []
      fail
    else
      let config ← acquire .config
      use config
      release config
      if !env.engineOk then
        logLine "ngx_wasm: failed to create Wasmtime engine" []
        update fun c => c.setRuntime none
        fail
      else
        let engine ← acquire .engine
        update fun c => c.setRuntime <| c.wmcf.runtime.map fun rt => { rt with engine := some engine }
        initLinker env

/-- `create_main_conf`. -/
def createMainConf (env : InitEnv) : Setup Unit := do
  if !env.confOk || !env.modulesOk || !env.definitionsOk then fail
  else
    init env
    if !env.cleanupOk then
      update Cycle.destroy
      fail
    else update fun c => { c with cleanup := true, installed := true }

/-! ## Modules -/

/-- What an open file answers: whether `fstat` succeeds, `st_size`, and what one read of that many
bytes gives, `none` for an error. -/
structure File where
  statOk : Bool
  size : Int
  data : Option Bytes

/-- The system and Wasmtime: the file of a name, whether a binary compiles, and `wasmtime_wat2wasm`. -/
structure Sys where
  openFile : Bytes → Option File
  moduleNew : Bytes → Bool
  wat2wasm : Bytes → Option Bytes

/-- The allocations of one `get_or_load`. -/
structure LoadEnv where
  entryOk : Bool
  pathOk : Bool
  dataOk : Bool
  pushOk : Bool

/-- A string up to its first `NUL`, as the system and `ngx_strncmp` read it. -/
def cString (s : Bytes) : Bytes := s.takeWhile (· ≠ 0)

/-- Two paths that `find_module` takes for one. -/
def samePath (a b : Bytes) : Bool := a.length == b.length && cString a == cString b

/-- `find_module`. -/
def findModule (wmcf : MainConf) (path : Bytes) : Option Nat :=
  wmcf.modules.findIdx? fun m => samePath m.modulePath path

/-- `read_file`. -/
def readFile (sys : Sys) (dataOk : Bool) (path : Bytes) : Setup Bytes :=
  match sys.openFile (cString path) with
  | none => do
    logLine "ngx_wasm: failed to open module" (cString path)
    fail
  | some file => do
    let fd ← acquire .file
    use fd
    if !file.statOk then
      logLine "ngx_wasm: failed to stat module" (cString path)
      release fd
      fail
    else if file.size < 0 ∨ ngxMaxInt < file.size then
      logLine "ngx_wasm: invalid module size for" (cString path)
      release fd
      fail
    else if !dataOk then
      release fd
      fail
    else
      use fd
      release fd
      match file.data with
      | none => do
        logLine "ngx_wasm: failed to read module" (cString path)
        fail
      | some data =>
        if (data.length : Int) ≠ file.size then
          logLine "ngx_wasm: failed to read module" (cString path)
          fail
        else return data

/-- `wasmtime_module_new`. -/
def moduleNew (sys : Sys) (binary : Bytes) : Setup (Except Res Module) := do
  useEngine
  if sys.moduleNew binary then
    let module ← acquire .module
    return .ok ⟨module, binary⟩
  else
    let error ← acquire .error
    return .error error

/-- `wasm_magic`. -/
def wasmMagic : Bytes := [0x00, 0x61, 0x73, 0x6d]

/-- The test of `compile_module` for a binary. -/
def isBinary (bytes : Bytes) : Bool :=
  wasmMagic.length ≤ bytes.length && bytes.take wasmMagic.length == wasmMagic

/-- `compile_module`: a binary as it is, a text by way of its binary. -/
def compileModule (sys : Sys) (bytes : Bytes) : Setup (Except Res Module) :=
  if isBinary bytes then moduleNew sys bytes
  else
    match sys.wat2wasm bytes with
    | none => do
      let error ← acquire .error
      return .error error
    | some wasm => do
      let binary ← acquire .binary
      use binary
      let r ← moduleNew sys wasm
      release binary
      return r

/-- What follows the search in `get_or_load`. -/
def loadModule (sys : Sys) (env : LoadEnv) (path : Bytes) : Setup Nat := do
  if !env.entryOk || !env.pathOk then fail
  else
    let bytes ← readFile sys env.dataOk path
    match ← compileModule sys bytes with
    | .error error => do
      logError "failed to compile guest module" error
      fail
    | .ok module =>
      if !env.pushOk then
        release module.handle
        fail
      else
        let c ← read
        update fun c => { c with
          wmcf := { c.wmcf with modules := c.wmcf.modules ++ [⟨some module, path⟩] } }
        return c.wmcf.modules.length

/-- `get_or_load`. -/
def getOrLoad (sys : Sys) (env : LoadEnv) (path : Bytes) : Setup Nat := do
  let c ← read
  match findModule c.wmcf path with
  | some i => return i
  | none => loadModule sys env path

/-! ## The phases -/

/-- A phase directive: the configuration it writes to, its arguments, `ngx_conf_full_name` and the
answers to `get_or_load`. -/
structure PhaseDirective where
  slot : Nat
  modulePath : Bytes
  exportName : Bytes
  fullName : Bytes → Option Bytes
  sys : Sys
  env : LoadEnv

def Cycle.setPhase (i : Nat) (dst : PhaseConf) (c : Cycle) : Cycle :=
  { c with phases := Function.update c.phases i dst }

/-- `configure_phase`: `NGX_DECLINED` for a phase that is set is `false`. -/
def configurePhase (d : PhaseDirective) : Setup Bool := do
  let c ← read
  let dst := c.phases d.slot
  if dst.set = 1 then return false
  else
    let dst := { dst with
      modulePath := some d.modulePath
      exportName := some d.exportName
      set := 1 }
    update (Cycle.setPhase d.slot dst)
    match d.fullName d.modulePath with
    | none => fail
    | some path => do
      let dst := { dst with modulePath := some path }
      update (Cycle.setPhase d.slot dst)
      let module ← attempt (getOrLoad d.sys d.env path)
      update (Cycle.setPhase d.slot { dst with module := module })
      match module with
      | none => fail
      | some _ => return true

/-- The directives of the file: one that is a duplicate or fails ends the configuration. -/
def configure : List PhaseDirective → Setup Unit
  | [] => pure ()
  | d :: ds => do
    if ← configurePhase d then configure ds else fail

/-! ## A cycle from its creation to its end -/

/-- The module that a phase configuration points to. -/
def Cycle.module? (c : Cycle) (conf : PhaseConf) : Option Module :=
  conf.module.bind fun i => c.wmcf.modules[i]?.bind CachedModule.module

/-- `ctx->runtime` with its engine and its linker, as `runtime_run` tests it. -/
def Cycle.runtimeReady (c : Cycle) : Bool := c.engine?.isSome && c.linker?.isSome

/-- `ctx->conf->module->module`, as `runtime_run` tests it. -/
def Cycle.moduleLoaded (c : Cycle) (conf : PhaseConf) : Bool := (c.module? conf).isSome

/-- One run of a hook on a fresh execution context: what it returns, and the objects that the store,
the instance and the call of the export are made from. -/
def Cycle.hook (slot : Nat) (phase : Runtime.Phase) (fuelLimit timesliceFuel : Nat)
    (input : Runtime.RunInput) (c : Cycle) : Rc × Cycle :=
  let conf := c.phases slot
  let rc := (Runtime.run input (Runtime.initExecCtx c.runtimeReady (c.moduleLoaded conf) phase
    fuelLimit timesliceFuel)).1
  (rc,
    if c.runtimeReady && c.moduleLoaded conf then
      ((c.follow c.engine?).follow (c.linker?.map Linker.handle)).follow
        ((c.module? conf).map Module.handle)
    else c)

/-- What happens to a cycle once it is configured. -/
inductive Use where
  | hook (slot : Nat) (phase : Runtime.Phase) (fuelLimit timesliceFuel : Nat)
      (input : Runtime.RunInput)
  /-- `exit_process`. -/
  | exitProcess
  /-- The configuration's pool is destroyed, which calls `cleanup_main_conf`. -/
  | destroyPool

/-- `exit_process`. -/
def Cycle.exitProcess (c : Cycle) : Cycle := if c.installed then c.destroy else c

/-- `ngx_destroy_pool`: the cleanup handlers run once. -/
def Cycle.destroyPool (c : Cycle) : Cycle :=
  if c.cleanup then { c.destroy with cleanup := false } else c

def useStep (c : Cycle) : Use → Cycle
  | .hook slot phase fuelLimit timesliceFuel input =>
    (c.hook slot phase fuelLimit timesliceFuel input).2
  | .exitProcess => c.exitProcess
  | .destroyPool => c.destroyPool

/-- **A whole cycle**: created, configured and used as far as that succeeds, and its pool destroyed
in the end. -/
def lifetime (env : InitEnv) (ds : List PhaseDirective) (uses : List Use) : Cycle :=
  let r := (createMainConf env >>= fun _ => configure ds) {}
  match r.1 with
  | none => r.2.destroyPool
  | some () => (runFrom useStep r.2 uses).destroyPool

end NgxWasm.Config.Loader
