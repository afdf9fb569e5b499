import NgxWasm.Nginx
import Mathlib.Logic.Function.Basic

/-!
# The metrics zone (`src/ngx_http_wasm_metrics.c`)

A red-black tree of named metrics in shared memory. A configuration load hands its definitions to
`ensureDefinitions`, which links a node for each name that has none; the guests' operations look a
name up and change its value. Nodes are never unlinked, and a reload that keeps the memory keeps
the tree. Everything that touches the tree runs under the mutex of the slab pool, so a run is a list
of loads and calls in the order they took it.

The names are those of the source without the prefix `ngx_http_wasm_metrics_`. As in the store, the
insert callback and the lookup compare each by a function of its own, the tree is any `Rbtree` and the
pool any `SlabPool`. The three writers share a body with the kind and the new value as parameters.
Values are `Int64`, whose sums wrap; where the source's would overflow is in `Metrics.Values`.

Log lines are left out. How the zone is set up is in `Zones`, which definitions a configuration has in
`Metrics.Reload`, and how they are shown in `Metrics.Endpoint`.
-/

namespace NgxWasm.Metrics

open Lib

/-- `NGX_HTTP_WASM_METRIC_MAX_NAME_LEN`. -/
def maxNameLen : Nat := 256

/-- `NGX_HTTP_WASM_METRIC_KIND_COUNTER` and `NGX_HTTP_WASM_METRIC_KIND_GAUGE`. -/
inductive Kind where
  | counter
  | gauge
  deriving Repr, DecidableEq

/-- `ngx_http_wasm_metric_def_t`. -/
structure MetricDef where
  name : Bytes
  kind : Kind
  deriving Repr, DecidableEq

/-- `ngx_http_wasm_metric_node_t` without its links. -/
structure MetricNode where
  hash : UInt32
  name : Bytes
  kind : Kind
  value : Int64
  deriving DecidableEq

/-- `ngx_http_wasm_metrics_ctx_t` in its slab pool. -/
structure Zone (S : SlabPool) where
  tree : BinTree Addr
  mem : Addr → MetricNode
  pool : S.State

variable {S : SlabPool} (rb : Rbtree) (crc32 : Bytes → UInt32)

/-! ## Comparators and lookup -/

/-- The comparison of `rbtree_insert_value`. -/
def insertCmp (n t : MetricNode) : Ordering :=
  if n.hash < t.hash then .lt
  else if n.hash > t.hash then .gt
  else memn2cmp n.name t.name

/-- The comparison of `lookup`. -/
def lookupCmp (hash : UInt32) (name : Bytes) (node : MetricNode) : Ordering :=
  if hash < node.hash then .lt
  else if hash > node.hash then .gt
  else memn2cmp name node.name

/-- `lookup`. -/
def lookup (name : Bytes) (hash : UInt32) (z : Zone S) : Option Addr :=
  z.tree.search fun a => lookupCmp hash name (z.mem a)

/-- `ngx_rbtree_insert` with the callback `rbtree_insert_value`. -/
def link (a : Addr) (z : Zone S) : Zone S :=
  { z with tree := rb.insert (fun t => insertCmp (z.mem a) (z.mem t) == .lt) a z.tree }

/-! ## Loading a configuration -/

/-- `offsetof(ngx_http_wasm_metric_node_t, data)` on a 64-bit platform. -/
def nodeDataOffset : Nat := 64

/-- `alloc_node`. -/
def allocNode (name : Bytes) (kind : Kind) (hash : UInt32) (z : Zone S) : Option Addr × Zone S :=
  match S.alloc z.pool (nodeDataOffset + name.length) with
  | (some a, pool) =>
    (some a, { z with pool := pool, mem := Function.update z.mem a ⟨hash, name, kind, 0⟩ })
  | (none, pool) => (none, { z with pool := pool })

/-- The loop of `ensure_definitions`. -/
def ensureDefinitions : List MetricDef → Zone S → Rc × Zone S
  | [], z => (.ok, z)
  | d :: defs, z =>
    match lookup d.name (crc32 d.name) z with
    | some a => if (z.mem a).kind ≠ d.kind then (.error, z) else ensureDefinitions defs z
    | none =>
      match allocNode d.name d.kind (crc32 d.name) z with
      | (none, z) => (.error, z)
      | (some a, z) => ensureDefinitions defs (link rb a z)

/-! ## The operations -/

/-- The test of a name that every operation starts with, for a zone that is set up. -/
def nameValid (name : Bytes) : Bool := name.length != 0 && decide (name.length ≤ maxNameLen)

/-- The three writers share this body: the metric is looked up, its kind compared, and its value
replaced by `next` of it. -/
def update (kind : Kind) (next : Int64 → Int64) (name : Bytes) (z : Zone S) : Int × Zone S :=
  match lookup name (crc32 name) z with
  | none => (wasmError, z)
  | some a =>
    if (z.mem a).kind ≠ kind then (wasmError, z)
    else
      (wasmOk, { z with
        mem := Function.update z.mem a { z.mem a with value := next (z.mem a).value } })

/-- What `ngx_http_wasm_metrics_counter_inc` makes of a value: the sum, at most `LLONG_MAX`. -/
def saturatingAdd (delta value : Int64) : Int64 :=
  if value > Int64.maxValue - delta then Int64.maxValue else value + delta

/-- `ngx_http_wasm_metrics_counter_inc`. -/
def counterInc (name : Bytes) (delta : Int64) (z : Zone S) : Int × Zone S :=
  if !nameValid name || decide (delta < 0) then (wasmError, z)
  else update crc32 .counter (saturatingAdd delta) name z

/-- `ngx_http_wasm_metrics_gauge_set`. -/
def gaugeSet (name : Bytes) (value : Int64) (z : Zone S) : Int × Zone S :=
  if !nameValid name then (wasmError, z) else update crc32 .gauge (fun _ => value) name z

/-- `ngx_http_wasm_metrics_gauge_add`. -/
def gaugeAdd (name : Bytes) (delta : Int64) (z : Zone S) : Int × Zone S :=
  if !nameValid name then (wasmError, z) else update crc32 .gauge (· + delta) name z

/-- `ngx_http_wasm_metrics_get`: the status, and what is written to `*kind` and `*value`. -/
def metricsGet (name : Bytes) (z : Zone S) : Int × Option (Kind × Int64) :=
  if !nameValid name then (wasmError, none)
  else
    match lookup name (crc32 name) z with
    | none => (wasmNotFound, none)
    | some a => (wasmOk, some ((z.mem a).kind, (z.mem a).value))

/-! ## Runs -/

/-- One call on the zone. -/
inductive Op where
  | load (defs : List MetricDef)
  | counterInc (name : Bytes) (delta : Int64)
  | gaugeSet (name : Bytes) (value : Int64)
  | gaugeAdd (name : Bytes) (delta : Int64)
  | get (name : Bytes)

/-- What a call gives its caller. -/
inductive Reply where
  | loaded (rc : Rc)
  | status (rc : Int)
  | found (rc : Int) (metric : Option (Kind × Int64))
  deriving DecidableEq

/-- One call under the mutex. -/
def exec (op : Op) (z : Zone S) : Reply × Zone S :=
  match op with
  | .load defs => ((.loaded (ensureDefinitions rb crc32 defs z).1),
      (ensureDefinitions rb crc32 defs z).2)
  | .counterInc name delta =>
    (.status (counterInc crc32 name delta z).1, (counterInc crc32 name delta z).2)
  | .gaugeSet name value =>
    (.status (gaugeSet crc32 name value z).1, (gaugeSet crc32 name value z).2)
  | .gaugeAdd name delta =>
    (.status (gaugeAdd crc32 name delta z).1, (gaugeAdd crc32 name delta z).2)
  | .get name => (.found (metricsGet crc32 name z).1 (metricsGet crc32 name z).2, z)

/-- A zone as `init_zone` leaves it in new memory, before the definitions. -/
def emptyZone (mem : Addr → MetricNode) (pool : S.State) : Zone S := ⟨.leaf, mem, pool⟩

end NgxWasm.Metrics
