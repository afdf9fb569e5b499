import NgxWasm.Shm.Decimal
import Mathlib.Logic.Function.Basic

/-!
# The shared-memory key-value store (`src/ngx_http_wasm_shm.c`)

A zone is a red-black tree and an LRU queue over the same slab chunks. Both link chunks by
address; what a chunk holds is read through `mem`. The names are those of the source without the
prefix `ngx_http_wasm_shm_`.

## What is translated

* **The comparators.** The insert callback compares by `insertCmp` (hash, key length, bytes), the
  lookup by `lookupCmp` (hash, `ngx_memn2cmp`). They are two functions in the source and two here,
  and they do not always agree (`Shm.Lookup`).
* **The internal functions**: `is_expired`, `delete_locked`, `touch_locked`, `evict_lru_locked`, the
  loop of `alloc_node` with its 32 attempts, and `set_locked` with its two paths (`overwrite` where
  the length stays, `reallocate` where it does not). What `get`, `exists`, `incr` and `set_locked`
  have in common at their beginning is `lookupLive`.
* **The eight operations**, `shmGet` to `shmDelete`, each with its checks of the arguments and what
  it returns. The number that `incr` stores is `incrNext`; its text is in `Shm.Decimal`.

Every operation runs under the mutex of the slab pool, so a run of the store (`runCalls`) is a list
of operations in the order they took the lock, whichever workers issued them, each with the cached
clock of its worker.

## What is not

The colours and the child links of the tree are nginx's: a deletion or an insertion goes through
`Rbtree`, which keeps the in-order sequence. The pool is any `SlabPool`, and the hash any function
`crc32`, so what is proved here holds for every tree, allocator and hash. Log lines are left out,
and a zone is one that has been set up (`Zones` is about how it is).
-/

namespace NgxWasm.Shm

open Lib

/-- `NGX_HTTP_WASM_SHM_MAX_KEY_LEN`. -/
def maxKeyLen : Nat := 256

/-- `NGX_HTTP_WASM_SHM_MAX_VALUE_LEN`. -/
def maxValueLen : Nat := 65535

/-- `offsetof(ngx_http_wasm_shm_node_t, data)` on a 64-bit platform. -/
def nodeDataOffset : Nat := 80

/-- The number of attempts of `alloc_node`. -/
def maxAttempts : Nat := 32

/-- `ngx_http_wasm_shm_node_t` without its links: `node.key`, then the key and the value that
share `data`, and the deadline (`0` for none). -/
structure ShmNode where
  hash : UInt32
  key : Bytes
  value : Bytes
  expiresAtMsec : UInt64
  deriving Repr, DecidableEq

/-- `ngx_http_wasm_shm_ctx_t` in its slab pool: the tree, the queue (most recently used first)
and the chunks' contents. -/
structure Zone (S : SlabPool) where
  tree : BinTree Addr
  lru : List Addr
  mem : Addr → ShmNode
  pool : S.State

variable {S : SlabPool} (rb : Rbtree)

/-! ## Comparators and lookup -/

/-- The comparison of `rbtree_insert_value`: by hash, then by key length, then by bytes. -/
def insertCmp (n t : ShmNode) : Ordering :=
  if n.hash < t.hash then .lt
  else if n.hash > t.hash then .gt
  else if n.key.length < t.key.length then .lt
  else if n.key.length > t.key.length then .gt
  else memn2cmp n.key t.key

/-- The comparison of `lookup`: by hash, then by `ngx_memn2cmp`. -/
def lookupCmp (hash : UInt32) (key : Bytes) (node : ShmNode) : Ordering :=
  if hash < node.hash then .lt
  else if hash > node.hash then .gt
  else memn2cmp key node.key

/-- `lookup`. -/
def lookup (key : Bytes) (hash : UInt32) (z : Zone S) : Option Addr :=
  z.tree.search fun a => lookupCmp hash key (z.mem a)

/-- `ngx_rbtree_insert` with the callback `rbtree_insert_value`, then
`ngx_queue_insert_head`. -/
def link (a : Addr) (z : Zone S) : Zone S :=
  { z with
    tree := rb.insert (fun t => insertCmp (z.mem a) (z.mem t) == .lt) a z.tree
    lru := a :: z.lru }

/-! ## Deleting, touching and evicting -/

/-- `is_expired`. -/
def isExpired (entry : ShmNode) (nowMsec : UInt64) : Bool :=
  if entry.expiresAtMsec = 0 then false else decide (nowMsec ≥ entry.expiresAtMsec)

/-- `delete_locked`. -/
def deleteLocked (a : Addr) (z : Zone S) : Zone S :=
  { z with
    lru := z.lru.erase a
    tree := rb.delete z.tree a
    pool := S.free z.pool a }

/-- `touch_locked`. -/
def touchLocked (a : Addr) (z : Zone S) : Zone S :=
  { z with lru := a :: z.lru.erase a }

/-- `evict_lru_locked`: from the back of the queue, the first entry that is not `skip`; `none` is
`NGX_DECLINED`. -/
def evictLruLocked (skip : Option Addr) (z : Zone S) : Option (Zone S) :=
  match z.lru.reverse.find? (fun a => some a != skip) with
  | some a => some (deleteLocked rb a z)
  | none => none

/-- The loop of `alloc_node`, with `n` attempts left. -/
def allocLoop (size : Nat) (skip : Option Addr) : Nat → Zone S → Option Addr × Zone S
  | 0, z => (none, z)
  | n + 1, z =>
    match S.alloc z.pool size with
    | (some a, pool) => (some a, { z with pool := pool })
    | (none, pool) =>
      match evictLruLocked rb skip { z with pool := pool } with
      | some z' => allocLoop size skip n z'
      | none => (none, { z with pool := pool })

/-- `alloc_node`: a fresh chunk holding the entry, without a deadline and not yet linked. -/
def allocNode (key value : Bytes) (hash : UInt32) (skip : Option Addr) (z : Zone S) :
    Option Addr × Zone S :=
  match allocLoop rb (nodeDataOffset + key.length + value.length) skip maxAttempts z with
  | (some a, z) => (some a, { z with mem := Function.update z.mem a ⟨hash, key, value, 0⟩ })
  | (none, z) => (none, z)

/-! ## Writing -/

/-- `lookup`, then `is_expired`, then `delete_locked` on an expired entry: how `get`, `exists`,
`incr` and `set_locked` each begin. -/
def lookupLive (nowMsec : UInt64) (key : Bytes) (hash : UInt32) (z : Zone S) :
    Option Addr × Zone S :=
  match lookup key hash z with
  | none => (none, z)
  | some a => if isExpired (z.mem a) nowMsec then (none, deleteLocked rb a z) else (some a, z)

/-- `set_locked` where the live entry has a value of the same length: rewritten in place. -/
def overwrite (value : Bytes) (expiresAtMsec : UInt64) (a : Addr) (z : Zone S) : Zone S :=
  touchLocked a
    { z with
      mem := Function.update z.mem a
        { z.mem a with value := value, expiresAtMsec := expiresAtMsec } }

/-- `set_locked` where a chunk of another size, or a first chunk, is needed. -/
def reallocate (key value : Bytes) (expiresAtMsec : UInt64) (hash : UInt32) (existing : Option Addr)
    (z : Zone S) : Int × Zone S :=
  match allocNode rb key value hash existing z with
  | (none, z) => (wasmError, z)
  | (some a, z) =>
    let z := { z with
      mem := Function.update z.mem a { z.mem a with expiresAtMsec := expiresAtMsec } }
    let z := match existing with
      | some e => deleteLocked rb e z
      | none => z
    (wasmOk, link rb a z)

/-- `set_locked`. -/
def setLocked (nowMsec : UInt64) (key value : Bytes) (expiresAtMsec : UInt64) (hash : UInt32)
    (requireExists requireMissing : Bool) (z : Zone S) : Int × Zone S :=
  match lookupLive rb nowMsec key hash z with
  | (none, z) =>
    if requireExists then (wasmNotFound, z)
    else reallocate rb key value expiresAtMsec hash none z
  | (some a, z) =>
    if requireMissing then (wasmNotFound, z)
    else if (z.mem a).value.length = value.length then
      (wasmOk, overwrite value expiresAtMsec a z)
    else reallocate rb key value expiresAtMsec hash (some a) z

/-! ## The operations -/

/-- What an operation gives its caller: the return value, and the bytes written to `buf`. -/
structure Reply where
  rc : Int
  bytes : Bytes := []
  deriving Repr, DecidableEq

/-- `key_valid`, for a zone that is set up. -/
def keyValid (key : Bytes) : Bool := key.length != 0 && decide (key.length ≤ maxKeyLen)

variable (crc32 : Bytes → UInt32)

/-- `ngx_http_wasm_shm_get`. -/
def shmGet (nowMsec : UInt64) (key : Bytes) (bufLen : Nat) (z : Zone S) : Reply × Zone S :=
  if !keyValid key then ({ rc := wasmError }, z)
  else
    match lookupLive rb nowMsec key (crc32 key) z with
    | (none, z) => ({ rc := wasmNotFound }, z)
    | (some a, z) =>
      ({ rc := (z.mem a).value.length, bytes := (z.mem a).value.take bufLen }, touchLocked a z)

/-- `ngx_http_wasm_shm_exists`. -/
def shmExists (nowMsec : UInt64) (key : Bytes) (z : Zone S) : Reply × Zone S :=
  if !keyValid key then ({ rc := wasmError }, z)
  else
    match lookupLive rb nowMsec key (crc32 key) z with
    | (none, z) => ({ rc := 0 }, z)
    | (some a, z) => ({ rc := 1 }, touchLocked a z)

/-- The number `ngx_http_wasm_shm_incr` stores over the text `value`, if any. -/
def incrNext (value : Bytes) (delta : Int) : Option Int :=
  match parseI32 value with
  | none => none
  | some current =>
    if current + delta < int32Min || current + delta > int32Max then none
    else some (current + delta)

/-- `ngx_http_wasm_shm_incr`. -/
def shmIncr (nowMsec : UInt64) (key : Bytes) (delta : Int) (z : Zone S) : Reply × Zone S :=
  if !keyValid key then ({ rc := wasmError }, z)
  else if delta < int32Min || delta > int32Max then ({ rc := wasmError }, z)
  else
    match lookupLive rb nowMsec key (crc32 key) z with
    | (none, z) => ({ rc := wasmError }, z)
    | (some a, z) =>
      match incrNext (z.mem a).value delta with
      | none => ({ rc := wasmError }, z)
      | some next =>
        match setLocked rb nowMsec key (formatI32 next) (z.mem a).expiresAtMsec (crc32 key)
          true false z with
        | (rc, z) => ({ rc := if rc ≠ wasmOk then rc else next }, z)

/-- The four writers share this body: the arguments are checked, then `set_locked` runs. -/
def shmWrite (nowMsec : UInt64) (key value : Bytes) (expiresAtMsec : UInt64)
    (requireExists requireMissing : Bool) (z : Zone S) : Reply × Zone S :=
  if !keyValid key || decide (value.length > maxValueLen) then ({ rc := wasmError }, z)
  else
    match setLocked rb nowMsec key value expiresAtMsec (crc32 key) requireExists requireMissing z with
    | (rc, z) => ({ rc := rc }, z)

/-- `ngx_http_wasm_shm_set`. -/
def shmSet (nowMsec : UInt64) (key value : Bytes) (z : Zone S) : Reply × Zone S :=
  shmWrite rb crc32 nowMsec key value 0 false false z

/-- The deadline `ngx_http_wasm_shm_set_ex` stores: a 64-bit sum that avoids the reserved `0`. -/
def deadline (nowMsec ttlMsec : UInt64) : UInt64 :=
  if ttlMsec = 0 then 0 else if nowMsec + ttlMsec = 0 then 1 else nowMsec + ttlMsec

/-- `ngx_http_wasm_shm_set_ex`. -/
def shmSetEx (nowMsec : UInt64) (key value : Bytes) (ttlMsec : UInt64) (z : Zone S) :
    Reply × Zone S :=
  shmWrite rb crc32 nowMsec key value (deadline nowMsec ttlMsec) false false z

/-- `ngx_http_wasm_shm_add`. -/
def shmAdd (nowMsec : UInt64) (key value : Bytes) (z : Zone S) : Reply × Zone S :=
  shmWrite rb crc32 nowMsec key value 0 false true z

/-- `ngx_http_wasm_shm_replace`. -/
def shmReplace (nowMsec : UInt64) (key value : Bytes) (z : Zone S) : Reply × Zone S :=
  shmWrite rb crc32 nowMsec key value 0 true false z

/-- `ngx_http_wasm_shm_delete`. -/
def shmDelete (key : Bytes) (z : Zone S) : Reply × Zone S :=
  if !keyValid key then ({ rc := wasmError }, z)
  else
    match lookup key (crc32 key) z with
    | none => ({ rc := wasmOk }, z)
    | some a => ({ rc := wasmOk }, deleteLocked rb a z)

/-! ## Runs -/

/-- One call of the store, with its arguments. -/
inductive Op where
  | get (key : Bytes) (bufLen : Nat)
  | exists (key : Bytes)
  | incr (key : Bytes) (delta : Int)
  | set (key value : Bytes)
  | setEx (key value : Bytes) (ttlMsec : UInt64)
  | add (key value : Bytes)
  | replace (key value : Bytes)
  | delete (key : Bytes)
  deriving Repr

/-- The key an operation is called with. -/
def Op.key : Op → Bytes
  | .get key _ | .exists key | .incr key _ | .set key _ | .setEx key _ _ | .add key _
  | .replace key _ | .delete key => key

/-- One operation under the mutex, at the cached clock `nowMsec`. -/
def exec (nowMsec : UInt64) : Op → Zone S → Reply × Zone S
  | .get key bufLen => shmGet rb crc32 nowMsec key bufLen
  | .exists key => shmExists rb crc32 nowMsec key
  | .incr key delta => shmIncr rb crc32 nowMsec key delta
  | .set key value => shmSet rb crc32 nowMsec key value
  | .setEx key value ttlMsec => shmSetEx rb crc32 nowMsec key value ttlMsec
  | .add key value => shmAdd rb crc32 nowMsec key value
  | .replace key value => shmReplace rb crc32 nowMsec key value
  | .delete key => shmDelete rb crc32 key

/-- A call: the clock it runs at, and the operation. -/
abbrev Call := UInt64 × Op

/-- The zone after `calls`, from `z`. -/
def runCalls (z : Zone S) (calls : List Call) : Zone S :=
  calls.foldl (fun z c => (exec rb crc32 c.1 c.2 z).2) z

/-- A zone as `ngx_http_wasm_shm_init_zone` leaves it, in a pool with some chunks in use. -/
def emptyZone (mem : Addr → ShmNode) (pool : S.State) : Zone S := ⟨.leaf, [], mem, pool⟩

end NgxWasm.Shm
