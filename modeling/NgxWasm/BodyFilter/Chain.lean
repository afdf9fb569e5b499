import NgxWasm.Abi.Ctx
import NgxWasm.Lib.Fallible

/-!
# The body filter (`src/ngx_http_wasm_body_filter.c`)

nginx hands the filter chains of buffers. The filter runs its guest on each buffer in memory, and
passes the buffer, or what the guest put in its place, to the next filter. A buffer in a file is read
in chunks by a thread: the rest of the buffer and of the chain waits in `pending`, and the thread's
event takes it up again. The build is one with threads.

## What is translated

* The handler and its loop over a chain (`handler`, `process`), the scheduling of a chunk of a file
  and what is done when it has been read (`scheduleFileChunk`, `completeFileChunk`,
  `threadEventHandler`), and the functions on the queue and on buffers, all under the source's names.
* The queue with its tail pointer: `TailSlot` says which place `body_filter_pending_last` points at,
  so a pointer that is null or points elsewhere can be told from one at the tail.
* A buffer is either one that the filter was handed or one it has allocated (`BufId`). Its flags and
  the bytes it holds are kept, and its place in a file; the start and end of its memory, which no
  function here reads, are not.

A function that fails returns `NGX_ERROR` (`Fallible`); `ngx_palloc` may fail at each allocation.
What the filter calls outside of itself is in `Outside`: the guest, the next filter and the thread
pool. The state keeps what they were given.

## What is not

The guest is a function from the chunks it was given so far to what it sets for the last one; how it
is run, with which fuel, is in `Runtime` (the hook's execution context is `Runtime.Hook.execCtx`). Log
lines are left out, and so is a thread event for a request that has been terminated in the meantime.
-/

namespace NgxWasm.BodyFilter

open Abi Lib Lib.Fallible

/-! ## Buffers -/

/-- The flags of `ngx_buf_t` that the filter reads. -/
structure Flags where
  flush : Bool := false
  sync : Bool := false
  lastBuf : Bool := false
  lastInChain : Bool := false
  deriving DecidableEq

def Flags.eof (f : Flags) : Bool := f.lastBuf || f.lastInChain

/-- A buffer that the filter was handed, or the one of its `n`-th allocation. -/
inductive BufId where
  | given (n : Nat)
  | made (n : Nat)
  deriving DecidableEq

/-- `ngx_buf_t`. The bytes from `pos` to `last` are `data`, and the file has the byte `file i` at `i`. -/
structure Buf extends Flags where
  id : BufId
  /-- `ngx_buf_in_memory`. -/
  inMemory : Bool := false
  data : Bytes := []
  inFile : Bool := false
  file : Nat → UInt8 := fun _ => 0
  filePos : Nat := 0
  fileLast : Nat := 0

/-- `ngx_buf_special`. -/
def Buf.special (b : Buf) : Bool := (b.flush || b.lastBuf || b.sync) && !b.inMemory && !b.inFile

/-- The bytes of a file from `pos` on. -/
def fileBytes (file : Nat → UInt8) (pos size : Nat) : Bytes :=
  (List.range size).map fun i => file (pos + i)

/-- What a run of the guest is given. -/
structure Chunk where
  data : Bytes
  eof : Bool
  deriving DecidableEq

/-! ## The state -/

/-- `body_filter_pending_last`: null, `&ctx->body_filter_pending`, or the `next` of a link. -/
inductive TailSlot where
  | null
  | pending
  | next (link : Nat)
  deriving DecidableEq

/-- The fields of `ngx_http_wasm_ctx_t` that the filter uses, as `ngx_pcalloc` leaves them. -/
structure Ctx where
  pending : List Buf := []
  pendingLast : TailSlot := .null
  waiting : Bool := false
  readFile : Nat → UInt8 := fun _ => 0
  readOffset : Nat := 0
  readSize : Nat := 0
  chunk : Flags := {}

/-- A request. -/
structure State where
  pool : Pool
  /-- `ngx_http_get_module_ctx` is not null. -/
  created : Bool := false
  ctx : Ctx := {}
  /-- The bit `NGX_HTTP_WASM_BUFFERED` of `r->buffered`. -/
  buffered : Bool := false
  /-- `r->aio`: a read is in flight. -/
  aio : Bool := false
  /-- The reads that were handed to the thread pool. -/
  posted : Nat := 0
  given : List Chunk := []
  passed : List (List Buf) := []
  /-- A null pointer was written to. -/
  crashed : Bool := false

/-- What the filter calls, and its configuration. -/
structure Outside where
  /-- The location has a body filter and a runtime, and the request is not `header_only`. -/
  enabled : Bool
  /-- `body_filter_file_chunk_size`. -/
  chunkSize : Nat
  /-- A run of the guest after all it was given: `none` if it does not return `NGX_OK`, else the chunk
  it set, if it set one. -/
  guest : List Chunk → Option (Option Bytes)
  /-- `ngx_http_wasm_next_body_filter`, after all that was passed to it. -/
  next : List (List Buf) → Rc
  /-- The `n`-th read is posted: `ngx_thread_read` returns `NGX_AGAIN`. -/
  posts : Nat → Bool

/-- `sizeof` of `ngx_chain_t`, `ngx_buf_t` and `ngx_pool_cleanup_t`, and a size for
`ngx_http_wasm_ctx_t`. -/
def linkSize : Nat := 16
def bufSize : Nat := 80
def cleanupSize : Nat := 24
def ctxSize : Nat := 2048

/-! ## Functions -/

/-- `ngx_palloc` and its variants: the number of the allocation. -/
def alloc (size : Nat) : Fallible State Nat := fun s =>
  (if (s.pool.alloc size).1 then some s.pool.next else none,
    { s with pool := (s.pool.alloc size).2 })

theorem wp_alloc {size : Nat} {Q : Nat → State → Prop} {E : State → Prop} {s : State} :
    wp (alloc size) Q E s ↔
      if s.pool.grants s.pool.next size then Q s.pool.next { s with pool := s.pool.after 1 }
      else E { s with pool := s.pool.after 1 } := by
  unfold wp alloc Pool.alloc
  dsimp only
  split <;> rename_i heq <;> split at heq <;> cases heq <;> simp_all [Pool.after]

/-- A new context, with its cleanup. -/
def createCtx : Fallible State Unit := do
  let _ ← alloc ctxSize
  update fun s => { s with created := true, ctx := {} }
  let _ ← alloc cleanupSize

/-- A change of the context. -/
def State.onCtx (f : Ctx → Ctx) (s : State) : State := { s with ctx := f s.ctx }

def Ctx.setPendingLast (slot : TailSlot) (c : Ctx) : Ctx := { c with pendingLast := slot }

/-- `ngx_http_wasm_body_filter_get_or_create_ctx`. -/
def getOrCreateCtx : Fallible State Unit := do
  let s ← read
  if s.created then pure ()
  else
    createCtx
    update (.onCtx (.setPendingLast .pending))

/-- The same in the other hooks. -/
def getOrCreateHookCtx : Fallible State Unit := do
  let s ← read
  if s.created then pure () else createCtx

/-- `*ctx->body_filter_pending_last = cl`, where it is not null. -/
def Ctx.link (buf : Buf) (c : Ctx) : Ctx :=
  match c.pendingLast with
  | .null => c
  | .pending => { c with pending := [buf], pendingLast := .next 0 }
  | .next i => { c with pending := c.pending.take (i + 1) ++ [buf], pendingLast := .next (i + 1) }

/-- `ngx_http_wasm_body_filter_enqueue`. -/
def enqueue (buf : Buf) : Fallible State Unit := do
  let _ ← alloc linkSize
  let s ← read
  if s.ctx.pendingLast = .null then
    update fun s => { s with crashed := true }
    fail
  else update (.onCtx (.link buf))

/-- `ngx_http_wasm_body_filter_append`. -/
def append (out : List Buf) (buf : Buf) : Fallible State (List Buf) := do
  let _ ← alloc linkSize
  pure (out ++ [buf])

/-- `ngx_http_wasm_body_filter_create_buf`. -/
def createBuf (chunk : Bytes) (src : Flags) : Fallible State Buf := do
  let n ← alloc bufSize
  pure { src with id := .made n, inMemory := true, data := chunk }

/-- `ngx_http_wasm_body_filter_copy_buf`. -/
def copyBuf (src : Buf) : Fallible State Buf := do
  let n ← alloc bufSize
  if src.inMemory then
    if src.data ≠ [] then
      let _ ← alloc src.data.length
    pure { src with id := .made n, inFile := false }
  else pure { src with id := .made n }

/-- `ngx_http_wasm_body_filter_queue_tail`. -/
def queueTail : List Buf → Fallible State Unit
  | [] => pure ()
  | buf :: rest => do
    let buf ← copyBuf buf
    enqueue buf
    queueTail rest

/-- The rest of a buffer from `filePos` on. -/
def Buf.from (filePos : Nat) (b : Buf) : Buf :=
  { b with filePos := filePos, fileLast := if b.fileLast < filePos then filePos else b.fileLast }

/-- `ngx_http_wasm_body_filter_queue_remaining`. -/
def queueRemaining (cl : List Buf) (filePos : Nat) : Fallible State Unit :=
  match cl with
  | [] => pure ()
  | buf :: rest =>
    if filePos ≠ 0 ∧ buf.inFile then do
      let buf ← copyBuf buf
      enqueue (buf.from filePos)
      queueTail rest
    else queueTail (buf :: rest)

variable (o : Outside)

/-- `ngx_http_wasm_next_body_filter`. -/
def passOn (out : List Buf) : Fallible State Rc := do
  update fun s => { s with passed := s.passed ++ [out] }
  let s ← read
  if o.next s.passed = .error then fail else pure (o.next s.passed)

/-- What the loop has so far is passed on, if there is any. -/
def passSome (out : List Buf) : Fallible State Rc := if out = [] then pure .ok else passOn o out

/-- `ngx_http_wasm_body_filter_run_chunk`: the buffer that replaces the chunk, if there is one. -/
def runChunk (src : Flags) (chunk : Chunk) : Fallible State (Option Buf) := do
  update fun s => { s with given := s.given ++ [chunk] }
  let s ← read
  match o.guest s.given with
  | none => fail
  | some none => pure none
  | some (some output) => do
    let buf ← createBuf output src
    pure (some buf)

/-- The fields of a read: all but the flags are set before there is a buffer for it. -/
def Ctx.setRead (buf : Buf) (size : Nat) (c : Ctx) : Ctx :=
  { c with readFile := buf.file, readOffset := buf.filePos, readSize := size }

def Ctx.setChunk (flags : Flags) (c : Ctx) : Ctx := { c with chunk := flags }

def Ctx.setWaiting (waiting : Bool) (c : Ctx) : Ctx := { c with waiting := waiting }

/-- `ngx_thread_read`, which hands the read to the thread pool. -/
def threadRead : Fallible State Unit := do
  let s ← read
  update fun s => { s with posted := s.posted + 1 }
  if o.posts s.posted then update fun s => { s with aio := true } else fail

/-- What is left of the file, and how much of it the next chunk takes. -/
def Buf.available (b : Buf) : Nat := b.fileLast - b.filePos

def nextSize (buf : Buf) : Nat :=
  if buf.available > o.chunkSize then o.chunkSize else buf.available

/-- The flags of the buffer go with its last chunk. -/
def chunkFlags (buf : Buf) : Flags := if nextSize o buf = buf.available then buf.toFlags else {}

/-- `ngx_http_wasm_body_filter_schedule_file_chunk`. -/
def scheduleFileChunk (buf : Buf) (rest : List Buf) : Fallible State Unit :=
  if buf.fileLast ≤ buf.filePos then queueRemaining rest 0
  else do
    update (.onCtx (.setRead buf (nextSize o buf)))
    let _ ← alloc (nextSize o buf)
    update (.onCtx (.setChunk (chunkFlags o buf)))
    queueRemaining (buf :: rest) (buf.filePos + nextSize o buf)
    threadRead o
    update (.onCtx (.setWaiting true))

/-- What the guest is run on, for a buffer that is not read from a file. -/
def Buf.chunk (b : Buf) : Option Chunk :=
  if b.inMemory then
    if b.data ≠ [] || b.eof then some ⟨b.data, b.eof⟩ else none
  else if b.special && b.eof then some ⟨[], b.eof⟩
  else none

/-- One step of the loop, for a buffer that is not read from a file. -/
def filterBuf (buf : Buf) (out : List Buf) : Fallible State (List Buf) :=
  match buf.chunk with
  | none => append out buf
  | some chunk => do
    let replacement ← runChunk o buf.toFlags chunk
    append out (replacement.getD buf)

def setBuffered (buffered : Bool) (s : State) : State := { s with buffered := buffered }

/-- A read is in flight, or buffers wait. -/
def Ctx.busy (c : Ctx) : Bool := c.waiting || !c.pending.isEmpty

/-- The buffer is read from its file. -/
def Buf.fromFile (b : Buf) : Bool := !b.inMemory && b.inFile

/-- `ngx_http_wasm_body_filter_process`. -/
def process : List Buf → List Buf → Fallible State Rc
  | [], out => do
    if out = [] then
      update fun s => if s.ctx.busy then s else setBuffered false s
      pure .ok
    else
      let rc ← passOn o out
      update fun s => setBuffered s.ctx.busy s
      pure rc
  | buf :: rest, out =>
    if buf.fromFile ∧ o.chunkSize ≠ 0 then do
      let _ ← passSome o out
      scheduleFileChunk o buf rest
      update (setBuffered true)
      pure .again
    else do
      let out ← filterBuf o buf out
      process rest out

/-- `ngx_http_wasm_body_filter_complete_file_chunk`: the second `ngx_thread_read` returns `data`. -/
def completeFileChunk (data : Option Bytes) : Fallible State (List Buf) := do
  let s ← read
  match data with
  | none => fail
  | some data =>
    if data.length ≠ s.ctx.readSize then fail
    else
      let src := s.ctx.chunk
      match ← runChunk o src ⟨data, src.eof⟩ with
      | some replacement => append [] replacement
      | none => do
        let buf ← createBuf data src
        append [] buf

/-- The handler once it has a context. -/
def takeChain (chain : List Buf) : Fallible State Rc := do
  let s ← read
  if s.ctx.waiting then
    queueTail chain
    update (setBuffered true)
    pure .again
  else process o chain []

/-- `ngx_http_wasm_body_filter_handler`. -/
def handler (chain : List Buf) : Fallible State Rc :=
  if chain = [] ∨ !o.enabled then passOn o chain
  else do
    getOrCreateCtx
    takeChain o chain

/-- The chain that waits is taken, and the queue is empty again. -/
def Ctx.drain (c : Ctx) : Ctx := { c with waiting := false, pending := [], pendingLast := .pending }

/-- `ngx_http_wasm_body_filter_thread_event_handler`, for a request that goes on. -/
def threadEventHandler (data : Option Bytes) : Fallible State Unit := do
  update fun s => { s with aio := false }
  let out ← completeFileChunk o data
  let s ← read
  update (.onCtx .drain)
  let _ ← process o s.ctx.pending out
  update fun s => setBuffered s.ctx.busy s

/-! ## Steps -/

/-- The other hooks that get or create the context of a request. -/
inductive Hook where
  | serverRewrite
  | rewrite
  | content
  | headerFilter
  | log

inductive Event where
  | hook (hook : Hook)
  | output (chain : List Buf)
  | readDone (data : Option Bytes)

/-- The function of an event. A read can only end while it is in flight. -/
def Event.handle : Event → Fallible State Unit
  | .hook _ => getOrCreateHookCtx
  | .output chain => do
    let _ ← handler o chain
  | .readDone data => do
    let s ← read
    if s.aio then threadEventHandler o data else pure ()

def step (s : State) (e : Event) : State := (e.handle o s).2

end NgxWasm.BodyFilter
