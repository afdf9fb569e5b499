import NgxWasm.BodyFilter.Chain
import NgxWasm.Lib.Run

/-!
# The tail of the queue (`src/ngx_http_wasm_body_filter.c`)

`body_filter_pending_last` is kept by hand: it points at the place where the next link of
`body_filter_pending` goes. Memory from `ngx_pcalloc` does not satisfy that, and only the body
filter's own creation of the context sets it. A location with another hook may have that hook create
the context first.

* `TailOk.link`: a link through a right tail goes to the end, and the tail moves with it.
* `keeps_process`, `keeps_threadEventHandler` and the lemmas before them: every function of the filter
  keeps a right tail. They are triples of `Lib.Fallible`, one for each function, and hold however it
  ends.
* `wp_createCtx`: what a creation leaves, by which of its allocations succeed.
* `tail_right_iff`: the tail is right in every state of a run exactly if it is the body filter that
  creates the context, and it gets to the end of the creation; a context that another hook created
  has a null pointer there (`tail_null`).

Beside the creation only two places write the pointer: a link moves it on (`Ctx.link`), and the
thread's event resets it where it takes the queue (`Ctx.drain`). What other hooks do to a request is
one event, the creation of a context; memory may be refused in it, as anywhere in the filter.
-/

namespace NgxWasm.BodyFilter

open Lib Lib.Fallible

/-- Where the next link of a list goes. -/
def tailSlot : List Buf → TailSlot
  | [] => .pending
  | _ :: rest => .next rest.length

/-- `body_filter_pending_last` points at the tail of `body_filter_pending`. -/
def TailOk (c : Ctx) : Prop := c.pendingLast = tailSlot c.pending

instance (c : Ctx) : Decidable (TailOk c) := inferInstanceAs (Decidable (_ = _))

theorem tailSlot_ne_null (bufs : List Buf) : tailSlot bufs ≠ .null := by
  cases bufs <;> exact nofun

theorem tailSlot_append (bufs : List Buf) (buf : Buf) :
    tailSlot (bufs ++ [buf]) = .next bufs.length := by
  cases bufs with
  | nil => rfl
  | cons b bs => simp [tailSlot]

/-- **A link through the tail** goes to the end, and the tail moves with it. -/
theorem TailOk.link {c : Ctx} (h : TailOk c) (buf : Buf) :
    (c.link buf).pending = c.pending ++ [buf] ∧ TailOk (c.link buf) := by
  unfold TailOk at h
  cases hp : c.pending with
  | nil =>
    rw [hp] at h
    unfold Ctx.link
    rw [h]
    exact ⟨rfl, rfl⟩
  | cons b bs =>
    rw [hp] at h
    have hall : c.pending.take (bs.length + 1) = c.pending := by
      rw [hp]
      exact List.take_of_length_le (Nat.le_refl _)
    have hlink : c.link buf =
        { c with pending := c.pending ++ [buf], pendingLast := .next (bs.length + 1) } := by
      unfold Ctx.link
      rw [h]
      dsimp only [tailSlot]
      rw [hall]
    rw [hlink, ← hp]
    refine ⟨rfl, ?_⟩
    unfold TailOk
    rw [tailSlot_append, hp]
    rfl

/-- A context with its tail, and no write through null so far. -/
structure Linked (s : State) : Prop where
  created : s.created = true
  tail : TailOk s.ctx
  crashed : s.crashed = false

/-- What `Linked` is about. -/
def State.queue (s : State) : Bool × List Buf × TailSlot × Bool :=
  (s.created, s.ctx.pending, s.ctx.pendingLast, s.crashed)

theorem Linked.congr {s s' : State} (h : Linked s) (hq : s'.queue = s.queue) : Linked s' := by
  obtain ⟨hc, hp, hl, hx⟩ : s'.created = s.created ∧ s'.ctx.pending = s.ctx.pending ∧
      s'.ctx.pendingLast = s.ctx.pendingLast ∧ s'.crashed = s.crashed := by
    simpa [State.queue] using hq
  refine ⟨hc.trans h.created, ?_, hx.trans h.crashed⟩
  unfold TailOk
  rw [hl, hp]
  exact h.tail

/-! ## Every function keeps the tail -/

/-! What allocations and links keep is kept by every function that queues buffers. -/

section Queue

variable {I : State → Prop} (halloc : ∀ size, Keeps (alloc size) I)
include halloc

theorem keeps_copyBuf_of (src : Buf) : Keeps (copyBuf src) I := by
  refine .bind (halloc bufSize) fun _ => .ite ?_ .pure
  exact .ite (.bind (halloc src.data.length) fun _ => .pure) .pure

variable (henqueue : ∀ buf, Keeps (enqueue buf) I)
include henqueue

theorem keeps_queueTail_of (chain : List Buf) : Keeps (queueTail chain) I := by
  induction chain with
  | nil => exact .pure
  | cons buf rest ih =>
    exact .bind (keeps_copyBuf_of halloc buf) fun b => .bind (henqueue b) fun _ => ih

theorem keeps_queueRemaining_of (cl : List Buf) (filePos : Nat) :
    Keeps (queueRemaining cl filePos) I := by
  have htail := keeps_queueTail_of halloc henqueue
  cases cl with
  | nil => exact .pure
  | cons buf rest =>
    refine .ite ?_ (htail (buf :: rest))
    exact .bind (keeps_copyBuf_of halloc buf) fun b => .bind (henqueue _) fun _ => htail rest

end Queue

section Keeps

variable {o : Outside}

/-- An update that leaves the queue alone. -/
theorem keeps_update {g : State → State} (hg : ∀ s, (g s).queue = s.queue) :
    Keeps (update g) Linked :=
  .update fun s h => h.congr (hg s)

theorem keeps_alloc (size : Nat) : Keeps (alloc size) Linked := by
  intro s h
  rw [wp_alloc]
  split <;> exact h.congr rfl

theorem keeps_enqueue (buf : Buf) : Keeps (enqueue buf) Linked := by
  refine .bind (keeps_alloc linkSize) fun _ s h => ?_
  have hne : s.ctx.pendingLast ≠ .null := h.tail ▸ tailSlot_ne_null s.ctx.pending
  rw [wp_bind, wp_read, if_neg hne, wp_update]
  exact ⟨h.created, (h.tail.link buf).2, h.crashed⟩

theorem keeps_append (out : List Buf) (buf : Buf) : Keeps (append out buf) Linked :=
  .bind (keeps_alloc linkSize) fun _ => .pure

theorem keeps_createBuf (chunk : Bytes) (src : Flags) : Keeps (createBuf chunk src) Linked :=
  .bind (keeps_alloc bufSize) fun _ => .pure

theorem keeps_queueTail (chain : List Buf) : Keeps (queueTail chain) Linked :=
  keeps_queueTail_of keeps_alloc keeps_enqueue chain

theorem keeps_queueRemaining (cl : List Buf) (filePos : Nat) :
    Keeps (queueRemaining cl filePos) Linked :=
  keeps_queueRemaining_of keeps_alloc keeps_enqueue cl filePos

theorem keeps_passOn (out : List Buf) : Keeps (passOn o out) Linked :=
  .bind (keeps_update fun _ => rfl) fun _ => .bind .read fun _ => .ite .fail .pure

theorem keeps_passSome (out : List Buf) : Keeps (passSome o out) Linked :=
  .ite .pure (keeps_passOn out)

theorem keeps_runChunk (src : Flags) (chunk : Chunk) : Keeps (runChunk o src chunk) Linked := by
  refine .bind (keeps_update fun _ => rfl) fun _ => .bind .read fun s => ?_
  split
  · exact .fail
  · exact .pure
  · exact .bind (keeps_createBuf _ src) fun _ => .pure

theorem keeps_threadRead : Keeps (threadRead o) Linked :=
  .bind .read fun _ => .bind (keeps_update fun _ => rfl) fun _ =>
    .ite (keeps_update fun _ => rfl) .fail

theorem keeps_scheduleFileChunk (buf : Buf) (rest : List Buf) :
    Keeps (scheduleFileChunk o buf rest) Linked := by
  refine .ite (keeps_queueRemaining rest 0) ?_
  exact .bind (keeps_update fun _ => rfl) fun _ => .bind (keeps_alloc _) fun _ =>
    .bind (keeps_update fun _ => rfl) fun _ => .bind (keeps_queueRemaining _ _) fun _ =>
      .bind keeps_threadRead fun _ => keeps_update fun _ => rfl

theorem keeps_filterBuf (buf : Buf) (out : List Buf) : Keeps (filterBuf o buf out) Linked := by
  unfold filterBuf
  split
  · exact keeps_append out buf
  · exact .bind (keeps_runChunk _ _) fun replacement => keeps_append out _

theorem keeps_process (chain out : List Buf) : Keeps (process o chain out) Linked := by
  induction chain generalizing out with
  | nil =>
    refine .ite (.bind (keeps_update fun s => ?_) fun _ => .pure) ?_
    · split <;> rfl
    · exact .bind (keeps_passOn out) fun rc => .bind (keeps_update fun _ => rfl) fun _ => .pure
  | cons buf rest ih =>
    refine .ite ?_ (.bind (keeps_filterBuf buf out) fun out => ih out)
    exact .bind (keeps_passSome out) fun _ =>
      .bind (keeps_scheduleFileChunk buf rest) fun _ => .bind (keeps_update fun _ => rfl) fun _ => .pure

theorem keeps_completeFileChunk (data : Option Bytes) :
    Keeps (completeFileChunk o data) Linked := by
  refine .bind .read fun s => ?_
  split
  · exact .fail
  · refine .ite .fail (.bind (keeps_runChunk _ _) fun replacement => ?_)
    split
    · exact keeps_append [] _
    · exact .bind (keeps_createBuf _ _) fun buf => keeps_append [] buf

/-- The queue is taken, and its tail is its head again. -/
theorem keeps_drain : Keeps (update (.onCtx .drain)) Linked :=
  .update fun _ h => ⟨h.created, rfl, h.crashed⟩

theorem keeps_threadEventHandler (data : Option Bytes) :
    Keeps (threadEventHandler o data) Linked :=
  .bind (keeps_update fun _ => rfl) fun _ => .bind (keeps_completeFileChunk data) fun out =>
    .bind .read fun s => .bind keeps_drain fun _ =>
      .bind (keeps_process s.ctx.pending out) fun _ => keeps_update fun _ => rfl

theorem keeps_takeChain (chain : List Buf) : Keeps (takeChain o chain) Linked := by
  refine .bind .read fun s => .ite ?_ (keeps_process chain [])
  exact .bind (keeps_queueTail chain) fun _ => .bind (keeps_update fun _ => rfl) fun _ => .pure

/-- The context is there already. -/
theorem keeps_getOrCreateCtx : Keeps getOrCreateCtx Linked := by
  intro s h
  rw [getOrCreateCtx, wp_bind, wp_read, if_pos h.created]
  exact h

theorem keeps_handler (chain : List Buf) : Keeps (handler o chain) Linked :=
  .ite (keeps_passOn chain) (.bind keeps_getOrCreateCtx fun _ => keeps_takeChain chain)

theorem keeps_hook : Keeps getOrCreateHookCtx Linked := by
  intro s h
  rw [getOrCreateHookCtx, wp_bind, wp_read, if_pos h.created]
  exact h

theorem keeps_handle (e : Event) : Keeps (e.handle o) Linked := by
  cases e with
  | hook hook => exact keeps_hook
  | output chain => exact .bind (keeps_handler chain) fun _ => .pure
  | readDone data => exact .bind .read fun s => .ite (keeps_threadEventHandler data) .pure

end Keeps

/-! ## The creation -/

/-- A request that the filter has not seen. -/
structure Untouched (s : State) : Prop where
  created : s.created = false
  aio : s.aio = false
  crashed : s.crashed = false

/-- No context yet, or one with its tail. -/
def Tailed (s : State) : Prop := Linked s ∨ Untouched s

/-- There is memory for the context, and for its cleanup. -/
def ctxFits (s : State) : Bool := s.pool.grants s.pool.next ctxSize
def cleanupFits (s : State) : Bool := s.pool.grants (s.pool.next + 1) cleanupSize

/-- The context is created by the body filter, which gets to the end of its creation. -/
def CreatedByFilter (o : Outside) (s : State) : Event → Prop
  | .hook _ => s.created = true ∨ ctxFits s = false
  | .output chain =>
    s.created = true ∨ chain = [] ∨ o.enabled = false ∨ ctxFits s = false ∨ cleanupFits s = true
  | .readDone _ => True

variable {o : Outside}

/-- **What a creation leaves**: nothing, a context without its cleanup, or a context. -/
theorem wp_createCtx {Q : Unit → State → Prop} {E : State → Prop} {s : State} :
    wp createCtx Q E s ↔
      if ctxFits s then
        if cleanupFits s then Q () { s with pool := s.pool.after 2, created := true, ctx := {} }
        else E { s with pool := s.pool.after 2, created := true, ctx := {} }
      else E { s with pool := s.pool.after 1 } := by
  unfold createCtx
  rw [wp_bind, wp_alloc]
  simp only [wp_bind, wp_update, wp_alloc, wp_pure]
  rfl

/-- A creation by the filter that gets to its end sets the tail. -/
theorem tailed_getOrCreateCtx {s : State} (h : Untouched s)
    (hok : ctxFits s = false ∨ cleanupFits s = true) :
    wp getOrCreateCtx (fun _ => Linked) Tailed s := by
  rw [getOrCreateCtx, wp_bind, wp_read, if_neg (by simp [h.created]), wp_bind, wp_createCtx]
  rcases hok with hctx | hcleanup
  · rw [hctx, if_neg nofun]
    exact .inr ⟨h.created, h.aio, h.crashed⟩
  · rw [hcleanup, if_pos rfl, wp_update]
    split
    · exact ⟨rfl, rfl, h.crashed⟩
    · exact .inr ⟨h.created, h.aio, h.crashed⟩

/-- Passing a chain on is all that the filter does without a context. -/
theorem tailed_passOn {s : State} {chain : List Buf} (h : Untouched s) :
    wp (passOn o chain) (fun _ => Tailed) Tailed s := by
  simp only [passOn, wp_bind, wp_update, wp_read]
  split
  · exact .inr ⟨h.created, h.aio, h.crashed⟩
  · exact .inr ⟨h.created, h.aio, h.crashed⟩

theorem tailed_handler {s : State} {chain : List Buf} (h : Untouched s)
    (hok : CreatedByFilter o s (.output chain)) :
    wp (handler o chain) (fun _ => Tailed) Tailed s := by
  unfold handler
  split
  · exact tailed_passOn h
  · rename_i hrun
    obtain ⟨hchain, henabled⟩ := not_or.mp hrun
    have hfits : ctxFits s = false ∨ cleanupFits s = true := by
      rcases hok with hc | hc | hc | hc
      · exact absurd (h.created.symm.trans hc) Bool.false_ne_true
      · exact absurd hc hchain
      · exact absurd (by simp [hc]) henabled
      · exact hc
    rw [wp_bind]
    refine wp_mono (tailed_getOrCreateCtx h hfits) (fun _ s' hl => ?_) fun _ ht => ht
    exact wp_mono (keeps_takeChain chain s' hl) (fun _ _ => .inl) fun _ => .inl

theorem tailed_handle {s : State} {e : Event} (h : Untouched s) (hok : CreatedByFilter o s e) :
    wp (e.handle o) (fun _ => Tailed) Tailed s := by
  cases e with
  | hook hook =>
    rw [Event.handle, getOrCreateHookCtx, wp_bind, wp_read, if_neg (by simp [h.created]),
      wp_createCtx]
    have hctx : ctxFits s = false :=
      hok.resolve_left fun hc => Bool.false_ne_true (h.created.symm.trans hc)
    rw [hctx, if_neg nofun]
    exact .inr ⟨h.created, h.aio, h.crashed⟩
  | output chain =>
    rw [Event.handle, wp_bind]
    exact tailed_handler h hok
  | readDone data =>
    rw [Event.handle, wp_bind, wp_read, if_neg (by simp [h.aio])]
    exact .inr h

/-- **One step** of a run that meets the condition. -/
theorem tailed_step {s : State} {e : Event} (h : Tailed s) (hok : CreatedByFilter o s e) :
    Tailed (step o s e) := by
  rcases h with h | h
  · exact .inl (keeps_handle e s h).snd
  · exact (tailed_handle h hok).snd

/-! ## The queue's tail -/

/-- **The tail pointer is right**, and an enqueue through it appends. -/
structure TailRight (s : State) : Prop where
  crashed : s.crashed = false
  tail : s.created = true → TailOk s.ctx
  enqueue : ∀ buf, s.created = true → (enqueue buf s).2.crashed = false ∧
    ((enqueue buf s).1 = some () → (enqueue buf s).2.ctx.pending = s.ctx.pending ++ [buf])

theorem Tailed.right {s : State} (h : Tailed s) : TailRight s := by
  rcases h with h | h
  · refine ⟨h.crashed, fun _ => h.tail, fun buf _ => ⟨((keeps_enqueue buf) s h).snd.crashed, ?_⟩⟩
    have hwp : wp (enqueue buf) (fun _ s' => s'.ctx.pending = s.ctx.pending ++ [buf])
        (fun _ => True) s := by
      have hne : s.ctx.pendingLast ≠ .null := h.tail ▸ tailSlot_ne_null s.ctx.pending
      rw [enqueue, wp_bind, wp_alloc]
      split
      · rw [wp_bind, wp_read, if_neg hne, wp_update]
        exact (h.tail.link buf).1
      · trivial
    exact fun hsome => hwp.of_run.1 () hsome
  · have hnew : s.created ≠ true := by simp [h.created]
    exact ⟨h.crashed, fun hc => absurd hc hnew, fun _ hc => absurd hc hnew⟩

/-- A context that is created without its tail. -/
theorem not_right_of_null {s : State} (hc : s.created = true) (hctx : s.ctx = {}) :
    ¬ TailRight s := by
  intro h
  have htail : TailOk s.ctx := h.tail hc
  rw [hctx] at htail
  cases htail

/-- **One step that does not meet the condition**: it leaves a context with a null tail. -/
theorem broken_step {s : State} {e : Event} (hok : ¬ CreatedByFilter o s e) :
    ¬ TailRight (step o s e) := by
  have hnull : wp (e.handle o) (fun _ s' => s'.created = true ∧ s'.ctx = {})
      (fun s' => s'.created = true ∧ s'.ctx = {}) s := by
    cases e with
    | hook hook =>
      obtain ⟨hnew, hctx⟩ := not_or.mp hok
      rw [Event.handle, getOrCreateHookCtx, wp_bind, wp_read, if_neg hnew, wp_createCtx,
        if_pos (by simpa using hctx)]
      split <;> exact ⟨rfl, rfl⟩
    | output chain =>
      simp only [CreatedByFilter, not_or] at hok
      obtain ⟨hnew, hchain, henabled, hctx, hcleanup⟩ := hok
      have hrun : ¬ (chain = [] ∨ (!o.enabled) = true) := by simp [hchain, henabled]
      rw [Event.handle, wp_bind, handler, if_neg hrun, wp_bind, getOrCreateCtx, wp_bind, wp_read,
        if_neg hnew, wp_bind, wp_createCtx, if_pos (by simpa using hctx), if_neg hcleanup]
      exact ⟨rfl, rfl⟩
    | readDone data => exact absurd trivial hok
  obtain ⟨hc, hctx⟩ := hnull.snd
  exact not_right_of_null hc hctx

/-- A request that no hook has seen. -/
def start (p : Abi.Pool) : State := { pool := p }

/-- **In every state of a run** the tail pointer is right exactly if it is the body filter that creates
the context, and it gets to the end of the creation. -/
theorem tail_right_iff (o : Outside) (p : Abi.Pool) (events : List Event) :
    (∀ n, TailRight (runFrom (step o) (start p) (events.take n))) ↔
      Meets (step o) (CreatedByFilter o) (start p) events :=
  meets_iff_always Tailed (.inr ⟨rfl, rfl, rfl⟩) (fun _ h => h.right)
    (fun _ _ h hok => tailed_step h hok) fun _ _ _ hok => broken_step hok

/-- A location with a chunk size of 4, whose guest leaves every chunk alone. -/
def plainOutside : Outside where
  enabled := true
  chunkSize := 4
  guest _ := some none
  next _ := .ok
  posts _ := true

/-- A pool that grants everything. -/
def freePool : Abi.Pool := ⟨fun _ _ => true, 0⟩

/-- A buffer of a file of zeros. -/
def fileBuf (n size : Nat) (flags : Flags) : Buf :=
  { flags with id := .given n, inFile := true, fileLast := size }

/-- The header filter creates the context; the body filter then queues the rest of a file through
null. -/
theorem tail_null :
    let created := step plainOutside (start freePool) (.hook .headerFilter)
    created.created = true ∧ ¬ TailOk created.ctx ∧
      (step plainOutside created (.output [fileBuf 0 6 {}])).crashed = true := by
  decide

end NgxWasm.BodyFilter
