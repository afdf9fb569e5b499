import NgxWasm.BodyFilter.Tail

/-!
# When the body filter succeeds (`src/ngx_http_wasm_body_filter.c`)

The filter fails only where something outside of it does: an allocation, the guest, the next filter,
or the thread pool (`Outside.Works`), or where the queue has no tail. With memory for everything and a
context with its tail (`Fed`) no function of it fails, and each leaves such a state.

There is one lemma for each function that may fail, as a triple of `Lib.Fallible`. They complement
the lemmas of the other modules, which say what a function leaves if it succeeds: with both, a run is
known to go on. `BodyFilter.File` and `BodyFilter.Sound` use them that way.
-/

namespace NgxWasm.BodyFilter

open Lib Lib.Fallible

/-- Nothing fails outside of the filter: no run of the guest, not the next filter, and no read. -/
structure Outside.Works (o : Outside) : Prop where
  guest : ∀ given, o.guest given ≠ none
  next : ∀ passed, o.next passed ≠ .error
  posts : ∀ n, o.posts n = true

/-- The pool grants what it is asked for. -/
def Grants (s : State) : Prop := ∀ n size, s.pool.grants n size = true

/-- A context with its tail, and memory for everything. -/
structure Fed (s : State) : Prop where
  linked : Linked s
  grants : Grants s

theorem Fed.congr {s s' : State} (h : Fed s) (hq : s'.queue = s.queue)
    (hp : s'.pool.grants = s.pool.grants) : Fed s' := by
  refine ⟨h.linked.congr hq, fun n size => ?_⟩
  rw [hp]
  exact h.grants n size

/-- An update that leaves the queue and the pool alone. -/
theorem succeeds_update {g : State → State} (hq : ∀ s, (g s).queue = s.queue)
    (hp : ∀ s, (g s).pool.grants = s.pool.grants) : Succeeds (update g) Fed :=
  .update fun s h => h.congr (hq s) (hp s)

theorem succeeds_alloc (size : Nat) : Succeeds (alloc size) Fed := by
  intro s h
  rw [wp_alloc, if_pos (h.grants _ _)]
  exact h.congr rfl rfl

theorem succeeds_enqueue (buf : Buf) : Succeeds (enqueue buf) Fed := by
  refine .bind (succeeds_alloc linkSize) fun _ s h => ?_
  have hne : s.ctx.pendingLast ≠ .null := h.linked.tail ▸ tailSlot_ne_null s.ctx.pending
  rw [wp_bind, wp_read, if_neg hne, wp_update]
  exact ⟨⟨h.linked.created, (h.linked.tail.link buf).2, h.linked.crashed⟩, h.grants⟩

theorem succeeds_append (out : List Buf) (buf : Buf) : Succeeds (append out buf) Fed :=
  .bind (succeeds_alloc linkSize) fun _ => .pure

theorem succeeds_createBuf (chunk : Bytes) (src : Flags) : Succeeds (createBuf chunk src) Fed :=
  .bind (succeeds_alloc bufSize) fun _ => .pure

theorem succeeds_copyBuf (src : Buf) : Succeeds (copyBuf src) Fed := by
  refine .bind (succeeds_alloc bufSize) fun _ => .ite ?_ .pure
  exact .ite (.bind (succeeds_alloc src.data.length) fun _ => .pure) .pure

theorem succeeds_queueTail (chain : List Buf) : Succeeds (queueTail chain) Fed := by
  induction chain with
  | nil => exact .pure
  | cons buf rest ih =>
    exact .bind (succeeds_copyBuf buf) fun b => .bind (succeeds_enqueue b) fun _ => ih

theorem succeeds_queueRemaining (cl : List Buf) (filePos : Nat) :
    Succeeds (queueRemaining cl filePos) Fed := by
  cases cl with
  | nil => exact .pure
  | cons buf rest =>
    refine .ite ?_ (succeeds_queueTail (buf :: rest))
    exact .bind (succeeds_copyBuf buf) fun b => .bind (succeeds_enqueue _) fun _ =>
      succeeds_queueTail rest

section Outside

variable {o : Outside}

theorem succeeds_passOn (ho : o.Works) (out : List Buf) : Succeeds (passOn o out) Fed := by
  refine .bind (succeeds_update (fun _ => rfl) fun _ => rfl) fun _ => .bind .read fun s => ?_
  rw [if_neg (ho.next s.passed)]
  exact .pure

theorem succeeds_passSome (ho : o.Works) (out : List Buf) : Succeeds (passSome o out) Fed :=
  .ite .pure (succeeds_passOn ho out)

theorem succeeds_runChunk (ho : o.Works) (src : Flags) (chunk : Chunk) :
    Succeeds (runChunk o src chunk) Fed := by
  refine .bind (succeeds_update (fun _ => rfl) fun _ => rfl) fun _ => .bind .read fun s => ?_
  split
  · rename_i hnone
    exact absurd hnone (ho.guest s.given)
  · exact .pure
  · exact .bind (succeeds_createBuf _ src) fun _ => .pure

theorem succeeds_threadRead (ho : o.Works) : Succeeds (threadRead o) Fed := by
  refine .bind .read fun s => .bind (succeeds_update (fun _ => rfl) fun _ => rfl) fun _ => ?_
  rw [if_pos (ho.posts s.posted)]
  exact succeeds_update (fun _ => rfl) fun _ => rfl

theorem succeeds_scheduleFileChunk (ho : o.Works) (buf : Buf) (rest : List Buf) :
    Succeeds (scheduleFileChunk o buf rest) Fed := by
  refine .ite (succeeds_queueRemaining rest 0) ?_
  exact .bind (succeeds_update (fun _ => rfl) fun _ => rfl) fun _ => .bind (succeeds_alloc _) fun _ =>
    .bind (succeeds_update (fun _ => rfl) fun _ => rfl) fun _ =>
      .bind (succeeds_queueRemaining _ _) fun _ => .bind (succeeds_threadRead ho) fun _ =>
        succeeds_update (fun _ => rfl) fun _ => rfl

theorem succeeds_filterBuf (ho : o.Works) (buf : Buf) (out : List Buf) :
    Succeeds (filterBuf o buf out) Fed := by
  unfold filterBuf
  split
  · exact succeeds_append out buf
  · exact .bind (succeeds_runChunk ho _ _) fun replacement => succeeds_append out _

theorem succeeds_process (ho : o.Works) (chain out : List Buf) :
    Succeeds (process o chain out) Fed := by
  induction chain generalizing out with
  | nil =>
    refine .ite (.bind (succeeds_update (fun s => ?_) fun s => ?_) fun _ => .pure) ?_
    · split <;> rfl
    · split <;> rfl
    · exact .bind (succeeds_passOn ho out) fun rc =>
        .bind (succeeds_update (fun _ => rfl) fun _ => rfl) fun _ => .pure
  | cons buf rest ih =>
    refine .ite ?_ (.bind (succeeds_filterBuf ho buf out) fun out => ih out)
    exact .bind (succeeds_passSome ho out) fun _ =>
      .bind (succeeds_scheduleFileChunk ho buf rest) fun _ =>
        .bind (succeeds_update (fun _ => rfl) fun _ => rfl) fun _ => .pure

/-- A read that gave the bytes that were asked for. -/
theorem succeeds_completeFileChunk (ho : o.Works) {data : Bytes} {s : State} (h : Fed s)
    (hdata : data.length = s.ctx.readSize) :
    wp (completeFileChunk o (some data)) (fun _ => Fed) (fun _ => False) s := by
  unfold completeFileChunk
  rw [wp_bind, wp_read]
  dsimp only
  rw [if_neg (fun hne => hne hdata)]
  refine Succeeds.bind (succeeds_runChunk ho _ _) (fun replacement => ?_) s h
  split
  · exact succeeds_append [] _
  · exact .bind (succeeds_createBuf _ _) fun buf => succeeds_append [] buf

theorem succeeds_drain : Succeeds (update (.onCtx .drain)) Fed :=
  .update fun _ h => ⟨⟨h.linked.created, rfl, h.linked.crashed⟩, h.grants⟩

theorem succeeds_threadEventHandler (ho : o.Works) {data : Bytes} {s : State} (h : Fed s)
    (hdata : data.length = s.ctx.readSize) :
    wp (threadEventHandler o (some data)) (fun _ => Fed) (fun _ => False) s := by
  unfold threadEventHandler
  rw [wp_bind, wp_update, wp_bind]
  have hfed : Fed { s with aio := false } := h.congr rfl rfl
  refine wp_mono (succeeds_completeFileChunk ho hfed hdata) (fun out s₁ h₁ => ?_) fun _ => id
  refine Succeeds.bind .read (fun s => ?_) s₁ h₁
  exact .bind succeeds_drain fun _ => .bind (succeeds_process ho s.ctx.pending out) fun _ =>
    succeeds_update (fun _ => rfl) fun _ => rfl

theorem succeeds_takeChain (ho : o.Works) (chain : List Buf) : Succeeds (takeChain o chain) Fed := by
  refine .bind .read fun s => .ite ?_ (succeeds_process ho chain [])
  exact .bind (succeeds_queueTail chain) fun _ =>
    .bind (succeeds_update (fun _ => rfl) fun _ => rfl) fun _ => .pure

end Outside

/-- The context is there with its tail, or the filter creates it. -/
theorem succeeds_getOrCreateCtx {s : State} (hg : Grants s) (hx : s.crashed = false)
    (ht : s.created = true → TailOk s.ctx) :
    wp getOrCreateCtx (fun _ => Fed) (fun _ => False) s := by
  rw [getOrCreateCtx, wp_bind, wp_read]
  split
  · rename_i hc
    exact ⟨⟨hc, ht hc, hx⟩, hg⟩
  · have hctx : ctxFits s = true := hg _ _
    have hcleanup : cleanupFits s = true := hg _ _
    rw [wp_bind, wp_createCtx, if_pos hctx, if_pos hcleanup, wp_update]
    exact ⟨⟨rfl, rfl, hx⟩, hg⟩

end NgxWasm.BodyFilter
