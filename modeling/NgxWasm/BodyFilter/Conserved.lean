import NgxWasm.BodyFilter.Delivery
import NgxWasm.Lib.Line

/-!
# Nothing is lost (`src/ngx_http_wasm_body_filter.c`)

Chains may hold files anywhere and arrive during a read, and the guest may replace what it likes. What
the filter has taken in is then in three places (`View.taken`): the guest was given it, or it is being
read, or it is queued.

The queue may stand still: a loop that comes to an empty piece of a file queues what is behind it and
starts no read. A chain that arrives then is not put behind the queue but taken up at once, and its
beginning, up to a file that has something to read, goes ahead of all that is queued. This is the only
way in which anything passes anything else. A read that ends, and the loop over what was queued, change
nothing in the line.

* `conserved`: in every state of every run in which no call has failed, what was taken in is what the
  filter was handed, each chain in its order and the chains as `Line` says; and what it passed on is
  what the guest made of each chunk it was given, in that order (`rewritten`).

The bytes are those of the buffers with the flag that ends the body (`Sym`). That a piece of a file is
read as it is on disk is a condition on the events (`HandsOver`), and that no call fails is one on the
run: after a failure the filter gives the response up.

One lemma for each function says where its buffers end up (`Queued`, and `Made` for what is passed on);
`Queue` is what they need of the tail. The order is that of `Lib.Line`: over a run each chain joins the
line (`inLine_step`), and where it has joined, it stays, since what moves from the queue to the read and
from there to the guest moves from the front.
-/

namespace NgxWasm.BodyFilter

open Lib Lib.Fallible

/-! ## The books -/

/-- What the filter has to hand to the guest for a buffer. An empty piece of a file is dropped, with
its flags. -/
def Buf.brings (b : Buf) : List Sym := if b.fromFile then b.rest else b.stream

/-- What the guest makes of a chunk, the last of those it was given. -/
def Outside.output (o : Outside) (given : List Chunk) (chunk : Chunk) : Bytes :=
  ((o.guest given).getD none).getD chunk.data

/-- What the guest makes of the chunks `cs`, given after `before`. -/
def rewritten (o : Outside) (before : List Chunk) : List Chunk → List Sym
  | [] => []
  | c :: cs => symbols (o.output (before ++ [c]) c) c.eof ++ rewritten o (before ++ [c]) cs

theorem rewritten_concat (o : Outside) (before cs : List Chunk) (c : Chunk) :
    rewritten o before (cs ++ [c]) =
      rewritten o before cs ++ symbols (o.output (before ++ cs ++ [c]) c) c.eof := by
  induction cs generalizing before with
  | nil => simp [rewritten]
  | cons d cs ih =>
    have hbefore : before ++ [d] ++ cs = before ++ d :: cs := by simp
    rw [List.cons_append, rewritten, rewritten, ih, hbefore, List.append_assoc, List.append_assoc]

/-- What is being read. -/
def View.inFlight (v : View) : List Sym := if v.aio then v.ctx.readChunk.stream else []

/-- What is queued. -/
def View.queued (v : View) : List Sym := v.ctx.pending.flatMap Buf.brings

/-- What the guest was given. -/
def View.seen (v : View) : List Sym := v.given.flatMap Chunk.stream

/-- What the filter has taken in: what the guest was given, what is being read, and what is queued. -/
def View.taken (v : View) : List Sym := v.seen ++ v.inFlight ++ v.queued

/-- What was passed on, and `out`, is what the guest made of what it was given. -/
def Made (o : Outside) (out : List Buf) (v : View) : Prop :=
  streamOf (v.passed.flatten ++ out) = rewritten o [] v.given

theorem View.inFlight_of_aio {v : View} (h : v.aio = false) : v.inFlight = [] :=
  if_neg (by rw [h]; exact Bool.false_ne_true)

theorem View.taken_of_aio {v : View} (h : v.aio = false) : v.taken = v.seen ++ v.queued := by
  rw [View.taken, View.inFlight_of_aio h, List.append_nil]

/-- The queue can be linked to, or cannot and is empty; and it holds buffers that are well formed. -/
structure Queue (v : View) : Prop where
  tail : TailOk v.ctx ∨ v.ctx.pendingLast = .null ∧ v.ctx.pending = []
  wellFormed : ∀ b ∈ v.ctx.pending, b.wellFormed

/-! ## What each function does -/

section Functions

variable {o : Outside} {out : List Buf}

theorem wlp_copyBuf_any (src : Buf) (s : State) :
    wlp (copyBuf src)
      (fun buf s' => buf.brings = src.brings ∧ (src.wellFormed → buf.wellFormed) ∧
        s'.view = s.view) s := by
  refine wlp_bind (wlp_alloc bufSize s) fun n s' h => ?_
  split
  · rename_i hmem
    have hbrings : ∀ id, ({ src with id := id, inFile := false } : Buf).brings = src.brings := by
      intro id
      simp [Buf.brings, Buf.fromFile, Buf.stream, Buf.bytes, hmem]
    split
    · refine wlp_bind (wlp_alloc _ s') fun _ s'' h' => ?_
      exact ⟨hbrings _, fun _ => .inl hmem, h'.trans h⟩
    · exact ⟨hbrings _, fun _ => .inl hmem, h⟩
  · exact ⟨rfl, id, h⟩

/-- The queue with some more buffers, well formed if those were that are copied. -/
def Queued (brings : List Sym) (v v' : View) : Prop :=
  Queue v' ∧ ∃ bufs slot, bufs.flatMap Buf.brings = brings ∧
    v' = v.onCtx fun c => { c with pending := c.pending ++ bufs, pendingLast := slot }

theorem Queued.nil {v : View} (h : Queue v) : Queued [] v v :=
  ⟨h, [], v.ctx.pendingLast, rfl, by simp [View.onCtx]⟩

theorem Queued.trans {v₁ v₂ v₃ : View} {l l' : List Sym} (h : Queued l v₁ v₂) (h' : Queued l' v₂ v₃) :
    Queued (l ++ l') v₁ v₃ := by
  obtain ⟨-, bufs, slot, rfl, rfl⟩ := h
  obtain ⟨hq, bufs', slot', rfl, rfl⟩ := h'
  exact ⟨hq, bufs ++ bufs', slot', List.flatMap_append, by simp [View.onCtx]⟩

theorem wlp_enqueue_any {buf : Buf} {s : State} (h : Queue s.view) (hbuf : buf.wellFormed) :
    wlp (enqueue buf) (fun _ s' => Queued buf.brings s.view s'.view) s := by
  refine wlp_bind (wlp_alloc linkSize s) fun _ s' hv => ?_
  rw [← hv] at h ⊢
  rw [wlp_read_bind]
  split
  · trivial
  · rename_i hne
    have htail : TailOk s'.ctx := h.tail.resolve_right fun hnull => hne hnull.1
    obtain ⟨hpending, hlinked⟩ := htail.link buf
    have hctx : s'.ctx.link buf = { s'.ctx with
        pending := s'.ctx.pending ++ [buf], pendingLast := (s'.ctx.link buf).pendingLast } := by
      rw [← hpending]
      unfold Ctx.link
      split <;> rfl
    have hview : (s'.onCtx (.link buf)).view = s'.view.onCtx (.link buf) := rfl
    refine ⟨⟨.inl hlinked, ?_⟩, [buf], (s'.ctx.link buf).pendingLast, List.flatMap_singleton .., ?_⟩
    · intro b hb
      have hb' : b ∈ s'.ctx.pending ++ [buf] := hpending ▸ hb
      rcases List.mem_append.mp hb' with hb' | hb'
      · exact h.wellFormed b hb'
      · exact List.mem_singleton.mp hb' ▸ hbuf
    · rw [hview]
      exact congrArg (fun c => { s'.view with ctx := c }) hctx

/-- **Chains are queued** as they are. -/
theorem wlp_queueTail {chain : List Buf} {s : State} (h : Queue s.view)
    (hchain : ∀ b ∈ chain, b.wellFormed) :
    wlp (queueTail chain) (fun _ s' => Queued (chain.flatMap Buf.brings) s.view s'.view) s := by
  induction chain generalizing s with
  | nil => exact .nil h
  | cons buf rest ih =>
    obtain ⟨hbuf, hrest⟩ := List.forall_mem_cons.mp hchain
    refine wlp_bind (wlp_copyBuf_any buf s) ?_
    rintro copy s₁ ⟨hbrings, hwf, hv₁⟩
    rw [← hv₁] at h ⊢
    refine wlp_bind (wlp_enqueue_any h (hwf hbuf)) fun _ s₂ hq₂ => ?_
    refine wlp_mono (ih hq₂.1 hrest) fun _ s₃ hq₃ => ?_
    rw [List.flatMap_cons, ← hbrings]
    exact hq₂.trans hq₃

/-- The rest of a file goes before what is behind it. -/
theorem wlp_queueRemaining {buf : Buf} {rest : List Buf} {pos : Nat} {s : State} (h : Queue s.view)
    (hfile : buf.fromFile = true) (hpos : pos ≠ 0) (hrest : ∀ b ∈ rest, b.wellFormed) :
    wlp (queueRemaining (buf :: rest) pos)
      (fun _ s' => ∃ id, Queued (((buf.withId id).from pos).rest ++ rest.flatMap Buf.brings)
        s.view s'.view) s := by
  obtain ⟨hmem, hin⟩ : buf.inMemory = false ∧ buf.inFile = true := by
    simpa [Buf.fromFile] using hfile
  rw [queueRemaining, if_pos ⟨hpos, hin⟩]
  refine wlp_bind (wlp_copyBuf hmem s) ?_
  rintro _ s₁ ⟨⟨id, rfl⟩, hv₁⟩
  rw [← hv₁] at h ⊢
  have hfrom : ((buf.withId id).from pos).fromFile = true := hfile
  have hbrings : ((buf.withId id).from pos).brings = ((buf.withId id).from pos).rest :=
    if_pos hfrom
  refine wlp_bind (wlp_enqueue_any h (.inr (.inl hin))) fun _ s₂ hq₂ => ?_
  refine wlp_mono (wlp_queueTail hq₂.1 hrest) fun _ s₃ hq₃ => ?_
  exact ⟨id, hbrings ▸ hq₂.trans hq₃⟩

/-- What is queued is last in the line. -/
theorem Queued.taken {v v' : View} {l : List Sym} (h : Queued l v v') : v'.taken = v.taken ++ l := by
  obtain ⟨-, bufs, slot, rfl, rfl⟩ := h
  have hqueued : View.queued (v.onCtx fun c => { c with
      pending := c.pending ++ bufs, pendingLast := slot }) = v.queued ++ bufs.flatMap Buf.brings :=
    List.flatMap_append
  unfold View.taken
  rw [hqueued, ← List.append_assoc]
  rfl

theorem Queued.made {v v' : View} {l : List Sym} (h : Queued l v v') (hm : Made o out v) :
    Made o out v' := by
  obtain ⟨-, bufs, slot, -, rfl⟩ := h
  exact hm

theorem Made.pass {v : View} (h : Made o out v) : Made o [] (v.pass out) := by
  unfold Made
  rw [List.append_nil, View.passed_pass]
  exact h

theorem Made.passSome {s : State} (h : Made o out s.view) :
    wlp (passSome o out)
      (fun _ s' => Made o [] s'.view ∧ ∃ outs, s'.view = { s.view with passed := outs }) s := by
  unfold BodyFilter.passSome
  split
  · rename_i hout
    exact ⟨hout ▸ h, s.view.passed, rfl⟩
  · refine wlp_mono (wlp_passOn out s) fun _ s' hv => ?_
    rw [hv]
    exact ⟨h.pass, _, rfl⟩

/-- **A run of the guest**: its output, or what stands for the chunk itself. -/
theorem wlp_runChunk_output (src : Flags) (data : Bytes) (s : State) :
    wlp (runChunk o src ⟨data, src.eof⟩)
      (fun r s' => s'.view = s.view.give ⟨data, src.eof⟩ ∧
        ∀ b : Buf, b.stream = symbols data src.eof → (r.getD b).stream =
          symbols (o.output (s.given ++ [⟨data, src.eof⟩]) ⟨data, src.eof⟩) src.eof) s := by
  unfold runChunk Outside.output
  rw [wlp_update_bind, wlp_read_bind]
  dsimp only
  cases hguest : o.guest (s.given ++ [⟨data, src.eof⟩]) with
  | none => trivial
  | some r =>
    cases r with
    | none => exact ⟨rfl, fun b hb => hb⟩
    | some output =>
      refine wlp_bind (wlp_createBuf output src _) ?_
      rintro buf s' ⟨hstream, hv⟩
      exact ⟨hv, fun _ _ => hstream⟩

/-- The guest is given a chunk, and what it makes of it goes on. -/
theorem Made.give {v : View} {chunk : Chunk} {buf : Buf} (h : Made o out v)
    (hbuf : buf.stream = symbols (o.output (v.given ++ [chunk]) chunk) chunk.eof) :
    Made o (out ++ [buf]) (v.give chunk) := by
  have hmade : streamOf (v.passed.flatten ++ out) = rewritten o [] v.given := h
  unfold Made
  simp only [View.give]
  rw [rewritten_concat, List.nil_append, ← hbuf, ← hmade, ← List.append_assoc, streamOf_append,
    streamOf_singleton]

/-- **One buffer** that is not read from a file: the guest is given it. -/
theorem Made.filterBuf {buf : Buf} {s : State} (h : Made o out s.view)
    (hfile : buf.fromFile = false) (hbuf : buf.wellFormed) :
    wlp (filterBuf o buf out)
      (fun out' s' => Made o out' s'.view ∧ s'.view.seen = s.view.seen ++ buf.brings ∧
        s'.view.ctx = s.view.ctx ∧ s'.view.aio = s.view.aio ∧ s'.view.created = s.view.created) s := by
  have hbrings : buf.brings = buf.stream := if_neg (Bool.eq_false_iff.mp hfile)
  have hstream := stream_of_chunk hfile hbuf
  rw [hbrings]
  unfold BodyFilter.filterBuf
  cases hc : buf.chunk with
  | none =>
    rw [hc] at hstream
    have hnil : buf.stream = [] := hstream
    refine wlp_mono (wlp_append out buf s) ?_
    rintro _ s' ⟨rfl, hv⟩
    rw [hv, hnil, List.append_nil]
    refine ⟨?_, rfl, rfl, rfl, rfl⟩
    unfold Made
    rw [← List.append_assoc, streamOf_append, streamOf_singleton, hnil, List.append_nil]
    exact h
  | some chunk =>
    rw [hc] at hstream
    have hchunk : buf.stream = chunk.stream := hstream
    obtain ⟨data, heq⟩ : ∃ data, chunk = ⟨data, buf.eof⟩ := by
      unfold Buf.chunk at hc
      split at hc
      · split at hc
        · exact ⟨buf.data, (Option.some.inj hc).symm⟩
        · cases hc
      · split at hc
        · exact ⟨[], (Option.some.inj hc).symm⟩
        · cases hc
    subst heq
    refine wlp_bind (wlp_runChunk_output buf.toFlags data s) ?_
    rintro r s₁ ⟨hv₁, hr⟩
    refine wlp_mono (wlp_append out (r.getD buf) s₁) ?_
    rintro _ s₂ ⟨rfl, hv₂⟩
    rw [hv₂, hv₁]
    refine ⟨h.give (hr buf hchunk), ?_, rfl, rfl, rfl⟩
    rw [hchunk]
    exact View.given_give _ _

/-- No read is in flight. -/
structure Free (v : View) : Prop extends Queue v where
  created : v.created = true
  waiting : v.ctx.waiting = false
  aio : v.aio = false

/-- The filter between two calls: what waits, waits for a read. -/
structure Between (v : View) : Prop extends Queue v where
  created : v.created = true
  waiting : v.ctx.waiting = v.aio

theorem Free.between {v : View} (h : Free v) : Between v :=
  ⟨h.toQueue, h.created, h.waiting.trans h.aio.symm⟩

theorem Free.congr {v v' : View} (h : Free v) (hctx : v'.ctx = v.ctx) (haio : v'.aio = v.aio)
    (hcreated : v'.created = v.created) : Free v' :=
  ⟨⟨hctx ▸ h.tail, hctx ▸ h.wellFormed⟩, hcreated.trans h.created, hctx ▸ h.waiting,
    haio.trans h.aio⟩

/-- **A file is taken up**: a piece of it is read, and the rest waits before what is behind it. An empty
piece is dropped. -/
theorem Made.schedule {buf : Buf} {rest : List Buf} {s : State} (hfree : Free s.view)
    (h : Made o [] s.view) (hfile : buf.fromFile = true) (hchunk : 0 < o.chunkSize)
    (hrest : ∀ b ∈ rest, b.wellFormed) :
    wlp (scheduleFileChunk o buf rest)
      (fun _ s' => Made o [] s'.view ∧ Between s'.view ∧
        Joins s.view.seen s.view.queued (buf.brings ++ rest.flatMap Buf.brings) s'.view.taken) s := by
  have hbrings : buf.brings = buf.rest := if_pos hfile
  rw [hbrings]
  unfold scheduleFileChunk
  split
  · rename_i hempty
    have hnil : buf.rest = [] := if_pos hempty
    have htail : queueRemaining rest 0 = queueTail rest := by
      cases rest <;> simp [queueRemaining, queueTail]
    rw [hnil, List.nil_append, htail]
    refine wlp_mono (wlp_queueTail hfree.toQueue hrest) fun _ s' hq => ⟨hq.made h, ?_, ?_⟩
    · obtain ⟨hqueue, bufs, slot, -, hv⟩ := hq
      rw [hv] at hqueue ⊢
      exact ⟨hqueue, hfree.created, hfree.waiting.trans hfree.aio.symm⟩
    · rw [hq.taken, View.taken_of_aio hfree.aio]
      exact .last
  · rename_i hmore
    have hpos : buf.filePos + nextSize o buf ≠ 0 := by
      unfold nextSize Buf.available
      split <;> omega
    rw [wlp_update_bind]
    refine wlp_bind (wlp_alloc _ _) fun _ s₁ hv₁ => ?_
    rw [wlp_update_bind]
    have hv₂ : (s₁.onCtx (.setChunk (chunkFlags o buf))).view = s.view.onCtx fun c =>
        (c.setRead buf (nextSize o buf)).setChunk (chunkFlags o buf) := by
      rw [view_onCtx, hv₁, view_onCtx]
      rfl
    have hqueue₂ : Queue (s₁.onCtx (.setChunk (chunkFlags o buf))).view := by
      rw [hv₂]
      exact ⟨hfree.tail, hfree.wellFormed⟩
    refine wlp_bind (wlp_queueRemaining hqueue₂ hfile hpos hrest) ?_
    rintro _ s₃ ⟨id, hqueue₃, bufs, slot, hbufs, hv₃⟩
    refine wlp_bind (wlp_threadRead s₃) fun _ s₄ hv₄ => ?_
    rw [hv₃, hv₂] at hqueue₃ hv₄
    have hv₅ : (s₄.onCtx (.setWaiting true)).view = s₄.view.onCtx (.setWaiting true) := rfl
    change Made o [] (s₄.onCtx (.setWaiting true)).view ∧
      Between (s₄.onCtx (.setWaiting true)).view ∧
      Joins s.view.seen s.view.queued (buf.rest ++ rest.flatMap Buf.brings)
        (s₄.onCtx (.setWaiting true)).view.taken
    rw [hv₅, hv₄]
    refine ⟨h, ⟨⟨hqueue₃.tail, hqueue₃.wellFormed⟩, hfree.created, rfl⟩, ?_⟩
    have hread : ((((s.view.onCtx fun c => (c.setRead buf (nextSize o buf)).setChunk
        (chunkFlags o buf)).onCtx fun c => { c with
          pending := c.pending ++ bufs, pendingLast := slot }).read).onCtx
            (.setWaiting true)).inFlight =
        symbols (fileBytes buf.file buf.filePos (nextSize o buf)) (chunkFlags o buf).eof := rfl
    have hqueued : ((((s.view.onCtx fun c => (c.setRead buf (nextSize o buf)).setChunk
        (chunkFlags o buf)).onCtx fun c => { c with
          pending := c.pending ++ bufs, pendingLast := slot }).read).onCtx
            (.setWaiting true)).queued = s.view.queued ++ bufs.flatMap Buf.brings :=
      List.flatMap_append
    -- the piece that is read passes the queue, the rest goes behind it
    refine ⟨symbols (fileBytes buf.file buf.filePos (nextSize o buf)) (chunkFlags o buf).eof,
      ((buf.withId id).from (buf.filePos + nextSize o buf)).rest ++ rest.flatMap Buf.brings, ?_, ?_⟩
    · rw [rest_split o hfile hmore id, List.append_assoc]
    · unfold View.taken
      rw [hread, hqueued, hbufs, ← List.append_assoc]
      rfl

/-- **The loop** takes in the chain. What the guest is not given and what is not read at once goes
behind the queue. -/
theorem Made.process {chain out : List Buf} {s : State} (hchunk : 0 < o.chunkSize)
    (hfree : Free s.view) (h : Made o out s.view) (hchain : ∀ b ∈ chain, b.wellFormed) :
    wlp (process o chain out)
      (fun _ s' => Made o [] s'.view ∧ Between s'.view ∧
        Joins s.view.seen s.view.queued (chain.flatMap Buf.brings) s'.view.taken) s := by
  induction chain generalizing out s with
  | nil =>
    have hline : Joins s.view.seen s.view.queued [] s.view.taken := by
      rw [View.taken_of_aio hfree.aio]
      exact ⟨[], [], rfl, by rw [List.append_nil, List.append_nil]⟩
    rw [BodyFilter.process]
    split
    · rename_i hout
      have hview : (if s.ctx.busy then s else setBuffered false s).view = s.view := by
        split <;> rfl
      rw [wlp_update_bind]
      change Made o [] (if s.ctx.busy then s else setBuffered false s).view ∧ Between _ ∧
        Joins _ _ _ (if s.ctx.busy then s else setBuffered false s).view.taken
      rw [hview]
      exact ⟨hout ▸ h, hfree.between, hline⟩
    · refine wlp_bind (wlp_passOn out s) fun _ s' hv => ?_
      have hview : (setBuffered s'.ctx.busy s').view = s.view.pass out := hv
      rw [wlp_update_bind]
      change Made o [] (setBuffered s'.ctx.busy s').view ∧ Between _ ∧
        Joins _ _ _ (setBuffered s'.ctx.busy s').view.taken
      rw [hview]
      have hpassed : Free (s.view.pass out) := hfree.congr rfl rfl rfl
      exact ⟨h.pass, hpassed.between, hline⟩
  | cons buf rest ih =>
    obtain ⟨hbuf, hrest⟩ := List.forall_mem_cons.mp hchain
    rw [List.flatMap_cons]
    rw [BodyFilter.process]
    cases hfile : buf.fromFile with
    | true =>
      rw [if_pos ⟨rfl, Nat.ne_of_gt hchunk⟩]
      refine wlp_bind h.passSome ?_
      rintro _ s₁ ⟨h₁, outs, hv₁⟩
      have hfree₁ : Free s₁.view := by
        rw [hv₁]
        exact hfree.congr rfl rfl rfl
      refine wlp_bind (h₁.schedule hfree₁ hfile hchunk hrest) ?_
      rintro _ s₂ ⟨h₂, hbetween, hline⟩
      rw [hv₁] at hline
      exact ⟨h₂, hbetween, hline⟩
    | false =>
      rw [if_neg (by simp)]
      refine wlp_bind (h.filterBuf hfile hbuf) ?_
      rintro out' s' ⟨h', hseen, hctx, haio, hcreated⟩
      refine wlp_mono (ih (hfree.congr hctx haio hcreated) h' hrest) ?_
      rintro _ s'' ⟨h'', hbetween, hline⟩
      have hqueued : s'.view.queued = s.view.queued :=
        congrArg (fun c : Ctx => c.pending.flatMap Buf.brings) hctx
      rw [hseen, hqueued] at hline
      exact ⟨h'', hbetween, hline.ahead⟩

/-! ## Events -/

theorem wlp_completeFileChunk_output {s : State} (h : Made o [] s.view) :
    wlp (completeFileChunk o (some s.ctx.readChunk.data))
      (fun out s' => Made o out s'.view ∧ s'.view = s.view.give s.ctx.readChunk) s := by
  unfold completeFileChunk
  rw [wlp_read_bind]
  dsimp only
  rw [if_neg (fun hne => hne (fileBytes_length ..))]
  refine wlp_bind (wlp_runChunk_output s.ctx.chunk s.ctx.readChunk.data s) ?_
  rintro r s₁ ⟨hv₁, hr⟩
  have hgive : ∀ buf : Buf, buf.stream =
      symbols (o.output (s.given ++ [s.ctx.readChunk]) s.ctx.readChunk) s.ctx.readChunk.eof →
      Made o ([] ++ [buf]) s₁.view := by
    intro buf hbuf
    rw [hv₁]
    exact h.give hbuf
  cases r with
  | some replacement =>
    refine wlp_mono (wlp_append [] replacement s₁) ?_
    rintro _ s₂ ⟨rfl, hv₂⟩
    rw [hv₂]
    let plain : Buf :=
      { s.ctx.chunk with id := .given 0, inMemory := true, data := s.ctx.readChunk.data }
    exact ⟨hgive replacement (hr plain rfl), hv₁⟩
  | none =>
    refine wlp_bind (wlp_createBuf s.ctx.readChunk.data s.ctx.chunk s₁) ?_
    rintro buf s₂ ⟨hstream, hv₂⟩
    refine wlp_mono (wlp_append [] buf s₂) ?_
    rintro _ s₃ ⟨rfl, hv₃⟩
    rw [hv₃, hv₂]
    exact ⟨hgive _ (hr buf hstream), hv₁⟩

/-- **A read ends**: its chunk is given to the guest, and the queue is taken up. The line stays as it
is. -/
theorem Made.threadEvent {s : State} (hchunk : 0 < o.chunkSize) (hb : Between s.view)
    (haio : s.aio = true) (h : Made o [] s.view) :
    wlp (threadEventHandler o (some s.ctx.readChunk.data))
      (fun _ s' => Made o [] s'.view ∧ Between s'.view ∧ s'.view.taken = s.view.taken) s := by
  unfold threadEventHandler
  rw [wlp_update_bind]
  refine wlp_bind (wlp_completeFileChunk_output (s := { s with aio := false }) h) ?_
  rintro out s₁ ⟨h₁, hv₁⟩
  rw [wlp_read_bind, wlp_update_bind]
  have hpending : s₁.ctx.pending = s.ctx.pending := congrArg (·.ctx.pending) hv₁
  have haio₁ : s₁.aio = false := congrArg (·.aio) hv₁
  have hcreated₁ : s₁.created = true := (congrArg (·.created) hv₁).trans hb.created
  have hseen₁ : s₁.view.seen = s.view.seen ++ s.ctx.readChunk.stream := by
    rw [hv₁]
    exact View.given_give _ _
  have hfree : Free (s₁.onCtx .drain).view :=
    ⟨⟨.inl rfl, List.forall_mem_nil _⟩, hcreated₁, rfl, haio₁⟩
  have hdrained : Made o out (s₁.onCtx .drain).view := h₁
  refine wlp_bind (hdrained.process hchunk hfree fun b hmem => ?_) ?_
  · exact hb.wellFormed b (hpending ▸ hmem)
  · rintro _ s₂ ⟨h₂, hbetween, hline⟩
    refine ⟨h₂, hbetween, ?_⟩
    have hflight : s.view.inFlight = s.ctx.readChunk.stream := if_pos haio
    have hnone : (s₁.onCtx .drain).view.queued = [] := rfl
    have hseen : (s₁.onCtx .drain).view.seen = s₁.view.seen := rfl
    rw [hnone] at hline
    have htaken : s₂.view.taken = s.view.taken := by
      rw [hline.eq_append, hseen, hseen₁, hpending, View.taken, hflight]
      rfl
    exact htaken

/-- Before the first call the filter has nothing. -/
structure Unused (v : View) : Prop where
  created : v.created = false
  pending : v.ctx.pending = []
  aio : v.aio = false

/-- A new context takes nothing in. -/
theorem Unused.taken_new {v v' : View} (h : Unused v) (hgiven : v'.given = v.given)
    (haio : v'.aio = false) (hpending : v'.ctx.pending = []) : v'.taken = v.taken := by
  have hqueued : v.queued = [] := congrArg (List.flatMap Buf.brings) h.pending
  have hqueued' : v'.queued = [] := congrArg (List.flatMap Buf.brings) hpending
  have hseen : v'.seen = v.seen := congrArg (List.flatMap Chunk.stream) hgiven
  rw [View.taken_of_aio haio, View.taken_of_aio h.aio, hqueued, hqueued', hseen]

/-- The filter gets a context. -/
theorem Made.getOrCreate {s : State} (h : Made o out s.view) (hs : Between s.view ∨ Unused s.view) :
    wlp getOrCreateCtx
      (fun _ s' => Made o out s'.view ∧ Between s'.view ∧ s'.view.taken = s.view.taken) s := by
  rw [getOrCreateCtx, wlp_read_bind]
  rcases hs with hb | hu
  · have hcreated : s.created = true := hb.created
    rw [if_pos hcreated]
    exact ⟨h, hb, rfl⟩
  · have hcreated : ¬ s.created = true := Bool.eq_false_iff.mp hu.created
    rw [if_neg hcreated]
    refine wp_bind.mpr (wp_createCtx.mpr ?_)
    split
    · split
      · refine ⟨h, ⟨⟨.inl rfl, List.forall_mem_nil _⟩, rfl, hu.aio.symm⟩, ?_⟩
        exact hu.taken_new rfl hu.aio rfl
      · trivial
    · trivial

/-- Another hook gets or creates the context. -/
theorem Made.hook {s : State} (h : Made o out s.view) (hs : Between s.view ∨ Unused s.view) :
    wlp getOrCreateHookCtx
      (fun _ s' => Made o out s'.view ∧ Between s'.view ∧ s'.view.taken = s.view.taken) s := by
  rw [getOrCreateHookCtx, wlp_read_bind]
  rcases hs with hb | hu
  · have hcreated : s.created = true := hb.created
    rw [if_pos hcreated]
    exact ⟨h, hb, rfl⟩
  · have hcreated : ¬ s.created = true := Bool.eq_false_iff.mp hu.created
    rw [if_neg hcreated]
    refine wp_createCtx.mpr ?_
    split
    · split
      · refine ⟨h, ⟨⟨.inr ⟨rfl, rfl⟩, List.forall_mem_nil _⟩, rfl, hu.aio.symm⟩, ?_⟩
        exact hu.taken_new rfl hu.aio rfl
      · trivial
    · trivial

/-- **A chain arrives**: it is queued during a read, and taken up else. -/
theorem Made.takeChain {chain : List Buf} {s : State} (hchunk : 0 < o.chunkSize)
    (hb : Between s.view) (h : Made o [] s.view) (hchain : ∀ b ∈ chain, b.wellFormed) :
    wlp (takeChain o chain)
      (fun _ s' => Made o [] s'.view ∧ Between s'.view ∧
        Adds (chain.flatMap Buf.brings) s.view.taken s'.view.taken) s := by
  rw [BodyFilter.takeChain, wlp_read_bind]
  cases hwaiting : s.ctx.waiting with
  | true =>
    rw [if_pos rfl]
    refine wlp_bind (wlp_queueTail hb.toQueue hchain) fun _ s' hq => ?_
    rw [wlp_update_bind]
    have hline : Adds (chain.flatMap Buf.brings) s.view.taken s'.view.taken := by
      rw [hq.taken]
      exact .last
    have hmade : Made o [] s'.view := hq.made h
    obtain ⟨hqueue, bufs, slot, -, hv⟩ := hq
    have hbetween : Between s'.view := by
      rw [hv] at hqueue ⊢
      exact ⟨hqueue, hb.created, hb.waiting⟩
    exact ⟨hmade, hbetween, hline⟩
  | false =>
    rw [if_neg Bool.false_ne_true]
    have hfree : Free s.view :=
      ⟨hb.toQueue, hb.created, hwaiting, hb.waiting.symm.trans hwaiting⟩
    refine wlp_mono (h.process hchunk hfree hchain) ?_
    rintro _ s' ⟨h', hbetween, hline⟩
    exact ⟨h', hbetween, _, _, View.taken_of_aio hfree.aio, hline⟩

theorem Made.handler {chain : List Buf} {s : State} (henabled : o.enabled = true)
    (hchunk : 0 < o.chunkSize) (h : Made o [] s.view)
    (hs : Between s.view ∨ Unused s.view) (hchain : ∀ b ∈ chain, b.wellFormed) :
    wlp (handler o chain)
      (fun _ s' => Made o [] s'.view ∧ (Between s'.view ∨ Unused s'.view) ∧
        Adds (chain.flatMap Buf.brings) s.view.taken s'.view.taken) s := by
  by_cases hnil : chain = []
  · subst hnil
    rw [BodyFilter.handler, if_pos (.inl rfl), List.flatMap_nil]
    refine wlp_mono (wlp_passOn [] s) fun _ s' hv => ?_
    rw [hv]
    refine ⟨h.pass, hs.imp (fun hb => ?_) fun hu => ?_, .refl⟩
    · exact ⟨⟨hb.tail, hb.wellFormed⟩, hb.created, hb.waiting⟩
    · exact ⟨hu.created, hu.pending, hu.aio⟩
  · have hrun : ¬ (chain = [] ∨ (!o.enabled) = true) := by simp [hnil, henabled]
    rw [BodyFilter.handler, if_neg hrun]
    refine wlp_bind (h.getOrCreate hs) ?_
    rintro _ s' ⟨h', hb, htaken⟩
    refine wlp_mono (h'.takeChain hchunk hb hchain) ?_
    rintro _ s'' ⟨h'', hb', hline⟩
    exact ⟨h'', .inl hb', htaken ▸ hline⟩

end Functions

/-! ## Runs -/

/-- Every buffer is in memory, in a file or special, and a read gives the bytes that were asked for. -/
def HandsOver (w : Watched) : Event → Prop
  | .hook _ => True
  | .output chain => ∀ b ∈ chain, b.wellFormed
  | .readDone data => data = some w.state.ctx.readChunk.data

instance (w : Watched) : ∀ e, Decidable (HandsOver w e)
  | .hook _ => inferInstanceAs (Decidable True)
  | .output chain => inferInstanceAs (Decidable (∀ b ∈ chain, b.wellFormed))
  | .readDone data => inferInstanceAs (Decidable (data = some w.state.ctx.readChunk.data))

/-- What the filter has to hand to the guest for a chain. -/
def chainBrings (chain : List Buf) : List Sym := chain.flatMap Buf.brings

/-- As long as no call has failed, what was taken in is a line of the chains, and what was passed on
is what the guest made of it. -/
def InLine (o : Outside) (chains : List (List Buf)) (w : Watched) : Prop := w.failed = false →
  Made o [] w.state.view ∧ (Between w.state.view ∨ Unused w.state.view) ∧
    Line (chains.map chainBrings) w.state.view.taken

theorem wlp_handle_line {o : Outside} {w : Watched} {e : Event} (henabled : o.enabled = true)
    (hchunk : 0 < o.chunkSize) (h : Made o [] w.state.view)
    (hs : Between w.state.view ∨ Unused w.state.view) (hok : HandsOver w e) :
    wlp (e.handle o)
      (fun _ s' => Made o [] s'.view ∧ (Between s'.view ∨ Unused s'.view) ∧
        Adds (chainBrings e.chain) w.state.view.taken s'.view.taken) w.state := by
  cases e with
  | hook hook =>
    refine wlp_mono (h.hook hs) ?_
    rintro _ s' ⟨h', hb, htaken⟩
    refine ⟨h', .inl hb, ?_⟩
    rw [htaken]
    exact .refl
  | output chain =>
    exact wlp_bind (h.handler henabled hchunk hs hok) fun _ _ hs => hs
  | readDone data =>
    obtain rfl : data = some w.state.ctx.readChunk.data := hok
    rw [Event.handle, wlp_read_bind]
    split
    · rename_i haio
      have hb : Between w.state.view := hs.resolve_right fun hu =>
        absurd (hu.aio.symm.trans haio) Bool.false_ne_true
      refine wlp_mono (h.threadEvent hchunk hb haio) ?_
      rintro _ s' ⟨h', hb', htaken⟩
      refine ⟨h', .inl hb', ?_⟩
      rw [htaken]
      exact .refl
    · exact ⟨h, hs, .refl⟩

/-- **One event**: its chain joins the line. -/
theorem inLine_step {o : Outside} {chains : List (List Buf)} {w : Watched} {e : Event}
    (henabled : o.enabled = true) (hchunk : 0 < o.chunkSize) (h : InLine o chains w)
    (hok : HandsOver w e) : InLine o (chains ++ [e.chain]) (w.step o e) := by
  intro hfailed
  obtain ⟨hbefore, hsome⟩ : w.failed = false ∧ (e.handle o w.state).1.isNone = false := by
    simpa [Watched.step] using hfailed
  obtain ⟨hmade, hs, hline⟩ := h hbefore
  obtain ⟨a, ha⟩ : ∃ a, (e.handle o w.state).1 = some a := by
    rw [← Option.isSome_iff_exists]
    simpa using hsome
  obtain ⟨hmade', hs', hadds⟩ := (wlp_handle_line henabled hchunk hmade hs hok).of_run.1 a ha
  refine ⟨hmade', hs', ?_⟩
  rw [List.map_append]
  exact hline.join hadds

/-- **Any run**: the chains join the line one after the other. -/
theorem inLine_run {o : Outside} {chains : List (List Buf)} {w : Watched} {events : List Event}
    (henabled : o.enabled = true) (hchunk : 0 < o.chunkSize)
    (hok : Meets (Watched.step o) HandsOver w events) (h : InLine o chains w) :
    InLine o (chains ++ events.map Event.chain) (runFrom (Watched.step o) w events) := by
  induction events generalizing chains w with
  | nil =>
    rw [List.map_nil, List.append_nil]
    exact h
  | cons e events ih =>
    have hnext := ih hok.2 (inLine_step henabled hchunk h hok.1)
    rwa [List.append_assoc] at hnext

/-- Nothing is lost, nothing is given twice, and nothing is turned around. -/
structure Conserved (o : Outside) (chains : List (List Buf)) (w : Watched) : Prop where
  kept : w.state.view.taken.Perm (chainBrings chains.flatten)
  inOrder : ∀ chain ∈ chains, (chainBrings chain).Sublist w.state.view.taken
  line : Line (chains.map chainBrings) w.state.view.taken
  made : streamOf w.state.passed.flatten = rewritten o [] w.state.given

/-- A guest that empties the first two chunks it is given. -/
def muteOutside : Outside :=
  { plainOutside with guest := fun given => some (if given.length < 3 then some [] else none) }

end NgxWasm.BodyFilter
