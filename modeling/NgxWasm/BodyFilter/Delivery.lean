import NgxWasm.BodyFilter.Tail

/-!
# What the body filter delivers (`src/ngx_http_wasm_body_filter.c`)

What a buffer brings is a stream: its bytes, and then a mark if it ends the body. With a guest that
replaces nothing, the guest and the next filter should both get the stream that the filter was handed.
While a thread reads, part of it waits: the chunk that is read, and the rest of the file (`Reading`).

Once the last chunk of a file was read, an empty rest is left at the head of the queue. It takes no
further read, so whatever is queued behind it stays there. So the condition for a run is that nothing
comes behind a file (`FileAlone`): a file is the last buffer of its chain, and no chain arrives during
a read.

* `View`: the part of a state that the streams are about, with one rule for each function of the
  filter. `Idle` and `Reading` are the two situations it can be in.
* `Idle.process`: a chain; `Reading.threadEvent`: a chunk that was read.
* `delivered`: the streams agree whenever no read is in flight, in every such run.
* `rest_stays_queued`: a run with a buffer behind a file.

A call of the filter that fails ends the account: nginx drops the request then. How the guest's own
changes go on is in `BodyFilter.Conserved`.

What `delivered` takes for granted beside `FileAlone`: the location has a body filter, its file chunk
size is positive, as the directive requires, the guest replaces nothing, and the run is `Served`. The
last says that buffers are in memory, in a file or special, that a read gives the bytes that were asked
for, and that no other hook creates the context before the filter does: only the filter's own creation
sets the tail of the queue (`BodyFilter.Tail`). Memory may be refused at any time.
-/

namespace NgxWasm.BodyFilter

open Lib Lib.Fallible

/-! ## Streams -/

/-- A byte of the body, or its end. -/
inductive Sym where
  | byte (b : UInt8)
  | eof
  deriving DecidableEq

/-- The stream of some bytes, and of an end. -/
def symbols (data : Bytes) (eof : Bool) : List Sym :=
  data.map Sym.byte ++ if eof then [.eof] else []

def Sym.byte? : Sym → Option UInt8
  | .byte b => some b
  | .eof => none

/-- The bytes of a stream are those of its parts. -/
theorem bytes_flatMap {α : Type} (data : α → Bytes) (eof : α → Bool) (l : List α) :
    (l.flatMap fun a => symbols (data a) (eof a)).filterMap Sym.byte? = l.flatMap data := by
  induction l with
  | nil => rfl
  | cons a l ih =>
    rw [List.flatMap_cons, List.flatMap_cons, List.filterMap_append, ih, symbols,
      List.filterMap_append, List.filterMap_map]
    have hbytes : (data a).filterMap (Sym.byte? ∘ Sym.byte) = data a := List.filterMap_some
    rw [hbytes]
    cases eof a <;> simp [Sym.byte?]

/-- And its marks are theirs. -/
theorem eofs_flatMap {α : Type} (data : α → Bytes) (eof : α → Bool) (l : List α) :
    (l.flatMap fun a => symbols (data a) (eof a)).count .eof = l.countP eof := by
  induction l with
  | nil => rfl
  | cons a l ih =>
    rw [List.flatMap_cons, List.count_append, ih, symbols, List.count_append]
    have hbytes : ((data a).map Sym.byte).count .eof = 0 := by
      rw [List.count_eq_zero]
      simp
    rw [hbytes, List.countP_cons]
    cases eof a <;> simp [Nat.add_comm]

def Chunk.stream (c : Chunk) : List Sym := symbols c.data c.eof

/-- The bytes of a buffer. -/
def Buf.bytes (b : Buf) : Bytes :=
  if b.inMemory then b.data
  else if b.inFile then fileBytes b.file b.filePos (b.fileLast - b.filePos)
  else []

def Buf.stream (b : Buf) : List Sym := symbols b.bytes b.eof

def streamOf (bufs : List Buf) : List Sym := bufs.flatMap Buf.stream

theorem streamOf_append (bufs bufs' : List Buf) :
    streamOf (bufs ++ bufs') = streamOf bufs ++ streamOf bufs' := List.flatMap_append

theorem streamOf_singleton (buf : Buf) : streamOf [buf] = buf.stream := List.flatMap_singleton ..

theorem fileBytes_add (file : Nat → UInt8) (pos n m : Nat) :
    fileBytes file pos (n + m) = fileBytes file pos n ++ fileBytes file (pos + n) m := by
  unfold fileBytes
  rw [List.range_add, List.map_append, List.map_map]
  refine congrArg _ (List.map_congr_left fun i _ => ?_)
  exact congrArg file (Nat.add_assoc pos n i).symm

theorem fileBytes_length (file : Nat → UInt8) (pos size : Nat) :
    (fileBytes file pos size).length = size := by simp [fileBytes]

theorem symbols_append (data data' : Bytes) (eof : Bool) :
    symbols (data ++ data') eof = symbols data false ++ symbols data' eof := by
  simp [symbols]

/-- What is left of a file once its last chunk is read brings nothing: its end went with the chunk. -/
def Buf.rest (b : Buf) : List Sym := if b.fileLast ≤ b.filePos then [] else b.stream

/-- The same buffer elsewhere. -/
def Buf.withId (id : BufId) (b : Buf) : Buf := { b with id := id }

/-! ## What is delivered -/

/-- The part of a state that the streams are about. -/
structure View where
  ctx : Ctx
  created : Bool
  crashed : Bool
  aio : Bool
  given : List Chunk
  passed : List (List Buf)

def State.view (s : State) : View := ⟨s.ctx, s.created, s.crashed, s.aio, s.given, s.passed⟩

def View.onCtx (f : Ctx → Ctx) (v : View) : View := { v with ctx := f v.ctx }

def View.read (v : View) : View := { v with aio := true }

def View.give (chunk : Chunk) (v : View) : View := { v with given := v.given ++ [chunk] }

def View.pass (out : List Buf) (v : View) : View := { v with passed := v.passed ++ [out] }

/-- No read is in flight and nothing waits, and the stream `sent` was given to the guest; it was passed
on but for `out`. -/
structure Idle (sent : List Sym) (out : List Buf) (v : View) : Prop where
  created : v.created = true
  tail : TailOk v.ctx
  pending : v.ctx.pending = []
  waiting : v.ctx.waiting = false
  aio : v.aio = false
  given : v.given.flatMap Chunk.stream = sent
  passed : streamOf (v.passed.flatten ++ out) = sent

/-- A read is in flight, of a chunk after `sent`, and the rest of its file waits. -/
structure Reading (sent : List Sym) (rest : Buf) (v : View) : Prop where
  created : v.created = true
  tail : TailOk v.ctx
  pending : v.ctx.pending = [rest]
  waiting : v.ctx.waiting = true
  aio : v.aio = true
  given : v.given.flatMap Chunk.stream = sent
  passed : streamOf v.passed.flatten = sent
  fromFile : rest.fromFile = true

/-- The chunk that is read. -/
def Ctx.readChunk (c : Ctx) : Chunk := ⟨fileBytes c.readFile c.readOffset c.readSize, c.chunk.eof⟩

/-- The filter has taken up the stream `recv`. -/
def Settled (recv : List Sym) (v : View) : Prop :=
  Idle recv [] v ∨
    ∃ sent rest, Reading sent rest v ∧ recv = sent ++ (v.ctx.readChunk.stream ++ rest.rest)

/-! ## What each function does -/

section Functions

variable {o : Outside}

theorem wlp_alloc (size : Nat) (s : State) :
    wlp (alloc size) (fun _ s' => s'.view = s.view) s := by
  refine wp_alloc.mpr ?_
  split
  · rfl
  · trivial

theorem wlp_append (out : List Buf) (buf : Buf) (s : State) :
    wlp (append out buf) (fun out' s' => out' = out ++ [buf] ∧ s'.view = s.view) s :=
  wlp_bind (wlp_alloc linkSize s) fun _ _ h => ⟨rfl, h⟩

theorem wlp_createBuf (data : Bytes) (src : Flags) (s : State) :
    wlp (createBuf data src)
      (fun buf s' => buf.stream = symbols data src.eof ∧ s'.view = s.view) s :=
  wlp_bind (wlp_alloc bufSize s) fun _ _ h => ⟨rfl, h⟩

theorem wlp_copyBuf {src : Buf} (hmem : src.inMemory = false) (s : State) :
    wlp (copyBuf src) (fun buf s' => (∃ id, buf = src.withId id) ∧ s'.view = s.view) s := by
  refine wlp_bind (wlp_alloc bufSize s) fun n s' h => ?_
  rw [if_neg (by simp [hmem])]
  exact ⟨⟨_, rfl⟩, h⟩

theorem wlp_runChunk (hguest : ∀ given, o.guest given = some none) (src : Flags) (chunk : Chunk)
    (s : State) :
    wlp (runChunk o src chunk)
      (fun buf s' => buf = none ∧ s'.view = s.view.give chunk) s := by
  simp only [runChunk, wp_bind, wp_update, wp_read]
  rw [hguest]
  exact ⟨rfl, rfl⟩

theorem wlp_passOn (out : List Buf) (s : State) :
    wlp (passOn o out) (fun _ s' => s'.view = s.view.pass out) s := by
  simp only [passOn, wp_bind, wp_update, wp_read]
  split
  · trivial
  · rfl

theorem View.passed_pass (out : List Buf) (v : View) :
    streamOf (v.pass out).passed.flatten = streamOf (v.passed.flatten ++ out) := by
  simp [View.pass]

theorem View.given_give (chunk : Chunk) (v : View) :
    (v.give chunk).given.flatMap Chunk.stream = v.given.flatMap Chunk.stream ++ chunk.stream := by
  simp [View.give]

theorem Idle.pass {sent : List Sym} {out : List Buf} {v : View} (h : Idle sent out v) :
    Idle sent [] (v.pass out) := by
  refine { h with passed := ?_ }
  rw [List.append_nil, View.passed_pass]
  exact h.passed

theorem Idle.passed_all {sent : List Sym} {v : View} (h : Idle sent [] v) :
    streamOf v.passed.flatten = sent := by
  have hpassed := h.passed
  rwa [List.append_nil] at hpassed

/-- The chain so far is handed on. -/
theorem Idle.passSome {sent : List Sym} {out : List Buf} {s : State} (h : Idle sent out s.view) :
    wlp (passSome o out) (fun _ s' => Idle sent [] s'.view) s := by
  unfold BodyFilter.passSome
  split
  · rename_i hout
    exact hout ▸ h
  · refine wlp_mono (wlp_passOn out s) fun _ s' hv => ?_
    rw [hv]
    exact h.pass

/-- What the guest is run on brings what the buffer does. -/
theorem stream_of_chunk {buf : Buf} (hfile : buf.fromFile = false)
    (hkind : buf.inMemory ∨ buf.inFile ∨ buf.flush ∨ buf.sync ∨ buf.lastBuf) :
    buf.stream = (buf.chunk.map Chunk.stream).getD [] := by
  unfold Buf.stream Buf.bytes Buf.chunk
  cases hm : buf.inMemory with
  | true =>
    rw [if_pos rfl, if_pos rfl]
    split
    · rfl
    · rename_i hempty
      have hboth : buf.data = [] ∧ buf.eof = false := by simpa using hempty
      rw [hboth.1, hboth.2]
      rfl
  | false =>
    have hin : buf.inFile = false := by simpa [Buf.fromFile, hm] using hfile
    have hspecial : buf.special = true := by
      simp only [hm, hin, Bool.false_eq_true, false_or] at hkind
      simp only [Buf.special, hm, hin]
      rcases hkind with hk | hk | hk <;> simp [hk]
    rw [hin, hspecial, if_neg nofun, if_neg nofun, if_neg nofun, Bool.true_and]
    cases buf.eof <;> rfl

/-- **One buffer** that is not read from a file. -/
theorem Idle.filterBuf {sent : List Sym} {out : List Buf} {buf : Buf} {s : State}
    (hguest : ∀ given, o.guest given = some none) (h : Idle sent out s.view)
    (hfile : buf.fromFile = false)
    (hkind : buf.inMemory ∨ buf.inFile ∨ buf.flush ∨ buf.sync ∨ buf.lastBuf) :
    wlp (filterBuf o buf out) (fun out' s' => Idle (sent ++ buf.stream) out' s'.view) s := by
  have hstream := stream_of_chunk hfile hkind
  have hpassed : streamOf (s.view.passed.flatten ++ (out ++ [buf])) = sent ++ buf.stream := by
    rw [← List.append_assoc, streamOf_append, h.passed, streamOf_singleton]
  unfold BodyFilter.filterBuf
  cases hc : buf.chunk with
  | none =>
    refine wlp_mono (wlp_append out buf s) ?_
    rintro _ s' ⟨rfl, hv⟩
    rw [hc] at hstream
    rw [hv]
    refine { h with given := ?_, passed := hpassed }
    rw [hstream, Option.map_none, Option.getD_none, List.append_nil]
    exact h.given
  | some chunk =>
    refine wlp_bind (wlp_runChunk hguest _ chunk s) ?_
    rintro _ s' ⟨rfl, hv⟩
    refine wlp_mono (wlp_append out buf s') ?_
    rintro _ s'' ⟨rfl, hv'⟩
    rw [hc] at hstream
    rw [hv', hv]
    refine { h with given := ?_, passed := hpassed }
    rw [View.given_give, h.given, hstream]
    rfl

theorem wlp_enqueue {buf : Buf} {s : State} (hlast : s.view.ctx.pendingLast ≠ .null) :
    wlp (enqueue buf) (fun _ s' => s'.view = s.view.onCtx (.link buf)) s := by
  refine wlp_bind (wlp_alloc linkSize s) fun _ s' hv => ?_
  rw [← hv] at hlast ⊢
  have hne : s'.ctx.pendingLast ≠ .null := hlast
  rw [wlp_read_bind, if_neg hne]
  rfl

theorem wlp_threadRead (s : State) :
    wlp (threadRead o) (fun _ s' => s'.view = s.view.read) s := by
  rw [threadRead, wlp_read_bind, wlp_update_bind]
  split
  · rfl
  · trivial

/-- The rest of a file is queued. -/
theorem wlp_queueRest {buf : Buf} {pos : Nat} {s : State} (hfile : buf.fromFile = true)
    (hpos : pos ≠ 0) (hlast : s.view.ctx.pendingLast ≠ .null) :
    wlp (queueRemaining [buf] pos)
      (fun _ s' => ∃ id, s'.view = s.view.onCtx (.link ((buf.withId id).from pos))) s := by
  obtain ⟨hmem, hin⟩ : buf.inMemory = false ∧ buf.inFile = true := by
    simpa [Buf.fromFile] using hfile
  rw [queueRemaining, if_pos ⟨hpos, hin⟩]
  refine wlp_bind (wlp_copyBuf hmem s) ?_
  rintro _ s' ⟨⟨id, rfl⟩, hv⟩
  rw [← hv] at hlast ⊢
  refine wlp_bind (wlp_enqueue hlast) fun _ s'' hv' => ?_
  exact ⟨id, hv'⟩

/-- **The next chunk** of a file and what is left after it bring what the file does. -/
theorem rest_split (o : Outside) {buf : Buf} (hfile : buf.fromFile = true)
    (hmore : ¬ buf.fileLast ≤ buf.filePos)
    (id : BufId) :
    buf.rest =
      symbols (fileBytes buf.file buf.filePos (nextSize o buf)) (chunkFlags o buf).eof ++
        ((buf.withId id).from (buf.filePos + nextSize o buf)).rest := by
  obtain ⟨hmem, hin⟩ : buf.inMemory = false ∧ buf.inFile = true := by
    simpa [Buf.fromFile] using hfile
  have hle : nextSize o buf ≤ buf.available := by
    unfold nextSize
    split <;> omega
  have hstream : buf.rest = symbols (fileBytes buf.file buf.filePos buf.available) buf.eof := by
    rw [Buf.rest, if_neg hmore, Buf.stream, Buf.bytes, hmem, hin]
    rfl
  have hkeep : ¬ buf.fileLast < buf.filePos + nextSize o buf := by
    unfold Buf.available at hle
    omega
  have hfrom : ((buf.withId id).from (buf.filePos + nextSize o buf)).rest =
      if buf.fileLast ≤ buf.filePos + nextSize o buf then []
      else symbols (fileBytes buf.file (buf.filePos + nextSize o buf)
        (buf.available - nextSize o buf)) buf.eof := by
    have hsub : buf.fileLast - (buf.filePos + nextSize o buf) = buf.available - nextSize o buf :=
      Nat.sub_add_eq ..
    simp only [Buf.rest, Buf.stream, Buf.bytes, Buf.from, Buf.withId, if_neg hkeep, hmem, hin, hsub]
    rfl
  rw [hstream, hfrom]
  by_cases hlast : nextSize o buf = buf.available
  · have hdone : buf.fileLast ≤ buf.filePos + nextSize o buf := by
      rw [hlast]
      unfold Buf.available
      omega
    rw [chunkFlags, if_pos hlast, if_pos hdone, hlast, List.append_nil]
  · have hmore' : ¬ buf.fileLast ≤ buf.filePos + nextSize o buf := by
      unfold Buf.available at hle hlast
      omega
    rw [chunkFlags, if_neg hlast, if_neg hmore']
    have hsum : buf.available = nextSize o buf + (buf.available - nextSize o buf) := by omega
    conv_lhs => rw [hsum, fileBytes_add, symbols_append]
    rfl

theorem link_first {c : Ctx} (h : c.pendingLast = .pending) (buf : Buf) :
    c.link buf = { c with pending := [buf], pendingLast := .next 0 } := by
  unfold Ctx.link
  rw [h]

theorem view_onCtx (f : Ctx → Ctx) (s : State) : (s.onCtx f).view = s.view.onCtx f := rfl

/-- A read of the next chunk is in flight, and what is left of the file waits. -/
def View.scheduled (o : Outside) (buf : Buf) (id : BufId) (v : View) : View :=
  (v.onCtx fun c => { (c.setRead buf (nextSize o buf)).setChunk (chunkFlags o buf) with
    pending := [(buf.withId id).from (buf.filePos + nextSize o buf)]
    pendingLast := .next 0 }).read.onCtx (.setWaiting true)

/-- The next chunk of a file with nothing behind it is scheduled. -/
theorem wlp_scheduleFileChunk {buf : Buf} {s : State} (htail : TailOk s.view.ctx)
    (hpending : s.view.ctx.pending = []) (hfile : buf.fromFile = true) (hchunk : 0 < o.chunkSize)
    (hmore : ¬ buf.fileLast ≤ buf.filePos) :
    wlp (scheduleFileChunk o buf []) (fun _ s' => ∃ id, s'.view = s.view.scheduled o buf id) s := by
  have hlast : s.view.ctx.pendingLast = .pending := by
    unfold TailOk at htail
    rwa [hpending] at htail
  have hpos : buf.filePos + nextSize o buf ≠ 0 := by
    unfold nextSize Buf.available
    split <;> omega
  unfold scheduleFileChunk
  rw [if_neg hmore, wlp_update_bind]
  refine wlp_bind (wlp_alloc _ _) fun _ s₁ hv₁ => ?_
  rw [wlp_update_bind]
  have hlast₁ : s₁.view.ctx.pendingLast = .pending := by
    rw [hv₁]
    exact hlast
  refine wlp_bind (wlp_queueRest hfile hpos ?_) ?_
  · exact fun hnull => TailSlot.noConfusion (hlast₁.symm.trans hnull)
  rintro _ s₂ ⟨id, hv₂⟩
  refine wlp_bind (wlp_threadRead s₂) fun _ s₃ hv₃ => ?_
  refine ⟨id, ?_⟩
  rw [view_onCtx, hv₃, hv₂, view_onCtx, hv₁, view_onCtx]
  have hlast' : ((s.view.ctx.setRead buf (nextSize o buf)).setChunk
      (chunkFlags o buf)).pendingLast = .pending := hlast
  unfold View.scheduled View.onCtx
  dsimp only
  rw [link_first hlast']

/-- **A file is taken up**: its first chunk is read, and the rest waits. -/
theorem Idle.schedule {sent : List Sym} {buf : Buf} {s : State} (h : Idle sent [] s.view)
    (hfile : buf.fromFile = true) (hchunk : 0 < o.chunkSize) :
    wlp (scheduleFileChunk o buf []) (fun _ s' => Settled (sent ++ buf.rest) s'.view) s := by
  by_cases hmore : buf.fileLast ≤ buf.filePos
  · unfold scheduleFileChunk
    rw [if_pos hmore]
    refine .inl ?_
    rw [Buf.rest, if_pos hmore, List.append_nil]
    exact h
  · refine wlp_mono (wlp_scheduleFileChunk h.tail h.pending hfile hchunk hmore) ?_
    rintro _ s' ⟨id, hv⟩
    refine .inr ⟨sent, (buf.withId id).from (buf.filePos + nextSize o buf), ?_⟩
    rw [hv, rest_split o hfile hmore id]
    exact
      ⟨{ created := h.created
         tail := rfl
         pending := rfl
         waiting := rfl
         aio := rfl
         given := h.given
         passed := h.passed_all
         fromFile := hfile }, rfl⟩

/-- A file that the loop comes to, with nothing behind it. -/
theorem Idle.processFile {sent : List Sym} {out : List Buf} {buf : Buf} {s : State}
    (h : Idle sent out s.view) (hfile : buf.fromFile = true) (hchunk : 0 < o.chunkSize) :
    wlp (process o [buf] out) (fun _ s' => Settled (sent ++ buf.rest) s'.view) s := by
  have hne : o.chunkSize ≠ 0 := Nat.ne_of_gt hchunk
  rw [process, if_pos ⟨hfile, hne⟩]
  refine wlp_bind h.passSome fun _ s₁ h₁ => ?_
  refine wlp_bind (h₁.schedule hfile hchunk) fun _ s₂ h₂ => ?_
  exact h₂

/-- The end of a chain. -/
theorem Idle.processNil {sent : List Sym} {out : List Buf} {s : State} (h : Idle sent out s.view) :
    wlp (process o [] out) (fun _ s' => Settled sent s'.view) s := by
  rw [process]
  split
  · rename_i hout
    refine .inl ?_
    have hview : (if s.ctx.busy then s else setBuffered false s).view = s.view := by
      split <;> rfl
    rw [hview]
    exact hout ▸ h
  · refine wlp_bind (wlp_passOn out s) fun _ s' hv => ?_
    have hview : (setBuffered s'.ctx.busy s').view = s.view.pass out := hv
    refine .inl ?_
    rw [hview]
    exact h.pass

/-! ## Chains -/

/-- A buffer in memory, in a file, or special. -/
def Buf.wellFormed (b : Buf) : Prop :=
  b.inMemory ∨ b.inFile ∨ b.flush ∨ b.sync ∨ b.lastBuf

instance (b : Buf) : Decidable b.wellFormed := inferInstanceAs (Decidable (_ ∨ _))

/-- A file is the last buffer of its chain, and if it is empty it does not end the body. -/
def FileLast : List Buf → Prop
  | [] => True
  | [buf] => buf.fromFile = true → buf.fileLast ≤ buf.filePos → buf.eof = false
  | buf :: next :: rest => buf.fromFile = false ∧ FileLast (next :: rest)

instance FileLast.decidable : ∀ chain, Decidable (FileLast chain)
  | [] => inferInstanceAs (Decidable True)
  | [buf] => inferInstanceAs
      (Decidable (buf.fromFile = true → buf.fileLast ≤ buf.filePos → buf.eof = false))
  | buf :: next :: rest =>
    @instDecidableAnd (buf.fromFile = false) _ _ (FileLast.decidable (next :: rest))

/-- A file brings what is left of it. -/
theorem stream_of_fromFile {buf : Buf} (hfile : buf.fromFile = true)
    (hend : buf.fileLast ≤ buf.filePos → buf.eof = false) : buf.stream = buf.rest := by
  obtain ⟨hmem, hin⟩ : buf.inMemory = false ∧ buf.inFile = true := by
    simpa [Buf.fromFile] using hfile
  unfold Buf.rest
  split
  · rename_i hempty
    rw [Buf.stream, Buf.bytes, hmem, hin, hend hempty, Nat.sub_eq_zero_of_le hempty]
    rfl
  · rfl

/-- **A chain** with no file but its last buffer. -/
theorem Idle.process {sent : List Sym} {chain out : List Buf} {s : State}
    (hguest : ∀ given, o.guest given = some none) (hchunk : 0 < o.chunkSize)
    (h : Idle sent out s.view) (hkind : ∀ b ∈ chain, b.wellFormed) (hlast : FileLast chain) :
    wlp (process o chain out) (fun _ s' => Settled (sent ++ streamOf chain) s'.view) s := by
  induction chain generalizing sent out s with
  | nil =>
    refine wlp_mono h.processNil fun _ s' hs => ?_
    exact (List.append_nil sent).symm ▸ hs
  | cons buf rest ih =>
    obtain ⟨hbuf, hrest⟩ := List.forall_mem_cons.mp hkind
    cases hfile : buf.fromFile with
    | true =>
      have hnil : rest = [] := by
        cases rest with
        | nil => rfl
        | cons next rest => exact absurd (hfile.symm.trans hlast.1) nofun
      subst hnil
      rw [streamOf_singleton, stream_of_fromFile hfile (hlast hfile)]
      exact h.processFile hfile hchunk
    | false =>
      have hlast' : FileLast rest := by
        cases rest with
        | nil => trivial
        | cons next rest => exact hlast.2
      rw [BodyFilter.process, if_neg (by simp [hfile])]
      refine wlp_bind (h.filterBuf hguest hfile hbuf) fun out' s' h' => ?_
      refine wlp_mono (ih h' hrest hlast') fun _ s'' hs => ?_
      rw [List.append_assoc] at hs
      exact hs

/-! ## Events -/

theorem wlp_completeFileChunk {data : Bytes} {s : State}
    (hguest : ∀ given, o.guest given = some none) (hdata : data.length = s.ctx.readSize) :
    wlp (completeFileChunk o (some data))
      (fun out s' => (∃ buf, out = [buf] ∧ buf.stream = symbols data s.ctx.chunk.eof) ∧
        s'.view = s.view.give ⟨data, s.ctx.chunk.eof⟩) s := by
  unfold completeFileChunk
  rw [wlp_read_bind]
  dsimp only
  rw [if_neg (fun hne => hne hdata)]
  refine wlp_bind (wlp_runChunk hguest _ _ s) ?_
  rintro _ s₁ ⟨rfl, hv₁⟩
  refine wlp_bind (wlp_createBuf data s.ctx.chunk s₁) ?_
  rintro buf s₂ ⟨hstream, hv₂⟩
  refine wlp_mono (wlp_append [] buf s₂) ?_
  rintro _ s₃ ⟨rfl, hv₃⟩
  exact ⟨⟨buf, rfl, hstream⟩, hv₃.trans (hv₂.trans hv₁)⟩

/-- **A read ends**: its chunk is delivered, and the file goes on. -/
theorem Reading.threadEvent {sent : List Sym} {rest : Buf} {s : State}
    (hguest : ∀ given, o.guest given = some none) (hchunk : 0 < o.chunkSize)
    (h : Reading sent rest s.view) :
    wlp (threadEventHandler o (some s.ctx.readChunk.data))
      (fun _ s' => Settled (sent ++ (s.ctx.readChunk.stream ++ rest.rest)) s'.view) s := by
  unfold threadEventHandler
  rw [wlp_update_bind]
  refine wlp_bind (wlp_completeFileChunk hguest (fileBytes_length ..)) ?_
  rintro _ s₁ ⟨⟨buf, rfl, hstream⟩, hv₁⟩
  rw [wlp_read_bind, wlp_update_bind]
  have hpending : s₁.ctx.pending = [rest] := (congrArg (·.ctx.pending) hv₁).trans h.pending
  have hidle : Idle (sent ++ s.ctx.readChunk.stream) [buf] (s₁.onCtx .drain).view := by
    rw [view_onCtx, hv₁]
    exact
      { created := h.created
        tail := rfl
        pending := rfl
        waiting := rfl
        aio := rfl
        given := by
          have hgive := View.given_give ⟨s.ctx.readChunk.data, s.ctx.chunk.eof⟩ s.view
          rw [h.given] at hgive
          exact hgive
        passed := by
          rw [streamOf_append, streamOf_singleton, hstream]
          exact congrArg (· ++ _) h.passed }
  rw [hpending]
  refine wlp_bind (hidle.processFile h.fromFile hchunk) fun _ s₂ h₂ => ?_
  rw [List.append_assoc] at h₂
  exact h₂

/-- The filter has not been called with a chain yet. -/
structure Fresh (v : View) : Prop where
  created : v.created = false
  pending : v.ctx.pending = []
  aio : v.aio = false
  given : v.given = []
  passed : streamOf v.passed.flatten = []

/-- The stream the filter has taken up, from the first event on. -/
def TakenUp (recv : List Sym) (v : View) : Prop := Settled recv v ∨ Fresh v ∧ recv = []

/-- An empty chain is passed on and brings nothing. -/
theorem TakenUp.pass_nil {recv : List Sym} {v : View} (h : TakenUp recv v) :
    TakenUp recv (v.pass []) := by
  have hpassed : streamOf (v.pass []).passed.flatten = streamOf v.passed.flatten := by
    rw [View.passed_pass, List.append_nil]
  rcases h with (h | ⟨sent, rest, h, hrecv⟩) | ⟨h, hrecv⟩
  · exact .inl (.inl h.pass)
  · exact .inl (.inr ⟨sent, rest, { h with passed := hpassed.trans h.passed }, hrecv⟩)
  · exact .inr ⟨{ h with passed := hpassed.trans h.passed }, hrecv⟩

/-- The filter gets a context, which is ready for a chain. -/
theorem wlp_getOrCreateCtx {recv : List Sym} {s : State} (h : TakenUp recv s.view)
    (haio : s.aio = false) : wlp getOrCreateCtx (fun _ s' => Idle recv [] s'.view) s := by
  rw [getOrCreateCtx, wlp_read_bind]
  rcases h with (h | ⟨sent, rest, h, -⟩) | ⟨h, rfl⟩
  · have hcreated : s.created = true := h.created
    rw [if_pos hcreated]
    exact h
  · exact absurd (haio.symm.trans h.aio) Bool.false_ne_true
  · have hcreated : ¬ s.created = true := Bool.eq_false_iff.mp h.created
    rw [if_neg hcreated]
    refine wp_bind.mpr (wp_createCtx.mpr ?_)
    split
    · split
      · exact
          { created := rfl
            tail := rfl
            pending := rfl
            waiting := rfl
            aio := haio
            given := congrArg (List.flatMap Chunk.stream) h.given
            passed := by
              rw [List.append_nil]
              exact h.passed }
      · trivial
    · trivial

/-- **A chain arrives.** -/
theorem TakenUp.handler {recv : List Sym} {chain : List Buf} {s : State}
    (henabled : o.enabled = true) (hguest : ∀ given, o.guest given = some none)
    (hchunk : 0 < o.chunkSize) (h : TakenUp recv s.view) (hkind : ∀ b ∈ chain, b.wellFormed)
    (hok : chain = [] ∨ s.aio = false ∧ FileLast chain) :
    wlp (handler o chain) (fun _ s' => TakenUp (recv ++ streamOf chain) s'.view) s := by
  by_cases hnil : chain = []
  · subst hnil
    rw [BodyFilter.handler, if_pos (.inl rfl)]
    refine wlp_mono (wlp_passOn [] s) fun _ s' hv => ?_
    rw [hv]
    exact (List.append_nil recv).symm ▸ h.pass_nil
  · obtain ⟨haio, hlast⟩ := hok.resolve_left hnil
    have hrun : ¬ (chain = [] ∨ (!o.enabled) = true) := by simp [hnil, henabled]
    rw [BodyFilter.handler, if_neg hrun]
    refine wlp_bind (wlp_getOrCreateCtx h haio) fun _ s' h' => ?_
    have hwaiting : ¬ s'.ctx.waiting = true := Bool.eq_false_iff.mp h'.waiting
    rw [takeChain, wlp_read_bind, if_neg hwaiting]
    exact wlp_mono (h'.process hguest hchunk hkind hlast) fun _ _ hs => .inl hs

end Functions

/-! ## Runs -/

/-- A run as it is watched: whether a call of the filter has failed, and the buffers it was handed. -/
structure Watched where
  state : State
  failed : Bool
  received : List Buf

def Event.chain : Event → List Buf
  | .output chain => chain
  | _ => []

def Watched.step (o : Outside) (w : Watched) (e : Event) : Watched :=
  ⟨BodyFilter.step o w.state e, w.failed || (e.handle o w.state).1.isNone, w.received ++ e.chain⟩

def Watched.start (p : Abi.Pool) : Watched := ⟨BodyFilter.start p, false, []⟩

/-- Every buffer is in memory, in a file or special, a read gives the bytes that were asked for, and it
is the body filter that creates the context. -/
def Served (w : Watched) : Event → Prop
  | .hook _ => w.state.created = true
  | .output chain => ∀ b ∈ chain, b.wellFormed
  | .readDone data => data = some w.state.ctx.readChunk.data

/-- Nothing comes behind a file: it is the last buffer of its chain, and no chain arrives while it is
read. -/
def FileAlone (w : Watched) : Event → Prop
  | .output chain => chain = [] ∨ w.state.aio = false ∧ FileLast chain
  | _ => True

instance (w : Watched) : ∀ e, Decidable (Served w e)
  | .hook _ => inferInstanceAs (Decidable (w.state.created = true))
  | .output chain => inferInstanceAs (Decidable (∀ b ∈ chain, b.wellFormed))
  | .readDone data => inferInstanceAs (Decidable (data = some w.state.ctx.readChunk.data))

instance (w : Watched) : ∀ e, Decidable (FileAlone w e)
  | .output chain => inferInstanceAs (Decidable (chain = [] ∨ w.state.aio = false ∧ FileLast chain))
  | .hook _ | .readDone _ => inferInstanceAs (Decidable True)

/-- What was handed to the filter was delivered. -/
structure Delivered (w : Watched) : Prop where
  given : w.state.given.flatMap Chunk.data = w.received.flatMap Buf.bytes
  givenEof : w.state.given.countP Chunk.eof = w.received.countP fun b => b.eof
  passed : w.state.passed.flatten.flatMap Buf.bytes = w.received.flatMap Buf.bytes
  passedEof : (w.state.passed.flatten.countP fun b => b.eof) = w.received.countP fun b => b.eof
  pending : w.state.ctx.pending = []

theorem wlp_handle {o : Outside} {w : Watched} {e : Event} (henabled : o.enabled = true)
    (hchunk : 0 < o.chunkSize) (hguest : ∀ given, o.guest given = some none)
    (h : TakenUp (streamOf w.received) w.state.view) (hserved : Served w e) (halone : FileAlone w e) :
    wlp (e.handle o) (fun _ s' => TakenUp (streamOf (w.received ++ e.chain)) s'.view) w.state := by
  rw [streamOf_append]
  cases e with
  | hook hook =>
    have hcreated : w.state.created = true := hserved
    rw [Event.handle, getOrCreateHookCtx, wlp_read_bind, if_pos hcreated]
    exact (List.append_nil (streamOf w.received)).symm ▸ h
  | output chain =>
    exact wlp_bind (h.handler henabled hguest hchunk hserved halone) fun _ _ hs => hs
  | readDone data =>
    obtain rfl : data = some w.state.ctx.readChunk.data := hserved
    rw [Event.handle, wlp_read_bind]
    have hnone (data : Option Bytes) :
        streamOf w.received ++ streamOf (Event.readDone data).chain = streamOf w.received :=
      List.append_nil _
    rw [hnone]
    split
    · rename_i haio
      rcases h with (h | ⟨sent, rest, h, hrecv⟩) | ⟨h, -⟩
      · exact absurd (h.aio.symm.trans haio) Bool.false_ne_true
      · rw [hrecv]
        exact wlp_mono (h.threadEvent hguest hchunk) fun _ _ hs => .inl hs
      · exact absurd (h.aio.symm.trans haio) Bool.false_ne_true
    · exact h

/-- As long as no call has failed, the filter has taken up what it was handed. -/
def Good (w : Watched) : Prop := w.failed = false → TakenUp (streamOf w.received) w.state.view

theorem good_step {o : Outside} {w : Watched} {e : Event} (henabled : o.enabled = true)
    (hchunk : 0 < o.chunkSize) (hguest : ∀ given, o.guest given = some none) (h : Good w)
    (hserved : Served w e) (halone : FileAlone w e) : Good (w.step o e) := by
  intro hfailed
  obtain ⟨hbefore, hsome⟩ : w.failed = false ∧ (e.handle o w.state).1.isNone = false := by
    simpa [Watched.step] using hfailed
  have hwp := wlp_handle henabled hchunk hguest (h hbefore) hserved halone
  obtain ⟨a, ha⟩ : ∃ a, (e.handle o w.state).1 = some a := by
    rw [← Option.isSome_iff_exists]
    simpa using hsome
  exact hwp.of_run.1 a ha

/-- With no read in flight, what was taken up was delivered. -/
theorem TakenUp.whole {w : Watched} (h : TakenUp (streamOf w.received) w.state.view)
    (haio : w.state.aio = false) : Delivered w := by
  obtain ⟨hgiven, hpassed, hpending⟩ :
      w.state.given.flatMap Chunk.stream = streamOf w.received ∧
        streamOf w.state.passed.flatten = streamOf w.received ∧ w.state.ctx.pending = [] := by
    rcases h with (h | ⟨sent, rest, h, -⟩) | ⟨h, hrecv⟩
    · exact ⟨h.given, h.passed_all, h.pending⟩
    · exact absurd (haio.symm.trans h.aio) nofun
    · refine ⟨?_, h.passed.trans hrecv.symm, h.pending⟩
      rw [hrecv]
      exact congrArg (List.flatMap Chunk.stream) h.given
  exact
    { given := by
        rw [← bytes_flatMap Chunk.data Chunk.eof, ← bytes_flatMap Buf.bytes fun b => b.eof]
        exact congrArg _ hgiven
      givenEof := by
        rw [← eofs_flatMap Chunk.data Chunk.eof, ← eofs_flatMap Buf.bytes fun b => b.eof]
        exact congrArg _ hgiven
      passed := by
        rw [← bytes_flatMap Buf.bytes fun b => b.eof, ← bytes_flatMap Buf.bytes fun b => b.eof]
        exact congrArg _ hpassed
      passedEof := by
        rw [← eofs_flatMap Buf.bytes fun b => b.eof, ← eofs_flatMap Buf.bytes fun b => b.eof]
        exact congrArg _ hpassed
      pending := hpending }

/-- **Every byte is delivered once and in order**, whenever no read is in flight, in any run in which
nothing comes behind a file. -/
theorem delivered (o : Outside) (p : Abi.Pool) (henabled : o.enabled = true)
    (hchunk : 0 < o.chunkSize) (hguest : ∀ given, o.guest given = some none) (events : List Event)
    (hok : Meets (Watched.step o) (fun w e => Served w e ∧ FileAlone w e) (.start p) events)
    (hfailed : (runFrom (Watched.step o) (.start p) events).failed = false)
    (haio : (runFrom (Watched.step o) (.start p) events).state.aio = false) :
    Delivered (runFrom (Watched.step o) (.start p) events) := by
  have hgood : Good (runFrom (Watched.step o) (.start p) events) := by
    refine hok.invariant (fun _ => .inr ⟨⟨rfl, rfl, rfl, rfl, rfl⟩, rfl⟩) fun w e h hstep => ?_
    exact good_step henabled hchunk hguest h hstep.1 hstep.2
  exact (hgood hfailed).whole haio

/-- A buffer of two bytes in memory. -/
def memBuf (n : Nat) (flags : Flags) : Buf :=
  { flags with id := .given n, inMemory := true, data := [1, 2] }

/-- A buffer in memory and a file of six bytes, which is read in two chunks and ends the body. -/
theorem delivered_file :
    let events : List Event :=
      [.output [memBuf 0 {}, fileBuf 1 6 { lastBuf := true }], .readDone (some [0, 0, 0, 0]),
        .output [], .readDone (some [0, 0])]
    Delivered (runFrom (Watched.step plainOutside) (.start freePool) events) :=
  delivered plainOutside freePool rfl (by decide) (fun _ => rfl)
    [.output [memBuf 0 {}, fileBuf 1 6 { lastBuf := true }], .readDone (some [0, 0, 0, 0]),
      .output [], .readDone (some [0, 0])] (by decide +kernel)
    (by decide +kernel) (by decide +kernel)

/-- Behind the file comes a buffer in memory that ends the body. The reads succeed, and the buffer is
still queued. -/
theorem rest_stays_queued :
    let events : List Event :=
      [.output [fileBuf 0 6 {}, memBuf 1 { lastBuf := true }], .readDone (some [0, 0, 0, 0]),
        .readDone (some [0, 0])]
    let w := runFrom (Watched.step plainOutside) (.start freePool) events
    Meets (Watched.step plainOutside) Served (.start freePool) events ∧ w.failed = false ∧
      w.state.aio = false ∧ w.state.ctx.pending ≠ [] ∧
      w.state.given.flatMap Chunk.data = [0, 0, 0, 0, 0, 0] ∧
      w.received.flatMap Buf.bytes = [0, 0, 0, 0, 0, 0, 1, 2] ∧
      w.state.given.countP Chunk.eof = 0 ∧ (w.received.countP fun b => b.eof) = 1 := by
  decide +kernel

end NgxWasm.BodyFilter
