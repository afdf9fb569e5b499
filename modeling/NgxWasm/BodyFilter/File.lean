import NgxWasm.BodyFilter.Delivery
import NgxWasm.BodyFilter.Succeeds

/-!
# A file, chunk by chunk (`src/ngx_http_wasm_body_filter.c`)

A buffer in a file goes through the filter in three steps that repeat: a chunk is scheduled, its read
ends, and the rest of the buffer is taken from the queue again. After the last chunk the rest is empty.

* `Buf.chunks`: the chunks of a file, in closed form. `Buf.chunks_step`: the first of them is the one
  that is scheduled, and the others are those of the rest that is queued. `chunks_cover`: one after
  the other they are the file.
* `Progress`: how many reads are still to come, and that the chunks given so far, the one that is read
  and those of the rest are the chunks of the file.
* `Quiet.schedule`, `InFlight.threadEvent`: the file is taken up, and one read ends.
* `file_in_chunks`: the whole run of one file.

The guest is any that does not fail, and may replace what it likes; what the statement is about is
which chunks it was given, and the flags of what was passed on. Nothing fails outside of the filter
(`Outside.Works`), memory is granted, and the reads give what was asked for; between them nginx may
call the filter with empty chains, and other hooks may run (`Serves`).

The induction is on the number of reads to come. A read that ends takes one off, and a call with an
empty chain or another hook leaves it, so that after as many reads as the file has chunks nothing is
left to come, and `Progress` says that everything was given and passed on.
-/

namespace NgxWasm.BodyFilter

open Lib Lib.Fallible

/-! ## The chunks of a file -/

/-- How many chunks of `c` bytes there are in `n`. -/
def chunkCount (c n : Nat) : Nat := (n + c - 1) / c

/-- The flags of the `i`-th chunk: those of the buffer, on the last one. -/
def Buf.nthFlags (c : Nat) (b : Buf) (i : Nat) : Flags :=
  if i + 1 = chunkCount c b.available then b.toFlags else {}

/-- The `i`-th chunk. -/
def Buf.nthChunk (c : Nat) (b : Buf) (i : Nat) : Chunk :=
  ⟨fileBytes b.file (b.filePos + i * c) (min c (b.available - i * c)), (b.nthFlags c i).eof⟩

def Buf.chunks (c : Nat) (b : Buf) : List Chunk :=
  (List.range (chunkCount c b.available)).map (b.nthChunk c)

def Buf.flags (c : Nat) (b : Buf) : List Flags :=
  (List.range (chunkCount c b.available)).map (b.nthFlags c)

theorem chunkCount_zero {c : Nat} (hc : 0 < c) : chunkCount c 0 = 0 := by
  unfold chunkCount
  rw [Nat.zero_add]
  exact Nat.div_eq_of_lt (Nat.sub_one_lt_of_lt hc)

/-- One chunk less is left when one is taken. -/
theorem chunkCount_step {c n : Nat} (hc : 0 < c) (hn : 0 < n) :
    chunkCount c n = chunkCount c (n - min c n) + 1 := by
  unfold chunkCount
  rcases Nat.le_total n c with hle | hle
  · rw [Nat.min_eq_right hle, Nat.sub_self, Nat.zero_add,
      Nat.div_eq_of_lt (Nat.sub_one_lt_of_lt hc), Nat.zero_add]
    exact Nat.div_eq_of_lt_le (by omega) (by omega)
  · rw [Nat.min_eq_left hle]
    have hsum : n + c - 1 = (n - c + c - 1) + c := by omega
    rw [hsum, Nat.add_div_right _ hc]

theorem chunks_length (c : Nat) (b : Buf) : (b.chunks c).length = chunkCount c b.available := by
  rw [Buf.chunks, List.length_map, List.length_range]

theorem chunks_of_empty {c : Nat} (hc : 0 < c) {b : Buf} (h : b.fileLast ≤ b.filePos) :
    b.chunks c = [] ∧ b.flags c = [] := by
  have hzero : b.available = 0 := Nat.sub_eq_zero_of_le h
  unfold Buf.chunks Buf.flags
  rw [hzero, chunkCount_zero hc]
  exact ⟨rfl, rfl⟩

section Step

variable {o : Outside} {buf : Buf}

theorem nextSize_eq (o : Outside) (buf : Buf) : nextSize o buf = min o.chunkSize buf.available := by
  unfold nextSize
  split <;> omega

/-- What is queued of a buffer once its next chunk is scheduled. -/
def Buf.queued (o : Outside) (id : BufId) (b : Buf) : Buf :=
  (b.withId id).from (b.filePos + nextSize o b)

theorem queued_available (id : BufId) :
    (buf.queued o id).available = buf.available - min o.chunkSize buf.available := by
  rw [← nextSize_eq o buf]
  unfold Buf.queued Buf.from Buf.withId Buf.available
  dsimp only
  split <;> omega

theorem queued_file (id : BufId) :
    (buf.queued o id).file = buf.file ∧ (buf.queued o id).filePos = buf.filePos + nextSize o buf ∧
      (buf.queued o id).toFlags = buf.toFlags := ⟨rfl, rfl, rfl⟩

/-- The chunk after a first one is one of the rest. -/
theorem nthFlags_succ (hc : 0 < o.chunkSize) (hmore : buf.filePos < buf.fileLast) (id : BufId)
    (i : Nat) :
    buf.nthFlags o.chunkSize (i + 1) = (buf.queued o id).nthFlags o.chunkSize i := by
  have hn : 0 < buf.available := Nat.sub_pos_of_lt hmore
  unfold Buf.nthFlags
  rw [queued_available, chunkCount_step hc hn]
  simp only [Nat.add_right_cancel_iff, (queued_file id).2.2]

theorem nthChunk_succ (hc : 0 < o.chunkSize) (hmore : buf.filePos < buf.fileLast) (id : BufId)
    {i : Nat} (hi : i < chunkCount o.chunkSize (buf.queued o id).available) :
    buf.nthChunk o.chunkSize (i + 1) = (buf.queued o id).nthChunk o.chunkSize i := by
  have hfull : o.chunkSize < buf.available := by
    by_contra hle
    rw [queued_available, Nat.min_eq_right (Nat.le_of_not_lt hle), Nat.sub_self,
      chunkCount_zero hc] at hi
    exact Nat.not_lt_zero i hi
  have hsize : nextSize o buf = o.chunkSize := by
    rw [nextSize_eq, Nat.min_eq_left hfull.le]
  obtain ⟨hfile, hpos, -⟩ := @queued_file o buf id
  unfold Buf.nthChunk
  rw [nthFlags_succ hc hmore id, hfile, hpos, queued_available, hsize, Nat.min_eq_left hfull.le]
  have hoffset : buf.filePos + (i + 1) * o.chunkSize =
      buf.filePos + o.chunkSize + i * o.chunkSize := by
    rw [Nat.succ_mul]
    omega
  have hleft : buf.available - (i + 1) * o.chunkSize =
      buf.available - o.chunkSize - i * o.chunkSize := by
    rw [Nat.succ_mul]
    omega
  rw [hoffset, hleft]

/-- **The chunks of a file**: the one that is scheduled, and those of the rest that is queued. -/
theorem chunks_step (hc : 0 < o.chunkSize) (hmore : buf.filePos < buf.fileLast) (id : BufId) :
    buf.chunks o.chunkSize =
        ⟨fileBytes buf.file buf.filePos (nextSize o buf), (chunkFlags o buf).eof⟩ ::
          (buf.queued o id).chunks o.chunkSize ∧
      buf.flags o.chunkSize = chunkFlags o buf :: (buf.queued o id).flags o.chunkSize := by
  have hn : 0 < buf.available := Nat.sub_pos_of_lt hmore
  have hcount : chunkCount o.chunkSize buf.available =
      chunkCount o.chunkSize (buf.queued o id).available + 1 := by
    rw [queued_available]
    exact chunkCount_step hc hn
  -- the first chunk is the last one if it takes all that is left
  have hfirst : buf.nthFlags o.chunkSize 0 = chunkFlags o buf := by
    unfold Buf.nthFlags chunkFlags
    rw [hcount, queued_available, nextSize_eq]
    have hiff : 0 + 1 = chunkCount o.chunkSize (buf.available - min o.chunkSize buf.available) + 1 ↔
        min o.chunkSize buf.available = buf.available := by
      rw [Nat.add_right_cancel_iff]
      constructor
      · intro h
        unfold chunkCount at h
        have hlt := (Nat.div_eq_zero_iff.mp h.symm).resolve_left (Nat.ne_of_gt hc)
        omega
      · intro h
        rw [h, Nat.sub_self, chunkCount_zero hc]
    simp only [hiff]
  have hchunk : buf.nthChunk o.chunkSize 0 =
      ⟨fileBytes buf.file buf.filePos (nextSize o buf), (chunkFlags o buf).eof⟩ := by
    unfold Buf.nthChunk
    rw [hfirst, Nat.zero_mul, Nat.add_zero, Nat.sub_zero, nextSize_eq]
  constructor
  · rw [Buf.chunks, Buf.chunks, hcount, List.range_succ_eq_map, List.map_cons, List.map_map, hchunk]
    refine congrArg _ (List.map_congr_left fun i hi => ?_)
    exact nthChunk_succ hc hmore id (List.mem_range.mp hi)
  · rw [Buf.flags, Buf.flags, hcount, List.range_succ_eq_map, List.map_cons, List.map_map, hfirst]
    refine congrArg _ (List.map_congr_left fun i _ => ?_)
    exact nthFlags_succ hc hmore id i

/-- **The chunks are the file**, one after the other. -/
theorem chunks_cover (hc : 0 < o.chunkSize) (buf : Buf) :
    (buf.chunks o.chunkSize).flatMap Chunk.data =
      fileBytes buf.file buf.filePos buf.available := by
  induction hlen : (buf.chunks o.chunkSize).length generalizing buf with
  | zero =>
    have hnil : buf.chunks o.chunkSize = [] := List.length_eq_zero_iff.mp hlen
    have hempty : buf.available = 0 := by
      by_contra hne
      have hcount := chunks_length o.chunkSize buf
      rw [hlen, chunkCount_step hc (Nat.pos_of_ne_zero hne)] at hcount
      exact Nat.succ_ne_zero _ hcount.symm
    rw [hnil, hempty]
    rfl
  | succ k ih =>
    have hmore : buf.filePos < buf.fileLast := by
      by_contra hle
      rw [(chunks_of_empty hc (Nat.le_of_not_lt hle)).1] at hlen
      cases hlen
    obtain ⟨hstep, -⟩ := chunks_step hc hmore buf.id
    rw [hstep] at hlen ⊢
    obtain ⟨hfile, hpos, -⟩ := @queued_file o buf buf.id
    rw [List.flatMap_cons, ih _ (Nat.succ.inj hlen), hfile, hpos, queued_available, ← fileBytes_add,
      nextSize_eq]
    congr 1
    omega

end Step

/-- The chunks of a file as they should be. -/
structure Chunked (c : Nat) (b : Buf) (chunks : List Chunk) : Prop where
  /-- The quotient rounded up. -/
  count : chunks.length = (b.available + c - 1) / c
  /-- Contiguous and in the order of the file. -/
  cover : chunks.flatMap Chunk.data = fileBytes b.file b.filePos b.available
  full : ∀ i (h : i < chunks.length), i + 1 < chunks.length →
    chunks[i].data.length = c ∧ chunks[i].eof = false
  last : ∀ i (h : i < chunks.length), i + 1 = chunks.length →
    0 < chunks[i].data.length ∧ chunks[i].data.length ≤ c ∧ chunks[i].eof = b.eof

/-- Before the `i`-th of `⌈n / c⌉` chunks there is something left. -/
theorem lt_of_lt_chunkCount {c n i : Nat} (hc : 0 < c) (hi : i < chunkCount c n) : i * c < n := by
  unfold chunkCount at hi
  have hle : (i + 1) * c ≤ n + c - 1 := (Nat.le_div_iff_mul_le hc).mp hi
  rw [Nat.succ_mul] at hle
  omega

theorem chunked {o : Outside} (hc : 0 < o.chunkSize) (buf : Buf) :
    Chunked o.chunkSize buf (buf.chunks o.chunkSize) := by
  have hget : ∀ i (h : i < (buf.chunks o.chunkSize).length),
      (buf.chunks o.chunkSize)[i] = buf.nthChunk o.chunkSize i := by
    intro i h
    simp [Buf.chunks]
  have hsize : ∀ i, (buf.nthChunk o.chunkSize i).data.length =
      min o.chunkSize (buf.available - i * o.chunkSize) := fun i => fileBytes_length ..
  have hlen := chunks_length o.chunkSize buf
  refine ⟨hlen, chunks_cover hc buf, fun i h hi => ?_, fun i h hi => ?_⟩
  · rw [hget i h, hsize]
    rw [hlen] at hi
    have hleft := lt_of_lt_chunkCount hc hi
    rw [Nat.succ_mul] at hleft
    constructor
    · exact Nat.min_eq_left (by omega)
    · rw [Buf.nthChunk, Buf.nthFlags, if_neg (Nat.ne_of_lt hi)]
      rfl
  · rw [hget i h, hsize]
    rw [hlen] at h hi
    have hleft := lt_of_lt_chunkCount hc h
    refine ⟨?_, Nat.min_le_left .., ?_⟩
    · exact Nat.lt_min.mpr ⟨hc, by omega⟩
    · rw [Buf.nthChunk, Buf.nthFlags, if_pos hi]

/-! ## What each function does -/

/-- No read is in flight and nothing waits. The guest was given `given`, and what was passed on, and
`out`, has the flags `flags`. -/
structure Quiet (given : List Chunk) (flags : List Flags) (out : List Buf) (v : View) : Prop where
  created : v.created = true
  tail : TailOk v.ctx
  pending : v.ctx.pending = []
  waiting : v.ctx.waiting = false
  aio : v.aio = false
  given : v.given = given
  passed : (v.passed.flatten ++ out).map Buf.toFlags = flags

/-- A read is in flight, and `rest` waits. The chunk that is read and those of `rest` complete what is to
be given and passed on. -/
structure InFlight (c : Nat) (given : List Chunk) (flags : List Flags) (rest : Buf) (v : View) :
    Prop where
  created : v.created = true
  tail : TailOk v.ctx
  pending : v.ctx.pending = [rest]
  waiting : v.ctx.waiting = true
  aio : v.aio = true
  fromFile : rest.fromFile = true
  given : v.given ++ v.ctx.readChunk :: rest.chunks c = given
  passed : v.passed.flatten.map Buf.toFlags ++ v.ctx.chunk :: rest.flags c = flags

/-- `n` more reads, and the file is done. -/
def Progress (c : Nat) (given : List Chunk) (flags : List Flags) : Nat → View → Prop
  | 0, v => Quiet given flags [] v
  | n + 1, v => ∃ rest, InFlight c given flags rest v ∧ (rest.chunks c).length = n

section Functions

variable {o : Outside} {given : List Chunk} {flags : List Flags}

theorem wlp_createBuf_flags (data : Bytes) (src : Flags) (s : State) :
    wlp (createBuf data src) (fun buf s' => buf.toFlags = src ∧ s'.view = s.view) s :=
  wlp_bind (wlp_alloc bufSize s) fun _ _ h => ⟨rfl, h⟩

/-- A run of any guest. -/
theorem wlp_runChunk_any (src : Flags) (chunk : Chunk) (s : State) :
    wlp (runChunk o src chunk)
      (fun buf s' => (∀ b ∈ buf, b.toFlags = src) ∧ s'.view = s.view.give chunk) s := by
  unfold runChunk
  rw [wlp_update_bind, wlp_read_bind]
  split
  · trivial
  · exact ⟨nofun, rfl⟩
  · rename_i output _
    refine wlp_bind (wlp_createBuf_flags output src _) ?_
    rintro buf s' ⟨hflags, hv⟩
    refine ⟨fun b hb => ?_, hv⟩
    obtain rfl := Option.mem_some_iff.mp hb
    exact hflags

theorem Quiet.pass {out : List Buf} {v : View} (h : Quiet given flags out v) :
    Quiet given flags [] (v.pass out) := by
  refine { h with passed := ?_ }
  rw [← h.passed]
  simp [View.pass]

theorem Quiet.passSome {out : List Buf} {s : State} (h : Quiet given flags out s.view) :
    wlp (passSome o out) (fun _ s' => Quiet given flags [] s'.view) s := by
  unfold BodyFilter.passSome
  split
  · rename_i hout
    exact hout ▸ h
  · refine wlp_mono (wlp_passOn out s) fun _ s' hv => ?_
    rw [hv]
    exact h.pass

/-- **A file is scheduled**: its first chunk is read, and the rest waits. -/
theorem Quiet.schedule {buf : Buf} {s : State} (h : Quiet given flags [] s.view)
    (hfile : buf.fromFile = true) (hc : 0 < o.chunkSize) :
    wlp (scheduleFileChunk o buf [])
      (fun _ s' => Progress o.chunkSize (given ++ buf.chunks o.chunkSize)
        (flags ++ buf.flags o.chunkSize) (buf.chunks o.chunkSize).length s'.view) s := by
  by_cases hmore : buf.fileLast ≤ buf.filePos
  · unfold scheduleFileChunk
    rw [if_pos hmore]
    obtain ⟨hchunks, hflags⟩ := chunks_of_empty hc hmore
    rw [hchunks, hflags, List.append_nil, List.append_nil]
    exact h
  · refine wlp_mono (wlp_scheduleFileChunk h.tail h.pending hfile hc hmore) ?_
    rintro _ s' ⟨id, hv⟩
    obtain ⟨hchunks, hflags⟩ := chunks_step hc (Nat.lt_of_not_le hmore) id
    rw [hv, hchunks, hflags, List.length_cons]
    refine ⟨buf.queued o id, ?_, rfl⟩
    have hpassed : s.view.passed.flatten.map Buf.toFlags = flags := by
      have hp := h.passed
      rwa [List.append_nil] at hp
    exact
      { created := h.created
        tail := rfl
        pending := rfl
        waiting := rfl
        aio := rfl
        fromFile := hfile
        given := congrArg (· ++ _) h.given
        passed := congrArg (· ++ _) hpassed }

/-- A file that the loop comes to, with nothing behind it. -/
theorem Quiet.processFile {out : List Buf} {buf : Buf} {s : State}
    (h : Quiet given flags out s.view) (hfile : buf.fromFile = true) (hc : 0 < o.chunkSize) :
    wlp (process o [buf] out)
      (fun _ s' => Progress o.chunkSize (given ++ buf.chunks o.chunkSize)
        (flags ++ buf.flags o.chunkSize) (buf.chunks o.chunkSize).length s'.view) s := by
  rw [process, if_pos ⟨hfile, Nat.ne_of_gt hc⟩]
  refine wlp_bind h.passSome fun _ s₁ h₁ => ?_
  refine wlp_bind (h₁.schedule hfile hc) fun _ s₂ h₂ => ?_
  exact h₂

/-- The chunk that was read is given to the guest, and one buffer with its flags is passed on. -/
theorem wlp_completeFileChunk_any {data : Bytes} {s : State} (hdata : data.length = s.ctx.readSize) :
    wlp (completeFileChunk o (some data))
      (fun out s' => (∃ buf, out = [buf] ∧ buf.toFlags = s.ctx.chunk) ∧
        s'.view = s.view.give ⟨data, s.ctx.chunk.eof⟩) s := by
  unfold completeFileChunk
  rw [wlp_read_bind]
  dsimp only
  rw [if_neg (fun hne => hne hdata)]
  refine wlp_bind (wlp_runChunk_any _ _ s) ?_
  rintro replacement s₁ ⟨hflags, hv₁⟩
  cases replacement with
  | some buf =>
    refine wlp_mono (wlp_append [] buf s₁) ?_
    rintro _ s₂ ⟨rfl, hv₂⟩
    exact ⟨⟨buf, rfl, hflags buf rfl⟩, hv₂.trans hv₁⟩
  | none =>
    refine wlp_bind (wlp_createBuf_flags data s.ctx.chunk s₁) ?_
    rintro buf s₂ ⟨hflags', hv₂⟩
    refine wlp_mono (wlp_append [] buf s₂) ?_
    rintro _ s₃ ⟨rfl, hv₃⟩
    exact ⟨⟨buf, rfl, hflags'⟩, hv₃.trans (hv₂.trans hv₁)⟩

/-- **A read ends**: its chunk is given, and the next one is scheduled. -/
theorem InFlight.threadEvent {rest : Buf} {s : State} (hc : 0 < o.chunkSize)
    (h : InFlight o.chunkSize given flags rest s.view) :
    wlp (threadEventHandler o (some s.ctx.readChunk.data))
      (fun _ s' => Progress o.chunkSize given flags (rest.chunks o.chunkSize).length s'.view ∧
        s'.buffered = s'.ctx.busy) s := by
  unfold threadEventHandler
  rw [wlp_update_bind]
  refine wlp_bind (wlp_completeFileChunk_any (fileBytes_length ..)) ?_
  rintro _ s₁ ⟨⟨buf, rfl, hflags⟩, hv₁⟩
  rw [wlp_read_bind, wlp_update_bind]
  have hpending : s₁.ctx.pending = [rest] := (congrArg (·.ctx.pending) hv₁).trans h.pending
  have hquiet : Quiet (s.given ++ [s.ctx.readChunk])
      (s.passed.flatten.map Buf.toFlags ++ [s.ctx.chunk]) [buf] (s₁.onCtx .drain).view := by
    rw [view_onCtx, hv₁]
    exact
      { created := h.created
        tail := rfl
        pending := rfl
        waiting := rfl
        aio := rfl
        given := rfl
        passed := by
          rw [List.map_append, List.map_singleton, hflags]
          rfl }
  have hgiven : s.given ++ s.ctx.readChunk :: rest.chunks o.chunkSize = given := h.given
  have hpassed : s.passed.flatten.map Buf.toFlags ++ s.ctx.chunk :: rest.flags o.chunkSize = flags :=
    h.passed
  rw [hpending]
  refine wlp_bind (hquiet.processFile h.fromFile hc) fun _ s₂ h₂ => ?_
  rw [List.append_assoc, List.singleton_append, hgiven, List.append_assoc, List.singleton_append,
    hpassed] at h₂
  exact ⟨h₂, rfl⟩

/-! ## Events -/

/-- A request that is ready for a chain: its context, if it has one, has its tail, and nothing waits. -/
structure Ready (s : State) : Prop where
  crashed : s.crashed = false
  aio : s.aio = false
  idle : s.created = true → TailOk s.ctx ∧ s.ctx.pending = [] ∧ s.ctx.waiting = false

theorem Ready.getOrCreateCtx {s : State} (h : Ready s) :
    wlp getOrCreateCtx
      (fun _ s' => Quiet s.given (s.passed.flatten.map Buf.toFlags) [] s'.view) s := by
  rw [BodyFilter.getOrCreateCtx, wlp_read_bind]
  split
  · rename_i hc
    obtain ⟨htail, hpending, hwaiting⟩ := h.idle hc
    exact
      { created := hc
        tail := htail
        pending := hpending
        waiting := hwaiting
        aio := h.aio
        given := rfl
        passed := by rw [List.append_nil]; rfl }
  · refine wp_bind.mpr (wp_createCtx.mpr ?_)
    split
    · split
      · exact
          { created := rfl
            tail := rfl
            pending := rfl
            waiting := rfl
            aio := h.aio
            given := rfl
            passed := by rw [List.append_nil]; rfl }
      · trivial
    · trivial

/-- **The buffer arrives.** -/
theorem Ready.handler {s : State} {buf : Buf} (h : Ready s) (henabled : o.enabled = true)
    (hc : 0 < o.chunkSize) (hfile : buf.fromFile = true) :
    wlp (handler o [buf])
      (fun _ s' => Progress o.chunkSize (s.given ++ buf.chunks o.chunkSize)
        (s.passed.flatten.map Buf.toFlags ++ buf.flags o.chunkSize)
        (buf.chunks o.chunkSize).length s'.view) s := by
  have hrun : ¬ ([buf] = [] ∨ (!o.enabled) = true) := by simp [henabled]
  rw [BodyFilter.handler, if_neg hrun]
  refine wlp_bind h.getOrCreateCtx fun _ s' h' => ?_
  have hwaiting : ¬ s'.ctx.waiting = true := Bool.eq_false_iff.mp h'.waiting
  rw [takeChain, wlp_read_bind, if_neg hwaiting]
  exact h'.processFile hfile hc

theorem Ready.succeeds {s : State} {buf : Buf} (h : Ready s) (hg : Grants s) (ho : o.Works)
    (henabled : o.enabled = true) :
    wp (BodyFilter.handler o [buf]) (fun _ => Fed) (fun _ => False) s := by
  have hrun : ¬ ([buf] = [] ∨ (!o.enabled) = true) := by simp [henabled]
  rw [BodyFilter.handler, if_neg hrun, wp_bind]
  refine wp_mono (succeeds_getOrCreateCtx hg h.crashed fun hc => (h.idle hc).1) ?_ fun _ => id
  exact fun _ s' hfed => succeeds_takeChain ho [buf] s' hfed

/-- A state on the way through a file, with `n` reads to come. -/
structure Going (c : Nat) (given : List Chunk) (flags : List Flags) (n : Nat) (s : State) : Prop where
  progress : Progress c given flags n s.view
  fed : Fed s
  buffered : n = 0 → s.buffered = false

def Event.isRead : Event → Bool
  | .readDone _ => true
  | _ => false

/-- What happens while a file is read: the reads end with the bytes that were asked for, nginx calls the
filter with an empty chain, and other hooks run. -/
def Serves (s : State) : Event → Prop
  | .hook _ => True
  | .output chain => chain = []
  | .readDone data => data = some s.ctx.readChunk.data

instance (s : State) : ∀ e, Decidable (Serves s e)
  | .hook _ => inferInstanceAs (Decidable True)
  | .output chain => inferInstanceAs (Decidable (chain = []))
  | .readDone data => inferInstanceAs (Decidable (data = some s.ctx.readChunk.data))

theorem Progress.pass {c n : Nat} {v : View} (h : Progress c given flags n v) :
    Progress c given flags n (v.pass []) := by
  cases n with
  | zero => exact Quiet.pass h
  | succ n =>
    obtain ⟨rest, hrest, hlen⟩ := h
    have hsame : (v.pass []).passed.flatten = v.passed.flatten := by simp [View.pass]
    refine ⟨rest, { hrest with passed := ?_ }, hlen⟩
    rw [hsame]
    exact hrest.passed

/-- A read is in flight as long as there is one to come. -/
theorem Progress.aio_iff {c n : Nat} {v : View} (h : Progress c given flags n v) :
    v.aio = true ↔ n ≠ 0 := by
  cases n with
  | zero =>
    have haio : v.aio = false := h.aio
    simp [haio]
  | succ n =>
    obtain ⟨rest, hrest, -⟩ := h
    simp [hrest.aio]

/-- **One event** on the way. -/
theorem Going.handle {n : Nat} {s : State} {e : Event} (hc : 0 < o.chunkSize) (ho : o.Works)
    (h : Going o.chunkSize given flags n s) (he : Serves s e) :
    wp (e.handle o)
      (fun _ => Going o.chunkSize given flags (n - if e.isRead then 1 else 0)) (fun _ => False) s := by
  cases e with
  | hook hook =>
    rw [Event.handle, getOrCreateHookCtx, wp_bind, wp_read, if_pos h.fed.linked.created]
    exact h
  | output chain =>
    obtain rfl : chain = [] := he
    have hnext := ho.next (s.passed ++ [[]])
    have hfed : Fed { s with passed := s.passed ++ [[]] } := h.fed.congr rfl rfl
    simp only [Event.handle, handler, passOn, wp_bind, wp_update, wp_read, if_pos, true_or,
      if_neg hnext]
    exact ⟨h.progress.pass, hfed, h.buffered⟩
  | readDone data =>
    obtain rfl : data = some s.ctx.readChunk.data := he
    have hone : (if (Event.readDone (some s.ctx.readChunk.data)).isRead = true then 1 else 0) = 1 := rfl
    rw [hone, Event.handle, wp_bind, wp_read]
    split
    · rename_i haio
      cases n with
      | zero => exact absurd rfl (h.progress.aio_iff.mp haio)
      | succ n =>
        obtain ⟨rest, hrest, hlen⟩ := h.progress
        have htotal := (hrest.threadEvent hc).total
          (succeeds_threadEventHandler ho h.fed (fileBytes_length ..))
        refine wp_mono htotal ?_ fun _ => id
        rintro _ s' ⟨⟨hprogress, hbuffered⟩, hfed⟩
        rw [hlen] at hprogress
        refine ⟨hprogress, hfed, ?_⟩
        rintro rfl
        have hquiet : Quiet given flags [] s'.view := hprogress
        have hpending : s'.ctx.pending = [] := hquiet.pending
        have hwaiting : s'.ctx.waiting = false := hquiet.waiting
        rw [hbuffered, Ctx.busy, hpending, hwaiting]
        rfl
    · rename_i haio
      have hzero : n = 0 := by
        by_contra hne
        exact haio (h.progress.aio_iff.mpr hne)
      subst hzero
      exact h

/-- The events of a run on the way. -/
theorem Going.run {n : Nat} {w : Watched} {events : List Event} (hc : 0 < o.chunkSize)
    (ho : o.Works) (h : Going o.chunkSize given flags n w.state) (hw : w.failed = false)
    (hok : Meets (Watched.step o) (fun w e => Serves w.state e) w events) :
    (runFrom (Watched.step o) w events).failed = false ∧
      Going o.chunkSize given flags (n - events.countP Event.isRead)
        (runFrom (Watched.step o) w events).state := by
  induction events generalizing n w with
  | nil => exact ⟨hw, h⟩
  | cons e events ih =>
    obtain ⟨he, hrest⟩ := hok
    obtain ⟨_, hsome, hgoing⟩ := (h.handle hc ho he).succeeds
    have hnext : (w.step o e).failed = false := by
      simp only [Watched.step, hw, hsome, Option.isNone_some, Bool.or_false]
    obtain ⟨hfailed, hend⟩ := @ih _ (w.step o e) hgoing hnext hrest
    refine ⟨hfailed, ?_⟩
    rw [List.countP_cons, Nat.add_comm, ← Nat.sub_sub]
    exact hend

end Functions

/-! ## The run -/

/-- The flags of the buffers go with the last one. -/
theorem flags_eq {c : Nat} {b : Buf} (hn : 0 < chunkCount c b.available) :
    b.flags c = List.replicate (chunkCount c b.available - 1) ({} : Flags) ++ [b.toFlags] := by
  obtain ⟨k, hk⟩ := Nat.exists_eq_succ_of_ne_zero (Nat.ne_of_gt hn)
  unfold Buf.flags
  rw [hk, List.range_succ, List.map_append, List.map_singleton, Nat.succ_sub_one]
  have hlast : b.nthFlags c k = b.toFlags := if_pos hk.symm
  have hothers : (List.range k).map (b.nthFlags c) = List.replicate k ({} : Flags) := by
    refine List.eq_replicate_iff.mpr ⟨by simp, fun f hf => ?_⟩
    obtain ⟨i, hi, rfl⟩ := List.mem_map.mp hf
    have hlt := List.mem_range.mp hi
    exact if_neg (by omega)
  rw [hlast, hothers]

/-- **A file goes through the guest chunk by chunk.** Where nothing outside of the filter fails, and the
reads of the file have ended, the guest was given the chunks of the file, in order, and the buffers
that were passed on have the flags of the file on the last one only. Nothing waits any more. -/
theorem file_in_chunks (o : Outside) (s : State) (buf : Buf) (later : List Event)
    (henabled : o.enabled = true) (hc : 0 < o.chunkSize) (ho : o.Works) (hg : Grants s) (hs : Ready s)
    (hfile : buf.fromFile = true) (hn : buf.filePos < buf.fileLast)
    (hlater : Meets (Watched.step o) (fun w e => Serves w.state e)
      (Watched.step o ⟨s, false, []⟩ (.output [buf])) later)
    (hreads : chunkCount o.chunkSize buf.available ≤ later.countP Event.isRead) :
    let w := runFrom (Watched.step o) ⟨s, false, []⟩ (.output [buf] :: later)
    w.failed = false ∧
      (∃ chunks, w.state.given = s.given ++ chunks ∧ Chunked o.chunkSize buf chunks) ∧
      w.state.passed.flatten.map Buf.toFlags = s.passed.flatten.map Buf.toFlags ++
        (List.replicate (chunkCount o.chunkSize buf.available - 1) ({} : Flags) ++ [buf.toFlags]) ∧
      w.state.ctx.pending = [] ∧ w.state.ctx.waiting = false ∧ w.state.aio = false ∧
      w.state.buffered = false := by
  have hpos : 0 < chunkCount o.chunkSize buf.available := by
    have havailable : 0 < buf.available := Nat.sub_pos_of_lt hn
    rw [chunkCount_step hc havailable]
    exact Nat.succ_pos _
  -- the call of the filter schedules the first chunk
  have hfirst : wp (Event.handle o (.output [buf]))
      (fun _ => Going o.chunkSize (s.given ++ buf.chunks o.chunkSize)
        (s.passed.flatten.map Buf.toFlags ++ buf.flags o.chunkSize)
        (chunkCount o.chunkSize buf.available)) (fun _ => False) s := by
    rw [Event.handle, wp_bind]
    refine wp_mono ((hs.handler henabled hc hfile).total (hs.succeeds hg ho henabled)) ?_
      fun _ => id
    rintro _ s' ⟨hprogress, hfed⟩
    rw [chunks_length] at hprogress
    exact ⟨hprogress, hfed, fun hzero => absurd hzero (Nat.ne_of_gt hpos)⟩
  obtain ⟨_, hsome, hgoing⟩ := hfirst.succeeds
  have hok : (Watched.step o ⟨s, false, []⟩ (.output [buf])).failed = false := by
    simp only [Watched.step, hsome, Option.isNone_some, Bool.or_false]
  obtain ⟨hfailed, hend⟩ :=
    @Going.run o _ _ _ (Watched.step o ⟨s, false, []⟩ (.output [buf])) _ hc ho hgoing hok hlater
  rw [Nat.sub_eq_zero_of_le hreads] at hend
  have hquiet : Quiet (s.given ++ buf.chunks o.chunkSize)
      (s.passed.flatten.map Buf.toFlags ++ buf.flags o.chunkSize) []
      (runFrom (Watched.step o) ⟨s, false, []⟩ (.output [buf] :: later)).state.view := hend.progress
  have hpassed := hquiet.passed
  rw [List.append_nil, flags_eq hpos] at hpassed
  exact ⟨hfailed, ⟨_, hquiet.given, chunked hc buf⟩, hpassed, hquiet.pending, hquiet.waiting,
    hquiet.aio, hend.buffered rfl⟩

/-- Six bytes from an offset on, in chunks of four, with a call of nginx in between. -/
theorem file_in_chunks_two :
    let buf : Buf := { fileBuf 0 8 { lastBuf := true } with filePos := 2 }
    let w := runFrom (Watched.step plainOutside) ⟨start freePool, false, []⟩
      [.output [buf], .readDone (some [0, 0, 0, 0]), .output [], .readDone (some [0, 0])]
    w.failed = false ∧ (∃ chunks, w.state.given = [] ++ chunks ∧ Chunked 4 buf chunks) ∧
      w.state.passed.flatten.map Buf.toFlags = [{}, { lastBuf := true }] ∧
      w.state.ctx.pending = [] ∧ w.state.ctx.waiting = false ∧ w.state.aio = false ∧
      w.state.buffered = false :=
  file_in_chunks plainOutside (start freePool) { fileBuf 0 8 { lastBuf := true } with filePos := 2 }
    [.readDone (some [0, 0, 0, 0]), .output [], .readDone (some [0, 0])] rfl (by decide)
    ⟨nofun, nofun, fun _ => rfl⟩ (fun _ _ => rfl) ⟨rfl, rfl, nofun⟩ rfl (by decide)
    (by decide +kernel) (by decide +kernel)

end NgxWasm.BodyFilter
