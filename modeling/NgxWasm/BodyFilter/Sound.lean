import NgxWasm.BodyFilter.Delivery
import NgxWasm.BodyFilter.Succeeds

/-!
# The buffers that are passed on (`src/ngx_http_wasm_body_filter.c`)

nginx allows a buffer to be empty only if it is special: neither in memory nor in a file, and there for
one of its flags. Its filters that write reject any other. `Buf.sound` is that condition.

The filter turns what the guest sets into a buffer in memory, also when the guest sets nothing, as one
does that holds bytes back until the next chunk.

The condition is one on the guest: never to set zero bytes for a chunk that it can be given
(`Offered`). Both directions take a proof over runs: for such a guest no run goes wrong, and for any
other a chain is found on which it does (`output_spoilt`).

* `Clean`: what holds between two calls. Buffers that wait are sound, or are the rest of a file, and a
  read that is in flight has a size.
* `does_alloc` to `does_takeChain`: each function of the filter keeps that.
* `Sane.handle`: one event.
* `passed_sound_iff`: for a guest that never sets zero bytes, and for no other, all runs on sound
  chains pass on sound buffers only.

For the first direction the rules of `Does` carry the invariant through both ways a function may end; a
function that fails leaves of it what is said about the buffers passed on (`PassedSound`). For the
second neither a file nor a failure is needed: the chunks up to the one that the guest sets nothing for
are handed to the filter as buffers in memory, in one chain, with a pool that grants everything.
-/

namespace NgxWasm.BodyFilter

open Lib Lib.Fallible

/-! ## Sound buffers -/

/-- `ngx_buf_size` is not zero. -/
def Buf.nonEmpty (b : Buf) : Bool :=
  if b.inMemory then b.data ≠ [] else b.inFile && b.filePos < b.fileLast

/-- The buffer is not empty, or special. -/
def Buf.sound (b : Buf) : Bool := b.nonEmpty || b.special

def AllSound (bufs : List Buf) : Prop := ∀ b ∈ bufs, b.sound = true

instance (bufs : List Buf) : Decidable (AllSound bufs) :=
  inferInstanceAs (Decidable (∀ b ∈ bufs, b.sound = true))

/-- What is passed on is sound if each chain of it is. -/
theorem allSound_flatten_concat {passed : List (List Buf)} {out : List Buf} :
    AllSound (passed ++ [out]).flatten ↔ AllSound passed.flatten ∧ AllSound out := by
  rw [List.flatten_append, List.flatten_singleton]
  exact List.forall_mem_append

theorem AllSound.append {bufs : List Buf} {buf : Buf} (h : AllSound bufs) (hb : buf.sound = true) :
    AllSound (bufs ++ [buf]) := by
  intro b hmem
  rcases List.mem_append.mp hmem with hmem | hmem
  · exact h b hmem
  · rw [List.mem_singleton.mp hmem]
    exact hb

theorem sound_of_data {b : Buf} (hm : b.inMemory = true) (hd : b.data ≠ []) : b.sound = true := by
  simp [Buf.sound, Buf.nonEmpty, hm, hd]

/-- The guest can be given these chunks: each has a byte or ends the body, and no run before the last
has failed. -/
structure Offered (o : Outside) (given : List Chunk) : Prop where
  nonempty : given ≠ []
  chunks : ∀ c ∈ given, c.data ≠ [] ∨ c.eof = true
  ran : ∀ l, l <+: given → l ≠ given → l ≠ [] → o.guest l ≠ none

/-- A buffer that may wait: one that is sound, or the rest of a file that is read. -/
def Waits (o : Outside) (b : Buf) : Prop := b.sound = true ∨ b.fromFile = true ∧ o.chunkSize ≠ 0

/-- The filter has passed on sound buffers only, and those that wait may wait. A read that is in flight
has a size, and so has one that is prepared (`armed`). -/
structure Clean (o : Outside) (armed : Prop) (v : View) : Prop where
  created : v.created = true
  passed : AllSound v.passed.flatten
  pending : ∀ b ∈ v.ctx.pending, Waits o b
  reading : armed ∨ v.aio = true → 0 < v.ctx.readSize
  chunks : ∀ c ∈ v.given, c.data ≠ [] ∨ c.eof = true
  ran : ∀ l, l <+: v.given → l ≠ [] → o.guest l ≠ none

/-- What is left of it when the filter fails. -/
def PassedSound (s : State) : Prop := AllSound s.passed.flatten

/-- The triples of this module. -/
def Does {α : Type} (o : Outside) (armed : Prop) (m : Fallible State α) (P : α → Prop) : Prop :=
  Ensures m (fun s => Clean o armed s.view) PassedSound P

/-! ## What each function does -/

section Functions

variable {o : Outside} {armed : Prop}

/-- An update of what the condition does not look at. -/
theorem does_update {g : State → State} (hg : ∀ s, (g s).view = s.view) :
    Does o armed (update g) fun _ => True :=
  .update fun s h => by rw [hg]; exact h

theorem does_alloc (size : Nat) : Does o armed (alloc size) fun _ => True := by
  intro s h
  rw [wp_alloc]
  split
  · exact ⟨h, trivial⟩
  · exact h.passed

/-- A link puts its buffer among those that wait. -/
theorem mem_link {c : Ctx} {buf b : Buf} (h : b ∈ (c.link buf).pending) : b ∈ c.pending ∨ b = buf := by
  unfold Ctx.link at h
  split at h
  · exact Or.inl h
  · exact Or.inr (List.mem_singleton.mp h)
  · rcases List.mem_append.mp h with h | h
    · exact Or.inl (List.mem_of_mem_take h)
    · exact Or.inr (List.mem_singleton.mp h)

theorem link_readSize (c : Ctx) (buf : Buf) : (c.link buf).readSize = c.readSize := by
  unfold Ctx.link
  split <;> rfl

theorem does_enqueue {buf : Buf} (hb : Waits o buf) : Does o armed (enqueue buf) fun _ => True := by
  refine .bind (does_alloc linkSize) fun _ _ => .bind .read fun s₀ _ => .ite (fun _ => ?_) fun _ => ?_
  · refine .bind (.update fun s h => ?_) fun _ _ => .fail fun s h => h.passed
    exact ⟨h.created, h.passed, h.pending, h.reading, h.chunks, h.ran⟩
  · refine .update fun s h => ?_
    refine { h with pending := fun b hmem => ?_, reading := fun hread => ?_ }
    · rcases mem_link hmem with hold | rfl
      · exact h.pending b hold
      · exact hb
    · exact (link_readSize s.ctx buf).symm ▸ h.reading hread

theorem does_append (out : List Buf) (buf : Buf) :
    Does o armed (append out buf) fun l => l = out ++ [buf] :=
  .bind (does_alloc linkSize) fun _ _ => .pure rfl

theorem does_createBuf (chunk : Bytes) (src : Flags) :
    Does o armed (createBuf chunk src) fun b => b.inMemory = true ∧ b.data = chunk :=
  .bind (does_alloc bufSize) fun _ _ => .pure ⟨rfl, rfl⟩

/-- A copy may wait where its original may. -/
theorem does_copyBuf {src : Buf} (h : Waits o src) :
    Does o armed (copyBuf src) fun b => Waits o b ∧ (src.fromFile = true → b.fromFile = true) := by
  refine .bind (does_alloc bufSize) fun n _ => .ite (fun hm => ?_) fun hm => ?_
  · have hcopy : Waits o { src with id := .made n, inFile := false } ∧
        (src.fromFile = true → Buf.fromFile { src with id := .made n, inFile := false } = true) := by
      have hfile : src.fromFile = false := by simp [Buf.fromFile, hm]
      refine ⟨Or.inl ?_, fun hf => absurd (hfile.symm.trans hf) Bool.false_ne_true⟩
      rcases h with h | ⟨hf, -⟩
      · simpa [Buf.sound, Buf.nonEmpty, Buf.special, hm] using h
      · exact absurd (hfile.symm.trans hf) Bool.false_ne_true
    exact .ite (fun _ => .bind (does_alloc _) fun _ _ => .pure hcopy) fun _ => .pure hcopy
  · exact .pure ⟨h, id⟩

theorem does_queueTail {chain : List Buf} (h : ∀ b ∈ chain, Waits o b) :
    Does o armed (queueTail chain) fun _ => True := by
  induction chain with
  | nil => exact .pure trivial
  | cons buf rest ih =>
    obtain ⟨hb, hrest⟩ := List.forall_mem_cons.mp h
    exact .bind (does_copyBuf hb) fun b hc => .bind (does_enqueue hc.1) fun _ _ => ih hrest

/-- The rest of a file, and the chain behind it. -/
theorem does_queueRemaining {buf : Buf} {rest : List Buf} (hfile : buf.fromFile = true)
    (hc : o.chunkSize ≠ 0) (h : ∀ b ∈ rest, Waits o b) (filePos : Nat) :
    Does o armed (queueRemaining (buf :: rest) filePos) fun _ => True := by
  have hb : Waits o buf := Or.inr ⟨hfile, hc⟩
  refine .ite (fun _ => ?_) fun _ => does_queueTail (List.forall_mem_cons.mpr ⟨hb, h⟩)
  refine .bind (does_copyBuf hb) fun b hcopy => ?_
  exact .bind (does_enqueue (Or.inr ⟨hcopy.2 hfile, hc⟩)) fun _ _ => does_queueTail h

theorem does_queueBehind {rest : List Buf} (h : ∀ b ∈ rest, Waits o b) :
    Does o armed (queueRemaining rest 0) fun _ => True := by
  cases rest with
  | nil => exact .pure trivial
  | cons buf rest =>
    have hzero : queueRemaining (buf :: rest) 0 = queueTail (buf :: rest) :=
      by rw [queueRemaining, if_neg fun hpos => hpos.1 rfl]
    rw [hzero]
    exact does_queueTail h

theorem does_passOn {out : List Buf} (hout : AllSound out) :
    Does o armed (passOn o out) fun _ => True := by
  have hpass : Does o armed (update fun s => { s with passed := s.passed ++ [out] }) fun _ => True := by
    exact .update fun s h => { h with passed := allSound_flatten_concat.mpr ⟨h.passed, hout⟩ }
  exact .bind hpass fun _ _ => .bind .read fun s _ =>
    .ite (fun _ => .fail fun s h => h.passed) fun _ => .pure trivial

theorem does_passSome {out : List Buf} (hout : AllSound out) :
    Does o armed (passSome o out) fun _ => True :=
  .ite (fun _ => .pure trivial) fun _ => does_passOn hout

/-- **A run of the guest**: what it sets is not empty, so the buffer is sound. -/
theorem does_runChunk (hguest : ∀ given, Offered o given → o.guest given ≠ some (some []))
    (src : Flags) {chunk : Chunk} (hchunk : chunk.data ≠ [] ∨ chunk.eof = true) :
    Does o armed (runChunk o src chunk) fun r => ∀ b ∈ r, b.sound = true := by
  intro s h
  rw [runChunk, wp_bind, wp_update, wp_bind, wp_read]
  dsimp only
  have hchunks : ∀ c ∈ s.given ++ [chunk], c.data ≠ [] ∨ c.eof = true := by
    intro c hc
    rcases List.mem_append.mp hc with hc | hc
    · exact h.chunks c hc
    · rw [List.mem_singleton.mp hc]
      exact hchunk
  have hbefore : ∀ l, l <+: s.given ++ [chunk] → l ≠ s.given ++ [chunk] → l ≠ [] →
      o.guest l ≠ none := by
    intro l hl hne hl0
    rcases List.prefix_concat_iff.mp hl with heq | hl
    · exact absurd heq hne
    · exact h.ran l hl hl0
  have hran : o.guest (s.given ++ [chunk]) ≠ none →
      Clean o armed { s.view with given := s.given ++ [chunk] } := by
    intro hsome
    refine { h with chunks := hchunks, ran := fun l hl hl0 => ?_ }
    by_cases heq : l = s.given ++ [chunk]
    · rw [heq]
      exact hsome
    · exact hbefore l hl heq hl0
  have hoffered : Offered o (s.given ++ [chunk]) := ⟨by simp, hchunks, hbefore⟩
  split
  · exact h.passed
  · rename_i hg
    refine ⟨hran (by rw [hg]; exact Option.some_ne_none _), fun _ hb => ?_⟩
    exact absurd hb (Option.not_mem_none _)
  · rename_i output hg
    have hne : output ≠ [] := by
      rintro rfl
      exact hguest _ hoffered hg
    have hclean := hran (by rw [hg]; exact Option.some_ne_none _)
    refine Ensures.bind (does_createBuf output src) (fun b hb => ?_) _ hclean
    refine .pure fun b' hb' => ?_
    obtain rfl := Option.mem_some_iff.mp hb'
    exact sound_of_data hb.1 (by rw [hb.2]; exact hne)

/-- A read that is prepared can be in flight. -/
theorem does_threadRead : Does o True (threadRead o) fun _ => True := by
  refine .bind .read fun s _ => .bind (does_update fun _ => rfl) fun _ _ => ?_
  refine .ite (fun _ => ?_) fun _ => ?_
  · exact .update fun s h => { h with reading := fun _ => h.reading (Or.inl trivial) }
  · exact .fail fun s h => h.passed

theorem Clean.disarm {v : View} (h : Clean o armed v) : Clean o False v :=
  { h with reading := fun hread => h.reading (Or.inr (hread.resolve_left id)) }

theorem nextSize_pos {buf : Buf} (hc : o.chunkSize ≠ 0) (hmore : ¬ buf.fileLast ≤ buf.filePos) :
    0 < nextSize o buf := by
  unfold nextSize Buf.available
  split <;> omega

/-- **A chunk of a file is scheduled.** -/
theorem does_scheduleFileChunk {buf : Buf} {rest : List Buf} (hfile : buf.fromFile = true)
    (hc : o.chunkSize ≠ 0) (h : ∀ b ∈ rest, Waits o b) :
    Does o False (scheduleFileChunk o buf rest) fun _ => True := by
  refine .ite (fun _ => does_queueBehind h) fun hmore => ?_
  intro s hs
  rw [wp_bind, wp_update]
  have harmed : Clean o True (s.onCtx (.setRead buf (nextSize o buf))).view :=
    { hs with reading := fun _ => nextSize_pos hc hmore }
  have hrest : Does o True (do
      let _ ← alloc (nextSize o buf)
      update (.onCtx (.setChunk (chunkFlags o buf)))
      queueRemaining (buf :: rest) (buf.filePos + nextSize o buf)
      threadRead o
      update (.onCtx (.setWaiting true))) fun _ => True := by
    refine .bind (does_alloc _) fun _ _ => .bind (.update fun s h => ?_) fun _ _ =>
      .bind (does_queueRemaining hfile hc h _) fun _ _ => .bind does_threadRead fun _ _ =>
        .update fun s h => ?_
    · exact ⟨h.created, h.passed, h.pending, h.reading, h.chunks, h.ran⟩
    · exact ⟨h.created, h.passed, h.pending, h.reading, h.chunks, h.ran⟩
  exact wp_mono (hrest _ harmed) (fun _ s' h' => ⟨h'.1.disarm, trivial⟩) fun _ => id

/-- What the guest is run on has a byte or ends the body. -/
theorem chunk_offered {buf : Buf} {chunk : Chunk} (h : buf.chunk = some chunk) :
    chunk.data ≠ [] ∨ chunk.eof = true := by
  unfold Buf.chunk at h
  split at h
  · split at h
    · rename_i hsome
      cases h
      simpa using hsome
    · cases h
  · split at h
    · rename_i hsome
      cases h
      exact Or.inr (Bool.and_eq_true_iff.mp hsome).2
    · cases h

section Guest

variable (hguest : ∀ given, Offered o given → o.guest given ≠ some (some []))
include hguest

/-- **One buffer** that is not read from a file. -/
theorem does_filterBuf {buf : Buf} {out : List Buf} (hb : buf.sound = true) (hout : AllSound out) :
    Does o armed (filterBuf o buf out) AllSound := by
  unfold filterBuf
  split
  · exact (does_append out buf).mono fun l hl => hl ▸ hout.append hb
  · rename_i chunk hchunk
    refine .bind (does_runChunk hguest _ (chunk_offered hchunk)) fun r hr => ?_
    refine (does_append out _).mono fun l hl => hl ▸ hout.append ?_
    cases r with
    | none => exact hb
    | some b => exact hr b rfl

theorem does_process {chain out : List Buf} (hchain : ∀ b ∈ chain, Waits o b) (hout : AllSound out) :
    Does o False (process o chain out) fun _ => True := by
  induction chain generalizing out with
  | nil =>
    refine .ite (fun _ => .bind (does_update fun s => ?_) fun _ _ => .pure trivial) fun _ => ?_
    · split <;> rfl
    · exact .bind (does_passOn hout) fun _ _ => .bind (does_update fun _ => rfl) fun _ _ =>
        .pure trivial
  | cons buf rest ih =>
    obtain ⟨hbuf, hrest⟩ := List.forall_mem_cons.mp hchain
    refine .ite (fun hfile => ?_) fun hfile => ?_
    · exact .bind (does_passSome hout) fun _ _ =>
        .bind (does_scheduleFileChunk hfile.1 hfile.2 hrest) fun _ _ =>
          .bind (does_update fun _ => rfl) fun _ _ => .pure trivial
    · exact .bind (does_filterBuf hguest (hbuf.resolve_right hfile) hout) fun _ h => ih hrest h

/-- A chunk that was read has a size, so its buffer is sound. -/
theorem does_completeFileChunk {data : Option Bytes} {s : State} (h : Clean o False s.view)
    (hsize : 0 < s.ctx.readSize) :
    wp (completeFileChunk o data) (fun out s' => Clean o False s'.view ∧ AllSound out) PassedSound
      s := by
  unfold completeFileChunk
  rw [wp_bind, wp_read]
  cases data with
  | none => exact h.passed
  | some data =>
    dsimp only
    split
    · exact h.passed
    · rename_i hlen
      have hdata : data ≠ [] := by
        rintro rfl
        exact hlen (fun heq => Nat.ne_of_lt hsize heq)
      have hnil : AllSound [] := nofun
      refine Ensures.bind (does_runChunk hguest _ (Or.inl hdata)) (fun r hr => ?_) s h
      split
      · rename_i b
        exact (does_append [] b).mono fun l hl => hl ▸ hnil.append (hr b rfl)
      · refine .bind (does_createBuf data _) fun b hb => (does_append [] b).mono fun l hl => ?_
        exact hl ▸ hnil.append (sound_of_data hb.1 (by rw [hb.2]; exact hdata))

theorem does_threadEventHandler {data : Option Bytes} {s : State} (h : Clean o False s.view)
    (haio : s.aio = true) :
    wp (threadEventHandler o data) (fun _ s' => Clean o False s'.view ∧ True) PassedSound s := by
  have hsize : 0 < s.ctx.readSize := h.reading (Or.inr haio)
  unfold threadEventHandler
  rw [wp_bind, wp_update, wp_bind]
  have hdone : Clean o False { s with aio := false }.view :=
    { h with reading := fun hread => absurd (hread.resolve_left id) nofun }
  refine wp_mono (does_completeFileChunk hguest hdone hsize) ?_ fun _ => id
  rintro out s₁ ⟨h₁, hout⟩
  rw [wp_bind, wp_read, wp_bind, wp_update]
  have hdrained : Clean o False (s₁.onCtx .drain).view :=
    { h₁ with pending := nofun, reading := h₁.reading }
  refine Ensures.bind (does_process hguest h₁.pending hout) (fun _ _ => ?_) _ hdrained
  exact does_update fun _ => rfl

theorem does_takeChain {chain : List Buf} (hchain : AllSound chain) :
    Does o False (takeChain o chain) fun _ => True := by
  have hwaits : ∀ b ∈ chain, Waits o b := fun b hb => Or.inl (hchain b hb)
  refine .bind .read fun s _ => .ite (fun _ => ?_) fun _ => does_process hguest hwaits nofun
  exact .bind (does_queueTail hwaits) fun _ _ => .bind (does_update fun _ => rfl) fun _ _ =>
    .pure trivial

end Guest

end Functions

/-! ## Runs -/

section Runs

variable {o : Outside}

/-- What holds between two events, from the first one on. -/
def Sane (o : Outside) (v : View) : Prop :=
  Clean o False v ∧ (v.aio = true → o.enabled = true) ∨
    v.created = false ∧ v.aio = false ∧ v.given = [] ∧ AllSound v.passed.flatten

theorem Sane.passed {v : View} (h : Sane o v) : AllSound v.passed.flatten := by
  rcases h with ⟨h, -⟩ | ⟨-, -, -, h⟩
  · exact h.passed
  · exact h

/-- What is passed on changes nothing else. -/
theorem Sane.pass {v : View} {out : List Buf} (h : Sane o v) (hout : AllSound out) :
    Sane o (v.pass out) := by
  have hpassed : AllSound (v.pass out).passed.flatten := allSound_flatten_concat.mpr ⟨h.passed, hout⟩
  rcases h with ⟨h, haio⟩ | ⟨hc, ha, hg, -⟩
  · exact .inl ⟨{ h with passed := hpassed }, haio⟩
  · exact .inr ⟨hc, ha, hg, hpassed⟩

/-- A new context has nothing that waits. -/
theorem clean_new {v : View} (ha : v.aio = false) (hg : v.given = [])
    (hpassed : AllSound v.passed.flatten) (slot : TailSlot) :
    Clean o False { v with created := true, ctx := { pendingLast := slot } } where
  created := rfl
  passed := hpassed
  pending := nofun
  reading h := absurd (ha.symm.trans (h.resolve_left id)) nofun
  chunks c hc := absurd (hg ▸ hc) List.not_mem_nil
  ran l hl hne := by
    have hl : l <+: v.given := hl
    rw [hg] at hl
    exact absurd (List.prefix_nil.mp hl) hne

theorem Sane.getOrCreateCtx {s : State} (h : Sane o s.view) :
    wp getOrCreateCtx (fun _ s' => Clean o False s'.view) PassedSound s := by
  rw [BodyFilter.getOrCreateCtx, wp_bind, wp_read]
  rcases h with ⟨h, -⟩ | ⟨hc, ha, hg, hpassed⟩
  · have hcreated : s.created = true := h.created
    rw [if_pos hcreated]
    exact h
  · have hcreated : ¬ s.created = true := Bool.eq_false_iff.mp hc
    rw [if_neg hcreated, wp_bind, wp_createCtx]
    split
    · split
      · exact clean_new ha hg hpassed .pending
      · exact hpassed
    · exact hpassed

theorem Sane.getOrCreateHookCtx {s : State} (h : Sane o s.view) :
    wp getOrCreateHookCtx (fun _ s' => Sane o s'.view) PassedSound s := by
  rw [BodyFilter.getOrCreateHookCtx, wp_bind, wp_read]
  split
  · exact h
  · rename_i hcreated
    rcases h with ⟨h, -⟩ | ⟨hc, ha, hg, hpassed⟩
    · exact absurd h.created hcreated
    · rw [wp_createCtx]
      split
      · split
        · exact .inl ⟨clean_new ha hg hpassed .null, fun haio =>
            absurd (ha.symm.trans haio) Bool.false_ne_true⟩
        · exact hpassed
      · exact hpassed

/-- A hook passes nothing on. -/
theorem keeps_passed_hook : Keeps getOrCreateHookCtx PassedSound := by
  intro s h
  rw [BodyFilter.getOrCreateHookCtx, wp_bind, wp_read]
  split
  · exact h
  · rw [wp_createCtx]
    split
    · split <;> exact h
    · exact h

/-- The chains are sound. After a call that failed nginx drops the request, so the filter is not called
again. -/
def SoundInput (w : Watched) : Event → Prop
  | .hook _ => True
  | .output chain => w.failed = false ∧ AllSound chain
  | .readDone _ => w.failed = false

instance (w : Watched) : ∀ e, Decidable (SoundInput w e)
  | .hook _ => inferInstanceAs (Decidable True)
  | .output chain => inferInstanceAs (Decidable (w.failed = false ∧ AllSound chain))
  | .readDone _ => inferInstanceAs (Decidable (w.failed = false))

/-- What holds in every state: the buffers that were passed on are sound, and as long as no call has
failed those that wait may wait. -/
def Upright (o : Outside) (w : Watched) : Prop :=
  AllSound w.state.passed.flatten ∧ (w.failed = false → Sane o w.state.view)

section Guest

variable (hguest : o.enabled = true → ∀ given, Offered o given → o.guest given ≠ some (some []))
include hguest

theorem Sane.handler {chain : List Buf} {s : State} (h : Sane o s.view) (hchain : AllSound chain) :
    wp (handler o chain) (fun _ s' => Sane o s'.view) PassedSound s := by
  unfold BodyFilter.handler
  split
  · have hpass : Sane o (s.view.pass chain) := h.pass hchain
    rw [passOn, wp_bind, wp_update, wp_bind, wp_read]
    split
    · exact hpass.passed
    · exact hpass
  · rename_i hrun
    have henabled : o.enabled = true := by
      by_contra hoff
      exact hrun (.inr (by simpa using hoff))
    rw [wp_bind]
    refine wp_mono h.getOrCreateCtx (fun _ s' h' => ?_) fun _ => id
    refine wp_mono (does_takeChain (hguest henabled) hchain s' h') (fun _ _ hs => ?_) fun _ => id
    exact .inl ⟨hs.1, fun _ => henabled⟩

/-- **One event.** -/
theorem Sane.handle {w : Watched} {e : Event} (h : Sane o w.state.view) (he : SoundInput w e) :
    wp (e.handle o) (fun _ s' => Sane o s'.view) PassedSound w.state := by
  cases e with
  | hook hook => exact h.getOrCreateHookCtx
  | output chain =>
    rw [Event.handle, wp_bind]
    exact wp_mono (h.handler hguest he.2) (fun _ _ hs => hs) fun _ => id
  | readDone data =>
    rw [Event.handle, wp_bind, wp_read]
    split
    · rename_i haio
      rcases h with ⟨h, hon⟩ | ⟨-, ha, -⟩
      · have henabled : o.enabled = true := hon haio
        refine wp_mono (does_threadEventHandler (hguest henabled) h haio) (fun _ _ hs => ?_) fun _ => id
        exact .inl ⟨hs.1, fun _ => henabled⟩
      · exact absurd (ha.symm.trans haio) Bool.false_ne_true
    · exact h

theorem upright_step {w : Watched} {e : Event} (h : Upright o w) (he : SoundInput w e) :
    Upright o (w.step o e) := by
  cases hfailed : w.failed with
  | false =>
    obtain ⟨hsome, hnone⟩ := ((h.2 hfailed).handle hguest he).of_run
    cases hres : (e.handle o w.state).1 with
    | some a => exact ⟨(hsome a hres).passed, fun _ => hsome a hres⟩
    | none =>
      have hgone : (w.step o e).failed = true := by simp [Watched.step, hres]
      exact ⟨hnone hres, fun hok => absurd (hok.symm.trans hgone) Bool.false_ne_true⟩
  | true =>
    have hgone : (w.step o e).failed = true := by simp [Watched.step, hfailed]
    refine ⟨?_, fun hok => absurd (hok.symm.trans hgone) Bool.false_ne_true⟩
    cases e with
    | hook hook => exact (keeps_passed_hook w.state h.1).snd
    | output chain => exact absurd (he.1.symm.trans hfailed) Bool.false_ne_true
    | readDone data =>
      have hok : w.failed = false := he
      exact absurd (hok.symm.trans hfailed) Bool.false_ne_true

end Guest

/-! ## A guest that sets nothing -/

/-- A buffer that the guest is given this chunk for. -/
def Chunk.buf (c : Chunk) : Buf :=
  { id := .given 0, inMemory := c.data ≠ [], data := c.data, lastBuf := c.eof }

theorem Chunk.buf_chunk {c : Chunk} (h : c.data ≠ [] ∨ c.eof = true) : c.buf.chunk = some c := by
  obtain ⟨data, eof⟩ := c
  cases data with
  | nil =>
    obtain rfl : eof = true := h.resolve_left fun hne => hne rfl
    rfl
  | cons b data => simp [Chunk.buf, Buf.chunk, Flags.eof]

theorem Chunk.buf_sound {c : Chunk} (h : c.data ≠ [] ∨ c.eof = true) : c.buf.sound = true := by
  obtain ⟨data, eof⟩ := c
  cases data with
  | nil =>
    obtain rfl : eof = true := h.resolve_left fun hne => hne rfl
    rfl
  | cons b data => rfl

/-- A buffer that is not sound was passed on. -/
def Spoilt (s : State) : Prop := ¬ AllSound s.passed.flatten

theorem passOn_spoilt {out : List Buf} {s : State} (hout : ¬ AllSound out) :
    wp (passOn o out) (fun _ => Spoilt) Spoilt s := by
  have hpass : Spoilt { s with passed := s.passed ++ [out] } :=
    fun hall => hout (allSound_flatten_concat.mp hall).2
  rw [passOn, wp_bind, wp_update, wp_bind, wp_read]
  split <;> exact hpass

theorem append_granted {out : List Buf} {buf : Buf} {s : State} (hg : Grants s) :
    wp (append out buf) (fun out' s' => out' = out ++ [buf] ∧ s'.given = s.given ∧ Grants s')
      (fun _ => False) s := by
  rw [append, wp_bind, wp_alloc, if_pos (hg _ _)]
  exact ⟨rfl, rfl, hg⟩

theorem createBuf_granted {chunk : Bytes} {src : Flags} {s : State} (hg : Grants s) :
    wp (createBuf chunk src)
      (fun b s' => (b.inMemory = true ∧ b.data = chunk) ∧ s'.given = s.given ∧ Grants s')
      (fun _ => False) s := by
  rw [createBuf, wp_bind, wp_alloc, if_pos (hg _ _)]
  exact ⟨⟨rfl, rfl⟩, rfl, hg⟩

/-- A run of the guest that does not fail, where memory is granted. -/
theorem runChunk_granted {src : Flags} {chunk : Chunk} {s : State} {r : Option Bytes} (hg : Grants s)
    (hr : o.guest (s.given ++ [chunk]) = some r) :
    wp (runChunk o src chunk)
      (fun buf s' => (∀ output ∈ r, ∃ b ∈ buf, b.inMemory = true ∧ b.data = output) ∧
        s'.given = s.given ++ [chunk] ∧ Grants s')
      (fun _ => False) s := by
  rw [runChunk, wp_bind, wp_update, wp_bind, wp_read]
  dsimp only
  rw [hr]
  have hg' : Grants { s with given := s.given ++ [chunk] } := hg
  cases r with
  | none => exact ⟨fun _ h => absurd h (Option.not_mem_none _), rfl, hg⟩
  | some output =>
    dsimp only
    rw [wp_bind]
    refine wp_mono (createBuf_granted hg') ?_ fun _ => id
    rintro b s' ⟨hb, hgiven, hg''⟩
    refine ⟨fun output' h => ⟨b, rfl, ?_⟩, hgiven, hg''⟩
    obtain rfl := Option.mem_some_iff.mp h
    exact hb

/-- One of the buffers: the guest is run on its chunk, and sets an empty one if it is the last. -/
theorem filterBuf_spoilt {c : Chunk} {rest before : List Chunk} {out : List Buf} {s : State}
    (h : Offered o (before ++ c :: rest)) (hempty : o.guest (before ++ c :: rest) = some (some []))
    (hgiven : s.given = before) (hg : Grants s) :
    wp (filterBuf o c.buf out)
      (fun out' s' => s'.given = before ++ [c] ∧ Grants s' ∧ (rest = [] → ¬ AllSound out'))
      (fun _ => False) s := by
  have hran : o.guest (s.given ++ [c]) ≠ none := by
    rw [hgiven]
    cases rest with
    | nil =>
      rw [hempty]
      exact nofun
    | cons c' rest => exact h.ran _ ⟨c' :: rest, by simp⟩ (by simp) (by simp)
  obtain ⟨r, hr⟩ := Option.ne_none_iff_exists'.mp hran
  unfold filterBuf
  rw [Chunk.buf_chunk (h.chunks c (by simp))]
  dsimp only
  rw [wp_bind]
  refine wp_mono (runChunk_granted hg hr) ?_ fun _ => id
  rintro buf s₁ ⟨hbuf, hgiven₁, hg₁⟩
  refine wp_mono (append_granted hg₁) ?_ fun _ => id
  rintro _ s₂ ⟨rfl, hgiven₂, hg₂⟩
  refine ⟨by rw [hgiven₂, hgiven₁, hgiven], hg₂, ?_⟩
  rintro rfl hall
  have hnil : r = some [] := Option.some.inj (hr.symm.trans (hgiven ▸ hempty))
  obtain ⟨b, hb, hm, hd⟩ := hbuf [] hnil
  have hsound : b.sound = true := by
    refine hall b (List.mem_append_right _ ?_)
    rw [Option.mem_def.mp hb]
    exact List.mem_cons_self
  simp [Buf.sound, Buf.nonEmpty, Buf.special, hm, hd] at hsound

/-- The buffers of chunks that end with one the guest sets nothing for. -/
theorem process_spoilt {chunks before : List Chunk} {out : List Buf} {s : State}
    (h : Offered o (before ++ chunks)) (hempty : o.guest (before ++ chunks) = some (some []))
    (hgiven : s.given = before) (hg : Grants s) (hout : chunks = [] → ¬ AllSound out) :
    wp (process o (chunks.map Chunk.buf) out) (fun _ => Spoilt) Spoilt s := by
  induction chunks generalizing before out s with
  | nil =>
    have hne : out ≠ [] := by
      rintro rfl
      exact hout rfl nofun
    rw [List.map_nil, process, if_neg hne, wp_bind]
    refine wp_mono (passOn_spoilt (hout rfl)) (fun _ s' hs => ?_) fun _ => id
    exact hs
  | cons c rest ih =>
    have hfile : ¬ (c.buf.fromFile = true ∧ o.chunkSize ≠ 0) := by
      simp [Chunk.buf, Buf.fromFile]
    rw [List.map_cons, process, if_neg hfile, wp_bind]
    refine wp_mono (filterBuf_spoilt h hempty hgiven hg) ?_ fun _ => False.elim
    rintro out' s' ⟨hgiven', hg', hout'⟩
    have hsplit : before ++ c :: rest = before ++ [c] ++ rest := by simp
    rw [hsplit] at h hempty
    exact ih h hempty hgiven' hg' hout'

/-- **The run**: the chunks in one chain, as buffers. -/
theorem output_spoilt (henabled : o.enabled = true) {given : List Chunk} (h : Offered o given)
    (hempty : o.guest given = some (some [])) :
    Spoilt (runFrom (Watched.step o) (.start freePool) [.output (given.map Chunk.buf)]).state := by
  have hrun : ¬ (given.map Chunk.buf = [] ∨ (!o.enabled) = true) := by
    simp [henabled, h.nonempty]
  have hwp : wp (Event.handle o (.output (given.map Chunk.buf))) (fun _ => Spoilt) Spoilt
      (start freePool) := by
    have hnew : ¬ (start freePool).created = true := Bool.false_ne_true
    have hctx : ctxFits (start freePool) = true := rfl
    have hcleanup : cleanupFits (start freePool) = true := rfl
    rw [Event.handle, wp_bind, BodyFilter.handler, if_neg hrun, wp_bind, getOrCreateCtx, wp_bind,
      wp_read, if_neg hnew, wp_bind, wp_createCtx, if_pos hctx, if_pos hcleanup, wp_update, takeChain,
      wp_bind, wp_read]
    split
    · rename_i hwaiting
      exact absurd hwaiting Bool.false_ne_true
    · exact @process_spoilt o given [] [] _ h hempty rfl (fun _ _ => rfl) fun hnil =>
        absurd hnil h.nonempty
  exact hwp.snd

end Runs

/-- **Exactly when all buffers are sound**: the guest never sets zero bytes for a chunk that it can be
given. For such a guest, and for no other, every run on sound chains passes on sound buffers only. -/
theorem passed_sound_iff (o : Outside) :
    (∀ p events, Meets (Watched.step o) SoundInput (.start p) events →
        AllSound (runFrom (Watched.step o) (.start p) events).state.passed.flatten) ↔
      (o.enabled = true → ∀ given, Offered o given → o.guest given ≠ some (some [])) := by
  constructor
  · intro hall henabled given h hempty
    have hinput : Meets (Watched.step o) SoundInput (.start freePool)
        [.output (given.map Chunk.buf)] := by
      refine ⟨⟨rfl, fun b hb => ?_⟩, trivial⟩
      obtain ⟨c, hc, rfl⟩ := List.mem_map.mp hb
      exact Chunk.buf_sound (h.chunks c hc)
    exact output_spoilt henabled h hempty (hall freePool _ hinput)
  · intro hguest p events hok
    have hupright : Upright o (runFrom (Watched.step o) (.start p) events) := by
      refine hok.invariant ⟨nofun, fun _ => .inr ⟨rfl, rfl, rfl, nofun⟩⟩ fun w e h he => ?_
      exact upright_step hguest h he
    exact hupright.1

/-- A guest that holds back each chunk, as one does that waits for more, or drops it. -/
def silentOutside : Outside := { plainOutside with guest := fun _ => some (some []) }

/-- What it leaves of two bytes in memory is passed on as a buffer that is empty and not special. -/
theorem passed_empty :
    let events : List Event := [.output [memBuf 0 { lastBuf := true }]]
    let w := runFrom (Watched.step silentOutside) (.start freePool) events
    Meets (Watched.step silentOutside) SoundInput (.start freePool) events ∧ w.failed = false ∧
      ¬ AllSound w.state.passed.flatten := by
  decide +kernel

end NgxWasm.BodyFilter
