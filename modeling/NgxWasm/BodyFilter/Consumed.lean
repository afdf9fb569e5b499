import Mathlib.Data.List.Nodup
import NgxWasm.BodyFilter.Delivery

/-!
# The buffers that are taken over (`src/ngx_http_wasm_body_filter.c`)

A body filter that does not pass a buffer on marks it as consumed: it sets `pos` to `last`, which tells
the producer that the buffer can be used again. This filter takes the bytes of a buffer over in two
ways. The guest replaces its chunk, or the buffer is copied to the queue, since a read is in flight or
begins before it (`TakesOver`). None of its functions writes to a buffer that it was handed, so what
such a buffer was before a call (`Buf.consumed`) it is after it.

Which buffers a call passes on is determined before it: `linked` computes them from the chain, the
guest and whether a read is in flight.

* `wlp_process_links`, `wlp_handler_links`: the loop and a call link the buffers that `linked` says.
* `mem_linkedBy_iff`: a buffer with bytes is linked exactly if they are not taken over.
* `taken_over_consumed_iff`: after a call that returns without an error, the buffers in memory that
  were not passed on are consumed exactly if none that had bytes was taken over.

The statement is about one call, in any state and with any guest, and about the buffers of its own
chain (`Handed`: none is linked twice). That a producer reuses a buffer only once it is consumed is
nginx's rule, and not modelled.
-/

namespace NgxWasm.BodyFilter

open Lib Lib.Fallible

/-- `pos == last`. -/
def Buf.consumed (b : Buf) : Bool := b.data = []

/-- The filter was handed the buffer; it did not make it. -/
def BufId.isGiven : BufId → Bool
  | .given _ => true
  | .made _ => false

def handed (bufs : List Buf) : List Buf := bufs.filter fun b => b.id.isGiven

/-- A chain that nginx hands to the filter: no buffer is linked twice. -/
structure Handed (chain : List Buf) : Prop where
  isGiven : ∀ b ∈ chain, b.id.isGiven = true
  nodup : (chain.map Buf.id).Nodup

theorem handed_append (bufs bufs' : List Buf) : handed (bufs ++ bufs') = handed bufs ++ handed bufs' :=
  List.filter_append ..

theorem handed_given {b : Buf} (h : b.id.isGiven = true) : handed [b] = [b] := by
  simp [handed, h]

theorem handed_made {b : Buf} (h : b.id.isGiven = false) : handed [b] = [] := by
  simp [handed, h]

/-! ## What is linked into the chains that are passed on -/

section Linked

variable (o : Outside)

/-- The loop ends at the buffer and has it read. -/
def Outside.reads (b : Buf) : Bool := b.fromFile && o.chunkSize ≠ 0

/-- The guest replaces the last of these chunks. -/
def Outside.replaces (given : List Chunk) : Bool := ((o.guest given).getD none).isSome

/-- The buffers of a chain that the loop links themselves: those before the first that is read from a
file, unless the guest replaces them. -/
def linked (given : List Chunk) : List Buf → List Buf
  | [] => []
  | b :: rest =>
    if o.reads b then []
    else match b.chunk with
      | none => b :: linked given rest
      | some c =>
        if o.replaces (given ++ [c]) then linked (given ++ [c]) rest
        else b :: linked (given ++ [c]) rest

/-- A read is in flight when the filter is called. -/
def State.awaits (s : State) : Bool := s.created && s.ctx.waiting

/-- The same for a call. -/
def linkedBy (s : State) (chain : List Buf) : List Buf :=
  if o.enabled then if s.awaits then [] else linked o s.given chain
  else chain

end Linked

section Functions

variable {o : Outside} {p : List (List Buf)}

/-- Nothing was passed on since `p`. -/
def PassedIs (p : List (List Buf)) (s : State) : Prop := s.passed = p

theorem silent_alloc (size : Nat) : Keeps (alloc size) (PassedIs p) := by
  intro s h
  rw [wp_alloc]
  split <;> exact h

theorem silent_enqueue (buf : Buf) : Keeps (enqueue buf) (PassedIs p) := by
  refine .bind (silent_alloc linkSize) fun _ => .bind .read fun s => .ite ?_ ?_
  · exact .bind (.update fun _ h => h) fun _ => .fail
  · exact .update fun _ h => h

theorem silent_queueTail (chain : List Buf) : Keeps (queueTail chain) (PassedIs p) :=
  keeps_queueTail_of silent_alloc silent_enqueue chain

theorem silent_queueRemaining (cl : List Buf) (filePos : Nat) :
    Keeps (queueRemaining cl filePos) (PassedIs p) :=
  keeps_queueRemaining_of silent_alloc silent_enqueue cl filePos

theorem silent_threadRead : Keeps (threadRead o) (PassedIs p) :=
  .bind .read fun _ => .bind (.update fun _ h => h) fun _ => .ite (.update fun _ h => h) .fail

/-- **Scheduling a read** passes nothing on. -/
theorem silent_scheduleFileChunk (buf : Buf) (rest : List Buf) :
    Keeps (scheduleFileChunk o buf rest) (PassedIs p) := by
  refine .ite (silent_queueRemaining rest 0) ?_
  refine .bind (.update fun _ h => h) fun _ => .bind (silent_alloc _) fun _ => ?_
  refine .bind (.update fun _ h => h) fun _ => .bind (silent_queueRemaining _ _) fun _ => ?_
  exact .bind silent_threadRead fun _ => .update fun _ h => h

/-- What a call passed on after `before`, of the buffers it was handed. -/
def Links (before : List (List Buf)) (bufs : List Buf) (s : State) : Prop :=
  ∃ new, s.passed = before ++ new ∧ handed new.flatten = bufs

theorem wlp_passOn_links (out : List Buf) (s : State) :
    wlp (passOn o out) (fun _ => Links s.passed (handed out)) s := by
  refine wlp_mono (wlp_passOn out s) fun _ s' hv => ?_
  have hpassed : s'.passed = s.passed ++ [out] := congrArg View.passed hv
  exact ⟨[out], hpassed, by rw [List.flatten_singleton]⟩

theorem wlp_passSome_links (out : List Buf) (s : State) :
    wlp (passSome o out) (fun _ => Links s.passed (handed out)) s := by
  unfold passSome
  split
  · rename_i hout
    exact ⟨[], (List.append_nil _).symm, hout ▸ rfl⟩
  · exact wlp_passOn_links out s

theorem wlp_createBuf_made (data : Bytes) (src : Flags) (s : State) :
    wlp (createBuf data src) (fun b s' => b.id.isGiven = false ∧ s'.view = s.view) s :=
  wlp_bind (wlp_alloc bufSize s) fun _ _ h => ⟨rfl, h⟩

/-- A run of the guest: whether it replaces its chunk. -/
theorem wlp_runChunk_replaces (src : Flags) (chunk : Chunk) (s : State) :
    wlp (runChunk o src chunk)
      (fun r s' => (r.isSome = o.replaces (s.given ++ [chunk]) ∧ ∀ b ∈ r, b.id.isGiven = false) ∧
        s'.view = s.view.give chunk) s := by
  unfold runChunk Outside.replaces
  rw [wlp_update_bind, wlp_read_bind]
  dsimp only
  split
  · trivial
  · rename_i hguest
    rw [hguest]
    exact ⟨⟨rfl, nofun⟩, rfl⟩
  · rename_i output hguest
    rw [hguest]
    refine wlp_bind (wlp_createBuf_made output src _) ?_
    rintro b s' ⟨hmade, hv⟩
    refine ⟨⟨rfl, fun b' hb => ?_⟩, hv⟩
    obtain rfl := Option.mem_some_iff.mp hb
    exact hmade

/-- One buffer that is not read from a file: it is linked, or what replaces it. -/
theorem wlp_filterBuf_links {buf : Buf} (hgiven : buf.id.isGiven = true) (out : List Buf) (s : State) :
    wlp (filterBuf o buf out)
      (fun out' s' => s'.passed = s.passed ∧ s'.given = s.given ++ buf.chunk.toList ∧
        handed out' = handed out ++
          if buf.chunk.isSome && o.replaces (s.given ++ buf.chunk.toList) then [] else [buf]) s := by
  unfold filterBuf
  split
  · rename_i hchunk
    refine wlp_mono (wlp_append out buf s) ?_
    rintro _ s' ⟨rfl, hv⟩
    have hgiven' : s'.given = s.given := congrArg View.given hv
    rw [hchunk, handed_append, handed_given hgiven]
    exact ⟨congrArg View.passed hv, hgiven'.trans (List.append_nil _).symm, rfl⟩
  · rename_i chunk hchunk
    refine wlp_bind (wlp_runChunk_replaces _ chunk s) ?_
    rintro r s₁ ⟨⟨hsome, hmade⟩, hv₁⟩
    refine wlp_mono (wlp_append out _ s₁) ?_
    rintro _ s₂ ⟨rfl, hv₂⟩
    have hv : s₂.view = s.view.give chunk := hv₂.trans hv₁
    rw [hchunk]
    refine ⟨congrArg View.passed hv, congrArg View.given hv, ?_⟩
    rw [handed_append]
    cases r with
    | none =>
      have hkeeps : o.replaces (s.given ++ [chunk]) = false := hsome.symm
      simp [hkeeps, handed_given hgiven]
    | some b =>
      have hreplaces : o.replaces (s.given ++ [chunk]) = true := hsome.symm
      simp [hreplaces, handed_made (hmade b rfl)]

/-- **The loop** links the buffers that `linked` says, after those of `out`. -/
theorem wlp_process_links {chain : List Buf} (hchain : ∀ b ∈ chain, b.id.isGiven = true)
    (out : List Buf) (s : State) :
    wlp (process o chain out)
      (fun _ => Links s.passed (handed out ++ linked o s.given chain)) s := by
  induction chain generalizing out s with
  | nil =>
    rw [linked, List.append_nil]
    unfold process
    split
    · rename_i hout
      have hsame : (if s.ctx.busy then s else setBuffered false s).passed = s.passed := by
        split <;> rfl
      exact ⟨[], hsame.trans (List.append_nil _).symm, hout ▸ rfl⟩
    · exact wlp_bind (wlp_passOn_links out s) fun _ s' h => h
  | cons buf rest ih =>
    obtain ⟨hbuf, hrest⟩ := List.forall_mem_cons.mp hchain
    unfold process
    split
    · rename_i hfile
      have hreads : o.reads buf = true := by simp [Outside.reads, hfile.1, hfile.2]
      rw [linked, if_pos hreads, List.append_nil]
      refine wlp_bind (wlp_passSome_links out s) fun _ s₁ h₁ => ?_
      have hkeeps := silent_scheduleFileChunk (o := o) (p := s₁.passed) buf rest s₁ rfl
      refine wlp_bind (wp_mono hkeeps (fun _ _ h => h) fun _ _ => trivial) fun _ s₂ h₂ => ?_
      obtain ⟨new, hnew, hbufs⟩ := h₁
      have hpassed : s₂.passed = s₁.passed := h₂
      exact ⟨new, hpassed.trans hnew, hbufs⟩
    · rename_i hfile
      have hreads : ¬ o.reads buf = true := by simpa [Outside.reads] using hfile
      refine wlp_bind (wlp_filterBuf_links hbuf out s) ?_
      rintro out' s₁ ⟨hpassed, hgiven, hout⟩
      have hih := ih hrest out' s₁
      rw [hpassed, hgiven, hout, List.append_assoc] at hih
      have hlinked : linked o s.given (buf :: rest) =
          (if buf.chunk.isSome && o.replaces (s.given ++ buf.chunk.toList) then [] else [buf]) ++
            linked o (s.given ++ buf.chunk.toList) rest := by
        rw [linked, if_neg hreads]
        cases hchunk : buf.chunk with
        | none => simp
        | some c =>
          cases hreplaces : o.replaces (s.given ++ [c]) <;> simp [hreplaces]
      rw [hlinked]
      exact hih

/-- The context of a call. -/
theorem wlp_getOrCreateCtx_awaits (s : State) :
    wlp getOrCreateCtx
      (fun _ s' => s'.passed = s.passed ∧ s'.given = s.given ∧ s'.ctx.waiting = s.awaits) s := by
  rw [getOrCreateCtx, wlp_read_bind]
  unfold State.awaits
  split
  · rename_i hcreated
    rw [hcreated]
    exact ⟨rfl, rfl, rfl⟩
  · rename_i hcreated
    have hnew : s.created = false := Bool.eq_false_iff.mpr hcreated
    rw [hnew]
    refine wp_bind.mpr (wp_createCtx.mpr ?_)
    split
    · split
      · exact ⟨rfl, rfl, rfl⟩
      · trivial
    · trivial

/-- **A call** links the buffers that `linkedBy` says. -/
theorem wlp_handler_links {chain : List Buf} (hchain : ∀ b ∈ chain, b.id.isGiven = true) (s : State) :
    wlp (handler o chain) (fun _ => Links s.passed (linkedBy o s chain)) s := by
  have hall : handed chain = chain := List.filter_eq_self.mpr hchain
  unfold handler
  split
  · rename_i hskip
    have hlinked : linkedBy o s chain = handed chain := by
      rw [hall]
      unfold linkedBy
      rcases hskip with rfl | hoff
      · simp [linked]
      · rw [if_neg (by simpa using hoff)]
    rw [hlinked]
    exact wlp_passOn_links chain s
  · rename_i hrun
    have henabled : o.enabled = true := by
      by_contra hoff
      exact hrun (.inr (by simpa using hoff))
    refine wlp_bind (wlp_getOrCreateCtx_awaits s) ?_
    rintro _ s₁ ⟨hpassed, hgiven, hwaiting⟩
    rw [linkedBy, if_pos henabled, ← hpassed, ← hgiven, takeChain, wlp_read_bind, hwaiting]
    split
    · have hkeeps := silent_queueTail (p := s₁.passed) chain s₁ rfl
      refine wlp_bind (wp_mono hkeeps (fun _ _ h => h) fun _ _ => trivial) fun _ s₂ h₂ => ?_
      have hsame : s₂.passed = s₁.passed := h₂
      exact ⟨[], hsame.trans (List.append_nil _).symm, rfl⟩
    · exact wlp_process_links hchain [] s₁

end Functions

/-! ## Which buffers are taken over -/

section TakenOver

variable {o : Outside}

/-- The filter takes over the bytes of `b`, which comes after `before` in its chain: it copies it to the
queue, as a read is in flight or begins before it, or the guest replaces its chunk. -/
def TakesOver (o : Outside) (s : State) (before : List Buf) (b : Buf) : Prop :=
  o.enabled = true ∧
    (s.awaits = true ∨ (∃ f ∈ before, o.reads f = true) ∨
      o.replaces (s.given ++ (before ++ [b]).filterMap Buf.chunk) = true)

theorem linked_subset {given : List Chunk} {chain : List Buf} :
    ∀ b ∈ linked o given chain, b ∈ chain := by
  intro b hb
  induction chain generalizing given with
  | nil => exact hb
  | cons b' rest ih =>
    unfold linked at hb
    split at hb
    · exact absurd hb List.not_mem_nil
    · split at hb
      · rcases List.mem_cons.mp hb with rfl | hb
        · exact List.mem_cons_self
        · exact List.mem_cons_of_mem _ (ih hb)
      · split at hb
        · exact List.mem_cons_of_mem _ (ih hb)
        · rcases List.mem_cons.mp hb with rfl | hb
          · exact List.mem_cons_self
          · exact List.mem_cons_of_mem _ (ih hb)

/-- Nothing is linked behind a buffer that is read from a file. -/
theorem linked_append_read {given : List Chunk} {before rest : List Buf} {f : Buf} (hf : f ∈ before)
    (hreads : o.reads f = true) : linked o given (before ++ rest) = linked o given before := by
  induction before generalizing given with
  | nil => exact absurd hf List.not_mem_nil
  | cons b before ih =>
    rw [List.cons_append, linked, linked]
    split
    · rfl
    · rename_i hb
      have hmem : f ∈ before := by
        rcases List.mem_cons.mp hf with rfl | hmem
        · exact absurd hreads hb
        · exact hmem
      simp only [ih hmem]

theorem linked_append {given : List Chunk} {before rest : List Buf}
    (h : ∀ f ∈ before, o.reads f = false) :
    linked o given (before ++ rest) =
      linked o given before ++ linked o (given ++ before.filterMap Buf.chunk) rest := by
  induction before generalizing given with
  | nil => simp [linked]
  | cons b before ih =>
    obtain ⟨hb, hbefore⟩ := List.forall_mem_cons.mp h
    rw [List.cons_append, linked, linked, hb]
    simp only [Bool.false_eq_true, if_false]
    cases hc : b.chunk with
    | none =>
      rw [List.filterMap_cons_none hc]
      exact congrArg (b :: ·) (ih hbefore)
    | some c =>
      have hshift : given ++ (b :: before).filterMap Buf.chunk =
          given ++ [c] ++ before.filterMap Buf.chunk := by
        rw [List.filterMap_cons_some hc, List.append_assoc, List.singleton_append]
      rw [hshift]
      dsimp only
      split
      · exact ih hbefore
      · exact congrArg (b :: ·) (ih hbefore)

/-- A buffer with bytes is linked exactly if they are not taken over. -/
theorem mem_linkedBy_iff {s : State} {before after : List Buf} {b : Buf} (hbefore : b ∉ before)
    (hafter : b ∉ after) (hm : b.inMemory = true) (hd : b.data ≠ []) :
    b ∈ linkedBy o s (before ++ b :: after) ↔ ¬ TakesOver o s before b := by
  have hreads : o.reads b = false := by simp [Outside.reads, Buf.fromFile, hm]
  have hchunk : b.chunk = some ⟨b.data, b.eof⟩ := by simp [Buf.chunk, hm, hd]
  unfold linkedBy TakesOver
  cases o.enabled with
  | false => simp
  | true =>
    cases s.awaits with
    | true => simp
    | false =>
      simp only [if_true, Bool.false_eq_true, if_false, true_and, false_or]
      by_cases hfile : ∃ f ∈ before, o.reads f = true
      · obtain ⟨f, hf, hfreads⟩ := hfile
        rw [linked_append_read hf hfreads]
        constructor
        · exact fun hb => absurd (linked_subset b hb) hbefore
        · exact fun hnot => absurd (.inl ⟨f, hf, hfreads⟩) hnot
      · have hnone : ∀ f ∈ before, o.reads f = false := by
          intro f hf
          exact Bool.eq_false_iff.mpr fun hfreads => hfile ⟨f, hf, hfreads⟩
        have hgiven : s.given ++ (before ++ [b]).filterMap Buf.chunk =
            s.given ++ before.filterMap Buf.chunk ++ [⟨b.data, b.eof⟩] := by
          rw [List.filterMap_append, List.filterMap_cons_some hchunk, List.filterMap_nil,
            List.append_assoc]
        rw [linked_append hnone, hgiven, linked, hreads, hchunk]
        have hb : b ∉ linked o s.given before := fun hb => hbefore (linked_subset b hb)
        simp only [Bool.false_eq_true, if_false, List.mem_append, hb, hfile, false_or]
        have hrest : ∀ given, b ∉ linked o given after := fun given hb => hafter (linked_subset b hb)
        split
        · rename_i hreplaces
          simp only [hreplaces, hrest, not_true_eq_false]
        · rename_i hreplaces
          simp only [hreplaces, List.mem_cons, true_or, Bool.false_eq_true, not_false_eq_true]

/-- What a call passed on. -/
def newlyPassed (s s' : State) : List Buf := (s'.passed.drop s.passed.length).flatten

/-- The buffers in memory that a call did not pass on are consumed. -/
def Recycles (s s' : State) (chain : List Buf) : Prop :=
  ∀ b ∈ chain, b.inMemory = true → b.id ∉ (newlyPassed s s').map Buf.id → b.consumed = true

instance (s s' : State) (chain : List Buf) : Decidable (Recycles s s' chain) :=
  inferInstanceAs (Decidable (∀ b ∈ chain, _ → _ → _))

/-- In a chain, a buffer is passed on if it is linked. -/
theorem passed_iff_linked {s s' : State} {chain bufs : List Buf} {b : Buf} (hchain : Handed chain)
    (h : Links s.passed bufs s') (hsub : ∀ b' ∈ bufs, b' ∈ chain) (hb : b ∈ chain) :
    b.id ∈ (newlyPassed s s').map Buf.id ↔ b ∈ bufs := by
  obtain ⟨new, hnew, hbufs⟩ := h
  have hdrop : newlyPassed s s' = new.flatten := by
    rw [newlyPassed, hnew, List.drop_left]
  rw [hdrop, ← hbufs]
  constructor
  · intro hid
    obtain ⟨b', hb', heq⟩ := List.mem_map.mp hid
    have hgiven : b'.id.isGiven = true := by
      rw [heq]
      exact hchain.isGiven b hb
    have hmem : b' ∈ handed new.flatten := List.mem_filter.mpr ⟨hb', hgiven⟩
    have hsame : b' = b := List.inj_on_of_nodup_map hchain.nodup (hsub b' (hbufs ▸ hmem)) hb heq
    exact hsame ▸ hmem
  · intro hmem
    exact List.mem_map.mpr ⟨b, (List.mem_filter.mp hmem).1, rfl⟩

/-- **Exactly when all buffers are consumed** that a successful call does not pass on: none that has
bytes is taken over. -/
theorem taken_over_consumed_iff (o : Outside) (s : State) (chain : List Buf) (rc : Rc)
    (hchain : Handed chain) (hrc : (handler o chain s).1 = some rc) :
    Recycles s (handler o chain s).2 chain ↔
      ∀ before b after, chain = before ++ b :: after → b.inMemory = true → TakesOver o s before b →
        b.consumed = true := by
  have hlinks : Links s.passed (linkedBy o s chain) (handler o chain s).2 :=
    (wlp_handler_links hchain.isGiven s).of_run.1 rc hrc
  have hsub : ∀ b ∈ linkedBy o s chain, b ∈ chain := by
    intro b hb
    unfold linkedBy at hb
    split at hb
    · split at hb
      · exact absurd hb List.not_mem_nil
      · exact linked_subset b hb
    · exact hb
  -- a buffer with bytes, at its place in the chain
  have htaken : ∀ before b after, chain = before ++ b :: after → b.inMemory = true → b.data ≠ [] →
      (b.id ∉ (newlyPassed s (handler o chain s).2).map Buf.id ↔ TakesOver o s before b) := by
    rintro before b after heq hm hd
    have hnodup : (before ++ b :: after).Nodup := heq ▸ List.Nodup.of_map _ hchain.nodup
    obtain ⟨-, htail, hdisjoint⟩ := List.nodup_append.mp hnodup
    have hbefore : b ∉ before := fun hb => hdisjoint b hb b List.mem_cons_self rfl
    have hb : b ∈ chain := heq ▸ List.mem_append_right _ List.mem_cons_self
    rw [passed_iff_linked hchain hlinks hsub hb, heq,
      mem_linkedBy_iff hbefore (List.nodup_cons.mp htail).1 hm hd, not_not]
  constructor
  · intro h before b after heq hm htakes
    by_contra hd
    have hd' : b.data ≠ [] := by simpa [Buf.consumed] using hd
    have hb : b ∈ chain := heq ▸ List.mem_append_right _ List.mem_cons_self
    exact hd (h b hb hm ((htaken before b after heq hm hd').mpr htakes))
  · intro h b hb hm hid
    by_contra hd
    have hd' : b.data ≠ [] := by simpa [Buf.consumed] using hd
    obtain ⟨before, after, heq⟩ := List.append_of_mem hb
    exact hd (h before b after heq hm ((htaken before b after heq hm hd').mp hid))

/-- Three buffers before the last file of a body, and a guest that replaces nothing: the buffers are
passed on before the file is read. -/
theorem taken_over_consumed_iff_plain :
    let chain := [memBuf 0 {}, memBuf 1 {}, memBuf 2 {}, fileBuf 3 6 { lastBuf := true }]
    Recycles (start freePool) (handler plainOutside chain (start freePool)).2 chain := by
  refine (taken_over_consumed_iff plainOutside (start freePool)
    [memBuf 0 {}, memBuf 1 {}, memBuf 2 {}, fileBuf 3 6 { lastBuf := true }] .again
    ⟨by decide, by decide⟩ (by decide +kernel)).mpr ?_
  rintro before b after heq - ⟨-, hwaits | ⟨f, hf, hreads⟩ | hreplaces⟩
  · cases hwaits
  · have hlen := congrArg List.length heq
    rw [List.length_append, List.length_cons] at hlen
    have hhead : before <+: [memBuf 0 {}, memBuf 1 {}, memBuf 2 {}] :=
      List.prefix_take_iff.mpr ⟨⟨b :: after, heq.symm⟩, show before.length ≤ 3 by simp at hlen; omega⟩
    have hnone : ∀ f ∈ [memBuf 0 {}, memBuf 1 {}, memBuf 2 {}], plainOutside.reads f = false := by
      decide
    rw [hnone f (hhead.subset hf)] at hreads
    cases hreads
  · cases hreplaces

end TakenOver

/-- A guest that sets each chunk, as one does that rewrites the body. -/
def rewriteOutside : Outside :=
  { plainOutside with guest := fun given => some (given.getLast?.map Chunk.data) }

/-- The guest replaces a buffer of two bytes; and a buffer of two bytes comes behind a file, so that it
is copied to the queue. In both calls it keeps its bytes. -/
theorem taken_over_unconsumed :
    ((handler rewriteOutside [memBuf 0 {}] (start freePool)).1 = some .ok ∧
        ¬ Recycles (start freePool) (handler rewriteOutside [memBuf 0 {}] (start freePool)).2
          [memBuf 0 {}]) ∧
      (handler plainOutside [fileBuf 0 6 {}, memBuf 1 {}] (start freePool)).1 = some .again ∧
        ¬ Recycles (start freePool)
          (handler plainOutside [fileBuf 0 6 {}, memBuf 1 {}] (start freePool)).2
          [fileBuf 0 6 {}, memBuf 1 {}] := by
  decide +kernel

end NgxWasm.BodyFilter
