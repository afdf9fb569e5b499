import NgxWasm.Shm.Refine

/-!
# What the answers of a zone tell

A guest sees calls and answers only. `LastStored` reads off them what was last stored under a key:
a write that reports success stores its entry, an increment stores the sum it reports, and nothing
but a later successful write or delete of the same key changes that. Evictions are not seen: a key
may be gone at any time, and then its answers say so.

Everything but the last theorem is about the list of `Shm.Cache`; the simulation carries it to the
zone.

* `Reads.cases`, `Stores.cases`, `Increments.cases`, `Next.delete_cases`: what an operation can come to.
* `Recalled.step`: one step of the list keeps to what was last stored.
* `answers_last_stored`: every answer that a key is there is about the entry last stored under it,
  which has not expired, and shows its bytes; so nothing stale, deleted, expired or of another key
  is ever read, whatever has been evicted in between.

The runs are those of `zone_simulates_cache`, without collisions and with clocks below 2^63.
-/

namespace NgxWasm.Shm

open Lib

variable {S : SlabPool} {rb : Rbtree} {crc32 : Bytes → UInt32}

/-! ## The entry last stored -/

/-- The entry a write asks for. -/
def Op.entry (nowMsec : UInt64) : Op → Option Entry
  | .set key value | .add key value | .replace key value => some ⟨key, value, none⟩
  | .setEx key value ttlMsec =>
    some ⟨key, value, if ttlMsec = 0 then none else some (nowMsec.toNat + ttlMsec.toNat)⟩
  | .get .. | .exists _ | .incr .. | .delete _ => none

/-- By its answer, the call did not change what is stored under `key`. -/
def KeepsKey (key : Bytes) (o : Call × Reply) : Prop :=
  o.1.2.key = key → match o.1.2 with
    | .get .. | .exists _ => True
    | .set .. | .setEx .. | .add .. | .replace .. | .delete _ => o.2.rc ≠ wasmOk
    | .incr .. => o.2.rc = wasmError

/-- By the calls and answers so far, the latest first, `e` is the entry last stored under its key. -/
inductive LastStored : List (Call × Reply) → Entry → Prop
  | stored {os : List (Call × Reply)} {nowMsec : UInt64} {op : Op} {reply : Reply} {e : Entry}
      (h : op.entry nowMsec = some e) (hok : reply.rc = wasmOk) :
      LastStored (((nowMsec, op), reply) :: os) e
  | counted {os : List (Call × Reply)} {nowMsec : UInt64} {delta current : Int} {reply : Reply}
      {e : Entry} (h : LastStored os e) (hlive : e.expired nowMsec.toNat = false)
      (hvalue : readI32 e.value = some current) (hrc : reply.rc = current + delta) :
      LastStored (((nowMsec, .incr e.key delta), reply) :: os)
        { e with value := intText (current + delta) }
  | kept {os : List (Call × Reply)} {o : Call × Reply} {e : Entry} (h : LastStored os e)
      (hleaves : KeepsKey e.key o) : LastStored (o :: os) e

/-- The answer says that the key is there. -/
def TellsLive (o : Call × Reply) : Prop :=
  match o.1.2 with
  | .get .. => 0 ≤ o.2.rc
  | .exists _ => o.2.rc = 1
  | .incr .. => o.2.rc ≠ wasmError
  | .replace .. => o.2.rc = wasmOk
  | .add .. => o.2.rc = wasmNotFound
  | .set .. | .setEx .. | .delete _ => False

/-- What the answer shows of the entry that is there. -/
def ShowsOf (o : Call × Reply) (e : Entry) : Prop :=
  match o.1.2 with
  | .get _ bufLen => o.2 = { rc := e.value.length, bytes := e.value.take bufLen }
  | .incr _ delta => ∃ current, readI32 e.value = some current ∧ o.2.rc = current + delta
  | .exists _ | .replace .. | .add .. | .set .. | .setEx .. | .delete _ => True

namespace Cache

variable {l l' : Cache} {key : Bytes} {e x : Entry} {nowMsec : UInt64} {reply : Reply}
  {os : List (Call × Reply)}

theorem mem_without : x ∈ without key l ↔ x ∈ l ∧ x.key ≠ key := by
  unfold without
  rw [List.mem_filter, bne_iff_ne]

theorem mem_purge {now : Nat} :
    x ∈ purge now key l ↔ x ∈ l ∧ ¬ (x.key = key ∧ x.expired now = true) := by
  unfold purge
  rw [List.mem_filter, Bool.not_eq_true', Bool.and_eq_false_iff, beq_eq_false_iff_ne, not_and_or,
    Bool.not_eq_true]

theorem mem_find (h : find key l = some e) : e ∈ l ∧ e.key = key :=
  ⟨List.mem_of_find?_eq_some h, by simpa using List.find?_some h⟩

/-- The entry a lookup finds is one of the list, and live. -/
theorem live_of_find {now : Nat} (h : find key (purge now key l) = some e) :
    e ∈ l ∧ e.key = key ∧ e.expired now = false := by
  obtain ⟨hmem, hkey⟩ := mem_find h
  obtain ⟨hl, hlive⟩ := mem_purge.mp hmem
  exact ⟨hl, hkey, Bool.eq_false_iff.mpr fun hexp => hlive ⟨hkey, hexp⟩⟩

/-- What a write leaves: its entry and some of the others, or some of what there was. -/
theorem Write.mem {rc : Int} (h : Write e l rc l') (hx : x ∈ l') :
    (rc = wasmOk ∧ (x = e ∨ x ∈ l ∧ x.key ≠ e.key)) ∨ (rc = wasmError ∧ x ∈ l) := by
  have hsub : ∀ n, x ∈ evicted e.key n l → x ∈ l :=
    fun n hmem => (evictMany_sublist _ n l).subset hmem
  cases h with
  | inPlace h hlen =>
    refine .inl ⟨rfl, ?_⟩
    rcases List.mem_cons.mp hx with rfl | hx
    · exact .inl rfl
    · exact .inr (mem_without.mp hx)
  | stored h hn =>
    refine .inl ⟨rfl, ?_⟩
    rcases List.mem_cons.mp hx with rfl | hx
    · exact .inl rfl
    · obtain ⟨hx, hne⟩ := mem_without.mp hx
      exact .inr ⟨hsub _ hx, hne⟩
  | failed h hn hend => exact .inr ⟨rfl, hsub _ hx⟩

theorem ok_ne_error : wasmOk ≠ wasmError := by decide

theorem Write.rc_cases {rc : Int} (h : Write e l rc l') : rc = wasmOk ∨ rc = wasmError := by
  cases h with
  | inPlace _ _ => exact .inl rfl
  | stored _ _ => exact .inl rfl
  | failed _ _ _ => exact .inr rfl

/-! ### What an operation can come to -/

section Cases

variable {now : Nat}

/-- A read has bad arguments, misses, or moves the entry it finds to the front. -/
theorem Reads.cases {found : Entry → Reply} {missing : Int}
    (h : Reads now key found missing l reply l') :
    (reply = { rc := wasmError } ∧ l' = l) ∨
      (reply = { rc := missing } ∧ l' = purge now key l) ∨
      ∃ e, find key (purge now key l) = some e ∧ reply = found e ∧
        l' = e :: without key (purge now key l) := by
  unfold Reads at h
  split at h
  · exact .inl h
  · cases hfind : find key (purge now key l) with
    | none =>
      simp only [hfind] at h
      exact .inr (.inl h)
    | some e =>
      simp only [hfind] at h
      exact .inr (.inr ⟨e, rfl, h⟩)

/-- A store has bad arguments, is refused, or writes its entry. -/
theorem Stores.cases {requireExists requireMissing : Bool}
    (h : Stores now e requireExists requireMissing l reply l') :
    (reply = { rc := wasmError } ∧ l' = l) ∨
      (Refused requireExists requireMissing (find e.key (purge now e.key l)) ∧
        reply = { rc := wasmNotFound } ∧ l' = purge now e.key l) ∨
      (¬ Refused requireExists requireMissing (find e.key (purge now e.key l)) ∧
        ∃ rc, Write e (purge now e.key l) rc l' ∧ reply = { rc := rc }) := by
  unfold Stores at h
  split at h
  · exact .inl h
  · dsimp only at h
    split at h
    · rename_i hrefused
      exact .inr (.inl ⟨hrefused, h⟩)
    · rename_i hrefused
      exact .inr (.inr ⟨hrefused, h⟩)

/-- An increment fails before it writes anything, or writes the sum to the live entry. -/
theorem Increments.cases {delta : Int} (h : Increments now key delta l reply l') :
    (reply = { rc := wasmError } ∧ (l' = l ∨ l' = purge now key l)) ∨
      ∃ e current rc, find key (purge now key l) = some e ∧ readI32 e.value = some current ∧
        Write ⟨key, intText (current + delta), e.expiry⟩ (purge now key l) rc l' ∧
        reply = { rc := if rc = wasmOk then current + delta else rc } := by
  unfold Increments at h
  split at h
  · exact .inl ⟨h.1, .inl h.2⟩
  dsimp only at h
  cases hfind : find key (purge now key l) with
  | none =>
    simp only [hfind] at h
    exact .inl ⟨h.1, .inr h.2⟩
  | some e =>
    simp only [hfind] at h
    cases hvalue : readI32 e.value with
    | none =>
      simp only [hvalue] at h
      exact .inl ⟨h.1, .inr h.2⟩
    | some current =>
      simp only [hvalue] at h
      split at h
      · exact .inl ⟨h.1, .inr h.2⟩
      · obtain ⟨rc, hw, hreply⟩ := h
        exact .inr ⟨e, current, rc, rfl, hvalue, hw, hreply⟩

/-- A deletion has a bad key or leaves the other entries. -/
theorem Next.delete_cases (h : Next now (.delete key) l reply l') :
    (reply = { rc := wasmError } ∧ l' = l) ∨
      (reply = { rc := wasmOk } ∧ l' = without key l) := by
  change (if keyValid key = false then reply = { rc := wasmError } ∧ l' = l
    else reply = { rc := wasmOk } ∧ l' = without key l) at h
  split at h
  · exact .inl h
  · exact .inr h

end Cases

/-! ### What is stored -/

/-- Reading changes nothing that is stored. -/
theorem Reads.stored {found : Entry → Reply} {missing : Int}
    (hr : Reads nowMsec.toNat key found missing l reply l') (hx : x ∈ l') : x ∈ l := by
  rcases hr.cases with ⟨-, rfl⟩ | ⟨-, rfl⟩ | ⟨e, hfind, -, rfl⟩
  · exact hx
  · exact (mem_purge.mp hx).1
  · rcases List.mem_cons.mp hx with rfl | hx
    · exact (live_of_find hfind).1
    · exact (mem_purge.mp (mem_without.mp hx).1).1

/-- A store leaves its entry if it reports success, and the others are older ones. -/
theorem Stores.stored {requireExists requireMissing : Bool}
    (hs : Stores nowMsec.toNat e requireExists requireMissing l reply l') (hx : x ∈ l') :
    (reply.rc = wasmOk ∧ x = e) ∨ (x ∈ l ∧ (reply.rc = wasmOk → x.key ≠ e.key)) := by
  rcases hs.cases with ⟨rfl, rfl⟩ | ⟨-, rfl, rfl⟩ | ⟨-, rc, hw, rfl⟩
  · exact .inr ⟨hx, fun h => absurd h (by decide)⟩
  · exact .inr ⟨(mem_purge.mp hx).1, fun h => absurd h (by decide)⟩
  · rcases hw.mem hx with ⟨rfl, rfl | ⟨hx, hne⟩⟩ | ⟨rfl, hx⟩
    · exact .inl ⟨rfl, rfl⟩
    · exact .inr ⟨(mem_purge.mp hx).1, fun _ => hne⟩
    · exact .inr ⟨(mem_purge.mp hx).1, fun h => absurd h.symm ok_ne_error⟩

/-- An increment that does not fail writes the sum to a live number. -/
theorem Increments.wrote {delta : Int} (hi : Increments nowMsec.toNat key delta l reply l')
    (hne : reply.rc ≠ wasmError) :
    ∃ e current, find key (purge nowMsec.toNat key l) = some e ∧ readI32 e.value = some current ∧
      Write ⟨key, intText (current + delta), e.expiry⟩ (purge nowMsec.toNat key l) wasmOk l' ∧
      reply.rc = current + delta := by
  rcases hi.cases with ⟨rfl, -⟩ | ⟨e, current, rc, hfind, hvalue, hw, rfl⟩
  · exact absurd rfl hne
  · rcases hw.rc_cases with rfl | rfl
    · exact ⟨e, current, hfind, hvalue, hw, by rw [if_pos rfl]⟩
    · exact absurd (by rw [if_neg (Ne.symm ok_ne_error)]) hne

/-- The number it finds is live. -/
theorem Increments.live {delta : Int} (hi : Increments nowMsec.toNat key delta l reply l')
    (hne : reply.rc ≠ wasmError) :
    ∃ e ∈ l, ∃ current, e.key = key ∧ e.expired nowMsec.toNat = false ∧
      readI32 e.value = some current ∧ reply.rc = current + delta := by
  obtain ⟨e, current, hfind, hvalue, -, hrc⟩ := hi.wrote hne
  obtain ⟨hmem, hkey, hlive⟩ := live_of_find hfind
  exact ⟨e, hmem, current, hkey, hlive, hvalue, hrc⟩

/-- An increment leaves the entry with the sum if it does not fail, and the others are older ones. -/
theorem Increments.stored {delta : Int}
    (hi : Increments nowMsec.toNat key delta l reply l') (hx : x ∈ l') :
    (∃ e ∈ l, ∃ current, e.key = key ∧ e.expired nowMsec.toNat = false ∧
        readI32 e.value = some current ∧ reply.rc = current + delta ∧
        x = { e with value := intText (current + delta) }) ∨
      (x ∈ l ∧ (x.key = key → reply.rc = wasmError)) := by
  rcases hi.cases with ⟨rfl, rfl | rfl⟩ | ⟨e, current, rc, hfind, hvalue, hw, rfl⟩
  · exact .inr ⟨hx, fun _ => rfl⟩
  · exact .inr ⟨(mem_purge.mp hx).1, fun _ => rfl⟩
  · obtain ⟨hmem, hkey, hlive⟩ := live_of_find hfind
    rcases hw.mem hx with ⟨rfl, rfl | ⟨hx, hne⟩⟩ | ⟨rfl, hx⟩
    · exact .inl ⟨e, hmem, current, hkey, hlive, hvalue, by simp, by rw [hkey]⟩
    · exact .inr ⟨(mem_purge.mp hx).1, fun h => absurd h hne⟩
    · exact .inr ⟨(mem_purge.mp hx).1, fun _ => by rw [if_neg (Ne.symm ok_ne_error)]⟩

/-- Whatever is in the list is what the answers so far say was last stored. -/
def Recalled (os : List (Call × Reply)) (l : Cache) : Prop := ∀ e ∈ l, LastStored os e

/-- **One step** keeps that. -/
theorem Recalled.step {o : Call × Reply} (hl : Recalled os l) (h : Step l o l') :
    Recalled (o :: os) l' := by
  intro x hx
  obtain ⟨⟨nowMsec, op⟩, reply⟩ := o
  have hstores : ∀ {e : Entry} {requireExists requireMissing : Bool},
      Stores nowMsec.toNat e requireExists requireMissing l reply l' → op.entry nowMsec = some e →
      (x.key = e.key → reply.rc ≠ wasmOk → KeepsKey x.key ((nowMsec, op), reply)) →
      e.key = op.key → LastStored (((nowMsec, op), reply) :: os) x := by
    intro e requireExists requireMissing hs hentry hleaves hkey
    rcases hs.stored hx with ⟨hok, rfl⟩ | ⟨hmem, hne⟩
    · exact .stored hentry hok
    · refine .kept (hl x hmem) fun heq => ?_
      have hek : x.key = e.key := heq.symm.trans hkey.symm
      exact hleaves hek (fun hok => hne hok hek) heq
  cases op with
  | get key bufLen => exact .kept (hl x (Reads.stored h hx)) fun _ => trivial
  | «exists» key => exact .kept (hl x (Reads.stored h hx)) fun _ => trivial
  | incr key delta =>
    rcases Increments.stored h hx with ⟨e, he, current, rfl, hlive, hvalue, hrc, rfl⟩ | ⟨hmem, hrc⟩
    · exact .counted (hl e he) hlive hvalue hrc
    · exact .kept (hl x hmem) fun heq => hrc heq.symm
  | set key value => exact hstores h rfl (fun _ hne _ => hne) rfl
  | setEx key value ttlMsec => exact hstores h rfl (fun _ hne _ => hne) rfl
  | add key value => exact hstores h rfl (fun _ hne _ => hne) rfl
  | replace key value => exact hstores h rfl (fun _ hne _ => hne) rfl
  | delete key =>
    rcases Next.delete_cases h with ⟨rfl, rfl⟩ | ⟨rfl, rfl⟩
    · exact .kept (hl x hx) fun _ => Ne.symm ok_ne_error
    · obtain ⟨hmem, hne⟩ := mem_without.mp hx
      exact .kept (hl x hmem) fun heq => absurd heq.symm hne

/-- A read that does not answer `missing` is of a live entry. -/
theorem Reads.live {found : Entry → Reply} {missing : Int}
    (hr : Reads nowMsec.toNat key found missing l reply l') (hne : reply.rc ≠ missing)
    (herr : reply.rc ≠ wasmError) :
    ∃ e ∈ l, e.key = key ∧ e.expired nowMsec.toNat = false ∧ reply = found e := by
  rcases hr.cases with ⟨rfl, -⟩ | ⟨rfl, -⟩ | ⟨e, hfind, hreply, -⟩
  · exact absurd rfl herr
  · exact absurd rfl hne
  · obtain ⟨hmem, hkey, hlive⟩ := live_of_find hfind
    exact ⟨e, hmem, hkey, hlive, hreply⟩

/-- A store that needed the key to be there and did it, or needed it to be missing and did not. -/
theorem Stores.live {requireExists requireMissing : Bool}
    (hs : Stores nowMsec.toNat e requireExists requireMissing l reply l')
    (hrc : requireExists = true ∧ reply.rc = wasmOk ∨
      requireExists = false ∧ reply.rc = wasmNotFound) :
    ∃ x ∈ l, x.key = e.key ∧ x.expired nowMsec.toNat = false := by
  cases hfind : find e.key (purge nowMsec.toNat e.key l) with
  | some x =>
    obtain ⟨hmem, hkey, hlive⟩ := live_of_find hfind
    exact ⟨x, hmem, hkey, hlive⟩
  | none =>
    have hcases := hs.cases
    rw [hfind] at hcases
    rcases hcases with ⟨rfl, -⟩ | ⟨hrefused, rfl, -⟩ | ⟨hnot, rc, hw, rfl⟩
    · exact absurd hrc (by simp [wasmOk, wasmError, wasmNotFound])
    · rcases hrc with ⟨-, hok⟩ | ⟨rfl, -⟩
      · exact absurd hok (by decide)
      · exact absurd hrefused (by simp [Refused])
    · rcases hrc with ⟨rfl, -⟩ | ⟨-, hmissing⟩
      · exact absurd (.inl ⟨rfl, rfl⟩) hnot
      · rcases hw.rc_cases with rfl | rfl
        · exact absurd hmissing (by decide)
        · exact absurd hmissing (by decide)

/-- An answer that the key is there is about a live entry of the list. -/
theorem Step.tellsLive {o : Call × Reply} (h : Step l o l') (ht : TellsLive o) :
    ∃ e ∈ l, e.key = o.1.2.key ∧ e.expired o.1.1.toNat = false ∧ ShowsOf o e := by
  obtain ⟨⟨nowMsec, op⟩, reply⟩ := o
  cases op with
  | get key bufLen =>
    have hrc : 0 ≤ reply.rc := ht
    refine Reads.live h (fun heq => ?_) fun heq => ?_
    · rw [heq] at hrc
      exact absurd hrc (by decide)
    · rw [heq] at hrc
      exact absurd hrc (by decide)
  | «exists» key =>
    have hrc : reply.rc = 1 := ht
    obtain ⟨e, hmem, hkey, hlive, -⟩ :=
      Reads.live h (hrc ▸ (by decide : (1 : Int) ≠ 0)) (hrc ▸ (by decide : (1 : Int) ≠ wasmError))
    exact ⟨e, hmem, hkey, hlive, trivial⟩
  | incr key delta =>
    obtain ⟨e, he, current, hkey, hlive, hvalue, hrc⟩ := Increments.live h ht
    exact ⟨e, he, hkey, hlive, current, hvalue, hrc⟩
  | add key value =>
    obtain ⟨e, hmem, hkey, hlive⟩ := Stores.live h (.inr ⟨rfl, ht⟩)
    exact ⟨e, hmem, hkey, hlive, trivial⟩
  | replace key value =>
    obtain ⟨e, hmem, hkey, hlive⟩ := Stores.live h (.inl ⟨rfl, ht⟩)
    exact ⟨e, hmem, hkey, hlive, trivial⟩
  | set key value => exact ht.elim
  | setEx key value ttlMsec => exact ht.elim
  | delete key => exact ht.elim

end Cache

/-- A run of the zone from a state that satisfies the invariant is one of the list. -/
theorem Inv.traces {base : Set Addr} {z : Zone S} (h : Inv crc32 base z) {calls : List Call}
    (hok : Meets (callStep rb crc32) (CallOk crc32) z calls) :
    Traces Cache.Step (abs z) (shows (callStep rb crc32) (observe rb crc32) z calls)
      (abs (runFrom (callStep rb crc32) z calls)) :=
  hok.simulate h fun _ _ hi hc => ⟨exec_inv hi hc.insertOk, exec_next hi hc⟩

/-- **Answers are about what was last stored.** In every run from the empty zone in which no key
collides with another one in use, whatever the allocator does: an answer that the key is there comes
with an entry that the calls and answers before it say was last stored under that key, that has not
expired at the clock of the call, and whose bytes are the ones it shows. -/
theorem answers_last_stored (S : SlabPool) (rb : Rbtree) (crc32 : Bytes → UInt32)
    (mem : Addr → ShmNode) (pool : S.State) (calls : List Call) (c : Call)
    (h : Meets (callStep rb crc32) (CallOk crc32) (emptyZone mem pool) (calls ++ [c])) :
    let o := observe rb crc32 (runCalls rb crc32 (emptyZone mem pool) calls) c
    TellsLive o → ∃ e,
      LastStored (shows (callStep rb crc32) (observe rb crc32) (emptyZone mem pool) calls).reverse e ∧
        e.key = c.2.key ∧ e.expired c.1.toNat = false ∧ ShowsOf o e := by
  intro o ht
  have h0 : Inv crc32 (S.allocated pool) (emptyZone mem pool) :=
    ⟨.emptyZone mem pool, .emptyZone mem pool⟩
  have hinv := h.append_left.invariant h0 fun _ _ hi hc => @exec_inv _ rb _ _ _ hi _ hc.insertOk
  have hnil : Cache.Recalled [] (abs (emptyZone mem pool)) := List.forall_mem_nil _
  have hrecalled := (h0.traces h.append_left).history hnil fun _ _ _ _ hl hs => hl.step hs
  rw [List.append_nil] at hrecalled
  have hstep : Cache.Step _ o _ := exec_next hinv h.append_right.1
  obtain ⟨e, he, hkey, hlive, hshows⟩ := hstep.tellsLive ht
  exact ⟨e, hrecalled e he, hkey, hlive, hshows⟩

/-- Room for two entries: a counter survives the eviction of the other key, and is read back. -/
theorem answers_last_stored_two_chunks :
    let z₀ : Zone (.ofCapacity 2) := emptyZone (fun _ => ⟨0, [], [], 0⟩) []
    let calls : List Call := [(1, .set [97] [57]), (1, .set [98] []), (2, .incr [97] 1),
      (3, .set [99] [])]
    let o := observe .unbalanced crc32Short (runCalls .unbalanced crc32Short z₀ calls)
      (4, .get [97] 8)
    ∃ e, LastStored (shows (callStep .unbalanced crc32Short) (observe .unbalanced crc32Short) z₀
        calls).reverse e ∧ e.key = [97] ∧ e.expired 4 = false ∧ ShowsOf o e :=
  answers_last_stored (.ofCapacity 2) .unbalanced crc32Short (fun _ => ⟨0, [], [], 0⟩) []
    [(1, .set [97] [57]), (1, .set [98] []), (2, .incr [97] 1), (3, .set [99] [])] (4, .get [97] 8)
    (by decide) (by decide : (0 : Int) ≤ 2)

end NgxWasm.Shm
