import NgxWasm.Lib.Run
import NgxWasm.Shm.Wf

/-!
# Who owns a chunk

`Wf` says of one state that the tree, the queue and the pool hold the same entries. Whether the
comparators agree does not matter here: a lookup that misses an entry may link a second one with
the same key, and both are then linked, queued and allocated. So `Wf` holds after every operation
of every run, with no condition on the keys.

`PoolUse` adds what lies between two states: the pool is reached by allocations and by frees of
chunks that were allocated at that time. A chunk that is freed twice, or freed and kept linked, has
no such path.

* `Owned.reallocate`: the hard case. The evictions made for a new chunk spare the entry that it is
  to replace, so that entry is freed once.
* `exec_owned`, `runCalls_owned`: an operation and a run keep both.
* `entries_owned_once`: so the three hold the same entries, each once, in every state of every run
  from a new zone.
-/

namespace NgxWasm.Shm

open Lib

variable {S : SlabPool} {rb : Rbtree} {crc32 : Bytes → UInt32}

/-- How the state of a pool may change: nothing is freed that is not allocated. -/
inductive PoolUse (S : SlabPool) (s : S.State) : S.State → Prop
  | refl : PoolUse S s s
  | alloc {s' : S.State} (h : PoolUse S s s') (size : Nat) : PoolUse S s (S.alloc s' size).2
  | free {s' : S.State} (h : PoolUse S s s') {a : Addr} (ha : a ∈ S.allocated s') :
      PoolUse S s (S.free s' a)

/-- The invariant of the store, and how its pool was used since `s`. -/
structure Owned (base : Set Addr) (s : S.State) (z : Zone S) : Prop where
  wf : Wf base z
  used : PoolUse S s z.pool

section Steps

variable {base : Set Addr} {s : S.State} {z z' : Zone S} {key value : Bytes} {hash : UInt32}

theorem Owned.deleteLocked (h : Owned base s z) {a : Addr} (ha : a ∈ z.lru) :
    Owned base s (deleteLocked rb a z) :=
  ⟨h.wf.deleteLocked ha, h.used.free ((h.wf.allocated a).mpr (Or.inr ha))⟩

theorem Owned.touchLocked (h : Owned base s z) {a : Addr} (ha : a ∈ z.lru) :
    Owned base s (touchLocked a z) := ⟨h.wf.touchLocked ha, h.used⟩

theorem mem_lru_of_lookup (h : Wf base z) {a : Addr} (hl : lookup key hash z = some a) :
    a ∈ z.lru := h.mem_inorder.mp (BinTree.search_some hl).1

theorem evictLruLocked_used (h : Owned base s z) {skip : Option Addr}
    (he : evictLruLocked rb skip z = some z') : PoolUse S s z'.pool := by
  unfold evictLruLocked at he
  split at he
  · rename_i a hf
    obtain rfl := Option.some.inj he
    exact (h.deleteLocked (List.mem_reverse.mp (List.mem_of_find?_eq_some hf))).used
  · cases he

/-- The retry loop frees what it evicts, and nothing else. -/
theorem allocLoop_used {size : Nat} {skip : Option Addr} (fuel : Nat) (h : Owned base s z) :
    PoolUse S s (allocLoop rb size skip fuel z).2.pool := by
  induction fuel generalizing z with
  | zero => exact h.used
  | succ fuel ih =>
    unfold allocLoop
    cases ha : S.alloc z.pool size with
    | mk r pool =>
      have hused : PoolUse S s pool := by
        have := h.used.alloc size
        rwa [ha] at this
      cases r with
      | some a => exact hused
      | none =>
        have h₁ : Owned base s { z with pool := pool } := ⟨h.wf.alloc_none ha, hused⟩
        cases he : evictLruLocked rb skip { z with pool := pool } with
        | none =>
          simp only [he]
          exact hused
        | some z₁ =>
          simp only [he]
          exact ih ⟨(evictLruLocked_some h₁.wf he).1, evictLruLocked_used h₁ he⟩

theorem allocNode_used {skip : Option Addr} (h : Owned base s z) :
    PoolUse S s (allocNode rb key value hash skip z).2.pool := by
  have hloop : PoolUse S s (allocLoop rb (nodeDataOffset + key.length + value.length) skip
    maxAttempts z).2.pool := allocLoop_used maxAttempts h
  unfold allocNode
  split
  · rename_i hl
    rw [hl] at hloop
    exact hloop
  · rename_i hl
    rw [hl] at hloop
    exact hloop

/-- **Allocating with the entry to be replaced in hand**: the evictions spare it, so it is freed
once, and the new one is linked where no other entry is. -/
theorem Owned.reallocate (h : Owned base s z) {expiresAtMsec : UInt64} {existing : Option Addr}
    (hex : ∀ e ∈ existing, e ∈ z.lru) :
    Owned base s (reallocate rb key value expiresAtMsec hash existing z).2 := by
  have hused : PoolUse S s (allocNode rb key value hash existing z).2.pool := allocNode_used h
  unfold Shm.reallocate
  cases hn : allocNode rb key value hash existing z with
  | mk r z₂ =>
    rw [hn] at hused
    cases r with
    | none =>
      obtain ⟨n, -, z₁, -, hw, -, rfl⟩ := allocNode_spec h.wf hn
      exact ⟨hw, hused⟩
    | some a =>
      obtain ⟨n, -, z₁, hev, -, hbase, hlru, hw, rfl⟩ := allocNode_spec h.wf hn
      have h₂ : ∀ mem, Owned (insert a base) s { z₁ with mem := mem } :=
        fun mem => ⟨hw.withMem mem, hused⟩
      cases existing with
      | none => exact ⟨(h₂ _).wf.link hbase hlru, hused⟩
      | some e =>
        have he : e ∈ z₁.lru := by
          rw [hev.lru]
          exact mem_evictMany_of_spare (hex e rfl) (by simp [spared])
        have h₃ : ∀ mem, Owned (insert a base) s (Shm.deleteLocked rb e { z₁ with mem := mem }) :=
          fun mem => (h₂ mem).deleteLocked he
        exact ⟨(h₃ _).wf.link hbase fun ha => hlru (List.mem_of_mem_erase ha), (h₃ z₁.mem).used⟩

theorem Owned.lookupLive (h : Owned base s z) {nowMsec : UInt64} :
    Owned base s (lookupLive rb nowMsec key hash z).2 ∧
      ∀ a ∈ (Shm.lookupLive rb nowMsec key hash z).1,
        a ∈ (Shm.lookupLive rb nowMsec key hash z).2.lru := by
  unfold Shm.lookupLive
  cases hl : lookup key hash z with
  | none => exact ⟨h, fun _ ha => absurd ha (Option.not_mem_none _)⟩
  | some a =>
    have ha := mem_lru_of_lookup h.wf hl
    dsimp only
    split
    · exact ⟨h.deleteLocked ha, fun _ hb => absurd hb (Option.not_mem_none _)⟩
    · exact ⟨h, found_linked ha⟩

theorem Owned.setLocked (h : Owned base s z) {nowMsec expiresAtMsec : UInt64}
    {requireExists requireMissing : Bool} :
    Owned base s
      (setLocked rb nowMsec key value expiresAtMsec hash requireExists requireMissing z).2 := by
  obtain ⟨h₀, hlive⟩ : Owned base s (Shm.lookupLive rb nowMsec key hash z).2 ∧ _ := h.lookupLive
  unfold Shm.setLocked
  generalize Shm.lookupLive rb nowMsec key hash z = r at h₀ hlive
  obtain ⟨r, z₀⟩ := r
  cases r with
  | none =>
    dsimp only
    split
    · exact h₀
    · exact h₀.reallocate fun _ he => absurd he (Option.not_mem_none _)
  | some a =>
    have ha : a ∈ z₀.lru := hlive a rfl
    dsimp only
    split
    · exact h₀
    · split
      · have h₁ : ∀ mem, Owned base s { z₀ with mem := mem } :=
          fun mem => ⟨h₀.wf.withMem mem, h₀.used⟩
        exact (h₁ _).touchLocked ha
      · exact h₀.reallocate (found_linked ha)

theorem Owned.shmWrite (h : Owned base s z) {nowMsec expiresAtMsec : UInt64}
    {requireExists requireMissing : Bool} :
    Owned base s
      (shmWrite rb crc32 nowMsec key value expiresAtMsec requireExists requireMissing z).2 := by
  unfold Shm.shmWrite
  split
  · exact h
  · exact h.setLocked

/-- **Every operation keeps the three sets equal.** -/
theorem exec_owned (h : Owned base s z) (c : Call) : Owned base s (exec rb crc32 c.1 c.2 z).2 := by
  obtain ⟨nowMsec, op⟩ := c
  have hlive : ∀ key, Owned base s (lookupLive rb nowMsec key (crc32 key) z).2 ∧
      ∀ a ∈ (lookupLive rb nowMsec key (crc32 key) z).1,
        a ∈ (lookupLive rb nowMsec key (crc32 key) z).2.lru := fun key => h.lookupLive
  cases op with
  | get key bufLen =>
    obtain ⟨h₀, ha⟩ := hlive key
    simp only [exec, shmGet]
    split
    · exact h
    · generalize lookupLive rb nowMsec key (crc32 key) z = r at h₀ ha
      obtain ⟨_ | a, z₀⟩ := r
      · exact h₀
      · exact h₀.touchLocked (ha a rfl)
  | «exists» key =>
    obtain ⟨h₀, ha⟩ := hlive key
    simp only [exec, shmExists]
    split
    · exact h
    · generalize lookupLive rb nowMsec key (crc32 key) z = r at h₀ ha
      obtain ⟨_ | a, z₀⟩ := r
      · exact h₀
      · exact h₀.touchLocked (ha a rfl)
  | incr key delta =>
    obtain ⟨h₀, -⟩ := hlive key
    simp only [exec, shmIncr]
    split
    · exact h
    · split
      · exact h
      · generalize lookupLive rb nowMsec key (crc32 key) z = r at h₀
        obtain ⟨_ | a, z₀⟩ := r
        · exact h₀
        · dsimp only
          split
          · exact h₀
          · exact h₀.setLocked
  | set key value => exact h.shmWrite
  | setEx key value ttlMsec => exact h.shmWrite
  | add key value => exact h.shmWrite
  | replace key value => exact h.shmWrite
  | delete key =>
    simp only [exec, shmDelete]
    split
    · exact h
    · split
      · exact h
      · rename_i a hl
        exact h.deleteLocked (mem_lru_of_lookup h.wf hl)

/-- So does every run. -/
theorem runCalls_owned (h : Owned base s z) (calls : List Call) :
    Owned base s (runCalls rb crc32 z calls) :=
  run_invariant calls h fun _ c h => exec_owned h c

end Steps

/-- **Tree, queue and pool hold the same entries, each once, after every operation of every run**,
whatever the keys, the hashes and the pool do; and no chunk is freed that is not allocated. -/
theorem entries_owned_once (rb : Rbtree) (crc32 : Bytes → UInt32) (mem : Addr → ShmNode)
    (pool : S.State) (calls : List Call) :
    Owned (S.allocated pool) pool (runCalls rb crc32 (emptyZone mem pool) calls) := by
  have h0 : Owned (S.allocated pool) pool (emptyZone mem pool) := ⟨Wf.emptyZone mem pool, .refl⟩
  exact runCalls_owned h0 calls

end NgxWasm.Shm
