import NgxWasm.Lib.Recency
import NgxWasm.Shm.Zone

/-!
# Tree, queue and slab pool stay in step

`Wf base z`: the chunks linked in the tree, the chunks linked in the LRU queue, and the chunks of
the pool outside `base` are the same, each linked once. `base` holds what the pool uses for other
things; while `set_locked` holds a chunk it has allocated and not linked yet, that chunk counts as
`base`. The invariant says nothing of keys, hashes or the order of the tree.

Each primitive that links, unlinks or allocates has one lemma here. Evictions are described by what
they leave (`Evicted`: that many entries fewer, from the back, contents as before), so no proof
below goes through the retry loop again.

* `link`, `alloc_some`: allocating a chunk and linking it.
* `evictLruLocked_some`: one eviction takes the last entry that is not spared.
* `allocNode_spec`: `alloc_node`, the retry loop with its evictions, once and for all.
-/

namespace NgxWasm.Shm

open Lib

variable {S : SlabPool} {rb : Rbtree}

/-- The tree, the queue and the pool hold the same entries, each once. -/
structure Wf (base : Set Addr) (z : Zone S) : Prop where
  nodup : z.lru.Nodup
  perm : z.tree.inorder.Perm z.lru
  allocated : ∀ a, a ∈ S.allocated z.pool ↔ a ∈ base ∨ a ∈ z.lru
  apart : ∀ a ∈ z.lru, a ∉ base

namespace Wf

variable {base : Set Addr} {z : Zone S}

theorem mem_inorder (h : Wf base z) {a : Addr} : a ∈ z.tree.inorder ↔ a ∈ z.lru :=
  h.perm.mem_iff

/-- `Wf` says nothing about the contents of the chunks. -/
theorem withMem (h : Wf base z) (mem : Addr → ShmNode) : Wf base { z with mem := mem } :=
  ⟨h.nodup, h.perm, h.allocated, h.apart⟩

theorem emptyZone (mem : Addr → ShmNode) (pool : S.State) :
    Wf (S.allocated pool) (emptyZone mem pool) :=
  ⟨List.nodup_nil, List.Perm.refl _, fun a => by simp [Shm.emptyZone],
    fun _ ha => absurd ha List.not_mem_nil⟩

theorem deleteLocked (h : Wf base z) {a : Addr} (ha : a ∈ z.lru) :
    Wf base (deleteLocked rb a z) where
  nodup := h.nodup.erase a
  perm := by
    show (rb.delete z.tree a).inorder.Perm (z.lru.erase a)
    rw [rb.inorder_delete _ _ (h.mem_inorder.mpr ha)]
    exact h.perm.erase a
  allocated := fun b => by
    show b ∈ S.allocated (S.free z.pool a) ↔ b ∈ base ∨ b ∈ z.lru.erase a
    rw [S.allocated_free ((h.allocated a).mpr (Or.inr ha)), h.nodup.mem_erase_iff, Set.mem_sdiff,
      h.allocated b, Set.mem_singleton_iff]
    constructor
    · rintro ⟨hb | hb, hne⟩
      · exact Or.inl hb
      · exact Or.inr ⟨hne, hb⟩
    · rintro (hb | ⟨hne, hb⟩)
      · exact ⟨Or.inl hb, fun e => h.apart a ha (e ▸ hb)⟩
      · exact ⟨Or.inr hb, hne⟩
  apart := fun b hb => h.apart b (List.mem_of_mem_erase hb)

theorem touchLocked (h : Wf base z) {a : Addr} (ha : a ∈ z.lru) : Wf base (touchLocked a z) := by
  have hp : (a :: z.lru.erase a).Perm z.lru := (List.perm_cons_erase ha).symm
  exact ⟨hp.nodup_iff.mpr h.nodup, h.perm.trans hp.symm,
    fun b => (h.allocated b).trans (or_congr Iff.rfl hp.mem_iff.symm),
    fun b hb => h.apart b (hp.mem_iff.mp hb)⟩

theorem alloc_none (h : Wf base z) {n : Nat} {pool : S.State}
    (ha : S.alloc z.pool n = (none, pool)) : Wf base { z with pool := pool } :=
  ⟨h.nodup, h.perm, fun b => by
    show b ∈ S.allocated pool ↔ _
    rw [S.alloc_none ha]; exact h.allocated b, h.apart⟩

/-- A fresh chunk is held beside the linked ones. -/
theorem alloc_some (h : Wf base z) {n : Nat} {a : Addr} {pool : S.State}
    (ha : S.alloc z.pool n = (some a, pool)) :
    a ∉ base ∧ a ∉ z.lru ∧ Wf (insert a base) { z with pool := pool } := by
  obtain ⟨hfree, hins⟩ := S.alloc_some ha
  have hbase : a ∉ base := fun hb => hfree ((h.allocated a).mpr (Or.inl hb))
  have hlru : a ∉ z.lru := fun hb => hfree ((h.allocated a).mpr (Or.inr hb))
  refine ⟨hbase, hlru, h.nodup, h.perm, fun b => ?_, fun b hb => ?_⟩
  · show b ∈ S.allocated pool ↔ _
    rw [hins, Set.mem_insert_iff, Set.mem_insert_iff, h.allocated b, or_assoc]
  · rw [Set.mem_insert_iff]
    rintro (rfl | hb')
    · exact hlru hb
    · exact h.apart b hb hb'

/-- Linking the held chunk puts it in the tree and at the front of the queue. -/
theorem link {a : Addr} (h : Wf (insert a base) z) (hbase : a ∉ base) (hlru : a ∉ z.lru) :
    Wf base (link rb a z) where
  nodup := List.nodup_cons.mpr ⟨hlru, h.nodup⟩
  perm := by
    show (rb.insert _ a z.tree).inorder.Perm (a :: z.lru)
    rw [rb.inorder_insert]
    obtain ⟨l₁, l₂, ht, ht'⟩ :=
      BinTree.inorder_insertBy (fun t => insertCmp (z.mem a) (z.mem t) == .lt) a z.tree
    rw [ht']
    exact List.perm_middle.trans ((ht ▸ h.perm).cons a)
  allocated := fun b => by
    show b ∈ S.allocated z.pool ↔ b ∈ base ∨ b ∈ a :: z.lru
    rw [h.allocated b, Set.mem_insert_iff, List.mem_cons]
    tauto
  apart := fun b hb => by
    rcases List.mem_cons.mp hb with rfl | hb
    · exact hbase
    · exact fun hb' => h.apart b hb (Set.mem_insert_of_mem _ hb')

end Wf

/-! ## Eviction -/

/-- The entry an eviction passes over. -/
def spared (skip : Option Addr) (a : Addr) : Bool := some a == skip

/-- The entry that a lookup found, where it found one. -/
theorem found_linked {z : Zone S} {a : Addr} (ha : a ∈ z.lru) : ∀ e ∈ some a, e ∈ z.lru := by
  intro e he
  obtain rfl := Option.mem_some_iff.mp he
  exact ha

/-- `z'` is `z` after `n` evictions: the queue lost that many entries from the back, the tree the
same ones, and the chunks' contents are as before. -/
structure Evicted (skip : Option Addr) (n : Nat) (z z' : Zone S) : Prop where
  lru : z'.lru = evictMany (spared skip) n z.lru
  inorder : z'.tree.inorder.Sublist z.tree.inorder
  mem : z'.mem = z.mem
  count : z'.lru.length + n = z.lru.length

theorem evicted_zero (skip : Option Addr) (z : Zone S) (pool : S.State) :
    Evicted skip 0 z { z with pool := pool } :=
  ⟨rfl, List.Sublist.refl _, rfl, rfl⟩

theorem evictLruLocked_none {skip : Option Addr} {z : Zone S}
    (h : evictLruLocked rb skip z = none) : z.lru.all (spared skip) = true := by
  unfold evictLruLocked at h
  split at h
  · exact absurd h (by simp)
  · rename_i hf
    rw [List.all_eq_true]
    intro a ha
    have := List.find?_eq_none.mp hf a (List.mem_reverse.mpr ha)
    simpa [spared] using this

/-- `evict_lru_locked` deletes the last entry that is not spared. -/
theorem evictLruLocked_some {base : Set Addr} {skip : Option Addr} {z z' : Zone S}
    (hw : Wf base z) (h : evictLruLocked rb skip z = some z') :
    Wf base z' ∧ Evicted skip 1 z z' := by
  unfold evictLruLocked at h
  split at h
  · rename_i a hf
    obtain rfl := Option.some.inj h
    have ha : a ∈ z.lru := List.mem_reverse.mp (List.mem_of_find?_eq_some hf)
    have hf' : z.lru.reverse.find? (fun x => !spared skip x) = some a := hf
    have hs : spared skip a = false := by simpa using List.find?_some hf'
    have he : evictBack (spared skip) z.lru = z.lru.erase a := evictBack_eq_erase hw.nodup hf'
    have hall : z.lru.all (spared skip) = false := Bool.eq_false_iff.mpr fun hc => by
      rw [List.all_eq_true.mp hc a ha] at hs
      exact absurd hs (by simp)
    refine ⟨hw.deleteLocked ha, ?_, ?_, rfl, ?_⟩
    · show z.lru.erase a = _
      rw [evictMany_succ, evictMany_zero, he]
    · show (rb.delete z.tree a).inorder.Sublist _
      rw [rb.inorder_delete _ _ (hw.mem_inorder.mpr ha)]
      exact List.erase_sublist
    · show (z.lru.erase a).length + 1 = _
      rw [← he]
      exact length_evictBack hall
  · exact absurd h (by simp)

theorem Evicted.cons {skip : Option Addr} {n : Nat} {z z₁ z' : Zone S}
    (h : Evicted skip 1 z z₁) (h' : Evicted skip n z₁ z') : Evicted skip (n + 1) z z' where
  lru := by
    rw [h'.lru, h.lru, evictMany_succ, evictMany_zero, evictMany_succ]
  inorder := h'.inorder.trans h.inorder
  mem := h'.mem.trans h.mem
  count := by have := h.count; have := h'.count; omega

/-- What the retry loop of `alloc_node` can do with `fuel` attempts: some evictions, then either a
fresh chunk, or failure with every attempt spent or nothing left to evict. -/
theorem allocLoop_spec {base : Set Addr} {size : Nat} {skip : Option Addr} :
    ∀ {fuel : Nat} {z z' : Zone S} {r : Option Addr}, Wf base z →
      allocLoop rb size skip fuel z = (r, z') → ∃ n ≤ fuel, Evicted skip n z z' ∧
        match r with
        | some a => n < fuel ∧ a ∉ base ∧ a ∉ z'.lru ∧ Wf (insert a base) z'
        | none => Wf base z' ∧ (n = fuel ∨ z'.lru.all (spared skip) = true)
  | 0, z, z', r, hw, h => by
    simp only [allocLoop, Prod.mk.injEq] at h
    obtain ⟨rfl, rfl⟩ := h
    exact ⟨0, le_refl _, evicted_zero skip z z.pool, hw, Or.inl rfl⟩
  | fuel + 1, z, z', r, hw, h => by
    unfold allocLoop at h
    split at h
    · rename_i a pool ha
      simp only [Prod.mk.injEq] at h
      obtain ⟨rfl, rfl⟩ := h
      obtain ⟨hbase, hlru, hw'⟩ := hw.alloc_some ha
      exact ⟨0, Nat.zero_le _, evicted_zero skip z pool, Nat.succ_pos _, hbase, hlru, hw'⟩
    · rename_i pool ha
      have hw₁ := hw.alloc_none ha
      split at h
      · rename_i z₁ he
        obtain ⟨hw₂, hev⟩ := evictLruLocked_some hw₁ he
        obtain ⟨n, hn, hevs, hr⟩ := allocLoop_spec hw₂ h
        -- the failed attempt only touched the pool, so the evictions compose from `z`
        have hev' : Evicted skip 1 z z₁ := ⟨hev.lru, hev.inorder, hev.mem, hev.count⟩
        refine ⟨n + 1, Nat.succ_le_succ hn, hev'.cons hevs, ?_⟩
        cases r with
        | some a => exact ⟨Nat.succ_lt_succ hr.1, hr.2⟩
        | none => exact ⟨hr.1, hr.2.imp (congrArg (· + 1)) id⟩
      · rename_i he
        simp only [Prod.mk.injEq] at h
        obtain ⟨rfl, rfl⟩ := h
        exact ⟨0, Nat.zero_le _, evicted_zero skip z pool, hw₁, Or.inr (evictLruLocked_none he)⟩

/-- **What `alloc_node` does**: up to 32 evictions from the back, sparing `skip`; then a chunk
that is linked nowhere holds the new entry, or nothing was written. -/
theorem allocNode_spec {base : Set Addr} {key value : Bytes} {hash : UInt32} {skip : Option Addr}
    {z z' : Zone S} {r : Option Addr} (hw : Wf base z)
    (h : allocNode rb key value hash skip z = (r, z')) :
    ∃ n ≤ maxAttempts, ∃ z₁, Evicted skip n z z₁ ∧
      match r with
      | some a => n < maxAttempts ∧ a ∉ base ∧ a ∉ z₁.lru ∧ Wf (insert a base) z₁ ∧
          z' = { z₁ with mem := Function.update z₁.mem a ⟨hash, key, value, 0⟩ }
      | none => Wf base z₁ ∧ (n = maxAttempts ∨ z₁.lru.all (spared skip) = true) ∧ z' = z₁ := by
  unfold allocNode at h
  split at h
  · rename_i a z₁ hl
    simp only [Prod.mk.injEq] at h
    obtain ⟨rfl, rfl⟩ := h
    obtain ⟨n, hn, hev, hlt, hbase, hlru, hw'⟩ := allocLoop_spec hw hl
    exact ⟨n, hn, z₁, hev, hlt, hbase, hlru, hw', rfl⟩
  · rename_i z₁ hl
    simp only [Prod.mk.injEq] at h
    obtain ⟨rfl, rfl⟩ := h
    obtain ⟨n, hn, hev, hw', hend⟩ := allocLoop_spec hw hl
    exact ⟨n, hn, z₁, hev, hw', hend, rfl⟩

end NgxWasm.Shm
