import NgxWasm.Lib.Run
import NgxWasm.Shm.Lookup

/-!
# The invariant of the store, over every operation

`Inv` joins the two invariants (`Wf`, `Keyed`). Each internal function of the source that several
operations share has one lemma, which says all it can do: `Inv.lookupLive` (lookup, then lazy
expiry), `Inv.reallocate` (the path that allocates, evicts and replaces) and `Inv.setLocked`. The
operations are short case analyses over these.

The condition on a call, `InsertOk`, is read off the zone before it: a key that the call may link
orders alike with every linked key. Reading, deleting and counting link no new key and need nothing.

* `exec_inv`: every operation keeps the invariant, provided its key is `InsertOk`.
* `lookup_exact_of_ordersAlike`: in every run whose insertions meet that condition, the lookup is
  exact and no key is linked twice.
* `lookup_misses_linked_key`: two insertions that do not.

The tree, the allocator and the hash are any (`Rbtree`, `SlabPool`, `crc32`). What the functions leave
is said of the tree's in-order sequence and of the queue, which hold the same chunks. Which entries an
eviction takes does not matter to the lookup, and is left to `Shm.Cache` and `Shm.Recent`.
-/

namespace NgxWasm.Shm

open Lib

variable {S : SlabPool} {rb : Rbtree} {crc32 : Bytes → UInt32}

/-- The invariant of the store. -/
structure Inv (crc32 : Bytes → UInt32) (base : Set Addr) (z : Zone S) : Prop where
  wf : Wf base z
  keyed : Keyed crc32 z

section Steps

variable {base : Set Addr} {z z' : Zone S} {key value : Bytes}

theorem Inv.linked_iff (h : Inv crc32 base z) :
    Linked key z ↔ ∃ a ∈ z.lru, (z.mem a).key = key := by
  unfold Linked
  simp only [h.wf.mem_inorder]

/-- **What the lookup returns** in a zone that keeps the invariant. -/
theorem Inv.lookup_iff (h : Inv crc32 base z) {a : Addr} :
    lookup key (crc32 key) z = some a ↔ a ∈ z.lru ∧ (z.mem a).key = key := by
  constructor
  · intro hl
    obtain ⟨ha, he⟩ := BinTree.search_some hl
    exact ⟨h.wf.mem_inorder.mp ha, (lookupCmp_eq_iff.mp he).2.symm⟩
  · rintro ⟨ha, hk⟩
    have hai := h.wf.mem_inorder.mpr ha
    obtain ⟨b, hb⟩ := h.keyed.exists_lookup ⟨a, hai, hk⟩
    obtain ⟨hbi, he⟩ := BinTree.search_some hb
    rw [hb, h.keyed.key_inj hbi hai ((lookupCmp_eq_iff.mp he).2.symm.trans hk.symm)]

theorem Inv.lookup_none (h : Inv crc32 base z) (hl : lookup key (crc32 key) z = none) :
    ¬ Linked key z := by
  intro hk
  obtain ⟨a, ha⟩ := h.keyed.exists_lookup hk
  rw [hl] at ha
  exact absurd ha (by simp)

theorem Inv.deleteLocked (h : Inv crc32 base z) {a : Addr} (ha : a ∈ z.lru) :
    Inv crc32 base (deleteLocked rb a z) :=
  ⟨h.wf.deleteLocked ha, h.keyed.mono (by
    show (rb.delete z.tree a).inorder.Sublist _
    rw [rb.inorder_delete _ _ (h.wf.mem_inorder.mpr ha)]
    exact List.erase_sublist) fun _ _ => ⟨rfl, rfl⟩⟩

/-- A key whose entry is deleted is linked no more. -/
theorem Inv.not_linked_deleteLocked (h : Inv crc32 base z) {a : Addr} (ha : a ∈ z.lru) :
    ¬ Linked (z.mem a).key (Shm.deleteLocked rb a z) := by
  rw [(h.deleteLocked ha).linked_iff]
  rintro ⟨b, hb, hk⟩
  have hb' : b ∈ z.lru.erase a := hb
  rw [h.wf.nodup.mem_erase_iff] at hb'
  exact hb'.1 (h.keyed.key_inj (h.wf.mem_inorder.mpr hb'.2) (h.wf.mem_inorder.mpr ha) hk)

theorem Inv.touchLocked (h : Inv crc32 base z) {a : Addr} (ha : a ∈ z.lru) :
    Inv crc32 base (touchLocked a z) :=
  ⟨h.wf.touchLocked ha, h.keyed.mono (List.Sublist.refl _) fun _ _ => ⟨rfl, rfl⟩⟩

theorem Inv.overwrite (h : Inv crc32 base z) {a : Addr} (ha : a ∈ z.lru) (expiresAtMsec : UInt64) :
    Inv crc32 base (overwrite value expiresAtMsec a z) := by
  refine ⟨(h.wf.withMem _).touchLocked ha, h.keyed.mono (List.Sublist.refl _) fun b _ => ?_⟩
  by_cases hb : b = a
  · subst hb; simp [Shm.overwrite, Shm.touchLocked]
  · simp [Shm.overwrite, Shm.touchLocked, Function.update_of_ne hb]

theorem Evicted.inv {skip : Option Addr} {n : Nat} {base' : Set Addr} (hev : Evicted skip n z z')
    (h : Inv crc32 base z) (hw : Wf base' z') : Inv crc32 base' z' :=
  ⟨hw, h.keyed.mono hev.inorder fun _ _ => by rw [hev.mem]; exact ⟨rfl, rfl⟩⟩

/-- The first steps of `get`, `exists`, `incr` and `set_locked`: either the live entry of the key,
in an unchanged zone, or no entry of the key is left, the expired one having been deleted. -/
theorem Inv.lookupLive (h : Inv crc32 base z) {nowMsec : UInt64} {r : Option Addr}
    (hr : lookupLive rb nowMsec key (crc32 key) z = (r, z')) :
    Inv crc32 base z' ∧
      match r with
      | some a => z' = z ∧ a ∈ z.lru ∧ (z.mem a).key = key ∧ isExpired (z.mem a) nowMsec = false
      | none => ¬ Linked key z' ∧ (z' = z ∨ ∃ a ∈ z.lru, (z.mem a).key = key ∧
          isExpired (z.mem a) nowMsec = true ∧ z' = Shm.deleteLocked rb a z) := by
  unfold Shm.lookupLive at hr
  split at hr
  · rename_i hl
    simp only [Prod.mk.injEq] at hr
    obtain ⟨rfl, rfl⟩ := hr
    exact ⟨h, h.lookup_none hl, Or.inl rfl⟩
  · rename_i a hl
    obtain ⟨ha, hk⟩ := h.lookup_iff.mp hl
    split at hr
    · rename_i hexp
      simp only [Prod.mk.injEq] at hr
      obtain ⟨rfl, rfl⟩ := hr
      exact ⟨h.deleteLocked ha, hk ▸ h.not_linked_deleteLocked ha, Or.inr ⟨a, ha, hk, hexp, rfl⟩⟩
    · rename_i hexp
      simp only [Prod.mk.injEq] at hr
      obtain ⟨rfl, rfl⟩ := hr
      exact ⟨h, rfl, ha, hk, Bool.eq_false_iff.mpr hexp⟩

/-- What `set_locked` knows of the entry it found: it is linked and holds the key, or no entry of
the key is linked. -/
def Existing (key : Bytes) (z : Zone S) : Option Addr → Prop
  | some e => e ∈ z.lru ∧ (z.mem e).key = key
  | none => ¬ Linked key z

/-- The queue without the entry being replaced. -/
def dropExisting : Option Addr → List Addr → List Addr
  | some e, l => l.erase e
  | none, l => l

/-- What `reallocate` leaves: the evictions `alloc_node` made, and then either nothing more, or the
new entry at the front in place of the existing one. -/
structure Reallocated (crc32 : Bytes → UInt32) (key value : Bytes) (expiresAtMsec : UInt64)
    (existing : Option Addr) (n : Nat) (z z₁ : Zone S) (rc : Int) (z' : Zone S) : Prop where
  evicted : Evicted existing n z z₁
  result : (rc = wasmError ∧ z' = z₁ ∧ n ≤ maxAttempts ∧
      (n = maxAttempts ∨ z₁.lru.all (spared existing) = true)) ∨
    (rc = wasmOk ∧ n < maxAttempts ∧ ∃ a, a ∉ z₁.lru ∧ z'.lru = a :: dropExisting existing z₁.lru ∧
      z'.mem = Function.update z₁.mem a ⟨crc32 key, key, value, expiresAtMsec⟩)

/-- **What `reallocate` does**, whatever the keys: after the evictions it fails, or the new entry is
linked into a zone that has lost the existing one. -/
theorem reallocate_cases (hw : Wf base z) {expiresAtMsec : UInt64} {hash : UInt32}
    {existing : Option Addr} {rc : Int} (hex : ∀ e ∈ existing, e ∈ z.lru)
    (hr : reallocate rb key value expiresAtMsec hash existing z = (rc, z')) :
    ∃ n z₁, Evicted existing n z z₁ ∧
      ((rc = wasmError ∧ z' = z₁ ∧ Wf base z₁ ∧ n ≤ maxAttempts ∧
        (n = maxAttempts ∨ z₁.lru.all (spared existing) = true)) ∨
      (rc = wasmOk ∧ n < maxAttempts ∧ ∃ a z₃, a ∉ base ∧ a ∉ z₁.lru ∧ Wf (insert a base) z₃ ∧
        z₃.mem = Function.update z₁.mem a ⟨hash, key, value, expiresAtMsec⟩ ∧
        z₃.lru = dropExisting existing z₁.lru ∧ z₃.tree.inorder.Sublist z₁.tree.inorder ∧
        z' = Shm.link rb a z₃)) := by
  unfold Shm.reallocate at hr
  split at hr
  · rename_i z₂ hn
    simp only [Prod.mk.injEq] at hr
    obtain ⟨rfl, rfl⟩ := hr
    obtain ⟨n, hle, z₁, hev, hw₁, hend, rfl⟩ := allocNode_spec hw hn
    exact ⟨n, _, hev, Or.inl ⟨rfl, rfl, hw₁, hle, hend⟩⟩
  · rename_i a z₂ hn
    obtain ⟨n, hle, z₁, hev, hlt, hbase, hlru, hw₁, rfl⟩ := allocNode_spec hw hn
    simp only [Function.update_self, Function.update_idem, Prod.mk.injEq] at hr
    obtain ⟨rfl, hz'⟩ := hr
    refine ⟨n, z₁, hev, Or.inr ⟨rfl, hlt, a, ?_⟩⟩
    -- the zone with the new contents in the held chunk
    have hw₂ := hw₁.withMem (Function.update z₁.mem a ⟨hash, key, value, expiresAtMsec⟩)
    cases existing with
    | none => exact ⟨_, hbase, hlru, hw₂, rfl, rfl, List.Sublist.refl _, hz'.symm⟩
    | some e =>
      have he : e ∈ z₁.lru := by
        rw [hev.lru]
        exact mem_evictMany_of_spare (hex e rfl) (by simp [spared])
      have hsub : (rb.delete z₁.tree e).inorder.Sublist z₁.tree.inorder := by
        rw [rb.inorder_delete _ _ (hw₁.mem_inorder.mpr he)]
        exact List.erase_sublist
      exact ⟨_, hbase, hlru, hw₂.deleteLocked he, rfl, rfl, hsub, hz'.symm⟩

theorem mem_of_mem_dropExisting {existing : Option Addr} {l : List Addr} {b : Addr}
    (h : b ∈ dropExisting existing l) : b ∈ l := by
  cases existing with
  | none => exact h
  | some e => exact List.mem_of_mem_erase h

theorem Evicted.mem_lru {skip : Option Addr} {n : Nat} (hev : Evicted skip n z z') {b : Addr}
    (hb : b ∈ z'.lru) : b ∈ z.lru := by
  rw [hev.lru] at hb
  exact (evictMany_sublist _ n _).subset hb

/-- `reallocate` on the live entry of the key, or on none when no entry of the key is linked. -/
theorem Inv.reallocate (h : Inv crc32 base z) {expiresAtMsec : UInt64} {existing : Option Addr}
    {rc : Int}
    (hex : Existing key z existing)
    (halike : ∀ b ∈ z.tree.inorder, OrdersAlike crc32 key (z.mem b).key)
    (hr : reallocate rb key value expiresAtMsec (crc32 key) existing z = (rc, z')) :
    Inv crc32 base z' ∧
      ∃ n z₁, Reallocated crc32 key value expiresAtMsec existing n z z₁ rc z' := by
  have hlinked : ∀ e ∈ existing, e ∈ z.lru := by
    intro e he
    obtain rfl := Option.mem_def.mp he
    exact hex.1
  obtain ⟨n, z₁, hev, ⟨rfl, rfl, hw₁, hle, hend⟩ |
    ⟨rfl, hlt, a, z₃, hbase, hlru, hw₃, hmem, hlru₃, hsub, rfl⟩⟩ := reallocate_cases h.wf hlinked hr
  · exact ⟨hev.inv h hw₁, n, _, hev, Or.inl ⟨rfl, rfl, hle, hend⟩⟩
  · have hma : z₃.mem a = ⟨crc32 key, key, value, expiresAtMsec⟩ := by
      rw [hmem, Function.update_self]
    have hin : ∀ b ∈ z₃.lru, b ∈ z₁.lru := fun b hb => mem_of_mem_dropExisting (hlru₃ ▸ hb)
    have hmb : ∀ b ∈ z₃.lru, z₃.mem b = z.mem b := by
      intro b hb
      have hne : b ≠ a := fun e => hlru (e ▸ hin b hb)
      rw [hmem, Function.update_of_ne hne, hev.mem]
    have hkeyed₃ : Keyed crc32 z₃ := by
      refine h.keyed.mono (hsub.trans hev.inorder) fun b hb => ?_
      rw [hmb b (hw₃.mem_inorder.mp hb)]
      exact ⟨rfl, rfl⟩
    -- the entry being replaced is gone, so the key is linked nowhere
    have hnew : ¬ Linked key z₃ := by
      rintro ⟨b, hb, hk⟩
      have hb₃ : b ∈ z₃.lru := hw₃.mem_inorder.mp hb
      have hbz : b ∈ z.lru := hev.mem_lru (hin b hb₃)
      rw [hmb b hb₃] at hk
      cases existing with
      | none => exact hex (h.linked_iff.mpr ⟨b, hbz, hk⟩)
      | some e =>
        have hbe : b = e := h.keyed.key_inj (h.wf.mem_inorder.mpr hbz)
          (h.wf.mem_inorder.mpr hex.1) (hk.trans hex.2.symm)
        have hnodup : z₁.lru.Nodup := by
          rw [hev.lru]
          exact h.wf.nodup.sublist (evictMany_sublist _ n _)
        have hberase : b ∈ dropExisting (some e) z₁.lru := hlru₃ ▸ hb₃
        exact (hnodup.mem_erase_iff.mp hberase).1 hbe
    have hfresh : a ∉ z₃.lru := fun hb => hlru (hin a hb)
    have hkeyed : Keyed crc32 (Shm.link rb a z₃) := by
      refine hkeyed₃.link (by rw [hma]) (by rw [hma]; exact hnew) fun b hb => ?_
      have hb₃ := hw₃.mem_inorder.mp hb
      rw [hma, hmb b hb₃]
      exact halike b (h.wf.mem_inorder.mpr (hev.mem_lru (hin b hb₃)))
    refine ⟨⟨hw₃.link hbase hfresh, hkeyed⟩, n, z₁, hev, Or.inr ⟨rfl, hlt, a, hlru, ?_, hmem⟩⟩
    show a :: z₃.lru = _
    rw [hlru₃]

/-- What `set_locked` does, after the lookup gave `r` in the zone `z₀`. -/
def SetOutcome (crc32 : Bytes → UInt32) (key value : Bytes) (expiresAtMsec : UInt64)
    (requireExists requireMissing : Bool) (r : Option Addr) (z₀ : Zone S) (rc : Int) (z' : Zone S) :
    Prop :=
  match r with
  | none =>
    if requireExists then rc = wasmNotFound ∧ z' = z₀
    else ∃ n z₁, Reallocated crc32 key value expiresAtMsec none n z₀ z₁ rc z'
  | some a =>
    if requireMissing then rc = wasmNotFound ∧ z' = z₀
    else if (z₀.mem a).value.length = value.length then
      rc = wasmOk ∧ z' = Shm.overwrite value expiresAtMsec a z₀
    else ∃ n z₁, Reallocated crc32 key value expiresAtMsec (some a) n z₀ z₁ rc z'

/-- **What `set_locked` does.** A key that may be inserted has to order alike with the linked ones;
a key that is only replaced is one of them. -/
theorem Inv.setLocked (h : Inv crc32 base z) {nowMsec expiresAtMsec : UInt64}
    {requireExists requireMissing : Bool} {rc : Int}
    (halike : requireExists = false → ∀ b ∈ z.tree.inorder, OrdersAlike crc32 key (z.mem b).key)
    (hr : setLocked rb nowMsec key value expiresAtMsec (crc32 key) requireExists requireMissing z =
      (rc, z')) :
    Inv crc32 base z' ∧ ∃ r z₀, Shm.lookupLive rb nowMsec key (crc32 key) z = (r, z₀) ∧
      SetOutcome crc32 key value expiresAtMsec requireExists requireMissing r z₀ rc z' := by
  unfold Shm.setLocked at hr
  split at hr
  · rename_i z₀ hl
    obtain ⟨h₀, hnew, hz₀⟩ := h.lookupLive hl
    unfold SetOutcome
    split at hr
    · rename_i hreq
      simp only [Prod.mk.injEq] at hr
      obtain ⟨rfl, rfl⟩ := hr
      exact ⟨h₀, none, z₀, hl, by simp [hreq]⟩
    · rename_i hreq
      have halike₀ : ∀ b ∈ z₀.tree.inorder, OrdersAlike crc32 key (z₀.mem b).key := by
        intro b hb
        rcases hz₀ with rfl | ⟨a, ha, -, -, rfl⟩
        · exact halike (Bool.eq_false_iff.mpr hreq) b hb
        · refine halike (Bool.eq_false_iff.mpr hreq) b (h.wf.mem_inorder.mpr ?_)
          exact List.mem_of_mem_erase (h₀.wf.mem_inorder.mp hb)
      have hex : Existing key z₀ none := hnew
      obtain ⟨h', n, z₁, hra⟩ := h₀.reallocate hex halike₀ hr
      exact ⟨h', none, z₀, hl, by simp only [if_neg hreq]; exact ⟨n, z₁, hra⟩⟩
  · rename_i a z₀ hl
    obtain ⟨-, rfl, ha, hk, -⟩ := h.lookupLive hl
    unfold SetOutcome
    split at hr
    · rename_i hreq
      simp only [Prod.mk.injEq] at hr
      obtain ⟨rfl, rfl⟩ := hr
      exact ⟨h, some a, z₀, hl, by simp [hreq]⟩
    · rename_i hreq
      split at hr
      · rename_i hlen
        simp only [Prod.mk.injEq] at hr
        obtain ⟨rfl, rfl⟩ := hr
        exact ⟨h.overwrite ha _, some a, z₀, hl, by simp [hreq, hlen]⟩
      · rename_i hlen
        have halike₀ : ∀ b ∈ z₀.tree.inorder, OrdersAlike crc32 key (z₀.mem b).key := by
          intro b hb
          have := h.keyed.alike a (h.wf.mem_inorder.mpr ha) b hb
          rwa [hk] at this
        have hex : Existing key z₀ (some a) := ⟨ha, hk⟩
        obtain ⟨h', n, z₁, hra⟩ := h.reallocate hex halike₀ hr
        exact ⟨h', some a, z₀, hl, by simp only [if_neg hreq, if_neg hlen]; exact ⟨n, z₁, hra⟩⟩

end Steps

/-! ## Runs -/

/-- The key an operation may link, if it finds no entry of it. -/
def Op.inserts : Op → Option Bytes
  | .set key _ | .setEx key _ _ | .add key _ => some key
  | .get .. | .exists _ | .incr .. | .replace .. | .delete _ => none

/-- The condition on a call: a key it may insert orders alike with every linked key. -/
def InsertOk (crc32 : Bytes → UInt32) (z : Zone S) (c : Call) : Prop :=
  ∀ key ∈ c.2.inserts, ∀ a ∈ z.tree.inorder, OrdersAlike crc32 key (z.mem a).key

instance (crc32 : Bytes → UInt32) (z : Zone S) (c : Call) : Decidable (InsertOk crc32 z c) :=
  match h : c.2.inserts with
  | none => .isTrue fun _ hk => absurd hk (by simp [h])
  | some key =>
    decidable_of_iff (∀ a ∈ z.tree.inorder, OrdersAlike crc32 key (z.mem a).key)
      (by simp [InsertOk, h])

section Exec

variable {base : Set Addr} {z : Zone S}

theorem Inv.shmWrite (h : Inv crc32 base z) {nowMsec expiresAtMsec : UInt64} {key value : Bytes}
    {requireExists requireMissing : Bool}
    (halike : requireExists = false → ∀ b ∈ z.tree.inorder, OrdersAlike crc32 key (z.mem b).key) :
    Inv crc32 base
      (shmWrite rb crc32 nowMsec key value expiresAtMsec requireExists requireMissing z).2 := by
  unfold Shm.shmWrite
  split
  · exact h
  · exact (h.setLocked halike (Prod.eta _)).1

/-- **Every operation keeps the invariant**, inserting only keys that order alike. -/
theorem exec_inv (h : Inv crc32 base z) {c : Call} (hok : InsertOk crc32 z c) :
    Inv crc32 base (exec rb crc32 c.1 c.2 z).2 := by
  obtain ⟨nowMsec, op⟩ := c
  cases op with
  | get key bufLen =>
    simp only [exec, shmGet]
    split
    · exact h
    · split
      · rename_i z' hl
        exact (h.lookupLive hl).1
      · rename_i a z' hl
        obtain ⟨-, rfl, ha, -, -⟩ := h.lookupLive hl
        exact h.touchLocked ha
  | «exists» key =>
    simp only [exec, shmExists]
    split
    · exact h
    · split
      · rename_i z' hl
        exact (h.lookupLive hl).1
      · rename_i a z' hl
        obtain ⟨-, rfl, ha, -, -⟩ := h.lookupLive hl
        exact h.touchLocked ha
  | incr key delta =>
    simp only [exec, shmIncr]
    split
    · exact h
    · split
      · exact h
      · split
        · rename_i z' hl
          exact (h.lookupLive hl).1
        · rename_i a z' hl
          obtain ⟨h', -⟩ := h.lookupLive hl
          split
          · exact h'
          · exact (h'.setLocked (fun hf => absurd hf (by simp)) (Prod.eta _)).1
  | set key value => exact h.shmWrite fun _ => hok key rfl
  | setEx key value ttlMsec => exact h.shmWrite fun _ => hok key rfl
  | add key value => exact h.shmWrite fun _ => hok key rfl
  | replace key value => exact h.shmWrite fun hf => absurd hf (by simp)
  | delete key =>
    simp only [exec, shmDelete]
    split
    · exact h
    · split
      · exact h
      · rename_i a hl
        exact h.deleteLocked (h.lookup_iff.mp hl).1

end Exec

/-- The zone after a call. -/
def callStep (rb : Rbtree) (crc32 : Bytes → UInt32) (z : Zone S) (c : Call) : Zone S :=
  (exec rb crc32 c.1 c.2 z).2

theorem inv_of_run {mem : Addr → ShmNode} {pool : S.State} {calls : List Call}
    (h : Meets (callStep rb crc32) (InsertOk crc32) (emptyZone mem pool) calls) :
    Inv crc32 (S.allocated pool) (runCalls rb crc32 (emptyZone mem pool) calls) :=
  h.invariant ⟨.emptyZone mem pool, .emptyZone mem pool⟩ fun _ _ hi hok => exec_inv hi hok

/-- The lookup of every linked key returns an entry holding it, and no key is linked twice. -/
structure LookupExact (crc32 : Bytes → UInt32) (z : Zone S) : Prop where
  found : ∀ key, Linked key z →
    ∃ a ∈ z.tree.inorder, lookup key (crc32 key) z = some a ∧ (z.mem a).key = key
  once : z.tree.inorder.Pairwise fun a b => (z.mem a).key ≠ (z.mem b).key

theorem Inv.lookupExact {base : Set Addr} {z : Zone S} (h : Inv crc32 base z) :
    LookupExact crc32 z where
  found := fun key hl => by
    obtain ⟨a, ha⟩ := h.keyed.exists_lookup hl
    obtain ⟨hlru, hk⟩ := h.lookup_iff.mp ha
    exact ⟨a, h.wf.mem_inorder.mpr hlru, ha, hk⟩
  once := by
    have hn : z.tree.inorder.Nodup := h.wf.perm.nodup_iff.mpr h.wf.nodup
    refine hn.imp_of_mem fun {a b} ha hb hab hk => hab (h.keyed.key_inj ha hb hk)

/-- **The lookup is exact along every run whose insertions order alike with the linked keys**: for
every red-black tree, allocator and hash function, whatever the calls and clocks. -/
theorem lookup_exact_of_ordersAlike (S : SlabPool) (rb : Rbtree) (crc32 : Bytes → UInt32)
    (mem : Addr → ShmNode) (pool : S.State) (calls : List Call)
    (h : Meets (callStep rb crc32) (InsertOk crc32) (emptyZone mem pool) calls) :
    LookupExact crc32 (runCalls rb crc32 (emptyZone mem pool) calls) :=
  (inv_of_run h).lookupExact

theorem lookup_exact_of_ordersAlike_updates :
    let calls : List Call := [(5, .set [107] [49]), (5, .setEx [107, 107] [50] 10),
      (6, .incr [107] 4), (7, .set [107, 107] [51, 52]), (8, .delete [107])]
    LookupExact crc32Short (runCalls .unbalanced crc32Short
      (emptyZone (S := .ofCapacity 2) (fun _ => ⟨0, [], [], 0⟩) []) calls) :=
  lookup_exact_of_ordersAlike (.ofCapacity 2) .unbalanced crc32Short (fun _ => ⟨0, [], [], 0⟩) []
    [(5, .set [107] [49]), (5, .setEx [107, 107] [50] 10), (6, .incr [107] 4),
      (7, .set [107, 107] [51, 52]), (8, .delete [107])] (by decide)

/-- Two keys of different lengths with the same CRC-32, the longer one lexicographically smaller.
After both are set the second is linked and the lookup misses it, and setting it once more links
it a second time. -/
theorem lookup_misses_linked_key :
    let b : Bytes := [98]
    let aPrefixed : Bytes := [97, 61, 103, 102, 214]
    let z₀ : Zone (SlabPool.ofCapacity 8) := emptyZone (fun _ => ⟨0, [], [], 0⟩) []
    let z := runCalls .unbalanced crc32Short z₀ [(0, .set b []), (0, .set aPrefixed [])]
    let z' := runCalls .unbalanced crc32Short z [(0, .set aPrefixed [])]
    crc32Short b = crc32Short aPrefixed ∧ Linked aPrefixed z ∧
      lookup aPrefixed (crc32Short aPrefixed) z = none ∧ ¬ LookupExact crc32Short z ∧
      z'.tree.inorder.map (fun a => (z'.mem a).key) = [b, aPrefixed, aPrefixed] := by
  intro b aPrefixed z₀ z z'
  have hl : Linked aPrefixed z := ⟨2, by decide, by decide⟩
  have hn : lookup aPrefixed (crc32Short aPrefixed) z = none := by decide
  refine ⟨by decide, hl, hn, fun h => ?_, by decide⟩
  obtain ⟨a, -, ha, -⟩ := h.found aPrefixed hl
  rw [hn] at ha
  exact absurd ha (by simp)

end NgxWasm.Shm
