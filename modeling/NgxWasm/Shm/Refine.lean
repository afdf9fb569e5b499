import NgxWasm.Shm.Cache
import NgxWasm.Shm.Steps

/-!
# The zone refines the list

`abs z` reads the queue through the chunks: the entries, most recently used first. The tree, the
hashes, the addresses and the pool do not show in it. As long as the invariant holds, the lookup in
the tree is `Cache.find` on the list, and every change the zone makes is one on the list:

* unlinking, touching and rewriting an entry (`abs_deleteLocked`, `abs_touchLocked`,
  `abs_overwrite`), the lazy expiry (`abs_lookupLive`), evictions (`Evicted.abs`) and the whole
  reallocating path (`Reallocated.write`);
* `exec_next`: one operation is one step of the list, with the same answer;
* `zone_simulates_cache`: every run is a run of the list.

A call has to be `CallOk`: no other key in use has the CRC-32 of its key, and the clock and the time
to live are below 2^63 milliseconds. The list knows no hashes, so two keys that collide are outside
of what it can describe; and it adds a time to live to the clock as numbers, where the source adds
64-bit words. What becomes of an entry at the end of the clock is in `Shm.Expiry`.
-/

namespace NgxWasm.Shm

open Lib

variable {S : SlabPool} {rb : Rbtree} {crc32 : Bytes → UInt32}

/-- An entry as a reader sees it. -/
def ShmNode.entry (n : ShmNode) : Entry :=
  ⟨n.key, n.value, if n.expiresAtMsec = 0 then none else some n.expiresAtMsec.toNat⟩

/-- The list a zone stands for. -/
def abs (z : Zone S) : Cache := z.lru.map fun a => (z.mem a).entry

@[simp] theorem ShmNode.entry_key (n : ShmNode) : n.entry.key = n.key := rfl

@[simp] theorem ShmNode.entry_value (n : ShmNode) : n.entry.value = n.value := rfl

theorem isExpired_eq (n : ShmNode) (nowMsec : UInt64) :
    isExpired n nowMsec = n.entry.expired nowMsec.toNat := by
  unfold isExpired ShmNode.entry Entry.expired
  by_cases h : n.expiresAtMsec = 0
  · simp only [h, if_true]
  · simp only [h, if_false]
    rfl

section View

variable {base : Set Addr} {z z' : Zone S} {key value : Bytes} {a : Addr}

theorem Inv.key_eq_iff (h : Inv crc32 base z) {b : Addr} (ha : a ∈ z.lru) (hb : b ∈ z.lru) :
    (z.mem b).key = (z.mem a).key ↔ b = a := by
  constructor
  · exact h.keyed.key_inj (h.wf.mem_inorder.mpr hb) (h.wf.mem_inorder.mpr ha)
  · rintro rfl
    rfl

/-- The entry of a linked key. -/
theorem Inv.find_abs (h : Inv crc32 base z) (ha : a ∈ z.lru) (hk : (z.mem a).key = key) :
    Cache.find key (abs z) = some (z.mem a).entry := by
  unfold Cache.find abs
  rw [List.find?_map]
  have hf : z.lru.find? ((fun e : Entry => e.key == key) ∘ fun b => (z.mem b).entry) = some a := by
    cases hr : z.lru.find? ((fun e : Entry => e.key == key) ∘ fun b => (z.mem b).entry) with
    | none =>
      have := List.find?_eq_none.mp hr a ha
      exact absurd hk (by simpa using this)
    | some b =>
      have hb := List.mem_of_find?_eq_some hr
      have hkb : (z.mem b).key = key := by simpa using List.find?_some hr
      rw [(h.key_eq_iff ha hb).mp (hkb.trans hk.symm)]
  rw [hf, Option.map_some]

theorem Inv.find_abs_none (h : Inv crc32 base z) (hn : ¬ Linked key z) :
    Cache.find key (abs z) = none := by
  unfold Cache.find abs
  rw [List.find?_eq_none]
  intro e he hk
  obtain ⟨b, hb, rfl⟩ := List.mem_map.mp he
  exact hn (h.linked_iff.mpr ⟨b, hb, by simpa using hk⟩)

/-! ## The changes of a zone, on the list -/

/-- A queue without a chunk is the list without its key. -/
theorem Inv.map_erase (h : Inv crc32 base z) {l : List Addr} (hl : l.Sublist z.lru)
    (ha : a ∈ z.lru) : ((l.erase a).map fun b => (z.mem b).entry) =
      Cache.without (z.mem a).key (l.map fun b => (z.mem b).entry) := by
  unfold Cache.without
  rw [List.filter_map, (h.wf.nodup.sublist hl).erase_eq_filter]
  congr 1
  refine List.filter_congr fun b hb => ?_
  rw [Function.comp_apply, ShmNode.entry_key, Bool.eq_iff_iff, bne_iff_ne, bne_iff_ne, ne_eq, ne_eq,
    h.key_eq_iff ha (hl.subset hb)]

/-- The same for the entry that a write replaces, if any. -/
theorem Inv.map_dropExisting (h : Inv crc32 base z) {l : List Addr} (hl : l.Sublist z.lru)
    {existing : Option Addr} (hex : Existing key z existing) :
    ((dropExisting existing l).map fun b => (z.mem b).entry) =
      Cache.without key (l.map fun b => (z.mem b).entry) := by
  cases existing with
  | some e =>
    obtain ⟨he, rfl⟩ := hex
    exact h.map_erase hl he
  | none =>
    symm
    refine List.filter_eq_self.mpr fun x hx => ?_
    obtain ⟨b, hb, rfl⟩ := List.mem_map.mp hx
    have hk : (z.mem b).key ≠ key := fun hk => hex (h.linked_iff.mpr ⟨b, hl.subset hb, hk⟩)
    rw [bne_iff_ne]
    exact hk

theorem Inv.abs_deleteLocked (h : Inv crc32 base z) (ha : a ∈ z.lru) :
    abs (Shm.deleteLocked rb a z) = Cache.without (z.mem a).key (abs z) :=
  h.map_erase (List.Sublist.refl _) ha

theorem Inv.abs_touchLocked (h : Inv crc32 base z) (ha : a ∈ z.lru) :
    abs (Shm.touchLocked a z) = (z.mem a).entry :: Cache.without (z.mem a).key (abs z) :=
  congrArg (List.cons _) (h.map_erase (List.Sublist.refl _) ha)

/-- The contents of chunks that are not linked do not show. -/
theorem abs_update {l : List Addr} {mem : Addr → ShmNode} {n : ShmNode} (ha : a ∉ l) :
    (l.map fun b => (Function.update mem a n b).entry) = l.map fun b => (mem b).entry := by
  refine List.map_congr_left fun b hb => ?_
  have hne : b ≠ a := fun e => ha (e ▸ hb)
  rw [Function.update_of_ne hne]

theorem Inv.abs_overwrite (h : Inv crc32 base z) (ha : a ∈ z.lru) (expiresAtMsec : UInt64) :
    abs (Shm.overwrite value expiresAtMsec a z) =
      (ShmNode.entry { z.mem a with value := value, expiresAtMsec := expiresAtMsec }) ::
        Cache.without (z.mem a).key (abs z) := by
  have hna : a ∉ z.lru.erase a := fun hm => (h.wf.nodup.mem_erase_iff.mp hm).1 rfl
  unfold abs
  rw [← h.map_erase (List.Sublist.refl _) ha, ← abs_update hna]
  exact congrArg (fun n : ShmNode => n.entry :: _) (Function.update_self a _ z.mem)

/-- Where the key is not linked there is nothing to drop. -/
theorem Inv.purge_of_not_linked (h : Inv crc32 base z) (hn : ¬ Linked key z) (nowMsec : Nat) :
    Cache.purge nowMsec key (abs z) = abs z := by
  unfold Cache.purge
  refine List.filter_eq_self.mpr fun e he => ?_
  obtain ⟨b, hb, rfl⟩ := List.mem_map.mp he
  have hk : (z.mem b).key ≠ key := fun hk => hn (h.linked_iff.mpr ⟨b, hb, hk⟩)
  simp [hk]

/-- Dropping the entry of a linked key, or not, as it has expired. -/
theorem Inv.purge_of_linked (h : Inv crc32 base z) (ha : a ∈ z.lru) (nowMsec : UInt64) :
    Cache.purge nowMsec.toNat (z.mem a).key (abs z) =
      if isExpired (z.mem a) nowMsec then Cache.without (z.mem a).key (abs z) else abs z := by
  have hfilter : ∀ e ∈ abs z, e.key = (z.mem a).key →
      e.expired nowMsec.toNat = isExpired (z.mem a) nowMsec := by
    intro e he hk
    obtain ⟨b, hb, rfl⟩ := List.mem_map.mp he
    rw [(h.key_eq_iff ha hb).mp hk, isExpired_eq]
  unfold Cache.purge
  by_cases hexp : isExpired (z.mem a) nowMsec = true
  · rw [if_pos hexp]
    refine List.filter_congr fun e he => ?_
    by_cases hk : e.key = (z.mem a).key
    · simp [hk, hfilter e he hk, hexp]
    · rw [beq_eq_false_iff_ne.mpr hk, Bool.false_and, bne_iff_ne.mpr hk, Bool.not_false]
  · rw [if_neg hexp]
    refine List.filter_eq_self.mpr fun e he => ?_
    by_cases hk : e.key = (z.mem a).key
    · simp [hfilter e he hk, hexp]
    · simp [hk]

/-- **Lookup and lazy expiry**: the zone is left with the list purged, and the lookup found what
the purged list holds. -/
theorem Inv.abs_lookupLive (h : Inv crc32 base z) {nowMsec : UInt64} {r : Option Addr}
    (hr : Shm.lookupLive rb nowMsec key (crc32 key) z = (r, z')) :
    abs z' = Cache.purge nowMsec.toNat key (abs z) ∧
      Cache.find key (abs z') = r.map fun a => (z'.mem a).entry := by
  obtain ⟨h', hcase⟩ := h.lookupLive hr
  cases r with
  | none =>
    obtain ⟨hn, rfl | ⟨a, ha, rfl, hexp, rfl⟩⟩ := hcase
    · exact ⟨(h.purge_of_not_linked hn _).symm, h.find_abs_none hn⟩
    · refine ⟨?_, h'.find_abs_none hn⟩
      rw [h.abs_deleteLocked ha, h.purge_of_linked ha, if_pos hexp]
  | some a =>
    obtain ⟨rfl, ha, rfl, hexp⟩ := hcase
    refine ⟨?_, h.find_abs ha rfl⟩
    rw [h.purge_of_linked ha, hexp]
    rfl

/-- What `set_locked` spares is the entry of the key. -/
theorem Inv.spared_eq (h : Inv crc32 base z) {existing : Option Addr} (hex : Existing key z existing)
    {b : Addr} (hb : b ∈ z.lru) : ((z.mem b).key == key) = spared existing b := by
  unfold spared
  cases existing with
  | none =>
    have hk : (z.mem b).key ≠ key := fun hk => hex (h.linked_iff.mpr ⟨b, hb, hk⟩)
    simp [hk]
  | some e =>
    obtain ⟨he, rfl⟩ := hex
    rw [Bool.eq_iff_iff, beq_iff_eq, beq_iff_eq, h.key_eq_iff he hb, Option.some_inj]

theorem Evicted.abs (h : Inv crc32 base z) {existing : Option Addr} {n : Nat}
    (hex : Existing key z existing) (hev : Evicted existing n z z') :
    abs z' = Cache.evicted key n (abs z) := by
  unfold Shm.abs Cache.evicted
  rw [hev.lru, hev.mem]
  refine (evictMany_map fun b hb => ?_).symm
  exact h.spared_eq hex hb

/-- **The reallocating path of `set_locked` is a write of the list.** -/
theorem Reallocated.write (h : Inv crc32 base z) {existing : Option Addr} {n : Nat}
    {z₁ : Zone S} {rc : Int} {expiresAtMsec : UInt64} (hex : Existing key z existing)
    (hlen : ∀ e ∈ existing, (z.mem e).value.length ≠ value.length)
    (hr : Reallocated crc32 key value expiresAtMsec existing n z z₁ rc z') :
    Cache.Write (ShmNode.entry ⟨crc32 key, key, value, expiresAtMsec⟩) (abs z) rc (abs z') := by
  have hold : ∀ old ∈ Cache.find key (abs z), old.value.length ≠ value.length := by
    intro old hold
    cases existing with
    | none =>
      rw [h.find_abs_none hex] at hold
      exact absurd hold (by simp)
    | some e =>
      rw [h.find_abs hex.1 hex.2, Option.mem_some_iff] at hold
      exact hold ▸ hlen e rfl
  have hsub : z₁.lru.Sublist z.lru := hr.evicted.lru ▸ evictMany_sublist _ n _
  have habs : (z₁.lru.map fun b => (z.mem b).entry) = Cache.evicted key n (abs z) := by
    rw [← hr.evicted.abs h hex, abs, hr.evicted.mem]
  rcases hr.result with ⟨rfl, rfl, hn, hend⟩ | ⟨rfl, hn, a, ha, hlru, hmem⟩
  · rw [hr.evicted.abs h hex]
    refine .failed hold hn (hend.imp id fun hall x hx => ?_)
    rw [ShmNode.entry_key, ← habs] at hx
    obtain ⟨b, hb, rfl⟩ := List.mem_map.mp hx
    have := h.spared_eq hex (hsub.subset hb)
    rw [List.all_eq_true.mp hall b hb, beq_iff_eq] at this
    exact this
  · have hna : a ∉ dropExisting existing z₁.lru := by
      cases existing with
      | none => exact ha
      | some e => exact fun hm => ha (List.mem_of_mem_erase hm)
    have hz' : abs z' = (ShmNode.entry ⟨crc32 key, key, value, expiresAtMsec⟩) ::
        Cache.without key (Cache.evicted key n (abs z)) := by
      unfold abs
      rw [hlru, hmem, List.map_cons, Function.update_self, abs_update hna, hr.evicted.mem,
        h.map_dropExisting hsub hex, habs]
      rfl
    rw [hz']
    exact .stored hold hn

/-- **`set_locked` on the list**, after the lazy expiry. -/
theorem Inv.abs_setLocked (h : Inv crc32 base z) {nowMsec expiresAtMsec : UInt64}
    {requireExists requireMissing : Bool} {rc : Int}
    (halike : requireExists = false → ∀ b ∈ z.tree.inorder, OrdersAlike crc32 key (z.mem b).key)
    (hr : Shm.setLocked rb nowMsec key value expiresAtMsec (crc32 key) requireExists requireMissing z
      = (rc, z')) :
    let live := Cache.purge nowMsec.toNat key (abs z)
    if Cache.Refused requireExists requireMissing (Cache.find key live) then
      rc = wasmNotFound ∧ abs z' = live
    else Cache.Write (ShmNode.entry ⟨crc32 key, key, value, expiresAtMsec⟩) live rc (abs z') := by
  obtain ⟨-, r, z₀, hl, hout⟩ := h.setLocked halike hr
  obtain ⟨h₀, hcase⟩ := h.lookupLive hl
  obtain ⟨habs, hfind⟩ := h.abs_lookupLive hl
  intro live
  rw [show live = abs z₀ from habs.symm, hfind]
  unfold SetOutcome at hout
  cases r with
  | none =>
    have hex : Existing key z₀ none := hcase.1
    cases requireExists with
    | true =>
      obtain ⟨rfl, rfl⟩ : rc = wasmNotFound ∧ z' = z₀ := hout
      simp [Cache.Refused]
    | false =>
      obtain ⟨n, z₁, hra⟩ := hout
      simpa [Cache.Refused] using hra.write h₀ hex (by simp)
  | some a =>
    obtain ⟨rfl, ha, hk, -⟩ := hcase
    have hex : Existing key z₀ (some a) := ⟨ha, hk⟩
    cases requireMissing with
    | true =>
      obtain ⟨rfl, rfl⟩ : rc = wasmNotFound ∧ z' = z₀ := hout
      simp [Cache.Refused]
    | false =>
      simp only [Bool.false_eq_true, if_false] at hout
      rw [if_neg (by simp [Cache.Refused])]
      split at hout
      · rename_i hlen
        obtain ⟨rfl, rfl⟩ := hout
        rw [h.abs_overwrite ha]
        have hn : ShmNode.entry ⟨crc32 key, key, value, expiresAtMsec⟩ =
            ShmNode.entry { z₀.mem a with value := value, expiresAtMsec := expiresAtMsec } := by
          unfold ShmNode.entry
          rw [hk]
        rw [hn]
        exact .inPlace (h.find_abs ha rfl) hlen
      · rename_i hlen
        obtain ⟨n, z₁, hra⟩ := hout
        exact hra.write h hex fun e he => by
          obtain rfl := Option.some.inj he
          exact hlen

/-! ## The operations, on the list -/

theorem keyValid_not {key : Bytes} : (!keyValid key) = true ↔ keyValid key = false := by
  rw [Bool.not_eq_true']

/-- Reading, on the list. -/
theorem Inv.abs_read (h : Inv crc32 base z) {nowMsec : UInt64} {r : Option Addr}
    (hvalid : keyValid key = true) (hr : Shm.lookupLive rb nowMsec key (crc32 key) z = (r, z'))
    (found : Entry → Reply) (missing : Int) :
    match r with
    | none => Cache.Reads nowMsec.toNat key found missing (abs z) { rc := missing } (abs z')
    | some a => Cache.Reads nowMsec.toNat key found missing (abs z) (found (z.mem a).entry)
        (abs (Shm.touchLocked a z')) := by
  obtain ⟨habs, hfind⟩ := h.abs_lookupLive hr
  obtain ⟨-, hcase⟩ := h.lookupLive hr
  have hv : ¬ keyValid key = false := by rw [hvalid]; exact Bool.true_eq_false ▸ id
  unfold Cache.Reads
  rw [← habs]
  cases r with
  | none => simp only [if_neg hv, hfind, Option.map_none, and_self]
  | some a =>
    obtain ⟨rfl, ha, rfl, -⟩ := hcase
    simp only [if_neg hv, hfind, Option.map_some, true_and]
    exact h.abs_touchLocked ha

/-- Storing, on the list. -/
theorem Inv.abs_shmWrite (h : Inv crc32 base z) {nowMsec expiresAtMsec : UInt64}
    {requireExists requireMissing : Bool}
    (halike : requireExists = false → ∀ b ∈ z.tree.inorder, OrdersAlike crc32 key (z.mem b).key) :
    Cache.Stores nowMsec.toNat (ShmNode.entry ⟨crc32 key, key, value, expiresAtMsec⟩) requireExists
      requireMissing (abs z)
      (Shm.shmWrite rb crc32 nowMsec key value expiresAtMsec requireExists requireMissing z).1
      (abs (Shm.shmWrite rb crc32 nowMsec key value expiresAtMsec requireExists requireMissing z).2)
    := by
  unfold Cache.Stores Shm.shmWrite
  simp only [Bool.or_eq_true, decide_eq_true_eq, keyValid_not, ShmNode.entry_key,
    ShmNode.entry_value]
  split
  · exact ⟨rfl, rfl⟩
  · generalize hs : Shm.setLocked rb nowMsec key value expiresAtMsec (crc32 key) requireExists
      requireMissing z = res
    obtain ⟨rc, z₁⟩ := res
    have hset := h.abs_setLocked halike hs
    by_cases hc : Cache.Refused requireExists requireMissing
        (Cache.find key (Cache.purge nowMsec.toNat key (abs z)))
    · simp only [if_pos hc] at hset ⊢
      rw [hset.1, hset.2]
      exact ⟨rfl, rfl⟩
    · simp only [if_neg hc] at hset ⊢
      exact ⟨rc, hset, rfl⟩

/-- Incrementing, on the list. -/
theorem Inv.abs_shmIncr (h : Inv crc32 base z) {nowMsec : UInt64} {delta : Int} :
    Cache.Increments nowMsec.toNat key delta (abs z) (shmIncr rb crc32 nowMsec key delta z).1
      (abs (shmIncr rb crc32 nowMsec key delta z).2) := by
  unfold Cache.Increments shmIncr
  by_cases hv : keyValid key = false
  · simp [hv]
  by_cases hd : delta < int32Min ∨ delta > int32Max
  · simp [hv, hd]
  have hcond : ¬ (keyValid key = false ∨ delta < int32Min ∨ delta > int32Max) := by tauto
  rw [if_neg hcond, if_neg (by simpa using hv), if_neg (by simpa using hd)]
  generalize hl : Shm.lookupLive rb nowMsec key (crc32 key) z = res
  obtain ⟨r, z₀⟩ := res
  obtain ⟨habs, hfind⟩ := h.abs_lookupLive hl
  obtain ⟨-, hcase⟩ := h.lookupLive hl
  cases r with
  | none => simp only [← habs, hfind, Option.map_none, and_self]
  | some a =>
    obtain ⟨rfl, ha, rfl, -⟩ := hcase
    simp only [← habs, hfind, Option.map_some, incrNext, parseI32_eq, ShmNode.entry_value]
    cases readI32 (z₀.mem a).value with
    | none => simp
    | some current =>
      by_cases hover : current + delta < int32Min ∨ current + delta > int32Max
      · simp [hover]
      · have hlo : int32Min ≤ current + delta := by omega
        have hhi : current + delta ≤ int32Max := by omega
        simp only [hover, Bool.or_eq_true, decide_eq_true_eq, if_false, formatI32_eq hlo hhi]
        generalize hs : Shm.setLocked rb nowMsec (z₀.mem a).key (intText (current + delta))
          (z₀.mem a).expiresAtMsec (crc32 (z₀.mem a).key) true false z₀ = res
        obtain ⟨rc, z₁⟩ := res
        have hset := h.abs_setLocked (fun hf => absurd hf (by simp)) hs
        -- the entry is live, so the second lookup of `set_locked` finds it again
        simp only [← habs, hfind, Option.map_some] at hset
        rw [if_neg (by simp [Cache.Refused])] at hset
        refine ⟨rc, hset, ?_⟩
        by_cases hrc : rc = wasmOk <;> simp [hrc]

end View

/-- The time to live an operation is called with. -/
def Op.ttlMsec : Op → UInt64
  | .setEx _ _ ttlMsec => ttlMsec
  | .get .. | .exists _ | .incr .. | .set .. | .add .. | .replace .. | .delete _ => 0

/-- The conditions on a call: no other key in use has the CRC-32 of its key, the clock is below
2^63 ms, and so is the time to live (the import passes a non-negative `i32`). -/
structure CallOk (crc32 : Bytes → UInt32) (z : Zone S) (c : Call) : Prop where
  noCollision : ∀ a ∈ z.tree.inorder, crc32 c.2.key = crc32 (z.mem a).key → c.2.key = (z.mem a).key
  clock : c.1.toNat < 2 ^ 63
  ttl : c.2.ttlMsec.toNat < 2 ^ 63

instance (crc32 : Bytes → UInt32) (z : Zone S) (c : Call) : Decidable (CallOk crc32 z c) :=
  decidable_of_iff ((∀ a ∈ z.tree.inorder, crc32 c.2.key = crc32 (z.mem a).key →
      c.2.key = (z.mem a).key) ∧ c.1.toNat < 2 ^ 63 ∧ c.2.ttlMsec.toNat < 2 ^ 63)
    ⟨fun h => ⟨h.1, h.2.1, h.2.2⟩, fun h => ⟨h.1, h.2, h.3⟩⟩

theorem CallOk.insertOk {z : Zone S} {c : Call} (h : CallOk crc32 z c) : InsertOk crc32 z c := by
  intro key hkey a ha
  have hk : key = c.2.key := by
    unfold Op.inserts Op.key at *
    split at hkey <;> simp_all
  intro he
  rw [hk] at he ⊢
  rw [h.noCollision a ha he]
  constructor
  · intro hl
    exact absurd hl (lt_irrefl _)
  · intro hl
    exact absurd hl (lt_irrefl _)

theorem expiry_deadline {nowMsec ttlMsec : UInt64} (h : nowMsec.toNat < 2 ^ 63)
    (h' : ttlMsec.toNat < 2 ^ 63) :
    (if deadline nowMsec ttlMsec = 0 then none else some (deadline nowMsec ttlMsec).toNat) =
      if ttlMsec = 0 then none else some (nowMsec.toNat + ttlMsec.toNat) := by
  unfold deadline
  by_cases ht : ttlMsec = 0
  · simp [ht]
  · have hsum : (nowMsec + ttlMsec).toNat = nowMsec.toNat + ttlMsec.toNat := by
      rw [UInt64.toNat_add]
      exact Nat.mod_eq_of_lt (by omega)
    have hpos : ttlMsec.toNat ≠ 0 := fun h => ht (UInt64.toNat_inj.mp h)
    have hne : nowMsec + ttlMsec ≠ 0 := fun h => by
      rw [h] at hsum
      simp only [UInt64.toNat_zero] at hsum
      omega
    rw [if_neg ht, if_neg hne, if_neg hne, if_neg ht, hsum]

section Operations

variable {base : Set Addr} {z : Zone S} {key value : Bytes} {nowMsec : UInt64}

theorem Inv.abs_shmGet (h : Inv crc32 base z) (bufLen : Nat) :
    Cache.Reads nowMsec.toNat key
      (fun e => { rc := e.value.length, bytes := e.value.take bufLen }) wasmNotFound (abs z)
      (shmGet rb crc32 nowMsec key bufLen z).1 (abs (shmGet rb crc32 nowMsec key bufLen z).2) := by
  unfold shmGet
  by_cases hv : keyValid key = true
  · rw [if_neg (by simp [hv])]
    generalize hl : Shm.lookupLive rb nowMsec key (crc32 key) z = res
    obtain ⟨r, z₀⟩ := res
    have hr := h.abs_read hv hl (fun e => { rc := e.value.length, bytes := e.value.take bufLen })
      wasmNotFound
    cases r with
    | none => exact hr
    | some a =>
      obtain ⟨-, rfl, -⟩ := h.lookupLive hl
      exact hr
  · simp [Cache.Reads, hv]

theorem Inv.abs_shmExists (h : Inv crc32 base z) :
    Cache.Reads nowMsec.toNat key (fun _ => { rc := 1 }) 0 (abs z)
      (shmExists rb crc32 nowMsec key z).1 (abs (shmExists rb crc32 nowMsec key z).2) := by
  unfold shmExists
  by_cases hv : keyValid key = true
  · rw [if_neg (by simp [hv])]
    generalize hl : Shm.lookupLive rb nowMsec key (crc32 key) z = res
    obtain ⟨r, z₀⟩ := res
    have hr := h.abs_read hv hl (fun _ => { rc := 1 }) 0
    cases r with
    | none => exact hr
    | some a => exact hr
  · simp [Cache.Reads, hv]

theorem Inv.abs_shmSetEx (h : Inv crc32 base z) {ttlMsec : UInt64}
    (hclock : nowMsec.toNat < 2 ^ 63) (httl : ttlMsec.toNat < 2 ^ 63)
    (halike : ∀ b ∈ z.tree.inorder, OrdersAlike crc32 key (z.mem b).key) :
    Cache.Stores nowMsec.toNat
      ⟨key, value, if ttlMsec = 0 then none else some (nowMsec.toNat + ttlMsec.toNat)⟩ false false
      (abs z) (shmSetEx rb crc32 nowMsec key value ttlMsec z).1
      (abs (shmSetEx rb crc32 nowMsec key value ttlMsec z).2) := by
  rw [← expiry_deadline hclock httl]
  exact h.abs_shmWrite fun _ => halike

theorem Inv.abs_shmDelete (h : Inv crc32 base z) (hv : keyValid key = true) :
    (shmDelete rb crc32 key z).1 = { rc := wasmOk } ∧
      abs (shmDelete rb crc32 key z).2 = Cache.without key (abs z) := by
  unfold shmDelete
  rw [if_neg (by simp [hv])]
  cases hl : lookup key (crc32 key) z with
  | none =>
    have hex : Existing key z none := h.lookup_none hl
    exact ⟨rfl, h.map_dropExisting (List.Sublist.refl _) hex⟩
  | some a =>
    obtain ⟨ha, rfl⟩ := h.lookup_iff.mp hl
    exact ⟨rfl, h.abs_deleteLocked ha⟩

end Operations

/-- **One operation of the zone is one step of the list**, with the same answer. -/
theorem exec_next {base : Set Addr} {z : Zone S} (h : Inv crc32 base z) {c : Call}
    (hok : CallOk crc32 z c) :
    Cache.Next c.1.toNat c.2 (abs z) (exec rb crc32 c.1 c.2 z).1
      (abs (exec rb crc32 c.1 c.2 z).2) := by
  have hins := hok.insertOk
  obtain ⟨nowMsec, op⟩ := c
  cases op with
  | get key bufLen => exact h.abs_shmGet bufLen
  | «exists» key => exact h.abs_shmExists
  | incr key delta => exact h.abs_shmIncr
  | set key value => exact h.abs_shmWrite fun _ => hins key rfl
  | setEx key value ttlMsec => exact h.abs_shmSetEx hok.clock hok.ttl (hins key rfl)
  | add key value => exact h.abs_shmWrite fun _ => hins key rfl
  | replace key value => exact h.abs_shmWrite fun hf => absurd hf (by simp)
  | delete key =>
    simp only [Cache.Next, exec]
    by_cases hv : keyValid key = true
    · rw [if_neg (by simp [hv])]
      exact h.abs_shmDelete hv
    · simp [shmDelete, hv]

/-! ## Runs -/

/-- What a call shows: itself, and its answer. -/
def observe (rb : Rbtree) (crc32 : Bytes → UInt32) (z : Zone S) (c : Call) : Call × Reply :=
  (c, (exec rb crc32 c.1 c.2 z).1)

/-- A step of the abstract store that shows a call and its answer. -/
def Cache.Step (l : Cache) (o : Call × Reply) (l' : Cache) : Prop :=
  Cache.Next o.1.1.toNat o.1.2 l o.2 l'

/-- **The zone simulates the list.** For every tree, allocator, hash function and initial pool,
and every run from the empty zone in which no key collides with another one in use: the answers
are those of a run of the list from the empty list, and the zone then stands for its result. -/
theorem zone_simulates_cache (S : SlabPool) (rb : Rbtree) (crc32 : Bytes → UInt32)
    (mem : Addr → ShmNode) (pool : S.State) (calls : List Call)
    (h : Meets (callStep rb crc32) (CallOk crc32) (emptyZone mem pool) calls) :
    Traces Cache.Step [] (shows (callStep rb crc32) (observe rb crc32) (emptyZone mem pool) calls)
      (abs (runCalls rb crc32 (emptyZone mem pool) calls)) := by
  have h0 : Inv crc32 (S.allocated pool) (emptyZone mem pool) :=
    ⟨.emptyZone mem pool, .emptyZone mem pool⟩
  have hstep : ∀ (z : Zone S) (c : Call), Inv crc32 (S.allocated pool) z → CallOk crc32 z c →
      Inv crc32 (S.allocated pool) (callStep rb crc32 z c) ∧
        Cache.Step (abs z) (observe rb crc32 z c) (abs (callStep rb crc32 z c)) :=
    fun z c hi hok => ⟨exec_inv hi hok.insertOk, exec_next hi hok⟩
  exact h.simulate h0 hstep

/-- A zone with room for two entries: the third one evicts the least recently used, an entry
expires, and a counter grows by a digit. -/
theorem zone_simulates_cache_two_chunks :
    let calls : List Call := [(1, .set [97] [57]), (1, .setEx [98] [49] 5), (2, .get [97] 1),
      (3, .set [99] []), (4, .incr [97] 1), (9, .exists [98]), (9, .add [97] [48])]
    let z₀ : Zone (.ofCapacity 2) := emptyZone (fun _ => ⟨0, [], [], 0⟩) []
    Traces Cache.Step [] (shows (callStep .unbalanced crc32Short)
        (observe .unbalanced crc32Short) z₀ calls)
      (abs (runCalls .unbalanced crc32Short z₀ calls)) ∧
    abs (runCalls .unbalanced crc32Short z₀ calls) = [⟨[97], [49, 48], none⟩] :=
  ⟨zone_simulates_cache (.ofCapacity 2) .unbalanced crc32Short (fun _ => ⟨0, [], [], 0⟩) []
    [(1, .set [97] [57]), (1, .setEx [98] [49] 5), (2, .get [97] 1), (3, .set [99] []),
      (4, .incr [97] 1), (9, .exists [98]), (9, .add [97] [48])] (by decide), by decide⟩

end NgxWasm.Shm
