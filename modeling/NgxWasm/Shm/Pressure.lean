import NgxWasm.Shm.Owned
import Mathlib.Data.List.Nodup

/-!
# Writing under memory pressure

`alloc_node` alternates allocation and eviction. Two questions about it when memory runs out.

* Is an eviction always followed by another attempt? `victims` lists the entries in the order they
  would be evicted, and `poolAfter` gives the pool once some of them are freed; both are read off
  the zone before the call. `allocNode_retries_iff`: an eviction is followed by an attempt, and
  giving up means that the allocation still fails, unless the first 32 attempts fail with 32
  victims to be had. The last of these is evicted after the last attempt.
* What does a write that fails leave behind? `failed_write_only_evicts`: the live entry of its key
  as it was, and of the others all but the least recently used. An expired entry of the key is
  gone too, before anything is evicted.

The steps of the loop are recorded beside it (`allocSteps`), with the outcome of each attempt. The
pool may refuse what it likes, with one exception: that a pool which has refused a request refuses
it again as long as nothing is freed (`Steady`) is asked for where a loop gives up. `crowded` builds
the zones of the examples, over a pool that counts bytes.
-/

namespace NgxWasm.Shm

open Lib

variable {S : SlabPool} {rb : Rbtree} {crc32 : Bytes → UInt32}

/-! ## The retry loop -/

/-- What the loop of `alloc_node` does: an attempt with its outcome, or an eviction. -/
inductive AllocStep where
  | attempt (ok : Bool)
  | evict
  deriving Repr, DecidableEq

/-- The steps of the loop of `alloc_node`, with `n` attempts left. -/
def allocSteps (rb : Rbtree) (size : Nat) (skip : Option Addr) : Nat → Zone S → List AllocStep
  | 0, _ => []
  | n + 1, z =>
    match S.alloc z.pool size with
    | (some _, _) => [.attempt true]
    | (none, pool) =>
      match evictLruLocked rb skip { z with pool := pool } with
      | some z' => .attempt false :: .evict :: allocSteps rb size skip n z'
      | none => [.attempt false]

/-- Every eviction comes before another attempt. -/
def Retried (steps : List AllocStep) : Prop :=
  ∀ before after, steps = before ++ .evict :: after → ∃ ok rest, after = .attempt ok :: rest

/-- The entries in the order `evict_lru_locked` takes them. -/
def victims (skip : Option Addr) (z : Zone S) : List Addr :=
  z.lru.reverse.filter fun a => !spared skip a

/-- The pool after a failed attempt and an eviction for each of `as`. -/
def poolAfter (size : Nat) (as : List Addr) (pool : S.State) : S.State :=
  as.foldl (fun pool a => S.free (S.alloc pool size).2 a) pool

/-- The first `n` attempts fail, and each is followed by an eviction. -/
def Spent (size : Nat) (n : Nat) (as : List Addr) (pool : S.State) : Prop :=
  n ≤ as.length ∧ ∀ k < n, (S.alloc (poolAfter size (as.take k) pool) size).1 = none

theorem spent_zero (size : Nat) (as : List Addr) (pool : S.State) : Spent size 0 as pool :=
  ⟨Nat.zero_le _, fun _ hk => absurd hk (Nat.not_lt_zero _)⟩

theorem not_spent_nil (size n : Nat) (pool : S.State) : ¬ Spent size (n + 1) [] pool :=
  fun h => Nat.not_succ_le_zero n h.1

theorem spent_cons {size n : Nat} {a : Addr} {as : List Addr} {pool : S.State} :
    Spent size (n + 1) (a :: as) pool ↔ (S.alloc pool size).1 = none ∧
      Spent size n as (S.free (S.alloc pool size).2 a) := by
  constructor
  · rintro ⟨hlen, hfail⟩
    exact ⟨hfail 0 (Nat.succ_pos n), Nat.le_of_succ_le_succ hlen,
      fun k hk => hfail (k + 1) (Nat.succ_lt_succ hk)⟩
  · rintro ⟨h0, hlen, hfail⟩
    refine ⟨Nat.succ_le_succ hlen, fun k hk => ?_⟩
    cases k with
    | zero => exact h0
    | succ k => exact hfail k (Nat.lt_of_succ_lt_succ hk)

theorem not_spent_of_alloc {size n : Nat} {as : List Addr} {pool pool' : S.State} {a : Addr}
    (h : S.alloc pool size = (some a, pool')) : ¬ Spent size (n + 1) as pool := by
  intro hs
  have := hs.2 0 (Nat.succ_pos n)
  rw [List.take_zero] at this
  have hnone : (S.alloc pool size).1 = none := this
  rw [h] at hnone
  cases hnone

/-- With no victim left nothing is evicted. -/
theorem evictLruLocked_of_nil {skip : Option Addr} {z : Zone S} (h : victims skip z = []) :
    evictLruLocked rb skip z = none := by
  unfold evictLruLocked
  have hnone : z.lru.reverse.find? (fun a => some a != skip) = none := by
    rw [List.find?_eq_none]
    intro a ha
    exact List.filter_eq_nil_iff.mp h a ha
  rw [hnone]

/-- The first victim is evicted, and the others are the victims that remain. -/
theorem evictLruLocked_of_cons {skip : Option Addr} {z : Zone S} (hnodup : z.lru.Nodup) {a : Addr}
    {as : List Addr} (h : victims skip z = a :: as) :
    evictLruLocked rb skip z = some (deleteLocked rb a z) ∧
      victims skip (deleteLocked rb a z) = as := by
  constructor
  · have hfind : z.lru.reverse.find? (fun a => some a != skip) = some a := by
      rw [← List.head?_filter]
      exact congrArg List.head? h
    unfold evictLruLocked
    rw [hfind]
  · have hvic : (victims skip z).Nodup := (List.nodup_reverse.mpr hnodup).filter _
    show (z.lru.erase a).reverse.filter _ = as
    rw [hnodup.erase_eq_filter, ← List.filter_reverse, List.filter_filter]
    have hcomm : (fun b => (!spared skip b) && (b != a)) = fun b => (b != a) && !spared skip b :=
      funext fun b => Bool.and_comm _ _
    rw [hcomm, ← List.filter_filter]
    show (victims skip z).filter (fun b => b != a) = as
    rw [h] at hvic ⊢
    rw [← hvic.erase_eq_filter, List.erase_cons_head]

theorem retried_nil : Retried [] := by
  intro before after h
  cases before <;> cases h

theorem retried_cons {s : AllocStep} {steps : List AllocStep} :
    Retried (s :: steps) ↔
      (s = .evict → ∃ ok rest, steps = .attempt ok :: rest) ∧ Retried steps := by
  constructor
  · intro h
    refine ⟨fun hs => h [] steps (by rw [hs, List.nil_append]), fun before after he => ?_⟩
    exact h (s :: before) after (by rw [he, List.cons_append])
  · rintro ⟨hhead, htail⟩ before after he
    cases before with
    | nil =>
      obtain ⟨hs, rfl⟩ := List.cons.inj he
      exact hhead hs
    | cons x before => exact htail before after (List.cons.inj he).2

theorem retried_attempt {ok : Bool} {steps : List AllocStep} :
    Retried (.attempt ok :: steps) ↔ Retried steps := by
  rw [retried_cons]
  constructor
  · intro h
    exact h.2
  · intro h
    exact ⟨nofun, h⟩

/-- One round of the loop, with `n` attempts left after it: a success, a failure with nothing left
to evict, or a failure and the eviction of the first victim. -/
theorem alloc_round (rb : Rbtree) (size : Nat) (skip : Option Addr) (n : Nat) {z : Zone S}
    (hnodup : z.lru.Nodup) :
    (∃ a pool, S.alloc z.pool size = (some a, pool) ∧
      allocSteps rb size skip (n + 1) z = [.attempt true] ∧
      allocLoop rb size skip (n + 1) z = (some a, { z with pool := pool })) ∨
    (∃ pool, S.alloc z.pool size = (none, pool) ∧ victims skip z = [] ∧
      allocSteps rb size skip (n + 1) z = [.attempt false] ∧
      allocLoop rb size skip (n + 1) z = (none, { z with pool := pool })) ∨
    ∃ pool a as z₁, S.alloc z.pool size = (none, pool) ∧ victims skip z = a :: as ∧
      z₁.lru.Nodup ∧ victims skip z₁ = as ∧ z₁.pool = S.free pool a ∧
      allocSteps rb size skip (n + 1) z = .attempt false :: .evict :: allocSteps rb size skip n z₁ ∧
      allocLoop rb size skip (n + 1) z = allocLoop rb size skip n z₁ := by
  rw [allocSteps, allocLoop]
  cases ha : S.alloc z.pool size with
  | mk r pool =>
    cases r with
    | some a => exact Or.inl ⟨a, pool, rfl, rfl, rfl⟩
    | none =>
      have hpool : ∀ as, victims skip z = as → victims skip { z with pool := pool } = as :=
        fun _ h => h
      cases hv : victims skip z with
      | nil =>
        simp only [evictLruLocked_of_nil (hpool _ hv)]
        exact Or.inr (Or.inl ⟨pool, rfl, trivial, trivial, rfl⟩)
      | cons a as =>
        have hnodup₁ : ({ z with pool := pool } : Zone S).lru.Nodup := hnodup
        obtain ⟨he, hvic⟩ : evictLruLocked rb skip { z with pool := pool } = _ ∧ _ :=
          evictLruLocked_of_cons hnodup₁ (hpool _ hv)
        simp only [he]
        exact Or.inr (Or.inr ⟨pool, a, as, _, rfl, rfl, hnodup.erase a, hvic, rfl, rfl, rfl⟩)

/-- **The loop evicts in vain exactly if it spends every attempt.** -/
theorem allocSteps_retried_iff {size : Nat} {skip : Option Addr} (n : Nat) {z : Zone S}
    (hnodup : z.lru.Nodup) :
    Retried (allocSteps rb size skip (n + 1) z) ↔
      ¬ Spent size (n + 1) (victims skip z) z.pool := by
  induction n generalizing z with
  | zero =>
    rcases alloc_round rb size skip 0 hnodup with
      ⟨a, pool, ha, hs, -⟩ | ⟨pool, ha, hv, hs, -⟩ | ⟨pool, a, as, z₁, ha, hv, -, -, -, hs, -⟩
    · rw [hs, retried_attempt]
      exact iff_of_true retried_nil (not_spent_of_alloc ha)
    · rw [hs, hv, retried_attempt]
      exact iff_of_true retried_nil (not_spent_nil size 0 z.pool)
    · rw [hs, hv, retried_attempt, retried_cons, spent_cons, ha]
      refine iff_of_false ?_ fun h => h ⟨rfl, spent_zero size as _⟩
      rintro ⟨h, -⟩
      obtain ⟨ok, rest, he⟩ := h rfl
      cases he
  | succ n ih =>
    rcases alloc_round rb size skip (n + 1) hnodup with
      ⟨a, pool, ha, hs, -⟩ | ⟨pool, ha, hv, hs, -⟩ |
      ⟨pool, a, as, z₁, ha, hv, hnodup₁, hv₁, hp₁, hs, -⟩
    · rw [hs, retried_attempt]
      exact iff_of_true retried_nil (not_spent_of_alloc ha)
    · rw [hs, hv, retried_attempt]
      exact iff_of_true retried_nil (not_spent_nil size (n + 1) z.pool)
    · rw [hs, hv, retried_attempt, retried_cons, spent_cons, ha, ih hnodup₁, hv₁, hp₁]
      -- the loop goes on with an attempt
      have hnext : ∃ ok rest, allocSteps rb size skip (n + 1) z₁ = .attempt ok :: rest := by
        rcases alloc_round rb size skip n hnodup₁ with
          ⟨b, pool', -, h, -⟩ | ⟨pool', -, -, h, -⟩ | ⟨pool', b, bs, z₂, -, -, -, -, -, h, -⟩
        · exact ⟨true, [], h⟩
        · exact ⟨false, [], h⟩
        · exact ⟨false, _, h⟩
      constructor
      · rintro ⟨-, h⟩ ⟨-, hspent⟩
        exact h hspent
      · intro h
        exact ⟨fun _ => hnext, fun hspent => h ⟨rfl, hspent⟩⟩

/-- A failed allocation leaves a pool in which the same request fails again. -/
def Steady (S : SlabPool) : Prop :=
  ∀ pool size, (S.alloc pool size).1 = none → (S.alloc (S.alloc pool size).2 size).1 = none

/-- A loop that gives up before its attempts are spent has nothing left to evict, right after an
attempt that failed. -/
theorem allocLoop_gives_up (hsteady : Steady S) {size : Nat} {skip : Option Addr} (n : Nat)
    {z z' : Zone S} (hnodup : z.lru.Nodup) (hspent : ¬ Spent size n (victims skip z) z.pool)
    (h : allocLoop rb size skip n z = (none, z')) : (S.alloc z'.pool size).1 = none := by
  induction n generalizing z with
  | zero => exact absurd (spent_zero size _ _) hspent
  | succ n ih =>
    rcases alloc_round rb size skip n hnodup with
      ⟨a, pool, -, -, hl⟩ | ⟨pool, ha, -, -, hl⟩ |
      ⟨pool, a, as, z₁, ha, hv, hnodup₁, hv₁, hp₁, -, hl⟩
    · rw [hl] at h
      cases h
    · rw [hl] at h
      cases h
      have := hsteady z.pool size
      rw [ha] at this
      exact this rfl
    · rw [hl] at h
      rw [hv, spent_cons, ha] at hspent
      refine ih hnodup₁ ?_ h
      rw [hv₁, hp₁]
      exact fun hs => hspent ⟨rfl, hs⟩

/-- What `alloc_node` is to do when memory is short: it evicts only in order to try again, and when it
gives up, the request still fails in the zone it leaves. -/
structure EvictsOnlyToRetry (rb : Rbtree) (key value : Bytes) (hash : UInt32) (skip : Option Addr)
    (z : Zone S) : Prop where
  retried : Retried (allocSteps rb (nodeDataOffset + key.length + value.length) skip maxAttempts z)
  exhausted : ∀ z', allocNode rb key value hash skip z = (none, z') →
    (S.alloc z'.pool (nodeDataOffset + key.length + value.length)).1 = none

/-- **When `alloc_node` evicts only to retry**: exactly if fewer than 32 entries may be evicted, or one
of the first 32 attempts succeeds. -/
theorem allocNode_retries_iff (hsteady : Steady S) {base : Set Addr} {z : Zone S} (hw : Wf base z)
    (rb : Rbtree) (key value : Bytes) (hash : UInt32) (skip : Option Addr) :
    EvictsOnlyToRetry rb key value hash skip z ↔
      (victims skip z).length < 32 ∨
        ∃ k < 32, ((S.alloc (poolAfter (nodeDataOffset + key.length + value.length)
          ((victims skip z).take k) z.pool) (nodeDataOffset + key.length + value.length)).1).isSome := by
  have hspent : (victims skip z).length < 32 ∨
      (∃ k < 32, ((S.alloc (poolAfter (nodeDataOffset + key.length + value.length)
        ((victims skip z).take k) z.pool) (nodeDataOffset + key.length + value.length)).1).isSome) ↔
      ¬ Spent (nodeDataOffset + key.length + value.length) 32 (victims skip z) z.pool := by
    unfold Spent
    rw [not_and_or, not_le]
    refine or_congr_right ?_
    simp only [not_forall, ← Option.isSome_iff_ne_none, exists_prop]
  rw [hspent]
  constructor
  · intro h
    exact (allocSteps_retried_iff 31 hw.nodup).mp h.retried
  · intro h
    refine ⟨(allocSteps_retried_iff 31 hw.nodup).mpr h, fun z' hn => ?_⟩
    unfold allocNode at hn
    split at hn
    · cases hn
    · rename_i z₁ hl
      cases hn
      exact allocLoop_gives_up hsteady 32 hw.nodup h hl

theorem steady_ofBytes (capacity : Nat) : Steady (.ofBytes capacity) := by
  intro pool size h
  have hfull : ¬ (pool.map Prod.snd).sum + size ≤ capacity := by
    intro hc
    simp only [SlabPool.ofBytes, if_pos hc] at h
    cases h
  simp only [SlabPool.ofBytes, if_neg hfull]

/-- A zone of `n` entries with one-byte keys and empty values, which take 81 bytes each. -/
def crowded (n capacity : Nat) : Zone (SlabPool.ofBytes capacity) :=
  runCalls .unbalanced crc32Short (emptyZone (fun _ => ⟨0, [], [], 0⟩) [])
    ((List.range n).map fun i => (0, .set [UInt8.ofNat i] []))

theorem crowded_owned (n capacity : Nat) :
    Owned ∅ ([] : (SlabPool.ofBytes capacity).State) (crowded n capacity) := by
  have hempty : (SlabPool.ofBytes capacity).allocated [] = ∅ := by
    ext a
    simp [SlabPool.ofBytes]
  have hw : Wf _ (emptyZone (S := .ofBytes capacity) (fun _ => ⟨0, [], [], 0⟩) []) :=
    Wf.emptyZone _ _
  rw [hempty] at hw
  exact runCalls_owned ⟨hw, .refl⟩ _

/-- Two entries have to make room for a third. -/
theorem allocNode_retries_iff_two_entries :
    EvictsOnlyToRetry .unbalanced [3] [7, 7] (crc32Short [3]) none (crowded 2 200) :=
  (allocNode_retries_iff (steady_ofBytes 200) (crowded_owned 2 200).wf .unbalanced [3] [7, 7]
    (crc32Short [3]) none).mpr (Or.inl (by decide +kernel))

/-- A value for which all of 32 such entries have to go. -/
def bulky : Bytes := List.replicate 2511 0

/-- The write of that value into a pool of just that size. -/
def bulkyAlloc : Option Addr × Zone (SlabPool.ofBytes 2592) :=
  allocNode .unbalanced [200] bulky (crc32Short [200]) none (crowded 32 2592)

/-- All 32 entries are evicted for it, and it is refused although there is room for it now. -/
theorem allocNode_evicts_in_vain :
    (crowded 32 2592).lru.length = 32 ∧ bulkyAlloc.1 = none ∧ bulkyAlloc.2.lru.length = 0 ∧
      ¬ EvictsOnlyToRetry .unbalanced [200] bulky (crc32Short [200]) none (crowded 32 2592) := by
  have hnone : bulkyAlloc.1 = none := by decide +kernel
  have hroom : (((SlabPool.ofBytes 2592).alloc bulkyAlloc.2.pool
    (nodeDataOffset + ([200] : Bytes).length + bulky.length)).1).isSome := by decide +kernel
  have hvain : ¬ EvictsOnlyToRetry .unbalanced [200] bulky (crc32Short [200]) none
      (crowded 32 2592) := by
    intro h
    have hgives : bulkyAlloc = (none, bulkyAlloc.2) := by rw [← hnone, Prod.eta]
    rw [h.exhausted bulkyAlloc.2 hgives] at hroom
    cases hroom
  exact ⟨by decide +kernel, hnone, by decide +kernel, hvain⟩

/-! ## A write that fails -/

/-- The entry of the key that the lookup finds, if it is live. -/
def foundLive (nowMsec : UInt64) (key : Bytes) (hash : UInt32) (z : Zone S) : Option Addr :=
  (lookup key hash z).filter fun a => !isExpired (z.mem a) nowMsec

/-- The entry of the key that the lookup finds, if it has expired. -/
def foundExpired (nowMsec : UInt64) (key : Bytes) (hash : UInt32) (z : Zone S) : Option Addr :=
  (lookup key hash z).filter fun a => isExpired (z.mem a) nowMsec

/-- What a call hands to `set_locked` besides its key. -/
structure SetArgs where
  value : Bytes
  expiresAtMsec : UInt64
  requireExists : Bool
  requireMissing : Bool
  deriving Repr, DecidableEq

/-- The arguments of the four writers, their own checks passed. -/
def writeArgs (key value : Bytes) (expiresAtMsec : UInt64) (requireExists requireMissing : Bool) :
    Option SetArgs :=
  if !keyValid key || decide (value.length > maxValueLen) then none
  else some ⟨value, expiresAtMsec, requireExists, requireMissing⟩

/-- The arguments with which the call reaches `set_locked`, if it does. -/
def setArgs (crc32 : Bytes → UInt32) (z : Zone S) (c : Call) : Option SetArgs :=
  match c.2 with
  | .set key value => writeArgs key value 0 false false
  | .setEx key value ttlMsec => writeArgs key value (deadline c.1 ttlMsec) false false
  | .add key value => writeArgs key value 0 false true
  | .replace key value => writeArgs key value 0 true false
  | .incr key delta =>
    if !keyValid key then none
    else if delta < int32Min || delta > int32Max then none
    else
      (foundLive c.1 key (crc32 key) z).bind fun a =>
        (incrNext (z.mem a).value delta).map fun next =>
          ⟨formatI32 next, (z.mem a).expiresAtMsec, true, false⟩
  | .get .. | .exists _ | .delete _ => none

/-- The call is a write that fails for lack of memory: `set_locked` returns `NGX_HTTP_WASM_ERROR`,
which it does only where `alloc_node` gives up. -/
def FailsForMemory (rb : Rbtree) (crc32 : Bytes → UInt32) (z : Zone S) (c : Call) : Prop :=
  ∃ w, setArgs crc32 z c = some w ∧
    (setLocked rb c.1 c.2.key w.value w.expiresAtMsec (crc32 c.2.key) w.requireExists
      w.requireMissing z).1 = wasmError

/-- From `z` to `z'` only evictions happened: `found` stays, `gone` was removed beforehand, and of
the other entries up to 32 are missing, the least recently used ones. -/
structure OnlyEvicted (found gone : Option Addr) (z z' : Zone S) : Prop where
  /-- Value and expiry of what is left are as they were. -/
  contents : ∀ a ∈ z'.lru, z'.mem a = z.mem a
  /-- So is the order of use. -/
  order : z'.lru.Sublist z.lru
  found_mem : ∀ a ∈ found, a ∈ z'.lru
  evicted : ∃ n ≤ 32, z'.lru.filter (fun a => some a != found) =
    (z.lru.filter fun a => some a != found && some a != gone).rdrop n
  /-- The tree lost the same entries. -/
  tree : ∀ a, a ∈ z'.tree.inorder ↔ a ∈ z'.lru

section Failure

variable {base : Set Addr} {z z' : Zone S} {key value : Bytes} {hash : UInt32} {nowMsec : UInt64}

/-- How the operations begin, by the two answers of the lookup. -/
theorem lookupLive_eq : lookupLive rb nowMsec key hash z =
    (foundLive nowMsec key hash z, match foundExpired nowMsec key hash z with
      | some e => deleteLocked rb e z
      | none => z) := by
  unfold lookupLive foundLive foundExpired
  cases lookup key hash z with
  | none => rfl
  | some a =>
    by_cases hexp : isExpired (z.mem a) nowMsec = true
    · simp [hexp, Option.filter_some]
    · simp [hexp, Option.filter_some]

theorem foundLive_eq_some {a : Addr} : foundLive nowMsec key hash z = some a ↔
    lookup key hash z = some a ∧ isExpired (z.mem a) nowMsec = false := by
  unfold foundLive
  rw [Option.filter_eq_some_iff, Bool.not_eq_true']

theorem foundExpired_eq_some {a : Addr} : foundExpired nowMsec key hash z = some a ↔
    lookup key hash z = some a ∧ isExpired (z.mem a) nowMsec = true := by
  unfold foundExpired
  rw [Option.filter_eq_some_iff]

/-- One lookup finds one entry. -/
theorem foundExpired_of_live {a : Addr} (h : foundLive nowMsec key hash z = some a) :
    foundExpired nowMsec key hash z = none := by
  obtain ⟨hl, hlive⟩ := foundLive_eq_some.mp h
  unfold foundExpired
  rw [hl, Option.filter_some, if_neg (by rw [hlive]; exact Bool.false_ne_true)]

/-- With no expired entry about, what may go is what is not spared. -/
theorem others_none (skip : Option Addr) :
    (fun a => some a != skip && some a != none) = fun a => !spared skip a := by
  funext a
  simp [spared, bne]

/-- `alloc_node` giving up. -/
theorem onlyEvicted_of_alloc {skip : Option Addr} (hw : Wf base z)
    (hskip : ∀ a ∈ skip, a ∈ z.lru) (h : allocNode rb key value hash skip z = (none, z')) :
    OnlyEvicted skip none z z' := by
  obtain ⟨n, hn, z₁, hev, hw₁, -, rfl⟩ := allocNode_spec hw h
  refine ⟨fun a _ => by rw [hev.mem], ?_, ?_, ⟨n, hn, ?_⟩, fun a => hw₁.mem_inorder⟩
  · rw [hev.lru]
    exact evictMany_sublist _ n _
  · intro a ha
    rw [hev.lru]
    obtain rfl := Option.mem_def.mp ha
    exact mem_evictMany_of_spare (hskip a rfl) (by simp [spared])
  · rw [hev.lru, others_none]
    exact filter_evictMany _ n _

/-- `alloc_node` giving up after an expired entry was deleted. -/
theorem onlyEvicted_of_expired {e : Addr} (hw : Wf base z) (he : e ∈ z.lru)
    (h : allocNode rb key value hash none (deleteLocked rb e z) = (none, z')) :
    OnlyEvicted none (some e) z z' := by
  have hev := onlyEvicted_of_alloc (hw.deleteLocked he) (fun _ ha => absurd ha (Option.not_mem_none _)) h
  obtain ⟨n, hn, hl⟩ := hev.evicted
  refine ⟨hev.contents, hev.order.trans List.erase_sublist, hev.found_mem, ⟨n, hn, ?_⟩, hev.tree⟩
  rw [hl, others_none]
  show ((z.lru.erase e).filter _).rdrop n = _
  rw [hw.nodup.erase_eq_filter, List.filter_filter]
  congr 2

/-- **Where `set_locked` fails**, by the two answers of the lookup. -/
theorem setLocked_fails (hw : Wf base z) {expiresAtMsec : UInt64} {requireExists requireMissing : Bool}
    (h : setLocked rb nowMsec key value expiresAtMsec hash requireExists requireMissing z =
      (wasmError, z')) :
    OnlyEvicted (foundLive nowMsec key hash z) (foundExpired nowMsec key hash z) z z' := by
  have hre : ∀ {skip : Option Addr} {z₀ : Zone S}, reallocate rb key value expiresAtMsec hash skip z₀ =
      (wasmError, z') → allocNode rb key value hash skip z₀ = (none, z') := by
    intro skip z₀ hr
    unfold reallocate at hr
    split at hr
    · rename_i z₁ hn
      cases hr
      exact hn
    · cases hr
  unfold setLocked at h
  rw [lookupLive_eq] at h
  cases hlive : foundLive nowMsec key hash z with
  | some a =>
    have hmem : a ∈ z.lru := mem_lru_of_lookup hw (foundLive_eq_some.mp hlive).1
    simp only [hlive, foundExpired_of_live hlive] at h ⊢
    split at h
    · cases h
    · split at h
      · cases h
      · exact onlyEvicted_of_alloc hw (found_linked hmem) (hre h)
  | none =>
    simp only [hlive] at h
    split at h
    · cases h
    · cases hexp : foundExpired nowMsec key hash z with
      | none =>
        simp only [hexp] at h
        exact onlyEvicted_of_alloc hw (fun _ ha => absurd ha (Option.not_mem_none _)) (hre h)
      | some e =>
        simp only [hexp] at h
        have hmem : e ∈ z.lru := mem_lru_of_lookup hw (foundExpired_eq_some.mp hexp).1
        exact onlyEvicted_of_expired hw hmem (hre h)

/-- A call that reaches `set_locked` leaves what `set_locked` leaves. -/
theorem exec_of_setArgs {c : Call} {w : SetArgs} (h : setArgs crc32 z c = some w) :
    (exec rb crc32 c.1 c.2 z).2 = (setLocked rb c.1 c.2.key w.value w.expiresAtMsec
      (crc32 c.2.key) w.requireExists w.requireMissing z).2 := by
  have hwrite : ∀ {key value : Bytes} {e : UInt64} {re rm : Bool},
      writeArgs key value e re rm = some w →
        (shmWrite rb crc32 c.1 key value e re rm z).2 = (setLocked rb c.1 key w.value
          w.expiresAtMsec (crc32 key) w.requireExists w.requireMissing z).2 := by
    intro key value e re rm hwr
    unfold writeArgs at hwr
    unfold shmWrite
    split at hwr
    · cases hwr
    · rename_i hvalid
      cases hwr
      rw [if_neg hvalid]
  obtain ⟨nowMsec, op⟩ := c
  cases op with
  | set key value => exact hwrite h
  | setEx key value ttlMsec => exact hwrite h
  | add key value => exact hwrite h
  | replace key value => exact hwrite h
  | incr key delta =>
    simp only [setArgs] at h
    simp only [exec, shmIncr]
    split at h
    · cases h
    · rename_i hkey
      split at h
      · cases h
      · rename_i hdelta
        obtain ⟨a, hlive, hnext⟩ := Option.bind_eq_some_iff.mp h
        obtain ⟨next, hn, rfl⟩ := Option.map_eq_some_iff.mp hnext
        rw [if_neg hkey, if_neg hdelta, lookupLive_eq]
        simp only [hlive, foundExpired_of_live hlive, hn]
        rfl
  | get key bufLen => cases h
  | «exists» key => cases h
  | delete key => cases h

/-- **A write that fails for lack of memory only evicts.** The live entry its lookup found is still
there with its value, its expiry and its place among the others, which are as they were apart from
the least recently used ones, at most 32, that were evicted; an expired entry of the key has been
deleted before. -/
theorem failed_write_only_evicts (hw : Wf base z) {c : Call} (h : FailsForMemory rb crc32 z c) :
    OnlyEvicted (foundLive c.1 c.2.key (crc32 c.2.key) z)
      (foundExpired c.1 c.2.key (crc32 c.2.key) z) z (exec rb crc32 c.1 c.2 z).2 := by
  obtain ⟨w, hargs, hfail⟩ := h
  rw [exec_of_setArgs hargs]
  exact setLocked_fails hw (Prod.ext hfail rfl)

end Failure

/-- A value too long for the pools below. -/
def oversized : Bytes := List.replicate 3000 0

/-- Setting it costs the other entry, and the one to be replaced stays. -/
theorem failed_write_only_evicts_other :
    OnlyEvicted (foundLive 0 [0] (crc32Short [0]) (crowded 2 200))
      (foundExpired 0 [0] (crc32Short [0]) (crowded 2 200)) (crowded 2 200)
      (exec .unbalanced crc32Short 0 (.set [0] oversized) (crowded 2 200)).2 := by
  have hfail : FailsForMemory .unbalanced crc32Short (crowded 2 200) (0, .set [0] oversized) :=
    ⟨⟨oversized, 0, false, false⟩, by decide +kernel, by decide +kernel⟩
  exact failed_write_only_evicts (crowded_owned 2 200).wf hfail

/-- 33 entries, and after them one that expires at 5. -/
def staleCrowd : Zone (SlabPool.ofBytes 2754) :=
  (exec .unbalanced crc32Short 0 (.setEx [40] [] 5) (crowded 33 2754)).2

theorem staleCrowd_wf : Wf ∅ staleCrowd :=
  (exec_owned (crowded_owned 33 2754) (0, .setEx [40] [] 5)).wf

/-- **Evictions are not the whole of it**: when that value is set over the expired entry, 33 entries
go, and the most recently used one is among them. -/
theorem failed_write_deletes_expired :
    Wf ∅ staleCrowd ∧ FailsForMemory .unbalanced crc32Short staleCrowd (10, .set [40] oversized) ∧
      ¬ OnlyEvicted (foundLive 10 [40] (crc32Short [40]) staleCrowd) none staleCrowd
        (exec .unbalanced crc32Short 10 (.set [40] oversized) staleCrowd).2 := by
  have hfail : FailsForMemory .unbalanced crc32Short staleCrowd (10, .set [40] oversized) :=
    ⟨⟨oversized, 0, false, false⟩, by decide +kernel, by decide +kernel⟩
  refine ⟨staleCrowd_wf, hfail, fun h => ?_⟩
  obtain ⟨n, hn, he⟩ := h.evicted
  have hlen := congrArg List.length he
  rw [List.rdrop, List.length_take] at hlen
  have hbefore : (staleCrowd.lru.filter fun a =>
      some a != foundLive 10 [40] (crc32Short [40]) staleCrowd && some a != none).length = 34 := by
    decide +kernel
  have hafter : ((exec .unbalanced crc32Short 10 (.set [40] oversized) staleCrowd).2.lru.filter
      fun a => some a != foundLive 10 [40] (crc32Short [40]) staleCrowd).length = 1 := by
    decide +kernel
  omega

end NgxWasm.Shm
