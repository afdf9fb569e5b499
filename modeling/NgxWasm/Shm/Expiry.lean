import NgxWasm.Shm.Counter

/-!
# Deadlines and the end of the clock

`shm_set_ex` adds the time to live to the cached clock in 64 bits, and `is_expired` compares the clock
with the sum by `>=`. The clock is an `ngx_msec_t`, a word of 32 or of 64 bits that goes on from 0 after
its last value (`reading`), and the comparison knows nothing of that. The sum of two 32-bit words never
comes back to small numbers, so past the end of a 32-bit clock an entry is live again until the clock is
back where it was; past the end of a 64-bit clock the sum wraps as the clock does, and an entry is
expired before the end and live after it.

What is asked of a deadline is that it is right about every reading in the half of the clock's range
that follows the call, as a comparison by signed difference would be. `ngx_msec_t` has as many bits as
the platform's words, so both widths are treated.

* `timely_iff`: a deadline is right about every reading of the `2 ^ (w - 1)` milliseconds after it was
  made exactly if the clock does not reach its end in them.
* `reportsLive_iff`, `reportsExpired_iff`: what `get` and `exists` report is the deadline's comparison,
  for an entry that their lookup finds.
* `expires_on_time_iff`: so the store is right about an entry exactly if the deadline is and the lookup
  finds it, over any further calls that leave the entry.
-/

namespace NgxWasm.Shm

open Lib

/-! ## The clock -/

/-- The cached clock, `d` milliseconds after it showed `t`: an `ngx_msec_t` has `w` bits. -/
def reading (w t d : Nat) : UInt64 := UInt64.ofNat ((t + d) % 2 ^ w)

/-- A deadline for the time to live `ttl`, made at `t`, is right about every reading of the
`2 ^ (w - 1)` milliseconds from `t` on. -/
structure Timely (w t ttl : Nat) (expiresAtMsec : UInt64) : Prop where
  live : ∀ d < ttl, reading w t d < expiresAtMsec
  expired : ∀ d, ttl ≤ d → d < 2 ^ (w - 1) → expiresAtMsec ≤ reading w t d

section Clock

variable {w t ttl : Nat}

theorem toNat_reading (hw : w = 32 ∨ w = 64) (d : Nat) :
    (reading w t d).toNat = (t + d) % 2 ^ w := by
  unfold reading
  rw [UInt64.toNat_ofNat']
  refine Nat.mod_eq_of_lt ?_
  rcases hw with rfl | rfl <;> omega

/-- The deadline is the sum in 64 bits, or 1 where that is the reserved 0. -/
theorem toNat_deadline (hw : w = 32 ∨ w = 64) (ht : t < 2 ^ w) (hpos : 0 < ttl) (httl : ttl < 2 ^ 31) :
    (deadline (UInt64.ofNat t) (UInt64.ofNat ttl)).toNat =
      if (t + ttl) % 2 ^ 64 = 0 then 1 else (t + ttl) % 2 ^ 64 := by
  have ht64 : (UInt64.ofNat t).toNat = t := by
    rw [UInt64.toNat_ofNat']
    refine Nat.mod_eq_of_lt ?_
    rcases hw with rfl | rfl <;> omega
  have httl64 : (UInt64.ofNat ttl).toNat = ttl := by
    rw [UInt64.toNat_ofNat']
    exact Nat.mod_eq_of_lt (by omega)
  have hne : UInt64.ofNat ttl ≠ 0 := fun h => by
    rw [h] at httl64
    exact absurd httl64 (by simp only [UInt64.toNat_zero]; omega)
  have hsum : (UInt64.ofNat t + UInt64.ofNat ttl).toNat = (t + ttl) % 2 ^ 64 := by
    rw [UInt64.toNat_add, ht64, httl64]
  unfold deadline
  rw [if_neg hne]
  by_cases hzero : UInt64.ofNat t + UInt64.ofNat ttl = 0
  · have : (t + ttl) % 2 ^ 64 = 0 := by
      rw [← hsum, hzero]
      rfl
    rw [if_pos hzero, if_pos this]
    rfl
  · have : (t + ttl) % 2 ^ 64 ≠ 0 := fun h => hzero (UInt64.toNat_inj.mp (hsum.trans h))
    rw [if_neg hzero, if_neg this, hsum]

/-- `Timely`, in numbers. -/
theorem timely_iff_toNat (hw : w = 32 ∨ w = 64) {expiresAtMsec : UInt64} :
    Timely w t ttl expiresAtMsec ↔
      (∀ d < ttl, (t + d) % 2 ^ w < expiresAtMsec.toNat) ∧
        ∀ d, ttl ≤ d → d < 2 ^ (w - 1) → expiresAtMsec.toNat ≤ (t + d) % 2 ^ w := by
  constructor
  · rintro ⟨hlive, hexpired⟩
    refine ⟨fun d hd => ?_, fun d hd hd' => ?_⟩
    · rw [← toNat_reading hw]
      exact UInt64.lt_iff_toNat_lt.mp (hlive d hd)
    · rw [← toNat_reading hw]
      exact UInt64.le_iff_toNat_le.mp (hexpired d hd hd')
  · rintro ⟨hlive, hexpired⟩
    refine ⟨fun d hd => UInt64.lt_iff_toNat_lt.mpr ?_, fun d hd hd' => UInt64.le_iff_toNat_le.mpr ?_⟩
    · rw [toNat_reading hw]
      exact hlive d hd
    · rw [toNat_reading hw]
      exact hexpired d hd hd'

/-- Before the end of the clock nothing wraps. -/
theorem timely_of_le (hw : w = 32 ∨ w = 64) (hpos : 0 < ttl) (httl : ttl < 2 ^ 31)
    (h : t ≤ 2 ^ (w - 1)) : Timely w t ttl (deadline (UInt64.ofNat t) (UInt64.ofNat ttl)) := by
  have ht : t < 2 ^ w := by
    rcases hw with rfl | rfl <;> omega
  have hsmall : (t + ttl) % 2 ^ 64 = t + ttl := by
    refine Nat.mod_eq_of_lt ?_
    rcases hw with rfl | rfl <;> omega
  rw [timely_iff_toNat hw, toNat_deadline hw ht hpos httl, hsmall, if_neg (by omega)]
  have hread : ∀ d < 2 ^ (w - 1), (t + d) % 2 ^ w = t + d := by
    intro d hd
    refine Nat.mod_eq_of_lt ?_
    rcases hw with rfl | rfl <;> omega
  have hhalf : 2 ^ 31 ≤ 2 ^ (w - 1) := by
    rcases hw with rfl | rfl <;> omega
  refine ⟨fun d hd => ?_, fun d hd hd' => ?_⟩
  · rw [hread d (by omega)]
    omega
  · rw [hread d hd']
    omega

/-- **A 32-bit clock that comes to its end**: some reading after the deadline is below it. -/
theorem not_timely_32 (ht : t < 2 ^ 32) (hpos : 0 < ttl) (httl : ttl < 2 ^ 31) (h : 2 ^ 31 < t) :
    ¬ Timely 32 t ttl (deadline (UInt64.ofNat t) (UInt64.ofNat ttl)) := by
  have hsmall : (t + ttl) % 2 ^ 64 = t + ttl := Nat.mod_eq_of_lt (by omega)
  rw [timely_iff_toNat (.inl rfl), toNat_deadline (.inl rfl) ht hpos httl, hsmall, if_neg (by omega)]
  rintro ⟨-, hexpired⟩
  -- the first reading past the end, or the deadline itself if that comes later
  have := hexpired (max ttl (2 ^ 32 - t)) (by omega) (by omega)
  omega

/-- **A 64-bit clock that comes to its end**: the sum is past it as well, and is below the clock at
once, or it is not, and is above the clock that starts again. -/
theorem not_timely_64 (ht : t < 2 ^ 64) (hpos : 0 < ttl) (httl : ttl < 2 ^ 31) (h : 2 ^ 63 < t) :
    ¬ Timely 64 t ttl (deadline (UInt64.ofNat t) (UInt64.ofNat ttl)) := by
  rw [timely_iff_toNat (.inr rfl), toNat_deadline (.inr rfl) ht hpos httl]
  rintro ⟨hlive, hexpired⟩
  by_cases hwrap : t + ttl < 2 ^ 64
  · have := hexpired (2 ^ 64 - t) (by omega) (by omega)
    split at this <;> omega
  · have := hlive 0 hpos
    split at this <;> omega

/-- **When a deadline is right.** -/
theorem timely_iff (hw : w = 32 ∨ w = 64) (ht : t < 2 ^ w) (hpos : 0 < ttl) (httl : ttl < 2 ^ 31) :
    Timely w t ttl (deadline (UInt64.ofNat t) (UInt64.ofNat ttl)) ↔ t ≤ 2 ^ (w - 1) := by
  constructor
  · intro h
    by_contra hlate
    rcases hw with rfl | rfl
    · exact not_timely_32 ht hpos httl (by omega) h
    · exact not_timely_64 ht hpos httl (by omega) h
  · exact timely_of_le hw hpos httl

end Clock

/-! ## What `set_ex` writes -/

section Write

variable {S : SlabPool} {rb : Rbtree} {crc32 : Bytes → UInt32} {nowMsec expiresAtMsec : UInt64}
  {key value : Bytes} {z z' : Zone S}

theorem allocNode_mem {hash : UInt32} {skip : Option Addr} {a : Addr}
    (h : allocNode rb key value hash skip z = (some a, z')) : z'.mem a = ⟨hash, key, value, 0⟩ := by
  unfold allocNode at h
  split at h
  · obtain ⟨hb, rfl⟩ := Prod.mk.inj h
    obtain rfl := Option.some.inj hb
    exact Function.update_self ..
  · cases h

/-- A write of `set_locked` puts its entry at the head of the queue. -/
theorem setLocked_head
    (h : setLocked rb nowMsec key value expiresAtMsec (crc32 key) false false z = (wasmOk, z')) :
    ∃ a, z'.lru.head? = some a ∧ (z'.mem a).key = key ∧ (z'.mem a).value = value ∧
      (z'.mem a).expiresAtMsec = expiresAtMsec := by
  have hnew : ∀ found z₀, reallocate rb key value expiresAtMsec (crc32 key) found z₀ = (wasmOk, z') →
      ∃ a, z'.lru.head? = some a ∧ (z'.mem a).key = key ∧ (z'.mem a).value = value ∧
        (z'.mem a).expiresAtMsec = expiresAtMsec := by
    intro found z₀ hr
    unfold reallocate at hr
    split at hr
    · cases hr
    · rename_i a z₁ halloc
      have hmem := allocNode_mem halloc
      obtain rfl := (Prod.mk.inj hr).2
      refine ⟨a, rfl, ?_⟩
      have hentry : Function.update z₁.mem a { z₁.mem a with expiresAtMsec := expiresAtMsec } a =
          ⟨crc32 key, key, value, expiresAtMsec⟩ := by
        rw [Function.update_self, hmem]
      cases found with
      | none =>
        exact ⟨congrArg ShmNode.key hentry, congrArg ShmNode.value hentry,
          congrArg ShmNode.expiresAtMsec hentry⟩
      | some e =>
        exact ⟨congrArg ShmNode.key hentry, congrArg ShmNode.value hentry,
          congrArg ShmNode.expiresAtMsec hentry⟩
  unfold setLocked at h
  split at h
  · rw [if_neg Bool.false_ne_true] at h
    exact hnew _ _ h
  · rename_i a z₀ hlive
    rw [if_neg Bool.false_ne_true] at h
    split at h
    · obtain rfl := (Prod.mk.inj h).2
      refine ⟨a, rfl, ?_⟩
      have hkey : (z₀.mem a).key = key := by
        rcases lookupLive_cases rb nowMsec key (crc32 key) z with ⟨b, hb, hl, -⟩ | ⟨z₁, hb, -⟩
        · rw [hlive] at hb
          cases hb
          exact (lookupCmp_eq_iff.mp (BinTree.search_some hl).2).2.symm
        · rw [hlive] at hb
          cases hb
      rw [overwrite_mem]
      exact ⟨hkey, rfl, rfl⟩
    · exact hnew _ _ h

theorem shmSetEx_head {ttlMsec : UInt64}
    (h : (shmSetEx rb crc32 nowMsec key value ttlMsec z).1.rc = wasmOk) :
    keyValid key = true ∧ ∃ a, (shmSetEx rb crc32 nowMsec key value ttlMsec z).2.lru.head? = some a ∧
      ((shmSetEx rb crc32 nowMsec key value ttlMsec z).2.mem a).key = key ∧
      ((shmSetEx rb crc32 nowMsec key value ttlMsec z).2.mem a).value = value ∧
      ((shmSetEx rb crc32 nowMsec key value ttlMsec z).2.mem a).expiresAtMsec =
        deadline nowMsec ttlMsec := by
  unfold shmSetEx shmWrite at *
  split at h
  · cases h
  · rename_i hvalid
    rw [if_neg hvalid]
    simp only [Bool.or_eq_true, Bool.not_eq_true', not_or, Bool.not_eq_false] at hvalid
    refine ⟨hvalid.1, ?_⟩
    split at h
    rename_i rc z' hset
    obtain rfl : rc = wasmOk := h
    exact setLocked_head hset

end Write

/-! ## What a reading reports -/

section Reading

variable {S : SlabPool} {rb : Rbtree} {crc32 : Bytes → UInt32} {now : UInt64} {key : Bytes}
  {a : Addr} {z : Zone S}

/-- At the clock `now`, `get` and `exists` find the entry `a` under its key, and it is live. -/
structure ReportsLive (rb : Rbtree) (crc32 : Bytes → UInt32) (key : Bytes) (a : Addr) (z : Zone S)
    (now : UInt64) : Prop where
  found : (lookupLive rb now key (crc32 key) z).1 = some a
  «exists» : (shmExists rb crc32 now key z).1 = ⟨1, []⟩
  get : ∀ bufLen, (shmGet rb crc32 now key bufLen z).1 =
    ⟨(z.mem a).value.length, (z.mem a).value.take bufLen⟩

/-- At the clock `now`, `get` and `exists` find nothing under the key. -/
structure ReportsExpired (rb : Rbtree) (crc32 : Bytes → UInt32) (key : Bytes) (z : Zone S)
    (now : UInt64) : Prop where
  found : (lookupLive rb now key (crc32 key) z).1 = none
  «exists» : (shmExists rb crc32 now key z).1 = ⟨0, []⟩
  get : ∀ bufLen, (shmGet rb crc32 now key bufLen z).1 = ⟨wasmNotFound, []⟩

theorem isExpired_eq_false_iff {entry : ShmNode} (h : entry.expiresAtMsec ≠ 0) :
    isExpired entry now = false ↔ now < entry.expiresAtMsec := by
  unfold isExpired
  rw [if_neg h, decide_eq_false_iff_not]
  exact UInt64.not_le

/-- What `exists` returns, by what the live lookup finds. -/
theorem shmExists_reply {r : Option Addr} {z' : Zone S} (hv : keyValid key = true)
    (h : lookupLive rb now key (crc32 key) z = (r, z')) :
    (shmExists rb crc32 now key z).1 = ⟨if r.isSome then 1 else 0, []⟩ := by
  unfold shmExists
  rw [hv, h]
  cases r <;> rfl

/-- What `get` returns. A touch changes no entry. -/
theorem shmGet_reply {r : Option Addr} {z' : Zone S} (hv : keyValid key = true)
    (h : lookupLive rb now key (crc32 key) z = (r, z')) (bufLen : Nat) :
    (shmGet rb crc32 now key bufLen z).1 = r.elim ⟨wasmNotFound, []⟩ fun a =>
      ⟨(z'.mem a).value.length, (z'.mem a).value.take bufLen⟩ := by
  unfold shmGet
  rw [hv, h]
  cases r <;> rfl

/-- The entry is live exactly if the lookup finds it and the clock is below its deadline. -/
theorem reportsLive_iff (hv : keyValid key = true) (h : (z.mem a).expiresAtMsec ≠ 0) :
    ReportsLive rb crc32 key a z now ↔
      lookup key (crc32 key) z = some a ∧ now < (z.mem a).expiresAtMsec := by
  rw [← isExpired_eq_false_iff h]
  constructor
  · rintro ⟨hfound, -, -⟩
    rcases lookupLive_cases rb now key (crc32 key) z with ⟨b, hb, hl, hlive⟩ | ⟨z₁, hb, -⟩
    · rw [hb] at hfound
      obtain rfl := Option.some.inj hfound
      exact ⟨hl, hlive⟩
    · rw [hb] at hfound
      cases hfound
  · rintro ⟨hl, hlive⟩
    have hll : lookupLive rb now key (crc32 key) z = (some a, z) := lookupLive_of_live hl hlive
    exact ⟨by rw [hll], shmExists_reply hv hll, shmGet_reply hv hll⟩

/-- An entry that the lookup finds is expired exactly from its deadline on. -/
theorem reportsExpired_iff (hv : keyValid key = true) (h : (z.mem a).expiresAtMsec ≠ 0)
    (hl : lookup key (crc32 key) z = some a) :
    ReportsExpired rb crc32 key z now ↔ (z.mem a).expiresAtMsec ≤ now := by
  have hexp : isExpired (z.mem a) now = true ↔ (z.mem a).expiresAtMsec ≤ now := by
    rw [← UInt64.not_lt, ← isExpired_eq_false_iff h, Bool.not_eq_false]
  rw [← hexp]
  constructor
  · rintro ⟨hfound, -, -⟩
    rcases lookupLive_cases rb now key (crc32 key) z with
      ⟨b, hb, -, -⟩ | ⟨z₁, -, ⟨hnone, -⟩ | ⟨b, hl', hlive, -⟩⟩
    · rw [hb] at hfound
      cases hfound
    · rw [hl] at hnone
      cases hnone
    · obtain rfl := Option.some.inj (hl.symm.trans hl')
      exact hlive
  · intro hlive
    have hll : lookupLive rb now key (crc32 key) z = (none, deleteLocked rb a z) := by
      unfold lookupLive
      rw [hl]
      exact if_pos hlive
    exact ⟨by rw [hll], shmExists_reply hv hll, shmGet_reply hv hll⟩

/-- The store is right about the entry at every reading of the `2 ^ (w - 1)` milliseconds from `t`
on. -/
structure ExpiresOnTime (rb : Rbtree) (crc32 : Bytes → UInt32) (key : Bytes) (a : Addr) (z : Zone S)
    (w t ttl : Nat) : Prop where
  live : ∀ d < ttl, ReportsLive rb crc32 key a z (reading w t d)
  expired : ∀ d, ttl ≤ d → d < 2 ^ (w - 1) → ReportsExpired rb crc32 key z (reading w t d)

/-- The store is right where the lookup finds the entry and the deadline is. -/
theorem expiresOnTime_iff {w t ttl : Nat} (hpos : 0 < ttl) (hv : keyValid key = true)
    (h : (z.mem a).expiresAtMsec ≠ 0) :
    ExpiresOnTime rb crc32 key a z w t ttl ↔
      lookup key (crc32 key) z = some a ∧ Timely w t ttl (z.mem a).expiresAtMsec := by
  constructor
  · rintro ⟨hlive, hexpired⟩
    have hl := ((reportsLive_iff hv h).mp (hlive 0 hpos)).1
    exact ⟨hl, fun d hd => ((reportsLive_iff hv h).mp (hlive d hd)).2,
      fun d hd hd' => (reportsExpired_iff hv h hl).mp (hexpired d hd hd')⟩
  · rintro ⟨hl, hlive, hexpired⟩
    exact ⟨fun d hd => (reportsLive_iff hv h).mpr ⟨hl, hlive d hd⟩,
      fun d hd hd' => (reportsExpired_iff hv h hl).mpr (hexpired d hd hd')⟩

/-- A call leaves the entry `a` linked and as it is. -/
structure Leaves (rb : Rbtree) (crc32 : Bytes → UInt32) (a : Addr) (z : Zone S) (c : Call) : Prop where
  linked : a ∈ (callStep rb crc32 z c).lru
  same : (callStep rb crc32 z c).mem a = z.mem a

instance (z : Zone S) (c : Call) : Decidable (Leaves rb crc32 a z c) :=
  decidable_of_iff (a ∈ (callStep rb crc32 z c).lru ∧ (callStep rb crc32 z c).mem a = z.mem a)
    ⟨fun h => ⟨h.1, h.2⟩, fun h => ⟨h.linked, h.same⟩⟩

/-- Calls that leave the entry leave it. -/
theorem leaves_run {calls : List Call} (hhead : a ∈ z.lru)
    (h : Meets (callStep rb crc32) (Leaves rb crc32 a) z calls) :
    a ∈ (runCalls rb crc32 z calls).lru ∧ (runCalls rb crc32 z calls).mem a = z.mem a :=
  @Meets.invariant _ _ (callStep rb crc32) (Leaves rb crc32 a)
    (fun z' => a ∈ z'.lru ∧ z'.mem a = z.mem a) z calls h ⟨hhead, rfl⟩
    fun _ _ hz hc => ⟨hc.linked, hc.same.trans hz.2⟩

end Reading

/-- **When entries expire on time.** In every zone the store reaches, for a `set_ex` that succeeds at any
clock value with any positive time to live, and over any further calls that leave its entry: `get` and
`exists` report the entry live before its time is over and expired after it, at every reading of the
`2 ^ (w - 1)` milliseconds from then on, exactly if the clock does not come to its end in them and the
lookup finds the entry. It does wherever no other entry has the CRC-32 of the key. -/
theorem expires_on_time_iff (S : SlabPool) (rb : Rbtree) (crc32 : Bytes → UInt32)
    (mem : Addr → ShmNode) (pool : S.State) (before : List Call) (key value : Bytes) (w t ttl : Nat)
    (hw : w = 32 ∨ w = 64) (ht : t < 2 ^ w) (hpos : 1 ≤ ttl) (httl : ttl < 2 ^ 31)
    (hset : (shmSetEx rb crc32 (UInt64.ofNat t) key value (UInt64.ofNat ttl)
      (runCalls rb crc32 (emptyZone mem pool) before)).1.rc = wasmOk) :
    let z₁ := (shmSetEx rb crc32 (UInt64.ofNat t) key value (UInt64.ofNat ttl)
      (runCalls rb crc32 (emptyZone mem pool) before)).2
    ∃ a, z₁.lru.head? = some a ∧ (z₁.mem a).key = key ∧ (z₁.mem a).value = value ∧
      ∀ calls, Meets (callStep rb crc32) (Leaves rb crc32 a) z₁ calls →
        let z := runCalls rb crc32 z₁ calls
        (ExpiresOnTime rb crc32 key a z w t ttl ↔
          t ≤ 2 ^ (w - 1) ∧ lookup key (crc32 key) z = some a) ∧
        (Sole crc32 key z → lookup key (crc32 key) z = some a) := by
  intro z₁
  obtain ⟨hv, a, hhead, hkey, hvalue, hexpires⟩ := shmSetEx_head hset
  refine ⟨a, hhead, hkey, hvalue, fun calls hcalls => ?_⟩
  intro z
  obtain ⟨hlinked, hsame⟩ := leaves_run (List.mem_of_mem_head? hhead) hcalls
  constructor
  · have hmem : (z.mem a).expiresAtMsec = deadline (UInt64.ofNat t) (UInt64.ofNat ttl) := by
      rw [← hexpires]
      exact congrArg ShmNode.expiresAtMsec hsame
    have hne : (z.mem a).expiresAtMsec ≠ 0 := by
      intro hzero
      have hnat := toNat_deadline hw ht hpos httl
      rw [← hmem, hzero, UInt64.toNat_zero] at hnat
      split at hnat <;> omega
    rw [expiresOnTime_iff hpos hv hne, hmem, timely_iff hw ht hpos httl]
    exact and_comm
  · intro hsole
    have hz : z = runCalls rb crc32 (emptyZone mem pool)
        (before ++ (UInt64.ofNat t, .setEx key value (UInt64.ofNat ttl)) :: calls) := by
      unfold runCalls
      rw [List.foldl_append]
      rfl
    obtain ⟨hwf, hhashed⟩ : Wf (S.allocated pool) z ∧ Hashed crc32 z := by
      rw [hz]
      exact hashed_of_run _
    have hk : (z.mem a).key = key := (congrArg ShmNode.key hsame).trans hkey
    exact ((hsole.clear hwf hhashed).lookup_iff (hsole.alone hlinked hk)).mpr ⟨hlinked, hk⟩

/-- On a 32-bit clock, an entry that was read once in its half second, in a zone with another key. -/
theorem expires_on_time_iff_half_second :
    let z : Zone (SlabPool.ofCapacity 2) := runCalls .unbalanced crc32Short
      (shmSetEx .unbalanced crc32Short (UInt64.ofNat 1000) [107] [49] (UInt64.ofNat 500)
        (runCalls .unbalanced crc32Short (emptyZone (fun _ => ⟨0, [], [], 0⟩) [])
          [(900, .set [120] [50])])).2 [(1200, .get [107] 8)]
    ∃ a, ExpiresOnTime .unbalanced crc32Short [107] a z 32 1000 500 := by
  intro z
  obtain ⟨a, hhead, -, -, h⟩ := expires_on_time_iff (.ofCapacity 2) .unbalanced crc32Short
    (fun _ => ⟨0, [], [], 0⟩) [] [(900, .set [120] [50])] [107] [49] 32 1000 500 (.inl rfl)
    (by decide) (by decide) (by decide) (by decide +kernel)
  have ha : 2 = a := by
    refine Option.some.inj (Eq.trans ?_ hhead)
    decide +kernel
  subst ha
  obtain ⟨hiff, hfound⟩ := h [(1200, .get [107] 8)] (by decide +kernel)
  exact ⟨2, hiff.mpr ⟨by decide, hfound (by decide +kernel)⟩⟩

/-- **Past the end of the clock.** Half a second to live on a 32-bit clock one second before its end: at
the end, a second later, the entry is live again. One millisecond to live at the last value of a 64-bit
clock: the entry is expired at once, and live at the next reading. -/
theorem expired_entry_live_again :
    let key : Bytes := [107]
    let write (t ttl : Nat) : Reply × Zone (SlabPool.ofCapacity 2) :=
      shmSetEx .unbalanced crc32Short (UInt64.ofNat t) key [49] (UInt64.ofNat ttl)
        (emptyZone (fun _ => ⟨0, [], [], 0⟩) [])
    let existsAt (w t ttl d : Nat) : Int :=
      (shmExists .unbalanced crc32Short (reading w t d) key (write t ttl).2).1.rc
    ((write (2 ^ 32 - 1000) 500).1.rc = wasmOk ∧ existsAt 32 (2 ^ 32 - 1000) 500 999 = 0 ∧
      existsAt 32 (2 ^ 32 - 1000) 500 1000 = 1) ∧
    (write (2 ^ 64 - 1) 1).1.rc = wasmOk ∧ existsAt 64 (2 ^ 64 - 1) 1 0 = 0 ∧
      existsAt 64 (2 ^ 64 - 1) 1 1 = 1 := by
  decide +kernel

end NgxWasm.Shm
