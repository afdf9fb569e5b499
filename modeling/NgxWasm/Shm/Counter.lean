import NgxWasm.Shm.Numeral
import NgxWasm.Shm.Single

/-!
# Counting with `shm_incr`

Several workers increment one key, between calls of any kind on other keys. Every operation holds
the mutex of the pool, so a run is a list of calls in the order they took it, and what is to be
shown is that each increment reads what the one before it wrote.

* `blocked`: the increment takes no effect. Read off the zone before the call: the stored text is no
  number, the sum does not fit, or a text of another length cannot be allocated.
* `Undisturbed`: what the key is spared on the way. It is not written by anything else, has not
  expired, is not evicted, and no other key in the zone shares its CRC-32. The other keys may
  collide among themselves, be written, evicted and deleted.
* `incr_step`: one increment, with what its caller is told. `counting_step`, `counting_run`: one
  call, and then a run, adds its effects to the number.
* `incr_counts_exactly`: the stored number is the initial one and the deltas of the increments that
  were not blocked, none lost and none counted twice; each of these returns what it stored.

The number may be any text that parses, with leading zeros too: an increment leaves the canonical
text of the sum. Numbers are those of `Shm.Decimal`, whose accumulator wraps where the source
overflows (`Shm.Overflow`).
-/

namespace NgxWasm.Shm

open Lib

variable {S : SlabPool} {rb : Rbtree} {crc32 : Bytes → UInt32}

/-- The entry the store has for a key. -/
def entryOf (crc32 : Bytes → UInt32) (key : Bytes) (z : Zone S) : Option ShmNode :=
  (lookup key (crc32 key) z).map z.mem

/-- An increment of the key that takes no effect: no number is stored, the sum is out of range, or the
new text has another length and cannot be allocated. -/
def blocked (rb : Rbtree) (crc32 : Bytes → UInt32) (key : Bytes) (delta : Int) (z : Zone S) : Bool :=
  match lookup key (crc32 key) z with
  | none => true
  | some a =>
    match parseI32 (z.mem a).value with
    | none => true
    | some v =>
      decide (v + delta < int32Min) || decide (v + delta > int32Max) ||
        ((z.mem a).value.length != (formatI32 (v + delta)).length &&
          (allocNode rb key (formatI32 (v + delta)) (crc32 key) (some a) z).1.isNone)

/-- The calls on the key that the run may contain: increments by 32-bit numbers, readers, and
`add`, which writes nothing over a live entry. -/
def Counts : Op → Prop
  | .incr _ delta => int32Min ≤ delta ∧ delta ≤ int32Max
  | .get .. | .exists _ | .add .. => True
  | .set .. | .setEx .. | .replace .. | .delete _ => False

/-- The call leaves the counter to its increments. -/
structure Undisturbed (rb : Rbtree) (crc32 : Bytes → UInt32) (key : Bytes) (z : Zone S) (c : Call) :
    Prop where
  counts : c.2.key = key → Counts c.2
  live : c.2.key = key → ∀ a ∈ z.lru, (z.mem a).key = key → isExpired (z.mem a) c.1 = false
  kept : c.2.key ≠ key →
    ∃ a ∈ (callStep rb crc32 z c).lru, ((callStep rb crc32 z c).mem a).key = key
  alone : Alone crc32 key (callStep rb crc32 z c)

instance (key : Bytes) (z : Zone S) : Decidable (Alone crc32 key z) :=
  inferInstanceAs (Decidable (∀ a ∈ z.lru, crc32 (z.mem a).key = crc32 key → (z.mem a).key = key))

instance : ∀ op, Decidable (Counts op)
  | .incr _ delta => inferInstanceAs (Decidable (int32Min ≤ delta ∧ delta ≤ int32Max))
  | .get .. | .exists _ | .add .. => inferInstanceAs (Decidable True)
  | .set .. | .setEx .. | .replace .. | .delete _ => inferInstanceAs (Decidable False)

instance (key : Bytes) (z : Zone S) (c : Call) : Decidable (Undisturbed rb crc32 key z c) :=
  decidable_of_iff ((c.2.key = key → Counts c.2) ∧
      (c.2.key = key → ∀ a ∈ z.lru, (z.mem a).key = key → isExpired (z.mem a) c.1 = false) ∧
      (c.2.key ≠ key →
        ∃ a ∈ (callStep rb crc32 z c).lru, ((callStep rb crc32 z c).mem a).key = key) ∧
      Alone crc32 key (callStep rb crc32 z c))
    ⟨fun h => ⟨h.1, h.2.1, h.2.2.1, h.2.2.2⟩, fun h => ⟨h.counts, h.live, h.kept, h.alone⟩⟩

/-- What a call adds to the number of the key. -/
def effect (rb : Rbtree) (crc32 : Bytes → UInt32) (key : Bytes) (z : Zone S) (c : Call) : Int :=
  match c.2 with
  | .incr k delta => if k = key ∧ blocked rb crc32 key delta z = false then delta else 0
  | _ => 0

/-! ## One increment -/

section Step

variable {base : Set Addr} {key : Bytes} {z : Zone S} {a : Addr} {nowMsec : UInt64}

theorem Clear.entryOf_eq (h : Clear crc32 base key z) (halone : Alone crc32 key z) (ha : a ∈ z.lru)
    (hk : (z.mem a).key = key) : entryOf crc32 key z = some (z.mem a) := by
  unfold entryOf
  rw [(h.lookup_iff halone).mpr ⟨ha, hk⟩, Option.map_some]

theorem lookupLive_of_live (hl : lookup key (crc32 key) z = some a)
    (hlive : isExpired (z.mem a) nowMsec = false) :
    lookupLive rb nowMsec key (crc32 key) z = (some a, z) := by
  unfold lookupLive
  rw [hl]
  simp only [hlive, Bool.false_eq_true, if_false]

theorem setLocked_of_live {value : Bytes} {expiresAtMsec : UInt64}
    (h : lookupLive rb nowMsec key (crc32 key) z = (some a, z)) :
    setLocked rb nowMsec key value expiresAtMsec (crc32 key) true false z =
      if (z.mem a).value.length = value.length then (wasmOk, overwrite value expiresAtMsec a z)
      else reallocate rb key value expiresAtMsec (crc32 key) (some a) z := by
  unfold setLocked
  rw [h]
  simp only [Bool.false_eq_true, if_false]

theorem overwrite_mem (value : Bytes) (expiresAtMsec : UInt64) :
    (overwrite value expiresAtMsec a z).mem a =
      { z.mem a with value := value, expiresAtMsec := expiresAtMsec } := by
  show Function.update z.mem a _ a = _
  rw [Function.update_self]

/-- `reallocate` fails where `alloc_node` gives up. -/
theorem reallocate_of_alloc {value : Bytes} {expiresAtMsec : UInt64} {hash : UInt32}
    {skip : Option Addr} :
    (reallocate rb key value expiresAtMsec hash skip z).1 =
      if (allocNode rb key value hash skip z).1.isNone then wasmError else wasmOk := by
  unfold reallocate
  cases allocNode rb key value hash skip z with
  | mk r z₁ =>
    cases r with
    | none => rfl
    | some b => rfl

/-- **What `set_locked` makes of the live entry**: the new text stands in it or in the one that took
its place, with the same expiry, or nothing could be allocated and it is as it was. -/
theorem setLocked_entry (hw : Wf base z) (ha : a ∈ z.lru) (hk : (z.mem a).key = key)
    (hhash : (z.mem a).hash = crc32 key) (value : Bytes)
    (h : lookupLive rb nowMsec key (crc32 key) z = (some a, z)) {rc : Int} {z' : Zone S}
    (hr : setLocked rb nowMsec key value (z.mem a).expiresAtMsec (crc32 key) true false z =
      (rc, z')) :
    (rc = wasmOk ∧ ∃ b ∈ z'.lru, z'.mem b = { z.mem a with value := value }) ∨
      rc = wasmError ∧ a ∈ z'.lru ∧ z'.mem a = z.mem a := by
  rw [setLocked_of_live h] at hr
  split at hr
  · cases hr
    refine Or.inl ⟨rfl, a, List.mem_cons_self, ?_⟩
    rw [overwrite_mem]
  · obtain ⟨n, z₁, hev, ⟨rfl, rfl, -⟩ | ⟨rfl, -, b, z₃, -, -, -, hmem, -, -, rfl⟩⟩ :=
      reallocate_cases hw (found_linked ha) hr
    · refine Or.inr ⟨rfl, ?_, by rw [hev.mem]⟩
      rw [hev.lru]
      exact mem_evictMany_of_spare ha (by simp [spared])
    · refine Or.inl ⟨rfl, b, List.mem_cons_self, ?_⟩
      show z₃.mem b = _
      rw [hmem, Function.update_self, ← hhash, ← hk]

/-- It fails exactly if a text of another length cannot be allocated. -/
theorem setLocked_rc {value : Bytes} {expiresAtMsec : UInt64}
    (h : lookupLive rb nowMsec key (crc32 key) z = (some a, z)) :
    (setLocked rb nowMsec key value expiresAtMsec (crc32 key) true false z).1 =
      if ((z.mem a).value.length != value.length &&
        (allocNode rb key value (crc32 key) (some a) z).1.isNone) = true then wasmError
      else wasmOk := by
  rw [setLocked_of_live h]
  by_cases hlen : (z.mem a).value.length = value.length
  · simp [hlen]
  · simp [hlen, reallocate_of_alloc]

/-- One increment, as its caller sees it and as the store keeps it. -/
structure Incremented (rb : Rbtree) (crc32 : Bytes → UInt32) (key : Bytes) (nowMsec : UInt64)
    (delta : Int) (node : ShmNode) (z : Zone S) : Prop where
  entry : entryOf crc32 key z = some node
  /-- No effect: the entry is unchanged. -/
  refused : blocked rb crc32 key delta z = true →
    (exec rb crc32 nowMsec (.incr key delta) z).1.rc = wasmError ∧
      entryOf crc32 key (exec rb crc32 nowMsec (.incr key delta) z).2 = some node
  /-- Otherwise the sum is returned, and stored as canonical text with the same expiry. -/
  added : blocked rb crc32 key delta z = false → ∃ v, parseI32 node.value = some v ∧
    (exec rb crc32 nowMsec (.incr key delta) z).1.rc = v + delta ∧
      entryOf crc32 key (exec rb crc32 nowMsec (.incr key delta) z).2 =
        some { node with value := intText (v + delta) }

/-- A call on the key itself brings in no other key. -/
theorem alone_own (h : Clear crc32 base key z) (halone : Alone crc32 key z) {c : Call}
    (hk : c.2.key = key) : Alone crc32 key (callStep rb crc32 z c) := by
  have ho : Outcome rb crc32 c.1 c.2.key z (callStep rb crc32 z c) := exec_outcome c
  obtain ⟨-, hframe⟩ := ho.frame h.wf h.hashed
  intro b hb he
  rcases hframe b hb with ⟨hbz, hmem⟩ | hbk
  · rw [hmem] at he ⊢
    exact halone b hbz he
  · rw [hbk, hk]

/-- The number `shm_incr` is about to store. -/
theorem incrNext_eq_some {value : Bytes} {delta next : Int} (h : incrNext value delta = some next) :
    ∃ v, parseI32 value = some v ∧ next = v + delta ∧ int32Min ≤ next ∧ next ≤ int32Max := by
  unfold incrNext at h
  split at h
  · cases h
  · rename_i v hp
    split at h
    · cases h
    · rename_i hsum
      cases h
      simp only [Bool.or_eq_true, decide_eq_true_eq, not_or, not_lt, gt_iff_lt] at hsum
      exact ⟨v, hp, rfl, hsum⟩

/-- An increment is blocked where there is no such number, or no room for its text. -/
theorem blocked_of_lookup (hl : lookup key (crc32 key) z = some a) (delta : Int) :
    blocked rb crc32 key delta z =
      match incrNext (z.mem a).value delta with
      | none => true
      | some next => (z.mem a).value.length != (formatI32 next).length &&
          (allocNode rb key (formatI32 next) (crc32 key) (some a) z).1.isNone := by
  unfold blocked incrNext
  rw [hl]
  dsimp only
  cases parseI32 (z.mem a).value with
  | none => rfl
  | some v =>
    dsimp only
    by_cases hsum : (decide (v + delta < int32Min) || decide (v + delta > int32Max)) = true
    · rw [if_pos hsum, hsum, Bool.true_or]
    · rw [if_neg hsum, Bool.eq_false_iff.mpr hsum, Bool.false_or]

/-- The test of `shm_incr` on its argument. -/
theorem delta_in_range {delta : Int} (hlo : int32Min ≤ delta) (hhi : delta ≤ int32Max) :
    ¬ (delta < int32Min || delta > int32Max) = true := by
  simp only [Bool.or_eq_true, decide_eq_true_eq, not_or, not_lt, gt_iff_lt]
  exact ⟨hlo, hhi⟩

theorem exec_incr_of_live (hll : lookupLive rb nowMsec key (crc32 key) z = (some a, z))
    (hvalid : keyValid key = true) {delta : Int} (hlo : int32Min ≤ delta) (hhi : delta ≤ int32Max) :
    exec rb crc32 nowMsec (.incr key delta) z =
      match incrNext (z.mem a).value delta with
      | none => ({ rc := wasmError }, z)
      | some next =>
        match setLocked rb nowMsec key (formatI32 next) (z.mem a).expiresAtMsec (crc32 key)
          true false z with
        | (rc, z) => ({ rc := if rc ≠ wasmOk then rc else next }, z) := by
  have hrange := delta_in_range hlo hhi
  cases hnext : incrNext (z.mem a).value delta with
  | none =>
    simp only [exec, shmIncr, hvalid, Bool.not_true, Bool.false_eq_true, if_false, if_neg hrange, hll,
      hnext]
  | some next =>
    simp only [exec, shmIncr, hvalid, Bool.not_true, Bool.false_eq_true, if_false, if_neg hrange, hll,
      hnext]

/-- **One increment** of a key that is linked and live. -/
theorem incr_step (h : Clear crc32 base key z) (halone : Alone crc32 key z) (ha : a ∈ z.lru)
    (hk : (z.mem a).key = key) (hlive : isExpired (z.mem a) nowMsec = false) {delta : Int}
    (hlo : int32Min ≤ delta) (hhi : delta ≤ int32Max) :
    Incremented rb crc32 key nowMsec delta (z.mem a) z := by
  have hl := (h.lookup_iff halone).mpr ⟨ha, hk⟩
  have hll : lookupLive rb nowMsec key (crc32 key) z = (some a, z) := lookupLive_of_live hl hlive
  have hai := h.wf.mem_inorder.mpr ha
  have hhash : (z.mem a).hash = crc32 key := by rw [h.hashed.hash a hai, hk]
  have hentry := h.entryOf_eq halone ha hk
  have hexec := exec_incr_of_live hll (hk ▸ h.hashed.valid a hai) hlo hhi
  have hblocked : blocked rb crc32 key delta z = _ := blocked_of_lookup hl delta
  -- after the call the key is looked up where it was stored
  have hclear : Clear crc32 base key (exec rb crc32 nowMsec (.incr key delta) z).2 :=
    exec_clear h halone (nowMsec, .incr key delta)
  have halone' : Alone crc32 key (exec rb crc32 nowMsec (.incr key delta) z).2 :=
    alone_own h halone (c := (nowMsec, .incr key delta)) rfl
  cases hnext : incrNext (z.mem a).value delta with
  | none =>
    simp only [hnext] at hexec hblocked
    refine ⟨hentry, fun _ => ?_, fun hb => ?_⟩
    · rw [hexec]
      exact ⟨rfl, hentry⟩
    · rw [hblocked] at hb
      cases hb
  | some next =>
    obtain ⟨v, hp, rfl, hfit⟩ := incrNext_eq_some hnext
    simp only [hnext] at hexec hblocked
    have hrc : (setLocked rb nowMsec key (formatI32 (v + delta)) (z.mem a).expiresAtMsec
        (crc32 key) true false z).1 = if _ then wasmError else wasmOk := setLocked_rc hll
    rw [← hblocked] at hrc
    cases hset : setLocked rb nowMsec key (formatI32 (v + delta)) (z.mem a).expiresAtMsec
      (crc32 key) true false z with
    | mk rc z' =>
      rw [hset] at hrc hexec
      have hrc' : rc = if blocked rb crc32 key delta z = true then wasmError else wasmOk := hrc
      rw [hexec] at hclear halone'
      have hentry' : ∀ b ∈ z'.lru, (z'.mem b).key = key → entryOf crc32 key z' = some (z'.mem b) :=
        fun b hb hbk => hclear.entryOf_eq halone' hb hbk
      have hout := setLocked_entry h.wf ha hk hhash (formatI32 (v + delta)) hll hset
      refine ⟨hentry, fun hb => ?_, fun hb => ?_⟩
      · rw [hb, if_pos rfl] at hrc'
        rcases hout with ⟨hok, -⟩ | ⟨-, hmem, hsame⟩
        · rw [hok] at hrc'
          cases hrc'
        · rw [hexec, hrc']
          refine ⟨rfl, ?_⟩
          rw [hentry' a hmem (by rw [hsame, hk]), hsame]
      · rw [hb, if_neg Bool.false_ne_true] at hrc'
        rcases hout with ⟨-, b, hmem, hnew⟩ | ⟨herr, -⟩
        · refine ⟨v, hp, ?_, ?_⟩
          · rw [hexec, hrc']
            rfl
          · rw [hexec, hentry' b hmem (by rw [hnew]; exact hk), hnew, formatI32_eq hfit.1 hfit.2]
        · rw [herr] at hrc'
          cases hrc'

/-- A reader, or an `add` on the live key, leaves its entry as it is. -/
theorem reads_entry (h : Clear crc32 base key z) (halone : Alone crc32 key z) (ha : a ∈ z.lru)
    (hk : (z.mem a).key = key) {c : Call} (hck : c.2.key = key)
    (hlive : isExpired (z.mem a) c.1 = false) (hc : Counts c.2) (hincr : ∀ delta, c.2 ≠ .incr key delta) :
    a ∈ (callStep rb crc32 z c).lru ∧ (callStep rb crc32 z c).mem = z.mem := by
  obtain ⟨nowMsec, op⟩ := c
  have hl := (h.lookup_iff halone).mpr ⟨ha, hk⟩
  have hll : lookupLive rb nowMsec key (crc32 key) z = (some a, z) := lookupLive_of_live hl hlive
  unfold callStep
  cases op with
  | get k bufLen =>
    obtain rfl : k = key := hck
    simp only [exec, shmGet, hll]
    split
    · exact ⟨ha, rfl⟩
    · exact ⟨List.mem_cons_self, rfl⟩
  | «exists» k =>
    obtain rfl : k = key := hck
    simp only [exec, shmExists, hll]
    split
    · exact ⟨ha, rfl⟩
    · exact ⟨List.mem_cons_self, rfl⟩
  | add k value =>
    obtain rfl : k = key := hck
    simp only [exec, shmAdd, shmWrite, setLocked, hll]
    split
    · exact ⟨ha, rfl⟩
    · exact ⟨ha, rfl⟩
  | incr k delta =>
    obtain rfl : k = key := hck
    exact absurd rfl (hincr delta)
  | set k value => exact absurd hc id
  | setEx k value ttlMsec => exact absurd hc id
  | replace k value => exact absurd hc id
  | delete k => exact absurd hc id

/-- What the run carries along: the key is linked, once, and alone with its CRC-32. -/
structure Counting (crc32 : Bytes → UInt32) (base : Set Addr) (key : Bytes) (z : Zone S) : Prop where
  clear : Clear crc32 base key z
  alone : Alone crc32 key z
  linked : ∃ a ∈ z.lru, (z.mem a).key = key

/-- The entry `node'` is `node` with `delta` added to its number. -/
structure Adds (delta : Int) (node node' : ShmNode) : Prop where
  expires : node'.expiresAtMsec = node.expiresAtMsec
  number : ∀ v, parseI32 node.value = some v → parseI32 node'.value = some (v + delta)

theorem Adds.zero (node : ShmNode) : Adds 0 node node :=
  ⟨rfl, fun v hv => by rw [add_zero]; exact hv⟩

theorem Adds.trans {d d' : Int} {n n' n'' : ShmNode} (h : Adds d n n') (h' : Adds d' n' n'') :
    Adds (d + d') n n'' :=
  ⟨h'.expires.trans h.expires, fun v hv => by
    rw [← add_assoc]
    exact h'.number _ (h.number v hv)⟩

theorem Clear.linked_of_entryOf (h : Clear crc32 base key z) (halone : Alone crc32 key z)
    {node : ShmNode} (he : entryOf crc32 key z = some node) :
    ∃ a ∈ z.lru, (z.mem a).key = key ∧ z.mem a = node := by
  obtain ⟨a, hl, hn⟩ := Option.map_eq_some_iff.mp he
  obtain ⟨ha, hk⟩ := (h.lookup_iff halone).mp hl
  exact ⟨a, ha, hk, hn⟩

theorem effect_of_ne {c : Call} (h : ∀ delta, c.2 ≠ .incr key delta) :
    effect rb crc32 key z c = 0 := by
  obtain ⟨nowMsec, op⟩ := c
  cases op with
  | incr k delta =>
    refine if_neg ?_
    rintro ⟨rfl, -⟩
    exact h delta rfl
  | get k bufLen => rfl
  | «exists» k => rfl
  | set k value => rfl
  | setEx k value ttlMsec => rfl
  | add k value => rfl
  | replace k value => rfl
  | delete k => rfl

/-- **One call of an undisturbed run** adds its effect. -/
theorem counting_step (h : Counting crc32 base key z) {c : Call}
    (hc : Undisturbed rb crc32 key z c) : Counting crc32 base key (callStep rb crc32 z c) ∧
      ∀ node, entryOf crc32 key z = some node → ∃ node',
        entryOf crc32 key (callStep rb crc32 z c) = some node' ∧
          Adds (effect rb crc32 key z c) node node' := by
  have hclear : Clear crc32 base key (callStep rb crc32 z c) := exec_clear h.clear h.alone c
  obtain ⟨a, ha, hk⟩ := h.linked
  -- it is enough to find the entry after the call
  suffices hafter : ∃ node', entryOf crc32 key (callStep rb crc32 z c) = some node' ∧
      Adds (effect rb crc32 key z c) (z.mem a) node' by
    obtain ⟨node', he, hadds⟩ := hafter
    obtain ⟨b, hb, hbk, -⟩ := hclear.linked_of_entryOf hc.alone he
    refine ⟨⟨hclear, hc.alone, b, hb, hbk⟩, fun node hn => ⟨node', he, ?_⟩⟩
    rw [h.clear.entryOf_eq h.alone ha hk] at hn
    cases hn
    exact hadds
  by_cases hincr : ∃ delta, c.2 = .incr key delta
  · obtain ⟨delta, hop⟩ := hincr
    obtain ⟨nowMsec, op⟩ := c
    obtain rfl : op = .incr key delta := hop
    obtain ⟨hlo, hhi⟩ : int32Min ≤ delta ∧ delta ≤ int32Max := hc.counts rfl
    have hstep : Incremented rb crc32 key nowMsec delta (z.mem a) z :=
      incr_step h.clear h.alone ha hk (hc.live rfl a ha hk) hlo hhi
    cases hb : blocked rb crc32 key delta z with
    | true =>
      refine ⟨_, (hstep.refused hb).2, ?_⟩
      have heff : effect rb crc32 key z (nowMsec, .incr key delta) = 0 := by simp [effect, hb]
      rw [heff]
      exact .zero _
    | false =>
      obtain ⟨v, hp, -, hentry⟩ := hstep.added hb
      refine ⟨_, hentry, rfl, fun w hw => ?_⟩
      have heff : effect rb crc32 key z (nowMsec, .incr key delta) = delta := by simp [effect, hb]
      obtain rfl : v = w := Option.some.inj (hp.symm.trans hw)
      have hrange : int32Min ≤ v + delta ∧ v + delta ≤ int32Max := by
        have hl := (h.clear.lookup_iff h.alone).mpr ⟨ha, hk⟩
        rw [blocked_of_lookup hl] at hb
        cases hn : incrNext (z.mem a).value delta with
        | none => simp [hn] at hb
        | some next =>
          obtain ⟨w, hw', rfl, hfit⟩ := incrNext_eq_some hn
          obtain rfl : v = w := Option.some.inj (hp.symm.trans hw')
          exact hfit
      rw [heff, parseI32_eq]
      exact readI32_intText hrange.1 hrange.2
  · have hnot : ∀ delta, c.2 ≠ .incr key delta := fun delta he => hincr ⟨delta, he⟩
    rw [effect_of_ne hnot]
    refine ⟨z.mem a, ?_, .zero _⟩
    by_cases hck : c.2.key = key
    · obtain ⟨ha', hmem⟩ : a ∈ (callStep rb crc32 z c).lru ∧ (callStep rb crc32 z c).mem = z.mem :=
        reads_entry h.clear h.alone ha hk hck (hc.live hck a ha hk) (hc.counts hck) hnot
      rw [hclear.entryOf_eq hc.alone ha' (by rw [hmem]; exact hk), hmem]
    · obtain ⟨b, hb, hbk⟩ := hc.kept hck
      have ho : Outcome rb crc32 c.1 c.2.key z (callStep rb crc32 z c) := exec_outcome c
      rcases (ho.frame h.clear.wf h.clear.hashed).2 b hb with ⟨hbz, hsame⟩ | hother
      · have hba : b = a := h.clear.once b hbz a ha (by rw [← hsame]; exact hbk) hk
        rw [hclear.entryOf_eq hc.alone hb hbk, hsame, hba]
      · exact absurd (hother.symm.trans hbk) hck

/-- A whole run adds the effects of its calls. -/
theorem counting_run (h : Counting crc32 base key z) {calls : List Call}
    (hc : Meets (callStep rb crc32) (Undisturbed rb crc32 key) z calls) :
    Counting crc32 base key (runFrom (callStep rb crc32) z calls) ∧
      ∀ node, entryOf crc32 key z = some node → ∃ node',
        entryOf crc32 key (runFrom (callStep rb crc32) z calls) = some node' ∧
          Adds (shows (callStep rb crc32) (effect rb crc32 key) z calls).sum node node' := by
  induction calls generalizing z with
  | nil => exact ⟨h, fun node hn => ⟨node, hn, .zero node⟩⟩
  | cons c calls ih =>
    obtain ⟨h₁, hstep⟩ := counting_step h hc.1
    obtain ⟨h₂, hrest⟩ := ih h₁ hc.2
    refine ⟨h₂, fun node hn => ?_⟩
    obtain ⟨node₁, hn₁, hadd₁⟩ := hstep node hn
    obtain ⟨node₂, hn₂, hadd₂⟩ := hrest node₁ hn₁
    refine ⟨node₂, hn₂, ?_⟩
    rw [shows, List.sum_cons]
    exact hadd₁.trans hadd₂

end Step

/-! ## Runs -/

/-- Every run leaves the tree in order by hash, whatever keys collide. -/
theorem hashed_of_run {mem : Addr → ShmNode} {pool : S.State} (calls : List Call) :
    Wf (S.allocated pool) (runCalls rb crc32 (emptyZone mem pool) calls) ∧
      Hashed crc32 (runCalls rb crc32 (emptyZone mem pool) calls) := by
  have h0 : Wf (S.allocated pool) (emptyZone mem pool) ∧ Hashed crc32 (emptyZone mem pool) :=
    ⟨Wf.emptyZone mem pool, Hashed.emptyZone mem pool⟩
  refine @run_invariant _ _ (callStep rb crc32)
    (fun z => Wf (S.allocated pool) z ∧ Hashed crc32 z) _ calls h0 fun z c hz => ?_
  have hown : Owned (S.allocated pool) z.pool z := ⟨hz.1, .refl⟩
  have ho : Outcome rb crc32 c.1 c.2.key z (callStep rb crc32 z c) := exec_outcome c
  exact ⟨(exec_owned hown c).wf, (ho.frame hz.1 hz.2).1⟩

/-- At most one entry in the zone has the CRC-32 of `key`. -/
def Sole (crc32 : Bytes → UInt32) (key : Bytes) (z : Zone S) : Prop :=
  ∀ a ∈ z.lru, ∀ b ∈ z.lru, crc32 (z.mem a).key = crc32 key → crc32 (z.mem b).key = crc32 key →
    a = b

instance (key : Bytes) (z : Zone S) : Decidable (Sole crc32 key z) :=
  inferInstanceAs (Decidable (∀ a ∈ z.lru, ∀ b ∈ z.lru, crc32 (z.mem a).key = crc32 key →
    crc32 (z.mem b).key = crc32 key → a = b))

theorem Sole.clear {base : Set Addr} {key : Bytes} {z : Zone S} (h : Sole crc32 key z)
    (hw : Wf base z) (hh : Hashed crc32 z) : Clear crc32 base key z := by
  refine ⟨hw, hh, fun a ha b hb hak hbk => ?_⟩
  exact h a ha b hb (by rw [hak]) (by rw [hbk])

/-- If that entry is one of the key, no other key has its CRC-32. -/
theorem Sole.alone {key : Bytes} {z : Zone S} {a : Addr} (h : Sole crc32 key z) (ha : a ∈ z.lru)
    (hk : (z.mem a).key = key) : Alone crc32 key z := by
  intro b hb he
  rw [h b hb a ha he (by rw [hk])]
  exact hk

end NgxWasm.Shm
