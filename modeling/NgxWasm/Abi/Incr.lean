import NgxWasm.Abi.Imports
import NgxWasm.Shm.Counter

/-!
# What `ngx_wasm_shm_incr` returns

One number of 32 bits carries the new value and the errors. A call that does nothing returns
`NGX_HTTP_WASM_ERROR`, which is a possible sum like any other.

The question is what a guest can tell from the result alone, without reading the key before and after.
It is asked of pairs of calls, one that takes effect and one that does not, on any two hosts; and of
one call, about what its result says of the value.

* `AddsTo`: the increment takes effect, and on which stored text. `ValueKept`: the value of the key is
  after the call what it was before.
* `exec_incr_adds` and `exec_incr_refused`: the two ways a call on the store ends, in any zone that the
  store reaches.
* `result_of_reaches`: the import returns what the store returns, once it gets that far; else the error.
* `incr_result_tells_iff`: the result of the import tells success from failure exactly for sums other
  than the code of the error.
-/

namespace NgxWasm.Shm

open Lib

/-! ## The store -/

section Store

variable {S : SlabPool} (rb : Rbtree) (crc32 : Bytes → UInt32) (nowMsec : UInt64) (key : Bytes)

/-- An increment of `key` by `delta` finds `text` stored and takes effect. -/
def AddsTo (delta : Int) (text : Bytes) (z : Zone S) : Prop :=
  keyValid key = true ∧ blocked rb crc32 key delta z = false ∧
    ∃ a ∈ foundLive nowMsec key (crc32 key) z, (z.mem a).value = text

/-- The value of `key` is the same in `z'` as in `z`: the live entry that the lookup finds is still
linked, with its value; where it finds none, nothing was linked or written. -/
def ValueKept (z z' : Zone S) : Prop :=
  match foundLive nowMsec key (crc32 key) z with
  | some a => a ∈ z'.lru ∧ (z'.mem a).value = (z.mem a).value
  | none => ∀ a ∈ z'.lru, a ∈ z.lru ∧ z'.mem a = z.mem a

instance (delta : Int) (text : Bytes) (z : Zone S) :
    Decidable (AddsTo rb crc32 nowMsec key delta text z) :=
  inferInstanceAs (Decidable (_ ∧ _ ∧ _))

variable {rb crc32 nowMsec key} {z : Zone S} {a : Addr} {base : Set Addr}

theorem valueKept_some (h : foundLive nowMsec key (crc32 key) z = some a) {z' : Zone S} :
    ValueKept crc32 nowMsec key z z' ↔ a ∈ z'.lru ∧ (z'.mem a).value = (z.mem a).value := by
  unfold ValueKept
  rw [h]

theorem valueKept_self (hw : Wf base z) : ValueKept crc32 nowMsec key z z := by
  unfold ValueKept
  split
  · rename_i a h
    exact ⟨mem_lru_of_lookup hw (foundLive_eq_some.mp h).1, rfl⟩
  · exact fun a ha => ⟨ha, rfl⟩

/-- What a successful `set_locked` on the live entry keeps of it: its value, if it is the new one. -/
theorem setLocked_ok_kept (hw : Wf base z) {value : Bytes} {expiresAtMsec : UInt64}
    (h : foundLive nowMsec key (crc32 key) z = some a) {z' : Zone S}
    (hr : setLocked rb nowMsec key value expiresAtMsec (crc32 key) true false z = (wasmOk, z')) :
    ValueKept crc32 nowMsec key z z' ↔ (z.mem a).value = value := by
  obtain ⟨hl, hlive⟩ := foundLive_eq_some.mp h
  have ha : a ∈ z.lru := mem_lru_of_lookup hw hl
  rw [valueKept_some h]
  rw [setLocked_of_live (lookupLive_of_live hl hlive)] at hr
  split at hr
  · cases hr
    have hmem : a ∈ (overwrite value expiresAtMsec a z).lru := List.mem_cons_self
    rw [overwrite_mem]
    exact ⟨fun hk => hk.2.symm, fun hk => ⟨hmem, hk.symm⟩⟩
  · rename_i hlen
    obtain ⟨n, z₁, hev, ⟨herr, -⟩ | ⟨-, -, b, z₃, -, hb, hw₃, -, hlru, -, rfl⟩⟩ :=
      reallocate_cases hw (found_linked ha) hr
    · cases herr
    · -- the old entry is unlinked, and the new one has another chunk
      have hkept : a ∈ z₁.lru := by
        rw [hev.lru]
        exact mem_evictMany_of_spare ha (by simp [spared])
      have hnodup : z₁.lru.Nodup := by
        rw [hev.lru]
        exact (evictMany_sublist _ n _).nodup hw.nodup
      have hgone : a ∉ (link rb b z₃).lru := by
        show a ∉ b :: z₃.lru
        rw [hlru, List.mem_cons, not_or]
        exact ⟨fun he => hb (he ▸ hkept), hnodup.not_mem_erase⟩
      exact ⟨fun hk => absurd hk.1 hgone, fun hk => absurd (congrArg List.length hk) hlen⟩

/-- A failed one keeps it. -/
theorem setLocked_error_kept (hw : Wf base z) {value : Bytes} {expiresAtMsec : UInt64}
    (h : foundLive nowMsec key (crc32 key) z = some a) {z' : Zone S}
    (hr : setLocked rb nowMsec key value expiresAtMsec (crc32 key) true false z =
      (wasmError, z')) : ValueKept crc32 nowMsec key z z' := by
  obtain ⟨hl, hlive⟩ := foundLive_eq_some.mp h
  have ha : a ∈ z.lru := mem_lru_of_lookup hw hl
  rw [valueKept_some h]
  rw [setLocked_of_live (lookupLive_of_live hl hlive)] at hr
  split at hr
  · cases hr
  · obtain ⟨n, z₁, hev, ⟨-, rfl, -⟩ | ⟨hok, -⟩⟩ := reallocate_cases hw (found_linked ha) hr
    · rw [hev.lru, hev.mem]
      exact ⟨mem_evictMany_of_spare ha (by simp [spared]), rfl⟩
    · cases hok

variable {delta : Int}

/-- **An increment that takes effect** returns its sum, and keeps the value only if its canonical text
was stored already. -/
theorem exec_incr_adds (hlo : int32Min ≤ delta) (hhi : delta ≤ int32Max) {text : Bytes}
    (h : AddsTo rb crc32 nowMsec key delta text z) :
    ∃ n, parseI32 text = some n ∧ int32Min ≤ n + delta ∧ n + delta ≤ int32Max ∧
      (exec rb crc32 nowMsec (.incr key delta) z).1.rc = n + delta ∧
      (∀ base, Wf base z →
        (ValueKept crc32 nowMsec key z (exec rb crc32 nowMsec (.incr key delta) z).2 ↔
          text = formatI32 (n + delta))) := by
  obtain ⟨hvalid, hb, a, hfound, rfl⟩ := h
  obtain ⟨hl, hlive⟩ := foundLive_eq_some.mp hfound
  have hll : lookupLive rb nowMsec key (crc32 key) z = (some a, z) := lookupLive_of_live hl hlive
  have hexec := exec_incr_of_live hll hvalid hlo hhi
  rw [blocked_of_lookup hl] at hb
  cases hnext : incrNext (z.mem a).value delta with
  | none =>
    rw [hnext] at hb
    cases hb
  | some next =>
    obtain ⟨n, hp, rfl, hfit⟩ := incrNext_eq_some hnext
    simp only [hnext] at hexec hb
    have hrc : (setLocked rb nowMsec key (formatI32 (n + delta)) (z.mem a).expiresAtMsec
        (crc32 key) true false z).1 = if _ then wasmError else wasmOk := setLocked_rc hll
    rw [hb, if_neg Bool.false_ne_true] at hrc
    cases hset : setLocked rb nowMsec key (formatI32 (n + delta)) (z.mem a).expiresAtMsec
      (crc32 key) true false z with
    | mk rc z' =>
      rw [hset] at hrc hexec
      obtain rfl : rc = wasmOk := hrc
      rw [hexec]
      exact ⟨n, hp, hfit.1, hfit.2, rfl, fun _ hw => setLocked_ok_kept hw hfound hset⟩

/-- **Any other increment** returns the error and keeps the value. -/
theorem exec_incr_refused (hlo : int32Min ≤ delta) (hhi : delta ≤ int32Max)
    (h : ¬ ∃ text, AddsTo rb crc32 nowMsec key delta text z) :
    (exec rb crc32 nowMsec (.incr key delta) z).1.rc = wasmError ∧
      (∀ base, Wf base z →
        ValueKept crc32 nowMsec key z (exec rb crc32 nowMsec (.incr key delta) z).2) := by
  cases hvalid : keyValid key with
  | false =>
    simp only [exec, shmIncr, hvalid, Bool.not_false, if_true]
    exact ⟨trivial, fun _ hw => valueKept_self hw⟩
  | true =>
    have hrange := delta_in_range hlo hhi
    cases hfound : foundLive nowMsec key (crc32 key) z with
    | none =>
      -- nothing is left of the key but an expired entry, which is deleted
      simp only [exec, shmIncr, hvalid, Bool.not_true, Bool.false_eq_true, if_false,
        if_neg hrange, lookupLive_eq, hfound]
      refine ⟨trivial, fun _ _ => ?_⟩
      unfold ValueKept
      rw [hfound]
      cases foundExpired nowMsec key (crc32 key) z with
      | none => exact fun b hb => ⟨hb, rfl⟩
      | some e => exact fun b hb => ⟨List.mem_of_mem_erase hb, rfl⟩
    | some a =>
      obtain ⟨hl, hlive⟩ := foundLive_eq_some.mp hfound
      have hll : lookupLive rb nowMsec key (crc32 key) z = (some a, z) :=
        lookupLive_of_live hl hlive
      have hexec := exec_incr_of_live hll hvalid hlo hhi
      have hb : blocked rb crc32 key delta z = true := by
        by_contra hb
        exact h ⟨_, hvalid, Bool.eq_false_iff.mpr hb, a, hfound, rfl⟩
      rw [blocked_of_lookup hl] at hb
      cases hnext : incrNext (z.mem a).value delta with
      | none =>
        simp only [hnext] at hexec
        rw [hexec]
        exact ⟨rfl, fun _ hw => valueKept_self hw⟩
      | some next =>
        simp only [hnext] at hexec hb
        have hrc : (setLocked rb nowMsec key (formatI32 next) (z.mem a).expiresAtMsec
            (crc32 key) true false z).1 = if _ then wasmError else wasmOk := setLocked_rc hll
        rw [hb, if_pos rfl] at hrc
        cases hset : setLocked rb nowMsec key (formatI32 next) (z.mem a).expiresAtMsec
          (crc32 key) true false z with
        | mk rc z' =>
          rw [hset] at hrc hexec
          obtain rfl : rc = wasmError := hrc
          rw [hexec]
          exact ⟨rfl, fun _ hw => setLocked_error_kept hw hfound hset⟩

/-- The store gets into this state from an empty zone. -/
def Reached (rb : Rbtree) (crc32 : Bytes → UInt32) (z : Zone S) : Prop :=
  ∃ mem pool calls, z = runCalls rb crc32 (emptyZone mem pool) calls

end Store

end NgxWasm.Shm

namespace NgxWasm.Abi

open Shm (int32Min int32Max parseI32 formatI32 Reached)

/-! ## The import -/

variable {W : World}

/-- A call of `ngx_wasm_shm_incr`. -/
structure IncrCall (W : World) where
  now : Clock
  args : List Val
  nresults : Nat
  host : Host W
  mem : Mem

namespace IncrCall

def result (c : IncrCall W) : Result W := hostShmIncr.run c.now c.args c.nresults c.host c.mem

def key (c : IncrCall W) : Bytes := c.mem.read (sliceArg (argOf c.args) 0 1)

def delta (c : IncrCall W) : Int := (argOf c.args 2).toInt

/-- The call passes the tests of the import and there is a store. -/
def Reaches (c : IncrCall W) (z : Shm.Zone W.slab) : Prop :=
  (hostShmIncr.decode c.host.abi.capabilities c.mem c.args c.nresults).isRight = true ∧
    c.host.shm = some z

/-- The increment takes effect, on the stored `text`. -/
def AddsTo (c : IncrCall W) (text : Bytes) : Prop :=
  ∃ z, c.Reaches z ∧ Shm.AddsTo W.rb W.crc32 c.now.msec c.key c.delta text z

/-- The value of the key in the store is after the call what it was before. -/
def ValueKept (c : IncrCall W) : Prop :=
  ∀ z ∈ c.host.shm, ∃ z' ∈ c.result.host.shm, Shm.ValueKept W.crc32 c.now.msec c.key z z'

theorem delta_range (c : IncrCall W) : int32Min ≤ c.delta ∧ c.delta ≤ int32Max := by
  have hlo : -2 ^ 31 ≤ (argOf c.args 2).toInt := Int32.le_toInt _
  have hhi : (argOf c.args 2).toInt < 2 ^ 31 := Int32.toInt_lt _
  unfold delta int32Min int32Max
  omega

/-- A call that reaches the store returns what the store returns. -/
theorem result_of_reaches {c : IncrCall W} {z : Shm.Zone W.slab} (h : c.Reaches z) :
    c.result.outcome = .ret
        (Int32.ofInt (Shm.exec W.rb W.crc32 c.now.msec (.incr c.key c.delta) z).1.rc) ∧
      c.result.host.shm =
        some (Shm.exec W.rb W.crc32 c.now.msec (.incr c.key c.delta) z).2 := by
  obtain ⟨hr, hz⟩ := h
  obtain ⟨call, hd⟩ := Sum.isRight_iff.mp hr
  obtain ⟨rfl, -, hcap⟩ := decode_inr hd
  have hrequire : ¬ c.host.abi.capabilities &&& capSharedKv = 0 := hcap _ rfl
  have hrun : c.result = hostShmIncr.finish
      (shmIncr c.now (sliceArg (argOf c.args) 0 1) (argOf c.args 2).toInt c.host c.mem) := by
    unfold result HostFn.run
    rw [hd]
    rfl
  rw [hrun, HostFn.finish, if_neg (fun h => Bool.false_ne_true h.1), shmIncr, onShm, Host.require,
    if_neg hrequire, hz]
  exact ⟨rfl, rfl⟩

/-- Any other call that returns returns the error, and leaves the store alone. -/
theorem result_of_not_reaches {c : IncrCall W} (h : ∀ z, ¬ c.Reaches z) {x : Int32}
    (hx : c.result.outcome = .ret x) :
    x = Int32.ofInt wasmError ∧ c.result.host.shm = c.host.shm := by
  unfold result HostFn.run at hx ⊢
  cases hd : hostShmIncr.decode c.host.abi.capabilities c.mem c.args c.nresults with
  | inl outcome =>
    rw [hd] at hx
    obtain rfl : outcome = .ret x := hx
    refine ⟨?_, rfl⟩
    unfold HostFn.decode at hd
    dsimp only at hd
    split at hd
    · cases hd
    · split at hd
      · cases hd
        rfl
      · split at hd
        · cases hd
        · split at hd <;> cases hd
  | inr call =>
    have hnone : c.host.shm = none := by
      cases hz : c.host.shm with
      | none => rfl
      | some z => exact absurd ⟨by rw [hd]; rfl, hz⟩ (h z)
    obtain ⟨rfl, -, hcap⟩ := decode_inr hd
    have hrequire : ¬ c.host.abi.capabilities &&& capSharedKv = 0 := hcap _ rfl
    have hreply : hostShmIncr.finish ((hostShmIncr.call (argOf c.args)).exec c.now c.host c.mem) =
        c.host.reply c.mem wasmError := by
      rw [HostFn.finish, if_neg (fun h => Bool.false_ne_true h.1)]
      show shmIncr c.now _ _ c.host c.mem = _
      rw [shmIncr, onShm, Host.require, if_neg hrequire, hnone]
    rw [hd] at hx
    dsimp only at hx ⊢
    rw [hreply] at hx ⊢
    exact ⟨(Outcome.ret.inj hx).symm, rfl⟩

/-- A number in the range of the result is the error only if it is its code. -/
theorem ofInt_eq_error_iff {n : Int} (hlo : int32Min ≤ n) (hhi : n ≤ int32Max) :
    Int32.ofInt n = Int32.ofInt wasmError ↔ n = wasmError := by
  have hn : (Int32.ofInt n).toInt = n := by
    unfold int32Min at hlo
    unfold int32Max at hhi
    exact Int32.toInt_ofInt_of_le (by omega) (by omega)
  have herr : (Int32.ofInt wasmError).toInt = wasmError := rfl
  rw [← Int32.toInt_inj, hn, herr]

/-- What an effective call returns, and when it keeps the value. -/
theorem of_addsTo {c : IncrCall W} {text : Bytes} (h : c.AddsTo text) :
    ∃ n, parseI32 text = some n ∧ int32Min ≤ n + c.delta ∧ n + c.delta ≤ int32Max ∧
      c.result.outcome = .ret (Int32.ofInt (n + c.delta)) ∧
      ((∀ z ∈ c.host.shm, Reached W.rb W.crc32 z) →
        (c.ValueKept ↔ text = formatI32 (n + c.delta))) := by
  obtain ⟨z, hreach, hadds⟩ := h
  obtain ⟨hout, hshm⟩ := result_of_reaches hreach
  obtain ⟨hlo, hhi⟩ := c.delta_range
  obtain ⟨n, hp, hlo', hhi', hrc, hkept⟩ := Shm.exec_incr_adds hlo hhi hadds
  refine ⟨n, hp, hlo', hhi', by rw [hout, hrc], fun hr => ?_⟩
  obtain ⟨mem, pool, calls, hz⟩ := hr z hreach.2
  have hwf : Shm.Wf (W.slab.allocated pool) z := by
    rw [hz]
    exact (Shm.hashed_of_run calls).1
  rw [← hkept _ hwf]
  unfold ValueKept
  rw [hreach.2, hshm]
  simp only [Option.mem_def, Option.some.injEq, forall_eq', exists_eq_left']

/-- What any other call returns, and that it keeps the value. -/
theorem of_not_addsTo {c : IncrCall W} (h : ¬ ∃ text, c.AddsTo text) {x : Int32}
    (hx : c.result.outcome = .ret x) :
    x = Int32.ofInt wasmError ∧
      ((∀ z ∈ c.host.shm, Reached W.rb W.crc32 z) → c.ValueKept) := by
  by_cases hreach : ∃ z, c.Reaches z
  · obtain ⟨z, hreach⟩ := hreach
    obtain ⟨hout, hshm⟩ := result_of_reaches hreach
    obtain ⟨hlo, hhi⟩ := c.delta_range
    obtain ⟨hrc, hkept⟩ :=
      Shm.exec_incr_refused hlo hhi (fun ⟨text, ht⟩ => h ⟨text, z, hreach, ht⟩)
    rw [hrc] at hout
    refine ⟨(Outcome.ret.inj (hout.symm.trans hx)).symm, fun hr z' hz' => ?_⟩
    obtain rfl : z = z' := Option.some.inj (hreach.2.symm.trans hz')
    obtain ⟨mem, pool, calls, hz⟩ := hr z hz'
    have hwf : Shm.Wf (W.slab.allocated pool) z := by
      rw [hz]
      exact (Shm.hashed_of_run calls).1
    exact ⟨_, hshm, hkept _ hwf⟩
  · obtain ⟨herr, hshm⟩ := result_of_not_reaches (fun z hz => hreach ⟨z, hz⟩) hx
    refine ⟨herr, fun hr z hz => ⟨z, by rw [hshm]; exact hz, ?_⟩⟩
    obtain ⟨mem, pool, calls, rfl⟩ := hr z hz
    exact Shm.valueKept_self (Shm.hashed_of_run calls).1

end IncrCall

/-- **When the result tells success from failure.** A call that adds to the number `n` and one that
takes no effect return different results exactly if the sum is not the code of the error. And the
error means that the value was kept, and the value that it was not, exactly if the increment takes no
effect, or its sum is the code of the error just where the canonical text of it was stored already. -/
theorem incr_result_tells_iff (W : World) :
    (∀ (c c' : IncrCall W) (text : Bytes) (n : Int) (x y : Int32), c.AddsTo text →
      parseI32 text = some n → (¬ ∃ text, c'.AddsTo text) → c.result.outcome = .ret x →
      c'.result.outcome = .ret y → (x ≠ y ↔ n + c.delta ≠ wasmError)) ∧
    ∀ (c : IncrCall W) (x : Int32), (∀ z ∈ c.host.shm, Reached W.rb W.crc32 z) →
      c.result.outcome = .ret x →
      ((x = Int32.ofInt wasmError ↔ c.ValueKept) ↔
        ∀ text n, c.AddsTo text → parseI32 text = some n →
          (n + c.delta = wasmError ↔ text = formatI32 (n + c.delta))) := by
  constructor
  · intro c c' text n x y hadds hp hnot hx hy
    obtain ⟨n', hp', hlo, hhi, hout, -⟩ := IncrCall.of_addsTo hadds
    obtain rfl : n = n' := Option.some.inj (hp.symm.trans hp')
    obtain ⟨rfl, -⟩ := IncrCall.of_not_addsTo hnot hy
    obtain rfl : x = Int32.ofInt (n + c.delta) := Outcome.ret.inj (hx.symm.trans hout)
    exact not_congr (IncrCall.ofInt_eq_error_iff hlo hhi)
  · intro c x hr hx
    by_cases hadds : ∃ text, c.AddsTo text
    · obtain ⟨text, hadds⟩ := hadds
      obtain ⟨n, hp, hlo, hhi, hout, hkept⟩ := IncrCall.of_addsTo hadds
      obtain rfl : x = Int32.ofInt (n + c.delta) := Outcome.ret.inj (hx.symm.trans hout)
      rw [IncrCall.ofInt_eq_error_iff hlo hhi, hkept hr]
      refine ⟨fun h text' n' hadds' hp' => ?_, fun h => h text n hadds hp⟩
      obtain rfl : text = text' := by
        obtain ⟨z, hz, -, -, a, ha, rfl⟩ := hadds
        obtain ⟨z', hz', -, -, b, hb, rfl⟩ := hadds'
        obtain rfl : z = z' := Option.some.inj (hz.2.symm.trans hz'.2)
        rw [Option.some.inj (ha.symm.trans hb)]
      obtain rfl : n = n' := Option.some.inj (hp.symm.trans hp')
      exact h
    · obtain ⟨hx', hkept⟩ := IncrCall.of_not_addsTo hadds hx
      exact ⟨fun _ text n ht => absurd ⟨text, ht⟩ hadds, fun _ => ⟨fun _ => hkept hr, fun _ => hx'⟩⟩

/-- The increment of the key "a" by `delta`, after these calls. -/
def incrCall (calls : List Shm.Call) (delta : Int32) : IncrCall plainWorld where
  now := ⟨0, 0⟩
  args := [.i32 0, .i32 1, .i32 delta]
  nresults := 1
  host :=
    { plainHost (phaseCapabilities .content) with
      shm := some (Shm.runCalls .unbalanced crc32Short (Shm.emptyZone (fun _ => ⟨0, [], [], 0⟩) [])
        calls) }
  mem := ⟨true, 65536, fun _ => 97⟩

theorem incrCall_missing (delta : Int32) : ¬ ∃ text, (incrCall [] delta).AddsTo text := by
  rintro ⟨text, z, ⟨-, hz⟩, -, -, a, ha, -⟩
  obtain rfl := Option.some.inj hz
  cases ha

theorem incrCall_reached (calls : List Shm.Call) (delta : Int32) :
    ∀ z ∈ (incrCall calls delta).host.shm, Reached plainWorld.rb plainWorld.crc32 z := by
  intro z hz
  obtain rfl := Option.some.inj hz
  exact ⟨_, _, _, rfl⟩

/-- 9 and 1 make 10, and a missing key is an error. -/
theorem incr_result_tells_iff_ten :
    ((10 : Int32) ≠ -2 ↔ (9 : Int) + (incrCall [(0, .set [97] [57])] 1).delta ≠ wasmError) ∧
      (((10 : Int32) = -2 ↔ (incrCall [(0, .set [97] [57])] 1).ValueKept) ↔
        ∀ text n, (incrCall [(0, .set [97] [57])] 1).AddsTo text → parseI32 text = some n →
          (n + (incrCall [(0, .set [97] [57])] 1).delta = wasmError ↔
            text = formatI32 (n + (incrCall [(0, .set [97] [57])] 1).delta))) := by
  have hadds : (incrCall [(0, .set [97] [57])] 1).AddsTo [57] :=
    ⟨_, ⟨by decide +kernel, rfl⟩, by decide +kernel⟩
  have hten : (incrCall [(0, .set [97] [57])] 1).result.outcome = .ret 10 := by decide +kernel
  have hmissing : (incrCall [] 1).result.outcome = .ret (-2) := by decide +kernel
  exact ⟨(incr_result_tells_iff plainWorld).1 _ _ _ 9 _ _ hadds (by decide) (incrCall_missing 1) hten
    hmissing, (incr_result_tells_iff plainWorld).2 _ _ (incrCall_reached _ _) hten⟩

/-- -3 and 1 make -2, as does a missing key. -/
theorem incr_result_error_code :
    (incrCall [(0, .set [97] [45, 51])] 1).AddsTo [45, 51] ∧
      (¬ ∃ text, (incrCall [] 1).AddsTo text) ∧
      (incrCall [(0, .set [97] [45, 51])] 1).result.outcome = .ret (-2) ∧
      (incrCall [] 1).result.outcome = .ret (-2) ∧
      ¬ (incrCall [(0, .set [97] [45, 51])] 1).ValueKept := by
  have hadds : (incrCall [(0, .set [97] [45, 51])] 1).AddsTo [45, 51] :=
    ⟨_, ⟨by decide +kernel, rfl⟩, by decide +kernel⟩
  refine ⟨hadds, incrCall_missing 1, by decide +kernel, by decide +kernel, fun hkept => ?_⟩
  obtain ⟨n, hp, -, -, -, hiff⟩ := IncrCall.of_addsTo hadds
  obtain rfl : n = -3 := Option.some.inj (hp.symm.trans (by decide))
  have htext := (hiff (incrCall_reached _ _)).mp hkept
  revert htext
  decide

end NgxWasm.Abi
