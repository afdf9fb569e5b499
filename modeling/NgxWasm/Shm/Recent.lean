import NgxWasm.Shm.History

/-!
# Evictions follow the use of the keys

A call that finds or writes its key moves it to the front of the queue, and evictions take entries
from the back. `Ahead recent old` says of a list that the one key is before the other as long as
the other is there. Over a whole run this means:

* `Cache.Step.ahead`: a key that is ahead of another one which is not called stays ahead of it, as
  long as it is neither deleted nor found expired.
* `Cache.Step.ahead_of_use`: a key that is used is ahead of every other.
* `used_since_survives`: as long as a key that is not called is still there, so is every key used
  after its last call, unless that one was deleted or found expired since. A failed write is no
  exception, though it evicts around the entry of its own key.

A use is read off the answer (`TellsUse`), except for an increment whose sum is -2, which answers as
one that failed (`CountsToError`). The runs are those of `zone_simulates_cache`.
-/

namespace NgxWasm.Shm

open Lib

namespace Cache

/-- The keys, most recently used first. -/
def keys (l : Cache) : List Bytes := l.map Entry.key

/-- While `old` is there, `recent` is there and has been used since. -/
def Ahead (recent old : Bytes) (l : Cache) : Prop := old ∈ keys l → [recent, old].Sublist (keys l)

variable {l l' : Cache} {key recent old : Bytes} {e : Entry} {now : Nat} {reply : Reply}

theorem mem_keys {k : Bytes} : k ∈ keys l ↔ ∃ x ∈ l, x.key = k := List.mem_map

theorem keys_sublist (h : l'.Sublist l) : (keys l').Sublist (keys l) := h.map _

theorem Ahead.sublist (h : Ahead recent old l) (hl : (keys l).Nodup) (hs : l'.Sublist l)
    (hstay : old ∈ keys l' → recent ∈ keys l') : Ahead recent old l' := fun hold =>
  pair_sublist hl (keys_sublist hs) (h ((keys_sublist hs).subset hold)) (hstay hold) hold

theorem Ahead.recent_mem (h : Ahead recent old l) (hold : old ∈ keys l) : recent ∈ keys l :=
  (h hold).subset List.mem_cons_self

/-! ## The changes of a list -/

theorem keys_evicted (n : Nat) :
    keys (evicted key n l) = evictMany (fun k => k == key) n (keys l) := by
  have h : ∀ x ∈ l, (fun k : Bytes => k == key) x.key = (fun x : Entry => x.key == key) x :=
    fun _ _ => rfl
  exact (evictMany_map h).symm

theorem keys_without : keys (without key l) = (keys l).filter fun k => k != key := by
  unfold keys without
  rw [List.filter_map]
  rfl

theorem purge_sublist : (purge now key l).Sublist l := List.filter_sublist

theorem evicted_sublist (n : Nat) : (evicted key n l).Sublist l := evictMany_sublist _ n l

/-- The lazy expiry drops nothing but an expired entry of its key. -/
theorem mem_keys_purge {k : Bytes} (hk : k ∈ keys l)
    (hlive : k = key → ∀ x ∈ l, x.key = k → x.expired now = false) : k ∈ keys (purge now key l) := by
  obtain ⟨x, hx, rfl⟩ := mem_keys.mp hk
  refine mem_keys.mpr ⟨x, mem_purge.mpr ⟨hx, fun ⟨heq, hexp⟩ => ?_⟩, rfl⟩
  exact absurd hexp (Bool.eq_false_iff.mp (hlive heq x hx rfl))

theorem Ahead.purge (h : Ahead recent old l) (hl : (keys l).Nodup)
    (hlive : recent = key → ∀ x ∈ l, x.key = recent → x.expired now = false) :
    Ahead recent old (purge now key l) :=
  h.sublist hl purge_sublist fun hold =>
    mem_keys_purge (h.recent_mem ((keys_sublist purge_sublist).subset hold)) hlive

/-- Evictions that spare another key than `old` do not overtake. -/
theorem Ahead.evicted (h : Ahead recent old l) (hl : (keys l).Nodup) (hne : key ≠ old) (n : Nat) :
    Ahead recent old (evicted key n l) := by
  refine h.sublist hl (evicted_sublist n) fun hold => ?_
  rw [keys_evicted] at hold ⊢
  exact mem_evictMany_of_ahead hl (h ((evictMany_sublist _ n _).subset hold)) hold
    (beq_eq_false_iff_ne.mpr hne.symm)

/-- Moving another key than `old` to the front, or putting it there. -/
theorem Ahead.front (h : Ahead recent old l) (hne : e.key ≠ old) :
    Ahead recent old (e :: without e.key l) := by
  intro hold
  have hold' : old ∈ keys (without e.key l) :=
    List.mem_of_ne_of_mem hne.symm (show old ∈ e.key :: keys (without e.key l) from hold)
  change [recent, old].Sublist (e.key :: keys (without e.key l))
  by_cases heq : recent = e.key
  · rw [heq]
    exact (List.singleton_sublist.mpr hold').cons_cons _
  · refine List.Sublist.cons _ ?_
    rw [keys_without] at hold' ⊢
    have hpair := (h (List.mem_of_mem_filter hold')).filter fun k => k != e.key
    rwa [List.filter_cons_of_pos (by simpa using heq),
      List.filter_cons_of_pos (by simpa using hne.symm), List.filter_nil] at hpair

theorem Ahead.without (h : Ahead recent old l) (hl : (keys l).Nodup) (hne : key ≠ recent) :
    Ahead recent old (without key l) := by
  refine h.sublist hl List.filter_sublist fun hold => ?_
  rw [keys_without] at hold ⊢
  refine List.mem_filter.mpr ⟨h.recent_mem (List.mem_of_mem_filter hold), ?_⟩
  rw [bne_iff_ne]
  exact hne.symm

theorem Write.ahead {rc : Int} (hw : Write e l rc l') (h : Ahead recent old l)
    (hl : (keys l).Nodup) (hne : e.key ≠ old) : Ahead recent old l' := by
  cases hw with
  | inPlace _ _ => exact h.front hne
  | stored _ _ => exact (h.evicted hl hne _).front hne
  | failed _ _ _ => exact h.evicted hl hne _

end Cache

/-! ## The operations -/

/-- The arguments pass the checks of the operation. -/
def Op.accepted : Op → Bool
  | .get key _ | .exists key | .delete key => keyValid key
  | .incr key delta => keyValid key && decide (int32Min ≤ delta ∧ delta ≤ int32Max)
  | .set key value | .setEx key value _ | .add key value | .replace key value =>
    keyValid key && decide (value.length ≤ maxValueLen)

/-- The answer says that the call has read or written its key. -/
def TellsUse (o : Call × Reply) : Prop :=
  match o.1.2 with
  | .get .. => 0 ≤ o.2.rc
  | .exists _ => o.2.rc = 1
  | .incr .. => o.2.rc ≠ wasmError
  | .set .. | .setEx .. | .add .. | .replace .. => o.2.rc = wasmOk
  | .delete _ => False

namespace Cache

variable {l l' : Cache} {key recent old : Bytes} {e : Entry} {reply : Reply}

/-- The call takes the entry of `key` away: it deletes it, or finds it expired. -/
def Drops (key : Bytes) (l : Cache) (c : Call) : Prop :=
  c.2.accepted = true ∧ c.2.key = key ∧
    ((∃ k, c.2 = .delete k) ∨ ∃ x ∈ l, x.key = key ∧ x.expired c.1.toNat = true)

/-- An increment to -2, which answers as one that failed. It has found a live number, and left the
entry with the sum. -/
def CountsToError (l : Cache) (c : Call) (l' : Cache) : Prop :=
  c.2.accepted = true ∧ ∃ key delta, c.2 = .incr key delta ∧
    ∃ e ∈ l, e.key = key ∧ e.expired c.1.toNat = false ∧
      (∃ current, readI32 e.value = some current ∧ current + delta = wasmError) ∧
      ⟨key, intText wasmError, e.expiry⟩ ∈ l'

/-- The call has read or written its key. -/
def Uses (l : Cache) (o : Call × Reply) (l' : Cache) : Prop :=
  TellsUse o ∨ CountsToError l o.1 l'

/-- A call with bad arguments does nothing. -/
theorem Step.of_not_accepted {o : Call × Reply} (hs : Step l o l') (ha : ¬ o.1.2.accepted = true) :
    l' = l := by
  obtain ⟨⟨nowMsec, op⟩, reply⟩ := o
  have hstores : ∀ {e : Entry} {requireExists requireMissing : Bool},
      Stores nowMsec.toNat e requireExists requireMissing l reply l' →
      ¬ (keyValid e.key && decide (e.value.length ≤ maxValueLen)) = true → l' = l := by
    intro e requireExists requireMissing hst hbad
    unfold Stores at hst
    rw [if_pos (by simpa [imp_iff_not_or] using hbad)] at hst
    exact hst.2
  have hreads : ∀ {key : Bytes} {found : Entry → Reply} {missing : Int},
      Reads nowMsec.toNat key found missing l reply l' → ¬ keyValid key = true → l' = l := by
    intro key found missing hr hbad
    unfold Reads at hr
    rw [if_pos (Bool.eq_false_iff.mpr hbad)] at hr
    exact hr.2
  cases op with
  | get key bufLen => exact hreads hs ha
  | «exists» key => exact hreads hs ha
  | set key value => exact hstores hs ha
  | setEx key value ttlMsec => exact hstores hs ha
  | add key value => exact hstores hs ha
  | replace key value => exact hstores hs ha
  | incr key delta =>
    have hi : Increments nowMsec.toNat key delta l reply l' := hs
    unfold Increments at hi
    rw [if_pos] at hi
    · exact hi.2
    · by_contra hok
      simp only [not_or, not_lt, Bool.not_eq_false] at hok
      exact ha (by simp [Op.accepted, hok])
  | delete key =>
    have hd : if keyValid key = false then reply = { rc := wasmError } ∧ l' = l
      else reply = { rc := wasmOk } ∧ l' = without key l := hs
    have hbad : keyValid key = false := Bool.eq_false_iff.mpr ha
    rw [if_pos hbad] at hd
    exact hd.2

/-- **One step**: a key stays ahead of one that is not called. -/
theorem Step.ahead {o : Call × Reply} (hs : Step l o l') (h : Ahead recent old l)
    (hl : (keys l).Nodup) (hne : o.1.2.key ≠ old) (hdrops : ¬ Drops recent l o.1) :
    Ahead recent old l' := by
  by_cases hacc : o.1.2.accepted = true
  case neg => exact hs.of_not_accepted hacc ▸ h
  obtain ⟨⟨nowMsec, op⟩, reply⟩ := o
  have hlive : ∀ key, op.key = key → recent = key →
      ∀ x ∈ l, x.key = recent → x.expired nowMsec.toNat = false := by
    intro key hkey heq x hx hxk
    refine Bool.eq_false_iff.mpr fun hexp => ?_
    exact hdrops ⟨hacc, hkey.trans heq.symm, .inr ⟨x, hx, hxk, hexp⟩⟩
  have hreads : ∀ {key : Bytes} {found : Entry → Reply} {missing : Int},
      Reads nowMsec.toNat key found missing l reply l' → op.key = key → Ahead recent old l' := by
    intro key found missing hr hkey
    have hpurged := h.purge hl (hlive key hkey)
    rcases hr.cases with ⟨-, rfl⟩ | ⟨-, rfl⟩ | ⟨e, hfind, -, rfl⟩
    · exact h
    · exact hpurged
    · obtain ⟨-, rfl⟩ := mem_find hfind
      exact hpurged.front (hkey ▸ hne)
  have hstores : ∀ {e : Entry} {requireExists requireMissing : Bool},
      Stores nowMsec.toNat e requireExists requireMissing l reply l' → op.key = e.key →
      Ahead recent old l' := by
    intro e requireExists requireMissing hst hkey
    have hpurged := h.purge hl (hlive e.key hkey)
    rcases hst.cases with ⟨-, rfl⟩ | ⟨-, -, rfl⟩ | ⟨-, rc, hw, -⟩
    · exact h
    · exact hpurged
    · exact hw.ahead hpurged (hl.sublist (keys_sublist purge_sublist)) (hkey ▸ hne)
  cases op with
  | get key bufLen => exact hreads hs rfl
  | «exists» key => exact hreads hs rfl
  | set key value => exact hstores hs rfl
  | setEx key value ttlMsec => exact hstores hs rfl
  | add key value => exact hstores hs rfl
  | replace key value => exact hstores hs rfl
  | incr key delta =>
    have hpurged := h.purge hl (hlive key rfl)
    rcases Increments.cases hs with ⟨-, rfl | rfl⟩ | ⟨e, current, rc, -, -, hw, -⟩
    · exact h
    · exact hpurged
    · exact hw.ahead hpurged (hl.sublist (keys_sublist purge_sublist)) hne
  | delete key =>
    rcases Next.delete_cases hs with ⟨-, rfl⟩ | ⟨-, rfl⟩
    · exact h
    · exact h.without hl fun heq => hdrops ⟨hacc, heq, .inl ⟨key, rfl⟩⟩

/-- The first key is ahead of every other. -/
theorem ahead_cons (hne : e.key ≠ old) : Ahead e.key old (e :: l) := by
  intro hold
  have hold' : old ∈ keys l :=
    List.mem_of_ne_of_mem hne.symm (show old ∈ e.key :: keys l from hold)
  exact (List.singleton_sublist.mpr hold').cons_cons _

theorem Write.ahead_of_ok {rc : Int} (hw : Write e l rc l') (hok : rc = wasmOk) (hne : e.key ≠ old) :
    Ahead e.key old l' := by
  cases hw with
  | inPlace _ _ => exact ahead_cons hne
  | stored _ _ => exact ahead_cons hne
  | failed _ _ _ => exact absurd hok (Ne.symm ok_ne_error)

theorem find_of_mem (hl : (keys l).Nodup) (he : e ∈ l) : find e.key l = some e := by
  obtain ⟨x, hx⟩ := Option.isSome_iff_exists.mp
    ((List.find?_isSome (p := fun x => x.key == e.key)).mpr ⟨e, he, beq_self_eq_true e.key⟩)
  have hmem := mem_find hx
  exact hx.trans (congrArg some (List.inj_on_of_nodup_map hl hmem.1 he hmem.2))

/-- An increment that leaves its sum of -2 has written it: had the write failed, the entry would still
be the old one, which holds -2 as well, and over a text of the same length no write fails. -/
theorem Step.ahead_of_counts {c : Call} (hs : Step l (c, reply) l') (hc : CountsToError l c l')
    (hl : (keys l).Nodup) (hne : c.2.key ≠ old) : Ahead c.2.key old l' := by
  obtain ⟨nowMsec, op⟩ := c
  obtain ⟨hacc, key, delta, rfl, e, he, rfl, hlive, ⟨current, hvalue, hsum⟩, hmem⟩ := hc
  have hpurged : e ∈ purge nowMsec.toNat e.key l :=
    mem_purge.mpr ⟨he, fun h => Bool.false_ne_true (hlive.symm.trans h.2)⟩
  have hlp : (keys (purge nowMsec.toNat e.key l)).Nodup := hl.sublist (keys_sublist purge_sublist)
  have hfind := find_of_mem hlp hpurged
  have hargs : ¬ (keyValid e.key = false ∨ delta < int32Min ∨ delta > int32Max) := by
    simpa [Op.accepted, not_or] using hacc
  have hrange : ¬ (wasmError < int32Min ∨ wasmError > int32Max) := by decide
  have hi : Increments nowMsec.toNat e.key delta l reply l' := hs
  unfold Increments at hi
  rw [if_neg hargs] at hi
  simp only [hfind, hvalue, hsum] at hi
  rw [if_neg hrange] at hi
  obtain ⟨rc, hw, -⟩ := hi
  rcases hw.rc_cases with rfl | rfl
  · exact hw.ahead_of_ok rfl hne
  · cases hw with
    | failed hlen _ _ =>
      have hold : ⟨e.key, intText wasmError, e.expiry⟩ ∈ purge nowMsec.toNat e.key l :=
        (evicted_sublist _).subset hmem
      exact absurd rfl (hlen _ (find_of_mem hlp hold))

theorem Step.ahead_of_tells {o : Call × Reply} (hs : Step l o l') (hu : TellsUse o)
    (hne : o.1.2.key ≠ old) : Ahead o.1.2.key old l' := by
  obtain ⟨⟨nowMsec, op⟩, reply⟩ := o
  have hreads : ∀ {key : Bytes} {found : Entry → Reply} {missing : Int},
      Reads nowMsec.toNat key found missing l reply l' → op.key = key → reply.rc ≠ missing →
      reply.rc ≠ wasmError → Ahead op.key old l' := by
    intro key found missing hr hkey hmissing herr
    rcases hr.cases with ⟨rfl, -⟩ | ⟨rfl, -⟩ | ⟨e, hfind, -, rfl⟩
    · exact absurd rfl herr
    · exact absurd rfl hmissing
    · have hek : op.key = e.key := hkey.trans (mem_find hfind).2.symm
      rw [hek]
      exact ahead_cons (hek ▸ hne)
  have hstores : ∀ {e : Entry} {requireExists requireMissing : Bool},
      Stores nowMsec.toNat e requireExists requireMissing l reply l' → op.key = e.key →
      reply.rc = wasmOk → Ahead op.key old l' := by
    intro e requireExists requireMissing hst hkey hok
    rcases hst.cases with ⟨rfl, -⟩ | ⟨-, rfl, -⟩ | ⟨-, rc, hw, rfl⟩
    · exact absurd hok.symm ok_ne_error
    · exact absurd hok (by decide)
    · rw [hkey]
      exact hw.ahead_of_ok hok (hkey ▸ hne)
  cases op with
  | get key bufLen =>
    have hrc : 0 ≤ reply.rc := hu
    refine hreads hs rfl (fun heq => ?_) fun heq => ?_
    · rw [heq] at hrc
      exact absurd hrc (by decide)
    · rw [heq] at hrc
      exact absurd hrc (by decide)
  | «exists» key =>
    have hrc : reply.rc = 1 := hu
    exact hreads hs rfl (hrc ▸ (by decide : (1 : Int) ≠ 0))
      (hrc ▸ (by decide : (1 : Int) ≠ wasmError))
  | set key value => exact hstores hs rfl hu
  | setEx key value ttlMsec => exact hstores hs rfl hu
  | add key value => exact hstores hs rfl hu
  | replace key value => exact hstores hs rfl hu
  | incr key delta =>
    obtain ⟨e, current, -, -, hw, -⟩ := Increments.wrote hs hu
    exact hw.ahead_of_ok rfl hne
  | delete key => exact hu.elim

/-- **A used key** is ahead of every other. -/
theorem Step.ahead_of_use {o : Call × Reply} (hs : Step l o l') (hu : Uses l o l')
    (hl : (keys l).Nodup) (hne : o.1.2.key ≠ old) : Ahead o.1.2.key old l' :=
  hu.elim (fun ht => hs.ahead_of_tells ht hne) fun hc => hs.ahead_of_counts hc hl hne

end Cache

/-! ## Runs of the zone -/

section Runs

variable {base : Set Addr} {z : Zone S} {recent old : Bytes}

theorem Inv.keys_nodup (h : Inv crc32 base z) : (Cache.keys (abs z)).Nodup := by
  unfold Cache.keys abs
  rw [List.map_map]
  exact h.wf.nodup.map_on fun a ha b hb heq => (h.key_eq_iff hb ha).mp heq

/-- **A run**: a key stays ahead of one that is not called, up to the call that drops it. -/
theorem ahead_run (h : Inv crc32 base z) {calls : List Call}
    (hok : Meets (callStep rb crc32) (CallOk crc32) z calls) (ha : Cache.Ahead recent old (abs z))
    (hne : ∀ c ∈ calls, c.2.key ≠ old)
    (hdrops : ∀ before c after, calls = before ++ c :: after →
      ¬ Cache.Drops recent (abs (runCalls rb crc32 z before)) c) :
    Cache.Ahead recent old (abs (runCalls rb crc32 z calls)) := by
  induction calls generalizing z with
  | nil => exact ha
  | cons c calls ih =>
    have hstep : Cache.Step (abs z) (observe rb crc32 z c) (abs (callStep rb crc32 z c)) :=
      exec_next h hok.1
    refine ih (exec_inv h hok.1.insertOk) hok.2 ?_ (fun d hd => hne d (List.mem_cons_of_mem _ hd)) ?_
    · exact hstep.ahead ha h.keys_nodup (hne c List.mem_cons_self) (hdrops [] c calls rfl)
    · exact fun before d after heq => hdrops (c :: before) d after (by rw [heq, List.cons_append])

end Runs

/-- **What has been used since is still there.** In every run from the empty zone in which no key
collides with another one in use and clock and times to live are below 2^63 ms: let a call read or
write its key, and let `old` not be called from then on. As long as `old` is there, so is the key of
that call, unless some later call deleted it or found it expired. -/
theorem used_since_survives (S : SlabPool) (rb : Rbtree) (crc32 : Bytes → UInt32)
    (mem : Addr → ShmNode) (pool : S.State) (calls later : List Call) (c : Call) (old : Bytes)
    (h : Meets (callStep rb crc32) (CallOk crc32) (emptyZone mem pool) (calls ++ c :: later))
    (hold : ∀ d ∈ c :: later, d.2.key ≠ old) :
    let z := runCalls rb crc32 (emptyZone mem pool) calls
    Cache.Uses (abs z) (observe rb crc32 z c) (abs (callStep rb crc32 z c)) →
    old ∈ Cache.keys (abs (runCalls rb crc32 z (c :: later))) →
    c.2.key ∈ Cache.keys (abs (runCalls rb crc32 z (c :: later))) ∨
      ∃ before d after, later = before ++ d :: after ∧
        Cache.Drops c.2.key (abs (runCalls rb crc32 z (c :: before))) d := by
  intro z hu hmem
  have h0 : Inv crc32 (S.allocated pool) (emptyZone mem pool) :=
    ⟨.emptyZone mem pool, .emptyZone mem pool⟩
  have hz : Inv crc32 (S.allocated pool) z :=
    h.append_left.invariant h0 fun _ _ hi hc => @exec_inv _ rb _ _ _ hi _ hc.insertOk
  have hmeets : Meets (callStep rb crc32) (CallOk crc32) z (c :: later) := h.append_right
  have hstep : Cache.Step (abs z) (observe rb crc32 z c) (abs (callStep rb crc32 z c)) :=
    exec_next hz hmeets.1
  have hused := hstep.ahead_of_use hu hz.keys_nodup (hold c List.mem_cons_self)
  by_cases hdrops : ∃ before d after, later = before ++ d :: after ∧
      Cache.Drops c.2.key (abs (runCalls rb crc32 z (c :: before))) d
  · exact .inr hdrops
  · refine .inl (Cache.Ahead.recent_mem ?_ hmem)
    refine ahead_run (exec_inv hz hmeets.1.insertOk) hmeets.2 hused
      (fun d hd => hold d (List.mem_cons_of_mem _ hd)) ?_
    exact fun before d after heq hd => hdrops ⟨before, d, after, heq, hd⟩

/-- Room for three entries, and a counter that goes from -3 to -2: a fourth key evicts the first, not
the untouched second. -/
theorem used_since_survives_three_chunks :
    let z₀ : Zone (.ofCapacity 3) := emptyZone (fun _ => ⟨0, [], [], 0⟩) []
    let z := runCalls .unbalanced crc32Short z₀
      [(1, .set [99] [45, 51]), (1, .set [97] []), (1, .set [98] [])]
    [99] ∈ Cache.keys (abs (runCalls .unbalanced crc32Short z
        [(2, .incr [99] 1), (3, .set [100] []), (4, .get [99] 1)])) ∨
      ∃ before d after, [((3 : UInt64), Op.set [100] []), (4, .get [99] 1)] = before ++ d :: after ∧
        Cache.Drops [99] (abs (runCalls .unbalanced crc32Short z
          ((2, .incr [99] 1) :: before))) d := by
  have htext : intText wasmError = [45, 50] := by
    rw [← formatI32_eq (by decide) (by decide)]
    decide
  refine used_since_survives (.ofCapacity 3) .unbalanced crc32Short (fun _ => ⟨0, [], [], 0⟩) []
    [(1, .set [99] [45, 51]), (1, .set [97] []), (1, .set [98] [])]
    [(3, .set [100] []), (4, .get [99] 1)] (2, .incr [99] 1) [98] (by decide) (by decide)
    (.inr ⟨by decide, [99], 1, rfl, ⟨[99], [45, 51], none⟩, by decide, rfl, rfl,
      ⟨-3, by decide, by decide⟩, ?_⟩) (by decide)
  rw [htext]
  decide

end NgxWasm.Shm
