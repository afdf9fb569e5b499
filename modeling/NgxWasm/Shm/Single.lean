import NgxWasm.Shm.Pressure
import NgxWasm.Shm.Steps

/-!
# One key among colliding ones

`Inv` asks of all linked keys that they order alike. Here the keys may collide as they like, except
with one: no other key in the zone has its CRC-32 (`Alone`). Both comparators look at the hash
first, so the tree always ascends by hash (`Hashed`), and for this key alone that is enough.

* `Outcome`: what a call can do to the zone, whichever it is. `exec_outcome` reads it off the
  operations once; all that follows is by cases on it.
* `Hashed.mono`, `Hashed.link`: the order by hash is kept by every change, whatever collides.
* `Clear`: the invariant of the key. `Clear.lookup_iff`: the lookup finds its entry, and nothing
  else.
* `exec_clear`: every call keeps the invariant.
* `Outcome.frame`: the entries a call leaves are unchanged, apart from those of its own key.

`Shm.Counter` and `Shm.Expiry` follow one key through runs of such a zone.
-/

namespace NgxWasm.Shm

open Lib

variable {S : SlabPool} {rb : Rbtree} {crc32 : Bytes → UInt32}

/-! ## What a call can do -/

/-- What a call on `key` at the clock `nowMsec` makes of `z`. -/
inductive Outcome (rb : Rbtree) (crc32 : Bytes → UInt32) (nowMsec : UInt64) (key : Bytes)
    (z : Zone S) : Zone S → Prop
  | unchanged : Outcome rb crc32 nowMsec key z z
  | removed {a : Addr} (h : lookup key (crc32 key) z = some a) :
      Outcome rb crc32 nowMsec key z (deleteLocked rb a z)
  | touched {a : Addr} (h : lookup key (crc32 key) z = some a) :
      Outcome rb crc32 nowMsec key z (touchLocked a z)
  | overwritten {a : Addr} (value : Bytes) (expiresAtMsec : UInt64)
      (h : lookup key (crc32 key) z = some a) :
      Outcome rb crc32 nowMsec key z (overwrite value expiresAtMsec a z)
  | reallocated {found : Option Addr} {z₀ z' : Zone S} {rc : Int} {value : Bytes}
      {expiresAtMsec : UInt64} (hvalid : keyValid key = true)
      (h : lookupLive rb nowMsec key (crc32 key) z = (found, z₀))
      (hr : reallocate rb key value expiresAtMsec (crc32 key) found z₀ = (rc, z')) :
      Outcome rb crc32 nowMsec key z z'

section Outcomes

variable {nowMsec : UInt64} {key : Bytes} {z : Zone S}

/-- The two ways `lookupLive` ends. -/
theorem lookupLive_cases (rb : Rbtree) (nowMsec : UInt64) (key : Bytes) (hash : UInt32) (z : Zone S) :
    (∃ a, lookupLive rb nowMsec key hash z = (some a, z) ∧ lookup key hash z = some a ∧
      isExpired (z.mem a) nowMsec = false) ∨
    ∃ z₀, lookupLive rb nowMsec key hash z = (none, z₀) ∧
      (lookup key hash z = none ∧ z₀ = z ∨
        ∃ a, lookup key hash z = some a ∧ isExpired (z.mem a) nowMsec = true ∧
          z₀ = deleteLocked rb a z) := by
  unfold lookupLive
  cases hl : lookup key hash z with
  | none => exact Or.inr ⟨z, rfl, Or.inl ⟨rfl, rfl⟩⟩
  | some a =>
    by_cases hexp : isExpired (z.mem a) nowMsec = true
    · simp only [hexp, if_true]
      exact Or.inr ⟨_, rfl, Or.inr ⟨a, rfl, hexp, rfl⟩⟩
    · simp only [hexp]
      exact Or.inl ⟨a, rfl, rfl, Bool.eq_false_iff.mpr hexp⟩

theorem lookupLive_outcome :
    Outcome rb crc32 nowMsec key z (lookupLive rb nowMsec key (crc32 key) z).2 := by
  rcases lookupLive_cases rb nowMsec key (crc32 key) z with
    ⟨a, h, -, -⟩ | ⟨z₀, h, ⟨-, rfl⟩ | ⟨a, hl, -, rfl⟩⟩
  · rw [h]
    exact .unchanged
  · rw [h]
    exact .unchanged
  · rw [h]
    exact .removed hl

theorem setLocked_outcome (hvalid : keyValid key = true) {value : Bytes} {expiresAtMsec : UInt64}
    {requireExists requireMissing : Bool} :
    Outcome rb crc32 nowMsec key z
      (setLocked rb nowMsec key value expiresAtMsec (crc32 key) requireExists requireMissing z).2 := by
  have hlive : Outcome rb crc32 nowMsec key z _ := lookupLive_outcome
  unfold setLocked
  split
  · rename_i z₀ h
    rw [h] at hlive
    split
    · exact hlive
    · exact .reallocated hvalid h rfl
  · rename_i a z₀ h
    have hl : lookup key (crc32 key) z = some a ∧ z₀ = z := by
      rcases lookupLive_cases rb nowMsec key (crc32 key) z with ⟨b, hb, hl, -⟩ | ⟨z₁, hb, -⟩
      · rw [h] at hb
        cases hb
        exact ⟨hl, rfl⟩
      · rw [h] at hb
        cases hb
    obtain ⟨hl, rfl⟩ := hl
    split
    · exact .unchanged
    · split
      · exact .overwritten value expiresAtMsec hl
      · exact .reallocated hvalid h rfl

theorem shmWrite_outcome {value : Bytes} {expiresAtMsec : UInt64}
    {requireExists requireMissing : Bool} :
    Outcome rb crc32 nowMsec key z
      (shmWrite rb crc32 nowMsec key value expiresAtMsec requireExists requireMissing z).2 := by
  unfold shmWrite
  split
  · exact .unchanged
  · rename_i hvalid
    simp only [Bool.or_eq_true, Bool.not_eq_true', not_or, Bool.not_eq_false] at hvalid
    exact setLocked_outcome hvalid.1

/-- `get` and `exists`: an entry that is found is touched. -/
theorem reader_outcome {f : Addr → Zone S → Reply} {missing : Reply} :
    Outcome rb crc32 nowMsec key z (match lookupLive rb nowMsec key (crc32 key) z with
      | (none, z) => (missing, z)
      | (some a, z) => (f a z, touchLocked a z)).2 := by
  rcases lookupLive_cases rb nowMsec key (crc32 key) z with
    ⟨a, h, hl, -⟩ | ⟨z₀, h, ⟨-, rfl⟩ | ⟨a, hl, -, rfl⟩⟩
  · rw [h]
    exact .touched hl
  · rw [h]
    exact .unchanged
  · rw [h]
    exact .removed hl

/-- **What a call can do.** -/
theorem exec_outcome (c : Call) :
    Outcome rb crc32 c.1 c.2.key z (exec rb crc32 c.1 c.2 z).2 := by
  obtain ⟨nowMsec, op⟩ := c
  cases op with
  | get key bufLen =>
    simp only [exec, shmGet]
    split
    · exact .unchanged
    · exact reader_outcome (f := fun a z => ⟨(z.mem a).value.length, (z.mem a).value.take bufLen⟩)
  | «exists» key =>
    simp only [exec, shmExists]
    split
    · exact .unchanged
    · exact reader_outcome (f := fun _ _ => ⟨1, []⟩)
  | incr key delta =>
    simp only [exec, shmIncr]
    split
    · exact .unchanged
    · rename_i hvalid
      simp only [Bool.not_eq_true', Bool.not_eq_false] at hvalid
      split
      · exact .unchanged
      · rcases lookupLive_cases rb nowMsec key (crc32 key) z with
          ⟨a, h, hl, -⟩ | ⟨z₀, h, ⟨-, rfl⟩ | ⟨a, hl, -, rfl⟩⟩
        · simp only [h]
          split
          · exact .unchanged
          · exact setLocked_outcome hvalid
        · simp only [h]
          exact .unchanged
        · simp only [h]
          exact .removed hl
  | set key value => exact shmWrite_outcome
  | setEx key value ttlMsec => exact shmWrite_outcome
  | add key value => exact shmWrite_outcome
  | replace key value => exact shmWrite_outcome
  | delete key =>
    simp only [exec, shmDelete]
    split
    · exact .unchanged
    · split
      · exact .unchanged
      · rename_i a hl
        exact .removed hl

end Outcomes

/-! ## The tree ascends by hash -/

/-- Every linked entry carries the hash of its key, which is one the functions accept, and the tree
ascends by hash. -/
structure Hashed (crc32 : Bytes → UInt32) (z : Zone S) : Prop where
  hash : ∀ a ∈ z.tree.inorder, (z.mem a).hash = crc32 (z.mem a).key
  valid : ∀ a ∈ z.tree.inorder, keyValid (z.mem a).key = true
  ascends : z.tree.inorder.Pairwise fun a b => (z.mem a).hash ≤ (z.mem b).hash

theorem hash_le_of_insertCmp {n t : ShmNode} (h : insertCmp n t = .lt) : n.hash ≤ t.hash := by
  unfold insertCmp at h
  by_cases hlt : n.hash < t.hash
  · exact UInt32.le_of_lt hlt
  · by_cases hgt : n.hash > t.hash
    · rw [if_neg hlt, if_pos hgt] at h
      cases h
    · exact UInt32.not_lt.mp hgt

theorem hash_ge_of_insertCmp {n t : ShmNode} (h : insertCmp n t ≠ .lt) : t.hash ≤ n.hash := by
  by_contra hc
  have hlt : n.hash < t.hash := UInt32.not_le.mp hc
  unfold insertCmp at h
  rw [if_pos hlt] at h
  exact h rfl

namespace Hashed

variable {z z' : Zone S}

theorem emptyZone (mem : Addr → ShmNode) (pool : S.State) : Hashed crc32 (emptyZone mem pool) :=
  ⟨fun _ h => absurd h List.not_mem_nil, fun _ h => absurd h List.not_mem_nil, List.Pairwise.nil⟩

/-- Unlinking entries and rewriting values keeps it. -/
theorem mono (h : Hashed crc32 z) (hsub : z'.tree.inorder.Sublist z.tree.inorder)
    (hmem : ∀ a ∈ z'.tree.inorder, (z'.mem a).hash = (z.mem a).hash ∧
      (z'.mem a).key = (z.mem a).key) : Hashed crc32 z' where
  hash := fun a ha => by
    rw [(hmem a ha).1, (hmem a ha).2]
    exact h.hash a (hsub.subset ha)
  valid := fun a ha => by
    rw [(hmem a ha).2]
    exact h.valid a (hsub.subset ha)
  ascends := (h.ascends.sublist hsub).imp_of_mem fun {a b} ha hb hab => by
    rwa [(hmem a ha).1, (hmem b hb).1]

/-- So does linking any entry, whatever it collides with. -/
theorem link {a : Addr} (h : Hashed crc32 z) (hhash : (z.mem a).hash = crc32 (z.mem a).key)
    (hvalid : keyValid (z.mem a).key = true) : Hashed crc32 (link rb a z) := by
  have hmem : ∀ b ∈ (Shm.link rb a z).tree.inorder, b = a ∨ b ∈ z.tree.inorder := by
    intro b hb
    have hb' : b ∈ (rb.insert _ a z.tree).inorder := hb
    rw [rb.inorder_insert] at hb'
    exact BinTree.mem_insertBy.mp hb'
  refine ⟨fun b hb => ?_, fun b hb => ?_, ?_⟩
  · rcases hmem b hb with rfl | hb
    · exact hhash
    · exact h.hash b hb
  · rcases hmem b hb with rfl | hb
    · exact hvalid
    · exact h.valid b hb
  · show (rb.insert _ a z.tree).inorder.Pairwise fun b c => (z.mem b).hash ≤ (z.mem c).hash
    rw [rb.inorder_insert]
    refine BinTree.pairwise_insertBy h.ascends UInt32.le_trans (fun b _ hl => ?_) fun b _ hl => ?_
    · exact hash_le_of_insertCmp (beq_iff_eq.mp hl)
    · refine hash_ge_of_insertCmp fun hc => ?_
      rw [hc] at hl
      cases hl

end Hashed

/-! ## One key -/

/-- No other key in the zone shares the CRC-32 of `key`. -/
def Alone (crc32 : Bytes → UInt32) (key : Bytes) (z : Zone S) : Prop :=
  ∀ a ∈ z.lru, crc32 (z.mem a).key = crc32 key → (z.mem a).key = key

/-- The invariant of the key: the zone is in order, and the key is linked once at most. -/
structure Clear (crc32 : Bytes → UInt32) (base : Set Addr) (key : Bytes) (z : Zone S) : Prop where
  wf : Wf base z
  hashed : Hashed crc32 z
  once : ∀ a ∈ z.lru, ∀ b ∈ z.lru, (z.mem a).key = key → (z.mem b).key = key → a = b

section Key

variable {base : Set Addr} {key : Bytes} {z z' : Zone S}

/-- Where no other key has the hash, the comparison goes by the hash alone. -/
theorem lookupCmp_hash {hash : UInt32} {n : ShmNode} (hn : hash = n.hash → n.key = key) :
    (lookupCmp hash key n = .lt ↔ hash < n.hash) ∧ (lookupCmp hash key n = .gt ↔ n.hash < hash) := by
  by_cases hlt : hash < n.hash
  · have hgt : ¬ n.hash < hash := UInt32.not_lt.mpr (UInt32.le_of_lt hlt)
    unfold lookupCmp
    rw [if_pos hlt]
    exact ⟨⟨fun _ => hlt, fun _ => rfl⟩, nofun, fun h => absurd h hgt⟩
  · by_cases hgt : n.hash < hash
    · unfold lookupCmp
      rw [if_neg hlt, if_pos hgt]
      exact ⟨⟨nofun, fun h => absurd h hlt⟩, fun _ => hgt, fun _ => rfl⟩
    · have heq : hash = n.hash := UInt32.le_antisymm (UInt32.not_lt.mp hgt) (UInt32.not_lt.mp hlt)
      rw [lookupCmp_eq_iff.mpr ⟨heq, (hn heq).symm⟩]
      exact ⟨⟨nofun, fun h => absurd h hlt⟩, nofun, fun h => absurd h hgt⟩

/-- **The lookup of the key finds its entry**, and nothing else. -/
theorem Clear.lookup_iff (h : Clear crc32 base key z) (halone : Alone crc32 key z) {a : Addr} :
    lookup key (crc32 key) z = some a ↔ a ∈ z.lru ∧ (z.mem a).key = key := by
  constructor
  · intro hl
    obtain ⟨ha, he⟩ := BinTree.search_some hl
    exact ⟨h.wf.mem_inorder.mp ha, (lookupCmp_eq_iff.mp he).2.symm⟩
  · rintro ⟨ha, hk⟩
    have hai := h.wf.mem_inorder.mpr ha
    have hkey : ∀ b ∈ z.tree.inorder, crc32 key = (z.mem b).hash → (z.mem b).key = key := by
      intro b hb he
      rw [h.hashed.hash b hb] at he
      exact halone b (h.wf.mem_inorder.mp hb) he.symm
    have hlt b hb := (lookupCmp_hash (hkey b hb)).1
    have hgt b hb := (lookupCmp_hash (hkey b hb)).2
    have hdir : BinTree.Directed (fun b => lookupCmp (crc32 key) key (z.mem b)) z.tree.inorder := by
      refine h.hashed.ascends.imp_of_mem fun {b c} hb hc hbc => ⟨fun hd => ?_, fun hd => ?_⟩
      · exact (hlt c hc).mpr (UInt32.lt_of_lt_of_le ((hlt b hb).mp hd) hbc)
      · exact (hgt b hb).mpr (UInt32.lt_of_le_of_lt hbc ((hgt c hc).mp hd))
    have hself : crc32 key = (z.mem a).hash := by rw [h.hashed.hash a hai, hk]
    obtain ⟨b, hb⟩ := BinTree.exists_search hdir hai (lookupCmp_eq_iff.mpr ⟨hself, hk.symm⟩)
    obtain ⟨hbi, he⟩ := BinTree.search_some hb
    have hbk : (z.mem b).key = key := (lookupCmp_eq_iff.mp he).2.symm
    have hba : b = a := h.once b (h.wf.mem_inorder.mp hbi) a ha hbk hk
    rw [← hba]
    exact hb

/-- What the lookup leaves, before anything is written: part of the zone, and in it the entry found. -/
theorem lookupLive_part (hw : Wf base z) (hh : Hashed crc32 z) {nowMsec : UInt64}
    {found : Option Addr} (h : lookupLive rb nowMsec key (crc32 key) z = (found, z')) :
    Wf base z' ∧ Hashed crc32 z' ∧ z'.mem = z.mem ∧ (∀ b ∈ z'.lru, b ∈ z.lru) ∧
      ∀ e ∈ found, e ∈ z'.lru ∧ (z.mem e).key = key := by
  rcases lookupLive_cases rb nowMsec key (crc32 key) z with
    ⟨a, ha, hl, -⟩ | ⟨z₀, ha, ⟨-, rfl⟩ | ⟨a, hl, -, rfl⟩⟩
  · rw [h] at ha
    cases ha
    refine ⟨hw, hh, rfl, fun _ hb => hb, fun e he => ?_⟩
    obtain rfl := Option.mem_some_iff.mp he
    exact ⟨mem_lru_of_lookup hw hl, (lookupCmp_eq_iff.mp (BinTree.search_some hl).2).2.symm⟩
  · rw [h] at ha
    cases ha
    exact ⟨hw, hh, rfl, fun _ hb => hb, fun _ he => absurd he (Option.not_mem_none _)⟩
  · rw [h] at ha
    cases ha
    have hmem := mem_lru_of_lookup hw hl
    have hsub : (rb.delete z.tree a).inorder.Sublist z.tree.inorder := by
      rw [rb.inorder_delete _ _ (hw.mem_inorder.mpr hmem)]
      exact List.erase_sublist
    exact ⟨hw.deleteLocked hmem, hh.mono hsub fun _ _ => ⟨rfl, rfl⟩, rfl,
      fun _ hb => List.mem_of_mem_erase hb, fun _ he => absurd he (Option.not_mem_none _)⟩

/-- **The entries a call leaves** are unchanged, apart from those of its own key. -/
theorem Outcome.frame (hw : Wf base z) (hh : Hashed crc32 z) {nowMsec : UInt64}
    (h : Outcome rb crc32 nowMsec key z z') : Hashed crc32 z' ∧
      ∀ b ∈ z'.lru, (b ∈ z.lru ∧ z'.mem b = z.mem b) ∨ (z'.mem b).key = key := by
  cases h with
  | unchanged => exact ⟨hh, fun b hb => Or.inl ⟨hb, rfl⟩⟩
  | removed h =>
    have hmem := mem_lru_of_lookup hw h
    refine ⟨hh.mono ?_ fun _ _ => ⟨rfl, rfl⟩, fun b hb => Or.inl ⟨List.mem_of_mem_erase hb, rfl⟩⟩
    show (rb.delete z.tree _).inorder.Sublist _
    rw [rb.inorder_delete _ _ (hw.mem_inorder.mpr hmem)]
    exact List.erase_sublist
  | @touched a h =>
    have hmem := mem_lru_of_lookup hw h
    refine ⟨⟨hh.hash, hh.valid, hh.ascends⟩, fun b hb => Or.inl ⟨?_, rfl⟩⟩
    exact (List.perm_cons_erase hmem).mem_iff.mpr hb
  | @overwritten a value expiresAtMsec h =>
    have hmem := mem_lru_of_lookup hw h
    have hk : (z.mem a).key = key := (lookupCmp_eq_iff.mp (BinTree.search_some h).2).2.symm
    constructor
    · refine hh.mono (List.Sublist.refl _) fun b _ => ?_
      by_cases hb : b = a
      · subst hb; simp [Shm.overwrite, Shm.touchLocked]
      · simp [Shm.overwrite, Shm.touchLocked, Function.update_of_ne hb]
    · intro b hb
      by_cases hba : b = a
      · subst hba
        exact Or.inr (by simpa [Shm.overwrite, Shm.touchLocked] using hk)
      · refine Or.inl ⟨(List.perm_cons_erase hmem).mem_iff.mpr hb, ?_⟩
        simp [Shm.overwrite, Shm.touchLocked, Function.update_of_ne hba]
  | @reallocated found z₀ z' rc value expiresAtMsec hvalid hl hr =>
    obtain ⟨hw₀, hh₀, hmem₀, hsub₀, hfound⟩ := lookupLive_part hw hh hl
    obtain ⟨n, z₁, hev, ⟨-, rfl, hw₁, -⟩ | ⟨-, -, a, z₃, -, hlru, hw₃, hmem, hlru₃, hsub, rfl⟩⟩ :=
      reallocate_cases hw₀ (fun e he => (hfound e he).1) hr
    · refine ⟨hh₀.mono hev.inorder fun b _ => by rw [hev.mem]; exact ⟨rfl, rfl⟩, fun b hb => ?_⟩
      exact Or.inl ⟨hsub₀ b (hev.mem_lru hb), by rw [hev.mem, hmem₀]⟩
    · have hin : ∀ b ∈ z₃.lru, b ∈ z₁.lru := fun b hb => mem_of_mem_dropExisting (hlru₃ ▸ hb)
      have hold : ∀ b ∈ z₃.lru, z₃.mem b = z.mem b := by
        intro b hb
        have hne : b ≠ a := fun e => hlru (e ▸ hin b hb)
        rw [hmem, Function.update_of_ne hne, hev.mem, hmem₀]
      have hnew : z₃.mem a = ⟨crc32 key, key, value, expiresAtMsec⟩ := by
        rw [hmem, Function.update_self]
      have hh₃ : Hashed crc32 z₃ := by
        refine hh₀.mono (hsub.trans hev.inorder) fun b hb => ?_
        rw [hold b (hw₃.mem_inorder.mp hb), hmem₀]
        exact ⟨rfl, rfl⟩
      refine ⟨hh₃.link (by rw [hnew]) (by rw [hnew]; exact hvalid), fun b hb => ?_⟩
      rcases List.mem_cons.mp hb with rfl | hb
      · refine Or.inr ?_
        show (z₃.mem b).key = key
        rw [hnew]
      · exact Or.inl ⟨hsub₀ b (hev.mem_lru (hin b hb)), hold b hb⟩

/-- The entry that the lookup found is the only one of the key that it leaves. -/
theorem Clear.lookupLive_only (h : Clear crc32 base key z) (halone : Alone crc32 key z)
    {nowMsec : UInt64} {found : Option Addr}
    (hl : lookupLive rb nowMsec key (crc32 key) z = (found, z')) :
    ∀ b ∈ z'.lru, (z.mem b).key = key → found = some b := by
  intro b hb hbk
  obtain ⟨-, -, -, hsub, -⟩ := lookupLive_part h.wf h.hashed hl
  have hlb := (h.lookup_iff halone).mpr ⟨hsub b hb, hbk⟩
  rcases lookupLive_cases rb nowMsec key (crc32 key) z with
    ⟨a, ha, hla, -⟩ | ⟨z₂, ha, ⟨hnone, rfl⟩ | ⟨a, hla, -, rfl⟩⟩
  · rw [hl] at ha
    cases ha
    rw [← hla, hlb]
  · rw [hlb] at hnone
    cases hnone
  · rw [hl] at ha
    cases ha
    rw [hlb] at hla
    cases hla
    exact absurd rfl (h.wf.nodup.mem_erase_iff.mp hb).1

/-- A call on the key itself leaves it linked once at most. -/
theorem Outcome.once (h : Clear crc32 base key z) (halone : Alone crc32 key z) {nowMsec : UInt64}
    (ho : Outcome rb crc32 nowMsec key z z') :
    ∀ a ∈ z'.lru, ∀ b ∈ z'.lru, (z'.mem a).key = key → (z'.mem b).key = key → a = b := by
  -- a part of the zone with the same contents has no more entries of the key
  have hpart : ∀ {z'' : Zone S}, (∀ b ∈ z''.lru, b ∈ z.lru ∧ (z''.mem b).key = (z.mem b).key) →
      ∀ a ∈ z''.lru, ∀ b ∈ z''.lru, (z''.mem a).key = key → (z''.mem b).key = key → a = b := by
    intro z'' hz a ha b hb hak hbk
    rw [(hz a ha).2] at hak
    rw [(hz b hb).2] at hbk
    exact h.once a (hz a ha).1 b (hz b hb).1 hak hbk
  cases ho with
  | unchanged => exact h.once
  | removed hl => exact hpart fun b hb => ⟨List.mem_of_mem_erase hb, rfl⟩
  | touched hl =>
    have hmem := mem_lru_of_lookup h.wf hl
    exact hpart fun b hb => ⟨(List.perm_cons_erase hmem).mem_iff.mpr hb, rfl⟩
  | @overwritten a value expiresAtMsec hl =>
    have hmem := mem_lru_of_lookup h.wf hl
    refine hpart fun b hb => ⟨(List.perm_cons_erase hmem).mem_iff.mpr hb, ?_⟩
    by_cases hba : b = a
    · subst hba; simp [Shm.overwrite, Shm.touchLocked]
    · simp [Shm.overwrite, Shm.touchLocked, Function.update_of_ne hba]
  | @reallocated found z₀ z' rc value expiresAtMsec hvalid hl hr =>
    obtain ⟨hw₀, -, hmem₀, hsub₀, hfound⟩ := lookupLive_part h.wf h.hashed hl
    have honly := h.lookupLive_only halone hl
    obtain ⟨n, z₁, hev, ⟨-, rfl, -⟩ | ⟨-, -, a, z₃, -, hlru, hw₃, hmem, hlru₃, -, rfl⟩⟩ :=
      reallocate_cases hw₀ (fun e he => (hfound e he).1) hr
    · exact hpart fun b hb => ⟨hsub₀ b (hev.mem_lru hb), by rw [hev.mem, hmem₀]⟩
    · have hother : ∀ b ∈ z₃.lru, (z₃.mem b).key ≠ key := by
        intro b hb hbk
        have hb₁ : b ∈ z₁.lru := mem_of_mem_dropExisting (hlru₃ ▸ hb)
        have hne : b ≠ a := fun e => hlru (e ▸ hb₁)
        rw [hmem, Function.update_of_ne hne, hev.mem, hmem₀] at hbk
        obtain rfl := honly b (hev.mem_lru hb₁) hbk
        have hnodup : z₁.lru.Nodup := by
          rw [hev.lru]
          exact hw₀.nodup.sublist (evictMany_sublist _ n _)
        have hberase : b ∈ dropExisting (some b) z₁.lru := hlru₃ ▸ hb
        exact (hnodup.mem_erase_iff.mp hberase).1 rfl
      intro b hb c hc hbk hck
      rcases List.mem_cons.mp hb with rfl | hb
      · rcases List.mem_cons.mp hc with rfl | hc
        · rfl
        · exact absurd hck (hother c hc)
      · exact absurd hbk (hother b hb)

/-- **Every call keeps the invariant of the key**, as long as no other key shares its CRC-32. -/
theorem exec_clear (h : Clear crc32 base key z) (halone : Alone crc32 key z) (c : Call) :
    Clear crc32 base key (callStep rb crc32 z c) := by
  have ho : Outcome rb crc32 c.1 c.2.key z (callStep rb crc32 z c) := exec_outcome c
  have hown : Owned base z.pool z := ⟨h.wf, .refl⟩
  obtain ⟨hh, hframe⟩ := ho.frame h.wf h.hashed
  refine ⟨(exec_owned hown c).wf, hh, ?_⟩
  by_cases hk : c.2.key = key
  · rw [hk] at ho
    exact ho.once h halone
  · intro a ha b hb hak hbk
    have hold : ∀ d ∈ (callStep rb crc32 z c).lru, ((callStep rb crc32 z c).mem d).key = key →
        d ∈ z.lru ∧ (z.mem d).key = key := by
      intro d hd hdk
      rcases hframe d hd with ⟨hdz, he⟩ | he
      · rw [he] at hdk
        exact ⟨hdz, hdk⟩
      · exact absurd (he.symm.trans hdk) hk
    obtain ⟨ha', hak'⟩ := hold a ha hak
    obtain ⟨hb', hbk'⟩ := hold b hb hbk
    exact h.once a ha' b hb' hak' hbk'

end Key

end NgxWasm.Shm
