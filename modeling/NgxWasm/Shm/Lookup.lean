import NgxWasm.Shm.Wf
import Mathlib.Data.List.Pairwise

/-!
# The lookup finds every linked key, as long as the two comparators agree

`rbtree_insert_value` places colliding keys by length first, `lookup` descends by `ngx_memn2cmp`
alone. A descent finds what an insertion placed only if both go the same way at every node. The two
agree on a pair of keys unless their hashes collide and the shorter one is the lexicographically
greater (`OrdersAlike`, `insertCmp_eq_lookupCmp_iff`).

* `Keyed z`: every linked entry carries the hash of its key, the linked keys order alike, and the
  in-order sequence of the tree ascends in the order the lookup uses.
* `Keyed.exists_lookup`: in such a zone the lookup finds every linked key; `Keyed.key_inj`: no key
  is linked twice.
* `Keyed.mono`: unlinking entries and rewriting values keeps the invariant.
* `Keyed.link`: linking a new key keeps it, if the key orders alike with the linked ones.

The hash is any function: how often keys collide under CRC-32 plays no part.
-/

namespace NgxWasm.Shm

open Lib

variable {S : SlabPool} {rb : Rbtree} {crc32 : Bytes → UInt32}

/-! ## The order of the lookup -/

/-- Hash first, then bytes. -/
def nodeCmp : UInt32 × Bytes → UInt32 × Bytes → Ordering :=
  compareLex (compareOn Prod.fst) (compareOn Prod.snd)

instance : Std.TransCmp nodeCmp :=
  inferInstanceAs (Std.TransCmp (compareLex (compareOn Prod.fst) (compareOn Prod.snd)))

theorem lookupCmp_eq (hash : UInt32) (key : Bytes) (node : ShmNode) :
    lookupCmp hash key node = nodeCmp (hash, key) (node.hash, node.key) := by
  unfold lookupCmp nodeCmp compareLex compareOn memn2cmp
  by_cases h₁ : hash < node.hash
  · rw [if_pos h₁, Std.compare_eq_lt.mpr h₁]; rfl
  · rw [if_neg h₁]
    by_cases h₂ : hash > node.hash
    · rw [if_pos h₂, Std.compare_eq_gt.mpr h₂]; rfl
    · have he : hash = node.hash := UInt32.le_antisymm (UInt32.not_lt.mp h₂) (UInt32.not_lt.mp h₁)
      rw [if_neg h₂, he, show compare node.hash node.hash = .eq from Std.ReflOrd.compare_self]
      rfl

/-- `a` comes before `b` in the order of the lookup. -/
def nodeLt (n t : ShmNode) : Prop := lookupCmp n.hash n.key t = .lt

theorem nodeLt_trans {n t u : ShmNode} (h : nodeLt n t) (h' : nodeLt t u) : nodeLt n u := by
  unfold nodeLt at *
  rw [lookupCmp_eq] at *
  exact Std.TransCmp.lt_trans h h'

theorem lookupCmp_lt_of_lt {hash : UInt32} {key : Bytes} {n t : ShmNode}
    (h : lookupCmp hash key n = .lt) (h' : nodeLt n t) : lookupCmp hash key t = .lt :=
  nodeLt_trans (n := ⟨hash, key, [], 0⟩) h h'

theorem lookupCmp_gt_iff {hash : UInt32} {key : Bytes} {n : ShmNode} :
    lookupCmp hash key n = .gt ↔ nodeLt n ⟨hash, key, [], 0⟩ := by
  unfold nodeLt
  rw [lookupCmp_eq, lookupCmp_eq]
  exact Std.OrientedCmp.gt_iff_lt

theorem lookupCmp_eq_iff {hash : UInt32} {key : Bytes} {n : ShmNode} :
    lookupCmp hash key n = .eq ↔ hash = n.hash ∧ key = n.key := by
  rw [lookupCmp_eq]
  unfold nodeCmp
  rw [compareLex_eq_eq]
  exact and_congr Std.LawfulEqOrd.compare_eq_iff_eq Std.LawfulEqOrd.compare_eq_iff_eq

/-! ## When the two comparators agree -/

/-- Two keys order alike: if their hashes collide, the shorter one is the lexicographically
smaller. -/
def OrdersAlike (crc32 : Bytes → UInt32) (k e : Bytes) : Prop :=
  crc32 k = crc32 e → (k.length < e.length → memn2cmp k e = .lt) ∧
    (e.length < k.length → memn2cmp k e = .gt)

instance (crc32 : Bytes → UInt32) (k e : Bytes) : Decidable (OrdersAlike crc32 k e) :=
  inferInstanceAs (Decidable (_ → _ ∧ _))

theorem OrdersAlike.symm {k e : Bytes} (h : OrdersAlike crc32 k e) : OrdersAlike crc32 e k :=
  fun he => ⟨fun hl => Std.OrientedCmp.gt_iff_lt.mp ((h he.symm).2 hl),
    fun hl => Std.OrientedCmp.gt_iff_lt.mpr ((h he.symm).1 hl)⟩

theorem OrdersAlike.refl (k : Bytes) : OrdersAlike crc32 k k :=
  fun _ => ⟨fun h => absurd h (lt_irrefl _), fun h => absurd h (lt_irrefl _)⟩

/-- **The condition is exact**: on two entries with the hashes of their keys, the insert callback
and the lookup give the same answer iff the keys order alike. -/
theorem insertCmp_eq_lookupCmp_iff {n t : ShmNode} (hn : n.hash = crc32 n.key)
    (ht : t.hash = crc32 t.key) :
    insertCmp n t = lookupCmp n.hash n.key t ↔ OrdersAlike crc32 n.key t.key := by
  unfold insertCmp lookupCmp OrdersAlike
  rw [← hn, ← ht]
  by_cases h₁ : n.hash < t.hash
  · rw [if_pos h₁, if_pos h₁]
    constructor
    · intro _ he
      exact absurd (he ▸ h₁) (UInt32.lt_irrefl _)
    · intro _
      exact rfl
  by_cases h₂ : n.hash > t.hash
  · rw [if_neg h₁, if_neg h₁, if_pos h₂, if_pos h₂]
    constructor
    · intro _ he
      exact absurd (he ▸ h₂) (UInt32.lt_irrefl _)
    · intro _
      exact rfl
  have he : n.hash = t.hash := UInt32.le_antisymm (UInt32.not_lt.mp h₂) (UInt32.not_lt.mp h₁)
  rw [if_neg h₁, if_neg h₁, if_neg h₂, if_neg h₂]
  by_cases h₃ : n.key.length < t.key.length
  · rw [if_pos h₃]
    exact ⟨fun h _ => ⟨fun _ => h.symm, fun h' => absurd h' (Nat.lt_asymm h₃)⟩,
      fun h => ((h he).1 h₃).symm⟩
  · rw [if_neg h₃]
    by_cases h₄ : n.key.length > t.key.length
    · rw [if_pos h₄]
      constructor
      · intro h _
        exact ⟨fun h' => absurd h' h₃, fun _ => h.symm⟩
      · intro h
        exact ((h he).2 h₄).symm
    · rw [if_neg h₄]
      constructor
      · intro _ _
        exact ⟨fun h' => absurd h' h₃, fun h' => absurd h' h₄⟩
      · intro _
        exact rfl

/-! ## The invariant -/

/-- Every linked entry carries the hash of its key, the linked keys order alike, and the tree
ascends in the order of the lookup. -/
structure Keyed (crc32 : Bytes → UInt32) (z : Zone S) : Prop where
  hash : ∀ a ∈ z.tree.inorder, (z.mem a).hash = crc32 (z.mem a).key
  alike : ∀ a ∈ z.tree.inorder, ∀ b ∈ z.tree.inorder, OrdersAlike crc32 (z.mem a).key (z.mem b).key
  ordered : z.tree.inorder.Pairwise fun a b => nodeLt (z.mem a) (z.mem b)

/-- Some entry linked in the tree holds `key`. -/
def Linked (key : Bytes) (z : Zone S) : Prop := ∃ a ∈ z.tree.inorder, (z.mem a).key = key

namespace Keyed

variable {z z' : Zone S}

theorem emptyZone (mem : Addr → ShmNode) (pool : S.State) : Keyed crc32 (emptyZone mem pool) :=
  ⟨fun _ h => absurd h List.not_mem_nil, fun _ h => absurd h List.not_mem_nil, List.Pairwise.nil⟩

/-- Unlinking entries and rewriting values keeps the invariant. -/
theorem mono (h : Keyed crc32 z) (hsub : z'.tree.inorder.Sublist z.tree.inorder)
    (hmem : ∀ a ∈ z'.tree.inorder, (z'.mem a).hash = (z.mem a).hash ∧
      (z'.mem a).key = (z.mem a).key) : Keyed crc32 z' where
  hash := fun a ha => by
    rw [(hmem a ha).1, (hmem a ha).2]
    exact h.hash a (hsub.subset ha)
  alike := fun a ha b hb => by
    rw [(hmem a ha).2, (hmem b hb).2]
    exact h.alike a (hsub.subset ha) b (hsub.subset hb)
  ordered := (h.ordered.sublist hsub).imp_of_mem fun {a b} ha hb hab => by
    unfold nodeLt lookupCmp at *
    rwa [(hmem a ha).1, (hmem a ha).2, (hmem b hb).1, (hmem b hb).2]

theorem directed (h : Keyed crc32 z) (hash : UInt32) (key : Bytes) :
    BinTree.Directed (fun a => lookupCmp hash key (z.mem a)) z.tree.inorder :=
  h.ordered.imp fun {a b} hab => by
    refine ⟨fun hlt => lookupCmp_lt_of_lt hlt hab, fun hgt => ?_⟩
    rw [lookupCmp_gt_iff] at *
    exact nodeLt_trans hab hgt

/-- **In a keyed zone the lookup is exact.** -/
theorem exists_lookup (h : Keyed crc32 z) {key : Bytes} (hl : Linked key z) :
    ∃ a, lookup key (crc32 key) z = some a := by
  obtain ⟨a, ha, hk⟩ := hl
  refine BinTree.exists_search (h.directed _ _) ha (lookupCmp_eq_iff.mpr ⟨?_, hk.symm⟩)
  rw [h.hash a ha, hk]

/-- No key is linked twice. -/
theorem key_inj (h : Keyed crc32 z) {a b : Addr} (ha : a ∈ z.tree.inorder) (hb : b ∈ z.tree.inorder)
    (hk : (z.mem a).key = (z.mem b).key) : a = b := by
  have hne : z.tree.inorder.Pairwise fun a b => (z.mem a).key ≠ (z.mem b).key :=
    h.ordered.imp_of_mem fun {a b} ha hb hab hk => by
      have he : lookupCmp (z.mem a).hash (z.mem a).key (z.mem b) = .eq :=
        lookupCmp_eq_iff.mpr ⟨by rw [h.hash a ha, h.hash b hb, hk], hk⟩
      exact absurd (hab.symm.trans he) (by simp)
  have : Std.Symm fun a b => (z.mem a).key ≠ (z.mem b).key := ⟨fun _ _ h => h.symm⟩
  by_contra hab
  exact hne.forall ha hb hab hk

/-- **Linking a new key keeps the invariant**, if the key orders alike with the linked ones: the
callback then descends as the lookup does. -/
theorem link {a : Addr} (h : Keyed crc32 z) (hhash : (z.mem a).hash = crc32 (z.mem a).key)
    (hnew : ¬ Linked (z.mem a).key z)
    (halike : ∀ b ∈ z.tree.inorder, OrdersAlike crc32 (z.mem a).key (z.mem b).key) :
    Keyed crc32 (link rb a z) := by
  have hmem : ∀ b ∈ (Shm.link rb a z).tree.inorder, b = a ∨ b ∈ z.tree.inorder := by
    intro b hb
    obtain ⟨l₁, l₂, ht, ht'⟩ :=
      BinTree.inorder_insertBy (fun t => insertCmp (z.mem a) (z.mem t) == .lt) a z.tree
    rw [show (Shm.link rb a z).tree.inorder = l₁ ++ a :: l₂ from (rb.inorder_insert _ _ _).trans ht',
      List.mem_append, List.mem_cons] at hb
    rw [ht, List.mem_append]
    tauto
  have hcmp : ∀ b ∈ z.tree.inorder,
      insertCmp (z.mem a) (z.mem b) = lookupCmp (z.mem a).hash (z.mem a).key (z.mem b) :=
    fun b hb => (insertCmp_eq_lookupCmp_iff hhash (h.hash b hb)).mpr (halike b hb)
  refine ⟨fun b hb => ?_, fun b hb c hc => ?_, ?_⟩
  · rcases hmem b hb with rfl | hb
    · exact hhash
    · exact h.hash b hb
  · show OrdersAlike crc32 (z.mem b).key (z.mem c).key
    rcases hmem b hb with hba | hb'
    · rw [hba]
      rcases hmem c hc with hca | hc'
      · rw [hca]; exact .refl _
      · exact halike c hc'
    · rcases hmem c hc with hca | hc'
      · rw [hca]; exact (halike b hb').symm
      · exact h.alike b hb' c hc'
  · show (rb.insert _ a z.tree).inorder.Pairwise fun b c => nodeLt (z.mem b) (z.mem c)
    rw [rb.inorder_insert]
    refine BinTree.pairwise_insertBy h.ordered nodeLt_trans (fun b hb hl => ?_) fun b hb hl => ?_
    · rw [hcmp b hb] at hl
      simpa [nodeLt] using hl
    · rw [hcmp b hb] at hl
      cases hd : lookupCmp (z.mem a).hash (z.mem a).key (z.mem b) with
      | lt => rw [hd] at hl; exact absurd hl (by simp)
      | gt => exact lookupCmp_gt_iff.mp hd
      | eq => exact absurd ⟨b, hb, (lookupCmp_eq_iff.mp hd).2.symm⟩ hnew

end Keyed

end NgxWasm.Shm
