import NgxWasm.Lib.SearchTree
import Mathlib.Algebra.Order.Ring.Int
import Mathlib.Data.Set.Insert

/-!
# What the module takes from nginx

The module is compiled into nginx and calls its core. Nothing of the core is in this repository,
so it enters the model in one of two ways.

* Functions whose result is fixed by their documentation are written out: the return codes,
  `ngx_memn2cmp` (bytes compared lexicographically, a proper prefix first) and `ngx_crc32_short`
  (the CRC-32 of the key, by nibbles over a table of sixteen words).
* Data structures whose inner decisions the module never sees are parameters: `Rbtree` (the
  recolouring and rotations after an insertion, and deletion) and `SlabPool` (which allocation
  succeeds, and where). A structure holds the functions and the facts the module relies on.

`Rbtree.unbalanced`, `SlabPool.ofCapacity` and `SlabPool.ofBytes` are instances of the two that
compute. They serve the runs on fixed inputs; everything else is proved for any instance.
-/

namespace NgxWasm

open Lib

/-- A byte string: an nginx `(u_char *, size_t)` pair. -/
abbrev Bytes := List UInt8

/-- The address of a slab chunk. -/
abbrev Addr := Nat

/-! ## Return codes -/

/-- `NGX_HTTP_WASM_OK`. -/
def wasmOk : Int := 0

/-- `NGX_HTTP_WASM_NOT_FOUND`. -/
def wasmNotFound : Int := -1

/-- `NGX_HTTP_WASM_ERROR`. -/
def wasmError : Int := -2

theorem wasmError_ne_wasmOk : wasmError ≠ wasmOk := by decide

/-- The `ngx_int_t` a handler or a run returns. -/
inductive Rc where
  /-- `NGX_OK` (0). -/
  | ok
  /-- `NGX_ERROR` (-1). -/
  | error
  /-- `NGX_AGAIN` (-2). -/
  | again
  /-- `NGX_DONE` (-4). -/
  | done
  /-- `NGX_DECLINED` (-5). -/
  | declined
  /-- An HTTP status, `NGX_HTTP_SPECIAL_RESPONSE` (300) or above where it is an error. -/
  | http (status : Nat)
  deriving Repr, DecidableEq

/-- `NGX_HTTP_INTERNAL_SERVER_ERROR`. -/
def Rc.internal : Rc := .http 500

/-- `NGX_HTTP_REQUEST_ENTITY_TOO_LARGE`. -/
def Rc.tooLarge : Rc := .http 413

/-! ## Strings -/

/-- `ngx_memn2cmp`: lexicographic by bytes, a proper prefix first. -/
def memn2cmp (s1 s2 : Bytes) : Ordering := compare s1 s2

instance : Std.TransCmp memn2cmp := inferInstanceAs (Std.TransCmp (compare (α := Bytes)))

/-- `ngx_crc32_table_short`. -/
def crc32TableShort : Array UInt32 :=
  #[0x00000000, 0x1db71064, 0x3b6e20c8, 0x26d930ac, 0x76dc4190, 0x6b6b51f4, 0x4db26158, 0x5005713c,
    0xedb88320, 0xf00f9344, 0xd6d6a3e8, 0xcb61b38c, 0x9b64c2b0, 0x86d3d2d4, 0xa00ae278, 0xbdbdf21c]

/-- One nibble of `ngx_crc32_short`: `table[(crc ^ n) & 0xf] ^ (crc >> 4)`. -/
def crc32Nibble (crc n : UInt32) : UInt32 :=
  crc32TableShort.getD ((crc ^^^ n) &&& 0xf).toNat 0 ^^^ (crc >>> 4)

/-- `ngx_crc32_short`. -/
def crc32Short (p : Bytes) : UInt32 :=
  p.foldl (fun (crc : UInt32) (c : UInt8) =>
    crc32Nibble (crc32Nibble crc (c.toUInt32 &&& 0xf)) (c.toUInt32 >>> 4)) 0xffffffff ^^^ 0xffffffff

/-! ## The red-black tree -/

/-- `ngx_rbtree_insert` after the insert callback, and `ngx_rbtree_delete`. Both rebalance in a
way the module never reads: the in-order sequence of the other nodes is kept. -/
structure Rbtree where
  /-- The recolouring and rotations that follow the callback. -/
  rebalance : BinTree Addr → BinTree Addr
  /-- `ngx_rbtree_delete`. -/
  delete : BinTree Addr → Addr → BinTree Addr
  inorder_rebalance : ∀ t, (rebalance t).inorder = t.inorder
  inorder_delete : ∀ t a, a ∈ t.inorder → (delete t a).inorder = t.inorder.erase a

/-- `ngx_rbtree_insert`: the first node becomes the black root, any other goes through the
module's insert callback. -/
def Rbtree.insert (rb : Rbtree) (left : Addr → Bool) (a : Addr) : BinTree Addr → BinTree Addr
  | .leaf => .node .black .leaf a .leaf
  | t => rb.rebalance (t.insertBy left a)

theorem Rbtree.inorder_insert (rb : Rbtree) (left : Addr → Bool) (a : Addr) (t : BinTree Addr) :
    (rb.insert left a t).inorder = (t.insertBy left a).inorder := by
  cases t with
  | leaf => rfl
  | node c l x r => exact rb.inorder_rebalance _

/-! ## The slab allocator -/

/-- `ngx_slab_alloc_locked` and `ngx_slab_free_locked` on a pool. Which requests succeed is up to
the pool, whose state is arbitrary; a chunk handed out was free before, and stays allocated until
it is freed. -/
structure SlabPool where
  State : Type
  alloc : State → Nat → Option Addr × State
  free : State → Addr → State
  /-- The chunks handed out and not yet freed. -/
  allocated : State → Set Addr
  alloc_some : ∀ {s n a s'}, alloc s n = (some a, s') →
    a ∉ allocated s ∧ allocated s' = insert a (allocated s)
  alloc_none : ∀ {s n s'}, alloc s n = (none, s') → allocated s' = allocated s
  allocated_free : ∀ {s a}, a ∈ allocated s → allocated (free s a) = allocated s \ {a}

/-! ## Instances -/

/-- A tree that is never rebalanced. -/
def Rbtree.unbalanced : Rbtree where
  rebalance t := t
  delete t a := .ofList (t.inorder.erase a)
  inorder_rebalance _ := rfl
  inorder_delete _ _ _ := BinTree.inorder_ofList _

theorem le_foldr_max {l : List Addr} {a : Addr} (h : a ∈ l) : a ≤ l.foldr max 0 := by
  induction l with
  | nil => exact absurd h List.not_mem_nil
  | cons x xs ih =>
    rcases List.mem_cons.mp h with rfl | h
    · exact le_max_left _ _
    · exact (ih h).trans (le_max_right _ _)

/-- A pool of `capacity` chunks of one size. -/
def SlabPool.ofCapacity (capacity : Nat) : SlabPool where
  State := List Addr
  alloc l _ :=
    if l.length < capacity then (some (l.foldr max 0 + 1), (l.foldr max 0 + 1) :: l) else (none, l)
  free l a := l.filter (· ≠ a)
  allocated l := {a | a ∈ l}
  alloc_some {l n a l'} h := by
    split at h
    · simp only [Prod.mk.injEq, Option.some.injEq] at h
      obtain ⟨rfl, rfl⟩ := h
      refine ⟨fun hm => Nat.not_succ_le_self _ (le_foldr_max hm), ?_⟩
      ext b
      simp
    · simp at h
  alloc_none {l n l'} h := by
    split at h
    · simp at h
    · simp only [Prod.mk.injEq, true_and] at h
      rw [h]
  allocated_free {l a} _ := by
    ext b
    simp

/-- A pool of `capacity` bytes, which hands out any chunk that still fits. -/
def SlabPool.ofBytes (capacity : Nat) : SlabPool where
  State := List (Addr × Nat)
  alloc l n :=
    if (l.map Prod.snd).sum + n ≤ capacity then
      (some ((l.map Prod.fst).foldr max 0 + 1), ((l.map Prod.fst).foldr max 0 + 1, n) :: l)
    else (none, l)
  free l a := l.filter fun c => c.1 ≠ a
  allocated l := {a | a ∈ l.map Prod.fst}
  alloc_some {l n a l'} h := by
    split at h
    · simp only [Prod.mk.injEq, Option.some.injEq] at h
      obtain ⟨rfl, rfl⟩ := h
      refine ⟨fun hm => Nat.not_succ_le_self _ (le_foldr_max hm), ?_⟩
      ext b
      simp
    · simp at h
  alloc_none {l n l'} h := by
    split at h
    · simp at h
    · simp only [Prod.mk.injEq, true_and] at h
      rw [h]
  allocated_free {l a} _ := by
    ext b
    simp only [Set.mem_ofPred_eq, List.mem_map, List.mem_filter, decide_eq_true_eq, Set.mem_sdiff,
      Set.mem_singleton_iff]
    constructor
    · rintro ⟨c, ⟨hc, hne⟩, rfl⟩
      exact ⟨⟨c, hc, rfl⟩, hne⟩
    · rintro ⟨⟨c, hc, rfl⟩, hne⟩
      exact ⟨c, ⟨hc, hne⟩, rfl⟩

end NgxWasm
