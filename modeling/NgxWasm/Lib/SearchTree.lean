import Mathlib.Data.List.Basic
import Mathlib.Data.List.Pairwise

/-!
# Search trees read through their in-order sequence

A tree that rebalances itself is described by its in-order sequence: rotations change the shape
and the colours and keep `inorder`. Everything below is therefore stated about `inorder`, for a
search and an insertion that each descend by a comparison of their own.

* `search dir t` descends by `dir`, the comparison of the sought key with a node (`.lt` goes
  left). It finds a node that compares equal whenever the in-order sequence is `Directed` for
  `dir` (`exists_search`), whatever the shape.
* `insertBy left x t` hangs `x` at the leaf that the answers of `left` lead to. The new in-order
  sequence has `x` put somewhere between (`inorder_insertBy`).
* `pairwise_insertBy`: an insertion whose answers agree with an order, strict or not, keeps the
  sequence ordered.
* `Sorted cmp key t`: both descend by one comparison of keys. The search then finds what the tree
  holds (`Sorted.search_eq`), and inserting a new key keeps the tree sorted (`Sorted.insertBy`).

The two comparisons need not be the same one: an ordered sequence is kept only when `left` agrees
with the order, and is searchable only when `dir` does.
-/

namespace NgxWasm.Lib

/-- The colour of a red-black node. -/
inductive Color where
  | red
  | black
  deriving Repr, DecidableEq

/-- A binary tree whose nodes carry a colour. -/
inductive BinTree (α : Type) where
  | leaf
  | node (color : Color) (left : BinTree α) (val : α) (right : BinTree α)
  deriving Repr

namespace BinTree

variable {α : Type}

/-- The in-order sequence of a tree. -/
def inorder : BinTree α → List α
  | leaf => []
  | node _ l x r => l.inorder ++ x :: r.inorder

/-- The first node on the path of `dir` that compares equal. -/
def search (dir : α → Ordering) : BinTree α → Option α
  | leaf => none
  | node _ l x r =>
    match dir x with
    | .lt => search dir l
    | .gt => search dir r
    | .eq => some x

/-- `x` as a red leaf at the end of the path that goes left where `left` answers `true`. -/
def insertBy (left : α → Bool) (x : α) : BinTree α → BinTree α
  | leaf => node .red leaf x leaf
  | node c l y r => if left y then node c (insertBy left x l) y r else node c l y (insertBy left x r)

/-- The tree whose nodes all hang to the right. -/
def ofList : List α → BinTree α
  | [] => leaf
  | x :: xs => node .black leaf x (ofList xs)

@[simp] theorem inorder_leaf : (leaf : BinTree α).inorder = [] := rfl

@[simp] theorem inorder_node (c : Color) (l : BinTree α) (x : α) (r : BinTree α) :
    (node c l x r).inorder = l.inorder ++ x :: r.inorder := rfl

theorem inorder_ofList (l : List α) : (ofList l).inorder = l := by
  induction l with
  | nil => rfl
  | cons x xs ih => rw [ofList, inorder_node, ih, inorder_leaf, List.nil_append]

/-! ## Searching -/

/-- Along `l` the answers of `dir` run through `.gt`, then `.eq`, then `.lt`. -/
def Directed (dir : α → Ordering) (l : List α) : Prop :=
  l.Pairwise fun a b => (dir a = .lt → dir b = .lt) ∧ (dir b = .gt → dir a = .gt)

/-- What a search returns is in the tree and compares equal. -/
theorem search_some {dir : α → Ordering} {t : BinTree α} {a : α} (h : search dir t = some a) :
    a ∈ t.inorder ∧ dir a = .eq := by
  induction t with
  | leaf => exact absurd h (by simp [search])
  | node c l x r ihl ihr =>
    simp only [search] at h
    cases hx : dir x with
    | lt =>
      rw [hx] at h
      exact ⟨List.mem_append_left _ (ihl h).1, (ihl h).2⟩
    | gt =>
      rw [hx] at h
      exact ⟨List.mem_append_right _ (List.mem_cons_of_mem _ (ihr h).1), (ihr h).2⟩
    | eq =>
      rw [hx] at h
      obtain rfl := Option.some.inj h
      exact ⟨List.mem_append_right _ List.mem_cons_self, hx⟩

/-- **A directed tree finds what it holds**, whatever its shape. -/
theorem exists_search {dir : α → Ordering} {t : BinTree α} (hd : Directed dir t.inorder) {a : α}
    (ha : a ∈ t.inorder) (he : dir a = .eq) : ∃ b, search dir t = some b := by
  induction t with
  | leaf => exact absurd ha List.not_mem_nil
  | node c l x r ihl ihr =>
    obtain ⟨hl, hxr, hcross⟩ := List.pairwise_append.mp hd
    obtain ⟨hx, hr⟩ := List.pairwise_cons.mp hxr
    rw [inorder_node, List.mem_append, List.mem_cons] at ha
    simp only [search]
    cases hdx : dir x with
    | eq => exact ⟨x, rfl⟩
    | lt =>
      rcases ha with ha | rfl | ha
      · exact ihl hl ha
      · rw [he] at hdx; exact absurd hdx (by simp)
      · -- past a node that compares `.lt` everything compares `.lt`
        have := (hx a ha).1 hdx
        rw [he] at this; exact absurd this (by simp)
    | gt =>
      rcases ha with ha | rfl | ha
      · have := (hcross a ha x List.mem_cons_self).2 hdx
        rw [he] at this; exact absurd this (by simp)
      · rw [he] at hdx; exact absurd hdx (by simp)
      · exact ihr hr ha

/-! ## Inserting -/

/-- The other nodes keep their sequence. -/
theorem inorder_insertBy (left : α → Bool) (x : α) (t : BinTree α) :
    ∃ l₁ l₂, t.inorder = l₁ ++ l₂ ∧ (insertBy left x t).inorder = l₁ ++ x :: l₂ := by
  induction t with
  | leaf => exact ⟨[], [], rfl, rfl⟩
  | node c l y r ihl ihr =>
    by_cases hy : left y = true
    · obtain ⟨l₁, l₂, h, h'⟩ := ihl
      refine ⟨l₁, l₂ ++ y :: r.inorder, by simp [h], ?_⟩
      simp [insertBy, hy, h']
    · obtain ⟨l₁, l₂, h, h'⟩ := ihr
      refine ⟨l.inorder ++ y :: l₁, l₂, by simp [h], ?_⟩
      simp [insertBy, hy, h']

theorem mem_insertBy {left : α → Bool} {x : α} {t : BinTree α} {a : α} :
    a ∈ (insertBy left x t).inorder ↔ a = x ∨ a ∈ t.inorder := by
  obtain ⟨l₁, l₂, h, h'⟩ := inorder_insertBy left x t
  rw [h, h', List.mem_append, List.mem_cons, List.mem_append]
  tauto

/-- **An insertion that agrees with an order keeps it**: where `left` answers `true` the node is above
`x`, elsewhere `x` is above the node. Among nodes that are both, the answers may be anything. -/
theorem pairwise_insertBy {lt : α → α → Prop} {left : α → Bool} {x : α} {t : BinTree α}
    (ho : t.inorder.Pairwise lt) (htrans : ∀ {a b c}, lt a b → lt b c → lt a c)
    (hl : ∀ a ∈ t.inorder, left a = true → lt x a)
    (hr : ∀ a ∈ t.inorder, left a = false → lt a x) :
    (insertBy left x t).inorder.Pairwise lt := by
  induction t with
  | leaf => exact List.pairwise_singleton lt x
  | node c l y r ihl ihr =>
    obtain ⟨hpl, hpyr, hcross⟩ := List.pairwise_append.mp ho
    obtain ⟨hy, hpr⟩ := List.pairwise_cons.mp hpyr
    have hmy : y ∈ (node c l y r).inorder := List.mem_append_right _ List.mem_cons_self
    have hml : ∀ a ∈ l.inorder, a ∈ (node c l y r).inorder := fun a ha => List.mem_append_left _ ha
    have hmr : ∀ a ∈ r.inorder, a ∈ (node c l y r).inorder :=
      fun a ha => List.mem_append_right _ (List.mem_cons_of_mem _ ha)
    unfold insertBy
    by_cases hleft : left y = true
    · rw [if_pos hleft, inorder_node]
      have hl' := ihl hpl (fun a ha => hl a (hml a ha)) fun a ha => hr a (hml a ha)
      refine List.pairwise_append.mpr ⟨hl', hpyr, fun a ha b hb => ?_⟩
      rcases mem_insertBy.mp ha with rfl | ha
      · rcases List.mem_cons.mp hb with rfl | hb
        · exact hl b hmy hleft
        · exact htrans (hl y hmy hleft) (hy b hb)
      · exact hcross a ha b hb
    · have hright : left y = false := Bool.eq_false_iff.mpr hleft
      rw [if_neg hleft, inorder_node]
      have hr' := ihr hpr (fun a ha => hl a (hmr a ha)) fun a ha => hr a (hmr a ha)
      have hxy := hr y hmy hright
      refine List.pairwise_append.mpr ⟨hpl, List.pairwise_cons.mpr ⟨fun b hb => ?_, hr'⟩, ?_⟩
      · rcases mem_insertBy.mp hb with rfl | hb
        · exact hxy
        · exact hy b hb
      · intro a ha b hb
        have hay := hcross a ha y List.mem_cons_self
        rcases List.mem_cons.mp hb with rfl | hb
        · exact hay
        · rcases mem_insertBy.mp hb with rfl | hb
          · exact htrans hay hxy
          · exact hcross a ha b (List.mem_cons_of_mem _ hb)

/-! ## Sorted trees -/

section Sorted

variable {κ : Type} {cmp : κ → κ → Ordering} [Std.TransCmp cmp] {key : α → κ} {t : BinTree α}

/-- The in-order sequence ascends strictly by `key`. -/
def Sorted (cmp : κ → κ → Ordering) (key : α → κ) (t : BinTree α) : Prop :=
  t.inorder.Pairwise fun a b => cmp (key a) (key b) = .lt

theorem Sorted.directed (h : Sorted cmp key t) (k : κ) :
    Directed (fun a => cmp k (key a)) t.inorder := by
  refine h.imp fun {a b} hab => ⟨fun hlt => Std.TransCmp.lt_trans hlt hab, fun hgt => ?_⟩
  rw [Std.OrientedCmp.gt_iff_lt] at *
  exact Std.TransCmp.lt_trans hab hgt

/-- No two nodes compare equal. -/
theorem Sorted.inj (h : Sorted cmp key t) {a b : α} (ha : a ∈ t.inorder) (hb : b ∈ t.inorder)
    (he : cmp (key a) (key b) = .eq) : a = b := by
  have hne : t.inorder.Pairwise fun a b => cmp (key a) (key b) ≠ .eq :=
    h.imp fun {a b} hab => by rw [hab]; decide
  have : Std.Symm fun a b => cmp (key a) (key b) ≠ .eq :=
    ⟨fun _ _ h he => h (Std.OrientedCmp.eq_symm he)⟩
  by_contra hab
  exact hne.forall ha hb hab he

/-- **A sorted tree is searched by key.** -/
theorem Sorted.search_eq (h : Sorted cmp key t) {a : α} (ha : a ∈ t.inorder) {k : κ}
    (he : cmp k (key a) = .eq) : search (fun a => cmp k (key a)) t = some a := by
  obtain ⟨b, hb⟩ := exists_search (h.directed k) ha he
  obtain ⟨hbt, heb⟩ := search_some hb
  rw [hb, h.inj hbt ha (Std.TransCmp.eq_trans (Std.OrientedCmp.eq_symm heb) he)]

/-- **An insertion by the order of the search** keeps the tree sorted, if the key is new. -/
theorem Sorted.insertBy (h : Sorted cmp key t) {x : α}
    (hnew : ∀ a ∈ t.inorder, cmp (key x) (key a) ≠ .eq) :
    Sorted cmp key (insertBy (fun a => cmp (key x) (key a) == .lt) x t) := by
  refine pairwise_insertBy h Std.TransCmp.lt_trans (fun a _ hl => beq_iff_eq.mp hl)
    fun a ha hl => ?_
  cases hd : cmp (key x) (key a) with
  | lt => rw [hd] at hl; exact absurd hl (by decide)
  | eq => exact absurd hd (hnew a ha)
  | gt => exact Std.OrientedCmp.gt_iff_lt.mp hd

/-- No element stands in a sorted tree twice. -/
theorem Sorted.nodup (h : Sorted cmp key t) : t.inorder.Nodup := by
  refine h.imp fun {a b} hab => ?_
  rintro rfl
  have heq : cmp (key a) (key a) = .eq := Std.ReflCmp.compare_self
  rw [heq] at hab
  cases hab

end Sorted

end BinTree

end NgxWasm.Lib
