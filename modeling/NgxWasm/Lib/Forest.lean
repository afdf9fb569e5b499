import Mathlib.Data.List.Basic

/-!
# Values handed down a forest

A configuration of nested blocks is a forest whose nodes are the blocks. `inherit f b t` gives each
node a value made by `f` from its parent's value and its own label, the roots' parent value being `b`,
and fails where `f` does.

* `along_inherit`: the value at a node is the fold of `f` over the labels on the way down to it.
* `getElem?_mapM`: a list of values, each made from the label at its place.
-/

namespace NgxWasm.Lib

/-- An ordered forest: the label and the children of its first tree, and the other trees. -/
inductive Forest (α : Type) where
  | nil
  | node (a : α) (children siblings : Forest α)
  deriving Repr, DecidableEq

namespace Forest

variable {α β : Type}

/-- The labels on the way down to a node, by its index at each depth. The empty path stays above
the roots. -/
def along : Forest α → List Nat → Option (List α)
  | _, [] => some []
  | nil, _ :: _ => none
  | node a children _, 0 :: p => (along children p).map (a :: ·)
  | node _ _ siblings, (i + 1) :: p => along siblings (i :: p)

/-- Each node's value from its parent's and its label. -/
def inherit (f : β → α → Option β) : β → Forest α → Option (Forest β)
  | _, nil => some nil
  | b, node a children siblings =>
    (f b a).bind fun b' =>
      (inherit f b' children).bind fun children =>
        (inherit f b siblings).map fun siblings => node b' children siblings

theorem inherit_node {f : β → α → Option β} {b : β} {a : α} {children siblings : Forest α}
    {t' : Forest β} (h : (node a children siblings).inherit f b = some t') :
    ∃ b' children' siblings', f b a = some b' ∧ children.inherit f b' = some children' ∧
      siblings.inherit f b = some siblings' ∧ t' = node b' children' siblings' := by
  unfold inherit at h
  obtain ⟨b', hb, h⟩ := Option.bind_eq_some_iff.mp h
  obtain ⟨children', hc, h⟩ := Option.bind_eq_some_iff.mp h
  obtain ⟨siblings', hs, rfl⟩ := Option.map_eq_some_iff.mp h
  exact ⟨b', children', siblings', hb, hc, hs, rfl⟩

/-- **A value is the fold of the labels above it.** -/
theorem along_inherit {f : β → α → Option β} {t : Forest α} {t' : Forest β} {b : β} {p : List Nat}
    {bs : List β} (h : t.inherit f b = some t') (hp : t'.along p = some bs) :
    ∃ as, t.along p = some as ∧ as.foldlM f b = some (bs.getLastD b) := by
  induction t generalizing t' b p bs with
  | nil =>
    obtain rfl := Option.some.inj h
    cases p with
    | nil =>
      obtain rfl := Option.some.inj hp
      exact ⟨[], rfl, rfl⟩
    | cons i p => cases hp
  | node a children siblings ihc ihs =>
    obtain ⟨b', children', siblings', hb, hc, hs, rfl⟩ := inherit_node h
    cases p with
    | nil =>
      obtain rfl := Option.some.inj hp
      exact ⟨[], rfl, rfl⟩
    | cons i p =>
      cases i with
      | zero =>
        obtain ⟨bs', hbs, rfl⟩ := Option.map_eq_some_iff.mp hp
        obtain ⟨as, has, hfold⟩ := ihc hc hbs
        refine ⟨a :: as, ?_, ?_⟩
        · show (along children p).map (a :: ·) = _
          rw [has]
          rfl
        · rw [List.foldlM_cons, hb, List.getLastD_cons]
          exact hfold
      | succ i => exact ihs hs hp

end Forest

/-- **A value of a list** is made from the label at its place. -/
theorem getElem?_mapM {α β : Type} {f : α → Option β} {l : List α} {l' : List β}
    (h : l.mapM f = some l') {i : Nat} {b : β} (hb : l'[i]? = some b) :
    ∃ a, l[i]? = some a ∧ f a = some b := by
  induction l generalizing l' i with
  | nil =>
    obtain rfl := Option.some.inj h
    cases hb
  | cons a l ih =>
    rw [List.mapM_cons, Option.bind_eq_bind, Option.bind_eq_some_iff] at h
    obtain ⟨b', hb', h⟩ := h
    rw [Option.bind_eq_bind, Option.bind_eq_some_iff] at h
    obtain ⟨rest, hrest, h⟩ := h
    obtain rfl := Option.some.inj h
    cases i with
    | zero =>
      obtain rfl := Option.some.inj hb
      exact ⟨a, rfl, hb'⟩
    | succ i => exact ih hrest hb

end NgxWasm.Lib
