import Mathlib.Data.List.Basic

/-!
# Lists in parts

A list that is kept as a chain of parts. A new element goes to the end of the last part, or into a new
part when that one is full. A search walks a part by an index; where the part ends, the index starts
again in the next one, whose first element is tested without a look at its length.

* `PartList`: such a chain, in which no part but the first is empty. `push` keeps it so.
* `PartList.walk_eq`: on it the walk stays in bounds, and is the search of the whole list.
-/

namespace NgxWasm.Lib

variable {α : Type}

/-- How a walk ends: at a place of the list, at its end, or behind the last element of a part. -/
inductive Walk where
  | found (n : Nat)
  | missing
  | outOfBounds
  deriving DecidableEq

/-- The end of a search that stays in bounds. -/
def Walk.ofOption : Option Nat → Walk
  | some n => .found n
  | none => .missing

/-- The walk at the index `i` of `part`, with `next` to come and `seen` elements in the parts before. -/
def walk (p : α → Bool) (seen : Nat) (part : List α) (next : List (List α)) (i : Nat) : Walk :=
  if h : i < part.length then
    if p part[i] then .found (seen + i) else walk p seen part next (i + 1)
  else
    match next with
    | [] => .missing
    | [] :: _ => .outOfBounds
    | (a :: q) :: rest =>
      if p a then .found (seen + part.length) else walk p (seen + part.length) (a :: q) rest 1
termination_by (next.length, part.length - i)

theorem walk_eq_findIdx? (p : α → Bool) (seen : Nat) (part : List α) (next : List (List α)) (i : Nat)
    (hi : i ≤ part.length) (hnext : ∀ q ∈ next, q ≠ []) :
    walk p seen part next i =
      .ofOption (((part.drop i ++ next.flatten).findIdx? p).map (· + (seen + i))) := by
  induction seen, part, next, i using walk.induct (p := p) with
  | case1 seen part next i h hp =>
    rw [walk.eq_def, dif_pos h, if_pos hp, List.drop_eq_getElem_cons h, List.cons_append,
      List.findIdx?_cons, if_pos hp]
    simp [Walk.ofOption]
  | case2 seen part next i h hp ih =>
    rw [walk.eq_def, dif_pos h, if_neg hp, ih h hnext, List.drop_eq_getElem_cons h, List.cons_append,
      List.findIdx?_cons, if_neg hp, Option.map_map]
    congr 2
    funext n
    simp only [Function.comp_apply]
    omega
  | case3 seen part i h =>
    rw [walk.eq_def, dif_neg h, List.drop_eq_nil_of_le (Nat.not_lt.mp h)]
    rfl
  | case4 seen part i h rest => exact absurd rfl (hnext [] List.mem_cons_self)
  | case5 seen part i h a q rest hp =>
    obtain rfl : i = part.length := Nat.le_antisymm hi (Nat.not_lt.mp h)
    rw [walk.eq_def, dif_neg h, List.drop_length, List.nil_append, List.flatten_cons, List.cons_append,
      List.findIdx?_cons, if_pos hp]
    simp [hp, Walk.ofOption]
  | case6 seen part i h a q rest hp ih =>
    obtain rfl : i = part.length := Nat.le_antisymm hi (Nat.not_lt.mp h)
    have hrest := ih (by simp) fun q hq => hnext q (List.mem_cons_of_mem _ hq)
    rw [walk.eq_def, dif_neg h, List.drop_length, List.nil_append, List.flatten_cons, List.cons_append,
      List.findIdx?_cons, if_neg hp]
    simp only [hp, Bool.false_eq_true, if_false]
    rw [hrest, List.drop_succ_cons, List.drop_zero, Option.map_map]
    congr 2
    funext n
    simp only [Function.comp_apply]
    omega

/-- A chain of parts; only the first may be empty. -/
structure PartList (α : Type) where
  first : List α
  next : List (List α)
  filled : ∀ q ∈ next, q ≠ []

namespace PartList

def toList (l : PartList α) : List α := l.first ++ l.next.flatten

/-- The search of the whole chain. -/
def walk (p : α → Bool) (l : PartList α) : Walk := Lib.walk p 0 l.first l.next 0

/-- **The walk is the search.** -/
theorem walk_eq (p : α → Bool) (l : PartList α) : l.walk p = .ofOption (l.toList.findIdx? p) := by
  have h := walk_eq_findIdx? p 0 l.first l.next 0 (Nat.zero_le _) l.filled
  rw [PartList.walk, h, List.drop_zero]
  simp [toList]

/-- The parts with `a` added, in parts of at most `nalloc` elements. -/
def pushParts (nalloc : Nat) (a : α) : List α → List (List α) → List α × List (List α)
  | part, [] => if part.length = nalloc then (part, [[a]]) else (part ++ [a], [])
  | part, q :: rest => (part, (pushParts nalloc a q rest).1 :: (pushParts nalloc a q rest).2)

theorem pushParts_filled (nalloc : Nat) (a : α) (part : List α) (next : List (List α))
    (hnext : ∀ q ∈ next, q ≠ []) :
    (∀ q ∈ (pushParts nalloc a part next).2, q ≠ []) ∧
      (part ≠ [] → (pushParts nalloc a part next).1 ≠ []) := by
  induction next generalizing part with
  | nil =>
    unfold pushParts
    split
    · exact ⟨by simp, id⟩
    · exact ⟨by simp, by simp⟩
  | cons q rest ih =>
    obtain ⟨hq, hrest⟩ := List.forall_mem_cons.mp hnext
    obtain ⟨hfilled, hfirst⟩ := ih q hrest
    exact ⟨List.forall_mem_cons.mpr ⟨hfirst hq, hfilled⟩, id⟩

/-- The chain with `a` added. -/
def push (nalloc : Nat) (a : α) (l : PartList α) : PartList α :=
  ⟨(pushParts nalloc a l.first l.next).1, (pushParts nalloc a l.first l.next).2,
    (pushParts_filled nalloc a l.first l.next l.filled).1⟩

/-- **A push adds to the end** of the whole list. -/
theorem toList_push (nalloc : Nat) (a : α) (l : PartList α) :
    (l.push nalloc a).toList = l.toList ++ [a] := by
  have h : ∀ (part : List α) (next : List (List α)),
      (pushParts nalloc a part next).1 ++ (pushParts nalloc a part next).2.flatten =
        part ++ next.flatten ++ [a] := by
    intro part next
    induction next generalizing part with
    | nil =>
      unfold pushParts
      split <;> simp
    | cons q rest ih =>
      simp only [pushParts, List.flatten_cons, ih, List.append_assoc]
  exact h l.first l.next

end PartList

end NgxWasm.Lib
