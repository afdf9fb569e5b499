import Mathlib.Data.List.Perm.Basic

/-!
# A line that batches join

Items come in batches and wait in a line. A batch that joins may be cut in two, and its first part may
go ahead of those at the end of the line; but no batch is turned around, and none passes what it came
behind with its last part alone. `Line bs l` says that the line `l` is what has come of the batches `bs`,
in the order in which they joined.

This is less than first come, first served, and more than that nothing is lost:

* `Line.perm`: the items are those of the batches.
* `Line.sublist`: the items of each batch are in their order.

Where every batch joins at the end (`Joins.last`), the line is just the batches one after the other.
-/

namespace NgxWasm.Lib

variable {α : Type*} {a b front back l l' : List α} {bs : List (List α)}

/-- The batch `b` joins a line of `front` and `back`: a first part of it goes before `back`, the rest
behind. -/
def Joins (front back b l : List α) : Prop := ∃ b₁ b₂, b = b₁ ++ b₂ ∧ l = front ++ b₁ ++ back ++ b₂

theorem Joins.last : Joins front back b (front ++ back ++ b) :=
  ⟨[], b, rfl, by rw [List.append_nil]⟩

/-- Nothing can be passed where nothing waits. -/
theorem Joins.eq_append (h : Joins front [] b l) : l = front ++ b := by
  obtain ⟨b₁, b₂, rfl, rfl⟩ := h
  rw [List.append_nil, List.append_assoc]

/-- A batch whose first items have gone ahead. -/
theorem Joins.ahead (h : Joins (front ++ a) back b l) : Joins front back (a ++ b) l := by
  obtain ⟨b₁, b₂, rfl, rfl⟩ := h
  exact ⟨a ++ b₁, b₂, (List.append_assoc ..).symm, by rw [List.append_assoc front]⟩

theorem Joins.perm (h : Joins front back b l) : l.Perm (front ++ back ++ b) := by
  obtain ⟨b₁, b₂, rfl, rfl⟩ := h
  simp only [List.append_assoc]
  refine List.Perm.append_left front ?_
  simp only [← List.append_assoc]
  exact List.perm_append_comm.append_right b₂

theorem Joins.sublist (h : Joins front back b l) : b.Sublist l := by
  obtain ⟨b₁, b₂, rfl, rfl⟩ := h
  refine List.Sublist.append ?_ (List.Sublist.refl b₂)
  exact (List.sublist_append_right front b₁).trans (List.sublist_append_left _ back)

theorem Joins.line_sublist (h : Joins front back b l) : (front ++ back).Sublist l := by
  obtain ⟨b₁, b₂, rfl, rfl⟩ := h
  refine List.Sublist.trans ?_ (List.sublist_append_left _ b₂)
  exact List.Sublist.append (List.sublist_append_left front b₁) (List.Sublist.refl back)

/-- The batch `b` joins the line `l`, somewhere. -/
def Adds (b l l' : List α) : Prop := ∃ front back, l = front ++ back ∧ Joins front back b l'

/-- A line, by the batches that have joined it. -/
inductive Line : List (List α) → List α → Prop
  | nil : Line [] []
  | join {bs : List (List α)} {b l l' : List α} (h : Line bs l) (hadds : Adds b l l') :
      Line (bs ++ [b]) l'

/-- An empty batch changes nothing. -/
theorem Adds.refl : Adds [] l l := ⟨l, [], (List.append_nil l).symm, [], [], rfl, by simp⟩

theorem Adds.last : Adds b l (l ++ b) :=
  ⟨l, [], (List.append_nil l).symm, [], b, rfl, by rw [List.append_nil, List.append_nil]⟩

/-- **Nothing is lost**, and nothing comes twice. -/
theorem Line.perm (h : Line bs l) : l.Perm bs.flatten := by
  induction h with
  | nil => exact .refl _
  | join h hadds ih =>
    obtain ⟨front, back, rfl, hj⟩ := hadds
    rw [List.flatten_append, List.flatten_singleton]
    exact hj.perm.trans (ih.append_right _)

/-- **Each batch stays in order.** -/
theorem Line.sublist (h : Line bs l) (hb : b ∈ bs) : b.Sublist l := by
  induction h with
  | nil => cases hb
  | join h hadds ih =>
    obtain ⟨front, back, rfl, hj⟩ := hadds
    rcases List.mem_append.mp hb with hb | hb
    · exact (ih hb).trans hj.line_sublist
    · obtain rfl := List.mem_singleton.mp hb
      exact hj.sublist

end NgxWasm.Lib
