import Mathlib.Data.List.Basic
import Mathlib.Data.List.DropRight
import Mathlib.Logic.Function.Iterate

/-!
# Lists kept most recently used first

`evictBack spare l` takes the last element that is not spared out of `l`; iterating it `n` times
makes `n` evictions. Evictions keep the order of what stays (`evictBack_sublist`), never take a
spared element (`mem_evictBack_of_spare`), commute with a view of the elements (`evictBack_map`),
and each takes one element as long as some element is not spared (`length_evictBack`). Of the
elements that are not spared, `n` evictions take the last `n` (`filter_evictMany`), so whatever is
ahead of one that stays, stays too (`mem_evictMany_of_ahead`).
-/

namespace NgxWasm.Lib

variable {α β : Type}

/-- `l` without its last element that is not spared. -/
def evictBack (spare : α → Bool) : List α → List α
  | [] => []
  | x :: xs =>
    if xs.all spare then (if spare x then x :: xs else xs) else x :: evictBack spare xs

/-- `n` evictions. -/
def evictMany (spare : α → Bool) (n : Nat) (l : List α) : List α := (evictBack spare)^[n] l

@[simp] theorem evictMany_zero (spare : α → Bool) (l : List α) : evictMany spare 0 l = l := rfl

theorem evictMany_succ (spare : α → Bool) (n : Nat) (l : List α) :
    evictMany spare (n + 1) l = evictMany spare n (evictBack spare l) := rfl

theorem evictBack_sublist (spare : α → Bool) (l : List α) : (evictBack spare l).Sublist l := by
  induction l with
  | nil => exact List.Sublist.refl _
  | cons x xs ih =>
    unfold evictBack
    split
    · split
      · exact List.Sublist.refl _
      · exact List.sublist_cons_self _ _
    · exact ih.cons_cons x

theorem evictMany_sublist (spare : α → Bool) (n : Nat) (l : List α) :
    (evictMany spare n l).Sublist l := by
  induction n generalizing l with
  | zero => exact List.Sublist.refl _
  | succ n ih => exact (ih (evictBack spare l)).trans (evictBack_sublist spare l)

/-- An eviction takes one element. -/
theorem length_evictBack {spare : α → Bool} {l : List α} (h : l.all spare = false) :
    (evictBack spare l).length + 1 = l.length := by
  induction l with
  | nil => exact absurd h (by simp)
  | cons x xs ih =>
    unfold evictBack
    by_cases hxs : xs.all spare = true
    · rw [if_pos hxs]
      rw [List.all_cons, hxs, Bool.and_true] at h
      rw [if_neg (by rw [h]; exact Bool.false_ne_true), List.length_cons]
    · rw [if_neg hxs, List.length_cons, List.length_cons, ih (Bool.eq_false_iff.mpr hxs)]

/-- A spared element stays. -/
theorem mem_evictBack_of_spare {spare : α → Bool} {l : List α} {a : α} (ha : a ∈ l)
    (hs : spare a = true) : a ∈ evictBack spare l := by
  induction l with
  | nil => exact absurd ha List.not_mem_nil
  | cons x xs ih =>
    unfold evictBack
    split
    · split
      · exact ha
      · rename_i hx
        rcases List.mem_cons.mp ha with rfl | ha
        · exact absurd hs hx
        · exact ha
    · rcases List.mem_cons.mp ha with rfl | ha
      · exact List.mem_cons_self
      · exact List.mem_cons_of_mem _ (ih ha)

theorem mem_evictMany_of_spare {spare : α → Bool} {n : Nat} {l : List α} {a : α} (ha : a ∈ l)
    (hs : spare a = true) : a ∈ evictMany spare n l := by
  induction n generalizing l with
  | zero => exact ha
  | succ n ih => exact ih (mem_evictBack_of_spare ha hs)

/-- **The evicted elements are the last ones** among those that are not spared. -/
theorem filter_evictBack (spare : α → Bool) (l : List α) :
    (evictBack spare l).filter (fun a => !spare a) = (l.filter fun a => !spare a).rdrop 1 := by
  induction l with
  | nil => rfl
  | cons x xs ih =>
    unfold evictBack
    by_cases hxs : xs.all spare = true
    · have hnone : xs.filter (fun a => !spare a) = [] := by
        rw [List.filter_eq_nil_iff]
        intro a ha
        simpa using List.all_eq_true.mp hxs a ha
      rw [if_pos hxs]
      by_cases hx : spare x = true
      · rw [if_pos hx, List.filter_cons_of_neg (by simpa using hx), hnone]
        rfl
      · rw [if_neg hx, List.filter_cons_of_pos (by simpa using hx), hnone]
        rfl
    · have hsome : xs.filter (fun a => !spare a) ≠ [] := by
        intro hnil
        rw [List.filter_eq_nil_iff] at hnil
        refine hxs (List.all_eq_true.mpr fun a ha => ?_)
        simpa using hnil a ha
      rw [if_neg hxs]
      by_cases hx : spare x = true
      · rw [List.filter_cons_of_neg (by simpa using hx), List.filter_cons_of_neg (by simpa using hx),
          ih]
      · rw [List.filter_cons_of_pos (by simpa using hx), List.filter_cons_of_pos (by simpa using hx),
          ih, List.rdrop, List.rdrop, List.length_cons]
        have : 0 < (xs.filter fun a => !spare a).length := List.length_pos_iff.mpr hsome
        obtain ⟨m, hm⟩ := Nat.exists_eq_succ_of_ne_zero this.ne'
        rw [hm]
        rfl

theorem filter_evictMany (spare : α → Bool) (n : Nat) (l : List α) :
    (evictMany spare n l).filter (fun a => !spare a) = (l.filter fun a => !spare a).rdrop n := by
  induction n generalizing l with
  | zero => rw [List.rdrop_zero, evictMany_zero]
  | succ n ih =>
    rw [evictMany_succ, ih, filter_evictBack, List.rdrop, List.rdrop, List.rdrop, List.take_take,
      List.length_take]
    congr 1
    omega

/-- The order of two elements is that of any list without duplicates they come from. -/
theorem pair_sublist {l l' : List α} {a b : α} (hl : l.Nodup) (hs : l'.Sublist l)
    (h : [a, b].Sublist l) (ha : a ∈ l') (hb : b ∈ l') : [a, b].Sublist l' := by
  induction hs with
  | slnil => exact h
  | cons x hs ih =>
    obtain ⟨hx, hl⟩ := List.nodup_cons.mp hl
    rcases List.sublist_cons_iff.mp h with h | ⟨_, heq, -⟩
    · exact ih hl h ha hb
    · obtain rfl := (List.cons.inj heq).1
      exact absurd (hs.subset ha) hx
  | cons_cons x hs ih =>
    obtain ⟨hx, hl⟩ := List.nodup_cons.mp hl
    rcases List.sublist_cons_iff.mp h with h | ⟨r, heq, hr⟩
    · have hne : ∀ c ∈ [a, b], c ≠ x := fun c hc heq => hx (heq ▸ h.subset hc)
      exact (ih hl h (List.mem_of_ne_of_mem (hne a (by simp)) ha)
        (List.mem_of_ne_of_mem (hne b (by simp)) hb)).cons x
    · obtain ⟨rfl, rfl⟩ := List.cons.inj heq
      have hne : b ≠ a := fun heq => hx (heq ▸ List.singleton_sublist.mp hr)
      exact (List.singleton_sublist.mpr (List.mem_of_ne_of_mem hne hb)).cons_cons a

/-- **Evictions keep to the order**: whatever is ahead of an element that stays, stays. -/
theorem mem_evictMany_of_ahead {spare : α → Bool} {n : Nat} {l : List α} {a b : α} (hl : l.Nodup)
    (h : [a, b].Sublist l) (hb : b ∈ evictMany spare n l) (hs : spare b = false) :
    a ∈ evictMany spare n l := by
  by_cases ha : spare a = true
  · exact mem_evictMany_of_spare (h.subset List.mem_cons_self) ha
  have hstay : ∀ c, spare c = false →
      (c ∈ evictMany spare n l ↔ c ∈ (l.filter fun a => !spare a).rdrop n) := by
    intro c hc
    rw [← filter_evictMany, List.mem_filter, hc]
    simp
  have ha' : spare a = false := Bool.eq_false_iff.mpr ha
  rw [hstay a ha']
  rw [hstay b hs] at hb
  have hpair : [a, b].Sublist (l.filter fun a => !spare a) := by
    have := h.filter fun a => !spare a
    simpa [ha', hs] using this
  -- the last `n` go, and `b` is not among them
  set m := l.filter fun a => !spare a with hm
  have hnodup : m.Nodup := hl.filter _
  rw [List.rdrop] at hb ⊢
  rw [← List.take_append_drop (m.length - n) m] at hpair hnodup
  obtain ⟨l₁, l₂, heq, h₁, h₂⟩ := List.sublist_append_iff.mp hpair
  have hgone : b ∉ l₂ := fun hmem =>
    (List.nodup_append.mp hnodup).2.2 b hb b (h₂.subset hmem) rfl
  cases l₁ with
  | nil =>
    rw [List.nil_append] at heq
    exact absurd (heq ▸ List.mem_cons_of_mem a List.mem_cons_self) hgone
  | cons c l₁ =>
    obtain ⟨rfl, -⟩ := List.cons.inj heq
    exact h₁.subset List.mem_cons_self

/-- Evicting commutes with a view that keeps `spare`. -/
theorem evictBack_map {f : α → β} {spare : α → Bool} {spare' : β → Bool} {l : List α}
    (h : ∀ a ∈ l, spare' (f a) = spare a) :
    evictBack spare' (l.map f) = (evictBack spare l).map f := by
  induction l with
  | nil => rfl
  | cons x xs ih =>
    have hx := h x List.mem_cons_self
    have hxs : (xs.map f).all spare' = xs.all spare := by
      rw [List.all_map, Bool.eq_iff_iff, List.all_eq_true, List.all_eq_true]
      refine forall_congr' fun a => forall_congr' fun ha => ?_
      rw [Function.comp_apply, h a (List.mem_cons_of_mem _ ha)]
    simp only [List.map_cons, evictBack, hx, hxs]
    split
    · split <;> rfl
    · rw [ih fun a ha => h a (List.mem_cons_of_mem _ ha), List.map_cons]

theorem evictMany_map {f : α → β} {spare : α → Bool} {spare' : β → Bool} {n : Nat} {l : List α}
    (h : ∀ a ∈ l, spare' (f a) = spare a) :
    evictMany spare' n (l.map f) = (evictMany spare n l).map f := by
  induction n generalizing l with
  | zero => rfl
  | succ n ih =>
    rw [evictMany_succ, evictMany_succ, evictBack_map h]
    exact ih fun a ha => h a ((evictBack_sublist spare l).subset ha)

/-- The first element from the back that is not spared is the one `evictBack` takes. -/
theorem evictBack_eq_erase [DecidableEq α] {spare : α → Bool} {l : List α} (hl : l.Nodup) {a : α}
    (h : l.reverse.find? (fun x => !spare x) = some a) : evictBack spare l = l.erase a := by
  induction l with
  | nil => exact absurd h (by simp)
  | cons x xs ih =>
    obtain ⟨hx, hxs⟩ := List.nodup_cons.mp hl
    rw [List.reverse_cons, List.find?_append] at h
    unfold evictBack
    cases hf : xs.reverse.find? (fun x => !spare x) with
    | none =>
      have hall : xs.all spare = true := by
        rw [List.all_eq_true]
        intro y hy
        have := List.find?_eq_none.mp hf y (List.mem_reverse.mpr hy)
        simpa using this
      rw [hf, Option.none_or, List.find?_singleton] at h
      split at h
      · obtain rfl := Option.some.inj h
        rename_i hs
        rw [if_pos hall, if_neg (by simpa using hs), List.erase_cons_head]
      · exact absurd h (by simp)
    | some b =>
      rw [hf, Option.some_or] at h
      obtain rfl := Option.some.inj h
      have hmem := List.mem_reverse.mp (List.mem_of_find?_eq_some hf)
      have hb : spare b = false := by simpa using List.find?_some hf
      have hall : ¬ xs.all spare = true := fun hc => by
        rw [List.all_eq_true.mp hc b hmem] at hb
        exact absurd hb (by simp)
      have hne : x ≠ b := fun e => hx (e ▸ hmem)
      rw [if_neg hall, ih hxs hf, List.erase_cons_tail (by simpa using hne)]

end NgxWasm.Lib
