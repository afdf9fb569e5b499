import Mathlib.Data.Multiset.AddSub

/-!
# Ledgers of handles

A handle is acquired, used any number of times and released. A ledger records these deals, newest
first. It is `Sound` if every deal was allowed when it was made: a handle is acquired once, and used
or released only while it is held. A sound ledger in which nothing is held any more is a program
without a leak, a double release or a use after the release (`Sound.settled`,
`Sound.use_between`).

`Books` adds a counter from which the handles are drawn. `Books.Owns b hs` says that the ledger is
sound and that the handles held are those of `hs`: each deal has one rule, and the rules are all that
a proof about a program needs.
-/

namespace NgxWasm.Lib

/-- What happens to a handle. -/
inductive Deal (κ : Type) where
  | acquire (k : κ)
  | use (k : κ)
  | release (k : κ)
  deriving Repr, DecidableEq

namespace Ledger

variable {κ : Type} [DecidableEq κ] {l : List (Deal κ)} {k : κ}

/-- The handles that have been acquired and not released. -/
def held : List (Deal κ) → Multiset κ
  | [] => 0
  | .acquire k :: l => k ::ₘ held l
  | .use _ :: l => held l
  | .release k :: l => (held l).erase k

/-- A deal that is allowed after those of `l`. -/
def Fits (l : List (Deal κ)) : Deal κ → Prop
  | .acquire k => .acquire k ∉ l
  | .use k | .release k => k ∈ held l

/-- Every deal was allowed. -/
def Sound : List (Deal κ) → Prop
  | [] => True
  | d :: l => Fits l d ∧ Sound l

/-- **The balance**: a handle has been released as often as it was acquired, but for what is held. -/
theorem Sound.balance (h : Sound l) (k : κ) :
    l.count (.release k) + (held l).count k = l.count (.acquire k) := by
  induction l with
  | nil => simp [held]
  | cons d l ih =>
    have hl := ih h.2
    cases d with
    | acquire j =>
      rw [List.count_cons_of_ne (by simp), held, List.count_cons, Multiset.count_cons]
      by_cases hj : j = k
      · simp [hj]
        omega
      · simp [hj, Ne.symm hj]
        omega
    | use j => rwa [List.count_cons_of_ne (by simp), List.count_cons_of_ne (by simp), held]
    | release j =>
      have hmem : j ∈ held l := h.1
      by_cases hj : j = k
      · subst hj
        have hpos := Multiset.count_pos.mpr hmem
        rw [List.count_cons_self, List.count_cons_of_ne (by simp), held,
          Multiset.count_erase_self]
        omega
      · rw [List.count_cons_of_ne (by simpa using hj), List.count_cons_of_ne (by simp), held,
          Multiset.count_erase_of_ne (Ne.symm hj)]
        exact hl

theorem Sound.acquired_once (h : Sound l) (k : κ) : l.count (.acquire k) ≤ 1 := by
  induction l with
  | nil => simp
  | cons d l ih =>
    have hl := ih h.2
    cases d with
    | acquire j =>
      by_cases hj : j = k
      · subst hj
        rw [List.count_cons_self, List.count_eq_zero_of_not_mem h.1]
      · rwa [List.count_cons_of_ne (by simpa using hj)]
    | use j => rwa [List.count_cons_of_ne (by simp)]
    | release j => rwa [List.count_cons_of_ne (by simp)]

/-- **Once nothing is held** every handle has been released as often as it was acquired, which is
once at most. -/
theorem Sound.settled (h : Sound l) (hheld : held l = 0) (k : κ) :
    l.count (.release k) = l.count (.acquire k) ∧ l.count (.acquire k) ≤ 1 := by
  have hb := h.balance k
  rw [hheld, Multiset.count_zero, Nat.add_zero] at hb
  exact ⟨hb, h.acquired_once k⟩

/-- **A use** comes after the acquisition, and there is no release before it. -/
theorem Sound.use_between {l₁ l₂ : List (Deal κ)} (h : Sound (l₁ ++ .use k :: l₂)) :
    .acquire k ∈ l₂ ∧ .release k ∉ l₂ := by
  induction l₁ with
  | nil =>
    have hmem : k ∈ held l₂ := h.1
    have hb := h.2.balance k
    have hone := h.2.acquired_once k
    have hpos := Multiset.count_pos.mpr hmem
    exact ⟨List.count_pos_iff.mp (by omega), List.count_eq_zero.mp (by omega)⟩
  | cons d l₁ ih => exact ih h.2

end Ledger

/-! ## Handles from a counter -/

/-- A handle of some kind. -/
structure Handle (ο : Type) where
  kind : ο
  id : Nat
  deriving Repr, DecidableEq

/-- A ledger, with the number of the next handle. -/
structure Books (ο : Type) where
  ledger : List (Deal (Handle ο)) := []
  nextId : Nat := 0
  deriving Repr, DecidableEq

namespace Books

variable {ο : Type}

/-- The handle that the next acquisition gives. -/
def fresh (o : ο) (b : Books ο) : Handle ο := ⟨o, b.nextId⟩

def acquire (o : ο) (b : Books ο) : Books ο :=
  ⟨.acquire (b.fresh o) :: b.ledger, b.nextId + 1⟩

def use (h : Handle ο) (b : Books ο) : Books ο := { b with ledger := .use h :: b.ledger }

def release (h : Handle ο) (b : Books ο) : Books ο := { b with ledger := .release h :: b.ledger }

variable [DecidableEq ο] {b : Books ο} {hs hs' : Multiset (Handle ο)} {h : Handle ο}

/-- The ledger is sound, and `hs` is what is held. -/
structure Owns (b : Books ο) (hs : Multiset (Handle ο)) : Prop where
  sound : Ledger.Sound b.ledger
  held : Ledger.held b.ledger = hs
  below : ∀ h, .acquire h ∈ b.ledger → h.id < b.nextId

theorem owns_empty : Owns ({} : Books ο) 0 := ⟨trivial, rfl, by simp⟩

theorem Owns.acquire (hb : Owns b hs) (o : ο) : Owns (b.acquire o) (b.fresh o ::ₘ hs) where
  sound := ⟨fun hmem => absurd (hb.below _ hmem) (Nat.lt_irrefl _), hb.sound⟩
  held := by rw [Books.acquire, Ledger.held, hb.held]
  below := by
    intro h hmem
    rcases List.mem_cons.mp hmem with heq | hmem
    · obtain rfl := Deal.acquire.inj heq
      exact Nat.lt_succ_self _
    · exact Nat.lt_succ_of_lt (hb.below h hmem)

theorem Owns.use (hb : Owns b hs) (hmem : h ∈ hs) : Owns (b.use h) hs where
  sound := ⟨show h ∈ Ledger.held b.ledger from hb.held ▸ hmem, hb.sound⟩
  held := hb.held
  below := by
    intro j hj
    rcases List.mem_cons.mp hj with heq | hj
    · cases heq
    · exact hb.below j hj

/-- **What is released was held**, and is held no longer. -/
theorem Owns.release (hb : Owns b (h ::ₘ hs)) : Owns (b.release h) hs where
  sound := ⟨show h ∈ Ledger.held b.ledger from hb.held ▸ Multiset.mem_cons_self h hs, hb.sound⟩
  held := by rw [Books.release, Ledger.held, hb.held, Multiset.erase_cons_head]
  below := by
    intro j hj
    rcases List.mem_cons.mp hj with heq | hj
    · cases heq
    · exact hb.below j hj

theorem Owns.congr {t : Multiset (Handle ο)} (hb : Owns b hs) (heq : hs = t) : Owns b t := heq ▸ hb

end Books

end NgxWasm.Lib
