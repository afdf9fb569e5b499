import NgxWasm.Lib.Run
import Mathlib.Data.Set.Insert

/-!
# Footprints

A state is looked at through its parts: `part k s` is the part `k` of `s`. `Within part F s t` says
that going from `s` to `t` changed no part outside `F`, which is the footprint of whatever did it.

`Meets.within` is the rule for runs: a part that a run has changed was in the footprint of one of its
steps. `Meets.last_written` is the one for a register, a part that a step sets or leaves alone: a run
leaves there what it has written last.
-/

namespace NgxWasm.Lib

variable {σ ι κ : Type} {β : κ → Type} {part : ∀ k, σ → β k} {F G : Set κ} {s t u : σ}

/-- Nothing outside `F` has changed. -/
def Within (part : ∀ k, σ → β k) (F : Set κ) (s t : σ) : Prop := ∀ k, k ∉ F → part k t = part k s

theorem Within.refl (F : Set κ) (s : σ) : Within part F s s := fun _ _ => rfl

theorem Within.mono (h : Within part F s t) (hFG : F ⊆ G) : Within part G s t :=
  fun k hk => h k fun hF => hk (hFG hF)

theorem Within.trans (h₁ : Within part F s t) (h₂ : Within part F t u) : Within part F s u :=
  fun k hk => (h₂ k hk).trans (h₁ k hk)

/-- **The footprint of a run**: if every step of a run from a state with the invariant keeps it and
changes only what it is to blame for, then what the run has changed some step of it is to blame for. -/
theorem Meets.within {step : σ → ι → σ} {ok : σ → ι → Prop} {blame : ι → Set κ} {is : List ι}
    (h : Meets step ok s is) (inv : σ → Prop) (h0 : inv s)
    (hstep : ∀ s i, inv s → ok s i → inv (step s i) ∧ Within part (blame i) s (step s i)) :
    Within part {k | ∃ i ∈ is, k ∈ blame i} s (runFrom step s is) := by
  induction is generalizing s with
  | nil => exact .refl _ _
  | cons i is ih =>
    obtain ⟨hinv, hwithin⟩ := hstep s i h0 h.1
    refine Within.trans (hwithin.mono fun k hk => ⟨i, List.mem_cons_self, hk⟩) ?_
    exact (ih h.2 hinv).mono fun k ⟨j, hj, hk⟩ => ⟨j, List.mem_cons_of_mem _ hj, hk⟩

/-- **A register** holds what was last written to it. -/
theorem Meets.last_written {step : σ → ι → σ} {ok : σ → ι → Prop} {k : κ} {writes : ι → Option (β k)}
    {is : List ι} (h : Meets step ok s is)
    (hstep : ∀ s i, ok s i → part k (step s i) = (writes i).getD (part k s)) :
    part k (runFrom step s is) = (is.filterMap writes).getLast?.getD (part k s) := by
  induction is generalizing s with
  | nil => rfl
  | cons i is ih =>
    have hrest := ih h.2
    rw [hstep s i h.1] at hrest
    refine hrest.trans ?_
    cases hw : writes i with
    | none => rw [List.filterMap_cons_none hw, Option.getD_none]
    | some v => rw [List.filterMap_cons_some hw, List.getLast?_cons, Option.getD_some, Option.getD_some]

end NgxWasm.Lib
