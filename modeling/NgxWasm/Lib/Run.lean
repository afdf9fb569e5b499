import Mathlib.Data.List.Basic

/-!
# Runs of a step function

A system is a function `step : σ → ι → σ` on states and inputs; a run is a list of inputs.
`Meets step ok s is` says that every input of the run meets `ok` in the state it finds. The rule
`Meets.invariant` is the induction behind every statement about reachable states: what holds at
the start and is kept by each step that meets the condition holds at the end. Since a prefix of a
run that meets the condition meets it too (`Meets.append_left`), it then holds in every state
passed through.

`Traces` is the relational form, for a system that may do several things on one input: it
collects an observation for each step. `Traces.simulate` carries a run of a function over to it.
-/

namespace NgxWasm.Lib

variable {σ ι ο τ : Type} {step : σ → ι → σ}

/-- The state after the inputs `is`. -/
def runFrom (step : σ → ι → σ) (s : σ) (is : List ι) : σ := is.foldl step s

theorem runFrom_append (s : σ) (is js : List ι) :
    runFrom step s (is ++ js) = runFrom step (runFrom step s is) js := List.foldl_append

/-- Every input of the run meets `ok` in the state it finds. -/
def Meets (step : σ → ι → σ) (ok : σ → ι → Prop) : σ → List ι → Prop
  | _, [] => True
  | s, i :: is => ok s i ∧ Meets step ok (step s i) is

instance Meets.decidable {ok : σ → ι → Prop} [∀ s i, Decidable (ok s i)] :
    ∀ (s : σ) (is : List ι), Decidable (Meets step ok s is)
  | _, [] => inferInstanceAs (Decidable True)
  | s, i :: is => @instDecidableAnd _ _ _ (Meets.decidable (step s i) is)

theorem Meets.append_left {ok : σ → ι → Prop} {s : σ} {is js : List ι}
    (h : Meets step ok s (is ++ js)) : Meets step ok s is := by
  induction is generalizing s with
  | nil => trivial
  | cons i is ih => exact ⟨h.1, ih h.2⟩

theorem Meets.append_right {ok : σ → ι → Prop} {s : σ} {is js : List ι}
    (h : Meets step ok s (is ++ js)) : Meets step ok (runFrom step s is) js := by
  induction is generalizing s with
  | nil => exact h
  | cons i is ih => exact ih h.2

theorem Meets.append {ok : σ → ι → Prop} {s : σ} {is js : List ι} (h : Meets step ok s is)
    (hj : Meets step ok (runFrom step s is) js) : Meets step ok s (is ++ js) := by
  induction is generalizing s with
  | nil => exact hj
  | cons i is ih => exact ⟨h.1, ih h.2 hj⟩

/-- A condition on the inputs alone. -/
theorem meets_of_forall {p : ι → Prop} {s : σ} {is : List ι} (h : ∀ i ∈ is, p i) :
    Meets step (fun _ i => p i) s is := by
  induction is generalizing s with
  | nil => trivial
  | cons i is ih =>
    exact ⟨h i List.mem_cons_self, ih fun j hj => h j (List.mem_cons_of_mem _ hj)⟩

/-- What all inputs have goes with the condition. -/
theorem Meets.and_forall {ok : σ → ι → Prop} {p : ι → Prop} {s : σ} {is : List ι}
    (h : Meets step ok s is) (hp : ∀ i ∈ is, p i) : Meets step (fun s i => ok s i ∧ p i) s is := by
  induction is generalizing s with
  | nil => trivial
  | cons i is ih =>
    exact ⟨⟨h.1, hp i List.mem_cons_self⟩, ih h.2 fun j hj => hp j (List.mem_cons_of_mem _ hj)⟩

/-- **The invariant rule.** -/
theorem Meets.invariant {ok : σ → ι → Prop} {inv : σ → Prop} {s : σ} {is : List ι}
    (h : Meets step ok s is) (h0 : inv s) (hstep : ∀ s i, inv s → ok s i → inv (step s i)) :
    inv (runFrom step s is) := by
  induction is generalizing s with
  | nil => exact h0
  | cons i is ih => exact ih h.2 (hstep s i h0 h.1)

/-- The rule for a system whose steps need no condition. -/
theorem run_invariant {inv : σ → Prop} {s : σ} (is : List ι) (h0 : inv s)
    (hstep : ∀ s i, inv s → inv (step s i)) : inv (runFrom step s is) := by
  induction is generalizing s with
  | nil => exact h0
  | cons i is ih => exact ih (hstep s i h0)

/-- **The exact condition**: where each step that meets it keeps the invariant, and each that does not
breaks what the invariant is for, a run is good throughout exactly if its inputs meet it. -/
theorem meets_iff_always {ok : σ → ι → Prop} (inv : σ → Prop) {good : σ → Prop} {s : σ}
    {is : List ι} (h0 : inv s)
    (hgood : ∀ s, inv s → good s) (hstep : ∀ s i, inv s → ok s i → inv (step s i))
    (hbreak : ∀ s i, inv s → ¬ ok s i → ¬ good (step s i)) :
    (∀ n, good (runFrom step s (is.take n))) ↔ Meets step ok s is := by
  induction is generalizing s with
  | nil => exact ⟨fun _ => trivial, fun _ n => by rw [List.take_nil]; exact hgood s h0⟩
  | cons i is ih =>
    constructor
    · intro h
      by_cases hok : ok s i
      · exact ⟨hok, (ih (hstep s i h0 hok)).mp fun n => h (n + 1)⟩
      · exact absurd (h 1) (hbreak s i h0 hok)
    · intro h n
      cases n with
      | zero => exact hgood s h0
      | succ n => exact (ih (hstep s i h0 h.1)).mpr h.2 n

/-- A run of the relation `next` from `t` to `t'`, with what each step shows. -/
inductive Traces (next : τ → ο → τ → Prop) : τ → List ο → τ → Prop
  | nil (t : τ) : Traces next t [] t
  | cons {t t₁ t' : τ} {o : ο} {os : List ο} (h : next t o t₁) (hs : Traces next t₁ os t') :
      Traces next t (o :: os) t'

/-- **The invariant rule with a history**: an invariant of the state that may speak of everything shown
so far, the latest first. -/
theorem Traces.history {next : τ → ο → τ → Prop} {inv : List ο → τ → Prop} {t t' : τ}
    {past os : List ο} (h : Traces next t os t') (h0 : inv past t)
    (hstep : ∀ past t o t', inv past t → next t o t' → inv (o :: past) t') :
    inv (os.reverse ++ past) t' := by
  induction h generalizing past with
  | nil t => exact h0
  | cons h hs ih =>
    rw [List.reverse_cons, List.append_assoc]
    exact ih (hstep _ _ _ _ h0 h)

/-- What the steps of a run show. -/
def shows (step : σ → ι → σ) (out : σ → ι → ο) : σ → List ι → List ο
  | _, [] => []
  | s, i :: is => out s i :: shows step out (step s i) is

/-- **The simulation rule**: if from related states every step that meets the condition is matched,
showing the same, then every run is. -/
theorem Meets.simulate {ok : σ → ι → Prop} {out : σ → ι → ο} {next : τ → ο → τ → Prop}
    {inv : σ → Prop} {abs : σ → τ} {s : σ} {is : List ι} (h : Meets step ok s is) (h0 : inv s)
    (hstep : ∀ s i, inv s → ok s i → inv (step s i) ∧ next (abs s) (out s i) (abs (step s i))) :
    Traces next (abs s) (shows step out s is) (abs (runFrom step s is)) := by
  induction is generalizing s with
  | nil => exact .nil _
  | cons i is ih =>
    obtain ⟨hi, hn⟩ := hstep s i h0 h.1
    exact .cons hn (ih h.2 hi)

end NgxWasm.Lib
