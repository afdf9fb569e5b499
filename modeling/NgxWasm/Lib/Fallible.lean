/-!
# Computations that fail and keep their state

`Fallible σ α` is a C function on a state `σ`: it returns a value, or it gives up (`none`) in the
state it has reached by then. `wp m Q E s` is its weakest precondition: run from `s`, the function
ends in a value and a state with `Q`, or gives up in a state with `E`. The rules take a computation
apart at its binds.

Four special cases have names, and rules of their own for the sequence and the branch:

* `wlp m Q s`: what holds if the function succeeds, with nothing said of a failure.
* `Keeps m I`: the function keeps the invariant `I`, however it ends.
* `Succeeds m I`: where `I` holds it does not give up, and keeps `I`.
* `Ensures m I G P`: it keeps `I`, gives up only with `G`, and what it returns has `P`.
-/

namespace NgxWasm.Lib

/-- A computation that may fail, in the state it has reached. -/
def Fallible (σ α : Type) : Type := σ → Option α × σ

namespace Fallible

variable {σ α β : Type}

instance : Monad (Fallible σ) where
  pure a := fun s => (some a, s)
  bind m f := fun s =>
    match m s with
    | (some a, s) => f a s
    | (none, s) => (none, s)

def fail : Fallible σ α := fun s => (none, s)

/-- The state. -/
def read : Fallible σ σ := fun s => (some s, s)

def update (f : σ → σ) : Fallible σ Unit := fun s => (some (), f s)

/-- `m`, whose failure is a value. -/
def attempt (m : Fallible σ α) : Fallible σ (Option α) := fun s => (some (m s).1, (m s).2)

/-- The weakest precondition. -/
def wp (m : Fallible σ α) (Q : α → σ → Prop) (E : σ → Prop) (s : σ) : Prop :=
  match m s with
  | (some a, s) => Q a s
  | (none, s) => E s

variable {m : Fallible σ α} {f : α → Fallible σ β} {Q Q' : α → σ → Prop} {R : β → σ → Prop}
  {E E' : σ → Prop} {s : σ}

@[simp] theorem wp_pure {a : α} : wp (pure a) Q E s ↔ Q a s := Iff.rfl

@[simp] theorem wp_fail : wp fail Q E s ↔ E s := Iff.rfl

@[simp] theorem wp_read {Q : σ → σ → Prop} : wp read Q E s ↔ Q s s := Iff.rfl

@[simp] theorem wp_update {g : σ → σ} {Q : Unit → σ → Prop} :
    wp (update g) Q E s ↔ Q () (g s) := Iff.rfl

@[simp] theorem wp_bind : wp (m >>= f) R E s ↔ wp m (fun a => wp (f a) R E) E s := by
  simp only [wp, bind]
  cases m s with
  | mk o s' => cases o <;> rfl

@[simp] theorem wp_attempt {Q : Option α → σ → Prop} :
    wp (attempt m) Q E s ↔ wp m (fun a => Q (some a)) (Q none) s := by
  simp only [wp, attempt]
  cases m s with
  | mk o s' => cases o <;> rfl

/-- **The rule of consequence.** -/
theorem wp_mono (h : wp m Q E s) (hQ : ∀ a s, Q a s → Q' a s) (hE : ∀ s, E s → E' s) :
    wp m Q' E' s := by
  unfold wp at h ⊢
  split
  · rename_i a s' heq
    rw [heq] at h
    exact hQ a s' h
  · rename_i s' heq
    rw [heq] at h
    exact hE s' h

/-- What holds where `m` does not fail. -/
abbrev wlp (m : Fallible σ α) (Q : α → σ → Prop) (s : σ) : Prop := wp m Q (fun _ => True) s

theorem wlp_mono (h : wlp m Q s) (hQ : ∀ a s, Q a s → Q' a s) : wlp m Q' s :=
  wp_mono h hQ fun _ => id

/-- **The rule of composition.** -/
theorem wlp_bind (h : wlp m Q s) (hf : ∀ a s, Q a s → wlp (f a) R s) : wlp (m >>= f) R s :=
  wp_bind.mpr (wlp_mono h hf)

theorem wlp_read_bind {f : σ → Fallible σ β} : wlp (read >>= f) R s ↔ wlp (f s) R s := Iff.rfl

theorem wlp_update_bind {g : σ → σ} {f : Unit → Fallible σ β} :
    wlp (update g >>= f) R s ↔ wlp (f ()) R (g s) := Iff.rfl

/-- What the precondition says of a run. -/
theorem wp.of_run (h : wp m Q E s) :
    (∀ a, (m s).1 = some a → Q a (m s).2) ∧ ((m s).1 = none → E (m s).2) := by
  unfold wp at h
  split at h
  · rename_i a s' heq
    rw [heq]
    exact ⟨fun b hb => Option.some.inj hb ▸ h, nofun⟩
  · rename_i s' heq
    rw [heq]
    exact ⟨nofun, fun _ => h⟩

/-- The state that a function leaves, if it is to be the same whether it fails or not. -/
theorem wp.snd {I : σ → Prop} (h : wp m (fun _ => I) I s) : I (m s).2 := by
  obtain ⟨hsome, hnone⟩ := h.of_run
  cases heq : (m s).1 with
  | some a => exact hsome a heq
  | none => exact hnone heq

/-! ## Invariants -/

/-- A condition on the state that `m` keeps, whether it fails or not. -/
def Keeps (m : Fallible σ α) (I : σ → Prop) : Prop := ∀ s, I s → wp m (fun _ => I) I s

variable {I : σ → Prop}

theorem Keeps.pure {a : α} : Keeps (pure a : Fallible σ α) I := fun _ h => h

theorem Keeps.fail : Keeps (fail : Fallible σ α) I := fun _ h => h

theorem Keeps.read : Keeps read I := fun _ h => h

theorem Keeps.update {g : σ → σ} (hg : ∀ s, I s → I (g s)) : Keeps (update g) I := hg

theorem Keeps.bind (hm : Keeps m I) (hf : ∀ a, Keeps (f a) I) : Keeps (m >>= f) I :=
  fun s h => wp_bind.mpr (wp_mono (hm s h) (fun a s' h' => hf a s' h') fun _ h' => h')

theorem Keeps.ite {p : Prop} [Decidable p] {m' : Fallible σ α} (hm : Keeps m I) (hm' : Keeps m' I) :
    Keeps (if p then m else m') I := by
  split
  · exact hm
  · exact hm'

/-! ## Success -/

/-- A condition on the state under which `m` does not fail, and which it keeps. -/
def Succeeds (m : Fallible σ α) (I : σ → Prop) : Prop :=
  ∀ s, I s → wp m (fun _ => I) (fun _ => False) s

theorem Succeeds.pure {a : α} : Succeeds (pure a : Fallible σ α) I := fun _ h => h

theorem Succeeds.read : Succeeds read I := fun _ h => h

theorem Succeeds.update {g : σ → σ} (hg : ∀ s, I s → I (g s)) : Succeeds (update g) I := hg

theorem Succeeds.bind (hm : Succeeds m I) (hf : ∀ a, Succeeds (f a) I) : Succeeds (m >>= f) I :=
  fun s h => wp_bind.mpr (wp_mono (hm s h) (fun a s' h' => hf a s' h') fun _ => id)

theorem Succeeds.ite {p : Prop} [Decidable p] {m' : Fallible σ α} (hm : Succeeds m I)
    (hm' : Succeeds m' I) : Succeeds (if p then m else m') I := by
  split
  · exact hm
  · exact hm'

/-- **Partial and total**: what holds where `m` does not fail holds. -/
theorem wlp.total (h : wlp m Q s) (hm : wp m Q' (fun _ => False) s) :
    wp m (fun a s => Q a s ∧ Q' a s) (fun _ => False) s := by
  unfold wlp wp at h
  unfold wp at hm ⊢
  split
  · rename_i a s' heq
    rw [heq] at h hm
    exact ⟨h, hm⟩
  · rename_i s' heq
    rw [heq] at hm
    exact hm

/-- A computation that succeeds. -/
theorem wp.succeeds (h : wp m Q (fun _ => False) s) : ∃ a, (m s).1 = some a ∧ Q a (m s).2 := by
  obtain ⟨hsome, hnone⟩ := h.of_run
  cases heq : (m s).1 with
  | some a => exact ⟨a, rfl, hsome a heq⟩
  | none => exact (hnone heq).elim

/-! ## Triples -/

/-- `m` keeps `I` and gives up only with `G`; what it returns has `P`. -/
def Ensures (m : Fallible σ α) (I G : σ → Prop) (P : α → Prop) : Prop :=
  ∀ s, I s → wp m (fun a s => I s ∧ P a) G s

variable {G : σ → Prop} {P P' : α → Prop} {P₁ : β → Prop}

theorem Ensures.pure {a : α} (h : P a) : Ensures (pure a : Fallible σ α) I G P := fun _ hs => ⟨hs, h⟩

theorem Ensures.fail (h : ∀ s, I s → G s) : Ensures (fail : Fallible σ α) I G P := h

theorem Ensures.update {g : σ → σ} (hg : ∀ s, I s → I (g s)) :
    Ensures (update g) I G fun _ => True := fun s hs => ⟨hg s hs, trivial⟩

theorem Ensures.read : Ensures read I G I := fun _ hs => ⟨hs, hs⟩

theorem Ensures.bind (hm : Ensures m I G P) (hf : ∀ a, P a → Ensures (f a) I G P₁) :
    Ensures (m >>= f) I G P₁ :=
  fun s hs => wp_bind.mpr (wp_mono (hm s hs) (fun a s' h => hf a h.2 s' h.1) fun _ => id)

theorem Ensures.ite {p : Prop} [Decidable p] {m' : Fallible σ α} (hm : p → Ensures m I G P)
    (hm' : ¬ p → Ensures m' I G P) : Ensures (if p then m else m') I G P := by
  split
  · exact hm ‹_›
  · exact hm' ‹_›

theorem Ensures.mono (h : Ensures m I G P) (hP : ∀ a, P a → P' a) : Ensures m I G P' :=
  fun s hs => wp_mono (h s hs) (fun a _ ha => ⟨ha.1, hP a ha.2⟩) fun _ => id

end Fallible

end NgxWasm.Lib
