/-!
# Function bodies with early returns

A function body is a sequence of pieces; each falls through to the next one with a new state, or
returns from the whole function. `Sat post exit x` is the triple of such a piece: `post` of the
state it falls through with, `exit` of what it returns. Two rules suffice to take a body apart:
`Sat.andThen` for the sequence and `Sat.mono` for the consequence.

The return value is a parameter, and `exit` may tell one from another: an invariant that only an error
breaks is one that `exit` does not ask for where an error is returned.
-/

namespace NgxWasm.Lib

/-- What a piece of a body does: fall through, or return. -/
inductive Piece (σ ρ : Type) where
  | next (s : σ)
  | ret (r : ρ) (s : σ)

namespace Piece

variable {σ ρ : Type}

/-- The piece `x`, and then `k` if `x` falls through. -/
def andThen (x : Piece σ ρ) (k : σ → Piece σ ρ) : Piece σ ρ :=
  match x with
  | next s => k s
  | ret r s => ret r s

/-- A change of the state on the way out, where the caller adds to what the callee returned. -/
def onRet (x : Piece σ ρ) (g : σ → σ) : Piece σ ρ :=
  match x with
  | next s => next s
  | ret r s => ret r (g s)

/-- The last piece, which always returns. -/
def finish (x : Piece σ ρ) (k : σ → ρ × σ) : ρ × σ :=
  match x with
  | next s => k s
  | ret r s => (r, s)

/-- A piece that always returns. -/
def ofReturn (r : ρ × σ) : Piece σ ρ := ret r.1 r.2

/-- The triple of a piece. -/
def Sat (post : σ → Prop) (exit : ρ → σ → Prop) (x : Piece σ ρ) : Prop :=
  match x with
  | next s => post s
  | ret r s => exit r s

variable {post mid : σ → Prop} {exit exit' : ρ → σ → Prop} {x : Piece σ ρ}

theorem Sat.andThen {k : σ → Piece σ ρ} (h : Sat mid exit x) (hk : ∀ s, mid s → Sat post exit (k s)) :
    Sat post exit (x.andThen k) := by
  cases x with
  | next s => exact hk s h
  | ret r s => exact h

theorem Sat.onRet {g : σ → σ} (h : Sat post exit' x) (hg : ∀ r s, exit' r s → exit r (g s)) :
    Sat post exit (x.onRet g) := by
  cases x with
  | next s => exact h
  | ret r s => exact hg r s h

theorem Sat.mono (h : Sat mid exit' x) (hp : ∀ s, mid s → post s)
    (he : ∀ r s, exit' r s → exit r s) : Sat post exit x := by
  cases x with
  | next s => exact hp s h
  | ret r s => exact he r s h

theorem Sat.finish {k : σ → ρ × σ} (h : Sat mid exit x)
    (hk : ∀ s, mid s → exit (k s).1 (k s).2) : exit (x.finish k).1 (x.finish k).2 := by
  cases x with
  | next s => exact hk s h
  | ret r s => exact h

/-- Two triples of one piece. -/
theorem Sat.and {post' : σ → Prop} (h : Sat post exit x) (h' : Sat post' exit' x) :
    Sat (fun s => post s ∧ post' s) (fun r s => exit r s ∧ exit' r s) x := by
  cases x with
  | next s => exact ⟨h, h'⟩
  | ret r s => exact ⟨h, h'⟩

theorem finish_andThen (x : Piece σ ρ) (k : σ → Piece σ ρ) (j : σ → ρ × σ) :
    (x.andThen k).finish j = x.finish fun s => (k s).finish j := by
  cases x <;> rfl

end Piece

end NgxWasm.Lib
