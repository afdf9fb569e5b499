import Mathlib.Data.List.Induction

/-!
# Settings of nested blocks

A configuration is read from the directives of a block and merged with that of the block around
it. A `Setting` looks at one value of it: `value d` is what the directive `d` gives it, and `unset`
what it has before any does. `Lawful` says how the merge treats the value: the block's own counts,
else that of the block around it, else the default.

* `Reads.write`: a block that has been read has the value of its last directive.
* `Holds.first`, `Holds.merged`, `Holds.fold`: after the merges, a block has the value of the innermost
  directive around it, or the default.
-/

namespace NgxWasm.Lib

/-- One value of a configuration `γ`, as the directives `δ` may give it. -/
structure Setting (γ δ α : Type) where
  get : γ → α
  unset : α
  default : α
  value : δ → Option α

namespace Setting

variable {γ δ α : Type} (s : Setting γ δ α)

/-- The value a block gives: its last directive counts. -/
def last (ds : List δ) : Option α := (ds.filterMap s.value).getLast?

/-- The value that the innermost of some blocks gives, the innermost first. -/
def innermost (blocks : List (List δ)) : Option α := blocks.findSome? s.last

/-- A value that a configuration may have. -/
def Known (v : α) : Prop := v = s.unset ∨ v = s.default ∨ ∃ d, s.value d = some v

/-- How the merge of a parent and a child treats the value. -/
structure Lawful (merge : γ → γ → γ) : Prop where
  default_ne : s.default ≠ s.unset
  value_ne : ∀ {d v}, s.value d = some v → v ≠ s.unset
  own : ∀ {p c d}, s.value d = some (s.get c) → s.get (merge p c) = s.get c
  inherited : ∀ {p c}, s.Known (s.get p) → s.get c = s.unset → s.get p ≠ s.unset →
    s.get (merge p c) = s.get p
  defaulted : ∀ {p c}, s.get c = s.unset → s.get p = s.unset → s.get (merge p c) = s.default

/-- The block has been read. -/
def Reads (ds : List δ) (c : γ) : Prop := s.get c = (s.last ds).getD s.unset

/-- The block has been merged with those around it. -/
def Holds (blocks : List (List δ)) (c : γ) : Prop := s.get c = (s.innermost blocks).getD s.default

variable {s} {merge : γ → γ → γ} {p c : γ} {ds outer : List δ} {blocks : List (List δ)}

theorem last_append (ds : List δ) (d : δ) : s.last (ds ++ [d]) = (s.value d).or (s.last ds) := by
  unfold last
  rw [List.filterMap_append, List.getLast?_append]
  congr 1
  cases hd : s.value d <;> simp [hd]

/-- **A block is read** one directive after the other. -/
theorem Reads.write {write : γ → δ → γ}
    (hwrite : ∀ c d, s.get (write c d) = (s.value d).getD (s.get c)) (hc : s.get c = s.unset)
    (ds : List δ) : s.Reads ds (ds.foldl write c) := by
  induction ds using List.reverseRecOn with
  | nil => exact hc
  | append_singleton ds d ih =>
    unfold Reads at ih ⊢
    rw [List.foldl_append, List.foldl_cons, List.foldl_nil, hwrite, ih, last_append]
    cases s.value d <;> rfl

theorem innermost_cons (ds : List δ) (blocks : List (List δ)) :
    s.innermost (ds :: blocks) = (s.last ds).or (s.innermost blocks) := by
  unfold innermost
  rw [List.findSome?_cons]
  cases s.last ds <;> rfl

theorem value_of_last {v : α} (h : s.last ds = some v) : ∃ d, s.value d = some v := by
  obtain ⟨d, -, hd⟩ := List.mem_filterMap.mp (List.mem_of_getLast? h)
  exact ⟨d, hd⟩

theorem Reads.known (h : s.Reads ds c) : s.Known (s.get c) := by
  unfold Reads at h
  rw [h]
  cases hl : s.last ds with
  | none => exact .inl rfl
  | some v => exact .inr (.inr (value_of_last hl))

/-- What a block that has been merged has: the default, or the value of a directive. -/
theorem Holds.cases (h : s.Holds blocks c) : s.get c = s.default ∨ ∃ d, s.value d = some (s.get c) := by
  unfold Holds at h
  rw [h]
  cases hi : s.innermost blocks with
  | none => exact .inl rfl
  | some v =>
    obtain ⟨ds, -, hds⟩ := List.exists_of_findSome?_eq_some hi
    exact .inr (value_of_last hds)

theorem Holds.known (h : s.Holds blocks c) : s.Known (s.get c) := .inr h.cases

theorem Holds.ne_unset (hs : s.Lawful merge) (h : s.Holds blocks c) : s.get c ≠ s.unset := by
  rcases h.cases with hdefault | ⟨d, hd⟩
  · rw [hdefault]
    exact hs.default_ne
  · exact hs.value_ne hd

/-- A block that gives the value keeps it. -/
theorem Reads.own (hs : s.Lawful merge) (hc : s.Reads ds c) {v : α} (hl : s.last ds = some v) :
    s.get (merge p c) = v := by
  unfold Reads at hc
  rw [hl, Option.getD_some] at hc
  obtain ⟨d, hd⟩ := value_of_last hl
  rw [← hc] at hd
  exact (hs.own hd).trans hc

/-- A block that does not has none. -/
theorem Reads.none (hc : s.Reads ds c) (hl : s.last ds = none) : s.get c = s.unset := by
  unfold Reads at hc
  rwa [hl] at hc

/-- **One more block** below one that has been merged. -/
theorem Holds.merged (hs : s.Lawful merge) (h : s.Holds blocks p) (hc : s.Reads ds c) :
    s.Holds (ds :: blocks) (merge p c) := by
  have hne := h.ne_unset hs
  have hknown := h.known
  unfold Holds at h ⊢
  rw [innermost_cons]
  cases hl : s.last ds with
  | some v => exact hc.own hs hl
  | none =>
    rw [hs.inherited hknown (hc.none hl) hne, h]
    rfl

/-- **The first merge**, with a block that is merged with none. -/
theorem Holds.first (hs : s.Lawful merge) (hp : s.Reads outer p) (hc : s.Reads ds c) :
    s.Holds [ds, outer] (merge p c) := by
  unfold Holds
  rw [innermost_cons, innermost_cons]
  cases hl : s.last ds with
  | some v => exact hc.own hs hl
  | none =>
    cases ho : s.last outer with
    | none => exact hs.defaulted (hc.none hl) (hp.none ho)
    | some v =>
      obtain ⟨d, hd⟩ := value_of_last ho
      have hv : s.get p = v := by
        unfold Reads at hp
        rwa [ho] at hp
      exact (hs.inherited hp.known (hc.none hl) (hv ▸ hs.value_ne hd)).trans hv

/-- **Down the blocks**: each is read, and merged with the one around it. -/
theorem Holds.fold {β ε : Type} {conf : β → γ} {load : β → ε → Option β} {directives : ε → List δ}
    (hs : s.Lawful merge)
    (hload : ∀ b e b', load b e = some b' →
      ∃ c, s.Reads (directives e) c ∧ conf b' = merge (conf b) c)
    (es : List ε) {b b' : β} (h : s.Holds blocks (conf b)) (hfold : es.foldlM load b = some b') :
    s.Holds ((es.map directives).reverse ++ blocks) (conf b') := by
  induction es generalizing blocks b with
  | nil =>
    obtain rfl := Option.some.inj hfold
    exact h
  | cons e es ih =>
    rw [List.foldlM_cons, Option.bind_eq_bind, Option.bind_eq_some_iff] at hfold
    obtain ⟨b₁, hb₁, hrest⟩ := hfold
    obtain ⟨c, hc, hconf⟩ := hload b e b₁ hb₁
    have hb₁ : s.Holds (directives e :: blocks) (conf b₁) := by
      rw [hconf]
      exact h.merged hs hc
    rw [List.map_cons, List.reverse_cons, List.append_assoc]
    exact ih hb₁ hrest

end Setting

end NgxWasm.Lib
