import Mathlib.Data.List.Nodup
import Mathlib.Logic.Function.Basic
import Mathlib.Order.Nat

/-!
# Lists in memory

A list is kept in memory as a chain of parts, each with an array of elements; a list knows its first
part, its last and how many elements a part has room for. Memory is a bump allocator for parts and for
elements, so that what is allocated later stands apart from what was there.

`Chained` says of a list which parts it consists of, and `addrs` are the addresses of its elements, in
their order. A program that walks the list goes from part to part with a bound on its rounds.

* `eachFrom`: a loop over a list, which may write to memory. `eachFrom_eq`: as long as it leaves the
  chain alone, it is the loop over the addresses of its elements (`eachOf`).
* `Owned`: a list whose parts and elements are all above a mark. `init` makes one of a list that
  shared its elements with another, `push` keeps it so, and neither writes below the mark.
* `share_chained`: a copy of the head of a list shows the same elements.

Elements are of any type, and addresses are numbers. No allocation is refused, nothing is freed, and no
element is moved or taken out of a list, so that an address is good for as long as the memory is there.
A first part may be empty; a loop that goes on to another part takes its first element without looking
at how many there are, and `Chained` asks that there is one.
-/

namespace NgxWasm.Lib

/-- A part: `nelts` elements from the address `elts` on, and the part that follows. -/
structure Part where
  elts : Nat
  nelts : Nat
  next : Option Nat

/-- The addresses of its elements. -/
def Part.addrs (q : Part) : List Nat := List.range' q.elts q.nelts

theorem Part.drop_addrs {q : Part} {i : Nat} (h : i < q.nelts) :
    q.addrs.drop i = (q.elts + i) :: q.addrs.drop (i + 1) := by
  have hlen : i < q.addrs.length := by
    rw [Part.addrs, List.length_range']
    exact h
  rw [List.drop_eq_getElem_cons hlen]
  simp only [Part.addrs, List.getElem_range', Nat.one_mul]

theorem Part.drop_addrs_end (q : Part) : q.addrs.drop q.nelts = [] := by
  rw [List.drop_eq_nil_iff, Part.addrs, List.length_range']

/-- Memory for parts and elements. -/
structure Store (α : Type) where
  part : Nat → Part
  elt : Nat → α
  usedParts : Nat
  usedElts : Nat

/-- A list: its first part, its last, and the room of a part. -/
structure ListHead where
  first : Nat
  last : Nat
  nalloc : Nat

namespace Store

variable {α : Type}

def setPart (p : Nat) (q : Part) (s : Store α) : Store α :=
  { s with part := Function.update s.part p q }

def setElt (a : Nat) (e : α) (s : Store α) : Store α :=
  { s with elt := Function.update s.elt a e }

/-! ## The operations -/

/-- A copy of the structure that holds the list: its first part, and no more. -/
def share (l : ListHead) (s : Store α) : ListHead × Store α :=
  ({ l with first := s.usedParts },
    { s.setPart s.usedParts (s.part l.first) with usedParts := s.usedParts + 1 })

/-- The list starts anew in the first part, with room for `n` elements. -/
def init (n : Nat) (l : ListHead) (s : Store α) : ListHead × Store α :=
  (⟨l.first, l.first, n⟩,
    { s.setPart l.first ⟨s.usedElts, 0, none⟩ with usedElts := s.usedElts + n })

/-- The address for a new element, in the last part or behind it. -/
def push (l : ListHead) (s : Store α) : ListHead × Nat × Store α :=
  let last := s.part l.last
  if last.nelts = l.nalloc then
    let p := s.usedParts
    let s' := (s.setPart l.last { last with next := some p }).setPart p ⟨s.usedElts, 1, none⟩
    ({ l with last := p }, s.usedElts,
      { s' with usedParts := p + 1, usedElts := s.usedElts + l.nalloc })
  else (l, last.elts + last.nelts, s.setPart l.last { last with nelts := last.nelts + 1 })

/-! ## Chains -/

/-- The parts `ps` and then `last` are linked, and none follows. -/
def Links (s : Store α) : List Nat → Nat → Prop
  | [], last => (s.part last).next = none
  | p :: ps, last => (s.part p).next = some (ps.headD last) ∧ Links s ps last

/-- The addresses of the elements of the parts `ps` and `last`. -/
def addrs (s : Store α) : List Nat → Nat → List Nat
  | [], last => (s.part last).addrs
  | p :: ps, last => (s.part p).addrs ++ addrs s ps last

/-- The parts of a list, from its first to its last; only the first may be empty. -/
structure Chained (s : Store α) (first last : Nat) (ps : List Nat) : Prop where
  first : ps.headD last = first
  links : s.Links ps last
  filled : ∀ q ∈ (ps ++ [last]).tail, (s.part q).nelts ≠ 0

/-- The last part may change, as long as it stays the last. -/
theorem Links.relink {s s' : Store α} {ps : List Nat} {last : Nat} (h : s.Links ps last)
    (hp : ∀ p ∈ ps, s'.part p = s.part p) (hlast : (s'.part last).next = (s.part last).next) :
    s'.Links ps last := by
  induction ps with
  | nil => exact hlast.trans h
  | cons p ps ih =>
    unfold Links
    rw [hp p List.mem_cons_self]
    exact ⟨h.1, ih h.2 fun q hq => hp q (List.mem_cons_of_mem _ hq)⟩

theorem addrs_congr {s s' : Store α} {ps : List Nat} {last : Nat}
    (hp : ∀ p ∈ ps, s'.part p = s.part p) (hlast : s'.part last = s.part last) :
    s'.addrs ps last = s.addrs ps last := by
  induction ps with
  | nil => rw [addrs, addrs, hlast]
  | cons p ps ih =>
    rw [addrs, addrs, hp p List.mem_cons_self, ih fun q hq => hp q (List.mem_cons_of_mem _ hq)]

/-- Another part behind the last one. -/
theorem Links.snoc {s s' : Store α} {ps : List Nat} {last new : Nat} (h : s.Links ps last)
    (hp : ∀ p ∈ ps, s'.part p = s.part p) (hlast : (s'.part last).next = some new)
    (hnew : (s'.part new).next = none) : s'.Links (ps ++ [last]) new := by
  induction ps with
  | nil => exact ⟨hlast, hnew⟩
  | cons p ps ih =>
    refine ⟨?_, ih h.2 fun q hq => hp q (List.mem_cons_of_mem _ hq)⟩
    rw [hp p List.mem_cons_self, h.1]
    cases ps <;> rfl

/-- And the same for a chain, where the new part is not empty. -/
theorem Chained.snoc {s s' : Store α} {ps : List Nat} {first last new : Nat} (h : s.Chained first last ps)
    (hp : ∀ p ∈ ps, s'.part p = s.part p)
    (hlast : s'.part last = { s.part last with next := some new })
    (hnew : (s'.part new).next = none) (hfilled : (s'.part new).nelts ≠ 0) :
    s'.Chained first new (ps ++ [last]) where
  first := by
    rw [← h.first]
    cases ps <;> rfl
  links := by
    refine h.links.snoc hp ?_ hnew
    rw [hlast]
  filled q hq := by
    rw [List.tail_append_of_ne_nil (List.append_ne_nil_of_right_ne_nil _ (List.cons_ne_nil _ _))] at hq
    rcases List.mem_append.mp hq with hq | hq
    · have hold := h.filled q hq
      rcases List.mem_append.mp (List.mem_of_mem_tail hq) with hq' | hq'
      · rw [hp q hq']
        exact hold
      · obtain rfl := List.mem_singleton.mp hq'
        rw [hlast]
        exact hold
    · obtain rfl := List.mem_singleton.mp hq
      exact hfilled

theorem addrs_snoc (s : Store α) (ps : List Nat) (last new : Nat) :
    s.addrs (ps ++ [last]) new = s.addrs ps last ++ (s.part new).addrs := by
  induction ps with
  | nil => rfl
  | cons p ps ih => rw [List.cons_append, addrs, ih, addrs, List.append_assoc]

/-- The addresses still to come, from the index `i` of the first part on. -/
def remaining (s : Store α) : List Nat → Nat → Nat → List Nat
  | [], last, i => (s.part last).addrs.drop i
  | p :: ps, last, i => (s.part p).addrs.drop i ++ s.addrs ps last

theorem headD_mem (ps : List Nat) (last : Nat) : ps.headD last ∈ ps ++ [last] := by
  cases ps with
  | nil => exact List.mem_cons_self
  | cons p ps => exact List.mem_cons_self

theorem remaining_zero (s : Store α) (ps : List Nat) (last : Nat) :
    s.remaining ps last 0 = s.addrs ps last := by
  cases ps <;> rfl

theorem remaining_cons {s : Store α} {ps : List Nat} {last i : Nat}
    (h : i < (s.part (ps.headD last)).nelts) :
    s.remaining ps last i = ((s.part (ps.headD last)).elts + i) :: s.remaining ps last (i + 1) := by
  cases ps with
  | nil => exact Part.drop_addrs h
  | cons p ps => exact congrArg (· ++ s.addrs ps last) (Part.drop_addrs h)

theorem remaining_end_nil (s : Store α) (last : Nat) :
    s.remaining [] last (s.part last).nelts = [] := Part.drop_addrs_end _

theorem remaining_end_cons (s : Store α) (p : Nat) (ps : List Nat) (last : Nat) :
    s.remaining (p :: ps) last (s.part p).nelts = s.remaining ps last 0 := by
  rw [remaining, Part.drop_addrs_end, List.nil_append, remaining_zero]

/-! ## Loops -/

section Loops

variable {σ β : Type} (mem : σ → Store α) (body : Nat → σ → β ⊕ σ)

/-- The loop from the index `i` of the part `p` on, whose elements are at `h`: `fuel` rounds at most.
The first element of a part that follows is taken without a look at how many there are. -/
def eachFrom : Nat → Nat → Nat → Nat → σ → Option (β ⊕ σ)
  | 0, _, _, _, _ => none
  | fuel + 1, p, h, i, t =>
    let here :=
      if i < ((mem t).part p).nelts then some (p, h, i)
      else ((mem t).part p).next.map fun q => (q, ((mem t).part q).elts, 0)
    match here with
    | none => some (.inr t)
    | some (p, h, i) =>
      match body (h + i) t with
      | .inl b => some (.inl b)
      | .inr t => eachFrom fuel p h (i + 1) t

/-- The loop over the list whose first part is `first`. -/
def each (fuel first : Nat) (t : σ) : Option (β ⊕ σ) :=
  eachFrom mem body fuel first ((mem t).part first).elts 0 t

/-- The loop over a list of addresses. -/
def eachOf : List Nat → σ → β ⊕ σ
  | [], t => .inr t
  | a :: as, t =>
    match body a t with
    | .inl b => .inl b
    | .inr t => eachOf as t

variable {mem body}

/-- **The loop over a list is the loop over its addresses**, if it leaves the chain alone. -/
theorem eachFrom_eq {s : Store α} (keeps : σ → Prop) {parts : List Nat}
    (hkeeps : ∀ t, keeps t → ∀ p ∈ parts, (mem t).part p = s.part p)
    (fuel : Nat) :
    ∀ (ps : List Nat) (last i : Nat) (t : σ), (∀ p ∈ ps ++ [last], p ∈ parts) → s.Links ps last →
      (∀ q ∈ (ps ++ [last]).tail, (s.part q).nelts ≠ 0) → i ≤ (s.part (ps.headD last)).nelts →
      (∀ a ∈ s.remaining ps last i, ∀ t t', keeps t → body a t = .inr t' → keeps t') →
      (s.remaining ps last i).length < fuel → keeps t →
      eachFrom mem body fuel (ps.headD last) (s.part (ps.headD last)).elts i t =
        some (eachOf body (s.remaining ps last i) t) := by
  induction fuel with
  | zero => exact fun _ _ _ _ _ _ _ _ _ hfuel => absurd hfuel (Nat.not_lt_zero _)
  | succ fuel ih =>
    intro ps last i t hparts hlinks hfilled hi hbody hfuel ht
    have hhead : (mem t).part (ps.headD last) = s.part (ps.headD last) :=
      hkeeps t ht _ (hparts _ (headD_mem ps last))
    unfold eachFrom
    rw [hhead]
    by_cases hlt : i < (s.part (ps.headD last)).nelts
    · rw [remaining_cons hlt] at hbody hfuel ⊢
      rw [if_pos hlt, eachOf]
      dsimp only
      cases hb : body ((s.part (ps.headD last)).elts + i) t with
      | inl b => rfl
      | inr t' =>
        exact ih ps last (i + 1) t' hparts hlinks hfilled hlt
          (fun a ha => hbody a (List.mem_cons_of_mem _ ha)) (Nat.lt_of_succ_lt_succ hfuel)
          (hbody _ List.mem_cons_self _ _ ht hb)
    · obtain rfl : i = (s.part (ps.headD last)).nelts := Nat.le_antisymm hi (Nat.not_lt.mp hlt)
      rw [if_neg hlt]
      cases ps with
      | nil =>
        have hnone : (s.part last).next = none := hlinks
        rw [List.headD_nil, hnone, remaining_end_nil]
        rfl
      | cons p ps =>
        have hnext : (s.part p).next = some (ps.headD last) := hlinks.1
        have hfull : 0 < (s.part (ps.headD last)).nelts :=
          Nat.pos_of_ne_zero (hfilled _ (headD_mem ps last))
        have hq : (mem t).part (ps.headD last) = s.part (ps.headD last) :=
          hkeeps t ht _ (hparts _ (List.mem_cons_of_mem _ (headD_mem ps last)))
        rw [List.headD_cons, remaining_end_cons, remaining_cons hfull] at hbody hfuel ⊢
        rw [hnext, Option.map_some, hq, eachOf]
        dsimp only
        cases hb : body ((s.part (ps.headD last)).elts + 0) t with
        | inl b => rfl
        | inr t' =>
          exact ih ps last 1 t' (fun q hq => hparts q (List.mem_cons_of_mem _ hq)) hlinks.2
            (fun q hq => hfilled q (List.mem_of_mem_tail hq)) hfull
            (fun a ha => hbody a (List.mem_cons_of_mem _ ha)) (Nat.lt_of_succ_lt_succ hfuel)
            (hbody _ List.mem_cons_self _ _ ht hb)

variable (mem body) in
theorem each_eq {s : Store α} (keeps : σ → Prop) {first last : Nat} {ps : List Nat}
    (hchain : s.Chained first last ps)
    (hkeeps : ∀ t, keeps t → ∀ p ∈ ps ++ [last], (mem t).part p = s.part p)
    (hbody : ∀ a ∈ s.addrs ps last, ∀ t t', keeps t → body a t = .inr t' → keeps t') {fuel : Nat}
    (hfuel : (s.addrs ps last).length < fuel) {t : σ} (ht : keeps t) :
    each mem body fuel first t = some (eachOf body (s.addrs ps last) t) := by
  unfold each
  rw [← remaining_zero] at hbody hfuel ⊢
  rw [← hchain.first, hkeeps t ht _ (headD_mem ps last)]
  exact eachFrom_eq keeps hkeeps fuel ps last 0 t (fun _ hp => hp) hchain.links hchain.filled
    (Nat.zero_le _) hbody hfuel ht

/-- A loop without an early end. -/
theorem eachOf_inr (f : Nat → σ → σ) (as : List Nat) (t : σ) :
    eachOf (fun a t => (.inr (f a t) : β ⊕ σ)) as t = .inr (as.foldl (fun t a => f a t) t) := by
  induction as generalizing t with
  | nil => rfl
  | cons a as ih => exact ih _

/-- A search. -/
theorem eachOf_find (p : Nat → σ → Bool) (as : List Nat) (t : σ) :
    eachOf (fun a t => if p a t then .inl a else .inr t) as t =
      match as.find? (p · t) with
      | some a => .inl a
      | none => .inr t := by
  induction as with
  | nil => rfl
  | cons a as ih =>
    rw [eachOf, List.find?_cons]
    cases p a t with
    | true => rfl
    | false => exact ih

end Loops

/-! ## Lists above a mark -/

/-- What `s'` keeps of `s`: the parts below `p₀` and the elements below `e₀`. -/
structure Keeps (p₀ e₀ : Nat) (s s' : Store α) : Prop where
  parts : ∀ p < p₀, s'.part p = s.part p
  elts : ∀ a < e₀, s'.elt a = s.elt a
  usedParts : s.usedParts ≤ s'.usedParts
  usedElts : s.usedElts ≤ s'.usedElts

theorem Keeps.refl (p₀ e₀ : Nat) (s : Store α) : Keeps p₀ e₀ s s :=
  ⟨fun _ _ => rfl, fun _ _ => rfl, le_rfl, le_rfl⟩

theorem Keeps.trans {p₀ e₀ : Nat} {s s' s'' : Store α} (h : Keeps p₀ e₀ s s')
    (h' : Keeps p₀ e₀ s' s'') : Keeps p₀ e₀ s s'' where
  parts p hp := (h'.parts p hp).trans (h.parts p hp)
  elts a ha := (h'.elts a ha).trans (h.elts a ha)
  usedParts := h.usedParts.trans h'.usedParts
  usedElts := h.usedElts.trans h'.usedElts

theorem Keeps.setElt {p₀ e₀ : Nat} (s : Store α) {a : Nat} (ha : e₀ ≤ a) (e : α) :
    Keeps p₀ e₀ s (s.setElt a e) :=
  ⟨fun _ _ => rfl, fun _ hb => Function.update_of_ne (Nat.ne_of_lt (hb.trans_le ha)) _ _, le_rfl, le_rfl⟩

theorem share_keeps (l : ListHead) (s : Store α) :
    Keeps s.usedParts s.usedElts s (share l s).2 :=
  ⟨fun _ hp => Function.update_of_ne (Nat.ne_of_lt hp) _ _, fun _ _ => rfl, Nat.le_succ _, le_rfl⟩

/-- The copy of a list's structure has the same elements. -/
theorem share_chained {s : Store α} {l : ListHead} {last : Nat} {ps : List Nat}
    (h : s.Chained l.first last ps) (hused : ∀ p ∈ ps ++ [last], p < s.usedParts) :
    ∃ last' ps', (share l s).2.Chained s.usedParts last' ps' ∧
      (share l s).2.addrs ps' last' = s.addrs ps last ∧
      ∀ p ∈ ps' ++ [last'], p < (share l s).2.usedParts := by
  have hnew : (share l s).2.part s.usedParts = s.part l.first := Function.update_self ..
  have hold : ∀ p ∈ ps ++ [last], (share l s).2.part p = s.part p := fun p hp =>
    Function.update_of_ne (Nat.ne_of_lt (hused p hp)) _ _
  cases ps with
  | nil =>
    have hfirst : last = l.first := h.first
    subst hfirst
    refine ⟨s.usedParts, [], ⟨rfl, ?_, fun q hq => absurd hq List.not_mem_nil⟩, ?_, fun p hp => ?_⟩
    · rw [Links, hnew]
      exact h.links
    · rw [addrs, addrs, hnew]
    · obtain rfl := List.mem_singleton.mp hp
      exact Nat.lt_succ_self _
  | cons p ps =>
    have hfirst : p = l.first := h.first
    subst hfirst
    have hold' : ∀ q ∈ ps, (share l s).2.part q = s.part q := fun q hq =>
      hold q (List.mem_append_left _ (List.mem_cons_of_mem _ hq))
    have hlast : (share l s).2.part last = s.part last :=
      hold last (List.mem_append_right _ List.mem_cons_self)
    refine ⟨last, s.usedParts :: ps, ⟨rfl, ⟨?_, ?_⟩, fun q hq => ?_⟩, ?_, fun q hq => ?_⟩
    · rw [hnew]
      exact h.links.1
    · exact h.links.2.relink hold' (congrArg Part.next hlast)
    · rw [hold q (List.mem_cons_of_mem _ hq)]
      exact h.filled q hq
    · rw [addrs, addrs, hnew, addrs_congr hold' hlast]
    · rcases List.mem_cons.mp hq with rfl | hq
      · exact Nat.lt_succ_self _
      · exact Nat.lt_succ_of_lt (hused q (List.mem_cons_of_mem _ hq))

/-- A list whose parts are from `p₀` on and whose elements are from `e₀` on, each at its own address,
with room in the last part. -/
structure Owned (p₀ e₀ : Nat) (s : Store α) (l : ListHead) (ps : List Nat) : Prop extends
    Chained s l.first l.last ps where
  parts : ∀ p ∈ ps ++ [l.last], p₀ ≤ p ∧ p < s.usedParts
  nodup : (ps ++ [l.last]).Nodup
  pos : 0 < l.nalloc
  room : (s.part l.last).nelts ≤ l.nalloc
  fits : (s.part l.last).elts + l.nalloc ≤ s.usedElts
  elts : ∀ a ∈ s.addrs ps l.last, e₀ ≤ a ∧ a < (s.part l.last).elts + (s.part l.last).nelts
  above : e₀ ≤ (s.part l.last).elts
  distinct : (s.addrs ps l.last).Nodup

theorem addrs_grow {s s' : Store α} {ps : List Nat} {last : Nat} {as : List Nat}
    (hp : ∀ p ∈ ps, s'.part p = s.part p)
    (hlast : (s'.part last).addrs = (s.part last).addrs ++ as) :
    s'.addrs ps last = s.addrs ps last ++ as := by
  induction ps with
  | nil => exact hlast
  | cons p ps ih =>
    rw [addrs, addrs, hp p List.mem_cons_self, ih fun q hq => hp q (List.mem_cons_of_mem _ hq),
      List.append_assoc]

/-- A change of elements alone. -/
theorem Owned.congr {p₀ e₀ : Nat} {s s' : Store α} {l : ListHead} {ps : List Nat}
    (h : Owned p₀ e₀ s l ps) (hpart : s'.part = s.part) (hup : s'.usedParts = s.usedParts)
    (hue : s'.usedElts = s.usedElts) : Owned p₀ e₀ s' l ps ∧ s'.addrs ps l.last = s.addrs ps l.last := by
  have haddrs : s'.addrs ps l.last = s.addrs ps l.last :=
    addrs_congr (fun p _ => congrFun hpart p) (congrFun hpart _)
  refine ⟨⟨⟨h.first,
    h.links.relink (fun p _ => congrFun hpart p) (congrArg Part.next (congrFun hpart _)), ?_⟩, ?_, h.nodup,
    h.pos, ?_, ?_, ?_, ?_, ?_⟩, haddrs⟩
  · rw [hpart]
    exact h.filled
  · rw [hup]
    exact h.parts
  · rw [hpart]
    exact h.room
  · rw [hpart, hue]
    exact h.fits
  · rw [haddrs, hpart]
    exact h.elts
  · rw [hpart]
    exact h.above
  · rw [haddrs]
    exact h.distinct

/-- The list that `init` makes of one whose structure is above the mark. -/
theorem init_owned {p₀ : Nat} (s : Store α) {l : ListHead} {n : Nat} (hn : 0 < n) (hp : p₀ ≤ l.first)
    (hused : l.first < s.usedParts) :
    Owned p₀ s.usedElts (init n l s).2 (init n l s).1 [] ∧
      (init n l s).2.addrs [] (init n l s).1.last = [] ∧
      Keeps p₀ s.usedElts s (init n l s).2 := by
  have hpart : (init n l s).2.part (init n l s).1.last = ⟨s.usedElts, 0, none⟩ :=
    Function.update_self ..
  have haddrs : (init n l s).2.addrs [] (init n l s).1.last = [] := by
    rw [addrs, hpart]
    rfl
  refine ⟨⟨⟨rfl, ?_, fun q hq => absurd hq List.not_mem_nil⟩, ?_, List.nodup_singleton _, hn, ?_, ?_, ?_,
    ?_, ?_⟩, haddrs, ⟨fun q hq => ?_, fun _ _ => rfl, le_rfl, Nat.le_add_right _ _⟩⟩
  · rw [Links, hpart]
  · intro p hm
    obtain rfl := List.mem_singleton.mp hm
    exact ⟨hp, hused⟩
  · rw [hpart]
    exact Nat.zero_le _
  · rw [hpart]
    exact le_rfl
  · rw [haddrs]
    exact fun a ha => absurd ha List.not_mem_nil
  · rw [hpart]
  · rw [haddrs]
    exact List.nodup_nil
  · exact Function.update_of_ne (Nat.ne_of_lt (hq.trans_le hp)) _ _

/-- An address behind the elements of the last part is new. -/
theorem Owned.distinct_snoc {p₀ e₀ : Nat} {s : Store α} {l : ListHead} {ps : List Nat}
    (h : Owned p₀ e₀ s l ps) {a : Nat} (ha : (s.part l.last).elts + (s.part l.last).nelts ≤ a) :
    (s.addrs ps l.last ++ [a]).Nodup := by
  refine List.nodup_append.mpr ⟨h.distinct, List.nodup_singleton _, fun b hb c hc => ?_⟩
  obtain rfl := List.mem_singleton.mp hc
  exact Nat.ne_of_lt ((h.elts b hb).2.trans_le ha)

/-- **A push** into the room of the last part. -/
theorem push_room {p₀ e₀ : Nat} {s : Store α} {l : ListHead} {ps : List Nat}
    (h : Owned p₀ e₀ s l ps) (hroom : (s.part l.last).nelts ≠ l.nalloc) :
    let a := (s.part l.last).elts + (s.part l.last).nelts
    let s' := s.setPart l.last { s.part l.last with nelts := (s.part l.last).nelts + 1 }
    Owned p₀ e₀ s' l ps ∧ s'.addrs ps l.last = s.addrs ps l.last ++ [a] := by
  intro a s'
  have hroom' : (s.part l.last).nelts < l.nalloc := Nat.lt_of_le_of_ne h.room hroom
  have hlast : s'.part l.last = { s.part l.last with nelts := (s.part l.last).nelts + 1 } :=
    Function.update_self ..
  have hps : ∀ p ∈ ps, s'.part p = s.part p := fun p hp => by
    refine Function.update_of_ne (fun heq => ?_) _ _
    exact (List.nodup_append.mp h.nodup).2.2 p hp l.last List.mem_cons_self heq
  have haddrs : s'.addrs ps l.last = s.addrs ps l.last ++ [a] := by
    refine addrs_grow hps ?_
    rw [hlast]
    exact List.range'_1_concat ..
  refine ⟨⟨⟨h.first, ?_, fun q hq => ?_⟩, h.parts, h.nodup, h.pos, ?_, ?_, ?_, ?_, ?_⟩, haddrs⟩
  · refine h.links.relink hps ?_
    rw [hlast]
  · rcases List.mem_append.mp (List.mem_of_mem_tail hq) with hq' | hq'
    · rw [hps q hq']
      exact h.filled q hq
    · obtain rfl := List.mem_singleton.mp hq'
      rw [hlast]
      exact Nat.succ_ne_zero _
  · rw [hlast]
    exact hroom'
  · rw [hlast]
    exact h.fits
  · intro b hb
    rw [haddrs] at hb
    rw [hlast]
    rcases List.mem_append.mp hb with hb | hb
    · obtain ⟨hle, hlt⟩ := h.elts b hb
      exact ⟨hle, Nat.lt_succ_of_lt hlt⟩
    · obtain rfl := List.mem_singleton.mp hb
      exact ⟨h.above.trans (Nat.le_add_right _ _), Nat.lt_succ_self _⟩
  · rw [hlast]
    exact h.above
  · rw [haddrs]
    exact h.distinct_snoc le_rfl

/-- **A push** into a new part. -/
theorem push_part {p₀ e₀ : Nat} {s : Store α} {l : ListHead} {ps : List Nat}
    (h : Owned p₀ e₀ s l ps) (he₀ : e₀ ≤ s.usedElts) :
    let p := s.usedParts
    let s₁ := (s.setPart l.last { s.part l.last with next := some p }).setPart p ⟨s.usedElts, 1, none⟩
    let s' := { s₁ with usedParts := p + 1, usedElts := s.usedElts + l.nalloc }
    Owned p₀ e₀ s' { l with last := p } (ps ++ [l.last]) ∧
      s'.addrs (ps ++ [l.last]) p = s.addrs ps l.last ++ [s.usedElts] := by
  intro p s₁ s'
  have hlt : ∀ q ∈ ps ++ [l.last], q ≠ p := fun q hq => Nat.ne_of_lt (h.parts q hq).2
  have hlastmem : l.last ∈ ps ++ [l.last] := List.mem_append_right _ List.mem_cons_self
  have hnew : s'.part p = ⟨s.usedElts, 1, none⟩ := Function.update_self ..
  have hlast : s'.part l.last = { s.part l.last with next := some p } :=
    (Function.update_of_ne (hlt l.last hlastmem) _ _).trans (Function.update_self ..)
  have hps : ∀ q ∈ ps, s'.part q = s.part q := fun q hq => by
    refine (Function.update_of_ne (hlt q (List.mem_append_left _ hq)) _ _).trans ?_
    refine Function.update_of_ne (fun heq => ?_) _ _
    exact (List.nodup_append.mp h.nodup).2.2 q hq l.last List.mem_cons_self heq
  have hchain : s'.Chained l.first p (ps ++ [l.last]) :=
    h.snoc hps hlast (by rw [hnew]) (by rw [hnew]; exact Nat.one_ne_zero)
  have haddrs : s'.addrs (ps ++ [l.last]) p = s.addrs ps l.last ++ [s.usedElts] := by
    have hold : s'.addrs ps l.last = s.addrs ps l.last ++ [] := by
      refine addrs_grow hps ?_
      rw [hlast, List.append_nil]
      rfl
    rw [addrs_snoc, hold, List.append_nil, hnew]
    rfl
  have hend : (s.part l.last).elts + (s.part l.last).nelts ≤ s.usedElts :=
    (Nat.add_le_add_left h.room _).trans h.fits
  refine ⟨⟨hchain, fun q hq => ?_, ?_, h.pos, ?_, ?_, ?_, ?_, ?_⟩, haddrs⟩
  · rcases List.mem_append.mp hq with hq | hq
    · obtain ⟨hle, hused⟩ := h.parts q hq
      exact ⟨hle, Nat.lt_succ_of_lt hused⟩
    · obtain rfl := List.mem_singleton.mp hq
      obtain ⟨hle, hused⟩ := h.parts l.last hlastmem
      exact ⟨hle.trans hused.le, Nat.lt_succ_self _⟩
  · refine List.nodup_append.mpr ⟨h.nodup, List.nodup_singleton _, fun q hq r hr => ?_⟩
    obtain rfl := List.mem_singleton.mp hr
    exact hlt q hq
  · rw [hnew]
    exact h.pos
  · rw [hnew]
  · intro b hb
    rw [haddrs] at hb
    rw [hnew]
    rcases List.mem_append.mp hb with hb | hb
    · obtain ⟨hle, hb⟩ := h.elts b hb
      exact ⟨hle, Nat.lt_succ_of_lt (hb.trans_le hend)⟩
    · obtain rfl := List.mem_singleton.mp hb
      exact ⟨he₀, Nat.lt_succ_self _⟩
  · rw [hnew]
    exact he₀
  · rw [haddrs]
    exact h.distinct_snoc hend

/-- **A push** adds an address at the end, and keeps what is below the mark. -/
theorem push_owned {p₀ e₀ : Nat} {s : Store α} {l : ListHead} {ps : List Nat}
    (h : Owned p₀ e₀ s l ps) (he₀ : e₀ ≤ s.usedElts) :
    (∃ ps', Owned p₀ e₀ (push l s).2.2 (push l s).1 ps' ∧
      (push l s).2.2.addrs ps' (push l s).1.last = s.addrs ps l.last ++ [(push l s).2.1]) ∧
      Keeps p₀ e₀ s (push l s).2.2 ∧ (push l s).2.2.elt = s.elt := by
  obtain ⟨hle, hused⟩ := h.parts l.last (List.mem_append_right _ List.mem_cons_self)
  unfold push
  dsimp only
  split
  · refine ⟨⟨_, push_part h he₀⟩,
      ⟨fun q hq => ?_, fun _ _ => rfl, Nat.le_succ _, Nat.le_add_right _ _⟩, rfl⟩
    refine (Function.update_of_ne (Nat.ne_of_lt (hq.trans_le (hle.trans hused.le))) _ _).trans ?_
    exact Function.update_of_ne (Nat.ne_of_lt (hq.trans_le hle)) _ _
  · rename_i hroom
    refine ⟨⟨_, push_room h hroom⟩, ⟨fun q hq => ?_, fun _ _ => rfl, le_rfl, le_rfl⟩, rfl⟩
    exact Function.update_of_ne (Nat.ne_of_lt (hq.trans_le hle)) _ _

end Store

end NgxWasm.Lib
