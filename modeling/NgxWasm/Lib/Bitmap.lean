import Mathlib.Data.List.Basic

/-!
# Bitmaps

A set of indices kept as bits in words of 64: the word `i / 64`, the bit `i % 64`. Words and indices are
`UInt64`, as a program has them, and a bitmap is a list of words.

* `mem_set`: to set a bit adds exactly its index.
* `word_lt`: the word of an index below `n` is one of the `words n` that `n` bits need.
-/

namespace NgxWasm.Lib.Bitmap

/-- The word an index is in. -/
def word (i : UInt64) : Nat := (i / 64).toNat

/-- Its bit. -/
def mask (i : UInt64) : UInt64 := 1 <<< (i % 64)

/-- The index is in the set. -/
def Mem (ws : List UInt64) (i : UInt64) : Prop := ws.getD (word i) 0 &&& mask i ≠ 0

instance (ws : List UInt64) (i : UInt64) : Decidable (Mem ws i) :=
  inferInstanceAs (Decidable (ws.getD (word i) 0 &&& mask i ≠ 0))

/-- The set with an index added. -/
def set (ws : List UInt64) (i : UInt64) : List UInt64 := ws.modify (word i) (· ||| mask i)

/-- How many words `n` bits need. -/
def words (n : Nat) : Nat := (n + 63) / 64

theorem word_eq (i : UInt64) : word i = i.toNat / 64 := UInt64.toNat_div i 64

theorem word_lt {i : UInt64} {n : Nat} (h : i.toNat < n) : word i < words n := by
  rw [word_eq, words]
  omega

theorem mask_toBitVec (i : UInt64) : (mask i).toBitVec = BitVec.twoPow 64 (i.toNat % 64) := by
  have hshift : (i % 64).toNat = i.toNat % 64 := UInt64.toNat_mod i 64
  have hmod : ((i % 64).toBitVec % 64).toNat = i.toNat % 64 := by
    rw [BitVec.toNat_umod]
    exact (congrArg (· % 64) hshift).trans (Nat.mod_mod _ _)
  rw [mask, UInt64.toBitVec_shiftLeft, BitVec.twoPow_eq, BitVec.shiftLeft_eq', hmod]
  rfl

/-- The bit of an index in its word. -/
theorem and_mask (w i : UInt64) : w &&& mask i ≠ 0 ↔ w.toBitVec.getLsbD (i.toNat % 64) = true := by
  have hbit : i.toNat % 64 < 64 := Nat.mod_lt _ (by decide)
  have htwo : BitVec.twoPow 64 (i.toNat % 64) ≠ 0#64 := by
    intro hzero
    have hself := BitVec.getLsbD_twoPow (w := 64) (i.toNat % 64) (i.toNat % 64)
    rw [hzero, BitVec.getLsbD_zero] at hself
    simp [hbit] at hself
  rw [ne_eq, ← UInt64.toBitVec_inj, UInt64.toBitVec_and, mask_toBitVec, BitVec.and_twoPow]
  cases w.toBitVec.getLsbD (i.toNat % 64) with
  | true => exact iff_of_true htwo rfl
  | false => exact iff_of_false (fun h => h rfl) Bool.false_ne_true

/-- **One bit is set**, and no other changes. -/
theorem mem_set {ws : List UInt64} {i : UInt64} (h : word i < ws.length) (j : UInt64) :
    Mem (set ws i) j ↔ j = i ∨ Mem ws j := by
  have hget : (set ws i).getD (word j) 0 =
      if word j = word i then ws.getD (word i) 0 ||| mask i else ws.getD (word j) 0 := by
    rw [set, List.getD_eq_getElem?_getD, List.getElem?_modify, List.getD_eq_getElem?_getD,
      List.getD_eq_getElem?_getD]
    by_cases hword : word j = word i
    · rw [if_pos hword, hword, List.getElem?_eq_getElem h]
      simp
    · rw [if_neg hword]
      cases ws[word j]? with
      | none => rfl
      | some w => simp [Ne.symm hword]
  unfold Mem
  rw [hget]
  by_cases hword : word j = word i
  · rw [if_pos hword, hword, and_mask, and_mask, UInt64.toBitVec_or, BitVec.getLsbD_or, mask_toBitVec,
      BitVec.getLsbD_twoPow, Bool.or_eq_true, Bool.and_eq_true, decide_eq_true_eq, decide_eq_true_eq]
    have hsame : i.toNat % 64 = j.toNat % 64 ↔ j = i := by
      rw [word_eq, word_eq] at hword
      rw [← UInt64.toNat_inj]
      omega
    have hbit : i.toNat % 64 < 64 := Nat.mod_lt _ (by decide)
    rw [hsame, or_comm, and_iff_right hbit]
  · have hne : j ≠ i := fun hji => hword (congrArg word hji)
    rw [if_neg hword, or_iff_right hne]

theorem length_set (ws : List UInt64) (i : UInt64) : (set ws i).length = ws.length :=
  List.length_modify ..

end NgxWasm.Lib.Bitmap
