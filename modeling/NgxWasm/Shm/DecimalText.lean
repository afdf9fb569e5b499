import NgxWasm.Shm.Decimal
import Mathlib.Data.Nat.Digits.Lemmas

/-!
# What the two decimal loops compute

`readI32` and `intText` say in plain arithmetic what the text of a counter means: an optional
`-` and decimal digits whose value fits 32 signed bits, and the canonical text of a number. They
have no accumulator that could wrap and no buffer, and the abstract store is stated with them.

* `parseI32_eq`: `ngx_http_wasm_shm_parse_i32`, with its overflow guard and its wrapping
  accumulator, is `readI32`. The one accumulator that wraps is that of `-2147483648`, and the
  function ends there with a case of its own.
* `formatI32_eq`: `ngx_http_wasm_shm_format_i32` writes `intText`.
* `readI32_intText`: reading back what was written gives the number.
-/

namespace NgxWasm.Shm

/-- The number a string of decimal digits appends to `v`; `none` if some byte is no digit. -/
def readDigits : Bytes → Nat → Option Nat
  | [], v => some v
  | ch :: rest, v =>
    if 48 ≤ ch ∧ ch ≤ 57 then readDigits rest (v * 10 + (ch.toNat - 48)) else none

/-- The number `digits` write, if there is one and it is at most `limit`. -/
def readNat (limit : Nat) (digits : Bytes) : Option Nat :=
  if digits = [] then none else (readDigits digits 0).filter (· ≤ limit)

/-- The number a text stands for: an optional `-`, then digits, within 32 signed bits. -/
def readI32 (text : Bytes) : Option Int :=
  if text.head? = some 45 then (readNat 2147483648 text.tail).map fun n : Nat => -(n : Int)
  else (readNat 2147483647 text).map fun n : Nat => (n : Int)

/-- The digit `d` as a byte. -/
def digitByte (d : Nat) : UInt8 := 48 + UInt8.ofNat d

/-- The decimal text of a natural number. -/
def natText (n : Nat) : Bytes :=
  if n = 0 then [48] else ((Nat.digits 10 n).map digitByte).reverse

/-- The canonical decimal text of a number. -/
def intText (i : Int) : Bytes := if i < 0 then 45 :: natText i.natAbs else natText i.natAbs

/-! ## Parsing -/

theorem u32_i32 {v : Nat} (h : v < 2 ^ 32) : u32 (i32 v) = v := by
  unfold u32 i32
  rw [Int.bmod_def]
  split <;> omega

theorem i32_of_lt {x : Int} (h : -2 ^ 31 ≤ x) (h' : x < 2 ^ 31) : i32 x = x := by
  unfold i32
  rw [Int.bmod_def]
  split <;> omega

theorem le_of_readDigits {ds : Bytes} {v n : Nat} (h : readDigits ds v = some n) : v ≤ n := by
  induction ds generalizing v with
  | nil => exact (Option.some.inj h).le
  | cons ch rest ih =>
    unfold readDigits at h
    split at h
    · have := ih h
      omega
    · exact absurd h (by simp)

/-- The guard of the digit loop refuses exactly the numbers above `limit`, and below it the
accumulator never wraps. -/
theorem parseDigits_eq {limit : Nat} (hlim : limit ≤ 2147483648) (ds : Bytes) {v : Nat}
    (hv : v ≤ limit) : parseDigits limit ds (i32 v) =
      ((readDigits ds v).filter (· ≤ limit)).map fun n : Nat => i32 n := by
  induction ds generalizing v with
  | nil => simp [parseDigits, readDigits, hv]
  | cons ch rest ih =>
    unfold parseDigits readDigits
    by_cases hd : 48 ≤ ch ∧ ch ≤ 57
    · have hd₁ : ¬ ch < 48 := UInt8.not_lt.mpr hd.1
      have hd₂ : ¬ ch > 57 := UInt8.not_lt.mpr hd.2
      have hsub : (ch - 48).toNat = ch.toNat - 48 := UInt8.toNat_sub_of_le _ _ hd.1
      have hlt : ch.toNat - 48 < 10 := by
        have : ch.toNat ≤ 57 := hd.2
        omega
      rw [if_pos hd, u32_i32 (by omega), hsub]
      simp only [hd₁, hd₂, decide_false, Bool.or_self, Bool.false_eq_true, if_false]
      generalize ch.toNat - 48 = d at hlt ⊢
      by_cases hover : v * 10 + d ≤ limit
      · have hsmall : i32 v = v := i32_of_lt (by omega) (by omega)
        rw [if_neg (by simp; omega), hsmall, show (v : Int) * 10 + d = ((v * 10 + d : Nat) : Int) by
          push_cast; rfl, ih hover]
      · rw [if_pos (by simp; omega)]
        cases hr : readDigits rest (v * 10 + d) with
        | none => rfl
        | some n =>
          have := le_of_readDigits hr
          rw [Option.filter_some, if_neg (by simp; omega), Option.map_none]
    · have hd' : (decide (ch < 48) || decide (ch > 57)) = true := by
        simp only [Bool.or_eq_true, decide_eq_true_eq]
        by_contra hc
        rw [not_or] at hc
        exact hd ⟨UInt8.not_lt.mp hc.1, UInt8.not_lt.mp hc.2⟩
      rw [if_neg hd, if_pos hd']
      rfl

/-- What the guard lets through. -/
theorem readNat_le {limit n : Nat} {digits : Bytes} (h : readNat limit digits = some n) :
    n ≤ limit := by
  unfold readNat at h
  split at h
  · exact absurd h (by simp)
  · simpa using (Option.filter_eq_some_iff.mp h).2

theorem parseDigits_zero {limit : Nat} (hlim : limit ≤ 2147483648) {digits : Bytes}
    (hne : digits ≠ []) :
    parseDigits limit digits 0 = (readNat limit digits).map fun n : Nat => i32 n := by
  have h0 : i32 ((0 : Nat) : Int) = 0 := i32_of_lt (by omega) (by omega)
  have := parseDigits_eq hlim digits (Nat.zero_le limit)
  rw [h0] at this
  rw [this, readNat, if_neg hne]

/-- **`ngx_http_wasm_shm_parse_i32` reads a 32-bit decimal.** -/
theorem parseI32_eq (text : Bytes) : parseI32 text = readI32 text := by
  unfold parseI32 readI32
  by_cases hneg : text.head? = some 45
  · simp only [hneg, BEq.rfl, if_true, List.isEmpty_iff]
    by_cases hnil : text.tail = []
    · rw [if_pos hnil, readNat, if_pos hnil, Option.map_none]
    · rw [if_neg hnil, parseDigits_zero (by omega) hnil]
      cases hr : readNat 2147483648 text.tail with
      | none => rfl
      | some n =>
        have hle := readNat_le hr
        simp only [Option.map_some, u32_i32 (show n < 2 ^ 32 by omega)]
        split
        · rename_i hn; rw [hn]; simp [int32Min]
        · rw [i32_of_lt (x := n) (by omega) (by omega), i32_of_lt (by omega) (by omega)]
  · have hneg' : (text.head? == some 45) = false := by simpa using hneg
    simp only [hneg', Bool.false_eq_true, if_false, if_neg hneg, List.isEmpty_iff]
    by_cases hnil : text = []
    · rw [if_pos hnil, readNat, if_pos hnil, Option.map_none]
    · rw [if_neg hnil, parseDigits_zero (by omega) hnil]
      cases hr : readNat 2147483647 text with
      | none => rfl
      | some n =>
        have hle := readNat_le hr
        simp only [Option.map_some, i32_of_lt (show -2 ^ 31 ≤ (n : Int) by omega) (by omega)]

/-! ## Formatting -/

theorem formatDigits_eq {fuel m : Nat} (h : m < 10 ^ fuel) (hpos : 0 < fuel) :
    formatDigits fuel m = if m = 0 then [48] else (Nat.digits 10 m).map digitByte := by
  induction fuel generalizing m with
  | zero => exact absurd hpos (Nat.lt_irrefl 0)
  | succ fuel ih =>
    unfold formatDigits
    by_cases hm : m = 0
    · subst hm; rfl
    · rw [if_neg hm, Nat.digits_def' (by omega) (Nat.pos_of_ne_zero hm), List.map_cons]
      by_cases hq : m / 10 = 0
      · rw [if_pos hq, hq, Nat.digits_zero]; rfl
      · have hlt : m / 10 < 10 ^ fuel := by
          rw [Nat.pow_succ] at h
          omega
        have hf : 0 < fuel := by
          rcases Nat.eq_zero_or_pos fuel with rfl | hf
          · simp only [Nat.pow_zero] at hlt; omega
          · exact hf
        rw [if_neg hq, ih hlt hf, if_neg hq]
        rfl

/-- **`ngx_http_wasm_shm_format_i32` writes the canonical text.** -/
theorem formatI32_eq {i : Int} (h : int32Min ≤ i) (h' : i ≤ int32Max) : formatI32 i = intText i := by
  unfold int32Min int32Max at *
  unfold formatI32 intText natText
  have key : ∀ m : Nat, m < 2 ^ 32 → (formatDigits ngxIntTLen m).reverse =
      if m = 0 then [48] else ((Nat.digits 10 m).map digitByte).reverse := by
    intro m hm
    rw [formatDigits_eq (by unfold ngxIntTLen; omega) (by decide)]
    split <;> rfl
  by_cases hneg : i < 0
  · have hmag : u32 (-(i + 1)) + 1 = i.natAbs := by unfold u32; omega
    simp only [if_pos hneg, hmag]
    rw [key _ (by omega)]
  · have hmag : u32 i = i.natAbs := by unfold u32; omega
    simp only [if_neg hneg, hmag]
    rw [key _ (by omega)]

/-! ## The round trip -/

theorem readDigits_append (xs ys : Bytes) (v : Nat) :
    readDigits (xs ++ ys) v = (readDigits xs v).bind (readDigits ys) := by
  induction xs generalizing v with
  | nil => rfl
  | cons x xs ih =>
    simp only [List.cons_append, readDigits]
    split
    · exact ih _
    · rfl

theorem readDigits_digits {l : List Nat} (h : ∀ d ∈ l, d < 10) :
    readDigits ((l.map digitByte).reverse) 0 = some (Nat.ofDigits 10 l) := by
  induction l with
  | nil => rfl
  | cons d l ih =>
    have hd : d < 10 := h d List.mem_cons_self
    have hb : (digitByte d).toNat = 48 + d := by
      unfold digitByte
      rw [UInt8.toNat_add, UInt8.toNat_ofNat']
      show (48 + d % 2 ^ 8) % 2 ^ 8 = _
      omega
    have hr : 48 ≤ digitByte d ∧ digitByte d ≤ 57 := by
      constructor
      · show (48 : Nat) ≤ (digitByte d).toNat; omega
      · show (digitByte d).toNat ≤ 57; omega
    rw [List.map_cons, List.reverse_cons, readDigits_append,
      ih fun x hx => h x (List.mem_cons_of_mem _ hx), Option.bind_some, readDigits, if_pos hr,
      readDigits, hb, Nat.ofDigits_cons]
    congr 1
    omega

theorem readDigits_natText (n : Nat) : readDigits (natText n) 0 = some n := by
  unfold natText
  split
  · subst n; rfl
  · rw [readDigits_digits fun d hd => Nat.digits_lt_base (by omega) hd, Nat.ofDigits_digits]

theorem natText_ne_nil (n : Nat) : natText n ≠ [] := by
  intro h
  have := readDigits_natText n
  unfold natText at h
  split at h
  · exact absurd h (by simp)
  · rename_i hn
    rw [List.reverse_eq_nil_iff, List.map_eq_nil_iff, Nat.digits_eq_nil_iff_eq_zero] at h
    exact hn h

/-- Digits come first in a text that carries no sign. -/
theorem head_natText (n : Nat) : (natText n).head? ≠ some 45 := by
  have hr := readDigits_natText n
  intro h
  cases ht : natText n with
  | nil => rw [ht] at h; exact absurd h (by simp)
  | cons c cs =>
    rw [ht] at h hr
    obtain rfl : c = 45 := by simpa using h
    exact absurd hr (by simp [readDigits])

theorem readNat_natText {limit n : Nat} (h : n ≤ limit) : readNat limit (natText n) = some n := by
  unfold readNat
  rw [if_neg (natText_ne_nil n), readDigits_natText, Option.filter_some, if_pos (by simpa using h)]

/-- **Reading the canonical text of a 32-bit number gives the number.** -/
theorem readI32_intText {i : Int} (h : int32Min ≤ i) (h' : i ≤ int32Max) :
    readI32 (intText i) = some i := by
  unfold int32Min int32Max at *
  unfold readI32 intText
  by_cases hneg : i < 0
  · rw [if_pos hneg, if_pos List.head?_cons, List.tail_cons, readNat_natText (by omega),
      Option.map_some]
    congr 1
    omega
  · rw [if_neg hneg, if_neg (head_natText _), readNat_natText (by omega), Option.map_some]
    congr 1
    omega

end NgxWasm.Shm
