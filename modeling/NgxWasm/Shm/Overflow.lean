import NgxWasm.Shm.Numeral
import NgxWasm.Shm.Zone

/-!
# The signed arithmetic of `shm_incr`

An overflow of signed arithmetic has no meaning in C, and the model of `Decimal` gives it one: the
accumulator wraps. Here the three pieces of `ngx_http_wasm_shm_incr` that compute with signed
numbers (parsing, the sum, formatting) are written out once more, each with the list of the signed
operations it executes; an operation is recorded with its type and its exact result.

* `parseI32Ops_fst`, `formatI32Ops_fst`, `incrOps_fst`: apart from the record these are the
  functions of `Decimal` and `Zone`.
* `digit_ops_fit`, `parseDigitsOps_fits`: one digit of the loop, and the loop.
* `incr_arith_fits_iff`: every recorded result fits its type unless the stored value begins with
  `-` and digits that write 2147483648. The guard before each digit lets that magnitude pass, and
  the accumulator is an `int32_t`.

Unsigned arithmetic (`magnitude`, lengths, the guard itself) wraps by definition and is not
recorded; neither are conversions and comparisons, which cannot overflow. `int` is taken to have 32
bits, as on the platforms of the module.
-/

namespace NgxWasm.Shm

/-- The signed types `shm_incr` computes in; `int` is `int32_t` on the platforms of the module. -/
inductive SignedType where
  | int32
  | int64
  deriving Repr, DecidableEq

/-- `x` is a value of the type. -/
def SignedType.Holds : SignedType → Int → Prop
  | .int32, x => int32Min ≤ x ∧ x ≤ int32Max
  | .int64, x => -2 ^ 63 ≤ x ∧ x < 2 ^ 63

instance : ∀ (t : SignedType) (x : Int), Decidable (t.Holds x)
  | .int32, x => inferInstanceAs (Decidable (int32Min ≤ x ∧ x ≤ int32Max))
  | .int64, x => inferInstanceAs (Decidable (-2 ^ 63 ≤ x ∧ x < 2 ^ 63))

/-- A signed operation: the type it runs in, and its exact result. -/
structure SignedOp where
  type : SignedType
  exact : Int
  deriving Repr, DecidableEq

/-- The result is representable. -/
def SignedOp.Fits (op : SignedOp) : Prop := op.type.Holds op.exact

instance (op : SignedOp) : Decidable op.Fits :=
  inferInstanceAs (Decidable (op.type.Holds op.exact))

/-- What the machine is left with, an overflow read as two's-complement wrap. -/
def SignedOp.result (op : SignedOp) : Int :=
  match op.type with
  | .int32 => i32 op.exact
  | .int64 => op.exact.bmod (2 ^ 64)

/-! ## The recorded functions -/

/-- The digit loop: `ch - '0'`, `result * 10` and the addition of the digit. -/
def parseDigitsOps (limit : Nat) : Bytes → Int → Option Int × List SignedOp
  | [], result => (some result, [])
  | ch :: rest, result =>
    if ch < 48 || ch > 57 then (none, [])
    else
      let sub : SignedOp := ⟨.int32, (ch.toNat : Int) - 48⟩
      let digit := (ch - 48).toNat
      if u32 result > limit / 10 || (u32 result == limit / 10 && decide (digit > limit % 10)) then
        (none, [sub])
      else
        let mul : SignedOp := ⟨.int32, result * 10⟩
        let add : SignedOp := ⟨.int32, mul.result + digit⟩
        match parseDigitsOps limit rest add.result with
        | (r, ops) => (r, sub :: mul :: add :: ops)

/-- `ngx_http_wasm_shm_parse_i32`: the loop, and `-result`. -/
def parseI32Ops (data : Bytes) : Option Int × List SignedOp :=
  let negative := data.head? == some 45
  let digits := if negative then data.tail else data
  if digits.isEmpty then (none, [])
  else
    match parseDigitsOps (if negative then 2147483648 else 2147483647) digits 0 with
    | (none, ops) => (none, ops)
    | (some result, ops) =>
      if negative then
        if u32 result = 2147483648 then (some int32Min, ops)
        else
          let neg : SignedOp := ⟨.int32, -result⟩
          (some neg.result, ops ++ [neg])
      else (some result, ops)

/-- `ngx_http_wasm_shm_format_i32`: `value + 1` and its negation, on negative numbers. -/
def formatI32Ops (value : Int) : Bytes × List SignedOp :=
  if value < 0 then
    let inc : SignedOp := ⟨.int32, value + 1⟩
    let neg : SignedOp := ⟨.int32, -inc.result⟩
    (45 :: (formatDigits ngxIntTLen (u32 neg.result + 1)).reverse, [inc, neg])
  else ((formatDigits ngxIntTLen (u32 value)).reverse, [])

/-- `ngx_http_wasm_shm_incr` between its lookup and `set_locked`: the number and the text it is
about to store over `value`, if any. The sum is one of `int64_t`. -/
def incrOps (value : Bytes) (delta : Int) : Option (Int × Bytes) × List SignedOp :=
  match parseI32Ops value with
  | (none, ops) => (none, ops)
  | (some current, ops) =>
    let sum : SignedOp := ⟨.int64, current + delta⟩
    if sum.result < int32Min || sum.result > int32Max then (none, ops ++ [sum])
    else
      match formatI32Ops (i32 sum.result) with
      | (text, ops') => (some (i32 sum.result, text), ops ++ sum :: ops')

/-! ## They compute what the functions compute -/

/-- Wrapping twice is wrapping once. -/
theorem i32_i32_add (x y : Int) : i32 (i32 x + y) = i32 (x + y) := Int.bmod_add_bmod

theorem parseDigitsOps_fst (limit : Nat) (data : Bytes) (result : Int) :
    (parseDigitsOps limit data result).1 = parseDigits limit data result := by
  induction data generalizing result with
  | nil => rfl
  | cons ch rest ih =>
    simp only [parseDigitsOps, parseDigits, SignedOp.result, i32_i32_add]
    split
    · rfl
    · split
      · rfl
      · exact ih _

theorem parseI32Ops_fst (data : Bytes) : (parseI32Ops data).1 = parseI32 data := by
  simp only [parseI32Ops, parseI32, ← parseDigitsOps_fst]
  generalize (data.head? == some 45) = negative
  generalize (if negative = true then data.tail else data) = digits
  by_cases hnil : digits.isEmpty = true
  · rw [if_pos hnil, if_pos hnil]
  · rw [if_neg hnil, if_neg hnil]
    generalize parseDigitsOps _ digits 0 = r
    obtain ⟨_ | result, ops⟩ := r
    · rfl
    · cases negative with
      | true =>
        simp only [if_true]
        split
        · rfl
        · rfl
      | false => rfl

theorem int64_bmod {x : Int} (h : -2 ^ 63 ≤ x) (h' : x < 2 ^ 63) : x.bmod (2 ^ 64) = x := by
  rw [Int.bmod_def]
  split <;> omega

theorem formatI32Ops_fst {value : Int} (h : int32Min ≤ value) (h' : value ≤ int32Max) :
    (formatI32Ops value).1 = formatI32 value := by
  unfold int32Min int32Max at *
  unfold formatI32Ops formatI32
  by_cases hneg : value < 0
  · have hinc : i32 (value + 1) = value + 1 := i32_of_lt (by omega) (by omega)
    have hres : i32 (-(value + 1)) = -(value + 1) := i32_of_lt (by omega) (by omega)
    simp only [if_pos hneg, SignedOp.result, hinc, hres]
  · simp only [if_neg hneg]

/-- The number a text parses to fits `int32_t`. -/
theorem parseI32_range {text : Bytes} {v : Int} (h : parseI32 text = some v) :
    int32Min ≤ v ∧ v ≤ int32Max := by
  rw [parseI32_eq, readI32_eq_some] at h
  exact h.2

/-- **The record changes nothing**: the number and the text are those `shm_incr` stores. -/
theorem incrOps_fst (value : Bytes) {delta : Int} (h : int32Min ≤ delta) (h' : delta ≤ int32Max) :
    (incrOps value delta).1 =
      (incrNext value delta).map fun next => (next, formatI32 next) := by
  have hparse := parseI32Ops_fst value
  unfold incrOps incrNext
  rw [← hparse]
  generalize parseI32Ops value = r at hparse
  obtain ⟨_ | current, ops⟩ := r
  · rfl
  · have hcur := parseI32_range hparse.symm
    have hsum : (current + delta).bmod (2 ^ 64) = current + delta := by
      unfold int32Min int32Max at *
      exact int64_bmod (by omega) (by omega)
    simp only [SignedOp.result, hsum]
    split
    · rfl
    · rename_i hr
      simp only [Bool.or_eq_true, decide_eq_true_eq, not_or, not_lt, gt_iff_lt] at hr
      have hwrap : i32 (current + delta) = current + delta := by
        unfold int32Min int32Max at hr
        exact i32_of_lt (by omega) (by omega)
      rw [hwrap, Option.map_some, ← formatI32Ops_fst hr.1 hr.2]

/-! ## When an operation overflows -/

theorem fits_int32 {x : Int} : SignedOp.Fits ⟨.int32, x⟩ ↔ -2147483648 ≤ x ∧ x ≤ 2147483647 :=
  Iff.rfl

theorem fits_int64 {x : Int} : SignedOp.Fits ⟨.int64, x⟩ ↔ -2 ^ 63 ≤ x ∧ x < 2 ^ 63 := Iff.rfl

/-- Digits at the beginning of `data` continue `v` to 2147483648, the magnitude of `INT32_MIN`. -/
def Reaches (v : Nat) (data : Bytes) : Prop :=
  ∃ ds rest, data = ds ++ rest ∧ (∀ ch ∈ ds, IsDigit ch) ∧
    v * 10 ^ ds.length + numeral ds = 2147483648

theorem reaches_self (data : Bytes) : Reaches 2147483648 data :=
  ⟨[], data, rfl, fun _ h => absurd h List.not_mem_nil, rfl⟩

/-- More digits never make a number smaller. -/
theorem Reaches.le {v : Nat} {data : Bytes} (h : Reaches v data) : v ≤ 2147483648 := by
  obtain ⟨ds, rest, -, -, hn⟩ := h
  have : v ≤ v * 10 ^ ds.length := Nat.le_mul_of_pos_right _ (by positivity)
  omega

/-- Short of 2147483648 at least one digit is missing. -/
theorem Reaches.cons {v : Nat} {data : Bytes} (hv : v < 2147483648) (h : Reaches v data) :
    ∃ ch rest, data = ch :: rest ∧ IsDigit ch ∧ Reaches (v * 10 + digitVal ch) rest := by
  obtain ⟨ds, rest, hds, hall, hn⟩ := h
  cases ds with
  | nil =>
    have h0 : numeral [] = 0 := rfl
    rw [List.length_nil, pow_zero, h0] at hn
    omega
  | cons ch ds =>
    rw [List.forall_mem_cons] at hall
    refine ⟨ch, ds ++ rest, hds, hall.1, ds, rest, rfl, hall.2, ?_⟩
    rw [numeral_cons, List.length_cons] at hn
    rw [← hn]
    ring

theorem reaches_cons_iff {v : Nat} {ch : UInt8} {data : Bytes} (hv : v < 2147483648)
    (hd : IsDigit ch) : Reaches v (ch :: data) ↔ Reaches (v * 10 + digitVal ch) data := by
  constructor
  · intro h
    obtain ⟨c, rest, he, -, hr⟩ := h.cons hv
    obtain ⟨rfl, rfl⟩ := List.cons.inj he
    exact hr
  · rintro ⟨ds, rest, rfl, hall, hn⟩
    refine ⟨ch :: ds, rest, rfl, List.forall_mem_cons.mpr ⟨hd, hall⟩, ?_⟩
    rw [numeral_cons, List.length_cons, ← hn]
    ring

/-- One digit of the loop, from a representable accumulator `v`: the three results, as long as the
guard lets the digit pass. -/
theorem digit_ops_fit {v d : Nat} (hd : d < 10) (hv : v * 10 + d ≤ 2147483648) :
    SignedOp.Fits ⟨.int32, (v : Int) * 10⟩ ∧
      (SignedOp.Fits ⟨.int32, i32 (v * 10) + d⟩ ↔ v * 10 + d < 2147483648) ∧
      (v * 10 + d < 2147483648 → i32 (i32 (v * 10) + d) = ((v * 10 + d : Nat) : Int)) := by
  have hmul : i32 ((v : Int) * 10) = (v : Int) * 10 := by
    by_cases hd0 : v * 10 < 2147483648
    · exact i32_of_lt (by omega) (by omega)
    · omega
  rw [hmul, fits_int32, fits_int32]
  refine ⟨by omega, by omega, fun hlt => ?_⟩
  rw [i32_of_lt (by omega) (by omega)]
  push_cast
  rfl

/-- The digit loop from a representable `v`: the accumulator overflows exactly on reaching
2147483648, which only the limit of the negative numbers admits. -/
theorem parseDigitsOps_fits {limit : Nat} (hlim : limit = 2147483647 ∨ limit = 2147483648)
    (data : Bytes) {v : Nat} (hv : v < 2147483648) :
    (∀ op ∈ (parseDigitsOps limit data v).2, op.Fits) ↔
      ¬ (limit = 2147483648 ∧ Reaches v data) := by
  induction data generalizing v with
  | nil =>
    constructor
    · rintro - ⟨-, h⟩
      obtain ⟨ch, rest, he, -⟩ := h.cons hv
      cases he
    · rintro - op hop
      exact absurd hop List.not_mem_nil
  | cons ch data ih =>
    unfold parseDigitsOps
    by_cases hd : IsDigit ch
    · have hd₁ : ¬ ch < 48 := UInt8.not_lt.mpr hd.1
      have hd₂ : ¬ ch > 57 := UInt8.not_lt.mpr hd.2
      have hu : u32 (v : Int) = v := by
        unfold u32
        omega
      have hdigit : (ch - 48).toNat = digitVal ch := UInt8.toNat_sub_of_le _ _ hd.1
      have hsub : (ch.toNat : Int) - 48 = digitVal ch := by
        have : 48 ≤ ch.toNat := hd.1
        unfold digitVal
        omega
      have hlt := digitVal_lt hd
      have hsubFits : SignedOp.Fits ⟨.int32, digitVal ch⟩ := fits_int32.mpr (by omega)
      rw [reaches_cons_iff hv hd]
      simp only [hd₁, hd₂, decide_false, Bool.or_self, Bool.false_eq_true, if_false, hu, hdigit,
        hsub]
      generalize digitVal ch = d at hlt hsubFits
      by_cases hover : v * 10 + d ≤ limit
      · obtain ⟨hmulFits, haddFits, hstep⟩ := digit_ops_fit hlt (v := v) (by omega)
        rw [if_neg (by simp; omega)]
        simp only [SignedOp.result, List.forall_mem_cons, hsubFits, hmulFits, haddFits, true_and]
        by_cases hmax : v * 10 + d < 2147483648
        · rw [hstep hmax, ih hmax]
          exact and_iff_right hmax
        · -- the digit that completes 2147483648
          obtain rfl : limit = 2147483648 := by omega
          have hv' : v * 10 + d = 2147483648 := by omega
          rw [hv']
          constructor
          · rintro ⟨hc, -⟩
            exact absurd hc (lt_irrefl _)
          · intro hno
            exact absurd ⟨rfl, reaches_self data⟩ hno
      · rw [if_pos (by simp; omega)]
        simp only [List.forall_mem_singleton, hsubFits, true_iff]
        rintro ⟨rfl, h⟩
        exact hover h.le
    · have hd' : (decide (ch < 48) || decide (ch > 57)) = true := by
        simp only [Bool.or_eq_true, decide_eq_true_eq]
        by_contra hc
        rw [not_or] at hc
        exact hd ⟨UInt8.not_lt.mp hc.1, UInt8.not_lt.mp hc.2⟩
      rw [if_pos hd']
      constructor
      · rintro - ⟨-, h⟩
        obtain ⟨c, rest, he, hc, -⟩ := h.cons hv
        obtain ⟨rfl, rfl⟩ := List.cons.inj he
        exact hd hc
      · rintro - op hop
        exact absurd hop List.not_mem_nil

/-- `value` begins with `-` and digits that write 2147483648, leading zeros included. -/
def BeginsAtInt32Min (value : Bytes) : Prop :=
  ∃ ds rest, Numeral ds ∧ numeral ds = 2147483648 ∧ value = 45 :: (ds ++ rest)

theorem beginsAtInt32Min_iff {value : Bytes} :
    BeginsAtInt32Min value ↔ value.head? = some 45 ∧ Reaches 0 value.tail := by
  constructor
  · rintro ⟨ds, rest, hd, hn, rfl⟩
    exact ⟨rfl, ds, rest, rfl, hd.digits, by omega⟩
  · rintro ⟨hneg, ds, rest, ht, hall, hn⟩
    have hn' : numeral ds = 2147483648 := by omega
    have hne : ds ≠ [] := by
      rintro rfl
      cases hn'
    refine ⟨ds, rest, ⟨hne, hall⟩, hn', ?_⟩
    rw [← ht]
    exact List.eq_cons_of_mem_head? hneg

/-- Parsing overflows in its digit loop or nowhere: the negation at the end has its own case for the
one accumulator it could not negate. -/
theorem parseI32Ops_fits (value : Bytes) :
    (∀ op ∈ (parseI32Ops value).2, op.Fits) ↔ ¬ BeginsAtInt32Min value := by
  rw [beginsAtInt32Min_iff]
  unfold parseI32Ops
  by_cases hneg : value.head? = some 45
  · simp only [hneg, BEq.rfl, if_true, true_and]
    have hloop := parseDigitsOps_fits (Or.inr rfl) value.tail (v := 0) (by omega)
    by_cases hnil : value.tail.isEmpty = true
    · rw [if_pos hnil]
      rw [List.isEmpty_iff] at hnil
      constructor
      · rintro - h
        obtain ⟨ch, rest, he, -⟩ := h.cons (by omega)
        rw [hnil] at he
        cases he
      · rintro - op hop
        exact absurd hop List.not_mem_nil
    · rw [if_neg hnil]
      have hval := parseDigitsOps_fst 2147483648 value.tail 0
      rw [parseDigits_zero (by omega) (by rwa [List.isEmpty_iff] at hnil)] at hval
      simp only [Nat.cast_zero, true_and] at hloop
      rw [← hloop]
      generalize parseDigitsOps 2147483648 value.tail 0 = r at hval
      obtain ⟨_ | result, ops⟩ := r
      · rfl
      · obtain ⟨n, hn, hr⟩ := Option.map_eq_some_iff.mp hval.symm
        have hle := readNat_le hn
        dsimp only
        split
        · rfl
        · rename_i hmin
          rw [← hr, u32_i32 (by omega)] at hmin
          have hfit : SignedOp.Fits ⟨.int32, -result⟩ := by
            rw [← hr, i32_of_lt (x := n) (by omega) (by omega), fits_int32]
            omega
          simp only [List.forall_mem_append, List.forall_mem_singleton, hfit, and_true]
  · have hneg' : (value.head? == some 45) = false := by simpa using hneg
    simp only [hneg', Bool.false_eq_true, if_false, hneg, false_and, not_false_eq_true, iff_true]
    have hloop := parseDigitsOps_fits (Or.inl rfl) value (v := 0) (by omega)
    split
    · rintro op hop
      exact absurd hop List.not_mem_nil
    · have hfits : ∀ op ∈ (parseDigitsOps 2147483647 value 0).2, op.Fits := by
        refine hloop.mpr ?_
        rintro ⟨hc, -⟩
        omega
      generalize parseDigitsOps 2147483647 value 0 = r at hfits
      obtain ⟨_ | result, ops⟩ := r
      · exact hfits
      · exact hfits

theorem formatI32Ops_fits {value : Int} (h : int32Min ≤ value) (h' : value ≤ int32Max) :
    ∀ op ∈ (formatI32Ops value).2, op.Fits := by
  unfold int32Min int32Max at *
  unfold formatI32Ops
  split
  · have hinc : i32 (value + 1) = value + 1 := i32_of_lt (by omega) (by omega)
    simp only [SignedOp.result, hinc, List.forall_mem_cons, fits_int32]
    refine ⟨by omega, by omega, fun _ hop => absurd hop List.not_mem_nil⟩
  · intro op hop
    exact absurd hop List.not_mem_nil

/-- **When the arithmetic of `shm_incr` is defined**: every signed operation has a representable result
exactly if the stored value does not begin with `-` and digits that write 2147483648. -/
theorem incr_arith_fits_iff (value : Bytes) {delta : Int} (h : int32Min ≤ delta)
    (h' : delta ≤ int32Max) :
    (∀ op ∈ (incrOps value delta).2, op.Fits) ↔ ¬ BeginsAtInt32Min value := by
  rw [← parseI32Ops_fits]
  have hparse := parseI32Ops_fst value
  unfold incrOps
  generalize parseI32Ops value = r at hparse
  obtain ⟨_ | current, ops⟩ := r
  · rfl
  · have hcur := parseI32_range hparse.symm
    have hsum : SignedOp.Fits ⟨.int64, current + delta⟩ := by
      rw [fits_int64]
      unfold int32Min int32Max at *
      omega
    have hstore : (current + delta).bmod (2 ^ 64) = current + delta := int64_bmod hsum.1 hsum.2
    simp only [SignedOp.result, hstore]
    split
    · simp only [List.forall_mem_append, List.forall_mem_singleton, hsum, and_true]
    · rename_i hr
      simp only [Bool.or_eq_true, decide_eq_true_eq, not_or, not_lt, gt_iff_lt] at hr
      have hwrap : i32 (current + delta) = current + delta := by
        unfold int32Min int32Max at hr
        exact i32_of_lt (by omega) (by omega)
      have hfmt := formatI32Ops_fits hr.1 hr.2
      simp only [hwrap, List.forall_mem_append, List.forall_mem_cons, hsum, true_and]
      exact ⟨fun hops => hops.1, fun hops => ⟨hops, hfmt⟩⟩

/-- Over the text `-2147483647` nothing overflows, and adding -1 leaves `-2147483648`. -/
theorem incr_arith_fits_next_to_min :
    ¬ BeginsAtInt32Min [45, 50, 49, 52, 55, 52, 56, 51, 54, 52, 55] ∧
      (incrOps [45, 50, 49, 52, 55, 52, 56, 51, 54, 52, 55] (-1)).1 =
        some (int32Min, [45, 50, 49, 52, 55, 52, 56, 51, 54, 52, 56]) := by
  have hlo : int32Min ≤ (-1 : Int) := by decide
  constructor
  · exact (incr_arith_fits_iff [45, 50, 49, 52, 55, 52, 56, 51, 54, 52, 55] hlo (by decide)).mp
      (by decide +kernel)
  · decide +kernel

/-- Parsing that text in turn adds 8 to 2147483640 in an `int32_t`. -/
theorem incr_arith_overflows_at_min :
    ¬ ∀ (value : Bytes) (delta : Int), int32Min ≤ delta → delta ≤ int32Max →
      ∀ op ∈ (incrOps value delta).2, op.Fits := by
  intro h
  have hfits := h [45, 50, 49, 52, 55, 52, 56, 51, 54, 52, 56] 0 (by decide) (by decide)
    ⟨.int32, 2147483648⟩ (by decide +kernel)
  exact absurd hfits (by decide)

end NgxWasm.Shm
