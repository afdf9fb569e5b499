import NgxWasm.Shm.DecimalText

/-!
# The texts a counter accepts

`readI32` of `DecimalText` is still a loop. Here the accepted texts are given by their form:

* `Numeral ds`: one or more ASCII digits; `numeral ds` is the number they write, leading zeros
  included. Their values are Mathlib's `Nat.ofDigits`.
* `Spells text v`: `text` is a numeral or a `-` and a numeral, and `v` is its value. A `+`, a blank or
  an empty text spells nothing.
* `Canonical text`: the form in which every number has one text. No leading zero, and no `-0`.

`readI32_eq_some` and `eq_intText` connect the form to the two loops. `parse_format_exact` then says of
`ngx_http_wasm_shm_parse_i32` and `ngx_http_wasm_shm_format_i32` what they accept, what they write,
and that each undoes the other up to the canonical form.
-/

namespace NgxWasm.Shm

/-- An ASCII digit. -/
abbrev IsDigit (ch : UInt8) : Prop := 48 ≤ ch ∧ ch ≤ 57

/-- The number an ASCII digit stands for. -/
def digitVal (ch : UInt8) : Nat := ch.toNat - 48

/-- One or more ASCII digits. -/
structure Numeral (ds : Bytes) : Prop where
  ne_nil : ds ≠ []
  digits : ∀ ch ∈ ds, IsDigit ch

/-- The number a string of digits writes, the most significant first. -/
def numeral (ds : Bytes) : Nat := Nat.ofDigits 10 (ds.reverse.map digitVal)

/-- `text` is an optional `-` followed by a numeral, and `v` is its value. -/
inductive Spells : Bytes → Int → Prop
  | plain {ds : Bytes} (h : Numeral ds) : Spells ds (numeral ds)
  | minus {ds : Bytes} (h : Numeral ds) : Spells (45 :: ds) (-numeral ds)

/-- The canonical texts: `0`, and what has no leading zero after an optional `-`. -/
def Canonical (text : Bytes) : Prop :=
  text = [48] ∨ ∃ ds, Numeral ds ∧ ds.head? ≠ some 48 ∧ (text = ds ∨ text = 45 :: ds)

/-! ## Digits -/

theorem numeral_cons (ch : UInt8) (ds : Bytes) :
    numeral (ch :: ds) = digitVal ch * 10 ^ ds.length + numeral ds := by
  unfold numeral
  rw [List.reverse_cons, List.map_append, Nat.ofDigits_append, List.map_cons, List.map_nil,
    Nat.ofDigits_singleton, List.length_map, List.length_reverse]
  ring

theorem digitVal_lt {ch : UInt8} (h : IsDigit ch) : digitVal ch < 10 := by
  have : ch.toNat ≤ 57 := h.2
  unfold digitVal
  omega

theorem digitByte_digitVal {ch : UInt8} (h : IsDigit ch) : digitByte (digitVal ch) = ch := by
  have hlo : 48 ≤ ch.toNat := h.1
  unfold digitByte digitVal
  apply UInt8.toNat_inj.mp
  rw [UInt8.toNat_add, UInt8.toNat_ofNat']
  show (48 + (ch.toNat - 48) % 2 ^ 8) % 2 ^ 8 = _
  have := ch.toNat_lt
  omega

/-- What the digit loop reads from `v` on. -/
theorem readDigits_eq_some {ds : Bytes} {v n : Nat} :
    readDigits ds v = some n ↔ (∀ ch ∈ ds, IsDigit ch) ∧ n = v * 10 ^ ds.length + numeral ds := by
  induction ds generalizing v with
  | nil =>
    simp only [readDigits, Option.some.injEq, List.not_mem_nil, false_imp_iff, implies_true,
      true_and, List.length_nil, pow_zero, mul_one]
    show v = n ↔ n = v + 0
    omega
  | cons ch rest ih =>
    unfold readDigits
    rw [List.forall_mem_cons]
    by_cases hd : IsDigit ch
    · rw [if_pos hd, ih, numeral_cons, List.length_cons]
      have hval : (v * 10 + (ch.toNat - 48)) * 10 ^ rest.length + numeral rest =
          v * 10 ^ (rest.length + 1) + (digitVal ch * 10 ^ rest.length + numeral rest) := by
        unfold digitVal
        ring
      rw [hval]
      tauto
    · rw [if_neg hd]
      tauto

theorem readNat_eq_some {limit n : Nat} {ds : Bytes} :
    readNat limit ds = some n ↔ Numeral ds ∧ n = numeral ds ∧ n ≤ limit := by
  unfold readNat
  by_cases hnil : ds = []
  · rw [if_pos hnil]
    constructor
    · intro h
      cases h
    · intro h
      exact absurd hnil h.1.ne_nil
  · rw [if_neg hnil, Option.filter_eq_some_iff, readDigits_eq_some, zero_mul, zero_add,
      decide_eq_true_eq]
    constructor
    · rintro ⟨⟨hd, hn⟩, hle⟩
      exact ⟨⟨hnil, hd⟩, hn, hle⟩
    · rintro ⟨hd, hn, hle⟩
      exact ⟨⟨hd.digits, hn⟩, hle⟩

theorem head_ne_minus {ds : Bytes} (h : Numeral ds) : ds.head? ≠ some 45 := by
  intro hc
  have hd := h.digits 45 (List.mem_of_mem_head? hc)
  exact absurd hd.1 (by decide)

/-- **The accepted texts by their form.** -/
theorem readI32_eq_some {text : Bytes} {v : Int} :
    readI32 text = some v ↔ Spells text v ∧ int32Min ≤ v ∧ v ≤ int32Max := by
  unfold readI32 int32Min int32Max
  constructor
  · intro h
    split at h
    · rename_i hneg
      obtain ⟨n, hn, rfl⟩ := Option.map_eq_some_iff.mp h
      obtain ⟨hd, rfl, hle⟩ := readNat_eq_some.mp hn
      have ht : text = 45 :: text.tail := List.eq_cons_of_mem_head? hneg
      have hs : Spells text (-numeral text.tail) := by
        rw [ht]
        exact .minus hd
      exact ⟨hs, by omega, by omega⟩
    · obtain ⟨n, hn, rfl⟩ := Option.map_eq_some_iff.mp h
      obtain ⟨hd, rfl, hle⟩ := readNat_eq_some.mp hn
      exact ⟨.plain hd, by omega, by omega⟩
  · rintro ⟨hs, hlo, hhi⟩
    cases hs with
    | plain hd =>
      rw [if_neg (head_ne_minus hd), readNat_eq_some.mpr ⟨hd, rfl, by omega⟩, Option.map_some]
    | minus hd =>
      rename_i ds
      rw [if_pos List.head?_cons, List.tail_cons, readNat_eq_some.mpr ⟨hd, rfl, by omega⟩,
        Option.map_some]

/-! ## The canonical text -/

/-- A numeral without a leading zero is the text of its value. -/
theorem natText_numeral {ds : Bytes} (h : Numeral ds) (hz : ds.head? ≠ some 48) :
    natText (numeral ds) = ds := by
  have hdigits : Nat.digits 10 (numeral ds) = ds.reverse.map digitVal := by
    refine Nat.digits_ofDigits 10 (by omega) _ ?_ ?_
    · intro d hd
      obtain ⟨ch, hch, rfl⟩ := List.mem_map.mp hd
      exact digitVal_lt (h.digits ch (List.mem_reverse.mp hch))
    · intro hne
      -- the last digit of the reversed list is the leading one
      obtain ⟨ch, rest, rfl⟩ := List.exists_cons_of_ne_nil h.ne_nil
      have hd := (h.digits ch List.mem_cons_self).1
      have hd' : 48 ≤ ch.toNat := hd
      simp only [List.reverse_cons, List.map_append, List.map_cons, List.map_nil,
        List.getLast_concat]
      intro h0
      have hch : ch.toNat = (48 : UInt8).toNat := by
        unfold digitVal at h0
        show ch.toNat = 48
        omega
      exact hz (by rw [UInt8.toNat_inj.mp hch, List.head?_cons])
  have hne : numeral ds ≠ 0 := by
    intro h0
    rw [h0, Nat.digits_zero] at hdigits
    exact h.ne_nil (List.reverse_eq_nil_iff.mp (List.map_eq_nil_iff.mp hdigits.symm))
  unfold natText
  rw [if_neg hne, hdigits, List.map_map, List.map_congr_left (g := id), List.map_id,
    List.reverse_reverse]
  intro ch hch
  exact digitByte_digitVal (h.digits ch (List.mem_reverse.mp hch))

/-- The text of a natural number is a numeral. -/
theorem numeral_natText (n : Nat) : Numeral (natText n) ∧ numeral (natText n) = n := by
  obtain ⟨hd, hv⟩ := readDigits_eq_some.mp (readDigits_natText n)
  exact ⟨⟨natText_ne_nil n, hd⟩, by omega⟩

/-- The leading digit of a number other than zero is not `0`. -/
theorem head_natText_ne_zero {n : Nat} (hn : n ≠ 0) : (natText n).head? ≠ some 48 := by
  unfold natText
  rw [if_neg hn, List.head?_reverse, List.getLast?_map,
    List.getLast?_eq_getLast_of_ne_nil (Nat.digits_ne_nil_iff_ne_zero.mpr hn), Option.map_some]
  have hne : Nat.digits 10 n ≠ [] := Nat.digits_ne_nil_iff_ne_zero.mpr hn
  have hlast := Nat.getLast_digit_ne_zero 10 hn
  have hlt : (Nat.digits 10 n).getLast hne < 10 :=
    Nat.digits_lt_base (by omega) (List.getLast_mem hne)
  generalize (Nat.digits 10 n).getLast _ = d at hlast hlt
  unfold digitByte
  intro h
  have := congrArg UInt8.toNat (Option.some.inj h)
  rw [UInt8.toNat_add, UInt8.toNat_ofNat'] at this
  have h48 : (48 : UInt8).toNat = 48 := rfl
  rw [h48] at this
  omega

theorem spells_intText (v : Int) : Spells (intText v) v := by
  obtain ⟨hd, hn⟩ := numeral_natText v.natAbs
  unfold intText
  split
  · have := Spells.minus hd
    rwa [hn, show -((v.natAbs : Nat) : Int) = v by omega] at this
  · have := Spells.plain hd
    rwa [hn, show ((v.natAbs : Nat) : Int) = v by omega] at this

theorem canonical_intText (v : Int) : Canonical (intText v) := by
  by_cases h0 : v = 0
  · subst h0
    exact Or.inl rfl
  · refine Or.inr ⟨natText v.natAbs, (numeral_natText _).1, head_natText_ne_zero (by omega), ?_⟩
    unfold intText
    split
    · exact Or.inr rfl
    · exact Or.inl rfl

/-- **Every number has one canonical text.** -/
theorem eq_intText {text : Bytes} {v : Int} (hc : Canonical text) (hs : Spells text v) :
    text = intText v := by
  rcases hc with rfl | ⟨ds, hd, hz, rfl | rfl⟩
  · cases hs with
    | plain h => rfl
  · cases hs with
    | plain h =>
      unfold intText
      rw [if_neg (by omega), Int.natAbs_natCast, natText_numeral hd hz]
    | minus h => exact absurd List.head?_cons (head_ne_minus hd)
  · cases hs with
    | plain h => exact absurd List.head?_cons (head_ne_minus h)
    | minus h =>
      have hpos : numeral ds ≠ 0 := by
        intro h0
        have := natText_numeral hd hz
        rw [h0] at this
        exact hz (this ▸ rfl)
      unfold intText
      rw [if_pos (by omega), Int.natAbs_neg, Int.natAbs_natCast, natText_numeral hd hz]

/-- Ten digits and a sign. -/
theorem length_intText {v : Int} (h : int32Min ≤ v) (h' : v ≤ int32Max) :
    (intText v).length ≤ 11 := by
  unfold int32Min int32Max at *
  have hnat : (natText v.natAbs).length ≤ 10 := by
    unfold natText
    split
    · simp
    · rw [List.length_reverse, List.length_map]
      exact (Nat.digits_length_le_iff (by omega) _).mpr (by omega)
  unfold intText
  split
  · rw [List.length_cons]
    omega
  · omega

/-- **What the two functions accept and write.** `ngx_http_wasm_shm_parse_i32` accepts exactly the
optional `-` and digits whose value fits, and gives that value; what
`ngx_http_wasm_shm_format_i32` writes is canonical, has at most 11 bytes and reads back; and
formatting what was parsed gives the canonical text of the same number. -/
theorem parse_format_exact :
    (∀ text v, parseI32 text = some v ↔ Spells text v ∧ int32Min ≤ v ∧ v ≤ int32Max) ∧
      (∀ v, int32Min ≤ v → v ≤ int32Max → parseI32 (formatI32 v) = some v ∧
        Canonical (formatI32 v) ∧ (formatI32 v).length ≤ 11) ∧
      ∀ text v, parseI32 text = some v →
        ∀ text', text' = formatI32 v ↔ Canonical text' ∧ Spells text' v := by
  refine ⟨fun text v => ?_, fun v h h' => ?_, fun text v hp text' => ?_⟩
  · rw [parseI32_eq, readI32_eq_some]
  · rw [formatI32_eq h h', parseI32_eq]
    exact ⟨readI32_intText h h', canonical_intText v, length_intText h h'⟩
  · rw [parseI32_eq, readI32_eq_some] at hp
    rw [formatI32_eq hp.2.1 hp.2.2]
    constructor
    · rintro rfl
      exact ⟨canonical_intText v, spells_intText v⟩
    · rintro ⟨hc, hs⟩
      exact eq_intText hc hs

theorem parse_format_exact_leading_zeros :
    parseI32 (formatI32 int32Min) = some int32Min ∧
      ∀ text', text' = formatI32 (-7) ↔ Canonical text' ∧ Spells text' (-7) := by
  constructor
  · exact (parse_format_exact.2.1 int32Min (by decide) (by decide)).1
  · -- the text `-007`
    exact parse_format_exact.2.2 [45, 48, 48, 55] (-7) (by decide)

end NgxWasm.Shm
