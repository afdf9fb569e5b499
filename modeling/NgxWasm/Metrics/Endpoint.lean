import NgxWasm.Abi.Ctx
import NgxWasm.Metrics.Reload
import NgxWasm.Metrics.Values
import NgxWasm.Shm.Numeral

/-!
# The metrics endpoint (`ngx_http_wasm_metrics_handler`)

The handler sizes its buffer in one loop over the definitions and fills it in another, by a format
string, with no bound in between. It takes the mutex for each metric by itself, so the other workers
may write between two of its readings: `zone i` is the zone as the `i`-th definition finds it.

`ngx_sprintf` is written out for the directives that the module uses. What nginx answers to the rest
(the method, the discarded body, the allocations, the header, the output filter) is in `Calls`, and
`Served` is what the handler leaves, whichever way it ends.

* `sprintfInt64_eq`: `%L` writes the canonical text of a value, the smallest one included.
* `written_le_size`: whatever the zones hold, and wherever the loop stops, the text fits.
* `metrics_endpoint_text`: what is written, byte by byte. Names may hold any byte: the text has two
  lines for each metric exactly when no name has a line feed in it.
* `metrics_endpoint_serves`: in every history of configurations and calls, with any calls between the
  readings, the endpoint finds every metric of the running configuration with its kind.
-/

namespace NgxWasm.Metrics

open Lib
open Abi (ascii)

/-! ## `ngx_sprintf` -/

/-- `NGX_INT64_LEN`. -/
def ngxInt64Len : Nat := 20

/-- An argument of `ngx_sprintf`. -/
inductive Arg where
  /-- `%V`: an `ngx_str_t`. -/
  | str (v : Bytes)
  /-- `%s`: a string up to its zero byte. -/
  | cstr (p : Bytes)
  /-- `%L`: an `int64_t`. -/
  | int64 (i64 : Int64)

/-- `ngx_sprintf_num`, in decimal and without a width. -/
def sprintfNum (ui64 : Nat) : Bytes := (Shm.formatDigits ngxInt64Len ui64).reverse

/-- `%L`: the sign, then the magnitude as a `uint64_t`. -/
def sprintfInt64 (i64 : Int64) : Bytes :=
  if i64 < 0 then 45 :: sprintfNum (-i64).toUInt64.toNat else sprintfNum i64.toUInt64.toNat

/-- `ngx_sprintf`, for the directives that the module uses. -/
def ngxSprintf : List Char → List Arg → Bytes
  | '%' :: 'V' :: fmt, .str v :: args => v ++ ngxSprintf fmt args
  | '%' :: 's' :: fmt, .cstr p :: args => p.takeWhile (· ≠ 0) ++ ngxSprintf fmt args
  | '%' :: 'L' :: fmt, .int64 i64 :: args => sprintfInt64 i64 ++ ngxSprintf fmt args
  | c :: fmt, args => c.toNat.toUInt8 :: ngxSprintf fmt args
  | [], _ => []

/-! ## The handler -/

section Handler

variable {S : SlabPool} (crc32 : Bytes → UInt32)

/-- What the first loop adds for one definition. -/
def lineSize (d : MetricDef) : Nat :=
  ("# TYPE ".length + d.name.length + " counter\n".length + d.name.length) + ngxInt64Len + 2

/-- The first loop. -/
def bufferSize (defs : List MetricDef) : Nat := (defs.map lineSize).sum

/-- What the handler asks the pool for. -/
def allocSize (defs : List MetricDef) : Nat := if bufferSize defs = 0 then 1 else bufferSize defs

/-- The word of the `TYPE` line. -/
def Kind.word : Kind → Bytes
  | .counter => ascii "counter"
  | .gauge => ascii "gauge"

/-- The two lines of one metric. -/
def metricLines (name : Bytes) (kind : Kind) (value : Int64) : Bytes :=
  ngxSprintf "# TYPE %V %s\n%V %L\n".toList [.str name, .cstr kind.word, .str name, .int64 value]

/-- The second loop from the index `i` on: whether it ends, and what it has written by then. -/
def writeMetrics (zone : Nat → Zone S) : Nat → List MetricDef → Bool × Bytes
  | _, [] => (true, [])
  | i, d :: defs =>
    match metricsGet crc32 d.name (zone i) with
    | (rc, some (kind, value)) =>
      if rc ≠ wasmOk then (false, [])
      else
        let rest := writeMetrics zone (i + 1) defs
        (rest.1, metricLines d.name kind value ++ rest.2)
    | (_, none) => (false, [])

/-- What the handler reads of `ngx_http_wasm_main_conf_t`. -/
structure MainConf (S : SlabPool) where
  metricsZone : Option (Nat → Zone S)
  metricDefinitions : Option (List MetricDef)

/-- What the calls into nginx give. -/
structure Calls where
  pnalloc : Nat → Bool
  sendHeader : Rc
  headerOnly : Bool
  callocBuf : Bool
  outputFilter : Rc

/-- What the handler leaves: the size it asks the pool for and the bytes it writes there, the header,
and the buffer it hands to the output filter. -/
structure Served where
  rc : Rc
  size : Nat := 0
  written : Bytes := []
  headersOut : Abi.HeadersOut
  body : Option Bytes := none

/-- `rc == NGX_ERROR || rc > NGX_OK`. -/
def headerEnds : Rc → Bool
  | .error => true
  | .http _ => true
  | _ => false

/-- `ngx_http_wasm_metrics_handler`. -/
def metricsHandler (calls : Calls) (h : Abi.HeadersOut) (wmcf : Option (MainConf S)) : Served :=
  match wmcf with
  | some ⟨some zone, some defs⟩ =>
    let size := allocSize defs
    if !calls.pnalloc size then { rc := .internal, size := size, headersOut := h }
    else
      let (ok, text) := writeMetrics crc32 zone 0 defs
      if !ok then { rc := .internal, size := size, written := text, headersOut := h }
      else
        let h := { h with
          status := 200
          contentLengthN := text.length
          contentType := ascii "text/plain; version=0.0.4" }
        if headerEnds calls.sendHeader || calls.headerOnly then
          { rc := calls.sendHeader, size := size, written := text, headersOut := h }
        else if !calls.callocBuf then
          { rc := .internal, size := size, written := text, headersOut := h }
        else
          { rc := calls.outputFilter, size := size, written := text, headersOut := h,
            body := some text }
  | _ => { rc := .internal, headersOut := h }

end Handler

/-! ## Decimal values -/

theorem toNat_neg_of_neg {i64 : Int64} (h : i64 < 0) :
    (-i64).toUInt64.toNat = i64.toInt.natAbs := by
  have hneg : i64.toInt < 0 := Int64.lt_iff_toInt_lt.mp h
  have hbits : i64.toInt = i64.toUInt64.toBitVec.toInt := rfl
  show (-i64.toUInt64.toBitVec).toNat = _
  rw [hbits, BitVec.toInt_eq_toNat_cond] at hneg
  rw [hbits, BitVec.toNat_neg, BitVec.toInt_eq_toNat_cond]
  generalize i64.toUInt64.toBitVec.toNat = n at *
  split at hneg <;> omega

theorem toNat_of_nonneg {i64 : Int64} (h : ¬ i64 < 0) : i64.toUInt64.toNat = i64.toInt.natAbs := by
  have hpos : 0 ≤ i64.toInt := toInt_nonneg h
  have hbits : i64.toInt = i64.toUInt64.toBitVec.toInt := rfl
  have hlt := i64.toUInt64.toBitVec.isLt
  show i64.toUInt64.toBitVec.toNat = _
  rw [hbits, BitVec.toInt_eq_toNat_cond] at hpos
  rw [hbits, BitVec.toInt_eq_toNat_cond]
  generalize i64.toUInt64.toBitVec.toNat = n at *
  split at hpos <;> omega

theorem sprintfNum_eq {n : Nat} (h : n < 2 ^ 64) : sprintfNum n = Shm.natText n := by
  unfold sprintfNum Shm.natText
  rw [Shm.formatDigits_eq (by unfold ngxInt64Len; omega) (by decide)]
  split <;> rfl

/-- **`%L` writes the canonical text of the value**, `INT64_MIN` included. -/
theorem sprintfInt64_eq (i64 : Int64) : sprintfInt64 i64 = Shm.intText i64.toInt := by
  unfold sprintfInt64 Shm.intText
  by_cases hneg : i64 < 0
  · have hneg' : i64.toInt < 0 := Int64.lt_iff_toInt_lt.mp hneg
    rw [if_pos hneg, if_pos hneg', sprintfNum_eq (UInt64.toNat_lt _), toNat_neg_of_neg hneg]
  · have hneg' : ¬ i64.toInt < 0 := Int.not_lt.mpr (toInt_nonneg hneg)
    rw [if_neg hneg, if_neg hneg', sprintfNum_eq (UInt64.toNat_lt _), toNat_of_nonneg hneg]

/-- Nineteen digits and a sign. -/
theorem length_sprintfInt64 (i64 : Int64) : (sprintfInt64 i64).length ≤ ngxInt64Len := by
  have hlo := i64.le_toInt
  have hhi := i64.toInt_lt
  have hnat : (Shm.natText i64.toInt.natAbs).length ≤ 19 := by
    unfold Shm.natText
    split
    · simp
    · rw [List.length_reverse, List.length_map]
      exact (Nat.digits_length_le_iff (by omega) _).mpr (by omega)
  rw [sprintfInt64_eq]
  unfold Shm.intText ngxInt64Len
  split
  · rw [List.length_cons]
    omega
  · omega

/-! ## Lines -/

/-- `# TYPE name kind`. -/
def typeLine (name : Bytes) (kind : Kind) : Bytes := ascii "# TYPE " ++ name ++ 32 :: kind.word ++ [10]

/-- `name value`. -/
def valueLine (name : Bytes) (value : Int64) : Bytes :=
  name ++ 32 :: Shm.intText value.toInt ++ [10]

/-- **The format string** gives the two lines. -/
theorem metricLines_eq (name : Bytes) (kind : Kind) (value : Int64) :
    metricLines name kind value = typeLine name kind ++ valueLine name value := by
  have hword : kind.word.takeWhile (· ≠ 0) = kind.word := by
    cases kind <;> decide
  have hfmt : metricLines name kind value = ascii "# TYPE " ++ (name ++ 32 ::
      (kind.word.takeWhile (· ≠ 0) ++ 10 :: (name ++ 32 :: (sprintfInt64 value ++ [10])))) := rfl
  rw [hfmt, hword, sprintfInt64_eq]
  unfold typeLine valueLine
  simp only [List.append_assoc, List.cons_append, List.nil_append]

/-- The room that the first loop makes for one definition. -/
theorem lineSize_eq (d : MetricDef) : lineSize d = 2 * d.name.length + 38 := by
  show 7 + d.name.length + 9 + d.name.length + 20 + 2 = _
  omega

theorem bufferSize_cons (d : MetricDef) (defs : List MetricDef) :
    bufferSize (d :: defs) = lineSize d + bufferSize defs := rfl

/-- The two lines of a metric fit the room that the first loop makes for it, whatever its kind and
value. -/
theorem length_metricLines (d : MetricDef) (kind : Kind) (value : Int64) :
    (metricLines d.name kind value).length ≤ lineSize d := by
  have hvalue := length_sprintfInt64 value
  have hword : kind.word.length ≤ 7 := by
    cases kind <;> decide
  have htype : (ascii "# TYPE ").length = 7 := by decide
  rw [metricLines_eq, lineSize_eq]
  unfold typeLine valueLine
  rw [sprintfInt64_eq] at hvalue
  unfold ngxInt64Len at hvalue
  simp only [List.length_append, List.length_cons, List.length_nil, htype]
  omega

/-- A text cut after each line feed. -/
def lines : Bytes → List Bytes
  | [] => []
  | c :: rest =>
    if c = 10 then [c] :: lines rest
    else
      match lines rest with
      | [] => [[c]]
      | line :: more => (c :: line) :: more

theorem lines_append {line : Bytes} (h : 10 ∉ line) (rest : Bytes) :
    lines (line ++ 10 :: rest) = (line ++ [10]) :: lines rest := by
  induction line with
  | nil => rfl
  | cons c line ih =>
    have hc : c ≠ 10 := fun hc => h (hc ▸ List.mem_cons_self)
    rw [List.cons_append, lines, if_neg hc, ih fun hm => h (List.mem_cons_of_mem _ hm)]
    rfl

theorem count_le_length_lines (text : Bytes) : text.count 10 ≤ (lines text).length := by
  induction text with
  | nil => exact le_rfl
  | cons c rest ih =>
    unfold lines
    by_cases hc : c = 10
    · rw [if_pos hc, hc, List.count_cons_self, List.length_cons]
      omega
    · rw [if_neg hc, List.count_cons_of_ne hc]
      cases hl : lines rest with
      | nil =>
        rw [hl] at ih
        exact ih.trans (Nat.zero_le _)
      | cons line more =>
        rw [hl] at ih
        exact ih

/-- What was found for one definition. -/
structure Sample where
  name : Bytes
  kind : Kind
  value : Int64

/-- The lines of a metric. -/
def Sample.lines (s : Sample) : List Bytes := [typeLine s.name s.kind, valueLine s.name s.value]

/-- The text of a metric. -/
def Sample.text (s : Sample) : Bytes := s.lines.flatten

theorem Sample.text_eq (s : Sample) : s.text = typeLine s.name s.kind ++ valueLine s.name s.value := by
  unfold Sample.text Sample.lines
  rw [List.flatten_cons, List.flatten_cons, List.flatten_nil, List.append_nil]

theorem lf_not_mem_intText (v : Int) : 10 ∉ Shm.intText v := by
  have hdigit : ¬ Shm.IsDigit 10 := by decide
  have hspells := Shm.spells_intText v
  generalize Shm.intText v = text at hspells ⊢
  intro hm
  cases hspells with
  | plain h => exact hdigit (h.digits 10 hm)
  | minus h =>
    rcases List.mem_cons.mp hm with hminus | hm
    · exact absurd hminus (by decide)
    · exact hdigit (h.digits 10 hm)

/-- A name without a line feed gives two lines. -/
theorem lines_text {s : Sample} (h : 10 ∉ s.name) (rest : Bytes) :
    lines (s.text ++ rest) = s.lines ++ lines rest := by
  have htype : 10 ∉ ascii "# TYPE " ++ s.name ++ 32 :: s.kind.word := by
    have hhead : 10 ∉ ascii "# TYPE " := by decide
    have hword : 10 ∉ s.kind.word := by
      cases s.kind <;> decide
    simp only [List.mem_append, List.mem_cons, not_or]
    exact ⟨⟨hhead, h⟩, by decide, hword⟩
  have hvalue : 10 ∉ s.name ++ 32 :: Shm.intText s.value.toInt := by
    simp only [List.mem_append, List.mem_cons, not_or]
    exact ⟨h, by decide, lf_not_mem_intText _⟩
  have htext : s.text ++ rest = (ascii "# TYPE " ++ s.name ++ 32 :: s.kind.word) ++ 10 ::
      ((s.name ++ 32 :: Shm.intText s.value.toInt) ++ 10 :: rest) := by
    rw [Sample.text_eq]
    unfold typeLine valueLine
    simp only [List.append_assoc, List.cons_append, List.nil_append]
  rw [htext, lines_append htype, lines_append hvalue]
  rfl

theorem count_text (s : Sample) : 2 + 2 * s.name.count 10 ≤ s.text.count 10 := by
  rw [Sample.text_eq]
  unfold typeLine valueLine
  simp only [List.count_append, List.count_cons_self, List.count_nil]
  omega

/-- Each metric has two line feeds at least. -/
theorem count_flatMap_text (samples : List Sample) :
    2 * samples.length ≤ (samples.flatMap Sample.text).count 10 := by
  induction samples with
  | nil => exact le_rfl
  | cons s samples ih =>
    have := count_text s
    rw [List.flatMap_cons, List.count_append, List.length_cons]
    omega

theorem length_flatMap_lines (samples : List Sample) :
    (samples.flatMap Sample.lines).length = 2 * samples.length := by
  induction samples with
  | nil => rfl
  | cons s samples ih =>
    rw [List.flatMap_cons, List.length_append, ih, List.length_cons]
    show 2 + _ = _
    omega

/-- **Two lines for each metric**, exactly when no name has a line feed. -/
theorem lines_flatMap_text_iff (samples : List Sample) :
    lines (samples.flatMap Sample.text) = samples.flatMap Sample.lines ↔
      ∀ s ∈ samples, 10 ∉ s.name := by
  constructor
  · intro hl
    have hcount : (samples.flatMap Sample.text).count 10 ≤ 2 * samples.length := by
      rw [← length_flatMap_lines, ← hl]
      exact count_le_length_lines _
    clear hl
    -- two line feeds of each metric are its own, so none has room for a third
    intro s hs hm
    obtain ⟨l₁, l₂, rfl⟩ := List.append_of_mem hs
    have hname : 0 < s.name.count 10 := List.count_pos_iff.mpr hm
    have hself := count_text s
    have h₁ := count_flatMap_text l₁
    have h₂ := count_flatMap_text l₂
    rw [List.flatMap_append, List.flatMap_cons, List.count_append, List.count_append,
      List.length_append, List.length_cons] at hcount
    omega
  · intro h
    induction samples with
    | nil => rfl
    | cons s samples ih =>
      rw [List.flatMap_cons, List.flatMap_cons, lines_text (h s List.mem_cons_self),
        ih fun x hx => h x (List.mem_cons_of_mem _ hx)]

/-! ## What is written -/

section Written

variable {S : SlabPool} {crc32 : Bytes → UInt32} {zone : Nat → Zone S}

theorem length_writeMetrics (defs : List MetricDef) (i : Nat) :
    (writeMetrics crc32 zone i defs).2.length ≤ bufferSize defs := by
  induction defs generalizing i with
  | nil => exact Nat.zero_le _
  | cons d defs ih =>
    rw [bufferSize_cons]
    unfold writeMetrics
    split
    · split
      · exact Nat.zero_le _
      · have hline := length_metricLines d
        dsimp only
        rw [List.length_append]
        exact Nat.add_le_add (hline _ _) (ih (i + 1))
    · exact Nat.zero_le _

/-- **The text fits the buffer**, whatever the zones hold and wherever the handler stops. -/
theorem written_le_size (calls : Calls) (h : Abi.HeadersOut) (wmcf : Option (MainConf S)) :
    (metricsHandler crc32 calls h wmcf).written.length ≤ (metricsHandler crc32 calls h wmcf).size := by
  unfold metricsHandler
  split
  · rename_i zone defs
    have hfit : (writeMetrics crc32 zone 0 defs).2.length ≤ bufferSize defs :=
      length_writeMetrics defs 0
    have hsize : bufferSize defs ≤ allocSize defs := by
      unfold allocSize
      split <;> omega
    have hle := hfit.trans hsize
    dsimp only
    generalize writeMetrics crc32 zone 0 defs = w at hle ⊢
    split
    · exact Nat.zero_le _
    · split
      · exact hle
      · split
        · exact hle
        · split <;> exact hle
  · exact le_rfl

/-- The sum of the first loop does not wrap: an array of `2 ^ 54` definitions is larger than any
address space. -/
theorem bufferSize_lt {defs : List MetricDef} (hname : ∀ d ∈ defs, nameValid d.name = true)
    (hlen : defs.length < 2 ^ 54) : bufferSize defs < 2 ^ 64 := by
  have hsum : bufferSize defs ≤ 1024 * defs.length := by
    clear hlen
    induction defs with
    | nil => exact Nat.zero_le _
    | cons d defs ih =>
      have hd : d.name.length ≤ 256 := by
        have := hname d List.mem_cons_self
        unfold nameValid maxNameLen at this
        simp only [Bool.and_eq_true, decide_eq_true_eq] at this
        exact this.2
      have := ih fun x hx => hname x (List.mem_cons_of_mem _ hx)
      rw [bufferSize_cons, lineSize_eq, List.length_cons]
      omega
  omega

/-- What the readings find from the index `i` on, definition by definition. -/
inductive Stored (crc32 : Bytes → UInt32) (zone : Nat → Zone S) :
    Nat → List MetricDef → List Sample → Prop
  | nil {i : Nat} : Stored crc32 zone i [] []
  | cons {i : Nat} {d : MetricDef} {kind : Kind} {value : Int64} {defs : List MetricDef}
      {samples : List Sample} (valid : nameValid d.name = true)
      (found : (zone i).map crc32 d.name = some (kind, value))
      (rest : Stored crc32 zone (i + 1) defs samples) :
      Stored crc32 zone i (d :: defs) (⟨d.name, kind, value⟩ :: samples)

theorem metricsGet_found {z : Zone S} {name : Bytes} {kv : Kind × Int64}
    (hv : nameValid name = true) (hm : z.map crc32 name = some kv) :
    metricsGet crc32 name z = (wasmOk, some kv) := by
  obtain ⟨a, ha, rfl⟩ := Option.map_eq_some_iff.mp hm
  unfold metricsGet
  rw [hv, ha]
  rfl

theorem Stored.writeMetrics {i : Nat} {defs : List MetricDef} {samples : List Sample}
    (h : Stored crc32 zone i defs samples) :
    writeMetrics crc32 zone i defs = (true, samples.flatMap Sample.text) := by
  induction h with
  | nil => rfl
  | @cons i d kind value defs samples valid found rest ih =>
    have htext : metricLines d.name kind value = Sample.text ⟨d.name, kind, value⟩ := by
      rw [metricLines_eq, Sample.text_eq]
    unfold Metrics.writeMetrics
    rw [metricsGet_found valid found]
    dsimp only
    rw [ih, if_neg (by decide), htext]
    rfl

/-- The handler once its second loop has ended: it announces the text and hands it on, or stops before
that. -/
theorem metricsHandler_written {calls : Calls} {h : Abi.HeadersOut} {defs : List MetricDef}
    {text : Bytes} (hmem : calls.pnalloc (allocSize defs) = true)
    (hw : writeMetrics crc32 zone 0 defs = (true, text)) :
    let r := metricsHandler crc32 calls h (some ⟨some zone, some defs⟩)
    r.size = allocSize defs ∧ r.written = text ∧ r.headersOut.status = 200 ∧
      r.headersOut.contentLengthN = text.length ∧ (r.body = none ∨ r.body = some text) := by
  unfold metricsHandler
  dsimp only
  rw [hmem, hw]
  simp only [Bool.not_true, Bool.false_eq_true, if_false]
  split
  · exact ⟨rfl, rfl, rfl, rfl, .inl rfl⟩
  · split
    · exact ⟨rfl, rfl, rfl, rfl, .inl rfl⟩
    · exact ⟨rfl, rfl, rfl, rfl, .inr rfl⟩

end Written

/-- **The text of the endpoint.** For every list of definitions, and whatever kinds and values its
readings find: the text is, in order, the `TYPE` line and the value line of each definition with the kind
and the decimal value that are stored, it fits the buffer, and it is what the header announces and the
output filter gets. Cut at its line feeds it has exactly these lines if and only if no name holds a line
feed. -/
theorem metrics_endpoint_text (S : SlabPool) (crc32 : Bytes → UInt32) (calls : Calls)
    (h : Abi.HeadersOut) (zone : Nat → Zone S) (defs : List MetricDef) (samples : List Sample)
    (hs : Stored crc32 zone 0 defs samples) (hmem : calls.pnalloc (allocSize defs) = true) :
    let r := metricsHandler crc32 calls h (some ⟨some zone, some defs⟩)
    r.written.length ≤ r.size ∧
      r.written = samples.flatMap (fun s => typeLine s.name s.kind ++ valueLine s.name s.value) ∧
      r.headersOut.status = 200 ∧ r.headersOut.contentLengthN = r.written.length ∧
      (r.body = none ∨ r.body = some r.written) ∧
      (lines r.written = samples.flatMap (fun s =>
          [typeLine s.name s.kind, valueLine s.name s.value]) ↔ ∀ s ∈ samples, 10 ∉ s.name) := by
  intro r
  obtain ⟨-, hwritten, hstatus, hlength, hbody⟩ :=
    metricsHandler_written (h := h) hmem hs.writeMetrics
  have htext : Sample.text = fun s => typeLine s.name s.kind ++ valueLine s.name s.value := by
    funext s
    exact s.text_eq
  have hr : r.written = samples.flatMap Sample.text := hwritten
  refine ⟨written_le_size calls h _, htext ▸ hr, hstatus, ?_, ?_, ?_⟩
  · rw [hr]
    exact hlength
  · rw [hr]
    exact hbody
  · rw [hr]
    exact lines_flatMap_text_iff samples

/-- A counter and a gauge that holds the longest value. -/
theorem metrics_endpoint_text_two :
    let z : Zone (.ofCapacity 2) := runFrom (opStep .unbalanced crc32Short)
      (emptyZone (fun _ => ⟨0, [], .counter, 0⟩) [])
      [.load [⟨[97], .counter⟩, ⟨[98], .gauge⟩], .gaugeSet [98] Int64.minValue]
    let r := metricsHandler crc32Short ⟨fun _ => true, .ok, false, true, .ok⟩ {}
      (some ⟨some fun _ => z, some [⟨[97], .counter⟩, ⟨[98], .gauge⟩]⟩)
    r.written.length ≤ r.size ∧
      r.written = ascii
        "# TYPE a counter\na 0\n# TYPE b gauge\nb -9223372036854775808\n" := by
  intro z r
  obtain ⟨hle, htext, -⟩ := metrics_endpoint_text (.ofCapacity 2) crc32Short
    ⟨fun _ => true, .ok, false, true, .ok⟩ {} (fun _ => z) [⟨[97], .counter⟩, ⟨[98], .gauge⟩]
    [⟨[97], .counter, 0⟩, ⟨[98], .gauge, Int64.minValue⟩]
    (.cons (by decide) (by decide +kernel) (.cons (by decide) (by decide +kernel) .nil)) rfl
  exact ⟨hle, htext.trans (by decide +kernel)⟩

/-- A name with a line feed is declared like any other, and the text of its metric has four lines. -/
theorem metrics_endpoint_text_line_feed :
    let name : Bytes := [97, 10, 98]
    let z : Zone (.ofCapacity 2) := runFrom (opStep .unbalanced crc32Short)
      (emptyZone (fun _ => ⟨0, [], .counter, 0⟩) []) [.load [⟨name, .counter⟩]]
    let r := metricsHandler crc32Short ⟨fun _ => true, .ok, false, true, .ok⟩ {}
      (some ⟨some fun _ => z, some [⟨name, .counter⟩]⟩)
    metricsDeclare [] name .counter = some [⟨name, .counter⟩] ∧
      z.map crc32Short name = some (.counter, 0) ∧
      lines r.written = [ascii "# TYPE a\n", ascii "b counter\n", ascii "a\n", ascii "b 0\n"] := by
  decide +kernel

/-- **The endpoint finds every metric of the running configuration**, in every history of
configurations that load and of calls, and with any calls of the workers between its readings. -/
theorem metrics_endpoint_serves (S : SlabPool) (rb : Rbtree) (crc32 : Bytes → UInt32)
    (mem : Addr → MetricNode) (pool : S.State) (events : List (Event S))
    (hload : Meets (Cycle.step rb crc32) (fun c e => c.loadRc rb crc32 e = .ok)
      (Cycle.start mem pool) events) (between : Nat → List Op) :
    let c := runFrom (Cycle.step rb crc32) (Cycle.start mem pool) events
    let zone := fun i => runFrom (opStep rb crc32) c.zone (between i)
    ∃ samples, Stored crc32 zone 0 c.current samples ∧
      samples.map (fun s => MetricDef.mk s.name s.kind) = c.current := by
  intro c zone
  have hc : c.Inv crc32 := Cycle.Inv.run hload
  have hread : ∀ d ∈ c.current, ∀ i, nameValid d.name = true ∧
      ∃ value, (zone i).map crc32 d.name = some (d.kind, value) := by
    intro d hd i
    have hkind : ((zone i).map crc32).kind d.name = some d.kind :=
      runFrom_kind hc.zone ((hc.kinds d).mpr (.inl hd)) (between i)
    obtain ⟨⟨kind, value⟩, hm, rfl⟩ := Option.map_eq_some_iff.mp hkind
    exact ⟨hc.valid d (.inl hd), value, hm⟩
  generalize c.current = defs at hread ⊢
  suffices h : ∀ i, ∃ samples, Stored crc32 zone i defs samples ∧
      samples.map (fun s => MetricDef.mk s.name s.kind) = defs from h 0
  induction defs with
  | nil => exact fun i => ⟨[], .nil, rfl⟩
  | cons d defs ih =>
    intro i
    obtain ⟨hvalid, value, hm⟩ := hread d List.mem_cons_self i
    obtain ⟨samples, hstored, hdefs⟩ := ih (fun x hx => hread x (List.mem_cons_of_mem _ hx)) (i + 1)
    exact ⟨⟨d.name, d.kind, value⟩ :: samples, .cons hvalid hm hstored, congrArg (d :: ·) hdefs⟩

end NgxWasm.Metrics
