import NgxWasm.Metrics.Endpoint

/-!
# The endpoint read back

`scrape` reads a text of the exposition format: it cuts the text at its line feeds, takes the lines in
pairs, and cuts each line at its last blank. It is written from the format alone, and knows nothing of
the definitions.

* `readInt64_intText`: every 64-bit value is read back from its decimal text.
* `scrape_text`: a text of samples whose names hold no line feed is read back to these samples. A blank
  in a name does no harm.
* `scrape_endpoint`: in every history of configurations that load and of calls, what the endpoint writes
  is read back to the metrics of the running configuration, each with its kind and with the value it had
  when it was read, if there is memory for the text and no name has a line feed.

A name with a line feed is declared like any other, and its text has four lines
(`metrics_endpoint_text_line_feed`).
-/

namespace NgxWasm.Metrics

open Lib
open Abi (ascii)

/-! ## The reader -/

/-- A text cut at its last blank. -/
def splitLast : Bytes → Option (Bytes × Bytes)
  | [] => none
  | c :: rest =>
    match splitLast rest with
    | some (before, after) => some (c :: before, after)
    | none => if c = 32 then some ([], rest) else none

/-- A line without its line feed. -/
def chomp (line : Bytes) : Option Bytes :=
  if line.getLast? = some 10 then some line.dropLast else none

/-- The kind a word names. -/
def readKind (word : Bytes) : Option Kind :=
  if word = ascii "counter" then some .counter
  else if word = ascii "gauge" then some .gauge
  else none

/-- A decimal number of 64 signed bits. -/
def readInt64 (text : Bytes) : Option Int64 :=
  if text.head? = some 45 then
    (Shm.readNat 9223372036854775808 text.tail).map fun n : Nat => Int64.ofInt (-(n : Int))
  else (Shm.readNat 9223372036854775807 text).map fun n : Nat => Int64.ofInt n

/-- `# TYPE name kind`. -/
def readTypeLine (line : Bytes) : Option (Bytes × Kind) := do
  let line ← chomp line
  if line.take 7 = ascii "# TYPE " then
    let (name, word) ← splitLast (line.drop 7)
    let kind ← readKind word
    pure (name, kind)
  else none

/-- `name value`. -/
def readValueLine (line : Bytes) : Option (Bytes × Int64) := do
  let line ← chomp line
  let (name, text) ← splitLast line
  let value ← readInt64 text
  pure (name, value)

/-- The lines in pairs, both of the same metric. -/
def scrapeLines : List Bytes → Option (List Sample)
  | [] => some []
  | [_] => none
  | first :: second :: rest => do
    let (name, kind) ← readTypeLine first
    let (name', value) ← readValueLine second
    if name = name' then
      let samples ← scrapeLines rest
      pure (⟨name, kind, value⟩ :: samples)
    else none

/-- The samples of a text. -/
def scrape (text : Bytes) : Option (List Sample) := scrapeLines (lines text)

/-! ## Reading what was written -/

theorem splitLast_none {text : Bytes} (h : 32 ∉ text) : splitLast text = none := by
  induction text with
  | nil => rfl
  | cons c rest ih =>
    have hc : c ≠ 32 := fun hc => h (hc ▸ List.mem_cons_self)
    rw [splitLast, ih fun hm => h (List.mem_cons_of_mem _ hm)]
    exact if_neg hc

/-- The last blank is the one before a text without blanks. -/
theorem splitLast_append (before : Bytes) {after : Bytes} (h : 32 ∉ after) :
    splitLast (before ++ 32 :: after) = some (before, after) := by
  induction before with
  | nil =>
    rw [List.nil_append, splitLast, splitLast_none h]
    exact if_pos rfl
  | cons c before ih => rw [List.cons_append, splitLast, ih]

theorem chomp_concat (line : Bytes) : chomp (line ++ [10]) = some line := by
  unfold chomp
  rw [List.getLast?_concat, if_pos rfl, List.dropLast_concat]

theorem readKind_word (kind : Kind) : readKind kind.word = some kind := by
  cases kind <;> decide

theorem blank_not_mem_intText (v : Int) : 32 ∉ Shm.intText v := by
  have hdigit : ¬ Shm.IsDigit 32 := by decide
  have hspells := Shm.spells_intText v
  generalize Shm.intText v = text at hspells ⊢
  intro hm
  cases hspells with
  | plain h => exact hdigit (h.digits 32 hm)
  | minus h =>
    rcases List.mem_cons.mp hm with hminus | hm
    · exact absurd hminus (by decide)
    · exact hdigit (h.digits 32 hm)

/-- **Every 64-bit value is read back from its decimal text.** -/
theorem readInt64_intText (v : Int64) : readInt64 (Shm.intText v.toInt) = some v := by
  have hlo := v.le_toInt
  have hhi := v.toInt_lt
  unfold readInt64 Shm.intText
  by_cases hneg : v.toInt < 0
  · have habs : -((v.toInt.natAbs : Nat) : Int) = v.toInt := by omega
    rw [if_pos hneg, if_pos List.head?_cons, List.tail_cons, Shm.readNat_natText (by omega),
      Option.map_some, habs, Int64.ofInt_toInt]
  · have habs : ((v.toInt.natAbs : Nat) : Int) = v.toInt := by omega
    rw [if_neg hneg, if_neg (Shm.head_natText _), Shm.readNat_natText (by omega), Option.map_some,
      habs, Int64.ofInt_toInt]

theorem readTypeLine_typeLine (name : Bytes) (kind : Kind) :
    readTypeLine (typeLine name kind) = some (name, kind) := by
  have hword : 32 ∉ kind.word := by
    cases kind <;> decide
  have hlen : (ascii "# TYPE ").length = 7 := by decide
  have htake : (ascii "# TYPE " ++ (name ++ 32 :: kind.word)).take 7 = ascii "# TYPE " :=
    List.take_left' hlen
  have hdrop : (ascii "# TYPE " ++ (name ++ 32 :: kind.word)).drop 7 = name ++ 32 :: kind.word :=
    List.drop_left' hlen
  unfold readTypeLine typeLine
  rw [chomp_concat, Option.bind_eq_bind, Option.bind_some, List.append_assoc, htake, hdrop,
    if_pos rfl, splitLast_append name hword]
  simp [readKind_word]

theorem readValueLine_valueLine (name : Bytes) (value : Int64) :
    readValueLine (valueLine name value) = some (name, value) := by
  unfold readValueLine valueLine
  rw [chomp_concat, Option.bind_eq_bind, Option.bind_some,
    splitLast_append name (blank_not_mem_intText _)]
  simp [readInt64_intText]

theorem scrapeLines_flatMap (samples : List Sample) :
    scrapeLines (samples.flatMap Sample.lines) = some samples := by
  induction samples with
  | nil => rfl
  | cons s samples ih =>
    have hcons : (s :: samples).flatMap Sample.lines =
        typeLine s.name s.kind :: valueLine s.name s.value :: samples.flatMap Sample.lines := rfl
    rw [hcons, scrapeLines, readTypeLine_typeLine, readValueLine_valueLine]
    simp [ih]

/-- **The round trip**: names without a line feed are read back, with their kinds and values. -/
theorem scrape_text {samples : List Sample} (h : ∀ s ∈ samples, 10 ∉ s.name) :
    scrape (samples.flatMap Sample.text) = some samples := by
  unfold scrape
  rw [(lines_flatMap_text_iff samples).mpr h, scrapeLines_flatMap]

/-- **The endpoint is read back**, in every history of configurations that load and of calls, and with
any calls of the workers between its readings: if there is memory for the text and no name of the
running configuration has a line feed, reading the text gives the metrics of that configuration, in
order, each with its kind and with the value that its reading found. -/
theorem scrape_endpoint (S : SlabPool) (rb : Rbtree) (crc32 : Bytes → UInt32)
    (mem : Addr → MetricNode) (pool : S.State) (events : List (Event S))
    (hload : Meets (Cycle.step rb crc32) (fun c e => c.loadRc rb crc32 e = .ok)
      (Cycle.start mem pool) events) (between : Nat → List Op) (calls : Calls) (h : Abi.HeadersOut) :
    let c := runFrom (Cycle.step rb crc32) (Cycle.start mem pool) events
    let zone := fun i => runFrom (opStep rb crc32) c.zone (between i)
    let r := metricsHandler crc32 calls h (some ⟨some zone, some c.current⟩)
    calls.pnalloc (allocSize c.current) = true → (∀ d ∈ c.current, 10 ∉ d.name) →
    ∃ samples, scrape r.written = some samples ∧
      samples.map (fun s => MetricDef.mk s.name s.kind) = c.current ∧
      Stored crc32 zone 0 c.current samples := by
  intro c zone r hmem hname
  obtain ⟨samples, hstored, hdefs⟩ :=
    metrics_endpoint_serves S rb crc32 mem pool events hload between
  obtain ⟨-, hwritten, -⟩ := metricsHandler_written (h := h) hmem hstored.writeMetrics
  have hnames : ∀ s ∈ samples, 10 ∉ s.name := by
    intro s hs
    have hd : MetricDef.mk s.name s.kind ∈ c.current := hdefs ▸ List.mem_map_of_mem hs
    exact hname _ hd
  have hr : r.written = samples.flatMap Sample.text := hwritten
  refine ⟨samples, ?_, hdefs, hstored⟩
  rw [hr, scrape_text hnames]

/-- A counter, and a gauge that a reload adds. The gauge falls below zero between the readings, and a
blank in its name does no harm. -/
def gaugeAdded : List (Event (.ofCapacity 2)) :=
  [.reload ⟨[⟨[99], .counter⟩], by decide, by decide⟩, .call (.counterInc [99] 7),
    .reload ⟨[⟨[99], .counter⟩, ⟨[98, 32], .gauge⟩], by decide, by decide⟩]

theorem scrape_endpoint_reload :
    let c := runFrom (Cycle.step .unbalanced crc32Short)
      (Cycle.start (fun _ => ⟨0, [], .counter, 0⟩) []) gaugeAdded
    let zone := fun i => runFrom (opStep .unbalanced crc32Short) c.zone
      (if i = 0 then [] else [.gaugeAdd [98, 32] (-3)])
    let r := metricsHandler crc32Short ⟨fun _ => true, .ok, false, true, .ok⟩ {}
      (some ⟨some zone, some c.current⟩)
    ∃ samples, scrape r.written = some samples ∧
      samples.map (fun s => MetricDef.mk s.name s.kind) = c.current ∧
      Stored crc32Short zone 0 c.current samples :=
  scrape_endpoint (.ofCapacity 2) .unbalanced crc32Short (fun _ => ⟨0, [], .counter, 0⟩) []
    gaugeAdded (by decide +kernel) (fun i => if i = 0 then [] else [.gaugeAdd [98, 32] (-3)])
    ⟨fun _ => true, .ok, false, true, .ok⟩ {} rfl (by decide +kernel)

end NgxWasm.Metrics
