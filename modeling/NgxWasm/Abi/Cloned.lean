import NgxWasm.Abi.Subrequest
import NgxWasm.Lib.Store

/-!
# The headers of a subrequest, in memory (`src/ngx_http_wasm_abi.c`)

nginx gives a subrequest a copy of the structure `headers_in`, whose list has the elements and the
strings of the request's own. A launch with staged headers makes a list of its own first. Whether the
request's headers are left alone is then a question of addresses, which the lists of `Abi.Ctx` do not
have. Here elements, parts and strings are in memory, with their addresses.

The lists are those of `Lib.Store`, with its rules for pushing onto a list and walking one; strings are
ranges of bytes. An allocation is always granted and takes what is above all that is in use, so `Keeps`
can say that nothing below a mark has changed. Loops go by `fuel` rounds at most, and the results say
how many are enough.

* `copyBytes_str`: a copy has the bytes it was made of.
* `cloneHeaders_building`, `setRuntimeHeaders_building`: each works on what is above a mark, and does to
  it what the model without addresses says.
* `Memory.Shows.keep`: what was in memory reads as before, where nothing of it has changed.
* `launchHeaders_spec`: the subrequest has the headers of the request with the staged ones applied, and
  nothing of what was in memory before has changed.

The two directions are proved apart. That nothing below the mark changes is `Keeps`, which every write
respects because it goes to an address above it; that the new list reads as it should is `Building`, one
header at a time. What a launch does where memory is refused is in `Abi.Subrequest`, over lists without
addresses.
-/

namespace NgxWasm.Abi

open Lib

/-! ## Memory -/

/-- `ngx_str_t`. -/
structure Str where
  data : Nat
  len : Nat

/-- `ngx_table_elt_t`, with pointers. -/
structure Elt where
  hash : UInt64 := 0
  key : Str := ⟨0, 0⟩
  value : Str := ⟨0, 0⟩
  lowcaseKey : Option Nat := none

/-- Memory: the parts and elements of lists, and bytes. -/
structure Memory where
  lists : Store Elt
  byte : Nat → UInt8
  usedBytes : Nat

namespace Memory

/-- The bytes of a string. -/
def str (m : Memory) (s : Str) : Bytes := (List.range s.len).map fun i => m.byte (s.data + i)

/-- The header at an address. -/
def header (m : Memory) (a : Nat) : TableElt where
  hash := (m.lists.elt a).hash
  key := m.str (m.lists.elt a).key
  value := m.str (m.lists.elt a).value
  lowcaseKey := match (m.lists.elt a).lowcaseKey with
    | none => []
    | some data => m.str ⟨data, (m.lists.elt a).key.len⟩

/-- `ngx_pnalloc` of the bytes `v`, and `ngx_memcpy`. -/
def copyBytes (v : Bytes) (m : Memory) : Str × Memory :=
  (⟨m.usedBytes, v.length⟩,
    { m with
      byte := fun x =>
        if m.usedBytes ≤ x ∧ x < m.usedBytes + v.length then v.getD (x - m.usedBytes) 0 else m.byte x
      usedBytes := m.usedBytes + v.length })

def modifyElt (c : Nat) (f : Elt → Elt) (m : Memory) : Memory :=
  { m with lists := m.lists.setElt c (f (m.lists.elt c)) }

/-- A copy of the bytes `v` goes into a field of the header at `c`. -/
def copyTo (c : Nat) (v : Bytes) (field : Str → Elt → Elt) (m : Memory) : Memory :=
  (m.copyBytes v).2.modifyElt c (field (m.copyBytes v).1)

end Memory

/-! The fields that are copied to. -/

def setKey (s : Str) (e : Elt) : Elt := { e with key := s }
def setValue (s : Str) (e : Elt) : Elt := { e with value := s }
def setLowcaseKey (s : Str) (e : Elt) : Elt := { e with lowcaseKey := some s.data }

def setHashed (hash : UInt64) (s : Str) (e : Elt) : Elt :=
  { e with lowcaseKey := some s.data, hash := hash }

/-! ## The launch -/

/-- `ngx_list_push`, and `ngx_memzero`. -/
def pushElt (t : ListHead × Memory) : ListHead × Nat × Memory :=
  let pushed := t.2.lists.push t.1
  (pushed.1, pushed.2.1, { t.2 with lists := pushed.2.2.setElt pushed.2.1 {} })

/-- The body of the loop of `ngx_http_wasm_abi_subrequest_clone_headers`, for the header at `a`. -/
def cloneElt (a : Nat) (t : ListHead × Memory) : ListHead × Memory :=
  let (l, c, m) := pushElt t
  let m := m.modifyElt c fun e => { e with hash := (m.lists.elt a).hash }
  let m := m.copyTo c (m.str (m.lists.elt a).key) setKey
  let m := m.copyTo c (m.str (m.lists.elt a).value) setValue
  match (m.lists.elt a).lowcaseKey with
  | none => (l, m)
  | some data => (l, m.copyTo c (m.str ⟨data, (m.lists.elt a).key.len⟩) setLowcaseKey)

/-- `ngx_http_wasm_abi_subrequest_clone_headers`, in at most `fuel` rounds. -/
def cloneHeaders (fuel : Nat) (src dst : ListHead) (m : Memory) : Option (ListHead × Memory) :=
  let list := m.lists.init 8 dst
  let step : Nat → ListHead × Memory → Empty ⊕ (ListHead × Memory) := fun a t => .inr (cloneElt a t)
  match Store.each (fun t => t.2.lists) step fuel src.first (list.1, { m with lists := list.2 }) with
  | some (.inr t) => some t
  | _ => none

/-- `ngx_http_wasm_abi_find_header`: the address of the header, in at most `fuel` rounds. -/
def findElt (fuel : Nat) (name : Bytes) (l : ListHead) (m : Memory) : Option (Option Nat) :=
  let step : Nat → Memory → Nat ⊕ Memory := fun a m =>
    if sameName (m.str (m.lists.elt a).key) name then .inl a else .inr m
  (Store.each Memory.lists step fuel l.first m).map fun
    | .inl a => some a
    | .inr _ => none

/-- `ngx_http_wasm_abi_subrequest_set_runtime_header`. -/
def setRuntimeHeader (fuel : Nat) (t : ListHead × Memory) (h : Str × Str) :
    Option (ListHead × Memory) :=
  match findElt fuel (t.2.str h.1) t.1 t.2 with
  | none => none
  | some (some c) => some (t.1, t.2.copyTo c (t.2.str h.2) setValue)
  | some none =>
    let (l, c, m) := pushElt t
    let m := m.copyTo c (m.str h.1) setKey
    let key := m.str (m.lists.elt c).key
    let m := m.copyTo c (key.map toLower) (setHashed (hashStrlow key))
    some (l, m.copyTo c (m.str h.2) setValue)

/-- The headers of a subrequest that nginx accepted: the request's own list, or one made for the
staged headers. -/
def launchHeaders (fuel : Nat) (parent : ListHead) (staged : List (Str × Str)) (m : Memory) :
    Option (ListHead × Memory) :=
  let shared := m.lists.share parent
  let m := { m with lists := shared.2 }
  if staged = [] then some (shared.1, m)
  else
    match cloneHeaders fuel parent shared.1 m with
    | none => none
    | some t => staged.foldlM (setRuntimeHeader fuel) t

/-! ## Strings and headers -/

variable {m m' m'' : Memory} {a c : Nat} {v : Bytes}

/-- The strings of a header lie below `n`. -/
structure Elt.Below (n : Nat) (e : Elt) : Prop where
  key : e.key.data + e.key.len ≤ n
  value : e.value.data + e.value.len ≤ n
  lowcaseKey : ∀ data ∈ e.lowcaseKey, data + e.key.len ≤ n

theorem Elt.Below.mono {n k : Nat} {e : Elt} (h : e.Below n) (hnk : n ≤ k) : e.Below k :=
  ⟨h.key.trans hnk, h.value.trans hnk, fun data hd => (h.lowcaseKey data hd).trans hnk⟩

namespace Memory

theorem length_str (m : Memory) (s : Str) : (m.str s).length = s.len := by
  rw [str, List.length_map, List.length_range]

theorem str_congr {s : Str} {n : Nat} (hs : s.data + s.len ≤ n) (h : ∀ x < n, m'.byte x = m.byte x) :
    m'.str s = m.str s := by
  refine List.map_congr_left fun i hi => h _ ?_
  have hlt := List.mem_range.mp hi
  omega

theorem header_congr (he : m'.lists.elt a = m.lists.elt a) (hb : (m.lists.elt a).Below m.usedBytes)
    (h : ∀ x < m.usedBytes, m'.byte x = m.byte x) : m'.header a = m.header a := by
  unfold header
  rw [he, str_congr hb.key h, str_congr hb.value h]
  cases hl : (m.lists.elt a).lowcaseKey with
  | none => rfl
  | some data =>
    dsimp only
    rw [str_congr (hb.lowcaseKey data hl) h]

theorem copyBytes_byte {x : Nat} (hx : x < m.usedBytes) : (m.copyBytes v).2.byte x = m.byte x :=
  if_neg fun hc => Nat.not_lt.mpr hc.1 hx

/-- A copy has the bytes it was made of. -/
theorem copyBytes_str (v : Bytes) (m : Memory) : (m.copyBytes v).2.str ⟨m.usedBytes, v.length⟩ = v := by
  refine List.ext_getElem ?_ fun i hi hv => ?_
  · exact length_str _ _
  · simp only [str, copyBytes, List.getElem_map, List.getElem_range]
    rw [if_pos ⟨Nat.le_add_right _ _, Nat.add_lt_add_left hv _⟩, Nat.add_sub_cancel_left,
      List.getD_eq_getElem?_getD, List.getElem?_eq_getElem hv, Option.getD_some]

theorem modifyElt_self (c : Nat) (f : Elt → Elt) (m : Memory) :
    (m.modifyElt c f).lists.elt c = f (m.lists.elt c) := Function.update_self ..

end Memory

/-- `m'` is `m` with changes to the header at `c`, and new strings. -/
structure Touches (c : Nat) (m m' : Memory) : Prop where
  part : m'.lists.part = m.lists.part
  usedParts : m'.lists.usedParts = m.lists.usedParts
  usedElts : m'.lists.usedElts = m.lists.usedElts
  elts : ∀ a, a ≠ c → m'.lists.elt a = m.lists.elt a
  bytes : ∀ x < m.usedBytes, m'.byte x = m.byte x
  used : m.usedBytes ≤ m'.usedBytes

theorem Touches.trans (h : Touches c m m') (h' : Touches c m' m'') : Touches c m m'' where
  part := h'.part.trans h.part
  usedParts := h'.usedParts.trans h.usedParts
  usedElts := h'.usedElts.trans h.usedElts
  elts a ha := (h'.elts a ha).trans (h.elts a ha)
  bytes x hx := (h'.bytes x (hx.trans_le h.used)).trans (h.bytes x hx)
  used := h.used.trans h'.used

theorem modifyElt_touches (c : Nat) (f : Elt → Elt) (m : Memory) : Touches c m (m.modifyElt c f) :=
  ⟨rfl, rfl, rfl, fun _ ha => Function.update_of_ne ha _ _, fun _ _ => rfl, le_rfl⟩

theorem copyTo_touches (c : Nat) (v : Bytes) (f : Str → Elt → Elt) (m : Memory) :
    Touches c m (m.copyTo c v f) := by
  have hcopied : Touches c m (m.copyBytes v).2 :=
    ⟨rfl, rfl, rfl, fun _ _ => rfl, fun _ hx => Memory.copyBytes_byte hx, Nat.le_add_right _ _⟩
  exact hcopied.trans (modifyElt_touches c _ _)

theorem copyTo_self (c : Nat) (v : Bytes) (f : Str → Elt → Elt) (m : Memory) :
    (m.copyTo c v f).lists.elt c = f ⟨m.usedBytes, v.length⟩ (m.lists.elt c) :=
  Memory.modifyElt_self ..

/-- A header whose strings are in memory, as it is seen. -/
def Reads (m : Memory) (c : Nat) (h : TableElt) : Prop :=
  (m.lists.elt c).Below m.usedBytes ∧ m.header c = h

theorem copyTo_str (c : Nat) (v : Bytes) (f : Str → Elt → Elt) (m : Memory) :
    (m.copyTo c v f).str ⟨m.usedBytes, v.length⟩ = v := Memory.copyBytes_str v m

theorem Reads.setKey {h : TableElt} (hr : Reads m c h) (hl : (m.lists.elt c).lowcaseKey = none)
    (v : Bytes) : Reads (m.copyTo c v setKey) c { h with key := v, lowcaseKey := [] } := by
  obtain ⟨hb, rfl⟩ := hr
  have ht := copyTo_touches c v Abi.setKey m
  have hvalue : (m.copyTo c v Abi.setKey).str (m.lists.elt c).value = m.str (m.lists.elt c).value :=
    Memory.str_congr hb.value ht.bytes
  refine ⟨?_, ?_⟩
  · rw [copyTo_self]
    refine ⟨le_rfl, hb.value.trans ht.used, fun data hd => ?_⟩
    have hnone : data ∈ (m.lists.elt c).lowcaseKey := hd
    rw [hl] at hnone
    cases hnone
  · unfold Memory.header
    rw [copyTo_self]
    simp only [Abi.setKey, hl, hvalue, copyTo_str]

theorem Reads.setValue {h : TableElt} (hr : Reads m c h) (v : Bytes) :
    Reads (m.copyTo c v setValue) c { h with value := v } := by
  obtain ⟨hb, rfl⟩ := hr
  have ht := copyTo_touches c v Abi.setValue m
  refine ⟨?_, ?_⟩
  · rw [copyTo_self]
    exact ⟨hb.key.trans ht.used, le_rfl, fun data hd => (hb.lowcaseKey data hd).trans ht.used⟩
  · unfold Memory.header
    rw [copyTo_self]
    simp only [Abi.setValue, copyTo_str, Memory.str_congr hb.key ht.bytes]
    cases hl : (m.lists.elt c).lowcaseKey with
    | none => rfl
    | some data =>
      dsimp only
      rw [Memory.str_congr (hb.lowcaseKey data hl) ht.bytes]

/-- The lowcase key, with a hash. -/
theorem Reads.setLowcaseKey {h : TableElt} (hr : Reads m c h) (f : Str → Elt → Elt) {k : UInt64}
    (hlen : v.length = h.key.length)
    (hf : ∀ s, f s (m.lists.elt c) = { m.lists.elt c with lowcaseKey := some s.data, hash := k }) :
    Reads (m.copyTo c v f) c { h with hash := k, lowcaseKey := v } := by
  obtain ⟨hb, rfl⟩ := hr
  have ht := copyTo_touches c v f m
  have hkey : (m.lists.elt c).key.len = v.length := by
    rw [hlen]
    exact (Memory.length_str _ _).symm
  refine ⟨?_, ?_⟩
  · rw [copyTo_self, hf]
    refine ⟨hb.key.trans ht.used, hb.value.trans ht.used, fun data hd => ?_⟩
    obtain rfl := Option.some.inj hd
    dsimp only
    rw [hkey]
    exact le_rfl
  · unfold Memory.header
    rw [copyTo_self, hf]
    simp only [Memory.str_congr hb.key ht.bytes, Memory.str_congr hb.value ht.bytes, hkey, copyTo_str]

/-! ## Above a mark -/

/-- Nothing of what was in memory has changed. -/
structure Memory.Keeps (base m : Memory) : Prop where
  lists : base.lists.Keeps base.lists.usedParts base.lists.usedElts m.lists
  bytes : ∀ x < base.usedBytes, m.byte x = base.byte x
  used : base.usedBytes ≤ m.usedBytes

variable {base : Memory} {t : ListHead × Memory} {hs : List TableElt}

theorem Memory.Keeps.touch (h : base.Keeps m) (hc : base.lists.usedElts ≤ c) (ht : Touches c m m') :
    base.Keeps m' where
  lists := h.lists.trans ⟨fun p _ => congrFun ht.part p,
    fun a ha => ht.elts a (Nat.ne_of_lt (ha.trans_le hc)), ht.usedParts.ge, ht.usedElts.ge⟩
  bytes x hx := (ht.bytes x (hx.trans_le h.used)).trans (h.bytes x hx)
  used := h.used.trans ht.used

theorem Memory.Keeps.str (h : base.Keeps m) {s : Str} (hs : s.data + s.len ≤ base.usedBytes) :
    m.str s = base.str s := Memory.str_congr hs h.bytes

/-- The list of a subrequest: all of it is above the mark, and it reads as `hs`. -/
structure Building (base : Memory) (t : ListHead × Memory) (hs : List TableElt) (ps : List Nat) :
    Prop where
  keeps : base.Keeps t.2
  owned : t.2.lists.Owned base.lists.usedParts base.lists.usedElts t.1 ps
  below : ∀ a ∈ t.2.lists.addrs ps t.1.last, (t.2.lists.elt a).Below t.2.usedBytes
  headers : (t.2.lists.addrs ps t.1.last).map t.2.header = hs

/-- A new header is there once its strings are. -/
theorem pushElt_building {ps : List Nat} (h : Building base t hs ps) :
    let c := (pushElt t).2.1
    base.lists.usedElts ≤ c ∧ base.Keeps (pushElt t).2.2 ∧ (pushElt t).2.2.lists.elt c = {} ∧
      ∀ m' g, Touches c (pushElt t).2.2 m' → Reads m' c g →
        ∃ ps', Building base ((pushElt t).1, m') (hs ++ [g]) ps' := by
  intro c
  obtain ⟨⟨ps', howned, haddrs⟩, hkeeps, helt⟩ := Store.push_owned h.owned h.keeps.lists.usedElts
  have hc : base.lists.usedElts ≤ c := (howned.elts c (by rw [haddrs]; simp [c, pushElt])).1
  have hself : (pushElt t).2.2.lists.elt c = {} := Function.update_self ..
  have hold : ∀ a, a ≠ c → (pushElt t).2.2.lists.elt a = t.2.lists.elt a := fun a ha =>
    (Function.update_of_ne ha _ _).trans (congrFun helt a)
  have hk : base.Keeps (pushElt t).2.2 :=
    ⟨(h.keeps.lists.trans hkeeps).trans (.setElt _ hc _), h.keeps.bytes, h.keeps.used⟩
  refine ⟨hc, hk, hself, fun m' g ht hr => ?_⟩
  obtain ⟨howned', heq⟩ := howned.congr ht.part ht.usedParts ht.usedElts
  have haddrs' : m'.lists.addrs ps' (pushElt t).1.last = t.2.lists.addrs ps t.1.last ++ [c] :=
    heq.trans haddrs
  have hne : ∀ a ∈ t.2.lists.addrs ps t.1.last, a ≠ c := fun a ha hac => by
    have hnodup := howned'.distinct
    rw [heq, haddrs] at hnodup
    exact (List.nodup_append.mp hnodup).2.2 a ha c List.mem_cons_self hac
  refine ⟨ps', hk.touch hc ht, howned', ?_, ?_⟩
  · dsimp only
    rw [haddrs']
    intro a ha
    rcases List.mem_append.mp ha with ha | ha
    · rw [ht.elts a (hne a ha), hold a (hne a ha)]
      exact (h.below a ha).mono ht.used
    · obtain rfl := List.mem_singleton.mp ha
      exact hr.1
  · dsimp only
    rw [haddrs', List.map_append, ← h.headers]
    refine congrArg₂ (· ++ ·) (List.map_congr_left fun a ha => ?_) (congrArg (fun g => [g]) hr.2)
    exact Memory.header_congr ((ht.elts a (hne a ha)).trans (hold a (hne a ha))) (h.below a ha) ht.bytes

/-- What `ngx_memzero` leaves. -/
theorem reads_zero (h : m.lists.elt c = {}) : Reads m c {} := by
  unfold Reads Memory.header
  rw [h]
  refine ⟨⟨Nat.zero_le _, Nat.zero_le _, fun _ hd => ?_⟩, rfl⟩
  cases hd

/-- Another hash. -/
theorem Reads.setHash {h : TableElt} (hr : Reads m c h) (k : UInt64) :
    Reads (m.modifyElt c fun e => { e with hash := k }) c { h with hash := k } := by
  obtain ⟨hb, rfl⟩ := hr
  unfold Reads Memory.header
  rw [Memory.modifyElt_self]
  exact ⟨⟨hb.key, hb.value, hb.lowcaseKey⟩, rfl⟩

/-- What the loop reads of the header at `a`, while it writes to another. -/
theorem Memory.Keeps.source (h : base.Keeps m) (ha : a < base.lists.usedElts)
    (hb : (base.lists.elt a).Below base.usedBytes) :
    m.lists.elt a = base.lists.elt a ∧ m.str (base.lists.elt a).key = (base.header a).key ∧
      m.str (base.lists.elt a).value = (base.header a).value ∧
      ∀ data ∈ (base.lists.elt a).lowcaseKey,
        m.str ⟨data, (base.lists.elt a).key.len⟩ = (base.header a).lowcaseKey := by
  refine ⟨h.lists.elts a ha, h.str hb.key, h.str hb.value, fun data hd => ?_⟩
  have hlow : (base.lists.elt a).lowcaseKey = some data := hd
  rw [h.str (hb.lowcaseKey data hd), Memory.header, hlow]

/-- **A header is cloned.** -/
theorem cloneElt_building {ps : List Nat} (h : Building base t hs ps) (ha : a < base.lists.usedElts)
    (hb : (base.lists.elt a).Below base.usedBytes) :
    ∃ ps', Building base (cloneElt a t) (hs ++ [base.header a]) ps' := by
  obtain ⟨hc, hk₀, hself, hdone⟩ := pushElt_building h
  unfold cloneElt
  generalize pushElt t = r at *
  obtain ⟨l, c, m₀⟩ := r
  dsimp only at hc hk₀ hself hdone ⊢
  -- the hash
  have hr₀ : Reads m₀ c {} := reads_zero hself
  rw [(hk₀.source ha hb).1]
  have ht₁ := modifyElt_touches c (fun e => { e with hash := (base.lists.elt a).hash }) m₀
  have hr₁ := hr₀.setHash (base.lists.elt a).hash
  have hl₁ :
      ((m₀.modifyElt c fun e => { e with hash := (base.lists.elt a).hash }).lists.elt c).lowcaseKey =
      none := by
    rw [Memory.modifyElt_self, hself]
  generalize m₀.modifyElt c (fun e => { e with hash := (base.lists.elt a).hash }) = m₁ at *
  -- the key
  have hk₁ := hk₀.touch hc ht₁
  rw [(hk₁.source ha hb).1, (hk₁.source ha hb).2.1]
  have ht₂ := ht₁.trans (copyTo_touches c (base.header a).key setKey m₁)
  have hr₂ := hr₁.setKey hl₁ (base.header a).key
  generalize m₁.copyTo c (base.header a).key setKey = m₂ at *
  -- the value
  have hk₂ := hk₀.touch hc ht₂
  rw [(hk₂.source ha hb).1, (hk₂.source ha hb).2.2.1]
  have ht₃ := ht₂.trans (copyTo_touches c (base.header a).value setValue m₂)
  have hr₃ := hr₂.setValue (base.header a).value
  generalize m₂.copyTo c (base.header a).value setValue = m₃ at *
  -- the lowcase key, if there is one
  have hk₃ := hk₀.touch hc ht₃
  rw [(hk₃.source ha hb).1]
  cases hlow : (base.lists.elt a).lowcaseKey with
  | none =>
    refine hdone m₃ _ ht₃ ?_
    have hnil : (base.header a).lowcaseKey = [] := by
      rw [Memory.header, hlow]
    have hsame : base.header a =
        ⟨(base.lists.elt a).hash, (base.header a).key, (base.header a).value, []⟩ := by
      rw [← hnil]
      rfl
    rw [hsame]
    exact hr₃
  | some data =>
    dsimp only
    rw [(hk₃.source ha hb).2.2.2 data hlow]
    refine hdone _ _ (ht₃.trans (copyTo_touches c _ setLowcaseKey m₃)) ?_
    have hhash : (m₃.lists.elt c).hash = (base.lists.elt a).hash := congrArg TableElt.hash hr₃.2
    have hkey : (base.header a).key.length = (base.lists.elt a).key.len := Memory.length_str _ _
    have hlen : (base.header a).lowcaseKey.length = (base.lists.elt a).key.len := by
      rw [Memory.header, hlow]
      exact Memory.length_str _ _
    refine hr₃.setLowcaseKey _ (hlen.trans hkey.symm) fun s => ?_
    rw [← hhash]
    rfl

/-! ## Staged headers -/

/-- A header is applied to a list: the first one of its name gets the value, or it goes to the end. -/
def applyHeader (hs : List TableElt) (h : Bytes × Bytes) : List TableElt :=
  match findHeader h.1 hs with
  | some i => hs.modify i fun g => { g with value := h.2 }
  | none => hs ++ [⟨hashStrlow h.1, h.1, h.2, h.1.map toLower⟩]

/-- The search over addresses is the search over headers. -/
theorem findElt_eq {l : ListHead} {ps : List Nat} (hchain : m.lists.Chained l.first l.last ps)
    (hheaders : (m.lists.addrs ps l.last).map m.header = hs) (name : Bytes) {fuel : Nat}
    (hfuel : hs.length < fuel) :
    findElt fuel name l m =
      some ((findHeader name hs).bind fun i => (m.lists.addrs ps l.last)[i]?) := by
  subst hheaders
  rw [List.length_map] at hfuel
  unfold findElt
  dsimp only
  rw [Store.each_eq Memory.lists _ (· = m) hchain (fun t ht p _ => by rw [ht]) ?_ hfuel rfl, Store.eachOf_find,
    List.find?_eq_bind_findIdx?_getElem?, findHeader, List.findIdx?_map]
  · rw [Option.map_some]
    refine congrArg some ?_
    have hsame : (fun a => sameName (m.str (m.lists.elt a).key) name) =
        (fun g : TableElt => sameName g.key name) ∘ m.header := rfl
    rw [hsame]
    cases List.findIdx? ((fun g : TableElt => sameName g.key name) ∘ m.header)
        (m.lists.addrs ps l.last) with
    | none => rfl
    | some i =>
      rw [Option.bind_some]
      cases (m.lists.addrs ps l.last)[i]? <;> rfl
  · rintro a - t t' rfl hstep
    split at hstep
    · cases hstep
    · cases hstep
      rfl

/-- A change at one address of a list is one at its place. -/
theorem map_eq_modify {as : List Nat} {f f' : Nat → TableElt} {g : TableElt → TableElt} {i : Nat}
    (hi : as[i]? = some c) (hn : as.Nodup) (hc : f' c = g (f c))
    (hother : ∀ a ∈ as, a ≠ c → f' a = f a) : as.map f' = (as.map f).modify i g := by
  induction as generalizing i with
  | nil => cases hi
  | cons a as ih =>
    obtain ⟨hnotin, hn⟩ := List.nodup_cons.mp hn
    rw [List.map_cons, List.map_cons]
    cases i with
    | zero =>
      obtain rfl := Option.some.inj hi
      rw [List.modify_zero_cons, hc]
      refine congrArg _ (List.map_congr_left fun b hb => hother b (List.mem_cons_of_mem _ hb) ?_)
      exact fun hba => hnotin (hba ▸ hb)
    | succ i =>
      have hac : a ≠ c := fun hac => hnotin (hac ▸ List.mem_of_getElem? hi)
      rw [List.modify_succ_cons, hother a List.mem_cons_self hac]
      exact congrArg _ (ih hi hn fun b hb => hother b (List.mem_cons_of_mem _ hb))

/-- A header that is there gets a value. -/
theorem Building.setValue {ps : List Nat} (h : Building base t hs ps) {i : Nat}
    (hi : (t.2.lists.addrs ps t.1.last)[i]? = some c) (v : Bytes) :
    Building base (t.1, t.2.copyTo c v Abi.setValue) (hs.modify i fun g => { g with value := v }) ps := by
  have hmem := List.mem_of_getElem? hi
  have ht := copyTo_touches c v Abi.setValue t.2
  obtain ⟨howned, haddrs⟩ := h.owned.congr ht.part ht.usedParts ht.usedElts
  have hreads : Reads t.2 c (t.2.header c) := ⟨h.below c hmem, rfl⟩
  refine ⟨h.keeps.touch (h.owned.elts c hmem).1 ht, howned, ?_, ?_⟩
  · dsimp only
    rw [haddrs]
    intro a ha
    by_cases hac : a = c
    · exact hac ▸ (hreads.setValue v).1
    · rw [ht.elts a hac]
      exact (h.below a ha).mono ht.used
  · dsimp only
    rw [haddrs, ← h.headers]
    refine map_eq_modify hi h.owned.distinct (hreads.setValue v).2 fun a ha hac => ?_
    exact Memory.header_congr (ht.elts a hac) (h.below a ha) ht.bytes

/-- **A header is set**, as in the model without addresses. -/
theorem setRuntimeHeader_building {ps : List Nat} (h : Building base t hs ps) {name value : Str}
    (hname : name.data + name.len ≤ base.usedBytes) (hvalue : value.data + value.len ≤ base.usedBytes)
    {fuel : Nat} (hfuel : hs.length < fuel) :
    ∃ t' ps', setRuntimeHeader fuel t (name, value) = some t' ∧
      Building base t' (applyHeader hs (base.str name, base.str value)) ps' := by
  unfold setRuntimeHeader applyHeader
  dsimp only
  rw [h.keeps.str hname, h.keeps.str hvalue,
    findElt_eq h.owned.toChained h.headers (base.str name) hfuel]
  cases hfind : findHeader (base.str name) hs with
  | some i =>
    have hlt : i < (t.2.lists.addrs ps t.1.last).length := by
      rw [← List.length_map, h.headers]
      exact (List.findIdx?_eq_some_iff_getElem.mp hfind).1
    have hi := List.getElem?_eq_getElem hlt
    rw [Option.bind_some, hi]
    exact ⟨_, ps, rfl, h.setValue hi _⟩
  | none =>
    obtain ⟨hc, hk₀, hself, hdone⟩ := pushElt_building h
    rw [Option.bind_none]
    dsimp only
    generalize pushElt t = r at *
    obtain ⟨l, c, m₀⟩ := r
    dsimp only at hc hk₀ hself hdone ⊢
    -- the key
    rw [hk₀.str hname]
    have ht₁ := copyTo_touches c (base.str name) setKey m₀
    have hr₁ := (reads_zero hself).setKey (by rw [hself]) (base.str name)
    generalize m₀.copyTo c (base.str name) setKey = m₁ at *
    -- the lowcase key, and the hash
    have hkey : m₁.str (m₁.lists.elt c).key = base.str name := congrArg TableElt.key hr₁.2
    rw [hkey]
    have ht₂ := ht₁.trans
      (copyTo_touches c ((base.str name).map toLower) (setHashed (hashStrlow (base.str name))) m₁)
    have hr₂ : Reads _ c ⟨hashStrlow (base.str name), base.str name, [], (base.str name).map toLower⟩ :=
      hr₁.setLowcaseKey (setHashed (hashStrlow (base.str name))) (List.length_map _) fun _ => rfl
    generalize m₁.copyTo c ((base.str name).map toLower) (setHashed (hashStrlow (base.str name))) = m₂ at *
    -- the value
    have hk₂ := hk₀.touch hc ht₂
    rw [hk₂.str hvalue]
    obtain ⟨ps', hdone⟩ := hdone _ _ (ht₂.trans (copyTo_touches c (base.str value) setValue m₂))
      (hr₂.setValue (base.str value))
    exact ⟨_, ps', rfl, hdone⟩

/-! ## The launch -/

/-- The list that begins with the part `first` reads as `hs`. -/
def Memory.Shows (m : Memory) (first : Nat) (hs : List TableElt) : Prop :=
  ∃ last ps, m.lists.Chained first last ps ∧ (∀ p ∈ ps ++ [last], p < m.lists.usedParts) ∧
    (∀ a ∈ m.lists.addrs ps last, a < m.lists.usedElts ∧ (m.lists.elt a).Below m.usedBytes) ∧
    (m.lists.addrs ps last).map m.header = hs

/-- **What was in memory reads as before**, where nothing of it has changed. -/
theorem Memory.Shows.keep {first : Nat} (h : base.Shows first hs) (hk : base.Keeps m) :
    m.Shows first hs := by
  obtain ⟨last, ps, hchain, hparts, helts, hheaders⟩ := h
  have hpart : ∀ p ∈ ps ++ [last], m.lists.part p = base.lists.part p := fun p hp =>
    hk.lists.parts p (hparts p hp)
  have hps : ∀ p ∈ ps, m.lists.part p = base.lists.part p := fun p hp =>
    hpart p (List.mem_append_left _ hp)
  have hlast := hpart last (List.mem_append_right _ List.mem_cons_self)
  have haddrs : m.lists.addrs ps last = base.lists.addrs ps last := Store.addrs_congr hps hlast
  refine ⟨last, ps, ⟨hchain.first, hchain.links.relink hps (congrArg Part.next hlast), fun q hq => ?_⟩,
    fun p hp => (hparts p hp).trans_le hk.lists.usedParts, fun a ha => ?_, ?_⟩
  · rw [hpart q (List.mem_of_mem_tail hq)]
    exact hchain.filled q hq
  · rw [haddrs] at ha
    obtain ⟨hused, hbelow⟩ := helts a ha
    rw [hk.lists.elts a hused]
    exact ⟨hused.trans_le hk.lists.usedElts, hbelow.mono hk.used⟩
  · rw [haddrs, ← hheaders]
    refine List.map_congr_left fun a ha => ?_
    obtain ⟨hused, hbelow⟩ := helts a ha
    exact Memory.header_congr (hk.lists.elts a hused) hbelow hk.bytes

theorem Building.shows {ps : List Nat} (h : Building base t hs ps) : t.2.Shows t.1.first hs := by
  refine ⟨t.1.last, ps, h.owned.toChained, fun p hp => (h.owned.parts p hp).2, fun a ha => ?_, h.headers⟩
  have hroom := h.owned.room
  have hfits := h.owned.fits
  have hlt := (h.owned.elts a ha).2
  exact ⟨by omega, h.below a ha⟩

theorem cloneElts_building {as : List Nat}
    (has : ∀ a ∈ as, a < base.lists.usedElts ∧ (base.lists.elt a).Below base.usedBytes)
    {ps : List Nat} (h : Building base t hs ps) :
    ∃ ps', Building base (as.foldl (fun t a => cloneElt a t) t) (hs ++ as.map base.header) ps' := by
  induction as generalizing t hs ps with
  | nil =>
    rw [List.map_nil, List.append_nil]
    exact ⟨ps, h⟩
  | cons a as ih =>
    obtain ⟨hused, hbelow⟩ := has a List.mem_cons_self
    obtain ⟨ps', h'⟩ := cloneElt_building h hused hbelow
    obtain ⟨ps'', h''⟩ := ih (fun b hb => has b (List.mem_cons_of_mem _ hb)) h'
    rw [List.append_assoc] at h''
    exact ⟨ps'', h''⟩

/-- **All headers are cloned**, into a list whose structure is above the mark. -/
theorem cloneHeaders_building {src : ListHead} (dst : ListHead) (hsrc : base.Shows src.first hs)
    (hk : base.Keeps m)
    (hdst : base.lists.usedParts ≤ dst.first ∧ dst.first < m.lists.usedParts)
    (hused : m.lists.usedElts = base.lists.usedElts) {fuel : Nat} (hfuel : hs.length < fuel) :
    ∃ t ps, cloneHeaders fuel src dst m = some t ∧ Building base t hs ps := by
  obtain ⟨last, qs, hchain, hparts, helts, rfl⟩ := hsrc
  rw [List.length_map] at hfuel
  obtain ⟨howned, hnil, hinit⟩ := Store.init_owned (n := 8) m.lists (by decide) hdst.1 hdst.2
  rw [hused] at howned hinit
  have hstart : Building base ((m.lists.init 8 dst).1, { m with lists := (m.lists.init 8 dst).2 }) [] [] := by
    refine ⟨⟨hk.lists.trans hinit, hk.bytes, hk.used⟩, howned, ?_, ?_⟩
    · dsimp only
      rw [hnil]
      exact fun a ha => absurd ha List.not_mem_nil
    · dsimp only
      rw [hnil, List.map_nil]
  have hloop := Store.each_eq (fun t : ListHead × Memory => t.2.lists)
    (fun a t => (.inr (cloneElt a t) : Empty ⊕ (ListHead × Memory)))
    (fun t => ∃ hs' ps', Building base t hs' ps') hchain
    (fun t ⟨_, _, ht⟩ p hp => ht.keeps.lists.parts p (hparts p hp))
    (fun a ha t t' ⟨_, _, ht⟩ hstep => by
      cases hstep
      obtain ⟨ps', ht'⟩ := cloneElt_building ht (helts a ha).1 (helts a ha).2
      exact ⟨_, ps', ht'⟩)
    hfuel ⟨[], [], hstart⟩
  rw [Store.eachOf_inr] at hloop
  obtain ⟨ps, hdone⟩ := cloneElts_building helts hstart
  refine ⟨_, ps, ?_, hdone⟩
  unfold cloneHeaders
  dsimp only
  rw [hloop]

theorem length_applyHeader_le (hs : List TableElt) (h : Bytes × Bytes) :
    (applyHeader hs h).length ≤ hs.length + 1 := by
  unfold applyHeader
  split
  · rw [List.length_modify]
    exact Nat.le_succ _
  · rw [List.length_append]
    exact le_rfl

/-- The staged headers, as they are in memory. -/
def stagedIn (m : Memory) (staged : List (Str × Str)) : List (Bytes × Bytes) :=
  staged.map fun h => (m.str h.1, m.str h.2)

/-- The strings of the staged headers are in memory. -/
def StagedBelow (n : Nat) (staged : List (Str × Str)) : Prop :=
  ∀ h ∈ staged, h.1.data + h.1.len ≤ n ∧ h.2.data + h.2.len ≤ n

/-- **All staged headers are set**, one after the other. -/
theorem setRuntimeHeaders_building {staged : List (Str × Str)} (hst : StagedBelow base.usedBytes staged)
    {ps : List Nat} (h : Building base t hs ps) {fuel : Nat} (hfuel : hs.length + staged.length ≤ fuel) :
    ∃ t' ps', staged.foldlM (setRuntimeHeader fuel) t = some t' ∧
      Building base t' ((stagedIn base staged).foldl applyHeader hs) ps' := by
  induction staged generalizing t hs ps with
  | nil => exact ⟨t, ps, rfl, h⟩
  | cons g staged ih =>
    obtain ⟨hname, hvalue⟩ := hst g List.mem_cons_self
    rw [List.length_cons] at hfuel
    obtain ⟨t', ps', hset, h'⟩ := setRuntimeHeader_building h hname hvalue
      (Nat.lt_of_lt_of_le (by omega) hfuel)
    have hlen := length_applyHeader_le hs (base.str g.1, base.str g.2)
    obtain ⟨t'', ps'', hsets, h''⟩ := ih (fun k hk => hst k (List.mem_cons_of_mem _ hk)) h' (by omega)
    refine ⟨t'', ps'', ?_, h''⟩
    rw [List.foldlM_cons, hset]
    exact hsets

/-- **The subrequest has the request's headers with the staged ones applied**, and what was in memory,
the request's own headers among it, has not changed. -/
theorem launchHeaders_spec {parent : ListHead} (hparent : m.Shows parent.first hs)
    {staged : List (Str × Str)} (hst : StagedBelow m.usedBytes staged) {fuel : Nat}
    (hfuel : hs.length + staged.length < fuel) :
    ∃ t, launchHeaders fuel parent staged m = some t ∧
      t.2.Shows t.1.first ((stagedIn m staged).foldl applyHeader hs) ∧ m.Keeps t.2 := by
  have hshared : m.Keeps { m with lists := (m.lists.share parent).2 } :=
    ⟨Store.share_keeps parent m.lists, fun _ _ => rfl, le_rfl⟩
  unfold launchHeaders
  by_cases hnil : staged = []
  · subst hnil
    refine ⟨_, rfl, ?_, hshared⟩
    obtain ⟨last, ps, hchain, hparts, helts, hheaders⟩ := hparent
    obtain ⟨last', ps', hchain', haddrs, hparts'⟩ := Store.share_chained hchain hparts
    refine ⟨last', ps', hchain', hparts', ?_, ?_⟩
    · dsimp only
      rw [haddrs]
      exact helts
    · dsimp only
      rw [haddrs]
      exact hheaders
  · rw [if_neg hnil]
    obtain ⟨t, ps, hclone, hbuilt⟩ := cloneHeaders_building (m.lists.share parent).1 hparent
      hshared ⟨le_rfl, Nat.lt_succ_self _⟩ rfl (Nat.lt_of_le_of_lt (Nat.le_add_right _ _) hfuel)
    obtain ⟨t', ps', hsets, hdone⟩ := setRuntimeHeaders_building hst hbuilt hfuel.le
    refine ⟨t', ?_, hdone.shows, hdone.keeps⟩
    rw [hclone]
    exact hsets

/-- A request with `x: a` in memory, and `X: b` staged. -/
def oneHeader : Memory where
  lists := ⟨fun _ => ⟨0, 1, none⟩, fun _ => ⟨120, ⟨0, 1⟩, ⟨1, 1⟩, some 0⟩, 1, 1⟩
  byte x := ([120, 97, 88, 98] : Bytes).getD x 0
  usedBytes := 4

example : (launchHeaders 4 ⟨0, 0, 1⟩ [(⟨2, 1⟩, ⟨3, 1⟩)] oneHeader).map
    (fun t => (t.2.header 0, t.2.header 1)) =
      some (⟨120, [120], [97], [120]⟩, ⟨120, [120], [98], [120]⟩) := by decide +kernel

end NgxWasm.Abi
