import NgxWasm.Abi.Headers
import NgxWasm.Abi.Imports
import NgxWasm.Lib.Parts
import Mathlib.Data.List.TakeWhile

/-!
# Setting and getting headers (`src/ngx_http_wasm_abi.c`)

What a getter returns after a setter, over header lists of any contents: names may stand in them
several times, and headers of the response may be cleared (`hash` 0).

* `findHeader_walk`, `findRespHeader_walk`: the two searches as they walk the parts of an `ngx_list_t`.
* `ValueSet`: what every successful setter leaves of a list, by whichever path.
* `SlotsBear`: the slots of `headers_out` point to headers with their names. Every setter keeps it.
* `setHeaderIn_set`, `setRespHeader_set`: a setter that succeeds leaves its value in the first header
  of the name, or in the one of its slot.
* `header_set_then_get`: a getter returns the value that was set for its name, in any case of the
  letters, and for any other name what it returned before.

Names are compared up to the first zero byte, so a name that holds one is like others that go on
differently; the names that are set are taken to hold none. `Content-Type` set to an empty value is
cleared, and left out too. How far the other headers of the same name are set is in `Abi.Setters`,
and what a setter that fails leaves in `Abi.HalfBuilt`.

A setter writes to the header at which the getter's search stops, in the list or by the slot, or adds
one that it then stops at; for the name itself this is all of the argument. A search for another name
passes by what has changed (`ValueSet.find?_eq`), whether a header got a new value, became live again or
was added at the end. `SlotsBear` is assumed of the list that a call finds, as nginx fills the slots as
well; every setter keeps it, however it ends (`SlotsBear.setRespHeader`).
-/

namespace NgxWasm.Abi

open Lib

/-! ## Names up to case -/

/-- The names differ at most in the case of their letters. -/
def SameButCase (a b : Bytes) : Prop := a.map toLower = b.map toLower

theorem toLower_ne_zero {c : UInt8} (h : c ≠ 0) : toLower c ≠ 0 := by
  unfold toLower
  split
  · rw [ne_eq, UInt8.or_eq_zero_iff]
    exact fun hc => h hc.1
  · exact h

theorem lowcase_eq_map {s : Bytes} (h : 0 ∉ s) : lowcase s = s.map toLower := by
  refine List.takeWhile_eq_self_iff.mpr fun c hc => ?_
  obtain ⟨b, hb, rfl⟩ := List.mem_map.mp hc
  exact decide_eq_true (toLower_ne_zero fun hz => h (hz ▸ hb))

/-- A name without a zero byte is compared in full. -/
theorem sameName_iff_sameButCase {a b : Bytes} (hb : 0 ∉ b) :
    sameName a b = true ↔ SameButCase a b := by
  rw [sameName_iff, lowcase_eq_map hb, SameButCase]
  constructor
  · rintro ⟨hlen, hlow⟩
    have htaken : lowcase a <+: a.map toLower := List.takeWhile_prefix _
    rw [← hlow]
    refine (htaken.eq_of_length ?_).symm
    rw [hlow, List.length_map, List.length_map, hlen]
  · intro h
    have hlen : a.length = b.length := by simpa using congrArg List.length h
    refine ⟨hlen, ?_⟩
    rw [lowcase, h]
    exact lowcase_eq_map hb

/-! ## Searching the parts of a list -/

/-- `ngx_http_wasm_abi_find_header` walks the parts of the list. -/
theorem findHeader_walk (name : Bytes) (headers : PartList TableElt) :
    headers.walk (fun h => sameName h.key name) = .ofOption (findHeader name headers.toList) :=
  headers.walk_eq _

/-- `ngx_http_wasm_abi_find_resp_header` does too. -/
theorem findRespHeader_walk (name : Bytes) (headers : PartList TableElt) :
    headers.walk (fun h => h.hash != 0 && sameName h.key name) =
      .ofOption (findRespHeader name headers.toList) :=
  headers.walk_eq _

/-- And finds what `ngx_list_push` has added, as in the list with `h` at its end. -/
theorem findHeader_walk_push (name : Bytes) (nalloc : Nat) (h : TableElt)
    (headers : PartList TableElt) :
    (headers.push nalloc h).walk (fun h => sameName h.key name) =
      .ofOption (findHeader name (headers.toList ++ [h])) := by
  rw [findHeader_walk, PartList.toList_push]

/-! ## Lists of headers -/

section Lists

variable {α : Type} {p : α → Bool}

/-- A change at one place leaves the search alone if it leaves the test alone. -/
theorem findIdx?_modify {f : α → α} {l : List α} {i : Nat}
    (h : ∀ a, l[i]? = some a → p (f a) = p a) : (l.modify i f).findIdx? p = l.findIdx? p := by
  induction l generalizing i with
  | nil => rw [List.modify_nil]
  | cons b l ih =>
    cases i with
    | zero =>
      rw [List.modify_zero_cons, List.findIdx?_cons, List.findIdx?_cons, h b rfl]
    | succ i =>
      rw [List.modify_succ_cons, List.findIdx?_cons, List.findIdx?_cons, ih fun a ha => h a ha]

/-- Two lists with the same hits at the same places have the same first one. -/
theorem find?_congr_getElem? {l l' : List α}
    (h : ∀ i : Nat, (l[i]?).filter p = (l'[i]?).filter p) : l.find? p = l'.find? p := by
  induction l generalizing l' with
  | nil =>
    symm
    rw [List.find?_nil, List.find?_eq_none]
    intro a ha hp
    obtain ⟨i, hi⟩ := List.getElem?_of_mem ha
    have hfalse := h i
    rw [List.getElem?_nil, hi, Option.filter_some, if_pos hp] at hfalse
    cases hfalse
  | cons a l ih =>
    cases l' with
    | nil =>
      rw [List.find?_nil, List.find?_eq_none]
      intro b hb hp
      obtain ⟨i, hi⟩ := List.getElem?_of_mem hb
      have hfalse := h i
      rw [List.getElem?_nil, hi, Option.filter_some, if_pos hp] at hfalse
      cases hfalse
    | cons b l' =>
      have hhead : (some a).filter p = (some b).filter p := h 0
      have htail : l.find? p = l'.find? p := ih fun i => h (i + 1)
      rw [List.find?_cons, List.find?_cons, htail]
      rw [Option.filter_some, Option.filter_some] at hhead
      cases ha : p a <;> cases hb : p b <;> simp_all

/-- The element at the first place that is found. -/
theorem findIdx?_bind_getElem? (l : List α) :
    ((l.findIdx? p).bind fun i => l[i]?) = l.find? p := by
  induction l with
  | nil => rfl
  | cons a l ih =>
    rw [List.findIdx?_cons, List.find?_cons, ← ih]
    cases p a with
    | true => rfl
    | false =>
      rw [if_neg Bool.false_ne_true, Option.bind_map]
      rfl

theorem findIdx?_bind_map {β : Type} (f : α → β) (l : List α) :
    ((l.findIdx? p).bind fun i => (l[i]?).map f) = (l.find? p).map f := by
  rw [← findIdx?_bind_getElem?, Option.map_bind]
  rfl

end Lists

/-- The header at `i` of `hs'` has been given `value`: the one that was there, or a new one, with
`name`. -/
structure ValueSet (name value : Bytes) (i : Nat) (hs hs' : List TableElt) : Prop where
  here : ∃ h, hs'[i]? = some h ∧ sameName h.key name = true ∧ h.value = value
  before : ∀ h, hs[i]? = some h → sameName h.key name = true
  elsewhere : ∀ j, j ≠ i → hs'[j]? = hs[j]?

/-- A header that is there is changed in place. -/
theorem ValueSet.of_modify {name value : Bytes} {hs : List TableElt} {i : Nat} {h : TableElt}
    {f : TableElt → TableElt} (hi : hs[i]? = some h) (hn : sameName h.key name = true)
    (hf : ∀ h, (f h).key = h.key ∧ (f h).value = value) :
    ValueSet name value i hs (hs.modify i f) where
  here := by
    refine ⟨f h, ?_, ?_, (hf h).2⟩
    · rw [List.getElem?_modify_eq, hi]
      rfl
    · rw [(hf h).1]
      exact hn
  before h' hi' := by
    obtain rfl := Option.some.inj (hi.symm.trans hi')
    exact hn
  elsewhere j hj := List.getElem?_modify_ne f hs (Ne.symm hj)

/-- A new header is added at the end. -/
theorem ValueSet.of_append {name value : Bytes} {hs : List TableElt} {h : TableElt}
    (hkey : h.key = name) (hvalue : h.value = value) : ValueSet name value hs.length hs (hs ++ [h]) where
  here := by
    refine ⟨h, List.getElem?_concat_length, ?_, hvalue⟩
    rw [hkey, sameName_iff]
    exact ⟨rfl, rfl⟩
  before h' hi' := by
    rw [List.getElem?_eq_none le_rfl] at hi'
    cases hi'
  elsewhere j hj := by
    rcases Nat.lt_or_gt_of_ne hj with hlt | hgt
    · rw [List.getElem?_append_left hlt]
    · rw [List.getElem?_eq_none (by rw [List.length_append]; exact hgt),
        List.getElem?_eq_none hgt.le]

/-- A search that sees no header with the name finds what it found before. -/
theorem ValueSet.find?_eq {name value : Bytes} {i : Nat} {hs hs' : List TableElt}
    (h : ValueSet name value i hs hs') {p : TableElt → Bool}
    (hp : ∀ h, sameName h.key name = true → p h = false) : hs'.find? p = hs.find? p := by
  refine find?_congr_getElem? fun j => ?_
  by_cases hj : j = i
  · obtain ⟨g, hg, hgn, -⟩ := h.here
    rw [hj, hg, Option.filter_some, if_neg (by rw [hp g hgn]; exact Bool.false_ne_true)]
    cases hold : hs[i]? with
    | none => rfl
    | some g' =>
      rw [Option.filter_some, if_neg (by rw [hp g' (h.before g' hold)]; exact Bool.false_ne_true)]
  · rw [h.elsewhere j hj]

theorem ValueSet.value_eq {name value : Bytes} {i : Nat} {hs hs' : List TableElt}
    (h : ValueSet name value i hs hs') : (hs'[i]?).map TableElt.value = some value := by
  obtain ⟨g, hg, -, hv⟩ := h.here
  rw [hg, Option.map_some, hv]

/-! ## The setters of a list -/

theorem findHeader_some {name : Bytes} {hs : List TableElt} {i : Nat}
    (h : findHeader name hs = some i) : ∃ g, hs[i]? = some g ∧ sameName g.key name = true := by
  obtain ⟨hi, hn, -⟩ := List.findIdx?_eq_some_iff_getElem.mp h
  exact ⟨hs[i], List.getElem?_eq_getElem hi, hn⟩

theorem findRespHeader_some {name : Bytes} {hs : List TableElt} {i : Nat}
    (h : findRespHeader name hs = some i) : ∃ g, hs[i]? = some g ∧ sameName g.key name = true := by
  obtain ⟨hi, hn, -⟩ := List.findIdx?_eq_some_iff_getElem.mp h
  exact ⟨hs[i], List.getElem?_eq_getElem hi, (Bool.and_eq_true_iff.mp hn).2⟩

theorem sameName_self (name : Bytes) : sameName name name = true := sameName_iff.mpr ⟨rfl, rfl⟩

/-- A header that was not there is found at the end. -/
theorem findIdx?_pushed {p : TableElt → Bool} {hs : List TableElt} {h : TableElt}
    (hnone : hs.findIdx? p = none) (hp : p h = true) : (hs ++ [h]).findIdx? p = some hs.length := by
  rw [List.findIdx?_append, hnone, List.findIdx?_cons, if_pos hp]
  simp

/-- **A header of the request is set**, and is then the first with its name. -/
theorem setHeaderIn_set {name value : Bytes} {hs hs' : List TableElt} {p p' : Pool}
    (h : setHeaderIn name value hs p = (true, hs', p')) :
    ∃ i, ValueSet name value i hs hs' ∧ findHeader name hs' = some i := by
  unfold setHeaderIn at h
  split at h
  · rename_i i hfind
    obtain ⟨g, hg, hn⟩ := findHeader_some hfind
    obtain rfl := copyValue_true h
    refine ⟨i, .of_modify hg hn fun _ => ⟨rfl, rfl⟩, ?_⟩
    rw [findHeader, findIdx?_modify]
    · exact hfind
    · exact fun _ _ => rfl
  · rename_i hfind
    split at h
    · cases h
    · rename_i hs₁ p₁ hpush
      obtain rfl := pushHeader_true hpush
      split at h
      · cases h
      · obtain rfl := copyValue_true h
        have hlast : (hs ++ [({ key := name } : TableElt)]).length - 1 = hs.length := by simp
        rw [hlast, modify_last, modify_last]
        exact ⟨hs.length, .of_append rfl rfl, findIdx?_pushed hfind (sameName_self name)⟩

/-- The header of a list that `findOrPush` hands out, once its value is copied. -/
theorem findOrPush_set {name value : Bytes} {hs hs' : List TableElt} {p p' : Pool} {i : Nat}
    (h : findOrPush name hs p = (some i, hs', p')) :
    ValueSet name value i hs (hs'.modify i fun h => { h with value := value }) ∧
      findRespHeader name (hs'.modify i fun h => { h with value := value }) = some i := by
  unfold findOrPush at h
  split at h
  · rename_i j hfind
    cases h
    obtain ⟨g, hg, hn⟩ := findRespHeader_some hfind
    refine ⟨.of_modify hg hn fun _ => ⟨rfl, rfl⟩, ?_⟩
    rw [findRespHeader, findIdx?_modify]
    · exact hfind
    · exact fun _ _ => rfl
  · rename_i hfind
    split at h
    · cases h
    · rename_i hs₁ p₁ hpush
      obtain rfl := pushHeader_true hpush
      have hlast : (hs ++ [({ key := name } : TableElt)]).length - 1 = hs.length := by simp
      dsimp only at h
      rw [hlast, modify_last] at h
      cases h
      rw [modify_last]
      refine ⟨.of_append rfl rfl, findIdx?_pushed hfind ?_⟩
      exact sameName_self name

/-! ## The slots -/

/-- **Every slot that is set points to a header with its name.** -/
def SlotsBear (out : HeadersOut) : Prop :=
  ∀ s i, out.slots s = some i → ∃ h, out.headers[i]? = some h ∧ headerEq h.key s.header = true

theorem SlotsBear.of_keys {out out' : HeadersOut} (h : SlotsBear out) (hslots : out'.slots = out.slots)
    (hkeys : out.headers.map TableElt.key <+: out'.headers.map TableElt.key) : SlotsBear out' := by
  intro s i hi
  rw [hslots] at hi
  obtain ⟨g, hg, hn⟩ := h s i hi
  have hkey : (out.headers.map TableElt.key)[i]? = some g.key := by rw [List.getElem?_map, hg]; rfl
  have hkey' : (out'.headers.map TableElt.key)[i]? = some g.key := by
    obtain ⟨rest, hrest⟩ := hkeys
    have hlt := (List.getElem?_eq_some_iff.mp hkey).1
    rw [← hrest, List.getElem?_append_left hlt, hkey]
  rw [List.getElem?_map, Option.map_eq_some_iff] at hkey'
  obtain ⟨g', hg', hk⟩ := hkey'
  exact ⟨g', hg', by rw [hk]; exact hn⟩

theorem keys_modify {f : TableElt → TableElt} (hf : ∀ h, (f h).key = h.key) (hs : List TableElt)
    (i : Nat) : (hs.modify i f).map TableElt.key = hs.map TableElt.key := by
  induction hs generalizing i with
  | nil => rw [List.modify_nil]
  | cons h hs ih =>
    cases i with
    | zero => rw [List.modify_zero_cons, List.map_cons, List.map_cons, hf]
    | succ i => rw [List.modify_succ_cons, List.map_cons, List.map_cons, ih]

theorem keys_copyValue (i : Nat) (value : Bytes) (hs : List TableElt) (p : Pool) :
    (copyValue i value hs p).2.1.map TableElt.key = hs.map TableElt.key := by
  unfold copyValue
  split
  · refine keys_modify ?_ hs i
    exact fun _ => rfl
  · rfl

theorem keys_pushHeader (name : Bytes) (hs : List TableElt) (p : Pool) :
    hs.map TableElt.key <+: (pushHeader name hs p).2.1.map TableElt.key := by
  unfold pushHeader
  split
  · exact List.prefix_rfl
  · split
    · rw [List.map_append]
      exact List.prefix_append _ _
    · rw [List.map_append]
      exact List.prefix_append _ _

theorem keys_findOrPush (name : Bytes) (hs : List TableElt) (p : Pool) :
    hs.map TableElt.key <+: (findOrPush name hs p).2.1.map TableElt.key := by
  have hpush := keys_pushHeader name hs p
  unfold findOrPush
  split
  · exact List.prefix_rfl
  · split
    · rename_i heq
      rw [heq] at hpush
      exact hpush
    · rename_i heq
      rw [heq] at hpush
      dsimp only
      rw [keys_modify]
      · exact hpush
      · exact fun _ => rfl

/-- A new header takes its slot. -/
theorem SlotsBear.slotHeader {out : HeadersOut} (h : SlotsBear out) {name : Bytes} {s : Slot}
    (hs : respHeaderSlot name = some s) (p : Pool) : SlotsBear (slotHeader s name out p).2.1 := by
  have hpush := keys_pushHeader name out.headers p
  unfold Abi.slotHeader
  split
  · exact h
  · split
    · rename_i heq
      rw [heq] at hpush
      exact h.of_keys rfl hpush
    · rename_i heq
      rw [heq] at hpush
      obtain rfl := pushHeader_true heq
      intro t i hi
      dsimp only at hi ⊢
      by_cases hts : t = s
      · rw [hts, Function.update_self] at hi
        obtain rfl := Option.some.inj hi
        refine ⟨{ key := name }, by simp, ?_⟩
        rw [hts]
        exact (respHeaderSlot_iff.mp hs).2
      · rw [Function.update_of_ne hts] at hi
        have hold : SlotsBear { out with headers := out.headers ++ [{ key := name }] } :=
          h.of_keys rfl hpush
        exact hold t i hi

variable {V : Variables} {parseHttpTime : Bytes → Int}

/-- **The setter keeps the slots**, however it ends. -/
theorem SlotsBear.setRespHeader {r : Request V} (h : SlotsBear r.headersOut) (name value : Bytes) :
    SlotsBear (setRespHeader parseHttpTime name value r).2.headersOut := by
  cases hn : headerEq name "content-type" with
  | true =>
    obtain ⟨hheaders, hslots⟩ := setRespHeader_type parseHttpTime value r hn
    exact h.of_keys hslots (hheaders ▸ List.prefix_rfl)
  | false =>
    unfold Abi.setRespHeader
    cases hs : respHeaderSlot name with
    | some s =>
      have hslot := h.slotHeader hs r.pool
      rw [hn, Option.isSome_some, Bool.false_or, if_pos rfl, respSetCachedHeader, hn,
        if_neg Bool.false_ne_true, hs]
      dsimp only
      split
      · rename_i heq
        rw [heq] at hslot
        exact hslot
      · rename_i i out p heq
        rw [heq] at hslot
        have hhash : (out.headers.modify i fun h => { h with hash := 1 }).map TableElt.key =
            out.headers.map TableElt.key := by
          refine keys_modify ?_ _ _
          exact fun _ => rfl
        have hcopy := keys_copyValue i value (out.headers.modify i fun h => { h with hash := 1 }) p
        rw [hhash] at hcopy
        split
        · rename_i heq'
          rw [heq'] at hcopy
          exact hslot.of_keys rfl (hcopy ▸ List.prefix_rfl)
        · rename_i headers p' heq'
          rw [heq'] at hcopy
          obtain ⟨hd, hds⟩ := derive_headers parseHttpTime { out with headers := headers } s value
          refine hslot.of_keys hds ?_
          rw [hd]
          exact hcopy ▸ List.prefix_rfl
    | none =>
      have hfind := keys_findOrPush name r.headersOut.headers r.pool
      rw [hn, Option.isSome_none, Bool.false_or, if_neg Bool.false_ne_true]
      split
      · rename_i heq
        rw [heq] at hfind
        exact h.of_keys rfl hfind
      · rename_i i headers p heq
        rw [heq] at hfind
        have hcopy := keys_copyValue i value headers p
        split
        rename_i heq'
        rw [heq'] at hcopy
        exact h.of_keys rfl (hcopy ▸ hfind)

/-! ## The setter of the response -/

/-- What a successful setter of the response leaves of `out`, for a name other than
`Content-Type`. -/
structure HeaderSet (name value : Bytes) (i : Nat) (out out' : HeadersOut) : Prop where
  list : ValueSet name value i out.headers out'.headers
  contentType : out'.contentType = out.contentType
  slot : ∀ s, respHeaderSlot name = some s → out'.slots = Function.update out.slots s (some i)
  search : respHeaderSlot name = none →
    out'.slots = out.slots ∧ findRespHeader name out'.headers = some i

theorem derive_contentType (parseHttpTime : Bytes → Int) (out : HeadersOut) (s : Slot)
    (value : Bytes) : (out.derive parseHttpTime s value).contentType = out.contentType := by
  cases s <;> rfl

/-- The header of a slot, once its hash is set and its value is copied. -/
theorem slotHeader_set {name : Bytes} (value : Bytes) {s : Slot} {out out' : HeadersOut} {p p' : Pool}
    {i : Nat} (hb : SlotsBear out) (hs : respHeaderSlot name = some s)
    (h : slotHeader s name out p = (some i, out', p')) :
    ValueSet name value i out.headers ((out'.headers.modify i fun h => { h with hash := 1 }).modify i
        fun h => { h with value := value }) ∧
      out'.slots = Function.update out.slots s (some i) ∧ out'.contentType = out.contentType := by
  unfold slotHeader at h
  split at h
  · rename_i j hj
    cases h
    obtain ⟨g, hg, hgn⟩ := hb s i hj
    have hn : sameName g.key name = true := by
      rw [headerEq] at hgn
      rw [sameName_congr hgn, sameName_comm]
      exact (respHeaderSlot_iff.mp hs).2
    rw [List.modify_modify_eq]
    refine ⟨.of_modify hg hn fun _ => ⟨rfl, rfl⟩, ?_, rfl⟩
    rw [← hj, Function.update_eq_self]
  · split at h
    · cases h
    · rename_i heq
      obtain rfl := pushHeader_true heq
      have hlast : (out.headers ++ [({ key := name } : TableElt)]).length - 1 = out.headers.length := by
        simp
      dsimp only at h
      rw [hlast] at h
      cases h
      rw [modify_last, modify_last]
      exact ⟨.of_append rfl rfl, rfl, rfl⟩

/-- **A header of the response is set**, by its slot or by a search. -/
theorem setRespHeader_set {name value : Bytes} {r : Request V} (hb : SlotsBear r.headersOut)
    (hn : headerEq name "content-type" = false)
    (hok : (setRespHeader parseHttpTime name value r).1 = wasmOk) :
    ∃ i, HeaderSet name value i r.headersOut
      (setRespHeader parseHttpTime name value r).2.headersOut := by
  have hset := setRespHeader_ok hn hok
  generalize (setRespHeader parseHttpTime name value r).2.headersOut = out' at hset ⊢
  cases hset with
  | @slot s i out p hs hslot =>
    obtain ⟨hvalue, hslots, htype⟩ := slotHeader_set value hb hs hslot
    obtain ⟨hd, hds⟩ := derive_headers parseHttpTime { out with
      headers := (out.headers.modify i fun h => { h with hash := 1 }).modify i
        fun h => { h with value := value } } s value
    refine ⟨i, ⟨?_, ?_, fun t ht => ?_, fun hnone => ?_⟩⟩
    · rw [hd]
      exact hvalue
    · exact (derive_contentType parseHttpTime _ s value).trans htype
    · obtain rfl := Option.some.inj (hs.symm.trans ht)
      exact hds.trans hslots
    · rw [hs] at hnone
      cases hnone
  | @search i headers p hs hfind =>
    obtain ⟨hvalue, hsearch⟩ := @findOrPush_set _ value _ _ _ _ _ hfind
    refine ⟨i, ⟨hvalue, rfl, fun s hs' => ?_, fun _ => ⟨rfl, hsearch⟩⟩⟩
    rw [hs] at hs'
    cases hs'

/-! ## The getters -/

/-- Two names that are the same as a third are the same. -/
theorem sameName_trans {a b c : Bytes} (hab : sameName a b = true) (hac : sameName a c = true) :
    sameName b c = true := (sameName_congr hab c).symm.trans hac

theorem sameName_right {a b : Bytes} (h : sameName a b = true) (c : Bytes) :
    sameName c a = sameName c b := by
  rw [sameName_comm c a, sameName_comm c b, sameName_congr h]

theorem findHeader_congr {a b : Bytes} (h : sameName a b = true) (hs : List TableElt) :
    findHeader a hs = findHeader b hs := by
  unfold findHeader
  congr 1
  funext g
  rw [sameName_right h]

theorem findRespHeader_congr {a b : Bytes} (h : sameName a b = true) (hs : List TableElt) :
    findRespHeader a hs = findRespHeader b hs := by
  unfold findRespHeader
  congr 1
  funext g
  rw [sameName_right h]

section Getters

variable {name value : Bytes} {i : Nat} {out out' : HeadersOut}

theorem headerEq_congr {a b : Bytes} (h : sameName a b = true) (literal : String) :
    headerEq a literal = headerEq b literal := sameName_congr h _

theorem HeaderSet.get_same (h : HeaderSet name value i out out')
    (hn : headerEq name "content-type" = false) {name' : Bytes} (hsame : sameName name' name = true) :
    respHeaderValue name' out' = some value := by
  unfold respHeaderValue
  rw [headerEq_congr hsame, hn, if_neg nofun, slot_congr hsame]
  cases hs : respHeaderSlot name with
  | some s =>
    dsimp only
    rw [h.slot s hs, Function.update_self, Option.bind_some, h.list.value_eq]
  | none =>
    dsimp only
    rw [findRespHeader_congr hsame, (h.search hs).2, Option.bind_some, h.list.value_eq]

theorem HeaderSet.get_other (h : HeaderSet name value i out out') (hb : SlotsBear out)
    {other : Bytes} (hne : sameName other name = false) :
    respHeaderValue other out' = respHeaderValue other out := by
  unfold respHeaderValue
  rw [h.contentType]
  split
  · rfl
  · cases ht : respHeaderSlot other with
    | some t =>
      obtain ⟨-, hother⟩ := respHeaderSlot_iff.mp ht
      have hslot : out'.slots t = out.slots t := by
        cases hs : respHeaderSlot name with
        | none => rw [(h.search hs).1]
        | some s =>
          rw [h.slot s hs, Function.update_of_ne]
          rintro rfl
          have hsame : sameName other name = true := by
            rw [headerEq] at hother
            rw [sameName_congr hother, sameName_comm]
            exact (respHeaderSlot_iff.mp hs).2
          rw [hsame] at hne
          cases hne
      dsimp only
      rw [hslot]
      cases hj : out.slots t with
      | none => rfl
      | some j =>
        obtain ⟨g, hg, hgn⟩ := hb t j hj
        have hji : j ≠ i := by
          rintro rfl
          have hgother : sameName g.key other = true := by
            rw [headerEq] at hgn
            rw [sameName_congr hgn, sameName_comm]
            exact hother
          rw [sameName_trans hgother (h.list.before g hg)] at hne
          cases hne
        rw [Option.bind_some, Option.bind_some, h.list.elsewhere j hji]
    | none =>
      dsimp only
      unfold findRespHeader
      rw [findIdx?_bind_map, findIdx?_bind_map, h.list.find?_eq]
      intro g hg
      rw [Bool.and_eq_false_iff]
      refine Or.inr (Bool.eq_false_iff.mpr fun hgo => ?_)
      rw [sameName_trans hgo hg] at hne
      cases hne

end Getters

/-! ## The calls of the ABI -/

variable {W : World}

/-- What a getter sees in `h'` after `name` was set to `value` in `h`: under the name in any case of
its letters, that value; under any other, what it saw before. -/
structure GetterSees (get : Slice → Slice → Host W → Mem → Result W) (cap : UInt64)
    (name value : Bytes) (h h' : Host W) : Prop where
  set : ∀ m name' buf, SameButCase (m.read name') name →
    get name' buf h' m = h'.require m cap (h'.copyOut m buf value)
  other : ∀ m other buf, ¬ SameButCase (m.read other) name →
    (get other buf h' m).outcome = (get other buf h m).outcome ∧
      (get other buf h' m).mem = (get other buf h m).mem

/-- The slots of the request, if there is one. -/
def Host.SlotsBear (h : Host W) : Prop := ∀ r ∈ h.request, Abi.SlotsBear r.headersOut

/-- A name that is the same as one that is not empty is not empty. -/
theorem len_ne_zero {m m' : Mem} {a b : Slice} (h : SameButCase (m.read a) (m'.read b))
    (hb : b.len ≠ 0) : a.len ≠ 0 := by
  have hlen : (m.read a).length = (m'.read b).length := by simpa using congrArg List.length h
  simp only [Mem.read, List.length_map, List.length_range] at hlen
  rwa [ne_eq, ← UInt64.toNat_inj, hlen, UInt64.toNat_inj]

/-- The name was not empty, and the capability was there. -/
theorem Host.require_ok {h : Host W} {m : Mem} {cap : UInt64} {name : Slice} {body : Result W}
    (hok : (h.require m cap (if name.len = 0 then h.reply m wasmError else body)).outcome = .ret 0) :
    ¬ h.abi.capabilities &&& cap = 0 ∧ name.len ≠ 0 ∧ body.outcome = .ret 0 := by
  unfold Host.require at hok
  split at hok
  · cases hok
  · rename_i hcap
    split at hok
    · cases hok
    · rename_i hlen
      exact ⟨hcap, hlen, hok⟩

/-- The same call on two hosts with the same capabilities. -/
theorem Host.require_same {h h' : Host W} {m : Mem} {cap : UInt64} {name : Slice}
    {body body' : Result W} (habi : h'.abi = h.abi)
    (hbody : body'.outcome = body.outcome ∧ body'.mem = body.mem) :
    (h'.require m cap (if name.len = 0 then h'.reply m wasmError else body')).outcome =
        (h.require m cap (if name.len = 0 then h.reply m wasmError else body)).outcome ∧
      (h'.require m cap (if name.len = 0 then h'.reply m wasmError else body')).mem =
        (h.require m cap (if name.len = 0 then h.reply m wasmError else body)).mem := by
  unfold Host.require
  rw [habi]
  split
  · exact ⟨rfl, rfl⟩
  · split
    · exact ⟨rfl, rfl⟩
    · exact hbody

theorem Host.onRequest_some {h : Host W} {m : Mem} {f : Request W.vars → Int × Request W.vars}
    {r : Request W.vars} (hr : h.request = some r) :
    h.onRequest m f = (h.withRequest (f r).2).reply m (f r).1 := by
  unfold Host.onRequest Host.deref
  rw [hr]

/-- Without a request there is no result. -/
theorem Host.onRequest_ok {h : Host W} {m : Mem} {f : Request W.vars → Int × Request W.vars}
    (hok : (h.onRequest m f).outcome = .ret 0) : ∃ r, h.request = some r := by
  cases hr : h.request with
  | some r => exact ⟨r, rfl⟩
  | none =>
    unfold Host.onRequest Host.deref at hok
    rw [hr] at hok
    cases hok

/-- What a successful call of the setter of the request did. -/
theorem reqSetHeader_ok {h : Host W} {m : Mem} {name value : Slice}
    (hok : (reqSetHeader name value h m).outcome = .ret 0) :
    name.len ≠ 0 ∧ ∃ r hs p, h.request = some r ∧
      setHeaderIn (m.read name) (m.read value) r.headersIn r.pool = (true, hs, p) ∧
      (reqSetHeader name value h m).host = h.withRequest { r with headersIn := hs, pool := p } := by
  obtain ⟨hcap, hlen, hbody⟩ := Host.require_ok hok
  refine ⟨hlen, ?_⟩
  unfold reqSetHeader Host.require
  obtain ⟨r, hr⟩ := Host.onRequest_ok hbody
  rw [if_neg hcap, if_neg hlen, Host.onRequest_some hr]
  rw [Host.onRequest_some hr] at hbody
  cases hset : setHeaderIn (m.read name) (m.read value) r.headersIn r.pool with
  | mk ok rest =>
    obtain ⟨hs, p⟩ := rest
    simp only [hset] at hbody ⊢
    cases ok with
    | false => cases hbody
    | true => exact ⟨r, hs, p, hr, hset, rfl⟩

/-- **Set and get, in the request.** -/
theorem reqSetHeader_sees {h : Host W} {m : Mem} {name value : Slice} (hnul : 0 ∉ m.read name)
    (hok : (reqSetHeader name value h m).outcome = .ret 0) :
    GetterSees reqGetHeader capReqHeadersRo (m.read name) (m.read value) h
      (reqSetHeader name value h m).host := by
  obtain ⟨hlen, r, hs, p, hr, hset, hhost⟩ := reqSetHeader_ok hok
  obtain ⟨i, hvalue, hfind⟩ := setHeaderIn_set hset
  rw [hhost]
  refine ⟨fun m' name' buf hsame => ?_, fun m' other buf hne => ?_⟩
  · have hname : sameName (m'.read name') (m.read name) = true :=
      (sameName_iff_sameButCase hnul).mpr hsame
    obtain ⟨g, hg, -, hv⟩ := hvalue.here
    unfold reqGetHeader Host.deref
    rw [if_neg (len_ne_zero hsame hlen)]
    simp only [Host.withRequest, findHeader_congr hname, hfind, Option.bind_some, hg, hv]
  · have hname : sameName (m'.read other) (m.read name) = false :=
      Bool.eq_false_iff.mpr fun h => hne ((sameName_iff_sameButCase hnul).mp h)
    refine Host.require_same rfl ?_
    have hsearch : hs.find? (fun g => sameName g.key (m'.read other)) =
        r.headersIn.find? fun g => sameName g.key (m'.read other) := by
      refine hvalue.find?_eq fun g hg => Bool.eq_false_iff.mpr fun hgo => ?_
      rw [sameName_trans hgo hg] at hname
      cases hname
    unfold Host.deref
    rw [hr]
    simp only [Host.withRequest, findHeader, findIdx?_bind_getElem?, hsearch]
    cases r.headersIn.find? fun g => sameName g.key (m'.read other) with
    | none => exact ⟨rfl, rfl⟩
    | some g => exact ⟨rfl, rfl⟩

/-- What a call of the setter of the response did, if there was something to do. -/
theorem respSetHeader_host (name value : Slice) (h : Host W) (m : Mem) :
    (respSetHeader name value h m).host = h ∨ ∃ r, h.request = some r ∧
      (respSetHeader name value h m).host =
        h.withRequest (setRespHeader W.parseHttpTime (m.read name) (m.read value) r).2 := by
  unfold respSetHeader Host.require
  split
  · exact Or.inl rfl
  · split
    · exact Or.inl rfl
    · cases hr : h.request with
      | none =>
        unfold Host.onRequest Host.deref
        rw [hr]
        exact Or.inl rfl
      | some r => exact Or.inr ⟨r, rfl, by rw [Host.onRequest_some hr]; rfl⟩

/-- What a successful one did. -/
theorem respSetHeader_ok {h : Host W} {m : Mem} {name value : Slice}
    (hok : (respSetHeader name value h m).outcome = .ret 0) :
    ¬ h.abi.capabilities &&& capRespHeadersRw = 0 ∧ name.len ≠ 0 ∧ ∃ r, h.request = some r ∧
      (setRespHeader W.parseHttpTime (m.read name) (m.read value) r).1 = wasmOk ∧
      (respSetHeader name value h m).host =
        h.withRequest (setRespHeader W.parseHttpTime (m.read name) (m.read value) r).2 := by
  obtain ⟨hcap, hlen, hbody⟩ := Host.require_ok hok
  refine ⟨hcap, hlen, ?_⟩
  unfold respSetHeader Host.require
  obtain ⟨r, hr⟩ := Host.onRequest_ok hbody
  rw [if_neg hcap, if_neg hlen, Host.onRequest_some hr]
  rw [Host.onRequest_some hr] at hbody
  refine ⟨r, hr, ?_, rfl⟩
  rcases setRespHeader_rc W.parseHttpTime (m.read name) (m.read value) r with hrc | hrc
  · exact hrc
  · simp only [Host.reply, hrc] at hbody
    cases hbody

/-- `Content-Type` is kept apart from the list. -/
theorem setRespHeader_type_ok {name value : Bytes} {r : Request V}
    (hn : headerEq name "content-type" = true)
    (hok : (setRespHeader parseHttpTime name value r).1 = wasmOk) :
    (setRespHeader parseHttpTime name value r).2.headersOut =
      { r.headersOut with contentType := value, contentTypeLen := value.length } := by
  revert hok
  unfold setRespHeader respSetCachedHeader setStr
  rw [hn, Bool.true_or, if_pos rfl, if_pos rfl]
  split
  · exact nofun
  · rename_i heq
    obtain ⟨-, rfl⟩ := Prod.mk.inj heq
    exact fun _ => rfl

/-- What the getter's value is after a successful setter. -/
theorem respHeaderValue_set {name value : Bytes} {r : Request V} (hb : SlotsBear r.headersOut)
    (hok : (setRespHeader parseHttpTime name value r).1 = wasmOk)
    (hempty : headerEq name "content-type" = true → value ≠ []) :
    let out' := (setRespHeader parseHttpTime name value r).2.headersOut
    (∀ name', sameName name' name = true → respHeaderValue name' out' = some value) ∧
      ∀ other, sameName other name = false →
        respHeaderValue other out' = respHeaderValue other r.headersOut := by
  cases hn : headerEq name "content-type" with
  | false =>
    obtain ⟨i, hset⟩ := setRespHeader_set hb hn hok
    exact ⟨fun name' hsame => hset.get_same hn hsame, fun other hne => hset.get_other hb hne⟩
  | true =>
    rw [setRespHeader_type_ok hn hok]
    constructor
    · intro name' hsame
      unfold respHeaderValue
      rw [headerEq_congr hsame, hn, if_pos rfl, if_neg]
      exact fun hlen => hempty hn (List.length_eq_zero_iff.mp hlen)
    · intro other hne
      unfold respHeaderValue
      have hother : headerEq other "content-type" = false := by
        refine Bool.eq_false_iff.mpr fun ho => ?_
        rw [headerEq] at hn ho
        rw [sameName_congr ho, sameName_comm, hn] at hne
        cases hne
      rw [hother]
      rfl

/-- **Set and get, in the response.** -/
theorem respSetHeader_sees {h : Host W} {m : Mem} {name value : Slice} (hb : h.SlotsBear)
    (hnul : 0 ∉ m.read name) (hok : (respSetHeader name value h m).outcome = .ret 0)
    (hempty : headerEq (m.read name) "content-type" = true → value.len ≠ 0) :
    GetterSees respGetHeader capRespHeadersRw (m.read name) (m.read value) h
      (respSetHeader name value h m).host := by
  obtain ⟨-, hlen, r, hr, hrc, hhost⟩ := respSetHeader_ok hok
  have hvalue : headerEq (m.read name) "content-type" = true → m.read value ≠ [] := by
    intro ht hnil
    have h0 : (m.read value).length = 0 := by rw [hnil]; rfl
    simp only [Mem.read, List.length_map, List.length_range] at h0
    exact hempty ht (UInt64.toNat_inj.mp h0)
  obtain ⟨hset, hother⟩ := respHeaderValue_set (hb r hr) hrc hvalue
  rw [hhost]
  refine ⟨fun m' name' buf hsame => ?_, fun m' other buf hne => ?_⟩
  · have hname : sameName (m'.read name') (m.read name) = true :=
      (sameName_iff_sameButCase hnul).mpr hsame
    unfold respGetHeader Host.deref
    rw [if_neg (len_ne_zero hsame hlen)]
    simp only [Host.withRequest, hset _ hname]
  · have hname : sameName (m'.read other) (m.read name) = false :=
      Bool.eq_false_iff.mpr fun h => hne ((sameName_iff_sameButCase hnul).mp h)
    refine Host.require_same rfl ?_
    unfold Host.deref
    rw [hr]
    simp only [Host.withRequest, hother _ hname]
    cases respHeaderValue (m'.read other) r.headersOut with
    | none => exact ⟨rfl, rfl⟩
    | some v => exact ⟨rfl, rfl⟩

/-- **A header that is set is the header that is got**, in the request and in the response, and no
other one changes; and both setters keep the slots. -/
theorem header_set_then_get (W : World) (name value : Slice) (h : Host W) (m : Mem) :
    (h.SlotsBear → (reqSetHeader name value h m).host.SlotsBear) ∧
      (h.SlotsBear → (respSetHeader name value h m).host.SlotsBear) ∧
      (0 ∉ m.read name → (reqSetHeader name value h m).outcome = .ret 0 →
        GetterSees reqGetHeader capReqHeadersRo (m.read name) (m.read value) h
          (reqSetHeader name value h m).host) ∧
      (h.SlotsBear → 0 ∉ m.read name → (respSetHeader name value h m).outcome = .ret 0 →
        (headerEq (m.read name) "content-type" = true → value.len ≠ 0) →
        GetterSees respGetHeader capRespHeadersRw (m.read name) (m.read value) h
          (respSetHeader name value h m).host) := by
  refine ⟨fun hb => ?_, fun hb => ?_, fun hnul hok => reqSetHeader_sees hnul hok,
    fun hb hnul hok hempty => respSetHeader_sees hb hnul hok hempty⟩
  · unfold reqSetHeader Host.require
    split
    · exact hb
    · split
      · exact hb
      · cases hr : h.request with
        | none =>
          unfold Host.onRequest Host.deref
          rw [hr]
          exact hb
        | some r =>
          rw [Host.onRequest_some hr]
          intro r' hr'
          obtain rfl := Option.some.inj hr'
          exact hb r hr
  · rcases respSetHeader_host name value h m with hhost | ⟨r, hr, hhost⟩
    · rw [hhost]
      exact hb
    · rw [hhost]
      intro r' hr'
      obtain rfl := Option.some.inj hr'
      exact (hb r hr).setRespHeader _ _

/-- A request with a header `etag: x` in its response, which the slot points to, and one that is
cleared. -/
def etagHost : Host plainWorld :=
  { plainHost (phaseCapabilities .content) with
    request := some {
      headersIn := []
      headersOut := {
        headers := [⟨0, ascii "etag", [], []⟩, ⟨1, ascii "etag", [120], []⟩]
        slots := Function.update (fun _ => none) .etag (some 1) }
      vars := ()
      pool := ⟨fun _ _ => true, 0⟩
      headerOnly := false
      isMain := true
      upstream := false
      subrequestBufferSize := 0
      state := none
      accepted := [] } }

/-- `ETag` is set to `v`. -/
theorem header_set_then_get_etag :
    let m : Mem := ⟨true, 65536, fun a => ([69, 84, 97, 103, 118] : Bytes).getD a 0⟩
    (reqSetHeader ⟨0, 4⟩ ⟨4, 1⟩ etagHost m).host.SlotsBear ∧
      (respSetHeader ⟨0, 4⟩ ⟨4, 1⟩ etagHost m).host.SlotsBear ∧
      GetterSees reqGetHeader capReqHeadersRo (ascii "ETag") [118] etagHost
        (reqSetHeader ⟨0, 4⟩ ⟨4, 1⟩ etagHost m).host ∧
      GetterSees respGetHeader capRespHeadersRw (ascii "ETag") [118] etagHost
        (respSetHeader ⟨0, 4⟩ ⟨4, 1⟩ etagHost m).host := by
  intro m
  have hb : etagHost.SlotsBear := by
    intro r hr s i hi
    obtain rfl := Option.some.inj hr
    by_cases hs : s = .etag
    · subst hs
      obtain rfl : 1 = i := Option.some.inj hi
      exact ⟨_, rfl, by decide⟩
    · have hnone : Function.update (fun _ => none) Slot.etag (some 1) s = some i := hi
      rw [Function.update_of_ne hs] at hnone
      cases hnone
  obtain ⟨hreq, hresp, hin, hout⟩ := header_set_then_get plainWorld ⟨0, 4⟩ ⟨4, 1⟩ etagHost m
  exact ⟨hreq hb, hresp hb, hin (by decide) (by decide +kernel),
    hout hb (by decide) (by decide +kernel) (by decide)⟩

end NgxWasm.Abi
