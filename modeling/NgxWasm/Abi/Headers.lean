import NgxWasm.Abi.Response

/-!
# Setting a header of the response (`src/ngx_http_wasm_abi.c`)

The list of `headers_out` holds one header for each name, and a slot points to the one with its name
(`Tidy`). This is so of an empty list, and a setter that succeeds keeps it; it is not so where another
module adds a header twice, and for such lists there is `Abi.SetGet`.

* `respHeaderSlot_iff`: which names find their slot. Four stand under the length of others in the
  source, and never do.
* `lookup_upsert`: a list in which a name is set or added gives that value for it, and for any other
  name what it gave before.
* `setRespHeader_header`: on a tidy list the two ways to set a header, by slot and by search, do the
  same. A call sets the one with the name or adds it (`upsert`), or there is no memory for it.
* `Tidy.upsert`: and the list stays tidy.

These are the lists of a response that only guests have written to, which is what the response of a
content handler starts from (`Abi.Described`). What a failed call leaves is in `Abi.HalfBuilt`.
-/

namespace NgxWasm.Abi

/-! ## Names -/

/-- The name of a slot. -/
def Slot.header : Slot → String
  | .date => "date"
  | .etag => "etag"
  | .link => "link"
  | .server => "server"
  | .expires => "expires"
  | .refresh => "refresh"
  | .location => "location"
  | .cacheControl => "cache-control"
  | .contentLength => "content-length"
  | .contentRange => "content-range"
  | .lastModified => "last-modified"
  | .acceptRanges => "accept-ranges"
  | .contentEncoding => "content-encoding"
  | .wwwAuthenticate => "www-authenticate"
  | .proxyAuthenticate => "proxy-authenticate"

theorem sameName_iff {a b : Bytes} :
    sameName a b = true ↔ a.length = b.length ∧ lowcase a = lowcase b := by
  simp [sameName]

theorem sameName_comm (a b : Bytes) : sameName a b = sameName b a := by
  rw [Bool.eq_iff_iff, sameName_iff, sameName_iff, eq_comm, @eq_comm _ (lowcase a)]

/-- Names that are the same are so to any third. -/
theorem sameName_congr {a b : Bytes} (h : sameName a b = true) (c : Bytes) :
    sameName a c = sameName b c := by
  obtain ⟨hlen, hlow⟩ := sameName_iff.mp h
  rw [Bool.eq_iff_iff, sameName_iff, sameName_iff, hlen, hlow]

/-- Four names are looked for among names of another length, and so never found: those of 13 bytes
among 14 and 15, and `www-authenticate` of 16 among 17. -/
def Slot.reached : Slot → Bool
  | .contentRange | .lastModified | .acceptRanges | .wwwAuthenticate => false
  | _ => true

theorem headerEq_length {name : Bytes} {literal : String} (h : headerEq name literal = true) :
    name.length = (ascii literal).length := (sameName_iff.mp h).1

/-- A slot is found by its name. -/
theorem respHeaderSlot_iff {name : Bytes} {s : Slot} :
    respHeaderSlot name = some s ↔ s.reached = true ∧ headerEq name s.header = true := by
  constructor
  · intro h
    unfold respHeaderSlot at h
    split at h
    all_goals rename_i hlen
    all_goals repeat' split at h
    all_goals cases h
    all_goals rename_i heq
    all_goals
      first
      | exact ⟨rfl, heq⟩
      | exact absurd (hlen.symm.trans (headerEq_length heq)) (by decide)
  · rintro ⟨hs, h⟩
    obtain ⟨hlen, hlow⟩ := sameName_iff.mp h
    cases s
    case contentRange | lastModified | acceptRanges | wwwAuthenticate => cases hs
    all_goals
      simp only [respHeaderSlot, headerEq, sameName, hlen, hlow]
      decide

/-- A name without a slot is not the same as one that has it. -/
theorem slot_congr {a b : Bytes} (h : sameName a b = true) : respHeaderSlot a = respHeaderSlot b := by
  refine Option.ext fun s => ?_
  rw [respHeaderSlot_iff, respHeaderSlot_iff, headerEq, headerEq, sameName_congr h]

/-- Names with one slot are the same. -/
theorem sameName_of_slot {a b : Bytes} {s : Slot} (hb : respHeaderSlot b = some s) :
    decide (respHeaderSlot a = some s) = sameName a b := by
  obtain ⟨hs, hb'⟩ := respHeaderSlot_iff.mp hb
  rw [Bool.eq_iff_iff, decide_eq_true_iff]
  constructor
  · intro ha
    rw [sameName_comm, sameName_congr hb', sameName_comm]
    exact (respHeaderSlot_iff.mp ha).2
  · exact fun h => (slot_congr h).trans hb

/-! ## The list of headers -/

/-- The value of a header. -/
def lookup (name : Bytes) (headers : List TableElt) : Option Bytes :=
  (headers.find? fun h => sameName h.key name).map TableElt.value

/-- A header is set: the one with its name, or a new one. -/
def upsert (name value : Bytes) (headers : List TableElt) : List TableElt :=
  match headers.findIdx? fun h => sameName h.key name with
  | some i => headers.modify i fun h => { h with value := value }
  | none => headers ++ [{ hash := 1, key := name, value := value }]

theorem upsert_nil (name value : Bytes) :
    upsert name value [] = [{ hash := 1, key := name, value := value }] := rfl

theorem upsert_cons (name value : Bytes) (h : TableElt) (hs : List TableElt) :
    upsert name value (h :: hs) =
      if sameName h.key name then { h with value := value } :: hs else h :: upsert name value hs := by
  unfold upsert
  rw [List.findIdx?_cons]
  cases sameName h.key name with
  | true => rfl
  | false => cases hs.findIdx? fun h => sameName h.key name <;> rfl

theorem lookup_cons (name : Bytes) (h : TableElt) (hs : List TableElt) :
    lookup name (h :: hs) = if sameName h.key name then some h.value else lookup name hs := by
  unfold lookup
  rw [List.find?_cons]
  cases sameName h.key name <;> rfl

/-- **The last value given** is the one that is there. -/
theorem lookup_upsert (name other value : Bytes) (headers : List TableElt) :
    lookup other (upsert name value headers) =
      if sameName name other then some value else lookup other headers := by
  induction headers with
  | nil => rw [upsert_nil, lookup_cons]
  | cons h hs ih =>
    rw [upsert_cons, lookup_cons]
    cases hn : sameName h.key name with
    | true =>
      rw [if_pos rfl, lookup_cons]
      dsimp only
      rw [sameName_congr hn]
      split <;> rfl
    | false =>
      rw [if_neg nofun, lookup_cons, ih]
      cases ho : sameName h.key other with
      | false => rfl
      | true =>
        have : sameName name other = false := by
          rw [sameName_comm, ← sameName_congr ho, hn]
        simp [this]

theorem keys_upsert (name value : Bytes) (headers : List TableElt) :
    (upsert name value headers).map TableElt.key =
      headers.map TableElt.key ++ if (lookup name headers).isSome then [] else [name] := by
  induction headers with
  | nil => rfl
  | cons h hs ih =>
    rw [upsert_cons, lookup_cons]
    cases sameName h.key name with
    | true => simp
    | false =>
      simp only [Bool.false_eq_true, if_false, List.map_cons, ih, List.cons_append]

/-- A header that is alone with its name is the one that is found. -/
theorem lookup_of_mem {name : Bytes} {headers : List TableElt} {h : TableElt}
    (hd : headers.Pairwise fun a b => sameName a.key b.key = false) (hm : h ∈ headers)
    (hn : sameName h.key name = true) : lookup name headers = some h.value := by
  induction headers with
  | nil => cases hm
  | cons g gs ih =>
    obtain ⟨hg, hgs⟩ := List.pairwise_cons.mp hd
    rw [lookup_cons]
    rcases List.mem_cons.mp hm with rfl | hm
    · rw [if_pos hn]
    · have hne : sameName g.key name = false := by
        rw [sameName_comm, ← sameName_congr hn, sameName_comm]
        exact hg h hm
      rw [if_neg (by simp [hne])]
      exact ih hgs hm

theorem exists_of_lookup {name value : Bytes} {headers : List TableElt}
    (h : lookup name headers = some value) :
    ∃ elt ∈ headers, sameName elt.key name = true ∧ elt.value = value := by
  obtain ⟨elt, hf, rfl⟩ := Option.map_eq_some_iff.mp h
  have hn := List.find?_some hf
  exact ⟨elt, List.mem_of_find?_eq_some hf, hn, rfl⟩

/-- A response list as the guest's calls leave it. -/
structure Tidy (out : HeadersOut) : Prop where
  hash : ∀ h ∈ out.headers, h.hash = 1
  distinct : out.headers.Pairwise fun a b => sameName a.key b.key = false
  slots : ∀ s, out.slots s = (out.headers.map TableElt.key).findIdx? fun key =>
    decide (respHeaderSlot key = some s)

theorem Tidy.of_eq {out out' : HeadersOut} (ht : Tidy out) (hheaders : out'.headers = out.headers)
    (hslots : out'.slots = out.slots) : Tidy out' :=
  ⟨hheaders ▸ ht.hash, hheaders ▸ ht.distinct, by rw [hheaders, hslots]; exact ht.slots⟩

theorem hash_upsert {name value : Bytes} {headers : List TableElt}
    (hh : ∀ h ∈ headers, h.hash = 1) : ∀ h ∈ upsert name value headers, h.hash = 1 := by
  induction headers with
  | nil =>
    rw [upsert_nil]
    simp
  | cons g gs ih =>
    obtain ⟨hg, hgs⟩ := List.forall_mem_cons.mp hh
    rw [upsert_cons]
    split
    · exact List.forall_mem_cons.mpr ⟨hg, hgs⟩
    · exact List.forall_mem_cons.mpr ⟨hg, ih hgs⟩

theorem distinct_upsert {name value : Bytes} {headers : List TableElt}
    (hd : headers.Pairwise fun a b => sameName a.key b.key = false) :
    (upsert name value headers).Pairwise fun a b => sameName a.key b.key = false := by
  have hkeys : (headers.map TableElt.key).Pairwise fun a b => sameName a b = false :=
    List.pairwise_map.mpr hd
  suffices h : ((upsert name value headers).map TableElt.key).Pairwise fun a b =>
      sameName a b = false from List.pairwise_map.mp h
  rw [keys_upsert]
  split
  · rwa [List.append_nil]
  · rename_i hnone
    refine List.pairwise_append.mpr ⟨hkeys, List.pairwise_singleton _ _, fun key hkey b hb => ?_⟩
    obtain rfl := List.mem_singleton.mp hb
    obtain ⟨h, hm, rfl⟩ := List.mem_map.mp hkey
    rw [Bool.eq_false_iff]
    intro hsame
    exact hnone (by rw [lookup_of_mem hd hm hsame]; rfl)

/-! ## What setting a header does -/

/-- **Setting a header by its slot**: the slot is where the header with its name is. -/
theorem findIdx?_slot {name : Bytes} {s : Slot} {out : HeadersOut} (ht : Tidy out)
    (hs : respHeaderSlot name = some s) :
    out.slots s = out.headers.findIdx? fun h => sameName h.key name := by
  rw [ht.slots, List.findIdx?_map]
  refine congrArg (fun p => List.findIdx? p out.headers) (funext fun h => ?_)
  exact sameName_of_slot hs

theorem findRespHeader_eq (name : Bytes) {headers : List TableElt}
    (hh : ∀ h ∈ headers, h.hash = 1) :
    findRespHeader name headers = headers.findIdx? fun h => sameName h.key name := by
  unfold findRespHeader
  induction headers with
  | nil => rfl
  | cons g gs ih =>
    obtain ⟨hg, hgs⟩ := List.forall_mem_cons.mp hh
    rw [List.findIdx?_cons, List.findIdx?_cons, ih hgs, hg]
    rfl

theorem modify_last {α : Type} (l : List α) (a : α) (f : α → α) :
    (l ++ [a]).modify l.length f = l ++ [f a] := by
  induction l with
  | nil => rfl
  | cons b l ih => exact congrArg (b :: ·) ih

/-- The hash of a header that is there is 1 already. -/
theorem modify_hash {headers : List TableElt} (hh : ∀ h ∈ headers, h.hash = 1) (i : Nat) :
    (headers.modify i fun h => { h with hash := 1 }) = headers := by
  induction headers generalizing i with
  | nil => exact List.modify_nil _ i
  | cons g gs ih =>
    obtain ⟨hg, hgs⟩ := List.forall_mem_cons.mp hh
    cases i with
    | zero => rw [List.modify_zero_cons, ← hg]
    | succ i => rw [List.modify_succ_cons, ih hgs]

/-- A list that stays tidy: the header is set, and its slot points to it. -/
theorem Tidy.upsert {name value : Bytes} {out out' : HeadersOut} (ht : Tidy out)
    (hheaders : out'.headers = Abi.upsert name value out.headers)
    (hslots : ∀ s, out'.slots s =
      (out.slots s).or (if respHeaderSlot name = some s then some out.headers.length else none)) :
    Tidy out' := by
  refine ⟨hheaders ▸ hash_upsert ht.hash, hheaders ▸ distinct_upsert ht.distinct, fun s => ?_⟩
  rw [hslots, hheaders, keys_upsert, List.findIdx?_append, ← ht.slots]
  cases hl : lookup name out.headers with
  | none =>
    by_cases hs : respHeaderSlot name = some s <;> simp [hs]
  | some v =>
    by_cases hs : respHeaderSlot name = some s
    · obtain ⟨elt, hm, hn, -⟩ := exists_of_lookup hl
      have hsome : (out.slots s).isSome := by
        rw [findIdx?_slot ht hs, List.findIdx?_isSome, List.any_eq_true]
        exact ⟨elt, hm, hn⟩
      obtain ⟨i, hi⟩ := Option.isSome_iff_exists.mp hsome
      simp [hi]
    · simp [hs]

variable {V : Variables} {parseHttpTime : Bytes → Int}

/-- `Content-Type` stays out of the list. -/
theorem setRespHeader_type (parseHttpTime : Bytes → Int) {name : Bytes} (value : Bytes)
    (r : Request V) (hn : headerEq name "content-type" = true) :
    (setRespHeader parseHttpTime name value r).2.headersOut.headers = r.headersOut.headers ∧
      (setRespHeader parseHttpTime name value r).2.headersOut.slots = r.headersOut.slots := by
  unfold setRespHeader respSetCachedHeader setStr
  rw [hn, Bool.true_or, if_pos rfl, if_pos rfl]
  split
  · rename_i heq
    obtain ⟨-, rfl⟩ := Prod.mk.inj heq
    exact ⟨rfl, rfl⟩
  · rename_i heq
    obtain ⟨-, rfl⟩ := Prod.mk.inj heq
    exact ⟨rfl, rfl⟩

theorem derive_headers (parseHttpTime : Bytes → Int) (out : HeadersOut) (s : Slot) (value : Bytes) :
    (out.derive parseHttpTime s value).headers = out.headers ∧
      (out.derive parseHttpTime s value).slots = out.slots := by
  cases s <;> exact ⟨rfl, rfl⟩

theorem pushHeader_true {name : Bytes} {headers hs : List TableElt} {p p' : Pool}
    (h : pushHeader name headers p = (true, hs, p')) : hs = headers ++ [{ key := name }] := by
  unfold pushHeader at h
  split at h
  · cases h
  · split at h
    · cases h
    · exact (Prod.mk.inj (Prod.mk.inj h).2).1.symm

/-- A header that is new gets its hash and its value. -/
theorem upsert_pushed {name value : Bytes} {headers : List TableElt}
    (hnone : (headers.findIdx? fun h => sameName h.key name) = none) :
    let pushed : List TableElt := headers ++ [{ key := name }]
    ((pushed.modify (pushed.length - 1) fun h => { h with hash := 1 }).modify (pushed.length - 1)
      fun h => { h with value := value }) = upsert name value headers := by
  have hlast : (headers ++ [({ key := name } : TableElt)]).length - 1 = headers.length := by simp
  dsimp only
  rw [hlast, modify_last, modify_last, upsert, hnone]

theorem upsert_found {name value : Bytes} {headers : List TableElt} {i : Nat}
    (hsome : (headers.findIdx? fun h => sameName h.key name) = some i) :
    (headers.modify i fun h => { h with value := value }) = upsert name value headers := by
  rw [upsert, hsome]

theorem slotHeader_some {name : Bytes} (value : Bytes) {s : Slot} {out out' : HeadersOut} {p p' : Pool}
    {i : Nat} (ht : Tidy out) (hs : respHeaderSlot name = some s)
    (h : slotHeader s name out p = (some i, out', p')) :
    ((out'.headers.modify i fun h => { h with hash := 1 }).modify i fun h =>
        { h with value := value }) = upsert name value out.headers ∧
      ∀ t, out'.slots t =
        (out.slots t).or (if respHeaderSlot name = some t then some out.headers.length else none) := by
  have hfound := findIdx?_slot ht hs
  unfold slotHeader at h
  split at h
  · rename_i j hj
    obtain ⟨hi, hrest⟩ := Prod.mk.inj h
    obtain ⟨rfl, -⟩ := Prod.mk.inj hrest
    obtain rfl := Option.some.inj hi
    refine ⟨by rw [modify_hash ht.hash, upsert_found (hfound.symm.trans hj)], fun t => ?_⟩
    by_cases hst : respHeaderSlot name = some t
    · obtain rfl := Option.some.inj (hs.symm.trans hst)
      rw [hj]
      rfl
    · rw [if_neg hst, Option.or_none]
  · rename_i hj
    split at h
    · cases h
    · rename_i headers p₁ hpush
      obtain ⟨hi, hrest⟩ := Prod.mk.inj h
      obtain ⟨rfl, -⟩ := Prod.mk.inj hrest
      obtain rfl := Option.some.inj hi
      obtain rfl := pushHeader_true hpush
      refine ⟨upsert_pushed (hfound.symm.trans hj), fun t => ?_⟩
      dsimp only
      by_cases hst : respHeaderSlot name = some t
      · obtain rfl := Option.some.inj (hs.symm.trans hst)
        rw [Function.update_self, hj, if_pos hst]
        simp
      · have hne : t ≠ s := by
          rintro rfl
          exact hst hs
        rw [Function.update_of_ne hne, if_neg hst, Option.or_none]

theorem findOrPush_some {name value : Bytes} {headers hs : List TableElt} {p p' : Pool} {i : Nat}
    (hh : ∀ h ∈ headers, h.hash = 1) (h : findOrPush name headers p = (some i, hs, p')) :
    (hs.modify i fun h => { h with value := value }) = upsert name value headers := by
  have hfound := findRespHeader_eq name hh
  unfold findOrPush at h
  split at h
  · rename_i j hj
    obtain ⟨hi, hrest⟩ := Prod.mk.inj h
    obtain ⟨rfl, -⟩ := Prod.mk.inj hrest
    obtain rfl := Option.some.inj hi
    exact upsert_found (hfound.symm.trans hj)
  · rename_i hj
    split at h
    · cases h
    · rename_i hs₁ p₁ hpush
      obtain ⟨hi, hrest⟩ := Prod.mk.inj h
      obtain ⟨rfl, -⟩ := Prod.mk.inj hrest
      obtain rfl := Option.some.inj hi
      obtain rfl := pushHeader_true hpush
      exact upsert_pushed (hfound.symm.trans hj)

theorem copyValue_true {i : Nat} {value : Bytes} {headers hs : List TableElt} {p p' : Pool}
    (h : copyValue i value headers p = (true, hs, p')) :
    hs = headers.modify i fun h => { h with value := value } := by
  unfold copyValue at h
  split at h
  · exact (Prod.mk.inj (Prod.mk.inj h).2).1.symm
  · cases h

/-- What a successful setter makes of `out`, for a name other than `Content-Type`. -/
inductive RespHeaderSet (parseHttpTime : Bytes → Int) (name value : Bytes) (out : HeadersOut) (p : Pool) :
    HeadersOut → Prop
  | slot {s : Slot} {i : Nat} {out₁ : HeadersOut} {p₁ : Pool} (hs : respHeaderSlot name = some s)
      (hslot : slotHeader s name out p = (some i, out₁, p₁)) :
      RespHeaderSet parseHttpTime name value out p
        (HeadersOut.derive parseHttpTime { out₁ with
          headers := (out₁.headers.modify i fun h => { h with hash := 1 }).modify i
            fun h => { h with value := value } } s value)
  | search {i : Nat} {headers : List TableElt} {p₁ : Pool} (hs : respHeaderSlot name = none)
      (hfind : findOrPush name out.headers p = (some i, headers, p₁)) :
      RespHeaderSet parseHttpTime name value out p
        { out with headers := headers.modify i fun h => { h with value := value } }

/-- **A call that succeeds** goes by the slot of the name, or by a search. -/
theorem setRespHeader_ok {name value : Bytes} {r : Request V}
    (hn : headerEq name "content-type" = false)
    (hok : (setRespHeader parseHttpTime name value r).1 = wasmOk) :
    RespHeaderSet parseHttpTime name value r.headersOut r.pool
      (setRespHeader parseHttpTime name value r).2.headersOut := by
  revert hok
  unfold setRespHeader
  cases hs : respHeaderSlot name with
  | some s =>
    rw [hn, Option.isSome_some, Bool.false_or, if_pos rfl, respSetCachedHeader, hn,
      if_neg nofun, hs]
    dsimp only
    split
    · exact nofun
    · rename_i i out p hslot
      split
      · exact nofun
      · rename_i headers p' hcopy
        intro _
        obtain rfl := copyValue_true hcopy
        exact .slot hs hslot
  | none =>
    rw [hn, Option.isSome_none, Bool.false_or, if_neg nofun]
    split
    · exact nofun
    · rename_i i headers p hfind
      split
      rename_i ok headers' p' hcopy
      cases ok with
      | false => exact nofun
      | true =>
        intro _
        obtain rfl := copyValue_true hcopy
        exact .search hs hfind

/-- **A header is set**: what a successful call leaves of the list. -/
theorem setRespHeader_header {name value : Bytes} {r : Request V} (ht : Tidy r.headersOut)
    (hn : headerEq name "content-type" = false)
    (hok : (setRespHeader parseHttpTime name value r).1 = wasmOk) :
    (setRespHeader parseHttpTime name value r).2.headersOut.headers =
        upsert name value r.headersOut.headers ∧
      Tidy (setRespHeader parseHttpTime name value r).2.headersOut := by
  suffices h : (setRespHeader parseHttpTime name value r).2.headersOut.headers =
        upsert name value r.headersOut.headers ∧
      ∀ t, (setRespHeader parseHttpTime name value r).2.headersOut.slots t =
        (r.headersOut.slots t).or
          (if respHeaderSlot name = some t then some r.headersOut.headers.length else none) from
    ⟨h.1, ht.upsert h.1 h.2⟩
  have hset := setRespHeader_ok hn hok
  generalize (setRespHeader parseHttpTime name value r).2.headersOut = out' at hset ⊢
  cases hset with
  | @slot s i out p hs hslot =>
    obtain ⟨hheaders, hslots⟩ := slotHeader_some value ht hs hslot
    obtain ⟨hd, hds⟩ := derive_headers parseHttpTime { out with
      headers := (out.headers.modify i fun h => { h with hash := 1 }).modify i
        fun h => { h with value := value } } s value
    rw [hd, hds]
    exact ⟨hheaders, hslots⟩
  | search hs hfind =>
    refine ⟨findOrPush_some ht.hash hfind, fun t => ?_⟩
    rw [hs, if_neg nofun, Option.or_none]

theorem setRespHeader_rc (parseHttpTime : Bytes → Int) (name value : Bytes) (r : Request V) :
    (setRespHeader parseHttpTime name value r).1 = wasmOk ∨
      (setRespHeader parseHttpTime name value r).1 = wasmError := by
  unfold setRespHeader
  split
  · unfold respSetCachedHeader
    split
    · split
      · exact .inr rfl
      · exact .inl rfl
    · split
      · exact .inr rfl
      · split
        · exact .inr rfl
        · dsimp only
          split
          · exact .inr rfl
          · exact .inl rfl
  · split
    · exact .inr rfl
    · split
      rename_i ok _ _ _
      cases ok with
      | false => exact .inr rfl
      | true => exact .inl rfl

end NgxWasm.Abi
