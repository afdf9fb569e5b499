import NgxWasm.Abi.Setters

/-!
# Setters that fail (`src/ngx_http_wasm_abi.c`)

A setter pushes its new entry into the list first, and then fills it in, each field in memory of its
own. If one of these allocations fails the entry stays, half built. On a slot that holds a cleared
header, the header is live again before its value is copied.

There are three setters, of the request, of the response and of the headers staged for a subrequest.
What each leaves after a failure is one lemma, for a pool that grants and refuses whatever it likes.

* `setHeaderIn_fails`, `setRespHeader_fails`, `subrequestSetHeader_fails`: the list is the same, or has
  a new entry, or has a header marked as live.
* `Disturbs`: the calls that would do so, told from the lists and the pool before the call.
* `failed_setter_unchanged_iff`: all others leave the headers of the request, of the response with its
  slots, and those staged for a subrequest as they were.

What counts as unchanged is what nginx and the guest see of a header (`TableElt.entry`): whether it is
live, its name and its value.

No setter takes anything back. So it is enough for `Disturbs` to say whether the call would get as far
as its push, or as the mark on a cleared header, which a test of the list and one or two answers of the
pool decide; where it fails after that makes no difference.
-/

namespace NgxWasm.Abi

variable {V : Variables} {W : World} {parseHttpTime : Bytes → Int}

/-! ## Lists that change -/

/-- A header as nginx and the guest see it: whether it is live, its name and its value. -/
def TableElt.entry (h : TableElt) : Bool × Bytes × Bytes := (h.hash != 0, h.key, h.value)

/-- A header that is marked as live: nothing to see if it was. -/
theorem entries_revive (hs : List TableElt) (i : Nat) :
    (hs.modify i fun h => { h with hash := 1 }).map TableElt.entry = hs.map TableElt.entry ↔
      ¬ ∃ h, hs[i]? = some h ∧ h.hash = 0 := by
  constructor
  · rintro heq ⟨h, hi, hdead⟩
    have hentry : ((hs.modify i fun h => { h with hash := 1 }).map TableElt.entry)[i]? =
        (hs.map TableElt.entry)[i]? := by rw [heq]
    rw [List.getElem?_map, List.getElem?_map, List.getElem?_modify_eq, hi] at hentry
    have hlive : (true, h.key, h.value) = h.entry := Option.some.inj hentry
    rw [TableElt.entry, hdead] at hlive
    cases hlive
  · intro hlive
    refine List.ext_getElem? fun j => ?_
    rw [List.getElem?_map, List.getElem?_map]
    by_cases hji : j = i
    · rw [hji, List.getElem?_modify_eq]
      cases hi : hs[i]? with
      | none => rfl
      | some h =>
        have hne : h.hash ≠ 0 := fun hdead => hlive ⟨h, hi, hdead⟩
        have hbne : (h.hash != 0) = true := bne_iff_ne.mpr hne
        simp only [Option.map_some, TableElt.entry, hbne]
        rfl
    · rw [List.getElem?_modify_ne _ hs (Ne.symm hji)]

/-- A list that has grown is not what it was. -/
theorem entries_append_ne {α β : Type} (f : α → β) (hs : List α) (g : α) :
    (hs ++ [g]).map f ≠ hs.map f := by
  intro heq
  have hlen := congrArg List.length heq
  simp at hlen

/-- How a push ends: the pool refuses the entry, or the list has a new one. -/
theorem pushHeader_cases (name : Bytes) (hs : List TableElt) (p : Pool) :
    ((p.alloc tableEltSize).1 = false ∧ (pushHeader name hs p).1 = false ∧
        (pushHeader name hs p).2.1 = hs) ∨
      ((p.alloc tableEltSize).1 = true ∧ ∃ g, (pushHeader name hs p).2.1 = hs ++ [g]) := by
  unfold pushHeader
  split
  · rename_i halloc
    exact .inl ⟨by rw [halloc], rfl, rfl⟩
  · rename_i halloc
    refine .inr ⟨by rw [halloc], ?_⟩
    split <;> exact ⟨_, rfl⟩

theorem copyValue_false {i : Nat} {value : Bytes} {hs hs' : List TableElt} {p p' : Pool}
    (h : copyValue i value hs p = (false, hs', p')) : hs' = hs := by
  unfold copyValue at h
  split at h
  · cases h
  · exact (Prod.mk.inj (Prod.mk.inj h).2).1.symm

/-! ## The setter of the request -/

/-- A call of the setter would push a header: it is not there, and the pool has the memory. -/
def reqDisturbs (name : Bytes) (r : Request V) : Prop :=
  findHeader name r.headersIn = none ∧ (r.pool.alloc tableEltSize).1 = true

/-- **A failure**: the list is the same, or has a new entry. -/
theorem setHeaderIn_fails {name value : Bytes} {hs hs' : List TableElt} {p p' : Pool}
    (h : setHeaderIn name value hs p = (false, hs', p')) :
    (hs' = hs ∧ ¬ (findHeader name hs = none ∧ (p.alloc tableEltSize).1 = true)) ∨
      ((findHeader name hs = none ∧ (p.alloc tableEltSize).1 = true) ∧ ∃ g, hs' = hs ++ [g]) := by
  unfold setHeaderIn at h
  split at h
  · rename_i i hfind
    refine .inl ⟨copyValue_false h, fun hd => ?_⟩
    rw [hfind] at hd
    cases hd.1
  · rename_i hfind
    rcases pushHeader_cases name hs p with ⟨hrefused, hfalse, hsame⟩ | ⟨hgranted, g, hpushed⟩
    · refine .inl ⟨?_, fun hd => Bool.false_ne_true (hrefused.symm.trans hd.2)⟩
      split at h
      · rename_i heq
        rw [heq] at hsame
        cases h
        exact hsame
      · rename_i heq
        rw [heq] at hfalse
        cases hfalse
    · refine .inr ⟨⟨hfind, hgranted⟩, ?_⟩
      split at h
      · rename_i heq
        rw [heq] at hpushed
        cases h
        exact ⟨g, hpushed⟩
      · rename_i heq
        rw [heq] at hpushed
        dsimp only at hpushed
        obtain rfl := hpushed
        split at h
        · cases h
          exact ⟨g, rfl⟩
        · rw [copyValue_false h, modify_pushed]
          exact ⟨_, rfl⟩

/-! ## The setter of the response -/

/-- A call of the setter would push a header, or bring a cleared one back to life. -/
def respDisturbs (name : Bytes) (r : Request V) : Prop :=
  headerEq name "content-type" = false ∧
    match respTarget name r.headersOut with
    | some i => ∃ h, r.headersOut.headers[i]? = some h ∧ h.hash = 0
    | none => (r.pool.alloc tableEltSize).1 = true

theorem respDisturbs_found {name : Bytes} {r : Request V} {i : Nat}
    (hn : headerEq name "content-type" = false) (ht : respTarget name r.headersOut = some i) :
    respDisturbs name r ↔ ∃ h, r.headersOut.headers[i]? = some h ∧ h.hash = 0 := by
  unfold respDisturbs
  rw [hn, ht]
  exact and_iff_right rfl

theorem respDisturbs_missing {name : Bytes} {r : Request V}
    (hn : headerEq name "content-type" = false) (ht : respTarget name r.headersOut = none) :
    respDisturbs name r ↔ (r.pool.alloc tableEltSize).1 = true := by
  unfold respDisturbs
  rw [hn, ht]
  exact and_iff_right rfl

/-- The response list and its slots after a failure. -/
structure RespFailed (name : Bytes) (r : Request V) (out : HeadersOut) : Prop where
  same : ¬ respDisturbs name r →
    out.headers.map TableElt.entry = r.headersOut.headers.map TableElt.entry ∧
      out.slots = r.headersOut.slots
  changed : respDisturbs name r →
    out.headers.map TableElt.entry ≠ r.headersOut.headers.map TableElt.entry

theorem RespFailed.of_same {name : Bytes} {r : Request V} {out : HeadersOut}
    (hd : ¬ respDisturbs name r) (hheaders : out.headers = r.headersOut.headers)
    (hslots : out.slots = r.headersOut.slots) : RespFailed name r out where
  same _ := ⟨by rw [hheaders], hslots⟩
  changed h := absurd h hd

theorem RespFailed.of_pushed {name : Bytes} {r : Request V} {out : HeadersOut}
    (hd : respDisturbs name r) (g : TableElt) (hheaders : out.headers = r.headersOut.headers ++ [g]) :
    RespFailed name r out where
  same h := absurd hd h
  changed _ := by
    rw [hheaders]
    exact entries_append_ne _ _ _

/-- A header that is there is marked as live, and no more. -/
theorem RespFailed.of_found {name : Bytes} {r : Request V} {out : HeadersOut} {i : Nat}
    (hd : respDisturbs name r ↔ ∃ h, r.headersOut.headers[i]? = some h ∧ h.hash = 0)
    (hheaders : out.headers = r.headersOut.headers.modify i fun h => { h with hash := 1 })
    (hslots : out.slots = r.headersOut.slots) : RespFailed name r out where
  same h := by
    rw [hheaders]
    exact ⟨(entries_revive _ i).mpr fun he => h (hd.mpr he), hslots⟩
  changed h := by
    rw [hheaders]
    exact fun heq => (entries_revive _ i).mp heq (hd.mp h)

/-- **The slot's header is missing**: a push that fails, or one whose key or value fails after it. -/
theorem slotHeader_missing {name : Bytes} {s : Slot} {out : HeadersOut} (hj : out.slots s = none)
    (p : Pool) :
    ((p.alloc tableEltSize).1 = false ∧ ∃ p', slotHeader s name out p = (none, out, p')) ∨
      ((p.alloc tableEltSize).1 = true ∧
        ∃ g, (slotHeader s name out p).2.1.headers = out.headers ++ [g] ∧
          ∀ i, (slotHeader s name out p).1 = some i → i = (out.headers ++ [g]).length - 1) := by
  unfold slotHeader
  rw [hj]
  dsimp only
  rcases pushHeader_cases name out.headers p with ⟨hrefused, hfalse, hsame⟩ | ⟨hgranted, g, hpushed⟩
  · refine .inl ⟨hrefused, ?_⟩
    split
    · rename_i heq
      rw [heq] at hsame
      dsimp only at hsame
      rw [hsame]
      exact ⟨_, rfl⟩
    · rename_i heq
      rw [heq] at hfalse
      cases hfalse
  · refine .inr ⟨hgranted, g, ?_⟩
    split
    · rename_i heq
      rw [heq] at hpushed
      exact ⟨hpushed, fun i hi => absurd hi (Option.some_ne_none i).symm⟩
    · rename_i heq
      rw [heq] at hpushed
      dsimp only at hpushed
      rw [hpushed]
      exact ⟨rfl, fun i hi => (Option.some.inj hi).symm⟩

/-- **A failure by slot.** -/
theorem respSetCachedHeader_fails {name value : Bytes} {r : Request V} {s : Slot}
    (hs : respHeaderSlot name = some s)
    (herr : (respSetCachedHeader parseHttpTime name value r).1 = wasmError) :
    RespFailed name r (respSetCachedHeader parseHttpTime name value r).2.headersOut := by
  have hn := not_contentType_of_slot hs
  revert herr
  unfold respSetCachedHeader
  rw [hn, if_neg Bool.false_ne_true, hs]
  dsimp only
  cases hj : r.headersOut.slots s with
  | some j =>
    have hd := respDisturbs_found hn ((respTarget_slot hs r.headersOut).trans hj)
    unfold slotHeader
    rw [hj]
    dsimp only
    split
    · rename_i hcopy
      intro _
      exact .of_found hd (copyValue_false hcopy) rfl
    · exact fun h => absurd h.symm wasmError_ne_wasmOk
  | none =>
    have hd := respDisturbs_missing hn ((respTarget_slot hs r.headersOut).trans hj)
    rcases slotHeader_missing hj r.pool with ⟨hrefused, p', heq⟩ | ⟨hgranted, g, hpushed, hlast⟩
    · rw [heq]
      intro _
      refine .of_same ?_ rfl rfl
      rw [hd, hrefused]
      exact Bool.false_ne_true
    · split
      · rename_i heq
        rw [heq] at hpushed
        exact fun _ => .of_pushed (hd.mpr hgranted) g hpushed
      · rename_i i out p heq
        rw [heq] at hpushed hlast
        dsimp only at hpushed
        split
        · rename_i hcopy
          intro _
          refine .of_pushed (hd.mpr hgranted) { g with hash := 1 } ?_
          dsimp only
          rw [copyValue_false hcopy, hpushed, hlast i rfl, modify_pushed]
        · exact fun h => absurd h.symm wasmError_ne_wasmOk

/-- **A failure of the setter of the response.** -/
theorem setRespHeader_fails {name value : Bytes} {r : Request V}
    (herr : (setRespHeader parseHttpTime name value r).1 = wasmError) :
    RespFailed name r (setRespHeader parseHttpTime name value r).2.headersOut := by
  cases hn : headerEq name "content-type" with
  | true =>
    obtain ⟨hheaders, hslots⟩ := setRespHeader_type parseHttpTime value r hn
    exact .of_same (fun hd => Bool.false_ne_true (hd.1.symm.trans hn)) hheaders hslots
  | false =>
    revert herr
    unfold setRespHeader
    cases hs : respHeaderSlot name with
    | some s =>
      rw [hn, Option.isSome_some, Bool.false_or, if_pos rfl]
      exact respSetCachedHeader_fails hs
    | none =>
      have ht := respTarget_search hn hs r.headersOut
      rw [hn, Option.isSome_none, Bool.false_or, if_neg Bool.false_ne_true]
      unfold findOrPush
      cases hfind : findRespHeader name r.headersOut.headers with
      | some i =>
        have hd := respDisturbs_found hn (ht.trans hfind)
        have hlive : ¬ ∃ h, r.headersOut.headers[i]? = some h ∧ h.hash = 0 := by
          rintro ⟨h, hi, hdead⟩
          obtain ⟨hlt, hp, -⟩ := List.findIdx?_eq_some_iff_getElem.mp hfind
          obtain rfl := Option.some.inj ((List.getElem?_eq_getElem hlt).symm.trans hi)
          rw [hdead] at hp
          cases hp
        dsimp only
        cases hcopy : copyValue i value r.headersOut.headers r.pool with
        | mk ok rest =>
          cases ok with
          | true => exact fun h => absurd h.symm wasmError_ne_wasmOk
          | false =>
            intro _
            exact .of_same (fun h => hlive (hd.mp h)) (copyValue_false hcopy) rfl
      | none =>
        have hd := respDisturbs_missing hn (ht.trans hfind)
        dsimp only
        rcases pushHeader_cases name r.headersOut.headers r.pool with
          ⟨hrefused, hfalse, hsame⟩ | ⟨hgranted, g, hpushed⟩
        · have hundisturbed : ¬ respDisturbs name r := by
            rw [hd, hrefused]
            exact Bool.false_ne_true
          cases hpush : pushHeader name r.headersOut.headers r.pool with
          | mk ok rest =>
            rw [hpush] at hfalse hsame
            obtain rfl : ok = false := hfalse
            intro _
            exact .of_same hundisturbed hsame rfl
        · cases hpush : pushHeader name r.headersOut.headers r.pool with
          | mk ok rest =>
            obtain ⟨hs', p'⟩ := rest
            rw [hpush] at hpushed
            dsimp only at hpushed
            cases ok with
            | false => exact fun _ => .of_pushed (hd.mpr hgranted) g hpushed
            | true =>
              dsimp only
              rw [hpushed, modify_pushed]
              cases hcopy : copyValue ((r.headersOut.headers ++ [g]).length - 1) value
                  (r.headersOut.headers ++ [{ g with hash := 1 }]) p' with
              | mk ok rest =>
                cases ok with
                | true => exact fun h => absurd h.symm wasmError_ne_wasmOk
                | false => exact fun _ => .of_pushed (hd.mpr hgranted) _ (copyValue_false hcopy)

/-! ## The setter of the staged headers -/

/-- The headers staged for the next subrequest. -/
def staged (r : Request V) : List (Bytes × Bytes) :=
  (r.state.bind SubrequestState.pendingHeaders).getD []

/-- The array and the place for a header in it are there. -/
def stagesEntry (st : SubrequestState) (p : Pool) : Bool :=
  match st.pendingHeaders with
  | some _ => (p.alloc subrequestHeaderSize).1
  | none => (p.alloc (2 * subrequestHeaderSize)).1 &&
      ((p.alloc (2 * subrequestHeaderSize)).2.alloc subrequestHeaderSize).1

/-- A call of the setter would stage a header. -/
def stagedDisturbs (r : Request V) : Prop :=
  ∃ st, r.state = some st ∧ st.active = false ∧ stagesEntry st r.pool = true

/-- The array is not there and cannot be created. -/
theorem stagesEntry_uncreated {st : SubrequestState} {p p' : Pool} {hs : List (Bytes × Bytes)}
    (h : (match st.pendingHeaders with
      | some headers => (true, headers, p)
      | none => ((p.alloc (2 * subrequestHeaderSize)).1, [], (p.alloc (2 * subrequestHeaderSize)).2)) =
        (false, hs, p')) : stagesEntry st p = false := by
  unfold stagesEntry
  cases hp : st.pendingHeaders with
  | some headers =>
    rw [hp] at h
    cases h
  | none =>
    rw [hp] at h
    dsimp only
    rw [(Prod.mk.inj h).1]
    rfl

theorem stagesEntry_created {st : SubrequestState} {p p' : Pool} {hs : List (Bytes × Bytes)}
    (h : (match st.pendingHeaders with
      | some headers => (true, headers, p)
      | none => ((p.alloc (2 * subrequestHeaderSize)).1, [], (p.alloc (2 * subrequestHeaderSize)).2)) =
        (true, hs, p')) :
    st.pendingHeaders.getD [] = hs ∧ stagesEntry st p = (p'.alloc subrequestHeaderSize).1 := by
  unfold stagesEntry
  cases hp : st.pendingHeaders with
  | some headers =>
    rw [hp] at h
    cases h
    exact ⟨rfl, rfl⟩
  | none =>
    rw [hp] at h
    obtain ⟨hok, hrest⟩ := Prod.mk.inj h
    obtain ⟨rfl, rfl⟩ := Prod.mk.inj hrest
    dsimp only
    rw [hok]
    exact ⟨rfl, Bool.true_and _⟩

/-- **A failure**: nothing is staged, or a header without its name or its value. -/
theorem subrequestSetHeader_fails {name value : Bytes} {r : Request V} (hname : name ≠ [])
    (herr : (subrequestSetHeader name value r).1 = wasmError) :
    (¬ stagedDisturbs r → staged (subrequestSetHeader name value r).2 = staged r) ∧
      (stagedDisturbs r → ∃ g, staged (subrequestSetHeader name value r).2 = staged r ++ [g]) := by
  revert herr
  unfold subrequestSetHeader
  rw [if_neg hname]
  cases hst : r.state with
  | none =>
    refine fun _ => ⟨fun _ => rfl, ?_⟩
    rintro ⟨st, hst', -⟩
    exact absurd (hst.symm.trans hst') (Option.some_ne_none st).symm
  | some st =>
    dsimp only
    cases hactive : st.active with
    | true =>
      rw [if_pos rfl]
      refine fun _ => ⟨fun _ => rfl, ?_⟩
      rintro ⟨st', hst', hidle, -⟩
      obtain rfl := Option.some.inj (hst.symm.trans hst')
      exact absurd (hactive.symm.trans hidle) (Bool.false_ne_true ·.symm)
    | false =>
      rw [if_neg Bool.false_ne_true]
      have hd : stagedDisturbs r ↔ stagesEntry st r.pool = true := by
        constructor
        · rintro ⟨st', hst', -, hstages⟩
          obtain rfl := Option.some.inj (hst.symm.trans hst')
          exact hstages
        · exact fun hstages => ⟨st, hst, hactive, hstages⟩
      have hstaged : staged r = st.pendingHeaders.getD [] := by
        unfold staged
        rw [hst]
        rfl
      rw [hd]
      split
      · rename_i heq
        rw [stagesEntry_uncreated heq]
        intro _
        exact ⟨fun _ => by rw [staged, staged, hst], fun h => absurd h Bool.false_ne_true⟩
      · rename_i headers p heq
        obtain ⟨hpending, hstages⟩ := stagesEntry_created heq
        rw [hstages, hstaged, hpending]
        split
        · rename_i halloc
          rw [halloc]
          exact fun _ => ⟨fun _ => rfl, fun h => absurd h Bool.false_ne_true⟩
        · rename_i halloc
          rw [halloc]
          split
          · exact fun _ => ⟨fun h => absurd rfl h, fun _ => ⟨_, rfl⟩⟩
          · split
            · exact fun _ => ⟨fun h => absurd rfl h, fun _ => ⟨_, rfl⟩⟩
            · exact fun h => absurd h.symm wasmError_ne_wasmOk

/-! ## The calls -/

/-- The headers a guest's call can change: those of the request, those of the response with their
slots, and those staged for a subrequest. -/
structure Contents where
  request : List (Bool × Bytes × Bytes)
  response : List (Bool × Bytes × Bytes)
  slots : Slot → Option Nat
  staged : List (Bytes × Bytes)

def contents (r : Request V) : Contents where
  request := r.headersIn.map TableElt.entry
  response := r.headersOut.headers.map TableElt.entry
  slots := r.headersOut.slots
  staged := staged r

def Host.contents (h : Host W) : Option Contents := h.request.map Abi.contents

/-- The call is allowed, and it would disturb the lists if it failed. -/
def Host.Disturbs (cap : UInt64) (name : Bytes) (p : Request W.vars → Prop) (h : Host W) : Prop :=
  ¬ h.abi.capabilities &&& cap = 0 ∧ name ≠ [] ∧ ∃ r, h.request = some r ∧ p r

/-- **From the request to the call**: what a failure leaves behind. -/
theorem CallsOn.failed_iff {f : Request W.vars → Int × Request W.vars} {cap : UInt64} {name : Bytes}
    {h : Host W} {m : Mem} {res : Result W} {p : Request W.vars → Prop}
    (hc : CallsOn f cap name h m res) (hrc : ∀ r, (f r).1 = wasmOk ∨ (f r).1 = wasmError)
    (hf : ∀ r, name ≠ [] → (f r).1 = wasmError → (Abi.contents (f r).2 = Abi.contents r ↔ ¬ p r))
    (herr : res.outcome = .ret (-2)) :
    res.host.contents = h.contents ↔ ¬ h.Disturbs cap name p := by
  rcases hc with ⟨hsame, -, hnot⟩ | ⟨hcap, hname, r, hr, rfl⟩
  · refine iff_of_true (congrArg Host.contents hsame) ?_
    rintro ⟨hcap, hname, r, hr, -⟩
    rcases hnot with hno | hno | hno
    · exact hcap hno
    · exact hname hno
    · exact Option.some_ne_none r (hr.symm.trans hno)
  · have hfail : (f r).1 = wasmError := ofInt_inj (hrc r) (.inr rfl) (Outcome.ret.inj herr)
    have hkept : h.contents = some (Abi.contents r) := congrArg (Option.map Abi.contents) hr
    have hdisturbs : h.Disturbs cap name p ↔ p r := by
      constructor
      · rintro ⟨-, -, r', hr', hp⟩
        obtain rfl := Option.some.inj (hr.symm.trans hr')
        exact hp
      · exact fun hp => ⟨hcap, hname, r, hr, hp⟩
    rw [hdisturbs, ← hf r hname hfail, hkept]
    exact ⟨Option.some.inj, congrArg some⟩

/-- A failure of the setter of the request. -/
theorem reqSet_failed_iff {name value : Bytes} {r : Request V}
    (herr : (reqSet name value r).1 = wasmError) :
    contents (reqSet name value r).2 = contents r ↔ ¬ reqDisturbs name r := by
  have hfails : (setHeaderIn name value r.headersIn r.pool).1 = false := by
    by_contra htrue
    unfold reqSet at herr
    rw [if_pos (Bool.not_eq_false _ ▸ htrue)] at herr
    exact wasmError_ne_wasmOk herr.symm
  rcases setHeaderIn_fails (Prod.ext hfails rfl :
    setHeaderIn name value r.headersIn r.pool = (false, _, _)) with ⟨hsame, hd⟩ | ⟨hd, g, hpushed⟩
  · refine iff_of_true ?_ hd
    unfold contents reqSet
    dsimp only at hsame ⊢
    rw [hsame]
    rfl
  · refine iff_of_false (fun heq => ?_) (not_not_intro hd)
    have hrequest := congrArg Contents.request heq
    unfold contents reqSet at hrequest
    dsimp only at hpushed hrequest
    rw [hpushed] at hrequest
    exact entries_append_ne _ _ _ hrequest

/-- Only the response list has changed. -/
theorem contents_response {r r' : Request V} (hin : r'.headersIn = r.headersIn)
    (hstate : r'.state = r.state) :
    contents r' = contents r ↔
      r'.headersOut.headers.map TableElt.entry = r.headersOut.headers.map TableElt.entry ∧
        r'.headersOut.slots = r.headersOut.slots := by
  unfold contents staged
  rw [hin, hstate, Contents.mk.injEq]
  constructor
  · exact fun h => ⟨h.2.1, h.2.2.1⟩
  · exact fun h => ⟨rfl, h.1, h.2, rfl⟩

/-- The setter of the response leaves the rest of the request alone. -/
theorem setRespHeader_frame (name value : Bytes) (r : Request V) :
    (setRespHeader parseHttpTime name value r).2.headersIn = r.headersIn ∧
      (setRespHeader parseHttpTime name value r).2.state = r.state := by
  unfold setRespHeader
  split
  · unfold respSetCachedHeader
    split
    · unfold setStr
      split <;> rename_i heq <;> obtain ⟨-, rfl⟩ := Prod.mk.inj heq <;> exact ⟨rfl, rfl⟩
    · split
      · exact ⟨rfl, rfl⟩
      · split
        · exact ⟨rfl, rfl⟩
        · dsimp only
          split <;> exact ⟨rfl, rfl⟩
  · split <;> exact ⟨rfl, rfl⟩

/-- A failure of the setter of the response. -/
theorem setRespHeader_failed_iff {name value : Bytes} {r : Request V}
    (herr : (setRespHeader parseHttpTime name value r).1 = wasmError) :
    contents (setRespHeader parseHttpTime name value r).2 = contents r ↔ ¬ respDisturbs name r := by
  obtain ⟨hin, hstate⟩ := @setRespHeader_frame _ parseHttpTime name value r
  obtain ⟨hsame, hchanged⟩ := setRespHeader_fails herr
  rw [contents_response hin hstate]
  exact ⟨fun h hd => hchanged hd h.1, hsame⟩

/-- Staging a header leaves the headers of the request and of the response alone. -/
theorem subrequestSetHeader_frame (name value : Bytes) (r : Request V) :
    (subrequestSetHeader name value r).2.headersIn = r.headersIn ∧
      (subrequestSetHeader name value r).2.headersOut = r.headersOut := by
  unfold subrequestSetHeader
  split
  · exact ⟨rfl, rfl⟩
  · split
    · exact ⟨rfl, rfl⟩
    · split
      · exact ⟨rfl, rfl⟩
      · dsimp only
        split
        · exact ⟨rfl, rfl⟩
        · split
          · exact ⟨rfl, rfl⟩
          · split
            · exact ⟨rfl, rfl⟩
            · split <;> exact ⟨rfl, rfl⟩

/-- A failure to stage a header. -/
theorem subrequestSetHeader_failed_iff {name value : Bytes} {r : Request V} (hname : name ≠ [])
    (herr : (subrequestSetHeader name value r).1 = wasmError) :
    contents (subrequestSetHeader name value r).2 = contents r ↔ ¬ stagedDisturbs r := by
  obtain ⟨hin, hout⟩ := subrequestSetHeader_frame name value r
  obtain ⟨hsame, hgrown⟩ := subrequestSetHeader_fails hname herr
  unfold contents
  rw [hin, hout, Contents.mk.injEq]
  constructor
  · rintro ⟨-, -, -, heq⟩ hd
    obtain ⟨g, hg⟩ := hgrown hd
    rw [hg] at heq
    exact List.cons_ne_nil g [] (List.append_cancel_left (heq.trans (List.append_nil _).symm))
  · exact fun hd => ⟨rfl, rfl, rfl, hsame hd⟩

/-- **What a failed setter leaves behind**: the headers of the request, of the response with their
slots, and those staged for a subrequest are the same as before, unless an entry was pushed or a
cleared one revived. -/
theorem failed_setter_unchanged_iff (W : World) (name value : Slice) (h : Host W) (m : Mem) :
    ((reqSetHeader name value h m).outcome = .ret (-2) →
      ((reqSetHeader name value h m).host.contents = h.contents ↔
        ¬ h.Disturbs capReqHeadersRw (m.read name) (reqDisturbs (m.read name)))) ∧
      ((respSetHeader name value h m).outcome = .ret (-2) →
        ((respSetHeader name value h m).host.contents = h.contents ↔
          ¬ h.Disturbs capRespHeadersRw (m.read name) (respDisturbs (m.read name)))) ∧
      ((subreqSetHeader name value h m).outcome = .ret (-2) →
        ((subreqSetHeader name value h m).host.contents = h.contents ↔
          ¬ h.Disturbs capSubrequest (m.read name) stagedDisturbs)) := by
  refine ⟨?_, ?_, ?_⟩
  · refine (reqSetHeader_calls name value h m).failed_iff (reqSet_rc _ _) fun r _ herr => ?_
    exact reqSet_failed_iff herr
  · refine (respSetHeader_calls name value h m).failed_iff (setRespHeader_rc _ _ _) fun r _ herr => ?_
    exact setRespHeader_failed_iff herr
  · refine (subreqSetHeader_calls name value h m).failed_iff (subrequestSetHeader_rc _ _)
      fun r hname herr => ?_
    exact subrequestSetHeader_failed_iff hname herr

/-- A request without headers, with a guest that may set them all, and a pool that grants its first
`n` allocations. -/
def poolHost (n : Nat) : Host plainWorld :=
  { plainHost (phaseCapabilities .content) with
    request := some {
      headersIn := []
      headersOut := {}
      vars := ()
      pool := ⟨fun i _ => decide (i < n), 0⟩
      headerOnly := false
      isMain := true
      upstream := false
      subrequestBufferSize := 0
      state := some {}
      accepted := [] } }

/-- No memory at all: each setter fails, and nothing has changed. -/
theorem failed_setter_unchanged_iff_empty :
    (reqSetHeader ⟨0, 1⟩ ⟨1, 1⟩ (poolHost 0) xMem).host.contents = (poolHost 0).contents ∧
      (respSetHeader ⟨0, 1⟩ ⟨1, 1⟩ (poolHost 0) xMem).host.contents = (poolHost 0).contents ∧
      (subreqSetHeader ⟨0, 1⟩ ⟨1, 1⟩ (poolHost 0) xMem).host.contents = (poolHost 0).contents := by
  obtain ⟨hreq, hresp, hstaged⟩ :=
    failed_setter_unchanged_iff plainWorld ⟨0, 1⟩ ⟨1, 1⟩ (poolHost 0) xMem
  refine ⟨(hreq (by decide +kernel)).mpr ?_, (hresp (by decide +kernel)).mpr ?_,
    (hstaged (by decide +kernel)).mpr ?_⟩
  · rintro ⟨-, -, r, hr, -, hgranted⟩
    obtain rfl := Option.some.inj hr
    exact Bool.false_ne_true hgranted
  · rintro ⟨-, -, r, hr, -, hgranted⟩
    obtain rfl := Option.some.inj hr
    exact Bool.false_ne_true hgranted
  · rintro ⟨-, -, r, hr, st, hst, -, hgranted⟩
    obtain rfl := Option.some.inj hr
    obtain rfl := Option.some.inj hst
    exact Bool.false_ne_true hgranted

/-- Memory for the new entry and none for its name: the request is left with a header without a
name. -/
theorem half_built_header :
    (reqSetHeader ⟨0, 1⟩ ⟨1, 1⟩ (poolHost 1) xMem).outcome = .ret (-2) ∧
      ((reqSetHeader ⟨0, 1⟩ ⟨1, 1⟩ (poolHost 1) xMem).host.request.map Request.headersIn) =
        some [{}] := by decide +kernel

end NgxWasm.Abi
