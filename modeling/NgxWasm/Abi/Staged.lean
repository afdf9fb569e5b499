import NgxWasm.Abi.Cloned
import NgxWasm.Abi.HalfBuilt

/-!
# Staged headers (`src/ngx_http_wasm_abi.c`)

Headers are staged one by one, and the next launch that nginx accepts applies them to its copy of the
request's headers and empties the list. Here memory is there for all of it (`Pool.Unlimited`); what a
failed allocation leaves is in `Abi.HalfBuilt` and `Abi.Subrequest`.

* `Stages`, `Launches.Outcome`: what staging and a launch do. A launch that is refused loses nothing.
* `headerValue_latest`: of several headers staged under one name the latest wins.
* `AppliesInMemory`: the same with addresses, from `Abi.Cloned`: the new list shares nothing that is
  written to with the request's own.
* `launch_applies_staged`: in every run of stagings, launches, completions and changes of the request's
  own headers, an accepted launch gets exactly what was staged since the last one, and leaves the
  request's headers alone, in the model and in memory.

Two names are one to the host if they are of one length and the same up to case and up to a zero byte
(`sameName`), and `zero_byte_ends_name` is a pair that differs behind one.
-/

namespace NgxWasm.Abi

open Lib

variable {V : Variables}

/-! ## Memory for all of it -/

/-- The pool grants everything. -/
def Pool.Unlimited (p : Pool) : Prop := ∀ n size, p.grants n size = true

theorem Pool.Unlimited.alloc {p : Pool} (h : p.Unlimited) (size : Nat) :
    p.alloc size = (true, p.after 1) := Prod.ext (h p.next size) rfl

theorem Pool.Unlimited.after {p : Pool} (h : p.Unlimited) (n : Nat) : (p.after n).Unlimited := h

/-- A step on a list of headers that does `g`, where the pool grants everything. -/
def Does (f : List TableElt → Pool → Bool × List TableElt × Pool) (g : List TableElt → List TableElt) :
    Prop := ∀ hs p, p.Unlimited → ∃ p', p'.Unlimited ∧ f hs p = (true, g hs, p')

theorem setHeaderIn_does (name value : Bytes) :
    Does (setHeaderIn name value) (applyHeader · (name, value)) := by
  intro hs p hp
  unfold setHeaderIn applyHeader
  dsimp only
  cases findHeader name hs with
  | some i =>
    dsimp only
    rw [copyValue, hp.alloc]
    exact ⟨_, hp.after 1, rfl⟩
  | none =>
    have hlast : (hs ++ [({ key := name } : TableElt)]).length - 1 = hs.length := by simp
    dsimp only
    rw [pushHeader, hp.alloc]
    dsimp only
    rw [(hp.after 1).alloc]
    dsimp only
    rw [((hp.after 1).after 1).alloc]
    dsimp only
    rw [copyValue, (((hp.after 1).after 1).after 1).alloc, hlast, modify_last]
    dsimp only
    rw [modify_last]
    exact ⟨_, (((hp.after 1).after 1).after 1).after 1, rfl⟩

theorem cloneHeader_does (h : TableElt) : Does (cloneHeader h) (· ++ [h]) := by
  intro hs p hp
  unfold cloneHeader
  rw [hp.alloc]
  dsimp only
  rw [(hp.after 1).alloc]
  dsimp only
  rw [((hp.after 1).after 1).alloc]
  dsimp only
  split
  · rename_i hlow
    refine ⟨_, ((hp.after 1).after 1).after 1, ?_⟩
    rw [← hlow]
  · rw [(((hp.after 1).after 1).after 1).alloc]
    exact ⟨_, (((hp.after 1).after 1).after 1).after 1, rfl⟩

theorem eachHeader_does {α : Type} {f : α → List TableElt → Pool → Bool × List TableElt × Pool}
    {g : List TableElt → α → List TableElt} (hf : ∀ a, Does (f a) (g · a)) (as : List α) :
    Does (eachHeader f as) (as.foldl g) := by
  induction as with
  | nil => exact fun hs p hp => ⟨p, hp, rfl⟩
  | cons a as ih =>
    intro hs p hp
    obtain ⟨p₁, hp₁, h₁⟩ := hf a hs p hp
    obtain ⟨p₂, hp₂, h₂⟩ := ih (g hs a) p₁ hp₁
    refine ⟨p₂, hp₂, ?_⟩
    rw [eachHeader, h₁]
    exact h₂

theorem foldl_append_one (hs hs' : List TableElt) :
    hs'.foldl (fun hs h => hs ++ [h]) hs = hs ++ hs' := by
  induction hs' generalizing hs with
  | nil => exact (List.append_nil hs).symm
  | cons h hs' ih => rw [List.foldl_cons, ih, List.append_assoc, List.singleton_append]

/-- **The headers of a launch**: a copy of the request's, with the pending ones applied. -/
theorem copyHeaders_does (pending : List (Bytes × Bytes)) (src : List TableElt) {p : Pool}
    (hp : p.Unlimited) :
    ∃ p', p'.Unlimited ∧ copyHeaders pending src p = (true, pending.foldl applyHeader src, p') := by
  obtain ⟨p₁, hp₁, h₁⟩ := eachHeader_does cloneHeader_does src [] (p.after 1) (hp.after 1)
  obtain ⟨p₂, hp₂, h₂⟩ := eachHeader_does (f := subrequestSetRuntimeHeader)
    (fun h => setHeaderIn_does h.1 h.2) pending src p₁ hp₁
  refine ⟨p₂, hp₂, ?_⟩
  have hcopy : src.foldl (fun hs h => hs ++ [h]) [] = src := foldl_append_one [] src
  dsimp only at h₁
  rw [hcopy] at h₁
  unfold copyHeaders subrequestCloneHeaders
  rw [hp.alloc]
  dsimp only
  rw [h₁]
  exact h₂

/-! ## The functions -/

/-- What staging a header does. -/
structure Stages (name value : Bytes) (r : Request V) (res : Int × Request V) : Prop where
  pool : res.2.pool.Unlimited
  headersIn : res.2.headersIn = r.headersIn
  staged : Abi.staged res.2 =
    if res.1 = wasmOk then Abi.staged r ++ [(name, value)] else Abi.staged r

/-- The array is there, or is created. -/
theorem created_granted {st : SubrequestState} {p p' : Pool} {hs : List (Bytes × Bytes)} {created : Bool}
    (hp : p.Unlimited)
    (h : (match st.pendingHeaders with
      | some headers => (true, headers, p)
      | none => ((p.alloc (2 * subrequestHeaderSize)).1, [], (p.alloc (2 * subrequestHeaderSize)).2)) =
        (created, hs, p')) : created = true ∧ hs = st.pendingHeaders.getD [] ∧ p'.Unlimited := by
  cases hpend : st.pendingHeaders with
  | some headers =>
    rw [hpend] at h
    cases h
    exact ⟨rfl, rfl, hp⟩
  | none =>
    rw [hpend, hp.alloc] at h
    cases h
    exact ⟨rfl, rfl, hp.after 1⟩

theorem subrequestSetHeader_stages (name value : Bytes) {r : Request V} (hp : r.pool.Unlimited) :
    Stages name value r (subrequestSetHeader name value r) := by
  have hsame : Stages name value r (wasmError, r) := ⟨hp, rfl, (if_neg wasmError_ne_wasmOk).symm⟩
  unfold subrequestSetHeader
  split
  · exact hsame
  · split
    · exact hsame
    · rename_i st hst
      split
      · exact hsame
      · have hstaged : Abi.staged r = st.pendingHeaders.getD [] := by
          unfold Abi.staged
          rw [hst]
          rfl
        dsimp only
        split
        · rename_i hcreated
          exact absurd (created_granted hp hcreated).1 Bool.false_ne_true
        · rename_i headers p hcreated
          obtain ⟨-, hheaders, hp'⟩ := created_granted hp hcreated
          rw [hp'.alloc]
          dsimp only
          rw [(hp'.after 1).alloc]
          dsimp only
          rw [((hp'.after 1).after 1).alloc]
          refine ⟨((hp'.after 1).after 1).after 1, rfl, ?_⟩
          rw [hstaged, ← hheaders]
          exact (if_pos rfl).symm

/-- What a launch does: it is refused and nothing is lost of what was staged, or the subrequest has
the headers that are meant for it and nothing is staged any more. -/
inductive Launches.Outcome (r : Request V) (res : Int × Request V) : Prop
  | refused (rc : res.1 = wasmError) (pool : res.2.pool.Unlimited)
      (headersIn : res.2.headersIn = r.headersIn) (staged : Abi.staged res.2 = Abi.staged r)
  | accepted (rc : res.1 = wasmOk) (pool : res.2.pool.Unlimited)
      (headersIn : res.2.headersIn = r.headersIn) (staged : Abi.staged res.2 = [])
      (subrequest : ∃ sr, res.2.accepted = r.accepted ++ [sr] ∧
        sr.headersIn = (Abi.staged r).foldl applyHeader r.headersIn)

theorem Launches.Outcome.of_pool {r : Request V} {p : Pool} {res : Int × Request V}
    (h : Launches.Outcome { r with pool := p } res) : Launches.Outcome r res := by
  cases h with
  | refused rc pool headersIn staged => exact .refused rc pool headersIn staged
  | accepted rc pool headersIn staged subrequest => exact .accepted rc pool headersIn staged subrequest

theorem launch_outcome {st : SubrequestState} {sr : Subrequest} {r : Request V}
    (hst : r.state = some st) (hsr : sr.headersIn = r.headersIn) (hp : r.pool.Unlimited) :
    Launches.Outcome r (launch st sr r) := by
  have hstaged : Abi.staged r = st.pendingHeaders.getD [] := by
    unfold Abi.staged
    rw [hst]
    rfl
  unfold launch
  dsimp only
  rw [hp.alloc]
  dsimp only
  split
  · rename_i hpend
    refine .accepted rfl (hp.after 1) rfl ?_ ⟨sr, rfl, ?_⟩
    · unfold Abi.staged
      dsimp only [Option.bind_some]
      rw [hpend, Option.getD_none]
    · rw [hstaged, hpend]
      exact hsr
  · rename_i hpend
    refine .accepted rfl (hp.after 1) rfl ?_ ⟨sr, rfl, ?_⟩
    · unfold Abi.staged
      dsimp only [Option.bind_some]
      rw [hpend, Option.getD_some]
    · rw [hstaged, hpend]
      exact hsr
  · rename_i h hs hpend
    obtain ⟨p', hp', hcopy⟩ := copyHeaders_does (h :: hs) r.headersIn (hp.after 1)
    rw [hcopy]
    refine .accepted rfl hp' rfl rfl ⟨_, rfl, ?_⟩
    rw [hstaged, hpend]
    rfl

theorem subrequest_outcome (uri args : Bytes) (method options : UInt64) {r : Request V}
    (hp : r.pool.Unlimited) : Launches.Outcome r (subrequest uri args method options r) := by
  have hrefused : ∀ p, Pool.Unlimited p → Launches.Outcome r (wasmError, { r with pool := p }) :=
    fun p hp' => .refused rfl hp' rfl rfl
  unfold subrequest
  split
  · exact hrefused r.pool hp
  · split
    · exact hrefused r.pool hp
    · rename_i st hst
      split
      · exact hrefused r.pool hp
      · rw [hp.alloc]
        dsimp only
        have hargs : (if args = [] then (true, r.pool.after 1) else (r.pool.after 1).alloc args.length) =
            (true, r.pool.after (if args = [] then 1 else 2)) := by
          split
          · rfl
          · exact (hp.after 1).alloc _
        rw [hargs]
        dsimp only
        have hp' := hp.after (if args = [] then 1 else 2)
        split
        · exact hrefused _ hp'
        · rw [hp'.alloc]
          dsimp only
          have hst' : ({ r with pool := (r.pool.after (if args = [] then 1 else 2)).after 1 } :
              Request V).state = some st := hst
          exact (launch_outcome hst' rfl (hp'.after 1)).of_pool

/-! ## The header a name is given -/

/-- **A header that is applied** is the first with its name, and nothing else is touched. -/
theorem applyHeader_set (hs : List TableElt) (name value : Bytes) :
    ∃ i, ValueSet name value i hs (applyHeader hs (name, value)) ∧
      findHeader name (applyHeader hs (name, value)) = some i := by
  obtain ⟨p', -, h⟩ := setHeaderIn_does name value hs ⟨fun _ _ => true, 0⟩ fun _ _ => rfl
  exact setHeaderIn_set h

/-- The value of the first header with the name. -/
def headerValue (name : Bytes) (hs : List TableElt) : Option Bytes :=
  (hs.find? fun g => sameName g.key name).map TableElt.value

theorem headerValue_apply (hs : List TableElt) (name value : Bytes) :
    headerValue name (applyHeader hs (name, value)) = some value := by
  obtain ⟨i, hset, hfind⟩ := applyHeader_set hs name value
  unfold findHeader at hfind
  unfold headerValue
  rw [← findIdx?_bind_map, hfind, Option.bind_some]
  exact hset.value_eq

theorem headerValue_apply_other {name : Bytes} {h : Bytes × Bytes} (hne : sameName h.1 name = false)
    (hs : List TableElt) : headerValue name (applyHeader hs h) = headerValue name hs := by
  obtain ⟨i, hset, -⟩ := applyHeader_set hs h.1 h.2
  unfold headerValue
  refine congrArg _ (hset.find?_eq fun g hg => ?_)
  rw [sameName_congr hg]
  exact hne

/-- **The latest value wins.** -/
theorem headerValue_latest (hs : List TableElt) {before after : List (Bytes × Bytes)}
    {name value : Bytes} (hafter : ∀ h ∈ after, sameName h.1 name = false) :
    headerValue name ((before ++ (name, value) :: after).foldl applyHeader hs) = some value := by
  rw [List.foldl_append, List.foldl_cons]
  generalize before.foldl applyHeader hs = hs'
  have hkept : ∀ hs, headerValue name (after.foldl applyHeader hs) = headerValue name hs := by
    induction after with
    | nil => exact fun _ => rfl
    | cons h after ih =>
      intro hs
      rw [List.foldl_cons, ih fun g hg => hafter g (List.mem_cons_of_mem _ hg)]
      exact headerValue_apply_other (hafter h List.mem_cons_self) hs
  rw [hkept, headerValue_apply]

/-! ## Runs -/

/-- A guest's call, the completion of a subrequest, or a change of the request's own headers. -/
inductive StagingEvent where
  | setHeader (name value : Bytes)
  | launch (uri args : Bytes) (method options : UInt64)
  | done (i : Nat) (rc : Int) (headersOut : HeadersOut) (out : Option Bytes)
  | edit (headersIn : List TableElt)

/-- A request, and the headers that were staged since the latest launch that returned 0. -/
structure Staging (V : Variables) where
  request : Request V
  pending : List (Bytes × Bytes)

/-- A request whose module context is new. -/
def Staging.start (r : Request V) : Staging V := ⟨{ r with state := some {}, accepted := [] }, []⟩

def Staging.step (s : Staging V) : StagingEvent → Staging V
  | .setHeader name value =>
    let res := subrequestSetHeader name value s.request
    ⟨res.2, if res.1 = wasmOk then s.pending ++ [(name, value)] else s.pending⟩
  | .launch uri args method options =>
    let res := subrequest uri args method options s.request
    ⟨res.2, if res.1 = wasmOk then [] else s.pending⟩
  | .done i rc headersOut out => { s with request := complete i rc headersOut out s.request }
  | .edit headersIn => { s with request := { s.request with headersIn := headersIn } }

/-- The invariant: memory is there for all, and the record has the staged headers. -/
structure Staging.Inv (s : Staging V) : Prop where
  pool : s.request.pool.Unlimited
  staged : Abi.staged s.request = s.pending

theorem staged_complete (i : Nat) (rc : Int) (headersOut : HeadersOut) (out : Option Bytes)
    (r : Request V) : staged (complete i rc headersOut out r) = staged r := by
  unfold staged complete
  cases r.state with
  | none => rfl
  | some st =>
    have hpend : (subrequestDone i rc out st).pendingHeaders = st.pendingHeaders := by
      unfold subrequestDone
      dsimp only
      split
      · rfl
      · split
        · rfl
        · split <;> rfl
    simp only [Option.map_some, Option.bind_some, hpend]

theorem Staging.Inv.step {s : Staging V} (h : s.Inv) (e : StagingEvent) : (s.step e).Inv := by
  cases e with
  | setHeader name value =>
    have hs := subrequestSetHeader_stages name value h.pool
    refine ⟨hs.pool, hs.staged.trans ?_⟩
    rw [h.staged]
    rfl
  | launch uri args method options =>
    unfold Staging.step
    dsimp only
    cases subrequest_outcome uri args method options h.pool with
    | refused rc pool headersIn staged =>
      refine ⟨pool, ?_⟩
      rw [rc, if_neg wasmError_ne_wasmOk]
      exact staged.trans h.staged
    | accepted rc pool headersIn staged subrequest =>
      refine ⟨pool, ?_⟩
      rw [rc, if_pos rfl]
      exact staged
  | done i rc headersOut out => exact ⟨h.pool, (staged_complete ..).trans h.staged⟩
  | edit headersIn => exact ⟨h.pool, h.staged⟩

/-- In memory: the list of a subrequest of a request with the headers `hs`, once `pending` is
applied, reads as it should, and the request's own as before. -/
def AppliesInMemory (hs : List TableElt) (pending : List (Bytes × Bytes)) : Prop :=
  ∀ (m : Memory) (parent : ListHead) (staged : List (Str × Str)) (fuel : Nat),
    m.Shows parent.first hs → StagedBelow m.usedBytes staged → stagedIn m staged = pending →
      hs.length + staged.length < fuel →
        ∃ t, launchHeaders fuel parent staged m = some t ∧
          t.2.Shows t.1.first (pending.foldl applyHeader hs) ∧ t.2.Shows parent.first hs ∧ m.Keeps t.2

/-- What an accepted launch does with the staged headers. -/
structure AppliesStaged (s : Staging V) (r' : Request V) : Prop where
  headers : ∃ sr, r'.accepted = s.request.accepted ++ [sr] ∧
    sr.headersIn = s.pending.foldl applyHeader s.request.headersIn
  latest : ∀ before name value after, s.pending = before ++ (name, value) :: after →
    (∀ h ∈ after, sameName h.1 name = false) →
      headerValue name (s.pending.foldl applyHeader s.request.headersIn) = some value
  parent : r'.headersIn = s.request.headersIn
  emptied : staged r' = []
  memory : AppliesInMemory s.request.headersIn s.pending

/-- **A launch applies what was staged** since the one before, in order, to its own copy of the
request's headers, and nothing is left for the next. -/
theorem launch_applies_staged (r : Request V) (hpool : r.pool.Unlimited) (events : List StagingEvent)
    (uri args : Bytes) (method options : UInt64) :
    let s := runFrom Staging.step (.start r) events
    (subrequest uri args method options s.request).1 = wasmOk →
      AppliesStaged s (subrequest uri args method options s.request).2 := by
  intro s hok
  have hinv : s.Inv := run_invariant events ⟨hpool, rfl⟩ fun _ e h => h.step e
  cases subrequest_outcome uri args method options hinv.pool with
  | refused rc pool headersIn staged => exact absurd (rc.symm.trans hok) wasmError_ne_wasmOk
  | accepted rc pool headersIn staged subrequest =>
    rw [hinv.staged] at subrequest
    refine ⟨subrequest, fun before name value after heq hafter => ?_, headersIn, staged,
      fun m parent staged fuel hparent hbelow hstaged hfuel => ?_⟩
    · rw [heq]
      exact headerValue_latest _ hafter
    · obtain ⟨t, ht, hshows, hkeeps⟩ := launchHeaders_spec hparent hbelow hfuel
      rw [hstaged] at hshows
      exact ⟨t, ht, hshows, hparent.keep hkeeps, hkeeps⟩

/-- `x: 1` and `X: 2` are staged for the second of two subrequests. -/
theorem launch_applies_staged_twice :
    let s := runFrom Staging.step (.start (plainRequest fun _ => false))
      [.launch [47] [] 0 0, .done 0 0 {} none, .setHeader [120] [49], .setHeader [88] [50]]
    AppliesStaged s (subrequest [47] [] 0 0 s.request).2 :=
  launch_applies_staged (plainRequest fun _ => false) (fun _ _ => rfl)
    [.launch [47] [] 0 0, .done 0 0 {} none, .setHeader [120] [49], .setHeader [88] [50]]
    [47] [] 0 0 (by decide)

/-- Two names that differ behind a zero byte: the second replaces the value of the first. -/
theorem zero_byte_ends_name :
    let s := runFrom Staging.step (.start (plainRequest fun _ => false))
      [.setHeader [97, 0, 98] [49], .setHeader [97, 0, 99] [50]]
    ¬ SameButCase [97, 0, 98] [97, 0, 99] ∧
      ((subrequest [47] [] 0 0 s.request).2.accepted.map Subrequest.headersIn) =
        [[⟨hashStrlow [97, 0, 98], [97, 0, 98], [50], [97, 0, 98]⟩]] := by
  refine ⟨fun h => ?_, by decide +kernel⟩
  exact absurd h (by unfold SameButCase; decide)

end NgxWasm.Abi
