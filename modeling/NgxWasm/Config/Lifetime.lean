import NgxWasm.Config.Loader

/-!
# What a cycle acquires is released once

Between two steps a cycle holds the engine, the linker and the modules that its main configuration
points to, and nothing else (`Owned`). In the middle of a function there may be more: `At w X c` says
that `c` is the cycle `w` but for its books and its log, and that it holds `X` besides.

Each function of `Config.Loader` has one lemma, in the triples of `Lib.Fallible` and with the ledger of
`Lib.Ledger`: what it leaves if it succeeds, and what it leaves if it fails.

* `createMainConf_spec`: the creation succeeds if all it asks for is granted, and only then; otherwise
  nothing is left of it.
* `Owned.destroy`, `destroy_handles`: `destroy` releases what it drops, and that is everything.
* `configure_live`: the configuration, accepted or not, leaves a cycle that owns what it points to.
* `released_once`: over the whole life of a cycle, whatever fails in it, everything that was acquired
  has been released exactly once at the end, nothing was used after its release, and Wasmtime never
  got a `NULL`. That the process and the pool both destroy the runtime does no harm, nor does a hook
  that runs after it.

What a hook acquires for itself, its store and its futures, is in `Runtime.Handles` and
`Request.Released`.

A function may fail at any of its steps, and then releases what it has acquired by then in the order of
the source. So each lemma has a clause for the failure beside the one for the success. `X` is what the
callers of a function hold at the time: a lemma is proved for any `X` and gives it back, which is how
the lemmas are put together along the calls. What may fail is in `InitEnv`, `Sys` and `LoadEnv`, and
what is done with the modules of a cycle in `Use` (all in `Config.Loader`).
-/

namespace NgxWasm.Config.Loader

open Lib Lib.Fallible

/-! ## What is held -/

/-- The handles that the main configuration points to. -/
def MainConf.handles (w : MainConf) : Multiset Res :=
  (w.modules.filterMap fun m => m.module.map Module.handle : List Res) +
    (((w.runtime.bind RuntimeState.linker).map Linker.handle).toList : Multiset Res) +
    ((w.runtime.bind RuntimeState.engine).toList : Multiset Res)

/-- `c` is `w` but for the books and the log, and it holds `X` besides what `w` points to. -/
structure At (w : Cycle) (X : Multiset Res) (c : Cycle) : Prop where
  owns : c.books.Owns (w.wmcf.handles + X)
  same : c = { w with books := c.books, log := c.log }
  sane : w.faulted = false

/-- Nothing is held but what the main configuration points to. -/
def Owned (c : Cycle) : Prop := At c 0 c

section Rules

variable {α : Type} {w c : Cycle} {X : Multiset Res} {h : Res} {R : α → Cycle → Prop}
  {E : Cycle → Prop}

theorem At.owned (hc : At w 0 c) : Owned c where
  owns := by rw [hc.same]; exact hc.owns
  same := rfl
  sane := by rw [hc.same]; exact hc.sane

theorem At.books {b : Books Resource} {Y : Multiset Res} (hc : At w X c)
    (hb : b.Owns (w.wmcf.handles + Y)) : At w Y { c with books := b } where
  owns := hb
  same := by rw [hc.same]
  sane := hc.sane

theorem At.acquire_bind {f : Res → Setup α} (hc : At w X c) (r : Resource)
    (hf : ∀ h c, At w (h ::ₘ X) c → wp (f h) R E c) : wp (acquire r >>= f) R E c :=
  hf _ _ (hc.books ((hc.owns.acquire r).congr (Multiset.add_cons _ _ _).symm))

theorem At.use_bind {f : Unit → Setup α} (hc : At w X c) (hmem : h ∈ w.wmcf.handles + X)
    (hf : ∀ c, At w X c → wp (f ()) R E c) : wp (use h >>= f) R E c :=
  hf _ (hc.books (hc.owns.use hmem))

theorem At.release_bind {f : Unit → Setup α} (hc : At w (h ::ₘ X) c)
    (hf : ∀ c, At w X c → wp (f ()) R E c) : wp (release h >>= f) R E c :=
  hf _ (hc.books (hc.owns.congr (Multiset.add_cons _ _ _)).release)

theorem At.logLine_bind {f : Unit → Setup α} (hc : At w X c) (text : String) (arg : Bytes)
    (hf : ∀ c, At w X c → wp (f ()) R E c) : wp (logLine text arg >>= f) R E c :=
  hf _ ⟨hc.owns, by rw [hc.same], hc.sane⟩

theorem At.engine (hc : At w X c) : c.engine? = w.engine? := by rw [hc.same]; rfl

theorem At.linker (hc : At w X c) : c.linker? = w.linker? := by rw [hc.same]; rfl

/-- A pointer that is there. -/
theorem At.follow {o : Option Res} (hc : At w X c) (ho : o.isSome)
    (hmem : ∀ h ∈ o, h ∈ w.wmcf.handles + X) : At w X (c.follow o) := by
  obtain ⟨h, rfl⟩ := Option.isSome_iff_exists.mp ho
  exact hc.books (hc.owns.use (hmem h rfl))

theorem engine_mem (hh : w.engine? = some h) : h ∈ w.wmcf.handles + X := by
  unfold Cycle.engine? at hh
  simp [MainConf.handles, hh]

theorem linker_mem {l : Linker} (hl : w.linker? = some l) : l.handle ∈ w.wmcf.handles + X := by
  unfold Cycle.linker? at hl
  simp [MainConf.handles, hl]

theorem module_mem {m : Module} {conf : PhaseConf} (hm : w.module? conf = some m) :
    m.handle ∈ w.wmcf.handles + X := by
  obtain ⟨i, -, hi⟩ := Option.bind_eq_some_iff.mp hm
  obtain ⟨entry, hentry, hmodule⟩ := Option.bind_eq_some_iff.mp hi
  have hmem : m.handle ∈ w.wmcf.modules.filterMap fun m => m.module.map Module.handle :=
    List.mem_filterMap.mpr ⟨entry, List.mem_of_getElem? hentry, by rw [hmodule]; rfl⟩
  simp only [MainConf.handles, Multiset.mem_add, Multiset.mem_coe]
  exact .inl (.inl (.inl hmem))

theorem At.useEngine_bind {f : Unit → Setup α} (hc : At w X c) (hw : w.engine?.isSome)
    (hf : ∀ c, At w X c → wp (f ()) R E c) : wp (useEngine >>= f) R E c :=
  hf _ (hc.follow (hc.engine ▸ hw) fun _ hh => engine_mem (hc.engine ▸ hh))

theorem At.useLinker_bind {f : Unit → Setup α} (hc : At w X c) (hw : w.linker?.isSome)
    (hf : ∀ c, At w X c → wp (f ()) R E c) : wp (useLinker >>= f) R E c := by
  refine hf _ (hc.follow (by rwa [Option.isSome_map, hc.linker]) fun h hh => ?_)
  obtain ⟨l, hl, rfl⟩ := Option.map_eq_some_iff.mp hh
  exact linker_mem (hc.linker ▸ hl)

theorem At.logError_bind {f : Unit → Setup α} {error : Res} (hc : At w (error ::ₘ X) c)
    (context : String) (hf : ∀ c, At w X c → wp (f ()) R E c) :
    wp (logError context error >>= f) R E c := by
  unfold logError
  refine wp_bind.mpr ?_
  refine hc.use_bind (by simp) fun c hc => ?_
  refine hc.acquire_bind .message fun message c hc => ?_
  refine hc.use_bind (by simp) fun c hc => ?_
  refine hc.logLine_bind _ _ fun c hc => ?_
  refine hc.release_bind fun c hc => ?_
  exact hf _ (hc.books (hc.owns.congr (Multiset.add_cons _ _ _)).release)

end Rules

/-! ## The imports -/

/-- More definitions in the linker. -/
def Cycle.define (ds : List Definition) (w : Cycle) : Cycle :=
  w.setRuntime <| w.wmcf.runtime.map fun rt => { rt with
    linker := rt.linker.map fun l => { l with funcs := l.funcs ++ ds } }

/-- What the linker defines. -/
def Cycle.funcs (w : Cycle) : List Definition := (w.linker?.map Linker.funcs).getD []

section Define

variable (w : Cycle) (ds : List Definition)

@[simp] theorem define_nil : w.define [] = w := by
  obtain ⟨books, ⟨modules, runtime⟩, installed, cleanup, phases, faulted, log⟩ := w
  cases runtime with
  | none => rfl
  | some rt =>
    obtain ⟨engine, linker⟩ := rt
    cases linker <;> simp [Cycle.define, Cycle.setRuntime]

theorem define_define (ds' : List Definition) :
    (w.define ds).define ds' = w.define (ds ++ ds') := by
  obtain ⟨books, ⟨modules, runtime⟩, installed, cleanup, phases, faulted, log⟩ := w
  cases runtime with
  | none => rfl
  | some rt =>
    obtain ⟨engine, linker⟩ := rt
    cases linker <;> simp [Cycle.define, Cycle.setRuntime]

theorem define_linker : (w.define ds).linker? =
    w.linker?.map fun l => { l with funcs := l.funcs ++ ds } := by
  unfold Cycle.define Cycle.linker? Cycle.setRuntime
  cases w.wmcf.runtime <;> rfl

@[simp] theorem define_linker_isSome : (w.define ds).linker?.isSome = w.linker?.isSome := by
  rw [define_linker, Option.isSome_map]

theorem define_funcs (hw : w.linker?.isSome) : (w.define ds).funcs = w.funcs ++ ds := by
  obtain ⟨l, hl⟩ := Option.isSome_iff_exists.mp hw
  rw [Cycle.funcs, define_linker, Cycle.funcs, hl]
  rfl

@[simp] theorem define_handles : (w.define ds).wmcf.handles = w.wmcf.handles := by
  obtain ⟨books, ⟨modules, runtime⟩, installed, cleanup, phases, faulted, log⟩ := w
  cases runtime with
  | none => rfl
  | some rt =>
    obtain ⟨engine, linker⟩ := rt
    cases linker <;> rfl

end Define

variable {w c : Cycle} {X : Multiset Res}

theorem linkerDefineFunc_spec (hc : At w X c) (hw : w.linker?.isSome) (ok : Bool) (d : Definition) :
    wp (linkerDefineFunc ok d)
      (fun error c => match error with
        | none => At (w.define [d]) X c ∧ ok = true
        | some error => At w (error ::ₘ X) c ∧
          ((∃ f ∈ w.funcs, f.name = d.name) ∨ ok = false))
      (fun _ => False) c := by
  unfold linkerDefineFunc
  refine hc.useLinker_bind hw fun c hc => ?_
  refine wp_bind.mpr (wp_read.mpr ?_)
  split
  · rename_i hrefused
    refine hc.acquire_bind .error fun error c' hc' => ⟨hc', ?_⟩
    rw [Bool.or_eq_true, Bool.not_eq_true', hc.linker] at hrefused
    refine hrefused.imp (fun hany => ?_) id
    obtain ⟨l, hl⟩ := Option.isSome_iff_exists.mp hw
    rw [hl] at hany
    obtain ⟨f, hf, hname⟩ := List.any_eq_true.mp hany
    exact ⟨f, by rwa [Cycle.funcs, hl], beq_iff_eq.mp hname⟩
  · rename_i hrefused
    refine ⟨⟨?_, ?_, hc.sane⟩, ?_⟩
    · exact hc.owns.congr (by rw [define_handles])
    · rw [hc.same]
      rfl
    · simp only [Bool.or_eq_true, not_or, Bool.not_eq_true', Bool.not_eq_false] at hrefused
      exact hrefused.2

/-- One import: its type is deleted whether the linker takes it or not. -/
theorem defineFunc_spec (hc : At w X c) (hw : w.linker?.isSome) (ok : String → Bool)
    (d : Definition) :
    wp (defineFunc ok d) (fun _ c => At (w.define [d]) X c ∧ ok d.name = true)
      (fun c => At w X c ∧ ((∃ f ∈ w.funcs, f.name = d.name) ∨ ok d.name = false)) c := by
  unfold defineFunc
  refine hc.acquire_bind .functype fun ty c hc => ?_
  refine hc.use_bind (by simp) fun c hc => ?_
  refine wp_bind.mpr (wp_mono (linkerDefineFunc_spec hc hw (ok d.name) d) ?_ fun _ => False.elim)
  intro error c h
  cases error with
  | none =>
    obtain ⟨hc, hok⟩ := h
    exact hc.release_bind fun c hc => ⟨hc, hok⟩
  | some error =>
    obtain ⟨hc, hrefused⟩ := h
    rw [Multiset.cons_swap] at hc
    refine hc.release_bind fun c hc => ?_
    exact hc.logError_bind _ fun c hc => ⟨hc, hrefused⟩

/-- **The imports**: if their names are distinct, all of them are defined unless one fails. -/
theorem defineAll_spec (ok : String → Bool) {ds : List Definition} (hc : At w X c)
    (hw : w.linker?.isSome) (hnames : ((w.funcs ++ ds).map Definition.name).Nodup) :
    wp (defineAll ok ds) (fun _ c => At (w.define ds) X c ∧ ∀ d ∈ ds, ok d.name = true)
      (fun c => (∃ done, At (w.define done) X c) ∧ ¬ ∀ d ∈ ds, ok d.name = true) c := by
  induction ds generalizing w c with
  | nil => exact ⟨by rwa [define_nil], by simp⟩
  | cons d ds ih =>
    refine wp_bind.mpr (wp_mono (defineFunc_spec hc hw ok d) ?_ ?_)
    · rintro - c ⟨hc, hok⟩
      have hnext := ih hc (by rwa [define_linker_isSome])
        (by rw [define_funcs _ _ hw, List.append_assoc]; exact hnames)
      refine wp_mono hnext ?_ ?_
      · rintro - c ⟨hc, hall⟩
        rw [define_define] at hc
        exact ⟨hc, List.forall_mem_cons.mpr ⟨hok, hall⟩⟩
      · rintro c ⟨⟨done, hc⟩, hnot⟩
        rw [define_define] at hc
        exact ⟨⟨_, hc⟩, fun hall => hnot (List.forall_mem_cons.mp hall).2⟩
    · rintro c ⟨hc, hrefused⟩
      refine ⟨⟨[], by rwa [define_nil]⟩, fun hall => ?_⟩
      rcases hrefused with ⟨f, hf, hname⟩ | hfailed
      · rw [List.map_append, List.nodup_append] at hnames
        exact hnames.2.2 f.name (List.mem_map_of_mem hf) d.name (by simp) hname
      · rw [hall d List.mem_cons_self] at hfailed
        cases hfailed

/-! ## The end of the runtime -/

theorem owns_delete (ms : List CachedModule) {b : Books Resource} {Y : Multiset Res}
    (hb : b.Owns ((ms.filterMap fun m => m.module.map Module.handle : List Res) + Y)) :
    (ms.foldl (fun b m => m.delete b) b).Owns Y := by
  induction ms generalizing b with
  | nil => exact hb.congr (by simp)
  | cons m ms ih =>
    refine ih ?_
    obtain ⟨module, path⟩ := m
    cases module with
    | none => exact hb
    | some module =>
      exact (hb.congr (t := module.handle ::ₘ (_ + Y)) (by simp [← Multiset.cons_coe])).release

/-- **`destroy` releases what it drops.** -/
theorem Owned.destroy (hc : Owned c) : Owned c.destroy := by
  unfold Cycle.destroy
  cases hrt : c.wmcf.runtime with
  | none => exact hc
  | some rt =>
    have howns := hc.owns
    rw [MainConf.handles, hrt, add_zero, add_assoc] at howns
    have hmodules := owns_delete _ howns
    refine ⟨?_, rfl, hc.sane⟩
    have hnone : (⟨c.wmcf.modules.map fun m => { m with module := none },
        some { engine := none, linker := none }⟩ : MainConf).handles + 0 = 0 := by
      simp [MainConf.handles, List.filterMap_map]
    rw [hnone]
    dsimp only
    cases hl : rt.linker with
    | none =>
      cases he : rt.engine with
      | none => exact hmodules.congr (by simp [hl, he])
      | some e => exact (hmodules.congr (by simp [hl, he])).release
    | some l =>
      cases he : rt.engine with
      | none => exact (hmodules.congr (by simp [hl, he])).release
      | some e =>
        exact ((hmodules.congr (t := l.handle ::ₘ e ::ₘ 0)
          (by simp [hl, he, ← Multiset.singleton_add])).release).release

/-- Modules are loaded only while there is a runtime. -/
def Rooted (c : Cycle) : Prop := c.wmcf.runtime = none → c.wmcf.modules = []

/-- **Nothing is left** of a cycle that is destroyed. -/
theorem destroy_handles (hc : Rooted c) : c.destroy.wmcf.handles = 0 := by
  unfold Cycle.destroy
  cases hrt : c.wmcf.runtime with
  | none => simp [MainConf.handles, hrt, hc hrt]
  | some rt => simp [MainConf.handles, List.filterMap_map]

theorem At.destroy_setRuntime (hc : At w 0 c) (hmodules : w.wmcf.modules = []) :
    Owned (c.destroy.setRuntime none) := by
  have howned := hc.owned.destroy
  have hnone : (c.destroy.setRuntime none).wmcf.handles = 0 := by
    have hempty : c.destroy.wmcf.modules = [] := by
      unfold Cycle.destroy
      rw [hc.same]
      cases w.wmcf.runtime <;> simp [hmodules]
    simp [MainConf.handles, Cycle.setRuntime, hempty]
  have hzero : c.destroy.wmcf.handles = 0 := by
    refine destroy_handles fun _ => ?_
    rw [hc.same]
    exact hmodules
  exact ⟨howned.owns.congr (by rw [hnone, hzero]), rfl, howned.sane⟩

/-! ## The beginning -/

/-- Everything that the creation of the main configuration asks for is granted. -/
def InitEnv.Granted (env : InitEnv) : Prop :=
  env.confOk ∧ env.modulesOk ∧ env.definitionsOk ∧ env.runtimeOk ∧ env.configOk ∧ env.engineOk ∧
    env.linkerOk ∧ (∀ d ∈ definitions, env.defineOk d.name = true) ∧ env.cleanupOk

/-- A cycle that has a runtime and nothing else. -/
def withRuntime (rt : RuntimeState) : Cycle := ({} : Cycle).setRuntime (some rt)

/-- What is left where that fails: nothing is held, and no handler is registered. -/
structure Abandoned (c : Cycle) : Prop where
  owned : Owned c
  handles : c.wmcf.handles = 0
  cleanup : c.cleanup = false

theorem definitions_nodup : (definitions.map Definition.name).Nodup := by decide

theorem At.abandoned {rt : RuntimeState} (hc : At (withRuntime rt) 0 c) :
    Abandoned (c.destroy.setRuntime none) where
  owned := hc.destroy_setRuntime rfl
  handles := by
    have hempty : c.destroy.wmcf.modules = [] := by
      unfold Cycle.destroy
      rw [hc.same]
      rfl
    simp [MainConf.handles, Cycle.setRuntime, hempty]
  cleanup := by
    unfold Cycle.destroy
    rw [hc.same]
    rfl

/-- Without an engine there is nothing to destroy. -/
theorem At.abandoned_unset (hc : At (withRuntime {}) 0 c) : Abandoned (c.setRuntime none) := by
  have hunset : c.setRuntime none = { ({} : Cycle) with books := c.books, log := c.log } := by
    rw [hc.same]
    rfl
  rw [hunset]
  exact ⟨⟨hc.owns, rfl, rfl⟩, rfl, rfl⟩

theorem initLinker_spec {env : InitEnv} {engine : Res}
    (hc : At (withRuntime { engine := some engine }) 0 c) :
    wp (initLinker env)
      (fun _ c => (∃ linker, At (withRuntime ⟨some engine, some ⟨linker, definitions⟩⟩) 0 c) ∧
        env.linkerOk = true ∧ ∀ d ∈ definitions, env.defineOk d.name = true)
      (fun c => Abandoned c ∧
        ¬ (env.linkerOk = true ∧ ∀ d ∈ definitions, env.defineOk d.name = true)) c := by
  unfold initLinker
  refine hc.useEngine_bind rfl fun c hc => ?_
  split
  · rename_i hlinker
    refine hc.logLine_bind _ _ fun c hc => ?_
    refine ⟨hc.abandoned, fun hall => ?_⟩
    rw [hall.1] at hlinker
    cases hlinker
  · rename_i hlinker
    refine hc.acquire_bind .linker fun linker c hc => ?_
    have hset : At (withRuntime ⟨some engine, some ⟨linker, []⟩⟩) 0 (c.setRuntime
        (c.wmcf.runtime.map fun rt => { rt with linker := some ⟨linker, []⟩ })) := by
      refine ⟨hc.owns.congr ?_, ?_, rfl⟩
      · simp [withRuntime, MainConf.handles, Cycle.setRuntime, add_comm]
      · rw [hc.same]
        rfl
    refine wp_bind.mpr (wp_update.mpr (wp_bind.mpr (wp_attempt.mpr ?_)))
    refine wp_mono (defineAll_spec env.defineOk hset rfl definitions_nodup) ?_ ?_
    · rintro - c ⟨hc, hall⟩
      exact ⟨⟨linker, hc⟩, by simpa using hlinker, hall⟩
    · rintro c ⟨⟨done, hc⟩, hnot⟩
      exact ⟨hc.abandoned, fun hall => hnot hall.2⟩

theorem init_spec (env : InitEnv) :
    wp (init env)
      (fun _ c => (∃ engine linker,
        At (withRuntime ⟨some engine, some ⟨linker, definitions⟩⟩) 0 c) ∧
        env.runtimeOk = true ∧ env.configOk = true ∧ env.engineOk = true ∧ env.linkerOk = true ∧
        ∀ d ∈ definitions, env.defineOk d.name = true)
      (fun c => Abandoned c ∧ ¬ (env.runtimeOk = true ∧ env.configOk = true ∧ env.engineOk = true ∧
        env.linkerOk = true ∧ ∀ d ∈ definitions, env.defineOk d.name = true)) {} := by
  have hempty : At {} 0 {} := ⟨Books.owns_empty, rfl, rfl⟩
  unfold init
  refine wp_bind.mpr (wp_read.mpr ?_)
  rw [if_neg (by decide)]
  split
  · rename_i hrt
    refine ⟨⟨hempty, rfl, rfl⟩, fun hall => ?_⟩
    rw [hall.1] at hrt
    cases hrt
  rename_i hrt
  have hset : At (withRuntime {}) 0 (({} : Cycle).setRuntime (some {})) :=
    ⟨Books.owns_empty, rfl, rfl⟩
  refine wp_bind.mpr (wp_update.mpr ?_)
  split
  · rename_i hconfig
    refine hset.logLine_bind _ _ fun c hc => ⟨⟨hc.owned, ?_, ?_⟩, fun hall => ?_⟩
    · rw [hc.same]
      rfl
    · rw [hc.same]
      rfl
    · rw [hall.2.1] at hconfig
      cases hconfig
  rename_i hconfig
  refine hset.acquire_bind .config fun config c hc => ?_
  refine hc.use_bind (by simp) fun c hc => ?_
  refine hc.release_bind fun c hc => ?_
  split
  · rename_i hengine
    refine hc.logLine_bind _ _ fun c hc => ?_
    refine ⟨hc.abandoned_unset, fun hall => ?_⟩
    rw [hall.2.2.1] at hengine
    cases hengine
  rename_i hengine
  refine hc.acquire_bind .engine fun engine c hc => ?_
  have hset : At (withRuntime { engine := some engine }) 0 (c.setRuntime
      (c.wmcf.runtime.map fun rt => { rt with engine := some engine })) := by
    refine ⟨hc.owns.congr ?_, ?_, rfl⟩
    · simp [withRuntime, MainConf.handles, Cycle.setRuntime]
    · rw [hc.same]
      rfl
  refine wp_bind.mpr (wp_update.mpr (wp_mono (initLinker_spec hset) ?_ ?_))
  · rintro - c ⟨⟨linker, hc⟩, hlinker, hall⟩
    exact ⟨⟨engine, linker, hc⟩, by simpa using hrt, by simpa using hconfig, by simpa using hengine,
      hlinker, hall⟩
  · rintro c ⟨hc, hnot⟩
    exact ⟨hc, fun hall => hnot hall.2.2.2⟩

/-- A main configuration that nginx has got, with a runtime that has all its imports. -/
structure Live (c : Cycle) : Prop where
  engine : c.engine?.isSome
  linker : c.linker?.isSome
  funcs : c.funcs = definitions
  cleanup : c.cleanup = true
  installed : c.installed = true

theorem At.live (hc : At w X c) (hw : Live w) : Live c := by
  rw [hc.same]
  exact ⟨hw.engine, hw.linker, hw.funcs, hw.cleanup, hw.installed⟩

/-- **The creation of the main configuration** succeeds if all it asks for is granted, and only then.
The runtime then has all the imports; otherwise nothing is left of it. -/
theorem createMainConf_spec (env : InitEnv) :
    wp (createMainConf env)
      (fun _ c => (Owned c ∧ Live c) ∧ c.wmcf.modules = [] ∧
        (c.phases = fun _ => { set := confUnset }) ∧ env.Granted)
      (fun c => Abandoned c ∧ ¬ env.Granted) {} := by
  unfold createMainConf
  split
  · rename_i hfail
    refine ⟨⟨⟨Books.owns_empty, rfl, rfl⟩, rfl, rfl⟩, fun hall => ?_⟩
    simp [hall.1, hall.2.1, hall.2.2.1] at hfail
  rename_i hconf
  simp only [Bool.or_eq_true, not_or, Bool.not_eq_true', Bool.not_eq_false] at hconf
  refine wp_bind.mpr (wp_mono (init_spec env) ?_ ?_)
  · rintro - c ⟨⟨engine, linker, hc⟩, hrt, hconfig, hengine, hlinker, hall⟩
    have hrooted : Rooted c := by
      rw [hc.same]
      exact nofun
    split
    · rename_i hcleanup
      refine ⟨⟨hc.owned.destroy, destroy_handles hrooted, ?_⟩, fun hgranted => ?_⟩
      · unfold Cycle.destroy
        rw [hc.same]
        rfl
      · rw [hgranted.2.2.2.2.2.2.2.2] at hcleanup
        cases hcleanup
    · rename_i hcleanup
      refine ⟨⟨⟨?_, rfl, ?_⟩, ?_, ?_, ?_, rfl, rfl⟩, ?_, ?_, hconf.1.1, hconf.1.2, hconf.2, hrt,
        hconfig, hengine, hlinker, hall, by simpa using hcleanup⟩
      · exact hc.owned.owns
      · exact hc.owned.sane
      all_goals
        rw [hc.same]
        rfl
  · rintro c ⟨hc, hnot⟩
    exact ⟨hc, fun hall => hnot ⟨hall.2.2.2.1, hall.2.2.2.2.1, hall.2.2.2.2.2.1, hall.2.2.2.2.2.2.1,
      hall.2.2.2.2.2.2.2.1⟩⟩

/-! ## Modules -/

/-- The bytes of a file, as one reads them without the cache. -/
def plainRead (sys : Sys) (path : Bytes) : Option Bytes :=
  (sys.openFile (cString path)).bind fun file =>
    if file.statOk ∧ 0 ≤ file.size ∧ file.size ≤ ngxMaxInt then
      file.data.filter fun data => data.length = file.size
    else none

/-- The binary that a file's bytes are compiled from, if they are. -/
def plainCompile (sys : Sys) (bytes : Bytes) : Option Bytes :=
  (if isBinary bytes then some bytes else sys.wat2wasm bytes).filter sys.moduleNew

/-- The binary of a module, as one loads it without the cache. -/
def plainLoad (sys : Sys) (path : Bytes) : Option Bytes :=
  (plainRead sys path).bind (plainCompile sys)

theorem readFile_spec (hc : At w X c) (sys : Sys) (dataOk : Bool) (path : Bytes) :
    wp (readFile sys dataOk path) (fun bytes c => At w X c ∧ plainRead sys path = some bytes)
      (fun c => At w X c ∧ (plainRead sys path = none ∨ dataOk = false)) c := by
  unfold readFile plainRead
  cases hopen : sys.openFile (cString path) with
  | none => exact hc.logLine_bind _ _ fun c hc => ⟨hc, .inl rfl⟩
  | some file =>
    refine hc.acquire_bind .file fun fd c hc => ?_
    refine hc.use_bind (by simp) fun c hc => ?_
    dsimp only [Option.bind_some]
    split
    · rename_i hstat
      refine hc.logLine_bind _ _ fun c hc => hc.release_bind fun c hc => ⟨hc, .inl ?_⟩
      rw [if_neg]
      rintro ⟨hok, -⟩
      rw [hok] at hstat
      cases hstat
    rename_i hstat
    split
    · rename_i hsize
      refine hc.logLine_bind _ _ fun c hc => hc.release_bind fun c hc => ⟨hc, .inl ?_⟩
      rw [if_neg]
      rintro ⟨-, hlow, hhigh⟩
      omega
    rename_i hsize
    have hfits : file.statOk = true ∧ 0 ≤ file.size ∧ file.size ≤ ngxMaxInt := by
      refine ⟨by simpa using hstat, ?_, ?_⟩ <;> omega
    rw [if_pos hfits]
    split
    · rename_i hdata
      exact hc.release_bind fun c hc => ⟨hc, .inr (by simpa using hdata)⟩
    refine hc.use_bind (by simp) fun c hc => ?_
    refine hc.release_bind fun c hc => ?_
    cases file.data with
    | none => exact hc.logLine_bind _ _ fun c hc => ⟨hc, .inl rfl⟩
    | some data =>
      dsimp only
      split
      · rename_i hshort
        refine hc.logLine_bind _ _ fun c hc => ⟨hc, .inl ?_⟩
        simp [Option.filter, hshort]
      · rename_i hfull
        exact ⟨hc, by simp [Option.filter, not_not.mp hfull]⟩

/-- What compiling gives: the module, or the error to be logged. -/
def Compiled (w : Cycle) (X : Multiset Res) (binary : Option Bytes) (r : Except Res Module)
    (c : Cycle) : Prop :=
  match r with
  | .ok module => At w (module.handle ::ₘ X) c ∧ binary = some module.binary
  | .error error => At w (error ::ₘ X) c ∧ binary = none

theorem moduleNew_spec (hc : At w X c) (hw : w.engine?.isSome) (sys : Sys) (binary : Bytes) :
    wp (moduleNew sys binary) (Compiled w X ((some binary).filter sys.moduleNew))
      (fun _ => False) c := by
  unfold moduleNew
  refine hc.useEngine_bind hw fun c hc => ?_
  split
  · rename_i hok
    exact hc.acquire_bind .module fun module c hc => ⟨hc, by simp [Option.filter, hok]⟩
  · rename_i hbad
    exact hc.acquire_bind .error fun error c hc => ⟨hc, by simp [Option.filter, hbad]⟩

theorem compileModule_spec (hc : At w X c) (hw : w.engine?.isSome) (sys : Sys) (bytes : Bytes) :
    wp (compileModule sys bytes) (Compiled w X (plainCompile sys bytes)) (fun _ => False) c := by
  unfold compileModule plainCompile
  split
  · exact moduleNew_spec hc hw sys bytes
  · cases sys.wat2wasm bytes with
    | none => exact hc.acquire_bind .error fun error c hc => ⟨hc, rfl⟩
    | some wasm =>
      refine hc.acquire_bind .binary fun binary c hc => ?_
      refine hc.use_bind (by simp) fun c hc => ?_
      refine wp_bind.mpr (wp_mono (moduleNew_spec hc hw sys wasm) (fun r c hr => ?_) fun _ => id)
      cases r with
      | ok module =>
        have hswap := hr.1
        rw [Multiset.cons_swap] at hswap
        exact hswap.release_bind fun c hc => ⟨hc, hr.2⟩
      | error error =>
        have hswap := hr.1
        rw [Multiset.cons_swap] at hswap
        exact hswap.release_bind fun c hc => ⟨hc, hr.2⟩

/-- A module more in the cache. -/
def Cycle.push (module : Module) (path : Bytes) (w : Cycle) : Cycle :=
  { w with wmcf := { w.wmcf with modules := w.wmcf.modules ++ [⟨some module, path⟩] } }

theorem push_handles (module : Module) (path : Bytes) (w : Cycle) :
    (w.push module path).wmcf.handles = module.handle ::ₘ w.wmcf.handles := by
  simp only [Cycle.push, MainConf.handles, List.filterMap_append, ← Multiset.coe_add]
  rw [← Multiset.singleton_add]
  simp only [List.filterMap_cons, List.filterMap_nil, Option.map_some, Multiset.coe_singleton]
  ac_rfl

/-- No allocation fails. -/
def LoadEnv.Granted (env : LoadEnv) : Prop :=
  env.entryOk = true ∧ env.pathOk = true ∧ env.dataOk = true ∧ env.pushOk = true

theorem loadModule_spec (hc : At w 0 c) (hw : w.engine?.isSome) (sys : Sys) (env : LoadEnv)
    (path : Bytes) :
    wp (loadModule sys env path)
      (fun i c => i = w.wmcf.modules.length ∧ ∃ module, At (w.push module path) 0 c ∧
        plainLoad sys path = some module.binary)
      (fun c => At w 0 c ∧ (plainLoad sys path = none ∨ ¬ env.Granted)) c := by
  unfold loadModule plainLoad
  split
  · rename_i halloc
    refine ⟨hc, .inr fun hgranted => ?_⟩
    simp [hgranted.1, hgranted.2.1] at halloc
  refine wp_bind.mpr (wp_mono (readFile_spec hc sys env.dataOk path) ?_ ?_)
  · rintro bytes c ⟨hc, hread⟩
    rw [hread, Option.bind_some]
    refine wp_bind.mpr (wp_mono (compileModule_spec hc hw sys bytes) ?_ fun _ => False.elim)
    intro r c hr
    cases r with
    | error error => exact hr.1.logError_bind _ fun c hc => ⟨hc, .inl hr.2⟩
    | ok module =>
      dsimp only
      split
      · rename_i hpush
        refine hr.1.release_bind fun c hc => ⟨hc, .inr fun hgranted => ?_⟩
        simp [hgranted.2.2.2] at hpush
      · have hsame := hr.1.same
        refine ⟨by rw [hsame], module, ⟨?_, ?_, hr.1.sane⟩, hr.2⟩
        · exact hr.1.owns.congr (by rw [push_handles, Multiset.add_cons, add_zero, add_zero])
        · rw [hsame]
          rfl
  · rintro c ⟨hc, hnone | hdata⟩
    · exact ⟨hc, .inl (by rw [hnone]; rfl)⟩
    · exact ⟨hc, .inr fun hgranted => by simp [hgranted.2.2.1] at hdata⟩

/-- The cycle and the address that the cache gives for a path. -/
inductive Loaded (sys : Sys) (path : Bytes) (w : Cycle) : Nat → Cycle → Prop
  | found {i : Nat} (h : findModule w.wmcf path = some i) : Loaded sys path w i w
  | compiled {module : Module} (h : findModule w.wmcf path = none)
      (hload : plainLoad sys path = some module.binary) :
      Loaded sys path w w.wmcf.modules.length (w.push module path)

theorem getOrLoad_spec (hc : At w 0 c) (hw : w.engine?.isSome) (sys : Sys) (env : LoadEnv)
    (path : Bytes) :
    wp (getOrLoad sys env path) (fun i c => ∃ w', Loaded sys path w i w' ∧ At w' 0 c)
      (fun c => At w 0 c ∧ findModule w.wmcf path = none ∧
        (plainLoad sys path = none ∨ ¬ env.Granted)) c := by
  unfold getOrLoad
  refine wp_bind.mpr (wp_read.mpr ?_)
  have hwmcf : c.wmcf = w.wmcf := by rw [hc.same]
  rw [hwmcf]
  cases hfind : findModule w.wmcf path with
  | some i => exact ⟨w, .found hfind, hc⟩
  | none =>
    refine wp_mono (loadModule_spec hc hw sys env path) ?_ ?_
    · rintro i c ⟨rfl, module, hc, hload⟩
      exact ⟨_, .compiled hfind hload, hc⟩
    · rintro c ⟨hc, hfail⟩
      exact ⟨hc, rfl, hfail⟩

/-! ## Phases -/

/-- The configuration that a phase directive writes. -/
def PhaseDirective.conf (d : PhaseDirective) (path : Bytes) (module : Nat) : PhaseConf where
  set := 1
  module := some module
  modulePath := some path
  exportName := some d.exportName

/-- A phase that is configured: the cycle and the address of its module. -/
def Configured (d : PhaseDirective) (w c : Cycle) : Prop :=
  (w.phases d.slot).set ≠ 1 ∧ ∃ path i w', d.fullName d.modulePath = some path ∧
    Loaded d.sys path w i w' ∧ At (w'.setPhase d.slot (d.conf path i)) 0 c

/-- A phase that is not: the cache is as it was. -/
def Refused (d : PhaseDirective) (w c : Cycle) : Prop :=
  (∃ phases, At { w with phases := phases } 0 c) ∧
    ((w.phases d.slot).set = 1 ∨ ∀ path, d.fullName d.modulePath = some path →
      findModule w.wmcf path = none ∧ (plainLoad d.sys path = none ∨ ¬ d.env.Granted))

theorem At.setPhase (hc : At w 0 c) (i : Nat) (dst : PhaseConf) :
    At (w.setPhase i dst) 0 (c.setPhase i dst) :=
  ⟨hc.owns, by rw [hc.same]; rfl, hc.sane⟩

/-- The cache does not look at the phases. -/
theorem Loaded.of_setPhase {sys : Sys} {path : Bytes} {w w' : Cycle} {i j : Nat} {dst : PhaseConf}
    (h : Loaded sys path (w.setPhase j dst) i w') :
    ∃ w₁, Loaded sys path w i w₁ ∧ w' = w₁.setPhase j dst := by
  cases h with
  | found hfind => exact ⟨w, .found hfind, rfl⟩
  | compiled hfind hload => exact ⟨_, .compiled hfind hload, rfl⟩

@[simp] theorem setPhase_setPhase (j : Nat) (dst dst' : PhaseConf) (w : Cycle) :
    (w.setPhase j dst).setPhase j dst' = w.setPhase j dst' := by
  simp [Cycle.setPhase]

theorem configurePhase_spec (hc : At w 0 c) (hw : w.engine?.isSome) (d : PhaseDirective) :
    wp (configurePhase d)
      (fun ok c => match ok with
        | true => Configured d w c
        | false => Refused d w c)
      (Refused d w) c := by
  unfold configurePhase
  refine wp_bind.mpr (wp_read.mpr ?_)
  have hphases : c.phases = w.phases := by rw [hc.same]
  rw [hphases]
  dsimp only
  split
  · rename_i hset
    exact ⟨⟨w.phases, hc⟩, .inl hset⟩
  rename_i hset
  have hc := hc.setPhase d.slot { w.phases d.slot with
    modulePath := some d.modulePath, exportName := some d.exportName, set := 1 }
  refine wp_bind.mpr (wp_update.mpr ?_)
  cases hname : d.fullName d.modulePath with
  | none =>
    refine ⟨⟨_, hc⟩, .inr fun path hpath => ?_⟩
    rw [hname] at hpath
    cases hpath
  | some path =>
    have hc := hc.setPhase d.slot { w.phases d.slot with
      modulePath := some path, exportName := some d.exportName, set := 1 }
    refine wp_bind.mpr (wp_update.mpr (wp_bind.mpr (wp_attempt.mpr ?_)))
    refine wp_mono (getOrLoad_spec hc hw d.sys d.env path) ?_ ?_
    · rintro i c ⟨w', hloaded, hc⟩
      refine wp_bind.mpr (wp_update.mpr ?_)
      obtain ⟨w₂, hloaded₂, rfl⟩ := hloaded.of_setPhase
      obtain ⟨w₁, hloaded₁, rfl⟩ := hloaded₂.of_setPhase
      refine ⟨hset, path, i, w₁, hname, hloaded₁, ?_⟩
      have hdone := hc.setPhase d.slot (d.conf path i)
      rwa [setPhase_setPhase, setPhase_setPhase] at hdone
    · rintro c ⟨hc, hfind, hfail⟩
      refine wp_bind.mpr (wp_update.mpr ?_)
      refine ⟨⟨_, hc.setPhase _ _⟩, .inr fun path' hpath => ?_⟩
      obtain rfl := Option.some.inj (hname.symm.trans hpath)
      exact ⟨hfind, hfail⟩

theorem Loaded.live {sys : Sys} {path : Bytes} {w w' : Cycle} {i : Nat}
    (h : Loaded sys path w i w') (hw : Live w) : Live w' := by
  cases h with
  | found => exact hw
  | compiled => exact ⟨hw.engine, hw.linker, hw.funcs, hw.cleanup, hw.installed⟩

theorem Live.setPhase (hw : Live w) {i : Nat} {dst : PhaseConf} : Live (w.setPhase i dst) :=
  ⟨hw.engine, hw.linker, hw.funcs, hw.cleanup, hw.installed⟩

theorem Configured.live {d : PhaseDirective} (h : Configured d w c) (hw : Live w) :
    Owned c ∧ Live c := by
  obtain ⟨-, path, i, w', -, hloaded, hc⟩ := h
  exact ⟨hc.owned, hc.live (hloaded.live hw).setPhase⟩

theorem Refused.live {d : PhaseDirective} (h : Refused d w c) (hw : Live w) :
    Owned c ∧ Live c := by
  obtain ⟨⟨phases, hc⟩, -⟩ := h
  exact ⟨hc.owned, hc.live ⟨hw.engine, hw.linker, hw.funcs, hw.cleanup, hw.installed⟩⟩

/-- **The configuration**, whether it is accepted or not, leaves a cycle that owns what it points
to. -/
theorem configure_live (ds : List PhaseDirective) (hc : Owned c) (hlive : Live c) :
    wp (configure ds) (fun _ c => Owned c ∧ Live c) (fun c => Owned c ∧ Live c) c := by
  induction ds generalizing c with
  | nil => exact ⟨hc, hlive⟩
  | cons d ds ih =>
    refine wp_bind.mpr (wp_mono (configurePhase_spec hc hlive.engine d) ?_ fun c h => h.live hlive)
    intro ok c h
    cases ok with
    | true =>
      obtain ⟨hc, hlive⟩ := Configured.live h hlive
      exact ih hc hlive
    | false => exact Refused.live h hlive

/-! ## A whole cycle -/

/-- A configured cycle in use. Its handler is called once, and destroys the runtime. -/
structure Serving (c : Cycle) : Prop where
  owned : Owned c
  runtime : c.wmcf.runtime.isSome
  pool : c.cleanup = false → c.wmcf.handles = 0

theorem Serving.rooted (hc : Serving c) : Rooted c := by
  intro hnone
  exact absurd hc.runtime (by rw [hnone]; decide)

theorem destroy_runtime (h : c.wmcf.runtime.isSome) : c.destroy.wmcf.runtime.isSome := by
  obtain ⟨rt, hrt⟩ := Option.isSome_iff_exists.mp h
  unfold Cycle.destroy
  rw [hrt]
  rfl

theorem Serving.destroy (hc : Serving c) : Serving c.destroy where
  owned := hc.owned.destroy
  runtime := destroy_runtime hc.runtime
  pool _ := destroy_handles hc.rooted

theorem Serving.destroyPool (hc : Serving c) :
    Serving c.destroyPool ∧ c.destroyPool.wmcf.handles = 0 := by
  unfold Cycle.destroyPool
  split
  · have hd := hc.destroy
    exact ⟨⟨⟨hd.owned.owns, rfl, hd.owned.sane⟩, hd.runtime, fun _ => destroy_handles hc.rooted⟩,
      destroy_handles hc.rooted⟩
  · rename_i hcleanup
    exact ⟨hc, hc.pool (Bool.eq_false_iff.mpr hcleanup)⟩

/-- A hook uses only what is there. -/
theorem Serving.hook (hc : Serving c) (slot : Nat) (phase : Runtime.Phase)
    (fuelLimit timesliceFuel : Nat) (input : Runtime.RunInput) :
    Serving (c.hook slot phase fuelLimit timesliceFuel input).2 := by
  unfold Cycle.hook
  dsimp only
  split
  · rename_i hready
    rw [Bool.and_eq_true, Cycle.runtimeReady, Bool.and_eq_true] at hready
    obtain ⟨⟨hengine, hlinker⟩, hmodule⟩ := hready
    have hused : At c 0 (((c.follow c.engine?).follow (c.linker?.map Linker.handle)).follow
        ((c.module? (c.phases slot)).map Module.handle)) := by
      refine ((hc.owned.follow hengine fun h hh => engine_mem hh).follow
        (by rwa [Option.isSome_map]) fun h hh => ?_).follow (by rwa [Option.isSome_map]) fun h hh => ?_
      · obtain ⟨l, hl, rfl⟩ := Option.map_eq_some_iff.mp hh
        exact linker_mem hl
      · obtain ⟨m, hm, rfl⟩ := Option.map_eq_some_iff.mp hh
        exact module_mem hm
    exact ⟨hused.owned, by rw [hused.same]; exact hc.runtime, by rw [hused.same]; exact hc.pool⟩
  · exact hc

theorem Serving.step (hc : Serving c) (u : Use) : Serving (useStep c u) := by
  cases u with
  | hook slot phase fuelLimit timesliceFuel input => exact hc.hook slot phase _ _ input
  | exitProcess =>
    simp only [useStep, Cycle.exitProcess]
    split
    · exact hc.destroy
    · exact hc
  | destroyPool => exact hc.destroyPool.1

/-- Nothing of a cycle is left, and nothing went wrong. -/
theorem lifetime_ends (env : InitEnv) (ds : List PhaseDirective) (uses : List Use) :
    Owned (lifetime env ds uses) ∧ (lifetime env ds uses).wmcf.handles = 0 := by
  have hlive : ∀ {c : Cycle}, Owned c ∧ Live c → Serving c := by
    rintro c ⟨hc, hl⟩
    refine ⟨hc, ?_, fun hno => by rw [hl.cleanup] at hno; cases hno⟩
    have hengine := hl.engine
    unfold Cycle.engine? at hengine
    cases hrt : c.wmcf.runtime with
    | none =>
      rw [hrt] at hengine
      cases hengine
    | some rt => rfl
  have hconfigured : wp (createMainConf env >>= fun _ => configure ds)
      (fun _ => Serving) (fun c => Abandoned c ∨ Serving c) {} := by
    refine wp_bind.mpr (wp_mono (createMainConf_spec env) ?_ fun c h => .inl h.1)
    rintro - c ⟨⟨hc, hl⟩, -⟩
    exact wp_mono (configure_live ds hc hl) (fun _ _ => hlive) fun _ h => .inr (hlive h)
  unfold lifetime
  obtain ⟨hsome, hnone⟩ := hconfigured.of_run
  dsimp only
  split
  · rename_i hfailed
    rcases hnone hfailed with habandoned | hserving
    · rw [Cycle.destroyPool, if_neg (by simp [habandoned.cleanup])]
      exact ⟨habandoned.owned, habandoned.handles⟩
    · exact ⟨hserving.destroyPool.1.owned, hserving.destroyPool.2⟩
  · rename_i hdone
    have hserving : Serving (runFrom useStep _ uses) :=
      run_invariant uses (hsome () hdone) fun c u hc => hc.step u
    exact ⟨hserving.destroyPool.1.owned, hserving.destroyPool.2⟩

/-- **Everything is released once**: at the end of a cycle each object and each file has been
released as often as it was acquired, once at most, each use came between the two, and Wasmtime never
got a `NULL`. -/
theorem released_once (env : InitEnv) (ds : List PhaseDirective) (uses : List Use) :
    (lifetime env ds uses).faulted = false ∧
      (∀ h : Res, (lifetime env ds uses).books.ledger.count (.release h) =
          (lifetime env ds uses).books.ledger.count (.acquire h) ∧
        (lifetime env ds uses).books.ledger.count (.acquire h) ≤ 1) ∧
      ∀ (later earlier : List (Deal Res)) (h : Res),
        (lifetime env ds uses).books.ledger = later ++ .use h :: earlier →
        .acquire h ∈ earlier ∧ .release h ∉ earlier := by
  obtain ⟨howned, hnone⟩ := lifetime_ends env ds uses
  refine ⟨howned.sane, fun h => ?_, fun later earlier h heq => ?_⟩
  · exact howned.owns.sound.settled (by rw [howned.owns.held, hnone, add_zero]) h
  · have hsound := howned.owns.sound
    rw [heq] at hsound
    exact hsound.use_between

end NgxWasm.Config.Loader
