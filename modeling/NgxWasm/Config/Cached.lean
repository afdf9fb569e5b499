import NgxWasm.Config.Lifetime

/-!
# The loader is a function of the path

`Blocks` reads a configuration with an `Env` in which a path has one module. Here the modules come
from the cache that `get_or_load` keeps. As long as the files stay what they are and nothing that is
asked for is refused, the two agree.

The cache compares paths by `ngx_strncmp`, and the system opens a file by its name, both up to the first
zero byte; so two paths of one length that the cache takes for one name one file (`plainLoad_congr`).

* `Cached`: the cache holds what its files compile to, each file once. `Loaded.cached`: a load keeps
  that.
* `configure_steady`: the configuration agrees with the one that has no cache, at the addresses of the
  cache in the end.
* `loader_refines`: the configuration is accepted by the one exactly if it is by the other, each
  phase has the module that its own file compiles to, and two phases share a module exactly if
  their paths are one.
* `imports_defined`: the runtime comes up exactly if nothing it asks for is refused; every host
  function is then linked under its name, with the type that it tests its arguments against.
-/

namespace NgxWasm.Config.Loader

open Lib Lib.Fallible
open NgxWasm.Abi

/-! ## The cache -/

theorem samePath_iff {a b : Bytes} :
    samePath a b = true ↔ a.length = b.length ∧ cString a = cString b := by
  simp [samePath]

theorem samePath_trans {a b c : Bytes} (hab : samePath a b = true) (hbc : samePath b c = true) :
    samePath a c = true := by
  rw [samePath_iff] at *
  exact ⟨hab.1.trans hbc.1, hab.2.trans hbc.2⟩

theorem samePath_symm {a b : Bytes} (hab : samePath a b = true) : samePath b a = true := by
  rw [samePath_iff] at *
  exact ⟨hab.1.symm, hab.2.symm⟩

/-- Two paths that are one name one file. -/
theorem plainLoad_congr {sys : Sys} {a b : Bytes} (h : samePath a b = true) :
    plainLoad sys a = plainLoad sys b := by
  unfold plainLoad plainRead
  rw [(samePath_iff.mp h).2]

/-- **The cache** holds what its files compile to, each file once, and the phases that are configured
point into it. -/
structure Cached (sys : Sys) (c : Cycle) : Prop where
  entries : ∀ entry ∈ c.wmcf.modules, ∃ module, entry.module = some module ∧
    plainLoad sys entry.modulePath = some module.binary
  distinct : c.wmcf.modules.Pairwise fun a b => samePath a.modulePath b.modulePath = false
  phases : ∀ slot i, (c.phases slot).module = some i →
    ∃ path, (c.phases slot).modulePath = some path ∧ findModule c.wmcf path = some i

variable {sys : Sys} {w c : Cycle} {path : Bytes} {i : Nat}

/-- An entry that is found has the path, and the module. -/
theorem Cached.found (hc : Cached sys c) (h : findModule c.wmcf path = some i) :
    ∃ entry module, c.wmcf.modules[i]? = some entry ∧ samePath entry.modulePath path = true ∧
      entry.module = some module ∧ plainLoad sys path = some module.binary := by
  obtain ⟨hi, hpath, -⟩ := List.findIdx?_eq_some_iff_getElem.mp h
  obtain ⟨module, hmodule, hload⟩ := hc.entries _ (List.getElem_mem hi)
  exact ⟨_, module, List.getElem?_eq_getElem hi, hpath, hmodule, plainLoad_congr hpath ▸ hload⟩

/-- An address in a cache stays in one that has grown. -/
theorem findModule_mono {v v' : MainConf} (hgrow : v.modules <+: v'.modules)
    (h : findModule v path = some i) : findModule v' path = some i := by
  obtain ⟨more, hmore⟩ := hgrow
  unfold findModule at h ⊢
  rw [← hmore, List.findIdx?_append, h]
  rfl

theorem findModule_push {module : Module} (h : findModule w.wmcf path = none) :
    findModule (w.push module path).wmcf path = some w.wmcf.modules.length := by
  unfold findModule at h ⊢
  rw [Cycle.push, List.findIdx?_append, h, List.findIdx?_cons]
  simp [samePath]

theorem Loaded.grows {w' : Cycle} (h : Loaded sys path w i w') :
    w.wmcf.modules <+: w'.wmcf.modules := by
  cases h with
  | found => exact List.prefix_rfl
  | compiled => exact List.prefix_append _ _

theorem Loaded.finds {w' : Cycle} (h : Loaded sys path w i w') :
    findModule w'.wmcf path = some i := by
  cases h with
  | found hfind => exact hfind
  | compiled hfind => exact findModule_push hfind

theorem Loaded.phases {w' : Cycle} (h : Loaded sys path w i w') : w'.phases = w.phases := by
  cases h <;> rfl

/-- **A load keeps the cache.** -/
theorem Loaded.cached {w' : Cycle} (h : Loaded sys path w i w') (hw : Cached sys w) :
    Cached sys w' := by
  cases h with
  | found => exact hw
  | @compiled module hfind hload =>
    refine ⟨fun entry hmem => ?_, ?_, fun slot i hslot => ?_⟩
    · rcases List.mem_append.mp hmem with hold | hnew
      · exact hw.entries entry hold
      · obtain rfl := List.mem_singleton.mp hnew
        exact ⟨module, rfl, hload⟩
    · refine List.pairwise_append.mpr ⟨hw.distinct, List.pairwise_singleton _ _, ?_⟩
      intro entry hold new hnew
      obtain rfl := List.mem_singleton.mp hnew
      exact Bool.eq_false_iff.mpr (List.findIdx?_eq_none_iff.mp hfind entry hold ▸ by simp)
    · obtain ⟨p, hpath, hp⟩ := hw.phases slot i hslot
      exact ⟨p, hpath, findModule_mono (List.prefix_append _ _) hp⟩

/-! ## The configuration without the cache -/

/-- The environment in which a path has the module its file compiles to, at the address the cache
`v` has it. -/
def plainEnv (sys : Sys) (fullName : Bytes → Option Bytes) (v : MainConf) : Env where
  fullName := fullName
  getOrLoad path := (plainLoad sys path).map fun _ => (findModule v path).getD 0

/-- One directive, in such an environment. -/
def plainPhase (env : Env) (phases : Nat → PhaseConf) (d : PhaseDirective) :
    Option (Nat → PhaseConf) :=
  (Config.configurePhase env d.modulePath d.exportName (phases d.slot)).map
    (Function.update phases d.slot)

/-- The directives of the file. -/
def plainConfigure (env : Env) (phases : Nat → PhaseConf) (ds : List PhaseDirective) :
    Option (Nat → PhaseConf) := ds.foldlM (plainPhase env) phases

variable {fullName : Bytes → Option Bytes} {d : PhaseDirective}

/-- A directive that finds the files as they are, and memory. -/
structure Steady (sys : Sys) (fullName : Bytes → Option Bytes) (d : PhaseDirective) : Prop where
  sys : d.sys = sys
  fullName : d.fullName = fullName
  granted : d.env.Granted

theorem Configured.steady (h : Configured d w c) (hd : Steady sys fullName d)
    (hw : Cached sys w) :
    Cached sys c ∧ w.wmcf.modules <+: c.wmcf.modules ∧
      ∀ v : MainConf, c.wmcf.modules <+: v.modules →
        plainPhase (plainEnv sys fullName v) w.phases d = some c.phases := by
  obtain ⟨hset, path, i, w', hname, hloaded, hc⟩ := h
  rw [hd.sys] at hloaded
  rw [hd.fullName] at hname
  have hwmcf : c.wmcf = w'.wmcf := by rw [hc.same]; rfl
  have hphases : c.phases = Function.update w.phases d.slot (d.conf path i) := by
    rw [hc.same]
    simp [Cycle.setPhase, hloaded.phases]
  have hcached := hloaded.cached hw
  refine ⟨⟨?_, ?_, fun slot j hj => ?_⟩, by rw [hwmcf]; exact hloaded.grows, fun v hv => ?_⟩
  · rw [hwmcf]
    exact hcached.entries
  · rw [hwmcf]
    exact hcached.distinct
  · rw [hwmcf]
    rw [hphases] at hj ⊢
    by_cases hslot : slot = d.slot
    · subst hslot
      rw [Function.update_self] at hj ⊢
      obtain rfl := Option.some.inj hj
      exact ⟨path, rfl, hloaded.finds⟩
    · rw [Function.update_of_ne hslot] at hj ⊢
      exact hcached.phases slot j (by rwa [hloaded.phases]) |>.imp fun p hp =>
        ⟨by rw [← hloaded.phases]; exact hp.1, hp.2⟩
  · obtain ⟨-, module, -, -, -, hload⟩ := hcached.found hloaded.finds
    have hfind : findModule v path = some i := findModule_mono (hwmcf ▸ hv) hloaded.finds
    rw [hphases, plainPhase, Config.configurePhase, if_neg hset]
    simp [plainEnv, hname, hload, hfind, PhaseDirective.conf]

theorem Refused.steady (h : Refused d w c) (hd : Steady sys fullName d) (v : MainConf) :
    c.wmcf = w.wmcf ∧ plainPhase (plainEnv sys fullName v) w.phases d = none := by
  obtain ⟨⟨phases, hc⟩, hfail⟩ := h
  refine ⟨by rw [hc.same], ?_⟩
  rw [plainPhase, Config.configurePhase, Option.map_eq_none_iff]
  split
  · rfl
  · rename_i hset
    have hpaths := hfail.resolve_left hset
    rw [hd.fullName, hd.sys] at hpaths
    cases hname : fullName d.modulePath with
    | none => simp [plainEnv, hname]
    | some path =>
      obtain ⟨-, hnone | hdenied⟩ := hpaths path hname
      · simp [plainEnv, hname, hnone]
      · exact absurd hd.granted hdenied

/-- **The configuration agrees** with the one that has no cache, at the addresses of the cache in the
end. -/
theorem configure_steady {ds : List PhaseDirective} (hds : ∀ d ∈ ds, Steady sys fullName d)
    (hc : Owned c) (hlive : Live c) (hcached : Cached sys c) :
    wp (configure ds)
      (fun _ c' => Cached sys c' ∧ c.wmcf.modules <+: c'.wmcf.modules ∧
        ∀ v : MainConf, c'.wmcf.modules <+: v.modules →
          plainConfigure (plainEnv sys fullName v) c.phases ds = some c'.phases)
      (fun c' => c.wmcf.modules <+: c'.wmcf.modules ∧
        ∀ v : MainConf, c'.wmcf.modules <+: v.modules →
          plainConfigure (plainEnv sys fullName v) c.phases ds = none) c := by
  induction ds generalizing c with
  | nil => exact ⟨hcached, List.prefix_rfl, fun _ _ => rfl⟩
  | cons d ds ih =>
    have hd := hds d List.mem_cons_self
    have hrefused : ∀ c', Refused d c c' → c.wmcf.modules <+: c'.wmcf.modules ∧
        ∀ v : MainConf, c'.wmcf.modules <+: v.modules →
          plainConfigure (plainEnv sys fullName v) c.phases (d :: ds) = none := by
      intro c' h
      refine ⟨(h.steady hd c.wmcf).1 ▸ List.prefix_rfl, fun v _ => ?_⟩
      rw [plainConfigure, List.foldlM_cons, (h.steady hd v).2]
      rfl
    refine wp_bind.mpr (wp_mono (configurePhase_spec hc hlive.engine d) ?_ hrefused)
    intro ok c₁ h
    cases ok with
    | false => exact hrefused c₁ h
    | true =>
      obtain ⟨hcached₁, hgrow₁, hplain⟩ := Configured.steady h hd hcached
      obtain ⟨hc₁, hlive₁⟩ := Configured.live h hlive
      refine wp_mono (ih (fun d hd => hds d (List.mem_cons_of_mem _ hd)) hc₁ hlive₁ hcached₁) ?_ ?_
      · rintro - c' ⟨hcached', hgrow, hrest⟩
        refine ⟨hcached', hgrow₁.trans hgrow, fun v hv => ?_⟩
        rw [plainConfigure, List.foldlM_cons, hplain v (hgrow.trans hv)]
        exact hrest v hv
      · rintro c' ⟨hgrow, hrest⟩
        refine ⟨hgrow₁.trans hgrow, fun v hv => ?_⟩
        rw [plainConfigure, List.foldlM_cons, hplain v (hgrow.trans hv)]
        exact hrest v hv

theorem Cached.shared (hc : Cached sys c) {s t : Nat} {p q : Bytes} {i j : Nat}
    (hp : (c.phases s).modulePath = some p) (hi : (c.phases s).module = some i)
    (hq : (c.phases t).modulePath = some q) (hj : (c.phases t).module = some j) :
    i = j ↔ samePath p q = true := by
  obtain ⟨p', hp', hfindp⟩ := hc.phases s i hi
  obtain rfl := Option.some.inj (hp.symm.trans hp')
  obtain ⟨q', hq', hfindq⟩ := hc.phases t j hj
  obtain rfl := Option.some.inj (hq.symm.trans hq')
  constructor
  · rintro rfl
    obtain ⟨entry, -, hentry, hsamep, -⟩ := hc.found hfindp
    obtain ⟨entry', -, hentry', hsameq, -⟩ := hc.found hfindq
    obtain rfl := Option.some.inj (hentry.symm.trans hentry')
    exact samePath_trans (samePath_symm hsamep) hsameq
  · intro hsame
    have heq : findModule c.wmcf p = findModule c.wmcf q := by
      unfold findModule
      congr 1
      funext m
      refine Bool.eq_iff_iff.mpr ⟨fun h => samePath_trans h hsame, fun h => ?_⟩
      exact samePath_trans h (samePath_symm hsame)
    exact Option.some.inj (hfindp.symm.trans (heq.trans hfindq))

/-- **The loader refines the configuration that has one module for a path**: where no allocation and
no call of the engine is refused, it accepts the same files and gives each phase the module that its
own file compiles to, and two phases have one module exactly if their paths are one. -/
theorem loader_refines (init : InitEnv) (sys : Sys) (fullName : Bytes → Option Bytes)
    (ds : List PhaseDirective) (hinit : init.Granted) (hds : ∀ d ∈ ds, Steady sys fullName d) :
    let r := (createMainConf init >>= fun _ => configure ds) {}
    (∃ address : Bytes → Nat,
      plainConfigure ⟨fullName, fun path => (plainLoad sys path).map fun _ => address path⟩
        (fun _ => { set := confUnset }) ds = r.1.map fun _ => r.2.phases) ∧
    (r.1 = some () → ∀ s path i, (r.2.phases s).modulePath = some path →
      (r.2.phases s).module = some i →
      (∃ module, r.2.module? (r.2.phases s) = some module ∧
        plainLoad sys path = some module.binary) ∧
      ∀ t path' j, (r.2.phases t).modulePath = some path' → (r.2.phases t).module = some j →
        (i = j ↔ samePath path path' = true)) := by
  have hrun : wp (createMainConf init >>= fun _ => configure ds)
      (fun _ c => Cached sys c ∧
        plainConfigure (plainEnv sys fullName c.wmcf) (fun _ => { set := confUnset }) ds =
          some c.phases)
      (fun c => plainConfigure (plainEnv sys fullName c.wmcf) (fun _ => { set := confUnset }) ds =
        none) {} := by
    refine wp_bind.mpr (wp_mono (createMainConf_spec init) ?_ fun c h => absurd hinit h.2)
    rintro - c ⟨⟨hc, hlive⟩, hmodules, hphases, -⟩
    have hcached : Cached sys c := by
      refine ⟨by rw [hmodules]; nofun, by rw [hmodules]; exact .nil, fun slot i hi => ?_⟩
      rw [hphases] at hi
      cases hi
    refine wp_mono (configure_steady hds hc hlive hcached) ?_ ?_
    · rintro - c' ⟨hcached', -, hplain⟩
      exact ⟨hcached', hphases ▸ hplain c'.wmcf List.prefix_rfl⟩
    · rintro c' ⟨-, hplain⟩
      exact hphases ▸ hplain c'.wmcf List.prefix_rfl
  obtain ⟨hsome, hnone⟩ := hrun.of_run
  intro r
  refine ⟨⟨fun path => (findModule r.2.wmcf path).getD 0, ?_⟩, fun hok s path i hpath hi => ?_⟩
  · cases hr : r.1 with
    | none => exact hnone hr
    | some u => exact (hsome u hr).2
  · have hcached := (hsome () hok).1
    refine ⟨?_, fun t path' j hpath' hj => hcached.shared hpath hi hpath' hj⟩
    obtain ⟨p, hp, hfind⟩ := hcached.phases s i hi
    obtain rfl := Option.some.inj (hpath.symm.trans hp)
    obtain ⟨entry, module, hentry, -, hmodule, hload⟩ := hcached.found hfind
    refine ⟨module, ?_, hload⟩
    unfold Cycle.module?
    rw [hi, Option.bind_some, hentry, Option.bind_some, hmodule]

/-- Nothing is refused. -/
def grantedInit : InitEnv where
  confOk := true
  modulesOk := true
  definitionsOk := true
  runtimeOk := true
  configOk := true
  engineOk := true
  linkerOk := true
  defineOk := fun _ => true
  cleanupOk := true

/-- A system in which every file is an empty binary module. -/
def emptyModules : Sys where
  openFile := fun _ => some ⟨true, 8, some [0x00, 0x61, 0x73, 0x6d, 0x01, 0x00, 0x00, 0x00]⟩
  moduleNew := fun _ => true
  wat2wasm := fun _ => none

/-- A directive for the phase at `slot`, with the module `/m`. -/
def emptyDirective (slot : Nat) : PhaseDirective where
  slot := slot
  modulePath := [0x2f, 0x6d]
  exportName := [0x66]
  fullName := some
  sys := emptyModules
  env := ⟨true, true, true, true⟩

/-- Two phases with one module. -/
theorem loader_refines_two_phases :
    let ds := [emptyDirective 0, emptyDirective 1]
    let r := (createMainConf grantedInit >>= fun _ => configure ds) {}
    r.1 = some () ∧
    (∃ address : Bytes → Nat,
      plainConfigure ⟨some, fun path => (plainLoad emptyModules path).map fun _ => address path⟩
        (fun _ => { set := confUnset }) ds = r.1.map fun _ => r.2.phases) ∧
    (r.1 = some () → ∀ s path i, (r.2.phases s).modulePath = some path →
      (r.2.phases s).module = some i →
      (∃ module, r.2.module? (r.2.phases s) = some module ∧
        plainLoad emptyModules path = some module.binary) ∧
      ∀ t path' j, (r.2.phases t).modulePath = some path' → (r.2.phases t).module = some j →
        (i = j ↔ samePath path path' = true)) := by
  refine ⟨by decide +kernel, loader_refines grantedInit emptyModules some _ ?_ ?_⟩
  · exact ⟨rfl, rfl, rfl, rfl, rfl, rfl, rfl, fun _ _ => rfl, rfl⟩
  · intro d hd
    have hgranted : (emptyDirective 0).env.Granted := ⟨rfl, rfl, rfl, rfl⟩
    rcases List.mem_cons.mp hd with rfl | hd
    · exact ⟨rfl, rfl, hgranted⟩
    · obtain rfl := List.mem_singleton.mp hd
      exact ⟨rfl, rfl, hgranted⟩

/-! ## The imports -/

/-- The host functions stand in the table under their own names and types. -/
theorem definitions_match :
    definitions.map Definition.callback = hostFuncs ∧
      ∀ d ∈ definitions, d.name = d.callback.name ∧ d.params = d.callback.nargs := by
  refine ⟨rfl, ?_⟩
  simp only [definitions, List.forall_mem_cons]
  refine ⟨⟨rfl, rfl⟩, ⟨rfl, rfl⟩, ⟨rfl, rfl⟩, ⟨rfl, rfl⟩, ⟨rfl, rfl⟩, ⟨rfl, rfl⟩, ⟨rfl, rfl⟩,
    ⟨rfl, rfl⟩, ⟨rfl, rfl⟩, ⟨rfl, rfl⟩, ⟨rfl, rfl⟩, ⟨rfl, rfl⟩, ⟨rfl, rfl⟩, ⟨rfl, rfl⟩, ⟨rfl, rfl⟩,
    ⟨rfl, rfl⟩, ⟨rfl, rfl⟩, ⟨rfl, rfl⟩, ⟨rfl, rfl⟩, ⟨rfl, rfl⟩, ⟨rfl, rfl⟩, ⟨rfl, rfl⟩, ⟨rfl, rfl⟩,
    ⟨rfl, rfl⟩, ⟨rfl, rfl⟩, ⟨rfl, rfl⟩, ⟨rfl, rfl⟩, ⟨rfl, rfl⟩, ⟨rfl, rfl⟩, ⟨rfl, rfl⟩, ⟨rfl, rfl⟩,
    ⟨rfl, rfl⟩, ⟨rfl, rfl⟩, ⟨rfl, rfl⟩, ⟨rfl, rfl⟩, ⟨rfl, rfl⟩, ⟨rfl, rfl⟩, ⟨rfl, rfl⟩,
    fun d hd => absurd hd List.not_mem_nil⟩

/-- What the linker lets through passes the test of the signature. -/
theorem signatureOk_of_params {d : Definition} (hd : d ∈ definitions) {args : List Int32}
    (hargs : args.length = d.params) : d.callback.signatureOk (args.map .i32) 1 = true := by
  unfold HostFn.signatureOk
  rw [List.length_map, hargs, (definitions_match.2 d hd).2]
  simp

/-- **The imports are linked**: the main configuration comes up exactly if nothing is refused. The
linker then has every host function once, under its name, and a call of the type it was defined with
never fails the test of its signature. -/
theorem imports_defined (env : InitEnv) :
    ((createMainConf env {}).1 = some () ↔ env.Granted) ∧
      ((createMainConf env {}).1 = some () →
        let funcs := (createMainConf env {}).2.funcs
        funcs.map Definition.callback = hostFuncs ∧ (funcs.map Definition.name).Nodup ∧
        ∀ d ∈ funcs, d.name = d.callback.name ∧ ∀ args : List Int32, args.length = d.params →
          d.callback.signatureOk (args.map .i32) 1 = true) := by
  obtain ⟨hsome, hnone⟩ := (createMainConf_spec env).of_run
  constructor
  · constructor
    · exact fun hok => (hsome () hok).2.2.2
    · intro hgranted
      cases hr : (createMainConf env {}).1 with
      | none => exact absurd hgranted (hnone hr).2
      | some u => rfl
  · intro hok funcs
    have hfuncs : funcs = definitions := (hsome () hok).1.2.funcs
    rw [hfuncs]
    exact ⟨definitions_match.1, definitions_nodup, fun d hd =>
      ⟨(definitions_match.2 d hd).1, fun args hargs => signatureOk_of_params hd hargs⟩⟩

end NgxWasm.Config.Loader
