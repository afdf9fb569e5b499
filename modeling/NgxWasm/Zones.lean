import NgxWasm.Lib.Run
import NgxWasm.Nginx

/-!
# The two shared zones over configurations

`wasm_shm_zone` and `wasm_metrics_zone` each name a zone of shared memory, at most one a
configuration. Their initialisers (`ngx_http_wasm_shm_init_zone`,
`ngx_http_wasm_metrics_init_zone`) make a root object in new memory, and adopt the root they are
handed otherwise. nginx decides which it is: a zone of a new configuration with the name and the size
of one of the running configuration keeps its memory, if both were added with the same module tag.
Both kinds of zone are added with `&ngx_http_wasm_module`.

A load of the model reads the directives (`directive`, with the `add_zone` functions), hands each zone
its memory as `ngx_init_cycle` does (`assign`), and calls the initialisers in the order of the zones
(`initZones`). A load that is rejected leaves the running configuration, whatever it did to the memory.

Roots are numbered in the order they are made, and the memory records whose initialiser made each
(`roots`) and which it gave to whom (`adopted`): no C field holds this. The pool of the
configuration is taken never to run out: where it does, the configuration is rejected. What lies
behind a root is in `Shm.Zone` and `Metrics.Zone`.

* `addZone_described`: within one configuration no record serves both directives.
* `initZone_sound`: an initialiser that is handed the data of its own kind, or new memory, leaves its
  zone with a root of its kind.
* `roots_match`: in every run in which no zone takes over the name and size of the zone of the other
  kind, each zone uses a root that its own initialiser made.
* `metrics_adopt_store`: a reload in which one does.
-/

namespace NgxWasm.Zones

open Lib

/-! ## Reading a configuration -/

/-- Which of the two directives, and so which initialiser. -/
inductive Kind where
  | shm
  | metrics
  deriving Repr, DecidableEq

/-- `ngx_http_wasm_shm_zone_t` and `ngx_http_wasm_metrics_zone_t`: these fields stand in the same
places of both. -/
structure ZoneCtx where
  kind : Kind
  name : Bytes
  size : Nat
  shpool : Option Nat
  sh : Option Nat
  deriving DecidableEq

/-- `ngx_shm_zone_t` with the tag of this module. Its `init` is set together with `data`, to the
initialiser of `data`'s kind. -/
structure ShmZone where
  name : Bytes
  size : Nat
  data : Option ZoneCtx
  addr : Option Nat
  deriving DecidableEq

/-- A configuration that is being read: the `shared_memory` of its cycle, and where in it the
zones of `ngx_http_wasm_main_conf_t` lie. -/
structure Conf where
  zones : List ShmZone
  shmZone : Option Nat
  metricsZone : Option Nat
  deriving DecidableEq

def Conf.empty : Conf := ⟨[], none, none⟩

/-- `*dst` of the two `add_zone` functions. -/
def Conf.dst (cf : Conf) : Kind → Option Nat
  | .shm => cf.shmZone
  | .metrics => cf.metricsZone

def Conf.setDst (cf : Conf) (i : Nat) : Kind → Conf
  | .shm => { cf with shmZone := some i }
  | .metrics => { cf with metricsZone := some i }

/-- `ngx_shared_memory_add`: the record with this name, or a new one. -/
def sharedMemoryAdd (name : Bytes) (size : Nat) (zones : List ShmZone) : Nat × List ShmZone :=
  match zones.findIdx? (·.name == name) with
  | some i => (i, zones)
  | none => (zones.length, zones ++ [⟨name, size, none, none⟩])

/-- The two `add_zone` functions. -/
def addZone (kind : Kind) (name : Bytes) (size : Nat) (cf : Conf) : Option Conf :=
  if (cf.dst kind).isSome then none
  else
    let r := sharedMemoryAdd name size cf.zones
    if ((r.2[r.1]?).bind ShmZone.data).isSome then none
    else
      let zones := r.2.modify r.1 fun z => { z with data := some ⟨kind, name, size, none, none⟩ }
      some ({ cf with zones := zones }.setDst r.1 kind)

/-- `ngx_http_wasm_shm_add_zone`. -/
def shmAddZone : Bytes → Nat → Conf → Option Conf := addZone .shm

/-- `ngx_http_wasm_metrics_add_zone`. -/
def metricsAddZone : Bytes → Nat → Conf → Option Conf := addZone .metrics

/-- A zone directive. The size is what `ngx_parse_size` makes of the text. -/
structure Directive where
  kind : Kind
  name : Bytes
  size : Option Nat

/-- `ngx_http_wasm_shm_zone` and `ngx_http_wasm_metrics_zone`. -/
def directive (pagesize : Nat) (cf : Conf) (d : Directive) : Option Conf :=
  match d.size with
  | none => none
  | some size =>
    if size < 8 * pagesize then none
    else
      match d.kind with
      | .shm => shmAddZone d.name size cf
      | .metrics => metricsAddZone d.name size cf

/-! ## Initialising the zones -/

/-- Shared memory. -/
structure Memory where
  /-- The `data` of each slab pool. -/
  pools : List (Option Nat)
  /-- Whose initialiser made each root. -/
  roots : List Kind
  /-- Who was given which root. -/
  adopted : List (Kind × Nat)
  deriving DecidableEq

/-- `shpool->data`. -/
def Memory.poolData (m : Memory) (addr : Option Nat) : Option Nat :=
  addr.bind fun a => m.pools[a]?.join

/-- `zone->sh = sh`. -/
def Memory.adopt (m : Memory) (kind : Kind) (sh : Option Nat) : Memory :=
  { m with adopted := m.adopted ++ (sh.map fun r => (kind, r)).toList }

/-- A new root in the pool at `addr`. -/
def Memory.makeRoot (m : Memory) (kind : Kind) (addr : Option Nat) : Memory :=
  { m with
    roots := m.roots ++ [kind]
    pools := match addr with
      | some a => m.pools.set a (some m.roots.length)
      | none => m.pools }

/-- The two `init_zone` functions, up to what they return once the zone has its root. `slab` tells
whether `ngx_slab_alloc_locked` finds room for one. -/
def initZone (kind : Kind) (rc : Rc) (slab : Bool) (zone : ZoneCtx) (addr : Option Nat)
    (old : Option ZoneCtx) (m : Memory) : Rc × ZoneCtx × Memory :=
  let zone := { zone with shpool := addr }
  match old with
  | some old => (rc, { zone with sh := old.sh }, m.adopt kind old.sh)
  | none =>
    match m.poolData addr with
    | some r => (rc, { zone with sh := some r }, m.adopt kind (some r))
    | none =>
      if !slab then (.error, zone, m)
      else
        (rc, { zone with sh := some m.roots.length },
          (m.makeRoot kind addr).adopt kind (some m.roots.length))

/-- What a configuration brings: its directives, and what happens when its zones are set up. -/
structure Config where
  directives : List Directive
  slab : Kind → Bool
  /-- What `ngx_http_wasm_metrics_ensure_definitions` returns. -/
  ensureDefinitions : Rc

/-- `ngx_http_wasm_shm_init_zone`. -/
def shmInitZone (c : Config) : ZoneCtx → Option Nat → Option ZoneCtx → Memory → Rc × ZoneCtx × Memory :=
  initZone .shm .ok (c.slab .shm)

/-- `ngx_http_wasm_metrics_init_zone`. -/
def metricsInitZone (c : Config) :
    ZoneCtx → Option Nat → Option ZoneCtx → Memory → Rc × ZoneCtx × Memory :=
  initZone .metrics c.ensureDefinitions (c.slab .metrics)

/-- `shm_zone->init`. -/
def callInit (c : Config) : Kind →
    ZoneCtx → Option Nat → Option ZoneCtx → Memory → Rc × ZoneCtx × Memory
  | .shm => shmInitZone c
  | .metrics => metricsInitZone c

/-- The zone of the running configuration whose memory `ngx_init_cycle` gives to `z`. -/
def reused (old : List ShmZone) (z : ShmZone) : Option ShmZone :=
  match old.find? (·.name == z.name) with
  | some o => if o.size = z.size then some o else none
  | none => none

/-- The memory `ngx_init_cycle` gives to `z`, and the `data` of the zone it had before. -/
def assign (old : List ShmZone) (z : ShmZone) (m : Memory) : Option Nat × Option ZoneCtx × Memory :=
  match reused old z with
  | some o => (o.addr, o.data, m)
  | none => (some m.pools.length, none, { m with pools := m.pools ++ [none] })

/-- The zones of a new configuration one after another, as `ngx_init_cycle` sets them up. -/
def initZones (c : Config) (old : List ShmZone) : List ShmZone → Memory →
    Option (List ShmZone) × Memory
  | [], m => (some [], m)
  | z :: zs, m =>
    match z.data with
    | none => (none, m)
    | some ctx =>
      let a := assign old z m
      let r := callInit c ctx.kind ctx a.1 a.2.1 a.2.2
      if r.1 ≠ .ok then (none, r.2.2)
      else
        let rest := initZones c old zs r.2.2
        (rest.1.map ({ z with data := some r.2.1, addr := a.1 } :: ·), rest.2)

/-- The zones of the running configuration, and the memory. -/
structure Server where
  zones : List ShmZone
  mem : Memory
  deriving DecidableEq

def Server.start : Server := ⟨[], ⟨[], [], []⟩⟩

/-- A configuration is loaded. One that is rejected is not run, whatever it did to the memory. -/
def load (pagesize : Nat) (s : Server) (c : Config) : Server :=
  match c.directives.foldlM (directive pagesize) Conf.empty with
  | none => s
  | some cf =>
    match initZones c s.zones cf.zones s.mem with
    | (some zones, mem) => ⟨zones, mem⟩
    | (none, mem) => { s with mem := mem }

/-! ## What reading a configuration gives -/

/-- Every zone of a configuration has the name, the size and the kind of one of its directives. -/
def Described (directives : List Directive) (zones : List ShmZone) : Prop :=
  ∀ z ∈ zones, ∃ d ∈ directives, z.name = d.name ∧ d.size = some z.size ∧
    ∃ ctx, z.data = some ctx ∧ ctx.kind = d.kind

theorem Described.mono {ds ds' : List Directive} {zones : List ShmZone} (h : Described ds zones)
    (hsub : ∀ d ∈ ds, d ∈ ds') : Described ds' zones := fun z hz =>
  have ⟨d, hd, hrest⟩ := h z hz
  ⟨d, hsub d hd, hrest⟩

theorem modify_append_singleton {α : Type} (f : α → α) (l : List α) (a : α) :
    (l ++ [a]).modify l.length f = l ++ [f a] := by
  induction l with
  | nil => rfl
  | cons b l ih => simpa using ih

theorem Conf.zones_setDst (cf : Conf) (i : Nat) (kind : Kind) :
    (cf.setDst i kind).zones = cf.zones := by
  cases kind <;> rfl

/-- **No record serves both directives**: the second one finds the first one's data. -/
theorem addZone_described {ds : List Directive} {d : Directive} {size : Nat} {cf cf' : Conf}
    (h : Described ds cf.zones) (hsize : d.size = some size)
    (hadd : addZone d.kind d.name size cf = some cf') : Described (ds ++ [d]) cf'.zones := by
  have hold : Described (ds ++ [d]) cf.zones := h.mono fun x hx => List.mem_append_left _ hx
  unfold addZone sharedMemoryAdd at hadd
  split at hadd
  · cases hadd
  cases hi : cf.zones.findIdx? (·.name == d.name) with
  | some i =>
    obtain ⟨hlt, -, -⟩ := List.findIdx?_eq_some_iff_getElem.mp hi
    obtain ⟨-, -, -, -, ctx, hctx, -⟩ := h _ (List.getElem_mem hlt)
    simp [hi, List.getElem?_eq_getElem hlt, hctx] at hadd
  | none =>
    simp only [hi] at hadd
    split at hadd
    · cases hadd
    obtain rfl := Option.some.inj hadd
    rw [Conf.zones_setDst, modify_append_singleton]
    intro z hz
    rcases List.mem_append.mp hz with hz | hz
    · exact hold z hz
    · obtain rfl := List.mem_singleton.mp hz
      exact ⟨d, List.mem_append_right _ (List.mem_singleton_self d), rfl, hsize, _, rfl, rfl⟩

theorem directive_described {pagesize : Nat} {ds : List Directive} {d : Directive} {cf cf' : Conf}
    (h : Described ds cf.zones) (hd : directive pagesize cf d = some cf') :
    Described (ds ++ [d]) cf'.zones := by
  unfold directive at hd
  split at hd
  · cases hd
  · rename_i size hsize
    split at hd
    · cases hd
    · refine addZone_described h hsize ?_
      cases hk : d.kind with
      | shm =>
        simp only [hk] at hd
        exact hd
      | metrics =>
        simp only [hk] at hd
        exact hd

theorem foldlM_described {pagesize : Nat} {ds : List Directive} (rest : List Directive)
    {cf cf' : Conf} (h : Described ds cf.zones)
    (hr : rest.foldlM (directive pagesize) cf = some cf') : Described (ds ++ rest) cf'.zones := by
  induction rest generalizing ds cf with
  | nil =>
    obtain rfl : cf = cf' := by simpa using hr
    simpa using h
  | cons d rest ih =>
    rw [List.foldlM_cons] at hr
    obtain ⟨cf₁, hcf, hrest⟩ := Option.bind_eq_some_iff.mp hr
    have := ih (directive_described h hcf) hrest
    rwa [List.append_assoc, List.singleton_append] at this

/-! ## The roots -/

/-- The zone has a root that its own initialiser made. -/
def Rooted (roots : List Kind) (ctx : ZoneCtx) : Prop :=
  ∃ r, ctx.sh = some r ∧ roots[r]? = some ctx.kind

/-- Every root went to the kind that made it. -/
def Memory.Sound (m : Memory) : Prop := ∀ p ∈ m.adopted, m.roots[p.2]? = some p.1

theorem getElem?_of_prefix {roots roots' : List Kind} (h : roots <+: roots') {r : Nat} {k : Kind}
    (hr : roots[r]? = some k) : roots'[r]? = some k := by
  obtain ⟨more, rfl⟩ := h
  rw [List.getElem?_append_left (List.getElem?_eq_some_iff.mp hr).1]
  exact hr

theorem Rooted.mono {roots roots' : List Kind} {ctx : ZoneCtx} (h : Rooted roots ctx)
    (hp : roots <+: roots') : Rooted roots' ctx :=
  have ⟨r, hsh, hr⟩ := h
  ⟨r, hsh, getElem?_of_prefix hp hr⟩

theorem Memory.Sound.adopt {m : Memory} (h : m.Sound) {kind : Kind} {sh : Option Nat}
    (hsh : ∀ r, sh = some r → m.roots[r]? = some kind) : (m.adopt kind sh).Sound := by
  intro p hp
  rcases List.mem_append.mp hp with hp | hp
  · exact h p hp
  · cases sh with
    | none => cases hp
    | some r =>
      obtain rfl := List.mem_singleton.mp hp
      exact hsh r rfl

theorem Memory.Sound.makeRoot {m : Memory} (h : m.Sound) (kind : Kind) (addr : Option Nat) :
    (m.makeRoot kind addr).Sound := fun p hp =>
  getElem?_of_prefix (List.prefix_append _ _) (h p hp)

/-- **What an initialiser does**, handed the data of a zone of its own kind, or new memory. -/
theorem initZone_sound {kind : Kind} {rc : Rc} {slab : Bool} {zone : ZoneCtx} {addr : Option Nat}
    {old : Option ZoneCtx} {m : Memory} (hm : m.Sound) (hkind : zone.kind = kind)
    (hold : ∀ o, old = some o → o.kind = kind ∧ Rooted m.roots o)
    (hnew : old = none → m.poolData addr = none) :
    let r := initZone kind rc slab zone addr old m
    r.2.2.Sound ∧ m.roots <+: r.2.2.roots ∧ r.2.1.kind = kind ∧
      (r.1 = .ok → Rooted r.2.2.roots r.2.1) := by
  unfold initZone
  cases old with
  | some o =>
    obtain ⟨hk, r, hsh, hr⟩ := hold o rfl
    rw [hk] at hr
    refine ⟨hm.adopt fun r' h' => ?_, List.prefix_rfl, hkind, fun _ => ⟨r, hsh, ?_⟩⟩
    · rw [hsh] at h'
      exact Option.some.inj h' ▸ hr
    · exact hr.trans (congrArg some hkind.symm)
  | none =>
    simp only [hnew rfl]
    cases slab with
    | false => exact ⟨hm, List.prefix_rfl, hkind, nofun⟩
    | true =>
      have hlast : (m.makeRoot kind addr).roots[m.roots.length]? = some kind := by
        simp [Memory.makeRoot]
      refine ⟨(hm.makeRoot kind addr).adopt ?_, List.prefix_append _ _, hkind, fun _ => ?_⟩
      · rintro r hr
        exact Option.some.inj hr ▸ hlast
      · exact ⟨_, rfl, hlast.trans (congrArg some hkind.symm)⟩

theorem callInit_sound {c : Config} {zone : ZoneCtx} {addr : Option Nat} {old : Option ZoneCtx}
    {m : Memory} (hm : m.Sound)
    (hold : ∀ o, old = some o → o.kind = zone.kind ∧ Rooted m.roots o)
    (hnew : old = none → m.poolData addr = none) :
    let r := callInit c zone.kind zone addr old m
    r.2.2.Sound ∧ m.roots <+: r.2.2.roots ∧ (r.1 = .ok → Rooted r.2.2.roots r.2.1) := by
  cases hk : zone.kind with
  | shm =>
    obtain ⟨hs, hp, -, hr⟩ : (shmInitZone c zone addr old m).2.2.Sound ∧ _ :=
      initZone_sound hm hk (hk ▸ hold) hnew
    exact ⟨hs, hp, hr⟩
  | metrics =>
    obtain ⟨hs, hp, -, hr⟩ : (metricsInitZone c zone addr old m).2.2.Sound ∧ _ :=
      initZone_sound hm hk (hk ▸ hold) hnew
    exact ⟨hs, hp, hr⟩

theorem mem_of_reused {old : List ShmZone} {z o : ShmZone} (h : reused old z = some o) :
    o ∈ old ∧ o.name = z.name ∧ o.size = z.size := by
  unfold reused at h
  split at h
  · rename_i o' ho
    split at h
    · rename_i hsize
      obtain rfl := Option.some.inj h
      exact ⟨List.mem_of_find?_eq_some ho, by simpa using List.find?_some ho, hsize⟩
    · cases h
  · cases h

/-- The zones of a configuration have their roots. -/
def AllRooted (roots : List Kind) (zones : List ShmZone) : Prop :=
  ∀ z ∈ zones, ∃ ctx, z.data = some ctx ∧ Rooted roots ctx

theorem AllRooted.mono {roots roots' : List Kind} {zones : List ShmZone} (h : AllRooted roots zones)
    (hp : roots <+: roots') : AllRooted roots' zones := fun z hz =>
  have ⟨ctx, hctx, hr⟩ := h z hz
  ⟨ctx, hctx, hr.mono hp⟩

/-- No zone takes over the name and the size of a zone of the other kind. -/
def Apart (old zones : List ShmZone) : Prop :=
  ∀ z ∈ zones, ∀ ctx ∈ z.data, ∀ o ∈ old, o.name = z.name → o.size = z.size →
    ∀ octx ∈ o.data, octx.kind = ctx.kind

theorem initZones_sound {c : Config} {old zones : List ShmZone} {m : Memory} (hm : m.Sound)
    (hold : AllRooted m.roots old) (hapart : Apart old zones) :
    (initZones c old zones m).2.Sound ∧ m.roots <+: (initZones c old zones m).2.roots ∧
      ∀ zs, (initZones c old zones m).1 = some zs → AllRooted (initZones c old zones m).2.roots zs := by
  induction zones generalizing m with
  | nil =>
    refine ⟨hm, List.prefix_rfl, fun zs h z hz => ?_⟩
    obtain rfl := Option.some.inj h
    cases hz
  | cons z zs ih =>
    unfold initZones
    cases hz : z.data with
    | none => exact ⟨hm, List.prefix_rfl, nofun⟩
    | some ctx =>
      have hassign : (assign old z m).2.2.Sound ∧ (assign old z m).2.2.roots = m.roots ∧
          (∀ o, (assign old z m).2.1 = some o → o.kind = ctx.kind ∧ Rooted m.roots o) ∧
          ((assign old z m).2.1 = none →
            (assign old z m).2.2.poolData (assign old z m).1 = none) := by
        unfold assign
        cases hr : reused old z with
        | some o =>
          obtain ⟨ho, hname, hsize⟩ := mem_of_reused hr
          obtain ⟨octx, hdata, hroot⟩ := hold o ho
          refine ⟨hm, rfl, fun x hx => ?_, fun hx => ?_⟩
          · obtain rfl : octx = x := Option.some.inj (hdata.symm.trans hx)
            exact ⟨hapart z List.mem_cons_self ctx hz o ho hname hsize octx hdata, hroot⟩
          · cases hdata.symm.trans hx
        | none =>
          refine ⟨hm, rfl, nofun, fun _ => ?_⟩
          simp [Memory.poolData]
      obtain ⟨hm₁, hroots, hdata, hpool⟩ := hassign
      obtain ⟨hm₂, hpre, hrooted⟩ : (callInit c ctx.kind ctx (assign old z m).1 (assign old z m).2.1
          (assign old z m).2.2).2.2.Sound ∧ _ :=
        callInit_sound hm₁ (hroots ▸ hdata) hpool
      rw [hroots] at hpre
      dsimp only
      split
      · exact ⟨hm₂, hpre, nofun⟩
      · rename_i hok
        have hrest := ih hm₂ (hold.mono hpre) fun x hx => hapart x (List.mem_cons_of_mem _ hx)
        obtain ⟨hm₃, hpre₃, hall⟩ := hrest
        refine ⟨hm₃, hpre.trans hpre₃, fun zs' hzs => ?_⟩
        obtain ⟨rest, hrest, rfl⟩ := Option.map_eq_some_iff.mp hzs
        intro x hx
        rcases List.mem_cons.mp hx with rfl | hx
        · exact ⟨_, rfl, (hrooted (not_not.mp hok)).mono hpre₃⟩
        · exact hall rest hrest x hx

/-! ## Runs -/

/-- Every zone of the server, and every one that was ever set up, has a root of its kind. -/
structure RootsMatch (s : Server) : Prop where
  mem : s.mem.Sound
  zones : AllRooted s.mem.roots s.zones

/-- No directive takes over the name and the size of a running zone of the other kind. -/
def NoSwap (s : Server) (c : Config) : Prop :=
  ∀ d ∈ c.directives, ∀ z ∈ s.zones, z.name = d.name → d.size = some z.size →
    ∀ ctx ∈ z.data, ctx.kind = d.kind

instance (s : Server) (c : Config) : Decidable (NoSwap s c) := by
  unfold NoSwap
  infer_instance

theorem RootsMatch.load {pagesize : Nat} {s : Server} (h : RootsMatch s) {c : Config}
    (hswap : NoSwap s c) : RootsMatch (load pagesize s c) := by
  unfold Zones.load
  cases hconf : c.directives.foldlM (directive pagesize) Conf.empty with
  | none => exact h
  | some cf =>
    have hempty : Described [] Conf.empty.zones := nofun
    have hdesc : Described c.directives cf.zones := foldlM_described c.directives hempty hconf
    have hapart : Apart s.zones cf.zones := by
      intro z hz ctx hctx o ho hname hsize octx hocx
      obtain ⟨d, hd, hzn, hzs, ctx', hctx', hk⟩ := hdesc z hz
      obtain rfl : ctx' = ctx := Option.some.inj (hctx'.symm.trans hctx)
      rw [hk]
      exact hswap d hd o ho (hname.trans hzn) (hsize ▸ hzs) octx hocx
    obtain ⟨hm, hpre, hall⟩ : (initZones c _ _ _).2.Sound ∧ _ := initZones_sound h.mem h.zones hapart
    dsimp only
    cases hr : initZones c s.zones cf.zones s.mem with
    | mk r mem =>
      rw [hr] at hm hpre hall
      cases r with
      | none => exact ⟨hm, h.zones.mono hpre⟩
      | some zones => exact ⟨hm, hall zones rfl⟩

/-- **Each zone uses a root of its own kind**, in every run in which no configuration gives a zone
the name and the size of a running zone of the other kind. -/
theorem roots_match (pagesize : Nat) (configs : List Config)
    (h : Meets (load pagesize) NoSwap .start configs) :
    RootsMatch (runFrom (load pagesize) .start configs) :=
  h.invariant ⟨nofun, nofun⟩ fun _ _ hs hswap => hs.load hswap

/-- A reload that grows the store and drops the metrics. -/
theorem roots_match_grow :
    let configs : List Config :=
      [⟨[⟨.shm, [122], some 65536⟩, ⟨.metrics, [109], some 65536⟩], fun _ => true, .ok⟩,
        ⟨[⟨.shm, [122], some 131072⟩], fun _ => true, .ok⟩]
    RootsMatch (runFrom (load 4096) .start configs) :=
  roots_match 4096 [⟨[⟨.shm, [122], some 65536⟩, ⟨.metrics, [109], some 65536⟩], fun _ => true, .ok⟩,
    ⟨[⟨.shm, [122], some 131072⟩], fun _ => true, .ok⟩] (by decide)

/-- A reload that turns the store into a zone of metrics: their tree is the root of the store. -/
theorem metrics_adopt_store :
    let configs : List Config :=
      [⟨[⟨.shm, [122], some 65536⟩], fun _ => true, .ok⟩,
        ⟨[⟨.metrics, [122], some 65536⟩], fun _ => true, .ok⟩]
    let s := runFrom (load 4096) .start configs
    s.zones = [⟨[122], 65536, some ⟨.metrics, [122], 65536, some 0, some 0⟩, some 0⟩] ∧
      s.mem.roots = [.shm] ∧ ¬ RootsMatch s := by
  refine ⟨by decide, by decide, fun h => ?_⟩
  have hroot := h.mem (.metrics, 0) (by decide)
  exact absurd hroot (by decide)

end NgxWasm.Zones
