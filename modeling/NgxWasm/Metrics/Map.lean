import NgxWasm.Lib.Run
import NgxWasm.Metrics.Zone
import NgxWasm.Shm.Lookup

/-!
# The metrics zone is a map

`Zone.map` reads the zone by `lookup`, as the operations do: a finite map from names to kinds and
values. The insert callback and the lookup compare by the same order here (`insertCmp_eq`), so the
tree stays sorted by it whatever the hashes are (`Inv`), and the map sees every node. Unlike the store,
names whose hashes collide need no condition.

`Next` is a step of the map, written without the tree: a load declares names, up to one it fails at,
and a writer changes the entry of its name if it has the kind that is needed.

* `Inv.define`: a definition that is missing becomes one more entry.
* `ensureDefinitions_map`: a load declares its definitions one by one, up to the first that clashes
  or finds no memory.
* `exec_next`: one call on the zone is one step of the map.
* `metrics_refine_map`: every run of loads and operations is a run of the map (`Next`), every node is
  the one that its name finds, and a name keeps its kind for good.

The tree, the allocator and the hash are any. A zone starts empty and is shared by the workers, and
each operation has the mutex to itself, so that a run is a list of loads and operations in the order
they took it.
-/

namespace NgxWasm.Metrics

open Lib
open Shm (nodeCmp)

/-! ## The map -/

/-- What a metrics zone stands for. -/
abbrev MetricMap := Bytes → Option (Kind × Int64)

namespace MetricMap

/-- A definition adds its name with the value 0, unless it is there. -/
def declare (m : MetricMap) (d : MetricDef) : MetricMap :=
  if m d.name = none then Function.update m d.name (some (d.kind, 0)) else m

/-- A list of definitions, one by one. -/
def declareAll (m : MetricMap) (defs : List MetricDef) : MetricMap := defs.foldl declare m

/-- A metric of this kind gets a new value. -/
def write (kind : Kind) (next : Int64 → Int64) (name : Bytes) (m : MetricMap) : Int × MetricMap :=
  match m name with
  | none => (wasmError, m)
  | some (k, value) =>
    if k ≠ kind then (wasmError, m) else (wasmOk, Function.update m name (some (k, next value)))

/-- The kind a name has. -/
def kind (m : MetricMap) (name : Bytes) : Option Kind := (m name).map Prod.fst

/-- **What a list of definitions adds**: the names that are missing, each with the kind it is first
given. -/
theorem declareAll_apply (m : MetricMap) (defs : List MetricDef) (name : Bytes) :
    m.declareAll defs name =
      (m name).or ((defs.find? (·.name = name)).map fun d => (d.kind, 0)) := by
  induction defs generalizing m with
  | nil => simp [declareAll]
  | cons d defs ih =>
    have hstep : m.declareAll (d :: defs) = (m.declare d).declareAll defs := rfl
    rw [hstep, ih]
    unfold declare
    by_cases hd : d.name = name
    · subst hd
      by_cases hm : m d.name = none
      · rw [if_pos hm, Function.update_self, hm]
        simp
      · rw [if_neg hm]
        obtain ⟨v, hv⟩ := Option.ne_none_iff_exists'.mp hm
        rw [hv]
        rfl
    · have hfind : (d :: defs).find? (·.name = name) = defs.find? (·.name = name) := by
        simp [hd]
      rw [hfind]
      split
      · rw [Function.update_of_ne (Ne.symm hd)]
      · rfl

theorem kind_declareAll {m : MetricMap} {name : Bytes} {k : Kind} (h : m.kind name = some k)
    (defs : List MetricDef) : (m.declareAll defs).kind name = some k := by
  unfold kind at *
  obtain ⟨v, hv, rfl⟩ := Option.map_eq_some_iff.mp h
  rw [declareAll_apply, hv]
  rfl

theorem kind_write {m : MetricMap} {k : Kind} {next : Int64 → Int64} {name name' : Bytes} :
    (m.write k next name).2.kind name' = m.kind name' := by
  unfold write kind
  split
  · rfl
  · rename_i k' value hm
    split
    · rfl
    · dsimp only
      by_cases hn : name' = name
      · subst hn
        rw [Function.update_self, hm]
        rfl
      · rw [Function.update_of_ne hn]

end MetricMap

/-- One step of the map. A load that fails has declared the definitions before the one it fails at. -/
def Next (m : MetricMap) (o : Op × Reply) (m' : MetricMap) : Prop :=
  match o.1 with
  | .load defs =>
    (o.2 = .loaded .ok ∧ m' = m.declareAll defs ∧ ∀ d ∈ defs, m'.kind d.name = some d.kind) ∨
      (o.2 = .loaded .error ∧ ∃ done d rest, defs = done ++ d :: rest ∧ m' = m.declareAll done)
  | .counterInc name delta =>
    let r := if !nameValid name || decide (delta < 0) then (wasmError, m)
      else m.write .counter (saturatingAdd delta) name
    o.2 = .status r.1 ∧ m' = r.2
  | .gaugeSet name value =>
    let r := if !nameValid name then (wasmError, m) else m.write .gauge (fun _ => value) name
    o.2 = .status r.1 ∧ m' = r.2
  | .gaugeAdd name delta =>
    let r := if !nameValid name then (wasmError, m) else m.write .gauge (· + delta) name
    o.2 = .status r.1 ∧ m' = r.2
  | .get name =>
    m' = m ∧ o.2 = if !nameValid name then .found wasmError none
      else if m name = none then .found wasmNotFound none
      else .found wasmOk (m name)

/-- A name keeps its kind. -/
theorem Next.kind {m m' : MetricMap} {o : Op × Reply} (h : Next m o m') {name : Bytes} {k : Kind}
    (hk : m.kind name = some k) : m'.kind name = some k := by
  obtain ⟨op, reply⟩ := o
  cases op with
  | load defs =>
    rcases h with ⟨-, rfl, -⟩ | ⟨-, done, d, rest, -, rfl⟩
    · exact MetricMap.kind_declareAll hk defs
    · exact MetricMap.kind_declareAll hk done
  | counterInc | gaugeSet | gaugeAdd =>
    obtain ⟨-, rfl⟩ := h
    split
    · exact hk
    · exact MetricMap.kind_write.trans hk
  | get =>
    obtain ⟨rfl, -⟩ := h
    exact hk

/-! ## The zone as a map -/

section Zone

variable {S : SlabPool} {rb : Rbtree} {crc32 : Bytes → UInt32} {z : Zone S}

/-- What the operations see. -/
def Zone.map (crc32 : Bytes → UInt32) (z : Zone S) : MetricMap := fun name =>
  (lookup name (crc32 name) z).map fun a => ((z.mem a).kind, (z.mem a).value)

/-- What the tree is ordered by. -/
def nodeKey (z : Zone S) (a : Addr) : UInt32 × Bytes := ((z.mem a).hash, (z.mem a).name)

/-- The tree is sorted, each node carries the hash of its name and lies in a chunk of its own. -/
structure Inv (crc32 : Bytes → UInt32) (z : Zone S) : Prop where
  hash : ∀ a ∈ z.tree.inorder, (z.mem a).hash = crc32 (z.mem a).name
  sorted : BinTree.Sorted nodeCmp (nodeKey z) z.tree
  allocated : ∀ a ∈ z.tree.inorder, a ∈ S.allocated z.pool

theorem lookupCmp_eq (hash : UInt32) (name : Bytes) (node : MetricNode) :
    lookupCmp hash name node = nodeCmp (hash, name) (node.hash, node.name) :=
  Shm.lookupCmp_eq hash name ⟨node.hash, node.name, [], 0⟩

/-- **The two comparisons are one.** -/
theorem insertCmp_eq (n t : MetricNode) :
    insertCmp n t = nodeCmp (n.hash, n.name) (t.hash, t.name) :=
  lookupCmp_eq n.hash n.name t

theorem nodeCmp_eq_iff {k k' : UInt32 × Bytes} : nodeCmp k k' = .eq ↔ k = k' := by
  unfold nodeCmp
  rw [compareLex_eq_eq, Prod.ext_iff]
  exact and_congr Std.LawfulEqOrd.compare_eq_iff_eq Std.LawfulEqOrd.compare_eq_iff_eq

/-- **What the lookup returns.** -/
theorem Inv.lookup_iff (h : Inv crc32 z) {name : Bytes} {a : Addr} :
    lookup name (crc32 name) z = some a ↔ a ∈ z.tree.inorder ∧ (z.mem a).name = name := by
  have hdir : (fun b => lookupCmp (crc32 name) name (z.mem b)) =
      fun b => nodeCmp (crc32 name, name) (nodeKey z b) := by
    funext b
    exact lookupCmp_eq _ _ _
  unfold lookup
  rw [hdir]
  constructor
  · intro hl
    obtain ⟨ha, he⟩ := BinTree.search_some hl
    exact ⟨ha, (congrArg Prod.snd (nodeCmp_eq_iff.mp he)).symm⟩
  · rintro ⟨ha, rfl⟩
    refine h.sorted.search_eq ha (nodeCmp_eq_iff.mpr ?_)
    rw [nodeKey, h.hash a ha]

theorem Inv.map_eq_some (h : Inv crc32 z) {name : Bytes} {kv : Kind × Int64} :
    z.map crc32 name = some kv ↔ ∃ a ∈ z.tree.inorder, (z.mem a).name = name ∧
      ((z.mem a).kind, (z.mem a).value) = kv := by
  unfold Zone.map
  rw [Option.map_eq_some_iff]
  constructor
  · rintro ⟨a, ha, rfl⟩
    obtain ⟨ht, hn⟩ := h.lookup_iff.mp ha
    exact ⟨a, ht, hn, rfl⟩
  · rintro ⟨a, ht, hn, rfl⟩
    exact ⟨a, h.lookup_iff.mpr ⟨ht, hn⟩, rfl⟩

theorem map_eq_none {name : Bytes} : z.map crc32 name = none ↔ lookup name (crc32 name) z = none :=
  Option.map_eq_none_iff

/-! ## Loads -/

/-- The chunks' contents outside the tree, and the pool, are no part of it. -/
theorem Inv.frame (h : Inv crc32 z) {z' : Zone S} (ht : z'.tree = z.tree)
    (hm : ∀ a ∈ z.tree.inorder, z'.mem a = z.mem a)
    (hp : ∀ a ∈ z.tree.inorder, a ∈ S.allocated z'.pool) : Inv crc32 z' := by
  refine ⟨fun a ha => ?_, ?_, fun a ha => hp a (ht ▸ ha)⟩
  · rw [ht] at ha
    rw [hm a ha]
    exact h.hash a ha
  · unfold BinTree.Sorted
    rw [ht]
    refine h.sorted.imp_of_mem fun {a b} ha hb hab => ?_
    unfold nodeKey at *
    rw [hm a ha, hm b hb]
    exact hab

theorem Inv.frame_map (h : Inv crc32 z) {z' : Zone S} (h' : Inv crc32 z') (ht : z'.tree = z.tree)
    (hm : ∀ a ∈ z.tree.inorder, z'.mem a = z.mem a) : z'.map crc32 = z.map crc32 := by
  funext name
  refine Option.ext fun kv => ?_
  rw [← Option.mem_def, ← Option.mem_def, Option.mem_def, Option.mem_def, h'.map_eq_some,
    h.map_eq_some, ht]
  refine exists_congr fun a => and_congr_right fun ha => ?_
  rw [hm a ha]

/-- No memory: nothing changes. -/
theorem Inv.allocNode_none (h : Inv crc32 z) {name : Bytes} {kind : Kind} {hash : UInt32}
    {z' : Zone S} (ha : allocNode name kind hash z = (none, z')) :
    Inv crc32 z' ∧ z'.map crc32 = z.map crc32 := by
  unfold allocNode at ha
  split at ha
  · cases ha
  · rename_i pool halloc
    obtain rfl := (Prod.mk.inj ha).2
    have h' : Inv crc32 { z with pool := pool } := by
      refine h.frame rfl (fun _ _ => rfl) fun a hat => ?_
      rw [S.alloc_none halloc]
      exact h.allocated a hat
    exact ⟨h', h.frame_map h' rfl fun _ _ => rfl⟩

/-- What an allocation gives: a chunk outside the tree that holds the new node. -/
theorem Inv.allocNode_some (h : Inv crc32 z) {name : Bytes} {kind : Kind} {hash : UInt32} {b : Addr}
    {z₁ : Zone S} (ha : allocNode name kind hash z = (some b, z₁)) :
    z₁.tree = z.tree ∧ z₁.mem b = ⟨hash, name, kind, 0⟩ ∧
      (∀ x ∈ z.tree.inorder, x ≠ b ∧ z₁.mem x = z.mem x) ∧
      S.allocated z₁.pool = insert b (S.allocated z.pool) := by
  unfold allocNode at ha
  split at ha
  · rename_i a pool halloc
    simp only [Prod.mk.injEq, Option.some.injEq] at ha
    obtain ⟨rfl, rfl⟩ := ha
    obtain ⟨hfree, hall⟩ := S.alloc_some halloc
    refine ⟨rfl, Function.update_self .., fun x hx => ?_, hall⟩
    have hne : x ≠ a := by
      rintro rfl
      exact hfree (h.allocated x hx)
    exact ⟨hne, Function.update_of_ne hne ..⟩
  · cases ha

/-- The nodes after an insertion. -/
theorem mem_link {b : Addr} {z₁ : Zone S} {x : Addr} :
    x ∈ (link rb b z₁).tree.inorder ↔ x = b ∨ x ∈ z₁.tree.inorder := by
  obtain ⟨l₁, l₂, hl, hl'⟩ := BinTree.inorder_insertBy
    (fun t => insertCmp (z₁.mem b) (z₁.mem t) == .lt) b z₁.tree
  have hin : (link rb b z₁).tree.inorder = l₁ ++ b :: l₂ := (rb.inorder_insert _ _ _).trans hl'
  rw [hin, hl]
  simp only [List.mem_append, List.mem_cons]
  tauto

/-- **A new node** keeps the invariant, its name being new to the tree. -/
theorem Inv.link (h : Inv crc32 z) {b : Addr} (hhash : (z.mem b).hash = crc32 (z.mem b).name)
    (hall : b ∈ S.allocated z.pool) (hnew : ∀ x ∈ z.tree.inorder, (z.mem x).name ≠ (z.mem b).name) :
    Inv crc32 (link rb b z) := by
  refine ⟨fun x hx => ?_, ?_, fun x hx => ?_⟩
  · rcases mem_link.mp hx with rfl | hx
    · exact hhash
    · exact h.hash x hx
  · have hkey : ∀ x ∈ z.tree.inorder, nodeCmp (nodeKey z b) (nodeKey z x) ≠ .eq := fun x hx he =>
      hnew x hx (congrArg Prod.snd (nodeCmp_eq_iff.mp he)).symm
    have hsorted := h.sorted.insertBy hkey
    have hdir : (fun t => insertCmp (z.mem b) (z.mem t) == .lt) =
        fun t => nodeCmp (nodeKey z b) (nodeKey z t) == .lt := by
      funext t
      rw [insertCmp_eq]
      rfl
    unfold BinTree.Sorted at *
    rw [show (Metrics.link rb b z).tree.inorder = _ from rb.inorder_insert _ _ _, hdir]
    exact hsorted
  · rcases mem_link.mp hx with rfl | hx
    · exact hall
    · exact h.allocated x hx

/-- **A definition that is missing** becomes one more entry of the map. -/
theorem Inv.define (h : Inv crc32 z) {name : Bytes} {kind : Kind} {b : Addr} {z₁ : Zone S}
    (hnew : lookup name (crc32 name) z = none)
    (ha : allocNode name kind (crc32 name) z = (some b, z₁)) :
    Inv crc32 (Metrics.link rb b z₁) ∧
      (Metrics.link rb b z₁).map crc32 = Function.update (z.map crc32) name (some (kind, 0)) := by
  obtain ⟨ht, hb, hm, hp⟩ := h.allocNode_some ha
  have h₁ : Inv crc32 z₁ := h.frame ht (fun x hx => (hm x hx).2) fun x hx => by
    rw [hp]
    exact Set.mem_insert_of_mem _ (h.allocated x hx)
  have hname : ∀ x ∈ z.tree.inorder, (z.mem x).name ≠ name := by
    intro x hx hn
    rw [h.lookup_iff.mpr ⟨hx, hn⟩] at hnew
    cases hnew
  have h₂ : Inv crc32 (Metrics.link rb b z₁) := by
    refine h₁.link (by rw [hb]) (by rw [hp]; exact Set.mem_insert _ _) fun x hx => ?_
    rw [ht] at hx
    rw [(hm x hx).2, hb]
    exact hname x hx
  refine ⟨h₂, ?_⟩
  have hold : ∀ n kv, n ≠ name → (((Metrics.link rb b z₁).map crc32 n = some kv) ↔
      z.map crc32 n = some kv) := by
    intro n kv hn
    rw [h₂.map_eq_some, h.map_eq_some]
    constructor
    · rintro ⟨x, hx, hxn, hkv⟩
      have hmem : (z₁.mem x).name = n := hxn
      rcases mem_link.mp hx with rfl | hx
      · rw [hb] at hmem
        exact absurd hmem.symm hn
      · rw [ht] at hx
        have heq : (Metrics.link rb b z₁).mem x = z.mem x := (hm x hx).2
        rw [heq] at hxn hkv
        exact ⟨x, hx, hxn, hkv⟩
    · rintro ⟨x, hx, hxn, hkv⟩
      have heq : (Metrics.link rb b z₁).mem x = z.mem x := (hm x hx).2
      rw [← heq] at hxn hkv
      exact ⟨x, mem_link.mpr (.inr (ht ▸ hx)), hxn, hkv⟩
  funext n
  by_cases hn : n = name
  · have hnode : (Metrics.link rb b z₁).mem b = ⟨crc32 name, name, kind, 0⟩ := hb
    rw [hn, Function.update_self]
    refine h₂.map_eq_some.mpr ⟨b, mem_link.mpr (.inl rfl), ?_, ?_⟩ <;> rw [hnode]
  · rw [Function.update_of_ne hn]
    exact Option.ext fun kv => hold n kv hn

/-- **A load declares its definitions in order**, up to one it fails at. -/
theorem ensureDefinitions_map (defs : List MetricDef) {z : Zone S} (h : Inv crc32 z) :
    Inv crc32 (ensureDefinitions rb crc32 defs z).2 ∧
      Next (z.map crc32) (.load defs, .loaded (ensureDefinitions rb crc32 defs z).1)
        ((ensureDefinitions rb crc32 defs z).2.map crc32) := by
  induction defs generalizing z with
  | nil => exact ⟨h, .inl ⟨rfl, rfl, fun d hd => absurd hd List.not_mem_nil⟩⟩
  | cons d defs ih =>
    -- the rest of the list, once `d` is in the map with its kind
    have hrest : ∀ z₁ : Zone S, Inv crc32 z₁ → z₁.map crc32 = (z.map crc32).declare d →
        (z₁.map crc32).kind d.name = some d.kind →
        Inv crc32 (ensureDefinitions rb crc32 defs z₁).2 ∧
          Next (z.map crc32)
            (.load (d :: defs), .loaded (ensureDefinitions rb crc32 defs z₁).1)
            ((ensureDefinitions rb crc32 defs z₁).2.map crc32) := by
      intro z₁ h₁ hmap hkind
      obtain ⟨hinv, hnext⟩ := ih h₁
      have hkeep := hnext.kind hkind
      refine ⟨hinv, ?_⟩
      rcases hnext with ⟨hok, hall, hkinds⟩ | ⟨herr, done, e, rest, hsplit, hall⟩
      · refine .inl ⟨hok, ?_, ?_⟩
        · rw [hall, hmap]
          rfl
        · intro x hx
          rcases List.mem_cons.mp hx with rfl | hx
          · exact hkeep
          · exact hkinds x hx
      · refine .inr ⟨herr, d :: done, e, rest, congrArg _ hsplit, ?_⟩
        rw [hall, hmap]
        rfl
    unfold ensureDefinitions
    cases hl : lookup d.name (crc32 d.name) z with
    | some a =>
      obtain ⟨ha, hn⟩ := h.lookup_iff.mp hl
      have hm : z.map crc32 d.name = some ((z.mem a).kind, (z.mem a).value) :=
        h.map_eq_some.mpr ⟨a, ha, hn, rfl⟩
      by_cases hk : (z.mem a).kind = d.kind
      · simp only [hk, ne_eq, not_true_eq_false, if_false]
        refine hrest z h ?_ ?_
        · rw [MetricMap.declare, if_neg (by rw [hm]; nofun)]
        · rw [MetricMap.kind, hm, ← hk]
          rfl
      · simp only [hk, ne_eq, not_false_eq_true, if_true]
        exact ⟨h, .inr ⟨rfl, [], d, defs, rfl, rfl⟩⟩
    | none =>
      dsimp only
      cases ha : allocNode d.name d.kind (crc32 d.name) z with
      | mk r z₁ =>
        cases r with
        | none =>
          obtain ⟨h₁, hm⟩ := h.allocNode_none ha
          exact ⟨h₁, .inr ⟨rfl, [], d, defs, rfl, hm⟩⟩
        | some a =>
          have hdef : Inv crc32 (link rb a z₁) ∧ _ := h.define hl ha
          obtain ⟨h₁, hm⟩ := hdef
          refine hrest _ h₁ ?_ ?_
          · rw [hm, MetricMap.declare, if_pos (map_eq_none.mpr hl)]
          · rw [MetricMap.kind, hm, Function.update_self]
            rfl

/-! ## Operations -/

/-- A new value for the node `a`. -/
theorem Inv.setValue (h : Inv crc32 z) {a : Addr} (ha : a ∈ z.tree.inorder) (value : Int64)
    {mem : Addr → MetricNode}
    (hmem : mem = Function.update z.mem a { z.mem a with value := value }) :
    Inv crc32 { z with mem := mem } ∧
      ({ z with mem := mem } : Zone S).map crc32 =
        Function.update (z.map crc32) (z.mem a).name (some ((z.mem a).kind, value)) := by
  have hself : mem a = { z.mem a with value := value } := by rw [hmem, Function.update_self]
  have hne : ∀ x, x ≠ a → mem x = z.mem x := fun x hx => by
    rw [hmem]
    exact Function.update_of_ne hx ..
  have hkeep : ∀ x, (mem x).hash = (z.mem x).hash ∧ (mem x).name = (z.mem x).name := by
    intro x
    by_cases hx : x = a
    · rw [hx, hself]
      exact ⟨rfl, rfl⟩
    · rw [hne x hx]
      exact ⟨rfl, rfl⟩
  have h₁ : Inv crc32 { z with mem := mem } := by
    refine ⟨fun x hx => ?_, ?_, h.allocated⟩
    · exact (hkeep x).1.trans ((h.hash x hx).trans (congrArg crc32 (hkeep x).2.symm))
    · have hkey : nodeKey { z with mem := mem } = nodeKey z := by
        funext x
        exact Prod.ext (hkeep x).1 (hkeep x).2
      rw [hkey]
      exact h.sorted
  refine ⟨h₁, ?_⟩
  funext n
  by_cases hn : n = (z.mem a).name
  · rw [hn, Function.update_self]
    refine h₁.map_eq_some.mpr ⟨a, ha, (hkeep a).2, ?_⟩
    show ((mem a).kind, (mem a).value) = _
    rw [hself]
  · rw [Function.update_of_ne hn]
    refine Option.ext fun kv => ?_
    rw [h₁.map_eq_some, h.map_eq_some]
    refine exists_congr fun x => and_congr_right fun _ => ?_
    show (mem x).name = n ∧ ((mem x).kind, (mem x).value) = kv ↔ _
    by_cases hx : x = a
    · rw [hx, (hkeep a).2]
      constructor
      · intro hc
        exact absurd hc.1.symm hn
      · intro hc
        exact absurd hc.1.symm hn
    · rw [hne x hx]

/-- **A writer changes the entry of its name** when the kind is the one it needs, and nothing
otherwise. -/
theorem Inv.update (h : Inv crc32 z) (kind : Kind) (next : Int64 → Int64) (name : Bytes) :
    Inv crc32 (update crc32 kind next name z).2 ∧
      ((update crc32 kind next name z).1, (update crc32 kind next name z).2.map crc32) =
        (z.map crc32).write kind next name := by
  unfold Metrics.update MetricMap.write
  cases hl : lookup name (crc32 name) z with
  | none =>
    rw [map_eq_none.mpr hl]
    exact ⟨h, rfl⟩
  | some a =>
    obtain ⟨ha, rfl⟩ := h.lookup_iff.mp hl
    have hm : z.map crc32 (z.mem a).name = some ((z.mem a).kind, (z.mem a).value) :=
      h.map_eq_some.mpr ⟨a, ha, rfl, rfl⟩
    rw [hm]
    dsimp only
    split
    · exact ⟨h, rfl⟩
    · obtain ⟨h₁, hmap⟩ := h.setValue ha (next (z.mem a).value) rfl
      exact ⟨h₁, congrArg _ hmap⟩

/-- **One call on the zone is one step of the map.** -/
theorem exec_next (h : Inv crc32 z) (op : Op) :
    Inv crc32 (exec rb crc32 op z).2 ∧
      Next (z.map crc32) (op, (exec rb crc32 op z).1) ((exec rb crc32 op z).2.map crc32) := by
  cases op with
  | load defs => exact ensureDefinitions_map defs h
  | counterInc name delta =>
    unfold exec counterInc Next
    dsimp only
    split
    · exact ⟨h, rfl, rfl⟩
    · obtain ⟨hi, hw⟩ := h.update .counter (saturatingAdd delta) name
      rw [← hw]
      exact ⟨hi, rfl, rfl⟩
  | gaugeSet name value =>
    unfold exec gaugeSet Next
    dsimp only
    split
    · exact ⟨h, rfl, rfl⟩
    · obtain ⟨hi, hw⟩ := h.update .gauge (fun _ => value) name
      rw [← hw]
      exact ⟨hi, rfl, rfl⟩
  | gaugeAdd name delta =>
    unfold exec gaugeAdd Next
    dsimp only
    split
    · exact ⟨h, rfl, rfl⟩
    · obtain ⟨hi, hw⟩ := h.update .gauge (· + delta) name
      rw [← hw]
      exact ⟨hi, rfl, rfl⟩
  | get name =>
    refine ⟨h, rfl, ?_⟩
    unfold exec metricsGet
    dsimp only
    split
    · rfl
    · cases hl : lookup name (crc32 name) z with
      | none =>
        rw [if_pos (map_eq_none.mpr hl)]
      | some a =>
        have hm : z.map crc32 name = some ((z.mem a).kind, (z.mem a).value) := by
          unfold Zone.map
          rw [hl]
          rfl
        rw [hm, if_neg nofun]

end Zone

/-! ## Runs -/

section Runs

variable {S : SlabPool} (rb : Rbtree) (crc32 : Bytes → UInt32)

/-- The zone after a call. -/
def opStep (z : Zone S) (op : Op) : Zone S := (exec rb crc32 op z).2

/-- What a call shows: itself, and its answer. -/
def observe (z : Zone S) (op : Op) : Op × Reply := (op, (exec rb crc32 op z).1)

variable {rb crc32}

theorem Inv.emptyZone (mem : Addr → MetricNode) (pool : S.State) :
    Inv crc32 (emptyZone mem pool : Zone S) :=
  ⟨fun _ ha => absurd ha List.not_mem_nil, .nil, fun _ ha => absurd ha List.not_mem_nil⟩

theorem map_emptyZone (mem : Addr → MetricNode) (pool : S.State) :
    (emptyZone mem pool : Zone S).map crc32 = fun _ => none := rfl

theorem runFrom_inv {z : Zone S} (h : Inv crc32 z) (ops : List Op) :
    Inv crc32 (runFrom (opStep rb crc32) z ops) :=
  run_invariant ops h fun _ op hz => (exec_next hz op).1

/-- A name keeps its kind for good. -/
theorem runFrom_kind {z : Zone S} (h : Inv crc32 z) {name : Bytes} {k : Kind}
    (hk : (z.map crc32).kind name = some k) (ops : List Op) :
    ((runFrom (opStep rb crc32) z ops).map crc32).kind name = some k := by
  induction ops generalizing z with
  | nil => exact hk
  | cons op ops ih =>
    have hstep : Inv crc32 (opStep rb crc32 z op) ∧ Next _ (op, (exec rb crc32 op z).1) _ :=
      exec_next h op
    exact ih hstep.1 (hstep.2.kind hk)

end Runs

/-- **The zone is a map.** For every tree, allocator, hash function and initial pool, and every run
of loads and operations on a new zone: the answers are those of a run of the map from the empty
one, the map is what the zone then holds, each node is the one that its name finds, and no name that
was there at any time is lost. -/
theorem metrics_refine_map (S : SlabPool) (rb : Rbtree) (crc32 : Bytes → UInt32)
    (mem : Addr → MetricNode) (pool : S.State) (ops : List Op) :
    let run := fun ops => runFrom (opStep rb crc32) (emptyZone mem pool : Zone S) ops
    Traces Next (fun _ => none) (shows (opStep rb crc32) (observe rb crc32) (emptyZone mem pool) ops)
        ((run ops).map crc32) ∧
      (run ops).tree.inorder.Nodup ∧
      (∀ a name, lookup name (crc32 name) (run ops) = some a ↔
        a ∈ (run ops).tree.inorder ∧ ((run ops).mem a).name = name) ∧
      ∀ before after, ops = before ++ after → ∀ name k,
        ((run before).map crc32).kind name = some k → ((run ops).map crc32).kind name = some k := by
  intro run
  have h0 : Inv crc32 (emptyZone mem pool : Zone S) := .emptyZone mem pool
  have hinv : ∀ ops, Inv crc32 (run ops) := runFrom_inv h0
  refine ⟨?_, (hinv ops).sorted.nodup, fun a name => (hinv ops).lookup_iff, ?_⟩
  · have hmeets : Meets (opStep rb crc32) (fun _ _ => True) (emptyZone mem pool : Zone S) ops :=
      meets_of_forall (p := fun _ => True) fun _ _ => trivial
    exact hmeets.simulate h0 fun z op hz _ => exec_next hz op
  · rintro before after rfl name k hk
    have hrun : run (before ++ after) = runFrom (opStep rb crc32) (run before) after :=
      runFrom_append _ _ _
    rw [hrun]
    exact runFrom_kind (hinv before) hk after

end NgxWasm.Metrics
