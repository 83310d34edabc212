import HotReload.Proofs.Graph.Inverse
import HotReload.Proofs.Graph.Layers

/-!
# Coherent graphs

A graph says the same things in several ways: it lists modules, their paths with what they depend
on, which module is at a path, which one has a number, and who depends on a module.
`Graph.Coherent` says that all of them agree, and that the paths stand in breadth-first order.

* `Orderly`: resolvers name modules by their paths and number them apart.
* `Search.orderly_hears`: as long as the files stay as they are, it is enough that they are numbered
  apart at that time.
* `Graph.Coherent`: the views of a graph agree.
* `Search.Answered.coherent`: a graph that is discovered is coherent.
-/

namespace HotReload

/-! ### Answers in order -/

/-- The module that was found, with the path at which it was asked for. -/
def Answer.module? : Answer → Option (Path × Module)
  | .module path (.ok m) => some (path, m)
  | _ => none

/-- The modules that were found have the paths that were asked for, and different paths have
different numbers. -/
def Orderly (heard : List Answer) : Prop :=
  ∀ e ∈ heard.filterMap Answer.module?, (e.2.path == e.1) = true ∧
    ∀ e' ∈ heard.filterMap Answer.module?, e.2.id = e'.2.id → (e.2.path == e'.2.path) = true

/-- What is in order is so in part. -/
theorem Orderly.of_subset {heard part : List Answer} (h : Orderly heard) (sub : part ⊆ heard) :
    Orderly part := by
  have within : part.filterMap Answer.module? ⊆ heard.filterMap Answer.module? := by
    intro e mem
    obtain ⟨a, here, found⟩ := List.mem_filterMap.mp mem
    exact List.mem_filterMap.mpr ⟨a, sub here, found⟩
  exact fun e mem => ⟨(h e (within mem)).1, fun e' mem' => (h e (within mem)).2 e' (within mem')⟩

theorem Orderly.path {heard : List Answer} (h : Orderly heard) {p : Path} {m : Module}
    (mem : .module p (.ok m) ∈ heard) : (m.path == p) = true :=
  (h (p, m) (List.mem_filterMap.mpr ⟨_, mem, rfl⟩)).1

theorem Orderly.apart {heard : List Answer} (h : Orderly heard) {p q : Path} {m n : Module}
    (mem : .module p (.ok m) ∈ heard) (mem' : .module q (.ok n) ∈ heard) (same : m.id = n.id) :
    (m.path == n.path) = true :=
  (h (p, m) (List.mem_filterMap.mpr ⟨_, mem, rfl⟩)).2 (q, n)
    (List.mem_filterMap.mpr ⟨_, mem', rfl⟩) same

/-! ### Files that stay as they are -/

/-- Different files have different numbers. -/
def Snapshot.Apart (v : Snapshot) : Prop :=
  ∀ {p q : Path} {m n : Module}, v.module p = .ok m → v.module q = .ok n → m.id = n.id →
    (m.path == n.path) = true

/-- Where the answer is a module, the snapshot has it. -/
def Answer.Agrees (v : Snapshot) (a : Answer) : Prop :=
  ∀ e, a.module? = some e → v.module e.1 = .ok e.2

/-- Answers with which a snapshot agrees are in order. -/
theorem Orderly.of_agrees {v : Snapshot} (apart : v.Apart) {heard : List Answer}
    (agrees : ∀ a ∈ heard, a.Agrees v) : Orderly heard := by
  have found : ∀ e ∈ heard.filterMap Answer.module?, v.module e.1 = .ok e.2 := by
    intro e mem
    obtain ⟨a, here, told⟩ := List.mem_filterMap.mp mem
    exact agrees a here e told
  intro e mem
  exact ⟨v.path_of_module (found e mem), fun e' mem' => apart (found e mem) (found e' mem')⟩

theorem Query.agrees_reply {σ α : Type} {r : Resolver σ} {st : σ} {v : Snapshot}
    (h : r.ShowsFrom st v) (q : Query α) : (q.reply r st).Agrees v := by
  intro e told
  cases q with
  | module path next =>
    obtain ⟨At, shows_, here⟩ := h
    rw [Query.reply, (shows_.module here path).1] at told
    cases found : v.module path with
    | error e =>
      rw [found] at told
      cases told
    | ok m =>
      rw [found] at told
      cases told
      exact found
  | dependencies lookup next => cases told

theorem Search.agrees_hears {σ : Type} {r : Resolver σ} {st : σ} {v : Snapshot}
    (h : r.ShowsFrom st v) (fuel : Nat) (s : Search) : ∀ a ∈ s.hears r fuel st, a.Agrees v := by
  induction fuel generalizing s st with
  | zero => exact fun a mem => absurd mem List.not_mem_nil
  | succ fuel ih =>
    intro a mem
    have asked := (Query.answer_of_showsFrom h s.next).2
    rw [hears] at mem
    rcases List.mem_cons.mp mem with rfl | mem
    · exact Query.agrees_reply h s.next
    · generalize s.next.answer r st = next at asked mem
      obtain ⟨e | s' | g, st'⟩ := next
      · cases mem
      · exact ih asked s' a mem
      · cases mem

/-- **What a discovery hears is in order**, as long as the files stay as they are and are numbered
apart. -/
theorem Search.orderly_hears {σ : Type} {r : Resolver σ} {st : σ} {v : Snapshot}
    (h : r.ShowsFrom st v) (apart : v.Apart) (fuel : Nat) (s : Search) :
    Orderly (s.hears r fuel st) :=
  .of_agrees apart (s.agrees_hears h fuel)

/-- The snapshot of a tree numbers its files apart where the tree does. -/
theorem Tree.snapshot_apart {t : Tree} (ids : (t.files.map (·.2.id)).Nodup) : t.snapshot.Apart := by
  intro p q m n hm hn same
  obtain ⟨-, file, found, rfl⟩ := askModule_ok_iff.mp hm
  obtain ⟨-, file', found', rfl⟩ := askModule_ok_iff.mp hn
  obtain ⟨k, mem, here⟩ := Assoc.mem_of_get? found
  obtain ⟨k', mem', here'⟩ := Assoc.mem_of_get? found'
  cases List.inj_on_of_nodup_map ids mem mem' same
  exact BEq.trans (BEq.symm here) here'

/-! ### Coherence -/

namespace Graph

/-- **All that a graph says of its modules agrees.** -/
structure Coherent (entry : Path) (g : Graph) : Prop where
  /-- The entry file comes first. -/
  first : ∃ m rest, g.modules = m :: rest ∧ (m.path == entry) = true
  /-- The modules stand beside the paths that have dependencies. -/
  keys : Path.meanings (g.modules.map (·.path)) = Path.meanings g.keys
  distinct : (Path.meanings (g.modules.map (·.path))).Nodup
  /-- What is listed as a dependency has dependencies of its own. -/
  closed : ∀ e ∈ g.shallow, ∀ d ∈ e.2, Assoc.contains g.shallow d = true
  /-- Data and assets depend on nothing. -/
  leaves : ∀ m ∈ g.modules, m.kind ≠ .source → g.dependencies? m.path = some []
  /-- The paths stand in breadth-first order. -/
  breadthFirst : Layers (children g.shallow) [entry] [entry] g.keys
  /-- Every module can be reached from the entry file. -/
  reached : ∀ m ∈ g.modules, ∃ p, (p == m.path) = true ∧
    Relation.ReflTransGen (fun q d => d ∈ children g.shallow q) entry p
  /-- What is found at a path is the module with this path. -/
  moduleAt : ∀ p m, g.moduleAt? p = some m ↔ m ∈ g.modules ∧ (m.path == p) = true
  /-- What is found under a number is the module with this number. -/
  moduleWith : ∀ id m, g.moduleWith? id = some m ↔ m ∈ g.modules ∧ m.id = id
  /-- The inverse tells of every module, and of no other. -/
  inverse_keys : ∀ id, id ∈ g.inverse.keys ↔ ∃ m ∈ g.modules, m.id = id
  /-- The inverse has a dependency where the graph has it the other way round. -/
  inverse_tells : ∀ id x, g.inverse.Tells id x ↔
    ∃ m ∈ g.modules, ∃ n ∈ g.modules, m.id = id ∧ n.id = x ∧
      ∃ d ∈ children g.shallow n.path, (m.path == d) = true
  inverse_ascending : g.inverse.Ascending

/-- Modules that have the paths beside which they stand have them in the same order. -/
theorem keys_of_forall₂ {g : Graph}
    (beside : List.Forall₂ (fun e m => (m.path == e.1) = true) g.shallow g.modules) :
    Path.meanings (g.modules.map (·.path)) = Path.meanings g.keys := by
  have same : List.Forall₂ (fun e m => e.1.components = m.path.components) g.shallow g.modules :=
    beside.imp fun e m same => (Path.beq_iff.mp same).symm
  rw [Path.meanings, Path.meanings, keys, List.map_map, List.map_map]
  exact (List.forall₂_eq_eq_eq ▸
    List.forall₂_map_left_iff.mpr (List.forall₂_map_right_iff.mpr same) :).symm

end Graph

/-! ### What a discovery finds is coherent -/

namespace Search

variable {heard : List Answer} {g : Graph}

theorem exists_of_forall₂ {α β : Type} {R : α → β → Prop} {xs : List α} {ys : List β}
    (h : List.Forall₂ R xs ys) {y : β} (mem : y ∈ ys) : ∃ x ∈ xs, R x y := by
  induction h with
  | nil => cases mem
  | @cons x z xs ys here _ ih =>
    rcases List.mem_cons.mp mem with rfl | mem
    · exact ⟨x, List.mem_cons_self, here⟩
    · obtain ⟨x', mem', there⟩ := ih mem
      exact ⟨x', List.mem_cons_of_mem _ mem', there⟩

/-- Each module was told, with what stands beside it. -/
theorem Paired.exists_entry (h : Paired heard g) {m : Module} (mem : m ∈ g.modules) :
    ∃ e ∈ g.shallow, Told heard e.1 m e.2 :=
  exists_of_forall₂ h mem

theorem Paired.exists_module (h : Paired heard g) {e : Path × List Path} (mem : e ∈ g.shallow) :
    ∃ m ∈ g.modules, Told heard e.1 m e.2 :=
  exists_of_forall₂ h.flip mem

/-- Where the modules that were found have the paths that were asked for, they have the paths beside
which they stand. -/
theorem Paired.keys_of_named (h : Paired heard g)
    (named : ∀ {p : Path} {m : Module}, .module p (.ok m) ∈ heard → (m.path == p) = true) :
    Path.meanings (g.modules.map (·.path)) = Path.meanings g.keys :=
  Graph.keys_of_forall₂ (h.imp fun _ _ told => named told.module)

theorem Paired.keys (h : Paired heard g) (orderly : Orderly heard) :
    Path.meanings (g.modules.map (·.path)) = Path.meanings g.keys :=
  h.keys_of_named orderly.path

end Search

namespace Graph

variable {g : Graph} {p : Path} {m : Module}

/-- Of modules that have different paths, one is at a path. -/
theorem moduleAt?_iff (distinct : (Path.meanings (g.modules.map (·.path))).Nodup) :
    g.moduleAt? p = some m ↔ m ∈ g.modules ∧ (m.path == p) = true := by
  refine ⟨mem_of_moduleAt?, fun ⟨mem, here⟩ => ?_⟩
  refine find?_eq_some_of_unique (List.mem_reverse.mpr mem) here fun n mem' here' => ?_
  rw [Path.meanings, List.map_map] at distinct
  refine List.inj_on_of_nodup_map distinct (List.mem_reverse.mp mem') mem ?_
  exact (Path.beq_iff.mp here').trans (Path.beq_iff.mp here).symm

/-- Of modules that have different numbers, one has a number. -/
theorem moduleWith?_iff (apart : ∀ n ∈ g.modules, ∀ n' ∈ g.modules, n.id = n'.id → n = n')
    {id : ModuleId} : g.moduleWith? id = some m ↔ m ∈ g.modules ∧ m.id = id := by
  constructor
  · intro h
    have found : (m.id == id) = true := List.find?_some (p := fun m : Module => m.id == id) h
    exact ⟨List.mem_reverse.mp (List.mem_of_find?_eq_some h), eq_of_beq found⟩
  · rintro ⟨mem, rfl⟩
    refine find?_eq_some_of_unique (List.mem_reverse.mpr mem) BEq.rfl fun n mem' here => ?_
    exact apart n (List.mem_reverse.mp mem') m mem (eq_of_beq here)

/-- The number at a path is that of the module with this path. -/
theorem idAt_iff (distinct : (Path.meanings (g.modules.map (·.path))).Nodup) {id : ModuleId} :
    (g.moduleAt? p).map (·.id) = some id ↔ ∃ m ∈ g.modules, (m.path == p) = true ∧ m.id = id := by
  rw [Option.map_eq_some_iff]
  simp only [moduleAt?_iff distinct, and_assoc]

end Graph

namespace Search

variable {heard : List Answer} {g : Graph} {platform : String} {entry : Path}

/-- What is listed as a dependency has dependencies of its own. -/
theorem closed_of_layers (listed : (Path.meanings g.keys).Nodup)
    (layers : Layers (Graph.children g.shallow) [entry] [entry] g.keys) :
    ∀ e ∈ g.shallow, ∀ d ∈ e.2, Assoc.contains g.shallow d = true := by
  intro e mem d child
  rw [← Graph.children_of_mem listed mem BEq.rfl] at child
  have known := layers.closed (List.mem_map_of_mem mem) child
  have entry_listed : entry ∈ g.keys := layers.first_layer.subset List.mem_cons_self
  obtain ⟨k, there, same⟩ := List.contains_iff_exists_mem_beq.mp known
  have there : k ∈ g.keys := by
    rcases List.mem_append.mp there with there | there
    · rwa [List.mem_singleton.mp there]
    · exact there
  obtain ⟨e', mem', rfl⟩ := List.mem_map.mp there
  exact List.any_eq_true.mpr ⟨e', mem', BEq.symm same⟩

section Gathered

variable (paired : Paired heard g) (orderly : Orderly heard)
  (listed : (Path.meanings g.keys).Nodup)

include paired orderly listed

theorem distinct_paths : (Path.meanings (g.modules.map (·.path))).Nodup := by
  rw [paired.keys orderly]
  exact listed

/-- Beside a module stands what it depends on. -/
theorem exists_listed {m : Module} (mem : m ∈ g.modules) :
    ∃ e ∈ g.shallow, (m.path == e.1) = true ∧ g.dependencies? m.path = some e.2 ∧
      (m.isSource = false → e.2 = []) := by
  obtain ⟨e, here, told⟩ := paired.exists_entry mem
  have path := orderly.path told.module
  exact ⟨e, here, path, Graph.dependencies?_of_mem listed here (BEq.symm path), told.leaf⟩

/-- Different modules have different numbers. -/
theorem apart : ∀ n ∈ g.modules, ∀ n' ∈ g.modules, n.id = n'.id → n = n' := by
  intro n mem n' mem' same
  obtain ⟨e, -, told⟩ := paired.exists_entry mem
  obtain ⟨e', -, told'⟩ := paired.exists_entry mem'
  have distinct := distinct_paths paired orderly listed
  rw [Path.meanings, List.map_map] at distinct
  exact List.inj_on_of_nodup_map distinct mem mem'
    (Path.beq_iff.mp (orderly.apart told.module told'.module same))

/-- **The inverse is the transpose.** -/
theorem inverse_tells_iff (id x : ModuleId) : g.inverse.Tells id x ↔
    ∃ m ∈ g.modules, ∃ n ∈ g.modules, m.id = id ∧ n.id = x ∧
      ∃ d ∈ Graph.children g.shallow n.path, (m.path == d) = true := by
  have distinct := distinct_paths paired orderly listed
  rw [Graph.inverse, InverseMap.tells_ofShallow]
  simp only [Graph.idAt_iff distinct]
  constructor
  · rintro ⟨e, mem, ⟨n, known, path, rfl⟩, d, child, m, here, there, rfl⟩
    refine ⟨m, here, n, known, rfl, rfl, d, ?_, there⟩
    rwa [Graph.children_of_mem listed mem (BEq.symm path)]
  · rintro ⟨m, here, n, known, rfl, rfl, d, child, there⟩
    obtain ⟨e, mem, path, -⟩ := exists_listed paired orderly listed known
    have children := Graph.children_of_mem listed mem (BEq.symm path)
    exact ⟨e, mem, ⟨n, known, path, rfl⟩, d, children ▸ child, m, here, there, rfl⟩

/-- The inverse tells of the modules. -/
theorem inverse_keys_iff (id : ModuleId) :
    id ∈ g.inverse.keys ↔ ∃ m ∈ g.modules, m.id = id := by
  have distinct := distinct_paths paired orderly listed
  rw [Graph.inverse, InverseMap.mem_keys_ofShallow]
  simp only [Graph.idAt_iff distinct]
  constructor
  · rintro ⟨e, -, -, p, -, m, here, -, rfl⟩
    exact ⟨m, here, rfl⟩
  · rintro ⟨m, here, rfl⟩
    obtain ⟨e, mem, path, -⟩ := exists_listed paired orderly listed here
    have found : g.moduleAt? e.1 = some m := (Graph.moduleAt?_iff distinct).mpr ⟨here, path⟩
    exact ⟨e, mem, by rw [found]; rfl, e.1, List.mem_cons_self, m, here, path, rfl⟩

end Gathered

/-- **A graph that is gathered is coherent.** -/
theorem Gathers.coherent (h : Gathers heard (start platform entry) g) (orderly : Orderly heard) :
    g.Coherent entry := by
  have tidy := tidy_start platform entry
  have paired := h.paired tidy .nil
  have listed := h.distinct tidy
  have layers := h.layers
  have distinct := distinct_paths paired orderly listed
  refine ⟨?_, paired.keys orderly, distinct, closed_of_layers listed layers,
    fun m mem kind => ?_, layers, fun m mem => ?_, fun p m => Graph.moduleAt?_iff distinct,
    fun id m => Graph.moduleWith?_iff (apart paired orderly listed),
    inverse_keys_iff paired orderly listed, inverse_tells_iff paired orderly listed,
    InverseMap.ascending_ofShallow _ _⟩
  · obtain ⟨rest, first⟩ := layers.first_layer
    have keys := paired.keys orderly
    rw [← first] at keys
    cases modules : g.modules with
    | nil =>
      rw [modules] at keys
      cases keys
    | cons m others =>
      rw [modules] at keys
      exact ⟨m, others, rfl, Path.beq_iff.mpr (List.cons.inj keys).1⟩
  · obtain ⟨e, -, -, found, leaf⟩ := exists_listed paired orderly listed mem
    have none : e.2 = [] := leaf (by simpa [Module.isSource] using kind)
    rw [found, none]
  · obtain ⟨e, here, path, -⟩ := exists_listed paired orderly listed mem
    have first : ∀ p ∈ [entry], Relation.ReflTransGen
        (fun q d => d ∈ Graph.children g.shallow q) entry p := fun p mem => by
      rw [List.mem_singleton.mp mem]
    exact ⟨e.1, BEq.symm path, layers.reached first e.1 (List.mem_map_of_mem here)⟩

/-- **What a discovery finds is coherent**, where what it hears is in order. -/
theorem Answered.coherent (h : Answered (start platform entry) heard (.ok g))
    (orderly : Orderly heard) : g.Coherent entry :=
  h.gathers.coherent orderly

end Search

end HotReload
