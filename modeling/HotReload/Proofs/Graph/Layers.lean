import HotReload.Graph.Rank
import HotReload.Proofs.Graph.Heard
import Mathlib.Data.List.Nodup
import Mathlib.Logic.Relation

/-!
# Breadth-first order

`Layers` lists what can be reached layer by layer: after the paths at one distance come those of
their dependencies that were not met before, in the order in which they are first listed.  A search
keeps one queue for all distances; its order is that of the layers.

* `Layers.closed`, `Layers.reached`: the layers leave no dependency out, and hold nothing else.
* `Search.Gathers.layers`: the paths of a graph that is discovered stand in breadth-first order.
-/

namespace HotReload

/-- The paths of a graph. -/
def Graph.keys (g : Graph) : List Path := g.shallow.map (·.1)

/-- The paths that are reached from a layer on, layer by layer; `met` are those of this layer and of
the layers before. -/
inductive Layers (children : Path → List Path) : List Path → List Path → List Path → Prop where
  | done (met : List Path) : Layers children met [] []
  | next {met layer order : List Path} (some : layer ≠ [])
      (rest : Layers children (met ++ Search.fresh met (layer.flatMap children))
        (Search.fresh met (layer.flatMap children)) order) :
      Layers children met layer (layer ++ order)

/-! ### Paths that were not met before -/

namespace Search

/-- What counts is which paths were met, not in which order. -/
theorem fresh_congr {met met' : List Path} (same : ∀ p, met.contains p = met'.contains p)
    (ps : List Path) : fresh met ps = fresh met' ps := by
  induction ps generalizing met met' with
  | nil => rfl
  | cons p ps ih =>
    have next : ∀ q, (p :: met).contains q = (p :: met').contains q := by
      intro q
      rw [List.contains_cons, List.contains_cons, same q]
    rw [fresh, fresh, same p, ih same, ih next]

/-- Paths are met one list after the other. -/
theorem fresh_append (met ps qs : List Path) :
    fresh met (ps ++ qs) = fresh met ps ++ fresh (met ++ fresh met ps) qs := by
  induction ps generalizing met with
  | nil => rw [List.nil_append, fresh, List.nil_append, List.append_nil]
  | cons p ps ih =>
    rw [List.cons_append, fresh, fresh]
    split
    · exact ih met
    · rw [ih, List.cons_append]
      congr 2
      refine fresh_congr (fun q => ?_) qs
      simp only [List.contains_cons, List.contains_append, Bool.or_left_comm]

/-- A path is met before or is one of those that are new. -/
theorem contains_fresh (met : List Path) {ps : List Path} {p : Path} (h : p ∈ ps) :
    (met ++ fresh met ps).contains p = true := by
  induction ps generalizing met with
  | nil => cases h
  | cons q ps ih =>
    rw [fresh]
    split
    · next known =>
      rcases List.mem_cons.mp h with rfl | h
      · simp only [List.contains_append, known, Bool.true_or]
      · exact ih met h
    · rcases List.mem_cons.mp h with rfl | h
      · simp
      · have later := ih (q :: met) h
        simp only [List.cons_append, List.contains_cons, List.contains_append] at later ⊢
        simpa only [Bool.or_left_comm] using later

theorem mem_of_mem_fresh {met ps : List Path} {p : Path} (h : p ∈ fresh met ps) : p ∈ ps := by
  induction ps generalizing met with
  | nil => cases h
  | cons q ps ih =>
    rw [fresh] at h
    split at h
    · exact List.mem_cons_of_mem _ (ih h)
    · rcases List.mem_cons.mp h with rfl | h
      · exact List.mem_cons_self
      · exact List.mem_cons_of_mem _ (ih h)

end Search

/-! ### Layers -/

namespace Layers

variable {children : Path → List Path} {met layer order : List Path}

/-- The layer comes first. -/
theorem first_layer (h : Layers children met layer order) : layer <+: order := by
  cases h with
  | done => exact List.prefix_rfl
  | next => exact List.prefix_append _ _

/-- **No dependency is left out.** -/
theorem closed (h : Layers children met layer order) {p d : Path} (mem : p ∈ order)
    (child : d ∈ children p) : (met ++ order).contains d = true := by
  induction h with
  | done => cases mem
  | @next met layer order _ rest ih =>
    rcases List.mem_append.mp mem with mem | mem
    · -- the dependencies of a layer were met, or make up the next layer
      have known := Search.contains_fresh met (List.mem_flatMap.mpr ⟨p, mem, child⟩)
      obtain ⟨later, later_eq⟩ := rest.first_layer
      rw [← later_eq]
      simp only [List.contains_append, Bool.or_eq_true] at known ⊢
      tauto
    · have known := ih mem
      obtain ⟨later, later_eq⟩ := rest.first_layer
      rw [← later_eq] at known ⊢
      simp only [List.contains_append, Bool.or_eq_true] at known ⊢
      tauto

/-- **All that is listed is reached** from the first layer. -/
theorem reached {entry : Path} (h : Layers children met layer order)
    (first : ∀ p ∈ layer, Relation.ReflTransGen (fun q d => d ∈ children q) entry p) :
    ∀ p ∈ order, Relation.ReflTransGen (fun q d => d ∈ children q) entry p := by
  induction h with
  | done => exact first
  | @next met layer order _ _ ih =>
    intro p mem
    rcases List.mem_append.mp mem with mem | mem
    · exact first p mem
    · refine ih (fun d mem => ?_) p mem
      obtain ⟨q, here, child⟩ := List.mem_flatMap.mp (Search.mem_of_mem_fresh mem)
      exact (first q here).tail child

end Layers

/-! ### The order of a discovery -/

/-- What satisfies a test and is alone in this is found. -/
theorem find?_eq_some_of_unique {α : Type} {test : α → Bool} {xs : List α} {x : α} (mem : x ∈ xs)
    (passes : test x = true) (unique : ∀ y ∈ xs, test y = true → y = x) :
    xs.find? test = some x := by
  cases found : xs.find? test with
  | none => exact absurd passes (List.find?_eq_none.mp found x mem)
  | some y => rw [unique y (List.mem_of_find?_eq_some found) (List.find?_some found)]

/-- Of paths that are listed once, each has the dependencies it is listed with. -/
theorem Graph.dependencies?_of_mem {g : Graph} (distinct : (Path.meanings g.keys).Nodup)
    {e : Path × List Path} (mem : e ∈ g.shallow) {p : Path} (same : (e.1 == p) = true) :
    g.dependencies? p = some e.2 := by
  have unique : ∀ e' ∈ g.shallow, (e'.1 == p) = true → e' = e := by
    intro e' mem' same'
    rw [Path.meanings, keys, List.map_map] at distinct
    refine List.inj_on_of_nodup_map distinct mem' mem ?_
    exact (Path.beq_iff.mp same').trans (Path.beq_iff.mp same).symm
  rw [dependencies?, Assoc.get?, find?_eq_some_of_unique mem same unique, Option.map_some]

theorem Graph.children_of_mem {g : Graph} (distinct : (Path.meanings g.keys).Nodup)
    {e : Path × List Path} (mem : e ∈ g.shallow) {p : Path} (same : (e.1 == p) = true) :
    children g.shallow p = e.2 := by
  have found : Assoc.get? g.shallow p = some e.2 := dependencies?_of_mem distinct mem same
  rw [children, found, Option.getD_some]

namespace Search

variable {heard : List Answer} {s : Search} {g : Graph}

/-- The paths that were met are those that were taken in, the one that is being looked at, and those
that wait. -/
def Lined (s : Search) : Prop := s.met = s.graph.keys ++ s.path :: s.waiting

theorem Lined.follows {s' : Search} {m : Module} {deps : List Path} (tidy : s.Tidy) (lined : s.Lined)
    (f : s.Follows m deps s') : s'.Lined := by
  rw [Lined, f.met, f.queue, f.graph, Graph.keys, tidy.grown_shallow, lined, Graph.keys]
  simp

/-- The file that is being looked at adds its dependencies to the next layer. -/
theorem Lined.ahead (lined : s.Lined) {children : Path → List Path} {deps : List Path}
    (listed : children s.path = deps) {before done now later : List Path}
    (taken : s.graph.keys = before ++ done) (waiting : s.waiting = now ++ later)
    (ahead : later = fresh (before ++ (done ++ s.path :: now)) (done.flatMap children)) :
    later ++ fresh s.met deps =
      fresh (before ++ (done ++ s.path :: now)) ((done ++ [s.path]).flatMap children) := by
  have met : s.met = before ++ (done ++ s.path :: now) ++ later := by
    rw [lined, taken, waiting]
    simp
  rw [List.flatMap_append, fresh_append, ← ahead, ← met]
  simp [listed]

/-- A search in the middle of a layer: `done` were taken in, `now` are to be looked at in this layer,
and what is queued behind them is the beginning of the next one. -/
theorem Gathers.layers_from (h : Gathers heard s g) (tidy : s.Tidy) (lined : s.Lined)
    {before done now later : List Path} (taken : s.graph.keys = before ++ done)
    (waiting : s.waiting = now ++ later)
    (ahead : later =
      fresh (before ++ (done ++ s.path :: now)) (done.flatMap (Graph.children g.shallow))) :
    ∃ order, g.keys = before ++ order ∧
      Layers (Graph.children g.shallow) (before ++ (done ++ s.path :: now))
        (done ++ s.path :: now) order := by
  have distinct := h.distinct tidy
  induction h generalizing before done now later with
  | @last s m deps told stops =>
    obtain ⟨none, stops⟩ := List.append_eq_nil_iff.mp stops
    obtain ⟨rfl, rfl⟩ := List.append_eq_nil_iff.mp (waiting.symm.trans none)
    have mem : (s.path, deps) ∈ (s.grown m deps).shallow := by
      rw [tidy.grown_shallow]
      exact List.mem_append_right _ List.mem_cons_self
    have next := lined.ahead (Graph.children_of_mem distinct mem BEq.rfl) taken waiting ahead
    rw [stops] at next
    refine ⟨done ++ [s.path] ++ [], ?_, .next (by simp) ?_⟩
    · rw [Graph.keys, tidy.grown_shallow, List.map_append, ← Graph.keys, taken]
      simp
    · rw [← next]
      exact .done _
  | @more s s' m deps g told f rest ih =>
    have mem : (s.path, deps) ∈ g.shallow := by
      refine rest.mem (tidy.follows f) ?_
      rw [f.graph, tidy.grown_shallow]
      exact List.mem_append_right _ List.mem_cons_self
    have next := lined.ahead (Graph.children_of_mem distinct mem BEq.rfl) taken waiting ahead
    have taken' : s'.graph.keys = before ++ (done ++ [s.path]) := by
      rw [f.graph, Graph.keys, tidy.grown_shallow, List.map_append, ← Graph.keys, taken]
      simp
    have queue : s'.path :: s'.waiting = now ++ (later ++ fresh s.met deps) := by
      rw [f.queue, waiting, List.append_assoc]
    cases now with
    | cons p now =>
      -- the layer goes on
      obtain ⟨rfl, waiting'⟩ := List.cons.inj queue
      obtain ⟨order, keys, layers⟩ := ih (tidy.follows f) (lined.follows tidy f) taken' waiting'
        (by simpa using next) distinct
      exact ⟨order, keys, by simpa using layers⟩
    | nil =>
      -- the next path is the first one of the next layer
      have taken'' : s'.graph.keys = (before ++ (done ++ [s.path])) ++ [] := by simp [taken']
      rw [List.nil_append, next] at queue
      obtain ⟨order, keys, layers⟩ := ih (tidy.follows f) (lined.follows tidy f) taken''
        (List.append_nil _).symm rfl distinct
      rw [List.nil_append, queue] at layers
      exact ⟨_, by rw [keys, List.append_assoc], .next (by simp) layers⟩

/-- **The paths of a graph** stand in breadth-first order. -/
theorem Gathers.layers {platform : String} {entry : Path}
    (h : Gathers heard (start platform entry) g) :
    Layers (Graph.children g.shallow) [entry] [entry] g.keys := by
  have start_keys : (start platform entry).graph.keys = [] ++ [] := rfl
  have start_waiting : (start platform entry).waiting = [] ++ [] := rfl
  obtain ⟨order, keys, layers⟩ :=
    h.layers_from (tidy_start platform entry) rfl start_keys start_waiting rfl
  rw [keys]
  exact layers

end Search

end HotReload
