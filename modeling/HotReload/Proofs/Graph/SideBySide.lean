import HotReload.Proofs.Graph.Discovery

/-!
# Two discoveries side by side

Two discoveries from one entry file, in two snapshots, go side by side as long as the files that
they come by have the same dependencies.  So they find graphs that are alike, or some file of the
first graph has other dependencies in the second snapshot.

* `Search.Alike`: two searches that stand at the same place.
* `Search.Explores.alike`: what they find is alike.
-/

namespace HotReload.Search

/-- What is new among some paths does not depend on spelling. -/
theorem fresh_meanings {met met' ps ps' : List Path} (hmet : Path.meanings met = Path.meanings met')
    (hps : Path.meanings ps = Path.meanings ps') :
    Path.meanings (fresh met ps) = Path.meanings (fresh met' ps') := by
  induction ps generalizing met met' ps' with
  | nil =>
    rw [List.map_eq_nil_iff.mp hps.symm]
    rfl
  | cons p ps ih =>
    cases ps' with
    | nil => cases hps
    | cons p' ps' =>
      obtain ⟨hp, htail⟩ := List.cons.inj hps
      have known : met.contains p = met'.contains p' := by
        rw [Path.contains_iff_meanings, Path.contains_iff_meanings, hmet, hp]
      unfold fresh
      rw [known]
      split
      · exact ih hmet htail
      · exact List.cons_eq_cons.mpr ⟨hp, ih (List.cons_eq_cons.mpr ⟨hp, hmet⟩) htail⟩

/-- Two searches that stand at the same place. -/
structure Alike (s t : Search) : Prop where
  platform : s.platform = t.platform
  entry : s.entry = t.entry
  path : s.path.components = t.path.components
  waiting : Path.meanings s.waiting = Path.meanings t.waiting
  met : Path.meanings s.met = Path.meanings t.met
  graph : s.graph.Alike t.graph

theorem Alike.refl (s : Search) : s.Alike s := ⟨rfl, rfl, rfl, rfl, rfl, .refl _⟩

section SideBySide

variable {s t : Search} {m n : Module} {deps deps' : List Path}

theorem Alike.grown (a : s.Alike t) (hm : m.meaning = n.meaning)
    (hdeps : Path.meanings deps = Path.meanings deps') : (s.grown m deps).Alike (t.grown n deps') :=
  a.graph.insert hm a.path hdeps

theorem Alike.queue (a : s.Alike t) (hdeps : Path.meanings deps = Path.meanings deps') :
    Path.meanings (s.waiting ++ fresh s.met deps) = Path.meanings (t.waiting ++ fresh t.met deps') := by
  rw [Path.meanings_append, Path.meanings_append, a.waiting, fresh_meanings a.met hdeps]

theorem Alike.follows {s' t' : Search} (a : s.Alike t) (hm : m.meaning = n.meaning)
    (hdeps : Path.meanings deps = Path.meanings deps') (f : s.Follows m deps s')
    (f' : t.Follows n deps' t') : s'.Alike t' := by
  have queue := a.queue hdeps
  rw [← f.queue, ← f'.queue] at queue
  obtain ⟨path, waiting⟩ := List.cons.inj queue
  refine ⟨?_, ?_, path, waiting, ?_, ?_⟩
  · rw [f.platform, f'.platform, a.platform]
  · rw [f.entry, f'.entry, a.entry]
  · rw [f.met, f'.met, Path.meanings_append, Path.meanings_append, a.met,
      fresh_meanings a.met hdeps]
  · rw [f.graph, f'.graph]
    exact a.grown hm hdeps

end SideBySide

/-- What two snapshots have for one file is the same, where its dependencies, if the second
snapshot lists them, are those that the first one lists. -/
theorem has_alike {v v' : Snapshot} {platform : String} {entry p q : Path} {m n : Module}
    {deps deps' : List Path} (kept : v.Keeps v') (hpq : p.components = q.components)
    (has : v.Has platform entry p m deps) (has' : v'.Has platform entry q n deps')
    (same : m.isSource = true → ∀ current, v'.dependencies ⟨platform, p, entry⟩ = .ok current →
      (current == deps) = true) :
    m.meaning = n.meaning ∧ Path.meanings deps = Path.meanings deps' := by
  have hqp : (q == p) = true := Path.beq_iff.mpr hpq.symm
  -- the second snapshot's module, found under the first one's spelling
  obtain ⟨n', hn', hid, hkind⟩ := v'.module_congr hqp has'.module
  obtain ⟨hid', hkind'⟩ := kept has.module hn'
  have kind : n.kind = m.kind := hkind.symm.trans hkind'
  have hmpath := Path.beq_iff.mp (v.path_of_module has.module)
  have hnpath := Path.beq_iff.mp (v'.path_of_module has'.module)
  refine ⟨?_, ?_⟩
  · rw [Module.meaning, Module.meaning, hmpath, hnpath, hpq, ← hid, hid', kind]
  · cases source : m.isSource with
    | true =>
      have source' : n.isSource = true := by rw [Module.isSource, kind]; exact source
      obtain ⟨current, hcurrent, heq⟩ := v'.dependencies_congr hqp (has'.source source')
      have hdeps := Path.beq_iff_meanings.mp (same source current hcurrent)
      rw [← hdeps, Path.beq_iff_meanings.mp heq]
    | false =>
      have leaf' : n.isSource = false := by rw [Module.isSource, kind]; exact source
      rw [has.leaf source, has'.leaf leaf']

/-- **Two discoveries side by side** find graphs that are alike, where no file of the first graph
has other dependencies in the second snapshot. -/
theorem Explores.alike {v v' : Snapshot} {s t : Search} {g h : Graph} (kept : v.Keeps v')
    (ex : Explores v s g) (ex' : Explores v' t h) (tidy : s.Tidy) (a : s.Alike t)
    (same : ∀ {p : Path} {m : Module} {deps current : List Path},
      (p, deps) ∈ g.shallow → v.Has s.platform s.entry p m deps → m.isSource = true →
      v'.dependencies ⟨s.platform, p, s.entry⟩ = .ok current → (current == deps) = true) :
    g.Alike h := by
  -- the files that both searches look at are the same
  have step : ∀ {s t : Search} {m n : Module} {deps deps' : List Path}, s.Alike t →
      v.Has s.platform s.entry s.path m deps → v'.Has t.platform t.entry t.path n deps' →
      (m.isSource = true → ∀ current, v'.dependencies ⟨s.platform, s.path, s.entry⟩ = .ok current →
        (current == deps) = true) →
      m.meaning = n.meaning ∧ Path.meanings deps = Path.meanings deps' := by
    intro s t m n deps deps' a has has' same
    rw [← a.platform, ← a.entry] at has'
    exact has_alike kept a.path has has' same
  induction ex generalizing t with
  | @last s m deps has done =>
    obtain ⟨n, deps', has', rest⟩ := ex'.first
    have taken : (s.path, deps) ∈ (s.grown m deps).shallow := by
      rw [tidy.grown_shallow]
      exact List.mem_append_right _ (List.mem_singleton.mpr rfl)
    obtain ⟨hm, hdeps⟩ := step a has has' fun source current => same taken has source
    rcases rest with ⟨rfl, -⟩ | ⟨t', f', -⟩
    · exact a.grown hm hdeps
    · have queue := a.queue hdeps
      rw [done, ← f'.queue] at queue
      cases queue
  | @more s s' m deps g has f ex ih =>
    obtain ⟨n, deps', has', rest⟩ := ex'.first
    have taken : (s.path, deps) ∈ g.shallow := by
      refine ex.mem (tidy.follows f) ?_
      rw [f.graph, tidy.grown_shallow]
      exact List.mem_append_right _ (List.mem_singleton.mpr rfl)
    obtain ⟨hm, hdeps⟩ := step a has has' fun source current => same taken has source
    rcases rest with ⟨-, done⟩ | ⟨t', f', ex'⟩
    · have queue := a.queue hdeps
      rw [done, ← f.queue] at queue
      cases queue
    · refine ih ex' (tidy.follows f) (a.follows hm hdeps f f') ?_
      rw [f.platform, f.entry]
      exact same

end HotReload.Search
