import HotReload.Proofs.Graph.Layers
import HotReload.Proofs.Graph.Rank

/-!
# Leaf-first ranks

A ranking numbers what the entry reaches, the entry last, and each path after what it imports except
along a cycle.  It depends on nothing but what can be looked up in the map: walks over two maps that
say the same go in lockstep, whatever the order in which the maps were filled.

Sorting by such a ranking is stable: modules with the same rank, and those without one, stay in
order.

* `Walk.Alike`: two walks that differ in the spelling of paths alone.
* `Graph.rankOf?_congr`: two maps with the same lookups give the same ranks.
* `Graph.LeafFirst`: the ranks of what an entry reaches.
* `Graph.Sorts`: some modules sorted by rank.
* `Graph.rank_leafFirst`: what is said of ranks and of sorting by them.
-/

namespace HotReload

namespace Graph

/-! ### Walks over two maps -/

/-- Two maps say the same of each path. -/
def SameLookups (shallow shallow' : ShallowMap) : Prop :=
  ∀ p, (Assoc.get? shallow p).map Path.meanings = (Assoc.get? shallow' p).map Path.meanings

namespace SameLookups

variable {shallow shallow' : ShallowMap}

theorem children (h : SameLookups shallow shallow') {p q : Path}
    (same : p.components = q.components) :
    Path.meanings (children shallow p) = Path.meanings (children shallow' q) := by
  have found := h p
  rw [Assoc.get?_congr (m := shallow') (Path.beq_iff.mpr same)] at found
  rw [Graph.children, Graph.children]
  cases here : Assoc.get? shallow p <;> cases there : Assoc.get? shallow' q <;>
    simp_all

theorem contains (h : SameLookups shallow shallow') (p : Path) :
    Assoc.contains shallow p = Assoc.contains shallow' p := by
  rw [← Assoc.get?_isSome, ← Assoc.get?_isSome, ← Option.isSome_map (f := Path.meanings), h p,
    Option.isSome_map]

/-- Maps that were filled in another order say the same. -/
theorem of_perm (perm : shallow.Perm shallow')
    (distinct : (Path.meanings (shallow.map (·.1))).Nodup) : SameLookups shallow shallow' := by
  intro p
  have same : shallow.find? (·.1 == p) = shallow'.find? (·.1 == p) := by
    cases found : shallow.find? (·.1 == p) with
    | none =>
      have none := List.find?_eq_none.mp found
      exact (List.find?_eq_none.mpr fun e mem => none e (perm.mem_iff.mpr mem)).symm
    | some e =>
      have here := List.mem_of_find?_eq_some found
      have path : (e.1 == p) = true := by simpa using List.find?_some found
      refine (find?_eq_some_of_unique (perm.mem_iff.mp here) path fun e' mem path' => ?_).symm
      rw [Path.meanings, List.map_map] at distinct
      refine List.inj_on_of_nodup_map distinct (perm.mem_iff.mpr mem) here ?_
      exact (Path.beq_iff.mp path').trans (Path.beq_iff.mp path).symm
  rw [Assoc.get?, Assoc.get?, same]

end SameLookups

namespace Walk

variable {shallow shallow' : ShallowMap} {w w' : Walk}

/-- Two walks that differ in the spelling of paths alone. -/
structure Alike (w w' : Walk) : Prop where
  stack : ShallowMap.meaning w.stack = ShallowMap.meaning w'.stack
  met : Path.meanings w.met = Path.meanings w'.met
  left : Path.meanings w.left = Path.meanings w'.left

/-- They take the same step. -/
theorem Alike.step (h : w.Alike w') (same : SameLookups shallow shallow') :
    (w.step shallow).Alike (w'.step shallow') := by
  obtain ⟨stack, met, left⟩ := w
  obtain ⟨stack', met', left'⟩ := w'
  obtain ⟨hstack, hmet, hleft⟩ := h
  simp only at hstack hmet hleft
  cases stack with
  | nil =>
    obtain rfl : stack' = [] := List.map_eq_nil_iff.mp hstack.symm
    exact ⟨rfl, hmet, hleft⟩
  | cons e stack =>
    cases stack' with
    | nil => cases hstack
    | cons e' stack' =>
      obtain ⟨p, deps⟩ := e
      obtain ⟨p', deps'⟩ := e'
      simp only [ShallowMap.meaning, List.map_cons, Prod.map, List.cons.injEq, Prod.mk.injEq]
        at hstack
      obtain ⟨⟨path, rest⟩, hstack⟩ := hstack
      cases deps with
      | nil =>
        obtain rfl : deps' = [] := List.map_eq_nil_iff.mp rest.symm
        refine ⟨hstack, hmet, ?_⟩
        simp only [Walk.step, Path.meanings_append, hleft]
        rw [show Path.meanings [p] = Path.meanings [p'] from congrArg (fun c => [c]) path]
      | cons child deps =>
        cases deps' with
        | nil => cases rest
        | cons child' deps' =>
          obtain ⟨first, rest⟩ := List.cons.inj rest
          have known : met.contains child = met'.contains child' := by
            rw [Path.contains_iff_meanings, Path.contains_iff_meanings, hmet, first]
          have here : (p.components, Path.meanings deps) = (p'.components, Path.meanings deps') :=
            Prod.ext path rest
          simp only [Walk.step, known]
          split
          · exact ⟨List.cons_eq_cons.mpr ⟨here, hstack⟩, hmet, hleft⟩
          · refine ⟨List.cons_eq_cons.mpr ⟨?_, List.cons_eq_cons.mpr ⟨here, hstack⟩⟩,
              List.cons_eq_cons.mpr ⟨first, hmet⟩, hleft⟩
            exact Prod.ext first (same.children first)

theorem Alike.run (h : w.Alike w') (same : SameLookups shallow shallow') (fuel : Nat) :
    (Walk.run shallow fuel w).Alike (Walk.run shallow' fuel w') := by
  induction fuel generalizing w w' with
  | zero => exact h
  | succ fuel ih =>
    have ended : w.stack.isEmpty = w'.stack.isEmpty := by
      have lengths := congrArg List.length h.stack
      simp only [ShallowMap.meaning, List.length_map] at lengths
      rw [Bool.eq_iff_iff, List.isEmpty_iff_length_eq_zero, List.isEmpty_iff_length_eq_zero,
        lengths]
    rw [Walk.run, Walk.run, ended]
    split
    · exact h
    · exact ih (h.step same)

/-- A walk that has come to its end stays there. -/
theorem run_of_ended (fuel : Nat) (ended : w.stack = []) : Walk.run shallow fuel w = w := by
  cases fuel with
  | zero => rfl
  | succ fuel => rw [Walk.run, ended]; rfl

/-- More fuel is of no use to a walk that comes to its end. -/
theorem run_add (more fuel : Nat) (ended : (Walk.run shallow fuel w).stack = []) :
    Walk.run shallow (fuel + more) w = Walk.run shallow fuel w := by
  induction fuel generalizing w with
  | zero =>
    rw [Nat.zero_add]
    exact run_of_ended more ended
  | succ fuel ih =>
    rw [Nat.add_right_comm, Walk.run, Walk.run]
    split
    · rfl
    · next going =>
      rw [Walk.run, if_neg going] at ended
      exact ih ended

end Walk

/-! ### Ranks -/

theorem rankOf?_eq (ranking : List Path) (p : Path) :
    rankOf? ranking p = (Path.meanings ranking).findIdx? (· == p.components) := by
  rw [rankOf?, Path.meanings, List.findIdx?_map]
  rfl

theorem rankOf?_isSome (ranking : List Path) (p : Path) :
    (rankOf? ranking p).isSome = ranking.contains p :=
  (Path.contains_eq_isSome ranking p).symm

/-- **Two maps with the same lookups** give the same ranks, however they were filled. -/
theorem rankOf?_congr {shallow shallow' : ShallowMap} (same : SameLookups shallow shallow')
    (entry p : Path) :
    rankOf? (rank entry shallow) p = rankOf? (rank entry shallow') p := by
  rw [rankOf?_eq, rankOf?_eq]
  congr 1
  cases found : Assoc.key? shallow entry with
  | none =>
    have missing := Assoc.key?_eq_none_iff.mp found
    rw [same.contains, ← Assoc.key?_eq_none_iff] at missing
    rw [rank, rank, found, missing]
  | some key =>
    cases found' : Assoc.key? shallow' entry with
    | none =>
      have missing := Assoc.key?_eq_none_iff.mp found'
      rw [← same.contains, ← Assoc.key?_eq_none_iff, found] at missing
      cases missing
    | some key' =>
      rw [rank, rank, found, found']
      have spelled : key.components = key'.components :=
        Path.beq_iff.mp (BEq.trans (Assoc.beq_of_key? found) (BEq.symm (Assoc.beq_of_key? found')))
      have begin_ : Walk.Alike ⟨[(key, children shallow key)], [key], []⟩
          ⟨[(key', children shallow' key')], [key'], []⟩ :=
        ⟨congrArg (fun e => [e]) (Prod.ext spelled (same.children spelled)),
          congrArg (fun c => [c]) spelled, rfl⟩
      -- both walks end with their own fuel, and so with that of both
      have ends := Walk.stack_run _ (Walk.todo_start shallow key)
      have ends' := Walk.stack_run _ (Walk.todo_start shallow' key')
      simp only
      rw [← Walk.run_add (walkBound shallow') _ ends, ← Walk.run_add (walkBound shallow) _ ends',
        Nat.add_comm (walkBound shallow')]
      exact (begin_.run same _).left

/-- The ranks of what an entry reaches. -/
structure LeafFirst (shallow : ShallowMap) (entry : Path) (ranking : List Path) : Prop where
  /-- What the entry reaches has a rank, and nothing else. -/
  isSome_iff : ∀ p, (rankOf? ranking p).isSome = true ↔ Reaches shallow entry p
  /-- The ranks are numbers below that of all paths, -/
  lt_length : ∀ {p i}, rankOf? ranking p = some i → i < ranking.length
  /-- each of them the rank of some path -/
  onto : ∀ i < ranking.length, ∃ p, rankOf? ranking p = some i
  /-- and of one only. -/
  injective : ∀ {p q i}, rankOf? ranking p = some i → rankOf? ranking q = some i → (p == q) = true
  /-- The entry has the last one. -/
  entry_last : rankOf? ranking entry = some (ranking.length - 1)
  /-- What a path imports has a smaller rank, unless it leads back. -/
  child_lt : ∀ {u d v}, Reaches shallow entry u → d ∈ children shallow u → (d == v) = true →
    ¬ Reaches shallow v u →
    ∃ i j, rankOf? ranking v = some i ∧ rankOf? ranking u = some j ∧ i < j

/-- A trail that leads to the entry is that of the entry alone. -/
theorem Departs.trail_eq_nil {shallow : ShallowMap} {entry p : Path} {before trail : List Path}
    (h : Departs shallow entry before p trail) (same : (p == entry) = true) : trail = [] := by
  -- a trail starts at the entry, which would come twice
  have starts : ∀ {ps : List Path}, Trail shallow entry ps → ps ≠ [] →
      ps.contains entry = true := by
    intro ps t some
    induction t with
    | nil => exact absurd rfl some
    | start same => rw [List.contains_cons, BEq.symm same, Bool.true_or]
    | next _ _ ih => rw [List.contains_cons, ih (List.cons_ne_nil _ _), Bool.or_true]
  by_contra some
  have listed := starts h.way.tail some
  rw [← Path.contains_congr _ same, Path.contains_iff_meanings, List.contains_iff_mem] at listed
  have distinct := h.distinct
  rw [Path.meanings_append, List.nodup_append] at distinct
  exact (List.nodup_cons.mp distinct.2.1).1 listed

namespace Ranks

variable {shallow : ShallowMap} {entry : Path} {ranking : List Path}

/-- The entry is left last. -/
theorem entry_last (h : Ranks shallow entry ranking) :
    rankOf? ranking entry = some (ranking.length - 1) := by
  obtain ⟨before, p, after, trail, split, same, leaving⟩ := h.exists_departs (.here BEq.rfl)
  obtain rfl := leaving.trail_eq_nil same
  -- what was left up to the entry imports nothing else
  have closed : ∀ {q : Path}, Reaches shallow entry q → (before ++ [p]).contains q = true := by
    intro q reached
    induction reached with
    | here here =>
      refine List.contains_iff_exists_mem_beq.mpr ⟨p, by simp, ?_⟩
      exact BEq.trans (BEq.symm here) (BEq.symm same)
    | @further q d r _ child here ih =>
      obtain ⟨k, mem, alike⟩ := List.contains_iff_exists_mem_beq.mp ih
      rw [children_congr alike] at child
      rw [← Path.contains_congr _ here]
      exact leaving.closed k (by simpa [or_comm] using mem) d child
  obtain rfl : after = [] := by
    refine List.eq_nil_iff_forall_not_mem.mpr fun q mem => ?_
    have listed : ranking.contains q = true := by
      rw [split, List.contains_iff_exists_mem_beq]
      exact ⟨q, by simp [mem], BEq.rfl⟩
    have again := closed ((h.contains_iff q).mp listed)
    have distinct := h.distinct
    rw [split, List.append_cons, Path.meanings_append, List.nodup_append] at distinct
    rw [Path.contains_iff_meanings, List.contains_iff_mem] at again
    exact distinct.2.2 _ again _ (List.mem_map_of_mem mem) rfl
  have distinct := h.distinct
  rw [split] at distinct ⊢
  rw [rankOf?_of_split distinct same, List.length_append, List.length_singleton,
    Nat.add_sub_cancel]

/-- **A ranking** is leaf-first. -/
theorem leafFirst (h : Ranks shallow entry ranking) : LeafFirst shallow entry ranking where
  isSome_iff p := by
    rw [rankOf?_isSome]
    exact h.contains_iff p
  lt_length found := (List.findIdx?_eq_some_iff_getElem.mp found).1
  onto i less := by
    have split := (List.take_append_drop i ranking).symm
    rw [List.drop_eq_getElem_cons less] at split
    have distinct := h.distinct
    rw [split] at distinct
    refine ⟨ranking[i], ?_⟩
    have place := rankOf?_of_split distinct BEq.rfl
    rwa [← split, List.length_take_of_le (Nat.le_of_lt less)] at place
  injective {p q i} found found' := by
    obtain ⟨_, here, -⟩ := List.findIdx?_eq_some_iff_getElem.mp found
    obtain ⟨_, there, -⟩ := List.findIdx?_eq_some_iff_getElem.mp found'
    exact BEq.trans (BEq.symm here) there
  entry_last := h.entry_last
  child_lt {u d v} reached child same apart := by
    obtain ⟨before, p, after, trail, split, here, leaving⟩ := h.exists_departs reached
    rw [← children_congr here] at child
    have left := leaving.child child same fun back => apart (back.same_right here)
    have distinct := h.distinct
    rw [split] at distinct ⊢
    obtain ⟨i, found, less⟩ : ∃ i, rankOf? (before ++ p :: after) v = some i ∧
        i < before.length := rankOf?_of_contains left
    exact ⟨i, before.length, found, rankOf?_of_split distinct here, less⟩

end Ranks

/-! ### Sorting by rank -/

/-- Some modules sorted by rank: those with a rank come first and ascend, the others follow as they
stood.  Modules in the same place stay in order. -/
structure Sorts (ranking : List Path) (modules sorted : List Module) : Prop where
  perm : sorted.Perm modules
  ascending : sorted.Pairwise fun m n => ∀ i j, rankOf? ranking m.path = some i →
    rankOf? ranking n.path = some j → i ≤ j
  unranked_last : ∃ ranked, (∀ m ∈ ranked, (rankOf? ranking m.path).isSome = true) ∧
    sorted = ranked ++ modules.filter fun m => (rankOf? ranking m.path).isNone
  stable : ∀ place, sorted.filter (fun m => rankOf? ranking m.path = place) =
    modules.filter fun m => rankOf? ranking m.path = place

/-- A module is put in front of those with the same key. -/
theorem filter_insertByKey (k : Nat) (e : Nat × Module) (es : List (Nat × Module)) :
    (insertByKey e es).filter (·.1 = k) = (e :: es).filter (·.1 = k) := by
  induction es with
  | nil => rfl
  | cons e' es ih =>
    unfold insertByKey
    split
    · rfl
    · -- what it passes has a smaller key
      next beyond =>
      rw [List.filter_cons, ih]
      by_cases key : e.1 = k
      · have passed : ¬ e'.1 = k := by omega
        simp [key, passed]
      · simp [List.filter_cons, key]

/-- **Sorting is stable.** -/
theorem filter_foldr_insertByKey (k : Nat) (es : List (Nat × Module)) :
    (es.foldr insertByKey []).filter (·.1 = k) = es.filter (·.1 = k) := by
  induction es with
  | nil => rfl
  | cons e es ih =>
    rw [List.foldr_cons, filter_insertByKey, List.filter_cons, List.filter_cons, ih]

/-- What is sorted stands beside its own key. -/
theorem fst_of_mem_foldr {ranking : List Path} {modules : List Module} {e : Nat × Module}
    (mem : e ∈ (modules.map fun m => (place ranking m, m)).foldr insertByKey []) :
    e.1 = place ranking e.2 := by
  obtain ⟨m, -, rfl⟩ := List.mem_map.mp ((foldr_insertByKey_perm _).mem_iff.mp mem)
  rfl

/-- Modules in the same place stay in order. -/
theorem filter_place (ranking : List Path) (modules : List Module) (k : Nat) :
    (orderLeafFirst modules ranking).filter (fun m => place ranking m = k) =
      modules.filter fun m => place ranking m = k := by
  have stable := congrArg (List.map (·.2))
    (filter_foldr_insertByKey k (modules.map fun m => (place ranking m, m)))
  have here : orderLeafFirst modules ranking =
      ((modules.map fun m => (place ranking m, m)).foldr insertByKey []).map (·.2) := rfl
  rw [here, List.filter_map, List.filter_congr (q := fun e => decide (e.1 = k)), stable,
    List.filter_map, List.map_map]
  · exact List.map_id _
  · intro e mem
    rw [fst_of_mem_foldr mem]
    rfl

theorem rankOf?_eq_some_iff {ranking : List Path} {m : Module} {i : Nat} :
    rankOf? ranking m.path = some i ↔ i < ranking.length ∧ place ranking m = i := by
  unfold place
  cases found : rankOf? ranking m.path with
  | none => simp; omega
  | some j =>
    have less : j < ranking.length := (List.findIdx?_eq_some_iff_getElem.mp found).1
    simp only [Option.some.injEq, Option.getD_some]
    omega

theorem rankOf?_eq_none_iff {ranking : List Path} {m : Module} :
    rankOf? ranking m.path = none ↔ place ranking m = ranking.length := by
  unfold place
  cases found : rankOf? ranking m.path with
  | none => simp
  | some j =>
    have less : j < ranking.length := (List.findIdx?_eq_some_iff_getElem.mp found).1
    simp only [Option.getD_some, reduceCtorEq, false_iff]
    omega

/-- Where what passes a test comes first, the rest follows it. -/
theorem eq_filter_append_filter {α : Type} {test : α → Bool} {xs : List α}
    (first : xs.Pairwise fun x y => test y = true → test x = true) :
    xs = xs.filter test ++ xs.filter fun x => !test x := by
  induction first with
  | nil => rfl
  | @cons x xs before _ ih =>
    by_cases passes : test x = true
    · simpa [passes] using ih
    · have none : xs.filter test = [] :=
        List.filter_eq_nil_iff.mpr fun y mem later => passes (before y mem later)
      rw [none, List.nil_append] at ih
      simpa [passes, none] using ih

/-- **Sorting by rank.** -/
theorem sorts_orderLeafFirst (modules : List Module) (ranking : List Path) :
    Sorts ranking modules (orderLeafFirst modules ranking) := by
  have sorted := orderLeafFirst_pairwise modules ranking
  have stable : ∀ r,
      (orderLeafFirst modules ranking).filter (fun m => rankOf? ranking m.path = r) =
        modules.filter fun m => rankOf? ranking m.path = r := by
    intro r
    cases r with
    | none =>
      simp only [rankOf?_eq_none_iff]
      exact filter_place ranking modules _
    | some i =>
      by_cases less : i < ranking.length
      · simp only [rankOf?_eq_some_iff, less, true_and]
        exact filter_place ranking modules i
      · simp [rankOf?_eq_some_iff, less]
  refine ⟨orderLeafFirst_perm modules ranking, sorted.imp fun {m n} le i j first later => ?_,
    ⟨(orderLeafFirst modules ranking).filter fun m => (rankOf? ranking m.path).isSome,
      fun m mem => (List.mem_filter.mp mem).2, ?_⟩, stable⟩
  · rw [(rankOf?_eq_some_iff.mp first).2, (rankOf?_eq_some_iff.mp later).2] at le
    exact le
  · have ranked_first : (orderLeafFirst modules ranking).Pairwise fun m n =>
        (rankOf? ranking n.path).isSome = true → (rankOf? ranking m.path).isSome = true := by
      refine sorted.imp fun {m n} le ranked => ?_
      obtain ⟨j, found⟩ := Option.isSome_iff_exists.mp ranked
      obtain ⟨less, here⟩ := rankOf?_eq_some_iff.mp found
      exact Option.isSome_iff_exists.mpr
        ⟨_, rankOf?_eq_some_iff.mpr ⟨Nat.lt_of_le_of_lt le (here ▸ less), rfl⟩⟩
    have unranked := stable none
    simp only [← Option.isNone_iff_eq_none, Bool.decide_eq_true] at unranked
    conv_lhs => rw [eq_filter_append_filter ranked_first]
    simp only [Option.not_isSome, unranked]

/-- **Leaf-first ranks.**  For any map, with cycles, self-imports, dependencies that it does not
have and dependencies that are listed twice: the walk comes to its end; there are no ranks exactly
if the map does not have the entry; else what the entry reaches is ranked leaf-first, and another
map that says the same gives the same ranks.  Sorting by them is stable, and keeps for the end what
has no rank. -/
theorem rank_leafFirst (entry : Path) (shallow : ShallowMap) :
    (∀ key, (Walk.run shallow (walkBound shallow)
      ⟨[(key, children shallow key)], [key], []⟩).stack = []) ∧
    (rank entry shallow = [] ↔ Assoc.contains shallow entry = false) ∧
    (Assoc.contains shallow entry = true →
      LeafFirst shallow entry (rank entry shallow)) ∧
    (∀ shallow', SameLookups shallow shallow' →
      ∀ p, rankOf? (rank entry shallow) p = rankOf? (rank entry shallow') p) ∧
    ∀ modules, Sorts (rank entry shallow) modules
      (orderLeafFirst modules (rank entry shallow)) := by
  refine ⟨fun key => Walk.stack_run _ (Walk.todo_start shallow key),
    ⟨fun none => ?_, fun none => ?_⟩, fun known => (ranks_rank known).leafFirst,
    fun shallow' same => rankOf?_congr same entry,
    fun modules => sorts_orderLeafFirst modules _⟩
  · refine Bool.eq_false_iff.mpr fun known => ?_
    have listed := ((ranks_rank known).contains_iff entry).mpr (.here BEq.rfl)
    rw [none] at listed
    cases listed
  · rw [rank, Assoc.key?_eq_none_iff.mpr none]

end Graph

namespace Sample

/-- A program in which files import each other and themselves, and one that there is not. -/
def tangle : ShallowMap :=
  [(⟨"/m"⟩, [⟨"/a"⟩, ⟨"//b"⟩, ⟨"/a/"⟩]), (⟨"/a"⟩, [⟨"/m"⟩, ⟨"/a"⟩, ⟨"/x"⟩]), (⟨"/b"⟩, [⟨"/a"⟩])]

/-- It is ranked leaf-first, in whatever order the map was filled. -/
theorem tangle_leafFirst :
    (Graph.rank ⟨"/m"⟩ tangle).map Path.text = ["/x", "/a", "//b", "/m"] ∧
    Graph.LeafFirst tangle ⟨"/m"⟩ (Graph.rank ⟨"/m"⟩ tangle) ∧
    Graph.SameLookups tangle tangle.reverse ∧
    ∀ p, Graph.rankOf? (Graph.rank ⟨"/m"⟩ tangle) p =
      Graph.rankOf? (Graph.rank ⟨"/m"⟩ tangle.reverse) p := by
  obtain ⟨-, -, ranked, again, -⟩ := Graph.rank_leafFirst ⟨"/m"⟩ tangle
  have facts : (Graph.rank ⟨"/m"⟩ tangle).map Path.text = ["/x", "/a", "//b", "/m"] ∧
      Assoc.contains tangle (⟨"/m"⟩ : Path) = true ∧
      (Path.meanings (tangle.map (·.1))).Nodup := by decide +kernel
  obtain ⟨order, known, distinct⟩ := facts
  have same : Graph.SameLookups tangle tangle.reverse :=
    .of_perm (List.reverse_perm tangle).symm distinct
  exact ⟨order, ranked known, same, again _ same⟩

end Sample

end HotReload
