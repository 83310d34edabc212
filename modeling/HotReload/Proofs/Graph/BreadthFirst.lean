import HotReload.Proofs.Graph.Layers
import Mathlib.Data.Nat.Find

/-!
# Breadth-first order in full

Which paths an entry leads to, and how far away each of them is, depends on nothing but what each
path imports.  An order of these paths is breadth-first where nearer paths come first; of paths
that are equally far away the one whose first importer comes first; and of paths with the same first
importer the one that it imports first.

A queue makes such an order: the next path to take is the first one that is known and was not taken,
and what it imports is known from then on.

* `Away`, `Distance`: how far a path is from the entry.
* `BreadthFirst`: an order that lists what the entry leads to, breadth first.
* `Takes`: paths are taken from a queue.
* `Takes.completes`: a queue of finitely many paths can be taken to its end.
* `Takes.breadthFirst`: a queue that was taken to its end was taken breadth first.
-/

namespace HotReload

variable {children : Path → List Path} {entry : Path}

/-! ### Orders -/

/-- What the entry leads to in so many steps. -/
inductive Away (children : Path → List Path) (entry : Path) : Nat → Path → Prop where
  | here {p : Path} (same : (entry == p) = true) : Away children entry 0 p
  | further {n : Nat} {q d p : Path} (way : Away children entry n q) (child : d ∈ children q)
      (same : (d == p) = true) : Away children entry (n + 1) p

/-- The least number of steps that lead to a path. -/
structure Distance (children : Path → List Path) (entry : Path) (n : Nat) (p : Path) : Prop where
  away : Away children entry n p
  least : ∀ {k : Nat}, Away children entry k p → n ≤ k

/-- The place of the first path in an order that imports a path. -/
def firstImporter? (children : Path → List Path) (order : List Path) (p : Path) : Option Nat :=
  order.findIdx? fun q => (children q).contains p

/-- The place at which a path imports another one first. -/
def importPlace? (children : Path → List Path) (q p : Path) : Option Nat :=
  (children q).findIdx? (· == p)

/-- Of two paths the first one is imported first: by a path that comes earlier, or further ahead by
the same path. -/
inductive ImportedFirst (children : Path → List Path) (order : List Path) (p q : Path) : Prop where
  | importer {i j : Nat} (first : firstImporter? children order p = some i)
      (later : firstImporter? children order q = some j) (less : i < j)
  | place {i a b : Nat} {importer : Path} (first : firstImporter? children order p = some i)
      (later : firstImporter? children order q = some i) (here : order[i]? = some importer)
      (ahead : importPlace? children importer p = some a)
      (behind : importPlace? children importer q = some b) (less : a < b)

/-- Of two paths in an order the first one comes before the other one, breadth first. -/
inductive Precedes (children : Path → List Path) (entry : Path) (order : List Path) (p q : Path) :
    Prop where
  | nearer {m n : Nat} (near : Distance children entry m p) (far : Distance children entry n q)
      (less : m < n)
  | beside {n : Nat} (first : Distance children entry n p) (later : Distance children entry n q)
      (imported : ImportedFirst children order p q)

/-- An order lists what the entry leads to, each path once, breadth first. -/
structure BreadthFirst (children : Path → List Path) (entry : Path) (order : List Path) :
    Prop where
  contains_iff : ∀ p, order.contains p = true ↔ ∃ n, Away children entry n p
  distinct : (Path.meanings order).Nodup
  ordered : order.Pairwise (Precedes children entry order)

/-- How far away a path is does not depend on its spelling. -/
theorem Away.congr {n : Nat} {p q : Path} (h : Away children entry n p) (same : (p == q) = true) :
    Away children entry n q := by
  cases h with
  | here first => exact .here (BEq.trans first same)
  | further way child last => exact .further way child (BEq.trans last same)

theorem Away.exists_distance {n : Nat} {p : Path} (h : Away children entry n p) :
    ∃ m, Distance children entry m p := by
  classical
  have some : ∃ n, Away children entry n p := ⟨n, h⟩
  exact ⟨Nat.find some, Nat.find_spec some, fun away => Nat.find_min' some away⟩

/-! ### Queues -/

/-- The paths that are known when some paths were taken: the entry, and what these import, in the
order in which they are first met. -/
def known (children : Path → List Path) (entry : Path) (taken : List Path) : List Path :=
  entry :: Search.fresh [entry] (taken.flatMap children)

/-- Paths are taken from a queue: each is the first one that is known and was not taken. -/
inductive Takes (children : Path → List Path) (entry : Path) : List Path → Prop where
  | start : Takes children entry []
  | next {taken waiting : List Path} {p : Path} (t : Takes children entry taken)
      (queue : known children entry taken = taken ++ p :: waiting) :
      Takes children entry (taken ++ [p])

/-- What is taken makes known what it imports. -/
theorem known_append (taken more : List Path) :
    known children entry (taken ++ more) = known children entry taken ++
      Search.fresh (known children entry taken) (more.flatMap children) := by
  rw [known, List.flatMap_append, Search.fresh_append]
  rfl

theorem nodup_known (taken : List Path) : (Path.meanings (known children entry taken)).Nodup := by
  refine List.nodup_cons.mpr ⟨fun mem => ?_, Search.nodup_fresh _ _⟩
  obtain ⟨p, here, same⟩ := List.mem_map.mp mem
  exact Search.not_mem_met_of_mem_fresh here (same ▸ List.mem_cons_self)

/-- What is imported is known. -/
theorem contains_known {taken : List Path} {q d : Path} (mem : q ∈ taken) (child : d ∈ children q) :
    (known children entry taken).contains d = true :=
  Search.contains_fresh [entry] (List.mem_flatMap.mpr ⟨q, mem, child⟩)

namespace Takes

variable {taken : List Path}

/-- What was taken was known. -/
theorem prefix_known (t : Takes children entry taken) : taken <+: known children entry taken := by
  cases t with
  | start => exact List.nil_prefix
  | @next taken waiting p t queue =>
    rw [known_append, queue]
    exact ⟨waiting ++ Search.fresh (taken ++ p :: waiting) ([p].flatMap children), by simp⟩

/-- The entry leads to all that is known. -/
theorem away (t : Takes children entry taken) :
    ∀ p ∈ known children entry taken, ∃ n, Away children entry n p := by
  induction t with
  | start =>
    intro p mem
    rw [List.mem_singleton.mp mem]
    exact ⟨0, .here BEq.rfl⟩
  | @next taken waiting p t queue ih =>
    intro q mem
    rw [known_append] at mem
    rcases List.mem_append.mp mem with mem | mem
    · exact ih q mem
    · obtain ⟨n, way⟩ := ih p (by rw [queue]; exact List.mem_append_right _ List.mem_cons_self)
      have child := Search.mem_of_mem_fresh mem
      rw [List.flatMap_singleton] at child
      exact ⟨n + 1, .further way child BEq.rfl⟩

/-- **A queue of finitely many paths can be taken to its end.** -/
theorem completes {paths : List Path} (t : Takes children entry taken)
    (first : entry.components ∈ Path.meanings paths)
    (others : ∀ {p d : Path}, d ∈ children p → d.components ∈ Path.meanings paths) :
    ∃ rest, Takes children entry (taken ++ rest) ∧
      known children entry (taken ++ rest) = taken ++ rest := by
  have within : ∀ taken : List Path,
      Path.meanings (known children entry taken) ⊆ Path.meanings paths := by
    intro taken c mem
    obtain ⟨p, here, rfl⟩ := List.mem_map.mp mem
    rcases List.mem_cons.mp here with rfl | here
    · exact first
    · obtain ⟨q, -, child⟩ := List.mem_flatMap.mp (Search.mem_of_mem_fresh here)
      exact others child
  -- each path that is taken is another one of the finitely many
  induction left : paths.length - taken.length generalizing taken with
  | zero =>
    obtain ⟨waiting, queue⟩ := t.prefix_known
    have room := (nodup_known taken).length_le_of_subset (within taken)
    rw [← queue] at room
    simp only [Path.meanings, List.length_map, List.length_append] at room
    obtain rfl : waiting = [] := List.eq_nil_of_length_eq_zero (by omega)
    rw [List.append_nil] at queue
    exact ⟨[], by rwa [List.append_nil], by rw [List.append_nil, ← queue]⟩
  | succ n ih =>
    obtain ⟨waiting, queue⟩ := t.prefix_known
    cases waiting with
    | nil =>
      rw [List.append_nil] at queue
      exact ⟨[], by rwa [List.append_nil], by rw [List.append_nil, ← queue]⟩
    | cons p waiting =>
      obtain ⟨rest, more, ends⟩ := ih (t.next queue.symm) (by simp; omega)
      exact ⟨p :: rest, by simpa using more, by simpa using ends⟩

end Takes

/-! ### What is imported first -/

/-- What is met anew is listed in the order in which it is met. -/
theorem pairwise_fresh (met ps : List Path) : (Search.fresh met ps).Pairwise fun p q =>
    ∃ a b, ps.findIdx? (· == p) = some a ∧ ps.findIdx? (· == q) = some b ∧ a < b := by
  induction ps generalizing met with
  | nil => exact .nil
  | cons r ps ih =>
    -- a path that is new is not spelled like one that was met
    have other : ∀ {met : List Path} {p : Path}, p ∈ Search.fresh met ps → met.contains r = true →
        (r == p) = false := by
      intro met p mem known
      refine Bool.eq_false_iff.mpr fun same => Search.not_mem_met_of_mem_fresh mem ?_
      rw [Path.contains_iff_meanings, List.contains_iff_mem] at known
      rwa [← Path.beq_iff.mp same]
    have shift : ∀ {p : Path} {a : Nat}, (r == p) = false → ps.findIdx? (· == p) = some a →
        (r :: ps).findIdx? (· == p) = some (a + 1) := by
      intro p a differs found
      rw [List.findIdx?_cons, differs, found]
      rfl
    rw [Search.fresh]
    split
    · next met_before =>
      refine (ih met).imp_of_mem fun {p q} mem mem' places => ?_
      obtain ⟨a, b, first, later, less⟩ := places
      exact ⟨a + 1, b + 1, shift (other mem met_before) first, shift (other mem' met_before) later,
        Nat.succ_lt_succ less⟩
    · have met_now : (r :: met).contains r = true := by
        rw [List.contains_cons, BEq.rfl, Bool.true_or]
      refine .cons (fun q mem => ?_) ((ih (r :: met)).imp_of_mem fun {p q} mem mem' places => ?_)
      · have found : (ps.findIdx? (· == q)).isSome = true := by
          rw [List.findIdx?_isSome, List.any_eq_true]
          exact ⟨q, Search.mem_of_mem_fresh mem, BEq.rfl⟩
        obtain ⟨b, found⟩ := Option.isSome_iff_exists.mp found
        refine ⟨0, b + 1, ?_, shift (other mem met_now) found, Nat.succ_pos b⟩
        rw [List.findIdx?_cons, BEq.rfl]
        rfl
      · obtain ⟨a, b, first, later, less⟩ := places
        exact ⟨a + 1, b + 1, shift (other mem met_now) first, shift (other mem' met_now) later,
          Nat.succ_lt_succ less⟩

section FirstImporter

variable {order : List Path} {p q r : Path}

theorem firstImporter?_of_contains (listed : (children r).contains p = true) :
    firstImporter? children (r :: order) p = some 0 := by
  rw [firstImporter?, List.findIdx?_cons, listed]
  rfl

theorem firstImporter?_of_not_contains (unlisted : (children r).contains p = false) :
    firstImporter? children (r :: order) p = (firstImporter? children order p).map (· + 1) := by
  rw [firstImporter?, List.findIdx?_cons, unlisted]
  rfl

/-- What is imported has a first importer. -/
theorem exists_firstImporter (listed : (order.flatMap children).contains p = true) :
    ∃ i, firstImporter? children order p = some i := by
  rw [← Option.isSome_iff_exists, firstImporter?, List.findIdx?_isSome, List.any_eq_true]
  obtain ⟨d, mem, same⟩ := List.contains_iff_exists_mem_beq.mp listed
  obtain ⟨q, here, child⟩ := List.mem_flatMap.mp mem
  exact ⟨q, here, List.contains_iff_exists_mem_beq.mpr ⟨d, child, same⟩⟩

/-- A path in front that imports neither makes no difference. -/
theorem ImportedFirst.cons (h : ImportedFirst children order p q)
    (hp : (children r).contains p = false) (hq : (children r).contains q = false) :
    ImportedFirst children (r :: order) p q := by
  cases h with
  | importer first later less =>
    refine .importer ?_ ?_ (Nat.succ_lt_succ less)
    · rw [firstImporter?_of_not_contains hp, first, Option.map_some]
    · rw [firstImporter?_of_not_contains hq, later, Option.map_some]
  | @place i _ _ _ first later here ahead behind less =>
    refine .place (i := i + 1) ?_ ?_ here ahead behind less
    · rw [firstImporter?_of_not_contains hp, first, Option.map_some]
    · rw [firstImporter?_of_not_contains hq, later, Option.map_some]

/-- A path that is listed further ahead among all imports is imported first. -/
theorem importedFirst_of_lt {a b : Nat}
    (first : (order.flatMap children).findIdx? (· == p) = some a)
    (later : (order.flatMap children).findIdx? (· == q) = some b) (less : a < b) :
    ImportedFirst children order p q := by
  induction order generalizing a b with
  | nil => cases first
  | cons r order ih =>
    rw [List.flatMap_cons, List.findIdx?_append] at first later
    have hp := Path.contains_eq_isSome (children r) p
    have hq := Path.contains_eq_isSome (children r) q
    -- does the first path import the two?
    cases ahead : (children r).findIdx? (· == p) with
    | some c =>
      rw [ahead, Option.isSome_some] at hp
      cases behind : (children r).findIdx? (· == q) with
      | some d =>
        rw [behind, Option.isSome_some] at hq
        rw [ahead, Option.some_or, Option.some.injEq] at first
        rw [behind, Option.some_or, Option.some.injEq] at later
        subst first later
        exact .place (firstImporter?_of_contains hp) (firstImporter?_of_contains hq) rfl ahead
          behind less
      | none =>
        rw [behind, Option.isSome_none] at hq
        rw [behind, Option.none_or, Option.map_eq_some_iff] at later
        obtain ⟨d, found, -⟩ := later
        have listed : (order.flatMap children).contains q = true := by
          rw [Path.contains_eq_isSome, found, Option.isSome_some]
        obtain ⟨j, importer⟩ := exists_firstImporter listed
        refine .importer (firstImporter?_of_contains hp) ?_ (Nat.succ_pos j)
        rw [firstImporter?_of_not_contains hq, importer, Option.map_some]
    | none =>
      rw [ahead, Option.isSome_none] at hp
      rw [ahead, Option.none_or, Option.map_eq_some_iff] at first
      obtain ⟨c, first, rfl⟩ := first
      cases behind : (children r).findIdx? (· == q) with
      | some d =>
        -- what the first path imports is listed before all else
        rw [behind, Option.some_or, Option.some.injEq] at later
        have bound : d < (children r).length :=
          (List.findIdx?_eq_some_iff_getElem.mp behind).1
        omega
      | none =>
        rw [behind, Option.isSome_none] at hq
        rw [behind, Option.none_or, Option.map_eq_some_iff] at later
        obtain ⟨d, later, rfl⟩ := later
        exact (ih first later (by omega)).cons hp hq

end FirstImporter

/-! ### Queues that were taken to their end -/

/-- What a path imports does not depend on its spelling. -/
def Spelled (children : Path → List Path) : Prop :=
  ∀ {p q : Path}, (p == q) = true → Path.meanings (children p) = Path.meanings (children q)

theorem Spelled.contains {p q : Path} (spelled : Spelled children) (same : (p == q) = true)
    (d : Path) : (children p).contains d = (children q).contains d := by
  rw [Path.contains_iff_meanings, Path.contains_iff_meanings, spelled same]

section Complete

variable {order : List Path} (complete : known children entry order = order)

include complete

/-- The entry comes first. -/
theorem getElem_zero_of_complete (some : 0 < order.length) : order[0] = entry := by
  refine Option.some.inj ?_
  rw [← List.getElem?_eq_getElem, ← complete]
  rfl

/-- What comes after the entry was met anew. -/
theorem getElem_of_complete {i : Nat} (hi : i < order.length) (later : 0 < i) :
    ∃ h : i - 1 < (Search.fresh [entry] (order.flatMap children)).length,
      order[i] = (Search.fresh [entry] (order.flatMap children))[i - 1] := by
  have found : order[i]? = (Search.fresh [entry] (order.flatMap children))[i - 1]? := by
    conv_lhs => rw [← complete, known, List.getElem?_cons, if_neg (by omega)]
  rw [List.getElem?_eq_getElem hi] at found
  obtain ⟨h, same⟩ := List.getElem?_eq_some_iff.mp found.symm
  exact ⟨h, same.symm⟩

/-- The entry does not come again. -/
theorem entry_ne_of_complete {i : Nat} (hi : i < order.length) (later : 0 < i) :
    (entry == order[i]) = false := by
  obtain ⟨h, new⟩ := getElem_of_complete complete hi later
  refine Bool.eq_false_iff.mpr fun same => Search.not_mem_met_of_mem_fresh (List.getElem_mem h) ?_
  rw [← new, ← Path.beq_iff.mp same]
  exact List.mem_singleton.mpr rfl

/-- After the entry, the order is that of imports. -/
theorem importedFirst_of_complete {i j : Nat} (hi : i < order.length) (hj : j < order.length)
    (less : i < j) (later : 0 < i) : ImportedFirst children order order[i] order[j] := by
  have imports := pairwise_fresh [entry] (order.flatMap children)
  rw [List.pairwise_iff_getElem] at imports
  obtain ⟨hi', first⟩ := getElem_of_complete complete hi later
  obtain ⟨hj', second⟩ := getElem_of_complete complete hj (Nat.lt_trans later less)
  obtain ⟨a, b, ahead, behind, ab⟩ := imports (i - 1) (j - 1) hi' hj' (by omega)
  rw [first, second]
  exact importedFirst_of_lt ahead behind ab

variable (spelled : Spelled children)

include spelled

/-- What the entry leads to is listed. -/
theorem contains_of_away {n : Nat} {p : Path} (way : Away children entry n p) :
    order.contains p = true := by
  induction way with
  | here same =>
    rw [← Path.contains_congr order same, ← complete, known, List.contains_cons, BEq.rfl,
      Bool.true_or]
  | @further n q d p _ child same ih =>
    obtain ⟨k, mem, here⟩ := List.contains_iff_exists_mem_beq.mp ih
    have listed : (children k).contains d = true := by
      rw [← spelled.contains here]
      exact List.contains_iff_exists_mem_beq.mpr ⟨d, child, BEq.rfl⟩
    obtain ⟨d', child', alike⟩ := List.contains_iff_exists_mem_beq.mp listed
    have found : (known children entry order).contains d' = true := contains_known mem child'
    rwa [complete, Path.contains_congr order (BEq.trans (BEq.symm alike) same)] at found

/-- **Nearer paths come first:** a path is not further away than one that comes after it. -/
theorem exists_away_of_lt {n : Nat} {p : Path} (way : Away children entry n p) {i j : Nat}
    (hi : i < order.length) (hj : j < order.length) (less : i < j)
    (same : (order[j] == p) = true) : ∃ k, k ≤ n ∧ Away children entry k order[i] := by
  induction way generalizing i j with
  | here entry_same =>
    have again := entry_ne_of_complete complete hj (Nat.zero_lt_of_lt less)
    rw [BEq.trans entry_same (BEq.symm same)] at again
    cases again
  | @further n q d p way child last ih =>
    rcases Nat.eq_zero_or_pos i with rfl | pos
    · refine ⟨0, Nat.zero_le _, .here ?_⟩
      rw [getElem_zero_of_complete complete]
      exact BEq.rfl
    -- the later path is imported from this distance
    obtain ⟨r, mem, here⟩ := List.contains_iff_exists_mem_beq.mp
      (contains_of_away complete spelled way)
    obtain ⟨c, hc, rfl⟩ := List.getElem_of_mem mem
    have imports : (children order[c]).contains order[j] = true := by
      rw [← spelled.contains here]
      exact List.contains_iff_exists_mem_beq.mpr ⟨d, child, BEq.trans same (BEq.symm last)⟩
    have least : ∀ {j' : Nat}, firstImporter? children order order[j] = some j' → j' ≤ c := by
      intro j' importer
      obtain ⟨_, _, before⟩ := List.findIdx?_eq_some_iff_getElem.mp importer
      exact Nat.le_of_not_lt fun beyond => before c beyond imports
    -- the earlier path has an importer that does not come later than that
    obtain ⟨b, le, importer⟩ : ∃ b, b ≤ c ∧
        firstImporter? children order order[i] = some b := by
      cases importedFirst_of_complete complete hi hj less pos with
      | importer first later less' =>
        exact ⟨_, Nat.le_trans (Nat.le_of_lt less') (least later), first⟩
      | place first later => exact ⟨_, least later, first⟩
    obtain ⟨hb, listed, -⟩ := List.findIdx?_eq_some_iff_getElem.mp importer
    obtain ⟨d', child', alike⟩ := List.contains_iff_exists_mem_beq.mp listed
    rcases Nat.eq_or_lt_of_le le with rfl | before
    · exact ⟨n + 1, Nat.le_refl _, .further (way.congr here) child' (BEq.symm alike)⟩
    · obtain ⟨k, near, way'⟩ := ih hb hc before (BEq.symm here)
      exact ⟨k + 1, Nat.succ_le_succ near, .further way' child' (BEq.symm alike)⟩

end Complete

/-- **A queue that was taken to its end was taken breadth first.** -/
theorem Takes.breadthFirst {order : List Path} (t : Takes children entry order)
    (complete : known children entry order = order) (spelled : Spelled children) :
    BreadthFirst children entry order := by
  have reached : ∀ p ∈ order, ∃ n, Away children entry n p := by
    have away := t.away
    rwa [complete] at away
  refine ⟨fun p => ⟨fun listed => ?_, fun ⟨n, way⟩ => contains_of_away complete spelled way⟩,
    complete ▸ nodup_known order, List.pairwise_iff_getElem.mpr fun i j hi hj less => ?_⟩
  · obtain ⟨q, mem, same⟩ := List.contains_iff_exists_mem_beq.mp listed
    obtain ⟨n, way⟩ := reached q mem
    exact ⟨n, way.congr (BEq.symm same)⟩
  · obtain ⟨_, way⟩ := reached order[i] (List.getElem_mem hi)
    obtain ⟨_, way'⟩ := reached order[j] (List.getElem_mem hj)
    obtain ⟨m, near⟩ := way.exists_distance
    obtain ⟨n, far⟩ := way'.exists_distance
    obtain ⟨k, le, short⟩ := exists_away_of_lt complete spelled far.away hi hj less BEq.rfl
    rcases Nat.eq_or_lt_of_le (Nat.le_trans (near.least short) le) with rfl | nearer
    · refine .beside near far (importedFirst_of_complete complete hi hj less ?_)
      rcases Nat.eq_zero_or_pos i with rfl | pos
      · -- what is as near as the entry is the entry, which does not come again
        have zero : Away children entry 0 order[0] := .here (by
          rw [getElem_zero_of_complete complete]; exact BEq.rfl)
        obtain rfl := Nat.le_zero.mp (near.least zero)
        cases far.away with
        | here same =>
          rw [entry_ne_of_complete complete hj less] at same
          cases same
      · exact pos
    · exact .nearer near far nearer

end HotReload
