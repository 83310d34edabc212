import HotReload.Proofs.Path.Pieces

/-!
# What lies under a base

The part of a path under a base is cut out of the text of the path.  Its components are those behind
the components of the base, and where the path was put together of the base and a relative one, its
text is that of the relative one, whatever the base was.

* `Path.components_join`: a path put together has the components of both.
* `Path.components_below?`: the components under a base.
* `Path.below?_join`: the text under the base that it was put under.
-/

namespace HotReload.Path

open Component (ofPiece?)

/-! ### Pieces that are left -/

/-- A path whose first piece stands for a component has no mark in front. -/
theorem components_ofPieces {first : String} {more : List String}
    (plain : ∀ piece ∈ first :: more, '/' ∉ piece.toList) (named : isBlankPiece first = false) :
    (ofPieces (first :: more)).components = (first :: more).filterMap ofPiece? := by
  have whole := pieces_ofPieces_of_plain (List.cons_ne_nil first more) plain
  have relative : (ofPieces (first :: more)).isAbsolute = false := by
    rw [← Bool.not_eq_true]
    intro absolute
    obtain ⟨next, rest, opens⟩ := pieces_of_absolute absolute
    rw [(List.cons.inj (whole.symm.trans opens)).1] at named
    cases named
  have undotted : first ≠ "." := by
    rintro rfl
    cases named
  simp [components, whole, relative, undotted]

theorem filterMap_dropPieces (n : Nat) (ps : List String) :
    (dropPieces n ps).filterMap ofPiece? = (ps.filterMap ofPiece?).drop n := by
  induction ps generalizing n with
  | nil => cases n <;> simp [dropPieces]
  | cons piece ps ih =>
    cases n with
    | zero => rfl
    | succ n =>
      rw [dropPieces]
      cases stands : ofPiece? piece with
      | none => rw [if_pos (ofPiece?_eq_none_iff.mp stands), ih, List.filterMap_cons_none stands]
      | some c =>
        have named : ¬ isBlankPiece piece = true := by
          rw [← ofPiece?_eq_none_iff, stands]
          exact Option.some_ne_none c
        rw [if_neg named, ih, List.filterMap_cons_some stands, List.drop_succ_cons]

/-- What is dropped of a front are its components; what stays of it is blank. -/
theorem exists_dropPieces_append (front ps : List String) :
    ∃ blanks, dropPieces (front.filterMap ofPiece?).length (front ++ ps) = blanks ++ ps ∧
      ∀ blank ∈ blanks, isBlankPiece blank = true := by
  induction front with
  | nil => exact ⟨[], by rw [List.filterMap_nil, List.length_nil, dropPieces],
      fun _ mem => absurd mem List.not_mem_nil⟩
  | cons piece front ih =>
    obtain ⟨blanks, dropped, blank⟩ := ih
    cases stands : ofPiece? piece with
    | some c =>
      have named : ¬ isBlankPiece piece = true := by
        rw [← ofPiece?_eq_none_iff, stands]
        exact Option.some_ne_none c
      refine ⟨blanks, ?_, blank⟩
      rw [List.filterMap_cons_some stands, List.length_cons, List.cons_append, dropPieces,
        if_neg named, dropped]
    | none =>
      have empty := ofPiece?_eq_none_iff.mp stands
      rw [List.filterMap_cons_none stands]
      cases size : (front.filterMap ofPiece?).length with
      | zero =>
        rw [size, dropPieces] at dropped
        refine ⟨piece :: blanks, by rw [dropPieces, List.cons_append, dropped, List.cons_append], ?_⟩
        exact List.forall_mem_cons.mpr ⟨empty, blank⟩
      | succ n =>
        rw [size] at dropped
        exact ⟨blanks, by rw [List.cons_append, dropPieces, if_pos empty, dropped], blank⟩

theorem filterMap_dropWhile (ps : List String) :
    (ps.dropWhile isBlankPiece).filterMap ofPiece? = ps.filterMap ofPiece? := by
  induction ps with
  | nil => rfl
  | cons piece ps ih =>
    rw [List.dropWhile_cons]
    split
    · next blank => rw [ih, List.filterMap_cons_none (ofPiece?_eq_none_iff.mpr blank)]
    · rfl

theorem filterMap_trimPieces (ps : List String) :
    (trimPieces ps).filterMap ofPiece? = ps.filterMap ofPiece? := by
  rw [trimPieces, List.filterMap_reverse, filterMap_dropWhile, List.filterMap_reverse,
    List.reverse_reverse, filterMap_dropWhile]

theorem trimPieces_subset (ps : List String) : trimPieces ps ⊆ ps := by
  intro piece mem
  rw [trimPieces, List.mem_reverse] at mem
  exact (List.dropWhile_suffix _).subset (List.mem_reverse.mp ((List.dropWhile_suffix _).subset mem))

theorem dropPieces_subset (n : Nat) (ps : List String) : dropPieces n ps ⊆ ps := by
  fun_induction dropPieces n ps with
  | case1 => exact List.Subset.refl _
  | case2 => exact List.Subset.refl _
  | case3 n piece ps blank ih => exact List.subset_cons_of_subset piece ih
  | case4 n piece ps named ih => exact List.subset_cons_of_subset piece ih

/-- Blank pieces in front are trimmed. -/
theorem trimPieces_append {blanks : List String} (ps : List String)
    (blank : ∀ piece ∈ blanks, isBlankPiece piece = true) :
    trimPieces (blanks ++ ps) = trimPieces ps := by
  rw [trimPieces, List.dropWhile_append_of_pos blank, trimPieces]

/-- What is left of trimmed pieces starts with one that stands for a component. -/
theorem trimPieces_eq_cons {ps : List String} {first : String} {more : List String}
    (h : trimPieces ps = first :: more) : isBlankPiece first = false := by
  have opens : (ps.dropWhile isBlankPiece).head? = some first := by
    obtain ⟨blanks, cut⟩ := List.dropWhile_suffix (l := (ps.dropWhile isBlankPiece).reverse)
      isBlankPiece
    rw [trimPieces, List.reverse_eq_iff] at h
    rw [h, ← List.reverse_inj, List.reverse_append, List.reverse_reverse, List.reverse_reverse]
      at cut
    rw [← cut]
    rfl
  have named := List.head?_dropWhile_not isBlankPiece ps
  rwa [opens] at named

/-- Trimmed pieces are spelled by a path with the components that they stand for. -/
theorem components_trimmed {ps : List String} (plain : ∀ piece ∈ ps, '/' ∉ piece.toList) :
    (ofPieces (trimPieces ps)).components = ps.filterMap ofPiece? := by
  rw [← filterMap_trimPieces ps]
  cases kept : trimPieces ps with
  | nil => rfl
  | cons first more =>
    refine components_ofPieces (fun piece mem => plain piece ?_) (trimPieces_eq_cons kept)
    exact trimPieces_subset ps (kept ▸ mem)

/-! ### The mark in front -/

/-- The body of a path has no mark. -/
theorem not_mark_of_mem_body {p : Path} {c : Component} (mem : c ∈ p.body) :
    c ≠ .root ∧ c ≠ .current := by
  have stands := (spelled_of_mem_body mem).piece
  constructor <;> rintro rfl <;> cases stands

/-- The components of a path are those of its body behind a mark, if it has one. -/
theorem components_cases (p : Path) :
    p.components = p.body ∨ p.components = .root :: p.body ∨ p.components = .current :: p.body := by
  unfold components
  split
  · exact .inr (.inl rfl)
  · split
    · exact .inr (.inr rfl)
    · exact .inl rfl

/-- The components that are no mark are those of the body. -/
theorem filter_components (p : Path) :
    p.components.filter (fun c => c ≠ .root ∧ c ≠ .current) = p.body := by
  have all : p.body.filter (fun c => c ≠ .root ∧ c ≠ .current) = p.body :=
    List.filter_eq_self.mpr fun c mem => decide_eq_true (not_mark_of_mem_body mem)
  rcases p.components_cases with h | h | h <;> rw [h]
  · exact all
  · rwa [List.filter_cons_of_neg (by simp)]
  · rwa [List.filter_cons_of_neg (by simp)]

/-- Only the first component can be a mark. -/
theorem not_mark_of_mem_tail {p : Path} {c : Component} (mem : c ∈ p.components.tail) :
    c ≠ .root ∧ c ≠ .current := by
  refine not_mark_of_mem_body (p := p) ?_
  rcases p.components_cases with h | h | h <;> rw [h] at mem
  · exact List.mem_of_mem_tail mem
  · exact mem
  · exact mem

/-- What follows a base that is not empty is the end of the body. -/
theorem body_of_components {p base : Path} {rest : List Component}
    (whole : p.components = base.components ++ rest) (inhabited : base.components ≠ []) :
    p.body = base.body ++ rest := by
  have unmarked : rest.filter (fun c => c ≠ .root ∧ c ≠ .current) = rest := by
    refine List.filter_eq_self.mpr fun c mem => decide_eq_true (not_mark_of_mem_tail (p := p) ?_)
    rw [whole, List.tail_append_of_ne_nil inhabited]
    exact List.mem_append_right _ mem
  rw [← filter_components p, whole, List.filter_append, filter_components, unmarked]

/-- A relative path that is not empty opens with a piece that is not empty. -/
theorem exists_first_piece {p : Path} (relative : p.isAbsolute = false) (written : p.text ≠ "") :
    ∃ first more, p.pieces = first :: more ∧ first ≠ "" := by
  obtain ⟨c, cs, opens⟩ := List.exists_cons_of_ne_nil (mt String.toList_eq_nil_iff.mp written)
  have other : c ≠ '/' := by
    rintro rfl
    rw [isAbsolute_iff.mpr ⟨cs, opens⟩] at relative
    cases relative
  obtain ⟨piece, pieces, -, split⟩ := Text.splitChars_cons_of_ne other cs
  refine ⟨String.ofList (c :: piece), pieces.map String.ofList, ?_, ?_⟩
  · rw [Path.pieces, Text.split, opens, split, List.map_cons]
  · intro empty
    rw [← String.toList_eq_nil_iff, String.toList_ofList] at empty
    cases empty

/-- The components of a relative path. -/
theorem components_of_relative {p : Path} (relative : p.isAbsolute = false) :
    p.components = if p.pieces.head? = some "." then .current :: p.body else p.body := by
  rw [components, relative, if_neg Bool.false_ne_true, body]

/-- Only the empty path has no components. -/
theorem components_ne_nil {p : Path} (written : p.text ≠ "") : p.components ≠ [] := by
  cases absolute : p.isAbsolute with
  | true =>
    rw [components_of_absolute absolute]
    exact List.cons_ne_nil _ _
  | false =>
    obtain ⟨first, more, opens, named⟩ := exists_first_piece absolute written
    rw [components_of_relative absolute]
    split
    · exact List.cons_ne_nil _ _
    · next undotted =>
      rw [opens, List.head?_cons, Option.some.injEq] at undotted
      cases stands : ofPiece? first with
      | some c =>
        rw [body, opens, List.filterMap_cons_some stands]
        exact List.cons_ne_nil _ _
      | none =>
        have blank := ofPiece?_eq_none_iff.mp stands
        simp [isBlankPiece, named, undotted] at blank

/-! ### Under a base -/

/-- A relative path without the blank pieces at its end. -/
theorem components_trimEnd_of_relative {p : Path} (relative : p.isAbsolute = false) :
    p.trimEnd.components = p.components := by
  obtain ⟨blanks, cut⟩ := List.dropWhile_suffix (l := p.pieces.reverse) isBlankPiece
  have whole := congrArg List.reverse cut
  have same : (p.pieces.reverse.dropWhile isBlankPiece).reverse.filterMap ofPiece? = p.body := by
    rw [List.filterMap_reverse, filterMap_dropWhile, List.filterMap_reverse, List.reverse_reverse,
      body]
  rw [List.reverse_append, List.reverse_reverse] at whole
  cases kept : (p.pieces.reverse.dropWhile isBlankPiece).reverse with
  | nil =>
    rw [kept, List.filterMap_nil] at same
    simp only [trimEnd, kept]
    rw [components_of_relative relative, ← same]
    split <;> rfl
  | cons first more =>
    rw [kept, List.cons_append] at whole
    have written : p.text ≠ "" := by
      intro empty
      have bare : p.pieces = [""] := by rw [pieces, empty]; rfl
      simp [bare, isBlankPiece] at kept
    obtain ⟨first', more', opens, named⟩ := exists_first_piece relative written
    obtain rfl : first = first' := (List.cons.inj (whole.trans opens)).1
    have pieces' : (ofPieces (first :: more)).pieces = first :: more :=
      pieces_ofPieces_of_plain (List.cons_ne_nil _ _) fun piece mem => by
        refine plain_of_mem_pieces (p := p) piece ?_
        rw [← whole, ← List.cons_append]
        exact List.mem_append_left _ mem
    have relative' : (ofPieces (first :: more)).isAbsolute = false := by
      rw [← Bool.not_eq_true]
      intro absolute
      obtain ⟨next, rest, opens'⟩ := pieces_of_absolute absolute
      exact named (List.cons.inj (pieces'.symm.trans opens')).1
    simp only [trimEnd, kept]
    rw [components_of_relative relative', components_of_relative relative, body, pieces', ← kept,
      same, kept, opens, List.head?_cons, List.head?_cons]

theorem components_trimEnd (p : Path) : p.trimEnd.components = p.components := by
  cases absolute : p.isAbsolute with
  | true =>
    obtain ⟨absolute', body⟩ := body_trimEnd absolute
    rw [components_of_absolute absolute', body, components_of_absolute absolute]
  | false => exact components_trimEnd_of_relative absolute

/-- **The part of a path under a base** has the components behind those of the base. -/
theorem components_below? {p base below : Path} (h : p.below? base = some below) :
    p.components = base.components ++ below.components := by
  unfold below? at h
  split at h
  · next under =>
    obtain ⟨rest, whole⟩ := List.isPrefixOf_iff_prefix.mp under
    have rest_eq : below.components = rest := by
      split at h
      · next empty =>
        obtain rfl := Option.some.inj h
        rw [components_trimEnd, ← whole, empty, List.nil_append]
      · next inhabited =>
        obtain rfl := Option.some.inj h
        rw [components_trimmed, filterMap_dropPieces, filter_components]
        · rw [← body, body_of_components whole.symm inhabited, List.drop_left]
        · exact fun piece mem => plain_of_mem_pieces piece (dropPieces_subset _ _ mem)
    rw [rest_eq, whole]
  · cases h

/-- Exactly what does not start with a base has no part under it. -/
theorem below?_eq_none_iff {p base : Path} : p.below? base = none ↔ p.startsWith base = false := by
  unfold below?
  split
  · next under =>
    rw [under]
    split <;> simp
  · next under => simpa using under

/-! ### Paths that are put together -/

/-- **A path that is put together** has the components of both. -/
theorem components_join {p next : Path} (written : p.text ≠ "")
    (relative : next.isAbsolute = false) :
    (p.join next).components = p.components ++ next.body := by
  obtain ⟨stem, whole, same, head⟩ := exists_join_eq_of_ne written relative
  have body_eq : (p.join next).body = p.body ++ next.body := by rw [whole, body_slash, same]
  have front : (p.join next).isAbsolute = p.isAbsolute := by
    rw [join_eq_gap relative, String.append_assoc, isAbsolute_append_of_ne written]
  cases absolute : p.isAbsolute with
  | true =>
    rw [components_of_absolute (front.trans absolute), body_eq, components_of_absolute absolute,
      List.cons_append]
  | false =>
    obtain ⟨first, more, opens, -⟩ := exists_first_piece absolute written
    have head' : (p.join next).pieces.head? = p.pieces.head? := by
      rw [opens, List.head?_cons] at head ⊢
      rw [whole, pieces_slash, List.head?_append, head, Option.some_or]
    rw [components_of_relative (front.trans absolute), head', body_eq,
      components_of_relative absolute]
    split <;> rfl

/-- Where no mark is in front, trimming takes blank pieces from the end alone. -/
theorem trimEnd_eq_ofPieces {p : Path} (relative : p.isAbsolute = false)
    (undotted : Component.current ∉ p.components) :
    p.trimEnd = ofPieces (trimPieces p.pieces) := by
  by_cases empty : p.text = ""
  · obtain ⟨text⟩ := p
    subst empty
    rfl
  · obtain ⟨first, more, opens, written⟩ := exists_first_piece relative empty
    have named : isBlankPiece first = false := by
      have other : first ≠ "." := by
        rintro rfl
        rw [components_of_relative relative, opens, List.head?_cons, if_pos rfl] at undotted
        exact undotted List.mem_cons_self
      simp [isBlankPiece, written, other]
    have kept : trimPieces p.pieces = (p.pieces.reverse.dropWhile isBlankPiece).reverse := by
      rw [trimPieces, opens, List.dropWhile_cons_of_neg (by simp [named])]
    cases rest : trimPieces p.pieces with
    | nil =>
      have nothing := filterMap_trimPieces p.pieces
      rw [rest, List.filterMap_nil, opens] at nothing
      have blank := List.filterMap_eq_nil_iff.mp nothing.symm first List.mem_cons_self
      rw [ofPiece?_eq_none_iff.mp blank] at named
      cases named
    | cons piece pieces =>
      rw [rest] at kept
      simp only [trimEnd, ← kept]

/-- **Under the base that it was put under**, a relative path has its own text, but for what is
blank at its ends, whatever the base is. -/
theorem below?_join (base : Path) {p : Path} (relative : p.isAbsolute = false)
    (undotted : Component.current ∉ p.components) :
    (base.join p).below? base = some (ofPieces (trimPieces p.pieces)) := by
  by_cases empty : base.text = ""
  · have joined : base.join p = p := by
      rw [join, relative, if_neg Bool.false_ne_true, if_pos (.inl empty), empty,
        String.empty_append]
    have none_ : base.components = [] := by
      obtain ⟨text⟩ := base
      subst empty
      rfl
    have under : p.startsWith base = true := by rw [startsWith, none_]; rfl
    rw [joined, below?, if_pos under, none_, trimEnd_eq_ofPieces relative undotted]
  · obtain ⟨stem, whole, same, -⟩ := exists_join_eq_of_ne empty relative
    have under : (base.join p).startsWith base = true := by
      rw [startsWith, components_join empty relative]
      exact List.isPrefixOf_iff_prefix.mpr (List.prefix_append _ _)
    have pieces_eq : (base.join p).pieces = pieces ⟨stem⟩ ++ p.pieces := by
      rw [whole, pieces_slash]
    obtain ⟨blanks, dropped, blank⟩ := exists_dropPieces_append (pieces ⟨stem⟩) p.pieces
    rw [below?, if_pos under]
    split
    · next none_ => exact absurd none_ (components_ne_nil empty)
    · rw [filter_components, ← same, body, pieces_eq]
      dsimp only
      rw [dropped, trimPieces_append _ blank]

end HotReload.Path
