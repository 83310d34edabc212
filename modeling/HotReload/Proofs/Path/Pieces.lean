import HotReload.Path
import Mathlib.Data.List.Induction
import Mathlib.Data.List.TakeWhile

/-!
# Paths by their pieces

What a path means is read off the pieces between its slashes.  A slash between two texts puts their
pieces side by side, and a piece that holds no slash is a piece by itself.

* `Path.body`: the components of a path but for the mark in front.
* `Path.body_join`: what lies under an absolute path has the components of both;
  `Path.join_assoc`: it does not matter which two paths are joined first.
* `Component.Spelled`: a component that is written as one piece; `Path.components_ofComponents`: a
  list of them is spelled and read again.
* `Path.components_parent?`: the parent lacks the last component.
-/

namespace HotReload

/-! ### Cutting texts -/

namespace Text

variable {sep : Char}

theorem splitChars_cons_self (cs : List Char) :
    splitChars sep (sep :: cs) = [] :: splitChars sep cs := by
  rw [splitChars, if_pos rfl]

/-- A character that is no separator goes to the first piece. -/
theorem splitChars_cons_of_ne {c : Char} (other : c ≠ sep) (cs : List Char) :
    ∃ piece pieces, splitChars sep cs = piece :: pieces ∧
      splitChars sep (c :: cs) = (c :: piece) :: pieces := by
  obtain ⟨piece, pieces, h⟩ := List.exists_cons_of_ne_nil (splitChars_ne_nil sep cs)
  exact ⟨piece, pieces, h, by rw [splitChars, if_neg other, h]⟩

/-- **A separator divides the pieces** of what stands on its two sides. -/
theorem splitChars_append (cs ds : List Char) :
    splitChars sep (cs ++ sep :: ds) = splitChars sep cs ++ splitChars sep ds := by
  induction cs with
  | nil => exact splitChars_cons_self ds
  | cons c cs ih =>
    by_cases h : c = sep
    · subst h
      rw [List.cons_append, splitChars_cons_self, splitChars_cons_self, ih, List.cons_append]
    · obtain ⟨piece, pieces, whole, split⟩ := splitChars_cons_of_ne h cs
      obtain ⟨piece', pieces', whole', split'⟩ := splitChars_cons_of_ne h (cs ++ sep :: ds)
      rw [ih, whole, List.cons_append] at whole'
      obtain ⟨rfl, rfl⟩ := List.cons.inj whole'
      rw [List.cons_append, split', split, List.cons_append]

theorem splitChars_of_not_mem {cs : List Char} (h : sep ∉ cs) : splitChars sep cs = [cs] := by
  induction cs with
  | nil => rfl
  | cons c cs ih =>
    have other : c ≠ sep := fun same => h (same ▸ List.mem_cons_self)
    rw [splitChars, if_neg other, ih fun mem => h (List.mem_cons_of_mem c mem)]

/-- No piece holds a separator. -/
theorem not_mem_of_mem_splitChars {cs : List Char} :
    ∀ piece ∈ splitChars sep cs, sep ∉ piece := by
  induction cs with
  | nil =>
    intro piece mem
    rw [List.mem_singleton.mp mem]
    exact List.not_mem_nil
  | cons c cs ih =>
    by_cases h : c = sep
    · subst h
      intro piece mem
      rw [splitChars_cons_self] at mem
      rcases List.mem_cons.mp mem with rfl | mem
      · exact List.not_mem_nil
      · exact ih piece mem
    · obtain ⟨first, pieces, whole, split⟩ := splitChars_cons_of_ne h cs
      intro piece mem
      rw [split] at mem
      rw [whole] at ih
      rcases List.mem_cons.mp mem with rfl | mem
      · intro here
        rcases List.mem_cons.mp here with same | here
        · exact h same.symm
        · exact ih first List.mem_cons_self here
      · exact ih piece (List.mem_cons_of_mem _ mem)

/-- Pieces that hold no separator are the pieces of what they make together. -/
theorem splitChars_spliceChars {pieces : List (List Char)} (inhabited : pieces ≠ [])
    (plain : ∀ piece ∈ pieces, sep ∉ piece) :
    splitChars sep (spliceChars sep pieces) = pieces := by
  induction pieces with
  | nil => exact absurd rfl inhabited
  | cons piece pieces ih =>
    have first := splitChars_of_not_mem (plain piece List.mem_cons_self)
    cases pieces with
    | nil => exact first
    | cons next pieces =>
      have rest := ih (List.cons_ne_nil next pieces) fun p mem =>
        plain p (List.mem_cons_of_mem piece mem)
      rw [spliceChars, splitChars_append, first, rest]
      · rfl
      · exact List.cons_ne_nil next pieces

end Text

namespace Path

/-! ### Bodies -/

/-- The components of a path but for the mark in front. -/
def body (p : Path) : List Component := p.pieces.filterMap Component.ofPiece?

theorem components_of_absolute {p : Path} (h : p.isAbsolute = true) :
    p.components = .root :: p.body := by
  simp only [components, h, if_true, body]

theorem isAbsolute_iff {p : Path} : p.isAbsolute = true ↔ ∃ cs, p.text.toList = '/' :: cs := by
  rw [isAbsolute, decide_eq_true_iff, List.head?_eq_some_iff]

theorem pieces_ne_nil (p : Path) : p.pieces ≠ [] := by
  rw [pieces, Text.split, ne_eq, List.map_eq_nil_iff]
  exact Text.splitChars_ne_nil '/' _

theorem pieces_slash (s t : String) :
    pieces ⟨s ++ "/" ++ t⟩ = pieces ⟨s⟩ ++ pieces ⟨t⟩ := by
  simp only [pieces, Text.split, String.toList_append]
  rw [List.append_assoc, show "/".toList = ['/'] from rfl, List.singleton_append,
    Text.splitChars_append, List.map_append]

theorem body_slash (s t : String) : body ⟨s ++ "/" ++ t⟩ = body ⟨s⟩ ++ body ⟨t⟩ := by
  rw [body, pieces_slash, List.filterMap_append, body, body]

theorem body_empty : body ⟨""⟩ = [] := rfl

/-- Slashes in front carry no component. -/
theorem body_dropSlashes (cs : List Char) :
    body ⟨String.ofList (cs.dropWhile (· = '/'))⟩ = body ⟨String.ofList cs⟩ := by
  induction cs with
  | nil => rfl
  | cons c cs ih =>
    by_cases h : c = '/'
    · subst h
      rw [List.dropWhile_cons_of_pos (by simp), ih]
      simp [body, pieces, Text.split, Text.splitChars_cons_self, Component.ofPiece?]
    · rw [List.dropWhile_cons_of_neg (by simpa using h)]

theorem isAbsolute_append {s t : String} (h : isAbsolute ⟨s⟩ = true) :
    isAbsolute ⟨s ++ t⟩ = true := by
  obtain ⟨cs, h⟩ := isAbsolute_iff.mp h
  have opens : (s ++ t).toList = '/' :: (cs ++ t.toList) := by
    rw [String.toList_append, h, List.cons_append]
  exact isAbsolute_iff.mpr ⟨cs ++ t.toList, opens⟩

/-- A text that ends with a slash. -/
theorem eq_append_slash {s : String} (h : s.toList.getLast? = some '/') : ∃ t, s = t ++ "/" := by
  obtain ⟨cs, h⟩ := List.getLast?_eq_some_iff.mp h
  exact ⟨String.ofList cs, String.toList_inj.mp (by simp [h])⟩

theorem text_ne_empty {p : Path} (absolute : p.isAbsolute = true) : p.text ≠ "" := by
  intro empty
  rw [isAbsolute, empty] at absolute
  cases absolute

/-- What is put under a path that is not empty stands behind a slash. -/
theorem exists_join_eq_of_ne {p next : Path} (written : p.text ≠ "")
    (relative : next.isAbsolute = false) :
    ∃ stem, p.join next = ⟨stem ++ "/" ++ next.text⟩ ∧ body ⟨stem⟩ = p.body ∧
      (pieces ⟨stem⟩).head? = p.pieces.head? := by
  rw [join, relative, if_neg Bool.false_ne_true]
  by_cases ends : p.text.toList.getLast? = some '/'
  · obtain ⟨stem, same⟩ := eq_append_slash ends
    have whole : p = ⟨stem ++ "/" ++ ""⟩ := by rw [String.append_empty, ← same]
    obtain ⟨first, more, opens⟩ := List.exists_cons_of_ne_nil (pieces_ne_nil ⟨stem⟩)
    refine ⟨stem, by rw [if_pos (.inr ends), same], ?_, ?_⟩
    · rw [whole, body_slash, body_empty, List.append_nil]
    · rw [whole, pieces_slash, opens, List.cons_append, List.head?_cons, List.head?_cons]
  · exact ⟨p.text, by rw [if_neg (not_or.mpr ⟨written, ends⟩)], rfl, rfl⟩

theorem exists_join_eq {p next : Path} (absolute : p.isAbsolute = true)
    (relative : next.isAbsolute = false) :
    ∃ stem, p.join next = ⟨stem ++ "/" ++ next.text⟩ ∧ body ⟨stem⟩ = p.body := by
  obtain ⟨stem, whole, same, -⟩ := exists_join_eq_of_ne (text_ne_empty absolute) relative
  exact ⟨stem, whole, same⟩

/-- A path from an absolute one is absolute. -/
theorem isAbsolute_join {p : Path} (absolute : p.isAbsolute = true) (next : Path) :
    (p.join next).isAbsolute = true := by
  unfold join
  split
  · next rooted => exact rooted
  · split
    · exact isAbsolute_append absolute
    · exact isAbsolute_append (isAbsolute_append absolute)

/-- What stands between a path and a relative one behind it. -/
def gap (p : Path) : String := if p.text = "" ∨ p.text.toList.getLast? = some '/' then "" else "/"

theorem join_eq_gap {p next : Path} (relative : next.isAbsolute = false) :
    p.join next = ⟨p.text ++ p.gap ++ next.text⟩ := by
  rw [join, relative, if_neg Bool.false_ne_true, gap]
  split
  · rw [String.append_empty]
  · rfl

/-- Behind a text that is not empty, what stands in front of it does not matter. -/
theorem gap_append (front : String) {text : String} (written : text ≠ "") :
    gap ⟨front ++ text⟩ = gap ⟨text⟩ := by
  have cs : text.toList ≠ [] := by
    rwa [ne_eq, String.toList_eq_nil_iff]
  have whole : front ++ text ≠ "" := by
    intro empty
    rw [← String.toList_eq_nil_iff, String.toList_append, List.append_eq_nil_iff] at empty
    exact cs empty.2
  simp only [gap, whole, written, false_or, String.toList_append,
    List.getLast?_append, List.getLast?_eq_some_getLast cs, Option.some_or]

theorem isAbsolute_append_of_ne {s : String} (written : s ≠ "") (t : String) :
    isAbsolute ⟨s ++ t⟩ = isAbsolute ⟨s⟩ := by
  obtain ⟨c, cs, opens⟩ := List.exists_cons_of_ne_nil (mt String.toList_eq_nil_iff.mp written)
  simp only [isAbsolute, String.toList_append, opens, List.cons_append, List.head?_cons]

theorem join_of_absolute (here : Path) {p : Path} (absolute : p.isAbsolute = true) :
    here.join p = p := by
  rw [join, if_pos absolute]

/-- **Of three paths it does not matter** which two are put together first. -/
theorem join_assoc (here p : Path) {next : Path} (relative : next.isAbsolute = false) :
    here.join (p.join next) = (here.join p).join next := by
  cases rooted : p.isAbsolute with
  | true =>
    rw [join_of_absolute here (isAbsolute_join rooted next), join_of_absolute here rooted]
  | false =>
    rw [join_eq_gap relative, join_eq_gap rooted, join_eq_gap relative]
    by_cases empty : p.text = ""
    · have behind : gap ⟨here.text ++ here.gap⟩ = "" := by
        unfold gap
        split
        · next ends => rw [String.append_empty, if_pos ends]
        · rw [if_pos (.inr (by simp))]
      have none_ : p.gap = "" := by rw [gap, if_pos (.inl empty)]
      simp only [empty, none_, String.empty_append, String.append_empty, behind]
      exact join_eq_gap relative
    · have relative' : isAbsolute ⟨p.text ++ p.gap ++ next.text⟩ = false := by
        rw [String.append_assoc, isAbsolute_append_of_ne empty]
        exact rooted
      rw [join_eq_gap relative', gap_append _ empty]
      simp only [String.append_assoc]
/-- **What lies under an absolute path** has the components of both. -/
theorem body_join {p next : Path} (absolute : p.isAbsolute = true)
    (relative : next.isAbsolute = false) :
    (p.join next).isAbsolute = true ∧ (p.join next).body = p.body ++ next.body := by
  obtain ⟨stem, whole, same⟩ := exists_join_eq absolute relative
  refine ⟨isAbsolute_join absolute next, ?_⟩
  rw [whole, body_slash, same]

/-! ### Components that are written as one piece -/

/-- A component that is written as one piece. -/
structure Component.Spelled (c : Component) : Prop where
  piece : ofPiece? c.text = some c
  plain : '/' ∉ c.text.toList

/-- A component is written as the piece it stands for. -/
theorem Component.text_of_ofPiece? {piece : String} {c : Component}
    (h : ofPiece? piece = some c) : c.text = piece := by
  unfold ofPiece? at h
  split at h
  · cases h
  · split at h
    · next up => exact Option.some.inj h ▸ up.symm
    · exact Option.some.inj h ▸ rfl

theorem spelled_of_mem_body {p : Path} {c : Component} (mem : c ∈ p.body) : c.Spelled := by
  obtain ⟨piece, here, stands⟩ := List.mem_filterMap.mp mem
  have text := Component.text_of_ofPiece? stands
  refine ⟨text ▸ stands, ?_⟩
  obtain ⟨cs, cut, rfl⟩ := List.mem_map.mp here
  rw [text, String.toList_ofList]
  exact Text.not_mem_of_mem_splitChars cs cut

/-- A path whose components begin with the root is absolute. -/
theorem isAbsolute_of_components {p : Path} {cs : List Component}
    (h : p.components = .root :: cs) : p.isAbsolute = true ∧ p.body = cs := by
  have relative (mem : Component.root ∈ p.body) : False := by
    cases (spelled_of_mem_body mem).piece
  cases absolute : p.isAbsolute with
  | true => exact ⟨rfl, (List.cons.inj ((components_of_absolute absolute).symm.trans h)).2⟩
  | false =>
    simp only [components, absolute, Bool.false_eq_true, if_false] at h
    split at h
    · cases h
    · exact (relative (by rw [body, h]; exact List.mem_cons_self)).elim

theorem body_of_spelled {c : Component} (h : c.Spelled) : body ⟨c.text⟩ = [c] := by
  have whole : pieces ⟨c.text⟩ = [c.text] := by
    simp only [pieces, Text.split, Text.splitChars_of_not_mem h.plain, List.map_cons,
      List.map_nil, String.ofList_toList]
  rw [body, whole, List.filterMap_cons_some h.piece, List.filterMap_nil]

theorem isAbsolute_of_spelled {c : Component} (h : c.Spelled) : isAbsolute ⟨c.text⟩ = false := by
  cases absolute : isAbsolute ⟨c.text⟩ with
  | false => rfl
  | true =>
    obtain ⟨cs, front⟩ := isAbsolute_iff.mp absolute
    exact absurd (front ▸ List.mem_cons_self) h.plain

/-- One more component under an absolute path. -/
theorem body_join_text {p : Path} {c : Component} (absolute : p.isAbsolute = true)
    (h : c.Spelled) :
    (p.join ⟨c.text⟩).isAbsolute = true ∧ (p.join ⟨c.text⟩).body = p.body ++ [c] := by
  have joined := body_join absolute (isAbsolute_of_spelled h)
  rwa [body_of_spelled h] at joined

theorem body_foldl_join {p : Path} {cs : List Component} (absolute : p.isAbsolute = true)
    (spelled : ∀ c ∈ cs, c.Spelled) :
    (cs.foldl (fun p c => p.join ⟨c.text⟩) p).isAbsolute = true ∧
      (cs.foldl (fun p c => p.join ⟨c.text⟩) p).body = p.body ++ cs := by
  induction cs generalizing p with
  | nil => exact ⟨absolute, (List.append_nil _).symm⟩
  | cons c cs ih =>
    obtain ⟨absolute', one⟩ := body_join_text absolute (spelled c List.mem_cons_self)
    obtain ⟨absolute'', more⟩ := ih absolute' fun d mem => spelled d (List.mem_cons_of_mem c mem)
    refine ⟨absolute'', ?_⟩
    rw [List.foldl_cons, more, one, List.append_assoc, List.singleton_append]

/-- **A path that is spelled** from the root has the components it was spelled with. -/
theorem components_ofComponents {cs : List Component} (spelled : ∀ c ∈ cs, c.Spelled) :
    (ofComponents (.root :: cs)).components = .root :: cs := by
  obtain ⟨absolute, same⟩ := body_foldl_join (p := ⟨"/"⟩) rfl spelled
  exact (components_of_absolute absolute).trans (congrArg (Component.root :: ·) same)

/-! ### Parents -/

theorem ofPiece?_eq_none_iff {piece : String} :
    Component.ofPiece? piece = none ↔ isBlankPiece piece = true := by
  unfold Component.ofPiece? isBlankPiece
  split
  · next blank => simpa using blank
  · next blank => split <;> simpa using blank

theorem plain_of_mem_pieces {p : Path} : ∀ piece ∈ p.pieces, '/' ∉ piece.toList := by
  intro piece mem
  obtain ⟨cs, cut, rfl⟩ := List.mem_map.mp mem
  rw [String.toList_ofList]
  exact Text.not_mem_of_mem_splitChars cs cut

/-- An absolute path has an empty piece in front of its first slash. -/
theorem pieces_of_absolute {p : Path} (h : p.isAbsolute = true) :
    ∃ next more, p.pieces = "" :: next :: more := by
  obtain ⟨cs, front⟩ := isAbsolute_iff.mp h
  obtain ⟨piece, pieces, cut⟩ := List.exists_cons_of_ne_nil (Text.splitChars_ne_nil '/' cs)
  exact ⟨String.ofList piece, pieces.map String.ofList, by
    rw [Path.pieces, Text.split, front, Text.splitChars_cons_self, cut]; rfl⟩

/-- Pieces that hold no slash are the pieces of the path they make. -/
theorem pieces_ofPieces_of_plain {ps : List String} (inhabited : ps ≠ [])
    (plain : ∀ piece ∈ ps, '/' ∉ piece.toList) : (ofPieces ps).pieces = ps := by
  have undone : (String.ofList ∘ String.toList) = id := by
    funext s
    exact String.ofList_toList
  simp only [pieces, ofPieces, Text.split, Text.splice, String.toList_ofList]
  rw [Text.splitChars_spliceChars (by simpa using inhabited), List.map_map, undone, List.map_id]
  intro piece mem
  obtain ⟨s, here, rfl⟩ := List.mem_map.mp mem
  exact plain s here

/-- An empty piece in front makes the path absolute. -/
theorem pieces_ofPieces (next : String) (more : List String)
    (plain : ∀ piece ∈ "" :: next :: more, '/' ∉ piece.toList) :
    (ofPieces ("" :: next :: more)).isAbsolute = true ∧
      (ofPieces ("" :: next :: more)).pieces = "" :: next :: more :=
  ⟨isAbsolute_iff.mpr ⟨_, by simp [ofPieces, Text.splice, Text.spliceChars]; rfl⟩,
    pieces_ofPieces_of_plain (List.cons_ne_nil _ _) plain⟩

/-- The last piece that stands for a component, with nothing but blank pieces behind it. -/
theorem exists_last_piece {ps : List String} {cs : List Component} {c : Component}
    (h : ps.filterMap Component.ofPiece? = cs ++ [c]) :
    ∃ front piece back, ps = front ++ piece :: back ∧ isBlankPiece piece = false ∧
      (∀ blank ∈ back, isBlankPiece blank = true) ∧
      front.filterMap Component.ofPiece? = cs := by
  induction ps using List.reverseRecOn with
  | nil =>
    rw [List.filterMap_nil] at h
    exact absurd h.symm (by simp)
  | append_singleton ps piece ih =>
    rw [List.filterMap_append] at h
    cases stands : Component.ofPiece? piece with
    | none =>
      rw [List.filterMap_cons_none stands, List.filterMap_nil, List.append_nil] at h
      obtain ⟨front, last, back, rfl, named, blank, same⟩ := ih h
      refine ⟨front, last, back ++ [piece], by simp, named, fun b mem => ?_, same⟩
      rcases List.mem_append.mp mem with mem | mem
      · exact blank b mem
      · exact List.mem_singleton.mp mem ▸ ofPiece?_eq_none_iff.mp stands
    | some d =>
      rw [List.filterMap_cons_some stands, List.filterMap_nil] at h
      refine ⟨ps, piece, [], rfl, ?_, fun _ mem => absurd mem List.not_mem_nil, ?_⟩
      · cases blank : isBlankPiece piece with
        | false => rfl
        | true => rw [ofPiece?_eq_none_iff.mpr blank] at stands; cases stands
      · exact (List.append_inj' h rfl).1

/-- The pieces of an absolute path around the last one that stands for a component: the empty piece
in front is another one. -/
theorem pieces_around_last {p : Path} {cs : List Component} {c : Component}
    (absolute : p.isAbsolute = true) (last : p.body = cs ++ [c]) :
    ∃ front piece back, p.pieces = "" :: front ++ piece :: back ∧
      p.pieces.reverse.dropWhile isBlankPiece = piece :: ("" :: front).reverse ∧
      ("" :: front).filterMap Component.ofPiece? = cs ∧
      ∀ blank ∈ back, Component.ofPiece? blank = none := by
  obtain ⟨next, more, whole⟩ := pieces_of_absolute absolute
  obtain ⟨front, piece, back, cut, named, blank, same⟩ := exists_last_piece last
  have dropped : p.pieces.reverse.dropWhile isBlankPiece = piece :: front.reverse := by
    rw [cut, List.reverse_append, List.reverse_cons, List.append_assoc,
      List.dropWhile_append_of_pos fun b mem => blank b (List.mem_reverse.mp mem)]
    exact List.dropWhile_cons_of_neg (by simp [named])
  cases front with
  | nil =>
    rw [whole] at cut
    rw [← (List.cons.inj cut).1] at named
    cases named
  | cons first front =>
    obtain rfl : "" = first := (List.cons.inj (whole.symm.trans cut)).1
    exact ⟨front, piece, back, cut, dropped, same, fun b mem =>
      ofPiece?_eq_none_iff.mpr (blank b mem)⟩

/-- Slashes and dots at the end carry no component. -/
theorem body_trimEnd {p : Path} (absolute : p.isAbsolute = true) :
    p.trimEnd.isAbsolute = true ∧ p.trimEnd.body = p.body := by
  rcases List.eq_nil_or_concat p.body with none | ⟨cs, c, last⟩
  · have blank : ∀ piece ∈ p.pieces.reverse, isBlankPiece piece = true := fun piece mem =>
      ofPiece?_eq_none_iff.mp (List.filterMap_eq_nil_iff.mp none piece (List.mem_reverse.mp mem))
    have all : p.pieces.reverse.dropWhile isBlankPiece = [] := List.dropWhile_eq_nil_iff.mpr blank
    simp only [trimEnd, all, List.reverse_nil, components_of_absolute absolute, none]
    exact ⟨rfl, rfl⟩
  · rw [List.concat_eq_append] at last
    obtain ⟨front, piece, back, cut, dropped, same, blank⟩ := pieces_around_last absolute last
    obtain ⟨next, more, apart⟩ : ∃ next more, front ++ [piece] = next :: more :=
      List.exists_cons_of_ne_nil (by simp)
    have kept : (p.pieces.reverse.dropWhile isBlankPiece).reverse = "" :: next :: more := by
      rw [dropped, List.reverse_cons, List.reverse_reverse, List.cons_append, apart]
    have whole : p.pieces = ("" :: next :: more) ++ back := by
      rw [cut, ← apart]
      simp
    obtain ⟨absolute', pieces⟩ := pieces_ofPieces next more fun q mem =>
      plain_of_mem_pieces q (whole ▸ List.mem_append_left back mem)
    have trimmed : p.trimEnd = ofPieces ("" :: next :: more) := by simp only [trimEnd, kept]
    have nothing : back.filterMap Component.ofPiece? = [] := List.filterMap_eq_nil_iff.mpr blank
    refine trimmed ▸ ⟨absolute', ?_⟩
    rw [body, pieces, body, whole, List.filterMap_append, nothing, List.append_nil]

/-- **The parent** of an absolute path lacks its last component. -/
theorem body_parent? {p : Path} {cs : List Component} {name : String}
    (absolute : p.isAbsolute = true) (last : p.body = cs ++ [.normal name]) :
    ∃ base, p.parent? = some base ∧ base.isAbsolute = true ∧ base.body = cs := by
  obtain ⟨front, piece, back, cut, dropped, same, -⟩ := pieces_around_last absolute last
  have ends : p.components.getLast? = some (.normal name) := by
    rw [components_of_absolute absolute, last, ← List.cons_append, List.getLast?_concat]
  have kept : (p.pieces.reverse.dropWhile isBlankPiece).drop 1 = ("" :: front).reverse := by
    rw [dropped, List.drop_one, List.tail_cons]
  cases front with
  | nil =>
    refine ⟨⟨"/"⟩, ?_, rfl, same⟩
    simp only [parent?, ends, kept]
    rfl
  | cons next more =>
    obtain ⟨absolute', pieces⟩ := pieces_ofPieces next more fun q mem =>
      plain_of_mem_pieces q (cut ▸ List.mem_append_left _ mem)
    obtain ⟨absolute'', trimmed⟩ := body_trimEnd absolute'
    refine ⟨(ofPieces ("" :: next :: more)).trimEnd, ?_, absolute'', ?_⟩
    · simp only [parent?, ends, kept]
      split
      · next single => exact absurd (congrArg List.length single) (by simp)
      · rw [List.reverse_reverse]
    · rw [trimmed, body, pieces, same]

end Path

end HotReload
