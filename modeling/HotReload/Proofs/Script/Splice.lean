import HotReload.Script.Splice

/-!
# What a splice replaces and what it keeps

A slice of a text between two bytes is there where the bytes are in order, inside the text and
between characters.  A splice cuts a text at the ends of its spans alone; so where the spans are
spans of the text, disjoint and ascending, what is between them is kept as it was.

* `slice`: the part of a text between two bytes, or why there is none; `slice_eq_ok`.
* `Lies`, `Whole`: spans that lie in a text one behind the other, and hold whole characters.
* `Spliced`: a text with its spans replaced, piece by piece; `spliced_splice`.
* `ascending_of_sorted`: spans that are sorted by their start ascend.
-/

namespace HotReload.Script

variable {source text : String} {m n start stop : Nat}

/-! ### Slices -/

/-- A cut behind a text. -/
theorem splitBytes_front (front : String) (back : List Char) :
    splitBytes front.utf8ByteSize (front.toList ++ back) = (front.toList, back) := by
  have cut := splitBytes_left front.toList back
  rwa [String.ofList_toList] at cut

/-- Why a slice of a text is not there. -/
inductive SliceFault where
  /-- It ends before it starts. -/
  | outOfOrder
  /-- It ends behind the text. -/
  | outOfBounds
  /-- It starts or ends inside of a character. -/
  | insideCharacter
  deriving DecidableEq

/-- The part of a text between two bytes. -/
def slice (source : String) (start stop : Nat) : Except SliceFault String :=
  if stop < start then .error .outOfOrder
  else if source.utf8ByteSize < stop then .error .outOfBounds
  else
    let (front, rest) := splitBytes start source.toList
    let (middle, _) := splitBytes (stop - start) rest
    if (String.ofList front).utf8ByteSize = start ∧
        (String.ofList middle).utf8ByteSize = stop - start then .ok (String.ofList middle)
    else .error .insideCharacter

/-- **A slice is a part of the text,** with so many bytes before it and so many in it. -/
theorem slice_eq_ok : slice source start stop = .ok text ↔
    ∃ front back, source = front ++ text ++ back ∧ front.utf8ByteSize = start ∧
      start + text.utf8ByteSize = stop := by
  constructor
  · intro h
    unfold slice at h
    split at h
    · cases h
    · next ordered =>
      split at h
      · cases h
      · have outer := splitBytes_append start source.toList
        generalize splitBytes start source.toList = cut at h outer
        obtain ⟨front, rest⟩ := cut
        have inner := splitBytes_append (stop - start) rest
        dsimp only at h
        generalize splitBytes (stop - start) rest = cut at h inner
        obtain ⟨middle, back⟩ := cut
        split at h
        · next sizes =>
          cases h
          refine ⟨String.ofList front, String.ofList back, ?_, sizes.1, by omega⟩
          rw [← String.ofList_append, ← String.ofList_append, List.append_assoc, inner, outer,
            String.ofList_toList]
        · cases h
  · rintro ⟨front, back, rfl, rfl, rfl⟩
    have whole : (front ++ text ++ back).toList =
        front.toList ++ (text.toList ++ back.toList) := by
      rw [String.toList_append, String.toList_append, List.append_assoc]
    unfold slice
    rw [if_neg (by omega), if_neg (by simp only [String.utf8ByteSize_append]; omega), whole,
      splitBytes_front]
    simp only [Nat.add_sub_cancel_left, splitBytes_front, String.ofList_toList, and_self, if_true]

/-- Bytes in order and inside the text fail a slice by the characters alone. -/
theorem slice_fault {fault : SliceFault} (ordered : start ≤ stop)
    (inside : stop ≤ source.utf8ByteSize) (fails : slice source start stop = .error fault) :
    fault = .insideCharacter := by
  unfold slice at fails
  rw [if_neg (by omega), if_neg (by omega)] at fails
  dsimp only at fails
  split at fails <;> cases fails
  rfl

/-! ### Places between characters -/

/-- A byte of a text at which a character starts, or the end of the text. -/
def Border (source : String) (n : Nat) : Prop :=
  ∃ front back, source = front ++ back ∧ front.utf8ByteSize = n

/-- A byte is a border where characters of so many bytes stand before it. -/
theorem border_iff : Border source n ↔
    (String.ofList (splitBytes n source.toList).1).utf8ByteSize = n := by
  constructor
  · rintro ⟨front, back, rfl, rfl⟩
    rw [String.toList_append, splitBytes_front, String.ofList_toList]
  · intro size
    refine ⟨String.ofList (splitBytes n source.toList).1,
      String.ofList (splitBytes n source.toList).2, ?_, size⟩
    rw [← String.ofList_append, splitBytes_append, String.ofList_toList]

instance decidableBorder (source : String) (n : Nat) : Decidable (Border source n) :=
  decidable_of_iff _ border_iff.symm

theorem border_zero (source : String) : Border source 0 := ⟨"", source, by simp, rfl⟩

theorem border_size (source : String) : Border source source.utf8ByteSize :=
  ⟨source, "", by simp, rfl⟩

/-- What is behind a byte of a text. -/
def behind (source : String) (n : Nat) : List Char := (splitBytes n source.toList).2

theorem behind_append (front back : String) :
    behind (front ++ back) front.utf8ByteSize = back.toList := by
  rw [behind, String.toList_append, splitBytes_front]

theorem behind_zero (source : String) : behind source 0 = source.toList := by
  have whole := behind_append "" source
  rwa [String.empty_append] at whole

theorem behind_size (source : String) : behind source source.utf8ByteSize = [] := by
  have whole := behind_append source ""
  rwa [String.append_empty] at whole

/-- Of two fronts of one text, the longer one has the shorter one as its front. -/
theorem exists_of_append_eq {front front' rest back : String} (same : front ++ rest = front' ++ back)
    (shorter : front.utf8ByteSize ≤ front'.utf8ByteSize) :
    ∃ kept, front' = front ++ kept ∧ rest = kept ++ back := by
  have lists : front.toList ++ rest.toList = front'.toList ++ back.toList := by
    rw [← String.toList_append, same, String.toList_append]
  rcases List.append_eq_append_iff.mp lists with ⟨kept, longer, tail⟩ | ⟨kept, longer, tail⟩
  · exact ⟨String.ofList kept, String.toList_injective (by simp [longer]),
      String.toList_injective (by simp [tail])⟩
  · -- what is left over has no bytes, and so no characters
    have front_eq : front = front' ++ String.ofList kept :=
      String.toList_injective (by simp [longer])
    have none : String.ofList kept = "" := by
      rw [front_eq, String.utf8ByteSize_append] at shorter
      exact String.utf8ByteSize_eq_zero_iff.mp (by omega)
    have empty : kept = [] := by rw [← String.toList_ofList (l := kept), none, String.toList_empty]
    subst empty
    refine ⟨"", ?_, String.toList_injective (by simpa using tail.symm)⟩
    rw [front_eq, none, String.append_empty, String.append_empty]

/-- A text is cut in one way after so many bytes. -/
theorem append_inj_of_size {front front' rest back : String} (same : front ++ rest = front' ++ back)
    (size : front.utf8ByteSize = front'.utf8ByteSize) : front = front' ∧ rest = back := by
  obtain ⟨kept, rfl, rfl⟩ := exists_of_append_eq same (Nat.le_of_eq size)
  rw [String.utf8ByteSize_append] at size
  have none : kept = "" := String.utf8ByteSize_eq_zero_iff.mp (by omega)
  rw [none, String.append_empty, String.empty_append]
  exact ⟨rfl, rfl⟩

/-- **Between two borders there is a slice,** and it is what is cut off behind the first one. -/
theorem exists_slice (first : Border source m) (second : Border source n) (ordered : m ≤ n) :
    ∃ kept, slice source m n = .ok kept ∧
      splitBytes (n - m) (behind source m) = (kept.toList, behind source n) := by
  obtain ⟨front, rest, rfl, rfl⟩ := first
  obtain ⟨front', back, same, rfl⟩ := second
  obtain ⟨kept, rfl, rfl⟩ := exists_of_append_eq same ordered
  refine ⟨kept, slice_eq_ok.mpr ⟨front, back, ?_, rfl, ?_⟩, ?_⟩
  · rw [String.append_assoc]
  · rw [String.utf8ByteSize_append]
  · rw [behind_append, String.toList_append, String.utf8ByteSize_append, Nat.add_sub_cancel_left,
      splitBytes_front, ← String.append_assoc, ← String.utf8ByteSize_append, behind_append]

/-- What is behind a border is the slice up to the end of the text. -/
theorem slice_behind (before : Border source m) (inside : m ≤ source.utf8ByteSize) :
    slice source m source.utf8ByteSize = .ok (String.ofList (behind source m)) := by
  obtain ⟨kept, there, cut⟩ := exists_slice before (border_size source) inside
  have whole := splitBytes_append (source.utf8ByteSize - m) (behind source m)
  rw [cut, behind_size, List.append_nil] at whole
  rw [there, ← whole, String.ofList_toList]

/-! ### Spans -/

/-- The span of a record. -/
def ImportRecord.span (r : ImportRecord) : Nat × Nat := (r.start, r.stop)

/-- The span of a patch. -/
def Patch.span (p : Patch) : Nat × Nat := (p.start, p.stop)

/-- Spans lie in a text, disjoint and ascending. -/
structure Lies (source : String) (spans : List (Nat × Nat)) : Prop where
  inside : ∀ e ∈ spans, e.1 ≤ e.2 ∧ e.2 ≤ source.utf8ByteSize
  ascending : spans.Pairwise fun e f => e.2 ≤ f.1

/-- Spans hold whole characters of a text. -/
def Whole (source : String) (spans : List (Nat × Nat)) : Prop :=
  ∀ e ∈ spans, Border source e.1 ∧ Border source e.2

variable {spans fewer : List (Nat × Nat)}

instance decidableLies (source : String) (spans : List (Nat × Nat)) :
    Decidable (Lies source spans) :=
  decidable_of_iff ((∀ e ∈ spans, e.1 ≤ e.2 ∧ e.2 ≤ source.utf8ByteSize) ∧
    spans.Pairwise fun e f => e.2 ≤ f.1) ⟨fun h => ⟨h.1, h.2⟩, fun h => ⟨h.inside, h.ascending⟩⟩

instance decidableWhole (source : String) (spans : List (Nat × Nat)) :
    Decidable (Whole source spans) :=
  inferInstanceAs (Decidable (∀ e ∈ spans, Border source e.1 ∧ Border source e.2))

/-- A span of a text may cut a character in two. -/
example : Lies "é" [(1, 2)] ∧ ¬ Whole "é" [(1, 2)] := by decide +kernel

theorem Lies.sublist (h : Lies source spans) (some : fewer.Sublist spans) : Lies source fewer :=
  ⟨fun e mem => h.inside e (some.subset mem), h.ascending.sublist some⟩

theorem Whole.sublist (h : Whole source spans) (some : fewer.Sublist spans) : Whole source fewer :=
  fun e mem => h e (some.subset mem)

theorem Lies.tail {e : Nat × Nat} (h : Lies source (e :: spans)) : Lies source spans :=
  h.sublist (List.sublist_cons_self e spans)

theorem Whole.tail {e : Nat × Nat} (h : Whole source (e :: spans)) : Whole source spans :=
  h.sublist (List.sublist_cons_self e spans)

/-- Two spans that have no byte in common. -/
def Apart (e f : Nat × Nat) : Prop := e.2 ≤ f.1 ∨ f.2 ≤ e.1

instance decidableApart (e f : Nat × Nat) : Decidable (Apart e f) :=
  inferInstanceAs (Decidable (e.2 ≤ f.1 ∨ f.2 ≤ e.1))

/-- Records are sorted by their start. -/
theorem Imports.sorted_ascending (records : Imports) :
    (Imports.sorted records).Pairwise fun r e => r.start ≤ e.start := by
  let before (r e : ImportRecord) : Bool := r.start ≤ e.start
  have trans : ∀ a b c, before a b = true → before b c = true → before a c = true := by
    intro a b c ab bc
    rw [decide_eq_true_iff] at ab bc ⊢
    exact Nat.le_trans ab bc
  have total : ∀ a b, (before a b || before b a) = true := by
    intro a b
    rw [Bool.or_eq_true, decide_eq_true_iff, decide_eq_true_iff]
    exact Nat.le_total a.start b.start
  exact (List.pairwise_mergeSort trans total _).imp fun h => of_decide_eq_true h

/-- **To sort is enough:** where no two spans have a byte in common and none is empty, spans that
are sorted by their start ascend. -/
theorem ascending_of_sorted (sorted : spans.Pairwise fun e f => e.1 ≤ f.1)
    (apart : spans.Pairwise Apart) (filled : ∀ e ∈ spans, e.1 < e.2) :
    spans.Pairwise fun e f => e.2 ≤ f.1 := by
  refine (sorted.and apart).imp_of_mem fun {e f} _ mem h => ?_
  obtain ⟨before, disjoint | disjoint⟩ := h
  · exact disjoint
  · have := filled f mem
    omega

/-! ### Spliced texts -/

/-- A text from a byte on with spans replaced, piece by piece: what is between the spans is kept,
and so is what is behind the last one. -/
inductive Spliced : Nat → List Patch → String → String → Prop where
  | tail (last : Nat) (kept : String) : Spliced last [] kept kept
  | patch {last : Nat} {p : Patch} {ps : List Patch} {kept literal rest rest' : String}
      (start : last + kept.utf8ByteSize = p.start)
      (stop : p.start + literal.utf8ByteSize = p.stop) (more : Spliced p.stop ps rest rest') :
      Spliced last (p :: ps) (kept ++ literal ++ rest) (kept ++ p.text ++ rest')

/-- **There is one spliced text.** -/
theorem Spliced.unique {last : Nat} {patches : List Patch} {text text' : String}
    (h : Spliced last patches source text) (h' : Spliced last patches source text') :
    text = text' := by
  induction h generalizing text' with
  | tail last kept =>
    cases h'
    rfl
  | @patch last p ps kept literal rest rest' start stop more ih =>
    generalize whole : kept ++ literal ++ rest = source at h'
    cases h' with
    | @patch _ _ _ kept' literal' rest₂ rest₂' start' stop' more' =>
      rw [String.append_assoc, String.append_assoc] at whole
      obtain ⟨rfl, behind⟩ := append_inj_of_size whole (by omega)
      obtain ⟨-, rfl⟩ := append_inj_of_size behind (by omega)
      rw [ih more']

/-- One span is replaced, and the splice goes on behind it. -/
theorem spliceFrom_cons {last : Nat} (before : Border source last) (first : Border source start)
    (second : Border source stop) (ordered : last ≤ start) (filled : start ≤ stop) :
    ∃ kept literal : String, slice source last start = .ok kept ∧
      last + kept.utf8ByteSize = start ∧ start + literal.utf8ByteSize = stop ∧
      behind source last = kept.toList ++ (literal.toList ++ behind source stop) ∧
      ∀ text ps, spliceFrom last (behind source last) (⟨start, stop, text⟩ :: ps) =
        kept.toList ++ text.toList ++ spliceFrom stop (behind source stop) ps := by
  obtain ⟨kept, here, cut⟩ := exists_slice before first ordered
  obtain ⟨literal, there, cut'⟩ := exists_slice first second filled
  obtain ⟨-, -, -, -, size⟩ := slice_eq_ok.mp here
  obtain ⟨-, -, -, -, size'⟩ := slice_eq_ok.mp there
  refine ⟨kept, literal, here, size, size', ?_, fun text ps => ?_⟩
  · have outer := splitBytes_append (start - last) (behind source last)
    have inner := splitBytes_append (stop - start) (behind source start)
    rw [cut] at outer
    rw [cut'] at inner
    rw [← outer, ← inner]
  · rw [spliceFrom, cut]
    simp only [cut']

theorem spliced_spliceFrom {last : Nat} {patches : List Patch} (before : Border source last)
    (lies : Lies source (patches.map Patch.span)) (whole : Whole source (patches.map Patch.span))
    (ahead : ∀ p ∈ patches, last ≤ p.start) :
    Spliced last patches (String.ofList (behind source last))
      (String.ofList (spliceFrom last (behind source last) patches)) := by
  induction patches generalizing last with
  | nil => exact .tail last _
  | cons p ps ih =>
    obtain ⟨start, stop, put⟩ := p
    have span : start ≤ stop ∧ stop ≤ source.utf8ByteSize :=
      lies.inside (start, stop) List.mem_cons_self
    have borders : Border source start ∧ Border source stop :=
      whole (start, stop) List.mem_cons_self
    have later : ∀ q ∈ ps, stop ≤ q.start := fun q mem =>
      (List.pairwise_cons.mp lies.ascending).1 q.span (List.mem_map_of_mem mem)
    obtain ⟨kept, literal, -, size, size', text, result⟩ :=
      spliceFrom_cons before borders.1 borders.2 (ahead _ List.mem_cons_self) span.1
    have more := ih borders.2 lies.tail whole.tail later
    rw [result put ps, text]
    simp only [String.ofList_append, String.ofList_toList, ← String.append_assoc]
    exact .patch size size' more

/-- **A splice replaces its spans and keeps all else.** -/
theorem spliced_splice {patches : List Patch} (lies : Lies source (patches.map Patch.span))
    (whole : Whole source (patches.map Patch.span)) :
    Spliced 0 patches source (splice source patches) := by
  have from_ := spliced_spliceFrom (border_zero source) lies whole fun p _ => Nat.zero_le _
  rwa [behind_zero, String.ofList_toList] at from_

end HotReload.Script
