import HotReload.Project.Basic
import HotReload.Proofs.Script.Splice

/-!
# The records of a scanned text

A scan gives spans of the text that hold whole characters, disjoint and ascending.  Whatever the
grammar of the language does, a parse can do no other: it moves forward only, and records a literal
when it goes past it.  So the records are sorted by their place before they are sorted.

* `Source.byteOffset_lt`, `Source.border_byteOffset`: where character indices lie in the text.
* `Gathered.lies`, `Gathered.whole`: what records are spans of.
* `scan_eq`, `gathered_of_scan`: a scan gives the records of the parse as they are.
-/

namespace HotReload.Script

/-! ### Character indices and bytes -/

namespace Source

variable {dialect : Dialect} {text : String} {i j : Nat}

theorem slice_zero (dialect : Dialect) (text : String) (i : Nat) :
    (ofText dialect text).slice 0 i = text.toList.take i := by
  simp [slice, ofText]

theorem size_ofText (dialect : Dialect) (text : String) :
    (ofText dialect text).size = text.toList.length := by
  simp [size, ofText]

/-- Before an index there are the bytes of the characters before it. -/
theorem byteOffset_ofText (dialect : Dialect) (text : String) (i : Nat) :
    (ofText dialect text).byteOffset i = (String.ofList (text.toList.take i)).utf8ByteSize := by
  rw [byteOffset, slice_zero]

/-- An index lies between two characters. -/
theorem border_byteOffset (dialect : Dialect) (text : String) (i : Nat) :
    Border text ((ofText dialect text).byteOffset i) := by
  refine ⟨String.ofList (text.toList.take i), String.ofList (text.toList.drop i), ?_,
    (byteOffset_ofText dialect text i).symm⟩
  rw [← String.ofList_append, List.take_append_drop, String.ofList_toList]

theorem byteOffset_add (dialect : Dialect) (text : String) (i n : Nat) :
    (ofText dialect text).byteOffset (i + n) = (ofText dialect text).byteOffset i +
      (String.ofList ((text.toList.drop i).take n)).utf8ByteSize := by
  rw [byteOffset_ofText, byteOffset_ofText, List.take_add, String.ofList_append,
    String.utf8ByteSize_append]

theorem byteOffset_mono (le : i ≤ j) :
    (ofText dialect text).byteOffset i ≤ (ofText dialect text).byteOffset j := by
  obtain ⟨n, rfl⟩ := Nat.exists_eq_add_of_le le
  rw [byteOffset_add]
  exact Nat.le_add_right _ _

/-- A character takes a byte at least. -/
theorem byteOffset_lt (lt : i < j) (inside : i < (ofText dialect text).size) :
    (ofText dialect text).byteOffset i < (ofText dialect text).byteOffset j := by
  rw [size_ofText] at inside
  have one : (text.toList.drop i).take 1 = [text.toList[i]] := by
    rw [List.drop_eq_getElem_cons inside]
    rfl
  calc (ofText dialect text).byteOffset i
      < (ofText dialect text).byteOffset i + text.toList[i].utf8Size :=
        Nat.lt_add_of_pos_right (Char.utf8Size_pos _)
    _ = (ofText dialect text).byteOffset (i + 1) := by
        rw [byteOffset_add, one, ← String.singleton_eq_ofList, String.utf8ByteSize_singleton]
    _ ≤ (ofText dialect text).byteOffset j := byteOffset_mono lt

theorem byteOffset_le (dialect : Dialect) (text : String) (i : Nat) :
    (ofText dialect text).byteOffset i ≤ text.utf8ByteSize := by
  obtain ⟨front, back, same, size⟩ := border_byteOffset dialect text i
  rw [← size, same, String.utf8ByteSize_append]
  exact Nat.le_add_right _ _

end Source

/-! ### Records -/

section Records

variable {dialect : Dialect} {text : String} {n : Nat} {records : List ImportRecord}

/-- What was gathered up to an index ends there. -/
theorem Gathered.ended (h : Gathered (.ofText dialect text) n records) :
    ∀ r ∈ records, r.stop ≤ (Source.ofText dialect text).byteOffset n := by
  induction h with
  | nil => exact fun _ mem => absurd mem List.not_mem_nil
  | @cons m i j n records specifier kind _ behind filled _ before ih =>
    have further : ∀ r ∈ records, r.stop ≤ (Source.ofText dialect text).byteOffset n :=
      fun r mem => Nat.le_trans (ih r mem) (Source.byteOffset_mono (by omega))
    exact List.forall_mem_cons.mpr ⟨Source.byteOffset_mono before, further⟩

/-- No record is empty. -/
theorem Gathered.filled (h : Gathered (.ofText dialect text) n records) :
    ∀ r ∈ records, r.start < r.stop := by
  induction h with
  | nil => exact fun _ mem => absurd mem List.not_mem_nil
  | cons specifier kind _ _ filled inside _ ih =>
    exact List.forall_mem_cons.mpr ⟨Source.byteOffset_lt filled inside, ih⟩

/-- The records are spans of the text, disjoint and ascending. -/
theorem Gathered.lies (h : Gathered (.ofText dialect text) n records) :
    Lies text (records.reverse.map ImportRecord.span) where
  inside e mem := by
    obtain ⟨r, there, rfl⟩ := List.mem_map.mp mem
    have there := List.mem_reverse.mp there
    exact ⟨Nat.le_of_lt (h.filled r there),
      Nat.le_trans (h.ended r there) (Source.byteOffset_le dialect text n)⟩
  ascending := by
    rw [List.pairwise_map, List.pairwise_reverse]
    induction h with
    | nil => exact .nil
    | cons specifier kind earlier behind _ _ _ ih =>
      exact .cons (fun r mem => Nat.le_trans (earlier.ended r mem) (Source.byteOffset_mono behind))
        ih

/-- The records hold whole characters. -/
theorem Gathered.whole (h : Gathered (.ofText dialect text) n records) :
    Whole text (records.map ImportRecord.span) := by
  induction h with
  | nil => exact fun _ mem => absurd mem List.not_mem_nil
  | cons specifier kind _ _ _ _ _ ih =>
    exact List.forall_mem_cons.mpr ⟨⟨Source.border_byteOffset .., Source.border_byteOffset ..⟩, ih⟩

/-- To sort the records changes nothing. -/
theorem Gathered.sorted (h : Gathered (.ofText dialect text) n records) :
    Imports.sorted records.reverse = records.reverse := by
  refine List.mergeSort_of_pairwise ?_
  have apart : records.reverse.Pairwise fun r e => r.stop ≤ e.start :=
    List.pairwise_map.mp h.lies.ascending
  refine apart.imp_of_mem fun {r e} mem _ before => decide_eq_true ?_
  exact Nat.le_trans (Nat.le_of_lt (h.filled r (List.mem_reverse.mp mem))) before

end Records

/-! ### Scans -/

/-- **A scan gives the records of the parse as they are,** or the line of the first fault. -/
theorem scan_eq (dialect : Dialect) (text : String) :
    scan dialect text =
      match firstFault (.ofText dialect text) (parsed (.ofText dialect text)).1
        (parsed (.ofText dialect text)).2 with
      | some place => .error ((Source.ofText dialect text).lineAt place)
      | none => .ok (parsed (.ofText dialect text)).1.records.reverse := by
  rw [scan]
  generalize parsed (.ofText dialect text) = outcome
  obtain ⟨cursor, halt⟩ := outcome
  dsimp only
  cases firstFault (.ofText dialect text) cursor halt with
  | some place => rfl
  | none => exact congrArg Except.ok cursor.gathered.sorted

/-- A parse without a fault gives its records. -/
theorem scan_of_parsed {dialect : Dialect} {text : String} {imports : Imports}
    (sound : firstFault (.ofText dialect text) (parsed (.ofText dialect text)).1
      (parsed (.ofText dialect text)).2 = none)
    (records : (parsed (.ofText dialect text)).1.records.reverse = imports) :
    scan dialect text = .ok imports := by
  rw [scan_eq, sound, records]

/-- **Whatever is scanned was gathered** on the way through the text. -/
theorem gathered_of_scan {dialect : Dialect} {text : String} {imports : Imports}
    (scanned : scan dialect text = .ok imports) :
    ∃ n, Gathered (.ofText dialect text) n imports.reverse := by
  rw [scan_eq] at scanned
  split at scanned
  · cases scanned
  · cases scanned
    rw [List.reverse_reverse]
    exact ⟨_, (parsed (.ofText dialect text)).1.gathered⟩

end HotReload.Script

namespace HotReload.Project

/-- A project scans a file as its name says. -/
theorem scan_ok_iff {path : Path} {source : String} {imports : Script.Imports} :
    scan path source = .ok imports ↔
      Script.scan (Script.Dialect.ofPath path) source = .ok imports := by
  unfold scan
  generalize Script.scan (Script.Dialect.ofPath path) source = answer
  cases answer <;> simp

end HotReload.Project
