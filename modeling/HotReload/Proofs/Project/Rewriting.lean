import HotReload.Proofs.Project.Requires
import HotReload.Proofs.Project.Sight
import HotReload.Proofs.Script.Scan

/-!
# Rewriting is an exact splice

The literals of a source text that stand for files are replaced by numbers.  This can be done in one
pass through the text: the text is copied up to the next literal, the number is written, and the copy
goes on behind the literal.  Each copy is a slice of the text, and none of them fails where the
literals are spans of the text, disjoint and ascending.  The literals of a scanned text are.

* `Project.rewriteFrom`: the pass; `rewriteFrom_eq`: it does what is done in two steps.
* `Project.FirstUnresolved`, `Rewritten`: what comes of it.
* `Project.literals_of_scan`: what is scanned can be rewritten.
-/

namespace HotReload.Project

open Script (Border Lies Whole Spliced SliceFault ImportRecord Patch)

variable {source : String} {path : Path} {resolution : Resolution} {last : Nat} {out : String}
  {p p' : Project} {records : Script.Imports}

/-! ### One pass -/

/-- The spans of the literals that are required. -/
def literals (imports : Script.Imports) : List (Nat × Nat) := imports.requires.map ImportRecord.span

/-- Puts numbers in for what is required, in one pass.  `out` is written so far, and the text is
copied up to the byte `last`. -/
def rewriteFrom (source : String) (path : Path) (resolution : Resolution) (last : Nat)
    (out : String) (p : Project) :
    Script.Imports → Except SliceFault (Except ResolveFault String × Project)
  | [] =>
    match Script.slice source last source.utf8ByteSize with
    | .error fault => .error fault
    | .ok kept => .ok (.ok (out ++ kept), p)
  | record :: rest =>
    match p.resolve record.specifier path with
    | (.error fault, p) => .ok (.error fault, p)
    | (.ok none, p) => rewriteFrom source path resolution last out p rest
    | (.ok (some file), p) =>
      let (id, p) := numberFor resolution file p
      match Script.slice source last record.start with
      | .error fault => .error fault
      | .ok kept =>
        rewriteFrom source path resolution record.stop (out ++ kept ++ toString id) p rest

/-- **No slice is out of order or out of bounds.** -/
theorem rewriteFrom_fault {fault : SliceFault} (lies : Lies source (records.map ImportRecord.span))
    (inside : last ≤ source.utf8ByteSize) (ahead : ∀ r ∈ records, last ≤ r.start)
    (fails : rewriteFrom source path resolution last out p records = .error fault) :
    fault = .insideCharacter := by
  induction records generalizing last out p with
  | nil =>
    rw [rewriteFrom] at fails
    cases tail : Script.slice source last source.utf8ByteSize with
    | error fault' =>
      rw [tail] at fails
      cases fails
      exact Script.slice_fault inside (Nat.le_refl _) tail
    | ok kept =>
      rw [tail] at fails
      cases fails
  | cons record rest ih =>
    have span : record.start ≤ record.stop ∧ record.stop ≤ source.utf8ByteSize :=
      lies.inside record.span List.mem_cons_self
    rw [rewriteFrom] at fails
    generalize p.resolve record.specifier path = found at fails
    obtain ⟨fault' | _ | file, p₁⟩ := found
    · cases fails
    · exact ih lies.tail inside (fun r mem => ahead r (List.mem_cons_of_mem _ mem)) fails
    · simp only at fails
      generalize numberFor resolution file p₁ = numbered at fails
      obtain ⟨id, p₂⟩ := numbered
      have later : ∀ r ∈ rest, record.stop ≤ r.start := fun r mem =>
        (List.pairwise_cons.mp lies.ascending).1 r.span (List.mem_map_of_mem mem)
      cases copied : Script.slice source last record.start with
      | error fault' =>
        simp only [copied] at fails
        cases fails
        exact Script.slice_fault (ahead record List.mem_cons_self)
          (Nat.le_trans span.1 span.2) copied
      | ok kept =>
        simp only [copied] at fails
        exact ih lies.tail span.2 later fails

/-- **One pass does it:** where the literals hold whole characters, no slice fails, and what is
written is the text with the patches put in. -/
theorem rewriteFrom_eq (before : Border source last)
    (lies : Lies source (records.map ImportRecord.span))
    (whole : Whole source (records.map ImportRecord.span))
    (inside : last ≤ source.utf8ByteSize) (ahead : ∀ r ∈ records, last ≤ r.start) :
    rewriteFrom source path resolution last out p records =
      .ok ((requirePatches path resolution p records).1.map (fun patches =>
          out ++ String.ofList (Script.spliceFrom last (Script.behind source last) patches)),
        (requirePatches path resolution p records).2) := by
  induction records generalizing last out p with
  | nil =>
    rw [rewriteFrom, Script.slice_behind before inside]
    rfl
  | cons record rest ih =>
    have span : record.start ≤ record.stop ∧ record.stop ≤ source.utf8ByteSize :=
      lies.inside record.span List.mem_cons_self
    have borders : Border source record.start ∧ Border source record.stop :=
      whole record.span List.mem_cons_self
    have later : ∀ r ∈ rest, record.stop ≤ r.start := fun r mem =>
      (List.pairwise_cons.mp lies.ascending).1 r.span (List.mem_map_of_mem mem)
    rw [rewriteFrom, requirePatches_cons]
    generalize p.resolve record.specifier path = found
    obtain ⟨fault | _ | file, p₁⟩ := found
    · rfl
    · exact ih before lies.tail whole.tail inside fun r mem => ahead r (List.mem_cons_of_mem _ mem)
    · simp only
      generalize numberFor resolution file p₁ = numbered
      obtain ⟨id, p₂⟩ := numbered
      obtain ⟨kept, literal, copied, -, -, -, result⟩ :=
        Script.spliceFrom_cons before borders.1 borders.2 (ahead record List.mem_cons_self) span.1
      simp only [copied]
      refine (ih borders.2 lies.tail whole.tail span.2 later).trans ?_
      generalize requirePatches path resolution p₂ rest = others
      obtain ⟨_ | patches, p₃⟩ := others
      · rfl
      · refine congrArg Except.ok (congrArg (·, p₃) (congrArg Except.ok ?_))
        dsimp only
        rw [result]
        simp only [String.ofList_append, String.ofList_toList, String.append_assoc]

/-- What is done in two steps is done in one pass. -/
theorem rewriteFrom_zero {imports : Script.Imports} (lies : Lies source (literals imports))
    (whole : Whole source (literals imports)) :
    rewriteFrom source path resolution 0 "" p imports.requires =
      .ok (numberRequires path source imports resolution p) := by
  rw [rewriteFrom_eq (Script.border_zero source) lies whole (Nat.zero_le _)
    fun _ _ => Nat.zero_le _]
  simp only [Script.behind_zero, String.empty_append, numberRequires]
  rfl

/-! ### What comes of it -/

/-- The literals that stand for files, each with its file. -/
def links (find : Meaning) (records : Script.Imports) : List (ImportRecord × Path) :=
  records.filterMap fun r =>
    match find r.specifier with
    | .ok (some file) => some (r, file)
    | _ => none

theorem targets_eq_links (path : Path) (p : Project) (records : Script.Imports) :
    targets path p records = links (p.found path) records := by
  induction records generalizing p with
  | nil => rfl
  | cons record rest ih =>
    have sees := (p.seesAs_resolve record.specifier path).found_eq path
    have here : p.found path record.specifier = (p.resolve record.specifier path).1 := rfl
    rw [targets, links, List.filterMap_cons, here]
    generalize p.resolve record.specifier path = answer at sees
    obtain ⟨fault | _ | file, p₁⟩ := answer
    · exact (ih p₁).trans (by rw [sees]; rfl)
    · exact (ih p₁).trans (by rw [sees]; rfl)
    · exact congrArg ((record, file) :: ·) ((ih p₁).trans (by rw [sees]; rfl))

/-- The spans of the literals that stand for files are spans of literals, in their order. -/
theorem span_links_sublist (find : Meaning) (records : Script.Imports) :
    ((links find records).map fun target => target.1.span).Sublist
      (records.map ImportRecord.span) := by
  induction records with
  | nil => exact .slnil
  | cons record rest ih =>
    rw [links, List.filterMap_cons]
    split
    · exact ih.cons _
    · next target found =>
      have same : target.1 = record := by
        split at found
        · cases found
          rfl
        · cases found
      rw [List.map_cons, List.map_cons, same]
      exact ih.cons_cons _

/-- A patch has the span of its literal. -/
theorem span_of_numbers {number : Path → Option ModuleId} {patches : List Patch}
    {targets : List (ImportRecord × Path)} (numbers : List.Forall₂ (Numbers number) targets patches) :
    patches.map Patch.span = targets.map fun target => target.1.span := by
  induction numbers with
  | nil => rfl
  | cons put _ ih =>
    obtain ⟨id, -, rfl⟩ := put
    rw [List.map_cons, List.map_cons, ih]
    rfl

/-- The first literal that has no meaning, and the fault that names it. -/
def FirstUnresolved (path : Path) (find : Meaning) (records : Script.Imports)
    (fault : ResolveFault) : Prop :=
  ∃ front r back reason, records = front ++ r :: back ∧
    (∀ e ∈ front, ∃ target, find e.specifier = .ok target) ∧
    find r.specifier = .error fault ∧ fault = .unresolved r.specifier path reason

theorem found_error {s : String} {fault : ResolveFault} (fails : p.found path s = .error fault) :
    ∃ reason, fault = .unresolved s path reason := by
  simp only [found, resolve_eq] at fails
  generalize (locate p.extensions (path.parent?.getD p.root) s).on p.disk p.memory = seen at fails
  obtain ⟨fault' | file, memory⟩ := seen
  · cases fault' <;> cases fails <;> exact ⟨_, rfl⟩
  · cases fails

theorem seesAs_numberFor (resolution : Resolution) (file : Path) (p : Project) :
    (numberFor resolution file p).2.SeesAs p := by
  unfold numberFor
  split
  · exact .refl p
  · exact seesAs_idOf p file

/-- Patches are made of all literals, up to the first one without a meaning. -/
theorem requirePatches_meant (path : Path) (resolution : Resolution) (p : Project)
    (records : Script.Imports) :
    match (requirePatches path resolution p records).1 with
    | .ok _ => ∀ r ∈ records, ∃ target, p.found path r.specifier = .ok target
    | .error fault => FirstUnresolved path (p.found path) records fault := by
  induction records generalizing p with
  | nil => exact fun _ mem => absurd mem List.not_mem_nil
  | cons record rest ih =>
    have further : ∀ {p₁ : Project} {target : Option Path}, p₁.SeesAs p →
        p.found path record.specifier = .ok target →
        match (requirePatches path resolution p₁ rest).1 with
        | .ok _ => ∀ r ∈ record :: rest, ∃ target, p.found path r.specifier = .ok target
        | .error fault => FirstUnresolved path (p.found path) (record :: rest) fault := by
      intro p₁ target sees means
      have later := ih p₁
      rw [sees.found_eq path] at later
      generalize (requirePatches path resolution p₁ rest).1 = answer at later
      cases answer with
      | ok patches => exact List.forall_mem_cons.mpr ⟨⟨target, means⟩, later⟩
      | error fault =>
        obtain ⟨front, r, back, reason, rfl, meant, fails⟩ := later
        exact ⟨record :: front, r, back, reason, rfl,
          List.forall_mem_cons.mpr ⟨⟨target, means⟩, meant⟩, fails⟩
    have sees := p.seesAs_resolve record.specifier path
    have here : p.found path record.specifier = (p.resolve record.specifier path).1 := rfl
    rw [requirePatches_cons]
    generalize p.resolve record.specifier path = answer at sees here
    obtain ⟨fault | _ | file, p₁⟩ := answer
    · obtain ⟨reason, is⟩ := found_error here
      exact ⟨[], record, rest, reason, rfl, fun _ mem => absurd mem List.not_mem_nil, here, is⟩
    · exact further sees here
    · have numbered := (seesAs_numberFor resolution file p₁).trans sees
      have rest_ := further numbered here
      simp only
      generalize numberFor resolution file p₁ = given at rest_
      obtain ⟨id, p₂⟩ := given
      simp only
      generalize requirePatches path resolution p₂ rest = others at rest_
      obtain ⟨fault | patches, p₃⟩ := others
      · exact rest_
      · exact rest_

/-- What comes of rewriting a text, and the project after it. -/
inductive Rewritten (path : Path) (source : String) (records : Script.Imports)
    (resolution : Resolution) (p : Project) : Except ResolveFault String × Project → Prop where
  /-- The fault of the first literal without a meaning, and no text. -/
  | fault {fault : ResolveFault} {p' : Project}
      (first : FirstUnresolved path (p.found path) records fault) :
      Rewritten path source records resolution p (.error fault, p')
  /-- The text in which each literal that stands for a file is replaced by the number of the file,
  and all else is kept.  The number is the program's, or else the one that the project has from then
  on. -/
  | text {text : String} {p' : Project} {patches : List Patch}
      (meant : ∀ r ∈ records, ∃ target, p.found path r.specifier = .ok target)
      (numbers : List.Forall₂ (Numbers (numberIn resolution p'.number?))
        (links (p.found path) records) patches)
      (spliced : ∀ other, Spliced 0 patches source other ↔ other = text) :
      Rewritten path source records resolution p (.ok text, p')

theorem rewritten_numberRequires {imports : Script.Imports} (lies : Lies source (literals imports))
    (whole : Whole source (literals imports)) :
    Rewritten path source imports.requires resolution p
      (numberRequires path source imports resolution p) := by
  have meant := requirePatches_meant path resolution p imports.requires
  cases made : requirePatches path resolution p imports.requires with
  | mk answer p' =>
    rw [made] at meant
    simp only [numberRequires, made]
    cases answer with
    | error fault => exact .fault meant
    | ok patches =>
      have numbers := numbers_in_of_requirePatches made
      rw [targets_eq_links] at numbers
      have spans : (patches.map Patch.span).Sublist
          (imports.requires.map ImportRecord.span) := by
        rw [span_of_numbers numbers]
        exact span_links_sublist _ _
      have spliced := Script.spliced_splice (lies.sublist spans) (whole.sublist spans)
      refine .text meant numbers fun other => ⟨fun h => h.unique spliced, fun same => ?_⟩
      rw [same]
      exact spliced

/-! ### The literals of a scanned text -/

/-- Records are scanned in the order of their places. -/
theorem scan_ascending {imports : Script.Imports} (scanned : scan path source = .ok imports) :
    imports.Pairwise fun r e => r.start ≤ e.start := by
  unfold scan Script.scan at scanned
  dsimp only at scanned
  split at scanned
  · next found =>
    split at found
    · cases found
    · cases found
      cases scanned
      exact Script.Imports.sorted_ascending _
  · cases scanned

/-- **The literals of a scanned text ascend,** where they are spans of the text and no two of them
have a byte in common. -/
theorem lies_of_scan {imports : Script.Imports} (scanned : scan path source = .ok imports)
    (apart : (literals imports).Pairwise Script.Apart)
    (inside : ∀ e ∈ literals imports, e.1 < e.2 ∧ e.2 ≤ source.utf8ByteSize) :
    Lies source (literals imports) where
  inside e mem := ⟨Nat.le_of_lt (inside e mem).1, (inside e mem).2⟩
  ascending := by
    refine Script.ascending_of_sorted ?_ apart fun e mem => (inside e mem).1
    exact List.pairwise_map.mpr ((scan_ascending scanned).filter _)

/-- **The literals of a scanned text are what they should be:** spans of the text that hold whole
characters, disjoint and ascending. -/
theorem literals_of_scan {imports : Script.Imports} (scanned : scan path source = .ok imports) :
    Lies source (literals imports) ∧ Whole source (literals imports) := by
  obtain ⟨n, gathered⟩ := Script.gathered_of_scan (scan_ok_iff.mp scanned)
  have lies := gathered.lies
  have whole := gathered.whole
  rw [List.reverse_reverse] at lies
  have among : (literals imports).Sublist (imports.map ImportRecord.span) :=
    List.filter_sublist.map ImportRecord.span
  refine ⟨lies.sublist among, fun e mem => whole e ?_⟩
  rw [List.map_reverse, List.mem_reverse]
  exact among.subset mem

/-! ### The exact splice -/

/-- Rewriting a source text is an exact splice. -/
structure ExactSplice (path : Path) (source : String) (imports : Script.Imports)
    (resolution : Resolution) (p : Project) : Prop where
  /-- The literals of a scanned text ascend, where they are spans of it that do not overlap. -/
  ascending : scan path source = .ok imports → (literals imports).Pairwise Script.Apart →
    (∀ e ∈ literals imports, e.1 < e.2 ∧ e.2 ≤ source.utf8ByteSize) →
    Lies source (literals imports)
  /-- And so they are, and hold whole characters. -/
  scanned : scan path source = .ok imports →
    Lies source (literals imports) ∧ Whole source (literals imports)
  /-- Where they ascend, the pass through the text takes no slice out of order or out of bounds. -/
  inBounds : Lies source (literals imports) →
    rewriteFrom source path resolution 0 "" p imports.requires ≠ .error .outOfOrder ∧
    rewriteFrom source path resolution 0 "" p imports.requires ≠ .error .outOfBounds
  /-- Where they hold whole characters, it takes every slice, and gives the rewritten text. -/
  onePass : Lies source (literals imports) → Whole source (literals imports) →
    rewriteFrom source path resolution 0 "" p imports.requires =
      .ok (numberRequires path source imports resolution p)
  /-- This is the text with the literals that stand for files replaced, or the first fault. -/
  rewritten : Lies source (literals imports) → Whole source (literals imports) →
    Rewritten path source imports.requires resolution p
      (numberRequires path source imports resolution p)

/-- **Numbers are put in by an exact splice.**  The text is copied between the literals that stand
for files, and behind the last one; nothing else is cut out, and no copy fails.  Where a literal has
no meaning, its fault is all that comes of it. -/
theorem numberRequires_exact (path : Path) (source : String) (imports : Script.Imports)
    (resolution : Resolution) (p : Project) : ExactSplice path source imports resolution p where
  ascending := lies_of_scan
  scanned := literals_of_scan
  inBounds lies := by
    have ahead : ∀ r ∈ imports.requires, 0 ≤ r.start := fun _ _ => Nat.zero_le _
    refine ⟨fun fails => ?_, fun fails => ?_⟩ <;>
      cases rewriteFrom_fault lies (Nat.zero_le _) ahead fails
  onePass := rewriteFrom_zero
  rewritten := rewritten_numberRequires

end HotReload.Project

namespace HotReload.Sample

/-- Two files that are required by a third one. -/
def pantry : Project where
  root := ⟨"/"⟩
  extensions := [".js"]
  disk := ⟨[(["b.js"], .file "1".toUTF8), (["c.js"], .file "2".toUTF8)]⟩

/-- Its text, whose first character has two bytes. -/
def pantryText : String := "é=require('fs');require('./b')+require('./c')"

def pantryImports : Script.Imports :=
  [⟨"fs", .require, 11, 15⟩, ⟨"./b", .require, 25, 30⟩, ⟨"./c", .require, 40, 45⟩]

/-- The text is parsed without a fault, up to its end. -/
theorem pantry_parsed :
    Script.firstFault (.ofText {} pantryText) (Script.parsed (.ofText {} pantryText)).1
      (Script.parsed (.ofText {} pantryText)).2 = none ∧
    (Script.parsed (.ofText {} pantryText)).1.records.reverse = pantryImports := by
  decide +kernel

theorem pantry_scanned : Project.scan ⟨"/a.js"⟩ pantryText = .ok pantryImports := by
  obtain ⟨sound, records⟩ := pantry_parsed
  have plain : Script.Dialect.ofPath ⟨"/a.js"⟩ = {} := by decide +kernel
  rw [Project.scan_ok_iff, plain]
  exact Script.scan_of_parsed sound records

theorem pantry_number :
    (Project.numberRequires ⟨"/a.js"⟩ pantryText pantryImports {} pantry).1.toOption =
      some "é=require('fs');require(0)+require(1)" := by decide +kernel

/-- Of three literals that are scanned, two are replaced, and the one that is built into the platform
is kept. -/
theorem pantry_spliced :
    Project.scan ⟨"/a.js"⟩ pantryText = .ok pantryImports ∧
    Script.Lies pantryText (Project.literals pantryImports) ∧
    Project.rewriteFrom pantryText ⟨"/a.js"⟩ {} 0 "" pantry pantryImports.requires =
      .ok (Project.numberRequires ⟨"/a.js"⟩ pantryText pantryImports {} pantry) ∧
    Project.Rewritten ⟨"/a.js"⟩ pantryText pantryImports.requires {} pantry
      (Project.numberRequires ⟨"/a.js"⟩ pantryText pantryImports {} pantry) ∧
    (Project.numberRequires ⟨"/a.js"⟩ pantryText pantryImports {} pantry).1.toOption =
      some "é=require('fs');require(0)+require(1)" := by
  have exact_ := Project.numberRequires_exact ⟨"/a.js"⟩ pantryText pantryImports {} pantry
  obtain ⟨lies, whole⟩ := exact_.scanned pantry_scanned
  have ascending := exact_.ascending pantry_scanned (by decide +kernel) (by decide +kernel)
  exact ⟨pantry_scanned, ascending, exact_.onePass lies whole, exact_.rewritten lies whole,
    pantry_number⟩

end HotReload.Sample
