import HotReload.Proofs.Graph.Alike
import HotReload.Proofs.Project.Sight
import HotReload.Proofs.Script.Scan
import HotReload.Proofs.Session.Convergence
import Mathlib.Data.List.Induction

/-!
# Dependencies by their first import

The files that a source imports are listed in two steps: specifiers that were met are passed over,
and so are files that are listed.  Together they list each file once, where it is first imported,
whatever the specifiers stand for.  An import that says nothing new leaves no trace, and a session
that sees it come or go keeps its graph.

* `Project.gather`: the listing, for any meaning of specifiers; `locateAll_eq`: it is the one that a
  project makes.
* `FirstAt`, `FirstImports`, `FirstFault`: what is listed, and where listing stops.
* `Restates`: an import that says nothing new; `gather_restates`.
* `Session.Reworded`: an edit that brings or takes away such an import.
-/

namespace HotReload

namespace Project

variable {find find' : Meaning} {files files' : List Path} {specifiers : List String}

/-! ### Listing files -/

/-- Lists what specifiers stand for behind the files that are there, each file once. -/
def gather (find : Meaning) (files : List Path) : List String → Except ResolveFault (List Path)
  | [] => .ok files
  | specifier :: rest =>
    match find specifier with
    | .error fault => .error fault
    | .ok none => gather find files rest
    | .ok (some file) =>
      gather find (if files.contains file then files else files ++ [file]) rest

/-- **A project lists what its specifiers stand for** as if it had looked at all of them at once. -/
theorem locateAll_eq (source : Path) (files : List Path) (p : Project) (specifiers : List String) :
    (locateAll source files p specifiers).1 = gather (p.found source) files specifiers := by
  induction specifiers generalizing files p with
  | nil => rfl
  | cons specifier rest ih =>
    have sees := (p.seesAs_resolve specifier source).found_eq source
    have here : p.found source specifier = (p.resolve specifier source).1 := rfl
    rw [locateAll, gather, here]
    generalize p.resolve specifier source = answer at sees
    obtain ⟨fault | _ | file, p₁⟩ := answer
    · rfl
    · exact (ih files p₁).trans (by rw [sees])
    · exact (ih _ p₁).trans (by rw [sees])

theorem gather_append (files : List Path) (front back : List String) :
    gather find files (front ++ back) =
      (gather find files front).bind fun files => gather find files back := by
  induction front generalizing files with
  | nil => rfl
  | cons specifier front ih =>
    rw [List.cons_append, gather, gather]
    rcases find specifier with _ | _ | file
    · rfl
    · exact ih files
    · exact ih _

/-- Only the meaning of the specifiers that are there matters. -/
theorem gather_congr (same : ∀ s ∈ specifiers, find s = find' s) (files : List Path) :
    gather find files specifiers = gather find' files specifiers := by
  induction specifiers generalizing files with
  | nil => rfl
  | cons specifier rest ih =>
    have later := ih fun s mem => same s (List.mem_cons_of_mem _ mem)
    rw [gather, gather, same specifier List.mem_cons_self]
    rcases find' specifier with _ | _ | file
    · rfl
    · exact later files
    · exact later _

/-- Files that are listed stay so. -/
theorem contains_of_gather (listed : gather find files specifiers = .ok files') {q : Path}
    (there : files.contains q = true) : files'.contains q = true := by
  induction specifiers generalizing files with
  | nil =>
    cases listed
    exact there
  | cons specifier rest ih =>
    rw [gather] at listed
    generalize find specifier = target at listed
    obtain _ | _ | file := target
    · cases listed
    · exact ih listed there
    · refine ih listed ?_
      split
      · exact there
      · rw [List.contains_append, there, Bool.true_or]

/-- Each specifier that was met has a meaning, and its file is listed. -/
theorem gather_met (listed : gather find files specifiers = .ok files') {s : String}
    (met : s ∈ specifiers) :
    ∃ target, find s = .ok target ∧ ∀ file, target = some file → files'.contains file = true := by
  induction specifiers generalizing files with
  | nil => cases met
  | cons specifier rest ih =>
    rw [gather] at listed
    generalize means : find specifier = target at listed
    obtain _ | target := target
    · cases listed
    rcases List.mem_cons.mp met with rfl | later
    · refine ⟨target, means, fun file file_is => ?_⟩
      subst file_is
      refine contains_of_gather listed ?_
      split
      · next there => exact there
      · rw [List.contains_append, List.contains_cons, BEq.rfl, Bool.true_or, Bool.or_true]
    · cases target with
      | none => exact ih listed later
      | some file => exact ih listed later

/-! ### Imports that say nothing new -/

/-- A specifier stands for a file, however the file is spelled. -/
def Stands (find : Meaning) (s : String) (file : Path) : Prop :=
  ∃ found, find s = .ok (some found) ∧ (found == file) = true

/-- Behind others, a specifier says nothing new: it is one of them, or stands for no file of the
program, or for a file that one of them stands for. -/
inductive Redundant (find : Meaning) (front : List String) (s : String) : Prop where
  | again (met : s ∈ front)
  | builtIn (outside : find s = .ok none)
  | known {file : Path} {t : String} (means : find s = .ok (some file)) (met : t ∈ front)
      (stands : Stands find t file)

/-- Some specifiers and one more, which says nothing new where it stands. -/
inductive Restates (find : Meaning) : List String → List String → Prop where
  | intro {front back : List String} {s : String} (redundant : Redundant find front s) :
      Restates find (front ++ s :: back) (front ++ back)

/-- Behind files that are listed, nothing new leaves no trace. -/
theorem gather_redundant {front : List String} {s : String}
    (redundant : Redundant find front s) (listed : gather find files front = .ok files')
    (back : List String) : gather find files' (s :: back) = gather find files' back := by
  have known : ∃ target, find s = .ok target ∧
      ∀ file, target = some file → files'.contains file = true := by
    cases redundant with
    | again met => exact gather_met listed met
    | builtIn outside => exact ⟨none, outside, fun file is => by cases is⟩
    | @known file t means met stands =>
      obtain ⟨found, there, same⟩ := stands
      obtain ⟨target, means', known⟩ := gather_met listed met
      rw [there] at means'
      cases means'
      refine ⟨some file, means, fun file' is => ?_⟩
      cases is
      rw [← Path.contains_congr files' same]
      exact known found rfl
  obtain ⟨target, means, there⟩ := known
  rw [gather, means]
  cases target with
  | none => rfl
  | some file => simp only [there file rfl, if_true]

/-- **What says nothing new leaves the list as it is.** -/
theorem gather_restates {more fewer : List String} (restates : Restates find more fewer)
    (files : List Path) : gather find files more = gather find files fewer := by
  obtain ⟨redundant⟩ := restates
  rename_i front back s
  rw [gather_append, gather_append]
  cases listed : gather find files front with
  | error fault => rfl
  | ok files' => exact gather_redundant redundant listed back

/-! ### First imports -/

/-- The specifier at a place is the first one that stands for a file, and spells it so. -/
structure FirstAt (find : Meaning) (specifiers : List String) (file : Path) (i : Nat) : Prop where
  here : ∃ s, specifiers[i]? = some s ∧ find s = .ok (some file)
  earlier : ∀ s ∈ specifiers.take i, ¬ Stands find s file

/-- Files are listed by the first import that stands for each of them. -/
structure FirstImports (find : Meaning) (specifiers : List String) (files : List Path) : Prop where
  /-- Every specifier has a meaning. -/
  meant : ∀ s ∈ specifiers, ∃ target, find s = .ok target
  complete : ∀ s ∈ specifiers, ∀ file, find s = .ok (some file) → files.contains file = true
  sound : ∀ file ∈ files, ∃ i, FirstAt find specifiers file i
  ordered : files.Pairwise fun p q =>
    ∃ i j, i < j ∧ FirstAt find specifiers p i ∧ FirstAt find specifiers q j
  distinct : (Path.meanings files).Nodup

/-- The first specifier without a meaning, and its fault. -/
def FirstFault (find : Meaning) (specifiers : List String) (fault : ResolveFault) : Prop :=
  ∃ front s back, specifiers = front ++ s :: back ∧ (∀ t ∈ front, ∃ target, find t = .ok target) ∧
    find s = .error fault

/-- What becomes of specifiers: a list of files by their first import, or the first fault. -/
def ByFirstImport (find : Meaning) (specifiers : List String) :
    Except ResolveFault (List Path) → Prop
  | .ok files => FirstImports find specifiers files
  | .error fault => FirstFault find specifiers fault

namespace FirstAt

variable {p q : Path} {i j : Nat}

theorem lt_length (h : FirstAt find specifiers p i) : i < specifiers.length := by
  obtain ⟨s, there, -⟩ := h.here
  exact (List.getElem?_eq_some_iff.mp there).1

/-- What is first stays first when more is imported. -/
theorem append (h : FirstAt find specifiers p i) (more : List String) :
    FirstAt find (specifiers ++ more) p i where
  here := by
    rw [List.getElem?_append_left h.lt_length]
    exact h.here
  earlier := by
    rw [List.take_append_of_le_length (Nat.le_of_lt h.lt_length)]
    exact h.earlier

/-- Two places, two files. -/
theorem ne_of_lt (h : FirstAt find specifiers p i) (t : FirstAt find specifiers q j) (lt : i < j) :
    (p == q) = false := by
  refine Bool.eq_false_iff.mpr fun same => ?_
  obtain ⟨s, there, means⟩ := h.here
  refine t.earlier s (List.mem_of_getElem? (i := i) ?_) ⟨p, means, same⟩
  rw [List.getElem?_take_of_lt lt, there]

end FirstAt

/-- Files at ascending places are distinct. -/
theorem distinct_of_ordered
    (ordered : files.Pairwise fun p q =>
      ∃ i j, i < j ∧ FirstAt find specifiers p i ∧ FirstAt find specifiers q j) :
    (Path.meanings files).Nodup := by
  refine List.pairwise_map.mpr (ordered.imp fun first same => ?_)
  obtain ⟨i, j, lt, hp, hq⟩ := first
  exact Bool.eq_false_iff.mp (hp.ne_of_lt hq lt) (Path.beq_iff.mpr same)

namespace FirstImports

theorem nil (find : Meaning) : FirstImports find [] [] where
  meant _ mem := absurd mem List.not_mem_nil
  complete _ mem := absurd mem List.not_mem_nil
  sound _ mem := absurd mem List.not_mem_nil
  ordered := .nil
  distinct := .nil

/-- The list is as it was where an import says nothing new. -/
theorem skip (h : FirstImports find specifiers files) {s : String} {target : Option Path}
    (means : find s = .ok target)
    (known : ∀ file, target = some file → files.contains file = true) :
    FirstImports find (specifiers ++ [s]) files where
  meant t mem := by
    rcases List.mem_append.mp mem with before | last
    · exact h.meant t before
    · cases List.mem_singleton.mp last
      exact ⟨target, means⟩
  complete t mem file stands := by
    rcases List.mem_append.mp mem with before | last
    · exact h.complete t before file stands
    · cases List.mem_singleton.mp last
      rw [means] at stands
      exact known file (Except.ok.inj stands)
  sound file mem := by
    obtain ⟨i, first⟩ := h.sound file mem
    exact ⟨i, first.append [s]⟩
  ordered := h.ordered.imp fun ⟨i, j, lt, hp, hq⟩ => ⟨i, j, lt, hp.append [s], hq.append [s]⟩
  distinct := h.distinct

/-- A file that is new goes to the end. -/
theorem snoc (h : FirstImports find specifiers files) {s : String} {file : Path}
    (means : find s = .ok (some file)) (new : files.contains file = false) :
    FirstImports find (specifiers ++ [s]) (files ++ [file]) := by
  have last : FirstAt find (specifiers ++ [s]) file specifiers.length := by
    refine ⟨⟨s, List.getElem?_concat_length, means⟩, ?_⟩
    rw [List.take_left]
    intro t mem stands
    obtain ⟨found, there, same⟩ := stands
    have listed := h.complete t mem found there
    rw [Path.contains_congr files same, new] at listed
    cases listed
  have ordered : (files ++ [file]).Pairwise fun p q => ∃ i j, i < j ∧
      FirstAt find (specifiers ++ [s]) p i ∧ FirstAt find (specifiers ++ [s]) q j := by
    refine List.pairwise_append.mpr ⟨?_, List.pairwise_singleton _ _, fun p mem q is => ?_⟩
    · exact h.ordered.imp fun ⟨i, j, lt, hp, hq⟩ => ⟨i, j, lt, hp.append [s], hq.append [s]⟩
    · cases List.mem_singleton.mp is
      obtain ⟨i, first⟩ := h.sound p mem
      exact ⟨i, _, first.lt_length, first.append [s], last⟩
  refine ⟨fun t mem => ?_, fun t mem other stands => ?_, fun p mem => ?_, ordered,
    distinct_of_ordered ordered⟩
  · rcases List.mem_append.mp mem with before | here
    · exact h.meant t before
    · cases List.mem_singleton.mp here
      exact ⟨some file, means⟩
  · rw [List.contains_append, Bool.or_eq_true]
    rcases List.mem_append.mp mem with before | here
    · exact .inl (h.complete t before other stands)
    · cases List.mem_singleton.mp here
      rw [means] at stands
      cases stands
      exact .inr (by simp)
  · rcases List.mem_append.mp mem with before | here
    · obtain ⟨i, first⟩ := h.sound p before
      exact ⟨i, first.append [s]⟩
    · cases List.mem_singleton.mp here
      exact ⟨_, last⟩

end FirstImports

theorem FirstFault.append {fault : ResolveFault} (h : FirstFault find specifiers fault)
    (more : List String) : FirstFault find (specifiers ++ more) fault := by
  obtain ⟨front, s, back, rfl, meant, fails⟩ := h
  exact ⟨front, s, back ++ more, by simp, meant, fails⟩

/-- **The listing is by first imports,** whatever the specifiers stand for. -/
theorem gather_byFirstImport (find : Meaning) (specifiers : List String) :
    ByFirstImport find specifiers (gather find [] specifiers) := by
  induction specifiers using List.reverseRecOn with
  | nil => exact FirstImports.nil find
  | append_singleton specifiers s ih =>
    rw [gather_append]
    generalize gather find [] specifiers = answer at ih
    obtain fault | files := answer
    · exact FirstFault.append ih [s]
    · have h : FirstImports find specifiers files := ih
      simp only [Except.bind, gather]
      cases means : find s with
      | error fault => exact ⟨specifiers, s, [], rfl, h.meant, means⟩
      | ok target =>
        cases target with
        | none => exact h.skip means fun _ is => by cases is
        | some file =>
          simp only
          split
          · next there =>
            refine h.skip means fun other is => ?_
            cases is
            exact there
          · next new => exact h.snoc means (Bool.not_eq_true _ ▸ new)

/-! ### Specifiers, each once -/

/-- The specifiers of records, by their place. -/
abbrev written (records : Script.Imports) : List String := records.map (·.specifier)

theorem specifiers_concat (records : Script.Imports) (r : Script.ImportRecord) :
    Script.Imports.specifiers (records ++ [r]) =
      if records.specifiers.contains r.specifier then records.specifiers
      else records.specifiers ++ [r.specifier] := by
  rw [Script.Imports.specifiers, List.foldl_append]
  rfl

/-- **To pass over specifiers that were met makes no difference:** the two steps are one. -/
theorem gather_specifiers (find : Meaning) (records : Script.Imports) :
    gather find [] records.specifiers = gather find [] (written records) := by
  induction records using List.reverseRecOn with
  | nil => rfl
  | append_singleton records r ih =>
    rw [specifiers_concat, written, List.map_append, gather_append, ← ih]
    split
    · next met =>
      cases listed : gather find [] (Script.Imports.specifiers records) with
      | error fault => rfl
      | ok files =>
        exact (gather_redundant (.again (List.contains_iff_mem.mp met)) listed []).symm
    · rw [gather_append]
      rfl

/-- What a project answers for a source file: its text is read and scanned, and what was seen of the
disk before is forgotten. -/
theorem dependencies_eq {lookup : Lookup} {p : Project} {records : Script.Imports}
    (code : kindOf lookup.file = .source)
    (scanned : (p.readText lookup.file).bind (scan lookup.file) = .ok records) :
    (dependencies lookup p).1 = gather (p.forgotten.found lookup.file) [] (written records) := by
  simp only [dependencies, code, ne_eq, not_true_eq_false, if_false, scanned]
  rw [locateAll_eq, gather_specifiers]
  rfl

/-- The list that is made of records is by first imports, and a record that says nothing new leaves
no trace in it. -/
structure ListsFirst (find : Meaning) (list : Script.Imports → Except ResolveFault (List Path)) :
    Prop where
  byFirst : ∀ records, ByFirstImport find (written records) (list records)
  traceless : ∀ more fewer, Restates find (written more) (written fewer) → list more = list fewer

theorem gather_listsFirst (find : Meaning) :
    ListsFirst find fun records => gather find [] records.specifiers where
  byFirst records := by
    rw [gather_specifiers]
    exact gather_byFirstImport find _
  traceless more fewer restates := by
    rw [gather_specifiers, gather_specifiers]
    exact gather_restates restates []

theorem locateAll_listsFirst (p : Project) (source : Path) :
    ListsFirst (p.found source) fun records =>
      (locateAll source [] p records.specifiers).1 := by
  simp only [locateAll_eq]
  exact gather_listsFirst (p.found source)

end Project

/-! ### What an edit means for a session -/

/-- **The shape is the same:** where the dependencies of the changed file are the cached ones, it is
rebuilt alone and the session keeps its graph, whatever the resolver. -/
theorem Session.react_of_cached {σ : Type} {r : Resolver σ} {s : Session} {change : Change} {st : σ}
    {m : Module} {cached current : List Path} (modified : change.isDeletion = false)
    (module : s.graph.moduleAt? change.path = some m) (source : m.kind = .source)
    (listed : s.graph.dependencies? change.path = some cached)
    (answer : (r.dependencies ⟨s.platform, change.path, s.entry⟩ st).1 = .ok current)
    (same : (current == cached) = true) :
    s.react r change st =
      (.ok (.rebuild [m]), s, (r.dependencies ⟨s.platform, change.path, s.entry⟩ st).2) := by
  have run : (Progress.start s change).run r s change (r.bound st + 1) st =
      (some (.ok (s.graph, .rebuild [m])),
        (r.dependencies ⟨s.platform, change.path, s.entry⟩ st).2) := by
    rw [Progress.start_source modified module source listed, Progress.run]
    simp only [Probe.next, Query.answer, answer, listed, Option.getD_some, same, if_true,
      Progress.run_settled]
  rw [Session.react, run]

/-- A source file of a session's program is edited: its text has one import more than before, or
one less, which says nothing new.  The session has the dependencies that it had, and the imports that
it had stand for what they stood for. -/
structure Session.Reworded (s : Session) (change : Change) (m : Module) (old new : Project)
    (lookup : Lookup) (before after : Script.Imports) : Prop where
  module : s.graph.moduleAt? change.path = some m
  source : m.kind = .source
  modified : change.isDeletion = false
  /-- The session has the list that the project gave for the text before. -/
  cached : ∃ files, s.graph.dependencies? change.path = some files ∧
    (Project.dependencies lookup old).1 = .ok files
  code : Project.kindOf lookup.file = .source ∧ Project.kindOf change.path = .source
  was : (old.readText lookup.file).bind (Project.scan lookup.file) = .ok before
  is : (new.readText change.path).bind (Project.scan change.path) = .ok after
  alike : ∀ specifier ∈ Project.written before,
    old.forgotten.found lookup.file specifier = new.forgotten.found change.path specifier
  nothing : Project.Restates (new.forgotten.found change.path) (Project.written after)
      (Project.written before) ∨
    Project.Restates (new.forgotten.found change.path) (Project.written before)
      (Project.written after)

/-- **An edit that says nothing new keeps the shape.** -/
theorem Session.Reworded.react {s : Session} {change : Change} {m : Module} {old new : Project}
    {lookup : Lookup} {before after : Script.Imports}
    (h : s.Reworded change m old new lookup before after) :
    s.react Project.resolver change new = (.ok (.rebuild [m]), s,
      (Project.dependencies ⟨s.platform, change.path, s.entry⟩ new).2) := by
  obtain ⟨files, listed, given⟩ := h.cached
  rw [Project.dependencies_eq h.code.1 h.was] at given
  have same : Project.gather (new.forgotten.found change.path) [] (Project.written after) =
      Project.gather (new.forgotten.found change.path) [] (Project.written before) :=
    h.nothing.elim (Project.gather_restates · []) fun fewer => (Project.gather_restates fewer []).symm
  have current : (Project.dependencies ⟨s.platform, change.path, s.entry⟩ new).1 = .ok files :=
    calc (Project.dependencies ⟨s.platform, change.path, s.entry⟩ new).1
        = Project.gather (new.forgotten.found change.path) [] (Project.written after) :=
          Project.dependencies_eq h.code.2 h.is
      _ = Project.gather (old.forgotten.found lookup.file) [] (Project.written before) := by
          rw [same, Project.gather_congr h.alike]
      _ = .ok files := given
  exact react_of_cached (r := Project.resolver) h.modified h.module h.source listed current
    (Path.beq_iff_meanings.mpr rfl)

/-- **Only first imports count.**  Whatever specifiers stand for, the list of dependencies that is
made of records has each file once, in the order of the first record that stands for it, and nothing
else; where a specifier has no meaning, it is the first such fault.  A record that says nothing new
leaves no trace in the list.  A project makes its lists so, with the meaning that specifiers have
for it, and a session that sees such a record come or go rebuilds the file alone and keeps its
graph. -/
theorem Project.lists_byFirstImport (find : Meaning) (p : Project) (source : Path) :
    ListsFirst find (fun records => gather find [] records.specifiers) ∧
    ListsFirst (p.found source)
      (fun records => (locateAll source [] p records.specifiers).1) ∧
    ∀ (s : Session) (change : Change) (m : Module) (new : Project) (lookup : Lookup)
      (before after : Script.Imports), s.Reworded change m p new lookup before after →
      s.react resolver change new =
        (.ok (.rebuild [m]), s, (dependencies ⟨s.platform, change.path, s.entry⟩ new).2) :=
  ⟨gather_listsFirst find, locateAll_listsFirst p source, fun _ _ _ _ _ _ _ h => h.react⟩

namespace Sample

/-- A project of two files, of which one is empty. -/
def twofold (text : String) : Project where
  root := ⟨"/"⟩
  extensions := [".js"]
  disk := ⟨[(["a.js"], .file text.toUTF8), (["b.js"], .file "".toUTF8)]⟩

/-- A text that imports the empty file. -/
def importsOnce : String := "require('./b')"

/-- A text that imports it again, under another name. -/
def importsTwice : String := "require('./b');require('./b.js')"

def recordsOnce : Script.Imports := [⟨"./b", .require, 8, 13⟩]

def recordsTwice : Script.Imports := [⟨"./b", .require, 8, 13⟩, ⟨"./b.js", .require, 23, 31⟩]

/-- A session that runs the text that imports the file twice. -/
def twofoldSession : Session where
  connection := 1
  platform := "ios"
  entry := ⟨"/a.js"⟩
  graph := ⟨[⟨0, ⟨"/a.js"⟩, .source⟩, ⟨1, ⟨"/b.js"⟩, .source⟩],
    [(⟨"/a.js"⟩, [⟨"/b.js"⟩]), (⟨"/b.js"⟩, [])]⟩

theorem twofold_rewritten (text text' : String) :
    (twofold text).disk.Rewritten ["a.js"] (twofold text').disk where
  others place other := by
    have elsewhere : (["a.js"] == place) = false := beq_eq_false_iff_ne.mpr (Ne.symm other)
    simp only [Disk.entry?, Assoc.get?, twofold, List.find?_cons, elsewhere]
  before := ⟨_, rfl⟩
  after := ⟨_, rfl⟩

/-- Both texts are parsed without a fault. -/
theorem twofold_parsed :
    (Script.firstFault (.ofText {} importsOnce) (Script.parsed (.ofText {} importsOnce)).1
        (Script.parsed (.ofText {} importsOnce)).2 = none ∧
      (Script.parsed (.ofText {} importsOnce)).1.records.reverse = recordsOnce) ∧
    (Script.firstFault (.ofText {} importsTwice) (Script.parsed (.ofText {} importsTwice)).1
        (Script.parsed (.ofText {} importsTwice)).2 = none ∧
      (Script.parsed (.ofText {} importsTwice)).1.records.reverse = recordsTwice) := by
  decide +kernel

theorem twofold_scanned :
    Project.scan ⟨"/a.js"⟩ importsOnce = .ok recordsOnce ∧
      Project.scan ⟨"/a.js"⟩ importsTwice = .ok recordsTwice := by
  obtain ⟨once, twice⟩ := twofold_parsed
  have plain : Script.Dialect.ofPath ⟨"/a.js"⟩ = {} := by decide +kernel
  rw [Project.scan_ok_iff, Project.scan_ok_iff, plain]
  exact ⟨Script.scan_of_parsed once.1 once.2, Script.scan_of_parsed twice.1 twice.2⟩

/-- Both texts are read from the disk. -/
theorem twofold_read :
    (twofold importsOnce).readText ⟨"/a.js"⟩ = .ok importsOnce ∧
      (twofold importsTwice).readText ⟨"/a.js"⟩ = .ok importsTwice := by
  have once : ((twofold importsOnce).readText ⟨"/a.js"⟩).toOption = some importsOnce := by
    decide +kernel
  have twice : ((twofold importsTwice).readText ⟨"/a.js"⟩).toOption = some importsTwice := by
    decide +kernel
  rw [eq_ok_getD (Option.isSome_of_eq_some once) "", once,
    eq_ok_getD (Option.isSome_of_eq_some twice) "", twice]
  exact ⟨rfl, rfl⟩

theorem found_of_text {answer : Except ResolveFault (Option Path)} {text : String}
    (h : answer.toOption.map (·.map Path.text) = some (some text)) : answer = .ok (some ⟨text⟩) := by
  obtain fault | _ | file := answer <;> cases h
  rfl

/-- Both names stand for the empty file. -/
theorem twofold_found :
    (twofold importsOnce).forgotten.found ⟨"/a.js"⟩ "./b" = .ok (some ⟨"/b.js"⟩) ∧
      (twofold importsOnce).forgotten.found ⟨"/a.js"⟩ "./b.js" = .ok (some ⟨"/b.js"⟩) :=
  ⟨found_of_text (by decide +kernel), found_of_text (by decide +kernel)⟩

/-- Behind the first import, the second one says nothing new. -/
theorem twofold_restates :
    Project.Restates ((twofold importsOnce).forgotten.found ⟨"/a.js"⟩)
      (Project.written recordsTwice) (Project.written recordsOnce) := by
  obtain ⟨first, second⟩ := twofold_found
  have redundant : Project.Redundant ((twofold importsOnce).forgotten.found ⟨"/a.js"⟩) ["./b"]
      "./b.js" :=
    .known second List.mem_cons_self ⟨⟨"/b.js"⟩, first, BEq.rfl⟩
  exact (.intro redundant : Project.Restates _ (["./b"] ++ ["./b.js"]) (["./b"] ++ []))

/-- The second import is taken out. -/
theorem twofold_reworded :
    twofoldSession.Reworded ⟨.modified, ⟨"/a.js"⟩⟩ ⟨0, ⟨"/a.js"⟩, .source⟩
      (twofold importsTwice) (twofold importsOnce) ⟨"ios", ⟨"/a.js"⟩, ⟨"/a.js"⟩⟩
      recordsTwice recordsOnce := by
  obtain ⟨once, twice⟩ := twofold_scanned
  obtain ⟨read, read'⟩ := twofold_read
  have code : Project.kindOf ⟨"/a.js"⟩ = .source := by decide +kernel
  have was : ((twofold importsTwice).readText ⟨"/a.js"⟩).bind (Project.scan ⟨"/a.js"⟩) =
      .ok recordsTwice := by rw [read']; exact twice
  have sees : (twofold importsTwice).forgotten.SeesAs (twofold importsOnce).forgotten :=
    .of_rewritten rfl rfl (twofold_rewritten _ _) (by decide)
  have listed : Project.gather ((twofold importsOnce).forgotten.found ⟨"/a.js"⟩) []
      (Project.written recordsOnce) = .ok [⟨"/b.js"⟩] := by
    simp [recordsOnce, Project.gather, twofold_found.1]
  exact
    { module := rfl
      source := rfl
      modified := rfl
      cached := ⟨[⟨"/b.js"⟩], rfl, by
        rw [Project.dependencies_eq code was, sees.found_eq,
          Project.gather_restates twofold_restates, listed]⟩
      code := ⟨code, code⟩
      was
      is := by rw [read]; exact once
      alike := fun specifier _ => congrFun (sees.found_eq _) specifier
      nothing := .inr twofold_restates }

/-- A file is imported twice, under two names.  The second import leaves no trace in the list of
dependencies, and a session keeps its graph when it is taken out. -/
theorem twofold_rebuilt :
    (Project.locateAll ⟨"/a.js"⟩ [] (twofold importsOnce).forgotten recordsTwice.specifiers).1 =
      (Project.locateAll ⟨"/a.js"⟩ [] (twofold importsOnce).forgotten recordsOnce.specifiers).1 ∧
    twofoldSession.react Project.resolver ⟨.modified, ⟨"/a.js"⟩⟩ (twofold importsOnce) =
      (.ok (.rebuild [⟨0, ⟨"/a.js"⟩, .source⟩]), twofoldSession,
        (Project.dependencies ⟨"ios", ⟨"/a.js"⟩, ⟨"/a.js"⟩⟩ (twofold importsOnce)).2) := by
  have lists := Project.lists_byFirstImport (fun _ => .ok none) (twofold importsOnce).forgotten
    ⟨"/a.js"⟩
  have reacts := Project.lists_byFirstImport (fun _ => .ok none) (twofold importsTwice) ⟨"/a.js"⟩
  exact ⟨lists.2.1.traceless _ _ twofold_restates, reacts.2.2 _ _ _ _ _ _ _ twofold_reworded⟩

end Sample

end HotReload
