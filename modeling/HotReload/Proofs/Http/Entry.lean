import HotReload.Http.Handshake
import HotReload.Proofs.Path.Clean

/-!
# Where the entry file of a request lies

A name leads from the root of the project to the normal form of what the root and the name say
together, and it is refused exactly where that does not lie in the root.  What is answered holds
neither `.` nor `..`.  The source of a bundle is named only after this was looked at: its new
extension changes the last component alone, so it lies in the root as well, unless the root itself
is what was named.

* `Path.body_withExtension`: a new extension changes the last component alone.
* `Http.entryFile?_located`: where an entry file lies.
* `Sample.bundle_beside_root`: a root that is named like a bundle, and an entry file beside it.
-/

namespace HotReload

namespace Path

/-! ### Extensions -/

/-- A file name is what stands before its last dot, the dot and the extension. -/
theorem splitName_extension {name extension : String} (h : (splitName name).2 = some extension) :
    name = (splitName name).1 ++ "." ++ extension ∧ (splitName name).1 ≠ "" := by
  have whole := List.takeWhile_append_dropWhile (p := (· ≠ '.')) (l := name.toList.reverse)
  have first := List.head?_dropWhile_not (· ≠ '.') name.toList.reverse
  simp only [splitName] at h ⊢
  generalize name.toList.reverse.takeWhile (· ≠ '.') = after at *
  generalize name.toList.reverse.dropWhile (· ≠ '.') = rest at *
  -- the name read from its end: the extension, the dot, and what stands before it
  rcases rest with _ | ⟨dot, _ | ⟨c, stem⟩⟩
  · cases h
  · cases h
  · obtain rfl : dot = '.' := by simpa using first
    obtain rfl := Option.some.inj h
    refine ⟨String.toList_inj.mp ?_, fun none => ?_⟩
    · rw [← List.reverse_reverse name.toList, ← whole]
      simp
    · have := congrArg String.toList none
      simp at this

theorem extension?_congr {p q : Path} (h : p.components = q.components) :
    p.extension? = q.extension? := by
  rw [extension?, extension?, fileName?, fileName?, h]

/-- A path with an extension ends with a name. -/
theorem last_of_extension? {p : Path} {extension : String} (absolute : p.isAbsolute = true)
    (h : p.extension? = some extension) :
    ∃ cs name, p.body = cs ++ [.normal name] ∧ p.fileName? = some name ∧
      (splitName name).2 = some extension := by
  obtain ⟨name, last, split⟩ := Option.bind_eq_some_iff.mp h
  have ends : p.components.getLast? = some (.normal name) := by
    unfold fileName? at last
    split at last
    · next there => rw [there, Option.some.inj last]
    · cases last
  rw [components_of_absolute absolute] at ends
  obtain ⟨front, whole⟩ := List.getLast?_eq_some_iff.mp ends
  cases front with
  | nil => cases (List.cons.inj whole).1
  | cons c cs => exact ⟨cs, name, (List.cons.inj whole).2, last, split⟩

/-- A name with an extension in place of another one is a name. -/
theorem spelled_renamed {name extension new : String} (named : Component.Spelled (.normal name))
    (h : (splitName name).2 = some extension) (fresh : new ≠ "") (plain : '/' ∉ new.toList) :
    Component.Spelled (.normal ((splitName name).1 ++ "." ++ new)) := by
  obtain ⟨whole, stem⟩ := splitName_extension h
  have clear := named.plain
  simp only [Component.text] at clear
  generalize (splitName name).1 = front at whole stem ⊢
  have long : 3 ≤ (front ++ "." ++ new).length := by
    have one : 0 < front.length :=
      Nat.pos_of_ne_zero fun zero => stem (String.length_eq_zero_iff.mp zero)
    have two : 0 < new.length :=
      Nat.pos_of_ne_zero fun zero => fresh (String.length_eq_zero_iff.mp zero)
    have dot : ".".length = 1 := rfl
    simp only [String.length_append, dot]
    omega
  have other (short : String) (few : short.length < 3) : front ++ "." ++ new ≠ short := by
    intro same
    rw [same] at long
    omega
  refine ⟨?_, ?_⟩
  · simp [Component.ofPiece?, Component.text, other "" (by decide), other "." (by decide),
      other ".." (by decide)]
  · rw [whole] at clear
    simp only [String.toList_append, List.mem_append, not_or] at clear
    simp only [Component.text, String.toList_append, List.mem_append, not_or]
    exact ⟨clear.1, plain⟩

/-- **A new extension** changes the last component alone. -/
theorem body_withExtension {p : Path} {cs : List Component} {name extension new : String}
    (absolute : p.isAbsolute = true) (last : p.body = cs ++ [.normal name])
    (file : p.fileName? = some name) (h : (splitName name).2 = some extension)
    (fresh : new ≠ "") (plain : '/' ∉ new.toList) :
    (p.withExtension new).isAbsolute = true ∧
      (p.withExtension new).body = cs ++ [.normal ((splitName name).1 ++ "." ++ new)] := by
  have named : Component.Spelled (.normal name) := spelled_of_mem_body (p := p) (by simp [last])
  obtain ⟨base, parent, absolute', rest⟩ := body_parent? absolute last
  have joined := body_join_text absolute' (spelled_renamed named h fresh plain)
  simp only [withExtension, file, parent]
  rwa [rest] at joined

end Path

namespace Http

open HotReload.Path HotReload.Path.Component

/-- The file that a name leads to has the normal form of what the root and the name say together. -/
theorem namedFile_normalizes {root : Path} (absolute : root.isAbsolute = true) (name : String) :
    ∃ names, (namedFile root name).components = .root :: names ∧ (∀ c ∈ names, c.IsName) ∧
      Normalizes (root.components ++ body ⟨name⟩) (namedFile root name).components := by
  let rest : Path := ⟨String.ofList (name.toList.dropWhile (· = '/'))⟩
  have relative : rest.isAbsolute = false := by
    have first := List.head?_dropWhile_not (· = '/') name.toList
    cases h : rest.isAbsolute with
    | false => rfl
    | true =>
      obtain ⟨cs, front⟩ := isAbsolute_iff.mp h
      rw [String.toList_ofList] at front
      simp [front] at first
  have same : rest.body = body ⟨name⟩ := by
    rw [body_dropSlashes, String.ofList_toList]
  obtain ⟨absolute', joined⟩ := body_join absolute relative
  obtain ⟨names, whole, named, normal⟩ := components_clean absolute'
  rw [components_of_absolute absolute', joined, same] at normal
  rw [components_of_absolute absolute, List.cons_append]
  exact ⟨names, whole, named, normal⟩

/-- The source of a bundle has the bundle's components, but for the extension of the last one. -/
theorem source_of_bundle {file : Path} {names : List Component}
    (whole : file.components = .root :: names) (named : ∀ c ∈ names, c.IsName)
    (bundle : file.extension? = some "bundle") :
    ∃ cs stem, file.components = .root :: cs ++ [.normal (stem ++ ".bundle")] ∧
      (file.withExtension "js").components = .root :: cs ++ [.normal (stem ++ ".js")] ∧
      ∀ c ∈ cs, c.IsName := by
  obtain ⟨absolute, rfl⟩ := isAbsolute_of_components whole
  obtain ⟨cs, name, last, there, split⟩ := last_of_extension? absolute bundle
  have renamed := body_withExtension absolute last there split (by decide : "js" ≠ "") (by decide)
  obtain ⟨spelt, -⟩ := splitName_extension split
  generalize (splitName name).1 = stem at renamed spelt
  rw [String.append_assoc] at renamed spelt
  refine ⟨cs, stem, ?_, ?_, fun c mem => named c (last ▸ List.mem_append_left _ mem)⟩
  · rw [whole, last, spelt]
    rfl
  · rw [components_of_absolute renamed.1, renamed.2]
    rfl

/-- What a name is answered with, where it is not refused. -/
theorem entryFile?_cases {root file : Path} {name : String}
    (h : entryFile? root name = some file) :
    (namedFile root name).startsWith root = true ∧
      ((namedFile root name).extension? ≠ some "bundle" ∧ namedFile root name = file ∨
        (namedFile root name).extension? = some "bundle" ∧
          (namedFile root name).withExtension "js" = file) := by
  simp only [entryFile?] at h
  split at h
  · cases h
  · next inside =>
    refine ⟨by simpa using inside, ?_⟩
    split at h
    · next bundle => exact .inr ⟨bundle, Option.some.inj h⟩
    · next plain => exact .inl ⟨plain, Option.some.inj h⟩

theorem not_mem_of_names {cs : List Component} (named : ∀ c ∈ cs, c.IsName) :
    .current ∉ .root :: cs ∧ .parent ∉ .root :: cs := by
  refine ⟨fun mem => ?_, fun mem => ?_⟩ <;>
  · rcases List.mem_cons.mp mem with same | mem
    · cases same
    · obtain ⟨⟨name, same⟩, -⟩ := named _ mem
      cases same

/-- With another last component a path lies where it lay before, unless it was the base itself. -/
theorem renamed_inside {base cs : List Component} {old new : Component}
    (inside : base <+: cs ++ [old]) (renamed : old ≠ new) :
    base <+: cs ++ [new] ↔ cs ++ [old] ≠ base := by
  rcases List.prefix_concat_iff.mp inside with rfl | shorter
  · refine iff_of_false (fun h => renamed ?_) (not_not.mpr rfl)
    have same := h.eq_of_length (by simp)
    exact List.singleton_inj.mp (List.append_cancel_left same)
  · refine iff_of_true (shorter.trans (List.prefix_append _ _)) fun equal => ?_
    have := shorter.length_le
    rw [← equal, List.length_append, List.length_singleton] at this
    omega

/-- **Where an entry file lies.**  A name leads to the normal form of what the root and the name say
together.  It is refused exactly where this does not lie in the root.  What is answered is this, or
the source in place of the bundle; it holds neither `.` nor `..`, and it lies in the root unless the
name leads to the root itself and the root is named like a bundle. -/
theorem entryFile?_located {root : Path} (absolute : root.isAbsolute = true) (name : String) :
    ∃ normal, Normalizes (root.components ++ body ⟨name⟩) normal ∧
      (∀ other, Normalizes (root.components ++ body ⟨name⟩) other → other = normal) ∧
      (entryFile? root name = none ↔ ¬ root.components <+: normal) ∧
      ∀ file, entryFile? root name = some file →
        (file.components = normal ∨
          ∃ cs stem, normal = cs ++ [.normal (stem ++ ".bundle")] ∧
            file.components = cs ++ [.normal (stem ++ ".js")]) ∧
        .current ∉ file.components ∧ .parent ∉ file.components ∧
        (root.components <+: file.components ↔
          ¬ (normal = root.components ∧ root.extension? = some "bundle")) := by
  obtain ⟨names, whole, named, normal⟩ := namedFile_normalizes absolute name
  have inside : (namedFile root name).startsWith root = true ↔
      root.components <+: (namedFile root name).components := List.isPrefixOf_iff_prefix
  refine ⟨_, normal, fun other h => ?_, ?_, fun file answered => ?_⟩
  · rw [normalizes_iff.mp h, normalizes_iff.mp normal]
  · rw [← inside, entryFile?]
    cases (namedFile root name).startsWith root with
    | false => simp
    | true =>
      simp only [Bool.not_true, Bool.false_eq_true, if_false]
      split <;> simp
  · obtain ⟨within, ⟨plain, rfl⟩ | ⟨bundle, rfl⟩⟩ := entryFile?_cases answered
    · obtain ⟨up, out⟩ := not_mem_of_names named
      rw [← whole] at up out
      refine ⟨.inl rfl, up, out, fun _ ⟨equal, bundle⟩ => plain ?_, fun _ => inside.mp within⟩
      rwa [extension?_congr equal]
    · obtain ⟨cs, stem, before, after, rest⟩ := source_of_bundle whole named bundle
      obtain ⟨up, out⟩ := not_mem_of_names rest
      refine ⟨.inr ⟨_, stem, before, after⟩, ?_, ?_, ?_⟩
      · simpa [after] using up
      · simpa [after] using out
      · have begun := inside.mp within
        have renamed : Component.normal (stem ++ ".bundle") ≠ .normal (stem ++ ".js") := by simp
        rw [before] at begun
        rw [after, renamed_inside begun renamed, before]
        have named_alike (equal : .root :: cs ++ [.normal (stem ++ ".bundle")] = root.components) :
            root.extension? = some "bundle" :=
          (extension?_congr (equal.symm.trans before.symm)).trans bundle
        exact not_congr ⟨fun equal => ⟨equal, named_alike equal⟩, And.left⟩

end Http

namespace Sample

/-- A project whose directory is named like a bundle. -/
def bundled : Path := ⟨"/app.bundle"⟩

/-- A bundle in this directory is answered with its source, in the same directory. -/
theorem bundle_in_root :
    bundled.isAbsolute = true ∧
      ∃ file, Http.entryFile? bundled "/lib/../main.bundle" = some file ∧
        .parent ∉ file.components ∧ bundled.components <+: file.components := by
  have absolute : bundled.isAbsolute = true := by decide
  obtain ⟨normal, reached, -, -, answers⟩ :=
    Http.entryFile?_located absolute "/lib/../main.bundle"
  have evaluated : (Http.entryFile? bundled "/lib/../main.bundle").isSome = true ∧
      Path.Component.cleaned (bundled.components ++ Path.body ⟨"/lib/../main.bundle"⟩) ≠
        bundled.components := by
    decide +kernel
  obtain ⟨file, answered⟩ := Option.isSome_iff_exists.mp evaluated.1
  obtain ⟨-, -, down, inside⟩ := answers file answered
  rw [← Path.Component.normalizes_iff.mp reached] at evaluated
  exact ⟨absolute, file, answered, down, inside.mpr fun ⟨same, _⟩ => evaluated.2 same⟩

/-- **The root itself is taken for a bundle,** and what is answered lies beside it. -/
theorem bundle_beside_root :
    bundled.isAbsolute = true ∧ bundled.clean.text = bundled.text ∧
      ∃ file, Http.entryFile? bundled "." = some file ∧
        ¬ bundled.components <+: file.components := by
  have outside :
      (Http.entryFile? bundled ".").any (fun file => !file.startsWith bundled) = true := by
    decide +kernel
  obtain ⟨file, answered, beside⟩ := (Option.any_eq_true _ _).mp outside
  refine ⟨by decide +kernel, by decide +kernel, file, answered, fun inside => ?_⟩
  rw [Path.startsWith, List.isPrefixOf_iff_prefix.mpr inside] at beside
  cases beside

end Sample

end HotReload
