import HotReload.Text.Basic

/-!
# Specifiers

A specifier is what a source names a module by. It may end in a query, which starts with `?`, and in
a fragment, which starts with `#`; what is before them says where to look.

* `Specifier.parse?`: takes the parts of a specifier apart.
* `Specifier.packageParts`: the name of a package and the way on inside of it.
-/

namespace HotReload.Project

/-- A specifier, taken apart. -/
structure Specifier where
  /-- Where to look. -/
  path : String
  query : Option String := none
  fragment : Option String := none
  deriving DecidableEq, Inhabited

namespace Specifier

/-- Splits off a fragment; a `#` behind a null character starts none. -/
def splitFragment (before : Char) : List Char → List Char × List Char
  | [] => ([], [])
  | c :: cs =>
    if c = '#' ∧ before ≠ '\x00' then ([], c :: cs)
    else
      let (body, fragment) := splitFragment c cs
      (c :: body, fragment)

/-- Drops the null characters that stand before a `#`. -/
def unescape : List Char → List Char
  | '\x00' :: '#' :: cs => '#' :: unescape cs
  | c :: cs => c :: unescape cs
  | [] => []

/-- A part, where it is not empty. -/
def part? (cs : List Char) : Option String := if cs.isEmpty then none else some (String.ofList cs)

/-- Takes a specifier apart; none where nothing is said about where to look. A `/`, `.` or `#` in
front always belongs to the path. -/
def parse? (text : String) : Option Specifier :=
  match text.toList with
  | [] => none
  | first :: rest =>
    let (head, body) := if first ∈ ['/', '.', '#'] then ([first], rest) else ([], first :: rest)
    let (before, fragment) := splitFragment first body
    let path := unescape (head ++ before.takeWhile (· ≠ '?'))
    if path.isEmpty then none
    else some ⟨String.ofList path, part? (before.dropWhile (· ≠ '?')), part? fragment⟩

/-- The name of the package that a path starts with, and the rest, which is empty or starts with
`/`. The name of a package in a scope, which starts with `@`, has two pieces. -/
def packageParts (path : String) : String × String :=
  let pieces := Text.split '/' path
  let size := if path.toList.head? = some '@' then 2 else 1
  match pieces.drop size with
  | [] => (path, "")
  | rest => (Text.splice '/' (pieces.take size), "/" ++ Text.splice '/' rest)

end Specifier

end HotReload.Project
