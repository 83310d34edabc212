import HotReload.Json.Reader

/-!
# Manifests of packages

The manifest of a package is the file `package.json` in its directory. It may name the package and
its main file, and say what the package offers to others and what it takes from them.
-/

namespace HotReload.Project

/-- What a manifest says. -/
structure Manifest where
  name : Option String := none
  /-- The main file of the package. -/
  main : Option String := none
  /-- What the package offers. -/
  offers : Option Json := none
  /-- What the names that start with `#` stand for inside the package. -/
  takes : Option (List (String × Json)) := none
  deriving Inhabited

namespace Manifest

/-- The name of the file. -/
def fileName : String := "package.json"

/-- The text of a JSON string. -/
def text? : Json → Option String
  | .string text => some text
  | _ => none

/-- The fields of a JSON object. -/
def fields? : Json → Option (List (String × Json))
  | .object fields => some fields
  | _ => none

/-- Reads a manifest. -/
def parse? (text : String) : Option Manifest :=
  match Json.parse text with
  | .error _ => none
  | .ok value =>
    let value := value.normal
    some
      { name := (value.field? "name").bind text?
        main := (value.field? "main").bind text?
        offers := value.field? "exports"
        takes := (value.field? "imports").bind fields? }

end Manifest

end HotReload.Project
