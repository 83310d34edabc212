import HotReload.Script.Source

/-!
# Import records

What a source text imports: one record per reference, with the specifier and the span of its
literal.

* `Imports.specifiers`: the distinct specifiers, by first appearance.
* `Imports.requires`: the records of `require` calls.
-/

namespace HotReload.Script

/-- How a source refers to a module. -/
inductive ImportKind where
  /-- A declaration: `import … from '…'` or `export … from '…'`. -/
  | static
  /-- A call of `require` with a literal. -/
  | require
  /-- An expression `import('…')`. -/
  | dynamic
  deriving DecidableEq, Inhabited

/-- One reference of a source to a module. -/
structure ImportRecord where
  specifier : String
  kind : ImportKind
  /-- The first byte of the literal, its quote. -/
  start : Nat
  /-- The byte behind the literal. -/
  stop : Nat
  deriving DecidableEq, Inhabited

/-- The references of a source, by their place. -/
abbrev Imports := List ImportRecord

namespace Imports

/-- The distinct specifiers, by first appearance. -/
def specifiers (records : Imports) : List String :=
  records.foldl (fun seen r => if seen.contains r.specifier then seen else seen ++ [r.specifier]) []

/-- The records of `require` calls. -/
def requires (records : Imports) : Imports := records.filter (·.kind = .require)

/-- The records by their place; those at one place keep their order. -/
def sorted (records : Imports) : Imports := records.mergeSort fun a b => a.start ≤ b.start

end Imports

end HotReload.Script
