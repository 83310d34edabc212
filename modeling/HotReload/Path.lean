import HotReload.Text.Basic

/-!
# Paths

A path is kept as the text it was written with, and is compared by its components: repeated `/`,
a trailing `/` and every `.` that is not in front carry no meaning. `..` is a component.

* `Path.components`: the meaning of a path; `==` on paths is equality of components.
* `Path.join`, `parent?`, `fileName?`, `extension?`: the usual surgery on the text.
* `Path.below?`: what is left of a path under a base, and `Path.startsWith`, its test.
* `Path.clean`: the shortest path that means the same without looking at any file system.
-/

namespace HotReload

/-- A file path, as it was written. -/
structure Path where
  /-- The text of the path. -/
  text : String
  deriving Inhabited

namespace Path

/-- One step of a path. -/
inductive Component where
  /-- The leading `/`. -/
  | root
  /-- A leading `.`. -/
  | current
  /-- `..` -/
  | parent
  /-- A name. -/
  | normal (name : String)
  deriving DecidableEq, Inhabited

/-- The text of one component. -/
def Component.text : Component → String
  | .root => "/"
  | .current => "."
  | .parent => ".."
  | .normal name => name

/-- The component that a piece between two slashes stands for; an empty piece and `.` stand for
none. -/
def Component.ofPiece? (piece : String) : Option Component :=
  if piece = "" ∨ piece = "." then none
  else if piece = ".." then some .parent
  else some (.normal piece)

/-- The pieces between the slashes of a path. -/
def pieces (p : Path) : List String := Text.split '/' p.text

/-- The path with the given pieces between its slashes. -/
def ofPieces (pieces : List String) : Path := ⟨Text.splice '/' pieces⟩

/-- Whether the path starts at the root. -/
def isAbsolute (p : Path) : Bool := p.text.toList.head? = some '/'

/-- The components of a path. -/
def components (p : Path) : List Component :=
  let body := p.pieces.filterMap Component.ofPiece?
  if p.isAbsolute then .root :: body
  else if p.pieces.head? = some "." then .current :: body
  else body

/-- Two paths are the same when their components are. -/
instance : BEq Path := ⟨fun p q => p.components == q.components⟩

theorem beq_iff {p q : Path} : (p == q) = true ↔ p.components = q.components :=
  beq_iff_eq (a := p.components) (b := q.components)

instance : ReflBEq Path := ⟨fun {_} => beq_iff.2 rfl⟩

instance : EquivBEq Path where
  symm h := beq_iff.2 (beq_iff.1 h).symm
  trans h h' := beq_iff.2 ((beq_iff.1 h).trans (beq_iff.1 h'))

instance : ToString Path := ⟨Path.text⟩

/-- Puts `next` under `p`; an absolute `next` stands alone. -/
def join (p next : Path) : Path :=
  if next.isAbsolute then next
  else if p.text = "" ∨ p.text.toList.getLast? = some '/' then ⟨p.text ++ next.text⟩
  else ⟨p.text ++ "/" ++ next.text⟩

/-- The path that spells a list of components. -/
def ofComponents (cs : List Component) : Path :=
  cs.foldl (fun p c => p.join ⟨c.text⟩) ⟨""⟩

/-! ### What lies under a base -/

/-- Whether a piece stands for no component of a path's body. -/
def isBlankPiece (piece : String) : Bool := piece = "" || piece = "."

/-- Drops the blank pieces at both ends. -/
def trimPieces (ps : List String) : List String :=
  ((ps.dropWhile isBlankPiece).reverse.dropWhile isBlankPiece).reverse

/-- Drops the first `n` pieces that stand for a component, and what is blank before them. -/
def dropPieces : Nat → List String → List String
  | 0, ps => ps
  | _ + 1, [] => []
  | n + 1, piece :: ps => if isBlankPiece piece then dropPieces (n + 1) ps else dropPieces n ps

/-- The same path without the slashes and dots at its end. -/
def trimEnd (p : Path) : Path :=
  match (p.pieces.reverse.dropWhile isBlankPiece).reverse with
  | [] => ofComponents p.components
  | kept => ofPieces kept

/-- Whether the components of `base` begin those of `p`. -/
def startsWith (p base : Path) : Bool := base.components.isPrefixOf p.components

/-- The part of `p` that follows `base`, in its own text, where `base` begins `p`. -/
def below? (p base : Path) : Option Path :=
  if p.startsWith base then
    match base.components with
    | [] => some p.trimEnd
    | cs =>
      let named := cs.filter (fun c => c ≠ .root ∧ c ≠ .current)
      some (ofPieces (trimPieces (dropPieces named.length p.pieces)))
  else none

/-! ### Parents, names and extensions -/

/-- The path without its last component; an empty path and the root have no parent. -/
def parent? (p : Path) : Option Path :=
  match p.components.getLast? with
  | none | some .root => none
  | some .current => some ⟨""⟩
  | some _ =>
    match (p.pieces.reverse.dropWhile isBlankPiece).drop 1 with
    | [""] => some ⟨"/"⟩
    | kept => some (trimEnd (ofPieces kept.reverse))

/-- The path and all that it lies under, outwards; `fuel` bounds their number. -/
def ancestorsWithin : Nat → Path → List Path
  | 0, _ => []
  | fuel + 1, p =>
    p :: match p.parent? with
      | none => []
      | some base => ancestorsWithin fuel base

/-- The path and all that it lies under, outwards. -/
def ancestors (p : Path) : List Path := ancestorsWithin (p.components.length + 1) p

/-- Goes from `p` along the components of `next`: up for `..`, down for a name; an absolute or empty
`next` stands alone. -/
def walk (p next : Path) : Path :=
  match next.components with
  | [] | .root :: _ => next
  | cs =>
    cs.foldl (fun p c =>
      match c with
      | .parent => p.parent?.getD p
      | .normal name => p.join ⟨name⟩
      | _ => p) p

/-- The last component, where it is a name. -/
def fileName? (p : Path) : Option String :=
  match p.components.getLast? with
  | some (.normal name) => some name
  | _ => none

/-- Splits a file name at its last dot, where something stands before that dot. -/
def splitName (name : String) : String × Option String :=
  let cs := name.toList.reverse
  match cs.dropWhile (· ≠ '.') with
  | _ :: stem@(_ :: _) =>
    (String.ofList stem.reverse, some (String.ofList (cs.takeWhile (· ≠ '.')).reverse))
  | _ => (name, none)

/-- What follows the last dot of the file name; a name that only starts with a dot has none. -/
def extension? (p : Path) : Option String :=
  p.fileName?.bind fun name => (splitName name).2

/-- The same path with another extension on its file name. -/
def withExtension (p : Path) (extension : String) : Path :=
  match p.fileName? with
  | none => p
  | some name =>
    let file := (splitName name).1 ++ "." ++ extension
    match p.parent? with
    | some base => base.join ⟨file⟩
    | none => ⟨file⟩

/-! ### Cleaning -/

/-- Adds one component to a clean list, given in reverse: `.` adds nothing and `..` takes a name
away. -/
def cleanStep (out : List Component) (c : Component) : List Component :=
  match c with
  | .current => out
  | .parent =>
    match out with
    | .root :: _ => out
    | .normal _ :: rest => rest
    | _ => .parent :: out
  | c => c :: out

/-- The components of a path with every `.` gone and every `..` that follows a name worked off. -/
def cleanComponents (p : Path) : List Component :=
  (p.components.foldl cleanStep []).reverse

/-- The clean spelling of a path: `.` where nothing is left. -/
def clean (p : Path) : Path :=
  match p.cleanComponents with
  | [] => ⟨"."⟩
  | cs => ofComponents cs

end Path

end HotReload
