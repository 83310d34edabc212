import HotReload.Project.Memory
import HotReload.Project.Specifier
import HotReload.Text.Basic

/-!
# What packages offer

The manifest of a package may say which files it offers to others, and what names that start with
`#` stand for inside of it. Both are tables from keys to targets. A key may have one `*`, which
stands for any text and is put in for every `*` of the target; of several keys that fit, the most
specific one counts. A target is a path below the package, a table by conditions of which the first
that holds and leads somewhere counts, or a list of which the first that leads somewhere counts.

* `Offers.target`: where a target leads.
* `Offers.named`: where a key of a table leads.
* `Offers.offered`: where what a package offers leads.
-/

namespace HotReload.Project.Offers

/-! ### Keys -/

/-- How specific a key is: the text before its `*` counts first, then its whole length. -/
def isMoreSpecific (key best : String) : Bool :=
  if best = "" then true
  else
    let base := fun k : String =>
      if k.toList.contains '*' then (k.toList.takeWhile (· ≠ '*')).length + 1 else k.utf8ByteSize
    if base best ≠ base key then base best < base key
    else if !best.toList.contains '*' then true
    else if !key.toList.contains '*' then false
    else best.utf8ByteSize < key.utf8ByteSize

/-- The text that the `*` of a key stands for in a name, or what follows a key that is a folder. -/
def fit? (key name : String) : Option String :=
  if !("./".toList.isPrefixOf key.toList || key.toList.head? = some '#') then none
  else
    match Text.splitFirst? '*' key with
    | some (front, back) =>
      if front.toList.isPrefixOf name.toList && !back.toList.contains '*' &&
          (back = "" ||
            (key.utf8ByteSize ≤ name.utf8ByteSize && back.toList.isSuffixOf name.toList))
      then
        some (String.ofList
          ((name.toList.drop front.length).take (name.length - front.length - back.length)))
      else none
    | none =>
      if key.toList.getLast? = some '/' && key.toList.isPrefixOf name.toList then
        some (String.ofList (name.toList.drop key.length))
      else none

/-- The most specific key of a table that fits a name, with its target and the text of its `*`. -/
def bestFit? (table : List (String × Json)) (name : String) : Option (String × Json × String) :=
  table.foldl (fun best (key, target) =>
    match fit? key name with
    | none => best
    | some text =>
      if isMoreSpecific key ((best.map (·.1)).getD "") then some (key, target, text) else best) none

/-! ### Targets -/

/-- Puts a text in for every `*`. -/
def fill (text : String) (target : String) : String :=
  String.ofList (target.toList.flatMap fun c => if c = '*' then text.toList else [c])

/-- Whether a target leads out of its package, or into another one. -/
def isStray (target : String) : Bool :=
  ((Path.mk target).components.zipIdx).any fun (c, i) =>
    match c with
    | .parent => true
    | .current => i > 0
    | .normal name => Text.asciiLower name = "node_modules"
    | .root => false

/-- The text of a target with the text of the key's `*` put in. -/
def filled (package : Path) (key target : String) (star : Option String) : Hunt String :=
  match star with
  | none => pure target
  | some text =>
    if !key.toList.contains '*' && !target.toList.contains '*' then
      if key.toList.getLast? = some '/' && target.toList.getLast? = some '/' then
        pure (target ++ text)
      else throw (.badFolder (package.join ⟨Manifest.fileName⟩))
    else pure (fill text target)

/-- A target that is a text leads to a path below the package. One that does not start with `./`
leads to where `outside` says. -/
def textTarget (package : Path) (outside : String → Hunt (Option Path)) (key text : String)
    (star : Option String) : Hunt (Option Path) := do
  let some parsed := Specifier.parse? text | throw (.empty text)
  let target ← filled package key parsed.path star
  if !"./".toList.isPrefixOf parsed.path.toList then outside target
  else if isStray target then throw (.badTarget target key (package.join ⟨Manifest.fileName⟩))
  else pure (some (package.walk ⟨target⟩))

mutual

/-- Where a target leads. -/
def target (package : Path) (outside : String → Hunt (Option Path)) (key : String)
    (star : Option String) : Json → Hunt (Option Path)
  | .string text => textTarget package outside key text star
  | .object fields => firstCondition package outside key star fields
  | .array [] => throw (.notOffered (star.getD ".") package)
  | .array items => firstItem package outside key star items
  | _ => pure none

/-- Where the first target leads whose condition holds and that leads somewhere. -/
def firstCondition (package : Path) (outside : String → Hunt (Option Path)) (key : String)
    (star : Option String) : List (String × Json) → Hunt (Option Path)
  | [] => pure none
  | (condition, value) :: rest =>
    if condition = "default" ∨ condition ∈ conditions then do
      match ← target package outside key star value with
      | some path => pure (some path)
      | none => firstCondition package outside key star rest
    else firstCondition package outside key star rest

/-- Where the first target leads that leads somewhere; those that cannot are passed over. -/
def firstItem (package : Path) (outside : String → Hunt (Option Path)) (key : String)
    (star : Option String) : List Json → Hunt (Option Path)
  | [] => pure none
  | value :: rest => do
    let found ← try target package outside key star value catch _ => pure none
    match found with
    | some path => pure (some path)
    | none => firstItem package outside key star rest

end

/-! ### Tables -/

/-- Where a name of a table leads. A folder leads nowhere. -/
def named (package : Path) (outside : String → Hunt (Option Path)) (table : List (String × Json))
    (name : String) : Hunt (Option Path) :=
  if name.toList.getLast? = some '/' then pure none
  else
    match (if name.toList.contains '*' then none else table.lookup name) with
    | some value => target package outside name none value
    | none =>
      match bestFit? table name with
      | some (key, value, star) => target package outside key (some star) value
      | none => pure none

/-- Whether a key is a name rather than a condition. -/
def isName (key : String) : Bool := key.toList.head? = some '.' || key.toList.head? = some '#'

/-- A target of what a package offers may not lead outside. -/
def refuse (package : Path) (key : String) (target : String) : Hunt (Option Path) :=
  throw (.badTarget target key (package.join ⟨Manifest.fileName⟩))

/-- What a package offers as a whole. -/
def whole? (offers : Json) : Option Json :=
  match offers with
  | .string _ | .array _ => some offers
  | .object fields =>
    match fields.lookup "." with
    | some value => some value
    | none => if fields.any fun f => isName f.1 then none else some offers
  | _ => none

/-- Where `wanted`, which is `.` or starts with `./`, leads in what a package offers. `tail` is the
query and fragment of the specifier, with which the package as a whole is not offered. -/
def offered (package : Path) (offers : Json) (wanted tail : String) : Hunt Path := do
  let table := (Manifest.fields? offers).getD []
  if (table.any fun f => isName f.1) && (table.any fun f => !isName f.1) then
    throw (.mixedOffers (package.join ⟨Manifest.fileName⟩))
  if wanted = "." then
    if tail ≠ "" then throw (.notOffered ("./" ++ tail) package)
    if let some value := whole? offers then
      if let some path ← target package (refuse package ".") "." none value then return path
  match ← named package (refuse package wanted) table wanted with
  | some path => pure path
  | none => throw (.notOffered wanted package)

end HotReload.Project.Offers
