import HotReload.Text.Basic

/-!
# Requests

A request is a method, a target and headers; nothing is read of its body. `Request.parse?` takes the
words of its first line and the lines of its headers, and refuses what the grammar does not admit.

* `Target.parse?`: path and query of a target. What follows a `#` is dropped.
* `Header.parse?`: name and value of a header.
-/

namespace HotReload.Http

/-- Where a request goes. -/
structure Target where
  path : String
  query : Option String := none
  deriving DecidableEq, Inhabited

/-- A header, its name in lower case. -/
structure Header where
  name : String
  value : String
  deriving DecidableEq, Inhabited

/-- A request. -/
structure Request where
  method : String
  target : Target
  headers : List Header
  deriving DecidableEq, Inhabited

/-! ### Characters -/

/-- The characters of a token: of a method, and of the name of a header. -/
def isTokenChar (c : Char) : Bool := c.isAlphanum || "!#$%&'*+-.^_\x60|~".toList.contains c

/-- The characters that a line of a request may hold: all but blanks and controls. -/
def isVisible (c : Char) : Bool := '!' ≤ c && c ≠ '\x7f'

/-- The characters of a path. -/
def isPathChar (c : Char) : Bool := isVisible c && !"<>\x60".toList.contains c

/-- The characters of a query. -/
def isQueryChar (c : Char) : Bool := isVisible c && !"\"<>".toList.contains c

/-! ### Targets -/

namespace Target

/-- A path and perhaps a query. -/
def ofPath? (cs : List Char) : Option Target :=
  let path := cs.takeWhile fun c => c ≠ '?' && c ≠ '#'
  if !path.all isPathChar then none
  else
    match cs.drop path.length with
    | '?' :: rest =>
      let query := rest.takeWhile (· ≠ '#')
      if query.all isQueryChar then some ⟨String.ofList path, some (String.ofList query)⟩ else none
    | _ => some { path := String.ofList path }

/-- What follows a scheme and an authority, where there are both. -/
def dropAuthority? (cs : List Char) : Option (List Char) :=
  let scheme := cs.takeWhile fun c => c.isAlphanum || c = '+' || c = '-' || c = '.'
  match cs.drop scheme.length with
  | ':' :: '/' :: '/' :: rest =>
    if scheme.isEmpty then none
    else some (rest.dropWhile fun c => c ≠ '/' && c ≠ '?' && c ≠ '#')
  | _ => none

/-- The target that a text spells: a path, an address with a path, an authority alone, or `*`. -/
def parse? (text : String) : Option Target :=
  let cs := text.toList
  if cs.isEmpty || !cs.all isVisible then none
  else if cs = ['*'] then some { path := "*" }
  else if cs.head? = some '/' then ofPath? cs
  else
    match dropAuthority? cs with
    | some rest =>
      if rest.head? = some '/' then ofPath? rest
      else (ofPath? rest).map fun t => { t with path := "/" }
    | none =>
      if cs.any fun c => c = '/' || c = '?' || c = '#' then none else some { path := "" }

end Target

/-! ### Headers -/

/-- The blanks around the value of a header. -/
def isPad (c : Char) : Bool := c = ' ' || c = '\t'

/-- The header that a line spells. -/
def Header.parse? (line : String) : Option Header :=
  match Text.splitFirst? ':' line with
  | none => none
  | some (name, value) =>
    if name ≠ "" && name.toList.all isTokenChar &&
        value.toList.all (fun c => isVisible c || isPad c) then
      some ⟨Text.asciiLower name, Text.trimBy isPad value⟩
    else none

namespace Request

/-- The request that a method, a target and the lines of headers make. -/
def parse? (method target : String) (lines : List String) : Option Request := do
  let headers ← lines.mapM Header.parse?
  let target ← Target.parse? target
  if method ≠ "" && method.toList.all isTokenChar then some { method, target, headers } else none

/-- The value of the first header with a name. -/
def header? (r : Request) (name : String) : Option String :=
  (r.headers.find? (·.name = name)).map (·.value)

/-- Whether a header has a value, in letters of either case. -/
def headerIs (r : Request) (name value : String) : Bool :=
  ((r.header? name).map Text.asciiLower) = some value

/-- Whether a word occurs in a text. -/
def mentions (word : List Char) : List Char → Bool
  | [] => word.isEmpty
  | c :: cs => word.isPrefixOf (c :: cs) || mentions word cs

/-- Whether a word occurs in the value of a header, in letters of either case. -/
def headerMentions (r : Request) (name word : String) : Bool :=
  match r.header? name with
  | none => false
  | some value => mentions word.toList (Text.asciiLower value).toList

end Request

end HotReload.Http
