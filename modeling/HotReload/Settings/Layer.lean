import HotReload.Assoc
import HotReload.Json.Reader
import HotReload.Settings

/-!
# Layers of settings

Several sources say something about the settings, and each says only some of them. A layer is what
one source says: a value under each key it names, of whatever type it happens to be.

* `Layer.value?`: the value of a key over several layers. The first layer that names the key has the
  word, and its value is taken whole.
* `Settings.ofLayers?`: the settings that layers make, with the usual value where no layer has one.
  A key that no setting has spoils all; a value of the wrong type only where it is the one taken.
-/

namespace HotReload

/-- A value whose type nobody has looked at yet. -/
inductive LooseValue where
  | string (text : String)
  | whole (n : Int)
  | list (items : List LooseValue)
  /-- A value that no setting can have: a fraction, a truth value, an object, or nothing. -/
  | unfit
  deriving Inhabited

namespace LooseValue

mutual

/-- The value that a JSON value is. -/
def ofJson : Json → LooseValue
  | .string text => .string text
  | .number literal =>
    match (Json.Number.ofLiteral literal).integer? with
    | some n => .whole n
    | none => .unfit
  | .array items => .list (ofJsons items)
  | _ => .unfit

/-- The values that JSON values are. -/
def ofJsons : List Json → List LooseValue
  | [] => []
  | item :: items => ofJson item :: ofJsons items

end

/-- The value as a text. -/
def text? : LooseValue → Option String
  | .string text => some text
  | _ => none

/-- The value as a natural number below `2^bits`. -/
def word? (bits : Nat) : LooseValue → Option Nat
  | .whole (.ofNat n) => if n < 1 <<< bits then some n else none
  | _ => none

/-- The value as a list of texts. -/
def texts? : LooseValue → Option (List String)
  | .list items => items.mapM text?
  | _ => none

end LooseValue

/-- What one source says of the settings: values by key. -/
abbrev Layer := List (String × LooseValue)

/-- The value of a key: the first layer that names the key has the word. -/
def Layer.value? (layers : List Layer) (key : String) : Option LooseValue :=
  layers.findSome? fun layer => Assoc.get? layer key

namespace Settings

/-- The keys of the settings. -/
def keys : List String := ["root", "host", "port", "debounce_ms", "watch_ignore", "extensions"]

/-- What layers say under a key, or the usual value where they say nothing; `none` where what they
say cannot be read. -/
def said {α : Type} (layers : List Layer) (key : String) (read : LooseValue → Option α)
    (usual : α) : Option α :=
  match Layer.value? layers key with
  | some value => read value
  | none => some usual

/-- The settings that layers make, the layer with the highest priority in front. -/
def ofLayers? (layers : List Layer) : Option Settings :=
  let usual : Settings := {}
  if layers.all fun layer => layer.all fun entry => keys.contains entry.1 then do
    let root ← said layers "root" LooseValue.text? usual.root.text
    let host ← said layers "host" LooseValue.text? usual.host
    let port ← said layers "port" (LooseValue.word? 16) usual.port.toNat
    let debounceMs ← said layers "debounce_ms" (LooseValue.word? 64) usual.debounceMs.toNat
    let watchIgnore ← said layers "watch_ignore" LooseValue.texts? usual.watchIgnore
    let extensions ← said layers "extensions" LooseValue.texts? usual.extensions
    some
      { root := ⟨root⟩, host, port := port.toUInt16, debounceMs := debounceMs.toUInt64
        watchIgnore, extensions }
  else none

end Settings

end HotReload
