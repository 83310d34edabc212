import HotReload.Json.Reader
import HotReload.Text.Basic
import HotReload.Text.Utf8

/-!
# Fields of a query

A query is a list of fields with `&` between them, each a key and a value with `=` between them. In
both, `+` stands for a space and `%` with two hexadecimal digits for a byte; a `%` without them
stands for itself. Empty fields are passed over.
-/

namespace HotReload.Http.Form

/-- The bytes that the bytes of a key or a value stand for. -/
def unescape : List UInt8 → List UInt8
  | [] => []
  | 0x2B :: rest => 0x20 :: unescape rest
  | 0x25 :: a :: b :: rest =>
    match Json.hexValue? (Char.ofNat a.toNat), Json.hexValue? (Char.ofNat b.toNat) with
    | some a, some b => (16 * a + b).toUInt8 :: unescape rest
    | _, _ => 0x25 :: unescape (a :: b :: rest)
  | byte :: rest => byte :: unescape rest

/-- The text that a key or a value stands for. -/
def decode (text : String) : String :=
  String.ofList (Text.Utf8.decode (unescape text.toUTF8.toList))

/-- The key and the value of a field; the value is empty where there is no equals sign. -/
def field (text : String) : String × String :=
  let (key, value) := (Text.splitFirst? '=' text).getD (text, "")
  (decode key, decode value)

/-- The fields of a query, in order. -/
def fields (query : String) : List (String × String) :=
  ((Text.split '&' query).filter (· ≠ "")).map field

end HotReload.Http.Form
