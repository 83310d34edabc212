import HotReload.Digest.Sha1
import HotReload.Http.Form
import HotReload.Http.Request
import HotReload.Http.Response
import HotReload.Path

/-!
# Opening a WebSocket

A client that wants its connection turned into a WebSocket says so in four headers, and is answered
with the digest of the key it sent. The query of the request names its platform and its entry file.

The entry file is named from the root of the project. The name may start with slashes and hold `..`,
but what it leads to has to lie in the root. A name of a bundle stands for the source it is made of.

* `Base64.encode`: the text of a digest. Three bytes are written as four characters of six bits
  each; what is missing in the last group is filled with `=`.
* `Handshake.key`: the key of a request, or why it opens no WebSocket.
* `Handshake.Params.ofQuery`: what a query says.
* `entryFile?`: the entry file that a name stands for.
-/

namespace HotReload.Http

/-! ### Base64 -/

namespace Base64

/-- The characters of the sixty-four values. -/
def alphabet : List Char :=
  "ABCDEFGHIJKLMNOPQRSTUVWXYZabcdefghijklmnopqrstuvwxyz0123456789+/".toList

/-- The character of a value. -/
def charOf (value : Nat) : Char := alphabet.getD (value % 64) '='

/-- The first `kept` characters of a group of 24 bits, filled up to four. -/
def group (bits kept : Nat) : List Char :=
  ([18, 12, 6, 0].take kept).map (fun shift => charOf (bits >>> shift)) ++
    List.replicate (4 - kept) '='

/-- The characters of a list of bytes. -/
def encodeBytes : List UInt8 → List Char
  | [] => []
  | [a] => group (a.toNat * 65536) 2
  | [a, b] => group (a.toNat * 65536 + b.toNat * 256) 3
  | a :: b :: c :: rest => group (a.toNat * 65536 + b.toNat * 256 + c.toNat) 4 ++ encodeBytes rest

/-- The text of a list of bytes. -/
def encode (bytes : List UInt8) : String := String.ofList (encodeBytes bytes)

end Base64

/-! ### Entry files -/

/-- The file that a name leads to from the root, as it is spelled. -/
def namedFile (root : Path) (name : String) : Path :=
  (root.join ⟨String.ofList (name.toList.dropWhile (· = '/'))⟩).clean

/-- The entry file that a name stands for; none outside the root. -/
def entryFile? (root : Path) (name : String) : Option Path :=
  let file := namedFile root name
  if !file.startsWith root then none
  else if file.extension? = some "bundle" then some (file.withExtension "js")
  else some file

/-! ### Requests -/

namespace Handshake

/-- The key of a request that opens a WebSocket, or the answer to one that does not. -/
def key (r : Request) : Except Response String :=
  if r.method ≠ "GET" then .error (.text 405 "Request method must be \x60GET\x60")
  else if !r.headerMentions "connection" "upgrade" then
    .error (.text 400 "Connection header did not include 'upgrade'")
  else if !r.headerIs "upgrade" "websocket" then
    .error (.text 400 "\x60Upgrade\x60 header did not include 'websocket'")
  else
    match r.header? "sec-websocket-key" with
    | none => .error (.text 400 "\x60Sec-WebSocket-Key\x60 header missing")
    | some key =>
      if r.headerIs "sec-websocket-version" "13" then .ok key
      else .error (.text 400 "\x60Sec-WebSocket-Version\x60 header did not include '13'")

/-- What every server puts behind a key before it takes the digest. -/
def salt : String := "258EAFA5-E914-47DA-95CA-C5AB0DC85B11"

/-- The text that shows that a key was understood. -/
def accept (key : String) : String :=
  Base64.encode (Sha1.digest (key ++ salt).toUTF8.toList)

/-! ### The query -/

/-- What a query says. -/
structure Params where
  platform : Option String := none
  bundleEntry : Option String := none
  deriving DecidableEq, Inhabited

namespace Params

/-- Takes one field in; the fault is the key of a field that comes twice. -/
def put (p : Params) (field : String × String) : Except String Params :=
  match field.1 with
  | "platform" =>
    if p.platform.isSome then .error "platform" else .ok { p with platform := some field.2 }
  | "bundleEntry" =>
    if p.bundleEntry.isSome then .error "bundleEntry"
    else .ok { p with bundleEntry := some field.2 }
  | _ => .ok p

/-- What a query says. -/
def ofQuery (query : Option String) : Except String Params :=
  (Form.fields (query.getD "")).foldlM put {}

end Params

/-- Platform and entry file that a request names, or the answer to one that does not. -/
def wanted (r : Request) : Except Response (String × String) :=
  match Params.ofQuery r.target.query with
  | .error key =>
    .error (.text 400 ("Failed to deserialize query string: duplicate field \x60" ++ key ++ "\x60"))
  | .ok ⟨some platform, some bundleEntry⟩ => .ok (platform, bundleEntry)
  | .ok _ =>
    .error (.text 400 "Missing required query parameters 'platform' and 'bundleEntry'")

end Handshake

end HotReload.Http
