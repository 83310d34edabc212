import HotReload.Fault
import HotReload.Json.Reader
import HotReload.Settings.Load
import HotReload.Text.Basic
import HotReload.Watch.Watcher

/-!
# Starting the server

To start, the server loads its settings, opens a watcher on the root, and finds the address to
listen on, in this order; the first of these that fails says why it does not run.

An address has 32 bits, written as up to four numbers with dots, or 128 bits, written as eight
groups of hexadecimal digits with colons, where two colons stand for groups of zeros.

* `Address.ofHost?`: the address of a host, which is written as an address or is `localhost`.
* `Address.text`: the shortest spelling of an address.
* `Address.ofTarget`: the address of a host and port that the server is to listen on.
* `Startup.prepare`: all that is there before the server listens.
-/

namespace HotReload

/-! ### Addresses -/

/-- An address of an interface. -/
inductive Address where
  | four (word : BitVec 32)
  | six (word : BitVec 128)
  deriving DecidableEq, Inhabited

namespace Address

/-! ### Spelling -/

/-- The lower-case hexadecimal digits of a number. -/
def hexText (n : Nat) : String := String.ofList (Nat.toDigits 16 n)

/-- The numbers of four bytes with dots between them. -/
def dotted (word : BitVec 32) : String :=
  ".".intercalate ([24, 16, 8, 0].map fun shift => toString (word.toNat >>> shift % 256))

/-- The eight groups of a long address. -/
def groups (word : BitVec 128) : List Nat :=
  [112, 96, 80, 64, 48, 32, 16, 0].map fun shift => word.toNat >>> shift % 65536

/-- The number of zeros at the front. -/
def zerosOf (gs : List Nat) : Nat := (gs.takeWhile (· = 0)).length

/-- Where the longest run of zeros starts, and its length; of two the first. -/
def longestZeros (gs : List Nat) : Nat × Nat :=
  (List.range gs.length).foldl (fun best start =>
    let length := zerosOf (gs.drop start)
    if length > best.2 then (start, length) else best) (0, 0)

/-- Groups with colons between them. -/
def groupText (gs : List Nat) : String := ":".intercalate (gs.map hexText)

/-- The spelling of an address. -/
def text : Address → String
  | .four word => dotted word
  | .six word =>
    let gs := groups word
    if gs.take 6 = [0, 0, 0, 0, 0, 65535] then "::ffff:" ++ dotted (word.setWidth 32)
    else
      let (start, length) := longestZeros gs
      if length < 2 then groupText gs
      else groupText (gs.take start) ++ "::" ++ groupText (gs.drop (start + length))

/-! ### Reading -/

/-- The number that hexadecimal digits spell. -/
def hex? (cs : List Char) : Option Nat :=
  if cs.isEmpty then none
  else (cs.mapM Json.hexValue?).map fun ds => ds.foldl (fun n d => 16 * n + d) 0

/-- The number that octal digits spell. -/
def octal? (cs : List Char) : Option Nat :=
  (cs.mapM fun c => if '0' ≤ c ∧ c ≤ '7' then some (c.toNat - '0'.toNat) else none).map fun ds =>
    ds.foldl (fun n d => 8 * n + d) 0

/-- A part of a dotted address: decimal, octal behind a zero, hexadecimal behind `0x`. -/
def part? : List Char → Option Nat
  | '0' :: 'x' :: ds | '0' :: 'X' :: ds => hex? ds
  | '0' :: ds => octal? ds
  | ds => Text.digits? ds

/-- The address of a list of parts: each is a byte, but the last, which fills what is left. -/
def ofParts? (parts : List Nat) : Option (BitVec 32) :=
  match parts.getLast? with
  | none => none
  | some last =>
    let bytes := parts.dropLast
    let free := 1 <<< (8 * (4 - bytes.length))
    if bytes.length ≤ 3 ∧ bytes.all (· < 256) ∧ last < free then
      some (BitVec.ofNat 32 (bytes.foldl (fun n byte => 256 * n + byte) 0 * free + last))
    else none

/-- An address of 32 bits. -/
def ofDotted? (host : String) : Option (BitVec 32) :=
  ((Text.split '.' host).mapM fun part => part? part.toList).bind ofParts?

/-- Groups with colons between them; the last two may be written as four bytes. -/
def ofGroups? : List String → Option (List Nat)
  | [] => some []
  | [group] =>
    if group.toList.contains '.' then
      (ofDotted? group).map fun word => [word.toNat / 65536, word.toNat % 65536]
    else if group.length ≤ 4 then (hex? group.toList).map fun n => [n]
    else none
  | group :: more => do
    let n ← if group.length ≤ 4 then hex? group.toList else none
    return n :: (← ofGroups? more)

/-- The groups of a text without two colons in a row. -/
def ofRun? (cs : List Char) : Option (List Nat) :=
  if cs.isEmpty then some [] else ofGroups? ((Text.splitChars ':' cs).map String.ofList)

/-- What stands before and behind the first two colons in a row. -/
def splitGap : List Char → Option (List Char × List Char)
  | [] => none
  | ':' :: ':' :: rest => some ([], rest)
  | c :: rest => (splitGap rest).map fun (before, behind) => (c :: before, behind)

/-- An address of 128 bits. -/
def ofColons? (host : String) : Option (BitVec 128) := do
  let gs ← match splitGap host.toList with
    | none => ofRun? host.toList
    | some (before, behind) => do
      let before ← ofRun? before
      let behind ← ofRun? behind
      if before.length + behind.length ≤ 7 then
        some (before ++ List.replicate (8 - before.length - behind.length) 0 ++ behind)
      else none
  if gs.length = 8 then some (BitVec.ofNat 128 (gs.foldl (fun n g => 65536 * n + g) 0)) else none

/-- The text between brackets. -/
def unbracket? (host : String) : Option String :=
  match host.toList with
  | '[' :: rest => if rest.getLast? = some ']' then some (String.ofList rest.dropLast) else none
  | _ => none

/-- The address of a host. -/
def ofHost? (host : String) : Option Address :=
  match unbracket? host with
  | some inner => (ofColons? inner).map .six
  | none =>
    if host = "localhost" then some (.four 0x7f000001)
    else ((ofDotted? host).map .four).or ((ofColons? host).map .six)

/-- The address of a host and a port to listen on. -/
def ofTarget (host : String) (port : UInt16) : Except ListenFault Address :=
  match ofHost? host with
  | some address => .ok address
  | none => .error (.noAddress s!"{host}:{port}")

end Address

/-! ### What is there at the start -/

/-- What the server has in hand when it starts to listen. -/
structure Startup where
  settings : Settings
  watcher : Watch.Watcher
  address : Address
  deriving Inhabited

/-- Gets ready to listen, on a disk and from the directory the program runs in. -/
def Startup.prepare (d : Disk) (here : Path) (o : ServeOptions)
    (environment : List (String × String)) : Except Fault Startup := do
  let settings ← (Settings.load d here o environment).mapError .settings
  match Watch.Watcher.open? d settings.root settings.watchIgnore with
  | none => .error (.missing settings.root)
  | some watcher =>
    let address ← (Address.ofTarget settings.host settings.port).mapError .listen
    .ok { settings, watcher, address }

end HotReload
