import HotReload.CommandLine.Basic
import HotReload.Text.Basic

/-!
# Reading a command line

A command line is a list of words. Words in front of the command are switches of the whole program;
the words behind `serve` are its options, and the switches again. An option without an attached
value waits for the next word, and its value is looked at no sooner than the next switch or option
comes, or the words end: of two faults the one that is met first counts.

* `Reading.take`: what one word does to what was read so far.
* `CommandLine.ofWords`: the command line that words spell.
-/

namespace HotReload.CommandLine

/-- A switch; the last two end the reading. -/
inductive Switch where
  | verbose
  | quiet
  | noColor
  | help
  | version
  deriving DecidableEq, Inhabited

/-- An option, which has a value. -/
inductive Key where
  | root
  | host
  | port
  | config
  | debounceMs
  deriving DecidableEq, Inhabited

/-- Where a word stands: in front of the command, or behind it. -/
inductive Place where
  | front
  | serve
  deriving DecidableEq, Inhabited

/-- A name of a switch or an option. -/
abbrev Name := Switch ⊕ Key

/-- What a long name means at a place. -/
def Place.long? (place : Place) (name : String) : Option Name :=
  match name, place with
  | "verbose", _ => some (.inl .verbose)
  | "quiet", _ => some (.inl .quiet)
  | "no-color", _ => some (.inl .noColor)
  | "help", _ => some (.inl .help)
  | "version", .front => some (.inl .version)
  | "root", .serve => some (.inr .root)
  | "host", .serve => some (.inr .host)
  | "port", .serve => some (.inr .port)
  | "config", .serve => some (.inr .config)
  | "debounce-ms", .serve => some (.inr .debounceMs)
  | _, _ => none

/-- What a letter means at a place. -/
def Place.short? (place : Place) (letter : Char) : Option Name :=
  match letter, place with
  | 'v', _ => some (.inl .verbose)
  | 'q', _ => some (.inl .quiet)
  | 'h', _ => some (.inl .help)
  | 'V', .front => some (.inl .version)
  | 'p', .serve => some (.inr .port)
  | 'c', .serve => some (.inr .config)
  | _, _ => none

/-! ### Values -/

/-- A port: a number below 65536, where a minus sign may stand before a zero. -/
def port? (value : String) : Option UInt16 := do
  let n ← match value.toList with
    | '-' :: ds => (Text.digits? ds).filter (· = 0)
    | cs => Text.natural? cs
  if n < UInt16.size then some n.toUInt16 else none

/-- A number of 64 bits. -/
def word64? (value : String) : Option UInt64 := do
  let n ← Text.natural? value.toList
  if n < UInt64.size then some n.toUInt64 else none

/-- Whether an option has been given its value. -/
def Key.isGiven (key : Key) (o : ServeOptions) : Bool :=
  match key with
  | .root => o.root.isSome
  | .host => o.host.isSome
  | .port => o.port.isSome
  | .config => o.config.isSome
  | .debounceMs => o.debounceMs.isSome

/-- Gives an option its value; each may have one. -/
def Key.give (key : Key) (value : String) (o : ServeOptions) : Except Refusal ServeOptions :=
  if key.isGiven o then .error .conflict
  else
    match key with
    | .root => if value = "" then .error .missingValue else .ok { o with root := some ⟨value⟩ }
    | .config => if value = "" then .error .missingValue else .ok { o with config := some ⟨value⟩ }
    | .host => .ok { o with host := some value }
    | .port =>
      match port? value with
      | some n => .ok { o with port := some n }
      | none => .error .badValue
    | .debounceMs =>
      match word64? value with
      | some n => .ok { o with debounceMs := some n }
      | none => .error .badValue

/-! ### Words at one place -/

/-- An option that was named and whose value has not been looked at; it is `none` until the word
comes that is the value. -/
structure Pending where
  key : Key
  value : Option String := none
  deriving Inhabited

/-- What was read at one place. -/
structure Reading where
  place : Place
  /-- The switches that are on. -/
  switches : List Switch := []
  options : ServeOptions := {}
  pending : Option Pending := none
  deriving Inhabited

namespace Reading

/-- Looks at the value that waits. -/
def resolve (r : Reading) : Except Refusal Reading :=
  match r.pending with
  | none => .ok r
  | some ⟨_, none⟩ => .error .missingValue
  | some ⟨key, some value⟩ =>
    (key.give value r.options).map fun options => { r with options, pending := none }

/-- Turns a switch on, which may be done once; help and version end the reading. -/
def turnOn (r : Reading) (switch : Switch) : Except Refusal Reading := do
  let r ← r.resolve
  match switch with
  | .help => .error .help
  | .version => .error .version
  | switch =>
    if r.switches.contains switch then .error .conflict
    else .ok { r with switches := switch :: r.switches }

/-- Names an option, with its value where the value is attached. -/
def name (r : Reading) (key : Key) (attached : Option String) : Except Refusal Reading := do
  let r ← r.resolve
  match attached with
  | some value => (key.give value r.options).map fun options => { r with options }
  | none => .ok { r with pending := some ⟨key, none⟩ }

/-- A word behind two dashes: a name, and a value behind an equals sign. -/
def long (r : Reading) (word : String) : Except Refusal Reading :=
  let (name, attached) := match Text.splitFirst? '=' word with
    | some (name, value) => (name, some value)
    | none => (word, none)
  match r.place.long? name, attached with
  | some (.inl switch), none => r.turnOn switch
  | some (.inl _), some _ => .error .needlessValue
  | some (.inr key), attached => r.name key attached
  | none, _ => .error .unknownArgument

/-- The letters behind one dash: switches, and at last perhaps an option with its value. -/
def short (r : Reading) : List Char → Except Refusal Reading
  | [] => .ok r
  | letter :: rest =>
    match r.place.short? letter with
    | some (.inl switch) => do
      let r ← r.turnOn switch
      r.short rest
    | some (.inr key) =>
      let attached := match rest with
        | [] => none
        | '=' :: value => some (String.ofList value)
        | value => some (String.ofList value)
      r.name key attached
    | none => .error .unknownArgument

/-- What one word does, unless it is `--` or a command; `none` where it has no place. -/
def take (r : Reading) (word : String) : Except Refusal (Option Reading) :=
  match word.toList with
  | '-' :: '-' :: name => (r.long (String.ofList name)).map some
  | '-' :: letter :: letters => (r.short (letter :: letters)).map some
  | _ =>
    match r.pending with
    | some ⟨key, none⟩ => .ok (some { r with pending := some ⟨key, some word⟩ })
    | _ => .ok none

/-- What is read when the words end: `verbose` and `quiet` exclude each other. -/
def finish (r : Reading) : Except Refusal Reading := do
  let r ← r.resolve
  if r.switches.contains .verbose && r.switches.contains .quiet then .error .conflict else .ok r

end Reading

/-! ### Command lines -/

/-- The words behind `serve`. Behind `--` there is nothing to say. -/
def serveWords (r : Reading) : List String → Except Refusal Reading
  | [] => r.finish
  | "--" :: [] => r.finish
  | "--" :: _ => .error .unknownArgument
  | word :: words => do
    match ← r.take word with
    | some r => serveWords r words
    | none => .error .unknownArgument

/-- Help for a command: there is one for `serve` and one for `help`. -/
def helpWords : List String → Refusal
  | [] | ["serve"] | ["help"] => .help
  | _ => .unknownCommand

/-- A command line without a command. -/
def withoutCommand (r : Reading) : Refusal := if r.switches.isEmpty then .nothing else .noCommand

/-- The switches that are on at either of two places. -/
def switchesOf (front serve : Reading) : Switches :=
  let on := fun switch => (front.switches ++ serve.switches).contains switch
  ⟨on .verbose, on .quiet, on .noColor⟩

/-- The words in front of the command, then the command. -/
def frontWords (r : Reading) : List String → Except Refusal CommandLine
  | [] => .error (withoutCommand r)
  | "serve" :: words => do
    let serve ← serveWords { place := .serve } words
    let front ← r.finish
    .ok ⟨switchesOf front serve, serve.options⟩
  | "help" :: words => .error (helpWords words)
  | "--" :: [] => .error (withoutCommand r)
  | "--" :: word :: _ =>
    .error (if word = "serve" ∨ word = "help" then .unknownArgument else .unknownCommand)
  | word :: words => do
    match ← r.take word with
    | some r => frontWords r words
    | none => .error .unknownCommand

/-- The command line that words spell. -/
def ofWords (words : List String) : Except Refusal CommandLine :=
  frontWords { place := .front } words

end HotReload.CommandLine
