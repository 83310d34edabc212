import HotReload.Script.Letters
import HotReload.Text.Basic

/-!
# What is logged

A filter is a list of directives, each of which lets what is logged under a target, in a span or
with certain fields pass from a level on. Directives are written `target[span{field}]=level`, where
every part but one may be missing; without a level all passes.

* `Directive.ofText?`: the directive that a text spells.
* `LogFilter.ofText?`: the filter that a list of directives spells; one faulty directive spoils it.
* `LogFilter.choose`: the filter of a run, by its switches and `RUST_LOG`.
-/

namespace HotReload

/-- From which level on messages pass. -/
inductive LogLevel where
  | off
  | error
  | warn
  | info
  | debug
  | trace
  deriving DecidableEq, Inhabited

namespace LogLevel

/-- The levels, the quietest in front. -/
def all : List LogLevel := [.off, .error, .warn, .info, .debug, .trace]

/-- The name of a level. -/
def name : LogLevel → String
  | .off => "off"
  | .error => "error"
  | .warn => "warn"
  | .info => "info"
  | .debug => "debug"
  | .trace => "trace"

/-- The level that a text names, by its place or its name in letters of either case. -/
def ofText? (text : String) : Option LogLevel :=
  match Text.natural? text.toList with
  | some n => all[n]?
  | none => all.find? fun level => level.name = Text.asciiLower text

end LogLevel

/-- Lets messages pass from a level on. -/
structure Directive where
  /-- Where the messages have to come from. -/
  target : Option String := none
  /-- The span they have to be in. -/
  span : Option String := none
  /-- The fields that have to be there, each with its value perhaps. -/
  fields : List String := []
  level : LogLevel := .trace
  deriving DecidableEq, Inhabited

namespace Directive

/-- The part of a directive in brackets. -/
def bracketText (d : Directive) : String :=
  if d.span.isNone && d.fields.isEmpty then ""
  else
    let fields := if d.fields.isEmpty then "" else "\x7b" ++ ",".intercalate d.fields ++ "\x7d"
    "[" ++ d.span.getD "" ++ fields ++ "]"

/-- The text of a directive. -/
def text (d : Directive) : String :=
  let scope := d.target.getD "" ++ d.bracketText
  if scope = "" then d.level.name else scope ++ "=" ++ d.level.name

/-- Whether two directives are about the same messages. -/
def sameScope (d e : Directive) : Bool :=
  d.target = e.target && d.span = e.span && d.fields = e.fields

/-! ### Reading -/

/-- A directive whose level is still to be read: nothing, or an equals sign and a level perhaps. -/
def withLevel? (d : Directive) : List Char → Option Directive
  | [] => some d
  | ['='] => some d
  | '=' :: level => (LogLevel.ofText? (String.ofList level)).map fun level => { d with level }
  | _ => none

/-- A directive whose span is still to be read, behind the opening bracket. -/
def withSpan? (d : Directive) (cs : List Char) : Option Directive :=
  let name := cs.takeWhile fun c => c ≠ ']' && c ≠ '\x7b'
  match cs.drop name.length with
  | ']' :: rest => { d with span := some (String.ofList name) }.withLevel? rest
  | _ :: rest =>
    let field := rest.takeWhile (· ≠ '\x7d')
    match rest.drop field.length with
    | '\x7d' :: ']' :: rest =>
      if field.isEmpty then none
      else
        { d with
          span := if name.isEmpty then none else some (String.ofList name)
          fields := [String.ofList field] }.withLevel? rest
    | _ => none
  | [] => none

/-- Whether the name of a target may start with a character. -/
def isNameStart (c : Char) : Bool :=
  c.isAlphanum || c = '-' || c = ':' || c = '_' || (c.toNat ≥ 128 && Script.isNamePart c)

/-- The directive that a text spells. -/
def ofText? (text : String) : Option Directive :=
  match (Text.trim text).toList with
  | [] => none
  | '[' :: rest => ({} : Directive).withSpan? rest
  | c :: cs =>
    if !isNameStart c then none
    else
      let name := c :: cs.takeWhile fun c => c ≠ '=' && c ≠ '['
      let d : Directive := { target := some (String.ofList name) }
      match (c :: cs).drop name.length with
      | [] =>
        match LogLevel.ofText? (String.ofList name) with
        | some level => some { level }
        | none => some d
      | '[' :: rest => d.withSpan? rest
      | rest => d.withLevel? rest

end Directive

/-- The directives of a filter. -/
structure LogFilter where
  directives : List Directive
  deriving Inhabited

namespace LogFilter

/-- Puts a directive into a list, in the place of one about the same messages. -/
def put (ds : List Directive) (d : Directive) : List Directive :=
  if ds.any d.sameScope then ds.map fun e => if d.sameScope e then d else e else ds ++ [d]

/-- The filter of some directives; without any, errors pass. -/
def ofDirectives : List Directive → LogFilter
  | [] => ⟨[{ level := .error }]⟩
  | ds => ⟨ds.foldl put []⟩

/-- The filter that a list of directives spells, with commas between them. -/
def ofText? (text : String) : Option LogFilter :=
  (((Text.split ',' text).filter (· ≠ "")).mapM Directive.ofText?).map ofDirectives

/-- The text of every directive. -/
def texts (f : LogFilter) : List String := f.directives.map Directive.text

/-- A filter that lets the named targets pass from a level on. -/
def ofTargets (targets : List String) (level : LogLevel) : LogFilter :=
  ofDirectives (targets.map fun target => { target := some target, level })

/-- What is logged where details are wanted. -/
def detailed : LogFilter := ofTargets ["fob_hmr", "fob_hmr_cli", "tower_http"] .debug

/-- What is logged where only errors are wanted. -/
def terse : LogFilter := ofDirectives []

/-- What is logged where nothing else is said. -/
def usual : LogFilter := ofTargets ["fob_hmr", "fob_hmr_cli"] .info

/-- The filter of a run: `verbose` goes before `quiet`, then comes `RUST_LOG`, where it is set and
holds a filter. -/
def choose (verbose quiet : Bool) (environment : List (String × String)) : LogFilter :=
  if verbose then detailed
  else if quiet then terse
  else ((environment.lookup "RUST_LOG").bind ofText?).getD usual

end LogFilter

end HotReload
