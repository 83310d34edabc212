import HotReload.Path

/-!
# Which paths are not watched

Only what lies below the root is watched, and of that nothing hidden and nothing that a pattern
names. A pattern that starts with `*` names every path whose text below the root ends in the rest of
it; any other pattern names every path that has it as a component below the root.
-/

namespace HotReload.Watch

/-- Whether a path below the root is named by a pattern. -/
def isNamed (pattern : String) (below : Path) : Bool :=
  match pattern.toList with
  | '*' :: ending => ending.isSuffixOf below.text.toList
  | _ => below.components.any fun c => c.text = pattern

/-- Whether a component is hidden. -/
def isHidden (c : Path.Component) : Bool :=
  match c with
  | .normal name => name.toList.head? = some '.'
  | _ => false

/-- Whether a path is not watched below a root. -/
def isIgnored (patterns : List String) (root path : Path) : Bool :=
  match path.below? root with
  | none => true
  | some below => patterns.any (isNamed · below) || below.components.any isHidden

end HotReload.Watch
