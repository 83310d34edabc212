import HotReload.Watch.Event
import HotReload.Watch.Ignore

/-!
# Watching a directory

A watcher reports the changes of the files below its root. What happens on the disk is given as
operations; each makes events at one or two paths, and events are looked at when their operation is
done.

* `Operation.apply`, `Operation.events`: what an operation does to the disk and what is told of it.
* `Watcher.lastChanges`: the last change of every path that operations bring about.
-/

namespace HotReload.Watch

/-! ### Operations -/

/-- An operation on the disk. -/
inductive Operation where
  | write (path : Path)
  | remove (path : Path)
  | rename (source target : Path)
  deriving Inhabited

/-- The disk after an operation. -/
def Operation.apply (op : Operation) (d : Disk) : Disk :=
  match op with
  | .write path => d.write path ByteArray.empty
  | .remove path => d.remove path
  | .rename source target => d.rename source target

/-- What is told of an operation on a disk, in order. -/
def Operation.events (op : Operation) (d : Disk) : List (EventKind × Path) :=
  match op with
  | .write path => [(if d.contains path then .modified else .created, path)]
  | .remove path => ((d.below path).reverse ++ [path]).map fun p => (.removed, p)
  | .rename source target =>
    [(.renamedFrom, source), (.renamed, target), (.renamed, source), (.renamed, target)]

/-! ### Watchers -/

/-- A watcher of the files below a root. -/
structure Watcher where
  root : Path
  /-- The names and endings of paths that are not watched. -/
  ignored : List String
  deriving Inhabited

namespace Watcher

/-- A watcher of a directory; a root that is no directory is refused. -/
def open? (d : Disk) (root : Path) (ignored : List String) : Option Watcher :=
  if d.isDirectory root then some ⟨root, ignored⟩ else none

/-- The change that an event on the disk stands for, where its path is watched. -/
def changeOf? (w : Watcher) (d : Disk) (event : EventKind × Path) : Option Change :=
  if isIgnored w.ignored w.root event.2 then none
  else (classify event.1 (standing d event.2)).map fun kind => ⟨kind, event.2⟩

/-- The changes that an operation brings about, and the disk after it. -/
def observe (w : Watcher) (d : Disk) (op : Operation) : List Change × Disk :=
  let after := op.apply d
  ((op.events d).filterMap (w.changeOf? after), after)

/-- The last change of every path that operations bring about, by path, and the disk after them. -/
def lastChanges (w : Watcher) (d : Disk) (ops : List Operation) : List Change × Disk :=
  let (last, d) := ops.foldl (fun (last, d) op =>
    let (changes, d) := w.observe d op
    (changes.foldl (fun last c => Assoc.insert last c.path c) last, d))
    (([] : List (Path × Change)), d)
  ((last.map (·.2)).mergeSort fun a b => a.path.text ≤ b.path.text, d)

end Watcher

end HotReload.Watch
