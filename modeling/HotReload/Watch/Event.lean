import HotReload.Disk
import HotReload.Module

/-!
# Events of a disk

What the operating system tells of a path is boiled down to a change of a file, or to nothing. A
directory never counts as modified; that something is gone is told of directories too, since it can
no longer be seen what it was.
-/

namespace HotReload.Watch

/-- What the operating system tells of a path. -/
inductive EventKind where
  | created
  | modified
  | removed
  /-- The name is given up. -/
  | renamedFrom
  /-- The name is taken, or a name of two. -/
  | renamed
  /-- It was read, or anything else. -/
  | other
  deriving DecidableEq, Inhabited

/-- What is at a path when an event is looked at. -/
inductive Standing where
  | file
  | directory
  | missing
  deriving DecidableEq, Inhabited

/-- What is at a path. -/
def standing (d : Disk) (p : Path) : Standing :=
  match d.stat p with
  | .ok .directory => .directory
  | .ok (.file _) => .file
  | .error _ => .missing

/-- The change that an event stands for. -/
def classify (kind : EventKind) (at_ : Standing) : Option ChangeKind :=
  match kind, at_ with
  | .removed, _ | .renamedFrom, _ | .renamed, .missing => some .deleted
  | .other, _ | _, .directory => none
  | _, _ => some .modified

end HotReload.Watch
