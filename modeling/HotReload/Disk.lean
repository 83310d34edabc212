import HotReload.Assoc
import HotReload.Path

/-!
# A disk

A disk is a tree of directories and files, addressed by absolute paths. `..` is followed as a step
up from a directory that is there, so a path that leads through a missing directory or through a
file leads nowhere. A path that ends in `/` means a directory.

* `Disk.stat`, `Disk.read`: what is at a path.
* `Disk.write`, `makeDirectory`, `remove`, `rename`: changes; what cannot be done is not done.
-/

namespace HotReload

/-- What a directory holds under a name. -/
inductive DiskEntry where
  | directory
  | file (content : ByteArray)
  deriving Inhabited

/-- Whether the entry is a directory. -/
def DiskEntry.isDirectory : DiskEntry → Bool
  | .directory => true
  | .file _ => false

/-- Why nothing can be had at a path. -/
inductive DiskFault where
  | missing
  /-- The path leads through a file. -/
  | notDirectory
  /-- There is a directory where a file is wanted. -/
  | isDirectory
  deriving DecidableEq, Inhabited

/-- The text of a fault. -/
def DiskFault.message : DiskFault → String
  | .missing => "No such file or directory (os error 2)"
  | .notDirectory => "Not a directory (os error 20)"
  | .isDirectory => "Is a directory (os error 21)"

/-- A tree of directories and files; the directory at the top is always there. -/
structure Disk where
  /-- What there is, by the names that lead to it from the top. -/
  entries : List (List String × DiskEntry) := []
  deriving Inhabited

namespace Disk

/-- What is at a place. -/
def entry? (d : Disk) (place : List String) : Option DiskEntry :=
  if place.isEmpty then some .directory else Assoc.get? d.entries place

/-! ### Finding a place -/

/-- The place that components lead to from a given one. Every place that is stepped from has to be a
directory; the last one need not be there. -/
def follow (d : Disk) (place : List String) : List Path.Component → Except DiskFault (List String)
  | [] => .ok place
  | c :: cs =>
    match d.entry? place with
    | none => .error .missing
    | some (.file _) => .error .notDirectory
    | some .directory =>
      match c with
      | .normal name => d.follow (place ++ [name]) cs
      | .parent => d.follow place.dropLast cs
      | .root | .current => d.follow place cs

/-- Whether a path is written as that of a directory. -/
def wantsDirectory (p : Path) : Bool :=
  match p.pieces.getLast? with
  | some piece => Path.isBlankPiece piece
  | none => false

/-- What is at a path. -/
def stat (d : Disk) (p : Path) : Except DiskFault DiskEntry :=
  if p.text = "" then .error .missing
  else
    match d.follow [] p.components with
    | .error fault => .error fault
    | .ok place =>
      match d.entry? place with
      | none => .error .missing
      | some entry =>
        if wantsDirectory p && !entry.isDirectory then .error .notDirectory else .ok entry

/-- Whether there is anything at a path. -/
def contains (d : Disk) (p : Path) : Bool := (d.stat p).toBool

/-- Whether there is a file at a path. -/
def isFile (d : Disk) (p : Path) : Bool :=
  match d.stat p with
  | .ok (.file _) => true
  | _ => false

/-- Whether there is a directory at a path. -/
def isDirectory (d : Disk) (p : Path) : Bool :=
  match d.stat p with
  | .ok .directory => true
  | _ => false

/-- The content of the file at a path. -/
def read (d : Disk) (p : Path) : Except DiskFault ByteArray :=
  match d.stat p with
  | .ok (.file content) => .ok content
  | .ok .directory => .error .isDirectory
  | .error fault => .error fault

/-! ### Changes -/

/-- The names of a path from the top. -/
def namesOf (p : Path) : List String :=
  p.cleanComponents.filterMap fun c =>
    match c with
    | .normal name => some name
    | _ => none

/-- Makes a directory at a place and all that lead to it, where nothing is there yet. -/
def makeDirectoryAt (d : Disk) (place : List String) : Disk :=
  (List.range place.length).foldl (fun d n =>
    let place := place.take (n + 1)
    if (d.entry? place).isSome then d else ⟨d.entries ++ [(place, .directory)]⟩) d

/-- Makes a directory and all that lead to it. -/
def makeDirectory (d : Disk) (p : Path) : Disk := d.makeDirectoryAt (namesOf p)

/-- Writes a file, making the directories that lead to it. A directory is not written over. -/
def write (d : Disk) (p : Path) (content : ByteArray) : Disk :=
  let place := namesOf p
  match d.entry? place with
  | some .directory => d
  | _ =>
    let d := d.makeDirectoryAt place.dropLast
    ⟨Assoc.insert d.entries place (.file content)⟩

/-- Takes away what is at a path, with all that is below it. -/
def remove (d : Disk) (p : Path) : Disk :=
  let place := namesOf p
  ⟨d.entries.filter fun e => !place.isPrefixOf e.1⟩

/-- Moves what is at a path, with all that is below it, to another path, in the place of a file that
is there. -/
def rename (d : Disk) (p q : Path) : Disk :=
  let (source, target) := (namesOf p, namesOf q)
  if source = target || (d.entry? source).isNone then d
  else
    let kept := d.remove q
    ⟨kept.entries.map fun e =>
      if source.isPrefixOf e.1 then (target ++ e.1.drop source.length, e.2) else e⟩

/-- The paths of what is below a directory, deepest last. -/
def below (d : Disk) (p : Path) : List Path :=
  let place := namesOf p
  (d.entries.filter fun e => place.isPrefixOf e.1 && e.1 != place).map fun e =>
    p.join ⟨Text.splice '/' (e.1.drop place.length)⟩

end Disk

end HotReload
