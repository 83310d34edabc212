import HotReload.Graph.Basic

/-!
# Dependencies first

A client has to know a module before it runs the modules that import it. `Graph.rank` lists the
paths below an entry in the order in which a depth-first walk leaves them, children in import order,
so that a path comes after all it imports except along a cycle. `orderLeafFirst` sorts modules by
it.
-/

namespace HotReload.Graph

/-- A walk in progress. -/
structure Walk where
  /-- The paths being walked, innermost first, each with the children still to visit. -/
  stack : List (Path × List Path)
  /-- The paths met so far. -/
  met : List Path
  /-- The paths left so far, in order. -/
  left : List Path

/-- The children of a path; a path that the map does not have is a leaf. -/
def children (shallow : ShallowMap) (p : Path) : List Path := (Assoc.get? shallow p).getD []

/-- Visits the next child of the innermost path, or leaves that path where none is left. -/
def Walk.step (shallow : ShallowMap) (w : Walk) : Walk :=
  match w.stack with
  | [] => w
  | (p, []) :: stack => { w with stack, left := w.left ++ [p] }
  | (p, child :: rest) :: stack =>
    if w.met.contains child then { w with stack := (p, rest) :: stack }
    else
      { w with
        stack := (child, children shallow child) :: (p, rest) :: stack
        met := child :: w.met }

/-- Takes steps until the stack is empty; `fuel` bounds their number. -/
def Walk.run (shallow : ShallowMap) : Nat → Walk → Walk
  | 0, w => w
  | fuel + 1, w => if w.stack.isEmpty then w else Walk.run shallow fuel (w.step shallow)

/-- A bound on the steps of a walk: each path is left once, and each dependency is looked at
once. -/
def walkBound (shallow : ShallowMap) : Nat := 2 * (shallow.flatMap (·.2)).length + 2

/-- The paths below the entry, each after what it imports; empty where the map has no entry. -/
def rank (entry : Path) (shallow : ShallowMap) : List Path :=
  match Assoc.key? shallow entry with
  | none => []
  | some key =>
    (Walk.run shallow (walkBound shallow) ⟨[(key, children shallow key)], [key], []⟩).left

/-- The place of a path in a ranking. -/
def rankOf? (ranking : List Path) (p : Path) : Option Nat := ranking.findIdx? (· == p)

/-- Puts a module with a key before the first one whose key is not smaller. -/
def insertByKey (e : Nat × Module) : List (Nat × Module) → List (Nat × Module)
  | [] => [e]
  | e' :: es => if e.1 ≤ e'.1 then e :: e' :: es else e' :: insertByKey e es

/-- Sorts modules by rank; those without a rank go last, and equals keep their order. -/
def orderLeafFirst (modules : List Module) (ranking : List Path) : List Module :=
  let keyed := modules.map fun m => ((rankOf? ranking m.path).getD ranking.length, m)
  (keyed.foldr insertByKey []).map (·.2)

end HotReload.Graph
