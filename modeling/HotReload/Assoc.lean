/-!
# Ordered maps

An ordered map is a list of pairs with distinct keys. `insert` keeps the place and the spelling of a
key that is there; `List.lookup` reads the map.
-/

namespace HotReload.Assoc

variable {κ α : Type} [BEq κ]

/-- Whether a key is in the map. -/
def contains (m : List (κ × α)) (k : κ) : Bool := m.any (·.1 == k)

/-- Puts a value under a key: a key that is there keeps its place and spelling, a new one goes
last. -/
def insert (m : List (κ × α)) (k : κ) (v : α) : List (κ × α) :=
  match m with
  | [] => [(k, v)]
  | (k', v') :: m => if k' == k then (k', v) :: m else (k', v') :: insert m k v

/-- Takes a key out of the map. -/
def erase (m : List (κ × α)) (k : κ) : List (κ × α) := m.filter fun e => !(e.1 == k)

/-- The value under a key. -/
def get? (m : List (κ × α)) (k : κ) : Option α := (m.find? (·.1 == k)).map (·.2)

/-- The key of the map that equals a given one, in the map's own spelling. -/
def key? (m : List (κ × α)) (k : κ) : Option κ := (m.find? (·.1 == k)).map (·.1)

/-- Changes the value under a key, where the key is in the map. -/
def modify (m : List (κ × α)) (k : κ) (f : α → α) : List (κ × α) :=
  m.map fun e => if e.1 == k then (e.1, f e.2) else e

/-- The map that the pairs make when they are put in one after the other. -/
def ofList (pairs : List (κ × α)) : List (κ × α) := pairs.foldl (fun m e => insert m e.1 e.2) []

end HotReload.Assoc
