import HotReload.Assoc
import HotReload.Module

/-!
# Waiting for files to settle

A debouncer holds a change back until its file has been left alone for a whole window, and then
reports the last of its changes alone. Times are in milliseconds.

* `Debouncer.record`: a change comes in, and its file's window starts anew.
* `Debouncer.drain`: takes out the changes whose windows are over, the one that was over first in
  front.
-/

namespace HotReload.Watch

/-- A change that is held back. -/
structure Held where
  kind : ChangeKind
  /-- When the window is over. -/
  deadline : Nat
  deriving DecidableEq, Inhabited

/-- Changes that are held back, at most one for each path. -/
structure Debouncer where
  window : Nat
  pending : List (Path × Held) := []
  deriving Inhabited

namespace Debouncer

/-- Holds a change back from now on. -/
def record (d : Debouncer) (change : Change) (now : Nat) : Debouncer :=
  { d with pending := Assoc.insert d.pending change.path ⟨change.kind, now + d.window⟩ }

/-- Takes out the changes whose windows are over. -/
def drain (d : Debouncer) (now : Nat) : List Change × Debouncer :=
  let (ready, pending) := d.pending.partition fun e => e.2.deadline ≤ now
  ((ready.mergeSort fun a b => a.2.deadline ≤ b.2.deadline).map fun e => ⟨e.2.kind, e.1⟩,
    { d with pending })

/-- When the next window is over. -/
def nextDeadline? (d : Debouncer) : Option Nat := (d.pending.map (·.2.deadline)).min?

end Debouncer

end HotReload.Watch
