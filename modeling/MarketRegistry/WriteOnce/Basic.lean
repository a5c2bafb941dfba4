/-!
# The write-once cell

A cell that is filled by the first caller that needs its value. A caller first looks at the
flag of the cell without the lock. If it is not set, the caller takes the lock, looks at the
flag again, and only then runs its initializer; it writes the value before the flag and gives
the lock back at the end, also when its initializer fails.

Callers run at the same time, so a call is not one step but several, and steps of different
callers may come in any order. One step is one read or write of the cell, one operation on the
lock, or the outcome of an initializer.

## Main definitions

* `WriteOnce` — the cell: flag, value and lock.
* `Caller` — how far a caller has come.
* `WriteOnce.step` — the next step of a caller, unless it waits or has finished.
-/

namespace MarketRegistry

/-- A **write-once cell**. The value counts only once the flag `initialized` is set. -/
structure WriteOnce (α : Type) where
  initialized : Bool
  value : Option α
  locked : Bool
  deriving DecidableEq, Repr

/-- A cell that nobody has used. -/
def WriteOnce.empty {α : Type} : WriteOnce α :=
  ⟨false, none, false⟩

/-- **How far a caller has come**, with the outcome that its initializer has if it is run. -/
inductive Caller (ε α : Type) where
  /-- Asks for the value: will read the flag. -/
  | get
  /-- Saw the flag set: will read the value. -/
  | getValue
  /-- Asks for the value and can provide it: will read the flag. -/
  | getOrInit (init : Except ε α)
  /-- Saw the flag unset: will take the lock. -/
  | acquire (init : Except ε α)
  /-- Holds the lock: will read the flag again. -/
  | recheck (init : Except ε α)
  /-- Holds the lock and runs its initializer. -/
  | initializing (init : Except ε α)
  /-- Holds the lock: will write the value. -/
  | writeValue (a : α)
  /-- Holds the lock, has written the value: will write the flag. -/
  | writeFlag
  /-- Holds the lock: will give it back. -/
  | release
  /-- Holds the lock, its initializer has failed: will give it back. -/
  | releaseFailed (e : ε)
  /-- Will read the value to return it. -/
  | readValue
  /-- Has finished asking, with this answer. -/
  | answered (a : Option α)
  /-- Has finished with a value. -/
  | returned (a : Option α)
  /-- Has finished with the failure of its initializer. -/
  | raised (e : ε)

namespace Caller

variable {ε α : Type}

/-- A caller that holds the lock. -/
def holdsLock : Caller ε α → Bool
  | recheck _ | initializing _ | writeValue _ | writeFlag | release | releaseFailed _ => true
  | _ => false

/-- A caller that is running its initializer. -/
def isInitializing : Caller ε α → Bool
  | initializing _ => true
  | _ => false

/-- What a caller got, once it has finished. -/
def outcome? : Caller ε α → Option (Except ε (Option α))
  | answered a => some (.ok a)
  | returned a => some (.ok a)
  | raised e => some (.error e)
  | _ => none

end Caller

/-- The **next step of a caller**: the cell and the caller after it. A caller that has finished
makes none, and neither does one that waits for the lock. -/
def WriteOnce.step {ε α : Type} (cell : WriteOnce α) :
    Caller ε α → Option (WriteOnce α × Caller ε α)
  | .get => some (cell, if cell.initialized then .getValue else .answered none)
  | .getValue => some (cell, .answered cell.value)
  | .getOrInit init => some (cell, if cell.initialized then .readValue else .acquire init)
  | .acquire init =>
    if cell.locked then none else some ({ cell with locked := true }, .recheck init)
  | .recheck init => some (cell, if cell.initialized then .release else .initializing init)
  | .initializing (.ok a) => some (cell, .writeValue a)
  | .initializing (.error e) => some (cell, .releaseFailed e)
  | .writeValue a => some ({ cell with value := some a }, .writeFlag)
  | .writeFlag => some ({ cell with initialized := true }, .release)
  | .release => some ({ cell with locked := false }, .readValue)
  | .releaseFailed e => some ({ cell with locked := false }, .raised e)
  | .readValue => some (cell, .returned cell.value)
  | .answered _ | .returned _ | .raised _ => none

end MarketRegistry
