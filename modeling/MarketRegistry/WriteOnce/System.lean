import MarketRegistry.WriteOnce.Basic

/-!
# Callers of one cell

Several callers of a write-once cell, one step of one of them at a time, in the order of a
schedule. The fair schedule gives every caller its turn until all have finished.

## Main definitions

* `System` — a cell, its callers, and how often an initializer has been started.
* `System.turn`, `System.run` — one caller's turn, and the turns of a schedule.
* `WriteOnce.callAll` — callers that start together, run until all have finished.
-/

namespace MarketRegistry

/-- A cell with its **callers**, and how often any of them has started its initializer. -/
structure System (ε α : Type) where
  cell : WriteOnce α
  callers : List (Caller ε α)
  initCalls : Nat

namespace System

variable {ε α : Type}

/-- The **turn of a caller**: its next step, if it can make one. -/
def turn (s : System ε α) (i : Nat) : System ε α :=
  match s.callers[i]? with
  | none => s
  | some caller =>
    match s.cell.step caller with
    | none => s
    | some (cell, caller) =>
      { cell
        callers := s.callers.set i caller
        initCalls := s.initCalls + if caller.isInitializing then 1 else 0 }

/-- The turns of a **schedule**, which names a caller for each. -/
def run (s : System ε α) (schedule : List Nat) : System ε α :=
  schedule.foldl turn s

/-- What the callers got, once all have finished. -/
def outcomes? (s : System ε α) : Option (List (Except ε (Option α))) :=
  s.callers.mapM Caller.outcome?

end System

/-- A schedule in which `n` callers take turns. A call has at most nine steps of its own, and
waits for at most all the others. -/
def fairSchedule (n : Nat) : List Nat :=
  (List.replicate (10 * (n + 1)) (List.range n)).flatten

/-- **Callers that start together**, run in turns until all have finished. -/
def WriteOnce.callAll {ε α : Type} (cell : WriteOnce α) (callers : List (Caller ε α)) :
    System ε α :=
  System.run ⟨cell, callers, 0⟩ (fairSchedule callers.length)

end MarketRegistry
