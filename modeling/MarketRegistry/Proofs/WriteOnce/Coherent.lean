import MarketRegistry.WriteOnce.System

/-!
# What callers of a cell know

A caller that runs its initializer knows that nobody has succeeded before it, and a caller that
is about to read the value knows that it is there. What a caller knows it has learnt by its own
steps, and no step of another caller takes it away: before the flag is set only the caller with
the lock changes the cell, and afterwards nobody does.

## Conventions

The values that initializers give are listed in the order in which they are given. The list is
no part of the cell; it is what the cell is compared with.

## Main definitions

* `WriteOnce.Steps` — what a step can do, case by case.
* `System.given` — the values that initializers give along a schedule.
* `Caller.Knows` — what a caller knows, by how far it has come.
* `System.OneHolder` — the lock and who holds it.
* `System.Coherent` — the invariant: the lock has one holder, and every caller is right.

## Main results

* `WriteOnce.step_eq_some_iff` — these are the steps.
* `Caller.Knows.step`, `Caller.Knows.frame` — what a step does for its caller and for others.
* `WriteOnce.Steps.lock_cases` — what a step does to the lock.
* `System.Coherent.turn`, `System.Coherent.run` — every turn, and every run, keeps the invariant.
* `System.Coherent.run_of_initialized` — a cell that is set stays as it is, and no initializer
  runs again.
-/

namespace MarketRegistry

variable {ε α : Type} {cell cell' : WriteOnce α} {values : List α} {c c' d : Caller ε α}

/-! ### Steps -/

/-- **What a step can do**: from a caller, the cell and the caller after it. -/
inductive WriteOnce.Steps (cell : WriteOnce α) : Caller ε α → WriteOnce α → Caller ε α → Prop
  | sees : cell.initialized = true → cell.Steps .get cell .getValue
  | misses : cell.initialized = false → cell.Steps .get cell (.answered none)
  | answers : cell.Steps .getValue cell (.answered cell.value)
  | skips {init : Except ε α} : cell.initialized = true →
      cell.Steps (.getOrInit init) cell .readValue
  | enters {init : Except ε α} : cell.initialized = false →
      cell.Steps (.getOrInit init) cell (.acquire init)
  | locks {init : Except ε α} : cell.locked = false →
      cell.Steps (.acquire init) { cell with locked := true } (.recheck init)
  | yields {init : Except ε α} : cell.initialized = true → cell.Steps (.recheck init) cell .release
  | starts {init : Except ε α} : cell.initialized = false →
      cell.Steps (.recheck init) cell (.initializing init)
  | gives {a : α} : cell.Steps (.initializing (.ok a)) cell (.writeValue a)
  | fails {e : ε} : cell.Steps (.initializing (.error e)) cell (.releaseFailed e)
  | writesValue {a : α} : cell.Steps (.writeValue a) { cell with value := some a } .writeFlag
  | writesFlag : cell.Steps .writeFlag { cell with initialized := true } .release
  | releases : cell.Steps .release { cell with locked := false } .readValue
  | raises {e : ε} : cell.Steps (.releaseFailed e) { cell with locked := false } (.raised e)
  | returns : cell.Steps .readValue cell (.returned cell.value)

theorem WriteOnce.Steps.step_eq (h : cell.Steps c cell' c') : cell.step c = some (cell', c') := by
  cases h with
  | sees h | skips h | yields h => rw [step, if_pos h]
  | misses h | enters h | starts h | locks h => rw [step, if_neg (ne_true_of_eq_false h)]
  | _ => rfl

/-- **The steps** are those of the cases, and no others. -/
theorem WriteOnce.step_eq_some_iff : cell.step c = some (cell', c') ↔ cell.Steps c cell' c' := by
  refine ⟨fun h => ?_, Steps.step_eq⟩
  -- there is only one step, so that it is enough to name a case
  have hnext : ∀ {cell₁ c₁}, cell.Steps c cell₁ c₁ → cell.Steps c cell' c' := by
    intro cell₁ c₁ hsteps
    obtain ⟨rfl, rfl⟩ := Prod.mk.inj (Option.some.inj (hsteps.step_eq.symm.trans h))
    exact hsteps
  cases c with
  | get =>
      cases hset : cell.initialized with
      | false => exact hnext (.misses hset)
      | true => exact hnext (.sees hset)
  | getOrInit init =>
      cases hset : cell.initialized with
      | false => exact hnext (.enters hset)
      | true => exact hnext (.skips hset)
  | recheck init =>
      cases hset : cell.initialized with
      | false => exact hnext (.starts hset)
      | true => exact hnext (.yields hset)
  | acquire init =>
      cases hlocked : cell.locked with
      | false => exact hnext (.locks hlocked)
      | true =>
          rw [step, if_pos hlocked] at h
          cases h
  | initializing init =>
      cases init with
      | ok a => exact hnext .gives
      | error e => exact hnext .fails
  | getValue => exact hnext .answers
  | writeValue a => exact hnext .writesValue
  | writeFlag => exact hnext .writesFlag
  | release => exact hnext .releases
  | releaseFailed e => exact hnext .raises
  | readValue => exact hnext .returns
  | answered _ | returned _ | raised _ => cases h

/-! ### Values that are given -/

/-- The value that the next step of a caller gives: that of its initializer, if it succeeds. -/
def Caller.gives? : Caller ε α → Option α
  | .initializing (.ok a) => some a
  | _ => none

theorem Caller.append_gives?_of_none (h : c.gives? = none) :
    values ++ c.gives?.toList = values := by
  rw [h, Option.toList_none, List.append_nil]

/-- The value that a turn gives. -/
def System.gives? (s : System ε α) (i : Nat) : Option α :=
  s.callers[i]?.bind Caller.gives?

/-- The **values that are given** along a schedule, in order: one for every initializer that
succeeds. -/
def System.given (s : System ε α) : List Nat → List α
  | [] => []
  | i :: schedule => (s.gives? i).toList ++ (s.turn i).given schedule

/-! ### Knowledge -/

/-- **What a caller knows** of the cell and of the values given so far. -/
def Caller.Knows (cell : WriteOnce α) (values : List α) : Caller ε α → Prop
  | .getValue | .release | .readValue => cell.initialized = true
  | .answered (some a) => cell.initialized = true ∧ cell.value = some a
  | .returned r => cell.initialized = true ∧ cell.value = r
  | .recheck _ => cell.initialized = false → values = []
  | .initializing _ | .releaseFailed _ => cell.initialized = false ∧ values = []
  | .writeValue a => cell.initialized = false ∧ values = [a]
  | .writeFlag => cell.initialized = false ∧ ∃ a, values = [a] ∧ cell.value = some a
  | .get | .getOrInit _ | .acquire _ | .answered none | .raised _ => True

/-- A cell **keeps what is given**: at most one value, which it holds once its flag is set, and
none while it is neither set nor locked. -/
structure WriteOnce.Keeps (cell : WriteOnce α) (values : List α) : Prop where
  length_le_one : values.length ≤ 1
  value_of_initialized : cell.initialized = true → ∃ a, values = [a] ∧ cell.value = some a
  given_of_idle : cell.locked = false → cell.initialized = false → values = []

/-- The same holds of a cell that differs in the lock only, once that is taken. -/
theorem WriteOnce.Keeps.of_locked (h : cell.Keeps values) :
    ({ cell with locked := true } : WriteOnce α).Keeps values :=
  ⟨h.length_le_one, h.value_of_initialized, nofun⟩

/-- Nothing more is asked of a cell that is locked and not set. -/
theorem WriteOnce.Keeps.of_held (hlength : values.length ≤ 1) (hunset : cell.initialized = false)
    (hlocked : cell.locked = true) : cell.Keeps values := by
  refine ⟨hlength, fun hset => ?_, fun hfree => ?_⟩
  · rw [hunset] at hset
    cases hset
  · rw [hlocked] at hfree
    cases hfree

/-! ### What a step preserves -/

/-- **A step is right for its caller**, and for the cell, when the caller was right before. -/
theorem Caller.Knows.step (hcell : cell.Keeps values) (hlock : c.holdsLock → cell.locked = true)
    (hknows : c.Knows cell values) (hstep : cell.Steps c cell' c') :
    cell'.Keeps (values ++ c.gives?.toList) ∧ c'.Knows cell' (values ++ c.gives?.toList) := by
  cases hstep with
  | sees hset | skips hset | yields hset =>
      rw [append_gives?_of_none rfl]
      exact ⟨hcell, hset⟩
  | misses _ | enters _ =>
      rw [append_gives?_of_none rfl]
      exact ⟨hcell, trivial⟩
  | answers | returns =>
      rw [append_gives?_of_none rfl]
      obtain ⟨a, -, ha⟩ := hcell.value_of_initialized hknows
      rw [ha]
      exact ⟨hcell, hknows, ha⟩
  | locks hfree =>
      rw [append_gives?_of_none rfl]
      exact ⟨hcell.of_locked, hcell.given_of_idle hfree⟩
  | starts hunset =>
      rw [append_gives?_of_none rfl]
      exact ⟨hcell, hunset, hknows hunset⟩
  -- from here to the flag only the caller with the lock knows of the given value
  | gives =>
      obtain ⟨hunset, rfl⟩ := hknows
      exact ⟨.of_held (Nat.le_refl 1) hunset (hlock rfl), hunset, rfl⟩
  | fails =>
      obtain ⟨hunset, rfl⟩ := hknows
      exact ⟨hcell, hunset, rfl⟩
  | writesValue =>
      obtain ⟨hunset, rfl⟩ := hknows
      exact ⟨.of_held (Nat.le_refl 1) hunset (hlock rfl), hunset, _, rfl, rfl⟩
  | writesFlag =>
      obtain ⟨-, a, rfl, ha⟩ := hknows
      exact ⟨⟨Nat.le_refl 1, fun _ => ⟨a, rfl, ha⟩, nofun⟩, rfl⟩
  | releases =>
      rw [append_gives?_of_none rfl]
      refine ⟨⟨hcell.length_le_one, hcell.value_of_initialized, fun _ hunset => ?_⟩, hknows⟩
      rw [show cell.initialized = true from hknows] at hunset
      cases hunset
  | raises =>
      obtain ⟨-, rfl⟩ := hknows
      exact ⟨⟨Nat.zero_le 1, hcell.value_of_initialized, fun _ _ => rfl⟩, trivial⟩

/-- **A cell that is set** stays set and keeps its value, and no initializer is run in it. -/
theorem Caller.Knows.step_of_initialized (hknows : c.Knows cell values)
    (hset : cell.initialized = true) (hstep : cell.Steps c cell' c') :
    cell'.initialized = true ∧ cell'.value = cell.value ∧ c.gives? = none ∧
      c'.isInitializing = false := by
  cases hstep with
  | misses hunset | enters hunset | starts hunset =>
      rw [hset] at hunset
      cases hunset
  | gives | fails | writesValue | writesFlag | raises =>
      have hunset := hknows.1
      rw [hset] at hunset
      cases hunset
  | _ => exact ⟨hset, rfl, rfl, rfl⟩

namespace WriteOnce.Steps

/-- **A step without the lock** gives nothing and changes neither flag nor value. -/
theorem of_not_holdsLock (hstep : cell.Steps c cell' c') (hlock : c.holdsLock = false) :
    c.gives? = none ∧ cell'.initialized = cell.initialized ∧ cell'.value = cell.value := by
  cases hstep with
  | sees _ | misses _ | answers | skips _ | enters _ | locks _ | returns => exact ⟨rfl, rfl, rfl⟩
  | _ => cases hlock

/-- **What a step does to the lock**: nothing, or it takes the lock, which was free, or gives it
back. -/
theorem lock_cases (hstep : cell.Steps c cell' c') :
    (cell'.locked = cell.locked ∧ c'.holdsLock = c.holdsLock) ∨
      (cell.locked = false ∧ cell'.locked = true ∧ c'.holdsLock = true) ∨
      (c.holdsLock = true ∧ cell'.locked = false ∧ c'.holdsLock = false) := by
  cases hstep with
  | locks hfree => exact .inr (.inl ⟨hfree, rfl, rfl⟩)
  | releases | raises => exact .inr (.inr ⟨rfl, rfl, rfl⟩)
  | _ => exact .inl ⟨rfl, rfl⟩

end WriteOnce.Steps

/-- What a caller without the lock knows is about a cell that is set. -/
theorem Caller.Knows.of_not_holdsLock {values' : List α} (hknows : d.Knows cell values)
    (hlock : d.holdsLock = false)
    (h : cell.initialized = true → cell'.initialized = true ∧ cell'.value = cell.value) :
    d.Knows cell' values' := by
  cases d with
  | get | getOrInit _ | acquire _ | raised _ => trivial
  | getValue | readValue => exact (h hknows).1
  | answered r =>
      cases r with
      | none => trivial
      | some a => exact ⟨(h hknows.1).1, (h hknows.1).2.trans hknows.2⟩
  | returned r => exact ⟨(h hknows.1).1, (h hknows.1).2.trans hknows.2⟩
  | recheck _ | initializing _ | writeValue _ | writeFlag | release | releaseFailed _ => cases hlock

/-- Whether the lock is taken is nothing that a caller knows. -/
theorem Caller.Knows.of_eq (hknows : d.Knows cell values)
    (hflag : cell'.initialized = cell.initialized) (hvalue : cell'.value = cell.value) :
    d.Knows cell' values := by
  cases d <;> simp only [Knows, hflag, hvalue] at hknows ⊢ <;> exact hknows

/-- **A step takes no knowledge away** from other callers, as only one has the lock. -/
theorem Caller.Knows.frame (hc : c.Knows cell values) (hd : d.Knows cell values)
    (hexclusive : c.holdsLock = true → d.holdsLock = false)
    (hstep : cell.Steps c cell' c') : d.Knows cell' (values ++ c.gives?.toList) := by
  cases hlock : c.holdsLock with
  | false =>
      obtain ⟨hgives, hflag, hvalue⟩ := hstep.of_not_holdsLock hlock
      rw [append_gives?_of_none hgives]
      exact hd.of_eq hflag hvalue
  | true =>
      refine hd.of_not_holdsLock (hexclusive hlock) fun hset => ?_
      obtain ⟨hset', hvalue, -⟩ := hc.step_of_initialized hset hstep
      exact ⟨hset', hvalue⟩

/-- A caller that makes no step gives nothing. -/
theorem Caller.gives?_of_step_eq_none (h : cell.step c = none) : c.gives? = none := by
  cases c with
  | initializing init => cases init <;> cases h
  | _ => rfl

/-! ### The lock -/

namespace System

variable {s : System ε α} {callers : List (Caller ε α)} {locked : Bool} {i j : Nat}

/-- The caller with a number holds the lock. -/
def HoldsAt (callers : List (Caller ε α)) (i : Nat) : Prop :=
  ∃ c, callers[i]? = some c ∧ c.holdsLock = true

/-- A lock that is taken has **one holder**, and a free one has none. -/
structure OneHolder (locked : Bool) (callers : List (Caller ε α)) : Prop where
  locked_iff : locked = true ↔ ∃ i, HoldsAt callers i
  exclusive : ∀ {i j : Nat}, HoldsAt callers i → HoldsAt callers j → i = j

/-- A caller after the step of another or its own. -/
theorem getElem?_set_cases (hi : callers[i]? = some c) (hj : (callers.set i c')[j]? = some d) :
    i = j ∧ d = c' ∨ i ≠ j ∧ callers[j]? = some d := by
  have hlt := (List.getElem?_eq_some_iff.mp hi).1
  rw [List.getElem?_set] at hj
  split at hj
  · rename_i heq
    exact .inl ⟨heq, (Option.some.inj hj).symm⟩
  · exact .inr ⟨‹_›, hj⟩

theorem holdsAt_set_iff (hi : callers[i]? = some c) : HoldsAt (callers.set i c') j ↔
    i = j ∧ c'.holdsLock = true ∨ i ≠ j ∧ HoldsAt callers j := by
  constructor
  · rintro ⟨d, hd, hlock⟩
    rcases getElem?_set_cases hi hd with ⟨rfl, rfl⟩ | ⟨hne, hd⟩
    · exact .inl ⟨rfl, hlock⟩
    · exact .inr ⟨hne, d, hd, hlock⟩
  · rintro (⟨rfl, hlock⟩ | ⟨hne, d, hd, hlock⟩)
    · exact ⟨c', List.getElem?_set_self (List.getElem?_eq_some_iff.mp hi).1, hlock⟩
    · exact ⟨d, by rw [List.getElem?_set_ne hne, hd], hlock⟩

namespace OneHolder

/-- A step that leaves the lock as it is. -/
theorem keep (h : OneHolder locked callers) (hi : callers[i]? = some c)
    (hlock : c'.holdsLock = c.holdsLock) : OneHolder locked (callers.set i c') := by
  have hself : HoldsAt callers i ↔ c'.holdsLock = true := by
    rw [hlock, HoldsAt, hi]
    exact ⟨fun ⟨d, hd, hheld⟩ => Option.some.inj hd ▸ hheld, fun hheld => ⟨c, rfl, hheld⟩⟩
  have hsame : ∀ j, HoldsAt (callers.set i c') j ↔ HoldsAt callers j := by
    intro j
    rw [holdsAt_set_iff hi, ← hself]
    constructor
    · rintro (⟨rfl, hheld⟩ | ⟨-, hheld⟩) <;> exact hheld
    · intro hheld
      rcases Nat.decEq i j with hne | rfl
      · exact .inr ⟨hne, hheld⟩
      · exact .inl ⟨rfl, hheld⟩
  refine ⟨?_, fun hj hk => h.exclusive ((hsame _).mp hj) ((hsame _).mp hk)⟩
  rw [h.locked_iff]
  exact exists_congr fun j => (hsame j).symm

/-- A step that takes the lock, which nobody held. -/
theorem take (h : OneHolder false callers) (hi : callers[i]? = some c)
    (hlock : c'.holdsLock = true) : OneHolder true (callers.set i c') := by
  have hsole : ∀ j, HoldsAt (callers.set i c') j ↔ i = j := by
    intro j
    rw [holdsAt_set_iff hi]
    constructor
    · rintro (⟨hij, -⟩ | ⟨-, hheld⟩)
      · exact hij
      · cases h.locked_iff.mpr ⟨j, hheld⟩
    · intro hij
      exact .inl ⟨hij, hlock⟩
  refine ⟨iff_of_true rfl ⟨i, (hsole i).mpr rfl⟩, fun {j k} hj hk => ?_⟩
  rw [← (hsole j).mp hj, ← (hsole k).mp hk]

/-- A step that gives the lock back. -/
theorem giveBack (h : OneHolder locked callers) (hi : callers[i]? = some c)
    (hheld : c.holdsLock = true) (hlock : c'.holdsLock = false) :
    OneHolder false (callers.set i c') := by
  have hnone : ∀ j, ¬HoldsAt (callers.set i c') j := by
    intro j hj
    rcases (holdsAt_set_iff hi).mp hj with ⟨-, hheld'⟩ | ⟨hne, hj⟩
    · rw [hlock] at hheld'
      cases hheld'
    · exact hne (h.exclusive ⟨c, hi, hheld⟩ hj)
  exact ⟨iff_of_false Bool.false_ne_true fun ⟨j, hj⟩ => hnone j hj, fun hj => absurd hj (hnone _)⟩

end OneHolder

/-! ### Turns -/

/-- **A turn** is one step of one caller, or nothing. -/
theorem turn_cases (s : System ε α) (i : Nat) :
    s.turn i = s ∧ s.gives? i = none ∨
      ∃ c cell' c', s.callers[i]? = some c ∧ s.cell.Steps c cell' c' ∧ s.gives? i = c.gives? ∧
        s.turn i =
          ⟨cell', s.callers.set i c', s.initCalls + if c'.isInitializing then 1 else 0⟩ := by
  rw [turn, gives?]
  cases hcaller : s.callers[i]? with
  | none => exact .inl ⟨rfl, rfl⟩
  | some c =>
      cases hstep : s.cell.step c with
      | none => exact .inl ⟨by simp only [hstep], Caller.gives?_of_step_eq_none hstep⟩
      | some next =>
          have hsteps := WriteOnce.step_eq_some_iff.mp hstep
          exact .inr ⟨c, next.1, next.2, rfl, hsteps, rfl, by simp only [hstep]⟩

/-- The **invariant** of a cell and its callers, with the values given so far. -/
structure Coherent (values : List α) (s : System ε α) : Prop where
  keeps : s.cell.Keeps values
  lock : OneHolder s.cell.locked s.callers
  knows : ∀ {i : Nat} {c : Caller ε α}, s.callers[i]? = some c → c.Knows s.cell values

/-- **Every turn keeps the invariant.** -/
theorem Coherent.turn (h : s.Coherent values) (i : Nat) :
    (s.turn i).Coherent (values ++ (s.gives? i).toList) := by
  rcases s.turn_cases i with ⟨hturn, hgives⟩ | ⟨c, cell', c', hcaller, hstep, hgives, hturn⟩
  · rw [hturn, hgives, Option.toList_none, List.append_nil]
    exact h
  · rw [hturn, hgives]
    have hheld : c.holdsLock = true → s.cell.locked = true :=
      fun hlock => h.lock.locked_iff.mpr ⟨i, c, hcaller, hlock⟩
    obtain ⟨hkeeps, hknows⟩ := (h.knows hcaller).step h.keeps hheld hstep
    have hlock : OneHolder cell'.locked (s.callers.set i c') := by
      have hbefore := h.lock
      rcases hstep.lock_cases with
        ⟨hlocked, hlock⟩ | ⟨hfree, hlocked, hlock⟩ | ⟨hlock, hlocked, hlock'⟩
      · rw [hlocked]
        exact hbefore.keep hcaller hlock
      · rw [hfree] at hbefore
        rw [hlocked]
        exact hbefore.take hcaller hlock
      · rw [hlocked]
        exact hbefore.giveBack hcaller hlock hlock'
    refine ⟨hkeeps, hlock, fun {j d} hd => ?_⟩
    rcases getElem?_set_cases hcaller hd with ⟨-, rfl⟩ | ⟨hne, hd⟩
    · exact hknows
    · refine (h.knows hcaller).frame (h.knows hd) (fun hclock => ?_) hstep
      exact Bool.eq_false_iff.mpr fun hdlock =>
        hne (h.lock.exclusive ⟨c, hcaller, hclock⟩ ⟨d, hd, hdlock⟩)

theorem run_cons (s : System ε α) (i : Nat) (schedule : List Nat) :
    s.run (i :: schedule) = (s.turn i).run schedule := rfl

/-- **Every run keeps the invariant.** -/
theorem Coherent.run (h : s.Coherent values) (schedule : List Nat) :
    (s.run schedule).Coherent (values ++ s.given schedule) := by
  induction schedule generalizing s values with
  | nil =>
      rw [System.given, List.append_nil]
      exact h
  | cons i schedule ih =>
      rw [run_cons, System.given, ← List.append_assoc]
      exact ih (h.turn i)

/-! ### After the flag is set -/

/-- A turn changes neither the flag nor the value of a cell that is set. -/
theorem Coherent.turn_of_initialized (h : s.Coherent values) (hset : s.cell.initialized = true)
    (i : Nat) : (s.turn i).cell.initialized = true ∧ (s.turn i).cell.value = s.cell.value ∧
      (s.turn i).initCalls = s.initCalls ∧ s.gives? i = none := by
  rcases s.turn_cases i with ⟨hturn, hgives⟩ | ⟨c, cell', c', hcaller, hstep, hgives, hturn⟩
  · rw [hturn]
    exact ⟨hset, rfl, rfl, hgives⟩
  · obtain ⟨hset', hvalue, hnone, hidle⟩ := (h.knows hcaller).step_of_initialized hset hstep
    rw [hturn, hgives, hidle]
    exact ⟨hset', hvalue, rfl, hnone⟩

/-- **A cell that is set stays as it is**, whatever is run, and no initializer is started. -/
theorem Coherent.run_of_initialized (h : s.Coherent values) (hset : s.cell.initialized = true)
    (schedule : List Nat) : (s.run schedule).cell.initialized = true ∧
      (s.run schedule).cell.value = s.cell.value ∧ (s.run schedule).initCalls = s.initCalls ∧
      (s.run schedule).Coherent values := by
  induction schedule generalizing s with
  | nil => exact ⟨hset, rfl, rfl, h⟩
  | cons i schedule ih =>
      obtain ⟨hset', hvalue, hcalls, hgives⟩ := h.turn_of_initialized hset i
      have hturn := h.turn i
      rw [hgives, Option.toList_none, List.append_nil] at hturn
      rw [run_cons, ← hvalue, ← hcalls]
      exact ih hturn hset'

end System

end MarketRegistry
