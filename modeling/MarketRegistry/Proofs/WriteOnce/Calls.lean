import MarketRegistry.Proofs.WriteOnce.Coherent

/-!
# Calls on a cell

Any number of calls on a cell that nobody has used, each of which asks for the value with or
without an initializer, and whose steps come in any order. A schedule may leave a call alone for
as long as it likes, so that a call begins after others have finished, and it may stop at any
time: what holds after every schedule holds in every state that the calls reach.

## Main definitions

* `Call`, `System.start` — the calls, before any of them has made a step.
* `System.outcomeAt` — what a call has got, once it has finished.
* `System.WritesOnce` — what the cell promises its callers after a schedule.

## Main results

* `Call.Leads.step`, `System.Led.run` — which way a call goes.
* `System.run_alone` — a call on its own fills a cell that is neither set nor locked.
* `System.writesOnce` — the cell keeps its promises after every schedule.
-/

namespace MarketRegistry

variable {ε α : Type} {cell cell' : WriteOnce α} {values : List α} {c c' d : Caller ε α}

/-- A **call** on a cell. The outcome of its initializer is part of it, whatever that does. -/
inductive Call (ε α : Type) where
  | get
  | getOrInit (init : Except ε α)

namespace Call

variable {call : Call ε α} {init : Except ε α} {o : Except ε (Option α)}

/-- A call before its first step. -/
def caller : Call ε α → Caller ε α
  | get => .get
  | getOrInit init => .getOrInit init

/-- How far a call may have come: the **ways of a call**. -/
def Leads : Call ε α → Caller ε α → Prop
  | get, .get | get, .getValue | get, .answered _ => True
  | get, _ => False
  | getOrInit init, .getOrInit init' | getOrInit init, .acquire init'
  | getOrInit init, .recheck init' | getOrInit init, .initializing init' => init = init'
  | getOrInit init, .writeValue a => init = .ok a
  | getOrInit init, .releaseFailed e | getOrInit init, .raised e => init = .error e
  | getOrInit _, .writeFlag | getOrInit _, .release | getOrInit _, .readValue
  | getOrInit _, .returned _ => True
  | getOrInit _, _ => False

theorem leads_caller (call : Call ε α) : call.Leads call.caller := by
  cases call with
  | get => trivial
  | getOrInit init => exact rfl

/-- **A step goes on with the call** that it is a step of. -/
theorem Leads.step (h : call.Leads c) (hstep : cell.Steps c cell' c') : call.Leads c' := by
  cases call with
  | get =>
      cases hstep with
      | sees _ | misses _ | answers => trivial
      | _ => cases h
  | getOrInit init =>
      cases hstep with
      | enters _ | locks _ | starts _ | gives | fails | raises => exact h
      | skips _ | yields _ | writesValue | writesFlag | releases | returns => trivial
      | sees _ | misses _ | answers => cases h

/-- A call without an initializer ends with an answer. -/
theorem Leads.answered (h : (get : Call ε α).Leads c) (ho : c.outcome? = some o) :
    ∃ r, c = .answered r ∧ o = .ok r := by
  cases c with
  | answered r => exact ⟨r, rfl, (Option.some.inj ho).symm⟩
  | returned _ | raised _ => cases h
  | _ => cases ho

/-- A call with an initializer ends with a value, or with the failure of that initializer. -/
theorem Leads.returned_or_raised (h : (getOrInit init).Leads c) (ho : c.outcome? = some o) :
    (∃ r, c = .returned r ∧ o = .ok r) ∨ ∃ e, o = .error e ∧ init = .error e := by
  cases c with
  | returned r => exact .inl ⟨r, rfl, (Option.some.inj ho).symm⟩
  | raised e => exact .inr ⟨e, (Option.some.inj ho).symm, h⟩
  | answered _ => cases h
  | _ => cases ho

end Call

namespace System

variable {s : System ε α} {calls : List (Call ε α)} {i j : Nat} {r : Option α}

/-! ### Calls and their callers -/

/-- **Calls on a cell that nobody has used**, before their first steps. -/
def start (calls : List (Call ε α)) : System ε α :=
  ⟨.empty, calls.map Call.caller, 0⟩

/-- What a caller got, once it has finished. -/
def outcomeAt (s : System ε α) (i : Nat) : Option (Except ε (Option α)) :=
  s.callers[i]?.bind Caller.outcome?

theorem coherent_start (calls : List (Call ε α)) : (start calls).Coherent [] := by
  have hfirst : ∀ {i : Nat} {c : Caller ε α}, (start calls).callers[i]? = some c →
      ∃ call : Call ε α, call.caller = c := by
    intro i c hc
    obtain ⟨call, -, hcall⟩ := Option.map_eq_some_iff.mp (List.getElem?_map.symm.trans hc)
    exact ⟨call, hcall⟩
  have hfree : ∀ i, ¬HoldsAt (start calls).callers i := by
    rintro i ⟨c, hc, hlock⟩
    obtain ⟨call, rfl⟩ := hfirst hc
    cases call <;> cases hlock
  refine ⟨⟨Nat.zero_le 1, fun h => (nomatch h), fun _ _ => rfl⟩, ⟨?_, ?_⟩, fun hc => ?_⟩
  · exact iff_of_false nofun fun ⟨i, hi⟩ => hfree i hi
  · exact fun hi => absurd hi (hfree _)
  · obtain ⟨call, rfl⟩ := hfirst hc
    cases call <;> trivial

/-- A caller after a turn is as it was before, or has made a step. -/
theorem caller_turn (hd : (s.turn i).callers[j]? = some d) :
    s.callers[j]? = some d ∨
      ∃ c cell', s.callers[j]? = some c ∧ s.cell.Steps c cell' d := by
  rcases s.turn_cases i with ⟨hturn, -⟩ | ⟨c, cell', c', hcaller, hstep, -, hturn⟩
  · rw [hturn] at hd
    exact .inl hd
  · rw [hturn] at hd
    rcases getElem?_set_cases hcaller hd with ⟨rfl, rfl⟩ | ⟨-, hd⟩
    · exact .inr ⟨c, cell', hcaller, hstep⟩
    · exact .inl hd

/-- Every caller is on the way of its call. -/
def Led (calls : List (Call ε α)) (s : System ε α) : Prop :=
  ∀ ⦃i : Nat⦄ ⦃call : Call ε α⦄ ⦃c : Caller ε α⦄,
    calls[i]? = some call → s.callers[i]? = some c → call.Leads c

theorem led_start (calls : List (Call ε α)) : (start calls).Led calls := by
  intro i call c hcall hc
  rw [start, List.getElem?_map, hcall] at hc
  obtain rfl := Option.some.inj hc
  exact call.leads_caller

/-- **Every run goes on with the calls** that it began with. -/
theorem Led.run (h : s.Led calls) (schedule : List Nat) : (s.run schedule).Led calls := by
  induction schedule generalizing s with
  | nil => exact h
  | cons i schedule ih =>
      refine ih fun j call d hcall hd => ?_
      rcases caller_turn hd with hd | ⟨c, cell', hc, hstep⟩
      · exact h hcall hd
      · exact (h hcall hc).step hstep

/-! ### Finished calls -/

/-- A call without an initializer has finished with an answer. -/
theorem Led.answered {o : Except ε (Option α)} (h : s.Led calls) (hcall : calls[i]? = some .get)
    (ho : s.outcomeAt i = some o) : ∃ r, s.callers[i]? = some (.answered r) ∧ o = .ok r := by
  obtain ⟨c, hc, hout⟩ := Option.bind_eq_some_iff.mp ho
  obtain ⟨r, rfl, hr⟩ := (h hcall hc).answered hout
  exact ⟨r, hc, hr⟩

/-- A call with an initializer that has got a value has returned it. -/
theorem Led.returned {init : Except ε α} (h : s.Led calls)
    (hcall : calls[i]? = some (.getOrInit init)) (ho : s.outcomeAt i = some (.ok r)) :
    s.callers[i]? = some (.returned r) := by
  obtain ⟨c, hc, hout⟩ := Option.bind_eq_some_iff.mp ho
  rcases (h hcall hc).returned_or_raised hout with ⟨r', rfl, hr⟩ | ⟨e, he, -⟩
  · cases hr
    exact hc
  · cases he

/-- A call with an initializer that has failed has failed as that does. -/
theorem Led.raised {init : Except ε α} {e : ε} (h : s.Led calls)
    (hcall : calls[i]? = some (.getOrInit init)) (ho : s.outcomeAt i = some (.error e)) :
    init = .error e := by
  obtain ⟨c, hc, hout⟩ := Option.bind_eq_some_iff.mp ho
  rcases (h hcall hc).returned_or_raised hout with ⟨r, -, hr⟩ | ⟨e', he, hinit⟩
  · cases hr
  · cases he
    exact hinit

/-- A caller that returned a value returned the one that was given, and the cell is set. -/
theorem Coherent.of_returned (h : s.Coherent values) (hc : s.callers[i]? = some (.returned r)) :
    s.cell.initialized = true ∧ s.cell.value = r ∧ ∃ a, values = [a] ∧ r = some a := by
  obtain ⟨hset, hvalue⟩ := h.knows hc
  obtain ⟨a, hvalues, ha⟩ := h.keeps.value_of_initialized hset
  exact ⟨hset, hvalue, a, hvalues, hvalue.symm.trans ha⟩

/-- An answer is no value, or the one that was given. -/
theorem Coherent.of_answered (h : s.Coherent values) (hc : s.callers[i]? = some (.answered r)) :
    r = none ∨ ∃ a, values = [a] ∧ r = some a := by
  cases r with
  | none => exact .inl rfl
  | some b =>
      obtain ⟨hset, hvalue⟩ := h.knows hc
      obtain ⟨a, hvalues, ha⟩ := h.keeps.value_of_initialized hset
      exact .inr ⟨a, hvalues, hvalue.symm.trans ha⟩

/-- A caller that asks a cell which holds `r`. -/
def Asks (r : Option α) : Caller ε α → Prop
  | .get | .getValue => True
  | .answered r' => r' = r
  | _ => False

/-- **Whoever asks a cell that is set** is answered with its value. -/
theorem Coherent.run_asks (h : s.Coherent values) (hset : s.cell.initialized = true)
    (hasks : ∀ {d}, s.callers[j]? = some d → Asks s.cell.value d) (schedule : List Nat) :
    ∀ {d}, (s.run schedule).callers[j]? = some d → Asks s.cell.value d := by
  induction schedule generalizing s values with
  | nil => exact hasks
  | cons i schedule ih =>
      obtain ⟨hset', hvalue, -, -⟩ := h.turn_of_initialized hset i
      rw [← hvalue]
      refine ih (h.turn i) hset' fun {d} hd => ?_
      rw [hvalue]
      rcases caller_turn hd with hd | ⟨c, cell', hc, hstep⟩
      · exact hasks hd
      · have hc := hasks hc
        cases hstep with
        | sees _ => trivial
        | misses hunset =>
            rw [hset] at hunset
            cases hunset
        | answers => exact rfl
        | _ => cases hc

/-- **A call that begins when the cell is set** gets its value, whenever it finishes. -/
theorem Coherent.outcome_of_get {o : Except ε (Option α)} (h : s.Coherent values)
    (hset : s.cell.initialized = true) (hget : s.callers[j]? = some .get) {schedule : List Nat}
    (ho : (s.run schedule).outcomeAt j = some o) : o = .ok s.cell.value := by
  obtain ⟨d, hd, hout⟩ := Option.bind_eq_some_iff.mp ho
  have hasks : Asks s.cell.value d := by
    refine h.run_asks hset (fun {d} hd => ?_) schedule hd
    obtain rfl := Option.some.inj (hget.symm.trans hd)
    trivial
  cases d with
  | answered r' =>
      obtain rfl : r' = s.cell.value := hasks
      exact (Option.some.inj hout).symm
  | returned _ | raised _ => cases hasks
  | _ => cases hout

/-- Nobody runs an initializer when the cell is set. -/
theorem Coherent.not_isInitializing (h : s.Coherent values) (hset : s.cell.initialized = true)
    (hc : s.callers[i]? = some c) : c.isInitializing = false := by
  have hknows := h.knows hc
  cases c with
  | initializing init =>
      have hunset := hknows.1
      rw [hset] at hunset
      cases hunset
  | _ => rfl

/-- Whoever runs its initializer holds the lock, so that nobody else does. -/
theorem Coherent.initializing_unique (h : s.Coherent values) (hc : s.callers[i]? = some c)
    (hd : s.callers[j]? = some d) (hcinit : c.isInitializing = true)
    (hdinit : d.isInitializing = true) : i = j := by
  have hlock : ∀ {c : Caller ε α}, c.isInitializing = true → c.holdsLock = true := by
    intro c hinit
    cases c with
    | initializing init => rfl
    | _ => cases hinit
  exact h.lock.exclusive ⟨c, hc, hlock hcinit⟩ ⟨d, hd, hlock hdinit⟩

/-- **A call that fails** gives the lock of an unset cell back in its last step. -/
theorem Coherent.turn_raises {e : ε} (h : s.Coherent values) (hbefore : s.outcomeAt i = none)
    (hafter : (s.turn i).outcomeAt i = some (.error e)) :
    (s.turn i).cell.initialized = false ∧ (s.turn i).cell.locked = false := by
  rcases s.turn_cases i with ⟨hturn, -⟩ | ⟨c, cell', c', hcaller, hstep, -, hturn⟩
  · rw [hturn, hbefore] at hafter
    cases hafter
  · have hlt := (List.getElem?_eq_some_iff.mp hcaller).1
    rw [outcomeAt, hturn, List.getElem?_set_self hlt] at hafter
    rw [hturn]
    have hknows := h.knows hcaller
    -- only one step leads to a failure, and its caller knows that the cell is not set
    cases hstep with
    | raises => exact ⟨hknows.1, rfl⟩
    | _ => cases hafter

/-! ### A call on its own -/

/-- A caller's turn, by its next step. -/
theorem turn_set {l : List (Caller ε α)} {n : Nat} (hj : j < l.length)
    (hstep : cell.step c = some (cell', c')) :
    (⟨cell, l.set j c, n⟩ : System ε α).turn j =
      ⟨cell', l.set j c', n + if c'.isInitializing then 1 else 0⟩ := by
  rw [turn]
  simp only [List.getElem?_set_self hj, hstep, List.set_set]

/-- **A call on its own fills the cell**, if that is neither set nor locked, and returns what its
initializer gives. -/
theorem run_alone {a : α} (hset : s.cell.initialized = false) (hlocked : s.cell.locked = false)
    (hj : s.callers[j]? = some (.getOrInit (.ok a))) :
    s.run (List.replicate 8 j) =
      ⟨⟨true, some a, false⟩, s.callers.set j (.returned (some a)), s.initCalls + 1⟩ := by
  obtain ⟨hlt, hcaller⟩ := List.getElem?_eq_some_iff.mp hj
  obtain ⟨⟨initialized, value, locked⟩, l, n⟩ := s
  obtain rfl : initialized = false := hset
  obtain rfl : locked = false := hlocked
  have hl : l = l.set j (.getOrInit (.ok a)) := by rw [← hcaller, List.set_getElem_self]
  rw [hl]
  simp only [List.replicate, run_cons]
  rw [turn_set hlt rfl, turn_set hlt rfl, turn_set hlt rfl, turn_set hlt rfl, turn_set hlt rfl,
    turn_set hlt rfl, turn_set hlt rfl, turn_set hlt rfl, List.set_set]
  rfl

/-! ### The promises of the cell -/

/-- **What a write-once cell promises** its callers, in a state that the calls have reached and
with the values that initializers have given up to then. -/
structure WritesOnce (calls : List (Call ε α)) (given : List α) (s : System ε α) : Prop where
  /-- At most one initializer succeeds. -/
  length_given_le_one : given.length ≤ 1
  /-- No two initializers run at the same time. -/
  initializing_unique : ∀ {i j : Nat} {c d : Caller ε α}, s.callers[i]? = some c →
    s.callers[j]? = some d → c.isInitializing = true → d.isInitializing = true → i = j
  /-- Every call with an initializer that returns gives back the value of the successful one. -/
  returned : ∀ {i : Nat} {init : Except ε α} {r : Option α}, calls[i]? = some (.getOrInit init) →
    s.outcomeAt i = some (.ok r) → ∃ a, given = [a] ∧ r = some a
  /-- Every call without one is answered with that value or with none, and does not fail. -/
  answered : ∀ {i : Nat} {o : Except ε (Option α)}, calls[i]? = some .get →
    s.outcomeAt i = some o → o = .ok none ∨ ∃ a, given = [a] ∧ o = .ok (some a)
  /-- A call without one that begins after another call has returned a value gets that value,
  whenever it finishes. -/
  answered_after : ∀ {i j : Nat} {init : Except ε α} {r : Option α},
    calls[i]? = some (.getOrInit init) → s.outcomeAt i = some (.ok r) →
    s.callers[j]? = some .get → ∀ (later : List Nat) {o : Except ε (Option α)},
    (s.run later).outcomeAt j = some o → o = .ok r
  /-- A call fails only as its own initializer does. -/
  raised : ∀ {i : Nat} {init : Except ε α} {e : ε}, calls[i]? = some (.getOrInit init) →
    s.outcomeAt i = some (.error e) → init = .error e
  /-- The step with which a call fails leaves the cell neither set nor locked. -/
  open_of_raised : ∀ {i : Nat} {e : ε}, s.outcomeAt i = none →
    (s.turn i).outcomeAt i = some (.error e) →
    (s.turn i).cell.initialized = false ∧ (s.turn i).cell.locked = false
  /-- A cell that is neither set nor locked can be filled by whoever begins then. -/
  filled_of_open : ∀ {j : Nat} {a : α}, s.cell.initialized = false → s.cell.locked = false →
    s.callers[j]? = some (.getOrInit (.ok a)) →
    (s.run (List.replicate 8 j)).cell.initialized = true ∧
      (s.run (List.replicate 8 j)).outcomeAt j = some (.ok (some a))
  /-- Once the cell is set, no initializer is started or runs any more. -/
  settled : s.cell.initialized = true → ∀ later : List Nat,
    (s.run later).initCalls = s.initCalls ∧
      ∀ {i : Nat} {c : Caller ε α}, (s.run later).callers[i]? = some c → c.isInitializing = false

/-- **A write-once cell keeps its promises**, for any calls and after every schedule. -/
theorem writesOnce (calls : List (Call ε α)) (schedule : List Nat) :
    WritesOnce calls ((start calls).given schedule) ((start calls).run schedule) := by
  have hcoherent := (coherent_start calls).run schedule
  rw [List.nil_append] at hcoherent
  have hled := (led_start calls).run schedule
  generalize (start calls).run schedule = s at hcoherent hled
  generalize (start calls).given schedule = given at hcoherent
  refine
    { length_given_le_one := hcoherent.keeps.length_le_one
      initializing_unique := hcoherent.initializing_unique
      returned := fun hcall ho => (hcoherent.of_returned (hled.returned hcall ho)).2.2
      answered := fun {i o} hcall ho => ?_
      answered_after := fun {i j init r} hcall ho hget later o hlater => ?_
      raised := hled.raised
      open_of_raised := hcoherent.turn_raises
      filled_of_open := fun {j a} hset hlocked hj => ?_
      settled := fun hset later => ?_ }
  · obtain ⟨r, hr, rfl⟩ := hled.answered hcall ho
    rcases hcoherent.of_answered hr with rfl | ⟨a, hgiven, rfl⟩
    · exact .inl rfl
    · exact .inr ⟨a, hgiven, rfl⟩
  · obtain ⟨hset, hvalue, -⟩ := hcoherent.of_returned (hled.returned hcall ho)
    rw [← hvalue]
    exact hcoherent.outcome_of_get hset hget hlater
  · have hlt := (List.getElem?_eq_some_iff.mp hj).1
    rw [outcomeAt, run_alone hset hlocked hj, List.getElem?_set_self hlt]
    exact ⟨rfl, rfl⟩
  · obtain ⟨hset', -, hcalls, hlater⟩ := hcoherent.run_of_initialized hset later
    exact ⟨hcalls, hlater.not_isInitializing hset'⟩

/-- A cell may hold a value that stands for nothing: it is set all the same, and the second
initializer does not run. -/
example :
    let s := (start [.getOrInit (.ok none), .getOrInit (.ok (some 3)), .get] :
      System String (Option Nat)).run ([2] ++ List.replicate 8 0 ++ [1, 1])
    s.outcomes? = some [.ok (some none), .ok (some none), .ok none] ∧ s.initCalls = 1 :=
  ⟨rfl, rfl⟩

end System

end MarketRegistry
