import MarketRegistry.Proofs.Market.InPlace
import Mathlib.Data.List.Induction

/-!
# Runs of the registry

A program builds registries in any of the four ways and asks the current one questions in
between. Whatever it does, the current registry is sound: every market stands at the place of
its index, which is where the questions look for it. Only a build that succeeds makes another
registry the current one.

## Main definitions

* `Indexed` — markets at the places of their indexes, and the questions that find them.
* `Registry.Sound` — what holds of the current registry at any time.
* `Action`, `Registry.run`, `Registry.replies` — runs, and what comes of their actions.
* `Action.Idle` — questions, and builds that fail.

## Main results

* `Registry.sound_of_build` — every build that succeeds makes a sound registry.
* `Registry.Sound.step`, `Registry.sound_run` — every action, and every run, keeps it so.
* `Registry.runs_soundly` — every run leaves a sound registry, and idle actions change nothing.
-/

namespace MarketRegistry

variable {α : Type} {index : α → Int} {markets : List α} {r : Registry}

/-! ### Markets at their places -/

/-- **Markets at the places of their indexes**, with the question that looks one up by its
index. -/
structure Indexed (index : α → Int) (markets : List α) (find? : Int → Option α) : Prop where
  /-- The place of a market is its index. -/
  index_eq : ∀ {i : Nat} {m : α}, markets[i]? = some m → index m = i
  /-- An index of the list finds the market at its place. -/
  find?_of_lt : ∀ {i : Nat}, i < markets.length → find? i = markets[i]?
  /-- Only those do. -/
  find?_eq_none_iff : ∀ {i : Int}, find? i = none ↔ ¬(0 ≤ i ∧ i < markets.length)
  /-- What is found by an index has that index. -/
  index_of_find? : ∀ {i : Int} {m : α}, find? i = some m → index m = i

theorem Registry.at?_eq_some_iff {i : Int} {m : α} :
    at? markets i = some m ↔ ∃ n : Nat, i = n ∧ markets[n]? = some m := by
  rw [at?]
  split
  · rename_i hneg
    refine iff_of_false nofun ?_
    rintro ⟨n, rfl, -⟩
    omega
  · rename_i hnonneg
    constructor
    · intro h
      exact ⟨i.toNat, by omega, h⟩
    · rintro ⟨n, rfl, h⟩
      exact h

/-- Markets at the places of their indexes are found there. -/
theorem indexed_at? (h : ∀ {i : Nat} {m : α}, markets[i]? = some m → index m = i) :
    Indexed index markets (Registry.at? markets) where
  index_eq := h
  find?_of_lt := by
    intro i hi
    rw [List.getElem?_eq_getElem hi]
    exact Registry.at?_eq_some_iff.mpr ⟨i, rfl, List.getElem?_eq_getElem hi⟩
  find?_eq_none_iff := by
    intro i
    rw [← not_iff_not, not_not, ← ne_eq, Option.ne_none_iff_exists']
    simp only [Registry.at?_eq_some_iff]
    constructor
    · rintro ⟨m, n, rfl, hm⟩
      obtain ⟨hn, -⟩ := List.getElem?_eq_some_iff.mp hm
      omega
    · rintro ⟨hnonneg, hlt⟩
      have hn : i.toNat < markets.length := by omega
      exact ⟨markets[i.toNat], i.toNat, by omega, List.getElem?_eq_getElem hn⟩
  index_of_find? := by
    intro i m hm
    obtain ⟨n, rfl, hn⟩ := Registry.at?_eq_some_iff.mp hm
    exact h hn

/-- One logged computation after another succeeds when both do. -/
theorem Logged.outcome_bind_eq_ok_iff {ε β γ : Type} {x : Logged ε β} {f : β → Logged ε γ} {c : γ} :
    (x >>= f).outcome = .ok c ↔ ∃ b, x.outcome = .ok b ∧ (f b).outcome = .ok c := by
  rw [Logged.outcome_bind, bind_eq_ok_iff]

/-- A loaded dump has its markets at the places of their indexes. -/
theorem index_of_loadDump {kind : MarketKind α} {place : Int → Address → α → α}
    (hkind : kind.Lawful place) (hindex : ∀ i a m, index (place i a m) = i) {dump : List Char}
    (h : (loadDump kind dump).outcome = .ok markets) {i : Nat} {m : α}
    (hm : markets[i]? = some m) : index m = i := by
  obtain ⟨text, -, htext⟩ := Logged.outcome_bind_eq_ok_iff.mp h
  exact MarketKind.index_of_decodeBundleWithin hkind hindex htext hm

namespace Registry

/-! ### Sound registries -/

/-- A **sound registry**: its markets stand at the places of their indexes, spot and perp, and it
is initialized unless it holds no market and has the zero address as key. -/
structure Sound (r : Registry) : Prop where
  spot : Indexed SpotMarket.marketIndex r.spotMarkets r.spotMarketAt?
  perp : Indexed PerpMarket.marketIndex r.perpMarkets r.perpMarketAt?
  isInitialized_eq_false_iff : r.isInitialized = false ↔
    r.spotMarkets = [] ∧ r.perpMarkets = [] ∧ r.lookupTable.key = .zero

theorem sound_of_index
    (hspot : ∀ {i : Nat} {m : SpotMarket}, r.spotMarkets[i]? = some m → m.marketIndex = i)
    (hperp : ∀ {i : Nat} {m : PerpMarket}, r.perpMarkets[i]? = some m → m.marketIndex = i) :
    r.Sound where
  spot := indexed_at? hspot
  perp := indexed_at? hperp
  isInitialized_eq_false_iff := by
    rw [isInitialized, Bool.not_eq_false', Bool.and_eq_true, Bool.and_eq_true, beq_iff_eq,
      List.isEmpty_iff, List.isEmpty_iff]
    constructor
    · rintro ⟨⟨hkey, hspots⟩, hperps⟩
      exact ⟨hspots, hperps, hkey⟩
    · rintro ⟨hspots, hperps, hkey⟩
      exact ⟨⟨hkey, hspots⟩, hperps⟩

theorem sound_empty : empty.Sound :=
  sound_of_index nofun nofun

/-- What is built from two dumps is sound. -/
theorem sound_of_ofDumps {spot perp : List Char} {table : LookupTable}
    (h : (ofDumps spot perp table).outcome = .ok r) : r.Sound := by
  obtain ⟨spots, hspots, h⟩ := Logged.outcome_bind_eq_ok_iff.mp h
  obtain ⟨perps, hperps, h⟩ := Logged.outcome_bind_eq_ok_iff.mp h
  obtain rfl := Except.ok.inj h
  exact sound_of_index (index_of_loadDump MarketKind.lawful_spot (fun _ _ _ => rfl) hspots)
    (index_of_loadDump MarketKind.lawful_perp (fun _ _ _ => rfl) hperps)

/-- What is built from the bundled dumps of a network is built from two dumps. -/
theorem exists_ofDumps_of_ofNetwork {context : Context} {table : LookupTable}
    (h : (ofNetwork context table).outcome = .ok r) :
    ∃ spot perp, (ofDumps spot perp table).outcome = .ok r := by
  obtain ⟨spot, -, h⟩ := Logged.outcome_bind_eq_ok_iff.mp h
  obtain ⟨perp, -, h⟩ := Logged.outcome_bind_eq_ok_iff.mp h
  obtain ⟨registry, hregistry, h⟩ := Logged.outcome_bind_eq_ok_iff.mp h
  obtain ⟨env, -, h⟩ := Logged.outcome_bind_eq_ok_iff.mp h
  obtain ⟨-, -, h⟩ := Logged.outcome_bind_eq_ok_iff.mp h
  obtain rfl := Except.ok.inj h
  exact ⟨spot, perp, hregistry⟩

/-- What is built with a lookup table on the chain is built from the bundled dumps. -/
theorem exists_ofNetwork_of_load {connection : Connection} {context : Context}
    (h : (load connection context).outcome = .ok r) :
    ∃ table, (ofNetwork context table).outcome = .ok r := by
  obtain ⟨key, -, h⟩ := Logged.outcome_bind_eq_ok_iff.mp h
  split at h
  · rename_i table _
    exact ⟨table, h⟩
  · cases h

/-- **Every build that succeeds** makes a sound registry. -/
theorem sound_of_build {build : Build} (h : build.run.outcome = .ok r) : r.Sound := by
  cases build with
  | empty =>
      obtain rfl := Except.ok.inj h
      exact sound_empty
  | ofDumps spot perp table => exact sound_of_ofDumps h
  | ofNetwork context table =>
      obtain ⟨spot, perp, h⟩ := exists_ofDumps_of_ofNetwork h
      exact sound_of_ofDumps h
  | load connection context =>
      obtain ⟨table, h⟩ := exists_ofNetwork_of_load h
      obtain ⟨spot, perp, h⟩ := exists_ofDumps_of_ofNetwork h
      exact sound_of_ofDumps h

end Registry

/-! ### Runs -/

/-- An **action** of a program: a build, or a question to the current registry. -/
inductive Action where
  | build (b : Build)
  | isInitialized
  | spotMarkets
  | perpMarkets
  | spotMarketAt (index : Int)
  | perpMarketAt (index : Int)

/-- What comes of an action: whether a build succeeded, or the answer to a question. -/
inductive Reply where
  | built (outcome : Except Failure Unit)
  | initialized (answer : Bool)
  | spotMarkets (markets : List SpotMarket)
  | perpMarkets (markets : List PerpMarket)
  | spotMarket (found : Option SpotMarket)
  | perpMarket (found : Option PerpMarket)

/-- An **idle** action: a question, or a build that fails. -/
def Action.Idle : Action → Prop
  | .build b => ∃ e, b.run.outcome = .error e
  | _ => True

namespace Registry

/-- The current registry after an action. -/
def step (r : Registry) : Action → Registry
  | .build b => r.after b
  | _ => r

/-- What comes of an action when a registry is current. -/
def reply (r : Registry) : Action → Reply
  | .build b => .built (b.run.outcome.map fun _ => ())
  | .isInitialized => .initialized r.isInitialized
  | .spotMarkets => .spotMarkets r.spotMarkets
  | .perpMarkets => .perpMarkets r.perpMarkets
  | .spotMarketAt i => .spotMarket (r.spotMarketAt? i)
  | .perpMarketAt i => .perpMarket (r.perpMarketAt? i)

/-- The current registry after a **run** of actions. -/
def run (r : Registry) (actions : List Action) : Registry :=
  actions.foldl step r

/-- What comes of the actions of a run, one after another. -/
def replies (r : Registry) : List Action → List Reply
  | [] => []
  | action :: actions => r.reply action :: (r.step action).replies actions

variable {action : Action}

/-- **Every action** leaves a sound registry. -/
theorem Sound.step (h : r.Sound) (action : Action) : (r.step action).Sound := by
  cases action with
  | build b =>
      rw [Registry.step, after]
      split
      · rename_i registry hregistry
        exact sound_of_build hregistry
      · exact h
  | isInitialized | spotMarkets | perpMarkets | spotMarketAt _ | perpMarketAt _ => exact h

/-- **Every run** from nothing leaves a sound registry. -/
theorem sound_run (actions : List Action) : (empty.run actions).Sound := by
  induction actions using List.reverseRecOn with
  | nil => exact sound_empty
  | append_singleton actions action ih =>
      rw [run, List.foldl_append]
      exact ih.step action

/-- A build that succeeds makes its registry the current one. -/
theorem step_of_ok {build : Build} {registry : Registry} (h : build.run.outcome = .ok registry)
    (r : Registry) : r.step (.build build) = registry := by
  rw [step, after, h]

/-- An idle action leaves the current registry as it is. -/
theorem step_of_idle (h : action.Idle) (r : Registry) : r.step action = r := by
  cases action with
  | build b =>
      obtain ⟨e, he⟩ := h
      rw [step, after, he]
  | isInitialized | spotMarkets | perpMarkets | spotMarketAt _ | perpMarketAt _ => rfl

theorem replies_append (r : Registry) (before later : List Action) :
    r.replies (before ++ later) = r.replies before ++ (r.run before).replies later := by
  induction before generalizing r with
  | nil => rfl
  | cons action before ih =>
      rw [List.cons_append, replies, replies, ih, List.cons_append]
      rfl

/-- What holds of a **run from nothing**. -/
structure RunsSoundly (actions : List Action) : Prop where
  /-- The registry is sound afterwards. -/
  sound : (empty.run actions).Sound
  /-- A build that comes next and succeeds makes its registry the current one. -/
  step_of_ok : ∀ {build : Build} {registry : Registry}, build.run.outcome = .ok registry →
    (empty.run actions).step (.build build) = registry
  /-- An idle action that comes next leaves the registry as it is. -/
  step_of_idle : ∀ {action : Action}, action.Idle →
    (empty.run actions).step action = empty.run actions
  /-- Whatever comes later, the registry is then the same as without the idle action, and the
  same comes of every other action. -/
  later_of_idle : ∀ {action : Action} (later : List Action), action.Idle →
    empty.run (actions ++ action :: later) = empty.run (actions ++ later) ∧
      ∃ reply rest, empty.replies (actions ++ later) = empty.replies actions ++ rest ∧
        empty.replies (actions ++ action :: later) = empty.replies actions ++ reply :: rest

/-- **Every run is sound.** After any actions, failed builds and questions among them, every
market of the current registry stands at the place of its index and is found by it and by no
other integer, the registry is initialized unless it is as empty as the first one, and while a
build that succeeds puts its registry in the place of the current one, failed builds and
questions leave that, and all that comes of later actions, as they were. -/
theorem runs_soundly (actions : List Action) : RunsSoundly actions where
  sound := sound_run actions
  step_of_ok := fun h => step_of_ok h _
  step_of_idle := fun h => step_of_idle h _
  later_of_idle := by
    intro action later h
    have hstep := step_of_idle h (empty.run actions)
    constructor
    · rw [run, run, List.foldl_append, List.foldl_append, List.foldl_cons]
      exact congrArg (·.run later) hstep
    · refine ⟨(empty.run actions).reply action, (empty.run actions).replies later,
        replies_append _ _ _, ?_⟩
      rw [replies_append, replies, hstep]

end Registry

end MarketRegistry
