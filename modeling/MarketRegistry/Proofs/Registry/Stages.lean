import MarketRegistry.Proofs.Registry.Runs

/-!
# Builds stage by stage

A registry is built from two dumps in four stages: the spot dump is cut into tokens and decoded,
then the perp dump is. Whether a stage fails can be told from its dump alone, and the first stage
that fails decides. A record is written for each dump as soon as it is cut, so the log tells how
far the build came.

## Main definitions

* `FailsToCut`, `MarketKind.FailsToDecode` — the two ways in which a dump may fail.
* `Stage`, `Stage.FailsFirst` — the stages, and the first one that fails.
* `Recorded` — dumps and the records that they leave.
* `Registry.BuiltInStages` — what holds of a build from two dumps.

## Main results

* `loadDump_of_cut`, `loadDump_of_not_cut` — what comes of one dump.
* `Stage.FailsFirst.unique` — one stage at most is the first that fails, with one failure.
* `Registry.ofDumps_cases` — a build fails as its first stage that fails, or it succeeds.
* `Registry.built_in_stages` — outcome, log and parts of every build from two dumps.
-/

namespace MarketRegistry

variable {α : Type} {kind : MarketKind α} {dump spot perp : List Char} {ts : List Token}
  {e e' : Failure}

/-! ### Logged steps -/

section Logged

variable {ε β γ : Type} {x : Logged ε β} {f : β → Logged ε γ}

theorem Logged.bind_of_ok {b : β} (h : x.outcome = .ok b) :
    (x >>= f) = ⟨x.log ++ (f b).log, (f b).outcome⟩ := by
  obtain ⟨log, outcome⟩ := x
  subst h
  rfl

theorem Logged.bind_of_error {e : ε} (h : x.outcome = .error e) :
    (x >>= f) = ⟨x.log, .error e⟩ := by
  obtain ⟨log, outcome⟩ := x
  subst h
  rfl

end Logged

/-! ### One dump -/

/-- The **record of a dump**, given by its tokens: how many unit variants are collapsed in it, and
how many literals are reinterpreted after that. -/
def recordOf (ts : List Token) : LogRecord :=
  .normalized (collapse ts).count (reinterpret (collapse ts).tokens).count

/-- A dump **fails to be cut**: one of its quotes has no partner. -/
def FailsToCut (dump : List Char) (e : Failure) : Prop :=
  ∃ s, tokenize dump = .error s ∧ e = .config (.unterminated s)

/-- A dump that can be cut **fails to be decoded**. -/
def MarketKind.FailsToDecode (kind : MarketKind α) (dump : List Char) (e : Failure) : Prop :=
  ∃ ts, tokenize dump = .ok ts ∧ decodeBundle kind (normalizeTokens ts).text = .error e

/-- Dumps that are cut, one after another, and **the records** that they leave. -/
def Recorded (dumps : List (List Char)) (log : List LogRecord) : Prop :=
  List.Forall₂ (fun dump record => ∃ ts, tokenize dump = .ok ts ∧ record = recordOf ts) dumps log

/-- A record **for debugging**, told from its line. -/
def LogRecord.IsDebug (record : LogRecord) : Prop :=
  (∃ text, record.line = "DEBUG " ++ text) ∧ ∀ text, record.line ≠ "INFO " ++ text

theorem LogRecord.isDebug_normalized (collapsed converted : Nat) :
    (LogRecord.normalized collapsed converted).IsDebug := by
  have hline : ∃ text, (LogRecord.normalized collapsed converted).line = "DEBUG " ++ text := by
    have hwords : (LogRecord.normalized collapsed converted).line =
        s!"DEBUG normalized market bundle: {collapsed} enum variants collapsed, " ++
          s!"{converted} literals reinterpreted" := rfl
    have hstart : toString "DEBUG normalized market bundle: " =
        "DEBUG " ++ "normalized market bundle: " := by
      decide +kernel
    rw [hwords, hstart]
    simp only [String.append_assoc]
    exact ⟨_, rfl⟩
  refine ⟨hline, fun text hinfo => ?_⟩
  obtain ⟨debug, hdebug⟩ := hline
  have hchars := congrArg String.toList (hdebug.symm.trans hinfo)
  rw [String.toList_append, String.toList_append] at hchars
  exact absurd (List.cons.inj hchars).1 (by decide)

theorem Recorded.isDebug {dumps : List (List Char)} {log : List LogRecord}
    (h : Recorded dumps log) : ∀ record ∈ log, record.IsDebug := by
  induction h with
  | nil => exact nofun
  | cons hrecord _ ih =>
      obtain ⟨ts, -, rfl⟩ := hrecord
      exact List.forall_mem_cons.mpr ⟨LogRecord.isDebug_normalized _ _, ih⟩

/-- A dump that is not cut leaves no record. -/
theorem loadDump_of_not_cut (kind : MarketKind α) {s : UnterminatedString}
    (h : tokenize dump = .error s) :
    loadDump kind dump = ⟨[], .error (.config (.unterminated s))⟩ := by
  have hnormalize : normalize dump = ⟨[], .error s⟩ := by
    rw [normalize, h]
    rfl
  rw [loadDump, hnormalize]
  rfl

/-- **A dump that is cut** leaves its record, whether it is decoded or not. -/
theorem loadDump_of_cut (kind : MarketKind α) (h : tokenize dump = .ok ts) :
    loadDump kind dump = ⟨[recordOf ts], decodeBundle kind (normalizeTokens ts).text⟩ := by
  have hnormalize : normalize dump = ⟨[recordOf ts], .ok (normalizeTokens ts).text⟩ := by
    rw [normalize, h]
    rfl
  rw [loadDump, hnormalize]
  rfl

theorem FailsToCut.unique (h : FailsToCut dump e) (h' : FailsToCut dump e') : e = e' := by
  obtain ⟨s, hs, rfl⟩ := h
  obtain ⟨s', hs', rfl⟩ := h'
  rw [hs] at hs'
  cases hs'
  rfl

theorem MarketKind.FailsToDecode.unique (h : kind.FailsToDecode dump e)
    (h' : kind.FailsToDecode dump e') : e = e' := by
  obtain ⟨ts, hts, he⟩ := h
  obtain ⟨ts', hts', he'⟩ := h'
  rw [hts] at hts'
  cases hts'
  exact Except.error.inj (he.symm.trans he')

theorem not_failsToCut (h : tokenize dump = .ok ts) : ¬FailsToCut dump e := by
  rintro ⟨s, hs, -⟩
  rw [h] at hs
  cases hs

theorem FailsToCut.outcome_loadDump (h : FailsToCut dump e) (kind : MarketKind α) :
    (loadDump kind dump).outcome = .error e := by
  obtain ⟨s, hs, rfl⟩ := h
  rw [loadDump_of_not_cut kind hs]

theorem MarketKind.FailsToDecode.outcome_loadDump (h : kind.FailsToDecode dump e) :
    (loadDump kind dump).outcome = .error e := by
  obtain ⟨ts, hts, he⟩ := h
  rw [loadDump_of_cut kind hts, he]

/-- **What comes of a dump**: it fails to be cut, it fails to be decoded, or it is loaded. -/
theorem loadDump_cases (kind : MarketKind α) (dump : List Char) :
    (∃ e, FailsToCut dump e ∧ loadDump kind dump = ⟨[], .error e⟩) ∨
      (∃ ts, tokenize dump = .ok ts ∧
        ((∃ e, kind.FailsToDecode dump e ∧ loadDump kind dump = ⟨[recordOf ts], .error e⟩) ∨
          ∃ markets, loadDump kind dump = ⟨[recordOf ts], .ok markets⟩)) := by
  cases hts : tokenize dump with
  | error s => exact .inl ⟨_, ⟨s, hts, rfl⟩, loadDump_of_not_cut kind hts⟩
  | ok ts =>
      refine .inr ⟨ts, rfl, ?_⟩
      rw [loadDump_of_cut kind hts]
      cases hmarkets : decodeBundle kind (normalizeTokens ts).text with
      | error e => exact .inl ⟨e, ⟨ts, hts, hmarkets⟩, rfl⟩
      | ok markets => exact .inr ⟨markets, rfl⟩

/-! ### Stages -/

/-- The **stages** of a build from two dumps. -/
inductive Stage where
  | cutSpot
  | decodeSpot
  | cutPerp
  | decodePerp
  deriving DecidableEq

namespace Stage

/-- The stages in their order. -/
def order : List Stage :=
  [cutSpot, decodeSpot, cutPerp, decodePerp]

/-- The stages before a stage. -/
def earlier (s : Stage) : List Stage :=
  order.takeWhile (· != s)

/-- A stage **fails**, which its dump alone decides. -/
def Fails (spot perp : List Char) : Stage → Failure → Prop
  | cutSpot => FailsToCut spot
  | decodeSpot => MarketKind.spot.FailsToDecode spot
  | cutPerp => FailsToCut perp
  | decodePerp => MarketKind.perp.FailsToDecode perp

/-- A stage is **the first that fails**. -/
def FailsFirst (spot perp : List Char) (s : Stage) (e : Failure) : Prop :=
  s.Fails spot perp e ∧ ∀ t ∈ s.earlier, ∀ e', ¬t.Fails spot perp e'

/-- The dumps that are cut before a stage, spot before perp. -/
def cutBefore (spot perp : List Char) : Stage → List (List Char)
  | cutSpot => []
  | decodeSpot | cutPerp => [spot]
  | decodePerp => [spot, perp]

/-- Of two stages, one comes before the other. -/
theorem mem_earlier_of_ne {s t : Stage} (h : s ≠ t) : s ∈ t.earlier ∨ t ∈ s.earlier := by
  revert h
  cases s <;> cases t <;> decide

theorem Fails.unique {s : Stage} (h : s.Fails spot perp e) (h' : s.Fails spot perp e') :
    e = e' := by
  cases s with
  | cutSpot | cutPerp => exact FailsToCut.unique h h'
  | decodeSpot | decodePerp => exact MarketKind.FailsToDecode.unique h h'

/-- No stage fails if both dumps are loaded. -/
theorem not_fails {spots : List SpotMarket} {perps : List PerpMarket}
    (hspot : (loadDump .spot spot).outcome = .ok spots)
    (hperp : (loadDump .perp perp).outcome = .ok perps) (s : Stage) : ¬s.Fails spot perp e := by
  intro h
  cases s with
  | cutSpot => exact nomatch hspot.symm.trans (FailsToCut.outcome_loadDump h .spot)
  | decodeSpot => exact nomatch hspot.symm.trans (MarketKind.FailsToDecode.outcome_loadDump h)
  | cutPerp => exact nomatch hperp.symm.trans (FailsToCut.outcome_loadDump h .perp)
  | decodePerp => exact nomatch hperp.symm.trans (MarketKind.FailsToDecode.outcome_loadDump h)

/-- **One stage at most** is the first that fails, with one failure. -/
theorem FailsFirst.unique {s t : Stage} (h : s.FailsFirst spot perp e)
    (h' : t.FailsFirst spot perp e') : s = t ∧ e = e' := by
  by_cases hst : s = t
  · subst hst
    exact ⟨rfl, h.1.unique h'.1⟩
  · rcases mem_earlier_of_ne hst with hs | ht
    · exact absurd h.1 (h'.2 s hs e)
    · exact absurd h'.1 (h.2 t ht e')

end Stage

namespace Registry

variable {table : LookupTable} {r : Registry}

/-! ### Two dumps -/

/-- A build ends with the spot dump if that is not loaded. -/
theorem ofDumps_of_error (h : (loadDump .spot spot).outcome = .error e) (perp : List Char)
    (table : LookupTable) :
    ofDumps spot perp table = ⟨(loadDump .spot spot).log, .error e⟩ :=
  Logged.bind_of_error h

/-- A build goes on with the perp dump if the spot dump is loaded. -/
theorem ofDumps_of_ok {spots : List SpotMarket} (h : (loadDump .spot spot).outcome = .ok spots)
    (perp : List Char) (table : LookupTable) :
    ofDumps spot perp table = ⟨(loadDump .spot spot).log ++ (loadDump .perp perp).log,
      (loadDump .perp perp).outcome.map fun perps => ⟨spots, perps, table⟩⟩ := by
  rw [ofDumps, Logged.bind_of_ok h]
  cases hperp : (loadDump .perp perp).outcome with
  | error e =>
      rw [Logged.bind_of_error hperp]
      rfl
  | ok perps =>
      rw [Logged.bind_of_ok hperp]
      exact congrArg (fun log => Logged.mk ((loadDump .spot spot).log ++ log) _)
        (List.append_nil _)

/-- **A build** fails as its first stage that fails, with the records of the dumps that are cut
before it, or it succeeds with the records of both dumps. -/
theorem ofDumps_cases (spot perp : List Char) (table : LookupTable) :
    (∃ s e, Stage.FailsFirst spot perp s e ∧ (ofDumps spot perp table).outcome = .error e ∧
        Recorded (s.cutBefore spot perp) (ofDumps spot perp table).log) ∨
      ∃ spots perps, (loadDump .spot spot).outcome = .ok spots ∧
        (loadDump .perp perp).outcome = .ok perps ∧
        (ofDumps spot perp table).outcome = .ok ⟨spots, perps, table⟩ ∧
        Recorded [spot, perp] (ofDumps spot perp table).log := by
  -- the stages in order, each with the earlier ones ruled out
  obtain ⟨e, he, hspot⟩ | ⟨ts, hts, ⟨e, he, hspot⟩ | ⟨spots, hspot⟩⟩ := loadDump_cases .spot spot
  · refine .inl ⟨.cutSpot, e, ⟨he, nofun⟩, ?_⟩
    rw [ofDumps_of_error (by rw [hspot]), hspot]
    exact ⟨rfl, .nil⟩
  · have hcut : ∀ t ∈ [Stage.cutSpot], ∀ e', ¬t.Fails spot perp e' :=
      List.forall_mem_singleton.mpr fun _ => not_failsToCut hts
    refine .inl ⟨.decodeSpot, e, ⟨he, hcut⟩, ?_⟩
    rw [ofDumps_of_error (by rw [hspot]), hspot]
    exact ⟨rfl, .cons ⟨ts, hts, rfl⟩ .nil⟩
  · have hloaded : (loadDump .spot spot).outcome = .ok spots := by rw [hspot]
    have hcut : ∀ e', ¬Stage.cutSpot.Fails spot perp e' := fun _ => not_failsToCut hts
    have hdecoded : ∀ e', ¬Stage.decodeSpot.Fails spot perp e' := fun _ he =>
      nomatch hloaded.symm.trans (MarketKind.FailsToDecode.outcome_loadDump he)
    rw [ofDumps_of_ok hloaded, hspot]
    obtain ⟨e, he, hperp⟩ | ⟨us, hus, ⟨e, he, hperp⟩ | ⟨perps, hperp⟩⟩ := loadDump_cases .perp perp
    · have hearlier : ∀ t ∈ [Stage.cutSpot, .decodeSpot], ∀ e', ¬t.Fails spot perp e' :=
        List.forall_mem_cons.mpr ⟨hcut, List.forall_mem_singleton.mpr hdecoded⟩
      refine .inl ⟨.cutPerp, e, ⟨he, hearlier⟩, ?_⟩
      rw [hperp]
      exact ⟨rfl, .cons ⟨ts, hts, rfl⟩ .nil⟩
    · have hearlier : ∀ t ∈ [Stage.cutSpot, .decodeSpot, .cutPerp], ∀ e',
          ¬t.Fails spot perp e' :=
        List.forall_mem_cons.mpr ⟨hcut, List.forall_mem_cons.mpr
          ⟨hdecoded, List.forall_mem_singleton.mpr fun _ => not_failsToCut hus⟩⟩
      refine .inl ⟨.decodePerp, e, ⟨he, hearlier⟩, ?_⟩
      rw [hperp]
      exact ⟨rfl, .cons ⟨ts, hts, rfl⟩ (.cons ⟨us, hus, rfl⟩ .nil)⟩
    · refine .inr ⟨spots, perps, rfl, by rw [hperp], ?_⟩
      rw [hperp]
      exact ⟨rfl, .cons ⟨ts, hts, rfl⟩ (.cons ⟨us, hus, rfl⟩ .nil)⟩

/-- What holds of a **build from two dumps**. -/
structure BuiltInStages (spot perp : List Char) (table : LookupTable) : Prop where
  /-- It fails as the first stage that fails. -/
  outcome_eq_error_iff : ∀ e, (ofDumps spot perp table).outcome = .error e ↔
    ∃ s, Stage.FailsFirst spot perp s e
  /-- It succeeds if each dump is loaded on its own, with the markets of each. -/
  outcome_eq_ok_iff : ∀ r, (ofDumps spot perp table).outcome = .ok r ↔
    (loadDump .spot spot).outcome = .ok r.spotMarkets ∧
      (loadDump .perp perp).outcome = .ok r.perpMarkets ∧ r.lookupTable = table
  succeeds_iff : (∃ r, (ofDumps spot perp table).outcome = .ok r) ↔
    (∃ spots, (loadDump .spot spot).outcome = .ok spots) ∧
      ∃ perps, (loadDump .perp perp).outcome = .ok perps
  /-- If it fails, there is a record for each dump that is cut before the stage. -/
  log_of_failsFirst : ∀ s e, Stage.FailsFirst spot perp s e →
    Recorded (s.cutBefore spot perp) (ofDumps spot perp table).log
  /-- If it succeeds, there is a record for each dump. -/
  log_of_ok : ∀ r, (ofDumps spot perp table).outcome = .ok r →
    Recorded [spot, perp] (ofDumps spot perp table).log
  /-- All its records are for debugging. -/
  debug : ∀ record ∈ (ofDumps spot perp table).log, record.IsDebug
  /-- If the spot dump is not loaded, the failure and the records are the same with any perp
  dump. -/
  spot_decides : ∀ e, (loadDump .spot spot).outcome = .error e → ∀ perp' table',
    ofDumps spot perp' table' = ⟨(loadDump .spot spot).log, .error e⟩
  /-- If it fails, the current registry stays. -/
  after_of_error : ∀ e, (ofDumps spot perp table).outcome = .error e → ∀ current : Registry,
    current.after (.ofDumps spot perp table) = current
  /-- The spot markets depend on the spot dump only. -/
  spotMarkets_eq : ∀ perp' table' r r', (ofDumps spot perp table).outcome = .ok r →
    (ofDumps spot perp' table').outcome = .ok r' → r.spotMarkets = r'.spotMarkets
  /-- The perp markets depend on the perp dump only. -/
  perpMarkets_eq : ∀ spot' table' r r', (ofDumps spot perp table).outcome = .ok r →
    (ofDumps spot' perp table').outcome = .ok r' → r.perpMarkets = r'.perpMarkets

theorem outcome_eq_ok_iff : (ofDumps spot perp table).outcome = .ok r ↔
    (loadDump .spot spot).outcome = .ok r.spotMarkets ∧
      (loadDump .perp perp).outcome = .ok r.perpMarkets ∧ r.lookupTable = table := by
  constructor
  · intro h
    obtain ⟨spots, hspot, h⟩ := Logged.outcome_bind_eq_ok_iff.mp h
    obtain ⟨perps, hperp, h⟩ := Logged.outcome_bind_eq_ok_iff.mp h
    obtain rfl := Except.ok.inj h
    exact ⟨hspot, hperp, rfl⟩
  · rintro ⟨hspot, hperp, rfl⟩
    rw [ofDumps_of_ok hspot, hperp]
    rfl

/-- A stage that fails first decides outcome and log. -/
theorem of_failsFirst {s : Stage} (h : s.FailsFirst spot perp e) :
    (ofDumps spot perp table).outcome = .error e ∧
      Recorded (s.cutBefore spot perp) (ofDumps spot perp table).log := by
  obtain ⟨s', e', h', houtcome, hlog⟩ | ⟨spots, perps, hspot, hperp, -⟩ :=
    ofDumps_cases spot perp table
  · obtain ⟨rfl, rfl⟩ := h.unique h'
    exact ⟨houtcome, hlog⟩
  · exact absurd h.1 (Stage.not_fails hspot hperp s)

/-- **Builds go stage by stage.** A build from two dumps fails exactly as its first stage that
fails, and else has the markets of both dumps, each of which depends on its own dump only. The
log holds one record, for debugging, for each dump that is cut by then, with the counts of that
dump. A failure of the spot dump is the same with any perp dump, and no failure leaves another
registry behind. -/
theorem built_in_stages (spot perp : List Char) (table : LookupTable) :
    BuiltInStages spot perp table where
  outcome_eq_error_iff := by
    intro e
    refine ⟨fun h => ?_, fun ⟨s, hs⟩ => (of_failsFirst hs).1⟩
    obtain ⟨s, e', hs, he', -⟩ | ⟨spots, perps, -, -, hok, -⟩ := ofDumps_cases spot perp table
    · rw [h] at he'
      cases he'
      exact ⟨s, hs⟩
    · rw [h] at hok
      cases hok
  outcome_eq_ok_iff := fun r => outcome_eq_ok_iff
  succeeds_iff := by
    simp only [outcome_eq_ok_iff]
    constructor
    · rintro ⟨r, hspot, hperp, -⟩
      exact ⟨⟨_, hspot⟩, _, hperp⟩
    · rintro ⟨⟨spots, hspot⟩, perps, hperp⟩
      exact ⟨⟨spots, perps, table⟩, hspot, hperp, rfl⟩
  log_of_failsFirst := fun s e h => (of_failsFirst h).2
  log_of_ok := by
    intro r hr
    obtain ⟨s, e, -, he, -⟩ | ⟨spots, perps, -, -, -, hlog⟩ := ofDumps_cases spot perp table
    · rw [hr] at he
      cases he
    · exact hlog
  debug := by
    obtain ⟨s, e, -, -, hlog⟩ | ⟨spots, perps, -, -, -, hlog⟩ := ofDumps_cases spot perp table
    · exact hlog.isDebug
    · exact hlog.isDebug
  spot_decides := fun e h => ofDumps_of_error h
  after_of_error := by
    intro e h current
    have hidle : (Action.build (.ofDumps spot perp table)).Idle := ⟨e, h⟩
    exact step_of_idle hidle current
  spotMarkets_eq := by
    intro perp' table' r r' hr hr'
    exact Except.ok.inj ((outcome_eq_ok_iff.mp hr).1.symm.trans (outcome_eq_ok_iff.mp hr').1)
  perpMarkets_eq := by
    intro spot' table' r r' hr hr'
    exact Except.ok.inj
      ((outcome_eq_ok_iff.mp hr).2.1.symm.trans (outcome_eq_ok_iff.mp hr').2.1)

/-- A perp dump that is not cut leaves the record of the spot dump. -/
example : (ofDumps "[\x7b\"a\":\x7b\x7d\x7d]".toList "[\"]".toList .empty).log =
    [.normalized 1 0] := by decide +kernel

end Registry

end MarketRegistry
