import Enfold.Foundation.Tiling
import Enfold.Temporal
import Enfold.TypedAnswers

/-! The world-time axis of typed state: a slot written by dated claims, each one newer than the value
it replaces. -/
namespace Enfold

open Fallible

variable {rt : Runtime} {l : Ledger} {s t : Store}

/-! ## The facts of a slot -/

def Ledger.slotFacts (l : Ledger) (scope subjectKey predicateKey : String) : List Fact :=
  l.facts.filter fun f => f.isState && f.inSlot scope subjectKey predicateKey

-- where the world-time interval of a fact starts, and where it stops
def Fact.begins (rt : Runtime) (f : Fact) : Int := (parseClock rt f.validFrom).getD 0

def Fact.ends (rt : Runtime) (f : Fact) : Option Int := parseClock rt f.validTo

/-- `[valid_from, valid_to)` contains the instant. -/
def Fact.Spans (rt : Runtime) (point : Int) (f : Fact) : Prop :=
  (∃ start, parseClock rt f.validFrom = some start ∧ start ≤ point) ∧
    ∀ stop, parseClock rt f.validTo = some stop → point < stop

section Slot
variable {scope subjectKey predicateKey : String}

theorem slotFactsSource {f : Fact} (h : f ∈ l.slotFacts scope subjectKey predicateKey) :
    f ∈ l.facts ∧ f.isState = true ∧ f.inSlot scope subjectKey predicateKey = true := by
  obtain ⟨mem, hit⟩ := List.mem_filter.mp h
  simp only [Bool.and_eq_true] at hit
  exact ⟨mem, hit⟩

theorem inSlotFacts {f : Fact} (mem : f ∈ l.facts) (state : f.isState = true)
    (slot : f.inSlot scope subjectKey predicateKey = true) :
    f ∈ l.slotFacts scope subjectKey predicateKey :=
  List.mem_filter.mpr ⟨mem, by simp [state, slot]⟩

theorem slotFactsInsert {g : Fact} (state : g.isState = true)
    (slot : g.inSlot scope subjectKey predicateKey = true) :
    (l.insert g).slotFacts scope subjectKey predicateKey =
      l.slotFacts scope subjectKey predicateKey ++ [g] := by
  simp [Ledger.slotFacts, Ledger.insert, state, slot]

theorem slotFactsRetire {target : Nat} {h : Fact → Fact}
    (kept : ∀ f, (h f).isState = f.isState ∧
      (h f).inSlot scope subjectKey predicateKey = f.inSlot scope subjectKey predicateKey) :
    (l.retire target h).slotFacts scope subjectKey predicateKey =
      (l.slotFacts scope subjectKey predicateKey).map fun f =>
        if decide (f.factId = target) then h f else f := by
  have same : (fun f : Fact => f.isState && f.inSlot scope subjectKey predicateKey) ∘
      (fun f : Fact => if decide (f.factId = target) then h f else f) =
      fun f : Fact => f.isState && f.inSlot scope subjectKey predicateKey := by
    funext f
    simp only [Function.comp_apply]
    split
    · rw [(kept f).1, (kept f).2]
    · rfl
  simp only [Ledger.slotFacts, Ledger.retire, Table.amend, List.filter_map, same]

end Slot

theorem spansCovers {f : Fact} {point : Int} (dated : (parseClock rt f.validFrom).isSome = true) :
    f.Spans rt point ↔ Tiling.Covers (Fact.begins rt) (Fact.ends rt) point f := by
  obtain ⟨start, begun⟩ := Option.isSome_iff_exists.mp dated
  simp [Fact.Spans, Tiling.Covers, Fact.begins, Fact.ends, begun]

/-! ## Chains of dated claims -/

/-- A dated, open-ended claim of the slot, valid from `start` on. -/
structure StateCandidate.DatedAt (rt : Runtime) (scope subjectKey predicateKey : String) (start : Int)
    (c : StateCandidate) : Prop where
  scope : c.scope = scope
  subject : c.subjectKey = subjectKey
  predicate : c.predicateKey = predicateKey
  starts : parseClock rt c.validFrom = some start
  endless : c.validTo = none

/-- A slot that no write had reached, then a dated claim, then dated claims that each superseded the
value before them by a strictly newer start; whatever happens elsewhere in between. -/
inductive DatedChain (rt : Runtime) (scope subjectKey predicateKey : String) (first : Int) :
    Int → Store → Prop
  | begins {ops : List (Operation rt)} {svc : WriteService} {context : ConnectionContext}
      {timed : TimedWrite rt} {c : StateCandidate} {t : Store} {outcome : WriteOutcome}
      (empty : (history ops).toLedger.slotFacts scope subjectKey predicateKey = [])
      (given : timed.item.candidate = some c)
      (dated : c.DatedAt rt scope subjectKey predicateKey first)
      (written : write rt svc context timed.clock (history ops) timed.item.request
        timed.item.candidate = .ok (t, outcome))
      (added : outcome.outcome = .add ∧ outcome.replayed = false) :
      DatedChain rt scope subjectKey predicateKey first first t
  | elsewhere {last : Int} {s t : Store} {o : Operation rt}
      (chain : DatedChain rt scope subjectKey predicateKey first last s) (done : o.perform s = .ok t)
      (untouched : t.toLedger.slotFacts scope subjectKey predicateKey =
        s.toLedger.slotFacts scope subjectKey predicateKey) :
      DatedChain rt scope subjectKey predicateKey first last t
  | supersedes {last start : Int} {s t : Store} {svc : WriteService} {context : ConnectionContext}
      {timed : TimedWrite rt} {c : StateCandidate} {outcome : WriteOutcome}
      (chain : DatedChain rt scope subjectKey predicateKey first last s)
      (given : timed.item.candidate = some c)
      (dated : c.DatedAt rt scope subjectKey predicateKey start) (newer : last < start)
      (written : write rt svc context timed.clock s timed.item.request timed.item.candidate =
        .ok (t, outcome))
      (superseded : outcome.outcome = .supersede ∧ outcome.replayed = false) :
      DatedChain rt scope subjectKey predicateKey first start t

-- the one value of the slot that stands
structure Fact.Standing (f : Fact) : Prop where
  current : f.current = true
  calm : f.conflictGroup = none
  unexpired : f.expiredAt = none
  endless : f.validTo = none

/-- The intervals of the slot follow each other from the first start on; all but the last are
expired. -/
structure Ledger.Chained (rt : Runtime) (first last : Int) (past : List Fact) (f : Fact) : Prop where
  standing : f.Standing
  gone : ∀ g ∈ past, g.expiredAt.isSome = true ∧ g.current = false
  dated : ∀ g ∈ past ++ [f], (parseClock rt g.validFrom).isSome = true
  tiles : Tiling.Tiles (Fact.begins rt) (Fact.ends rt) (past ++ [f])
  starts : ∃ g rest, past ++ [f] = g :: rest ∧ g.begins rt = first
  newest : f.begins rt = last

theorem typedStanding {request : WriteRequest} {effective : StateCandidate} {confidence : Option Rat}
    {factId : Nat} {clock : Clock} (endless : effective.validTo = none) :
    (request.typed effective none confidence factId clock).Standing where
  current := by simp [WriteRequest.typed, Fact.persistState, WriteRequest.row, Fact.current, endless]
  calm := rfl
  unexpired := rfl
  endless := endless

theorem datedEffective {request : WriteRequest} {c effective : StateCandidate} {start : Int}
    (starts : parseClock rt c.validFrom = some start)
    (h : effectiveCandidate rt request c = .ok effective) : effective = c := by
  have given : c.validFrom.isNone = false := by
    cases bare : c.validFrom with
    | none =>
      rw [bare] at starts
      cases starts
    | some text => rfl
  unfold effectiveCandidate at h
  rw [given] at h
  simp only [Bool.false_and, Bool.false_eq_true, if_false] at h
  exact (Except.ok.inj h).symm

theorem actionOf {kind : Outcome} {action wanted : DecisionAction} (answer : kind = action.outcome)
    (asked : kind = wanted.outcome) : action = wanted := by
  rw [asked] at answer
  cases action <;> cases wanted <;> first | rfl | cases answer

section Chain
variable {scope subjectKey predicateKey : String} {first last start : Int}

theorem typedInSlot {request : WriteRequest} {effective : StateCandidate} {confidence : Option Rat}
    {factId : Nat} {clock : Clock} (dated : effective.DatedAt rt scope subjectKey predicateKey start) :
    (request.typed effective none confidence factId clock).inSlot scope subjectKey predicateKey =
      true := by
  rw [← dated.scope, ← dated.subject, ← dated.predicate]
  exact typedSlot

theorem typedBegins {request : WriteRequest} {effective : StateCandidate} {confidence : Option Rat}
    {factId : Nat} {clock : Clock} (dated : effective.DatedAt rt scope subjectKey predicateKey start) :
    (request.typed effective none confidence factId clock).begins rt = start := by
  show (parseClock rt effective.validFrom).getD 0 = start
  rw [dated.starts]
  rfl

theorem typedEndless {request : WriteRequest} {effective : StateCandidate} {confidence : Option Rat}
    {factId : Nat} {clock : Clock} (dated : effective.DatedAt rt scope subjectKey predicateKey start) :
    (request.typed effective none confidence factId clock).ends rt = none := by
  show parseClock rt effective.validTo = none
  rw [dated.endless]
  rfl

theorem typedDated {request : WriteRequest} {effective : StateCandidate} {confidence : Option Rat}
    {factId : Nat} {clock : Clock} (dated : effective.DatedAt rt scope subjectKey predicateKey start) :
    (parseClock rt (request.typed effective none confidence factId clock).validFrom).isSome = true :=
  Option.isSome_iff_exists.mpr ⟨start, dated.starts⟩

theorem chainBegins {context : ConnectionContext} {timed : TimedWrite rt} {c : StateCandidate} {outcome : WriteOutcome}
    (empty : s.toLedger.slotFacts scope subjectKey predicateKey = [])
    (dated : c.DatedAt rt scope subjectKey predicateKey first)
    (added : outcome.outcome = .add ∧ outcome.replayed = false)
    (answer : TypedAnswer rt context timed c s t outcome) :
    ∃ f, t.toLedger.slotFacts scope subjectKey predicateKey = [f] ∧
      Ledger.Chained rt first first [] f := by
  cases answer with
  | replayed known facts again => cases added.2.symm.trans again
  | factless facts how => simp [added] at how
  | @applied policy effectiveContext d effective confidence free fresh dating built content choice kind
      decided effect =>
    generalize resolutionAuthority policy effectiveContext s.toLedger timed.item.request d = slot at *
    have action : slot.action = .add := actionOf kind added.1
    have same := datedEffective dated.starts dating
    subst same
    generalize t.toLedger = l' at effect ⊢
    cases effect with
    | evidence known => simp [SlotDecision.evidence, action] at known
    | add =>
      refine ⟨timed.item.request.typed effective none confidence s.nextFactId timed.clock, ?_, ?_⟩
      · rw [slotFactsInsert rfl (typedInSlot dated), empty, List.nil_append]
      · refine ⟨typedStanding dated.endless, fun g hg => (by cases hg), fun g hg => ?_,
          .last _ (typedEndless dated), ⟨_, [], rfl, typedBegins dated⟩, typedBegins dated⟩
        rw [List.mem_singleton.mp hg]
        exact typedDated dated
    | replace supersede => cases action.symm.trans supersede
    | dispute conflict => cases action.symm.trans conflict
    | join conflict => cases action.symm.trans conflict
    | settle supersede => cases action.symm.trans supersede

theorem chainedMeets {past : List Fact} {f existing : Fact} {rest : List Fact} {c : StateCandidate}
    (slot : l.slotFacts scope subjectKey predicateKey = past ++ [f])
    (chained : Ledger.Chained rt first last past f)
    (dated : c.DatedAt rt scope subjectKey predicateKey start)
    (meets : l.overlapping rt c = existing :: rest) : existing = f := by
  obtain ⟨mem, state, inside, believed⟩ := overlappingSource meets
  rw [dated.scope, dated.subject, dated.predicate] at inside
  have listed := inSlotFacts mem state inside
  rw [slot] at listed
  rcases List.mem_append.mp listed with old | this
  · have expired := (chained.gone existing old).1
    simp only [Fact.believed, Bool.and_eq_true, Option.isNone_iff_eq_none] at believed
    rw [believed.1] at expired
    cases expired
  · exact List.mem_singleton.mp this

theorem chainedCalm {past : List Fact} {f : Fact} {c : StateCandidate}
    (slot : l.slotFacts scope subjectKey predicateKey = past ++ [f])
    (chained : Ledger.Chained rt first last past f)
    (dated : c.DatedAt rt scope subjectKey predicateKey start) : l.contested c = false := by
  have only : l.currentIn c = [f] := by
    have narrowed : l.currentIn c = (l.slotFacts scope subjectKey predicateKey).filter fun g =>
        g.current && g.validTo.isNone := by
      simp only [Ledger.currentIn, Ledger.slotFacts, List.filter_filter, dated.scope, dated.subject,
        dated.predicate]
      exact List.filter_congr fun g _ => by rw [Bool.and_assoc, Bool.and_comm]
    have gone : past.filter (fun g => g.current && g.validTo.isNone) = [] :=
      List.filter_eq_nil_iff.mpr fun g hg => by simp [(chained.gone g hg).2]
    rw [narrowed, slot, List.filter_append, gone, List.nil_append]
    simp [chained.standing.current, chained.standing.endless]
  simp [Ledger.contested, only, chained.standing.calm]

theorem chainSupersedes {context : ConnectionContext} {timed : TimedWrite rt} {c : StateCandidate} {outcome : WriteOutcome}
    {past : List Fact} {f : Fact} (keyed : s.toLedger.Keyed)
    (slotted : s.toLedger.slotFacts scope subjectKey predicateKey = past ++ [f])
    (chained : Ledger.Chained rt first last past f)
    (dated : c.DatedAt rt scope subjectKey predicateKey start) (newer : last < start)
    (superseded : outcome.outcome = .supersede ∧ outcome.replayed = false)
    (answer : TypedAnswer rt context timed c s t outcome) :
    ∃ past' g, t.toLedger.slotFacts scope subjectKey predicateKey = past' ++ [g] ∧
      Ledger.Chained rt first start past' g := by
  cases answer with
  | replayed known facts again => cases superseded.2.symm.trans again
  | factless facts how => simp [superseded] at how
  | @applied policy effectiveContext d effective confidence free fresh dating built content choice kind
      decided effect =>
    generalize resolutionAuthority policy effectiveContext s.toLedger timed.item.request d = slot at *
    have action : slot.action = .supersede := actionOf kind superseded.1
    have same := datedEffective dated.starts dating
    subst same
    have calm := chainedCalm slotted chained dated
    have stored : f ∈ s.facts := (slotFactsSource (slotted ▸ List.mem_append_right _
      List.mem_cons_self : f ∈ s.toLedger.slotFacts scope subjectKey predicateKey)).1
    -- the decision was made against the standing value
    have against : slot.currentFactIds = [f.factId] ∧
        (slot.targetFactId = some f.factId ∨ (s.groupsOf [f.factId]).length = 1) := by
      cases decided with
      | add _ add => cases action.symm.trans add
      | dedup _ dedup => cases action.symm.trans dedup
      | contested dispute => cases calm.symm.trans dispute
      | against _ _ meets ids acts =>
        have this := chainedMeets slotted chained dated meets
        subst this
        refine ⟨ids, ?_⟩
        rcases acts with ⟨-, aimed⟩ | ⟨conflict, -⟩ | ⟨-, -, one⟩
        · exact .inl aimed
        · cases action.symm.trans conflict
        · exact .inr one
    have ungrouped : s.groupsOf [f.factId] = [] := by
      refine List.eq_nil_iff_forall_not_mem.mpr fun k inside => ?_
      obtain ⟨g, hg, id, group⟩ := groupsOfMem.mp inside
      have this : g = f := Table.uniqueEq keyed.factIds hg stored (List.mem_singleton.mp id)
      rw [this, chained.standing.calm] at group
      cases group
    generalize t.toLedger = l' at effect ⊢
    cases effect with
    | evidence known => simp [SlotDecision.evidence, action] at known
    | add _ calm => exact absurd action calm.1
    | @replace target old act aimed mem id =>
      have hit : target = f.factId := by
        rcases against.2 with here | one
        · exact Option.some.inj (aimed.symm.trans here)
        · rw [ungrouped] at one
          cases one
      subst hit
      have kept : past.map (fun g : Fact => if decide (g.factId = f.factId) then
          g.outdate timed.clock.recordedAt effective.validFrom s.nextFactId else g) = past := by
        refine (List.map_congr_left fun g hg => ?_).trans (List.map_id past)
        have other : g.factId ≠ f.factId := by
          intro same
          have mem := (slotFactsSource (slotted ▸ List.mem_append_left _ hg :
            g ∈ s.toLedger.slotFacts scope subjectKey predicateKey)).1
          have this : g = f := Table.uniqueEq keyed.factIds mem stored same
          rw [this] at hg
          have gone := (chained.gone f hg).2
          rw [chained.standing.current] at gone
          cases gone
        rw [if_neg (by simpa using other)]
        rfl
      refine ⟨past ++ [f.outdate timed.clock.recordedAt effective.validFrom s.nextFactId],
        timed.item.request.typed effective none confidence s.nextFactId timed.clock, ?_, ?_⟩
      · rw [slotFactsInsert rfl (typedInSlot dated), slotFactsRetire
          (h := Fact.outdate timed.clock.recordedAt effective.validFrom s.nextFactId) fun _ => ⟨rfl, rfl⟩,
          slotted, List.map_append, kept, List.map_singleton, if_pos (decide_eq_true rfl)]
      · have begun : (f.outdate timed.clock.recordedAt effective.validFrom s.nextFactId).begins rt =
            f.begins rt := rfl
        refine ⟨typedStanding dated.endless, fun g hg => ?_, fun g hg => ?_, ?_, ?_, typedBegins dated⟩
        · rcases List.mem_append.mp hg with old | this
          · exact chained.gone g old
          · rw [List.mem_singleton.mp this]
            exact ⟨rfl, by simp [Fact.outdate, Fact.close, Fact.current]⟩
        · rw [List.append_assoc] at hg
          rcases List.mem_append.mp hg with old | new
          · exact chained.dated g (List.mem_append_left _ old)
          · rcases List.mem_cons.mp new with rfl | new
            · exact chained.dated f (List.mem_append_right _ List.mem_cons_self)
            · rw [List.mem_singleton.mp new]
              exact typedDated dated
        · rw [List.append_assoc]
          refine chained.tiles.extend begun ?_ ?_ (typedEndless dated)
          · rw [typedBegins dated]
            show parseClock rt (f.validTo <|> effective.validFrom) = some start
            rw [chained.standing.endless]
            exact dated.starts
          · rw [typedBegins dated, chained.newest]
            exact newer
        · obtain ⟨g, rest, shape, starts⟩ := chained.starts
          cases past with
          | nil =>
            cases shape
            exact ⟨_, _, rfl, begun.trans starts⟩
          | cons h past =>
            cases shape
            exact ⟨_, _, rfl, starts⟩
    | dispute conflict => cases action.symm.trans conflict
    | join conflict => cases action.symm.trans conflict
    | settle _ group =>
      rw [against.1, ungrouped] at group
      cases group

theorem chainChained (chain : DatedChain rt scope subjectKey predicateKey first last s) :
    s.toLedger.Keyed ∧ ∃ past f,
      s.toLedger.slotFacts scope subjectKey predicateKey = past ++ [f] ∧
        Ledger.Chained rt first last past f := by
  induction chain with
  | begins empty given dated written added =>
    have answer := typedAnswer historyKeyed given written
    obtain ⟨f, slot, chained⟩ := chainBegins empty dated added answer
    exact ⟨writeKeyed written historyKeyed, [], f, slot, chained⟩
  | elsewhere chain done untouched ih =>
    obtain ⟨keyed, past, f, slot, chained⟩ := ih
    exact ⟨performKeyed done keyed, past, f, untouched.trans slot, chained⟩
  | supersedes chain given dated newer written superseded ih =>
    obtain ⟨keyed, past, f, slot, chained⟩ := ih
    have answer := typedAnswer keyed given written
    exact ⟨writeKeyed written keyed,
      chainSupersedes keyed slot chained dated newer superseded answer⟩

end Chain

/-! ## Coverage -/

theorem standingMatches {f : Fact} {point : Int} (standing : f.Standing) :
    f.validMatches rt point true = true ↔ f.Spans rt point ∨
      (parseClock rt f.validFrom = none ∧ ∀ stop, parseClock rt f.validTo = some stop → point < stop) := by
  have valid := currentValid standing.current
  have unbounded : parseClock rt none = none := rfl
  cases begun : parseClock rt f.validFrom with
  | none => simp [Fact.validMatches, Fact.Spans, standing.unexpired, standing.endless, valid, unbounded, begun]
  | some start =>
    simp [Fact.validMatches, Fact.Spans, standing.unexpired, standing.endless, valid, unbounded, begun]

theorem expiredUnmatched {f : Fact} {point : Int} (expired : f.expiredAt.isSome = true) :
    f.validMatches rt point true = false := by
  simp only [Fact.validMatches, expired, Bool.and_self, Bool.not_true, ite_self]

/-- From the first start of a chain on, exactly one fact of the slot has an interval that contains the
instant, superseded values included; a reader without a transaction time finds that fact when it is
the current one, and no other fact. -/
theorem datedCoverage {scope subjectKey predicateKey : String} {first last : Int}
    (chain : DatedChain rt scope subjectKey predicateKey first last s) {asOf : String} {point : Int}
    (read : parseClock rt (some asOf) = some point) (begun : first ≤ point) :
    (∃! f, f ∈ s.toLedger.slotFacts scope subjectKey predicateKey ∧ f.Spans rt point) ∧
      ∀ f ∈ s.toLedger.slotFacts scope subjectKey predicateKey,
        (rowMatchesAsOf rt f (some asOf) none = true ↔ f.Spans rt point ∧ f.current = true) := by
  obtain ⟨-, past, f, slot, chained⟩ := chainChained chain
  rw [slot]
  constructor
  · obtain ⟨g, rest, shape, starts⟩ := chained.starts
    have tiles := chained.tiles
    rw [shape] at tiles ⊢
    obtain ⟨h, ⟨inside, covers⟩, only⟩ := tiles.covered (starts ▸ begun)
    have dated : ∀ u ∈ g :: rest, (parseClock rt u.validFrom).isSome = true := shape ▸ chained.dated
    refine ⟨h, ⟨inside, (spansCovers (dated h inside)).mpr covers⟩, fun u found => ?_⟩
    exact only u ⟨found.1, (spansCovers (dated u found.1)).mp found.2⟩
  · intro g hg
    have whole : rowMatchesAsOf rt g (some asOf) none = g.validMatches rt point true := by
      simp [rowMatchesAsOf, read]
    rw [whole]
    have dated := chained.dated g hg
    rcases List.mem_append.mp hg with old | this
    · have expired := chained.gone g old
      rw [expiredUnmatched expired.1, expired.2]
      simp
    · rw [List.mem_singleton.mp this] at dated ⊢
      rw [standingMatches chained.standing]
      constructor
      · rintro (spans | ⟨undated, -⟩)
        · exact ⟨spans, chained.standing.current⟩
        · rw [undated] at dated
          cases dated
      · exact fun found => .inl found.1

namespace Example

def moved : TimedWrite .plain where
  clock := .at "2026-01-05"
  item := {
    request := { WriteRequest.plain "k2" "Alex is in Oslo" "user" with sourceAuthority := 4 / 5 }
    candidate := some ⟨"Alex is in Oslo", "person:alex", "timezone", some "Oslo", 4 / 5,
      some "2026-01-02", "state", "private", none⟩
    requestBuilt := osloBuilt
    candidateBuilt := by decide +kernel }

def movedChain : List (Operation .plain) := [.write trusted caller lima, .write trusted caller moved]

theorem historyWrite (ops : List (Operation .plain)) (timed : TimedWrite .plain) (kind : Outcome)
    (wrote : (write .plain trusted caller timed.clock (history ops) timed.item.request
      timed.item.candidate).toOption.map (fun answer => (answer.2.outcome, answer.2.replayed)) =
        some (kind, false)) :
    ∃ outcome, write .plain trusted caller timed.clock (history ops) timed.item.request
      timed.item.candidate = .ok (history (ops ++ [.write trusted caller timed]), outcome) ∧
      outcome.outcome = kind ∧ outcome.replayed = false := by
  obtain ⟨⟨t, outcome⟩, done, answer⟩ := Option.map_eq_some_iff.mp wrote
  have stored := okOfOption done
  have reached : history (ops ++ [.write trusted caller timed]) = t := by
    rw [history, Run.runAppend]
    show Run.attempt Operation.perform (history ops) (.write trusted caller timed) = t
    simp only [Run.attempt, Operation.perform, stored, okBind]
  obtain ⟨answered, fresh⟩ := Prod.mk.inj answer
  exact ⟨outcome, by rw [reached]; exact stored, answered, fresh⟩

theorem movedChained : DatedChain .plain "private" "person:alex" "timezone" 1767225600000000
    1767312000000000 (history movedChain) := by
  obtain ⟨outcome, first, added⟩ := historyWrite [] lima .add (by decide +kernel)
  obtain ⟨outcome', second, superseded⟩ := historyWrite [.write trusted caller lima] moved .supersede
    (by decide +kernel)
  have empty : (history ([] : List (Operation .plain))).toLedger.slotFacts "private" "person:alex"
      "timezone" = [] := by
    decide +kernel
  have begun : DatedChain .plain "private" "person:alex" "timezone" 1767225600000000
      1767225600000000 (history [.write trusted caller lima]) :=
    .begins empty rfl ⟨rfl, rfl, rfl, by decide +kernel, rfl⟩ first added
  exact .supersedes begun rfl ⟨rfl, rfl, rfl, by decide +kernel, rfl⟩ (by decide) second superseded

theorem datedCoverageHere :
    (∃! f, f ∈ (history movedChain).toLedger.slotFacts "private" "person:alex" "timezone" ∧
        f.Spans .plain 1767225600000000) ∧
      ∀ f ∈ (history movedChain).toLedger.slotFacts "private" "person:alex" "timezone",
        (rowMatchesAsOf .plain f (some "2026-01-01") none = true ↔
          f.Spans .plain 1767225600000000 ∧ f.current = true) :=
  datedCoverage movedChained (by decide +kernel) (by decide)

/-- On the day the first claim starts, no fact of the slot answers: the one that held is expired. -/
theorem supersededUnanswered :
    DatedChain .plain "private" "person:alex" "timezone" 1767225600000000 1767312000000000
      (history movedChain) ∧ parseClock .plain (some "2026-01-01") = some 1767225600000000 ∧
    ¬ ∃ f ∈ (history movedChain).toLedger.slotFacts "private" "person:alex" "timezone",
      rowMatchesAsOf .plain f (some "2026-01-01") none = true :=
  ⟨movedChained, by decide +kernel, by decide +kernel⟩

end Example
end Enfold
