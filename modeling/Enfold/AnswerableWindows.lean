import Enfold.ValidTime

/-! Whether a slot answers the window a typed write claimed, for the writes that were accepted. -/
namespace Enfold

open Fallible

variable {rt : Runtime} {l l' : Ledger} {s t : Store} {c : StateCandidate}

/-- `[valid_from, valid_to)` as the candidate claims it; a bound that reads as no clock is none. -/
def StateCandidate.Claims (rt : Runtime) (c : StateCandidate) (point : Int) : Prop :=
  (∀ start, parseClock rt c.validFrom = some start → start ≤ point) ∧
    ∀ stop, parseClock rt c.validTo = some stop → point < stop

/-- Every instant of the claimed window finds the candidate's value in its slot, and an open-ended
window finds it standing. -/
structure Ledger.Answers (rt : Runtime) (l : Ledger) (c : StateCandidate) : Prop where
  covers : ∀ asOf point, parseClock rt (some asOf) = some point → c.Claims rt point →
    ∃ f ∈ l.slotFacts c.scope c.subjectKey c.predicateKey,
      rowMatchesAsOf rt f (some asOf) none = true ∧ c.restates f = true
  stands : parseClock rt c.validTo = none → ∃ f ∈ l.currentIn c, c.restates f = true

-- a stored value of the candidate, with its own window
structure StateCandidate.Stored (c : StateCandidate) (g : Fact) : Prop where
  state : g.isState = true
  slot : g.inSlot c.scope c.subjectKey c.predicateKey = true
  content : g.content = c.content
  validFrom : g.validFrom = c.validFrom
  validTo : g.validTo = c.validTo
  unexpired : g.expiredAt = none
  unreplaced : g.supersededBy = none
  valid : c.validTo = none → g.invalidAt = none

theorem typedStored {request : WriteRequest} {group : Option Nat} {confidence : Option Rat}
    {factId : Nat} {clock : Clock} (content : Text.strip request.content = c.content) :
    c.Stored (request.typed c group confidence factId clock) where
  state := rfl
  slot := typedSlot
  content := content
  validFrom := rfl
  validTo := rfl
  unexpired := rfl
  unreplaced := rfl
  valid endless := by simp [WriteRequest.typed, Fact.persistState, WriteRequest.row, endless]

theorem storedAnswers {g : Fact} (mem : g ∈ l.facts) (stored : c.Stored g)
    (readable : c.validTo = none ∨ (parseClock rt c.validTo).isSome = true) : l.Answers rt c where
  covers asOf point read claims := by
    refine ⟨g, inSlotFacts mem stored.state stored.slot, ?_, by
      simp [StateCandidate.restates, stored.content]⟩
    have whole : rowMatchesAsOf rt g (some asOf) none = g.validMatches rt point true := by
      simp [rowMatchesAsOf, read]
    have begun : (parseClock rt c.validFrom).any (decide <| point < ·) = false := by
      cases start : parseClock rt c.validFrom with
      | none => rfl
      | some instant => simpa using claims.1 instant start
    have open' : (parseClock rt c.validTo).any (decide <| · ≤ point) = false := by
      cases stop : parseClock rt c.validTo with
      | none => rfl
      | some instant => simpa using claims.2 instant stop
    -- the row never waits for its end: it has none, or one the reader reads
    have settled : ((parseClock rt c.validTo).isNone && true &&
        (g.invalidAt.isSome || g.supersededBy.isSome)) = false := by
      rcases readable with endless | bounded
      · simp [stored.valid endless, stored.unreplaced]
      · obtain ⟨stop, found⟩ := Option.isSome_iff_exists.mp bounded
        simp [found]
    rw [whole]
    simp only [Fact.validMatches, stored.validFrom, stored.validTo, stored.unexpired, settled, begun,
      open', Bool.false_and, Bool.false_eq_true, if_false, Option.isSome_none, Bool.and_false,
      Bool.not_false]
  stands unbounded := by
    have endless : c.validTo = none := by
      rcases readable with endless | bounded
      · exact endless
      · rw [unbounded] at bounded
        cases bounded
    refine ⟨g, List.mem_filter.mpr ⟨mem, ?_⟩, by simp [StateCandidate.restates, stored.content]⟩
    simp [stored.state, stored.slot, Fact.current, stored.valid endless, stored.unreplaced,
      stored.validTo, endless]

section Applied
variable {context : ConnectionContext} {request : WriteRequest} {slot : SlotDecision}
  {confidence : Option Rat} {clock : Clock}

theorem appliedStores (keyed : l.Keyed) (content : Text.strip request.content = c.content)
    (dedup : slot.action ≠ .dedup) (conflict : slot.action ≠ .conflict)
    (effect : StateEffect rt l context request slot c confidence clock l') :
    ∃ g ∈ l'.facts, c.Stored g := by
  cases effect with
  | evidence known => simp [SlotDecision.evidence, dedup, conflict] at known
  | add => exact ⟨_, List.mem_append_right _ List.mem_cons_self, typedStored content⟩
  | replace => exact ⟨_, List.mem_append_right _ List.mem_cons_self, typedStored content⟩
  | dispute action => exact absurd action conflict
  | join action => exact absurd action conflict
  | @settle conflictId row _ _ action group wide mem id unresolved fits current fresh resolved =>
    have joined : ((l.insert (request.typed c (some conflictId) confidence l.nextFactId clock)).join
        ⟨conflictId, l.nextFactId⟩).Keyed := (keyed.insert rfl).join
    obtain ⟨row', w, -, -, -, rfl, -⟩ := resolveStateConflictSource joined resolved
    refine ⟨_, List.mem_map_of_mem (List.mem_append_right _ List.mem_cons_self), ?_⟩
    rw [Fact.resolved, if_pos (show (request.typed c (some conflictId) confidence l.nextFactId
      clock).factId = l.nextFactId from rfl)]
    have own : c.Stored (request.typed c (some conflictId) confidence l.nextFactId clock) :=
      typedStored content
    exact { own with }

theorem blankStands (closed : c.validTo ≠ none) (conflict : slot.action ≠ .conflict)
    (effect : StateEffect rt l context request slot c confidence clock l') {f : Fact}
    (stands : f ∈ l'.currentIn c) : f ∈ l.currentIn c := by
  obtain ⟨mem, hit⟩ := List.mem_filter.mp stands
  have stored : ∀ {group factId}, (request.typed c group confidence factId clock).validTo.isNone =
      false := by
    intro group factId
    show c.validTo.isNone = false
    exact Option.isNone_eq_false_iff.mpr (Option.isSome_iff_ne_none.mpr closed)
  cases effect with
  | evidence => exact stands
  | add =>
    rcases List.mem_append.mp mem with mem | new
    · exact List.mem_filter.mpr ⟨mem, hit⟩
    · rw [List.mem_singleton.mp new, stored, Bool.and_false] at hit
      cases hit
  | replace =>
    rcases List.mem_append.mp mem with mem | new
    · obtain ⟨g, hg, rfl⟩ := Table.memAmend.mp mem
      split at hit
      · simp [Fact.outdate, Fact.current] at hit
      · rename_i other
        rw [if_neg other]
        exact List.mem_filter.mpr ⟨hg, hit⟩
    · rw [List.mem_singleton.mp new, stored, Bool.and_false] at hit
      cases hit
  | dispute action => exact absurd action conflict
  | join action => exact absurd action conflict
  | settle _ _ _ _ _ _ _ endless => exact absurd endless closed

end Applied

/-! ## Accepted writes -/

/-- An accepted typed write leaves its claimed window answered exactly when the store answered it
before, or when the write was new, restated no peer of an undisputed slot, and named no blank end. -/
theorem acceptedAnswerable {ops : List (Operation rt)} {svc : WriteService}
    {context : ConnectionContext} {timed : TimedWrite rt} {effective : StateCandidate}
    {outcome : WriteOutcome} (given : timed.item.candidate = some c)
    (dated : effectiveCandidate rt timed.item.request c = .ok effective)
    (h : write rt svc context timed.clock (history ops) timed.item.request timed.item.candidate =
      .ok (t, outcome))
    (accepted : outcome.outcome = .add ∨ outcome.outcome = .supersede ∨ outcome.outcome = .dedup) :
    t.toLedger.Answers rt effective ↔ (history ops).toLedger.Answers rt effective ∨
      (loadPrior (history ops) context.clientId timed.item.request.idempotencyKey = none ∧
        ((history ops).toLedger.contested effective = true ∨
          ((history ops).toLedger.peers rt effective).find? effective.restates = none) ∧
        (effective.validTo = none ∨ (parseClock rt effective.validTo).isSome = true)) := by
  have keyed : (history ops).toLedger.Keyed := historyKeyed
  have answer := typedAnswer keyed given h
  generalize history ops = s at keyed answer ⊢
  cases answer with
  | replayed known facts =>
    rw [facts]
    constructor
    · exact .inl
    · rintro (before | ⟨free, -⟩)
      · exact before
      · exact absurd free known
  | factless facts how => rcases how with how | how <;> rw [how] at accepted <;> simp at accepted
  | @applied policy effectiveContext d effective' confidence free fresh dated' built content choice kind
      decided effect =>
    rw [dated] at dated'
    cases dated'
    have restated : (resolutionAuthority policy effectiveContext s.toLedger timed.item.request
        d).action = .dedup ↔ s.toLedger.contested effective = false ∧
          (s.toLedger.peers rt effective).find? effective.restates ≠ none :=
      authorityDedup.trans (decidedDedup choice)
    generalize resolutionAuthority policy effectiveContext s.toLedger timed.item.request d = slot at *
    have conflict : slot.action ≠ .conflict := by
      intro conflict
      rw [kind, conflict] at accepted
      simp [DecisionAction.outcome] at accepted
    by_cases dedup : slot.action = .dedup
    · obtain ⟨calm, some⟩ := restated.mp dedup
      -- evidence only: the facts stay as they were
      have facts : t.toLedger = s.toLedger := by
        generalize t.toLedger = l' at effect ⊢
        cases effect with
        | evidence => rfl
        | add unknown =>
          cases decided with
          | add _ add => cases dedup.symm.trans add
          | dedup _ _ _ aimed => simp [SlotDecision.evidence, dedup, aimed] at unknown
          | contested dispute => cases calm.symm.trans dispute
          | against _ novel => exact absurd novel some
        | replace action => cases dedup.symm.trans action
        | dispute action => cases dedup.symm.trans action
        | join action => cases dedup.symm.trans action
        | settle action => cases dedup.symm.trans action
      rw [facts]
      constructor
      · exact .inl
      · rintro (before | ⟨-, dispute | novel, -⟩)
        · exact before
        · cases calm.symm.trans dispute
        · exact absurd novel some
    · have novel : s.toLedger.contested effective = true ∨
          (s.toLedger.peers rt effective).find? effective.restates = none := by
        by_contra neither
        rw [not_or] at neither
        exact dedup (restated.mpr ⟨by simpa using neither.1, neither.2⟩)
      by_cases readable : effective.validTo = none ∨ (parseClock rt effective.validTo).isSome = true
      · have kept : Text.strip timed.item.request.content = effective.content := by
          rw [← content]
          exact (requiredSource built.content).1.symm
        obtain ⟨g, mem, stored⟩ := appliedStores keyed kept dedup conflict effect
        exact ⟨fun _ => .inr ⟨free, novel, readable⟩, fun _ => storedAnswers mem stored readable⟩
      · rw [not_or] at readable
        have unbounded : parseClock rt effective.validTo = none := by simpa using readable.2
        -- a blank end is stored as a closed value, and no value that stands restates the candidate
        have unheld : ∀ f ∈ s.toLedger.currentIn effective, effective.restates f = false := by
          intro f hf
          rcases novel with dispute | novel
          · exfalso
            cases decided with
            | add calm => cases calm.symm.trans dispute
            | dedup calm => cases calm.symm.trans dispute
            | against calm => cases calm.symm.trans dispute
            | contested _ _ act =>
              rcases act with ⟨action, wide⟩ | action
              · generalize t.toLedger = l' at effect
                cases effect with
                | evidence known => simp [SlotDecision.evidence, action] at known
                | add _ calm => exact calm.1 action
                | replace _ aimed => cases aimed.symm.trans wide
                | dispute conflicts => exact conflict conflicts
                | join conflicts => exact conflict conflicts
                | settle _ _ _ _ _ _ _ endless => exact readable.1 endless
              · exact conflict action
          · have held : s.toLedger.currentIn effective ≠ [] := List.ne_nil_of_mem hf
            rw [Ledger.peers, if_neg held] at novel
            simpa using List.find?_eq_none.mp novel f hf
        constructor
        · intro after
          obtain ⟨f, hf, restates⟩ := after.stands unbounded
          rw [unheld f (blankStands readable.1 conflict effect hf)] at restates
          cases restates
        · rintro (before | ⟨-, -, bounded⟩)
          · obtain ⟨f, hf, restates⟩ := before.stands unbounded
            rw [unheld f hf] at restates
            cases restates
          · exact absurd bounded (not_or.mpr readable)

namespace Example

def past : TimedWrite .plain where
  clock := .at "2026-01-03"
  item := {
    request := { WriteRequest.plain "k1" "Alex is in Lima" "user" with sourceAuthority := 4 / 5 }
    candidate := some ⟨"Alex is in Lima", "person:alex", "timezone", some "Lima", 4 / 5,
      some "2020-01-01", "state", "private", some "2021-01-01"⟩
    requestBuilt := limaBuilt
    candidateBuilt := by decide +kernel }

def resumed : StateCandidate :=
  ⟨"Alex is in Lima", "person:alex", "timezone", some "Lima", 4 / 5, some "2020-06-01", "state",
    "private", none⟩

def returned : TimedWrite .plain where
  clock := .at "2026-01-05"
  item := {
    request := { WriteRequest.plain "k2" "Alex is in Lima" "user" with sourceAuthority := 4 / 5 }
    candidate := some resumed
    requestBuilt := by decide +kernel
    candidateBuilt := by decide +kernel }

def movedTo : StateCandidate :=
  ⟨"Alex is in Oslo", "person:alex", "timezone", some "Oslo", 4 / 5, some "2026-01-02", "state", "private",
    none⟩

def movedAgain : TimedWrite .plain where
  clock := .at "2026-01-06"
  item := {
    request := { WriteRequest.plain "k3" "Alex is in Oslo" "user" with sourceAuthority := 4 / 5 }
    candidate := some movedTo
    requestBuilt := by decide +kernel
    candidateBuilt := by decide +kernel }

/-- The first write replaces the stored value, the second one restates it. -/
theorem acceptedAnswerableHere :
    (∃ outcome, write .plain trusted caller moved.clock (history [.write trusted caller lima])
        moved.item.request moved.item.candidate = .ok (history movedChain, outcome) ∧
      outcome.outcome = .supersede) ∧ (history movedChain).toLedger.Answers .plain movedTo ∧
    (∃ outcome, write .plain trusted caller movedAgain.clock (history movedChain) movedAgain.item.request
        movedAgain.item.candidate =
          .ok (history (movedChain ++ [.write trusted caller movedAgain]), outcome) ∧
      outcome.outcome = .dedup) ∧
    (history (movedChain ++ [.write trusted caller movedAgain])).toLedger.Answers .plain movedTo := by
  obtain ⟨first, wrote, replaced, -⟩ :=
    historyWrite [.write trusted caller lima] moved .supersede (by decide +kernel)
  obtain ⟨second, again, restated, -⟩ := historyWrite movedChain movedAgain .dedup (by decide +kernel)
  have once : (history movedChain).toLedger.Answers .plain movedTo :=
    (acceptedAnswerable rfl rfl wrote (.inr (.inl replaced))).mpr
      (.inr ⟨by decide +kernel, .inr (by decide +kernel), .inl rfl⟩)
  have twice := (acceptedAnswerable (c := movedTo) rfl rfl again (.inr (.inr restated))).mpr (.inl once)
  exact ⟨⟨first, wrote, replaced⟩, once, ⟨second, again, restated⟩, twice⟩

/-- The new claim is answered as a duplicate of the closed year, and nobody holds the slot. -/
theorem resumedUnanswered :
    (∃ outcome, write .plain trusted caller returned.clock (history [.write trusted caller past])
        returned.item.request returned.item.candidate =
          .ok (history [.write trusted caller past, .write trusted caller returned], outcome) ∧
        outcome.outcome = .dedup) ∧
      (∀ f ∈ (history [.write trusted caller past, .write trusted caller returned]).facts,
        f.conflictGroup = none) ∧
      ¬ (history [.write trusted caller past, .write trusted caller returned]).toLedger.Answers .plain
        resumed := by
  obtain ⟨outcome, wrote, kind, -⟩ := historyWrite [.write trusted caller past] returned .dedup
    (by decide +kernel)
  refine ⟨⟨outcome, wrote, kind⟩, by decide +kernel, fun answers => ?_⟩
  have vacant : (history [.write trusted caller past, .write trusted caller returned]).toLedger.currentIn
      resumed = [] := by
    decide +kernel
  obtain ⟨f, hf, -⟩ := answers.stands rfl
  rw [vacant] at hf
  cases hf

end Example
end Enfold
