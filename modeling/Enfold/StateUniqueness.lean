import Enfold.ConflictLedger

/-! One truth a slot: what agreement of the conflict tables means for the readers of typed state,
in every store a history or an open batch passes through. -/
namespace Enfold

open Fallible

variable {rt : Runtime} {l : Ledger}

def Ledger.holders (l : Ledger) (scope subjectKey predicateKey : String) : List Fact :=
  l.facts.filter fun f => f.isState && f.inSlot scope subjectKey predicateKey && f.current

/-- One undisputed current fact at most, or the parties of one dispute. -/
def Ledger.SlotUnique (l : Ledger) (scope subjectKey predicateKey : String) : Prop :=
  ((l.holders scope subjectKey predicateKey).length ≤ 1 ∧
      ∀ f ∈ l.holders scope subjectKey predicateKey, f.conflictGroup = none) ∨
    ∃ c, ∀ f ∈ l.holders scope subjectKey predicateKey, f.conflictGroup = some c

def manyCurrent : Raised :=
  ⟨.stateSlotInvariantError, "strict state slot has multiple non-conflicted current facts"⟩

def manyConflicts : Raised := ⟨.runtimeError, "state slot spans multiple unresolved conflicts"⟩

theorem holdersSource {scope subjectKey predicateKey : String} {f : Fact}
    (h : f ∈ l.holders scope subjectKey predicateKey) :
    f ∈ l.facts ∧ f.isState = true ∧ f.inSlot scope subjectKey predicateKey = true ∧
      f.current = true := by
  obtain ⟨mem, hit⟩ := List.mem_filter.mp h
  simp only [Bool.and_eq_true] at hit
  exact ⟨mem, hit.1.1, hit.1.2, hit.2⟩

theorem holdersShare (sound : l.Sound) {scope subjectKey predicateKey : String} {f g : Fact}
    (hf : f ∈ l.holders scope subjectKey predicateKey)
    (hg : g ∈ l.holders scope subjectKey predicateKey) :
    f = g ∨ ∃ c, f.conflictGroup = some c ∧ g.conflictGroup = some c := by
  obtain ⟨mem, state, slot, current⟩ := holdersSource hf
  obtain ⟨mem', state', slot', current'⟩ := holdersSource hg
  simp only [Fact.inSlot, Bool.and_eq_true, decide_eq_true_eq] at slot slot'
  rcases sound.agree f mem g mem' ⟨⟨state, state'⟩, ⟨current, current'⟩,
    slot.1.1.trans slot'.1.1.symm, slot.1.2.trans slot'.1.2.symm, slot.2.trans slot'.2.symm⟩ with
    same | shared
  · exact .inl (Table.uniqueEq sound.factIds mem mem' same)
  · exact .inr shared

theorem holdersNodup (sound : l.Sound) {scope subjectKey predicateKey : String} :
    (l.holders scope subjectKey predicateKey).Nodup := by
  have unique : (l.facts.map Fact.factId).Nodup := sound.factIds
  exact (List.Nodup.of_map _ unique).filter _

theorem Ledger.Sound.slotUnique (sound : l.Sound) {scope subjectKey predicateKey : String} :
    l.SlotUnique scope subjectKey predicateKey := by
  by_cases disputed : ∃ f ∈ l.holders scope subjectKey predicateKey, ∃ c, f.conflictGroup = some c
  · obtain ⟨f, hf, c, group⟩ := disputed
    refine .inr ⟨c, fun g hg => ?_⟩
    rcases holdersShare sound hg hf with same | ⟨k, other, here⟩
    · rw [same]
      exact group
    · rw [other, ← here, group]
  · have free : ∀ f ∈ l.holders scope subjectKey predicateKey, f.conflictGroup = none := by
      intro f hf
      cases group : f.conflictGroup with
      | none => rfl
      | some c => exact absurd ⟨f, hf, c, group⟩ disputed
    refine .inl ⟨?_, free⟩
    have distinct : (l.holders scope subjectKey predicateKey).Nodup := holdersNodup sound
    match all : l.holders scope subjectKey predicateKey with
    | [] => simp
    | [_] => simp
    | f :: g :: rest =>
      rw [all] at distinct
      have first : f ∈ l.holders scope subjectKey predicateKey := by
        rw [all]
        exact List.mem_cons_self
      have second : g ∈ l.holders scope subjectKey predicateKey := by
        rw [all]
        exact List.mem_cons_of_mem _ List.mem_cons_self
      rcases holdersShare sound first second with same | ⟨c, group, -⟩
      · rw [same] at distinct
        simp at distinct
      · rw [free f first] at group
        cases group

theorem currentStateFactsError {subjectKey predicateKey scope : String} {raised : Raised}
    (h : currentStateFacts l subjectKey predicateKey scope = .error raised) :
    raised.kind = .valueError := by
  simp only [currentStateFacts, bindError] at h
  rcases h with h | ⟨subject, -, h | ⟨predicate, -, h | ⟨scope', -, last⟩⟩⟩
  · exact requiredError h
  · exact requiredError h
  · exact requiredError h
  · cases last

theorem currentStateFactsSource {subjectKey predicateKey scope : String} {facts : List Fact}
    (h : currentStateFacts l subjectKey predicateKey scope = .ok facts) :
    ∃ scope' subject predicate,
      facts = (l.holders scope' subject predicate).filter (·.validTo.isNone) := by
  simp only [currentStateFacts, bindOk] at h
  obtain ⟨subject, -, predicate, -, scope', -, last⟩ := h
  refine ⟨scope', subject, predicate, ?_⟩
  rw [← Except.ok.inj last, Ledger.holders, List.filter_filter]
  exact List.filter_congr fun f _ => Bool.and_comm _ _

theorem Ledger.Sound.readsOne (sound : l.Sound) {subjectKey predicateKey scope : String} :
    readCurrentState l subjectKey predicateKey scope ≠ .error manyCurrent := by
  intro raised
  simp only [readCurrentState, bindError] at raised
  rcases raised with failed | ⟨facts, found, raised⟩
  · have kind := currentStateFactsError failed
    cases kind
  · obtain ⟨scope', subject, predicate, rfl⟩ := currentStateFactsSource found
    split at raised
    · cases raised
    · rename_i calm
      simp only [Bool.or_eq_true, decide_eq_true_eq, List.any_eq_true, not_or, not_exists] at calm
      obtain ⟨some, free⟩ := calm
      split at raised
      · rename_i many
        obtain ⟨f, hf⟩ := List.exists_mem_of_ne_nil _ some
        have holder := (List.mem_filter.mp hf).1
        have unique : l.SlotUnique scope' subject predicate := sound.slotUnique
        rcases unique with ⟨short, -⟩ | ⟨c, all⟩
        · have few := List.length_filter_le (fun f : Fact => f.validTo.isNone)
            (l.holders scope' subject predicate)
          have pos := List.length_pos_of_mem hf
          omega
        · have disputed := free f
          rw [all f holder] at disputed
          exact disputed ⟨hf, rfl⟩
      · cases raised

/-! ## Decisions -/

theorem groupsShort (sound : l.Sound) {c : StateCandidate} {slot : SlotDecision}
    (decided : SlotCase rt l c slot) (action : slot.action = .conflict) :
    l.groupsOf slot.currentFactIds = [] ∨ ∃ k, l.groupsOf slot.currentFactIds = [k] := by
  have distinct : (l.groupsOf slot.currentFactIds).Nodup := List.nodup_dedup _
  have alike : ∃ k, ∀ j ∈ l.groupsOf slot.currentFactIds, j = k := by
    cases decided with
    | add _ add =>
      rw [action] at add
      cases add
    | dedup _ dedup =>
      rw [action] at dedup
      cases dedup
    | contested dispute ids =>
      obtain ⟨k, -, all⟩ := contestedSlot sound dispute
      refine ⟨k, fun j listed => ?_⟩
      obtain ⟨f, mem, inside, group⟩ := groupsOfMem.mp listed
      rw [ids] at inside
      obtain ⟨g, hg, id⟩ := List.mem_map.mp inside
      have same := Table.uniqueEq sound.factIds (currentInSource hg).1 mem id
      rw [← same, all g hg] at group
      exact (Option.some.inj group).symm
    | @against existing rest calm novel meets ids =>
      refine ⟨0, fun j listed => ?_⟩
      obtain ⟨f, mem, inside, group⟩ := groupsOfMem.mp listed
      rw [ids] at inside
      have same := Table.uniqueEq sound.factIds mem (overlappingSource meets).1
        (List.mem_singleton.mp inside)
      rw [same, undisputedAgainst sound calm meets] at group
      cases group
  obtain ⟨k, all⟩ := alike
  match groups : l.groupsOf slot.currentFactIds with
  | [] => exact .inl rfl
  | [j] => exact .inr ⟨j, rfl⟩
  | i :: j :: rest =>
    rw [groups] at all distinct
    have first := all i List.mem_cons_self
    have second := all j (List.mem_cons_of_mem _ List.mem_cons_self)
    rw [first, second] at distinct
    simp at distinct

theorem amendOneError {p : Fact → Bool} {f : Fact → Fact} {missed raised : Raised}
    (h : l.amendOne p f missed = .error raised) : raised = missed := by
  simp only [Ledger.amendOne, bindError] at h
  rcases h with failed | ⟨-, -, last⟩
  · exact ensureError failed
  · cases last

theorem openStateConflictError {subjectKey predicateKey scope detectedAt : String}
    {existing : List Nat} {detail : JsonObject} {raised : Raised}
    (h : openStateConflict rt l subjectKey predicateKey existing scope detectedAt detail =
      .error raised) : raised.kind ≠ .runtimeError := by
  have plain : ∀ {kind : ErrorKind}, raised.kind = kind → kind ≠ .runtimeError →
      raised.kind ≠ .runtimeError := fun same other => same ▸ other
  simp only [openStateConflict, bindError] at h
  rcases h with h | ⟨subject, -, h | ⟨predicate, -, h | ⟨scope', -, h | ⟨one, -, h | ⟨distinct, -,
    h | ⟨time, -, h | ⟨active, -, last⟩⟩⟩⟩⟩⟩⟩
  · exact plain (requiredError h) (by decide)
  · exact plain (requiredError h) (by decide)
  · exact plain (requiredError h) (by decide)
  · exact plain (congrArg Raised.kind (ensureError h)) (by decide)
  · exact plain (congrArg Raised.kind (ensureError h)) (by decide)
  · exact plain (parseTimestampError rt h) (by decide)
  · exact plain (congrArg Raised.kind (ensureError h)) (by decide)
  · cases last

theorem preparesOne (sound : l.Sound) {c : StateCandidate} {slot : SlotDecision} {now : String}
    {closeValidTo : Option String} (decided : SlotCase rt l c slot) :
    prepareStateMutation rt l slot now closeValidTo ≠ .error manyConflicts := by
  intro raised
  unfold prepareStateMutation at raised
  split at raised
  · split at raised
    · cases raised
    · simp [manyConflicts] at raised
  · simp only [bindError] at raised
    rcases raised with failed | ⟨l₁, -, last⟩
    · have message := congrArg Raised.message (amendOneError failed)
      simp [manyConflicts] at message
    · cases last
  · rename_i action
    rcases groupsShort sound decided action with none | ⟨k, one⟩
    · rw [none] at raised
      simp only [bindError] at raised
      rcases raised with failed | ⟨opened, -, last⟩
      · exact openStateConflictError failed rfl
      · cases last
    · rw [one] at raised
      cases raised
  · cases raised

/-! ## Histories -/

/-- What a store owes the readers and the writers of typed state. -/
structure Store.StateUnique (rt : Runtime) (s : Store) : Prop where
  slots : ∀ scope subjectKey predicateKey, s.toLedger.SlotUnique scope subjectKey predicateKey
  reads : ∀ scope subjectKey predicateKey,
    readCurrentState s.toLedger subjectKey predicateKey scope ≠ .error manyCurrent
  /-- Whatever typed write the store decides on, its slot is in one dispute at most. -/
  decides : ∀ (policy : MemoryPolicy) (context : ConnectionContext) (item : WriteItem rt)
    (slot : SlotDecision) (effective : StateCandidate) (now : String) (closeValidTo : Option String),
    validateStateCandidate item.request item.candidate = .ok () →
    verdict rt policy context s.toLedger item.request item.candidate = .ok (.typed slot effective) →
    prepareStateMutation rt s.toLedger slot now closeValidTo ≠ .error manyConflicts

theorem stateUnique {s : Store} (sound : s.toLedger.Sound) : s.StateUnique rt where
  slots _ _ _ := sound.slotUnique
  reads _ _ _ := sound.readsOne
  decides policy context item slot effective now closeValidTo valid judged := by
    obtain ⟨c, -, given, -⟩ := verdictTyped judged
    rw [given] at valid judged
    obtain ⟨-, -, -, -, -, -, decided⟩ := typedCase (item.candidateBuilt c given) valid judged
    exact preparesOne sound decided

/-- Every store a history reaches, and every store one of its batches passes through, holds one
truth a slot. -/
theorem slotsUnique {ops : List (Operation rt)} (kind : ∀ o ∈ ops, o.isMerge = false)
    {svc : WriteService} {context : ConnectionContext}
    {items : List (TimedWrite rt × Option (List Rat))} {within : Store} {outcomes : List WriteOutcome}
    (authorized : svc.policy.authorizeContext rt svc.legacyAuthorized context = .ok context)
    (batch : Batch.each (batchStep rt svc context) (history ops) items = .ok (within, outcomes)) :
    (history ops).StateUnique rt ∧ within.StateUnique rt := by
  have sound := historySound kind
  have inside := itemsKeep (P := fun s => s.toLedger.Sound) (C := fun _ _ _ _ _ => True)
    (fun authorized _ done sound => stepSound authorized done sound) authorized
    (fun _ _ _ _ _ _ _ => trivial) batch sound
  exact ⟨stateUnique sound, stateUnique inside⟩

namespace Example

theorem callerAuthorized :
    trusted.policy.authorizeContext .plain trusted.legacyAuthorized caller = .ok caller :=
  okOfOption (by decide +kernel)

def rome : TimedWrite .plain where
  clock := .at "2026-01-05"
  item := {
    request := { WriteRequest.plain "k3" "Alex is in Rome" "user" with sourceAuthority := 4 / 5 }
    candidate := some ⟨"Alex is in Rome", "person:alex", "timezone", some "Rome", 4 / 5,
      some "2026-01-03", "state", "private", none⟩
    requestBuilt := by decide +kernel
    candidateBuilt := by decide +kernel }

def baku : TimedWrite .plain where
  clock := .at "2026-01-05"
  item := {
    request := { WriteRequest.plain "k4" "Alex is in Baku" "user" with sourceAuthority := 1 / 5 }
    candidate := some ⟨"Alex is in Baku", "person:alex", "timezone", some "Baku", 1 / 5,
      some "2026-01-04", "state", "private", none⟩
    requestBuilt := by decide +kernel
    candidateBuilt := by decide +kernel }

theorem slotsUniqueHere : ∃ within outcomes,
    Batch.each (batchStep .plain trusted caller) (history [.write trusted caller lima])
      [(rome, none), (baku, none)] = .ok (within, outcomes) ∧
    outcomes.map WriteOutcome.outcome = [.supersede, .conflict] ∧
    (history [Operation.write trusted caller lima]).StateUnique .plain ∧ within.StateUnique .plain := by
  have ran : ((Batch.each (batchStep .plain trusted caller) (history [.write trusted caller lima])
      [(rome, none), (baku, none)]).toOption.map fun done => done.2.map WriteOutcome.outcome) =
      some [.supersede, .conflict] := by
    decide +kernel
  obtain ⟨⟨within, outcomes⟩, answered, kinds⟩ := Option.map_eq_some_iff.mp ran
  have whole := okOfOption answered
  exact ⟨within, outcomes, whole, kinds, slotsUnique (by decide) callerAuthorized whole⟩

end Example
end Enfold
