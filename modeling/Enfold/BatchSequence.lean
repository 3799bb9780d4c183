import Enfold.Foundation.Transaction
import Enfold.Reopening
import Enfold.Replay

/-! A committed batch against the same writes one after another. The batch prepares every
near-duplicate query on the store before it; a single write prepares its own. -/
namespace Enfold

open Fallible

variable {rt : Runtime} {svc : WriteService} {context effective : ConnectionContext}
  {s u t : Store} {timed : TimedWrite rt} {query : Option (List Rat)} {outcome : WriteOutcome}

/-! ## The batch as a transaction -/

/-- `MemoryWriteService.write_batch` on its connection. `torn` and `tornHook` are what an item and
the hook leave in the open transaction when they raise. -/
def writeBatchOn (rt : Runtime) (svc : WriteService) (context : ConnectionContext)
    (torn : TimedWrite rt × Option (List Rat) → Store → Store) (tornHook : Store → Store)
    (c : Transaction.Connection Store) (writes : List (TimedWrite rt))
    (rollbackIf : WriteOutcome → Bool) (beforeCommit : Store → Except Raised Store) :
    Transaction.Connection Store × Except Raised WriteBatchOutcome :=
  let prepared : Except Raised (ConnectionContext × List (TimedWrite rt × Option (List Rat))) := do
    ensure c.pending.isNone ⟨.runtimeError, "MemoryWriteService requires an idle connection"⟩
    ensure (writes ≠ []) ⟨.valueError, "writes must not be empty"⟩
    let effective ← svc.policy.authorizeContext rt svc.legacyAuthorized context
    let prepared ← prepareBatch rt svc effective c.view writes
    .ok (effective, prepared)
  match prepared with
  | .error raised => (c, .error raised)
  | .ok (effective, prepared) =>
    match Transaction.batch (batchStep rt svc effective) torn rollbackIf beforeCommit tornHook c
        prepared with
    | (c, .error raised) => (c, .error raised)
    | (c, .ok (committed, outcomes)) => (c, .ok ⟨outcomes, committed⟩)

/-- From an idle connection the transaction is the pure batch: committed, or as before. -/
theorem writeBatchRefines {torn : TimedWrite rt × Option (List Rat) → Store → Store}
    {tornHook : Store → Store} {writes : List (TimedWrite rt)} {rollbackIf : WriteOutcome → Bool}
    {beforeCommit : Store → Except Raised Store} :
    writeBatchOn rt svc context torn tornHook (Transaction.idle s) writes rollbackIf beforeCommit =
      match writeBatch rt svc context s writes rollbackIf beforeCommit with
      | .error raised => (Transaction.idle s, .error raised)
      | .ok (t, batch) => (Transaction.idle t, .ok batch) := by
  unfold writeBatchOn writeBatch
  have view : (Transaction.idle s).view = s := rfl
  have free : (Transaction.idle s).pending.isNone = true := rfl
  simp only [view, free, ensure, if_true, okBind]
  by_cases some : writes = []
  · simp [some, errorBind]
  · simp only [ne_eq, some, not_false_eq_true, decide_true, if_true, okBind]
    cases svc.policy.authorizeContext rt svc.legacyAuthorized context with
    | error raised => rfl
    | ok effective =>
      simp only [okBind]
      cases prepareBatch rt svc effective s writes with
      | error raised => rfl
      | ok prepared =>
        simp only [okBind, Transaction.batchRun]
        cases Batch.run (batchStep rt svc effective) rollbackIf s prepared with
        | error raised => rfl
        | ok done =>
          obtain ⟨kept, outcomes⟩ := done
          cases kept with
          | none => rfl
          | some u =>
            simp only [okBind]
            cases beforeCommit u with
            | error raised => rfl
            | ok t => rfl

/-! ## One item -/

def writeAlone (rt : Runtime) (svc : WriteService) (context : ConnectionContext) (s : Store)
    (timed : TimedWrite rt) : Except Raised (Store × WriteOutcome) :=
  write rt svc context timed.clock s timed.item.request timed.item.candidate

theorem transactQuery {clock : Clock} {request : WriteRequest} {candidate : Option StateCandidate}
    {extracted : Option ExtractedTypedFields} {other : Option (List Rat)}
    (same : loadPrior s context.clientId request.idempotencyKey = none →
      verdict rt svc.policy context s.toLedger request candidate = .ok .untyped →
      untypedMatch rt svc s request extracted query = untypedMatch rt svc s request extracted other) :
    transact rt svc context clock s request candidate extracted query =
      transact rt svc context clock s request candidate extracted other := by
  unfold transact
  cases both : (registerClient s context clock.recordedAt >>= fun s =>
      registerSession s context clock.recordedAt) with
  | error raised =>
    rcases bindError.mp both with first | ⟨middle, first, second⟩
    · rw [first]
      rfl
    · simp only [first, second, okBind]
      rfl
  | ok registered =>
    obtain ⟨middle, first, second⟩ := bindOk.mp both
    obtain ⟨clients, sessions, rfl⟩ := registeredSource both
    simp only [first, second, okBind]
    have key : loadPrior { s with clients, sessions } context.clientId request.idempotencyKey =
        loadPrior s context.clientId request.idempotencyKey := rfl
    rw [key]
    cases free : loadPrior s context.clientId request.idempotencyKey with
    | some prior => rfl
    | none =>
      simp only [writeFresh]
      cases judged : verdict rt svc.policy context s.toLedger request candidate with
      | error raised => rfl
      | ok kind =>
        cases kind with
        | factless decision => rfl
        | typed slot effective => rfl
        | untyped =>
          have found := same free judged
          obtain ⟨observations, recorded⟩ := recordObservationSource
            { s with clients, sessions } context request clock.recordedAt
          have moved : untypedMatch rt svc { s with clients, sessions, observations } request extracted
              query = untypedMatch rt svc { s with clients, sessions, observations } request extracted
                other := found
          simp only [okBind, recorded, moved]

theorem wantsSource {request : WriteRequest} {candidate : Option StateCandidate}
    {decision : Option PolicyDecision} :
    wantsNearDedupQuery svc context s request candidate decision = true ↔
      wantsNearDedupQuery svc context .empty request candidate decision = true ∧
      loadPrior s context.clientId request.idempotencyKey = none ∧
      findUntypedExactDuplicate s.toLedger request = none := by
  have blank : loadPrior .empty context.clientId request.idempotencyKey = none := rfl
  have bare : findUntypedExactDuplicate Store.empty.toLedger request = none := rfl
  cases asked : request.supersedeFactId with
  | some target => simp [wantsNearDedupQuery, asked]
  | none =>
    have plain (l : Ledger) : supersessionPolicy l request none none = none := by
      simp [supersessionPolicy, asked]
    simp only [wantsNearDedupQuery, plain, blank, bare, Bool.and_eq_true, Option.isNone_iff_eq_none]
    tauto

/-- A write on its own on `u` embeds without raising, and the search behind its other lookups
finds nothing. -/
def TimedWrite.Unsearched (svc : WriteService) (effective : ConnectionContext) (u : Store)
    (timed : TimedWrite rt) : Prop :=
  ∃ query, prepareNearDedupQuery rt svc effective u timed.item.request timed.item.candidate =
      .ok query ∧
    (extractedTypedFields rt timed.item.request timed.item.candidate = .ok none →
      findUntypedContradiction u.toLedger timed.item.request = none →
      findUntypedNearDuplicate rt svc u timed.item.request query = none)

/-- The item does not lose, between `s` and `u`, the exact duplicate its query was spared for;
or if it does, it has no use for a query. -/
def TimedWrite.Covered (svc : WriteService) (effective : ConnectionContext) (s u : Store)
    (timed : TimedWrite rt) : Prop :=
  findUntypedExactDuplicate s.toLedger timed.item.request ≠ none →
    findUntypedExactDuplicate u.toLedger timed.item.request = none →
    loadPrior u effective.clientId timed.item.request.idempotencyKey = none →
    timed.Unsearched svc effective u

theorem nearDuplicateUnasked {request : WriteRequest} :
    findUntypedNearDuplicate rt svc s request none = none := by
  simp [findUntypedNearDuplicate]

/-- A query prepared on `s` serves on `u`, behind it, as one prepared there. -/
theorem querySame (older : s.writeLog <+: u.writeLog)
    (prepared : prepareNearDedupQuery rt svc effective s timed.item.request timed.item.candidate =
      .ok query)
    (covered : timed.Covered svc effective s u) :
    ∃ own, prepareNearDedupQuery rt svc effective u timed.item.request timed.item.candidate =
        .ok own ∧
      ∀ extracted, extractedTypedFields rt timed.item.request timed.item.candidate = .ok extracted →
        loadPrior u effective.clientId timed.item.request.idempotencyKey = none →
        untypedMatch rt svc u timed.item.request extracted own =
          untypedMatch rt svc u timed.item.request extracted query := by
  unfold TimedWrite.Covered TimedWrite.Unsearched at covered
  unfold prepareNearDedupQuery at prepared covered ⊢
  obtain ⟨decision, evaluated, prepared⟩ := bindOk.mp prepared
  simp only [evaluated, okBind] at covered ⊢
  cases embedder : svc.queryEmbedder with
  | none =>
    rw [embedder] at prepared
    cases prepared
    exact ⟨none, rfl, fun _ _ _ => rfl⟩
  | some embed =>
    rw [embedder] at prepared covered
    dsimp only at prepared covered ⊢
    cases wants : wantsNearDedupQuery svc effective u timed.item.request timed.item.candidate
      decision with
    | false =>
      refine ⟨none, by simp, fun extracted _ free => ?_⟩
      cases wanted : wantsNearDedupQuery svc effective s timed.item.request timed.item.candidate
        decision with
      | false =>
        rw [wanted] at prepared
        cases prepared
        rfl
      | true =>
        obtain ⟨base, -, -⟩ := wantsSource.mp wanted
        cases exact' : findUntypedExactDuplicate u.toLedger timed.item.request with
        | none =>
          rw [wantsSource.mpr ⟨base, free, exact'⟩] at wants
          cases wants
        | some factId => simp only [untypedMatch, exact']
    | true =>
      obtain ⟨base, free, distinct⟩ := wantsSource.mp wants
      have unlogged : loadPrior s effective.clientId timed.item.request.idempotencyKey = none := by
        rw [loadPriorNone] at free ⊢
        exact fun row hr => free row (older.subset hr)
      cases exact' : findUntypedExactDuplicate s.toLedger timed.item.request with
      | none =>
        rw [wantsSource.mpr ⟨base, unlogged, exact'⟩] at prepared
        exact ⟨query, prepared, fun _ _ _ => rfl⟩
      | some factId =>
        have unwanted : wantsNearDedupQuery svc effective s timed.item.request timed.item.candidate
            decision = false := by
          cases wanted : wantsNearDedupQuery svc effective s timed.item.request timed.item.candidate
            decision with
          | false => rfl
          | true =>
            rw [(wantsSource.mp wanted).2.2] at exact'
            cases exact'
        rw [unwanted] at prepared
        cases prepared
        obtain ⟨own, ready, nothing⟩ := covered (by simp [exact']) distinct free
        rw [wants] at ready
        refine ⟨own, ready, fun extracted fields _ => ?_⟩
        simp only [untypedMatch, distinct]
        split
        · rfl
        · rename_i plain
          split
          · rfl
          · rename_i agrees
            have bare : extracted = none := by
              cases extracted with
              | none => rfl
              | some fields => simp at plain
            rw [nothing (by rw [fields, bare]) agrees, nearDuplicateUnasked]

theorem itemAlone (older : s.writeLog <+: u.writeLog)
    (granted : svc.policy.authorizeContext rt svc.legacyAuthorized context = .ok effective)
    (prepared : prepareNearDedupQuery rt svc effective s timed.item.request timed.item.candidate =
      .ok query)
    (covered : timed.Covered svc effective s u) :
    writeAlone rt svc context u timed = batchStep rt svc effective u (timed, query) := by
  obtain ⟨own, ready, same⟩ := querySame older prepared covered
  simp only [writeAlone, write, batchStep, writePrepared, granted, (authorizeTwice granted).2, okBind]
  cases validateStateCandidate timed.item.request timed.item.candidate with
  | error raised => rfl
  | ok valid =>
    simp only [okBind]
    cases fields : extractedTypedFields rt timed.item.request timed.item.candidate with
    | error raised => rfl
    | ok extracted =>
      simp only [ready, okBind]
      exact transactQuery fun free _ => same extracted fields free

/-! ## An item that is not covered -/

theorem wantedUntyped {l : Ledger} {request : WriteRequest} {candidate : Option StateCandidate}
    {decision : Option PolicyDecision}
    (evaluated : svc.policy.evaluateWrite rt request context.clientId [] = .ok decision)
    (wants : wantsNearDedupQuery svc context s request candidate decision = true) :
    verdict rt svc.policy context l request candidate = .ok .untyped := by
  obtain ⟨base, -⟩ := wantsSource.mp wants
  simp only [wantsNearDedupQuery, Bool.and_eq_true, Option.isNone_iff_eq_none, Bool.not_eq_true'] at base
  obtain ⟨⟨⟨⟨⟨⟨⟨⟨⟨⟨rfl, asked⟩, rfl⟩, scope⟩, sensitivity⟩, -⟩, -⟩, -⟩, -⟩, -⟩, -⟩ := base
  have plain : supersessionPolicy l request none none = none := by simp [supersessionPolicy, asked]
  have decided : requestDecision rt svc.policy context l request none = .ok none := by
    unfold requestDecision
    simp only [evaluated, okBind, scope, sensitivity, plain]
    rfl
  simp only [verdict, decided, okBind]

theorem untypedKind {clock : Clock} {request : WriteRequest} {candidate : Option StateCandidate}
    {extracted : Option ExtractedTypedFields}
    (free : loadPrior s context.clientId request.idempotencyKey = none)
    (judged : verdict rt svc.policy context s.toLedger request candidate = .ok .untyped)
    (h : transact rt svc context clock s request candidate extracted query = .ok (t, outcome)) :
    outcome.outcome = (untypedMatch rt svc s request extracted query).outcome := by
  obtain ⟨clients, sessions, -, ⟨prior, known, -⟩ | ⟨-, fresh⟩⟩ := transactSource h
  · rw [free] at known
    cases known
  · rcases writeFreshSource fresh with ⟨decision, other, -⟩ |
        ⟨applied, observations, observationId, -, done, concluded⟩ |
        ⟨slot, effective, applied, observations, observationId, other, -⟩
    · cases judged.symm.trans other
    · obtain ⟨l, superseded, resolutions, jobs, provenance, -, -, -, answer, -⟩ :=
        concludeAppliedSource concluded
      rw [answer]
      exact appliedOutcome done
    · cases judged.symm.trans other

theorem coveredOfKind {own : Store × WriteOutcome}
    (granted : svc.policy.authorizeContext rt svc.legacyAuthorized context = .ok effective)
    (prepared : prepareNearDedupQuery rt svc effective s timed.item.request timed.item.candidate =
      .ok query)
    (alone : writeAlone rt svc context u timed = .ok own)
    (batched : batchStep rt svc effective u (timed, query) = .ok (t, outcome))
    (kind : own.2.outcome = outcome.outcome) : timed.Covered svc effective s u := by
  intro known distinct free
  obtain ⟨again, vector, regranted, ready, stepped⟩ := writeStep alone
  rw [granted] at regranted
  cases regranted
  refine ⟨vector, ready, fun fields agrees => ?_⟩
  cases near : findUntypedNearDuplicate rt svc u timed.item.request vector with
  | none => rfl
  | some candidate =>
    unfold prepareNearDedupQuery at prepared ready
    obtain ⟨decision, evaluated, ready⟩ := bindOk.mp ready
    simp only [evaluated, okBind] at prepared
    cases embedder : svc.queryEmbedder with
    | none =>
      rw [embedder] at ready
      cases ready
      rw [nearDuplicateUnasked] at near
      cases near
    | some embed =>
      rw [embedder] at ready prepared
      have unwanted : wantsNearDedupQuery svc effective s timed.item.request timed.item.candidate
          decision = false := by
        cases wanted : wantsNearDedupQuery svc effective s timed.item.request timed.item.candidate
          decision with
        | false => rfl
        | true => exact absurd (wantsSource.mp wanted).2.2 known
      have wants : wantsNearDedupQuery svc effective u timed.item.request timed.item.candidate
          decision = true := by
        cases wants : wantsNearDedupQuery svc effective u timed.item.request timed.item.candidate
          decision with
        | true => rfl
        | false =>
          simp only [wants] at ready
          cases ready
          rw [nearDuplicateUnasked] at near
          cases near
      simp only [unwanted] at prepared
      cases prepared
      have judged := wantedUntyped (l := u.toLedger) evaluated wants
      obtain ⟨base, -⟩ := wantsSource.mp wants
      have asked : timed.item.request.supersedeFactId = none := by
        simp only [wantsNearDedupQuery, Bool.and_eq_true, Option.isNone_iff_eq_none] at base
        tauto
      obtain ⟨extracted, -, same, ownDone⟩ := batchStepSource (authorizeTwice granted).2 stepped
      obtain ⟨extracted', -, same', itemDone⟩ := batchStepSource (authorizeTwice granted).2 batched
      cases fields.symm.trans same
      cases fields.symm.trans same'
      have ownKind := untypedKind free judged ownDone
      have itemKind := untypedKind free judged itemDone
      -- the search finds something for the write on its own, and is not made for the item
      have inserted : untypedMatch rt svc u timed.item.request none none = .fresh := by
        simp [untypedMatch, distinct, asked, agrees, nearDuplicateUnasked]
      rw [kind, itemKind, inserted] at ownKind
      dsimp only at ownKind
      unfold untypedMatch at ownKind
      rw [distinct, asked, agrees, near] at ownKind
      cases joins : contradictionFromNearDuplicate u.toLedger timed.item.request candidate with
      | none => simp [joins, UntypedMatch.outcome] at ownKind
      | some found => simp [joins, UntypedMatch.outcome] at ownKind

/-! ## The whole list -/

/-- Every item of a batch is covered in the store the items before it leave. -/
def BatchCovers (rt : Runtime) (svc : WriteService) (context : ConnectionContext) (s : Store)
    (writes : List (TimedWrite rt)) : Prop :=
  ∀ effective prepared pre item post u answers,
    svc.policy.authorizeContext rt svc.legacyAuthorized context = .ok effective →
    prepareBatch rt svc effective s writes = .ok prepared → prepared = pre ++ item :: post →
    Batch.each (batchStep rt svc effective) s pre = .ok (u, answers) →
    item.1.Covered svc effective s u

section Whole
variable {writes : List (TimedWrite rt)} {prepared : List (TimedWrite rt × Option (List Rat))}
  {outcomes : List WriteOutcome}
  (granted : svc.policy.authorizeContext rt svc.legacyAuthorized context = .ok effective)
include granted

theorem sequenceOfCovers (older : s.writeLog <+: u.writeLog)
    (ready : prepareBatch rt svc effective s writes = .ok prepared)
    (covers : ∀ pre item post v answers, prepared = pre ++ item :: post →
      Batch.each (batchStep rt svc effective) u pre = .ok (v, answers) →
      item.1.Covered svc effective s v)
    (done : Batch.each (batchStep rt svc effective) u prepared = .ok (t, outcomes)) :
    Batch.each (writeAlone rt svc context) u writes = .ok (t, outcomes) := by
  induction writes generalizing prepared u outcomes with
  | nil =>
    cases ready
    exact done
  | cons timed rest ih =>
    obtain ⟨item, tail, here, later, rfl⟩ := mapMCons.mp ready
    obtain ⟨query, prepared, last⟩ := bindOk.mp here
    cases last
    obtain ⟨middle, answer, answers, first, then', rfl⟩ := Batch.eachCons.mp done
    have covered := covers [] (timed, query) tail u [] rfl rfl
    refine Batch.eachCons.mpr ⟨middle, answer, answers, ?_, ?_, rfl⟩
    · rw [itemAlone older granted prepared covered]
      exact first
    · refine ih (older.trans (stepGrows (authorizeTwice granted).2 first)) later ?_ then'
      intro pre other post v before shape ran
      exact covers ((timed, query) :: pre) other post v (answer :: before) (by rw [shape]; rfl)
        (Batch.eachCons.mpr ⟨middle, answer, before, first, ran, rfl⟩)

theorem coversOfSequence {t' : Store} {outcomes' : List WriteOutcome}
    (older : s.writeLog <+: u.writeLog)
    (ready : prepareBatch rt svc effective s writes = .ok prepared)
    (done : Batch.each (batchStep rt svc effective) u prepared = .ok (t, outcomes))
    (sequence : Batch.each (writeAlone rt svc context) u writes = .ok (t', outcomes'))
    (kinds : outcomes'.map WriteOutcome.outcome = outcomes.map WriteOutcome.outcome) :
    ∀ pre item post v answers, prepared = pre ++ item :: post →
      Batch.each (batchStep rt svc effective) u pre = .ok (v, answers) →
      item.1.Covered svc effective s v := by
  induction writes generalizing prepared u outcomes outcomes' with
  | nil =>
    cases ready
    intro pre item post v answers shape
    cases pre <;> cases shape
  | cons timed rest ih =>
    obtain ⟨item, tail, here, later, rfl⟩ := mapMCons.mp ready
    obtain ⟨query, prepared, last⟩ := bindOk.mp here
    cases last
    obtain ⟨middle, answer, answers, first, then', rfl⟩ := Batch.eachCons.mp done
    obtain ⟨middle', answer', answers', first', after, rfl⟩ := Batch.eachCons.mp sequence
    obtain ⟨kind, restKinds⟩ := List.cons.inj kinds
    have covered := coveredOfKind granted prepared first' first kind
    rw [itemAlone older granted prepared covered, first] at first'
    cases first'
    intro pre other post v before shape ran
    cases pre with
    | nil =>
      cases shape
      cases ran
      exact covered
    | cons head pre =>
      obtain ⟨rfl, tailShape⟩ := List.cons.inj shape
      obtain ⟨middle', answer', before', first', ran, -⟩ := Batch.eachCons.mp ran
      rw [first] at first'
      cases first'
      exact ih (older.trans (stepGrows (authorizeTwice granted).2 first)) later then' after restKinds pre
        other post v before' tailShape ran

end Whole

/-- A batch over an idle connection leaves no transaction open, and the store as it was unless it
commits. A committed batch is the sequence of its writes, answers included, exactly when its items
are covered; when they are not, no sequence even answers in the same kinds. -/
theorem batchIsSequence {torn : TimedWrite rt × Option (List Rat) → Store → Store}
    {tornHook : Store → Store} {writes : List (TimedWrite rt)} {rollbackIf : WriteOutcome → Bool}
    {beforeCommit : Store → Except Raised Store} {after : Transaction.Connection Store}
    {answer : Except Raised WriteBatchOutcome}
    (h : writeBatchOn rt svc context torn tornHook (Transaction.idle s) writes rollbackIf
      beforeCommit = (after, answer)) :
    after.pending = none ∧
    ((∀ batch, answer = .ok batch → batch.committed = false) → after.durable = s) ∧
    ∀ batch, answer = .ok batch → batch.committed = true →
      ((∃ u, Batch.each (writeAlone rt svc context) s writes = .ok (u, batch.outcomes) ∧
          beforeCommit u = .ok after.durable) ↔ BatchCovers rt svc context s writes) ∧
      ∀ u outcomes, Batch.each (writeAlone rt svc context) s writes = .ok (u, outcomes) →
        outcomes.map WriteOutcome.outcome = batch.outcomes.map WriteOutcome.outcome →
        BatchCovers rt svc context s writes := by
  rw [writeBatchRefines] at h
  cases ran : writeBatch rt svc context s writes rollbackIf beforeCommit with
  | error raised =>
    rw [ran] at h
    cases h
    exact ⟨rfl, fun _ => rfl, fun batch same => by cases same⟩
  | ok done =>
    obtain ⟨t, batch⟩ := done
    rw [ran] at h
    cases h
    refine ⟨rfl, fun refused => ?_, fun batch same committed => ?_⟩
    · rcases writeBatchSource ran with ⟨-, same⟩ | ⟨committed, -⟩
      · exact same
      · rw [refused batch rfl] at committed
        cases committed
    · cases same
      rcases writeBatchSource ran with ⟨refused, -⟩ |
          ⟨-, effective, prepared, u, -, granted, ready, items, -, hooked⟩
      · rw [refused] at committed
        cases committed
      · have kinds : ∀ v outcomes, Batch.each (writeAlone rt svc context) s writes = .ok (v, outcomes) →
            outcomes.map WriteOutcome.outcome = batch.outcomes.map WriteOutcome.outcome →
            BatchCovers rt svc context s writes := by
          intro v outcomes sequence kinds again prepared' pre item post w answers regranted reready
          rw [granted] at regranted
          cases regranted
          rw [ready] at reready
          cases reready
          exact coversOfSequence granted List.prefix_rfl ready items sequence kinds pre item post w
            answers
        refine ⟨⟨fun same => ?_, fun covers => ?_⟩, kinds⟩
        · obtain ⟨v, sequence, -⟩ := same
          exact kinds v batch.outcomes sequence rfl
        · refine ⟨u, sequenceOfCovers granted List.prefix_rfl ready ?_ items, hooked⟩
          intro pre item post v answers shape before
          exact covers effective prepared pre item post v answers granted ready shape before

namespace Example

theorem dogsClaimed : ({ WriteRequest.plain "k3" "dogs bark loudly" "user" with supersedeFactId := none } :
    WriteRequest).postInit =
      .ok { WriteRequest.plain "k3" "dogs bark loudly" "user" with supersedeFactId := none } := by
  decide +kernel

/-- A store of two claims in nearly the same words, the second of them embedded. -/
def cats : Store :=
  history ([
    .write trusted caller (claim "k1" "the cat sat on the mat" none catClaimed),
    .write trusted caller (claim "k2" "a cat sat on the mat" none (by decide +kernel)),
    .storeEmbedding ⟨2, [1], 1, "m"⟩] : List (Operation .plain))

def remade : List (TimedWrite .plain) :=
  [claim "k3" "dogs bark loudly" (some 1) (by decide +kernel),
    claim "k4" "the cat sat on the mat" none (by decide +kernel)]

def newClaims : List (TimedWrite .plain) :=
  [claim "k3" "dogs bark loudly" none dogsClaimed,
    claim "k4" "birds sing" none (by decide +kernel)]

theorem batchIsSequenceHere : ∃ batch u,
    (writeBatchOn .plain searching caller (fun _ s => s) id (Transaction.idle cats) newClaims
      (fun _ => false) .ok).2 = .ok batch ∧ batch.committed = true ∧
    Batch.each (writeAlone .plain searching caller) cats newClaims = .ok (u, batch.outcomes) ∧
    (writeBatchOn .plain searching caller (fun _ s => s) id (Transaction.idle cats) newClaims
      (fun _ => false) .ok).1.durable = u := by
  have ran : ((writeBatchOn .plain searching caller (fun _ s => s) id (Transaction.idle cats) newClaims
      (fun _ => false) .ok).2.toOption.map fun batch =>
        (batch.committed, batch.outcomes.map WriteOutcome.outcome)) =
      some (true, [.inserted, .inserted]) := by decide +kernel
  have alone : ((Batch.each (writeAlone .plain searching caller) cats newClaims).toOption.map fun done =>
      done.2.map WriteOutcome.outcome) = some [.inserted, .inserted] := by decide +kernel
  obtain ⟨batch, answered, shape⟩ := Option.map_eq_some_iff.mp ran
  obtain ⟨committed, kinds⟩ := Prod.mk.inj shape
  obtain ⟨⟨v, outcomes⟩, sequence, kinds'⟩ := Option.map_eq_some_iff.mp alone
  obtain ⟨after, answer, run⟩ : ∃ after answer, writeBatchOn .plain searching caller (fun _ s => s) id
      (Transaction.idle cats) newClaims (fun _ => false) .ok = (after, answer) := ⟨_, _, rfl⟩
  rw [run] at answered ⊢
  obtain ⟨-, -, whole⟩ := batchIsSequence run
  obtain ⟨same, covers⟩ := whole batch (okOfOption answered) committed
  obtain ⟨u, exactly, hooked⟩ := same.mpr
    (covers v outcomes (okOfOption sequence) (kinds'.trans kinds.symm))
  exact ⟨batch, u, okOfOption answered, committed, exactly, (Except.ok.inj hooked).symm⟩

/-- The batch stores the claim made again as new, its own write merges it into the second one. -/
theorem laterSearchMissed : ∃ t batch,
    writeBatch .plain searching caller cats remade (fun _ => false) .ok = .ok (t, batch) ∧
    batch.committed = true ∧
    ∃ u outcomes, Batch.each (writeAlone .plain searching caller) cats remade = .ok (u, outcomes) ∧
      outcomes.map WriteOutcome.outcome ≠ batch.outcomes.map WriteOutcome.outcome ∧
      (u.facts.filter Fact.current).length ≠ (t.facts.filter Fact.current).length := by
  have ran : ((writeBatch .plain searching caller cats remade (fun _ => false) .ok).toOption.map
      fun done => (done.2.committed, done.2.outcomes.map WriteOutcome.outcome,
        (done.1.facts.filter Fact.current).length)) =
      some (true, [.inserted, .inserted], 3) := by decide +kernel
  have alone : ((Batch.each (writeAlone .plain searching caller) cats remade).toOption.map fun done =>
      (done.2.map WriteOutcome.outcome, (done.1.facts.filter Fact.current).length)) =
      some ([.inserted, .nearDedup], 2) := by decide +kernel
  obtain ⟨⟨t, batch⟩, answered, shape⟩ := Option.map_eq_some_iff.mp ran
  obtain ⟨committed, shape⟩ := Prod.mk.inj shape
  obtain ⟨kinds, current⟩ := Prod.mk.inj shape
  obtain ⟨⟨u, outcomes⟩, sequence, shape'⟩ := Option.map_eq_some_iff.mp alone
  obtain ⟨kinds', current'⟩ := Prod.mk.inj shape'
  refine ⟨t, batch, okOfOption answered, committed, u, outcomes, okOfOption sequence, ?_, ?_⟩
  · rw [kinds, kinds']
    decide
  · rw [current, current']
    decide

end Example
end Enfold
