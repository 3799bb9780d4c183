import Enfold.ExtractionJobs
import Enfold.PromotionRetry
import Enfold.SnapshotDelivery
import Enfold.UntypedTotality

/-! A finished transcript enqueued again. The keys of its writes are those of the first job, but their requests
name the new queue row, so that what the first job logged is a conflict for the second one and no replay. -/
namespace Enfold

open Fallible

variable {rt : Runtime}

/-! ## One write -/

/-- The store holds what the write states: its lookups answer it with a stored fact. -/
def WriteItem.Restated (item : WriteItem rt) (svc : WriteService) (context : ConnectionContext) (l : Ledger) : Prop :=
  verdict rt svc.policy context l item.request item.candidate = .ok .untyped ∧
      (findUntypedExactDuplicate l item.request).isSome = true ∨
    ∃ slot effective, verdict rt svc.policy context l item.request item.candidate = .ok (.typed slot effective) ∧
      slot.action = .dedup

def WriteItem.Unlogged (item : WriteItem rt) (context : ConnectionContext) (s : Store) : Prop :=
  loadPrior s context.clientId item.request.idempotencyKey = none

/-- A valid write that nothing is logged for, and that states what the store holds. -/
structure WriteItem.Held (item : WriteItem rt) (svc : WriteService) (context : ConnectionContext) (s : Store) :
    Prop where
  readable : item.Readable
  unlogged : item.Unlogged context s
  restated : item.Restated svc context s.toLedger

def WriteOutcome.Settled (outcome : WriteOutcome) : Prop := outcome.replayed = true ∨ outcome.outcome = .dedup

theorem loadPriorAppend {s t : Store} {clientId key : String} {row : WriteLogRow} (log : t.writeLog = s.writeLog ++ [row])
    (other : row.idempotencyKey ≠ key) : loadPrior t clientId key = loadPrior s clientId key := by
  rw [loadPrior, log, List.find?_append, List.find?_singleton, if_neg (by simp [other]), Option.or_none]
  rfl

section Steps
variable {svc : WriteService} {effective : ConnectionContext} {s t : Store} {timed : TimedWrite rt}
  {query : Option (List Rat)} {outcome : WriteOutcome}

def Store.Welcomes (s : Store) (context : ConnectionContext) : Prop :=
  ∀ now, ∃ clients sessions, (registerClient s context now >>= fun s => registerSession s context now) =
    .ok { s with clients, sessions }

theorem stepWelcomes (authorized : svc.policy.authorizeContext rt svc.legacyAuthorized effective = .ok effective)
    (h : batchStep rt svc effective s (timed, query) = .ok (t, outcome)) : t.Welcomes effective := by
  obtain ⟨extracted, -, -, done⟩ := batchStepSource authorized h
  obtain ⟨clients, sessions, both, rfl, rfl⟩ := transactRegisters done
  obtain ⟨client, session⟩ := registeredKnown both
  exact (registersFound client session).made

theorem stepKeepsQueue (authorized : svc.policy.authorizeContext rt svc.legacyAuthorized effective = .ok effective)
    (h : batchStep rt svc effective s (timed, query) = .ok (t, outcome)) : t.queue = s.queue := by
  obtain ⟨extracted, -, -, done⟩ := batchStepSource authorized h
  exact transactQueue done

structure Confirms (s t : Store) (item : WriteItem rt) : Prop where
  facts : t.toLedger = s.toLedger
  logged : ∃ row, t.writeLog = s.writeLog ++ [row] ∧ row.idempotencyKey = item.request.idempotencyKey

theorem peerPlaced {l : Ledger} {c : StateCandidate} {f : Fact} (mem : f ∈ l.peers rt c) :
    f ∈ l.facts ∧ f.scope = c.scope := by
  unfold Ledger.peers at mem
  split at mem
  · obtain ⟨believed, -⟩ := List.mem_filter.mp mem
    obtain ⟨mem, hit⟩ := List.mem_filter.mp believed
    simp only [Fact.inSlot, Bool.and_eq_true, decide_eq_true_eq] at hit
    exact ⟨mem, hit.1.2.1.1⟩
  · obtain ⟨mem, hit⟩ := List.mem_filter.mp mem
    simp only [Fact.inSlot, Bool.and_eq_true, decide_eq_true_eq] at hit
    exact ⟨mem, hit.1.1.2.1.1⟩

theorem dedupLogged {context : ConnectionContext} {clock : Clock} {request : WriteRequest}
    {candidate : Option StateCandidate} {extracted : Option ExtractedTypedFields}
    (foreign : ∀ row, loadPrior s context.clientId request.idempotencyKey = some row →
      row.requestSha256 ≠ requestSha256 context request candidate)
    (done : transact rt svc context clock s request candidate extracted query = .ok (t, outcome))
    (kind : outcome.outcome = .dedup) :
    ∃ row, t.writeLog = s.writeLog ++ [row] ∧ row.idempotencyKey = request.idempotencyKey := by
  cases answered done with
  | replayed known same => exact absurd same (foreign _ known)
  | passing _ _ _ _ environmental =>
    rcases environmental with review | ⟨rejected, -⟩
    · rw [kind] at review
      cases review
    · rw [kind] at rejected
      cases rejected
  | logged _ _ log => exact ⟨_, log, rfl⟩

theorem dedupPeer {l : Ledger} {policy : MemoryPolicy} {context : ConnectionContext} {item : WriteItem rt}
    {value : StateCandidate} {slot : SlotDecision}
    (valid : validateStateCandidate item.request item.candidate = .ok ())
    (judged : verdict rt policy context l item.request item.candidate = .ok (.typed slot value))
    (action : slot.action = .dedup) :
    ∃ f ∈ l.facts, f.scope = item.request.scope ∧ slot.evidence = some f.factId := by
  obtain ⟨c, -, given, -⟩ := verdictTyped judged
  rw [given] at judged valid
  obtain ⟨-, -, placed, -, -, -, case⟩ := typedCase (item.candidateBuilt c given) valid judged
  cases case with
  | @dedup same _ _ found aimed =>
    obtain ⟨mem, scope⟩ := peerPlaced (List.mem_of_find?_eq_some found)
    exact ⟨same, mem, scope.trans placed, by simp [SlotDecision.evidence, action, aimed]⟩
  | add _ other => rw [action] at other; cases other
  | contested _ _ other => rw [action] at other; rcases other with ⟨other, -⟩ | other <;> cases other
  | against _ _ _ _ other =>
    rw [action] at other
    rcases other with ⟨other, -⟩ | ⟨other, -⟩ | ⟨other, -⟩ <;> cases other

theorem settledStep (keyed : s.toLedger.Keyed)
    (authorized : svc.policy.authorizeContext rt svc.legacyAuthorized effective = .ok effective)
    (additive : timed.item.request.supersedeFactId = none)
    (foreign : ∀ row, loadPrior s effective.clientId timed.item.request.idempotencyKey = some row →
      row.requestSha256 ≠ requestSha256 effective timed.item.request timed.item.candidate)
    (h : batchStep rt svc effective s (timed, query) = .ok (t, outcome)) (settled : outcome.Settled) :
    outcome.outcome = .dedup ∧ timed.item.Unlogged effective s ∧ timed.item.Restated svc effective s.toLedger ∧
      Confirms s t timed.item := by
  obtain ⟨extracted, valid, fields, done⟩ := batchStepSource authorized h
  have kind : outcome.replayed = false → outcome.outcome = .dedup := by
    intro first
    rcases settled with replayed | kind
    · rw [first] at replayed
      cases replayed
    · exact kind
  have answer := transactAnswer keyed done
  generalize changed : t.toLedger = l at answer
  cases answer with
  | replayed found same => exact absurd same (foreign _ found)
  | @factless decision _ free judged refused _ first =>
    have same := kind first
    rw [refused] at same
    rcases decision.factless with other | other
    · rw [other] at same
      cases same
    · rw [other] at same
      cases same
  | @untyped found l₁ result _ _ free bare judged chosen effect superseded tells =>
    have dedup := kind tells.replayed
    have rows := dedupLogged foreign done dedup
    have same := dedup
    rw [tells.kind] at same
    cases effect with
    | @duplicate factId =>
      have matched : Matched rt svc s timed.item.request extracted query (.duplicate factId) :=
        chosen ▸ untypedMatchSource
      cases matched with
      | duplicate exact' =>
        cases superseded with
        | unasked => exact ⟨dedup, free, .inl ⟨judged, by rw [exact']; rfl⟩, ⟨changed, rows⟩⟩
        | retired asked =>
          rw [additive] at asked
          cases asked
    | fresh => cases same
    | dispute => cases same
    | wins => cases same
    | loses => cases same
  | @typed c slot value _ result _ free given judged effect answers _ tells =>
    have same := kind tells.replayed
    have rows := dedupLogged foreign done same
    have action : slot.action = .dedup := by
      rw [tells.kind] at same
      rcases answers with ⟨target, -, rfl⟩ | ⟨-, rfl⟩
      · cases action : slot.action <;> rw [action] at same <;> cases same
      · cases action : slot.action <;> rw [action] at same <;> cases same
    obtain ⟨f, -, -, known⟩ := dedupPeer valid judged action
    refine ⟨same, free, .inr ⟨slot, value, judged, action⟩, ⟨?_, rows⟩⟩
    rw [changed]
    cases effect with
    | evidence => rfl
    | add fresh => rw [known] at fresh; cases fresh
    | replace other => rw [action] at other; cases other
    | dispute other => rw [action] at other; cases other
    | join other => rw [action] at other; cases other
    | settle other => rw [action] at other; cases other

theorem stepReadable (authorized : svc.policy.authorizeContext rt svc.legacyAuthorized effective = .ok effective)
    (h : batchStep rt svc effective s (timed, query) = .ok (t, outcome))
    (restated : timed.item.Restated svc effective s.toLedger) : timed.item.Readable := by
  refine (stepAnswered authorized h).2 ?_
  rcases restated with ⟨judged, -⟩ | ⟨slot, value, judged, -⟩
  · exact verdictKnown judged
  · exact verdictKnown judged

theorem restatedStep (keyed : s.toLedger.Keyed)
    (authorized : svc.policy.authorizeContext rt svc.legacyAuthorized effective = .ok effective)
    (admits : s.Welcomes effective) (readable : timed.item.Readable)
    (additive : timed.item.request.supersedeFactId = none) (free : timed.item.Unlogged effective s)
    (restated : timed.item.Restated svc effective s.toLedger) :
    ∃ t outcome, batchStep rt svc effective s (timed, query) = .ok (t, outcome) ∧ outcome.replayed = false ∧
      outcome.outcome = .dedup := by
  obtain ⟨extracted, fields⟩ := readable.fields
  obtain ⟨clients, sessions, both⟩ := admits timed.clock.recordedAt
  have step : batchStep rt svc effective s (timed, query) = writeFresh rt svc effective timed.clock
      { s with clients, sessions } timed.item.request timed.item.candidate extracted query := by
    simp only [batchStep, writePrepared, authorized, readable.valid, fields, okBind]
    exact transactFresh both free
  rw [step]
  obtain ⟨observations, recorded⟩ := recordObservationSource { s with clients, sessions } effective
    timed.item.request timed.clock.recordedAt
  -- either lookup answers with a stored fact of the scope, and the rest of the write goes through
  have concluded (decision : Option SlotDecision) (applied : Applied) (observationId : Nat) {f : Fact}
      (same : applied.ledger = s.toLedger) (resolution : applied.resolution = none) (enqueue : applied.enqueue = none)
      (kind : applied.result.outcome = .dedup) (mem : f ∈ s.facts) (id : f.factId = applied.result.factId)
      (scope : f.scope = timed.item.request.scope) :
      ∃ t outcome, concludeApplied rt svc effective timed.clock { s with clients, sessions, observations }
        timed.item.request timed.item.candidate observationId decision applied = .ok (t, outcome) ∧
        outcome.replayed = false ∧ outcome.outcome = .dedup := by
    have retired : ∃ done, supersedeApplied applied.ledger timed.item.request timed.item.candidate
        applied.result.factId timed.clock.recordedAt = .ok done := by
      cases timed.item.candidate with
      | none => exact ⟨_, by rw [supersedeApplied, additive]; rfl⟩
      | some c => exact ⟨_, rfl⟩
    obtain ⟨t, outcome, done⟩ : ∃ t outcome, concludeApplied rt svc effective timed.clock
        { s with clients, sessions, observations } timed.item.request timed.item.candidate observationId decision
        applied = .ok (t, outcome) := concludeOk ⟨f, same ▸ mem, id, scope⟩ (same ▸ keyed) resolution (by simp [enqueue]) free retired
    obtain ⟨l, superseded, resolutions, jobs, provenance, -, -, -, answer, -⟩ := concludeAppliedSource done
    exact ⟨t, outcome, done, by rw [answer], by rw [answer]; exact kind⟩
  rcases restated with ⟨judged, found⟩ | ⟨slot, value, judged, action⟩
  · obtain ⟨factId, exact'⟩ := Option.isSome_iff_exists.mp found
    obtain ⟨f, mem, id, here, -⟩ := exactDuplicateSource exact'
    have scope : f.scope = timed.item.request.scope := by
      simp only [Fact.openIn, Bool.and_eq_true, decide_eq_true_eq] at here
      exact here.1.1
    have chosen : untypedMatch rt svc { s with clients, sessions, observations } timed.item.request extracted query =
      .duplicate factId := Matched.found (.duplicate exact')
    obtain ⟨t, outcome, done, answer⟩ := concluded none
      ⟨s.toLedger, ⟨factId, .dedup, some factId⟩, none, none, none, none, none⟩ _ rfl rfl rfl rfl mem id scope
    refine ⟨t, outcome, bindOk.mpr ⟨_, judged, ?_⟩, answer⟩
    dsimp only
    rw [recorded, chosen]
    exact bindOk.mpr ⟨_, rfl, done⟩
  · obtain ⟨f, mem, scope, known⟩ := dedupPeer readable.valid judged action
    have applied : applyTyped rt s.toLedger effective timed.item.request extracted slot value timed.clock =
        .ok ⟨s.toLedger, ⟨f.factId, .dedup, some f.factId⟩, none, none, none, none, none⟩ := by
      simp [applyTyped, known, action, DecisionAction.outcome]
    obtain ⟨t, outcome, done, answer⟩ := concluded (some slot)
      ⟨s.toLedger, ⟨f.factId, .dedup, some f.factId⟩, none, none, none, none, none⟩ _ rfl rfl rfl rfl mem rfl scope
    refine ⟨t, outcome, bindOk.mpr ⟨_, judged, ?_⟩, answer⟩
    dsimp only
    rw [recorded]
    exact bindOk.mpr ⟨_, applied, done⟩

theorem stepUnlogged (authorized : svc.policy.authorizeContext rt svc.legacyAuthorized effective = .ok effective)
    (foreign : ∀ row, loadPrior s effective.clientId timed.item.request.idempotencyKey = some row →
      row.requestSha256 ≠ requestSha256 effective timed.item.request timed.item.candidate)
    (h : batchStep rt svc effective s (timed, query) = .ok (t, outcome)) : timed.item.Unlogged effective s := by
  cases (stepAnswered authorized h).1 with
  | replayed known same => exact absurd same (foreign _ known)
  | passing free => exact free
  | logged free => exact free

theorem stepPrior (authorized : svc.policy.authorizeContext rt svc.legacyAuthorized effective = .ok effective)
    (h : batchStep rt svc effective s (timed, query) = .ok (t, outcome)) {clientId key : String}
    (other : timed.item.request.idempotencyKey ≠ key) : loadPrior t clientId key = loadPrior s clientId key := by
  cases (stepAnswered authorized h).1 with
  | replayed _ _ registered =>
    rw [registered]
    rfl
  | passing _ log =>
    rw [loadPrior, log]
    rfl
  | logged _ _ log => exact loadPriorAppend log other

theorem conflictStep (authorized : svc.policy.authorizeContext rt svc.legacyAuthorized effective = .ok effective)
    (admits : s.Welcomes effective) (readable : timed.item.Readable)
    (foreign : ∀ row, loadPrior s effective.clientId timed.item.request.idempotencyKey = some row →
      row.requestSha256 ≠ requestSha256 effective timed.item.request timed.item.candidate)
    (logged : ¬ timed.item.Unlogged effective s) :
    batchStep rt svc effective s (timed, query) =
      .error ⟨.idempotencyConflict, "idempotency key was already used for a different request"⟩ := by
  obtain ⟨extracted, fields⟩ := readable.fields
  obtain ⟨clients, sessions, both⟩ := admits timed.clock.recordedAt
  obtain ⟨middle, first, second⟩ := bindOk.mp both
  obtain ⟨row, known⟩ := Option.ne_none_iff_exists'.mp logged
  have here : loadPrior { s with clients, sessions } effective.clientId timed.item.request.idempotencyKey =
    some row := known
  simp only [batchStep, writePrepared, authorized, readable.valid, fields, okBind, transact, first, second, here,
    if_pos (foreign row known)]

end Steps

/-! ## The batch -/

section Batches
variable {svc : WriteService} {effective : ConnectionContext} {s t : Store}
  {batch : List (TimedWrite rt × Option (List Rat))} {answers : List WriteOutcome}

/-- The item has an answer of its own to come: what is logged under its key was asked otherwise. -/
def WriteItem.Foreign (item : WriteItem rt) (context : ConnectionContext) (s : Store) : Prop :=
  ∀ row, loadPrior s context.clientId item.request.idempotencyKey = some row →
    row.requestSha256 ≠ requestSha256 context item.request item.candidate

def batchKeys (batch : List (TimedWrite rt × Option (List Rat))) : List String :=
  batch.map fun write => write.1.item.request.idempotencyKey

theorem settledBatch (keyed : s.toLedger.Keyed)
    (authorized : svc.policy.authorizeContext rt svc.legacyAuthorized effective = .ok effective)
    (apart : (batchKeys batch).Nodup)
    (each : ∀ write ∈ batch, write.1.item.request.supersedeFactId = none ∧ write.1.item.Foreign effective s)
    (done : Batch.each (batchStep rt svc effective) s batch = .ok (t, answers))
    (settled : ∀ answer ∈ answers, answer.Settled) :
    (∀ answer ∈ answers, answer.outcome = .dedup) ∧ t.toLedger = s.toLedger ∧
      ∀ write ∈ batch, write.1.item.Held svc effective s := by
  induction batch generalizing s answers with
  | nil =>
    cases done
    exact ⟨fun _ none => absurd none List.not_mem_nil, rfl, fun _ none => absurd none List.not_mem_nil⟩
  | cons write rest ih =>
    obtain ⟨u, answer, tail, first, later, rfl⟩ := Batch.eachCons.mp done
    obtain ⟨additive, foreign⟩ := each write List.mem_cons_self
    obtain ⟨kind, unlogged, restated, facts, row, log, key⟩ := settledStep keyed authorized additive foreign
      first (settled answer List.mem_cons_self)
    obtain ⟨fresh, distinct⟩ := List.nodup_cons.mp apart
    have other {w : TimedWrite rt × Option (List Rat)} (inside : w ∈ rest) :
        row.idempotencyKey ≠ w.1.item.request.idempotencyKey := by
      rw [key]
      exact fun same => fresh (List.mem_map.mpr ⟨w, inside, same.symm⟩)
    obtain ⟨kinds, stays, tails⟩ := ih (s := u) (facts ▸ keyed) distinct
      (fun w inside => by
        obtain ⟨additive, foreign⟩ := each w (List.mem_cons_of_mem _ inside)
        refine ⟨additive, fun logged found => foreign logged ?_⟩
        rwa [loadPriorAppend log (other inside)] at found)
      later fun answer inside => settled answer (List.mem_cons_of_mem _ inside)
    refine ⟨List.forall_mem_cons.mpr ⟨kind, kinds⟩, stays.trans facts,
      List.forall_mem_cons.mpr ⟨⟨stepReadable authorized first restated, unlogged, restated⟩, fun w inside => ?_⟩⟩
    obtain ⟨readable, unlogged, restated⟩ := tails w inside
    rw [WriteItem.Unlogged, loadPriorAppend log (other inside)] at unlogged
    rw [facts] at restated
    exact ⟨readable, unlogged, restated⟩

theorem restatedBatch (keyed : s.toLedger.Keyed)
    (authorized : svc.policy.authorizeContext rt svc.legacyAuthorized effective = .ok effective)
    (admits : s.Welcomes effective) (apart : (batchKeys batch).Nodup)
    (each : ∀ write ∈ batch, write.1.item.request.supersedeFactId = none ∧ write.1.item.Held svc effective s) :
    ∃ t answers, Batch.each (batchStep rt svc effective) s batch = .ok (t, answers) ∧ t.toLedger = s.toLedger ∧
      t.queue = s.queue ∧ ∀ answer ∈ answers, answer.outcome = .dedup := by
  induction batch generalizing s with
  | nil => exact ⟨s, [], rfl, rfl, rfl, fun _ none => absurd none List.not_mem_nil⟩
  | cons write rest ih =>
    obtain ⟨additive, readable, unlogged, restated⟩ := each write List.mem_cons_self
    obtain ⟨u, answer, first, -, kind⟩ : ∃ u answer, batchStep rt svc effective s (write.1, write.2) = .ok (u, answer) ∧
        answer.replayed = false ∧ answer.outcome = .dedup :=
      restatedStep keyed authorized admits readable additive unlogged restated
    have foreign : write.1.item.Foreign effective s := by
      intro row found
      rw [unlogged] at found
      cases found
    obtain ⟨-, -, -, facts, row, log, key⟩ := settledStep keyed authorized additive foreign first (.inr kind)
    obtain ⟨fresh, distinct⟩ := List.nodup_cons.mp apart
    obtain ⟨t, tail, later, stays, queue, kinds⟩ := ih (s := u) (facts ▸ keyed) (stepWelcomes authorized first) distinct
      (fun w inside => by
        obtain ⟨additive, readable, unlogged, restated⟩ := each w (List.mem_cons_of_mem _ inside)
        refine ⟨additive, readable, ?_, facts ▸ restated⟩
        rw [WriteItem.Unlogged, loadPriorAppend log ?_]
        · exact unlogged
        · rw [key]
          exact fun same => fresh (List.mem_map.mpr ⟨w, inside, same.symm⟩))
    refine ⟨t, answer :: tail, Batch.eachCons.mpr ⟨u, answer, tail, first, later, rfl⟩, stays.trans facts,
      queue.trans (stepKeepsQueue authorized first), List.forall_mem_cons.mpr ⟨kind, kinds⟩⟩

theorem performedUnlogged (authorized : svc.policy.authorizeContext rt svc.legacyAuthorized effective = .ok effective)
    (apart : (batchKeys batch).Nodup) (foreign : ∀ write ∈ batch, write.1.item.Foreign effective s)
    (done : Batch.each (batchStep rt svc effective) s batch = .ok (t, answers)) :
    ∀ write ∈ batch, write.1.item.Unlogged effective s := by
  induction batch generalizing s answers with
  | nil => exact fun _ none => absurd none List.not_mem_nil
  | cons write rest ih =>
    obtain ⟨u, answer, tail, first, later, rfl⟩ := Batch.eachCons.mp done
    obtain ⟨fresh, distinct⟩ := List.nodup_cons.mp apart
    have stays {w : TimedWrite rt × Option (List Rat)} (inside : w ∈ rest) :
        loadPrior u effective.clientId w.1.item.request.idempotencyKey =
          loadPrior s effective.clientId w.1.item.request.idempotencyKey :=
      stepPrior authorized first fun same => fresh (List.mem_map.mpr ⟨w, inside, same.symm⟩)
    refine List.forall_mem_cons.mpr ⟨stepUnlogged authorized (foreign write List.mem_cons_self) first,
      fun w inside => ?_⟩
    have unlogged := ih distinct (fun w inside row found =>
      foreign w (List.mem_cons_of_mem _ inside) row ((stays inside).symm.trans found)) later w inside
    exact (stays inside).symm.trans unlogged

end Batches

/-! ## The job -/

section Jobs
variable {svc : WriteService} {context effective : ConnectionContext} {lease : ExtractionLease} {readings : Readings}
  {s t : Store} {items : List (WriteItem rt)}

/-- The queue rows that logged writes of the client name were all handed out before. -/
def Store.RowsGiven (s : Store) (clientId : String) (nextQueueId : Nat) : Prop :=
  ∀ row ∈ s.writeLog, row.clientId = clientId →
    ∀ id : Nat, ("extraction_queue_id", .int id) ∈ row.requestSha256.request.metadata → id < nextQueueId

theorem givenForeign {nextQueueId : Nat} (given : s.RowsGiven effective.clientId nextQueueId) {item : WriteItem rt}
    (named : ("extraction_queue_id", .int nextQueueId) ∈ item.request.metadata) : item.Foreign effective s := by
  intro row found same
  have mem := List.mem_of_find?_eq_some found
  have mine := List.find?_some found
  simp only [Bool.and_eq_true, decide_eq_true_eq] at mine
  have earlier : nextQueueId < nextQueueId := given row mem mine.1 nextQueueId (by rwa [same])
  exact absurd earlier (lt_irrefl _)

theorem firstAttempt {round : Nat} {pending : List (Proposal rt)} {done : Completed rt} (some : pending ≠ [])
    (h : drainPending rt svc context lease readings s round pending = .ok done) :
    ∃ t batch, handleWriteBatch rt svc context s (timed rt readings round pending) (deleteClaimedRow lease) =
      .ok (t, batch) ∧ ⟨pending, batch⟩ ∈ done.attempts := by
  rw [drainPending, if_neg some] at h
  split at h
  · cases h
  · rename_i t batch handled
    refine ⟨t, batch, handled, ?_⟩
    split at h
    · cases h
      exact List.mem_cons_self
    · split at h
      · cases h
      · obtain ⟨rest, -, last⟩ := bindOk.mp h
        cases last
        exact List.mem_cons_self

theorem preparedItems {writes : List (TimedWrite rt)} {prepared : List (TimedWrite rt × Option (List Rat))}
    (h : prepareBatch rt svc effective s writes = .ok prepared) : prepared.map Prod.fst = writes := by
  have same := mapMView (g := Prod.fst) (h := id) (fun w made done => ?_) h
  · rw [same, List.map_id]
  · obtain ⟨query, -, last⟩ := bindOk.mp done
    cases last
    rfl

theorem performsBatch (granted : svc.policy.authorizeContext rt svc.legacyAuthorized context = .ok effective)
    {round : Nat} {proposals : List (Proposal rt)} {answers : List WriteOutcome}
    (steps : Performs rt svc context readings s round proposals t answers) :
    ∃ prepared, Batch.each (batchStep rt svc effective) s prepared = .ok (t, answers) ∧
      batchKeys prepared = proposals.map Proposal.key ∧
      ∀ P : WriteItem rt → Prop, (∀ write ∈ prepared, P write.1.item) ↔ ∀ proposal ∈ proposals, P proposal.item := by
  obtain ⟨effective', prepared, both, ready, ran⟩ := steps
  obtain ⟨once, first, again⟩ := bindOk.mp both
  have once' := Except.ok.inj (granted.symm.trans first)
  subst once'
  have same := Except.ok.inj ((authorizeTwice granted).2.symm.trans again)
  subst same
  have whole : (prepared.map fun write => write.1.item) = proposals.map Proposal.item := by
    have mapped := congrArg (List.map TimedWrite.item) (preparedItems ready)
    simpa [timed, Function.comp_def] using mapped
  refine ⟨prepared, ran, ?_, fun P => ?_⟩
  · have keys := congrArg (List.map fun item : WriteItem rt => item.request.idempotencyKey) whole
    rw [List.map_map, List.map_map] at keys
    exact keys
  · rw [← List.forall_mem_map (P := P), whole, List.forall_mem_map]

theorem performsSettled (keyed : s.toLedger.Keyed)
    (granted : svc.policy.authorizeContext rt svc.legacyAuthorized context = .ok effective) {round : Nat}
    {proposals : List (Proposal rt)} {answers : List WriteOutcome} (apart : (proposals.map Proposal.key).Nodup)
    (each : ∀ proposal ∈ proposals, proposal.item.request.supersedeFactId = none ∧ proposal.item.Foreign effective s)
    (steps : Performs rt svc context readings s round proposals t answers)
    (settled : ∀ answer ∈ answers, answer.Settled) :
    (∀ answer ∈ answers, answer.outcome = .dedup) ∧ ∀ proposal ∈ proposals, proposal.item.Held svc effective s := by
  obtain ⟨prepared, ran, keys, spread⟩ := performsBatch granted steps
  obtain ⟨kinds, -, held⟩ := settledBatch keyed (authorizeTwice granted).2 (keys ▸ apart)
    ((spread fun item => item.request.supersedeFactId = none ∧ item.Foreign effective s).mpr each) ran settled
  exact ⟨kinds, (spread fun item => item.Held svc effective s).mp held⟩

theorem loggedUnreached (granted : svc.policy.authorizeContext rt svc.legacyAuthorized context = .ok effective)
    (keys : ((snapshotProposals rt items).map Proposal.key).Nodup)
    (foreign : ∀ proposal ∈ snapshotProposals rt items, proposal.item.Foreign effective s) {done : Completed rt}
    (h : processSnapshot rt svc context lease readings s items = .ok done) {pre post : List (Proposal rt)}
    {proposal : Proposal rt} (cut : snapshotProposals rt items = pre ++ proposal :: post)
    (logged : ¬ proposal.item.Unlogged effective s) : ∃ refused ∈ done.refused, refused ∈ pre := by
  have some : snapshotProposals rt items ≠ [] := by
    rw [cut]
    exact List.append_ne_nil_of_right_ne_nil _ (List.cons_ne_nil _ _)
  have unlogged {round : Nat} {front : List (Proposal rt)} {t : Store} {answers : List WriteOutcome}
      (start : front <+: snapshotProposals rt items)
      (steps : Performs rt svc context readings s round front t answers) :
      ∀ other ∈ front, other.item.Unlogged effective s := by
    obtain ⟨prepared, ran, same, spread⟩ := performsBatch granted steps
    exact (spread fun item => item.Unlogged effective s).mp (performedUnlogged (authorizeTwice granted).2
      (same ▸ keys.sublist (start.sublist.map _))
      ((spread fun item => item.Foreign effective s).mpr fun other mem => foreign other (start.subset mem)) ran)
  obtain ⟨t, batch, handled, recorded⟩ := firstAttempt some h
  rcases handleWriteBatchSource some handled with
    ⟨-, u, steps, -⟩ | ⟨-, -, front, refused, rest, u, answers, last, shape, outcomes, steps, -, turned⟩
  · exact absurd (unlogged (List.prefix_refl _) steps proposal (by simp [cut])) logged
  · have start : front ++ [refused] <+: snapshotProposals rt items := by
      rw [shape]
      exact ⟨rest, by simp⟩
    have apart : proposal ∉ front ++ [refused] := fun mem => logged (unlogged start steps proposal mem)
    have size : answers.length = front.length := by simpa using performsLength steps
    refine ⟨refused, ?_, ?_⟩
    · refine List.mem_flatMap.mpr ⟨_, recorded, List.mem_map.mpr ⟨(refused, last), ?_, rfl⟩⟩
      refine List.mem_filter.mpr ⟨?_, turned⟩
      rw [Attempt.answered, outcomes, shape, List.zip_append size.symm]
      exact List.mem_append_right _ List.mem_cons_self
    · rw [cut] at shape
      rcases List.append_eq_append_iff.mp shape with ⟨middle, rfl, tail⟩ | ⟨middle, rfl, tail⟩
      · cases middle with
        | nil =>
          obtain ⟨rfl, -⟩ := List.cons.inj tail
          exact absurd (List.mem_append_right _ List.mem_cons_self) apart
        | cons first middle =>
          obtain ⟨rfl, -⟩ := List.cons.inj tail
          exact absurd (List.mem_append_left _ (List.mem_append_right _ List.mem_cons_self)) apart
      · cases middle with
        | nil =>
          obtain ⟨rfl, -⟩ := List.cons.inj tail
          exact absurd (List.mem_append_right _ List.mem_cons_self) apart
        | cons first middle =>
          obtain ⟨rfl, -⟩ := List.cons.inj tail
          exact List.mem_append_right _ List.mem_cons_self

theorem heldPrepared {writes : List (TimedWrite rt)} (held : ∀ write ∈ writes, write.item.Held svc effective s) :
    prepareBatch rt svc effective s writes = .ok (writes.map fun write => (write, none)) := by
  refine mapMTotal fun write inside => ?_
  obtain ⟨-, -, restated⟩ := held write inside
  have known : write.item.request.Known rt := by
    rcases restated with ⟨judged, -⟩ | ⟨slot, value, judged, -⟩
    · exact verdictKnown judged
    · exact verdictKnown judged
  obtain ⟨decision, evaluated⟩ := (evaluateKnown svc.policy write.item.request effective.clientId []).mpr known
  have unwanted : wantsNearDedupQuery svc effective s write.item.request write.item.candidate decision = false := by
    rcases restated with ⟨-, found⟩ | ⟨slot, value, judged, -⟩
    · obtain ⟨factId, exact'⟩ := Option.isSome_iff_exists.mp found
      simp [wantsNearDedupQuery, exact']
    · obtain ⟨c, -, given, -⟩ := verdictTyped judged
      simp [wantsNearDedupQuery, given]
  simp only [prepareNearDedupQuery, evaluated, okBind]
  split
  · rfl
  · rw [unwanted]
    rfl

/-- The second job is harmless: it completes, each write is answered as a replay or a deduplication, and no fact is
new. -/
def HarmlessAgain (svc : WriteService) (context : ConnectionContext) (lease : ExtractionLease) (readings : Readings)
    (s : Store) (items : List (WriteItem rt)) : Prop :=
  ∃ done, processSnapshot rt svc context lease readings s items = .ok done ∧
    (∀ attempt ∈ done.attempts, ∀ outcome ∈ attempt.batch.outcomes, outcome.Settled) ∧
    ∀ f ∈ done.store.facts, ∃ old ∈ s.facts, old.factId = f.factId

theorem heldHarmless (keyed : s.toLedger.Keyed)
    (granted : svc.policy.authorizeContext rt svc.legacyAuthorized context = .ok effective)
    (admits : s.Welcomes effective)
    (keys : ((snapshotProposals rt items).map Proposal.key).Nodup)
    (each : ∀ proposal ∈ snapshotProposals rt items, proposal.item.request.supersedeFactId = none)
    (claimed : Table.matching (QueueRow.leasedBy lease) s.queue = 1) (some : snapshotProposals rt items ≠ [])
    (held : ∀ proposal ∈ snapshotProposals rt items, proposal.item.Held svc effective s) :
    HarmlessAgain svc context lease readings s items := by
  have authorized := (authorizeTwice granted).2
  have heldWrites : ∀ write ∈ timed rt readings 0 (snapshotProposals rt items), write.item.Held svc effective s := by
    intro write mem
    obtain ⟨proposal, given, rfl⟩ := List.mem_map.mp mem
    exact held proposal given
  have ready := heldPrepared heldWrites
  obtain ⟨t, answers, ran, facts, queue, kinds⟩ : ∃ t answers, Batch.each (batchStep rt svc effective) s
      ((timed rt readings 0 (snapshotProposals rt items)).map fun write => (write, none)) = .ok (t, answers) ∧
      t.toLedger = s.toLedger ∧ t.queue = s.queue ∧ ∀ answer ∈ answers, answer.outcome = .dedup :=
    restatedBatch keyed authorized admits
    (by
      rw [batchKeys, timed, List.map_map, List.map_map]
      exact keys)
    (fun write mem => by
      obtain ⟨given, there, rfl⟩ := List.mem_map.mp mem
      obtain ⟨proposal, listed, rfl⟩ := List.mem_map.mp there
      exact ⟨each proposal listed, heldWrites _ there⟩)
  have fine : ∀ answer ∈ answers, answer.refused = false := by
    intro answer mem
    simp [WriteOutcome.refused, kinds answer mem]
  have committed := Batch.runCommitted.mpr ⟨ran, fine⟩
  have deleted : deleteClaimedRow lease t =
      .ok { t with queue := Table.remove (QueueRow.leasedBy lease) s.queue } := by
    simp only [deleteClaimedRow, queue, claimed, ensure, decide_true, if_true, okBind]
  have nonempty : timed rt readings 0 (snapshotProposals rt items) ≠ [] := by
    simpa [timed] using some
  have wrote : writeBatch rt svc effective s (timed rt readings 0 (snapshotProposals rt items))
      WriteOutcome.refused (deleteClaimedRow lease) =
      .ok ({ t with queue := Table.remove (QueueRow.leasedBy lease) s.queue }, ⟨answers, true⟩) := by
    rw [writeBatch, ensure, if_pos (by simpa using nonempty), okBind, authorized, okBind, ready, okBind, committed,
      okBind]
    dsimp only
    rw [deleted, okBind]
  have handled : handleWriteBatch rt svc context s (timed rt readings 0 (snapshotProposals rt items))
      (deleteClaimedRow lease) =
      .ok ({ t with queue := Table.remove (QueueRow.leasedBy lease) s.queue }, ⟨answers, true⟩) := by
    rw [handleWriteBatch, if_neg nonempty, authorize, granted]
    dsimp only [mapFailure]
    rw [okBind, wrote]
    rfl
  refine ⟨⟨{ t with queue := Table.remove (QueueRow.leasedBy lease) s.queue }, answers.length,
    [⟨snapshotProposals rt items, ⟨answers, true⟩⟩]⟩, ?_, ?_, ?_⟩
  · rw [processSnapshot, drainPending, if_neg some, handled]
    rfl
  · intro attempt mem outcome answered
    rw [List.mem_singleton.mp mem] at answered
    exact .inr (kinds outcome answered)
  · intro f mem
    exact ⟨f, by rwa [← facts], rfl⟩

theorem harmlessHeld (keyed : s.toLedger.Keyed)
    (granted : svc.policy.authorizeContext rt svc.legacyAuthorized context = .ok effective)
    (keys : ((snapshotProposals rt items).map Proposal.key).Nodup)
    (each : ∀ proposal ∈ snapshotProposals rt items,
      proposal.item.request.supersedeFactId = none ∧ proposal.item.Foreign effective s)
    (some : snapshotProposals rt items ≠ []) (harmless : HarmlessAgain svc context lease readings s items) :
    ∀ proposal ∈ snapshotProposals rt items, proposal.item.Held svc effective s := by
  obtain ⟨done, ran, settled, -⟩ := harmless
  obtain ⟨t, batch, handled, recorded⟩ := firstAttempt some ran
  have settled := settled _ recorded
  rcases handleWriteBatchSource some handled with
    ⟨-, u, steps, -⟩ | ⟨-, rfl, pre, refused, post, u, answers, last, cut, outcomes, steps, -, turned⟩
  · exact (performsSettled keyed granted keys each steps settled).2
  · -- the refused answer would have to be a deduplication
    rw [outcomes] at settled
    have front : pre ++ [refused] <+: snapshotProposals rt items := by
      rw [cut]
      exact ⟨post, by simp⟩
    obtain ⟨kinds, -⟩ := performsSettled keyed granted (keys.sublist (front.sublist.map _))
      (fun proposal mem => each proposal (front.subset mem)) steps settled
    have kind := kinds last (List.mem_append_right _ (List.mem_singleton_self _))
    simp [WriteOutcome.refused, kind] at turned

theorem registerQueue (context : ConnectionContext) (now : String) (queue : List QueueRow) :
    (registerClient { s with queue } context now >>= fun s => registerSession s context now) =
      (registerClient s context now >>= fun s => registerSession s context now).map fun s => { s with queue } := by
  have session (t : Store) : registerSession { t with queue } context now =
      (registerSession t context now).map fun t => { t with queue } := by
    unfold registerSession ensure
    dsimp only
    split
    · rfl
    · split <;> rfl
  have client : registerClient { s with queue } context now =
      (registerClient s context now).map fun t => { t with queue } := by
    unfold registerClient ensure
    dsimp only
    split
    · rfl
    · split
      · split <;> rfl
      · rfl
  rw [client]
  cases registerClient s context now with
  | error raised => rfl
  | ok t => exact session t

theorem requeued (next : Nat) (createdAt : String) {payload : String}
    (finished : ∀ row ∈ s.queue, row.payloadHash = some (rt.sha256 payload) →
      row.status ≠ .pending ∧ row.status ≠ .processing) :
    ∃ row : QueueRow, enqueueExtraction rt s next payload createdAt =
      ({ s with queue := s.queue ++ [row] }, next, false) ∧ row.id = next ∧ row.payload = payload ∧
        row.status = .pending := by
  have none' : (s.queue.filter fun row => row.payloadHash = some (rt.sha256 payload) &&
      (row.status = .pending || row.status = .processing)) = [] := by
    refine List.filter_eq_nil_iff.mpr fun row inside active => ?_
    simp only [Bool.and_eq_true, Bool.or_eq_true, decide_eq_true_eq] at active
    obtain ⟨pending, processing⟩ := finished row inside active.1
    exact active.2.elim pending processing
  refine ⟨{
    id := next
    createdAt
    payload
    status := .pending
    payloadHash := some (rt.sha256 payload)
    attempts := 0
    lastError := none
    notBefore := none
    leaseOwner := none
    leaseUntil := none
    leaseToken := none
    proposalJson := none
    proposalHash := none }, ?_, rfl, rfl, rfl⟩
  unfold enqueueExtraction
  dsimp only
  rw [none']
  rfl

/-- A finished transcript enqueued again is a job of its own. It is harmless exactly when nothing is logged under the
keys of its writes and each states what the store holds; a write with a logged key raises when its turn comes. -/
theorem reenqueuedHarmless {host : SnapshotHost} {db : EntityStore} {envelope : ExtractionEnvelope}
    {snapshot : PersistedSnapshot} {next : Nat} {payload createdAt : String} {queue : List QueueRow}
    (finished : ∀ row ∈ s.queue, row.payloadHash = some (rt.sha256 payload) →
      row.status ≠ .pending ∧ row.status ≠ .processing)
    (bound : ∀ row ∈ s.queue, row.id < next) (given : s.RowsGiven effective.clientId next)
    (keyed : s.toLedger.Keyed)
    (granted : svc.policy.authorizeContext rt svc.legacyAuthorized envelope.context = .ok effective)
    (admits : s.Welcomes effective) (own : lease.rowId = next)
    (claimed : Table.matching (QueueRow.leasedBy lease) queue = 1)
    (made : persistedItems rt svc host db envelope lease snapshot = .ok items) :
    (∃ row : QueueRow, enqueueExtraction rt s next payload createdAt =
        ({ s with queue := s.queue ++ [row] }, next, false) ∧ row.id = next ∧ row.payload = payload ∧
          row.status = .pending ∧ ∀ old ∈ s.queue, old.id ≠ row.id) ∧
      (HarmlessAgain svc envelope.context lease readings { s with queue } items ↔
        ∀ item ∈ items, item.Held svc effective s) ∧
      (∀ write : TimedWrite rt, write.item ∈ items → write.item.Readable → ¬ write.item.Unlogged effective s →
        ∀ query, batchStep rt svc effective { s with queue } (write, query) =
          .error ⟨.idempotencyConflict, "idempotency key was already used for a different request"⟩) ∧
      ∀ done, processSnapshot rt svc envelope.context lease readings { s with queue } items = .ok done →
        ∀ pre proposal post, snapshotProposals rt items = pre ++ proposal :: post →
          ¬ proposal.item.Unlogged effective s → ∃ refused ∈ done.refused, refused ∈ pre := by
  subst own
  obtain ⟨params, ready, built⟩ := bindOk.mp made
  obtain ⟨apart, named⟩ := itemsNamed ready built
  have whole := snapshotItems items
  have inside {proposal : Proposal rt} (mem : proposal ∈ snapshotProposals rt items) : proposal.item ∈ items := by
    rw [← whole]
    exact List.mem_map.mpr ⟨proposal, mem, rfl⟩
  have keys : ((snapshotProposals rt items).map Proposal.key).Nodup := by
    rw [proposalKeys]
    exact apart
  have each : ∀ proposal ∈ snapshotProposals rt items,
      proposal.item.request.supersedeFactId = none ∧ proposal.item.Foreign effective { s with queue } := by
    intro proposal mem
    obtain ⟨row, additive⟩ := named proposal.item (inside mem)
    exact ⟨additive, givenForeign given row⟩
  have authorized := (authorizeTwice granted).2
  have welcome : Store.Welcomes { s with queue } effective := by
    intro now
    obtain ⟨clients, sessions, both⟩ := admits now
    exact ⟨clients, sessions, by rw [registerQueue, both]; rfl⟩
  have same (item : WriteItem rt) : item.Held svc effective { s with queue } ↔ item.Held svc effective s :=
    ⟨fun held => ⟨held.readable, held.unlogged, held.restated⟩, fun held => ⟨held.readable, held.unlogged, held.restated⟩⟩
  refine ⟨?_, ?_, ?_, ?_⟩
  · obtain ⟨row, enqueued, id, stated, pending⟩ := requeued lease.rowId createdAt finished
    exact ⟨row, enqueued, id, stated, pending, fun old mem => by rw [id]; exact (bound old mem).ne⟩
  · by_cases empty : snapshotProposals rt items = []
    · have void : items = [] := by
        rw [← whole, empty]
        rfl
      subst void
      refine ⟨fun _ item mem => absurd mem List.not_mem_nil, fun _ => ?_⟩
      refine ⟨⟨{ s with queue := Table.remove (QueueRow.leasedBy lease) queue }, 0, []⟩, ?_, ?_, ?_⟩
      · rw [processSnapshot, empty, drainPending, if_pos rfl]
        simp only [deleteClaimedRow, ensure, claimed, decide_true, if_true, okBind]
      · exact fun attempt mem => absurd mem List.not_mem_nil
      · exact fun f mem => ⟨f, mem, rfl⟩
    constructor
    · intro harmless item mem
      have there : item ∈ (snapshotProposals rt items).map Proposal.item := by rwa [whole]
      obtain ⟨proposal, listed, rfl⟩ := List.mem_map.mp there
      exact (same _).mp (harmlessHeld (s := { s with queue }) keyed granted keys each empty harmless proposal listed)
    · intro held
      exact heldHarmless (s := { s with queue }) keyed granted welcome keys (fun proposal mem => (each proposal mem).1)
        claimed empty fun proposal mem => (same _).mpr (held proposal.item (inside mem))
  · intro write mem readable logged query
    obtain ⟨row, -⟩ := named write.item mem
    exact conflictStep authorized welcome readable (givenForeign (s := { s with queue }) given row) logged
  · intro done completes pre proposal post cut logged
    exact loggedUnreached granted keys (fun other mem => (each other mem).2) completes cut logged

end Jobs

namespace Example

def entrusted : WriteService := .ofPolicy ⟨[("host", ["private", "sensitive"])], [], [], []⟩
def confidant : ConnectionContext := .plain "host" "cli" "agent" "session" ["private", "sensitive"]
def confiding : ExtractionEnvelope := { counting with context := confidant }

def written (first : List (WriteItem digesting)) : Store :=
  history [.writeBatch entrusted confidant (timed digesting readings 0 (snapshotProposals digesting first))
    WriteOutcome.refused (QueueRow.leasedBy lease)]

def leaseAgain : ExtractionLease := ⟨2, "worker", "token"⟩

def queueAgain : List QueueRow := [⟨2, "2024-01-02", "payload", .processing, some "digest", 1, none, none,
  some "worker", none, some "token", some spokenText, some spokenHash⟩]

def namesBefore (next : Nat) (row : WriteLogRow) : Bool :=
  row.requestSha256.request.metadata.all fun member => decide (member.1 ≠ "extraction_queue_id") ||
    match member.2 with
    | .int id => decide (id < next)
    | _ => true

def loggedBefore (first items : List (WriteItem digesting)) : Bool :=
  !items.isEmpty && (written first).queue.isEmpty && (written first).writeLog.all (namesBefore 2) &&
    items.all (fun item => (loadPrior (written first) "host" item.request.idempotencyKey).isSome) &&
    decide ((written first).clients.map (fun client => (client.clientId, client.surface, client.disabledAt)) =
      [("host", "cli", none)]) &&
    decide ((written first).sessions.map (fun session => (session.isOf confidant, session.sameContext confidant)) =
      [(true, true)])

theorem spokenTwice : ((spokenParams confiding lease >>= jobItems digesting entrusted confidant).toOption.any
    fun first => (spokenParams confiding leaseAgain >>= jobItems digesting entrusted confidant).toOption.any
      (loggedBefore first)) = true := by
  decide +kernel

theorem reenqueuedHarmlessHere : ∃ first items : List (WriteItem digesting),
    persistedItems digesting entrusted trustingHost (unnamed []) confiding lease spokenSnapshot = .ok first ∧
    persistedItems digesting entrusted trustingHost (unnamed []) confiding leaseAgain spokenSnapshot = .ok items ∧
    items ≠ [] ∧ (∀ item ∈ items, ¬ item.Unlogged confidant (written first)) ∧
    (∃ row : QueueRow, enqueueExtraction digesting (written first) 2 "payload" "2024-01-02" =
        ({ written first with queue := (written first).queue ++ [row] }, 2, false) ∧ row.id = 2 ∧
          row.payload = "payload" ∧ row.status = .pending ∧ ∀ old ∈ (written first).queue, old.id ≠ row.id) ∧
    (HarmlessAgain entrusted confidant leaseAgain readings { written first with queue := queueAgain } items ↔
      ∀ item ∈ items, item.Held entrusted confidant (written first)) ∧
    (∀ write : TimedWrite digesting, write.item ∈ items → write.item.Readable →
      ¬ write.item.Unlogged confidant (written first) →
      ∀ query, batchStep digesting entrusted confidant { written first with queue := queueAgain } (write, query) =
        .error ⟨.idempotencyConflict, "idempotency key was already used for a different request"⟩) ∧
    ∀ done, processSnapshot digesting entrusted confidant leaseAgain readings
        { written first with queue := queueAgain } items = .ok done →
      ∀ pre proposal post, snapshotProposals digesting items = pre ++ proposal :: post →
        ¬ proposal.item.Unlogged confidant (written first) → ∃ refused ∈ done.refused, refused ∈ pre := by
  obtain ⟨first, one, twice⟩ := (Option.any_eq_true _ _).mp spokenTwice
  obtain ⟨items, two, logged⟩ := (Option.any_eq_true _ _).mp twice
  simp only [loggedBefore, Bool.and_eq_true, decide_eq_true_eq, Bool.not_eq_true', List.isEmpty_eq_false_iff,
    List.isEmpty_iff, List.all_eq_true] at logged
  obtain ⟨⟨⟨⟨⟨some, empty⟩, before⟩, known⟩, clients⟩, sessions⟩ := logged
  have made : persistedItems digesting entrusted trustingHost (unnamed []) confiding leaseAgain spokenSnapshot =
      .ok items := (spokenPrepared entrusted confiding leaseAgain).trans (okOfOption two)
  have done : persistedItems digesting entrusted trustingHost (unnamed []) confiding lease spokenSnapshot =
      .ok first := (spokenPrepared entrusted confiding lease).trans (okOfOption one)
  have given : (written first).RowsGiven confidant.clientId 2 := by
    intro row inside _ id named
    have early := before row inside
    simp only [namesBefore, List.all_eq_true] at early
    simpa using early _ named
  have admits : (written first).Welcomes confidant := by
    obtain ⟨client, oneClient, client'⟩ := List.map_eq_singleton_iff.mp clients
    obtain ⟨session, oneSession, session'⟩ := List.map_eq_singleton_iff.mp sessions
    obtain ⟨name, surface, enabled⟩ : client.clientId = "host" ∧ client.surface = "cli" ∧ client.disabledAt = none := by
      simpa using client'
    obtain ⟨own, shape⟩ : session.isOf confidant = true ∧ session.sameContext confidant = true := by
      simpa using session'
    refine (registersFound ⟨client, ?_, surface, enabled⟩ ⟨session, ?_, shape⟩).made
    · rw [oneClient, List.find?_cons_of_pos]
      exact decide_eq_true name
    · rw [oneSession, List.find?_cons_of_pos]
      exact own
  have absent {P : QueueRow → Prop} : ∀ row ∈ (written first).queue, P row := by
    rw [empty]
    exact fun row inside => absurd inside List.not_mem_nil
  refine ⟨first, items, done, made, some, fun item inside unlogged => ?_, reenqueuedHarmless absent absent given
    historyKeyed (okOfOption (by decide +kernel)) admits rfl (by decide +kernel) made⟩
  have none' : loadPrior (written first) "host" item.request.idempotencyKey = none := unlogged
  have row := known item inside
  rw [none'] at row
  cases row

end Example
end Enfold
