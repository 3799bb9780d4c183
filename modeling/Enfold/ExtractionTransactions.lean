import Enfold.BatchSequence
import Enfold.ExtractionJobs
import Enfold.Foundation.SharedConnection

/-! `process_one` on its connection, statement by statement, while other connections write the queue
between its transactions: where the connection is left with a transaction open. -/
namespace Enfold

open Fallible SharedConnection

/-- What ends a step: an `Exception`, or a `BaseException` that is none. -/
inductive Thrown where
  | exception (raised : Raised)
  | interrupt

def thrown (x : Except Raised α) : Except Thrown α := x.mapError .exception

def lostLease (text : String) : Thrown := .exception ⟨.runtimeError, "extraction lease was lost " ++ text⟩

def nestedTransaction : Thrown :=
  .exception ⟨.databaseError, "cannot start a transaction within a transaction"⟩

/-- What one call of `process_one` meets outside its own statements. Whatever is read off a clock or
drawn is given by the moment it is wanted. -/
structure ProcessorHost (rt : Runtime) where
  clock : Nat → Rat
  leaseToken : Nat → String
  /-- The context of a decoded envelope. -/
  decode : String → Except Thrown ConnectionContext
  /-- How many times the lease is renewed while the model runs, and the snapshot of its proposals. -/
  extract : ClaimedExtraction → Nat × Except Thrown ProposalSnapshot
  prepare : ClaimedExtraction → String → ProposalSnapshot → Except Thrown (List (WriteItem rt))
  failure : Raised → Nat → ExtractionFailure
  readings : Readings
  /-- What breaks a batch off inside its transaction, by round and write. -/
  breaks : Nat → TimedWrite rt × Option (List Rat) → Option Thrown
  /-- What raising statements leave in the open transaction. -/
  torn : Store → Store

structure ExtractionProcessResult where
  outcome : String
  rowId : Option Nat
  writes : Nat
  attempts : Nat
  errorCode : Option String
  deriving DecidableEq, Repr

section Process
variable {rt : Runtime} (host : ProcessorHost rt) (others : Nat → Store → Store) (p : ExtractionProcessor)

abbrev Steps (α : Type) : Type := Program Store Thrown α

/-- `_claim`. -/
def claimStep : Steps (Option ClaimedExtraction) := do
  let at' ← moment
  owning do
    begin others nestedTransaction
    let taken ← change others host.torn fun s => thrown (p.claim rt s (host.clock at') (host.leaseToken at'))
    commit
    pure taken

/-- `_renew`. -/
def renewStep (lease : ExtractionLease) : Steps Unit := do
  let at' ← moment
  let live ← modify others fun s => renewLease s lease (host.clock at') p.leaseSeconds
  commit
  if live then pure () else raise (lostLease "before renewal")

def renewSteps (lease : ExtractionLease) : Nat → Steps Unit
  | 0 => pure ()
  | n + 1 => do
    renewStep host others p lease
    renewSteps lease n

/-- `_persist_snapshot`. -/
def persistStep (lease : ExtractionLease) (snapshot : ProposalSnapshot) : Steps Unit :=
  owning do
    begin others nestedTransaction
    change others host.torn fun s => thrown ((persistSnapshot s lease snapshot).map (·, ()))
    commit

/-- `_complete`. -/
def completeStep (lease : ExtractionLease) : Steps Unit := do
  let deleted ← modify others fun s =>
    ({ s with queue := Table.remove (QueueRow.leasedBy lease) s.queue },
      Table.matching (QueueRow.leasedBy lease) s.queue)
  if deleted = 1 then commit else raise (lostLease "before completion")

/-- `_fail`. -/
def failStep (lease : ExtractionLease) (raised : Raised) : Steps Nat := do
  let at' ← moment
  let failure := host.failure raised at'
  let attempts ← select others fun s => match failedAttempts s lease failure with
    | some attempts => .ok attempts
    | none => .error (lostLease "while recording failure")
  let recorded ← modify others fun s => recordFailure s lease failure p.maxAttempts attempts
  commit
  if recorded then pure attempts else raise (lostLease "while recording failure")

/-- `_job_is_dead`. -/
def jobIsDead (rowId : Nat) : Steps Bool :=
  select others fun s => .ok (s.queue.any fun row => row.id = rowId && row.status = .dead)

-- `permanent or attempts >= self._max_attempts or self._job_is_dead(row_id)`
def deadAfter (rowId : Nat) (failure : ExtractionFailure) (attempts : Nat) : Steps Bool :=
  if failure.permanent || p.maxAttempts ≤ attempts then pure true else jobIsDead others rowId

/-- `handle_write_batch` with `_complete_in_transaction` before its commit. -/
def batchSteps (context : ConnectionContext) (lease : ExtractionLease) (round : Nat)
    (pending : List (Proposal rt)) : Steps WriteBatchOutcome := do
  let effective ← lift (thrown (authorize rt p.svc context))
  requireIdle (.exception ⟨.runtimeError, "MemoryWriteService requires an idle connection"⟩)
  let prepared ← select others fun s =>
    thrown (mapFailure batchFailure (prepareBatch rt p.svc effective s (timed rt host.readings round pending)))
  let step (s : Store) (item : TimedWrite rt × Option (List Rat)) : Except Thrown (Store × WriteOutcome) :=
    match host.breaks round item with
    | some broken => .error broken
    | none => thrown (mapFailure batchFailure (batchStep rt p.svc effective s item))
  let (committed, outcomes) ← exclusive others fun connection =>
    Transaction.batch step (fun _ => host.torn) WriteOutcome.refused
      (fun s => thrown (deleteClaimedRow lease s)) host.torn connection prepared
  if !committed && !outcomes.any WriteOutcome.refused then
    raise (.exception ⟨.runtimeError, "write batch rolled back without a policy outcome"⟩)
  else pure ⟨outcomes, committed⟩

/-- The `while pending` loop; `none` when it ends with nothing left to write. -/
def drainSteps (context : ConnectionContext) (lease : ExtractionLease) (round : Nat)
    (pending : List (Proposal rt)) : Steps (Option Nat) :=
  if pending = [] then pure none
  else do
    let batch ← batchSteps host others p context lease round pending
    if batch.committed then pure (some batch.outcomes.length)
    else if h : (Attempt.survivors ⟨pending, batch⟩).length = pending.length then
      raise (.exception ⟨.runtimeError, "write batch rolled back without policy rejection"⟩)
    else drainSteps context lease (round + 1) (Attempt.survivors ⟨pending, batch⟩)
termination_by pending.length
decreasing_by
  exact lt_of_le_of_ne (survivorsLength rt ⟨pending, batch⟩) h

/-- The snapshot of the job: the saved one, or the model's, saved before anything is written. -/
def snapshotSteps (job : ClaimedExtraction) : Steps ProposalSnapshot := do
  match ← select others fun s => thrown (loadSnapshot s job.lease) with
  | some snapshot => pure snapshot
  | none =>
    renewSteps host others p job.lease (host.extract job).1
    let snapshot ← lift (host.extract job).2
    persistStep host others job.lease snapshot
    pure snapshot

/-- The body of `process_one` up to `_complete`, which is left to do on `none`. -/
def writeSteps (job : ClaimedExtraction) : Steps (Option Nat) := do
  let observedAt ← select others fun s => thrown (queueObservedAt s job.lease)
  let context ← lift (host.decode job.payload)
  let snapshot ← snapshotSteps host others p job
  let items ← lift (host.prepare job observedAt snapshot)
  drainSteps host others p context job.lease 0 (snapshotProposals rt items)

def concludeSteps (job : ClaimedExtraction) : Steps ExtractionProcessResult := do
  match ← writeSteps host others p job with
  | some writes => pure ⟨"completed", job.lease.rowId, writes, job.attempts, none⟩
  | none => do
    completeStep others job.lease
    pure ⟨"completed", job.lease.rowId, 0, job.attempts, none⟩

/-- The handlers of `process_one`. -/
def rescueSteps (job : ClaimedExtraction) : Thrown → Steps ExtractionProcessResult
  | .interrupt => raise .interrupt
  | .exception raised => do
    let at' ← moment
    let failure := host.failure raised at'
    let attempts ← failStep host others p job.lease raised
    let dead ← deadAfter others p job.lease.rowId failure attempts
    pure ⟨if dead then "dead" else "retry", job.lease.rowId, 0, attempts, failure.errorCode⟩

/-- `process_one`. -/
def processOne : Steps ExtractionProcessResult := do
  match ← claimStep host others p with
  | none => pure ⟨"idle", none, 0, 0, none⟩
  | some job => attempt (concludeSteps host others p job) (rescueSteps host others p job)

/-- The run as far as `_complete`, with the job it is then called for. -/
def beforeCompletion : Steps (Option ClaimedExtraction) := do
  match ← claimStep host others p with
  | none => pure none
  | some job => do
    match ← writeSteps host others p job with
    | some _ => pure none
    | none => pure (some job)

end Process

/-! ## Steps that leave no transaction open -/

section Quiet
variable {rt : Runtime} {host : ProcessorHost rt} {others : Nat → Store → Store} {p : ExtractionProcessor}
  {lease : ExtractionLease}

theorem claimIdle (c : Shared Store) : (claimStep host others p c).1.Idle :=
  owningIdle (closesBind fun _ => closesBind fun _ => closesCommitted) c

theorem renewQuiet : Quiet (renewStep host others p lease) := by
  refine quietBind quietMoment fun at' => quietCommitted _ fun live => ?_
  split
  · exact quietPure ()
  · exact quietRaise _

theorem renewalsQuiet (n : Nat) : Quiet (renewSteps host others p lease n) := by
  induction n with
  | zero => exact quietPure ()
  | succ n ih => exact quietBind renewQuiet fun _ => ih

theorem persistQuiet {snapshot : ProposalSnapshot} : Quiet (persistStep host others lease snapshot) :=
  quietOwning (closesBind fun _ => closesBind fun _ => closesCommit)

theorem failQuiet {raised : Raised} : Quiet (failStep host others p lease raised) := by
  refine quietBind quietMoment fun at' => quietBind (quietSelect _) fun attempts =>
    quietCommitted _ fun recorded => ?_
  split
  · exact quietPure _
  · exact quietRaise _

theorem batchQuiet {context : ConnectionContext} {round : Nat} {pending : List (Proposal rt)} :
    Quiet (batchSteps host others p context lease round pending) := by
  refine quietBind (quietLift _) fun effective => quietBind (quietRequire _) fun _ =>
    quietBind (quietSelect _) fun prepared => quietBind (quietExclusive fun s => ?_) fun answer => ?_
  · rw [Transaction.batchRun]
    split
    · rfl
    · rfl
    · split
      · rfl
      · rfl
  · obtain ⟨committed, outcomes⟩ := answer
    dsimp only
    split
    · exact quietRaise _
    · exact quietPure _

theorem drainQuiet (context : ConnectionContext) (round : Nat) (pending : List (Proposal rt)) :
    Quiet (drainSteps host others p context lease round pending) := by
  induction size : pending.length using Nat.strongRecOn generalizing round pending with
  | ind n ih =>
    subst size
    rw [drainSteps]
    split
    · exact quietPure _
    · refine quietBind batchQuiet fun batch => ?_
      split
      · exact quietPure _
      · split
        · exact quietRaise _
        · rename_i fewer
          exact ih _ (lt_of_le_of_ne (survivorsLength rt ⟨pending, batch⟩) fewer) _ _ rfl

theorem snapshotQuiet {job : ClaimedExtraction} : Quiet (snapshotSteps host others p job) := by
  refine quietBind (quietSelect _) fun saved => ?_
  split
  · exact quietPure _
  · exact quietBind (renewalsQuiet _) fun _ => quietBind (quietLift _) fun snapshot =>
      quietBind persistQuiet fun _ => quietPure _

theorem writeQuiet {job : ClaimedExtraction} : Quiet (writeSteps host others p job) :=
  quietBind (quietSelect _) fun _ => quietBind (quietLift _) fun _ => quietBind snapshotQuiet fun _ =>
    quietBind (quietLift _) fun _ => drainQuiet _ _ _

theorem rescueQuiet {job : ClaimedExtraction} (e : Thrown) : Quiet (rescueSteps host others p job e) := by
  cases e with
  | interrupt => exact quietRaise _
  | exception raised =>
    refine quietBind quietMoment fun at' => quietBind failQuiet fun attempts =>
      quietBind ?_ fun dead => quietPure _
    unfold deadAfter
    split
    · exact quietPure _
    · exact quietSelect _

/-! ## The completion outside a batch -/

/-- The connection behind the delete of `_complete`. -/
def deletedOn (others : Nat → Store → Store) (lease : ExtractionLease) (c : Shared Store) : Shared Store :=
  let view := (arrive others c).connection.view
  ⟨{ (arrive others c).connection with
      pending := some { view with queue := Table.remove (QueueRow.leasedBy lease) view.queue } },
    (arrive others c).moment⟩

theorem completeHeld (c : Shared Store)
    (held : Table.matching (QueueRow.leasedBy lease) (arrive others c).connection.view.queue = 1) :
    completeStep others lease c = commit (deletedOn others lease c) := by
  have deleted : completeStep others lease c =
      (if Table.matching (QueueRow.leasedBy lease) (arrive others c).connection.view.queue = 1 then commit
        else raise (lostLease "before completion") : Steps Unit) (deletedOn others lease c) := rfl
  rw [deleted, if_pos held]

theorem completeLost (c : Shared Store)
    (lost : Table.matching (QueueRow.leasedBy lease) (arrive others c).connection.view.queue ≠ 1) :
    completeStep others lease c = (deletedOn others lease c, .error (lostLease "before completion")) := by
  have deleted : completeStep others lease c =
      (if Table.matching (QueueRow.leasedBy lease) (arrive others c).connection.view.queue = 1 then commit
        else raise (lostLease "before completion") : Steps Unit) (deletedOn others lease c) := rfl
  rw [deleted, if_neg lost]
  rfl

-- nothing is left in the open transaction for the lease
theorem deletedGone (c : Shared Store) : ∃ t, (deletedOn others lease c).connection.pending = some t ∧
    leasedRow t lease = none := by
  refine ⟨_, rfl, List.find?_eq_none.mpr fun row hr => ?_⟩
  simpa using (Table.memRemove.mp hr).2

/-- What `_fail` finds there ends it before it could close anything. -/
theorem failAdrift {c : Shared Store} {t : Store} (adrift : c.connection.pending = some t)
    (gone : leasedRow t lease = none) (raised : Raised) :
    failStep host others p lease raised c = (c, .error (lostLease "while recording failure")) := by
  have waiting : arrive others c = c := by
    rw [arrive, adrift]
    rfl
  have view : c.connection.view = t := by
    rw [Transaction.Connection.view, adrift]
    rfl
  unfold failStep
  rw [bindPassed (show moment c = (c, .ok c.moment) from rfl)]
  refine bindFailed ?_
  unfold select
  rw [waiting]
  dsimp only
  rw [view]
  simp only [failedAttempts, gone, Option.map_none]

theorem rescueAdrift {c : Shared Store} {t : Store} {job : ClaimedExtraction}
    (adrift : c.connection.pending = some t) (gone : leasedRow t job.lease = none) (text : String) :
    (rescueSteps host others p job (lostLease text) c).1 = c := by
  show ((moment >>= _) c).1 = c
  rw [bindPassed (show moment c = (c, .ok c.moment) from rfl), bindFailed (failAdrift adrift gone _)]

/-- `process_one` leaves a transaction open exactly where it comes to `_complete` after the lease is lost:
the delete begins a transaction, and neither it nor `_fail` ends it. -/
theorem processIdle (host : ProcessorHost rt) (others : Nat → Store → Store) (p : ExtractionProcessor)
    (c : Shared Store) : (processOne host others p c).1.Idle ↔
      ∀ job d, beforeCompletion host others p c = (d, .ok (some job)) →
        Table.matching (QueueRow.leasedBy job.lease) (arrive others d).connection.view.queue = 1 := by
  have claimed : (claimStep host others p c).1.Idle := claimIdle c
  unfold processOne beforeCompletion
  simp only [bindRun]
  generalize claimStep host others p c = found at claimed
  obtain ⟨d, answer⟩ := found
  cases answer with
  | error e => exact iff_of_true claimed nofun
  | ok taken =>
    cases taken with
    | none => exact iff_of_true claimed nofun
    | some job =>
      have written : (writeSteps host others p job d).1.Idle := writeQuiet d claimed
      show (attempt (concludeSteps host others p job) (rescueSteps host others p job) d).1.Idle ↔ _
      unfold attempt concludeSteps
      simp only [bindRun]
      generalize writeSteps host others p job d = reached at written
      obtain ⟨e, answer⟩ := reached
      cases answer with
      | error raised => exact iff_of_true (rescueQuiet raised e written) nofun
      | ok answer =>
        cases answer with
        | some writes => exact iff_of_true written nofun
        | none =>
          simp only [bindRun]
          by_cases held : Table.matching (QueueRow.leasedBy job.lease) (arrive others e).connection.view.queue = 1
          · rw [completeHeld e held]
            refine iff_of_true (show Shared.Idle _ from rfl) fun job' d' same => ?_
            cases same
            exact held
          · obtain ⟨t, adrift, gone⟩ := deletedGone e
            rw [completeLost e held]
            refine iff_of_false ?_ fun safe => held (safe job e rfl)
            show ¬ (rescueSteps host others p job (lostLease "before completion")
              (deletedOn others job.lease e)).1.Idle
            rw [rescueAdrift adrift gone "before completion"]
            intro idle
            rw [Shared.Idle, adrift] at idle
            cases idle

end Quiet
namespace Example

/-- One queued payload, of which the model makes nothing. -/
def queuedOnce : Store :=
  (enqueueExtraction .plain .empty 1 "payload" "2026-01-05").1

def quietHost : ProcessorHost .plain where
  clock := fun at' => at'
  leaseToken := fun at' => if at' = 0 then "first" else "second"
  decode := fun _ => .ok caller
  extract := fun _ => (0, .ok ⟨"[]", "[]"⟩)
  prepare := fun _ _ _ => .ok []
  failure := fun _ _ => ⟨"extractor_failed", false, true, false, 0⟩
  readings := fun _ _ => .at "2026-01-05"
  breaks := fun _ _ => none
  torn := id

def patient (workerId : String) : ExtractionProcessor := ⟨trusted, workerId, 3, 60⟩

def takeover (at' : Nat) (s : Store) : Store :=
  if at' = 4 then (((patient "w2").claim .plain s 100 "second").toOption.map Prod.fst).getD s else s

theorem takeoverAdrift : (Transaction.idle queuedOnce).pending = none ∧
    ¬ (processOne quietHost takeover (patient "w1") ⟨Transaction.idle queuedOnce, 0⟩).1.Idle := by
  refine ⟨rfl, fun idle => ?_⟩
  have adrift : (processOne quietHost takeover (patient "w1")
      ⟨Transaction.idle queuedOnce, 0⟩).1.connection.pending.isSome = true := by decide +kernel
  rw [show _ = none from idle] at adrift
  cases adrift

end Example
end Enfold
