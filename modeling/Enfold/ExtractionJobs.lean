import Enfold.ExtractionProcessor
import Enfold.Operations

/-! The leased extraction queue: the statements that claim, renew, save, fail and finish a row, and
the processors that run them one after another. Clock readings are instants of one scale. Each
function of a transaction gives the rows it leaves; where the source raises after its commit, the
row count is the second answer. -/
namespace Enfold

open Fallible

variable (rt : Runtime)

structure ExtractionProcessor where
  svc : WriteService
  workerId : String
  maxAttempts : Nat
  leaseSeconds : Rat

structure ClaimedExtraction where
  lease : ExtractionLease
  payload : String
  digest : String
  attempts : Nat

structure ProposalSnapshot where
  proposalJson : String
  proposalHash : String
  deriving DecidableEq, Repr

/-- What `_fail` reads of the exception that ended a job; the age of the job and the retry instant
are read off its clock. -/
structure ExtractionFailure where
  errorCode : String
  permanent : Bool
  consumesAttempt : Bool
  ageExceeded : Bool
  notBefore : Rat

/-! ## Claiming -/

def QueueRow.lapsed (now : Rat) (row : QueueRow) : Bool :=
  row.status = .processing && row.leaseUntil.any fun expiry => decide (expiry ≤ now)

def QueueRow.exhausted (maxAttempts : Nat) (now : Rat) (row : QueueRow) : Bool :=
  row.lapsed now && decide (maxAttempts ≤ row.attempts)

def QueueRow.bury (row : QueueRow) : QueueRow :=
  { row with
    status := .dead
    lastError := some "attempts_exhausted"
    leaseOwner := none
    leaseUntil := none
    leaseToken := none }

def QueueRow.due (maxAttempts : Nat) (now : Rat) (row : QueueRow) : Bool :=
  decide (row.attempts < maxAttempts) && (row.notBefore.all fun instant => decide (instant ≤ now)) &&
    (row.status = .pending || row.lapsed now)

def QueueRow.lease (lease : ExtractionLease) (attempts : Nat) (expiry : Rat) (row : QueueRow) :
    QueueRow :=
  { row with
    status := .processing
    attempts := attempts
    leaseOwner := some lease.workerId
    leaseUntil := some expiry
    leaseToken := some lease.leaseToken }

-- `ORDER BY id LIMIT 1`
def firstQueued (maxAttempts : Nat) (now : Rat) (queue : List QueueRow) : Option QueueRow :=
  ((queue.filter (QueueRow.due maxAttempts now)).insertionSort fun a b => a.id ≤ b.id).head?

def QueueRow.digest (row : QueueRow) : String :=
  match row.payloadHash with
  | some digest => if digest = "" then rt.sha256 row.payload else digest
  | none => rt.sha256 row.payload

def ExtractionProcessor.claim (p : ExtractionProcessor) (s : Store) (now : Rat) (token : String) :
    Except Raised (Store × Option ClaimedExtraction) :=
  let queue := Table.amend (QueueRow.exhausted p.maxAttempts now) QueueRow.bury s.queue
  match firstQueued p.maxAttempts now queue with
  | none => .ok ({ s with queue }, none)
  | some row => do
    let lease : ExtractionLease := ⟨row.id, p.workerId, token⟩
    let taken (other : QueueRow) : Bool := other.id = row.id && decide (other.attempts < p.maxAttempts)
    ensure (Table.matching taken queue = 1) ⟨.runtimeError, "extraction claim was lost"⟩
    let leased := Table.amend taken (QueueRow.lease lease (row.attempts + 1) (now + p.leaseSeconds)) queue
    .ok ({ s with queue := leased }, some ⟨lease, row.payload, row.digest rt, row.attempts + 1⟩)

/-! ## The statements behind a lease -/

def leasedRow (s : Store) (lease : ExtractionLease) : Option QueueRow :=
  s.queue.find? (QueueRow.leasedBy lease)

-- `_queue_observed_at`
def queueObservedAt (s : Store) (lease : ExtractionLease) : Except Raised String :=
  match leasedRow s lease with
  | none => .error ⟨.runtimeError, "extraction lease was lost before timestamp load"⟩
  | some row =>
    if Text.strip row.createdAt = "" then
      .error ⟨.permanentExtraction "invalid_envelope", "queue timestamp is malformed"⟩
    else .ok (Text.strip row.createdAt)

-- `_load_snapshot`
def loadSnapshot (s : Store) (lease : ExtractionLease) : Except Raised (Option ProposalSnapshot) :=
  match leasedRow s lease with
  | none => .error ⟨.runtimeError, "extraction lease was lost before snapshot load"⟩
  | some row => match row.proposalJson, row.proposalHash with
    | some _, none => .error ⟨.permanentExtraction "legacy_extraction_quarantined",
      "legacy extraction snapshots are quarantined"⟩
    | none, some _ =>
      .error ⟨.permanentExtraction "invalid_snapshot", "proposal snapshot is inconsistent"⟩
    | none, none => .ok none
    | some json, some hash => .ok (some ⟨json, hash⟩)

-- `_renew`: a lapsed lease is not revived
def renewLease (s : Store) (lease : ExtractionLease) (now leaseSeconds : Rat) : Store × Bool :=
  let live (row : QueueRow) : Bool :=
    row.leasedBy lease && row.leaseUntil.any fun expiry => decide (now < expiry)
  ({ s with queue := Table.amend live ({ · with leaseUntil := some (now + leaseSeconds) }) s.queue },
    Table.matching live s.queue = 1)

-- `_persist_snapshot`
def persistSnapshot (s : Store) (lease : ExtractionLease) (snapshot : ProposalSnapshot) :
    Except Raised Store := do
  let unsaved (row : QueueRow) : Bool :=
    row.leasedBy lease && row.proposalJson.isNone && row.proposalHash.isNone
  let save (row : QueueRow) : QueueRow :=
    { row with
      proposalJson := some snapshot.proposalJson
      proposalHash := some snapshot.proposalHash }
  ensure (Table.matching unsaved s.queue = 1)
    ⟨.runtimeError, "extraction lease was lost before snapshot persistence"⟩
  .ok { s with queue := Table.amend unsaved save s.queue }

-- the attempts `_fail` reads, less the one a failure may give back
def failedAttempts (s : Store) (lease : ExtractionLease) (failure : ExtractionFailure) : Option Nat :=
  (leasedRow s lease).map fun row =>
    if !failure.consumesAttempt && !failure.permanent then row.attempts - 1 else row.attempts

def ExtractionFailure.dead (failure : ExtractionFailure) (maxAttempts attempts : Nat) : Bool :=
  failure.permanent || decide (maxAttempts ≤ attempts) ||
    (!failure.consumesAttempt && failure.ageExceeded)

def ExtractionFailure.record (failure : ExtractionFailure) (maxAttempts attempts : Nat)
    (row : QueueRow) : QueueRow :=
  let dead := failure.dead maxAttempts attempts
  let keeps := failure.errorCode ≠ "proposal_credential_rejected"
  { row with
    attempts := attempts
    lastError := some failure.errorCode
    status := if dead then .dead else .pending
    notBefore := if dead then none else some failure.notBefore
    leaseOwner := none
    leaseUntil := none
    leaseToken := none
    proposalJson := if keeps then row.proposalJson else none
    proposalHash := if keeps then row.proposalHash else none }

-- `id = ? AND lease_owner = ? AND lease_token = ?`, whatever the status
def QueueRow.ownedBy (lease : ExtractionLease) (row : QueueRow) : Bool :=
  row.id = lease.rowId && row.leaseOwner = some lease.workerId &&
    row.leaseToken = some lease.leaseToken

-- the update of `_fail`
def recordFailure (s : Store) (lease : ExtractionLease) (failure : ExtractionFailure)
    (maxAttempts attempts : Nat) : Store × Bool :=
  ({ s with queue := Table.amend (QueueRow.ownedBy lease) (failure.record maxAttempts attempts) s.queue },
    Table.matching (QueueRow.ownedBy lease) s.queue = 1)

/-! ## Enqueueing -/

-- `enqueue_after_commit` behind its checks: an active job of the same payload is answered again
def enqueueExtraction (s : Store) (nextQueueId : Nat) (payload createdAt : String) :
    Store × Nat × Bool :=
  let digest := rt.sha256 payload
  let active (row : QueueRow) : Bool :=
    row.payloadHash = some digest && (row.status = .pending || row.status = .processing)
  match ((s.queue.filter active).insertionSort fun a b => a.id ≤ b.id).head? with
  | some row => (s, row.id, true)
  | none => ({ s with queue := s.queue ++
      [{ id := nextQueueId, createdAt, payload, status := .pending, payloadHash := some digest
         attempts := 0, lastError := none, notBefore := none, leaseOwner := none, leaseUntil := none
         leaseToken := none, proposalJson := none, proposalHash := none }] }, nextQueueId, false)

/-! ## One processor

Between its transactions a processor holds the job it claimed and what it has read or made of it. -/

inductive ExtractionWorker where
  | idle
  | claimed (job : ClaimedExtraction)
  | observed (job : ClaimedExtraction) (observedAt : String)
  | extracting (job : ClaimedExtraction) (observedAt : String)
  | extracted (job : ClaimedExtraction) (observedAt : String) (snapshot : ProposalSnapshot)
  | saved (job : ClaimedExtraction) (observedAt : String) (snapshot : ProposalSnapshot)
  | writing (job : ClaimedExtraction) (round : Nat) (pending : List (Proposal rt))
  | failing (job : ClaimedExtraction) (failure : ExtractionFailure)
  | recording (job : ClaimedExtraction) (failure : ExtractionFailure) (attempts : Nat)

variable {rt} in
def ExtractionWorker.job : ExtractionWorker rt → Option ClaimedExtraction
  | .idle => none
  | .claimed job => some job
  | .observed job _ => some job
  | .extracting job _ => some job
  | .extracted job _ _ => some job
  | .saved job _ _ => some job
  | .writing job _ _ => some job
  | .failing job _ => some job
  | .recording job _ _ => some job

variable {rt} in
-- inside the `try` of `process_one`
def ExtractionWorker.guarded : ExtractionWorker rt → Bool
  | .failing _ _ => false
  | .recording _ _ _ => false
  | _ => true

structure Concluded where
  rowId : Nat
  writes : List (Proposal rt)
  outcomes : List WriteOutcome

/-- What the steps take from outside: the model's answers, the preparation of a snapshot's writes,
and the context a payload carries. -/
structure ExtractionHost where
  extracts : String → ProposalSnapshot → Prop
  prepares : ClaimedExtraction → String → ProposalSnapshot → List (WriteItem rt) → Prop
  contextOf : String → ConnectionContext

section Worker
variable {rt} (host : ExtractionHost rt) (p : ExtractionProcessor) (s : Store)

inductive ExtractionWorkerStep :
    ExtractionWorker rt → Store → ExtractionWorker rt → Option (Concluded rt) → Prop
  | observe {job observedAt} (read : queueObservedAt s job.lease = .ok observedAt) :
      ExtractionWorkerStep (.claimed job) s (.observed job observedAt) none
  | load {job observedAt snapshot} (read : loadSnapshot s job.lease = .ok (some snapshot)) :
      ExtractionWorkerStep (.observed job observedAt) s (.saved job observedAt snapshot) none
  | unsaved {job observedAt} (read : loadSnapshot s job.lease = .ok none) :
      ExtractionWorkerStep (.observed job observedAt) s (.extracting job observedAt) none
  | renew {job observedAt now} (live : (renewLease s job.lease now p.leaseSeconds).2 = true) :
      ExtractionWorkerStep (.extracting job observedAt)
        (renewLease s job.lease now p.leaseSeconds).1 (.extracting job observedAt) none
  | renewalLost {job observedAt now failure}
      (lost : (renewLease s job.lease now p.leaseSeconds).2 = false) :
      ExtractionWorkerStep (.extracting job observedAt)
        (renewLease s job.lease now p.leaseSeconds).1 (.failing job failure) none
  | extract {job observedAt snapshot} (answer : host.extracts job.payload snapshot) :
      ExtractionWorkerStep (.extracting job observedAt) s (.extracted job observedAt snapshot) none
  | persist {job observedAt snapshot t} (saved : persistSnapshot s job.lease snapshot = .ok t) :
      ExtractionWorkerStep (.extracted job observedAt snapshot) t (.saved job observedAt snapshot) none
  | prepare {job observedAt snapshot items} (ready : host.prepares job observedAt snapshot items) :
      ExtractionWorkerStep (.saved job observedAt snapshot) s
        (.writing job 0 (snapshotProposals rt items)) none
  -- the `while pending` loop, one batch a step
  | complete {job round t} (done : deleteClaimedRow job.lease s = .ok t) :
      ExtractionWorkerStep (.writing job round []) t .idle (some ⟨job.lease.rowId, [], []⟩)
  | commit {job round pending readings t batch} (some' : pending ≠ [])
      (written : handleWriteBatch rt p.svc (host.contextOf job.payload) s
        (timed rt readings round pending) (deleteClaimedRow job.lease) = .ok (t, batch))
      (committed : batch.committed = true) :
      ExtractionWorkerStep (.writing job round pending) t .idle
        (some ⟨job.lease.rowId, pending, batch.outcomes⟩)
  | refused {job round pending readings t batch} (some' : pending ≠ [])
      (written : handleWriteBatch rt p.svc (host.contextOf job.payload) s
        (timed rt readings round pending) (deleteClaimedRow job.lease) = .ok (t, batch))
      (refused : batch.committed = false)
      (fewer : (Attempt.survivors ⟨pending, batch⟩).length ≠ pending.length) :
      ExtractionWorkerStep (.writing job round pending) t
        (.writing job (round + 1) (Attempt.survivors ⟨pending, batch⟩)) none
  -- any exception at all, the ones above included
  | raises {worker job failure} (busy : worker.job = some job) (guarded : worker.guarded = true) :
      ExtractionWorkerStep worker s (.failing job failure) none
  | readAttempts {job failure attempts} (read : failedAttempts s job.lease failure = some attempts) :
      ExtractionWorkerStep (.failing job failure) s (.recording job failure attempts) none
  | record {job failure attempts} :
      ExtractionWorkerStep (.recording job failure attempts)
        (recordFailure s job.lease failure p.maxAttempts attempts).1 .idle none
  | crash {worker} : ExtractionWorkerStep worker s .idle none

end Worker

/-! ## Any number of processors over one queue -/

structure ExtractionSystem where
  store : Store
  workers : Nat → ExtractionWorker rt
  issued : List String
  nextQueueId : Nat
  concluded : List (Concluded rt)

variable {rt} in
def ExtractionSystem.set (sys : ExtractionSystem rt) (w : Nat) (store : Store)
    (worker : ExtractionWorker rt) (concluded : Option (Concluded rt)) : ExtractionSystem rt :=
  { sys with
    store
    workers := fun v => if v = w then worker else sys.workers v
    concluded := concluded.toList ++ sys.concluded }

variable {rt} in
def claimedExtraction : Option ClaimedExtraction → ExtractionWorker rt
  | some job => .claimed job
  | none => .idle

def ExtractionSystem.initial : ExtractionSystem rt where
  store := .empty
  workers := fun _ => .idle
  issued := []
  nextQueueId := 1
  concluded := []

variable {rt} in
-- the memory operations beside the queue; none of them completes a job
def Operation.sparesQueue : Operation rt → Prop
  | .writeBatch _ _ _ _ completes => ∀ row, completes row = false
  | _ => True

section System
variable {rt} (host : ExtractionHost rt) (procs : Nat → ExtractionProcessor)

inductive ExtractionStep : ExtractionSystem rt → ExtractionSystem rt → Prop
  | claim {sys w now token t taken} (idle : sys.workers w = .idle) (fresh : token ∉ sys.issued)
      (done : (procs w).claim rt sys.store now token = .ok (t, taken)) :
      ExtractionStep sys
        { sys.set w t (claimedExtraction taken) none with issued := token :: sys.issued }
  | work {sys w t worker concluded}
      (step : ExtractionWorkerStep host (procs w) sys.store (sys.workers w) t worker concluded) :
      ExtractionStep sys (sys.set w t worker concluded)
  | enqueue {sys payload createdAt t queueId replayed}
      (done : enqueueExtraction rt sys.store sys.nextQueueId payload createdAt = (t, queueId, replayed)) :
      ExtractionStep sys { sys with
        store := t
        nextQueueId := if replayed then sys.nextQueueId else sys.nextQueueId + 1 }
  | memory {sys t} (o : Operation rt) (spares : o.sparesQueue) (done : o.perform sys.store = .ok t) :
      ExtractionStep sys { sys with store := t }

inductive ExtractionRun : ExtractionSystem rt → ExtractionSystem rt → Prop
  | refl {sys} : ExtractionRun sys sys
  | step {sys mid last} (before : ExtractionRun sys mid) (next : ExtractionStep host procs mid last) :
      ExtractionRun sys last

variable {host procs}

theorem extractionInvariant {P : ExtractionSystem rt → Prop}
    (kept : ∀ sys next, P sys → ExtractionStep host procs sys next → P next)
    {sys last : ExtractionSystem rt} (run : ExtractionRun host procs sys last) (init : P sys) :
    P last := by
  induction run with
  | refl => exact init
  | step before next ih => exact kept _ _ ih next

end System
end Enfold
