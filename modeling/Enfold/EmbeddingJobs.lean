import Enfold.Operations

/-! The leased embedding worker: a claim, the read that follows it, the model call outside any
transaction, and the transaction that settles the claim. Stamps are texts of one format, compared
as the database compares them; lease expiry and retry stamps are given with their instant. -/
namespace Enfold

open Fallible

structure EmbeddingProcessor where
  spec : EmbeddingSpec
  workerId : String
  maxAttempts : Nat

structure ClaimedEmbeddingJob where
  jobId : Nat
  factId : Nat
  contentSha256 : String
  attempts : Nat
  leaseToken : String
  deriving DecidableEq, Repr

def EmbeddingJob.isFor (row : EmbeddingJob) (spec : EmbeddingSpec) : Bool :=
  row.documentIdentity = spec.documentIdentity && row.embeddingVersion = spec.embeddingVersion &&
    row.dimensions = spec.dimensions

def EmbeddingJob.exhausted (p : EmbeddingProcessor) (stamp : String) (row : EmbeddingJob) : Bool :=
  row.isFor p.spec && decide (p.maxAttempts ≤ row.attempts) &&
    (row.status = .pending ||
      (row.status = .processing && row.leaseExpiresAt.all fun expiry => decide (expiry ≤ stamp)))

def EmbeddingJob.bury (stamp : String) (row : EmbeddingJob) : EmbeddingJob :=
  { row with
    status := .deadLetter
    leaseToken := none
    leaseOwner := none
    leaseExpiresAt := none
    lastError := some "attempts_exhausted"
    updatedAt := stamp }

def EmbeddingJob.due (p : EmbeddingProcessor) (stamp : String) (row : EmbeddingJob) : Bool :=
  row.isFor p.spec && decide (row.attempts < p.maxAttempts) &&
    ((row.status = .pending && decide (row.availableAt ≤ stamp)) ||
      (row.status = .processing && row.leaseExpiresAt.any fun expiry => decide (expiry ≤ stamp)))

def EmbeddingJob.lease (p : EmbeddingProcessor) (attempts : Nat) (stamp expiresAt token : String)
    (row : EmbeddingJob) : EmbeddingJob :=
  { row with
    status := .processing
    attempts := attempts
    leaseToken := some token
    leaseOwner := some p.workerId
    leaseExpiresAt := some expiresAt
    updatedAt := stamp }

-- `ORDER BY job_id LIMIT 1`
def firstDue (p : EmbeddingProcessor) (stamp : String) (jobs : List EmbeddingJob) :
    Option EmbeddingJob :=
  ((jobs.filter (EmbeddingJob.due p stamp)).insertionSort fun a b => a.jobId ≤ b.jobId).head?

/-! ## The claim -/

def EmbeddingProcessor.claim (p : EmbeddingProcessor) (s : Store) (stamp expiresAt token : String) :
    Store × Option ClaimedEmbeddingJob :=
  let jobs := Table.amend (EmbeddingJob.exhausted p stamp) (EmbeddingJob.bury stamp) s.jobs
  match firstDue p stamp jobs with
  | none => ({ s with jobs }, none)
  | some row =>
    let attempts := row.attempts + 1
    let leased := Table.amend (·.jobId = row.jobId)
      (EmbeddingJob.lease p attempts stamp expiresAt token) jobs
    ({ s with jobs := leased }, some ⟨row.jobId, row.factId, row.contentSha256, attempts, token⟩)

theorem firstDueSource {p : EmbeddingProcessor} {stamp : String} {jobs : List EmbeddingJob}
    {row : EmbeddingJob} (h : firstDue p stamp jobs = some row) :
    row ∈ jobs ∧ row.due p stamp = true := by
  unfold firstDue at h
  have sorted := List.mem_of_mem_head? (Option.mem_def.mpr h)
  have inside := (List.mem_insertionSort _).mp sorted
  exact List.mem_filter.mp inside

/-! ## Settling a claim -/

def Ledger.activeFact (l : Ledger) (factId : Nat) : Option Fact := (l.fact factId).filter Fact.active

theorem activeFactSource {l : Ledger} {factId : Nat} {f : Fact} (h : l.activeFact factId = some f) :
    f ∈ l.facts ∧ f.factId = factId ∧ f.active = true := by
  obtain ⟨found, active⟩ := Option.filter_eq_some_iff.mp h
  obtain ⟨mem, id⟩ := Table.findMem found
  exact ⟨mem, id, active⟩

-- `job_id = ? AND status = 'processing' AND lease_token = ?`
def EmbeddingJob.heldBy (job : ClaimedEmbeddingJob) (row : EmbeddingJob) : Bool :=
  row.jobId = job.jobId && row.status = .processing && row.leaseToken = some job.leaseToken

def EmbeddingJob.requeue (digest now : String) (row : EmbeddingJob) : EmbeddingJob :=
  { row with
    status := .pending
    contentSha256 := digest
    availableAt := now
    leaseToken := none
    leaseOwner := none
    leaseExpiresAt := none
    updatedAt := now }

def EmbeddingJob.complete (digest : String) (reason : Option String) (now : String)
    (row : EmbeddingJob) : EmbeddingJob :=
  { row with
    status := .completed
    contentSha256 := digest
    leaseToken := none
    leaseOwner := none
    leaseExpiresAt := none
    lastError := reason
    completedAt := some now
    updatedAt := now }

-- a settled job without a vector keeps its digest
def EmbeddingJob.skip (reason now : String) (row : EmbeddingJob) : EmbeddingJob :=
  row.complete row.contentSha256 (some reason) now

def EmbeddingJob.giveBack (status : JobStatus) (available errorType stamp : String)
    (row : EmbeddingJob) : EmbeddingJob :=
  { row with
    status := status
    availableAt := available
    leaseToken := none
    leaseOwner := none
    leaseExpiresAt := none
    lastError := some errorType
    updatedAt := stamp }

section Processor
variable (rt : Runtime) (p : EmbeddingProcessor)

-- `_settle_inactive`: skip an inactive fact, or requeue one that became active again
def settleInactive (s : Store) (job : ClaimedEmbeddingJob) (now : String) : Except Raised Store := do
  let settle : EmbeddingJob → EmbeddingJob := match s.activeFact job.factId with
    | some f => EmbeddingJob.requeue (rt.sha256 f.content) now
    | none => EmbeddingJob.skip "skipped_inactive" now
  ensure (Table.matching (EmbeddingJob.heldBy job) s.jobs = 1)
    ⟨.runtimeError, "embedding job lease was lost while settling"⟩
  .ok { s with jobs := Table.amend (EmbeddingJob.heldBy job) settle s.jobs }

-- `upsert_in_transaction`, keyed by fact and identity
def upsertEmbedding (s : Store) (factId : Nat) (vector : List Rat) : Except Raised Store := do
  ensure (vector.length = p.spec.dimensions)
    ⟨.storedEmbeddingError, "prepared document embedding is invalid"⟩
  let sameKey (e : Embedding) : Bool :=
    e.factId = factId && e.embeddingIdentity = p.spec.documentIdentity
  let replace (e : Embedding) : Embedding :=
    { e with embedding := vector, dim := p.spec.dimensions }
  if s.embeddings.any sameKey then
    .ok { s with embeddings := Table.amend sameKey replace s.embeddings }
  else .ok { s with embeddings :=
    s.embeddings ++ [⟨factId, vector, p.spec.dimensions, p.spec.documentIdentity⟩] }

-- `_commit_prepared`: the lease and the fact are read again in the storing transaction
def commitPrepared (s : Store) (job : ClaimedEmbeddingJob) (expectedHash : String)
    (vector : List Rat) (now : String) : Except Raised Store := do
  ensure (s.jobs.any fun row => row.heldBy job && row.isFor p.spec)
    ⟨.runtimeError, "embedding job lease was lost after model call"⟩
  let mine (row : EmbeddingJob) : Bool := row.jobId = job.jobId
  match s.activeFact job.factId with
  | none => .ok { s with jobs := Table.amend mine (EmbeddingJob.skip "skipped_stale" now) s.jobs }
  | some f =>
    let actual := rt.sha256 f.content
    if actual ≠ expectedHash then
      .ok { s with jobs := Table.amend mine (EmbeddingJob.requeue actual now) s.jobs }
    else do
      let s ← upsertEmbedding p s job.factId vector
      .ok { s with jobs := Table.amend mine (EmbeddingJob.complete actual none now) s.jobs }

-- `_fail`; the retry instant is `available`
def failJob (s : Store) (job : ClaimedEmbeddingJob) (errorType stamp available : String) :
    Except Raised Store := do
  let status : JobStatus := if p.maxAttempts ≤ job.attempts then .deadLetter else .pending
  ensure (Table.matching (EmbeddingJob.heldBy job) s.jobs = 1)
    ⟨.runtimeError, "embedding job lease was lost before failure handling"⟩
  let give := EmbeddingJob.giveBack status available errorType stamp
  .ok { s with jobs := Table.amend (EmbeddingJob.heldBy job) give s.jobs }

end Processor

/-! ## One worker

Between its transactions a worker holds nothing but what it has read. -/

inductive EmbeddingWorker where
  | idle
  | claimed (job : ClaimedEmbeddingJob)
  | inactive (job : ClaimedEmbeddingJob)
  | embedding (job : ClaimedEmbeddingJob) (content : String)
  | failing (job : ClaimedEmbeddingJob) (errorType : String)
  | prepared (job : ClaimedEmbeddingJob) (content : String) (vector : List Rat)

def EmbeddingWorker.job : EmbeddingWorker → Option ClaimedEmbeddingJob
  | .idle => none
  | .claimed job => some job
  | .inactive job => some job
  | .embedding job _ => some job
  | .failing job _ => some job
  | .prepared job _ _ => some job

-- what `process_one` does with the row it reads after its claim
def EmbeddingWorker.afterRead (s : Store) (job : ClaimedEmbeddingJob) : EmbeddingWorker :=
  match s.activeFact job.factId with
  | some f => .embedding job f.content
  | none => .inactive job

-- the store a transaction leaves: its result, or the old one when it raises
def settled (s : Store) (result : Except Raised Store) : Store :=
  match result with
  | .ok t => t
  | .error _ => s

/-- One step of a worker behind its claim. `embeds` says which vectors the model may answer with. -/
inductive WorkerStep (rt : Runtime) (embeds : String → List Rat → Prop) (p : EmbeddingProcessor)
    (s : Store) : EmbeddingWorker → Store → EmbeddingWorker → Prop
  | read {job} : WorkerStep rt embeds p s (.claimed job) s (.afterRead s job)
  | embed {job content vector} (answer : embeds content vector) :
      WorkerStep rt embeds p s (.embedding job content) s (.prepared job content vector)
  | modelRaises {job content errorType} :
      WorkerStep rt embeds p s (.embedding job content) s (.failing job errorType)
  | settle {job now} : WorkerStep rt embeds p s (.inactive job)
      (settled s (settleInactive rt s job now)) .idle
  | commit {job content vector now} : WorkerStep rt embeds p s (.prepared job content vector)
      (settled s (commitPrepared rt p s job (rt.sha256 content) vector now)) .idle
  | fail {job errorType stamp available} : WorkerStep rt embeds p s (.failing job errorType)
      (settled s (failJob p s job errorType stamp available)) .idle
  | crash {worker} : WorkerStep rt embeds p s worker s .idle

/-! ## Any number of workers beside a changing store -/

structure EmbeddingSystem where
  store : Store
  workers : Nat → EmbeddingWorker
  issued : List String

def EmbeddingSystem.set (sys : EmbeddingSystem) (w : Nat) (store : Store) (worker : EmbeddingWorker) :
    EmbeddingSystem :=
  { sys with store, workers := fun v => if v = w then worker else sys.workers v }

-- what a claim leaves its worker with
def claimedBy : Option ClaimedEmbeddingJob → EmbeddingWorker
  | some job => .claimed job
  | none => .idle

def EmbeddingSystem.claim (procs : Nat → EmbeddingProcessor) (sys : EmbeddingSystem) (w : Nat)
    (stamp expiresAt token : String) : EmbeddingSystem :=
  let taken := (procs w).claim sys.store stamp expiresAt token
  { sys.set w taken.1 (claimedBy taken.2) with issued := token :: sys.issued }

section System
variable (rt : Runtime) (embeds : String → List Rat → Prop) (procs : Nat → EmbeddingProcessor)
  (environment : Store → Store → Prop)

inductive EmbeddingStep : EmbeddingSystem → EmbeddingSystem → Prop
  | claim {sys w stamp expiresAt token} (idle : sys.workers w = .idle) (fresh : token ∉ sys.issued) :
      EmbeddingStep sys (sys.claim procs w stamp expiresAt token)
  | work {sys w t worker} (step : WorkerStep rt embeds (procs w) sys.store (sys.workers w) t worker) :
      EmbeddingStep sys (sys.set w t worker)
  | environment {sys t} (changes : environment sys.store t) : EmbeddingStep sys { sys with store := t }

inductive EmbeddingRun : EmbeddingSystem → EmbeddingSystem → Prop
  | refl {sys} : EmbeddingRun sys sys
  | step {sys mid last} (before : EmbeddingRun sys mid)
      (next : EmbeddingStep rt embeds procs environment mid last) : EmbeddingRun sys last

variable {rt embeds procs environment}

theorem runInvariant {P : EmbeddingSystem → Prop}
    (kept : ∀ sys next, P sys → EmbeddingStep rt embeds procs environment sys next → P next)
    {sys last : EmbeddingSystem} (run : EmbeddingRun rt embeds procs environment sys last)
    (init : P sys) : P last := by
  induction run with
  | refl => exact init
  | step before next ih => exact kept _ _ ih next

end System
end Enfold
