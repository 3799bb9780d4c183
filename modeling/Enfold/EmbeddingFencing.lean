import Enfold.ConflictLedger
import Enfold.EmbeddingJobs

/-! Lease fencing: a worker whose token left its job row changes nothing any more, a stored vector
belongs to the text its fact has at the commit, and attempts stay within their bound. -/
namespace Enfold

open Fallible

variable {rt : Runtime} {s t u : Store}

/-! ## What the other operations do to jobs and vectors -/

-- no job is leased and no attempt count raised
structure NoNewLease (s t : Store) : Prop where
  leased : ∀ row ∈ t.jobs, row.leaseToken ≠ none → row ∈ s.jobs
  attempts : ∀ row ∈ t.jobs, row.attempts = 0 ∨ ∃ old ∈ s.jobs, row.attempts = old.attempts

-- nor is a vector stored
structure Outbox (s t : Store) : Prop extends NoNewLease s t where
  vectors : ∀ e ∈ t.embeddings, e ∈ s.embeddings

theorem outboxSame (jobs : t.jobs = s.jobs) (vectors : t.embeddings = s.embeddings) : Outbox s t where
  leased _ hr _ := jobs ▸ hr
  attempts row hr := .inr ⟨row, jobs ▸ hr, rfl⟩
  vectors _ he := vectors ▸ he

theorem Outbox.trans (first : Outbox s t) (second : Outbox t u) : Outbox s u where
  leased row hr held := first.leased row (second.leased row hr held) held
  attempts row hr := by
    rcases second.attempts row hr with zero | ⟨old, hold, same⟩
    · exact .inl zero
    · rcases first.attempts old hold with zero | ⟨older, holder, same'⟩
      · exact .inl (same.trans zero)
      · exact .inr ⟨older, holder, same.trans same'⟩
  vectors e he := first.vectors e (second.vectors e he)

theorem enqueueOutbox {spec : EmbeddingSpec} {factId : Nat} {now : String}
    (h : enqueueInTransaction rt s spec factId now = .ok t) : Outbox s t := by
  unfold enqueueInTransaction at h
  split at h
  · cases h
  · dsimp only at h
    split at h
    · cases h
      refine ⟨⟨fun row hr held => ?_, fun row hr => ?_⟩, fun e he => he⟩
      · obtain ⟨old, hold, rfl⟩ := Table.memAmend.mp hr
        split at held
        · exact absurd rfl held
        · rename_i spared
          rw [if_neg spared]
          exact hold
      · obtain ⟨old, hold, rfl⟩ := Table.memAmend.mp hr
        split
        · exact .inl rfl
        · exact .inr ⟨old, hold, rfl⟩
    · cases h
      refine ⟨⟨fun row hr held => ?_, fun row hr => ?_⟩, fun e he => he⟩
      · rcases List.mem_append.mp hr with hr | hr
        · exact hr
        · rw [List.mem_singleton.mp hr] at held
          exact absurd rfl held
      · rcases List.mem_append.mp hr with hr | hr
        · exact .inr ⟨row, hr, rfl⟩
        · rw [List.mem_singleton.mp hr]
          exact .inl rfl

theorem enqueueAppliedOutbox {svc : WriteService} {factId : Option Nat} {now : String}
    (h : enqueueApplied rt svc s factId now = .ok t) : Outbox s t := by
  unfold enqueueApplied at h
  split at h
  · exact enqueueOutbox h
  · cases h
    exact outboxSame rfl rfl

section Writes
variable {svc : WriteService} {context effective : ConnectionContext} {clock : Clock}
  {request : WriteRequest} {candidate : Option StateCandidate}
  {extracted : Option ExtractedTypedFields} {query : Option (List Rat)} {outcome : WriteOutcome}

theorem concludeAppliedJobs {observationId : Nat} {decision : Option SlotDecision} {applied : Applied}
    (h : concludeApplied rt svc context clock s request candidate observationId decision applied =
      .ok (t, outcome)) :
    ∃ resolutions u, enqueueApplied rt svc { s with toLedger := applied.ledger, resolutions }
        applied.enqueue clock.queuedAt = .ok u ∧ t.jobs = u.jobs ∧ t.embeddings = u.embeddings := by
  unfold concludeApplied at h
  obtain ⟨resolved, recorded, h⟩ := bindOk.mp h
  obtain ⟨resolutions, rfl⟩ := recordResolvedSource recorded
  obtain ⟨queued, enqueued, h⟩ := bindOk.mp h
  obtain ⟨⟨⟩, inScope, h⟩ := bindOk.mp h
  obtain ⟨provenance, attached⟩ := attachProvenanceSource queued applied.result.factId observationId
    request clock.recordedAt
  rw [attached] at h
  obtain ⟨⟨l, superseded⟩, retired, h⟩ := bindOk.mp h
  obtain ⟨-, -, stored⟩ := insertWriteLogSource h
  refine ⟨resolutions, queued, enqueued, ?_, ?_⟩
  · rw [stored]
  · rw [stored]

theorem transactOutbox
    (h : transact rt svc context clock s request candidate extracted query = .ok (t, outcome)) :
    Outbox s t := by
  obtain ⟨clients, sessions, -, ⟨prior, -, -, rfl, -⟩ | ⟨-, fresh⟩⟩ := transactSource h
  · exact outboxSame rfl rfl
  · rcases writeFreshSource fresh with ⟨decision, -, done⟩ |
        ⟨applied, observations, observationId, -, -, concluded⟩ |
        ⟨slot, effective, applied, observations, observationId, -, -, concluded⟩
    · obtain ⟨-, ⟨-, -, rfl⟩ | ⟨-, rfl⟩⟩ := concludeFactlessSource done
      · exact outboxSame rfl rfl
      · exact outboxSame rfl rfl
    · obtain ⟨resolutions, u, enqueued, jobs, vectors⟩ := concludeAppliedJobs concluded
      refine Outbox.trans ?_ ((enqueueAppliedOutbox enqueued).trans (outboxSame jobs vectors))
      exact outboxSame rfl rfl
    · obtain ⟨resolutions, u, enqueued, jobs, vectors⟩ := concludeAppliedJobs concluded
      refine Outbox.trans ?_ ((enqueueAppliedOutbox enqueued).trans (outboxSame jobs vectors))
      exact outboxSame rfl rfl

theorem resolveConflictJobs {conflictId factId : Nat} {reason resolvedAt queuedAt : String}
    {resolution : ConflictResolution}
    (h : resolveConflict rt svc context s conflictId factId reason resolvedAt queuedAt =
      .ok (t, resolution)) :
    ∃ clients sessions resolutions l,
      resolveStateConflict rt s.toLedger conflictId factId context.agentId (Text.strip reason)
        resolvedAt = .ok (l, resolution) ∧
      enqueueApplied rt svc { s with toLedger := l, clients, sessions, resolutions } (some factId)
        queuedAt = .ok t := by
  simp only [resolveConflict, bindOk, Prod.exists] at h
  obtain ⟨-, -, -, -, -, -, -, -, s₁, first, s₂, second, l, found, resolved, s₃, recorded, s₄, queued,
    last⟩ := h
  cases last
  obtain ⟨clients, rfl⟩ := registerClientSource first
  obtain ⟨sessions, rfl⟩ := registerSessionSource second
  obtain ⟨resolutions, rfl⟩ := recordResolutionSource recorded
  exact ⟨clients, sessions, resolutions, l, resolved, queued⟩

end Writes

theorem cloneSharedJobs {observationIds : List Nat} {factId erasureId : Nat} :
    (observationIds.foldl (fun s observationId =>
        cloneSharedObservation s observationId factId erasureId) s).jobs = s.jobs ∧
      (observationIds.foldl (fun s observationId =>
        cloneSharedObservation s observationId factId erasureId) s).embeddings = s.embeddings := by
  induction observationIds generalizing s with
  | nil => exact ⟨rfl, rfl⟩
  | cons observationId rest ih =>
    have once : (cloneSharedObservation s observationId factId erasureId).jobs = s.jobs ∧
        (cloneSharedObservation s observationId factId erasureId).embeddings = s.embeddings := by
      unfold cloneSharedObservation
      split
      · exact ⟨rfl, rfl⟩
      · split
        · exact ⟨rfl, rfl⟩
        · exact ⟨rfl, rfl⟩
    rw [List.foldl_cons]
    exact ⟨ih.1.trans once.1, ih.2.trans once.2⟩

theorem eraseFactOutbox {factId : Nat} {requestedBy reason erasedAt : String} {report : ErasureReport}
    (h : eraseFact rt s factId requestedBy reason erasedAt = .ok (t, report)) : Outbox s t := by
  simp only [eraseFact, bindOk, ensureOk] at h
  obtain ⟨-, -, -, -, h⟩ := h
  split at h
  · cases h
  · simp only [bindOk, Prod.exists] at h
    obtain ⟨l, insights, conflicts, -, last⟩ := h
    cases last
    refine ⟨⟨fun row hr held => ?_, fun row hr => ?_⟩, fun e he => ?_⟩
    · obtain ⟨old, hold, rfl⟩ := Table.memAmend.mp hr
      rw [cloneSharedJobs.1] at hold
      split at held
      · exact absurd rfl held
      · rename_i spared
        rw [if_neg spared]
        exact hold
    · obtain ⟨old, hold, rfl⟩ := Table.memAmend.mp hr
      rw [cloneSharedJobs.1] at hold
      refine .inr ⟨old, hold, ?_⟩
      split
      · rfl
      · rfl
    · have inside := (List.mem_filter.mp he).1
      rwa [cloneSharedJobs.2] at inside

theorem mergeReferencesOutbox {survivor loser : Nat} :
    Outbox s (mergeFactReferences s survivor loser) where
  leased _ hr _ := (List.mem_filter.mp hr).1
  attempts row hr := .inr ⟨row, (List.mem_filter.mp hr).1, rfl⟩
  vectors _ he := (List.mem_filter.mp he).1

theorem applyMergeOutbox {plan : MergePlan} : Outbox s (applyMerge s plan) :=
  mergeKeeps (fun _ _ _ before => before.trans (outboxSame rfl rfl))
    (fun _ _ _ _ _ before => before.trans mergeReferencesOutbox) (outboxSame rfl rfl)

-- every operation but the embedding worker's own store
def Operation.storesVector (o : Operation rt) : Bool :=
  match o with
  | .storeEmbedding _ => true
  | _ => false

theorem performOutbox {o : Operation rt} (other : o.storesVector = false)
    (done : o.perform s = .ok t) : Outbox s t := by
  have step : ∀ {svc : WriteService} {effective : ConnectionContext} {u v : Store}
      {timed : TimedWrite rt} {query : Option (List Rat)} {outcome : WriteOutcome},
      svc.policy.authorizeContext rt svc.legacyAuthorized effective = .ok effective → True →
      batchStep rt svc effective u (timed, query) = .ok (v, outcome) → Outbox s u → Outbox s v := by
    intro svc effective u v timed query outcome authorized _ written before
    obtain ⟨extracted, -, -, done⟩ := batchStepSource authorized written
    exact before.trans (transactOutbox done)
  cases o with
  | write svc context timed =>
    exact writeKeeps (P := Outbox s) (C := fun _ _ _ _ _ => True) step meetsAlways done
      (outboxSame rfl rfl)
  | writeBatch svc context writes rollbackIf completes =>
    exact batchKeeps (P := Outbox s) (C := fun _ _ _ _ _ => True) step
      (fun before => before.trans (outboxSame rfl rfl)) meetsAlways done (outboxSame rfl rfl)
  | resolveConflict svc context conflictId factId reason resolvedAt queuedAt =>
    simp only [Operation.perform, bindOk, Prod.exists] at done
    obtain ⟨effective, -, u, resolution, resolved, last⟩ := done
    cases last
    obtain ⟨clients, sessions, resolutions, l, -, enqueued⟩ := resolveConflictJobs resolved
    have before : Outbox s { s with toLedger := l, clients, sessions, resolutions } :=
      outboxSame rfl rfl
    exact before.trans (enqueueAppliedOutbox enqueued)
  | eraseFact factId requestedBy reason erasedAt =>
    simp only [Operation.perform, bindOk, Prod.exists] at done
    obtain ⟨u, report, erased, last⟩ := done
    cases last
    exact eraseFactOutbox erased
  | mergeClusters plan least most fraction =>
    simp only [Operation.perform, executeMerge, bindOk] at done
    obtain ⟨-, -, -, -, last⟩ := done
    cases last
    exact applyMergeOutbox
  | storeEmbedding => cases other

/-! ## The steps of the workers -/

-- what may happen to the store beside the workers: any operation, and any change of the facts
inductive Meddles (rt : Runtime) : Store → Store → Prop
  | operation {u v : Store} (o : Operation rt) (other : o.storesVector = false)
      (done : o.perform u = .ok v) : Meddles rt u v
  | edit {u : Store} (facts : List Fact) : Meddles rt u { u with facts }

theorem meddlesOutbox (h : Meddles rt s t) : Outbox s t := by
  cases h with
  | operation o other done => exact performOutbox other done
  | edit => exact outboxSame rfl rfl

section Workers
variable {embeds : String → List Rat → Prop} {p : EmbeddingProcessor} {job : ClaimedEmbeddingJob}

/-- The job row no longer carries the worker's token. -/
def Store.Replaced (s : Store) (job : ClaimedEmbeddingJob) : Prop :=
  ∀ row ∈ s.jobs, row.jobId = job.jobId → row.leaseToken ≠ some job.leaseToken

theorem replacedUnheld (lost : s.Replaced job) : ∀ row ∈ s.jobs, row.heldBy job = false := by
  intro row hr
  cases held : row.heldBy job with
  | false => rfl
  | true =>
    simp only [EmbeddingJob.heldBy, Bool.and_eq_true, decide_eq_true_eq] at held
    exact absurd held.2 (lost row hr held.1.1)

theorem unheldNone (lost : s.Replaced job) :
    Table.matching (EmbeddingJob.heldBy job) s.jobs = 0 :=
  Table.matchingNone (replacedUnheld lost)

theorem replacedStep {worker after : EmbeddingWorker} (holds : worker.job = some job)
    (lost : s.Replaced job) (step : WorkerStep rt embeds p s worker t after) : t = s := by
  have none := unheldNone lost
  cases step with
  | read => rfl
  | embed => rfl
  | modelRaises => rfl
  | crash => rfl
  | settle =>
    cases holds
    simp [settled, settleInactive, none, ensure, errorBind]
  | commit =>
    cases holds
    have unleased : (s.jobs.any fun row => row.heldBy job && row.isFor p.spec) = false := by
      rw [List.any_eq_false]
      intro row hr
      simp [replacedUnheld lost row hr]
    simp [settled, commitPrepared, unleased, ensure, errorBind]
  | fail =>
    cases holds
    simp [settled, failJob, none, ensure, errorBind]

/-! ## What a step may do to the tables -/

theorem followsAmend {q : EmbeddingJob → Bool} {g : EmbeddingJob → EmbeddingJob}
    (jobs : t.jobs = Table.amend q g s.jobs) (cleared : ∀ row, (g row).leaseToken = none)
    (kept : ∀ row, (g row).attempts = row.attempts) : NoNewLease s t := by
  constructor
  · intro row hr held
    rw [jobs] at hr
    obtain ⟨old, hold, rfl⟩ := Table.memAmend.mp hr
    split at held
    · exact absurd (cleared old) held
    · rename_i spared
      rw [if_neg spared]
      exact hold
  · intro row hr
    rw [jobs] at hr
    obtain ⟨old, hold, rfl⟩ := Table.memAmend.mp hr
    refine .inr ⟨old, hold, ?_⟩
    split
    · exact kept old
    · rfl

theorem settleSource {now : String} (h : settleInactive rt s job now = .ok t) :
    ∃ g : EmbeddingJob → EmbeddingJob, t = { s with jobs := Table.amend (EmbeddingJob.heldBy job) g s.jobs } ∧
      ((∃ f, s.activeFact job.factId = some f ∧ g = EmbeddingJob.requeue (rt.sha256 f.content) now) ∨
        (s.activeFact job.factId = none ∧ g = EmbeddingJob.skip "skipped_inactive" now)) := by
  simp only [settleInactive, bindOk] at h
  obtain ⟨-, -, last⟩ := h
  cases last
  refine ⟨_, rfl, ?_⟩
  cases found : s.activeFact job.factId with
  | none => exact .inr ⟨rfl, rfl⟩
  | some f => exact .inl ⟨f, rfl, rfl⟩

theorem failSource {errorType stamp available : String}
    (h : failJob p s job errorType stamp available = .ok t) :
    ∃ status : JobStatus, status ≠ .completed ∧ t = { s with
      jobs := Table.amend (EmbeddingJob.heldBy job)
        (EmbeddingJob.giveBack status available errorType stamp) s.jobs } := by
  simp only [failJob, bindOk] at h
  obtain ⟨-, -, last⟩ := h
  cases last
  refine ⟨_, ?_, rfl⟩
  split
  · decide
  · decide

theorem upsertSource {factId : Nat} {vector : List Rat} (h : upsertEmbedding p s factId vector = .ok t) :
    (∃ embeddings, t = { s with embeddings }) ∧
      (∃ e ∈ t.embeddings, e.factId = factId ∧ e.embeddingIdentity = p.spec.documentIdentity ∧
        e.dim = p.spec.dimensions ∧ e.embedding = vector) ∧
      ∀ e ∈ t.embeddings, e ∈ s.embeddings ∨ (e.factId = factId ∧
        e.embeddingIdentity = p.spec.documentIdentity ∧ e.dim = p.spec.dimensions ∧
        e.embedding = vector) := by
  simp only [upsertEmbedding, bindOk] at h
  obtain ⟨-, -, h⟩ := h
  split at h
  · rename_i stored
    cases h
    obtain ⟨old, hold, key⟩ := List.any_eq_true.mp stored
    have mine := key
    simp only [Bool.and_eq_true, decide_eq_true_eq] at mine
    refine ⟨⟨_, rfl⟩, ⟨{ old with embedding := vector, dim := p.spec.dimensions }, ?_, mine.1, mine.2,
      rfl, rfl⟩, ?_⟩
    · refine Table.memAmend.mpr ⟨old, hold, ?_⟩
      rw [if_pos key]
    · intro e he
      obtain ⟨was, hwas, rfl⟩ := Table.memAmend.mp he
      split
      · rename_i hit
        simp only [Bool.and_eq_true, decide_eq_true_eq] at hit
        exact .inr ⟨hit.1, hit.2, rfl, rfl⟩
      · exact .inl hwas
  · cases h
    refine ⟨⟨_, rfl⟩, ⟨_, List.mem_append_right _ List.mem_cons_self, rfl, rfl, rfl, rfl⟩, ?_⟩
    intro e he
    rcases List.mem_append.mp he with he | he
    · exact .inl he
    · rw [List.mem_singleton.mp he]
      exact .inr ⟨rfl, rfl, rfl, rfl⟩

inductive Committed (rt : Runtime) (p : EmbeddingProcessor) (s : Store) (job : ClaimedEmbeddingJob)
    (expectedHash : String) (vector : List Rat) (now : String) : Store → Prop
  | stale (gone : s.activeFact job.factId = none) : Committed rt p s job expectedHash vector now
      { s with jobs := Table.amend (·.jobId = job.jobId) (EmbeddingJob.skip "skipped_stale" now) s.jobs }
  | changed {f} (found : s.activeFact job.factId = some f) :
      Committed rt p s job expectedHash vector now { s with
        jobs := Table.amend (·.jobId = job.jobId)
          (EmbeddingJob.requeue (rt.sha256 f.content) now) s.jobs }
  | embedded {f u} (found : s.activeFact job.factId = some f) (same : rt.sha256 f.content = expectedHash)
      (stored : upsertEmbedding p s job.factId vector = .ok u) :
      Committed rt p s job expectedHash vector now { u with
        jobs := Table.amend (·.jobId = job.jobId)
          (EmbeddingJob.complete (rt.sha256 f.content) none now) u.jobs }

theorem commitSource {expectedHash now : String} {vector : List Rat}
    (h : commitPrepared rt p s job expectedHash vector now = .ok t) :
    Committed rt p s job expectedHash vector now t := by
  simp only [commitPrepared, bindOk] at h
  obtain ⟨-, -, h⟩ := h
  split at h
  · rename_i gone
    cases h
    exact .stale gone
  · rename_i f found
    split at h
    · cases h
      exact .changed found
    · rename_i same
      simp only [bindOk] at h
      obtain ⟨u, stored, last⟩ := h
      cases last
      exact .embedded found (not_not.mp same) stored

theorem workerFollows {worker after : EmbeddingWorker}
    (step : WorkerStep rt embeds p s worker t after) : NoNewLease s t := by
  have still : NoNewLease s s := (outboxSame rfl rfl).toNoNewLease
  cases step with
  | read => exact still
  | embed => exact still
  | modelRaises => exact still
  | crash => exact still
  | @settle job now =>
    unfold settled
    split
    · rename_i t done
      obtain ⟨g, rfl, ⟨f, -, rfl⟩ | ⟨-, rfl⟩⟩ := settleSource done
      · exact followsAmend rfl (fun _ => rfl) fun _ => rfl
      · exact followsAmend rfl (fun _ => rfl) fun _ => rfl
    · exact still
  | @commit job content vector now =>
    unfold settled
    split
    · rename_i t done
      cases commitSource done with
      | stale => exact followsAmend rfl (fun _ => rfl) fun _ => rfl
      | changed => exact followsAmend rfl (fun _ => rfl) fun _ => rfl
      | embedded found same stored =>
        obtain ⟨⟨embeddings, rfl⟩, -⟩ := upsertSource stored
        exact followsAmend rfl (fun _ => rfl) fun _ => rfl
    · exact still
  | @fail job errorType stamp available =>
    unfold settled
    split
    · rename_i t done
      obtain ⟨status, -, rfl⟩ := failSource done
      exact followsAmend rfl (fun _ => rfl) fun _ => rfl
    · exact still

theorem claimRows (p : EmbeddingProcessor) (s : Store) (stamp expiresAt token : String) :
    ∀ row ∈ (p.claim s stamp expiresAt token).1.jobs,
      (row.leaseToken ≠ none → row ∈ s.jobs ∨ row.leaseToken = some token) ∧
      ∃ old ∈ s.jobs, row.attempts = old.attempts ∨
        (row.attempts = old.attempts + 1 ∧ old.attempts < p.maxAttempts) := by
  intro row hr
  have buried : ∀ g ∈ Table.amend (EmbeddingJob.exhausted p stamp) (EmbeddingJob.bury stamp) s.jobs,
      (g.leaseToken ≠ none → g ∈ s.jobs) ∧ ∃ old ∈ s.jobs, g.attempts = old.attempts := by
    intro g hg
    obtain ⟨old, hold, rfl⟩ := Table.memAmend.mp hg
    split
    · exact ⟨fun held => absurd rfl held, old, hold, rfl⟩
    · exact ⟨fun _ => hold, old, hold, rfl⟩
  unfold EmbeddingProcessor.claim at hr
  dsimp only at hr
  split at hr
  · obtain ⟨kept, old, hold, same⟩ := buried row hr
    exact ⟨fun held => .inl (kept held), old, hold, .inl same⟩
  · rename_i taken due
    obtain ⟨inside, ready⟩ := firstDueSource due
    obtain ⟨mid, hmid, rfl⟩ := Table.memAmend.mp hr
    split
    · obtain ⟨-, old, hold, same⟩ := buried taken inside
      simp only [EmbeddingJob.due, Bool.and_eq_true, decide_eq_true_eq] at ready
      refine ⟨fun _ => .inr rfl, old, hold, .inr ⟨?_, ?_⟩⟩
      · simp [EmbeddingJob.lease, same]
      · rw [← same]
        exact ready.1.2
    · obtain ⟨kept, old, hold, same⟩ := buried mid hmid
      exact ⟨fun held => .inl (kept held), old, hold, .inl same⟩

theorem claimFrame (p : EmbeddingProcessor) (s : Store) (stamp expiresAt token : String) :
    ∃ jobs, (p.claim s stamp expiresAt token).1 = { s with jobs } ∧
      ∀ job, (p.claim s stamp expiresAt token).2 = some job → job.leaseToken = token := by
  unfold EmbeddingProcessor.claim
  dsimp only
  split
  · exact ⟨_, rfl, fun job same => by cases same⟩
  · exact ⟨_, rfl, fun job same => by cases same; rfl⟩

end Workers

/-! ## Runs -/

section Runs
variable {embeds : String → List Rat → Prop} {procs : Nat → EmbeddingProcessor}
  {start sys mid last : EmbeddingSystem} {bound : Nat}

structure EmbeddingSystem.Rests (sys : EmbeddingSystem) (bound : Nat) : Prop where
  idle : ∀ w, sys.workers w = .idle
  attempts : ∀ row ∈ sys.store.jobs, row.attempts ≤ bound

-- what every reachable system keeps
structure Guarded (embeds : String → List Rat → Prop) (bound : Nat) (sys : EmbeddingSystem) : Prop where
  workers : ∀ w job, (sys.workers w).job = some job → job.leaseToken ∈ sys.issued
  prepared : ∀ w job content vector, sys.workers w = .prepared job content vector →
    embeds content vector
  attempts : ∀ row ∈ sys.store.jobs, row.attempts ≤ bound

theorem jobKept {p : EmbeddingProcessor} {worker after : EmbeddingWorker} {job : ClaimedEmbeddingJob}
    (step : WorkerStep rt embeds p s worker t after) (holds : after.job = some job) :
    worker.job = some job := by
  cases step with
  | read =>
    unfold EmbeddingWorker.afterRead at holds
    split at holds
    · exact holds
    · exact holds
  | embed => exact holds
  | modelRaises => exact holds
  | settle => cases holds
  | commit => cases holds
  | fail => cases holds
  | crash => cases holds

theorem followsBounded (follows : NoNewLease s t) (attempts : ∀ row ∈ s.jobs, row.attempts ≤ bound) :
    ∀ row ∈ t.jobs, row.attempts ≤ bound := by
  intro row hr
  rcases follows.attempts row hr with zero | ⟨old, hold, same⟩
  · omega
  · have := attempts old hold
    omega

theorem setSame {w : Nat} {store : Store} {worker : EmbeddingWorker} :
    (sys.set w store worker).workers w = worker := if_pos rfl

theorem setOther {w v : Nat} {store : Store} {worker : EmbeddingWorker} (other : v ≠ w) :
    (sys.set w store worker).workers v = sys.workers v := if_neg other

-- a worker behind its claim is its claim's, or as it was
theorem claimedJob (store : Store) {taken : Option ClaimedEmbeddingJob} {w v : Nat}
    {job : ClaimedEmbeddingJob} (holds : ((sys.set w store (claimedBy taken)).workers v).job = some job) :
    taken = some job ∨ (sys.workers v).job = some job := by
  by_cases here : v = w
  · rw [here, setSame] at holds
    cases taken with
    | none => cases holds
    | some other => exact .inl holds
  · rw [setOther here] at holds
    exact .inr holds

theorem guardedStep (limits : ∀ w, (procs w).maxAttempts ≤ bound) (guarded : Guarded embeds bound sys)
    (step : EmbeddingStep rt embeds procs (Meddles rt) sys last) : Guarded embeds bound last := by
  cases step with
  | @claim w stamp expiresAt token idle fresh =>
    obtain ⟨jobs, -, tokens⟩ := claimFrame (procs w) sys.store stamp expiresAt token
    constructor
    · intro v job holds
      rcases claimedJob sys.store holds with taken | before
      · rw [tokens job taken]
        exact List.mem_cons_self
      · exact List.mem_cons_of_mem _ (guarded.workers v job before)
    · intro v job content vector shape
      by_cases here : v = w
      · change (if v = w then _ else _) = _ at shape
        rw [if_pos here] at shape
        cases taken : ((procs w).claim sys.store stamp expiresAt token).2 with
        | none =>
          rw [taken] at shape
          cases shape
        | some other =>
          rw [taken] at shape
          cases shape
      · change (if v = w then _ else _) = _ at shape
        rw [if_neg here] at shape
        exact guarded.prepared v job content vector shape
    · intro row hr
      obtain ⟨-, old, hold, same | ⟨raised, below⟩⟩ :=
        claimRows (procs w) sys.store stamp expiresAt token row hr
      · have := guarded.attempts old hold
        omega
      · have := limits w
        omega
  | @work w t worker step =>
    constructor
    · intro v job holds
      by_cases here : v = w
      · rw [here, setSame] at holds
        exact guarded.workers w job (jobKept step holds)
      · rw [setOther here] at holds
        exact guarded.workers v job holds
    · intro v job content vector shape
      by_cases here : v = w
      · rw [here, setSame] at shape
        generalize sys.workers w = worker' at step
        cases step with
        | read =>
          unfold EmbeddingWorker.afterRead at shape
          split at shape
          · cases shape
          · cases shape
        | embed answer =>
          cases shape
          exact answer
        | modelRaises => cases shape
        | settle => cases shape
        | commit => cases shape
        | fail => cases shape
        | crash => cases shape
      · rw [setOther here] at shape
        exact guarded.prepared v job content vector shape
    · exact followsBounded (workerFollows step) guarded.attempts
  | environment changes =>
    exact ⟨guarded.workers, guarded.prepared,
      followsBounded (meddlesOutbox changes).toNoNewLease guarded.attempts⟩

theorem restsGuarded (rests : start.Rests bound) : Guarded embeds bound start where
  workers w job holds := by
    rw [rests.idle w] at holds
    cases holds
  prepared w job content vector shape := by
    rw [rests.idle w] at shape
    cases shape
  attempts := rests.attempts

theorem runGuarded (limits : ∀ w, (procs w).maxAttempts ≤ bound) (rests : start.Rests bound)
    (run : EmbeddingRun rt embeds procs (Meddles rt) start sys) : Guarded embeds bound sys :=
  runInvariant (fun _ _ guarded step => guardedStep limits guarded step) run (restsGuarded rests)

theorem replacedStays {job : ClaimedEmbeddingJob} (issued : job.leaseToken ∈ sys.issued)
    (lost : sys.store.Replaced job) (run : EmbeddingRun rt embeds procs (Meddles rt) sys last) :
    last.store.Replaced job := by
  have kept : ∀ a b : EmbeddingSystem, (job.leaseToken ∈ a.issued ∧ a.store.Replaced job) →
      EmbeddingStep rt embeds procs (Meddles rt) a b →
      job.leaseToken ∈ b.issued ∧ b.store.Replaced job := by
    intro a b before step
    obtain ⟨issued, lost⟩ := before
    have follows : ∀ t : Store, NoNewLease a.store t → t.Replaced job := by
      intro t follows row hr same held
      exact lost row (follows.leased row hr (by simp [held])) same held
    cases step with
    | @claim w stamp expiresAt token idle fresh =>
      refine ⟨List.mem_cons_of_mem _ issued, fun row hr same held => ?_⟩
      rcases (claimRows (procs w) a.store stamp expiresAt token row hr).1 (by simp [held]) with
        old | new
      · exact lost row old same held
      · rw [held] at new
        rw [Option.some.inj new] at issued
        exact fresh issued
    | work step => exact ⟨issued, follows _ (workerFollows step)⟩
    | environment changes => exact ⟨issued, follows _ (meddlesOutbox changes).toNoNewLease⟩
  exact (runInvariant (P := fun sys => job.leaseToken ∈ sys.issued ∧ sys.store.Replaced job) kept run
    ⟨issued, lost⟩).2

theorem vectorStored {p : EmbeddingProcessor} {worker after : EmbeddingWorker}
    (prepared : ∀ job content vector, worker = .prepared job content vector → embeds content vector)
    (step : WorkerStep rt embeds p s worker t after) :
    t.facts = s.facts ∧ ∀ e ∈ t.embeddings, e ∈ s.embeddings ∨
      ∃ f ∈ s.facts, f.factId = e.factId ∧ f.active = true ∧
        ∃ text, embeds text e.embedding ∧ rt.sha256 text = rt.sha256 f.content := by
  have still : s.facts = s.facts ∧ ∀ e ∈ s.embeddings, e ∈ s.embeddings ∨
      ∃ f ∈ s.facts, f.factId = e.factId ∧ f.active = true ∧
        ∃ text, embeds text e.embedding ∧ rt.sha256 text = rt.sha256 f.content :=
    ⟨rfl, fun e he => .inl he⟩
  cases step with
  | read => exact still
  | embed => exact still
  | modelRaises => exact still
  | crash => exact still
  | @settle job now =>
    unfold settled
    split
    · rename_i t done
      obtain ⟨g, rfl, -⟩ := settleSource done
      exact still
    · exact still
  | @fail job errorType stamp available =>
    unfold settled
    split
    · rename_i t done
      obtain ⟨status, -, rfl⟩ := failSource done
      exact still
    · exact still
  | @commit job content vector now =>
    unfold settled
    split
    · rename_i t done
      cases commitSource done with
      | stale => exact still
      | changed => exact still
      | @embedded f u found same stored =>
        obtain ⟨⟨embeddings, rfl⟩, -, only⟩ := upsertSource stored
        refine ⟨rfl, fun e he => ?_⟩
        rcases only e he with old | ⟨id, -, -, value⟩
        · exact .inl old
        · obtain ⟨mem, factId, active⟩ := activeFactSource found
          refine .inr ⟨f, mem, factId.trans id.symm, active, content, ?_, same.symm⟩
          rw [value]
          exact prepared job content vector rfl
    · exact still

/-- In every interleaving: a worker whose token left its row changes nothing with that claim ever
again; every vector that enters the store was computed from a text with the hash its fact's content
has at that moment; and attempts stay within the bound. -/
theorem embeddingLeasesFence (limits : ∀ w, (procs w).maxAttempts ≤ bound) (rests : start.Rests bound)
    (run : EmbeddingRun rt embeds procs (Meddles rt) start sys) :
    (∀ w job, (sys.workers w).job = some job → sys.store.Replaced job →
      ∀ later, EmbeddingRun rt embeds procs (Meddles rt) sys later →
      (later.workers w).job = some job →
      ∀ t after, WorkerStep rt embeds (procs w) later.store (later.workers w) t after →
        t = later.store) ∧
    (∀ next, EmbeddingStep rt embeds procs (Meddles rt) sys next →
      ∀ e ∈ next.store.embeddings, e ∉ sys.store.embeddings →
      next.store.facts = sys.store.facts ∧
      ∃ f ∈ sys.store.facts, f.factId = e.factId ∧ f.active = true ∧
        ∃ text, embeds text e.embedding ∧ rt.sha256 text = rt.sha256 f.content) ∧
    ∀ row ∈ sys.store.jobs, row.attempts ≤ bound := by
  have guarded := runGuarded limits rests run
  refine ⟨?_, ?_, guarded.attempts⟩
  · intro w job holds lost later between still t after step
    exact replacedStep still (replacedStays (guarded.workers w job holds) lost between) step
  · intro next step e he new
    cases step with
    | @claim w stamp expiresAt token =>
      obtain ⟨jobs, frame, -⟩ := claimFrame (procs w) sys.store stamp expiresAt token
      change e ∈ ((procs w).claim sys.store stamp expiresAt token).1.embeddings at he
      rw [frame] at he
      exact absurd he new
    | @work w t worker step =>
      obtain ⟨facts, vectors⟩ := vectorStored (guarded.prepared w) step
      rcases vectors e he with old | computed
      · exact absurd old new
      · exact ⟨facts, computed⟩
    | environment changes => exact absurd ((meddlesOutbox changes).vectors e he) new

end Runs
namespace Example

def spec : EmbeddingSpec := ⟨"m:document:none:v1", "v1", 1⟩

def outboxed : WriteService := { trusted with embeddingEnqueue := some spec }

def twoWorkers (w : Nat) : EmbeddingProcessor :=
  ⟨spec, if w = 0 then "first" else "second", 5⟩

def oneJob : EmbeddingSystem where
  store := history [.write outboxed caller lima]
  workers := fun _ => .idle
  issued := []

def reclaimed : EmbeddingSystem :=
  (oneJob.claim twoWorkers 0 "2026-01-04" "2026-01-05" "a").claim twoWorkers 1 "2026-01-06"
    "2026-01-07" "b"

theorem embeddingLeasesFenceHere : ∃ job, (reclaimed.workers 0).job = some job ∧
    reclaimed.store.Replaced job ∧ ∀ t after,
      WorkerStep .plain (fun _ _ => True) (twoWorkers 0) reclaimed.store (reclaimed.workers 0) t after →
        t = reclaimed.store := by
  have run : EmbeddingRun .plain (fun _ _ => True) twoWorkers (Meddles .plain) oneJob reclaimed :=
    .step (.step .refl (.claim rfl (by decide))) (.claim rfl (by decide))
  have held : (reclaimed.workers 0).job.any (fun job => decide (job.leaseToken = "a") &&
      reclaimed.store.jobs.all fun row => row.leaseToken = some "b") = true := by decide +kernel
  obtain ⟨job, holds, shape⟩ := (Option.any_eq_true _ _).mp held
  simp only [Bool.and_eq_true, decide_eq_true_eq, List.all_eq_true] at shape
  have lost : reclaimed.store.Replaced job := by
    intro row hr _ same
    rw [shape.2 row hr, shape.1] at same
    exact absurd same (by decide)
  have rests : oneJob.Rests 5 := ⟨fun _ => rfl, by decide +kernel⟩
  have fenced := (embeddingLeasesFence (fun _ => Nat.le_refl 5) rests run).1
  exact ⟨job, holds, lost, fenced 0 job holds lost reclaimed .refl holds⟩

end Example
end Enfold
