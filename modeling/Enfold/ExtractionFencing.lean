import Enfold.EmbeddingFencing
import Enfold.ExtractionJobs
import Enfold.Reopening

/-! Extraction jobs take effect once: a job's writes are committed by the transaction that deletes
its row and by no other, and a processor whose token left the row changes nothing any more. -/
namespace Enfold

open Fallible

variable {rt : Runtime} {s t u : Store}

/-! ## What a statement does to the queue -/

-- rows keep their ids, and no row gets a token it did not have
structure QueueMoves (queue queue' : List QueueRow) : Prop where
  ids : queue'.map QueueRow.id = queue.map QueueRow.id
  tokens : ∀ row ∈ queue', row.leaseToken ≠ none →
    ∃ old ∈ queue, old.id = row.id ∧ old.leaseToken = row.leaseToken

theorem movesSame {queue : List QueueRow} : QueueMoves queue queue :=
  ⟨rfl, fun row hr _ => ⟨row, hr, rfl, rfl⟩⟩

theorem movesAmend {q : QueueRow → Bool} {g : QueueRow → QueueRow} {queue : List QueueRow}
    (ids : ∀ row, (g row).id = row.id)
    (tokens : ∀ row, (g row).leaseToken = none ∨ (g row).leaseToken = row.leaseToken) :
    QueueMoves queue (Table.amend q g queue) where
  ids := Table.amendKeys ids
  tokens row hr held := by
    obtain ⟨old, hold, rfl⟩ := Table.memAmend.mp hr
    refine ⟨old, hold, ?_⟩
    split at held
    · rename_i hit
      rw [if_pos hit]
      rcases tokens old with cleared | kept
      · exact absurd cleared held
      · exact ⟨(ids old).symm, kept.symm⟩
    · rename_i spared
      rw [if_neg spared]
      exact ⟨rfl, rfl⟩

/-! ## The memory operations -/

theorem applyMergeQueue {plan : MergePlan} : (applyMerge s plan).queue = s.queue :=
  mergeKeeps (P := fun t => t.queue = s.queue) (fun _ _ _ same => same) (fun _ _ _ _ _ same => same) rfl

theorem stepQueue {svc : WriteService} {effective : ConnectionContext} {timed : TimedWrite rt}
    {query : Option (List Rat)} {outcome : WriteOutcome}
    (authorized : svc.policy.authorizeContext rt svc.legacyAuthorized effective = .ok effective)
    (h : batchStep rt svc effective s (timed, query) = .ok (t, outcome)) : t.queue = s.queue := by
  obtain ⟨extracted, -, -, done⟩ := batchStepSource authorized h
  exact transactQueue done

-- an erasure empties the texts of its jobs; no other operation touches the queue
theorem performScrubs {o : Operation rt} (spares : o.sparesQueue) (done : o.perform s = .ok t) :
    t.queue = s.queue ∨ ∃ q, t.queue = Table.amend q (QueueRow.scrub rt) s.queue := by
  cases o with
  | write svc context timed =>
    exact .inl (writeKeeps (P := fun u => u.queue = s.queue) (C := fun _ _ _ _ _ => True)
      (fun authorized _ h before => (stepQueue authorized h).trans before) meetsAlways done rfl)
  | writeBatch svc context writes rollbackIf completes =>
    exact .inl (batchKeeps (P := fun u => u.queue = s.queue) (C := fun _ _ _ _ _ => True)
      (fun authorized _ h before => (stepQueue authorized h).trans before)
      (fun {u} before => show Table.remove completes u.queue = s.queue by
        rw [before]
        exact List.filter_eq_self.mpr fun row _ => by simp [spares row])
      meetsAlways done rfl)
  | resolveConflict svc context conflictId factId reason resolvedAt queuedAt =>
    simp only [Operation.perform, bindOk, Prod.exists] at done
    obtain ⟨effective, -, u, resolution, resolved, last⟩ := done
    cases last
    obtain ⟨clients, sessions, resolutions, jobs, l, -, same⟩ := resolveConflictSource resolved
    rw [same]
    exact .inl rfl
  | eraseFact factId requestedBy reason erasedAt =>
    simp only [Operation.perform, bindOk, Prod.exists] at done
    obtain ⟨u, report, erased, last⟩ := done
    cases last
    obtain ⟨insights, conflicts, linked, -, queue⟩ := eraseFactSource erased
    exact .inr ⟨_, queue⟩
  | mergeClusters plan least most fraction =>
    simp only [Operation.perform, executeMerge, bindOk] at done
    obtain ⟨-, -, -, -, last⟩ := done
    cases last
    exact .inl applyMergeQueue
  | storeEmbedding =>
    cases done
    exact .inl rfl

theorem performQueue {o : Operation rt} (spares : o.sparesQueue) (done : o.perform s = .ok t) :
    QueueMoves s.queue t.queue := by
  rcases performScrubs spares done with same | ⟨q, same⟩
  · rw [same]
    exact movesSame
  · rw [same]
    exact movesAmend (fun _ => rfl) fun _ => .inr rfl

/-! ## The claim -/

theorem claimQueue {p : ExtractionProcessor} {now : Rat} {token : String}
    {taken : Option ClaimedExtraction} (h : p.claim rt s now token = .ok (t, taken)) :
    (∃ queue, t = { s with queue }) ∧ t.queue.map QueueRow.id = s.queue.map QueueRow.id ∧
      (∀ row ∈ t.queue, row.leaseToken ≠ none → row.leaseToken = some token ∨
        ∃ old ∈ s.queue, old.id = row.id ∧ old.leaseToken = row.leaseToken) ∧
      ∀ job, taken = some job → job.lease.leaseToken = token := by
  have buried : QueueMoves s.queue
      (Table.amend (QueueRow.exhausted p.maxAttempts now) QueueRow.bury s.queue) :=
    movesAmend (fun _ => rfl) fun _ => .inl rfl
  unfold ExtractionProcessor.claim at h
  dsimp only at h
  split at h
  · cases h
    exact ⟨⟨_, rfl⟩, buried.ids, fun row hr held => .inr (buried.tokens row hr held), nofun⟩
  · simp only [bindOk] at h
    obtain ⟨-, -, last⟩ := h
    cases last
    refine ⟨⟨_, rfl⟩, ?_, fun row hr held => ?_, fun job same => ?_⟩
    · refine Eq.trans ?_ buried.ids
      exact Table.amendKeys fun _ => rfl
    · obtain ⟨mid, hmid, rfl⟩ := Table.memAmend.mp hr
      split at held
      · rename_i hit
        rw [if_pos hit]
        exact .inl rfl
      · rename_i spared
        rw [if_neg spared]
        exact .inr (buried.tokens mid hmid held)
    · cases same
      rfl

/-! ## A processor's step -/

/-- The store after every write of a concluded job was performed and answered without refusal. -/
def JobWritten (svc : WriteService) (context : ConnectionContext) (s u : Store) (c : Concluded rt) :
    Prop :=
  (c.writes = [] ∧ c.outcomes = [] ∧ u = s) ∨
    ∃ effective readings round prepared,
      svc.policy.authorizeContext rt svc.legacyAuthorized context = .ok effective ∧
      prepareBatch rt svc effective s (timed rt readings round c.writes) = .ok prepared ∧
      Batch.each (batchStep rt svc effective) s prepared = .ok (u, c.outcomes) ∧
      ∀ outcome ∈ c.outcomes, outcome.refused = false

/-- What one step of a processor may come to: its own row moved and nothing else, or its job
concluded, the writes and the deletion together. -/
inductive ExtractionEffect (host : ExtractionHost rt) (p : ExtractionProcessor)
    (worker : ExtractionWorker rt) (s : Store) : Store → Option (Concluded rt) → Prop
  | moves {queue} (moved : QueueMoves s.queue queue) :
      ExtractionEffect host p worker s { s with queue } none
  | concludes {job c u} (holds : worker.job = some job) (row : c.rowId = job.lease.rowId)
      (held : Table.matching (QueueRow.leasedBy job.lease) s.queue = 1) (queue : u.queue = s.queue)
      (written : JobWritten p.svc (host.contextOf job.payload) s u c) :
      ExtractionEffect host p worker s
        { u with queue := Table.remove (QueueRow.leasedBy job.lease) s.queue } (some c)

theorem deleteClaimedSource {lease : ExtractionLease} (h : deleteClaimedRow lease s = .ok t) :
    Table.matching (QueueRow.leasedBy lease) s.queue = 1 ∧
      t = { s with queue := Table.remove (QueueRow.leasedBy lease) s.queue } := by
  simp only [deleteClaimedRow, bindOk, ensureOk, decide_eq_true_eq] at h
  obtain ⟨-, one, last⟩ := h
  cases last
  exact ⟨one, rfl⟩

theorem handleBatchSource {svc : WriteService} {context : ConnectionContext}
    {writes : List (TimedWrite rt)} {hook : Store → Except Raised Store} {batch : WriteBatchOutcome}
    (some' : writes ≠ []) (h : handleWriteBatch rt svc context s writes hook = .ok (t, batch)) :
    (batch.committed = false ∧ t = s) ∨
      (batch.committed = true ∧ ∃ effective prepared u,
        svc.policy.authorizeContext rt svc.legacyAuthorized context = .ok effective ∧
        prepareBatch rt svc effective s writes = .ok prepared ∧
        Batch.each (batchStep rt svc effective) s prepared = .ok (u, batch.outcomes) ∧
        (∀ outcome ∈ batch.outcomes, outcome.refused = false) ∧ hook u = .ok t) := by
  unfold handleWriteBatch at h
  rw [if_neg some'] at h
  simp only [bindOk, Prod.exists] at h
  obtain ⟨first, authorized, u, answer, written, h⟩ := h
  have permitted := authorizeSource authorized
  have ran : writeBatch rt svc first s writes WriteOutcome.refused hook = .ok (u, answer) := by
    unfold mapFailure at written
    split at written
    · rename_i done
      rw [done, Except.ok.inj written]
    · cases written
  split at h
  · cases h
  · cases h
    rcases writeBatchSource ran with same | ⟨committed, effective, prepared, v, -, granted, ready,
        steps, fine, hooked⟩
    · exact .inl same
    · rw [(authorizeTwice permitted).2] at granted
      cases granted
      exact .inr ⟨committed, first, prepared, v, permitted, ready, steps, fine, hooked⟩

section Worker
variable {host : ExtractionHost rt} {p : ExtractionProcessor} {worker after : ExtractionWorker rt}
  {concluded : Option (Concluded rt)}

theorem extractionEffect (step : ExtractionWorkerStep host p s worker t after concluded) :
    ExtractionEffect host p worker s t concluded := by
  have still : ExtractionEffect host p worker s s none := .moves movesSame
  cases step with
  | observe => exact still
  | load => exact still
  | unsaved => exact still
  | renew => exact .moves (movesAmend (fun _ => rfl) fun _ => .inr rfl)
  | renewalLost => exact .moves (movesAmend (fun _ => rfl) fun _ => .inr rfl)
  | extract => exact still
  | persist saved =>
    simp only [persistSnapshot, bindOk] at saved
    obtain ⟨-, -, last⟩ := saved
    cases last
    exact .moves (movesAmend (fun _ => rfl) fun _ => .inr rfl)
  | prepare => exact still
  | complete done =>
    obtain ⟨held, rfl⟩ := deleteClaimedSource done
    exact .concludes rfl rfl held rfl (.inl ⟨rfl, rfl, rfl⟩)
  | @commit job round pending readings t batch some' written committed =>
    have writes : timed rt readings round pending ≠ [] := by
      simpa [timed] using some'
    rcases handleBatchSource writes written with ⟨refused, -⟩ |
        ⟨-, effective, prepared, u, authorized, ready, steps, fine, hooked⟩
    · rw [committed] at refused
      cases refused
    · have queue : u.queue = s.queue :=
        itemsKeep (P := fun u => u.queue = s.queue) (C := fun _ _ _ _ _ => True)
          (fun authorized _ h before => (stepQueue authorized h).trans before)
          (authorizeTwice authorized).2 (fun _ _ _ _ _ _ _ => trivial) steps rfl
      obtain ⟨held, rfl⟩ := deleteClaimedSource hooked
      rw [queue] at held ⊢
      exact .concludes rfl rfl held queue
        (.inr ⟨effective, readings, round, prepared, authorized, ready, steps, fine⟩)
  | @refused job round pending readings t batch some' written refused =>
    have writes : timed rt readings round pending ≠ [] := by
      simpa [timed] using some'
    rcases handleBatchSource writes written with ⟨-, rfl⟩ | ⟨committed, -⟩
    · exact still
    · rw [committed] at refused
      cases refused
  | raises => exact still
  | readAttempts => exact still
  | record => exact .moves (movesAmend (fun _ => rfl) fun _ => .inl rfl)
  | crash => exact still

def Store.LeaseReplaced (s : Store) (lease : ExtractionLease) : Prop :=
  ∀ row ∈ s.queue, row.id = lease.rowId → row.leaseToken ≠ some lease.leaseToken

theorem replacedUnowned {lease : ExtractionLease} (lost : s.LeaseReplaced lease) :
    ∀ row ∈ s.queue, row.ownedBy lease = false := by
  intro row hr
  cases owned : row.ownedBy lease with
  | false => rfl
  | true =>
    simp only [QueueRow.ownedBy, Bool.and_eq_true, decide_eq_true_eq] at owned
    exact absurd owned.2 (lost row hr owned.1.1)

theorem replacedUnleased {lease : ExtractionLease} (lost : s.LeaseReplaced lease) :
    ∀ row ∈ s.queue, row.leasedBy lease = false := by
  intro row hr
  cases leased : row.leasedBy lease with
  | false => rfl
  | true =>
    simp only [QueueRow.leasedBy, Bool.and_eq_true, decide_eq_true_eq] at leased
    exact absurd leased.2 (lost row hr leased.1.1.1)

-- every statement of a processor whose token is gone hits no row
theorem replacedExtraction {job : ClaimedExtraction} (holds : worker.job = some job)
    (lost : s.LeaseReplaced job.lease)
    (step : ExtractionWorkerStep host p s worker t after concluded) : t = s ∧ concluded = none := by
  have unleased := replacedUnleased lost
  have none' : Table.matching (QueueRow.leasedBy job.lease) s.queue = 0 :=
    Table.matchingNone unleased
  have unowned := replacedUnowned lost
  have renewed : ∀ now seconds : Rat, (renewLease s job.lease now seconds).1 = s := by
    intro now seconds
    unfold renewLease
    dsimp only
    rw [Table.amendUntouched fun row hr => by simp [unleased row hr]]
  cases step with
  | observe => exact ⟨rfl, rfl⟩
  | load => exact ⟨rfl, rfl⟩
  | unsaved => exact ⟨rfl, rfl⟩
  | renew =>
    cases holds
    exact ⟨renewed _ _, rfl⟩
  | renewalLost =>
    cases holds
    exact ⟨renewed _ _, rfl⟩
  | extract => exact ⟨rfl, rfl⟩
  | persist saved =>
    cases holds
    simp only [persistSnapshot, bindOk, ensureOk, decide_eq_true_eq] at saved
    obtain ⟨-, one, -⟩ := saved
    obtain ⟨row, hr, hit⟩ := Table.matchingPos one
    simp [unleased row hr] at hit
  | prepare => exact ⟨rfl, rfl⟩
  | complete done =>
    cases holds
    have held := (deleteClaimedSource done).1
    omega
  | @commit job round pending readings t batch some' written committed =>
    cases holds
    have step : ExtractionWorkerStep host p _ _ _ _ _ := .commit some' written committed
    have effect := extractionEffect step
    cases effect with
    | concludes same row held =>
      cases same
      omega
  | @refused job round pending readings t batch some' written refused fewer =>
    have writes : timed rt readings round pending ≠ [] := by
      simpa [timed] using some'
    rcases handleBatchSource writes written with ⟨-, same⟩ | ⟨committed, -⟩
    · exact ⟨same, rfl⟩
    · rw [committed] at refused
      cases refused
  | raises => exact ⟨rfl, rfl⟩
  | readAttempts => exact ⟨rfl, rfl⟩
  | @record job failure attempts =>
    cases holds
    have same := Table.amendUntouched (f := failure.record p.maxAttempts attempts) unowned
    unfold recordFailure
    rw [same]
    exact ⟨rfl, rfl⟩
  | crash => exact ⟨rfl, rfl⟩

-- a processor behind its claim keeps the job of that claim
theorem extractionJobKept {job : ClaimedExtraction}
    (step : ExtractionWorkerStep host p s worker t after concluded) (holds : after.job = some job) :
    worker.job = some job := by
  cases step with
  | raises busy =>
    cases holds
    exact busy
  | complete => cases holds
  | commit => cases holds
  | record => cases holds
  | crash => cases holds
  | _ => exact holds

end Worker

/-! ## Runs -/

theorem enqueueExtractionSource {nextQueueId queueId : Nat} {payload createdAt : String} {replayed : Bool}
    (h : enqueueExtraction rt s nextQueueId payload createdAt = (t, queueId, replayed)) :
    (replayed = true ∧ t = s) ∨ (replayed = false ∧ ∃ row : QueueRow, row.id = nextQueueId ∧
      row.leaseToken = none ∧ t = { s with queue := s.queue ++ [row] }) := by
  unfold enqueueExtraction at h
  dsimp only at h
  split at h
  · cases h
    exact .inl ⟨rfl, rfl⟩
  · cases h
    exact .inr ⟨rfl, _, rfl, rfl, rfl⟩

section Runs
variable {host : ExtractionHost rt} {procs : Nat → ExtractionProcessor}
  {sys next last : ExtractionSystem rt}

-- what every reachable system keeps
structure Tracked (sys : ExtractionSystem rt) : Prop where
  ids : Table.Unique QueueRow.id sys.store.queue
  bound : ∀ row ∈ sys.store.queue, row.id < sys.nextQueueId
  gone : ∀ c ∈ sys.concluded, c.rowId < sys.nextQueueId ∧
    ∀ row ∈ sys.store.queue, row.id ≠ c.rowId
  once : (sys.concluded.map Concluded.rowId).Nodup
  workers : ∀ w job, (sys.workers w).job = some job → job.lease.leaseToken ∈ sys.issued

theorem trackedInitial : Tracked (.initial rt : ExtractionSystem rt) where
  ids := List.nodup_nil
  bound _ hr := absurd hr List.not_mem_nil
  gone _ hc := absurd hc List.not_mem_nil
  once := List.nodup_nil
  workers _ _ holds := nomatch holds

-- the rows of a queue that kept its ids
theorem trackedRows (tracked : Tracked sys) {queue : List QueueRow}
    (ids : queue.map QueueRow.id = sys.store.queue.map QueueRow.id) :
    Table.Unique QueueRow.id queue ∧ (∀ row ∈ queue, row.id < sys.nextQueueId) ∧
      ∀ c ∈ sys.concluded, c.rowId < sys.nextQueueId ∧ ∀ row ∈ queue, row.id ≠ c.rowId := by
  have known : ∀ row ∈ queue, ∃ old ∈ sys.store.queue, old.id = row.id := by
    intro row hr
    have inside := ids ▸ List.mem_map_of_mem (f := QueueRow.id) hr
    exact List.mem_map.mp inside
  refine ⟨by simpa only [Table.Unique, ids] using tracked.ids, fun row hr => ?_, fun c hc => ?_⟩
  · obtain ⟨old, hold, id⟩ := known row hr
    exact id ▸ tracked.bound old hold
  · refine ⟨(tracked.gone c hc).1, fun row hr same => ?_⟩
    obtain ⟨old, hold, id⟩ := known row hr
    exact (tracked.gone c hc).2 old hold (id.trans same)

theorem setJob {w v : Nat} (store : Store) {worker : ExtractionWorker rt}
    (concluded : Option (Concluded rt)) {job : ClaimedExtraction}
    (holds : ((sys.set w store worker concluded).workers v).job = some job) :
    (v = w ∧ worker.job = some job) ∨ (sys.workers v).job = some job := by
  change (if v = w then worker else sys.workers v).job = some job at holds
  by_cases here : v = w
  · rw [if_pos here] at holds
    exact .inl ⟨here, holds⟩
  · rw [if_neg here] at holds
    exact .inr holds

-- removing a leased row removes its id
theorem removedGone {queue : List QueueRow} {lease : ExtractionLease}
    (ids : Table.Unique QueueRow.id queue)
    (held : Table.matching (QueueRow.leasedBy lease) queue = 1) :
    (∃ row ∈ queue, row.id = lease.rowId) ∧
      ∀ row ∈ Table.remove (QueueRow.leasedBy lease) queue, row ∈ queue ∧ row.id ≠ lease.rowId := by
  obtain ⟨taken, inside, leased⟩ := Table.matchingPos held
  have mine := leased
  simp only [QueueRow.leasedBy, Bool.and_eq_true, decide_eq_true_eq] at mine
  refine ⟨⟨taken, inside, mine.1.1.1⟩, fun row hr => ?_⟩
  obtain ⟨hr, spared⟩ := List.mem_filter.mp hr
  refine ⟨hr, fun same => ?_⟩
  rw [Table.uniqueEq ids hr inside (same.trans mine.1.1.1.symm), leased] at spared
  cases spared

theorem trackedStep (tracked : Tracked sys) (step : ExtractionStep host procs sys next) :
    Tracked next := by
  cases step with
  | @claim w now token t taken idle fresh done =>
    obtain ⟨-, ids, -, tokens⟩ := claimQueue done
    obtain ⟨unique, bound, gone⟩ := trackedRows tracked ids
    refine ⟨unique, bound, gone, tracked.once, fun v job holds => ?_⟩
    rcases setJob t none holds with ⟨-, new⟩ | old
    · cases taken with
      | none => cases new
      | some job' =>
        cases new
        rw [tokens job rfl]
        exact List.mem_cons_self
    · exact List.mem_cons_of_mem _ (tracked.workers v job old)
  | @work w t after concluded step =>
    have workers : ∀ v job, ((sys.set w t after concluded).workers v).job = some job →
        job.lease.leaseToken ∈ sys.issued := by
      intro v job holds
      rcases setJob t concluded holds with ⟨-, new⟩ | old
      · exact tracked.workers w job (extractionJobKept step new)
      · exact tracked.workers v job old
    cases extractionEffect step with
    | moves moved =>
      obtain ⟨unique, bound, gone⟩ := trackedRows tracked moved.ids
      exact ⟨unique, bound, gone, tracked.once, workers⟩
    | @concludes job c u holds row held queue written =>
      obtain ⟨⟨taken, inside, id⟩, rest⟩ := removedGone tracked.ids held
      have new : ∀ old ∈ sys.concluded, old.rowId ≠ c.rowId := by
        intro old hold same
        exact (tracked.gone old hold).2 taken inside (id.trans (row.symm.trans same.symm))
      refine ⟨List.Nodup.sublist (List.Sublist.map _ List.filter_sublist) tracked.ids,
        fun row hr => tracked.bound row (rest row hr).1, fun d hd => ?_, ?_, workers⟩
      · rcases List.mem_cons.mp hd with rfl | old
        · refine ⟨?_, fun row hr => ?_⟩
          · rw [row, ← id]
            exact tracked.bound taken inside
          · rename_i same
            rw [same]
            exact (rest row hr).2
        · exact ⟨(tracked.gone d old).1, fun row hr => (tracked.gone d old).2 row (rest row hr).1⟩
      · refine List.nodup_cons.mpr ⟨fun inside => ?_, tracked.once⟩
        obtain ⟨old, hold, same⟩ := List.mem_map.mp inside
        exact new old hold same
  | @enqueue payload createdAt t queueId replayed done =>
    rcases enqueueExtractionSource done with ⟨rfl, rfl⟩ | ⟨rfl, row, id, -, rfl⟩
    · exact ⟨tracked.ids, tracked.bound, tracked.gone, tracked.once, tracked.workers⟩
    · refine ⟨Table.uniqueAppend tracked.ids fun old hold => ?_, fun other hr => ?_,
        fun c hc => ⟨?_, fun other hr same => ?_⟩, tracked.once, tracked.workers⟩
      · rw [id]
        exact Nat.ne_of_lt (tracked.bound old hold)
      · show other.id < sys.nextQueueId + 1
        rcases List.mem_append.mp hr with hr | hr
        · have := tracked.bound other hr
          omega
        · rw [List.mem_singleton.mp hr, id]
          omega
      · exact Nat.lt_succ_of_lt (tracked.gone c hc).1
      · rcases List.mem_append.mp hr with hr | hr
        · exact (tracked.gone c hc).2 other hr same
        · rw [List.mem_singleton.mp hr, id] at same
          have := (tracked.gone c hc).1
          omega
  | memory o spares done =>
    obtain ⟨unique, bound, gone⟩ := trackedRows tracked (performQueue spares done).ids
    exact ⟨unique, bound, gone, tracked.once, tracked.workers⟩

theorem runTracked (run : ExtractionRun host procs (.initial rt) sys) : Tracked sys :=
  extractionInvariant (fun _ _ tracked step => trackedStep tracked step) run trackedInitial

theorem leaseStaysReplaced {lease : ExtractionLease} (issued : lease.leaseToken ∈ sys.issued)
    (lost : sys.store.LeaseReplaced lease) (run : ExtractionRun host procs sys last) :
    last.store.LeaseReplaced lease := by
  have kept : ∀ a b : ExtractionSystem rt, (lease.leaseToken ∈ a.issued ∧ a.store.LeaseReplaced lease) →
      ExtractionStep host procs a b →
      lease.leaseToken ∈ b.issued ∧ b.store.LeaseReplaced lease := by
    intro a b before step
    obtain ⟨issued, lost⟩ := before
    have moves : ∀ queue : List QueueRow, QueueMoves a.store.queue queue →
        ∀ row ∈ queue, row.id = lease.rowId → row.leaseToken ≠ some lease.leaseToken := by
      intro queue moved row hr same held
      obtain ⟨old, hold, id, token⟩ := moved.tokens row hr (by simp [held])
      exact lost old hold (id.trans same) (token.trans held)
    cases step with
    | @claim w now token t taken idle fresh done =>
      obtain ⟨-, -, tokens, -⟩ := claimQueue done
      refine ⟨List.mem_cons_of_mem _ issued, fun row hr same held => ?_⟩
      rcases tokens row hr (by simp [held]) with new | ⟨old, hold, id, was⟩
      · rw [held] at new
        rw [Option.some.inj new] at issued
        exact fresh issued
      · exact lost old hold (id.trans same) (was.trans held)
    | @work w t after concluded step =>
      cases extractionEffect step with
      | moves moved => exact ⟨issued, moves _ moved⟩
      | concludes =>
        refine ⟨issued, fun row hr same => ?_⟩
        exact lost row (List.mem_filter.mp hr).1 same
    | @enqueue payload createdAt t queueId replayed done =>
      rcases enqueueExtractionSource done with ⟨-, rfl⟩ | ⟨-, new, -, free, rfl⟩
      · exact ⟨issued, lost⟩
      · refine ⟨issued, fun row hr same held => ?_⟩
        rcases List.mem_append.mp hr with hr | hr
        · exact lost row hr same held
        · rw [List.mem_singleton.mp hr, free] at held
          cases held
    | memory o spares done => exact ⟨issued, moves _ (performQueue spares done)⟩
  exact (extractionInvariant (P := fun sys => lease.leaseToken ∈ sys.issued ∧
    sys.store.LeaseReplaced lease) kept run ⟨issued, lost⟩).2

def Removes (sys next : ExtractionSystem rt) (k : Nat) : Prop :=
  (∃ row ∈ sys.store.queue, row.id = k) ∧ ∀ row ∈ next.store.queue, row.id ≠ k

theorem removesConcluded (tracked : Tracked sys) (step : ExtractionStep host procs sys next) (k : Nat) :
    Removes sys next k ↔ ∃ c, next.concluded = c :: sys.concluded ∧ c.rowId = k := by
  have stays : ∀ queue : List QueueRow, queue.map QueueRow.id = sys.store.queue.map QueueRow.id →
      ¬ ((∃ row ∈ sys.store.queue, row.id = k) ∧ ∀ row ∈ queue, row.id ≠ k) := by
    intro queue ids both
    obtain ⟨⟨row, hr, id⟩, gone⟩ := both
    have inside : row.id ∈ queue.map QueueRow.id := by
      rw [ids]
      exact List.mem_map_of_mem hr
    obtain ⟨other, hother, same⟩ := List.mem_map.mp inside
    exact gone other hother (same.trans id)
  have unlogged : ¬ ∃ c, sys.concluded = c :: sys.concluded ∧ c.rowId = k := by
    intro both
    obtain ⟨c, same, -⟩ := both
    exact List.cons_ne_self c _ same.symm
  cases step with
  | claim idle fresh done => exact iff_of_false (stays _ (claimQueue done).2.1) unlogged
  | @work w t after concluded step =>
    cases extractionEffect step with
    | moves moved => exact iff_of_false (stays _ moved.ids) unlogged
    | @concludes job c u holds row held queue written =>
      obtain ⟨here, rest⟩ := removedGone tracked.ids held
      constructor
      · intro both
        obtain ⟨⟨old, hold, id⟩, gone⟩ := both
        refine ⟨c, rfl, row.trans ?_⟩
        by_contra other
        refine gone old (List.mem_filter.mpr ⟨hold, ?_⟩) id
        have miss : old.leasedBy job.lease = false := by
          cases leased : old.leasedBy job.lease with
          | false => rfl
          | true =>
            simp only [QueueRow.leasedBy, Bool.and_eq_true, decide_eq_true_eq] at leased
            exact absurd (leased.1.1.1.symm.trans id) other
        simp [miss]
      · intro both
        obtain ⟨d, same, id⟩ := both
        have equal : c = d := List.head_eq_of_cons_eq same
        subst equal
        rw [row] at id
        exact ⟨id ▸ here, fun other hr same => (rest other hr).2 (same.trans id.symm)⟩
  | @enqueue payload createdAt t queueId replayed done =>
    refine iff_of_false (fun both => ?_) unlogged
    obtain ⟨⟨row, hr, id⟩, gone⟩ := both
    rcases enqueueExtractionSource done with ⟨-, rfl⟩ | ⟨-, new, -, -, rfl⟩
    · exact gone row hr id
    · exact gone row (List.mem_append_left _ hr) id
  | memory o spares done => exact iff_of_false (stays _ (performQueue spares done).ids) unlogged

/-- In every interleaving: no job is concluded twice; a queue row goes exactly in the step that
concludes its job; a processor changes anything but queue rows only by concluding its own job, all
its remaining writes performed in the transaction that deletes the row; and a processor whose token
left the row changes nothing with that claim ever again. -/
theorem extractionJobsOnce (run : ExtractionRun host procs (.initial rt) sys) :
    (sys.concluded.map Concluded.rowId).Nodup ∧
    (∀ next, ExtractionStep host procs sys next → ∀ k, Removes sys next k ↔
      ∃ c, next.concluded = c :: sys.concluded ∧ c.rowId = k) ∧
    (∀ w t after concluded,
      ExtractionWorkerStep host (procs w) sys.store (sys.workers w) t after concluded →
      match concluded with
      | none => t = { sys.store with queue := t.queue }
      | some c => ∃ job u, (sys.workers w).job = some job ∧ c.rowId = job.lease.rowId ∧
          JobWritten (procs w).svc (host.contextOf job.payload) sys.store u c ∧
          t = { u with queue := Table.remove (QueueRow.leasedBy job.lease) sys.store.queue }) ∧
    ∀ w job, (sys.workers w).job = some job → sys.store.LeaseReplaced job.lease →
      ∀ later, ExtractionRun host procs sys later → (later.workers w).job = some job →
      ∀ t after concluded,
        ExtractionWorkerStep host (procs w) later.store (later.workers w) t after concluded →
          t = later.store ∧ concluded = none := by
  have tracked := runTracked run
  refine ⟨tracked.once, fun next step k => removesConcluded tracked step k, ?_, ?_⟩
  · intro w t after concluded step
    cases extractionEffect step with
    | moves => rfl
    | @concludes job c u holds row held queue written => exact ⟨job, u, holds, row, written, rfl⟩
  · intro w job holds lost later between still t after concluded step
    exact replacedExtraction still
      (leaseStaysReplaced (tracked.workers w job holds) lost between) step

end Runs
namespace Example

def twoExtractors (w : Nat) : ExtractionProcessor :=
  ⟨trusted, if w = 0 then "first" else "second", 3, 10⟩

def anyHost : ExtractionHost .plain := ⟨fun _ _ => True, fun _ _ _ _ => True, fun _ => caller⟩

def queued : ExtractionSystem .plain :=
  { ExtractionSystem.initial .plain with
    store := (enqueueExtraction .plain .empty 1 "hello" "2026-01-01").1
    nextQueueId := 2 }

def afterClaim (sys : ExtractionSystem .plain) (w : Nat) (now : Rat) (token : String) :
    ExtractionSystem .plain :=
  match (twoExtractors w).claim .plain sys.store now token with
  | .ok (t, taken) =>
    { sys.set w t (claimedExtraction taken) none with issued := token :: sys.issued }
  | .error _ => sys

def relet : ExtractionSystem .plain := afterClaim (afterClaim queued 0 0 "a") 1 20 "b"

theorem extractionJobsOnceHere : ∃ job, (relet.workers 0).job = some job ∧
    relet.store.LeaseReplaced job.lease ∧ ∀ t after concluded,
      ExtractionWorkerStep anyHost (twoExtractors 0) relet.store (relet.workers 0) t after concluded →
        t = relet.store ∧ concluded = none := by
  have claims : ∀ {sys : ExtractionSystem .plain} {w : Nat} {now : Rat} {token : String},
      ((twoExtractors w).claim .plain sys.store now token).toOption.isSome = true →
      sys.workers w = .idle → token ∉ sys.issued →
      ExtractionStep anyHost twoExtractors sys (afterClaim sys w now token) := by
    intro sys w now token done idle fresh
    unfold afterClaim
    split
    · rename_i t taken answer
      exact .claim idle fresh answer
    · rename_i raised answer
      rw [answer] at done
      cases done
  have enqueued : ExtractionRun anyHost twoExtractors (.initial .plain) queued :=
    .step .refl (.enqueue rfl)
  have run : ExtractionRun anyHost twoExtractors (.initial .plain) relet :=
    .step (.step enqueued (claims (by decide +kernel) rfl (by decide)))
      (claims (by decide +kernel) rfl (by decide))
  have held : (relet.workers 0).job.any (fun job => decide (job.lease.leaseToken = "a") &&
      relet.store.queue.all fun row => row.leaseToken = some "b") = true := by decide +kernel
  obtain ⟨job, holds, shape⟩ := (Option.any_eq_true _ _).mp held
  simp only [Bool.and_eq_true, decide_eq_true_eq, List.all_eq_true] at shape
  have lost : relet.store.LeaseReplaced job.lease := by
    intro row hr _ same
    rw [shape.2 row hr, shape.1] at same
    exact absurd same (by decide)
  exact ⟨job, holds, lost, (extractionJobsOnce run).2.2.2 0 job holds lost relet .refl holds⟩

end Example
end Enfold
