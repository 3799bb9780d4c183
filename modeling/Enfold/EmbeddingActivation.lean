import Enfold.EmbeddingCoverage

/-! Document embeddings switched on over a store that already has facts: the backfill queues what misses its
vector, and `health` says when nothing does. -/
namespace Enfold

variable {rt : Runtime} {spec : EmbeddingSpec} {s t u : Store}

/-! ## The backfill -/

def Store.embedded (s : Store) (spec : EmbeddingSpec) (factId : Nat) : Bool :=
  s.embeddings.any fun e =>
    e.factId = factId && e.embeddingIdentity = spec.documentIdentity && e.dim = spec.dimensions

def EmbeddingJob.keyed (spec : EmbeddingSpec) (factId : Nat) (row : EmbeddingJob) : Bool :=
  row.factId = factId && row.documentIdentity = spec.documentIdentity

-- `DO UPDATE SET`
def EmbeddingJob.reopen (spec : EmbeddingSpec) (digest now : String) (row : EmbeddingJob) : EmbeddingJob :=
  { row with
    contentSha256 := digest
    embeddingVersion := spec.embeddingVersion
    dimensions := spec.dimensions
    status := .pending
    attempts := 0
    availableAt := now
    leaseToken := none
    leaseOwner := none
    leaseExpiresAt := none
    lastError := none
    completedAt := none
    updatedAt := now }

def backfillFact (rt : Runtime) (spec : EmbeddingSpec) (now : String) (s : Store) (f : Fact) : Store × Nat :=
  let digest := rt.sha256 f.content
  let finished (row : EmbeddingJob) : Bool := row.keyed spec f.factId && row.status = .completed
  if s.jobs.any (EmbeddingJob.keyed spec f.factId) then
    ({ s with jobs := Table.amend finished (EmbeddingJob.reopen spec digest now) s.jobs },
      Table.matching finished s.jobs)
  else
    ({ s with jobs := s.jobs ++
      [{ jobId := nextRowid (s.jobs.map EmbeddingJob.jobId), factId := f.factId
         documentIdentity := spec.documentIdentity, embeddingVersion := spec.embeddingVersion
         dimensions := spec.dimensions, contentSha256 := digest, status := .pending, attempts := 0
         availableAt := now, leaseToken := none, leaseOwner := none, leaseExpiresAt := none
         lastError := none, createdAt := now, updatedAt := now, completedAt := none }] }, 1)

/-- The active facts without a vector of this identity and dimension, `ORDER BY fact_id`. -/
def Store.missing (s : Store) (spec : EmbeddingSpec) : List Fact :=
  (s.facts.filter fun f => f.active && !s.embedded spec f.factId).insertionSort fun f g => f.factId ≤ g.factId

def backfillFacts (rt : Runtime) (spec : EmbeddingSpec) (now : String) (s : Store) : List Fact → Store × Nat
  | [] => (s, 0)
  | f :: facts =>
    let (s, here) := backfillFact rt spec now s f
    let (s, changed) := backfillFacts rt spec now s facts
    (s, here + changed)

/-- `EmbeddingOutbox.enqueue_backfill`, on an idle connection. -/
def enqueueBackfill (rt : Runtime) (spec : EmbeddingSpec) (now : String) (s : Store) : Store × Nat :=
  backfillFacts rt spec now s (s.missing spec)

/-! ## Health -/

structure OutboxHealth where
  pending : Nat
  processing : Nat
  completed : Nat
  deadLetter : Nat
  uncoveredActive : Nat
  activationSafe : Bool
  /-- `MIN(created_at)`, from which the age is computed. -/
  oldestPending : Option String
  deriving DecidableEq, Repr

def Store.counted (s : Store) (spec : EmbeddingSpec) (status : JobStatus) : Nat :=
  Table.matching (fun row => row.documentIdentity = spec.documentIdentity && row.status = status) s.jobs

def EmbeddingJob.unsettled (row : EmbeddingJob) : Bool := row.status = .pending || row.status = .processing

/-- `EmbeddingOutbox.health`, up to the clock. -/
def Store.health (s : Store) (spec : EmbeddingSpec) : OutboxHealth :=
  let waiting := (s.jobs.filter fun row =>
    row.documentIdentity = spec.documentIdentity && row.unsettled).map EmbeddingJob.createdAt
  let uncovered := (s.facts.filter fun f => f.active && !s.embedded spec f.factId &&
    !s.jobs.any fun row => row.factId = f.factId && row.isFor spec && row.unsettled).length
  let dead := s.counted spec .deadLetter
  { pending := s.counted spec .pending
    processing := s.counted spec .processing
    completed := s.counted spec .completed
    deadLetter := dead
    uncoveredActive := uncovered
    activationSafe := uncovered = 0 && dead = 0
    oldestPending := (waiting.insertionSort (· ≤ ·)).head? }

/-! ## One fact -/

theorem embeddedIff {factId : Nat} : s.embedded spec factId = true ↔ s.Embedded spec factId := by
  simp [Store.embedded, Store.Embedded, and_assoc]

theorem keyedIff {factId : Nat} {row : EmbeddingJob} :
    row.keyed spec factId = true ↔ row.serves spec factId := by
  simp [EmbeddingJob.keyed, EmbeddingJob.serves]

def Store.Queued (s : Store) (spec : EmbeddingSpec) (factId : Nat) : Prop :=
  ∃ row ∈ s.jobs, row.serves spec factId ∧ row.status ≠ .completed

structure Refills (s t : Store) : Prop where
  frame : ∃ jobs, t = { s with jobs }
  jobs : Advances s.jobs t.jobs
  kept : ∀ row ∈ s.jobs, row.status ≠ .completed → row ∈ t.jobs

theorem refillsSame : Refills s s := ⟨⟨s.jobs, rfl⟩, advancesSame, fun _ inside _ => inside⟩

theorem Refills.trans (first : Refills s t) (second : Refills t u) : Refills s u where
  frame := by
    obtain ⟨jobs, rfl⟩ := first.frame
    obtain ⟨jobs', rfl⟩ := second.frame
    exact ⟨jobs', rfl⟩
  jobs := first.jobs.trans second.jobs
  kept row inside open' := second.kept row (first.kept row inside open') open'

theorem Refills.queued (refills : Refills s t) {factId : Nat} (queued : s.Queued spec factId) :
    t.Queued spec factId := by
  obtain ⟨row, inside, serves, open'⟩ := queued
  exact ⟨row, refills.kept row inside open', serves, open'⟩

theorem factRefills (rt : Runtime) (spec : EmbeddingSpec) (now : String) (s : Store) (f : Fact) :
    Refills s (backfillFact rt spec now s f).1 ∧ (backfillFact rt spec now s f).1.Queued spec f.factId := by
  unfold backfillFact
  dsimp only
  split
  · rename_i known
    refine ⟨⟨⟨_, rfl⟩, advancesAmend fun row => unfinishedContinues rfl rfl rfl nofun,
      fun row inside open' => ?_⟩, ?_⟩
    · refine Table.memAmend.mpr ⟨row, inside, (if_neg ?_).symm⟩
      simp [open']
    · obtain ⟨old, inside, here⟩ := List.any_eq_true.mp known
      refine ⟨_, Table.memAmend.mpr ⟨old, inside, rfl⟩, ?_⟩
      split
      · exact ⟨keyedIff.mp here, nofun⟩
      · rename_i spared
        refine ⟨keyedIff.mp here, fun done => spared ?_⟩
        simp [here, done]
  · refine ⟨⟨⟨_, rfl⟩, ⟨fun old inside => ⟨old, List.mem_append_left _ inside, continuesSame⟩,
      fun row inside => ?_, fun distinct => ?_⟩, fun row inside _ => List.mem_append_left _ inside⟩,
      ⟨_, List.mem_append_right _ List.mem_cons_self, ⟨rfl, rfl⟩, nofun⟩⟩
    · rcases List.mem_append.mp inside with old | new
      · exact .inl ⟨row, old, continuesSame⟩
      · rw [List.mem_singleton.mp new]
        exact .inr ⟨nofun, fun old here => Nat.ne_of_lt (nextRowidFresh (List.mem_map_of_mem here))⟩
    · exact Table.uniqueAppend distinct fun old here =>
        Nat.ne_of_lt (nextRowidFresh (List.mem_map_of_mem here))

theorem factsRefill {now : String} {facts : List Fact} :
    Refills s (backfillFacts rt spec now s facts).1 ∧
      ∀ f ∈ facts, (backfillFacts rt spec now s facts).1.Queued spec f.factId := by
  induction facts generalizing s with
  | nil => exact ⟨refillsSame, fun _ none' => absurd none' List.not_mem_nil⟩
  | cons f facts ih =>
    obtain ⟨here, queued⟩ := factRefills rt spec now s f
    obtain ⟨later, others⟩ := @ih (backfillFact rt spec now s f).1
    refine ⟨here.trans later, fun g inside => ?_⟩
    rcases List.mem_cons.mp inside with rfl | further
    · exact later.queued queued
    · exact others g further

/-! ## What is counted -/

-- the primary key of the outbox beside its row id
def EmbeddingJob.target (row : EmbeddingJob) : Nat × String := (row.factId, row.documentIdentity)

def Store.queued (s : Store) (spec : EmbeddingSpec) (factId : Nat) : Bool :=
  s.jobs.any fun row => row.keyed spec factId && row.status ≠ .completed

theorem queuedIff {factId : Nat} : s.queued spec factId = true ↔ s.Queued spec factId := by
  simp [Store.queued, Store.Queued, EmbeddingJob.keyed, EmbeddingJob.serves]

section Counts
variable {now : String} {f g : Fact}

theorem keyedTarget {factId : Nat} {row : EmbeddingJob} :
    row.keyed spec factId = true ↔ row.target = (factId, spec.documentIdentity) := by
  simp [EmbeddingJob.keyed, EmbeddingJob.target]

theorem queuedPassed (unique : Table.Unique EmbeddingJob.target s.jobs) (queued : s.Queued spec f.factId) :
    backfillFact rt spec now s f = (s, 0) := by
  obtain ⟨row, inside, serves, open'⟩ := queued
  have known : s.jobs.any (EmbeddingJob.keyed spec f.factId) = true :=
    List.any_eq_true.mpr ⟨row, inside, keyedIff.mpr serves⟩
  have none' : ∀ other ∈ s.jobs, (other.keyed spec f.factId && decide (other.status = .completed)) = false := by
    intro other here
    rw [Bool.and_eq_false_iff, or_iff_not_imp_left]
    intro same
    have same := keyedTarget.mp (Bool.not_eq_false _ ▸ same)
    rw [Table.uniqueEq unique here inside (same.trans (keyedTarget.mp (keyedIff.mpr serves)).symm)]
    exact decide_eq_false open'
  rw [backfillFact, if_pos known, Table.amendUntouched none', Table.matchingNone none']

theorem unqueuedCounted (unique : Table.Unique EmbeddingJob.target s.jobs) (idle : ¬ s.Queued spec f.factId) :
    (backfillFact rt spec now s f).2 = 1 := by
  unfold backfillFact
  dsimp only
  split
  · rename_i known
    obtain ⟨row, inside, same⟩ := List.any_eq_true.mp known
    have finished : row.status = .completed := by
      by_contra open'
      exact idle ⟨row, inside, keyedIff.mp same, open'⟩
    refine @Table.matchingKeyed _ _ _ _ (f.factId, spec.documentIdentity) _ _ unique (fun other hit => ?_)
      inside (by simp [same, finished])
    exact keyedTarget.mp (Bool.and_eq_true_iff.mp hit).1
  · rfl

theorem factUnique (unique : Table.Unique EmbeddingJob.target s.jobs) :
    Table.Unique EmbeddingJob.target (backfillFact rt spec now s f).1.jobs := by
  unfold backfillFact
  dsimp only
  split
  · exact Table.amendUnique (fun _ => rfl) unique
  · rename_i unknown
    refine Table.uniqueAppend unique fun old inside same => unknown ?_
    exact List.any_eq_true.mpr ⟨old, inside, keyedTarget.mpr same⟩

theorem factOther (other : g.factId ≠ f.factId) :
    (backfillFact rt spec now s f).1.queued spec g.factId = s.queued spec g.factId := by
  have apart {row : EmbeddingJob} (mine : row.factId = f.factId) : row.keyed spec g.factId = false := by
    simp [EmbeddingJob.keyed, mine, Ne.symm other]
  unfold backfillFact Store.queued
  dsimp only
  split
  · rw [Table.amend, List.any_map]
    refine congrArg (List.any s.jobs) (funext fun row => ?_)
    simp only [Function.comp_apply]
    split
    · rename_i hit
      have mine := (keyedIff.mp (Bool.and_eq_true_iff.mp hit).1).1
      rw [apart mine, apart (show (row.reopen spec (rt.sha256 f.content) now).factId = f.factId from mine),
        Bool.false_and, Bool.false_and]
    · rfl
  · rw [List.any_append, List.any_cons, List.any_nil, apart rfl, Bool.false_and, Bool.or_false, Bool.or_false]

theorem factsCounted {facts : List Fact} (unique : Table.Unique EmbeddingJob.target s.jobs)
    (distinct : (facts.map Fact.factId).Nodup) :
    Table.Unique EmbeddingJob.target (backfillFacts rt spec now s facts).1.jobs ∧
      (backfillFacts rt spec now s facts).2 = (facts.filter fun f => !s.queued spec f.factId).length := by
  induction facts generalizing s with
  | nil => exact ⟨unique, rfl⟩
  | cons f facts ih =>
    rw [List.map_cons, List.nodup_cons] at distinct
    obtain ⟨still, counted⟩ := @ih (backfillFact rt spec now s f).1 (factUnique unique) distinct.2
    refine ⟨still, ?_⟩
    have others : (facts.filter fun g => !(backfillFact rt spec now s f).1.queued spec g.factId) =
        facts.filter fun g => !s.queued spec g.factId := by
      refine List.filter_congr fun g inside => ?_
      rw [factOther fun same => distinct.1 (List.mem_map.mpr ⟨g, inside, same⟩)]
    rw [backfillFacts]
    dsimp only
    rw [counted, others]
    by_cases queued : s.queued spec f.factId = true
    · rw [queuedPassed unique (queuedIff.mp queued), List.filter_cons_of_neg (by simp [queued]), Nat.zero_add]
    · rw [unqueuedCounted unique fun here => queued (queuedIff.mpr here),
        List.filter_cons_of_pos (by simpa using queued), List.length_cons, Nat.add_comm]

theorem factsPassed {facts : List Fact} (unique : Table.Unique EmbeddingJob.target s.jobs)
    (queued : ∀ f ∈ facts, s.Queued spec f.factId) : backfillFacts rt spec now s facts = (s, 0) := by
  induction facts with
  | nil => rfl
  | cons f facts ih =>
    rw [backfillFacts, queuedPassed unique (queued f List.mem_cons_self)]
    dsimp only
    rw [ih fun g inside => queued g (List.mem_cons_of_mem _ inside)]
    rfl

end Counts

theorem missingSource {f : Fact} : f ∈ s.missing spec ↔
    f ∈ s.facts ∧ f.active = true ∧ ¬ s.Embedded spec f.factId := by
  rw [Store.missing, List.mem_insertionSort, List.mem_filter, Bool.and_eq_true, Bool.not_eq_true',
    ← Bool.not_eq_true, embeddedIff]

/-- A backfill leaves every job that is not finished as it is, its dead letters and leases with them; it queues
and counts each active fact that has neither a vector nor such a job; and a second one finds nothing to do. -/
theorem backfillComplete (sound : s.toLedger.Sound) (unique : Table.Unique EmbeddingJob.target s.jobs)
    (now later : String) :
    let filled := enqueueBackfill rt spec now s
    (∃ jobs, filled.1 = { s with jobs }) ∧
    (∀ row ∈ s.jobs, row.status ≠ .completed → row ∈ filled.1.jobs) ∧
    (∀ f ∈ s.facts, f.active = true → s.Embedded spec f.factId ∨ filled.1.Queued spec f.factId) ∧
    filled.2 = ((s.missing spec).filter fun f => !s.queued spec f.factId).length ∧
    enqueueBackfill rt spec later filled.1 = (filled.1, 0) := by
  intro filled
  obtain ⟨refills, queued⟩ := @factsRefill rt spec s now (s.missing spec)
  have distinct : ((s.missing spec).map Fact.factId).Nodup := by
    have sorted := List.perm_insertionSort (fun f g : Fact => f.factId ≤ g.factId)
      (s.facts.filter fun f => f.active && !s.embedded spec f.factId)
    rw [Store.missing, (sorted.map Fact.factId).nodup_iff]
    exact List.Nodup.sublist (List.filter_sublist.map _) sound.factIds
  obtain ⟨still, counted⟩ := @factsCounted rt spec s now (s.missing spec) unique distinct
  obtain ⟨jobs, shape⟩ := refills.frame
  refine ⟨refills.frame, refills.kept, fun f inside active => ?_, counted, ?_⟩
  · by_cases embedded : s.Embedded spec f.factId
    · exact .inl embedded
    · exact .inr (queued f (missingSource.mpr ⟨inside, active, embedded⟩))
  · refine factsPassed still fun f inside => queued f ?_
    obtain ⟨listed, active, bare⟩ := missingSource.mp inside
    change filled.1 = _ at shape
    rw [shape] at listed bare
    exact missingSource.mpr ⟨listed, active, bare⟩

namespace Example

def legacy : EmbeddingSystem where
  store := history [.write trusted caller lima]
  workers := fun _ => .idle
  issued := []

theorem legacySound : legacy.store.toLedger.Sound := historySound (by simp [Operation.isMerge])

def outboxRow (jobId factId : Nat) (status : JobStatus) : EmbeddingJob where
  jobId := jobId
  factId := factId
  documentIdentity := Example.spec.documentIdentity
  embeddingVersion := Example.spec.embeddingVersion
  dimensions := Example.spec.dimensions
  contentSha256 := ""
  status := status
  attempts := 1
  availableAt := "2026-01-03"
  leaseToken := none
  leaseOwner := none
  leaseExpiresAt := none
  lastError := none
  createdAt := "2026-01-03"
  updatedAt := "2026-01-03"
  completedAt := none

def heldRow : EmbeddingJob :=
  { outboxRow 1 1 .processing with
    leaseToken := some "a", leaseOwner := some "first", leaseExpiresAt := some "2026-01-05" }

/-- Five claims: a worker holds the first one's job, the second one's is dead, the third one lost its vector
behind a finished job, the fourth one was never queued and the fifth one has its vector. -/
def partlyQueued : Store :=
  { history ([.write trusted caller (claim "k31" "dogs bark loudly" none (by decide +kernel)),
      .write trusted caller (claim "k32" "birds sing" none (by decide +kernel)),
      .write trusted caller (claim "k33" "a cat sat on the mat" none (by decide +kernel)),
      .write trusted caller (claim "k34" "tea is green" none (by decide +kernel)),
      .write trusted caller (claim "k35" "rain falls" none (by decide +kernel))] :
      List (Operation .plain)) with
    jobs := [heldRow, outboxRow 2 2 .deadLetter, outboxRow 3 3 .completed]
    embeddings := [⟨5, [1], 1, Example.spec.documentIdentity⟩] }

theorem backfillCompleteHere :
    let filled := enqueueBackfill .plain Example.spec "2026-01-04" partlyQueued
    (filled.1.jobs.map fun row => (row.factId, row.status)) =
      [(1, .processing), (2, .deadLetter), (3, .pending), (4, .pending)] ∧
    (∃ jobs, filled.1 = { partlyQueued with jobs }) ∧
    (∀ row ∈ partlyQueued.jobs, row.status ≠ .completed → row ∈ filled.1.jobs) ∧
    (∀ f ∈ partlyQueued.facts, f.active = true →
      partlyQueued.Embedded Example.spec f.factId ∨ filled.1.Queued Example.spec f.factId) ∧
    filled.2 = 2 ∧ enqueueBackfill .plain Example.spec "2026-01-05" filled.1 = (filled.1, 0) := by
  have unique : Table.Unique EmbeddingJob.target partlyQueued.jobs := by
    unfold Table.Unique
    decide +kernel
  have sound : partlyQueued.toLedger.Sound := historySound (by simp [Operation.isMerge])
  obtain ⟨frame, kept, covered, counted, again⟩ :=
    @backfillComplete .plain Example.spec partlyQueued sound unique "2026-01-04" "2026-01-05"
  exact ⟨by decide +kernel, frame, kept, covered, counted.trans (by decide +kernel), again⟩

end Example

/-! ## Behind the backfill -/

section Workers
variable {embeds : String → List Rat → Prop} {p : EmbeddingProcessor} {worker after : EmbeddingWorker}

/-- A worker rewrites job rows, finishes no job of an active fact without its vector and takes no vector
away. -/
structure Finishes (spec : EmbeddingSpec) (s t : Store) : Prop where
  rows : ∃ q g, Rewrites s t q g ∧ ∀ row ∈ s.jobs, q row = true → (g row).status = .completed →
    ∀ f ∈ s.facts, f.active = true → row.serves spec f.factId → t.Embedded spec f.factId
  kept : ∀ factId, s.Embedded spec factId → t.Embedded spec factId

theorem finishesSame : Finishes spec s s where
  rows := ⟨fun _ => false, id, ⟨rfl, (Table.amendUntouched fun _ _ => rfl).symm, fun _ => rfl, fun _ => rfl,
    fun _ => rfl⟩, fun _ _ hit => absurd hit Bool.false_ne_true⟩
  kept _ embedded := embedded

theorem goneUnserved {job : ClaimedEmbeddingJob} {f : Fact} (keyed : s.toLedger.Keyed)
    (gone : s.activeFact job.factId = none) (inside : f ∈ s.facts) (active : f.active = true) :
    f.factId ≠ job.factId := by
  intro same
  unfold Ledger.activeFact at gone
  rw [← same, keyed.find inside] at gone
  simp [Option.filter, active] at gone

theorem workerFinishes (configured : p.spec = spec) (keyed : s.toLedger.Keyed)
    (faithful : Faithful embeds s worker) (step : WorkerStep rt embeds p s worker t after) :
    Finishes spec s t := by
  -- what a worker skips is the job of a fact that is not active
  have skipped {job : ClaimedEmbeddingJob} {q : EmbeddingJob → Bool} {reason now : String}
      (holds : worker.job = some job) (own : ∀ row, q row = true → row.jobId = job.jobId)
      (gone : s.activeFact job.factId = none) :
      Finishes spec s { s with jobs := Table.amend q (EmbeddingJob.skip reason now) s.jobs } := by
    refine ⟨⟨q, _, rewritesAmend s s.embeddings q _ (fun _ => rfl) (fun _ => rfl) fun _ => rfl,
      fun row inside hit _ f listed active serves => ?_⟩, fun _ => id⟩
    have mine := (faithful.row job holds).2 row inside (own row hit)
    exact absurd (serves.1.symm.trans mine) (goneUnserved keyed gone listed active)
  have reopened {q : EmbeddingJob → Bool} {g : EmbeddingJob → EmbeddingJob}
      (job : ∀ row, (g row).jobId = row.jobId)
      (fact : ∀ row, (g row).factId = row.factId)
      (identity : ∀ row, (g row).documentIdentity = row.documentIdentity)
      (open' : ∀ row, (g row).status ≠ .completed) :
      Finishes spec s { s with jobs := Table.amend q g s.jobs } :=
    ⟨⟨q, g, rewritesAmend s s.embeddings q g job fact identity,
      fun row _ _ completed => absurd completed (open' row)⟩, fun _ => id⟩
  cases step with
  | read => exact finishesSame
  | embed => exact finishesSame
  | modelRaises => exact finishesSame
  | crash => exact finishesSame
  | @settle job now =>
    unfold settled
    split
    · rename_i t done
      obtain ⟨g, rfl, ⟨f, -, rfl⟩ | ⟨gone, rfl⟩⟩ := settleSource done
      · exact reopened (fun _ => rfl) (fun _ => rfl) (fun _ => rfl) fun _ => requeueOpen
      · refine skipped rfl (fun row held => ?_) gone
        simp only [EmbeddingJob.heldBy, Bool.and_eq_true, decide_eq_true_eq] at held
        exact held.1.1
    · exact finishesSame
  | @fail job errorType stamp available =>
    unfold settled
    split
    · rename_i t done
      obtain ⟨status, open', rfl⟩ := failSource done
      exact reopened (fun _ => rfl) (fun _ => rfl) (fun _ => rfl) fun _ => open'
    · exact finishesSame
  | @commit job content vector now =>
    unfold settled
    split
    · rename_i t done
      cases commitSource done with
      | stale gone => exact skipped rfl (fun row mine => of_decide_eq_true mine) gone
      | @changed f => exact reopened (fun _ => rfl) (fun _ => rfl) (fun _ => rfl) fun _ => requeueOpen
      | @embedded f u found same stored =>
        have kept : ∀ other, s.Embedded spec other → u.Embedded spec other :=
          fun _ => upsertKeeps configured stored
        obtain ⟨⟨embeddings, rfl⟩, ⟨e, he, fact, identity, dim, -⟩, -⟩ := upsertSource stored
        refine ⟨⟨_, _, rewritesAmend s embeddings (fun row => decide (row.jobId = job.jobId))
          (EmbeddingJob.complete (rt.sha256 f.content) none now) (fun _ => rfl) (fun _ => rfl) fun _ => rfl,
          fun row inside mine _ g _ _ serves => ?_⟩, kept⟩
        have own := (faithful.row job rfl).2 row inside (of_decide_eq_true mine)
        exact ⟨e, he, fact.trans (own.symm.trans serves.1), identity.trans (by rw [configured]),
          dim.trans (by rw [configured])⟩
    · exact finishesSame

end Workers

/-- Every active fact has its vector or a job that is not finished. -/
def Store.Sheltered (s : Store) (spec : EmbeddingSpec) : Prop :=
  ∀ f ∈ s.facts, f.active = true → s.Embedded spec f.factId ∨ s.Queued spec f.factId

theorem shelteredServing (sheltered : s.Sheltered spec) (serving : Serving spec s t) : t.Sheltered spec := by
  intro g inside active
  rcases serving.active g inside active with ⟨f, listed, same, was⟩ | ⟨⟨row, here, serves⟩, finished⟩
  · rcases sheltered f listed was with embedded | ⟨row, here, serves, open'⟩
    · left
      rw [← same]
      unfold Store.Embedded at embedded ⊢
      rwa [serving.vectors]
    · obtain ⟨row', here', goes⟩ := serving.jobs.rows row here
      exact .inr ⟨row', here', ⟨goes.fact.trans (serves.1.trans same), goes.identity.trans serves.2⟩,
        fun done => open' (goes.finished done)⟩
  · by_cases done : row.status = .completed
    · exact .inl (finished row here serves done)
    · exact .inr ⟨row, here, serves, done⟩

theorem shelteredFinishes (sheltered : s.Sheltered spec) (finishes : Finishes spec s t) : t.Sheltered spec := by
  obtain ⟨⟨q, g, rewrites, done⟩, kept⟩ := finishes
  intro f inside active
  rw [rewrites.ledger] at inside
  rcases sheltered f inside active with embedded | ⟨row, here, serves, open'⟩
  · exact .inl (kept f.factId embedded)
  · by_cases hit : q row = true
    · by_cases finished : (g row).status = .completed
      · exact .inl (done row here hit finished f inside active serves)
      · refine .inr ⟨g row, ?_, ⟨(rewrites.fact row).trans serves.1, (rewrites.identity row).trans serves.2⟩,
          finished⟩
        rw [rewrites.jobs]
        exact Table.memAmend.mpr ⟨row, here, (if_pos hit).symm⟩
    · refine .inr ⟨row, ?_, serves, open'⟩
      rw [rewrites.jobs]
      exact Table.memAmend.mpr ⟨row, here, (if_neg hit).symm⟩

/-! ## Runs -/

/-- What happens beside the workers: writes and resolutions that share this outbox, and backfills. -/
inductive Activates (rt : Runtime) (spec : EmbeddingSpec) (s t : Store) : Prop
  | serves (h : Serves rt spec s t)
  | backfill (now : String) (h : (enqueueBackfill rt spec now s).1 = t)

/-- Over any store: jobs have one row each, and every worker's claim is one of them. -/
structure Steady (embeds : String → List Rat → Prop) (sys : EmbeddingSystem) : Prop where
  sound : sys.store.toLedger.Sound
  jobs : Table.Unique EmbeddingJob.jobId sys.store.jobs
  workers : ∀ w, Faithful embeds sys.store (sys.workers w)

section Runs
variable {embeds : String → List Rat → Prop} {procs : Nat → EmbeddingProcessor} {sys last : EmbeddingSystem}

theorem activatesServing (sound : s.toLedger.Sound) (h : Activates rt spec s t) :
    t.toLedger.Sound ∧ Serving spec s t := by
  cases h with
  | serves h =>
    obtain ⟨o, kind, done⟩ := h
    exact performServing sound kind done
  | backfill now h =>
    subst h
    obtain ⟨⟨⟨jobs, shape⟩, advances, -⟩, -⟩ := @factsRefill rt spec s now (s.missing spec)
    rw [enqueueBackfill]
    rw [shape] at advances ⊢
    exact ⟨sound, servingSame rfl rfl advances⟩

theorem steadyClaim (spec : EmbeddingSpec) (steady : Steady embeds sys) {w : Nat}
    {stamp expiresAt token : String} :
    Steady embeds (sys.claim procs w stamp expiresAt token) := by
  obtain ⟨serving, takes⟩ := claimServing spec (procs w) sys.store stamp expiresAt token
  obtain ⟨jobs, frame, -⟩ := claimFrame (procs w) sys.store stamp expiresAt token
  have unique := serving.jobs.unique steady.jobs
  refine ⟨?_, unique, fun v => ?_⟩
  · change ((procs w).claim sys.store stamp expiresAt token).1.toLedger.Sound
    rw [frame]
    exact steady.sound
  · change Faithful embeds _ (if v = w then _ else sys.workers v)
    split
    · cases taken : ((procs w).claim sys.store stamp expiresAt token).2 with
      | none => exact faithfulIdle
      | some job =>
        obtain ⟨row, here, id, fact⟩ := takes job taken
        refine ⟨fun other same => ?_, nofun, nofun⟩
        cases same
        refine ⟨⟨row, here, id⟩, fun other listed same => ?_⟩
        rw [Table.uniqueEq unique listed here (same.trans id.symm)]
        exact fact
    · exact (steady.workers v).serving serving

theorem steadyStep (configured : ∀ w, (procs w).spec = spec) (steady : Steady embeds sys)
    (step : EmbeddingStep rt embeds procs (Activates rt spec) sys last) : Steady embeds last := by
  cases step with
  | claim => exact steadyClaim spec steady
  | @work w t worker step =>
    obtain ⟨⟨q, g, rewrites, -⟩, -⟩ :=
      workerFinishes (configured w) steady.sound.toKeyed (steady.workers w) step
    refine ⟨?_, ?_, fun v => ?_⟩
    · change t.toLedger.Sound
      rw [rewrites.ledger]
      exact steady.sound
    · change Table.Unique EmbeddingJob.jobId t.jobs
      rw [rewrites.jobs]
      exact Table.amendUnique rewrites.job steady.jobs
    · by_cases here : v = w
      · rw [here, setSame]
        exact faithfulAfter (steady.workers w) step ((steady.workers w).rewrites rewrites)
      · rw [setOther here]
        exact (steady.workers v).rewrites rewrites
  | environment changes =>
    obtain ⟨sound, serving⟩ := activatesServing steady.sound changes
    exact ⟨sound, serving.jobs.unique steady.jobs, fun w => (steady.workers w).serving serving⟩

theorem shelteredStep (configured : ∀ w, (procs w).spec = spec) (steady : Steady embeds sys)
    (sheltered : sys.store.Sheltered spec)
    (step : EmbeddingStep rt embeds procs (Activates rt spec) sys last) : last.store.Sheltered spec := by
  cases step with
  | @claim w stamp expiresAt token =>
    exact shelteredServing sheltered (claimServing spec (procs w) sys.store stamp expiresAt token).1
  | @work w t worker step =>
    exact shelteredFinishes sheltered
      (workerFinishes (configured w) steady.sound.toKeyed (steady.workers w) step)
  | environment changes => exact shelteredServing sheltered (activatesServing steady.sound changes).2

theorem steadyRun (configured : ∀ w, (procs w).spec = spec) (steady : Steady embeds sys)
    (run : EmbeddingRun rt embeds procs (Activates rt spec) sys last) : Steady embeds last :=
  runInvariant (fun _ _ steady step => steadyStep configured steady step) run steady

theorem backfillSheltered (now : String) : (enqueueBackfill rt spec now s).1.Sheltered spec := by
  obtain ⟨⟨⟨jobs, shape⟩, -, -⟩, queued⟩ := @factsRefill rt spec s now (s.missing spec)
  intro f inside active
  rw [enqueueBackfill] at inside ⊢
  by_cases embedded : s.Embedded spec f.factId
  · left
    rw [shape]
    exact embedded
  · rw [shape] at inside
    exact .inr (queued f (missingSource.mpr ⟨inside, active, embedded⟩))

theorem drainedHealth (sheltered : s.Sheltered spec) (pending : (s.health spec).pending = 0)
    (processing : (s.health spec).processing = 0) (dead : (s.health spec).deadLetter = 0) :
    (∀ f ∈ s.facts, f.active = true → s.Embedded spec f.factId) ∧ (s.health spec).uncoveredActive = 0 ∧
      (s.health spec).activationSafe = true := by
  have none' {status : JobStatus} (zero : s.counted spec status = 0) {row : EmbeddingJob}
      (inside : row ∈ s.jobs)
      (identity : row.documentIdentity = spec.documentIdentity) : row.status ≠ status := by
    intro same
    refine List.countP_eq_zero.mp zero row inside ?_
    simp [identity, same]
  have embedded : ∀ f ∈ s.facts, f.active = true → s.Embedded spec f.factId := by
    intro f inside active
    refine (sheltered f inside active).resolve_right ?_
    rintro ⟨row, here, serves, open'⟩
    cases status : row.status with
    | pending => exact none' pending here serves.2 status
    | processing => exact none' processing here serves.2 status
    | completed => exact open' status
    | deadLetter => exact none' dead here serves.2 status
  have uncovered : (s.health spec).uncoveredActive = 0 := by
    refine List.length_eq_zero_iff.mpr (List.filter_eq_nil_iff.mpr fun f inside hit => ?_)
    simp only [Bool.and_eq_true, Bool.not_eq_true', ← Bool.not_eq_true] at hit
    exact hit.1.2 (embeddedIff.mpr (embedded f inside hit.1.1))
  refine ⟨embedded, uncovered, ?_⟩
  change (decide ((s.health spec).uncoveredActive = 0) && decide ((s.health spec).deadLetter = 0)) = true
  rw [uncovered, dead]
  rfl

/-- Over whatever a store held, and however writers, resolutions, workers and backfills go on behind the first
backfill: an active fact has its vector or a job that is not finished, and once `health` shows neither open jobs
nor dead letters every active fact has its vector and the activation is safe. -/
theorem activationComplete (configured : ∀ w, (procs w).spec = spec) {start mid : EmbeddingSystem}
    {now : String} (steady : Steady embeds start)
    (before : EmbeddingRun rt embeds procs (Activates rt spec) start mid)
    (after : EmbeddingRun rt embeds procs (Activates rt spec)
      { mid with store := (enqueueBackfill rt spec now mid.store).1 } sys) :
    sys.store.Sheltered spec ∧
      ((sys.store.health spec).pending = 0 → (sys.store.health spec).processing = 0 →
        (sys.store.health spec).deadLetter = 0 →
        (∀ f ∈ sys.store.facts, f.active = true → sys.store.Embedded spec f.factId) ∧
          (sys.store.health spec).uncoveredActive = 0 ∧ (sys.store.health spec).activationSafe = true) := by
  have middle := steadyRun configured steady before
  have filled : Steady embeds { mid with store := (enqueueBackfill rt spec now mid.store).1 } :=
    steadyStep configured middle (.environment (.backfill now rfl))
  have both : Steady embeds sys ∧ sys.store.Sheltered spec :=
    runInvariant (fun _ _ (kept : Steady embeds _ ∧ Store.Sheltered _ spec) step =>
      ⟨steadyStep configured kept.1 step, shelteredStep configured kept.1 kept.2 step⟩) after
      ⟨filled, backfillSheltered now⟩
  exact ⟨both.2, drainedHealth both.2⟩

end Runs

namespace Example

def activated : EmbeddingSystem :=
  EmbeddingSystem.claim twoWorkers
    { legacy with store := (enqueueBackfill .plain Example.spec "2026-01-04" legacy.store).1 } 0
    "2026-01-05" "2026-01-06" "a"

def legacyJob : ClaimedEmbeddingJob := ⟨1, 1, "Alex is in Lima", 1, "a"⟩

def legacyRead : EmbeddingSystem := activated.set 0 activated.store (.afterRead activated.store legacyJob)

def legacyPrepared : EmbeddingSystem :=
  legacyRead.set 0 legacyRead.store (.prepared legacyJob "Alex is in Lima" [1])

def legacyEmbedded : EmbeddingSystem :=
  legacyPrepared.set 0 (settled legacyPrepared.store (commitPrepared .plain (twoWorkers 0) legacyPrepared.store
    legacyJob (Runtime.plain.sha256 "Alex is in Lima") [1] "2026-01-05")) .idle

theorem activationCompleteHere : activated.store.Sheltered Example.spec ∧
    (activated.store.health Example.spec).processing = 1 ∧
    (∀ f ∈ legacyEmbedded.store.facts, f.active = true → legacyEmbedded.store.Embedded Example.spec f.factId) ∧
    (legacyEmbedded.store.health Example.spec).uncoveredActive = 0 ∧
    (legacyEmbedded.store.health Example.spec).activationSafe = true := by
  have none' : legacy.store.jobs = [] := by decide +kernel
  have steady : Steady (fun _ _ => True) legacy := ⟨legacySound, none' ▸ List.nodup_nil, fun _ => faithfulIdle⟩
  have claims : EmbeddingRun .plain (fun _ _ => True) twoWorkers (Activates .plain Example.spec)
      { legacy with store := (enqueueBackfill .plain Example.spec "2026-01-04" legacy.store).1 } activated :=
    .step .refl (.claim rfl (by decide))
  have held : activated.workers 0 = .claimed legacyJob := by
    have taken : ((twoWorkers 0).claim (enqueueBackfill .plain Example.spec "2026-01-04" legacy.store).1
        "2026-01-05" "2026-01-06" "a").2 = some legacyJob := by
      decide +kernel
    exact congrArg claimedBy taken
  have reads := claims.step (.work (w := 0) (held ▸ .read : WorkerStep .plain (fun _ _ => True) (twoWorkers 0)
    activated.store (activated.workers 0) activated.store (.afterRead activated.store legacyJob)))
  have active : (activated.store.activeFact 1).map Fact.content = some "Alex is in Lima" := by decide +kernel
  have prepares : legacyRead.workers 0 = .embedding legacyJob "Alex is in Lima" := by
    obtain ⟨f, found, content⟩ := Option.map_eq_some_iff.mp active
    refine setSame.trans ?_
    rw [EmbeddingWorker.afterRead, show legacyJob.factId = 1 from rfl, found]
    exact congrArg (EmbeddingWorker.embedding legacyJob) content
  have embeds := reads.step (.work (w := 0) (prepares ▸ .embed trivial : WorkerStep .plain (fun _ _ => True)
    (twoWorkers 0) legacyRead.store (legacyRead.workers 0) legacyRead.store
    (.prepared legacyJob "Alex is in Lima" [1])))
  have commits : EmbeddingRun .plain (fun _ _ => True) twoWorkers (Activates .plain Example.spec)
      { legacy with store := (enqueueBackfill .plain Example.spec "2026-01-04" legacy.store).1 } legacyEmbedded :=
    embeds.step (.work (w := 0) .commit)
  have configured (w : Nat) : (twoWorkers w).spec = Example.spec := rfl
  exact ⟨(activationComplete configured steady .refl claims).1, by decide +kernel,
    (activationComplete configured steady .refl commits).2 (by decide +kernel) (by decide +kernel)
      (by decide +kernel)⟩

end Example
end Enfold
