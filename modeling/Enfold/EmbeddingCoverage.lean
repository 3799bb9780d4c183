import Enfold.EmbeddingFencing

/-! Embedding coverage: whatever the writers and the workers do, an active fact has its vector or
an unfinished job. A write enqueues the one fact it can make active; a worker finishes a job only
with the vector stored, or while the fact is not active. -/
namespace Enfold

open Fallible

variable {rt : Runtime} {l l' l'' : Ledger} {s t u : Store} {spec : EmbeddingSpec}
  {enqueued : Option Nat}

/-! ## What a write can make active -/

-- contents stay, and no fact becomes active but the enqueued one
structure Carries (l l' : Ledger) (enqueued : Option Nat) : Prop where
  kept : ∀ f ∈ l.facts, ∃ g ∈ l'.facts, g.factId = f.factId ∧ g.content = f.content
  active : ∀ g ∈ l'.facts, g.active = true →
    (∃ f ∈ l.facts, f.factId = g.factId ∧ f.active = true) ∨ enqueued = some g.factId

theorem carriesSame (facts : l'.facts = l.facts) : Carries l l' enqueued where
  kept f hf := ⟨f, facts ▸ hf, rfl, rfl⟩
  active g hg active := .inl ⟨g, facts ▸ hg, rfl, active⟩

theorem Carries.trans (first : Carries l l' enqueued) (second : Carries l' l'' enqueued) :
    Carries l l'' enqueued where
  kept f hf := by
    obtain ⟨g, hg, id, content⟩ := first.kept f hf
    obtain ⟨h, hh, id', content'⟩ := second.kept g hg
    exact ⟨h, hh, id'.trans id, content'.trans content⟩
  active h hh active := by
    rcases second.active h hh active with ⟨g, hg, id, was⟩ | new
    · rcases first.active g hg was with ⟨f, hf, id', before⟩ | new
      · exact .inl ⟨f, hf, id'.trans id, before⟩
      · exact .inr (id ▸ new)
    · exact .inr new

theorem carriesInsert {g : Fact} (new : g.active = true → enqueued = some g.factId) :
    Carries l (l.insert g) enqueued where
  kept f hf := ⟨f, List.mem_append_left _ hf, rfl, rfl⟩
  active h hh active := by
    rcases List.mem_append.mp hh with hh | hh
    · exact .inl ⟨h, hh, rfl, active⟩
    · rw [List.mem_singleton.mp hh] at active ⊢
      exact .inr (new active)

theorem carriesMap {m : Fact → Fact} (facts : l'.facts = l.facts.map m)
    (ids : ∀ f, (m f).factId = f.factId) (contents : ∀ f, (m f).content = f.content)
    (active : ∀ f, (m f).active = true → f.active = true ∨ enqueued = some f.factId) :
    Carries l l' enqueued where
  kept f hf := ⟨m f, facts ▸ List.mem_map_of_mem hf, ids f, contents f⟩
  active g hg now := by
    rw [facts] at hg
    obtain ⟨f, hf, rfl⟩ := List.mem_map.mp hg
    rcases active f now with was | new
    · exact .inl ⟨f, hf, (ids f).symm, was⟩
    · exact .inr ((ids f).symm ▸ new)

-- a statement whose rows all leave the active facts
theorem carriesAmend {p : Fact → Bool} {m : Fact → Fact} (facts : l'.facts = Table.amend p m l.facts)
    (ids : ∀ f, (m f).factId = f.factId) (contents : ∀ f, (m f).content = f.content)
    (retired : ∀ f, (m f).active = false) : Carries l l' enqueued := by
  refine carriesMap (m := fun f => if p f then m f else f) facts ?_ ?_ ?_
  · intro f
    split
    · exact ids f
    · rfl
  · intro f
    split
    · exact contents f
    · rfl
  · intro f now
    split at now
    · rw [retired f] at now
      cases now
    · exact .inl now

section Effects
variable {request : WriteRequest} {extracted : Option ExtractedTypedFields} {clock : Clock}
  {found : UntypedMatch} {result : FactWriteResult} {context : ConnectionContext}
  {slot : SlotDecision} {effective : StateCandidate} {confidence : Option Rat}

theorem supersedeInactive {f : Fact} {now : String} {survivor : Nat} :
    (f.supersede now survivor).active = false := rfl

theorem disputedInactive {f : Fact} (disputed : f.conflictGroup.isSome = true) : f.active = false := by
  unfold Fact.active
  cases group : f.conflictGroup with
  | none => simp [group] at disputed
  | some c => simp

theorem UntypedEffect.carries (h : UntypedEffect l request extracted clock found l' result)
    (new : result.factId = l.nextFactId → enqueued = some l.nextFactId) :
    Carries l l' enqueued := by
  cases h with
  | duplicate => exact carriesSame rfl
  | fresh =>
    refine carriesInsert fun _ => ?_
    have id : (request.stored extracted l.nextFactId clock.insertedAt).factId = l.nextFactId := by
      unfold WriteRequest.stored
      split
      · rfl
      · rfl
    rw [id]
    exact new rfl
  | @dispute found l' opened =>
    obtain ⟨-, subject, predicate, detail, f, -, -, -, -, -, -, rfl⟩ := opened
    have marked : Carries l (l.openConflict (.detected l.nextConflictId request.scope subject predicate
        clock.recordedAt detail) [found.factId] (Fact.disputeAs l.nextConflictId subject predicate)) enqueued :=
      carriesAmend rfl (fun _ => rfl) (fun _ => rfl) fun _ => disputedInactive rfl
    refine (marked.trans (carriesInsert fun active => ?_)).trans (carriesSame rfl)
    rw [disputedInactive rfl] at active
    cases active
  | @wins candidate =>
    have retired : Carries l (l.retire candidate.factId (Fact.supersede clock.recordedAt l.nextFactId)) enqueued :=
      carriesAmend rfl (fun _ => rfl) (fun _ => rfl) fun _ => rfl
    exact retired.trans (carriesInsert fun _ => new rfl)
  | loses =>
    refine carriesInsert fun active => ?_
    rw [supersedeInactive] at active
    cases active

theorem Superseded.carries {survivor : Nat} {now : String}
    (h : Superseded l request survivor now l') : Carries l l' enqueued := by
  cases h with
  | unasked => exact carriesSame rfl
  | retired => exact carriesAmend rfl (fun _ => rfl) (fun _ => rfl) fun _ => rfl

theorem resolveCarries {conflictId winner : Nat} {validTo : Option String}
    {resolvedBy reason resolvedAt : String} (new : enqueued = some winner) :
    Carries l (l.resolve conflictId winner validTo resolvedBy reason resolvedAt) enqueued := by
  refine carriesMap rfl (fun _ => resolvedId) ?_ ?_
  · intro f
    unfold Fact.resolved
    split
    · rfl
    · split
      · rfl
      · rfl
  · intro f now
    unfold Fact.resolved at now
    split at now
    · rename_i won
      exact .inr (won ▸ new)
    · split at now
      · cases now
      · exact .inl now

theorem StateEffect.carries (keyed : l.Keyed)
    (h : StateEffect rt l context request slot effective confidence clock l')
    (new : slot.evidence = none → enqueued = some l.nextFactId) : Carries l l' enqueued := by
  have inserted : ∀ (k : Ledger) (group : Option Nat), slot.evidence = none →
      Carries k (k.insert (request.typed effective group confidence l.nextFactId clock)) enqueued :=
    fun k group unknown => carriesInsert fun _ => new unknown
  have supersedes : slot.action = .supersede → slot.evidence = none := by
    intro action
    simp [SlotDecision.evidence, action]
  cases h with
  | evidence => exact carriesSame rfl
  | add unknown => exact inserted l none unknown
  | @replace target f action =>
    have retired : Carries l (l.retire target (Fact.outdate clock.recordedAt effective.validFrom
        l.nextFactId)) enqueued := carriesAmend rfl (fun _ => rfl) (fun _ => rfl) fun _ => rfl
    exact retired.trans (inserted _ none (supersedes action))
  | @dispute detail action unknown =>
    have marked : Carries l (l.openConflict (.detected l.nextConflictId (Text.strip slot.scope)
        (Text.strip slot.subjectKey) (Text.strip slot.predicateKey) clock.recordedAt detail)
        slot.currentFactIds (Fact.dispute l.nextConflictId)) enqueued :=
      carriesAmend rfl (fun _ => rfl) (fun _ => rfl) fun _ => disputedInactive rfl
    exact (marked.trans (inserted _ _ unknown)).trans (carriesSame rfl)
  | join action unknown => exact (inserted l _ unknown).trans (carriesSame rfl)
  | @settle conflictId row l' resolution action group wide mem id unresolved fits current fresh
      resolved =>
    have stored := keyed.insert
      (g := request.typed effective (some conflictId) confidence l.nextFactId clock) rfl
    obtain ⟨-, w, -, -, -, rfl, -⟩ := resolveStateConflictSource stored.join resolved
    have unknown := supersedes action
    have joins : Carries l ((l.insert (request.typed effective (some conflictId) confidence l.nextFactId
        clock)).join ⟨conflictId, l.nextFactId⟩) enqueued :=
      (inserted l (some conflictId) unknown).trans (carriesSame rfl)
    exact joins.trans (resolveCarries (new unknown))

/-! ## What a write enqueues -/

theorem untypedEnqueues (keyed : l.Keyed) {applied : Applied} (known : found.Known l request)
    (h : applyUntyped rt l request extracted found clock = .ok applied)
    (new : applied.result.factId = l.nextFactId) : applied.enqueue = some l.nextFactId := by
  have stored : ∀ {f : Fact} {factId : Nat}, f ∈ l.facts → f.factId = factId →
      factId ≠ l.nextFactId := by
    intro f factId hf id
    have := keyed.factBound f hf
    omega
  cases found with
  | duplicate factId =>
    cases h
    obtain ⟨f, mem, id, -⟩ := known
    exact absurd new (stored mem id)
  | fresh =>
    simp only [applyUntyped, bindOk, Prod.exists] at h
    obtain ⟨l₁, factId, -, l₂, -, last⟩ := h
    cases last
    exact congrArg some new
  | contradiction found =>
    simp only [applyUntyped, bindOk, Prod.exists] at h
    obtain ⟨l₁, factId, -, l₂, conflictId, -, last⟩ := h
    cases last
    exact congrArg some new
  | nearDuplicate candidate =>
    simp only [applyUntyped, bindOk, Prod.exists] at h
    obtain ⟨l₁, factId, -, l₂, result, enqueue, merged, last⟩ := h
    cases last
    obtain ⟨f, mem, id, -⟩ := known
    simp only [mergeNearDuplicate, bindOk] at merged
    obtain ⟨shield, -, merged⟩ := merged
    split at merged
    · simp only [bindOk] at merged
      obtain ⟨l₃, -, last⟩ := merged
      cases last
      exact congrArg some new
    · simp only [bindOk] at merged
      obtain ⟨l₃, -, last⟩ := merged
      cases last
      exact absurd new (stored mem id)

theorem typedEnqueues (keyed : l.Keyed) {applied : Applied}
    (h : applyTyped rt l context request extracted slot effective clock = .ok applied)
    (unknown : slot.evidence = none) : applied.enqueue = some l.nextFactId := by
  unfold applyTyped at h
  split at h
  · rename_i known
    rw [unknown] at known
    cases known
  · simp only [bindOk, Prod.exists] at h
    obtain ⟨l₁, conflictId, prepared, l₂, factId, written, l₃, -, l₄, resolution, -, last⟩ := h
    cases last
    obtain ⟨-, next⟩ := preparedKeyed keyed (prepareSource keyed prepared)
    exact congrArg some ((factWriterSource written).1.trans next)

end Effects

/-! ## What becomes of the job rows -/

-- a row goes on; it is finished only if it was
structure Continues (old row : EmbeddingJob) : Prop where
  job : row.jobId = old.jobId
  fact : row.factId = old.factId
  identity : row.documentIdentity = old.documentIdentity
  finished : row.status = .completed → old.status = .completed

theorem Continues.trans {a b c : EmbeddingJob} (first : Continues a b) (second : Continues b c) :
    Continues a c where
  job := second.job.trans first.job
  fact := second.fact.trans first.fact
  identity := second.identity.trans first.identity
  finished done := first.finished (second.finished done)

theorem continuesSame {row : EmbeddingJob} : Continues row row := ⟨rfl, rfl, rfl, id⟩

-- no row is lost or finished, and a new one takes a fresh id
structure Advances (jobs jobs' : List EmbeddingJob) : Prop where
  rows : ∀ old ∈ jobs, ∃ row ∈ jobs', Continues old row
  born : ∀ row ∈ jobs', (∃ old ∈ jobs, Continues old row) ∨
    (row.status ≠ .completed ∧ ∀ old ∈ jobs, old.jobId ≠ row.jobId)
  unique : Table.Unique EmbeddingJob.jobId jobs → Table.Unique EmbeddingJob.jobId jobs'

theorem advancesSame {jobs : List EmbeddingJob} : Advances jobs jobs where
  rows old hold := ⟨old, hold, continuesSame⟩
  born row hr := .inl ⟨row, hr, continuesSame⟩
  unique := id

theorem Advances.trans {a b c : List EmbeddingJob} (first : Advances a b) (second : Advances b c) :
    Advances a c where
  rows old hold := by
    obtain ⟨mid, hmid, goes⟩ := first.rows old hold
    obtain ⟨row, hr, goes'⟩ := second.rows mid hmid
    exact ⟨row, hr, goes.trans goes'⟩
  born row hr := by
    rcases second.born row hr with ⟨mid, hmid, goes⟩ | ⟨open', fresh⟩
    · rcases first.born mid hmid with ⟨old, hold, goes'⟩ | ⟨open', fresh⟩
      · exact .inl ⟨old, hold, goes'.trans goes⟩
      · exact .inr ⟨fun done => open' (goes.finished done), fun old hold => goes.job ▸ fresh old hold⟩
    · refine .inr ⟨open', fun old hold same => ?_⟩
      obtain ⟨mid, hmid, goes⟩ := first.rows old hold
      exact fresh mid hmid (goes.job.trans same)
  unique distinct := second.unique (first.unique distinct)

theorem advancesAmend {q : EmbeddingJob → Bool} {g : EmbeddingJob → EmbeddingJob}
    {jobs : List EmbeddingJob} (goes : ∀ row, Continues row (g row)) :
    Advances jobs (Table.amend q g jobs) where
  rows old hold := by
    refine ⟨_, Table.memAmend.mpr ⟨old, hold, rfl⟩, ?_⟩
    split
    · exact goes old
    · exact continuesSame
  born row hr := by
    obtain ⟨old, hold, rfl⟩ := Table.memAmend.mp hr
    refine .inl ⟨old, hold, ?_⟩
    split
    · exact goes old
    · exact continuesSame
  unique distinct := Table.amendUnique (fun row => (goes row).job) distinct

theorem unfinishedContinues {old row : EmbeddingJob} (job : row.jobId = old.jobId)
    (fact : row.factId = old.factId) (identity : row.documentIdentity = old.documentIdentity)
    (open' : row.status ≠ .completed) : Continues old row :=
  ⟨job, fact, identity, fun done => absurd done open'⟩

theorem nextRowidFresh {ids : List Nat} {k : Nat} (mem : k ∈ ids) : k < nextRowid ids := by
  have above : ∀ (ids : List Nat) (start : Nat), start ≤ ids.foldl max start ∧
      ∀ k ∈ ids, k ≤ ids.foldl max start := by
    intro ids
    induction ids with
    | nil => exact fun start => ⟨Nat.le_refl _, by simp⟩
    | cons head rest ih =>
      intro start
      obtain ⟨low, all⟩ := ih (max start head)
      refine ⟨le_trans (Nat.le_max_left _ _) low, fun k hk => ?_⟩
      rcases List.mem_cons.mp hk with rfl | hk
      · exact le_trans (Nat.le_max_right _ _) low
      · exact all k hk
  exact Nat.lt_succ_of_le ((above ids 0).2 k mem)

/-! ## Served facts -/

def EmbeddingJob.serves (spec : EmbeddingSpec) (factId : Nat) (row : EmbeddingJob) : Prop :=
  row.factId = factId ∧ row.documentIdentity = spec.documentIdentity

def Store.Embedded (s : Store) (spec : EmbeddingSpec) (factId : Nat) : Prop :=
  ∃ e ∈ s.embeddings, e.factId = factId ∧ e.embeddingIdentity = spec.documentIdentity ∧
    e.dim = spec.dimensions

-- a job, and a vector behind every finished one
structure Served (spec : EmbeddingSpec) (s : Store) (factId : Nat) : Prop where
  enqueued : ∃ row ∈ s.jobs, row.serves spec factId
  finished : ∀ row ∈ s.jobs, row.serves spec factId → row.status = .completed → s.Embedded spec factId

theorem servedSame {factId : Nat} (jobs : t.jobs = s.jobs) (vectors : t.embeddings = s.embeddings)
    (served : Served spec s factId) : Served spec t factId where
  enqueued := by
    rw [jobs]
    exact served.enqueued
  finished row hr serves done := by
    rw [jobs] at hr
    unfold Store.Embedded
    rw [vectors]
    exact served.finished row hr serves done

theorem servedAdvances {factId : Nat} (advances : Advances s.jobs t.jobs)
    (vectors : t.embeddings = s.embeddings) (served : Served spec s factId) :
    Served spec t factId where
  enqueued := by
    obtain ⟨old, hold, fact, identity⟩ := served.enqueued
    obtain ⟨row, hr, goes⟩ := advances.rows old hold
    exact ⟨row, hr, goes.fact.trans fact, goes.identity.trans identity⟩
  finished row hr serves done := by
    unfold Store.Embedded
    rw [vectors]
    rcases advances.born row hr with ⟨old, hold, goes⟩ | ⟨open', -⟩
    · exact served.finished old hold ⟨goes.fact.symm.trans serves.1, goes.identity.symm.trans serves.2⟩
        (goes.finished done)
    · exact absurd done open'

theorem enqueueServes {factId : Nat} {now : String}
    (h : enqueueInTransaction rt s spec factId now = .ok t) :
    Advances s.jobs t.jobs ∧ t.embeddings = s.embeddings ∧ Served spec t factId := by
  unfold enqueueInTransaction at h
  split at h
  · cases h
  · dsimp only at h
    split at h
    · rename_i known
      cases h
      refine ⟨advancesAmend fun row => unfinishedContinues rfl rfl rfl nofun, rfl, ?_, ?_⟩
      · obtain ⟨old, hold, key⟩ := List.any_eq_true.mp known
        simp only [Bool.and_eq_true, decide_eq_true_eq] at key
        refine ⟨_, Table.memAmend.mpr ⟨old, hold, rfl⟩, ?_⟩
        split
        · exact key
        · exact key
      · -- a finished row that was not revived has its vector
        intro row hr serves done
        obtain ⟨old, hold, rfl⟩ := Table.memAmend.mp hr
        split at done
        · cases done
        · rename_i spared
          rw [if_neg spared] at serves
          simp only [EmbeddingJob.revivable, serves.1, serves.2, done, Bool.and_eq_true,
            decide_eq_true_eq, true_and, Bool.not_eq_true', Bool.not_eq_false] at spared
          obtain ⟨e, he, stored⟩ := List.any_eq_true.mp spared
          simp only [Bool.and_eq_true, decide_eq_true_eq] at stored
          exact ⟨e, he, stored.1.1, stored.1.2, stored.2⟩
    · rename_i unknown
      cases h
      refine ⟨⟨fun old hold => ⟨old, List.mem_append_left _ hold, continuesSame⟩, fun row hr => ?_,
        fun distinct => ?_⟩, rfl, ⟨_, List.mem_append_right _ List.mem_cons_self, rfl, rfl⟩, ?_⟩
      · rcases List.mem_append.mp hr with hr | hr
        · exact .inl ⟨row, hr, continuesSame⟩
        · rw [List.mem_singleton.mp hr]
          exact .inr ⟨nofun, fun old hold =>
            Nat.ne_of_lt (nextRowidFresh (List.mem_map_of_mem hold))⟩
      · exact Table.uniqueAppend distinct fun old hold =>
          Nat.ne_of_lt (nextRowidFresh (List.mem_map_of_mem hold))
      · intro row hr serves done
        rcases List.mem_append.mp hr with hr | hr
        · have miss := List.any_eq_false.mp (Bool.eq_false_iff.mpr unknown) row hr
          simp [serves.1, serves.2] at miss
        · rw [List.mem_singleton.mp hr] at done
          cases done

/-! ## What one operation does -/

structure Serving (spec : EmbeddingSpec) (s t : Store) : Prop where
  kept : ∀ f ∈ s.facts, ∃ g ∈ t.facts, g.factId = f.factId ∧ g.content = f.content
  vectors : t.embeddings = s.embeddings
  jobs : Advances s.jobs t.jobs
  active : ∀ g ∈ t.facts, g.active = true →
    (∃ f ∈ s.facts, f.factId = g.factId ∧ f.active = true) ∨ Served spec t g.factId

theorem servingSame (facts : t.facts = s.facts) (vectors : t.embeddings = s.embeddings)
    (jobs : Advances s.jobs t.jobs) : Serving spec s t where
  kept f hf := ⟨f, facts ▸ hf, rfl, rfl⟩
  vectors := vectors
  jobs := jobs
  active g hg active := .inl ⟨g, facts ▸ hg, rfl, active⟩

theorem Serving.trans (first : Serving spec s t) (second : Serving spec t u) : Serving spec s u where
  kept f hf := by
    obtain ⟨g, hg, id, content⟩ := first.kept f hf
    obtain ⟨h, hh, id', content'⟩ := second.kept g hg
    exact ⟨h, hh, id'.trans id, content'.trans content⟩
  vectors := second.vectors.trans first.vectors
  jobs := first.jobs.trans second.jobs
  active h hh active := by
    rcases second.active h hh active with ⟨g, hg, id, was⟩ | served
    · rcases first.active g hg was with ⟨f, hf, id', before⟩ | served
      · exact .inl ⟨f, hf, id'.trans id, before⟩
      · exact .inr (id ▸ servedAdvances second.jobs second.vectors served)
    · exact .inr served

-- the ledger may activate the enqueued fact, and that fact is served
theorem servingApplied {svc : WriteService} {now : String} {v : Store}
    (configured : svc.embeddingEnqueue = some spec) (carries : Carries s.toLedger t.toLedger enqueued)
    (jobs : v.jobs = s.jobs) (vectors : v.embeddings = s.embeddings)
    (done : enqueueApplied rt svc v enqueued now = .ok u) (last : t.jobs = u.jobs)
    (lastVectors : t.embeddings = u.embeddings) : Serving spec s t := by
  have queued : Advances v.jobs u.jobs ∧ u.embeddings = v.embeddings ∧
      ∀ factId, enqueued = some factId → Served spec u factId := by
    unfold enqueueApplied at done
    split at done
    · rename_i factId other outbox
      rw [configured] at outbox
      cases outbox
      obtain ⟨advances, same, served⟩ := enqueueServes done
      exact ⟨advances, same, fun other same => Option.some.inj same ▸ served⟩
    · rename_i unasked
      cases done
      refine ⟨advancesSame, rfl, fun factId new => ?_⟩
      exact absurd configured (unasked factId spec new)
  obtain ⟨advances, same, served⟩ := queued
  refine ⟨carries.kept, lastVectors.trans (same.trans vectors), ?_, fun g hg active => ?_⟩
  · rw [last, ← jobs]
    exact advances
  · rcases carries.active g hg active with was | new
    · exact .inl was
    · exact .inr (servedSame last lastVectors (served g.factId new))

section Operations
variable {svc : WriteService} {context : ConnectionContext} {clock : Clock} {request : WriteRequest}
  {candidate : Option StateCandidate} {extracted : Option ExtractedTypedFields}
  {query : Option (List Rat)} {outcome : WriteOutcome}

theorem transactServing (keyed : s.toLedger.Keyed) (configured : svc.embeddingEnqueue = some spec)
    (h : transact rt svc context clock s request candidate extracted query = .ok (t, outcome)) :
    Serving spec s t := by
  obtain ⟨clients, sessions, -, ⟨prior, -, -, rfl, -⟩ | ⟨-, fresh⟩⟩ := transactSource h
  · exact servingSame rfl rfl advancesSame
  · rcases writeFreshSource fresh with ⟨decision, -, done⟩ |
        ⟨applied, observations, observationId, judged, done, concluded⟩ |
        ⟨slot, effective, applied, observations, observationId, judged, done, concluded⟩
    · obtain ⟨-, ⟨-, -, rfl⟩ | ⟨-, rfl⟩⟩ := concludeFactlessSource done
      · exact servingSame rfl rfl advancesSame
      · exact servingSame rfl rfl advancesSame
    · obtain ⟨resolutions, u, enqueues, jobs, vectors⟩ := concludeAppliedJobs concluded
      obtain ⟨l, superseded, all, rows, evidence, retired, -, -, -, stored⟩ :=
        concludeAppliedSource concluded
      have bare := (verdictUntyped judged).1
      have known := (untypedMatchSource :
        Matched rt svc { s with clients, sessions } request extracted query _).known
      obtain ⟨effect, -⟩ := applyUntypedSource keyed known done
      have untyped := effect.carries (untypedEnqueues keyed known done)
      rw [bare] at retired
      have last : Carries _ l applied.enqueue := (supersededSource (effect.keyed keyed) retired).carries
      have ledger : t.toLedger = l := by rw [stored]
      refine servingApplied configured ?_ ?_ ?_ enqueues jobs vectors
      · rw [ledger]
        exact untyped.trans last
      · rfl
      · rfl
    · obtain ⟨resolutions, u, enqueues, jobs, vectors⟩ := concludeAppliedJobs concluded
      obtain ⟨l, superseded, all, rows, evidence, retired, -, -, -, stored⟩ :=
        concludeAppliedSource concluded
      obtain ⟨c, -, given, -⟩ := verdictTyped judged
      obtain ⟨effect, -⟩ := applyTypedSource keyed done
      have typed := effect.carries keyed (typedEnqueues keyed done)
      rw [given] at retired
      cases retired
      have ledger : t.toLedger = applied.ledger := by rw [stored]
      refine servingApplied configured ?_ ?_ ?_ enqueues jobs vectors
      · rw [ledger]
        exact typed
      · rfl
      · rfl

end Operations

def Operation.enqueues (spec : EmbeddingSpec) : Operation rt → Prop
  | .write svc _ _ => svc.embeddingEnqueue = some spec
  | .writeBatch svc _ _ _ _ => svc.embeddingEnqueue = some spec
  | .resolveConflict svc _ _ _ _ _ _ => svc.embeddingEnqueue = some spec
  | _ => False

theorem performServing {o : Operation rt} (sound : s.toLedger.Sound) (kind : o.enqueues spec)
    (done : o.perform s = .ok t) : t.toLedger.Sound ∧ Serving spec s t := by
  have step : ∀ {svc : WriteService} {effective : ConnectionContext} {u v : Store}
      {timed : TimedWrite rt} {query : Option (List Rat)} {outcome : WriteOutcome},
      svc.policy.authorizeContext rt svc.legacyAuthorized effective = .ok effective →
      svc.embeddingEnqueue = some spec →
      batchStep rt svc effective u (timed, query) = .ok (v, outcome) →
      u.toLedger.Sound ∧ Serving spec s u → v.toLedger.Sound ∧ Serving spec s v := by
    intro svc effective u v timed query outcome authorized configured written before
    obtain ⟨extracted, -, -, transacted⟩ := batchStepSource authorized written
    exact ⟨stepSound authorized written before.1,
      before.2.trans (transactServing before.1.toKeyed configured transacted)⟩
  have start : s.toLedger.Sound ∧ Serving spec s s := ⟨sound, servingSame rfl rfl advancesSame⟩
  cases o with
  | write svc context timed =>
    exact writeKeeps (P := fun u => u.toLedger.Sound ∧ Serving spec s u)
      (C := fun svc _ _ _ _ => svc.embeddingEnqueue = some spec) step (fun _ _ _ _ => kind) done start
  | writeBatch svc context writes rollbackIf completes =>
    exact batchKeeps (P := fun u => u.toLedger.Sound ∧ Serving spec s u)
      (C := fun svc _ _ _ _ => svc.embeddingEnqueue = some spec) step
      (fun before => ⟨before.1, before.2.trans (servingSame rfl rfl advancesSame)⟩)
      (fun _ _ _ _ _ _ _ _ _ _ _ => kind) done start
  | resolveConflict svc context conflictId factId reason resolvedAt queuedAt =>
    refine ⟨performSound rfl done sound, ?_⟩
    simp only [Operation.perform, bindOk, Prod.exists] at done
    obtain ⟨effective, -, u, resolution, resolved, last⟩ := done
    cases last
    obtain ⟨clients, sessions, resolutions, l, stored, enqueues⟩ := resolveConflictJobs resolved
    obtain ⟨-, w, -, -, -, rfl, -⟩ := resolveStateConflictSource sound.toKeyed stored
    obtain ⟨jobs, same⟩ := enqueueAppliedSource enqueues
    refine servingApplied kind ?_ ?_ ?_ enqueues rfl rfl
    · rw [same]
      exact resolveCarries rfl
    · rfl
    · rfl
  | eraseFact => exact kind.elim
  | mergeClusters => exact kind.elim
  | storeEmbedding => exact kind.elim

/-! ## The workers -/

def EmbeddingWorker.content : EmbeddingWorker → Option String
  | .embedding _ content => some content
  | .prepared _ content _ => some content
  | _ => none

-- a worker's job is a row of its fact, and what it has read is that fact's content
structure Faithful (embeds : String → List Rat → Prop) (s : Store) (worker : EmbeddingWorker) : Prop where
  row : ∀ job, worker.job = some job → (∃ row ∈ s.jobs, row.jobId = job.jobId) ∧
    ∀ row ∈ s.jobs, row.jobId = job.jobId → row.factId = job.factId
  content : ∀ job text, worker.job = some job → worker.content = some text →
    ∃ f ∈ s.facts, f.factId = job.factId ∧ f.content = text
  vector : ∀ job text vector, worker = .prepared job text vector → embeds text vector

section Workers
variable {embeds : String → List Rat → Prop} {p : EmbeddingProcessor} {job : ClaimedEmbeddingJob}
  {worker after : EmbeddingWorker}

theorem faithfulIdle : Faithful embeds s .idle := ⟨nofun, nofun, nofun⟩

theorem Faithful.mono (faithful : Faithful embeds s worker)
    (kept : ∀ f ∈ s.facts, ∃ g ∈ t.facts, g.factId = f.factId ∧ g.content = f.content)
    (rows : ∀ old ∈ s.jobs, ∃ row ∈ t.jobs, row.jobId = old.jobId)
    (born : ∀ row ∈ t.jobs, (∃ old ∈ s.jobs, row.jobId = old.jobId ∧ row.factId = old.factId) ∨
      ∀ old ∈ s.jobs, old.jobId ≠ row.jobId) : Faithful embeds t worker where
  row job holds := by
    obtain ⟨⟨old, hold, id⟩, mine⟩ := faithful.row job holds
    obtain ⟨row, hr, same⟩ := rows old hold
    refine ⟨⟨row, hr, same.trans id⟩, fun row hr here => ?_⟩
    rcases born row hr with ⟨was, hwas, job', fact⟩ | fresh
    · exact fact.trans (mine was hwas (job'.symm.trans here))
    · exact absurd (id.trans here.symm) (fresh old hold)
  content job text holds read := by
    obtain ⟨f, hf, id, same⟩ := faithful.content job text holds read
    obtain ⟨g, hg, id', same'⟩ := kept f hf
    exact ⟨g, hg, id'.trans id, same'.trans same⟩
  vector := faithful.vector

theorem Faithful.serving (faithful : Faithful embeds s worker) (serving : Serving spec s t) :
    Faithful embeds t worker := by
  refine faithful.mono serving.kept (fun old hold => ?_) fun row hr => ?_
  · obtain ⟨row, hr, goes⟩ := serving.jobs.rows old hold
    exact ⟨row, hr, goes.job⟩
  · rcases serving.jobs.born row hr with ⟨old, hold, goes⟩ | ⟨-, fresh⟩
    · exact .inl ⟨old, hold, goes.job, goes.fact⟩
    · exact .inr fresh

-- an update of job rows that keeps their keys
structure Rewrites (s t : Store) (q : EmbeddingJob → Bool) (g : EmbeddingJob → EmbeddingJob) : Prop where
  ledger : t.toLedger = s.toLedger
  jobs : t.jobs = Table.amend q g s.jobs
  job : ∀ row, (g row).jobId = row.jobId
  fact : ∀ row, (g row).factId = row.factId
  identity : ∀ row, (g row).documentIdentity = row.documentIdentity

theorem rewritesAmend (s : Store) (embeddings : List Embedding) (q : EmbeddingJob → Bool)
    (g : EmbeddingJob → EmbeddingJob) (job : ∀ row, (g row).jobId = row.jobId)
    (fact : ∀ row, (g row).factId = row.factId)
    (identity : ∀ row, (g row).documentIdentity = row.documentIdentity) :
    Rewrites s { s with embeddings, jobs := Table.amend q g s.jobs } q g :=
  ⟨rfl, rfl, job, fact, identity⟩

theorem Faithful.rewrites {q : EmbeddingJob → Bool} {g : EmbeddingJob → EmbeddingJob}
    (faithful : Faithful embeds s worker) (rewrites : Rewrites s t q g) : Faithful embeds t worker := by
  refine faithful.mono (fun f hf => ⟨f, ?_, rfl, rfl⟩) (fun old hold => ?_) fun row hr => .inl ?_
  · rw [rewrites.ledger]
    exact hf
  · refine ⟨if q old then g old else old, ?_, ?_⟩
    · rw [rewrites.jobs]
      exact Table.memAmend.mpr ⟨old, hold, rfl⟩
    · split
      · exact rewrites.job old
      · rfl
  · rw [rewrites.jobs] at hr
    obtain ⟨old, hold, rfl⟩ := Table.memAmend.mp hr
    refine ⟨old, hold, ?_⟩
    split
    · exact ⟨rewrites.job old, rewrites.fact old⟩
    · exact ⟨rfl, rfl⟩

structure Covered (embeds : String → List Rat → Prop) (spec : EmbeddingSpec) (s : Store) : Prop where
  sound : s.toLedger.Sound
  jobs : Table.Unique EmbeddingJob.jobId s.jobs
  vectors : ∀ e ∈ s.embeddings, ∃ f ∈ s.facts, f.factId = e.factId ∧ embeds f.content e.embedding
  served : ∀ f ∈ s.facts, f.active = true → Served spec s f.factId

theorem coveredEmpty : Covered embeds spec Store.empty where
  sound := soundEmpty
  jobs := List.nodup_nil
  vectors _ he := absurd he List.not_mem_nil
  served _ hf := absurd hf List.not_mem_nil

theorem Covered.serving (covered : Covered embeds spec s) (sound : t.toLedger.Sound)
    (serving : Serving spec s t) : Covered embeds spec t where
  sound := sound
  jobs := serving.jobs.unique covered.jobs
  vectors e he := by
    rw [serving.vectors] at he
    obtain ⟨f, hf, id, computed⟩ := covered.vectors e he
    obtain ⟨g, hg, id', content⟩ := serving.kept f hf
    exact ⟨g, hg, id'.trans id, content ▸ computed⟩
  served g hg active := by
    rcases serving.active g hg active with ⟨f, hf, id, was⟩ | served
    · exact id ▸ servedAdvances serving.jobs serving.vectors (covered.served f hf was)
    · exact served

theorem Covered.rewrites {q : EmbeddingJob → Bool} {g : EmbeddingJob → EmbeddingJob}
    (covered : Covered embeds spec s) (rewrites : Rewrites s t q g)
    (vectors : ∀ e ∈ t.embeddings, ∃ f ∈ s.facts, f.factId = e.factId ∧ embeds f.content e.embedding)
    (kept : ∀ factId, s.Embedded spec factId → t.Embedded spec factId)
    (finished : ∀ row ∈ s.jobs, q row = true → (g row).status = .completed →
      ∀ f ∈ s.facts, f.active = true → row.serves spec f.factId → t.Embedded spec f.factId) :
    Covered embeds spec t where
  sound := by
    rw [rewrites.ledger]
    exact covered.sound
  jobs := by
    rw [rewrites.jobs]
    exact Table.amendUnique rewrites.job covered.jobs
  vectors := by
    rw [rewrites.ledger]
    exact vectors
  served f hf active := by
    rw [rewrites.ledger] at hf
    obtain ⟨⟨old, hold, fact, identity⟩, done⟩ := covered.served f hf active
    constructor
    · refine ⟨if q old then g old else old, ?_, ?_⟩
      · rw [rewrites.jobs]
        exact Table.memAmend.mpr ⟨old, hold, rfl⟩
      · split
        · exact ⟨(rewrites.fact old).trans fact, (rewrites.identity old).trans identity⟩
        · exact ⟨fact, identity⟩
    · intro row hr serves completed
      rw [rewrites.jobs] at hr
      obtain ⟨was, hwas, rfl⟩ := Table.memAmend.mp hr
      split at completed
      · rename_i hit
        rw [if_pos hit] at serves
        exact finished was hwas hit completed f hf active
          ⟨(rewrites.fact was).symm.trans serves.1, (rewrites.identity was).symm.trans serves.2⟩
      · rename_i spared
        rw [if_neg spared] at serves
        exact kept f.factId (done was hwas serves completed)

/-! ## A worker's step -/

theorem inactiveUnserved (covered : Covered embeds spec s) (gone : s.activeFact job.factId = none) :
    ∀ f ∈ s.facts, f.active = true → f.factId ≠ job.factId := by
  intro f hf active same
  have here := covered.sound.toKeyed.find hf
  unfold Ledger.activeFact at gone
  rw [← same, here] at gone
  simp [Option.filter, active] at gone

theorem requeueOpen {digest now : String} {row : EmbeddingJob} :
    (row.requeue digest now).status ≠ .completed := by simp [EmbeddingJob.requeue]

theorem upsertKeeps {factId other : Nat} {vector : List Rat} (configured : p.spec = spec)
    (h : upsertEmbedding p s factId vector = .ok t) (embedded : s.Embedded spec other) :
    t.Embedded spec other := by
  obtain ⟨e, he, fact, identity, dim⟩ := embedded
  simp only [upsertEmbedding, bindOk] at h
  obtain ⟨-, -, h⟩ := h
  split at h
  · cases h
    refine ⟨_, Table.memAmend.mpr ⟨e, he, rfl⟩, ?_⟩
    split
    · exact ⟨fact, identity, congrArg EmbeddingSpec.dimensions configured⟩
    · exact ⟨fact, identity, dim⟩
  · cases h
    exact ⟨e, List.mem_append_left _ he, fact, identity, dim⟩

theorem workerCovered (configured : p.spec = spec) (covered : Covered embeds spec s)
    (faithful : Faithful embeds s worker) (step : WorkerStep rt embeds p s worker t after) :
    Covered embeds spec t ∧ ∃ q g, Rewrites s t q g := by
  have still : Covered embeds spec s ∧ ∃ q g, Rewrites s s q g :=
    ⟨covered, fun _ => false, id, rfl, (Table.amendUntouched fun _ _ => rfl).symm, fun _ => rfl,
      fun _ => rfl, fun _ => rfl⟩
  cases step with
  | read => exact still
  | embed => exact still
  | modelRaises => exact still
  | crash => exact still
  | @settle job now =>
    unfold settled
    split
    · rename_i t done
      obtain ⟨g, rfl, ⟨f, -, rfl⟩ | ⟨gone, rfl⟩⟩ := settleSource done
      · have rewrites := rewritesAmend s s.embeddings (EmbeddingJob.heldBy job)
          (EmbeddingJob.requeue (rt.sha256 f.content) now)
          (fun _ => rfl) (fun _ => rfl) fun _ => rfl
        refine ⟨covered.rewrites rewrites covered.vectors (fun _ => id) ?_, _, _, rewrites⟩
        intro row hr _ completed
        exact absurd completed requeueOpen
      · have rewrites := rewritesAmend s s.embeddings (EmbeddingJob.heldBy job)
          (EmbeddingJob.skip "skipped_inactive" now)
          (fun _ => rfl) (fun _ => rfl) fun _ => rfl
        refine ⟨covered.rewrites rewrites covered.vectors (fun _ => id) ?_, _, _, rewrites⟩
        intro row hr held _ f hf active serves
        simp only [EmbeddingJob.heldBy, Bool.and_eq_true, decide_eq_true_eq] at held
        have mine := (faithful.row job rfl).2 row hr held.1.1
        exact absurd (serves.1.symm.trans mine) (inactiveUnserved covered gone f hf active)
    · exact still
  | @fail job errorType stamp available =>
    unfold settled
    split
    · rename_i t done
      obtain ⟨status, open', rfl⟩ := failSource done
      have rewrites := rewritesAmend s s.embeddings (EmbeddingJob.heldBy job)
        (EmbeddingJob.giveBack status available errorType stamp)
        (fun _ => rfl) (fun _ => rfl) fun _ => rfl
      refine ⟨covered.rewrites rewrites covered.vectors (fun _ => id) ?_, _, _, rewrites⟩
      intro row hr held completed
      exact absurd completed open'
    · exact still
  | @commit job content vector now =>
    unfold settled
    split
    · rename_i t done
      cases commitSource done with
      | stale gone =>
        have rewrites := rewritesAmend s s.embeddings (fun row => decide (row.jobId = job.jobId))
          (EmbeddingJob.skip "skipped_stale" now)
          (fun _ => rfl) (fun _ => rfl) fun _ => rfl
        refine ⟨covered.rewrites rewrites covered.vectors (fun _ => id) ?_, _, _, rewrites⟩
        intro row hr held _ f hf active serves
        have mine := (faithful.row job rfl).2 row hr (of_decide_eq_true held)
        exact absurd (serves.1.symm.trans mine) (inactiveUnserved covered gone f hf active)
      | @changed f =>
        have rewrites := rewritesAmend s s.embeddings (fun row => decide (row.jobId = job.jobId))
          (EmbeddingJob.requeue (rt.sha256 f.content) now)
          (fun _ => rfl) (fun _ => rfl) fun _ => rfl
        refine ⟨covered.rewrites rewrites covered.vectors (fun _ => id) ?_, _, _, rewrites⟩
        intro row hr _ completed
        exact absurd completed requeueOpen
      | @embedded f u found same stored =>
        have kept : ∀ other, s.Embedded spec other → u.Embedded spec other :=
          fun _ => upsertKeeps configured stored
        obtain ⟨⟨embeddings, rfl⟩, ⟨e, he, fact, identity, dim, -⟩, only⟩ := upsertSource stored
        have rewrites := rewritesAmend s embeddings (fun row => decide (row.jobId = job.jobId))
          (EmbeddingJob.complete (rt.sha256 f.content) none now)
          (fun _ => rfl) (fun _ => rfl) fun _ => rfl
        refine ⟨covered.rewrites rewrites ?_ kept ?_, _, _, rewrites⟩
        · intro e he
          rcases only e he with old | ⟨id, -, -, value⟩
          · exact covered.vectors e old
          · -- the content read at the claim is still the content of the fact
            obtain ⟨g, hg, gid, text⟩ := faithful.content job content rfl rfl
            rw [value]
            exact ⟨g, hg, gid.trans id.symm, text ▸ faithful.vector job content vector rfl⟩
        · intro row hr mine _ f hf active serves
          have own := (faithful.row job rfl).2 row hr (of_decide_eq_true mine)
          exact ⟨e, he, fact.trans (own.symm.trans serves.1), identity.trans (by rw [configured]),
            dim.trans (by rw [configured])⟩
    · exact still

theorem faithfulAfter (faithful : Faithful embeds s worker)
    (step : WorkerStep rt embeds p s worker t after) (moved : Faithful embeds t worker) :
    Faithful embeds t after := by
  cases step with
  | @read job =>
    unfold EmbeddingWorker.afterRead
    split
    · rename_i f found
      obtain ⟨mem, id, -⟩ := activeFactSource found
      refine ⟨faithful.row, fun other text holds read => ?_, nofun⟩
      cases holds
      cases read
      exact ⟨f, mem, id, rfl⟩
    · exact ⟨faithful.row, nofun, nofun⟩
  | embed answer =>
    refine ⟨faithful.row, faithful.content, fun other text vector same => ?_⟩
    cases same
    exact answer
  | modelRaises => exact ⟨faithful.row, nofun, nofun⟩
  | settle => exact faithfulIdle
  | commit => exact faithfulIdle
  | fail => exact faithfulIdle
  | crash => exact faithfulIdle

/-! ## A claim -/

theorem claimServing (spec : EmbeddingSpec) (p : EmbeddingProcessor) (s : Store)
    (stamp expiresAt token : String) :
    Serving spec s (p.claim s stamp expiresAt token).1 ∧
      ∀ job, (p.claim s stamp expiresAt token).2 = some job →
        ∃ row ∈ (p.claim s stamp expiresAt token).1.jobs, row.jobId = job.jobId ∧
          row.factId = job.factId := by
  have buried : Advances s.jobs
      (Table.amend (EmbeddingJob.exhausted p stamp) (EmbeddingJob.bury stamp) s.jobs) :=
    advancesAmend fun row => unfinishedContinues rfl rfl rfl nofun
  unfold EmbeddingProcessor.claim
  dsimp only
  split
  · exact ⟨servingSame rfl rfl buried, nofun⟩
  · rename_i taken due
    obtain ⟨inside, -⟩ := firstDueSource due
    refine ⟨servingSame rfl rfl (buried.trans (advancesAmend fun row =>
      unfinishedContinues rfl rfl rfl nofun)), fun job same => ?_⟩
    cases same
    refine ⟨_, Table.memAmend.mpr ⟨taken, inside, rfl⟩, ?_⟩
    split
    · exact ⟨rfl, rfl⟩
    · exact ⟨rfl, rfl⟩

end Workers

/-! ## Runs -/

-- what happens beside the workers: writes and resolutions that share this outbox
inductive Serves (rt : Runtime) (spec : EmbeddingSpec) (s t : Store) : Prop
  | operation (o : Operation rt) (kind : o.enqueues spec) (done : o.perform s = .ok t) : Serves rt spec s t

def EmbeddingSystem.initial : EmbeddingSystem where
  store := .empty
  workers := fun _ => .idle
  issued := []

structure CoveredSystem (embeds : String → List Rat → Prop) (spec : EmbeddingSpec)
    (sys : EmbeddingSystem) : Prop where
  store : Covered embeds spec sys.store
  workers : ∀ w, Faithful embeds sys.store (sys.workers w)

section Runs
variable {embeds : String → List Rat → Prop} {procs : Nat → EmbeddingProcessor}
  {sys last : EmbeddingSystem}

theorem coveredClaim (covered : CoveredSystem embeds spec sys) {w : Nat} {stamp expiresAt token : String} :
    CoveredSystem embeds spec (sys.claim procs w stamp expiresAt token) := by
  obtain ⟨serving, takes⟩ := claimServing spec (procs w) sys.store stamp expiresAt token
  have ledger : ((procs w).claim sys.store stamp expiresAt token).1.toLedger = sys.store.toLedger := by
    obtain ⟨jobs, frame, -⟩ := claimFrame (procs w) sys.store stamp expiresAt token
    rw [frame]
  have store : Covered embeds spec ((procs w).claim sys.store stamp expiresAt token).1 :=
    covered.store.serving (ledger ▸ covered.store.sound) serving
  refine ⟨store, fun v => ?_⟩
  change Faithful embeds _ (if v = w then _ else sys.workers v)
  split
  · cases taken : ((procs w).claim sys.store stamp expiresAt token).2 with
    | none => exact faithfulIdle
    | some job =>
      obtain ⟨row, hr, id, fact⟩ := takes job taken
      refine ⟨fun other same => ?_, nofun, nofun⟩
      cases same
      refine ⟨⟨row, hr, id⟩, fun other hother here => ?_⟩
      rw [Table.uniqueEq store.jobs hother hr (here.trans id.symm)]
      exact fact
  · exact (covered.workers v).serving serving

theorem coveredWork (configured : ∀ w, (procs w).spec = spec) (covered : CoveredSystem embeds spec sys)
    {w : Nat} {after : EmbeddingWorker}
    (step : WorkerStep rt embeds (procs w) sys.store (sys.workers w) t after) :
    CoveredSystem embeds spec (sys.set w t after) := by
  obtain ⟨store, q, g, rewrites⟩ :=
    workerCovered (configured w) covered.store (covered.workers w) step
  refine ⟨store, fun v => ?_⟩
  by_cases here : v = w
  · rw [here, setSame]
    exact faithfulAfter (covered.workers w) step ((covered.workers w).rewrites rewrites)
  · rw [setOther here]
    exact (covered.workers v).rewrites rewrites

theorem coveredStep (configured : ∀ w, (procs w).spec = spec) (covered : CoveredSystem embeds spec sys)
    (step : EmbeddingStep rt embeds procs (Serves rt spec) sys last) :
    CoveredSystem embeds spec last := by
  cases step with
  | claim => exact coveredClaim covered
  | work step => exact coveredWork configured covered step
  | environment changes =>
    obtain ⟨o, kind, done⟩ := changes
    obtain ⟨sound, serving⟩ := performServing covered.store.sound kind done
    exact ⟨covered.store.serving sound serving, fun w => (covered.workers w).serving serving⟩

theorem coveredInitial : CoveredSystem embeds spec .initial := ⟨coveredEmpty, fun _ => faithfulIdle⟩

theorem runCovered (configured : ∀ w, (procs w).spec = spec)
    (run : EmbeddingRun rt embeds procs (Serves rt spec) .initial sys) : CoveredSystem embeds spec sys :=
  runInvariant (fun _ _ covered step => coveredStep configured covered step) run coveredInitial

-- the vector of the configured identity and dimension, computed from the content the fact has
def Store.HasEmbedding (s : Store) (embeds : String → List Rat → Prop) (spec : EmbeddingSpec)
    (f : Fact) : Prop :=
  ∃ e ∈ s.embeddings, e.factId = f.factId ∧ e.embeddingIdentity = spec.documentIdentity ∧
    e.dim = spec.dimensions ∧ embeds f.content e.embedding

theorem Covered.computed (covered : Covered embeds spec s) {f : Fact} (mem : f ∈ s.facts)
    (embedded : s.Embedded spec f.factId) : s.HasEmbedding embeds spec f := by
  obtain ⟨e, he, fact, identity, dim⟩ := embedded
  obtain ⟨g, hg, id, computed⟩ := covered.vectors e he
  rw [Table.uniqueEq covered.sound.factIds hg mem (id.trans fact)] at computed
  exact ⟨e, he, fact, identity, dim, computed⟩

/-- In every interleaving of writers and workers, an active fact has the vector of its content or an
unfinished job, and none of its jobs is marked completed while it has no vector. -/
theorem embeddingCoverage (configured : ∀ w, (procs w).spec = spec)
    (run : EmbeddingRun rt embeds procs (Serves rt spec) .initial sys) :
    ∀ f ∈ sys.store.facts, f.current = true → f.conflictGroup = none →
      (sys.store.HasEmbedding embeds spec f ∨
        ∃ row ∈ sys.store.jobs, row.factId = f.factId ∧ row.documentIdentity = spec.documentIdentity ∧
          (row.status = .pending ∨ row.status = .processing ∨ row.status = .deadLetter)) ∧
      ∀ row ∈ sys.store.jobs, row.factId = f.factId → row.documentIdentity = spec.documentIdentity →
        row.status = .completed → sys.store.HasEmbedding embeds spec f := by
  have covered := (runCovered configured run).store
  intro f hf current calm
  have active : f.active = true := by simp [Fact.active, current, calm]
  obtain ⟨⟨row, hr, serves⟩, finished⟩ := covered.served f hf active
  constructor
  · cases status : row.status with
    | pending => exact .inr ⟨row, hr, serves.1, serves.2, .inl status⟩
    | processing => exact .inr ⟨row, hr, serves.1, serves.2, .inr (.inl status)⟩
    | deadLetter => exact .inr ⟨row, hr, serves.1, serves.2, .inr (.inr status)⟩
    | completed => exact .inl (covered.computed hf (finished row hr serves status))
  · intro row hr fact identity done
    exact covered.computed hf (finished row hr ⟨fact, identity⟩ done)

end Runs
namespace Example

def leased : EmbeddingSystem := oneJob.claim twoWorkers 0 "2026-01-04" "2026-01-05" "a"

theorem embeddingCoverageHere : ∃ f ∈ leased.store.facts, f.current = true ∧ f.conflictGroup = none ∧
    (leased.store.HasEmbedding (fun _ _ => True) Example.spec f ∨
      ∃ row ∈ leased.store.jobs, row.factId = f.factId ∧ row.documentIdentity = Example.spec.documentIdentity ∧
        (row.status = .pending ∨ row.status = .processing ∨ row.status = .deadLetter)) := by
  have written : (Operation.write outboxed caller lima).perform Store.empty = .ok oneJob.store :=
    okOfOption (by decide +kernel)
  have first : EmbeddingRun .plain (fun _ _ => True) twoWorkers (Serves .plain Example.spec) .initial oneJob :=
    .step .refl (.environment (.operation (.write outboxed caller lima) rfl written))
  have run : EmbeddingRun .plain (fun _ _ => True) twoWorkers (Serves .plain Example.spec) .initial leased :=
    .step first (.claim rfl (by decide))
  have stored : leased.store.facts.any (fun f => f.current && f.conflictGroup.isNone) = true := by
    decide +kernel
  obtain ⟨f, hf, shape⟩ := List.any_eq_true.mp stored
  simp only [Bool.and_eq_true, Option.isNone_iff_eq_none] at shape
  have served := (embeddingCoverage (fun w => show (twoWorkers w).spec = Example.spec from rfl) run f hf
    shape.1 shape.2).1
  exact ⟨f, hf, shape.1, shape.2, served⟩

end Example
end Enfold
