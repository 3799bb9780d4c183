import Enfold.ConflictLedger

/-! The write log as the memory of what was asked: one row a client and key, answered from again
for an equal request, refused for a different one, and untouched by outcomes that hang on the
environment. -/
namespace Enfold

open Fallible

variable {rt : Runtime}

/-! ## Requests the service can read -/

/-- The request's vocabulary is known: no policy, whatever its grants, raises over it. -/
structure WriteRequest.Known (rt : Runtime) (r : WriteRequest) : Prop where
  scope : ∃ scope, validateScope rt r.scope = .ok scope
  sensitivity : ∃ sensitivity, validateSensitivity rt r.sensitivity = .ok sensitivity
  relation : ∃ relation, validateRelation rt r.relation = .ok relation
  correction : ∃ status, validateCorrectionStatus rt r.correctionStatus = .ok status

theorem evaluateKnown (policy : MemoryPolicy) (request : WriteRequest) (clientId : String)
    (fields : List String) :
    (∃ decision, policy.evaluateWrite rt request clientId fields = .ok decision) ↔
      request.Known rt := by
  constructor
  · intro h
    obtain ⟨decision, h⟩ := h
    simp only [MemoryPolicy.evaluateWrite, bindOk] at h
    obtain ⟨scope, hs, sensitivity, hv, relation, hr, status, hc, -⟩ := h
    exact ⟨⟨scope, hs⟩, ⟨sensitivity, hv⟩, ⟨relation, hr⟩, ⟨status, hc⟩⟩
  · intro known
    obtain ⟨⟨scope, hs⟩, ⟨sensitivity, hv⟩, ⟨relation, hr⟩, ⟨status, hc⟩⟩ := known
    simp only [MemoryPolicy.evaluateWrite, hs, hv, hr, hc, okBind]
    split
    · exact ⟨_, rfl⟩
    · split
      · exact ⟨_, rfl⟩
      · split
        · exact ⟨_, rfl⟩
        · split
          · exact ⟨_, rfl⟩
          · exact ⟨_, rfl⟩

/-- A write item that passes the checks made before its transaction. -/
structure WriteItem.Readable (item : WriteItem rt) : Prop where
  valid : validateStateCandidate item.request item.candidate = .ok ()
  fields : ∃ extracted, extractedTypedFields rt item.request item.candidate = .ok extracted
  known : item.request.Known rt

theorem verdictKnown {policy : MemoryPolicy} {context : ConnectionContext} {l : Ledger}
    {request : WriteRequest} {candidate : Option StateCandidate} {judged : Verdict}
    (h : verdict rt policy context l request candidate = .ok judged) : request.Known rt := by
  unfold verdict at h
  obtain ⟨decision, asked, -⟩ := bindOk.mp h
  unfold requestDecision at asked
  obtain ⟨policyDecision, evaluated, -⟩ := bindOk.mp asked
  exact (evaluateKnown _ _ _ _).mp ⟨policyDecision, evaluated⟩

/-! ## Log rows -/

/-- A row remembers a readable item, under its own client and key, and no outcome that hangs on
the environment. -/
structure WriteLogRow.Kept (rt : Runtime) (row : WriteLogRow) : Prop where
  asked : ∃ item : WriteItem rt, item.Readable ∧ row.idempotencyKey = item.request.idempotencyKey ∧
    row.requestSha256 = ⟨row.clientId, item.request, item.candidate.map StateCandidate.payload⟩
  settled : row.outcome ≠ .needsReview
  durable : row.outcome = .rejected → ∀ reason ∈ environmentalRejectionReasons,
    row.detail ≠ [("policy_reason", .str reason)]

def WriteLogRow.key (row : WriteLogRow) : String × String := (row.clientId, row.idempotencyKey)

/-- The log of a store: one row a key, each of them kept. -/
structure Store.Logged (rt : Runtime) (s : Store) : Prop where
  single : Table.Unique WriteLogRow.key s.writeLog
  kept : ∀ row ∈ s.writeLog, row.Kept rt

theorem loggedEmpty : Store.empty.Logged rt :=
  ⟨List.nodup_nil, fun _ hr => absurd hr List.not_mem_nil⟩

theorem loadPriorSource {s : Store} {clientId key : String} {row : WriteLogRow}
    (h : loadPrior s clientId key = some row) :
    row ∈ s.writeLog ∧ row.clientId = clientId ∧ row.idempotencyKey = key := by
  have hit := List.find?_some h
  simp only [Bool.and_eq_true, decide_eq_true_eq] at hit
  exact ⟨List.mem_of_find?_eq_some h, hit⟩

theorem loadPriorNone {s : Store} {clientId key : String} :
    loadPrior s clientId key = none ↔
      ∀ row ∈ s.writeLog, ¬ (row.clientId = clientId ∧ row.idempotencyKey = key) := by
  simp [loadPrior]

theorem Store.Logged.found {s : Store} (logged : s.Logged rt) {row : WriteLogRow}
    (mem : row ∈ s.writeLog) : loadPrior s row.clientId row.idempotencyKey = some row := by
  cases h : loadPrior s row.clientId row.idempotencyKey with
  | none => exact absurd ⟨rfl, rfl⟩ (loadPriorNone.mp h row mem)
  | some other =>
    obtain ⟨inside, client, key⟩ := loadPriorSource h
    rw [Table.uniqueEq logged.single inside mem (Prod.ext client key)]

/-! ## What a write does to the log -/

def UntypedMatch.outcome : UntypedMatch → Outcome
  | .duplicate _ => .dedup
  | .contradiction _ => .conflict
  | .nearDuplicate _ => .nearDedup
  | .fresh => .inserted

theorem matchSettled {found : UntypedMatch} :
    found.outcome ≠ .needsReview ∧ found.outcome ≠ .rejected := by
  cases found <;> exact ⟨by simp [UntypedMatch.outcome], by simp [UntypedMatch.outcome]⟩

section Writes
variable {svc : WriteService} {context effective : ConnectionContext} {clock : Clock} {s t : Store}
  {request : WriteRequest} {candidate : Option StateCandidate}
  {extracted : Option ExtractedTypedFields} {query : Option (List Rat)} {outcome : WriteOutcome}

/-- An outcome that hangs on the environment rather than the request. -/
def WriteOutcome.environmental (outcome : WriteOutcome) : Prop :=
  outcome.outcome = .needsReview ∨ (outcome.outcome = .rejected ∧
    ∃ reason ∈ environmentalRejectionReasons, outcome.detail = [("policy_reason", .str reason)])

inductive Answered (rt : Runtime) (context : ConnectionContext) (clock : Clock) (s t : Store)
    (request : WriteRequest) (candidate : Option StateCandidate) (outcome : WriteOutcome) : Prop
  | replayed {prior clients sessions}
      (known : loadPrior s context.clientId request.idempotencyKey = some prior)
      (same : prior.requestSha256 = requestSha256 context request candidate)
      (registered : t = { s with clients, sessions }) (answer : outcome = outcomeFromRow prior true)
  | passing (free : loadPrior s context.clientId request.idempotencyKey = none)
      (log : t.writeLog = s.writeLog) (first : outcome.replayed = false)
      (factless : outcome.factId = none) (environmental : outcome.environmental)
  | logged (free : loadPrior s context.clientId request.idempotencyKey = none)
      (known : request.Known rt)
      (log : t.writeLog =
        s.writeLog ++ [outcome.logRow context request candidate clock.recordedAt])
      (first : outcome.replayed = false) (durable : ¬ outcome.environmental)

theorem factlessEnvironmental {decision : PolicyDecision} {writeId : Nat} :
    WriteOutcome.environmental ⟨writeId, decision.outcome, none, none, none, false, decision.detail⟩ ↔
      factlessDecisionIsDurable decision = false := by
  unfold WriteOutcome.environmental factlessDecisionIsDurable
  simp only [PolicyDecision.detail, List.cons.injEq, Prod.mk.injEq, Json.str.injEq, true_and,
    and_true]
  rcases decision.factless with rejected | review
  · simp [rejected]
  · simp [review]

theorem actionSettled {action : DecisionAction} :
    action.outcome ≠ .needsReview ∧ action.outcome ≠ .rejected := by
  cases action <;> decide

theorem appliedOutcome {applied : Applied} {l : Ledger} {found : UntypedMatch}
    (h : applyUntyped rt l request extracted found clock = .ok applied) :
    applied.result.outcome = found.outcome := by
  cases found with
  | duplicate factId =>
    cases h
    rfl
  | fresh =>
    simp only [applyUntyped, bindOk, Prod.exists] at h
    obtain ⟨l₁, factId, -, l₂, -, last⟩ := h
    cases last
    rfl
  | contradiction found =>
    simp only [applyUntyped, bindOk, Prod.exists] at h
    obtain ⟨l₁, factId, -, l₂, conflictId, -, last⟩ := h
    cases last
    rfl
  | nearDuplicate candidate =>
    simp only [applyUntyped, bindOk, Prod.exists] at h
    obtain ⟨l₁, factId, -, l₂, result, enqueue, merged, last⟩ := h
    cases last
    simp only [mergeNearDuplicate, bindOk] at merged
    obtain ⟨shield, -, merged⟩ := merged
    rcases branchOk merged with ⟨-, merged⟩ | ⟨-, merged⟩
    · simp only [bindOk] at merged
      obtain ⟨l₃, -, last⟩ := merged
      cases last
      rfl
    · simp only [bindOk] at merged
      obtain ⟨l₃, -, last⟩ := merged
      cases last
      rfl

theorem typedOutcome {applied : Applied} {l : Ledger} {slot : SlotDecision}
    {candidate : StateCandidate}
    (h : applyTyped rt l context request extracted slot candidate clock = .ok applied) :
    applied.result.outcome = slot.action.outcome := by
  unfold applyTyped at h
  split at h
  · cases h
    rfl
  · simp only [bindOk, Prod.exists] at h
    obtain ⟨l₁, c, -, l₂, factId, -, l₃, -, l₄, resolution, -, last⟩ := h
    cases last
    rfl

theorem answered (h : transact rt svc context clock s request candidate extracted query =
    .ok (t, outcome)) : Answered rt context clock s t request candidate outcome := by
  obtain ⟨clients, sessions, -, ⟨prior, known, same, rfl, rfl⟩ | ⟨free, fresh⟩⟩ := transactSource h
  · exact .replayed known same rfl rfl
  · rcases writeFreshSource fresh with ⟨decision, judged, done⟩ |
        ⟨applied, observations, observationId, judged, done, concluded⟩ |
        ⟨slot, effective, applied, observations, observationId, judged, done, concluded⟩
    · obtain ⟨answer, ⟨durable, -, rfl⟩ | ⟨ephemeral, rfl⟩⟩ := concludeFactlessSource done
      · refine .logged free (verdictKnown judged) rfl (by rw [answer]) ?_
        rw [answer, factlessEnvironmental, durable]
        exact Bool.noConfusion
      · refine .passing free rfl (by rw [answer]) (by rw [answer]) ?_
        rw [answer]
        exact factlessEnvironmental.mpr ephemeral
    · obtain ⟨l, superseded, resolutions, jobs, provenance, -, -, -, answer, rfl⟩ :=
        concludeAppliedSource concluded
      refine .logged free (verdictKnown judged) rfl (by rw [answer]) ?_
      have kind := appliedOutcome done
      rw [answer]
      intro environmental
      rcases environmental with review | ⟨rejected, -⟩
      · exact matchSettled.1 (kind.symm.trans review)
      · exact matchSettled.2 (kind.symm.trans rejected)
    · obtain ⟨l, superseded, resolutions, jobs, provenance, -, -, -, answer, rfl⟩ :=
        concludeAppliedSource concluded
      refine .logged free (verdictKnown judged) rfl (by rw [answer]) ?_
      have kind := typedOutcome done
      rw [answer]
      intro environmental
      rcases environmental with review | ⟨rejected, -⟩
      · exact actionSettled.1 (kind.symm.trans review)
      · exact actionSettled.2 (kind.symm.trans rejected)

end Writes

/-! ## The log over a run -/

section Steps
variable {svc : WriteService} {context effective : ConnectionContext} {clock : Clock} {s t : Store}
  {timed : TimedWrite rt} {query : Option (List Rat)} {outcome : WriteOutcome} {row : WriteLogRow}

theorem stepAnswered
    (authorized : svc.policy.authorizeContext rt svc.legacyAuthorized effective = .ok effective)
    (h : batchStep rt svc effective s (timed, query) = .ok (t, outcome)) :
    Answered rt effective timed.clock s t timed.item.request timed.item.candidate outcome ∧
      (timed.item.request.Known rt → timed.item.Readable) := by
  obtain ⟨extracted, valid, fields, done⟩ := batchStepSource authorized h
  exact ⟨answered done, fun known => ⟨valid, ⟨extracted, fields⟩, known⟩⟩

theorem stepGrows
    (authorized : svc.policy.authorizeContext rt svc.legacyAuthorized effective = .ok effective)
    (h : batchStep rt svc effective s (timed, query) = .ok (t, outcome)) :
    s.writeLog <+: t.writeLog := by
  cases (stepAnswered authorized h).1 with
  | replayed known same registered =>
    subst registered
    exact List.prefix_rfl
  | passing free log => simp [log]
  | logged free known log =>
    rw [log]
    exact List.prefix_append _ _

/-- The log of `s`, with rows of its own behind it. -/
def Store.Extends (rt : Runtime) (s t : Store) : Prop :=
  t.Logged rt ∧ s.writeLog <+: t.writeLog

theorem stepExtends {base : Store}
    (authorized : svc.policy.authorizeContext rt svc.legacyAuthorized effective = .ok effective)
    (h : batchStep rt svc effective s (timed, query) = .ok (t, outcome)) (ext : base.Extends rt s) :
    base.Extends rt t := by
  obtain ⟨logged, older⟩ := ext
  refine ⟨?_, older.trans (stepGrows authorized h)⟩
  obtain ⟨answer, readable⟩ := stepAnswered authorized h
  cases answer with
  | replayed known same registered =>
    rw [registered]
    exact ⟨logged.single, logged.kept⟩
  | passing free log =>
    refine ⟨?_, ?_⟩
    · rw [log]
      exact logged.single
    · rw [log]
      exact logged.kept
  | logged free known log first durable =>
    refine ⟨?_, ?_⟩
    · rw [log]
      refine Table.uniqueAppend logged.single fun row hr same => ?_
      exact loadPriorNone.mp free row hr (Prod.ext_iff.mp same)
    · rw [log]
      intro row hr
      rcases List.mem_append.mp hr with old | new
      · exact logged.kept row old
      · rw [List.mem_singleton.mp new]
        refine ⟨⟨timed.item, readable known, rfl, rfl⟩, fun review => durable (.inl review), ?_⟩
        intro rejected reason listed same
        exact durable (.inr ⟨rejected, reason, listed, same⟩)

def Operation.appends (o : Operation rt) : Bool := !o.isErasure && !o.isMerge

theorem performExtends {base : Store} {o : Operation rt} (appends : o.appends = true)
    (done : o.perform s = .ok t) (ext : base.Extends rt s) : base.Extends rt t := by
  cases o with
  | write svc context timed =>
    exact writeKeeps (P := base.Extends rt) (fun authorized _ h => stepExtends authorized h)
      meetsAlways done ext
  | writeBatch svc context writes rollbackIf completes =>
    exact batchKeeps (P := base.Extends rt) (fun authorized _ h => stepExtends authorized h)
      (fun ext => ⟨⟨ext.1.single, ext.1.kept⟩, ext.2⟩) meetsAlways done ext
  | resolveConflict svc context conflictId factId reason resolvedAt queuedAt =>
    simp only [Operation.perform, bindOk, Prod.exists] at done
    obtain ⟨effective, -, u, resolution, resolved, last⟩ := done
    cases last
    obtain ⟨clients, sessions, resolutions, jobs, l, -, same⟩ := resolveConflictSource resolved
    rw [same]
    exact ⟨⟨ext.1.single, ext.1.kept⟩, ext.2⟩
  | eraseFact => cases appends
  | mergeClusters => cases appends
  | storeEmbedding =>
    cases done
    exact ⟨⟨ext.1.single, ext.1.kept⟩, ext.2⟩

theorem historyExtends (pre : List (Operation rt)) {later : List (Operation rt)}
    (appends : ∀ o ∈ pre ++ later, o.appends = true) :
    (history pre).Extends rt (history (pre ++ later)) := by
  have start : (history pre).Logged rt :=
    (Run.invariantOf (P := Store.empty.Extends rt) (K := fun o => o.appends = true)
      (fun _ _ _ kind done => performExtends kind done)
      (fun o ho => appends o (List.mem_append_left _ ho)) ⟨loggedEmpty, List.prefix_rfl⟩).1
  unfold history
  rw [Run.runAppend]
  exact Run.invariantOf (P := (history pre).Extends rt) (K := fun o => o.appends = true)
    (fun _ _ _ kind done => performExtends kind done)
    (fun o ho => appends o (List.mem_append_right _ ho)) ⟨start, List.prefix_rfl⟩

/-! ## Answering from the log -/

/-- The registration raises nothing: what the store knows of the client and its session is what they say. -/
structure Store.Registers (s : Store) (context : ConnectionContext) : Prop where
  client : ∀ client, s.clients.find? (·.clientId = context.clientId) = some client →
    client.surface = context.surface ∧ client.disabledAt = none
  session : ∀ session, s.sessions.find? (·.isOf context) = some session → session.sameContext context = true

theorem registersFound
    (client : ∃ client, s.clients.find? (·.clientId = context.clientId) = some client ∧
      client.surface = context.surface ∧ client.disabledAt = none)
    (session : ∃ session, s.sessions.find? (·.isOf context) = some session ∧
      session.sameContext context = true) : s.Registers context where
  client other found := by
    obtain ⟨known, here, surface, enabled⟩ := client
    obtain rfl := Option.some.inj (here.symm.trans found)
    exact ⟨surface, enabled⟩
  session other found := by
    obtain ⟨known, here, shape⟩ := session
    obtain rfl := Option.some.inj (here.symm.trans found)
    exact shape

theorem Store.Registers.made (registers : s.Registers context) (now : String) :
    ∃ clients sessions, (registerClient s context now >>= fun s => registerSession s context now) =
      .ok { s with clients, sessions } := by
  have first : ∃ clients, registerClient s context now = .ok { s with clients } := by
    unfold registerClient
    cases found : s.clients.find? (·.clientId = context.clientId) with
    | none => exact ⟨_, rfl⟩
    | some client =>
      obtain ⟨surface, enabled⟩ := registers.client client found
      exact ⟨s.clients, by simp [surface, enabled, ensure, okBind]⟩
  obtain ⟨clients, first⟩ := first
  have second : ∃ sessions, registerSession { s with clients } context now = .ok { s with clients, sessions } := by
    unfold registerSession
    dsimp only
    cases found : s.sessions.find? (·.isOf context) with
    | none => exact ⟨_, rfl⟩
    | some session =>
      simp only [registers.session session found, ensure, if_true, okBind]
      exact ⟨_, rfl⟩
  obtain ⟨sessions, second⟩ := second
  exact ⟨clients, sessions, bindOk.mpr ⟨_, first, second⟩⟩

/-- The connection is new, or registered as it was before. -/
structure Store.Registrable (s : Store) (context : ConnectionContext) : Prop where
  client : ∀ client ∈ s.clients, client.clientId = context.clientId →
    client.surface = context.surface ∧ client.disabledAt = none
  session : ∀ session ∈ s.sessions, session.isOf context = true →
    session.sameContext context = true

theorem registered (now : String) (registrable : s.Registrable context) :
    ∃ clients sessions, (registerClient s context now >>= fun s => registerSession s context now) =
      .ok { s with clients, sessions } := by
  have registers : s.Registers context := by
    refine ⟨fun client found => ?_, fun session found => ?_⟩
    · exact registrable.client client (List.mem_of_find?_eq_some found) (by simpa using List.find?_some found)
    · exact registrable.session session (List.mem_of_find?_eq_some found) (by simpa using List.find?_some found)
  exact registers.made now

def idempotencyReused : Raised :=
  ⟨.idempotencyConflict, "idempotency key was already used for a different request"⟩

def WriteLogRow.answer (row : WriteLogRow) (asked : RequestPayload) (s : Store) :
    Except Raised (Store × WriteOutcome) :=
  if row.requestSha256 ≠ asked then .error idempotencyReused else .ok (s, outcomeFromRow row true)

theorem transactPrior {request : WriteRequest} {candidate : Option StateCandidate}
    {extracted : Option ExtractedTypedFields} {clients : List Client} {sessions : List Session}
    (both : (registerClient s context clock.recordedAt >>= fun s =>
      registerSession s context clock.recordedAt) = .ok { s with clients, sessions })
    (found : loadPrior s context.clientId request.idempotencyKey = some row) :
    transact rt svc context clock s request candidate extracted query =
      row.answer (requestSha256 context request candidate) { s with clients, sessions } := by
  obtain ⟨middle, first, second⟩ := bindOk.mp both
  have same : loadPrior { s with clients, sessions } context.clientId request.idempotencyKey =
      some row := found
  simp only [transact, first, second, okBind, same]
  rfl

theorem transactFresh {request : WriteRequest} {candidate : Option StateCandidate}
    {extracted : Option ExtractedTypedFields} {query : Option (List Rat)} {clients : List Client}
    {sessions : List Session}
    (both : (registerClient s context clock.recordedAt >>= fun s =>
      registerSession s context clock.recordedAt) = .ok { s with clients, sessions })
    (free : loadPrior s context.clientId request.idempotencyKey = none) :
    transact rt svc context clock s request candidate extracted query =
      writeFresh rt svc context clock { s with clients, sessions } request candidate extracted query := by
  obtain ⟨middle, first, second⟩ := bindOk.mp both
  have same : loadPrior { s with clients, sessions } context.clientId request.idempotencyKey = none := free
  simp only [transact, first, second, okBind, same]

theorem preparedPrior {item : WriteItem rt} (readable : item.Readable)
    (found : loadPrior s context.clientId item.request.idempotencyKey = some row) :
    prepareNearDedupQuery rt svc context s item.request item.candidate = .ok none := by
  obtain ⟨decision, evaluated⟩ :=
    (evaluateKnown svc.policy item.request context.clientId []).mpr readable.known
  have unwanted : wantsNearDedupQuery svc context s item.request item.candidate decision = false := by
    simp [wantsNearDedupQuery, found]
  simp only [prepareNearDedupQuery, evaluated, okBind, unwanted]
  split
  · rfl
  · rfl

theorem answeredPrior (readable : timed.item.Readable)
    (granted : svc.policy.authorizeContext rt svc.legacyAuthorized context = .ok effective)
    (registrable : s.Registrable effective)
    (found : loadPrior s effective.clientId timed.item.request.idempotencyKey = some row) :
    ∃ clients sessions,
      write rt svc context timed.clock s timed.item.request timed.item.candidate =
        row.answer (requestSha256 effective timed.item.request timed.item.candidate)
          { s with clients, sessions } ∧
      ∀ query, batchStep rt svc effective s (timed, query) =
        row.answer (requestSha256 effective timed.item.request timed.item.candidate)
          { s with clients, sessions } := by
  obtain ⟨extracted, fields⟩ := readable.fields
  obtain ⟨clients, sessions, both⟩ := registered timed.clock.recordedAt registrable
  refine ⟨clients, sessions, ?_, fun query => ?_⟩
  · simp only [write, granted, readable.valid, fields, preparedPrior readable found, okBind]
    exact transactPrior both found
  · simp only [batchStep, writePrepared, (authorizeTwice granted).2, readable.valid, fields, okBind]
    exact transactPrior both found

theorem keptReadable (kept : row.Kept rt)
    (same : row.requestSha256 = requestSha256 effective timed.item.request timed.item.candidate) :
    timed.item.Readable := by
  obtain ⟨item, readable, -, asked⟩ := kept.asked
  rw [asked] at same
  obtain ⟨client, request, payload⟩ := RequestPayload.mk.inj same
  have candidate := Option.map_injective (fun _ _ => payloadInjective) payload
  refine ⟨?_, ?_, ?_⟩
  · rw [← request, ← candidate]
    exact readable.valid
  · rw [← request, ← candidate]
    exact readable.fields
  · rw [← request]
    exact readable.known

/-! ## Idempotent replay -/

/-- What the log of a store promises every request that follows, alone or in a batch. -/
structure Store.Idempotent (rt : Runtime) (s : Store) : Prop where
  single : Table.Unique WriteLogRow.key s.writeLog
  /-- An equal request is answered by its row and changes registrations alone. -/
  replays : ∀ (svc : WriteService) (context effective : ConnectionContext) (timed : TimedWrite rt),
    ∀ row ∈ s.writeLog,
    svc.policy.authorizeContext rt svc.legacyAuthorized context = .ok effective →
    s.Registrable effective → row.key = (effective.clientId, timed.item.request.idempotencyKey) →
    row.requestSha256 = requestSha256 effective timed.item.request timed.item.candidate →
    ∃ clients sessions,
      write rt svc context timed.clock s timed.item.request timed.item.candidate =
        .ok ({ s with clients, sessions }, outcomeFromRow row true) ∧
      ∀ query, batchStep rt svc effective s (timed, query) =
        .ok ({ s with clients, sessions }, outcomeFromRow row true)
  /-- A different request is refused. -/
  refuses : ∀ (svc : WriteService) (context effective : ConnectionContext) (timed : TimedWrite rt),
    ∀ row ∈ s.writeLog,
    svc.policy.authorizeContext rt svc.legacyAuthorized context = .ok effective →
    row.key = (effective.clientId, timed.item.request.idempotencyKey) →
    row.requestSha256 ≠ requestSha256 effective timed.item.request timed.item.candidate →
    (∀ answer, write rt svc context timed.clock s timed.item.request timed.item.candidate ≠
      .ok answer) ∧
    (∀ query answer, batchStep rt svc effective s (timed, query) ≠ .ok answer) ∧
    (timed.item.Readable → s.Registrable effective →
      write rt svc context timed.clock s timed.item.request timed.item.candidate =
        .error idempotencyReused ∧
      ∀ query, batchStep rt svc effective s (timed, query) = .error idempotencyReused)
  /-- A first answer that hangs on the environment leaves its key free. -/
  passes : ∀ (svc : WriteService) (effective : ConnectionContext) (timed : TimedWrite rt)
    (query : Option (List Rat)) (t : Store) (outcome : WriteOutcome),
    svc.policy.authorizeContext rt svc.legacyAuthorized effective = .ok effective →
    batchStep rt svc effective s (timed, query) = .ok (t, outcome) → outcome.environmental →
    t.writeLog = s.writeLog ∧
      loadPrior t effective.clientId timed.item.request.idempotencyKey = none
  /-- Every other answer is the row of its key from then on. -/
  remembers : ∀ (svc : WriteService) (effective : ConnectionContext) (timed : TimedWrite rt)
    (query : Option (List Rat)) (t : Store) (outcome : WriteOutcome),
    svc.policy.authorizeContext rt svc.legacyAuthorized effective = .ok effective →
    batchStep rt svc effective s (timed, query) = .ok (t, outcome) → ¬ outcome.environmental →
    ∃ row ∈ t.writeLog, row.key = (effective.clientId, timed.item.request.idempotencyKey) ∧
      row.requestSha256 = requestSha256 effective timed.item.request timed.item.candidate ∧
      outcome = outcomeFromRow row outcome.replayed

theorem Store.Logged.answers (logged : s.Logged rt) (mem : row ∈ s.writeLog)
    (key : row.key = (effective.clientId, timed.item.request.idempotencyKey)) :
    loadPrior s effective.clientId timed.item.request.idempotencyKey = some row := by
  obtain ⟨client, same⟩ := Prod.mk.inj key
  rw [← client, ← same]
  exact logged.found mem

theorem Store.Logged.refuses {row : WriteLogRow} (logged : s.Logged rt) (mem : row ∈ s.writeLog)
    (authorized : svc.policy.authorizeContext rt svc.legacyAuthorized effective = .ok effective)
    (key : row.key = (effective.clientId, timed.item.request.idempotencyKey))
    (differs : row.requestSha256 ≠ requestSha256 effective timed.item.request timed.item.candidate) :
    batchStep rt svc effective s (timed, query) ≠ .ok (t, outcome) := by
  intro done
  have found := logged.answers mem key
  cases (stepAnswered authorized done).1 with
  | replayed known same =>
    rw [found] at known
    cases known
    exact differs same
  | passing free =>
    rw [found] at free
    cases free
  | logged free =>
    rw [found] at free
    cases free

theorem Store.Logged.idempotent (logged : s.Logged rt) : s.Idempotent rt where
  single := logged.single
  replays := by
    intro svc context effective timed row mem granted registrable key same
    obtain ⟨clients, sessions, alone, batched⟩ := answeredPrior (keptReadable (logged.kept row mem) same)
      granted registrable (logged.answers mem key)
    refine ⟨clients, sessions, ?_, fun query => ?_⟩
    · rw [alone, WriteLogRow.answer, if_neg (not_not.mpr same)]
    · rw [batched, WriteLogRow.answer, if_neg (not_not.mpr same)]
  refuses := by
    intro svc context effective timed row mem granted key differs
    refine ⟨fun answer done => ?_, fun query answer done => ?_, fun readable registrable => ?_⟩
    · obtain ⟨other, query, again, -, stepped⟩ := writeStep done
      rw [granted] at again
      cases again
      exact logged.refuses mem (authorizeTwice granted).2 key differs stepped
    · exact logged.refuses mem (authorizeTwice granted).2 key differs done
    · obtain ⟨clients, sessions, alone, batched⟩ :=
        answeredPrior readable granted registrable (logged.answers mem key)
      refine ⟨?_, fun query => ?_⟩
      · rw [alone, WriteLogRow.answer, if_pos differs]
      · rw [batched, WriteLogRow.answer, if_pos differs]
  passes := by
    intro svc effective timed query t outcome authorized done environmental
    cases (stepAnswered authorized done).1 with
    | replayed known same registered answer =>
      obtain ⟨mem, -⟩ := loadPriorSource known
      have kept := logged.kept _ mem
      rw [answer] at environmental
      rcases environmental with review | ⟨rejected, reason, listed, detail⟩
      · exact absurd review kept.settled
      · exact absurd detail (kept.durable rejected reason listed)
    | passing free log =>
      refine ⟨log, ?_⟩
      rw [loadPriorNone, log]
      exact loadPriorNone.mp free
    | logged free known log first durable => exact absurd environmental durable
  remembers := by
    intro svc effective timed query t outcome authorized done durable
    cases (stepAnswered authorized done).1 with
    | replayed known same registered answer =>
      obtain ⟨mem, client, key⟩ := loadPriorSource known
      refine ⟨_, ?_, Prod.ext client key, same, ?_⟩
      · rw [registered]
        exact mem
      · rw [answer]
        rfl
    | passing free log first factless environmental => exact absurd environmental durable
    | logged free known log first =>
      refine ⟨outcome.logRow effective timed.item.request timed.item.candidate
        timed.clock.recordedAt, ?_, rfl, rfl, rfl⟩
      rw [log]
      exact List.mem_append_right _ List.mem_cons_self

/-- A store a run passes through: between two operations, or inside a batch. -/
inductive Passes (ops : List (Operation rt)) : Store → Prop
  | between {pre post} (shape : ops = pre ++ post) : Passes ops (history pre)
  | within {pre svc context writes rollbackIf completes post effective prepared done rest s outcomes}
      (shape : ops = pre ++ .writeBatch svc context writes rollbackIf completes :: post)
      (granted : svc.policy.authorizeContext rt svc.legacyAuthorized context = .ok effective)
      (ready : prepareBatch rt svc effective (history pre) writes = .ok prepared)
      (split : prepared = done ++ rest)
      (ran : Batch.each (batchStep rt svc effective) (history pre) done = .ok (s, outcomes)) :
      Passes ops s

theorem passesLogged {ops : List (Operation rt)} (appends : ∀ o ∈ ops, o.appends = true)
    (passes : Passes ops s) : s.Logged rt := by
  cases passes with
  | between shape =>
    rw [shape] at appends
    exact (historyExtends [] fun o ho => appends o (List.mem_append_left _ ho)).1
  | within shape granted ready split ran =>
    rw [shape] at appends
    have before := (historyExtends [] fun o ho => appends o (List.mem_append_left _ ho)).1
    exact (itemsKeep (P := Store.empty.Extends rt) (C := fun _ _ _ _ _ => True)
      (fun authorized _ h => stepExtends authorized h) (authorizeTwice granted).2
      (fun _ _ _ _ _ _ _ => trivial) ran ⟨before, List.nil_prefix⟩).1

/-- A run of writes, alone or batched, by any services and clients over any sessions: every store
it passes through answers from its log, the log only grows, and what a write answered stays its
answer for every later retry of its item by its client. -/
theorem idempotentRun {ops : List (Operation rt)} (appends : ∀ o ∈ ops, o.appends = true) :
    (∀ s, Passes ops s → s.Idempotent rt) ∧
    (∀ pre post, ops = pre ++ post → (history pre).writeLog <+: (history ops).writeLog) ∧
    ∀ pre svc context first post t outcome, ops = pre ++ .write svc context first :: post →
      write rt svc context first.clock (history pre) first.item.request first.item.candidate =
        .ok (t, outcome) → ¬ outcome.environmental →
      ∀ (other : WriteService) (again effective : ConnectionContext) (retry : TimedWrite rt),
        other.policy.authorizeContext rt other.legacyAuthorized again = .ok effective →
        effective.clientId = context.clientId → retry.item = first.item →
        (history ops).Registrable effective →
        ∃ clients sessions,
          write rt other again retry.clock (history ops) retry.item.request retry.item.candidate =
            .ok ({ history ops with clients, sessions }, { outcome with replayed := true }) := by
  refine ⟨fun s passes => (passesLogged appends passes).idempotent, fun pre post shape => ?_, ?_⟩
  · rw [shape]
    exact (historyExtends _ (by rwa [shape] at appends)).2
  · intro pre svc context first post t outcome shape done durable other again effective retry granted
      client item registrable
    have here := (passesLogged appends (.between shape)).idempotent
    obtain ⟨asked, query, allowed, -, stepped⟩ := writeStep done
    obtain ⟨row, mem, key, same, answer⟩ :=
      here.remembers svc asked first query t outcome (authorizeTwice allowed).2 stepped durable
    have reached : history (pre ++ [.write svc context first]) = t := by
      unfold history at done ⊢
      rw [Run.runAppend]
      simp only [Run.run, List.foldl_cons, List.foldl_nil, Run.attempt, Operation.perform] at done ⊢
      rw [done]
      rfl
    have whole : ops = (pre ++ [.write svc context first]) ++ post := by
      rw [shape, List.append_assoc]
      rfl
    have older : t.writeLog <+: (history ops).writeLog := by
      rw [← reached, whole]
      exact (historyExtends _ (by rwa [whole] at appends)).2
    have identity : asked.clientId = effective.clientId := by
      rw [client, (authorizeTwice allowed).1]
    have later := (passesLogged appends (.between (List.append_nil ops).symm)).idempotent
    obtain ⟨clients, sessions, alone, -⟩ := later.replays other again effective retry row
      (older.subset mem) granted registrable (by rw [key, identity, item])
      (by rw [same, requestSha256, requestSha256, identity, item])
    refine ⟨clients, sessions, ?_⟩
    rw [alone, answer]
    rfl

end Steps
namespace Example

def reconnected : ConnectionContext := .plain "host" "cli" "agent" "later" ["private"]

theorem idempotentRunHere : ∃ t outcome clients sessions,
    write .plain trusted caller lima.clock .empty lima.item.request lima.item.candidate =
      .ok (t, outcome) ∧
    write .plain trusted reconnected oslo.clock
        (history [.write trusted caller lima, .write trusted caller oslo]) lima.item.request
        lima.item.candidate =
      .ok ({ history [.write trusted caller lima, .write trusted caller oslo] with
        clients, sessions }, { outcome with replayed := true }) := by
  have wrote : (write .plain trusted caller lima.clock .empty lima.item.request
      lima.item.candidate).toOption.map (fun answer => answer.2.outcome) = some .add := by
    decide +kernel
  obtain ⟨⟨t, outcome⟩, first, kind⟩ := Option.map_eq_some_iff.mp wrote
  have appends : ∀ o ∈ ([.write trusted caller lima, .write trusted caller oslo] :
      List (Operation .plain)), o.appends = true := by
    intro o ho
    simp only [List.mem_cons, List.not_mem_nil, or_false] at ho
    rcases ho with rfl | rfl <;> rfl
  obtain ⟨clients, sessions, again⟩ := (idempotentRun appends).2.2
    [] trusted caller lima _ t outcome rfl (okOfOption first) (by
        intro environmental
        rcases environmental with review | ⟨rejected, -⟩
        · rw [kind] at review
          cases review
        · rw [kind] at rejected
          cases rejected)
    trusted reconnected reconnected { oslo with item := lima.item } (okOfOption (by decide +kernel)) rfl
    rfl ⟨by decide +kernel, by decide +kernel⟩
  exact ⟨t, outcome, clients, sessions, okOfOption first, again⟩

end Example
end Enfold
