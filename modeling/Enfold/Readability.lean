import Enfold.Replay
import Enfold.TypedAnswers
import Enfold.WriteAnswers

/-! What an accepted write answers with: a row of its own, which its writer recalls, or a stored fact
that the lookups met, which the writer recalls only if it did before. -/
namespace Enfold

open Fallible

variable {rt : Runtime} {svc : WriteService} {context effective : ConnectionContext} {clock : Clock}
  {s t : Store} {l l' : Ledger} {request : WriteRequest} {candidate : Option StateCandidate}
  {extracted : Option ExtractedTypedFields} {query : Option (List Rat)} {outcome : WriteOutcome}

/-- The predicates of default recall on one row, for a client that may read these scopes. -/
def Fact.readableBy (accessScopes : List String) (f : Fact) : Bool :=
  f.active && f.correctionStatus ≠ some "unreviewed" && scopeAuthorized f.scope accessScopes &&
    f.visibleIn (accessScopes ++ [f.scope])

def Outcome.accepted : Outcome → Bool
  | .inserted | .add | .supersede | .dedup | .nearDedup => true
  | .conflict | .rejected | .needsReview => false

-- the stored fact an untyped write answers with
def UntypedMatch.kept (l : Ledger) (request : WriteRequest) (recordedAt : String) :
    UntypedMatch → Option Nat
  | .duplicate factId => some factId
  | .nearDuplicate near =>
    if (l.fact near.factId).any (·.protectedFrom request) || !near.outrankedBy request recordedAt then
      some near.factId
    else none
  | .contradiction _ => none
  | .fresh => none

/-- The stored fact a write answers with, if it stores none of its own. -/
def metFact (rt : Runtime) (svc : WriteService) (context : ConnectionContext) (clock : Clock) (s : Store)
    (request : WriteRequest) (candidate : Option StateCandidate)
    (extracted : Option ExtractedTypedFields) (query : Option (List Rat)) : Option Nat :=
  match verdict rt svc.policy context s.toLedger request candidate with
  | .ok .untyped =>
    (untypedMatch rt svc s request extracted query).kept s.toLedger request clock.recordedAt
  | .ok (.typed slot _) => slot.evidence
  | _ => none

def Ledger.reads (l : Ledger) (accessScopes : List String) (factId : Nat) : Prop :=
  ∃ f ∈ l.facts, f.factId = factId ∧ f.readableBy accessScopes = true

theorem Superseded.spares {survivor : Nat} {now : String} (h : Superseded l request survivor now l')
    {f : Fact} (id : f.factId = survivor) : f ∈ l'.facts ↔ f ∈ l.facts := by
  cases h with
  | unasked => exact Iff.rfl
  | @retired old _ _ _ apart =>
    show f ∈ Table.amend _ _ _ ↔ _
    rw [Table.memAmend]
    constructor
    · rintro ⟨g, hg, rfl⟩
      split at id
      · rename_i hit
        exact absurd ((of_decide_eq_true hit).symm.trans id) apart
      · rename_i missed
        rwa [if_neg missed]
    · intro hf
      refine ⟨f, hf, ?_⟩
      rw [if_neg]
      intro hit
      exact apart ((of_decide_eq_true hit).symm.trans id)

theorem Superseded.reads {survivor : Nat} {now : String} (h : Superseded l request survivor now l')
    {accessScopes : List String} : l'.reads accessScopes survivor ↔ l.reads accessScopes survivor := by
  refine exists_congr fun f => ⟨fun ⟨hf, id, seen⟩ => ?_, fun ⟨hf, id, seen⟩ => ?_⟩
  · exact ⟨(h.spares id).mp hf, id, seen⟩
  · exact ⟨(h.spares id).mpr hf, id, seen⟩

theorem readsInsert (keyed : l.Keyed) {g : Fact} {accessScopes : List String} {factId : Nat}
    (fresh : g.factId = l.nextFactId) (known : ∃ f ∈ l.facts, f.factId = factId) :
    (l.insert g).reads accessScopes factId ↔ l.reads accessScopes factId := by
  obtain ⟨f, hf, rfl⟩ := known
  have bound := keyed.factBound f hf
  refine exists_congr fun h => and_congr_left fun ⟨id, _⟩ => ?_
  show h ∈ l.facts ++ [g] ↔ _
  rw [List.mem_append, List.mem_singleton]
  refine or_iff_left fun same => ?_
  rw [same, fresh] at id
  omega

theorem requestGranted {policy : MemoryPolicy}
    (h : requestDecision rt policy context l request candidate = .ok none) :
    scopeAuthorized request.scope context.accessScopes = true ∧
      Text.strip request.scope = request.scope := by
  unfold requestDecision at h
  obtain ⟨decision, evaluated, h⟩ := bindOk.mp h
  obtain ⟨⟨scope, known⟩, -⟩ := (evaluateKnown _ _ _ _).mp ⟨_, evaluated⟩
  cases decision with
  | some decision => cases h
  | none =>
    dsimp only at h
    split at h
    · cases h
    · rename_i granted
      unfold validateScope at known
      split at known
      · rename_i listed
        exact ⟨by simpa using granted, knownScopeKept listed⟩
      · cases known

theorem freshReadable {f : Fact} (active : f.active = true)
    (reviewed : f.correctionStatus ≠ some "unreviewed") (scope : f.scope = request.scope)
    (granted : scopeAuthorized request.scope context.accessScopes = true)
    (normal : f.sensitivity = "normal") : f.readableBy context.accessScopes = true := by
  rw [← scope] at granted
  simp [Fact.readableBy, active, reviewed, granted, Fact.visibleIn, normal]

theorem storedActive {factId : Nat} {now : String} :
    (request.stored extracted factId now).active = true := by
  cases extracted <;> rfl

theorem keptNear (keyed : l.Keyed) {f : Fact} {near : NearDuplicateCandidate} {now : String}
    (mem : f ∈ l.facts) (id : f.factId = near.factId) :
    UntypedMatch.kept l request now (.nearDuplicate near) =
      if f.protectedFrom request || !near.outrankedBy request now then some near.factId else none := by
  rw [UntypedMatch.kept, ← id, keyed.find mem]
  rfl

theorem untypedReadable {found : UntypedMatch} {result : FactWriteResult} (keyed : l.Keyed)
    (known : found.Known l request) (effect : UntypedEffect l request extracted clock found l' result)
    (granted : scopeAuthorized request.scope context.accessScopes = true)
    (kept : Text.strip request.scope = request.scope) (normal : request.sensitivity = "normal")
    (reviewed : request.correctionStatus ≠ some "unreviewed") (accepted : result.outcome.accepted = true) :
    l'.reads context.accessScopes result.factId ↔
      ∀ factId ∈ found.kept l request clock.recordedAt, l.reads context.accessScopes factId := by
  have fresh {f : Fact} (active : f.active = true) (status : f.correctionStatus = request.correctionStatus)
      (scope : f.scope = Text.strip request.scope)
      (sensitivity : f.sensitivity = Text.strip request.sensitivity) :
      f.readableBy context.accessScopes = true := by
    refine freshReadable active (by rwa [status]) (scope.trans kept) granted ?_
    rw [sensitivity, normal]
    decide
  cases effect with
  | @duplicate factId => simp [UntypedMatch.kept]
  | fresh kind =>
    have row : request.Stores l (request.stored extracted l.nextFactId clock.insertedAt) :=
      (storedRow kind).1
    refine iff_of_true ⟨_, List.mem_concat_self, row.factId, ?_⟩ nofun
    exact fresh storedActive row.correctionStatus row.scope row.sensitivity
  | dispute => cases accepted
  | @wins near f mem id here open' ahead =>
    refine iff_of_true ⟨_, List.mem_concat_self, rfl, fresh rfl rfl rfl rfl⟩ ?_
    rw [keptNear keyed mem id, open', ahead]
    nofun
  | @loses near f mem id here behind =>
    rw [keptNear keyed mem id, if_pos (by simpa using behind)]
    refine (readsInsert keyed rfl ⟨f, mem, id⟩).trans ?_
    simp

theorem typedReadable {slot : SlotDecision} {c : StateCandidate} {confidence : Option Rat}
    {result : FactWriteResult} (keyed : l.Keyed)
    (effect : StateEffect rt l context request slot c confidence clock l')
    (answers : (∃ target, slot.evidence = some target ∧
        result = ⟨target, slot.action.outcome, some target⟩) ∨
      (slot.evidence = none ∧ result = ⟨l.nextFactId, slot.action.outcome, none⟩))
    (granted : scopeAuthorized request.scope context.accessScopes = true)
    (scope : c.scope = request.scope) (openEnded : c.validTo = none)
    (normal : request.sensitivity = "normal")
    (reviewed : request.correctionStatus ≠ some "unreviewed") (accepted : result.outcome.accepted = true) :
    l'.reads context.accessScopes result.factId ↔
      ∀ factId ∈ slot.evidence, l.reads context.accessScopes factId := by
  have fresh {g : Option Nat} (calm : g = none) :
      (request.typed c g confidence l.nextFactId clock).readableBy context.accessScopes = true := by
    refine freshReadable ?_ reviewed scope granted ?_
    · simp [WriteRequest.typed, Fact.persistState, Fact.active, Fact.current, openEnded, calm, WriteRequest.row]
    · show Text.strip request.sensitivity = "normal"
      rw [normal]
      decide
  rcases answers with ⟨target, known, rfl⟩ | ⟨unknown, rfl⟩
  · cases effect with
    | evidence => simp [known]
    | add unknown => rw [known] at unknown; cases unknown
    | replace action => rw [supersedeUnknown action] at known; cases known
    | dispute _ unknown => rw [known] at unknown; cases unknown
    | join _ unknown => rw [known] at unknown; cases unknown
    | settle action => rw [supersedeUnknown action] at known; cases known
  · rw [unknown]
    refine iff_of_true ?_ fun _ none => absurd none (Option.not_mem_none _)
    cases effect with
    | evidence known => rw [known] at unknown; cases unknown
    | add => exact ⟨_, List.mem_concat_self, rfl, fresh rfl⟩
    | replace => exact ⟨_, List.mem_concat_self, rfl, fresh rfl⟩
    | dispute action => rw [action] at accepted; cases accepted
    | join action => rw [action] at accepted; cases accepted
    | @settle conflictId _ _ _ _ _ _ _ _ _ _ _ _ resolved =>
      have inserted := keyed.insert
        (g := request.typed c (some conflictId) confidence l.nextFactId clock) rfl
      obtain ⟨-, w, -, -, -, rfl, -⟩ := resolveStateConflictSource inserted.join resolved
      refine ⟨_, List.mem_map_of_mem List.mem_concat_self, resolvedId, ?_⟩
      rw [Fact.resolved, if_pos (show (request.typed c (some conflictId) confidence l.nextFactId
        clock).factId = l.nextFactId from rfl)]
      exact fresh (g := none) rfl

/-- An accepted write answers with a fact its writer recalls exactly when it stored one, or the
stored fact it met was recalled before. -/
theorem acceptedReadable {ops : List (Operation rt)} {timed : TimedWrite rt}
    (done : write rt svc context timed.clock (history ops) timed.item.request timed.item.candidate =
      .ok (t, outcome))
    (normal : timed.item.request.sensitivity = "normal")
    (reviewed : timed.item.request.correctionStatus ≠ some "unreviewed")
    (openEnded : ∀ c ∈ timed.item.candidate, c.validTo = none)
    (new : outcome.replayed = false) (accepted : outcome.outcome.accepted = true) :
    ∃ effective extracted query,
      svc.policy.authorizeContext rt svc.legacyAuthorized context = .ok effective ∧
      extractedTypedFields rt timed.item.request timed.item.candidate = .ok extracted ∧
      prepareNearDedupQuery rt svc effective (history ops) timed.item.request timed.item.candidate =
        .ok query ∧
      ((∃ f ∈ t.facts, outcome.factId = some f.factId ∧ f.readableBy effective.accessScopes = true) ↔
        ∀ factId ∈ metFact rt svc effective timed.clock (history ops) timed.item.request
            timed.item.candidate extracted query,
          (history ops).toLedger.reads effective.accessScopes factId) := by
  obtain ⟨effective, extracted, query, granted, valid, fields, prepared, done⟩ := writeSource done
  refine ⟨effective, extracted, query, granted, fields, prepared, ?_⟩
  have keyed : (history ops).toLedger.Keyed := historyKeyed
  have answer := transactAnswer keyed done
  have told {l : Ledger} {result : FactWriteResult} (factId : outcome.factId = some result.factId) :
      (∃ f ∈ l.facts, outcome.factId = some f.factId ∧ f.readableBy effective.accessScopes = true) ↔
        l.reads effective.accessScopes result.factId := by
    refine exists_congr fun f => and_congr_right fun _ => and_congr_left fun _ => ?_
    rw [factId, Option.some_inj]
    exact eq_comm
  show (∃ f ∈ t.toLedger.facts, _ ∧ _) ↔ _
  generalize t.toLedger = l at answer ⊢
  cases answer with
  | replayed => cases new
  | @factless decision _ _ _ kind =>
    rw [kind] at accepted
    rcases decision.factless with refused | held
    · rw [refused] at accepted; cases accepted
    · rw [held] at accepted; cases accepted
  | @untyped found l₁ result l₂ _ _ bare judged chosen effect superseded tells =>
    rw [tells.kind] at accepted
    obtain ⟨writes, kept⟩ := requestGranted (verdictUntyped judged).2
    have known : found.Known (history ops).toLedger timed.item.request := by
      rw [← chosen]
      exact untypedMatchSource.known
    rw [told tells.factId, superseded.reads, untypedReadable keyed known effect writes kept normal reviewed
      accepted, metFact, judged, ← chosen]
  | @typed c slot dated l₁ result _ _ given judged effect answers inScope tells =>
    rw [tells.kind] at accepted
    obtain ⟨c', -, same, -, decided, -⟩ := verdictTyped judged
    rw [given] at judged valid
    have built : c.postInit rt = .ok c := timed.item.candidateBuilt c given
    obtain ⟨shape, -, scope, -⟩ := typedCase built valid judged
    have ends : dated.validTo = none := by
      rw [shape]
      exact openEnded c given
    rw [told tells.factId, typedReadable keyed effect answers (requestGranted decided).1 scope ends normal
      reviewed accepted, metFact, given, judged]

namespace Example

def hearsay : TimedWrite .plain where
  clock := .at "2026-01-03"
  item := {
    request := { WriteRequest.plain "k1" "tea is green" "user" with correctionStatus := some "unreviewed" }
    candidate := none
    requestBuilt := by decide +kernel
    candidateBuilt := WriteItem.unslotted }

def stated : TimedWrite .plain where
  clock := .at "2026-01-04"
  item := {
    request := WriteRequest.plain "k2" "tea is green" "user"
    candidate := none
    requestBuilt := by decide +kernel
    candidateBuilt := WriteItem.unslotted }

def statedAgain : Except Raised (Store × WriteOutcome) :=
  write .plain trusted caller stated.clock (history [.write trusted caller hearsay]) stated.item.request
    stated.item.candidate

theorem statedUnread : ∃ t outcome, statedAgain = .ok (t, outcome) ∧ outcome.replayed = false ∧
    outcome.outcome = .dedup ∧ stated.item.request.sensitivity = "normal" ∧
    stated.item.request.correctionStatus = none ∧ stated.item.candidate = none ∧
    ∀ f ∈ t.facts, outcome.factId = some f.factId → f.readableBy caller.accessScopes = false := by
  have answer : statedAgain.toOption.any (fun done => decide (done.2.replayed = false ∧
      done.2.outcome = .dedup ∧ ∀ f ∈ done.1.facts, done.2.factId = some f.factId →
        f.readableBy caller.accessScopes = false)) = true := by
    decide +kernel
  obtain ⟨⟨t, outcome⟩, done, seen⟩ := (Option.any_eq_true _ _).mp answer
  obtain ⟨new, kind, unread⟩ := of_decide_eq_true seen
  exact ⟨t, outcome, okOfOption done, new, kind, rfl, rfl, rfl, unread⟩

theorem acceptedReadableHere : ∃ t outcome effective extracted query, statedAgain = .ok (t, outcome) ∧
    trusted.policy.authorizeContext .plain trusted.legacyAuthorized caller = .ok effective ∧
    extractedTypedFields .plain stated.item.request stated.item.candidate = .ok extracted ∧
    prepareNearDedupQuery .plain trusted effective (history [.write trusted caller hearsay])
      stated.item.request stated.item.candidate = .ok query ∧
    ((∃ f ∈ t.facts, outcome.factId = some f.factId ∧ f.readableBy effective.accessScopes = true) ↔
      ∀ factId ∈ metFact .plain trusted effective stated.clock (history [.write trusted caller hearsay])
          stated.item.request stated.item.candidate extracted query,
        (history [.write trusted caller hearsay]).toLedger.reads effective.accessScopes factId) := by
  have answer : statedAgain.toOption.any (fun done => decide (done.2.replayed = false ∧
      done.2.outcome.accepted = true)) = true := by
    decide +kernel
  obtain ⟨⟨t, outcome⟩, done, seen⟩ := (Option.any_eq_true _ _).mp answer
  obtain ⟨new, accepted⟩ := of_decide_eq_true seen
  obtain ⟨effective, extracted, query, facts⟩ := acceptedReadable (okOfOption done) rfl
    (show stated.item.request.correctionStatus ≠ some "unreviewed" by nofun) nofun new accepted
  exact ⟨t, outcome, effective, extracted, query, okOfOption done, facts⟩

end Example

end Enfold
