import Enfold.ServiceRequests
import Enfold.WriteAnswers
import Enfold.TypedAnswers

/-! What promotion makes of a fact that recall withholds. The promoted fact is written anew under the
target scope, and neither the review status nor the dispute of its source goes with it. -/
namespace Enfold

open Fallible

variable {rt : Runtime} {svc : WriteService} {context effective : ConnectionContext} {clock : Clock}
  {s t : Store} {source : Fact} {request : WriteRequest} {query : Option (List Rat)}
  {outcome : WriteOutcome}

-- unreviewed, or a member of an unresolved dispute
def Fact.withheld (f : Fact) : Prop :=
  f.correctionStatus = some "unreviewed" ∨ f.conflictGroup ≠ none

/-- What default recall asks of a row in a durable scope. -/
def Fact.durablyRecalled (f : Fact) : Prop :=
  f.active = true ∧ f.correctionStatus ≠ some "unreviewed" ∧ isRunScope f.scope = false

/-- The write a promotion comes down to. -/
structure Promotes (rt : Runtime) (svc : WriteService) (context : ConnectionContext) (s : Store)
    (params : JsonObject) (source : Fact) (request : WriteRequest) (effective : ConnectionContext)
    (query : Option (List Rat)) : Prop where
  named : ∃ factId : Nat, params.lookup "fact_id" = some (.int factId) ∧ s.fact factId = some source
  current : source.current = true
  asked : ∃ key target, readText "idempotency_key" ((params.lookup "idempotency_key").getD .null) = .ok key ∧
    (readText "target_scope" ((params.lookup "target_scope").getD (.str "private")) >>= fun text =>
      mapFailure batchFailure (validateScope rt text)) = .ok target ∧
    prepareWrite rt context (promotionParams key target source) = .ok (request, none)
  content : request.content = Text.strip source.content
  durable : isRunScope request.scope = false ∧ Text.strip request.scope = request.scope
  unmarked : request.correctionStatus = none
  additive : request.supersedeFactId = none
  promoted : request.sourceType = "promotion"
  granted : svc.policy.authorizeContext rt svc.legacyAuthorized context = .ok effective
  prepared : prepareNearDedupQuery rt svc effective s request none = .ok query

instance (f : Fact) : Decidable f.durablyRecalled :=
  inferInstanceAs (Decidable (_ ∧ _ ∧ _))

instance (f : Fact) : Decidable f.withheld := inferInstanceAs (Decidable (_ ∨ _))

theorem promotionRequest {key target : String} {candidate : Option StateCandidate}
    (known : Text.strip target = target)
    (h : prepareWrite rt context (promotionParams key target source) = .ok (request, candidate)) :
    candidate = none ∧ request.content = Text.strip source.content ∧ request.scope = target ∧
      request.correctionStatus = none ∧ request.supersedeFactId = none ∧
      request.sourceType = "promotion" := by
  obtain ⟨content, kind, scope, status, old, state⟩ := prepareWriteSource h
  obtain ⟨text, same, text', -⟩ := readTextSource content
  obtain ⟨kindText, same', kind', -⟩ := readTextSource kind
  obtain ⟨scopeText, same'', scope', -⟩ := readTextSource scope
  cases same
  cases same'
  cases same''
  exact ⟨(Except.ok.inj state).symm, text', scope'.trans known, (Except.ok.inj status).symm,
    (Except.ok.inj old).symm, kind'.trans (by decide)⟩

theorem promoteSource {params : JsonObject}
    (h : promote rt svc context clock s params = .ok (t, outcome)) :
    ∃ source request effective query, Promotes rt svc context s params source request effective query ∧
      transact rt svc effective clock s request none none query = .ok (t, outcome) := by
  simp only [promote, bindOk, ensureOk, Bool.not_eq_true'] at h
  obtain ⟨-, -, factId, factHere, target, targetHere, scope, scopeHere, -, durable, -, -, h⟩ := h
  split at h
  · cases h
  · rename_i source found
    simp only [bindOk, ensureOk] at h
    obtain ⟨-, -, -, -, -, current, key, keyHere, h⟩ := h
    simp only [serviceWrite, mapFailureOk, bindOk, Prod.exists] at h
    obtain ⟨request, candidate, asked, h⟩ := h
    obtain ⟨given, -, shape, -⟩ := readTextSource targetHere
    have placed : (readText "target_scope" ((params.lookup "target_scope").getD (.str "private")) >>= fun text =>
        mapFailure batchFailure (validateScope rt text)) = .ok scope := bindOk.mpr ⟨target, targetHere, scopeHere⟩
    have same := validateScopeSource (mapFailureOk.mp scopeHere)
    have known : Text.strip scope = scope := by rw [same, shape, Text.stripTwice]
    obtain ⟨rfl, content, inScope, unmarked, additive, promoted⟩ := promotionRequest known asked
    obtain ⟨effective, extracted, query, granted, -, fields, prepared, done⟩ := writeSource h
    have untyped : extracted = none := by
      rw [extractedTypedFields, if_pos (by rw [promoted]; decide)] at fields
      exact (Except.ok.inj fields).symm
    subst untyped
    refine ⟨source, request, effective, query, ?_, done⟩
    refine ⟨⟨factId, ?_, found⟩, current, ⟨key, scope, keyHere, placed, asked⟩, content,
      ⟨by rw [inScope]; exact durable, by rw [inScope]; exact known⟩, unmarked, additive, promoted, granted, prepared⟩
    unfold readPositiveInt at factHere
    split at factHere
    · rename_i i lookup
      split at factHere
      · rename_i positive
        cases factHere
        cases given' : params.lookup "fact_id" with
        | none => rw [given'] at lookup; cases lookup
        | some value =>
          rw [given'] at lookup
          cases lookup
          rw [Int.toNat_of_nonneg (by omega)]
      · cases factHere
    · cases factHere

/-- The promotion makes nothing new that recall gives out: its logged answer is withheld itself, it is
refused, or it meets a claim of the target scope that disputes it or is unreviewed and kept. -/
inductive Contained (rt : Runtime) (svc : WriteService) (context : ConnectionContext) (clock : Clock)
    (s : Store) (request : WriteRequest) (query : Option (List Rat)) : Prop
  | replayed {prior} (logged : loadPrior s context.clientId request.idempotencyKey = some prior)
      (withheld : ∀ f ∈ s.facts, prior.factId = some f.factId → ¬ f.durablyRecalled)
  | refused {decision} (free : loadPrior s context.clientId request.idempotencyKey = none)
      (judged : verdict rt svc.policy context s.toLedger request none = .ok (.factless decision))
  | disputed {found} (free : loadPrior s context.clientId request.idempotencyKey = none)
      (judged : verdict rt svc.policy context s.toLedger request none = .ok .untyped)
      (contradicts : untypedMatch rt svc s request none query = .contradiction found)
  | duplicate {factId f} (free : loadPrior s context.clientId request.idempotencyKey = none)
      (judged : verdict rt svc.policy context s.toLedger request none = .ok .untyped)
      (same : untypedMatch rt svc s request none query = .duplicate factId) (inside : f ∈ s.facts)
      (id : f.factId = factId) (unreviewed : f.correctionStatus = some "unreviewed")
  | merged {near f} (free : loadPrior s context.clientId request.idempotencyKey = none)
      (judged : verdict rt svc.policy context s.toLedger request none = .ok .untyped)
      (nearby : untypedMatch rt svc s request none query = .nearDuplicate near) (inside : f ∈ s.facts)
      (id : f.factId = near.factId) (unreviewed : f.correctionStatus = some "unreviewed")
      (kept : f.protectedFrom request = true ∨ near.outrankedBy request clock.recordedAt = false)

theorem containedUntyped (free : loadPrior s context.clientId request.idempotencyKey = none)
    (judged : verdict rt svc.policy context s.toLedger request none = .ok .untyped) :
    Contained rt svc context clock s request query ↔
      match untypedMatch rt svc s request none query with
      | .contradiction _ => True
      | .duplicate factId => ∃ f ∈ s.facts, f.factId = factId ∧ f.correctionStatus = some "unreviewed"
      | .nearDuplicate near => ∃ f ∈ s.facts, f.factId = near.factId ∧
          f.correctionStatus = some "unreviewed" ∧
          (f.protectedFrom request = true ∨ near.outrankedBy request clock.recordedAt = false)
      | .fresh => False := by
  constructor
  · intro contained
    cases contained with
    | replayed logged => rw [free] at logged; cases logged
    | refused _ refused => rw [judged] at refused; cases refused
    | disputed _ _ contradicts => rw [contradicts]; trivial
    | duplicate _ _ same inside id unreviewed => rw [same]; exact ⟨_, inside, id, unreviewed⟩
    | merged _ _ nearby inside id unreviewed kept => rw [nearby]; exact ⟨_, inside, id, unreviewed, kept⟩
  · intro met
    cases found : untypedMatch rt svc s request none query with
    | contradiction => exact .disputed free judged found
    | duplicate =>
      rw [found] at met
      obtain ⟨f, inside, id, unreviewed⟩ := met
      exact .duplicate free judged found inside id unreviewed
    | nearDuplicate =>
      rw [found] at met
      obtain ⟨f, inside, id, unreviewed, kept⟩ := met
      exact .merged free judged found inside id unreviewed kept
    | fresh => rw [found] at met; exact met.elim

theorem openRecalled {f : Fact} {scope : String} (here : f.openIn scope = true)
    (durable : isRunScope scope = false) :
    f.durablyRecalled ↔ f.correctionStatus ≠ some "unreviewed" := by
  simp only [Fact.openIn, Bool.and_eq_true, decide_eq_true_eq] at here
  obtain ⟨⟨inScope, current⟩, calm⟩ := here
  refine ⟨fun recalled => recalled.2.1, fun reviewed => ⟨?_, reviewed, ?_⟩⟩
  · rw [Fact.active, current, calm]
    rfl
  · rw [inScope]
    exact durable

theorem rowRecalled {factId : Nat} {now : String} (unmarked : request.correctionStatus = none)
    (durable : isRunScope request.scope = false) (kept : Text.strip request.scope = request.scope) :
    (request.row factId now).durablyRecalled := by
  refine ⟨rfl, ?_, ?_⟩
  · show request.correctionStatus ≠ some "unreviewed"
    rw [unmarked]
    nofun
  · show isRunScope (Text.strip request.scope) = false
    rw [kept]
    exact durable

theorem promotionContained {params : JsonObject} (keyed : s.toLedger.Keyed)
    (promotes : Promotes rt svc context s params source request effective query)
    (done : transact rt svc effective clock s request none none query = .ok (t, outcome)) :
    (∀ f ∈ t.facts, outcome.factId = some f.factId → ¬ f.durablyRecalled) ↔
      Contained rt svc effective clock s request query := by
  have after := (transactEffect keyed done).keyed keyed
  have answer := transactAnswer keyed done
  obtain ⟨durable, kept⟩ := promotes.durable
  show (∀ f ∈ t.toLedger.facts, outcome.factId = some f.factId → ¬ f.durablyRecalled) ↔ _
  generalize t.toLedger = l at answer after ⊢
  cases answer with
  | @replayed prior found same =>
    constructor
    · intro withheld
      exact .replayed found withheld
    · intro contained
      cases contained with
      | replayed logged withheld =>
        rw [found] at logged
        cases logged
        exact withheld
      | _ free => rw [found] at free; cases free
  | factless free judged kind none' fresh =>
    refine ⟨fun _ => .refused free judged, fun _ f _ answered => ?_⟩
    rw [none'] at answered
    cases answered
  | typed _ given => cases given
  | @untyped found l₁ result l₂ outcome free bare judged chosen effect superseded tells =>
    have unasked : l = l₁ := by
      cases superseded with
      | unasked => rfl
      | retired asked => rw [promotes.additive] at asked; cases asked
    subst unasked
    have stored := effect.rows
    have named : ∀ f : Fact, outcome.factId = some f.factId ↔ f.factId = result.factId := fun f => by
      rw [tells.factId, Option.some_inj]
      exact eq_comm
    -- a fact of the scope the claim met, and answered with
    have met {f : Fact} (hf : f ∈ l.facts) (id : f.factId = result.factId)
        (here : f.openIn request.scope = true) :
        (∀ g ∈ l.facts, outcome.factId = some g.factId → ¬ g.durablyRecalled) ↔
          f.correctionStatus = some "unreviewed" := by
      constructor
      · intro withheld
        by_contra reviewed
        exact withheld f hf ((named f).mpr id) ((openRecalled here durable).mpr reviewed)
      · intro unreviewed g hg answered recalled
        rw [Table.uniqueEq after.factIds hg hf (((named g).mp answered).trans id.symm)] at recalled
        exact recalled.2.1 unreviewed
    -- a fact stored for the claim, and answered with
    have fresh {f : Fact} (hf : f ∈ l.facts) (id : f.factId = result.factId) (recalled : f.durablyRecalled) :
        ¬ ∀ g ∈ l.facts, outcome.factId = some g.factId → ¬ g.durablyRecalled :=
      fun withheld => withheld f hf ((named f).mpr id) recalled
    have known : found.Known s.toLedger request := by
      rw [← chosen]
      exact untypedMatchSource.known
    rw [containedUntyped free judged, chosen]
    cases effect with
    | @duplicate factId =>
      obtain ⟨f, hf, id, here, -⟩ := known
      refine (met hf id here).trans ⟨fun unreviewed => ⟨f, hf, id, unreviewed⟩, ?_⟩
      rintro ⟨g, hg, gid, unreviewed⟩
      rwa [Table.uniqueEq keyed.factIds hf hg (id.trans gid.symm)]
    | fresh kind =>
      exact iff_of_false (fresh List.mem_concat_self rfl (rowRecalled promotes.unmarked durable kept)) id
    | @dispute found l' opened =>
      refine iff_of_true (fun f hf answered recalled => ?_) trivial
      have id := (named f).mp answered
      rcases stored f hf with ⟨g, hg, same, -⟩ | row
      · have bound := keyed.factBound g hg
        rw [← same.factId, id] at bound
        exact absurd bound (lt_irrefl _)
      · rcases row.active recalled.1 with same | ⟨near, same, -⟩ <;> cases same
    | @wins near f mem id here open' ahead =>
      refine iff_of_false (fresh List.mem_concat_self rfl (rowRecalled promotes.unmarked durable kept)) ?_
      rintro ⟨g, hg, gid, -, held⟩
      rw [← Table.uniqueEq keyed.factIds mem hg (id.trans gid.symm), open', ahead] at held
      rcases held with held | held <;> cases held
    | @loses near f mem id here behind =>
      refine (met (List.mem_append_left _ mem) id here).trans
        ⟨fun unreviewed => ⟨f, mem, id, unreviewed, behind⟩, ?_⟩
      rintro ⟨g, hg, gid, unreviewed, -⟩
      rwa [Table.uniqueEq keyed.factIds mem hg (id.trans gid.symm)]

/-- A promotion of a withheld fact leaves it withheld exactly when it was contained. -/
theorem promotionLaunders {ops : List (Operation rt)} {params : JsonObject}
    (done : promote rt svc context clock (history ops) params = .ok (t, outcome)) :
    ∃ source request effective query,
      Promotes rt svc context (history ops) params source request effective query ∧
      ((source.withheld →
          ∀ f ∈ t.facts, outcome.factId = some f.factId → ¬ f.durablyRecalled) ↔
        (source.withheld → Contained rt svc effective clock (history ops) request query)) := by
  obtain ⟨source, request, effective, query, promotes, written⟩ := promoteSource done
  exact ⟨source, request, effective, query, promotes,
    imp_congr_right fun _ => promotionContained historyKeyed promotes written⟩

namespace Example

def scratch : TimedWrite .plain where
  clock := .at "2026-01-03"
  item := {
    request := { WriteRequest.plain "k1" "tea is green" "user" with
      scope := "run:7", correctionStatus := some "unreviewed" }
    candidate := none
    requestBuilt := by decide +kernel
    candidateBuilt := WriteItem.unslotted }

def kept : JsonObject := [("fact_id", .int 1), ("idempotency_key", .str "p1")]

def scratched : List (Operation .plain) := [.write trusted caller scratch]

def promoted : Except Raised (Store × WriteOutcome) :=
  promote .plain trusted caller (.at "2026-01-04") (history scratched) kept

/-- The unreviewed fact of the run is withheld, and its durable copy is recalled. -/
theorem promotionReviews : ∃ t outcome, promoted = .ok (t, outcome) ∧
    (∃ source ∈ (history scratched).facts, source.factId = 1 ∧ source.withheld) ∧
    ∃ f ∈ t.facts, outcome.factId = some f.factId ∧ f.durablyRecalled := by
  have answer : promoted.toOption.any (fun done => decide ((∃ source ∈ (history scratched).facts,
      source.factId = 1 ∧ source.withheld) ∧
      ∃ f ∈ done.1.facts, done.2.factId = some f.factId ∧ f.durablyRecalled)) = true := by
    decide +kernel
  obtain ⟨⟨t, outcome⟩, done, seen⟩ := (Option.any_eq_true _ _).mp answer
  exact ⟨t, outcome, okOfOption done, of_decide_eq_true seen⟩

theorem promotionLaundersHere : ∃ t outcome source request effective query,
    promoted = .ok (t, outcome) ∧
    Promotes .plain trusted caller (history scratched) kept source request effective query ∧
    ((source.withheld → ∀ f ∈ t.facts, outcome.factId = some f.factId → ¬ f.durablyRecalled) ↔
      (source.withheld → Contained .plain trusted effective (.at "2026-01-04") (history scratched)
        request query)) := by
  have answer : promoted.toOption.isSome = true := by decide +kernel
  obtain ⟨⟨t, outcome⟩, done⟩ := Option.isSome_iff_exists.mp answer
  obtain ⟨source, request, effective, query, shape⟩ := promotionLaunders (okOfOption done)
  exact ⟨t, outcome, source, request, effective, query, okOfOption done, shape⟩

end Example

end Enfold
