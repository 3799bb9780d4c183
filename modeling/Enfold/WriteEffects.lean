import Enfold.SlotDecisions
import Enfold.StateForms
import Enfold.UntypedForms

/-! What one write leaves of the fact and conflict tables, as one of three cases: nothing new, an
untyped claim with the supersession it asked for, or a slot action. -/
namespace Enfold

open Fallible

variable {rt : Runtime} {svc : WriteService} {context : ConnectionContext} {clock : Clock}
  {s t : Store} {request : WriteRequest} {candidate : Option StateCandidate}
  {extracted : Option ExtractedTypedFields} {query : Option (List Rat)} {outcome : WriteOutcome}

inductive Superseded (l : Ledger) (request : WriteRequest) (survivor : Nat) (now : String) :
    Ledger → Prop
  | unasked (plain : request.supersedeFactId = none) : Superseded l request survivor now l
  | retired {old f g} (asked : request.supersedeFactId = some old) (apart : old ≠ survivor)
      (mem : f ∈ l.facts) (id : f.factId = old) (current : f.current = true)
      (kind : f.isState = false) (calm : f.conflictGroup = none) (other : g ∈ l.facts)
      (otherId : g.factId = survivor) (scope : f.scope = g.scope) :
      Superseded l request survivor now (l.retire old (Fact.supersede now survivor))

theorem supersededSource {l l' : Ledger} {survivor : Nat} {now : String} {superseded : Bool}
    (keyed : l.Keyed)
    (h : supersedeIfRequested l request.supersedeFactId survivor now = .ok (l', superseded)) :
    Superseded l request survivor now l' := by
  cases asked : request.supersedeFactId with
  | none =>
    rw [asked] at h
    cases h
    exact .unasked asked
  | some old =>
    rw [asked] at h
    obtain ⟨-, apart, ⟨f, mem, id, current, kind, calm, g, other, otherId, scope⟩, rfl⟩ :=
      supersedeIfRequestedSource keyed h
    exact .retired asked apart mem id current kind calm other otherId scope

inductive WriteEffect (rt : Runtime) (svc : WriteService) (context : ConnectionContext)
    (clock : Clock) (s : Store) (request : WriteRequest) (candidate : Option StateCandidate)
    (extracted : Option ExtractedTypedFields) (query : Option (List Rat)) : Ledger → Prop
  | same : WriteEffect rt svc context clock s request candidate extracted query s.toLedger
  | untyped {found l₁ result l₂} (free : loadPrior s context.clientId request.idempotencyKey = none)
      (bare : candidate = none)
      (judged : verdict rt svc.policy context s.toLedger request candidate = .ok .untyped)
      (chosen : Matched rt svc s request extracted query found)
      (effect : UntypedEffect s.toLedger request extracted clock found l₁ result)
      (superseded : Superseded l₁ request result.factId clock.recordedAt l₂) :
      WriteEffect rt svc context clock s request candidate extracted query l₂
  | typed {c slot effective l₁} (free : loadPrior s context.clientId request.idempotencyKey = none)
      (given : candidate = some c)
      (judged : verdict rt svc.policy context s.toLedger request candidate =
        .ok (.typed slot effective))
      (effect : StateEffect rt s.toLedger context request slot effective
        (extracted.map ExtractedTypedFields.confidence) clock l₁) :
      WriteEffect rt svc context clock s request candidate extracted query l₁

theorem UntypedEffect.keyed {l l' : Ledger} {found : UntypedMatch} {result : FactWriteResult}
    (keyed : l.Keyed) (h : UntypedEffect l request extracted clock found l' result) : l'.Keyed := by
  cases h with
  | duplicate => exact keyed
  | fresh =>
    refine keyed.insert ?_
    unfold WriteRequest.stored
    split
    · rfl
    · rfl
  | dispute opened =>
    obtain ⟨-, subject, predicate, detail, f, -, -, -, -, -, -, rfl⟩ := opened
    exact ((keyed.openConflict (.detected l.nextConflictId request.scope subject predicate
      clock.recordedAt detail) _ rfl
      fun f => show (f.disputeAs l.nextConflictId subject predicate).factId = f.factId from
        rfl).insert rfl).join
  | wins => exact (keyed.amend (h := Fact.supersede clock.recordedAt l.nextFactId)
      fun _ => rfl).insert rfl
  | loses => exact keyed.insert rfl

theorem writeFreshEffect (keyed : s.toLedger.Keyed)
    (free : loadPrior s context.clientId request.idempotencyKey = none)
    (h : writeFresh rt svc context clock s request candidate extracted query = .ok (t, outcome)) :
    WriteEffect rt svc context clock s request candidate extracted query t.toLedger := by
  rcases writeFreshSource h with ⟨decision, -, done⟩ |
      ⟨applied, observations, observationId, judged, done, concluded⟩ |
      ⟨slot, effective, applied, observations, observationId, judged, done, concluded⟩
  · obtain ⟨-, ⟨-, -, rfl⟩ | ⟨-, rfl⟩⟩ := concludeFactlessSource done
    · exact .same
    · exact .same
  · obtain ⟨l, superseded, resolutions, jobs, provenance, retired, -, -, -, rfl⟩ :=
      concludeAppliedSource concluded
    have bare := (verdictUntyped judged).1
    obtain ⟨effect, -⟩ := applyUntypedSource keyed (untypedMatchSource.known) done
    rw [bare] at retired
    exact .untyped free bare judged untypedMatchSource effect
      (supersededSource (effect.keyed keyed) retired)
  · obtain ⟨l, superseded, resolutions, jobs, provenance, retired, -, -, -, rfl⟩ :=
      concludeAppliedSource concluded
    obtain ⟨c, -, given, -⟩ := verdictTyped judged
    obtain ⟨effect, -⟩ := applyTypedSource keyed done
    rw [given] at retired
    cases retired
    exact .typed free given judged effect

theorem transactEffect (keyed : s.toLedger.Keyed)
    (h : transact rt svc context clock s request candidate extracted query = .ok (t, outcome)) :
    WriteEffect rt svc context clock s request candidate extracted query t.toLedger := by
  obtain ⟨clients, sessions, -, ⟨prior, -, -, rfl, -⟩ | ⟨free, fresh⟩⟩ := transactSource h
  · exact .same
  · have effect := writeFreshEffect (s := { s with clients, sessions }) keyed free fresh
    generalize t.toLedger = l at effect ⊢
    cases effect with
    | same => exact .same
    | untyped _ bare judged chosen effect superseded =>
      exact .untyped free bare judged (by cases chosen with
        | duplicate exact' => exact .duplicate exact'
        | bypass distinct special => exact .bypass distinct special
        | contradiction distinct plain disputes => exact .contradiction distinct plain disputes
        | unmatched distinct plain agrees apart => exact .unmatched distinct plain agrees apart
        | nearContradiction distinct plain agrees near disputes =>
          exact .nearContradiction distinct plain agrees near disputes
        | nearDuplicate distinct plain agrees near joins =>
          exact .nearDuplicate distinct plain agrees near joins) effect superseded
    | typed _ given judged effect => exact .typed free given judged effect

end Enfold
