import Enfold.LedgerForms

/-! The untyped mutations in closed form, and the lookups that choose between them. -/
namespace Enfold

open Fallible

variable {rt : Runtime} {l l' : Ledger} {request : WriteRequest} {clock : Clock}

def WriteRequest.stored (request : WriteRequest) (extracted : Option ExtractedTypedFields)
    (factId : Nat) (now : String) : Fact :=
  match extracted with
  | none => request.row factId now
  | some fields => (request.row factId now).persistExtracted fields

theorem persistExtractedSource {extracted : Option ExtractedTypedFields} {now : String}
    (keyed : l.Keyed)
    (h : persistExtracted (l.insert (request.row l.nextFactId now)) l.nextFactId extracted = .ok l') :
    l' = l.insert (request.stored extracted l.nextFactId now) ∧
      ∀ fields ∈ extracted, fields.kind ≠ .state := by
  cases extracted with
  | none =>
    cases h
    exact ⟨rfl, by simp⟩
  | some fields =>
    simp only [persistExtracted, persistNonstateExtractedTypedFields, bindOk, ensureOk,
      decide_eq_true_eq] at h
    obtain ⟨-, kind, stored⟩ := h
    have inserted : (l.insert (request.row l.nextFactId now)).Keyed := keyed.insert rfl
    obtain ⟨f, -, -, -, rfl⟩ := inserted.amendOneSource stored
    refine ⟨keyed.retireFresh rfl, ?_⟩
    intro other same
    cases same
    exact kind

theorem openUntypedConflictSource {existing : List Nat} {scope subjectKey predicateKey now : String}
    {detail : JsonObject} {conflictId : Nat}
    (h : openUntypedConflict rt l existing scope subjectKey predicateKey now detail =
      .ok (l', conflictId)) :
    ∃ subject predicate, conflictId = l.nextConflictId ∧ existing ≠ [] ∧ existing.Nodup ∧
      (∀ factId ∈ existing, ∃ f ∈ l.facts, f.factId = factId ∧ f.scope = Text.strip scope ∧
        f.current = true ∧ f.conflictGroup = none ∧ f.isState = false) ∧
      l' = l.openConflict
        (.detected l.nextConflictId (Text.strip scope) subject predicate now detail) existing
        (Fact.disputeAs l.nextConflictId subject predicate) := by
  simp only [openUntypedConflict, bindOk, ensureOk, List.all_eq_true, List.any_eq_true,
    Bool.and_eq_true, decide_eq_true_eq, Option.isNone_iff_eq_none, Bool.not_eq_true'] at h
  obtain ⟨subject, -, predicate, -, scope', stripped, -, some, -, distinct, -, -, -, found, last⟩ := h
  cases last
  obtain ⟨rfl, -⟩ := requiredSource stripped
  refine ⟨subject, predicate, rfl, some, distinct, ?_, rfl⟩
  intro factId inside
  obtain ⟨f, hf, ⟨⟨⟨id, inScope⟩, current⟩, free⟩, kind⟩ := found factId inside
  exact ⟨f, hf, id, inScope, current, free, kind⟩

theorem addUntypedConflictMemberSource {conflictId factId : Nat}
    (h : addUntypedConflictMember l conflictId factId = .ok l') :
    ⟨conflictId, factId⟩ ∉ l.members ∧ l' = l.join ⟨conflictId, factId⟩ := by
  unfold addUntypedConflictMember at h
  obtain ⟨row, -, h⟩ := bindOk.mp h
  split at h
  · cases h
  · simp only [bindOk, Ledger.insertMember, ensureOk, Bool.not_eq_true',
      List.contains_eq_mem, decide_eq_false_iff_not] at h
    obtain ⟨-, -, -, -, -, -, -, fresh, last⟩ := h
    cases last
    exact ⟨fresh, rfl⟩

def UntypedDispute (l l' : Ledger) (request : WriteRequest) (found : UntypedContradiction)
    (clock : Clock) : Prop :=
  Text.strip request.scope = request.scope ∧ ∃ subject predicate detail, ∃ f ∈ l.facts, f.factId = found.factId ∧
    f.scope = request.scope ∧ f.current = true ∧ f.conflictGroup = none ∧ f.isState = false ∧
    l' = ((l.openConflict (.detected l.nextConflictId request.scope subject predicate
        clock.recordedAt detail) [found.factId]
        (Fact.disputeAs l.nextConflictId subject predicate)).insert
        ((request.row l.nextFactId clock.insertedAt).disputeAs l.nextConflictId found.subjectKey
          found.predicateKey)).join ⟨l.nextConflictId, l.nextFactId⟩

theorem openUntypedWriteConflictSource (keyed : l.Keyed) {found : UntypedContradiction}
    {conflictId : Nat}
    (h : openUntypedWriteConflict rt (l.insert (request.row l.nextFactId clock.insertedAt)) found
      l.nextFactId request clock.recordedAt = .ok (l', conflictId)) :
    conflictId = l.nextConflictId ∧ UntypedDispute l l' request found clock := by
  simp only [openUntypedWriteConflict, bindOk, Prod.exists] at h
  obtain ⟨l₁, c, opened, l₂, marked, l₃, joined, last⟩ := h
  cases last
  obtain ⟨subject, predicate, rfl, -, -, members, rfl⟩ := openUntypedConflictSource opened
  have inserted : (l.insert (request.row l.nextFactId clock.insertedAt)).Keyed := keyed.insert rfl
  have disputed := inserted.openConflict
    (.detected l.nextConflictId (Text.strip request.scope) subject predicate clock.recordedAt
      [("reason", .str "untyped contradiction")]) [found.factId] rfl
    fun f => show (f.disputeAs l.nextConflictId subject predicate).factId = f.factId from rfl
  obtain ⟨g, hg, gid, gopen, rfl⟩ := disputed.amendOneSource marked
  -- the new fact was not the one the conflict was opened over: it is still unmarked
  have unmarked : ∃ old ∈ (l.insert (request.row l.nextFactId clock.insertedAt)).facts,
      old.factId = l.nextFactId ∧ old.factId ≠ found.factId ∧ old.openIn request.scope = true := by
    obtain ⟨old, hold, rfl⟩ := Table.memAmend.mp hg
    by_cases hit : [found.factId].contains old.factId = true
    · rw [if_pos hit] at gopen
      simp [Fact.openIn, Fact.disputeAs] at gopen
    · rw [if_neg hit] at gid gopen
      exact ⟨old, hold, gid, by simpa using hit, gopen⟩
  obtain ⟨old, hold, oldId, oldOther, oldOpen⟩ := unmarked
  have other : found.factId ≠ l.nextFactId := fun same => oldOther (oldId.trans same.symm)
  obtain ⟨f, hf, fid, inScope, current, free, kind⟩ := members found.factId (by simp)
  have inside : f ∈ l.facts := by
    rcases List.mem_append.mp hf with hf | hf
    · exact hf
    · rw [List.mem_singleton.mp hf] at fid
      exact absurd fid.symm other
  have trimmed : Text.strip request.scope = request.scope := by
    rcases List.mem_append.mp hold with hold | hold
    · exact absurd oldId (by have := keyed.factBound old hold; omega)
    · rw [List.mem_singleton.mp hold] at oldOpen
      simp only [Fact.openIn, Bool.and_eq_true, decide_eq_true_eq] at oldOpen
      exact oldOpen.1.1
  obtain ⟨-, rfl⟩ := addUntypedConflictMemberSource joined
  refine ⟨rfl, trimmed, subject, predicate, [("reason", .str "untyped contradiction")], f, inside, fid,
    inScope.trans trimmed, current, free, kind, ?_⟩
  have opening := keyed.openConflict
    (.detected l.nextConflictId request.scope subject predicate clock.recordedAt
      [("reason", .str "untyped contradiction")]) [found.factId] rfl
    fun f => show (f.disputeAs l.nextConflictId subject predicate).factId = f.factId from rfl
  have miss : (request.row l.nextFactId clock.insertedAt).factId ∉ [found.factId] := by
    simpa [WriteRequest.row] using Ne.symm other
  rw [trimmed, Ledger.openConflictInsert miss]
  have last := opening.retireFresh (g := request.row l.nextFactId clock.insertedAt)
    (h := Fact.disputeAs l.nextConflictId found.subjectKey found.predicateKey) rfl
  exact congrArg (fun l => Ledger.join l ⟨_, _⟩) last

theorem mergeNearDuplicateSource (keyed : l.Keyed) {candidate : NearDuplicateCandidate}
    {result : FactWriteResult} {enqueue : Option Nat} (other : candidate.factId ≠ l.nextFactId)
    (h : mergeNearDuplicate (l.insert (request.row l.nextFactId clock.insertedAt)) l.nextFactId
      candidate request clock.recordedAt = .ok (l', result, enqueue)) :
    ∃ f ∈ l.facts, f.factId = candidate.factId ∧ f.current = true ∧
      ((f.protectedFrom request = false ∧
          candidate.outrankedBy request clock.recordedAt = true ∧
          result = ⟨l.nextFactId, .nearDedup, candidate.factId⟩ ∧
          l' = (l.retire candidate.factId (Fact.supersede clock.recordedAt l.nextFactId)).insert
            (request.row l.nextFactId clock.insertedAt)) ∨
        ((f.protectedFrom request = true ∨
            candidate.outrankedBy request clock.recordedAt = false) ∧
          result = ⟨candidate.factId, .nearDedup, candidate.factId⟩ ∧
          l' = l.insert ((request.row l.nextFactId clock.insertedAt).supersede clock.recordedAt
            candidate.factId))) := by
  simp only [mergeNearDuplicate, bindOk] at h
  obtain ⟨guarded, shield, h⟩ := h
  have inserted : (l.insert (request.row l.nextFactId clock.insertedAt)).Keyed := keyed.insert rfl
  unfold nearDuplicateCandidateIsProtected at shield
  split at shield
  case h_2 => cases shield
  case h_1 f found =>
    cases shield
    obtain ⟨here, current⟩ := Option.filter_eq_some_iff.mp found
    obtain ⟨hf, fid⟩ := Ledger.factFind here
    have inside : f ∈ l.facts := by
      rcases List.mem_append.mp hf with hf | hf
      · exact hf
      · rw [List.mem_singleton.mp hf] at fid
        exact absurd fid.symm other
    refine ⟨f, inside, fid, current, ?_⟩
    split at h
    case isTrue wins =>
      simp only [bindOk, supersedeNearDuplicate] at h
      obtain ⟨l₁, retired, last⟩ := h
      cases last
      obtain ⟨-, -, -, -, rfl⟩ := inserted.amendOneSource retired
      simp only [Bool.and_eq_true, Bool.not_eq_true'] at wins
      refine .inl ⟨wins.1, wins.2, rfl, Ledger.retireInsert ?_⟩
      exact Ne.symm other
    case isFalse loses =>
      simp only [bindOk, supersedeNearDuplicate] at h
      obtain ⟨l₁, retired, last⟩ := h
      cases last
      obtain ⟨-, -, -, -, rfl⟩ := inserted.amendOneSource retired
      refine .inr ⟨?_, rfl, keyed.retireFresh rfl⟩
      cases shielded : f.protectedFrom request
      · exact .inr (by simpa [shielded] using loses)
      · exact .inl (by simp)

theorem supersedeIfRequestedSource (keyed : l.Keyed) {old : Nat} {survivor : Nat} {now : String}
    {superseded : Bool}
    (h : supersedeIfRequested l (some old) survivor now = .ok (l', superseded)) :
    superseded = true ∧ old ≠ survivor ∧ (∃ f ∈ l.facts, f.factId = old ∧ f.current = true ∧
      f.isState = false ∧ f.conflictGroup = none ∧
      ∃ g ∈ l.facts, g.factId = survivor ∧ f.scope = g.scope) ∧
      l' = l.retire old (Fact.supersede now survivor) := by
  simp only [supersedeIfRequested, bindOk, ensureOk, decide_eq_true_eq, ne_eq] at h
  obtain ⟨-, apart, h⟩ := h
  split at h
  · cases h
  · rename_i replacement here
    split at h
    · cases h
    · rename_i target found
      obtain ⟨there, scope⟩ := Option.filter_eq_some_iff.mp found
      obtain ⟨hg, gid⟩ := Ledger.factFind here
      obtain ⟨hf, fid⟩ := Ledger.factFind there
      simp only [bindOk, ensureOk, Bool.and_eq_true, Bool.not_eq_true',
        Option.isNone_iff_eq_none] at h
      obtain ⟨-, plain, l₁, retired, last⟩ := h
      cases last
      have shape : (fun f : Fact => decide (f.factId = old) && decide (f.scope = replacement.scope) &&
          f.current) = fun f => decide (f.factId = old) &&
            (decide (f.scope = replacement.scope) && f.current) := by
        funext f
        rw [Bool.and_assoc]
      rw [shape] at retired
      obtain ⟨f, hf', fid', hit, rfl⟩ := keyed.amendOneSource retired
      have same : f = target := Table.uniqueEq keyed.factIds hf' hf (fid'.trans fid.symm)
      subst same
      simp only [Bool.and_eq_true, decide_eq_true_eq] at hit
      exact ⟨rfl, apart, ⟨f, hf, fid, hit.2, plain.1, plain.2, replacement, hg, gid, hit.1⟩, rfl⟩

/-! ## Untyped writes -/

/-- The stored fact a match names is a current, undisputed one of the request's scope. -/
def UntypedMatch.Known (l : Ledger) (request : WriteRequest) : UntypedMatch → Prop
  | .duplicate factId => ∃ f ∈ l.facts, f.factId = factId ∧ f.openIn request.scope = true ∧
      f.content = request.content
  | .contradiction found => ∃ f ∈ l.facts, f.factId = found.factId ∧ f.openIn request.scope = true
  | .nearDuplicate candidate => ∃ f ∈ l.facts, f.factId = candidate.factId ∧
      f.trustScore = candidate.trustScore ∧ f.createdAt = candidate.createdAt ∧
      f.openIn request.scope = true
  | .fresh => True

section Match
variable {svc : WriteService} {s : Store} {extracted : Option ExtractedTypedFields}
  {query : Option (List Rat)}

theorem exactDuplicateSource {factId : Nat} (h : findUntypedExactDuplicate l request = some factId) :
    ∃ f ∈ l.facts, f.factId = factId ∧ f.openIn request.scope = true ∧ f.content = request.content := by
  obtain ⟨f, found, id⟩ := Option.map_eq_some_iff.mp h
  have hit := List.find?_some found
  simp only [Bool.and_eq_true, decide_eq_true_eq] at hit
  exact ⟨f, List.mem_of_find?_eq_some found, id, hit.1, hit.2⟩

theorem contradictionWithId {factId : Nat} {content : String} {found : UntypedContradiction}
    (h : contradictionWith request factId content = some found) :
    found.factId = factId ∧ untypedContentsContradict request.content content = true := by
  unfold contradictionWith at h
  split at h
  · rename_i contradict
    split at h
    · cases h
      exact ⟨rfl, contradict⟩
    · cases h
  · cases h

theorem contradictionSource {found : UntypedContradiction}
    (h : findUntypedContradiction l request = some found) :
    ∃ f ∈ l.facts, f.factId = found.factId ∧ f.openIn request.scope = true ∧ f.isState = false ∧
      untypedContentsContradict request.content f.content = true := by
  obtain ⟨f, inside, hit⟩ := List.mem_filterMap.mp (greatestMem h)
  simp only [loadUntypedCurrentFacts, List.mem_filter, Bool.and_eq_true, Bool.not_eq_true'] at inside
  split at hit
  · cases hit
  · obtain ⟨id, contradict⟩ := contradictionWithId hit
    exact ⟨f, inside.1, id.symm, inside.2.1, inside.2.2, contradict⟩

theorem nearDuplicateMatch {candidate : NearDuplicateCandidate}
    (h : findUntypedNearDuplicate rt svc s request query = some candidate) :
    ∃ f ∈ s.facts, f.factId = candidate.factId ∧ f.trustScore = candidate.trustScore ∧
      f.createdAt = candidate.createdAt ∧ f.openIn request.scope = true := by
  unfold findUntypedNearDuplicate at h
  split at h
  · split at h
    · obtain ⟨f, inside, id, trust, created, mergeable, -⟩ :=
        nearDuplicateSource rt (greatestMem h)
      exact ⟨f, inside, id, trust, created, mergeable⟩
    · cases h
  · cases h

inductive Matched (rt : Runtime) (svc : WriteService) (s : Store) (request : WriteRequest)
    (extracted : Option ExtractedTypedFields) (query : Option (List Rat)) : UntypedMatch → Prop
  | duplicate {factId} (exact : findUntypedExactDuplicate s.toLedger request = some factId) :
      Matched rt svc s request extracted query (.duplicate factId)
  | bypass (distinct : findUntypedExactDuplicate s.toLedger request = none)
      (special : extracted.isSome = true ∨ request.supersedeFactId.isSome = true) :
      Matched rt svc s request extracted query .fresh
  | contradiction {found} (distinct : findUntypedExactDuplicate s.toLedger request = none)
      (plain : extracted = none ∧ request.supersedeFactId = none)
      (disputes : findUntypedContradiction s.toLedger request = some found) :
      Matched rt svc s request extracted query (.contradiction found)
  | unmatched (distinct : findUntypedExactDuplicate s.toLedger request = none)
      (plain : extracted = none ∧ request.supersedeFactId = none)
      (agrees : findUntypedContradiction s.toLedger request = none)
      (apart : findUntypedNearDuplicate rt svc s request query = none) :
      Matched rt svc s request extracted query .fresh
  | nearContradiction {candidate found}
      (distinct : findUntypedExactDuplicate s.toLedger request = none)
      (plain : extracted = none ∧ request.supersedeFactId = none)
      (agrees : findUntypedContradiction s.toLedger request = none)
      (near : findUntypedNearDuplicate rt svc s request query = some candidate)
      (disputes : contradictionFromNearDuplicate s.toLedger request candidate = some found) :
      Matched rt svc s request extracted query (.contradiction found)
  | nearDuplicate {candidate} (distinct : findUntypedExactDuplicate s.toLedger request = none)
      (plain : extracted = none ∧ request.supersedeFactId = none)
      (agrees : findUntypedContradiction s.toLedger request = none)
      (near : findUntypedNearDuplicate rt svc s request query = some candidate)
      (joins : contradictionFromNearDuplicate s.toLedger request candidate = none) :
      Matched rt svc s request extracted query (.nearDuplicate candidate)

theorem untypedMatchSource :
    Matched rt svc s request extracted query (untypedMatch rt svc s request extracted query) := by
  unfold untypedMatch
  split
  · rename_i factId exact
    exact .duplicate exact
  · rename_i distinct
    split
    · rename_i special
      exact .bypass distinct (by simpa using special)
    · rename_i ordinary
      have plain : extracted = none ∧ request.supersedeFactId = none := by
        simpa [Option.isSome_iff_ne_none] using ordinary
      split
      · rename_i found disputes
        exact .contradiction distinct plain disputes
      · rename_i agrees
        split
        · rename_i apart
          exact .unmatched distinct plain agrees apart
        · rename_i candidate near
          split
          · rename_i found disputes
            exact .nearContradiction distinct plain agrees near disputes
          · rename_i joins
            exact .nearDuplicate distinct plain agrees near joins

theorem Matched.found {found : UntypedMatch} (h : Matched rt svc s request extracted query found) :
    untypedMatch rt svc s request extracted query = found := by
  unfold untypedMatch
  cases h with
  | duplicate exact' => simp only [exact']
  | bypass distinct special =>
    have special : (extracted.isSome || request.supersedeFactId.isSome) = true := by simpa using special
    simp only [distinct, special, if_true]
  | contradiction distinct plain disputes => simp [distinct, plain, disputes]
  | unmatched distinct plain agrees apart => simp [distinct, plain, agrees, apart]
  | nearContradiction distinct plain agrees near disputes =>
    simp [distinct, plain, agrees, near, disputes]
  | nearDuplicate distinct plain agrees near joins => simp [distinct, plain, agrees, near, joins]

theorem Matched.known {found : UntypedMatch} (h : Matched rt svc s request extracted query found) :
    found.Known s.toLedger request := by
  cases h with
  | duplicate exact => exact exactDuplicateSource exact
  | bypass => trivial
  | contradiction distinct plain disputes =>
    obtain ⟨f, inside, id, here, -⟩ := contradictionSource disputes
    exact ⟨f, inside, id, here⟩
  | unmatched => trivial
  | nearContradiction distinct plain agrees near disputes =>
    obtain ⟨f, inside, id, -, -, here⟩ := nearDuplicateMatch near
    obtain ⟨g, -, contradicts⟩ := Option.bind_eq_some_iff.mp disputes
    exact ⟨f, inside, id.trans (contradictionWithId contradicts).1.symm, here⟩
  | nearDuplicate distinct plain agrees near joins => exact nearDuplicateMatch near

end Match

inductive UntypedEffect (l : Ledger) (request : WriteRequest)
    (extracted : Option ExtractedTypedFields) (clock : Clock) :
    UntypedMatch → Ledger → FactWriteResult → Prop
  | duplicate {factId} :
      UntypedEffect l request extracted clock (.duplicate factId) l ⟨factId, .dedup, some factId⟩
  | fresh (kind : ∀ fields ∈ extracted, fields.kind ≠ .state) :
      UntypedEffect l request extracted clock .fresh
        (l.insert (request.stored extracted l.nextFactId clock.insertedAt))
        ⟨l.nextFactId, .inserted, none⟩
  | dispute {found l'} (opened : UntypedDispute l l' request found clock) :
      UntypedEffect l request extracted clock (.contradiction found) l'
        ⟨l.nextFactId, .conflict, some found.factId⟩
  | wins {candidate f} (mem : f ∈ l.facts) (id : f.factId = candidate.factId)
      (here : f.openIn request.scope = true) (open' : f.protectedFrom request = false)
      (ahead : candidate.outrankedBy request clock.recordedAt = true) :
      UntypedEffect l request extracted clock (.nearDuplicate candidate)
        ((l.retire candidate.factId (Fact.supersede clock.recordedAt l.nextFactId)).insert
          (request.row l.nextFactId clock.insertedAt))
        ⟨l.nextFactId, .nearDedup, some candidate.factId⟩
  | loses {candidate f} (mem : f ∈ l.facts) (id : f.factId = candidate.factId)
      (here : f.openIn request.scope = true)
      (behind : f.protectedFrom request = true ∨
        candidate.outrankedBy request clock.recordedAt = false) :
      UntypedEffect l request extracted clock (.nearDuplicate candidate)
        (l.insert ((request.row l.nextFactId clock.insertedAt).supersede clock.recordedAt
          candidate.factId))
        ⟨candidate.factId, .nearDedup, some candidate.factId⟩

theorem applyUntypedSource (keyed : l.Keyed) {extracted : Option ExtractedTypedFields}
    {found : UntypedMatch} {applied : Applied} (known : found.Known l request)
    (h : applyUntyped rt l request extracted found clock = .ok applied) :
    UntypedEffect l request extracted clock found applied.ledger applied.result ∧
      applied.resolution = none := by
  cases found with
  | duplicate factId =>
    cases h
    exact ⟨.duplicate, rfl⟩
  | fresh =>
    simp only [applyUntyped, bindOk, Prod.exists] at h
    obtain ⟨l₁, factId, written, l₂, stored, last⟩ := h
    cases last
    obtain ⟨rfl, rfl⟩ := factWriterSource written
    obtain ⟨rfl, kind⟩ := persistExtractedSource keyed stored
    exact ⟨.fresh kind, rfl⟩
  | contradiction found =>
    simp only [applyUntyped, bindOk, Prod.exists] at h
    obtain ⟨l₁, factId, written, l₂, conflictId, opened, last⟩ := h
    cases last
    obtain ⟨rfl, rfl⟩ := factWriterSource written
    obtain ⟨-, dispute⟩ := openUntypedWriteConflictSource keyed opened
    exact ⟨.dispute dispute, rfl⟩
  | nearDuplicate candidate =>
    simp only [applyUntyped, bindOk, Prod.exists] at h
    obtain ⟨l₁, factId, written, l₂, result, enqueue, merged, last⟩ := h
    cases last
    obtain ⟨rfl, rfl⟩ := factWriterSource written
    obtain ⟨f, mem, id, -, -, here⟩ := known
    have other : candidate.factId ≠ l.nextFactId := by
      have := keyed.factBound f mem
      omega
    obtain ⟨g, hg, gid, -, sides⟩ := mergeNearDuplicateSource keyed other merged
    have same : g = f := Table.uniqueEq keyed.factIds hg mem (gid.trans id.symm)
    subst same
    rcases sides with ⟨shield, ahead, rfl, rfl⟩ | ⟨behind, rfl, rfl⟩
    · exact ⟨.wins mem id here shield ahead, rfl⟩
    · exact ⟨.loses mem id here behind, rfl⟩

end Enfold
