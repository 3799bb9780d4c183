import Enfold.SlotKeys
import Enfold.BatchSequence
import Enfold.Readability

/-! When an untyped write goes through: each of its steps is total on what the lookups can hand it,
except that the search may hand a typed fact to the untyped conflict. -/
namespace Enfold

open Fallible

variable {rt : Runtime} {svc : WriteService} {context effective : ConnectionContext} {clock : Clock}
  {s t : Store} {l l' : Ledger} {request : WriteRequest} {candidate : Option StateCandidate}
  {extracted : Option ExtractedTypedFields} {query : Option (List Rat)}

/-! ## Member rows -/

/-- No member row names a conflict that is still to come. -/
def Ledger.MembersBound (l : Ledger) : Prop := ∀ m ∈ l.members, m.conflictId < l.nextConflictId

theorem Ledger.MembersBound.join (bound : l.MembersBound) {conflictId factId : Nat}
    (below : conflictId < l.nextConflictId) : (l.join ⟨conflictId, factId⟩).MembersBound := by
  intro m hm
  rcases List.mem_append.mp hm with hm | hm
  · exact bound m hm
  · rw [List.mem_singleton.mp hm]
    exact below

theorem Ledger.MembersBound.openConflict (bound : l.MembersBound) {row : Conflict}
    {factIds : List Nat} (mark : Fact → Fact) (next : row.conflictId = l.nextConflictId) :
    (l.openConflict row factIds mark).MembersBound := by
  intro m hm
  show m.conflictId < l.nextConflictId + 1
  rcases List.mem_append.mp hm with hm | hm
  · have := bound m hm
    omega
  · obtain ⟨factId, -, rfl⟩ := List.mem_map.mp hm
    show row.conflictId < _
    omega

theorem UntypedEffect.membersBound {found : UntypedMatch} {result : FactWriteResult}
    (bound : l.MembersBound) (h : UntypedEffect l request extracted clock found l' result) :
    l'.MembersBound := by
  cases h with
  | duplicate => exact bound
  | fresh => exact bound
  | dispute opened =>
    obtain ⟨-, subject, predicate, detail, f, -, -, -, -, -, -, rfl⟩ := opened
    exact (bound.openConflict (Fact.disputeAs l.nextConflictId subject predicate) rfl).join
      (Nat.lt_succ_self _)
  | wins => exact bound
  | loses => exact bound

theorem StateEffect.membersBound {slot : SlotDecision} {c : StateCandidate} {confidence : Option Rat}
    (keyed : l.Keyed) (bound : l.MembersBound)
    (h : StateEffect rt l context request slot c confidence clock l') : l'.MembersBound := by
  cases h with
  | evidence => exact bound
  | add => exact bound
  | replace => exact bound
  | @dispute detail =>
    exact (bound.openConflict (Fact.dispute l.nextConflictId) rfl).join (Nat.lt_succ_self _)
  | join _ _ _ mem id =>
    exact Ledger.MembersBound.join (l := l.insert _) bound (id ▸ keyed.conflictBound _ mem)
  | @settle conflictId _ _ _ _ _ _ mem id _ _ _ _ resolved =>
    have joined : ((l.insert (request.typed c (some conflictId) confidence l.nextFactId
        clock)).join ⟨conflictId, l.nextFactId⟩).MembersBound :=
      Ledger.MembersBound.join (l := l.insert _) bound (id ▸ keyed.conflictBound _ mem)
    obtain ⟨-, w, -, -, -, rfl, -⟩ := resolveStateConflictSource (keyed.insert rfl).join resolved
    exact joined

theorem WriteEffect.membersBound (keyed : s.toLedger.Keyed) (bound : s.toLedger.MembersBound)
    (effect : WriteEffect rt svc context clock s request candidate extracted query l') :
    l'.MembersBound := by
  cases effect with
  | same => exact bound
  | untyped _ _ _ _ effect superseded =>
    have applied := effect.membersBound bound
    cases superseded with
    | unasked => exact applied
    | retired => exact applied
  | typed _ _ _ effect => exact effect.membersBound keyed bound

theorem mergeMembersBound {plan : MergePlan} (bound : s.toLedger.MembersBound) :
    (applyMerge s plan).toLedger.MembersBound := by
  refine mergeKeeps (P := fun t => t.toLedger.MembersBound) (fun _ _ _ bound => bound)
    (fun c _ loser _ t bound m hm => ?_) bound
  obtain ⟨old, hold, moved⟩ := List.mem_filterMap.mp hm
  have below := bound old hold
  split at moved
  · cases moved
    exact below
  · split at moved
    · cases moved
    · cases moved
      exact below

theorem performMembersBound {o : Operation rt} (done : o.perform s = .ok t)
    (before : s.toLedger.Keyed ∧ s.toLedger.MembersBound) :
    t.toLedger.Keyed ∧ t.toLedger.MembersBound := by
  obtain ⟨keyed, bound⟩ := before
  refine ⟨performKeyed done keyed, ?_⟩
  have step {svc : WriteService} {effective : ConnectionContext} {s t : Store} {timed : TimedWrite rt}
      {query : Option (List Rat)} {outcome : WriteOutcome}
      (authorized : svc.policy.authorizeContext rt svc.legacyAuthorized effective = .ok effective)
      (h : batchStep rt svc effective s (timed, query) = .ok (t, outcome))
      (before : s.toLedger.Keyed ∧ s.toLedger.MembersBound) :
      t.toLedger.Keyed ∧ t.toLedger.MembersBound := by
    obtain ⟨extracted, -, -, done⟩ := batchStepSource authorized h
    have effect := transactEffect before.1 done
    exact ⟨effect.keyed before.1, effect.membersBound before.1 before.2⟩
  cases o with
  | write svc context timed =>
    exact (writeKeeps (P := fun s => s.toLedger.Keyed ∧ s.toLedger.MembersBound)
      (fun authorized _ h => step authorized h) meetsAlways done ⟨keyed, bound⟩).2
  | writeBatch svc context writes rollbackIf completes =>
    exact (batchKeeps (P := fun s => s.toLedger.Keyed ∧ s.toLedger.MembersBound)
      (fun authorized _ h => step authorized h) id meetsAlways done ⟨keyed, bound⟩).2
  | resolveConflict svc context conflictId factId reason resolvedAt queuedAt =>
    simp only [Operation.perform, bindOk, Prod.exists] at done
    obtain ⟨effective, -, u, resolution, resolved, last⟩ := done
    cases last
    obtain ⟨clients, sessions, resolutions, jobs, l, settled, rfl⟩ := resolveConflictSource resolved
    obtain ⟨row, w, -, -, -, rfl, -⟩ := resolveStateConflictSource keyed settled
    exact bound
  | eraseFact factId requestedBy reason erasedAt =>
    simp only [Operation.perform, bindOk, Prod.exists] at done
    obtain ⟨u, report, erased, last⟩ := done
    cases last
    obtain ⟨insights, conflicts, linked, erased, -⟩ := eraseFactSource erased
    obtain ⟨cited, lonely, left, -, -⟩ := eraseLedgerSource keyed erased
    rw [left]
    exact fun m hm => bound m (List.mem_filter.mp hm).1
  | mergeClusters plan least most fraction =>
    simp only [Operation.perform, executeMerge, bindOk] at done
    obtain ⟨-, -, -, -, last⟩ := done
    cases last
    exact mergeMembersBound bound
  | storeEmbedding =>
    cases done
    exact bound

theorem historyMembersBound {ops : List (Operation rt)} : (history ops).toLedger.MembersBound :=
  (Run.invariant (P := fun s : Store => s.toLedger.Keyed ∧ s.toLedger.MembersBound)
    (fun _ _ _ => performMembersBound) ⟨soundEmpty.toKeyed, soundEmpty.memberBound⟩).2

/-! ## Steps that go through -/

theorem factWriterBuilt (built : request.postInit = .ok request) {now : String} :
    factWriter l request now = .ok (l.insert (request.row l.nextFactId now), l.nextFactId) := by
  simp only [WriteRequest.postInit, bindOk, ensureOk] at built
  obtain ⟨-, -, content, contentHere, -, -, category, categoryHere, scope, scopeHere, sensitivity,
    sensitivityHere, -, -, -, -, -, trust, -, authority, -⟩ := built
  simp only [factWriter, contentHere, categoryHere, scopeHere, sensitivityHere, okBind, ensure, trust,
    authority, if_true]
  rfl

theorem Ledger.Keyed.amendOneOk (keyed : l.Keyed) {f : Fact} {factId : Nat} {q : Fact → Bool}
    {h : Fact → Fact} (missed : Raised) (mem : f ∈ l.facts) (id : f.factId = factId) (hit : q f = true) :
    l.amendOne (fun f => f.factId = factId && q f) h missed = .ok (l.retire factId h) := by
  subst id
  have one := Table.matchingKeyed (p := fun g => g.factId = f.factId && q g) (k := f.factId)
    keyed.factIds (fun g met => by simp only [Bool.and_eq_true, decide_eq_true_eq] at met; exact met.1) mem
    (by simp [hit])
  simp only [Ledger.amendOne, ensure, one, decide_true, if_true, okBind, Ledger.retire,
    Table.amendByKey keyed.factIds mem hit]

theorem Ledger.Keyed.amendFreshOk (keyed : l.Keyed) {g : Fact} {q : Fact → Bool} {h : Fact → Fact}
    {missed : Raised} (next : g.factId = l.nextFactId) (hit : q g = true) :
    (l.insert g).amendOne (fun f => f.factId = l.nextFactId && q f) h missed = .ok (l.insert (h g)) := by
  rw [(keyed.insert next).amendOneOk _ List.mem_concat_self next hit, keyed.retireFresh next]

theorem persistExtractedOk (keyed : l.Keyed) (request : WriteRequest) (now : String)
    (kind : ∀ fields ∈ extracted, fields.kind ≠ .state) :
    ∃ l', persistExtracted (l.insert (request.row l.nextFactId now)) l.nextFactId extracted = .ok l' := by
  cases extracted with
  | none => exact ⟨_, rfl⟩
  | some fields =>
    refine ⟨l.insert ((request.row l.nextFactId now).persistExtracted fields), ?_⟩
    simp only [persistExtracted, persistNonstateExtractedTypedFields, ensure, kind fields rfl, ne_eq,
      not_false_eq_true, decide_true, if_true, okBind]
    exact keyed.amendFreshOk rfl rowCurrent

theorem requiredSubject {name key : String} (normal : normalizeSubjectKey key = .ok key) :
    required key name = .ok key := by
  have shape := subjectKeySource normal
  simp only [required, subjectKeyKept normal]
  refine if_neg fun empty => ?_
  rw [empty] at shape
  cases shape

theorem requiredPredicate {name key : String} (normal : normalizePredicateKey key = .ok key) :
    required key name = .ok key := by
  have shape := (predicateKeySource normal).1
  simp only [required, predicateKeyKept normal]
  refine if_neg fun empty => ?_
  rw [empty] at shape
  cases shape

theorem contradictionLabelled {factId : Nat} {content : String} {found : UntypedContradiction}
    (h : contradictionWith request factId content = some found) :
    normalizeSubjectKey found.subjectKey = .ok found.subjectKey ∧
      normalizePredicateKey found.predicateKey = .ok found.predicateKey := by
  unfold contradictionWith at h
  split at h
  · split at h
    · rename_i subject predicate guessed
      cases h
      simp only [guessUntypedConflictSlot, bindOk] at guessed
      obtain ⟨subject', normal, predicate', normal', last⟩ := guessed
      cases last
      exact ⟨normalizeSubjectTwice normal, normalizePredicateTwice normal'⟩
    · cases h
  · cases h

theorem openUntypedConflictOk {f : Fact} {scope subjectKey predicateKey detectedAt : String}
    (detail : JsonObject) (mem : f ∈ l.facts) (inScope : f.scope = scope) (current : f.current = true)
    (calm : f.conflictGroup = none) (untyped : f.isState = false)
    (named : required scope "scope" = .ok scope)
    (subject : normalizeSubjectKey subjectKey = .ok subjectKey)
    (predicate : normalizePredicateKey predicateKey = .ok predicateKey)
    (dated : ∃ time, parseTimestamp rt (some detectedAt) = .ok time) :
    openUntypedConflict rt l [f.factId] scope subjectKey predicateKey detectedAt detail =
      .ok (l.openConflict (.detected l.nextConflictId scope subjectKey predicateKey detectedAt detail)
        [f.factId] (Fact.disputeAs l.nextConflictId subjectKey predicateKey), l.nextConflictId) := by
  obtain ⟨time, dated⟩ := dated
  have members : ([f.factId].all fun factId => l.facts.any fun g =>
      g.factId = factId && g.scope = scope && g.current && g.conflictGroup.isNone && !g.isState) = true := by
    simp only [List.all_cons, List.all_nil, Bool.and_true, List.any_eq_true]
    exact ⟨f, mem, by simp [inScope, current, calm, untyped]⟩
  simp only [openUntypedConflict, requiredSubject subject, requiredPredicate predicate, subject, predicate,
    named, dated, members, okBind, ensure, ne_eq, List.cons_ne_nil, not_false_eq_true, decide_true,
    List.nodup_cons, List.not_mem_nil, List.nodup_nil, and_self, if_true]
  rfl

theorem addUntypedConflictMemberOk (keyed : l.Keyed) {row : Conflict} {g : Fact} (conflictId factId : Nat)
    (here : row ∈ l.conflicts) (rowId : row.conflictId = conflictId) (unresolved : row.resolvedAt = none)
    (mem : g ∈ l.facts) (id : g.factId = factId) (inScope : g.scope = row.scope)
    (group : g.conflictGroup = some conflictId) (untyped : g.isState = false) (current : g.current = true)
    (fresh : ⟨conflictId, factId⟩ ∉ l.members) :
    addUntypedConflictMember l conflictId factId = .ok (l.join ⟨conflictId, factId⟩) := by
  subst rowId id
  have opened : l.openRow row.conflictId = .ok row := by
    rw [Ledger.openRow, show l.conflict row.conflictId = some row from
      Table.findOfMem keyed.conflictIds here]
    simp only [unresolved, Option.isNone_none, if_true]
  simp only [addUntypedConflictMember, opened, okBind, keyed.find mem, ensure, inScope, group, untyped,
    current, Ledger.insertMember, List.contains_eq_mem, fresh, decide_true, decide_false, Bool.and_self,
    Bool.not_false, if_true, Ledger.join]

theorem openUntypedWriteConflictOk (keyed : l.Keyed) (bound : l.MembersBound)
    (built : request.postInit = .ok request) {found : UntypedContradiction} {f : Fact} (mem : f ∈ l.facts)
    (id : f.factId = found.factId) (here : f.openIn request.scope = true) (untyped : f.isState = false)
    (subject : normalizeSubjectKey found.subjectKey = .ok found.subjectKey)
    (predicate : normalizePredicateKey found.predicateKey = .ok found.predicateKey)
    (dated : ∃ time, parseTimestamp rt (some clock.recordedAt) = .ok time) :
    ∃ l' conflictId, openUntypedWriteConflict rt (l.insert (request.row l.nextFactId clock.insertedAt))
      found l.nextFactId request clock.recordedAt = .ok (l', conflictId) := by
  have named : required request.scope "scope" = .ok request.scope := by
    simp only [WriteRequest.postInit, bindOk] at built
    obtain ⟨_, -, _, -, _, -, _, -, scope, scopeHere, _, -, _, -, _, -, -, -, -, -, -, -, last⟩ := built
    rw [scopeHere]
    exact congrArg Except.ok (congrArg WriteRequest.scope (Except.ok.inj last))
  have kept := (requiredSource named).1.symm
  have below := keyed.factBound f mem
  simp only [Fact.openIn, Bool.and_eq_true, decide_eq_true_eq, Option.isNone_iff_eq_none] at here
  obtain ⟨⟨inScope, current⟩, calm⟩ := here
  have stored : f ∈ (l.insert (request.row l.nextFactId clock.insertedAt)).facts :=
    List.mem_append_left _ mem
  have opened := openUntypedConflictOk [("reason", .str "untyped contradiction")] stored inScope current
    calm untyped named subject predicate dated
  rw [id] at opened
  have apart : l.nextFactId ∉ [found.factId] := by
    rw [List.mem_singleton, ← id]
    omega
  generalize shape : Conflict.detected l.nextConflictId request.scope found.subjectKey found.predicateKey
    clock.recordedAt [("reason", .str "untyped contradiction")] = row at opened
  have rowId : row.conflictId = l.nextConflictId := by rw [← shape]; rfl
  have disputed : (l.openConflict row [found.factId]
      (Fact.disputeAs l.nextConflictId found.subjectKey found.predicateKey)).Keyed :=
    keyed.openConflict _ _ rowId fun _ => rfl
  have swapped : (l.insert (request.row l.nextFactId clock.insertedAt)).openConflict row [found.factId]
      (Fact.disputeAs l.nextConflictId found.subjectKey found.predicateKey) =
      (l.openConflict row [found.factId] (Fact.disputeAs l.nextConflictId found.subjectKey
        found.predicateKey)).insert (request.row l.nextFactId clock.insertedAt) :=
    Ledger.openConflictInsert apart
  have unmarked : (request.row l.nextFactId clock.insertedAt).openIn request.scope = true := by
    simp [Fact.openIn, WriteRequest.row, Fact.current, kept]
  have joined := addUntypedConflictMemberOk (disputed.insert (g := (request.row l.nextFactId
      clock.insertedAt).disputeAs l.nextConflictId found.subjectKey found.predicateKey) rfl)
    l.nextConflictId l.nextFactId
    (List.mem_concat_self : row ∈ l.conflicts ++ [row]) rowId (by rw [← shape]; rfl) List.mem_concat_self rfl
    (by rw [← shape]; exact kept) rfl rfl rfl fun inside => by
      rcases List.mem_append.mp inside with old | new
      · have := bound _ old
        exact absurd this (lt_irrefl _)
      · simp only [List.map_cons, List.map_nil, List.mem_singleton, Member.mk.injEq] at new
        omega
  subst shape
  have begun := opened.trans (congrArg (fun k => Except.ok (k, l.nextConflictId)) swapped)
  exact ⟨_, _, bindOk.mpr ⟨_, begun, bindOk.mpr ⟨_, disputed.amendFreshOk rfl unmarked,
    bindOk.mpr ⟨_, joined, rfl⟩⟩⟩⟩

theorem mergeNearDuplicateOk (keyed : l.Keyed) (request : WriteRequest) (clock : Clock)
    {near : NearDuplicateCandidate} {f : Fact}
    (mem : f ∈ l.facts) (id : f.factId = near.factId) (current : f.current = true) :
    ∃ merged, mergeNearDuplicate (l.insert (request.row l.nextFactId clock.insertedAt)) l.nextFactId near
      request clock.recordedAt = .ok merged := by
  have inserted : (l.insert (request.row l.nextFactId clock.insertedAt)).Keyed := keyed.insert rfl
  have here : f ∈ (l.insert (request.row l.nextFactId clock.insertedAt)).facts := List.mem_append_left _ mem
  have shield : nearDuplicateCandidateIsProtected (l.insert (request.row l.nextFactId clock.insertedAt))
      near.factId request = .ok (f.protectedFrom request) := by
    rw [nearDuplicateCandidateIsProtected, ← id, inserted.find here, Option.filter_some, current]
    rfl
  simp only [mergeNearDuplicate, shield, okBind, supersedeNearDuplicate]
  split
  · exact ⟨_, bindOk.mpr ⟨_, inserted.amendOneOk _ here id current, rfl⟩⟩
  · exact ⟨_, bindOk.mpr ⟨_, keyed.amendFreshOk rfl rowCurrent, rfl⟩⟩

/-- The search hands a typed fact to the untyped write, and their words contradict. -/
structure MeetsTyped (rt : Runtime) (svc : WriteService) (s : Store) (request : WriteRequest)
    (extracted : Option ExtractedTypedFields) (query : Option (List Rat)) : Prop where
  distinct : findUntypedExactDuplicate s.toLedger request = none
  plain : extracted = none ∧ request.supersedeFactId = none
  agrees : findUntypedContradiction s.toLedger request = none
  meets : ∃ near f, findUntypedNearDuplicate rt svc s request query = some near ∧ f ∈ s.facts ∧
    f.factId = near.factId ∧ f.isState = true ∧
    (contradictionWith request f.factId f.content).isSome = true

theorem nearContradictionTyped {f : Fact} {found : UntypedContradiction} (mem : f ∈ l.facts)
    (here : f.openIn request.scope = true) (distinct : findUntypedExactDuplicate l request = none)
    (agrees : findUntypedContradiction l request = none)
    (disputes : contradictionWith request f.factId f.content = some found) : f.isState = true := by
  by_contra untyped
  have other : f.content ≠ request.content := by
    intro same
    have missed := List.find?_eq_none.mp (Option.map_eq_none_iff.mp distinct) f mem
    simp [here, same] at missed
  have listed : f ∈ loadUntypedCurrentFacts l request.scope :=
    List.mem_filter.mpr ⟨mem, by simp [here, untyped]⟩
  have empty := greatestNone.mp agrees
  have hit : found ∈ (loadUntypedCurrentFacts l request.scope).filterMap fun f =>
      if f.content = request.content then none else contradictionWith request f.factId f.content :=
    List.mem_filterMap.mpr ⟨f, listed, by rw [if_neg other, disputes]⟩
  rw [empty] at hit
  cases hit

theorem contradictionFound {found : UntypedContradiction}
    (h : findUntypedContradiction l request = some found) :
    ∃ factId content, contradictionWith request factId content = some found := by
  obtain ⟨f, -, hit⟩ := List.mem_filterMap.mp (greatestMem h)
  split at hit
  · cases hit
  · exact ⟨_, _, hit⟩

theorem applyUntypedGoes (keyed : s.toLedger.Keyed) (bound : s.toLedger.MembersBound)
    (built : request.postInit = .ok request) (kind : ∀ fields ∈ extracted, fields.kind ≠ .state)
    (dated : ∀ found, untypedMatch rt svc s request extracted query = .contradiction found →
      ∃ time, parseTimestamp rt (some clock.recordedAt) = .ok time) :
    (∃ applied, applyUntyped rt s.toLedger request extracted
        (untypedMatch rt svc s request extracted query) clock = .ok applied) ↔
      ¬ MeetsTyped rt svc s request extracted query := by
  constructor
  · rintro ⟨applied, done⟩ met
    obtain ⟨near, f, search, mem, id, typed, disputes⟩ := met.meets
    obtain ⟨found, disputes⟩ := Option.isSome_iff_exists.mp disputes
    have chosen : contradictionFromNearDuplicate s.toLedger request near = some found := by
      rw [contradictionFromNearDuplicate, ← id, keyed.find mem]
      exact disputes
    have matched := Matched.nearContradiction met.distinct met.plain met.agrees search chosen
    have known : (untypedMatch rt svc s request extracted query).Known s.toLedger request :=
      untypedMatchSource.known
    rw [matched.found] at done known
    obtain ⟨effect, -⟩ := applyUntypedSource keyed known done
    generalize applied.ledger = l', applied.result = result at effect
    cases effect with
    | dispute opened =>
      obtain ⟨-, -, -, -, g, hg, gid, -, -, -, untyped, -⟩ := opened
      rw [Table.uniqueEq keyed.factIds hg mem (gid.trans (contradictionWithId disputes).1), typed] at untyped
      cases untyped
  · intro clear
    have matched : Matched rt svc s request extracted query _ := untypedMatchSource
    generalize untypedMatch rt svc s request extracted query = choice at matched dated ⊢
    cases matched with
    | duplicate => exact ⟨_, rfl⟩
    | bypass =>
      obtain ⟨l', stored⟩ := persistExtractedOk keyed request clock.insertedAt kind
      exact ⟨_, bindOk.mpr ⟨_, factWriterBuilt built, bindOk.mpr ⟨_, stored, rfl⟩⟩⟩
    | unmatched =>
      obtain ⟨l', stored⟩ := persistExtractedOk keyed request clock.insertedAt kind
      exact ⟨_, bindOk.mpr ⟨_, factWriterBuilt built, bindOk.mpr ⟨_, stored, rfl⟩⟩⟩
    | @contradiction found _ _ disputes =>
      obtain ⟨f, mem, id, here, untyped, -⟩ := contradictionSource disputes
      obtain ⟨factId, content, labelled⟩ := contradictionFound disputes
      obtain ⟨subject, predicate⟩ := contradictionLabelled labelled
      obtain ⟨l', conflictId, opened⟩ :=
        openUntypedWriteConflictOk keyed bound built mem id here untyped subject predicate (dated _ rfl)
      exact ⟨_, bindOk.mpr ⟨_, factWriterBuilt built, bindOk.mpr ⟨_, opened, rfl⟩⟩⟩
    | @nearContradiction near found distinct plain agrees search disputes =>
      obtain ⟨f, mem, id, -, -, here⟩ := nearDuplicateMatch search
      rw [contradictionFromNearDuplicate, ← id, keyed.find mem] at disputes
      refine absurd ⟨distinct, plain, agrees, near, f, search, mem, id, ?_, ?_⟩ clear
      · exact nearContradictionTyped mem here distinct agrees disputes
      · exact Option.isSome_iff_exists.mpr ⟨found, disputes⟩
    | nearDuplicate _ _ _ search =>
      obtain ⟨f, mem, id, -, -, here⟩ := nearDuplicateMatch search
      simp only [Fact.openIn, Bool.and_eq_true] at here
      obtain ⟨⟨l', result, enqueue⟩, merged⟩ :=
        mergeNearDuplicateOk keyed request clock mem id here.1.2
      exact ⟨_, bindOk.mpr ⟨_, factWriterBuilt built, bindOk.mpr ⟨_, merged, rfl⟩⟩⟩

/-! ## The write -/

theorem nonstateExtraction (h : extractedTypedFields rt request none = .ok extracted) :
    ∀ fields ∈ extracted, fields.kind ≠ .state := by
  unfold extractedTypedFields at h
  split at h
  · cases h
    nofun
  · split at h
    · cases h
      nofun
    · cases h
      nofun
    · simp only [bindOk] at h
      obtain ⟨-, -, kind, -, confidence, -, -, -, value, -, start, -, normalized, -, h⟩ := h
      split at h
      · cases h
      · rename_i other
        simp only [bindOk] at h
        obtain ⟨-, -, last⟩ := h
        cases last
        rintro fields ⟨⟩
        exact other

theorem UntypedEffect.answered {found : UntypedMatch} {result : FactWriteResult}
    (known : found.Known l request) (kept : Text.strip request.scope = request.scope)
    (h : UntypedEffect l request extracted clock found l' result) :
    ∃ f ∈ l'.facts, f.factId = result.factId ∧ f.scope = request.scope := by
  have scope {f : Fact} (here : f.openIn request.scope = true) : f.scope = request.scope := by
    simp only [Fact.openIn, Bool.and_eq_true, decide_eq_true_eq] at here
    exact here.1.1
  cases h with
  | duplicate =>
    obtain ⟨f, mem, id, here, -⟩ := known
    exact ⟨f, mem, id, scope here⟩
  | fresh kind =>
    have row : request.Stores l (request.stored extracted l.nextFactId clock.insertedAt) :=
      (storedRow kind).1
    exact ⟨_, List.mem_concat_self, row.factId, row.scope.trans kept⟩
  | dispute opened =>
    obtain ⟨-, -, -, -, -, -, -, -, -, -, -, rfl⟩ := opened
    exact ⟨_, List.mem_concat_self, rfl, kept⟩
  | wins => exact ⟨_, List.mem_concat_self, rfl, kept⟩
  | loses mem id here => exact ⟨_, List.mem_append_left _ mem, id, scope here⟩

theorem applyUntypedEnqueue {found : UntypedMatch} {applied : Applied}
    (h : applyUntyped rt l request extracted found clock = .ok applied) :
    ∀ factId ∈ applied.enqueue, factId = applied.result.factId := by
  cases found with
  | duplicate factId =>
    cases h
    rintro _ ⟨⟩
  | fresh =>
    simp only [applyUntyped, bindOk, Prod.exists] at h
    obtain ⟨_, factId, -, _, -, last⟩ := h
    cases last
    rintro _ ⟨⟩
    rfl
  | contradiction found =>
    simp only [applyUntyped, bindOk, Prod.exists] at h
    obtain ⟨_, factId, -, _, _, -, last⟩ := h
    cases last
    rintro _ ⟨⟩
    rfl
  | nearDuplicate near =>
    simp only [applyUntyped, bindOk, Prod.exists] at h
    obtain ⟨_, factId, -, _, result, enqueue, merged, last⟩ := h
    cases last
    simp only [mergeNearDuplicate, bindOk] at merged
    obtain ⟨shield, -, merged⟩ := merged
    split at merged
    · obtain ⟨_, -, last⟩ := bindOk.mp merged
      cases last
      rintro _ ⟨⟩
      rfl
    · obtain ⟨_, -, last⟩ := bindOk.mp merged
      cases last
      rintro _ ⟨⟩

theorem concludeOk {observationId : Nat} {candidate : Option StateCandidate} {decision : Option SlotDecision}
    {applied : Applied}
    (answered : ∃ f ∈ applied.ledger.facts, f.factId = applied.result.factId ∧ f.scope = request.scope)
    (keyed : applied.ledger.Keyed) (resolution : applied.resolution = none)
    (enqueued : ∀ factId ∈ applied.enqueue, factId = applied.result.factId)
    (free : loadPrior s context.clientId request.idempotencyKey = none)
    (retired : ∃ done, supersedeApplied applied.ledger request candidate applied.result.factId clock.recordedAt =
      .ok done) :
    ∃ t outcome, concludeApplied rt svc context clock s request candidate observationId decision applied =
      .ok (t, outcome) := by
  obtain ⟨f, mem, id, scope⟩ := answered
  have found : applied.ledger.fact applied.result.factId = some f := id ▸ keyed.find mem
  have queued : ∃ jobs, enqueueApplied rt svc { s with toLedger := applied.ledger } applied.enqueue
      clock.queuedAt = .ok { s with toLedger := applied.ledger, jobs } := by
    unfold enqueueApplied
    split
    · rename_i factId spec asked _
      have same := enqueued factId asked
      subst same
      unfold enqueueInTransaction
      rw [show ({ s with toLedger := applied.ledger } : Store).fact applied.result.factId = some f from found]
      dsimp only
      split
      · exact ⟨_, rfl⟩
      · exact ⟨_, rfl⟩
    · exact ⟨_, rfl⟩
  obtain ⟨jobs, queued⟩ := queued
  obtain ⟨provenance, attached⟩ := attachProvenanceSource { s with toLedger := applied.ledger, jobs }
    applied.result.factId observationId request clock.recordedAt
  obtain ⟨⟨k, superseded⟩, retired⟩ := retired
  have inScope : authorizeFactScope applied.ledger applied.result.factId request.scope = .ok () := by
    simp only [authorizeFactScope, found, ensure, scope, decide_true, if_true]
  have unlogged : (loadPrior s context.clientId request.idempotencyKey).isNone = true :=
    Option.isNone_iff_eq_none.mpr free
  simp only [concludeApplied, resolution, recordResolved, okBind, queued, inScope, attached, retired, insertWriteLog]
  exact ⟨_, _, bindOk.mpr ⟨(), ensureOk.mpr unlogged, rfl⟩⟩

/-- The lookups of an untyped write meet no typed contradiction, and the fact it names to supersede is
current and not the stored copy of its own claim. -/
structure GoesThrough (rt : Runtime) (svc : WriteService) (s : Store) (request : WriteRequest)
    (extracted : Option ExtractedTypedFields) (query : Option (List Rat)) : Prop where
  clear : ¬ MeetsTyped rt svc s request extracted query
  target : ∀ old ∈ request.supersedeFactId, findUntypedExactDuplicate s.toLedger request ≠ some old ∧
    ∃ f ∈ s.facts, f.factId = old ∧ f.current = true

theorem supersessionAllowed {targetId : Option Nat} {authority : Option Rat} {k : Nat}
    (aimed : (targetId <|> request.supersedeFactId) = some k)
    (policy : supersessionPolicy l request targetId authority = none) :
    ∃ f, l.fact k = some f ∧ f.scope = request.scope ∧
      (request.supersedeFactId.isSome = true → f.isState = false ∧ f.conflictGroup = none) ∧
      ¬ ((f.correctionStatus = some "human_corrected" || f.correctionStatus = some "human_confirmed") &&
        !request.claimsCorrection) = true ∧
      f.authority ≤ authority.getD request.sourceAuthority := by
  unfold supersessionPolicy at policy
  rw [aimed] at policy
  dsimp only at policy
  split at policy
  · cases policy
  · rename_i f found
    obtain ⟨here, scope⟩ := Option.filter_eq_some_iff.mp found
    split at policy
    · cases policy
    · rename_i untyped
      split at policy
      · cases policy
      · rename_i calm
        split at policy
        · cases policy
        · rename_i reviewed
          split at policy
          · cases policy
          · rename_i outranked
            exact ⟨f, here, of_decide_eq_true scope, fun asked => by simpa [asked] using And.intro untyped calm,
              reviewed, not_lt.mp outranked⟩

theorem requestAllowed {policy : MemoryPolicy} {candidate : Option StateCandidate}
    (h : requestDecision rt policy context l request candidate = .ok none) :
    supersessionPolicy l request none none = none := by
  unfold requestDecision at h
  obtain ⟨decision, -, h⟩ := bindOk.mp h
  cases decision with
  | some decision => cases h
  | none =>
    dsimp only at h
    split at h
    · cases h
    · split at h
      · cases h
      · exact Except.ok.inj h

theorem supersedableSource {policy : MemoryPolicy} {old : Nat}
    (asked : request.supersedeFactId = some old)
    (h : requestDecision rt policy context l request none = .ok none) :
    ∃ f, l.fact old = some f ∧ f.scope = request.scope ∧ f.isState = false ∧ f.conflictGroup = none := by
  obtain ⟨f, here, scope, plain, -, -⟩ := supersessionAllowed (k := old) (by rw [asked]; rfl) (requestAllowed h)
  obtain ⟨untyped, calm⟩ := plain (by rw [asked]; rfl)
  exact ⟨f, here, scope, untyped, calm⟩

theorem supersedeOk (keyed : l.Keyed) {f g : Fact} {old survivor : Nat} {now : String}
    (mem : f ∈ l.facts) (id : f.factId = old) (current : f.current = true) (untyped : f.isState = false)
    (calm : f.conflictGroup = none) (other : g ∈ l.facts) (otherId : g.factId = survivor)
    (scope : f.scope = g.scope) (apart : old ≠ survivor) :
    ∃ done, supersedeIfRequested l (some old) survivor now = .ok done := by
  subst id otherId
  have shape : (fun h : Fact => decide (h.factId = f.factId) && decide (h.scope = g.scope) && h.current) =
      fun h => decide (h.factId = f.factId) && (decide (h.scope = g.scope) && h.current) := by
    funext h
    rw [Bool.and_assoc]
  have retired (missed : Raised) := keyed.amendOneOk (q := fun h : Fact => decide (h.scope = g.scope) && h.current)
    (h := Fact.supersede now g.factId) missed mem rfl (by simp [scope, current])
  refine ⟨(l.retire f.factId (Fact.supersede now g.factId), true), ?_⟩
  simp only [supersedeIfRequested, ensure, ne_eq, apart, not_false_eq_true, decide_true, if_true, okBind,
    keyed.find other, keyed.find mem, Option.filter_some, scope, untyped, calm, Option.isNone_none,
    Bool.not_false, Bool.and_self, shape, retired]

theorem retiredOk {applied : Applied} (keyed : s.toLedger.Keyed)
    (goes : GoesThrough rt svc s request extracted query)
    (accepted : requestDecision rt svc.policy context s.toLedger request none = .ok none)
    (effect : UntypedEffect s.toLedger request extracted clock
      (untypedMatch rt svc s request extracted query) applied.ledger applied.result)
    (answered : ∃ g ∈ applied.ledger.facts, g.factId = applied.result.factId ∧ g.scope = request.scope) :
    ∃ done, supersedeIfRequested applied.ledger request.supersedeFactId applied.result.factId
      clock.recordedAt = .ok done := by
  have after := effect.keyed keyed
  cases asked : request.supersedeFactId with
  | none => exact ⟨(applied.ledger, false), rfl⟩
  | some old =>
    obtain ⟨other, h, hh, hid, current⟩ := goes.target old asked
    obtain ⟨f, here, scope, untyped, calm⟩ := supersedableSource asked accepted
    obtain ⟨mem, id⟩ := Ledger.factFind here
    rw [Table.uniqueEq keyed.factIds hh mem (hid.trans id.symm)] at current
    obtain ⟨g, hg, gid, gscope⟩ := answered
    -- a named target leaves only an exact duplicate or a new row to answer with
    have kept : f ∈ applied.ledger.facts ∧ old ≠ applied.result.factId := by
      have matched : Matched rt svc s request extracted query _ := untypedMatchSource
      generalize untypedMatch rt svc s request extracted query = choice at matched effect
      generalize applied.ledger = l', applied.result = result at effect
      cases matched with
      | duplicate exact' =>
        cases effect
        refine ⟨mem, fun same => other ?_⟩
        rw [exact', same]
      | bypass =>
        cases effect
        refine ⟨List.mem_append_left _ mem, fun same => ?_⟩
        have below := keyed.factBound f mem
        rw [id, same] at below
        exact lt_irrefl _ below
      | contradiction _ plain => rw [asked] at plain; cases plain.2
      | unmatched _ plain => rw [asked] at plain; cases plain.2
      | nearContradiction _ plain => rw [asked] at plain; cases plain.2
      | nearDuplicate _ plain => rw [asked] at plain; cases plain.2
    exact supersedeOk after kept.1 id current untyped calm hg gid (scope.trans gscope.symm) kept.2

theorem untypedTarget (keyed : s.toLedger.Keyed) {applied : Applied} {k : Ledger} {superseded : Bool}
    (effect : UntypedEffect s.toLedger request extracted clock
      (untypedMatch rt svc s request extracted query) applied.ledger applied.result)
    (retired : supersedeIfRequested applied.ledger request.supersedeFactId applied.result.factId
      clock.recordedAt = .ok (k, superseded)) :
    ∀ old ∈ request.supersedeFactId, findUntypedExactDuplicate s.toLedger request ≠ some old ∧
      ∃ f ∈ s.facts, f.factId = old ∧ f.current = true := by
  intro old asked
  cases supersededSource (effect.keyed keyed) retired with
  | unasked plain => rw [plain] at asked; cases asked
  | @retired old' f g asked' apart mem id current =>
    rw [asked'] at asked
    cases asked
    have matched : Matched rt svc s request extracted query _ := untypedMatchSource
    generalize untypedMatch rt svc s request extracted query = choice at matched effect
    generalize applied.ledger = l', applied.result = result at effect apart mem
    cases matched with
    | duplicate exact' =>
      cases effect
      refine ⟨fun same => apart ?_, f, mem, id, current⟩
      rw [exact'] at same
      exact (Option.some.inj same).symm
    | bypass distinct =>
      cases effect with
      | fresh kind =>
        refine ⟨by rw [distinct]; nofun, ?_⟩
        rcases List.mem_append.mp mem with stored | new
        · exact ⟨f, stored, id, current⟩
        · have row : request.Stores s.toLedger (request.stored extracted s.nextFactId clock.insertedAt) :=
            (storedRow kind).1
          rw [List.mem_singleton.mp new, row.factId] at id
          exact absurd id.symm apart
    | contradiction _ plain => rw [asked'] at plain; cases plain.2
    | unmatched _ plain => rw [asked'] at plain; cases plain.2
    | nearContradiction _ plain => rw [asked'] at plain; cases plain.2
    | nearDuplicate _ plain => rw [asked'] at plain; cases plain.2

theorem writeFreshGoes (keyed : s.toLedger.Keyed) (bound : s.toLedger.MembersBound)
    (built : request.postInit = .ok request) (kind : ∀ fields ∈ extracted, fields.kind ≠ .state)
    (dated : ∀ found, untypedMatch rt svc s request extracted query = .contradiction found →
      ∃ time, parseTimestamp rt (some clock.recordedAt) = .ok time)
    (free : loadPrior s context.clientId request.idempotencyKey = none)
    (accepted : requestDecision rt svc.policy context s.toLedger request none = .ok none) :
    (∃ t outcome, writeFresh rt svc context clock s request none extracted query = .ok (t, outcome)) ↔
      GoesThrough rt svc s request extracted query := by
  have judged : verdict rt svc.policy context s.toLedger request none = .ok .untyped := by
    rw [verdict, accepted]
    rfl
  constructor
  · rintro ⟨t, outcome, done⟩
    rcases writeFreshSource done with ⟨decision, refused, -⟩ |
        ⟨applied, observations, observationId, -, changed, concluded⟩ | ⟨slot, c, _, _, _, typed, -⟩
    · rw [judged] at refused
      cases refused
    · obtain ⟨effect, -⟩ := applyUntypedSource keyed untypedMatchSource.known changed
      obtain ⟨k, superseded, -, -, -, retired, -⟩ := concludeAppliedSource concluded
      exact ⟨(applyUntypedGoes keyed bound built kind dated).mp ⟨applied, changed⟩,
        untypedTarget keyed effect retired⟩
    · rw [judged] at typed
      cases typed
  · intro goes
    obtain ⟨applied, changed⟩ := (applyUntypedGoes keyed bound built kind dated).mpr goes.clear
    obtain ⟨effect, resolution⟩ := applyUntypedSource keyed untypedMatchSource.known changed
    have answered := effect.answered untypedMatchSource.known (requestGranted accepted).2
    obtain ⟨observations, recorded⟩ := recordObservationSource s context request clock.recordedAt
    obtain ⟨t, outcome, concluded⟩ : ∃ t outcome, concludeApplied rt svc context clock
        { s with observations } request none (recordObservation s context request clock.recordedAt).2 none
        applied = .ok (t, outcome) :=
      concludeOk answered (effect.keyed keyed) resolution (applyUntypedEnqueue changed) free
        (retiredOk keyed goes accepted effect answered)
    refine ⟨t, outcome, bindOk.mpr ⟨_, judged, ?_⟩⟩
    dsimp only
    rw [recorded]
    exact bindOk.mpr ⟨applied, changed, concluded⟩

/-- An accepted untyped write of any history returns an outcome exactly when its key is logged, or its
lookups and its target let it through. -/
theorem untypedGoesThrough {ops : List (Operation rt)} {timed : TimedWrite rt}
    (granted : svc.policy.authorizeContext rt svc.legacyAuthorized context = .ok effective)
    (registrable : (history ops).Registrable effective) (bare : timed.item.candidate = none)
    (fields : extractedTypedFields rt timed.item.request none = .ok extracted)
    (prepared : prepareNearDedupQuery rt svc effective (history ops) timed.item.request none = .ok query)
    (accepted : requestDecision rt svc.policy effective (history ops).toLedger timed.item.request none =
      .ok none)
    (dated : ∃ time, parseTimestamp rt (some timed.clock.recordedAt) = .ok time)
    (unused : ∀ prior, loadPrior (history ops) effective.clientId timed.item.request.idempotencyKey =
      some prior → prior.requestSha256 = requestSha256 effective timed.item.request none) :
    (∃ t outcome, write rt svc context timed.clock (history ops) timed.item.request timed.item.candidate =
        .ok (t, outcome)) ↔
      (loadPrior (history ops) effective.clientId timed.item.request.idempotencyKey = none →
        GoesThrough rt svc (history ops) timed.item.request extracted query) := by
  rw [bare]
  have keyed : (history ops).toLedger.Keyed := historyKeyed
  have bound : (history ops).toLedger.MembersBound := historyMembersBound
  obtain ⟨clients, sessions, both⟩ := registered timed.clock.recordedAt registrable
  have fresh (free) (judged) : (∃ t outcome, writeFresh rt svc effective timed.clock
        { history ops with clients, sessions } timed.item.request none extracted query = .ok (t, outcome)) ↔
      GoesThrough rt svc { history ops with clients, sessions } timed.item.request extracted query :=
    writeFreshGoes keyed bound timed.item.requestBuilt (nonstateExtraction fields) (fun _ _ => dated) free judged
  have same : write rt svc context timed.clock (history ops) timed.item.request none =
      transact rt svc effective timed.clock (history ops) timed.item.request none extracted query := by
    simp only [write, granted, okBind, validateStateCandidate, fields, prepared]
  -- registration touches nothing the lookups read
  have lookups : GoesThrough rt svc { history ops with clients, sessions } timed.item.request extracted
      query ↔ GoesThrough rt svc (history ops) timed.item.request extracted query :=
    ⟨fun goes => ⟨fun met => goes.clear ⟨met.distinct, met.plain, met.agrees, met.meets⟩, goes.target⟩,
      fun goes => ⟨fun met => goes.clear ⟨met.distinct, met.plain, met.agrees, met.meets⟩, goes.target⟩⟩
  rw [same]
  constructor
  · rintro ⟨t, outcome, done⟩ free
    obtain ⟨clients', sessions', both', ⟨prior, found, -⟩ | ⟨-, done⟩⟩ := transactSource done
    · rw [free] at found
      cases found
    · rw [both] at both'
      rw [← Except.ok.inj both'] at done
      exact lookups.mp ((fresh free accepted).mp ⟨t, outcome, done⟩)
  · intro goes
    cases free : loadPrior (history ops) effective.clientId timed.item.request.idempotencyKey with
    | some prior =>
      refine ⟨{ history ops with clients, sessions }, outcomeFromRow prior true, ?_⟩
      rw [transactPrior both free, WriteLogRow.answer, if_neg (not_not.mpr (unused prior free))]
    | none =>
      obtain ⟨t, outcome, done⟩ := (fresh free accepted).mpr (lookups.mpr (goes free))
      refine ⟨t, outcome, ?_⟩
      rw [transactFresh both free, done]

namespace Example

def settled : List (Operation .plain) :=
  [.write trusted caller lima, .storeEmbedding ⟨1, [1], 1, "m"⟩]

def rumour : TimedWrite .plain := claim "k2" "Alex is in Oslo" none (by decide +kernel)

/-- The write of the rumour is valid and accepted, and it raises. -/
theorem rumourRaises : rumour.item.candidate = none ∧
    requestDecision .plain searching.policy caller (history settled).toLedger rumour.item.request none =
      .ok none ∧
    loadPrior (history settled) "host" "k2" = none ∧
    write .plain searching caller rumour.clock (history settled) rumour.item.request
      rumour.item.candidate = .error ⟨.stateSlotInvariantError,
        "every untyped conflict member must be an active non-state fact in scope"⟩ := by
  refine ⟨rfl, okOfOption (by decide +kernel), by decide +kernel, errorOfFailure (by decide +kernel)⟩

def settledCats : List (Operation .plain) :=
  settled ++ [.write trusted caller (claim "k13" "a cat sat on the mat" none (by decide +kernel)),
    .storeEmbedding ⟨2, [1], 1, "m"⟩]

def secondCat : TimedWrite .plain := claim "k14" "the cat sat on the mat" none (by decide +kernel)

/-- Of the two writes the search answers, one restates an untyped claim and goes through. -/
theorem untypedGoesThroughHere :
    (∃ t outcome, write .plain searching caller secondCat.clock (history settledCats)
        secondCat.item.request secondCat.item.candidate = .ok (t, outcome)) ∧
    GoesThrough .plain searching (history settledCats) secondCat.item.request none (some [1]) ∧
    ¬ GoesThrough .plain searching (history settledCats) rumour.item.request none (some [1]) := by
  have granted : searching.policy.authorizeContext .plain searching.legacyAuthorized caller = .ok caller :=
    okOfOption (by decide +kernel)
  have registrable : (history settledCats).Registrable caller := ⟨by decide +kernel, by decide +kernel⟩
  have dated : ∃ time, parseTimestamp .plain (some "2026-01-03") = .ok time :=
    ⟨_, okOfOption (a := some 1767398400000000) (by decide +kernel)⟩
  have goes (timed : TimedWrite .plain) (bare : timed.item.candidate = none)
      (fields : extractedTypedFields .plain timed.item.request none = .ok none)
      (prepared : prepareNearDedupQuery .plain searching caller (history settledCats) timed.item.request none =
        .ok (some [1]))
      (accepted : requestDecision .plain searching.policy caller (history settledCats).toLedger
        timed.item.request none = .ok none)
      (clock : timed.clock.recordedAt = "2026-01-03")
      (known : loadPrior (history settledCats) caller.clientId timed.item.request.idempotencyKey = none) :
      (∃ t outcome, write .plain searching caller timed.clock (history settledCats) timed.item.request
        timed.item.candidate = .ok (t, outcome)) ↔
        GoesThrough .plain searching (history settledCats) timed.item.request none (some [1]) := by
    have whole := untypedGoesThrough granted registrable bare fields prepared accepted (clock ▸ dated)
      fun prior logged => by rw [known] at logged; cases logged
    exact whole.trans ⟨fun free => free known, fun goes _ => goes⟩
  have cat := goes secondCat rfl rfl (okOfOption (by decide +kernel)) (okOfOption (by decide +kernel)) rfl
    (by decide +kernel)
  have gossip := goes rumour rfl rfl (okOfOption (by decide +kernel)) (okOfOption (by decide +kernel)) rfl
    (by decide +kernel)
  have merged : ((write .plain searching caller secondCat.clock (history settledCats) secondCat.item.request
      secondCat.item.candidate).toOption.map fun done => done.2.outcome) = some .nearDedup := by
    decide +kernel
  have raised : ((write .plain searching caller rumour.clock (history settledCats) rumour.item.request
      rumour.item.candidate).toOption.map fun done => done.2.outcome) = none := by
    decide +kernel
  obtain ⟨⟨t, outcome⟩, answered, -⟩ := Option.map_eq_some_iff.mp merged
  have through : ∃ t outcome, write .plain searching caller secondCat.clock (history settledCats)
      secondCat.item.request secondCat.item.candidate = .ok (t, outcome) := ⟨t, outcome, okOfOption answered⟩
  refine ⟨through, cat.mp through, fun clear => ?_⟩
  obtain ⟨t, outcome, done⟩ := gossip.mpr clear
  rw [done] at raised
  cases raised

end Example

end Enfold
