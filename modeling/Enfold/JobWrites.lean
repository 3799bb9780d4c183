import Enfold.ExtractionMandate
import Enfold.ProposalDelivery
import Enfold.ServiceRequests

/-! The writes of one extraction job, from its persisted snapshot to the items of its batches: each write
carries the key of its proposal, and the constructors take again what they have built. -/
namespace Enfold

open Fallible

variable {rt : Runtime}

/-! ## Keys -/

section Keys

theorem stripEnds {drop : Char → Bool} {first last : Char} (mid : List Char) (ahead : drop first = false)
    (behind : drop last = false) : Text.stripWith drop (first :: (mid ++ [last])) = first :: (mid ++ [last]) := by
  have front : (first :: (mid ++ [last])).dropWhile drop = first :: (mid ++ [last]) := by
    rw [List.dropWhile_cons, if_neg (by simp [ahead])]
  have back : (first :: (mid ++ [last])).reverse.dropWhile drop = (first :: (mid ++ [last])).reverse := by
    simp [behind]
  rw [Text.stripWith, front, back, List.reverse_reverse]

theorem indexEnds (index : Nat) :
    ∃ mid last, Nat.toDigits 10 index = mid ++ [last] ∧ Text.isSpace last = false := by
  have some : Nat.toDigits 10 index ≠ [] := Nat.toDigits_ne_nil
  refine ⟨(Nat.toDigits 10 index).dropLast, (Nat.toDigits 10 index).getLast some, ?_, ?_⟩
  · rw [List.dropLast_concat_getLast]
  · have digit := Nat.isDigit_of_mem_toDigits (by decide) (by decide) (List.getLast_mem some)
    simp only [Char.isDigit, Bool.and_eq_true, decide_eq_true_eq, ge_iff_le, UInt32.le_iff_toNat_le] at digit
    have value : ((Nat.toDigits 10 index).getLast some).toNat =
      ((Nat.toDigits 10 index).getLast some).val.toNat := rfl
    simp only [Text.isSpace, value]
    simp at digit ⊢
    omega

theorem keyKept (job : SnapshotJob) (index : Nat) : Text.strip (job.idempotencyKey index) = job.idempotencyKey index := by
  obtain ⟨mid, last, ends, visible⟩ := indexEnds index
  have shape : ∃ middle, (job.idempotencyKey index).toList = 'e' :: (middle ++ [last]) := by
    refine ⟨"xtract:".toList ++ job.digest.toList ++ [':'] ++ job.proposalHash.toList.take 24 ++ [':'] ++ mid, ?_⟩
    simp [SnapshotJob.idempotencyKey, ends]
  obtain ⟨middle, shape⟩ := shape
  rw [Text.strip, shape, stripEnds middle (by decide) visible, ← shape, String.ofList_toList]

theorem keyInjective (job : SnapshotJob) {i j : Nat} (same : job.idempotencyKey i = job.idempotencyKey j) : i = j := by
  have texts := congrArg String.toList same
  simp only [SnapshotJob.idempotencyKey, String.toList_append, String.toList_ofList, List.append_cancel_left_eq,
    Nat.toString_eq_repr, Nat.toList_repr] at texts
  rw [← Nat.ofDigitChars_ten_toDigits (n := i), texts, Nat.ofDigitChars_ten_toDigits]

end Keys

structure WriteParams.Numbered (job : SnapshotJob) (index : Nat) (p : WriteParams) : Prop where
  key : p.idempotencyKey = job.idempotencyKey index
  row : ("extraction_queue_id", .int job.rowId) ∈ p.metadata

section Prepared
variable {host : SnapshotHost} {db : EntityStore} {envelope : ExtractionEnvelope}

theorem proposalNumbered {job : SnapshotJob} {index : Nat} {proposal : Json} {p : WriteParams}
    (h : prepareProposal rt host db envelope job index proposal = .ok (some p)) : p.Numbered job index := by
  simp only [prepareProposal, bindOk] at h
  obtain ⟨fields, -, h⟩ := h
  split at h
  · cases h
  · simp only [bindOk] at h
    obtain ⟨found, -, h⟩ := h
    split at h
    · cases h
    · simp only [bindOk, proposalParams] at h
      obtain ⟨verification, -, typed, -, demotion, -, request, built, h⟩ := h
      split at h
      · cases h
      · cases h
        have made := mapErrorOk.mp built
        simp only [WriteRequest.postInit, WriteRequest.plain, bindOk, ensureOk] at made
        obtain ⟨key, keyHere, _, -, _, -, _, -, _, -, _, -, _, -, _, -, -, -, -, -, -, -, last⟩ := made
        cases last
        exact ⟨(requiredSource keyHere).1.trans (keyKept job index), List.mem_cons_self⟩

theorem snapshotNumbered {text hash digest observedAt : String} {rowId : Nat} {params : List WriteParams}
    (h : prepareSnapshot rt host db envelope text hash rowId digest observedAt = .ok params) :
    (params.map WriteParams.idempotencyKey).Nodup ∧
      ∀ p ∈ params, Text.strip p.idempotencyKey = p.idempotencyKey ∧
        ("extraction_queue_id", .int rowId) ∈ p.metadata := by
  simp only [prepareSnapshot, bindOk, Prod.exists] at h
  obtain ⟨-, -, snapshot, -, identity, proposals, -, prepared, read, last⟩ := h
  cases last
  constructor
  · have indexes : proposals.zipIdx.Pairwise (·.2 ≠ ·.2) := by
      have nodup : (proposals.zipIdx.map Prod.snd).Nodup := by
        rw [List.zipIdx_map_snd]
        exact List.nodup_range'
      exact List.pairwise_map.mp nodup
    have apart := mapMPairwise (q := fun x y => ∀ p ∈ x, ∀ q ∈ y, p.idempotencyKey ≠ q.idempotencyKey)
      (fun a b x y left right different p hp q hq same => ?_) read indexes
    · rw [List.Nodup, List.pairwise_map]
      exact apart.filterMap _ fun x y different p hp q hq => different p hp q hq
    · rw [Option.mem_def.mp hp] at left
      rw [Option.mem_def.mp hq] at right
      rw [(proposalNumbered left).key, (proposalNumbered right).key] at same
      exact different (keyInjective _ same)
  · intro p inside
    obtain ⟨answer, there, same⟩ := List.mem_filterMap.mp inside
    obtain ⟨row, given, made⟩ := mapMSource read answer there
    rw [id_eq] at same
    rw [same] at made
    have numbered := proposalNumbered made
    exact ⟨by rw [numbered.key, keyKept], numbered.row⟩

end Prepared

/-! ## Items -/

-- what the constructors built they build again
theorem requiredAgain {value name text : String} (h : required value name = .ok text) :
    required text name = .ok text := by
  obtain ⟨rfl, some⟩ := requiredSource h
  unfold required
  dsimp only
  rw [Text.stripTwice, if_neg some]

theorem requestAgain {r made : WriteRequest} (h : r.postInit = .ok made) : made.postInit = .ok made := by
  simp only [WriteRequest.postInit, bindOk, ensureOk] at h ⊢
  obtain ⟨key, keyHere, content, contentHere, kind, kindHere, category, categoryHere, scope, scopeHere, sensitivity,
    sensitivityHere, relation, relationHere, operation, operationHere, -, trust, -, authority, -, old, last⟩ := h
  cases last
  exact ⟨key, requiredAgain keyHere, content, requiredAgain contentHere, kind, requiredAgain kindHere,
    category, requiredAgain categoryHere, scope, requiredAgain scopeHere, sensitivity,
    requiredAgain sensitivityHere, relation, requiredAgain relationHere, operation,
    requiredAgain operationHere, (), trust, (), authority, (), old, rfl⟩

theorem candidateAgain {c made : StateCandidate} (h : c.postInit rt = .ok made) : made.postInit rt = .ok made := by
  simp only [StateCandidate.postInit, bindOk, ensureOk] at h
  obtain ⟨content, contentHere, scope, scopeHere, subject, -, predicate, -, kind, kindHere, subject', normal,
    predicate', normal', -, authority, start, first, stop, last, done⟩ := h
  have subjectTwice := normalizeSubjectTwice normal
  have predicateTwice := normalizePredicateTwice normal'
  split at done
  · rename_i from' until'
    simp only [bindOk, ensureOk, decide_eq_true_eq] at done
    obtain ⟨-, ordered, done⟩ := done
    cases done
    simp only [StateCandidate.postInit, requiredAgain contentHere, requiredAgain scopeHere,
      normalSubjectRequired subjectTwice, normalPredicateRequired predicateTwice, requiredAgain kindHere,
      subjectTwice, predicateTwice, authority, first, last, okBind, ensure, if_true, decide_eq_true ordered]
  · simp only [bindOk] at done
    obtain ⟨-, -, done⟩ := done
    cases done
    simp only [StateCandidate.postInit, requiredAgain contentHere, requiredAgain scopeHere,
      normalSubjectRequired subjectTwice, normalPredicateRequired predicateTwice, requiredAgain kindHere,
      subjectTwice, predicateTwice, authority, first, last, okBind, ensure, if_true]

theorem prepareWriteBuilt {context : ConnectionContext} {params : JsonObject} {request : WriteRequest}
    {candidate : Option StateCandidate} (h : prepareWrite rt context params = .ok (request, candidate)) :
    request.postInit = .ok request ∧ ∀ c ∈ candidate, c.postInit rt = .ok c := by
  simp only [prepareWrite, bindOk] at h
  obtain ⟨_, -, metadata, -, key, -, content, -, kind, -, category, -, tags, -, trust, -, authority, -, uri, -,
    observation, -, asserted, -, observed, -, scope, -, sensitivity, -, marked, -, excerpt, -, relation, -, old, -,
    write, built, candidate', stated, last⟩ := h
  cases last
  refine ⟨requestAgain built, fun c given => ?_⟩
  unfold stateCandidate at stated
  split at stated
  · cases stated
    cases given
  · simp only [bindOk] at stated
    obtain ⟨-, -, _, -, _, -, _, -, _, -, _, -, made, here, last⟩ := stated
    cases last
    cases given
    exact candidateAgain here
  · cases stated

-- `_prepare_write` of prepared parameters
def prepareItem (rt : Runtime) (context : ConnectionContext) (p : WriteParams) : Except Raised (WriteItem rt) :=
  match made : prepareWrite rt context p.members with
  | .error raised => .error raised
  | .ok (request, candidate) => .ok ⟨request, candidate, (prepareWriteBuilt made).1, (prepareWriteBuilt made).2⟩

theorem prepareItemSource {context : ConnectionContext} {p : WriteParams} {item : WriteItem rt}
    (h : prepareItem rt context p = .ok item) :
    prepareWrite rt context p.members = .ok (item.request, item.candidate) := by
  unfold prepareItem at h
  split at h
  · cases h
  · rename_i made
    cases h
    exact made

theorem prepareWriteNamed {context : ConnectionContext} {p : WriteParams} {request : WriteRequest}
    {candidate : Option StateCandidate} (h : prepareWrite rt context p.members = .ok (request, candidate)) :
    request.idempotencyKey = Text.strip p.idempotencyKey ∧ request.metadata = listed p.metadata ∧
      request.supersedeFactId = none := by
  have additive : p.members.lookup "supersede_fact_id" = none :=
    List.lookup_eq_none_iff.mpr fun member inside => by
      simpa using fun same => additiveMembers p (List.mem_map.mpr ⟨member, inside, same.symm⟩)
  simp only [prepareWrite, bindOk] at h
  obtain ⟨_, -, metadata, metadataHere, key, keyHere, content, -, kind, -, category, -, tags, -, trust, -,
    authority, -, uri, -, observation, -, asserted, -, observed, -, scope, -, sensitivity, -,
    marked, -, excerpt, -, relation, -, old, oldHere, write, built, candidate', -, last⟩ := h
  cases last
  simp only [WriteRequest.postInit, WriteRequest.plain, bindOk, ensureOk] at built
  obtain ⟨key', keyKept, _, -, _, -, _, -, _, -, _, -, _, -, _, -, -, -, -, -, -, -, last⟩ := built
  cases last
  refine ⟨?_, ?_, ?_⟩
  · obtain ⟨given, here, rfl, -⟩ := readTextSource keyHere
    have same : Json.str given = .str p.idempotencyKey := here.symm
    cases same
    exact (requiredSource keyKept).1.trans (Text.stripTwice _)
  · have read : readObject "metadata" (.obj p.metadata) = .ok metadata := metadataHere
    obtain ⟨-, -, last⟩ := bindOk.mp read
    exact (Except.ok.inj last).symm
  · rw [additive] at oldHere
    cases oldHere
    rfl

def jobItems (rt : Runtime) (svc : WriteService) (context : ConnectionContext) (params : List WriteParams) :
    Except Raised (List (WriteItem rt)) :=
  if params = [] then .ok []
  else do
    let effective ← authorize rt svc context
    mapFailure batchFailure (params.mapM (prepareItem rt effective))

theorem jobItemsSource {svc : WriteService} {context : ConnectionContext} {params : List WriteParams}
    {items : List (WriteItem rt)} (h : jobItems rt svc context params = .ok items) :
    params = [] ∧ items = [] ∨
      ∃ effective, svc.policy.authorizeContext rt svc.legacyAuthorized context = .ok effective ∧
        params.mapM (prepareItem rt effective) = .ok items := by
  unfold jobItems at h
  split at h
  · cases h
    exact .inl ⟨‹_›, rfl⟩
  · obtain ⟨effective, granted, made⟩ := bindOk.mp h
    exact .inr ⟨effective, mapFailureOk.mp granted, mapFailureOk.mp made⟩

theorem snapshotItems (items : List (WriteItem rt)) : (snapshotProposals rt items).map Proposal.item = items := by
  rw [snapshotProposals, List.map_map]
  exact List.zipIdx_map_fst 0 items

theorem itemsNamed {host : SnapshotHost} {db : EntityStore} {envelope : ExtractionEnvelope}
    {text hash digest observedAt : String} {rowId : Nat} {params : List WriteParams} {svc : WriteService}
    {context : ConnectionContext} {items : List (WriteItem rt)}
    (h : prepareSnapshot rt host db envelope text hash rowId digest observedAt = .ok params)
    (made : jobItems rt svc context params = .ok items) :
    (items.map fun item => item.request.idempotencyKey).Nodup ∧ ∀ item ∈ items,
      ("extraction_queue_id", .int rowId) ∈ item.request.metadata ∧ item.request.supersedeFactId = none := by
  obtain ⟨apart, numbered⟩ := snapshotNumbered h
  rcases jobItemsSource made with ⟨-, rfl⟩ | ⟨effective, -, made⟩
  · exact ⟨List.nodup_nil, fun item none => absurd none List.not_mem_nil⟩
  constructor
  · have keys : (items.map fun item => item.request.idempotencyKey) =
        params.map fun p => Text.strip p.idempotencyKey :=
      mapMView (fun p item done => (prepareWriteNamed (prepareItemSource done)).1) made
    have kept : params.map (fun p => Text.strip p.idempotencyKey) = params.map WriteParams.idempotencyKey :=
      List.map_congr_left fun p inside => (numbered p inside).1
    have same : items.map (fun item => item.request.idempotencyKey) = params.map WriteParams.idempotencyKey :=
      keys.trans kept
    rw [same]
    exact apart
  · intro item inside
    obtain ⟨p, given, done⟩ := mapMSource made item inside
    obtain ⟨-, metadata, additive⟩ := prepareWriteNamed (prepareItemSource done)
    refine ⟨?_, additive⟩
    rw [metadata]
    exact Json.sortedMember.mpr ⟨_, (numbered p given).2, rfl⟩

end Enfold
