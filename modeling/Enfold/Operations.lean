import Enfold.History
import Enfold.LedgerForms

/-! What each operation of a history goes through, and the rule for what a whole history keeps:
single and batched writes are both steps on a store with a prepared query. -/
namespace Enfold

open Fallible

variable {rt : Runtime} {svc : WriteService} {context effective : ConnectionContext} {s t : Store}

/-! ## Authorization -/

theorem validateScopeSource {value scope : String} (h : validateScope rt value = .ok scope) :
    scope = value := by
  unfold validateScope at h
  split at h
  · cases h
    rfl
  · cases h

theorem validateScopes {scopes requested : List String}
    (h : scopes.mapM (validateScope rt) = .ok requested) :
    requested = scopes ∧ ∀ scope ∈ scopes, validateScope rt scope = .ok scope := by
  induction scopes generalizing requested with
  | nil =>
    cases h
    exact ⟨rfl, by simp⟩
  | cons scope rest ih =>
    obtain ⟨first, tail, here, later, rfl⟩ := mapMCons.mp h
    have same := validateScopeSource here
    subst same
    obtain ⟨rfl, all⟩ := ih later
    exact ⟨rfl, List.forall_mem_cons.mpr ⟨here, all⟩⟩

theorem validatedScopes {scopes : List String}
    (all : ∀ scope ∈ scopes, validateScope rt scope = .ok scope) :
    scopes.mapM (validateScope rt) = .ok scopes := by
  induction scopes with
  | nil => rfl
  | cons scope rest ih =>
    exact mapMCons.mpr ⟨scope, rest, all scope List.mem_cons_self,
      ih fun other inside => all other (List.mem_cons_of_mem _ inside), rfl⟩

theorem authorizeTwice {policy : MemoryPolicy} {legacy : Bool}
    (h : policy.authorizeContext rt legacy context = .ok effective) :
    effective = { context with accessScopes := effective.accessScopes } ∧
      policy.authorizeContext rt legacy effective = .ok effective := by
  unfold MemoryPolicy.authorizeContext at h
  split at h
  · cases h
  · rename_i grants granted
    obtain ⟨requested, valid, h⟩ := bindOk.mp h
    obtain ⟨rfl, all⟩ := validateScopes valid
    dsimp only at h
    split at h
    · cases h
    · rename_i some
      cases h
      refine ⟨rfl, ?_⟩
      have again : (context.accessScopes.filter grants.contains).mapM (validateScope rt) =
          .ok (context.accessScopes.filter grants.contains) :=
        validatedScopes fun scope inside => all scope (List.mem_filter.mp inside).1
      simp only [MemoryPolicy.authorizeContext, granted, again, okBind, List.filter_filter,
        Bool.and_self, some, if_false]

theorem authorizeSource (h : authorize rt svc context = .ok effective) :
    svc.policy.authorizeContext rt svc.legacyAuthorized context = .ok effective := by
  unfold authorize mapFailure at h
  split at h
  · rename_i authorized
    rw [authorized, Except.ok.inj h]
  · cases h

/-! ## Writes as steps -/

theorem writeStep {timed : TimedWrite rt} {outcome : WriteOutcome}
    (h : write rt svc context timed.clock s timed.item.request timed.item.candidate =
      .ok (t, outcome)) :
    ∃ effective query, svc.policy.authorizeContext rt svc.legacyAuthorized context = .ok effective ∧
      prepareNearDedupQuery rt svc effective s timed.item.request timed.item.candidate = .ok query ∧
      batchStep rt svc effective s (timed, query) = .ok (t, outcome) := by
  obtain ⟨effective, extracted, query, granted, valid, fields, prepared, done⟩ := writeSource h
  refine ⟨effective, query, granted, prepared, ?_⟩
  simp only [batchStep, writePrepared, (authorizeTwice granted).2, valid, fields, okBind, done]

theorem batchStepSource {item : TimedWrite rt × Option (List Rat)} {outcome : WriteOutcome}
    (authorized : svc.policy.authorizeContext rt svc.legacyAuthorized effective = .ok effective)
    (h : batchStep rt svc effective s item = .ok (t, outcome)) :
    ∃ extracted, validateStateCandidate item.1.item.request item.1.item.candidate = .ok () ∧
      extractedTypedFields rt item.1.item.request item.1.item.candidate = .ok extracted ∧
      transact rt svc effective item.1.clock s item.1.item.request item.1.item.candidate extracted
        item.2 = .ok (t, outcome) := by
  obtain ⟨again, extracted, granted, valid, fields, done⟩ := writePreparedSource h
  rw [authorized] at granted
  cases granted
  exact ⟨extracted, valid, fields, done⟩

/-! ## Resolution and erasure -/

theorem resolveConflictSource {conflictId factId : Nat} {reason resolvedAt queuedAt : String}
    {resolution : ConflictResolution}
    (h : resolveConflict rt svc context s conflictId factId reason resolvedAt queuedAt =
      .ok (t, resolution)) :
    ∃ clients sessions resolutions jobs l,
      resolveStateConflict rt s.toLedger conflictId factId context.agentId (Text.strip reason)
        resolvedAt = .ok (l, resolution) ∧
      t = { s with toLedger := l, clients, sessions, resolutions, jobs } := by
  simp only [resolveConflict, bindOk, Prod.exists] at h
  obtain ⟨-, -, -, -, -, -, -, -, s₁, first, s₂, second, l, found, resolved, s₃, recorded, s₄, queued,
    last⟩ := h
  cases last
  obtain ⟨clients, rfl⟩ := registerClientSource first
  obtain ⟨sessions, rfl⟩ := registerSessionSource second
  obtain ⟨resolutions, rfl⟩ := recordResolutionSource recorded
  obtain ⟨jobs, rfl⟩ := enqueueAppliedSource queued
  exact ⟨clients, sessions, resolutions, jobs, l, resolved, rfl⟩

theorem cloneSharedSource {observationIds : List Nat} {factId erasureId : Nat} :
    (observationIds.foldl (fun s observationId =>
        cloneSharedObservation s observationId factId erasureId) s).toLedger = s.toLedger ∧
      (observationIds.foldl (fun s observationId =>
        cloneSharedObservation s observationId factId erasureId) s).queue = s.queue := by
  induction observationIds generalizing s with
  | nil => exact ⟨rfl, rfl⟩
  | cons observationId rest ih =>
    have once : (cloneSharedObservation s observationId factId erasureId).toLedger = s.toLedger ∧
        (cloneSharedObservation s observationId factId erasureId).queue = s.queue := by
      unfold cloneSharedObservation
      split
      · exact ⟨rfl, rfl⟩
      · split
        · exact ⟨rfl, rfl⟩
        · exact ⟨rfl, rfl⟩
    rw [List.foldl_cons]
    exact ⟨ih.1.trans once.1, ih.2.trans once.2⟩

theorem eraseFactSource {factId : Nat} {requestedBy reason erasedAt : String} {report : ErasureReport}
    (h : eraseFact rt s factId requestedBy reason erasedAt = .ok (t, report)) :
    ∃ insights conflicts linked,
      eraseLedger rt s.toLedger factId (Text.strip requestedBy) erasedAt =
        .ok (t.toLedger, insights, conflicts) ∧
      t.queue = Table.amend linked (QueueRow.scrub rt) s.queue := by
  simp only [eraseFact, bindOk, ensureOk] at h
  obtain ⟨-, -, -, -, h⟩ := h
  split at h
  · cases h
  · rename_i original found
    simp only [bindOk, Prod.exists] at h
    obtain ⟨l, insights, conflicts, erased, last⟩ := h
    cases last
    rw [cloneSharedSource.1] at erased
    exact ⟨insights, conflicts, _, erased, by rw [cloneSharedSource.2]⟩

def Fact.erased (factId : Nat) (erasedAt : String) (insights : List Nat) (f : Fact) : Fact :=
  let once := if f.factId = factId then f.scrub erasedAt else f
  if insights.contains f.factId then { once with invalidAt := some erasedAt } else once

def Ledger.erase (l : Ledger) (factId : Nat) (requestedBy erasedAt : String)
    (insights lonely : List Nat) : Ledger :=
  { l with
    facts := l.facts.map (Fact.erased factId erasedAt insights)
    members := l.members.filter fun m => !decide (m.factId = factId)
    conflicts := l.conflicts.map fun row =>
      if (lonely.contains row.conflictId && row.resolvedAt.isNone) = true then
        row.closeErased erasedAt requestedBy else row }

theorem citesSource {f : Fact} {factId : Nat} (h : accepts (Fact.cites rt factId) f = true) :
    f.category = "insight" ∧ f.invalidAt = none := by
  unfold accepts Fact.cites at h
  split at h
  · rename_i wanted cites
    split at cites
    · rename_i active
      simpa using active
    · cases cites
      cases h
  · cases h

theorem leaveConflictsSource (l : Ledger) (factId : Nat) (erasedAt requestedBy : String) :
    ∃ lonely : List Nat, (∀ c ∈ lonely,
        ((l.members.filter fun m => !decide (m.factId = factId)).filter
          (·.conflictId = c)).length ≤ 1) ∧
      (leaveConflicts l factId erasedAt requestedBy).1 = { l with
        members := l.members.filter fun m => !decide (m.factId = factId)
        conflicts := l.conflicts.map fun row =>
          if (lonely.contains row.conflictId && row.resolvedAt.isNone) = true then
            row.closeErased erasedAt requestedBy else row } := by
  refine ⟨_, fun c inside => ?_, rfl⟩
  exact of_decide_eq_true (List.mem_filter.mp inside).2

theorem eraseLedgerSource {l l' : Ledger} {factId insights conflicts : Nat}
    {requestedBy erasedAt : String} (keyed : l.Keyed)
    (h : eraseLedger rt l factId requestedBy erasedAt = .ok (l', insights, conflicts)) :
    ∃ cited lonely, l' = l.erase factId requestedBy erasedAt cited lonely ∧
      (∀ f ∈ l.facts, f.factId ∈ cited →
        f.factId ≠ factId ∧ f.category = "insight" ∧ f.invalidAt = none) ∧
      ∀ c ∈ lonely, ((l.members.filter fun m => !decide (m.factId = factId)).filter
        (·.conflictId = c)).length ≤ 1 := by
  simp only [eraseLedger, bindOk, Prod.exists] at h
  obtain ⟨l₁, count, cited, last⟩ := h
  simp only [invalidateInsights, bindOk] at cited
  obtain ⟨citing, kept, done⟩ := cited
  obtain ⟨same, -⟩ := keepSource kept
  obtain ⟨lonely, few, left⟩ := leaveConflictsSource l₁ factId erasedAt requestedBy
  refine ⟨citing.map Fact.factId, lonely, ?_, ?_, ?_⟩
  · have result : l' = (leaveConflicts l₁ factId erasedAt requestedBy).1 := by
      cases last
      rfl
    rw [result, left]
    cases done
    simp only [Ledger.erase, Table.amendAmend]
    congr 1
    refine List.map_congr_left fun f _ => ?_
    unfold Fact.erased
    by_cases hit : f.factId = factId
    · simp [hit, Fact.scrub]
    · simp [hit]
  · intro f hf inside
    obtain ⟨g, hg, id⟩ := List.mem_map.mp inside
    rw [same] at hg
    obtain ⟨hg, cites⟩ := List.mem_filter.mp hg
    obtain ⟨insight, active⟩ := citesSource cites
    obtain ⟨old, hold, rfl⟩ := Table.memAmend.mp hg
    by_cases hit : old.factId = factId
    · -- the scrubbed fact is invalid, so it is no active insight
      rw [if_pos (decide_eq_true hit)] at active
      cases was : old.invalidAt with
      | none => simp [Fact.scrub, was] at active
      | some at' => simp [Fact.scrub, was] at active
    · rw [if_neg (by simpa using hit)] at id insight active
      rw [← Table.uniqueEq keyed.factIds hold hf id]
      exact ⟨hit, insight, active⟩
  · cases done
    exact few

/-! ## The rule -/

/-- Every write of an operation meets `C` on the store it is performed on, with its query. -/
def Operation.WritesMeet
    (C : WriteService → ConnectionContext → Store → TimedWrite rt → Option (List Rat) → Prop)
    (s : Store) : Operation rt → Prop
  | .write svc context timed => ∀ effective query,
      svc.policy.authorizeContext rt svc.legacyAuthorized context = .ok effective →
      prepareNearDedupQuery rt svc effective s timed.item.request timed.item.candidate = .ok query →
      C svc effective s timed query
  | .writeBatch svc context writes _ _ => ∀ effective prepared pre item post t outcomes,
      svc.policy.authorizeContext rt svc.legacyAuthorized context = .ok effective →
      prepareBatch rt svc effective s writes = .ok prepared → prepared = pre ++ item :: post →
      Batch.each (batchStep rt svc effective) s pre = .ok (t, outcomes) →
      C svc effective t item.1 item.2
  | _ => True

theorem writeMeets {svc : WriteService} {context effective : ConnectionContext} {timed : TimedWrite rt}
    {s : Store} {query : Option (List Rat)}
    {C : WriteService → ConnectionContext → Store → TimedWrite rt → Option (List Rat) → Prop}
    (granted : svc.policy.authorizeContext rt svc.legacyAuthorized context = .ok effective)
    (prepared : prepareNearDedupQuery rt svc effective s timed.item.request timed.item.candidate = .ok query)
    (meets : C svc effective s timed query) : (Operation.write svc context timed).WritesMeet C s := by
  intro effective' query' granted' prepared'
  obtain rfl := Except.ok.inj (granted.symm.trans granted')
  obtain rfl := Except.ok.inj (prepared.symm.trans prepared')
  exact meets

section Rule
variable {P : Store → Prop}
  {C : WriteService → ConnectionContext → Store → TimedWrite rt → Option (List Rat) → Prop}
  (step : ∀ {svc effective s t timed query outcome},
    svc.policy.authorizeContext rt svc.legacyAuthorized effective = .ok effective →
    C svc effective s timed query →
    batchStep rt svc effective s (timed, query) = .ok (t, outcome) → P s → P t)
include step

theorem itemsKeep {prepared : List (TimedWrite rt × Option (List Rat))} {outcomes : List WriteOutcome}
    (authorized : svc.policy.authorizeContext rt svc.legacyAuthorized effective = .ok effective)
    (meets : ∀ pre item post u answers, prepared = pre ++ item :: post →
      Batch.each (batchStep rt svc effective) s pre = .ok (u, answers) →
      C svc effective u item.1 item.2)
    (done : Batch.each (batchStep rt svc effective) s prepared = .ok (t, outcomes)) (init : P s) :
    P t := by
  induction prepared generalizing s outcomes with
  | nil =>
    cases done
    exact init
  | cons item rest ih =>
    obtain ⟨middle, answer, tail, first, later, rfl⟩ := Batch.eachCons.mp done
    have here := step authorized (meets [] item rest s [] rfl rfl) first init
    refine ih (fun pre other post u answers shape before => ?_) later here
    exact meets (item :: pre) other post u (answer :: answers) (by rw [shape]; rfl)
      (Batch.eachCons.mpr ⟨middle, answer, answers, first, before, rfl⟩)

theorem writeKeeps {timed : TimedWrite rt}
    (meets : (Operation.write svc context timed).WritesMeet C s)
    (done : (Operation.write svc context timed).perform s = .ok t) (init : P s) : P t := by
  simp only [Operation.perform, bindOk, Prod.exists] at done
  obtain ⟨u, outcome, written, last⟩ := done
  cases last
  obtain ⟨effective, query, granted, prepared, stepped⟩ := writeStep written
  exact step (authorizeTwice granted).2 (meets effective query granted prepared) stepped init

theorem batchKeeps {writes : List (TimedWrite rt)} {rollbackIf : WriteOutcome → Bool}
    {completes : QueueRow → Bool}
    (queue : ∀ {s : Store}, P s → P { s with queue := Table.remove completes s.queue })
    (meets : (Operation.writeBatch svc context writes rollbackIf completes).WritesMeet C s)
    (done : (Operation.writeBatch svc context writes rollbackIf completes).perform s = .ok t)
    (init : P s) : P t := by
  simp only [Operation.perform, bindOk, Prod.exists] at done
  obtain ⟨u, batch, written, last⟩ := done
  cases last
  rcases writeBatchSource written with ⟨-, rfl⟩ |
      ⟨-, effective, prepared, u, -, granted, ready, ran, -, hooked⟩
  · exact init
  · cases hooked
    exact queue (itemsKeep step (authorizeTwice granted).2
      (fun pre item post v answers => meets effective prepared pre item post v answers granted ready)
      ran init)

end Rule

theorem meetsAlways {o : Operation rt} : o.WritesMeet (fun _ _ _ _ _ => True) s := by
  cases o with
  | write => exact fun _ _ _ _ => trivial
  | writeBatch => exact fun _ _ _ _ _ _ _ _ _ _ _ => trivial
  | resolveConflict => trivial
  | eraseFact => trivial
  | mergeClusters => trivial
  | storeEmbedding => trivial

end Enfold
