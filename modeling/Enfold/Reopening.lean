import Enfold.ConflictLedger
import Enfold.Schema
import Enfold.WriteEffects

/-! When a store reopens for writing: no retired fact may look like a migration that was never
finished. -/
namespace Enfold

open Fallible

variable {rt : Runtime}

/-- A superseded fact is expired, and ends in world time unless its successor has no start. -/
def Fact.Ends (f : Fact) (facts : List Fact) (next : Nat) : Prop :=
  ∀ k, f.supersededBy = some k → f.expiredAt.isSome = true ∧ k < next ∧
    (f.validTo = none → ∀ g ∈ facts, g.factId = k → g.validFrom = none)

structure Ledger.Finished (l : Ledger) : Prop extends l.Keyed where
  ends : ∀ f ∈ l.facts, f.Ends l.facts l.nextFactId

theorem endsActive {f : Fact} {facts : List Fact} {next : Nat} (active : f.supersededBy = none) :
    f.Ends facts next := by
  intro k replaced
  rw [active] at replaced
  cases replaced

theorem Ledger.Finished.patched {l : Ledger} (finished : l.Finished) :
    needsBitemporalPatch l.facts = false := by
  simp only [needsBitemporalPatch, List.any_eq_false]
  intro f mem pending
  simp only [Fact.unfinished, Bool.and_eq_true, Bool.or_eq_true, List.any_eq_true,
    decide_eq_true_eq, Option.isNone_iff_eq_none] at pending
  obtain ⟨replaced, pending⟩ := pending
  obtain ⟨k, successor⟩ := Option.isSome_iff_exists.mp replaced
  obtain ⟨expired, -, undated⟩ := finished.ends f mem k successor
  rcases pending with ⟨-, unexpired⟩ | ⟨endless, g, hg, next, dated⟩
  · rw [unexpired] at expired
    cases expired
  · rw [successor] at next
    rw [undated endless g hg (Option.some.inj next).symm] at dated
    cases dated

structure SameDates (f g : Fact) : Prop where
  factId : g.factId = f.factId
  validFrom : g.validFrom = f.validFrom
  validTo : g.validTo = f.validTo
  expiredAt : g.expiredAt = f.expiredAt
  supersededBy : g.supersededBy = f.supersededBy

theorem sameEnds {f g : Fact} {facts : List Fact} {next : Nat} (same : SameDates f g)
    (ends : f.Ends facts next) : g.Ends facts next := by
  intro k replaced
  rw [same.supersededBy] at replaced
  rw [same.expiredAt, same.validTo]
  exact ends k replaced

theorem erasedDates {factId : Nat} {erasedAt : String} {insights : List Nat} (f : Fact) :
    SameDates f (f.erased factId erasedAt insights) := by
  unfold Fact.erased
  dsimp only
  split
  · split
    · exact ⟨rfl, rfl, rfl, rfl, rfl⟩
    · exact ⟨rfl, rfl, rfl, rfl, rfl⟩
  · split
    · exact ⟨rfl, rfl, rfl, rfl, rfl⟩
    · exact ⟨rfl, rfl, rfl, rfl, rfl⟩

namespace Ledger
variable {l : Ledger}

/-! ## Changes that leave nothing unfinished -/

theorem Finished.insert (finished : l.Finished) {g : Fact} (next : g.factId = l.nextFactId)
    (ends : g.Ends (l.facts ++ [g]) (l.nextFactId + 1)) : (l.insert g).Finished where
  toKeyed := finished.toKeyed.insert next
  ends f hf := by
    rcases List.mem_append.mp hf with hf | hf
    · intro k replaced
      obtain ⟨expired, below, undated⟩ := finished.ends f hf k replaced
      refine ⟨expired, Nat.lt_succ_of_lt below, fun endless h hh id => ?_⟩
      rcases List.mem_append.mp hh with hh | hh
      · exact undated endless h hh id
      · rw [List.mem_singleton.mp hh] at id
        omega
    · rw [List.mem_singleton.mp hf]
      exact ends

theorem Finished.join (finished : l.Finished) {m : Member} : (l.join m).Finished :=
  ⟨finished.toKeyed.join, finished.ends⟩

theorem Finished.update {l' : Ledger} {m : Fact → Fact} (keyed : l'.Keyed)
    (facts : l'.facts = l.facts.map m) (next : l'.nextFactId = l.nextFactId)
    (ids : ∀ f, (m f).factId = f.factId) (starts : ∀ f, (m f).validFrom = f.validFrom)
    (ends : ∀ f ∈ l.facts, (m f).Ends l.facts l.nextFactId) : l'.Finished where
  toKeyed := keyed
  ends f hf := by
    rw [facts] at hf ⊢
    rw [next]
    obtain ⟨old, hold, rfl⟩ := List.mem_map.mp hf
    intro k replaced
    obtain ⟨expired, below, undated⟩ := ends old hold k replaced
    refine ⟨expired, below, fun endless g hg id => ?_⟩
    obtain ⟨old', hold', rfl⟩ := List.mem_map.mp hg
    rw [ids] at id
    rw [starts]
    exact undated endless old' hold' id

theorem Finished.retire (finished : l.Finished) {f : Fact} {h : Fact → Fact} {k : Nat}
    (mem : f ∈ l.facts) (below : k < l.nextFactId) (ids : ∀ f, (h f).factId = f.factId)
    (starts : ∀ f, (h f).validFrom = f.validFrom) (expired : (h f).expiredAt.isSome = true)
    (survivor : (h f).supersededBy = some k)
    (undated : (h f).validTo = none → ∀ g ∈ l.facts, g.factId = k → g.validFrom = none) :
    (l.retire f.factId h).Finished := by
  refine Finished.update (l := l) (m := fun g => if decide (g.factId = f.factId) = true then h g else g)
    (finished.toKeyed.amend ids) rfl rfl (fun g => ?_) (fun g => ?_) fun g hg => ?_
  · split
    · exact ids g
    · rfl
  · split
    · exact starts g
    · rfl
  · split
    · rename_i same
      rw [Table.uniqueEq finished.factIds hg mem (of_decide_eq_true same)]
      intro j replaced
      rw [survivor] at replaced
      rw [← Option.some.inj replaced]
      exact ⟨expired, below, undated⟩
    · exact finished.ends g hg

theorem Finished.openConflict (finished : l.Finished) (row : Conflict) (factIds : List Nat)
    {mark : Fact → Fact} (next : row.conflictId = l.nextConflictId)
    (marks : ∀ f, SameDates f (mark f)) : (l.openConflict row factIds mark).Finished := by
  refine Finished.update (l := l) (m := fun g => if factIds.contains g.factId = true then mark g else g)
    (finished.toKeyed.openConflict row factIds next fun f => (marks f).factId) rfl rfl (fun g => ?_)
    (fun g => ?_) fun g hg => ?_
  · split
    · exact (marks g).factId
    · rfl
  · split
    · exact (marks g).validFrom
    · rfl
  · split
    · exact sameEnds (marks g) (finished.ends g hg)
    · exact finished.ends g hg

theorem resolveKeyed (keyed : l.Keyed) {conflictId winner : Nat} {validTo : Option String}
    {resolvedBy reason resolvedAt : String} :
    (l.resolve conflictId winner validTo resolvedBy reason resolvedAt).Keyed where
  factIds := by
    have same : (l.resolve conflictId winner validTo resolvedBy reason resolvedAt).facts.map
        Fact.factId = l.facts.map Fact.factId := by
      simp only [Ledger.resolve, List.map_map]
      exact List.map_congr_left fun f _ => resolvedId
    simpa only [Table.Unique, same] using keyed.factIds
  factBound f hf := by
    obtain ⟨old, hold, rfl⟩ := List.mem_map.mp hf
    rw [resolvedId]
    exact keyed.factBound old hold
  conflictIds := Table.amendUnique (fun _ => rfl) keyed.conflictIds
  conflictBound row hr := by
    obtain ⟨old, hold, rfl⟩ := Table.memAmend.mp hr
    have below := keyed.conflictBound old hold
    split
    · exact below
    · exact below

theorem Finished.resolve (finished : l.Finished) {conflictId winner : Nat} {row : Conflict} {w : Fact}
    {resolvedBy reason resolvedAt : String} (resolves : Resolves l conflictId winner row w) :
    (l.resolve conflictId winner w.validFrom resolvedBy reason resolvedAt).Finished := by
  refine Finished.update (l := l) (resolveKeyed finished.toKeyed) rfl rfl (fun _ => resolvedId) (fun f => ?_)
    fun f hf => ?_
  · unfold Fact.resolved
    split
    · rfl
    · split
      · rfl
      · rfl
  · unfold Fact.resolved
    split
    · exact sameEnds ⟨rfl, rfl, rfl, rfl, rfl⟩ (finished.ends f hf)
    · split
      · intro k replaced
        cases replaced
        refine ⟨rfl, resolves.factId ▸ finished.factBound w resolves.factMem, fun endless g hg id => ?_⟩
        rw [Table.uniqueEq finished.factIds hg resolves.factMem (id.trans resolves.factId.symm)]
        exact endless
      · exact finished.ends f hf

theorem eraseKeyed (keyed : l.Keyed) {factId : Nat} {requestedBy erasedAt : String}
    {cited lonely : List Nat} : (l.erase factId requestedBy erasedAt cited lonely).Keyed where
  factIds := by
    have same : (l.erase factId requestedBy erasedAt cited lonely).facts.map Fact.factId =
        l.facts.map Fact.factId := by
      simp only [Ledger.erase, List.map_map]
      exact List.map_congr_left fun f _ => (erasedDates f).factId
    simpa only [Table.Unique, same] using keyed.factIds
  factBound f hf := by
    obtain ⟨old, hold, rfl⟩ := List.mem_map.mp hf
    rw [(erasedDates old).factId]
    exact keyed.factBound old hold
  conflictIds := by
    have same : (l.erase factId requestedBy erasedAt cited lonely).conflicts.map
        Conflict.conflictId = l.conflicts.map Conflict.conflictId := by
      simp only [Ledger.erase, List.map_map]
      refine List.map_congr_left fun row _ => ?_
      simp only [Function.comp_apply]
      split
      · rfl
      · rfl
    simpa only [Table.Unique, same] using keyed.conflictIds
  conflictBound row hr := by
    obtain ⟨old, hold, rfl⟩ := List.mem_map.mp hr
    have below := keyed.conflictBound old hold
    split
    · exact below
    · exact below

theorem Finished.erase (finished : l.Finished) {factId : Nat} {requestedBy erasedAt : String}
    {cited lonely : List Nat} : (l.erase factId requestedBy erasedAt cited lonely).Finished :=
  Finished.update (l := l) (eraseKeyed finished.toKeyed) rfl rfl (fun f => (erasedDates f).factId)
    (fun f => (erasedDates f).validFrom) fun f hf => sameEnds (erasedDates f) (finished.ends f hf)

end Ledger
/-! ## Merges -/

structure Follows (clusters : List ClusterMerge) (f g : Fact) : Prop where
  factId : g.factId = f.factId
  validFrom : g.validFrom = f.validFrom
  validTo : g.validTo = f.validTo
  expiredAt : g.expiredAt = f.expiredAt
  successor : g.supersededBy = f.supersededBy ∨ g.supersededBy = none ∨
    ∃ c ∈ clusters, ∃ loser ∈ c.loserIds, f.supersededBy = some loser ∧
      g.supersededBy = some c.survivorId

structure Merging (plan : MergePlan) (s t : Store) : Prop where
  keyed : t.toLedger.Keyed
  next : t.nextFactId = s.nextFactId
  queue : t.queue = s.queue
  traced : ∀ g ∈ t.facts, ∃ f ∈ s.facts, Follows plan.clusters f g

section Merge
variable {plan : MergePlan} {s t : Store}

theorem rewriteSourcesDates (loser survivor : Nat) (f : Fact) :
    SameDates f (f.rewriteSources loser survivor) := by
  unfold Fact.rewriteSources
  split
  · exact ⟨rfl, rfl, rfl, rfl, rfl⟩
  · exact ⟨rfl, rfl, rfl, rfl, rfl⟩

theorem redirectSource (loser survivor : Nat) (f : Fact) :
    (f.redirectSuccessor loser survivor).factId = f.factId ∧
      (f.redirectSuccessor loser survivor).validFrom = f.validFrom ∧
      (f.redirectSuccessor loser survivor).validTo = f.validTo ∧
      (f.redirectSuccessor loser survivor).expiredAt = f.expiredAt ∧
      ((f.redirectSuccessor loser survivor).supersededBy = f.supersededBy ∨
        (f.redirectSuccessor loser survivor).supersededBy = none ∨
        f.supersededBy = some loser ∧
          (f.redirectSuccessor loser survivor).supersededBy = some survivor) := by
  unfold Fact.redirectSuccessor
  split
  · rename_i dropped
    refine ⟨rfl, rfl, rfl, rfl, .inr ?_⟩
    dsimp only
    split
    · exact .inl rfl
    · exact .inr ⟨dropped, rfl⟩
  · exact ⟨rfl, rfl, rfl, rfl, .inl rfl⟩

theorem Merging.drop {cluster : ClusterMerge} {loser : Nat} (inside : cluster ∈ plan.clusters)
    (dropped : loser ∈ cluster.loserIds) (merging : Merging plan s t) :
    Merging plan s (mergeFactReferences t cluster.survivorId loser) where
  keyed := by
    have ids : (t.facts.map fun f => (f.rewriteSources loser cluster.survivorId).redirectSuccessor
        loser cluster.survivorId).map Fact.factId = t.facts.map Fact.factId := by
      rw [List.map_map]
      exact List.map_congr_left fun f _ => (redirectSource _ _ _).1.trans (rewriteSourcesDates _ _ _).factId
    have rows : (mergeFactReferences t cluster.survivorId loser).conflicts.map Conflict.conflictId =
        t.conflicts.map Conflict.conflictId := by
      simp only [mergeFactReferences, List.map_map]
      rfl
    refine ⟨?_, fun f hf => ?_, ?_, fun row hr => ?_⟩
    · refine List.Nodup.sublist (List.Sublist.map _ List.filter_sublist) ?_
      rw [ids]
      exact merging.keyed.factIds
    · obtain ⟨old, hold, rfl⟩ := List.mem_map.mp (List.mem_filter.mp hf).1
      rw [(redirectSource _ _ _).1, (rewriteSourcesDates _ _ _).factId]
      exact merging.keyed.factBound old hold
    · simpa only [Table.Unique, rows] using merging.keyed.conflictIds
    · obtain ⟨old, hold, rfl⟩ := List.mem_map.mp hr
      exact merging.keyed.conflictBound old hold
  next := merging.next
  queue := merging.queue
  traced g hg := by
    obtain ⟨old, hold, rfl⟩ := List.mem_map.mp (List.mem_filter.mp hg).1
    obtain ⟨f, hf, follows⟩ := merging.traced old hold
    have rewritten := rewriteSourcesDates loser cluster.survivorId old
    obtain ⟨id, start, stop, expired, successor⟩ := redirectSource loser cluster.survivorId
      (old.rewriteSources loser cluster.survivorId)
    refine ⟨f, hf, id.trans (rewritten.factId.trans follows.factId),
      start.trans (rewritten.validFrom.trans follows.validFrom),
      stop.trans (rewritten.validTo.trans follows.validTo),
      expired.trans (rewritten.expiredAt.trans follows.expiredAt), ?_⟩
    rw [rewritten.supersededBy] at successor
    rcases successor with kept | gone | ⟨was, now⟩
    · rw [kept]
      exact follows.successor
    · exact .inr (.inl gone)
    · -- no survivor is a loser, so the dropped successor was there before the merge
      rcases follows.successor with same | none | ⟨c, hc, k, hk, before, after⟩
      · exact .inr (.inr ⟨cluster, inside, loser, dropped, same.symm.trans was, now⟩)
      · rw [was] at none
        cases none
      · rw [was] at after
        exact absurd (Option.some.inj after ▸ dropped) (plan.apart c hc cluster inside)

theorem Merging.absorb (cluster : ClusterMerge) {h : Fact → Fact} (merging : Merging plan s t)
    (same : ∀ f, SameDates f (h f)) : Merging plan s
      { t with facts := Table.amend (·.factId = cluster.survivorId) h t.facts } where
  keyed := merging.keyed.amend fun f => (same f).factId
  next := merging.next
  queue := merging.queue
  traced g hg := by
    obtain ⟨old, hold, rfl⟩ := Table.memAmend.mp hg
    obtain ⟨f, hf, follows⟩ := merging.traced old hold
    refine ⟨f, hf, ?_⟩
    split
    · have kept := same old
      exact ⟨kept.factId.trans follows.factId, kept.validFrom.trans follows.validFrom,
        kept.validTo.trans follows.validTo, kept.expiredAt.trans follows.expiredAt,
        kept.supersededBy.symm ▸ follows.successor⟩
    · exact follows

theorem mergingApplied (plan : MergePlan) (keyed : s.toLedger.Keyed) : Merging plan s (applyMerge s plan) :=
  mergeKeeps (fun c _ _ merging => merging.absorb c fun _ => ⟨rfl, rfl, rfl, rfl, rfl⟩)
    (fun _ inside _ dropped _ merging => merging.drop inside dropped)
    ⟨keyed, rfl, rfl, fun f hf => ⟨f, hf, rfl, rfl, rfl, rfl, .inl rfl⟩⟩

/-- The survivors of a plan are stored, and none with a start replaces an open-ended fact's
successor. -/
def MergePlan.KeepsDates (plan : MergePlan) (l : Ledger) : Prop :=
  ∀ c ∈ plan.clusters, (∃ w ∈ l.facts, w.factId = c.survivorId) ∧
    ∀ loser ∈ c.loserIds, ∀ f ∈ l.facts, f.supersededBy = some loser → f.validTo = none →
      ∀ w ∈ l.facts, w.factId = c.survivorId → w.validFrom = none

theorem mergedFinished (finished : s.toLedger.Finished) (keeps : plan.KeepsDates s.toLedger) :
    (applyMerge s plan).toLedger.Finished := by
  have merging := mergingApplied plan finished.toKeyed
  refine { merging.keyed with ends := fun g hg k replaced => ?_ }
  obtain ⟨f, hf, follows⟩ := merging.traced g hg
  have starts : ∀ {k : Nat}, (∀ w ∈ s.facts, w.factId = k → w.validFrom = none) →
      ∀ h ∈ (applyMerge s plan).facts, h.factId = k → h.validFrom = none := by
    intro k undated h hh id
    obtain ⟨w, hw, traced⟩ := merging.traced h hh
    rw [traced.validFrom]
    exact undated w hw (traced.factId.symm.trans id)
  rw [follows.expiredAt, follows.validTo, merging.next]
  rcases follows.successor with same | gone | ⟨c, hc, loser, dropped, was, now⟩
  · obtain ⟨expired, below, undated⟩ := finished.ends f hf k (same.symm.trans replaced)
    exact ⟨expired, below, fun endless => starts (undated endless)⟩
  · rw [gone] at replaced
    cases replaced
  · obtain ⟨expired, -, -⟩ := finished.ends f hf loser was
    obtain ⟨⟨w, hw, survivor⟩, undated⟩ := keeps c hc
    have id : c.survivorId = k := Option.some.inj (now.symm.trans replaced)
    refine ⟨expired, ?_, fun endless => ?_⟩
    · rw [← id, ← survivor]
      exact finished.factBound w hw
    · rw [← id]
      exact starts (undated loser dropped f hf was endless)

end Merge
/-! ## Writes -/

section Writes
variable {l l' : Ledger} {request : WriteRequest} {clock : Clock}

/-- No open-ended fact gets a successor with a start: neither by id, from an exact duplicate or
from extracted fields, nor by losing to a near duplicate. -/
structure KeepsDates (rt : Runtime) (svc : WriteService) (s : Store) (request : WriteRequest)
    (extracted : Option ExtractedTypedFields) (query : Option (List Rat)) (clock : Clock) : Prop where
  asked : ∀ old ∈ request.supersedeFactId, ∀ f ∈ s.facts, f.factId = old → f.current = true →
    f.validTo = none →
    match findUntypedExactDuplicate s.toLedger request with
    | some duplicate => ∀ g ∈ s.facts, g.factId = duplicate → g.validFrom = none
    | none => ∀ fields ∈ extracted, fields.validFrom = none
  lost : ∀ candidate, untypedMatch rt svc s request extracted query = .nearDuplicate candidate →
    ∀ f ∈ s.facts, f.factId = candidate.factId → f.protectedFrom request = true ∨
      candidate.outrankedBy request clock.recordedAt = false → f.validFrom = none

theorem storedDates (request : WriteRequest) (extracted : Option ExtractedTypedFields) (factId : Nat)
    (now : String) :
    (request.stored extracted factId now).factId = factId ∧
      (request.stored extracted factId now).supersededBy = none ∧
      (request.stored extracted factId now).validTo = none ∧
      ((∀ fields ∈ extracted, fields.validFrom = none) →
        (request.stored extracted factId now).validFrom = none) := by
  cases extracted with
  | none => exact ⟨rfl, rfl, rfl, fun _ => rfl⟩
  | some fields => exact ⟨rfl, rfl, rfl, fun undated => undated fields rfl⟩

theorem Ledger.Finished.untyped (finished : l.Finished) {extracted : Option ExtractedTypedFields}
    {found : UntypedMatch} {result : FactWriteResult}
    (lost : ∀ candidate, found = .nearDuplicate candidate → ∀ f ∈ l.facts,
      f.factId = candidate.factId → f.protectedFrom request = true ∨
        candidate.outrankedBy request clock.recordedAt = false → f.validFrom = none)
    (effect : UntypedEffect l request extracted clock found l' result) : l'.Finished := by
  cases effect with
  | duplicate => exact finished
  | fresh => exact finished.insert (storedDates _ _ _ _).1 (endsActive (storedDates _ _ _ _).2.1)
  | dispute opened =>
    obtain ⟨-, subject, predicate, detail, f, -, -, -, -, -, -, rfl⟩ := opened
    exact ((finished.openConflict (.detected l.nextConflictId request.scope subject predicate
      clock.recordedAt detail) [_] rfl fun f => show SameDates f (f.disputeAs l.nextConflictId subject
        predicate) from ⟨rfl, rfl, rfl, rfl, rfl⟩).insert rfl (endsActive rfl)).join
  | @wins candidate f mem id =>
    have below := finished.factBound f mem
    have other : (request.row l.nextFactId clock.insertedAt).factId ≠ candidate.factId := by
      rw [← id]
      exact fun same => absurd same (Nat.ne_of_gt below)
    rw [← Ledger.retireInsert other, ← id]
    refine (finished.insert rfl (endsActive rfl)).retire (List.mem_append_left _ mem)
      (Nat.lt_succ_self _) (fun _ => rfl) (fun _ => rfl) rfl rfl fun _ g hg same => ?_
    rcases List.mem_append.mp hg with hg | hg
    · have := finished.factBound g hg
      omega
    · rw [List.mem_singleton.mp hg]
      rfl
  | @loses candidate f mem id here behind =>
    refine finished.insert rfl fun k replaced => ?_
    cases replaced
    refine ⟨rfl, id ▸ Nat.lt_succ_of_lt (finished.factBound f mem), fun _ g hg same => ?_⟩
    rcases List.mem_append.mp hg with hg | hg
    · rw [Table.uniqueEq finished.factIds hg mem (same.trans id.symm)]
      exact lost candidate rfl f mem id behind
    · rw [List.mem_singleton.mp hg]
      rfl

theorem Ledger.Finished.superseded (finished : l.Finished) {survivor : Nat} {now : String}
    (undated : ∀ old ∈ request.supersedeFactId, old ≠ survivor → ∀ f ∈ l.facts, f.factId = old →
      f.current = true → f.validTo = none → ∀ g ∈ l.facts, g.factId = survivor → g.validFrom = none)
    (h : Superseded l request survivor now l') : l'.Finished := by
  cases h with
  | unasked => exact finished
  | @retired old f g asked apart mem id current kind calm other otherId scope =>
    rw [← id]
    exact finished.retire mem (otherId ▸ finished.factBound g other) (fun _ => rfl) (fun _ => rfl) rfl
      rfl fun endless => undated old asked apart f mem id current endless

theorem Ledger.Finished.typed (finished : l.Finished) {context : ConnectionContext}
    {slot : SlotDecision} {effective : StateCandidate} {confidence : Option Rat}
    (effect : StateEffect rt l context request slot effective confidence clock l') :
    l'.Finished := by
  cases effect with
  | evidence => exact finished
  | add => exact finished.insert rfl (endsActive rfl)
  | @replace target f action aimed mem id =>
    have below := finished.factBound f mem
    have other : (request.typed effective none confidence l.nextFactId clock).factId ≠ target := by
      rw [← id]
      exact fun same => absurd same (Nat.ne_of_gt below)
    rw [← Ledger.retireInsert other, ← id]
    refine (finished.insert rfl (endsActive rfl)).retire (List.mem_append_left _ mem)
      (Nat.lt_succ_self _) (fun _ => rfl) (fun _ => rfl) rfl rfl fun endless g hg same => ?_
    -- the retired fact ends where its successor starts, if that has a start
    have undated : effective.validFrom = none := by
      simp only [Fact.outdate, Fact.close] at endless
      cases own : f.validTo with
      | none => simpa [own] using endless
      | some stop => simp [own] at endless
    rcases List.mem_append.mp hg with hg | hg
    · have := finished.factBound g hg
      omega
    · rw [List.mem_singleton.mp hg]
      exact undated
  | dispute =>
    exact ((finished.openConflict (.detected l.nextConflictId (Text.strip slot.scope)
      (Text.strip slot.subjectKey) (Text.strip slot.predicateKey) clock.recordedAt _) _
      rfl fun f => show SameDates f (f.dispute l.nextConflictId) from ⟨rfl, rfl, rfl, rfl, rfl⟩).insert rfl
        (endsActive rfl)).join
  | join => exact (finished.insert rfl (endsActive rfl)).join
  | @settle conflictId _ _ _ action group wide mem id unresolved fits current fresh resolved =>
    have joined := (finished.insert
      (g := request.typed effective (some conflictId) confidence l.nextFactId clock) rfl
      (endsActive rfl)).join (m := ⟨conflictId, l.nextFactId⟩)
    obtain ⟨row, w, resolves, -, -, left, -⟩ := resolveStateConflictSource joined.toKeyed resolved
    rw [left]
    exact joined.resolve resolves

theorem WriteEffect.finished {svc : WriteService} {context : ConnectionContext} {s : Store}
    {candidate : Option StateCandidate} {extracted : Option ExtractedTypedFields}
    {query : Option (List Rat)} (finished : s.toLedger.Finished)
    (keeps : candidate = none → loadPrior s context.clientId request.idempotencyKey = none →
      verdict rt svc.policy context s.toLedger request none = .ok .untyped →
      KeepsDates rt svc s request extracted query clock)
    (effect : WriteEffect rt svc context clock s request candidate extracted query l) :
    l.Finished := by
  cases effect with
  | same => exact finished
  | typed _ _ _ effect => exact finished.typed effect
  | @untyped found l₁ result _ free bare judged chosen effect superseded =>
    obtain ⟨replaced, lost⟩ := keeps bare free (bare ▸ judged)
    have written := finished.untyped (fun candidate near => lost candidate (chosen.found.trans near))
      effect
    refine written.superseded (fun old asked apart f mem id current endless g hg survivor => ?_) superseded
    cases effect with
    | duplicate =>
      cases chosen with
      | duplicate exact' =>
        have undated := replaced old asked f mem id current endless
        rw [exact'] at undated
        exact undated g hg survivor
    | fresh =>
      have stored := storedDates request extracted s.nextFactId clock.insertedAt
      have before : f ∈ s.facts := by
        rcases List.mem_append.mp mem with mem | mem
        · exact mem
        · rw [List.mem_singleton.mp mem, stored.1] at id
          exact absurd id.symm apart
      have distinct : findUntypedExactDuplicate s.toLedger request = none := by
        cases chosen with
        | bypass distinct => exact distinct
        | unmatched distinct => exact distinct
      have undated := replaced old asked f before id current endless
      rw [distinct] at undated
      rcases List.mem_append.mp hg with hg | hg
      · have := finished.factBound g hg
        simp only at survivor
        omega
      · rw [List.mem_singleton.mp hg]
        exact stored.2.2.2 undated
    | dispute =>
      have plain : request.supersedeFactId = none := by
        cases chosen with
        | contradiction _ plain => exact plain.2
        | nearContradiction _ plain => exact plain.2
      rw [plain] at asked
      cases asked
    | wins =>
      cases chosen with
      | nearDuplicate _ plain =>
        rw [plain.2] at asked
        cases asked
    | loses =>
      cases chosen with
      | nearDuplicate _ plain =>
        rw [plain.2] at asked
        cases asked

end Writes

/-! ## Histories -/

/-- A store a writer may open: nothing retired is unfinished, and no queue row is half claimed. -/
structure Store.Finished (rt : Runtime) (s : Store) : Prop where
  ledger : s.toLedger.Finished
  queue : ∀ row ∈ s.queue, row.unfinished rt = false

theorem finishedOpens {s : Store} (finished : s.Finished rt) :
    requireCompatibleSchema rt s true = .ok 1 := by
  have rows : needsExtractionQueuePatch rt s.queue = false := by
    simp only [needsExtractionQueuePatch, List.any_eq_false]
    intro row mem pending
    rw [finished.queue row mem] at pending
    cases pending
  simp [requireCompatibleSchema, rows, finished.ledger.patched]

theorem finishedEmpty : Store.empty.Finished rt where
  ledger := {
    factIds := List.nodup_nil
    factBound _ hf := absurd hf List.not_mem_nil
    conflictIds := List.nodup_nil
    conflictBound _ hr := absurd hr List.not_mem_nil
    ends _ hf := absurd hf List.not_mem_nil }
  queue _ hr := absurd hr List.not_mem_nil

/-- The operation leaves no open-ended fact with a dated successor. -/
def Operation.KeepsDates (s : Store) (o : Operation rt) : Prop :=
  o.WritesMeet (fun svc context s timed query => timed.item.candidate = none →
    loadPrior s context.clientId timed.item.request.idempotencyKey = none →
    verdict rt svc.policy context s.toLedger timed.item.request none = .ok .untyped →
    ∀ extracted, extractedTypedFields rt timed.item.request none = .ok extracted →
      Enfold.KeepsDates rt svc s timed.item.request extracted query timed.clock) s ∧
  match o with
  | .mergeClusters plan _ _ _ => plan.KeepsDates s.toLedger
  | _ => True

section Operations
variable {svc : WriteService} {effective : ConnectionContext} {s t : Store}

theorem transactQueue {context : ConnectionContext} {clock : Clock} {request : WriteRequest}
    {candidate : Option StateCandidate} {extracted : Option ExtractedTypedFields}
    {query : Option (List Rat)} {outcome : WriteOutcome}
    (h : transact rt svc context clock s request candidate extracted query = .ok (t, outcome)) :
    t.queue = s.queue := by
  obtain ⟨clients, sessions, -, ⟨prior, -, -, rfl, -⟩ | ⟨-, fresh⟩⟩ := transactSource h
  · rfl
  · rcases writeFreshSource fresh with ⟨decision, -, done⟩ |
        ⟨applied, observations, observationId, -, -, concluded⟩ |
        ⟨slot, effective, applied, observations, observationId, -, -, concluded⟩
    · obtain ⟨-, ⟨-, -, rfl⟩ | ⟨-, rfl⟩⟩ := concludeFactlessSource done
      · rfl
      · rfl
    · obtain ⟨l, superseded, resolutions, jobs, provenance, -, -, -, -, rfl⟩ :=
        concludeAppliedSource concluded
      rfl
    · obtain ⟨l, superseded, resolutions, jobs, provenance, -, -, -, -, rfl⟩ :=
        concludeAppliedSource concluded
      rfl

theorem stepFinished {timed : TimedWrite rt} {query : Option (List Rat)} {outcome : WriteOutcome}
    (authorized : svc.policy.authorizeContext rt svc.legacyAuthorized effective = .ok effective)
    (keeps : timed.item.candidate = none →
      loadPrior s effective.clientId timed.item.request.idempotencyKey = none →
      verdict rt svc.policy effective s.toLedger timed.item.request none = .ok .untyped →
      ∀ extracted, extractedTypedFields rt timed.item.request none = .ok extracted →
        KeepsDates rt svc s timed.item.request extracted query timed.clock)
    (h : batchStep rt svc effective s (timed, query) = .ok (t, outcome)) (finished : s.Finished rt) :
    t.Finished rt := by
  obtain ⟨extracted, -, fields, done⟩ := batchStepSource authorized h
  refine ⟨(transactEffect finished.ledger.toKeyed done).finished finished.ledger fun bare free judged => ?_, ?_⟩
  · refine keeps bare free judged extracted ?_
    rw [← bare]
    exact fields
  · rw [transactQueue done]
    exact finished.queue

theorem performFinished {o : Operation rt} (keeps : o.KeepsDates s) (done : o.perform s = .ok t)
    (finished : s.Finished rt) : t.Finished rt := by
  cases o with
  | write svc context timed =>
    exact writeKeeps (P := Store.Finished rt) (fun authorized keeps h => stepFinished authorized keeps h)
      keeps.1 done finished
  | writeBatch svc context writes rollbackIf completes =>
    refine batchKeeps (P := Store.Finished rt)
      (fun authorized keeps h => stepFinished authorized keeps h) (fun finished => ?_) keeps.1 done
      finished
    exact ⟨finished.ledger, fun row hr => finished.queue row (List.mem_filter.mp hr).1⟩
  | resolveConflict svc context conflictId factId reason resolvedAt queuedAt =>
    simp only [Operation.perform, bindOk, Prod.exists] at done
    obtain ⟨effective, -, u, resolution, resolved, last⟩ := done
    cases last
    obtain ⟨clients, sessions, resolutions, jobs, l, settled, same⟩ := resolveConflictSource resolved
    obtain ⟨row, w, resolves, -, -, left, -⟩ :=
      resolveStateConflictSource finished.ledger.toKeyed settled
    rw [same]
    refine ⟨?_, finished.queue⟩
    change l.Finished
    rw [left]
    exact finished.ledger.resolve resolves
  | eraseFact factId requestedBy reason erasedAt =>
    simp only [Operation.perform, bindOk, Prod.exists] at done
    obtain ⟨u, report, erased, last⟩ := done
    cases last
    obtain ⟨insights, conflicts, linked, erased, queue⟩ := eraseFactSource erased
    obtain ⟨cited, lonely, left, -, -⟩ := eraseLedgerSource finished.ledger.toKeyed erased
    refine ⟨?_, fun row hr => ?_⟩
    · rw [left]
      exact finished.ledger.erase
    · rw [queue] at hr
      obtain ⟨old, hold, rfl⟩ := Table.memAmend.mp hr
      split
      · rfl
      · exact finished.queue old hold
  | mergeClusters plan least most fraction =>
    simp only [Operation.perform, executeMerge, bindOk] at done
    obtain ⟨-, -, -, -, last⟩ := done
    cases last
    have merging := mergingApplied plan finished.ledger.toKeyed
    refine ⟨mergedFinished finished.ledger keeps.2, ?_⟩
    rw [merging.queue]
    exact finished.queue
  | storeEmbedding =>
    cases done
    exact ⟨finished.ledger, finished.queue⟩

/-- In every store a run passes through, as long as its operations keep dates, a writer opens. -/
theorem storeReopens {ops pre post : List (Operation rt)} (shape : ops = pre ++ post)
    (meets : Run.Meets Operation.perform Operation.KeepsDates Store.empty ops) :
    requireCompatibleSchema rt (history pre) true = .ok 1 := by
  rw [shape] at meets
  exact finishedOpens (Run.invariantWhen (P := Store.Finished rt)
    (fun _ _ _ keeps done finished => performFinished keeps done finished) (Run.meetsAppend meets)
    finishedEmpty)

end Operations
namespace Example

def tea : TimedWrite .plain where
  clock := .at "2026-01-04"
  item := {
    request := WriteRequest.plain "k3" "tea is green" "user"
    candidate := none
    requestBuilt := by decide +kernel
    candidateBuilt := WriteItem.unslotted }

def restated : TimedWrite .plain where
  clock := .at "2026-01-05"
  item := {
    request := { WriteRequest.plain "k4" "Alex is in Lima" "user" with supersedeFactId := some 2 }
    candidate := none
    requestBuilt := by decide +kernel
    candidateBuilt := WriteItem.unslotted }

def mat : TimedWrite .plain := claim "k5" "a cat sat on the mat" none (by decide +kernel)
def secondMat : TimedWrite .plain := claim "k6" "the cat sat on the mat" none (by decide +kernel)
def dogsInstead : TimedWrite .plain := claim "k7" "dogs bark loudly" (some 2) (by decide +kernel)

def datedSuccessor : List (Operation .plain) :=
  [.write trusted caller lima, .write trusted caller tea, .write trusted caller restated]

def keptDates : List (Operation .plain) :=
  [.write trusted caller lima, .write trusted caller mat, .storeEmbedding ⟨2, [1], 1, "m"⟩,
    .write searching caller secondMat, .write trusted caller dogsInstead]

theorem storeReopensHere : (history keptDates).facts.map Fact.supersededBy = [none, some 4, some 2, none] ∧
    requireCompatibleSchema .plain (history keptDates) true = .ok 1 := by
  have trusts : trusted.policy.authorizeContext .plain trusted.legacyAuthorized caller = .ok caller :=
    okOfOption (by decide +kernel)
  have searches : searching.policy.authorizeContext .plain searching.legacyAuthorized caller = .ok caller :=
    okOfOption (by decide +kernel)
  refine ⟨by decide +kernel, storeReopens (List.append_nil _).symm ⟨⟨?_, trivial⟩, ⟨?_, trivial⟩,
    ⟨trivial, trivial⟩, ⟨?_, trivial⟩, ⟨?_, trivial⟩, trivial⟩⟩
  · intro effective query _ _ bare
    cases bare
  · have bare : prepareNearDedupQuery .plain trusted caller (history (keptDates.take 1)) mat.item.request none =
        .ok none := rfl
    refine writeMeets trusts bare fun _ _ _ extracted fields => ?_
    have chosen : untypedMatch .plain trusted (history (keptDates.take 1)) mat.item.request none none = .fresh := by
      decide +kernel
    obtain rfl := Except.ok.inj (Eq.symm (fields.symm.trans rfl))
    refine ⟨fun old asked => (by cases asked), fun candidate near => ?_⟩
    cases chosen.symm.trans near
  · have prepared : prepareNearDedupQuery .plain searching caller (history (keptDates.take 3))
        secondMat.item.request none = .ok (some [1]) := okOfOption (by decide +kernel)
    refine writeMeets searches prepared fun _ _ _ extracted fields => ?_
    have chosen : untypedMatch .plain searching (history (keptDates.take 3)) secondMat.item.request none
        (some [1]) = .nearDuplicate ⟨2, 1 / 2, "2026-01-03", 1⟩ := by
      decide +kernel
    have undated : ∀ f ∈ (history (keptDates.take 3)).facts, f.factId = 2 → f.validFrom = none := by
      decide +kernel
    obtain rfl := Except.ok.inj (Eq.symm (fields.symm.trans rfl))
    refine ⟨fun old asked => (by cases asked), fun candidate near f hf id _ => undated f hf ?_⟩
    cases chosen.symm.trans near
    exact id
  · have bare : prepareNearDedupQuery .plain trusted caller (history (keptDates.take 4))
        dogsInstead.item.request none = .ok none := rfl
    refine writeMeets trusts bare fun _ _ _ extracted fields => ?_
    have distinct : findUntypedExactDuplicate (history (keptDates.take 4)).toLedger dogsInstead.item.request =
        none := by
      decide +kernel
    have chosen : untypedMatch .plain trusted (history (keptDates.take 4)) dogsInstead.item.request none none =
        .fresh := by
      decide +kernel
    obtain rfl := Except.ok.inj (Eq.symm (fields.symm.trans rfl))
    refine ⟨fun old _ f _ _ _ _ => ?_, fun candidate near => ?_⟩
    · split
      · rename_i duplicate
        cases distinct.symm.trans duplicate
      · intro fields given
        cases given
    · cases chosen.symm.trans near

theorem storeRefused :
    requireCompatibleSchema .plain (history datedSuccessor) true ≠ .ok 1 := by
  intro opened
  have refused : (requireCompatibleSchema .plain (history datedSuccessor) true).toOption = none := by
    decide +kernel
  rw [opened] at refused
  cases refused

end Example
end Enfold
