import Enfold.Foundation.Pooling
import Enfold.SlotVocabulary
import Enfold.SupersessionForest

/-! What a cluster merge conserves. Every row meets its own fate, so that counts and pointers are
followed one row at a time and only the totals need the clusters to be apart. -/
namespace Enfold

open Fallible

/-- `_active_fact_ids`. -/
def Fact.countedActive (f : Fact) : Bool :=
  f.current && f.conflictGroup.isNone && !isLegacySuperseded f.content

def Ledger.activeFacts (l : Ledger) : List Fact := l.facts.filter Fact.countedActive

def Ledger.activeTotal (count : Fact → Nat) (l : Ledger) : Nat := (l.activeFacts.map count).sum

def ClusterMerge.members : ClusterMerge → List Nat :=
  Pooling.members ClusterMerge.survivorId ClusterMerge.loserIds

/-- What is still in the store. -/
def MergePlan.left (plan : MergePlan) (factIds : List Nat) : List Nat :=
  Pooling.kept ClusterMerge.loserIds plan.clusters factIds

def MergePlan.dropped (plan : MergePlan) : List Nat := plan.clusters.flatMap ClusterMerge.loserIds

/-- `starting_fact_count - drop_count`. -/
def MergePlan.projectedFinalCount (plan : MergePlan) (startingFactCount : Nat) : Int :=
  startingFactCount - plan.dropCount

def mergeEntities (plan : MergePlan) (links : List FactEntity) : List FactEntity :=
  plan.clusters.foldl (fun links c => c.loserIds.foldl (fun links loser =>
    redirect (·.factId = loser) (fun link => { link with factId := c.survivorId }) links) links) links

inductive Store.Refers (s : Store) (factId : Nat) : Prop
  | supersededBy {f} (row : f ∈ s.facts) (named : f.supersededBy = some factId)
  | provenance {p} (row : p ∈ s.provenance) (named : p.factId = factId)
  | written {w} (row : w ∈ s.writeLog) (named : w.factId = some factId)
  | existing {w} (row : w ∈ s.writeLog) (named : w.existingFactId = some factId)
  | erased {e} (row : e ∈ s.erasures) (named : e.factId = factId)
  | job {j} (row : j ∈ s.jobs) (named : j.factId = factId)
  | embedding {e} (row : e ∈ s.embeddings) (named : e.factId = factId)
  | resolved {c} (row : c ∈ s.conflicts) (named : c.resolutionFactId = some factId)
  | member {m} (row : m ∈ s.members) (named : m.factId = factId)
  | resolution {r} (row : r ∈ s.resolutions) (named : r.resolutionFactId = factId)

/-! ## References -/

section References
variable {s t : Store} {factId survivor loser : Nat}

theorem memRedirect {α : Type} [DecidableEq α] {p : α → Bool} {move : α → α} {rows : List α} {row : α}
    (h : row ∈ redirect p move rows) :
    (row ∈ rows ∧ p row = false) ∨ ∃ old ∈ rows, p old = true ∧ row = move old := by
  obtain ⟨old, hold, made⟩ := List.mem_filterMap.mp h
  split at made
  · rename_i other
    cases made
    exact .inl ⟨hold, by simpa using other⟩
  · rename_i own
    split at made
    · cases made
    · cases made
      exact .inr ⟨old, hold, by simpa using own, rfl⟩

theorem refersDrop (h : (mergeFactReferences s survivor loser).Refers factId) :
    factId = survivor ∨ (factId ≠ loser ∧ s.Refers factId) := by
  have followed {old : Option Nat} (named : (if old = some loser then some survivor else old) = some factId) :
      factId = survivor ∨ (factId ≠ loser ∧ old = some factId) := by
    split at named
    · exact .inl (Option.some.inj named).symm
    · rename_i other
      exact .inr ⟨fun same => other (same ▸ named), named⟩
  have moved {old : Nat} (named : (if old = loser then survivor else old) = factId) :
      factId = survivor ∨ (factId ≠ loser ∧ old = factId) := by
    split at named
    · exact .inl named.symm
    · rename_i other
      exact .inr ⟨fun same => other (named.trans same), named⟩
  cases h with
  | supersededBy row named =>
    obtain ⟨old, hold, -, rfl⟩ := followedFacts.mp row
    rw [(followSource loser survivor old).2.2.2.2] at named
    split at named
    · split at named
      · cases named
      · exact .inl (Option.some.inj named).symm
    · rename_i other
      exact .inr ⟨fun same => other (same ▸ named), .supersededBy hold named⟩
  | provenance row named =>
    obtain ⟨old, hold, made⟩ := List.mem_filterMap.mp row
    split at made
    · rename_i other
      cases made
      exact .inr ⟨fun same => other (named.trans same), .provenance hold named⟩
    · split at made
      · cases made
      · cases made
        exact .inl named.symm
  | written row named =>
    obtain ⟨old, hold, rfl⟩ := List.mem_map.mp row
    exact (followed named).imp_right fun ⟨other, same⟩ => ⟨other, .written hold same⟩
  | existing row named =>
    obtain ⟨old, hold, rfl⟩ := List.mem_map.mp row
    exact (followed named).imp_right fun ⟨other, same⟩ => ⟨other, .existing hold same⟩
  | erased row named =>
    obtain ⟨old, hold, rfl⟩ := List.mem_map.mp row
    exact (moved named).imp_right fun ⟨other, same⟩ => ⟨other, .erased hold same⟩
  | job row named =>
    obtain ⟨hold, other⟩ := Table.memRemove.mp row
    exact .inr ⟨fun same => of_decide_eq_false other (named.trans same), .job hold named⟩
  | embedding row named =>
    obtain ⟨hold, other⟩ := Table.memRemove.mp row
    exact .inr ⟨fun same => of_decide_eq_false other (named.trans same), .embedding hold named⟩
  | resolved row named =>
    obtain ⟨old, hold, rfl⟩ := List.mem_map.mp row
    exact (followed named).imp_right fun ⟨other, same⟩ => ⟨other, .resolved hold same⟩
  | member row named =>
    rcases memRedirect row with ⟨hold, other⟩ | ⟨old, -, -, rfl⟩
    · exact .inr ⟨fun same => of_decide_eq_false other (named.trans same), .member hold named⟩
    · exact .inl named.symm
  | resolution row named =>
    obtain ⟨old, hold, rfl⟩ := List.mem_map.mp row
    exact (moved named).imp_right fun ⟨other, same⟩ => ⟨other, .resolution hold same⟩

theorem refersAbsorb {c : ClusterMerge}
    (h : { s with facts := Table.amend (·.factId = c.survivorId) c.absorb s.facts : Store }.Refers factId) :
    s.Refers factId := by
  cases h with
  | supersededBy row named =>
    obtain ⟨old, hold, rfl⟩ := Table.memAmend.mp row
    refine .supersededBy hold ?_
    split at named
    · exact named
    · exact named
  | provenance row named => exact .provenance row named
  | written row named => exact .written row named
  | existing row named => exact .existing row named
  | erased row named => exact .erased row named
  | job row named => exact .job row named
  | embedding row named => exact .embedding row named
  | resolved row named => exact .resolved row named
  | member row named => exact .member row named
  | resolution row named => exact .resolution row named

theorem foldlReaches {σ β : Type} {P : σ → Prop} {step : σ → β → σ} {items : List β} {b : β} (listed : b ∈ items)
    (reach : ∀ s, P (step s b)) (keep : ∀ c ∈ items, ∀ s, P s → P (step s c)) (s : σ) :
    P (items.foldl step s) := by
  induction items generalizing s with
  | nil => cases listed
  | cons c rest ih =>
    have later : ∀ d ∈ rest, ∀ s, P s → P (step s d) := fun d hd => keep d (List.mem_cons_of_mem _ hd)
    rcases List.mem_cons.mp listed with rfl | listed
    · exact List.foldlRecOn rest _ (reach s) fun s before d hd => later d hd s before
    · exact ih listed later (step s c)

theorem unreferred {plan : MergePlan} {c : ClusterMerge} (hc : c ∈ plan.clusters) (lost : loser ∈ c.loserIds) :
    ¬ (applyMerge s plan).Refers loser := by
  have other (d : ClusterMerge) (hd : d ∈ plan.clusters) : loser ≠ d.survivorId :=
    fun same => plan.apart d hd c hc (same ▸ lost)
  have drops (d : ClusterMerge) (hd : d ∈ plan.clusters) (k : Nat) (t : Store) (before : ¬ t.Refers loser) :
      ¬ (mergeFactReferences t d.survivorId k).Refers loser :=
    fun named => (refersDrop named).elim (other d hd) fun ⟨_, old⟩ => before old
  refine foldlReaches (P := fun t : Store => ¬ t.Refers loser) hc (fun t => ?_) (fun d hd t before => ?_) s
  · refine foldlReaches (P := fun t : Store => ¬ t.Refers loser) lost (fun t named => ?_) (fun k _ t before => ?_) _
    · exact (refersDrop named).elim (other c hc) fun ⟨apart, _⟩ => apart rfl
    · exact drops c hc k t before
  · exact clusterKeeps (P := fun t => ¬ t.Refers loser) (fun t before named => before (refersAbsorb named))
      (fun k _ t before => drops d hd k t before) before

theorem unlinked {plan : MergePlan} {c : ClusterMerge} (hc : c ∈ plan.clusters) (lost : loser ∈ c.loserIds)
    (links : List FactEntity) : ∀ link ∈ mergeEntities plan links, link.factId ≠ loser := by
  have other (d : ClusterMerge) (hd : d ∈ plan.clusters) : d.survivorId ≠ loser :=
    fun same => plan.apart d hd c hc (same.symm ▸ lost)
  have drops (d : ClusterMerge) (hd : d ∈ plan.clusters) (k : Nat) (links : List FactEntity)
      (before : ∀ link ∈ links, link.factId ≠ loser) :
      ∀ link ∈ redirect (·.factId = k) (fun link => { link with factId := d.survivorId }) links,
        link.factId ≠ loser := by
    intro link hl
    rcases memRedirect hl with ⟨old, -⟩ | ⟨old, -, -, rfl⟩
    · exact before link old
    · exact other d hd
  refine foldlReaches (P := fun links => ∀ link ∈ links, link.factId ≠ loser) hc (fun links => ?_)
    (fun d hd links before => ?_) links
  · refine foldlReaches (P := fun links => ∀ link ∈ links, link.factId ≠ loser) lost (fun links link hl => ?_)
      (fun k _ links before => drops c hc k links before) links
    rcases memRedirect hl with ⟨-, apart⟩ | ⟨old, -, -, rfl⟩
    · exact of_decide_eq_false apart
    · exact other c hc
  · exact List.foldlRecOn d.loserIds _ before fun links before k _ => drops d hd k links before

end References

/-! ## The fate of a row -/

def Fact.afterDrop (survivor : Nat) (f : Fact) (loser : Nat) : Option Fact :=
  if f.factId = loser then none else some (f.follow loser survivor)

def ClusterMerge.fate (f : Fact) (c : ClusterMerge) : Option Fact :=
  c.loserIds.foldlM (Fact.afterDrop c.survivorId) (if f.factId = c.survivorId then c.absorb f else f)

def MergePlan.fate (plan : MergePlan) (f : Fact) : Option Fact := plan.clusters.foldlM ClusterMerge.fate f

def ClusterMerge.standIn (factId : Nat) (c : ClusterMerge) : Nat :=
  if factId ∈ c.loserIds then c.survivorId else factId

def MergePlan.standIn (plan : MergePlan) (factId : Nat) : Nat := plan.clusters.foldl ClusterMerge.standIn factId

section Fates
variable {s : Store} {f g : Fact}

theorem foldlRowwise {σ α β : Type} (rows : σ → List α) {step : σ → β → σ} {act : α → β → Option α}
    (each : ∀ s b, rows (step s b) = (rows s).filterMap (act · b)) (items : List β) (s : σ) :
    rows (items.foldl step s) = (rows s).filterMap fun row => items.foldlM act row := by
  induction items generalizing s with
  | nil => exact List.filterMap_some.symm
  | cons b rest ih =>
    rw [List.foldl_cons, ih, each, List.filterMap_filterMap]
    exact List.filterMap_congr fun row _ => rfl

theorem droppedRows (s : Store) (survivor loser : Nat) :
    (mergeFactReferences s survivor loser).facts = s.facts.filterMap (Fact.afterDrop survivor · loser) := by
  change Table.remove (·.factId = loser) (s.facts.map (Fact.follow loser survivor)) = _
  rw [Table.remove, List.filter_map, ← List.filterMap_eq_filter, List.map_filterMap]
  refine List.filterMap_congr fun f _ => ?_
  simp only [Fact.afterDrop, Function.comp_apply, (followSource loser survivor f).1, Option.guard]
  split <;> simp_all

theorem clusterRows (s : Store) (c : ClusterMerge) :
    (applyCluster s c).facts = s.facts.filterMap (ClusterMerge.fate · c) := by
  refine (foldlRowwise (fun t : Store => t.facts)
    (fun t loser => droppedRows t c.survivorId loser) c.loserIds _).trans ?_
  rw [Table.amend, List.filterMap_map]
  refine List.filterMap_congr fun f _ => ?_
  simp only [Function.comp_apply, ClusterMerge.fate, decide_eq_true_eq]
  rfl

theorem mergedRows (s : Store) (plan : MergePlan) : (applyMerge s plan).facts = s.facts.filterMap plan.fate :=
  foldlRowwise (fun t : Store => t.facts) clusterRows plan.clusters s

structure Fact.KeptAs (f g : Fact) (standIn : Nat → Nat) (retrievalCount helpfulCount : Nat) : Prop where
  factId : g.factId = f.factId
  content : g.content = f.content
  invalidAt : g.invalidAt = f.invalidAt
  conflictGroup : g.conflictGroup = f.conflictGroup
  successor : g.supersededBy = f.supersededBy.map standIn
  retrieval : g.retrievalCount = retrievalCount
  helpful : g.helpfulCount = helpfulCount

theorem followKept {survivor : Nat} (loser : Nat) (last : f.factId = survivor → f.supersededBy = none) :
    f.KeptAs (f.follow loser survivor) (fun k => if k = loser then survivor else k) f.retrievalCount
      f.helpfulCount := by
  obtain ⟨id, -, invalid, group, pointer⟩ := followSource loser survivor f
  have rewritten : (f.follow loser survivor).content = f.content ∧
      (f.follow loser survivor).retrievalCount = f.retrievalCount ∧
      (f.follow loser survivor).helpfulCount = f.helpfulCount := by
    unfold Fact.follow Fact.redirectSuccessor Fact.rewriteSources
    split
    · split
      · exact ⟨rfl, rfl, rfl⟩
      · exact ⟨rfl, rfl, rfl⟩
    · split
      · exact ⟨rfl, rfl, rfl⟩
      · exact ⟨rfl, rfl, rfl⟩
  refine ⟨id, rewritten.1, invalid, group, ?_, rewritten.2.1, rewritten.2.2⟩
  rw [pointer]
  cases replaced : f.supersededBy with
  | none => rw [if_neg nofun, Option.map_none]
  | some k =>
    have other : f.factId ≠ survivor := fun same => by
      rw [last same] at replaced
      cases replaced
    rw [Option.map_some, if_neg other]
    by_cases pointed : k = loser
    · rw [if_pos (congrArg some pointed), if_pos pointed]
    · rw [if_neg fun same => pointed (Option.some.inj same), if_neg pointed]

theorem losersFate {survivor : Nat} (losers : List Nat) (last : f.factId = survivor → f.supersededBy = none) :
    (losers.foldlM (Fact.afterDrop survivor) f = none ↔ f.factId ∈ losers) ∧
      ∀ g, losers.foldlM (Fact.afterDrop survivor) f = some g →
        f.KeptAs g (fun k => if k ∈ losers then survivor else k) f.retrievalCount f.helpfulCount := by
  induction losers generalizing f with
  | nil =>
    refine ⟨iff_of_false nofun List.not_mem_nil, fun g same => ?_⟩
    cases same
    refine ⟨rfl, rfl, rfl, rfl, ?_, rfl, rfl⟩
    simp
  | cons loser rest ih =>
    simp only [List.foldlM_cons, Option.bind_eq_bind, Fact.afterDrop, List.mem_cons]
    by_cases own : f.factId = loser
    · rw [if_pos own, Option.bind_none]
      exact ⟨iff_of_true rfl (.inl own), fun _ same => nomatch same⟩
    · rw [if_neg own, Option.bind_some]
      have kept := followKept loser last
      have still : (f.follow loser survivor).factId = survivor → (f.follow loser survivor).supersededBy = none := by
        intro same
        rw [kept.successor, last (kept.factId.symm.trans same), Option.map_none]
      obtain ⟨gone, left⟩ := ih still
      refine ⟨?_, fun g same => ?_⟩
      · rw [gone, kept.factId, or_iff_right own]
      · have later := left g same
        refine ⟨later.factId.trans kept.factId, later.content.trans kept.content,
          later.invalidAt.trans kept.invalidAt, later.conflictGroup.trans kept.conflictGroup, ?_,
          later.retrieval.trans kept.retrieval, later.helpful.trans kept.helpful⟩
        rw [later.successor, kept.successor, Option.map_map]
        refine congrArg (fun move => f.supersededBy.map move) (funext fun k => ?_)
        simp only [Function.comp_apply]
        by_cases same : k = loser
        · simp [same]
        · simp [same]

theorem clusterFate {c : ClusterMerge} (last : f.factId = c.survivorId → f.supersededBy = none) :
    (c.fate f = none ↔ f.factId ∈ c.loserIds) ∧
      ∀ g, c.fate f = some g → f.KeptAs g (ClusterMerge.standIn · c)
        (if f.factId = c.survivorId then c.mergedRetrievalCount else f.retrievalCount)
        (if f.factId = c.survivorId then c.mergedHelpfulCount else f.helpfulCount) := by
  unfold ClusterMerge.fate
  split
  · rename_i own
    have absorbed : (c.absorb f).factId = c.survivorId → (c.absorb f).supersededBy = none := fun _ => last own
    obtain ⟨gone, left⟩ := losersFate c.loserIds absorbed
    refine ⟨gone, fun g same => ?_⟩
    obtain ⟨id, content, invalid, group, pointer, retrieval, helpful⟩ := left g same
    exact ⟨id, content, invalid, group, pointer, retrieval, helpful⟩
  · obtain ⟨gone, left⟩ := losersFate c.loserIds last
    exact ⟨gone, left⟩

theorem planFate (clusters : List ClusterMerge)
    (last : ∀ c ∈ clusters, f.factId = c.survivorId → f.supersededBy = none) :
    (clusters.foldlM ClusterMerge.fate f = none ↔ f.factId ∈ clusters.flatMap ClusterMerge.loserIds) ∧
      ∀ g, clusters.foldlM ClusterMerge.fate f = some g →
        f.KeptAs g (fun k => clusters.foldl ClusterMerge.standIn k)
          (clusters.foldl (fun n c => if f.factId = c.survivorId then c.mergedRetrievalCount else n) f.retrievalCount)
          (clusters.foldl (fun n c => if f.factId = c.survivorId then c.mergedHelpfulCount else n) f.helpfulCount) := by
  induction clusters generalizing f with
  | nil =>
    refine ⟨iff_of_false nofun List.not_mem_nil, fun g same => ?_⟩
    cases same
    refine ⟨rfl, rfl, rfl, rfl, ?_, rfl, rfl⟩
    simp
  | cons c rest ih =>
    obtain ⟨gone, left⟩ := clusterFate (last c List.mem_cons_self)
    simp only [List.foldlM_cons, Option.bind_eq_bind, List.flatMap_cons, List.mem_append]
    cases here : c.fate f with
    | none =>
      rw [Option.bind_none]
      exact ⟨iff_of_true rfl (.inl (gone.mp here)), fun _ same => nomatch same⟩
    | some h =>
      rw [Option.bind_some]
      have kept := left h here
      have other : f.factId ∉ c.loserIds := fun lost => by
        rw [gone.mpr lost] at here
        cases here
      have still : ∀ d ∈ rest, h.factId = d.survivorId → h.supersededBy = none := by
        intro d hd same
        rw [kept.successor, last d (List.mem_cons_of_mem _ hd) (kept.factId.symm.trans same), Option.map_none]
      obtain ⟨later, after⟩ := ih still
      refine ⟨?_, fun g same => ?_⟩
      · rw [later, kept.factId, or_iff_right other]
      · obtain ⟨id, content, invalid, group, pointer, retrieval, helpful⟩ := after g same
        rw [kept.factId, kept.retrieval] at retrieval
        rw [kept.factId, kept.helpful] at helpful
        refine ⟨id.trans kept.factId, content.trans kept.content, invalid.trans kept.invalidAt,
          group.trans kept.conflictGroup, ?_, retrieval, helpful⟩
        rw [pointer, kept.successor, Option.map_map]
        rfl

end Fates

/-! ## What a plan puts together -/

structure ClusterMerge.Pools (c : ClusterMerge) (rows : List Fact) : Prop where
  members : c.members.Perm (rows.map Fact.factId)
  retrieval : c.mergedRetrievalCount = (rows.map Fact.retrievalCount).sum
  helpful : c.mergedHelpfulCount = (rows.map Fact.helpfulCount).sum
  tags : c.mergedTags = mergeTags (rows.map Fact.tags)

theorem plannedPools {l : Ledger} {floodCutoff : String} {members : List Nat} {c : ClusterMerge}
    (unique : Table.Unique Fact.factId l.facts) (sorted : members.Pairwise (· < ·))
    (active : ∀ k ∈ members, k ∈ activeFactIds l)
    (planned : planCluster l floodCutoff members = .ok (some c)) :
    ∃ rows, rows.Sublist (factRows l members) ∧ c.Pools rows := by
  have live : ∀ f ∈ factRows l members, f.invalidAt = none ∧ isLegacySuperseded f.content = false := by
    intro f hf
    obtain ⟨stored, listed⟩ := factRowsSource hf
    obtain ⟨current, plain⟩ := activeFactSpec unique stored (active _ listed)
    exact ⟨(currentValid current).1, plain⟩
  simp only [planCluster, bindOk] at planned
  obtain ⟨⟨f, others⟩, -, planned⟩ := planned
  dsimp only at planned
  split at planned
  · cases planned
  · obtain ⟨⟨survivor, losers⟩, again, last⟩ := bindOk.mp planned
    cases last
    refine ⟨_, List.filter_sublist, ?_, rfl, rfl, rfl⟩
    have ordered := (factRowsSorted (l := l) sorted).filter fun g =>
      g.factId = f.factId || safeToMergeNearDuplicate f.content g.content
    have lost := (chosenLeast (fun h hh => live h (List.mem_filter.mp hh).1) ordered again).1
    have inside := (chosenInside again).1
    have distinct : (List.map Fact.factId _).Nodup := List.pairwise_map.mpr (ordered.imp Nat.ne_of_lt)
    refine (List.perm_ext_iff_of_nodup (List.nodup_cons.mpr ⟨?_, ?_⟩) distinct).mpr fun k => ?_
    · rw [lost]
      intro own
      obtain ⟨g, hg, same⟩ := List.mem_map.mp own
      exact absurd same (by simpa using (List.mem_filter.mp hg).2)
    · rw [lost]
      exact distinct.sublist (List.filter_sublist.map _)
    · rw [List.mem_cons, lost]
      constructor
      · rintro (rfl | listed)
        · exact List.mem_map_of_mem inside
        · obtain ⟨g, hg, rfl⟩ := List.mem_map.mp listed
          exact List.mem_map_of_mem (List.mem_filter.mp hg).1
      · intro listed
        obtain ⟨g, hg, rfl⟩ := List.mem_map.mp listed
        by_cases own : g.factId = survivor.factId
        · exact .inl own
        · exact .inr (List.mem_map_of_mem (List.mem_filter.mpr ⟨hg, by simpa using own⟩))

section Plans
variable {rt : Runtime} {similarity : List Rat → List Rat → Rat} {s t : Store} {threshold : Rat}
  {floodCutoff : String} {chosen : Option String} {plan : MergePlan}

theorem plannedCluster (keys : s.PrimaryKeys)
    (planned : planMerge rt similarity s threshold floodCutoff chosen = .ok plan) :
    ∀ c ∈ plan.clusters, ∃ rows, c.Pools rows ∧ (rows.Pairwise fun f g => f.factId < g.factId) ∧
      ∀ f ∈ rows, f ∈ s.facts ∧ f.factId ∈ activeFactIds s.toLedger := by
  intro c hc
  obtain ⟨groups, outcomes, built, mapped, clusters⟩ := planMergeSource planned
  obtain ⟨rows, -, read, -, -⟩ := clustersSource built
  rw [clusters] at hc
  obtain ⟨members, listed, made⟩ := mapMSource mapped _ (List.reduceOption_mem_iff.mp hc)
  have part := ((clustersSpec read built).1 members listed).1
  obtain ⟨sorted, active⟩ := activeEmbeddingsSource keys read
  have live : ∀ k ∈ members, k ∈ activeFactIds s.toLedger := fun k hk => active k (part.subset hk)
  obtain ⟨pooled, sub, pools⟩ := plannedPools keys.facts (sorted.sublist part) live made
  refine ⟨pooled, pools, (factRowsSorted (l := s.toLedger) (sorted.sublist part)).sublist sub, fun f hf => ?_⟩
  obtain ⟨stored, member⟩ := factRowsSource (sub.subset hf)
  exact ⟨stored, live _ member⟩

theorem planApart (keys : s.PrimaryKeys)
    (planned : planMerge rt similarity s threshold floodCutoff chosen = .ok plan) :
    Pooling.Apart ClusterMerge.survivorId ClusterMerge.loserIds plan.clusters (activeFactIds s.toLedger) where
  distinct c hc := by
    obtain ⟨rows, pools, sorted, -⟩ := plannedCluster keys planned c hc
    exact pools.members.nodup_iff.mpr (List.pairwise_map.mpr (sorted.imp Nat.ne_of_lt))
  disjoint := by
    obtain ⟨groups, outcomes, built, mapped, clusters⟩ := planMergeSource planned
    obtain ⟨rows, sets, -, -, rfl⟩ := clustersSource built
    rw [clusters]
    have apart : outcomes.Pairwise fun x y => ∀ c ∈ x, ∀ d ∈ y, c.members.Disjoint d.members := by
      refine mapMPairwise (fun left right x y madeHere madeThere apart c hc d hd k inside shared => ?_) mapped
        (UnionFind.groupsByApart.filter _)
      cases hc
      cases hd
      have member {c : ClusterMerge} {members : List Nat}
          (made : planCluster s.toLedger floodCutoff members = .ok (some c)) (listed : k ∈ c.members) :
          k ∈ members := by
        rcases List.mem_cons.mp listed with rfl | lost
        · exact (plannedInside made).1
        · exact ((plannedInside made).2 k lost).1
      exact apart (member madeHere inside) (member madeThere shared)
    exact List.Pairwise.filterMap _ (fun x y apart c hc d hd => apart c hc d hd) apart
  inside c hc k hk := by
    obtain ⟨rows, pools, -, active⟩ := plannedCluster keys planned c hc
    obtain ⟨f, hf, rfl⟩ := List.mem_map.mp (pools.members.mem_iff.mp hk)
    exact (active f hf).2

theorem memberLast (keys : s.PrimaryKeys)
    (planned : planMerge rt similarity s threshold floodCutoff chosen = .ok plan) {c : ClusterMerge} {f : Fact}
    (hc : c ∈ plan.clusters) (hf : f ∈ s.facts) (member : f.factId ∈ c.members) : f.supersededBy = none :=
  (currentValid (activeFactSpec keys.facts hf ((planApart keys planned).inside c hc _ member)).1).2

/-! ## Pointers -/

theorem standInOther {clusters : List ClusterMerge} {k : Nat}
    (other : k ∉ clusters.flatMap ClusterMerge.loserIds) : clusters.foldl ClusterMerge.standIn k = k := by
  induction clusters with
  | nil => rfl
  | cons c rest ih =>
    rw [List.flatMap_cons, List.mem_append, not_or] at other
    rw [List.foldl_cons, ClusterMerge.standIn, if_neg other.1]
    exact ih other.2

theorem standInLoser {clusters : List ClusterMerge} {k w : Nat}
    (survivor : ∀ c ∈ clusters, k ∈ c.loserIds → c.survivorId = w)
    (last : w ∉ clusters.flatMap ClusterMerge.loserIds) (lost : k ∈ clusters.flatMap ClusterMerge.loserIds) :
    clusters.foldl ClusterMerge.standIn k = w := by
  induction clusters with
  | nil => cases lost
  | cons c rest ih =>
    rw [List.flatMap_cons, List.mem_append, not_or] at last
    rw [List.foldl_cons, ClusterMerge.standIn]
    split
    · rename_i here
      rw [survivor c List.mem_cons_self here]
      exact standInOther last.2
    · rename_i other
      rw [List.flatMap_cons, List.mem_append] at lost
      exact ih (fun d hd => survivor d (List.mem_cons_of_mem _ hd)) last.2 (lost.resolve_left other)

theorem planStandIn (keys : s.PrimaryKeys)
    (planned : planMerge rt similarity s threshold floodCutoff chosen = .ok plan) {c : ClusterMerge} {k : Nat}
    (hc : c ∈ plan.clusters) (lost : k ∈ c.loserIds) : plan.standIn k = c.survivorId := by
  have apart := planApart keys planned
  refine standInLoser (fun d hd also => ?_) (fun lost => ?_) (List.mem_flatMap.mpr ⟨c, hc, lost⟩)
  · rw [apart.same hc hd (k := k) (List.mem_cons_of_mem _ lost) (List.mem_cons_of_mem _ also)]
  · obtain ⟨d, hd, also⟩ := List.mem_flatMap.mp lost
    exact plan.apart c hc d hd also

/-- What `superseded_by` leads to, in one step or more. -/
def Ledger.Precedes (l : Ledger) : Nat → Nat → Prop := Relation.TransGen fun a b => l.successor a = some b

theorem storedFate (keys : s.PrimaryKeys)
    (planned : planMerge rt similarity s threshold floodCutoff chosen = .ok plan) {f : Fact} (hf : f ∈ s.facts) :
    (plan.fate f = none ↔ f.factId ∈ plan.dropped) ∧ ∀ g, plan.fate f = some g → f.KeptAs g plan.standIn
      (Pooling.pooled ClusterMerge.survivorId ClusterMerge.mergedRetrievalCount (fun _ => f.retrievalCount)
        plan.clusters f.factId)
      (Pooling.pooled ClusterMerge.survivorId ClusterMerge.mergedHelpfulCount (fun _ => f.helpfulCount)
        plan.clusters f.factId) := by
  have apart := planApart keys planned
  have agree (total : ClusterMerge → Nat) : ∀ c ∈ plan.clusters, ∀ d ∈ plan.clusters, c.survivorId = f.factId →
      d.survivorId = f.factId → total c = total d := by
    intro c hc d hd left right
    rw [apart.same hc hd (k := f.factId) (left ▸ List.mem_cons_self) (right ▸ List.mem_cons_self)]
  obtain ⟨gone, kept⟩ := planFate (f := f) plan.clusters fun c hc own =>
    memberLast keys planned hc hf (own ▸ List.mem_cons_self)
  refine ⟨gone, fun g made => ?_⟩
  have same := kept g made
  exact ⟨same.factId, same.content, same.invalidAt, same.conflictGroup, same.successor,
    same.retrieval.trans (Pooling.foldlPooled _ (fun _ => f.retrievalCount) (agree _)),
    same.helpful.trans (Pooling.foldlPooled _ (fun _ => f.helpfulCount) (agree _))⟩

theorem mergedUnique (keys : s.PrimaryKeys)
    (planned : planMerge rt similarity s threshold floodCutoff chosen = .ok plan) :
    Table.Unique Fact.factId (applyMerge s plan).facts := by
  rw [mergedRows]
  refine List.pairwise_map.mpr (List.pairwise_filterMap.mpr ?_)
  refine (List.pairwise_map.mp keys.facts).imp_of_mem fun {a b} ha hb other x hx y hy same => other ?_
  rw [← ((storedFate keys planned ha).2 x hx).factId, same, ((storedFate keys planned hb).2 y hy).factId]

theorem mergedSuccessor (keys : s.PrimaryKeys)
    (planned : planMerge rt similarity s threshold floodCutoff chosen = .ok plan) {f : Fact} (hf : f ∈ s.facts)
    (left : f.factId ∉ plan.dropped) :
    ∃ g ∈ (applyMerge s plan).facts, g.factId = f.factId ∧ g.supersededBy = f.supersededBy.map plan.standIn := by
  obtain ⟨gone, kept⟩ := storedFate keys planned hf
  obtain ⟨g, made⟩ := Option.ne_none_iff_exists'.mp fun none' => left (gone.mp none')
  have same := kept g made
  rw [mergedRows]
  exact ⟨g, List.mem_filterMap.mpr ⟨f, hf, made⟩, same.factId, same.successor⟩

theorem predecessorLeft (keys : s.PrimaryKeys)
    (planned : planMerge rt similarity s threshold floodCutoff chosen = .ok plan) {f : Fact} {k : Nat}
    (hf : f ∈ s.facts) (replaced : f.supersededBy = some k) : f.factId ∉ plan.dropped := by
  intro lost
  obtain ⟨c, hc, lost⟩ := List.mem_flatMap.mp lost
  rw [memberLast keys planned hc hf (List.mem_cons_of_mem _ lost)] at replaced
  cases replaced

theorem stepsMerged (keys : s.PrimaryKeys)
    (planned : planMerge rt similarity s threshold floodCutoff chosen = .ok plan) {a b : Nat}
    (replaced : s.toLedger.successor a = some b) :
    a ∉ plan.dropped ∧ (applyMerge s plan).toLedger.successor a = some (plan.standIn b) := by
  obtain ⟨f, hf, rfl, pointer⟩ := successorSource replaced
  have left := predecessorLeft keys planned hf pointer
  obtain ⟨g, hg, id, same⟩ := mergedSuccessor keys planned hf left
  refine ⟨left, ?_⟩
  have found : (applyMerge s plan).fact f.factId = some g := id ▸ Table.findOfMem (mergedUnique keys planned) hg
  rw [Ledger.successor, found, Option.bind_some, same, pointer, Option.map_some]

theorem precedesMerged (keys : s.PrimaryKeys)
    (planned : planMerge rt similarity s threshold floodCutoff chosen = .ok plan) {c : ClusterMerge} {a loser : Nat}
    (hc : c ∈ plan.clusters) (lost : loser ∈ c.loserIds) (precedes : s.toLedger.Precedes a loser) :
    (applyMerge s plan).toLedger.Precedes a c.survivorId := by
  induction precedes using Relation.TransGen.head_induction_on with
  | single replaced =>
    refine .single ?_
    rw [(stepsMerged keys planned replaced).2, planStandIn keys planned hc lost]
  | head replaced onward ih =>
    rename_i a b
    refine .head ?_ ih
    obtain ⟨d, next, -⟩ := Relation.TransGen.head'_iff.mp onward
    rw [(stepsMerged keys planned replaced).2]
    exact congrArg some (standInOther (stepsMerged keys planned next).1)

/-! ## Totals -/

theorem fateTally {α : Type} {rows : List Fact} {fate : Fact → Option Fact} {dropped : List Nat}
    (count : Fact → α) (value : Nat → α) (gone : ∀ f ∈ rows, fate f = none ↔ f.factId ∈ dropped)
    (kept : ∀ f ∈ rows, ∀ g, fate f = some g →
      g.countedActive = f.countedActive ∧ count g = value f.factId) :
    ((rows.filterMap fate).filter Fact.countedActive).map count =
      (((rows.filter Fact.countedActive).map Fact.factId).filter fun k => k ∉ dropped).map value := by
  induction rows with
  | nil => rfl
  | cons f rest ih =>
    have later := ih (fun f hf => gone f (List.mem_cons_of_mem _ hf))
      fun f hf => kept f (List.mem_cons_of_mem _ hf)
    cases made : fate f with
    | none =>
      have lost := (gone f List.mem_cons_self).mp made
      rw [List.filterMap_cons_none made, later]
      by_cases active : f.countedActive = true
      · rw [List.filter_cons_of_pos active, List.map_cons, List.filter_cons_of_neg (by simpa using lost)]
      · rw [List.filter_cons_of_neg active]
    | some g =>
      have left : f.factId ∉ dropped := fun lost => by
        rw [(gone f List.mem_cons_self).mpr lost] at made
        cases made
      obtain ⟨same, counted⟩ := kept f List.mem_cons_self g made
      rw [List.filterMap_cons_some made]
      by_cases active : f.countedActive = true
      · rw [List.filter_cons_of_pos (same.trans active), List.filter_cons_of_pos active, List.map_cons,
          List.map_cons, List.filter_cons_of_pos (by simpa using left), List.map_cons, later, counted]
      · rw [List.filter_cons_of_neg fun now => active (same.symm.trans now), List.filter_cons_of_neg active, later]

theorem keptActive {f g : Fact} {standIn : Nat → Nat} {retrievalCount helpfulCount : Nat}
    (kept : f.KeptAs g standIn retrievalCount helpfulCount) : g.countedActive = f.countedActive := by
  simp only [Fact.countedActive, Fact.current, kept.content, kept.invalidAt, kept.conflictGroup, kept.successor,
    Option.isNone_map]

theorem activeDistinct (keys : s.PrimaryKeys) : (activeFactIds s.toLedger).Nodup :=
  List.Pairwise.sublist (List.filter_sublist.map Fact.factId) keys.facts

theorem mergedActive (keys : s.PrimaryKeys)
    (planned : planMerge rt similarity s threshold floodCutoff chosen = .ok plan) :
    activeFactIds (applyMerge s plan).toLedger = plan.left (activeFactIds s.toLedger) := by
  have tally := fateTally Fact.factId id
    (fun f hf => (storedFate keys planned hf).1) fun f hf g made =>
      ⟨keptActive ((storedFate keys planned hf).2 g made), ((storedFate keys planned hf).2 g made).factId⟩
  rw [List.map_id, ← mergedRows] at tally
  exact tally

theorem totalMerged (keys : s.PrimaryKeys)
    (planned : planMerge rt similarity s threshold floodCutoff chosen = .ok plan) {count : Fact → Nat}
    {total : ClusterMerge → Nat}
    (kept : ∀ f ∈ s.facts, ∀ g, plan.fate f = some g → count g =
      Pooling.pooled ClusterMerge.survivorId total (fun _ => count f) plan.clusters f.factId)
    (fair : ∀ c ∈ plan.clusters, ∀ rows, c.Pools rows → total c = (rows.map count).sum) :
    (applyMerge s plan).toLedger.activeTotal count = s.toLedger.activeTotal count := by
  let weight (k : Nat) : Nat := ((s.fact k).map count).getD 0
  have weighed {f : Fact} (hf : f ∈ s.facts) : weight f.factId = count f := by
    have found : s.fact f.factId = some f := Table.findOfMem keys.facts hf
    simp only [weight, found, Option.map_some, Option.getD_some]
  have tally := fateTally count (Pooling.pooled ClusterMerge.survivorId total weight plan.clusters)
    (fun f hf => (storedFate keys planned hf).1) fun f hf g made =>
      ⟨keptActive ((storedFate keys planned hf).2 g made), by
        rw [kept f hf g made, Pooling.pooled, Pooling.pooled, weighed hf]⟩
  rw [← mergedRows] at tally
  have conserved := Pooling.pooledTotal total weight (planApart keys planned)
    (activeDistinct keys) fun c hc => by
      obtain ⟨rows, pools, -, active⟩ := plannedCluster keys planned c hc
      rw [fair c hc rows pools]
      have same := (pools.members.map weight).sum_eq
      rw [List.map_map] at same
      rw [← ClusterMerge.members, same]
      exact congrArg List.sum (List.map_congr_left fun f hf => (weighed (active f hf).1).symm)
  have before : (activeFactIds s.toLedger).map weight = s.toLedger.activeFacts.map count := by
    change (s.toLedger.activeFacts.map Fact.factId).map weight = _
    rw [List.map_map]
    exact List.map_congr_left fun f hf => weighed (List.mem_filter.mp hf).1
  rw [before] at conserved
  exact (congrArg List.sum tally).trans conserved

end Plans

/-! ## Conservation -/

/-- The clusters of a plan are apart, and each is one scope's active facts around its survivor. -/
structure MergePlan.Sound (plan : MergePlan) (s : Store) : Prop where
  apart : plan.clusters.Pairwise fun c d => c.members.Disjoint d.members
  distinct : ∀ c ∈ plan.clusters, c.members.Nodup
  active : ∀ c ∈ plan.clusters, ∀ k ∈ c.members, ∃ f ∈ s.facts, f.factId = k ∧ f.countedActive = true
  safe : ∀ c ∈ plan.clusters, ∀ survivor ∈ s.facts, survivor.factId = c.survivorId →
    ∀ loser ∈ s.facts, loser.factId ∈ c.loserIds → loser.scope = survivor.scope ∧
      safeToMergeNearDuplicate survivor.content loser.content = true

def Store.Deleted (s t : Store) (f : Fact) : Prop := f ∈ s.facts ∧ ∀ g ∈ t.facts, g.factId ≠ f.factId

structure MergePlan.Conserves (plan : MergePlan) (s t : Store) : Prop where
  retrieval : t.toLedger.activeTotal Fact.retrievalCount = s.toLedger.activeTotal Fact.retrievalCount
  helpful : t.toLedger.activeTotal Fact.helpfulCount = s.toLedger.activeTotal Fact.helpfulCount
  references : ∀ f, s.Deleted t f → ¬ t.Refers f.factId
  entities : ∀ f, s.Deleted t f → ∀ links, ∀ link ∈ mergeEntities plan links, link.factId ≠ f.factId
  pointers : ∀ c ∈ plan.clusters, ∀ loser ∈ c.loserIds, ∀ f ∈ s.facts, f.supersededBy = some loser →
    ∃ g ∈ t.facts, g.factId = f.factId ∧ g.supersededBy = some c.survivorId
  predecessors : ∀ c ∈ plan.clusters, ∀ loser ∈ c.loserIds, ∀ k, s.toLedger.Precedes k loser →
    t.toLedger.Precedes k c.survivorId
  count : (activeFactIds t.toLedger).length = plan.projectedFinalCount (activeFactIds s.toLedger).length

section Claim
variable {rt : Runtime} {similarity : List Rat → List Rat → Rat} {s : Store} {threshold : Rat}
  {floodCutoff : String} {chosen : Option String} {plan : MergePlan}

theorem planSound (keys : s.PrimaryKeys)
    (planned : planMerge rt similarity s threshold floodCutoff chosen = .ok plan) : plan.Sound s where
  apart := (planApart keys planned).disjoint
  distinct := (planApart keys planned).distinct
  active c hc k hk := by
    obtain ⟨f, hf, id⟩ := List.mem_map.mp ((planApart keys planned).inside c hc k hk)
    obtain ⟨stored, active⟩ := List.mem_filter.mp hf
    exact ⟨f, stored, id, active⟩
  safe c hc survivor hs own loser hl lost := by
    obtain ⟨groups, outcomes, built, -, -⟩ := planMergeSource planned
    obtain ⟨rows, -, read, -, -⟩ := clustersSource built
    obtain ⟨-, -, chained, -, safe⟩ := (plannedPairs keys read planned hs hl).mp ⟨c, hc, own.symm, lost⟩
    have same := chainedScope chained
    have found {f : Fact} (hf : f ∈ s.facts) : s.fact f.factId = some f := Table.findOfMem keys.facts hf
    rw [found hs, found hl] at same
    exact ⟨(Option.some.inj same).symm, safe⟩

theorem deletedDropped (keys : s.PrimaryKeys)
    (planned : planMerge rt similarity s threshold floodCutoff chosen = .ok plan) {f : Fact}
    (deleted : s.Deleted (applyMerge s plan) f) : ∃ c ∈ plan.clusters, f.factId ∈ c.loserIds := by
  by_contra other
  have left : f.factId ∉ plan.dropped := fun lost => other (List.mem_flatMap.mp lost)
  obtain ⟨g, hg, id, -⟩ := mergedSuccessor keys planned deleted.1 left
  exact deleted.2 g hg id

theorem mergeConserves (keys : s.PrimaryKeys)
    (planned : planMerge rt similarity s threshold floodCutoff chosen = .ok plan) :
    plan.Sound s ∧ plan.Conserves s (applyMerge s plan) := by
  refine ⟨planSound keys planned, ?_, ?_, fun f deleted => ?_, fun f deleted => ?_,
    fun c hc loser lost f hf pointer => ?_, fun c hc loser lost k => precedesMerged keys planned hc lost, ?_⟩
  · exact totalMerged keys planned (fun f hf g made => ((storedFate keys planned hf).2 g made).retrieval)
      fun c hc rows pools => pools.retrieval
  · exact totalMerged keys planned (fun f hf g made => ((storedFate keys planned hf).2 g made).helpful)
      fun c hc rows pools => pools.helpful
  · obtain ⟨c, hc, lost⟩ := deletedDropped keys planned deleted
    exact unreferred hc lost
  · obtain ⟨c, hc, lost⟩ := deletedDropped keys planned deleted
    exact unlinked hc lost
  · obtain ⟨g, hg, id, same⟩ := mergedSuccessor keys planned hf (predecessorLeft keys planned hf pointer)
    refine ⟨g, hg, id, ?_⟩
    rw [same, pointer, Option.map_some, planStandIn keys planned hc lost]
  · have length := Pooling.keptLength (planApart keys planned) (activeDistinct keys)
    rw [mergedActive keys planned, MergePlan.projectedFinalCount, MergePlan.dropCount, MergePlan.left]
    omega

end Claim

namespace Example

def tallied : Store :=
  { history retold with
    facts := (history retold).facts.map fun f =>
      { f with retrievalCount := 20 - f.factId, helpfulCount := f.factId } }

def pooling : MergePlan := ⟨[⟨2, [3], 35, 5, ""⟩], by decide⟩

theorem talliedKeys : tallied.PrimaryKeys := by
  constructor
  · unfold Table.Unique
    decide +kernel
  · unfold Table.Unique
    decide +kernel

theorem mergeConservesHere :
    tallied.facts.map (fun f => (f.supersededBy, f.retrievalCount, f.helpfulCount)) =
      [(some 3, 19, 1), (none, 18, 2), (none, 17, 3)] ∧
    (applyMerge tallied pooling).facts.map (fun f => (f.supersededBy, f.retrievalCount, f.helpfulCount)) =
      [(some 2, 19, 1), (none, 35, 5)] ∧
    pooling.Sound tallied ∧ pooling.Conserves tallied (applyMerge tallied pooling) := by
  have planned : planMerge .plain Runtime.plain.cosine tallied (97 / 100) "" none = .ok pooling :=
    okOfOption (by decide +kernel)
  exact ⟨by decide +kernel, by decide +kernel, mergeConserves talliedKeys planned⟩

end Example

end Enfold
