import Enfold.ClusterPlan
import Enfold.StateUniqueness

/-! What a cluster merge does to typed and reviewed memory. The groups are formed from scopes,
texts and vectors, the member a group keeps from its dates and counters; neither reads the slot,
the review or the sensitivity of a fact. -/
namespace Enfold

open Fallible

theorem onlyMember {α : Type} {items : List α} {a b : α} (few : items.length < 2) (ha : a ∈ items)
    (hb : b ∈ items) : a = b := by
  cases items with
  | nil => cases ha
  | cons first rest =>
    cases rest with
    | nil => rw [List.mem_singleton.mp ha, List.mem_singleton.mp hb]
    | cons _ _ =>
      simp only [List.length_cons] at few
      omega

theorem activeFactSpec {l : Ledger} (unique : Table.Unique Fact.factId l.facts) {f : Fact}
    (stored : f ∈ l.facts) (active : f.factId ∈ activeFactIds l) :
    f.current = true ∧ isLegacySuperseded f.content = false := by
  obtain ⟨g, hg, id⟩ := List.mem_map.mp active
  obtain ⟨inside, hit⟩ := List.mem_filter.mp hg
  obtain rfl := Table.uniqueEq unique inside stored id
  simp only [Bool.and_eq_true, Bool.not_eq_true'] at hit
  exact ⟨hit.1.1, hit.2⟩

section Members
variable {l : Ledger} {floodCutoff : String} {members : List Nat} {outcome : Option ClusterMerge}

theorem memFactRows (unique : Table.Unique Fact.factId l.facts) {f : Fact} :
    f ∈ factRows l members ↔ f ∈ l.facts ∧ f.factId ∈ members := by
  refine ⟨factRowsSource, fun ⟨stored, listed⟩ => ?_⟩
  exact List.mem_filterMap.mpr ⟨f.factId, listed, Table.findOfMem unique stored⟩

theorem factRowsSorted (sorted : members.Pairwise (· < ·)) :
    (factRows l members).Pairwise fun f g => f.factId < g.factId := by
  refine sorted.filterMap _ fun a b less f found g hit => ?_
  rw [(Table.findMem found).2, (Table.findMem hit).2]
  exact less

theorem plannedSource (unique : Table.Unique Fact.factId l.facts) (sorted : members.Pairwise (· < ·))
    (active : ∀ k ∈ members, k ∈ activeFactIds l)
    (planned : planCluster l floodCutoff members = .ok outcome) :
    ∃ f ∈ factRows l members,
      (∀ g ∈ factRows l members, g = f ∨ f.mergeRank floodCutoff < g.mergeRank floodCutoff) ∧
      (∀ c ∈ outcome, c.survivorId = f.factId) ∧
      ∀ g ∈ factRows l members, (∃ c ∈ outcome, g.factId ∈ c.loserIds) ↔
        g ≠ f ∧ safeToMergeNearDuplicate f.content g.content = true := by
  have live : ∀ f ∈ factRows l members, f.invalidAt = none ∧ isLegacySuperseded f.content = false := by
    intro f hf
    obtain ⟨stored, listed⟩ := factRowsSource hf
    obtain ⟨current, plain⟩ := activeFactSpec unique stored (active _ listed)
    exact ⟨(currentValid current).1, plain⟩
  have ordered := factRowsSorted (l := l) sorted
  simp only [planCluster, bindOk] at planned
  obtain ⟨⟨f, others⟩, chosen, planned⟩ := planned
  have inside := (chosenInside chosen).1
  have least := (chosenLeast live ordered chosen).2
  -- the second choice is among fewer members, the first survivor still one of them
  have kept : f ∈ (factRows l members).filter fun g =>
      g.factId = f.factId || safeToMergeNearDuplicate f.content g.content :=
    List.mem_filter.mpr ⟨inside, by simp⟩
  have same {g : Fact} (hg : g ∈ factRows l members) (id : g.factId = f.factId) : g = f :=
    Table.uniqueEq unique (factRowsSource hg).1 (factRowsSource inside).1 id
  refine ⟨f, inside, least, ?_⟩
  dsimp only at planned
  split at planned
  · rename_i few
    cases planned
    refine ⟨fun c nothing => absurd nothing (Option.not_mem_none c), fun g hg => ⟨?_, ?_⟩⟩
    · rintro ⟨c, nothing, -⟩
      cases nothing
    rintro ⟨other, safe⟩
    have also : g ∈ (factRows l members).filter fun g =>
        g.factId = f.factId || safeToMergeNearDuplicate f.content g.content :=
      List.mem_filter.mpr ⟨hg, by simp [safe]⟩
    exact absurd (onlyMember few also kept) other
  · obtain ⟨⟨survivor, losers⟩, again, last⟩ := bindOk.mp planned
    cases last
    have second := chosenLeast (fun h hh => live h (List.mem_filter.mp hh).1) (ordered.filter _) again
    have equal : survivor = f := by
      rcases second.2 f kept with same | less
      · exact same.symm
      · rcases least survivor (List.mem_filter.mp (chosenInside again).1).1 with same | more
        · exact same
        · exact absurd more (lt_asymm less)
    subst equal
    refine ⟨fun c hc => by rw [← Option.some.inj hc], fun g hg => ⟨?_, ?_⟩⟩
    · rintro ⟨c, hc, lost⟩
      cases hc
      obtain ⟨h, hh, id⟩ := List.mem_map.mp lost
      rw [second.1] at hh
      obtain ⟨member, other⟩ := List.mem_filter.mp hh
      obtain ⟨row, safe⟩ := List.mem_filter.mp member
      obtain rfl := Table.uniqueEq unique (factRowsSource row).1 (factRowsSource hg).1 id
      have apart : h.factId ≠ survivor.factId := by simpa using other
      refine ⟨fun shared => apart (congrArg Fact.factId shared), ?_⟩
      simpa [apart] using safe
    · rintro ⟨other, safe⟩
      refine ⟨_, rfl, List.mem_map_of_mem ?_⟩
      rw [second.1]
      refine List.mem_filter.mpr ⟨List.mem_filter.mpr ⟨hg, by simp [safe]⟩, ?_⟩
      simpa using fun id => other (same hg id)

end Members

section Pairs
variable {rt : Runtime} {similarity : List Rat → List Rat → Rat} {s : Store} {threshold : Rat}
  {floodCutoff : String} {chosen : Option String} {rows : List Embedding} {plan : MergePlan}

/-- The primary keys of `facts` and `fact_embeddings`. -/
structure Store.PrimaryKeys (s : Store) : Prop where
  facts : Table.Unique Fact.factId s.facts
  embeddings : Table.Unique (fun e : Embedding => (e.factId, e.embeddingIdentity)) s.embeddings

theorem embeddingsSorted (keys : s.PrimaryKeys) (identity : String) (dim : Nat) :
    (((s.embeddings.filter fun e => e.embeddingIdentity = identity && e.dim = dim).insertionSort
      fun a b => a.factId ≤ b.factId).map Embedding.factId).Pairwise (· < ·) := by
  have apart : (s.embeddings.filter fun e => e.embeddingIdentity = identity && e.dim = dim).Pairwise
      fun a b => a.factId ≠ b.factId := by
    refine ((List.pairwise_map.mp keys.embeddings).filter _).imp_of_mem fun {a b} ha hb keyed id => ?_
    have left := (List.mem_filter.mp ha).2
    have right := (List.mem_filter.mp hb).2
    simp only [Bool.and_eq_true, decide_eq_true_eq] at left right
    exact keyed (by rw [id, left.1, right.1])
  have distinct := ((List.perm_insertionSort (fun a b : Embedding => a.factId ≤ b.factId) _).map
    Embedding.factId).nodup_iff.mpr (List.pairwise_map.mpr apart)
  have ordered := List.pairwise_map.mpr (List.pairwise_insertionSort
    (fun a b : Embedding => a.factId ≤ b.factId)
    (s.embeddings.filter fun e => e.embeddingIdentity = identity && e.dim = dim))
  exact (ordered.and distinct).imp fun both => lt_of_le_of_ne both.1 both.2

theorem activeEmbeddingsSource (keys : s.PrimaryKeys)
    (read : activeEmbeddings rt s chosen = .ok rows) :
    (rows.map Embedding.factId).Pairwise (· < ·) ∧
      ∀ k ∈ rows.map Embedding.factId, k ∈ activeFactIds s.toLedger := by
  simp only [activeEmbeddings, bindOk] at read
  obtain ⟨identity, -, read⟩ := read
  cases identity with
  | none =>
    cases read
    exact ⟨.nil, nofun⟩
  | some identity =>
    simp only [bindOk, embeddingMatrix, ensureOk] at read
    obtain ⟨dim, -, stored, ⟨-, -, same⟩, last⟩ := read
    cases last
    constructor
    · refine List.Pairwise.sublist (List.Sublist.map _ List.filter_sublist) ?_
      obtain rfl := Except.ok.inj same
      exact embeddingsSorted keys identity dim
    · intro k hk
      obtain ⟨e, he, rfl⟩ := List.mem_map.mp hk
      simpa using (List.mem_filter.mp he).2

/-- The fact a group keeps: less by rank than every fact a chain of near duplicates connects it to. -/
structure Store.Keeps (s : Store) (similarity : List Rat → List Rat → Rat) (threshold : Rat)
    (floodCutoff : String) (rows : List Embedding) (f : Fact) : Prop where
  stored : f ∈ s.facts
  embedded : f.factId ∈ rows.map Embedding.factId
  least : ∀ g ∈ s.facts, g.factId ∈ rows.map Embedding.factId →
    s.Chained similarity threshold rows f.factId g.factId →
      g = f ∨ f.mergeRank floodCutoff < g.mergeRank floodCutoff

theorem clustersSpec {groups : List (List Nat)} (read : activeEmbeddings rt s chosen = .ok rows)
    (built : buildClusters rt similarity s threshold chosen = .ok groups) :
    (∀ members ∈ groups, members.Sublist (rows.map Embedding.factId) ∧ ∀ x ∈ members, ∀ y,
      y ∈ members ↔ y ∈ rows.map Embedding.factId ∧ s.Chained similarity threshold rows x y) ∧
    ∀ x ∈ rows.map Embedding.factId, ∀ y ∈ rows.map Embedding.factId, y ≠ x →
      s.Chained similarity threshold rows x y → ∃ members ∈ groups, x ∈ members := by
  obtain ⟨rows', sets, read', joins, rfl⟩ := clustersSource built
  obtain rfl : rows' = rows := Except.ok.inj (read'.symm.trans read)
  constructor
  · intro members listed
    obtain ⟨item, -, rfl⟩ := UnionFind.memGroupsBy.mp (List.mem_filter.mp listed).1
    refine ⟨List.filter_sublist, fun x hx y => ?_⟩
    have root : UnionFind.find sets x = UnionFind.find sets item := by
      simpa using (List.mem_filter.mp hx).2
    rw [List.mem_filter, ← joins, root, decide_eq_true_eq]
    exact and_congr_right fun _ => eq_comm
  · intro x hx y hy other chained
    refine ⟨_, List.mem_filter.mpr ⟨UnionFind.memGroupsBy.mpr ⟨x, hx, rfl⟩, ?_⟩,
      List.mem_filter.mpr ⟨hx, by simp⟩⟩
    rw [decide_eq_true_eq]
    by_contra few
    refine other (onlyMember (not_le.mp few) (List.mem_filter.mpr ⟨hy, ?_⟩)
      (List.mem_filter.mpr ⟨hx, by simp⟩))
    simpa using ((joins x y).mpr chained).symm

theorem plannedPairs (keys : s.PrimaryKeys) (read : activeEmbeddings rt s chosen = .ok rows)
    (planned : planMerge rt similarity s threshold floodCutoff chosen = .ok plan) {f g : Fact}
    (hf : f ∈ s.facts) (hg : g ∈ s.facts) :
    (∃ c ∈ plan.clusters, c.survivorId = f.factId ∧ g.factId ∈ c.loserIds) ↔
      s.Keeps similarity threshold floodCutoff rows f ∧ g.factId ∈ rows.map Embedding.factId ∧
        s.Chained similarity threshold rows f.factId g.factId ∧ g ≠ f ∧
        safeToMergeNearDuplicate f.content g.content = true := by
  obtain ⟨groups, outcomes, built, mapped, clusters⟩ := planMergeSource planned
  obtain ⟨group, grouped⟩ := clustersSpec read built
  obtain ⟨sorted, active⟩ := activeEmbeddingsSource keys read
  have source {members : List Nat} (listed : members ∈ groups) {outcome : Option ClusterMerge}
      (made : planCluster s.toLedger floodCutoff members = .ok outcome) :=
    plannedSource keys.facts (sorted.sublist (group members listed).1)
      (fun k hk => active k ((group members listed).1.subset hk)) made
  constructor
  · rintro ⟨c, hc, survivor, lost⟩
    rw [clusters] at hc
    obtain ⟨members, listed, made⟩ := mapMSource mapped _ (List.reduceOption_mem_iff.mp hc)
    obtain ⟨w, hw, least, kept, spec⟩ := source listed made
    obtain rfl : f = w := Table.uniqueEq keys.facts hf (factRowsSource hw).1
      (survivor.symm.trans (kept c rfl))
    have inside := (factRowsSource hw).2
    have chain := (group members listed).2 f.factId inside
    have member := ((plannedInside made).2 _ lost).1
    obtain ⟨embedded, chained⟩ := (chain _).mp member
    obtain ⟨other, safe⟩ := (spec g ((memFactRows keys.facts).mpr ⟨hg, member⟩)).mp ⟨c, rfl, lost⟩
    refine ⟨⟨hf, ((group members listed).1.subset inside), fun h hh there link => ?_⟩, embedded,
      chained, other, safe⟩
    exact least h ((memFactRows keys.facts).mpr ⟨hh, (chain _).mpr ⟨there, link⟩⟩)
  · rintro ⟨keeps, embedded, chained, other, safe⟩
    have apart : g.factId ≠ f.factId := fun id => other (Table.uniqueEq keys.facts hg hf id)
    obtain ⟨members, listed, inside⟩ := grouped _ keeps.embedded _ embedded apart chained
    obtain ⟨outcome, made, here⟩ := mapMEach mapped members listed
    obtain ⟨w, hw, least, kept, spec⟩ := source listed here
    have chain := (group members listed).2 f.factId inside
    obtain ⟨stored, member⟩ := factRowsSource hw
    obtain rfl : w = f := by
      obtain ⟨there, link⟩ := (chain _).mp member
      rcases keeps.least w stored there link with same | less
      · exact same
      · rcases least f ((memFactRows keys.facts).mpr ⟨hf, inside⟩) with same | more
        · exact same.symm
        · exact absurd more (lt_asymm less)
    have row := (memFactRows keys.facts).mpr ⟨hg, (chain _).mpr ⟨embedded, chained⟩⟩
    obtain ⟨c, hc, lost⟩ := (spec g row).mpr ⟨other, safe⟩
    refine ⟨c, ?_, kept c hc, lost⟩
    rw [clusters]
    exact List.reduceOption_mem_iff.mpr (Option.mem_def.mp hc ▸ made)

theorem chainedScope {x y : Nat} (chained : s.Chained similarity threshold rows x y) :
    (s.fact x).map Fact.scope = (s.fact y).map Fact.scope := by
  induction chained with
  | rel x y joined =>
    obtain ⟨⟨a, b⟩, hit, same⟩ := List.mem_map.mp joined
    cases same
    have near := (List.mem_filter.mp hit).2
    simp only [Store.nearDuplicates] at near
    split at near
    · rename_i f g left right
      simp only [Bool.and_eq_true, decide_eq_true_eq] at near
      rw [left, right, Option.map_some, Option.map_some, near.1.1]
    · cases near
  | refl => rfl
  | symm _ _ _ ih => exact ih.symm
  | trans _ _ _ _ _ first second => exact first.trans second

end Pairs

/-! ## The rows a merge leaves -/

section Standing
variable {s t : Store} {f : Fact}

/-- A stored row is a current value wherever `f` was one. -/
def Store.standsFor (s : Store) (f : Fact) : Prop :=
  ∃ g ∈ s.facts, g.factId = f.factId ∧ g.current = true ∧ g.isState = f.isState ∧
    ∀ scope subjectKey predicateKey,
      g.inSlot scope subjectKey predicateKey = f.inSlot scope subjectKey predicateKey

theorem standsDropped {survivor loser : Nat} (other : f.factId ≠ loser) (stands : s.standsFor f) :
    (mergeFactReferences s survivor loser).standsFor f := by
  obtain ⟨g, hg, id, current, kind, slot⟩ := stands
  have rewritten : ∃ tags, g.rewriteSources loser survivor = { g with tags } := by
    unfold Fact.rewriteSources
    split
    · exact ⟨_, rfl⟩
    · exact ⟨g.tags, rfl⟩
  obtain ⟨tags, same⟩ := rewritten
  have kept : (g.rewriteSources loser survivor).redirectSuccessor loser survivor = { g with tags } := by
    rw [same]
    unfold Fact.redirectSuccessor
    rw [if_neg]
    simp [(currentValid current).2]
  refine ⟨{ g with tags }, List.mem_filter.mpr ⟨List.mem_map.mpr ⟨g, hg, kept⟩, ?_⟩, id, current,
    kind, slot⟩
  simpa [id] using other

theorem standsMerged {plan : MergePlan} (kept : ∀ c ∈ plan.clusters, f.factId ∉ c.loserIds)
    (stands : s.standsFor f) : (applyMerge s plan).standsFor f := by
  refine mergeKeeps (P := fun t => t.standsFor f) (fun c _ t stands => ?_)
    (fun c hc loser listed t stands => ?_) stands
  · obtain ⟨g, hg, id, current, kind, slot⟩ := stands
    refine ⟨_, Table.memAmend.mpr ⟨g, hg, rfl⟩, ?_⟩
    split
    · exact ⟨id, current, kind, slot⟩
    · exact ⟨id, current, kind, slot⟩
  · exact standsDropped (fun same => kept c hc (same ▸ listed)) stands

theorem standsHolder {scope subjectKey predicateKey : String}
    (here : f.isState = true ∧ f.inSlot scope subjectKey predicateKey = true)
    (stands : s.standsFor f) : s.toLedger.holders scope subjectKey predicateKey ≠ [] := by
  obtain ⟨g, hg, -, current, kind, slot⟩ := stands
  refine List.ne_nil_of_mem (List.mem_filter.mpr ⟨hg, ?_⟩)
  rw [kind, slot, here.1, here.2, current]
  rfl

end Standing

/-! ## Typed and reviewed memory -/

/-- `correction_status` is `human_corrected` or `human_confirmed`. -/
def Fact.humanReviewed (f : Fact) : Bool :=
  f.correctionStatus = some "human_corrected" || f.correctionStatus = some "human_confirmed"

structure Ledger.Respects (l : Ledger) (survivor loser : Fact) : Prop where
  slot : ∀ scope subjectKey predicateKey, loser ∈ l.holders scope subjectKey predicateKey →
    survivor.isState = true ∧ survivor.inSlot scope subjectKey predicateKey = true
  review : loser.humanReviewed = true → survivor.humanReviewed = true
  sensitivity : loser.sensitivity = survivor.sensitivity

/-- A merge that deletes no typed or reviewed memory its survivors do not stand for. -/
structure MergePlan.RespectsMemory (plan : MergePlan) (s t : Store) : Prop where
  losers : ∀ c ∈ plan.clusters, ∀ survivor ∈ s.facts, survivor.factId = c.survivorId →
    ∀ loser ∈ s.facts, loser.factId ∈ c.loserIds → s.toLedger.Respects survivor loser
  slots : ∀ scope subjectKey predicateKey, s.toLedger.holders scope subjectKey predicateKey ≠ [] →
    t.toLedger.holders scope subjectKey predicateKey ≠ []

/-- What the clustering does not look at: the keys of a state fact, the review, the sensitivity. -/
structure Fact.Like (first other : Fact) : Prop where
  keys : other.isState = true → ∀ subjectKey ∈ other.subjectKey, ∀ predicateKey ∈ other.predicateKey,
    first.isState = true ∧ first.subjectKey = some subjectKey ∧ first.predicateKey = some predicateKey
  review : other.humanReviewed = true → first.humanReviewed = true
  sensitivity : other.sensitivity = first.sensitivity

/-- In every chain of near duplicates, the first by rank is like all it would absorb. -/
def Store.DuplicatesAlike (rt : Runtime) (similarity : List Rat → List Rat → Rat) (s : Store)
    (threshold : Rat) (floodCutoff : String) (chosen : Option String) : Prop :=
  ∀ rows, activeEmbeddings rt s chosen = .ok rows → ∀ first,
    s.Keeps similarity threshold floodCutoff rows first →
    ∀ other ∈ s.facts, other.factId ∈ rows.map Embedding.factId → other ≠ first →
      s.Chained similarity threshold rows first.factId other.factId →
      safeToMergeNearDuplicate first.content other.content = true → first.Like other

section Claim
variable {rt : Runtime} {similarity : List Rat → List Rat → Rat} {s t : Store} {threshold : Rat}
  {floodCutoff : String} {chosen : Option String} {rows : List Embedding} {plan : MergePlan}

theorem respectsLike (keys : s.PrimaryKeys) (read : activeEmbeddings rt s chosen = .ok rows)
    {first other : Fact} (hf : first ∈ s.facts) (hg : other ∈ s.facts)
    (embedded : other.factId ∈ rows.map Embedding.factId)
    (chained : s.Chained similarity threshold rows first.factId other.factId) :
    s.toLedger.Respects first other ↔ first.Like other := by
  have current := (activeFactSpec keys.facts hg ((activeEmbeddingsSource keys read).2 _ embedded)).1
  have left : s.fact first.factId = some first := Table.findOfMem keys.facts hf
  have right : s.fact other.factId = some other := Table.findOfMem keys.facts hg
  have scope : first.scope = other.scope := by
    have same := chainedScope chained
    rw [left, right] at same
    exact Option.some.inj same
  refine ⟨fun h => ⟨fun state subject hs predicate hp => ?_, h.review, h.sensitivity⟩,
    fun h => ⟨fun scope' subject predicate held => ?_, h.review, h.sensitivity⟩⟩
  · obtain ⟨kind, slot⟩ := h.slot other.scope subject predicate (List.mem_filter.mpr ⟨hg, by
      simp [state, current, Fact.inSlot, Option.mem_def.mp hs, Option.mem_def.mp hp]⟩)
    simp only [Fact.inSlot, Bool.and_eq_true, decide_eq_true_eq] at slot
    exact ⟨kind, slot.1.2, slot.2⟩
  · obtain ⟨-, state, slot, -⟩ := holdersSource held
    simp only [Fact.inSlot, Bool.and_eq_true, decide_eq_true_eq] at slot ⊢
    obtain ⟨kind, subject', predicate'⟩ := h.keys state subject slot.1.2 predicate slot.2
    exact ⟨kind, ⟨scope.trans slot.1.1, subject'⟩, predicate'⟩

theorem survivorStored (keys : s.PrimaryKeys)
    (planned : planMerge rt similarity s threshold floodCutoff chosen = .ok plan) :
    ∀ c ∈ plan.clusters, ∃ f ∈ s.facts, f.factId = c.survivorId ∧ f.current = true := by
  intro c hc
  obtain ⟨groups, outcomes, built, mapped, clusters⟩ := planMergeSource planned
  obtain ⟨rows, -, read, -, -⟩ := clustersSource built
  rw [clusters] at hc
  obtain ⟨members, listed, made⟩ := mapMSource mapped _ (List.reduceOption_mem_iff.mp hc)
  have part := ((clustersSpec read built).1 members listed).1
  obtain ⟨sorted, active⟩ := activeEmbeddingsSource keys read
  have live : ∀ k ∈ members, k ∈ activeFactIds s.toLedger := fun k hk => active k (part.subset hk)
  obtain ⟨f, hf, -, kept, -⟩ := plannedSource keys.facts (sorted.sublist part) live made
  obtain ⟨stored, member⟩ := factRowsSource hf
  exact ⟨f, stored, (kept c rfl).symm, (activeFactSpec keys.facts stored (live _ member)).1⟩

theorem slotsKept (keys : s.PrimaryKeys)
    (planned : planMerge rt similarity s threshold floodCutoff chosen = .ok plan)
    (losers : ∀ c ∈ plan.clusters, ∀ survivor ∈ s.facts, survivor.factId = c.survivorId →
      ∀ loser ∈ s.facts, loser.factId ∈ c.loserIds → s.toLedger.Respects survivor loser)
    {scope subjectKey predicateKey : String}
    (held : s.toLedger.holders scope subjectKey predicateKey ≠ []) :
    (applyMerge s plan).toLedger.holders scope subjectKey predicateKey ≠ [] := by
  obtain ⟨f, hf⟩ := List.exists_mem_of_ne_nil _ held
  obtain ⟨stored, state, slot, current⟩ := holdersSource hf
  by_cases kept : ∀ c ∈ plan.clusters, f.factId ∉ c.loserIds
  · exact standsHolder ⟨state, slot⟩ (standsMerged kept ⟨f, stored, rfl, current, rfl, fun _ _ _ => rfl⟩)
  · obtain ⟨c, hc, lost⟩ : ∃ c ∈ plan.clusters, f.factId ∈ c.loserIds := by
      by_contra none'
      exact kept fun c hc lost => none' ⟨c, hc, lost⟩
    obtain ⟨survivor, inside, id, alive⟩ := survivorStored keys planned c hc
    have here := (losers c hc survivor inside id f stored lost).slot scope subjectKey predicateKey hf
    refine standsHolder here (standsMerged (fun d hd => ?_)
      ⟨survivor, inside, rfl, alive, rfl, fun _ _ _ => rfl⟩)
    exact id ▸ plan.apart c hc d hd

/-- A merge respects typed and reviewed memory exactly when each chain of near duplicates does. -/
theorem mergeRespects (keys : s.PrimaryKeys)
    (planned : planMerge rt similarity s threshold floodCutoff chosen = .ok plan)
    {expectedDropMin expectedDropMax : Nat} {maxDropFraction : Rat}
    (merged : executeMerge s plan expectedDropMin expectedDropMax maxDropFraction = .ok t) :
    plan.RespectsMemory s t ↔ s.DuplicatesAlike rt similarity threshold floodCutoff chosen := by
  obtain rfl : applyMerge s plan = t := by
    simp only [executeMerge, bindOk] at merged
    obtain ⟨-, -, -, -, last⟩ := merged
    exact Except.ok.inj last
  constructor
  · intro respects rows read first keeps other hg embedded apart chained safe
    obtain ⟨c, hc, survivor, lost⟩ := (plannedPairs keys read planned keeps.stored hg).mpr
      ⟨keeps, embedded, chained, apart, safe⟩
    exact (respectsLike keys read keeps.stored hg embedded chained).mp
      (respects.losers c hc first keeps.stored survivor.symm other hg lost)
  · intro alike
    obtain ⟨groups, outcomes, built, -, -⟩ := planMergeSource planned
    obtain ⟨rows, -, read, -, -⟩ := clustersSource built
    have losers : ∀ c ∈ plan.clusters, ∀ survivor ∈ s.facts, survivor.factId = c.survivorId →
        ∀ loser ∈ s.facts, loser.factId ∈ c.loserIds → s.toLedger.Respects survivor loser := by
      intro c hc survivor hf id loser hg lost
      obtain ⟨keeps, embedded, chained, apart, safe⟩ :=
        (plannedPairs keys read planned hf hg).mp ⟨c, hc, id.symm, lost⟩
      exact (respectsLike keys read hf hg embedded chained).mpr
        (alike rows read survivor keeps loser hg embedded apart chained safe)
    exact ⟨losers, fun _ _ _ held => slotsKept keys planned losers held⟩

end Claim

namespace Example

def mentioned : TimedWrite .plain where
  clock := .at "2026-01-03"
  item := {
    request := WriteRequest.plain "k0" "Lima is where Alex is" "user"
    candidate := none
    requestBuilt := by decide +kernel
    candidateBuilt := WriteItem.unslotted }

def reworded : List (Operation .plain) :=
  [.write trusted caller mentioned, .write trusted caller lima, .storeEmbedding ⟨1, [1], 1, "m"⟩,
    .storeEmbedding ⟨2, [1], 1, "m"⟩]

def absorbing : MergePlan := ⟨[⟨1, [2], 0, 0, ""⟩], by decide⟩

theorem rewordedKeys : (history reworded).PrimaryKeys := by
  constructor
  · unfold Table.Unique
    decide +kernel
  · unfold Table.Unique
    decide +kernel

theorem absorbingPlanned : planMerge .plain Runtime.plain.cosine (history reworded) (97 / 100) "" none =
    .ok absorbing := okOfOption (by decide +kernel)

theorem absorbingMerged : ∃ t, executeMerge (history reworded) absorbing 1 1 (1 / 2) = .ok t ∧
    t.toLedger.holders "private" "person:alex" "timezone" = [] := by
  have merged : (executeMerge (history reworded) absorbing 1 1 (1 / 2)).toOption.any (fun t =>
      decide (t.toLedger.holders "private" "person:alex" "timezone" = [])) = true := by
    decide +kernel
  obtain ⟨t, done, emptied⟩ := (Option.any_eq_true _ _).mp merged
  exact ⟨t, okOfOption done, of_decide_eq_true emptied⟩

theorem mergeRespectsHere : ∃ t, executeMerge (history reworded) absorbing 1 1 (1 / 2) = .ok t ∧
    (absorbing.RespectsMemory (history reworded) t ↔
      (history reworded).DuplicatesAlike .plain Runtime.plain.cosine (97 / 100) "" none) := by
  obtain ⟨t, merged, -⟩ := absorbingMerged
  exact ⟨t, merged, mergeRespects rewordedKeys absorbingPlanned merged⟩

/-- The slot of the reworded value is empty after the merge. -/
theorem slotAbsorbed : (history reworded).PrimaryKeys ∧
    planMerge .plain Runtime.plain.cosine (history reworded) (97 / 100) "" none = .ok absorbing ∧
    ∃ t, executeMerge (history reworded) absorbing 1 1 (1 / 2) = .ok t ∧
      ¬ absorbing.RespectsMemory (history reworded) t := by
  obtain ⟨t, merged, emptied⟩ := absorbingMerged
  refine ⟨rewordedKeys, absorbingPlanned, t, merged, fun respects => ?_⟩
  exact respects.slots "private" "person:alex" "timezone" (by decide +kernel) emptied

end Example
end Enfold
