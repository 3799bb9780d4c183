import Enfold.Foundation.Fallible
import Enfold.Foundation.Table
import Enfold.HybridRetrieval

/-! Which rows a search works on, and what its order depends on: the candidates and the facts their
entities lead to are eligible facts, each once, and a ranking is that of the set of its rows. -/
namespace Enfold

open Fallible KeyOrder

namespace Retriever

variable {env : RecallRuntime} {r : Retriever} {s : RecallStore} {q : Recall}
  {items items' : List PreparedRow} {item : PreparedRow} {found : SearchRow} {ids : List Nat} {f : Fact}

/-! ## Loaded rows -/

theorem eligibleUnique (keyed : Table.Unique Fact.factId s.facts) :
    Table.Unique Fact.factId (r.eligibleFacts s q) :=
  keyed.sublist (List.filter_sublist.map _)

theorem foundIds (rows : List Fact) (ids : List Nat) :
    ((ids.filterMap fun factId => rows.find? (·.factId = factId)).map Fact.factId).Sublist ids := by
  induction ids with
  | nil => exact List.Sublist.refl _
  | cons factId ids ih =>
    cases here : rows.find? (·.factId = factId) with
    | none =>
      rw [List.filterMap_cons, here]
      exact ih.cons _
    | some f =>
      have same : f.factId = factId := by simpa using List.find?_some here
      rw [List.filterMap_cons, here, List.map_cons, same]
      exact ih.cons_cons _

theorem loadedUnique (ids : List Nat) : Table.Unique Fact.factId (r.loadedFacts s q ids) :=
  (firstsDistinct ids).sublist (foundIds _ _)

theorem loadedMem (keyed : Table.Unique Fact.factId s.facts) :
    f ∈ r.loadedFacts s q ids ↔ f ∈ r.eligibleFacts s q ∧ f.factId ∈ ids := by
  rw [loadedFacts, List.mem_filterMap]
  constructor
  · rintro ⟨factId, listed, here⟩
    have same : f.factId = factId := by simpa using List.find?_some here
    exact ⟨List.mem_of_find?_eq_some here, same ▸ firstsMem.mp listed⟩
  · rintro ⟨inside, listed⟩
    exact ⟨f.factId, firstsMem.mpr listed, Table.findOfMem (eligibleUnique keyed) inside⟩

variable (env r s q) in
theorem candidatesUnique (window : DenseWindow) : Table.Unique Fact.factId (r.candidates env s q window) :=
  (loadedUnique _).sublist (selectSublist.map _)

/-! ## Ranking -/

theorem rankRowSource {lexicalIds denseIds : List Nat}
    (ranked : rankRow env r s q lexicalIds denseIds item = some found) : found.row = item.row := by
  unfold rankRow at ranked
  dsimp only at ranked
  split at ranked
  · cases ranked
  · cases ranked
    rfl

theorem rankedIds (lexicalIds denseIds : List Nat) (items : List PreparedRow) :
    ((items.filterMap (rankRow env r s q lexicalIds denseIds)).map SearchRow.factId).Sublist
      (items.map PreparedRow.factId) := by
  induction items with
  | nil => exact List.Sublist.refl _
  | cons item items ih =>
    cases here : rankRow env r s q lexicalIds denseIds item with
    | none =>
      rw [List.filterMap_cons, here]
      exact ih.cons _
    | some found =>
      have same : found.factId = item.factId := congrArg (·.fact.factId) (rankRowSource here)
      rw [List.filterMap_cons, here, List.map_cons, List.map_cons, same]
      exact ih.cons_cons _

theorem rankPreparedMem (inside : found ∈ rankPrepared env r s q items) : ∃ item ∈ items, found.row = item.row := by
  obtain ⟨item, hi, ranked⟩ := List.mem_filterMap.mp (sortedByMem.mp inside)
  exact ⟨item, hi, rankRowSource ranked⟩

theorem orderPerm {key : PreparedRow → Rat ×ₗ Nat} {p : PreparedRow → Bool}
    (byId : ∀ a b, key a = key b → a.factId = b.factId) (distinct : Table.Unique PreparedRow.factId items)
    (same : items.Perm items') :
    (sortedBy key (items.filter p)).map PreparedRow.factId = (sortedBy key (items'.filter p)).map PreparedRow.factId := by
  refine congrArg _ (sortedByCongr (fun a ha b hb alike => ?_) (same.filter p))
  exact Table.uniqueEq distinct (List.mem_of_mem_filter ha) (List.mem_of_mem_filter hb) (byId a b alike)

theorem rankPreparedPerm (distinct : Table.Unique PreparedRow.factId items) (same : items.Perm items') :
    rankPrepared env r s q items = rankPrepared env r s q items' := by
  have lexical : lexicalOrder items = lexicalOrder items' :=
    orderPerm (fun a b alike => congrArg Prod.snd (toLex_inj.mp alike)) distinct same
  have dense : denseOrder items = denseOrder items' :=
    orderPerm (fun a b alike => congrArg Prod.snd (toLex_inj.mp alike)) distinct same
  unfold rankPrepared
  rw [← lexical, ← dense]
  refine sortedByCongr (fun a ha b hb alike => ?_) (same.filterMap _)
  have id : a.factId = b.factId :=
    congrArg Prod.snd (toLex_inj.mp (congrArg Prod.snd (toLex_inj.mp alike)))
  exact Table.uniqueEq (distinct.sublist (rankedIds _ _ items)) ha hb id

/-! Which vector a row carries along decides nothing. -/

end Retriever

def PreparedRow.bare (item : PreparedRow) : PreparedRow := { item with vector := none }

def SearchRow.bare (found : SearchRow) : SearchRow := { found with mmrEmbedding := none }

namespace Retriever

variable {env : RecallRuntime} {r : Retriever} {s : RecallStore} {q : Recall}

theorem rankRowBare (lexicalIds denseIds : List Nat) (item : PreparedRow) :
    rankRow env r s q lexicalIds denseIds item.bare =
      (rankRow env r s q lexicalIds denseIds item).map SearchRow.bare := by
  unfold rankRow
  dsimp only
  rw [apply_ite (Option.map SearchRow.bare)]
  rfl

theorem orderBare {key : PreparedRow → Rat ×ₗ Nat} {p : PreparedRow → Bool} (same : ∀ a, key a.bare = key a)
    (keeps : ∀ a, p a.bare = p a) (items : List PreparedRow) :
    (sortedBy key ((items.map PreparedRow.bare).filter p)).map PreparedRow.factId =
      (sortedBy key (items.filter p)).map PreparedRow.factId := by
  have kept : (items.map PreparedRow.bare).filter p = (items.filter p).map PreparedRow.bare := by
    rw [List.filter_map]
    exact congrArg _ (List.filter_congr fun a _ => keeps a)
  rw [kept, ← sortedByMap (fun a _ => same a), List.map_map]
  rfl

theorem rankPreparedBare (items : List PreparedRow) :
    rankPrepared env r s q (items.map PreparedRow.bare) = (rankPrepared env r s q items).map SearchRow.bare := by
  have lexical : lexicalOrder (items.map PreparedRow.bare) = lexicalOrder items :=
    orderBare (fun _ => rfl) (fun _ => rfl) items
  have dense : denseOrder (items.map PreparedRow.bare) = denseOrder items :=
    orderBare (fun _ => rfl) (fun _ => rfl) items
  unfold rankPrepared
  rw [lexical, dense, List.filterMap_map]
  have each : rankRow env r s q (lexicalOrder items) (denseOrder items) ∘ PreparedRow.bare =
      fun item => (rankRow env r s q (lexicalOrder items) (denseOrder items) item).map SearchRow.bare :=
    funext fun item => rankRowBare _ _ item
  have sorted (rows : List SearchRow) : (sortedBy SearchRow.place rows).map SearchRow.bare =
      sortedBy SearchRow.place (rows.map SearchRow.bare) := sortedByMap fun _ _ => rfl
  rw [each, sorted, List.map_filterMap]

/-! ## Expansion -/

variable {excluded : List Nat} {x : Expansion}

structure Expansion.Fair (r : Retriever) (s : RecallStore) (q : Recall) (excluded : List Nat)
    (x : Expansion) : Prop where
  reached : ∀ c ∈ x.expanded, c.fact ∈ r.graphFacts s q ∧ c.fact.factId ∉ excluded ∧ c.fact.factId ∈ x.visited
  distinct : (x.expanded.map fun c => c.fact.factId).Nodup

theorem visitFair {hop : Nat} {row : Fact × FactEntity × Entity} (fair : x.Fair r s q excluded)
    (inside : row.1 ∈ r.graphFacts s q) : (visit env r hop excluded x row).Fair r s q excluded := by
  unfold visit
  split
  · exact fair
  · rename_i open'
    have fresh : row.1.factId ∉ x.visited := by
      intro seen
      simp [seen] at open'
    have kept (c) (hc : c ∈ x.expanded) : c.fact ∈ r.graphFacts s q ∧ c.fact.factId ∉ excluded ∧
        c.fact.factId ∈ x.visited ++ [row.1.factId] :=
      ⟨(fair.reached c hc).1, (fair.reached c hc).2.1, List.mem_append_left _ (fair.reached c hc).2.2⟩
    dsimp only
    split
    · exact ⟨kept, fair.distinct⟩
    · rename_i apart
      refine ⟨fun c hc => ?_, ?_⟩
      · rcases List.mem_append.mp hc with hc | hc
        · exact kept c hc
        · rw [List.mem_singleton.mp hc]
          exact ⟨inside, by simpa using apart, List.mem_append_right _ (List.mem_singleton_self _)⟩
      · rw [List.map_append]
        refine List.nodup_append.mpr ⟨fair.distinct, List.nodup_singleton _, ?_⟩
        intro a ha b hb same
        obtain ⟨c, hc, rfl⟩ := List.mem_map.mp ha
        rw [List.mem_singleton.mp hb] at same
        have id : c.fact.factId = row.1.factId := same
        exact fresh (id ▸ (fair.reached c hc).2.2)

theorem destinationsReached {batch : List Nat} {row : Fact × FactEntity × Entity}
    (inside : row ∈ destinations r s q batch) : row.1 ∈ r.graphFacts s q := by
  obtain ⟨f, hf, inside⟩ := List.mem_flatMap.mp (sortedByMem.mp inside)
  obtain ⟨link, -, inside⟩ := List.mem_flatMap.mp inside
  obtain ⟨e, -, rfl⟩ := List.mem_map.mp inside
  exact hf

theorem visitsFair {hop : Nat} {rows : List (Fact × FactEntity × Entity)} (fair : x.Fair r s q excluded)
    (inside : ∀ row ∈ rows, row.1 ∈ r.graphFacts s q) :
    (rows.foldl (visit env r hop excluded) x).Fair r s q excluded := by
  induction rows generalizing x with
  | nil => exact fair
  | cons row rows ih =>
    exact ih (visitFair fair (inside row List.mem_cons_self)) fun other ho =>
      inside other (List.mem_cons_of_mem _ ho)

theorem expandBatchFair {hop : Nat} {batch : List Nat} (fair : x.Fair r s q excluded) :
    (expandBatch env r s q hop excluded x batch).Fair r s q excluded := by
  unfold expandBatch
  split
  · exact ⟨fair.reached, fair.distinct⟩
  · exact visitsFair ⟨fair.reached, fair.distinct⟩ fun row hr =>
      destinationsReached (List.mem_of_mem_take hr)

theorem expandHopFair {hop : Nat} (fair : x.Fair r s q excluded) :
    (expandHop env r s q excluded x hop).Fair r s q excluded := by
  unfold expandHop
  split
  · exact fair
  · have start : Expansion.Fair r s q excluded { x with frontier := [] } := ⟨fair.reached, fair.distinct⟩
    dsimp only
    generalize (expandable r s q x.frontier).toChunks 400 = batches
    generalize ({ x with frontier := [] } : Expansion) = y at start ⊢
    induction batches generalizing y with
    | nil => exact start
    | cons batch batches ih => exact ih _ (expandBatchFair start)

theorem expandFair (seeds excluded : List Nat) :
    (∀ c ∈ expandViaEntities env r s q seeds excluded, c.fact ∈ r.graphFacts s q ∧ c.fact.factId ∉ excluded) ∧
      ((expandViaEntities env r s q seeds excluded).map fun c => c.fact.factId).Nodup := by
  have start : Expansion.Fair r s q excluded ⟨firsts seeds, firsts seeds, [], 0, false⟩ :=
    ⟨fun _ none => absurd none List.not_mem_nil, List.nodup_nil⟩
  have first : Expansion.Fair r s q excluded (expandHop env r s q excluded _ 1) := expandHopFair start
  have fair : Expansion.Fair r s q excluded (expandHop env r s q excluded _ 2) := expandHopFair first
  exact ⟨fun c hc => ⟨(fair.reached c hc).1, (fair.reached c hc).2.1⟩, fair.distinct⟩

theorem expandSame (seeds : List Nat) {excluded' : List Nat} (same : ∀ id, id ∈ excluded ↔ id ∈ excluded') :
    expandViaEntities env r s q seeds excluded = expandViaEntities env r s q seeds excluded' := by
  have contained (id : Nat) : excluded.contains id = excluded'.contains id := by
    rw [Bool.eq_iff_iff, List.contains_iff_mem, List.contains_iff_mem]
    exact same id
  have visits (hop : Nat) : visit env r hop excluded = visit env r hop excluded' := by
    funext x row
    simp only [visit, contained]
  have batches (hop : Nat) : expandBatch env r s q hop excluded = expandBatch env r s q hop excluded' := by
    funext x batch
    simp only [expandBatch, visits]
  have hops : expandHop env r s q excluded = expandHop env r s q excluded' := by
    funext x hop
    simp only [expandHop, batches]
  simp only [expandViaEntities, hops]

variable (env r s q) in
theorem graphRowsFair (prepared : List PreparedRow) :
    (∀ c ∈ graphRows env r s q prepared, c.fact ∈ r.graphFacts s q ∧
      c.fact.factId ∉ prepared.map PreparedRow.factId) ∧
      ((graphRows env r s q prepared).map fun c => c.fact.factId).Nodup := by
  unfold graphRows
  split
  · exact expandFair _ _
  · exact ⟨fun c none => absurd none List.not_mem_nil, List.nodup_nil⟩

theorem graphEligible (inside : f ∈ r.graphFacts s q) : f ∈ r.eligibleFacts s q :=
  List.mem_of_mem_filter inside

/-! ## The rows of a search -/

theorem settleSource {scored : Bool} {ranked : List SearchRow} (inside : found ∈ r.settle s q scored ranked) :
    ∃ old ∈ ranked, found.row = old.row := by
  unfold settle at inside
  split at inside
  · rename_i cluster ambiguous
    obtain ⟨old, hold, rfl⟩ := List.mem_map.mp inside
    refine ⟨old, ?_, rfl⟩
    unfold ambiguousCluster at ambiguous
    split at ambiguous
    · split at ambiguous
      · unfold contradictoryCluster at ambiguous
        split at ambiguous
        · rename_i one other more near
          split at ambiguous
          · cases ambiguous
            exact List.mem_of_mem_filter (near ▸ hold)
          · cases ambiguous
        · cases ambiguous
      · cases ambiguous
    · cases ambiguous
  · have kept : ∃ old ∈ ranked.take q.limit, found.row = old.row := by
      unfold withEmbeddings at inside
      split at inside
      · obtain ⟨old, hold, rfl⟩ := List.mem_map.mp inside
        exact ⟨old, hold, rfl⟩
      · split at inside
        · obtain ⟨old, hold, rfl⟩ := List.mem_map.mp inside
          exact ⟨old, hold, rfl⟩
        · split at inside
          · obtain ⟨old, hold, rfl⟩ := List.mem_map.mp inside
            exact ⟨old, hold, rfl⟩
          · exact ⟨found, inside, rfl⟩
    obtain ⟨old, hold, same⟩ := kept
    exact ⟨old, List.mem_of_mem_take hold, same⟩

theorem preparedSource {ftsIds : List Nat} {source : DenseSource} {rows : List Candidate}
    {vectors : List (Option (List Rat))} (made : prepareRows env r q ftsIds source rows vectors = .ok items)
    (inside : item ∈ items) : item.row ∈ rows := by
  obtain ⟨⟨row, vector⟩, paired, prepared⟩ := mapMSource made item inside
  obtain ⟨dense, -, last⟩ := bindOk.mp prepared
  cases last
  exact (List.of_mem_zip paired).1

theorem settledEligible {scored : Bool} (eligible : ∀ item ∈ items, item.row.fact ∈ r.eligibleFacts s q)
    (inside : found ∈ r.settle s q scored (rankPrepared env r s q items)) : found.row.fact ∈ r.eligibleFacts s q := by
  obtain ⟨old, hold, same⟩ := settleSource inside
  obtain ⟨item, hi, row⟩ := rankPreparedMem hold
  rw [same, row]
  exact eligible item hi

theorem rankedEligible {window : DenseWindow} {query : List Rat} {rows : List SearchRow}
    (eligible : ∀ item ∈ items, item.row.fact ∈ r.eligibleFacts s q)
    (made : rankWithEntities env r s q window query items = .ok rows) :
    ∀ found ∈ rows, found.row.fact ∈ r.eligibleFacts s q := by
  intro found inside
  unfold rankWithEntities at made
  dsimp only at made
  split at made
  · cases made
    exact settledEligible eligible inside
  · have source : ∃ (scores : Option (List (Nat × Rat))) (vectors : List (Option (List Rat))) (more : List PreparedRow),
        prepareRows env r q window.ftsIds (r.denseSource scores query) (graphRows env r s q items) vectors = .ok more ∧
          r.settle s q scores.isSome (rankPrepared env r s q (items ++ more)) = rows := by
      unfold rankExpanded at made
      dsimp only at made
      split at made
      · obtain ⟨⟨scores, vectors⟩, -, made⟩ := bindOk.mp made
        obtain ⟨more, prepared, last⟩ := bindOk.mp made
        exact ⟨scores, vectors, more, prepared, Except.ok.inj last⟩
      · obtain ⟨⟨scores, vectors⟩, -, made⟩ := bindOk.mp made
        obtain ⟨more, prepared, last⟩ := bindOk.mp made
        exact ⟨scores, vectors, more, prepared, Except.ok.inj last⟩
    obtain ⟨scores, vectors, more, prepared, rfl⟩ := source
    refine settledEligible (fun item hi => ?_) inside
    rcases List.mem_append.mp hi with hi | hi
    · exact eligible item hi
    · exact graphEligible ((graphRowsFair env r s q items).1 item.row (preparedSource prepared hi)).1

end Retriever

theorem Retriever.candidatesRanked {env : RecallRuntime} {r : Retriever} {s : RecallStore} {q : Recall}
    {window searched : DenseWindow} {query : List Rat} {rows : List SearchRow}
    (made : rankCandidates env r s q searched query (r.candidates env s q window) = .ok rows) :
    ∀ found ∈ rows, found.row.fact ∈ r.eligibleFacts s q := by
  obtain ⟨⟨evidence, vectors⟩, -, made⟩ := bindOk.mp made
  obtain ⟨prepared, listed, made⟩ := bindOk.mp made
  refine rankedEligible (fun item hi => ?_) made
  obtain ⟨f, hf, row⟩ := List.mem_map.mp (preparedSource listed hi)
  rw [← row]
  obtain ⟨factId, -, here⟩ := List.mem_filterMap.mp (selectWithin hf)
  exact List.mem_of_find?_eq_some here

/-- Every row of a search is a stored fact its conjuncts select. -/
theorem HybridRetriever.searchSource {env : RecallRuntime} {r : HybridRetriever} {s : RecallStore} {q : Recall}
    {rows : List SearchRow} (made : r.search env s q = .ok rows) :
    ∀ found ∈ rows, found.row.fact ∈ r.eligibleFacts s q.stripped := by
  unfold search at made
  split at made
  · cases made
    exact fun _ h => absurd h List.not_mem_nil
  · obtain ⟨⟨embedded, window⟩, -, made⟩ := bindOk.mp made
    dsimp only at made
    split at made
    · cases made
      exact fun _ h => absurd h List.not_mem_nil
    · split at made
      · exact Retriever.candidatesRanked made
      · split at made
        · exact Retriever.candidatesRanked made
        · obtain ⟨query, -, made⟩ := bindOk.mp made
          exact Retriever.candidatesRanked made

end Enfold
