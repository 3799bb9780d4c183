import Enfold.MergeProtection
import Enfold.RecallRows

/-! The vector index against the full scan. The index path ranks the embedded facts it selects and the
lexical hits, the scan ranks every eligible fact: the two agree where the scan's selection holds no fact
that the index cannot see. -/
namespace Enfold

open Fallible KeyOrder

variable {env : RecallRuntime} {s : RecallStore} {q : Recall} {spec : EmbeddingSpec} {f : Fact}

/-! ## Stored vectors -/

def Store.Holds (s : Store) (spec : EmbeddingSpec) (factId : Nat) (vector : List Rat) : Prop :=
  ∃ e, s.storedVector spec factId = some e ∧ e.dim = spec.dimensions ∧
    e.embedding.length = spec.dimensions ∧ e.embedding = vector

/-- A fact the backend can serve: with its vector, or with none as long as a job will make it. -/
def Store.Serves (s : Store) (spec : EmbeddingSpec) (factId : Nat) : Prop :=
  (∃ vector, s.Holds spec factId vector) ∨
    (s.storedVector spec factId = none ∧ s.queuedFor spec factId = true)

def Store.vectorOf (s : Store) (spec : EmbeddingSpec) (factId : Nat) : Option (List Rat) :=
  (s.storedVector spec factId).map Embedding.embedding

theorem Store.Holds.vectorOf {vector : List Rat} {factId : Nat} (held : s.Holds spec factId vector) :
    s.vectorOf spec factId = some vector := by
  obtain ⟨e, here, -, -, rfl⟩ := held
  simp [Store.vectorOf, here]

theorem storedVectorIs (keys : s.PrimaryKeys) {e : Embedding} {factId : Nat} (inside : e ∈ s.embeddings)
    (identity : e.embeddingIdentity = spec.documentIdentity) (id : e.factId = factId) :
    s.storedVector spec factId = some e := by
  cases here : s.storedVector spec factId with
  | none =>
    have absent := List.find?_eq_none.mp here e inside
    simp [identity, id] at absent
  | some other =>
    have named : other.embeddingIdentity = spec.documentIdentity ∧ other.factId = factId := by
      simpa using List.find?_some here
    have same : other = e := Table.uniqueEq keys.embeddings (List.mem_of_find?_eq_some here) inside
      (Prod.ext (named.2.trans id.symm) (named.1.trans identity.symm))
    rw [same]

theorem storedVectorSource {e : Embedding} {factId : Nat} (here : s.storedVector spec factId = some e) :
    e ∈ s.embeddings ∧ e.embeddingIdentity = spec.documentIdentity ∧ e.factId = factId := by
  have named : e.embeddingIdentity = spec.documentIdentity ∧ e.factId = factId := by
    simpa using List.find?_some here
  exact ⟨List.mem_of_find?_eq_some here, named⟩

theorem loadServed (keys : s.PrimaryKeys) {factIds : List Nat} (distinct : factIds.Nodup)
    (served : ∀ id ∈ factIds, s.Serves spec id) :
    loadDocuments s.toStore spec factIds = .ok (factIds.map (s.vectorOf spec)) := by
  have sound (e : Embedding) (he : e ∈ s.embeddings.filter fun e =>
      e.embeddingIdentity = spec.documentIdentity && factIds.contains e.factId) :
      e.dim = spec.dimensions ∧ e.embedding.length = spec.dimensions := by
    simp only [List.mem_filter, Bool.and_eq_true, decide_eq_true_eq, List.contains_iff_mem] at he
    have here := storedVectorIs keys he.1 he.2.1 rfl
    rcases served e.factId he.2.2 with ⟨_, other, there, dim, size, -⟩ | ⟨none, -⟩
    · cases Option.some.inj (there.symm.trans here)
      exact ⟨dim, size⟩
    · rw [here] at none
      cases none
  have covered : (factIds.filter fun factId => (s.storedVector spec factId).isNone).filter
      (fun factId => !s.queuedFor spec factId) = [] := by
    refine List.filter_eq_nil_iff.mpr fun id inside => ?_
    obtain ⟨listed, missing⟩ := List.mem_filter.mp inside
    rcases served id listed with ⟨_, e, here, -⟩ | ⟨-, queued⟩
    · rw [here] at missing
      cases missing
    · simp [queued]
  unfold loadDocuments
  rw [(ensureOk (u := ())).mpr (decide_eq_true distinct), okBind]
  dsimp only
  rw [mapMTotal (g := fun _ => ()), okBind, covered]
  · rfl
  · intro e he
    obtain ⟨dim, size⟩ := sound e he
    rw [(ensureOk (u := ())).mpr (decide_eq_true dim), okBind]
    exact ensureOk.mpr (decide_eq_true size)

theorem loadSource {factIds : List Nat} {vectors : List (Option (List Rat))}
    (read : loadDocuments s.toStore spec factIds = .ok vectors) :
    vectors = factIds.map (s.vectorOf spec) ∧ factIds.Nodup ∧ ∀ id ∈ factIds, s.Serves spec id := by
  unfold loadDocuments at read
  obtain ⟨_, distinct, read⟩ := bindOk.mp read
  obtain ⟨_, checked, read⟩ := bindOk.mp read
  obtain ⟨_, covered, read⟩ := bindOk.mp read
  cases read
  refine ⟨rfl, of_decide_eq_true (ensureOk.mp distinct), fun id inside => ?_⟩
  cases here : s.storedVector spec id with
  | none =>
    refine .inr ⟨here, ?_⟩
    have empty := of_decide_eq_true (ensureOk.mp covered)
    by_contra open'
    have listed := List.filter_eq_nil_iff.mp empty id
      (List.mem_filter.mpr ⟨inside, by rw [here]; rfl⟩)
    simp [open'] at listed
  | some e =>
    obtain ⟨stored, identity, named⟩ := storedVectorSource here
    obtain ⟨_, -, sound⟩ := mapMEach checked e
      (List.mem_filter.mpr ⟨stored, by simp [identity, named, inside]⟩)
    obtain ⟨_, dim, size⟩ := bindOk.mp sound
    exact .inl ⟨_, e, here, of_decide_eq_true (ensureOk.mp dim), of_decide_eq_true (ensureOk.mp size), rfl⟩

/-! ## The index -/

theorem scoresSource {idx : SQLiteVecIndex} {query : List Rat} {factIds : List Nat}
    {scores : List (Nat × Rat)} (scored : idx.scores env s.toVectorStore query factIds = .ok scores) :
    query.length = idx.dimensions ∧ factIds.Nodup ∧ ∀ p ∈ scores, p.1 ∈ factIds := by
  unfold SQLiteVecIndex.scores at scored
  obtain ⟨_, size, scored⟩ := bindOk.mp scored
  obtain ⟨_, distinct, scored⟩ := bindOk.mp scored
  refine ⟨of_decide_eq_true (ensureOk.mp size), of_decide_eq_true (ensureOk.mp distinct), ?_⟩
  split at scored
  · cases scored
    exact fun p inside => absurd inside List.not_mem_nil
  · obtain ⟨table, -, scored⟩ := bindOk.mp scored
    obtain ⟨built, measured, scored⟩ := bindOk.mp scored
    obtain ⟨_, -, scored⟩ := bindOk.mp scored
    cases scored
    intro p inside
    obtain ⟨row, hr, here⟩ := mapMSource measured p inside
    unfold scoreRow at here
    split at here
    · cases here
    · cases here
      exact List.contains_iff_mem.mp (List.mem_filter.mp hr).2

/-- Whenever the index answers, it answers with the cosines of the canonical vectors, and neither these
nor the query are zero. -/
def SQLiteVecIndex.Exact (env : RecallRuntime) (s : RecallStore) (spec : EmbeddingSpec)
    (idx : SQLiteVecIndex) : Prop :=
  ∀ query factIds scores, idx.scores env s.toVectorStore query factIds = .ok scores →
    ∀ id ∈ factIds, ∃ vector, s.Holds spec id vector ∧ isAbsentVector (some vector) = false ∧
      isAbsentVector (some query) = false ∧
      scores.lookup id = some (max 0 (env.similarity query vector))

/-- What `build` makes sure of when it opens an index. -/
structure Retriever.Indexed (r : Retriever) (backend : StoredBackend) (idx : SQLiteVecIndex) : Prop where
  embedder : r.embedder = .stored backend
  enabled : r.denseDisabled = false
  identity : idx.identity = backend.spec.documentIdentity
  dimensions : idx.dimensions = backend.spec.dimensions

def HybridRetriever.brute (r : HybridRetriever) : HybridRetriever := { r with vectorIndex := none }

theorem openedFor {loaded : Bool} {v : VectorStore} {identity : String} {dimensions : Nat}
    {idx : SQLiteVecIndex} (opened : SQLiteVecIndex.openIndex loaded v identity dimensions = some idx) :
    idx.identity = identity ∧ idx.dimensions = dimensions := by
  unfold SQLiteVecIndex.openIndex at opened
  simp only [bind, Option.bind_eq_some_iff] at opened
  obtain ⟨-, -, name, -, table, -, -, -, source, -, index, -, -, -, -, -, last⟩ := opened
  cases Option.some.inj last
  exact ⟨rfl, rfl⟩

section Built
variable {loaded : Bool} {v : VectorStore} {backend : StoredBackend} {scopes : List String} {limit : Nat}
  {choice : VectorBackend} {ranking : RankingConfig} {now : Int} {expansion : Bool} {r b : HybridRetriever}

theorem buildSource
    (built : HybridRetriever.build loaded v (.stored backend) scopes limit choice ranking now expansion = .ok r) :
    r = ⟨⟨.stored backend, scopes, ranking.ftsWeight, ranking.jaccardWeight, ranking.denseWeight, ranking,
      ranking.scoreFloor, limit, expansion, now⟩, r.vectorIndex⟩ ∧
      ∀ idx, r.vectorIndex = some idx → choice ≠ .brute ∧ r.Indexed backend idx := by
  unfold HybridRetriever.build at built
  obtain ⟨_, -, built⟩ := bindOk.mp built
  obtain ⟨_, -, built⟩ := bindOk.mp built
  cases built
  refine ⟨rfl, fun idx index => ?_⟩
  dsimp only at index
  split at index
  · rename_i wanted
    obtain ⟨identity, dimensions⟩ := openedFor index
    exact ⟨wanted.2, rfl, decide_eq_false wanted.1, identity, dimensions⟩
  · cases index

theorem buildBrute
    (built : HybridRetriever.build loaded v (.stored backend) scopes limit choice ranking now expansion = .ok r)
    (scan : HybridRetriever.build loaded v (.stored backend) scopes limit .brute ranking now expansion = .ok b) :
    b = r.brute := by
  obtain ⟨made, -⟩ := buildSource built
  obtain ⟨also, index⟩ := buildSource scan
  have none : b.vectorIndex = none := by
    cases here : b.vectorIndex with
    | none => rfl
    | some idx => exact absurd rfl (index idx here).1
  rw [also, none, made]
  rfl

end Built

/-! ## The candidates of the two paths -/

namespace Retriever

variable {r : Retriever} {backend : StoredBackend} {idx : SQLiteVecIndex}

def kept (env : RecallRuntime) (r : Retriever) (s : RecallStore) (q : Recall) : List Fact :=
  selectNamedAnchorMatches (anchors env q) Fact.anchorText (r.eligibleFacts s q)

def keptEmbedded (env : RecallRuntime) (r : Retriever) (s : RecallStore) (q : Recall)
    (idx : SQLiteVecIndex) : List Fact :=
  selectNamedAnchorMatches (anchors env q) Fact.anchorText (r.embeddedFacts s q idx)

def lexicalHit (env : RecallRuntime) (q : Recall) (f : Fact) : Bool :=
  matchesAny env (ftsTerms q.query) f.document

def scanWindow (env : RecallRuntime) (r : Retriever) (s : RecallStore) (q : Recall) : DenseWindow :=
  ⟨none, r.scanIds s q, r.ftsRanked env s q, none⟩

theorem embeddedMem (indexed : r.Indexed backend idx) :
    f ∈ r.embeddedFacts s q idx ↔ f ∈ r.eligibleFacts s q ∧ ∃ e ∈ s.embeddings, e.factId = f.factId ∧
      e.embeddingIdentity = backend.spec.documentIdentity ∧ e.dim = backend.spec.dimensions := by
  simp [embeddedFacts, indexed.identity, indexed.dimensions, and_assoc]

theorem ftsRankedMem (keyed : Table.Unique Fact.factId s.facts)
    (inside : f ∈ r.eligibleFacts s q) : f.factId ∈ r.ftsRanked env s q ↔ lexicalHit env q f = true := by
  simp only [ftsRanked, List.mem_map, sortedByMem, List.mem_filter]
  constructor
  · rintro ⟨g, ⟨hg, hit⟩, id⟩
    rwa [Table.uniqueEq (eligibleUnique keyed) inside hg id.symm]
  · intro hit
    exact ⟨f, ⟨inside, hit⟩, rfl⟩

theorem ftsAll (small : (r.eligibleFacts s q).length ≤ r.candidateLimit) :
    (r.ftsRanked env s q).take r.candidateLimit = r.ftsRanked env s q := by
  refine List.take_of_length_le ?_
  simp only [ftsRanked, List.length_map]
  rw [(sortedByPerm _ _).length_eq]
  exact (List.length_filter_le _ _).trans small

theorem scanAll (small : (r.eligibleFacts s q).length ≤ r.candidateLimit) (inside : f ∈ r.eligibleFacts s q) :
    f.factId ∈ r.scanIds s q := by
  rw [scanIds, List.take_of_length_le]
  · exact List.mem_map_of_mem (sortedByMem.mpr inside)
  · rw [List.length_map, (sortedByPerm _ _).length_eq]
    exact small

theorem scanCandidates (keyed : Table.Unique Fact.factId s.facts)
    (small : (r.eligibleFacts s q).length ≤ r.candidateLimit) {window : DenseWindow}
    (scan : window.denseIds = r.scanIds s q) :
    f ∈ r.candidates env s q window ↔ f ∈ r.kept env s q := by
  refine selectCongr fun g => ?_
  rw [loadedMem keyed, and_iff_left_iff_imp]
  intro inside
  rw [scan]
  exact List.mem_append_left _ (scanAll small inside)

def Covered (env : RecallRuntime) (r : Retriever) (s : RecallStore) (q : Recall) (spec : EmbeddingSpec) :
    Prop :=
  ∀ f ∈ r.kept env s q, (∃ vector, s.Holds spec f.factId vector) ∨
    (lexicalHit env q f = true ∧ s.storedVector spec f.factId = none ∧ s.queuedFor spec f.factId = true)

/-- The index answers nothing: it has none of the kept facts, or it raises, and the scan's candidates are ranked. -/
def Scans (env : RecallRuntime) (r : Retriever) (s : RecallStore) (q : Recall) (idx : SQLiteVecIndex) : Prop :=
  r.keptEmbedded env s q idx = [] ∨ ∀ query, r.embedder.embedQuery q.query = .ok query →
    ∃ e, idx.scores env s.toVectorStore query ((r.keptEmbedded env s q idx).map Fact.factId) = .error e

theorem Covered.serves (covered : r.Covered env s q spec) (inside : f ∈ r.kept env s q) :
    s.Serves spec f.factId :=
  (covered f inside).imp id And.right

theorem heldEmbedded (indexed : r.Indexed backend idx) {vector : List Rat} (inside : f ∈ r.eligibleFacts s q)
    (held : s.Holds backend.spec f.factId vector) : f ∈ r.embeddedFacts s q idx := by
  obtain ⟨e, here, dim, -, -⟩ := held
  obtain ⟨stored, identity, id⟩ := storedVectorSource here
  exact (embeddedMem indexed).mpr ⟨inside, e, stored, id, identity, dim⟩

section Scored
variable (keys : s.PrimaryKeys) (indexed : r.Indexed backend idx) (exact : idx.Exact env s backend.spec)
  {query : List Rat} {scores : List (Nat × Rat)}
  (scored : idx.scores env s.toVectorStore query ((r.keptEmbedded env s q idx).map Fact.factId) = .ok scores)

include scored exact in
theorem scoredIds {id : Nat} :
    id ∈ scores.map Prod.fst ↔ id ∈ (r.keptEmbedded env s q idx).map Fact.factId := by
  constructor
  · intro inside
    obtain ⟨p, hp, rfl⟩ := List.mem_map.mp inside
    exact (scoresSource scored).2.2 p hp
  · intro inside
    obtain ⟨vector, -, -, -, here⟩ := exact query _ scores scored id inside
    obtain ⟨before, after, split, -⟩ := List.lookup_eq_some_iff.mp here
    rw [split]
    simp

include keys indexed scored exact in
theorem indexCandidates (covered : r.Covered env s q backend.spec) {window : DenseWindow}
    (dense : window.denseIds = (sortedBy (fun p : Nat × Rat => toLex (-p.2, p.1)) scores).map Prod.fst)
    (lexical : window.ftsIds = r.ftsRanked env s q) :
    f ∈ r.candidates env s q window ↔ f ∈ r.kept env s q := by
  have inDense {g : Fact} (hg : g ∈ r.eligibleFacts s q) :
      g.factId ∈ window.denseIds ↔ g ∈ r.keptEmbedded env s q idx := by
    have sorted : g.factId ∈ window.denseIds ↔ g.factId ∈ scores.map Prod.fst := by
      rw [dense]
      exact ((sortedByPerm _ _).map _).mem_iff
    rw [sorted, scoredIds exact scored]
    constructor
    · intro inside
      obtain ⟨h, hh, id⟩ := List.mem_map.mp inside
      have eligible := ((embeddedMem indexed).mp (selectWithin hh)).1
      rwa [Table.uniqueEq (eligibleUnique keys.facts) hg eligible id.symm]
    · exact fun inside => List.mem_map_of_mem inside
  have firsts (g) (hg : g ∈ r.embeddedFacts s q idx) : g ∈ r.eligibleFacts s q :=
    ((embeddedMem indexed).mp hg).1
  have seconds (g) (hg : g ∈ (r.eligibleFacts s q).filter (lexicalHit env q)) : g ∈ r.eligibleFacts s q :=
    List.mem_of_mem_filter hg
  refine selectPooled firsts seconds (fun g => ?_) fun g hg => ?_
  · rw [loadedMem keys.facts, List.mem_append, lexical, List.mem_filter]
    constructor
    · rintro ⟨inside, inDenseIds | hit⟩
      · exact .inl ((inDense inside).mp inDenseIds)
      · exact .inr ⟨inside, (ftsRankedMem keys.facts inside).mp hit⟩
    · rintro (chosen | ⟨inside, hit⟩)
      · have inside := ((embeddedMem indexed).mp (selectWithin chosen)).1
        exact ⟨inside, .inl ((inDense inside).mpr chosen)⟩
      · exact ⟨inside, .inr ((ftsRankedMem keys.facts inside).mpr hit)⟩
  · have inside := selectWithin hg
    rcases covered g hg with ⟨vector, held⟩ | ⟨hit, -⟩
    · exact .inl (heldEmbedded indexed inside held)
    · exact .inr (List.mem_filter.mpr ⟨inside, hit⟩)

end Scored

/-! ## The evidence of the two paths -/

def comparedEvidence (env : RecallRuntime) (query : List Rat) (vector : Option (List Rat)) : Option Rat :=
  if isAbsentVector vector then none else some (max 0 (env.similarity query (vector.getD [])))

theorem servedCosine {query : List Rat} {id : Nat} (size : query.length = spec.dimensions)
    (present : isAbsentVector (some query) = false) (served : s.Serves spec id)
    (stored : isAbsentVector (s.vectorOf spec id) = false) :
    cosine env query ((s.vectorOf spec id).getD []) =
      .ok (env.similarity query ((s.vectorOf spec id).getD [])) := by
  rcases served with ⟨vector, held⟩ | ⟨none, -⟩
  · rw [held.vectorOf] at stored ⊢
    obtain ⟨e, -, -, length, rfl⟩ := held
    have same : query.length = e.embedding.length := size.trans length.symm
    have nonzero : (query.all (· = 0) || e.embedding.all (· = 0)) = false :=
      Bool.or_eq_false_iff.mpr ⟨present, stored⟩
    simp [cosine, same, nonzero, ensure, okBind]
  · simp [Store.vectorOf, none, isAbsentVector] at stored

theorem servedEvidence {query : List Rat} {id : Nat} (size : query.length = spec.dimensions)
    (present : isAbsentVector (some query) = false) (served : s.Serves spec id) :
    denseEvidence env id (s.vectorOf spec id) (.compared query) =
      .ok (comparedEvidence env query (s.vectorOf spec id)) := by
  unfold denseEvidence comparedEvidence
  dsimp only
  cases stored : isAbsentVector (s.vectorOf spec id) with
  | true => rfl
  | false =>
    rw [servedCosine size present served stored]
    rfl

def freshScores (env : RecallRuntime) (s : RecallStore) (spec : EmbeddingSpec) (query : List Rat)
    (facts : List Fact) : List (Nat × Rat) :=
  (facts.filter fun f => !isAbsentVector (s.vectorOf spec f.factId)).map fun f =>
    (f.factId, max 0 (env.similarity query ((s.vectorOf spec f.factId).getD [])))

theorem comparedTotal (env : RecallRuntime) {query : List Rat} {facts : List Fact} (size : query.length = spec.dimensions)
    (present : isAbsentVector (some query) = false) (served : ∀ f ∈ facts, s.Serves spec f.factId) :
    (((facts.zip (facts.map fun f => s.vectorOf spec f.factId)).filter fun p => !isAbsentVector p.2).mapM
      fun p => do .ok (p.1.factId, max 0 (← cosine env query (p.2.getD [])))) =
      (.ok (freshScores env s spec query facts) : Except Raised _) := by
  rw [← List.map_prod_left_eq_zip, List.filter_map, List.mapM_map]
  refine mapMTotal fun f hf => ?_
  obtain ⟨inside, stored⟩ := List.mem_filter.mp hf
  show (cosine env query ((s.vectorOf spec f.factId).getD []) >>= fun score => _) = _
  rw [servedCosine size present (served f inside) (by simpa using stored)]
  rfl

theorem prepareTotal {ftsIds : List Nat} {source : DenseSource} {rows : List Candidate}
    {vector : Candidate → Option (List Rat)} {dense : Candidate → Option Rat}
    (each : ∀ c ∈ rows, denseEvidence env c.fact.factId (vector c) source = .ok (dense c)) :
    prepareRows env r q ftsIds source rows (rows.map vector) =
      .ok (rows.map fun c => preparedRow r q ftsIds c (vector c) (dense c)) := by
  unfold prepareRows
  have given : (if rows.map vector = [] then rows.map fun _ => none else rows.map vector) = rows.map vector := by
    split
    · rename_i empty
      rw [List.map_eq_nil_iff.mp empty]
      rfl
    · rfl
  dsimp only
  rw [given, ← List.map_prod_left_eq_zip, List.mapM_map]
  refine mapMTotal fun c hc => ?_
  show prepareRow env r q ftsIds source c (vector c) = _
  rw [prepareRow, each c hc]
  rfl

theorem prepareUnvectored (ftsIds : List Nat) (source : DenseSource) (rows : List Candidate) :
    prepareRows env r q ftsIds source rows [] =
      prepareRows env r q ftsIds source rows (rows.map fun _ => none) := by
  unfold prepareRows
  dsimp only
  rw [if_pos rfl]
  split <;> rfl

/-! ## Rankings alike but for the vectors they carry -/

def Alike (items items' : List PreparedRow) : Prop := (items.map PreparedRow.bare).Perm (items'.map PreparedRow.bare)

theorem rankAlike {items items' : List PreparedRow} (distinct : Table.Unique PreparedRow.factId items)
    (alike : Alike items items') : (rankPrepared env r s q items).map SearchRow.bare =
      (rankPrepared env r s q items').map SearchRow.bare := by
  rw [← rankPreparedBare, ← rankPreparedBare]
  refine rankPreparedPerm ?_ alike
  show ((items.map PreparedRow.bare).map PreparedRow.factId).Nodup
  rw [List.map_map]
  exact distinct

theorem alikeIds {items items' : List PreparedRow} (alike : Alike items items') :
    (items.map PreparedRow.factId).Perm (items'.map PreparedRow.factId) := by
  have ids := List.Perm.map PreparedRow.factId alike
  rwa [List.map_map, List.map_map] at ids

def settledIds (r : Retriever) (q : Recall) (ranked : List SearchRow) : List Nat :=
  ((r.ambiguousCluster ranked).getD (ranked.take q.limit)).map SearchRow.factId

theorem settleIds (scored : Bool) (ranked : List SearchRow) :
    (r.settle s q scored ranked).map SearchRow.factId = settledIds r q ranked := by
  unfold settle settledIds
  cases r.ambiguousCluster ranked with
  | some cluster =>
    rw [List.map_map]
    rfl
  | none =>
    show (r.withEmbeddings s scored (ranked.take q.limit)).map SearchRow.factId = _
    unfold withEmbeddings
    dsimp only
    split
    · rw [List.map_map]
      rfl
    · split
      · rw [List.map_map]
        rfl
      · split
        · rw [List.map_map]
          rfl
        · rfl

theorem contradictoryBare (ranked : List SearchRow) :
    contradictoryCluster (ranked.map SearchRow.bare) =
      (contradictoryCluster ranked).map (List.map SearchRow.bare) := by
  match ranked with
  | [] => rfl
  | [_] => rfl
  | one :: other :: more =>
    show (if contradictingStateSlots one.row.fact other.row.fact then _ else _) =
      Option.map (List.map SearchRow.bare) (if contradictingStateSlots one.row.fact other.row.fact then _ else _)
    split <;> rfl

theorem clusterBare (ranked : List SearchRow) :
    r.ambiguousCluster (ranked.map SearchRow.bare) =
      (r.ambiguousCluster ranked).map (List.map SearchRow.bare) := by
  match ranked with
  | [] => rfl
  | [_] => rfl
  | first :: second :: rest =>
    have near : (List.map SearchRow.bare (first :: second :: rest)).filter
        (fun found => first.score - found.score < r.ranking.ambiguityMargin) =
        ((first :: second :: rest).filter fun found =>
          first.score - found.score < r.ranking.ambiguityMargin).map SearchRow.bare := by
      rw [List.filter_map]
      rfl
    show (if first.score - second.score < r.ranking.ambiguityMargin then
        contradictoryCluster ((List.map SearchRow.bare (first :: second :: rest)).filter
          fun found => first.score - found.score < r.ranking.ambiguityMargin)
      else none) = Option.map (List.map SearchRow.bare)
        (if first.score - second.score < r.ranking.ambiguityMargin then _ else none)
    rw [near, contradictoryBare]
    split <;> rfl

theorem settledBare (ranked : List SearchRow) :
    settledIds r q (ranked.map SearchRow.bare) = settledIds r q ranked := by
  unfold settledIds
  rw [clusterBare]
  cases r.ambiguousCluster ranked with
  | some cluster =>
    show (cluster.map SearchRow.bare).map SearchRow.factId = cluster.map SearchRow.factId
    rw [List.map_map]
    rfl
  | none =>
    show ((ranked.map SearchRow.bare).take q.limit).map SearchRow.factId =
      (ranked.take q.limit).map SearchRow.factId
    rw [← List.map_take, List.map_map]
    rfl

theorem settleAlike {ranked ranked' : List SearchRow} (scored scored' : Bool)
    (alike : ranked.map SearchRow.bare = ranked'.map SearchRow.bare) :
    (r.settle s q scored ranked).map SearchRow.factId = (r.settle s q scored' ranked').map SearchRow.factId := by
  rw [settleIds, settleIds, ← settledBare ranked, alike, settledBare]

/-! ## Facts found by expansion -/

theorem lookupUnique {scores : List (Nat × Rat)} {p : Nat × Rat} (unique : (scores.map Prod.fst).Nodup)
    (inside : p ∈ scores) : scores.lookup p.1 = some p.2 := by
  obtain ⟨before, after, split⟩ := List.append_of_mem inside
  refine List.lookup_eq_some_iff.mpr ⟨before, after, split, fun pair hp => ?_⟩
  rw [split, List.map_append, List.map_cons] at unique
  have apart := (List.nodup_append.mp unique).2.2 pair.1 (List.mem_map_of_mem hp) _ List.mem_cons_self
  exact bne_iff_ne.mpr apart.symm

theorem lookupFiltered {facts : List Fact} {p : Fact → Bool} {h : Fact → Rat}
    (unique : Table.Unique Fact.factId facts) (inside : f ∈ facts) :
    ((facts.filter p).map fun g => (g.factId, h g)).lookup f.factId = if p f then some (h f) else none := by
  cases kept : p f with
  | true =>
    have keys : (((facts.filter p).map fun g => (g.factId, h g)).map Prod.fst).Nodup := by
      rw [List.map_map]
      exact unique.sublist (List.filter_sublist.map _)
    have listed : (f.factId, h f) ∈ (facts.filter p).map fun g => (g.factId, h g) :=
      List.mem_map_of_mem (List.mem_filter.mpr ⟨inside, kept⟩)
    exact lookupUnique keys listed
  | false =>
    refine List.lookup_eq_none_iff.mpr fun pair hp => ?_
    obtain ⟨g, hg, rfl⟩ := List.mem_map.mp hp
    obtain ⟨there, other⟩ := List.mem_filter.mp hg
    rw [bne_iff_ne]
    intro same
    rw [Table.uniqueEq unique inside there same, other] at kept
    cases kept

section Expanded
variable {query : List Rat} {scores : List (Nat × Rat)} {expanded : List Candidate} {window scan : DenseWindow}

theorem expandedAgrees (keys : s.PrimaryKeys) (indexed : r.Indexed backend idx)
    (exact : idx.Exact env s backend.spec) (size : query.length = backend.spec.dimensions)
    (present : isAbsentVector (some query) = false)
    (known : ∀ p ∈ scores, ∃ vector, s.Holds backend.spec p.1 vector ∧ isAbsentVector (some vector) = false)
    (unique : (expanded.map fun c => c.fact.factId).Nodup)
    (scored : window.scores = some scores) (index : window.index = some idx)
    (unscored : scan.scores = none) :
    (∃ e, expandedEvidence env r s window query expanded = .error e ∧
      expandedEvidence env r s scan query expanded = .error e) ∨
    ∃ scores' vectors vectors' more more',
      expandedEvidence env r s window query expanded = .ok (some scores', vectors) ∧
      expandedEvidence env r s scan query expanded = .ok (none, vectors') ∧
      prepareRows env r q window.ftsIds (.scored scores') expanded vectors = .ok more ∧
      prepareRows env r q window.ftsIds (.compared query) expanded vectors' = .ok more' ∧
      more.map PreparedRow.bare = more'.map PreparedRow.bare ∧
      more.map PreparedRow.factId = expanded.map fun c => c.fact.factId := by
  have ids : (expanded.map Candidate.fact).map Fact.factId = expanded.map fun c => c.fact.factId := by
    rw [List.map_map]
    rfl
  have facts : Table.Unique Fact.factId (expanded.map Candidate.fact) := by
    rw [Table.Unique, ids]
    exact unique
  have listed {c : Candidate} (hc : c ∈ expanded) :
      c.fact.factId ∈ (expanded.map Candidate.fact).map Fact.factId :=
    List.mem_map_of_mem (List.mem_map_of_mem hc)
  have rows : r.embedder.embedRows s.toStore (expanded.map Candidate.fact) =
      loadDocuments s.toStore backend.spec ((expanded.map Candidate.fact).map Fact.factId) := by
    rw [indexed.embedder]
    rfl
  have vectored : ((expanded.map Candidate.fact).map Fact.factId).map (s.vectorOf backend.spec) =
      expanded.map fun c => s.vectorOf backend.spec c.fact.factId := by
    rw [List.map_map, List.map_map]
    rfl
  -- both paths with the vectors read
  have scanned (served : ∀ id ∈ (expanded.map Candidate.fact).map Fact.factId, s.Serves backend.spec id) :
      expandedEvidence env r s scan query expanded =
          .ok (none, expanded.map fun c => s.vectorOf backend.spec c.fact.factId) ∧
        prepareRows env r q window.ftsIds (.compared query) expanded
            (expanded.map fun c => s.vectorOf backend.spec c.fact.factId) =
          .ok (expanded.map fun c => preparedRow r q window.ftsIds c (s.vectorOf backend.spec c.fact.factId)
            (comparedEvidence env query (s.vectorOf backend.spec c.fact.factId))) := by
    refine ⟨?_, prepareTotal fun c hc => servedEvidence size present (served _ (listed hc))⟩
    unfold expandedEvidence
    rw [unscored]
    show (r.embedder.embedRows s.toStore (expanded.map Candidate.fact) >>= fun vectors => _) = _
    rw [rows, loadServed keys facts served, okBind, vectored]
    rw [(ensureOk (u := ())).mpr (by simp)]
    rfl
  have alike (vector : Candidate → Option (List Rat)) (dense : Candidate → Option Rat)
      (same : ∀ c ∈ expanded, dense c = comparedEvidence env query (s.vectorOf backend.spec c.fact.factId)) :
      (expanded.map fun c => preparedRow r q window.ftsIds c (vector c) (dense c)).map PreparedRow.bare =
        (expanded.map fun c => preparedRow r q window.ftsIds c (s.vectorOf backend.spec c.fact.factId)
          (comparedEvidence env query (s.vectorOf backend.spec c.fact.factId))).map PreparedRow.bare := by
    rw [List.map_map, List.map_map]
    refine List.map_congr_left fun c hc => ?_
    show (preparedRow r q window.ftsIds c (vector c) (dense c)).bare = _
    rw [same c hc]
    rfl
  cases answered : idx.scores env s.toVectorStore query ((expanded.map Candidate.fact).map Fact.factId) with
  | ok more =>
    have measured (id : Nat) (inside : id ∈ (expanded.map Candidate.fact).map Fact.factId) :=
      exact query _ more answered id inside
    obtain ⟨read, prepared⟩ := scanned fun id inside => by
      obtain ⟨vector, held, -⟩ := measured id inside
      exact .inl ⟨vector, held⟩
    refine .inr ⟨more ++ scores, [], _, expanded.map fun c =>
      preparedRow r q window.ftsIds c none ((more ++ scores).lookup c.fact.factId), _, ?_, read, ?_, prepared,
      alike (fun _ => none) _ fun c hc => ?_, ?_⟩
    · simp only [expandedEvidence, scored, index, answered]
    · rw [prepareUnvectored]
      exact prepareTotal fun c _ => rfl
    · obtain ⟨vector, held, absent, -, here⟩ := measured _ (listed hc)
      rw [List.lookup_append, here, held.vectorOf, comparedEvidence, absent]
      rfl
    · rw [List.map_map]
      rfl
  | error refused =>
    cases read : loadDocuments s.toStore backend.spec ((expanded.map Candidate.fact).map Fact.factId) with
    | error e =>
      refine .inl ⟨e, ?_, ?_⟩
      · simp only [expandedEvidence, scored, index, answered, rows, read]
        rfl
      · unfold expandedEvidence
        rw [unscored]
        show (r.embedder.embedRows s.toStore (expanded.map Candidate.fact) >>= fun vectors => _) = _
        rw [rows, read]
        rfl
    | ok vectors =>
      obtain ⟨whole, -, served⟩ := loadSource read
      obtain ⟨found, prepared⟩ := scanned served
      have paired : vectors = (expanded.map Candidate.fact).map fun f => s.vectorOf backend.spec f.factId := by
        rw [whole, List.map_map]
        rfl
      have fresh := comparedTotal env size present fun f (hf : f ∈ expanded.map Candidate.fact) =>
        served _ (List.mem_map_of_mem hf)
      refine .inr ⟨freshScores env s backend.spec query (expanded.map Candidate.fact) ++ scores, vectors, _, expanded.map fun c => preparedRow r q window.ftsIds c
        (s.vectorOf backend.spec c.fact.factId)
        ((freshScores env s backend.spec query (expanded.map Candidate.fact) ++ scores).lookup c.fact.factId),
        _, ?_, found, ?_, prepared, alike _ _ fun c hc => ?_, ?_⟩
      · simp only [expandedEvidence, scored, index, answered, rows, read, okBind]
        rw [(ensureOk (u := ())).mpr (by simp [whole]), okBind, paired, fresh]
        rfl
      · rw [whole, vectored]
        exact prepareTotal fun c _ => rfl
      · rw [List.lookup_append, freshScores, lookupFiltered facts (List.mem_map_of_mem hc), comparedEvidence]
        cases absent : isAbsentVector (s.vectorOf backend.spec c.fact.factId) with
        | false => rfl
        | true =>
          have unknown : scores.lookup c.fact.factId = none := by
            refine List.lookup_eq_none_iff.mpr fun pair hp => bne_iff_ne.mpr fun same => ?_
            obtain ⟨vector, held, stored⟩ := known pair hp
            rw [same, held.vectorOf, stored] at absent
            cases absent
          simp [unknown]
      · rw [List.map_map]
        rfl

theorem graphRowsAlike {prepared prepared' : List PreparedRow}
    (unique : Table.Unique PreparedRow.factId prepared) (alike : Alike prepared prepared') :
    graphRows env r s q prepared = graphRows env r s q prepared' := by
  have ids (rows : List SearchRow) : (rows.take 5).map SearchRow.factId =
      ((rows.map SearchRow.bare).take 5).map SearchRow.factId := by
    rw [← List.map_take, List.map_map]
    rfl
  unfold graphRows
  split
  · rw [ids, rankAlike unique alike, ← ids]
    exact expandSame _ fun id => (alikeIds alike).mem_iff
  · rfl

theorem entitiesAgree (keys : s.PrimaryKeys) (indexed : r.Indexed backend idx)
    (exact : idx.Exact env s backend.spec) (size : query.length = backend.spec.dimensions)
    (present : isAbsentVector (some query) = false)
    (known : ∀ p ∈ scores, ∃ vector, s.Holds backend.spec p.1 vector ∧ isAbsentVector (some vector) = false)
    (scored : window.scores = some scores) (index : window.index = some idx) (unscored : scan.scores = none)
    (lexical : scan.ftsIds = window.ftsIds) {prepared prepared' : List PreparedRow}
    (unique : Table.Unique PreparedRow.factId prepared) (alike : Alike prepared prepared') :
    (rankWithEntities env r s q window query prepared).map (List.map SearchRow.factId) =
      (rankWithEntities env r s q scan query prepared').map (List.map SearchRow.factId) := by
  obtain ⟨apart, distinct⟩ := graphRowsFair env r s q prepared
  unfold rankWithEntities
  dsimp only
  rw [← graphRowsAlike unique alike]
  generalize graphRows env r s q prepared = expanded at apart distinct
  split
  · exact congrArg Except.ok (settleAlike _ _ (rankAlike unique alike))
  · unfold rankExpanded
    rw [indexed.enabled, lexical]
    rcases expandedAgrees keys indexed exact size present known distinct scored index unscored (q := q) with
      ⟨e, refused, refused'⟩ | ⟨scores', vectors, vectors', more, more', read, read', built, built', same, ids⟩
    · rw [if_neg Bool.false_ne_true, if_neg Bool.false_ne_true, refused, refused']
      show Except.map _ (Except.error e) = Except.map _ (Except.error e)
      rfl
    · have scoredSource : r.denseSource (some scores') query = .scored scores' := by
        simp [denseSource, indexed.enabled]
      have comparedSource : r.denseSource none query = .compared query := by
        simp [denseSource, indexed.enabled]
      simp only [Bool.false_eq_true, if_false, read, read', okBind, scoredSource, comparedSource]
      rw [built, built']
      refine congrArg Except.ok (settleAlike _ _ (rankAlike ?_ ?_))
      · show ((prepared ++ more).map PreparedRow.factId).Nodup
        rw [List.map_append, ids]
        refine List.nodup_append.mpr ⟨unique, distinct, fun a ha b hb same => ?_⟩
        obtain ⟨c, hc, rfl⟩ := List.mem_map.mp hb
        exact (apart c hc).2 (same ▸ ha)
      · show ((prepared ++ more).map PreparedRow.bare).Perm ((prepared' ++ more').map PreparedRow.bare)
        rw [List.map_append, List.map_append, same]
        exact List.Perm.append_right _ alike

end Expanded

/-! ## The two searches -/

section Agreement
variable {query : List Rat} {scores : List (Nat × Rat)}

theorem keptEvidence (keys : s.PrimaryKeys) (indexed : r.Indexed backend idx)
    (exact : idx.Exact env s backend.spec) (covered : r.Covered env s q backend.spec)
    (scored : idx.scores env s.toVectorStore query ((r.keptEmbedded env s q idx).map Fact.factId) = .ok scores)
    (inside : f ∈ r.kept env s q) :
    scores.lookup f.factId = comparedEvidence env query (s.vectorOf backend.spec f.factId) := by
  rcases covered f inside with ⟨vector, held⟩ | ⟨-, none, -⟩
  · have embedded := heldEmbedded indexed (selectWithin inside) held
    have chosen : f ∈ r.keptEmbedded env s q idx :=
      selectInherited inside (fun g hg => ((embeddedMem indexed).mp hg).1) embedded
    obtain ⟨vector', held', stored, -, here⟩ := exact query _ scores scored _ (List.mem_map_of_mem chosen)
    rw [here, held'.vectorOf, comparedEvidence, stored]
    rfl
  · have unscored : scores.lookup f.factId = Option.none := by
      refine List.lookup_eq_none_iff.mpr fun pair hp => bne_iff_ne.mpr fun same => ?_
      obtain ⟨g, hg, id⟩ := List.mem_map.mp ((scoresSource scored).2.2 pair hp)
      obtain ⟨-, e, he, there, identity, -⟩ := (embeddedMem indexed).mp (selectWithin hg)
      have some := storedVectorIs keys he identity (there.trans (id.trans same.symm))
      rw [none] at some
      cases some
    simp [unscored, comparedEvidence, Store.vectorOf, none, isAbsentVector]

theorem scoredAgree (keys : s.PrimaryKeys) (indexed : r.Indexed backend idx)
    (exact : idx.Exact env s backend.spec) (covered : r.Covered env s q backend.spec)
    (small : (r.eligibleFacts s q).length ≤ r.candidateLimit)
    (some : r.keptEmbedded env s q idx ≠ []) (size : query.length = backend.spec.dimensions)
    (scored : idx.scores env s.toVectorStore query ((r.keptEmbedded env s q idx).map Fact.factId) = .ok scores)
    {window scan : DenseWindow} (windowScores : window.scores = .some scores) (index : window.index = .some idx)
    (dense : window.denseIds = (sortedBy (fun p : Nat × Rat => toLex (-p.2, p.1)) scores).map Prod.fst)
    (lexical : window.ftsIds = r.ftsRanked env s q) (scanScores : scan.scores = none) (scanIndex : scan.index = none)
    (scanDense : scan.denseIds = r.scanIds s q) (scanLexical : scan.ftsIds = r.ftsRanked env s q) :
    (rankCandidates env r s q window query (r.candidates env s q window)).map (List.map SearchRow.factId) =
      (rankCandidates env r s q scan query (r.candidates env s q scan)).map
        (List.map SearchRow.factId) := by
  have members (f : Fact) : f ∈ r.candidates env s q window ↔ f ∈ r.candidates env s q scan := by
    rw [indexCandidates keys indexed exact scored covered dense lexical,
      scanCandidates keys.facts small scanDense]
  have kept (f : Fact) (hf : f ∈ r.candidates env s q scan) : f ∈ r.kept env s q :=
    (scanCandidates keys.facts small scanDense).mp hf
  have unique := candidatesUnique env r s q window
  have unique' := candidatesUnique env r s q scan
  have perm : (r.candidates env s q window).Perm (r.candidates env s q scan) :=
    (List.perm_ext_iff_of_nodup (List.Nodup.of_map _ unique) (List.Nodup.of_map _ unique')).mpr members
  generalize r.candidates env s q window = facts at members unique perm
  generalize r.candidates env s q scan = facts' at members kept unique' perm
  have known (p : Nat × Rat) (hp : p ∈ scores) : ∃ vector, s.Holds backend.spec p.1 vector ∧
      isAbsentVector (.some vector) = false := by
    obtain ⟨vector, held, stored, -⟩ := exact query _ scores scored _ ((scoresSource scored).2.2 p hp)
    exact ⟨vector, held, stored⟩
  have present : isAbsentVector (.some query) = false := by
    obtain ⟨g, hg⟩ := List.exists_mem_of_ne_nil _ some
    obtain ⟨_, -, -, nonzero, -⟩ := exact query _ scores scored _ (List.mem_map_of_mem hg)
    exact nonzero
  have served (f : Fact) (hf : f ∈ facts') : s.Serves backend.spec f.factId := covered.serves (kept f hf)
  have direct : candidateEvidence env r s scan query facts' =
      .ok (scan, facts'.map fun f => s.vectorOf backend.spec f.factId) := by
    have read : r.embedder.embedRows s.toStore facts' =
        .ok (facts'.map fun f => s.vectorOf backend.spec f.factId) := by
      rw [indexed.embedder]
      show loadDocuments s.toStore backend.spec (facts'.map Fact.factId) = _
      rw [loadServed keys unique' fun id hid => by
        obtain ⟨f, hf, rfl⟩ := List.mem_map.mp hid
        exact served f hf, List.map_map]
      rfl
    simp only [candidateEvidence, indexed.enabled, scanScores, scanIndex, read, okBind]
    rw [(ensureOk (u := ())).mpr (by simp)]
    rfl
  have given : candidateEvidence env r s window query facts = .ok (window, []) := by
    simp [candidateEvidence, indexed.enabled, windowScores]
  have prepared : prepareRows env r q window.ftsIds (r.denseSource window.scores query)
      (facts.map fun f => ⟨f, none, 0⟩) [] = .ok ((facts.map fun f => (⟨f, none, 0⟩ : Candidate)).map fun c =>
        preparedRow r q window.ftsIds c none (scores.lookup c.fact.factId)) := by
    have source : r.denseSource window.scores query = .scored scores := by
      simp [denseSource, indexed.enabled, windowScores]
    rw [source, prepareUnvectored]
    exact prepareTotal fun c _ => rfl
  have prepared' : prepareRows env r q scan.ftsIds (r.denseSource scan.scores query)
      (facts'.map fun f => ⟨f, none, 0⟩) (facts'.map fun f => s.vectorOf backend.spec f.factId) =
      .ok ((facts'.map fun f => (⟨f, none, 0⟩ : Candidate)).map fun c =>
        preparedRow r q scan.ftsIds c (s.vectorOf backend.spec c.fact.factId)
          (comparedEvidence env query (s.vectorOf backend.spec c.fact.factId))) := by
    have source : r.denseSource scan.scores query = .compared query := by
      simp [denseSource, indexed.enabled, scanScores]
    have vectors : (facts'.map fun f => s.vectorOf backend.spec f.factId) =
        (facts'.map fun f => (⟨f, none, 0⟩ : Candidate)).map fun c =>
          s.vectorOf backend.spec c.fact.factId := by
      rw [List.map_map]
      rfl
    rw [source, vectors]
    refine prepareTotal fun c hc => ?_
    obtain ⟨f, hf, rfl⟩ := List.mem_map.mp hc
    exact servedEvidence size present (served f hf)
  unfold rankCandidates
  rw [given, direct, okBind, okBind]
  dsimp only
  rw [prepared, prepared', okBind, okBind]
  refine entitiesAgree keys indexed exact size present known windowScores index scanScores
    (scanLexical.trans lexical.symm) ?_ ?_
  · show (((facts.map fun f => (⟨f, none, 0⟩ : Candidate)).map fun c =>
      preparedRow r q window.ftsIds c none (scores.lookup c.fact.factId)).map PreparedRow.factId).Nodup
    rw [List.map_map, List.map_map]
    exact unique
  · unfold Alike
    rw [List.map_map, List.map_map, List.map_map, List.map_map, lexical, scanLexical]
    have same (f) (hf : f ∈ facts') : scores.lookup f.factId =
        comparedEvidence env query (s.vectorOf backend.spec f.factId) :=
      keptEvidence keys indexed exact covered scored (kept f hf)
    refine (perm.map _).trans (List.Perm.of_eq (List.map_congr_left fun f hf => ?_))
    show (preparedRow r q (r.ftsRanked env s q) ⟨f, none, 0⟩ none (scores.lookup f.factId)).bare = _
    rw [same f hf]
    rfl

theorem unseenRanked (keys : s.PrimaryKeys) (indexed : r.Indexed backend idx)
    (exact : idx.Exact env s backend.spec) (small : (r.eligibleFacts s q).length ≤ r.candidateLimit)
    (none : r.keptEmbedded env s q idx = []) (some : r.candidates env s q (scanWindow env r s q) ≠ []) :
    rankCandidates env r s q { scanWindow env r s q with index := .some idx } query
        (r.candidates env s q (scanWindow env r s q)) =
      rankCandidates env r s q (scanWindow env r s q) query (r.candidates env s q (scanWindow env r s q)) := by
  obtain ⟨f, hf⟩ := List.exists_mem_of_ne_nil _ some
  have kept : f ∈ r.kept env s q := (scanCandidates keys.facts small rfl).mp hf
  generalize r.candidates env s q (scanWindow env r s q) = facts at hf
  have given : candidateEvidence env r s { scanWindow env r s q with index := .some idx } query facts =
      candidateEvidence env r s (scanWindow env r s q) query facts := by
    unfold candidateEvidence
    dsimp only
    rw [indexed.enabled]
    cases answered : idx.scores env s.toVectorStore query (facts.map Fact.factId) with
    | error _ =>
      simp only [scanWindow, answered]
      rfl
    | ok scores =>
      obtain ⟨_, held, -⟩ := exact query _ scores answered _ (List.mem_map_of_mem hf)
      have embedded := heldEmbedded indexed (selectWithin kept) held
      have chosen : f ∈ r.keptEmbedded env s q idx :=
        selectInherited kept (fun g hg => ((embeddedMem indexed).mp hg).1) embedded
      rw [none] at chosen
      cases chosen
  unfold rankCandidates
  rw [given]

end Agreement

end Retriever

namespace HybridRetriever

open Retriever

variable {r : HybridRetriever} {backend : StoredBackend} {idx : SQLiteVecIndex}

theorem bruteWindow (enabled : r.denseDisabled = false)
    (small : (r.eligibleFacts s q).length ≤ r.candidateLimit) :
    r.brute.denseWindow env s q = .ok (none, r.scanWindow env s q) := by
  have whole : r.brute.ftsIds env s q = r.ftsRanked env s q := ftsAll small
  unfold denseWindow
  dsimp only
  rw [whole]
  exact if_neg (by simp [brute, enabled])

theorem indexWindow (index : r.vectorIndex = some idx) (enabled : r.denseDisabled = false) :
    r.denseWindow env s q =
      if (r.keptEmbedded env s q idx).map Fact.factId = [] then
        .ok (none, { r.scanWindow env s q with index := some idx })
      else r.embedder.embedQuery q.query >>= fun query =>
        match idx.scores env s.toVectorStore query ((r.keptEmbedded env s q idx).map Fact.factId) with
        | .ok scores => .ok (some query, ⟨some scores,
            (sortedBy (fun p : Nat × Rat => toLex (-p.2, p.1)) scores).map Prod.fst, r.ftsRanked env s q, some idx⟩)
        | .error _ => .ok (some query,
            ⟨none, r.scanIds s q, (r.ftsRanked env s q).take r.candidateLimit, none⟩) := by
  have unlimited : r.ftsIds env s q = r.ftsRanked env s q := by
    rw [ftsIds, index]
    rfl
  unfold denseWindow
  dsimp only
  rw [enabled, index, unlimited]
  rfl

theorem searchAgrees (keys : s.PrimaryKeys) (index : r.vectorIndex = some idx)
    (indexed : r.Indexed backend idx) (exact : idx.Exact env s backend.spec)
    (small : (r.eligibleFacts s q).length ≤ r.candidateLimit)
    (covered : r.Scans env s q idx ∨ r.Covered env s q backend.spec) :
    (searchQuery env r s q).map (List.map SearchRow.factId) =
      (searchQuery env r.brute s q).map (List.map SearchRow.factId) := by
  have settings : r.brute.toRetriever = r.toRetriever := rfl
  unfold searchQuery
  rw [bruteWindow indexed.enabled small, indexWindow index indexed.enabled, settings, okBind]
  by_cases unseen : r.keptEmbedded env s q idx = []
  · rw [if_pos (by rw [unseen]; rfl), okBind]
    have same : r.candidates env s q { r.scanWindow env s q with index := some idx } =
        r.candidates env s q (r.scanWindow env s q) := rfl
    dsimp only
    rw [same, indexed.enabled]
    by_cases empty : r.candidates env s q (r.scanWindow env s q) = []
    · rw [if_pos empty, if_pos empty]
    · rw [if_neg empty, if_neg empty]
      cases r.embedder.embedQuery q.query with
      | error e => rfl
      | ok query => exact congrArg _ (unseenRanked keys indexed exact small unseen empty)
  · have keptSome : r.candidates env s q (r.scanWindow env s q) ≠ [] := by
      obtain ⟨f, hf⟩ := List.exists_mem_of_ne_nil _
        (selectSome unseen fun g hg => ((embeddedMem indexed).mp hg).1)
      exact List.ne_nil_of_mem ((scanCandidates keys.facts small rfl).mpr hf)
    rw [if_neg (by rw [List.map_eq_nil_iff]; exact unseen)]
    dsimp only
    rw [if_neg keptSome, indexed.enabled]
    cases embedded : r.embedder.embedQuery q.query with
    | error e => rfl
    | ok query =>
      have size : query.length = backend.spec.dimensions := by
        rw [indexed.embedder] at embedded
        simp only [Embedder.embedQuery] at embedded
        split at embedded
        · cases embedded
        · obtain ⟨_, sized, embedded⟩ := bindOk.mp embedded
          cases embedded
          exact of_decide_eq_true (ensureOk.mp sized)
      simp only [okBind]
      cases answered : idx.scores env s.toVectorStore query ((r.keptEmbedded env s q idx).map Fact.factId) with
      | error e =>
        rw [ftsAll small]
        show (if r.candidates env s q (r.scanWindow env s q) = [] then _ else _ :
          Except Raised (List SearchRow)).map _ = _
        rw [if_neg keptSome]
        rfl
      | ok scores =>
        have covered := covered.resolve_left fun scans => by
          obtain ⟨e, raised⟩ := scans.resolve_left unseen query embedded
          rw [raised] at answered
          cases answered
        show (if r.candidates env s q _ = [] then _ else _ : Except Raised (List SearchRow)).map _ = _
        have members (f : Fact) : f ∈ r.candidates env s q ⟨some scores, (sortedBy (fun p : Nat × Rat =>
            toLex (-p.2, p.1)) scores).map Prod.fst, r.ftsRanked env s q, some idx⟩ ↔ f ∈ r.kept env s q :=
          indexCandidates keys indexed exact answered covered rfl rfl
        obtain ⟨f, hf⟩ := List.exists_mem_of_ne_nil _ keptSome
        rw [if_neg (List.ne_nil_of_mem ((members f).mpr ((scanCandidates keys.facts small rfl).mp hf)))]
        exact scoredAgree keys indexed exact covered small unseen size answered rfl rfl rfl rfl rfl rfl rfl rfl

/-- Where nothing is asked, the index answers nothing, or it can be asked about every fact the scan keeps, both
retrievers answer with the same facts in the same order. -/
theorem indexedRecallAgrees {loaded : Bool} {scopes : List String} {limit : Nat} {choice : VectorBackend}
    {ranking : RankingConfig} {now : Int} {expansion : Bool} {b : HybridRetriever} (keys : s.PrimaryKeys)
    (built : build loaded s.toVectorStore (.stored backend) scopes limit choice ranking now expansion = .ok r)
    (scan : build loaded s.toVectorStore (.stored backend) scopes limit .brute ranking now expansion = .ok b)
    (small : (s.facts.filter (Fact.eligible scopes q)).length ≤ limit)
    (exact : ∀ idx, r.vectorIndex = some idx → idx.Exact env s backend.spec)
    (covered : Text.strip q.query = "" ∨ q.limit = 0 ∨ ∀ idx, r.vectorIndex = some idx →
      r.Scans env s q.stripped idx ∨ r.Covered env s q.stripped backend.spec) :
    (r.search env s q).map (List.map SearchRow.factId) = (b.search env s q).map (List.map SearchRow.factId) := by
  obtain ⟨made, opened⟩ := buildSource built
  rw [buildBrute built scan]
  cases index : r.vectorIndex with
  | none =>
    have same : r.brute = r := by
      rw [brute, ← index]
    rw [same]
  | some idx =>
    have fits : (r.eligibleFacts s q.stripped).length ≤ r.candidateLimit := by
      rw [made]
      exact small
    unfold search
    split
    · rfl
    · rename_i asked
      obtain ⟨worded, some⟩ := not_or.mp asked
      exact searchAgrees keys index (opened idx index).2 (exact idx index) fits
        ((covered.resolve_left worded).resolve_left some idx index)

theorem exactIndex {idx : SQLiteVecIndex}
    (measured : ∀ v w, env.vecDistance v w =
      if isAbsentVector (some v) || isAbsentVector (some w) then none else some (1 - env.similarity w v))
    (canonical : ∀ table, s.table idx.tableName = some table →
      Table.Unique VecRow.rowid table.rows ∧ ∀ row ∈ table.rows, s.Holds spec row.rowid row.embedding) :
    idx.Exact env s spec := by
  intro query factIds scores scored id inside
  obtain ⟨-, distinct, within⟩ := scoresSource scored
  unfold SQLiteVecIndex.scores at scored
  obtain ⟨_, -, scored⟩ := bindOk.mp scored
  obtain ⟨_, -, scored⟩ := bindOk.mp scored
  rw [if_neg (List.ne_nil_of_mem inside)] at scored
  obtain ⟨table, opened, scored⟩ := bindOk.mp scored
  obtain ⟨built, each, scored⟩ := bindOk.mp scored
  obtain ⟨_, count, scored⟩ := bindOk.mp scored
  cases scored
  have stored : s.table idx.tableName = some table := by
    unfold SQLiteVecIndex.rowsOf at opened
    split at opened
    · cases opened
    · cases opened
      assumption
  obtain ⟨unique, held⟩ := canonical table stored
  have found {row : VecRow} {p : Nat × Rat} (here : scoreRow env query row = .ok p) :
      (isAbsentVector (some row.embedding) || isAbsentVector (some query)) = false ∧
        p = (row.rowid, max 0 (env.similarity query row.embedding)) := by
    rw [scoreRow, measured] at here
    split at here
    · cases here
    · rename_i distance given
      split at given
      · cases given
      · rename_i present
        cases given
        cases here
        exact ⟨by simpa using present, by rw [sub_sub_cancel]⟩
  have keys := mapMView (fun row p here => (congrArg Prod.fst (found here).2 : p.1 = row.rowid)) each
  have keysUnique : (scores.map Prod.fst).Nodup := by
    rw [keys]
    exact unique.sublist (List.filter_sublist.map _)
  have every : ∀ id ∈ factIds, id ∈ scores.map Prod.fst := by
    have part : (scores.map Prod.fst).Subperm factIds := List.subperm_of_subset keysUnique fun id hid => by
      obtain ⟨p, hp, rfl⟩ := List.mem_map.mp hid
      exact within p hp
    have whole := part.perm_of_length_le (by
      rw [List.length_map, of_decide_eq_true (ensureOk.mp count)])
    exact fun id hid => whole.mem_iff.mpr hid
  obtain ⟨p, hp, rfl⟩ := List.mem_map.mp (every id inside)
  obtain ⟨row, hr, here⟩ := mapMSource each p hp
  obtain ⟨present, rfl⟩ := found here
  obtain ⟨vector, query⟩ := Bool.or_eq_false_iff.mp present
  exact ⟨row.embedding, held row (List.mem_of_mem_filter hr), vector, query, lookupUnique keysUnique hp⟩

end HybridRetriever

namespace Example

def vectorSpec : EmbeddingSpec := ⟨"m:document:none:v1", "v1", 1⟩

-- as the libraries answer on the arguments these searches pass
def recalling : RecallRuntime where
  toRuntime := .plain
  ftsTokens := Text.normTokenSequence
  log := fun x => x - 1
  decay := fun _ _ => 1
  similarity := fun v w => if v = w then 1 else 0
  vecDistance := fun v w =>
    if isAbsentVector (some v) || isAbsentVector (some w) then none else some (1 - if w = v then 1 else 0)

def recalled (factId : Nat) (content : String) : Fact where
  factId := factId
  content := content
  category := "general"
  tags := ""
  trustScore := 1 / 2
  retrievalCount := 0
  helpfulCount := 0
  createdAt := "2026-01-05"
  validFrom := none
  validTo := none
  invalidAt := none
  expiredAt := none
  supersededBy := none
  memoryKind := none
  subjectKey := none
  predicateKey := none
  objectValue := none
  confidence := none
  sourceAuthority := none
  scope := "private"
  sensitivity := "normal"
  correctionStatus := some "human_confirmed"
  conflictGroup := none

def unembedded (factId : Nat) (content : String) : EmbeddingJob where
  jobId := 1
  factId := factId
  documentIdentity := vectorSpec.documentIdentity
  embeddingVersion := vectorSpec.embeddingVersion
  dimensions := vectorSpec.dimensions
  contentSha256 := content
  status := .pending
  attempts := 0
  availableAt := "2026-01-05"
  leaseToken := none
  leaseOwner := none
  leaseExpiresAt := none
  lastError := none
  createdAt := "2026-01-05"
  updatedAt := "2026-01-05"
  completedAt := none

def halfEmbedded (second : String) : RecallStore where
  toStore := { Store.empty with
    facts := [recalled 1 "Lima drinks tea", recalled 2 second]
    embeddings := [⟨1, [1], 1, vectorSpec.documentIdentity⟩]
    jobs := [unembedded 2 second] }
  table := fun name => if name = .a then some ⟨1, [⟨1, [1]⟩]⟩ else none
  activeTable := some .a
  indexIdentity := some vectorSpec.documentIdentity
  indexDimensions := some 1
  sourceGeneration := some 1
  indexGeneration := some 1
  triggers := true
  entities := []
  factEntities := []
  updatedAt := fun _ => some "2026-01-05"

def opening (second : String) (choice : VectorBackend) : Except Raised HybridRetriever :=
  HybridRetriever.build true (halfEmbedded second).toVectorStore
    (.stored ⟨vectorSpec, "", fun _ => some [1]⟩) ["private"] 64 choice {}
    (civilDays 2026 1 5 * 86400000000) true

def askedTea : Recall := ⟨"tea", none, 0, 10, false⟩

def answeredIds (second : String) (choice : VectorBackend) : Option (List Nat) :=
  (opening second choice >>= fun r =>
    (r.search recalling (halfEmbedded second) askedTea).map (List.map SearchRow.factId)).toOption

theorem halfEmbeddedKeys (second : String) : (halfEmbedded second).PrimaryKeys :=
  ⟨by simp [Table.Unique, halfEmbedded, recalled], by simp [Table.Unique, halfEmbedded]⟩

theorem halfEmbeddedExact (second : String) (idx : SQLiteVecIndex) :
    idx.Exact recalling (halfEmbedded second) vectorSpec := by
  refine HybridRetriever.exactIndex (fun v w => rfl) fun table here => ?_
  have only : table = ⟨1, [⟨1, [1]⟩]⟩ := by
    simp only [halfEmbedded] at here
    split at here
    · exact (Option.some.inj here).symm
    · cases here
  subst only
  refine ⟨List.nodup_singleton _, fun row hr => ?_⟩
  rw [List.mem_singleton] at hr
  subst hr
  exact ⟨⟨1, [1], 1, vectorSpec.documentIdentity⟩, by simp [Store.storedVector, halfEmbedded], rfl, rfl, rfl⟩

/-- "Oslo is home" has no vector and no word of the query: the scan ranks it all the same, by what is
known of it apart from the query, and the index never sees it. -/
theorem queuedUnseen : ∃ r b, opening "Oslo is home" .sqliteVec = .ok r ∧ opening "Oslo is home" .brute = .ok b ∧
    (halfEmbedded "Oslo is home").PrimaryKeys ∧
    ((halfEmbedded "Oslo is home").facts.filter (Fact.eligible ["private"] askedTea)).length ≤ 64 ∧
    (∀ idx, r.vectorIndex = some idx → idx.Exact recalling (halfEmbedded "Oslo is home") vectorSpec) ∧
    (r.search recalling (halfEmbedded "Oslo is home") askedTea).map (List.map SearchRow.factId) ≠
      (b.search recalling (halfEmbedded "Oslo is home") askedTea).map (List.map SearchRow.factId) := by
  have byIndex : answeredIds "Oslo is home" .sqliteVec = some [1] := by decide +kernel
  have byScan : answeredIds "Oslo is home" .brute = some [1, 2] := by decide +kernel
  unfold answeredIds at byIndex byScan
  cases index : opening "Oslo is home" .sqliteVec with
  | error e =>
    rw [index] at byIndex
    cases byIndex
  | ok r =>
    cases scan : opening "Oslo is home" .brute with
    | error e =>
      rw [scan] at byScan
      cases byScan
    | ok b =>
      rw [index, okBind] at byIndex
      rw [scan, okBind] at byScan
      refine ⟨r, b, rfl, rfl, halfEmbeddedKeys _, by decide +kernel, fun idx _ => halfEmbeddedExact _ idx, ?_⟩
      intro same
      rw [same, byScan] at byIndex
      cases byIndex

/-- The second fact has no vector either, but it has the word. -/
theorem queuedFound : ∃ r b, opening "Oslo drinks tea" .sqliteVec = .ok r ∧
    opening "Oslo drinks tea" .brute = .ok b ∧
    (r.search recalling (halfEmbedded "Oslo drinks tea") askedTea).map (List.map SearchRow.factId) =
      (b.search recalling (halfEmbedded "Oslo drinks tea") askedTea).map (List.map SearchRow.factId) := by
  obtain ⟨r, index⟩ := Option.isSome_iff_exists.mp
    (by decide +kernel : (opening "Oslo drinks tea" .sqliteVec).toOption.isSome)
  obtain ⟨b, scan⟩ := Option.isSome_iff_exists.mp
    (by decide +kernel : (opening "Oslo drinks tea" .brute).toOption.isSome)
  refine ⟨r, b, okOfOption index, okOfOption scan, ?_⟩
  refine HybridRetriever.indexedRecallAgrees (halfEmbeddedKeys _) (okOfOption index) (okOfOption scan)
    (by decide +kernel) (fun idx _ => halfEmbeddedExact _ idx) (.inr (.inr fun idx _ => .inr fun f hf => ?_))
  have stored : f ∈ (halfEmbedded "Oslo drinks tea").facts := List.mem_of_mem_filter (selectWithin hf)
  rcases List.mem_cons.mp stored with rfl | more
  · exact .inl ⟨[1], ⟨1, [1], 1, vectorSpec.documentIdentity⟩, by decide +kernel, rfl, rfl, rfl⟩
  · rw [List.mem_singleton.mp more]
    exact .inr ⟨by decide +kernel, by decide +kernel, by decide +kernel⟩

end Example
end Enfold
