import Mathlib.Algebra.Order.Ring.Rat
import Mathlib.Algebra.BigOperators.Group.List.Basic
import Mathlib.Data.Prod.Lex
import Mathlib.Order.Lattice
import Enfold.Foundation.KeyOrder
import Enfold.RetrievalText
import Enfold.Service
import Enfold.SlotVocabulary
import Enfold.VectorIndex

/-! The hybrid retriever over the facts a caller may read: lexical and dense candidates, the named
anchors every result must answer to, the fused ranking, and the facts two entity hops away. Scores are
rationals; what rounding or a transcendental function decides is a parameter. -/
namespace Enfold

open Fallible KeyOrder

/-- What a search takes from SQLite's extensions and from the math library. -/
structure RecallRuntime extends Runtime where
  /-- The tokens of one column in the full-text index. -/
  ftsTokens : String → List String
  log : Rat → Rat
  /-- `exp(-log(2) * age / half_life)`. -/
  decay : Rat → Rat → Rat
  /-- The cosine of two vectors of one size, neither of them zero. -/
  similarity : List Rat → List Rat → Rat
  /-- `vec_distance_cosine`; `none` is its NULL. -/
  vecDistance : List Rat → List Rat → Option Rat

/-- A store with what only its readers use: the entity tables, and the column `updated_at`. -/
structure RecallStore extends VectorStore, EntityStore where
  updatedAt : Nat → Option String

/-! ## Ranking configuration -/

structure RankingConfig where
  ftsWeight : Rat := 35 / 100
  jaccardWeight : Rat := 25 / 100
  denseWeight : Rat := 40 / 100
  ftsQueryCoverageWeight : Rat := 75 / 100
  trustWeight : Rat := 5 / 100
  memoryKindWeight : Rat := 2 / 100
  recencyWeight : Rat := 3 / 100
  reviewWeight : Rat := 8 / 100
  namedSubjectWeight : Rat := 6 / 100
  recencyHalfLifeDays : Rat := 365
  stateKindScore : Rat := 1
  insightKindScore : Rat := 75 / 100
  untypedKindScore : Rat := 50 / 100
  eventKindScore : Rat := 25 / 100
  scoreFloor : Rat := 12 / 100
  ambiguityMargin : Rat := 5 / 1000
  deriving DecidableEq, Repr

-- `math.isclose`
def isclose (a b : Rat) : Bool := abs (a - b) ≤ max (abs a) (abs b) / 1000000000

namespace RankingConfig

variable (config : RankingConfig)

def relevance : List Rat := [config.ftsWeight, config.jaccardWeight, config.denseWeight]

def priors : List Rat :=
  [config.trustWeight, config.memoryKindWeight, config.recencyWeight, config.reviewWeight,
    config.namedSubjectWeight]

def kindScores : List Rat :=
  [config.stateKindScore, config.insightKindScore, config.untypedKindScore, config.eventKindScore]

def postInit : Except Raised Unit := do
  ensure ((config.relevance ++ config.priors).all (0 ≤ ·))
    ⟨.valueError, "ranking weights must be non-negative"⟩
  ensure (isclose config.relevance.sum 1) ⟨.valueError, "relevance weights must sum to 1"⟩
  ensure (0 ≤ config.ftsQueryCoverageWeight && config.ftsQueryCoverageWeight ≤ 1)
    ⟨.valueError, "FTS query-coverage weight must be between 0 and 1"⟩
  ensure (config.priors.sum < 1) ⟨.valueError, "ranking prior weights must sum to less than 1"⟩
  ensure (config.kindScores.all fun score => 0 ≤ score && score ≤ 1)
    ⟨.valueError, "memory kind scores must be between 0 and 1"⟩
  ensure (0 < config.recencyHalfLifeDays) ⟨.valueError, "recency half-life must be positive"⟩
  ensure ([config.scoreFloor, config.ambiguityMargin].all fun gate => 0 ≤ gate && gate ≤ 1)
    ⟨.valueError, "ranking confidence gates must be finite and between 0 and 1"⟩

def relevanceWeight : Rat := 1 - config.priors.sum

end RankingConfig

/-! ## Embedders -/

/-- `SQLiteVersionedEmbeddingBackend` with its query embedder. -/
structure StoredBackend where
  spec : EmbeddingSpec
  queryPrefix : String
  embed : String → Option (List Rat)

inductive Embedder where
  /-- `DisabledDenseEmbedder`. -/
  | disabled
  /-- A `DenseEmbedder` that embeds texts on the spot. -/
  | texts (embedQuery : String → Except Raised (List Rat))
      (embedDocuments : List String → Except Raised (List (List Rat)))
  /-- `VersionedStoredEmbeddingAdapter`. -/
  | stored (backend : StoredBackend)

/-- `_is_absent_vector`: a zero vector is missing coverage. -/
def isAbsentVector : Option (List Rat) → Bool
  | none => true
  | some vector => vector.all (· = 0)

/-- `_cosine`. -/
def cosine (env : RecallRuntime) (left right : List Rat) : Except Raised Rat := do
  ensure (left.length = right.length) ⟨.valueError, "query and document embedding dimensions differ"⟩
  if left.all (· = 0) || right.all (· = 0) then .ok 0 else .ok (env.similarity left right)

def Store.queuedFor (s : Store) (spec : EmbeddingSpec) (factId : Nat) : Bool :=
  s.jobs.any fun row => row.isFor spec && row.factId = factId &&
    (row.status = .pending || row.status = .processing)

def Store.storedVector (s : Store) (spec : EmbeddingSpec) (factId : Nat) : Option Embedding :=
  s.embeddings.find? fun e => e.embeddingIdentity = spec.documentIdentity && e.factId = factId

/-- `SQLiteVersionedEmbeddingBackend.load_documents`. -/
def loadDocuments (s : Store) (spec : EmbeddingSpec) (factIds : List Nat) :
    Except Raised (List (Option (List Rat))) := do
  ensure factIds.Nodup ⟨.storedEmbeddingError, "candidate fact ids must be unique"⟩
  let rows := s.embeddings.filter fun e =>
    e.embeddingIdentity = spec.documentIdentity && factIds.contains e.factId
  let _ ← rows.mapM fun e => do
    ensure (e.dim = spec.dimensions)
      ⟨.storedEmbeddingError, s!"stored embedding dimension mismatch for candidate fact {e.factId}"⟩
    ensure (e.embedding.length = spec.dimensions)
      ⟨.storedEmbeddingError, s!"stored embedding byte length mismatch for candidate fact {e.factId}"⟩
  let missing := factIds.filter fun factId => (s.storedVector spec factId).isNone
  let uncovered := missing.filter fun factId => !s.queuedFor spec factId
  let preview := ", ".intercalate ((uncovered.take 10).map toString)
  let suffix := if 10 < uncovered.length then "..." else ""
  ensure (uncovered = []) ⟨.storedEmbeddingError,
    s!"missing {uncovered.length} required stored candidate embedding(s) " ++
      s!"without a viable exact-identity job: {preview}{suffix}"⟩
  .ok (factIds.map fun factId => (s.storedVector spec factId).map Embedding.embedding)

namespace Embedder

def embedQuery (text : String) : Embedder → Except Raised (List Rat)
  | .disabled => .error ⟨.runtimeError, "local-lexical retrieval disables dense scoring"⟩
  | .texts embedQuery _ => embedQuery text
  | .stored backend => match backend.embed (backend.queryPrefix ++ text) with
    | none => .error ⟨.storedEmbeddingError, "production query embedding is unavailable"⟩
    | some vector => do
      ensure (vector.length = backend.spec.dimensions)
        ⟨.valueError, "query embedding dimensions do not match backend metadata"⟩
      .ok vector

/-- `embed_candidates` where the embedder has it, else `embed_documents` on the contents. -/
def embedRows (s : Store) (rows : List Fact) : Embedder → Except Raised (List (Option (List Rat)))
  | .disabled => .error ⟨.runtimeError, "local-lexical retrieval disables dense scoring"⟩
  | .texts _ embedDocuments => do .ok ((← embedDocuments (rows.map Fact.content)).map some)
  | .stored backend => loadDocuments s backend.spec (rows.map Fact.factId)

end Embedder

def scoreRow (env : RecallRuntime) (query : List Rat) (row : VecRow) : Except Raised (Nat × Rat) :=
  match env.vecDistance row.embedding query with
  | none => .error ⟨.runtimeError, "vec0 returned an invalid cosine distance"⟩
  | some distance => .ok (row.rowid, max 0 (1 - distance))

/-- `SQLiteVecIndex.scores`: exact cosine similarities for only the authorized fact ids. -/
def SQLiteVecIndex.scores (env : RecallRuntime) (s : VectorStore) (idx : SQLiteVecIndex)
    (query : List Rat) (factIds : List Nat) : Except Raised (List (Nat × Rat)) := do
  ensure (query.length = idx.dimensions)
    ⟨.runtimeError, "query vector does not match vec0 index dimensions"⟩
  ensure factIds.Nodup ⟨.runtimeError, "candidate fact ids must be unique"⟩
  if factIds = [] then .ok []
  else do
    let table ← idx.rowsOf s
    let scores ← (table.rows.filter fun row => factIds.contains row.rowid).mapM (scoreRow env query)
    ensure (scores.length = factIds.length)
      ⟨.runtimeError, "vec0 query did not return every authorized candidate"⟩
    .ok scores

/-! ## Lexical ranking -/

def Fact.document (f : Fact) : Document := ⟨f.factId, f.content, f.tags⟩

section Lexical
variable (env : RecallRuntime) (documents : List Document)

def documentTerms (d : Document) : List String := env.ftsTokens d.content ++ env.ftsTokens d.tags

def inverseFrequency (term : String) : Rat :=
  let held := documents.countP fun d => (documentTerms env d).contains term
  let value := env.log ((documents.length - held + 1 / 2) / (held + 1 / 2))
  if value ≤ 0 then 1 / 1000000 else value

def averageLength : Rat :=
  ((documents.map fun d => (documentTerms env d).length).sum : Rat) / documents.length

def termScore (d : Document) (term : String) : Rat :=
  let frequency : Rat := (documentTerms env d).count term
  let length : Rat := (documentTerms env d).length / averageLength env documents
  inverseFrequency env documents term *
    (frequency * (11 / 5) / (frequency + 6 / 5 * (1 / 4 + 3 / 4 * length)))

/-- FTS5's `bm25`, lower for a better match; its statistics are over every indexed row. -/
def bm25 (terms : List String) (d : Document) : Rat := -(terms.map (termScore env documents d)).sum

def matchesAny (terms : List String) (d : Document) : Bool :=
  terms.any fun term => (documentTerms env d).contains term

end Lexical

/-! ## One search -/

/-- The arguments of `HybridRetriever.search`. -/
structure Recall where
  query : String
  category : Option String
  minTrust : Rat
  limit : Nat
  includeUnreviewed : Bool
  deriving DecidableEq, Repr

def Recall.stripped (q : Recall) : Recall := { q with query := Text.strip q.query }

/-- The conjuncts every query of one search repeats. -/
def Fact.eligible (scopes : List String) (q : Recall) (f : Fact) : Bool :=
  f.active && f.visibleIn scopes && q.category.all (fun category => f.category = category) &&
    q.minTrust ≤ f.trustScore && (q.includeUnreviewed || f.correctionStatus ≠ some "unreviewed")

def Fact.anchorText (f : Fact) : String := f.content ++ " " ++ f.tags

/-- `_as_utc`. -/
def asUtc (rt : Runtime) (value : Option String) : Option Int := do
  let text ← value
  let spelled := (Text.stripWith Text.isSpace text.toList).flatMap fun c =>
    if c = 'Z' then "+00:00".toList else [c]
  (rt.fromisoformat (String.ofList spelled)).map Datetime.instant

def recencyScore (env : RecallRuntime) (updatedAt : Option String) (now : Int) (halfLifeDays : Rat)
    (f : Fact) : Rat :=
  let aged (timestamp : Int) : Rat :=
    env.decay (max 0 ((now - timestamp : Int) / 86400000000)) halfLifeDays
  if f.isState then (asUtc env.toRuntime f.validFrom).elim 1 aged
  else (asUtc env.toRuntime updatedAt <|> asUtc env.toRuntime (some f.createdAt)).elim 0 aged

def memoryKindScore (config : RankingConfig) : Option MemoryKind → Rat
  | some .state => config.stateKindScore
  | some .event => config.eventKindScore
  | _ => config.untypedKindScore

def reviewScore (status : Option String) : Rat :=
  if status = some "human_confirmed" ∨ status = some "human_corrected" then 1 else 0

/-- `_weighted_rrf`: normalized so that rank 1 on both lists scores 1. -/
def weightedRrf (lexicalRank denseRank : Option Nat) (lexicalWeight denseWeight : Rat) : Rat :=
  (lexicalRank.elim 0 (fun rank => lexicalWeight / (60 + rank)) +
    denseRank.elim 0 (fun rank => denseWeight / (60 + rank))) * 61

def contradictingStateSlots (left right : Fact) : Bool :=
  left.isState && right.isState &&
    match left.subjectKey, left.predicateKey with
    | some subject, some predicate =>
      subject ≠ "" && predicate ≠ "" && left.scope = right.scope && right.subjectKey = some subject &&
        right.predicateKey = some predicate && left.objectValue ≠ right.objectValue
    | _, _ => false

structure Candidate where
  fact : Fact
  expandedFromEntity : Option String := none
  hopDistance : Nat := 0
  deriving DecidableEq, Repr

structure PreparedRow where
  row : Candidate
  ftsScore : Rat
  jaccardScore : Rat
  denseScore : Rat
  lexicalScore : Rat
  hasDense : Bool
  vector : Option (List Rat)
  deriving DecidableEq, Repr

def PreparedRow.factId (item : PreparedRow) : Nat := item.row.fact.factId

structure SearchRow where
  row : Candidate
  score : Rat
  mmrEmbedding : Option (List Rat)
  ftsScore : Rat
  jaccardScore : Rat
  denseScore : Rat
  fusionScore : Rat
  trustScoreComponent : Rat
  memoryKindScore : Rat
  recencyScore : Rat
  reviewScore : Rat
  namedSubjectScore : Rat
  hopPrior : Rat
  ambiguous : Bool
  deriving DecidableEq, Repr

def SearchRow.factId (r : SearchRow) : Nat := r.row.fact.factId

def SearchRow.place (r : SearchRow) : Rat ×ₗ Rat ×ₗ Nat :=
  toLex (-r.score, toLex (-r.row.fact.trustScore, r.factId))

inductive VectorBackend where
  | auto | sqliteVec | brute
  deriving DecidableEq, Repr

structure Retriever where
  embedder : Embedder
  allowedScopes : List String
  ftsWeight : Rat
  jaccardWeight : Rat
  denseWeight : Rat
  ranking : RankingConfig
  minScore : Rat
  candidateLimit : Nat
  entityExpansion : Bool
  now : Int

structure HybridRetriever extends Retriever where
  vectorIndex : Option SQLiteVecIndex

/-- `HybridRetriever(…)` with the weights and the floor of its configuration. -/
def HybridRetriever.build (loaded : Bool) (s : VectorStore) (embedder : Embedder)
    (allowedScopes : List String) (candidateLimit : Nat) (vectorBackend : VectorBackend)
    (ranking : RankingConfig) (now : Int) (entityExpansion : Bool) : Except Raised HybridRetriever := do
  ensure (ranking.relevance.all (0 ≤ ·) && isclose ranking.relevance.sum 1)
    ⟨.valueError, "retrieval weights must be non-negative and sum to 1"⟩
  ensure (0 ≤ ranking.scoreFloor && ranking.scoreFloor ≤ 1 && 1 ≤ candidateLimit)
    ⟨.valueError, "min_score must be between 0 and 1 and candidate_limit positive"⟩
  let index := match embedder with
    | .stored backend =>
      if ranking.denseWeight ≠ 0 ∧ vectorBackend ≠ .brute then
        SQLiteVecIndex.openIndex loaded s backend.spec.documentIdentity backend.spec.dimensions
      else none
    | _ => none
  .ok {
    embedder, allowedScopes, ranking, candidateLimit, entityExpansion, now
    ftsWeight := ranking.ftsWeight
    jaccardWeight := ranking.jaccardWeight
    denseWeight := ranking.denseWeight
    minScore := ranking.scoreFloor
    vectorIndex := index }

inductive DenseSource where
  | disabled
  | scored (scores : List (Nat × Rat))
  | compared (query : List Rat)

structure DenseWindow where
  scores : Option (List (Nat × Rat))
  denseIds : List Nat
  ftsIds : List Nat
  index : Option SQLiteVecIndex

namespace Retriever

variable (env : RecallRuntime) (r : Retriever) (s : RecallStore) (q : Recall)

def denseDisabled : Bool := r.denseWeight = 0

def eligibleFacts : List Fact := s.facts.filter (Fact.eligible r.allowedScopes q)

def anchors : Finset String := namedAnchorTokens env.toRuntime q.query

def ftsRanked : List Nat :=
  let terms := ftsTerms q.query
  let documents := s.facts.map Fact.document
  let hits := (r.eligibleFacts s q).filter fun f => matchesAny env terms f.document
  (sortedBy (fun f : Fact => toLex (bm25 env documents terms f.document, -(f.factId : Int))) hits).map Fact.factId

/-- `1 / (rank + 1)` of a full-text hit. -/
def ftsScore (ftsIds : List Nat) (factId : Nat) : Option Rat :=
  (ftsIds.idxOf? factId).map fun rank => 1 / ((rank : Rat) + 1)

def scanIds : List Nat :=
  ((sortedBy (fun f : Fact => -(f.factId : Int)) (r.eligibleFacts s q)).map Fact.factId).take r.candidateLimit

def embeddedFacts (idx : SQLiteVecIndex) : List Fact :=
  (r.eligibleFacts s q).filter fun f => s.embeddings.any fun e =>
    e.factId = f.factId && e.embeddingIdentity = idx.identity && e.dim = idx.dimensions

def loadedFacts (factIds : List Nat) : List Fact :=
  (firsts factIds).filterMap fun factId => (r.eligibleFacts s q).find? (·.factId = factId)

def candidates (window : DenseWindow) : List Fact :=
  selectNamedAnchorMatches (anchors env q) Fact.anchorText
    (r.loadedFacts s q (window.denseIds ++ window.ftsIds))

def denseEvidence (factId : Nat) (vector : Option (List Rat)) : DenseSource → Except Raised (Option Rat)
  | .disabled => .ok none
  | .scored scores => .ok (scores.lookup factId)
  | .compared query =>
    if isAbsentVector vector then .ok none
    else do .ok (some (max 0 (← cosine env query (vector.getD []))))

def preparedRow (ftsIds : List Nat) (row : Candidate) (vector : Option (List Rat)) (dense : Option Rat) :
    PreparedRow :=
  let queryTokens := tokens q.query
  let documentTokens := tokens row.fact.content
  let ftsScore := (ftsScore ftsIds row.fact.factId).elim 0 fun rank =>
    (1 - r.ranking.ftsQueryCoverageWeight) * rank +
      r.ranking.ftsQueryCoverageWeight * queryCoverage queryTokens documentTokens
  let jaccardScore := jaccard queryTokens documentTokens
  { row, ftsScore, jaccardScore
    denseScore := dense.getD 0
    lexicalScore := r.ftsWeight * ftsScore + r.jaccardWeight * jaccardScore
    hasDense := dense.any (1 / 10 ≤ ·)
    vector := if isAbsentVector vector then none else vector }

def prepareRow (ftsIds : List Nat) (source : DenseSource) (row : Candidate)
    (vector : Option (List Rat)) : Except Raised PreparedRow := do
  .ok (preparedRow r q ftsIds row vector (← denseEvidence env row.fact.factId vector source))

/-- `prepare_rows`: without vectors every row has none. -/
def prepareRows (ftsIds : List Nat) (source : DenseSource) (rows : List Candidate)
    (vectors : List (Option (List Rat))) : Except Raised (List PreparedRow) :=
  let vectors := if vectors = [] then rows.map fun _ => none else vectors
  (rows.zip vectors).mapM fun (row, vector) => prepareRow env r q ftsIds source row vector

/-- `1` for the first of a list, and so on. -/
def rankIn (ids : List Nat) (factId : Nat) : Option Nat := (ids.idxOf? factId).map (· + 1)

def rankRow (lexicalIds denseIds : List Nat) (item : PreparedRow) : Option SearchRow :=
  let f := item.row.fact
  let fusionScore := weightedRrf (rankIn lexicalIds item.factId) (rankIn denseIds item.factId)
    (r.ftsWeight + r.jaccardWeight) r.denseWeight
  let trustScore := min 1 (max 0 f.trustScore)
  let kindScore := memoryKindScore r.ranking f.memoryKind
  let recency := recencyScore env (s.updatedAt f.factId) r.now r.ranking.recencyHalfLifeDays f
  let review := reviewScore f.correctionStatus
  let subject := namedSubjectScore env.toRuntime (anchors env q) f.content
  let hopPrior : Rat := (85 / 100) ^ item.row.hopDistance
  let score := hopPrior * (r.ranking.relevanceWeight * fusionScore + r.ranking.trustWeight * trustScore +
    r.ranking.memoryKindWeight * kindScore + r.ranking.recencyWeight * recency +
    r.ranking.reviewWeight * review + r.ranking.namedSubjectWeight * subject)
  if score < r.minScore then none
  else some {
    row := item.row
    score
    mmrEmbedding := item.vector
    ftsScore := item.ftsScore
    jaccardScore := item.jaccardScore
    denseScore := item.denseScore
    fusionScore
    trustScoreComponent := trustScore
    memoryKindScore := kindScore
    recencyScore := recency
    reviewScore := review
    namedSubjectScore := subject
    hopPrior
    ambiguous := false }

def lexicalOrder (items : List PreparedRow) : List Nat :=
  (sortedBy (fun item => toLex (-item.lexicalScore, item.factId))
    (items.filter fun item => 0 < item.lexicalScore)).map PreparedRow.factId

def denseOrder (items : List PreparedRow) : List Nat :=
  (sortedBy (fun item => toLex (-item.denseScore, item.factId))
    (items.filter fun item => item.hasDense)).map PreparedRow.factId

/-- `rank_prepared`. -/
def rankPrepared (items : List PreparedRow) : List SearchRow :=
  sortedBy SearchRow.place (items.filterMap (rankRow env r s q (lexicalOrder items) (denseOrder items)))

/-! ### Entity expansion -/

structure Expansion where
  frontier : List Nat
  visited : List Nat
  expanded : List Candidate
  loaded : Nat
  stopped : Bool
  deriving DecidableEq, Repr

/-- The facts the graph may reach: the retriever's own, and never an unreviewed one. -/
def graphFacts : List Fact :=
  (r.eligibleFacts s q).filter fun f => !q.includeUnreviewed || f.correctionStatus ≠ some "unreviewed"

def destinations (batch : List Nat) : List (Fact × FactEntity × Entity) :=
  sortedBy (fun row : Fact × FactEntity × Entity => toLex (row.1.factId, row.2.1.entityId))
    ((r.graphFacts s q).flatMap fun f =>
      (s.factEntities.filter fun link => link.factId = f.factId && batch.contains link.entityId).flatMap
        fun link => (s.entities.filter (·.entityId = link.entityId)).map fun e => (f, link, e))

def aboutEntity (f : Fact) (e : Entity) : Bool :=
  let via := tokens e.name \ genericTitleWords
  let subject := leadingPersonTokens env.toRuntime f.content
  via ≠ ∅ && subject ≠ ∅ && (via ⊆ subject || subject ⊆ via)

def visit (hop : Nat) (excluded : List Nat) (x : Expansion) (row : Fact × FactEntity × Entity) : Expansion :=
  if x.stopped || x.visited.contains row.1.factId || !aboutEntity env row.1 row.2.2 then x
  else
    let reached := { x with
      visited := x.visited ++ [row.1.factId]
      frontier := x.frontier ++ [row.1.factId] }
    if excluded.contains row.1.factId then reached
    else
      let expanded := x.expanded ++ [⟨row.1, some row.2.2.name, hop⟩]
      { reached with expanded, stopped := decide (r.candidateLimit ≤ expanded.length) }

/-- One batch of at most 400 entities, within what may still be loaded. -/
def expandBatch (hop : Nat) (excluded : List Nat) (x : Expansion) (batch : List Nat) : Expansion :=
  if x.stopped || r.candidateLimit ≤ x.loaded then { x with stopped := true }
  else
    let rows := (destinations r s q batch).take (r.candidateLimit - x.loaded)
    rows.foldl (visit env r hop excluded) { x with loaded := x.loaded + rows.length }

/-- The entities of the frontier that are not hubs, in id order. -/
def expandable (frontier : List Nat) : List Nat :=
  let linked (entityId : Nat) (ids : List Nat) : Nat :=
    (r.graphFacts s q).countP fun f => ids.contains f.factId &&
      s.factEntities.any fun link => link.factId = f.factId && link.entityId = entityId
  let all := (r.graphFacts s q).map Fact.factId
  ((s.factEntities.map FactEntity.entityId).dedup.insertionSort (· ≤ ·)).filter fun entityId =>
    linked entityId frontier ≠ 0 && linked entityId all ≤ 25

def expandHop (excluded : List Nat) (x : Expansion) (hop : Nat) : Expansion :=
  if x.stopped then x
  else
    let entities := expandable r s q x.frontier
    ((entities.toChunks 400).foldl (expandBatch env r s q hop excluded) { x with frontier := [] })

/-- `_expand_via_entities`: eligible facts within two non-hub entity hops of the seeds. -/
def expandViaEntities (seeds excluded : List Nat) : List Candidate :=
  let seeds := firsts seeds
  ([1, 2].foldl (expandHop env r s q excluded) ⟨seeds, seeds, [], 0, false⟩).expanded

/-! ### The search -/

def expandedEvidence (window : DenseWindow) (query : List Rat) (expanded : List Candidate) :
    Except Raised (Option (List (Nat × Rat)) × List (Option (List Rat))) :=
  let facts := expanded.map Candidate.fact
  match window.scores, window.index with
  | some scores, some idx => match idx.scores env s.toVectorStore query (facts.map Fact.factId) with
    | .ok more => .ok (some (more ++ scores), [])
    | .error _ => do
      let vectors ← r.embedder.embedRows s.toStore facts
      ensure (vectors.length = facts.length) ⟨.valueError, "zip() argument 2 has another length"⟩
      let more ← ((facts.zip vectors).filter fun p => !isAbsentVector p.2).mapM fun p => do
        .ok (p.1.factId, max 0 (← cosine env query (p.2.getD [])))
      .ok (some (more ++ scores), vectors)
  | some scores, none => .ok (some scores, [])
  | none, _ => do
    let vectors ← r.embedder.embedRows s.toStore facts
    ensure (vectors = [] || vectors.length = facts.length)
      ⟨.valueError, "embedder returned the wrong number of document vectors"⟩
    .ok (none, vectors)

def denseSource (scores : Option (List (Nat × Rat))) (query : List Rat) : DenseSource :=
  if r.denseDisabled then .disabled
  else match scores with
    | some scores => .scored scores
    | none => .compared query

/-- The canonical vectors of a whole result list, or none at all. -/
def storedMmrEmbeddings (factIds : List Nat) : List (Nat × List Rat) :=
  match r.embedder with
  | .stored backend =>
    let rows := s.embeddings.filter fun e => e.embeddingIdentity = backend.spec.documentIdentity &&
      factIds.contains e.factId && e.dim = backend.spec.dimensions && e.embedding.length = backend.spec.dimensions
    if factIds.all fun factId => rows.any (·.factId = factId) then rows.map fun e => (e.factId, e.embedding)
    else []
  | _ => []

def withEmbeddings (scored : Bool) (survivors : List SearchRow) : List SearchRow :=
  if r.denseDisabled then survivors.map fun found => { found with mmrEmbedding := none }
  else if scored then
    let vectors := r.storedMmrEmbeddings s (survivors.map SearchRow.factId)
    survivors.map fun found => { found with mmrEmbedding := vectors.lookup found.factId }
  else if survivors.any fun found => found.mmrEmbedding.isNone then
    survivors.map fun found => { found with mmrEmbedding := none }
  else survivors

def contradictoryCluster : List SearchRow → Option (List SearchRow)
  | one :: other :: more =>
    if contradictingStateSlots one.row.fact other.row.fact then some (one :: other :: more) else none
  | _ => none

/-- The rows within the margin of the first, when the first two contradict each other. -/
def ambiguousCluster : List SearchRow → Option (List SearchRow)
  | first :: second :: rest =>
    if first.score - second.score < r.ranking.ambiguityMargin then
      contradictoryCluster ((first :: second :: rest).filter fun found =>
        first.score - found.score < r.ranking.ambiguityMargin)
    else none
  | _ => none

def settle (scored : Bool) (ranked : List SearchRow) : List SearchRow :=
  match r.ambiguousCluster ranked with
  | some cluster => cluster.map fun found => { found with ambiguous := true }
  | none => r.withEmbeddings s scored (ranked.take q.limit)

def candidateEvidence (window : DenseWindow) (query : List Rat) (facts : List Fact) :
    Except Raised (DenseWindow × List (Option (List Rat))) :=
  let direct (window : DenseWindow) : Except Raised (DenseWindow × List (Option (List Rat))) := do
    let vectors ← r.embedder.embedRows s.toStore facts
    ensure (vectors.length = facts.length)
      ⟨.valueError, "embedder returned the wrong number of document vectors"⟩
    .ok (window, vectors)
  if r.denseDisabled then .ok (window, [])
  else match window.scores, window.index with
    | some _, _ => .ok (window, [])
    | none, some idx => match idx.scores env s.toVectorStore query (facts.map Fact.factId) with
      | .ok scores => .ok ({ window with scores := some scores }, [])
      | .error _ => direct { window with index := none }
    | none, none => direct window

def graphRows (prepared : List PreparedRow) : List Candidate :=
  if r.entityExpansion then
    expandViaEntities env r s q (((rankPrepared env r s q prepared).take 5).map SearchRow.factId)
      (prepared.map PreparedRow.factId)
  else []

def rankExpanded (window : DenseWindow) (query : List Rat) (prepared : List PreparedRow)
    (expanded : List Candidate) : Except Raised (List SearchRow) := do
  let (scores, vectors) ← if r.denseDisabled then .ok (window.scores, [])
    else expandedEvidence env r s window query expanded
  let more ← prepareRows env r q window.ftsIds (r.denseSource scores query) expanded vectors
  .ok (r.settle s q scores.isSome (rankPrepared env r s q (prepared ++ more)))

def rankWithEntities (window : DenseWindow) (query : List Rat) (prepared : List PreparedRow) :
    Except Raised (List SearchRow) :=
  let expanded := graphRows env r s q prepared
  if expanded = [] then .ok (r.settle s q window.scores.isSome (rankPrepared env r s q prepared))
  else rankExpanded env r s q window query prepared expanded

def rankCandidates (window : DenseWindow) (query : List Rat) (facts : List Fact) :
    Except Raised (List SearchRow) := do
  let (window, vectors) ← candidateEvidence env r s window query facts
  let prepared ← prepareRows env r q window.ftsIds (r.denseSource window.scores query)
    (facts.map fun f => ⟨f, none, 0⟩) vectors
  rankWithEntities env r s q window query prepared

end Retriever

namespace HybridRetriever

variable (env : RecallRuntime) (r : HybridRetriever) (s : RecallStore) (q : Recall)

-- an open index lifts the limit
def ftsIds : List Nat :=
  if r.vectorIndex.isSome then r.ftsRanked env s q else (r.ftsRanked env s q).take r.candidateLimit

def denseWindow : Except Raised (Option (List Rat) × DenseWindow) :=
  let ftsIds := r.ftsIds env s q
  if r.denseDisabled then .ok (none, ⟨none, [], ftsIds, r.vectorIndex⟩)
  else match r.vectorIndex with
    | none => .ok (none, ⟨none, r.scanIds s q, ftsIds, none⟩)
    | some idx =>
      let eligible := (selectNamedAnchorMatches (Retriever.anchors env q) Fact.anchorText
        (r.embeddedFacts s q idx)).map Fact.factId
      if eligible = [] then .ok (none, ⟨none, r.scanIds s q, ftsIds, some idx⟩)
      else do
        let query ← r.embedder.embedQuery q.query
        match idx.scores env s.toVectorStore query eligible with
        | .ok scores =>
          let denseIds := (sortedBy (fun p : Nat × Rat => toLex (-p.2, p.1)) scores).map Prod.fst
          .ok (some query, ⟨some scores, denseIds, ftsIds, some idx⟩)
        -- a failing index is given up for this search
        | .error _ => .ok (some query, ⟨none, r.scanIds s q, ftsIds.take r.candidateLimit, none⟩)

def searchQuery : Except Raised (List SearchRow) := do
  let (embedded, window) ← r.denseWindow env s q
  let facts := r.candidates env s q window
  if facts = [] then .ok []
  else do
    let query ← match embedded with
      | some query => .ok query
      | none => if r.denseDisabled then .ok [] else r.embedder.embedQuery q.query
    r.rankCandidates env s q window query facts

/-- `HybridRetriever.search`. -/
def search : Except Raised (List SearchRow) :=
  if Text.strip q.query = "" ∨ q.limit = 0 then .ok [] else searchQuery env r s q.stripped

end HybridRetriever
end Enfold
