import Enfold.EmbeddingJobs

/-! The derived vector index: two vec0 tables of which one is active, and the ledger of two
generations that says whether the active one is in step with the canonical embeddings. Triggers
count every canonical row change; whoever writes through an open index marks it in step. -/
namespace Enfold

open Fallible

/-- `TABLE_NAMES`. -/
inductive VecTable where
  | a | b
  deriving DecidableEq, Repr

structure VecRow where
  rowid : Nat
  embedding : List Rat
  deriving DecidableEq, Repr

/-- A vec0 table, which takes vectors of one size. -/
structure Vec0 where
  dim : Nat
  rows : List VecRow
  deriving DecidableEq, Repr

/-- A store with its derived index: the vec0 tables, and the rows of `enfold_meta` about them. -/
structure VectorStore extends Store where
  table : VecTable → Option Vec0
  activeTable : Option VecTable
  indexIdentity : Option String
  indexDimensions : Option Nat
  sourceGeneration : Option Nat
  indexGeneration : Option Nat
  triggers : Bool

def VectorStore.bare (s : Store) : VectorStore where
  toStore := s
  table := fun _ => none
  activeTable := none
  indexIdentity := none
  indexDimensions := none
  sourceGeneration := none
  indexGeneration := none
  triggers := false

def Embedding.key (e : Embedding) : Nat × String := (e.factId, e.embeddingIdentity)

namespace VectorStore

/-- The generation triggers, fired once for every changed row of `fact_embeddings`. -/
def changed (s : VectorStore) (rows : Nat) : VectorStore :=
  if s.triggers && rows ≠ 0 then
    { s with sourceGeneration := some (s.sourceGeneration.getD 0 + rows) }
  else s

def putEmbedding (s : VectorStore) (e : Embedding) : VectorStore :=
  changed { s with embeddings := Table.put Embedding.key e s.embeddings } 1

def deleteEmbeddings (s : VectorStore) (p : Embedding → Bool) : VectorStore :=
  changed { s with embeddings := Table.remove p s.embeddings } (Table.matching p s.embeddings)

def setTable (s : VectorStore) (name : VecTable) (table : Vec0) : VectorStore :=
  { s with table := Function.update s.table name (some table) }

end VectorStore

/-! ## An index opened on one connection -/

structure SQLiteVecIndex where
  identity : String
  dimensions : Nat
  tableName : VecTable
  deriving DecidableEq, Repr

namespace SQLiteVecIndex

def canonical (embeddings : List Embedding) (identity : String) (dimensions : Nat) : List Embedding :=
  embeddings.filter fun e => e.embeddingIdentity = identity && e.dim = dimensions

/-- The first five canonical rows have their vectors in the table. -/
def sampled (canonical : List Embedding) (table : Vec0) : Bool :=
  ((canonical.insertionSort fun a b => a.factId ≤ b.factId).take 5).all fun e =>
    ((Table.find VecRow.rowid e.factId table.rows).map VecRow.embedding) = some e.embedding

/-- `SQLiteVecIndex.open`; `loaded` says whether the connection has the extension. -/
def openIndex (loaded : Bool) (s : VectorStore) (identity : String) (dimensions : Nat) :
    Option SQLiteVecIndex := do
  guard (Text.strip identity ≠ "" ∧ 1 ≤ dimensions ∧ loaded)
  let name ← s.activeTable
  let table ← s.table name
  guard (s.indexIdentity = some identity ∧ s.indexDimensions = some dimensions)
  let source ← s.sourceGeneration
  let index ← s.indexGeneration
  guard (source = index)
  let rows := canonical s.embeddings identity dimensions
  guard (rows.length = table.rows.length ∧ sampled rows table)
  some ⟨identity, dimensions, name⟩

def openConfigured (loaded : Bool) (s : VectorStore) : Option SQLiteVecIndex := do
  let identity ← s.indexIdentity
  let dimensions ← s.indexDimensions
  openIndex loaded s identity dimensions

variable (idx : SQLiteVecIndex)

/-- Mark the active table in step with the canonical vectors; a table that is not active is not
what the ledger is about. -/
def syncGeneration (s : VectorStore) : Except Raised VectorStore :=
  if s.activeTable ≠ some idx.tableName then .ok s
  else match s.sourceGeneration with
    | none => .error ⟨.runtimeError, "vec0 generation ledger is absent; rebuild the index"⟩
    | some source => .ok { s with indexGeneration := some source }

def rowsOf (s : VectorStore) : Except Raised Vec0 :=
  match s.table idx.tableName with
  | none => .error ⟨.databaseError, "no such table"⟩
  | some table => .ok table

def upsertInTransaction (s : VectorStore) (factId : Nat) (vector : List Rat) :
    Except Raised VectorStore := do
  ensure (vector.length = idx.dimensions)
    ⟨.runtimeError, "embedding does not match vec0 index dimensions"⟩
  let table ← idx.rowsOf s
  ensure (vector.length = table.dim) ⟨.databaseError, "dimension mismatch for inserted vector"⟩
  idx.syncGeneration (s.setTable idx.tableName
    { table with rows := Table.put VecRow.rowid ⟨factId, vector⟩ table.rows })

def deleteInTransaction (s : VectorStore) (factId : Nat) : Except Raised VectorStore := do
  let table ← idx.rowsOf s
  idx.syncGeneration (s.setTable idx.tableName
    { table with rows := Table.remove (·.rowid = factId) table.rows })

def clearInTransaction (s : VectorStore) : Except Raised VectorStore := do
  let table ← idx.rowsOf s
  idx.syncGeneration (s.setTable idx.tableName { table with rows := [] })

end SQLiteVecIndex

/-- `if self._vector_index is not None: …`. -/
def throughIndex (index : Option SQLiteVecIndex)
    (write : SQLiteVecIndex → VectorStore → Except Raised VectorStore) (s : VectorStore) :
    Except Raised VectorStore :=
  match index with
  | none => .ok s
  | some idx => write idx s

/-! ## The writers of canonical vectors -/

/-- `StoredEmbeddingWriter.upsert_in_transaction`, where the embedding job is committed: the fact
is read again and must be active. -/
def commitEmbedding (spec : EmbeddingSpec) (index : Option SQLiteVecIndex) (s : VectorStore)
    (factId : Nat) (vector : List Rat) : Except Raised VectorStore :=
  match s.activeFact factId with
  | none => .ok s
  | some _ => do
    ensure (vector.length = spec.dimensions)
      ⟨.storedEmbeddingError, "prepared document embedding is invalid"⟩
    let s := s.putEmbedding ⟨factId, vector, spec.dimensions, spec.documentIdentity⟩
    throughIndex index (fun idx s => idx.upsertInTransaction s factId vector) s

namespace EmbedStore
variable (index : Option SQLiteVecIndex) (s : VectorStore)

def upsert (factId : Nat) (vector : List Rat) (identity : String) : Except Raised VectorStore := do
  ensure (vector ≠ []) ⟨.valueError, "embedding vector must be a non-empty 1-D array"⟩
  let s := s.putEmbedding ⟨factId, vector, vector.length, identity⟩
  throughIndex (index.filter fun idx => identity = idx.identity && vector.length = idx.dimensions)
    (fun idx s => idx.upsertInTransaction s factId vector) s

def delete (factId : Nat) : Except Raised VectorStore :=
  throughIndex index (fun idx s => idx.deleteInTransaction s factId)
    (s.deleteEmbeddings (·.factId = factId))

def pruneIdentities (keep : List String) : Except Raised VectorStore := do
  ensure (keep ≠ []) ⟨.valueError, "prune_identities requires a non-empty keep set"⟩
  throughIndex (index.filter fun idx => !keep.contains idx.identity)
    (fun idx s => idx.clearInTransaction s)
    (s.deleteEmbeddings fun e => !keep.contains e.embeddingIdentity)

end EmbedStore

def dropMerged (loaded : Bool) (s : VectorStore) (losers : List Nat) : Except Raised VectorStore :=
  losers.foldlM (EmbedStore.delete (SQLiteVecIndex.openConfigured loaded s)) s

/-- `erase_fact` on a store with an index, opened before the transaction. -/
def eraseWithVectors (rt : Runtime) (index : Option SQLiteVecIndex) (s : VectorStore) (factId : Nat)
    (requestedBy reason erasedAt : String) : Except Raised VectorStore := do
  let (erased, _) ← eraseFact rt s.toStore factId requestedBy reason erasedAt
  let changed := VectorStore.changed { s with toStore := erased }
    (Table.matching (·.factId = factId) s.embeddings)
  throughIndex index (fun idx s => idx.deleteInTransaction s factId) changed

/-! ## The rebuild -/

def rebuildIndex (loaded : Bool) (s : VectorStore) (identity : String) (dimensions : Nat) :
    Except Raised VectorStore := do
  ensure (Text.strip identity ≠ "" && 1 ≤ dimensions)
    ⟨.valueError, "embedding identity and dimensions must be valid"⟩
  ensure loaded ⟨.runtimeError, "sqlite-vec extension is unavailable"⟩
  let source := s.sourceGeneration.getD 0
  let target := if s.activeTable = some .a then .b else .a
  let rows := s.embeddings.filter (·.embeddingIdentity = identity)
  ensure (rows.all (·.dim = dimensions))
    ⟨.runtimeError, "configured identity has vectors with the wrong dimension"⟩
  ensure (rows.all (·.embedding.length = dimensions))
    ⟨.runtimeError, "embedding for fact is malformed"⟩
  let built : Vec0 := ⟨dimensions, rows.map fun e => ⟨e.factId, e.embedding⟩⟩
  .ok { s.setTable target built with
    triggers := true
    sourceGeneration := some source
    indexIdentity := some identity
    indexDimensions := some dimensions
    activeTable := some target
    indexGeneration := some source }

/-! ## Connections -/

/-- The index each open writer, embedding store and running erasure holds; an index outlives the
transactions of the others. -/
structure VectorSystem where
  store : VectorStore
  writers : Nat → Option SQLiteVecIndex
  embedStores : Nat → Option SQLiteVecIndex
  erasures : Nat → Option (Option SQLiteVecIndex)

def VectorSystem.initial (s : Store) : VectorSystem where
  store := .bare s
  writers := fun _ => none
  embedStores := fun _ => none
  erasures := fun _ => none

inductive VectorOperation where
  /-- A writer or an embedding store is created, on a connection with the extension or without. -/
  | openWriter (w : Nat) (loaded : Bool)
  | openEmbedStore (c : Nat) (loaded : Bool)
  | commitEmbedding (w factId : Nat) (vector : List Rat)
  | upsert (c factId : Nat) (vector : List Rat) (identity : String)
  | delete (c factId : Nat)
  | pruneIdentities (c : Nat) (keep : List String)
  | dropMerged (loaded : Bool) (losers : List Nat)
  | rebuild (loaded : Bool) (identity : String) (dimensions : Nat)
  /-- An erasure opens the index before its transaction. -/
  | beginErasure (c : Nat) (loaded : Bool)
  | eraseFact (c factId : Nat) (requestedBy reason erasedAt : String)

/-- One operation; every writer `w` embeds under its own identity and size `specs w`. -/
def VectorOperation.perform (rt : Runtime) (specs : Nat → EmbeddingSpec) (sys : VectorSystem) :
    VectorOperation → Except Raised VectorSystem
  | .openWriter w loaded =>
    let opened := SQLiteVecIndex.openIndex loaded sys.store (specs w).documentIdentity (specs w).dimensions
    .ok { sys with writers := Function.update sys.writers w opened }
  | .openEmbedStore c loaded =>
    let opened := SQLiteVecIndex.openConfigured loaded sys.store
    .ok { sys with embedStores := Function.update sys.embedStores c opened }
  | .commitEmbedding w factId vector => do
    let store ← Enfold.commitEmbedding (specs w) (sys.writers w) sys.store factId vector
    .ok { sys with store }
  | .upsert c factId vector identity => do
    let store ← EmbedStore.upsert (sys.embedStores c) sys.store factId vector identity
    .ok { sys with store }
  | .delete c factId => do
    let store ← EmbedStore.delete (sys.embedStores c) sys.store factId
    .ok { sys with store }
  | .pruneIdentities c keep => do
    let store ← EmbedStore.pruneIdentities (sys.embedStores c) sys.store keep
    .ok { sys with store }
  | .dropMerged loaded losers => do
    let store ← Enfold.dropMerged loaded sys.store losers
    .ok { sys with store }
  | .rebuild loaded identity dimensions => do
    let store ← rebuildIndex loaded sys.store identity dimensions
    .ok { sys with store }
  | .beginErasure c loaded =>
    let opened := SQLiteVecIndex.openConfigured loaded sys.store
    .ok { sys with erasures := Function.update sys.erasures c (some opened) }
  | .eraseFact c factId requestedBy reason erasedAt =>
    match sys.erasures c with
    | none => .error ⟨.erasureError, "no erasure is running"⟩
    | some index => do
      let store ← eraseWithVectors rt index sys.store factId requestedBy reason erasedAt
      .ok { sys with store, erasures := Function.update sys.erasures c none }

end Enfold
