import Enfold.VectorIndex
import Enfold.MergeProtection
import Mathlib.Data.Option.Basic

/-! What the two generations of the index ledger say. A canonical change no index follows leaves
them apart; an index that is written marks them equal whatever it has missed, so they stand for
the equality of the tables only while every index write starts from a table that is in step. -/
namespace Enfold

open Fallible

variable {rt : Runtime} {specs : Nat → EmbeddingSpec} {s t : VectorStore} {idx : SQLiteVecIndex}
  {index : Option SQLiteVecIndex}

def canonicalVector (embeddings : List Embedding) (identity : String) (factId : Nat) (vector : List Rat) :
    Prop :=
  ∃ e ∈ embeddings, e.embeddingIdentity = identity ∧ e.factId = factId ∧ e.embedding = vector

/-- Same fact ids and same vectors, the fact `apart` left out. -/
def Vec0.MirrorsBut (table : Vec0) (embeddings : List Embedding) (identity : String) (apart : Option Nat) :
    Prop :=
  ∀ factId, some factId ≠ apart → ∀ vector,
    ⟨factId, vector⟩ ∈ table.rows ↔ canonicalVector embeddings identity factId vector

def VectorStore.InStepBut (s : VectorStore) (apart : Option Nat) : Prop :=
  ∀ name ∈ s.activeTable, ∀ table ∈ s.table name, ∀ identity ∈ s.indexIdentity,
    table.MirrorsBut s.embeddings identity apart

def VectorStore.LedgerSound (s : VectorStore) : Prop :=
  ∀ generation, s.sourceGeneration = some generation → s.indexGeneration = some generation →
    ∃ name table identity, s.activeTable = some name ∧ s.table name = some table ∧
      s.indexIdentity = some identity ∧ table.MirrorsBut s.embeddings identity none

/-- What every run keeps: an active table is there with its triggers, and the index generation is
never ahead. -/
structure VectorStore.Indexed (s : VectorStore) : Prop where
  built : ∀ name, s.activeTable = some name → s.triggers = true ∧ (∃ g, s.sourceGeneration = some g) ∧
    (∃ table, s.table name = some table) ∧ ∃ identity, s.indexIdentity = some identity
  behind : ∀ i, s.indexGeneration = some i →
    (∃ name, s.activeTable = some name) ∧ ∃ g, s.sourceGeneration = some g ∧ i ≤ g
  sound : s.LedgerSound

theorem bareIndexed {s : Store} : (VectorStore.bare s).Indexed where
  built := nofun
  behind := nofun
  sound := nofun

/-! ## Canonical changes -/

theorem changedFrame {n : Nat} : (s.changed n).toStore = s.toStore ∧ (s.changed n).table = s.table ∧
    (s.changed n).activeTable = s.activeTable ∧ (s.changed n).indexIdentity = s.indexIdentity ∧
    (s.changed n).indexGeneration = s.indexGeneration ∧ (s.changed n).triggers = s.triggers := by
  unfold VectorStore.changed
  split
  · exact ⟨rfl, rfl, rfl, rfl, rfl, rfl⟩
  · exact ⟨rfl, rfl, rfl, rfl, rfl, rfl⟩

theorem changedIndexed (indexed : s.Indexed) (store : Store) {n : Nat}
    (same : n = 0 → store.embeddings = s.embeddings) :
    (VectorStore.changed { s with toStore := store } n).Indexed := by
  unfold VectorStore.changed
  split
  · rename_i fires
    simp only [Bool.and_eq_true, decide_eq_true_eq] at fires
    refine ⟨fun name active => ?_, fun i known => ?_, fun g source index => ?_⟩
    · obtain ⟨on, -, table, identity⟩ := indexed.built name active
      exact ⟨on, ⟨_, rfl⟩, table, identity⟩
    · obtain ⟨active, g, source, le⟩ := indexed.behind i known
      refine ⟨active, _, rfl, ?_⟩
      rw [source]
      exact le.trans (Nat.le_add_right _ _)
    · obtain ⟨-, g', source', le⟩ := indexed.behind g index
      simp only [source', Option.getD_some, Option.some.injEq] at source
      omega
  · rename_i still
    refine ⟨indexed.built, indexed.behind, fun g source index => ?_⟩
    obtain ⟨⟨name, active⟩, -⟩ := indexed.behind g index
    have on := (indexed.built name active).1
    have none' : n = 0 := by
      by_contra some'
      exact still (by simp [on, some'])
    obtain ⟨name, table, identity, active, found, bound, mirrors⟩ := indexed.sound g source index
    refine ⟨name, table, identity, active, found, bound, ?_⟩
    rw [show VectorStore.toStore { s with toStore := store } = store from rfl, same none']
    exact mirrors

theorem putEmbeddingIndexed (indexed : s.Indexed) (e : Embedding) : (s.putEmbedding e).Indexed :=
  changedIndexed indexed { s.toStore with embeddings := Table.put Embedding.key e s.embeddings }
    nofun

theorem removeUnmatched {α : Type} {p : α → Bool} {rows : List α} (none' : Table.matching p rows = 0) :
    Table.remove p rows = rows := by
  refine List.filter_eq_self.mpr fun row hr => ?_
  simpa using List.countP_eq_zero.mp none' row hr

theorem deleteEmbeddingsIndexed (indexed : s.Indexed) (p : Embedding → Bool) :
    (s.deleteEmbeddings p).Indexed :=
  changedIndexed indexed { s.toStore with embeddings := Table.remove p s.embeddings }
    removeUnmatched

/-! ## Index writes -/

theorem writtenIndexed (indexed : s.Indexed) {written : Vec0}
    (mirrors : s.activeTable = some idx.tableName → ∀ identity ∈ s.indexIdentity,
      written.MirrorsBut s.embeddings identity none)
    (done : idx.syncGeneration (s.setTable idx.tableName written) = .ok t) : t.Indexed := by
  unfold SQLiteVecIndex.syncGeneration VectorStore.setTable at done
  split at done
  · rename_i other
    cases done
    refine ⟨fun name active => ?_, indexed.behind, fun g source index => ?_⟩
    · obtain ⟨on, source, ⟨table, found⟩, identity⟩ := indexed.built name active
      have apart : name ≠ idx.tableName := fun same => other (same ▸ active)
      exact ⟨on, source, ⟨table, (Function.update_of_ne apart _ _).trans found⟩, identity⟩
    · obtain ⟨name, table, identity, active, found, bound, mirrored⟩ := indexed.sound g source index
      have apart : name ≠ idx.tableName := fun same => other (same ▸ active)
      exact ⟨name, table, identity, active, (Function.update_of_ne apart _ _).trans found, bound, mirrored⟩
  · rename_i active
    have here : s.activeTable = some idx.tableName := not_not.mp active
    split at done
    · cases done
    · rename_i g source
      cases done
      obtain ⟨on, -, -, identity, bound⟩ := indexed.built _ here
      refine ⟨fun name named => ?_, fun i known => ⟨⟨_, here⟩, g, source, ?_⟩, fun _ _ _ => ?_⟩
      · obtain rfl : idx.tableName = name := Option.some.inj (here.symm.trans named)
        exact ⟨on, ⟨g, source⟩, ⟨written, Function.update_self _ _ _⟩, identity, bound⟩
      · exact le_of_eq (Option.some.inj known).symm
      · exact ⟨_, written, identity, here, Function.update_self _ _ _, bound, mirrors here identity bound⟩

theorem rowsOfSource {table : Vec0} (h : idx.rowsOf s = .ok table) : s.table idx.tableName = some table := by
  unfold SQLiteVecIndex.rowsOf at h
  split at h
  · cases h
  · rename_i found
    exact found.trans (congrArg some (Except.ok.inj h))

theorem upsertIndexed {factId : Nat} {vector : List Rat} (indexed : s.Indexed)
    (step : s.activeTable = some idx.tableName → s.InStepBut (some factId) ∧
      ∀ identity ∈ s.indexIdentity, ∀ v, canonicalVector s.embeddings identity factId v ↔ v = vector)
    (done : idx.upsertInTransaction s factId vector = .ok t) : t.Indexed := by
  simp only [SQLiteVecIndex.upsertInTransaction, bindOk] at done
  obtain ⟨-, -, table, found, -, -, done⟩ := done
  refine writtenIndexed indexed (fun active identity bound k _ v => ?_) done
  obtain ⟨others, own⟩ := step active
  rw [Table.memPut]
  by_cases same : k = factId
  · subst same
    rw [own identity bound]
    simp [eq_comm]
  · have mirrored := others _ active table (rowsOfSource found) identity bound k (by simpa using same) v
    simp [same, mirrored]

theorem deleteIndexed {factId : Nat} (indexed : s.Indexed)
    (step : s.activeTable = some idx.tableName → s.InStepBut (some factId))
    (gone : ∀ e ∈ s.embeddings, e.factId ≠ factId)
    (done : idx.deleteInTransaction s factId = .ok t) : t.Indexed := by
  simp only [SQLiteVecIndex.deleteInTransaction, bindOk] at done
  obtain ⟨table, found, done⟩ := done
  refine writtenIndexed indexed (fun active identity bound k _ v => ?_) done
  rw [Table.memRemove]
  by_cases same : k = factId
  · subst same
    refine iff_of_false (by simp) ?_
    rintro ⟨e, he, -, id, -⟩
    exact gone e he id
  · have mirrored := step active _ active table (rowsOfSource found) identity bound k (by simpa using same) v
    simp [same, mirrored]

theorem clearIndexed (indexed : s.Indexed)
    (step : s.activeTable = some idx.tableName → ∀ identity ∈ s.indexIdentity, ∀ e ∈ s.embeddings,
      e.embeddingIdentity ≠ identity)
    (done : idx.clearInTransaction s = .ok t) : t.Indexed := by
  simp only [SQLiteVecIndex.clearInTransaction, bindOk] at done
  obtain ⟨table, -, done⟩ := done
  refine writtenIndexed indexed (fun active identity bound k _ v => iff_of_false List.not_mem_nil ?_) done
  rintro ⟨e, he, same, -⟩
  exact step active identity bound e he same

theorem throughIndexed {write : SQLiteVecIndex → VectorStore → Except Raised VectorStore}
    (indexed : s.Indexed) (kept : ∀ idx ∈ index, write idx s = .ok t → t.Indexed)
    (done : throughIndex index write s = .ok t) : t.Indexed := by
  cases index with
  | none =>
    cases done
    exact indexed
  | some idx => exact kept idx rfl done

/-! ## The operations -/

theorem storedPut {embeddings : List Embedding} {new : Embedding} {identity : String} {k : Nat}
    {v : List Rat} : canonicalVector (Table.put Embedding.key new embeddings) identity k v ↔
      (new.embeddingIdentity = identity ∧ new.factId = k ∧ new.embedding = v) ∨
        ¬ (new.embeddingIdentity = identity ∧ new.factId = k) ∧ canonicalVector embeddings identity k v := by
  unfold canonicalVector
  constructor
  · rintro ⟨e, he, rfl, rfl, rfl⟩
    rcases Table.memPut.mp he with rfl | ⟨old, other⟩
    · exact .inl ⟨rfl, rfl, rfl⟩
    · refine .inr ⟨fun ⟨identity, id⟩ => other ?_, e, old, rfl, rfl, rfl⟩
      rw [Embedding.key, Embedding.key, identity, id]
  · rintro (⟨rfl, rfl, rfl⟩ | ⟨other, e, old, rfl, rfl, rfl⟩)
    · exact ⟨new, Table.memPut.mpr (.inl rfl), rfl, rfl, rfl⟩
    · refine ⟨e, Table.memPut.mpr (.inr ⟨old, fun same => other ?_⟩), rfl, rfl, rfl⟩
      obtain ⟨id, identity⟩ := Prod.mk.inj same
      exact ⟨identity.symm, id.symm⟩

theorem putThrough {e : Embedding} (indexed : s.Indexed)
    (step : ∀ idx ∈ index, s.activeTable = some idx.tableName →
      s.indexIdentity = some e.embeddingIdentity ∧ s.InStepBut (some e.factId))
    (done : throughIndex index (fun idx s => idx.upsertInTransaction s e.factId e.embedding)
      (s.putEmbedding e) = .ok t) : t.Indexed := by
  refine throughIndexed (putEmbeddingIndexed indexed e) (fun idx opened done => ?_) done
  obtain ⟨store, table, active, identity, -, -⟩ := changedFrame
    (s := { s with embeddings := Table.put Embedding.key e s.embeddings }) (n := 1)
  refine upsertIndexed (putEmbeddingIndexed indexed e) (fun here => ?_) done
  obtain ⟨bound, others⟩ := step idx opened (active.symm.trans here)
  have rows : (s.putEmbedding e).embeddings = Table.put Embedding.key e s.embeddings :=
    congrArg Store.embeddings store
  have named : (s.putEmbedding e).indexIdentity = some e.embeddingIdentity := identity.trans bound
  refine ⟨fun name hn found hf identity' hi k apart v => ?_, fun identity' hi v => ?_⟩
  · rw [rows, storedPut]
    have mirrored := others name (active ▸ hn) found (table ▸ hf) identity' (identity ▸ hi) k apart v
    have other : ¬ (e.embeddingIdentity = identity' ∧ e.factId = k) := fun same => apart (by rw [same.2])
    simp only [other, not_false_eq_true, true_and, mirrored]
    exact ⟨.inr, fun h => h.elim (fun same => absurd ⟨same.1, same.2.1⟩ other) id⟩
  · obtain rfl : e.embeddingIdentity = identity' := Option.some.inj (named.symm.trans hi)
    rw [rows, storedPut]
    simp [eq_comm]

theorem deleteThrough {store : Store} {factId : Nat} (indexed : s.Indexed)
    (removed : store.embeddings = Table.remove (·.factId = factId) s.embeddings)
    (step : ∀ idx ∈ index, s.activeTable = some idx.tableName → s.InStepBut (some factId))
    (done : throughIndex index (fun idx s => idx.deleteInTransaction s factId)
      (VectorStore.changed { s with toStore := store } (Table.matching (·.factId = factId) s.embeddings)) =
        .ok t) : t.Indexed := by
  have changed := changedIndexed indexed store fun none' =>
    removed.trans (removeUnmatched none')
  obtain ⟨rows, table, active, identity, -, -⟩ := changedFrame (s := { s with toStore := store })
    (n := Table.matching (·.factId = factId) s.embeddings)
  refine throughIndexed changed (fun idx opened done => ?_) done
  have kept := (congrArg Store.embeddings rows).trans removed
  refine deleteIndexed changed (fun here => ?_) (fun e he => ?_) done
  · intro name hn found hf identity' hi k apart v
    have mirrored := step idx opened (active.symm.trans here) name (active ▸ hn) found (table ▸ hf)
      identity' (identity ▸ hi) k apart v
    rw [kept, mirrored]
    unfold canonicalVector
    have other : k ≠ factId := fun same => apart (congrArg some same)
    exact ⟨fun ⟨e, he, same, id, vec⟩ => ⟨e, Table.memRemove.mpr ⟨he, by simpa [id] using other⟩, same, id, vec⟩,
      fun ⟨e, he, rest⟩ => ⟨e, (Table.memRemove.mp he).1, rest⟩⟩
  · rw [kept] at he
    simpa using (Table.memRemove.mp he).2

theorem pruneThrough {keep : List String} (indexed : s.Indexed)
    (step : ∀ idx ∈ index, idx.identity ∉ keep → s.activeTable = some idx.tableName →
      ∀ identity ∈ s.indexIdentity, identity ∈ keep → ∀ e ∈ s.embeddings, e.embeddingIdentity ≠ identity)
    (done : throughIndex (index.filter fun idx => !keep.contains idx.identity)
      (fun idx s => idx.clearInTransaction s)
      (s.deleteEmbeddings fun e => !keep.contains e.embeddingIdentity) = .ok t) : t.Indexed := by
  have pruned := deleteEmbeddingsIndexed indexed fun e => !keep.contains e.embeddingIdentity
  obtain ⟨rows, -, active, identity, -, -⟩ := changedFrame
    (s := { s with embeddings := Table.remove (fun e => !keep.contains e.embeddingIdentity) s.embeddings })
    (n := Table.matching (fun e => !keep.contains e.embeddingIdentity) s.embeddings)
  refine throughIndexed pruned (fun idx opened done => ?_) done
  obtain ⟨held, dropped⟩ := Option.filter_eq_some_iff.mp opened
  refine clearIndexed pruned (fun here identity' bound e he same => ?_) done
  obtain ⟨stored, listed⟩ := Table.memRemove.mp ((congrArg Store.embeddings rows) ▸ he)
  refine step idx held (by simpa using dropped) (active.symm.trans here) identity' (identity ▸ bound) ?_ e
    stored same
  rw [← same]
  simpa using listed

theorem eraseFactEmbeddings {s t : Store} {factId : Nat} {requestedBy reason erasedAt : String}
    {report : ErasureReport}
    (done : eraseFact rt s factId requestedBy reason erasedAt = .ok (t, report)) :
    t.embeddings = Table.remove (·.factId = factId) s.embeddings := by
  have cloned : ∀ (observationIds : List Nat) (erasureId : Nat) (s : Store),
      (observationIds.foldl (fun s observationId =>
        cloneSharedObservation s observationId factId erasureId) s).embeddings = s.embeddings := by
    intro observationIds erasureId
    induction observationIds with
    | nil => exact fun _ => rfl
    | cons observationId rest ih =>
      intro s
      refine (ih _).trans ?_
      show (cloneSharedObservation s observationId factId erasureId).embeddings = s.embeddings
      unfold cloneSharedObservation
      split
      · rfl
      · split
        · rfl
        · rfl
  simp only [eraseFact, bindOk] at done
  obtain ⟨-, -, -, -, done⟩ := done
  split at done
  · cases done
  · simp only [bindOk, Prod.exists] at done
    obtain ⟨l, insights, conflicts, -, last⟩ := done
    cases last
    rw [cloned]

/-- The index an operation writes is out of the ledger's sight, or in step but for what is written. -/
def VectorOperation.WritesInStep (specs : Nat → EmbeddingSpec) (sys : VectorSystem) :
    VectorOperation → Prop
  | .commitEmbedding w factId _ => (sys.store.activeFact factId).isSome = true →
      ∀ idx ∈ sys.writers w, sys.store.activeTable = some idx.tableName →
        sys.store.indexIdentity = some (specs w).documentIdentity ∧ sys.store.InStepBut (some factId)
  | .upsert c factId vector identity => ∀ idx ∈ sys.embedStores c, identity = idx.identity →
      vector.length = idx.dimensions → sys.store.activeTable = some idx.tableName →
        sys.store.indexIdentity = some identity ∧ sys.store.InStepBut (some factId)
  | .delete c factId => ∀ idx ∈ sys.embedStores c, sys.store.activeTable = some idx.tableName →
      sys.store.InStepBut (some factId)
  | .pruneIdentities c keep => ∀ idx ∈ sys.embedStores c, idx.identity ∉ keep →
      sys.store.activeTable = some idx.tableName → ∀ identity ∈ sys.store.indexIdentity,
        identity ∈ keep → ∀ e ∈ sys.store.embeddings, e.embeddingIdentity ≠ identity
  | .eraseFact c factId _ _ _ => ∀ index ∈ sys.erasures c, ∀ idx ∈ index,
      sys.store.activeTable = some idx.tableName → sys.store.InStepBut (some factId)
  | _ => True

theorem openIndexSource {loaded : Bool} {identity : String} {dimensions : Nat}
    (h : SQLiteVecIndex.openIndex loaded s identity dimensions = some idx) :
    s.activeTable = some idx.tableName ∧ s.indexIdentity = some identity ∧
      ∃ g, s.sourceGeneration = some g ∧ s.indexGeneration = some g := by
  simp only [SQLiteVecIndex.openIndex, Option.bind_eq_bind, Option.bind_eq_some_iff, Option.guard_eq_some'] at h
  obtain ⟨-, -, name, active, table, -, -, ⟨named, -⟩, source, hs, index, hi, -, rfl, -, -, last⟩ := h
  cases last
  exact ⟨active, named, source, hs, hi⟩

theorem openConfiguredSource {loaded : Bool}
    (h : SQLiteVecIndex.openConfigured loaded s = some idx) :
    s.activeTable = some idx.tableName ∧ ∃ g, s.sourceGeneration = some g ∧ s.indexGeneration = some g := by
  simp only [SQLiteVecIndex.openConfigured, Option.bind_eq_bind, Option.bind_eq_some_iff] at h
  obtain ⟨identity, -, dimensions, -, opened⟩ := h
  exact ⟨(openIndexSource opened).1, (openIndexSource opened).2.2⟩

theorem VectorStore.LedgerSound.inStep (sound : s.LedgerSound) {g : Nat} (source : s.sourceGeneration = some g)
    (index : s.indexGeneration = some g) (apart : Option Nat) : s.InStepBut apart := by
  obtain ⟨name, table, identity, active, found, bound, mirrors⟩ := sound g source index
  intro name' hn table' hf identity' hi k _ v
  obtain rfl : name = name' := Option.some.inj (active.symm.trans hn)
  obtain rfl : table = table' := Option.some.inj (found.symm.trans hf)
  obtain rfl : identity = identity' := Option.some.inj (bound.symm.trans hi)
  exact mirrors k nofun v

theorem rebuildIndexed {loaded : Bool} {identity : String} {dimensions : Nat}
    (done : rebuildIndex loaded s identity dimensions = .ok t) : t.Indexed := by
  simp only [rebuildIndex, bindOk, ensureOk] at done
  obtain ⟨-, -, -, -, -, -, -, -, last⟩ := done
  cases last
  refine ⟨fun name active => ?_, fun i known => ⟨⟨_, rfl⟩, _, rfl, ?_⟩, fun _ _ _ => ?_⟩
  · cases active
    exact ⟨rfl, ⟨_, rfl⟩, ⟨_, Function.update_self _ _ _⟩, _, rfl⟩
  · exact le_of_eq (Option.some.inj known).symm
  · refine ⟨_, _, identity, rfl, Function.update_self _ _ _, rfl, fun k _ v => ?_⟩
    constructor
    · intro row
      obtain ⟨e, he, same⟩ := List.mem_map.mp row
      cases same
      obtain ⟨stored, named⟩ := List.mem_filter.mp he
      exact ⟨e, stored, of_decide_eq_true named, rfl, rfl⟩
    · rintro ⟨e, he, named, rfl, rfl⟩
      exact List.mem_map.mpr ⟨e, List.mem_filter.mpr ⟨he, decide_eq_true named⟩, rfl⟩

theorem syncEqual (done : idx.syncGeneration s = .ok t) (active : t.activeTable = some idx.tableName) :
    ∃ g, t.sourceGeneration = some g ∧ t.indexGeneration = some g := by
  unfold SQLiteVecIndex.syncGeneration at done
  split at done
  · rename_i other
    cases done
    exact absurd active other
  · split at done
    · cases done
    · rename_i g source
      cases done
      exact ⟨g, source, rfl⟩

theorem dropMergedIndexed {loaded : Bool} {losers : List Nat} (indexed : s.Indexed)
    (done : dropMerged loaded s losers = .ok t) : t.Indexed := by
  unfold dropMerged at done
  have level : ∀ idx ∈ SQLiteVecIndex.openConfigured loaded s, s.activeTable = some idx.tableName →
      ∃ g, s.sourceGeneration = some g ∧ s.indexGeneration = some g :=
    fun idx opened _ => (openConfiguredSource opened).2
  generalize SQLiteVecIndex.openConfigured loaded s = index at done level
  induction losers generalizing s with
  | nil =>
    cases done
    exact indexed
  | cons loser rest ih =>
    simp only [List.foldlM_cons, bindOk] at done
    obtain ⟨u, first, done⟩ := done
    have kept : u.Indexed := deleteThrough indexed rfl (fun idx held active => by
      obtain ⟨g, source, known⟩ := level idx held active
      exact indexed.sound.inStep source known _) first
    refine ih kept done fun idx held active => ?_
    cases held
    simp only [EmbedStore.delete, throughIndex, SQLiteVecIndex.deleteInTransaction, bindOk] at first
    obtain ⟨table, -, first⟩ := first
    exact syncEqual first active

theorem performIndexed {sys next : VectorSystem} {o : VectorOperation}
    (step : o.WritesInStep specs sys) (done : o.perform rt specs sys = .ok next)
    (indexed : sys.store.Indexed) : next.store.Indexed := by
  cases o with
  | openWriter | openEmbedStore | beginErasure =>
    cases done
    exact indexed
  | commitEmbedding w factId vector =>
    simp only [VectorOperation.perform, bindOk] at done
    obtain ⟨store, done, last⟩ := done
    cases last
    unfold Enfold.commitEmbedding at done
    split at done
    · cases done
      exact indexed
    · rename_i f active
      simp only [bindOk] at done
      obtain ⟨-, -, done⟩ := done
      exact putThrough indexed (step (Option.isSome_iff_exists.mpr ⟨f, active⟩)) done
  | upsert c factId vector identity =>
    simp only [VectorOperation.perform, bindOk] at done
    obtain ⟨store, done, last⟩ := done
    cases last
    simp only [EmbedStore.upsert, bindOk] at done
    obtain ⟨-, -, done⟩ := done
    refine putThrough indexed (fun idx opened => ?_) done
    obtain ⟨held, fits⟩ := Option.filter_eq_some_iff.mp opened
    simp only [Bool.and_eq_true, decide_eq_true_eq] at fits
    exact step idx held fits.1 fits.2
  | delete c factId =>
    simp only [VectorOperation.perform, bindOk] at done
    obtain ⟨store, done, last⟩ := done
    cases last
    exact deleteThrough indexed rfl step done
  | pruneIdentities c keep =>
    simp only [VectorOperation.perform, bindOk] at done
    obtain ⟨store, done, last⟩ := done
    cases last
    simp only [EmbedStore.pruneIdentities, bindOk] at done
    obtain ⟨-, -, done⟩ := done
    exact pruneThrough indexed step done
  | dropMerged loaded losers =>
    simp only [VectorOperation.perform, bindOk] at done
    obtain ⟨store, done, last⟩ := done
    cases last
    exact dropMergedIndexed indexed done
  | rebuild loaded identity dimensions =>
    simp only [VectorOperation.perform, bindOk] at done
    obtain ⟨store, done, last⟩ := done
    cases last
    exact rebuildIndexed done
  | eraseFact c factId requestedBy reason erasedAt =>
    simp only [VectorOperation.perform] at done
    split at done
    · cases done
    · rename_i index running
      simp only [eraseWithVectors, bindOk, Prod.exists] at done
      obtain ⟨store, ⟨erased, report, scrubbed, done⟩, last⟩ := done
      cases last
      exact deleteThrough indexed (eraseFactEmbeddings scrubbed) (step index running) done

/-- In a run whose index writes all start from a table in step, equal generations stand for equal
tables in every state. -/
theorem ledgerSound {s : Store} {ops : List VectorOperation}
    (meets : Run.Meets (VectorOperation.perform rt specs) (VectorOperation.WritesInStep specs)
      (VectorSystem.initial s) ops) :
    (Run.run (VectorOperation.perform rt specs) (VectorSystem.initial s) ops).store.LedgerSound := by
  have indexed := Run.invariantWhen (P := fun sys => sys.store.Indexed)
    (fun _ _ _ step done indexed => performIndexed step done indexed) meets bareIndexed
  exact indexed.sound

namespace Example

def embedder : Nat → EmbeddingSpec := fun _ => ⟨"m:document:none:v1", "v1", 1⟩

def stocked : Store := history [.write trusted caller mentioned, .write trusted caller lima]

def prepared : List VectorOperation := [.rebuild true "m:document:none:v1" 1, .openWriter 0 true]

def embeddedInStep : List VectorOperation := prepared ++ [.commitEmbedding 0 2 [1]]

theorem ledgerSoundHere : (Run.run (VectorOperation.perform .plain embedder)
    (VectorSystem.initial stocked) embeddedInStep).store.LedgerSound := by
  refine ledgerSound ⟨trivial, trivial, fun _ idx _ _ => ⟨by decide +kernel, ?_⟩, trivial⟩
  intro name active table found identity _ factId _ vector
  have here : (Run.run (VectorOperation.perform .plain embedder) (VectorSystem.initial stocked)
      prepared).store.activeTable = some .a := by decide +kernel
  have built : (Run.run (VectorOperation.perform .plain embedder) (VectorSystem.initial stocked)
      prepared).store.table .a = some ⟨1, []⟩ := by decide +kernel
  have none' : (Run.run (VectorOperation.perform .plain embedder) (VectorSystem.initial stocked)
      prepared).store.embeddings = [] := by decide +kernel
  obtain rfl : VecTable.a = name := Option.some.inj (here.symm.trans active)
  obtain rfl : ⟨1, []⟩ = table := Option.some.inj (built.symm.trans found)
  refine iff_of_false List.not_mem_nil ?_
  rintro ⟨e, he, -⟩
  exact absurd (none' ▸ he) List.not_mem_nil

/-- The second writer's vector is not indexed, and the first one's next vector says it is. -/
def overtaken : List VectorOperation :=
  prepared ++ [.commitEmbedding 1 1 [1], .commitEmbedding 0 2 [1]]

theorem overtakenUnsound : ¬ (Run.run (VectorOperation.perform .plain embedder)
    (VectorSystem.initial stocked) overtaken).store.LedgerSound := by
  generalize ended : (Run.run (VectorOperation.perform .plain embedder) (VectorSystem.initial stocked)
    overtaken).store = s
  have source : s.sourceGeneration = some 2 := by
    rw [← ended]
    decide +kernel
  have index : s.indexGeneration = some 2 := by
    rw [← ended]
    decide +kernel
  have here : s.activeTable = some .a := by
    rw [← ended]
    decide +kernel
  have built : s.table .a = some ⟨1, [⟨2, [1]⟩]⟩ := by
    rw [← ended]
    decide +kernel
  have named : s.indexIdentity = some "m:document:none:v1" := by
    rw [← ended]
    decide +kernel
  have stored : ⟨1, [1], 1, "m:document:none:v1"⟩ ∈ s.embeddings := by
    rw [← ended]
    decide +kernel
  intro sound
  have missed := (sound.inStep source index none _ here _ built _ named 1 nofun [1]).mpr
    ⟨_, stored, rfl, rfl, rfl⟩
  simp at missed

end Example
end Enfold
