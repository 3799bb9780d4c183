import Enfold.VectorLedger

/-! Where the vector of an erased fact may stay. An erasure deletes the canonical rows and, through
the index it could open, the row of one vec0 table; a rebuild leaves the table it replaces as it
was, and an index whose ledger is behind is not opened at all. -/
namespace Enfold

open Fallible

variable {rt : Runtime} {specs : Nat → EmbeddingSpec} {s t : VectorStore} {idx : SQLiteVecIndex}
  {index : Option SQLiteVecIndex} {factId : Nat}

structure VectorStore.Forgot (s : VectorStore) (factId : Nat) : Prop where
  embeddings : ∀ e ∈ s.embeddings, e.factId ≠ factId
  tables : ∀ name, ∀ table ∈ s.table name, ∀ row ∈ table.rows, row.rowid ≠ factId

/-- Every vec0 table with a row of the fact is the one an erasure opened. -/
def VectorStore.ReachedBy (s : VectorStore) (index : Option SQLiteVecIndex) (factId : Nat) : Prop :=
  ∀ name, ∀ table ∈ s.table name, (∃ row ∈ table.rows, row.rowid = factId) →
    ∃ idx ∈ index, idx.tableName = name

def Store.dead (s : Store) (factId : Nat) : Prop := ∀ f ∈ s.facts, f.factId = factId → f.invalidAt ≠ none

theorem deadInactive {s : Store} (dead : s.dead factId) : s.activeFact factId = none := by
  cases found : s.activeFact factId with
  | none => rfl
  | some f =>
    obtain ⟨mem, id, active⟩ := activeFactSource found
    simp only [Fact.active, Bool.and_eq_true] at active
    exact absurd (currentValid active.1).1 (dead f mem id)

/-! ## The facts after an erasure -/

theorem eraseLedgerDead {l l' : Ledger} {erased insights conflicts : Nat} {requestedBy erasedAt : String}
    (done : eraseLedger rt l erased requestedBy erasedAt = .ok (l', insights, conflicts)) :
    ∀ g ∈ l'.facts, ∃ f ∈ l.facts, f.factId = g.factId ∧
      (f.invalidAt ≠ none ∨ f.factId = erased → g.invalidAt ≠ none) := by
  simp only [eraseLedger, bindOk, Prod.exists] at done
  obtain ⟨l₁, count, cited, last⟩ := done
  simp only [invalidateInsights, bindOk] at cited
  obtain ⟨citing, -, invalidated⟩ := cited
  cases invalidated
  cases last
  intro g hg
  obtain ⟨f₁, hf₁, rfl⟩ := Table.memAmend.mp hg
  obtain ⟨f, hf, scrubbed⟩ := Table.memAmend.mp hf₁
  have once : f.factId = f₁.factId ∧ (f.invalidAt ≠ none ∨ f.factId = erased → f₁.invalidAt ≠ none) := by
    rw [scrubbed]
    split
    · refine ⟨rfl, fun _ => ?_⟩
      cases was : f.invalidAt <;> simp [Fact.scrub, was]
    · rename_i other
      exact ⟨rfl, fun due => due.resolve_right (by simpa using other)⟩
  refine ⟨f, hf, ?_⟩
  split
  · exact ⟨once.1, fun _ => Option.some_ne_none _⟩
  · exact once

theorem eraseFactDead {s t : Store} {erased : Nat} {requestedBy reason erasedAt : String}
    {report : ErasureReport} (done : eraseFact rt s erased requestedBy reason erasedAt = .ok (t, report)) :
    t.dead erased ∧ ∀ factId, s.dead factId → t.dead factId := by
  obtain ⟨insights, conflicts, -, ledger, -⟩ := eraseFactSource done
  have follows := eraseLedgerDead ledger
  constructor
  · intro g hg id
    obtain ⟨f, -, same, died⟩ := follows g hg
    exact died (.inr (same.trans id))
  · intro factId dead g hg id
    obtain ⟨f, hf, same, died⟩ := follows g hg
    exact died (.inl (dead f hf (same.trans id)))

/-! ## What writes through an index leave of a forgotten fact -/

theorem changedFacts {n : Nat} : (s.changed n).facts = s.facts :=
  congrArg (fun store : Store => store.facts) changedFrame.1

theorem syncFrame (done : idx.syncGeneration s = .ok t) :
    t.toStore = s.toStore ∧ t.table = s.table := by
  unfold SQLiteVecIndex.syncGeneration at done
  split at done
  · cases done
    exact ⟨rfl, rfl⟩
  · split at done
    · cases done
    · cases done
      exact ⟨rfl, rfl⟩

theorem forgotChanged {n : Nat} (forgot : s.Forgot factId) : (s.changed n).Forgot factId := by
  obtain ⟨store, table, -, -, -, -⟩ := changedFrame (s := s) (n := n)
  refine ⟨fun e he => forgot.embeddings e ?_, fun name found hf => forgot.tables name found ?_⟩
  · rwa [store] at he
  · rwa [table] at hf

theorem writtenFrame {written : Vec0}
    (done : idx.syncGeneration (s.setTable idx.tableName written) = .ok t) :
    t.toStore = s.toStore ∧ ∀ name, t.table name =
      if name = idx.tableName then some written else s.table name := by
  obtain ⟨store, table⟩ := syncFrame done
  refine ⟨store, fun name => ?_⟩
  rw [table]
  simp only [VectorStore.setTable, Function.update_apply]

theorem forgotWritten {written : Vec0} (forgot : s.Forgot factId)
    (clean : ∀ row ∈ written.rows, row.rowid ≠ factId)
    (done : idx.syncGeneration (s.setTable idx.tableName written) = .ok t) : t.Forgot factId := by
  obtain ⟨store, table⟩ := writtenFrame done
  refine ⟨fun e he => forgot.embeddings e (store ▸ he), fun name found hf => ?_⟩
  rw [table] at hf
  split at hf
  · cases hf
    exact clean
  · exact forgot.tables name found hf

theorem forgotUpsert {other : Nat} {vector : List Rat} (forgot : s.Forgot factId) (apart : other ≠ factId)
    (done : idx.upsertInTransaction s other vector = .ok t) : t.Forgot factId := by
  simp only [SQLiteVecIndex.upsertInTransaction, bindOk] at done
  obtain ⟨-, -, table, found, -, -, done⟩ := done
  refine forgotWritten forgot (fun row hr => ?_) done
  rcases Table.memPut.mp hr with rfl | ⟨old, -⟩
  · exact apart
  · exact forgot.tables _ table (rowsOfSource found) row old

theorem forgotDelete {other : Nat} (forgot : s.Forgot factId)
    (done : idx.deleteInTransaction s other = .ok t) : t.Forgot factId := by
  simp only [SQLiteVecIndex.deleteInTransaction, bindOk] at done
  obtain ⟨table, found, done⟩ := done
  exact forgotWritten forgot (fun row hr => forgot.tables _ table (rowsOfSource found) row
    (Table.memRemove.mp hr).1) done

theorem forgotClear (forgot : s.Forgot factId) (done : idx.clearInTransaction s = .ok t) :
    t.Forgot factId := by
  simp only [SQLiteVecIndex.clearInTransaction, bindOk] at done
  obtain ⟨table, -, done⟩ := done
  exact forgotWritten forgot (fun _ hr => absurd hr List.not_mem_nil) done

theorem forgotThrough {write : SQLiteVecIndex → VectorStore → Except Raised VectorStore}
    (forgot : s.Forgot factId) (kept : ∀ idx ∈ index, write idx s = .ok t → t.Forgot factId)
    (done : throughIndex index write s = .ok t) : t.Forgot factId := by
  cases index with
  | none =>
    cases done
    exact forgot
  | some idx => exact kept idx rfl done

theorem forgotRemoved {p : Embedding → Bool} (forgot : s.Forgot factId) :
    (s.deleteEmbeddings p).Forgot factId :=
  forgotChanged ⟨fun e he => forgot.embeddings e (Table.memRemove.mp he).1, forgot.tables⟩

theorem forgotDropped {other : Nat} (forgot : s.Forgot factId)
    (done : EmbedStore.delete index s other = .ok t) : t.Forgot factId :=
  forgotThrough (forgotRemoved forgot) (fun _ _ done => forgotDelete (forgotRemoved forgot) done) done

theorem forgotRebuilt {loaded : Bool} {identity : String} {dimensions : Nat} (forgot : s.Forgot factId)
    (done : rebuildIndex loaded s identity dimensions = .ok t) : t.Forgot factId := by
  simp only [rebuildIndex, bindOk] at done
  obtain ⟨-, -, -, -, -, -, -, -, last⟩ := done
  cases last
  refine ⟨forgot.embeddings, fun name found hf => ?_⟩
  simp only [VectorStore.setTable] at hf
  generalize (if s.activeTable = some .a then VecTable.b else .a) = target at hf
  rw [Function.update_apply] at hf
  split at hf
  · cases hf
    intro row hr
    obtain ⟨e, he, rfl⟩ := List.mem_map.mp hr
    exact forgot.embeddings e (List.mem_filter.mp he).1
  · exact forgot.tables name found hf

theorem forgotMerged {loaded : Bool} {losers : List Nat} (forgot : s.Forgot factId)
    (done : dropMerged loaded s losers = .ok t) : t.Forgot factId := by
  unfold dropMerged at done
  generalize SQLiteVecIndex.openConfigured loaded s = index at done
  induction losers generalizing s with
  | nil =>
    cases done
    exact forgot
  | cons loser rest ih =>
    simp only [List.foldlM_cons, bindOk] at done
    obtain ⟨u, first, done⟩ := done
    exact ih (forgotDropped forgot first) done

/-! ## Runs -/

/-- Every operation but a bare `EmbedStore.upsert`, which asks no fact whether it is active. -/
def VectorOperation.asksFact : VectorOperation → Bool
  | .upsert .. => false
  | _ => true

theorem throughFacts {write : SQLiteVecIndex → VectorStore → Except Raised VectorStore}
    (kept : ∀ idx, write idx s = .ok t → t.toStore = s.toStore)
    (done : throughIndex index write s = .ok t) : t.toStore = s.toStore := by
  cases index with
  | none =>
    cases done
    rfl
  | some idx => exact kept idx done

theorem upsertFacts {other : Nat} {vector : List Rat}
    (done : idx.upsertInTransaction s other vector = .ok t) : t.toStore = s.toStore := by
  simp only [SQLiteVecIndex.upsertInTransaction, bindOk] at done
  obtain ⟨-, -, table, -, -, -, done⟩ := done
  exact (writtenFrame done).1

theorem deleteFacts {other : Nat} (done : idx.deleteInTransaction s other = .ok t) :
    t.toStore = s.toStore := by
  simp only [SQLiteVecIndex.deleteInTransaction, bindOk] at done
  obtain ⟨table, -, done⟩ := done
  exact (writtenFrame done).1

theorem clearFacts (done : idx.clearInTransaction s = .ok t) : t.toStore = s.toStore := by
  simp only [SQLiteVecIndex.clearInTransaction, bindOk] at done
  obtain ⟨table, -, done⟩ := done
  exact (writtenFrame done).1

theorem droppedFacts {other : Nat} (done : EmbedStore.delete index s other = .ok t) :
    t.facts = s.facts := by
  rw [throughFacts (fun _ => deleteFacts) done]
  exact changedFacts

theorem mergedFacts {loaded : Bool} {losers : List Nat} (done : dropMerged loaded s losers = .ok t) :
    t.facts = s.facts := by
  unfold dropMerged at done
  generalize SQLiteVecIndex.openConfigured loaded s = index at done
  induction losers generalizing s with
  | nil =>
    cases done
    rfl
  | cons loser rest ih =>
    simp only [List.foldlM_cons, bindOk] at done
    obtain ⟨u, first, done⟩ := done
    exact (ih done).trans (droppedFacts first)

theorem forgotStored {e : Embedding} {vector : List Rat} (forgot : s.Forgot factId)
    (apart : e.factId ≠ factId)
    (done : throughIndex index (fun idx s => idx.upsertInTransaction s e.factId vector)
      (s.putEmbedding e) = .ok t) : t.Forgot factId ∧ t.facts = s.facts := by
  have stored : (s.putEmbedding e).Forgot factId := forgotChanged
    ⟨fun row hr => by
      rcases Table.memPut.mp hr with rfl | ⟨old, -⟩
      · exact apart
      · exact forgot.embeddings row old, forgot.tables⟩
  refine ⟨forgotThrough stored (fun _ _ done => forgotUpsert stored apart done) done, ?_⟩
  rw [throughFacts (fun _ => upsertFacts) done]
  exact changedFacts

theorem forgotErased {erased : Nat} {requestedBy reason erasedAt : String} (forgot : s.Forgot factId)
    (done : eraseWithVectors rt index s erased requestedBy reason erasedAt = .ok t) :
    t.Forgot factId := by
  simp only [eraseWithVectors, bindOk, Prod.exists] at done
  obtain ⟨store, report, scrubbed, done⟩ := done
  have changed : (VectorStore.changed { s with toStore := store }
      (Table.matching (·.factId = erased) s.embeddings)).Forgot factId := forgotChanged
    ⟨fun e he => forgot.embeddings e (Table.memRemove.mp (eraseFactEmbeddings scrubbed ▸ he)).1,
      forgot.tables⟩
  exact forgotThrough changed (fun _ _ done => forgotDelete changed done) done

theorem erasedStore {erased : Nat} {requestedBy reason erasedAt : String}
    (done : eraseWithVectors rt index s erased requestedBy reason erasedAt = .ok t) :
    t.dead erased ∧ (∀ factId, s.dead factId → t.dead factId) ∧
      ∀ e ∈ t.embeddings, e.factId ≠ erased := by
  simp only [eraseWithVectors, bindOk, Prod.exists] at done
  obtain ⟨store, report, scrubbed, done⟩ := done
  have same := (throughFacts (fun _ => deleteFacts) done).trans changedFrame.1
  rw [same]
  obtain ⟨gone, kept⟩ := eraseFactDead scrubbed
  refine ⟨gone, kept, fun e he => ?_⟩
  rw [eraseFactEmbeddings scrubbed] at he
  simpa using (Table.memRemove.mp he).2

theorem performForgot {sys next : VectorSystem} {o : VectorOperation} (asks : o.asksFact = true)
    (done : o.perform rt specs sys = .ok next)
    (kept : sys.store.Forgot factId ∧ sys.store.dead factId) :
    next.store.Forgot factId ∧ next.store.dead factId := by
  obtain ⟨forgot, dead⟩ := kept
  have still : ∀ {t : VectorStore}, t.Forgot factId ∧ t.facts = sys.store.facts →
      t.Forgot factId ∧ t.dead factId := fun ⟨left, same⟩ =>
    ⟨left, fun f hf => dead f (same ▸ hf)⟩
  cases o with
  | openWriter | openEmbedStore | beginErasure =>
    cases done
    exact ⟨forgot, dead⟩
  | upsert => cases asks
  | commitEmbedding w other vector =>
    simp only [VectorOperation.perform, bindOk] at done
    obtain ⟨store, done, last⟩ := done
    cases last
    unfold Enfold.commitEmbedding at done
    split at done
    · cases done
      exact ⟨forgot, dead⟩
    · rename_i f active
      simp only [bindOk] at done
      obtain ⟨-, -, done⟩ := done
      have apart : other ≠ factId := by
        rintro rfl
        exact Option.some_ne_none f (active.symm.trans (deadInactive dead))
      exact still (forgotStored (e := ⟨other, vector, _, _⟩) forgot apart done)
  | delete c other =>
    simp only [VectorOperation.perform, bindOk] at done
    obtain ⟨store, done, last⟩ := done
    cases last
    exact still ⟨forgotDropped forgot done, droppedFacts done⟩
  | pruneIdentities c keep =>
    simp only [VectorOperation.perform, bindOk] at done
    obtain ⟨store, done, last⟩ := done
    cases last
    simp only [EmbedStore.pruneIdentities, bindOk] at done
    obtain ⟨-, -, done⟩ := done
    refine still ⟨forgotThrough (forgotRemoved forgot)
      (fun _ _ done => forgotClear (forgotRemoved forgot) done) done, ?_⟩
    rw [throughFacts (fun _ => clearFacts) done]
    exact changedFacts
  | dropMerged loaded losers =>
    simp only [VectorOperation.perform, bindOk] at done
    obtain ⟨store, done, last⟩ := done
    cases last
    exact still ⟨forgotMerged forgot done, mergedFacts done⟩
  | rebuild loaded identity dimensions =>
    simp only [VectorOperation.perform, bindOk] at done
    obtain ⟨store, done, last⟩ := done
    cases last
    refine still ⟨forgotRebuilt forgot done, ?_⟩
    simp only [rebuildIndex, bindOk] at done
    obtain ⟨-, -, -, -, -, -, -, -, last⟩ := done
    cases last
    rfl
  | eraseFact c other requestedBy reason erasedAt =>
    simp only [VectorOperation.perform] at done
    split at done
    · cases done
    · simp only [bindOk] at done
      obtain ⟨store, done, last⟩ := done
      cases last
      exact ⟨forgotErased forgot done, (erasedStore done).2.1 factId dead⟩

theorem erasedTables {erased : Nat} {requestedBy reason erasedAt : String}
    (done : eraseWithVectors rt index s erased requestedBy reason erasedAt = .ok t)
    (name : VecTable) (row : VecRow) :
    (∃ table ∈ t.table name, row ∈ table.rows) ↔ (∃ table ∈ s.table name, row ∈ table.rows) ∧
      ((∃ idx ∈ index, idx.tableName = name) → row.rowid ≠ erased) := by
  simp only [eraseWithVectors, bindOk, Prod.exists] at done
  obtain ⟨store, report, -, done⟩ := done
  cases index with
  | none =>
    cases done
    rw [changedFrame.2.1]
    simp
  | some idx =>
    simp only [throughIndex, SQLiteVecIndex.deleteInTransaction, bindOk] at done
    obtain ⟨opened, found, done⟩ := done
    have held := rowsOfSource found
    obtain ⟨-, table⟩ := writtenFrame done
    rw [changedFrame.2.1] at held table
    rw [table]
    split
    · rename_i here
      subst here
      have held : s.table idx.tableName = some opened := held
      simp [held, Table.memRemove]
    · rename_i other
      have apart : idx.tableName ≠ name := fun same => other same.symm
      simp [apart]

/-- An erasure reaches every vector copy for good exactly when each vec0 table with a row of the fact
is the one it opened. -/
theorem erasureForgets {sys next : VectorSystem} {c : Nat} {requestedBy reason erasedAt : String}
    {index : Option SQLiteVecIndex} (running : sys.erasures c = some index)
    (erased : (VectorOperation.eraseFact c factId requestedBy reason erasedAt).perform rt specs sys =
      .ok next) :
    (∀ ops : List VectorOperation, (∀ o ∈ ops, o.asksFact = true) →
        (Run.run (VectorOperation.perform rt specs) next ops).store.Forgot factId) ↔
      sys.store.ReachedBy index factId := by
  simp only [VectorOperation.perform, running, bindOk] at erased
  obtain ⟨store, erased, last⟩ := erased
  obtain rfl : next.store = store := by
    cases last
    rfl
  have tables := erasedTables erased
  constructor
  · rintro forgotten name table found ⟨row, hr, same⟩
    have forgot := forgotten [] fun o none => absurd none List.not_mem_nil
    by_contra unopened
    obtain ⟨left, here, there⟩ :=
      (tables name row).mpr ⟨⟨table, found, hr⟩, fun opened => absurd opened unopened⟩
    exact forgot.tables name left here row there same
  · intro reached ops kind
    obtain ⟨gone, -, embeddings⟩ := erasedStore erased
    have forgot : next.store.Forgot factId := by
      refine ⟨embeddings, fun name table found row hr same => ?_⟩
      obtain ⟨⟨old, there, was⟩, cleared⟩ := (tables name row).mp ⟨table, found, hr⟩
      exact cleared (reached name old there ⟨row, was, same⟩) same
    exact (Run.invariantOf (P := fun sys => sys.store.Forgot factId ∧ sys.store.dead factId)
      (fun _ _ _ asks done kept => performForgot asks done kept) kind ⟨forgot, gone⟩).1

namespace Example

def indexed : List VectorOperation :=
  [.commitEmbedding 0 1 [1], .rebuild true "m:document:none:v1" 1, .beginErasure 0 true]

theorem erasureForgetsHere : ∃ next,
    (VectorOperation.eraseFact 0 1 "owner" "privacy" "t9").perform .plain embedder
      (Run.run (VectorOperation.perform .plain embedder) (VectorSystem.initial stocked) indexed) =
        .ok next ∧
    ((∀ ops : List VectorOperation, (∀ o ∈ ops, o.asksFact = true) →
        (Run.run (VectorOperation.perform .plain embedder) next ops).store.Forgot 1) ↔
      (Run.run (VectorOperation.perform .plain embedder) (VectorSystem.initial stocked)
        indexed).store.ReachedBy (some ⟨"m:document:none:v1", 1, .a⟩) 1) := by
  have goes : ((VectorOperation.eraseFact 0 1 "owner" "privacy" "t9").perform .plain embedder
      (Run.run (VectorOperation.perform .plain embedder) (VectorSystem.initial stocked)
        indexed)).toOption.isSome = true := by decide +kernel
  obtain ⟨next, done⟩ := Option.isSome_iff_exists.mp goes
  exact ⟨next, okOfOption done, erasureForgets (by decide +kernel) (okOfOption done)⟩

def rebuilt : List VectorOperation :=
  [.commitEmbedding 0 1 [1], .rebuild true "m:document:none:v1" 1, .rebuild true "m:document:none:v1" 1,
    .beginErasure 0 true, .eraseFact 0 1 "owner" "privacy" "t9"]

def outdated : List VectorOperation :=
  [.commitEmbedding 0 1 [1], .rebuild true "m:document:none:v1" 1, .commitEmbedding 0 2 [1],
    .beginErasure 0 true, .eraseFact 0 1 "owner" "privacy" "t9"]

def erasedHere (ops : List VectorOperation) : VectorStore :=
  (Run.run (VectorOperation.perform .plain embedder) (VectorSystem.initial stocked) ops).store

theorem vectorLeft : (∃ e ∈ (erasedHere rebuilt).erasures, e.factId = 1) ∧
    (∃ e ∈ (erasedHere outdated).erasures, e.factId = 1) ∧
    ¬ (erasedHere rebuilt).Forgot 1 ∧ ¬ (erasedHere outdated).Forgot 1 := by
  have first : (erasedHere rebuilt).table .a = some ⟨1, [⟨1, [1]⟩]⟩ := by decide +kernel
  have second : (erasedHere outdated).table .a = some ⟨1, [⟨1, [1]⟩]⟩ := by decide +kernel
  refine ⟨by decide +kernel, by decide +kernel, fun forgot => ?_, fun forgot => ?_⟩
  · exact forgot.tables .a _ first _ (List.mem_singleton.mpr rfl) rfl
  · exact forgot.tables .a _ second _ (List.mem_singleton.mpr rfl) rfl

end Example
end Enfold
