import Enfold.Foundation.Run
import Enfold.Foundation.VersionedCache
import Enfold.VectorIndex

/-! The matrix cache of an embedding store. Its own writes drop the cache and `PRAGMA data_version` tells it
of the commits of others; a transaction of its caller that is rolled back after a read does neither. -/
namespace Enfold

open Fallible VersionedCache

/-- float32 arithmetic. -/
structure VectorMath where
  norm : List Rat → Rat
  divide : Rat → Rat → Rat
  dot : List Rat → List Rat → Rat

/-- `str.replace` of a text that is not empty; the number counts what of a match is still to be skipped. -/
def replaceFrom (old new : List Char) : Nat → List Char → List Char
  | _, [] => []
  | skip + 1, _ :: rest => replaceFrom old new skip rest
  | 0, c :: rest =>
    if old.isPrefixOf (c :: rest) then new ++ replaceFrom old new (old.length - 1) rest
    else c :: replaceFrom old new 0 rest

def replaceText (old new text : String) : String :=
  String.ofList (replaceFrom old.toList new.toList 0 text.toList)

structure EmbedStore where
  embeddingIdentity : Option String
  vectorIndex : Option SQLiteVecIndex
  math : VectorMath

abbrev MatrixKey := Nat × Option String

abbrev Matrix := List (Nat × List Rat)

abbrev EmbedWorld := World VectorStore MatrixKey Matrix

namespace EmbedStore
variable (e : EmbedStore)

/-- `_identity_for_storage`. -/
def identityForStorage (identity : Option String) : Option String :=
  (identity.or e.embeddingIdentity).map (replaceText ":query:" ":document:")

def matrixKey (asked : Nat × Option String) : MatrixKey := (asked.1, e.identityForStorage asked.2)

-- the identity column is NOT NULL, so the legacy branch of the query adds nothing
def selected (identity : Option String) (row : Embedding) : Bool :=
  match identity with
  | none => true
  | some identity => identity = "" || row.embeddingIdentity = identity

def normed (vector : List Rat) : List Rat :=
  let norm := e.math.norm vector
  vector.map fun x => e.math.divide x (if norm < 1 / 1000000000 then 1 else norm)

def readMatrix (s : VectorStore) (key : MatrixKey) : Matrix :=
  let rows := (s.embeddings.filter fun row => row.dim = key.1 && selected key.2 row).insertionSort
    fun a b => b.factId ≤ a.factId
  rows.filterMap fun row =>
    if row.embedding.length = key.1 then some (row.factId, e.normed row.embedding) else none

/-- `_embedding_matrix`; `between` is what others commit after the version was looked at. -/
def embeddingMatrix (w : EmbedWorld) (dim : Nat) (identity : Option String) (between : List VectorStore) :
    EmbedWorld × Matrix :=
  w.look e.readMatrix (e.matrixKey (dim, identity)) between

def similarities (query : List Rat) (matrix : Matrix) : List (Nat × Rat) :=
  let norm := e.math.norm query
  let q := if 1 / 1000000000 < norm then query.map (e.math.divide · norm) else query
  (matrix.map fun row => (row.1, e.math.dot row.2 q)).insertionSort fun a b => b.2 ≤ a.2

def scoreAll (w : EmbedWorld) (query : List Rat) (identity : Option String) (between : List VectorStore) :
    EmbedWorld × List (Nat × Rat) :=
  if query = [] then (w, [])
  else
    let (w, matrix) := e.embeddingMatrix w query.length identity between
    (w, e.similarities query matrix)

def freshScores (s : VectorStore) (query : List Rat) (identity : Option String) : List (Nat × Rat) :=
  if query = [] then []
  else e.similarities query (e.readMatrix s (e.matrixKey (query.length, identity)))

def upsertIdentity (identity : Option String) : String :=
  match identity.or e.embeddingIdentity with
  | some identity => if identity = "" then "legacy:unknown:document:none:v1" else identity
  | none => "legacy:unknown:document:none:v1"

end EmbedStore

/-- What SQLite does to a mutation: it may refuse a statement, and what raises may hold the lock by then. -/
structure MutationFault where
  refusal : Option Raised
  locked : Bool

/-- A call of the store, a step of the caller's own transactions, or a commit of another connection. -/
inductive EmbedCall where
  | upsert (factId : Nat) (vector : List Rat) (identity : Option String) (fault : MutationFault)
  | delete (factId : Nat) (fault : MutationFault)
  | pruneIdentities (keep : List String) (fault : MutationFault)
  | scoreAll (query : List Rat) (identity : Option String) (between : List VectorStore)
  | begin (immediate : Bool)
  | savepoint
  | release (depth : Nat)
  | rollbackTo (depth : Nat)
  | commit
  | rollback
  | select
  | execute (store : VectorStore)
  | foreign (store : VectorStore)

namespace EmbedStore
variable (e : EmbedStore)

/-- `_mutation`: what raises inside goes back to the savepoint, and the cache is dropped either way. -/
def mutation (w : EmbedWorld) (fault : MutationFault) (body : VectorStore → Except Raised VectorStore) :
    EmbedWorld :=
  w.mutate (fun s => match fault.refusal with
    | some raised => .error raised
    | none => body s) fault.locked

def moved (w : EmbedWorld) (refusal : String) : Option (Connection VectorStore) → Except Raised EmbedWorld
  | none => .error ⟨.databaseError, refusal⟩
  | some c => .ok { w with connection := c }

def perform (w : EmbedWorld) : EmbedCall → Except Raised EmbedWorld
  | .upsert factId vector identity fault => .ok (mutation w fault fun s =>
      EmbedStore.upsert e.vectorIndex s factId vector (e.upsertIdentity identity))
  | .delete factId fault => .ok (mutation w fault fun s => EmbedStore.delete e.vectorIndex s factId)
  | .pruneIdentities keep fault => do
    ensure (keep ≠ []) ⟨.valueError, "prune_identities requires a non-empty keep set"⟩
    .ok (mutation w fault fun s => EmbedStore.pruneIdentities e.vectorIndex s keep)
  | .scoreAll query identity between => .ok (e.scoreAll w query identity between).1
  | .begin immediate =>
    moved w "cannot start a transaction within a transaction" (w.connection.begin immediate)
  | .savepoint => .ok { w with connection := w.connection.savepoint }
  | .release depth => moved w "no such savepoint" (w.connection.release depth)
  | .rollbackTo depth => moved w "no such savepoint" (w.connection.rollbackTo depth)
  | .commit => .ok { w with connection := w.connection.commit }
  | .rollback => .ok { w with connection := w.connection.rollback }
  | .select => .ok { w with connection := w.connection.select }
  | .execute store =>
    -- the caller's own statements, which leave the table of embeddings alone
    if store.embeddings = w.connection.view.embeddings then
      .ok { w with connection := w.connection.write (ε := Raised) (fun _ => .ok store) false }
    else .error ⟨.databaseError, "not a statement of the caller"⟩
  | .foreign store => .ok { w with connection := w.connection.arrive store }

/-- Every read is what the rows say when the version is looked at, or when they are read. -/
structure Current (w : EmbedWorld) : Prop where
  matrix : ∀ dim identity between,
    (e.embeddingMatrix w dim identity between).2 =
      e.readMatrix w.connection.view (e.matrixKey (dim, identity)) ∨
    (e.embeddingMatrix w dim identity between).2 =
      e.readMatrix (between.foldl Connection.arrive w.connection.select).view (e.matrixKey (dim, identity))
  scores : ∀ query identity between,
    (e.scoreAll w query identity between).2 = e.freshScores w.connection.view query identity ∨
    (e.scoreAll w query identity between).2 =
      e.freshScores (between.foldl Connection.arrive w.connection.select).view query identity

/-- In the cached version, the rows a rollback leaves read under the cached key as those before it. -/
def Restored (w : EmbedWorld) (after : Connection VectorStore) : Prop :=
  ∀ m, w.cache = some m → m.dataVersion = after.dataVersion →
    e.readMatrix after.view m.key = e.readMatrix w.connection.view m.key

/-- Rollbacks of the caller undo nothing that is cached. -/
def Restores (w : EmbedWorld) : EmbedCall → Prop
  | .rollback => e.Restored w w.connection.rollback
  | .rollbackTo depth => ∀ after, w.connection.rollbackTo depth = some after → e.Restored w after
  | _ => True

structure CacheSound (w : EmbedWorld) : Prop where
  sound : w.Sound e.matrixKey
  fresh : w.Fresh e.readMatrix

/-- One call keeps the cache sound, and fresh just when `restores` does. -/
structure Steps (w t : EmbedWorld) (restores : Prop) : Prop where
  sound : w.Sound e.matrixKey → t.Sound e.matrixKey
  fresh : w.Sound e.matrixKey → w.Fresh e.readMatrix → (t.Fresh e.readMatrix ↔ restores)

section Steps
variable {e : EmbedStore} {w t : EmbedWorld}

theorem currentOfFresh (fresh : w.Fresh e.readMatrix) : e.Current w where
  matrix dim identity between := lookCurrent fresh
  scores query identity between := by
    unfold scoreAll freshScores
    split
    · exact .inl rfl
    · exact (lookCurrent fresh).imp (congrArg (e.similarities query)) (congrArg (e.similarities query))

theorem freshOfCurrent (sound : w.Sound e.matrixKey) (current : e.Current w) : w.Fresh e.readMatrix := by
  refine freshOfLooks sound fun asked => ?_
  rcases current.matrix asked.1 asked.2 [] with looked | read
  · exact looked
  · rw [List.foldl_nil, selectView] at read
    exact read

theorem stepsRead {c : Connection VectorStore} (later : w.connection.dataVersion ≤ c.dataVersion) :
    e.Steps w { w with connection := c } (e.Restored w c) where
  sound sound := soundMoved sound later
  fresh sound fresh := freshMoved sound fresh later

theorem stepsFollowed {c : Connection VectorStore} (follows : Follows w.connection c) :
    e.Steps w { w with connection := c } True where
  sound sound := soundMoved sound follows.version
  fresh sound fresh := iff_true_intro (freshFollowed sound fresh follows)

theorem stepsMutation (fault : MutationFault) (body : VectorStore → Except Raised VectorStore) :
    e.Steps w (mutation w fault body) True where
  sound _ := emptySound _
  fresh _ _ := iff_true_intro (emptyFresh _)

theorem stepsScore {query : List Rat} {identity : Option String} {between : List VectorStore} :
    e.Steps w (e.scoreAll w query identity between).1 True := by
  unfold scoreAll
  split
  · exact ⟨id, fun _ fresh => iff_true_intro fresh⟩
  · exact ⟨lookSound _, fun sound fresh => iff_true_intro (lookFresh sound fresh)⟩

theorem readMatrixSame {s s' : VectorStore} (same : s'.embeddings = s.embeddings) (key : MatrixKey) :
    e.readMatrix s' key = e.readMatrix s key := by
  rw [readMatrix, readMatrix, same]

theorem stepsExecute {store : VectorStore} (same : store.embeddings = w.connection.view.embeddings) :
    e.Steps w { w with connection := w.connection.write (ε := Raised) (fun _ => .ok store) false } True := by
  have version := writeVersion (c := w.connection) (ε := Raised) (fun _ => .ok store) false
  have steps : e.Steps w _ _ := stepsRead version.ge
  refine ⟨steps.sound, fun sound fresh => iff_true_intro ((steps.fresh sound fresh).mpr fun m _ _ => ?_)⟩
  refine readMatrixSame ?_ m.key
  unfold Connection.write
  split
  · exact same
  · rfl

theorem movedSource {refusal : String} {next : Option (Connection VectorStore)}
    (done : moved w refusal next = .ok t) : ∃ c, next = some c ∧ t = { w with connection := c } := by
  cases next with
  | none => cases done
  | some c =>
    cases done
    exact ⟨c, rfl, rfl⟩

theorem performSteps {call : EmbedCall} (done : e.perform w call = .ok t) :
    e.Steps w t (e.Restores w call) := by
  cases call with
  | upsert factId vector identity fault =>
    cases done
    exact stepsMutation fault _
  | delete factId fault =>
    cases done
    exact stepsMutation fault _
  | pruneIdentities keep fault =>
    simp only [perform, bindOk, ensureOk] at done
    obtain ⟨-, -, last⟩ := done
    cases last
    exact stepsMutation fault _
  | scoreAll query identity between =>
    cases done
    exact stepsScore
  | begin immediate =>
    obtain ⟨c, began, rfl⟩ := movedSource done
    exact stepsFollowed (beginFollows began)
  | savepoint =>
    cases done
    exact stepsFollowed (savepointFollows _)
  | release depth =>
    obtain ⟨c, released, rfl⟩ := movedSource done
    exact stepsFollowed (releaseFollows released)
  | rollbackTo depth =>
    obtain ⟨c, rolled, rfl⟩ := movedSource done
    have steps : e.Steps w _ _ := stepsRead (rollbackToVersion rolled).ge
    have restores : e.Restores w (.rollbackTo depth) ↔ e.Restored w c := by simp [Restores, rolled]
    exact ⟨steps.sound, fun sound fresh => (steps.fresh sound fresh).trans restores.symm⟩
  | commit =>
    cases done
    exact stepsFollowed (commitFollows _)
  | rollback =>
    cases done
    exact stepsRead (rollbackVersion _)
  | select =>
    cases done
    exact stepsFollowed (selectFollows _)
  | execute store =>
    simp only [perform] at done
    split at done
    · rename_i same
      cases done
      exact stepsExecute same
    · cases done
  | foreign store =>
    cases done
    exact stepsFollowed (arriveFollows _ _)

theorem refusedRestores {call : EmbedCall} {raised : Raised} (refused : e.perform w call = .error raised) :
    e.Restores w call := by
  cases call with
  | rollbackTo depth =>
    intro after rolled
    rw [perform, rolled] at refused
    cases refused
  | rollback => cases refused
  | _ => trivial

theorem attemptFresh {call : EmbedCall} (sound : w.Sound e.matrixKey) (fresh : w.Fresh e.readMatrix) :
    (Run.attempt e.perform w call).Fresh e.readMatrix ↔ e.Restores w call := by
  unfold Run.attempt
  split
  · rename_i t done
    exact (performSteps done).fresh sound fresh
  · rename_i raised refused
    exact ⟨fun _ => refusedRestores refused, fun _ => fresh⟩

end Steps

/-- Through any calls on a connection, whatever the others commit: the store's reads are always those of the
rows just when no rollback of the caller undoes what is cached. -/
theorem matrixCurrent (e : EmbedStore) (c : Connection VectorStore) (calls : List EmbedCall) :
    (∀ done, done <+: calls → e.Current (Run.run e.perform ⟨c, none⟩ done)) ↔
      Run.Meets e.perform e.Restores ⟨c, none⟩ calls := by
  have sound (done : List EmbedCall) : World.Sound e.matrixKey (Run.run e.perform ⟨c, none⟩ done) :=
    Run.invariant (fun s o t done sound => (performSteps done).sound sound) (emptySound c)
  have throughout : (∀ done, done <+: calls → CacheSound e (Run.run e.perform ⟨c, none⟩ done)) ↔
      Run.Meets e.perform e.Restores ⟨c, none⟩ calls := by
    refine Run.throughout ?_ ?_ ⟨emptySound c, emptyFresh c⟩
    · rintro s o t restores done ⟨sound, fresh⟩
      exact ⟨(performSteps done).sound sound, ((performSteps done).fresh sound fresh).mpr restores⟩
    · rintro s o ⟨sound, fresh⟩ undone ⟨-, still⟩
      exact undone ((attemptFresh sound fresh).mp still)
  rw [← throughout]
  exact forall₂_congr fun done part =>
    ⟨fun current => ⟨sound done, freshOfCurrent (sound done) current⟩, fun kept => currentOfFresh kept.fresh⟩

namespace Example

def plainMath : VectorMath where
  norm vector := (vector.map abs).sum
  divide x y := x / y
  dot row query := (List.zipWith (· * ·) row query).sum

def documents : EmbedStore := ⟨some "m:document:none:v1", none, plainMath⟩

def rolledBack : List EmbedCall :=
  [.begin false, .upsert 1 [1] none ⟨none, false⟩, .scoreAll [1] (some "m:query:none:v1") [], .rollback]

theorem undoneVectorRanked : ¬∀ (e : EmbedStore) (c : Connection VectorStore) (calls done : List EmbedCall),
    done <+: calls → e.Current (Run.run e.perform ⟨c, none⟩ done) := by
  intro always
  let left := Run.run documents.perform ⟨.idle (.bare .empty), none⟩ rolledBack
  have ranked : (documents.scoreAll left [1] none []).2 = [(1, 1)] := by decide +kernel
  have fresh : documents.freshScores left.connection.view [1] none = [] := by decide +kernel
  have again : documents.freshScores left.connection.select.view [1] none = [] := by decide +kernel
  rcases (always documents (.idle (.bare .empty)) rolledBack rolledBack List.prefix_rfl).scores [1] none [] with
    looked | read
  · cases ranked.symm.trans (looked.trans fresh)
  · cases ranked.symm.trans (read.trans again)

end Example
end EmbedStore
end Enfold
