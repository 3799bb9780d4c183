import Enfold.ClusterMerge
import Enfold.Foundation.Run
import Enfold.Service

/-! Histories of a store: any services, clients, clocks and items, in any order, from a freshly
migrated store. An operation that raises leaves the store as it was. -/
namespace Enfold

open Fallible

variable (rt : Runtime)

inductive Operation where
  | write (svc : WriteService) (context : ConnectionContext) (timed : TimedWrite rt)
  /-- A batch whose hook may delete queue rows in the same transaction. -/
  | writeBatch (svc : WriteService) (context : ConnectionContext) (writes : List (TimedWrite rt))
      (rollbackIf : WriteOutcome → Bool) (completes : QueueRow → Bool)
  | resolveConflict (svc : WriteService) (context : ConnectionContext) (conflictId factId : Nat)
      (reason resolvedAt queuedAt : String)
  | eraseFact (factId : Nat) (requestedBy reason erasedAt : String)
  | mergeClusters (plan : MergePlan) (expectedDropMin expectedDropMax : Nat) (maxDropFraction : Rat)
  /-- The embedding worker may store any vector for any fact at any time. -/
  | storeEmbedding (embedding : Embedding)

variable {rt} in
def Operation.perform (s : Store) : Operation rt → Except Raised Store
  | .write svc context timed => do
    let (s, _) ← Enfold.write rt svc context timed.clock s timed.item.request timed.item.candidate
    .ok s
  | .writeBatch svc context writes rollbackIf completes => do
    let (s, _) ← Enfold.writeBatch rt svc context s writes rollbackIf
      fun s => .ok { s with queue := Table.remove completes s.queue }
    .ok s
  | .resolveConflict svc context conflictId factId reason resolvedAt queuedAt => do
    let effective ← authorize rt svc context
    let (s, _) ←
      Enfold.resolveConflict rt svc effective s conflictId factId reason resolvedAt queuedAt
    .ok s
  | .eraseFact factId requestedBy reason erasedAt => do
    let (s, _) ← Enfold.eraseFact rt s factId requestedBy reason erasedAt
    .ok s
  | .mergeClusters plan least most fraction => executeMerge s plan least most fraction
  | .storeEmbedding embedding => .ok { s with embeddings := s.embeddings ++ [embedding] }

variable {rt} in
def history (ops : List (Operation rt)) : Store := Run.run Operation.perform Store.empty ops

variable {rt} in
def Operation.isMerge : Operation rt → Bool
  | .mergeClusters .. => true
  | _ => false

variable {rt} in
def Operation.isErasure : Operation rt → Bool
  | .eraseFact .. => true
  | _ => false

end Enfold
