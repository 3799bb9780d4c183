import Enfold.Service

/-! One claimed extraction job: the proposals of its snapshot are written as one batch, a batch
the policy refused is retried with the proposals it answered for, and the job's queue row goes in
the transaction that commits. -/
namespace Enfold

open Fallible

variable (rt : Runtime)

structure ExtractionLease where
  rowId : Nat
  workerId : String
  leaseToken : String
  deriving DecidableEq, Repr

def QueueRow.leasedBy (lease : ExtractionLease) (row : QueueRow) : Bool :=
  row.id = lease.rowId && row.status = .processing && row.leaseOwner = some lease.workerId &&
    row.leaseToken = some lease.leaseToken

/-- `_delete_claimed_row`. -/
def deleteClaimedRow (lease : ExtractionLease) (s : Store) : Except Raised Store := do
  ensure (Table.matching (QueueRow.leasedBy lease) s.queue = 1)
    ⟨.runtimeError, "extraction lease was lost before completion"⟩
  .ok { s with queue := Table.remove (QueueRow.leasedBy lease) s.queue }

/-- A prepared proposal: the write behind `extract-<row>-<index>`. -/
structure Proposal where
  index : Nat
  item : WriteItem rt

structure Attempt where
  pending : List (Proposal rt)
  batch : WriteBatchOutcome

structure Completed where
  store : Store
  writes : Nat
  attempts : List (Attempt rt)

variable {rt} in
def Attempt.answered (attempt : Attempt rt) : List (Proposal rt × WriteOutcome) :=
  attempt.pending.zip attempt.batch.outcomes

variable {rt} in
/-- `survivors`. -/
def Attempt.survivors (attempt : Attempt rt) : List (Proposal rt) :=
  (attempt.answered.filter fun answer => !answer.2.refused).map Prod.fst

theorem survivorsLength (attempt : Attempt rt) :
    attempt.survivors.length ≤ attempt.pending.length := by
  simp only [Attempt.survivors, Attempt.answered, List.length_map]
  refine (List.length_filter_le _ _).trans ?_
  simp

abbrev Readings := Nat → Nat → Clock

def timed (readings : Readings) (attempt : Nat) (pending : List (Proposal rt)) :
    List (TimedWrite rt) :=
  pending.map fun proposal => ⟨readings attempt proposal.index, proposal.item⟩

/-- The `while pending` loop of `process_one`. -/
def drainPending (svc : WriteService) (context : ConnectionContext) (lease : ExtractionLease)
    (readings : Readings) (s : Store) (round : Nat) (pending : List (Proposal rt)) :
    Except Raised (Completed rt) :=
  if pending = [] then do
    let s ← deleteClaimedRow lease s
    .ok ⟨s, 0, []⟩
  else
    match handleWriteBatch rt svc context s (timed rt readings round pending)
        (deleteClaimedRow lease) with
    | .error raised => .error raised
    | .ok (done, batch) =>
      if batch.committed then .ok ⟨done, batch.outcomes.length, [⟨pending, batch⟩]⟩
      else if h : (Attempt.survivors ⟨pending, batch⟩).length = pending.length then
        .error ⟨.runtimeError, "write batch rolled back without policy rejection"⟩
      else do
        let rest ← drainPending svc context lease readings s (round + 1)
          (Attempt.survivors ⟨pending, batch⟩)
        .ok { rest with attempts := ⟨pending, batch⟩ :: rest.attempts }
termination_by pending.length
decreasing_by
  have fewer := survivorsLength rt ⟨pending, batch⟩
  exact lt_of_le_of_ne fewer h

def snapshotProposals (items : List (WriteItem rt)) : List (Proposal rt) :=
  items.zipIdx.map fun (item, index) => ⟨index, item⟩

/-- The writing half of `process_one`, over a snapshot whose requests are prepared. -/
def processSnapshot (svc : WriteService) (context : ConnectionContext) (lease : ExtractionLease)
    (readings : Readings) (s : Store) (items : List (WriteItem rt)) : Except Raised (Completed rt) :=
  drainPending rt svc context lease readings s 0 (snapshotProposals rt items)

theorem snapshotUnique (items : List (WriteItem rt)) :
    ((snapshotProposals rt items).map Proposal.index).Nodup := by
  have indexes : (snapshotProposals rt items).map Proposal.index = List.range items.length := by
    rw [snapshotProposals, List.map_map, List.range_eq_range', ← List.zipIdx_map_snd 0 items]
    rfl
  rw [indexes]
  exact List.nodup_range

end Enfold
