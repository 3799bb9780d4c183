import Enfold.ExtractionJobs
import Enfold.Foundation.Run
import Enfold.JsonText

/-! The transcript queue's own claims: the handle a claim gives out, and the statements that take one.
Each call of two statements is given the rows its first one read, which may be of an earlier moment; what
the second one changes is guarded by its own conditions on the rows as they then are. -/
namespace Enfold

open Fallible

/-- `_ClaimedLeaseOwner`: a claim's owner and the end of its lease. -/
structure ClaimedLeaseOwner where
  owner : String
  leaseUntil : Rat
  deriving DecidableEq, Repr

/-- What the statements take as the owner of a lease; a text carries no end. -/
inductive LeaseOwner where
  | plain (owner : String)
  | claimed (handle : ClaimedLeaseOwner)
  deriving DecidableEq, Repr

/-- `_lease_fence`. -/
def leaseFence : Option LeaseOwner → Option String × Option Rat
  | none => (none, none)
  | some (.plain owner) => (some owner, none)
  | some (.claimed handle) => (some handle.owner, some handle.leaseUntil)

-- `id = ? AND status = ? AND lease_owner = ? AND (? IS NULL OR lease_until = ?)`
def QueueRow.fencedBy (rowId : Nat) (leaseOwner : Option LeaseOwner) (row : QueueRow) : Bool :=
  row.id = rowId && row.status = .processing &&
    ((leaseFence leaseOwner).1.any fun owner => row.leaseOwner = some owner) &&
    ((leaseFence leaseOwner).2.all fun expiry => row.leaseUntil = some expiry)

structure ClaimedRow where
  id : Nat
  payload : String
  attempts : Nat
  leaseOwner : ClaimedLeaseOwner
  leaseUntil : Rat
  proposalJson : Option String
  roleStructured : Bool
  deriving DecidableEq, Repr

/-- The queue's surroundings: how the sum of two clock readings is rounded to a double, and
`strftime('%s', created_at)`. -/
structure ExtractQueue where
  rt : Runtime
  floats : FloatText
  round : Rat → Rat
  epoch : String → Option Rat

namespace ExtractQueue
variable (q : ExtractQueue)

def maxRowAgeSeconds : Rat := 48 * 3600
def ageCapNote : String := " (dead: 48h age cap)"

def ageExceeded (createdAt : String) (now : Rat) : Bool :=
  (q.epoch createdAt).any fun created => decide (maxRowAgeSeconds ≤ now - created)

def payloadHash (payload : String) (roleStructured : Bool) : String :=
  q.rt.sha256 ((if roleStructured then "role-structured-v1\x00" else "") ++ payload)

-- `(error or "")[:500]`
def errorMessage (error : Option String) : String := String.ofList ((error.getD "").toList.take 500)

/-! ## Proposals -/

abbrev LegacyProposal := List (String × String)

def LegacyProposal.json (proposal : LegacyProposal) : Json := .obj (proposal.map fun (key, value) => (key, .str value))

def credentialShapedProposal (proposal : LegacyProposal) : Except Raised Bool := do
  let encoded := String.ofList (print q.floats proposal.json.sorted)
  let content := Text.strip ((proposal.lookup "content").getD "")
  let request ← { WriteRequest.plain "legacy-extraction-snapshot-screen"
      (if content = "" then "invalid proposal" else content) "automatic_extraction" with
    category := (proposal.lookup "category").getD "general"
    tags := (proposal.lookup "tags").getD "" : WriteRequest }.postInit
  .ok (defaultCredentialScreen q.rt request [encoded]).isSome

def saveProposals (rows : List QueueRow) (rowId : Nat) (proposals : List LegacyProposal)
    (leaseOwner : Option LeaseOwner) : Except Raised (List QueueRow × Bool) := do
  let shaped ← proposals.mapM q.credentialShapedProposal
  let safe := ((proposals.zip shaped).filter fun (_, credential) => !credential).map Prod.fst
  let encoded := q.rt.dumps (.arr (safe.map LegacyProposal.json))
  let fenced := QueueRow.fencedBy rowId leaseOwner
  .ok (Table.amend fenced (fun row => { row with proposalJson := row.proposalJson.or (some encoded) }) rows,
    Table.matching fenced rows = 1)

/-! ## Ends of a claim -/

def markDone (rows : List QueueRow) (rowId : Nat) (leaseOwner : Option LeaseOwner) : List QueueRow × Bool :=
  let fenced := QueueRow.fencedBy rowId leaseOwner
  (Table.remove fenced rows, Table.matching fenced rows = 1)

-- the check on the row a failing call has read
def lostClaim (leaseOwner : Option LeaseOwner) (row : QueueRow) : Bool :=
  row.status ≠ .processing || row.leaseOwner ≠ (leaseFence leaseOwner).1 ||
    (leaseFence leaseOwner).2.any fun expiry => row.leaseUntil ≠ some expiry

def unleased (status : QueueStatus) (row : QueueRow) : QueueRow :=
  { row with status, leaseOwner := none, leaseUntil := none }

def markFailed (seen rows : List QueueRow) (rowId : Nat) (error : Option String) (maxAttempts : Nat)
    (leaseOwner : Option LeaseOwner) (now : Rat) : List QueueRow × Nat :=
  match Table.find QueueRow.id rowId seen with
  | none => (rows, 0)
  | some row =>
    if lostClaim leaseOwner row then (rows, 0)
    else
      let attempts := row.attempts + 1
      let aged := q.ageExceeded row.createdAt now
      let message := errorMessage error ++ if aged then ageCapNote else ""
      let status : QueueStatus := if aged || maxAttempts ≤ attempts then .dead else .pending
      let fenced (other : QueueRow) : Bool := other.fencedBy rowId leaseOwner && other.attempts = row.attempts
      (Table.amend fenced (fun other => { unleased status other with attempts, lastError := some message }) rows,
        if Table.matching fenced rows = 1 then attempts else 0)

def markQuotaFailed (seen rows : List QueueRow) (rowId : Nat) (error : Option String) (notBefore : Rat)
    (leaseOwner : Option LeaseOwner) (now : Rat) : List QueueRow × Bool :=
  match Table.find QueueRow.id rowId seen with
  | none => (rows, false)
  | some row =>
    if lostClaim leaseOwner row then (rows, false)
    else
      let message := errorMessage error
      let fenced (other : QueueRow) : Bool := other.fencedBy rowId leaseOwner && other.attempts = row.attempts
      if q.ageExceeded row.createdAt now then
        (Table.amend fenced (fun other => { unleased .dead other with
          lastError := some (message ++ ageCapNote), notBefore := none }) rows, false)
      else
        (Table.amend fenced (fun other => { unleased .pending other with
          lastError := some message, notBefore := some notBefore }) rows, Table.matching fenced rows = 1)

def releaseClaim (rows : List QueueRow) (rowId : Nat) (leaseOwner : Option LeaseOwner) : List QueueRow × Bool :=
  let fenced := QueueRow.fencedBy rowId leaseOwner
  (Table.amend fenced (unleased .pending) rows, Table.matching fenced rows = 1)

/-! ## Claiming -/

/-- How one call of `next_pending` asks for a row; `fresh` is the owner it makes up without one. -/
structure ClaimCall where
  maxAttempts : Nat
  excludeIds : List Nat
  leaseOwner : Option String
  leaseSeconds : Rat
  now : Rat
  fresh : String

-- `lease_owner or f"…"`
def ClaimCall.owner (call : ClaimCall) : String := (call.leaseOwner.filter (· ≠ "")).getD call.fresh

def handle (call : ClaimCall) : ClaimedLeaseOwner := ⟨call.owner, q.round (call.now + call.leaseSeconds)⟩

def ClaimCall.candidate (call : ClaimCall) (seen : List QueueRow) : Option QueueRow :=
  firstQueued call.maxAttempts call.now (seen.filter fun row => !call.excludeIds.contains row.id)

def ClaimCall.due (call : ClaimCall) (rowId : Nat) (row : QueueRow) : Bool :=
  row.id = rowId && row.due call.maxAttempts call.now

def claim (call : ClaimCall) (row : QueueRow) : QueueRow :=
  { row with
    status := .processing
    leaseOwner := some (q.handle call).owner
    leaseUntil := some (q.handle call).leaseUntil }

def nextPending (seen rows : List QueueRow) (call : ClaimCall) : List QueueRow × Option ClaimedRow :=
  match call.candidate seen with
  | none => (rows, none)
  | some row =>
    let due := call.due row.id
    if Table.matching due rows ≠ 1 then (rows, none)
    else
      let claimed := Table.amend due (q.claim call) rows
      (claimed, (Table.find QueueRow.id row.id claimed).map fun found =>
        ⟨found.id, found.payload, found.attempts, q.handle call, (q.handle call).leaseUntil, found.proposalJson,
          found.payloadHash = some (q.payloadHash found.payload true)⟩)

end ExtractQueue
end Enfold
