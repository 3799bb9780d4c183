import Enfold.Foundation.Fitting
import Enfold.ContextPacking
import Enfold.JsonSize

/-! The read handlers' responses as they are cut to their caps: rows popped or not taken at all, texts
shortened, and a flag for it. What the store and the retriever answer is given. -/
namespace Enfold.ReadResponses

open Fallible Fitting

structure OutputBounds where
  searchMaxResults : Nat
  contextMaxResults : Nat
  maxFactChars : Nat
  searchMaxTotalChars : Nat
  contextMaxTotalChars : Nat
  evidenceMaxTotalBytes : Nat
  historyMaxTotalBytes : Nat
  conflictsMaxTotalBytes : Nat
  contextMmrLambda : Rat
  results : 1 ≤ searchMaxResults ∧ 1 ≤ contextMaxResults
  marker : truncationMarker.length ≤ maxFactChars
  characters : 512 ≤ searchMaxTotalChars ∧ 512 ≤ contextMaxTotalChars
  bytes : 512 ≤ evidenceMaxTotalBytes ∧ 512 ≤ historyMaxTotalBytes ∧ 512 ≤ conflictsMaxTotalBytes
  lambda : 0 ≤ contextMmrLambda ∧ contextMmrLambda ≤ 1

/-! ## Shortened texts -/

-- `item[key] = value`
def setMember (key : String) (value : Json) (item : JsonObject) : JsonObject :=
  if key ∈ item.map Prod.fst then item.map fun entry => if entry.1 = key then (key, value) else entry
  else item ++ [(key, value)]

def truncateTextField (item : JsonObject) (field : String) (maximum : Nat) : JsonObject × Bool :=
  match item.lookup field with
  | some (.str content) =>
    if content.length ≤ maximum then (item, false)
    else
      let cut := content.toList.take (maximum - truncationMarker.length)
      let cut := String.ofList (packRstrip cut) ++ truncationMarker
      (setMember (field ++ "_truncated") (.bool true) (setMember field (.str cut) item), true)
  | _ => (item, false)

def truncateFactContent (fact : JsonObject) (maximum : Nat) : JsonObject × Bool :=
  truncateTextField fact "content" maximum

def receiptAsDict (receipt : ConflictReceipt) : Json :=
  .obj [("conflict_id", .str receipt.conflictId), ("scope", .str receipt.scope),
    ("subject_key", .str receipt.subjectKey), ("predicate_key", .str receipt.predicateKey),
    ("member_fact_ids", .arr (receipt.memberFactIds.map Json.int)), ("summary", .str receipt.summary)]

/-! ## Search -/

structure SearchResponse where
  facts : List JsonObject
  retrieval : JsonObject
  outputTruncated : Bool
  openConflicts : List ConflictReceipt

def SearchResponse.json (r : SearchResponse) : Json :=
  .obj [("facts", .arr (r.facts.map Json.obj)), ("retrieval", .obj r.retrieval),
    ("output_truncated", .bool r.outputTruncated), ("open_conflicts", .arr (r.openConflicts.map receiptAsDict))]

-- the facts the retriever found, its metadata, and the receipts that match the query
structure SearchReads where
  rows : List JsonObject
  metadata : JsonObject
  receipts : List ConflictReceipt

section Responses
variable (floats : FloatText) (bounds : OutputBounds)

def SearchResponse.within (r : SearchResponse) : Bool :=
  r.json.size floats .characters ≤ bounds.searchMaxTotalChars

-- behind the facts the metadata goes
def SearchResponse.cutRetrieval (r : SearchResponse) : SearchResponse :=
  let r := if r.within floats bounds then r else { r with retrieval := [("output_truncated", .bool true)] }
  if r.within floats bounds then r else { r with retrieval := [] }

-- the facts before the loop, and what is known to be missing
def searchFacts (requestedLimit : Nat) (reads : SearchReads) : List JsonObject × Bool :=
  let limit := min requestedLimit bounds.searchMaxResults
  let cut := (reads.rows.take limit).map (truncateFactContent · bounds.maxFactChars)
  (cut.map Prod.fst, cut.any Prod.snd || limit < requestedLimit || limit < reads.rows.length)

def searchResponse (requestedLimit : Nat) (reads : SearchReads) : SearchResponse :=
  let (facts, truncated) := searchFacts bounds requestedLimit reads
  let (kept, truncated) := fitFlagged
    (fun truncated facts => SearchResponse.within floats bounds ⟨facts, reads.metadata, truncated, reads.receipts⟩)
    truncated facts.reverse
  SearchResponse.cutRetrieval floats bounds ⟨kept, reads.metadata, truncated, reads.receipts⟩

/-! ## Evidence and history -/

/-- The loop over a cursor: at most `room` rows, each taken while its bytes are within the cap. -/
def takeRows (cap : Nat) (cut : JsonObject → JsonObject × Bool) :
    (room used : Nat) → (taken : List JsonObject) → (truncated : Bool) → List JsonObject → List JsonObject × Bool
  | _, _, taken, truncated, [] => (taken, truncated)
  | 0, _, taken, _, _ :: _ => (taken, true)
  | room + 1, used, taken, truncated, row :: rest =>
    let (item, shortened) := cut row
    let bytes := (Json.obj item).size floats .bytes + (if taken = [] then 0 else 1)
    if cap < used + bytes then (taken, true)
    else takeRows cap cut room (used + bytes) (taken ++ [item]) (truncated || shortened) rest

structure EvidenceResponse where
  fact : JsonObject
  evidence : List JsonObject
  outputTruncated : Bool

def EvidenceResponse.json (r : EvidenceResponse) : Json :=
  .obj [("fact", .obj r.fact), ("evidence", .arr (r.evidence.map Json.obj)),
    ("output_truncated", .bool r.outputTruncated)]

def truncateEvidence (maximum : Nat) (item : JsonObject) : JsonObject × Bool :=
  let (item, content) := truncateTextField item "content" maximum
  let (item, excerpt) := truncateTextField item "evidence_excerpt" maximum
  (item, content || excerpt)

def evidenceResponse (limit factId : Nat) (fact : JsonObject) (rows : List JsonObject) : EvidenceResponse :=
  let (fact, truncated) := truncateFactContent fact bounds.maxFactChars
  let response : EvidenceResponse := ⟨fact, [], truncated⟩
  let used := response.json.size floats .bytes
  if bounds.evidenceMaxTotalBytes < used then
    ⟨[("fact_id", .int factId), ("output_truncated", .bool true)], [], true⟩
  else
    let (evidence, truncated) := takeRows floats bounds.evidenceMaxTotalBytes
      (truncateEvidence bounds.maxFactChars) limit used [] truncated (rows.take (limit + 1))
    ⟨fact, evidence, truncated⟩

structure HistoryResponse where
  facts : List JsonObject
  outputTruncated : Bool

def HistoryResponse.json (r : HistoryResponse) : Json :=
  .obj [("facts", .arr (r.facts.map Json.obj)), ("output_truncated", .bool r.outputTruncated)]

def historyResponse (limit : Nat) (rows : List JsonObject) : HistoryResponse :=
  let used := (HistoryResponse.json ⟨[], false⟩).size floats .bytes
  let (facts, truncated) := takeRows floats bounds.historyMaxTotalBytes
    (truncateFactContent · bounds.maxFactChars) limit used [] false (rows.take (limit + 1))
  ⟨facts, truncated⟩

/-! ## Conflicts -/

structure ConflictRecord where
  conflictId : String
  scope : String
  subjectKey : String
  predicateKey : String
  memberFactIds : List Int
  detectedAt : String
  membersTruncated : Bool
  deriving DecidableEq, Repr

structure ConflictItem where
  record : ConflictRecord
  members : List JsonObject

def ConflictItem.json (item : ConflictItem) : Json :=
  .obj [("conflict_id", .str item.record.conflictId), ("scope", .str item.record.scope),
    ("subject_key", .str item.record.subjectKey), ("predicate_key", .str item.record.predicateKey),
    ("member_fact_ids", .arr (item.record.memberFactIds.map Json.int)),
    ("detected_at", .str item.record.detectedAt), ("members_truncated", .bool item.record.membersTruncated),
    ("members", .arr (item.members.map Json.obj))]

def ConflictItem.addMember (member : JsonObject) (item : ConflictItem) : ConflictItem :=
  { item with members := item.members ++ [member] }

def ConflictItem.retain (retained : List Int) (truncated : Bool) (item : ConflictItem) : ConflictItem :=
  { item with record := { item.record with memberFactIds := retained, membersTruncated := truncated } }

structure ConflictsResponse where
  conflicts : List ConflictItem
  outputTruncated : Bool

def ConflictsResponse.json (r : ConflictsResponse) : Json :=
  .obj [("conflicts", .arr (r.conflicts.map ConflictItem.json)), ("output_truncated", .bool r.outputTruncated)]

def maxConflictLimit : Nat := 200

def ConflictRecord.cutMembers (memberLimit : Nat) (record : ConflictRecord) : ConflictRecord :=
  { record with
    memberFactIds := record.memberFactIds.take memberLimit
    membersTruncated := memberLimit < record.memberFactIds.length }

-- one page of the visible conflicts of a scope, at most `memberLimit` members of each
def listStateConflicts (conflicts : List ConflictRecord) (limit offset memberLimit : Nat) : List ConflictRecord :=
  ((conflicts.drop offset).take limit).map (ConflictRecord.cutMembers memberLimit)

def readConflicts (limit memberLimit : Nat) :
    List ConflictRecord → List (List ConflictRecord) → List ConflictRecord
  | records, [] => records
  | records, scope :: scopes =>
    let remaining := limit + 1 - records.length
    if remaining = 0 then records
    else
      let page := listStateConflicts scope (min remaining maxConflictLimit) 0 memberLimit
      let records := records ++ page.take remaining
      let records := if page.length < remaining && page.length = maxConflictLimit then
        records ++ listStateConflicts scope 1 maxConflictLimit memberLimit else records
      readConflicts limit memberLimit records scopes

/-- The conflicts of the scopes and the facts of their members, as one read of the store has them. -/
structure ConflictReads where
  scopes : List (List ConflictRecord)
  membersById : Int → Option JsonObject
  covered : ∀ scope ∈ scopes, ∀ record ∈ scope, ∀ id ∈ record.memberFactIds, (membersById id).isSome
  uncut : ∀ scope ∈ scopes, ∀ record ∈ scope, record.membersTruncated = false

section Conflicts
variable (membersById : Int → Option JsonObject)

def ConflictsResponse.within (r : ConflictsResponse) : Bool :=
  r.json.size floats .bytes ≤ bounds.conflictsMaxTotalBytes

-- the members of one item behind the items done; its ids are replaced by the retained ones at the end
def addMembers (done : List ConflictItem) :
    List Int → (retained : List Int) → ConflictItem → (truncated : Bool) → ConflictItem × Bool
  | [], retained, item, truncated => (item.retain retained item.record.membersTruncated, truncated)
  | id :: ids, retained, item, truncated =>
    match membersById id with
    | none => addMembers done ids retained item truncated
    | some member =>
      let (member, shortened) := truncateFactContent member bounds.maxFactChars
      if ConflictsResponse.within floats bounds ⟨done ++ [item.addMember member], truncated⟩ then
        addMembers done ids (retained ++ [id]) (item.addMember member) (truncated || shortened)
      else (item.retain retained true, true)

def addConflicts : List ConflictItem → (truncated : Bool) → List ConflictRecord → ConflictsResponse
  | done, truncated, [] => ⟨done, truncated⟩
  | done, truncated, record :: records =>
    if ConflictsResponse.within floats bounds ⟨done ++ [⟨record, []⟩], truncated⟩ then
      let (item, truncated) :=
        addMembers floats bounds membersById done record.memberFactIds [] ⟨record, []⟩ truncated
      addConflicts (done ++ [item]) truncated records
    else ⟨done, true⟩

end Conflicts

def conflictsResponse (limit : Nat) (reads : ConflictReads) : ConflictsResponse :=
  let records := readConflicts limit (min limit bounds.searchMaxResults) [] reads.scopes
  let truncated := limit < records.length || (records.take limit).any ConflictRecord.membersTruncated
  addConflicts floats bounds reads.membersById [] truncated (records.take limit)

/-! ## Context -/

structure ContextReads where
  rows : List PackCandidate
  -- the whole row a candidate stands for
  columns : PackCandidate → JsonObject
  metadata : JsonObject
  receipts : List ConflictReceipt

def receiptCandidate (receipt : ConflictReceipt) : PackCandidate where
  factId := none
  content := none
  score := none
  attribution := none
  invalidAt := none
  supersededBy := none
  conflictGroup := none
  conflictId := some (.text receipt.conflictId)
  memberFactIds := receipt.memberFactIds
  correctionStatus := none
  memoryKind := none
  subjectKey := some receipt.subjectKey
  predicateKey := some receipt.predicateKey
  scope := some receipt.scope
  mmrEmbedding := none

-- a fact of the response; receipts among the facts are left out
def packedFactJson (columns : PackCandidate → JsonObject) : PackedEntry → Option Json
  | .fact p =>
    let fact := setMember "content" (.str p.content) (columns p.source)
    let fact := setMember "prompt_eligible" (.bool true) fact
    let fact := setMember "review_status" (.str (reviewStatus p.source)) fact
    let fact := setMember "context_truncated" (.bool p.contextTruncated) fact
    some (.obj (if p.contentTruncated then setMember "content_truncated" (.bool true) fact else fact))
  | .receipt _ => none
  | .redacted factId exclusionReason =>
    some (.obj [("fact_id", (factId.map Json.int).getD .null), ("prompt_eligible", .bool false),
      ("content_omitted", .bool true), ("exclusion_reason", .str exclusionReason)])

structure ContextResponse where
  pack : ContextPack
  retrieval : JsonObject
  outputTruncated : Bool

def tokenEstimateMethod : String := "unicode_chars_divided_by_four"

def ContextResponse.json (reads : ContextReads) (r : ContextResponse) : Json :=
  .obj [("markdown", .str r.pack.markdown),
    ("facts", .arr (r.pack.facts.filterMap (packedFactJson reads.columns))),
    ("abstained", .bool r.pack.abstained),
    ("token_estimate", .obj [("method", .str tokenEstimateMethod), ("budget", .int r.pack.tokenBudget),
      ("used", .int r.pack.tokenEstimate)]),
    ("omitted_fact_count", .int r.pack.omittedFactCount), ("unsafe_fact_count", .int r.pack.unsafeFactCount),
    ("prompt_unsafe_fact_count", .int r.pack.promptUnsafeFactCount), ("retrieval", .obj r.retrieval),
    ("output_truncated", .bool r.outputTruncated), ("open_conflicts", .arr (reads.receipts.map receiptAsDict))]

def ContextResponse.within (reads : ContextReads) (r : ContextResponse) : Bool :=
  (r.json reads).size floats .characters ≤ bounds.contextMaxTotalChars

def packShortened (pack : ContextPack) : Bool :=
  pack.facts.any fun entry => entry.promptFact.any PackedFact.contextTruncated

-- the loop of `_context`, the candidates behind the end first
def contextLoop {ε : Type} (pack : List PackCandidate → Except ε ContextPack) (reads : ContextReads) :
    (truncated : Bool) → List PackCandidate → Except ε ContextResponse
  | truncated, [] => do
    let packed ← pack []
    let response : ContextResponse := ⟨packed, reads.metadata, truncated || packShortened packed⟩
    if response.within floats bounds reads then .ok response
    else
      let response := { response with retrieval := [("output_truncated", .bool true)] }
      if response.within floats bounds reads then .ok response else .ok { response with retrieval := [] }
  | truncated, last :: rest => do
    let packed ← pack (last :: rest).reverse
    let response : ContextResponse := ⟨packed, reads.metadata, truncated || packShortened packed⟩
    if response.within floats bounds reads then .ok response else contextLoop pack reads true rest

def contextPack (rt : Runtime) (unicode : UnicodeText) (tokenBudget : Int) (reads : ContextReads)
    (candidates : List PackCandidate) : Except Raised ContextPack :=
  packContext rt unicode candidates tokenBudget (some bounds.maxFactChars) (some bounds.contextMaxResults)
    bounds.contextMmrLambda (reads.receipts.map receiptCandidate)

def contextResponse (rt : Runtime) (unicode : UnicodeText) (tokenBudget : Int) (reads : ContextReads) :
    Except Raised ContextResponse :=
  let cap := bounds.contextMaxResults * 4
  contextLoop floats bounds (contextPack bounds rt unicode tokenBudget reads) reads
    (cap < reads.rows.length) (reads.rows.take cap).reverse

end Responses
end Enfold.ReadResponses
