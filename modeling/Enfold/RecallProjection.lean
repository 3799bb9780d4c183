import Enfold.Foundation.Fallible
import Enfold.Foundation.Fitting
import Enfold.JsonSize
import Enfold.SlotKeys

/-! What the recall tool makes of a daemon's answer: the facts that fit the token budget and a receipt
for the open conflicts, the receipts cut only when no fact is left. -/
namespace Enfold

open Fallible Fitting

/-! ## Decoded values -/

inductive ProjectionFault where
  | typeError
  | valueError
  deriving DecidableEq, Repr

namespace Json

-- `bool(value)`
def truthy : Json → Bool
  | .null => false
  | .bool b => b
  | .int i => i != 0
  | .float x => x != 0
  | .str text => text != ""
  | .arr items => !items.isEmpty
  | .obj members => !members.isEmpty

-- `value or other`
def either (value other : Json) : Json := if value.truthy then value else other

-- `value.get(key)`
def member (key : String) (value : Json) : Json := (value.get key).getD .null

def isObject : Json → Bool
  | .obj _ => true
  | _ => false

def iterated : Json → Except ProjectionFault (List Json)
  | .arr items => .ok items
  | .str text => .ok (text.toList.map fun c => .str (String.singleton c))
  | .obj members => .ok (members.map fun entry => .str entry.1)
  | _ => .error .typeError

-- the mappings a loop over `value or ()` meets
def mappings (value : Json) : Except ProjectionFault (List Json) := do
  let rows ← if value.truthy then value.iterated else .ok []
  .ok (rows.filter isObject)

-- `int(value)`, with the interpreter's reading of a text
def toInt (readInteger : String → Option Int) : Json → Except ProjectionFault Int
  | .int i => .ok i
  | .bool b => .ok (if b then 1 else 0)
  | .float x => .ok (x.num.tdiv x.den)
  | .str text => match readInteger text with
    | some i => .ok i
    | none => .error .valueError
  | _ => .error .typeError

end Json

-- `_review_status`
def recallReviewStatus (value : Json) : String :=
  if value = .str "confirmed" || value = .str "human_confirmed" then "confirmed"
  else if value = .str "corrected" || value = .str "human_corrected" then "corrected"
  else "unreviewed"

def minTokenBudget : Nat := 128

def maxTokenBudget : Nat := 2048

/-! ## Rows -/

structure RecallFact where
  id : Int
  text : String
  review : String
  source : Json
  evidence : Int
  deriving DecidableEq, Repr

def RecallFact.json (f : RecallFact) : Json :=
  .obj [("id", .int f.id), ("text", .str f.text), ("review", .str f.review), ("source", f.source),
    ("evidence", .int f.evidence)]

structure RecallReceipt where
  id : Json
  subject : Json
  predicate : Json
  memberFactIds : Option (List Int)
  summary : Option Json
  deriving DecidableEq, Repr

def RecallReceipt.json (receipt : RecallReceipt) : Json :=
  .obj ([("id", receipt.id), ("subject", receipt.subject), ("predicate", receipt.predicate)] ++
    (receipt.memberFactIds.map fun ids => ("member_fact_ids", Json.arr (ids.map Json.int))).toList ++
    (receipt.summary.map fun text => ("summary", text)).toList)

section Rows
variable (readInteger : String → Option Int)

def projectRecallFact (fact : Json) : Except ProjectionFault (Option RecallFact) :=
  if (fact.member "content_omitted").truthy || fact.get "prompt_eligible" = some (.bool false) then .ok none
  else if (fact.member "conflict_group").truthy then .ok none
  else match (fact.member "content").either (fact.member "text"), (fact.get "fact_id").getD (fact.member "id") with
    | _, .null => .ok none
    | .str text, factId =>
      if text = "" then .ok none
      else do
        let attribution := if (fact.member "attribution").isObject then fact.member "attribution" else .obj []
        let id ← factId.toInt readInteger
        let evidence ← ((attribution.member "evidence_count").either (.int 0)).toInt readInteger
        .ok (some {
          id := id
          text := text
          review := recallReviewStatus ((fact.member "review_status").either (fact.member "correction_status"))
          source := (attribution.member "source_type").either (.str "unknown")
          evidence := evidence })
    | _, _ => .ok none

-- `isinstance(item, int) and not isinstance(item, bool)`
def integers (items : List Json) : List Int :=
  items.filterMap fun
    | .int i => some i
    | _ => none

def projectConflictReceipt (raw : Json) : Except ProjectionFault (Option RecallReceipt) :=
  let conflictId := (raw.member "conflict_id").either (raw.member "id")
  if conflictId.truthy then do
    let members ← if (raw.member "member_fact_ids").truthy then (raw.member "member_fact_ids").iterated else .ok []
    .ok (some {
      id := conflictId
      subject := (raw.member "subject_key").either (raw.member "subject")
      predicate := (raw.member "predicate_key").either (raw.member "predicate")
      memberFactIds := some (integers members)
      summary := some ((raw.member "summary").either (.str "")) })
  else .ok none

def recallFacts (result : Json) : Except ProjectionFault (List RecallFact) := do
  let rows ← (result.member "facts").mappings
  let projected ← rows.mapM (projectRecallFact readInteger)
  .ok projected.reduceOption

def recallReceipts (result : Json) : Except ProjectionFault (List RecallReceipt) := do
  let rows ← (result.member "open_conflicts").mappings
  let projected ← rows.mapM projectConflictReceipt
  .ok projected.reduceOption

end Rows

/-! ## Answers -/

def emptyRecallMessage : String :=
  "No supporting memory found. This does not mean the claim is false. " ++
    "If the user wants persistent shared memory, offer to remember one " ++
    "durable fact and wait for agreement."

structure RecallPayload where
  facts : List RecallFact
  truncated : Bool
  openConflicts : List RecallReceipt
  deriving DecidableEq, Repr

def RecallPayload.json (p : RecallPayload) : Json :=
  .obj ([("facts", .arr (p.facts.map RecallFact.json)), ("truncated", .bool p.truncated), ("next_cursor", .null)] ++
    (if p.openConflicts = [] then [] else [("open_conflicts", .arr (p.openConflicts.map RecallReceipt.json))]))

inductive RecallAnswer where
  | empty (truncated : Bool)
  | found (payload : RecallPayload)
  deriving DecidableEq, Repr

namespace RecallAnswer

def json : RecallAnswer → Json
  | .empty truncated =>
    .obj [("facts", .arr []), ("truncated", .bool truncated), ("message", .str emptyRecallMessage)]
  | .found payload => payload.json

def facts : RecallAnswer → List RecallFact
  | .empty _ => []
  | .found payload => payload.facts

def openConflicts : RecallAnswer → List RecallReceipt
  | .empty _ => []
  | .found payload => payload.openConflicts

def truncated : RecallAnswer → Bool
  | .empty truncated => truncated
  | .found payload => payload.truncated

end RecallAnswer

namespace RecallPayload
variable (floats : FloatText) (budget : Nat)

def exceeds (p : RecallPayload) : Bool := budget < estimateJsonTokens floats p.json

-- `_fit_items`: the flag of the payload changes only behind its loop
def fitFacts (p : RecallPayload) : RecallPayload :=
  let kept := fitItems (fun facts => !({ p with facts := facts } : RecallPayload).exceeds floats budget) p.facts
  { p with facts := kept, truncated := p.truncated || kept.length != p.facts.length }

def dropReceipt (p : RecallPayload) : RecallPayload :=
  { p with openConflicts := p.openConflicts.dropLast, truncated := true }

-- for at most as many receipts as the first argument
def dropReceipts : Nat → RecallPayload → RecallPayload
  | 0, p => p
  | n + 1, p =>
    if 1 < p.openConflicts.length && p.exceeds floats budget then dropReceipts n p.dropReceipt else p

def amendFirst (amend : RecallReceipt → RecallReceipt) (p : RecallPayload) : RecallPayload :=
  match p.openConflicts with
  | [] => p
  | receipt :: rest => { p with openConflicts := amend receipt :: rest, truncated := true }

def trimReceipt (p : RecallPayload) : RecallPayload :=
  let p := if p.exceeds floats budget then p.amendFirst ({ · with memberFactIds := none }) else p
  if p.exceeds floats budget then p.amendFirst ({ · with summary := none }) else p

def fitted (p : RecallPayload) : RecallPayload :=
  let p := p.fitFacts floats budget
  (p.dropReceipts floats budget p.openConflicts.length).trimReceipt floats budget

end RecallPayload

def projectRecall (floats : FloatText) (readInteger : String → Option Int) (result : Json) (budget : Nat) :
    Except ProjectionFault RecallAnswer := do
  let facts ← recallFacts readInteger result
  let conflicts ← recallReceipts result
  let truncated := (result.member "output_truncated").truthy
  if facts = [] && conflicts = [] then .ok (.empty truncated)
  else
    let fitted := RecallPayload.fitted floats budget ⟨facts, truncated, conflicts⟩
    if fitted.facts = [] && fitted.openConflicts = [] then .ok (.empty true) else .ok (.found fitted)

end Enfold
