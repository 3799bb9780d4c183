import Enfold.Foundation.Base64
import Enfold.RecallBudget

/-! Pages of the inspection and review tools: the rows behind a cursor cut to the token budget, and a
cursor to the rows behind the page. -/
namespace Enfold

open Fallible Fitting

structure MCPBridgeError where
  code : String
  message : String
  field : String
  nextAction : String
  deriving DecidableEq, Repr

inductive ToolFault where
  | projection (fault : ProjectionFault)
  | bridge (error : MCPBridgeError)
  deriving DecidableEq, Repr

/-! ## Cursors -/

/-- What the interpreter makes of bytes that are not ASCII text, and of a JSON text the strict reader
refuses (a repeated key, a constant that is no number). -/
structure CursorReader where
  wide : List Nat → Option String
  lenient : String → Option Json

def CursorReader.text (reader : CursorReader) (bytes : List Nat) : Option String :=
  if bytes.all fun b => 0 < b && b < 128 then some (String.ofList (bytes.map Char.ofNat)) else reader.wide bytes

def CursorReader.loads (reader : CursorReader) (floats : FloatText) (text : String) : Option Json :=
  match Enfold.loads floats text with
  | .ok value => some value
  | .error _ => reader.lenient text

-- ASCII throughout
def encodeCursor (floats : FloatText) (offset : Nat) : String :=
  String.ofList (Base64.encode ((print floats (.obj [("o", .int offset)])).map Char.toNat))

def invalidCursor : MCPBridgeError where
  code := "invalid_params"
  message := "cursor is not a valid continuation"
  field := "cursor"
  nextAction := "Call the tool without a cursor, then pass the returned next_cursor."

def readOffset (value : Json) : Option Nat :=
  match value.get "o" with
  | some (.int offset) => if offset < 0 then none else some offset.toNat
  | _ => none

def readCursor (reader : CursorReader) (floats : FloatText) (cursor : String) : Option Nat := do
  let bytes ← if cursor.toList.all fun c => c.toNat < 128 then Base64.decode cursor.toList else none
  let text ← reader.text bytes
  let value ← reader.loads floats text
  readOffset value

def decodeCursor (reader : CursorReader) (floats : FloatText) : Option String → Except MCPBridgeError Nat
  | none => .ok 0
  | some cursor =>
    if cursor = "" then .ok 0
    else match readCursor reader floats cursor with
      | some offset => .ok offset
      | none => .error invalidCursor

/-! ## Pages -/

structure Page where
  items : List Json
  truncated : Bool
  nextCursor : Option String
  deriving DecidableEq, Repr

def Page.json (page : Page) : Json :=
  .obj [("items", .arr page.items), ("truncated", .bool page.truncated),
    ("next_cursor", (page.nextCursor.map Json.str).getD .null)]

section Pages
variable (reader : CursorReader) (floats : FloatText) (budget : Nat)

def Page.exceeds (page : Page) : Bool := budget < estimateJsonTokens floats page.json

-- the page with the cursor behind it
def turnedPage (offset total : Nat) (truncated : Bool) (items : List Json) : Page :=
  let remaining := decide (offset + items.length < total)
  ⟨items, truncated || remaining, if remaining then some (encodeCursor floats (offset + items.length)) else none⟩

-- the second loop of `_page_items`, the items behind the end first
def settleReversed (offset total : Nat) : Bool → List Json → Page
  | truncated, [] => turnedPage floats offset total truncated []
  | truncated, last :: rest =>
    let page := turnedPage floats offset total truncated (last :: rest).reverse
    if page.exceeds floats budget then settleReversed offset total true rest else page

def pageItems (items : List Json) (cursor : Option String) (extra : Bool) : Except MCPBridgeError Page := do
  let offset ← decodeCursor reader floats cursor
  let page := items.drop offset
  let kept := fitItems (fun items => !(⟨items, extra, none⟩ : Page).exceeds floats budget) page
  .ok (settleReversed floats budget offset items.length (extra || kept.length != page.length) kept.reverse)

end Pages

/-! ## Rows -/

def projectEvidenceRow (row : Json) : Json :=
  .obj [("source", (row.member "source_type").either (.str "unknown")),
    ("by", (row.member "asserted_by").either (row.member "performed_by")),
    ("observed_at", row.member "observed_at"),
    ("excerpt", ((row.member "evidence_excerpt").either (row.member "content")).either (.str "")),
    ("relation", (row.member "relation").either (.str "supports"))]

def projectHistoryRow (row : Json) : Json :=
  .obj ([("id", row.member "fact_id"), ("text", (row.member "content").either (.str "")),
    ("valid_from", row.member "valid_from"), ("invalid_at", row.member "invalid_at"),
    ("replaced_by", row.member "superseded_by"),
    ("review", .str (recallReviewStatus (row.member "correction_status")))] ++
    (if (row.get "valid_to").isSome then [("valid_to", row.member "valid_to")] else []) ++
    (if (row.get "expired_at").isSome then [("expired_at", row.member "expired_at")] else []))

def inspectRows (result : Json) (view : String) : Except ProjectionFault (List Json) :=
  if view = "evidence" then do
    let rows ← (result.member "evidence").mappings
    .ok (rows.map projectEvidenceRow)
  else do
    let rows ← (result.member "facts").mappings
    .ok (rows.map projectHistoryRow)

def projectChoice (readInteger : String → Option Int) (member : Json) : Except ProjectionFault (Option Json) :=
  if member.member "fact_id" = .null then .ok none
  else do
    let factId ← (member.member "fact_id").toInt readInteger
    .ok (some (.obj [("fact_id", .int factId),
      ("text", ((member.member "content").either (member.member "text")).either (.str ""))]))

def projectReviewRow (readInteger : String → Option Int) (raw : Json) : Except ProjectionFault Json := do
  let members ← (raw.member "members").mappings
  let choices ← members.mapM (projectChoice readInteger)
  .ok (.obj [("kind", .str "conflict"), ("id", raw.member "conflict_id"),
    ("subject", (raw.member "subject_key").either (raw.member "subject")),
    ("predicate", (raw.member "predicate_key").either (raw.member "predicate")),
    ("choices", .arr choices.reduceOption)])

def reviewRows (readInteger : String → Option Int) (result : Json) : Except ProjectionFault (List Json) := do
  let rows ← (result.member "conflicts").mappings
  rows.mapM (projectReviewRow readInteger)

/-! ## Tools -/

inductive PagedTool where
  | inspect (view : String)
  | review

section Tools
variable (reader : CursorReader) (floats : FloatText) (readInteger : String → Option Int)

def projectInspect (result : Json) (view : String) (cursor : Option String) (budget : Nat) :
    Except ToolFault Page := do
  let rows ← (inspectRows result view).mapError .projection
  (pageItems reader floats budget rows cursor (result.member "output_truncated").truthy).mapError .bridge

def projectReview (result : Json) (cursor : Option String) (budget : Nat) : Except ToolFault Page := do
  let rows ← (reviewRows readInteger result).mapError .projection
  (pageItems reader floats budget rows cursor (result.member "output_truncated").truthy).mapError .bridge

variable (result : Json)

def PagedTool.rows : PagedTool → Except ProjectionFault (List Json)
  | .inspect view => inspectRows result view
  | .review => reviewRows readInteger result

def PagedTool.call : PagedTool → Option String → Nat → Except ToolFault Page
  | .inspect view, cursor, budget => projectInspect reader floats result view cursor budget
  | .review, cursor, budget => projectReview reader floats readInteger result cursor budget

end Tools
end Enfold
