import Enfold.Json
import Enfold.Text

/-! What the store's code takes from outside its own source: the exceptions it raises and
the interpreter, SQLite and numpy functions it calls. The functions are explicit
parameters; every theorem below holds for whichever ones the process runs with. -/
namespace Enfold

/-- The class of a raised exception; `serviceRequest` carries the response code. -/
inductive ErrorKind where
  | runtimeError | stateSlotInvariantError
  | valueError | typeError | attributeError | indexError | overflowError
  | idempotencyConflict | clientIdentityConflict | sessionContextConflict
  | permissionError | unknownMemoryClient
  | integrityError | databaseError | storedEmbeddingError | urlError | timeoutError | osError
  | erasureError | guardRailError | schemaNeedsMigration
  | serviceRequest (code : String)
  | permanentExtraction (code : String)
  deriving DecidableEq, Repr

structure Raised where
  kind : ErrorKind
  message : String
  deriving DecidableEq, Repr

/-- `isinstance(exc, ValueError)` and `isinstance(exc, PermissionError)`. -/
def ErrorKind.isValueError : ErrorKind → Bool
  | .valueError | .idempotencyConflict | .clientIdentityConflict | .sessionContextConflict
  | .permanentExtraction _ => true
  | _ => false

def ErrorKind.isPermissionError : ErrorKind → Bool
  | .permissionError | .unknownMemoryClient => true
  | _ => false

/-- A parsed `datetime`: microseconds of the wall clock, and the offset when it has one. -/
structure Datetime where
  wall : Int
  offset : Option Int
  deriving DecidableEq, Repr

/-- The naive reading is taken as UTC, an aware one is converted. -/
def Datetime.instant (d : Datetime) : Int := d.wall - d.offset.getD 0

/-- One row of the full-text index over `facts`. -/
structure Document where
  rowid : Nat
  content : String
  tags : String
  deriving DecidableEq, Repr

structure Runtime where
  /-- `datetime.fromisoformat`; `none` is its `ValueError`. -/
  fromisoformat : String → Option Datetime
  /-- `re.compile(pattern).search(text) is not None`. -/
  search : String → String → Bool
  /-- `repr` of a text. -/
  repr : String → String
  /-- `hashlib.sha256(text.encode()).hexdigest()`. -/
  sha256 : String → String
  /-- `json.dumps(value, sort_keys=True, separators=(",", ":"))`. -/
  dumps : Json → String
  /-- Whether a text is a JSON list in the canonical dump of its own decoding. -/
  canonicalSnapshot : String → Bool
  /-- `facts_fts MATCH` with the terms joined by `OR`: the matching rows, best `bm25` first,
  equal ranks by row id. -/
  ftsMatch : List Document → List String → List Nat
  /-- numpy's `dot(a, b) / (norm(a) * norm(b))` over two vectors of one size. -/
  cosine : List Rat → List Rat → Rat
  /-- `str.isdigit` on one character, and the value `int` reads from a decimal one. -/
  isDigit : Char → Bool
  decimal : Char → Option Nat

/-! ## A plain process -/

def civilDays (year month day : Nat) : Int :=
  let y : Int := if month ≤ 2 then year - 1 else year
  let m : Int := if month ≤ 2 then month + 9 else (month : Int) - 3
  365 * y + y / 4 - y / 100 + y / 400 + (153 * m + 2) / 5 + day - 719469

/-- `datetime.fromisoformat` on a calendar date without a time. -/
def calendarDate (text : String) : Option Datetime :=
  match (Text.splitOn '-' text.toList).map fun part => (part.all Text.isDigitAscii, part.length,
      part.foldl (fun total c => total * 10 + (c.toNat - '0'.toNat)) 0) with
  | [(true, 4, year), (true, 2, month), (true, 2, day)] =>
    if 1 ≤ month && month ≤ 12 && 1 ≤ day && day ≤ 31 then
      some ⟨civilDays year month day * 86400000000, none⟩
    else none
  | _ => none

def Runtime.plain : Runtime where
  fromisoformat := calendarDate
  search := fun _ _ => false
  repr := fun text => "'" ++ text ++ "'"
  sha256 := fun text => text
  dumps := fun _ => "\x7b\x7d"
  canonicalSnapshot := fun _ => false
  ftsMatch := fun documents terms =>
    (documents.filter fun d => (Text.normTokenSequence d.content).any terms.contains).map
      Document.rowid
  cosine := fun a b => if a = b then 1 else 0
  isDigit := Text.isDigitAscii
  decimal := fun c => if Text.isDigitAscii c then some (c.toNat - '0'.toNat) else none

variable (rt : Runtime)

def isoCandidate (text : String) : String :=
  let stripped := Text.strip text
  if stripped.toList.getLast? = some 'Z' then
    String.ofList stripped.toList.dropLast ++ "+00:00"
  else stripped

/-- `_parse_timestamp`: a blank text is no bound, a text that is no ISO timestamp raises. -/
def parseTimestamp : Option String → Except Raised (Option Int)
  | none => .ok none
  | some text =>
    if (Text.strip text).toList = [] then .ok none
    else match rt.fromisoformat (isoCandidate text) with
      | some parsed => .ok (some parsed.instant)
      | none => .error ⟨.valueError, "invalid ISO timestamp: " ++ text⟩

/-- `_required`: the stripped text, which must not be blank. -/
def required (value name : String) : Except Raised String :=
  let stripped := Text.strip value
  if stripped.toList = [] then .error ⟨.valueError, name ++ " must not be empty"⟩
  else .ok stripped

theorem parseTimestampError {text : Option String} {raised : Raised}
    (h : parseTimestamp rt text = .error raised) : raised.kind = .valueError := by
  unfold parseTimestamp at h
  split at h
  · cases h
  · split at h
    · cases h
    · split at h
      · cases h
      · cases h
        rfl

theorem requiredError {value name : String} {raised : Raised} (h : required value name = .error raised) :
    raised.kind = .valueError := by
  unfold required at h
  dsimp only at h
  split at h
  · cases h
    rfl
  · cases h

theorem requiredSource {value name text : String} (h : required value name = .ok text) :
    text = Text.strip value ∧ text.toList ≠ [] := by
  unfold required at h
  dsimp only at h
  split at h
  · cases h
  · rename_i some
    cases h
    exact ⟨rfl, some⟩

end Enfold
