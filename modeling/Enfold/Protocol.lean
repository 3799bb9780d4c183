import Enfold.JsonText

/-! The versioned JSON-lines contract: the frames with their field checks, `encode_frame` and
`decode_frame`. A frame that passed its own constructor is a value of its structure here. -/
namespace Enfold

open Fallible

def protocolMajor : Nat := 1
def protocolMinor : Nat := 0
def maxFrameSize : Nat := 1024 * 1024
def maxJsonDepth : Nat := 32
def methodCapabilities : List (String × String) :=
  [("health", "health"), ("memory.write", "memory.write"), ("memory.search", "memory.search"),
    ("memory.context", "memory.context"), ("memory.evidence", "memory.evidence"),
    ("memory.history", "memory.history"), ("memory.changes", "memory.search"),
    ("memory.timeline", "memory.search"), ("memory.entities", "memory.search"),
    ("memory.entity", "memory.search"), ("memory.conflicts", "memory.conflicts"),
    ("memory.resolve_conflict", "memory.resolve_conflict"),
    ("memory.extraction.enqueue", "memory.extraction.enqueue"), ("memory.promote", "memory.write")]

def immutableContextFields : List String :=
  ["access_scopes", "agent_id", "branch", "client_id", "commit_sha", "parent_agent_id",
    "project_root", "repository", "session_id", "surface"]

inductive ProtocolFault where
  | invalid (message : String)
  | missingFields (names : List String)
  | unknownFields (names : List String)
  | immutableContext (names : List String)
  | unknownType (value : Option Json)
  | unserializable (cause : JsonFault)
  | unreadable (cause : JsonFault)
  | tooLarge (bytes maximum : Int)
  | versionMismatch (major supported : Nat)
  -- raised by the interpreter itself: an unhashable frame type, an integer of too many digits
  | typeError
  | valueError (cause : JsonFault)
  deriving DecidableEq, Repr

-- `isinstance(exc, ProtocolValidationError)`
def ProtocolFault.isValidation : ProtocolFault → Bool
  | .typeError | .valueError _ => false
  | _ => true

/-! ## Field checks -/

structure Label where
  text : String
  kept : Text.strip text = text
  some : text ≠ ""
  deriving DecidableEq

def isTokenStart (c : Char) : Bool :=
  Text.isLowerAscii c || Text.isUpperAscii c || Text.isDigitAscii c

def isTokenChar (c : Char) : Bool :=
  isTokenStart c || c = '.' || c = '_' || c = ':' || c = '/' || c = '-'

-- `_TOKEN`
def isToken (text : String) : Bool := Text.shaped isTokenStart isTokenChar 128 text.toList

structure Token where
  text : String
  shaped : isToken text = true
  deriving DecidableEq

def Label.toJson (label : Label) : Json := .str label.text
def Token.toJson (token : Token) : Json := .str token.text

def requiredString (value : Json) (name : String) : Except ProtocolFault Label :=
  match value with
  | .str text =>
    if some : Text.strip text = "" then .error (.invalid (name ++ " must be a non-empty string"))
    else .ok ⟨Text.strip text, Text.stripTwice text, some⟩
  | _ => .error (.invalid (name ++ " must be a non-empty string"))

-- `_required_string(value, name, token=True)`
def requiredToken (value : Json) (name : String) : Except ProtocolFault Token := do
  let label ← requiredString value name
  if shaped : isToken label.text = true then .ok ⟨label.text, shaped⟩
  else .error (.invalid (name ++ " is not a valid protocol token"))

def optionalString (value : Json) (name : String) : Except ProtocolFault (Option Label) :=
  match value with
  | .null => .ok none
  | value => do
    let label ← requiredString value name
    .ok (some label)

def strictInt (value : Json) (name : String) : Except ProtocolFault Nat :=
  match value with
  | .int i => if 0 ≤ i then .ok i.toNat else .error (.invalid (name ++ " must be an integer >= 0"))
  | _ => .error (.invalid (name ++ " must be an integer >= 0"))

def strictBool (value : Json) (name : String) : Except ProtocolFault Bool :=
  match value with
  | .bool b => .ok b
  | _ => .error (.invalid (name ++ " must be a boolean"))

structure Tokens (allowEmpty : Bool) where
  items : List Token
  some : allowEmpty = false → items ≠ []
  distinct : items.Nodup
  deriving DecidableEq

def Tokens.toJson {allowEmpty : Bool} (tokens : Tokens allowEmpty) : Json :=
  .arr (tokens.items.map Token.toJson)

def stringTuple (allowEmpty : Bool) (value : Json) (name : String) :
    Except ProtocolFault (Tokens allowEmpty) :=
  match value with
  | .arr items => do
    let result ← items.mapM fun item => requiredToken item name
    if some : allowEmpty = false → result ≠ [] then
      if distinct : result.Nodup then .ok ⟨result, some, distinct⟩
      else .error (.invalid (name ++ " must not contain duplicates"))
    else .error (.invalid (name ++ " must not be empty"))
  | _ => .error (.invalid (name ++ " must be an array of strings"))

-- the value comes back as it was, lists and mappings rebuilt
mutual
def validateJson (name : String) (depth : Nat) : Json → Except ProtocolFault Json
  | .arr items =>
    if maxJsonDepth < depth then .error (.invalid (name ++ " exceeds maximum JSON depth"))
    else do
      let items ← validateItems name (depth + 1) items
      .ok (.arr items)
  | .obj members =>
    if maxJsonDepth < depth then .error (.invalid (name ++ " exceeds maximum JSON depth"))
    else do
      let members ← validateMembers name (depth + 1) members
      .ok (.obj members)
  | value =>
    if maxJsonDepth < depth then .error (.invalid (name ++ " exceeds maximum JSON depth")) else .ok value
def validateItems (name : String) (depth : Nat) : List Json → Except ProtocolFault (List Json)
  | [] => .ok []
  | item :: items => do
    let item ← validateJson name depth item
    let items ← validateItems name depth items
    .ok (item :: items)
def validateMembers (name : String) (depth : Nat) : JsonObject → Except ProtocolFault JsonObject
  | [] => .ok []
  | (key, value) :: members => do
    let value ← validateJson name depth value
    let members ← validateMembers name depth members
    .ok ((key, value) :: members)
end

def mapping (value : Json) (name : String) : Except ProtocolFault JsonObject :=
  match value with
  | .obj members => .ok members
  | _ => .error (.invalid (name ++ " must be an object"))

def sortNames (names : List String) : List String := names.insertionSort (· ≤ ·)

def checkKeys (data : JsonObject) (required optional : List String) : Except ProtocolFault Unit :=
  let keys := data.map Prod.fst
  let missing := sortNames (required.filter fun key => !keys.contains key)
  let unknown := sortNames (keys.filter fun key => !required.contains key && !optional.contains key)
  if missing ≠ [] then .error (.missingFields missing)
  else if unknown ≠ [] then .error (.unknownFields unknown)
  else .ok ()

-- `data[key]` behind `_check_keys`, and `data.get(key)`
def member (data : JsonObject) (key : String) : Json := (data.lookup key).getD .null

/-! ## Values with a bounded depth -/

theorem tooDeep {name : String} {depth : Nat} {v : Json} (deep : maxJsonDepth < depth) :
    validateJson name depth v = .error (.invalid (name ++ " exceeds maximum JSON depth")) := by
  cases v with
  | arr items => rw [validateJson, if_pos deep]
  | obj members => rw [validateJson, if_pos deep]
  | _ => exact if_pos deep

mutual
theorem validated {name : String} : (v : Json) → (depth : Nat) → validateJson name depth v =
    if depth + v.height ≤ maxJsonDepth then .ok v
    else .error (.invalid (name ++ " exceeds maximum JSON depth"))
  | .arr items, depth => by
    by_cases deep : maxJsonDepth < depth
    · rw [tooDeep deep, if_neg (by omega)]
    · rw [validateJson, if_neg deep, validatedItems items depth (by omega), Json.height]
      by_cases fits : depth + Json.heightItems items ≤ maxJsonDepth
      · rw [if_pos fits, if_pos fits]
        rfl
      · rw [if_neg fits, if_neg fits]
        rfl
  | .obj members, depth => by
    by_cases deep : maxJsonDepth < depth
    · rw [tooDeep deep, if_neg (by omega)]
    · rw [validateJson, if_neg deep, validatedMembers members depth (by omega), Json.height]
      by_cases fits : depth + Json.heightMembers members ≤ maxJsonDepth
      · rw [if_pos fits, if_pos fits]
        rfl
      · rw [if_neg fits, if_neg fits]
        rfl
  | .null, depth | .bool _, depth | .int _, depth | .float _, depth | .str _, depth => by
    by_cases deep : maxJsonDepth < depth
    · rw [tooDeep deep, if_neg (by omega)]
    · have room : depth ≤ maxJsonDepth := by omega
      simp [validateJson, Json.height, room]
theorem validatedItems {name : String} : (items : List Json) → (depth : Nat) → depth ≤ maxJsonDepth →
    validateItems name (depth + 1) items =
      if depth + Json.heightItems items ≤ maxJsonDepth then .ok items
      else .error (.invalid (name ++ " exceeds maximum JSON depth"))
  | [], depth, room => by
    rw [validateItems, Json.heightItems, if_pos (by omega)]
  | item :: items, depth, room => by
    rw [validateItems, validated item, validatedItems items depth room, Json.heightItems]
    by_cases here : depth + 1 + item.height ≤ maxJsonDepth
    · by_cases later : depth + Json.heightItems items ≤ maxJsonDepth
      · rw [if_pos here, if_pos later, if_pos (by omega)]
        rfl
      · rw [if_pos here, if_neg later, if_neg (by omega)]
        rfl
    · rw [if_neg here, errorBind, if_neg (by omega)]
theorem validatedMembers {name : String} : (members : JsonObject) → (depth : Nat) →
    depth ≤ maxJsonDepth → validateMembers name (depth + 1) members =
      if depth + Json.heightMembers members ≤ maxJsonDepth then .ok members
      else .error (.invalid (name ++ " exceeds maximum JSON depth"))
  | [], depth, room => by
    rw [validateMembers, Json.heightMembers, if_pos (by omega)]
  | (key, value) :: members, depth, room => by
    rw [validateMembers, validated value, validatedMembers members depth room, Json.heightMembers]
    by_cases here : depth + 1 + value.height ≤ maxJsonDepth
    · by_cases later : depth + Json.heightMembers members ≤ maxJsonDepth
      · rw [if_pos here, if_pos later, if_pos (by omega)]
        rfl
      · rw [if_pos here, if_neg later, if_neg (by omega)]
        rfl
    · rw [if_neg here, errorBind, if_neg (by omega)]
end

theorem validatedShallow {name : String} {v w : Json} (h : validateJson name 0 v = .ok w) :
    w.height ≤ maxJsonDepth := by
  rw [validated, Nat.zero_add] at h
  by_cases fits : v.height ≤ maxJsonDepth
  · rw [if_pos fits] at h
    cases h
    exact fits
  · rw [if_neg fits] at h
    cases h

structure Payload where
  value : Json
  shallow : value.height ≤ maxJsonDepth

def payload (value : Json) (name : String) : Except ProtocolFault Payload :=
  match checked : validateJson name 0 value with
  | .ok value => .ok ⟨value, validatedShallow checked⟩
  | .error fault => .error fault

structure Details where
  members : JsonObject
  shallow : (Json.obj members).height ≤ maxJsonDepth

def Details.toJson (details : Details) : Json := .obj details.members

-- `_mapping(_validate_json(value, name), name)`
def details (value : Json) (name : String) : Except ProtocolFault Details := do
  let checked ← payload value name
  match checked with
  | ⟨.obj members, shallow⟩ => .ok ⟨members, shallow⟩
  | _ => .error (.invalid (name ++ " must be an object"))

/-! ## Parts of a frame -/

structure ProtocolVersion where
  major : Nat
  minor : Nat
  deriving DecidableEq

namespace ProtocolVersion

def make (major minor : Json) : Except ProtocolFault ProtocolVersion := do
  let major ← strictInt major "protocol.major"
  let minor ← strictInt minor "protocol.minor"
  .ok ⟨major, minor⟩

def toDict (version : ProtocolVersion) : JsonObject :=
  [("major", .int version.major), ("minor", .int version.minor)]

def fromDict (value : Json) : Except ProtocolFault ProtocolVersion := do
  let data ← mapping value "protocol"
  checkKeys data ["major", "minor"] []
  make (member data "major") (member data "minor")

end ProtocolVersion

structure ClientContext where
  clientId : Token
  surface : Token
  agentId : Token
  sessionId : Token
  parentAgentId : Option Label
  projectRoot : Option Label
  repository : Option Label
  branch : Option Label
  commitSha : Option Label
  accessScopes : Tokens false
  deriving DecidableEq

def labelJson (label : Option Label) : Json := (label.map Label.toJson).getD .null

namespace ClientContext

def make (clientId surface agentId sessionId parentAgentId projectRoot repository branch commitSha
    accessScopes : Json) : Except ProtocolFault ClientContext := do
  let clientId ← requiredToken clientId "client_id"
  let surface ← requiredToken surface "surface"
  let agentId ← requiredToken agentId "agent_id"
  let sessionId ← requiredToken sessionId "session_id"
  let parentAgentId ← optionalString parentAgentId "parent_agent_id"
  let projectRoot ← optionalString projectRoot "project_root"
  let repository ← optionalString repository "repository"
  let branch ← optionalString branch "branch"
  let commitSha ← optionalString commitSha "commit_sha"
  let accessScopes ← stringTuple false accessScopes "access_scopes"
  .ok ⟨clientId, surface, agentId, sessionId, parentAgentId, projectRoot, repository, branch,
    commitSha, accessScopes⟩

def toDict (context : ClientContext) : JsonObject :=
  [("client_id", context.clientId.toJson), ("surface", context.surface.toJson),
    ("agent_id", context.agentId.toJson), ("session_id", context.sessionId.toJson),
    ("parent_agent_id", labelJson context.parentAgentId),
    ("project_root", labelJson context.projectRoot), ("repository", labelJson context.repository),
    ("branch", labelJson context.branch), ("commit_sha", labelJson context.commitSha),
    ("access_scopes", context.accessScopes.toJson)]

def fromDict (value : Json) : Except ProtocolFault ClientContext := do
  let data ← mapping value "context"
  checkKeys data ["client_id", "surface", "agent_id", "session_id", "access_scopes"]
    ["parent_agent_id", "project_root", "repository", "branch", "commit_sha"]
  let accessScopes ← stringTuple false (member data "access_scopes") "access_scopes"
  make (member data "client_id") (member data "surface") (member data "agent_id")
    (member data "session_id") (member data "parent_agent_id") (member data "project_root")
    (member data "repository") (member data "branch") (member data "commit_sha") accessScopes.toJson

end ClientContext

structure ProtocolError where
  code : Token
  message : Label
  retryable : Bool
  details : Details

namespace ProtocolError

def make (code message retryable details : Json) : Except ProtocolFault ProtocolError := do
  let code ← requiredToken code "error.code"
  let message ← requiredString message "error.message"
  let retryable ← strictBool retryable "error.retryable"
  let details ← Enfold.details details "error.details"
  .ok ⟨code, message, retryable, details⟩

def toDict (error : ProtocolError) : JsonObject :=
  [("code", error.code.toJson), ("message", error.message.toJson),
    ("retryable", .bool error.retryable), ("details", error.details.toJson)]

def fromDict (value : Json) : Except ProtocolFault ProtocolError := do
  let data ← mapping value "error"
  checkKeys data ["code", "message", "retryable", "details"] []
  make (member data "code") (member data "message") (member data "retryable") (member data "details")

end ProtocolError

def errorJson (error : Option ProtocolError) : Json :=
  (error.map fun error => Json.obj error.toDict).getD .null

-- `None if data["error"] is None else ProtocolError.from_dict(data["error"])`
def errorFrom (value : Json) : Except ProtocolFault (Option ProtocolError) :=
  match value with
  | .null => .ok none
  | value => do
    let error ← ProtocolError.fromDict value
    .ok (some error)

-- `if data["type"] != name`
def frameType (data : JsonObject) (name : String) : Except ProtocolFault Unit :=
  ensure (decide (member data "type" = .str name)) (.invalid ("frame type must be " ++ name))

/-! ## Frames -/

structure Handshake where
  context : ClientContext
  capabilities : Tokens true
  protocol : ProtocolVersion
  schemaVersion : Nat
  credential : Option Token
  deriving DecidableEq

namespace Handshake

def make (context : ClientContext) (capabilities : Json) (protocol : ProtocolVersion)
    (schemaVersion credential : Json) : Except ProtocolFault Handshake := do
  let capabilities ← stringTuple true capabilities "capabilities"
  let schemaVersion ← strictInt schemaVersion "schema_version"
  match credential with
  | .null => .ok ⟨context, capabilities, protocol, schemaVersion, none⟩
  | credential => do
    let credential ← requiredToken credential "credential"
    .ok ⟨context, capabilities, protocol, schemaVersion, some credential⟩

def toDict (frame : Handshake) : JsonObject :=
  [("type", .str "handshake"), ("protocol", .obj frame.protocol.toDict),
    ("schema_version", .int frame.schemaVersion), ("capabilities", frame.capabilities.toJson),
    ("context", .obj frame.context.toDict)] ++
    (frame.credential.map fun credential => ("credential", credential.toJson)).toList

def fromDict (data : JsonObject) : Except ProtocolFault Handshake := do
  checkKeys data ["type", "protocol", "schema_version", "capabilities", "context"] ["credential"]
  frameType data "handshake"
  let context ← ClientContext.fromDict (member data "context")
  let capabilities ← stringTuple true (member data "capabilities") "capabilities"
  let protocol ← ProtocolVersion.fromDict (member data "protocol")
  let schemaVersion ← strictInt (member data "schema_version") "schema_version"
  let credential ← optionalString (member data "credential") "credential"
  make context capabilities.toJson protocol (.int schemaVersion) (labelJson credential)

end Handshake

structure HandshakeResponse where
  accepted : Bool
  capabilities : Tokens true
  serviceVersion : Label
  error : Option ProtocolError
  protocol : ProtocolVersion
  schemaVersion : Nat
  consistent : accepted = error.isNone

namespace HandshakeResponse

def make (accepted capabilities serviceVersion : Json) (error : Option ProtocolError)
    (protocol : ProtocolVersion) (schemaVersion : Json) : Except ProtocolFault HandshakeResponse := do
  let accepted ← strictBool accepted "accepted"
  let capabilities ← stringTuple true capabilities "capabilities"
  let serviceVersion ← requiredString serviceVersion "service_version"
  let schemaVersion ← strictInt schemaVersion "schema_version"
  if consistent : accepted = error.isNone then
    .ok ⟨accepted, capabilities, serviceVersion, error, protocol, schemaVersion, consistent⟩
  else if accepted then .error (.invalid "accepted handshake cannot include an error")
  else .error (.invalid "refused handshake must include a typed error")

def toDict (frame : HandshakeResponse) : JsonObject :=
  [("type", .str "handshake_response"), ("protocol", .obj frame.protocol.toDict),
    ("schema_version", .int frame.schemaVersion), ("capabilities", frame.capabilities.toJson),
    ("service_version", frame.serviceVersion.toJson), ("accepted", .bool frame.accepted),
    ("error", errorJson frame.error)]

def fromDict (data : JsonObject) : Except ProtocolFault HandshakeResponse := do
  checkKeys data ["type", "protocol", "schema_version", "capabilities", "service_version", "accepted",
    "error"] []
  frameType data "handshake_response"
  let error ← errorFrom (member data "error")
  let capabilities ← stringTuple true (member data "capabilities") "capabilities"
  let protocol ← ProtocolVersion.fromDict (member data "protocol")
  let schemaVersion ← strictInt (member data "schema_version") "schema_version"
  make (member data "accepted") capabilities.toJson (member data "service_version") error protocol
    (.int schemaVersion)

end HandshakeResponse

structure Request where
  requestId : Token
  method : Token
  params : Details
  protocol : ProtocolVersion
  schemaVersion : Nat
  supported : (methodCapabilities.lookup method.text).isSome = true
  unspoofed : ∀ key ∈ immutableContextFields, key ∉ params.members.map Prod.fst

namespace Request

def make (requestId method params : Json) (protocol : ProtocolVersion) (schemaVersion : Json) :
    Except ProtocolFault Request := do
  let requestId ← requiredToken requestId "request_id"
  let method ← requiredToken method "method"
  if supported : (methodCapabilities.lookup method.text).isSome = true then
    let params ← details params "params"
    let spoofed := immutableContextFields.filter (params.members.map Prod.fst).contains
    if unspoofed : ∀ key ∈ immutableContextFields, key ∉ params.members.map Prod.fst then
      let schemaVersion ← strictInt schemaVersion "schema_version"
      .ok ⟨requestId, method, params, protocol, schemaVersion, supported, unspoofed⟩
    else .error (.immutableContext (sortNames spoofed))
  else .error (.invalid ("unsupported method: " ++ method.text))

def toDict (frame : Request) : JsonObject :=
  [("type", .str "request"), ("protocol", .obj frame.protocol.toDict),
    ("schema_version", .int frame.schemaVersion), ("request_id", frame.requestId.toJson),
    ("method", frame.method.toJson), ("params", frame.params.toJson)]

def fromDict (data : JsonObject) : Except ProtocolFault Request := do
  checkKeys data ["type", "protocol", "schema_version", "request_id", "method", "params"] []
  frameType data "request"
  let protocol ← ProtocolVersion.fromDict (member data "protocol")
  let schemaVersion ← strictInt (member data "schema_version") "schema_version"
  make (member data "request_id") (member data "method") (member data "params") protocol
    (.int schemaVersion)

end Request

structure Response where
  requestId : Token
  ok : Bool
  result : Payload
  error : Option ProtocolError
  protocol : ProtocolVersion
  schemaVersion : Nat
  consistent : ok = error.isNone
  bare : ok = false → result.value = .null

namespace Response

def make (requestId ok result : Json) (error : Option ProtocolError) (protocol : ProtocolVersion)
    (schemaVersion : Json) : Except ProtocolFault Response := do
  let requestId ← requiredToken requestId "request_id"
  let ok ← strictBool ok "ok"
  let result ← payload result "result"
  let schemaVersion ← strictInt schemaVersion "schema_version"
  if consistent : ok = error.isNone then
    if bare : ok = false → result.value = .null then
      .ok ⟨requestId, ok, result, error, protocol, schemaVersion, consistent, bare⟩
    else .error (.invalid "failed response cannot include a result")
  else if ok then .error (.invalid "successful response cannot include an error")
  else .error (.invalid "failed response must include a typed error")

def toDict (frame : Response) : JsonObject :=
  [("type", .str "response"), ("protocol", .obj frame.protocol.toDict),
    ("schema_version", .int frame.schemaVersion), ("request_id", frame.requestId.toJson),
    ("ok", .bool frame.ok), ("result", frame.result.value), ("error", errorJson frame.error)]

def fromDict (data : JsonObject) : Except ProtocolFault Response := do
  checkKeys data ["type", "protocol", "schema_version", "request_id", "ok", "result", "error"] []
  frameType data "response"
  let error ← errorFrom (member data "error")
  let protocol ← ProtocolVersion.fromDict (member data "protocol")
  let schemaVersion ← strictInt (member data "schema_version") "schema_version"
  make (member data "request_id") (member data "ok") (member data "result") error protocol
    (.int schemaVersion)

end Response

inductive Frame where
  | handshake (frame : Handshake)
  | handshakeResponse (frame : HandshakeResponse)
  | request (frame : Request)
  | response (frame : Response)

namespace Frame

def toDict : Frame → JsonObject
  | .handshake frame => frame.toDict
  | .handshakeResponse frame => frame.toDict
  | .request frame => frame.toDict
  | .response frame => frame.toDict

def protocol : Frame → ProtocolVersion
  | .handshake frame => frame.protocol
  | .handshakeResponse frame => frame.protocol
  | .request frame => frame.protocol
  | .response frame => frame.protocol

end Frame

/-! ## The wire -/

section Wire
variable (floats : FloatText)

def encodeFrame (frame : Frame) (maxFrameSize : Int) : Except ProtocolFault ByteArray := do
  ensure (decide (0 < maxFrameSize)) (.invalid "max_frame_size must be positive")
  match dumps floats (.obj frame.toDict) with
  | .error cause => .error (.unserializable cause)
  | .ok text =>
    let encoded := (text ++ "\n").toUTF8
    if maxFrameSize < encoded.size then .error (.tooLarge encoded.size maxFrameSize) else .ok encoded

-- one line end, `\r\n` or `\n`, comes off
def chomp (text : List Char) : List Char :=
  match text.reverse with
  | '\n' :: '\r' :: rest => rest.reverse
  | '\n' :: rest => rest.reverse
  | _ => text

def loadFault : JsonFault → ProtocolFault
  | .malformed => .unreadable .malformed
  | .nonFinite constant => .invalid ("non-finite JSON number is not allowed: " ++ constant)
  | .duplicateKey key => .invalid ("duplicate JSON object key: " ++ key)
  | .tooManyDigits => .valueError .tooManyDigits

def factory (data : JsonObject) : Except ProtocolFault Frame :=
  match data.lookup "type" with
  | some (.str "handshake") => do
    let frame ← Handshake.fromDict data
    .ok (.handshake frame)
  | some (.str "handshake_response") => do
    let frame ← HandshakeResponse.fromDict data
    .ok (.handshakeResponse frame)
  | some (.str "request") => do
    let frame ← Request.fromDict data
    .ok (.request frame)
  | some (.str "response") => do
    let frame ← Response.fromDict data
    .ok (.response frame)
  | some (.arr _) | some (.obj _) => .error .typeError
  | found => .error (.unknownType found)

def requireCompatibleMajor (version : ProtocolVersion) (supportedMajor : Nat) :
    Except ProtocolFault Unit :=
  ensure (decide (version.major = supportedMajor)) (.versionMismatch version.major supportedMajor)

def decodeFrame (raw : ByteArray) (maxFrameSize : Int) (refuseMajorMismatch : Bool) :
    Except ProtocolFault Frame := do
  ensure (decide (0 < maxFrameSize)) (.invalid "max_frame_size must be positive")
  ensure (decide ((raw.size : Int) ≤ maxFrameSize)) (.tooLarge raw.size maxFrameSize)
  match String.fromUTF8? raw with
  | none => .error (.invalid "frame is not valid UTF-8")
  | some text => do
    let line := chomp text.toList
    ensure (!line.isEmpty && !line.contains '\n' && !line.contains '\r')
      (.invalid "input must contain exactly one JSON-lines frame")
    match loads floats (String.ofList line) with
    | .error fault => .error (loadFault fault)
    | .ok data => do
      let data ← validateJson "frame" 0 data
      let data ← mapping data "frame"
      let decoded ← factory data
      if refuseMajorMismatch then requireCompatibleMajor decoded.protocol protocolMajor
      .ok decoded

end Wire
end Enfold
