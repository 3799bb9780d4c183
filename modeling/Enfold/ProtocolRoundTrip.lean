import Enfold.Protocol

/-! What a peer encodes, the other side decodes. The constructors bound the depth of the parts of a
frame, the decoder the depth of the whole frame. -/
namespace Enfold

open Fallible

/-! ## Fields -/

theorem tokenSpace {c : Char} (h : isTokenChar c = true) : Text.isSpace c = false := by
  simp only [isTokenChar, isTokenStart, Bool.or_eq_true, decide_eq_true_eq] at h
  have upper : ∀ c, Text.isUpperAscii c = true → Text.isSpace c = false := by
    intro c capital
    simp only [Text.isUpperAscii, Bool.and_eq_true, decide_eq_true_eq, Char.le_def,
      UInt32.le_iff_toNat_le] at capital
    have value : c.toNat = c.val.toNat := rfl
    have bounds : 65 ≤ c.val.toNat ∧ c.val.toNat ≤ 90 := by
      simpa using capital
    simp only [Text.isSpace, value]
    simp
    omega
  rcases h with ((((((small | capital) | digit) | rfl) | rfl) | rfl) | rfl) | rfl
  · exact Text.wordSpace (by simp [Text.isWordChar, small])
  · exact upper c capital
  · exact Text.wordSpace (by simp [Text.isWordChar, digit])
  all_goals decide

theorem tokenKept (token : Token) : Text.strip token.text = token.text := by
  have letters := Text.shapedAll (fun c first => by simp [isTokenChar, first]) token.shaped
  have kept := Text.stripKept fun c inside => tokenSpace (letters c inside)
  rwa [String.ofList_toList] at kept

theorem tokenSome (token : Token) : token.text ≠ "" := by
  intro empty
  have shaped := token.shaped
  rw [empty] at shaped
  exact absurd shaped (by decide)

section Read
variable (name : String)

@[simp] theorem requiredLabel (label : Label) : requiredString label.toJson name = .ok label := by
  obtain ⟨text, kept, some'⟩ := label
  simp only [Label.toJson, requiredString, kept, some', dite_false]

@[simp] theorem requiredTokenText (token : Token) : requiredToken token.toJson name = .ok token := by
  obtain ⟨text, shaped⟩ := token
  have kept := tokenKept ⟨text, shaped⟩
  have some' := tokenSome ⟨text, shaped⟩
  simp only at kept some'
  simp only [Token.toJson, requiredToken, requiredString, kept, some', dite_false, okBind, shaped,
    dite_true]

@[simp] theorem optionalLabel (label : Option Label) : optionalString (labelJson label) name = .ok label := by
  cases label with
  | none => rfl
  | some label =>
    have required := requiredLabel name label
    rw [Label.toJson] at required
    simp only [labelJson, Option.map_some, Option.getD_some, Label.toJson, optionalString, required,
      okBind]

@[simp] theorem strictNat (n : Nat) : strictInt (.int n) name = .ok n := by
  simp [strictInt]

theorem tokensRead (tokens : List Token) :
    (tokens.map Token.toJson).mapM (fun item => requiredToken item name) = .ok tokens := by
  induction tokens with
  | nil => rfl
  | cons token tokens ih =>
    exact mapMCons.mpr ⟨token, tokens, requiredTokenText name token, ih, rfl⟩

@[simp] theorem stringTupleRead {allowEmpty : Bool} (tokens : Tokens allowEmpty) :
    stringTuple allowEmpty tokens.toJson name = .ok tokens := by
  obtain ⟨items, some', distinct⟩ := tokens
  simp only [Tokens.toJson, stringTuple, tokensRead, okBind, dif_pos some', dif_pos distinct]

@[simp] theorem payloadRead (p : Payload) : payload p.value name = .ok p := by
  have checked : validateJson name 0 p.value = .ok p.value := by
    rw [validated, Nat.zero_add, if_pos p.shallow]
  unfold payload
  split
  · rename_i found
    rw [checked] at found
    cases found
    rfl
  · rename_i found
    rw [checked] at found
    cases found

@[simp] theorem detailsRead (d : Details) : details d.toJson name = .ok d := by
  have read : payload d.toJson name = .ok ⟨.obj d.members, d.shallow⟩ := payloadRead name ⟨_, d.shallow⟩
  rw [details, read]
  rfl

end Read

/-! ## Frames the constructors accept again -/

theorem versionMade (version : ProtocolVersion) :
    ProtocolVersion.make (.int version.major) (.int version.minor) = .ok version := by
  simp [ProtocolVersion.make, okBind]

theorem contextMade (context : ClientContext) : ClientContext.make context.clientId.toJson
    context.surface.toJson context.agentId.toJson context.sessionId.toJson
    (labelJson context.parentAgentId) (labelJson context.projectRoot) (labelJson context.repository)
    (labelJson context.branch) (labelJson context.commitSha) context.accessScopes.toJson =
      .ok context := by
  simp [ClientContext.make, okBind]

theorem errorMade (error : ProtocolError) : ProtocolError.make error.code.toJson error.message.toJson
    (.bool error.retryable) error.details.toJson = .ok error := by
  simp [ProtocolError.make, okBind, strictBool]

theorem handshakeMade (frame : Handshake) : Handshake.make frame.context frame.capabilities.toJson
    frame.protocol (.int frame.schemaVersion) ((frame.credential.map Token.toJson).getD .null) =
      .ok frame := by
  obtain ⟨context, capabilities, protocol, schemaVersion, credential⟩ := frame
  cases credential with
  | none => simp [Handshake.make, okBind]
  | some credential =>
    have required := requiredTokenText "credential" credential
    rw [Token.toJson] at required
    simp [Handshake.make, okBind, Token.toJson, required]

theorem handshakeResponseMade (frame : HandshakeResponse) : HandshakeResponse.make
    (.bool frame.accepted) frame.capabilities.toJson frame.serviceVersion.toJson frame.error
    frame.protocol (.int frame.schemaVersion) = .ok frame := by
  obtain ⟨accepted, capabilities, serviceVersion, error, protocol, schemaVersion, consistent⟩ := frame
  simp only [HandshakeResponse.make, strictBool, okBind, stringTupleRead, requiredLabel, strictNat,
    dif_pos consistent]

theorem requestMade (frame : Request) : Request.make frame.requestId.toJson frame.method.toJson
    frame.params.toJson frame.protocol (.int frame.schemaVersion) = .ok frame := by
  obtain ⟨requestId, method, params, protocol, schemaVersion, supported, unspoofed⟩ := frame
  simp only [Request.make, okBind, requiredTokenText, detailsRead, strictNat, dif_pos supported,
    dif_pos unspoofed]

theorem responseMade (frame : Response) : Response.make frame.requestId.toJson (.bool frame.ok)
    frame.result.value frame.error frame.protocol (.int frame.schemaVersion) = .ok frame := by
  obtain ⟨requestId, ok, result, error, protocol, schemaVersion, consistent, bare⟩ := frame
  simp only [Response.make, strictBool, okBind, requiredTokenText, payloadRead, strictNat,
    dif_pos consistent, dif_pos bare]

/-! ## Frames with their keys in order -/

theorem memberListed {data : JsonObject} (distinct : (data.map Prod.fst).Nodup) (key : String) :
    member (listed data) key = (member data key).sorted := listedMember distinct key

theorem checkListed {data : JsonObject} (names required optional : List String)
    (keys : data.map Prod.fst = names) (all : ∀ key ∈ required, key ∈ names)
    (known : ∀ key ∈ names, key ∈ required ∨ key ∈ optional) :
    checkKeys (listed data) required optional = .ok () := by
  have same : ∀ key, key ∈ (listed data).map Prod.fst ↔ key ∈ names := by
    intro key
    rw [← keys]
    exact (Json.sortedKeys data).mem_iff
  have missing : required.filter (fun key => !((listed data).map Prod.fst).contains key) = [] := by
    refine List.filter_eq_nil_iff.mpr fun key wanted => ?_
    simp [same, all key wanted]
  have unknown : ((listed data).map Prod.fst).filter
      (fun key => !required.contains key && !optional.contains key) = [] := by
    refine List.filter_eq_nil_iff.mpr fun key inside => ?_
    rcases known key ((same key).mp inside) with wanted | wanted
    · simp [wanted]
    · simp [wanted]
  simp only [checkKeys, missing, unknown]
  rfl

theorem checkOwn {data : JsonObject} (names : List String) (keys : data.map Prod.fst = names) :
    checkKeys (listed data) names [] = .ok () :=
  checkListed names names [] keys (fun _ inside => inside) (fun _ inside => .inl inside)

namespace Payload

def sorted (p : Payload) : Payload := ⟨p.value.sorted, by rw [Json.sortedHeight]; exact p.shallow⟩

end Payload

namespace Details

def sorted (d : Details) : Details :=
  ⟨listed d.members, (Json.sortedHeight (.obj d.members)).le.trans d.shallow⟩

theorem sortedJson (d : Details) : d.sorted.toJson = d.toJson.sorted := rfl

end Details

def ProtocolError.sorted (error : ProtocolError) : ProtocolError :=
  { error with details := error.details.sorted }

namespace Frame

def sorted : Frame → Frame
  | .handshake frame => .handshake frame
  | .handshakeResponse frame => .handshakeResponse { frame with
      error := frame.error.map ProtocolError.sorted
      consistent := by rw [frame.consistent, Option.isNone_map] }
  | .request frame => .request { frame with
      params := frame.params.sorted
      unspoofed := fun key field inside =>
        frame.unspoofed key field ((Json.sortedKeys frame.params.members).mem_iff.mp inside) }
  | .response frame => .response { frame with
      result := frame.result.sorted
      error := frame.error.map ProtocolError.sorted
      consistent := by rw [frame.consistent, Option.isNone_map]
      bare := fun failed => congrArg Json.sorted (frame.bare failed) }

end Frame

/-! ## Reading a dictionary back -/

-- the parts of a frame that hold no dictionary keep their form
@[simp] theorem labelSorted (label : Label) : label.toJson.sorted = label.toJson := rfl
@[simp] theorem tokenSorted (token : Token) : token.toJson.sorted = token.toJson := rfl
@[simp] theorem intSorted (i : Int) : (Json.int i).sorted = .int i := rfl
@[simp] theorem boolSorted (b : Bool) : (Json.bool b).sorted = .bool b := rfl
@[simp] theorem strSorted (text : String) : (Json.str text).sorted = .str text := rfl

@[simp] theorem labelJsonSorted (label : Option Label) : (labelJson label).sorted = labelJson label := by
  cases label with
  | none => rfl
  | some label => rfl

@[simp] theorem tokensSorted {allowEmpty : Bool} (tokens : Tokens allowEmpty) :
    tokens.toJson.sorted = tokens.toJson := by
  rw [Tokens.toJson, Json.sorted, Json.sortedItemsMap, List.map_map]
  rfl

theorem versionRead (version : ProtocolVersion) :
    ProtocolVersion.fromDict (.obj (listed version.toDict)) = .ok version := by
  have distinct : (version.toDict.map Prod.fst).Nodup := (by decide : ["major", "minor"].Nodup)
  have checked : checkKeys (listed version.toDict) ["major", "minor"] [] = .ok () := checkOwn _ rfl
  have major : member version.toDict "major" = .int version.major := rfl
  have minor : member version.toDict "minor" = .int version.minor := rfl
  simp only [ProtocolVersion.fromDict, mapping, okBind, checked, memberListed distinct, major, minor,
    intSorted, versionMade]

theorem contextRead (context : ClientContext) :
    ClientContext.fromDict (.obj (listed context.toDict)) = .ok context := by
  have distinct : (context.toDict.map Prod.fst).Nodup :=
    (by decide : ["client_id", "surface", "agent_id", "session_id", "parent_agent_id", "project_root",
      "repository", "branch", "commit_sha", "access_scopes"].Nodup)
  have checked : checkKeys (listed context.toDict)
      ["client_id", "surface", "agent_id", "session_id", "access_scopes"]
      ["parent_agent_id", "project_root", "repository", "branch", "commit_sha"] = .ok () :=
    checkListed ["client_id", "surface", "agent_id", "session_id", "parent_agent_id", "project_root",
      "repository", "branch", "commit_sha", "access_scopes"] _ _ rfl (by decide) (by decide)
  have clientId : member context.toDict "client_id" = context.clientId.toJson := rfl
  have surface : member context.toDict "surface" = context.surface.toJson := rfl
  have agentId : member context.toDict "agent_id" = context.agentId.toJson := rfl
  have sessionId : member context.toDict "session_id" = context.sessionId.toJson := rfl
  have parent : member context.toDict "parent_agent_id" = labelJson context.parentAgentId := rfl
  have root : member context.toDict "project_root" = labelJson context.projectRoot := rfl
  have repository : member context.toDict "repository" = labelJson context.repository := rfl
  have branch : member context.toDict "branch" = labelJson context.branch := rfl
  have commit : member context.toDict "commit_sha" = labelJson context.commitSha := rfl
  have scopes : member context.toDict "access_scopes" = context.accessScopes.toJson := rfl
  simp only [ClientContext.fromDict, mapping, okBind, checked, memberListed distinct, clientId, surface,
    agentId, sessionId, parent, root, repository, branch, commit, scopes, tokenSorted, labelJsonSorted,
    tokensSorted, stringTupleRead, contextMade]

theorem errorRead (error : ProtocolError) :
    ProtocolError.fromDict (.obj (listed error.toDict)) = .ok error.sorted := by
  have distinct : (error.toDict.map Prod.fst).Nodup :=
    (by decide : ["code", "message", "retryable", "details"].Nodup)
  have checked : checkKeys (listed error.toDict) ["code", "message", "retryable", "details"] [] =
      .ok () := checkOwn _ rfl
  have code : member error.toDict "code" = error.code.toJson := rfl
  have message : member error.toDict "message" = error.message.toJson := rfl
  have retryable : member error.toDict "retryable" = .bool error.retryable := rfl
  have details : member error.toDict "details" = error.details.toJson := rfl
  have made := errorMade error.sorted
  simp only [ProtocolError.sorted, Details.sortedJson] at made
  simp only [ProtocolError.fromDict, mapping, okBind, checked, memberListed distinct, code, message,
    retryable, details, tokenSorted, labelSorted, boolSorted, made, ProtocolError.sorted]

@[simp] theorem errorFromRead (error : Option ProtocolError) :
    errorFrom (errorJson error).sorted = .ok (error.map ProtocolError.sorted) := by
  cases error with
  | none => rfl
  | some error =>
    have shape : (errorJson (some error)).sorted = .obj (listed error.toDict) := rfl
    simp only [shape, errorFrom, errorRead, okBind, Option.map_some]

theorem handshakeNames (frame : Handshake) : frame.toDict.map Prod.fst =
    ["type", "protocol", "schema_version", "capabilities", "context"] ++
      (frame.credential.map fun _ => "credential").toList := by
  cases h : frame.credential with
  | none => simp [Handshake.toDict, h]
  | some credential => simp [Handshake.toDict, h]

theorem handshakeDistinct (frame : Handshake) : (frame.toDict.map Prod.fst).Nodup := by
  rw [handshakeNames]
  cases frame.credential with
  | none => simp
  | some credential => simp

theorem handshakeRead (frame : Handshake) : Handshake.fromDict (listed frame.toDict) = .ok frame := by
  have names := handshakeNames frame
  have distinct := handshakeDistinct frame
  have checked := checkListed _ ["type", "protocol", "schema_version", "capabilities", "context"]
    ["credential"] names (fun key wanted => List.mem_append_left _ wanted) (by
      intro key inside
      rcases List.mem_append.mp inside with wanted | extra
      · exact .inl wanted
      · cases h : frame.credential with
        | none => simp [h] at extra
        | some credential => simpa [h] using Or.inr extra)
  have type : member frame.toDict "type" = .str "handshake" := rfl
  have protocol : member frame.toDict "protocol" = .obj frame.protocol.toDict := rfl
  have schema : member frame.toDict "schema_version" = .int frame.schemaVersion := rfl
  have capabilities : member frame.toDict "capabilities" = frame.capabilities.toJson := rfl
  have context : member frame.toDict "context" = .obj frame.context.toDict := rfl
  have credential : member frame.toDict "credential" =
      (frame.credential.map Token.toJson).getD .null := by
    cases h : frame.credential with
    | none => simp [Handshake.toDict, member, h, List.lookup_cons]
    | some credential => simp [Handshake.toDict, member, h, List.lookup_cons]
  have optional : ∃ label, optionalString ((frame.credential.map Token.toJson).getD .null).sorted
      "credential" = .ok label ∧ labelJson label = (frame.credential.map Token.toJson).getD .null := by
    cases frame.credential with
    | none => exact ⟨none, rfl, rfl⟩
    | some token =>
      have read := optionalLabel "credential" (some ⟨token.text, tokenKept token, tokenSome token⟩)
      exact ⟨_, read, rfl⟩
  obtain ⟨label, read, text⟩ := optional
  have version : (Json.obj frame.protocol.toDict).sorted = .obj (listed frame.protocol.toDict) := rfl
  have client : (Json.obj frame.context.toDict).sorted = .obj (listed frame.context.toDict) := rfl
  simp only [Handshake.fromDict, checked, okBind, frameType, memberListed distinct, type, strSorted,
    decide_true, protocol, schema, capabilities, context, credential, version, client, contextRead,
    versionRead, tokensSorted, stringTupleRead, intSorted, strictNat, read, text, handshakeMade, ensure,
    if_true]

theorem handshakeResponseRead (frame : HandshakeResponse) :
    HandshakeResponse.fromDict (listed frame.toDict) = .ok { frame with
      error := frame.error.map ProtocolError.sorted
      consistent := by rw [frame.consistent, Option.isNone_map] } := by
  have distinct : (frame.toDict.map Prod.fst).Nodup :=
    (by decide : ["type", "protocol", "schema_version", "capabilities", "service_version", "accepted",
      "error"].Nodup)
  have checked : checkKeys (listed frame.toDict) ["type", "protocol", "schema_version", "capabilities", "service_version", "accepted",
      "error"]
      [] = .ok () := checkOwn _ rfl
  have type : member frame.toDict "type" = .str "handshake_response" := rfl
  have protocol : member frame.toDict "protocol" = .obj frame.protocol.toDict := rfl
  have schema : member frame.toDict "schema_version" = .int frame.schemaVersion := rfl
  have capabilities : member frame.toDict "capabilities" = frame.capabilities.toJson := rfl
  have service : member frame.toDict "service_version" = frame.serviceVersion.toJson := rfl
  have accepted : member frame.toDict "accepted" = .bool frame.accepted := rfl
  have error : member frame.toDict "error" = errorJson frame.error := rfl
  have version : (Json.obj frame.protocol.toDict).sorted = .obj (listed frame.protocol.toDict) := rfl
  have made := handshakeResponseMade { frame with
      error := frame.error.map ProtocolError.sorted
      consistent := by rw [frame.consistent, Option.isNone_map] }
  simp only at made
  simp only [HandshakeResponse.fromDict, checked, okBind, frameType, memberListed distinct, type,
    strSorted, decide_true, protocol, schema, capabilities, service, accepted, error, version,
    versionRead, tokensSorted, stringTupleRead, labelSorted, boolSorted, intSorted, strictNat,
    errorFromRead, made, ensure, if_true]

theorem requestRead (frame : Request) : Request.fromDict (listed frame.toDict) = .ok { frame with
    params := frame.params.sorted
    unspoofed := fun key field inside =>
      frame.unspoofed key field ((Json.sortedKeys frame.params.members).mem_iff.mp inside) } := by
  have distinct : (frame.toDict.map Prod.fst).Nodup :=
    (by decide : ["type", "protocol", "schema_version", "request_id", "method", "params"].Nodup)
  have checked : checkKeys (listed frame.toDict) ["type", "protocol", "schema_version", "request_id", "method", "params"]
      [] = .ok () := checkOwn _ rfl
  have type : member frame.toDict "type" = .str "request" := rfl
  have protocol : member frame.toDict "protocol" = .obj frame.protocol.toDict := rfl
  have schema : member frame.toDict "schema_version" = .int frame.schemaVersion := rfl
  have requestId : member frame.toDict "request_id" = frame.requestId.toJson := rfl
  have method : member frame.toDict "method" = frame.method.toJson := rfl
  have params : member frame.toDict "params" = frame.params.toJson := rfl
  have version : (Json.obj frame.protocol.toDict).sorted = .obj (listed frame.protocol.toDict) := rfl
  have made := requestMade { frame with
    params := frame.params.sorted
    unspoofed := fun key field inside =>
      frame.unspoofed key field ((Json.sortedKeys frame.params.members).mem_iff.mp inside) }
  simp only [Details.sortedJson] at made
  simp only [Request.fromDict, checked, okBind, frameType, memberListed distinct, type, strSorted,
    decide_true, protocol, schema, requestId, method, params, version, versionRead, tokenSorted,
    intSorted, strictNat, made, ensure, if_true]

theorem responseRead (frame : Response) : Response.fromDict (listed frame.toDict) = .ok { frame with
    result := frame.result.sorted
    error := frame.error.map ProtocolError.sorted
    consistent := by rw [frame.consistent, Option.isNone_map]
    bare := fun failed => congrArg Json.sorted (frame.bare failed) } := by
  have distinct : (frame.toDict.map Prod.fst).Nodup :=
    (by decide : ["type", "protocol", "schema_version", "request_id", "ok", "result", "error"].Nodup)
  have checked : checkKeys (listed frame.toDict) ["type", "protocol", "schema_version", "request_id", "ok", "result", "error"]
      [] = .ok () := checkOwn _ rfl
  have type : member frame.toDict "type" = .str "response" := rfl
  have protocol : member frame.toDict "protocol" = .obj frame.protocol.toDict := rfl
  have schema : member frame.toDict "schema_version" = .int frame.schemaVersion := rfl
  have requestId : member frame.toDict "request_id" = frame.requestId.toJson := rfl
  have ok : member frame.toDict "ok" = .bool frame.ok := rfl
  have result : member frame.toDict "result" = frame.result.value := rfl
  have error : member frame.toDict "error" = errorJson frame.error := rfl
  have version : (Json.obj frame.protocol.toDict).sorted = .obj (listed frame.protocol.toDict) := rfl
  have made := responseMade { frame with
    result := frame.result.sorted
    error := frame.error.map ProtocolError.sorted
    consistent := by rw [frame.consistent, Option.isNone_map]
    bare := fun failed => congrArg Json.sorted (frame.bare failed) }
  simp only [Payload.sorted] at made
  simp only [Response.fromDict, checked, okBind, frameType, memberListed distinct, type, strSorted,
    decide_true, protocol, schema, requestId, ok, result, error, version, versionRead, tokenSorted,
    boolSorted, intSorted, strictNat, errorFromRead, made, ensure, if_true, Payload.sorted]

theorem factoryRead (frame : Frame) : factory (listed frame.toDict) = .ok frame.sorted := by
  cases frame with
  | handshake frame =>
    have distinct : (frame.toDict.map Prod.fst).Nodup := handshakeDistinct frame
    have type : (listed frame.toDict).lookup "type" = some (.str "handshake") :=
      Json.lookupSorted distinct "type"
    simp only [Frame.toDict, factory, type, handshakeRead, okBind]
    rfl
  | handshakeResponse frame =>
    have distinct : (frame.toDict.map Prod.fst).Nodup :=
      (by decide : ["type", "protocol", "schema_version", "capabilities", "service_version", "accepted",
        "error"].Nodup)
    have type : (listed frame.toDict).lookup "type" = some (.str "handshake_response") :=
      Json.lookupSorted distinct "type"
    simp only [Frame.toDict, factory, type, handshakeResponseRead, okBind]
    rfl
  | request frame =>
    have distinct : (frame.toDict.map Prod.fst).Nodup :=
      (by decide : ["type", "protocol", "schema_version", "request_id", "method", "params"].Nodup)
    have type : (listed frame.toDict).lookup "type" = some (.str "request") :=
      Json.lookupSorted distinct "type"
    simp only [Frame.toDict, factory, type, requestRead, okBind]
    rfl
  | response frame =>
    have distinct : (frame.toDict.map Prod.fst).Nodup :=
      (by decide : ["type", "protocol", "schema_version", "request_id", "ok", "result", "error"].Nodup)
    have type : (listed frame.toDict).lookup "type" = some (.str "response") :=
      Json.lookupSorted distinct "type"
    simp only [Frame.toDict, factory, type, responseRead, okBind]
    rfl

/-! ## Equal frames -/

def Payload.Equals (a b : Payload) : Prop := Json.Equals a.value b.value
def Details.Equals (a b : Details) : Prop := Json.Equals a.toJson b.toJson

structure ProtocolError.Equals (a b : ProtocolError) : Prop where
  code : a.code = b.code
  message : a.message = b.message
  retryable : a.retryable = b.retryable
  details : a.details.Equals b.details

inductive ErrorEquals : Option ProtocolError → Option ProtocolError → Prop
  | none : ErrorEquals none none
  | some {a b : ProtocolError} : a.Equals b → ErrorEquals (some a) (some b)

structure HandshakeResponse.Equals (a b : HandshakeResponse) : Prop where
  accepted : a.accepted = b.accepted
  capabilities : a.capabilities = b.capabilities
  serviceVersion : a.serviceVersion = b.serviceVersion
  error : ErrorEquals a.error b.error
  protocol : a.protocol = b.protocol
  schemaVersion : a.schemaVersion = b.schemaVersion

structure Request.Equals (a b : Request) : Prop where
  requestId : a.requestId = b.requestId
  method : a.method = b.method
  params : a.params.Equals b.params
  protocol : a.protocol = b.protocol
  schemaVersion : a.schemaVersion = b.schemaVersion

structure Response.Equals (a b : Response) : Prop where
  requestId : a.requestId = b.requestId
  ok : a.ok = b.ok
  result : a.result.Equals b.result
  error : ErrorEquals a.error b.error
  protocol : a.protocol = b.protocol
  schemaVersion : a.schemaVersion = b.schemaVersion

/-- Equality of frame objects: field by field, dictionaries whatever the order of their keys. -/
inductive Frame.Equals : Frame → Frame → Prop
  | handshake (a : Handshake) : Equals (.handshake a) (.handshake a)
  | handshakeResponse {a b : HandshakeResponse} : a.Equals b →
    Equals (.handshakeResponse a) (.handshakeResponse b)
  | request {a b : Request} : a.Equals b → Equals (.request a) (.request b)
  | response {a b : Response} : a.Equals b → Equals (.response a) (.response b)

theorem errorEqualsSorted (error : Option ProtocolError) :
    ErrorEquals error (error.map ProtocolError.sorted) := by
  cases error with
  | none => exact .none
  | some error => exact .some ⟨rfl, rfl, rfl, Json.equalsSorted error.details.toJson⟩

theorem frameEqualsSorted (frame : Frame) : frame.Equals frame.sorted := by
  cases frame with
  | handshake frame => exact .handshake frame
  | handshakeResponse frame => exact .handshakeResponse ⟨rfl, rfl, rfl, errorEqualsSorted _, rfl, rfl⟩
  | request frame => exact .request ⟨rfl, rfl, Json.equalsSorted frame.params.toJson, rfl, rfl⟩
  | response frame =>
    exact .response ⟨rfl, rfl, Json.equalsSorted frame.result.value, errorEqualsSorted _, rfl, rfl⟩

/-! ## The depth of a frame -/

-- the parts at their places in the frame still within the bound
def ErrorFits (error : Option ProtocolError) : Prop :=
  ∀ e ∈ error, e.details.toJson.height + 2 ≤ maxJsonDepth

def Frame.Fits : Frame → Prop
  | .handshake _ => True
  | .handshakeResponse frame => ErrorFits frame.error
  | .request frame => frame.params.toJson.height + 1 ≤ maxJsonDepth
  | .response frame => frame.result.value.height + 1 ≤ maxJsonDepth ∧ ErrorFits frame.error

theorem labelHeight (label : Option Label) : (labelJson label).height = 0 := by
  cases label with
  | none => rfl
  | some label => rfl

theorem tokensHeight {allowEmpty : Bool} (tokens : Tokens allowEmpty) : tokens.toJson.height ≤ 1 := by
  rw [Tokens.toJson, Json.height, Json.heightItemsLe]
  intro item inside
  obtain ⟨token, -, rfl⟩ := List.mem_map.mp inside
  exact Nat.le_refl 1

theorem versionHeight (version : ProtocolVersion) : Json.heightMembers version.toDict = 1 := rfl

theorem contextHeight (context : ClientContext) : Json.heightMembers context.toDict ≤ 2 := by
  have scopes := tokensHeight context.accessScopes
  rw [Json.heightMembersLe]
  simp only [ClientContext.toDict, List.forall_mem_cons, labelHeight]
  refine ⟨?_, ?_, ?_, ?_, by omega, by omega, by omega, by omega, by omega, by omega, nofun⟩
  all_goals exact Nat.le_succ 1

theorem errorHeight (error : Option ProtocolError) :
    (errorJson error).height + 1 ≤ maxJsonDepth ↔ ErrorFits error := by
  cases error with
  | none => simp [errorJson, ErrorFits, Json.height, maxJsonDepth]
  | some error =>
    have height : (errorJson (some error)).height = max 1 (error.details.toJson.height + 1) := by
      simp [errorJson, ProtocolError.toDict, Json.height, Json.heightMembers, Label.toJson, Token.toJson]
    rw [height]
    simp only [ErrorFits, Option.mem_def, Option.some.injEq, forall_eq']
    simp only [maxJsonDepth]
    omega

theorem frameHeight (frame : Frame) :
    (Json.obj frame.toDict).height ≤ maxJsonDepth ↔ frame.Fits := by
  rw [Json.height, Json.heightMembersLe]
  cases frame with
  | handshake frame =>
    have version := versionHeight frame.protocol
    have client := contextHeight frame.context
    have capabilities := tokensHeight frame.capabilities
    simp only [Frame.toDict, Handshake.toDict, Frame.Fits, List.forall_mem_append, List.forall_mem_cons,
      iff_true, Json.height, maxJsonDepth]
    refine ⟨⟨by omega, by omega, by omega, by omega, by omega, fun _ none => absurd none List.not_mem_nil⟩, ?_⟩
    intro member inside
    cases h : frame.credential with
    | none => simp [h] at inside
    | some credential =>
      simp only [h, Option.map_some, Option.toList_some, List.mem_singleton] at inside
      rw [inside]
      simp [Token.toJson, Json.height]
  | handshakeResponse frame =>
    have version := versionHeight frame.protocol
    have capabilities := tokensHeight frame.capabilities
    have error := errorHeight frame.error
    have service : frame.serviceVersion.toJson.height = 0 := rfl
    simp only [Frame.toDict, HandshakeResponse.toDict, Frame.Fits, List.forall_mem_cons, Json.height,
      ← error, service]
    simp only [maxJsonDepth]
    refine ⟨fun all => by omega, fun fits => ?_⟩
    exact ⟨by omega, by omega, by omega, by omega, by omega, by omega, by omega,
      fun _ none => absurd none List.not_mem_nil⟩
  | request frame =>
    have version := versionHeight frame.protocol
    have requestId : frame.requestId.toJson.height = 0 := rfl
    have method : frame.method.toJson.height = 0 := rfl
    simp only [Frame.toDict, Request.toDict, Frame.Fits, List.forall_mem_cons, Json.height, requestId,
      method]
    simp only [maxJsonDepth]
    refine ⟨fun all => by omega, fun fits => ?_⟩
    exact ⟨by omega, by omega, by omega, by omega, by omega, by omega,
      fun _ none => absurd none List.not_mem_nil⟩
  | response frame =>
    have version := versionHeight frame.protocol
    have error := errorHeight frame.error
    have requestId : frame.requestId.toJson.height = 0 := rfl
    simp only [Frame.toDict, Response.toDict, Frame.Fits, List.forall_mem_cons, Json.height, ← error,
      requestId]
    simp only [maxJsonDepth]
    refine ⟨fun all => by omega, fun fits => ?_⟩
    exact ⟨by omega, by omega, by omega, by omega, by omega, by omega, by omega,
      fun _ none => absurd none List.not_mem_nil⟩

/-! ## Encoded frames -/

section Encoded
variable {floats : FloatText} {frame : Frame} {maxFrameSize : Int} {bytes : ByteArray}

theorem encodedSource (h : encodeFrame floats frame maxFrameSize = .ok bytes) :
    0 < maxFrameSize ∧ (bytes.size : Int) ≤ maxFrameSize ∧
      ∃ text, dumps floats (.obj frame.toDict) = .ok text ∧ bytes = (text ++ "\n").toUTF8 := by
  simp only [encodeFrame, bindOk, ensureOk, decide_eq_true_eq] at h
  obtain ⟨-, positive, h⟩ := h
  split at h
  · cases h
  · rename_i text dumped
    split at h
    · cases h
    · rename_i room
      cases h
      exact ⟨positive, by omega, text, dumped, rfl⟩

theorem chompLine {text : List Char} (line : OneLine text) : chomp (text ++ ['\n']) = text := by
  have turned : (text ++ ['\n']).reverse = '\n' :: text.reverse := by simp
  unfold chomp
  rw [turned]
  split
  · rename_i rest shape
    have behind : text.reverse = '\r' :: rest := (List.cons.inj shape).2
    have inside : '\r' ∈ text := List.mem_reverse.mp (by simp [behind])
    exact absurd rfl (line '\r' inside).2
  · rename_i same
    cases same
    exact List.reverse_reverse text
  · rename_i none'
    exact absurd rfl (none' text.reverse)

theorem decodeEncoded (native : (Json.obj frame.toDict).every (Json.native floats) = true)
    (encoded : encodeFrame floats frame maxFrameSize = .ok bytes) (refuse : Bool) :
    decodeFrame floats bytes maxFrameSize refuse = (do
      let _ ← validateJson "frame" 0 (.obj (listed frame.toDict))
      if refuse then requireCompatibleMajor frame.protocol protocolMajor
      .ok frame.sorted) := by
  obtain ⟨positive, room, text, dumped, rfl⟩ := encodedSource encoded
  obtain ⟨short, shape⟩ := dumpsPrinted dumped
  have plain := sortedPlain native short
  have line := printLine _ plain
  have read := loadsDumps native dumped
  have letters : text.toList = print floats (Json.obj frame.toDict).sorted := by
    rw [shape, String.toList_ofList]
  have text' : (text ++ "\n").toList = text.toList ++ ['\n'] := by simp
  have chomped : chomp (text ++ "\n").toList = text.toList := by
    rw [text', chompLine (letters ▸ line)]
  have utf8 : String.fromUTF8? (text ++ "\n").toUTF8 = some (text ++ "\n") := by
    rw [String.toUTF8_eq_toByteArray, String.fromUTF8?, dif_pos (text ++ "\n").isValidUTF8]
    rfl
  have single : (!text.toList.isEmpty && !text.toList.contains '\n' && !text.toList.contains '\r') =
      true := by
    obtain ⟨c, rest, start, -⟩ := printLeads (Json.everyHere plain)
    have some' : text.toList.isEmpty = false := by rw [letters, start]; rfl
    have feed : text.toList.contains '\n' = false := by
      rw [letters, List.contains_eq_mem, decide_eq_false_iff_not]
      exact fun inside => (line '\n' inside).1 rfl
    have carriage : text.toList.contains '\r' = false := by
      rw [letters, List.contains_eq_mem, decide_eq_false_iff_not]
      exact fun inside => (line '\r' inside).2 rfl
    rw [some', feed, carriage]
    rfl
  have sorted : (Json.obj frame.toDict).sorted = .obj (listed frame.toDict) := rfl
  have major : frame.sorted.protocol = frame.protocol := by
    cases frame with
    | _ => rfl
  simp only [decodeFrame, positive, room, decide_true, ensure, if_true, okBind, utf8, chomped, single,
    String.ofList_toList, read, sorted, validated]
  by_cases fits : 0 + (Json.obj (listed frame.toDict)).height ≤ maxJsonDepth
  · simp only [if_pos fits, okBind, mapping, factoryRead, major]
  · simp only [if_neg fits, errorBind]

end Encoded

/-- A frame that was sent is received as it is exactly when the whole of it keeps to the depth its
parts were checked for. -/
theorem protocolRoundTrip {floats : FloatText} {frame : Frame} {maxFrameSize : Int} {bytes : ByteArray}
    (native : (Json.obj frame.toDict).every (Json.native floats) = true)
    (major : frame.protocol.major = protocolMajor)
    (encoded : encodeFrame floats frame maxFrameSize = .ok bytes) (refuse : Bool) :
    (∃ received, decodeFrame floats bytes maxFrameSize refuse = .ok received ∧
      frame.Equals received) ↔ frame.Fits := by
  have height : (Json.obj (listed frame.toDict)).height = (Json.obj frame.toDict).height :=
    Json.sortedHeight (.obj frame.toDict)
  have compatible : requireCompatibleMajor frame.protocol protocolMajor = .ok () := by
    simp [requireCompatibleMajor, major]
  have checked : (do
      if refuse then requireCompatibleMajor frame.protocol protocolMajor
      Except.ok frame.sorted) = (.ok frame.sorted : Except ProtocolFault Frame) := by
    cases refuse with
    | true => rw [if_pos rfl, compatible, okBind]
    | false => rfl
  rw [decodeEncoded native encoded, validated, Nat.zero_add, height, checked, ← frameHeight]
  by_cases fits : (Json.obj frame.toDict).height ≤ maxJsonDepth
  · rw [if_pos fits, okBind]
    exact ⟨fun _ => fits, fun _ => ⟨_, rfl, frameEqualsSorted frame⟩⟩
  · rw [if_neg fits, errorBind]
    refine ⟨?_, fun deep => absurd deep fits⟩
    rintro ⟨received, refused, -⟩
    cases refused

namespace Example

-- the interpreter's floats, as far as these frames need them
def floats : FloatText where
  isDouble x := decide (x = 1 / 2)
  repr _ := "0.5".toList
  read text := if text = "0.5".toList then some (1 / 2) else none
  shape x _ := ⟨⟨[], ['0'], ['.', '5'], []⟩, ⟨.inl rfl, .inl rfl,
    .inr ⟨['5'], ⟨nofun, fun c inside => List.mem_singleton.mp inside ▸ rfl⟩, rfl⟩, .inl rfl⟩,
    .inl nofun, rfl⟩
  exact x double := by
    rw [if_pos rfl, of_decide_eq_true double]

def searchRequest : Request where
  requestId := ⟨"r1", by decide⟩
  method := ⟨"memory.search", by decide⟩
  params := ⟨[("query", .str "tea\n"), ("weight", .float (1 / 2)), ("limit", .int 5)], by decide⟩
  protocol := ⟨1, 0⟩
  schemaVersion := 1
  supported := by decide
  unspoofed := by decide

def nested : Nat → Json
  | 0 => .null
  | n + 1 => .arr [nested n]

def deepRequest : Request := { searchRequest with
  params := ⟨[("query", nested 31)], by decide +kernel⟩
  unspoofed := by decide }

theorem sent (frame : Frame) (short : (encodeFrame floats frame maxFrameSize).toOption.isSome = true) :
    ∃ bytes, encodeFrame floats frame maxFrameSize = .ok bytes := by
  obtain ⟨bytes, found⟩ := Option.isSome_iff_exists.mp short
  exact ⟨bytes, okOfOption found⟩

theorem protocolRoundTripHere : ∃ bytes received,
    encodeFrame floats (.request searchRequest) maxFrameSize = .ok bytes ∧
      decodeFrame floats bytes maxFrameSize true = .ok received ∧
        (Frame.request searchRequest).Equals received := by
  obtain ⟨bytes, encoded⟩ := sent (.request searchRequest) (by decide +kernel)
  obtain ⟨received, decoded, same⟩ := (protocolRoundTrip (by decide +kernel) rfl encoded true).mpr
    ((frameHeight _).mp (by decide +kernel))
  exact ⟨bytes, received, encoded, decoded, same⟩

/-- Parameters of the depth the constructor allows are refused in the frame they were sent in. -/
theorem deepRequestRefused :
    Request.make (.str "r1") (.str "memory.search") (.obj [("query", nested 31)]) ⟨1, 0⟩ (.int 1) =
        .ok deepRequest ∧
      ∃ bytes, encodeFrame floats (.request deepRequest) maxFrameSize = .ok bytes ∧
        decodeFrame floats bytes maxFrameSize true =
          .error (.invalid "frame exceeds maximum JSON depth") := by
  refine ⟨requestMade deepRequest, ?_⟩
  obtain ⟨bytes, encoded⟩ := sent (.request deepRequest) (by decide +kernel)
  refine ⟨bytes, encoded, ?_⟩
  have native : (Json.obj (Frame.request deepRequest).toDict).every (Json.native floats) = true := by
    decide +kernel
  rw [decodeEncoded native encoded, validated, if_neg (by decide +kernel)]
  rfl

end Example
end Enfold
