import Enfold.DaemonFraming
import Enfold.ProtocolRoundTrip
import Enfold.Runtime

/-! One daemon connection: the handshake that binds it, the checks every later frame passes, and the
handler behind them. What the handler answers and whether a frame can be sent is given. -/
namespace Enfold

open Fallible

structure DaemonConfig where
  serverVersion : Label
  schemaVersion : Nat
  serverCapabilities : Tokens true
  maxFrameBytes : Nat
  clientCredentials : List (String × String)
  digests : ∀ entry ∈ clientCredentials, entry.2.length = 71

/-- `_NegotiatedConnection`. -/
structure NegotiatedConnection where
  context : ClientContext
  capabilities : Tokens true
  protocol : ProtocolVersion
  schemaVersion : Nat
  deriving DecidableEq

inductive Reply where
  | result (value : Json)
  /-- A `RequestHandlingError`, a missed deadline among them. -/
  | refused (code message : String)
  | valueError (text : String)
  | failed

structure Surroundings where
  reply : Reply
  delivered : Bool

/-- A call of the request handler, or of `_health` for the method `health`. -/
structure Invocation where
  context : ClientContext
  request : Request

/-- What `_handle_frame` does with one frame; a raised error closes like a refusal. -/
structure FrameStep where
  keepOpen : Bool
  connection : Option NegotiatedConnection
  invoked : Option Invocation
  /-- The frame handed to `_send`; `sentFrame` is what goes out for it. -/
  sent : Option Frame

section Frames
variable (rt : Runtime) (floats : FloatText) (faultText : ProtocolFault → String) (config : DaemonConfig)

def serverProtocol : ProtocolVersion := ⟨protocolMajor, protocolMinor⟩

def plainError (code message : String) : Except ProtocolFault ProtocolError :=
  ProtocolError.make (.str code) (.str message) (.bool false) (.obj [])

def negotiateHandshake (handshake : Handshake) : Except ProtocolFault HandshakeResponse :=
  if handshake.protocol.major ≠ protocolMajor then do
    let error ← plainError "incompatible_protocol_major"
      ("client major " ++ toString handshake.protocol.major ++ "; server major " ++ toString protocolMajor)
    HandshakeResponse.make (.bool false) (.arr []) config.serverVersion.toJson (some error) serverProtocol
      (.int config.schemaVersion)
  else
    let negotiated := config.serverCapabilities.items.filter handshake.capabilities.items.contains
    HandshakeResponse.make (.bool true) (.arr (negotiated.map Token.toJson)) config.serverVersion.toJson none
      serverProtocol (.int config.schemaVersion)

def handshakeRefusal (code message : String) : Except ProtocolFault HandshakeResponse := do
  let error ← plainError code message
  HandshakeResponse.make (.bool false) (.arr []) config.serverVersion.toJson (some error) serverProtocol
    (.int config.schemaVersion)

def responseError (requestId : Json) (code message : String) : Except ProtocolFault Response := do
  let error ← plainError code message
  Response.make requestId (.bool false) .null (some error) serverProtocol (.int config.schemaVersion)

def credentialAccepted (handshake : Handshake) : Bool :=
  config.clientCredentials.isEmpty ||
    match config.clientCredentials.lookup handshake.context.clientId.text with
    | none => false
    | some expected =>
      let actual := match handshake.credential with
        | some supplied => "sha256:" ++ rt.sha256 supplied.text
        | none => ""
      expected = actual

/-- `_negotiate`. -/
def negotiate (handshake : Handshake) :
    Except ProtocolFault (HandshakeResponse × Option NegotiatedConnection) := do
  let response ← negotiateHandshake config handshake
  if !response.accepted then .ok (response, none)
  else if protocolMinor < handshake.protocol.minor then do
    let refusal ← handshakeRefusal config "incompatible_protocol_minor"
      ("client minor " ++ toString handshake.protocol.minor ++ "; server minor " ++ toString protocolMinor)
    .ok (refusal, none)
  else if handshake.schemaVersion ≠ config.schemaVersion then do
    let refusal ← handshakeRefusal config "incompatible_schema"
      ("client schema " ++ toString handshake.schemaVersion ++ "; server schema " ++
        toString config.schemaVersion)
    .ok (refusal, none)
  else if !credentialAccepted rt config handshake then do
    let refusal ← handshakeRefusal config "invalid_client_credentials"
      "client identity credentials were not accepted"
    .ok (refusal, none)
  else .ok (response, some ⟨handshake.context, response.capabilities, handshake.protocol,
    handshake.schemaVersion⟩)

/-- What `_send` puts in the place of a frame that is too large. -/
def oversizedReply : Frame → Except ProtocolFault Frame
  | .response response => do
    let refusal ← responseError config response.requestId.toJson "response_too_large" "response too large"
    .ok (.response refusal)
  | _ => do
    let refusal ← handshakeRefusal config "response_too_large" "response too large"
    .ok (.handshakeResponse refusal)

/-- `_send`; a frame over the limit is replaced. -/
def send (delivered : Bool) (message : Frame) : Except ProtocolFault Bool :=
  match encodeFrame floats message config.maxFrameBytes with
  | .ok _ => .ok delivered
  | .error (.tooLarge _ _) => do
    let fallback ← oversizedReply config message
    match encodeFrame floats fallback config.maxFrameBytes with
    | .ok _ => .ok delivered
    | .error _ => .ok false
  | .error _ => .ok false

/-- The frame `_send` writes for a message: itself, its replacement, or none. -/
def sentFrame (message : Frame) : Option Frame :=
  match encodeFrame floats message config.maxFrameBytes with
  | .ok _ => some message
  | .error (.tooLarge _ _) => (oversizedReply config message).toOption.filter fun fallback =>
      (encodeFrame floats fallback config.maxFrameBytes).toOption.isSome
  | .error _ => none

theorem sendWrites (delivered : Bool) (message : Frame) :
    (send floats config delivered message).toOption.getD false =
      (delivered && (sentFrame floats config message).isSome) := by
  unfold send sentFrame
  cases encodeFrame floats message config.maxFrameBytes with
  | ok bytes => simp [Except.toOption]
  | error fault =>
    cases fault with
    | tooLarge size limit =>
      cases oversizedReply config message with
      | error _ => simp [Except.toOption, errorBind]
      | ok fallback =>
        simp only [okBind]
        cases written : encodeFrame floats fallback config.maxFrameBytes with
        | error _ => simp [Except.toOption, Option.filter, written]
        | ok bytes => simp [Except.toOption, Option.filter, written]
    | _ => simp [Except.toOption]

/-- `_request_incompatibility`. -/
def requestIncompatibility (connection : NegotiatedConnection) (request : Request) :
    Option (String × String) :=
  if request.protocol ≠ connection.protocol then
    some ("connection_protocol_changed", "request protocol differs from the accepted handshake")
  else if request.schemaVersion ≠ connection.schemaVersion then
    some ("connection_schema_changed", "request schema differs from the accepted handshake")
  else none

def requiredCapability (request : Request) : String :=
  (methodCapabilities.lookup request.method.text).get request.supported

def extractionEnqueueValidationErrors : List String :=
  ["transcript, source, and scope must be non-empty",
    "extraction scope must be present in context access scopes",
    "extraction metadata must contain JSON values",
    "canonical extraction payload exceeds size limit"]

/-- `result.update`, member by member. -/
def updateMember (members : JsonObject) (key : String) (value : Json) : JsonObject :=
  if (members.lookup key).isSome then
    members.map fun m => if m.1 = key then (key, value) else m
  else members ++ [(key, value)]

/-- The members a health hook cannot override. -/
def healthIdentity : JsonObject :=
  [("service_version", config.serverVersion.toJson), ("protocol", .obj serverProtocol.toDict),
    ("schema_version", .int config.schemaVersion)]

/-- `_health`, with what the hook returns. -/
def health (extension : Reply) : Reply :=
  let update (members extension : JsonObject) : JsonObject :=
    extension.foldl (fun members m => updateMember members m.1 m.2) members
  match extension with
  | .result (.obj members) =>
    .result (.obj (update (update (("status", .str "ok") :: healthIdentity config) members)
      (healthIdentity config)))
  | .result _ => .failed
  | other => other

def replyResponse (request : Request) (reply : Reply) : Except ProtocolFault Response :=
  let internalError := responseError config request.requestId.toJson "internal_error" "request handler failed"
  match reply with
  | .result value =>
    match Response.make request.requestId.toJson (.bool true) value none serverProtocol
        (.int config.schemaVersion) with
    | .ok response => .ok response
    | .error _ => internalError
  | .refused code message => responseError config request.requestId.toJson code message
  | .valueError text =>
    if request.method.text = "memory.extraction.enqueue" && extractionEnqueueValidationErrors.contains text
    then responseError config request.requestId.toJson "invalid_params" text
    else internalError
  | .failed => internalError

/-- Hand a response to `_send`, whatever becomes of it there, and close. -/
def closing (connection : Option NegotiatedConnection) (response : Except ProtocolFault Frame) : FrameStep where
  keepOpen := false
  connection := connection
  invoked := none
  sent := response.toOption

/-- `_send_protocol_error`. -/
def protocolError (connection : Option NegotiatedConnection) (code message : String) :
    Except ProtocolFault Frame :=
  match connection with
  | none => do
    let refusal ← handshakeRefusal config code message
    .ok (.handshakeResponse refusal)
  | some _ => do
    let refusal ← responseError config (.str "invalid") code message
    .ok (.response refusal)

def answering (connection : NegotiatedConnection) (invoked : Option Invocation) (delivered : Bool)
    (response : Except ProtocolFault Response) : FrameStep :=
  match response with
  | .error _ => ⟨false, connection, invoked, none⟩
  | .ok response =>
    ⟨(send floats config delivered (.response response)).toOption.getD false, connection, invoked,
      some (.response response)⟩

def handleFirst (around : Surroundings) : Frame → FrameStep
  | .handshake handshake =>
    match negotiate rt config handshake with
    | .error _ => ⟨false, none, none, none⟩
    | .ok (response, negotiated) =>
      let sent := (send floats config around.delivered (.handshakeResponse response)).toOption.getD false
      ⟨sent && response.accepted, negotiated, none, some (.handshakeResponse response)⟩
  | _ => closing none (protocolError config none "handshake_required"
      "the first connection frame must be a handshake")

def handleNext (around : Surroundings) (connection : NegotiatedConnection) : Frame → FrameStep
  | .request request =>
    match requestIncompatibility connection request with
    | some (code, message) =>
      closing connection ((responseError config request.requestId.toJson code message).map Frame.response)
    | none =>
      let capability := requiredCapability request
      if !connection.capabilities.items.any (·.text = capability) then
        -- the one refusal that leaves the connection open
        let refused := responseError config request.requestId.toJson "capability_not_negotiated"
          ("method requires negotiated capability: " ++ capability)
        match refused with
        | .error _ => closing connection (refused.map Frame.response)
        | .ok response => ⟨true, connection, none, some (.response response)⟩
      else
        let reply := if request.method.text = "health" then health config around.reply else around.reply
        answering floats config connection (some ⟨connection.context, request⟩) around.delivered
          (replyResponse config request reply)
  | _ => closing connection (protocolError config (some connection) "request_required"
      "only request frames are allowed after handshake")

/-- `ProtocolCodec.decode`: a major mismatch is left to the handshake. -/
def decodeBytes (frame : Bytes) : Except ProtocolFault Frame :=
  decodeFrame floats ⟨frame.toArray⟩ config.maxFrameBytes false

/-- `_handle_frame` behind the codec. -/
def handleDecoded (around : Surroundings) (connection : Option NegotiatedConnection) :
    Except ProtocolFault Frame → FrameStep
  | .error fault =>
    if fault.isValidation then closing connection (protocolError config connection "invalid_frame" (faultText fault))
    -- an exception of another class ends the client's thread, and nothing is sent
    else ⟨false, connection, none, none⟩
  | .ok decoded =>
    match connection with
    | none => handleFirst rt floats config around decoded
    | some connection => handleNext floats config around connection decoded

/-- `_handle_frame`. -/
def handleFrame (around : Surroundings) (connection : Option NegotiatedConnection) (frame : Bytes) : FrameStep :=
  handleDecoded rt floats faultText config around connection (decodeBytes floats config frame)

end Frames
/-! ## The connection as a whole -/

structure ServedFrame where
  frame : Bytes
  step : FrameStep

structure DaemonSession where
  connection : Option NegotiatedConnection
  served : List ServedFrame

section Sessions
variable (rt : Runtime) (floats : FloatText) (faultText : ProtocolFault → String) (config : DaemonConfig)

/-- The next frame; `around` says what each frame of the connection meets. -/
def DaemonSession.handle (around : Nat → Surroundings) (session : DaemonSession) (frame : Bytes) :
    Bool × DaemonSession :=
  let step := handleFrame rt floats faultText config (around session.served.length) session.connection frame
  (step.keepOpen, ⟨step.connection, session.served ++ [⟨frame, step⟩]⟩)

def daemonSession (around : Nat → Surroundings) (reads : List Bytes) : DaemonSession :=
  (serveClient (DaemonSession.handle rt floats faultText config around) config.maxFrameBytes ⟨none, []⟩
    reads).1.state

structure Handshake.Accepted (handshake : Handshake) : Prop where
  major : handshake.protocol.major = protocolMajor
  minor : handshake.protocol.minor ≤ protocolMinor
  schemaVersion : handshake.schemaVersion = config.schemaVersion
  credential : config.clientCredentials ≠ [] → ∃ supplied, handshake.credential = some supplied ∧
    config.clientCredentials.lookup handshake.context.clientId.text = some ("sha256:" ++ rt.sha256 supplied.text)

structure Invocation.Allowed (call : Invocation) (handshake : Handshake) (frame : Bytes) : Prop where
  asked : decodeBytes floats config frame = .ok (.request call.request)
  context : call.context = handshake.context
  protocol : call.request.protocol = handshake.protocol
  schemaVersion : call.request.schemaVersion = handshake.schemaVersion
  negotiated : ∃ capability ∈ handshake.capabilities.items, capability ∈ config.serverCapabilities.items ∧
    methodCapabilities.lookup call.request.method.text = some capability.text

/-- The first frame is a handshake that was accepted, and the connection is bound to it. -/
def ServedFrame.Binds (first : ServedFrame) (handshake : Handshake) : Prop :=
  decodeBytes floats config first.frame = .ok (.handshake handshake) ∧ handshake.Accepted rt config ∧
    ∃ connection, first.step.connection = some connection ∧ connection.context = handshake.context

/-- What holds of every connection: a call comes behind an accepted handshake and only as it allows,
what was bound stays bound, and a frame that closes is the last. -/
structure DaemonSession.Lawful (session : DaemonSession) : Prop where
  called : ∀ later ∈ session.served.tail, ∀ call ∈ later.step.invoked, ∃ first ∈ session.served.head?,
    ∃ handshake, first.Binds rt floats config handshake ∧ call.Allowed floats config handshake later.frame
  silent : ∀ first ∈ session.served.head?, first.step.invoked = none
  bound : ∀ first ∈ session.served.head?, ∀ later ∈ session.served.tail,
    later.step.connection = first.step.connection
  last : ∀ earlier ∈ session.served.dropLast, earlier.step.keepOpen = true

end Sessions

section Laws
variable {rt : Runtime} {floats : FloatText} {faultText : ProtocolFault → String} {config : DaemonConfig}
  {around : Surroundings} {handshake : Handshake} {connection : NegotiatedConnection}

structure NegotiatedConnection.Of (connection : NegotiatedConnection) (handshake : Handshake)
    (config : DaemonConfig) : Prop where
  context : connection.context = handshake.context
  protocol : connection.protocol = handshake.protocol
  schemaVersion : connection.schemaVersion = handshake.schemaVersion
  capabilities : ∀ capability ∈ connection.capabilities.items,
    capability ∈ handshake.capabilities.items ∧ capability ∈ config.serverCapabilities.items

theorem credentialSource (accepted : credentialAccepted rt config handshake = true)
    (some' : config.clientCredentials ≠ []) : ∃ supplied, handshake.credential = some supplied ∧
      config.clientCredentials.lookup handshake.context.clientId.text =
        some ("sha256:" ++ rt.sha256 supplied.text) := by
  have nonempty : config.clientCredentials.isEmpty = false := by
    simpa using some'
  rw [credentialAccepted, nonempty, Bool.false_or] at accepted
  split at accepted
  · cases accepted
  · rename_i expected found
    have same := of_decide_eq_true accepted
    cases supplied : handshake.credential with
    | none =>
      -- no digest is empty
      rw [supplied] at same
      obtain ⟨pre, post, split, -⟩ := List.lookup_eq_some_iff.mp found
      have long := config.digests (handshake.context.clientId.text, expected)
        (by rw [split]; exact List.mem_append_right _ List.mem_cons_self)
      rw [same] at long
      cases long
    | some supplied' =>
      rw [supplied] at same
      exact ⟨supplied', rfl, found.trans (congrArg some same)⟩

theorem stringTupleTokens {allowEmpty : Bool} {tokens : List Token} {name : String}
    {read : Tokens allowEmpty} (h : stringTuple allowEmpty (.arr (tokens.map Token.toJson)) name = .ok read) :
    read.items = tokens := by
  simp only [stringTuple, tokensRead, okBind] at h
  split at h
  · split at h
    · cases h
      rfl
    · cases h
  · cases h

theorem replyMade {accepted : Bool} (tokens : List Token) {serviceVersion : Json}
    {error : Option ProtocolError} {protocol : ProtocolVersion} {schemaVersion : Json}
    {response : HandshakeResponse}
    (h : HandshakeResponse.make (.bool accepted) (.arr (tokens.map Token.toJson)) serviceVersion error protocol
      schemaVersion = .ok response) :
    response.accepted = accepted ∧ response.capabilities.items = tokens := by
  rw [HandshakeResponse.make] at h
  obtain ⟨accepted', flag, h⟩ := bindOk.mp h
  obtain ⟨capabilities, read, h⟩ := bindOk.mp h
  obtain ⟨version, label, h⟩ := bindOk.mp h
  obtain ⟨schema, number, h⟩ := bindOk.mp h
  cases flag
  split at h
  · cases h
    exact ⟨rfl, stringTupleTokens read⟩
  · split at h <;> cases h

theorem negotiateHandshakeSource {response : HandshakeResponse}
    (h : negotiateHandshake config handshake = .ok response) (accepted : response.accepted = true) :
    handshake.protocol.major = protocolMajor ∧
      response.capabilities.items =
        config.serverCapabilities.items.filter handshake.capabilities.items.contains := by
  rw [negotiateHandshake] at h
  split at h
  · obtain ⟨error, plain, made⟩ := bindOk.mp h
    have refused := (replyMade [] made).1
    rw [accepted] at refused
    cases refused
  · rename_i major
    exact ⟨not_not.mp major, (replyMade _ h).2⟩

theorem negotiateSource {response : HandshakeResponse} {connection : NegotiatedConnection}
    (h : negotiate rt config handshake = .ok (response, some connection)) :
    handshake.Accepted rt config ∧ connection.Of handshake config := by
  rw [negotiate] at h
  obtain ⟨response', made, h⟩ := bindOk.mp h
  split at h
  · cases h
  · rename_i accepted
    obtain ⟨major, capabilities⟩ := negotiateHandshakeSource made (by simpa using accepted)
    split at h
    · obtain ⟨refusal, refused, last⟩ := bindOk.mp h
      cases last
    · rename_i minor
      split at h
      · obtain ⟨refusal, refused, last⟩ := bindOk.mp h
        cases last
      · rename_i schemaVersion
        split at h
        · obtain ⟨refusal, refused, last⟩ := bindOk.mp h
          cases last
        · rename_i credential
          cases h
          have shared : ∀ capability ∈ response.capabilities.items,
              capability ∈ handshake.capabilities.items ∧ capability ∈ config.serverCapabilities.items := by
            intro capability named
            rw [capabilities, List.mem_filter] at named
            exact ⟨List.contains_iff_mem.mp named.2, named.1⟩
          exact ⟨⟨major, by omega, not_not.mp schemaVersion,
            credentialSource (by simpa using credential)⟩, ⟨rfl, rfl, rfl, shared⟩⟩

theorem negotiateAccepted {response : HandshakeResponse} {negotiated : Option NegotiatedConnection}
    (h : negotiate rt config handshake = .ok (response, negotiated)) (accepted : response.accepted = true) :
    ∃ connection, negotiated = some connection := by
  have refusalOf {code message : String} {refusal : HandshakeResponse}
      (made : handshakeRefusal config code message = .ok refusal) : refusal.accepted = false := by
    obtain ⟨error, plain, made⟩ := bindOk.mp made
    exact (replyMade [] made).1
  rw [negotiate] at h
  obtain ⟨response', made, h⟩ := bindOk.mp h
  split at h
  · rename_i refused
    cases h
    simp [accepted] at refused
  · split at h
    · obtain ⟨refusal, refused, last⟩ := bindOk.mp h
      cases last
      rw [refusalOf refused] at accepted
      cases accepted
    · split at h
      · obtain ⟨refusal, refused, last⟩ := bindOk.mp h
        cases last
        rw [refusalOf refused] at accepted
        cases accepted
      · split at h
        · obtain ⟨refusal, refused, last⟩ := bindOk.mp h
          cases last
          rw [refusalOf refused] at accepted
          cases accepted
        · cases h
          exact ⟨_, rfl⟩

theorem capabilityRequired {request : Request} :
    methodCapabilities.lookup request.method.text = some (requiredCapability request) :=
  (Option.some_get request.supported).symm

theorem incompatibilityNone {request : Request} (h : requestIncompatibility connection request = none) :
    request.protocol = connection.protocol ∧ request.schemaVersion = connection.schemaVersion := by
  rw [requestIncompatibility] at h
  split at h
  · cases h
  · rename_i protocol
    split at h
    · cases h
    · rename_i schemaVersion
      exact ⟨not_not.mp protocol, not_not.mp schemaVersion⟩

/-! ## One frame -/

theorem firstStep {frame : Bytes} {decoded : Frame} {step : FrameStep}
    (read : decodeBytes floats config frame = .ok decoded)
    (h : handleFirst rt floats config around decoded = step) :
    step.invoked = none ∧ (step.keepOpen = true → ∃ handshake connection,
      decodeBytes floats config frame = .ok (.handshake handshake) ∧ step.connection = some connection ∧
        handshake.Accepted rt config ∧ connection.Of handshake config) := by
  subst h
  cases decoded with
  | handshake handshake =>
    rw [handleFirst]
    split
    · exact ⟨rfl, nofun⟩
    · rename_i response negotiated settled
      refine ⟨rfl, fun keepOpen => ?_⟩
      obtain ⟨-, accepted⟩ := Bool.and_eq_true_iff.mp keepOpen
      obtain ⟨connection, bound⟩ := negotiateAccepted settled accepted
      subst bound
      exact ⟨handshake, connection, read, rfl, negotiateSource settled⟩
  | request request => exact ⟨rfl, nofun⟩
  | response response => exact ⟨rfl, nofun⟩
  | handshakeResponse response => exact ⟨rfl, nofun⟩

theorem nextStep {frame : Bytes} {decoded : Frame} {step : FrameStep}
    (read : decodeBytes floats config frame = .ok decoded)
    (h : handleNext floats config around connection decoded = step) (of : connection.Of handshake config) :
    step.connection = some connection ∧
      ∀ call ∈ step.invoked, call.Allowed floats config handshake frame := by
  subst h
  cases decoded with
  | request request =>
    rw [handleNext]
    split
    · exact ⟨rfl, fun _ called => nomatch called⟩
    · rename_i compatible
      obtain ⟨protocol, schemaVersion⟩ := incompatibilityNone compatible
      by_cases missing : (!connection.capabilities.items.any (·.text = requiredCapability request)) = true
      · simp only [missing, if_true]
        split
        · exact ⟨rfl, fun _ called => nomatch called⟩
        · exact ⟨rfl, fun _ called => nomatch called⟩
      · simp only [missing]
        simp only [Bool.not_eq_true', Bool.not_eq_false, List.any_eq_true, decide_eq_true_eq] at missing
        obtain ⟨capability, held, named⟩ := missing
        have shared := of.capabilities capability held
        have allowed : Invocation.Allowed floats config ⟨connection.context, request⟩ handshake frame :=
          { asked := read
            context := of.context
            protocol := protocol.trans of.protocol
            schemaVersion := schemaVersion.trans of.schemaVersion
            negotiated := ⟨capability, shared.1, shared.2, by rw [capabilityRequired, named]⟩ }
        simp only [answering, Bool.false_eq_true, if_false]
        split
        · exact ⟨rfl, fun call called => Option.some.inj called ▸ allowed⟩
        · exact ⟨rfl, fun call called => Option.some.inj called ▸ allowed⟩
  | handshake handshake => exact ⟨rfl, fun _ called => nomatch called⟩
  | response response => exact ⟨rfl, fun _ called => nomatch called⟩
  | handshakeResponse response => exact ⟨rfl, fun _ called => nomatch called⟩

theorem openingStep {frame : Bytes} {step : FrameStep}
    (h : handleFrame rt floats faultText config around none frame = step) :
    step.invoked = none ∧ (step.keepOpen = true → ∃ handshake connection,
      decodeBytes floats config frame = .ok (.handshake handshake) ∧ step.connection = some connection ∧
        handshake.Accepted rt config ∧ connection.Of handshake config) := by
  unfold handleFrame handleDecoded at h
  split at h
  · split at h
    · subst h
      exact ⟨rfl, nofun⟩
    · subst h
      exact ⟨rfl, nofun⟩
  · rename_i decoded read
    exact firstStep read h

theorem boundStep {frame : Bytes} {step : FrameStep}
    (h : handleFrame rt floats faultText config around (some connection) frame = step)
    (of : connection.Of handshake config) :
    step.connection = some connection ∧ ∀ call ∈ step.invoked, call.Allowed floats config handshake frame := by
  unfold handleFrame handleDecoded at h
  split at h
  · split at h
    · subst h
      exact ⟨rfl, fun _ called => nomatch called⟩
    · subst h
      exact ⟨rfl, fun _ called => nomatch called⟩
  · rename_i decoded read
    exact nextStep read h of

end Laws

/-! ## Every frame of a connection -/

section Connections
variable {rt : Runtime} {floats : FloatText} {faultText : ProtocolFault → String} {config : DaemonConfig}
  {session : DaemonSession}

def DaemonSession.Open (rt : Runtime) (floats : FloatText) (config : DaemonConfig) (session : DaemonSession) :
    Prop :=
  session = ⟨none, []⟩ ∨ ∃ first later handshake connection, session = ⟨some connection, first :: later⟩ ∧
    decodeBytes floats config first.frame = .ok (.handshake handshake) ∧ handshake.Accepted rt config ∧
    connection.Of handshake config ∧ first.step.connection = some connection ∧ first.step.invoked = none ∧
    first.step.keepOpen = true ∧ ∀ served ∈ later, served.step.keepOpen = true ∧
      served.step.connection = some connection ∧
      ∀ call ∈ served.step.invoked, call.Allowed floats config handshake served.frame

theorem openHandled (around : Nat → Surroundings) (frame : Bytes) (h : session.Open rt floats config) :
    let handled := session.handle rt floats faultText config around frame
    handled.2.Lawful rt floats config ∧ (handled.1 = true → handled.2.Open rt floats config) := by
  obtain rfl | ⟨first, later, handshake, connection, rfl, read, accepted, of, bound, silent, stays, others⟩ := h
  · obtain ⟨silent, opened⟩ := openingStep
      (Eq.refl (handleFrame rt floats faultText config (around 0) none frame))
    refine ⟨?_, fun keepOpen => ?_⟩
    · exact
        { called := fun _ isLater => nomatch isLater
          silent := fun first isFirst => Option.some.inj isFirst ▸ silent
          bound := fun _ _ _ isLater => nomatch isLater
          last := fun _ isEarlier => nomatch isEarlier }
    · obtain ⟨handshake, connection, read, bound, accepted, of⟩ := opened keepOpen
      refine .inr ⟨⟨frame, _⟩, [], handshake, connection, ?_, read, accepted, of, bound, silent, keepOpen,
        fun _ isLater => nomatch isLater⟩
      rw [DaemonSession.handle]
      exact congrArg (DaemonSession.mk · _) bound
  · obtain ⟨kept, allowed⟩ := boundStep (Eq.refl (handleFrame rt floats faultText config
      (around (first :: later).length) (some connection) frame)) of
    have binds : first.Binds rt floats config handshake := ⟨read, accepted, connection, bound, of.context⟩
    refine ⟨?_, fun keepOpen => ?_⟩
    · exact
        { called := by
            intro served isLater call called
            refine ⟨first, rfl, handshake, binds, ?_⟩
            obtain before | here := List.mem_append.mp isLater
            · exact (others served before).2.2 call called
            · obtain rfl := List.mem_singleton.mp here
              exact allowed call called
          silent := fun served isFirst => Option.some.inj isFirst ▸ silent
          bound := by
            intro served isFirst next isLater
            obtain rfl := Option.some.inj isFirst
            obtain before | here := List.mem_append.mp isLater
            · exact (others next before).2.1.trans bound.symm
            · obtain rfl := List.mem_singleton.mp here
              exact kept.trans bound.symm
          last := by
            intro earlier isEarlier
            rw [DaemonSession.handle, List.dropLast_concat] at isEarlier
            obtain rfl | before := List.mem_cons.mp isEarlier
            · exact stays
            · exact (others earlier before).1 }
    · refine .inr ⟨first, later ++ [⟨frame, handleFrame rt floats faultText config
        (around (first :: later).length) (some connection) frame⟩], handshake, connection, ?_, read, accepted, of,
        bound, silent, stays, ?_⟩
      · rw [DaemonSession.handle]
        exact congrArg (DaemonSession.mk · _) kept
      · intro served isLater
        obtain before | here := List.mem_append.mp isLater
        · exact others served before
        · obtain rfl := List.mem_singleton.mp here
          exact ⟨keepOpen, kept, allowed⟩

theorem openLawful (h : session.Open rt floats config) : session.Lawful rt floats config := by
  obtain rfl | ⟨first, later, handshake, connection, rfl, read, accepted, of, bound, silent, stays, others⟩ := h
  · exact
      { called := fun _ isLater => nomatch isLater
        silent := fun _ isFirst => nomatch isFirst
        bound := fun _ isFirst => nomatch isFirst
        last := fun _ isEarlier => nomatch isEarlier }
  · exact
      { called := fun served isLater call called => ⟨first, rfl, handshake,
          ⟨read, accepted, connection, bound, of.context⟩, (others served isLater).2.2 call called⟩
        silent := fun served isFirst => Option.some.inj isFirst ▸ silent
        bound := fun served isFirst next isLater =>
          Option.some.inj isFirst ▸ (others next isLater).2.1.trans bound.symm
        last := by
          intro earlier isEarlier
          obtain rfl | before := List.mem_cons.mp ((List.dropLast_subset _) isEarlier)
          · exact stays
          · exact (others earlier before).1 }

end Connections

/-- Whatever a peer sends, and however it arrives: a call of the request handler comes behind an accepted
handshake, with the context that handshake bound, for a capability, a protocol and a schema version it
negotiated; nothing rebinds the connection, and behind a frame that closes there is no other. -/
theorem handlerGuarded (rt : Runtime) (floats : FloatText) (faultText : ProtocolFault → String)
    (config : DaemonConfig) (around : Nat → Surroundings) (reads : List Bytes) :
    (daemonSession rt floats faultText config around reads).Lawful rt floats config :=
  serveInvariant
    (P := DaemonSession.Open rt floats config) (Q := DaemonSession.Lawful rt floats config)
    (fun _ frame isOpen keepOpen => (openHandled around frame isOpen).2 keepOpen)
    (fun _ frame isOpen _ => (openHandled around frame isOpen).1)
    (fun _ isOpen => openLawful isOpen) (.inl rfl)

end Enfold
