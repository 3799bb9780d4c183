import Enfold.DaemonConnection
import Enfold.ProtocolRoundTrip

/-! One request of a client: a connection of its own, a handshake, the request and its response. What the client
returns is what the daemon's handler was called for, however the streams between them are split or cut. -/
namespace Enfold

open Fallible

/-! ## Lines -/

theorem lineByte {c : Char} (h : lineEnd ∈ String.utf8EncodeChar c) : c = '\n' := by
  have high {n m : Nat} (upper : 128 ≤ m) (room : n + m < 256) : lineEnd ≠ UInt8.ofNat (n + m) := by
    intro same
    have bytes := congrArg UInt8.toNat same
    rw [UInt8.toNat_ofNat_of_lt' (by simpa [UInt8.size] using room)] at bytes
    have ten : lineEnd.toNat = 10 := rfl
    omega
  unfold String.utf8EncodeChar at h
  dsimp only at h
  split at h
  · rename_i ascii
    have same := congrArg UInt8.toNat (List.mem_singleton.mp h)
    rw [UInt8.toNat_ofNat_of_lt' (by simp only [UInt8.size]; omega)] at same
    have ten : lineEnd.toNat = 10 := rfl
    exact Char.ext (UInt32.toNat_inj.mp (by rw [← same, ten]; rfl))
  · split at h
    · simp only [List.mem_cons, List.not_mem_nil, or_false] at h
      rcases h with first | second
      · exact absurd first (high (by omega) (by omega))
      · exact absurd second (high (by omega) (by omega))
    · split at h
      · simp only [List.mem_cons, List.not_mem_nil, or_false] at h
        rcases h with first | second | third
        · exact absurd first (high (by omega) (by omega))
        · exact absurd second (high (by omega) (by omega))
        · exact absurd third (high (by omega) (by omega))
      · simp only [List.mem_cons, List.not_mem_nil, or_false] at h
        rcases h with first | second | third | fourth
        · exact absurd first (high (by omega) (by omega))
        · exact absurd second (high (by omega) (by omega))
        · exact absurd third (high (by omega) (by omega))
        · exact absurd fourth (high (by omega) (by omega))

theorem textBytes {text : String} (line : '\n' ∉ text.toList) : lineEnd ∉ text.toUTF8.data.toList := by
  intro inside
  rw [String.toUTF8_eq_toByteArray, ← String.utf8Encode_toList, List.utf8Encode, List.data_toByteArray,
    List.toList_toArray, List.mem_flatMap] at inside
  obtain ⟨c, listed, here⟩ := inside
  exact line (lineByte here ▸ listed)

section Encoded
variable {floats : FloatText} {frame received : Frame} {maxFrameSize : Int} {bytes : ByteArray} {text : String}

theorem dumpedLine (native : (Json.obj frame.toDict).every (Json.native floats) = true)
    (dumped : dumps floats (.obj frame.toDict) = .ok text) :
    text.toList ≠ [] ∧ '\n' ∉ text.toList ∧ '\r' ∉ text.toList := by
  obtain ⟨short, shape⟩ := dumpsPrinted dumped
  have plain := sortedPlain native short
  have line := printLine _ plain
  have letters : text.toList = print floats (Json.obj frame.toDict).sorted := by
    rw [shape, String.toList_ofList]
  rw [letters]
  refine ⟨?_, fun inside => (line '\n' inside).1 rfl, fun inside => (line '\r' inside).2 rfl⟩
  obtain ⟨c, rest, start, -⟩ := printLeads (Json.everyHere plain)
  rw [start]
  exact List.cons_ne_nil c rest

def FrameLine (floats : FloatText) (frame : Frame) (line : Bytes) : Prop :=
  ∃ text, dumps floats (.obj frame.toDict) = .ok text ∧ line = text.toUTF8.data.toList

theorem lineFree {line : Bytes} (native : (Json.obj frame.toDict).every (Json.native floats) = true)
    (h : FrameLine floats frame line) : lineEnd ∉ line := by
  obtain ⟨text, dumped, rfl⟩ := h
  exact textBytes (dumpedLine native dumped).2.1

theorem encodedLine (encoded : encodeFrame floats frame maxFrameSize = .ok bytes) :
    ∃ line, FrameLine floats frame line ∧ bytes.data.toList = line ++ [lineEnd] := by
  obtain ⟨-, -, text, dumped, rfl⟩ := encodedSource encoded
  refine ⟨_, ⟨text, dumped, rfl⟩, ?_⟩
  rw [String.toUTF8_eq_toByteArray, String.toByteArray_append, ByteArray.data_append, Array.toList_append]
  rfl

theorem decodeLine (native : (Json.obj frame.toDict).every (Json.native floats) = true)
    (dumped : dumps floats (.obj frame.toDict) = .ok text) {ended : String}
    (ends : ended = text ∨ ended = text ++ "\n") {refuse : Bool}
    (decoded : decodeFrame floats ended.toUTF8 maxFrameSize refuse = .ok received) :
    received = frame.sorted := by
  obtain ⟨some', line⟩ := dumpedLine native dumped
  have chomped : chomp ended.toList = text.toList := by
    rcases ends with rfl | rfl
    · unfold chomp
      split
      · rename_i rest shape
        exact absurd (List.mem_reverse.mp (by simp [shape])) line.1
      · rename_i rest shape
        exact absurd (List.mem_reverse.mp (by simp [shape])) line.1
      · rfl
    · have text' : (text ++ "\n").toList = text.toList ++ ['\n'] := by simp
      rw [text', chompLine fun c inside =>
        ⟨fun here => line.1 (here ▸ inside), fun here => line.2 (here ▸ inside)⟩]
  have utf8 : String.fromUTF8? ended.toUTF8 = some ended := by
    rw [String.toUTF8_eq_toByteArray, String.fromUTF8?, dif_pos ended.isValidUTF8]
    rfl
  have sorted : (Json.obj frame.toDict).sorted = .obj (listed frame.toDict) := rfl
  simp only [decodeFrame, bindOk, utf8, chomped, String.ofList_toList, loadsDumps native dumped, sorted,
    validated] at decoded
  obtain ⟨-, -, -, -, -, -, data, checked, members, mapped, frame', made, rest⟩ := decoded
  split at checked
  · cases checked
    cases mapped
    rw [factoryRead] at made
    cases made
    split at rest
    · obtain ⟨-, -, last⟩ := bindOk.mp rest
      exact (Except.ok.inj last).symm
    · exact (Except.ok.inj rest).symm
  · cases checked

theorem lineDecoded {line : Bytes} (native : (Json.obj frame.toDict).every (Json.native floats) = true)
    (h : FrameLine floats frame line) {refuse : Bool}
    (decoded : decodeFrame floats ⟨line.toArray⟩ maxFrameSize refuse = .ok received ∨
      decodeFrame floats ⟨(line ++ [lineEnd]).toArray⟩ maxFrameSize refuse = .ok received) :
    received = frame.sorted := by
  obtain ⟨text, dumped, rfl⟩ := h
  rcases decoded with bare | ended
  · exact decodeLine native dumped (.inl rfl) bare
  · have same : (⟨(text.toUTF8.data.toList ++ [lineEnd]).toArray⟩ : ByteArray) = (text ++ "\n").toUTF8 := by
      refine ByteArray.ext (Array.toList_inj.mp ?_)
      rw [String.toUTF8_eq_toByteArray, String.toUTF8_eq_toByteArray, String.toByteArray_append,
        ByteArray.data_append, Array.toList_append]
      rfl
    rw [same] at ended
    exact decodeLine native dumped (.inr rfl) ended

end Encoded

/-! ## The client -/

structure ClientConfig where
  context : ClientContext
  capabilities : Tokens true
  protocol : ProtocolVersion
  schemaVersion : Nat
  maxFrameBytes : Nat
  credential : Option Token

inductive ClientFailure where
  | handshake (error : ProtocolError)
  | remote (error : ProtocolError) (requestId : Token)
  | protocol (message : String)
  /-- The socket failed, ran into its timeout or ended. -/
  | transport
  /-- An exception that is no client error. -/
  | raised (fault : ProtocolFault)

/-- `_handshake`. -/
def ClientConfig.handshake (config : ClientConfig) : Handshake :=
  ⟨config.context, config.capabilities, config.protocol, config.schemaVersion, config.credential⟩

section Client
variable (floats : FloatText) (faultText : ProtocolFault → String) (config : ClientConfig)

/-- `_receive`, up to the frame and what is left to read behind it. -/
def receiveFrame (buffer : Bytes) : List Bytes → Except ClientFailure (Bytes × List Bytes)
  | [] => .error .transport
  | chunk :: reads =>
    if chunk = [] then .error .transport
    else
      let data := buffer ++ chunk
      match Delimited.cut lineEnd data with
      | some (_, rest) =>
        if rest ≠ [] then .error (.protocol "daemon sent multiple frames unexpectedly") else .ok (data, reads)
      | none =>
        if config.maxFrameBytes ≤ data.length then .error (.protocol "daemon frame exceeds configured limit")
        else receiveFrame data reads

def protocolFailure (fault : ProtocolFault) : ClientFailure :=
  if fault.isValidation then .protocol ("invalid daemon protocol frame: " ++ faultText fault) else .raised fault

/-- `_send`, as far as the frame decides it. -/
def encodeSent (frame : Frame) : Except ClientFailure ByteArray :=
  (encodeFrame floats frame config.maxFrameBytes).mapError (protocolFailure faultText)

def decodeReceived (data : Bytes) : Except ClientFailure Frame :=
  (decodeFrame floats ⟨data.toArray⟩ config.maxFrameBytes true).mapError (protocolFailure faultText)

/-- `_validate_handshake`. -/
def validateHandshake (required : String) : Frame → Except ClientFailure Unit
  | .handshakeResponse response =>
    match response.error with
    | some error => .error (.handshake error)
    | none => do
      ensure (decide (response.protocol = config.protocol))
        (.protocol "daemon negotiated an unexpected protocol version")
      ensure (decide (response.schemaVersion = config.schemaVersion))
        (.protocol "daemon negotiated an unexpected schema version")
      ensure (response.capabilities.items.any fun capability => decide (capability.text = required))
        (.protocol ("daemon did not negotiate required capability: " ++ required))
  | _ => .error (.protocol "expected handshake response from daemon")

/-- `_validate_response`, and the result of the response. -/
def readResponse (request : Request) : Frame → Except ClientFailure Json
  | .response response => do
    ensure (decide (response.requestId = request.requestId))
      (.protocol "daemon response request_id does not match request")
    ensure (decide (response.protocol = config.protocol))
      (.protocol "daemon response protocol differs from handshake")
    ensure (decide (response.schemaVersion = config.schemaVersion))
      (.protocol "daemon response schema differs from handshake")
    match response.error with
    | some error => .error (.remote error response.requestId)
    | none => .ok response.result.value
  | _ => .error (.protocol "expected response frame from daemon")

/-- `EnfoldClient.request` for the request made of its arguments, `method` as it was spelled there; `reads`
is what the socket hands over. -/
def clientExchange (method : String) (request : Request) (reads : List Bytes) : Except ClientFailure Json := do
  let capability := requiredCapability request
  ensure (config.capabilities.items.any fun held => decide (held.text = capability))
    (.protocol ("client did not request capability required by " ++ method ++ ": " ++ capability))
  let _ ← encodeSent floats faultText config (.handshake config.handshake)
  let (data, reads) ← receiveFrame config [] reads
  let hello ← decodeReceived floats faultText config data
  validateHandshake config capability hello
  let _ ← encodeSent floats faultText config (.request request)
  let (data, _) ← receiveFrame config [] reads
  let response ← decodeReceived floats faultText config data
  readResponse config request response

end Client

theorem receiveSource {config : ClientConfig} {buffer data : Bytes} {reads rest : List Bytes}
    (open' : lineEnd ∉ buffer) (h : receiveFrame config buffer reads = .ok (data, rest)) :
    buffer ++ reads.flatten = data ++ rest.flatten ∧ ∃ line, data = line ++ [lineEnd] ∧ lineEnd ∉ line := by
  induction reads generalizing buffer with
  | nil => cases h
  | cons chunk reads ih =>
    rw [receiveFrame] at h
    split at h
    · cases h
    · dsimp only at h
      split at h
      · rename_i piece behind found
        obtain ⟨shape, free⟩ := Delimited.cutSource found
        split at h
        · cases h
        · rename_i none'
          cases h
          obtain rfl := not_not.mp none'
          exact ⟨by simp, piece, shape, free⟩
      · rename_i found
        split at h
        · cases h
        · obtain ⟨same, line⟩ := ih (Delimited.cutNone.mp found) h
          refine ⟨?_, line⟩
          rw [← same]
          simp

/-! ## The daemon -/

section Daemon
variable (floats : FloatText) (config : DaemonConfig)

/-- The bytes that `_send` gives to the socket. -/
def sentBytes (message : Frame) : Bytes :=
  match encodeFrame floats message config.maxFrameBytes with
  | .ok bytes => bytes.data.toList
  | .error (.tooLarge _ _) =>
    match oversizedReply config message with
    | .ok fallback =>
      ((encodeFrame floats fallback config.maxFrameBytes).toOption.map fun bytes => bytes.data.toList).getD []
    | .error _ => []
  | .error _ => []

/-- These are the bytes of the frame that `_send` writes. -/
theorem sentBytesFrame (message : Frame) : sentBytes floats config message =
    ((sentFrame floats config message).bind fun sent =>
      (encodeFrame floats sent config.maxFrameBytes).toOption.map fun bytes => bytes.data.toList).getD [] := by
  unfold sentBytes sentFrame
  cases encoded : encodeFrame floats message config.maxFrameBytes with
  | ok bytes => simp [encoded, Except.toOption]
  | error fault =>
    cases fault with
    | tooLarge size limit =>
      cases oversizedReply config message with
      | error _ => rfl
      | ok fallback =>
        cases written : encodeFrame floats fallback config.maxFrameBytes with
        | error _ => simp [Except.toOption, Option.filter, written]
        | ok bytes => simp [Except.toOption, Option.filter, written]
    | _ => rfl

def FrameStep.bytes (step : FrameStep) : Bytes := (step.sent.map (sentBytes floats config)).getD []

/-- Everything that a connection gives to its socket; `last` is the error behind a read that failed or was
too long. -/
def daemonOutput (session : DaemonSession) (last : Option (String × String)) : Bytes :=
  (session.served.map fun frame => frame.step.bytes floats config).flatten ++
    ((last.bind fun error => (protocolError config session.connection error.1 error.2).toOption).map
      (sentBytes floats config)).getD []

end Daemon

/-! ## What the interpreter prints -/

section Native
variable {floats : FloatText} {config : DaemonConfig}

/-- The frame holds floats of the interpreter alone, and no key twice. -/
def Frame.Native (floats : FloatText) (frame : Frame) : Prop :=
  (Json.obj frame.toDict).every (Json.native floats) = true

def Frame.Refuses : Frame → Prop
  | .response answer => answer.error ≠ none
  | .handshakeResponse answer => answer.error ≠ none
  | _ => False

theorem labelNative (label : Option Label) : (labelJson label).every (Json.native floats) = true := by
  cases label with
  | none => rfl
  | some label => rfl

theorem tokensNative {allowEmpty : Bool} (tokens : Tokens allowEmpty) :
    tokens.toJson.every (Json.native floats) = true := by
  simp only [Tokens.toJson, Json.every, Json.native, Bool.true_and]
  refine Json.everyItemIff.mpr fun item inside => ?_
  obtain ⟨token, -, rfl⟩ := List.mem_map.mp inside
  rfl

theorem contextNative (context : ClientContext) :
    (Json.obj context.toDict).every (Json.native floats) = true := by
  simp only [ClientContext.toDict, Json.every, Json.everyMember, labelNative, tokensNative, Bool.and_true]
  rfl

theorem handshakeNative (handshake : Handshake) : (Frame.handshake handshake).Native floats := by
  have context := @contextNative floats handshake.context
  cases handshake with
  | mk context' capabilities protocol schemaVersion credential =>
    cases credential with
    | none =>
      simp only [Frame.Native, Frame.toDict, Handshake.toDict, Option.map_none, Option.toList_none,
        List.append_nil, Json.every, Json.everyMember, tokensNative, Bool.and_true] at context ⊢
      simp only [context]
      rfl
    | some credential =>
      simp only [Frame.Native, Frame.toDict, Handshake.toDict, Option.map_some, Option.toList_some,
        List.cons_append, List.nil_append, Json.every, Json.everyMember, tokensNative,
        Bool.and_true] at context ⊢
      simp only [context]
      rfl

def BareError (error : Option ProtocolError) : Prop := ∀ e ∈ error, e.details.members = []

theorem bareNative {error : Option ProtocolError} (bare : BareError error) :
    (errorJson error).every (Json.native floats) = true := by
  cases error with
  | none => rfl
  | some error =>
    simp only [errorJson, Option.map_some, Option.getD_some, ProtocolError.toDict, Details.toJson,
      bare error rfl]
    rfl

theorem greetingNative {response : HandshakeResponse} (bare : BareError response.error) :
    (Frame.handshakeResponse response).Native floats := by
  simp only [Frame.Native, Frame.toDict, HandshakeResponse.toDict, Json.every, Json.everyMember, tokensNative,
    bareNative bare, Bool.and_true]
  rfl

theorem responseNative {response : Response} (bare : BareError response.error)
    (result : response.result.value.every (Json.native floats) = true) :
    (Frame.response response).Native floats := by
  simp only [Frame.Native, Frame.toDict, Response.toDict, Json.every, Json.everyMember, result,
    bareNative bare, Bool.and_true]
  rfl

theorem requestNative {request : Request}
    (doubles : (Json.obj request.params.members).every (Json.native floats) = true) :
    (Frame.request request).Native floats := by
  simp only [Frame.Native, Frame.toDict, Request.toDict, Json.every, Json.everyMember, Details.toJson,
    Bool.and_true] at doubles ⊢
  simp only [doubles, Bool.and_true]
  rfl

/-! ## What the daemon refuses with -/

theorem plainDetails {code message : String} {error : ProtocolError} (h : plainError code message = .ok error) :
    error.details.members = [] := by
  rw [plainError, ProtocolError.make] at h
  obtain ⟨code', -, h⟩ := bindOk.mp h
  obtain ⟨message', -, h⟩ := bindOk.mp h
  obtain ⟨flag, -, h⟩ := bindOk.mp h
  obtain ⟨found, read, h⟩ := bindOk.mp h
  cases h
  have empty : details (.obj []) "error.details" = .ok ⟨[], by decide⟩ := detailsRead _ ⟨[], by decide⟩
  rw [empty] at read
  cases read
  rfl

theorem payloadSource {value : Json} {name : String} {found : Payload} (h : payload value name = .ok found) :
    found.value = value := by
  unfold payload at h
  split at h
  · rename_i checked
    cases h
    rw [validated] at checked
    split at checked
    · cases checked
      rfl
    · cases checked
  · cases h

theorem madeResponse {requestId result : Json} {ok : Bool} {error : Option ProtocolError}
    {protocol : ProtocolVersion} {schemaVersion : Json} {response : Response}
    (h : Response.make requestId (.bool ok) result error protocol schemaVersion = .ok response) :
    response.error = error ∧ response.result.value = result := by
  rw [Response.make] at h
  obtain ⟨id, -, h⟩ := bindOk.mp h
  obtain ⟨flag, -, h⟩ := bindOk.mp h
  obtain ⟨found, read, h⟩ := bindOk.mp h
  obtain ⟨version, -, h⟩ := bindOk.mp h
  split at h
  · split at h
    · cases h
      exact ⟨rfl, payloadSource read⟩
    · cases h
  · split at h <;> cases h

theorem madeGreeting {accepted capabilities serviceVersion : Json} {error : Option ProtocolError}
    {protocol : ProtocolVersion} {schemaVersion : Json} {response : HandshakeResponse}
    (h : HandshakeResponse.make accepted capabilities serviceVersion error protocol schemaVersion =
      .ok response) : response.error = error := by
  rw [HandshakeResponse.make] at h
  obtain ⟨flag, -, h⟩ := bindOk.mp h
  obtain ⟨held, -, h⟩ := bindOk.mp h
  obtain ⟨label, -, h⟩ := bindOk.mp h
  obtain ⟨version, -, h⟩ := bindOk.mp h
  split at h
  · cases h
    rfl
  · split at h <;> cases h

theorem refusedResponse {requestId : Json} {code message : String} {response : Response}
    (h : responseError config requestId code message = .ok response) :
    (Frame.response response).Refuses ∧ (Frame.response response).Native floats := by
  obtain ⟨error, plain, made⟩ := bindOk.mp h
  obtain ⟨same, result⟩ := madeResponse made
  refine ⟨?_, responseNative ?_ ?_⟩
  · rw [Frame.Refuses, same]
    exact Option.some_ne_none error
  · intro e inside
    rw [same] at inside
    cases inside
    exact plainDetails plain
  · rw [result]
    rfl

theorem refusedGreeting {code message : String} {response : HandshakeResponse}
    (h : handshakeRefusal config code message = .ok response) :
    (Frame.handshakeResponse response).Refuses ∧ (Frame.handshakeResponse response).Native floats := by
  obtain ⟨error, plain, made⟩ := bindOk.mp h
  have same := madeGreeting made
  refine ⟨?_, greetingNative ?_⟩
  · rw [Frame.Refuses, same]
    exact Option.some_ne_none error
  · intro e inside
    rw [same] at inside
    cases inside
    exact plainDetails plain

theorem refusedFrame {connection : Option NegotiatedConnection} {code message : String} {frame : Frame}
    (h : protocolError config connection code message = .ok frame) : frame.Refuses ∧ frame.Native floats := by
  cases connection with
  | none =>
    obtain ⟨refusal, refused, last⟩ := bindOk.mp h
    cases last
    exact refusedGreeting refused
  | some connection =>
    obtain ⟨refusal, refused, last⟩ := bindOk.mp h
    cases last
    exact refusedResponse refused

theorem sentLine {message : Frame} (native : message.Native floats) :
    sentBytes floats config message = [] ∨ ∃ frame line, sentBytes floats config message = line ++ [lineEnd] ∧
      FrameLine floats frame line ∧ frame.Native floats ∧ (frame = message ∨ frame.Refuses) := by
  unfold sentBytes
  split
  · rename_i bytes encoded
    obtain ⟨line, printed, shape⟩ := encodedLine encoded
    exact .inr ⟨message, line, shape, printed, native, .inl rfl⟩
  · split
    · rename_i fallback made
      have refused : fallback.Refuses ∧ fallback.Native floats := by
        cases message with
        | response response =>
          obtain ⟨refusal, refused, last⟩ := bindOk.mp made
          cases last
          exact refusedResponse refused
        | handshakeResponse response =>
          obtain ⟨refusal, refused, last⟩ := bindOk.mp made
          cases last
          exact refusedGreeting refused
        | handshake handshake =>
          obtain ⟨refusal, refused, last⟩ := bindOk.mp made
          cases last
          exact refusedGreeting refused
        | request request =>
          obtain ⟨refusal, refused, last⟩ := bindOk.mp made
          cases last
          exact refusedGreeting refused
      cases encoded : encodeFrame floats fallback config.maxFrameBytes with
      | error fault => exact .inl rfl
      | ok bytes =>
        obtain ⟨line, printed, shape⟩ := encodedLine encoded
        exact .inr ⟨fallback, line, shape, printed, refused.2, .inr refused.1⟩
    · exact .inl rfl
  · exact .inl rfl

end Native

/-! ## One frame of the daemon -/

def repliedFor (config : DaemonConfig) (request : Request) (reply : Reply) : Reply :=
  if request.method.text = "health" then health config reply else reply

section Steps
variable {rt : Runtime} {floats : FloatText} {faultText : ProtocolFault → String} {config : DaemonConfig}
  {around : Surroundings} {connection : NegotiatedConnection} {message : Frame}

theorem negotiatedBare {handshake : Handshake} {response : HandshakeResponse}
    {negotiated : Option NegotiatedConnection}
    (h : negotiate rt config handshake = .ok (response, negotiated)) :
    (Frame.handshakeResponse response).Native floats := by
  have offered {made : HandshakeResponse} (h : negotiateHandshake config handshake = .ok made) :
      (Frame.handshakeResponse made).Native floats := by
    rw [negotiateHandshake] at h
    split at h
    · obtain ⟨error, plain, made'⟩ := bindOk.mp h
      refine greetingNative ?_
      rw [madeGreeting made']
      intro e inside
      cases inside
      exact plainDetails plain
    · refine greetingNative ?_
      rw [madeGreeting h]
      intro e inside
      cases inside
  rw [negotiate] at h
  obtain ⟨made, offer, h⟩ := bindOk.mp h
  split at h
  · cases h
    exact offered offer
  · split at h
    · obtain ⟨refusal, refused, last⟩ := bindOk.mp h
      cases last
      exact (refusedGreeting refused).2
    · split at h
      · obtain ⟨refusal, refused, last⟩ := bindOk.mp h
        cases last
        exact (refusedGreeting refused).2
      · split at h
        · obtain ⟨refusal, refused, last⟩ := bindOk.mp h
          cases last
          exact (refusedGreeting refused).2
        · cases h
          exact offered offer

theorem closedSent {connection : Option NegotiatedConnection} {code text : String}
    (h : message ∈ (closing connection (protocolError config connection code text)).sent) :
    message.Refuses ∧ message.Native floats := by
  cases made : protocolError config connection code text with
  | error fault =>
    rw [made] at h
    cases h
  | ok frame =>
    rw [made] at h
    cases h
    exact refusedFrame made

theorem firstSent {frame : Bytes}
    (h : message ∈ (handleFrame rt floats faultText config around none frame).sent) :
    message.Native floats := by
  unfold handleFrame handleDecoded at h
  split at h
  · split at h
    · exact (closedSent h).2
    · cases h
  · rename_i decoded read
    dsimp only at h
    unfold handleFirst at h
    split at h
    · split at h
      · cases h
      · rename_i response negotiated settled
        obtain rfl := Option.some.inj (Option.mem_def.mp h)
        exact negotiatedBare settled
    · exact (closedSent h).2

/-- Past its refusals the daemon sends what the handler was called for and has returned. -/
structure Answering (config : DaemonConfig) (around : Surroundings) (connection : NegotiatedConnection)
    (request : Request) (step : FrameStep) (message : Frame) (given : Json) : Prop where
  invoked : step.invoked = some ⟨connection.context, request⟩
  replied : repliedFor config request around.reply = .result given
  carried : ∃ response, message = .response response ∧ response.result.value = given

theorem repliedSent {request : Request} {reply : Reply} {response : Response}
    (h : replyResponse config request reply = .ok response) :
    (Frame.response response).Refuses ∧ (Frame.response response).Native floats ∨
      ∃ given, reply = .result given ∧ response.result.value = given ∧ response.error = none := by
  unfold replyResponse at h
  cases reply with
  | result value =>
    dsimp only at h
    split at h
    · rename_i made
      cases h
      obtain ⟨error, result⟩ := madeResponse made
      exact .inr ⟨value, rfl, result, error⟩
    · exact .inl (refusedResponse h)
  | refused code text => exact .inl (refusedResponse h)
  | valueError text =>
    dsimp only at h
    split at h
    · exact .inl (refusedResponse h)
    · exact .inl (refusedResponse h)
  | failed => exact .inl (refusedResponse h)

theorem mappedSent {made : Except ProtocolFault Response}
    (h : message ∈ (closing connection (made.map Frame.response)).sent) :
    ∃ response, made = .ok response ∧ message = .response response := by
  cases made with
  | error fault => cases h
  | ok response => exact ⟨response, rfl, (Option.some.inj (Option.mem_def.mp h)).symm⟩

theorem answeringInvoked {invoked : Option Invocation} {delivered : Bool}
    {made : Except ProtocolFault Response} :
    (answering floats config connection invoked delivered made).invoked = invoked := by
  cases made with
  | error fault => rfl
  | ok response => rfl

theorem answeringSent {invoked : Option Invocation} {delivered : Bool} {made : Except ProtocolFault Response}
    (h : message ∈ (answering floats config connection invoked delivered made).sent) :
    ∃ response, made = .ok response ∧ message = .response response := by
  cases made with
  | error fault => cases h
  | ok response => exact ⟨response, rfl, (Option.some.inj (Option.mem_def.mp h)).symm⟩

theorem boundSent {frame : Bytes} {step : FrameStep}
    (h : handleFrame rt floats faultText config around (some connection) frame = step)
    (sent : message ∈ step.sent)
    (doubles : ∀ request, decodeBytes floats config frame = .ok (.request request) → ∀ given,
      repliedFor config request around.reply = .result given → given.every (Json.native floats) = true) :
    message.Native floats ∧ (message.Refuses ∨ ∃ request given,
      decodeBytes floats config frame = .ok (.request request) ∧
      Answering config around connection request step message given) := by
  unfold handleFrame handleDecoded at h
  split at h
  · split at h
    · subst h
      exact (closedSent sent).symm.imp_right .inl
    · subst h
      cases sent
  · rename_i decoded read
    dsimp only at h
    unfold handleNext at h
    split at h
    · rename_i request
      split at h
      · subst h
        obtain ⟨response, made, rfl⟩ := mappedSent sent
        obtain ⟨refuses, native⟩ := refusedResponse made
        exact ⟨native, .inl refuses⟩
      · dsimp only at h
        split at h
        · split at h
          · rename_i fault made
            subst h
            obtain ⟨response, made', -⟩ := mappedSent sent
            cases made.symm.trans made'
          · rename_i response made
            subst h
            cases sent
            obtain ⟨refuses, native⟩ := refusedResponse made
            exact ⟨native, .inl refuses⟩
        · subst h
          obtain ⟨response, made, rfl⟩ := answeringSent sent
          rcases repliedSent made with ⟨refuses, native⟩ | ⟨given, replied, result, error⟩
          · exact ⟨native, .inl refuses⟩
          · have bare : BareError response.error := by
              rw [error]
              intro e inside
              cases inside
            have native : response.result.value.every (Json.native floats) = true := by
              rw [result]
              exact doubles request read given replied
            exact ⟨responseNative bare native, .inr ⟨request, given, read,
              ⟨answeringInvoked, replied, response, rfl, result⟩⟩⟩
    · subst h
      exact (closedSent sent).symm.imp_right .inl

end Steps

/-! ## Streams of lines -/

section Streams
variable {σ : Type} {handle : σ → Bytes → Bool × σ} {maxFrameBytes : Nat} {passed : Passed σ}
  {line rest : Bytes}

theorem receiveEnded {reads : List Bytes} {buffer : Bytes} :
    receive handle maxFrameBytes passed buffer reads =
      receive handle maxFrameBytes passed buffer (reads.takeWhile fun chunk => !chunk.isEmpty) := by
  induction reads generalizing passed buffer with
  | nil => rfl
  | cons chunk reads ih =>
    by_cases none' : chunk = []
    · rw [List.takeWhile_cons_of_neg (by simp [none']), receive, receive, if_pos none']
    · rw [List.takeWhile_cons_of_pos (by simp [none']), receive, receive, if_neg none', if_neg none']
      split
      · rfl
      · exact ih

theorem wholeOpen {part : Bytes} (free : lineEnd ∉ part) :
    (wholeStream handle maxFrameBytes passed part).1.state = passed.state := by
  rw [wholeStream, drainOpen (Delimited.cutNone.mpr free)]
  split
  · rename_i ended
    split at ended <;> cases ended
    rfl
  · rename_i waiting
    split at waiting <;> cases waiting
    rfl

theorem wholeLine {last : σ} (free : lineEnd ∉ line)
    (h : (wholeStream handle maxFrameBytes passed (line ++ lineEnd :: rest)).1.state = last) :
    last = passed.state ∨ last = (handle passed.state line).2 ∨ (handle passed.state line).1 = true ∧
      last = (wholeStream handle maxFrameBytes ⟨(handle passed.state line).2, passed.frames ++ [line]⟩
        rest).1.state := by
  subst h
  have found := Delimited.cutAt free rest
  by_cases long : maxFrameBytes < line.length
  · left
    rw [wholeStream, drainLong found long]
  · right
    have drained := drainLine found long (Eq.refl (handle passed.state line))
    cases stays : (handle passed.state line).1 with
    | false =>
      left
      rw [wholeStream, drained, stays, if_neg Bool.false_ne_true]
    | true =>
      right
      refine ⟨rfl, ?_⟩
      rw [wholeStream, drained, stays, if_pos rfl]
      rfl

/-- A connection that was sent these lines, in its order: it waits at one, closes behind one or goes on. -/
inductive Handled (handle : σ → Bytes → Bool × σ) : σ → List Bytes → σ → Prop
  | waits (state : σ) (lines : List Bytes) : Handled handle state lines state
  | closes (state : σ) (line : Bytes) (lines : List Bytes) :
    Handled handle state (line :: lines) (handle state line).2
  | next {state last : σ} {line : Bytes} {lines : List Bytes} : (handle state line).1 = true →
    Handled handle (handle state line).2 lines last → Handled handle state (line :: lines) last

theorem wholeHandled {lines : List Bytes} {part : Bytes} (free : ∀ line ∈ lines, lineEnd ∉ line)
    (h : part <+: (lines.map fun line => line ++ [lineEnd]).flatten) :
    Handled handle passed.state lines (wholeStream handle maxFrameBytes passed part).1.state := by
  induction lines generalizing passed part with
  | nil =>
    obtain rfl := List.prefix_nil.mp h
    rw [wholeOpen List.not_mem_nil]
    exact .waits passed.state []
  | cons line lines ih =>
    have here := free line List.mem_cons_self
    rw [List.map_cons, List.flatten_cons, List.append_assoc] at h
    rcases Delimited.prefixCut here h with none' | ⟨behind, rfl, further⟩
    · rw [wholeOpen none']
      exact .waits passed.state (line :: lines)
    · rcases @wholeLine σ handle maxFrameBytes passed line behind _ here rfl with same | same | ⟨stays, same⟩
      · rw [same]
        exact .waits passed.state (line :: lines)
      · rw [same]
        exact .closes passed.state line lines
      · rw [same]
        exact .next stays (@ih ⟨(handle passed.state line).2, passed.frames ++ [line]⟩ behind
          (fun other inside => free other (List.mem_cons_of_mem _ inside)) further)

theorem streamHandled {state : σ} {lines reads : List Bytes} (free : ∀ line ∈ lines, lineEnd ∉ line)
    (h : reads.flatten <+: (lines.map fun line => line ++ [lineEnd]).flatten) :
    Handled handle state lines (serveClient handle maxFrameBytes state reads).1.state := by
  have some' : ∀ chunk ∈ reads.takeWhile fun chunk => !chunk.isEmpty, chunk ≠ [] := fun chunk inside => by
    simpa using List.mem_takeWhile_imp inside
  have part : (reads.takeWhile fun chunk => !chunk.isEmpty).flatten <+: reads.flatten := by
    obtain ⟨tail, shape⟩ := List.takeWhile_prefix (l := reads) fun chunk => !chunk.isEmpty
    refine ⟨tail.flatten, ?_⟩
    rw [← List.flatten_append, shape]
  rw [serveClient, receiveEnded, receiveWhole some' drainEmpty, List.nil_append]
  exact @wholeHandled σ handle maxFrameBytes ⟨state, []⟩ lines _ free (part.trans h)

end Streams

/-! ## The exchange -/

/-- What a client gives to its socket, when all of it gets there. -/
def clientStream (floats : FloatText) (config : ClientConfig) (request : Request) : Bytes :=
  match encodeFrame floats (.handshake config.handshake) config.maxFrameBytes with
  | .error _ => []
  | .ok hello => hello.data.toList ++
    ((encodeFrame floats (.request request) config.maxFrameBytes).toOption.map fun bytes =>
      bytes.data.toList).getD []

/-- The calls of the request handler behind one connection. -/
def DaemonSession.calls (session : DaemonSession) : List Invocation :=
  session.served.filterMap fun frame => frame.step.invoked

section Exchanges
variable {rt : Runtime} {floats : FloatText} {faultText : ProtocolFault → String} {config : DaemonConfig}
  {around : Nat → Surroundings} {client : ClientConfig} {method : String} {request : Request}
  {daemonReads clientReads : List Bytes} {last : Option (String × String)}

theorem streamLines : ∃ lines,
    clientStream floats client request = (lines.map fun line => line ++ [lineEnd]).flatten ∧
    (lines = [] ∨ ∃ hello, FrameLine floats (.handshake client.handshake) hello ∧
      (lines = [hello] ∨ ∃ line, FrameLine floats (.request request) line ∧ lines = [hello, line])) := by
  unfold clientStream
  split
  · exact ⟨[], rfl, .inl rfl⟩
  · rename_i bytes encoded
    obtain ⟨hello, printed, shape⟩ := encodedLine encoded
    cases encoded' : encodeFrame floats (.request request) client.maxFrameBytes with
    | error fault => exact ⟨[hello], by simp [shape, Except.toOption], .inr ⟨hello, printed, .inl rfl⟩⟩
    | ok bytes' =>
      obtain ⟨line, printed', shape'⟩ := encodedLine encoded'
      exact ⟨[hello, line], by simp [shape, shape', Except.toOption],
        .inr ⟨hello, printed, .inr ⟨line, printed', rfl⟩⟩⟩

theorem sessionShape (params : (Json.obj request.params.members).every (Json.native floats) = true)
    (sent : daemonReads.flatten <+: clientStream floats client request) :
    let session := daemonSession rt floats faultText config around daemonReads
    session = ⟨none, []⟩ ∨ ∃ hello first, FrameLine floats (.handshake client.handshake) hello ∧
      handleFrame rt floats faultText config (around 0) none hello = first ∧
      (session = ⟨first.connection, [⟨hello, first⟩]⟩ ∨ ∃ line second,
        FrameLine floats (.request request) line ∧ first.keepOpen = true ∧
        handleFrame rt floats faultText config (around 1) first.connection line = second ∧
        session = ⟨second.connection, [⟨hello, first⟩, ⟨line, second⟩]⟩) := by
  intro session
  obtain ⟨lines, shape, kinds⟩ := @streamLines floats client request
  have free : ∀ line ∈ lines, lineEnd ∉ line := by
    rcases kinds with rfl | ⟨hello, printed, rfl | ⟨line, printed', rfl⟩⟩
    · exact fun line inside => absurd inside List.not_mem_nil
    · intro line inside
      obtain rfl := List.mem_singleton.mp inside
      exact lineFree (handshakeNative client.handshake) printed
    · intro other inside
      rcases List.mem_cons.mp inside with rfl | inside
      · exact lineFree (handshakeNative client.handshake) printed
      · obtain rfl := List.mem_singleton.mp inside
        exact lineFree (requestNative params) printed'
  rw [shape] at sent
  have handled : Handled (DaemonSession.handle rt floats faultText config around) ⟨none, []⟩ lines session :=
    streamHandled free sent
  clear_value session
  rcases kinds with rfl | ⟨hello, printed, rfl | ⟨line, printed', rfl⟩⟩
  · cases handled
    exact .inl rfl
  · cases handled with
    | waits => exact .inl rfl
    | closes => exact .inr ⟨hello, _, printed, rfl, .inl rfl⟩
    | next stays more =>
      cases more
      exact .inr ⟨hello, _, printed, rfl, .inl rfl⟩
  · cases handled with
    | waits => exact .inl rfl
    | closes => exact .inr ⟨hello, _, printed, rfl, .inl rfl⟩
    | next stays more =>
      cases more with
      | waits => exact .inr ⟨hello, _, printed, rfl, .inl rfl⟩
      | closes => exact .inr ⟨hello, _, printed, rfl, .inr ⟨line, _, printed', stays, rfl, rfl⟩⟩
      | next stays' more =>
        cases more
        exact .inr ⟨hello, _, printed, rfl, .inr ⟨line, _, printed', stays, rfl, rfl⟩⟩

theorem clientRead {value : Json}
    (h : clientExchange floats faultText client method request clientReads = .ok value) :
    ∃ first second rest response, clientReads.flatten = first ++ lineEnd :: (second ++ lineEnd :: rest) ∧
      lineEnd ∉ first ∧ lineEnd ∉ second ∧
      decodeFrame floats ⟨(second ++ [lineEnd]).toArray⟩ client.maxFrameBytes true = .ok response ∧
      readResponse client request response = .ok value := by
  unfold clientExchange at h
  obtain ⟨_, -, h⟩ := bindOk.mp h
  obtain ⟨_, -, h⟩ := bindOk.mp h
  obtain ⟨⟨data, reads⟩, received, h⟩ := bindOk.mp h
  obtain ⟨_, -, h⟩ := bindOk.mp h
  obtain ⟨_, -, h⟩ := bindOk.mp h
  obtain ⟨_, -, h⟩ := bindOk.mp h
  obtain ⟨⟨data', reads'⟩, received', h⟩ := bindOk.mp h
  obtain ⟨response, decoded, read⟩ := bindOk.mp h
  obtain ⟨shape, first, rfl, free⟩ := receiveSource List.not_mem_nil received
  obtain ⟨shape', second, rfl, free'⟩ := receiveSource List.not_mem_nil received'
  refine ⟨first, second, reads'.flatten, response, ?_, free, free', ?_, read⟩
  · rw [List.nil_append] at shape shape'
    rw [shape, shape']
    simp
  · unfold decodeReceived at decoded
    cases made : decodeFrame floats ⟨(second ++ [lineEnd]).toArray⟩ client.maxFrameBytes true with
    | error fault =>
      rw [made] at decoded
      cases decoded
    | ok found =>
      rw [made] at decoded
      cases decoded
      rfl

theorem readRefused {frame : Frame} {value : Json} (refuses : frame.Refuses) :
    readResponse client request frame.sorted ≠ .ok value := by
  intro read
  cases frame with
  | response response =>
    obtain ⟨-, -, read⟩ := bindOk.mp read
    obtain ⟨-, -, read⟩ := bindOk.mp read
    obtain ⟨-, -, read⟩ := bindOk.mp read
    obtain ⟨error, failed⟩ := Option.ne_none_iff_exists'.mp refuses
    simp only [failed, Option.map_some] at read
    cases read
  | handshake handshake => cases read
  | request request => cases read
  | handshakeResponse response => cases read

theorem readAnswered {response : Response} {value : Json}
    (read : readResponse client request (Frame.response response).sorted = .ok value) :
    value = response.result.value.sorted := by
  obtain ⟨-, -, read⟩ := bindOk.mp read
  obtain ⟨-, -, read⟩ := bindOk.mp read
  obtain ⟨-, -, read⟩ := bindOk.mp read
  split at read
  · cases read
  · cases read
    rfl

/-- Nothing, or the line of a frame that refuses or is as `P` says. -/
def Piece (floats : FloatText) (P : Frame → Prop) (bytes : Bytes) : Prop :=
  bytes = [] ∨ ∃ frame line, bytes = line ++ [lineEnd] ∧ FrameLine floats frame line ∧ frame.Native floats ∧
    (frame.Refuses ∨ P frame)

theorem sentPiece {sent : Option Frame} {P : Frame → Prop}
    (known : ∀ message ∈ sent, message.Native floats ∧ (message.Refuses ∨ P message)) :
    Piece floats P ((sent.map (sentBytes floats config)).getD []) := by
  cases sent with
  | none => exact .inl rfl
  | some message =>
    obtain ⟨native, kind⟩ := known message rfl
    rcases @sentLine floats config message native with
      none' | ⟨frame, line, shape, printed, native', same | refuses⟩
    · exact .inl none'
    · exact .inr ⟨frame, line, shape, printed, native', same ▸ kind⟩
    · exact .inr ⟨frame, line, shape, printed, native', .inl refuses⟩

theorem pieceWhole {P : Frame → Prop} {bytes : Bytes} (h : Piece floats P bytes) :
    bytes = [] ∨ ∃ other, bytes = other ++ [lineEnd] ∧ lineEnd ∉ other := by
  rcases h with none' | ⟨frame, line, shape, printed, native, -⟩
  · exact .inl none'
  · exact .inr ⟨line, shape, lineFree native printed⟩

theorem secondRead {groups : List Bytes} {P : Frame → Prop} {value : Json}
    (received : clientReads.flatten <+: groups.flatten) (whole : ∀ group ∈ groups, ∃ Q, Piece floats Q group)
    (later : ∀ group ∈ groups.tail, Piece floats P group)
    (ok : clientExchange floats faultText client method request clientReads = .ok value) :
    ∃ frame, P frame ∧ readResponse client request frame.sorted = .ok value := by
  obtain ⟨first, second, rest, response, shape, free, free', decoded, read⟩ := clientRead ok
  rw [shape] at received
  have inside := Delimited.groupSecond free free'
    (fun group listed => (whole group listed).elim fun _ piece => pieceWhole piece) received
  rcases later _ inside with none' | ⟨frame, line, same, printed, native, kind⟩
  · exact absurd none' (by simp)
  · obtain rfl := List.append_cancel_right same
    obtain rfl := lineDecoded native printed (.inr decoded)
    rcases kind with refuses | known
    · exact absurd read (readRefused refuses)
    · exact ⟨frame, known, read⟩

theorem lastPiece {connection : Option NegotiatedConnection} {P : Frame → Prop} :
    Piece floats P (((last.bind fun error => (protocolError config connection error.1 error.2).toOption).map
      (sentBytes floats config)).getD []) := by
  refine sentPiece fun message inside => ?_
  obtain ⟨error, -, made⟩ := Option.bind_eq_some_iff.mp inside
  cases refused : protocolError config connection error.1 error.2 with
  | error fault =>
    rw [refused] at made
    cases made
  | ok frame =>
    rw [refused] at made
    cases made
    exact (refusedFrame refused).symm.imp_right .inl

theorem outputRead {session : DaemonSession} {P : Frame → Prop} {value : Json}
    (received : clientReads.flatten <+: daemonOutput floats config session last)
    (pieces : ∀ frame ∈ session.served, ∃ Q, Piece floats Q (frame.step.bytes floats config))
    (later : ∀ frame ∈ session.served.tail, Piece floats P (frame.step.bytes floats config))
    (ok : clientExchange floats faultText client method request clientReads = .ok value) :
    ∃ frame, P frame ∧ readResponse client request frame.sorted = .ok value := by
  have output : daemonOutput floats config session last =
      ((session.served.map fun frame => frame.step.bytes floats config) ++
        [((last.bind fun error => (protocolError config session.connection error.1 error.2).toOption).map
          (sentBytes floats config)).getD []]).flatten := by
    simp [daemonOutput]
  refine secondRead (output ▸ received) (fun group inside => ?_) (fun group inside => ?_) ok
  · rcases List.mem_append.mp inside with served | ended
    · obtain ⟨frame, listed, rfl⟩ := List.mem_map.mp served
      exact pieces frame listed
    · exact ⟨P, List.mem_singleton.mp ended ▸ lastPiece⟩
  · cases served : session.served with
    | nil =>
      rw [served] at inside
      exact absurd inside List.not_mem_nil
    | cons first others =>
      rw [served, List.map_cons, List.cons_append, List.tail_cons] at inside
      rcases List.mem_append.mp inside with further | ended
      · obtain ⟨frame, listed, rfl⟩ := List.mem_map.mp further
        exact later frame (by rwa [served])
      · exact List.mem_singleton.mp ended ▸ lastPiece

theorem openedFrame {hello : Bytes} {first : FrameStep}
    (h : handleFrame rt floats faultText config (around 0) none hello = first) :
    first.invoked = none ∧ Piece floats (fun _ => True) (first.bytes floats config) :=
  ⟨(openingStep h).1, sentPiece fun _ inside => ⟨firstSent (h ▸ inside), .inr trivial⟩⟩

theorem askedFrame {hello line : Bytes} {first second : FrameStep}
    (params : (Json.obj request.params.members).every (Json.native floats) = true)
    (results : ∀ asked given, repliedFor config asked (around 1).reply = .result given →
      given.every (Json.native floats) = true)
    (printed : FrameLine floats (.handshake client.handshake) hello)
    (printed' : FrameLine floats (.request request) line)
    (h : handleFrame rt floats faultText config (around 0) none hello = first) (stays : first.keepOpen = true)
    (h' : handleFrame rt floats faultText config (around 1) first.connection line = second) :
    (∀ call ∈ second.invoked, call.context = client.context ∧ request.Equals call.request) ∧
      Piece floats (fun message => ∃ connection asked given,
        Answering config (around 1) connection asked second message given) (second.bytes floats config) := by
  obtain ⟨handshake, connection, read, bound, -, of⟩ := (openingStep h).2 stays
  have greeted := lineDecoded (handshakeNative client.handshake) printed (.inl read)
  cases greeted
  rw [bound] at h'
  refine ⟨fun call called => ?_, sentPiece fun message inside => ?_⟩
  · have allowed := (boundStep h' of).2 call called
    refine ⟨allowed.context, ?_⟩
    have same := lineDecoded (requestNative params) printed' (.inl allowed.asked)
    have equal := frameEqualsSorted (.request request)
    rw [← same] at equal
    cases equal
    assumption
  · obtain ⟨native, kind⟩ := boundSent h' inside fun asked _ => results asked
    refine ⟨native, kind.imp_right ?_⟩
    rintro ⟨asked, given, -, answers⟩
    exact ⟨connection, asked, given, answers⟩

end Exchanges

/-- Whatever of the two streams arrives, and however it is split: the request handler is called at most once,
with the context the client has and a request equal to the client's; and a value the client returns is what
that call has returned. -/
theorem clientServed {rt : Runtime} {floats : FloatText} {faultText : ProtocolFault → String}
    {config : DaemonConfig} {around : Nat → Surroundings} {client : ClientConfig} {method : String}
    {request : Request} {daemonReads clientReads : List Bytes} {last : Option (String × String)}
    (params : (Json.obj request.params.members).every (Json.native floats) = true)
    (results : ∀ n asked given, repliedFor config asked (around n).reply = .result given →
      given.every (Json.native floats) = true)
    (sent : daemonReads.flatten <+: clientStream floats client request)
    (received : clientReads.flatten <+:
      daemonOutput floats config (daemonSession rt floats faultText config around daemonReads) last) :
    let session := daemonSession rt floats faultText config around daemonReads
    (session.calls = [] ∨ ∃ call, session.calls = [call] ∧ call.context = client.context ∧
      request.Equals call.request) ∧
    ∀ value, clientExchange floats faultText client method request clientReads = .ok value → ∃ call given,
      session.calls = [call] ∧ repliedFor config call.request (around 1).reply = .result given ∧
        Json.Equals given value := by
  have shape := @sessionShape rt floats faultText config around client request daemonReads params sent
  generalize daemonSession rt floats faultText config around daemonReads = session at shape received ⊢
  dsimp only at shape ⊢
  rcases shape with rfl | ⟨hello, first, printed, h, rfl | ⟨line, second, printed', stays, h', rfl⟩⟩
  · refine ⟨.inl rfl, fun value ok => ?_⟩
    obtain ⟨-, impossible, -⟩ := @outputRead floats faultText config client method request clientReads last _
      (fun _ => False) value received (fun _ listed => absurd listed List.not_mem_nil)
      (fun _ listed => absurd listed List.not_mem_nil) ok
    exact impossible.elim
  · obtain ⟨silent, piece⟩ := openedFrame h
    refine ⟨.inl (by simp [DaemonSession.calls, silent]), fun value ok => ?_⟩
    have pieces : ∀ frame ∈ [ServedFrame.mk hello first], ∃ Q,
        Piece floats Q (frame.step.bytes floats config) := by
      intro frame listed
      obtain rfl := List.mem_singleton.mp listed
      exact ⟨_, piece⟩
    obtain ⟨-, impossible, -⟩ := @outputRead floats faultText config client method request clientReads last _
      (fun _ => False) value received pieces (fun _ listed => absurd listed List.not_mem_nil) ok
    exact impossible.elim
  · obtain ⟨silent, piece⟩ := openedFrame h
    obtain ⟨called, answer⟩ := askedFrame params (results 1) printed printed' h stays h'
    have calls : DaemonSession.calls ⟨second.connection, [⟨hello, first⟩, ⟨line, second⟩]⟩ =
        second.invoked.toList := by
      cases invoked : second.invoked with
      | none => simp [DaemonSession.calls, silent, invoked]
      | some call => simp [DaemonSession.calls, silent, invoked]
    rw [calls]
    refine ⟨?_, fun value ok => ?_⟩
    · cases invoked : second.invoked with
      | none => exact .inl rfl
      | some call => exact .inr ⟨call, rfl, called call invoked⟩
    · have pieces : ∀ frame ∈ [ServedFrame.mk hello first, ⟨line, second⟩], ∃ Q,
          Piece floats Q (frame.step.bytes floats config) := by
        intro frame listed
        rcases List.mem_cons.mp listed with rfl | further
        · exact ⟨_, piece⟩
        · obtain rfl := List.mem_singleton.mp further
          exact ⟨_, answer⟩
      obtain ⟨message, known, read⟩ := outputRead received pieces (fun frame listed => by
        obtain rfl := List.mem_singleton.mp listed
        exact answer) ok
      obtain ⟨connection, asked, given, answers⟩ := known
      obtain ⟨response, rfl, carried⟩ := answers.carried
      refine ⟨_, given, by rw [answers.invoked]; rfl, answers.replied, ?_⟩
      rw [readAnswered read, carried]
      exact Json.equalsSorted given

namespace Example

theorem noDigests : ∀ entry ∈ ([] : List (String × String)), entry.2.length = 71 := nofun

def answeringConfig : DaemonConfig where
  serverVersion := ⟨"1.1", by decide, by decide⟩
  schemaVersion := 1
  serverCapabilities := ⟨[⟨"health", by decide⟩], by decide, by decide⟩
  maxFrameBytes := 1024
  clientCredentials := []
  digests := noDigests

def askingClient : ClientConfig where
  context :=
    { clientId := ⟨"desk", by decide⟩, surface := ⟨"cli", by decide⟩, agentId := ⟨"a1", by decide⟩
      sessionId := ⟨"s1", by decide⟩, parentAgentId := none, projectRoot := none, repository := none
      branch := none, commitSha := none, accessScopes := ⟨[⟨"home", by decide⟩], by decide, by decide⟩ }
  capabilities := ⟨[⟨"health", by decide⟩], by decide, by decide⟩
  protocol := ⟨1, 0⟩
  schemaVersion := 1
  maxFrameBytes := 1024
  credential := none

def healthRequest : Request where
  requestId := ⟨"r7", by decide⟩
  method := ⟨"health", by decide⟩
  params := ⟨[], by decide⟩
  protocol := ⟨1, 0⟩
  schemaVersion := 1
  supported := by decide
  unspoofed := by decide

def healthy (_ : Nat) : Surroundings := ⟨.result (.obj []), true⟩

def healthSession : DaemonSession :=
  daemonSession .plain floats (fun _ => "") answeringConfig healthy
    [clientStream floats askingClient healthRequest]

theorem clientServedHere :
    (healthSession.calls = [] ∨ ∃ call, healthSession.calls = [call] ∧ call.context = askingClient.context ∧
      healthRequest.Equals call.request) ∧
    ∀ value, clientExchange floats (fun _ => "") askingClient "health" healthRequest
        (healthSession.served.map fun frame => frame.step.bytes floats answeringConfig) = .ok value →
      ∃ call given, healthSession.calls = [call] ∧
        repliedFor answeringConfig call.request (healthy 1).reply = .result given ∧
        Json.Equals given value := by
  refine @clientServed .plain floats (fun _ => "") answeringConfig healthy askingClient "health"
    healthRequest _ _ none rfl (fun n asked given replied => ?_) ?_ ?_
  · unfold repliedFor at replied
    split at replied
    · cases replied
      rfl
    · cases replied
      rfl
  · simp
  · unfold daemonOutput
    exact List.prefix_append _ _

end Example
end Enfold
