import Enfold.DaemonConnection

/-! How a frame that cannot be decoded is refused: whatever `json.loads` reads or raises, the errors of
the decoder are protocol errors but for two. -/
namespace Enfold

open Fallible

/-- A value of `json.loads`. A literal past the largest double is a `float` without a number. -/
inductive Loaded where
  | null
  | bool (b : Bool)
  | int (i : Int)
  | float (x : Option Rat)
  | str (text : String)
  | arr (items : List Loaded)
  | obj (members : List (String × Loaded))

-- `_validate_json`, which also refuses what is no JSON number
mutual
def validateLoaded (name : String) (depth : Nat) (value : Loaded) : Except ProtocolFault Json := do
  ensure (depth ≤ maxJsonDepth) (.invalid (name ++ " exceeds maximum JSON depth"))
  match value with
  | .null => .ok .null
  | .bool b => .ok (.bool b)
  | .int i => .ok (.int i)
  | .str text => .ok (.str text)
  | .float (some x) => .ok (.float x)
  | .float none => .error (.invalid (name ++ " contains a non-finite number"))
  | .arr items => do
    let items ← validateLoadedItems name (depth + 1) items
    .ok (.arr items)
  | .obj members => do
    let members ← validateLoadedMembers name (depth + 1) members
    .ok (.obj members)
def validateLoadedItems (name : String) (depth : Nat) : List Loaded → Except ProtocolFault (List Json)
  | [] => .ok []
  | item :: items => do
    let item ← validateLoaded name depth item
    let items ← validateLoadedItems name depth items
    .ok (item :: items)
def validateLoadedMembers (name : String) (depth : Nat) :
    List (String × Loaded) → Except ProtocolFault JsonObject
  | [] => .ok []
  | (key, value) :: members => do
    let value ← validateLoaded name depth value
    let members ← validateLoadedMembers name depth members
    .ok ((key, value) :: members)
end

def frameLine (raw : ByteArray) (maxFrameSize : Int) : Except ProtocolFault String := do
  ensure (decide (0 < maxFrameSize)) (.invalid "max_frame_size must be positive")
  ensure (decide ((raw.size : Int) ≤ maxFrameSize)) (.tooLarge raw.size maxFrameSize)
  match String.fromUTF8? raw with
  | none => .error (.invalid "frame is not valid UTF-8")
  | some text => do
    let line := chomp text.toList
    ensure (!line.isEmpty && !line.contains '\n' && !line.contains '\r')
      (.invalid "input must contain exactly one JSON-lines frame")
    .ok (String.ofList line)

/-- `decode_frame` over a given `json.loads`; its `JSONDecodeError` and `RecursionError` are one fault. -/
def decodeLoaded (loads : String → Except JsonFault Loaded) (raw : ByteArray) (maxFrameSize : Int)
    (refuseMajorMismatch : Bool) : Except ProtocolFault Frame := do
  let line ← frameLine raw maxFrameSize
  match loads line with
  | .error fault => .error (loadFault fault)
  | .ok data => do
    let data ← validateLoaded "frame" 0 data
    let data ← mapping data "frame"
    let decoded ← factory data
    if refuseMajorMismatch then requireCompatibleMajor decoded.protocol protocolMajor
    .ok decoded

/-! ## The scanner that reads every frame is one such `json.loads` -/

mutual
def Loaded.ofJson : Json → Loaded
  | .null => .null
  | .bool b => .bool b
  | .int i => .int i
  | .float x => .float (some x)
  | .str text => .str text
  | .arr items => .arr (ofItems items)
  | .obj members => .obj (ofMembers members)
def Loaded.ofItems : List Json → List Loaded
  | [] => []
  | item :: items => ofJson item :: ofItems items
def Loaded.ofMembers : JsonObject → List (String × Loaded)
  | [] => []
  | (key, value) :: members => (key, ofJson value) :: ofMembers members
end

mutual
theorem validateOfJson {name : String} : (v : Json) → (depth : Nat) →
    validateLoaded name depth (Loaded.ofJson v) = validateJson name depth v
  | .arr items, depth => by
    rw [Loaded.ofJson, validateLoaded, validateJson]
    by_cases deep : maxJsonDepth < depth
    · rw [if_pos deep, ensure, decide_eq_false (by omega)]
      rfl
    · rw [if_neg deep, ensure, decide_eq_true (by omega), if_pos rfl, okBind]
      exact congrArg (· >>= fun items => Except.ok (Json.arr items)) (validateOfItems items (depth + 1))
  | .obj members, depth => by
    rw [Loaded.ofJson, validateLoaded, validateJson]
    by_cases deep : maxJsonDepth < depth
    · rw [if_pos deep, ensure, decide_eq_false (by omega)]
      rfl
    · rw [if_neg deep, ensure, decide_eq_true (by omega), if_pos rfl, okBind]
      exact congrArg (· >>= fun members => Except.ok (Json.obj members)) (validateOfMembers members (depth + 1))
  | .null, depth | .bool _, depth | .int _, depth | .float _, depth | .str _, depth => by
    rw [Loaded.ofJson, validateLoaded]
    by_cases deep : maxJsonDepth < depth
    · rw [tooDeep deep, ensure, decide_eq_false (by omega)]
      rfl
    · rw [ensure, decide_eq_true (by omega)]
      exact (if_neg deep).symm
theorem validateOfItems {name : String} : (items : List Json) → (depth : Nat) →
    validateLoadedItems name depth (Loaded.ofItems items) = validateItems name depth items
  | [], _ => rfl
  | item :: items, depth => by
    rw [Loaded.ofItems, validateLoadedItems, validateItems, validateOfJson item, validateOfItems items]
theorem validateOfMembers {name : String} : (members : JsonObject) → (depth : Nat) →
    validateLoadedMembers name depth (Loaded.ofMembers members) = validateMembers name depth members
  | [], _ => rfl
  | (_, value) :: members, depth => by
    rw [Loaded.ofMembers, validateLoadedMembers, validateMembers, validateOfJson value, validateOfMembers members]
end

theorem decodeScanned (floats : FloatText) (raw : ByteArray) (maxFrameSize : Int) (refuse : Bool) :
    decodeFrame floats raw maxFrameSize refuse =
      decodeLoaded (fun text => (loads floats text).map Loaded.ofJson) raw maxFrameSize refuse := by
  unfold decodeFrame decodeLoaded frameLine
  cases ensure (decide (0 < maxFrameSize)) (ProtocolFault.invalid "max_frame_size must be positive") with
  | error e => rfl
  | ok _ =>
    cases ensure (decide ((raw.size : Int) ≤ maxFrameSize)) (ProtocolFault.tooLarge raw.size maxFrameSize) with
    | error e => rfl
    | ok _ =>
      simp only [okBind]
      cases String.fromUTF8? raw with
      | none => rfl
      | some text =>
        dsimp only
        cases ensure (!(chomp text.toList).isEmpty && !(chomp text.toList).contains '\n' &&
            !(chomp text.toList).contains '\r')
            (ProtocolFault.invalid "input must contain exactly one JSON-lines frame") with
        | error e => rfl
        | ok _ =>
          simp only [okBind]
          cases loads floats (String.ofList (chomp text.toList)) with
          | error fault => rfl
          | ok data =>
            show _ = validateLoaded "frame" 0 (Loaded.ofJson data) >>= _
            rw [validateOfJson]

/-! ## What the field checks raise -/

section Checks

abbrev Validates {α : Type} (x : Except ProtocolFault α) : Prop := Raises (fun fault => fault.isValidation = true) x

variable {value : Json} {name : String} {data : JsonObject}

theorem requiredStringValidates : Validates (requiredString value name) := by
  unfold requiredString
  split
  · split
    · exact raisesError rfl
    · exact raisesOk _
  · exact raisesError rfl

theorem requiredTokenValidates : Validates (requiredToken value name) := by
  refine raisesBind requiredStringValidates fun label _ => ?_
  split
  · exact raisesOk _
  · exact raisesError rfl

theorem optionalStringValidates : Validates (optionalString value name) := by
  unfold optionalString
  split
  · exact raisesOk _
  · exact raisesBind requiredStringValidates fun label _ => raisesOk _

theorem strictIntValidates : Validates (strictInt value name) := by
  unfold strictInt
  split
  · split
    · exact raisesOk _
    · exact raisesError rfl
  · exact raisesError rfl

theorem strictBoolValidates : Validates (strictBool value name) := by
  unfold strictBool
  split
  · exact raisesOk _
  · exact raisesError rfl

theorem stringTupleValidates {allowEmpty : Bool} : Validates (stringTuple allowEmpty value name) := by
  unfold stringTuple
  split
  · refine raisesBind (raisesMapM fun item _ => requiredTokenValidates) fun result _ => ?_
    split
    · split
      · exact raisesOk _
      · exact raisesError rfl
    · exact raisesError rfl
  · exact raisesError rfl

theorem mappingValidates : Validates (mapping value name) := by
  unfold mapping
  split
  · exact raisesOk _
  · exact raisesError rfl

theorem checkKeysValidates {required optional : List String} : Validates (checkKeys data required optional) := by
  unfold checkKeys
  dsimp only
  split
  · exact raisesError rfl
  · split
    · exact raisesError rfl
    · exact raisesOk _

theorem frameTypeValidates : Validates (frameType data name) := raisesEnsure rfl

theorem validateJsonValidates {depth : Nat} : Validates (validateJson name depth value) := by
  rw [validated]
  split
  · exact raisesOk _
  · exact raisesError rfl

theorem payloadValidates : Validates (payload value name) := by
  unfold payload
  split
  · exact raisesOk _
  · rename_i fault failed
    exact raisesError (validateJsonValidates fault failed)

theorem detailsValidates : Validates (details value name) := by
  refine raisesBind payloadValidates fun checked _ => ?_
  split
  · exact raisesOk _
  · exact raisesError rfl

theorem versionMakeValidates {major minor : Json} : Validates (ProtocolVersion.make major minor) :=
  raisesBind strictIntValidates fun _ _ => raisesBind strictIntValidates fun _ _ => raisesOk _

theorem versionValidates : Validates (ProtocolVersion.fromDict value) :=
  raisesBind mappingValidates fun _ _ => raisesBind checkKeysValidates fun _ _ => versionMakeValidates

theorem contextValidates : Validates (ClientContext.fromDict value) := by
  refine raisesBind mappingValidates fun _ _ => raisesBind checkKeysValidates fun _ _ =>
    raisesBind stringTupleValidates fun _ _ => ?_
  refine raisesBind requiredTokenValidates fun _ _ => raisesBind requiredTokenValidates fun _ _ =>
    raisesBind requiredTokenValidates fun _ _ => raisesBind requiredTokenValidates fun _ _ => ?_
  refine raisesBind optionalStringValidates fun _ _ => raisesBind optionalStringValidates fun _ _ =>
    raisesBind optionalStringValidates fun _ _ => raisesBind optionalStringValidates fun _ _ =>
    raisesBind optionalStringValidates fun _ _ => ?_
  exact raisesBind stringTupleValidates fun _ _ => raisesOk _

theorem errorValidates : Validates (errorFrom value) := by
  unfold errorFrom
  split
  · exact raisesOk _
  · refine raisesBind ?_ fun _ _ => raisesOk _
    refine raisesBind mappingValidates fun _ _ => raisesBind checkKeysValidates fun _ _ => ?_
    exact raisesBind requiredTokenValidates fun _ _ => raisesBind requiredStringValidates fun _ _ =>
      raisesBind strictBoolValidates fun _ _ => raisesBind detailsValidates fun _ _ => raisesOk _

/-! ## What the frames raise -/

theorem handshakeValidates : Validates (Handshake.fromDict data) := by
  refine raisesBind checkKeysValidates fun _ _ => raisesBind frameTypeValidates fun _ _ =>
    raisesBind contextValidates fun _ _ => raisesBind stringTupleValidates fun _ _ =>
    raisesBind versionValidates fun _ _ => raisesBind strictIntValidates fun _ _ =>
    raisesBind optionalStringValidates fun _ _ => ?_
  refine raisesBind stringTupleValidates fun _ _ => raisesBind strictIntValidates fun _ _ => ?_
  split
  · exact raisesOk _
  · exact raisesBind requiredTokenValidates fun _ _ => raisesOk _

theorem handshakeResponseValidates : Validates (HandshakeResponse.fromDict data) := by
  refine raisesBind checkKeysValidates fun _ _ => raisesBind frameTypeValidates fun _ _ =>
    raisesBind errorValidates fun _ _ => raisesBind stringTupleValidates fun _ _ =>
    raisesBind versionValidates fun _ _ => raisesBind strictIntValidates fun _ _ => ?_
  refine raisesBind strictBoolValidates fun _ _ => raisesBind stringTupleValidates fun _ _ =>
    raisesBind requiredStringValidates fun _ _ => raisesBind strictIntValidates fun _ _ => ?_
  split
  · exact raisesOk _
  · split
    · exact raisesError rfl
    · exact raisesError rfl

theorem requestValidates : Validates (Request.fromDict data) := by
  refine raisesBind checkKeysValidates fun _ _ => raisesBind frameTypeValidates fun _ _ =>
    raisesBind versionValidates fun _ _ => raisesBind strictIntValidates fun _ _ => ?_
  refine raisesBind requiredTokenValidates fun _ _ => raisesBind requiredTokenValidates fun _ _ => ?_
  split
  · refine raisesBind detailsValidates fun _ _ => ?_
    dsimp only
    split
    · exact raisesBind strictIntValidates fun _ _ => raisesOk _
    · exact raisesError rfl
  · exact raisesError rfl

theorem responseValidates : Validates (Response.fromDict data) := by
  refine raisesBind checkKeysValidates fun _ _ => raisesBind frameTypeValidates fun _ _ =>
    raisesBind errorValidates fun _ _ => raisesBind versionValidates fun _ _ =>
    raisesBind strictIntValidates fun _ _ => ?_
  refine raisesBind requiredTokenValidates fun _ _ => raisesBind strictBoolValidates fun _ _ =>
    raisesBind payloadValidates fun _ _ => raisesBind strictIntValidates fun _ _ => ?_
  split
  · split
    · exact raisesOk _
    · exact raisesError rfl
  · split
    · exact raisesError rfl
    · exact raisesError rfl

def Unhashable (data : JsonObject) : Prop :=
  (∃ items, data.lookup "type" = some (.arr items)) ∨ ∃ members, data.lookup "type" = some (.obj members)

theorem factoryFaults {fault : ProtocolFault} (failed : factory data = .error fault) :
    fault.isValidation = false ↔ Unhashable data := by
  have hashable {x : Except ProtocolFault Frame} (validates : Validates x) (failed : x = .error fault)
      (found : Json) (here : data.lookup "type" = some found) (plain : ∀ items, found ≠ .arr items)
      (plain' : ∀ members, found ≠ .obj members) : fault.isValidation = false ↔ Unhashable data := by
    rw [validates fault failed]
    refine iff_of_false nofun ?_
    rintro (⟨items, type⟩ | ⟨members, type⟩)
    · exact plain items (Option.some.inj (here.symm.trans type))
    · exact plain' members (Option.some.inj (here.symm.trans type))
  unfold factory at failed
  split at failed
  · rename_i here
    exact hashable (raisesBind handshakeValidates fun _ _ => raisesOk _) failed _ here nofun nofun
  · rename_i here
    exact hashable (raisesBind handshakeResponseValidates fun _ _ => raisesOk _) failed _ here nofun nofun
  · rename_i here
    exact hashable (raisesBind requestValidates fun _ _ => raisesOk _) failed _ here nofun nofun
  · rename_i here
    exact hashable (raisesBind responseValidates fun _ _ => raisesOk _) failed _ here nofun nofun
  · rename_i items here
    cases failed
    exact iff_of_true rfl (.inl ⟨items, here⟩)
  · rename_i members here
    cases failed
    exact iff_of_true rfl (.inr ⟨members, here⟩)
  · rename_i noArr noObj
    cases failed
    refine iff_of_false nofun ?_
    rintro (⟨items, type⟩ | ⟨members, type⟩)
    · exact noArr items type
    · exact noObj members type

end Checks

/-! ## The decoder -/

section Decoder
variable {loads : String → Except JsonFault Loaded} {raw : ByteArray} {maxFrameSize : Int} {refuse : Bool}

theorem frameLineValidates : Validates (frameLine raw maxFrameSize) := by
  refine raisesBind (raisesEnsure rfl) fun _ _ => raisesBind (raisesEnsure rfl) fun _ _ => ?_
  split
  · exact raisesError rfl
  · exact raisesBind (raisesEnsure rfl) fun _ _ => raisesOk _

mutual
theorem loadedValidates {name : String} : (v : Loaded) → (depth : Nat) →
    Validates (validateLoaded name depth v)
  | .arr items, depth => by
    rw [validateLoaded]
    exact raisesBind (raisesEnsure rfl) fun _ _ => raisesBind (loadedItemsValidate items (depth + 1)) fun _ _ =>
      raisesOk _
  | .obj members, depth => by
    rw [validateLoaded]
    exact raisesBind (raisesEnsure rfl) fun _ _ => raisesBind (loadedMembersValidate members (depth + 1))
      fun _ _ => raisesOk _
  | .float none, depth => by
    rw [validateLoaded]
    exact raisesBind (raisesEnsure rfl) fun _ _ => raisesError rfl
  | .null, depth | .bool _, depth | .int _, depth | .float (some _), depth | .str _, depth => by
    rw [validateLoaded]
    exact raisesBind (raisesEnsure rfl) fun _ _ => raisesOk _
theorem loadedItemsValidate {name : String} : (items : List Loaded) → (depth : Nat) →
    Validates (validateLoadedItems name depth items)
  | [], _ => raisesOk _
  | item :: items, depth => by
    rw [validateLoadedItems]
    exact raisesBind (loadedValidates item depth) fun _ _ => raisesBind (loadedItemsValidate items depth)
      fun _ _ => raisesOk _
theorem loadedMembersValidate {name : String} : (members : List (String × Loaded)) → (depth : Nat) →
    Validates (validateLoadedMembers name depth members)
  | [], _ => raisesOk _
  | (_, value) :: members, depth => by
    rw [validateLoadedMembers]
    exact raisesBind (loadedValidates value depth) fun _ _ => raisesBind (loadedMembersValidate members depth)
      fun _ _ => raisesOk _
end

/-- An integer literal of too many digits, or a well-formed object whose type is a list or an object. -/
def Escapes (loads : String → Except JsonFault Loaded) (raw : ByteArray) (maxFrameSize : Int) : Prop :=
  ∃ line, frameLine raw maxFrameSize = .ok line ∧ (loads line = .error .tooManyDigits ∨
    ∃ data members, loads line = .ok data ∧ validateLoaded "frame" 0 data = .ok (.obj members) ∧
      Unhashable members)

theorem mappingObject {value : Json} {name : String} {data : JsonObject} :
    mapping value name = .ok data ↔ value = .obj data := by
  unfold mapping
  split
  · simp
  · rename_i other
    exact iff_of_false nofun fun same => other data same

theorem unhashableRefused {data : JsonObject} (unhashable : Unhashable data) : factory data = .error .typeError := by
  unfold factory
  rcases unhashable with ⟨items, here⟩ | ⟨members, here⟩
  · rw [here]
  · rw [here]

theorem escapesRaised (refuse : Bool) (escapes : Escapes loads raw maxFrameSize) :
    ∃ fault, decodeLoaded loads raw maxFrameSize refuse = .error fault ∧ fault.isValidation = false := by
  obtain ⟨line, read, digits | ⟨data, members, loaded, walked, unhashable⟩⟩ := escapes
  · refine ⟨.valueError .tooManyDigits, ?_, rfl⟩
    rw [decodeLoaded, read, okBind, digits]
    rfl
  · refine ⟨.typeError, ?_, rfl⟩
    rw [decodeLoaded, read, okBind, loaded]
    show (validateLoaded "frame" 0 data >>= _) = _
    rw [walked, okBind, mappingObject.mpr rfl, okBind, unhashableRefused unhashable, errorBind]

theorem decodeFaults {fault : ProtocolFault} (failed : decodeLoaded loads raw maxFrameSize refuse = .error fault)
    (other : fault.isValidation = false) : Escapes loads raw maxFrameSize := by
  have named {P : Prop} (validates : fault.isValidation = true) : P := by
    rw [other] at validates
    cases validates
  unfold decodeLoaded at failed
  rcases bindError.mp failed with unread | ⟨line, read, failed⟩
  · exact named (frameLineValidates fault unread)
  · refine ⟨line, read, ?_⟩
    cases loaded : loads line with
    | error cause =>
      rw [loaded] at failed
      cases cause with
      | tooManyDigits => exact .inl rfl
      | _ =>
        cases failed
        cases other
    | ok data =>
      rw [loaded] at failed
      rcases bindError.mp failed with invalid | ⟨checked, walked, failed⟩
      · exact named (loadedValidates data 0 fault invalid)
      · rcases bindError.mp failed with noObject | ⟨members, isObject, failed⟩
        · exact named (mappingValidates fault noObject)
        · rcases bindError.mp failed with refused | ⟨decoded, -, failed⟩
          · refine .inr ⟨data, members, rfl, ?_, (factoryFaults refused).mp other⟩
            rw [walked, mappingObject.mp isObject]
          · have major : Validates (do
                if refuse then requireCompatibleMajor decoded.protocol protocolMajor
                Except.ok decoded) := by
              cases refuse with
              | true => exact raisesBind (raisesEnsure rfl) fun _ _ => raisesOk _
              | false => exact raisesOk _
            exact named (major fault failed)

theorem decodeValidates (refuse : Bool) : Validates (decodeLoaded loads raw maxFrameSize refuse) ↔ ¬ Escapes loads raw maxFrameSize := by
  constructor
  · intro validates escapes
    obtain ⟨fault, failed, other⟩ := escapesRaised refuse escapes
    rw [validates fault failed] at other
    cases other
  · intro no fault failed
    cases valid : fault.isValidation with
    | true => rfl
    | false => exact absurd (decodeFaults failed valid) no

end Decoder

/-! ## The daemon's answer -/

def Frame.errorCode : Frame → Option String
  | .handshakeResponse frame => frame.error.map fun error => error.code.text
  | .response frame => frame.error.map fun error => error.code.text
  | _ => none

section Answers
variable {config : DaemonConfig} {connection : Option NegotiatedConnection} {message : String}

theorem plainErrorMade (code : Token) (some : Text.strip message ≠ "") :
    ∃ error, plainError code.text message = .ok error ∧ error.code = code := by
  let error : ProtocolError := ⟨code, ⟨Text.strip message, Text.stripTwice message, some⟩, false, ⟨[], by decide⟩⟩
  refine ⟨error, ?_, rfl⟩
  have label : requiredString (.str message) "error.message" = .ok error.message := dif_neg some
  have coded : requiredToken (.str code.text) "error.code" = .ok code := requiredTokenText _ code
  have detailed : details (.obj []) "error.details" = .ok error.details := detailsRead _ error.details
  rw [plainError, ProtocolError.make, coded, okBind, label, okBind, strictBool, okBind, detailed]
  rfl

variable (config) in
theorem handshakeRefusalMade (code : Token) (some : Text.strip message ≠ "") :
    ∃ refusal, handshakeRefusal config code.text message = .ok refusal ∧
      (Frame.handshakeResponse refusal).errorCode = .some code.text := by
  obtain ⟨error, made, named⟩ := plainErrorMade code some
  let refusal : HandshakeResponse := ⟨false, ⟨[], nofun, List.nodup_nil⟩, config.serverVersion, .some error,
    serverProtocol, config.schemaVersion, rfl⟩
  refine ⟨refusal, ?_, by rw [← named]; rfl⟩
  rw [handshakeRefusal, made, okBind]
  exact handshakeResponseMade refusal

variable (config) in
theorem responseErrorMade (requestId code : Token) (some : Text.strip message ≠ "") :
    ∃ refusal, responseError config requestId.toJson code.text message = .ok refusal ∧
      (Frame.response refusal).errorCode = .some code.text := by
  obtain ⟨error, made, named⟩ := plainErrorMade code some
  let refusal : Response := ⟨requestId, false, ⟨.null, by decide⟩, .some error, serverProtocol,
    config.schemaVersion, rfl, fun _ => rfl⟩
  refine ⟨refusal, ?_, by rw [← named]; rfl⟩
  rw [responseError, made, okBind]
  exact responseMade refusal

theorem plainErrorStated {code : Token} {error : ProtocolError} (made : plainError code.text message = .ok error) :
    Text.strip message ≠ "" := by
  intro blank
  have coded : requiredToken (.str code.text) "error.code" = .ok code := requiredTokenText _ code
  have label : requiredString (.str message) "error.message" =
      .error (.invalid ("error.message" ++ " must be a non-empty string")) := dif_pos blank
  rw [plainError, ProtocolError.make, coded, okBind, label, errorBind] at made
  cases made

theorem protocolErrorNamed (code : Token) {answer : Frame}
    (made : protocolError config connection code.text message = .ok answer) : answer.errorCode = .some code.text := by
  cases connection with
  | none =>
    obtain ⟨refusal, built, last⟩ := bindOk.mp made
    cases last
    obtain ⟨error, plain, -⟩ := bindOk.mp built
    obtain ⟨refusal', built', named⟩ := handshakeRefusalMade config code (plainErrorStated plain)
    cases built.symm.trans built'
    exact named
  | some bound =>
    obtain ⟨refusal, built, last⟩ := bindOk.mp made
    cases last
    obtain ⟨error, plain, -⟩ := bindOk.mp built
    obtain ⟨refusal', built', named⟩ := responseErrorMade config ⟨"invalid", by decide⟩ code (plainErrorStated plain)
    cases built.symm.trans built'
    exact named

theorem oversizedNamed {message fallback : Frame} (made : oversizedReply config message = .ok fallback) :
    fallback.errorCode = some "response_too_large" := by
  have stated : Text.strip "response too large" ≠ "" := by decide
  let code : Token := ⟨"response_too_large", by decide⟩
  obtain ⟨refusal, built, named⟩ := handshakeRefusalMade config code stated
  cases message with
  | response response =>
    obtain ⟨refusal, built, named⟩ := responseErrorMade config response.requestId code stated
    have whole : oversizedReply config (.response response) = .ok (.response refusal) := bindOk.mpr ⟨_, built, rfl⟩
    cases made.symm.trans whole
    exact named
  | handshake frame =>
    have whole : oversizedReply config (.handshake frame) = .ok (.handshakeResponse refusal) :=
      bindOk.mpr ⟨_, built, rfl⟩
    cases made.symm.trans whole
    exact named
  | handshakeResponse frame =>
    have whole : oversizedReply config (.handshakeResponse frame) = .ok (.handshakeResponse refusal) :=
      bindOk.mpr ⟨_, built, rfl⟩
    cases made.symm.trans whole
    exact named
  | request frame =>
    have whole : oversizedReply config (.request frame) = .ok (.handshakeResponse refusal) :=
      bindOk.mpr ⟨_, built, rfl⟩
    cases made.symm.trans whole
    exact named

theorem sentFrameItself {floats : FloatText} {message answer : Frame}
    (sent : sentFrame floats config message = some answer) (code : answer.errorCode ≠ some "response_too_large") :
    answer = message ∧ ∃ bytes, encodeFrame floats message config.maxFrameBytes = .ok bytes := by
  unfold sentFrame at sent
  split at sent
  · rename_i bytes encoded
    exact ⟨(Option.some.inj sent).symm, bytes, encoded⟩
  · obtain ⟨made, -⟩ := Option.filter_eq_some_iff.mp sent
    exact absurd (oversizedNamed (okOfOption made)) code
  · cases sent

/-- The refusal of a frame whose exception has the given text, as it goes out; `none` is a text that UTF-8 cannot
encode, for which `encode_frame` raises and `_send` gives up. -/
def refusalSent (rt : Runtime) (floats : FloatText) (config : DaemonConfig) (around : Surroundings)
    (connection : Option NegotiatedConnection) (text : Option String) (fault : ProtocolFault) : Option Frame :=
  text.bind fun message =>
    (handleDecoded rt floats (fun _ => message) config around connection (.error fault)).sent.bind
      (sentFrame floats config)

/-- The `invalid_frame` refusal with the text fits a frame. -/
def Refusable (floats : FloatText) (config : DaemonConfig) (connection : Option NegotiatedConnection)
    (text : Option String) : Prop :=
  ∃ message refusal bytes, text = some message ∧
    protocolError config connection "invalid_frame" message = .ok refusal ∧
    encodeFrame floats refusal config.maxFrameBytes = .ok bytes

theorem refusalHanded (rt : Runtime) (floats : FloatText) (around : Surroundings) (fault : ProtocolFault) :
    (handleDecoded rt floats (fun _ => message) config around connection (.error fault)).sent =
      if fault.isValidation then (protocolError config connection "invalid_frame" message).toOption else none := by
  unfold handleDecoded
  dsimp only
  split <;> rfl

theorem undecodableAnswered (rt : Runtime) (floats : FloatText) (around : Surroundings) (text : Option String)
    (fault : ProtocolFault) :
    (∃ answer, refusalSent rt floats config around connection text fault = some answer ∧
      answer.errorCode = some "invalid_frame") ↔
      fault.isValidation = true ∧ Refusable floats config connection text := by
  unfold refusalSent
  simp only [refusalHanded]
  cases fault.isValidation with
  | false =>
    refine iff_of_false ?_ nofun
    rintro ⟨answer, sent, -⟩
    obtain ⟨message, -, sent⟩ := Option.bind_eq_some_iff.mp sent
    cases sent
  | true =>
    constructor
    · rintro ⟨answer, sent, named⟩
      obtain ⟨message, rfl, handed⟩ := Option.bind_eq_some_iff.mp sent
      obtain ⟨refusal, made, sent⟩ := Option.bind_eq_some_iff.mp handed
      obtain ⟨-, bytes, encoded⟩ := sentFrameItself sent (by rw [named]; decide)
      exact ⟨rfl, message, refusal, bytes, rfl, okOfOption made, encoded⟩
    · rintro ⟨-, message, refusal, bytes, rfl, made, encoded⟩
      refine ⟨refusal, ?_, protocolErrorNamed ⟨"invalid_frame", by decide⟩ made⟩
      have written : sentFrame floats config refusal = some refusal := by
        rw [sentFrame, encoded]
      rw [Option.bind_some, if_pos rfl, made]
      exact written

end Answers

/-- The decoder raises nothing but protocol errors, except on an integer literal of too many digits and on a type
that is a list or an object; and the daemon answers each frame it cannot decode, except there and where the refusal
fits no frame. -/
theorem malformedRefused (rt : Runtime) (floats : FloatText) (excText : Bytes → ProtocolFault → Option String)
    (config : DaemonConfig) (around : Surroundings) (connection : Option NegotiatedConnection)
    (loads : String → Except JsonFault Loaded) :
    (∀ raw maxFrameSize refuse, (∀ fault, decodeLoaded loads raw maxFrameSize refuse = .error fault →
        fault.isValidation = true) ↔ ¬ Escapes loads raw maxFrameSize) ∧
      ∀ frame : Bytes,
        (∀ fault, decodeLoaded loads ⟨frame.toArray⟩ config.maxFrameBytes false = .error fault →
          ∃ answer, refusalSent rt floats config around connection (excText frame fault) fault = some answer ∧
            answer.errorCode = some "invalid_frame") ↔
          ¬ Escapes loads ⟨frame.toArray⟩ config.maxFrameBytes ∧
            ∀ fault, decodeLoaded loads ⟨frame.toArray⟩ config.maxFrameBytes false = .error fault →
              Refusable floats config connection (excText frame fault) := by
  refine ⟨fun raw maxFrameSize refuse => decodeValidates refuse, fun frame => ?_⟩
  rw [← decodeValidates false]
  constructor
  · intro answers
    exact ⟨fun fault failed => ((undecodableAnswered rt floats around _ fault).mp (answers fault failed)).1,
      fun fault failed => ((undecodableAnswered rt floats around _ fault).mp (answers fault failed)).2⟩
  · rintro ⟨validates, refusable⟩ fault failed
    exact (undecodableAnswered rt floats around _ fault).mpr ⟨validates fault failed, refusable fault failed⟩

namespace Example

def scanner (text : String) : Except JsonFault Loaded := (loads floats text).map Loaded.ofJson

def listening : DaemonConfig where
  serverVersion := ⟨"1.0", by decide, by decide⟩
  schemaVersion := 1
  serverCapabilities := ⟨[], nofun, List.nodup_nil⟩
  maxFrameBytes := 1024
  clientCredentials := []
  digests := nofun

/-- A frame whose type is a list is looked up in a dictionary, which raises a `TypeError`. -/
theorem listTypeEscapes : ∃ fault,
    decodeLoaded scanner "\x7b\x22type\x22:[]\x7d".toUTF8 1024 true = .error fault ∧ fault.isValidation = false ∧
      refusalSent .plain floats listening ⟨.failed, true⟩ none (some "unhashable type: 'list'") fault = none := by
  refine ⟨.typeError, errorOfFailure ?_, rfl, rfl⟩
  decide +kernel

end Example
end Enfold
