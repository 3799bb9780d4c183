import Enfold.ConflictLedger
import Enfold.PreparedSnapshot

/-! A kept snapshot in the stores of later retries. Everything `_make_snapshot` keeps is read back as
it was; only the slot keys of its typed claims are resolved again, and another writer's facts may by
then resolve them to something else. -/
namespace Enfold

open Fallible

/-! ## Slots that stay -/

/-- The store still resolves the slot of a kept claim to itself: its predicate is a known one or not
the plural of exactly one known one, and a generic name of the user is the one the store gives. -/
structure SlotStays (floats : FloatText) (db : EntityStore) (scope subjectKey predicateKey : String) :
    Prop where
  predicate : PredicateSettled
    (canonicalPredicates ++ storedPredicates db.toLedger (Text.strip scope)) predicateKey
  subject : subjectKey ∈ genericUserSubjects → db.userSubject floats scope = .ok (some subjectKey)

theorem settledCongr {known others : List String} {predicate : String}
    (same : ∀ p, p ∈ known ↔ p ∈ others) :
    PredicateSettled known predicate ↔ PredicateSettled others predicate := by
  have perm : known.dedup.Perm others.dedup := by
    rw [List.perm_ext_iff_of_nodup (List.nodup_dedup _) (List.nodup_dedup _)]
    intro p
    rw [List.mem_dedup, List.mem_dedup, same]
  rw [PredicateSettled, PredicateSettled, same, (perm.filter _).length_eq]

theorem registrySettled {l : Ledger} {scope : String} {known : List String} {predicate : String}
    (h : canonicalSlotRegistry l scope = .ok known) :
    PredicateSettled (canonicalPredicates ++ known) predicate ↔
      PredicateSettled (canonicalPredicates ++ storedPredicates l (Text.strip scope)) predicate := by
  simp only [canonicalSlotRegistry, bindOk] at h
  obtain ⟨-, -, h⟩ := h
  refine settledCongr fun p => ?_
  rw [← Except.ok.inj h]
  simp only [List.mem_append, List.mem_dedup, List.mem_filter, Bool.not_eq_true',
    List.contains_eq_mem, decide_eq_false_iff_not]
  tauto

theorem userSubjectError {floats : FloatText} {db : EntityStore} {scope : String} {raised : Raised}
    (h : db.userSubject floats scope = .error raised) : raised.kind = .valueError := by
  rw [EntityStore.userSubject, bindError] at h
  rcases h with h | ⟨candidates, -, h⟩
  · obtain ⟨row, -, h⟩ := mapMError h
    unfold userCandidate at h
    split at h
    · cases h
    · rcases bindError.mp h with h | ⟨aliases, -, h⟩
      · unfold entityAliases at h
        split at h
        · cases h
        · split at h
          · cases h
          · rcases bindError.mp h with h | ⟨texts, -, h⟩
            · unfold listedAliases at h
              dsimp only at h
              split at h
              · cases h
              · cases h
                rfl
              · cases h
            · cases h
      · split at h
        · cases h
        · split at h
          · cases h
          · cases h
  · split at h <;> cases h

/-! ## Typed fields read again -/

structure TypedFields.Normal (rt : Runtime) (floats : FloatText) (scope : String) (t : TypedFields) :
    Prop where
  double : floats.isDouble t.confidence = true
  confident : minTypedConfidence ≤ t.confidence ∧ t.confidence ≤ 1
  kind : typedKinds.contains t.kind = true
  object : typedObject t.negation (textJson t.objectValue) = some t.objectValue
  time : typedTime (textJson t.validFrom) = some t.validFrom
  trimmed : t.validFrom.map Text.strip = t.validFrom
  dated : ∃ time, parseTimestamp rt t.validFrom = .ok time
  subject : resolveExtractedSubjectKey t.subjectKey = .ok t.subjectKey
  subjectKey : normalizeSubjectKey t.subjectKey = .ok t.subjectKey
  predicateKey : normalizePredicateKey t.predicateKey = .ok t.predicateKey
  stated : Text.strip scope ≠ ""

theorem normalSubjectRequired {key name : String} (normal : normalizeSubjectKey key = .ok key) :
    required key name = .ok key := by
  have shape := subjectKeySource normal
  have stripped : Text.strip key = key := by
    have kept := Text.stripKept (subjectKeySpaceless shape)
    rwa [String.ofList_toList] at kept
  have some : key.toList ≠ [] := fun empty => by
    rw [empty] at shape
    cases shape
  rw [required]
  simp only [stripped, some, if_false]

theorem normalPredicateRequired {key name : String} (normal : normalizePredicateKey key = .ok key) :
    required key name = .ok key := by
  have shape := (predicateKeySource normal).1
  have stripped : Text.strip key = key := by
    have kept := Text.stripKept (predicateKeySpaceless shape)
    rwa [String.ofList_toList] at kept
  have some : key.toList ≠ [] := fun empty => by
    rw [empty] at shape
    cases shape
  rw [required]
  simp only [stripped, some, if_false]

theorem slotCandidateBuilt {rt : Runtime} {subjectKey predicateKey : String}
    (objectValue : Option String) {validFrom : Option String} {time : Option Int}
    (subject : normalizeSubjectKey subjectKey = .ok subjectKey)
    (predicate : normalizePredicateKey predicateKey = .ok predicateKey)
    (dated : parseTimestamp rt validFrom = .ok time) :
    ∃ c, StateCandidate.postInit rt
      { content := "snapshot validation", subjectKey, predicateKey, objectValue
        sourceAuthority := 1 / 2, validFrom, memoryKind := "state", scope := "private"
        validTo := none } = .ok c := by
  have content : required "snapshot validation" "content" = .ok "snapshot validation" := by decide
  have scope : required "private" "scope" = .ok "private" := by decide
  have kind : required "state" "memory_kind" = .ok "state" := by decide
  have half : (decide ((0 : Rat) ≤ 1 / 2) && decide ((1 / 2 : Rat) ≤ 1)) = true := by decide +kernel
  have endless : parseTimestamp rt none = .ok none := rfl
  simp only [StateCandidate.postInit, content, scope, kind, normalSubjectRequired subject,
    normalPredicateRequired predicate, subject, predicate, half, dated, endless, okBind, ensure, if_true]
  cases time with
  | none => exact ⟨_, rfl⟩
  | some start => exact ⟨_, rfl⟩

theorem slotAgain {rt : Runtime} {floats : FloatText} {scope : String} {t : TypedFields}
    (normal : t.Normal rt floats scope) (db : EntityStore) :
    ∃ slot, abstaining (extractedSlot rt floats db "snapshot validation" scope (.str t.subjectKey)
        (.str t.predicateKey) t.objectValue t.validFrom) = .ok slot ∧
      (slot = some (t.subjectKey, t.predicateKey) ↔
        SlotStays floats db scope t.subjectKey t.predicateKey) := by
  obtain ⟨known, registry⟩ := registryTotal db.toLedger normal.stated
  have kept := (registrySource registry).2
  obtain ⟨found, resolved, same⟩ := resolvePredicateAgain normal.predicateKey kept
  rw [registrySettled registry] at same
  have predicate := resolvedPredicateNormal kept resolved
  obtain ⟨time, dated⟩ := normal.dated
  -- the slot under whatever subject the store answers with
  have under : ∀ subject, normalizeSubjectKey subject = .ok subject →
      resolveStoredSubjectKey floats db t.subjectKey scope = .ok (some subject) →
      extractedSlot rt floats db "snapshot validation" scope (.str t.subjectKey) (.str t.predicateKey)
        t.objectValue t.validFrom = .ok (some (subject, found)) := by
    intro subject canonical answered
    obtain ⟨c, built⟩ := slotCandidateBuilt t.objectValue canonical predicate dated
    simp only [extractedSlot, keyText, okBind, answered, registry, resolved, built]
  have again := @resolveStoredAgain floats db t.subjectKey scope normal.subject
  by_cases generic : t.subjectKey ∈ genericUserSubjects
  · have named : genericUserSubjects.contains t.subjectKey = true := by simpa using generic
    rw [if_pos named] at again
    cases user : db.userSubject floats scope with
    | error raised =>
      have fails : extractedSlot rt floats db "snapshot validation" scope (.str t.subjectKey)
          (.str t.predicateKey) t.objectValue t.validFrom = .error raised := by
        simp only [extractedSlot, keyText, okBind, again, user, errorBind]
      refine ⟨none, ?_, by nofun, fun stays => ?_⟩
      · rw [fails, abstaining, userSubjectError user]
        rfl
      · rw [stays.subject generic] at user
        cases user
    | ok answer =>
      cases answer with
      | none =>
        have empty : extractedSlot rt floats db "snapshot validation" scope (.str t.subjectKey)
            (.str t.predicateKey) t.objectValue t.validFrom = .ok none := by
          simp only [extractedSlot, keyText, okBind, again, user]
        refine ⟨none, by rw [empty]; rfl, by nofun, fun stays => ?_⟩
        rw [stays.subject generic] at user
        cases user
      | some subject =>
        obtain ⟨value, source⟩ := userSubjectSource user
        refine ⟨some (subject, found), ?_, ?_, fun stays => ?_⟩
        · rw [under subject (resolveSubjectTwice source).1 (again.trans user)]
          rfl
        · intro whole
          cases whole
          exact ⟨same.mp rfl, fun _ => user⟩
        · rw [stays.subject generic] at user
          cases user
          rw [same.mpr stays.predicate]
  · have named : genericUserSubjects.contains t.subjectKey = false := by simpa using generic
    rw [if_neg (by rw [named]; exact Bool.false_ne_true)] at again
    refine ⟨some (t.subjectKey, found), ?_, ?_, fun stays => by rw [same.mpr stays.predicate]⟩
    · rw [under t.subjectKey normal.subjectKey again]
      rfl
    · intro whole
      cases whole
      exact ⟨same.mp rfl, fun inside => absurd inside generic⟩

theorem sameSetPerm {a b : List String} (same : a.Perm b) : Words.sameSet a b = true := by
  simp only [Words.sameSet, Bool.and_eq_true, List.all_eq_true, List.contains_eq_mem, decide_eq_true_eq]
  exact ⟨fun _ inside => same.mem_iff.mp inside, fun _ inside => same.mem_iff.mpr inside⟩

@[simp] theorem textJsonSorted (text : Option String) : (textJson text).sorted = textJson text := by
  cases text <;> rfl

theorem typedKeys (t : TypedFields) : t.members.map Prod.fst = typedMetadataKeys := rfl

theorem typedDistinct (t : TypedFields) : (t.members.map Prod.fst).Nodup := by
  rw [typedKeys]
  decide

-- a kept claim gives its fields back
theorem typedClaimRead {rt : Runtime} {floats : FloatText} {scope : String} {t : TypedFields}
    (normal : t.Normal rt floats scope) :
    typedClaim [("confidence", .float t.confidence), ("kind", .str t.kind),
        ("negation", .bool t.negation), ("subject", .str t.subjectKey),
        ("predicate", .str t.predicateKey), ("value", textJson t.objectValue),
        ("valid_from", textJson t.validFrom)] =
      .ok (some ⟨t.kind, t.confidence, t.negation, t.objectValue, t.validFrom⟩) := by
  have kind : t.kind ∈ typedKinds := by simpa using normal.kind
  have confident : (decide (minTypedConfidence ≤ t.confidence) && decide (t.confidence ≤ 1)) = true := by
    simp [normal.confident]
  simp [typedClaim, List.lookup_cons, memberOf, typedConfidence, typedFields, kind, confident, normal.object,
    normal.time, okBind]

theorem normalizedAgain {rt : Runtime} {floats : FloatText} {scope : String} {t : TypedFields}
    (normal : t.Normal rt floats scope) (db : EntityStore) :
    ∃ stays, isNormalizedTypedFields rt floats db (.obj (listed t.members)) scope = .ok stays ∧
      (stays = true ↔ SlotStays floats db scope t.subjectKey t.predicateKey) := by
  have keys := sameSetPerm (listedKeys t.members)
  rw [typedKeys] at keys
  have confidence : ((listed t.members).lookup "confidence").getD .null = .float t.confidence :=
    listedMember (typedDistinct t) _
  have kind : ((listed t.members).lookup "kind").getD .null = .str t.kind := listedMember (typedDistinct t) _
  have negation : ((listed t.members).lookup "negation").getD .null = .bool t.negation :=
    listedMember (typedDistinct t) _
  have objectValue : ((listed t.members).lookup "object_value").getD .null = textJson t.objectValue :=
    (listedMember (typedDistinct t) _).trans (textJsonSorted _)
  have predicate : ((listed t.members).lookup "predicate_key").getD .null = .str t.predicateKey :=
    listedMember (typedDistinct t) _
  have subject : ((listed t.members).lookup "subject_key").getD .null = .str t.subjectKey :=
    listedMember (typedDistinct t) _
  have validFrom : ((listed t.members).lookup "valid_from").getD .null = textJson t.validFrom :=
    (listedMember (typedDistinct t) _).trans (textJsonSorted _)
  obtain ⟨slot, found, same⟩ := slotAgain normal db
  simp only [isNormalizedTypedFields, keys, Bool.not_true, Bool.false_eq_true, if_false, confidence, kind,
    negation, objectValue, predicate, subject, validFrom, normalizeTypedFields, typedClaimRead normal,
    okBind]
  have subjectHere : (([("confidence", .float t.confidence), ("kind", .str t.kind),
      ("negation", .bool t.negation), ("subject", .str t.subjectKey), ("predicate", .str t.predicateKey),
      ("value", textJson t.objectValue), ("valid_from", textJson t.validFrom)] : JsonObject).lookup
        "subject").getD .null = .str t.subjectKey := rfl
  have predicateHere : (([("confidence", .float t.confidence), ("kind", .str t.kind),
      ("negation", .bool t.negation), ("subject", .str t.subjectKey), ("predicate", .str t.predicateKey),
      ("value", textJson t.objectValue), ("valid_from", textJson t.validFrom)] : JsonObject).lookup
        "predicate").getD .null = .str t.predicateKey := rfl
  rw [subjectHere, predicateHere, found, okBind]
  rw [← same]
  cases slot with
  | none => exact ⟨false, rfl, by simp⟩
  | some pair =>
    obtain ⟨subjectKey, predicateKey⟩ := pair
    refine ⟨_, rfl, ?_⟩
    simp only [Option.any_some, TypedFields.equals, confidence, kind, negation, objectValue, predicate,
      subject, validFrom, Json.isNumber, normal.trimmed, decide_true, Bool.true_and, Bool.and_true,
      Bool.and_eq_true, decide_eq_true_eq, Json.str.injEq, Option.some.injEq, Prod.mk.injEq]
    constructor
    · rintro ⟨predicate, subject⟩
      exact ⟨subject.symm, predicate.symm⟩
    · rintro ⟨rfl, rfl⟩
      exact ⟨rfl, rfl⟩

/-! ## What is kept is normal -/

theorem typedObjectKept {negation : Bool} {value : Json} {object : Option String}
    (h : typedObject negation value = some object) :
    typedObject negation (textJson object) = some object := by
  unfold typedObject at h
  split at h
  · cases h
    rfl
  · rename_i text
    split at h
    · cases h
    · rename_i some'
      cases h
      simp only [textJson, Option.map_some, Option.getD_some, typedObject, Text.stripTwice, some', if_false]
  · cases h

theorem typedTimeKept {value : Json} {time : Option String} (h : typedTime value = some time) :
    typedTime (textJson (time.map Text.strip)) = some (time.map Text.strip) := by
  unfold typedTime at h
  split at h
  · cases h
    rfl
  · split at h
    · cases h
    · rename_i some'
      cases h
      simp only [Option.map_some, textJson, Option.getD_some, typedTime, Text.stripTwice, some', if_false]
  · cases h

theorem parseStripped {rt : Runtime} {text : Option String} {time : Option Int}
    (h : parseTimestamp rt text = .ok time) : ∃ time, parseTimestamp rt (text.map Text.strip) = .ok time := by
  cases text with
  | none => exact ⟨none, rfl⟩
  | some text =>
    have same : isoCandidate (Text.strip text) = isoCandidate text := by
      simp only [isoCandidate, Text.stripTwice]
    simp only [Option.map_some, parseTimestamp, Text.stripTwice, same] at h ⊢
    split at h
    · rename_i blank
      exact ⟨none, by rw [if_pos blank]⟩
    · rename_i stated
      rw [if_neg stated]
      split at h
      · exact ⟨_, rfl⟩
      · cases h

-- a confidence of the model is a double between the two bounds
theorem typedConfidenceSource {floats : FloatText} {value : Json} {x : Rat}
    (native : value.every (Json.native floats) = true) (one : floats.isDouble 1 = true)
    (h : typedConfidence value = .ok (some x)) :
    floats.isDouble x = true ∧ minTypedConfidence ≤ x ∧ x ≤ 1 := by
  unfold typedConfidence at h
  split at h
  · rename_i i
    split at h
    · cases h
    · have found := Except.ok.inj h
      split at found
      · rename_i bounds
        cases Option.some.inj found
        simp only [Bool.and_eq_true, decide_eq_true_eq] at bounds
        have below : i ≤ 1 := by exact_mod_cast bounds.2
        have above : 0 < i := by
          have positive : (0 : Rat) < minTypedConfidence := by decide +kernel
          exact_mod_cast lt_of_lt_of_le positive bounds.1
        have only : i = 1 := by omega
        rw [only] at bounds ⊢
        exact ⟨by exact_mod_cast one, bounds⟩
      · cases found
  · rename_i y
    have found := Except.ok.inj h
    split at found
    · rename_i bounds
      cases Option.some.inj found
      simp only [Bool.and_eq_true, decide_eq_true_eq] at bounds
      exact ⟨native, bounds⟩
    · cases found
  · cases h

theorem nativeMember {floats : FloatText} {members : JsonObject} (name : String)
    (native : (Json.obj members).every (Json.native floats) = true) :
    ((members.lookup name).getD .null).every (Json.native floats) = true := by
  cases found : members.lookup name with
  | none => rfl
  | some value =>
    have distinct : (members.map Prod.fst).Nodup := of_decide_eq_true (Json.everyHere native)
    have inside := (Json.lookupMem distinct).mp found
    rw [Json.every, Bool.and_eq_true] at native
    exact Json.everyMemberIff.mp native.2 _ inside

structure TypedClaim.Read (floats : FloatText) (claim : TypedClaim) : Prop where
  double : floats.isDouble claim.confidence = true
  confident : minTypedConfidence ≤ claim.confidence ∧ claim.confidence ≤ 1
  kind : typedKinds.contains claim.kind = true
  object : typedObject claim.negation (textJson claim.objectValue) = some claim.objectValue
  time : typedTime (textJson (claim.validFrom.map Text.strip)) = some (claim.validFrom.map Text.strip)

theorem typedClaimSource {floats : FloatText} {members : JsonObject} {claim : TypedClaim}
    (native : (Json.obj members).every (Json.native floats) = true) (one : floats.isDouble 1 = true)
    (h : typedClaim members = .ok (some claim)) : claim.Read floats := by
  unfold typedClaim at h
  dsimp only at h
  split at h
  · cases h
  · simp only [bindOk] at h
    obtain ⟨known, member, h⟩ := h
    split at h
    · cases h
    · rename_i listed
      obtain ⟨confidence, read, h⟩ := bindOk.mp h
      split at h
      · rename_i kind x negation kindHere _
        split at h
        · cases h
        · split at h
          · rename_i objectValue validFrom object time
            cases h
            obtain ⟨double, confident⟩ :=
              typedConfidenceSource (nativeMember "confidence" native) one read
            refine ⟨double, confident, ?_, typedObjectKept object, typedTimeKept time⟩
            rw [kindHere, memberOf] at member
            cases member
            simpa using listed
          · cases h
      · cases h

theorem abstainingSource {α : Type} {found : Except Raised (Option α)} {value : α}
    (h : abstaining found = .ok (some value)) : found = .ok (some value) := by
  unfold abstaining at h
  split at h
  · exact h
  · split at h <;> cases h

theorem candidateDated {rt : Runtime} {c made : StateCandidate} (h : c.postInit rt = .ok made) :
    ∃ time, parseTimestamp rt c.validFrom = .ok time := by
  simp only [StateCandidate.postInit, bindOk] at h
  obtain ⟨-, -, -, -, -, -, -, -, -, -, -, -, -, -, -, -, time, dated, -⟩ := h
  exact ⟨time, dated⟩

/-- What `_normalize_typed_fields` returns is normal. -/
theorem typedSource {rt : Runtime} {floats : FloatText} {db : EntityStore} {value : Json}
    {content scope : String} {t : TypedFields} (native : value.every (Json.native floats) = true)
    (one : floats.isDouble 1 = true)
    (h : normalizeTypedFields rt floats db value content scope = .ok (some t)) :
    t.Normal rt floats scope := by
  unfold normalizeTypedFields at h
  split at h
  · rename_i members
    obtain ⟨claim, read, h⟩ := bindOk.mp h
    split at h
    · cases h
    · rename_i claim
      obtain ⟨slot, found, h⟩ := bindOk.mp h
      split at h
      · cases h
      · rename_i subjectKey predicateKey
        cases h
        have claimed := typedClaimSource native one read
        have slot := abstainingSource found
        simp only [extractedSlot, bindOk] at slot
        obtain ⟨subject, -, stored, resolved, slot⟩ := slot
        split at slot
        · cases slot
        · rename_i storedKey
          simp only [bindOk] at slot
          obtain ⟨known, registry, predicate, -, key, predicateFound, made, built, last⟩ := slot
          cases last
          obtain ⟨source, subjectFound⟩ := storedSubjectSource resolved
          obtain ⟨time, dated⟩ := candidateDated built
          obtain ⟨canonical, kept⟩ := resolveSubjectTwice subjectFound
          refine
            { double := claimed.double
              confident := claimed.confident
              kind := claimed.kind
              object := claimed.object
              time := claimed.time
              trimmed := ?_
              dated := parseStripped dated
              subject := kept
              subjectKey := canonical
              predicateKey := resolvedPredicateNormal (registrySource registry).2 predicateFound
              stated := (registrySource registry).1 }
          simp [Option.map_map, Function.comp_def, Text.stripTwice]
  · cases h

/-! ## Kept proposals -/

structure SnapshotItem.Kept (rt : Runtime) (host : SnapshotHost) (envelope : ExtractionEnvelope)
    (item : SnapshotItem) : Prop where
  content : Text.strip item.content = item.content ∧ item.content ≠ ""
  category : Text.strip item.category = item.category ∧ item.category ≠ ""
  sensitivity : item.sensitivity ∈ ["normal", "sensitive"]
  stated : Text.strip item.evidenceExcerpt ≠ ""
  short : item.evidenceExcerpt.length ≤ maxEvidenceChars
  within : textWithin item.evidenceExcerpt.toList envelope.transcript.toList = true
  named : item.evidenceSpanId ≠ ""
  span : ∃ span, envelope.span item.evidenceSpanId = some span ∧ span.role = some .user ∧
    span.text = item.evidenceExcerpt
  typed : ∀ t ∈ item.typed, item.verification.verified = true ∧ t.Normal rt host.floats envelope.scope
  demoted : ∀ reason ∈ item.typedDemotion, reason ∈ snapshotDemotions ∧ item.typed = none
  durable : ephemeralExtractionReason rt host.unicode item.content = none

theorem statedTextSource {value : Json} {raised : Raised} {text : String}
    (h : statedText value raised = .ok text) : Text.strip text ≠ "" := by
  unfold statedText at h
  split at h
  · split at h
    · cases h
    · cases h
      assumption
  · cases h

theorem groundedSource {envelope : ExtractionEnvelope} {value : Json} {excerpt : String}
    (h : groundedExcerpt envelope value = some excerpt) :
    Text.strip excerpt ≠ "" ∧ excerpt.length ≤ maxEvidenceChars ∧
      textWithin excerpt.toList envelope.transcript.toList = true := by
  unfold groundedExcerpt at h
  split at h
  · split at h
    · rename_i grounded
      cases Option.some.inj h
      simp only [Bool.and_eq_true, decide_eq_true_eq] at grounded
      exact ⟨grounded.1.1, grounded.1.2, grounded.2⟩
    · cases h
  · cases h

theorem namedSource {metadata : JsonObject} {spanId : String} (h : namedSpan metadata = some spanId) :
    spanId ≠ "" := by
  unfold namedSpan at h
  split at h
  · split at h
    · cases h
    · cases Option.some.inj h
      assumption
  · cases h

-- a verified claim is normal; a proposal without state has no typed fields
theorem typedOfSource {rt : Runtime} {host : SnapshotHost} {db : EntityStore}
    {envelope : ExtractionEnvelope} {proposal : ExtractedMemory host.floats} {content : String}
    {verification : EvidenceVerification} {typed : Option TypedFields} {demotion : Option String}
    (h : typedOf rt host db envelope proposal content verification = .ok (typed, demotion)) :
    (∀ t ∈ typed, verification.verified = true ∧ t.Normal rt host.floats envelope.scope) ∧
      (∀ reason ∈ demotion, reason ∈ snapshotDemotions ∧ typed = none) ∧
      (proposal.state = .null → typed = none) := by
  unfold typedOf at h
  split at h
  · rename_i verified
    obtain ⟨found, normalized, h⟩ := bindOk.mp h
    split at h
    · rename_i t
      cases h
      refine ⟨fun u inside => ?_, by nofun, fun stateless => ?_⟩
      · cases Option.mem_some.mp inside
        exact ⟨verified, typedSource proposal.native host.oneDouble normalized⟩
      · rw [stateless] at normalized
        cases normalized
    · cases h
      refine ⟨by nofun, fun reason inside => ?_, fun _ => rfl⟩
      split at inside
      · cases inside
      · cases Option.mem_some.mp inside
        exact ⟨by decide, rfl⟩
  · cases h
    exact ⟨by nofun, by nofun, fun _ => rfl⟩

theorem contractSource {host : SnapshotHost} {proposal : ExtractedMemory host.floats} {reason : String}
    (h : contractDemotion host proposal = .ok (some reason)) :
    reason = "incomplete_typed_fields" ∧ proposal.state = .null := by
  unfold contractDemotion at h
  split at h
  · cases h
  · split at h
    · rename_i stateless
      cases h
      exact ⟨rfl, stateless⟩
    · cases h
  · cases h

theorem keptSource {rt : Runtime} {host : SnapshotHost} {db : EntityStore}
    {envelope : ExtractionEnvelope} {proposal : Option (ExtractedMemory host.floats)}
    {item : SnapshotItem} (h : screenProposal rt host db envelope proposal = .ok (.kept item)) :
    item.Kept rt host envelope := by
  cases proposal with
  | none => cases h
  | some proposal =>
    simp only [screenProposal, bindOk] at h
    obtain ⟨content, contentStated, _, -, permitted, allowed, _, allowedHere, category,
      categoryStated, h⟩ := h
    split at h
    · rename_i tags sensitivity _ sensitivityHere
      split at h
      · rename_i excerpt spanId grounded named
        split at h
        · cases h
        · rename_i span found
          split at h
          · cases h
          · rename_i user
            split at h
            · cases h
            · rename_i exact'
              obtain ⟨answer, -, h⟩ := bindOk.mp h
              split at h
              · cases h
              · rename_i verification
                obtain ⟨⟨typed, demotion⟩, typedHere, h⟩ := bindOk.mp h
                obtain ⟨contract, contracted, h⟩ := bindOk.mp h
                obtain ⟨credential, -, h⟩ := bindOk.mp h
                split at h
                · cases h
                · split at h
                  · cases h
                  · rename_i durable
                    cases h
                    obtain ⟨normal, demoted, stateless⟩ := typedOfSource typedHere
                    obtain ⟨stated, short, within⟩ := groundedSource grounded
                    refine
                      { content := ⟨Text.stripTwice _, statedTextSource contentStated⟩
                        category := ⟨Text.stripTwice _, statedTextSource categoryStated⟩
                        sensitivity := ?_
                        stated := stated
                        short := short
                        within := within
                        named := namedSource named
                        span := ⟨span, found, Decidable.not_not.mp user, Decidable.not_not.mp exact'⟩
                        typed := normal
                        demoted := ?_
                        durable := by simpa using durable }
                    · rw [sensitivityHere, memberOf] at allowed
                      cases allowed
                      simpa using ensureOk.mp allowedHere
                    · intro reason inside
                      cases contract with
                      | none => exact demoted reason inside
                      | some given =>
                        cases Option.mem_some.mp inside
                        obtain ⟨rfl, empty⟩ := contractSource contracted
                        exact ⟨by decide, stateless empty⟩
      · cases h
    · cases h

/-! ## Preparing a kept proposal -/

def itemKeys (typed demoted : Bool) : List String :=
  ["category", "content", "evidence_excerpt", "sensitivity", "tags", "evidence_span_id",
    "evidence_verification"] ++ (if typed then ["typed"] else []) ++
    (if demoted then ["typed_demotion"] else [])

theorem itemKeysHere (item : SnapshotItem) :
    item.members.map Prod.fst = itemKeys item.typed.isSome item.typedDemotion.isSome := by
  unfold SnapshotItem.members
  cases item.typed <;> cases item.typedDemotion <;> rfl

theorem itemDistinct (item : SnapshotItem) : (item.members.map Prod.fst).Nodup := by
  rw [itemKeysHere]
  cases item.typed.isSome <;> cases item.typedDemotion.isSome <;> decide

theorem itemAllowed (item : SnapshotItem) :
    (snapshotBaseFields.all ((listed item.members).map Prod.fst).contains &&
      ((listed item.members).map Prod.fst).all fun key =>
        snapshotBaseFields.contains key || snapshotOptionalFields.contains key) = true := by
  have keys := listedKeys item.members
  rw [itemKeysHere] at keys
  have allowed : ∀ typed demoted, (∀ key ∈ snapshotBaseFields, key ∈ itemKeys typed demoted) ∧
      ∀ key ∈ itemKeys typed demoted, key ∈ snapshotBaseFields ∨ key ∈ snapshotOptionalFields := by decide
  obtain ⟨base, optional⟩ := allowed item.typed.isSome item.typedDemotion.isSome
  simp only [Bool.and_eq_true, List.all_eq_true, Bool.or_eq_true, List.contains_eq_mem, decide_eq_true_eq]
  exact ⟨fun key inside => keys.mem_iff.mpr (base key inside),
    fun key inside => optional key (keys.mem_iff.mp inside)⟩

-- the fields of a kept proposal as they are read back
def SnapshotItem.fields (item : SnapshotItem) : SnapshotFields :=
  ⟨listed item.members, item.content, item.category, item.tags, item.evidenceExcerpt, item.sensitivity⟩

theorem itemMember (item : SnapshotItem) (name : String) :
    item.fields.member name = ((item.members.lookup name).getD .null).sorted :=
  listedMember (itemDistinct item) name

theorem itemTyped (item : SnapshotItem) :
    item.fields.member "typed" = (item.typed.map fun t => Json.obj (listed t.members)).getD .null := by
  rw [itemMember, SnapshotItem.members]
  cases item.typed with
  | none => cases item.typedDemotion <;> rfl
  | some t => cases item.typedDemotion <;> rfl

theorem itemDemotion (item : SnapshotItem) : item.fields.member "typed_demotion" =
    (item.typedDemotion.map fun reason => Json.obj [("reason", .str reason)]).getD .null := by
  rw [itemMember, SnapshotItem.members]
  cases item.typed with
  | none => cases item.typedDemotion <;> rfl
  | some t => cases item.typedDemotion <;> rfl

section Preparing
variable {rt : Runtime} {host : SnapshotHost} {envelope : ExtractionEnvelope} {item : SnapshotItem}

theorem fieldsKept (kept : item.Kept rt host envelope) :
    snapshotFields (.obj (listed item.members)) = .ok item.fields := by
  have member (name : String) :
      ((listed item.members).lookup name).getD .null = ((item.members.lookup name).getD .null).sorted :=
    listedMember (itemDistinct item) name
  have content : ((listed item.members).lookup "content").getD .null = .str item.content := member _
  have category : ((listed item.members).lookup "category").getD .null = .str item.category := member _
  have tags : ((listed item.members).lookup "tags").getD .null = .str item.tags := member _
  have excerpt : ((listed item.members).lookup "evidence_excerpt").getD .null =
    .str item.evidenceExcerpt := member _
  have sensitivity : ((listed item.members).lookup "sensitivity").getD .null = .str item.sensitivity :=
    member _
  have stated : (decide (item.content ≠ "") && decide (item.category ≠ "") &&
      decide (Text.strip item.evidenceExcerpt ≠ "")) = true := by
    simp [kept.content.2, kept.category.2, kept.stated]
  have permitted : ["normal", "sensitive"].contains item.sensitivity = true := by
    simpa using kept.sensitivity
  simp only [snapshotFields, Json.keys, itemAllowed, content, category, tags, excerpt, sensitivity, stated,
    memberOf, permitted, ensure, if_true, okBind, SnapshotItem.fields]

theorem spanKept (kept : item.Kept rt host envelope) :
    ∃ span, span.role = some .user ∧ snapshotSpan envelope item.fields = .ok (some span) := by
  obtain ⟨span, found, user, exact'⟩ := kept.span
  have grounded : (decide (item.evidenceExcerpt.length ≤ maxEvidenceChars) &&
      textWithin item.evidenceExcerpt.toList envelope.transcript.toList) = true := by
    simp [kept.short, kept.within]
  have spanId : item.fields.member "evidence_span_id" = .str item.evidenceSpanId := itemMember item _
  refine ⟨span, user, ?_⟩
  have excerpt : item.fields.excerpt = item.evidenceExcerpt := rfl
  simp only [snapshotSpan, excerpt, grounded, spanId, kept.named, found, user, exact', ensure, okBind,
    ne_eq, not_true_eq_false, not_false_eq_true, decide_true, if_true, if_false]

theorem verificationKept (verification : EvidenceVerification) :
    snapshotVerification (.obj (listed (verificationMembers verification))) = .ok verification := by
  have distinct : ((verificationMembers verification).map Prod.fst).Nodup := by
    show (["status", "verifier_id"] : List String).Nodup
    decide
  have keys : Words.sameSet ((listed (verificationMembers verification)).map Prod.fst)
      ["status", "verifier_id"] = true := sameSetPerm (listedKeys (verificationMembers verification))
  have status : ((listed (verificationMembers verification)).lookup "status").getD .null =
    .str verification.status := listedMember distinct _
  have verifierId : ((listed (verificationMembers verification)).lookup "verifier_id").getD .null =
    .str verification.verifierId := listedMember distinct _
  obtain ⟨verified, id, stated⟩ := verification
  simp only [snapshotVerification, keys, status, verifierId, ensure, if_true, okBind, dif_pos stated]
  cases verified <;> rfl

-- the only step behind which a later store decides
theorem typedKept (kept : item.Kept rt host envelope) (db : EntityStore) :
    ((∀ t ∈ item.typed, SlotStays host.floats db envelope.scope t.subjectKey t.predicateKey) →
      snapshotTyped rt host db envelope item.verification (item.fields.member "typed") =
        .ok (item.typed.map fun t => listed t.members)) ∧
    (¬ (∀ t ∈ item.typed, SlotStays host.floats db envelope.scope t.subjectKey t.predicateKey) →
      snapshotTyped rt host db envelope item.verification (item.fields.member "typed") =
        .error (invalidSnapshot "proposal snapshot contains invalid typed fields")) := by
  rw [itemTyped]
  cases here : item.typed with
  | none =>
    refine ⟨fun _ => ?_, fun moved => absurd (by nofun) moved⟩
    cases verified : item.verification.verified with
    | false => simp only [snapshotTyped, verified, Option.map_none, Option.getD_none]
    | true => simp only [snapshotTyped, verified, Option.map_none, Option.getD_none]
  | some t =>
    obtain ⟨verified, normal⟩ := kept.typed t here
    obtain ⟨stays, read, same⟩ := normalizedAgain normal db
    simp only [Option.mem_def, Option.some.injEq, forall_eq', ← same]
    cases stays with
    | true =>
      refine ⟨fun _ => ?_, fun moved => absurd rfl moved⟩
      simp only [snapshotTyped, verified, Option.map_some, Option.getD_some, read, okBind]
    | false =>
      refine ⟨(by nofun), fun _ => ?_⟩
      simp only [snapshotTyped, verified, Option.map_some, Option.getD_some, read, okBind]

theorem stripBlank {drop : Char → Bool} {text : List Char} (h : Text.stripWith drop text = []) :
    ∀ c ∈ text, drop c = true := by
  intro c inside
  rw [Text.stripWith, List.reverse_eq_nil_iff, List.dropWhile_eq_nil_iff] at h
  by_contra kept
  have there : c ∈ text.dropWhile drop := by
    have whole : text.takeWhile drop ++ text.dropWhile drop = text := List.takeWhile_append_dropWhile
    rw [← whole, List.mem_append] at inside
    rcases inside with taken | left
    · exact absurd (List.mem_takeWhile_imp taken) kept
    · exact left
  exact kept (h c (List.mem_reverse.mpr there))

-- a text with something in it is taken, stripped
theorem requiredTotal {text : String} (name : String) (some : ∃ c ∈ text.toList, Text.isSpace c = false) :
    required text name = .ok (Text.strip text) := by
  obtain ⟨c, inside, visible⟩ := some
  have stated : (Text.strip text).toList ≠ [] := by
    intro blank
    rw [Text.strip, String.toList_ofList] at blank
    rw [stripBlank blank c inside] at visible
    cases visible
  simp only [required, stated, if_false]

theorem strippedRequired {text : String} (name : String) (kept : Text.strip text = text ∧ text ≠ "") :
    required text name = .ok text := by
  have stated : text.toList ≠ [] := fun blank => kept.2 (String.toList_eq_nil_iff.mp blank)
  simp only [required, kept.1, stated, if_false]

theorem scopeStated (envelope : ExtractionEnvelope) :
    Text.strip envelope.scope = envelope.scope ∧ envelope.scope ≠ "" := by
  refine ⟨knownScopeKept envelope.known, fun empty => ?_⟩
  have known := envelope.known
  rw [empty] at known
  exact absurd known (by decide)

theorem keyVisible (job : SnapshotJob) (index : Nat) :
    ∃ c ∈ (job.idempotencyKey index).toList, Text.isSpace c = false := by
  refine ⟨'e', ?_, by decide⟩
  simp [SnapshotJob.idempotencyKey]

theorem requestBuilt (kept : item.Kept rt host envelope) (job : SnapshotJob) (index : Nat)
    {span : TranscriptSpan} (user : span.role = some .user) (metadata : JsonObject) :
    ∃ request, snapshotRequest envelope job index item.fields span item.verification metadata =
      .ok request := by
  have sourceType : required "automatic_extraction" "source_type" = .ok "automatic_extraction" := by decide
  have relation : required "derived_from" "relation" = .ok "derived_from" := by decide
  have operation : required "add_fact" "operation" = .ok "add_fact" := by decide
  have sensitivity : ∀ word ∈ ["normal", "sensitive"], required word "sensitivity" = .ok word := by decide
  have half : (decide ((0 : Rat) ≤ 1 / 2) && decide ((1 / 2 : Rat) ≤ 1)) = true := by decide +kernel
  have trust : (decide (0 ≤ automaticTrustScore) && decide (automaticTrustScore ≤ 1)) = true := by
    decide +kernel
  simp only [snapshotRequest, WriteRequest.plain, WriteRequest.postInit, SnapshotItem.fields,
    requiredTotal _ (keyVisible job index), strippedRequired _ kept.content,
    strippedRequired _ kept.category, strippedRequired _ (scopeStated envelope), sourceType, relation,
    operation, sensitivity _ kept.sensitivity, user, Option.map_some, Option.getD_some,
    automaticSourceAuthority, trust, half, okBind, ensure, if_true, ne_eq, reduceCtorEq,
    not_false_eq_true, decide_true, Except.mapError]
  exact ⟨_, rfl⟩

theorem demotionKept (kept : item.Kept rt host envelope) :
    ∃ demotion, snapshotDemotion (item.typed.map fun t => listed t.members)
      (item.fields.member "typed_demotion") = .ok demotion := by
  rw [itemDemotion]
  cases here : item.typedDemotion with
  | none => exact ⟨none, rfl⟩
  | some reason =>
    obtain ⟨known, untyped⟩ := kept.demoted reason here
    have listed' : snapshotDemotions.contains reason = true := by simpa using known
    have keys : Words.sameSet ["reason"] ["reason"] = true := by decide
    have found : (([("reason", Json.str reason)] : JsonObject).lookup "reason").getD .null = .str reason := rfl
    simp only [untyped, Option.map_none, Option.map_some, Option.getD_some, snapshotDemotion, List.map_cons,
      List.map_nil, keys, found, memberOf, listed', ensure, if_true, okBind, Option.isNone_none,
      Bool.and_true]
    exact ⟨_, rfl⟩

theorem proposalAgain (kept : item.Kept rt host envelope) (job : SnapshotJob) (index : Nat) :
    ∃ params, ∀ db : EntityStore,
      ((∀ t ∈ item.typed, SlotStays host.floats db envelope.scope t.subjectKey t.predicateKey) →
        prepareProposal rt host db envelope job index (.obj (listed item.members)) = .ok params) ∧
      (¬ (∀ t ∈ item.typed, SlotStays host.floats db envelope.scope t.subjectKey t.predicateKey) →
        prepareProposal rt host db envelope job index (.obj (listed item.members)) =
          .error (invalidSnapshot "proposal snapshot contains invalid typed fields")) := by
  obtain ⟨span, user, spanHere⟩ := spanKept kept
  obtain ⟨demotion, demoted⟩ := demotionKept kept
  obtain ⟨request, built⟩ := requestBuilt kept job index user
    (snapshotMetadata envelope job (item.fields.member "evidence_span_id") item.verification
      (item.typed.map fun t => listed t.members) demotion)
  have content : item.fields.content = item.content := rfl
  have durable : (none : Option String).isSome = true ↔ False := by simp
  have verification : item.fields.member "evidence_verification" =
    .obj (listed (verificationMembers item.verification)) := itemMember item _
  have steps (db : EntityStore) :
      prepareProposal rt host db envelope job index (.obj (listed item.members)) = (do
        let typed ← snapshotTyped rt host db envelope item.verification (item.fields.member "typed")
        proposalParams rt envelope job index item.fields span item.verification typed) := by
    simp only [prepareProposal, fieldsKept kept, content, kept.durable, spanHere, verification,
      verificationKept, okBind, durable, if_false]
  have params : ∃ params, proposalParams rt envelope job index item.fields span item.verification
      (item.typed.map fun t => listed t.members) = .ok params := by
    simp only [proposalParams, demoted, built, okBind]
    split
    · exact ⟨_, rfl⟩
    · exact ⟨_, rfl⟩
  obtain ⟨params, ready⟩ := params
  refine ⟨params, fun db => ⟨fun stays => ?_, fun moved => ?_⟩⟩
  · rw [steps, (typedKept kept db).1 stays, okBind, ready]
  · rw [steps, (typedKept kept db).2 moved, errorBind]

end Preparing

/-! ## The whole snapshot -/

def SnapshotStays (rt : Runtime) (host : SnapshotHost) (db : EntityStore) (envelope : ExtractionEnvelope)
    (proposals : List (Option (ExtractedMemory host.floats))) (later : EntityStore) : Prop :=
  ∀ proposal ∈ proposals, ∀ item t, screenProposal rt host db envelope proposal = .ok (.kept item) →
    item.typed = some t → SlotStays host.floats later envelope.scope t.subjectKey t.predicateKey

section Snapshot
variable {rt : Runtime} {host : SnapshotHost} {db : EntityStore} {envelope : ExtractionEnvelope}
  {proposals : List (Option (ExtractedMemory host.floats))}

theorem typedNative {floats : FloatText} {t : TypedFields} (double : floats.isDouble t.confidence = true) :
    (Json.obj t.members).every (Json.native floats) = true := by
  have distinct := decide_eq_true (typedDistinct t)
  rw [Json.every, Bool.and_eq_true]
  refine ⟨distinct, Json.everyMemberIff.mpr fun member inside => ?_⟩
  simp only [TypedFields.members, List.mem_cons, List.not_mem_nil, or_false] at inside
  rcases inside with rfl | rfl | rfl | rfl | rfl | rfl | rfl
  · exact double
  · rfl
  · rfl
  · cases t.objectValue <;> rfl
  · rfl
  · rfl
  · cases t.validFrom <;> rfl

theorem verificationNative (floats : FloatText) (verification : EvidenceVerification) :
    (Json.obj (verificationMembers verification)).every (Json.native floats) = true := by
  have distinct : (["status", "verifier_id"] : List String).Nodup := by decide
  rw [Json.every, Bool.and_eq_true]
  refine ⟨decide_eq_true distinct, Json.everyMemberIff.mpr fun member inside => ?_⟩
  simp only [verificationMembers, List.mem_cons, List.not_mem_nil, or_false] at inside
  rcases inside with rfl | rfl <;> rfl

theorem itemNative {item : SnapshotItem} (kept : item.Kept rt host envelope) :
    (Json.obj item.members).every (Json.native host.floats) = true := by
  rw [Json.every, Bool.and_eq_true]
  refine ⟨decide_eq_true (itemDistinct item), Json.everyMemberIff.mpr fun member inside => ?_⟩
  simp only [SnapshotItem.members, List.mem_append, List.mem_cons, List.not_mem_nil, or_false,
    Option.mem_toList, Option.map_eq_some_iff] at inside
  rcases inside with ((rfl | rfl | rfl | rfl | rfl | rfl | rfl) | ⟨t, here, rfl⟩) | ⟨reason, -, rfl⟩
  · rfl
  · rfl
  · rfl
  · rfl
  · rfl
  · rfl
  · exact verificationNative _ _
  · exact typedNative (kept.typed t here).2.double
  · rfl

theorem snapshotNative {items : List SnapshotItem} (kept : ∀ item ∈ items, item.Kept rt host envelope) :
    (Json.obj (snapshotMembers host items)).every (Json.native host.floats) = true := by
  have distinct : (["extractor_identity", "proposals", "version"] : List String).Nodup := by decide
  rw [Json.every, Bool.and_eq_true]
  refine ⟨decide_eq_true distinct, Json.everyMemberIff.mpr fun member inside => ?_⟩
  simp only [snapshotMembers, List.mem_cons, List.not_mem_nil, or_false] at inside
  rcases inside with rfl | rfl | rfl
  · rfl
  · rw [Json.every, Bool.and_eq_true]
    refine ⟨rfl, Json.everyItemIff.mpr fun value inside => ?_⟩
    obtain ⟨item, there, rfl⟩ := List.mem_map.mp inside
    exact itemNative (kept item there)
  · rfl

-- a dump is its own canonical text
theorem loadCanonicalKept {floats : FloatText} {v : Json} {text : String}
    (native : v.every (Json.native floats) = true) (dumped : dumps floats v = .ok text) :
    loadCanonical floats text = .ok v.sorted := by
  have loaded := loadsDumps native dumped
  obtain ⟨short, rfl⟩ := dumpsPrinted dumped
  have again : dumps floats v.sorted = .ok (String.ofList (print floats v.sorted)) := by
    rw [dumps, if_pos (Json.everySorted shortIntStable v short), Json.sortedTwice]
  simp only [loadCanonical, loaded, again, Except.mapError, okBind, ensure, decide_true, if_true]

theorem proposalListKept (host : SnapshotHost) (items : List SnapshotItem) (few : items.length ≤ maxExtractedMemories) :
    snapshotProposalList (Json.obj (snapshotMembers host items)).sorted =
      .ok (host.identity, items.map fun item => Json.obj (listed item.members)) := by
  have distinct : ((snapshotMembers host items).map Prod.fst).Nodup := by
    show (["extractor_identity", "proposals", "version"] : List String).Nodup
    decide
  have shape : (Json.obj (snapshotMembers host items)).sorted = .obj (listed (snapshotMembers host items)) :=
    rfl
  have version : ((listed (snapshotMembers host items)).lookup "version").getD .null = .int 1 :=
    listedMember distinct _
  have identity : ((listed (snapshotMembers host items)).lookup "extractor_identity").getD .null =
    .str host.identity := listedMember distinct _
  have proposals : ((listed (snapshotMembers host items)).lookup "proposals").getD .null =
      .arr (items.map fun item => Json.obj (listed item.members)) := by
    refine (listedMember distinct _).trans ?_
    have found : ((snapshotMembers host items).lookup "proposals").getD .null =
      .arr (items.map fun item => .obj item.members) := rfl
    rw [found, Json.sorted, Json.sortedItemsMap, List.map_map]
    rfl
  have size : (items.map fun item => Json.obj (listed item.members)).length ≤ maxExtractedMemories := by
    rwa [List.length_map]
  simp only [shape, snapshotProposalList, version, identity, proposals, isVersionOne, size,
    host.identityStated, ensure, okBind, decide_true, if_true, ne_eq, not_false_eq_true]

-- what a snapshot keeps, and the text it is saved as
theorem madeSource {text hash : String} (made : makeSnapshot rt host db envelope proposals = .ok (text, hash)) :
    ∃ screened, proposals.mapM (screenProposal rt host db envelope) = .ok screened ∧
      (screened.filterMap Screened.item?).length ≤ maxExtractedMemories ∧
      dumps host.floats (.obj (snapshotMembers host (screened.filterMap Screened.item?))) = .ok text ∧
      hash = rt.sha256 text := by
  simp only [makeSnapshot, bindOk, ensureOk, decide_eq_true_eq] at made
  obtain ⟨-, few, screened, read, made⟩ := made
  split at made
  · cases made
  · split at made
    · cases made
    · obtain ⟨dumped, printed, last⟩ := bindOk.mp made
      cases last
      refine ⟨screened, read, ?_, ?_, rfl⟩
      · refine (List.length_filterMap_le _ _).trans ?_
        rwa [mapMLength read]
      · revert printed
        cases dumps host.floats (.obj (snapshotMembers host (screened.filterMap Screened.item?))) with
        | error fault =>
          intro printed
          cases printed
        | ok _ =>
          intro printed
          cases printed
          rfl

theorem screenedKept {screened : List Screened}
    (read : proposals.mapM (screenProposal rt host db envelope) = .ok screened) (item : SnapshotItem) :
    item ∈ screened.filterMap Screened.item? ↔
      ∃ proposal ∈ proposals, screenProposal rt host db envelope proposal = .ok (.kept item) := by
  have back : ∀ {proposals : List (Option (ExtractedMemory host.floats))} {screened : List Screened},
      proposals.mapM (screenProposal rt host db envelope) = .ok screened →
      ∀ proposal ∈ proposals, ∃ answer ∈ screened, screenProposal rt host db envelope proposal = .ok answer := by
    intro proposals
    induction proposals with
    | nil => exact fun _ _ inside => absurd inside List.not_mem_nil
    | cons first rest ih =>
      intro screened read proposal inside
      obtain ⟨answer, tail, here, later, rfl⟩ := mapMCons.mp read
      rcases List.mem_cons.mp inside with rfl | inside
      · exact ⟨answer, List.mem_cons_self, here⟩
      · obtain ⟨other, there, found⟩ := ih later proposal inside
        exact ⟨other, List.mem_cons_of_mem _ there, found⟩
  constructor
  · intro inside
    obtain ⟨answer, there, kept⟩ := List.mem_filterMap.mp inside
    obtain ⟨proposal, given, found⟩ := mapMSource read answer there
    cases answer with
    | kept other =>
      cases Option.some.inj kept
      exact ⟨proposal, given, found⟩
    | _ => cases kept
  · rintro ⟨proposal, given, found⟩
    obtain ⟨answer, there, same⟩ := back read proposal given
    rw [found] at same
    cases same
    exact List.mem_filterMap.mpr ⟨_, there, rfl⟩

theorem preparedAgain {text hash : String}
    (made : makeSnapshot rt host db envelope proposals = .ok (text, hash)) (rowId : Nat)
    (digest observedAt : String) :
    ∃ params, ∀ later : EntityStore,
      (SnapshotStays rt host db envelope proposals later →
        prepareSnapshot rt host later envelope text hash rowId digest observedAt = .ok params) ∧
      (¬ SnapshotStays rt host db envelope proposals later →
        prepareSnapshot rt host later envelope text hash rowId digest observedAt =
          .error (invalidSnapshot "proposal snapshot contains invalid typed fields")) := by
  classical
  obtain ⟨screened, read, few, dumped, rfl⟩ := madeSource made
  have keptAll : ∀ item ∈ screened.filterMap Screened.item?, item.Kept rt host envelope := by
    intro item inside
    obtain ⟨proposal, -, found⟩ := (screenedKept read item).mp inside
    exact keptSource found
  have members := screenedKept read
  generalize screened.filterMap Screened.item? = items at few dumped keptAll members
  have loaded := loadCanonicalKept (snapshotNative keptAll) dumped
  have listed' := proposalListKept host items few
  have each : ∀ row ∈ items.zipIdx, row.1.Kept rt host envelope :=
    fun row inside => keptAll row.1 (List.fst_mem_of_mem_zipIdx inside)
  have again := fun row inside =>
    proposalAgain (each row inside) ⟨rowId, digest, observedAt, host.identity, rt.sha256 text⟩ row.2
  choose! params ready using again
  refine ⟨(items.zipIdx.map params).filterMap id, fun later => ?_⟩
  have guarded : (items.zipIdx.mapM fun row => prepareProposal rt host later envelope
      ⟨rowId, digest, observedAt, host.identity, rt.sha256 text⟩ row.2 (.obj (listed row.1.members))) =
      if ∀ row ∈ items.zipIdx, ∀ t ∈ row.1.typed,
        SlotStays host.floats later envelope.scope t.subjectKey t.predicateKey
      then .ok (items.zipIdx.map params)
      else .error (invalidSnapshot "proposal snapshot contains invalid typed fields") := by
    refine mapMGuarded fun row inside => ?_
    split
    · rename_i stays
      exact (ready row inside later).1 stays
    · rename_i moved
      exact (ready row inside later).2 moved
  have same : (∀ row ∈ items.zipIdx, ∀ t ∈ row.1.typed,
      SlotStays host.floats later envelope.scope t.subjectKey t.predicateKey) ↔
      SnapshotStays rt host db envelope proposals later := by
    constructor
    · intro stays proposal given item t found typed
      have inside := (members item).mpr ⟨proposal, given, found⟩
      obtain ⟨index, there⟩ := List.mem_iff_getElem?.mp inside
      exact stays (item, index) (List.mem_zipIdx_iff_getElem?.mpr there) t typed
    · intro stays row inside t typed
      obtain ⟨proposal, given, found⟩ := (members row.1).mp (List.fst_mem_of_mem_zipIdx inside)
      exact stays proposal given row.1 t found typed
  have rows : (items.map fun item => Json.obj (listed item.members)).zipIdx =
      items.zipIdx.map fun row => (Json.obj (listed row.1.members), row.2) := by
    rw [List.zipIdx_map]
    rfl
  have whole : prepareSnapshot rt host later envelope text (rt.sha256 text) rowId digest observedAt =
      (if SnapshotStays rt host db envelope proposals later then
          (.ok (items.zipIdx.map params) : Except Raised (List (Option WriteParams)))
        else .error (invalidSnapshot "proposal snapshot contains invalid typed fields")) >>= fun prepared =>
        .ok (prepared.filterMap id) := by
    simp only [prepareSnapshot, loaded, listed', rows, List.mapM_map, Function.comp_def, ensure, decide_true, if_true,
      okBind]
    rw [guarded]
    simp only [same]
  constructor
  · intro stays
    rw [whole, if_pos stays, okBind]
  · intro moved
    rw [whole, if_neg moved, errorBind]

end Snapshot

/-- A kept snapshot gives one list of write parameters, and gives it in exactly the later stores that
its slots stay in; in every other store it is an invalid snapshot. -/
theorem snapshotUsable {rt : Runtime} {host : SnapshotHost} {db : EntityStore}
    {envelope : ExtractionEnvelope} {proposals : List (Option (ExtractedMemory host.floats))}
    {text hash : String} (made : makeSnapshot rt host db envelope proposals = .ok (text, hash))
    (rowId : Nat) (digest observedAt : String) :
    ∃ params, ∀ later : EntityStore,
      (prepareSnapshot rt host later envelope text hash rowId digest observedAt = .ok params ↔
        SnapshotStays rt host db envelope proposals later) ∧
      (¬ SnapshotStays rt host db envelope proposals later →
        prepareSnapshot rt host later envelope text hash rowId digest observedAt =
          .error (invalidSnapshot "proposal snapshot contains invalid typed fields")) := by
  obtain ⟨params, again⟩ := preparedAgain made rowId digest observedAt
  refine ⟨params, fun later => ⟨⟨fun ready => ?_, (again later).1⟩, (again later).2⟩⟩
  by_contra moved
  rw [(again later).2 moved] at ready
  cases ready

namespace Example

def counting : ExtractionEnvelope where
  transcript := "We have nine widgets."
  source := "cli"
  scope := "private"
  context := caller
  turns := some [⟨.user, "We have nine widgets.", by decide⟩]
  turned := by simp
  known := by decide

def unicode : UnicodeText where
  nfkc text := text
  isFormat _ := false
  lower text := text.map Char.toLower
  isAlnum := Char.isAlphanum

-- the interpreter's floats, as far as whole confidence needs them
def wholeFloats : FloatText where
  isDouble x := decide (x = 1)
  repr _ := "1.0".toList
  read text := if text = "1.0".toList then some 1 else none
  shape x _ := ⟨⟨[], ['1'], ['.', '0'], []⟩, ⟨.inl rfl, .inr ⟨⟨nofun, fun c inside => List.mem_singleton.mp inside ▸ rfl⟩, by decide⟩,
    .inr ⟨['0'], ⟨nofun, fun c inside => List.mem_singleton.mp inside ▸ rfl⟩, rfl⟩, .inl rfl⟩,
    .inl nofun, rfl⟩
  exact x double := by
    rw [if_pos rfl, of_decide_eq_true double]

def counted : ExtractedMemory wholeFloats where
  content := .str "The project has nine widgets."
  category := .str "project"
  tags := .str ""
  evidenceExcerpt := .str "We have nine widgets."
  scope := .null
  sensitivity := .str "normal"
  state := .obj [("kind", .str "state"), ("subject", .str "project:x"), ("predicate", .str "widgets"),
    ("value", .str "nine"), ("confidence", .int 1)]
  metadata := [("evidence_span_id", .str "span-000000-000021")]
  native := by decide +kernel

def trustingHost : SnapshotHost where
  floats := wholeFloats
  oneDouble := by decide
  unicode := unicode
  identity := "extractor"
  identityStated := by decide
  verify _ _ _ := .ok (some ⟨true, "verifier", by decide⟩)

def unnamed (ops : List (Operation .plain)) : EntityStore :=
  { history ops with
    entities := []
    factEntities := [] }

def singular : TimedWrite .plain where
  clock := .at "2026-01-03"
  item := {
    request := WriteRequest.plain "k1" "The widget is blue" "user"
    candidate := some ⟨"The widget is blue", "project:x", "widget", some "blue", 1 / 2,
      some "2026-01-01", "state", "private", none⟩
    requestBuilt := by decide +kernel
    candidateBuilt := by decide +kernel }

theorem countedSnapshot : ∃ text hash, makeSnapshot .plain trustingHost (unnamed []) counting
    [some counted] = .ok (text, hash) := by
  have made : (makeSnapshot .plain trustingHost (unnamed []) counting
      [some counted]).toOption.isSome = true := by
    decide +kernel
  obtain ⟨⟨text, hash⟩, found⟩ := Option.isSome_iff_exists.mp made
  exact ⟨text, hash, okOfOption found⟩

theorem snapshotUsableHere : ∃ text hash params, ∀ later : EntityStore,
    (prepareSnapshot .plain trustingHost later counting text hash 1 "digest" "2026-01-02" = .ok params ↔
      SnapshotStays .plain trustingHost (unnamed []) counting [some counted] later) ∧
    (¬ SnapshotStays .plain trustingHost (unnamed []) counting [some counted] later →
      prepareSnapshot .plain trustingHost later counting text hash 1 "digest" "2026-01-02" =
        .error (invalidSnapshot "proposal snapshot contains invalid typed fields")) := by
  obtain ⟨text, hash, made⟩ := countedSnapshot
  obtain ⟨params, usable⟩ := snapshotUsable made 1 "digest" "2026-01-02"
  exact ⟨text, hash, params, usable⟩

theorem countedItem : ∃ item t,
    screenProposal .plain trustingHost (unnamed []) counting (some counted) = .ok (.kept item) ∧
      item.typed = some t ∧ t.subjectKey = "project:x" ∧ t.predicateKey = "widgets" := by
  have kept : (screenProposal .plain trustingHost (unnamed []) counting
      (some counted)).toOption.bind (fun screened => screened.item?.bind fun item => item.typed.map
        fun t => (t.subjectKey, t.predicateKey)) = some ("project:x", "widgets") := by
    decide +kernel
  obtain ⟨screened, found, kept⟩ := Option.bind_eq_some_iff.mp kept
  obtain ⟨item, itemHere, kept⟩ := Option.bind_eq_some_iff.mp kept
  obtain ⟨t, typed, keys⟩ := Option.map_eq_some_iff.mp kept
  have shape : screened = .kept item := by
    cases screened with
    | kept other => rw [Option.some.inj itemHere]
    | _ => cases itemHere
  exact ⟨item, t, shape ▸ okOfOption found, typed, Prod.mk.inj keys⟩

/-- A snapshot of an empty store, refused once another writer has stated the singular predicate. -/
theorem widgetsRefused : ∃ text hash,
    makeSnapshot .plain trustingHost (unnamed []) counting [some counted] = .ok (text, hash) ∧
    prepareSnapshot .plain trustingHost (unnamed [.write trusted caller singular]) counting text hash 1
      "digest" "2026-01-02" =
        .error (invalidSnapshot "proposal snapshot contains invalid typed fields") := by
  obtain ⟨text, hash, made⟩ := countedSnapshot
  obtain ⟨params, again⟩ := preparedAgain made 1 "digest" "2026-01-02"
  refine ⟨text, hash, made, (again _).2 fun stays => ?_⟩
  obtain ⟨item, t, kept, typed, -, predicate⟩ := countedItem
  have slot := stays (some counted) List.mem_cons_self item t kept typed
  rw [predicate] at slot
  have settled : ¬ PredicateSettled (canonicalPredicates ++
      storedPredicates (history [.write trusted caller singular]).toLedger (Text.strip "private"))
      "widgets" := by
    decide +kernel
  exact settled slot.predicate

end Example

end Enfold
