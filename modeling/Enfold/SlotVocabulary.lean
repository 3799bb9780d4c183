import Mathlib.Data.List.Dedup
import Enfold.JsonText
import Enfold.SlotKeys

/-! The words an extractor's slot keys are matched with: the canonical vocabulary, the predicates
the store knows, and the person a store takes its user to be. A key that has been resolved once is
resolved to itself as long as the same words are known. -/
namespace Enfold

open Fallible

/-! ## Canonical words -/

def canonicalSubjectKinds : List String :=
  ["agent", "bot", "course", "course_section", "cron", "environment", "person", "project", "service",
    "trip"]

def canonicalPredicates : List String :=
  ["clothing_store", "data_analysis_course", "decision_council", "employer", "cru_schedule_mode",
    "job_status", "keyboard", "live_version", "location", "model", "model_routing", "port",
    "quiz_time_accommodation", "response_style", "result_format", "typography", "threadwell_use"]

-- the token behind the last `_`, in the plural
def pluralToken (final : List Char) : List Char :=
  if ["s", "x", "z", "ch", "sh"].any fun ending => ending.toList.isSuffixOf final then
    final ++ ['e', 's']
  else if 1 < final.length && final.getLast? = some 'y' &&
      final.dropLast.getLast?.any (fun c => !"aeiou".toList.contains c) then
    final.dropLast ++ ['i', 'e', 's']
  else final ++ ['s']

-- `_plural_key`
def pluralKey (value : String) : String :=
  let final := value.toList.rtakeWhile (· ≠ '_')
  String.ofList (value.toList.rdropWhile (· ≠ '_') ++ pluralToken final)

/-! ## Subjects -/

-- `re.sub(r"\s*:\s*", ":", text)`: white space is held back until what follows it is known not to
-- be a colon; there is none to hold behind a colon
def tightenColons : Option (List Char) → List Char → List Char
  | held, [] => held.getD []
  | held, c :: rest =>
    if c = ':' then ':' :: tightenColons none rest
    else if Text.isSpace c then tightenColons (held.map (· ++ [c])) rest
    else held.getD [] ++ c :: tightenColons (some []) rest

def isKeyMark (c : Char) : Bool := c = '_' || c = '-'

-- a kind in the plural, when it is the plural of one kind only
def singularKind (kind : List Char) : List Char :=
  if canonicalSubjectKinds.any (·.toList = kind) then kind
  else match canonicalSubjectKinds.filter fun candidate => (pluralKey candidate).toList = kind with
    | [only] => only.toList
    | _ => kind

-- `([a-z]{2,4})[_-]*(\d{4})(?:[_-]*[a-z][a-z0-9]{1,7})?`: the course without its section
def courseKey (payload : List Char) : Option (List Char) :=
  let letters := payload.takeWhile Text.isLowerAscii
  let behind := (payload.dropWhile Text.isLowerAscii).dropWhile isKeyMark
  let digits := behind.take 4
  let suffix := (behind.drop 4).dropWhile isKeyMark
  let suffixed := Text.shaped Text.isLowerAscii Text.isWordChar 8 suffix && 2 ≤ suffix.length
  if 2 ≤ letters.length && letters.length ≤ 4 && digits.length = 4 && digits.all Text.isDigitAscii &&
      (behind.drop 4 = [] || suffixed) then some (letters ++ digits)
  else none

def coursePayload (kind payload : List Char) : List Char :=
  if kind = "course".toList then (courseKey payload).getD payload else payload

/-- Resolve only syntactic subject near-misses. -/
def resolveExtractedSubjectKey (value : String) : Except Raised String := do
  let normalized ← normalizeSubjectKey (String.ofList (tightenColons (some []) value.toList))
  let text := normalized.toList
  if !text.contains ':' then .ok normalized
  else
    let kind := singularKind (text.takeWhile (· ≠ ':'))
    let payload := Text.stripWith isKeyMark (text.dropWhile (· ≠ ':')).tail
    normalizeSubjectKey (String.ofList (kind ++ ':' :: coursePayload kind payload))

/-! ## Predicates -/

/-- Resolve separators and unambiguous final-token plurals only. -/
def resolveExtractedPredicateKey (value : String) (knownPredicates : List String) :
    Except Raised String := do
  let normalized ← normalizePredicateKey value
  let known ← (canonicalPredicates ++ knownPredicates).mapM normalizePredicateKey
  if known.contains normalized then .ok normalized
  else match known.dedup.filter fun candidate => pluralKey candidate = normalized with
    | [only] => .ok only
    | _ => .ok normalized

-- the predicates of the undisputed current facts of a scope
def storedPredicates (l : Ledger) (scope : String) : List String :=
  (l.facts.filter fun f => f.scope = scope && f.current && f.conflictGroup.isNone).filterMap
    fun f => f.predicateKey.bind fun predicate => (normalizePredicateKey predicate).toOption

-- `canonical_slot_registry(conn, scope=scope)["predicates"]`
def canonicalSlotRegistry (l : Ledger) (scope : String) : Except Raised (List String) := do
  ensure (Text.strip scope ≠ "") ⟨.valueError, "scope is required for a store-backed slot registry"⟩
  .ok (canonicalPredicates ++
    ((storedPredicates l (Text.strip scope)).filter (!canonicalPredicates.contains ·)).dedup)

/-! ## The user of a store -/

structure Entity where
  entityId : Nat
  name : String
  entityType : Option String
  aliases : Option String
  deriving DecidableEq, Repr

-- `fact_entities`
structure FactEntity where
  factId : Nat
  entityId : Nat
  deriving DecidableEq, Repr

structure EntityStore extends Store where
  entities : List Entity
  factEntities : List FactEntity

def genericUserSubjects : List String := ["user", "person:user", "person:the_user", "person:the-user"]

-- `re.split(r"[,;|\n]", text)`
def splitAliases : List Char → List (List Char)
  | [] => [[]]
  | c :: rest => match splitAliases rest with
    | head :: tail =>
      if c = ',' || c = ';' || c = '|' || c = '\n' then [] :: head :: tail else (c :: head) :: tail
    | [] => [[c]]

-- a JSON list of texts, or separated text; an integer of too many digits is no decoding error
def listedAliases (floats : FloatText) (text : String) : Except Raised (List String) :=
  let split := (splitAliases text.toList).map String.ofList
  match loads floats text with
  | .ok (.arr items) =>
    let texts := items.filterMap fun
      | .str item => some item
      | _ => none
    .ok (if texts.length = items.length then texts else split)
  | .error .tooManyDigits => .error ⟨.valueError, "Exceeds the limit for integer string conversion"⟩
  | _ => .ok split

-- `_entity_aliases`
def entityAliases (floats : FloatText) : Option String → Except Raised (List (List Char))
  | none => .ok []
  | some text =>
    if Text.strip text = "" then .ok []
    else do
      let aliases ← listedAliases floats text
      .ok ((aliases.filter (Text.strip · ≠ "")).map fun item => Text.casefold (Text.strip item).toList)

-- a fact whose subject the user vouched for
def EntityStore.vouched (db : EntityStore) (f : Fact) : Bool :=
  db.provenance.any fun p => p.factId = f.factId && db.observations.any fun o =>
    o.observationId = p.observationId && (f.correctionStatus = some "human_confirmed" ||
      (o.assertedBy = some "user" && o.sourceType ≠ "automatic_extraction"))

-- the stored subjects with the entities their facts name
def EntityStore.userRows (db : EntityStore) (scope : String) : List (String × Entity) :=
  (db.facts.filter fun f => f.scope = scope && f.isState && f.current && f.conflictGroup.isNone &&
      db.vouched f).flatMap fun f =>
    match f.subjectKey with
    | none => []
    | some subject => (db.entities.filter fun e =>
        db.factEntities.contains ⟨f.factId, e.entityId⟩).map fun e => (subject, e)

def userCandidate (floats : FloatText) (row : String × Entity) : Except Raised (Option String) :=
  if row.2.entityType.map (fun type => Text.casefold type.toList) ≠ some "person".toList then .ok none
  else do
    let aliases ← entityAliases floats row.2.aliases
    if !(aliases.contains "user".toList || aliases.contains "the user".toList) then .ok none
    else match resolveExtractedSubjectKey row.1, resolveExtractedSubjectKey ("person:" ++ row.2.name) with
      | .ok candidate, .ok named =>
        .ok (if candidate = named && "person:".toList.isPrefixOf candidate.toList then some candidate
          else none)
      | _, _ => .ok none

-- the one person trusted evidence names
def EntityStore.userSubject (floats : FloatText) (db : EntityStore) (scope : String) :
    Except Raised (Option String) := do
  let candidates ← (db.userRows scope).mapM (userCandidate floats)
  match (candidates.filterMap id).dedup with
  | [only] => .ok (some only)
  | _ => .ok none

/-- Resolve a generic user subject only from unique trusted store evidence. -/
def resolveStoredSubjectKey (floats : FloatText) (db : EntityStore) (value scope : String) :
    Except Raised (Option String) := do
  let subject ← resolveExtractedSubjectKey value
  if !genericUserSubjects.contains subject then .ok (some subject) else db.userSubject floats scope

/-! ## What is resolved stays resolved -/

def isSubjectChar (c : Char) : Bool :=
  Text.isWordChar c || c = '.' || c = '_' || c = ':' || c = '/' || c = '-'

theorem subjectCharFolded {c : Char} (h : isSubjectChar c = true) :
    Text.isSpace c = false ∧ c.toNat < 128 ∧ Text.isUpperAscii c = false := by
  simp only [isSubjectChar, Bool.or_eq_true, decide_eq_true_eq] at h
  rcases h with ((((word | rfl) | rfl) | rfl) | rfl) | rfl
  · exact ⟨Text.wordSpace word, Text.wordFolded word⟩
  all_goals decide

theorem subjectKeyChars {text : List Char} (h : isSubjectKey text = true) :
    ∀ c ∈ text, isSubjectChar c = true := by
  unfold isSubjectKey at h
  intro c inside
  have letter := Text.shapedAll (fun c word => by simp [word]) h c inside
  exact letter

theorem tightenKept {text : List Char} (spaceless : ∀ c ∈ text, Text.isSpace c = false)
    {held : Option (List Char)} (empty : held.getD [] = []) : tightenColons held text = text := by
  induction text generalizing held with
  | nil => exact empty
  | cons c rest ih =>
    have tail {held : Option (List Char)} (empty : held.getD [] = []) : tightenColons held rest = rest :=
      ih (fun d inside => spaceless d (List.mem_cons_of_mem _ inside)) empty
    rw [tightenColons, spaceless c List.mem_cons_self, empty]
    split
    · rename_i colon
      rw [tail rfl, colon]
    · simp only [Bool.false_eq_true, if_false, List.nil_append]
      rw [tail rfl]

-- on the characters of a key only its shape is checked
theorem normalizeSubjectChars {text : List Char} {key : String}
    (chars : ∀ c ∈ text, isSubjectChar c = true)
    (h : normalizeSubjectKey (String.ofList text) = .ok key) :
    key = String.ofList text ∧ isSubjectKey text = true := by
  have spaceless := fun c inside => (subjectCharFolded (chars c inside)).1
  have folded := fun c inside => (subjectCharFolded (chars c inside)).2
  unfold normalizeSubjectKey at h
  dsimp only at h
  rw [Text.stripKept spaceless, String.toList_ofList, Text.casefoldKept folded,
    Text.collapseKept spaceless] at h
  split at h
  · rename_i shape
    exact ⟨(Except.ok.inj h).symm, shape⟩
  · cases h

theorem singularKindTwice (kind : List Char) : singularKind (singularKind kind) = singularKind kind := by
  by_cases known : canonicalSubjectKinds.any (·.toList = kind) = true
  · have kept : singularKind kind = kind := by rw [singularKind, if_pos known]
    rw [kept, kept]
  · cases plural : canonicalSubjectKinds.filter fun candidate => (pluralKey candidate).toList = kind with
    | nil =>
      have kept : singularKind kind = kind := by rw [singularKind, if_neg known, plural]
      rw [kept, kept]
    | cons only rest =>
      cases rest with
      | cons second more =>
        have kept : singularKind kind = kind := by rw [singularKind, if_neg known, plural]
        rw [kept, kept]
      | nil =>
        have singular : singularKind kind = only.toList := by rw [singularKind, if_neg known, plural]
        have canonical : only ∈ canonicalSubjectKinds := by
          have inside : only ∈ [only] := List.mem_singleton_self only
          rw [← plural] at inside
          exact (List.mem_filter.mp inside).1
        rw [singular, singularKind, if_pos]
        exact List.any_eq_true.mpr ⟨only, canonical, decide_eq_true rfl⟩

-- the kind is one of the vocabulary or stands as it was written
theorem singularKindChars {kind : List Char} (chars : ∀ c ∈ kind, isSubjectChar c = true ∧ c ≠ ':') :
    ∀ c ∈ singularKind kind, isSubjectChar c = true ∧ c ≠ ':' := by
  have canonical : ∀ name ∈ canonicalSubjectKinds, ∀ c ∈ name.toList, isSubjectChar c = true ∧ c ≠ ':' := by
    have listed : (canonicalSubjectKinds.all fun name =>
        name.toList.all fun c => isSubjectChar c && c ≠ ':') = true := by decide
    intro name inside c letter
    simpa using List.all_eq_true.mp (List.all_eq_true.mp listed name inside) c letter
  unfold singularKind
  split
  · exact chars
  · split
    · rename_i only plural
      have inside : only ∈ [only] := List.mem_singleton_self only
      rw [← plural] at inside
      exact canonical only (List.mem_filter.mp inside).1
    · exact chars

theorem digitApart {c : Char} (h : Text.isDigitAscii c = true) :
    Text.isLowerAscii c = false ∧ isKeyMark c = false := by
  simp only [Text.isDigitAscii, Bool.and_eq_true, decide_eq_true_eq, Char.le_def,
    UInt32.le_iff_toNat_le] at h
  have value : c.toNat = c.val.toNat := rfl
  constructor
  · simp only [Text.isLowerAscii, Bool.and_eq_false_iff, decide_eq_false_iff_not, Char.le_def,
      UInt32.le_iff_toNat_le]
    simp at h ⊢
    omega
  · simp only [isKeyMark, Bool.or_eq_false_iff, decide_eq_false_iff_not]
    constructor
    · rintro rfl
      simp at h
    · rintro rfl
      simp at h

theorem courseKeySource {payload course : List Char} (h : courseKey payload = some course) :
    ∃ letters digits, course = letters ++ digits ∧ 2 ≤ letters.length ∧ letters.length ≤ 4 ∧
      digits.length = 4 ∧ (∀ c ∈ letters, Text.isLowerAscii c = true) ∧
      (∀ c ∈ digits, Text.isDigitAscii c = true) ∧ ∀ c ∈ course, c ∈ payload := by
  unfold courseKey at h
  dsimp only at h
  split at h
  · rename_i shape
    simp only [Bool.and_eq_true, decide_eq_true_eq, List.all_eq_true] at shape
    obtain ⟨⟨⟨⟨atLeast, atMost⟩, four⟩, digits⟩, -⟩ := shape
    refine ⟨_, _, (Option.some.inj h).symm, atLeast, atMost, four,
      fun c inside => (List.mem_takeWhile_imp inside), digits, fun c inside => ?_⟩
    rw [← Option.some.inj h] at inside
    rcases List.mem_append.mp inside with inside | inside
    · exact (List.takeWhile_sublist _).subset inside
    · exact (List.dropWhile_sublist _).subset
        ((List.dropWhile_sublist _).subset ((List.take_sublist _ _).subset inside))
  · cases h

theorem courseKeyTwice {payload course : List Char} (h : courseKey payload = some course) :
    courseKey course = some course := by
  obtain ⟨letters, digits, rfl, atLeast, atMost, four, lower, digit, -⟩ := courseKeySource h
  obtain ⟨d, more, rfl⟩ := List.exists_cons_of_length_pos (by omega : 0 < digits.length)
  have first := digitApart (digit d List.mem_cons_self)
  have taken : (letters ++ d :: more).takeWhile Text.isLowerAscii = letters := by
    rw [List.takeWhile_append_of_pos lower, List.takeWhile_cons_of_neg (by simp [first.1]),
      List.append_nil]
  have left : (letters ++ d :: more).dropWhile Text.isLowerAscii = d :: more := by
    rw [List.dropWhile_append_of_pos lower, List.dropWhile_cons_of_neg (by simp [first.1])]
  have unmarked : (d :: more).dropWhile isKeyMark = d :: more :=
    List.dropWhile_cons_of_neg (by simp [first.2])
  have whole : (d :: more).take 4 = d :: more := List.take_of_length_le four.le
  have nothing : (d :: more).drop 4 = [] := List.drop_of_length_le four.le
  unfold courseKey
  simp only [taken, left, unmarked, whole, nothing]
  rw [if_pos]
  simp only [Bool.and_eq_true, decide_eq_true_eq, List.all_eq_true]
  exact ⟨⟨⟨⟨atLeast, atMost⟩, four⟩, digit⟩, rfl⟩

theorem coursePayloadTwice (kind payload : List Char) :
    coursePayload kind (coursePayload kind payload) = coursePayload kind payload := by
  unfold coursePayload
  split
  · cases course : courseKey payload with
    | none => rw [Option.getD_none, course, Option.getD_none]
    | some key => rw [Option.getD_some, courseKeyTwice course, Option.getD_some]
  · rfl

theorem coursePayloadInside {kind payload : List Char} :
    ∀ c ∈ coursePayload kind payload, c ∈ payload := by
  unfold coursePayload
  split
  · cases course : courseKey payload with
    | none => exact fun c inside => inside
    | some key =>
      obtain ⟨-, -, -, -, -, -, -, -, parts⟩ := courseKeySource course
      exact parts
  · exact fun c inside => inside

-- a course has no mark at either end
theorem coursePayloadStripped {kind payload : List Char} (stripped : Text.stripWith isKeyMark payload = payload) :
    Text.stripWith isKeyMark (coursePayload kind payload) = coursePayload kind payload := by
  unfold coursePayload
  split
  · cases course : courseKey payload with
    | none => exact stripped
    | some key =>
      obtain ⟨letters, digits, rfl, -, -, -, lower, digit, -⟩ := courseKeySource course
      refine Text.stripWithKept fun c inside => ?_
      rcases List.mem_append.mp inside with letter | letter
      · have word := lower c letter
        simp only [isKeyMark, Bool.or_eq_false_iff, decide_eq_false_iff_not]
        exact ⟨fun mark => by rw [mark] at word; revert word; decide,
          fun mark => by rw [mark] at word; revert word; decide⟩
      · exact (digitApart (digit c letter)).2
  · exact stripped

theorem stripWithInside {drop : Char → Bool} {text : List Char} :
    ∀ c ∈ Text.stripWith drop text, c ∈ text := by
  intro c inside
  rw [Text.stripWith, List.mem_reverse] at inside
  have kept := (List.dropWhile_sublist _).subset inside
  rw [List.mem_reverse] at kept
  exact (List.dropWhile_sublist _).subset kept

theorem tightenedKey {key : String} (shape : isSubjectKey key.toList = true) :
    normalizeSubjectKey (String.ofList (tightenColons (some []) key.toList)) = .ok key := by
  rw [tightenKept (subjectKeySpaceless shape) rfl, String.ofList_toList]
  exact subjectKeyStays shape

theorem resolveSubjectTwice {value key : String} (h : resolveExtractedSubjectKey value = .ok key) :
    normalizeSubjectKey key = .ok key ∧ resolveExtractedSubjectKey key = .ok key := by
  simp only [resolveExtractedSubjectKey, bindOk] at h
  obtain ⟨normalized, first, h⟩ := h
  have shape := subjectKeySource first
  have chars := subjectKeyChars shape
  split at h
  · rename_i plain
    cases h
    refine ⟨subjectKeyStays shape, ?_⟩
    simp only [resolveExtractedSubjectKey, tightenedKey shape, okBind, if_pos plain]
  · rename_i colon
    have kindChars : ∀ c ∈ singularKind (normalized.toList.takeWhile (· ≠ ':')),
        isSubjectChar c = true ∧ c ≠ ':' := singularKindChars fun c inside =>
      ⟨chars c ((List.takeWhile_sublist _).subset inside), by simpa using List.mem_takeWhile_imp inside⟩
    have payloadChars : ∀ c ∈ Text.stripWith isKeyMark (normalized.toList.dropWhile (· ≠ ':')).tail,
        isSubjectChar c = true := fun c inside =>
      chars c ((List.dropWhile_sublist _).subset (List.mem_of_mem_tail (stripWithInside c inside)))
    have kindTwice := singularKindTwice (normalized.toList.takeWhile (· ≠ ':'))
    have stripTwice := Text.stripWithTwice isKeyMark (normalized.toList.dropWhile (· ≠ ':')).tail
    generalize singularKind (normalized.toList.takeWhile (· ≠ ':')) = kind at h kindChars kindTwice
    generalize Text.stripWith isKeyMark (normalized.toList.dropWhile (· ≠ ':')).tail = payload
      at h payloadChars stripTwice
    have all : ∀ c ∈ kind ++ ':' :: coursePayload kind payload, isSubjectChar c = true := by
      intro c inside
      rcases List.mem_append.mp inside with inside | inside
      · exact (kindChars c inside).1
      · rcases List.mem_cons.mp inside with rfl | inside
        · decide
        · exact payloadChars c (coursePayloadInside c inside)
    obtain ⟨rfl, whole⟩ := normalizeSubjectChars all h
    have shape' : isSubjectKey (String.ofList (kind ++ ':' :: coursePayload kind payload)).toList = true := by
      rw [String.toList_ofList]
      exact whole
    refine ⟨subjectKeyStays shape', ?_⟩
    have apart : ∀ c ∈ kind, decide (c ≠ ':') = true := fun c inside => decide_eq_true (kindChars c inside).2
    have ahead : (kind ++ ':' :: coursePayload kind payload).takeWhile (· ≠ ':') = kind := by
      rw [List.takeWhile_append_of_pos apart, List.takeWhile_cons_of_neg (by simp), List.append_nil]
    have behind : ((kind ++ ':' :: coursePayload kind payload).dropWhile (· ≠ ':')).tail =
        coursePayload kind payload := by
      rw [List.dropWhile_append_of_pos apart, List.dropWhile_cons_of_neg (by simp), List.tail_cons]
    have marked : (!(kind ++ ':' :: coursePayload kind payload).contains ':') = false := by simp
    rw [resolveExtractedSubjectKey, tightenedKey shape', okBind]
    simp only [String.toList_ofList, marked, Bool.false_eq_true, if_false, ahead, behind, kindTwice,
      coursePayloadStripped stripTwice, coursePayloadTwice]
    exact subjectKeyStays shape'

/-! ## Predicates among the known ones -/

-- a known predicate, or one that is not the plural of exactly one known predicate
def PredicateSettled (known : List String) (predicate : String) : Prop :=
  predicate ∈ known ∨ (known.dedup.filter fun candidate => pluralKey candidate = predicate).length ≠ 1

instance (known : List String) (predicate : String) : Decidable (PredicateSettled known predicate) := by
  unfold PredicateSettled
  infer_instance

theorem knownKept {known : List String} (kept : ∀ p ∈ known, normalizePredicateKey p = .ok p) :
    known.mapM normalizePredicateKey = .ok known := by
  induction known with
  | nil => rfl
  | cons p rest ih =>
    exact mapMCons.mpr ⟨p, rest, kept p List.mem_cons_self,
      ih fun q inside => kept q (List.mem_cons_of_mem _ inside), rfl⟩

theorem canonicalKept : ∀ p ∈ canonicalPredicates, normalizePredicateKey p = .ok p := by
  decide

theorem resolvedPredicateNormal {value key : String} {knownPredicates : List String}
    (kept : ∀ p ∈ knownPredicates, normalizePredicateKey p = .ok p)
    (h : resolveExtractedPredicateKey value knownPredicates = .ok key) :
    normalizePredicateKey key = .ok key := by
  have all : ∀ p ∈ canonicalPredicates ++ knownPredicates, normalizePredicateKey p = .ok p := by
    intro p inside
    rcases List.mem_append.mp inside with inside | inside
    · exact canonicalKept p inside
    · exact kept p inside
  simp only [resolveExtractedPredicateKey, knownKept all, okBind, bindOk] at h
  obtain ⟨normalized, first, h⟩ := h
  have plain := normalizePredicateTwice first
  split at h
  · cases h
    exact plain
  · split at h
    · rename_i only one
      cases h
      have inside : key ∈ [key] := List.mem_singleton_self key
      rw [← one] at inside
      exact all key (List.mem_dedup.mp (List.mem_filter.mp inside).1)
    · cases h
      exact plain

theorem resolvePredicateAgain {key : String} {knownPredicates : List String}
    (canonical : normalizePredicateKey key = .ok key)
    (kept : ∀ p ∈ knownPredicates, normalizePredicateKey p = .ok p) :
    ∃ found, resolveExtractedPredicateKey key knownPredicates = .ok found ∧
      (found = key ↔ PredicateSettled (canonicalPredicates ++ knownPredicates) key) := by
  have all : ∀ p ∈ canonicalPredicates ++ knownPredicates, normalizePredicateKey p = .ok p := by
    intro p inside
    rcases List.mem_append.mp inside with inside | inside
    · exact canonicalKept p inside
    · exact kept p inside
  simp only [resolveExtractedPredicateKey, canonical, knownKept all, okBind, PredicateSettled]
  generalize canonicalPredicates ++ knownPredicates = known
  split
  · rename_i inside
    exact ⟨key, rfl, fun _ => .inl (by simpa using inside), fun _ => rfl⟩
  · rename_i apart
    have unknown : key ∉ known := by simpa using apart
    split
    · rename_i only one
      have inside : only ∈ [only] := List.mem_singleton_self only
      rw [← one] at inside
      have other : only ≠ key := fun same =>
        unknown (same ▸ List.mem_dedup.mp (List.mem_filter.mp inside).1)
      exact ⟨only, rfl, by simp [other, unknown, one]⟩
    · rename_i many
      refine ⟨key, rfl, ⟨fun _ => .inr fun one => ?_, fun _ => rfl⟩⟩
      obtain ⟨only, shape⟩ := List.length_eq_one_iff.mp one
      exact many only shape

theorem storedPredicatesKept (l : Ledger) (scope : String) :
    ∀ p ∈ storedPredicates l scope, normalizePredicateKey p = .ok p := by
  intro p inside
  obtain ⟨f, -, found⟩ := List.mem_filterMap.mp inside
  obtain ⟨predicate, -, normal⟩ := Option.bind_eq_some_iff.mp found
  exact normalizePredicateTwice (okOfOption normal)

theorem registrySource {l : Ledger} {scope : String} {known : List String}
    (h : canonicalSlotRegistry l scope = .ok known) :
    Text.strip scope ≠ "" ∧ ∀ p ∈ known, normalizePredicateKey p = .ok p := by
  simp only [canonicalSlotRegistry, bindOk, ensureOk, decide_eq_true_eq] at h
  obtain ⟨-, stated, h⟩ := h
  refine ⟨stated, fun p inside => ?_⟩
  rw [← Except.ok.inj h] at inside
  rcases List.mem_append.mp inside with inside | inside
  · exact canonicalKept p inside
  · exact storedPredicatesKept l _ p (List.mem_filter.mp (List.mem_dedup.mp inside)).1

theorem registryTotal (l : Ledger) {scope : String} (stated : Text.strip scope ≠ "") :
    ∃ known, canonicalSlotRegistry l scope = .ok known := by
  simp only [canonicalSlotRegistry, stated, ne_eq, not_false_eq_true, decide_true, ensure, if_true, okBind]
  exact ⟨_, rfl⟩

/-! ## Subjects of a store -/

theorem userSubjectSource {floats : FloatText} {db : EntityStore} {scope subject : String}
    (h : db.userSubject floats scope = .ok (some subject)) :
    ∃ value, resolveExtractedSubjectKey value = .ok subject := by
  simp only [EntityStore.userSubject, bindOk] at h
  obtain ⟨candidates, read, h⟩ := h
  split at h
  · rename_i only one
    have inside : only ∈ [only] := List.mem_singleton_self only
    rw [← one] at inside
    obtain ⟨found, there, same⟩ := List.mem_filterMap.mp (List.mem_dedup.mp inside)
    cases Option.some.inj (Except.ok.inj h)
    obtain ⟨row, -, made⟩ := mapMSource read found there
    rw [id_eq] at same
    rw [same] at made
    unfold userCandidate at made
    split at made
    · cases made
    · simp only [bindOk] at made
      obtain ⟨aliases, -, made⟩ := made
      split at made
      · cases made
      · split at made
        · rename_i candidate named resolved _
          split at made
          · cases made
            exact ⟨row.1, resolved⟩
          · cases made
        · cases made
  · cases h

-- a subject resolved from a store, or found in it
theorem storedSubjectSource {floats : FloatText} {db : EntityStore} {value scope subject : String}
    (h : resolveStoredSubjectKey floats db value scope = .ok (some subject)) :
    ∃ value, resolveExtractedSubjectKey value = .ok subject := by
  simp only [resolveStoredSubjectKey, bindOk] at h
  obtain ⟨resolved, found, h⟩ := h
  split at h
  · cases h
    exact ⟨value, found⟩
  · exact userSubjectSource h

-- one of the generic names of the user is looked up again, every other subject stays
theorem resolveStoredAgain {floats : FloatText} (db : EntityStore) {subject : String} (scope : String)
    (kept : resolveExtractedSubjectKey subject = .ok subject) :
    resolveStoredSubjectKey floats db subject scope =
      if genericUserSubjects.contains subject then db.userSubject floats scope else .ok (some subject) := by
  rw [resolveStoredSubjectKey, kept, okBind]
  cases genericUserSubjects.contains subject with
  | false => rfl
  | true => rfl

end Enfold
