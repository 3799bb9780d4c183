import Enfold.JsonGrammar

/-! A model's answer inside its prose: the first balanced block of the text, and the facts read from it. -/
namespace Enfold

open BracketScan

/-- `_extract_json_array`. -/
def extractJsonArray (text : List Char) : Option (List Char) := block arrayMarks text

/-- `_extract_json_object`. -/
def extractJsonObject (text : List Char) : Option (List Char) := block objectMarks text

structure ResponseRuntime where
  recursionLimit : Nat
  /-- `str` of a value that is no text. -/
  str : PyJson → PyText
  /-- The position a `JSONDecodeError` names. -/
  errorPos : List Char → Nat

structure ResponseFact where
  content : PyText
  category : PyText
  tags : PyText
  deriving DecidableEq, Repr

inductive ResponseFault where
  | extractionParse (message : String)
  | loads (fault : LoadFault)
  deriving DecidableEq, Repr

def pyText (text : String) : PyText := text.toList.map .char

def CodePoint.isSpace : CodePoint → Bool
  | .char c => Text.isSpace c
  | .surrogate _ => false

def pyStrip (text : PyText) : PyText := (text.dropWhile CodePoint.isSpace).rdropWhile CodePoint.isSpace

section Response
variable (rt : ResponseRuntime)

/-- `str(item.get(name, default)).strip()`; of several members of one name the last one is kept. -/
def responseField (members : List (PyText × PyJson)) (name default : String) : PyText :=
  pyStrip <| match (members.reverse.find? fun member => member.1 = pyText name).map Prod.snd with
    | none => pyText default
    | some (.str text) => text
    | some value => rt.str value

def responseFact : PyJson → Option ResponseFact
  | .obj members =>
    let content := responseField rt members "content" ""
    let category := responseField rt members "category" "general"
    let tags := responseField rt members "tags" ""
    if content = [] || content.length < 10 then none
    else some {
      content := content.take 400
      category := if (["user_pref", "project", "tool", "general"].map pyText).contains category then category
        else pyText "general"
      tags }
  | _ => none

def responseValue (raw : List Char) : Except ResponseFault PyJson :=
  match pyLoads rt.recursionLimit raw with
  | .ok value => .ok value
  | .error .decodeError =>
    match extractJsonArray raw with
    | none => .error (.extractionParse ("extraction response contains no JSON array (length=" ++
        toString raw.length ++ ", parse_error_pos=" ++ toString (rt.errorPos raw) ++ ")"))
    | some block =>
      match pyLoads rt.recursionLimit block with
      | .ok value => .ok value
      | .error .decodeError => .error (.extractionParse ("extraction response contains invalid JSON (length=" ++
          toString raw.length ++ ", parse_error_pos=" ++ toString (rt.errorPos block) ++ ")"))
      | .error fault => .error (.loads fault)
  | .error fault => .error (.loads fault)

/-- `_parse_response`. -/
def parseResponse (raw : List Char) : Except ResponseFault (List ResponseFact) := do
  match ← responseValue rt (Text.stripWith Text.isSpace raw) with
  | .arr items => .ok (items.filterMap (responseFact rt))
  | _ => .error (.extractionParse "extraction response must be a JSON array")

end Response

/-! ## Blocks -/

structure BracketText (m : Marks Char) (text : List Char) : Prop where
  json : IsJson .value text
  opens : text.head? = some m.opening

section Blocks
variable {m : Marks Char} {text before behind : List Char}

theorem valueCases (json : IsJson .value text) :
    (∃ inner, text = '[' :: (inner ++ [']']) ∧ ∀ m, JsonMarks m → Balanced m inner) ∨
    (∃ inner, text = '\x7b' :: (inner ++ ['\x7d']) ∧ ∀ m, JsonMarks m → Balanced m inner) ∨
    (text.head? ≠ some '[' ∧ text.head? ≠ some '\x7b') := by
  cases json with
  | literal known =>
    simp only [List.mem_cons, List.not_mem_nil, or_false] at known
    rcases known with rfl | rfl | rfl
    all_goals exact .inr (.inr (by decide))
  | number valid =>
    obtain ⟨c, more, shape, start⟩ := numberLeads valid
    obtain ⟨-, object, array, -⟩ := numeralStart start
    rw [shape]
    exact .inr (.inr ⟨fun same => array (Option.some.inj same), fun same => object (Option.some.inj same)⟩)
  | string => exact .inr (.inr (by simp [quoted]))
  | emptyArray blank => exact .inl ⟨_, rfl, fun _ marks => blankBalanced marks blank⟩
  | array inner => exact .inl ⟨_, rfl, fun _ marks => jsonBalanced marks inner⟩
  | emptyObject blank => exact .inr (.inl ⟨_, rfl, fun _ marks => blankBalanced marks blank⟩)
  | object inner => exact .inr (.inl ⟨_, rfl, fun _ marks => jsonBalanced marks inner⟩)

theorem bracketInner (marks : JsonMarks m) (bracket : BracketText m text) :
    ∃ inner, text = m.opening :: (inner ++ [m.closing]) ∧ Balanced m inner := by
  have opens := bracket.opens
  rcases valueCases bracket.json with ⟨inner, rfl, balanced⟩ | ⟨inner, rfl, balanced⟩ | ⟨array, object⟩
  · rcases marks with rfl | rfl
    · exact ⟨inner, rfl, balanced _ (.inl rfl)⟩
    · cases opens
  · rcases marks with rfl | rfl
    · cases opens
    · exact ⟨inner, rfl, balanced _ (.inr rfl)⟩
  · rcases marks with rfl | rfl
    · exact absurd opens array
    · exact absurd opens object

theorem bracketFound (marks : JsonMarks m) (bracket : BracketText m text) (none : m.opening ∉ before) :
    block m (before ++ text ++ behind) = some text := by
  obtain ⟨inner, rfl, balanced⟩ := bracketInner marks bracket
  rw [List.append_assoc]
  exact blockFound none balanced

end Blocks

/-! ## Responses -/

section Responses
variable {rt : ResponseRuntime} {text before behind : List Char}

theorem rdropBehind {drop : Char → Bool} {last : Char} (kept : drop last = false) :
    (before ++ last :: behind).rdropWhile drop = before ++ last :: behind.rdropWhile drop := by
  induction behind using List.reverseRecOn with
  | nil => rw [List.rdropWhile_concat, kept, List.rdropWhile_nil, if_neg Bool.noConfusion]
  | append_singleton behind c ih =>
    rw [← List.cons_append, ← List.append_assoc, List.rdropWhile_concat, List.rdropWhile_concat]
    split
    · exact ih
    · simp

theorem dropBefore {drop : Char → Bool} {first : Char} (kept : drop first = false) :
    (before ++ first :: behind).dropWhile drop = before.dropWhile drop ++ first :: behind := by
  induction before with
  | nil => simp [kept]
  | cons c before ih =>
    rw [List.cons_append, List.dropWhile_cons, List.dropWhile_cons]
    split
    · exact ih
    · rfl

theorem stripAround (bracket : BracketText arrayMarks text) :
    Text.stripWith Text.isSpace (before ++ text ++ behind) =
      before.dropWhile Text.isSpace ++ text ++ behind.rdropWhile Text.isSpace := by
  obtain ⟨inner, rfl, -⟩ := bracketInner (.inl rfl) bracket
  have shape : before ++ '[' :: (inner ++ [']']) ++ behind = before ++ '[' :: (inner ++ ']' :: behind) := by simp
  have folded (front : List Char) :
      front ++ '[' :: (inner ++ ']' :: behind) = front ++ '[' :: inner ++ ']' :: behind := by simp
  change ((before ++ '[' :: (inner ++ [']']) ++ behind).dropWhile Text.isSpace).rdropWhile Text.isSpace = _
  rw [shape, dropBefore (by decide), folded, rdropBehind (by decide)]
  simp [arrayMarks]

theorem stripBracket (bracket : BracketText arrayMarks text) : Text.stripWith Text.isSpace text = text := by
  have alone : Text.stripWith Text.isSpace ([] ++ text ++ []) = [] ++ text ++ [] := stripAround bracket
  rwa [List.append_nil] at alone

theorem bracketValue (bracket : BracketText arrayMarks text) (limit : Nat) :
    (∃ value, pyLoads limit text = .ok value) ∨
      ∃ fault, pyLoads limit text = .error fault ∧ fault ≠ .decodeError := by
  cases loaded : pyLoads limit text with
  | ok value => exact .inl ⟨value, rfl⟩
  | error fault => exact .inr ⟨fault, rfl, fun same => pyLoadsJson bracket.json limit (same ▸ loaded)⟩

theorem valueEmbedded (bracket : BracketText arrayMarks text) {raw : List Char}
    (found : extractJsonArray raw = some text)
    (prose : pyLoads rt.recursionLimit raw = .error .decodeError) : responseValue rt raw = responseValue rt text := by
  rw [responseValue, prose, responseValue]
  dsimp only
  rw [found]
  dsimp only
  rcases bracketValue bracket rt.recursionLimit with ⟨value, loaded⟩ | ⟨fault, loaded, other⟩
  · rw [loaded]
  · rw [loaded]
    cases fault with
    | decodeError => exact absurd rfl other
    | tooManyDigits digits => rfl
    | recursion => rfl

theorem valueLimited {raw : List Char} {fault : LoadFault} (other : fault ≠ .decodeError)
    (loaded : pyLoads rt.recursionLimit raw = .error fault) : responseValue rt raw = .error (.loads fault) := by
  rw [responseValue, loaded]
  cases fault with
  | decodeError => exact absurd rfl other
  | tooManyDigits digits => rfl
  | recursion => rfl

theorem parseLimited {raw : List Char} {fault : LoadFault} :
    parseResponse rt raw = .error (.loads fault) ↔
      responseValue rt (Text.stripWith Text.isSpace raw) = .error (.loads fault) := by
  unfold parseResponse
  cases responseValue rt (Text.stripWith Text.isSpace raw) with
  | error raised => simp [bind, Except.bind]
  | ok value => cases value <;> simp [bind, Except.bind]

theorem responseEmbedded (bracket : BracketText arrayMarks text) (none : '[' ∉ before)
    (prose : ∀ value, pyLoads rt.recursionLimit (Text.stripWith Text.isSpace (before ++ text ++ behind)) ≠ .ok value) :
    parseResponse rt (before ++ text ++ behind) = parseResponse rt text ↔
      ∀ fault, pyLoads rt.recursionLimit (Text.stripWith Text.isSpace (before ++ text ++ behind)) = .error fault →
        fault ≠ .decodeError → pyLoads rt.recursionLimit text = .error fault := by
  have stripped := stripBracket bracket
  cases whole : pyLoads rt.recursionLimit (Text.stripWith Text.isSpace (before ++ text ++ behind)) with
  | ok value => exact absurd whole (prose value)
  | error fault =>
    by_cases malformed : fault = .decodeError
    · subst malformed
      have found : extractJsonArray (Text.stripWith Text.isSpace (before ++ text ++ behind)) = some text := by
        rw [stripAround bracket]
        exact bracketFound (.inl rfl) bracket fun inside => none ((List.dropWhile_sublist _).subset inside)
      have same := valueEmbedded bracket found whole
      refine iff_of_true ?_ fun other raised limit => absurd (Except.error.inj raised).symm limit
      rw [parseResponse, same, parseResponse, stripped]
    · have limited := parseLimited.mpr (valueLimited malformed whole)
      constructor
      · intro equal other raised _
        cases raised
        have alone := parseLimited.mp (equal.symm.trans limited)
        rw [stripped] at alone
        rcases bracketValue bracket rt.recursionLimit with ⟨value, loaded⟩ | ⟨fault', loaded, limit⟩
        · rw [responseValue, loaded] at alone
          cases alone
        · rw [valueLimited limit loaded] at alone
          cases alone
          exact loaded
      · intro condition
        have alone := valueLimited malformed (condition fault rfl malformed)
        rw [limited, eq_comm, parseLimited, stripped]
        exact alone

end Responses

/-- The first array or object of a text is found as it stands, whatever prose is around it and whatever
its strings hold; and a response that is no document itself is read as the array in it just when the
reading of the whole is not stopped by a limit that the array keeps. -/
theorem embeddedExact (rt : ResponseRuntime) (before text behind : List Char) :
    (BracketText arrayMarks text → '[' ∉ before → extractJsonArray (before ++ text ++ behind) = some text) ∧
    (BracketText objectMarks text → '\x7b' ∉ before → extractJsonObject (before ++ text ++ behind) = some text) ∧
    (BracketText arrayMarks text → '[' ∉ before →
      (∀ value, pyLoads rt.recursionLimit (Text.stripWith Text.isSpace (before ++ text ++ behind)) ≠ .ok value) →
      (parseResponse rt (before ++ text ++ behind) = parseResponse rt text ↔
        ∀ fault, pyLoads rt.recursionLimit (Text.stripWith Text.isSpace (before ++ text ++ behind)) = .error fault →
          fault ≠ .decodeError → pyLoads rt.recursionLimit text = .error fault)) :=
  ⟨bracketFound (.inl rfl), bracketFound (.inr rfl), responseEmbedded⟩

namespace Example

def responses : ResponseRuntime := ⟨1000, fun _ => [], fun _ => 0⟩

theorem emptyArrayText : BracketText arrayMarks ['[', ']'] := ⟨.emptyArray (a := []) (by simp [Blank]), rfl⟩

def ones (n : Nat) : NumberText := ⟨[], List.replicate (n + 1) '1', [], []⟩

theorem onesValid (n : Nat) : (ones n).Valid where
  sign := .inl rfl
  whole := by
    refine .inr ⟨⟨List.cons_ne_nil _ _, fun c inside => ?_⟩, ?_⟩
    · rw [List.eq_of_mem_replicate inside]
      rfl
    · rw [ones, List.replicate_succ]
      exact fun same => absurd (Option.some.inj same) (by decide)
  fraction := .inl rfl
  exponent := .inl rfl

theorem onesStop {n : Nat} (long : maxStrDigits ≤ n) (limit : Nat) :
    pyLoads limit ((ones n).text ++ [' ', '[', ']']) = .error (.tooManyDigits (n + 1)) := by
  have ends : Ends [' ', '[', ']'] := by
    intro c hc
    cases hc
    decide
  have digits : (ones n).whole.length = n + 1 := List.length_replicate
  rw [pyLoads, skipValue (.number (onesValid n)), numberOnce (onesValid n), loadNumber,
    numberScanned (onesValid n) ends]
  dsimp only
  rw [if_pos (by simpa [ones] using Nat.lt_succ_of_le long), digits]
  rfl

theorem onesKept (n : Nat) : Text.stripWith Text.isSpace ((ones n).text ++ [' '] ++ ['[', ']'] ++ []) =
    (ones n).text ++ [' ', '[', ']'] := by
  have kept : ((ones n).text ++ [' ']).dropWhile Text.isSpace = (ones n).text ++ [' '] := by
    rw [NumberText.text, ones, List.replicate_succ]
    rfl
  rw [stripAround emptyArrayText, kept]
  simp

-- 4301 digits in the prose raise what is no `JSONDecodeError`
theorem proseStopsArray : ¬∀ (rt : ResponseRuntime) (before text behind : List Char),
    BracketText arrayMarks text → '[' ∉ before →
    (∀ value, pyLoads rt.recursionLimit (Text.stripWith Text.isSpace (before ++ text ++ behind)) ≠ .ok value) →
    parseResponse rt (before ++ text ++ behind) = parseResponse rt text := by
  intro same
  have stops := onesStop (Nat.le_refl maxStrDigits) responses.recursionLimit
  have raised : parseResponse responses ((ones maxStrDigits).text ++ [' '] ++ ['[', ']'] ++ []) =
      .error (.loads (.tooManyDigits (maxStrDigits + 1))) := by
    rw [parseLimited, onesKept]
    exact valueLimited LoadFault.noConfusion stops
  have empty : parseResponse responses ['[', ']'] = .ok [] := rfl
  have unopened : '[' ∉ (ones maxStrDigits).text ++ [' '] := by
    rw [List.mem_append, not_or]
    exact ⟨numberApart (onesValid _) rfl, by decide⟩
  have equal := same responses _ _ [] emptyArrayText unopened fun value loaded => by
    rw [onesKept, stops] at loaded
    cases loaded
  rw [raised, empty] at equal
  cases equal

/-- An array between a greeting and a line break. -/
theorem greetedArray : parseResponse responses ("Sure: ".toList ++ ['[', ']'] ++ ['\n']) =
    parseResponse responses ['[', ']'] := by
  have stripped : pyLoads responses.recursionLimit (Text.stripWith Text.isSpace ("Sure: ".toList ++ ['[', ']'] ++ ['\n'])) =
      .error .decodeError := rfl
  refine ((embeddedExact responses _ _ _).2.2 emptyArrayText (by decide) fun value loaded => ?_).mpr
    fun fault raised limit => ?_
  · rw [stripped] at loaded
    cases loaded
  · rw [stripped] at raised
    cases raised
    exact absurd rfl limit

end Example
end Enfold
