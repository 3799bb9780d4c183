import Enfold.Foundation.BracketScan
import Enfold.JsonText

/-! The grammar of JSON texts, and `json.loads` without hooks: what it gives for a text of the grammar
is a value, or what only its limits refuse. Brackets of either kind match in such a text. -/
namespace Enfold

open BracketScan

/-! ## The grammar -/

inductive StringBody : List Char → Prop where
  | nil : StringBody []
  | plain {c rest} (quote : c ≠ '\x22') (backslash : c ≠ '\x5c') (ink : 0x20 ≤ c.toNat) (more : StringBody rest) :
      StringBody (c :: rest)
  | short {e rest} (known : e ∈ ['\x22', '\x5c', '/', 'b', 'f', 'n', 'r', 't']) (more : StringBody rest) :
      StringBody ('\x5c' :: e :: rest)
  | unicode {a b c d rest} (hex : ∀ x ∈ [a, b, c, d], (hexValue x).isSome = true) (more : StringBody rest) :
      StringBody ('\x5c' :: 'u' :: a :: b :: c :: d :: rest)

def Blank (text : List Char) : Prop := ∀ c ∈ text, (c = ' ' || c = '\t' || c = '\n' || c = '\r') = true

def quoted (body : List Char) : List Char := '\x22' :: (body ++ ['\x22'])

/-- A value, or what stands between the brackets of an array or an object that is not empty. -/
inductive JsonPart where
  | value | items | members
  deriving DecidableEq, Repr

inductive IsJson : JsonPart → List Char → Prop where
  | literal {name} (known : name ∈ ["null", "true", "false"]) : IsJson .value name.toList
  | number {t : NumberText} (valid : t.Valid) : IsJson .value t.text
  | string {body} (shaped : StringBody body) : IsJson .value (quoted body)
  | emptyArray {a} (blank : Blank a) : IsJson .value ('[' :: (a ++ [']']))
  | array {items} (inner : IsJson .items items) : IsJson .value ('[' :: (items ++ [']']))
  | emptyObject {a} (blank : Blank a) : IsJson .value ('\x7b' :: (a ++ ['\x7d']))
  | object {members} (inner : IsJson .members members) : IsJson .value ('\x7b' :: (members ++ ['\x7d']))
  | lastItem {a v b} (before : Blank a) (value : IsJson .value v) (behind : Blank b) : IsJson .items (a ++ v ++ b)
  | item {a v b rest} (before : Blank a) (value : IsJson .value v) (behind : Blank b) (more : IsJson .items rest) :
      IsJson .items (a ++ v ++ b ++ ',' :: rest)
  | lastMember {a key b c v d} (before : Blank a) (named : StringBody key) (colon : Blank b) (after : Blank c)
      (value : IsJson .value v) (behind : Blank d) :
      IsJson .members (a ++ quoted key ++ b ++ ':' :: (c ++ v ++ d))
  | member {a key b c v d rest} (before : Blank a) (named : StringBody key) (colon : Blank b) (after : Blank c)
      (value : IsJson .value v) (behind : Blank d) (more : IsJson .members rest) :
      IsJson .members (a ++ quoted key ++ b ++ ':' :: (c ++ v ++ d ++ ',' :: rest))

/-! ## Its brackets -/

def arrayMarks : Marks Char where
  opening := '['
  closing := ']'
  quote := '\x22'
  escape := '\x5c'
  apart := by decide
  unquoted := by decide
  unescaped := by decide

def objectMarks : Marks Char where
  opening := '\x7b'
  closing := '\x7d'
  quote := '\x22'
  escape := '\x5c'
  apart := by decide
  unquoted := by decide
  unescaped := by decide

/-- The marks that tell one kind of bracket from what stands in a text. -/
def JsonMarks (m : Marks Char) : Prop := m = arrayMarks ∨ m = objectMarks

section Brackets
variable {m : Marks Char} {xs : List Char} {c : Char}

theorem plainMark (marks : JsonMarks m) (other : c ∉ ['\x22', '[', ']', '\x7b', '\x7d']) : Plain m c := by
  simp only [List.mem_cons, List.not_mem_nil, or_false, not_or] at other
  obtain ⟨quote, square, unsquare, brace, unbrace⟩ := other
  rcases marks with rfl | rfl
  · exact ⟨quote, square, unsquare⟩
  · exact ⟨quote, brace, unbrace⟩

theorem hexApart (hex : (hexValue c).isSome = true) : c ≠ '\x22' ∧ c ≠ '\x5c' := by
  constructor
  · rintro rfl
    cases hex
  · rintro rfl
    cases hex

theorem quotedBalanced (marks : JsonMarks m) (shaped : StringBody xs) : Balanced m (quoted xs) := by
  have marked : m.quote = '\x22' ∧ m.escape = '\x5c' := by
    rcases marks with rfl | rfl
    · exact ⟨rfl, rfl⟩
    · exact ⟨rfl, rfl⟩
  obtain ⟨quote, escape⟩ := marked
  have pair (c : Char) : Inside m ['\x5c', c] := escape ▸ insideEscaped
  have inside : Inside m xs := by
    induction shaped with
    | nil => exact insideNil
    | plain other backslash _ _ ih => exact (insidePlain (quote ▸ other) (escape ▸ backslash)).append ih
    | short known more ih => exact (pair _).append ih
    | @unicode a b c d rest hex more ih =>
      have digit (x : Char) (listed : x ∈ [a, b, c, d]) : Inside m [x] := by
        obtain ⟨unquoted, unescaped⟩ := hexApart (hex x listed)
        exact insidePlain (quote ▸ unquoted) (escape ▸ unescaped)
      have first : Inside m ['\x5c', 'u', a, b] :=
        ((pair 'u').append (digit a (by simp))).append (digit b (by simp))
      exact ((first.append (digit c (by simp))).append (digit d (by simp))).append ih
  have whole := balancedQuoted inside
  rw [quote] at whole
  exact whole

theorem squareBalanced (marks : JsonMarks m) (inner : Balanced m xs) : Balanced m ('[' :: (xs ++ [']'])) := by
  rcases marks with rfl | rfl
  · exact balancedBlock inner
  · exact (balancedPlain ⟨by decide, by decide, by decide⟩).append
      (inner.append (balancedPlain ⟨by decide, by decide, by decide⟩))

theorem braceBalanced (marks : JsonMarks m) (inner : Balanced m xs) : Balanced m ('\x7b' :: (xs ++ ['\x7d'])) := by
  rcases marks with rfl | rfl
  · exact (balancedPlain ⟨by decide, by decide, by decide⟩).append
      (inner.append (balancedPlain ⟨by decide, by decide, by decide⟩))
  · exact balancedBlock inner

theorem blankBalanced (marks : JsonMarks m) (blank : Blank xs) : Balanced m xs := by
  refine balancedAll fun c inside => plainMark marks fun listed => ?_
  have space := blank c inside
  simp only [List.mem_cons, List.not_mem_nil, or_false] at listed
  rcases listed with rfl | rfl | rfl | rfl | rfl
  all_goals cases space

theorem numberBalanced (marks : JsonMarks m) {t : NumberText} (valid : t.Valid) : Balanced m t.text := by
  refine balancedAll fun c inside => plainMark marks fun listed => ?_
  simp only [List.mem_cons, List.not_mem_nil, or_false] at listed
  rcases listed with rfl | rfl | rfl | rfl | rfl
  all_goals exact numberApart valid rfl inside

theorem jsonBalanced (marks : JsonMarks m) {part : JsonPart} (json : IsJson part xs) : Balanced m xs := by
  have comma : Balanced m [','] := balancedPlain (plainMark marks (by decide))
  have colon' : Balanced m [':'] := balancedPlain (plainMark marks (by decide))
  have value {a v b : List Char} (before : Blank a) (inner : Balanced m v) (behind : Blank b) :
      Balanced m (a ++ v ++ b) :=
    ((blankBalanced marks before).append inner).append (blankBalanced marks behind)
  induction json with
  | literal known =>
    simp only [List.mem_cons, List.not_mem_nil, or_false] at known
    rcases known with rfl | rfl | rfl
    all_goals
      refine balancedAll fun c inside => plainMark marks fun listed => ?_
      simp only [List.mem_cons, List.not_mem_nil, or_false] at listed
      rcases listed with rfl | rfl | rfl | rfl | rfl
      all_goals simp at inside
  | number valid => exact numberBalanced marks valid
  | string shaped => exact quotedBalanced marks shaped
  | emptyArray blank => exact squareBalanced marks (blankBalanced marks blank)
  | array _ ih => exact squareBalanced marks ih
  | emptyObject blank => exact braceBalanced marks (blankBalanced marks blank)
  | object _ ih => exact braceBalanced marks ih
  | lastItem before _ behind ih => exact value before ih behind
  | item before _ behind _ first more => exact (value before first behind).append (comma.append more)
  | lastMember before named colon after _ behind ih =>
    exact (value before (quotedBalanced marks named) colon).append (colon'.append (value after ih behind))
  | member before named colon after _ behind _ first more =>
    exact (value before (quotedBalanced marks named) colon).append
      (colon'.append ((value after first behind).append (comma.append more)))

end Brackets

/-! ## `json.loads` -/

/-- A character of a Python text, which may hold half a surrogate pair. -/
inductive CodePoint where
  | char (c : Char)
  | surrogate (code : Nat)
  deriving DecidableEq, Repr

abbrev PyText := List CodePoint

/-- A decoded value; of a number the literal is kept, and of an object every member. -/
inductive PyJson where
  | null
  | bool (b : Bool)
  | number (t : NumberText)
  | constant (name : String)
  | str (text : PyText)
  | arr (items : List PyJson)
  | obj (members : List (PyText × PyJson))

/-- A `JSONDecodeError`, or what the interpreter's limits raise. -/
inductive LoadFault where
  | decodeError
  | tooManyDigits (digits : Nat)
  | recursion
  deriving DecidableEq, Repr

def codePoint (code : Nat) : CodePoint :=
  if 0xD800 ≤ code && code < 0xE000 then .surrogate code else .char (Char.ofNat code)

def joinSurrogates : PyText → PyText
  | .surrogate high :: .surrogate low :: rest =>
    if high < 0xDC00 && 0xDC00 ≤ low then
      .char (Char.ofNat (0x10000 + (high - 0xD800) * 0x400 + (low - 0xDC00))) :: joinSurrogates rest
    else .surrogate high :: joinSurrogates (.surrogate low :: rest)
  | c :: rest => c :: joinSurrogates rest
  | [] => []

def shortEscapes : List (Char × Char) :=
  [('\x22', '\x22'), ('\x5c', '\x5c'), ('/', '/'), ('b', '\x08'), ('f', '\x0c'), ('n', '\n'), ('r', '\r'), ('t', '\t')]

def scanUnit : List Char → Option (CodePoint × List Char)
  | '\x5c' :: 'u' :: a :: b :: c :: d :: rest => (readHex [a, b, c, d]).map fun code => (codePoint code, rest)
  | '\x5c' :: e :: rest => (shortEscapes.find? fun pair => pair.1 = e).map fun pair => (.char pair.2, rest)
  | c :: rest => if c = '\x5c' || c.toNat < 0x20 then none else some (.char c, rest)
  | [] => none

-- behind the opening quote, for texts shorter than the first argument
def scanUnits : Nat → List Char → Option (PyText × List Char)
  | 0, _ => none
  | n + 1, text =>
    if text.head? = some '\x22' then some ([], text.tail)
    else do
      let (unit, rest) ← scanUnit text
      let (units, rest) ← scanUnits n rest
      some (unit :: units, rest)

def scanText (n : Nat) (text : List Char) : Except LoadFault (PyText × List Char) :=
  match scanUnits n text with
  | some (units, rest) => .ok (joinSurrogates units, rest)
  | none => .error .decodeError

def loadLiteral (text : List Char) : Option (PyJson × List Char) :=
  [("null", PyJson.null), ("true", .bool true), ("false", .bool false), ("NaN", .constant "NaN"),
    ("Infinity", .constant "Infinity"), ("-Infinity", .constant "-Infinity")].findSome? fun (name, value) =>
      (Text.after name.toList text).map (value, ·)

def loadNumber (text : List Char) : Except LoadFault (PyJson × List Char) :=
  match scanNumber text with
  | none => .error .decodeError
  | some (t, rest) =>
    if t.fraction = [] && t.exponent = [] && maxStrDigits < t.whole.length then
      .error (.tooManyDigits t.whole.length)
    else .ok (.number t, rest)

-- each for texts shorter than the first argument; the second one is how deep the recursion may still go
mutual
def loadOnce : Nat → Nat → List Char → Except LoadFault (PyJson × List Char)
  | 0, _, _ => .error .decodeError
  | _ + 1, _, [] => .error .decodeError
  | n + 1, depth, c :: rest =>
    if c = '\x22' then do
      let (text, rest) ← scanText n rest
      .ok (.str text, rest)
    else if c = '\x7b' then
      if depth = 0 then .error .recursion
      else if (skipSpace rest).head? = some '\x7d' then .ok (.obj [], (skipSpace rest).tail)
      else do
        let (members, rest) ← loadMembers n (depth - 1) (skipSpace rest)
        .ok (.obj members, rest)
    else if c = '[' then
      if depth = 0 then .error .recursion
      else if (skipSpace rest).head? = some ']' then .ok (.arr [], (skipSpace rest).tail)
      else do
        let (items, rest) ← loadItems n (depth - 1) (skipSpace rest)
        .ok (.arr items, rest)
    else match loadLiteral (c :: rest) with
      | some found => .ok found
      | none => loadNumber (c :: rest)
def loadItems : Nat → Nat → List Char → Except LoadFault (List PyJson × List Char)
  | 0, _, _ => .error .decodeError
  | n + 1, depth, text => do
    let (item, rest) ← loadOnce n depth text
    match skipSpace rest with
    | ']' :: rest => .ok ([item], rest)
    | ',' :: rest => do
      let (items, rest) ← loadItems n depth (skipSpace rest)
      .ok (item :: items, rest)
    | _ => .error .decodeError
def loadMembers : Nat → Nat → List Char → Except LoadFault (List (PyText × PyJson) × List Char)
  | n + 1, depth, '\x22' :: rest => do
    let (key, rest) ← scanText n rest
    match skipSpace rest with
    | ':' :: rest => do
      let (value, rest) ← loadOnce n depth (skipSpace rest)
      match skipSpace rest with
      | '\x7d' :: rest => .ok ([(key, value)], rest)
      | ',' :: rest => do
        let (members, rest) ← loadMembers n depth (skipSpace rest)
        .ok ((key, value) :: members, rest)
      | _ => .error .decodeError
    | _ => .error .decodeError
  | _, _, _ => .error .decodeError
end

/-- `json.loads` under a recursion limit. -/
def pyLoads (limit : Nat) (text : List Char) : Except LoadFault PyJson := do
  let (value, rest) ← loadOnce (text.length + 1) limit (skipSpace text)
  if skipSpace rest = [] then .ok value else .error .decodeError

/-! ## Texts of the grammar are read -/

def Reads {β : Type} (found : Except LoadFault (β × List Char)) (rest : List Char) : Prop :=
  (∃ v, found = .ok (v, rest)) ∨ ∃ fault, found = .error fault ∧ fault ≠ .decodeError

section Reading
variable {β γ : Type} {xs rest behind : List Char} {c : Char}

theorem readsBind {found : Except LoadFault (β × List Char)} {next : β × List Char → Except LoadFault (γ × List Char)}
    (first : Reads found rest) (later : ∀ v, Reads (next (v, rest)) behind) : Reads (found >>= next) behind := by
  rcases first with ⟨v, rfl⟩ | ⟨fault, rfl, other⟩
  · exact later v
  · exact .inr ⟨fault, rfl, other⟩

theorem skipBlank (blank : Blank xs) : skipSpace (xs ++ rest) = skipSpace rest := List.dropWhile_append_of_pos blank

theorem endsBlank (blank : Blank xs) (ends : Ends rest) : Ends (xs ++ rest) := by
  cases xs with
  | nil => exact ends
  | cons x xs =>
    intro c hc
    cases hc
    have space := blank x List.mem_cons_self
    simp only [Bool.or_eq_true, decide_eq_true_eq] at space
    rcases space with ((rfl | rfl) | rfl) | rfl
    all_goals decide

theorem endsMark (mark : c = ',' ∨ c = ']' ∨ c = '\x7d') : Ends (c :: rest) :=
  stopsEnds fun d hd => by
    cases hd
    exact mark

/-! ### Strings -/

theorem unitPlain (backslash : c ≠ '\x5c') (ink : 0x20 ≤ c.toNat) : scanUnit (c :: rest) = some (.char c, rest) := by
  unfold scanUnit
  split
  · rename_i clash
    cases clash
    exact absurd rfl backslash
  · rename_i clash
    cases clash
    exact absurd rfl backslash
  · rename_i d more _ _ shape
    cases shape
    rw [if_neg (by simp only [Bool.or_eq_true, decide_eq_true_eq, not_or]; exact ⟨backslash, by omega⟩)]
  · rename_i clash
    cases clash

theorem unitShort (known : c ∈ ['\x22', '\x5c', '/', 'b', 'f', 'n', 'r', 't']) (rest : List Char) :
    ∃ unit, scanUnit ('\x5c' :: c :: rest) = some (unit, rest) := by
  simp only [List.mem_cons, List.not_mem_nil, or_false] at known
  rcases known with rfl | rfl | rfl | rfl | rfl | rfl | rfl | rfl
  all_goals exact ⟨_, rfl⟩

theorem unitUnicode {a b c d : Char} (hex : ∀ x ∈ [a, b, c, d], (hexValue x).isSome = true) (rest : List Char) :
    ∃ unit, scanUnit ('\x5c' :: 'u' :: a :: b :: c :: d :: rest) = some (unit, rest) := by
  obtain ⟨w, first⟩ := Option.isSome_iff_exists.mp (hex a (by simp))
  obtain ⟨x, second⟩ := Option.isSome_iff_exists.mp (hex b (by simp))
  obtain ⟨y, third⟩ := Option.isSome_iff_exists.mp (hex c (by simp))
  obtain ⟨z, fourth⟩ := Option.isSome_iff_exists.mp (hex d (by simp))
  refine ⟨codePoint ([w, x, y, z].foldl (fun total value => 16 * total + value) 0), ?_⟩
  simp [scanUnit, readHex, first, second, third, fourth]

theorem bodyScanned (shaped : StringBody xs) (rest : List Char) {n : Nat} (room : xs.length < n) :
    ∃ units, scanUnits n (xs ++ '\x22' :: rest) = some (units, rest) := by
  induction shaped generalizing n with
  | nil =>
    obtain ⟨n, rfl⟩ := Nat.exists_eq_add_of_lt room
    exact ⟨[], by rw [scanUnits]; rfl⟩
  | @plain c more quote backslash ink shaped ih =>
    rw [List.length_cons] at room
    obtain ⟨m, rfl⟩ := Nat.exists_eq_succ_of_ne_zero (Nat.ne_of_gt (Nat.zero_lt_of_lt room))
    obtain ⟨units, scanned⟩ := ih (n := m) (by omega)
    refine ⟨.char c :: units, ?_⟩
    rw [List.cons_append, scanUnits, if_neg (by simpa using quote), unitPlain backslash ink]
    simp [scanned]
  | @short e more known shaped ih =>
    rw [List.length_cons, List.length_cons] at room
    obtain ⟨m, rfl⟩ := Nat.exists_eq_succ_of_ne_zero (Nat.ne_of_gt (Nat.zero_lt_of_lt room))
    obtain ⟨units, scanned⟩ := ih (n := m) (by omega)
    obtain ⟨unit, one⟩ := unitShort known (more ++ '\x22' :: rest)
    refine ⟨unit :: units, ?_⟩
    rw [List.cons_append, List.cons_append, scanUnits, if_neg (by simp), one]
    simp [scanned]
  | @unicode a b c d more hex shaped ih =>
    simp only [List.length_cons] at room
    obtain ⟨m, rfl⟩ := Nat.exists_eq_succ_of_ne_zero (Nat.ne_of_gt (Nat.zero_lt_of_lt room))
    obtain ⟨units, scanned⟩ := ih (n := m) (by omega)
    obtain ⟨unit, one⟩ := unitUnicode hex (more ++ '\x22' :: rest)
    refine ⟨unit :: units, ?_⟩
    simp only [List.cons_append]
    rw [scanUnits, if_neg (by simp), one]
    simp [scanned]

theorem textScanned (shaped : StringBody xs) (rest : List Char) {n : Nat} (room : xs.length < n) :
    Reads (scanText n (xs ++ '\x22' :: rest)) rest := by
  obtain ⟨units, scanned⟩ := bodyScanned shaped rest room
  exact .inl ⟨joinSurrogates units, by rw [scanText, scanned]⟩

/-! ### Values -/

theorem jsonLeads (json : IsJson .value xs) : ∃ c more, xs = c :: more ∧ Leads c := by
  cases json with
  | literal known =>
    simp only [List.mem_cons, List.not_mem_nil, or_false] at known
    rcases known with rfl | rfl | rfl
    all_goals exact ⟨_, _, rfl, by decide, by decide, by decide⟩
  | number valid =>
    obtain ⟨c, more, shape, start⟩ := numberLeads valid
    exact ⟨c, more, shape, (numeralStart start).2.2.2.2.2.2⟩
  | string => exact ⟨_, _, rfl, by decide, by decide, by decide⟩
  | emptyArray => exact ⟨_, _, rfl, by decide, by decide, by decide⟩
  | array => exact ⟨_, _, rfl, by decide, by decide, by decide⟩
  | emptyObject => exact ⟨_, _, rfl, by decide, by decide, by decide⟩
  | object => exact ⟨_, _, rfl, by decide, by decide, by decide⟩

theorem skipValue (json : IsJson .value xs) (rest : List Char) : skipSpace (xs ++ rest) = xs ++ rest := by
  obtain ⟨c, more, rfl, ink, -⟩ := jsonLeads json
  exact skipNothing ink

theorem skipMark (ink : (c = ' ' || c = '\t' || c = '\n' || c = '\r') = false) (blank : Blank xs) :
    skipSpace (xs ++ c :: rest) = c :: rest := by
  rw [skipBlank blank, skipNothing ink]

theorem innerLeads {part : JsonPart} (json : IsJson part xs) (inner : part ≠ .value) (rest : List Char) :
    ∃ c more, skipSpace (xs ++ rest) = c :: more ∧ Leads c := by
  have item {a v b : List Char} (before : Blank a) (value : IsJson .value v) (rest : List Char) :
      ∃ c more, skipSpace (a ++ v ++ b ++ rest) = c :: more ∧ Leads c := by
    obtain ⟨c, more, shape, leads⟩ := jsonLeads value
    refine ⟨c, more ++ (b ++ rest), ?_, leads⟩
    rw [List.append_assoc, List.append_assoc, skipBlank before, skipValue value, shape]
    rfl
  cases json with
  | lastItem before value behind => exact item before value rest
  | item before value behind more =>
    rw [List.append_assoc]
    exact item before value _
  | lastMember before named colon after value behind =>
    rw [List.append_assoc]
    exact item before (.string named) _
  | member before named colon after value behind more =>
    rw [List.append_assoc]
    exact item before (.string named) _
  | _ => exact absurd rfl inner

theorem literalLoaded {name : String} (known : name ∈ ["null", "true", "false"]) (n depth : Nat) (rest : List Char) :
    Reads (loadOnce (n + 1) depth (name.toList ++ rest)) rest := by
  simp only [List.mem_cons, List.not_mem_nil, or_false] at known
  rcases known with rfl | rfl | rfl
  all_goals exact .inl ⟨_, rfl⟩

theorem numberDigit {t : NumberText} (valid : t.Valid) :
    ∃ d more, d.isDigit = true ∧ (t.text = d :: more ∨ t.text = '-' :: d :: more) := by
  obtain ⟨sign, whole, fraction, exponent⟩ := t
  obtain ⟨hs, hw, -, -⟩ := valid
  have digit : ∃ d more, d.isDigit = true ∧ whole = d :: more := by
    rcases hw with rfl | ⟨digits, -⟩
    · exact ⟨'0', [], by decide, rfl⟩
    · obtain ⟨d, more, shape⟩ := List.exists_cons_of_ne_nil digits.some
      exact ⟨d, more, digits.all d (shape ▸ List.mem_cons_self), shape⟩
  obtain ⟨d, more, isDigit, rfl⟩ := digit
  refine ⟨d, more ++ fraction ++ exponent, isDigit, ?_⟩
  rcases hs with rfl | rfl
  · exact .inl rfl
  · exact .inr rfl

theorem numberUnnamed {t : NumberText} (valid : t.Valid) (rest : List Char) : loadLiteral (t.text ++ rest) = none := by
  obtain ⟨d, more, digit, shape⟩ := numberDigit valid
  have other (c : Char) (miss : c.isDigit = false) : c ≠ d := fun same => by
    rw [same, digit] at miss
    cases miss
  rcases shape with shape | shape
  · rw [shape]
    simp [loadLiteral, Text.after, other 'n' (by decide), other 't' (by decide), other 'f' (by decide),
      other 'N' (by decide), other 'I' (by decide), other '-' (by decide)]
  · rw [shape]
    simp [loadLiteral, Text.after, other 'I' (by decide)]

theorem numberOnce {t : NumberText} (valid : t.Valid) (n depth : Nat) (rest : List Char) :
    loadOnce (n + 1) depth (t.text ++ rest) = loadNumber (t.text ++ rest) := by
  obtain ⟨c, more, shape, start⟩ := numberLeads valid
  obtain ⟨string, object, array, -⟩ := numeralStart start
  have unnamed := numberUnnamed valid rest
  rw [shape, List.cons_append] at unnamed ⊢
  rw [loadOnce, if_neg string, if_neg object, if_neg array, unnamed]

theorem numberLoaded {t : NumberText} (valid : t.Valid) (n depth : Nat) (ends : Ends rest) :
    Reads (loadOnce (n + 1) depth (t.text ++ rest)) rest := by
  rw [numberOnce valid, loadNumber, numberScanned valid ends]
  dsimp only
  split
  · exact .inr ⟨_, rfl, LoadFault.noConfusion⟩
  · exact .inl ⟨_, rfl⟩

def Loads : JsonPart → List Char → Prop
  | .value, text => ∀ n depth rest, text.length < n → Ends rest → Reads (loadOnce n depth (text ++ rest)) rest
  | .items, text => ∀ n depth rest, text.length + 1 < n →
      Reads (loadItems n depth (skipSpace (text ++ ']' :: rest))) rest
  | .members, text => ∀ n depth rest, text.length + 1 < n →
      Reads (loadMembers n depth (skipSpace (text ++ '\x7d' :: rest))) rest

theorem arrayLoaded {n depth : Nat} (leads : ∃ c more, skipSpace (xs ++ ']' :: rest) = c :: more ∧ Leads c)
    (inner : ∀ depth, Reads (loadItems n depth (skipSpace (xs ++ ']' :: rest))) rest) :
    Reads (loadOnce (n + 1) depth ('[' :: (xs ++ [']']) ++ rest)) rest := by
  obtain ⟨c, more, first, -, unclosed, -⟩ := leads
  have filled : (skipSpace (xs ++ ']' :: rest)).head? ≠ some ']' := by
    rw [first]
    exact fun same => unclosed (Option.some.inj same)
  rw [List.cons_append, List.append_assoc, List.singleton_append, loadOnce, if_neg (by decide), if_neg (by decide),
    if_pos rfl]
  split
  · exact .inr ⟨_, rfl, LoadFault.noConfusion⟩
  · exact readsBind (inner _) fun v => .inl ⟨_, rfl⟩

theorem objectLoaded {n depth : Nat} (leads : ∃ c more, skipSpace (xs ++ '\x7d' :: rest) = c :: more ∧ Leads c)
    (inner : ∀ depth, Reads (loadMembers n depth (skipSpace (xs ++ '\x7d' :: rest))) rest) :
    Reads (loadOnce (n + 1) depth ('\x7b' :: (xs ++ ['\x7d']) ++ rest)) rest := by
  obtain ⟨c, more, first, -, -, unclosed⟩ := leads
  have filled : (skipSpace (xs ++ '\x7d' :: rest)).head? ≠ some '\x7d' := by
    rw [first]
    exact fun same => unclosed (Option.some.inj same)
  rw [List.cons_append, List.append_assoc, List.singleton_append, loadOnce, if_neg (by decide), if_pos rfl]
  split
  · exact .inr ⟨_, rfl, LoadFault.noConfusion⟩
  · exact readsBind (inner _) fun v => .inl ⟨_, rfl⟩

theorem emptyLoaded {n depth : Nat} (blank : Blank xs) :
    Reads (loadOnce (n + 1) depth ('[' :: (xs ++ [']']) ++ rest)) rest ∧
      Reads (loadOnce (n + 1) depth ('\x7b' :: (xs ++ ['\x7d']) ++ rest)) rest := by
  constructor
  · rw [List.cons_append, List.append_assoc, List.singleton_append, loadOnce, if_neg (by decide), if_neg (by decide),
      if_pos rfl, skipMark (by decide) blank]
    split
    · exact .inr ⟨_, rfl, LoadFault.noConfusion⟩
    · exact .inl ⟨_, rfl⟩
  · rw [List.cons_append, List.append_assoc, List.singleton_append, loadOnce, if_neg (by decide), if_pos rfl,
      skipMark (by decide) blank]
    split
    · exact .inr ⟨_, rfl, LoadFault.noConfusion⟩
    · exact .inl ⟨_, rfl⟩

theorem memberLoaded {key a b v tail : List Char} {n depth : Nat} (named : StringBody key) (colon : Blank a)
    (after : Blank b) (json : IsJson .value v) (room : key.length < n) (first : Reads (loadOnce n depth (v ++ tail)) tail)
    (last : skipSpace tail = '\x7d' :: rest ∨
      ∃ more, skipSpace tail = ',' :: more ∧ Reads (loadMembers n depth (skipSpace more)) rest) :
    Reads (loadMembers (n + 1) depth (quoted key ++ (a ++ ':' :: (b ++ (v ++ tail))))) rest := by
  rw [quoted, List.cons_append, List.append_assoc, List.singleton_append, loadMembers]
  refine readsBind (textScanned named _ room) fun text => ?_
  have mark : skipSpace (a ++ ':' :: (b ++ (v ++ tail))) = ':' :: (b ++ (v ++ tail)) := skipMark (by decide) colon
  have skipped : skipSpace (b ++ (v ++ tail)) = v ++ tail := by rw [skipBlank after, skipValue json]
  simp only [mark, skipped]
  refine readsBind first fun value => ?_
  dsimp only
  rcases last with closed | ⟨more, comma, later⟩
  · rw [closed]
    exact .inl ⟨_, rfl⟩
  · rw [comma]
    exact readsBind later fun members => .inl ⟨_, rfl⟩

theorem jsonLoads {part : JsonPart} (json : IsJson part xs) : Loads part xs := by
  have value {v b : List Char} {c : Char} (loads : Loads .value v) (blank : Blank b) (n depth : Nat)
      (room : v.length < n) (mark : c = ',' ∨ c = ']' ∨ c = '\x7d') (rest : List Char) :
      Reads (loadOnce n depth (v ++ (b ++ c :: rest))) (b ++ c :: rest) :=
    loads n depth _ room (endsBlank blank (endsMark mark))
  induction json with
  | literal known =>
    intro n depth rest room ends
    obtain ⟨n, rfl⟩ := Nat.exists_eq_succ_of_ne_zero (Nat.ne_of_gt (Nat.zero_lt_of_lt room))
    exact literalLoaded known n depth rest
  | number valid =>
    intro n depth rest room ends
    obtain ⟨n, rfl⟩ := Nat.exists_eq_succ_of_ne_zero (Nat.ne_of_gt (Nat.zero_lt_of_lt room))
    exact numberLoaded valid n depth ends
  | @string body shaped =>
    intro n depth rest room ends
    obtain ⟨n, rfl⟩ := Nat.exists_eq_succ_of_ne_zero (Nat.ne_of_gt (Nat.zero_lt_of_lt room))
    have inside : body.length < n := by
      simp only [quoted, List.length_cons, List.length_append, List.length_nil] at room
      omega
    rw [quoted, List.cons_append, List.append_assoc, List.singleton_append, loadOnce, if_pos rfl]
    exact readsBind (textScanned shaped rest inside) fun v => .inl ⟨_, rfl⟩
  | emptyArray blank =>
    intro n depth rest room ends
    obtain ⟨n, rfl⟩ := Nat.exists_eq_succ_of_ne_zero (Nat.ne_of_gt (Nat.zero_lt_of_lt room))
    exact (emptyLoaded blank).1
  | emptyObject blank =>
    intro n depth rest room ends
    obtain ⟨n, rfl⟩ := Nat.exists_eq_succ_of_ne_zero (Nat.ne_of_gt (Nat.zero_lt_of_lt room))
    exact (emptyLoaded blank).2
  | @array items inner ih =>
    intro n depth rest room ends
    obtain ⟨n, rfl⟩ := Nat.exists_eq_succ_of_ne_zero (Nat.ne_of_gt (Nat.zero_lt_of_lt room))
    rw [List.length_cons, List.length_append, List.length_singleton] at room
    exact arrayLoaded (innerLeads inner JsonPart.noConfusion _) fun depth => ih n depth rest (by omega)
  | @object members inner ih =>
    intro n depth rest room ends
    obtain ⟨n, rfl⟩ := Nat.exists_eq_succ_of_ne_zero (Nat.ne_of_gt (Nat.zero_lt_of_lt room))
    rw [List.length_cons, List.length_append, List.length_singleton] at room
    exact objectLoaded (innerLeads inner JsonPart.noConfusion _) fun depth => ih n depth rest (by omega)
  | @lastItem a v b before json behind ih =>
    intro n depth rest room
    obtain ⟨n, rfl⟩ := Nat.exists_eq_succ_of_ne_zero (Nat.ne_of_gt (Nat.zero_lt_of_lt room))
    rw [List.length_append, List.length_append] at room
    rw [List.append_assoc, List.append_assoc, skipBlank before, skipValue json, loadItems]
    refine readsBind (value ih behind n depth (by omega) (.inr (.inl rfl)) rest) fun item => ?_
    dsimp only
    rw [skipMark (by decide) behind]
    exact .inl ⟨_, rfl⟩
  | @item a v b more before json behind _ ih later =>
    intro n depth rest room
    obtain ⟨n, rfl⟩ := Nat.exists_eq_succ_of_ne_zero (Nat.ne_of_gt (Nat.zero_lt_of_lt room))
    simp only [List.length_append, List.length_cons] at room
    rw [List.append_assoc, List.append_assoc, List.append_assoc, skipBlank before, skipValue json, loadItems,
      List.cons_append]
    refine readsBind (value ih behind n depth (by omega) (.inl rfl) _) fun item => ?_
    dsimp only
    rw [skipMark (by decide) behind]
    exact readsBind (later n depth rest (by omega)) fun items => .inl ⟨_, rfl⟩
  | @lastMember a key b c v d before named colon after json behind ih =>
    intro n depth rest room
    obtain ⟨n, rfl⟩ := Nat.exists_eq_succ_of_ne_zero (Nat.ne_of_gt (Nat.zero_lt_of_lt room))
    simp only [List.length_append, List.length_cons, quoted] at room
    have shape : a ++ quoted key ++ b ++ ':' :: (c ++ v ++ d) ++ '\x7d' :: rest =
        a ++ (quoted key ++ (b ++ ':' :: (c ++ (v ++ (d ++ '\x7d' :: rest))))) := by simp
    rw [shape, skipBlank before, skipValue (.string named)]
    exact memberLoaded named colon after json (by omega)
      (value ih behind n depth (by omega) (.inr (.inr rfl)) rest) (.inl (skipMark (by decide) behind))
  | @member a key b c v d more before named colon after json behind _ ih later =>
    intro n depth rest room
    obtain ⟨n, rfl⟩ := Nat.exists_eq_succ_of_ne_zero (Nat.ne_of_gt (Nat.zero_lt_of_lt room))
    simp only [List.length_append, List.length_cons, quoted] at room
    have shape : a ++ quoted key ++ b ++ ':' :: (c ++ v ++ d ++ ',' :: more) ++ '\x7d' :: rest =
        a ++ (quoted key ++ (b ++ ':' :: (c ++ (v ++ (d ++ ',' :: (more ++ '\x7d' :: rest)))))) := by simp
    rw [shape, skipBlank before, skipValue (.string named)]
    exact memberLoaded named colon after json (by omega) (value ih behind n depth (by omega) (.inl rfl) _)
      (.inr ⟨_, skipMark (by decide) behind, later n depth rest (by omega)⟩)

/-- `json.loads` never finds fault with a text of the grammar. -/
theorem pyLoadsJson (json : IsJson .value xs) (limit : Nat) : pyLoads limit xs ≠ .error .decodeError := by
  have read : Reads (loadOnce (xs.length + 1) limit (xs ++ [])) [] :=
    jsonLoads json (xs.length + 1) limit [] (Nat.lt_succ_self _) fun c hc => by cases hc
  have skipped := skipValue json []
  rw [List.append_nil] at read skipped
  rw [pyLoads, skipped]
  rcases read with ⟨v, found⟩ | ⟨fault, found, other⟩
  · rw [found]
    exact fun same => by cases same
  · rw [found]
    exact fun same => other (Except.error.inj same)

end Reading

end Enfold
